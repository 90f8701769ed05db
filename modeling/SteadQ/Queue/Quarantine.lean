/-
  File:      SteadQ/Queue/Quarantine.lean
  Subject:   MOVING AN OBJECT TO QUARANTINE (`quarantine.rs`, `quarantine_corrupt_lease`).

  A quarantined object gets a fresh random name; a name that is taken is tried again with
  another one, a bounded number of times.
-/
import SteadQ.Queue.Publish
import SteadQ.Queue.Verified

namespace SteadQ

open Octet Interact

def quarantinePath : Path := [State.quarantine.dirName]

def quarantineNameAttempts : Nat := 8

inductive QuarantinePreparePhase where
  | attemptBudget
  | ensureDirectory
  | openDirectory
  | randomName
  | sourceLock
  | sourceIdentity
  deriving DecidableEq, Repr

def QuarantinePreparePhase.text : QuarantinePreparePhase → String
  | .attemptBudget => "AttemptBudget"
  | .ensureDirectory => "EnsureDirectory"
  | .openDirectory => "OpenDirectory"
  | .randomName => "RandomName"
  | .sourceLock => "SourceLock"
  | .sourceIdentity => "SourceIdentity"

inductive QuarantinePublishFailure where
  | preparation (phase : QuarantinePreparePhase) (source : IoError) (attemptsConsumed : Nat)
  | move (quarantineId : Octets 16) (quarantineName : Name) (failure : MoveFailure)
      (attemptsConsumed : Nat)
  | collisionExhausted (attempts : Nat) (lastQuarantineId : Octets 16) (lastQuarantineName : Name)
  | budgetExhausted (attempts : Nat) (lastQuarantineId : Octets 16) (lastQuarantineName : Name)

def QuarantinePublishFailure.attemptsConsumed : QuarantinePublishFailure → Nat
  | .preparation _ _ n => n
  | .move _ _ _ n => n
  | .collisionExhausted n _ _ => n
  | .budgetExhausted n _ _ => n

def QuarantinePublishFailure.text : QuarantinePublishFailure → String
  | .preparation phase source _ =>
    "quarantine not committed at phase=" ++ phase.text ++ ": " ++ source.text
  | .move id name failure _ =>
    let named := " id=" ++ shown (hexEncode id.1) ++ " name=" ++ shown name
    match failure with
    | .notCommitted phase source =>
      "quarantine not committed" ++ named ++ " phase=" ++ phase.text ++ ": " ++ source.text
    | .outcomeUnknown phase source =>
      "quarantine outcome unknown" ++ named ++ " phase=" ++ phase.text ++ ": " ++ source.text
    | .alreadyExists => "quarantine destination collision" ++ named
    | .sourceMissing => "quarantine source missing" ++ named
  | .collisionExhausted attempts id name =>
    "quarantine destination collision after " ++ toString attempts ++ " attempts last_id=" ++
      shown (hexEncode id.1) ++ " last_name=" ++ shown name
  | .budgetExhausted attempts id name =>
    "quarantine retry budget exhausted after " ++ toString attempts ++ " attempts last_id=" ++
      shown (hexEncode id.1) ++ " last_name=" ++ shown name

structure QuarantinePublication where
  quarantineId : Octets 16
  quarantineName : Name
  attemptsConsumed : Nat

/-- Move attempt number `limit - left + 1` and the ones after it; `left` are left. -/
def quarantineAttempts (src : Dir) (filename : Name) (reason : QuarantineReason) (quarantine : Dir)
    (limit : Nat) : (left : Nat) → QueueM QuarantinePublishFailure QuarantinePublication
  | 0 => throw (.preparation .attemptBudget
      (.custom "no quarantine move attempt budget remains") 0)
  | left + 1 => do
    let attempts := limit - left
    let id ← Task.mapErr (fun e => .preparation .randomName e (attempts - 1)) random128bit
    let name := quarantineFilename id reason.code
    match ← Task.attempt (moveVerifiedNoreplace src filename quarantine name) with
    | .ok () => return ⟨id, name, attempts⟩
    | .error .alreadyExists =>
      if left = 0 then
        if limit = quarantineNameAttempts then throw (.collisionExhausted attempts id name)
        else throw (.budgetExhausted attempts id name)
      else quarantineAttempts src filename reason quarantine limit left
    | .error failure => throw (.move id name failure attempts)

def publishQuarantineObjectWithIds (src : Dir) (filename : Name) (reason : QuarantineReason)
    (maxMoveAttempts : Nat) : QueueM QuarantinePublishFailure QuarantinePublication := do
  let limit := min maxMoveAttempts quarantineNameAttempts
  if limit = 0 then
    throw (.preparation .attemptBudget (.custom "no quarantine move attempt budget remains") 0)
  else do
    Task.mapErr (fun e => .preparation .ensureDirectory e 0) (ensureDir quarantinePath)
    let quarantine ← Task.mapErr (fun e => .preparation .openDirectory e 0)
      (openRelative quarantinePath)
    quarantineAttempts src filename reason quarantine limit limit

def publishQuarantineObject (src : Dir) (filename : Name) (reason : QuarantineReason) :
    QueueM QuarantinePublishFailure QuarantinePublication :=
  publishQuarantineObjectWithIds src filename reason quarantineNameAttempts

/-- Move a just leased object whose payload is corrupt. -/
def quarantineCorruptLease (leasedDir : Dir) (leasedName : Name) (held : Ino) :
    QueueM MoveFailure Unit := do
  let before := MoveFailure.notCommitted .preRename
  let heldStat ← Task.mapErr before (fstat held)
  let nameStat ← Task.mapErr before (fstatat leasedDir leasedName)
  if heldStat.dev ≠ nameStat.dev ∨ heldStat.ino ≠ nameStat.ino then throw .sourceMissing
  else do
    let id ← Task.mapErr before random128bit
    Task.mapErr before (ensureDir quarantinePath)
    let quarantine ← Task.mapErr before (openRelative quarantinePath)
    let _ ← moveWitnessed false leasedDir leasedName quarantine
      (quarantineFilename id QuarantineReason.payloadCorrupt.code)
      ⟨heldStat.dev, heldStat.ino⟩ (pure ())

end SteadQ
