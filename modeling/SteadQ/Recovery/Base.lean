/-
  File:      SteadQ/Recovery/Base.lean
  Subject:   WHAT A RECOVERY PASS KEEPS ACCOUNT OF (`recovery.rs`): budgets, statistics, the
             reading of directories, the retry ledger of the cursor, quarantine.

  A pass works on the handle and on its own statistics; nothing it does throws, failures are
  recorded and the pass goes on or stops.
-/
import Mathlib.Data.List.Sort
import SteadQ.Queue.Consumer

namespace SteadQ

open Octet Interact

/-! ## 1. Budgets and statistics -/

def maxRecoveryDirectoryEntries : Nat := 65536
def maxRecoveryDirectoryNameBytes : Nat := maxRecoveryDirectoryEntries * 255
def maxRecoveryDirectoryEntryCharge : Nat := maxRecoveryDirectoryEntries + 1
def maxRecoveryDirectoryNameByteCharge : Nat := maxRecoveryDirectoryNameBytes + 255
def maxRecoveryHierarchyRetries : Nat := 64
def maxRecoveryResumedTraversalReads : Nat := 4
def recoveryRetryReads : Nat := 1
def minRecoveryProgressReads : Nat := maxRecoveryResumedTraversalReads + recoveryRetryReads
def minRecoveryProgressEntries : Nat := maxRecoveryDirectoryEntries * minRecoveryProgressReads + 1
def minRecoveryProgressNameBytes : Nat :=
  maxRecoveryDirectoryNameBytes * minRecoveryProgressReads + 255

structure WorkBudget where
  maxOperations : UInt32
  maxDurationMs : UInt64
  deriving DecidableEq

structure RecoveryScanBudget where
  maxDirectoriesRead : UInt64
  maxEntriesRead : UInt64
  maxNameBytesRead : UInt64
  deriving DecidableEq

def RecoveryScanBudget.validate (b : RecoveryScanBudget) : Except Error Unit :=
  if b.maxDirectoriesRead.toNat < minRecoveryProgressReads then
    .error (.invalidInput ("recovery max_directories_read must be at least " ++
      toString minRecoveryProgressReads))
  else if b.maxEntriesRead.toNat < minRecoveryProgressEntries then
    .error (.invalidInput ("recovery max_entries_read must be at least " ++
      toString minRecoveryProgressEntries))
  else if b.maxNameBytesRead.toNat < minRecoveryProgressNameBytes then
    .error (.invalidInput ("recovery max_name_bytes_read must be at least " ++
      toString minRecoveryProgressNameBytes))
  else .ok ()

structure RecoveryQuarantine where
  relativePath : Path
  quarantineId : Octets 16
  quarantineName : Name
  deriving DecidableEq

structure RecoveryError where
  operation : String
  relativePath : Path
  error : String
  deriving DecidableEq

/-- Counters wrap nowhere in practice; they are numbers here. -/
structure RecoveryStats where
  operationsAttempted : Nat := 0
  tempFilesDeleted : Nat := 0
  delayedPromoted : Nat := 0
  leasesReaped : Nat := 0
  leasesToDead : Nat := 0
  bucketsRemoved : Nat := 0
  shardsRemoved : Nat := 0
  receiptsCompacted : Nat := 0
  receiptsExpired : Nat := 0
  quarantined : List RecoveryQuarantine := []
  budgetExhausted : Bool := false
  phaseBlocked : Bool := false
  errors : List RecoveryError := []
  scanSkips : Nat := 0

structure RecoveryScanStats where
  directoriesRead : Nat := 0
  entriesRead : Nat := 0
  nameBytesRead : Nat := 0
  deriving DecidableEq

/-- What a pass works on. -/
structure Pass where
  handle : Handle
  stats : RecoveryStats
  scan : RecoveryScanStats

/-- What stays fixed during a pass. -/
structure PassContext where
  budget : WorkBudget
  scanBudget : RecoveryScanBudget
  boottimeNow : UInt64
  wallFloor : Option WallFloor
  deadlineMono : UInt64

abbrev PassM (α : Type) := Task Act.Resp Pass Empty α

def withHandle (p : Pass) (h : Handle) : Pass := { p with handle := h }

/-- Run code of the handle; its failure is a value. -/
def onHandle (m : QueueM ε α) : PassM (Except ε α) :=
  Task.zoom Pass.handle withHandle (Task.attempt m)

def lookHandle (m : LookM ε α) : PassM (Except ε α) :=
  Task.zoom Pass.handle withHandle (attemptLook m)

def onStats (f : RecoveryStats → RecoveryStats) : PassM Unit :=
  Task.remember fun p => { p with stats := f p.stats }

def onScan (f : RecoveryScanStats → RecoveryScanStats) : PassM Unit :=
  Task.remember fun p => { p with scan := f p.scan }

def onCursor (f : RecoveryCursor → RecoveryCursor) : PassM Unit :=
  Task.remember fun p =>
    { p with handle := { p.handle with recoveryCursor := f p.handle.recoveryCursor } }

def thisHandle : PassM Handle := do return (← Task.memory).handle

/-! ## 2. Recording -/

def recordError (op : String) (path : Path) (err : String) : PassM Unit :=
  onStats fun s => { s with errors := s.errors ++ [⟨op, path, err⟩] }

def blockPhase (op : String) (path : Path) (err : String) : PassM Unit := do
  recordError op path err
  onStats fun s => { s with phaseBlocked := true }

def exhaust : PassM Unit := onStats fun s => { s with budgetExhausted := true }
def skipScan : PassM Unit := onStats fun s => { s with scanSkips := s.scanSkips + 1 }

def countOperation : PassM Unit :=
  onStats fun s => { s with operationsAttempted := s.operationsAttempted + 1 }

/-- Category and detail of a failure, appended to the operation's name. -/
def recordFailure (operation : String) (path : Path) (category detail : String) : PassM Unit :=
  recordError (operation ++ "_" ++ category) path detail

def phaseDetail (phase : String) (source : IoError) : String :=
  "phase=" ++ phase ++ ": " ++ source.text

def recordMoveFailure (operation : String) (path : Path) : MoveFailure → PassM Unit
  | .notCommitted phase source =>
    recordFailure operation path "not_committed" (phaseDetail phase.text source)
  | .outcomeUnknown phase source =>
    recordFailure operation path "outcome_unknown" (phaseDetail phase.text source)
  | .alreadyExists =>
    recordFailure operation path "collision" "phase=Rename: destination already exists"
  | .sourceMissing =>
    recordFailure operation path "source_missing" "phase=Rename: source is missing"

def recordUnlinkFailure (operation : String) (path : Path) : UnlinkFailure → PassM Unit
  | .notCommitted source =>
    recordFailure operation path "not_committed" (phaseDetail "Unlink" source)
  | .outcomeUnknown source =>
    recordFailure operation path "outcome_unknown" (phaseDetail "DirectoryFsync" source)
  | .sourceMissing =>
    recordFailure operation path "source_missing" "phase=Unlink: source is missing"

def recordRemoveDirectoryFailure (operation : String) (path : Path) :
    RemoveDirectoryFailure → PassM Unit
  | .notCommitted source =>
    recordFailure operation path "not_committed" (phaseDetail "Remove" source)
  | .outcomeUnknown source =>
    recordFailure operation path "outcome_unknown" (phaseDetail "ParentFsync" source)
  | .sourceMissing =>
    recordFailure operation path "source_missing" "phase=Remove: directory is missing"
  | .notEmpty =>
    recordFailure operation path "not_empty" "phase=Remove: directory is not empty"

def ReplacePhase.text : ReplacePhase → String
  | .destinationIdentity => "DestinationIdentity"
  | .rename => "Rename"
  | .directoryIdentity => "DirectoryIdentity"
  | .destinationFsync => "DestinationFsync"
  | .sourceFsync => "SourceFsync"

def recordReplaceFailure (operation : String) (path : Path) : ReplaceFailure → PassM Unit
  | .notCommitted phase source =>
    recordFailure operation path "not_committed" (phaseDetail phase.text source)
  | .outcomeUnknown phase source =>
    recordFailure operation path "outcome_unknown" (phaseDetail phase.text source)
  | .sourceMissing =>
    recordFailure operation path "source_missing" "phase=Rename: source is missing"
  | .destinationChanged =>
    recordFailure operation path "destination_changed"
      "phase=DestinationIdentity: destination identity changed"

/-! ## 3. Time and work -/

def budgetTimeExceeded (deadlineMono : UInt64) : LookM IoError Bool := do
  return (← clockMonotonicNs) ≥ deadlineMono

/-- Whether classification or mutation work must stop. -/
def workBudgetExhausted (c : PassContext) : PassM Bool := do
  if (← Task.memory).stats.operationsAttempted ≥ c.budget.maxOperations.toNat then return true
  else
    match ← lookHandle (budgetTimeExceeded c.deadlineMono) with
    | .ok exceeded => return exceeded
    | .error e => do
      blockPhase "clock_monotonic" [] ("recovery budget clock unavailable: " ++ e.text)
      return true

/-! ## 4. Reading directories -/

inductive RecoveryDirectoryError where
  | budgetExhausted
  | clock (error : IoError)
  | io (error : IoError)
  deriving DecidableEq

/-- The pass stops on a spent budget and on a lost clock. -/
def recordDirectoryError (op : String) (path : Path) : RecoveryDirectoryError → PassM Bool
  | .budgetExhausted => do
    exhaust
    return true
  | .clock e => do
    blockPhase "clock_monotonic" path
      ("directory budget clock unavailable during " ++ op ++ ": " ++ e.text)
    exhaust
    return true
  | .io e => do
    blockPhase op path e.text
    return false

def tooLarge : IoError := .custom "directory exceeds configured recovery scan bound"

/-- The clock is read before each entry. -/
def unlessStopped (deadlineMono : UInt64) (entries nameBytes : Nat)
    (next : LookM Empty (Except RecoveryDirectoryError Unit × Nat × Nat)) :
    LookM Empty (Except RecoveryDirectoryError Unit × Nat × Nat) := do
  match ← Task.attempt (budgetTimeExceeded deadlineMono) with
  | .error e => return (.error (.clock e), entries, nameBytes)
  | .ok true => return (.error .budgetExhausted, entries, nameBytes)
  | .ok false => next

/-- Take over the names a directory returned one by one: every name read is accounted for, and a
    directory beyond the bounds is refused. `broken` is how the listing broke off behind the
    names, if it did. -/
def countEntries (deadlineMono : UInt64) (broken : Option IoError) :
    (names : List Name) → (entries nameBytes : Nat) →
    LookM Empty (Except RecoveryDirectoryError Unit × Nat × Nat)
  | [], entries, nameBytes =>
    unlessStopped deadlineMono entries nameBytes
      (return (broken.elim (.ok ()) fun e => .error (.io e), entries, nameBytes))
  | name :: rest, entries, nameBytes =>
    unlessStopped deadlineMono entries nameBytes
      (if entries ≥ maxRecoveryDirectoryEntries ∨
          nameBytes + name.length > maxRecoveryDirectoryNameBytes then
        return (.error (.io tooLarge), entries + 1, nameBytes + name.length)
      else countEntries deadlineMono broken rest (entries + 1) (nameBytes + name.length))

/-- The names a listing got to, and how it broke off. -/
def listed : Except (IoError × List Name) (List Name) → List Name × Option IoError
  | .ok names => (names, none)
  | .error (e, names) => (names, some e)

/-- Enumerate a directory in full, if the remaining budget covers the largest one. -/
def readRecoveryDirectory (c : PassContext) (dir : Dir) :
    PassM (Except RecoveryDirectoryError (List Name)) := do
  let scan := (← Task.memory).scan
  if scan.directoriesRead ≥ c.scanBudget.maxDirectoriesRead.toNat then
    return .error .budgetExhausted
  else if c.scanBudget.maxEntriesRead.toNat - scan.entriesRead < maxRecoveryDirectoryEntryCharge ∨
      c.scanBudget.maxNameBytesRead.toNat - scan.nameBytesRead <
        maxRecoveryDirectoryNameByteCharge then
    return .error .budgetExhausted
  else do
    onScan fun s => { s with directoriesRead := s.directoriesRead + 1 }
    match ← lookHandle (openBelow dir []) with
    | .error e => return .error (.io e)
    | .ok _ => do
      let (names, broken) := listed (← lookHandle (enumerate dir))
      match ← lookHandle (countEntries c.deadlineMono broken names 0 0) with
      | .error e => nomatch e
      | .ok (result, entries, nameBytes) => do
        onScan fun s =>
          { s with entriesRead := s.entriesRead + entries, nameBytesRead := s.nameBytesRead + nameBytes }
        match result with
        | .ok () => return .ok names
        | .error e => return .error e

/-- The loop of a stream: the result, and where a later stream resumes. Every entry read counts
    against the budget, so `left` rounds are enough. -/
def streamEntries (c : PassContext) (dir : Dir) (visit : Name → PassM Bool) :
    (left : Nat) → (position : Nat) → PassM (Except RecoveryDirectoryError Bool × Nat)
  | 0, position => return (.error .budgetExhausted, position)
  | left + 1, position => do
    let scan := (← Task.memory).scan
    if scan.entriesRead ≥ c.scanBudget.maxEntriesRead.toNat ∨
        scan.nameBytesRead ≥ c.scanBudget.maxNameBytesRead.toNat then
      return (.error .budgetExhausted, position)
    else
      match ← lookHandle (budgetTimeExceeded c.deadlineMono) with
      | .error e => return (.error (.clock e), position)
      | .ok true => return (.error .budgetExhausted, position)
      | .ok false =>
        match ← lookHandle (nextEntry dir position) with
        | .error e => return (.error (.io e), position)
        | .ok none => return (.ok false, position)
        | .ok (some (name, next)) => do
          onScan fun s =>
            { s with entriesRead := s.entriesRead + 1, nameBytesRead := s.nameBytesRead + name.length }
          -- a stream broken at an entry resumes before it
          if ← visit name then return (.ok true, position)
          else streamEntries c dir visit left next

/-- Stream a directory of any size from `position`. -/
def streamRecoveryDirectory (c : PassContext) (dir : Dir) (position : Nat)
    (visit : Name → PassM Bool) : PassM (Except RecoveryDirectoryError Bool × Nat) := do
  if (← Task.memory).scan.directoriesRead ≥ c.scanBudget.maxDirectoriesRead.toNat then
    return (.error .budgetExhausted, position)
  else do
    onScan fun s => { s with directoriesRead := s.directoriesRead + 1 }
    match ← lookHandle (openBelow dir []) with
    | .error e => return (.error (.io e), position)
    | .ok _ => streamEntries c dir visit (c.scanBudget.maxEntriesRead.toNat + 1) position

/-! ## 5. Quarantine -/

/-- Quarantine an object; `false` when the operation budget ran out. -/
def quarantineRecoveryObject (c : PassContext) (src : Dir) (filename : Name) (relativePath : Path)
    (reason : QuarantineReason) : PassM Bool := do
  let remaining := c.budget.maxOperations.toNat - (← Task.memory).stats.operationsAttempted
  if remaining = 0 then do
    exhaust
    return false
  else do
    let result ← onHandle (publishQuarantineObjectWithIds src filename reason remaining)
    let consumed := match result with
      | .ok publication => publication.attemptsConsumed
      | .error failure => failure.attemptsConsumed
    onStats fun s => { s with operationsAttempted := s.operationsAttempted + consumed }
    match result with
    | .ok publication => do
      onStats fun s => { s with quarantined := s.quarantined ++
        [⟨relativePath, publication.quarantineId, publication.quarantineName⟩] }
      return true
    | .error (.budgetExhausted ..) => do
      recordError "quarantine_budget_exhausted" relativePath
        "quarantine collision retries exhausted the remaining operation budget"
      exhaust
      return false
    | .error failure => do
      recordError "quarantine" relativePath failure.text
      return true

end SteadQ
