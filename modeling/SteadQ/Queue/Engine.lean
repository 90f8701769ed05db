/-
  File:      SteadQ/Queue/Engine.lean
  Subject:   THE DURABLE MOVE ENGINE (`queue/engine.rs`).

  Every change of state is one `renameat2(RENAME_NOREPLACE)` or one `linkat`; what comes after it
  (identity check, directory barriers) only decides how the outcome is reported. A failure before
  that call is `notCommitted`, a later one `outcomeUnknown`.
-/
import SteadQ.Queue.Layout

namespace SteadQ

open Octet Interact

/-! ## 1. Directories still to be synced -/

/-- Record a directory that needs a barrier; a directory is recorded once. -/
def DirtySet.record (d : DirtySet) (dir : Dir) : LookM IoError DirtySet := do
  let stat ← fstatDir dir
  if d.dirs.any (fun k => k.id = stat.ino) then return d
  else return { d with dirs := d.dirs ++ [dir] }

/-! ## 2. Failures -/

inductive MovePhase where
  | ensureDest
  | preRename
  | rename
  | destinationIdentity
  | postLinearization
  | destFsync
  | sourceFsync
  deriving DecidableEq, Repr

/-- `{phase:?}`. -/
def MovePhase.text : MovePhase → String
  | .ensureDest => "EnsureDest"
  | .preRename => "PreRename"
  | .rename => "Rename"
  | .destinationIdentity => "DestinationIdentity"
  | .postLinearization => "PostLinearization"
  | .destFsync => "DestFsync"
  | .sourceFsync => "SourceFsync"

structure MoveIdentity where
  device : Nat
  inode : Nat
  deriving DecidableEq

/-- A regular file with one name. -/
def isSinglyLinkedRegular (stat : Stat) : Bool := stat.kind = .regular ∧ stat.nlink = 1

def MoveIdentity.matches (m : MoveIdentity) (stat : Stat) : Bool :=
  isSinglyLinkedRegular stat ∧ stat.dev = m.device ∧ stat.ino = m.inode

structure MovedObject where
  device : Nat
  inode : Nat
  size : Nat
  deriving DecidableEq

inductive MoveFailure where
  | notCommitted (phase : MovePhase) (source : IoError)
  | outcomeUnknown (phase : MovePhase) (source : IoError)
  | alreadyExists
  | sourceMissing
  deriving DecidableEq

def MoveFailure.phase : MoveFailure → Option MovePhase
  | .notCommitted p _ => some p
  | .outcomeUnknown p _ => some p
  | _ => none

inductive TmpfilePublishPhase where
  | sourceIdentity
  | fileFsync
  | link
  | destinationFsync
  deriving DecidableEq, Repr

inductive TmpfilePublishOutcome where
  | published (mode : PublicationMode)
  | unsupported
  deriving DecidableEq

inductive TmpfilePublishFailure where
  | notCommitted (phase : TmpfilePublishPhase) (source : IoError)
  | outcomeUnknown (phase : TmpfilePublishPhase) (source : IoError)
  | alreadyExists
  deriving DecidableEq

inductive UnlinkFailure where
  | notCommitted (source : IoError)
  | outcomeUnknown (source : IoError)
  | sourceMissing
  deriving DecidableEq

inductive RemoveDirectoryFailure where
  | notCommitted (source : IoError)
  | outcomeUnknown (source : IoError)
  | sourceMissing
  | notEmpty
  deriving DecidableEq

inductive ReplacePhase where
  | destinationIdentity
  | rename
  | directoryIdentity
  | destinationFsync
  | sourceFsync
  deriving DecidableEq, Repr

inductive ReplaceFailure where
  | notCommitted (phase : ReplacePhase) (source : IoError)
  | outcomeUnknown (phase : ReplacePhase) (source : IoError)
  | sourceMissing
  | destinationChanged
  deriving DecidableEq

def ReplaceFailure.isOutcomeUnknown : ReplaceFailure → Bool
  | .outcomeUnknown .. => true
  | _ => false

/-! ## 3. Moves -/

/-- The rename of a move. -/
def renameClassified (src : Dir) (srcName : Name) (dst : Dir) (dstName : Name) :
    QueueM MoveFailure Unit :=
  Task.mapErr (fun
    | .eexist => .alreadyExists
    | .enoent => .sourceMissing
    | e => .notCommitted .rename e) (renameat2Noreplace src srcName dst dstName)

/-- A barrier after the linearization point. -/
def moveBarrier (phase : MovePhase) (dir : Dir) : QueueM MoveFailure Unit :=
  Task.mapErr (.outcomeUnknown phase) (fsyncDirFd dir)

/-- Whether two descriptors are one directory; a failing `fstat` counts as no. -/
def sameDirectory (source destination : Dir) : LookM MoveFailure Bool := do
  match ← Task.attempt (fstatDir source),
      ← Task.attempt (fstatDir destination) with
  | .ok s, .ok d => return s.dev = d.dev ∧ s.ino = d.ino
  | _, _ => return false

/-- A move without an identity check. -/
def moveVerifiedNoreplace (src : Dir) (srcName : Name) (dst : Dir) (dstName : Name) :
    QueueM MoveFailure Unit := do
  renameClassified src srcName dst dstName
  moveBarrier .destFsync dst
  moveBarrier .sourceFsync src

/-- Behind the rename of a move: what is found at the destination must be the source's inode.
    `after` runs behind the linearization point; `deferred` leaves the barriers to the caller. -/
def confirmMove (deferred : Bool) (src dst : Dir) (dstName : Name) (identity : MoveIdentity)
    (after : LookM IoError α) : QueueM MoveFailure (MovedObject × α) := do
  let stat ← Task.mapErr (.outcomeUnknown .destinationIdentity) (fstatat dst dstName)
  if ¬ identity.matches stat then
    throw (.outcomeUnknown .destinationIdentity
      (.custom "destination identity changed after rename"))
  else do
    let output ← Task.mapErr (.outcomeUnknown .postLinearization) after
    if ¬ deferred then do
      moveBarrier .destFsync dst
      let same ← sameDirectory src dst
      if ¬ same then moveBarrier .sourceFsync src
    return (⟨stat.dev, stat.ino, stat.size⟩, output)

/-- A move that re-reads its destination. -/
def moveWitnessed (deferred : Bool) (src : Dir) (srcName : Name) (dst : Dir) (dstName : Name)
    (identity : MoveIdentity) (after : LookM IoError α) : QueueM MoveFailure (MovedObject × α) := do
  renameClassified src srcName dst dstName
  confirmMove deferred src dst dstName identity after

/-! ## 4. Publication of an unnamed file -/

def isTmpfileOpenUnsupported (e : IoError) : Bool := e = .eisdir ∨ e = .enoent ∨ e = .eopnotsupp
def isDirectLinkUnsupported (e : IoError) : Bool := e = .einval ∨ e = .enoent ∨ e = .eopnotsupp
def isProcLinkUnsupported (e : IoError) : Bool := e = .einval ∨ e = .enosys ∨ e = .eopnotsupp

def unnamedFileIdentity (stat : Stat) : Except IoError MoveIdentity :=
  if stat.kind = .regular ∧ stat.nlink = 0 then .ok ⟨stat.dev, stat.ino⟩
  else .error (.invalidData "temporary publication source is not an unnamed regular file")

inductive LinkStrategyAttempt where
  | published (mode : PublicationMode)
  | tryNext
  | unsupported
  deriving DecidableEq

def tryDirectTmpfileLink (file : Ino) (dst : Dir) (name : Name) :
    QueueM TmpfilePublishFailure LinkStrategyAttempt := do
  match ← Task.attempt (linkat .directAtEmptyPath file dst name) with
  | .ok () => return .published .directAtEmptyPath
  | .error .eexist => throw .alreadyExists
  -- both forms use linkat(2), so ENOSYS rules out the proc path too
  | .error .enosys => return .unsupported
  | .error e =>
    if isDirectLinkUnsupported e then return .tryNext
    else throw (.notCommitted .link e)

def tryProcTmpfileLink (file : Ino) (dst : Dir) (name : Name) :
    QueueM TmpfilePublishFailure LinkStrategyAttempt := do
  match ← Task.attempt (linkat .procSelfFd file dst name) with
  | .ok () => return .published .procSelfFd
  | .error .eexist => throw .alreadyExists
  | .error .enoent => do
    let destination ← Task.mapErr (.notCommitted .link) (fstatDir dst)
    if destination.nlink = 0 then throw (.notCommitted .link .enoent)
    else return .tryNext
  | .error e =>
    if isProcLinkUnsupported e then return .tryNext
    else throw (.notCommitted .link e)

/-- One of the two forms. -/
def tryTmpfileLink (viaProc : Bool) (file : Ino) (dst : Dir) (name : Name) :
    QueueM TmpfilePublishFailure LinkStrategyAttempt :=
  if viaProc then tryProcTmpfileLink file dst name else tryDirectTmpfileLink file dst name

def linkTmpfileNoreplace (file : Ino) (dst : Dir) (name : Name)
    (preferred : Option PublicationMode) :
    QueueM TmpfilePublishFailure (Option PublicationMode) := do
  let procFirst : Bool := preferred = some .procSelfFd
  match ← tryTmpfileLink procFirst file dst name with
  | .published mode => return some mode
  | .unsupported => return none
  | .tryNext =>
    match ← tryTmpfileLink (!procFirst) file dst name with
    | .published mode => return some mode
    | _ => return none

def publishTmpfileNoreplaceImpl (file : Ino) (dst : Dir) (name : Name)
    (preferred : Option PublicationMode) (syncDestination : Bool) :
    QueueM TmpfilePublishFailure TmpfilePublishOutcome := do
  let stat ← Task.mapErr (.notCommitted .sourceIdentity) (fstat file)
  let _ ← Task.mapErr (.notCommitted .sourceIdentity) (Task.ofExcept (unnamedFileIdentity stat))
  Task.mapErr (.notCommitted .fileFsync) (fsync file)
  match ← linkTmpfileNoreplace file dst name preferred with
  | none => return .unsupported
  | some mode => do
    -- reopening the name here would race a consumer that claims the new job at once
    if syncDestination then
      Task.mapErr (.outcomeUnknown .destinationFsync) (fsyncDirFd dst)
    return .published mode

/-! ## 5. Removal and replacement -/

def unlinkVerified (dir : Dir) (name : Name) : QueueM UnlinkFailure Unit := do
  Task.mapErr (fun
    | .enoent => .sourceMissing
    | e => .notCommitted e) (unlinkat dir name)
  Task.mapErr .outcomeUnknown (fsyncDirFd dir)

def removeEmptyDirectoryVerified (parent : Dir) (name : Name) :
    QueueM RemoveDirectoryFailure Unit := do
  Task.mapErr (fun
    | .enoent => .sourceMissing
    | .enotempty => .notEmpty
    | .eexist => .notEmpty
    | e => .notCommitted e) (unlinkatDir parent name)
  Task.mapErr .outcomeUnknown (fsyncDirFd parent)

/-- Replace a destination inside one directory; `expected` is the inode that must be there.
    Both callers pass one descriptor as source and destination directory. -/
def replaceVerified (dir : Dir) (srcName dstName : Name) (expected : Option MoveIdentity) :
    QueueM ReplaceFailure Unit := do
  match expected with
  | none => pure ()
  | some identity => do
    let stat ← Task.mapErr (.notCommitted .destinationIdentity) (fstatat dir dstName)
    if ¬ (stat.dev = identity.device ∧ stat.ino = identity.inode) then throw .destinationChanged
  Task.mapErr (fun
    | .enoent => .sourceMissing
    | e => .notCommitted .rename e) (renameat dir srcName dir dstName)
  Task.mapErr (.outcomeUnknown .destinationFsync) (fsyncDirFd dir)

end SteadQ
