/-
  File:      SteadQ/Handle.lean
  Subject:   THE QUEUE HANDLE (`struct Queue`), its private memory, and the system calls as tasks.
-/
import SteadQ.Fs

namespace SteadQ

open Octet Interact

/-! ## 1. Recovery cursors -/

/-- Last fully classified entry of a three-level hierarchy. -/
structure ThreeLevelCursor where
  first : Name
  second : Name
  resumeAfter : Name
  deriving DecidableEq

/-- Last fully classified entry of a four-level hierarchy. -/
structure FourLevelCursor where
  first : Name
  second : Name
  third : Name
  resumeAfter : Name
  deriving DecidableEq

inductive RecoveryPhase where
  | reapLeases
  | promoteDelayed
  | cleanupTemp
  | compactReceipts
  | deleteReceipts
  deriving DecidableEq, Repr

inductive RecoveryHierarchyRetryKind where
  | open
  | enumerate
  deriving DecidableEq, Repr

/-- A directory that must be retried independently of the main cursor. -/
structure RecoveryHierarchyRetry where
  phase : RecoveryPhase
  kind : RecoveryHierarchyRetryKind
  components : List Name
  deriving DecidableEq

structure RecoveryCursor where
  phase : RecoveryPhase
  reapLeases : Option FourLevelCursor
  reapColocatedShard : Option UInt32
  reapColocatedPosition : Option Nat
  promoteDelayed : Option ThreeLevelCursor
  cleanupTemp : Option ThreeLevelCursor
  compactReceipts : Option ThreeLevelCursor
  deleteReceipts : Option ThreeLevelCursor
  hierarchyRetries : List RecoveryHierarchyRetry
  hierarchyRetryFrontiers : List RecoveryHierarchyRetry
  hierarchyRetryOverflow : List RecoveryPhase
  deriving DecidableEq

def RecoveryCursor.default : RecoveryCursor :=
  ⟨.reapLeases, none, none, none, none, none, none, none, [], [], []⟩

/-! ## 2. The handle -/

inductive PublicationMode where
  | directAtEmptyPath
  | procSelfFd
  | namedFallback
  deriving DecidableEq, Repr

/-- Directories whose barrier is still to come, and the directories that become known with it. -/
structure DirtySet where
  dirs : List Dir
  pendingDirs : List Path
  deriving DecidableEq

def DirtySet.empty : DirtySet := ⟨[], []⟩

structure OpenOptions where
  receiptRetentionNs : UInt64
  temporaryFileTtlNs : UInt64
  deferredDirSync : Bool
  deriving DecidableEq

structure Handle where
  format : FormatRecord
  bootId : Bytes
  bootIdBytes : Octets 16
  poisoned : Option PoisonReason
  scanRound : UInt64
  readyShardHint : Option UInt32
  workerNonce : Octets 16
  options : OpenOptions
  recoveryCursor : RecoveryCursor
  cachedWallFloor : Option WallFloor
  cachedWatermarkFd : Option Ino
  knownDirs : List Path
  cachedDestFd : Option Dir
  publicationMode : Option PublicationMode
  dirty : DirtySet

/-! ## 3. Tasks -/

/-- Code of a handle that changes neither the file system nor the handle. -/
abbrev LookM (ε α : Type) := Task Look.Resp Handle ε α

/-- Code of a handle. -/
abbrev QueueM (ε α : Type) := Task Act.Resp Handle ε α

/-- Look, and leave the handle as it is. -/
def looking (m : LookM ε α) : QueueM ε α := Task.peek Act.look (fun _ r => r) m

instance : MonadLift (LookM ε) (QueueM ε) where
  monadLift := looking

/-- Run a look whose failure is a value for the caller. -/
def attemptLook (m : LookM ε' α) : QueueM ε (Except ε' α) := Task.attempt (looking m)

section Calls

variable {ε : Type}

def clockRealtimeNs : LookM IoError UInt64 := Task.call .clockRealtime id
def clockBoottimeNs : LookM IoError UInt64 := Task.call .clockBoottime id
def clockMonotonicNs : LookM IoError UInt64 := Task.call .clockMonotonic id

/-- Open a directory by its path below another. -/
def openBelow (base : Dir) (path : Path) : LookM IoError Dir :=
  Task.call (.openDirectory base path) fun r => Except.map (Dir.mk (base.path ++ path)) r

def openRelative (path : Path) : LookM IoError Dir := openBelow rootDir path
def openDirectory (parent : Dir) (name : Name) : LookM IoError Dir := openBelow parent [name]

def openAt (dir : Dir) (name : Name) : LookM IoError Ino := Task.call (.openAt dir name) id
def fstatat (dir : Dir) (name : Name) : LookM IoError Stat := Task.call (.fstatat dir name) id
def fstat (file : Ino) : LookM IoError Stat := Task.call (.fstat file) id
def fstatDir (dir : Dir) : LookM IoError Stat := Task.call (.fstatDir dir) id

def pread (file : Ino) (offset length : Nat) : LookM IoError Bytes :=
  Task.call (.pread file offset length) id

/-- The answer of a read that has to fill its buffer. -/
def exactly (length : Nat) : Except IoError Bytes → Except IoError Bytes
  | .ok b => if b.length = length then .ok b else .error .unexpectedEof
  | .error e => .error e

theorem exactly_eq_ok {length : Nat} {r : Except IoError Bytes} {b : Bytes} :
    exactly length r = .ok b ↔ r = .ok b ∧ b.length = length := by
  cases r with
  | error e => simp [exactly]
  | ok c =>
    simp only [exactly, Except.ok.injEq]
    split <;> simp <;> grind

/-- Read exactly `length` bytes. -/
def preadExact (file : Ino) (offset length : Nat) : LookM IoError Bytes :=
  Task.call (.pread file offset length) (exactly length)

/-- List a directory; a listing that breaks off has read some names. -/
def enumerate (dir : Dir) : LookM (IoError × List Name) (List Name) := Task.call (.readDir dir) id

def readDir (dir : Dir) : LookM IoError (List Name) := Task.mapErr Prod.fst (enumerate dir)

def nextEntry (dir : Dir) (position : Nat) : LookM IoError (Option (Name × Nat)) :=
  Task.call (.nextEntry dir position) id

def random128bit : QueueM IoError (Octets 16) := Task.call .random128 id
def tryOfdWriteLock (lock : LockFile) : QueueM IoError Bool := Task.call (.tryLock lock) id
def unlockFile (lock : LockFile) : QueueM ε Unit := Task.call (.unlock lock) fun _ => .ok ()
def mkdirat (dir : Dir) (name : Name) : QueueM IoError Unit := Task.call (.mkdirat dir name) id

/-- Create a directory unless it is there. -/
def mkdiratEexistOk (dir : Dir) (name : Name) : QueueM IoError Bool :=
  Task.call (.mkdirat dir name) fun r =>
    match (r : Except IoError Unit) with
    | .ok () => .ok true
    | .error .eexist => .ok false
    | .error e => .error e

def unlinkatDir (dir : Dir) (name : Name) : QueueM IoError Unit :=
  Task.call (.unlinkatDir dir name) id

def unlinkat (dir : Dir) (name : Name) : QueueM IoError Unit := Task.call (.unlinkat dir name) id
def openTmpfile (dir : Dir) : QueueM IoError Ino := Task.call (.openTmpfile dir) id

def createExclusive (dir : Dir) (name : Name) : QueueM IoError Ino :=
  Task.call (.createExclusive dir name) id

def writeAll (file : Ino) (data : Bytes) : QueueM IoError Unit := Task.call (.write file data) id

def pwriteAll (file : Ino) (data : Bytes) (offset : Nat) : QueueM IoError Unit :=
  Task.call (.pwrite file data offset) id

def fsync (file : Ino) : QueueM IoError Unit := Task.call (.fsync file) id
def fsyncDirFd (dir : Dir) : QueueM IoError Unit := Task.call (.fsyncDir dir) id

def linkat (form : LinkForm) (file : Ino) (dir : Dir) (name : Name) : QueueM IoError Unit :=
  Task.call (.linkat form file dir name) id

def renameat2Noreplace (src : Dir) (srcName : Name) (dst : Dir) (dstName : Name) :
    QueueM IoError Unit :=
  Task.call (.renameNoreplace src srcName dst dstName) id

def renameat (src : Dir) (srcName : Name) (dst : Dir) (dstName : Name) : QueueM IoError Unit :=
  Task.call (.renameat src srcName dst dstName) id

def mark (m : Mark) : QueueM ε Unit := Task.call (.mark m) fun _ => .ok ()

end Calls

/-- An opened directory knows its path. -/
theorem openBelow_eq_ok {base d : Dir} {path : Path} {r : Except IoError DirId}
    (h : Except.map (Dir.mk (base.path ++ path)) r = .ok d) : d.path = base.path ++ path := by
  cases r with
  | error e => cases h
  | ok id =>
    cases h
    rfl

theorem openBelow_yields (base : Dir) (path : Path) :
    (openBelow base path).Yields fun d => d.path = base.path ++ path :=
  Task.yields_call fun _ _ => openBelow_eq_ok

/-! ## 4. Poisoning -/

def checkNotPoisoned : LookM Error Unit := do
  match (← Task.memory).poisoned with
  | some reason => throw (.queuePoisoned reason.text)
  | none => pure ()

/-- The first reason wins. -/
def Handle.poison (h : Handle) (reason : PoisonReason) : Handle :=
  { h with poisoned := h.poisoned.or (some reason) }

def poison (reason : PoisonReason) : QueueM ε Unit := Task.remember (·.poison reason)

/-! ## 5. Notes of looks -/

/-- The note of a look is that of the call it becomes. -/
def lookNote (a : Look) (r : a.Resp) : Σ a, Act.Resp a := ⟨.look a, r⟩

theorem notes_looking {ε α : Type} {m : LookM ε α} {h : Handle} {l : Log Act.Resp}
    {Q : Except ε α → Handle → Log Act.Resp → Prop}
    (hm : m.Notes lookNote h l fun r _ l' => Q r h l') : (looking m).Notes Sigma.mk h l Q := by
  have hpull : m.Meets (Task.pull (noting Sigma.mk) Act.look fun _ r => r) h l
      fun r _ l' => l <:+ l' ∧ Q r h l' := hm
  exact Task.meets_pull (fun _ _ => rfl) hpull

/-- A look of which nothing is said. -/
theorem notes_anyLook {ε α : Type} {m : LookM ε α} {h : Handle} {l : Log Act.Resp} :
    (looking m).Notes Sigma.mk h l fun _ h' _ => h' = h :=
  notes_looking (Task.notes_any fun _ _ _ _ => rfl)

end SteadQ
