/-
  File:      SteadQ/Recovery/Pass.lean
  Subject:   ONE BOUNDED RECOVERY PASS (`recover_with_scan_budget`).

  A pass holds `control/recovery.lock`, reloads the cursor from `control/recovery-cursor.json`,
  takes its own wall floor, runs the phases from the one the cursor names until the budget is
  spent or the last phase is over, and writes the cursor back.

  The text of the cursor file is produced and read by a JSON library; `CursorCodec` is what the
  queue needs of it.
-/
import SteadQ.Recovery.Phases

namespace SteadQ

open Octet Interact

/-! ## 1. The cursor file -/

structure RecoveryCursorRecord where
  schema : Bytes
  version : UInt16
  queueId : Bytes
  cursor : RecoveryCursor
  deriving DecidableEq

/-- A text format for the record: whatever is written is read back. -/
structure CursorCodec where
  encode : RecoveryCursorRecord → Bytes
  decode : Bytes → Except String RecoveryCursorRecord
  decode_encode : ∀ r, decode (encode r) = .ok r

def recoveryCursorSchema : Bytes := ascii "steadq-recovery-cursor"
def recoveryCursorVersion : UInt16 := 1
def recoveryCursorFile : Name := ascii "recovery-cursor.json"
def recoveryLockName : Name := ascii "recovery.lock"
def recoveryCursorMaxBytes : Nat := 16 * 1024
def cursorTempPrefix : Bytes := ascii ".recovery-cursor."
def recoveryCursorTemporaryName (name : Name) : Bool := temporaryName cursorTempPrefix name
def cursorTempName (random : Octets 16) : Name := cursorTempPrefix ++ hexEncode random.1 ++ extTmp

def cursorRecordSizeIsValid (size : Nat) : Bool := 1 ≤ size ∧ size ≤ recoveryCursorMaxBytes

def cursorRecordOf (h : Handle) : RecoveryCursorRecord :=
  ⟨recoveryCursorSchema, recoveryCursorVersion, hexEncode h.format.queueId.1, h.recoveryCursor⟩

/-- What a decoded record must be before its cursor is used. -/
def checkCursorRecord (queueId : Octets 16) (record : RecoveryCursorRecord) :
    Except Error RecoveryCursor :=
  if ¬ (record.schema = recoveryCursorSchema ∧ record.version = recoveryCursorVersion) then
    .error (.queueCorrupt "recovery cursor schema or version is unsupported")
  else if record.queueId ≠ hexEncode queueId.1 then
    .error (.queueCorrupt "recovery cursor belongs to another queue")
  else if ¬ cursorIsValid record.cursor then
    .error (.queueCorrupt "recovery cursor contains an invalid component")
  else .ok record.cursor

def loadRecoveryCursor (codec : CursorCodec) : LookM Error RecoveryCursor := do
  let control ← Task.mapErr Error.from (openRelative controlPath)
  match ← Task.attempt (openAt control recoveryCursorFile) with
  | .error .enoent => return .default
  | .error e => throw (Error.from e)
  | .ok file => do
    let stat ← Task.mapErr Error.from (fstat file)
    if ¬ isSinglyLinkedRegular stat then
      throw (.queueCorrupt "recovery cursor is not a singly linked regular file")
    else if ¬ cursorRecordSizeIsValid stat.size then
      throw (.queueCorrupt "recovery cursor size is invalid")
    else do
      let bytes ← Task.mapErr Error.from (preadExact file 0 stat.size)
      match codec.decode bytes with
      | .error e => throw (.queueCorrupt ("recovery cursor decode: " ++ e))
      | .ok record =>
        Task.ofExcept (checkCursorRecord (← Task.memory).format.queueId record)

def cleanupCursorTemporaryFile (control : Dir) (tempName : Name) (primary : String) :
    QueueM Error α := do
  let stale := "control/" ++ shown tempName
  match ← Task.attempt (unlinkVerified control tempName) with
  | .ok () => throw (.ioFailure primary)
  | .error .sourceMissing => throw (.ioFailure primary)
  | .error (.notCommitted e) =>
    throw (.ioFailure (primary ++
      "; stale recovery cursor temporary file requires later cleanup at " ++ stale ++
      ": cleanup not committed at phase=Unlink: " ++ e.text))
  | .error (.outcomeUnknown e) =>
    throw (.ioFailure (primary ++
      "; cleanup durability is unknown for stale recovery cursor temporary file " ++ stale ++
      ": phase=DirectoryFsync: " ++ e.text))

def cursorReplaceFailure : ReplaceFailure → String
  | .notCommitted phase source =>
    "recovery cursor replacement not committed at phase=" ++ phase.text ++ ": " ++ source.text
  | .outcomeUnknown phase source =>
    "recovery cursor replacement outcome unknown at phase=" ++ phase.text ++ ": " ++ source.text
  | .sourceMissing =>
    "recovery cursor replacement not committed at phase=Rename: source is missing"
  | .destinationChanged =>
    "recovery cursor replacement not committed at phase=DestinationIdentity: destination identity changed"

def cursorNotCommitted (phase : String) (e : IoError) : Error :=
  .ioFailure ("recovery cursor publication not committed at phase=" ++ phase ++ ": " ++ e.text)

def persistRecoveryCursor (codec : CursorCodec) : QueueM Error Unit := do
  let bytes := codec.encode (cursorRecordOf (← Task.memory))
  if ¬ cursorRecordSizeIsValid bytes.length then
    throw (.invalidInput "recovery cursor exceeds maximum encoded size")
  else do
    let control ← Task.mapErr (cursorNotCommitted "ControlOpen") (openRelative controlPath)
    let random ← Task.mapErr (cursorNotCommitted "TempName") random128bit
    let tempName := cursorTempName random
    let temp ← Task.mapErr (cursorNotCommitted "TempCreate") (createExclusive control tempName)
    match ← Task.attempt (writeAll temp bytes) with
    | .error e =>
      cleanupCursorTemporaryFile control tempName
        ("recovery cursor publication not committed at phase=TempWrite: " ++ e.text)
    | .ok () =>
      match ← Task.attempt (fsync temp) with
      | .error e =>
        cleanupCursorTemporaryFile control tempName
          ("recovery cursor publication not committed at phase=TempFsync: " ++ e.text)
      | .ok () =>
        match ← Task.attempt (replaceVerified control tempName recoveryCursorFile none) with
        | .ok () => return ()
        | .error failure =>
          if failure.isOutcomeUnknown then throw (.ioFailure (cursorReplaceFailure failure))
          else cleanupCursorTemporaryFile control tempName (cursorReplaceFailure failure)

/-! ## 2. The lock and the sweep -/

/-- The lock file is created the first time. -/
def acquireRecoveryLock : QueueM Error Unit := do
  let control ← Task.mapErr Error.from (openRelative controlPath)
  match ← Task.attempt (createExclusive control recoveryLockName) with
  | .ok file => do
    Task.mapErr Error.from (fsync file)
    Task.mapErr Error.from (fsyncDirFd control)
  | .error .eexist => do
    let _ ← Task.mapErr Error.from (openAt control recoveryLockName)
  | .error e => throw (Error.from e)
  let locked ← Task.mapErr Error.from (tryOfdWriteLock .recovery)
  if ¬ locked then throw .maintenanceBusy else return ()

def sweepNames (control : Dir) : List Name → PassM Unit
  | [] => return ()
  | name :: rest => do
    match ← onHandle (unlinkVerified control name) with
    | .ok () => sweepNames control rest
    | .error .sourceMissing => sweepNames control rest
    | .error failure => do
      recordUnlinkFailure "recovery_cursor_sweep" (controlPath ++ [name]) failure
      sweepNames control rest

/-- Remove the temporary cursor files a crashed pass left behind. -/
def sweepCursorTemporaryFiles : PassM Unit := do
  match ← lookHandle (do
      let control ← openRelative controlPath
      let names ← readDir control
      return (control, names)) with
  | .error e => recordError "recovery_cursor_sweep" controlPath e.text
  | .ok (control, names) => sweepNames control (names.filter recoveryCursorTemporaryName)

/-! ## 3. The pass -/

def RecoveryPhase.next : RecoveryPhase → RecoveryPhase
  | .reapLeases => .promoteDelayed
  | .promoteDelayed => .cleanupTemp
  | .cleanupTemp => .compactReceipts
  | .compactReceipts => .deleteReceipts
  | .deleteReceipts => .reapLeases

/-- Phases that depend on wall time are passed over when the pass has no floor. -/
def runPhase (c : PassContext) : RecoveryPhase → PassM Unit
  | .reapLeases => reapExpiredLeases c
  | .promoteDelayed =>
    match c.wallFloor with
    | some floor => promoteDelayed c floor
    | none => return ()
  | .cleanupTemp => cleanupTempFiles c
  | .compactReceipts => compactReceiptsWithScanBudget c
  | .deleteReceipts => do
    match c.wallFloor with
    | some floor => deleteExpiredReceipts c floor (← thisHandle).options.receiptRetentionNs
    | none => return ()

/-- The phases from the cursor's on; there are at most five. -/
def runPhases (c : PassContext) : (left : Nat) → PassM Unit
  | 0 => return ()
  | left + 1 => do
    if (← Task.memory).stats.budgetExhausted then return ()
    else do
      let phase := (← thisHandle).recoveryCursor.phase
      runPhase c phase
      if (← Task.memory).stats.budgetExhausted then pure ()
      else onCursor fun k => { k with phase := phase.next }
      if ← workBudgetExhausted c then exhaust
      if phase = .deleteReceipts then return () else runPhases c left

/-- `start + duration`, saturating. -/
def deadlineOf (startMono : UInt64) (budget : WorkBudget) : UInt64 :=
  UInt64.ofNat (min (startMono.toNat + min (budget.maxDurationMs.toNat * 1000000) (2 ^ 64 - 1))
    (2 ^ 64 - 1))

/-- The pass proper, from the loading of the cursor to its writing back. -/
def recoverLocked (codec : CursorCodec) (budget : WorkBudget) (scanBudget : RecoveryScanBudget) :
    PassM Unit := do
  sweepCursorTemporaryFiles
  match ← lookHandle (loadRecoveryCursor codec) with
  | .error e => recordError "recovery_cursor_reload" (controlPath ++ [recoveryCursorFile]) e.text
  | .ok cursor => do
    onCursor fun _ => cursor
    match ← lookHandle clockBoottimeNs with
    | .error e => recordError "clock_boottime" [] e.text
    | .ok boottimeNow => do
      let floor ← onHandle (marked stabilizedWallFloor)
      match floor with
      | .error e =>
        recordError "wall_floor" []
          ("wall floor unavailable, skipping wall-sensitive recovery actions: " ++ e.text)
      | .ok _ => pure ()
      match ← lookHandle clockMonotonicNs with
      | .error e => recordError "clock_monotonic" [] e.text
      | .ok startMono => do
        runPhases ⟨budget, scanBudget, boottimeNow, floor.toOption, deadlineOf startMono budget⟩ 5
        match ← onHandle (persistRecoveryCursor codec) with
        | .ok () => return ()
        | .error e =>
          recordError "recovery_cursor_persist" (controlPath ++ [recoveryCursorFile]) e.text

structure RecoveryReport where
  stats : RecoveryStats
  scan : RecoveryScanStats

def recoverPass (codec : CursorCodec) (budget : WorkBudget) (scanBudget : RecoveryScanBudget) :
    PassM Unit := do
  match scanBudget.validate with
  | .error e => do
    onStats fun s => { s with phaseBlocked := true }
    recordError "recovery_scan_budget" [] e.text
  | .ok () =>
    match ← onHandle acquireRecoveryLock with
    | .error e => recordError "recovery_lock" (controlPath ++ [recoveryLockName]) e.text
    | .ok () => do
      recoverLocked codec budget scanBudget
      let _ ← onHandle (ε := Empty) (unlockFile .recovery)

/-- A pass starts with empty statistics and reports them. -/
def recoverWithScanBudget (codec : CursorCodec) (budget : WorkBudget)
    (scanBudget : RecoveryScanBudget) : QueueM Empty RecoveryReport :=
  Task.ofStart fun h => (recoverPass codec budget scanBudget).start ⟨h, {}, {}⟩ >>= fun x =>
    .ret (.ok ⟨x.2.stats, x.2.scan⟩, x.2.handle)

end SteadQ
