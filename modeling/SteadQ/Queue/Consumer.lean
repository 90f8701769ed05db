/-
  File:      SteadQ/Queue/Consumer.lean
  Subject:   ACK, RETRY, BURY, RENEW: moves out of a leased name (`queue/consumer.rs`).

  All of them end in `executeLeasedMove`: the source is the exact path in the caller's lease,
  checked against the lease and witnessed once more right before the rename.
-/
import SteadQ.Queue.Lease

namespace SteadQ

open Octet Interact

/-! ## 1. The current leased source -/

structure LeasedSourceWitness where
  directory : Dir
  name : Name
  file : Ino
  device : Nat
  inode : Nat

/-- The fields of a leased name against the lease. -/
def checkLeasedName (lease : LeaseInfo) (parsed : LeasedName) : Except Error Unit :=
  if parsed.common.jobId ≠ lease.jobId then .error (.queueCorrupt "source job_id mismatch")
  else if parsed.common.generation ≠ lease.generation then
    .error (.queueCorrupt "source generation mismatch")
  else if parsed.common.attempt ≠ lease.attempt then
    .error (.queueCorrupt "source attempt mismatch")
  else if parsed.common.maximumAttempts ≠ lease.maximumAttempts then
    .error (.queueCorrupt "source max_attempts mismatch")
  else if parsed.token ≠ lease.token then .error (.queueCorrupt "source token mismatch")
  else if parsed.boottimeDeadlineNs ≠ lease.expiresBoottimeNs then
    .error (.queueCorrupt "source boottime deadline mismatch")
  else if parsed.wallDeadlineNs ≠ lease.expiresWallNs then
    .error (.queueCorrupt "source wall deadline mismatch")
  else .ok ()

/-- The place of a leased name: its bucket and its tag. -/
def checkLeasedPlace (format : FormatRecord) (parsed : LeasedName) (bootId : Bytes)
    (bucket : UInt64) (shard : UInt32) : Except Error Unit :=
  match leaseBucket parsed.boottimeDeadlineNs format.leaseBucketWidthNs with
  | none => .error .stateExhausted
  | some expected =>
    if bucket ≠ expected then .error (.queueCorrupt "source lease bucket mismatch")
    else if ¬ parsed.authenticateTag format.queueId bootId (bucketHex bucket) (shardHex shard) then
      .error (.queueCorrupt "source name tag mismatch")
    else .ok ()

/-- The header of the source against the lease. -/
def checkLeasedHeader (lease : LeaseInfo) (header : FixedHeader) : Except Error Unit :=
  if header.jobId ≠ lease.jobId then
    .error (.queueCorrupt "header job_id does not match handle")
  else if header.maximumAttempts ≠ lease.maximumAttempts then
    .error (.queueCorrupt ("header maximum_attempts " ++ toString header.maximumAttempts ++
      " does not match handle " ++ toString lease.maximumAttempts))
  else if header.envelopeDigest ≠ lease.envelopeDigest then
    .error (.queueCorrupt "envelope digest does not match handle")
  else if header.payloadLength ≠ lease.payloadLength then
    .error (.queueCorrupt "payload length does not match handle")
  else if header.payloadDigest ≠ lease.payloadDigest then
    .error (.queueCorrupt "payload digest does not match handle")
  else if isExtensionTooLarge header.extensionHeaderLength.toNat then
    .error (.queueCorrupt "extension header too large")
  else .ok ()

/-- The place named by a lease: boot, bucket and shard, checked against handle and lease. -/
def leasedPlace (h : Handle) (lease : LeaseInfo) :
    Except Error (Bytes × UInt64 × UInt32 × Name) :=
  if lease.expectedDev = 0 then
    .error (.queueCorrupt "expected_dev is zero (forgeable handle)")
  else if lease.expectedInode = 0 then
    .error (.queueCorrupt "expected_inode is zero (forgeable handle)")
  else
    match h.layout.parseLeasedPath lease.exactSourcePath with
    | .error e => .error e
    | .ok (.leased bootId bucket shard, name) =>
      if bootId ≠ h.bootId then
        .error (.invalidInput ("source boot_id '" ++ shown bootId ++
          "' does not match queue boot_id '" ++ shown h.bootId ++ "'"))
      else if bootId ≠ lease.bootId then
        .error (.queueCorrupt "source boot_id does not match lease handle")
      else
        let computed := computeShard h.format.queueId lease.jobId h.format.shardCount
        if shard ≠ computed then
          .error (.queueCorrupt ("source shard " ++ toString shard ++
            " does not match queue-derived shard " ++ toString computed))
        else .ok (bootId, bucket, shard, name)
    -- parse_leased_path always returns a leased location
    | .ok _ => .error (.queueCorrupt "invalid leased path")

/-- Directory of the lease and the `fstatat` of its name; none when either is gone. -/
def lookUpLeasedSource (lease : LeaseInfo) (name : Name) : LookM Error (Option (Dir × Stat)) := do
  match ← Task.attempt (openRelative lease.exactSourcePath.dropLast) with
  | .error .enoent => return none
  | .error .enotdir =>
    throw (.queueCorrupt "intermediate lease path component is not a directory")
  | .error e => throw (Error.from e)
  | .ok dir =>
    match ← Task.attempt (fstatat dir name) with
    | .error .enoent => return none
    | .error e => throw (Error.from e)
    | .ok stat => return some (dir, stat)

/-- The extension header of the leased file. -/
def preadExtension (file : Ino) (extLen : Nat) : LookM Error Bytes :=
  if extLen > 0 then Task.mapErr Error.from (preadExact file 128 extLen) else return []

/-- Open the leased file and check that name, lease and content are one object. -/
def openLeasedFile (lease : LeaseInfo) (dir : Dir) (name : Name) (srcStat : Stat) :
    LookM Error LeasedSourceWitness := do
  let file ← Task.mapErr Error.from (openAt dir name)
  let opened ← Task.mapErr Error.from (fstat file)
  if ¬ statMatchesWitness opened lease.expectedDev lease.expectedInode then
    throw (.queueCorrupt "opened source identity does not match lease handle")
  else if ¬ statMatchesWitness srcStat opened.dev opened.ino then
    throw (.queueCorrupt "source path changed while opening lease")
  else do
    let buf ← Task.mapErr Error.from (preadExact file 0 fixedHeaderSize)
    let header ← Task.ofExcept
      ((FixedHeader.decode buf).mapError fun e => .queueCorrupt ("header decode: " ++ e.text))
    Task.ofExcept (checkLeasedHeader lease header)
    let extLen := header.extensionHeaderLength.toNat
    let ext ← preadExtension file extLen
    let expected := 128 + extLen + header.payloadLength.toNat
    if ¬ verifyEnvelopeDigest header ext then throw (.queueCorrupt "envelope digest mismatch")
    else if ¬ expected < 2 ^ 64 then throw (.queueCorrupt "size overflow")
    else if opened.size ≠ expected then
      throw (.queueCorrupt ("source file size mismatch: expected " ++ toString expected ++
        ", got " ++ toString opened.size))
    else return ⟨dir, name, file, opened.dev, opened.ino⟩

/-- The current source of a lease; none when it is gone. -/
def openAndValidateCurrentLease (lease : LeaseInfo) :
    LookM Error (Option LeasedSourceWitness) := do
  let h ← Task.memory
  let (bootId, bucket, shard, name) ← Task.ofExcept (leasedPlace h lease)
  match ← lookUpLeasedSource lease name with
  | none => return none
  | some (dir, srcStat) =>
    if ¬ isSinglyLinkedRegular srcStat then
      throw (.queueCorrupt "source is not a singly-linked regular file")
    else
      match parseLeased name with
      | .error _ => throw (.queueCorrupt "source filename is not a valid leased name")
      | .ok parsed => do
        Task.ofExcept (checkLeasedName lease parsed)
        Task.ofExcept (checkLeasedPlace h.format parsed bootId bucket shard)
        let witness ← openLeasedFile lease dir name srcStat
        return some witness

/-! ## 2. The move -/

inductive LeasedMoveOutcome where
  | committed
  | outcomeUnknown (phase : TransitionPhase)
  | sourceGone
  | sourceChanged
  | collision
  | failed (error : Error)
  deriving DecidableEq

def executeLeasedMove (deferred : Bool) (source : LeasedSourceWitness) (dst : Dir)
    (dstName : Name) : QueueM Empty LeasedMoveOutcome := do
  match ← attemptLook (observeWitnessPath source.directory source.name source.device
      source.inode) with
  | .error e => return .failed e
  | .ok .gone => return .sourceGone
  | .ok .mismatch => return .sourceChanged
  | .ok .matching =>
    match ← Task.attempt (moveWitnessed deferred source.directory source.name dst dstName
        ⟨source.device, source.inode⟩ (pure ())) with
    | .error .sourceMissing => return .sourceGone
    | .error .alreadyExists => return .collision
    | .error (.notCommitted _ e) => return .failed (Error.from e)
    | .error (.outcomeUnknown phase _) =>
      return .outcomeUnknown (ticketPhaseForMoveOutcomeUnknown phase)
    | .ok _ =>
      if deferred then
        match ← Task.attempt (do recordDirty source.directory; recordDirty dst) with
        | .ok () => return .committed
        | .error (_ : IoError) => return .outcomeUnknown .destinationDirectoryDurable
      else return .committed

def transitionTicketForLease (lease : LeaseInfo) (operation : TransitionOperation)
    (destination : TicketDestination) : LookM Error TransitionTicket := do
  Task.ofExcept (TransitionTicket.new {
    queueId := (← Task.memory).format.queueId
    operation := operation
    phase := .linearized
    sourceCommon := leaseCommon lease
    leaseToken := lease.token
    envelopeDigest := lease.envelopeDigest
    payloadLength := lease.payloadLength
    source := .leased lease.bootId lease.expiresBoottimeNs lease.expiresWallNs
    destination := destination })

/-- The source of a move, or the outcome when there is none. Corruption poisons the handle. -/
def currentLeasedSource (lease : LeaseInfo) :
    QueueM Error (Option LeasedSourceWitness) := do
  match ← attemptLook (openAndValidateCurrentLease lease) with
  | .ok source => return source
  | .error (.queueCorrupt e) => do
    poison .internalInvariantViolation
    throw (.queueCorrupt e)
  | .error e => throw e

/-- Make sure the directory is there and open it. -/
def ensureAndOpen (deferred : Bool) (dir : Path) : QueueM Error Dir := do
  Task.mapErr Error.from (ensureDirWithDirty deferred dir)
  Task.mapErr Error.from (openRelative dir)

def moveLeased (deferred : Bool) (lease : LeaseInfo) (target : Target)
    (ticket : TransitionTicket) : QueueM Error TransitionOutcome := do
  let dst ← ensureAndOpen deferred target.directory
  match ← currentLeasedSource lease with
  | none => return .leaseLost
  | some source =>
    match ← Task.attempt (executeLeasedMove deferred source dst target.filename) with
    | .ok .committed => return .committed
    | .ok (.outcomeUnknown phase) => do
      poison .postLinearizationStateUnknown
      return .outcomeUnknown (ticket.withPhase phase)
    | .ok .sourceGone => return .leaseLost
    | .ok .sourceChanged => do
      poison .internalInvariantViolation
      throw (.queueCorrupt "leased source identity changed before transition")
    | .ok .collision => throw (.queueCorrupt "destination exists")
    | .ok (.failed e) => throw e

/-- `NotCommitted` is the outcome of a failure. -/
def transitionOutcome (m : QueueM Error TransitionOutcome) : QueueM Empty TransitionOutcome := do
  match ← Task.attempt m with
  | .ok outcome => return outcome
  | .error e => return .notCommitted e

/-! ## 3. Ack -/

def finishAck (deferred : Bool) (lease : LeaseInfo) (floor : WallFloor) (target : Target)
    (ticket : TransitionTicket) (dst : Dir) (source : LeasedSourceWitness) :
    QueueM Error AckOutcome := do
  match ← Task.attempt (executeLeasedMove deferred source dst target.filename) with
  | .ok .committed => return .acked
  | .ok (.outcomeUnknown phase) => do
    poison .postLinearizationStateUnknown
    return .outcomeUnknown (ticket.withPhase phase)
  | .ok .collision => do
    let authentic ← (receiptIsAuthentic lease target.directory target.filename : LookM Error Bool)
    poison .internalInvariantViolation
    if authentic then throw (.queueCorrupt "source lease and receipt both exist")
    else throw (.queueCorrupt "conflicting object at receipt path")
  | .ok .sourceGone => duplicateAckOutcome lease floor
  | .ok .sourceChanged => do
    poison .internalInvariantViolation
    throw (.queueCorrupt "leased source identity changed before acknowledgment")
  | .ok (.failed e) => throw e

def Error.isCorruption : Error → Bool
  | .payloadCorrupt => true
  | .queueCorrupt _ => true
  | _ => false

def ackInner (deferred : Bool) (lease : LeaseInfo) : QueueM Error AckOutcome := do
  checkNotPoisoned
  let floor ← wallFloorForMutation
  let common ← Task.ofExcept (nextIdentity .acknowledge (leaseCommon lease))
  let h ← Task.memory
  let bucket ← Task.ofOption (bucketNumber floor.unixNs h.format.terminalBucketWidthNs)
    .stateExhausted
  let target := h.layout.receiptInBucket common lease.token bucket
  let ticket ← transitionTicketForLease lease .acknowledge (.receipt bucket)
  let dst ← ensureAndOpen deferred target.directory
  match ← currentLeasedSource lease with
  | none => duplicateAckOutcome lease floor
  | some source =>
    match ← attemptLook (verifyPayloadOnFd source.file) with
    | .error e => do
      if e.isCorruption then poison .internalInvariantViolation
      throw e
    | .ok () => finishAck deferred lease floor target ticket dst source

def ack (deferred : Bool) (lease : LeaseInfo) : QueueM Empty AckOutcome := do
  match ← Task.attempt (ackInner deferred lease) with
  | .ok outcome => return outcome
  | .error e => return .notCommitted e

/-! ## 4. Retry and bury -/

inductive RetryTiming where
  | immediate
  | delayed (notBeforeNs : UInt64) (wallFloor : WallFloor)
  deriving DecidableEq

/-- The deadline still ahead, and the floor if it was taken. -/
def RetryTiming.split : RetryTiming → Option UInt64 × Option WallFloor
  | .immediate => (none, none)
  | .delayed nb floor => (if nb ≤ floor.unixNs then none else some nb, some floor)

def buryWithWallFloor (lease : LeaseInfo) (reason : DeadReason) (floor : WallFloor) :
    QueueM Error TransitionOutcome := do
  let common ← Task.ofExcept (nextIdentity .bury (leaseCommon lease))
  let h ← Task.memory
  let bucket ← Task.ofOption (bucketNumber floor.unixNs h.format.terminalBucketWidthNs)
    .stateExhausted
  let target := h.layout.deadInBucket common reason.code bucket
  let ticket ← transitionTicketForLease lease .bury (.dead bucket reason.code)
  moveLeased false lease target ticket

/-- Where a retry goes. -/
def retryTarget (l : Layout) (lease : LeaseInfo) (delayedNs : Option UInt64) :
    Except Error (Target × TransitionOperation × TicketDestination) :=
  match delayedNs with
  | some nb => do
    let common ← nextIdentity .retryLater (leaseCommon lease)
    let target ← l.delayed common nb
    return (target, .retryLater, .delayed nb)
  | none => do
    let common ← nextIdentity .retryNow (leaseCommon lease)
    return (l.ready common, .retryNow, .ready)

/-- The floor of a retry that turns into a burial. -/
def retryFloor : Option WallFloor → QueueM Error WallFloor
  | some floor => pure floor
  | none => wallFloorForMutation

def retry (lease : LeaseInfo) (timing : RetryTiming) : QueueM Error TransitionOutcome := do
  checkNotPoisoned
  let (delayedNs, floor) := timing.split
  if lease.attempt ≥ lease.maximumAttempts then do
    let floor ← retryFloor floor
    buryWithWallFloor lease .attemptsExhausted floor
  else do
    let (target, operation, destination) ←
      Task.ofExcept (retryTarget (← Task.memory).layout lease delayedNs)
    let ticket ← transitionTicketForLease lease operation destination
    moveLeased false lease target ticket

def retryNow (lease : LeaseInfo) : QueueM Empty TransitionOutcome :=
  transitionOutcome (retry lease .immediate)

def retryAt (lease : LeaseInfo) (notBeforeNs : UInt64) : QueueM Empty TransitionOutcome :=
  transitionOutcome do
    let floor ← wallFloorForMutation
    retry lease (.delayed notBeforeNs floor)

/-- Retry at a delay from the floor. -/
def retryDelayed (lease : LeaseInfo) (durationNs : UInt64) : QueueM Error TransitionOutcome := do
  let floor ← wallFloorForMutation
  let deadline ← Task.ofOption (retryWallDeadline floor.unixNs durationNs)
    (.invalidInput "deadline overflow")
  retry lease (.delayed deadline floor)

def retryAfter (lease : LeaseInfo) (durationNs : UInt64) : QueueM Empty TransitionOutcome :=
  transitionOutcome (retryDelayed lease durationNs)

def RetryError.text : RetryError → String
  | .zeroBase => "base_ms must be positive"
  | .capTooSmall => "cap_ms must be >= base_ms"
  | .overflow => "deadline overflow"

def retryWithPolicy (lease : LeaseInfo) (policy : RetryPolicy) : QueueM Empty TransitionOutcome :=
  transitionOutcome do
    let delayMs ← Task.ofExcept ((retryDelayMs (← Task.memory).format.queueId lease.jobId
      lease.attempt policy).mapError fun e => .invalidInput e.text)
    if delayMs = 0 then retry lease .immediate
    else do
      let delayNs ← Task.ofOption (checkedMulU64 delayMs 1000000) (.invalidInput "delay overflow")
      retryDelayed lease delayNs

def bury (lease : LeaseInfo) (reason : DeadReason) : QueueM Empty TransitionOutcome :=
  transitionOutcome do
    checkNotPoisoned
    let floor ← wallFloorForMutation
    buryWithWallFloor lease reason floor

/-! ## 5. Renew -/

def renewWithDirty (deferred : Bool) (lease : LeaseInfo) (durationNs : UInt64) :
    QueueM Error RenewOutcome := do
  checkNotPoisoned
  if ¬ leaseDurationIsValid durationNs then
    throw (.invalidInput "lease duration must be 1s to 7d")
  else do
    let boottimeNow ← Task.mapErr Error.from clockBoottimeNs
    let floor ← wallFloorForMutation
    let boottimeDeadline ← Task.ofOption (checkedAddU64 boottimeNow durationNs)
      (.invalidInput "deadline overflow")
    let wallDeadline ← Task.ofOption (checkedAddU64 floor.unixNs durationNs)
      (.invalidInput "deadline overflow")
    let common ← Task.ofExcept (nextIdentity .renew (leaseCommon lease))
    let h ← Task.memory
    let target ← Task.ofExcept (h.layout.leased common boottimeDeadline wallDeadline lease.token)
    let ticket ← transitionTicketForLease lease .renew
      (.leased h.bootId boottimeDeadline wallDeadline)
    match ← moveLeased deferred lease target ticket with
    | .committed =>
      return .renewed { lease with
        generation := common.generation
        expiresBoottimeNs := boottimeDeadline
        expiresWallNs := wallDeadline
        exactSourcePath := target.relativePath }
    | .leaseLost => return .leaseLost
    | .notCommitted e => return .notCommitted e
    | .outcomeUnknown t => return .outcomeUnknown t

def renew (lease : LeaseInfo) (durationNs : UInt64) : QueueM Empty RenewOutcome := do
  let deferred := (← Task.memory).options.deferredDirSync
  match ← Task.attempt (renewWithDirty deferred lease durationNs) with
  | .error e => return .notCommitted e
  | .ok (.renewed info) => if deferred then return .deferred info else return .renewed info
  | .ok outcome => return outcome

end SteadQ
