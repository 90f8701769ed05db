/-
  File:      SteadQ/Queue/Lease.lean
  Subject:   LEASE: the scan of the ready shards, the claim, and dead letters for exhausted
             attempts (`queue/lease.rs`).

  The number of directory entries a scan sees per shard and the number of scans a waiting lease
  makes are decided by the environment; `entries` and `rounds` bound them. `deferred` is a claim
  inside a batch.
-/
import SteadQ.Queue.Quarantine

namespace SteadQ

open Octet Interact

/-! ## 1. Checks on a ready object -/

def leaseDurationIsValid (durationNs : UInt64) : Bool :=
  1000000000 ≤ durationNs ∧ durationNs ≤ 604800000000000

inductive WitnessPathObservation where
  | matching
  | gone
  | mismatch
  deriving DecidableEq, Repr

def statMatchesWitness (stat : Stat) (device inode : Nat) : Bool :=
  isSinglyLinkedRegular stat ∧ stat.dev = device ∧ stat.ino = inode

/-- Whether a name still leads to the witnessed inode. -/
def observeWitnessPath (dir : Dir) (name : Name) (device inode : Nat) :
    LookM Error WitnessPathObservation := do
  match ← Task.attempt (fstatat dir name) with
  | .ok stat =>
    if statMatchesWitness stat device inode then return .matching else return .mismatch
  | .error .enoent => return .gone
  | .error e => throw (Error.from e)

structure TicketEvidence where
  envelopeDigest : Octets 32
  payloadLength : UInt64
  deriving DecidableEq

structure ClaimSourceWitness where
  file : Ino
  device : Nat
  inode : Nat
  evidence : TicketEvidence

def readClaimTicketEvidence (file : Ino) (jobId : Octets 16) (maximumAttempts : UInt32) :
    LookM Error TicketEvidence := do
  let verified ← Task.mapErr VerificationError.toError (verifyEnvelopeOnFd file)
  if verified.header.jobId ≠ jobId then throw (.queueCorrupt "header job_id mismatch")
  else if verified.header.maximumAttempts ≠ maximumAttempts then
    throw (.queueCorrupt "header maximum_attempts mismatch")
  else return ⟨verified.header.envelopeDigest, verified.header.payloadLength⟩

def openClaimSource (dir : Dir) (name : Name) (jobId : Octets 16) (maximumAttempts : UInt32) :
    LookM Error (Option ClaimSourceWitness) := do
  match ← Task.attempt (openAt dir name) with
  | .error .enoent => return none
  | .error e => throw (Error.from e)
  | .ok file => do
    let stat ← Task.mapErr Error.from (fstat file)
    if ¬ isSinglyLinkedRegular stat then
      throw (.queueCorrupt "ready source is not a singly-linked regular file")
    else do
      let evidence ← readClaimTicketEvidence file jobId maximumAttempts
      return some ⟨file, stat.dev, stat.ino, evidence⟩

/-- Header and content type of a just claimed object; none if it cannot be delivered. -/
def validateClaimedObject (file : Ino) (size : Nat) (common : CommonFields) :
    LookM ε (Option (FixedHeader × Bytes)) := do
  let format := (← Task.memory).format
  let result ← Task.attempt (do
    let buf ← Task.mapErr readError (preadExact file 0 fixedHeaderSize)
    let header ← Task.ofExcept ((FixedHeader.decode buf).mapError fun e => .corrupt e.text)
    let extLen := header.extensionHeaderLength.toNat
    if header.jobId ≠ common.jobId ∨ header.maximumAttempts ≠ common.maximumAttempts ∨
        isExtensionTooLarge extLen then throw (.corrupt "header")
    else do
      let ext ← readExtension file extLen
      let total ← Task.ofExcept (checkedTotalSize extLen header.payloadLength)
      if ¬ verifyEnvelopeDigest header ext ∨ total ≠ size ∨
          ¬ payloadLengthIsValid header.payloadLength format.maxPayloadLength then
        throw (.corrupt "envelope")
      else if extLen > 0 then
        match ExtensionHeader.decode ext with
        | .error e => throw (.corrupt e.text)
        | .ok extension => return (header, extension.contentType.bytes)
      else return (header, []))
  match result with
  | .ok found => return some found
  | .error (_ : VerificationError) => return none

def claimTransitionTicket (source : CommonFields) (token : Octets 16) (evidence : TicketEvidence)
    (boottimeDeadline wallDeadline : UInt64) : LookM Error TransitionTicket := do
  let h ← Task.memory
  Task.ofExcept (TransitionTicket.new {
    queueId := h.format.queueId
    operation := .claim
    phase := .linearized
    sourceCommon := source
    leaseToken := token
    envelopeDigest := evidence.envelopeDigest
    payloadLength := evidence.payloadLength
    source := .ready
    destination := .leased h.bootId boottimeDeadline wallDeadline })

def ticketPhaseForMoveOutcomeUnknown : MovePhase → TransitionPhase
  | .sourceFsync => .destinationDirectoryDurable
  | _ => .linearized

/-! ## 2. Dead letters -/

inductive DeadLetterFailure where
  | invalid (error : Error)
  | move (failure : MoveFailure)

def moveToDead (readyDir : Path) (readyName : Name) (common : CommonFields) (reason : DeadReason)
    (floor : WallFloor) : QueueM DeadLetterFailure Unit := do
  let h ← Task.memory
  let bucket ← Task.ofOption (bucketNumber floor.unixNs h.format.terminalBucketWidthNs)
    (.invalid .stateExhausted)
  let deadCommon ← Task.ofExcept ((nextIdentity .exhaustedReadyCleanup common).mapError .invalid)
  let target := h.layout.deadInBucket deadCommon reason.code bucket
  Task.mapErr (fun e => .move (.notCommitted .ensureDest e)) (ensureDir target.directory)
  let deadDir ← Task.mapErr (fun e => .move (.notCommitted .ensureDest e))
    (openRelative target.directory)
  let sourceDir ← Task.mapErr (fun e => .move (.notCommitted .preRename e)) (openRelative readyDir)
  match ← Task.attempt (moveVerifiedNoreplace sourceDir readyName deadDir target.filename) with
  | .ok () => return ()
  | .error .sourceMissing => return ()
  | .error failure => throw (.move failure)

/-- What a scan does after an entry. -/
inductive ScanAbort where
  | skip
  | suspicious
  | failed (error : Error)
  | unknown (ticket : TransitionTicket)

def atMovePhase (what : String) (phase : MovePhase) (source : IoError) : Error :=
  match Error.from source with
  | .ioFailure message => .ioFailure (what ++ phase.text ++ ": " ++ message)
  | classified => classified

/-- Move an attempt-exhausted object aside; the scan goes on if nothing is wrong. -/
def buryExhausted (readyDir : Path) (entry : Name) (common : CommonFields) (floor : WallFloor) :
    QueueM ScanAbort Unit := do
  match ← Task.attempt (moveToDead readyDir entry common .attemptsExhausted floor) with
  | .ok () => return ()
  | .error (.invalid e) => throw (.failed e)
  | .error (.move .sourceMissing) => return ()
  | .error (.move .alreadyExists) => do
    poison .internalInvariantViolation
    throw (.failed .identityCollision)
  | .error (.move (.notCommitted phase source)) =>
    throw (.failed (atMovePhase "dead-letter move failed at " phase source))
  | .error (.move (.outcomeUnknown phase source)) => do
    poison .postLinearizationStateUnknown
    throw (.failed (.ioFailure
      ("dead-letter move indeterminate at " ++ phase.text ++ ": " ++ source.text)))

/-! ## 3. The claim -/

def corruptReadyReason (stat : Stat) : QuarantineReason :=
  if stat.kind ≠ .regular then .nonRegularFile
  else if stat.nlink ≠ 1 then .unexpectedHardLink
  else .envelopeCorrupt

/-- A corrupt object is never delivered: move it aside and keep scanning. -/
def quarantineCorruptReady (shardDir : Dir) (entry : Name) : QueueM ScanAbort Unit := do
  let reason := match ← attemptLook (fstatat shardDir entry) with
    | .ok stat => corruptReadyReason stat
    | .error _ => .envelopeCorrupt
  match ← Task.attempt (publishQuarantineObject shardDir entry reason) with
  | .ok _ => throw .skip
  | .error (.move _ _ .sourceMissing _) => throw .skip
  | .error (.move _ _ (.outcomeUnknown phase source) _) => do
    poison .postLinearizationStateUnknown
    throw (.failed (.ioFailure ("corrupt ready object quarantine indeterminate at " ++
      phase.text ++ ": " ++ source.text)))
  | .error _ => throw .suspicious

/-- The object behind a candidate, opened and checked. -/
def claimSource (shardDir : Dir) (entry : Name) (common : CommonFields) :
    QueueM ScanAbort ClaimSourceWitness := do
  match ← attemptLook (openClaimSource shardDir entry common.jobId common.maximumAttempts) with
  | .ok (some source) => return source
  | .ok none => throw .skip
  | .error (.ioFailure _) => throw .suspicious
  | .error (.queueCorrupt _) => do
    quarantineCorruptReady shardDir entry
    throw .skip
  | .error e => throw (.failed e)

/-- The directory a claim moves to. -/
def claimDirectory (deferred : Bool) (target : Target) : QueueM ScanAbort Dir := do
  match ← Task.attempt (ensureDirWithDirty deferred target.directory) with
  | .error e =>
    if Error.from e = .resourceExhausted then
      throw (.failed .resourceExhausted)
    else throw .suspicious
  | .ok () =>
    match ← attemptLook (openRelative target.directory) with
    | .ok dir => return dir
    | .error .enoent => throw .skip
    | .error _ => throw .suspicious

def checkClaimWitness (shardDir : Dir) (entry : Name) (source : ClaimSourceWitness) :
    LookM ScanAbort Unit := do
  match ← Task.attempt (observeWitnessPath shardDir entry source.device source.inode) with
  | .ok .matching => return ()
  | .ok .gone => throw .skip
  | .ok .mismatch =>
    throw (.failed (.queueCorrupt "ready source identity changed before claim"))
  | .error _ => throw .suspicious

def stopUnknown (ticket : TransitionTicket) (phase : TransitionPhase) : QueueM ScanAbort α := do
  poison .postLinearizationStateUnknown
  throw (.unknown (ticket.withPhase phase))

/-- Quarantine a claimed object whose payload is corrupt. -/
def withdrawCorruptClaim (ticket : TransitionTicket) (leasedDir : Dir) (target : Target)
    (file : Ino) : QueueM ScanAbort α := do
  match ← Task.attempt (quarantineCorruptLease leasedDir target.filename file) with
  | .ok () => throw (.failed .payloadCorrupt)
  | .error failure =>
    stopUnknown ticket (failure.phase.elim .sourceDirectoryDurable ticketPhaseForMoveOutcomeUnknown)

/-- The claim is committed: verify the payload and hand out the lease. -/
def deliverClaim (ticket : TransitionTicket) (leasedDir : Dir) (target : Target) (file : Ino)
    (moved : MovedObject) (source leased : CommonFields) (token : Octets 16)
    (boottimeDeadline wallDeadline : UInt64) : QueueM ScanAbort LeaseInfo := do
  match ← (validateClaimedObject file moved.size source : LookM ScanAbort _) with
  | none => stopUnknown ticket .sourceDirectoryDurable
  | some (header, contentType) =>
    match ← attemptLook (verifyPayloadOnFd file) with
    | .error .payloadCorrupt => withdrawCorruptClaim ticket leasedDir target file
    | .error _ => stopUnknown ticket .sourceDirectoryDurable
    | .ok () =>
      return {
        jobId := source.jobId
        envelopeDigest := header.envelopeDigest
        generation := leased.generation
        attempt := leased.attempt
        maximumAttempts := source.maximumAttempts
        token := token
        bootId := (← Task.memory).bootId
        expiresBoottimeNs := boottimeDeadline
        expiresWallNs := wallDeadline
        contentType := contentType
        payloadLength := header.payloadLength
        payloadDigest := header.payloadDigest
        expectedDev := moved.device
        expectedInode := moved.inode
        exactSourcePath := target.relativePath }

/-- The claim of one candidate, once the clocks are read. A failing move reports the ticket made
    before it; the evidence read again behind the rename comes from the same bytes. -/
def claimCandidate (deferred : Bool) (durationNs : UInt64) (shardDir : Dir) (entry : Name)
    (common : CommonFields) (boottimeClaim : UInt64) (floor : WallFloor) :
    QueueM ScanAbort LeaseInfo := do
  let token ← Task.mapErr (fun e => .failed (Error.from e)) random128bit
  let boottimeDeadline ← Task.ofOption (checkedAddU64 boottimeClaim durationNs) .skip
  let wallDeadline ← Task.ofOption (checkedAddU64 floor.unixNs durationNs) .skip
  let leased ← Task.ofExcept ((nextIdentity .claim common).mapError fun _ => .skip)
  let h ← Task.memory
  let target ← Task.ofExcept ((h.layout.leasedForBoot leased h.bootId boottimeDeadline wallDeadline
    token).mapError fun _ => .suspicious)
  let leasedDir ← claimDirectory deferred target
  let source ← claimSource shardDir entry common
  let ticket ← Task.mapErr .failed
    (claimTransitionTicket common token source.evidence boottimeDeadline wallDeadline)
  checkClaimWitness shardDir entry source
  let refresh : LookM IoError TransitionTicket := Task.mapErr (fun _ => .custom "evidence") (do
    let evidence ← readClaimTicketEvidence source.file common.jobId common.maximumAttempts
    claimTransitionTicket common token evidence boottimeDeadline wallDeadline)
  match ← Task.attempt (moveWitnessed deferred shardDir entry leasedDir target.filename
      ⟨source.device, source.inode⟩ refresh) with
  | .error .sourceMissing => throw .skip
  | .error .alreadyExists => throw .suspicious
  | .error (.outcomeUnknown phase _) => stopUnknown ticket (ticketPhaseForMoveOutcomeUnknown phase)
  | .error (.notCommitted _ e) =>
    if Error.from e = .resourceExhausted then throw (.failed .resourceExhausted)
    else throw .suspicious
  | .ok (moved, ticket) => do
    if deferred then
      match ← Task.attempt (do recordDirty shardDir; recordDirty leasedDir) with
      | .ok () => pure ()
      | .error (_ : IoError) => stopUnknown ticket .destinationDirectoryDurable
    deliverClaim ticket leasedDir target source.file moved common leased token boottimeDeadline
      wallDeadline

/-! ## 4. The scan -/

/-- What a scan carries from entry to entry. -/
structure ScanState where
  hadError : Bool
  wallFloor : Option WallFloor

inductive ScanStep where
  | go (state : ScanState)
  | done (outcome : LeaseOutcome)

inductive Candidate where
  | skip
  | suspicious
  | job (common : CommonFields)

/-- A ready name, authenticated for its shard. -/
def classifyCandidate (format : FormatRecord) (shard : UInt32) (entry : Name) : Candidate :=
  if ¬ entry.all (· < 128) then .suspicious
  else
    match parseReady entry with
    | .error _ => .skip
    | .ok parsed =>
      if ¬ parsed.authenticateTag format.queueId (shardHex shard) then .skip
      else if computeShard format.queueId parsed.common.jobId format.shardCount ≠ shard then .skip
      else .job parsed.common

/-- The floor of this scan, taken at its first use. -/
def scanFloor (state : ScanState) : QueueM Error (WallFloor × ScanState) :=
  match state.wallFloor with
  | some floor => return (floor, state)
  | none => do
    let floor ← wallFloorForMutation
    return (floor, { state with wallFloor := some floor })

def afterAbort (state : ScanState) : ScanAbort → ScanStep
  | .skip => .go state
  | .suspicious => .go { state with hadError := true }
  | .failed e => .done (.notCommitted e)
  | .unknown ticket => .done (.outcomeUnknown ticket)

def scanExhausted (readyDir : Path) (entry : Name) (common : CommonFields) (state : ScanState) :
    QueueM Empty ScanStep := do
  match ← Task.attempt (scanFloor state) with
  | .error e => return .done (.notCommitted e)
  | .ok (floor, state) =>
    match ← Task.attempt (buryExhausted readyDir entry common floor) with
    | .ok () => return .go state
    | .error abort => return afterAbort state abort

def scanClaim (deferred : Bool) (durationNs : UInt64) (shardDir : Dir) (entry : Name)
    (common : CommonFields) (state : ScanState) : QueueM Empty ScanStep := do
  match ← attemptLook clockBoottimeNs with
  | .error e => return .done (.notCommitted (Error.from e))
  | .ok boottime =>
    match ← Task.attempt (scanFloor state) with
    | .error e => return .done (.notCommitted e)
    | .ok (floor, state) =>
      match ← Task.attempt
          (claimCandidate deferred durationNs shardDir entry common boottime floor) with
      | .ok lease => return .done (.leased lease)
      | .error abort => return afterAbort state abort

def scanEntry (deferred : Bool) (durationNs : UInt64) (shard : UInt32) (shardDir : Dir)
    (entry : Name) (state : ScanState) : QueueM Empty ScanStep := do
  match classifyCandidate (← Task.memory).format shard entry with
  | .skip => return .go state
  | .suspicious => return .go { state with hadError := true }
  | .job common =>
    if common.attempt ≥ common.maximumAttempts then
      scanExhausted (readyShardDir shard) entry common state
    else scanClaim deferred durationNs shardDir entry common state

/-- The entries of a shard, at most `entries` of them. -/
def scanEntries (deferred : Bool) (durationNs : UInt64) (shard : UInt32) (shardDir : Dir) :
    (entries position : Nat) → ScanState → QueueM Empty ScanStep
  | 0, _, state => return .go state
  | entries + 1, position, state => do
    match ← attemptLook (nextEntry shardDir position) with
    | .error _ => return .go { state with hadError := true }
    | .ok none => return .go state
    | .ok (some (entry, next)) =>
      match ← scanEntry deferred durationNs shard shardDir entry state with
      | .done outcome => return .done outcome
      | .go state => scanEntries deferred durationNs shard shardDir entries next state

def scanShard (deferred : Bool) (durationNs : UInt64) (entries : Nat) (shard : UInt32)
    (state : ScanState) : QueueM Empty ScanStep := do
  match ← attemptLook (openRelative (readyShardDir shard)) with
  | .error _ => return .go { state with hadError := true }
  | .ok shardDir => scanEntries deferred durationNs shard shardDir entries 0 state

def scanShards (deferred : Bool) (durationNs : UInt64) (entries : Nat) :
    List UInt32 → ScanState → QueueM Empty LeaseOutcome
  | [], state =>
    if state.hadError then return .notCommitted (.ioFailure "scan completed with errors")
    else return .empty
  | shard :: rest, state => do
    match ← scanShard deferred durationNs entries shard state with
    | .done outcome => return outcome
    | .go state => scanShards deferred durationNs entries rest state

/-- The shards of one scan in order. -/
def scanOrder (h : Handle) : List UInt32 :=
  let count := h.format.shardCount
  let (scheduled, stride) := shardScanParams h.format.queueId h.bootIdBytes h.workerNonce
    h.scanRound count
  let start := h.readyShardHint.getD scheduled
  (List.range count.toNat).map fun i => shardAt start stride (UInt32.ofNat i) count

def leaseOnceWithDirty (deferred : Bool) (durationNs : UInt64) (entries : Nat) :
    QueueM Empty LeaseOutcome := do
  match ← attemptLook checkNotPoisoned with
  | .error e => return .notCommitted e
  | .ok () =>
    if ¬ leaseDurationIsValid durationNs then
      return .notCommitted (.invalidInput "lease duration must be 1s to 7d")
    else do
      let h ← Task.memory
      Task.remember fun h => { h with scanRound := h.scanRound + 1, readyShardHint := none }
      scanShards deferred durationNs entries (scanOrder h) ⟨false, none⟩

def LeaseOutcome.retryable : LeaseOutcome → Bool
  | .empty => true
  | .notCommitted .maintenanceBusy => true
  | _ => false

/-- Scan until there is something to report or the wait is over: `rounds` further scans. -/
def lease (deferred : Bool) (durationNs : UInt64) (entries : Nat) :
    (rounds : Nat) → QueueM Empty LeaseOutcome
  | 0 => leaseOnceWithDirty deferred durationNs entries
  | rounds + 1 => do
    let outcome ← leaseOnceWithDirty deferred durationNs entries
    if outcome.retryable then lease deferred durationNs entries rounds else return outcome

end SteadQ
