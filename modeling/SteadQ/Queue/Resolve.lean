/-
  File:      SteadQ/Queue/Resolve.lean
  Subject:   WHAT BECAME OF AN INDETERMINATE TRANSITION (`queue/resolve.rs`): the two paths of a
             ticket, the object at each of them, stabilization.

  The paths are derived again from the fields of the ticket. Nothing here asks whether the
  handle is poisoned: a handle that lost track of an operation is the one that resolves it.
-/
import SteadQ.Queue.Consumer

namespace SteadQ

open Octet Interact

/-! ## 1. The paths of a ticket -/

def TransitionTicket.validateForQueue (t : TransitionTicket) (queueId : Octets 16) :
    Except Error Unit := do
  t.validate
  if t.queueId ≠ queueId then throw (.invalidTicket "ticket belongs to another queue")

def TicketSource.target (l : Layout) (common : CommonFields) (token : Octets 16) :
    TicketSource → Except Error Target
  | .ready => .ok (l.ready common)
  | .leased bootId boottimeDeadlineNs wallDeadlineNs =>
    l.leasedForBoot common bootId boottimeDeadlineNs wallDeadlineNs token

def TicketDestination.target (l : Layout) (common : CommonFields) (token : Octets 16) :
    TicketDestination → Except Error Target
  | .ready => .ok (l.ready common)
  | .leased bootId boottimeDeadlineNs wallDeadlineNs =>
    l.leasedForBoot common bootId boottimeDeadlineNs wallDeadlineNs token
  | .delayed notBeforeNs => l.delayed common notBeforeNs
  | .receipt terminalBucket => .ok (l.receiptInBucket common token terminalBucket)
  | .dead terminalBucket reason => .ok (l.deadInBucket common reason terminalBucket)

def transitionTicketPaths (h : Handle) (ticket : TransitionTicket) :
    Except Error (Path × Path) := do
  ticket.validateForQueue h.format.queueId
  let destinationCommon ← ticket.destinationCommon
  let source ← ticket.source.target h.layout ticket.sourceCommon ticket.leaseToken
  let destination ← ticket.destination.target h.layout destinationCommon ticket.leaseToken
  return (source.relativePath, destination.relativePath)

structure ResolvePath where
  directory : Path
  name : Name
  parts : Path

/-- Components of a target are never empty, `.` or `..`, so only the parent can be missing. -/
def ResolvePath.new (path : Path) : Except Error ResolvePath :=
  match path.getLast? with
  | none => .error (.invalidInput "ticket path has no parent directory")
  | some name =>
    if path.dropLast = [] then .error (.invalidInput "ticket path has no parent directory")
    else .ok ⟨path.dropLast, name, path⟩

/-! ## 2. The object at a path -/

inductive ResolverObjectVerifier where
  | job
  | receipt
  deriving DecidableEq, Repr

def resolverObjectVerifier (kind : ObjectKind) (stateDirectory : Name) :
    Option ResolverObjectVerifier :=
  match kind with
  | .fullJob =>
    if stateDirectory = State.ready.dirName ∨ stateDirectory = State.leased.dirName ∨
        stateDirectory = State.delayed.dirName ∨ stateDirectory = State.dead.dirName then some .job
    else none
  | .fullReceipt => if stateDirectory = State.receipt.dirName then some .receipt else none
  | .compactReceipt => if stateDirectory = State.receipt.dirName then some .receipt else none
  | .rawObject => none
  | .watermarkRecord => none

structure ResolvedObject where
  directory : Dir
  directoryDevice : Nat
  directoryInode : Nat
  file : Ino
  device : Nat
  inode : Nat
  deriving DecidableEq

inductive ResolveObj where
  | absent
  | matching (object : ResolvedObject)
  | conflict
  | error (e : Error)

def verifyShardPlacement (format : FormatRecord) (shardText : Bytes) (jobId : Octets 16) : Bool :=
  match shardFromHex shardText with
  | some shard => shard = computeShard format.queueId jobId format.shardCount
  | none => false

/-- A name in a shard of `ready/`, ready or leased. -/
def readyNameResolves (format : FormatRecord) (ticket : TransitionTicket) (expected : CommonFields)
    (shard : Bytes) (name : Name) : Bool :=
  match parseReady name with
  | .ok p => p.common = expected ∧ p.authenticateTag format.queueId shard ∧
      verifyShardPlacement format shard ticket.sourceCommon.jobId
  | .error _ =>
    match parseLeased name with
    | .error _ => false
    | .ok p =>
      match leaseBucket p.boottimeDeadlineNs format.leaseBucketWidthNs with
      | none => false
      | some bucket => p.common = expected ∧ p.token = ticket.leaseToken ∧
          p.authenticateTag format.queueId (formatBootId p.bootId) (bucketHex bucket) shard ∧
          verifyShardPlacement format shard ticket.sourceCommon.jobId

/-- A name in the older tree of leases. -/
def leasedNameResolves (format : FormatRecord) (ticket : TransitionTicket) (expected : CommonFields)
    (boot bucket shard : Bytes) (name : Name) : Bool :=
  match parseLeased name with
  | .error _ => false
  | .ok p => p.common = expected ∧ p.token = ticket.leaseToken ∧
      p.authenticateTag format.queueId boot bucket shard ∧
      verifyShardPlacement format shard ticket.sourceCommon.jobId

def delayedNameResolves (format : FormatRecord) (ticket : TransitionTicket)
    (expected : CommonFields) (bucket shard : Bytes) (name : Name) : Bool :=
  match parseDelayed name with
  | .error _ => false
  | .ok p => p.common = expected ∧ p.authenticateTag format.queueId bucket shard ∧
      verifyShardPlacement format shard ticket.sourceCommon.jobId

def deadNameResolves (format : FormatRecord) (ticket : TransitionTicket)
    (expected : CommonFields) (bucket shard : Bytes) (name : Name) : Bool :=
  match parseDead name with
  | .error _ => false
  | .ok p => p.common = expected ∧ p.authenticateTag format.queueId bucket shard ∧
      verifyShardPlacement format shard ticket.sourceCommon.jobId

/-- The name against the ticket. The state comes from the path, not from the ticket. -/
def resolvedNameMatches (format : FormatRecord) (ticket : TransitionTicket)
    (expected : CommonFields) (parts : Path) (name : Name) : Bool :=
  match parts with
  | [state, shard, _] =>
    if state = State.ready.dirName then readyNameResolves format ticket expected shard name
    else false
  | [state, bucket, shard, _] =>
    if state = State.delayed.dirName then
      delayedNameResolves format ticket expected bucket shard name
    else if state = State.dead.dirName then
      deadNameResolves format ticket expected bucket shard name
    else false
  | [state, boot, bucket, shard, _] =>
    if state = State.leased.dirName then
      leasedNameResolves format ticket expected boot bucket shard name
    else false
  | _ => false

def resolvedHeaderMatches (ticket : TransitionTicket) (expected : CommonFields)
    (header : FixedHeader) : Bool :=
  header.jobId = ticket.sourceCommon.jobId ∧ header.maximumAttempts = expected.maximumAttempts ∧
    header.envelopeDigest = ticket.envelopeDigest ∧ header.payloadLength = ticket.payloadLength

/-- Content and name of the object behind a path. -/
def verifyResolved (path : ResolvePath) (ticket : TransitionTicket) (expected : CommonFields)
    (verifier : ResolverObjectVerifier) (file : Ino) : LookM VerificationError Unit := do
  let format := (← Task.memory).format
  match verifier, path.parts with
  | .receipt, [_, bucket, shard, _] => do
    let _ ← verifyReceiptOnFd file ⟨bucket, shard, path.name⟩
      (some ⟨expected, ticket.leaseToken, ticket.envelopeDigest, ticket.payloadLength⟩)
  | .receipt, _ => throw (.corrupt "receipt path")
  | .job, parts => do
    let job ← verifyJobOnFd file
    if ¬ resolvedHeaderMatches ticket expected job.header then throw (.corrupt "header")
    else if ¬ resolvedNameMatches format ticket expected parts path.name then
      throw (.corrupt "name")
    else return ()

/-! What a failure says about the object. -/

def resolveIo (e : IoError) : ResolveObj := .error (Error.from e)

def resolveDirectoryFailure : IoError → ResolveObj
  | .enoent => .absent
  | e => resolveIo e

def classifyResolverObjectOpenFailure : IoError → ResolveObj
  | .enoent => .absent
  | .eloop => .conflict
  | e => resolveIo e

def resolveHeaderFailure : IoError → ResolveObj
  | .unexpectedEof => .conflict
  | e => resolveIo e

def resolveVerificationFailure : VerificationError → ResolveObj
  | .io message => .error (.ioFailure message)
  | .corrupt _ => .conflict
  | .payloadCorrupt => .conflict

/-- The object behind an open file: its status, if it is the one of the ticket. -/
def inspectResolved (path : ResolvePath) (ticket : TransitionTicket) (expected : CommonFields)
    (verifier : ResolverObjectVerifier) (file : Ino) : LookM ResolveObj Stat := do
  let stat ← Task.mapErr resolveIo (fstat file)
  if ¬ isSinglyLinkedRegular stat then throw .conflict
  else do
    let _ ← Task.mapErr resolveHeaderFailure (preadExact file 0 fixedHeaderSize)
    Task.mapErr resolveVerificationFailure (verifyResolved path ticket expected verifier file)
    return stat

def findResolved (path : ResolvePath) (ticket : TransitionTicket) (expected : CommonFields)
    (kind : ObjectKind) : LookM ResolveObj ResolvedObject := do
  let verifier ← Task.ofOption (resolverObjectVerifier kind (path.parts.headD [])) .conflict
  let directory ← Task.mapErr resolveDirectoryFailure (openRelative path.directory)
  let directoryStat ← Task.mapErr resolveIo (fstatDir directory)
  let file ← Task.mapErr classifyResolverObjectOpenFailure (openAt directory path.name)
  let stat ← inspectResolved path ticket expected verifier file
  return ⟨directory, directoryStat.dev, directoryStat.ino, file, stat.dev, stat.ino⟩

def resolveCheckObject (path : ResolvePath) (ticket : TransitionTicket) (expected : CommonFields)
    (kind : ObjectKind) : LookM ε ResolveObj := do
  match ← Task.attempt (findResolved path ticket expected kind) with
  | .ok object => return .matching object
  | .error found => return found

/-! ## 3. Stabilization -/

/-- Sync the file and its directory; afterwards the path must still lead to the object. -/
def stabilizeObject (path : ResolvePath) (object : ResolvedObject) : QueueM Error Bool := do
  Task.mapErr Error.from (fsync object.file)
  Task.mapErr Error.from (fsyncDirFd object.directory)
  match ← attemptLook (openRelative path.directory) with
  | .error .enoent => return false
  | .error e => throw (Error.from e)
  | .ok current => do
    let directoryStat ← Task.mapErr Error.from (looking (fstatDir current))
    if ¬ (directoryStat.dev = object.directoryDevice ∧
        directoryStat.ino = object.directoryInode) then return false
    else
      match ← attemptLook (fstatat current path.name) with
      | .error .enoent => return false
      | .error e => throw (Error.from e)
      | .ok stat =>
        return stat.kind = .regular ∧ stat.dev = object.device ∧ stat.ino = object.inode

/-! ## 4. Resolution -/

inductive ResolutionOutcome where
  | destinationObserved
  | destinationStabilized
  | sourceObserved
  | sourceStabilized
  | bothObserved
  | neitherObserved
  | conflictingObject
  | resolutionFailed (error : Error)
  deriving DecidableEq

/-- One object is there: report it, or make it durable first. -/
def settleResolved (stabilize : Bool) (path : ResolvePath) (object : ResolvedObject)
    (observed stabilized : ResolutionOutcome) : QueueM Empty ResolutionOutcome := do
  if stabilize then
    match ← Task.attempt (stabilizeObject path object) with
    | .ok true => return stabilized
    | .ok false => return .conflictingObject
    | .error e => return .resolutionFailed e
  else return observed

structure ResolvePlan where
  sourcePath : ResolvePath
  destinationPath : ResolvePath
  destinationCommon : CommonFields

def resolvePlan (h : Handle) (ticket : TransitionTicket) : Except Error ResolvePlan := do
  let (source, destination) ← transitionTicketPaths h ticket
  let sourcePath ← ResolvePath.new source
  let destinationPath ← ResolvePath.new destination
  let destinationCommon ← ticket.destinationCommon
  return ⟨sourcePath, destinationPath, destinationCommon⟩

def resolve (ticket : TransitionTicket) (stabilize : Bool) : QueueM Empty ResolutionOutcome := do
  match resolvePlan (← Task.memory) ticket with
  | .error e => return .resolutionFailed e
  | .ok plan => do
    let definition := transition ticket.operation.protocolOperation
    let source ← looking (resolveCheckObject plan.sourcePath ticket ticket.sourceCommon
      definition.sourceObjectKind)
    let destination ← looking (resolveCheckObject plan.destinationPath ticket
      plan.destinationCommon definition.destinationObjectKind)
    match source, destination with
    | .matching object, .absent =>
      settleResolved stabilize plan.sourcePath object .sourceObserved .sourceStabilized
    | .absent, .matching object =>
      settleResolved stabilize plan.destinationPath object .destinationObserved
        .destinationStabilized
    | .absent, .absent => return .neitherObserved
    | .matching _, .matching _ => return .bothObserved
    | .conflict, _ => return .conflictingObject
    | _, .conflict => return .conflictingObject
    | .error e, _ => return .resolutionFailed e
    | _, .error e => return .resolutionFailed e

end SteadQ
