/-
  File:      SteadQ/Queue/Verified.lean
  Subject:   VERIFICATION OF OBJECTS ON AN OPEN FILE (`queue/verified.rs`, parts of
             `queue/inspect.rs`): envelope, payload, receipts, active objects, duplicate acks.

  Everything here only looks.
-/
import SteadQ.Cbor
import SteadQ.Queue.Watermark

namespace SteadQ

open Octet Interact

/-! ## 1. Envelope and payload -/

inductive VerificationError where
  | io (message : String)
  | corrupt (message : String)
  | payloadCorrupt
  deriving DecidableEq

def VerificationError.toError : VerificationError → Error
  | .io s => .ioFailure s
  | .corrupt s => .queueCorrupt s
  | .payloadCorrupt => .payloadCorrupt

def VerificationError.text : VerificationError → String
  | .io s => "I/O: " ++ s
  | .corrupt s => "corrupt: " ++ s
  | .payloadCorrupt => "payload corrupt"

structure VerifiedJob where
  header : FixedHeader
  extension : Bytes
  device : Nat
  inode : Nat
  size : Nat

/-- `128 + ext_len + payload_length`, unless it overflows. -/
def checkedTotalSize (extLen : Nat) (payloadLength : UInt64) : Except VerificationError Nat :=
  if 128 + extLen + payloadLength.toNat < 2 ^ 64 then .ok (128 + extLen + payloadLength.toNat)
  else .error (.corrupt "size overflow")

def isExtensionTooLarge (extLen : Nat) : Bool := extLen > 65536

/-- A short read means the object is truncated, which no retry fixes. -/
def readError : IoError → VerificationError
  | .unexpectedEof => .corrupt "object is shorter than its envelope"
  | e => .io e.text

def readAndVerifyHeader (file : Ino) : LookM VerificationError FixedHeader := do
  let buf ← Task.mapErr readError (preadExact file 0 fixedHeaderSize)
  let header ← Task.ofExcept
    ((FixedHeader.decode buf).mapError fun e => .corrupt ("header decode: " ++ e.text))
  if isExtensionTooLarge header.extensionHeaderLength.toNat then
    throw (.corrupt "extension header too large")
  else return header

def readExtension (file : Ino) (extLen : Nat) : LookM VerificationError Bytes :=
  if extLen > 0 then Task.mapErr readError (preadExact file 128 extLen) else return []

def verifySize (file : Ino) (header : FixedHeader) (extLen : Nat) :
    LookM VerificationError Stat := do
  let stat ← Task.mapErr (fun e => .io e.text) (fstat file)
  let expected ← Task.ofExcept (checkedTotalSize extLen header.payloadLength)
  if expected ≠ stat.size then
    throw (.corrupt ("file size mismatch: expected " ++ toString expected ++ ", got " ++
      toString stat.size))
  else return stat

def verifyEnvelopeOnFd (file : Ino) : LookM VerificationError VerifiedJob := do
  let header ← readAndVerifyHeader file
  let stat ← verifySize file header header.extensionHeaderLength.toNat
  let ext ← readExtension file header.extensionHeaderLength.toNat
  if ¬ verifyEnvelopeDigest header ext then throw (.corrupt "envelope digest mismatch")
  else return ⟨header, ext, stat.dev, stat.ino, stat.size⟩

/-- Read `remaining` bytes from `offset` on, chunk by chunk; every chunk has at least one byte. -/
def readPayload (file : Ino) : (fuel offset remaining : Nat) → Bytes →
    LookM VerificationError Bytes
  | 0, _, _, payload => return payload
  | fuel + 1, offset, remaining, payload =>
    if remaining > 0 then do
      let chunk ← Task.mapErr (fun e => .io e.text) (pread file offset (min remaining 65536))
      if chunk = [] then throw (.corrupt "unexpected EOF")
      else
        readPayload file fuel (offset + chunk.length) (remaining - chunk.length) (payload ++ chunk)
    else return payload

def verifyPayload (file : Ino) (header : FixedHeader) (extLen : Nat) :
    LookM VerificationError Unit := do
  let length := header.payloadLength.toNat
  let payload ← readPayload file length (128 + extLen) length []
  if payloadDigest payload ≠ header.payloadDigest then throw .payloadCorrupt
  else return ()

def verifyJobOnFd (file : Ino) : LookM VerificationError VerifiedJob := do
  let job ← verifyEnvelopeOnFd file
  verifyPayload file job.header job.extension.length
  return job

def verifyPayloadOnFd (file : Ino) : LookM Error Unit :=
  Task.mapErr VerificationError.toError (do let _ ← verifyJobOnFd file)

def payloadLengthIsValid (payloadLength maximum : UInt64) : Bool := payloadLength ≤ maximum

/-! ## 2. Active objects -/

inductive ActivePathContext where
  | ready (shard : Bytes)
  | leased (bootId bucket shard : Bytes)
  | delayed (bucket shard : Bytes)
  deriving DecidableEq

def ActivePathContext.shard : ActivePathContext → Bytes
  | .ready shard => shard
  | .leased _ _ shard => shard
  | .delayed _ shard => shard

def notRegular (name : Name) : IoError := .invalidData (shown name ++ ": not a regular file")

/-- Open a regular file by its name; a symbolic link or any other kind is invalid data. -/
def openRegularRead (dir : Dir) (name : Name) : LookM IoError (Ino × Stat) := do
  let file ← Task.mapErr (fun
    | .eloop => notRegular name
    | e => e) (openAt dir name)
  let stat ← fstat file
  if stat.kind ≠ .regular then throw (notRegular name) else return (file, stat)

def regularOpenError : IoError → Error
  | .invalidData message => .queueCorrupt message
  | e => Error.from e

/-- The job and its maximum in an active name, authenticated for its place. -/
def authenticateActiveName (format : FormatRecord) (name : Name) :
    ActivePathContext → Except Error (Octets 16 × UInt32)
  | .ready shard =>
    match parseReady name with
    | .error _ => .error (.queueCorrupt "invalid ready filename")
    | .ok p =>
      if ¬ p.authenticateTag format.queueId shard then .error (.queueCorrupt "name tag mismatch")
      else .ok (p.common.jobId, p.common.maximumAttempts)
  | .leased bootId bucket shard =>
    match parseLeased name with
    | .error _ => .error (.queueCorrupt "invalid leased filename")
    | .ok p =>
      if ¬ p.authenticateTag format.queueId bootId bucket shard then
        .error (.queueCorrupt "name tag mismatch")
      else
        match leaseBucket p.boottimeDeadlineNs format.leaseBucketWidthNs with
        | none => .error (.queueCorrupt "invalid lease bucket width")
        | some expected =>
          if bucketHex expected ≠ bucket then
            .error (.queueCorrupt ("leased bucket mismatch: path " ++ shown bucket ++
              " != expected " ++ shown (bucketHex expected)))
          else .ok (p.common.jobId, p.common.maximumAttempts)
  | .delayed bucket shard =>
    match parseDelayed name with
    | .error _ => .error (.queueCorrupt "invalid delayed filename")
    | .ok p =>
      if ¬ p.authenticateTag format.queueId bucket shard then
        .error (.queueCorrupt "name tag mismatch")
      else
        match ceilingBucket p.notBeforeNs format.delayedBucketWidthNs with
        | none => .error (.queueCorrupt "invalid delayed bucket width")
        | some expected =>
          if bucketHex expected ≠ bucket then
            .error (.queueCorrupt ("delayed bucket mismatch: path " ++ shown bucket ++
              " != expected " ++ shown (bucketHex expected)))
          else .ok (p.common.jobId, p.common.maximumAttempts)

def checkShardPlacement (format : FormatRecord) (jobId : Octets 16) (shardText : Bytes) :
    Except Error Unit :=
  let computed := computeShard format.queueId jobId format.shardCount
  match shardFromHex shardText with
  | none => .error (.queueCorrupt ("invalid shard hex: " ++ shown shardText))
  | some shard =>
    if shard ≠ computed then
      .error (.queueCorrupt ("shard mismatch: path " ++ toString shard ++ " != computed " ++
        toString computed))
    else .ok ()

/-- Authenticate an object of an active state structurally. -/
def validateActiveObject (dir : Dir) (name : Name) (ctx : ActivePathContext) :
    LookM Error FixedHeader := do
  let format := (← Task.memory).format
  let (file, stat) ← Task.mapErr regularOpenError (openRegularRead dir name)
  if stat.nlink ≠ 1 then
    throw (.queueCorrupt (shown name ++ ": unexpected link count " ++ toString stat.nlink))
  else do
    let verified ← Task.mapErr VerificationError.toError (verifyEnvelopeOnFd file)
    let header := verified.header
    if ¬ payloadLengthIsValid header.payloadLength format.maxPayloadLength then
      throw (.queueCorrupt ("payload length " ++ toString header.payloadLength ++
        " exceeds queue limit " ++ toString format.maxPayloadLength))
    else do
      let (jobId, maximum) ← Task.ofExcept (authenticateActiveName format name ctx)
      if header.jobId ≠ jobId then
        throw (.queueCorrupt "header job_id does not match filename")
      else if header.maximumAttempts ≠ maximum then
        throw (.queueCorrupt "header maximum_attempts does not match filename")
      else do
        Task.ofExcept (checkShardPlacement format jobId ctx.shard)
        return header

/-! ## 3. Receipts -/

structure ReceiptContext where
  bucket : Bytes
  shard : Bytes
  filename : Name

structure ExpectedReceipt where
  common : CommonFields
  token : Octets 16
  envelopeDigest : Octets 32
  payloadLength : UInt64

inductive VerifiedReceiptKind where
  | full (job : VerifiedJob)
  | compact

structure VerifiedReceipt where
  name : ReceiptName
  bucketNumber : UInt64
  kind : VerifiedReceiptKind
  device : Nat
  inode : Nat

def receiptAttemptIsValid (attempt maximumAttempts : UInt32) : Bool :=
  maximumAttempts ≠ 0 ∧ attempt ≠ 0 ∧ attempt ≤ maximumAttempts

/-- The name of a receipt and its place: the parsed name, the bucket and where it starts. -/
def authenticateReceiptName (format : FormatRecord) (context : ReceiptContext) :
    Except VerificationError (ReceiptName × UInt64 × UInt64) :=
  match parseReceipt context.filename with
  | .error e => .error (.corrupt ("receipt filename: " ++ e.text))
  | .ok name =>
    if ¬ receiptAttemptIsValid name.common.attempt name.common.maximumAttempts then
      .error (.corrupt "receipt attempt fields are invalid")
    else if ¬ name.authenticateTag format.queueId context.bucket context.shard then
      .error (.corrupt "receipt name tag mismatch")
    else
      match shardFromHex context.shard with
      | none => .error (.corrupt "receipt shard is invalid")
      | some shard =>
        if shard ≠ computeShard format.queueId name.common.jobId format.shardCount then
          .error (.corrupt "receipt shard placement mismatch")
        else
          match bucketFromHex context.bucket with
          | none => .error (.corrupt "receipt bucket is invalid")
          | some bucket =>
            match checkedMulU64 bucket format.terminalBucketWidthNs with
            | none => .error (.corrupt "receipt bucket start overflows")
            | some start => .ok (name, bucket, start)

def expectedNameMatches (name : ReceiptName) : Option ExpectedReceipt → Bool
  | none => true
  | some expected => name.common = expected.common ∧ name.token = expected.token

def isCompactReceipt (fileSize : Nat) (record : Bytes) : Bool :=
  fileSize = compactReceiptSize ∧ slice record 0 8 = receiptMagic

def checkCompactReceipt (format : FormatRecord) (name : ReceiptName) (bucketStart : UInt64)
    (expected : Option ExpectedReceipt) (record : Bytes) : Except VerificationError Unit :=
  match CompactReceipt.decode record with
  | .error e => .error (.corrupt ("compact receipt decode: " ++ e.text))
  | .ok compact =>
    if ¬ (compact.jobId = name.common.jobId ∧ compact.leaseToken = name.token ∧
        compact.finalAttempt = name.common.attempt ∧
        compact.receiptBucketStartUnixNs = bucketStart) then
      .error (.corrupt "compact receipt semantics do not match its path")
    else if ¬ compact.originalPayloadLength ≤ format.maxPayloadLength then
      .error (.corrupt "compact receipt payload length exceeds queue limit")
    else
      match expected with
      | none => .ok ()
      | some e =>
        if compact.envelopeDigest = e.envelopeDigest ∧
            compact.originalPayloadLength = e.payloadLength then .ok ()
        else .error (.corrupt "compact receipt evidence mismatch")

def checkFullReceipt (format : FormatRecord) (name : ReceiptName)
    (expected : Option ExpectedReceipt) (header : FixedHeader) : Except VerificationError Unit :=
  if ¬ (header.jobId = name.common.jobId ∧
      header.maximumAttempts = name.common.maximumAttempts) then
    .error (.corrupt "full receipt header does not match its path")
  else if ¬ header.payloadLength ≤ format.maxPayloadLength then
    .error (.corrupt "full receipt payload length exceeds queue limit")
  else
    match expected with
    | none => .ok ()
    | some e =>
      if header.envelopeDigest = e.envelopeDigest ∧ header.payloadLength = e.payloadLength then
        .ok ()
      else .error (.corrupt "full receipt evidence mismatch")

def verifyReceiptKind (file : Ino) (fileSize : Nat) (name : ReceiptName) (bucketStart : UInt64)
    (expected : Option ExpectedReceipt) : LookM VerificationError VerifiedReceiptKind := do
  let format := (← Task.memory).format
  let record ← Task.mapErr (fun
    | .unexpectedEof => .corrupt "receipt is shorter than its fixed record"
    | e => .io e.text) (preadExact file 0 compactReceiptSize)
  if isCompactReceipt fileSize record then do
    Task.ofExcept (checkCompactReceipt format name bucketStart expected record)
    return .compact
  else do
    let job ← verifyEnvelopeOnFd file
    Task.ofExcept (checkFullReceipt format name expected job.header)
    verifyPayload file job.header job.extension.length
    return .full job

/-- Authenticate a full or compact receipt. -/
def verifyReceiptOnFd (file : Ino) (context : ReceiptContext) (expected : Option ExpectedReceipt) :
    LookM VerificationError VerifiedReceipt := do
  let format := (← Task.memory).format
  let stat ← Task.mapErr (fun e => .io e.text) (fstat file)
  if stat.kind ≠ .regular then throw (.corrupt "receipt is not a regular file")
  else if stat.nlink ≠ 1 then
    throw (.corrupt ("receipt link count is " ++ toString stat.nlink ++ ", expected 1"))
  else do
    let (name, bucket, start) ← Task.ofExcept (authenticateReceiptName format context)
    if ¬ expectedNameMatches name expected then
      throw (.corrupt "receipt operation identity mismatch")
    else do
      let kind ← verifyReceiptKind file stat.size name start expected
      return ⟨name, bucket, kind, stat.dev, stat.ino⟩

/-- What the receipt of a lease must say. -/
def expectedReceiptFor (lease : LeaseInfo) : Option ExpectedReceipt :=
  match nextIdentity .acknowledge (leaseCommon lease) with
  | .error _ => none
  | .ok common => some ⟨common, lease.token, lease.envelopeDigest, lease.payloadLength⟩

def receiptIsAuthentic (lease : LeaseInfo) (dir : Path) (name : Name) : LookM ε Bool := do
  match expectedReceiptFor lease, dir with
  | some expected, [_, bucket, shard] => do
    let verified ← Task.attempt (do
      let dirFd ← Task.mapErr (fun e => .io e.text) (openRelative dir)
      let file ← Task.mapErr (fun e => .io e.text) (openAt dirFd name)
      verifyReceiptOnFd file ⟨bucket, shard, name⟩ (some expected))
    match verified with
    | .ok _ => return true
    | .error _ => return false
  | _, _ => return false

/-- Whether the receipt of a lease lies in one of `count` buckets from `bucket` on. -/
def probeReceipts (lease : LeaseInfo) (expected : ExpectedReceipt) (shard : UInt32) :
    (count : Nat) → (bucket : UInt64) → LookM Error Bool
  | 0, _ => return false
  | count + 1, bucket => do
    let next := probeReceipts lease expected shard count (bucket + 1)
    let name := makeReceiptName (← Task.memory).format.queueId (bucketHex bucket)
      (shardHex shard) expected.common lease.token
    match ← Task.attempt (openRelative (bucketShardDir .receipt bucket shard)) with
    | .error .enoent => next
    | .error e => throw (Error.from e)
    | .ok dir =>
      match ← Task.attempt (openAt dir name) with
      | .error .enoent => next
      | .error e => throw (Error.from e)
      | .ok file =>
        match ← Task.attempt
            (verifyReceiptOnFd file ⟨bucketHex bucket, shardHex shard, name⟩ (some expected)) with
        | .ok _ => return true
        | .error (.io message) => throw (.ioFailure message)
        | .error _ => next

/-- The first bucket of the probe, and how many buckets it covers. -/
def probeRange (wallNs retentionNs width : UInt64) : Option (UInt64 × Nat) :=
  match bucketNumber wallNs width, ceilingBucket retentionNs width with
  | some now, some retention =>
    -- `now_bucket.saturating_sub(retention_buckets + 2)`; retention is bounded at open
    let first := now.toNat - (retention.toNat + 2)
    some (UInt64.ofNat first, now.toNat - first + 1)
  | _, _ => none

def checkDuplicateAckBounded (lease : LeaseInfo) (floor : WallFloor) : LookM Error Bool := do
  let h ← Task.memory
  match probeRange floor.unixNs h.options.receiptRetentionNs h.format.terminalBucketWidthNs,
      expectedReceiptFor lease with
  | some (first, count), some expected =>
    probeReceipts lease expected (computeShard h.format.queueId lease.jobId h.format.shardCount)
      count first
  | _, _ => return false

def duplicateAckOutcome (lease : LeaseInfo) (floor : WallFloor) : LookM Error AckOutcome := do
  match ← Task.attempt (checkDuplicateAckBounded lease floor) with
  | .ok true => return .alreadyAcked
  | .ok false => return .leaseLost
  | .error e => return .notCommitted e

end SteadQ
