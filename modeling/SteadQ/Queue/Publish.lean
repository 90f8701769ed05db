/-
  File:      SteadQ/Queue/Publish.lean
  Subject:   ENQUEUE: directories on demand, and buffered, streaming and named-fallback
             publication (`queue/publish.rs`).

  `deferred` is whether directory barriers are left to a later `sync`; the directories still to
  be synced are then kept in the handle's dirty set.
-/
import SteadQ.Cbor
import SteadQ.Queue.Watermark

namespace SteadQ

open Octet Interact

/-! ## 1. Directories on demand -/

def recordDirty (dir : Dir) : QueueM IoError Unit := do
  let dirty ← (← Task.memory).dirty.record dir
  Task.remember fun h => { h with dirty }

/-- A directory is known once the barrier behind its creation is over. -/
def dirIsKnown (deferred : Bool) (relative : Path) : LookM ε Bool := do
  let h ← Task.memory
  return relative ∈ h.knownDirs ∨ (deferred ∧ relative ∈ h.dirty.pendingDirs)

/-- Sync `parent` and mark `children` known, or leave both to the dirty set. -/
def syncParentOf (deferred : Bool) (parent : Dir) (children : List Path) :
    QueueM IoError Unit := do
  if deferred then do
    recordDirty parent
    Task.remember fun h =>
      { h with dirty := { h.dirty with pendingDirs := h.dirty.pendingDirs ++ children } }
  else do
    fsyncDirFd parent
    Task.remember fun h => { h with knownDirs := h.knownDirs ++ children }

/-- Create the components of a path below `parent`, whose own path is `parent.path`. -/
def ensureComponents (deferred : Bool) (parent : Dir) : List Name → QueueM IoError Unit
  | [] => pure ()
  | comp :: rest => do
    let path := parent.path ++ [comp]
    let known ← (dirIsKnown deferred path : LookM IoError Bool)
    if known then do
      let child ← openDirectory parent comp
      ensureComponents deferred child rest
    else do
      let _ ← mkdiratEexistOk parent comp
      let child ← openDirectory parent comp
      -- found or created: whoever created it may have died before its own barrier
      syncParentOf deferred parent [path]
      ensureComponents deferred child rest

def shardNames (format : FormatRecord) : List Name :=
  (List.range format.shardCount.toNat).map fun i => shardHex (UInt32.ofNat i)

/-- The bucket of a shard path; `ready/<shard>` is there since init. -/
def shardedBucketParent (relative : Path) (shardCount : UInt32) : Option Path :=
  match relative.getLast? with
  | none => none
  | some shardName =>
    let bucket := relative.dropLast
    if bucket = [] ∨ bucket = [State.ready.dirName] then none
    else
      match shardFromHex shardName with
      | none => none
      | some shard => if shard < shardCount then some bucket else none

def mkdirAll (dir : Dir) : List Name → QueueM IoError Unit
  | [] => pure ()
  | name :: rest => do
    let _ ← mkdiratEexistOk dir name
    mkdirAll dir rest

/-- `depth` bounds the nesting of sharded buckets; the length of the path is enough. -/
def ensureDirUpTo (deferred : Bool) : (depth : Nat) → Path → QueueM IoError Unit
  | 0, _ => pure ()
  | depth + 1, relative => do
    let known ← (dirIsKnown deferred relative : LookM IoError Bool)
    if known then pure ()
    else do
      let format := (← Task.memory).format
      match shardedBucketParent relative format.shardCount with
      | some bucket => do
        ensureDirUpTo deferred depth bucket
        let bucketDir ← openRelative bucket
        mkdirAll bucketDir (shardNames format)
        syncParentOf deferred bucketDir ((shardNames format).map fun s => bucket ++ [s])
      | none => ensureComponents deferred rootDir relative

def ensureDirWithDirty (deferred : Bool) (relative : Path) : QueueM IoError Unit :=
  ensureDirUpTo deferred relative.length relative

def ensureDir (relative : Path) : QueueM IoError Unit := ensureDirWithDirty false relative

def openOrCacheDir (relative : Path) : QueueM IoError Dir := do
  match (← Task.memory).cachedDestFd with
  | some dir => if dir.path = relative then return dir else openAndCache
  | none => openAndCache
where
  openAndCache : QueueM IoError Dir := do
    let dir ← openRelative relative
    Task.remember fun h => { h with cachedDestFd := some dir }
    return dir

/-! ## 2. Errors of a publication -/

inductive PublishError where
  | notCommitted (error : Error)
  | outcomeUnknown (error : Error)
  | outcomeUnknownPublished (envelopeDigest : Octets 32) (error : Error)
  deriving DecidableEq

namespace PublishError

def withPublishedDigest (digest : Octets 32) : PublishError → PublishError
  | .outcomeUnknown error => .outcomeUnknownPublished digest error
  | other => other

def phaseText : TmpfilePublishPhase → String
  | .sourceIdentity => "SourceIdentity"
  | .fileFsync => "FileFsync"
  | .link => "Link"
  | .destinationFsync => "DestinationFsync"

def atPhase (phase : TmpfilePublishPhase) (source : IoError) : Error :=
  match Error.from source with
  | .ioFailure message =>
    .ioFailure ("temporary-file publication failed at " ++ phaseText phase ++ ": " ++ message)
  | classified => classified

def classifyTmpfile : TmpfilePublishFailure → PublishError
  | .alreadyExists => .notCommitted .identityCollision
  | .notCommitted phase source => .notCommitted (atPhase phase source)
  | .outcomeUnknown phase source => .outcomeUnknown (atPhase phase source)

def fromMoveFailure : MoveFailure → PublishError
  | .alreadyExists => .notCommitted .identityCollision
  | .sourceMissing => .notCommitted (.ioFailure "temporary publication source missing")
  | .notCommitted _ source => .notCommitted (Error.from source)
  | .outcomeUnknown _ source => .outcomeUnknown (Error.from source)

/-- An io error in front of the linearization point. -/
def before (e : IoError) : PublishError := .notCommitted (Error.from e)

end PublishError

/-! ## 3. Publication -/

/-- The directory of named temporary files that belongs to a destination directory. -/
def tmpShardDir (bootId : Bytes) (destDir : Path) : Path :=
  [ascii "tmp", bootId, destDir.getLast?.getD (ascii "0000")]

/-- Create a named temporary file: its directory, its name and its inode. -/
def createNamedTemp (deferred : Bool) (destDir : Path) : QueueM PublishError (Dir × Name × Ino) := do
  let tmpDir := tmpShardDir (← Task.memory).bootId destDir
  Task.mapErr .before (ensureDirWithDirty deferred tmpDir)
  let dir ← Task.mapErr .before (openRelative tmpDir)
  let boottime ← Task.mapErr .before clockBoottimeNs
  let random ← Task.mapErr .before random128bit
  let name := tempFilename boottime random
  let file ← Task.mapErr .before (createExclusive dir name)
  return (dir, name, file)

/-- `TempGuard`: the name is unlinked unless the rename happened or may have happened. -/
def guardTemp (dir : Dir) (name : Name) (body : QueueM PublishError α) : QueueM PublishError α := do
  match ← Task.attempt body with
  | .ok a => return a
  | .error (.notCommitted e) => do
    let _ ← Task.attempt (unlinkat dir name)
    throw (.notCommitted e)
  | .error e => throw e

/-- Sync the named file and rename it into place. -/
def finishNamedPublish (deferred : Bool) (tmpDir : Dir) (tmpName : Name) (file : Ino) (dst : Dir)
    (dstName : Name) : QueueM PublishError Unit := do
  Task.mapErr .before (fsync file)
  let stat ← Task.mapErr .before (fstat file)
  let _ ← Task.mapErr .fromMoveFailure
    (moveWitnessed deferred tmpDir tmpName dst dstName ⟨stat.dev, stat.ino⟩ (pure ()))
  if deferred then do
    Task.mapErr (fun e => .outcomeUnknown (Error.from e)) (recordDirty tmpDir)
    Task.mapErr (fun e => .outcomeUnknown (Error.from e)) (recordDirty dst)

def encodeHeaderBytes (header : FixedHeader) (ext : Bytes) : Except PublishError Bytes :=
  (header.encode ext).mapError fun e => .notCommitted (.invalidInput e.text)

def namedFallback (deferred : Bool) (destDir : Path) (dst : Dir) (dstName : Name)
    (header : FixedHeader) (ext payload : Bytes) : QueueM PublishError Unit := do
  let (tmpDir, tmpName, file) ← createNamedTemp deferred destDir
  guardTemp tmpDir tmpName do
    let headerBytes ← Task.ofExcept (encodeHeaderBytes header ext)
    Task.mapErr .before (writeAll file headerBytes)
    Task.mapErr .before (writeAll file ext)
    Task.mapErr .before (writeAll file payload)
    finishNamedPublish deferred tmpDir tmpName file dst dstName

/-- Publish an unnamed file whose content is written; false when that is not supported. -/
def publishUnnamed (deferred : Bool) (file : Ino) (dst : Dir) (dstName : Name) :
    QueueM PublishError Bool := do
  let preferred := (← Task.memory).publicationMode
  match ← Task.mapErr .classifyTmpfile
      (publishTmpfileNoreplaceImpl file dst dstName preferred (!deferred)) with
  | .published mode => do
    Task.remember fun h => { h with publicationMode := some mode }
    if deferred then
      Task.mapErr (fun e => .outcomeUnknown (Error.from e)) (recordDirty dst)
    return true
  | .unsupported => do
    Task.remember fun h => { h with publicationMode := some .namedFallback }
    return false

/-- An unnamed file in the destination directory; none when named files have to be used. -/
def openUnnamed (dst : Dir) : QueueM PublishError (Option Ino) := do
  if (← Task.memory).publicationMode = some .namedFallback then return none
  else
    match ← Task.attempt (openTmpfile dst) with
    | .ok file => return some file
    | .error e =>
      if isTmpfileOpenUnsupported e then do
        Task.remember fun h => { h with publicationMode := some .namedFallback }
        return none
      else throw (.before e)

def writeAndPublish (deferred : Bool) (destDir : Path) (dstName : Name) (header : FixedHeader)
    (ext payload : Bytes) : QueueM PublishError Unit := do
  Task.mapErr .before (ensureDirWithDirty deferred destDir)
  let dst ← Task.mapErr .before (openOrCacheDir destDir)
  match ← openUnnamed dst with
  | none => namedFallback deferred destDir dst dstName header ext payload
  | some file => do
    let headerBytes ← Task.ofExcept (encodeHeaderBytes header ext)
    Task.mapErr .before (writeAll file (headerBytes ++ ext ++ payload))
    let published ← publishUnnamed deferred file dst dstName
    if published then pure ()
    else namedFallback deferred destDir dst dstName header ext payload

/-! ## 4. Enqueue -/

structure EnqueueInput where
  maximumAttempts : UInt32
  contentType : Str
  metadata : Metadata
  producerId : Option Str
  traceContext : Option Bytes
  initialNotBefore : Option UInt64
  payload : Bytes

def EnqueueInput.extension (job : EnqueueInput) : ExtensionHeader :=
  ⟨job.initialNotBefore, job.contentType, job.metadata, job.producerId, job.traceContext⟩

structure PreparedEnqueue where
  ticket : EnqueueTicket
  header : FixedHeader
  extBytes : Bytes
  destDir : Path
  filename : Name
  readyShardHint : Option UInt32

def headerOf (jobId : Octets 16) (maximumAttempts : UInt32) (createdAt : UInt64) (ext : Bytes)
    (payloadLength : Nat) (payloadDigest : Octets 32) : FixedHeader where
  formatMinor := formatMinor
  extensionHeaderLength := UInt32.ofNat ext.length
  payloadLength := UInt64.ofNat payloadLength
  flags := 0
  digestAlgorithm := digestAlgorithmSha256
  jobId := jobId
  maximumAttempts := maximumAttempts
  createdAtUnixNs := createdAt
  payloadDigest := payloadDigest
  envelopeDigest := zeros 32

/-- A deadline in the future of the floor makes a delayed job. -/
def initialStateFor (initialNotBefore : Option UInt64) (nowWall : UInt64) : InitialState :=
  match initialNotBefore with
  | some nb => if nb > nowWall then .delayed else .ready
  | none => .ready

def InitialState.operation : InitialState → Operation
  | .ready => .enqueueImmediate
  | .delayed => .enqueueDelayed

/-- Where a new job goes. -/
def initialTarget (l : Layout) (state : InitialState) (common : CommonFields)
    (initialNotBefore : Option UInt64) : Except Error Target :=
  match state with
  | .ready => .ok (l.ready common)
  | .delayed =>
    match initialNotBefore with
    | none => .error (.queueCorrupt "delayed enqueue lost its deadline")
    | some nb => l.delayed common nb

/-- The largest payload a queue takes. -/
def FormatRecord.payloadLimit (f : FormatRecord) : Nat :=
  (min f.maxPayloadLength SteadQ.maxPayloadLength).toNat

/-- The header of a job, with its digest. -/
def sealedHeader (header : FixedHeader) (ext : Bytes) : Except Error FixedHeader :=
  match envelopeDigest header ext with
  | none => .error (.invalidInput "extension length mismatch")
  | some digest => .ok { header with envelopeDigest := digest }

/-- Checks and header of an enqueue, once the job has its id and the call its floor. -/
def buildEnvelope (format : FormatRecord) (job : EnqueueInput) (jobId : Octets 16)
    (floor : WallFloor) : Except Error (FixedHeader × Bytes) :=
  if job.maximumAttempts = 0 then .error (.invalidInput "maximum_attempts must be >= 1")
  else
    match job.extension.encode with
    | .error e => .error (.invalidInput e.text)
    | .ok ext =>
      if job.payload.length > format.payloadLimit then .error (.invalidInput "payload exceeds limit")
      else
        match sealedHeader (headerOf jobId job.maximumAttempts floor.unixNs ext job.payload.length
            (payloadDigest job.payload)) ext with
        | .error e => .error e
        | .ok header => .ok (header, ext)

/-- State and place of a new job. -/
def placeEnqueue (l : Layout) (job : EnqueueInput) (jobId : Octets 16) (digest : Octets 32)
    (floor : WallFloor) : Except (EnqueueTicket × Error) (InitialState × Target) :=
  let state := initialStateFor job.initialNotBefore floor.unixNs
  let eligible : Bool := match state, job.initialNotBefore with
    | .delayed, some nb => (eligibilityBucketAndNs nb l.delayedBucketWidthNs).isSome
    | _, _ => true
  if ¬ eligible then .error (⟨jobId, digest, .ready, []⟩, .invalidInput "eligibility overflow")
  else
    match nextIdentity state.operation ⟨jobId, 0, 0, job.maximumAttempts⟩ with
    | .error e => .error (.uncommitted jobId, e)
    | .ok common =>
      match initialTarget l state common job.initialNotBefore with
      | .error e => .error (⟨jobId, digest, state, []⟩, e)
      | .ok target => .ok (state, target)

def prepareEnqueue (job : EnqueueInput) : QueueM (EnqueueTicket × Error) PreparedEnqueue := do
  Task.mapErr (fun e => (.uncommitted (zeros 16), e)) checkNotPoisoned
  let jobId ← Task.mapErr (fun e => (.uncommitted (zeros 16), Error.from e)) random128bit
  let floor ← Task.mapErr (fun e => (.uncommitted jobId, e)) wallFloorForMutation
  let h ← Task.memory
  let (header, ext) ← Task.ofExcept
    ((buildEnvelope h.format job jobId floor).mapError fun e => (.uncommitted jobId, e))
  let (state, target) ← Task.ofExcept
    (placeEnqueue h.layout job jobId header.envelopeDigest floor)
  return {
    ticket := ⟨jobId, header.envelopeDigest, state, target.relativePath⟩
    header := header
    extBytes := ext
    destDir := target.directory
    filename := target.filename
    readyShardHint := match state with
      | .ready => some (computeShard h.format.queueId jobId h.format.shardCount)
      | .delayed => none }

def enqueueWithDirty (deferred : Bool) (job : EnqueueInput) : QueueM Empty EnqueueOutcome := do
  match ← Task.attempt (prepareEnqueue job) with
  | .error (ticket, e) => return .notCommitted ticket e
  | .ok prepared =>
    match ← Task.attempt (writeAndPublish deferred prepared.destDir prepared.filename
        prepared.header prepared.extBytes job.payload) with
    | .ok () => do
      Task.remember fun h =>
        { h with readyShardHint := prepared.readyShardHint.or h.readyShardHint }
      return .committed prepared.ticket
    | .error (.notCommitted e) => return .notCommitted prepared.ticket e
    | .error (.outcomeUnknown e) => do
      poison .postLinearizationStateUnknown
      return .outcomeUnknown prepared.ticket e
    | .error (.outcomeUnknownPublished digest e) => do
      poison .postLinearizationStateUnknown
      return .outcomeUnknown { prepared.ticket with envelopeDigest := digest } e

def enqueue (job : EnqueueInput) : QueueM Empty EnqueueOutcome := do
  let deferred := (← Task.memory).options.deferredDirSync
  let outcome ← enqueueWithDirty deferred job
  match deferred, outcome with
  | true, .committed ticket => return .deferred ticket
  | _, outcome => return outcome

/-! ## 5. Streaming enqueue -/

/-- What the payload source hands out, read by read; its end is the end of the list. -/
abbrev PayloadReader := List (Except IoError Bytes)

/-- Copy the payload behind the header and the extension; the payload that was written. -/
def streamChunks (file : Ino) (limit : Nat) (payload : Bytes) :
    PayloadReader → QueueM PublishError Bytes
  | [] => return payload
  | .error e :: rest =>
    if e.isInterrupted then streamChunks file limit payload rest else throw (.before e)
  | .ok chunk :: rest => do
    let read := chunk.take (min 65536 (limit - payload.length + 1))
    if read = [] then return payload
    else if payload.length + read.length > limit then
      throw (.notCommitted (.invalidInput "payload exceeds limit"))
    else do
      Task.mapErr .before (writeAll file read)
      streamChunks file limit (payload ++ read) rest

/-- Write a placeholder header, the extension and the payload. -/
def streamPayloadToFd (file : Ino) (ext : Bytes) (reader : PayloadReader) :
    QueueM PublishError Bytes := do
  Task.mapErr .before (writeAll file (zeros 128).1)
  Task.mapErr .before (writeAll file ext)
  streamChunks file (← Task.memory).format.payloadLimit [] reader

/-- What is fixed about a streamed job before its payload is read. -/
structure StreamedJob where
  jobId : Octets 16
  maximumAttempts : UInt32
  createdAt : UInt64
  ext : Bytes

/-- Stream the payload, then write the real header over the placeholder. -/
def streamEnvelope (job : StreamedJob) (file : Ino) (reader : PayloadReader) :
    QueueM PublishError (FixedHeader × Bytes) := do
  let payload ← streamPayloadToFd file job.ext reader
  let header ← Task.ofExcept ((sealedHeader (headerOf job.jobId job.maximumAttempts job.createdAt
    job.ext payload.length (payloadDigest payload)) job.ext).mapError .notCommitted)
  let headerBytes ← Task.ofExcept (encodeHeaderBytes header job.ext)
  Task.mapErr .before (pwriteAll file headerBytes 0)
  return (header, payload)

/-- Copy `length` bytes of `src` from `offset` on; `fuel` reads are enough when none is short. -/
def copyPayload (src dst : Ino) (offset length : Nat) : (fuel copied : Nat) →
    QueueM PublishError Unit
  | 0, _ => pure ()
  | fuel + 1, copied =>
    if copied < length then do
      let chunk ← Task.mapErr .before (pread src (offset + copied) (min 65536 (length - copied)))
      if chunk = [] then pure ()
      else do
        Task.mapErr .before (writeAll dst chunk)
        copyPayload src dst offset length fuel (copied + chunk.length)
    else pure ()

/-- The unnamed file could not be linked: copy it to a named one. -/
def namedFallbackStreaming (deferred : Bool) (destDir : Path) (dst : Dir) (dstName : Name)
    (header : FixedHeader) (ext : Bytes) (source : Ino) (payloadLength : Nat) :
    QueueM PublishError (Octets 32) := do
  let (tmpDir, tmpName, file) ← createNamedTemp deferred destDir
  guardTemp tmpDir tmpName do
    let headerBytes ← Task.ofExcept (encodeHeaderBytes header ext)
    Task.mapErr .before (writeAll file headerBytes)
    Task.mapErr .before (writeAll file ext)
    copyPayload source file (128 + ext.length) payloadLength payloadLength 0
    Task.mapErr (.withPublishedDigest header.envelopeDigest)
      (finishNamedPublish deferred tmpDir tmpName file dst dstName)
    return header.envelopeDigest

/-- There is no unnamed file: stream into a named one. -/
def namedFallbackStreamingInit (deferred : Bool) (destDir : Path) (dst : Dir) (dstName : Name)
    (job : StreamedJob) (reader : PayloadReader) : QueueM PublishError (Octets 32) := do
  let (tmpDir, tmpName, file) ← createNamedTemp deferred destDir
  guardTemp tmpDir tmpName do
    let (header, _) ← streamEnvelope job file reader
    Task.mapErr (.withPublishedDigest header.envelopeDigest)
      (finishNamedPublish deferred tmpDir tmpName file dst dstName)
    return header.envelopeDigest

def streamAndPublish (deferred : Bool) (destDir : Path) (dstName : Name) (job : StreamedJob)
    (reader : PayloadReader) : QueueM PublishError (Octets 32) := do
  Task.mapErr .before (ensureDirWithDirty deferred destDir)
  let dst ← Task.mapErr .before (openRelative destDir)
  match ← openUnnamed dst with
  | none => namedFallbackStreamingInit deferred destDir dst dstName job reader
  | some file => do
    let (header, payload) ← streamEnvelope job file reader
    let published ← Task.mapErr (.withPublishedDigest header.envelopeDigest)
      (publishUnnamed deferred file dst dstName)
    if published then return header.envelopeDigest
    else
      namedFallbackStreaming deferred destDir dst dstName header job.ext file payload.length

/-- Checks and place of a streamed job. -/
def prepareStreaming (job : EnqueueInput) :
    QueueM (EnqueueTicket × Error) (StreamedJob × InitialState × Target) := do
  Task.mapErr (fun e => (.uncommitted (zeros 16), e)) checkNotPoisoned
  if job.maximumAttempts = 0 then
    throw (.uncommitted (zeros 16), .invalidInput "maximum_attempts must be >= 1")
  else do
    let floor ← Task.mapErr (fun e => (.uncommitted (zeros 16), e)) wallFloorForMutation
    let jobId ← Task.mapErr (fun e => (.uncommitted (zeros 16), Error.from e)) random128bit
    let ext ← Task.ofExcept (job.extension.encode.mapError fun e =>
      (.uncommitted jobId, Error.invalidInput e.text))
    let state := initialStateFor job.initialNotBefore floor.unixNs
    let common ← Task.ofExcept ((nextIdentity state.operation
      ⟨jobId, 0, 0, job.maximumAttempts⟩).mapError fun e => (.uncommitted jobId, e))
    let target ← Task.ofExcept ((initialTarget (← Task.memory).layout state common
      job.initialNotBefore).mapError fun e => (.uncommitted jobId, e))
    return (⟨jobId, job.maximumAttempts, floor.unixNs, ext⟩, state, target)

/-- The payload of `job` is not used; it comes from `reader`. -/
def enqueueStreaming (job : EnqueueInput) (reader : PayloadReader) :
    QueueM Empty EnqueueOutcome := do
  match ← Task.attempt (prepareStreaming job) with
  | .error (ticket, e) => return .notCommitted ticket e
  | .ok (streamed, state, target) => do
    let deferred := (← Task.memory).options.deferredDirSync
    let ticket (digest : Octets 32) : EnqueueTicket :=
      ⟨streamed.jobId, digest, state, target.relativePath⟩
    match ← Task.attempt (streamAndPublish deferred target.directory target.filename streamed
        reader) with
    | .ok digest =>
      if deferred then return .deferred (ticket digest) else return .committed (ticket digest)
    | .error (.notCommitted e) => return .notCommitted (ticket (zeros 32)) e
    | .error (.outcomeUnknown e) => do
      poison .postLinearizationStateUnknown
      return .outcomeUnknown (ticket (zeros 32)) e
    | .error (.outcomeUnknownPublished digest e) => do
      poison .postLinearizationStateUnknown
      return .outcomeUnknown (ticket digest) e

end SteadQ
