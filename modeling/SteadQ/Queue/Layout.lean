/-
  File:      SteadQ/Queue/Layout.lean
  Subject:   WHERE OBJECTS LIVE (`queue/layout.rs`).

  A `Target` is a typed location and a file name. Leased objects stay in the shard directory of
  `ready/`; only their name says that they are leased. `Layout` holds the parameters of a queue
  that decide where an object goes.
-/
import SteadQ.Handle
import SteadQ.Math

namespace SteadQ

open Octet

inductive Location where
  | ready (shard : UInt32)
  | leased (bootId : Bytes) (bucket : UInt64) (shard : UInt32)
  | delayed (bucket : UInt64) (shard : UInt32)
  | receipt (bucket : UInt64) (shard : UInt32)
  | dead (bucket : UInt64) (shard : UInt32)
  deriving DecidableEq

structure Target where
  location : Location
  filename : Name
  deriving DecidableEq

def readyShardDir (shard : UInt32) : Path := [State.ready.dirName, shardHex shard]

/-- The shard directory of a state that is divided into buckets. -/
def bucketShardDir (state : State) (bucket : UInt64) (shard : UInt32) : Path :=
  [state.dirName, bucketHex bucket, shardHex shard]

namespace Target

def directory (t : Target) : Path :=
  match t.location with
  | .ready shard => readyShardDir shard
  | .leased _ _ shard => readyShardDir shard
  | .delayed bucket shard => bucketShardDir .delayed bucket shard
  | .receipt bucket shard => bucketShardDir .receipt bucket shard
  | .dead bucket shard => bucketShardDir .dead bucket shard

def relativePath (t : Target) : Path := t.directory ++ [t.filename]

def shard (t : Target) : UInt32 :=
  match t.location with
  | .ready shard => shard
  | .leased _ _ shard => shard
  | .delayed _ shard => shard
  | .receipt _ shard => shard
  | .dead _ shard => shard

end Target

structure Layout where
  queueId : Octets 16
  shardCount : UInt32
  leaseBucketWidthNs : UInt64
  delayedBucketWidthNs : UInt64
  terminalBucketWidthNs : UInt64
  bootId : Bytes

/-- The layout of an open queue. -/
def Handle.layout (h : Handle) : Layout :=
  ⟨h.format.queueId, h.format.shardCount, h.format.leaseBucketWidthNs,
   h.format.delayedBucketWidthNs, h.format.terminalBucketWidthNs, h.bootId⟩

namespace Layout

variable (l : Layout)

def shardFor (jobId : Octets 16) : UInt32 := computeShard l.queueId jobId l.shardCount

def ready (common : CommonFields) : Target :=
  let shard := l.shardFor common.jobId
  ⟨.ready shard, makeReadyName l.queueId (shardHex shard) common⟩

def delayed (common : CommonFields) (notBeforeNs : UInt64) : Except Error Target :=
  match eligibilityBucketAndNs notBeforeNs l.delayedBucketWidthNs with
  | none => .error (.invalidInput "eligibility overflow")
  | some (bucket, _) =>
    let shard := l.shardFor common.jobId
    .ok ⟨.delayed bucket shard,
      makeDelayedName l.queueId (bucketHex bucket) (shardHex shard) common notBeforeNs⟩

def leasedForBoot (common : CommonFields) (bootId : Bytes)
    (boottimeDeadlineNs wallDeadlineNs : UInt64) (token : Octets 16) : Except Error Target :=
  match leaseBucket boottimeDeadlineNs l.leaseBucketWidthNs with
  | none => .error .stateExhausted
  | some bucket =>
    let shard := l.shardFor common.jobId
    match makeLeasedName l.queueId bootId (bucketHex bucket) (shardHex shard) common
        boottimeDeadlineNs wallDeadlineNs token with
    | none => .error (.invalidTicket "boot id is not canonical")
    | some filename => .ok ⟨.leased bootId bucket shard, filename⟩

def leased (common : CommonFields) (boottimeDeadlineNs wallDeadlineNs : UInt64)
    (token : Octets 16) : Except Error Target :=
  l.leasedForBoot common l.bootId boottimeDeadlineNs wallDeadlineNs token

def receiptInBucket (common : CommonFields) (token : Octets 16) (bucket : UInt64) : Target :=
  let shard := l.shardFor common.jobId
  ⟨.receipt bucket shard,
    makeReceiptName l.queueId (bucketHex bucket) (shardHex shard) common token⟩

def receipt (common : CommonFields) (token : Octets 16) (wallNs : UInt64) : Except Error Target :=
  match bucketNumber wallNs l.terminalBucketWidthNs with
  | none => .error .stateExhausted
  | some bucket => .ok (l.receiptInBucket common token bucket)

def deadInBucket (common : CommonFields) (reason : UInt16) (bucket : UInt64) : Target :=
  let shard := l.shardFor common.jobId
  ⟨.dead bucket shard,
    makeDeadName l.queueId (bucketHex bucket) (shardHex shard) common reason⟩

def dead (common : CommonFields) (reason : UInt16) (wallNs : UInt64) : Except Error Target :=
  match bucketNumber wallNs l.terminalBucketWidthNs with
  | none => .error .stateExhausted
  | some bucket => .ok (l.deadInBucket common reason bucket)

/-- The location and the name in the path of a leased object: `ready/<shard>/<name>`, or the
    older form `leased/<boot>/<bucket>/<shard>/<name>`. -/
def parseLeasedPath (relative : Path) : Except Error (Location × Name) :=
  match relative with
  | [first, shardText, filename] =>
    if first = State.ready.dirName then
      match shardFromHex shardText with
      | none => .error (.queueCorrupt "invalid shard hex")
      | some shard =>
        if ¬ shard < l.shardCount then .error (.queueCorrupt "shard out of range")
        else
          match parseLeased filename with
          | .error _ => .error (.queueCorrupt "invalid leased path")
          | .ok parsed =>
            match leaseBucket parsed.boottimeDeadlineNs l.leaseBucketWidthNs with
            | none => .error (.queueCorrupt "invalid lease bucket")
            | some bucket => .ok (.leased (formatBootId parsed.bootId) bucket shard, filename)
    else .error (.queueCorrupt "invalid leased path")
  | [first, bootId, bucketText, shardText, filename] =>
    if first ≠ State.leased.dirName then .error (.queueCorrupt "invalid leased path")
    else if (bootIdBytes bootId).isNone then .error (.queueCorrupt "invalid boot id")
    else
      match bucketFromHex bucketText with
      | none => .error (.queueCorrupt "invalid bucket hex")
      | some bucket =>
        match shardFromHex shardText with
        | none => .error (.queueCorrupt "invalid shard hex")
        | some shard =>
          if ¬ shard < l.shardCount then .error (.queueCorrupt "shard out of range")
          else .ok (.leased bootId bucket shard, filename)
  | _ => .error (.queueCorrupt "invalid leased path")

end Layout

end SteadQ
