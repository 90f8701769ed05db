/-
  File:      SteadQ/Queue/Watermark.lean
  Subject:   THE WALL WATERMARK (`queue/watermark.rs`).

  `control/wall-watermark` holds the highest bucket of wall time any handle has acted in. It is
  read without a lock (`tryReadWallWatermark`) and replaced under one (`stabilizedWallFloor`).
  The clock may go back; the floor of a mutation may not.
-/
import SteadQ.Queue.Engine

namespace SteadQ

open Octet Interact

inductive WatermarkReadError where
  | notFound
  | truncated (message : String)
  | corrupt (message : String)
  | io (message : String)
  deriving DecidableEq

inductive WatermarkSnapshot where
  | current (record : WatermarkRecord)
  | replaced

def watermarkReadAttempts : Nat := 8

def controlPath : Path := [ascii "control"]
def watermarkName : Name := ascii "wall-watermark"

/-! ## 1. Reading -/

def watermarkPathMatchesOpened (opened current : Stat) : Except WatermarkReadError Bool :=
  if current.kind ≠ .regular then .error (.corrupt "watermark is not a regular file")
  -- a replacing rename can unlink the inode before its attributes are copied
  else if current.nlink = 0 then .ok false
  else if current.nlink ≠ 1 then
    .error (.corrupt "watermark is not a singly-linked regular file")
  else .ok (current.dev = opened.dev ∧ current.ino = opened.ino)

def watermarkShouldAdvance (observedBucket storedBucket : UInt64) : Bool :=
  observedBucket > storedBucket

def watermarkSizeText (found : Nat) : String :=
  "expected " ++ toString watermarkSize ++ " bytes, found " ++ toString found

/-- What the `fstat` of the opened record allows: nothing more to do, or to read it. -/
def watermarkStatCheck (stat : Stat) : Except WatermarkReadError (Option WatermarkSnapshot) :=
  if stat.kind ≠ .regular then .error (.corrupt "watermark is not a regular file")
  else if stat.nlink = 0 then .ok (some .replaced)
  else if stat.nlink ≠ 1 then
    .error (.corrupt "watermark is not a singly-linked regular file")
  else if stat.size < watermarkSize then .error (.truncated (watermarkSizeText stat.size))
  else if stat.size ≠ watermarkSize then .error (.corrupt (watermarkSizeText stat.size))
  else .ok none

/-- Read an opened record; it is current when the path still leads to it afterwards. -/
def readOpenedWallWatermark (control : Dir) (data : Ino) :
    LookM WatermarkReadError WatermarkSnapshot := do
  let stat ← Task.mapErr (fun e => .io e.text) (fstat data)
  match ← Task.ofExcept (watermarkStatCheck stat) with
  | some snapshot => return snapshot
  | none => do
    let buf ← Task.mapErr (fun
      | .unexpectedEof => .truncated IoError.unexpectedEof.text
      | e => .io e.text) (preadExact data 0 watermarkSize)
    let watermark ← Task.ofExcept
      ((WatermarkRecord.decode buf).mapError fun e => .corrupt e.text)
    let current ← Task.mapErr (fun
      | .enoent => .notFound
      | e => .io e.text) (fstatat control watermarkName)
    if ← Task.ofExcept (watermarkPathMatchesOpened stat current) then return .current watermark
    else return .replaced

/-- Open the record by its path and read it; a current one stays open in the handle. -/
def reopenWallWatermark (control : Dir) :
    QueueM WatermarkReadError (Option WatermarkRecord) := do
  let data ← Task.mapErr (fun
    | IoError.enoent => .notFound
    | e => .io e.text) (openAt control watermarkName)
  match ← readOpenedWallWatermark control data with
  | .current watermark => do
    Task.remember fun h => { h with cachedWatermarkFd := some data }
    return some watermark
  | .replaced => return none

/-- One round: the record held open first, then the path. -/
def readWallWatermarkOnce (control : Dir) :
    QueueM WatermarkReadError (Option WatermarkRecord) := do
  match (← Task.memory).cachedWatermarkFd with
  | none => reopenWallWatermark control
  | some data =>
    match ← readOpenedWallWatermark control data with
    | .current watermark => return some watermark
    | .replaced => do
      Task.remember fun h => { h with cachedWatermarkFd := none }
      reopenWallWatermark control

def readWallWatermarkRounds (control : Dir) : Nat →
    QueueM WatermarkReadError (Option WatermarkRecord)
  | 0 => return none
  | attempts + 1 => do
    match ← readWallWatermarkOnce control with
    | some watermark => return some watermark
    | none => readWallWatermarkRounds control attempts

/-- Authenticate the shared record without its lock; none means it kept being replaced. -/
def tryReadWallWatermark (attempts : Nat) : QueueM WatermarkReadError (Option WatermarkRecord) := do
  let control ← Task.mapErr (fun e : IoError => .io e.text) (openRelative controlPath)
  readWallWatermarkRounds control attempts

def WatermarkReadError.toError : WatermarkReadError → Error
  | .notFound => .queueCorrupt "wall watermark missing"
  | .truncated message => .queueCorrupt ("watermark truncated: " ++ message)
  | .corrupt message => .queueCorrupt ("watermark corrupt: " ++ message)
  | .io message => .ioFailure message

def authenticatedWallFloorWithAttempts (attempts : Nat) : QueueM Error WallFloor := do
  let read ← Task.mapErr WatermarkReadError.toError (tryReadWallWatermark attempts)
  let watermark ← Task.ofOption read .maintenanceBusy
  let clock ← Task.mapErr (fun e : IoError => .ioFailure ("CLOCK_REALTIME: " ++ e.text))
    clockRealtimeNs
  let unixNs ← Task.ofOption
    (effectiveWallFloor clock watermark.highestObservedBucket
      (← Task.memory).format.delayedBucketWidthNs)
    (.queueCorrupt "watermark computation overflow")
  return ⟨unixNs, watermark.highestObservedBucket, watermark.sequence⟩

def authenticatedWallFloor : QueueM Error WallFloor :=
  authenticatedWallFloorWithAttempts watermarkReadAttempts

def readWallWatermark : QueueM WatermarkReadError WatermarkRecord := do
  let read ← tryReadWallWatermark watermarkReadAttempts
  Task.ofOption read (.io ("wall watermark changed during " ++ toString watermarkReadAttempts ++
    " consecutive reads"))

/-! ## 2. Advancing -/

/-- Open the lock file and try to lock it; the lock is released when the action is over. -/
def withWallWatermarkWriteLock (action : Dir → QueueM Error α) : QueueM Error α := do
  let control ← Task.mapErr Error.from (openRelative controlPath)
  let locked ← Task.mapErr Error.from (tryOfdWriteLock .wallWatermark)
  if ¬ locked then throw .maintenanceBusy
  else do
    let result ← Task.attempt (action control)
    unlockFile .wallWatermark
    Task.ofExcept result

def watermarkTempName (random : Octets 16) : Name := ascii ".wm.adv." ++ hexEncode random.1

/-- Write the record under a temporary name and rename it over the old one. -/
def replaceWallWatermark (control : Dir) (record : WatermarkRecord) : QueueM Error Unit := do
  let random ← Task.mapErr Error.from random128bit
  let tmpName := watermarkTempName random
  let tmp ← Task.mapErr Error.from (createExclusive control tmpName)
  let written ← Task.attempt (do
    writeAll tmp record.encode
    fsync tmp
    renameat control tmpName control watermarkName)
  match written with
  | .error e => do
    -- the temporary file never became the watermark
    let _ ← Task.attempt (unlinkat control tmpName)
    throw (Error.from e)
  | .ok () =>
    Task.mapErr (fun e => .ioFailure ("watermark directory fsync: " ++ e.text))
      (fsyncDirFd control)

/-- Requires the lock. -/
def advanceWallWatermarkLocked (observed : WallFloor) (control : Dir) : QueueM Error WallFloor := do
  let width := (← Task.memory).format.delayedBucketWidthNs
  let observedBucket ← Task.ofOption (bucketNumber observed.unixNs width) .stateExhausted
  let wm ← Task.mapErr WatermarkReadError.toError readWallWatermark
  if ¬ watermarkShouldAdvance observedBucket wm.highestObservedBucket then do
    let durableNs ← Task.ofOption (checkedMulU64 wm.highestObservedBucket width) .stateExhausted
    return ⟨max observed.unixNs durableNs, wm.highestObservedBucket, wm.sequence⟩
  else do
    let newSeq ← Task.ofOption (checkedAddU64 wm.sequence 1) .stateExhausted
    replaceWallWatermark control ⟨observedBucket, newSeq⟩
    return ⟨observed.unixNs, observedBucket, newSeq⟩

def stabilizedWallFloor : QueueM Error WallFloor :=
  withWallWatermarkWriteLock fun control => do
    let observed ← authenticatedWallFloor
    let width := (← Task.memory).format.delayedBucketWidthNs
    let observedBucket ← Task.ofOption (bucketNumber observed.unixNs width) .stateExhausted
    if ¬ watermarkShouldAdvance observedBucket observed.watermarkBucket then return observed
    else advanceWallWatermarkLocked observed control

/-! ## 3. The floor of a mutation -/

/-- Errors that leave the handle usable. -/
def Error.transient (e : Error) : Bool := e = .maintenanceBusy ∨ e = .resourceExhausted

/-- Losing the watermark poisons the handle, except when the failure is transient. -/
def watermarkAuthority (m : QueueM Error α) : QueueM Error α := do
  match ← Task.attempt m with
  | .ok a => return a
  | .error e =>
    if e.transient then throw e
    else do
      poison .watermarkAuthorityLost
      throw e

def stabilizeAndCache : QueueM Error WallFloor := do
  let floor ← watermarkAuthority stabilizedWallFloor
  Task.remember fun h => { h with cachedWallFloor := some floor }
  return floor

/-- The handle's own floor, if the shared record is still the one it was taken from. -/
def cachedFloor (cached : WallFloor) (attempts : Nat) : QueueM Error (Option WallFloor) := do
  let authenticated ← watermarkAuthority (authenticatedWallFloorWithAttempts attempts)
  let width := (← Task.memory).format.delayedBucketWidthNs
  let observedBucket ← Task.ofOption (bucketNumber authenticated.unixNs width) .stateExhausted
  if observedBucket = authenticated.watermarkBucket ∧
      cached.watermarkBucket = authenticated.watermarkBucket ∧
      cached.watermarkSequence = authenticated.watermarkSequence then do
    let floor := { authenticated with unixNs := max cached.unixNs authenticated.unixNs }
    Task.remember fun h => { h with cachedWallFloor := some floor }
    return some floor
  else return none

def wallFloorForMutationWithAttempts (attempts : Nat) : QueueM Error WallFloor := do
  match (← Task.memory).cachedWallFloor with
  | none => stabilizeAndCache
  | some cached =>
    match ← cachedFloor cached attempts with
    | some floor => return floor
    | none => stabilizeAndCache

/-- Mark the beginning and the end of the acquisition of a floor in the history. -/
def marked (m : QueueM Error WallFloor) : QueueM Error WallFloor := do
  mark .floorBegin
  match ← Task.attempt m with
  | .ok floor => do
    mark (.floorEnd (some floor))
    return floor
  | .error e => do
    mark (.floorEnd none)
    throw e

def wallFloorForMutation : QueueM Error WallFloor :=
  marked (wallFloorForMutationWithAttempts watermarkReadAttempts)

end SteadQ
