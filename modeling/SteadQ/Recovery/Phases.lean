/-
  File:      SteadQ/Recovery/Phases.lean
  Subject:   THE FIVE PHASES OF A RECOVERY PASS (`recovery/phases/{reap,promote,retain}.rs`).

  Reaping of expired leases, promotion of delayed jobs, removal of stale temporary files,
  compaction of receipts, deletion of receipts past retention. Four of them are `walkPhase` with
  their own levels and their own visit of an entry; reaping also streams the ready shards, where
  leases stay next to the ready jobs.
-/
import SteadQ.Recovery.Walk

namespace SteadQ

open Octet Interact

/-! ## 1. Shared steps -/

def MoveFailure.before (e : IoError) : MoveFailure := .notCommitted .preRename e

/-- The identity behind a recovery move. -/
def nextForMove (operation : Operation) (common : CommonFields) :
    Except MoveFailure CommonFields :=
  (nextCommonFields operation common).mapError fun _ =>
    .before (.custom "generation or attempt overflow")

/-- Quarantine what can never become valid; an entry whose quarantine ran out of budget is left
    for the next pass. -/
def quarantineEntry (c : PassContext) (dir : Dir) (entry : Name) (path : Path)
    (reason : QuarantineReason) : PassM EntryOutcome := do
  if ← quarantineRecoveryObject c dir entry path reason then return .kept else return .retry

def quarantineInvalid (c : PassContext) (dir : Dir) (entry : Name) (path : Path) :
    Error → PassM EntryOutcome
  | .queueCorrupt _ => quarantineEntry c dir entry path .envelopeCorrupt
  | _ => return .kept

def settleMove (counted : RecoveryStats → RecoveryStats) (operation : String) (path : Path) :
    Except MoveFailure Unit → PassM EntryOutcome
  | .ok () => do
    onStats counted
    return .absent
  | .error failure => do
    recordMoveFailure operation path failure
    return if failure = .sourceMissing then .absent else .kept

/-! ## 2. Reaping -/

def reapToReady (src : Dir) (shard : UInt32) (leasedName : Name) (common : CommonFields) :
    QueueM MoveFailure Unit := do
  let layout := (← Task.memory).layout
  let readyCommon ← Task.ofExcept (nextForMove .reapExpiredToReady common)
  let dst ← Task.mapErr (.notCommitted .ensureDest) (openRelative (readyShardDir shard))
  moveVerifiedNoreplace src leasedName dst (layout.ready readyCommon).filename

def reapColocatedToReady (shardDir : Dir) (leasedName : Name) (common : CommonFields) :
    QueueM MoveFailure Unit := do
  let layout := (← Task.memory).layout
  let readyCommon ← Task.ofExcept (nextForMove .reapExpiredToReady common)
  moveVerifiedNoreplace shardDir leasedName shardDir (layout.ready readyCommon).filename

def reapToDead (src : Dir) (leasedName : Name) (common : CommonFields) (reason : DeadReason)
    (wallFloor : WallFloor) : QueueM MoveFailure Unit := do
  let h ← Task.memory
  let bucket ← Task.ofOption (bucketNumber wallFloor.unixNs h.format.terminalBucketWidthNs)
    (.before (.custom "terminal bucket overflow"))
  let deadCommon ← Task.ofExcept (nextForMove .reapExpiredToDead common)
  let target := h.layout.deadInBucket deadCommon reason.code bucket
  Task.mapErr (.notCommitted .ensureDest) (ensureDir target.directory)
  let dst ← Task.mapErr (.notCommitted .ensureDest) (openRelative target.directory)
  moveVerifiedNoreplace src leasedName dst target.filename

/-- An expired lease goes back to ready, or to dead when its attempts are used up. -/
def reapLease (c : PassContext) (dir : Dir) (entry : Name) (path : Path) (common : CommonFields)
    (toReady : QueueM MoveFailure Unit) : PassM EntryOutcome := do
  if common.attempt ≥ common.maximumAttempts then
    match c.wallFloor with
    | none => do
      recordError "reap_to_dead" path "authenticated wall floor unavailable"
      return .kept
    | some floor => do
      countOperation
      let moved ← onHandle (reapToDead dir entry common .attemptsExhausted floor)
      settleMove (fun s => { s with leasesToDead := s.leasesToDead + 1 }) "reap_to_dead" path moved
  else do
    countOperation
    let moved ← onHandle toReady
    settleMove (fun s => { s with leasesReaped := s.leasesReaped + 1 }) "reap_to_ready" path moved

def leasedRoot : Name := State.leased.dirName

/-- One entry of `leased/<boot>/<bucket>/<shard>`. -/
def reapVisit (c : PassContext) (place : Place) (dir : Dir) (entry : Name) :
    PassM EntryOutcome := do
  if ¬ extSqj.isSuffixOf entry then return .kept
  else do
    let h ← thisHandle
    let path := leasedRoot :: place.names ++ [entry]
    match parseLeased entry with
    | .error _ => do
      recordError "reap_parse" path "malformed leased filename"
      quarantineEntry c dir entry path .filenameParseFailed
    | .ok parsed =>
      if place.currentBoot ∧ parsed.boottimeDeadlineNs > c.boottimeNow then return .kept
      else
        match ← lookHandle (validateActiveObject dir entry
            (.leased (place.name 0) (place.name 1) (place.name 2))) with
        | .error e => do
          recordError "reap_validate" path e.text
          quarantineInvalid c dir entry path e
        | .ok _ =>
          match leaseBucket parsed.boottimeDeadlineNs h.format.leaseBucketWidthNs with
          | none => do
            recordError "reap_bucket_check" path "invalid lease bucket width"
            return .stop
          | some expected =>
            if place.bucket ≠ expected then do
              recordError "reap_bucket_check" path ("bucket mismatch: dir " ++
                toString place.bucket ++ " != deadline-derived " ++ toString expected)
              return .kept
            else
              reapLease c dir entry path parsed.common
                (reapToReady dir place.shard entry parsed.common)

def reapHierarchy (c : PassContext) : Hierarchy :=
  ⟨.reapLeases, leasedRoot, reapVisit c, "reap_entry_name"⟩

/-- On the current boot only buckets that have begun are looked at. -/
def admitLeaseBucket (c : PassContext) (place : Place) : PassM Admit := do
  if place.currentBoot then
    match bucketNumber c.boottimeNow (← thisHandle).format.leaseBucketWidthNs with
    | none => do
      blockPhase "reap_bucket_check" (leasedRoot :: place.names) "invalid lease bucket width"
      return .stop
    | some current => if place.bucket > current then return .skip else return .enter place.prune
  else return .enter place.prune

def countShard (s : RecoveryStats) : RecoveryStats := { s with shardsRemoved := s.shardsRemoved + 1 }

def countBucket (s : RecoveryStats) : RecoveryStats :=
  { s with bucketsRemoved := s.bucketsRemoved + 1 }

/-- A shard is entered under the conditions of the directory it is in. -/
def shardLevel (nameOperation openOperation readOperation removeOperation : String) : Level :=
  ⟨.shard, false, nameOperation, openOperation, readOperation, removeOperation, countShard,
    fun place => return .enter place.prune⟩

/-- Only a process running on that boot writes there, so the tree of another boot is pruned. -/
def bootLevel (nameOperation openOperation readOperation removeOperation : String) : Level :=
  ⟨.boot, true, nameOperation, openOperation, readOperation, removeOperation, id,
    fun place => return .enter (¬ place.currentBoot)⟩

def reapLevels (c : PassContext) : List Level :=
  [bootLevel "reap_boot_name" "reap_boot_open" "reap_bucket_read" "reap_boot_remove",
   ⟨.bucket, true, "reap_bucket_name", "reap_bucket_open", "reap_shard_read",
     "reap_bucket_remove", countBucket, admitLeaseBucket c⟩,
   shardLevel "reap_shard_name" "reap_shard_open" "reap_entry_read" "reap_shard_remove"]

/-- Reap one lease found in a ready shard; `true` breaks the stream, leaving it for the next
    pass. -/
def reapColocatedLease (c : PassContext) (dir : Dir) (shardName : Name) (entry : Name)
    (path : Path) (parsed : LeasedName) : PassM Bool := do
  let h ← thisHandle
  let bootId := formatBootId parsed.bootId
  match leaseBucket parsed.boottimeDeadlineNs h.format.leaseBucketWidthNs with
  | none => do
    recordError "reap_bucket_check" path "invalid lease bucket width"
    return false
  | some bucket =>
    if ¬ parsed.authenticateTag h.format.queueId bootId (bucketHex bucket) shardName then do
      recordError "reap_parse" path "name tag mismatch"
      return false
    else if bootId = h.bootId ∧ parsed.boottimeDeadlineNs > c.boottimeNow then return false
    else
      match ← lookHandle
          (validateActiveObject dir entry (.leased bootId (bucketHex bucket) shardName)) with
      | .error e => do
        recordError "reap_validate" path e.text
        return (← quarantineInvalid c dir entry path e) = .retry
      | .ok _ =>
        if ← workBudgetExhausted c then do
          exhaust
          return true
        else do
          let _ ← reapLease c dir entry path parsed.common
            (reapColocatedToReady dir entry parsed.common)
          return false

def reapColocatedVisit (c : PassContext) (dir : Dir) (shard : UInt32) (raw : Name) : PassM Bool :=
  if ¬ isAscii raw then return false
  else
    match parseLeased raw with
    | .error _ => return false
    | .ok parsed =>
      reapColocatedLease c dir (shardHex shard) raw (readyShardDir shard ++ [raw]) parsed

/-- Stream one ready shard from the saved position; `true` when the pass stops here. -/
def reapColocatedShard (c : PassContext) (shard : UInt32) : PassM Bool := do
  let position := ((← thisHandle).recoveryCursor.reapColocatedPosition).getD 0
  onCursor fun k => { k with reapColocatedPosition := none }
  match ← lookHandle (openRelative (readyShardDir shard)) with
  | .error e => do
    skipScan
    recordError "reap_shard_open" (readyShardDir shard) e.text
    return false
  | .ok dir => do
    let (result, position) ←
      streamRecoveryDirectory c dir position (reapColocatedVisit c dir shard)
    let stop ← match result with
      | .ok broken => pure broken
      | .error e => do
        skipScan
        recordDirectoryError "reap_entry_read" (readyShardDir shard) e
    if stop then do
      onCursor fun k => { k with
        reapColocatedPosition := if position ≠ 0 then some position else none }
      return true
    else return false

/-- The ready shards from `shard` on, `left` of them; every early return resumes there. -/
def reapColocatedShards (c : PassContext) : (left : Nat) → (shard : UInt32) → PassM Unit
  | 0, _ => onCursor fun k => { k with reapColocatedShard := none }
  | left + 1, shard => do
    onCursor fun k => { k with reapColocatedShard := some shard }
    if ← workBudgetExhausted c then exhaust
    else if ← reapColocatedShard c shard then return ()
    else reapColocatedShards c left (shard + 1)

def reapColocatedReadyLeases (c : PassContext) : PassM Unit := do
  let h ← thisHandle
  let first := h.recoveryCursor.reapColocatedShard.getD 0
  reapColocatedShards c (h.format.shardCount.toNat - first.toNat) first

def reapExpiredLeases (c : PassContext) : PassM Unit := do
  -- a saved shard means `leased/` was finished earlier in this cycle
  let resumed : PassM Bool := do
    if (← thisHandle).recoveryCursor.reapColocatedShard.isSome then do
      reapColocatedReadyLeases c
      return false
    else return true
  match ← openPhase c (reapHierarchy c) "open_leased_dir" "read_leased_dirs" resumed with
  | none => return ()
  | some (dir, names) =>
    if ← walkPhase c (reapHierarchy c) (reapLevels c) dir names then reapColocatedReadyLeases c
    else return ()

/-! ## 3. Promotion -/

def delayedRoot : Name := State.delayed.dirName

def promoteToReady (src : Dir) (shard : Name) (delayedName : Name) (common : CommonFields) :
    QueueM MoveFailure Unit := do
  let queueId := (← Task.memory).format.queueId
  let readyCommon ← Task.ofExcept (nextForMove .promote common)
  let dst ← Task.mapErr (.notCommitted .ensureDest) (openRelative [State.ready.dirName, shard])
  moveVerifiedNoreplace src delayedName dst (makeReadyName queueId shard readyCommon)

def promoteVisit (c : PassContext) (place : Place) (dir : Dir) (entry : Name) :
    PassM EntryOutcome := do
  if ¬ extSqj.isSuffixOf entry then return .kept
  else do
    let path := delayedRoot :: place.names ++ [entry]
    match parseDelayed entry with
    | .error _ => do
      recordError "promote_parse" path "malformed delayed filename"
      quarantineEntry c dir entry path .filenameParseFailed
    | .ok parsed =>
      match ← lookHandle
          (validateActiveObject dir entry (.delayed (place.name 0) (place.name 1))) with
      | .error e => do
        recordError "promote_validate" path e.text
        quarantineInvalid c dir entry path e
      | .ok _ => do
        countOperation
        let moved ← onHandle (promoteToReady dir (place.name 1) entry parsed.common)
        settleMove (fun s => { s with delayedPromoted := s.delayedPromoted + 1 })
          "promote_delayed" path moved

def promoteHierarchy (c : PassContext) : Hierarchy :=
  ⟨.promoteDelayed, delayedRoot, promoteVisit c, "promote_entry_name"⟩

/-- Only buckets at or below the current one are promoted. A producer targets buckets that end
    after its own floor, so an older bucket is drained for good. -/
def promoteLevels (currentWallBucket : UInt64) : List Level :=
  [⟨.bucket, true, "promote_bucket_name", "promote_bucket_open", "promote_shard_read",
     "promote_bucket_remove", countBucket, fun place =>
       if place.bucket > currentWallBucket then return .skip
       else return .enter (place.bucket < currentWallBucket)⟩,
   shardLevel "promote_shard_name" "promote_shard_open" "promote_entry_read"
     "promote_shard_remove"]

def promoteDelayed (c : PassContext) (wallFloor : WallFloor) : PassM Unit := do
  match ← openPhase c (promoteHierarchy c) "promote_root_open" "promote_bucket_read"
      (return true) with
  | none => return ()
  | some (dir, names) =>
    match bucketNumber wallFloor.unixNs (← thisHandle).format.delayedBucketWidthNs with
    | none => blockPhase "promote_wall_bucket" [delayedRoot] "wall floor has no delayed bucket"
    | some current => do
      let _ ← walkPhase c (promoteHierarchy c) (promoteLevels current) dir names

/-! ## 4. Temporary files -/

def tmpRoot : Name := ascii "tmp"
def extTmp : Bytes := ascii ".tmp"

/-- Every temporary file of another boot, and those of this boot past their time to live. -/
def tempIsStale (c : PassContext) (ttlNs : UInt64) (place : Place) (entry : Name) : Bool :=
  if ¬ place.currentBoot then true
  else
    match parseTemp entry with
    | .ok parsed => c.boottimeNow.toNat - parsed.createdBoottimeNs.toNat > ttlNs.toNat
    | .error _ => false

def settleUnlink (counted : RecoveryStats → RecoveryStats) (operation : String) (path : Path) :
    Except UnlinkFailure Unit → PassM EntryOutcome
  | .ok () => do
    onStats counted
    return .absent
  | .error failure => do
    recordUnlinkFailure operation path failure
    return if failure = .sourceMissing then .absent else .kept

def cleanupVisit (c : PassContext) (place : Place) (dir : Dir) (entry : Name) :
    PassM EntryOutcome := do
  if ¬ extTmp.isSuffixOf entry then return .kept
  else if tempIsStale c (← thisHandle).options.temporaryFileTtlNs place entry then do
    countOperation
    let removed ← onHandle (unlinkVerified dir entry)
    settleUnlink (fun s => { s with tempFilesDeleted := s.tempFilesDeleted + 1 }) "temp_delete"
      (tmpRoot :: place.names ++ [entry]) removed
  else return .kept

def cleanupHierarchy (c : PassContext) : Hierarchy :=
  ⟨.cleanupTemp, tmpRoot, cleanupVisit c, "temp_entry_name"⟩

def cleanupLevels : List Level :=
  [bootLevel "temp_boot_name" "temp_boot_open" "temp_shard_read" "temp_boot_remove",
   shardLevel "temp_shard_name" "temp_shard_open" "temp_entry_read" "temp_shard_remove"]

def cleanupTempFiles (c : PassContext) : PassM Unit := do
  match ← openPhase c (cleanupHierarchy c) "temp_root_open" "temp_boot_read" (return true) with
  | none => return ()
  | some (dir, names) => do
    let _ ← walkPhase c (cleanupHierarchy c) cleanupLevels dir names

/-! ## 5. Receipts -/

def receiptsRoot : Name := State.receipt.dirName

/-- `<before><32 hex digits>.tmp`. -/
def temporaryName (before : Bytes) (name : Name) : Bool :=
  match name.dropPrefix? before with
  | none => false
  | some rest =>
    match rest.dropSuffix? extTmp with
    | none => false
    | some digits => digits.length = 32 ∧
        digits.all fun b => (48 ≤ b ∧ b ≤ 57) ∨ (97 ≤ b ∧ b ≤ 102)

def compactionPrefix : Bytes := ascii ".compact-"
def compactionTemporaryName (name : Name) : Bool := temporaryName compactionPrefix name
def compactionTempName (random : Octets 16) : Name :=
  compactionPrefix ++ hexEncode random.1 ++ extTmp

/-- What fails verification as corrupt never passes it later; a failed read may. -/
def receiptQuarantineReason : VerificationError → Option QuarantineReason
  | .io _ => none
  | .corrupt _ => some .envelopeCorrupt
  | .payloadCorrupt => some .payloadCorrupt

/-- Open a receipt and lock it while `body` works on it. A missing file and a lock held by
    another skip it. -/
def withLockedReceipt (dir : Dir) (entry : Name) (operation : String) (path : Path)
    (body : Ino → PassM EntryOutcome) : PassM EntryOutcome := do
  match ← lookHandle (openAt dir entry) with
  | .error .enoent => return .kept
  | .error e => do
    recordError (operation ++ "_open") path e.text
    return .kept
  | .ok file =>
    match ← onHandle (tryOfdWriteLock (.file file)) with
    | .error e => do
      recordError (operation ++ "_lock") path e.text
      return .kept
    | .ok false => return .kept
    | .ok true => do
      let outcome ← body file
      let _ ← onHandle (ε := Empty) (unlockFile (.file file))
      return outcome

/-- What compaction and deletion share: an unparsed name is quarantined, the receipt is locked
    and verified, one that fails verification for good is quarantined. -/
def withVerifiedReceipt (c : PassContext) (operation : String) (place : Place) (dir : Dir)
    (entry : Name) (body : VerifiedReceipt → PassM EntryOutcome) : PassM EntryOutcome := do
  if ¬ extRct.isSuffixOf entry then return .kept
  else do
    let path := receiptsRoot :: place.names ++ [entry]
    match parseReceipt entry with
    | .error _ => do
      recordError (operation ++ "_parse") path "receipt filename does not parse"
      quarantineEntry c dir entry path .filenameParseFailed
    | .ok _ =>
      withLockedReceipt dir entry operation path fun file => do
        match ← lookHandle (verifyReceiptOnFd file ⟨place.name 0, place.name 1, entry⟩ none) with
        | .ok receipt => body receipt
        | .error e => do
          recordError (operation ++ "_invalid") path e.text
          match receiptQuarantineReason e with
          | none => return .kept
          | some reason => quarantineEntry c dir entry path reason

def cleanupCompactionTemp (dir : Dir) (name : Name) (path : Path) : PassM Unit := do
  match ← onHandle (unlinkVerified dir name) with
  | .ok () => return ()
  | .error .sourceMissing => return ()
  | .error failure => recordUnlinkFailure "receipt_compact_temp_cleanup" path failure

/-- The compact form of a full receipt. -/
def compactReceiptOf (name : ReceiptName) (header : FixedHeader) (bucketStart : UInt64) :
    CompactReceipt :=
  ⟨header.jobId, header.envelopeDigest, name.common.attempt, name.token, bucketStart,
    header.payloadLength⟩

def notCommittedDetail (phase : String) (e : IoError) : String :=
  "phase=" ++ phase ++ ": " ++ e.text

/-- Write the compact form under a temporary name in the same directory and rename it over the
    full receipt. -/
def replaceByCompact (dir : Dir) (entry : Name) (shardPath : Path) (identity : MoveIdentity)
    (bytes : Bytes) : PassM Unit := do
  let receiptPath := shardPath ++ [entry]
  countOperation
  match ← onHandle random128bit with
  | .error e =>
    recordError "receipt_compact_temp_name_not_committed" receiptPath
      (notCommittedDetail "TempName" e)
  | .ok random => do
    let tmpName := compactionTempName random
    let tempPath := shardPath ++ [tmpName]
    match ← onHandle (createExclusive dir tmpName) with
    | .error e =>
      recordError "receipt_compact_temp_create_not_committed" tempPath
        (notCommittedDetail "TempCreate" e)
    | .ok tmp =>
      match ← onHandle (writeAll tmp bytes) with
      | .error e => do
        recordError "receipt_compact_temp_write_not_committed" tempPath
          (notCommittedDetail "TempWrite" e)
        cleanupCompactionTemp dir tmpName tempPath
      | .ok () =>
        match ← onHandle (fsync tmp) with
        | .error e => do
          recordError "receipt_compact_temp_fsync_not_committed" tempPath
            (notCommittedDetail "TempFsync" e)
          cleanupCompactionTemp dir tmpName tempPath
        | .ok () =>
          match ← onHandle (replaceVerified dir tmpName entry (some identity)) with
          | .ok () => onStats fun s => { s with receiptsCompacted := s.receiptsCompacted + 1 }
          | .error failure => do
            recordReplaceFailure "receipt_compact_replace" receiptPath failure
            if ¬ failure.isOutcomeUnknown then cleanupCompactionTemp dir tmpName tempPath
            else return ()

def compactVisit (c : PassContext) (place : Place) (dir : Dir) (entry : Name) :
    PassM EntryOutcome := do
  let shardPath := receiptsRoot :: place.names
  if compactionTemporaryName entry then do
    countOperation
    match ← onHandle (unlinkVerified dir entry) with
    | .ok () => return .kept
    | .error failure => do
      recordUnlinkFailure "receipt_compact_stale_temp_cleanup" (shardPath ++ [entry]) failure
      return .kept
  else
    withVerifiedReceipt c "receipt_compact" place dir entry fun receipt => do
      match receipt.kind with
      | .compact => return .kept
      | .full job =>
        match checkedMulU64 receipt.bucketNumber (← thisHandle).format.terminalBucketWidthNs with
        | none => return .kept
        | some start => do
          replaceByCompact dir entry shardPath ⟨receipt.device, receipt.inode⟩
            (compactReceiptOf receipt.name job.header start).encode
          return .kept

def compactHierarchy (c : PassContext) : Hierarchy :=
  ⟨.compactReceipts, receiptsRoot, compactVisit c, "compact_entry_name"⟩

/-- Compaction removes no directory. -/
def compactLevels : List Level :=
  [⟨.bucket, true, "compact_bucket_name", "compact_bucket_open", "compact_shard_read", "", id,
     fun _ => return .enter false⟩,
   shardLevel "compact_shard_name" "compact_shard_open" "compact_entry_read" ""]

def compactReceiptsWithScanBudget (c : PassContext) : PassM Unit := do
  match ← openPhase c (compactHierarchy c) "compact_root_open" "compact_bucket_read"
      (return true) with
  | none => return ()
  | some (dir, names) => do
    let _ ← walkPhase c (compactHierarchy c) compactLevels dir names

def deleteVisit (c : PassContext) (place : Place) (dir : Dir) (entry : Name) :
    PassM EntryOutcome :=
  withVerifiedReceipt c "receipt_delete" place dir entry fun receipt => do
    let path := receiptsRoot :: place.names ++ [entry]
    match ← lookHandle (fstatat dir entry) with
    | .error _ => return .kept
    | .ok current =>
      if ¬ (current.dev = receipt.device ∧ current.ino = receipt.inode) then do
        recordError "receipt_delete_replaced" path "receipt pathname changed after verification"
        return .kept
      else do
        countOperation
        let removed ← onHandle (unlinkVerified dir entry)
        settleUnlink (fun s => { s with receiptsExpired := s.receiptsExpired + 1 })
          "receipt_delete" path removed

def deleteHierarchy (c : PassContext) : Hierarchy :=
  ⟨.deleteReceipts, receiptsRoot, deleteVisit c, "delete_entry_name"⟩

/-- `bucket_end + retention <= wall_floor`, without overflow. -/
def retentionIsOver (bucket width retentionNs wallNs : UInt64) : Bool :=
  match checkedMulU64 bucket width with
  | none => false
  | some start =>
    match checkedAddU64 start width with
    | none => false
    | some stop =>
      match checkedAddU64 stop retentionNs with
      | none => false
      | some threshold => threshold ≤ wallNs

def deleteLevels (wallNs retentionNs width : UInt64) : List Level :=
  [⟨.bucket, true, "delete_bucket_name", "delete_bucket_open", "delete_shard_read",
     "receipt_bucket_remove", countBucket, fun place =>
       if retentionIsOver place.bucket width retentionNs wallNs then return .enter true
       else return .skip⟩,
   shardLevel "delete_shard_name" "delete_shard_open" "delete_entry_read" "receipt_shard_remove"]

def deleteExpiredReceipts (c : PassContext) (wallFloor : WallFloor) (retentionNs : UInt64) :
    PassM Unit := do
  match ← openPhase c (deleteHierarchy c) "delete_root_open" "delete_bucket_read"
      (return true) with
  | none => return ()
  | some (dir, names) => do
    let width := (← thisHandle).format.terminalBucketWidthNs
    let _ ← walkPhase c (deleteHierarchy c) (deleteLevels wallFloor.unixNs retentionNs width)
      dir names

end SteadQ
