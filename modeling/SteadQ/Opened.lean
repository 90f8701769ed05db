/-
  File:      SteadQ/Opened.lean
  Subject:   WHAT A HANDLE WAS OPENED WITH STAYS: its format, its boot id and its options; and
             the recovery cursor is moved by recovery only.

  The code of an operation writes to its handle in a few places only (poison, caches, the dirty
  set, the scan round). Every function of the claims and the transitions is run through once;
  the rules are those of `Task.Fixes`.
-/
import SteadQ.Queue.Consumer

namespace SteadQ

open Octet Interact
open Interact.Task (fixes_call fixes_memory fixes_ofExcept fixes_ofOption fixes_pure fixes_remember
  fixes_throw)

/-- What `open` has put into the handle for good, and the recovery cursor. -/
def Handle.opened (h : Handle) :
    FormatRecord × Bytes × Octets 16 × OpenOptions × RecoveryCursor :=
  (h.format, h.bootId, h.bootIdBytes, h.options, h.recoveryCursor)

section Fixes

variable {ε ε' α : Type}

/-! ## 1. Looks, and the places where the handle is written -/

@[grind ←] theorem looking_fixes (m : LookM ε α) : (looking m).Fixes Handle.opened :=
  Task.fixes_peek

@[grind ←] theorem liftLook_fixes (m : LookM ε α) : (liftM m : QueueM ε α).Fixes Handle.opened :=
  looking_fixes m

@[grind ←] theorem attemptLook_fixes (m : LookM ε' α) :
    (attemptLook m : QueueM ε (Except ε' α)).Fixes Handle.opened := (looking_fixes m).attempt

@[grind ←] theorem poison_fixes (reason : PoisonReason) :
    (poison reason : QueueM ε Unit).Fixes Handle.opened := fixes_remember fun _ => rfl

/-! The evidence of a claim is read behind the rename as well, in front of a ticket. -/

@[grind ←] theorem preadExact_fixes (file : Ino) (offset length : Nat) :
    (preadExact file offset length).Fixes Handle.opened := fixes_call _ _

@[grind ←] theorem fstat_fixes (file : Ino) : (fstat file).Fixes Handle.opened :=
  fixes_call _ _

@[grind ←] theorem readAndVerifyHeader_fixes (file : Ino) :
    (readAndVerifyHeader file).Fixes Handle.opened := by
  refine .bind (preadExact_fixes _ _ _).mapErr fun buf => ?_
  refine .bind (fixes_ofExcept _) fun header => ?_
  split
  · exact fixes_throw _
  · exact fixes_pure _

@[grind ←] theorem verifySize_fixes (file : Ino) (header : FixedHeader) (extLen : Nat) :
    (verifySize file header extLen).Fixes Handle.opened := by
  refine .bind (fstat_fixes _).mapErr fun stat => ?_
  refine .bind (fixes_ofExcept _) fun expected => ?_
  split
  · exact fixes_throw _
  · exact fixes_pure _

@[grind ←] theorem readExtension_fixes (file : Ino) (extLen : Nat) :
    (readExtension file extLen).Fixes Handle.opened := by
  unfold readExtension
  split
  · exact (preadExact_fixes _ _ _).mapErr
  · exact fixes_pure _

theorem verifyEnvelopeOnFd_fixes (file : Ino) :
    (verifyEnvelopeOnFd file).Fixes Handle.opened := by
  refine .bind (readAndVerifyHeader_fixes _) fun header => ?_
  refine .bind (verifySize_fixes _ _ _) fun stat => ?_
  refine .bind (readExtension_fixes _ _) fun ext => ?_
  split
  · exact fixes_throw _
  · exact fixes_pure _

@[grind ←] theorem readClaimTicketEvidence_fixes (file : Ino) (jobId : Octets 16)
    (maximumAttempts : UInt32) :
    (readClaimTicketEvidence file jobId maximumAttempts).Fixes Handle.opened := by
  refine .bind (verifyEnvelopeOnFd_fixes _).mapErr fun verified => ?_
  split
  · exact fixes_throw _
  · split
    · exact fixes_throw _
    · exact fixes_pure _

/-! Single calls. -/

@[grind ←] theorem random128bit_fixes : random128bit.Fixes Handle.opened :=
  fixes_call _ _

@[grind ←] theorem tryOfdWriteLock_fixes (lock : LockFile) :
    (tryOfdWriteLock lock).Fixes Handle.opened := fixes_call _ _

@[grind ←] theorem mkdiratEexistOk_fixes (dir : Dir) (name : Name) :
    (mkdiratEexistOk dir name).Fixes Handle.opened := fixes_call _ _

@[grind ←] theorem unlinkat_fixes (dir : Dir) (name : Name) :
    (unlinkat dir name).Fixes Handle.opened := fixes_call _ _

@[grind ←] theorem createExclusive_fixes (dir : Dir) (name : Name) :
    (createExclusive dir name).Fixes Handle.opened := fixes_call _ _

@[grind ←] theorem writeAll_fixes (file : Ino) (data : Bytes) :
    (writeAll file data).Fixes Handle.opened := fixes_call _ _

@[grind ←] theorem fsync_fixes (file : Ino) : (fsync file).Fixes Handle.opened :=
  fixes_call _ _

@[grind ←] theorem fsyncDirFd_fixes (dir : Dir) : (fsyncDirFd dir).Fixes Handle.opened :=
  fixes_call _ _

@[grind ←] theorem renameat2Noreplace_fixes (src : Dir) (srcName : Name) (dst : Dir)
    (dstName : Name) : (renameat2Noreplace src srcName dst dstName).Fixes Handle.opened :=
  fixes_call _ _

@[grind ←] theorem renameat_fixes (src : Dir) (srcName : Name) (dst : Dir) (dstName : Name) :
    (renameat src srcName dst dstName).Fixes Handle.opened := fixes_call _ _

@[grind ←] theorem unlockFile_fixes (lock : LockFile) :
    (unlockFile lock : QueueM ε Unit).Fixes Handle.opened := fixes_call _ _

@[grind ←] theorem mark_fixes (m : Mark) : (mark m : QueueM ε Unit).Fixes Handle.opened :=
  fixes_call _ _

/-! Writes to the handle. -/

@[grind ←] theorem recordDirty_fixes (dir : Dir) : (recordDirty dir).Fixes Handle.opened := by
  refine .bind fixes_memory fun h => .bind (liftLook_fixes _) fun dirty => ?_
  exact fixes_remember fun _ => rfl

theorem recordBoth_fixes (dir dir' : Dir) :
    (do recordDirty dir; recordDirty dir' : QueueM IoError Unit).Fixes Handle.opened :=
  .bind (recordDirty_fixes dir) fun _ => recordDirty_fixes dir'

@[grind ←] theorem syncParentOf_fixes (deferred : Bool) (parent : Dir) (children : List Path) :
    (syncParentOf deferred parent children).Fixes Handle.opened := by
  unfold syncParentOf
  split
  · exact .bind (recordDirty_fixes _) fun _ => fixes_remember fun _ => rfl
  · exact .bind (fsyncDirFd_fixes _) fun _ => fixes_remember fun _ => rfl

/-! ## 2. Directories on demand -/

@[grind ←] theorem ensureComponents_fixes (deferred : Bool) (parent : Dir) (names : List Name) :
    (ensureComponents deferred parent names).Fixes Handle.opened := by
  induction names generalizing parent with
  | nil => exact fixes_pure _
  | cons comp rest ih =>
    refine .bind (liftLook_fixes _) fun known => ?_
    split
    · exact .bind (liftLook_fixes _) fun child => ih child
    · refine .bind (mkdiratEexistOk_fixes _ _) fun _ => .bind (liftLook_fixes _) fun child => ?_
      exact .bind (syncParentOf_fixes _ _ _) fun _ => ih child

@[grind ←] theorem mkdirAll_fixes (dir : Dir) (names : List Name) :
    (mkdirAll dir names).Fixes Handle.opened := by
  induction names with
  | nil => exact fixes_pure _
  | cons name rest ih =>
    exact .bind (mkdiratEexistOk_fixes _ _) fun _ => ih

@[grind ←] theorem ensureDirUpTo_fixes (deferred : Bool) (depth : Nat) (relative : Path) :
    (ensureDirUpTo deferred depth relative).Fixes Handle.opened := by
  induction depth generalizing relative with
  | zero => exact fixes_pure _
  | succ depth ih =>
    refine .bind (liftLook_fixes _) fun known => ?_
    split
    · exact fixes_pure _
    · refine .bind fixes_memory fun h => ?_
      dsimp only
      split
      · refine .bind (ih _) fun _ => .bind (liftLook_fixes _) fun bucketDir => ?_
        exact .bind (mkdirAll_fixes _ _) fun _ => syncParentOf_fixes _ _ _
      · exact ensureComponents_fixes _ _ _

@[grind ←] theorem ensureDirWithDirty_fixes (deferred : Bool) (relative : Path) :
    (ensureDirWithDirty deferred relative).Fixes Handle.opened := ensureDirUpTo_fixes _ _ _

@[grind ←] theorem ensureDir_fixes (relative : Path) : (ensureDir relative).Fixes Handle.opened :=
  ensureDirUpTo_fixes _ _ _

@[grind ←] theorem ensureAndOpen_fixes (deferred : Bool) (dir : Path) :
    (ensureAndOpen deferred dir).Fixes Handle.opened := by
  exact .bind (ensureDirWithDirty_fixes _ _).mapErr fun _ => (liftLook_fixes _).mapErr

/-! ## 3. The wall floor -/

@[grind ←] theorem reopenWallWatermark_fixes (control : Dir) :
    (reopenWallWatermark control).Fixes Handle.opened := by
  refine .bind (.mapErr (liftLook_fixes _)) fun data => .bind (liftLook_fixes _) fun found => ?_
  split
  · exact .bind (fixes_remember fun _ => rfl) fun _ => fixes_pure _
  · exact fixes_pure _

@[grind ←] theorem readWallWatermarkOnce_fixes (control : Dir) :
    (readWallWatermarkOnce control).Fixes Handle.opened := by
  refine .bind fixes_memory fun h => ?_
  split
  · exact reopenWallWatermark_fixes control
  · refine .bind (liftLook_fixes _) fun found => ?_
    split
    · exact fixes_pure _
    · refine .bind (fixes_remember fun _ => rfl) fun _ => ?_
      exact reopenWallWatermark_fixes control

@[grind ←] theorem readWallWatermarkRounds_fixes (control : Dir) (attempts : Nat) :
    (readWallWatermarkRounds control attempts).Fixes Handle.opened := by
  induction attempts with
  | zero => exact fixes_pure _
  | succ attempts ih =>
    refine .bind (readWallWatermarkOnce_fixes control) fun read => ?_
    split
    · exact fixes_pure _
    · exact ih

@[grind ←] theorem tryReadWallWatermark_fixes (attempts : Nat) :
    (tryReadWallWatermark attempts).Fixes Handle.opened := by
  exact .bind (.mapErr (liftLook_fixes _)) fun control => readWallWatermarkRounds_fixes control _

@[grind ←] theorem authenticatedWallFloorWithAttempts_fixes (attempts : Nat) :
    (authenticatedWallFloorWithAttempts attempts).Fixes Handle.opened := by
  refine .bind (tryReadWallWatermark_fixes attempts).mapErr fun read => ?_
  refine .bind (fixes_ofOption _ _) fun watermark => ?_
  refine .bind (.mapErr (liftLook_fixes _)) fun clock => .bind fixes_memory fun h => ?_
  exact .bind (fixes_ofOption _ _) fun unixNs => fixes_pure _

@[grind ←] theorem readWallWatermark_fixes : readWallWatermark.Fixes Handle.opened :=
  .bind (tryReadWallWatermark_fixes _) fun _ => fixes_ofOption _ _

@[grind ←] theorem withWallWatermarkWriteLock_fixes {action : Dir → QueueM Error α}
    (h : ∀ control, (action control).Fixes Handle.opened) :
    (withWallWatermarkWriteLock action).Fixes Handle.opened := by
  refine .bind (.mapErr (liftLook_fixes _)) fun control => ?_
  refine .bind (tryOfdWriteLock_fixes _).mapErr fun locked => ?_
  split
  · exact fixes_throw _
  · refine .bind (h control).attempt fun result => ?_
    exact .bind (unlockFile_fixes _) fun _ => fixes_ofExcept _

@[grind ←] theorem replaceWallWatermark_fixes (control : Dir) (record : WatermarkRecord) :
    (replaceWallWatermark control record).Fixes Handle.opened := by
  refine .bind (.mapErr random128bit_fixes) fun random => ?_
  refine .bind (.mapErr (createExclusive_fixes _ _)) fun tmp => .bind (.attempt ?_) fun written => ?_
  · exact .bind (writeAll_fixes _ _) fun _ => .bind (fsync_fixes _) fun _ => renameat_fixes _ _ _ _
  · split
    · exact .bind (.attempt (unlinkat_fixes _ _)) fun _ => fixes_throw _
    · exact (fsyncDirFd_fixes _).mapErr

@[grind ←] theorem advanceWallWatermarkLocked_fixes (observed : WallFloor) (control : Dir) :
    (advanceWallWatermarkLocked observed control).Fixes Handle.opened := by
  refine .bind fixes_memory fun h => .bind (fixes_ofOption _ _) fun observedBucket => ?_
  refine .bind readWallWatermark_fixes.mapErr fun wm => ?_
  split
  · exact .bind (fixes_ofOption _ _) fun _ => fixes_pure _
  · refine .bind (fixes_ofOption _ _) fun newSeq => ?_
    exact .bind (replaceWallWatermark_fixes _ _) fun _ => fixes_pure _

@[grind ←] theorem stabilizedWallFloor_fixes : stabilizedWallFloor.Fixes Handle.opened := by
  refine withWallWatermarkWriteLock_fixes fun control => ?_
  refine .bind (authenticatedWallFloorWithAttempts_fixes _) fun observed => ?_
  refine .bind fixes_memory fun h => .bind (fixes_ofOption _ _) fun observedBucket => ?_
  split
  · exact fixes_pure _
  · exact advanceWallWatermarkLocked_fixes observed control

@[grind ←] theorem watermarkAuthority_fixes {m : QueueM Error α} (hm : m.Fixes Handle.opened) :
    (watermarkAuthority m).Fixes Handle.opened := by
  refine .bind hm.attempt fun r => ?_
  split
  · exact fixes_pure _
  · split
    · exact fixes_throw _
    · exact .bind (poison_fixes _) fun _ => fixes_throw _

@[grind ←] theorem stabilizeAndCache_fixes : stabilizeAndCache.Fixes Handle.opened := by
  refine .bind (watermarkAuthority_fixes stabilizedWallFloor_fixes) fun floor => ?_
  exact .bind (fixes_remember fun _ => rfl) fun _ => fixes_pure _

@[grind ←] theorem cachedFloor_fixes (cached : WallFloor) (attempts : Nat) :
    (cachedFloor cached attempts).Fixes Handle.opened := by
  refine .bind (watermarkAuthority_fixes (authenticatedWallFloorWithAttempts_fixes attempts)) ?_
  intro authenticated
  refine .bind fixes_memory fun h => .bind (fixes_ofOption _ _) fun observedBucket => ?_
  split
  · exact .bind (fixes_remember fun _ => rfl) fun _ => fixes_pure _
  · exact fixes_pure _

@[grind ←] theorem wallFloorForMutationWithAttempts_fixes (attempts : Nat) :
    (wallFloorForMutationWithAttempts attempts).Fixes Handle.opened := by
  refine .bind fixes_memory fun h => ?_
  split
  · exact stabilizeAndCache_fixes
  · refine .bind (cachedFloor_fixes _ attempts) fun found => ?_
    split
    · exact fixes_pure _
    · exact stabilizeAndCache_fixes

@[grind ←] theorem wallFloorForMutation_fixes : wallFloorForMutation.Fixes Handle.opened := by
  refine .bind (mark_fixes _) fun _ => ?_
  refine .bind (wallFloorForMutationWithAttempts_fixes _).attempt fun r => ?_
  split
  · exact .bind (mark_fixes _) fun _ => fixes_pure _
  · exact .bind (mark_fixes _) fun _ => fixes_throw _

/-! ## 4. Moves -/

@[grind ←] theorem renameClassified_fixes (src : Dir) (srcName : Name) (dst : Dir)
    (dstName : Name) : (renameClassified src srcName dst dstName).Fixes Handle.opened :=
  (renameat2Noreplace_fixes src srcName dst dstName).mapErr

@[grind ←] theorem moveBarrier_fixes (phase : MovePhase) (dir : Dir) :
    (moveBarrier phase dir).Fixes Handle.opened := (fsyncDirFd_fixes dir).mapErr

@[grind ←] theorem moveVerifiedNoreplace_fixes (src : Dir) (srcName : Name) (dst : Dir)
    (dstName : Name) : (moveVerifiedNoreplace src srcName dst dstName).Fixes Handle.opened :=
  .bind (renameClassified_fixes src srcName dst dstName) fun _ =>
    .bind (moveBarrier_fixes _ dst) fun _ => moveBarrier_fixes _ src

@[grind ←] theorem confirmMove_fixes (deferred : Bool) (src dst : Dir) (dstName : Name)
    (identity : MoveIdentity) (after : LookM IoError α) :
    (confirmMove deferred src dst dstName identity after).Fixes Handle.opened := by
  refine .bind (.mapErr (liftLook_fixes _)) fun stat => ?_
  split
  · exact fixes_throw _
  · refine .bind (.mapErr (liftLook_fixes _)) fun output => ?_
    split
    · refine .bind (moveBarrier_fixes _ _) fun _ => .bind (liftLook_fixes _) fun same => ?_
      split
      · exact .bind (moveBarrier_fixes _ _) fun _ => fixes_pure _
      · exact fixes_pure _
    · exact fixes_pure _

@[grind ←] theorem moveWitnessed_fixes (deferred : Bool) (src : Dir) (srcName : Name) (dst : Dir)
    (dstName : Name) (identity : MoveIdentity) (after : LookM IoError α) :
    (moveWitnessed deferred src srcName dst dstName identity after).Fixes Handle.opened :=
  .bind (renameClassified_fixes src srcName dst dstName) fun _ => confirmMove_fixes _ _ _ _ _ _

/-! ## 5. Quarantine -/

@[grind ←] theorem quarantineAttempts_fixes (src : Dir) (filename : Name)
    (reason : QuarantineReason) (quarantine : Dir) (limit left : Nat) :
    (quarantineAttempts src filename reason quarantine limit left).Fixes Handle.opened := by
  induction left with
  | zero => exact fixes_throw _
  | succ left ih =>
    refine .bind random128bit_fixes.mapErr fun id => ?_
    refine .bind (moveVerifiedNoreplace_fixes _ _ _ _).attempt fun r => ?_
    split
    · exact fixes_pure _
    · split
      · split
        · exact fixes_throw _
        · exact fixes_throw _
      · exact ih
    · exact fixes_throw _

theorem publishQuarantineObjectWithIds_fixes (src : Dir) (filename : Name)
    (reason : QuarantineReason) (attempts : Nat) :
    (publishQuarantineObjectWithIds src filename reason attempts).Fixes Handle.opened := by
  unfold publishQuarantineObjectWithIds
  dsimp only
  split
  · exact fixes_throw _
  · refine .bind (ensureDir_fixes _).mapErr fun _ => ?_
    exact .bind (.mapErr (liftLook_fixes _)) fun quarantine => quarantineAttempts_fixes _ _ _ _ _ _

@[grind ←] theorem publishQuarantineObject_fixes (src : Dir) (filename : Name)
    (reason : QuarantineReason) :
    (publishQuarantineObject src filename reason).Fixes Handle.opened :=
  publishQuarantineObjectWithIds_fixes src filename reason _

@[grind ←] theorem quarantineCorruptLease_fixes (leasedDir : Dir) (leasedName : Name)
    (held : Ino) : (quarantineCorruptLease leasedDir leasedName held).Fixes Handle.opened := by
  refine .bind (.mapErr (liftLook_fixes _)) fun heldStat => ?_
  refine .bind (.mapErr (liftLook_fixes _)) fun nameStat => ?_
  split
  · exact fixes_throw _
  · refine .bind random128bit_fixes.mapErr fun id => .bind (ensureDir_fixes _).mapErr fun _ => ?_
    refine .bind (.mapErr (liftLook_fixes _)) fun quarantine => ?_
    exact .bind (moveWitnessed_fixes _ _ _ _ _ _ _) fun _ => fixes_pure _

/-! ## 6. Leases -/

@[grind ←] theorem moveToDead_fixes (readyDir : Path) (readyName : Name) (common : CommonFields)
    (reason : DeadReason) (floor : WallFloor) :
    (moveToDead readyDir readyName common reason floor).Fixes Handle.opened := by
  refine .bind fixes_memory fun h => .bind (fixes_ofOption _ _) fun bucket => ?_
  refine .bind (fixes_ofExcept _) fun deadCommon => .bind (.mapErr (ensureDir_fixes _)) ?_
  intro _
  refine .bind (.mapErr (liftLook_fixes _)) fun deadDir => ?_
  refine .bind (.mapErr (liftLook_fixes _)) fun sourceDir => ?_
  refine .bind (moveVerifiedNoreplace_fixes _ _ _ _).attempt fun r => ?_
  split
  · exact fixes_pure _
  · exact fixes_pure _
  · exact fixes_throw _

@[grind ←] theorem buryExhausted_fixes (readyDir : Path) (entry : Name) (common : CommonFields)
    (floor : WallFloor) : (buryExhausted readyDir entry common floor).Fixes Handle.opened := by
  refine .bind (moveToDead_fixes _ _ _ _ _).attempt fun r => ?_
  split
  · exact fixes_pure _
  · exact fixes_throw _
  · exact fixes_pure _
  · exact .bind (poison_fixes _) fun _ => fixes_throw _
  · exact fixes_throw _
  · exact .bind (poison_fixes _) fun _ => fixes_throw _

@[grind ←] theorem quarantineCorruptReady_fixes (shardDir : Dir) (entry : Name) :
    (quarantineCorruptReady shardDir entry).Fixes Handle.opened := by
  refine .bind (attemptLook_fixes _) fun found => ?_
  refine .bind (publishQuarantineObject_fixes _ _ _).attempt fun r => ?_
  split
  · exact fixes_throw _
  · exact fixes_throw _
  · exact .bind (poison_fixes _) fun _ => fixes_throw _
  · exact fixes_throw _

@[grind ←] theorem claimSource_fixes (shardDir : Dir) (entry : Name) (common : CommonFields) :
    (claimSource shardDir entry common).Fixes Handle.opened := by
  refine .bind (attemptLook_fixes _) fun found => ?_
  split
  · exact fixes_pure _
  · exact fixes_throw _
  · exact fixes_throw _
  · exact .bind (quarantineCorruptReady_fixes _ _) fun _ => fixes_throw _
  · exact fixes_throw _

@[grind ←] theorem claimDirectory_fixes (deferred : Bool) (target : Target) :
    (claimDirectory deferred target).Fixes Handle.opened := by
  refine .bind (ensureDirWithDirty_fixes _ _).attempt fun made => ?_
  split
  · split
    · exact fixes_throw _
    · exact fixes_throw _
  · refine .bind (attemptLook_fixes _) fun opened => ?_
    split
    · exact fixes_pure _
    · exact fixes_throw _
    · exact fixes_throw _

@[grind ←] theorem stopUnknown_fixes (ticket : TransitionTicket) (phase : TransitionPhase) :
    (stopUnknown ticket phase : QueueM ScanAbort α).Fixes Handle.opened := by
  exact .bind (poison_fixes _) fun _ => fixes_throw _

@[grind ←] theorem withdrawCorruptClaim_fixes (ticket : TransitionTicket) (leasedDir : Dir)
    (target : Target) (file : Ino) :
    (withdrawCorruptClaim ticket leasedDir target file : QueueM ScanAbort α).Fixes
      Handle.opened := by
  refine .bind (quarantineCorruptLease_fixes _ _ _).attempt fun r => ?_
  split
  · exact fixes_throw _
  · exact stopUnknown_fixes _ _

@[grind ←] theorem deliverClaim_fixes (ticket : TransitionTicket) (leasedDir : Dir)
    (target : Target) (file : Ino) (moved : MovedObject) (source leased : CommonFields)
    (token : Octets 16) (boottimeDeadline wallDeadline : UInt64) :
    (deliverClaim ticket leasedDir target file moved source leased token boottimeDeadline
      wallDeadline).Fixes Handle.opened := by
  refine .bind (liftLook_fixes _) fun found => ?_
  split
  · exact stopUnknown_fixes _ _
  · refine .bind (attemptLook_fixes _) fun r => ?_
    split
    · exact withdrawCorruptClaim_fixes _ _ _ _
    · exact stopUnknown_fixes _ _
    · exact .bind fixes_memory fun h => fixes_pure _

@[grind ←] theorem claimCandidate_fixes (deferred : Bool) (durationNs : UInt64) (shardDir : Dir)
    (entry : Name) (common : CommonFields) (boottime : UInt64) (floor : WallFloor) :
    (claimCandidate deferred durationNs shardDir entry common boottime floor).Fixes
      Handle.opened := by
  refine .bind (.mapErr random128bit_fixes) fun token => ?_
  refine .bind (fixes_ofOption _ _) fun boottimeDeadline => ?_
  refine .bind (fixes_ofOption _ _) fun wallDeadline => ?_
  refine .bind (fixes_ofExcept _) fun leased => .bind fixes_memory fun h => ?_
  refine .bind (fixes_ofExcept _) fun target => .bind (claimDirectory_fixes _ _) ?_
  intro leasedDir
  refine .bind (claimSource_fixes _ _ _) fun source => .bind (.mapErr (liftLook_fixes _)) ?_
  intro ticket
  refine .bind (liftLook_fixes _) fun _ => .bind (.attempt (moveWitnessed_fixes _ _ _ _ _ _ _)) ?_
  intro moved
  split
  · exact fixes_throw _
  · exact fixes_throw _
  · exact stopUnknown_fixes _ _
  · split
    · exact fixes_throw _
    · exact fixes_throw _
  · have hboth := recordBoth_fixes shardDir leasedDir
    split
    · refine .bind (.attempt hboth) fun r => ?_
      split
      · exact deliverClaim_fixes _ _ _ _ _ _ _ _ _ _
      · exact .bind (stopUnknown_fixes _ _) fun _ => deliverClaim_fixes _ _ _ _ _ _ _ _ _ _
    · exact deliverClaim_fixes _ _ _ _ _ _ _ _ _ _

@[grind ←] theorem scanFloor_fixes (state : ScanState) : (scanFloor state).Fixes Handle.opened := by
  unfold scanFloor
  split
  · exact fixes_pure _
  · exact .bind wallFloorForMutation_fixes fun _ => fixes_pure _

@[grind ←] theorem scanExhausted_fixes (readyDir : Path) (entry : Name) (common : CommonFields)
    (state : ScanState) : (scanExhausted readyDir entry common state).Fixes Handle.opened := by
  refine .bind (scanFloor_fixes state).attempt fun r => ?_
  split
  · exact fixes_pure _
  · refine .bind (buryExhausted_fixes _ _ _ _).attempt fun buried => ?_
    split
    · exact fixes_pure _
    · exact fixes_pure _

@[grind ←] theorem scanClaim_fixes (deferred : Bool) (durationNs : UInt64) (shardDir : Dir)
    (entry : Name) (common : CommonFields) (state : ScanState) :
    (scanClaim deferred durationNs shardDir entry common state).Fixes Handle.opened := by
  refine .bind (attemptLook_fixes _) fun r => ?_
  split
  · exact fixes_pure _
  · refine .bind (scanFloor_fixes state).attempt fun x => ?_
    split
    · exact fixes_pure _
    · refine .bind (claimCandidate_fixes _ _ _ _ _ _ _).attempt fun y => ?_
      split
      · exact fixes_pure _
      · exact fixes_pure _

theorem scanEntry_fixes (deferred : Bool) (durationNs : UInt64) (shard : UInt32) (shardDir : Dir)
    (entry : Name) (state : ScanState) :
    (scanEntry deferred durationNs shard shardDir entry state).Fixes Handle.opened := by
  refine .bind fixes_memory fun h => ?_
  split
  · exact fixes_pure _
  · exact fixes_pure _
  · split
    · exact scanExhausted_fixes _ _ _ _
    · exact scanClaim_fixes _ _ _ _ _ _

theorem scanEntries_fixes (deferred : Bool) (durationNs : UInt64) (shard : UInt32) (shardDir : Dir)
    (entries position : Nat) (state : ScanState) :
    (scanEntries deferred durationNs shard shardDir entries position state).Fixes
      Handle.opened := by
  induction entries generalizing position state with
  | zero => exact fixes_pure _
  | succ entries ih =>
    refine .bind (attemptLook_fixes _) fun r => ?_
    split
    · exact fixes_pure _
    · exact fixes_pure _
    · refine .bind (scanEntry_fixes _ _ _ _ _ _) fun step => ?_
      split
      · exact fixes_pure _
      · exact ih _ _

theorem scanShard_fixes (deferred : Bool) (durationNs : UInt64) (entries : Nat) (shard : UInt32)
    (state : ScanState) : (scanShard deferred durationNs entries shard state).Fixes
      Handle.opened := by
  refine .bind (attemptLook_fixes _) fun r => ?_
  split
  · exact fixes_pure _
  · exact scanEntries_fixes _ _ _ _ _ _ _

theorem scanShards_fixes (deferred : Bool) (durationNs : UInt64) (entries : Nat)
    (shards : List UInt32) (state : ScanState) :
    (scanShards deferred durationNs entries shards state).Fixes Handle.opened := by
  induction shards generalizing state with
  | nil =>
    unfold scanShards
    split
    · exact fixes_pure _
    · exact fixes_pure _
  | cons shard rest ih =>
    refine .bind (scanShard_fixes _ _ _ _ _) fun step => ?_
    split
    · exact fixes_pure _
    · exact ih _

theorem leaseOnceWithDirty_fixes (deferred : Bool) (durationNs : UInt64) (entries : Nat) :
    (leaseOnceWithDirty deferred durationNs entries).Fixes Handle.opened := by
  refine .bind (attemptLook_fixes _) fun r => ?_
  split
  · exact fixes_pure _
  · split
    · exact fixes_pure _
    · exact .bind fixes_memory fun h => .bind (fixes_remember fun _ => rfl) fun _ =>
        scanShards_fixes _ _ _ _ _

end Fixes

end SteadQ
