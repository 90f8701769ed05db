/-
  File:      SteadQ/Recovery/Control.lean
  Subject:   CALLS THAT TOUCH NO OBJECT OF THE QUEUE.

  Of the code a recovery pass runs, the floor of wall time, the cursor file, the lock and the
  creation of directories rename and remove nothing outside `control` (`Act.isFree`); the creation
  of directories touches no file at all (`Act.isCalm`).
-/
import SteadQ.Lib.Invariant
import SteadQ.Recovery.Pass

namespace SteadQ

open Octet Interact
open Interact.Task (asks_call asks_pure asks_throw)

/-- Of the renames and removals only those inside `control`. -/
def Act.isFree : Act → Prop
  | .renameNoreplace .. => False
  | .unlinkatDir .. => False
  | .renameat src _ _ _ => src.path = controlPath
  | .unlinkat dir _ => dir.path = controlPath
  | _ => True

/-- Neither a file changes nor the name of one. -/
def Act.isCalm : Act → Prop
  | .look _ => True
  | .random128 => True
  | .tryLock _ => True
  | .unlock _ => True
  | .mkdirat .. => True
  | .fsync _ => True
  | .fsyncDir _ => True
  | .mark _ => True
  | _ => False

theorem Act.isCalm.free {a : Act} (h : a.isCalm) : a.isFree := by
  cases a <;> first | exact trivial | exact h.elim

section Free

variable {ε ε' α : Type}

@[grind ←] theorem looking_free (m : LookM ε α) : (looking m).Asks Act.isFree :=
  Task.asks_peek fun _ => trivial

@[grind ←] theorem liftLook_free (m : LookM ε α) : (liftM m : QueueM ε α).Asks Act.isFree :=
  looking_free m

@[grind ←] theorem attemptLook_free (m : LookM ε' α) :
    (attemptLook m : QueueM ε (Except ε' α)).Asks Act.isFree := (looking_free m).attempt

@[grind ←] theorem random128bit_free : random128bit.Asks Act.isFree := asks_call trivial

@[grind ←] theorem tryOfdWriteLock_free (lock : LockFile) :
    (tryOfdWriteLock lock).Asks Act.isFree := asks_call trivial

@[grind ←] theorem unlockFile_free (lock : LockFile) :
    (unlockFile lock : QueueM ε Unit).Asks Act.isFree := asks_call trivial

@[grind ←] theorem createExclusive_free (dir : Dir) (name : Name) :
    (createExclusive dir name).Asks Act.isFree := asks_call trivial

@[grind ←] theorem writeAll_free (file : Ino) (data : Bytes) :
    (writeAll file data).Asks Act.isFree := asks_call trivial

@[grind ←] theorem fsync_free (file : Ino) : (fsync file).Asks Act.isFree := asks_call trivial

@[grind ←] theorem fsyncDirFd_free (dir : Dir) : (fsyncDirFd dir).Asks Act.isFree :=
  asks_call trivial

@[grind ←] theorem mark_free (m : Mark) : (mark m : QueueM ε Unit).Asks Act.isFree :=
  asks_call trivial

/-! Directories on demand. -/

@[grind ←] theorem looking_calm (m : LookM ε α) : (looking m).Asks Act.isCalm :=
  Task.asks_peek fun _ => trivial

@[grind ←] theorem liftLook_calm (m : LookM ε α) : (liftM m : QueueM ε α).Asks Act.isCalm :=
  looking_calm m

@[grind ←] theorem random128bit_calm : random128bit.Asks Act.isCalm := asks_call trivial

@[grind ←] theorem mkdiratEexistOk_calm (dir : Dir) (name : Name) :
    (mkdiratEexistOk dir name).Asks Act.isCalm := asks_call trivial

@[grind ←] theorem fsyncDirFd_calm (dir : Dir) : (fsyncDirFd dir).Asks Act.isCalm :=
  asks_call trivial

@[grind ←] theorem recordDirty_calm (dir : Dir) : (recordDirty dir).Asks Act.isCalm := by
  unfold recordDirty
  grind

@[grind ←] theorem syncParentOf_calm (deferred : Bool) (parent : Dir) (children : List Path) :
    (syncParentOf deferred parent children).Asks Act.isCalm := by
  unfold syncParentOf
  grind

@[grind ←] theorem ensureComponents_calm (deferred : Bool) (parent : Dir) (names : List Name) :
    (ensureComponents deferred parent names).Asks Act.isCalm := by
  induction names generalizing parent with
  | nil => exact asks_pure _
  | cons comp rest ih =>
    unfold ensureComponents
    grind

@[grind ←] theorem mkdirAll_calm (dir : Dir) (names : List Name) :
    (mkdirAll dir names).Asks Act.isCalm := by
  induction names with
  | nil => exact asks_pure _
  | cons name rest ih =>
    unfold mkdirAll
    grind

theorem ensureDirUpTo_calm (deferred : Bool) (depth : Nat) (relative : Path) :
    (ensureDirUpTo deferred depth relative).Asks Act.isCalm := by
  induction depth generalizing relative with
  | zero => exact asks_pure _
  | succ depth ih =>
    unfold ensureDirUpTo
    grind

@[grind ←] theorem ensureDir_calm (relative : Path) : (ensureDir relative).Asks Act.isCalm :=
  ensureDirUpTo_calm false relative.length relative

@[grind ←] theorem ensureDir_free (relative : Path) : (ensureDir relative).Asks Act.isFree :=
  (ensureDir_calm relative).mono fun _ => Act.isCalm.free

/-! The floor of wall time. -/

@[grind ←] theorem reopenWallWatermark_free (control : Dir) :
    (reopenWallWatermark control).Asks Act.isFree := by
  unfold reopenWallWatermark
  grind

@[grind ←] theorem readWallWatermarkOnce_free (control : Dir) :
    (readWallWatermarkOnce control).Asks Act.isFree := by
  unfold readWallWatermarkOnce
  grind

@[grind ←] theorem readWallWatermarkRounds_free (control : Dir) (attempts : Nat) :
    (readWallWatermarkRounds control attempts).Asks Act.isFree := by
  induction attempts with
  | zero => exact asks_pure _
  | succ attempts ih =>
    unfold readWallWatermarkRounds
    grind

@[grind ←] theorem tryReadWallWatermark_free (attempts : Nat) :
    (tryReadWallWatermark attempts).Asks Act.isFree := by
  unfold tryReadWallWatermark
  grind

@[grind ←] theorem authenticatedWallFloorWithAttempts_free (attempts : Nat) :
    (authenticatedWallFloorWithAttempts attempts).Asks Act.isFree := by
  unfold authenticatedWallFloorWithAttempts
  grind

@[grind ←] theorem readWallWatermark_free : readWallWatermark.Asks Act.isFree := by
  unfold readWallWatermark
  grind

theorem openControl_yields :
    (Task.mapErr Error.from (liftM (openRelative controlPath)) : QueueM Error Dir).Yields
      fun control => control.path = controlPath := by
  refine .mapErr fun h => ?_
  exact Task.meets_peek (fun _ => trivial) (fun _ _ => rfl)
    (openBelow_yields rootDir controlPath h)

theorem replaceWallWatermark_free {control : Dir} (hc : control.path = controlPath)
    (record : WatermarkRecord) : (replaceWallWatermark control record).Asks Act.isFree := by
  refine .bind (.mapErr random128bit_free) fun random => ?_
  refine .bind (.mapErr (createExclusive_free _ _)) fun tmp => ?_
  refine .bind (.attempt (.bind (writeAll_free _ _) fun _ => .bind (fsync_free _) fun _ =>
    asks_call hc)) fun written => ?_
  split
  · exact .bind (.attempt (asks_call hc)) fun _ => asks_throw _
  · exact .mapErr (fsyncDirFd_free _)

theorem advanceWallWatermarkLocked_free {control : Dir} (hc : control.path = controlPath)
    (observed : WallFloor) : (advanceWallWatermarkLocked observed control).Asks Act.isFree := by
  have hreplace := fun record => replaceWallWatermark_free hc record
  unfold advanceWallWatermarkLocked
  grind

theorem withWallWatermarkWriteLock_free {action : Dir → QueueM Error α}
    (h : ∀ control, control.path = controlPath → (action control).Asks Act.isFree) :
    (withWallWatermarkWriteLock action).Asks Act.isFree := by
  refine Task.Asks.bind_yields (.mapErr (liftLook_free _)) openControl_yields fun control hc => ?_
  have haction := h control hc
  grind

theorem stabilizedWallFloor_free : stabilizedWallFloor.Asks Act.isFree := by
  refine withWallWatermarkWriteLock_free fun control hc => ?_
  have hadvance := fun observed => advanceWallWatermarkLocked_free hc observed
  unfold authenticatedWallFloor
  grind

theorem markedFloor_free : (marked stabilizedWallFloor).Asks Act.isFree := by
  have hfloor := stabilizedWallFloor_free
  unfold marked
  grind

/-! The lock and the cursor file. -/

theorem acquireRecoveryLock_free : acquireRecoveryLock.Asks Act.isFree := by
  have hlock : (do
      let locked ← Task.mapErr Error.from (tryOfdWriteLock .recovery)
      if ¬ locked then throw .maintenanceBusy else return () :
      QueueM Error Unit).Asks Act.isFree := by
    grind
  refine .bind (.mapErr (liftLook_free _)) fun control => ?_
  refine .bind (.attempt (createExclusive_free _ _)) fun created => ?_
  split
  · exact .bind (.mapErr (fsync_free _)) fun _ => .bind (.mapErr (fsyncDirFd_free _)) fun _ => hlock
  · exact .bind (.mapErr (liftLook_free _)) fun _ => hlock
  · exact .bind (asks_throw _) fun _ => hlock

theorem unlinkVerified_free {control : Dir} (hc : control.path = controlPath) (name : Name) :
    (unlinkVerified control name).Asks Act.isFree :=
  .bind (.mapErr (asks_call hc)) fun _ => .mapErr (fsyncDirFd_free _)

theorem replaceVerified_free {control : Dir} (hc : control.path = controlPath)
    (srcName dstName : Name) :
    (replaceVerified control srcName dstName none).Asks Act.isFree := by
  have hrename : (renameat control srcName control dstName).Asks Act.isFree := asks_call hc
  unfold replaceVerified
  grind

theorem persistRecoveryCursor_free (codec : CursorCodec) :
    (persistRecoveryCursor codec).Asks Act.isFree := by
  have hcontrol : (Task.mapErr (cursorNotCommitted "ControlOpen")
      (liftM (openRelative controlPath)) : QueueM Error Dir).Yields
        fun control => control.path = controlPath := by
    refine .mapErr fun h => ?_
    exact Task.meets_peek (fun _ => trivial) (fun _ _ => rfl)
      (openBelow_yields rootDir controlPath h)
  refine .bind Task.asks_memory fun h => ?_
  dsimp only
  split
  · exact asks_throw _
  · refine Task.Asks.bind_yields (.mapErr (liftLook_free _)) hcontrol fun control hc => ?_
    have hcleanup : ∀ name primary,
        (cleanupCursorTemporaryFile control name primary : QueueM Error Unit).Asks Act.isFree := by
      intro name primary
      refine .bind (.attempt (unlinkVerified_free hc name)) fun removed => ?_
      split <;> exact asks_throw _
    refine .bind (.mapErr random128bit_free) fun random => ?_
    refine .bind (.mapErr (createExclusive_free _ _)) fun temp => ?_
    refine .bind (.attempt (writeAll_free _ _)) fun written => ?_
    split
    · exact hcleanup _ _
    · refine .bind (.attempt (fsync_free _)) fun synced => ?_
      split
      · exact hcleanup _ _
      · refine .bind (.attempt (replaceVerified_free hc _ _)) fun replaced => ?_
        split
        · exact asks_pure _
        · split
          · exact asks_throw _
          · exact hcleanup _ _

end Free

end SteadQ
