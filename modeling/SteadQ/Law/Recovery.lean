/-
  File:      SteadQ/Law/Recovery.lean
  Subject:   THE LAW OF RECOVERY, and with it the law of every operation.

  Between two calls of a pass nothing is under way (`Tends`), so bookkeeping keeps the law whatever
  it finds; what is left are the calls that change the queue, one lemma each.
-/
import SteadQ.Law.Consumer
import SteadQ.Recovery.Keep

namespace SteadQ

open Octet Interact

variable {f : FormatRecord} {g : Ghost} {h : Handle} {op : Op} {c : PassContext} {ε α : Type}

/-! ## 1. A pass between two calls -/

/-- No acquisition is under way in a pass of `op`. -/
def Tends (f : FormatRecord) (op : Op) (p : Pass) (g : Ghost) : Prop := Serves f op p.handle g

theorem Op.leaseInfo_of_recovers (hop : op.recovers = true) : op.leaseInfo = none := by
  cases op <;> first | rfl | cases hop

theorem tends_tolerant : Tolerant (law f) .none (Tends f op) where
  look := fun _ _ _ h => ⟨trivial, fun _ _ => h⟩
  stats := fun _ _ _ _ h => h
  cursor := fun _ _ _ _ h => Serves.memory h rfl
  saved := fun _ _ _ _ => trivial
  known := fun _ _ _ _ _ => trivial
  resumed := fun _ _ _ _ _ => trivial
  closed := CursorFacts.none_closed

/-- Code of the handle, its failure a value for the pass. -/
theorem onHandle_keeps {m : QueueM ε α} {I : Handle → Ghost → Prop} {K : α → Handle → Ghost → Prop}
    {p : Pass} (hm : m.Keeps (law f) p.handle g I K) :
    (onHandle m).Keeps (law f) p g (fun p g => I p.handle g)
      fun r p' g' => ∀ a, r = .ok a → K a p'.handle g' := by
  refine Task.meets_zoom.mpr (Task.meets_attempt.mpr (Task.Meets.mono hm ?_))
  rintro r h' g' ⟨hI, hK⟩
  refine ⟨hI, ?_⟩
  rintro _ ⟨⟩
  exact hK

theorem onHandle_tends {m : QueueM ε α} (hm : m.Preserves (law f) (Serves f op)) :
    (onHandle m).Preserves (law f) (Tends f op) :=
  fun p g hs => Task.meets_zoom.mpr (Task.meets_attempt.mpr (hm p.handle g hs))

/-- The invariant of code of the handle may be another one than that of the pass. -/
theorem onHandle_then {β : Type} {m : QueueM ε α} {k : Except ε α → PassM β}
    {I : Handle → Ghost → Prop} {Q : Except Empty β → Pass → Ghost → Prop} {p : Pass}
    (hm : m.Preserves (law f) I) (hI : I p.handle g)
    (hk : ∀ r p' g', I p'.handle g' → (k r).Meets (law f) p' g' Q) :
    (onHandle m >>= k).Meets (law f) p g Q := by
  refine Task.meets_bind.mpr (Task.meets_zoom.mpr (Task.meets_attempt.mpr ?_))
  exact Task.Meets.mono (hm p.handle g hI) fun r h' g' hI' => hk r (withHandle p h') g' hI'

theorem attempt_then {ε' β : Type} {m : QueueM ε' α} {k : Except ε' α → QueueM ε β}
    {I : Handle → Ghost → Prop} {Q : Except ε β → Handle → Ghost → Prop}
    (hm : m.Preserves (law f) I) (hI : I h g)
    (hk : ∀ r h' g', I h' g' → (k r).Meets (law f) h' g' Q) :
    (Task.attempt m >>= k).Meets (law f) h g Q :=
  Task.meets_bind.mpr (Task.meets_attempt.mpr (Task.Meets.mono (hm h g hI) hk))

theorem spends_of_serves {m : QueueM ε α} (hm : m.Preserves (law f) (Serves f op)) :
    Spends (law f) c (Tends f op) m :=
  fun p g hs _ => onHandle_tends hm p.counted g hs

theorem preserves_of_keeps {m : QueueM ε α} {I : Handle → Ghost → Prop}
    {K : α → Handle → Ghost → Prop} (hm : ∀ h g, I h g → m.Keeps (law f) h g I K) :
    m.Preserves (law f) I :=
  fun h g hI => Task.Meets.mono (hm h g hI) fun _ _ _ hr => hr.1

/-! ## 2. Single calls -/

theorem tryOfdWriteLock_serves (lock : LockFile) :
    (tryOfdWriteLock lock).Preserves (law f) (Serves f op) :=
  Task.preserves_call fun _ _ hs => ⟨trivial, fun _ _ => hs⟩

theorem unlockFile_serves (lock : LockFile) :
    (unlockFile lock : QueueM ε Unit).Preserves (law f) (Serves f op) :=
  Task.preserves_call fun _ _ hs => ⟨trivial, fun _ _ => hs⟩

theorem fsyncDirFd_serves {I : Ghost → Prop} (dir : Dir) :
    (fsyncDirFd dir).Preserves (law f) fun h g => Serves f op h g ∧ I g :=
  Task.preserves_call fun h g hs => ⟨trivial, fun r _ => by rwa [next_fsyncDir]⟩

theorem serves_and {m : QueueM ε α}
    (hm : m.Preserves (law f) fun h g => Serves f op h g ∧ True) :
    m.Preserves (law f) (Serves f op) :=
  fun h g hs => Task.Meets.mono (hm h g ⟨hs, trivial⟩) fun _ _ _ hr => hr.1

theorem unlinkVerified_serves {I : Ghost → Prop} {dir : Dir} {name : Name}
    (hallow : ∀ g : Ghost, g.op = op → g.Unlinkable dir.path name) :
    (unlinkVerified dir name).Preserves (law f) fun h g => Serves f op h g ∧ I g := by
  refine .bind (.mapErr (Task.preserves_call fun h g hs => ⟨hallow g hs.1.op, fun r _ => ?_⟩))
    fun _ => .mapErr (fsyncDirFd_serves dir)
  rwa [next_unlinkat]

theorem removeEmptyDirectoryVerified_serves (hop : op.recovers = true) (parent : Dir) (name : Name) :
    (removeEmptyDirectoryVerified parent name).Preserves (law f) (Serves f op) := by
  refine serves_and (.bind (.mapErr (Task.preserves_call fun h g hs => ⟨?_, fun r _ => ?_⟩))
    fun _ => .mapErr (fsyncDirFd_serves parent))
  · show g.op.recovers = true
    rw [hs.1.op, hop]
  · rwa [next_unlinkatDir]

/-! ## 3. Moves of jobs -/

section Moves

variable {src : Dir} {name : Name} {common : CommonFields}

theorem nextForMove_ok {operation : Operation} {next : CommonFields}
    (h : nextForMove operation common = .ok next) (hop : ¬ operation.Publishes) :
    Succeeds operation common next := nextCommonFields_ok (Task.mapError_eq_ok.mp h) hop

/-- A move of recovery goes from a name of the job to its next name. -/
theorem restore_serves {dst : Dir} {dstName : Name} (operation : Operation) {next : CommonFields}
    (hop : op.recovers = true) (hpermits : op.permits operation = true)
    (hsource : jobName src.path name = some ((transition operation).source, common))
    (hsucceeds : Succeeds operation common next)
    (hlands : jobName dst.path dstName = some ((transition operation).destination, next))
    (hattempts : operation.Fits common)
    (hs : Serves f op h g) :
    (moveVerifiedNoreplace src name dst dstName).Keeps (law f) h g (Serves f op)
      fun _ _ _ => True := by
  refine (hs.stays (moveVerifiedNoreplace_keeps hs.toQuiet.stays ?_)).mono (fun _ _ h => h)
    fun _ _ _ _ _ => trivial
  exact .restore operation common next hsource hsucceeds hlands (by rw [hs.op, hpermits])
    (by rw [hs.op, hop]) hattempts

/-- Whatever the shard, a name made for it is a ready name. -/
theorem jobName_makeReadyName (queueId : Octets 16) (shard : Name) (common : CommonFields) {p : Path}
    (hp : p.head? = some State.ready.dirName) :
    jobName p (makeReadyName queueId shard common) = some (.ready, common) := by
  obtain _ | ⟨root, rest⟩ := p
  · cases hp
  · cases hp
    exact jobName_ready (parseReady_tagged common _)

theorem reapToReady_serves {budget : WorkBudget} {scan : RecoveryScanBudget} (shard : UInt32)
    (hsource : jobName src.path name = some (.leased, common))
    (hleft : common.attempt < common.maximumAttempts) :
    (reapToReady src shard name common).Preserves (law f) (Serves f (.recover budget scan)) := by
  refine preserves_of_keeps (K := fun _ _ _ => True) fun h g hs => ?_
  refine Task.keeps_memory (Task.keeps_ofExcept hs fun next hnext => ?_)
  refine .bind (openRelative_keeps hs _).mapErr ?_
  rintro dst _ _ hs ⟨rfl, rfl, hdst⟩
  exact restore_serves .reapExpiredToReady rfl rfl hsource (nextForMove_ok hnext (by decide))
    (jobName_makeReadyName _ _ _ (by rw [hdst]; rfl)) ⟨fun _ => hleft, nofun⟩ hs

theorem reapColocatedToReady_serves {budget : WorkBudget} {scan : RecoveryScanBudget}
    {shard : UInt32} (hpath : src.path = readyShardDir shard)
    (hsource : jobName src.path name = some (.leased, common))
    (hleft : common.attempt < common.maximumAttempts) :
    (reapColocatedToReady src name common).Preserves (law f)
      (Serves f (.recover budget scan)) := by
  refine preserves_of_keeps (K := fun _ _ _ => True) fun h g hs => ?_
  refine Task.keeps_memory (Task.keeps_ofExcept hs fun next hnext => ?_)
  exact restore_serves .reapExpiredToReady rfl rfl hsource (nextForMove_ok hnext (by decide))
    (jobName_makeReadyName _ _ _ (by rw [hpath]; rfl)) ⟨fun _ => hleft, nofun⟩ hs

theorem reapToDead_serves {budget : WorkBudget} {scan : RecoveryScanBudget}
    (hsource : jobName src.path name = some (.leased, common)) (reason : DeadReason)
    (floor : WallFloor) :
    (reapToDead src name common reason floor).Preserves (law f)
      (Serves f (.recover budget scan)) := by
  refine preserves_of_keeps (K := fun _ _ _ => True) fun h g hs => ?_
  refine Task.keeps_memory (Task.keeps_ofOption hs fun bucket _ => ?_)
  refine Task.keeps_ofExcept hs fun next hnext => ?_
  dsimp only
  refine .bind (hs.steady (ensureDirWithDirty_keeps hs.toQuiet.steady _)).mapErr fun _ h₁ g₁ hs₁ _ => ?_
  refine .bind (openRelative_keeps hs₁ _).mapErr ?_
  rintro dst _ _ hs₁ ⟨rfl, rfl, hdst⟩
  refine restore_serves .reapExpiredToDead rfl rfl hsource (nextForMove_ok hnext (by decide)) ?_
    ⟨fun h => absurd h (by decide), nofun⟩ hs₁
  rw [hdst]
  exact jobName_dead (parseDead_tagged next reason.code _)

theorem promoteToReady_serves {budget : WorkBudget} {scan : RecoveryScanBudget} (shard : Name)
    (hsource : jobName src.path name = some (.delayed, common)) :
    (promoteToReady src shard name common).Preserves (law f)
      (Serves f (.recover budget scan)) := by
  refine preserves_of_keeps (K := fun _ _ _ => True) fun h g hs => ?_
  refine Task.keeps_memory (Task.keeps_ofExcept hs fun next hnext => ?_)
  refine .bind (openRelative_keeps hs _).mapErr ?_
  rintro dst _ _ hs ⟨rfl, rfl, hdst⟩
  exact restore_serves .promote rfl rfl hsource (nextForMove_ok hnext (by decide))
    (jobName_makeReadyName _ _ _ (by rw [hdst]; rfl)) ⟨fun h => absurd h (by decide), nofun⟩ hs

end Moves

/-! ## 4. Quarantine -/

/-- Where an object is condemned, it can be quarantined. -/
theorem quarantineSource_of_condemnable {path : Path} (h : condemnable path) :
    quarantineSource path := by
  rcases h with h | h | h | h
  · exact ⟨_, h, .inl rfl⟩
  · exact ⟨_, h, .inr (.inl rfl)⟩
  · exact ⟨_, h, .inr (.inr (.inl rfl))⟩
  · exact ⟨_, h, .inr (.inr (.inr rfl))⟩

theorem quarantineRecoveryObject_tends {src : Dir} (name : Name) (path : Path)
    (reason : QuarantineReason) (hop : op.recovers = true) (hsrc : condemnable src.path) :
    (quarantineRecoveryObject c src name path reason).Preserves (law f) (Tends f op) := by
  have hb : Books (law f) (Tends f op) := tends_tolerant.toBooks
  have hpublish : ∀ n, (publishQuarantineObjectWithIds src name reason n).Preserves (law f)
      (Serves f op) := fun n => preserves_of_keeps fun h g hs =>
    publishQuarantineObjectWithIds_keeps reason n hs (Op.leaseInfo_of_recovers hop)
      (quarantineSource_of_condemnable hsrc)
  have hstats : ∀ k : RecoveryStats → RecoveryStats, (onStats k).Preserves (law f) (Tends f op) :=
    fun k => Task.preserves_remember fun _ _ h => h
  refine .bind Task.preserves_memory fun p => ?_
  dsimp only
  split
  · exact .bind (hstats _) fun _ => Task.preserves_pure _
  · refine .bind (onHandle_tends (hpublish _)) fun result => .bind (hstats _) fun _ => ?_
    split
    · exact .bind (hstats _) fun _ => Task.preserves_pure _
    · exact .bind (recordError_preserves hb _ _ _) fun _ => .bind (hstats _) fun _ =>
        Task.preserves_pure _
    · exact .bind (recordError_preserves hb _ _ _) fun _ => Task.preserves_pure _

/-! ## 5. Replacements -/

section Drafts

variable {dir : Dir} {name : Name} {i : Ino}

/-- The pass has a temporary file of its own. -/
def Holding (f : FormatRecord) (op : Op) (dir : Dir) (name : Name) (i : Ino) (h : Handle)
    (g : Ghost) : Prop := Serves f op h g ∧ Owns g i (some (dir.path, name))

theorem writeAll_holding (data : Bytes) :
    (writeAll i data).Preserves (law f) (Holding f op dir name i) :=
  Task.preserves_call fun _ _ hs => ⟨hs.2.file, fun _ _ => hs⟩

theorem fsync_holding : (fsync i).Preserves (law f) (Holding f op dir name i) :=
  Task.preserves_call fun _ _ hs => ⟨trivial, fun _ _ => hs⟩

theorem random128bit_serves (hs : Serves f op h g) :
    random128bit.Keeps (law f) h g (Serves f op) fun x _ g' => ∃ rest, g'.drawn = x :: rest :=
  hs.random128bit.mono (fun _ _ h => h) fun _ _ _ _ hJ => ⟨g.drawn, by rw [hJ.2]⟩

theorem createExclusive_holding (hs : Serves f op h g) (hc : g.Creates dir.path name) :
    (createExclusive dir name).Keeps (law f) h g (Serves f op)
      fun i h' g' => Holding f op dir name i h' g' := by
  refine ⟨hc, fun r _ => ?_⟩
  rcases r with e | i
  · exact ⟨hs, nofun⟩
  · have hserves : Serves f op h ((law f).next g (.createExclusive dir name) (.ok i)) :=
      ⟨⟨hs.format⟩, hs.op⟩
    refine ⟨hserves, ?_⟩
    rintro _ ⟨⟩
    exact ⟨hserves, _, List.mem_cons_self, rfl, rfl⟩

/-- The temporary file takes the place of a receipt, or of the cursor. -/
theorem replaceVerified_holding {dst : Name} (expected : Option MoveIdentity)
    (hname : name.head? = some 46) (hdst : (dir.path.head? = some State.receipt.dirName ∧ ∃ parsed, parseReceipt dst = .ok parsed) ∨
      dir.path = controlPath ∧ dst = recoveryCursorFile) (hs : Holding f op dir name i h g) :
    (replaceVerified dir name dst expected).Keeps (law f) h g (Serves f op) fun _ _ _ => True := by
  have hrename (failure : IoError → ReplaceFailure) : (do
      Task.mapErr failure (renameat dir name dir dst)
      Task.mapErr (.outcomeUnknown .destinationFsync) (fsyncDirFd dir) :
      QueueM ReplaceFailure Unit).Keeps (law f) h g (Serves f op) fun _ _ _ => True := by
    refine .bind (J := fun _ _ _ => True) (.mapErr ⟨⟨rfl, ?_, ?_, ?_⟩, fun r _ => ?_⟩)
      fun _ h₁ g₁ hs₁ _ => ?_
    · exact ne_of_dot hname (by decide)
    · obtain ⟨o, ho⟩ := hs.2.ownAt
      exact Option.isSome_iff_exists.mpr ⟨o, ho⟩
    · exact hdst.imp_right .inl
    · rcases r with e | _
      · exact ⟨hs.1, fun _ _ => trivial⟩
      · exact ⟨⟨⟨hs.1.format⟩, hs.1.op⟩, fun _ _ => trivial⟩
    · exact ((fsyncDirFd_keeps hs₁ dir).mono (fun _ _ h => h)
        fun _ _ _ _ _ => trivial).mapErr
  cases expected with
  | none => exact hrename _
  | some identity =>
    refine .bind (quiet_any hs.1).mapErr ?_
    rintro stat _ _ - ⟨rfl, rfl⟩
    exact Task.keeps_ite (fun _ => Task.keeps_throw hs.1) fun _ => hrename _

end Drafts

/-! ## 6. Receipts -/

theorem recordUnlinkFailure_tends (operation : String) (path : Path) (failure : UnlinkFailure) :
    (recordUnlinkFailure operation path failure).Preserves (law f) (Tends f op) :=
  recordUnlinkFailure_preserves tends_tolerant.toBooks operation path failure

theorem unlinkVerified_receipts (hop : op.recovers = true) {dir : Dir}
    (hdir : dir.path.head? = some State.receipt.dirName) (name : Name) :
    (unlinkVerified dir name).Preserves (law f) (Serves f op) :=
  serves_and (unlinkVerified_serves fun g hg => .inr (.inl ⟨by rw [hg, hop], hdir⟩))

theorem cleanupCompactionTemp_tends (hop : op.recovers = true) {dir : Dir}
    (hdir : dir.path.head? = some State.receipt.dirName) (name : Name) (path : Path) :
    (cleanupCompactionTemp dir name path).Preserves (law f) (Tends f op) := by
  refine .bind (onHandle_tends (unlinkVerified_receipts hop hdir name)) fun removed => ?_
  split
  · exact Task.preserves_pure _
  · exact Task.preserves_pure _
  · exact recordUnlinkFailure_tends _ _ _

/-- **A receipt is only replaced by a file the pass wrote itself.** -/
theorem replaceByCompact_tends (hop : op.recovers = true) {dir : Dir}
    (hdir : dir.path.head? = some State.receipt.dirName) {entry : Name}
    (hentry : ∃ parsed, parseReceipt entry = .ok parsed) (shardPath : Path)
    (identity : MoveIdentity) (bytes : Bytes) :
    (replaceByCompact dir entry shardPath identity bytes).Preserves (law f) (Tends f op) := by
  have hb : Books (law f) (Tends f op) := tends_tolerant.toBooks
  have hcleanup : ∀ operation path err name path',
      (recordError operation path err >>= fun _ => cleanupCompactionTemp dir name path').Preserves
        (law f) (Tends f op) := fun _ _ _ _ _ =>
    .bind (recordError_preserves hb _ _ _) fun _ => cleanupCompactionTemp_tends hop hdir _ _
  refine .bind (Task.preserves_remember fun _ _ h => h) fun _ => ?_
  refine Task.preserves_bind (fun p g hs => onHandle_keeps (random128bit_serves hs)) ?_
  intro random p g hs hdrawn
  split
  · exact recordError_preserves hb _ _ _ p g hs
  · rename_i x
    obtain ⟨rest, hrest⟩ := hdrawn x rfl
    have hc : g.Creates dir.path (compactionTempName x) :=
      .inr ⟨x, rest, hrest, .inr (.inr ⟨by rw [hs.op, hop], hdir, rfl⟩)⟩
    refine (onHandle_keeps (createExclusive_holding hs hc)).meets_bind fun created p₁ g₁ hs₁ h₁ => ?_
    split
    · exact recordError_preserves hb _ _ _ p₁ g₁ hs₁
    · rename_i tmp
      have hwrite : (writeAll tmp bytes).Preserves (law f)
          (Holding f op dir (compactionTempName x) tmp) := writeAll_holding bytes
      refine onHandle_then hwrite (h₁ tmp rfl) fun written p₂ g₂ h₂ => ?_
      split
      · exact hcleanup _ _ _ _ _ p₂ g₂ h₂.1
      · refine onHandle_then fsync_holding h₂ fun synced p₃ g₃ h₃ => ?_
        split
        · exact hcleanup _ _ _ _ _ p₃ g₃ h₃.1
        · refine (onHandle_keeps (replaceVerified_holding _ rfl (.inl ⟨hdir, hentry⟩) h₃)).meets_bind
            fun replaced p₄ g₄ h₄ _ => ?_
          split
          · exact h₄
          · refine (Task.Preserves.bind (recordReplaceFailure_preserves hb _ _ _) fun _ => ?_) p₄ g₄ h₄
            split
            · exact cleanupCompactionTemp_tends hop hdir _ _
            · exact Task.preserves_pure _

/-! ## 7. The lock and the cursor -/

theorem acquireRecoveryLock_serves : acquireRecoveryLock.Preserves (law f) (Serves f op) := by
  have hlock : (do
      let locked ← Task.mapErr Error.from (tryOfdWriteLock .recovery)
      if ¬ locked then throw .maintenanceBusy else return () :
      QueueM Error Unit).Preserves (law f) (Serves f op) := by
    refine .bind (.mapErr (tryOfdWriteLock_serves _)) fun locked => ?_
    split
    · exact Task.preserves_throw _
    · exact Task.preserves_pure _
  have hlook : ∀ {α : Type} (m : LookM IoError α),
      (Task.mapErr Error.from (liftM m) : QueueM Error α).Preserves (law f) (Serves f op) :=
    fun m => .mapErr fun h g hs => looking_any fun _ => hs
  refine preserves_of_keeps (K := fun _ _ _ => True) fun h g hs => ?_
  refine .bind (openRelative_keeps hs _).mapErr ?_
  rintro control _ _ hs ⟨rfl, rfl, hcontrol⟩
  refine .attempt (createExclusive_holding hs (.inl ⟨hcontrol, rfl⟩)) fun r h₁ g₁ hs₁ hr => ?_
  refine Task.Meets.mono (?_ : Task.Meets (law f) _ h₁ g₁ fun _ h' g' => Serves f op h' g')
    fun _ _ _ h => ⟨h, fun _ _ => trivial⟩
  split
  · rename_i file
    have hfsync : (fsync file).Preserves (law f) (Holding f op control recoveryLockName file) :=
      fsync_holding
    refine Task.meets_bind.mpr (Task.meets_mapErr.mpr (Task.Meets.mono
      (hfsync h₁ g₁ (hr file rfl)) fun _ h₂ g₂ h₂ => Task.then_intro (fun _ _ => h₂.1) fun _ _ => ?_))
    exact (Task.Preserves.bind (.mapErr (serves_and (fsyncDirFd_serves control))) fun _ => hlock)
      _ _ h₂.1
  · exact (Task.Preserves.bind (hlook _) fun _ => hlock) h₁ g₁ hs₁
  · exact (Task.Preserves.bind (Task.preserves_throw _) fun _ => hlock) h₁ g₁ hs₁

theorem unlinkVerified_control {control : Dir} {name : Name} (hcontrol : control.path = controlPath)
    (hname : name ≠ watermarkName) :
    (unlinkVerified control name).Preserves (law f) (Serves f op) :=
  serves_and (unlinkVerified_serves fun _ _ => .inr (.inr ⟨hcontrol, hname⟩))

theorem persistRecoveryCursor_serves (codec : CursorCodec) :
    (persistRecoveryCursor codec).Preserves (law f) (Serves f op) := by
  have hcleanup : ∀ {control : Dir}, control.path = controlPath → ∀ random primary,
      (cleanupCursorTemporaryFile control (cursorTempName random) primary :
        QueueM Error Unit).Preserves (law f) (Serves f op) := by
    intro control hcontrol random primary
    refine .bind (.attempt (unlinkVerified_control hcontrol (ne_of_dot rfl (by decide)))) fun removed => ?_
    split <;> exact Task.preserves_throw _
  refine .bind Task.preserves_memory fun h => ?_
  dsimp only
  split
  · exact Task.preserves_throw _
  · refine preserves_of_keeps (K := fun _ _ _ => True) fun h g hs => ?_
    refine .bind (openRelative_keeps hs _).mapErr ?_
    rintro control _ _ hs ⟨rfl, rfl, hcontrol⟩
    refine .bind (random128bit_serves hs).mapErr ?_
    rintro random h₁ g₁ hs₁ ⟨rest, hrest⟩
    have hc : g₁.Creates control.path (cursorTempName random) :=
      .inr ⟨random, rest, hrest, .inr (.inl ⟨hcontrol, .inr rfl⟩)⟩
    refine .bind (createExclusive_holding hs₁ hc).mapErr fun temp h₂ g₂ _ h₂ => ?_
    refine Task.Meets.mono (?_ : Task.Meets (law f) _ _ g₂ fun _ h' g' => Serves f op h' g')
      fun _ _ _ h => ⟨h, fun _ _ => trivial⟩
    refine attempt_then (writeAll_holding _) h₂ fun written h₃ g₃ hs₃ => ?_
    split
    · exact hcleanup hcontrol _ _ h₃ g₃ hs₃.1
    · refine attempt_then fsync_holding hs₃ fun synced h₄ g₄ hs₄ => ?_
      split
      · exact hcleanup hcontrol _ _ h₄ g₄ hs₄.1
      · refine Task.Meets.mono (Task.Keeps.attempt (replaceVerified_holding none rfl
          (.inr ⟨hcontrol, rfl⟩) hs₄) (K := fun _ _ _ => True) fun replaced h₅ g₅ hs₅ _ => ?_)
          fun _ _ _ h => h.1
        refine Task.Meets.mono (?_ : Task.Meets (law f) _ h₅ g₅ fun _ h' g' => Serves f op h' g')
          fun _ _ _ h => ⟨h, fun _ _ => trivial⟩
        split
        · exact hs₅
        · split
          · exact hs₅
          · exact hcleanup hcontrol _ _ h₅ g₅ hs₅

/-! ## 8. The pass -/

section Pass

variable {budget : WorkBudget} {scan : RecoveryScanBudget}

theorem jobName_of_expired {dir : Dir} {entry : Name} {parsed : LeasedName}
    (hparsed : parseLeased entry = .ok parsed) (h : Expired (Tends f op) c dir parsed) :
    jobName dir.path entry = some (.leased, parsed.common) := by
  cases h with
  | leased hreached hdue =>
    rw [hreached.path_three]
    exact jobName_leased hparsed
  | colocated hdir hJ hdue =>
    rw [hdir]
    exact jobName_colocated hparsed

theorem tends_works : Works (law f) c (Tends f (.recover budget scan))
    (fun _ dir _ => condemnable dir.path) fun _ _ _ _ => True where
  condemns := condemns_place tends_tolerant.toBooks fun lock =>
    onHandle_tends (tryOfdWriteLock_serves lock)
  quarantine := fun src name path reason p t hs hsrc =>
    quarantineRecoveryObject_tends name path reason rfl hsrc p t hs
  removes := fun parent name _ =>
    spends_of_serves (removeEmptyDirectoryVerified_serves rfl parent name)
  unlinks := fun dir name hdir => spends_of_serves (serves_and (unlinkVerified_serves
    fun g hg => hdir.imp_right fun hdir => .inl ⟨by rw [hg]; rfl, hdir⟩))
  reaps := fun dir entry parsed place hparsed hleft hreached _ => spends_of_serves
    (reapToReady_serves _ (by rw [hreached.path_three]; exact jobName_leased hparsed) hleft)
  reapsColocated := fun dir entry parsed shard hparsed hleft hdir _ => spends_of_serves
    (reapColocatedToReady_serves hdir (by rw [hdir]; exact jobName_colocated hparsed) hleft)
  buries := fun dir entry parsed reason floor hparsed hexpired => spends_of_serves
    (reapToDead_serves (jobName_of_expired hparsed hexpired) reason floor)
  promotes := fun dir bucket shard entry parsed hparsed hdir => spends_of_serves
    (promoteToReady_serves shard (by rw [hdir]; exact jobName_delayed hparsed))
  compacts := fun dir bucket shard entry receipt job start p t hdir hentry hroom _ _ _ =>
    replaceByCompact_tends rfl (by rw [hdir]; rfl) hentry _ _ _ p t hroom.1
  locks := fun lock => onHandle_tends (tryOfdWriteLock_serves lock)
  unlocks := fun lock => onHandle_tends (unlockFile_serves lock)

theorem tends_around (codec : CursorCodec) : Around (law f) codec (Tends f op) where
  lock := onHandle_tends acquireRecoveryLock_serves
  unlock := onHandle_tends (unlockFile_serves _)
  sweep := fun control name hcontrol hname => by
    refine onHandle_tends (unlinkVerified_control hcontrol ?_)
    rintro rfl
    revert hname
    decide
  load := fun p t hs => Task.Meets.mono (lookHandle_keeps tends_tolerant.toBooks _ hs)
    fun _ _ _ hr => ⟨hr.1, fun a ha cursor _ => Serves.memory hr.1 rfl⟩
  floor := onHandle_tends fun h g hs =>
    Task.Meets.mono (markedStabilized_keeps h g ⟨hs.toQuiet, .refl g⟩)
      fun _ _ _ hc => ⟨hc.toQuiet, hc.grows.op.trans hs.op⟩
  persist := onHandle_tends (persistRecoveryCursor_serves codec)

/-- **A recovery pass keeps the law.** -/
theorem recover_keeps {codec : CursorCodec} (hs : Serves f (.recover budget scan) h g) :
    (recoverWithScanBudget codec budget scan).Keeps (law f) h g
      (Serves f (.recover budget scan)) fun _ _ _ => True := by
  have hb : Books (law f) (Tends f (.recover budget scan)) := tends_tolerant.toBooks
  have hpass : (recoverPass codec budget scan).Preserves (law f) (Tends f (.recover budget scan)) :=
    recoverPass_preserves hb (tends_around codec) fun _ =>
      recoverLocked_preserves tends_tolerant (tends_around codec) fun c _ _ =>
        ⟨reads_of_scanFree hb (fun _ _ _ h => h) fun _ _ _ _ _ _ => trivial,
          streams_of_scanFree hb (fun _ _ _ h => h) fun _ _ _ _ _ _ _ => trivial, tends_works⟩
  refine Task.Meets.mono (recoverWithScanBudget_meets hpass hs) fun r h' g' hr => ?_
  cases r with
  | error e => exact nomatch e
  | ok report => exact ⟨hr report rfl, fun _ _ => trivial⟩

end Pass

/-! ## 9. Every operation -/

/-- A handle of a queue of format `f`. -/
structure Handle.Sound (f : FormatRecord) (h : Handle) : Prop where
  format : h.format = f

theorem Quiet.sound (hq : Quiet f h g) : h.Sound f := ⟨hq.format⟩

/-- What an answer tells of the call: a delivered job was claimed, a transition moved an entry. -/
def OpResult.Told (g : Ghost) : OpResult → Prop
  | .lease outcome => Delivers outcome g
  | .ack outcome => outcome.Happened → g.moved = true
  | .renew outcome => outcome.Happened → g.moved = true
  | .transition outcome => outcome.Happened → g.moved = true
  | _ => True

/-- What holds when an operation returns. -/
def Concludes (f : FormatRecord) (x : OpResult × Handle) (g : Ghost) : Prop :=
  Quiet f x.2 g ∧ x.1.Told g

theorem serves_enter (op : Op) (hh : h.Sound f) : Serves f op h (Ghost.enter op h) :=
  ⟨⟨hh.format⟩, rfl⟩

/-- **Every operation of a handle keeps the law**, whatever the other handles do in between. -/
theorem Op.follows_law (codec : CursorCodec) (op : Op) (hh : h.Sound f) :
    (op.program codec h).Follows (law f) (Concludes f) (Ghost.enter op h) := by
  have hs := serves_enter op hh
  refine Op.meets_program ?_
  -- the result of the task is the outcome of the function under its constructor
  have hmap : ∀ {α : Type} {m : QueueM Empty α} {wrap : α → OpResult} {I : Handle → Ghost → Prop}
      {K : α → Handle → Ghost → Prop}, m.Keeps (law f) h (Ghost.enter op h) I K →
      (∀ h g, I h g → Quiet f h g) → (∀ a h g, K a h g → (wrap a).Told g) →
      (wrap <$> m).Meets (law f) h (Ghost.enter op h)
        fun r s t => ∀ x, r = .ok x → Concludes f (x, s) t := by
    intro α m wrap I K hm hI hK
    refine Task.meets_map.mpr (Task.Meets.mono hm fun r h' g' hr => ?_)
    rintro x hx
    cases r with
    | error e => exact nomatch e
    | ok a =>
      cases hx
      exact ⟨hI _ _ hr.1, hK a _ _ (hr.2 a rfl)⟩
  have hquiet : ∀ h g, Serves f op h g → Quiet f h g := fun _ _ hs => hs.toQuiet
  cases op with
  | enqueue job =>
    exact hmap (enqueue_keeps hs.toQuiet) (fun _ _ h => h) fun _ _ _ _ => trivial
  | enqueueStreaming job reader =>
    exact hmap (enqueueStreaming_keeps hs.toQuiet) (fun _ _ h => h)
      fun _ _ _ _ => trivial
  | lease deferred durationNs entries rounds =>
    exact hmap (lease_keeps durationNs entries rounds hs (Op.leases_lease ..)) hquiet
      fun _ _ _ h => h
  | ack deferred lease => exact hmap (ack_keeps hs) hquiet fun _ _ _ h => h
  | renew lease durationNs => exact hmap (renew_keeps hs) hquiet fun _ _ _ h => h
  | retryNow lease => exact hmap (retryNow_keeps hs) hquiet fun _ _ _ h => h
  | retryAt lease nb => exact hmap (retryAt_keeps hs) hquiet fun _ _ _ h => h
  | retryAfter lease durationNs => exact hmap (retryAfter_keeps hs) hquiet fun _ _ _ h => h
  | retryWithPolicy lease policy => exact hmap (retryWithPolicy_keeps hs) hquiet fun _ _ _ h => h
  | bury lease reason => exact hmap (bury_keeps hs) hquiet fun _ _ _ h => h
  | recover budget scan => exact hmap (recover_keeps hs) hquiet fun _ _ _ _ => trivial

end SteadQ
