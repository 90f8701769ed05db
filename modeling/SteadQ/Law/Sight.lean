/-
  File:      SteadQ/Law/Sight.lean
  Subject:   RECOVERY REPLACES WHAT IT HAS SEEN.

  A pass replaces a receipt by a rename over its name. Before that it found a regular file behind
  a descriptor, and the same file under that name. `sight` watches a pass for this: the files it
  has asked the status of, and the names it has seen one of them under.
-/
import SteadQ.Law
import SteadQ.Recovery.Keep
import SteadQ.Recovery.Control

namespace SteadQ

open Octet Interact
open Interact.Task (asks_call asks_memory asks_ofExcept asks_throw keeps_ite keeps_throw
  meets_attempt meets_bind meets_mapErr meets_zoom preserves_pure then_intro)

variable {ε α : Type}

/-! ## 1. The discipline -/

structure Sight where
  /-- Descriptors of regular files. -/
  files : List Ino
  /-- Names one of them was found under. -/
  seen : List (Path × Name)
  deriving DecidableEq

namespace Sight

def next (s : Sight) : (a : Act) → a.Resp → Sight
  | .look (.fstat i), .ok stat => if stat.kind = .regular then { s with files := i :: s.files } else s
  | .look (.fstatat d n), .ok stat =>
    if stat.ino ∈ s.files then { s with seen := (d.path, n) :: s.seen } else s
  | _, _ => s

/-- Outside `control` only a name that was seen is replaced. -/
def allow (s : Sight) : Act → Prop
  | .renameat src _ dst name => src.path = controlPath ∨ (dst.path, name) ∈ s.seen
  | _ => True

def enter (op : Op) (_ : Handle) : Option Sight := if op.recovers then some ⟨[], []⟩ else none

end Sight

/-- What a pass has seen. -/
def sight : Discipline Act.Resp (Option Sight) where
  next := fun t a r => t.map fun s => s.next a r
  allow := fun t a => ∀ s, t = some s → s.allow a
  expect := fun _ a r => honest a r

/-- A pass has the status of file `i`. -/
def Knows (i : Ino) (t : Option Sight) : Prop := ∀ s, t = some s → i ∈ s.files

theorem Knows.next {i : Ino} {t : Option Sight} (h : Knows i t) (a : Act) (r : a.Resp) :
    Knows i (sight.next t a r) := by
  intro s hs
  obtain ⟨s₀, rfl, rfl⟩ := Option.map_eq_some_iff.mp hs
  have hi := h s₀ rfl
  unfold Sight.next
  split
  · split
    · exact List.mem_cons_of_mem _ hi
    · exact hi
  · split <;> exact hi
  · exact hi

/-! ## 2. Calls that replace nothing -/

/-- Of the replacements only those inside `control`. -/
def Act.isPlain : Act → Prop
  | .renameat src _ _ _ => src.path = controlPath
  | _ => True

theorem Act.isFree.plain {a : Act} (h : a.isFree) : a.isPlain := by
  cases a <;> first | exact trivial | exact h

theorem Act.isPlain.allow {a : Act} (h : a.isPlain) (t : Option Sight) : sight.allow t a := by
  intro s _
  cases a with
  | renameat src srcName dst dstName => exact .inl h
  | _ => trivial

theorem looking_plain (m : LookM ε α) : (looking m).Asks Act.isPlain :=
  Task.asks_peek fun _ => trivial

theorem ensureDir_plain (relative : Path) : (ensureDir relative).Asks Act.isPlain :=
  (ensureDir_free relative).mono fun _ => Act.isFree.plain

theorem fsyncDirFd_plain (dir : Dir) : (fsyncDirFd dir).Asks Act.isPlain := asks_call trivial

theorem moveVerifiedNoreplace_plain (src : Dir) (srcName : Name) (dst : Dir) (dstName : Name) :
    (moveVerifiedNoreplace src srcName dst dstName).Asks Act.isPlain :=
  .bind (.mapErr (asks_call trivial)) fun _ => .bind (.mapErr (fsyncDirFd_plain dst)) fun _ =>
    .mapErr (fsyncDirFd_plain src)

theorem unlinkVerified_plain (dir : Dir) (name : Name) :
    (unlinkVerified dir name).Asks Act.isPlain :=
  .bind (.mapErr (asks_call trivial)) fun _ => .mapErr (fsyncDirFd_plain dir)

theorem removeEmptyDirectoryVerified_plain (parent : Dir) (name : Name) :
    (removeEmptyDirectoryVerified parent name).Asks Act.isPlain :=
  .bind (.mapErr (asks_call trivial)) fun _ => .mapErr (fsyncDirFd_plain parent)

theorem reapToReady_plain (src : Dir) (shard : UInt32) (name : Name) (common : CommonFields) :
    (reapToReady src shard name common).Asks Act.isPlain :=
  .bind asks_memory fun _ => .bind (asks_ofExcept _) fun _ =>
    .bind (.mapErr (looking_plain _)) fun _ => moveVerifiedNoreplace_plain _ _ _ _

theorem reapColocatedToReady_plain (dir : Dir) (name : Name) (common : CommonFields) :
    (reapColocatedToReady dir name common).Asks Act.isPlain :=
  .bind asks_memory fun _ => .bind (asks_ofExcept _) fun _ =>
    moveVerifiedNoreplace_plain _ _ _ _

theorem reapToDead_plain (src : Dir) (name : Name) (common : CommonFields) (reason : DeadReason)
    (floor : WallFloor) : (reapToDead src name common reason floor).Asks Act.isPlain :=
  .bind asks_memory fun _ => .bind (Task.asks_ofOption _ _) fun _ =>
    .bind (asks_ofExcept _) fun _ => .bind (.mapErr (ensureDir_plain _)) fun _ =>
      .bind (.mapErr (looking_plain _)) fun _ => moveVerifiedNoreplace_plain _ _ _ _

theorem promoteToReady_plain (src : Dir) (shard name : Name) (common : CommonFields) :
    (promoteToReady src shard name common).Asks Act.isPlain :=
  .bind asks_memory fun _ => .bind (asks_ofExcept _) fun _ =>
    .bind (.mapErr (looking_plain _)) fun _ => moveVerifiedNoreplace_plain _ _ _ _

theorem quarantineAttempts_plain (src : Dir) (name : Name) (reason : QuarantineReason)
    (quarantine : Dir) (limit left : Nat) :
    (quarantineAttempts src name reason quarantine limit left).Asks Act.isPlain := by
  induction left with
  | zero => exact asks_throw _
  | succ left ih =>
    refine .bind (.mapErr (asks_call trivial)) fun id => ?_
    refine .bind (.attempt (moveVerifiedNoreplace_plain _ _ _ _)) fun moved => ?_
    split
    · exact Task.asks_pure _
    · split
      · split <;> exact asks_throw _
      · exact ih
    · exact asks_throw _

theorem publishQuarantineObjectWithIds_plain (src : Dir) (name : Name) (reason : QuarantineReason)
    (attempts : Nat) :
    (publishQuarantineObjectWithIds src name reason attempts).Asks Act.isPlain :=
  Task.asks_ite (asks_throw _) (.bind (.mapErr (ensureDir_plain _)) fun _ =>
    .bind (.mapErr (looking_plain _)) fun _ => quarantineAttempts_plain _ _ _ _ _ _)

/-! ## 3. The pass -/

section Pass

variable {c : PassContext}

/-- Nothing is asked of a pass between two calls. -/
abbrev Anytime (_ : Pass) (_ : Option Sight) : Prop := True

theorem anytime_tolerant : Tolerant sight .none Anytime where
  look := fun _ _ _ _ => ⟨fun _ _ => trivial, fun _ _ => trivial⟩
  stats := fun _ _ _ _ h => h
  cursor := fun _ _ _ _ h => h
  saved := fun _ _ _ _ => trivial
  known := fun _ _ _ _ _ => trivial
  resumed := fun _ _ _ _ _ => trivial
  closed := CursorFacts.none_closed

/-- Code that replaces nothing outside `control` forgets no file. -/
theorem onHandle_knows {m : QueueM ε α} (hm : m.Asks Act.isPlain) (i : Ino) :
    (onHandle m).Preserves sight fun _ t => Knows i t := by
  have hall : m.Preserves sight fun _ t => Knows i t :=
    hm.preserves (f := fun _ => ()) (fun _ => Task.always_of_forall fun _ => rfl)
      (fun _ _ _ _ h => h) fun a ha _ t ht => ⟨ha.allow t, fun r _ => ht.next a r⟩
  exact fun p t ht => meets_zoom.mpr (meets_attempt.mpr (hall p.handle t ht))

theorem onHandle_plain {m : QueueM ε α} (hm : m.Asks Act.isPlain) :
    (onHandle m).Preserves sight Anytime := by
  have hall : m.Preserves sight fun _ _ => True :=
    hm.preserves (f := fun _ => ()) (fun _ => Task.always_of_forall fun _ => rfl)
      (fun _ _ _ _ h => h) fun a ha _ t _ => ⟨ha.allow t, fun _ _ => trivial⟩
  exact fun p t _ => meets_zoom.mpr (meets_attempt.mpr (hall p.handle t trivial))

theorem spends_plain {m : QueueM ε α} (hm : m.Asks Act.isPlain) : Spends sight c Anytime m :=
  fun p t _ _ => onHandle_plain hm p.counted t trivial

/-- The discipline as it watches looks. -/
abbrev sightLook : Discipline Look.Resp (Option Sight) :=
  Task.pull sight Act.look fun _ r => r

theorem looks_know (i : Ino) (m : LookM ε α) : m.Preserves sightLook fun _ t => Knows i t :=
  Task.preserves_all m fun l _ ht => ⟨fun _ _ => trivial, fun r _ => ht.next (.look l) r⟩

/-- A verified receipt is a regular file whose status was taken. -/
theorem verifyReceiptOnFd_knows (file : Ino) (context : ReceiptContext)
    (expected : Option ExpectedReceipt) (h : Handle) (t : Option Sight) :
    (verifyReceiptOnFd file context expected).Keeps sightLook h t (fun _ _ => True)
      fun receipt _ t' => Knows receipt.inode t' := by
  have hstat : (Task.mapErr (fun e => .io e.text) (fstat file) :
      LookM VerificationError Stat).Keeps sightLook h t (fun _ _ => True)
      fun stat _ t' => stat.ino = file ∧ (stat.kind = .regular → Knows file t') := by
    refine .mapErr ⟨fun _ _ => trivial, fun r hr => ⟨trivial, fun stat hstat => ?_⟩⟩
    cases hstat
    refine ⟨hr.1, fun hkind s hs => ?_⟩
    obtain ⟨s₀, -, rfl⟩ := Option.map_eq_some_iff.mp hs
    simp only [Sight.next, if_pos hkind]
    exact List.mem_cons_self
  refine Task.keeps_memory (.bind hstat fun stat h₁ t₁ _ hknows => ?_)
  obtain ⟨hino, hknows⟩ := hknows
  refine keeps_ite (fun _ => keeps_throw trivial) fun hkind => ?_
  refine keeps_ite (fun _ => keeps_throw trivial) fun _ => ?_
  refine Task.keeps_ofExcept trivial fun name _ => ?_
  refine keeps_ite (fun _ => keeps_throw trivial) fun _ => ?_
  refine .bind (J := fun _ _ t' => Knows file t') (Task.Meets.mono
    (looks_know file _ h₁ t₁ (hknows (not_not.mp hkind))) fun _ _ _ hk => ⟨trivial, fun _ _ => hk⟩)
    fun kind h₂ t₂ _ hk => ?_
  exact Task.keeps_pure trivial (hino.symm ▸ hk)

theorem lookHandle_sees {m : LookM ε α} {p : Pass} {t : Option Sight}
    {K : Except ε α → Option Sight → Prop}
    (hm : m.Meets sightLook p.handle t fun r _ t' => K r t') :
    (lookHandle m).Keeps sight p t Anytime fun r p' t' => p' = p ∧ K r t' := by
  refine meets_zoom.mpr (meets_attempt.mpr (Task.meets_pull (fun _ _ => rfl) ?_))
  exact Task.Meets.mono hm fun r _ t' hr => ⟨trivial, fun _ hx => by cases hx; exact ⟨rfl, hr⟩⟩

/-- The receipts a pass works on are files it knows. -/
theorem sight_condemns : Condemns sight Anytime (fun _ _ _ => True)
    fun t _ _ receipt => Knows receipt.inode t where
  unparsedLease := fun _ _ _ _ _ => trivial
  unparsedDelayed := fun _ _ _ _ _ => trivial
  unparsedReceipt := fun _ _ _ _ _ => trivial
  active := fun _ _ => Task.Meets.mono (lookHandle_keeps anytime_tolerant.toBooks _ trivial)
    fun _ _ _ hr => ⟨hr.1, fun a ha => ⟨hr.2 a ha, fun _ _ => trivial⟩⟩
  receipts := by
    intro dir bucket shard entry p t _ _
    refine Task.Meets.mono (lookHandle_keeps anytime_tolerant.toBooks _ trivial)
      fun opened p₁ t₁ h₁ => ⟨trivial, fun r hr => ?_⟩
    obtain rfl := h₁.2 r hr
    refine ⟨rfl, fun file _ => ?_⟩
    have hstats := (onHandle_plain (asks_call trivial : (tryOfdWriteLock (.file file)).Asks
      Act.isPlain)).fixes (P := fun s => s = p₁.stats) (onHandle_fixes (f := Pass.stats)
        (fun _ _ => rfl) _)
    refine Task.Meets.mono (hstats p₁ t₁ ⟨trivial, rfl⟩) fun _ p₂ t₂ h₂ =>
      ⟨trivial, fun _ _ => ⟨h₂.2, ?_⟩⟩
    refine Task.Meets.mono (lookHandle_sees (verifyReceiptOnFd_knows file _ none p₂.handle t₂)) ?_
    rintro r p₃ t₃ ⟨-, hr⟩
    refine ⟨trivial, fun a ha => ?_⟩
    obtain ⟨rfl, -, hknows⟩ := hr a ha
    exact ⟨rfl, hknows, fun _ _ _ _ => trivial⟩

/-- The name that is replaced was seen right before. -/
theorem replaceVerified_sees (dir : Dir) (tmp name : Name) (receipt : VerifiedReceipt) (p : Pass)
    {t : Option Sight} (ht : Knows receipt.inode t) :
    (onHandle (replaceVerified dir tmp name (some ⟨receipt.device, receipt.inode⟩))).Meets sight p t
      fun _ _ _ => True := by
  refine meets_zoom.mpr (meets_attempt.mpr ?_)
  refine meets_bind.mpr (meets_mapErr.mpr ⟨fun _ _ => trivial, fun r _ => ?_⟩)
  refine then_intro (fun _ _ => trivial) fun stat hstat => ?_
  split
  · trivial
  · rename_i hsame
    have hino : stat.ino = receipt.inode := (not_not.mp hsame).2
    refine meets_bind.mpr (meets_mapErr.mpr ⟨fun s hs => .inr ?_, fun r _ => ?_⟩)
    · obtain ⟨s₀, rfl, rfl⟩ := Option.map_eq_some_iff.mp hs
      cases r with
      | error e => cases hstat
      | ok stat' =>
        cases hstat
        have hmem : stat.ino ∈ s₀.files := hino ▸ ht s₀ rfl
        simp only [Sight.next, if_pos hmem]
        exact List.mem_cons_self
    · refine then_intro (fun _ _ => trivial) fun _ _ => ?_
      exact meets_mapErr.mpr ⟨fun _ _ => trivial, fun _ _ => trivial⟩

theorem replaceByCompact_sees (dir : Dir) (entry : Name) (shardPath : Path)
    (receipt : VerifiedReceipt) (bytes : Bytes) (p : Pass) {t : Option Sight}
    (ht : Knows receipt.inode t) :
    (replaceByCompact dir entry shardPath ⟨receipt.device, receipt.inode⟩ bytes).Meets sight p t
      fun _ _ _ => True := by
  have hb : Books sight Anytime := anytime_tolerant.toBooks
  have hrecord : ∀ operation path err, (recordError operation path err).Preserves sight Anytime :=
    recordError_preserves hb
  have hcleanup : ∀ name path, (cleanupCompactionTemp dir name path).Preserves sight Anytime := by
    intro name path
    refine .bind (onHandle_plain (unlinkVerified_plain dir name)) fun removed => ?_
    split
    · exact preserves_pure _
    · exact preserves_pure _
    · exact recordUnlinkFailure_preserves hb _ _ _
  -- up to the replacement the file stays known
  have hstep : ∀ {ε α : Type} {m : QueueM ε α} {k : Except ε α → PassM Unit} {p : Pass}
      {t : Option Sight}, m.Asks Act.isPlain → Knows receipt.inode t →
      (∀ r p' t', Knows receipt.inode t' → (k r).Meets sight p' t' fun _ _ _ => True) →
      (onHandle m >>= k).Meets sight p t fun _ _ _ => True := by
    intro ε α m k p t hm ht hk
    refine meets_bind.mpr (Task.Meets.mono (onHandle_knows hm receipt.inode p t ht) ?_)
    intro r p' t' ht'
    exact then_intro (fun e => nomatch e) fun a _ => hk a p' t' ht'
  refine meets_bind.mpr (Task.meets_remember.mpr (Task.then_ok.mpr ?_))
  refine hstep (asks_call trivial) ht fun random p₁ t₁ ht₁ => ?_
  split
  · exact hrecord _ _ _ p₁ t₁ trivial
  · refine hstep (asks_call trivial) ht₁ fun created p₂ t₂ ht₂ => ?_
    split
    · exact hrecord _ _ _ p₂ t₂ trivial
    · refine hstep (asks_call trivial) ht₂ fun written p₃ t₃ ht₃ => ?_
      split
      · exact (Task.Preserves.bind (hrecord _ _ _) fun _ => hcleanup _ _) p₃ t₃ trivial
      · refine hstep (asks_call trivial) ht₃ fun synced p₄ t₄ ht₄ => ?_
        split
        · exact (Task.Preserves.bind (hrecord _ _ _) fun _ => hcleanup _ _) p₄ t₄ trivial
        · refine meets_bind.mpr (Task.Meets.mono (replaceVerified_sees dir _ entry receipt p₄
            ht₄) fun r p₅ t₅ _ => then_intro (fun e => nomatch e) fun replaced _ => ?_)
          split
          · trivial
          · refine (Task.Preserves.bind (recordReplaceFailure_preserves hb _ _ _) fun _ => ?_) p₅ t₅
              trivial
            split
            · exact hcleanup _ _
            · exact preserves_pure _

theorem quarantineRecoveryObject_sees (src : Dir) (name : Name) (path : Path)
    (reason : QuarantineReason) :
    (quarantineRecoveryObject c src name path reason).Preserves sight Anytime := by
  have hb : Books sight Anytime := anytime_tolerant.toBooks
  have hstats : ∀ k : RecoveryStats → RecoveryStats, (onStats k).Preserves sight Anytime :=
    fun k => Task.preserves_remember fun _ _ h => h
  refine .bind Task.preserves_memory fun p => ?_
  dsimp only
  split
  · exact .bind (hstats _) fun _ => preserves_pure _
  · refine .bind (onHandle_plain (publishQuarantineObjectWithIds_plain _ _ _ _)) fun result =>
      .bind (hstats _) fun _ => ?_
    split
    · exact .bind (hstats _) fun _ => preserves_pure _
    · exact .bind (recordError_preserves hb _ _ _) fun _ => .bind (hstats _) fun _ =>
        preserves_pure _
    · exact .bind (recordError_preserves hb _ _ _) fun _ => preserves_pure _

theorem sight_works : Works sight c Anytime (fun _ _ _ => True)
    fun t _ _ receipt => Knows receipt.inode t where
  condemns := sight_condemns
  quarantine := fun src name path reason p t _ _ =>
    quarantineRecoveryObject_sees src name path reason p t trivial
  removes := fun parent name _ => spends_plain (removeEmptyDirectoryVerified_plain parent name)
  unlinks := fun dir name _ => spends_plain (unlinkVerified_plain dir name)
  reaps := fun dir entry _ _ _ _ _ _ => spends_plain (reapToReady_plain dir _ entry _)
  reapsColocated := fun dir entry _ _ _ _ _ _ =>
    spends_plain (reapColocatedToReady_plain dir entry _)
  buries := fun dir entry _ reason floor _ _ =>
    spends_plain (reapToDead_plain dir entry _ reason floor)
  promotes := fun dir _ shard entry _ _ _ =>
    spends_plain (promoteToReady_plain dir shard entry _)
  compacts := fun dir _ _ entry receipt _ _ p _ _ _ _ hknows _ _ =>
    replaceByCompact_sees dir entry _ receipt _ p hknows
  locks := fun _ => onHandle_plain (asks_call trivial)
  unlocks := fun _ => onHandle_plain (asks_call trivial)

theorem sight_around (codec : CursorCodec) : Around sight codec Anytime where
  lock := onHandle_plain (acquireRecoveryLock_free.mono fun _ => Act.isFree.plain)
  unlock := onHandle_plain (asks_call trivial)
  sweep := fun control name _ _ => onHandle_plain (unlinkVerified_plain control name)
  load := fun _ _ _ => Task.Meets.mono (lookHandle_keeps anytime_tolerant.toBooks _ trivial)
    fun _ _ _ _ => ⟨trivial, fun _ _ _ _ => trivial⟩
  floor := onHandle_plain (markedFloor_free.mono fun _ => Act.isFree.plain)
  persist := onHandle_plain ((persistRecoveryCursor_free codec).mono fun _ => Act.isFree.plain)

/-- **A recovery pass replaces only receipts it has seen.** -/
theorem recover_sees {codec : CursorCodec} {budget : WorkBudget} {scan : RecoveryScanBudget}
    (h : Handle) (t : Option Sight) :
    (recoverWithScanBudget codec budget scan).Meets sight h t fun _ _ _ => True := by
  have hb : Books sight Anytime := anytime_tolerant.toBooks
  have hpass : (recoverPass codec budget scan).Preserves sight Anytime :=
    recoverPass_preserves hb (sight_around codec) fun _ =>
      recoverLocked_preserves anytime_tolerant (sight_around codec) fun c _ _ =>
        ⟨reads_of_scanFree hb (fun _ _ _ h => h) fun _ _ _ _ _ _ => trivial,
          streams_of_scanFree hb (fun _ _ _ h => h) fun _ _ _ _ _ _ _ => trivial, sight_works⟩
  exact Task.Meets.mono (recoverWithScanBudget_meets hpass trivial) fun _ _ _ _ => trivial

end Pass

/-- Every operation replaces outside `control` only what it has seen, if it is watched at all. -/
theorem Op.follows_sight (codec : CursorCodec) (op : Op) (h : Handle) :
    (op.program codec h).Follows sight (fun _ _ => True) (Sight.enter op h) := by
  by_cases hop : op.recovers = true
  · refine Op.meets_program ?_
    cases op with
    | recover budget scan =>
      exact Task.meets_map.mpr (Task.Meets.mono (recover_sees h _) fun _ _ _ _ _ _ => trivial)
    | _ => cases hop
  · have hunwatched : ∀ (p : Prog Act.Resp (OpResult × Handle)),
        p.Follows sight (fun _ _ => True) none := by
      intro p
      induction p with
      | ret x => trivial
      | act a k ih => exact ⟨nofun, fun r _ => ih r⟩
    rw [Sight.enter, if_neg hop]
    exact hunwatched _

end SteadQ
