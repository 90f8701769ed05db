/-
  File:      SteadQ/Spending.lean
  Subject:   THE OPERATION BUDGET OF A RECOVERY PASS IS A HARD BOUND.

  Every rename of a job or a receipt, every replacement of a receipt, every removal of a receipt,
  of a stale temporary file and of a directory is a call of the record (`changes` counts them).
  A call is counted in the statistics before it is made, so at every moment of a pass

      changes made  ≤  operations attempted  ≤  operations allowed

  (`Balanced`). Quarantine makes several attempts for one object and counts them afterwards; the
  number of attempts it may make is what is left of the budget (`quarantineAttempts_costs`).
-/
import SteadQ.Recovery.Control
import SteadQ.Recovery.Keep
import SteadQ.Scan

namespace SteadQ

open Octet Interact
open Interact.Task (asks_memory asks_ofExcept meets_attempt meets_bind meets_mapErr meets_zoom
  preserves_pure then_error then_intro then_ok)

/-! ## 1. What is counted -/

/-- The file was created before, by the same pass. -/
def createdIn (past : Log Act.Resp) (dir : Dir) (name : Name) : Bool :=
  past.any fun
    | ⟨.createExclusive d n, .ok _⟩ => d = dir ∧ n = name
    | _ => false

/-- A call that changes the objects of the queue. Files in `control` are none of them, nor is a
    temporary file the pass itself has created. -/
def Act.changes (past : Log Act.Resp) : Act → Bool
  | .renameNoreplace .. => true
  | .unlinkatDir .. => true
  | .renameat src _ _ _ => src.path ≠ controlPath
  | .unlinkat dir name => dir.path ≠ controlPath ∧ ¬ createdIn past dir name
  | _ => false

/-- How many calls of a record changed the objects of the queue. -/
def changes : Log Act.Resp → Nat
  | [] => 0
  | e :: past => (if e.1.changes past then 1 else 0) + changes past

theorem Act.isFree.changes {a : Act} (h : a.isFree) (past : Log Act.Resp) :
    a.changes past = false := by
  cases a <;> first | exact h.elim | rfl | simp_all [Act.isFree, Act.changes]

/-- Every call is admitted and recorded. -/
abbrev recording : Discipline Act.Resp (Log Act.Resp) := recorder fun _ _ _ => True

/-! ## 2. What code costs -/

/-- Behind the code the record is longer, by at most `n` changes. -/
def Costs {ε α : Type} (n : Nat) (m : QueueM ε α) : Prop :=
  ∀ h t, m.Meets recording h t fun _ _ t' => t <:+ t' ∧ changes t' ≤ changes t + n

section Costs

variable {ε ε' α β : Type} {n k : Nat}

theorem costs_call {a : Act} {f : a.Resp → Except ε α} : Costs 1 (Task.call a f : QueueM ε α) := by
  refine fun h t => ⟨trivial, fun r _ => ⟨List.suffix_cons _ _, ?_⟩⟩
  show (if a.changes t then 1 else 0) + changes t ≤ changes t + 1
  split <;> omega

theorem costs_free {m : QueueM ε α} (hm : m.Asks Act.isFree) : Costs 0 m := by
  have key : ∀ (p : Prog Act.Resp (Except ε α × Handle)) (t : Log Act.Resp),
      p.Follows (Task.only Act.isFree) (fun _ _ => True) () →
      p.Follows recording (fun _ t' => t <:+ t' ∧ changes t' ≤ changes t + 0) t := by
    intro p
    induction p with
    | ret x => exact fun t _ => ⟨List.suffix_rfl, Nat.le_refl _⟩
    | act a k ih =>
      intro t hp
      refine ⟨trivial, fun r _ => ?_⟩
      refine Prog.Follows.mono (ih r (⟨a, r⟩ :: t) (hp.2 r trivial)) ?_
      rintro _ t' ⟨hsuffix, hle⟩
      refine ⟨(List.suffix_cons _ _).trans hsuffix, hle.trans ?_⟩
      show (if a.changes t then 1 else 0) + changes t + 0 ≤ _
      rw [hp.1.changes t]
      simp
  exact fun h t => key _ t (hm h)

theorem Costs.bind {m : QueueM ε α} {f : α → QueueM ε β} (hm : Costs n m)
    (hf : ∀ a, Costs k (f a)) : Costs (n + k) (m >>= f) := by
  intro h t
  refine meets_bind.mpr (Task.Meets.mono (hm h t) ?_)
  rintro r h₁ t₁ ⟨hsuffix, hle⟩
  refine then_intro (fun _ _ => ⟨hsuffix, by omega⟩) fun a _ => ?_
  refine Task.Meets.mono (hf a h₁ t₁) ?_
  rintro _ _ t₂ ⟨hsuffix', hle'⟩
  exact ⟨hsuffix.trans hsuffix', by omega⟩

theorem Costs.mapErr {m : QueueM ε' α} {f : ε' → ε} (hm : Costs n m) : Costs n (Task.mapErr f m) :=
  fun h t => meets_mapErr.mpr (hm h t)

theorem unlinkVerified_costs (dir : Dir) (name : Name) : Costs 1 (unlinkVerified dir name) :=
  .bind (k := 0) (.mapErr costs_call) fun _ => costs_free (.mapErr (fsyncDirFd_free _))

theorem removeEmptyDirectoryVerified_costs (parent : Dir) (name : Name) :
    Costs 1 (removeEmptyDirectoryVerified parent name) :=
  .bind (k := 0) (.mapErr costs_call) fun _ => costs_free (.mapErr (fsyncDirFd_free _))

theorem moveVerifiedNoreplace_costs (src : Dir) (srcName : Name) (dst : Dir) (dstName : Name) :
    Costs 1 (moveVerifiedNoreplace src srcName dst dstName) :=
  .bind (k := 0) (.mapErr costs_call) fun _ => costs_free
    (.bind (.mapErr (fsyncDirFd_free _)) fun _ => .mapErr (fsyncDirFd_free _))

/-- In front of the change everything is free. -/
theorem Costs.after {m : QueueM ε α} {f : α → QueueM ε β} (hm : m.Asks Act.isFree)
    (hf : ∀ a, Costs n (f a)) : Costs n (m >>= f) := by
  have h := Costs.bind (costs_free hm) hf
  rwa [Nat.zero_add] at h

theorem reapToReady_costs (src : Dir) (shard : UInt32) (name : Name) (common : CommonFields) :
    Costs 1 (reapToReady src shard name common) :=
  .after asks_memory fun _ => .after (asks_ofExcept _) fun _ =>
    .after (.mapErr (liftLook_free _)) fun _ => moveVerifiedNoreplace_costs _ _ _ _

theorem reapColocatedToReady_costs (dir : Dir) (name : Name) (common : CommonFields) :
    Costs 1 (reapColocatedToReady dir name common) :=
  .after asks_memory fun _ => .after (asks_ofExcept _) fun _ =>
    moveVerifiedNoreplace_costs _ _ _ _

theorem reapToDead_costs (src : Dir) (name : Name) (common : CommonFields) (reason : DeadReason)
    (floor : WallFloor) : Costs 1 (reapToDead src name common reason floor) :=
  .after asks_memory fun _ => .after (Task.asks_ofOption _ _) fun _ =>
    .after (asks_ofExcept _) fun _ => .after (.mapErr (ensureDir_free _)) fun _ =>
      .after (.mapErr (liftLook_free _)) fun _ => moveVerifiedNoreplace_costs _ _ _ _

theorem promoteToReady_costs (src : Dir) (shard name : Name) (common : CommonFields) :
    Costs 1 (promoteToReady src shard name common) :=
  .after asks_memory fun _ => .after (asks_ofExcept _) fun _ =>
    .after (.mapErr (liftLook_free _)) fun _ => moveVerifiedNoreplace_costs _ _ _ _

end Costs

/-! ## 3. Quarantine -/

/-- The attempts an outcome reports. -/
def consumedBy : Except QuarantinePublishFailure QuarantinePublication → Nat
  | .ok publication => publication.attemptsConsumed
  | .error failure => failure.attemptsConsumed

section Quarantine

/-- The attempts made here and before are the ones reported, and there are at most `limit`. -/
theorem quarantineAttempts_costs (src : Dir) (filename : Name) (reason : QuarantineReason)
    (quarantine : Dir) {limit left : Nat} (hpos : left ≠ 0) (hleft : left ≤ limit) (h : Handle)
    (t : Log Act.Resp) :
    (quarantineAttempts src filename reason quarantine limit left).Meets recording h t fun r _ t' =>
      changes t' + (limit - left) ≤ changes t + consumedBy r ∧ consumedBy r ≤ limit := by
  induction left generalizing h t with
  | zero => exact absurd rfl hpos
  | succ left ih =>
    refine meets_bind.mpr (meets_mapErr.mpr
      (Task.Meets.mono (costs_free random128bit_free h t) ?_))
    rintro drawn h₁ t₁ ⟨-, hdrawn⟩
    cases drawn with
    | error e =>
      -- the attempts before this one are reported
      refine then_error.mpr ⟨?_, ?_⟩
      · show changes t₁ + (limit - (left + 1)) ≤ changes t + (limit - left - 1)
        omega
      · show limit - left - 1 ≤ limit
        omega
    | ok id =>
      refine then_ok.mpr (meets_bind.mpr (meets_attempt.mpr (Task.Meets.mono
        (moveVerifiedNoreplace_costs _ _ _ _ h₁ t₁) ?_)))
      rintro moved h₂ t₂ ⟨-, hmoved⟩
      refine then_ok.mpr ?_
      -- this attempt is over, with or without success
      have hdone : changes t₂ + (limit - (left + 1)) ≤ changes t + (limit - left) ∧
          limit - left ≤ limit := ⟨by omega, Nat.sub_le _ _⟩
      split
      · exact hdone
      · split
        · split <;> exact hdone
        · refine Task.Meets.mono (ih ‹_› (by omega) h₂ t₂) ?_
          rintro r _ t₃ ⟨hle, hlimit⟩
          exact ⟨by omega, hlimit⟩
      · exact hdone

theorem publishQuarantineObjectWithIds_costs (src : Dir) (filename : Name)
    (reason : QuarantineReason) (maxMoveAttempts : Nat) (h : Handle) (t : Log Act.Resp) :
    (publishQuarantineObjectWithIds src filename reason maxMoveAttempts).Meets recording h t
      fun r _ t' => changes t' ≤ changes t + consumedBy r ∧ consumedBy r ≤ maxMoveAttempts := by
  have hnothing : ∀ phase source t', changes t' ≤ changes t + 0 →
      changes t' ≤ changes t + consumedBy (.error (.preparation phase source 0)) ∧
        consumedBy (.error (.preparation phase source 0)) ≤ maxMoveAttempts :=
    fun _ _ _ ht' => ⟨ht', Nat.zero_le _⟩
  unfold publishQuarantineObjectWithIds
  dsimp only
  split
  · exact hnothing _ _ t (Nat.le_refl _)
  · rename_i hlimit
    refine meets_bind.mpr (meets_mapErr.mpr
      (Task.Meets.mono (costs_free (ensureDir_free _) h t) ?_))
    rintro ensured h₁ t₁ ⟨-, hensured⟩
    cases ensured with
    | error e => exact then_error.mpr (hnothing _ e t₁ hensured)
    | ok _ =>
      refine then_ok.mpr (meets_bind.mpr (meets_mapErr.mpr
        (Task.Meets.mono (costs_free (liftLook_free _) h₁ t₁) ?_)))
      rintro opened h₂ t₂ ⟨-, hopened⟩
      cases opened with
      | error e => exact then_error.mpr (hnothing _ e t₂ (by omega))
      | ok quarantine =>
        refine then_ok.mpr (Task.Meets.mono
          (quarantineAttempts_costs src filename reason quarantine hlimit (Nat.le_refl _) h₂ t₂) ?_)
        rintro r _ t₃ ⟨hle, hmost⟩
        exact ⟨by omega, hmost.trans (Nat.min_le_left _ _)⟩

end Quarantine

/-! ## 4. The account -/

/-- The changes so far and `n` more are counted, and what is counted was allowed. -/
def Spare (budget : WorkBudget) (n : Nat) (p : Pass) (t : Log Act.Resp) : Prop :=
  changes t + n ≤ p.stats.operationsAttempted ∧
    p.stats.operationsAttempted ≤ budget.maxOperations.toNat

abbrev Balanced (budget : WorkBudget) : Pass → Log Act.Resp → Prop := Spare budget 0

/-- The pass has created the file. -/
def Created (budget : WorkBudget) (n : Nat) (dir : Dir) (name : Name) (p : Pass) (t : Log Act.Resp) :
    Prop := Spare budget n p t ∧ createdIn t dir name = true

section Account

variable {ε α : Type} {budget : WorkBudget} {c : PassContext} {n k : Nat} {dir : Dir} {name : Name}

theorem createdIn_suffix {t t' : Log Act.Resp} (h : t <:+ t') (hc : createdIn t dir name = true) :
    createdIn t' dir name = true := by
  obtain ⟨newer, rfl⟩ := h
  simp only [createdIn, List.any_append] at hc ⊢
  rw [hc, Bool.or_true]

theorem onHandle_costs {m : QueueM ε α} (hm : Costs n m) (p : Pass) (t : Log Act.Resp) :
    (onHandle m).Meets recording p t fun _ p' t' =>
      p'.stats = p.stats ∧ t <:+ t' ∧ changes t' ≤ changes t + n :=
  meets_zoom.mpr (meets_attempt.mpr
    (Task.Meets.mono (hm p.handle t) fun _ _ _ h => ⟨rfl, h⟩))

theorem Spare.after {p p' : Pass} {t t' : Log Act.Resp} (h : Spare budget (n + k) p t)
    (hstats : p'.stats = p.stats) (hle : changes t' ≤ changes t + k) : Spare budget n p' t' := by
  obtain ⟨hcounted, hallowed⟩ := h
  unfold Spare
  rw [hstats]
  exact ⟨by omega, hallowed⟩

theorem onHandle_spare {m : QueueM ε α} (hm : Costs k m) :
    (onHandle m).Brings recording (Spare budget (n + k)) (Spare budget n) := by
  intro p t h
  refine Task.Meets.mono (onHandle_costs hm p t) ?_
  rintro _ p' t' ⟨hstats, -, hle⟩
  exact h.after hstats hle

theorem onHandle_owns {m : QueueM ε α} (hm : Costs k m) :
    (onHandle m).Brings recording (Created budget (n + k) dir name) (Created budget n dir name) := by
  rintro p t ⟨h, hcreated⟩
  refine Task.Meets.mono (onHandle_costs hm p t) ?_
  rintro _ p' t' ⟨hstats, hsuffix, hle⟩
  exact ⟨h.after hstats hle, createdIn_suffix hsuffix hcreated⟩

theorem onHandle_free {m : QueueM ε α} (hm : m.Asks Act.isFree) :
    (onHandle m).Preserves recording (Balanced budget) := onHandle_spare (costs_free hm)

theorem spends_of_costs {m : QueueM ε α} (hm : Costs 1 m) : Spends recording c (Balanced c.budget) m := by
  rintro p t ⟨hcounted, -⟩ hroom
  exact onHandle_spare hm p.counted t ⟨Nat.succ_le_succ hcounted, hroom⟩

theorem spent_tolerant : Tolerant recording .none (Balanced budget) where
  look := by
    refine fun l p t h => ⟨trivial, fun r _ => ?_⟩
    exact h.after (k := 0) rfl (Nat.le_of_eq (Nat.zero_add _))
  stats := by
    rintro s p t hs ⟨hcounted, hallowed⟩
    exact ⟨hs ▸ hcounted, hs ▸ hallowed⟩
  cursor := fun _ _ _ _ h => h
  saved := fun _ _ _ _ => trivial
  known := fun _ _ _ _ _ => trivial
  resumed := fun _ _ _ _ _ => trivial
  closed := CursorFacts.none_closed

/-! The changes, one by one. -/

theorem quarantineRecoveryObject_spent (src : Dir) (name : Name) (path : Path)
    (reason : QuarantineReason) :
    (quarantineRecoveryObject c src name path reason).Preserves recording (Balanced c.budget) := by
  have hb : Books recording (Balanced c.budget) := spent_tolerant.toBooks
  rintro p t ⟨hcounted, hallowed⟩
  refine meets_bind.mpr (Task.meets_memory.mpr (then_ok.mpr ?_))
  dsimp only
  split
  · exact (Task.Preserves.bind (exhaust_preserves hb) fun _ => preserves_pure _) p t
      ⟨hcounted, hallowed⟩
  · refine meets_bind.mpr (meets_zoom.mpr (meets_attempt.mpr (Task.Meets.mono
      (publishQuarantineObjectWithIds_costs src name reason _ p.handle t) ?_)))
    rintro result h₁ t₁ ⟨hle, hmost⟩
    refine then_ok.mpr (meets_bind.mpr (Task.meets_remember.mpr (then_ok.mpr ?_)))
    have hspent : ∀ consumed, consumed = consumedBy result → Balanced c.budget
        ((withHandle p h₁).withStats
          { p.stats with operationsAttempted := p.stats.operationsAttempted + consumed }) t₁ := by
      rintro _ rfl
      refine ⟨?_, ?_⟩
      · show changes t₁ + 0 ≤ p.stats.operationsAttempted + consumedBy result
        omega
      · show p.stats.operationsAttempted + consumedBy result ≤ c.budget.maxOperations.toNat
        omega
    cases result with
    | ok publication =>
      refine (?_ : Task.Preserves recording (Balanced c.budget) _) _ t₁ (hspent _ rfl)
      exact .bind (onStats_preserves hb fun _ => by rfl) fun _ => preserves_pure _
    | error failure =>
      refine (?_ : Task.Preserves recording (Balanced c.budget) _) _ t₁ (hspent _ rfl)
      cases failure with
      | budgetExhausted attempts id last =>
        exact .bind (recordError_preserves hb _ _ _) fun _ => .bind (exhaust_preserves hb) fun _ =>
          preserves_pure _
      | preparation phase source attempts =>
        exact .bind (recordError_preserves hb _ _ _) fun _ => preserves_pure _
      | move id last failure attempts =>
        exact .bind (recordError_preserves hb _ _ _) fun _ => preserves_pure _
      | collisionExhausted attempts id last =>
        exact .bind (recordError_preserves hb _ _ _) fun _ => preserves_pure _

/-- Removing a file of its own costs a pass nothing. -/
theorem cleanupCompactionTemp_spent (path : Path) :
    (cleanupCompactionTemp dir name path).Brings recording (Created budget 0 dir name)
      (Balanced budget) := by
  have hb : Books recording (Balanced budget) := spent_tolerant.toBooks
  have hunlink : (onHandle (unlinkVerified dir name)).Brings recording (Created budget 0 dir name)
      (Balanced budget) := by
    rintro p t ⟨h, hcreated⟩
    refine meets_zoom.mpr (meets_attempt.mpr (meets_bind.mpr
      (meets_mapErr.mpr ⟨trivial, fun r _ => ?_⟩)))
    have hsame : changes (⟨.unlinkat dir name, r⟩ :: t) = changes t := by
      simp [changes, Act.changes, hcreated]
    have h₁ : Balanced budget (withHandle p p.handle) (⟨.unlinkat dir name, r⟩ :: t) :=
      h.after (k := 0) rfl (Nat.le_of_eq hsame)
    refine then_intro (fun _ _ => h₁) fun _ _ => ?_
    refine Task.Meets.mono (costs_free (.mapErr (fsyncDirFd_free _)) _ _) ?_
    rintro _ h₂ t₂ ⟨-, hle⟩
    exact h₁.after (k := 0) rfl hle
  refine .bind hunlink (fun _ _ h => h) fun removed => ?_
  split
  · exact preserves_pure _
  · exact preserves_pure _
  · exact recordUnlinkFailure_preserves hb _ _ _

theorem createExclusive_owns {p : Pass} {t : Log Act.Resp} (h : Spare budget n p t) :
    (onHandle (createExclusive dir name)).Meets recording p t fun r p' t' =>
      Spare budget n p' t' ∧ ∀ file, r = .ok (.ok file) → Created budget n dir name p' t' := by
  refine meets_zoom.mpr (meets_attempt.mpr ⟨trivial, fun r _ => ?_⟩)
  have hspare : Spare budget n (withHandle p p.handle) (⟨.createExclusive dir name, r⟩ :: t) :=
    h.after (k := 0) rfl (Nat.le_of_eq (Nat.zero_add _))
  refine ⟨hspare, fun file hr => ⟨hspare, ?_⟩⟩
  cases hr
  show createdIn (⟨.createExclusive dir name, .ok file⟩ :: t) dir name = true
  simp [createdIn]

theorem replaceVerified_costs (dir : Dir) (srcName dstName : Name) (identity : MoveIdentity) :
    Costs 1 (replaceVerified dir srcName dstName (some identity)) := by
  refine .after (.mapErr (liftLook_free _)) fun stat => ?_
  have hrename : ∀ (refused : IoError → ReplaceFailure) (u : PUnit), Costs 1 ((do
      Task.mapErr refused (renameat dir srcName dir dstName)
      Task.mapErr (.outcomeUnknown .destinationFsync) (fsyncDirFd dir)) :
      QueueM ReplaceFailure Unit) :=
    fun _ _ => .bind (k := 0) (.mapErr costs_call) fun _ =>
      costs_free (.mapErr (fsyncDirFd_free _))
  split
  · exact .after (Task.asks_throw _) (hrename _)
  · exact hrename _ ⟨⟩

/-- A replacement is counted before its temporary file is created. -/
theorem replaceByCompact_spent (dir : Dir) (entry : Name) (shardPath : Path)
    (identity : MoveIdentity) (bytes : Bytes) :
    (replaceByCompact dir entry shardPath identity bytes).Brings recording
      (Room c (Balanced c.budget)) (Balanced c.budget) := by
  have hb : Books recording (Balanced c.budget) := spent_tolerant.toBooks
  rintro p t ⟨⟨hcounted, -⟩, hroom⟩
  have h₁ : Spare c.budget 1 p.counted t := ⟨Nat.succ_le_succ hcounted, hroom⟩
  refine meets_bind.mpr (Task.meets_remember.mpr (then_ok.mpr ?_))
  have hless : ∀ q u, Spare c.budget 1 q u → Balanced c.budget q u :=
    fun q u h => h.after (k := 1) rfl (Nat.le_succ _)
  refine (?_ : Task.Brings recording (Spare c.budget 1) (Balanced c.budget) _) _ t h₁
  refine Task.Brings.bind (onHandle_spare (costs_free random128bit_free)) hless fun drawn => ?_
  split
  · exact fun q u h => recordError_preserves hb _ _ _ q u (hless q u h)
  · rename_i random
    intro q u h
    refine meets_bind.mpr (Task.Meets.mono (createExclusive_owns h) ?_)
    rintro created q₁ u₁ ⟨hspare, howns⟩
    refine then_intro (fun _ _ => hless _ _ hspare) ?_
    rintro result rfl
    split
    · exact recordError_preserves hb _ _ _ q₁ u₁ (hless _ _ hspare)
    · rename_i tmp
      have hown : ∀ q u, Created c.budget 1 dir (compactionTempName random) q u →
          Balanced c.budget q u := fun q u h => hless q u h.1
      have hclean : ∀ op path err, (recordError op path err >>= fun _ =>
          cleanupCompactionTemp dir (compactionTempName random) path).Brings recording
          (Created c.budget 1 dir (compactionTempName random)) (Balanced c.budget) := by
        rintro op path err q u ⟨h, hcreated⟩
        refine meets_bind.mpr (Task.meets_remember.mpr (then_ok.mpr ?_))
        exact cleanupCompactionTemp_spent path _ u ⟨hless q u h, hcreated⟩
      refine (?_ : Task.Brings recording (Created c.budget 1 dir (compactionTempName random))
        (Balanced c.budget) _) q₁ u₁ (howns tmp rfl)
      refine .bind (onHandle_owns (costs_free (writeAll_free _ _))) hown fun written => ?_
      split
      · exact hclean _ _ _
      · refine .bind (onHandle_owns (costs_free (fsync_free _))) hown fun synced => ?_
        split
        · exact hclean _ _ _
        · refine Task.Brings.bind (onHandle_owns (n := 0)
            (replaceVerified_costs dir _ entry identity)) (fun _ _ h => h.1) fun replaced => ?_
          split
          · exact fun q u h => onStats_preserves hb (fun _ => by rfl) q u h.1
          · rename_i failure
            rintro q u ⟨h, hcreated⟩
            have hrecord : (recordReplaceFailure "receipt_compact_replace" (shardPath ++ [entry])
                failure).Preserves recording (Created c.budget 0 dir (compactionTempName random)) := by
              have hrecorded : ∀ op path err, (recordError op path err).Preserves recording
                  (Created c.budget 0 dir (compactionTempName random)) := fun _ _ _ _ _ h => h
              cases failure <;> exact hrecorded _ _ _
            refine Task.Brings.bind hrecord (fun _ _ h => h.1) (fun _ => ?_) q u ⟨h, hcreated⟩
            split
            · exact cleanupCompactionTemp_spent _
            · exact fun _ _ h => h.1

theorem spent_works : Works recording c (Balanced c.budget) (fun _ _ _ => True)
    fun _ _ _ _ => True where
  condemns := condemns_any spent_tolerant.toBooks fun lock =>
    onHandle_free (tryOfdWriteLock_free lock)
  quarantine := fun src name path reason p t h _ =>
    quarantineRecoveryObject_spent src name path reason p t h
  removes := fun parent name _ => spends_of_costs (removeEmptyDirectoryVerified_costs parent name)
  unlinks := fun dir name _ => spends_of_costs (unlinkVerified_costs dir name)
  reaps := fun dir entry _ place _ _ _ _ =>
    spends_of_costs (reapToReady_costs dir place.shard entry _)
  reapsColocated := fun dir entry _ _ _ _ _ _ =>
    spends_of_costs (reapColocatedToReady_costs dir entry _)
  buries := fun dir entry _ reason floor _ _ =>
    spends_of_costs (reapToDead_costs dir entry _ reason floor)
  promotes := fun dir _ shard entry _ _ _ =>
    spends_of_costs (promoteToReady_costs dir shard entry _)
  compacts := fun dir _ _ entry _ _ _ p t _ _ hroom _ _ _ =>
    replaceByCompact_spent dir entry _ _ _ p t hroom
  locks := fun lock => onHandle_free (tryOfdWriteLock_free lock)
  unlocks := fun lock => onHandle_free (unlockFile_free lock)

theorem spent_around (codec : CursorCodec) : Around recording codec (Balanced budget) where
  lock := onHandle_free acquireRecoveryLock_free
  unlock := onHandle_free (unlockFile_free _)
  sweep := fun _ name hc _ => onHandle_free (unlinkVerified_free hc name)
  load := fun p t h => Task.Meets.mono (lookHandle_preserves spent_tolerant.toBooks _ p t h)
    fun _ _ _ h => ⟨h, fun _ _ _ _ => h⟩
  floor := onHandle_free markedFloor_free
  persist := onHandle_free (persistRecoveryCursor_free codec)

end Account

/-- The answers of a file system where an earlier boot has left two temporary files. -/
def littered : (a : Act) → a.Resp
  | .look (.readDir dir) => .ok <|
    match dir.path.tail with
    | [] => if dir.path = [tmpRoot] then [ascii "22222222-2222-2222-2222-222222222222"] else []
    | [_] => [ascii "0000"]
    | _ => [ascii "a.tmp", ascii "b.tmp"]
  | .look (.nextEntry ..) => .ok none
  | a => overflowing .default a

end SteadQ
