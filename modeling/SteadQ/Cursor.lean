/-
  File:      SteadQ/Cursor.lean
  Subject:   THE RECOVERY CURSOR STAYS VALID AND FITS ITS FILE.

  Whatever the trees passes walk, their budgets and the calls that fail, the cursor keeps its order
  (`Orderly`): positions are canonical directories and one entry, at most 64 directories are
  remembered, sorted, and so are the frontiers and the phases that overflowed. An orderly cursor
  is valid for the check that guards loading (`Orderly.valid`), and its text is shorter than what
  the file may hold (`Orderly.short`). So a pass never loses its progress for the size of its
  cursor, and the next one finds what this one left (`cursor_survives`).
-/
import SteadQ.Content
import SteadQ.Naming
import SteadQ.Recovery.Keep
import SteadQ.Recovery.Text
import SteadQ.Spending

namespace SteadQ

open Octet Interact

/-! ## 1. What is said of a cursor -/

/-- Canonical directories and an entry below them. -/
def SavedAt (phase : RecoveryPhase) (position : Option (List Name)) : Prop :=
  ∀ names, position = some names → ∃ dirs raw, names = dirs ++ [raw] ∧
    Canonical phase.kinds dirs ∧ cursorComponentIsValid raw = true

/-- Offsets are those of directory streams, 63 bits wide. -/
def cursorFacts : CursorFacts where
  position := SavedAt
  retry := fun r => retryDepthIsValid r = true
  raw := fun name => cursorComponentIsValid name = true
  offset := fun n => n < 2 ^ 63

theorem zip_all_canonical {kinds done : List LevelKind} {names : List Name} (hd : done <+: kinds)
    (h : Canonical done names) :
    ((kinds.zip names).all fun p => p.1.canonical p.2) = true := by
  obtain ⟨rest, rfl⟩ := hd
  induction h with
  | nil => simp
  | cons hx _ ih =>
    rw [List.cons_append, List.zip_cons_cons, List.all_cons, hx, Bool.true_and]
    exact ih

theorem cursorFacts_closed : cursorFacts.Closed where
  fresh := fun _ => nofun
  entry := by
    rintro phase names raw hc hraw _ ⟨⟩
    exact ⟨names, raw, rfl, hc, hraw⟩
  named := by
    intro phase kind names done hd hne hc
    have hlength := hc.length_eq
    have hle := hd.length_le
    have hpos := List.length_pos_iff.mpr hne
    have hall := zip_all_canonical hd hc
    show retryDepthIsValid _ = true
    simp only [retryDepthIsValid, decide_eq_true_eq]
    exact ⟨by omega, by omega, hall⟩
  start := Nat.two_pow_pos 63

/-! ## 2. Sorted lists -/

section Sorted

variable {α : Type} {lt : α → α → Bool} {a : α} {l : List α}

/-- Every value in front of another is less by a measure. -/
def Rises (f : α → Nat) (l : List α) : Prop := l.Pairwise fun x y => f x < f y

theorem mem_insertSorted {b : α} : b ∈ insertSorted lt a l ↔ b = a ∨ b ∈ l := by
  induction l with
  | nil => simp [insertSorted]
  | cons c l ih =>
    rw [insertSorted]
    split
    · simp
    · simp only [List.mem_cons, ih]
      tauto

theorem length_insertSorted : (insertSorted lt a l).length = l.length + 1 := by
  induction l with
  | nil => rfl
  | cons c l ih =>
    rw [insertSorted]
    split
    · rfl
    · rw [List.length_cons, ih, List.length_cons]

/-- Inserting keeps the order, if the value can be compared with all that is there. -/
theorem insertSorted_sorted (htrans : ∀ x y z, lt x y = true → lt y z = true → lt x z = true)
    (htotal : ∀ b ∈ l, lt a b = true ∨ lt b a = true) (h : l.Pairwise fun x y => lt x y = true) :
    (insertSorted lt a l).Pairwise fun x y => lt x y = true := by
  induction l with
  | nil => exact List.pairwise_singleton _ _
  | cons c l ih =>
    obtain ⟨hc, hl⟩ := List.pairwise_cons.mp h
    rw [insertSorted]
    split
    · rename_i hac
      refine List.pairwise_cons.mpr ⟨fun b hb => ?_, h⟩
      rcases List.mem_cons.mp hb with rfl | hb
      · exact hac
      · exact htrans a c b hac (hc b hb)
    · rename_i hac
      have hca := (htotal c List.mem_cons_self).resolve_left hac
      refine List.pairwise_cons.mpr ⟨fun b hb => ?_, ?_⟩
      · rcases mem_insertSorted.mp hb with rfl | hb
        · exact hca
        · exact hc b hb
      · exact ih (fun b hb => htotal b (List.mem_cons_of_mem _ hb)) hl

/-- The same for a measure that tells the value from all that is there. -/
theorem Rises.insert {f : α → Nat} (h : Rises f l) (hne : ∀ b ∈ l, f b ≠ f a) :
    Rises f (insertSorted (fun x y => decide (f x < f y)) a l) := by
  have hsorted : (insertSorted (fun x y => decide (f x < f y)) a l).Pairwise
      fun x y => decide (f x < f y) = true := by
    refine insertSorted_sorted ?_ ?_ (by simpa [Rises] using h)
    · intro x y z hxy hyz
      simp only [decide_eq_true_eq] at *
      omega
    · intro b hb
      have hb := hne b hb
      simp only [decide_eq_true_eq]
      omega
  simpa [Rises] using hsorted

theorem pairwiseNext_of_sorted (h : l.Pairwise fun x y => lt x y = true) :
    pairwiseNext lt l = true := by
  induction l with
  | nil => rfl
  | cons a l ih =>
    obtain ⟨ha, hl⟩ := List.pairwise_cons.mp h
    cases l with
    | nil => rfl
    | cons b l =>
      rw [pairwiseNext, ha b List.mem_cons_self, ih hl]
      rfl

end Sorted

theorem RecoveryPhase.index_injective {a b : RecoveryPhase} (h : a.index = b.index) : a = b := by
  revert h
  cases a <;> cases b <;> decide

theorem RecoveryHierarchyRetryKind.index_injective {a b : RecoveryHierarchyRetryKind}
    (h : a.index = b.index) : a = b := by
  revert h
  cases a <;> cases b <;> decide

theorem RecoveryPhase.index_lt (phase : RecoveryPhase) : phase.index < 5 := by
  cases phase <;> decide

/-- At most five values have phases in strict order. -/
theorem length_le_five {α : Type} {f : α → RecoveryPhase} {l : List α}
    (h : Rises (fun x => (f x).index) l) : l.length ≤ 5 := by
  have hsorted : (l.map fun x => (f x).index).Pairwise (· < ·) := List.pairwise_map.mpr h
  have hnodup : (l.map fun x => (f x).index).Nodup := hsorted.imp Nat.ne_of_lt
  have hsub : (l.map fun x => (f x).index) ⊆ List.range 5 := by
    intro n hn
    obtain ⟨x, -, rfl⟩ := List.mem_map.mp hn
    exact List.mem_range.mpr (f x).index_lt
  simpa using (List.subperm_of_subset hnodup hsub).length_le

theorem RecoveryHierarchyRetry.lt_iff {a b : RecoveryHierarchyRetry} :
    a.lt b = true ↔ a.phase.index < b.phase.index ∨ a.phase.index = b.phase.index ∧
      (a.kind.index < b.kind.index ∨ a.kind.index = b.kind.index ∧
        a.components < b.components) := by
  unfold RecoveryHierarchyRetry.lt
  split
  · rename_i hphase
    have hne : a.phase.index ≠ b.phase.index := fun h => hphase (RecoveryPhase.index_injective h)
    simp [hne]
  · rename_i hphase
    have hphase : a.phase = b.phase := by simpa using hphase
    split
    · rename_i hkind
      have hne : a.kind.index ≠ b.kind.index :=
        fun h => hkind (RecoveryHierarchyRetryKind.index_injective h)
      simp [hphase, hne]
    · rename_i hkind
      have hkind : a.kind = b.kind := by simpa using hkind
      simp [hphase, hkind]

theorem RecoveryHierarchyRetry.lt_trans (a b c : RecoveryHierarchyRetry) (h : a.lt b = true)
    (h' : b.lt c = true) : a.lt c = true := by
  rw [RecoveryHierarchyRetry.lt_iff] at h h' ⊢
  rcases h with h | ⟨h, h₁⟩
  · exact .inl (by omega)
  · rcases h' with h' | ⟨h', h₁'⟩
    · exact .inl (by omega)
    · refine .inr ⟨by omega, ?_⟩
      rcases h₁ with h₁ | ⟨h₁, h₂⟩
      · exact .inl (by omega)
      · rcases h₁' with h₁' | ⟨h₁', h₂'⟩
        · exact .inl (by omega)
        · exact .inr ⟨by omega, List.lt_trans h₂ h₂'⟩

theorem RecoveryHierarchyRetry.lt_total {a b : RecoveryHierarchyRetry} (h : a ≠ b) :
    a.lt b = true ∨ b.lt a = true := by
  rw [RecoveryHierarchyRetry.lt_iff, RecoveryHierarchyRetry.lt_iff]
  by_cases hphase : a.phase.index = b.phase.index
  · by_cases hkind : a.kind.index = b.kind.index
    · have hcomponents : a.components ≠ b.components := by
        intro hc
        refine h ?_
        cases a
        cases b
        cases RecoveryPhase.index_injective hphase
        cases RecoveryHierarchyRetryKind.index_injective hkind
        cases hc
        rfl
      rcases Std.lt_trichotomy a.components b.components with hlt | heq | hlt
      · exact .inl (.inr ⟨hphase, .inr ⟨hkind, hlt⟩⟩)
      · exact absurd heq hcomponents
      · exact .inr (.inr ⟨hphase.symm, .inr ⟨hkind.symm, hlt⟩⟩)
    · rcases Nat.lt_or_gt_of_ne hkind with hlt | hlt
      · exact .inl (.inr ⟨hphase, .inl hlt⟩)
      · exact .inr (.inr ⟨hphase.symm, .inl hlt⟩)
  · rcases Nat.lt_or_gt_of_ne hphase with hlt | hlt
    · exact .inl (.inl hlt)
    · exact .inr (.inl hlt)

/-! ## 3. The order of a cursor -/

structure Orderly (k : RecoveryCursor) : Prop where
  saved : ∀ phase, SavedAt phase (k.saved phase)
  retries : ∀ r ∈ k.hierarchyRetries, retryDepthIsValid r = true
  few : k.hierarchyRetries.length ≤ maxRecoveryHierarchyRetries
  sorted : k.hierarchyRetries.Pairwise fun a b => a.lt b = true
  frontiers : ∀ r ∈ k.hierarchyRetryFrontiers, retryDepthIsValid r = true
  frontiersSorted : Rises (fun r => r.phase.index) k.hierarchyRetryFrontiers
  overflowSorted : Rises RecoveryPhase.index k.hierarchyRetryOverflow
  offset : ∀ n, k.reapColocatedPosition = some n → n < 2 ^ 63

theorem orderly_default : Orderly .default where
  saved := by
    intro phase names h
    cases phase <;> cases h
  retries := nofun
  few := Nat.zero_le _
  sorted := .nil
  frontiers := nofun
  frontiersSorted := .nil
  overflowSorted := .nil
  offset := nofun

section Steps

variable {k : RecoveryCursor}

theorem saved_save_other {phase phase' : RecoveryPhase} (position : Option (List Name))
    (h : phase' ≠ phase) : (k.save phase position).saved phase' = k.saved phase' := by
  cases phase <;> cases phase' <;> first | rfl | exact absurd rfl h

/-- What is saved for a phase is read back. -/
theorem saved_save {phase : RecoveryPhase} {position : Option (List Name)}
    (h : SavedAt phase position) : (k.save phase position).saved phase = position := by
  cases position with
  | none => cases phase <;> rfl
  | some names =>
    obtain ⟨dirs, raw, rfl, hc, -⟩ := h names rfl
    have hlength := hc.length_eq.symm
    cases phase with
    | reapLeases =>
      obtain ⟨a, b, c, rfl⟩ := List.length_eq_three.mp hlength
      rfl
    | _ =>
      obtain ⟨a, b, rfl⟩ := List.length_eq_two.mp hlength
      rfl

theorem Orderly.save (h : Orderly k) {phase : RecoveryPhase} {position : Option (List Name)}
    (hp : SavedAt phase position) : Orderly (k.save phase position) := by
  have hsaved : ∀ phase', SavedAt phase' ((k.save phase position).saved phase') := by
    intro phase'
    by_cases hphase : phase' = phase
    · subst hphase
      rwa [saved_save hp]
    · rw [saved_save_other position hphase]
      exact h.saved phase'
  cases phase <;> exact { h with saved := hsaved }

/-- The ledger takes a directory it does not hold, as long as there is room. -/
theorem Orderly.insertRetry (h : Orderly k) {r : RecoveryHierarchyRetry}
    (hr : retryDepthIsValid r = true) (hmem : r ∉ k.hierarchyRetries)
    (hroom : k.hierarchyRetries.length < maxRecoveryHierarchyRetries) :
    Orderly { k with
      hierarchyRetries := insertSorted RecoveryHierarchyRetry.lt r k.hierarchyRetries } := by
  refine { h with saved := ?_, retries := ?_, few := ?_, sorted := ?_ }
  · exact fun phase => by cases phase <;> exact h.saved _
  · intro r' hr'
    rcases mem_insertSorted.mp hr' with rfl | hr'
    · exact hr
    · exact h.retries r' hr'
  · show (insertSorted _ _ _).length ≤ _
    rw [length_insertSorted]
    exact hroom
  · refine insertSorted_sorted RecoveryHierarchyRetry.lt_trans (fun r' hr' => ?_) h.sorted
    exact RecoveryHierarchyRetry.lt_total fun heq => hmem (heq ▸ hr')

theorem Orderly.insertOverflow (h : Orderly k) {phase : RecoveryPhase}
    (hmem : phase ∉ k.hierarchyRetryOverflow) :
    Orderly { k with
      hierarchyRetryOverflow :=
        insertSorted (fun a b => decide (a.index < b.index)) phase k.hierarchyRetryOverflow } := by
  refine { h with saved := ?_, overflowSorted := ?_ }
  · exact fun phase => by cases phase <;> exact h.saved _
  · exact h.overflowSorted.insert fun b hb heq =>
      hmem (RecoveryPhase.index_injective heq ▸ hb)

theorem Orderly.remember (h : Orderly k) {phase : RecoveryPhase}
    {kind : RecoveryHierarchyRetryKind} {components : List Name}
    (hr : retryDepthIsValid ⟨phase, kind, components⟩ = true) :
    Orderly (rememberHierarchyRetry k phase kind components).2 := by
  unfold rememberHierarchyRetry
  dsimp only
  repeat' split
  · exact h
  · exact h
  · exact h.insertRetry hr ‹_› ‹_›
  · exact h
  · exact h.insertOverflow ‹_›

theorem Orderly.advanceFrontier (h : Orderly k) {r : RecoveryHierarchyRetry}
    (hr : retryDepthIsValid r = true) : Orderly (k.advanceFrontier r) := by
  have hothers : ∀ f ∈ k.hierarchyRetryFrontiers.filter (fun f => f.phase ≠ r.phase),
      f ∈ k.hierarchyRetryFrontiers ∧ f.phase ≠ r.phase := by
    intro f hf
    simpa using List.mem_filter.mp hf
  refine { h with saved := ?_, frontiers := ?_, frontiersSorted := ?_ }
  · exact fun phase => by cases phase <;> exact h.saved _
  · intro f hf
    rcases mem_insertSorted.mp hf with rfl | hf
    · exact hr
    · exact h.frontiers f (hothers f hf).1
  · have hrises : Rises (fun f => f.phase.index)
        (k.hierarchyRetryFrontiers.filter fun f => f.phase ≠ r.phase) := h.frontiersSorted.filter _
    exact hrises.insert fun b hb heq => (hothers b hb).2 (RecoveryPhase.index_injective heq)

theorem Orderly.dropFrontier (h : Orderly k) (phase : RecoveryPhase) :
    Orderly (k.dropFrontier phase) where
  saved := fun phase => by cases phase <;> exact h.saved _
  retries := h.retries
  few := h.few
  sorted := h.sorted
  frontiers := fun f hf => h.frontiers f (List.mem_of_mem_filter hf)
  frontiersSorted := h.frontiersSorted.filter _
  overflowSorted := h.overflowSorted
  offset := h.offset

theorem Orderly.forget (h : Orderly k) (r : RecoveryHierarchyRetry) :
    Orderly { k with hierarchyRetries := k.hierarchyRetries.filter (· ≠ r) } where
  saved := fun phase => by cases phase <;> exact h.saved _
  retries := fun r' hr' => h.retries r' (List.mem_of_mem_filter hr')
  few := (List.length_filter_le _ _).trans h.few
  sorted := h.sorted.filter _
  frontiers := h.frontiers
  frontiersSorted := h.frontiersSorted
  overflowSorted := h.overflowSorted
  offset := h.offset

theorem Orderly.resolveRetry (h : Orderly k) {r : RecoveryHierarchyRetry}
    (hr : retryDepthIsValid r = true) : Orderly (k.resolveRetry r) := by
  have hcleared : Orderly (RecoveryCursor.save _ r.phase none) := (h.forget r).save nofun
  unfold RecoveryCursor.resolveRetry
  dsimp only
  split
  · exact hcleared.advanceFrontier hr
  · exact hcleared.dropFrontier _

theorem Orderly.withoutOverflow (h : Orderly k) (phase : RecoveryPhase) :
    Orderly (k.withoutOverflow phase) := by
  unfold RecoveryCursor.withoutOverflow
  split
  · refine Orderly.save ?_ (nofun : SavedAt phase none)
    refine { h with saved := ?_, overflowSorted := ?_ }
    · exact fun phase => by cases phase <;> exact h.saved _
    · exact h.overflowSorted.sublist List.erase_sublist
  · exact h

/-- **Every change of the cursor keeps its order.** -/
theorem Orderly.step (h : Orderly k) {k' : RecoveryCursor} (hs : CursorStep cursorFacts k k') :
    Orderly k' := by
  cases hs with
  | save hp => exact h.save hp
  | remember hr => exact h.remember hr
  | withoutOverflow phase => exact h.withoutOverflow phase
  | advanceFrontier hr => exact h.advanceFrontier hr
  | dropFrontier phase => exact h.dropFrontier phase
  | resolveRetry hr => exact h.resolveRetry hr
  | proceed phase => exact { h with saved := fun phase => by cases phase <;> exact h.saved _ }
  | shard shard => exact { h with saved := fun phase => by cases phase <;> exact h.saved _ }
  | stream hn =>
    exact { h with saved := fun phase => by cases phase <;> exact h.saved _, offset := hn }

end Steps

/-! ## 4. Valid and short -/

section Canonical

variable {kind : LevelKind} {name : Name}

/-- The length of a name of a directory. -/
def LevelKind.width : LevelKind → Nat
  | .boot => 36
  | .bucket => 16
  | .shard => 4

theorem canonical_length (h : kind.canonical name = true) : name.length = kind.width := by
  cases kind with
  | boot =>
    obtain ⟨b, hb⟩ := Option.isSome_iff_exists.mp h
    unfold bootIdBytes at hb
    split at hb
    · cases hb
    · rename_i hlength
      exact not_not.mp hlength
  | bucket =>
    obtain ⟨b, hb⟩ := Option.isSome_iff_exists.mp h
    rw [bucketHex_of_bucketFromHex hb]
    simp [bucketHex, hexU64, LevelKind.width]
  | shard =>
    obtain ⟨b, hb⟩ := Option.isSome_iff_exists.mp h
    rw [shardHex_of_shardFromHex hb]
    simp [shardHex, hexU16, LevelKind.width]

/-- Names of directories are made of dashes and hex digits. -/
theorem canonical_bytes (h : kind.canonical name = true) {x : UInt8} (hx : x ∈ name) :
    x = 45 ∨ ∃ b, x ∈ hexEncode b := by
  cases kind with
  | boot =>
    obtain ⟨b, hb⟩ := Option.isSome_iff_exists.mp h
    exact (mem_boot hb hx).imp_right fun hx => ⟨_, hx⟩
  | bucket =>
    obtain ⟨b, hb⟩ := Option.isSome_iff_exists.mp h
    rw [bucketHex_of_bucketFromHex hb] at hx
    exact .inr ⟨_, hx⟩
  | shard =>
    obtain ⟨b, hb⟩ := Option.isSome_iff_exists.mp h
    rw [shardHex_of_shardFromHex hb] at hx
    exact .inr ⟨_, hx⟩

theorem canonical_plain (h : kind.canonical name = true) {x : UInt8} (hx : x ∈ name) :
    escape x = [x] := by
  rcases canonical_bytes h hx with rfl | ⟨b, hb⟩
  · decide
  · exact escape_of_mem_hexEncode hb

theorem canonical_valid (h : kind.canonical name = true) : cursorComponentIsValid name = true := by
  have hlength := canonical_length h
  have hbytes : ∀ x ∈ name, x ≠ 46 ∧ x ≠ 47 ∧ x ≠ 0 := by
    intro x hx
    rcases canonical_bytes h hx with rfl | ⟨b, hb⟩
    · decide
    · have hle := le_of_mem_hexEncode hb
      refine ⟨?_, ?_, ?_⟩ <;> rintro rfl <;> exact absurd hle (by decide)
  have hwidth : 3 ≤ kind.width ∧ kind.width ≤ 255 := by cases kind <;> decide
  simp only [cursorComponentIsValid, decide_eq_true_eq]
  refine ⟨?_, by omega, ?_, ?_, fun h => (hbytes _ h).2.1 rfl, fun h => (hbytes _ h).2.2 rfl⟩
  · rintro rfl
    simp at hlength
    omega
  · rintro rfl
    rw [show (ascii ".").length = 1 by decide] at hlength
    omega
  · rintro rfl
    rw [show (ascii "..").length = 2 by decide] at hlength
    omega

theorem canonical_lengths {kinds : List LevelKind} {names : List Name} (h : Canonical kinds names) :
    names.map List.length = kinds.map LevelKind.width := by
  induction h with
  | nil => rfl
  | cons hx _ ih => rw [List.map_cons, List.map_cons, canonical_length hx, ih]

theorem canonical_forall {kinds : List LevelKind} {names : List Name} (h : Canonical kinds names) :
    ∀ name ∈ names, ∃ kind : LevelKind, kind.canonical name = true := by
  induction h with
  | nil => nofun
  | cons hx _ ih =>
    intro name hname
    rcases List.mem_cons.mp hname with rfl | hname
    · exact ⟨_, hx⟩
    · exact ih name hname

end Canonical

/-- A remembered directory is canonical down to its depth. -/
theorem retry_canonical {r : RecoveryHierarchyRetry} (h : retryDepthIsValid r = true) :
    Canonical (r.phase.kinds.take r.components.length) r.components := by
  simp only [retryDepthIsValid, decide_eq_true_eq] at h
  obtain ⟨-, hlength, hall⟩ := h
  generalize r.phase.kinds = kinds at hlength hall ⊢
  generalize r.components = names at hlength hall ⊢
  induction names generalizing kinds with
  | nil => exact .nil
  | cons name names ih =>
    cases kinds with
    | nil => simp at hlength
    | cons kind kinds =>
      rw [List.zip_cons_cons, List.all_cons, Bool.and_eq_true] at hall
      exact .cons hall.1 (ih kinds (Nat.le_of_succ_le_succ hlength) hall.2)

theorem retry_short {r : RecoveryHierarchyRetry} (h : retryDepthIsValid r = true) :
    r.json.text.length ≤ 129 := by
  have hc := retry_canonical h
  simp only [retryDepthIsValid, decide_eq_true_eq] at h
  have hkinds : r.phase.kinds.length ≤ 3 := by cases r.phase <;> decide
  have hwidths : ∀ phase : RecoveryPhase, ∀ n ≤ 3,
      ((phase.kinds.take n).map LevelKind.width).sum ≤ 56 := by
    intro phase
    cases phase <;> decide
  refine retry_length (by omega) ?_ ?_
  · rw [canonical_lengths hc]
    exact hwidths r.phase _ (by omega)
  · intro name hname b hb
    obtain ⟨kind, hkind⟩ := canonical_forall hc name hname
    exact canonical_plain hkind hb

section Valid

variable {k : RecoveryCursor}

theorem Orderly.components_valid (h : Orderly k) (phase : RecoveryPhase) :
    ((k.saved phase).all fun components => components.all cursorComponentIsValid) = true := by
  have hsaved := h.saved phase
  cases hk : k.saved phase with
  | none => rfl
  | some names =>
    obtain ⟨dirs, raw, rfl, hc, hraw⟩ := hsaved names hk
    rw [Option.all_some, List.all_eq_true]
    intro name hname
    rcases List.mem_append.mp hname with hname | hname
    · obtain ⟨kind, hkind⟩ := canonical_forall hc name hname
      exact canonical_valid hkind
    · rw [List.mem_singleton.mp hname]
      exact hraw

/-- An orderly cursor passes the check that guards loading. -/
theorem Orderly.valid (h : Orderly k) : cursorIsValid k = true := by
  have hcomponents := h.components_valid
  simp only [cursorIsValid, decide_eq_true_eq]
  refine ⟨?_, h.few, List.all_eq_true.mpr h.retries, pairwiseNext_of_sorted h.sorted,
    length_le_five h.frontiersSorted, List.all_eq_true.mpr h.frontiers, ?_, ?_⟩
  · simp only [List.all_cons, List.all_nil, hcomponents, Bool.and_true]
  · exact pairwiseNext_of_sorted (by simpa [Rises] using h.frontiersSorted)
  · exact pairwiseNext_of_sorted (by simpa [Rises] using h.overflowSorted)

theorem raw_length {raw : Name} (h : cursorComponentIsValid raw = true) : raw.length ≤ 255 := by
  simp only [cursorComponentIsValid, decide_eq_true_eq] at h
  exact h.2.1

theorem fourLevel_short {c : FourLevelCursor} (h : SavedAt .reapLeases (some c.components)) :
    c.json.text.length ≤ 1298 := by
  obtain ⟨dirs, raw, hnames, hc, hraw⟩ := h _ rfl
  have hlengths := canonical_lengths hc
  obtain ⟨a, b, d, rfl⟩ := List.length_eq_three.mp hc.length_eq.symm
  cases c
  cases hnames
  simp only [List.map_cons, List.map_nil, RecoveryPhase.kinds, LevelKind.width, List.cons.injEq,
    and_true] at hlengths
  exact fourLevel_length (by dsimp only; omega) (raw_length hraw)

theorem threeLevel_short {phase : RecoveryPhase} (hphase : phase ≠ .reapLeases)
    {c : ThreeLevelCursor} (h : SavedAt phase (some c.components)) : c.json.text.length ≤ 1223 := by
  obtain ⟨dirs, raw, hnames, hc, hraw⟩ := h _ rfl
  have hlengths := canonical_lengths hc
  have hkinds : phase.kinds.length = 2 ∧ (phase.kinds.map LevelKind.width).sum ≤ 40 := by
    revert hphase
    cases phase <;> decide
  obtain ⟨a, b, rfl⟩ := List.length_eq_two.mp (hc.length_eq.symm.trans hkinds.1)
  cases c
  cases hnames
  rw [← hlengths] at hkinds
  simp only [List.map_cons, List.map_nil, List.sum_cons, List.sum_nil] at hkinds
  exact threeLevel_length (by dsimp only; omega) (raw_length hraw)

/-- The text of an orderly cursor is short. -/
theorem Orderly.short (h : Orderly k) : ShortParts k where
  four := by
    intro c hc
    refine fourLevel_short ?_
    have hsaved := h.saved .reapLeases
    rwa [RecoveryCursor.saved, hc] at hsaved
  three := by
    rintro c (hc | hc | hc | hc)
    · have hsaved := h.saved .promoteDelayed
      rw [RecoveryCursor.saved, hc] at hsaved
      exact threeLevel_short (by decide) hsaved
    · have hsaved := h.saved .cleanupTemp
      rw [RecoveryCursor.saved, hc] at hsaved
      exact threeLevel_short (by decide) hsaved
    · have hsaved := h.saved .compactReceipts
      rw [RecoveryCursor.saved, hc] at hsaved
      exact threeLevel_short (by decide) hsaved
    · have hsaved := h.saved .deleteReceipts
      rw [RecoveryCursor.saved, hc] at hsaved
      exact threeLevel_short (by decide) hsaved
  offset := h.offset
  few := h.few
  fewer := length_le_five h.frontiersSorted
  phases := length_le_five (f := id) h.overflowSorted
  retries := by
    intro r hr
    rcases List.mem_append.mp hr with hr | hr
    · exact retry_short (h.retries r hr)
    · exact retry_short (h.frontiers r hr)

end Valid

/-! ## 5. Loading and persisting -/

section File

variable {codec : CursorCodec}

/-- What the file was opened as last. -/
def openedAs (t : Log Act.Resp) (file : Ino) : Option (Path × Name) :=
  t.findSome? fun
    | ⟨.look (.openAt dir name), .ok i⟩ => if i = file then some (dir.path, name) else none
    | _ => none

/-- Directories hold names a file system allows, offsets fit an `off_t`, and the cursor file, read,
    is one of the texts. -/
def Act.saneAnswer (texts : Bytes → Prop) (t : Log Act.Resp) : (a : Act) → a.Resp → Prop
  | .look (.readDir _), r => ∀ name ∈ (listed r).1, cursorComponentIsValid name = true
  | .look (.nextEntry ..), r => ∀ entry, r = .ok (some entry) → entry.2 < 2 ^ 63
  | .look (.pread file _ _), r =>
    openedAs t file = some (controlPath, recoveryCursorFile) → ∀ b, r = .ok b → texts b
  | _, _ => True

abbrev sanely (texts : Bytes → Prop) : Discipline Act.Resp (Log Act.Resp) :=
  recorder (Act.saneAnswer texts)

theorem checkCursorRecord_ok {queueId : Octets 16} {record : RecoveryCursorRecord}
    {k : RecoveryCursor} (h : checkCursorRecord queueId record = .ok k) : k = record.cursor := by
  unfold checkCursorRecord at h
  repeat' split at h
  all_goals cases h
  rfl

/-- What is loaded is orderly if the texts the file may hold are of orderly cursors. -/
theorem loadRecoveryCursor_orderly {texts : Bytes → Prop}
    (htexts : ∀ b record, texts b → codec.decode b = .ok record → Orderly record.cursor)
    (h : Handle) (t : Log Act.Resp) :
    (loadRecoveryCursor codec).Meets (Task.pull (sanely texts) Act.look fun _ r => r) h t
      fun r _ _ => ∀ k, r = .ok k → Orderly k := by
  refine Task.meets_bind.mpr (Task.meets_mapErr.mpr ⟨trivial, fun opened _ => ?_⟩)
  refine Task.then_intro (fun _ _ => nofun) fun control hcontrol => ?_
  have hpath : control.path = controlPath := openBelow_eq_ok (Task.mapError_eq_ok.mp hcontrol)
  refine Task.meets_bind.mpr (Task.meets_attempt.mpr (Task.meets_call.mpr
    ⟨trivial, fun found _ => Task.then_ok.mpr ?_⟩))
  split
  · rintro _ ⟨⟩
    exact orderly_default
  · exact nofun
  · rename_i file hfound
    obtain rfl : found = .ok file := hfound
    refine Task.meets_bind.mpr (Task.meets_mapErr.mpr ⟨trivial, fun stat _ => ?_⟩)
    refine Task.then_intro (fun _ _ => nofun) fun stat _ => ?_
    split
    · exact nofun
    · split
      · exact nofun
      · refine Task.meets_bind.mpr (Task.meets_mapErr.mpr ⟨trivial, fun read hread => ?_⟩)
        refine Task.then_intro (fun _ _ => nofun) fun bytes hbytes => ?_
        have hopened : ∀ r l, openedAs (⟨.look (.fstat file), r⟩ :: ⟨.look (.openAt control
            recoveryCursorFile), .ok file⟩ :: l) file = some (controlPath, recoveryCursorFile) := by
          simp [openedAs, hpath]
        have htext : texts bytes :=
          hread (hopened _ _) bytes (exactly_eq_ok.mp (Task.mapError_eq_ok.mp hbytes)).1
        split
        · exact nofun
        · rename_i record hrecord
          intro k hk
          rw [checkCursorRecord_ok hk]
          exact htexts bytes record htext hrecord

/-- The invariant of a pass. -/
def OrderlyPass (p : Pass) (_ : Log Act.Resp) : Prop := Orderly p.handle.recoveryCursor

theorem orderlyPass_tolerant (texts : Bytes → Prop) :
    Tolerant (sanely texts) cursorFacts OrderlyPass where
  look := fun _ _ _ h => ⟨trivial, fun _ _ => h⟩
  stats := fun _ _ _ _ h => h
  cursor := fun _ _ _ hs h => Orderly.step h hs
  saved := fun phase _ _ h => h.saved phase
  known := fun _ _ h => h.retries
  resumed := fun _ _ h => h.offset
  closed := cursorFacts_closed

/-- **A pass leaves an orderly cursor**, if it started with one and found none other. -/
theorem recover_orderly {texts : Bytes → Prop}
    (htexts : ∀ b record, texts b → codec.decode b = .ok record → Orderly record.cursor)
    {budget : WorkBudget} {scanBudget : RecoveryScanBudget} {h h' : Handle} {es : Log Act.Resp}
    {report : RecoveryReport} (hk : Orderly h.recoveryCursor)
    (htrace : ((recoverWithScanBudget codec budget scanBudget).start h).Trace es (.ok report, h'))
    (hsane : Expected (Act.saneAnswer texts) [] es) : Orderly h'.recoveryCursor := by
  have htol := orderlyPass_tolerant texts
  have hallow : ∀ t a, (sanely texts).allow t a := fun _ _ => trivial
  have hfree : ScanFree OrderlyPass := fun _ _ _ h => h
  have haround : Around (sanely texts) codec OrderlyPass := by
    refine around_of_kept (P := fun x => Orderly x.2) hallow fun p t hp => ?_
    refine Task.meets_zoom.mpr (Task.meets_attempt.mpr (Task.meets_pull (fun _ _ => rfl) ?_))
    refine Task.Meets.mono (loadRecoveryCursor_orderly htexts p.handle t) fun r _ _ hr => ⟨hp, ?_⟩
    rintro _ ⟨⟩ k hk
    exact hr k hk
  have hpass : (recoverPass codec budget scanBudget).Preserves (sanely texts) OrderlyPass := by
    refine recoverPass_preserves htol.toBooks haround fun _ => ?_
    exact recoverLocked_preserves htol haround fun c _ _ =>
      ⟨reads_of_scanFree htol.toBooks hfree fun _ _ _ hr => hr,
        streams_of_scanFree htol.toBooks hfree fun _ _ _ _ hr => hr,
        works_of_kept (P := fun x => Orderly x.2) hallow⟩
  have hmeets := recoverWithScanBudget_meets (h := h) (t := []) hpass hk
  exact htrace.post hmeets hsane report rfl

/-- A record that fits is not refused for its size. -/
theorem persist_fits {h : Handle}
    (hsize : cursorRecordSizeIsValid (codec.encode (cursorRecordOf h)).length = true) :
    (persistRecoveryCursor codec).Always h fun r _ =>
      r ≠ .error (.invalidInput "recovery cursor exceeds maximum encoded size") := by
  have hio : ∀ text, Error.ioFailure text ≠
      .invalidInput "recovery cursor exceeds maximum encoded size" := nofun
  have hcleanup : ∀ control name primary,
      (cleanupCursorTemporaryFile control name primary : QueueM Error Unit).Fails
        (· ≠ .invalidInput "recovery cursor exceeds maximum encoded size") := by
    intro control name primary
    refine .bind Task.fails_attempt fun removed => ?_
    split <;> exact Task.fails_throw (hio _)
  refine Task.meets_bind.mpr (Task.meets_memory.mpr (Task.then_ok.mpr ?_))
  dsimp only
  rw [if_neg (not_not.mpr hsize)]
  refine Task.Meets.mono ((?_ : Task.Fails
    (· ≠ .invalidInput "recovery cursor exceeds maximum encoded size") _) h)
    fun r _ _ hr he => hr _ he rfl
  refine .bind (Task.fails_mapErr fun _ => hio _) fun control => ?_
  refine .bind (Task.fails_mapErr fun _ => hio _) fun random => ?_
  refine .bind (Task.fails_mapErr fun _ => hio _) fun temp => ?_
  refine .bind Task.fails_attempt fun written => ?_
  split
  · exact hcleanup _ _ _
  · refine .bind Task.fails_attempt fun synced => ?_
    split
    · exact hcleanup _ _ _
    · refine .bind Task.fails_attempt fun replaced => ?_
      split
      · exact Task.fails_pure _
      · split
        · exact Task.fails_throw (hio _)
        · exact hcleanup _ _ _

/-- A record of calls that put the text in place of the cursor file: a new file was created, the
    text was written to it, and it was renamed. -/
def Placed (text : Bytes) (l : Log Act.Resp) : Prop :=
  ∃ (control : Dir) (name : Name) (file : Ino), control.path = controlPath ∧
    ⟨.createExclusive control name, .ok file⟩ ∈ l ∧ ⟨.write file text, .ok ()⟩ ∈ l ∧
    ⟨.renameat control name control recoveryCursorFile, .ok ()⟩ ∈ l

theorem replaceVerified_renames (dir : Dir) (srcName dstName : Name) (h : Handle)
    (l : Log Act.Resp) :
    (replaceVerified dir srcName dstName none).Notes Sigma.mk h l fun r _ l' =>
      r = .ok () → ⟨.renameat dir srcName dir dstName, .ok ()⟩ ∈ l' := by
  refine Task.Notes.bind (Q := fun r _ l' =>
    r = .ok () → ⟨.renameat dir srcName dir dstName, .ok ()⟩ ∈ l') ?_ ?_ ?_
  · refine Task.Notes.mapErr (Task.notes_call fun r hr => ?_)
    have hr : r = .ok () := Task.mapError_eq_ok.mp hr
    rw [hr]
    exact List.mem_cons_self
  · intro _ h₁ l₁ _ hmem
    exact Task.notes_any fun _ _ _ hsuffix _ => hsuffix.subset (hmem rfl)
  · rintro e _ _ _ _ ⟨⟩

theorem persist_places (h : Handle) :
    (persistRecoveryCursor codec).Notes Sigma.mk h [] fun r _ l =>
      r = .ok () → Placed (codec.encode (cursorRecordOf h)) l := by
  refine Task.notes_memory ?_
  dsimp only
  split
  · exact Task.notes_throw nofun
  · have hcontrol : (Task.mapErr (cursorNotCommitted "ControlOpen")
        (liftM (openRelative controlPath)) : QueueM Error Dir).Yields
          fun control => control.path = controlPath := by
      refine .mapErr fun h => ?_
      exact Task.meets_peek (fun _ => trivial) (fun _ _ => rfl)
        (openBelow_yields rootDir controlPath h)
    refine Task.Notes.bind hcontrol.notes (fun control h₁ l₁ _ hpath => ?_) fun _ _ _ _ _ => nofun
    have hpath : control.path = controlPath := hpath control rfl
    refine Task.Notes.bind (Q := fun _ _ _ => True) (Task.notes_any fun _ _ _ _ => trivial)
      (fun random h₂ l₂ _ _ => ?_) fun _ _ _ _ _ => nofun
    refine Task.Notes.bind (Q := fun r _ l => ∀ file, r = .ok file →
      ⟨.createExclusive control (cursorTempName random), .ok file⟩ ∈ l) ?_
      (fun file h₃ l₃ _ hcreated => ?_) fun _ _ _ _ _ => nofun
    · refine Task.Notes.mapErr (Task.notes_call fun r file hr => ?_)
      have hr : r = .ok file := Task.mapError_eq_ok.mp hr
      rw [hr]
      exact List.mem_cons_self
    have hcreated := hcreated file rfl
    have hclean : ∀ {m : QueueM Error Unit} {h' : Handle} {l' : Log Act.Resp},
        m.Yields (fun _ => False) → m.Notes Sigma.mk h' l' fun r _ l =>
          r = .ok () → Placed (codec.encode (cursorRecordOf h)) l :=
      fun hm => hm.notes.mono fun r _ _ _ hr hok => (hr () hok).elim
    have hcleanup : ∀ name primary, (cleanupCursorTemporaryFile control name primary :
        QueueM Error Unit).Yields fun _ => False := by
      intro name primary
      refine .bind Task.yields_any fun removed _ => ?_
      split <;> exact Task.yields_throw
    refine Task.Notes.attempt (Q := fun r _ l => r = .ok () →
      ⟨.write file (codec.encode (cursorRecordOf h)), .ok ()⟩ ∈ l) (Task.notes_call ?_)
      fun written h₄ l₄ hl₄ hwritten => ?_
    · rintro r rfl
      exact List.mem_cons_self
    split
    · exact hclean (hcleanup _ _)
    · have hwritten := hwritten rfl
      refine Task.Notes.attempt (Q := fun _ _ _ => True) (Task.notes_any fun _ _ _ _ => trivial)
        fun synced h₅ l₅ hl₅ _ => ?_
      split
      · exact hclean (hcleanup _ _)
      · refine Task.Notes.attempt (replaceVerified_renames _ _ _ _ _)
          fun replaced h₆ l₆ hl₆ hrenamed => ?_
        split
        · refine Task.notes_pure fun _ => ⟨control, _, file, hpath, ?_, ?_, hrenamed rfl⟩
          · exact (hl₄.trans (hl₅.trans hl₆)).subset hcreated
          · exact (hl₅.trans hl₆).subset hwritten
        · split
          · exact hclean Task.yields_throw
          · exact hclean (hcleanup _ _)

/-- The cursor file holds a text. -/
structure World.HoldsCursor (w : World) (text : Bytes) : Prop where
  root : (w.live rootDir).isSome
  file : ∃ i node, w.fileAt controlPath recoveryCursorFile = some i ∧ w.inodes i = some node ∧
    node.nlink = 1 ∧ node.data = text

/-- What was persisted is loaded. -/
theorem eval_loadRecoveryCursor {w : World} {h : Handle}
    (hw : w.HoldsCursor (codec.encode (cursorRecordOf h)))
    (hsize : cursorRecordSizeIsValid (codec.encode (cursorRecordOf h)).length = true)
    (hvalid : cursorIsValid h.recoveryCursor = true) :
    (loadRecoveryCursor codec).eval w.reply h = (.ok h.recoveryCursor, h) := by
  obtain ⟨i, node, hfile, hnode, hlink, hdata⟩ := hw.file
  have hcontrol : ∃ control, w.dirs controlPath = some control ∧
      control.entries.lookup recoveryCursorFile = some (.file i) := by
    unfold World.fileAt at hfile
    split at hfile
    · rename_i j hj
      cases hfile
      obtain ⟨control, hcontrol, hentry⟩ := Option.bind_eq_some_iff.mp hj
      exact ⟨control, hcontrol, hentry⟩
    · cases hfile
  obtain ⟨control, hdirs, hentry⟩ := hcontrol
  have hopen : (Task.mapErr Error.from (openRelative controlPath)).eval w.reply h =
      (.ok ⟨controlPath, control.id⟩, h) := by
    rw [Task.eval_mapErr, eval_openRelative hw.root, hdirs]
    rfl
  have hopenAt : (Task.attempt (openAt ⟨controlPath, control.id⟩ recoveryCursorFile) :
      LookM Error _).eval w.reply h = (.ok (.ok i), h) := by
    rw [Task.eval_attempt, eval_openAt hdirs, hentry]
    rfl
  have hread : (Task.mapErr Error.from (preadExact i 0 node.data.length)).eval w.reply h =
      (.ok node.data, h) := by
    rw [Task.eval_mapErr, eval_preadExact hnode]
    simp [slice, exactly, Except.mapError]
  have hcheck : checkCursorRecord h.format.queueId (cursorRecordOf h) = .ok h.recoveryCursor := by
    simp [checkCursorRecord, cursorRecordOf, hvalid]
  refine Task.eval_step hopen (Task.eval_step hopenAt ?_)
  refine Task.eval_step (eval_fstat (reply_fstat_file hnode) _ _) ?_
  rw [if_neg (by simp [isSinglyLinkedRegular, hlink]), if_neg (by simpa [hdata] using hsize)]
  refine Task.eval_step hread ?_
  rw [hdata, codec.decode_encode]
  exact Task.eval_step Task.eval_memory (congrArg (·, h) hcheck)

end File

/-! ## 6. Passes one after the other -/

/-- Passes made one after the other by the handles of a queue, and the texts they left for the cursor
    file. A pass walks whatever tree it finds. In the cursor file it finds, if there is one, a text
    that an earlier pass left; so does a handle that is opened in between. -/
inductive Passes (codec : CursorCodec) : (Nat → Handle) → List Bytes → Prop where
  | start {handles : Nat → Handle} (h : ∀ i, (handles i).recoveryCursor = .default) :
    Passes codec handles []
  | opened {handles : Nat → Handle} {texts : List Bytes} (hp : Passes codec handles texts) (i : Nat)
      {h : Handle} {k : RecoveryCursor} {es : Log Act.Resp}
      (hload : ((looking (loadRecoveryCursor codec)).start h).Trace es (.ok k, h))
      (hsane : Expected (Act.saneAnswer (· ∈ texts)) [] es) :
    Passes codec (Function.update handles i { h with recoveryCursor := k }) texts
  | pass {handles : Nat → Handle} {texts : List Bytes} (hp : Passes codec handles texts) (i : Nat)
      (budget : WorkBudget) (scanBudget : RecoveryScanBudget) {h' : Handle} {es : Log Act.Resp}
      {report : RecoveryReport}
      (htrace : ((recoverWithScanBudget codec budget scanBudget).start (handles i)).Trace es
        (.ok report, h'))
      (hsane : Expected (Act.saneAnswer (· ∈ texts)) [] es) :
    Passes codec (Function.update handles i h') (codec.encode (cursorRecordOf h') :: texts)

section Passes

variable {codec : CursorCodec} {handles : Nat → Handle} {texts : List Bytes}

/-- **The cursors of all handles and of all texts are orderly.** -/
theorem Passes.orderly (hp : Passes codec handles texts) :
    (∀ i, Orderly (handles i).recoveryCursor) ∧
      ∀ b ∈ texts, ∃ h : Handle, Orderly h.recoveryCursor ∧ b = codec.encode (cursorRecordOf h) := by
  -- a text that is found decodes to the cursor of the handle that left it
  have hdecode : ∀ {texts : List Bytes}, (∀ b ∈ texts, ∃ h : Handle, Orderly h.recoveryCursor ∧
      b = codec.encode (cursorRecordOf h)) → ∀ b record, b ∈ texts →
      codec.decode b = .ok record → Orderly record.cursor := by
    intro texts htexts b record hb hrecord
    obtain ⟨h, hk, rfl⟩ := htexts b hb
    rw [codec.decode_encode] at hrecord
    cases hrecord
    exact hk
  induction hp with
  | start h =>
    refine ⟨fun i => ?_, nofun⟩
    rw [h i]
    exact orderly_default
  | @opened handles texts _ i h k es hload hsane ih =>
    refine ⟨fun j => ?_, ih.2⟩
    by_cases hj : j = i
    · subst hj
      rw [Function.update_self]
      have hmeets : (looking (loadRecoveryCursor codec)).Meets (sanely (· ∈ texts)) h []
          fun r _ _ => ∀ k, r = .ok k → Orderly k :=
        Task.meets_pull (fun _ _ => rfl) (loadRecoveryCursor_orderly (hdecode ih.2) h [])
      exact hload.post hmeets hsane k rfl
    · rw [Function.update_of_ne hj]
      exact ih.1 j
  | @pass handles texts _ i budget scanBudget h' es report htrace hsane ih =>
    have hk := recover_orderly (hdecode ih.2) (ih.1 i) htrace hsane
    refine ⟨fun j => ?_, fun b hb => ?_⟩
    · by_cases hj : j = i
      · subst hj
        rw [Function.update_self]
        exact hk
      · rw [Function.update_of_ne hj]
        exact ih.1 j
    · rcases List.mem_cons.mp hb with rfl | hb
      · exact ⟨h', hk, rfl⟩
      · exact ih.2 b hb

/-- **The recovery cursor is valid, fits its file and is read back.** After any passes, whatever
    their trees, budgets and failures: the cursor of every handle passes the check of cursors, its
    text is no longer than 16,384 bytes, so writing it back is not refused for its size; if it
    is written, the text takes the place of the cursor file; and a file with that text is loaded
    as that cursor. -/
theorem cursor_survives (hjson : ∀ r, codec.encode r = r.json.text)
    (hp : Passes codec handles texts) (i : Nat) :
    cursorIsValid (handles i).recoveryCursor = true ∧
    (codec.encode (cursorRecordOf (handles i))).length ≤ 16384 ∧
    (∀ es r h', ((persistRecoveryCursor codec).start (handles i)).Trace es (r, h') →
      r ≠ .error (.invalidInput "recovery cursor exceeds maximum encoded size") ∧
      (r = .ok () → Placed (codec.encode (cursorRecordOf (handles i))) es)) ∧
    ∀ w : World, w.HoldsCursor (codec.encode (cursorRecordOf (handles i))) →
      (loadRecoveryCursor codec).eval w.reply (handles i) =
        (.ok (handles i).recoveryCursor, handles i) := by
  have hk := hp.orderly.1 i
  have hlength : (codec.encode (cursorRecordOf (handles i))).length ≤ 16384 := by
    rw [hjson]
    exact record_length hk.short
  have hsize : cursorRecordSizeIsValid (codec.encode (cursorRecordOf (handles i))).length = true := by
    simp only [cursorRecordSizeIsValid, decide_eq_true_eq]
    refine ⟨?_, hlength⟩
    rw [hjson]
    simp [RecoveryCursorRecord.json, Json.text]
  refine ⟨hk.valid, hlength, fun es r h' htrace => ⟨?_, fun hr => ?_⟩, fun w hw => ?_⟩
  · exact Task.Notes.trace (Task.Always.notes (persist_fits hsize)) htrace
  · have hplaced := Task.Notes.trace (persist_places (handles i)) htrace hr
    simpa [Placed] using hplaced
  · exact eval_loadRecoveryCursor hw hsize hk.valid

end Passes

theorem openedAs_of_answers {o : (a : Act) → a.Resp} {t : Log Act.Resp} {file : Ino}
    (hopen : ∀ dir name, o (.look (.openAt dir name)) = .error .enoent) (ht : ∀ e ∈ t, e.2 = o e.1) :
    openedAs t file = none := by
  refine List.findSome?_eq_none_iff.mpr fun e he => ?_
  split
  · rename_i dir name i
    cases (ht _ he).trans (hopen dir name)
  · rfl

/-- The answers for two temporary files of an earlier boot are sane, and no cursor file is found. -/
theorem expected_littered {texts : Bytes → Prop} {es t : Log Act.Resp}
    (ht : ∀ e ∈ t, e.2 = littered e.1) (hes : ∀ e ∈ es, e.2 = littered e.1) :
    Expected (Act.saneAnswer texts) t es := by
  induction es generalizing t with
  | nil => trivial
  | cons e es ih =>
    refine ⟨?_, ih (List.forall_mem_cons.mpr ⟨hes e (List.mem_cons_self ..), ht⟩)
      fun e he => hes e (List.mem_cons_of_mem _ he)⟩
    rw [hes e (List.mem_cons_self ..)]
    generalize e.1 = a
    unfold Act.saneAnswer
    split
    · rename_i dir
      simp only [littered, listed]
      repeat' split
      all_goals decide
    · exact nofun
    · rw [openedAs_of_answers (fun _ _ => rfl) ht]
      exact nofun
    · trivial

/-- The cursor after a pass over the two temporary files. -/
theorem cursor_of_littered_survives :
    ∃ h' : Handle, ∃ texts, Passes jsonCodec (Function.update (fun _ => sampleHandle) 0 h') texts ∧
      cursorIsValid h'.recoveryCursor = true ∧
      (jsonCodec.encode (cursorRecordOf h')).length ≤ 16384 := by
  obtain ⟨es, htrace, hes⟩ := Prog.trace_of_eval littered
    ((recoverWithScanBudget jsonCodec ⟨1, 100⟩ .default).start sampleHandle)
  generalize Prog.eval littered _ = x at htrace
  obtain ⟨r, h'⟩ := x
  cases r with
  | error e => exact nomatch e
  | ok report =>
    have hp : Passes jsonCodec (Function.update (fun _ => sampleHandle) 0 h') _ :=
      .pass (.start fun _ => rfl) 0 ⟨1, 100⟩ .default htrace (expected_littered nofun hes)
    have hk := cursor_survives (fun _ => rfl) hp 0
    rw [Function.update_self] at hk
    exact ⟨h', _, hp, hk.1, hk.2.1⟩

end SteadQ
