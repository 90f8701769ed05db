/-
  File:      SteadQ/Lib/OrdMap.lean
  Subject:   FINITE MAPS IN KEY ORDER: association lists with strictly ascending keys.

  The order is part of the value, so two maps with the same entries are equal (`OrdMap.ext_mem`).
-/
import Mathlib.Data.List.Nodup
import Mathlib.Data.List.Sort

namespace Octet

variable {κ ν : Type} [LT κ] [LE κ] [Std.IsLinearOrder κ] [Std.LawfulOrderLT κ]

/-! ## 1. Ascending lists -/

/-- Entries in strictly ascending order of `key`. -/
def Ascending {α : Type} (key : α → κ) (l : List α) : Prop := l.Pairwise fun a b => key a < key b

section Ascending

variable {α : Type} {key : α → κ} {l l' : List α}

omit [Std.IsLinearOrder κ] in
theorem Ascending.nodup_map (h : Ascending key l) : (l.map key).Nodup := by
  refine List.pairwise_map.mpr (List.Pairwise.imp ?_ h)
  intro a b hlt heq
  rw [heq] at hlt
  exact Std.lt_irrefl hlt

omit [Std.IsLinearOrder κ] in
theorem Ascending.nodup (h : Ascending key l) : l.Nodup := List.Nodup.of_map key h.nodup_map

omit [Std.IsLinearOrder κ] in
theorem Ascending.eq_of_key (h : Ascending key l) {a b : α} (ha : a ∈ l) (hb : b ∈ l)
    (heq : key a = key b) : a = b := List.inj_on_of_nodup_map h.nodup_map ha hb heq

/-- Sorting by a key that tells the elements apart. -/
theorem ascending_insertionSort [DecidableLE κ] (hnodup : l.Nodup)
    (hinj : ∀ a ∈ l, ∀ b ∈ l, key a = key b → a = b) :
    Ascending key (l.insertionSort fun a b => key a ≤ key b) := by
  have : Std.Total fun a b : α => key a ≤ key b := ⟨fun a b => Std.le_total⟩
  have : IsTrans α fun a b => key a ≤ key b := ⟨fun _ _ _ => Std.le_trans⟩
  have hsorted := List.pairwise_insertionSort (fun a b => key a ≤ key b) l
  have hperm := List.perm_insertionSort (fun a b => key a ≤ key b) l
  have hdistinct := hperm.nodup_iff.mpr hnodup
  refine List.Pairwise.imp_of_mem ?_ (hsorted.and hdistinct)
  rintro a b ha hb ⟨hle, hne⟩
  refine Std.lt_of_le_of_ne hle fun heq => hne ?_
  exact hinj a (hperm.mem_iff.mp ha) b (hperm.mem_iff.mp hb) heq

/-- **Ascending lists with the same entries are equal.** -/
theorem eq_of_ascending (h : Ascending key l) (h' : Ascending key l')
    (hmem : ∀ e, e ∈ l ↔ e ∈ l') : l = l' := by
  have hperm : l.Perm l' := (List.perm_ext_iff_of_nodup h.nodup h'.nodup).mpr hmem
  refine hperm.eq_of_pairwise (fun a b _ _ hab hba => ?_) h h'
  exact absurd (Std.lt_trans hab hba) Std.lt_irrefl

end Ascending

/-! ## 2. Maps -/

structure OrdMap (κ ν : Type) [LT κ] where
  entries : List (κ × ν)
  ascending : Ascending Prod.fst entries

namespace OrdMap

def empty : OrdMap κ ν := ⟨[], List.Pairwise.nil⟩

omit [LE κ] [Std.IsLinearOrder κ] [Std.LawfulOrderLT κ] in
theorem ext_entries {m m' : OrdMap κ ν} (h : m.entries = m'.entries) : m = m' := by
  cases m
  cases m'
  cases h
  rfl

theorem ext_mem {m m' : OrdMap κ ν} (h : ∀ e, e ∈ m.entries ↔ e ∈ m'.entries) : m = m' :=
  ext_entries (eq_of_ascending m.ascending m'.ascending h)

omit [LE κ] [Std.IsLinearOrder κ] [Std.LawfulOrderLT κ] in
theorem ascending_map {μ : Type} {l : List (κ × ν)} (f : ν → μ) (h : Ascending Prod.fst l) :
    Ascending Prod.fst (l.map fun e => (e.1, f e.2)) := List.pairwise_map.mpr h

/-- Another value for every key. -/
def mapValues {μ : Type} (f : ν → μ) (m : OrdMap κ ν) : OrdMap κ μ :=
  ⟨m.entries.map fun e => (e.1, f e.2), ascending_map f m.ascending⟩

section Insert

variable [DecidableLT κ]

/-- Put an entry in its place; an entry with its key goes. -/
def insertEntry (k : κ) (v : ν) : List (κ × ν) → List (κ × ν)
  | [] => [(k, v)]
  | e :: rest =>
    if k < e.1 then (k, v) :: e :: rest
    else if e.1 < k then e :: insertEntry k v rest
    else (k, v) :: rest

omit [LE κ] [Std.IsLinearOrder κ] [Std.LawfulOrderLT κ] in
theorem mem_of_mem_insertEntry {k : κ} {v : ν} {l : List (κ × ν)} {e : κ × ν}
    (h : e ∈ insertEntry k v l) : e = (k, v) ∨ e ∈ l := by
  induction l with
  | nil => exact .inl (List.mem_singleton.mp h)
  | cons d rest ih =>
    unfold insertEntry at h
    split at h
    · exact List.mem_cons.mp h
    · split at h
      · rcases List.mem_cons.mp h with rfl | h
        · exact .inr List.mem_cons_self
        · exact (ih h).imp id (List.mem_cons_of_mem d)
      · exact (List.mem_cons.mp h).imp id (List.mem_cons_of_mem d)

theorem ascending_insertEntry {l : List (κ × ν)} (h : Ascending Prod.fst l) (k : κ) (v : ν) :
    Ascending Prod.fst (insertEntry k v l) := by
  induction l with
  | nil => exact List.pairwise_singleton ..
  | cons d rest ih =>
    obtain ⟨hd, hrest⟩ := List.pairwise_cons.mp h
    unfold insertEntry
    split
    · rename_i hlt
      refine List.pairwise_cons.mpr ⟨fun e he => ?_, h⟩
      rcases List.mem_cons.mp he with rfl | he
      · exact hlt
      · exact Std.lt_trans hlt (hd e he)
    · rename_i hge
      split
      · rename_i hlt
        refine List.pairwise_cons.mpr ⟨fun e he => ?_, ih hrest⟩
        rcases mem_of_mem_insertEntry he with rfl | he
        · exact hlt
        · exact hd e he
      · rename_i hle
        -- neither key is below the other, so the key is the old one
        have heq : k = d.1 := Std.le_antisymm (Std.not_lt.mp hle) (Std.not_lt.mp hge)
        exact List.pairwise_cons.mpr ⟨fun e he => heq ▸ hd e he, hrest⟩

def insert (m : OrdMap κ ν) (k : κ) (v : ν) : OrdMap κ ν :=
  ⟨insertEntry k v m.entries, ascending_insertEntry m.ascending k v⟩

/-- A new key adds its entry and takes nothing away. -/
theorem mem_insertEntry {k : κ} {v : ν} {l : List (κ × ν)} (hnew : ∀ e ∈ l, e.1 ≠ k)
    {e : κ × ν} : e ∈ insertEntry k v l ↔ e = (k, v) ∨ e ∈ l := by
  refine ⟨mem_of_mem_insertEntry, fun h => ?_⟩
  induction l with
  | nil => simpa [insertEntry] using h
  | cons d rest ih =>
    unfold insertEntry
    split
    · exact List.mem_cons.mpr h
    · rename_i hge
      split
      · rcases h with h | h
        · exact List.mem_cons_of_mem _ (ih (fun e he => hnew e (List.mem_cons_of_mem d he)) (.inl h))
        · rcases List.mem_cons.mp h with rfl | h
          · exact List.mem_cons_self
          · exact List.mem_cons_of_mem _
              (ih (fun e he => hnew e (List.mem_cons_of_mem d he)) (.inr h))
      · rename_i hle
        have heq : d.1 = k := Std.le_antisymm (Std.not_lt.mp hge) (Std.not_lt.mp hle)
        exact absurd heq (hnew d List.mem_cons_self)

theorem mem_insert {m : OrdMap κ ν} {k : κ} {v : ν} (hnew : ∀ e ∈ m.entries, e.1 ≠ k)
    {e : κ × ν} : e ∈ (m.insert k v).entries ↔ e = (k, v) ∨ e ∈ m.entries :=
  mem_insertEntry hnew

/-- Insert a list of entries, first to last. -/
def insertAll (m : OrdMap κ ν) : List (κ × ν) → OrdMap κ ν
  | [] => m
  | e :: rest => insertAll (m.insert e.1 e.2) rest

theorem mem_insertAll {m : OrdMap κ ν} {l : List (κ × ν)} (hnodup : (l.map Prod.fst).Nodup)
    (hnew : ∀ e ∈ m.entries, e.1 ∉ l.map Prod.fst) {e : κ × ν} :
    e ∈ (m.insertAll l).entries ↔ e ∈ l ∨ e ∈ m.entries := by
  induction l generalizing m with
  | nil => simp [insertAll]
  | cons d rest ih =>
    obtain ⟨hd, hrest⟩ := List.nodup_cons.mp hnodup
    have hmem {x : κ × ν} : x ∈ (m.insert d.1 d.2).entries ↔ x = d ∨ x ∈ m.entries :=
      mem_insert fun x hx heq => hnew x hx (heq ▸ List.mem_cons_self)
    have hnew' : ∀ x ∈ (m.insert d.1 d.2).entries, x.1 ∉ rest.map Prod.fst := by
      intro x hx
      rcases hmem.mp hx with rfl | hx
      · exact hd
      · exact fun h => hnew x hx (List.mem_cons_of_mem _ h)
    rw [insertAll, ih hrest hnew', hmem, List.mem_cons]
    tauto

end Insert

end OrdMap

end Octet
