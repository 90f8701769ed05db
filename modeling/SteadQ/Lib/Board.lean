/-
  File:      SteadQ/Lib/Board.lean
  Subject:   OBJECTS THAT MOVE FROM PLACE TO PLACE UNDER LABELS.

  A place holds at most one file; the label of a place says which object lies there and in which
  condition. A board says of every object where it stands: not born yet, held at one place, or
  gone. The library relates the two and says how boards evolve.
-/
import Mathlib.Logic.Function.Basic
import Mathlib.Logic.Relation

namespace Board

variable {K L P F : Type}

/-- Where an object stands. -/
inductive Standing (L P : Type) where
  | unborn
  | held (l : L) (p : P)
  | gone (l : L)
  deriving DecidableEq

/-! ## 1. Boards and files -/

/-- The board says where every labelled file is, and what it holds has a file, unless it is in a
    condition whose files may be removed. -/
structure Tracks (label : P → Option (K × L)) (spare : L → Prop) (files : P → Option F)
    (σ : K → Standing L P) : Prop where
  sound : ∀ {p i k l}, files p = some i → label p = some (k, l) → σ k = .held l p
  named : ∀ {k l p}, σ k = .held l p → label p = some (k, l)
  present : ∀ {k l p}, σ k = .held l p → ¬ spare l → (files p).isSome

namespace Tracks

variable {label : P → Option (K × L)} {spare : L → Prop} {files files' : P → Option F}
  {σ : K → Standing L P} {k : K} {l l' : L} {p q : P} {i j : F}

/-- **An object lies at one place, in one condition.** -/
theorem unique (h : Tracks label spare files σ) (hp : files p = some i) (hq : files q = some j)
    (hlp : label p = some (k, l)) (hlq : label q = some (k, l')) : p = q ∧ l = l' := by
  have hheld := (h.sound hp hlp).symm.trans (h.sound hq hlq)
  cases hheld
  exact ⟨rfl, rfl⟩

variable [DecidableEq P]

/-- A file appears where the board expects one, or where no label is. -/
theorem refill (h : Tracks label spare files σ)
    (hp : ∀ k l, label p = some (k, l) → σ k = .held l p) (i : F) :
    Tracks label spare (Function.update files p (some i)) σ where
  sound := by
    intro q j k l hq hl
    by_cases hqp : q = p
    · subst hqp
      exact hp k l hl
    · rw [Function.update_of_ne hqp] at hq
      exact h.sound hq hl
  named := h.named
  present := by
    intro k l q hk hs
    by_cases hqp : q = p
    · subst hqp
      rw [Function.update_self]
      rfl
    · rw [Function.update_of_ne hqp]
      exact h.present hk hs

/-- A file that may be removed is. -/
theorem drop (h : Tracks label spare files σ) (hp : ∀ k l, label p = some (k, l) → spare l) :
    Tracks label spare (Function.update files p none) σ where
  sound := by
    intro q j k l hq hl
    by_cases hqp : q = p
    · subst hqp
      rw [Function.update_self] at hq
      cases hq
    · rw [Function.update_of_ne hqp] at hq
      exact h.sound hq hl
  named := h.named
  present := by
    intro k l q hk hs
    have hqp : q ≠ p := by
      rintro rfl
      exact hs (hp k l (h.named hk))
    rw [Function.update_of_ne hqp]
    exact h.present hk hs

variable [DecidableEq K]

/-- The object leaves the board. -/
theorem retire (h : Tracks label spare files σ) (hi : files p = some i)
    (hp : label p = some (k, l)) :
    Tracks label spare (Function.update files p none) (Function.update σ k (.gone l)) where
  sound := by
    intro q j k' l' hq hl
    by_cases hqp : q = p
    · subst hqp
      rw [Function.update_self] at hq
      cases hq
    · rw [Function.update_of_ne hqp] at hq
      have hne : k' ≠ k := by
        rintro rfl
        exact hqp (h.unique hq hi hl hp).1
      rw [Function.update_of_ne hne]
      exact h.sound hq hl
  named := by
    intro k' l' q hk
    by_cases hkk : k' = k
    · subst hkk
      rw [Function.update_self] at hk
      cases hk
    · rw [Function.update_of_ne hkk] at hk
      exact h.named hk
  present := by
    intro k' l' q hk hs
    by_cases hkk : k' = k
    · subst hkk
      rw [Function.update_self] at hk
      cases hk
    · rw [Function.update_of_ne hkk] at hk
      have hqp : q ≠ p := by
        rintro rfl
        have hname := h.named hk
        rw [hp] at hname
        cases hname
        exact hkk rfl
      rw [Function.update_of_ne hqp]
      exact h.present hk hs

/-- An object that lies nowhere is put at a place. -/
theorem place (h : Tracks label spare files σ) (hk : ∀ l q, σ k ≠ .held l q)
    (hp : label p = some (k, l)) (i : F) :
    Tracks label spare (Function.update files p (some i)) (Function.update σ k (.held l p)) where
  sound := by
    intro q j k' l' hq hl
    by_cases hqp : q = p
    · subst hqp
      rw [hp] at hl
      cases hl
      rw [Function.update_self]
    · rw [Function.update_of_ne hqp] at hq
      have hheld := h.sound hq hl
      have hne : k' ≠ k := by
        rintro rfl
        exact hk _ _ hheld
      rw [Function.update_of_ne hne]
      exact hheld
  named := by
    intro k' l' q hk'
    by_cases hkk : k' = k
    · subst hkk
      rw [Function.update_self] at hk'
      cases hk'
      exact hp
    · rw [Function.update_of_ne hkk] at hk'
      exact h.named hk'
  present := by
    intro k' l' q hk' hs
    by_cases hqp : q = p
    · subst hqp
      rw [Function.update_self]
      rfl
    · have hkk : k' ≠ k := by
        rintro rfl
        rw [Function.update_self] at hk'
        cases hk'
        exact hqp rfl
      rw [Function.update_of_ne hkk] at hk'
      rw [Function.update_of_ne hqp]
      exact h.present hk' hs

/-- The object moves from one place to another. -/
theorem move (h : Tracks label spare files σ) (hi : files p = some i)
    (hp : label p = some (k, l)) (hq : label q = some (k, l')) (j : F) :
    Tracks label spare (Function.update (Function.update files p none) q (some j))
      (Function.update σ k (.held l' q)) := by
  have hgone : ∀ m r, Function.update σ k (.gone l) k ≠ .held m r := by
    intro m r hr
    rw [Function.update_self] at hr
    cases hr
  have hplace := (h.retire hi hp).place hgone hq j
  rwa [Function.update_idem] at hplace

end Tracks

/-! ## 2. Turns -/

section Turns

/-- What an object may go through: the condition it is born in, the next one, and when it may
    leave the board. -/
structure Rules (K L : Type) where
  birth : K → L → Prop
  next : L → L → Prop
  leave : L → Prop

/-- The next standing of an object. -/
inductive Change (rules : Rules K L) (k : K) : Standing L P → Standing L P → Prop where
  | birth {l : L} (p : P) (hl : rules.birth k l) : Change rules k .unborn (.held l p)
  | next {l l' : L} {p : P} (q : P) (hl : rules.next l l') :
    Change rules k (.held l p) (.held l' q)
  | leave {l : L} {p : P} (hl : rules.leave l) : Change rules k (.held l p) (.gone l)

/-- What an object goes through. -/
def Course (rules : Rules K L) (k : K) : Standing L P → Standing L P → Prop :=
  Relation.ReflTransGen (Change rules k)

variable {rules : Rules K L} {k : K} {x y : Standing L P}

/-- The condition of an object, once it is born. -/
def Standing.label : Standing L P → Option L
  | .unborn => none
  | .held l _ => some l
  | .gone l => some l

/-- What births bring and moves keep holds of an object all its life. -/
theorem Course.invariant {I : L → Prop} (h : Course rules k x y)
    (hbirth : ∀ l, rules.birth k l → I l) (hnext : ∀ l l', rules.next l l' → I l → I l')
    (hI : ∀ l, x.label = some l → I l) : ∀ l, y.label = some l → I l := by
  induction h with
  | refl => exact hI
  | tail _ hc ih =>
    cases hc with
    | birth p hl =>
      rintro _ ⟨⟩
      exact hbirth _ hl
    | next q hl =>
      rintro _ ⟨⟩
      exact hnext _ _ hl (ih _ rfl)
    | leave hl =>
      rintro _ ⟨⟩
      exact ih _ rfl

theorem Course.born (h : Course rules k x y) (hx : x ≠ .unborn) : y ≠ .unborn := by
  induction h with
  | refl => exact hx
  | tail _ hc ih =>
    cases hc with
    | birth p hl => exact nofun
    | next q hl => exact nofun
    | leave hl => exact nofun

/-- What moves keep holds of an object from any point of its life on. -/
theorem Course.keeps {I : L → Prop} (h : Course rules k x y) (hx : x ≠ .unborn)
    (hnext : ∀ l l', rules.next l l' → I l → I l') (hI : ∀ l, x.label = some l → I l) :
    ∀ l, y.label = some l → I l := by
  induction h with
  | refl => exact hI
  | tail hxy hc ih =>
    cases hc with
    | birth p hl => exact absurd rfl (Course.born hxy hx)
    | next q hl =>
      rintro _ ⟨⟩
      exact hnext _ _ hl (ih _ rfl)
    | leave hl =>
      rintro _ ⟨⟩
      exact ih _ rfl

/-- What is gone stays gone, and so does an object in a condition it can neither change nor leave
    the board in. -/
theorem Course.stays (h : Course rules k x y) (hborn : x ≠ .unborn)
    (hfinal : ∀ l p, x = .held l p → (∀ l', ¬ rules.next l l') ∧ ¬ rules.leave l) : y = x := by
  induction h with
  | refl => rfl
  | tail _ hc ih =>
    subst ih
    cases hc with
    | birth p hl => exact absurd rfl hborn
    | next q hl => exact absurd hl ((hfinal _ _ rfl).1 _)
    | leave hl => exact absurd hl (hfinal _ _ rfl).2

/-- The object has come as far as `n`. -/
def Standing.reaches (rank : L → Nat) (n : Nat) : Standing L P → Prop
  | .unborn => False
  | .held l _ => n ≤ rank l
  | .gone _ => True

/-- **A measure that grows with every move never falls.** -/
theorem Course.rank {rank : L → Nat} (h : Course rules k x y)
    (hnext : ∀ l l', rules.next l l' → rank l < rank l') {n : Nat} (hn : x.reaches rank n) :
    y.reaches rank n := by
  induction h with
  | refl => exact hn
  | tail _ hc ih =>
    cases hc with
    | birth p hl => exact ih.elim
    | next q hl => exact Nat.le_trans ih (Nat.le_of_lt (hnext _ _ hl))
    | leave hl => trivial

/-- **A place that was left is not taken again** under the same label. -/
theorem Course.left {rank : L → Nat} {l : L} {p : P} {x y z : Standing L P}
    (hnext : ∀ l l', rules.next l l' → rank l < rank l') (hxy : Course rules k x y)
    (hyz : Course rules k y z) (hx : x = .held l p) (hy : y ≠ .held l p) : z ≠ .held l p := by
  have hmoved : ∀ {y}, Course rules k x y → y = x ∨ y.reaches rank (rank l + 1) := by
    intro y h
    induction h with
    | refl => exact .inl rfl
    | tail _ hc ih =>
      rcases ih with rfl | ih
      · rw [hx] at hc
        cases hc with
        | next q hl => exact .inr (hnext _ _ hl)
        | leave hl => exact .inr trivial
      · cases hc with
        | birth p hl => exact ih.elim
        | next q hl => exact .inr (Nat.le_trans ih (Nat.le_of_lt (hnext _ _ hl)))
        | leave hl => exact .inr trivial
  have hfar : y.reaches rank (rank l + 1) :=
    (hmoved hxy).resolve_left fun h => hy (h.trans hx)
  rintro rfl
  exact Nat.not_succ_le_self _ (hyz.rank hnext hfar)

variable [DecidableEq K] {σ σ' : K → Standing L P}

/-- One object makes one move. -/
def Turn (rules : Rules K L) (σ σ' : K → Standing L P) : Prop :=
  ∃ k x, Change rules k (σ k) x ∧ σ' = Function.update σ k x

/-- A play: any number of turns. -/
def Turns (rules : Rules K L) : (K → Standing L P) → (K → Standing L P) → Prop :=
  Relation.ReflTransGen (Turn rules)

/-- **In a play every object goes its course.** -/
theorem Turns.course (h : Turns rules σ σ') (k : K) : Course rules k (σ k) (σ' k) := by
  induction h with
  | refl => exact .refl
  | tail _ hs ih =>
    obtain ⟨k', x, hc, rfl⟩ := hs
    by_cases hk : k = k'
    · subst hk
      rw [Function.update_self]
      exact ih.tail hc
    · rw [Function.update_of_ne hk]
      exact ih

end Turns

end Board
