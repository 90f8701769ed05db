/-
  File:      SteadQ/Lib/Program.lean
  Subject:   PROGRAMS OVER A SIGNATURE OF CALLS, and a program logic for disciplines.

  A program is a tree: it has returned, or it issues a call and goes on with whatever the
  environment answers. Nothing is assumed about the answers, so a property proved of the tree
  holds whatever other programs do between two calls.
-/
import Mathlib.Data.List.Basic

namespace Interact

/-! ## 1. Programs -/

variable {Act : Type} {Resp : Act → Type} {α β γ σ σ' ε ε' τ : Type}

/-- A program: a result, or a call and the rest as a function of the answer. -/
inductive Prog (Resp : Act → Type) (α : Type) where
  | ret (a : α)
  | act (a : Act) (k : Resp a → Prog Resp α)

namespace Prog

def bind (p : Prog Resp α) (f : α → Prog Resp β) : Prog Resp β :=
  match p with
  | .ret a => f a
  | .act a k => .act a fun r => (k r).bind f

instance : Monad (Prog Resp) where
  pure := .ret
  bind := bind

/-- Issue one call and return its answer. -/
def call (a : Act) : Prog Resp (Resp a) := .act a .ret

@[simp] theorem pure_eq (a : α) : (pure a : Prog Resp α) = .ret a := rfl

@[simp] theorem ret_bind (a : α) (f : α → Prog Resp β) : (Prog.ret a >>= f) = f a := rfl

@[simp] theorem act_bind (a : Act) (k : Resp a → Prog Resp α) (f : α → Prog Resp β) :
    (Prog.act a k >>= f) = .act a fun r => k r >>= f := rfl

theorem bind_ret (p : Prog Resp α) : (p >>= .ret) = p := by
  induction p with
  | ret a => rfl
  | act a k ih =>
    rw [act_bind]
    congr 1
    funext r
    exact ih r

theorem bind_assoc' (p : Prog Resp α) (f : α → Prog Resp β) (g : β → Prog Resp γ) :
    (p >>= f >>= g) = (p >>= fun a => f a >>= g) := by
  induction p with
  | ret a => rfl
  | act a k ih =>
    simp only [act_bind]
    congr 1
    funext r
    exact ih r

instance : LawfulMonad (Prog Resp) :=
  LawfulMonad.mk' (Prog Resp) bind_ret (fun _ _ => rfl) bind_assoc'

end Prog

/-- A program over a smaller signature, read as one over a larger: call `a` becomes call `f a`. -/
def Prog.embed {Act' : Type} {Resp' : Act' → Type} (f : Act → Act')
    (back : ∀ a, Resp' (f a) → Resp a) : Prog Resp α → Prog Resp' α
  | .ret a => .ret a
  | .act a k => .act (f a) fun r => (k (back a r)).embed f back

/-- Code with a private memory `σ` that can fail with `ε`; a failure keeps the memory. -/
abbrev Task (Resp : Act → Type) (σ ε α : Type) := ExceptT ε (StateT σ (Prog Resp)) α

namespace Task

/-- The program of a task started on memory `s`. -/
def start (m : Task Resp σ ε α) (s : σ) : Prog Resp (Except ε α × σ) := m.run.run s

/-- The task with a given program on each memory. -/
def ofStart (f : σ → Prog Resp (Except ε α × σ)) : Task Resp σ ε α := f

/-- Issue one call; `f` reads success or failure off its answer. -/
def call (a : Act) (f : Resp a → Except ε α) : Task Resp σ ε α :=
  ofStart fun s => .act a fun r => .ret (f r, s)

def memory : Task Resp σ ε σ := ofStart fun s => .ret (.ok s, s)

def remember (f : σ → σ) : Task Resp σ ε Unit := ofStart fun s => .ret (.ok (), f s)

/-- Run a task whose failure is a value for the caller (`match f() { Ok(..) .., Err(..) .. }`). -/
def attempt (m : Task Resp σ ε' α) : Task Resp σ ε (Except ε' α) :=
  ofStart fun s => m.start s >>= fun x => .ret (.ok x.1, x.2)

/-- Turn a failure into another (`map_err`). -/
def mapErr (f : ε' → ε) (m : Task Resp σ ε' α) : Task Resp σ ε α :=
  ofStart fun s => m.start s >>= fun x => .ret (x.1.mapError f, x.2)

/-- Fail unless the value is there (`?` on a result already computed). -/
def ofExcept (x : Except ε α) : Task Resp σ ε α := ofStart fun s => .ret (x, s)

/-- Fail with `e` unless the value is there (`ok_or`). -/
def ofOption (o : Option α) (e : ε) : Task Resp σ ε α := ofExcept (o.elim (.error e) .ok)

/-- The task on one part of a larger memory. -/
def zoom (get : σ' → σ) (put : σ' → σ → σ') (m : Task Resp σ ε α) : Task Resp σ' ε α :=
  ofStart fun s => m.start (get s) >>= fun x => .ret (x.1, put s x.2)

/-- The task over a larger signature; it reads the memory and leaves it as it is. -/
def peek {Act' : Type} {Resp' : Act' → Type} (f : Act → Act') (back : ∀ a, Resp' (f a) → Resp a)
    (m : Task Resp σ ε α) : Task Resp' σ ε α :=
  ofStart fun s => (m.start s).embed f back >>= fun x => .ret (x.1, s)

end Task

/-! ## 2. Disciplines -/

/-- A ghost automaton watching one program. -/
structure Discipline (Resp : Act → Type) (τ : Type) where
  /-- How a call and its answer advance the ghost state. -/
  next : τ → (a : Act) → Resp a → τ
  /-- Which calls are admitted. -/
  allow : τ → Act → Prop
  /-- What may be assumed of an answer. -/
  expect : τ → (a : Act) → Resp a → Prop := fun _ _ _ => True

namespace Prog

/-- Every call of `p` is admitted from ghost state `t` on, and results satisfy `Q`. -/
def Follows (D : Discipline Resp τ) (Q : α → τ → Prop) : Prog Resp α → τ → Prop
  | .ret a, t => Q a t
  | .act a k, t => D.allow t a ∧ ∀ r, D.expect t a r → (k r).Follows D Q (D.next t a r)

variable {D : Discipline Resp τ} {Q Q' : α → τ → Prop} {t : τ}

@[simp] theorem follows_ret {a : α} : (Prog.ret a : Prog Resp α).Follows D Q t ↔ Q a t := Iff.rfl

@[simp] theorem follows_act {a : Act} {k : Resp a → Prog Resp α} :
    (Prog.act a k).Follows D Q t ↔
      D.allow t a ∧ ∀ r, D.expect t a r → (k r).Follows D Q (D.next t a r) := Iff.rfl

theorem Follows.mono {p : Prog Resp α} (h : p.Follows D Q t) (hQ : ∀ a t, Q a t → Q' a t) :
    p.Follows D Q' t := by
  induction p generalizing t with
  | ret a => exact hQ a t h
  | act a k ih => exact ⟨h.1, fun r hr => ih r (h.2 r hr)⟩

theorem Follows.and {p : Prog Resp α} (h : p.Follows D Q t) (h' : p.Follows D Q' t) :
    p.Follows D (fun a t => Q a t ∧ Q' a t) t := by
  induction p generalizing t with
  | ret a => exact ⟨h, h'⟩
  | act a k ih => exact ⟨h.1, fun r hr => ih r (h.2 r hr) (h'.2 r hr)⟩

theorem follows_bind {p : Prog Resp α} {f : α → Prog Resp β} {R : β → τ → Prop} :
    (p >>= f).Follows D R t ↔ p.Follows D (fun a t' => (f a).Follows D R t') t := by
  induction p generalizing t with
  | ret a => exact Iff.rfl
  | act a k ih =>
    simp only [act_bind, follows_act]
    refine and_congr_right fun _ => forall_congr' fun r => imp_congr_right fun _ => ih r

end Prog

/-! ## 3. Disciplines of tasks -/

namespace Task

/-- Every call of `m`, started on memory `s` in ghost state `t`, is admitted, and every outcome
    satisfies `Q`. -/
def Meets (D : Discipline Resp τ) (m : Task Resp σ ε α) (s : σ) (t : τ)
    (Q : Except ε α → σ → τ → Prop) : Prop :=
  (m.start s).Follows D (fun x t' => Q x.1 x.2 t') t

variable {D : Discipline Resp τ} {m : Task Resp σ ε α} {s : σ} {t : τ}
  {Q Q' : Except ε α → σ → τ → Prop}

theorem Meets.mono (h : m.Meets D s t Q) (hQ : ∀ r s t, Q r s t → Q' r s t) : m.Meets D s t Q' :=
  Prog.Follows.mono h fun x t => hQ x.1 x.2 t

theorem Meets.and (h : m.Meets D s t Q) (h' : m.Meets D s t Q') :
    m.Meets D s t fun r s t => Q r s t ∧ Q' r s t := Prog.Follows.and h h'

@[simp] theorem meets_pure {a : α} : (pure a : Task Resp σ ε α).Meets D s t Q ↔ Q (.ok a) s t :=
  Iff.rfl

@[simp] theorem meets_throw {e : ε} : (throw e : Task Resp σ ε α).Meets D s t Q ↔ Q (.error e) s t :=
  Iff.rfl

/-- What a continuation makes of an outcome: a failure is the outcome of the whole. -/
def Then (D : Discipline Resp τ) (f : α → Task Resp σ ε β) (R : Except ε β → σ → τ → Prop) :
    Except ε α → σ → τ → Prop
  | .ok a, s, t => (f a).Meets D s t R
  | .error e, s, t => R (.error e) s t

@[simp] theorem then_ok {f : α → Task Resp σ ε β} {R : Except ε β → σ → τ → Prop} {a : α} :
    Then D f R (.ok a) s t ↔ (f a).Meets D s t R := Iff.rfl

@[simp] theorem then_error {f : α → Task Resp σ ε β} {R : Except ε β → σ → τ → Prop} {e : ε} :
    Then D f R (.error e) s t ↔ R (.error e) s t := Iff.rfl

/-- What both outcomes of the first part have to give. -/
theorem then_intro {f : α → Task Resp σ ε β} {R : Except ε β → σ → τ → Prop} {x : Except ε α}
    (herror : ∀ e, x = .error e → R (.error e) s t)
    (hok : ∀ a, x = .ok a → (f a).Meets D s t R) : Then D f R x s t := by
  cases x with
  | error e => exact herror e rfl
  | ok a => exact hok a rfl

@[simp] theorem meets_bind {f : α → Task Resp σ ε β} {R : Except ε β → σ → τ → Prop} :
    (m >>= f).Meets D s t R ↔ m.Meets D s t (Then D f R) := by
  have hstart : (m >>= f).start s = m.start s >>= fun x =>
      match x.1 with
      | .ok a => (f a).start x.2
      | .error e => .ret (.error e, x.2) := by
    show (m.start s).bind _ = (m.start s).bind _
    congr 1
    funext x
    rcases x with ⟨_ | _, _⟩ <;> rfl
  unfold Meets
  rw [hstart, Prog.follows_bind]
  refine iff_of_eq (congrArg (fun q => (m.start s).Follows D q t) ?_)
  funext x t'
  rcases x with ⟨_ | _, _⟩ <;> rfl

@[simp] theorem meets_map {f : α → β} {R : Except ε β → σ → τ → Prop} :
    (f <$> m).Meets D s t R ↔ m.Meets D s t fun r s' t' => R (r.map f) s' t' := by
  have hstart : (f <$> m).start s = m.start s >>= fun x => .ret (x.1.map f, x.2) := by
    show (m.start s).bind _ = (m.start s).bind _
    congr 1
    funext x
    rcases x with ⟨_ | _, _⟩ <;> rfl
  unfold Meets
  rw [hstart, Prog.follows_bind]
  rfl

@[simp] theorem meets_call {a : Act} {f : Resp a → Except ε α} :
    (call a f : Task Resp σ ε α).Meets D s t Q ↔
      D.allow t a ∧ ∀ r, D.expect t a r → Q (f r) s (D.next t a r) := Iff.rfl

@[simp] theorem meets_memory {Q : Except ε σ → σ → τ → Prop} :
    (memory : Task Resp σ ε σ).Meets D s t Q ↔ Q (.ok s) s t := Iff.rfl

@[simp] theorem meets_remember {f : σ → σ} {Q : Except ε Unit → σ → τ → Prop} :
    (remember f : Task Resp σ ε Unit).Meets D s t Q ↔ Q (.ok ()) (f s) t := Iff.rfl

@[simp] theorem meets_ofExcept {x : Except ε α} :
    (ofExcept x : Task Resp σ ε α).Meets D s t Q ↔ Q x s t := Iff.rfl

@[simp] theorem meets_attempt {m : Task Resp σ ε' α} {Q : Except ε (Except ε' α) → σ → τ → Prop} :
    (attempt m : Task Resp σ ε (Except ε' α)).Meets D s t Q ↔
      m.Meets D s t fun r s' t' => Q (.ok r) s' t' :=
  Prog.follows_bind

@[simp] theorem meets_mapErr {m : Task Resp σ ε' α} {f : ε' → ε} :
    (mapErr f m).Meets D s t Q ↔ m.Meets D s t fun r s' t' => Q (r.mapError f) s' t' :=
  Prog.follows_bind

@[simp] theorem meets_zoom {get : σ' → σ} {put : σ' → σ → σ'} {s : σ'}
    {Q : Except ε α → σ' → τ → Prop} :
    (zoom get put m).Meets D s t Q ↔ m.Meets D (get s) t fun r s' t' => Q r (put s s') t' :=
  Prog.follows_bind

theorem mapError_eq_ok {f : ε' → ε} {x : Except ε' α} {a : α} :
    x.mapError f = .ok a ↔ x = .ok a := by
  cases x <;> simp [Except.mapError]

theorem meets_ite {c : Prop} [Decidable c] {m' : Task Resp σ ε α} :
    (if c then m else m').Meets D s t Q ↔
      (c → m.Meets D s t Q) ∧ (¬ c → m'.Meets D s t Q) := by
  split <;> simp [*]

theorem meets_ofOption {o : Option α} {e : ε} :
    (ofOption o e : Task Resp σ ε α).Meets D s t Q ↔
      (∀ a, o = some a → Q (.ok a) s t) ∧ (o = none → Q (.error e) s t) := by
  cases o <;> simp [ofOption]

/-! ## 4. Invariants of tasks -/

/-- `I` holds of every outcome, and `J` of every success. -/
def Keeps (D : Discipline Resp τ) (m : Task Resp σ ε α) (s : σ) (t : τ) (I : σ → τ → Prop)
    (J : α → σ → τ → Prop) : Prop :=
  m.Meets D s t fun r s' t' => I s' t' ∧ ∀ a, r = .ok a → J a s' t'

section Keeps

variable {I I' : σ → τ → Prop} {J J' : α → σ → τ → Prop} {K : β → σ → τ → Prop}
  {k : α → Task Resp σ ε β}

theorem Keeps.mono (h : m.Keeps D s t I J) (hI : ∀ s t, I s t → I' s t)
    (hJ : ∀ a s t, I s t → J a s t → J' a s t) : m.Keeps D s t I' J' :=
  Meets.mono h fun _ _ _ hr => ⟨hI _ _ hr.1, fun a ha => hJ a _ _ hr.1 (hr.2 a ha)⟩

/-- A weaker invariant; a success remembers the stronger one. -/
theorem Keeps.weaken (h : m.Keeps D s t I J) (hI : ∀ s t, I s t → I' s t) :
    m.Keeps D s t I' fun a s t => I s t ∧ J a s t :=
  h.mono hI fun _ _ _ hi hj => ⟨hi, hj⟩

theorem keeps_pure {a : α} (hI : I s t) (hJ : J a s t) :
    (pure a : Task Resp σ ε α).Keeps D s t I J :=
  ⟨hI, by rintro _ ⟨⟩; exact hJ⟩

theorem keeps_throw {e : ε} (hI : I s t) : (throw e : Task Resp σ ε α).Keeps D s t I J :=
  ⟨hI, nofun⟩

theorem Keeps.bind (hm : m.Keeps D s t I J)
    (hk : ∀ a s' t', I s' t' → J a s' t' → (k a).Keeps D s' t' I K) :
    (m >>= k).Keeps D s t I K := by
  refine meets_bind.mpr (Meets.mono hm fun r s' t' hr => ?_)
  exact then_intro (fun e _ => ⟨hr.1, nofun⟩) fun a ha => hk a s' t' hr.1 (hr.2 a ha)

theorem Keeps.mapErr {m : Task Resp σ ε' α} {f : ε' → ε} (hm : m.Keeps D s t I J) :
    (mapErr f m).Keeps D s t I J := by
  refine meets_mapErr.mpr (Meets.mono hm fun r s' t' hr => ⟨hr.1, fun a ha => ?_⟩)
  exact hr.2 a (mapError_eq_ok.mp ha)

/-- A failure of the first part is a value for the second. -/
theorem Keeps.attempt {m : Task Resp σ ε' α} {k : Except ε' α → Task Resp σ ε β}
    (hm : m.Keeps D s t I J)
    (hk : ∀ r s' t', I s' t' → (∀ a, r = .ok a → J a s' t') → (k r).Keeps D s' t' I K) :
    (Task.attempt m >>= k).Keeps D s t I K :=
  meets_bind.mpr (meets_attempt.mpr (Meets.mono hm fun r s' t' hr => hk r s' t' hr.1 hr.2))

theorem keeps_call {a : Act} {f : Resp a → Except ε α} (hallow : D.allow t a)
    (hI : ∀ r, D.expect t a r → I s (D.next t a r)) :
    (call a f : Task Resp σ ε α).Keeps D s t I fun x s' t' =>
      s' = s ∧ ∃ r, f r = .ok x ∧ D.expect t a r ∧ t' = D.next t a r :=
  ⟨hallow, fun r hr => ⟨hI r hr, fun _ ha => ⟨rfl, r, ha, hr, rfl⟩⟩⟩

theorem keeps_memory {k : σ → Task Resp σ ε β} (hk : (k s).Keeps D s t I K) :
    (memory >>= k).Keeps D s t I K := hk

theorem keeps_remember {f : σ → σ} {k : Unit → Task Resp σ ε β}
    (hk : (k ()).Keeps D (f s) t I K) : (remember f >>= k).Keeps D s t I K := hk

theorem keeps_ofExcept {x : Except ε α} (hI : I s t)
    (hk : ∀ a, x = .ok a → (k a).Keeps D s t I K) : (ofExcept x >>= k).Keeps D s t I K :=
  meets_bind.mpr (then_intro (fun _ _ => ⟨hI, nofun⟩) hk)

theorem keeps_except {x : Except ε α} (hI : I s t) :
    (ofExcept x : Task Resp σ ε α).Keeps D s t I fun a s' t' => s' = s ∧ t' = t ∧ x = .ok a :=
  ⟨hI, fun _ ha => ⟨rfl, rfl, ha⟩⟩

theorem keeps_ofOption {o : Option α} {e : ε} (hI : I s t)
    (hk : ∀ a, o = some a → (k a).Keeps D s t I K) : (ofOption o e >>= k).Keeps D s t I K := by
  cases o with
  | none => exact ⟨hI, nofun⟩
  | some a => exact hk a rfl

theorem keeps_ite {c : Prop} [Decidable c] {m' : Task Resp σ ε α}
    (h : c → m.Keeps D s t I J) (h' : ¬ c → m'.Keeps D s t I J) :
    (if c then m else m').Keeps D s t I J := by
  split
  · exact h ‹_›
  · exact h' ‹_›

end Keeps

/-! ## 5. Embedded tasks -/

section Pull

variable {Act' : Type} {Resp' : Act' → Type} {f : Act → Act'}
  {back : ∀ a, Resp' (f a) → Resp a} {fwd : ∀ a, Resp a → Resp' (f a)} {E : Discipline Resp' τ}

/-- A discipline of the larger signature as it watches the smaller one. -/
def pull (E : Discipline Resp' τ) (f : Act → Act') (fwd : ∀ a, Resp a → Resp' (f a)) :
    Discipline Resp τ where
  next := fun t a r => E.next t (f a) (fwd a r)
  allow := fun t a => E.allow t (f a)
  expect := fun t a r => E.expect t (f a) (fwd a r)

theorem follows_pull (hfwd : ∀ a r, fwd a (back a r) = r) {p : Prog Resp α} {Q : α → τ → Prop}
    (h : p.Follows (pull E f fwd) Q t) : (p.embed f back).Follows E Q t := by
  induction p generalizing t with
  | ret a => exact h
  | act a k ih =>
    refine ⟨h.1, fun r hr => ih _ ?_⟩
    have := h.2 (back a r)
    simp only [pull, hfwd] at this
    exact this hr

theorem meets_pull (hfwd : ∀ a r, fwd a (back a r) = r)
    (h : m.Meets (pull E f fwd) s t fun r _ t' => Q r s t') : (peek f back m).Meets E s t Q :=
  Prog.follows_bind.mpr (follows_pull hfwd h)

end Pull

/-! ## 6. Calls that are not watched -/

/-- Everything is admitted and nothing is watched. -/
def unwatched (Resp : Act → Type) : Discipline Resp Unit where
  next := fun _ _ _ => ()
  allow := fun _ _ => True

/-- Nothing is watched, and every answer may be assumed to satisfy `F`. -/
def trusting (F : (a : Act) → Resp a → Prop) : Discipline Resp Unit where
  next := fun _ _ _ => ()
  allow := fun _ _ => True
  expect := fun _ a r => F a r

/-- Every outcome satisfies `Q`, whatever the answers. -/
def Always (m : Task Resp σ ε α) (s : σ) (Q : Except ε α → σ → Prop) : Prop :=
  m.Meets (unwatched Resp) s () fun r s _ => Q r s

theorem follows_embed {Act' : Type} {Resp' : Act' → Type} {f : Act → Act'}
    {back : ∀ a, Resp' (f a) → Resp a} {D : Discipline Resp' τ} {t : τ} {p : Prog Resp α}
    {Q : α → τ → Prop} (hallow : ∀ a, D.allow t (f a)) (hnext : ∀ a r, D.next t (f a) r = t)
    (h : p.Follows (unwatched Resp) (fun a _ => Q a t) ()) :
    (p.embed f back).Follows D Q t := by
  induction p with
  | ret a => exact h
  | act a k ih =>
    refine ⟨hallow a, fun r _ => ?_⟩
    rw [hnext]
    exact ih _ (h.2 _ trivial)

theorem always_of_forall {Q : Except ε α → Prop} (h : ∀ r, Q r) : m.Always s fun r _ => Q r := by
  unfold Always Meets
  induction m.start s with
  | ret x => exact h x.1
  | act a k ih => exact ⟨trivial, fun r _ => ih r⟩

/-- A task all of whose calls are admitted and not watched. -/
theorem meets_peek {Act' : Type} {Resp' : Act' → Type} {f : Act → Act'}
    {back : ∀ a, Resp' (f a) → Resp a} {D : Discipline Resp' τ} {t : τ}
    {Q : Except ε α → σ → τ → Prop} (hallow : ∀ a, D.allow t (f a))
    (hnext : ∀ a r, D.next t (f a) r = t) (h : m.Always s fun r _ => Q r s t) :
    (peek f back m).Meets D s t Q :=
  Prog.follows_bind.mpr (follows_embed hallow hnext h)

/-- Whatever the answers and the memory, a success satisfies `J`. -/
def Yields (m : Task Resp σ ε α) (J : α → Prop) : Prop :=
  ∀ s, m.Always s fun r _ => ∀ a, r = .ok a → J a

section Yields

variable {J : α → Prop} {K : β → Prop} {k : α → Task Resp σ ε β}

theorem yields_any : m.Yields fun _ => True := fun _ => always_of_forall fun _ _ _ => trivial

theorem yields_pure {a : α} (h : J a) : (pure a : Task Resp σ ε α).Yields J := by
  rintro s _ ⟨⟩
  exact h

theorem yields_throw {e : ε} : (throw e : Task Resp σ ε α).Yields J := fun _ _ => nofun

theorem Yields.bind (hm : m.Yields J) (hk : ∀ a, J a → (k a).Yields K) : (m >>= k).Yields K :=
  fun s => meets_bind.mpr (Meets.mono (hm s) fun _ s' _ hr =>
    then_intro (fun _ _ _ => nofun) fun a ha => hk a (hr a ha) s')

theorem Yields.mapErr {m : Task Resp σ ε' α} {f : ε' → ε} (hm : m.Yields J) :
    (mapErr f m).Yields J :=
  fun s => meets_mapErr.mpr (Meets.mono (hm s) fun _ _ _ hr a ha => hr a (mapError_eq_ok.mp ha))

theorem Yields.attempt {m : Task Resp σ ε' α} {k : Except ε' α → Task Resp σ ε β}
    (hm : m.Yields J) (hk : ∀ r, (∀ a, r = .ok a → J a) → (k r).Yields K) :
    (Task.attempt m >>= k).Yields K :=
  fun s => meets_bind.mpr (meets_attempt.mpr (Meets.mono (hm s) fun r s' _ hr => hk r hr s'))

theorem yields_call {a : Act} {f : Resp a → Except ε α} (h : ∀ r x, f r = .ok x → J x) :
    (call a f : Task Resp σ ε α).Yields J :=
  fun _ => ⟨trivial, fun r _ x hx => h r x hx⟩

theorem yields_memory {k : σ → Task Resp σ ε β} (hk : ∀ s, (k s).Yields K) :
    (memory >>= k).Yields K := fun s => hk s s

theorem yields_ofExcept {x : Except ε α} (hk : ∀ a, x = .ok a → (k a).Yields K) :
    (ofExcept x >>= k).Yields K :=
  fun s => meets_bind.mpr (then_intro (fun _ _ _ => nofun) fun a ha => hk a ha s)

theorem yields_ite {c : Prop} [Decidable c] {m' : Task Resp σ ε α} (h : c → m.Yields J)
    (h' : ¬ c → m'.Yields J) : (if c then m else m').Yields J := by
  split
  · exact h ‹_›
  · exact h' ‹_›

end Yields

/-- Where the answers satisfy `F`, a success satisfies `J`, whatever the memory. -/
def Given (F : (a : Act) → Resp a → Prop) (m : Task Resp σ ε α) (J : α → Prop) : Prop :=
  ∀ s, m.Meets (trusting F) s () fun r _ _ => ∀ a, r = .ok a → J a

section Given

variable {F : (a : Act) → Resp a → Prop} {J : α → Prop} {K : β → Prop} {k : α → Task Resp σ ε β}

theorem given_pure {a : α} (h : J a) : (pure a : Task Resp σ ε α).Given F J := by
  rintro s _ ⟨⟩
  exact h

theorem given_throw {e : ε} : (throw e : Task Resp σ ε α).Given F J := fun _ _ => nofun

theorem given_any : m.Given F fun _ => True := by
  intro s
  unfold Meets
  induction m.start s with
  | ret x => exact fun _ _ => trivial
  | act a k ih => exact ⟨trivial, fun r _ => ih r⟩

theorem Given.bind (hm : m.Given F J) (hk : ∀ a, J a → (k a).Given F K) : (m >>= k).Given F K :=
  fun s => meets_bind.mpr (Meets.mono (hm s) fun _ s' _ hr =>
    then_intro (fun _ _ _ => nofun) fun a ha => hk a (hr a ha) s')

theorem Given.mapErr {m : Task Resp σ ε' α} {f : ε' → ε} (hm : m.Given F J) :
    (mapErr f m).Given F J :=
  fun s => meets_mapErr.mpr (Meets.mono (hm s) fun _ _ _ hr a ha => hr a (mapError_eq_ok.mp ha))

theorem Given.attempt {m : Task Resp σ ε' α} {k : Except ε' α → Task Resp σ ε β}
    (hm : m.Given F J) (hk : ∀ r, (∀ a, r = .ok a → J a) → (k r).Given F K) :
    (Task.attempt m >>= k).Given F K :=
  fun s => meets_bind.mpr (meets_attempt.mpr (Meets.mono (hm s) fun r s' _ hr => hk r hr s'))

theorem given_call {a : Act} {f : Resp a → Except ε α} (h : ∀ r x, F a r → f r = .ok x → J x) :
    (call a f : Task Resp σ ε α).Given F J := fun _ => ⟨trivial, fun r hr x hx => h r x hr hx⟩

theorem given_memory {k : σ → Task Resp σ ε β} (hk : ∀ s, (k s).Given F K) :
    (memory >>= k).Given F K := fun s => hk s s

theorem given_ofExcept {x : Except ε α} (hk : ∀ a, x = .ok a → (k a).Given F K) :
    (ofExcept x >>= k).Given F K :=
  fun s => meets_bind.mpr (then_intro (fun _ _ _ => nofun) fun a ha => hk a ha s)

theorem given_ite {c : Prop} [Decidable c] {m' : Task Resp σ ε α} (h : c → m.Given F J)
    (h' : ¬ c → m'.Given F J) : (if c then m else m').Given F J := by
  split
  · exact h ‹_›
  · exact h' ‹_›

/-- More may be known of the answers. -/
theorem Given.of_imp {G : (a : Act) → Resp a → Prop} (hm : m.Given F J)
    (hG : ∀ a r, G a r → F a r) : m.Given G J := by
  have key : ∀ (p : Prog Resp (Except ε α × σ)) (Q : Except ε α × σ → Unit → Prop),
      p.Follows (trusting F) Q () → p.Follows (trusting G) Q () := by
    intro p Q hp
    induction p with
    | ret x => exact hp
    | act a k ih => exact ⟨trivial, fun r hr => ih r (hp.2 r (hG a r hr))⟩
  exact fun s => key _ _ (hm s)

/-- A task of the smaller signature, under what is known of its answers there. -/
theorem Given.peek {Act' : Type} {Resp' : Act' → Type} {G : (a : Act') → Resp' a → Prop}
    {f : Act → Act'} {back : ∀ a, Resp' (f a) → Resp a} (hm : m.Given F J)
    (hG : ∀ a r, G (f a) r → F a (back a r)) : (peek f back m).Given G J := by
  have key : ∀ (p : Prog Resp (Except ε α × σ)),
      p.Follows (trusting F) (fun x _ => ∀ a, x.1 = .ok a → J a) () →
      (p.embed f back).Follows (trusting G) (fun x _ => ∀ a, x.1 = .ok a → J a) () := by
    intro p hp
    induction p with
    | ret x => exact hp
    | act a k ih => exact ⟨trivial, fun r hr => ih _ (hp.2 _ (hG a r hr))⟩
  exact fun s => Prog.follows_bind.mpr (key _ (hm s))

end Given

/-- Code that leaves the part `f` of the memory as it is, whatever the answers. -/
def Fixes {κ : Type} (f : σ → κ) (m : Task Resp σ ε α) : Prop :=
  ∀ s, m.Always s fun _ s' => f s' = f s

section Fixes

variable {κ : Type} {f : σ → κ} {k : α → Task Resp σ ε β}

@[grind ←] theorem fixes_pure (a : α) : (pure a : Task Resp σ ε α).Fixes f := fun _ => rfl

@[grind ←] theorem fixes_throw (e : ε) : (throw e : Task Resp σ ε α).Fixes f := fun _ => rfl

@[grind ←] theorem fixes_memory : (memory : Task Resp σ ε σ).Fixes f := fun _ => rfl

@[grind ←] theorem fixes_ofExcept (x : Except ε α) : (ofExcept x : Task Resp σ ε α).Fixes f :=
  fun _ => rfl

@[grind ←] theorem fixes_ofOption (o : Option α) (e : ε) :
    (ofOption o e : Task Resp σ ε α).Fixes f := fun _ => rfl

@[grind ←] theorem fixes_call (a : Act) (g : Resp a → Except ε α) :
    (call a g : Task Resp σ ε α).Fixes f := fun _ => ⟨trivial, fun _ _ => rfl⟩

@[grind ←] theorem fixes_remember {g : σ → σ} (h : ∀ s, f (g s) = f s) :
    (remember g : Task Resp σ ε Unit).Fixes f := h

@[grind ←] theorem Fixes.bind (hm : m.Fixes f) (hk : ∀ a, (k a).Fixes f) : (m >>= k).Fixes f := by
  intro s
  refine meets_bind.mpr (Meets.mono (hm s) fun r s' _ hs => then_intro (fun _ _ => hs) ?_)
  intro a _
  exact Meets.mono (hk a s') fun _ _ _ hs' => hs'.trans hs

@[grind ←] theorem Fixes.map {g : α → β} (hm : m.Fixes f) : (g <$> m).Fixes f :=
  fun s => meets_map.mpr (hm s)

@[grind ←] theorem Fixes.attempt {m : Task Resp σ ε' α} (hm : m.Fixes f) :
    (Task.attempt m : Task Resp σ ε (Except ε' α)).Fixes f := fun s => meets_attempt.mpr (hm s)

@[grind ←] theorem Fixes.mapErr {g : ε' → ε} {m : Task Resp σ ε' α} (hm : m.Fixes f) :
    (Task.mapErr g m).Fixes f := fun s => meets_mapErr.mpr (hm s)

theorem Fixes.zoom {κ' : Type} {get : σ' → σ} {put : σ' → σ → σ'} {f' : σ' → κ'}
    (hm : m.Fixes f) (hput : ∀ s s', f s' = f (get s) → f' (put s s') = f' s) :
    (Task.zoom get put m).Fixes f' :=
  fun s => meets_zoom.mpr (Meets.mono (hm (get s)) fun _ s' _ hs => hput s s' hs)

/-- A look changes no memory. -/
theorem fixes_peek {Act' : Type} {Resp' : Act' → Type} {g : Act → Act'}
    {back : ∀ a, Resp' (g a) → Resp a} : (peek g back m).Fixes f :=
  fun _ => meets_peek (fun _ => trivial) (fun _ _ => rfl) (always_of_forall fun _ => rfl)

end Fixes

/-- Whatever the answers and the memory, a failure satisfies `N`. -/
def Fails (N : ε → Prop) (m : Task Resp σ ε α) : Prop :=
  ∀ s, m.Always s fun r _ => ∀ e, r = .error e → N e

section Fails

variable {N : ε → Prop} {k : α → Task Resp σ ε β}

@[grind ←] theorem fails_pure (a : α) : (pure a : Task Resp σ ε α).Fails N := fun _ _ => nofun

@[grind ←] theorem fails_throw {e : ε} (h : N e) : (throw e : Task Resp σ ε α).Fails N := by
  rintro s _ ⟨⟩
  exact h

@[grind ←] theorem fails_memory : (memory : Task Resp σ ε σ).Fails N := fun _ _ => nofun

@[grind ←] theorem fails_remember (g : σ → σ) : (remember g : Task Resp σ ε Unit).Fails N :=
  fun _ _ => nofun

@[grind ←] theorem fails_ofOption {e : ε} (h : N e) (o : Option α) :
    (ofOption o e : Task Resp σ ε α).Fails N := by
  cases o with
  | none => exact fails_throw h
  | some a => exact fails_pure a

@[grind ←] theorem fails_ofExcept {f : ε' → ε} (h : ∀ e, N (f e)) (x : Except ε' α) :
    (ofExcept (x.mapError f) : Task Resp σ ε α).Fails N := by
  cases x with
  | error e => exact fails_throw (h e)
  | ok a => exact fails_pure a

@[grind ←] theorem fails_attempt {m : Task Resp σ ε' α} :
    (Task.attempt m : Task Resp σ ε (Except ε' α)).Fails N :=
  fun _ => meets_attempt.mpr (Meets.mono (always_of_forall (Q := fun _ => True) fun _ => trivial)
    fun _ _ _ _ _ => nofun)

@[grind ←] theorem Fails.bind (hm : m.Fails N) (hk : ∀ a, (k a).Fails N) : (m >>= k).Fails N := by
  intro s
  refine meets_bind.mpr (Meets.mono (hm s) fun r s' _ hs => then_intro ?_ fun a _ => hk a s')
  rintro e he _ ⟨⟩
  exact hs e he

@[grind ←] theorem fails_mapErr {f : ε' → ε} {m : Task Resp σ ε' α} (h : ∀ e, N (f e)) :
    (Task.mapErr f m).Fails N := by
  refine fun s => meets_mapErr.mpr (always_of_forall fun r e he => ?_)
  cases r with
  | ok a => cases he
  | error e' =>
    cases he
    exact h e'

end Fails

end Task

/-! ## 7. Possible outcomes -/

/-- Some answers make `p` return `x`. -/
inductive Prog.Leads : Prog Resp α → α → Prop where
  | ret (x : α) : Leads (.ret x) x
  | act (a : Act) (k : Resp a → Prog Resp α) (r : Resp a) (x : α) (h : Leads (k r) x) :
      Leads (.act a k) x

namespace Prog.Leads

variable {p : Prog Resp α} {f : α → Prog Resp β} {x : α} {y : β} {D : Discipline Resp τ} {t : τ}
  {Q : α → τ → Prop}

theorem bind (hp : p.Leads x) (hf : (f x).Leads y) : (p >>= f).Leads y := by
  induction hp with
  | ret x => exact hf
  | act a k r x _ ih => exact .act a _ r y (ih hf)

/-- A possible outcome meets every postcondition of a discipline that assumes nothing. -/
theorem post (hp : p.Leads x) (hD : ∀ t a r, D.expect t a r) (hf : p.Follows D Q t) :
    ∃ t', Q x t' := by
  induction hp generalizing t with
  | ret x => exact ⟨t, hf⟩
  | act a k r x _ ih => exact ih (hf.2 r (hD t a r))

theorem embed {Act' : Type} {Resp' : Act' → Type} {g : Act → Act'}
    {back : ∀ a, Resp' (g a) → Resp a} (hback : ∀ a r, ∃ r', back a r' = r) (hp : p.Leads x) :
    (p.embed g back).Leads x := by
  induction hp with
  | ret x => exact .ret x
  | act a k r x _ ih =>
    obtain ⟨r', rfl⟩ := hback a r
    exact .act _ _ r' x ih

end Prog.Leads

namespace Task

/-- Some answers make `m`, started on memory `s`, end in `r` with memory `s'`. -/
def May (m : Task Resp σ ε α) (s : σ) (r : Except ε α) (s' : σ) : Prop :=
  (m.start s).Leads (r, s')

section May

variable {m : Task Resp σ ε α} {k : α → Task Resp σ ε β} {s s' s'' : σ} {r : Except ε β}

theorem may_pure (a : α) : (pure a : Task Resp σ ε α).May s (.ok a) s := .ret _

theorem may_throw (e : ε) : (throw e : Task Resp σ ε α).May s (.error e) s := .ret _

theorem may_memory : (memory : Task Resp σ ε σ).May s (.ok s) s := .ret _

theorem may_ofExcept (x : Except ε α) : (ofExcept x : Task Resp σ ε α).May s x s := .ret _

theorem may_remember (f : σ → σ) : (remember f : Task Resp σ ε Unit).May s (.ok ()) (f s) := .ret _

theorem May.bind {a : α} (hm : m.May s (.ok a) s') (hk : (k a).May s' r s'') :
    (m >>= k).May s r s'' := Prog.Leads.bind hm hk

theorem May.bind_error {e : ε} (hm : m.May s (.error e) s') : (m >>= k).May s (.error e) s' :=
  Prog.Leads.bind hm (.ret _)

theorem May.attempt {m : Task Resp σ ε' α} {x : Except ε' α} (hm : m.May s x s') :
    (attempt m : Task Resp σ ε (Except ε' α)).May s (.ok x) s' := Prog.Leads.bind hm (.ret _)

theorem May.map {f : α → β} {x : Except ε α} (hm : m.May s x s') :
    (f <$> m).May s (x.map f) s' := by
  refine Prog.Leads.bind hm ?_
  cases x <;> exact .ret _

theorem May.mapErr {m : Task Resp σ ε' α} {f : ε' → ε} {x : Except ε' α} (hm : m.May s x s') :
    (mapErr f m).May s (x.mapError f) s' := Prog.Leads.bind hm (.ret _)

theorem May.peek {Act' : Type} {Resp' : Act' → Type} {g : Act → Act'}
    {back : ∀ a, Resp' (g a) → Resp a} {x : Except ε α} (hback : ∀ a r, ∃ r', back a r' = r)
    (hm : m.May s x s') : (peek g back m).May s x s :=
  Prog.Leads.bind (Prog.Leads.embed hback hm) (.ret _)

end May

end Task

/-! ## 8. Fixed answers -/

/-- The result when call `a` is always answered by `o a`. -/
def Prog.eval (o : (a : Act) → Resp a) : Prog Resp α → α
  | .ret x => x
  | .act a k => (k (o a)).eval o

theorem Prog.eval_bind (o : (a : Act) → Resp a) (p : Prog Resp α) (f : α → Prog Resp β) :
    (p >>= f).eval o = (f (p.eval o)).eval o := by
  induction p with
  | ret x => rfl
  | act a k ih => exact ih (o a)

namespace Task

def eval (o : (a : Act) → Resp a) (m : Task Resp σ ε α) (s : σ) : Except ε α × σ :=
  (m.start s).eval o

section Eval

variable {o : (a : Act) → Resp a} {m : Task Resp σ ε α} {s : σ}

/-- What a continuation makes of an outcome. -/
def evalThen (o : (a : Act) → Resp a) (k : α → Task Resp σ ε β) : Except ε α × σ → Except ε β × σ
  | (.ok a, s) => (k a).eval o s
  | (.error e, s) => (.error e, s)

@[simp] theorem evalThen_ok {k : α → Task Resp σ ε β} {a : α} :
    evalThen o k (.ok a, s) = (k a).eval o s := rfl

@[simp] theorem evalThen_error {k : α → Task Resp σ ε β} {e : ε} :
    evalThen o k (.error e, s) = (.error e, s) := rfl

@[simp] theorem eval_pure {a : α} : (pure a : Task Resp σ ε α).eval o s = (.ok a, s) := rfl

@[simp] theorem eval_throw {e : ε} : (throw e : Task Resp σ ε α).eval o s = (.error e, s) := rfl

@[simp] theorem eval_call {a : Act} {f : Resp a → Except ε α} :
    (call a f : Task Resp σ ε α).eval o s = (f (o a), s) := rfl

@[simp] theorem eval_memory : (memory : Task Resp σ ε σ).eval o s = (.ok s, s) := rfl

@[simp] theorem eval_ofExcept {x : Except ε α} :
    (ofExcept x : Task Resp σ ε α).eval o s = (x, s) := rfl

theorem eval_bind {k : α → Task Resp σ ε β} :
    (m >>= k).eval o s = evalThen o k (m.eval o s) := by
  refine (Prog.eval_bind o (m.start s) _).trans ?_
  show _ = evalThen o k ((m.start s).eval o)
  rcases (m.start s).eval o with ⟨_ | _, _⟩ <;> rfl

theorem eval_attempt {m : Task Resp σ ε' α} :
    (attempt m : Task Resp σ ε (Except ε' α)).eval o s = (.ok (m.eval o s).1, (m.eval o s).2) :=
  Prog.eval_bind o (m.start s) _

theorem eval_mapErr {m : Task Resp σ ε' α} {f : ε' → ε} :
    (mapErr f m).eval o s = ((m.eval o s).1.mapError f, (m.eval o s).2) :=
  Prog.eval_bind o (m.start s) _

end Eval

/-- What code leaves alone, an evaluation leaves alone. -/
theorem Fixes.eval {κ : Type} {f : σ → κ} {m : Task Resp σ ε α} (hm : m.Fixes f)
    (o : (a : Act) → Resp a) (s : σ) : f (m.eval o s).2 = f s := by
  have key : ∀ (p : Prog Resp (Except ε α × σ)),
      p.Follows (unwatched Resp) (fun x _ => f x.2 = f s) () → f (p.eval o).2 = f s := by
    intro p
    induction p with
    | ret x => exact id
    | act a k ih => exact fun hp => ih (o a) (hp.2 (o a) trivial)
  exact key _ (hm s)

/-- Evaluation in steps. -/
theorem eval_step {o : (a : Act) → Resp a} {m : Task Resp σ ε α} {k : α → Task Resp σ ε β}
    {s s' : σ} {a : α} {y : Except ε β × σ} (h : m.eval o s = (.ok a, s'))
    (hk : (k a).eval o s' = y) : (m >>= k).eval o s = y := by
  rw [eval_bind, h]
  exact hk

/-- The discipline that only says which calls are made. -/
def only (P : Act → Prop) : Discipline Resp Unit where
  next := fun _ _ _ => ()
  allow := fun _ a => P a
  expect := fun _ _ _ => True

/-- Every call of `m` is one of `P`, whatever the answers are. -/
def Asks (P : Act → Prop) (m : Task Resp σ ε α) : Prop :=
  ∀ s, m.Meets (only P) s () fun _ _ _ => True

section Asks

variable {P : Act → Prop} {m : Task Resp σ ε α} {k : α → Task Resp σ ε β}

@[grind ←] theorem asks_pure (a : α) : (pure a : Task Resp σ ε α).Asks P :=
  fun _ => meets_pure.mpr trivial

@[grind ←] theorem asks_throw (e : ε) : (throw e : Task Resp σ ε α).Asks P :=
  fun _ => meets_throw.mpr trivial

@[grind ←] theorem asks_memory : (memory : Task Resp σ ε σ).Asks P := fun _ => trivial

@[grind ←] theorem asks_ofExcept (x : Except ε α) : (ofExcept x : Task Resp σ ε α).Asks P :=
  fun _ => trivial

@[grind ←] theorem asks_ofOption (o : Option α) (e : ε) : (ofOption o e : Task Resp σ ε α).Asks P :=
  fun _ => trivial

@[grind ←] theorem asks_remember (g : σ → σ) : (remember g : Task Resp σ ε Unit).Asks P :=
  fun _ => trivial

theorem asks_call {a : Act} {f : Resp a → Except ε α} (h : P a) :
    (call a f : Task Resp σ ε α).Asks P := fun _ => ⟨h, fun _ _ => trivial⟩

@[grind ←] theorem Asks.bind (hm : m.Asks P) (hk : ∀ a, (k a).Asks P) : (m >>= k).Asks P := by
  intro s
  rw [meets_bind]
  refine (hm s).mono fun r s' _ _ => ?_
  exact then_intro (fun _ _ => trivial) fun a _ => hk a s'

@[grind ←] theorem Asks.attempt {m : Task Resp σ ε' α} (hm : m.Asks P) :
    (Task.attempt m : Task Resp σ ε (Except ε' α)).Asks P :=
  fun s => meets_attempt.mpr ((hm s).mono fun _ _ _ _ => trivial)

@[grind ←] theorem Asks.mapErr {m : Task Resp σ ε' α} {f : ε' → ε} (hm : m.Asks P) :
    (Task.mapErr f m).Asks P := fun s => meets_mapErr.mpr (hm s)

/-- Looks are looks. -/
theorem asks_peek {Act' : Type} {Resp' : Act' → Type} {P : Act' → Prop} {f : Act → Act'}
    {back : ∀ a, Resp' (f a) → Resp a} (h : ∀ a, P (f a)) : (peek f back m).Asks P :=
  fun _ => meets_peek h (fun _ _ => rfl) (always_of_forall fun _ => trivial)

theorem asks_ite {c : Prop} [Decidable c] {m' : Task Resp σ ε α} (h : m.Asks P)
    (h' : m'.Asks P) : (if c then m else m').Asks P := by
  split <;> assumption

theorem Asks.mono {P' : Act → Prop} (hm : m.Asks P) (hP : ∀ a, P a → P' a) : m.Asks P' := by
  have key : ∀ {γ : Type} (p : Prog Resp γ) (Q : γ → Unit → Prop), p.Follows (only P) Q () →
      p.Follows (only P') Q () := by
    intro γ p Q hp
    induction p with
    | ret x => exact hp
    | act a k ih => exact ⟨hP a hp.1, fun r _ => ih r (hp.2 r trivial)⟩
  exact fun s => key _ _ (hm s)

end Asks

section Fixed

variable {Act' : Type} {Resp' : Act' → Type} {f : Act → Act'} {back : ∀ a, Resp' (f a) → Resp a}
  {E : Discipline Resp' τ} {t : τ} {P : Act → Prop} {o : (a : Act) → Resp a}

/-- Where the state fixes the answers to the calls in `P` and these leave the state alone, code
    that makes no other call has the outcome of its evaluation. -/
theorem follows_fixed {p : Prog Resp α} {Q : α → τ → Prop}
    (hE : ∀ a, P a → E.allow t (f a) ∧
      ∀ r, E.expect t (f a) r → back a r = o a ∧ E.next t (f a) r = t)
    (hp : p.Follows (only P) (fun _ _ => True) ()) (hQ : Q (p.eval o) t) :
    (p.embed f back).Follows E Q t := by
  induction p with
  | ret x => exact hQ
  | act a k ih =>
    obtain ⟨hallow, hanswer⟩ := hE a hp.1
    refine ⟨hallow, fun r hr => ?_⟩
    obtain ⟨hback, hnext⟩ := hanswer r hr
    show ((k (back a r)).embed f back).Follows E Q (E.next t (f a) r)
    rw [hnext, hback]
    exact ih (o a) (hp.2 (o a) trivial) hQ

theorem meets_fixed {m : Task Resp σ ε α} {s : σ} {Q : Except ε α → σ → τ → Prop}
    (hE : ∀ a, P a → E.allow t (f a) ∧
      ∀ r, E.expect t (f a) r → back a r = o a ∧ E.next t (f a) r = t)
    (hm : m.Asks P) (hQ : Q (m.eval o s).1 s t) : (peek f back m).Meets E s t Q :=
  Prog.follows_bind.mpr (follows_fixed hE (hm s) hQ)

end Fixed

end Task

/-! ## 9. Records -/

/-- Calls with their answers. -/
abbrev Log (Resp : Act → Type) := List (Σ a, Resp a)

/-- Answered as in `es`, `p` makes the calls in `es` and returns `x`. -/
inductive Prog.Trace : Prog Resp α → Log Resp → α → Prop where
  | ret (x : α) : Trace (.ret x) [] x
  | act (a : Act) (k : Resp a → Prog Resp α) (r : Resp a) (es : Log Resp) (x : α)
      (h : Trace (k r) es x) : Trace (.act a k) (⟨a, r⟩ :: es) x

/-- The discipline that records every call, newest first; `expect` may depend on the record. -/
def recorder (expect : Log Resp → (a : Act) → Resp a → Prop) : Discipline Resp (Log Resp) where
  next := fun t a r => ⟨a, r⟩ :: t
  allow := fun _ _ => True
  expect := expect

/-- Every answer was an expected one, on top of the record `t`. -/
def Expected (expect : Log Resp → (a : Act) → Resp a → Prop) (t : Log Resp) : Log Resp → Prop
  | [] => True
  | e :: es => expect t e.1 e.2 ∧ Expected expect (e :: t) es

theorem Prog.Trace.post {p : Prog Resp α} {es t : Log Resp} {x : α} {Q : α → Log Resp → Prop}
    {expect : Log Resp → (a : Act) → Resp a → Prop} (h : p.Trace es x)
    (hf : p.Follows (recorder expect) Q t) (he : Expected expect t es) :
    Q x (es.reverse ++ t) := by
  induction h generalizing t with
  | ret x => exact hf
  | act a k r es x _ ih =>
    rw [List.reverse_cons, List.append_assoc]
    exact ih (hf.2 r he.1) he.2

/-- An expectation that does not look at the record. -/
theorem expected_of_forall {F : (a : Act) → Resp a → Prop} {t es : Log Resp}
    (h : ∀ e ∈ es, F e.1 e.2) : Expected (fun _ => F) t es := by
  induction es generalizing t with
  | nil => trivial
  | cons e es ih =>
    exact ⟨h e List.mem_cons_self, ih fun e he => h e (List.mem_cons_of_mem _ he)⟩

/-- Run alone against `step`: the record, the result and the state behind. -/
def Prog.solo {ω : Type} (step : (a : Act) → ω → Option (Resp a × ω)) :
    Prog Resp α → ω → Option (Log Resp × α × ω)
  | .ret x, w => some ([], x, w)
  | .act a k, w => (step a w).bind fun y =>
      ((k y.1).solo step y.2).map fun z => (⟨a, y.1⟩ :: z.1, z.2)

theorem Prog.trace_of_solo {ω : Type} {step : (a : Act) → ω → Option (Resp a × ω)}
    {p : Prog Resp α} {w w' : ω} {es : Log Resp} {x : α}
    (h : p.solo step w = some (es, x, w')) : p.Trace es x := by
  induction p generalizing w es with
  | ret y =>
    cases h
    exact .ret _
  | act a k ih =>
    obtain ⟨⟨r, w₁⟩, -, hrest⟩ := Option.bind_eq_some_iff.mp h
    obtain ⟨⟨es', y⟩, hsolo, hz⟩ := Option.map_eq_some_iff.mp hrest
    cases hz
    exact .act a k r es' x (ih r hsolo)

/-- Fixed answers make a record. -/
theorem Prog.trace_of_eval (o : (a : Act) → Resp a) (p : Prog Resp α) :
    ∃ es, p.Trace es (p.eval o) ∧ ∀ e ∈ es, e.2 = o e.1 := by
  induction p with
  | ret x => exact ⟨[], .ret x, nofun⟩
  | act a k ih =>
    obtain ⟨es, htrace, hes⟩ := ih (o a)
    refine ⟨⟨a, o a⟩ :: es, .act a k (o a) es _ htrace, ?_⟩
    simpa using hes

/-! ## 10. Notes -/

/-- The discipline that writes a note about every call, newest first. -/
def noting {X : Type} (note : (a : Act) → Resp a → X) : Discipline Resp (List X) where
  next := fun l a r => note a r :: l
  allow := fun _ _ => True

namespace Task

variable {X : Type}

/-- Every outcome satisfies `Q`, which may refer to the notes taken so far. -/
def Notes (note : (a : Act) → Resp a → X) (m : Task Resp σ ε α) (s : σ) (l : List X)
    (Q : Except ε α → σ → List X → Prop) : Prop :=
  m.Meets (noting note) s l fun r s' l' => l <:+ l' ∧ Q r s' l'

section Notes

variable {note : (a : Act) → Resp a → X} {m : Task Resp σ ε α} {s : σ} {l : List X}
  {Q Q' : Except ε α → σ → List X → Prop} {k : α → Task Resp σ ε β}
  {R : Except ε β → σ → List X → Prop}

theorem Notes.mono (h : m.Notes note s l Q)
    (hQ : ∀ r s' l', l <:+ l' → Q r s' l' → Q' r s' l') : m.Notes note s l Q' :=
  Meets.mono h fun r s' l' hq => ⟨hq.1, hQ r s' l' hq.1 hq.2⟩

theorem notes_pure {a : α} (h : Q (.ok a) s l) : (pure a : Task Resp σ ε α).Notes note s l Q :=
  meets_pure.mpr ⟨List.suffix_rfl, h⟩

theorem notes_throw {e : ε} (h : Q (.error e) s l) :
    (throw e : Task Resp σ ε α).Notes note s l Q := meets_throw.mpr ⟨List.suffix_rfl, h⟩

theorem Notes.bind (hm : m.Notes note s l Q)
    (hok : ∀ a s' l', l <:+ l' → Q (.ok a) s' l' → (k a).Notes note s' l' R)
    (herror : ∀ e s' l', l <:+ l' → Q (.error e) s' l' → R (.error e) s' l') :
    (m >>= k).Notes note s l R := by
  refine meets_bind.mpr (Meets.mono hm fun r s' l' hq => then_intro ?_ ?_)
  · rintro e rfl
    exact ⟨hq.1, herror e s' l' hq.1 hq.2⟩
  · rintro a rfl
    exact Meets.mono (hok a s' l' hq.1 hq.2) fun r s'' l'' hr => ⟨hq.1.trans hr.1, hr.2⟩

/-- The failure of the first part is a value for the rest. -/
theorem Notes.attempt {m : Task Resp σ ε' α} {Q : Except ε' α → σ → List X → Prop}
    {k : Except ε' α → Task Resp σ ε β} (hm : m.Notes note s l Q)
    (hk : ∀ x s' l', l <:+ l' → Q x s' l' → (k x).Notes note s' l' R) :
    (Task.attempt m >>= k).Notes note s l R := by
  refine meets_bind.mpr (meets_attempt.mpr (Meets.mono hm fun x s' l' hq => then_ok.mpr ?_))
  exact Meets.mono (hk x s' l' hq.1 hq.2) fun r s'' l'' hr => ⟨hq.1.trans hr.1, hr.2⟩

theorem Notes.mapErr {m : Task Resp σ ε' α} {f : ε' → ε}
    (hm : m.Notes note s l fun r s' l' => Q (r.mapError f) s' l') :
    (Task.mapErr f m).Notes note s l Q := meets_mapErr.mpr hm

theorem notes_call {a : Act} {f : Resp a → Except ε α} (h : ∀ r, Q (f r) s (note a r :: l)) :
    (call a f : Task Resp σ ε α).Notes note s l Q :=
  meets_call.mpr ⟨trivial, fun r _ => ⟨List.suffix_cons _ _, h r⟩⟩

theorem notes_memory {k : σ → Task Resp σ ε β} (hk : (k s).Notes note s l R) :
    ((memory : Task Resp σ ε σ) >>= k).Notes note s l R := meets_bind.mpr hk

theorem notes_remember {f : σ → σ} {Q : Except ε Unit → σ → List X → Prop}
    (h : Q (.ok ()) (f s) l) : (remember f : Task Resp σ ε Unit).Notes note s l Q :=
  meets_remember.mpr ⟨List.suffix_rfl, h⟩

theorem notes_ofExcept {x : Except ε α} (hok : ∀ a, x = .ok a → (k a).Notes note s l R)
    (herror : ∀ e, x = .error e → R (.error e) s l) :
    ((ofExcept x : Task Resp σ ε α) >>= k).Notes note s l R := by
  cases x with
  | error e => exact meets_bind.mpr ⟨List.suffix_rfl, herror e rfl⟩
  | ok a => exact meets_bind.mpr (hok a rfl)

theorem notes_ite {c : Prop} [Decidable c] {m' : Task Resp σ ε α} (h : c → m.Notes note s l Q)
    (h' : ¬ c → m'.Notes note s l Q) : (if c then m else m').Notes note s l Q := by
  split
  · exact h ‹_›
  · exact h' ‹_›

/-- What holds whatever the answers holds with notes. -/
theorem Always.notes {P : Except ε α → σ → Prop} (hm : m.Always s P) :
    m.Notes note s l fun r s' _ => P r s' := by
  suffices hf : ∀ (p : Prog Resp (Except ε α × σ)) (l' : List X), l <:+ l' →
      p.Follows (unwatched Resp) (fun x _ => P x.1 x.2) () →
      p.Follows (noting note) (fun x l'' => l <:+ l'' ∧ P x.1 x.2) l' from
    hf (m.start s) l List.suffix_rfl hm
  intro p
  induction p with
  | ret x => exact fun l' hl hp => ⟨hl, hp⟩
  | act a k ih =>
    exact fun l' hl hp =>
      ⟨trivial, fun r _ => ih r _ (hl.trans (List.suffix_cons _ _)) (hp.2 r trivial)⟩

theorem Yields.notes {J : α → Prop} (hm : m.Yields J) :
    m.Notes note s l fun r _ _ => ∀ a, r = .ok a → J a := Always.notes (hm s)

theorem Notes.and (h : m.Notes note s l Q) (h' : m.Notes note s l Q') :
    m.Notes note s l fun r s' l' => Q r s' l' ∧ Q' r s' l' :=
  Meets.mono (Meets.and h h') fun _ _ _ hq => ⟨hq.1.1, hq.1.2, hq.2.2⟩

/-- A note is never taken back. -/
theorem notes_any (h : ∀ r s' l', l <:+ l' → Q r s' l') : m.Notes note s l Q := by
  suffices hf : ∀ (p : Prog Resp (Except ε α × σ)) (l' : List X), l <:+ l' →
      p.Follows (noting note) (fun x l'' => l <:+ l'' ∧ Q x.1 x.2 l'') l' from
    hf (m.start s) l List.suffix_rfl
  intro p
  induction p with
  | ret x => exact fun l' hl => ⟨hl, h x.1 x.2 l' hl⟩
  | act a k ih => exact fun l' hl => ⟨trivial, fun r _ => ih r _ (hl.trans (List.suffix_cons _ _))⟩

/-- What the notes about calls in `P` leave alone is left alone by code that makes no others. -/
theorem Asks.notes {P : Act → Prop} {I : List X → Prop} (hm : m.Asks P) (hl : I l)
    (hI : ∀ a r l, P a → I l → I (note a r :: l)) : m.Notes note s l fun _ _ l' => I l' := by
  suffices hf : ∀ (p : Prog Resp (Except ε α × σ)) (l' : List X), l <:+ l' → I l' →
      p.Follows (only P) (fun _ _ => True) () →
      p.Follows (noting note) (fun _ l'' => l <:+ l'' ∧ I l'') l' from
    hf (m.start s) l List.suffix_rfl hl (hm s)
  intro p
  induction p with
  | ret x => exact fun l' hl' hI' _ => ⟨hl', hI'⟩
  | act a k ih =>
    intro l' hl' hI' hp
    exact ⟨trivial, fun r _ => ih r _ (hl'.trans (List.suffix_cons _ _)) (hI a r l' hp.1 hI')
      (hp.2 r trivial)⟩

/-- What is proved of the notes of every run holds of the record of a run. -/
theorem Notes.trace {Q : Except ε α → σ → Log Resp → Prop} (h : m.Notes Sigma.mk s [] Q)
    {es : Log Resp} {r : Except ε α} {s' : σ} (ht : (m.start s).Trace es (r, s')) :
    Q r s' es.reverse := by
  have hpost := ht.post h (expected_of_forall fun _ _ => trivial)
  rw [List.append_nil] at hpost
  exact hpost.2

end Notes

end Task

/-! ## 11. Runs among others -/

/-- A run of `p` from `w` to `w'` with this record and result: between the calls the world changes
    as `rely` allows, and `step` says how a call is answered. -/
inductive Prog.Amid {ω : Type} (rely : ω → ω → Prop) (step : ω → (a : Act) → Resp a → ω → Prop) :
    Prog Resp α → ω → Log Resp → α → ω → Prop where
  | ret {w w' : ω} (x : α) (h : rely w w') : Amid rely step (.ret x) w [] x w'
  | act {w w₁ w₂ w' : ω} (a : Act) (k : Resp a → Prog Resp α) (r : Resp a) (es : Log Resp) (x : α)
      (h : rely w w₁) (hs : step w₁ a r w₂) (hk : Amid rely step (k r) w₂ es x w') :
      Amid rely step (.act a k) w (⟨a, r⟩ :: es) x w'

section Amid

variable {ω : Type} {rely : ω → ω → Prop} {step : ω → (a : Act) → Resp a → ω → Prop}
  {p : Prog Resp α} {w w' : ω} {es : Log Resp} {x : α}

theorem Prog.Amid.trace (h : p.Amid rely step w es x w') : p.Trace es x := by
  induction h with
  | ret x _ => exact .ret x
  | act a k r es x _ _ _ ih => exact .act a k r es x ih

/-- Nothing happens but what `rely` allows, if the calls of `p` are allowed as well. -/
theorem Prog.Amid.within (h : p.Amid rely step w es x w')
    (htrans : ∀ {u v z}, rely u v → rely v z → rely u z)
    (hown : ∀ {u a r v}, step u a r v → rely u v) : rely w w' := by
  induction h with
  | ret x h => exact h
  | act a k r es x h hs _ ih => exact htrans h (htrans (hown hs) ih)

theorem Prog.Amid.moment (h : p.Amid rely step w es x w')
    (htrans : ∀ {u v z}, rely u v → rely v z → rely u z)
    (hown : ∀ {u a r v}, step u a r v → rely u v) {e : Σ a, Resp a} (he : e ∈ es) :
    ∃ u v, rely w u ∧ step u e.1 e.2 v ∧ rely v w' := by
  induction h with
  | ret x _ => cases he
  | @act w w₁ w₂ w' a k r es x hr hs hk ih =>
    rcases List.mem_cons.mp he with rfl | he
    · exact ⟨w₁, w₂, hr, hs, hk.within htrans hown⟩
    · obtain ⟨u, v, hu, hstep, hv⟩ := ih he
      exact ⟨u, v, htrans hr (htrans (hown hs) hu), hstep, hv⟩

/-- What is proved of every run with answers in `F` holds of a run among others, if `F` follows
    from an invariant of the world. -/
theorem Prog.Amid.given {I : ω → Prop} {F : (a : Act) → Resp a → Prop} {Q : α → Unit → Prop}
    (h : p.Amid rely step w es x w') (hI : I w) (hrely : ∀ {u v}, I u → rely u v → I v)
    (hstep : ∀ {u a r v}, I u → step u a r v → F a r ∧ I v)
    (hp : p.Follows (Task.trusting F) Q ()) : Q x () := by
  induction h with
  | ret x _ => exact hp
  | act a k r es x hr hs _ ih =>
    obtain ⟨hF, hI'⟩ := hstep (hrely hI hr) hs
    exact ih hI' (hp.2 r hF)

/-- A run alone is one among others that do nothing. -/
theorem Prog.amid_of_solo {alone : (a : Act) → ω → Option (Resp a × ω)} {P : Act → Prop}
    {I : ω → Prop} (hrefl : ∀ u, rely u u)
    (hstep : ∀ a u r v, P a → I u → alone a u = some (r, v) → step u a r v ∧ I v)
    (h : p.solo alone w = some (es, x, w')) (hP : ∀ e ∈ es, P e.1) (hI : I w) :
    p.Amid rely step w es x w' := by
  induction p generalizing w es with
  | ret y =>
    cases h
    exact .ret _ (hrefl _)
  | act a k ih =>
    obtain ⟨⟨r, u⟩, halone, hrest⟩ := Option.bind_eq_some_iff.mp h
    obtain ⟨⟨es', y⟩, hsolo, hz⟩ := Option.map_eq_some_iff.mp hrest
    cases hz
    obtain ⟨hs, hIu⟩ := hstep a w r u (hP _ List.mem_cons_self) hI halone
    exact .act a k r es' x (hrefl _) hs
      (ih r hsolo (fun e he => hP e (List.mem_cons_of_mem _ he)) hIu)

end Amid

end Interact
