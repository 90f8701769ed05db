/-
  File:      SteadQ/Lib/Invariant.lean
  Subject:   INVARIANTS OF CODE UNDER A DISCIPLINE, and what they say of a pool.
-/
import SteadQ.Lib.Pool

namespace Interact

variable {Act : Type} {Resp : Act → Type} {W C O R M σ σ' ε ε' α β τ : Type}

/-! ## 1. Invariants of tasks -/

namespace Task

/-- `I` holds behind `m` if it held in front. -/
def Preserves (D : Discipline Resp τ) (I : σ → τ → Prop) (m : Task Resp σ ε α) : Prop :=
  ∀ s t, I s t → m.Meets D s t fun _ s' t' => I s' t'

section Preserves

variable {D : Discipline Resp τ} {I : σ → τ → Prop} {m : Task Resp σ ε α} {k : α → Task Resp σ ε β}
  {s : σ} {t : τ}

@[grind ←] theorem preserves_pure (a : α) : (pure a : Task Resp σ ε α).Preserves D I :=
  fun _ _ h => h

@[grind ←] theorem preserves_throw (e : ε) : (throw e : Task Resp σ ε α).Preserves D I :=
  fun _ _ h => h

@[grind ←] theorem preserves_memory : (memory : Task Resp σ ε σ).Preserves D I := fun _ _ h => h

@[grind ←] theorem preserves_ofExcept (x : Except ε α) :
    (ofExcept x : Task Resp σ ε α).Preserves D I := fun _ _ h => h

@[grind ←] theorem preserves_ofOption (o : Option α) (e : ε) :
    (ofOption o e : Task Resp σ ε α).Preserves D I := fun _ _ h => h

theorem preserves_remember {g : σ → σ} (h : ∀ s t, I s t → I (g s) t) :
    (remember g : Task Resp σ ε Unit).Preserves D I := h

theorem preserves_call {a : Act} {f : Resp a → Except ε α}
    (h : ∀ s t, I s t → D.allow t a ∧ ∀ r, D.expect t a r → I s (D.next t a r)) :
    (call a f : Task Resp σ ε α).Preserves D I := h

@[grind ←] theorem Preserves.bind (hm : m.Preserves D I) (hk : ∀ a, (k a).Preserves D I) :
    (m >>= k).Preserves D I := by
  intro s t h
  refine meets_bind.mpr (Meets.mono (hm s t h) fun r s' t' h' => ?_)
  exact then_intro (fun _ _ => h') fun a _ => hk a s' t' h'

@[grind ←] theorem Preserves.attempt {m : Task Resp σ ε' α} (hm : m.Preserves D I) :
    (Task.attempt m : Task Resp σ ε (Except ε' α)).Preserves D I :=
  fun s t h => meets_attempt.mpr (hm s t h)

@[grind ←] theorem Preserves.mapErr {m : Task Resp σ ε' α} {g : ε' → ε} (hm : m.Preserves D I) :
    (Task.mapErr g m).Preserves D I := fun s t h => meets_mapErr.mpr (hm s t h)

/-- What every call keeps, all code keeps. -/
theorem preserves_all {I : τ → Prop} (m : Task Resp σ ε α)
    (h : ∀ a t, I t → D.allow t a ∧ ∀ r, D.expect t a r → I (D.next t a r)) :
    m.Preserves D fun _ t => I t := by
  have key : ∀ (p : Prog Resp (Except ε α × σ)) (t : τ), I t → p.Follows D (fun _ t' => I t') t := by
    intro p
    induction p with
    | ret x => exact fun t ht => ht
    | act a k ih => exact fun t ht => ⟨(h a t ht).1, fun r hr => ih r _ ((h a t ht).2 r hr)⟩
  exact fun s t ht => key _ t ht

/-- Code over a smaller signature changes no memory. -/
theorem preserves_peek {Act' : Type} {Resp' : Act' → Type} {D : Discipline Resp' τ} {f : Act → Act'}
    {back : ∀ a, Resp' (f a) → Resp a}
    (h : ∀ a s t, I s t → D.allow t (f a) ∧ ∀ r, D.expect t (f a) r → I s (D.next t (f a) r)) :
    (peek f back m).Preserves D I := by
  have key : ∀ (s : σ) (p : Prog Resp (Except ε α × σ)) (t : τ), I s t →
      (p.embed f back).Follows D (fun _ t' => I s t') t := by
    intro s p
    induction p with
    | ret x => exact fun t ht => ht
    | act a k ih => exact fun t ht => ⟨(h a s t ht).1, fun r hr => ih _ _ ((h a s t ht).2 r hr)⟩
  exact fun s t ht => Prog.follows_bind.mpr (key s _ t ht)

/-- Behind `m` stands `I'` if `I` held in front. -/
def Brings (D : Discipline Resp τ) (I I' : σ → τ → Prop) (m : Task Resp σ ε α) : Prop :=
  ∀ s t, I s t → m.Meets D s t fun _ s' t' => I' s' t'

theorem Brings.bind {I' I'' : σ → τ → Prop} (hm : m.Brings D I I') (hI : ∀ s t, I' s t → I'' s t)
    (hk : ∀ a, (k a).Brings D I' I'') : (m >>= k).Brings D I I'' := by
  intro s t h
  refine meets_bind.mpr (Meets.mono (hm s t h) fun r s' t' h' => ?_)
  exact then_intro (fun _ _ => hI s' t' h') fun a _ => hk a s' t' h'

/-- What the code leaves alone may be added to an invariant. -/
theorem Preserves.fixes {κ : Type} {f : σ → κ} {P : κ → Prop} (hm : m.Preserves D I)
    (hf : m.Fixes f) : m.Preserves D fun s t => I s t ∧ P (f s) := by
  have key : ∀ (s : σ) (p : Prog Resp (Except ε α × σ)) (t : τ),
      p.Follows D (fun x t' => I x.2 t') t →
      p.Follows (unwatched Resp) (fun x _ => f x.2 = f s) () →
      p.Follows D (fun x t' => I x.2 t' ∧ f x.2 = f s) t := by
    intro s p
    induction p with
    | ret x => exact fun t hp hx => ⟨hp, hx⟩
    | act a k ih => exact fun t hp hx => ⟨hp.1, fun r hr => ih r _ (hp.2 r hr) (hx.2 r trivial)⟩
  rintro s t ⟨hI, hP⟩
  refine Prog.Follows.mono (key s _ t (hm s t hI) (hf s)) ?_
  rintro x t' ⟨hx, hfx⟩
  exact ⟨hx, hfx ▸ hP⟩

/-- Where every call is admitted, what the code leaves alone is an invariant. -/
theorem Fixes.preserves {κ : Type} {f : σ → κ} {P : κ → Prop} (hm : m.Fixes f)
    (hD : ∀ t a, D.allow t a) : m.Preserves D fun s _ => P (f s) := by
  have htrue : m.Preserves D fun _ _ => True := by
    have key : ∀ (p : Prog Resp (Except ε α × σ)) (t : τ), p.Follows D (fun _ _ => True) t := by
      intro p
      induction p with
      | ret x => exact fun t => trivial
      | act a k ih => exact fun t => ⟨hD t a, fun r _ => ih r _⟩
    exact fun s t _ => key _ t
  exact fun s t h => Meets.mono (htrue.fixes (P := P) hm s t ⟨trivial, h⟩) fun _ _ _ hr => hr.2

/-- The value handed on may carry what is needed of it. -/
theorem Keeps.meets_bind {J : α → σ → τ → Prop} (hm : m.Keeps D s t I J)
    (hk : ∀ a s t, I s t → J a s t → (k a).Meets D s t fun _ s' t' => I s' t') :
    (m >>= k).Meets D s t fun _ s' t' => I s' t' := by
  refine Task.meets_bind.mpr (Meets.mono hm fun r s' t' h' => ?_)
  exact then_intro (fun _ _ => h'.1) fun a ha => hk a s' t' h'.1 (h'.2 a ha)

theorem preserves_bind {J : α → σ → τ → Prop} (hm : ∀ s t, I s t → m.Keeps D s t I J)
    (hk : ∀ a s t, I s t → J a s t → (k a).Meets D s t fun _ s' t' => I s' t') :
    (m >>= k).Preserves D I :=
  fun s t h => (hm s t h).meets_bind hk

/-- What a success is whatever the answers, next to what is known of the outcome. -/
theorem Meets.yields {Q : Except ε α → σ → τ → Prop} {J : α → Prop} (hm : m.Meets D s t Q)
    (hJ : m.Yields J) : m.Meets D s t fun r s' t' => Q r s' t' ∧ ∀ a, r = .ok a → J a := by
  have key : ∀ (p : Prog Resp (Except ε α × σ)) (P : Except ε α × σ → τ → Prop) (t : τ),
      p.Follows D P t → p.Follows (unwatched Resp) (fun x _ => ∀ a, x.1 = .ok a → J a) () →
      p.Follows D (fun x t' => P x t' ∧ ∀ a, x.1 = .ok a → J a) t := by
    intro p P
    induction p with
    | ret x => exact fun t hp hx => ⟨hp, hx⟩
    | act a k ih => exact fun t hp hx => ⟨hp.1, fun r hr => ih r _ (hp.2 r hr) (hx.2 r trivial)⟩
  exact key _ _ t hm (hJ s)

theorem Preserves.yields {J : α → Prop} (hm : m.Preserves D I) (hJ : m.Yields J) (h : I s t) :
    m.Keeps D s t I fun a _ _ => J a := Meets.yields (hm s t h) hJ

/-- **Code whose calls all keep `I`, and that changes nothing `I` reads, preserves it.** -/
theorem Asks.preserves {P : Act → Prop} {κ : Type} {f : σ → κ} (hm : m.Asks P) (hf : m.Fixes f)
    (hI : ∀ s s' t, f s' = f s → I s t → I s' t)
    (hP : ∀ a, P a → ∀ s t, I s t → D.allow t a ∧ ∀ r, D.expect t a r → I s (D.next t a r)) :
    m.Preserves D I := by
  have key : ∀ (s : σ) (p : Prog Resp (Except ε α × σ)) (t : τ), I s t →
      p.Follows (only P) (fun _ _ => True) () →
      p.Follows (unwatched Resp) (fun x _ => f x.2 = f s) () →
      p.Follows D (fun x t' => I x.2 t') t := by
    intro s p
    induction p with
    | ret x => exact fun t h _ hx => hI s x.2 t hx h
    | act a k ih =>
      intro t h hp hx
      obtain ⟨hallow, hnext⟩ := hP a hp.1 s t h
      exact ⟨hallow, fun r hr => ih r _ (hnext r hr) (hp.2 r trivial) (hx.2 r trivial)⟩
  exact fun s t h => key s _ t h (hm s) (hf s)

/-- Calls that depend on a value. -/
theorem Asks.bind_yields {P : Act → Prop} {J : α → Prop} (hm : m.Asks P) (hJ : m.Yields J)
    (hk : ∀ a, J a → (k a).Asks P) : (m >>= k).Asks P := by
  intro s
  have hp : m.Preserves (only P) fun _ _ => True := fun s _ _ => hm s
  refine meets_bind.mpr (Meets.mono (hp.yields hJ trivial) fun r s' _ h => ?_)
  exact then_intro (fun _ _ => trivial) fun a ha => hk a (h.2 a ha) s'

end Preserves

end Task

/-! ## 2. Pools -/

end Interact
