/-
  File:      SteadQ/Lib/Census.lean
  Subject:   INVARIANTS OF A WORLD AND OF ALL ITS THREADS TOGETHER.

  Under a discipline every thread of a pool has a ghost state (`ghosts`). A census is a statement
  about the history, the world and these ghost states; `Census` asks that the start of an
  operation, an admitted call, a return and a kill keep it, and `Reachable.census` concludes that
  it holds all along. What is known already may be used (`K`).
-/
import SteadQ.Lib.Pool
import Mathlib.Logic.Function.Basic

namespace Interact

variable {Act : Type} {Resp : Act → Type} {W C O R M τ τ' α : Type}

/-! ## 1. Two disciplines at once -/

namespace Discipline

def both (D : Discipline Resp τ) (D' : Discipline Resp τ') : Discipline Resp (τ × τ') where
  next := fun t a r => (D.next t.1 a r, D'.next t.2 a r)
  allow := fun t a => D.allow t.1 a ∧ D'.allow t.2 a
  expect := fun t a r => D.expect t.1 a r ∧ D'.expect t.2 a r

end Discipline

theorem Prog.Follows.both {D : Discipline Resp τ} {D' : Discipline Resp τ'} {p : Prog Resp α}
    {Q : α → τ → Prop} {Q' : α → τ' → Prop} {t : τ} {t' : τ'} (h : p.Follows D Q t)
    (h' : p.Follows D' Q' t') :
    p.Follows (D.both D') (fun x t => Q x t.1 ∧ Q' x t.2) (t, t') := by
  induction p generalizing t t' with
  | ret x => exact ⟨h, h'⟩
  | act a k ih => exact ⟨⟨h.1, h'.1⟩, fun r hr => ih r (h.2 r hr.1) (h'.2 r hr.2)⟩

/-! ## 2. The ghost states of a pool -/

section Ghosts

variable (D : Discipline Resp τ) (enter : O → M → τ)

/-- The ghost states of all threads. -/
def ghosts (past : List (Moment Resp W O R M)) : Tid → Option τ := fun t => ghost D enter t past

variable {D enter} {past : List (Moment Resp W O R M)} {t : Tid} {w : W}

@[simp] theorem ghosts_nil : ghosts D enter ([] : List (Moment Resp W O R M)) = fun _ => none := rfl

/-- An event of thread `t` changes the ghost state of `t` only. -/
theorem ghosts_cons {x : Moment Resp W O R M} {v : Option τ}
    (h : ∀ u, ghost D enter u (x :: past) = if t = u then v else ghost D enter u past) :
    ghosts D enter (x :: past) = Function.update (ghosts D enter past) t v := by
  funext u
  rw [ghosts, h, Function.update_apply]
  by_cases hu : u = t
  · rw [if_pos hu.symm, if_pos hu]
  · rw [if_neg (Ne.symm hu), if_neg hu]
    rfl

theorem ghosts_started (o : O) (m : M) : ghosts D enter (⟨.started t o m, w⟩ :: past) =
    Function.update (ghosts D enter past) t (some (enter o m)) :=
  ghosts_cons fun _ => by rw [ghost]

theorem ghosts_acted {g : τ} (hg : ghosts D enter past t = some g) (a : Act) (r : Resp a) :
    ghosts D enter (⟨.acted t a r, w⟩ :: past) =
      Function.update (ghosts D enter past) t (some (D.next g a r)) := by
  refine ghosts_cons fun u => ?_
  rw [ghost]
  split
  · rename_i hu
    rw [← hu, show ghost D enter t past = some g from hg]
    rfl
  · rfl

theorem ghosts_returned (o : O) (r : R) (m : M) :
    ghosts D enter (⟨.returned t o r m, w⟩ :: past) =
      Function.update (ghosts D enter past) t none :=
  ghosts_cons fun _ => by rw [ghost]

theorem ghosts_killed : ghosts D enter (⟨.killed t, w⟩ :: past) =
    Function.update (ghosts D enter past) t none :=
  ghosts_cons fun _ => by rw [ghost]

end Ghosts

theorem update_eq_some {φ : Tid → Option α} {t u : Tid} {v : Option α} {x : α} :
    Function.update φ t v u = some x ↔ (u = t ∧ v = some x) ∨ (u ≠ t ∧ φ u = some x) := by
  rw [Function.update_apply]
  by_cases hu : u = t
  · simp [hu]
  · simp [hu]

/-! ## 3. Scenes -/

/-- A configuration as the census sees it: the history, the world, the ghost states of the threads
    at work and the memories of the idle ones. -/
structure Scene (Resp : Act → Type) (W O R M τ : Type) where
  past : List (Moment Resp W O R M)
  world : W
  ghost : Tid → Option τ
  idle : Tid → Option M

namespace Scene

variable (s : Scene Resp W O R M τ) (t : Tid)

def start (enter : O → M → τ) (o : O) (m : M) : Scene Resp W O R M τ :=
  ⟨⟨.started t o m, s.world⟩ :: s.past, s.world, Function.update s.ghost t (some (enter o m)),
    Function.update s.idle t none⟩

def act (D : Discipline Resp τ) (g : τ) (a : Act) (r : Resp a) (w : W) : Scene Resp W O R M τ :=
  ⟨⟨.acted t a r, w⟩ :: s.past, w, Function.update s.ghost t (some (D.next g a r)), s.idle⟩

def ret (o : O) (r : R) (m : M) : Scene Resp W O R M τ :=
  ⟨⟨.returned t o r m, s.world⟩ :: s.past, s.world, Function.update s.ghost t none,
    Function.update s.idle t (some m)⟩

def kill (w : W) : Scene Resp W O R M τ :=
  ⟨⟨.killed t, w⟩ :: s.past, w, Function.update s.ghost t none, Function.update s.idle t none⟩

end Scene

def Thread.idleMemory : Thread Resp O R M → Option M
  | .idle m => some m
  | _ => none

def Config.scene (D : Discipline Resp τ) (enter : O → M → τ) (c : Config Resp W O R M) :
    Scene Resp W O R M τ :=
  ⟨c.past, c.world, ghosts D enter c.past, fun t => (c.threads t).idleMemory⟩

theorem idle_setThread (c : Config Resp W O R M) (t : Tid) (x : Thread Resp O R M) :
    (fun u => (c.setThread t x u).idleMemory) =
      Function.update (fun u => (c.threads u).idleMemory) t x.idleMemory := by
  funext u
  rw [Function.update_apply]
  by_cases h : u = t
  · rw [h, c.setThread_same, if_pos rfl]
  · rw [c.setThread_other h, if_neg h]

/-- The scene behind an event of thread `t`. -/
theorem scene_after {D : Discipline Resp τ} {enter : O → M → τ} {c : Config Resp W O R M} {t : Tid}
    {e : Event Resp O R M} {w : W} {v : Option τ} (x : Thread Resp O R M)
    (hg : ghosts D enter (⟨e, w⟩ :: c.past) = Function.update (ghosts D enter c.past) t v) :
    (c.after t x e w).scene D enter = ⟨⟨e, w⟩ :: c.past, w, Function.update (ghosts D enter c.past) t v,
      Function.update (fun u => (c.threads u).idleMemory) t x.idleMemory⟩ := by
  rw [← hg, ← idle_setThread]
  rfl

/-! ## 4. The rule -/

/-- Every event keeps `J`, where `K` is known. -/
structure Census (S : System Resp W C O R M) (D : Discipline Resp τ) (enter : O → M → τ)
    (I : M → Prop) (Post : O → R × M → τ → Prop) (K J : Scene Resp W O R M τ → Prop) : Prop where
  start : ∀ {s t o m}, K s → J s → s.ghost t = none → s.idle t = some m → I m →
    J (s.start t enter o m)
  act : ∀ {s t g a ch r w}, K s → J s → s.ghost t = some g → D.allow g a → D.expect g a r →
    S.effect t s.world a ch = some (r, w) → J (s.act t D g a r w)
  ret : ∀ {s t g o r m}, K s → J s → s.ghost t = some g → Post o (r, m) g → J (s.ret t o r m)
  kill : ∀ {s t}, K s → J s → J (s.kill t (S.release t s.world))

section Census

variable {S : System Resp W C O R M} {D : Discipline Resp τ} {enter : O → M → τ} {I : M → Prop}
  {Post : O → R × M → τ → Prop} {K J : Scene Resp W O R M τ → Prop} {c₀ c c' : Config Resp W O R M}

/-- **One step of the pool keeps a census.** -/
theorem Census.step (hJ : Census S D enter I Post K J) (hc : Obeys D enter I Post c)
    (hexp : ∀ t a ch r w g, S.effect t c.world a ch = some (r, w) → D.expect g a r)
    (hs : S.Step c c') (hk : K (c.scene D enter)) (hj : J (c.scene D enter)) :
    J (c'.scene D enter) := by
  cases hs with
  | start t o m h =>
    have hidle := hc.thread t
    rw [h] at hidle
    have hmem : (c.scene D enter).idle t = some m := congrArg Thread.idleMemory h
    rw [scene_after _ (ghosts_started o m)]
    exact hJ.start hk hj hidle.2 hmem hidle.1
  | act t o a k ch r w h hw =>
    obtain ⟨g, hg, hallow, -⟩ := hc.act h
    have hsame : Function.update (fun u => (c.threads u).idleMemory) t none =
        fun u => (c.threads u).idleMemory :=
      Function.update_eq_self_iff.mpr (congrArg Thread.idleMemory h).symm
    rw [scene_after _ (ghosts_acted hg a r),
      show (Thread.running o (k r) : Thread Resp O R M).idleMemory = none from rfl, hsame]
    exact hJ.act hk hj hg hallow (hexp t a ch r w g hw) hw
  | ret t o r m h =>
    obtain ⟨g, hg, hpost⟩ := hc.ret h
    rw [scene_after _ (ghosts_returned o r m)]
    exact hJ.ret hk hj hg hpost
  | kill t h =>
    rw [scene_after _ ghosts_killed]
    exact hJ.kill hk hj

/-- **A census that every event keeps holds all along a run.** -/
theorem System.Reachable.census (hc : S.Reachable c₀ c) (hJ : Census S D enter I Post K J)
    (hobeys : ∀ c, S.Reachable c₀ c → Obeys D enter I Post c)
    (hexp : ∀ t w a ch r w' g, S.effect t w a ch = some (r, w') → D.expect g a r)
    (hk : ∀ c, S.Reachable c₀ c → K (c.scene D enter)) (h₀ : J (c₀.scene D enter)) :
    J (c.scene D enter) := by
  induction hc with
  | init => exact h₀
  | step hc hs ih =>
    exact hJ.step (hobeys _ hc) (fun t a ch r w g => hexp t _ a ch r w g) hs (hk _ hc) ih

/-- What calls keep of the ghost state of their own thread. -/
theorem census_each {P : τ → Prop} (henter : ∀ o m, I m → P (enter o m))
    (hnext : ∀ g a r, D.allow g a → D.expect g a r → P g → P (D.next g a r)) :
    Census S D enter I Post K fun s => ∀ t g, s.ghost t = some g → P g where
  start := by
    intro s t o m _ hj _ _ hm u g hg
    rcases update_eq_some.mp hg with ⟨-, hg⟩ | ⟨-, hg⟩
    · cases hg
      exact henter o m hm
    · exact hj u g hg
  act := by
    intro s t g a ch r w _ hj ht hallow hexp _ u g' hg
    rcases update_eq_some.mp hg with ⟨-, hg⟩ | ⟨-, hg⟩
    · cases hg
      exact hnext g a r hallow hexp (hj t g ht)
    · exact hj u g' hg
  ret := by
    intro s t g o r m _ hj _ _ u g' hg
    rcases update_eq_some.mp hg with ⟨-, hg⟩ | ⟨-, hg⟩
    · cases hg
    · exact hj u g' hg
  kill := by
    intro s t _ hj u g' hg
    rcases update_eq_some.mp hg with ⟨-, hg⟩ | ⟨-, hg⟩
    · cases hg
    · exact hj u g' hg

end Census

/-! ## 5. Runs in pieces -/

section Pieces

variable {S : System Resp W C O R M} {c₀ c c' : Config Resp W O R M}

theorem System.Reachable.trans (h : S.Reachable c₀ c) (h' : S.Reachable c c') :
    S.Reachable c₀ c' := by
  induction h' with
  | init => exact h
  | step _ hs ih => exact ih.step hs

/-- A step is one moment. -/
theorem System.Step.past (h : S.Step c c') : ∃ m, c'.past = m :: c.past := by
  cases h <;> exact ⟨_, rfl⟩

theorem System.Reachable.past (h : S.Reachable c c') : ∃ newer, c'.past = newer ++ c.past := by
  induction h with
  | init => exact ⟨[], rfl⟩
  | step _ hs ih =>
    obtain ⟨newer, hn⟩ := ih
    obtain ⟨m, hm⟩ := hs.past
    exact ⟨m :: newer, by rw [hm, hn, List.cons_append]⟩

/-- **Every moment of a history is a step of the run.** -/
theorem System.Reachable.split (h : S.Reachable c₀ c) (h₀ : c₀.past = [])
    {newer older : List (Moment Resp W O R M)} {m : Moment Resp W O R M}
    (hm : c.past = newer ++ m :: older) :
    ∃ c₁ c₂, S.Reachable c₀ c₁ ∧ c₁.past = older ∧ S.Step c₁ c₂ ∧ c₂.past = m :: older ∧
      S.Reachable c₂ c := by
  induction h generalizing newer with
  | init =>
    rw [h₀] at hm
    exact absurd hm.symm (by simp)
  | @step c₁ c₂ hc hs ih =>
    obtain ⟨m', hm'⟩ := hs.past
    rw [hm'] at hm
    cases newer with
    | nil =>
      have hcons := List.cons.inj hm
      exact ⟨c₁, c₂, hc, hcons.2, hs, by rw [hm', hcons.1, hcons.2], .init⟩
    | cons x newer =>
      obtain ⟨d₁, d₂, h₁, hp₁, hs₁, hp₂, h₂⟩ := ih (List.cons.inj hm).2
      exact ⟨d₁, d₂, h₁, hp₁, hs₁, hp₂, h₂.step hs⟩

/-- A call in the history: the thread that made it and what the world answered. -/
theorem System.Step.acted {t : Tid} {a : Act} {r : Resp a} {w : W} (h : S.Step c c')
    (hp : c'.past = ⟨.acted t a r, w⟩ :: c.past) :
    ∃ o k ch, c.threads t = .running o (.act a k) ∧ S.effect t c.world a ch = some (r, w) ∧
      c'.world = w := by
  cases h with
  | start u o m h =>
    have hm := (List.cons.inj hp).1
    cases hm
  | act u o b k ch r' w' h hw =>
    have hm := (List.cons.inj hp).1
    cases hm
    exact ⟨o, k, ch, h, hw, rfl⟩
  | ret u o r' m h =>
    have hm := (List.cons.inj hp).1
    cases hm
  | kill u h =>
    have hm := (List.cons.inj hp).1
    cases hm

/-- What a ghost state tells of its operation, from the start of the operation on. -/
theorem System.Reachable.key {D : Discipline Resp τ} {enter : O → M → τ} (hc : S.Reachable c₀ c)
    (key : τ → O) (h₀ : ∀ t o p, c₀.threads t ≠ .running o p)
    (henter : ∀ o m, key (enter o m) = o) (hnext : ∀ g a r, key (D.next g a r) = key g)
    {t : Tid} {o : O} {p : Prog Resp (R × M)} {g : τ} (ht : c.threads t = .running o p)
    (hg : ghosts D enter c.past t = some g) : key g = o := by
  induction hc generalizing p g with
  | init => exact absurd ht (h₀ t o p)
  | @step c₁ c₂ _ hs ih =>
    -- events of another thread change neither
    have hother : ∀ {u : Tid} {x : Thread Resp O R M} {e : Event Resp O R M} {w : W}
        {v : Option τ}, t ≠ u → (c₁.after u x e w).threads t = .running o p →
        ghosts D enter (⟨e, w⟩ :: c₁.past) = Function.update (ghosts D enter c₁.past) u v →
        ghosts D enter (⟨e, w⟩ :: c₁.past) t = some g → key g = o := by
      intro u x e w v hu ht' hupd hg'
      rw [hupd, Function.update_of_ne hu] at hg'
      exact ih ((c₁.setThread_other hu x).symm.trans ht') hg'
    cases hs with
    | start u o' m h =>
      by_cases hu : t = u
      · subst hu
        cases (c₁.setThread_same t _).symm.trans ht
        have hnew : ghosts D enter (⟨.started t o m, c₁.world⟩ :: c₁.past) t = some g := hg
        rw [ghosts_started, Function.update_self] at hnew
        cases hnew
        exact henter o m
      · exact hother hu ht (ghosts_started _ _) hg
    | act u o' a k ch r w h hw =>
      by_cases hu : t = u
      · subst hu
        cases (c₁.setThread_same t _).symm.trans ht
        cases hold : ghosts D enter c₁.past t with
        | none =>
          have hnone : ghosts D enter (⟨.acted t a r, w⟩ :: c₁.past) t = none := by
            rw [ghosts, ghost, if_pos rfl]
            exact congrArg (Option.map _) hold
          cases hnone.symm.trans hg
        | some g₀ =>
          have hnew : ghosts D enter (⟨.acted t a r, w⟩ :: c₁.past) t = some g := hg
          rw [ghosts_acted hold, Function.update_self] at hnew
          cases hnew
          rw [hnext]
          exact ih h hold
      · have hold : ghosts D enter (⟨.acted u a r, w⟩ :: c₁.past) t = some g := hg
        rw [ghosts, ghost, if_neg (Ne.symm hu)] at hold
        exact ih ((c₁.setThread_other hu _).symm.trans ht) hold
    | ret u o' r m h =>
      by_cases hu : t = u
      · subst hu
        cases (c₁.setThread_same t _).symm.trans ht
      · exact hother hu ht (ghosts_returned _ _ _) hg
    | kill u h =>
      by_cases hu : t = u
      · subst hu
        cases (c₁.setThread_same t _).symm.trans ht
      · exact hother hu ht ghosts_killed hg

end Pieces

/-! ## 6. Values that are dealt once -/

/-- Every thread has values of its own: all were drawn, none twice. -/
structure Dealt (deal : Tid → List α) (used : List α) : Prop where
  used : ∀ t, deal t ⊆ used
  nodup : ∀ t, (deal t).Nodup
  apart : ∀ t u x, x ∈ deal t → x ∈ deal u → t = u

/-- A value that was drawn and that nobody has any more. -/
structure UsedUp (deal : Tid → List α) (used : List α) (x : α) : Prop where
  used : x ∈ used
  out : ∀ t, x ∉ deal t

/-- A thread gives values up, or draws a new one. -/
inductive Dealing (deal : Tid → List α) (used : List α) :
    (Tid → List α) → List α → Prop where
  | drop (t : Tid) {l : List α} (hl : l.Sublist (deal t)) :
      Dealing deal used (Function.update deal t l) used
  | draw (t : Tid) {x : α} (hx : x ∉ used) :
      Dealing deal used (Function.update deal t (x :: deal t)) (x :: used)

section Dealt

variable {deal deal' : Tid → List α} {used used' : List α} {x : α}

theorem dealt_none : Dealt (fun _ => []) ([] : List α) :=
  ⟨fun _ => List.nil_subset _, fun _ => List.nodup_nil, fun _ _ _ h => absurd h List.not_mem_nil⟩

theorem mem_update {t u : Tid} {l : List α} (h : x ∈ Function.update deal t l u) :
    (u = t ∧ x ∈ l) ∨ (u ≠ t ∧ x ∈ deal u) := by
  by_cases hu : u = t
  · subst hu
    rw [Function.update_self] at h
    exact .inl ⟨rfl, h⟩
  · rw [Function.update_of_ne hu] at h
    exact .inr ⟨hu, h⟩

/-- **Values stay dealt once.** -/
theorem Dealt.dealing (h : Dealt deal used) (hd : Dealing deal used deal' used') :
    Dealt deal' used' := by
  cases hd with
  | @drop t l hl =>
    have hmem : ∀ u x, x ∈ Function.update deal t l u → x ∈ deal u := by
      intro u x hx
      rcases mem_update hx with ⟨rfl, hin⟩ | ⟨-, hin⟩
      · exact hl.subset hin
      · exact hin
    refine ⟨fun u x hx => h.used u (hmem u x hx), fun u => ?_,
      fun u v x hu hv => h.apart u v x (hmem u x hu) (hmem v x hv)⟩
    by_cases hu : u = t
    · subst hu
      rw [Function.update_self]
      exact hl.nodup (h.nodup u)
    · rw [Function.update_of_ne hu]
      exact h.nodup u
  | @draw t y hy =>
    refine ⟨fun u x hx => ?_, fun u => ?_, fun u v x hu hv => ?_⟩
    · rcases mem_update hx with ⟨rfl, hin⟩ | ⟨-, hin⟩
      · exact List.cons_subset_cons _ (h.used u) hin
      · exact List.mem_cons_of_mem _ (h.used u hin)
    · by_cases hu : u = t
      · subst hu
        rw [Function.update_self]
        exact List.nodup_cons.mpr ⟨fun hin => hy (h.used u hin), h.nodup u⟩
      · rw [Function.update_of_ne hu]
        exact h.nodup u
    · -- a new value is nobody else's
      rcases mem_update hu with ⟨hut, hinu⟩ | ⟨-, hinu⟩ <;>
        rcases mem_update hv with ⟨hvt, hinv⟩ | ⟨-, hinv⟩
      · rw [hut, hvt]
      · rcases List.mem_cons.mp hinu with rfl | hinu
        · exact absurd (h.used v hinv) hy
        · rw [hut]
          exact h.apart t v x hinu hinv
      · rcases List.mem_cons.mp hinv with rfl | hinv
        · exact absurd (h.used u hinu) hy
        · rw [hvt]
          exact h.apart u t x hinu hinv
      · exact h.apart u v x hinu hinv

/-- **What is spent stays spent.** -/
theorem UsedUp.dealing (h : UsedUp deal used x) (hd : Dealing deal used deal' used') :
    UsedUp deal' used' x := by
  cases hd with
  | drop t hl =>
    refine ⟨h.used, fun u hu => ?_⟩
    rcases mem_update hu with ⟨-, hin⟩ | ⟨-, hin⟩
    · exact h.out t (hl.subset hin)
    · exact h.out u hin
  | draw t hy =>
    refine ⟨List.mem_cons_of_mem _ h.used, fun u hu => ?_⟩
    rcases mem_update hu with ⟨-, hin⟩ | ⟨-, hin⟩
    · rcases List.mem_cons.mp hin with rfl | hin
      · exact hy h.used
      · exact h.out t hin
    · exact h.out u hin

/-- A value its thread gives up is spent. -/
theorem Dealt.spend (h : Dealt deal used) {t : Tid} {l : List α} (hx : x ∈ deal t) (hl : x ∉ l) :
    UsedUp (Function.update deal t l) used x := by
  refine ⟨h.used t hx, fun u hu => ?_⟩
  rcases mem_update hu with ⟨-, hin⟩ | ⟨hne, hin⟩
  · exact hl hin
  · exact hne (h.apart u t x hin hx)

end Dealt

end Interact
