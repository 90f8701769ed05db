/-
  File:      SteadQ/Lib/Pool.lean
  Subject:   MANY PROGRAMS OVER ONE WORLD: threads, interleaved runs, histories.

  A thread keeps a private memory between operations. It starts an operation, issues the calls
  of the operation's program one by one, and returns; between any two calls every other thread
  may act. It can be killed at any point.
-/
import SteadQ.Lib.Program

namespace Interact

abbrev Tid := Nat

variable {Act : Type} {Resp : Act → Type} {W C O R M τ : Type}

/-! ## 1. Pools -/

/-- A world with calls, and operations with programs. -/
structure System (Resp : Act → Type) (W C O R M : Type) where
  /-- The effect of a call of a thread, given a choice of the environment. -/
  effect : Tid → W → (a : Act) → C → Option (Resp a × W)
  /-- The end of a thread. -/
  release : Tid → W → W
  program : O → M → Prog Resp (R × M)

inductive Thread (Resp : Act → Type) (O R M : Type) where
  | idle (m : M)
  | running (o : O) (p : Prog Resp (R × M))
  | dead

inductive Event (Resp : Act → Type) (O R M : Type) where
  | started (t : Tid) (o : O) (m : M)
  | acted (t : Tid) (a : Act) (r : Resp a)
  | returned (t : Tid) (o : O) (r : R) (m : M)
  | killed (t : Tid)

/-- An event and the world behind it. -/
structure Moment (Resp : Act → Type) (W O R M : Type) where
  event : Event Resp O R M
  world : W

/-- The history is newest first. -/
structure Config (Resp : Act → Type) (W O R M : Type) where
  world : W
  threads : Tid → Thread Resp O R M
  past : List (Moment Resp W O R M)

namespace Config

variable (c : Config Resp W O R M)

def setThread (t : Tid) (x : Thread Resp O R M) : Tid → Thread Resp O R M :=
  fun u => if u = t then x else c.threads u

@[simp] theorem setThread_same (t : Tid) (x : Thread Resp O R M) : c.setThread t x t = x :=
  if_pos rfl

theorem setThread_other {t u : Tid} (h : u ≠ t) (x : Thread Resp O R M) :
    c.setThread t x u = c.threads u := if_neg h

/-- The configuration behind an event of thread `t`. -/
def after (t : Tid) (x : Thread Resp O R M) (e : Event Resp O R M) (w : W) :
    Config Resp W O R M := ⟨w, c.setThread t x, ⟨e, w⟩ :: c.past⟩

end Config

namespace System

variable (S : System Resp W C O R M)

/-- One step of one thread. -/
inductive Step : Config Resp W O R M → Config Resp W O R M → Prop where
  | start {c : Config Resp W O R M} (t : Tid) (o : O) (m : M) (h : c.threads t = .idle m) :
      Step c (c.after t (.running o (S.program o m)) (.started t o m) c.world)
  | act {c : Config Resp W O R M} (t : Tid) (o : O) (a : Act) (k : Resp a → Prog Resp (R × M))
      (ch : C) (r : Resp a) (w : W) (h : c.threads t = .running o (.act a k))
      (hw : S.effect t c.world a ch = some (r, w)) :
      Step c (c.after t (.running o (k r)) (.acted t a r) w)
  | ret {c : Config Resp W O R M} (t : Tid) (o : O) (r : R) (m : M)
      (h : c.threads t = .running o (.ret (r, m))) :
      Step c (c.after t (.idle m) (.returned t o r m) c.world)
  | kill {c : Config Resp W O R M} (t : Tid) (h : ∀ m, c.threads t ≠ .idle m) :
      Step c (c.after t .dead (.killed t) (S.release t c.world))

inductive Reachable (c₀ : Config Resp W O R M) : Config Resp W O R M → Prop where
  | init : Reachable c₀ c₀
  | step {c c' : Config Resp W O R M} : Reachable c₀ c → S.Step c c' → Reachable c₀ c'

/-! ## 2. Schedules -/

inductive Label (C O : Type) where
  | start (t : Tid) (o : O)
  | act (t : Tid) (ch : C)
  | ret (t : Tid)
  | kill (t : Tid)

def next (c : Config Resp W O R M) : Label C O → Option (Config Resp W O R M)
  | .start t o =>
    match c.threads t with
    | .idle m => some (c.after t (.running o (S.program o m)) (.started t o m) c.world)
    | _ => none
  | .act t ch =>
    match c.threads t with
    | .running o (.act a k) =>
      (S.effect t c.world a ch).map fun x => c.after t (.running o (k x.1)) (.acted t a x.1) x.2
    | _ => none
  | .ret t =>
    match c.threads t with
    | .running o (.ret (r, m)) => some (c.after t (.idle m) (.returned t o r m) c.world)
    | _ => none
  | .kill t =>
    match c.threads t with
    | .idle _ => none
    | _ => some (c.after t .dead (.killed t) (S.release t c.world))

/-- Let thread `t` take up to `n` steps of its operation; the environment chooses by `policy`. -/
def drive (policy : W → Act → C) (t : Tid) :
    Nat → Config Resp W O R M → Option (Config Resp W O R M)
  | 0, c => some c
  | n + 1, c =>
    match c.threads t with
    | .running _ (.act a _) => (S.next c (.act t (policy c.world a))).bind (drive policy t n)
    | .running _ (.ret _) => S.next c (.ret t)
    | _ => some c

/-- Start an operation and let it take up to `n` steps. -/
def call (policy : W → Act → C) (t : Tid) (o : O) (n : Nat) (c : Config Resp W O R M) :
    Option (Config Resp W O R M) :=
  (S.next c (.start t o)).bind (S.drive policy t n)

variable {S}

theorem step_of_next {c c' : Config Resp W O R M} {l : Label C O} (h : S.next c l = some c') :
    S.Step c c' := by
  cases l with
  | start t o =>
    simp only [next] at h
    split at h
    · rename_i m hm
      cases h
      exact .start t o m hm
    · cases h
  | act t ch =>
    simp only [next] at h
    split at h
    · rename_i o a k hk
      rw [Option.map_eq_some_iff] at h
      obtain ⟨⟨r, w⟩, hw, rfl⟩ := h
      exact .act t o a k ch r w hk hw
    · cases h
  | ret t =>
    simp only [next] at h
    split at h
    · rename_i o r m hr
      cases h
      exact .ret t o r m hr
    · cases h
  | kill t =>
    simp only [next] at h
    split at h
    · cases h
    · rename_i hne
      cases h
      exact .kill t fun m hm => hne m hm

theorem reachable_of_drive {c₀ c c' : Config Resp W O R M} {policy : W → Act → C} {t : Tid}
    {n : Nat} (hc : S.Reachable c₀ c) (h : S.drive policy t n c = some c') :
    S.Reachable c₀ c' := by
  induction n generalizing c with
  | zero =>
    cases h
    exact hc
  | succ n ih =>
    rw [drive] at h
    split at h
    · rw [Option.bind_eq_some_iff] at h
      obtain ⟨d, hd, h⟩ := h
      exact ih (hc.step (step_of_next hd)) h
    · exact hc.step (step_of_next h)
    · cases h
      exact hc

theorem reachable_of_call {c₀ c c' : Config Resp W O R M} {policy : W → Act → C} {t : Tid} {o : O}
    {n : Nat} (hc : S.Reachable c₀ c) (h : S.call policy t o n c = some c') :
    S.Reachable c₀ c' := by
  rw [call, Option.bind_eq_some_iff] at h
  obtain ⟨d, hd, h⟩ := h
  exact reachable_of_drive (hc.step (step_of_next hd)) h

end System

/-! ## 3. Ghost states -/

/-- The ghost state of thread `t`, none while it runs nothing. -/
def ghost (D : Discipline Resp τ) (enter : O → M → τ) (t : Tid) :
    List (Moment Resp W O R M) → Option τ
  | [] => none
  | ⟨.started u o m, _⟩ :: past => if u = t then some (enter o m) else ghost D enter t past
  | ⟨.acted u a r, _⟩ :: past =>
    if u = t then (ghost D enter t past).map fun g => D.next g a r else ghost D enter t past
  | ⟨.returned u _ _ _, _⟩ :: past => if u = t then none else ghost D enter t past
  | ⟨.killed u, _⟩ :: past => if u = t then none else ghost D enter t past

/-- Every call in the history was admitted, and every result met its postcondition. -/
def Lawful (D : Discipline Resp τ) (enter : O → M → τ) (Post : O → R × M → τ → Prop) :
    List (Moment Resp W O R M) → Prop
  | [] => True
  | ⟨.acted t a r, _⟩ :: past =>
    (∃ g, ghost D enter t past = some g ∧ D.allow g a ∧ D.expect g a r) ∧
      Lawful D enter Post past
  | ⟨.returned t o r m, _⟩ :: past =>
    (∃ g, ghost D enter t past = some g ∧ Post o (r, m) g) ∧ Lawful D enter Post past
  | _ :: past => Lawful D enter Post past

/-- What is known of one thread in ghost state `g`. -/
def ThreadObeys (D : Discipline Resp τ) (I : M → Prop) (Post : O → R × M → τ → Prop) :
    Thread Resp O R M → Option τ → Prop
  | .idle m, g => I m ∧ g = none
  | .running o p, g => ∃ x, g = some x ∧ p.Follows D (Post o) x
  | .dead, g => g = none

/-- Every thread follows the discipline from its ghost state on, and everyone did so far. -/
structure Obeys (D : Discipline Resp τ) (enter : O → M → τ) (I : M → Prop)
    (Post : O → R × M → τ → Prop) (c : Config Resp W O R M) : Prop where
  thread : ∀ t, ThreadObeys D I Post (c.threads t) (ghost D enter t c.past)
  lawful : Lawful D enter Post c.past

section Obeys

variable {S : System Resp W C O R M} {D : Discipline Resp τ} {enter : O → M → τ} {I : M → Prop}
  {Post : O → R × M → τ → Prop} {c c' : Config Resp W O R M}

/-- The thread that acts next, its ghost state, and that its call is admitted. -/
theorem Obeys.act {t : Tid} {o : O} {a : Act} {k : Resp a → Prog Resp (R × M)}
    (hc : Obeys D enter I Post c) (h : c.threads t = .running o (.act a k)) :
    ∃ g, ghost D enter t c.past = some g ∧ D.allow g a ∧
      ∀ r, D.expect g a r → (k r).Follows D (Post o) (D.next g a r) := by
  have ht := hc.thread t
  rw [h] at ht
  obtain ⟨g, hg, hf⟩ := ht
  exact ⟨g, hg, hf⟩

/-- The thread that returns next satisfies its postcondition. -/
theorem Obeys.ret {t : Tid} {o : O} {x : R × M} (hc : Obeys D enter I Post c)
    (h : c.threads t = .running o (.ret x)) :
    ∃ g, ghost D enter t c.past = some g ∧ Post o x g := by
  have ht := hc.thread t
  rw [h] at ht
  exact ht

/-- Another thread is not concerned by an event. -/
theorem Obeys.other {t u : Tid} {x : Thread Resp O R M} {e : Event Resp O R M} {w : W}
    (hc : Obeys D enter I Post c) (hu : u ≠ t)
    (hg : ghost D enter u (⟨e, w⟩ :: c.past) = ghost D enter u c.past) :
    ThreadObeys D I Post ((c.after t x e w).threads u) (ghost D enter u (c.after t x e w).past) := by
  show ThreadObeys D I Post (c.setThread t x u) _
  rw [c.setThread_other hu]
  exact hg ▸ hc.thread u

/-- **One step keeps the pool obedient**, if the answer is an expected one. -/
theorem Obeys.step (hc : Obeys D enter I Post c) (hstep : S.Step c c')
    (hprog : ∀ o m, I m → (S.program o m).Follows D (Post o) (enter o m))
    (hpost : ∀ o x g, Post o x g → I x.2)
    (hexp : ∀ t a ch r w g, S.effect t c.world a ch = some (r, w) →
      ghost D enter t c.past = some g → D.allow g a → D.expect g a r) :
    Obeys D enter I Post c' := by
  cases hstep with
  | start t o m h =>
    refine ⟨fun u => ?_, hc.lawful⟩
    by_cases hu : u = t
    · subst hu
      have hm := hc.thread u
      rw [h] at hm
      simp only [Config.after, Config.setThread_same, ghost, if_true]
      exact ⟨_, rfl, hprog o m hm.1⟩
    · exact hc.other hu (by simp only [ghost, if_neg (Ne.symm hu)])
  | act t o a k ch r w h hw =>
    obtain ⟨g, hg, hallow, hk⟩ := hc.act h
    have hr := hexp t a ch r w g hw hg hallow
    refine ⟨fun u => ?_, ⟨g, hg, hallow, hr⟩, hc.lawful⟩
    by_cases hu : u = t
    · subst hu
      simp only [Config.after, Config.setThread_same, ghost, if_true, hg, Option.map_some]
      exact ⟨_, rfl, hk r hr⟩
    · exact hc.other hu (by simp only [ghost, if_neg (Ne.symm hu)])
  | ret t o r m h =>
    obtain ⟨g, hg, hp⟩ := hc.ret h
    refine ⟨fun u => ?_, ⟨g, hg, hp⟩, hc.lawful⟩
    by_cases hu : u = t
    · subst hu
      simp only [Config.after, Config.setThread_same, ghost, if_true]
      exact ⟨hpost o (r, m) g hp, rfl⟩
    · exact hc.other hu (by simp only [ghost, if_neg (Ne.symm hu)])
  | kill t h =>
    refine ⟨fun u => ?_, hc.lawful⟩
    by_cases hu : u = t
    · subst hu
      simp only [Config.after, Config.setThread_same, ghost, if_true]
      rfl
    · exact hc.other hu (by simp only [ghost, if_neg (Ne.symm hu)])

/-- A pool of idle threads obeys. -/
theorem Obeys.init (hidle : ∀ t, ∃ m, c.threads t = .idle m ∧ I m) (hpast : c.past = []) :
    Obeys D enter I Post c := by
  refine ⟨fun t => ?_, ?_⟩
  · obtain ⟨m, hm, hI⟩ := hidle t
    rw [hm, hpast]
    exact ⟨hI, rfl⟩
  · rw [hpast]
    trivial

/-- **Programs proved one by one obey in the pool.** -/
theorem System.Reachable.obeys {c₀ : Config Resp W O R M} (hc : S.Reachable c₀ c)
    (h₀ : Obeys D enter I Post c₀)
    (hprog : ∀ o m, I m → (S.program o m).Follows D (Post o) (enter o m))
    (hpost : ∀ o x g, Post o x g → I x.2)
    (hexp : ∀ t w a ch r w' g, S.effect t w a ch = some (r, w') → D.expect g a r) :
    Obeys D enter I Post c := by
  induction hc with
  | init => exact h₀
  | step _ hs ih =>
    exact ih.step hs hprog hpost fun t a ch r w g hw _ _ => hexp t _ a ch r w g hw

end Obeys

end Interact
