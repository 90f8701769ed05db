/-
  File:      SteadQ/Law/Rules.lean
  Subject:   THE LAW, CALL BY CALL: how each system call advances the ghost state.

  Outside the acquisition of a floor a look changes nothing, so code that only looks meets the
  law whatever it looks at (`looking_meets`).
-/
import SteadQ.Law

namespace SteadQ

open Octet Interact

variable {f : FormatRecord} {g g' : Ghost} {h h' : Handle} {ε α : Type}

/-! ## 1. Single calls -/

section Next

@[simp] theorem next_look (l : Look) (r : l.Resp) : (law f).next g (.look l) r = g := rfl

@[simp] theorem next_mkdirat (d : Dir) (n : Name) (r : Except IoError Unit) :
    (law f).next g (.mkdirat d n) r = g := rfl

@[simp] theorem next_unlinkat (d : Dir) (n : Name) (r : Except IoError Unit) :
    (law f).next g (.unlinkat d n) r = g := rfl

@[simp] theorem next_unlinkatDir (d : Dir) (n : Name) (r : Except IoError Unit) :
    (law f).next g (.unlinkatDir d n) r = g := rfl

@[simp] theorem next_fsyncDir (d : Dir) (r : Except IoError Unit) :
    (law f).next g (.fsyncDir d) r = g := rfl

@[simp] theorem next_link (form : LinkForm) (i : Ino) (d : Dir) (n : Name) :
    (law f).next g (.linkat form i d n) (.ok ()) =
      { g with own := g.own.filter fun o => o.ino ≠ i }.useJobId d.path n := rfl

end Next

/-! ## 2. Looks -/

theorem looking_meets {m : LookM ε α} {Q : Except ε α → Handle → Ghost → Prop}
    (hm : m.Always h fun r _ => Q r h g) : (looking m).Meets (law f) h g Q :=
  Task.meets_peek (fun _ => trivial) (fun l r => next_look l r) hm

/-- Code that only looks meets the law, and nothing is said about what it finds. -/
theorem looking_any {m : LookM ε α} {Q : Except ε α → Handle → Ghost → Prop}
    (hQ : ∀ r, Q r h g) : (looking m).Meets (law f) h g Q :=
  looking_meets (Task.always_of_forall hQ)

@[simp] theorem monadLift_look (m : LookM ε α) : (liftM m : QueueM ε α) = looking m := rfl

/-! ## 3. What is kept -/

/-- What no call takes back before it has moved anything. -/
structure Grows (g g' : Ghost) : Prop where
  op : g'.op = g.op
  drawn : ∀ x ∈ g.drawn, x ∈ g'.drawn
  moved : g'.moved = g.moved
  claims : g'.claims = g.claims

theorem Grows.refl (g : Ghost) : Grows g g :=
  ⟨rfl, fun _ h => h, rfl, rfl⟩

theorem Grows.trans {g₁ g₂ g₃ : Ghost} (h₁ : Grows g₁ g₂) (h₂ : Grows g₂ g₃) : Grows g₁ g₃ :=
  ⟨h₂.op.trans h₁.op, fun x h => h₂.drawn x (h₁.drawn x h),
    h₂.moved.trans h₁.moved, h₂.claims.trans h₁.claims⟩

theorem Grows.random (x : Octets 16) : Grows g { g with drawn := x :: g.drawn } :=
  ⟨rfl, fun _ h => List.mem_cons_of_mem _ h, rfl, rfl⟩

theorem Grows.create (x : Octets 16) (d : Dir) (n : Name) (i : Ino) :
    Grows g ((law f).next { g with drawn := x :: g.drawn } (.createExclusive d n) (.ok i)) := by
  refine ⟨rfl, fun y hy => ?_, rfl, rfl⟩
  show y ∈ (if _ then _ else _ : List (Octets 16))
  split
  · exact List.mem_cons_of_mem _ hy
  · exact hy

/-! ## 4. What the code keeps -/

/-- The handle is one of a queue of format `f`. -/
structure Quiet (f : FormatRecord) (h : Handle) (_ : Ghost) : Prop where
  format : h.format = f

/-- Since `g₀` the call is the same. -/
structure Stays (f : FormatRecord) (g₀ : Ghost) (h : Handle) (g : Ghost) : Prop
    extends Quiet f h g where
  op : g.op = g₀.op

/-- Moreover files were only added to the own ones, and nothing has been moved. -/
structure Steady (f : FormatRecord) (g₀ : Ghost) (h : Handle) (g : Ghost) : Prop
    extends Stays f g₀ h g where
  grows : Grows g₀ g
  own : ∀ o ∈ g₀.own, ∃ o' ∈ g.own, o'.ino = o.ino ∧ o'.place = o.place

variable {g₀ : Ghost}

theorem Quiet.stays (hq : Quiet f h g) : Stays f g h g := ⟨hq, rfl⟩

theorem Quiet.steady (hq : Quiet f h g) : Steady f g h g :=
  ⟨hq.stays, .refl g, fun o ho => ⟨o, ho, rfl, rfl⟩⟩

theorem Quiet.memory (hq : Quiet f h g) (h₁ : h'.format = h.format) : Quiet f h' g :=
  ⟨h₁.trans hq.format⟩

theorem Stays.memory (hs : Stays f g₀ h g) (h₁ : h'.format = h.format) : Stays f g₀ h' g :=
  ⟨hs.toQuiet.memory h₁, hs.op⟩

theorem Steady.memory (hs : Steady f g₀ h g) (h₁ : h'.format = h.format) : Steady f g₀ h' g :=
  ⟨hs.toStays.memory h₁, hs.grows, hs.own⟩

theorem Stays.trans (hs : Stays f g₀ h g) (hs' : Stays f g h' g') : Stays f g₀ h' g' :=
  ⟨hs'.toQuiet, hs'.op.trans hs.op⟩

/-- Looks change nothing here. -/
theorem quiet_look {m : LookM ε α} {I : Handle → Ghost → Prop} {P : α → Prop}
    (hI : I h g) (hm : m.Always h fun r _ => ∀ a, r = .ok a → P a) :
    (looking m).Keeps (law f) h g I fun a h' g' => h' = h ∧ g' = g ∧ P a :=
  looking_meets (Task.Meets.mono hm fun _ _ _ hr => ⟨hI, fun a ha => ⟨rfl, rfl, hr a ha⟩⟩)

theorem quiet_any {m : LookM ε α} {I : Handle → Ghost → Prop}
    (hI : I h g) : (looking m).Keeps (law f) h g I fun _ h' g' => h' = h ∧ g' = g :=
  looking_any fun _ => ⟨hI, fun _ _ => ⟨rfl, rfl⟩⟩

/-- A look whose failure is a value. -/
theorem keeps_attemptLook {ε' β : Type} {m : LookM ε' α} {k : Except ε' α → QueueM ε β}
    {I : Handle → Ghost → Prop} {K : β → Handle → Ghost → Prop} {P : Except ε' α → Prop}
    (hm : m.Always h fun r _ => P r)
    (hk : ∀ r, P r → (k r).Keeps (law f) h g I K) : (attemptLook m >>= k).Keeps (law f) h g I K :=
  Task.meets_bind.mpr (Task.meets_attempt.mpr
    (looking_meets (Task.Meets.mono hm fun r _ _ hr => hk r hr)))

theorem keeps_attemptAny {ε' β : Type} {m : LookM ε' α} {k : Except ε' α → QueueM ε β}
    {I : Handle → Ghost → Prop} {K : β → Handle → Ghost → Prop}
    (hk : ∀ r, (k r).Keeps (law f) h g I K) :
    (attemptLook m >>= k).Keeps (law f) h g I K :=
  Task.meets_bind.mpr (Task.meets_attempt.mpr (looking_any hk))

/-- A call that is admitted and does not advance the ghost state. -/
theorem quiet_call {a : Act} {k : a.Resp → Except ε α} {I : Handle → Ghost → Prop}
    (hallow : g.allow f a) (hnext : ∀ r, (law f).next g a r = g) (hI : I h g) :
    (Task.call a k : QueueM ε α).Keeps (law f) h g I fun _ h' g' => h' = h ∧ g' = g :=
  ⟨hallow, fun r _ => by
    rw [hnext]
    exact ⟨hI, fun _ _ => ⟨rfl, rfl⟩⟩⟩

theorem fsyncDirFd_keeps {I : Handle → Ghost → Prop} (hI : I h g)
    (d : Dir) : (fsyncDirFd d).Keeps (law f) h g I fun _ h' g' => h' = h ∧ g' = g :=
  quiet_call trivial (fun r => next_fsyncDir d r) hI

theorem openBelow_keeps {I : Handle → Ghost → Prop} (hI : I h g)
    (base : Dir) (path : Path) :
    (looking (openBelow base path)).Keeps (law f) h g I
      fun d h' g' => h' = h ∧ g' = g ∧ d.path = base.path ++ path :=
  quiet_look hI ⟨trivial, fun _ _ _ hr => openBelow_eq_ok hr⟩

theorem openRelative_keeps {I : Handle → Ghost → Prop} (hI : I h g)
    (path : Path) : (looking (openRelative path)).Keeps (law f) h g I
      fun d h' g' => h' = h ∧ g' = g ∧ d.path = path :=
  openBelow_keeps hI rootDir path

end SteadQ
