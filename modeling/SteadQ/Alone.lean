/-
  File:      SteadQ/Alone.lean
  Subject:   A QUEUE WITH NOBODY ELSE: every call has its effect, none fails for a reason of the
             environment, and no other handle acts in between.

  The environment still decides clock readings, random bytes and the order of listings; an
  answer tells what it decided (`Act.choice`). `alone t` follows the file system from answer to
  answer, so `m.Meets (alone t) h w Q` says: every run of `m` by handle `t` from `w` ends in `Q`.
-/
import SteadQ.Fs.Tree
import SteadQ.Handle

namespace SteadQ

open Octet Interact

/-! ## 1. What an answer tells about the environment -/

def Look.choice : (l : Look) → l.Resp → Choice
  | .clockRealtime, .ok ns => .time ns
  | .clockBoottime, .ok ns => .time ns
  | .clockMonotonic, .ok ns => .time ns
  | .readDir _, .ok l => .names l
  | .readDir _, .error (e, l) => .broken l e
  | .nextEntry .., .ok o => .next o
  | _, _ => .plain

def Act.choice : (a : Act) → a.Resp → Choice
  | .look l, r => l.choice r
  | .random128, .ok b => .draw b
  | _, _ => .plain

/-- Handle `t` runs alone on the file system. -/
def alone (t : HandleId) : Discipline Act.Resp World where
  next := fun w a r => (w.apply t a (a.choice r)).elim w Prod.snd
  allow := fun _ _ => True
  expect := fun w a r => ∃ w', w.apply t a (a.choice r) = some (r, w')

section Calls

variable {t : HandleId} {w w' : World} {σ ε α : Type} {s : σ} {a : Act} {r : a.Resp}
  {f : a.Resp → Except ε α} {Q : Except ε α → σ → World → Prop}

theorem alone_next (h : w.apply t a (a.choice r) = some (r, w')) : (alone t).next w a r = w' := by
  simp only [alone, h, Option.elim_some]

/-- A call: every answer the file system gives, with the file system behind it. -/
theorem alone_any (h : ∀ r w', w.apply t a (a.choice r) = some (r, w') → Q (f r) s w') :
    (Task.call a f : Task Act.Resp σ ε α).Meets (alone t) s w Q := by
  refine Task.meets_call.mpr ⟨trivial, fun r hr => ?_⟩
  obtain ⟨w', hw'⟩ := hr
  rw [alone_next hw']
  exact h r w' hw'

/-- A call that leaves the environment no choice. -/
theorem alone_call {v : World} (hplain : ∀ r, a.choice r = .plain)
    (hw : w.apply t a .plain = some (r, v)) (h : Q (f r) s v) :
    (Task.call a f : Task Act.Resp σ ε α).Meets (alone t) s w Q := by
  refine alone_any fun r₁ w₁ h₁ => ?_
  rw [hplain, hw, Option.some.injEq, Prod.mk.injEq] at h₁
  obtain ⟨rfl, rfl⟩ := h₁
  exact h

end Calls

/-- What every call keeps holds in the end. -/
theorem alone_keeps {t : HandleId} {σ ε α : Type} {m : Task Act.Resp σ ε α} {s : σ} {w : World}
    {Q : Except ε α → σ → World → Prop} {I : World → Prop}
    (hI : ∀ {w w' a c} {r : Act.Resp a}, I w → w.apply t a c = some (r, w') → I w')
    (hm : m.Meets (alone t) s w Q) (hw : I w) :
    m.Meets (alone t) s w fun r s' w' => Q r s' w' ∧ I w' := by
  have key : ∀ {β : Type} (p : Prog Act.Resp β) (P : β → World → Prop) (w : World), I w →
      p.Follows (alone t) P w → p.Follows (alone t) (fun x w' => P x w' ∧ I w') w := by
    intro β p P
    induction p with
    | ret x => exact fun w hw hp => ⟨hp, hw⟩
    | act a k ih =>
      intro w hw hp
      refine ⟨trivial, fun r hr => ?_⟩
      have hr' := hr
      obtain ⟨w', hw'⟩ := hr'
      have hrest := hp.2 r hr
      rw [alone_next hw'] at hrest ⊢
      exact ih r w' (hI hw hw') hrest
  exact key _ _ w hw hm

theorem alone_tree {t : HandleId} {σ ε α : Type} {m : Task Act.Resp σ ε α} {s : σ} {w : World}
    {Q : Except ε α → σ → World → Prop} (hm : m.Meets (alone t) s w Q) (hw : w.Tree) :
    m.Meets (alone t) s w fun r s' w' => Q r s' w' ∧ w'.Tree :=
  alone_keeps (fun ht ha => ht.edit (World.apply_frame ha) (World.apply_edit ha)) hm hw

theorem tree_live {w : World} (hw : w.Tree) : (w.live rootDir).isSome :=
  World.live_isSome.mpr hw.root

/-! ## 2. Looks the file system answers by itself -/

/-- A look that is neither a clock nor a listing. -/
def Look.isPlain : Look → Bool
  | .clockRealtime => false
  | .clockBoottime => false
  | .clockMonotonic => false
  | .readDir _ => false
  | .nextEntry .. => false
  | _ => true

/-- The answer to a look when nothing fails; the clocks and listings are not asked here. -/
def World.reply (w : World) (l : Look) : l.Resp := (w.answer l .plain).getD (l.failed .enosys)

/-- Code that reads no clock and no listing. -/
def Settled {ε α : Type} (m : LookM ε α) : Prop := m.Asks fun l => l.isPlain = true

theorem Look.choice_of_plain {l : Look} (hl : l.isPlain = true) (r : l.Resp) :
    l.choice r = .plain := by
  cases l <;> first | rfl | cases hl

theorem alone_reply {t : HandleId} {w w' : World} {l : Look} (hl : l.isPlain = true) {r : l.Resp}
    (h : w.apply t (.look l) ((Act.look l).choice r) = some (r, w')) :
    r = w.reply l ∧ w' = w := by
  have hplain : (Act.look l).choice r = .plain := Look.choice_of_plain hl r
  rw [hplain] at h
  simp only [World.apply, Option.map_eq_some_iff, Prod.mk.injEq] at h
  obtain ⟨r', hr', rfl, rfl⟩ := h
  exact ⟨by rw [World.reply, hr', Option.getD_some], rfl⟩

/-- **Code that asks the file system only has one outcome.** -/
theorem alone_looking {ε α : Type} {t : HandleId} {m : LookM ε α} {h : Handle} {w : World}
    {Q : Except ε α → Handle → World → Prop} (hm : Settled m) (hQ : Q (m.eval w.reply h).1 h w) :
    (looking m).Meets (alone t) h w Q := by
  refine Task.meets_fixed (o := w.reply) (fun l hl => ⟨trivial, fun r hr => ?_⟩) hm hQ
  obtain ⟨w', hw'⟩ := hr
  obtain ⟨hreply, rfl⟩ := alone_reply hl hw'
  exact ⟨hreply, alone_next hw'⟩

theorem alone_attemptLook {ε ε' α : Type} {t : HandleId} {m : LookM ε' α} {h : Handle} {w : World}
    {Q : Except ε (Except ε' α) → Handle → World → Prop} (hm : Settled m)
    (hQ : Q (.ok (m.eval w.reply h).1) h w) :
    (attemptLook m : QueueM ε _).Meets (alone t) h w Q :=
  Task.meets_attempt.mpr (alone_looking hm hQ)

/-! ## 3. Names and descriptors -/

/-- The number a name is opened as. -/
def Node.number : Node → Nat
  | .file i => i
  | .dir id => id

section Names

variable {w : World} {h : Handle} {path : Path} {node : DirNode}

theorem lookup_of_dirs (hnode : w.dirs path = some node) (name : Name) :
    w.lookup ⟨path, node.id⟩ name = node.entries.lookup name := by
  simp only [World.lookup, World.live, hnode, if_true, Option.bind_some]

theorem eval_openRelative (hroot : (w.live rootDir).isSome) (path : Path) :
    (openRelative path).eval w.reply h = (match w.dirs path with
      | some node => .ok ⟨path, node.id⟩
      | none => .error .enoent, h) := by
  obtain ⟨root, hroot⟩ := Option.isSome_iff_exists.mp hroot
  show (Except.map (Dir.mk path) (w.reply (.openDirectory rootDir path)), h) = _
  rw [World.reply, World.answer_openDirectory hroot, Option.getD_some]
  show (Except.map (Dir.mk path) (match w.dirs path with
    | some n => _
    | none => _), h) = _
  cases w.dirs path <;> rfl

theorem eval_openAt (hnode : w.dirs path = some node) (name : Name) :
    (openAt ⟨path, node.id⟩ name).eval w.reply h = (match node.entries.lookup name with
      | some entry => .ok entry.number
      | none => .error .enoent, h) := by
  show (w.reply (.openAt ⟨path, node.id⟩ name), h) = _
  rw [World.reply, World.answer_openAt, Option.getD_some, lookup_of_dirs hnode]
  rcases node.entries.lookup name with _ | _ | _ <;> rfl

theorem reply_fstatat (hnode : w.dirs path = some node) (name : Name) :
    w.reply (.fstatat ⟨path, node.id⟩ name) = (match (node.entries.lookup name).bind w.statNode with
      | some stat => .ok stat
      | none => .error .enoent) := by
  simp only [World.reply, World.answer, lookup_of_dirs hnode]
  cases (node.entries.lookup name).bind w.statNode <;> rfl

theorem reply_fstatDir (hnode : w.dirs path = some node) :
    w.reply (.fstatDir ⟨path, node.id⟩) = .ok ⟨.directory, 2, 0, device, node.id⟩ := by
  simp [World.reply, World.answer, World.live, hnode]

end Names

end SteadQ
