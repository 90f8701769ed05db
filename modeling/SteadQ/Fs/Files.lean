/-
  File:      SteadQ/Fs/Files.lean
  Subject:   WHERE FILES ARE, and how a call changes it.

  Seen from its files the tree is a map from places to inodes. Making and removing directories
  leaves it alone; `Refiles` lists what the other calls do, and `step_refiles` says that a call
  does one of these things. An answer that a file was linked or renamed without replacement is
  the truth (`Act.lands`): in every other case the call may have changed nothing.
-/
import Mathlib.Logic.Function.Basic
import SteadQ.Fs.Tree

namespace SteadQ

open Octet Interact

/-- A file got a name, where there was none. -/
def Act.lands : (a : Act) → a.Resp → Bool
  | .linkat .., .ok _ => true
  | .renameNoreplace .., .ok _ => true
  | _, _ => false

/-- Calls other than draws and locks. -/
def Act.isAside : Act → Bool
  | .random128 => false
  | .tryLock _ => false
  | .unlock _ => false
  | _ => true

namespace World

variable {w w' : World}

def files (w : World) : Path × Name → Option Ino := fun x => w.fileAt x.1 x.2

theorem files_eq_some {x : Path × Name} {i : Ino} :
    w.files x = some i ↔ w.entry x.1 x.2 = some (.file i) := by
  unfold files fileAt entry
  split
  · rename_i j hj
    rw [hj]
    simp
  · rename_i hne
    exact ⟨nofun, fun h => absurd h (hne i)⟩

/-- Entries that are no files do not count. -/
theorem files_congr {x : Path × Name}
    (h : ∀ i, w'.entry x.1 x.2 = some (.file i) ↔ w.entry x.1 x.2 = some (.file i)) :
    w'.files x = w.files x := by
  refine Option.ext fun i => ?_
  rw [files_eq_some, files_eq_some]
  exact h i

theorem Still.files (h : Still w w') : w'.files = w.files := by
  funext x
  exact files_congr fun i => by rw [h.entries]

theorem Sets.files {p : Path} {n : Name} {x : Option Ino} (h : Sets w w' p n x) :
    w'.files = Function.update w.files (p, n) x := by
  funext y
  by_cases hy : y = (p, n)
  · subst hy
    rw [Function.update_self]
    refine Option.ext fun i => ?_
    rw [files_eq_some, h.entries, if_pos ⟨rfl, rfl⟩]
    cases x <;> simp
  · rw [Function.update_of_ne hy]
    refine files_congr fun i => ?_
    rw [h.entries, if_neg]
    rintro ⟨h₁, h₂⟩
    exact hy (Prod.ext h₁ h₂)

section Moves

variable {d d' : Dir} {n n' : Name} {i : Ino}

theorem Moves.file (h : Moves w w' d n d' n' i) : w.files (d.path, n) = some i :=
  files_eq_some.mpr (lookup_eq_some.mp h.source).2

theorem Moves.files (h : Moves w w' d n d' n' i) : w'.files =
    Function.update (Function.update w.files (d.path, n) none) (d'.path, n') (some i) := by
  funext y
  by_cases hy' : y = (d'.path, n')
  · subst hy'
    rw [Function.update_self, files_eq_some, h.entries, if_pos ⟨rfl, rfl⟩]
  · rw [Function.update_of_ne hy']
    have hne' : ¬ (y.1 = d'.path ∧ y.2 = n') := fun hc => hy' (Prod.ext hc.1 hc.2)
    by_cases hy : y = (d.path, n)
    · subst hy
      rw [Function.update_self]
      refine Option.ext fun j => ?_
      rw [files_eq_some, h.entries, if_neg hne', if_pos ⟨rfl, rfl⟩]
      exact ⟨nofun, nofun⟩
    · rw [Function.update_of_ne hy]
      have hne : ¬ (y.1 = d.path ∧ y.2 = n) := fun hc => hy (Prod.ext hc.1 hc.2)
      exact files_congr fun j => by rw [h.entries, if_neg hne', if_neg hne]

end Moves

/-- What a call did to the files. -/
inductive Refiles (w w' : World) : (a : Act) → a.Resp → Prop where
  | same {a : Act} {r : a.Resp} (h : w'.files = w.files) (hl : a.lands r = false) :
      Refiles w w' a r
  | dropped {d : Dir} {n : Name} (h : w'.files = Function.update w.files (d.path, n) none) :
      Refiles w w' (.unlinkat d n) (.ok ())
  | created {d : Dir} {n : Name} {i : Ino} (hn : w.files (d.path, n) = none) (hi : i = w.nextId)
      (h : w'.files = Function.update w.files (d.path, n) (some i)) :
      Refiles w w' (.createExclusive d n) (.ok i)
  | linked {form : LinkForm} {i : Ino} {d : Dir} {n : Name} (hn : w.files (d.path, n) = none)
      (h : w'.files = Function.update w.files (d.path, n) (some i)) :
      Refiles w w' (.linkat form i d n) (.ok ())
  | moved {d d' : Dir} {n n' : Name} {i : Ino} (hi : w.files (d.path, n) = some i)
      (hn : w.files (d'.path, n') = none)
      (h : w'.files =
        Function.update (Function.update w.files (d.path, n) none) (d'.path, n') (some i)) :
      Refiles w w' (.renameNoreplace d n d' n') (.ok ())
  | replaced {d d' : Dir} {n n' : Name} {i : Ino} (hi : w.files (d.path, n) = some i)
      (h : w'.files =
        Function.update (Function.update w.files (d.path, n) none) (d'.path, n') (some i)) :
      Refiles w w' (.renameat d n d' n') (.ok ())

theorem files_eq_none {x : Path × Name} (h : w.entry x.1 x.2 = none) : w.files x = none := by
  refine Option.eq_none_iff_forall_not_mem.mpr fun i hi => ?_
  rw [files_eq_some.mp hi] at h
  cases h

/-- An edit of the tree, seen from the files. -/
theorem Edit.refiles {a : Act} {r : a.Resp} (ht : w.Tree) (he : Edit w w' a r)
    (hl : Still w w' → a.lands r = false) : Refiles w w' a r := by
  cases he with
  | still h => exact .same h.files (hl h)
  | @made d n hd hn next ids entries =>
    refine .same (funext fun x => files_congr fun i => ?_) rfl
    rw [entries]
    split
    · rename_i hx
      rw [hx, entry_of_idAt (ht.idAt_eq_none hn)]
    · split
      · rename_i hx
        rw [hx.1, hx.2, hn]
        exact ⟨nofun, nofun⟩
      · rfl
  | @removed d n id hn empty ids entries =>
    refine .same (funext fun x => files_congr fun i => ?_) rfl
    rw [entries]
    split
    · rename_i hx
      rw [hx, empty]
    · split
      · rename_i hx
        rw [hx.1, hx.2, (lookup_eq_some.mp hn).2]
        exact ⟨nofun, nofun⟩
      · rfl
  | dropped _ h => exact .dropped h.files
  | created hn hi _ h => exact .created (files_eq_none hn) hi h.files
  | linked hn _ h => exact .linked (files_eq_none hn) h.files
  | moved hn h => exact .moved h.file (files_eq_none hn) h.files
  | replaced _ h => exact .replaced h.file h.files

/-- A file that was linked is there. -/
theorem link_lands {i : Ino} {d : Dir} {n : Name} (h : w.link i d n = (.ok (), w')) :
    ¬ Still w w' := by
  intro hs
  unfold link at h
  split at h
  · cases h
  · cases h
  · rename_i node hi hlive
    split at h
    · cases h
    · rename_i hnone
      have hentry : w'.entry d.path n = some (.file i) := by
        cases h
        rw [entry_setInode, entry_insert (by rw [idAt_of_live hlive]; rfl), if_pos ⟨rfl, rfl⟩]
      rw [hs.entries, entry_of_live hlive] at hentry
      exact hnone (by rw [hentry]; rfl)

/-- A file that was renamed without replacement is where it was renamed to. -/
theorem renameNoreplace_lands {d d' : Dir} {n n' : Name}
    (h : w.renameNoreplace d n d' n' = (.ok (), w')) : ¬ Still w w' := by
  intro hs
  unfold renameNoreplace at h
  split at h
  · cases h
  · cases h
  · cases h
  · rename_i i node hi hlive
    split at h
    · cases h
    · rename_i hnone
      have hentry : w'.entry d'.path n' = some (.file i) := by
        cases h
        rw [(moves_moveEntry hi hlive).entries, if_pos ⟨rfl, rfl⟩]
      rw [hs.entries, entry_of_live hlive] at hentry
      exact hnone (by rw [hentry]; rfl)

/-- A call that fails for a reason of the environment answers so. -/
theorem lands_failed {a : Act} {e : IoError} {r : a.Resp} (h : a.failed e = some r) :
    a.lands r = false := by
  cases a <;> first | rfl | (cases h; rfl)

/-- **What a call does to the files.** -/
theorem step_refiles {h : HandleId} {a : Act} {c : Choice} {r : a.Resp} (ht : w.Tree)
    (hs : w.step h a c = some (r, w')) : Refiles w w' a r := by
  unfold step at hs
  split at hs
  · rename_i e
    obtain ⟨r', hr', hx⟩ := Option.map_eq_some_iff.mp hs
    cases hx
    exact .same rfl (lands_failed hr')
  · refine (apply_edit hs).refiles ht fun hstill => ?_
    cases a with
    | linkat form i d n =>
      cases r with
      | error e => rfl
      | ok u =>
        cases c with
        | plain => exact absurd hstill (link_lands (Option.some.inj hs))
        | _ => cases hs
    | renameNoreplace d n d' n' =>
      cases r with
      | error e => rfl
      | ok u =>
        cases c with
        | plain => exact absurd hstill (renameNoreplace_lands (Option.some.inj hs))
        | _ => cases hs
    | _ => rfl

/-- A rename without replacement that succeeded. -/
theorem renameNoreplace_ok {h : HandleId} {d d' : Dir} {n n' : Name} {c : Choice} {u : Unit}
    (ht : w.Tree) (hs : w.step h (.renameNoreplace d n d' n') c = some (.ok u, w')) :
    ∃ i, w.files (d.path, n) = some i ∧ w.files (d'.path, n') = none ∧ w'.files =
      Function.update (Function.update w.files (d.path, n) none) (d'.path, n') (some i) := by
  cases step_refiles ht hs with
  | same _ hl => cases hl
  | moved hi hn h => exact ⟨_, hi, hn, h⟩

theorem Sets.dir {p q : Path} {n m : Name} {x : Option Ino} {id : DirId} (h : Sets w w' p n x)
    (he : w'.entry q m = some (.dir id)) : w.entry q m = some (.dir id) := by
  rw [h.entries] at he
  split at he
  · cases x <;> cases he
  · exact he

theorem Moves.dir {d d' : Dir} {n n' m : Name} {i : Ino} {q : Path} {id : DirId}
    (h : Moves w w' d n d' n' i) (he : w'.entry q m = some (.dir id)) :
    w.entry q m = some (.dir id) := by
  rw [h.entries] at he
  split at he
  · cases he
  · split at he
    · cases he
    · exact he

/-- A directory that is entered was entered before, or was just made. -/
theorem Edit.dirs {a : Act} {r : a.Resp} (he : Edit w w' a r) {p : Path} {n : Name} {id : DirId}
    (h : w'.entry p n = some (.dir id)) :
    w.entry p n = some (.dir id) ∨ (∃ d m, a = .mkdirat d m) ∧ id = w.nextId := by
  cases he with
  | still hs => exact .inl (hs.entries p n ▸ h)
  | made hd hn next ids entries =>
    rw [entries] at h
    split at h
    · cases h
    · split at h
      · cases h
        exact .inr ⟨⟨_, _, rfl⟩, rfl⟩
      · exact .inl h
  | removed hn empty ids entries =>
    rw [entries] at h
    split at h
    · cases h
    · split at h
      · cases h
      · exact .inl h
  | dropped _ hs => exact .inl (hs.dir h)
  | created _ _ _ hs => exact .inl (hs.dir h)
  | linked _ _ hs => exact .inl (hs.dir h)
  | moved _ hm => exact .inl (hm.dir h)
  | replaced _ hm => exact .inl (hm.dir h)

/-- Files are never destroyed. -/
theorem step_inodes {h : HandleId} {a : Act} {c : Choice} {r : a.Resp} (ht : w.Tree)
    (hs : w.step h a c = some (r, w')) (i : Ino) (hi : (w.inodes i).isSome) :
    (w'.inodes i).isSome := by
  unfold step at hs
  split at hs
  · obtain ⟨_, -, hx⟩ := Option.map_eq_some_iff.mp hs
    cases hx
    exact hi
  · exact (apply_frame hs).isSome ht hi

theorem mkdir_inodes (d : Dir) (n : Name) : (w.mkdir d n).2.inodes = w.inodes := by
  unfold mkdir
  split
  · rfl
  · split <;> rfl

/-- **Numbers of directories and files stay apart.** -/
theorem Apart.step {h : HandleId} {a : Act} {c : Choice} {r : a.Resp} (hw : w.Apart) (ht : w.Tree)
    (hs : w.step h a c = some (r, w')) : w'.Apart := by
  unfold World.step at hs
  split at hs
  · obtain ⟨_, -, hx⟩ := Option.map_eq_some_iff.mp hs
    cases hx
    exact hw
  · intro p n id hid
    rcases (apply_edit hs).dirs hid with hold | ⟨⟨d, m, rfl⟩, rfl⟩
    · -- an older number: a file of that number would have to be new
      have hlt : id < w.nextId := ht.ids _ _ ((ht.nested p n id).mp hold)
      refine Option.not_isSome_iff_eq_none.mp fun hsome => ?_
      rcases (apply_frame hs).fresh id hsome with h₁ | h₁
      · rw [hw p n id hold] at h₁
        cases h₁
      · exact absurd hlt (Nat.not_lt.mpr h₁.1)
    · have hinodes : w'.inodes = w.inodes := by
        cases c with
        | plain =>
          have hw' : (w.mkdir d m).2 = w' := congrArg Prod.snd (Option.some.inj hs)
          rw [← hw', mkdir_inodes]
        | _ => cases hs
      rw [hinodes]
      refine Option.not_isSome_iff_eq_none.mp fun hsome => ?_
      exact absurd (ht.inodes _ hsome) (lt_irrefl _)

/-! ## 2. What looks tell -/

section Looks

variable {t : HandleId} {ch : Choice}

/-- A look leaves the world as it is, and what it finds is there. -/
theorem step_look {l : Look} {r : l.Resp} (h : w.step t (.look l) ch = some (r, w')) :
    w' = w ∧ ((∃ e, r = l.failed e) ∨ w.answer l ch = some r) := by
  unfold step at h
  split at h
  · obtain ⟨r', hr', hx⟩ := Option.map_eq_some_iff.mp h
    cases hr'
    cases hx
    exact ⟨rfl, .inl ⟨_, rfl⟩⟩
  · obtain ⟨r', hr', hx⟩ := Option.map_eq_some_iff.mp h
    cases hx
    exact ⟨rfl, .inr hr'⟩

theorem fstat_ok {i : Ino} {stat : Stat}
    (h : w.step t (.look (.fstat i)) ch = some (.ok stat, w')) :
    stat.ino = i ∧ stat.dev = device := by
  rcases (step_look h).2 with ⟨e, he⟩ | ha
  · cases he
  cases ch with
  | plain =>
    simp only [answer] at ha
    split at ha
    · rename_i st hst
      obtain ⟨node, -, rfl⟩ := Option.map_eq_some_iff.mp hst
      cases ha
      exact ⟨rfl, rfl⟩
    · cases ha
      exact ⟨rfl, rfl⟩
  | _ => cases ha

/-- Only files have the status of one. -/
theorem fstat_regular {i : Ino} {stat : Stat}
    (h : w.step t (.look (.fstat i)) ch = some (.ok stat, w')) (hs : stat.kind = .regular) :
    (w.inodes i).isSome := by
  rcases (step_look h).2 with ⟨e, he⟩ | ha
  · cases he
  cases ch with
  | plain =>
    simp only [answer] at ha
    split at ha
    · rename_i st hst
      obtain ⟨node, hnode, -⟩ := Option.map_eq_some_iff.mp hst
      rw [hnode]
      rfl
    · cases ha
      cases hs
  | _ => cases ha

/-- The status of an entry is that of the file there, if its number is one of a file. -/
theorem fstatat_ok {d : Dir} {n : Name} {stat : Stat} (ha : w.Apart)
    (h : w.step t (.look (.fstatat d n)) ch = some (.ok stat, w'))
    (hi : (w.inodes stat.ino).isSome) : w.files (d.path, n) = some stat.ino := by
  rcases (step_look h).2 with ⟨e, he⟩ | hans
  · cases he
  cases ch with
  | plain =>
    simp only [answer] at hans
    split at hans
    · rename_i st hst
      cases hans
      obtain ⟨node, hnode, hstat⟩ := Option.bind_eq_some_iff.mp hst
      have hentry := (lookup_eq_some.mp hnode).2
      cases node with
      | file i =>
        obtain ⟨x, -, rfl⟩ := Option.map_eq_some_iff.mp hstat
        exact files_eq_some.mpr hentry
      | dir id =>
        cases hstat
        rw [ha _ _ _ hentry] at hi
        cases hi
    · cases hans
  | _ => cases hans

end Looks

/-! ## 3. Random values and locks -/

section Sides

variable {t : HandleId} {ch : Choice}

/-- Neither locks nor random values are touched. -/
structure Aside (w w' : World) : Prop where
  drawn : w'.drawn = w.drawn
  locks : w'.locks = w.locks

theorem Aside.refl (w : World) : Aside w w := ⟨rfl, rfl⟩

theorem mkdir_aside (d : Dir) (n : Name) : Aside w (w.mkdir d n).2 := by
  unfold mkdir
  repeat' split
  all_goals exact ⟨rfl, rfl⟩

theorem rmdir_aside (d : Dir) (n : Name) : Aside w (w.rmdir d n).2 := by
  unfold rmdir
  repeat' split
  all_goals exact ⟨rfl, rfl⟩

theorem unlink_aside (d : Dir) (n : Name) : Aside w (w.unlink d n).2 := by
  unfold unlink
  repeat' split
  all_goals exact ⟨rfl, rfl⟩

theorem create_aside (d : Dir) (n : Name) : Aside w (w.create t d n).2 := by
  dsimp only [create, newInode]
  repeat' split
  all_goals exact ⟨rfl, rfl⟩

theorem link_aside (i : Ino) (d : Dir) (n : Name) : Aside w (w.link i d n).2 := by
  unfold link
  repeat' split
  all_goals exact ⟨rfl, rfl⟩

theorem renameNoreplace_aside (d : Dir) (n : Name) (d' : Dir) (n' : Name) :
    Aside w (w.renameNoreplace d n d' n').2 := by
  unfold renameNoreplace
  repeat' split
  all_goals exact ⟨rfl, rfl⟩

theorem rename_aside (d : Dir) (n : Name) (d' : Dir) (n' : Name) :
    Aside w (w.rename d n d' n').2 := by
  unfold rename
  repeat' split
  all_goals exact ⟨rfl, rfl⟩

theorem apply_aside {a : Act} {r : a.Resp} (ha : a.isAside)
    (h : w.apply t a ch = some (r, w')) : Aside w w' := by
  have pair {R : Type} {x : R × World} {r : R} (h : some x = some (r, w')) (hx : Aside w x.2) :
      Aside w w' := by
    cases h
    exact hx
  unfold apply at h
  split at h
  · obtain ⟨r', -, hx⟩ := Option.map_eq_some_iff.mp h
    cases hx
    exact .refl w
  · cases ha
  · cases ha
  · cases ha
  · exact pair h (mkdir_aside ..)
  · exact pair h (rmdir_aside ..)
  · exact pair h (unlink_aside ..)
  · split at h <;> exact pair h ⟨rfl, rfl⟩
  · exact pair h (create_aside ..)
  · exact pair h ⟨rfl, rfl⟩
  · exact pair h ⟨rfl, rfl⟩
  · exact pair h ⟨rfl, rfl⟩
  · split at h <;> exact pair h ⟨rfl, rfl⟩
  · exact pair h (link_aside ..)
  · exact pair h (renameNoreplace_aside ..)
  · exact pair h (rename_aside ..)
  · exact pair h (.refl w)
  · cases h

theorem step_drawn {a : Act} {r : a.Resp} (h : w.step t a ch = some (r, w'))
    (ha : a ≠ .random128) : w'.drawn = w.drawn := by
  unfold step at h
  split at h
  · obtain ⟨r', -, hx⟩ := Option.map_eq_some_iff.mp h
    cases hx
    rfl
  · cases a with
    | random128 => exact absurd rfl ha
    | tryLock k =>
      cases ch with
      | plain =>
        simp only [apply] at h
        split at h <;> cases h <;> rfl
      | _ => cases h
    | unlock k =>
      cases ch with
      | plain =>
        cases h
        rfl
      | _ => cases h
    | _ => exact (apply_aside rfl h).drawn

/-- A random value is a new one. -/
theorem step_random {r : Act.Resp .random128} (h : w.step t .random128 ch = some (r, w')) :
    (∃ e, r = .error e ∧ w' = w) ∨
      ∃ x, r = .ok x ∧ x ∉ w.drawn ∧ w'.drawn = x :: w.drawn := by
  unfold step at h
  split at h
  · cases h
    exact .inl ⟨_, rfl, rfl⟩
  · cases ch with
    | draw x =>
      simp only [apply] at h
      split at h
      · cases h
      · rename_i hx
        cases h
        exact .inr ⟨x, rfl, hx, rfl⟩
    | _ => cases h

end Sides

end World

end SteadQ
