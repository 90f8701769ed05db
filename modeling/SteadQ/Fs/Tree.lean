/-
  File:      SteadQ/Fs/Tree.lean
  Subject:   WHAT A CALL CAN DO TO THE TREE.

  A directory is known by its identity (`idAt`) and its entries (`entry`), both read by path.
-/
import SteadQ.Fs

namespace SteadQ

open Octet Interact

namespace World

/-! ## 1. Entries and identities -/

section Read

variable (w : World)

/-- The entry `n` of the directory at `p`. -/
def entry (p : Path) (n : Name) : Option Node := (w.dirs p).bind fun node => node.entries.lookup n

/-- The identity of the directory at `p`. -/
def idAt (p : Path) : Option DirId := (w.dirs p).map DirNode.id

end Read

variable {w w' : World}

theorem live_eq_some {d : Dir} {node : DirNode} :
    w.live d = some node ↔ w.dirs d.path = some node ∧ node.id = d.id := by
  unfold live
  split
  · rename_i n hn
    rw [hn, Option.some_inj]
    split
    · rename_i hid
      rw [Option.some_inj]
      exact ⟨fun h => ⟨h, h ▸ hid⟩, fun h => h.1⟩
    · rename_i hid
      exact ⟨nofun, fun h => absurd (h.1 ▸ h.2) hid⟩
  · rename_i hn
    rw [hn]
    exact ⟨nofun, fun h => nomatch h.1⟩

/-- A descriptor is live exactly if its directory has its identity. -/
theorem live_isSome {d : Dir} : (w.live d).isSome ↔ w.idAt d.path = some d.id := by
  rw [Option.isSome_iff_exists, idAt, Option.map_eq_some_iff]
  exact ⟨fun ⟨n, h⟩ => ⟨n, live_eq_some.mp h⟩, fun ⟨n, h⟩ => ⟨n, live_eq_some.mpr h⟩⟩

theorem entry_of_live {d : Dir} {node : DirNode} (h : w.live d = some node) (n : Name) :
    w.entry d.path n = node.entries.lookup n := by
  rw [entry, (live_eq_some.mp h).1, Option.bind_some]

theorem idAt_of_live {d : Dir} {node : DirNode} (h : w.live d = some node) :
    w.idAt d.path = some d.id :=
  live_isSome.mp (h ▸ rfl)

theorem lookup_eq {d : Dir} {n : Name} (h : w.idAt d.path = some d.id) :
    w.lookup d n = w.entry d.path n := by
  obtain ⟨node, hn⟩ := Option.isSome_iff_exists.mp (live_isSome.mpr h)
  rw [lookup, hn, Option.bind_some, entry_of_live hn]

theorem lookup_eq_some {d : Dir} {n : Name} {x : Node} :
    w.lookup d n = some x ↔ w.idAt d.path = some d.id ∧ w.entry d.path n = some x := by
  constructor
  · intro h
    obtain ⟨node, hn, -⟩ := Option.bind_eq_some_iff.mp h
    have hid := idAt_of_live hn
    exact ⟨hid, lookup_eq hid ▸ h⟩
  · rintro ⟨hid, he⟩
    rw [lookup_eq hid, he]

theorem entry_of_idAt {p : Path} (h : w.idAt p = none) (n : Name) : w.entry p n = none := by
  rw [entry, Option.map_eq_none_iff.mp h, Option.bind_none]

/-! ## 2. Updates -/

@[simp] theorem idAt_setEntries (p q : Path) (f : Entries → Entries) :
    (w.setEntries p f).idAt q = w.idAt q := by
  simp only [idAt, setEntries]
  split
  · rw [Option.map_map]
    rfl
  · rfl

theorem entry_setEntries (p q : Path) (f : Entries → Entries) (n : Name) :
    (w.setEntries p f).entry q n =
      if q = p then (w.dirs q).bind fun node => (f node.entries).lookup n else w.entry q n := by
  simp only [entry, setEntries]
  split
  · rw [Option.bind_map]
    rfl
  · rfl

theorem entry_insert {p q : Path} {n m : Name} {x : Node} (h : (w.idAt p).isSome) :
    (w.setEntries p (·.insert n x)).entry q m =
      if q = p ∧ m = n then some x else w.entry q m := by
  rw [entry_setEntries]
  by_cases hq : q = p
  · subst hq
    obtain ⟨node, hnode⟩ := Option.isSome_iff_exists.mp h
    obtain ⟨node, hnode, -⟩ := Option.map_eq_some_iff.mp hnode
    by_cases hm : m = n
    · subst hm
      simp [hnode]
    · simp [hnode, hm, entry]
  · simp [hq]

theorem entry_erase {p q : Path} {n m : Name} :
    (w.setEntries p (·.erase n)).entry q m = if q = p ∧ m = n then none else w.entry q m := by
  rw [entry_setEntries]
  by_cases hq : q = p
  · subst hq
    by_cases hm : m = n
    · subst hm
      cases w.dirs q <;> simp
    · cases h : w.dirs q <;> simp [hm, entry, h]
  · simp [hq]

@[simp] theorem idAt_setInode (i : Ino) (f : Inode → Inode) (p : Path) :
    (w.setInode i f).idAt p = w.idAt p := rfl

@[simp] theorem entry_setInode (i : Ino) (f : Inode → Inode) (p : Path) (n : Name) :
    (w.setInode i f).entry p n = w.entry p n := rfl

/-! ## 3. Edits -/

/-- Directories and entries are as before. -/
structure Still (w w' : World) : Prop where
  ids : ∀ p, w'.idAt p = w.idAt p
  entries : ∀ p n, w'.entry p n = w.entry p n

/-- One entry is set to a file or taken out. -/
structure Sets (w w' : World) (p : Path) (n : Name) (x : Option Ino) : Prop where
  ids : ∀ q, w'.idAt q = w.idAt q
  entries : ∀ q m, w'.entry q m = if q = p ∧ m = n then x.map .file else w.entry q m

/-- The file `i` moves from one entry to another. -/
structure Moves (w w' : World) (d : Dir) (n : Name) (d' : Dir) (n' : Name) (i : Ino) : Prop where
  source : w.lookup d n = some (.file i)
  target : w.idAt d'.path = some d'.id
  ids : ∀ q, w'.idAt q = w.idAt q
  entries : ∀ q m, w'.entry q m =
    if q = d'.path ∧ m = n' then some (.file i)
    else if q = d.path ∧ m = n then none
    else w.entry q m

/-- What a call did to the tree. -/
inductive Edit (w w' : World) : (a : Act) → a.Resp → Prop where
  | still {a : Act} {r : a.Resp} (h : Still w w') : Edit w w' a r
  | made {d : Dir} {n : Name} (hd : w.idAt d.path = some d.id) (hn : w.entry d.path n = none)
      (next : w'.nextId = w.nextId + 1)
      (ids : ∀ p, w'.idAt p = if p = d.path ++ [n] then some w.nextId else w.idAt p)
      (entries : ∀ p m, w'.entry p m =
        if p = d.path ++ [n] then none
        else if p = d.path ∧ m = n then some (.dir w.nextId)
        else w.entry p m) : Edit w w' (.mkdirat d n) (.ok ())
  | removed {d : Dir} {n : Name} {id : DirId} (hn : w.lookup d n = some (.dir id))
      (empty : ∀ m, w.entry (d.path ++ [n]) m = none)
      (ids : ∀ p, w'.idAt p = if p = d.path ++ [n] then none else w.idAt p)
      (entries : ∀ p m, w'.entry p m =
        if p = d.path ++ [n] then none
        else if p = d.path ∧ m = n then none
        else w.entry p m) : Edit w w' (.unlinkatDir d n) (.ok ())
  | dropped {d : Dir} {n : Name} {i : Ino} (hn : w.lookup d n = some (.file i))
      (h : Sets w w' d.path n none) : Edit w w' (.unlinkat d n) (.ok ())
  | created {d : Dir} {n : Name} {i : Ino} (hn : w.entry d.path n = none) (hi : i = w.nextId)
      (hnew : (w'.inodes i).isSome) (h : Sets w w' d.path n (some i)) : Edit w w' (.createExclusive d n) (.ok i)
  | linked {form : LinkForm} {i : Ino} {d : Dir} {n : Name} (hn : w.entry d.path n = none)
      (hi : (w.inodes i).isSome) (h : Sets w w' d.path n (some i)) :
      Edit w w' (.linkat form i d n) (.ok ())
  | moved {d d' : Dir} {n n' : Name} {i : Ino} (hn : w.entry d'.path n' = none)
      (h : Moves w w' d n d' n' i) : Edit w w' (.renameNoreplace d n d' n') (.ok ())
  | replaced {d d' : Dir} {n n' : Name} {i : Ino}
      (hn : ∀ x, w.entry d'.path n' = some x → ∃ j, x = .file j ∧ j ≠ i)
      (h : Moves w w' d n d' n' i) : Edit w w' (.renameat d n d' n') (.ok ())

theorem Still.refl (w : World) : Still w w := ⟨fun _ => rfl, fun _ _ => rfl⟩

theorem mkdir_edit (d : Dir) (n : Name) :
    Edit w (w.mkdir d n).2 (.mkdirat d n) (w.mkdir d n).1 := by
  unfold mkdir
  split
  · exact .still (.refl w)
  · rename_i node hlive
    split
    · exact .still (.refl w)
    · rename_i hnone
      have hid := idAt_of_live hlive
      have hn : w.entry d.path n = none := by
        rw [entry_of_live hlive]
        simpa using hnone
      refine .made hid hn rfl (fun p => ?_) fun p m => ?_
      · by_cases hp : p = d.path ++ [n]
        · simp [idAt, hp]
        · have h := idAt_setEntries (w := w) d.path p (·.insert n (.dir w.nextId))
          simpa [idAt, hp] using h
      · by_cases hp : p = d.path ++ [n]
        · simp [entry, hp]
        · have h := entry_insert (q := p) (n := n) (m := m) (x := .dir w.nextId)
            (show (w.idAt d.path).isSome from hid ▸ rfl)
          simpa [entry, hp] using h

theorem rmdir_edit (d : Dir) (n : Name) :
    Edit w (w.rmdir d n).2 (.unlinkatDir d n) (w.rmdir d n).1 := by
  unfold rmdir
  split
  · exact .still (.refl w)
  · exact .still (.refl w)
  · rename_i id hn
    split
    · exact .still (.refl w)
    · rename_i child hchild
      split
      · rename_i hempty
        refine .removed hn (fun m => ?_) (fun p => ?_) fun p m => ?_
        · have : child.entries = ∅ := AList.ext hempty
          simp [entry, hchild, this]
        · by_cases hp : p = d.path ++ [n]
          · simp [idAt, hp]
          · have h := idAt_setEntries (w := w) d.path p (·.erase n)
            simpa [idAt, hp] using h
        · by_cases hp : p = d.path ++ [n]
          · simp [entry, hp]
          · have h := entry_erase (w := w) (p := d.path) (q := p) (n := n) (m := m)
            simpa [entry, hp] using h
      · exact .still (.refl w)

theorem unlink_edit (d : Dir) (n : Name) :
    Edit w (w.unlink d n).2 (.unlinkat d n) (w.unlink d n).1 := by
  unfold unlink
  split
  · exact .still (.refl w)
  · exact .still (.refl w)
  · rename_i i hn
    exact .dropped hn ⟨fun q => idAt_setEntries .., fun q m => entry_erase⟩

theorem create_edit (h : HandleId) (d : Dir) (n : Name) :
    Edit w (w.create h d n).2 (.createExclusive d n) (w.create h d n).1 := by
  unfold create
  split
  · exact .still (.refl w)
  · rename_i node hlive
    split
    · exact .still (.refl w)
    · rename_i hnone
      have hid := idAt_of_live hlive
      refine .created ?_ rfl ?_ ⟨fun q => idAt_setEntries .., fun q m => ?_⟩
      · rw [entry_of_live hlive]
        simpa using hnone
      · simp [newInode, setEntries]
      · exact entry_insert (w := (w.newInode h 1).2) (show (w.idAt d.path).isSome from hid ▸ rfl)

theorem link_edit (form : LinkForm) (i : Ino) (d : Dir) (n : Name) :
    Edit w (w.link i d n).2 (.linkat form i d n) (w.link i d n).1 := by
  unfold link
  split
  · exact .still (.refl w)
  · exact .still (.refl w)
  · rename_i inode node hi hlive
    split
    · exact .still (.refl w)
    · rename_i hnone
      have hid := idAt_of_live hlive
      refine .linked ?_ (hi ▸ rfl) ⟨fun q => idAt_setEntries .., fun q m => ?_⟩
      · rw [entry_of_live hlive]
        simpa using hnone
      · exact entry_insert (show (w.idAt d.path).isSome from hid ▸ rfl)

theorem moves_moveEntry {d d' : Dir} {n n' : Name} {i : Ino} {node : DirNode}
    (hs : w.lookup d n = some (.file i)) (hd : w.live d' = some node) :
    Moves w (w.moveEntry d n d' n' i) d n d' n' i := by
  have hid := idAt_of_live hd
  refine ⟨hs, hid, fun q => ?_, fun q m => ?_⟩
  · simp [moveEntry]
  · rw [moveEntry, entry_insert (by simp [hid]), entry_erase]

theorem renameNoreplace_edit (d : Dir) (n : Name) (d' : Dir) (n' : Name) :
    Edit w (w.renameNoreplace d n d' n').2 (.renameNoreplace d n d' n')
      (w.renameNoreplace d n d' n').1 := by
  unfold renameNoreplace
  split
  · exact .still (.refl w)
  · exact .still (.refl w)
  · exact .still (.refl w)
  · rename_i i node hs hd
    split
    · exact .still (.refl w)
    · rename_i hnone
      refine .moved ?_ (moves_moveEntry hs hd)
      rw [entry_of_live hd]
      simpa using hnone

theorem rename_edit (d : Dir) (n : Name) (d' : Dir) (n' : Name) :
    Edit w (w.rename d n d' n').2 (.renameat d n d' n') (w.rename d n d' n').1 := by
  unfold rename
  split
  · exact .still (.refl w)
  · exact .still (.refl w)
  · exact .still (.refl w)
  · rename_i i node hs hd
    have hentry := entry_of_live hd n'
    split
    · exact .still (.refl w)
    · rename_i j hj
      split
      · exact .still (.refl w)
      · rename_i hne
        have h : Moves w (w.moveEntry d n d' n' i) d n d' n' i := moves_moveEntry hs hd
        refine .replaced ?_ ⟨h.source, h.target, h.ids, h.entries⟩
        rw [hentry, hj]
        rintro _ ⟨⟩
        exact ⟨j, rfl, Ne.symm hne⟩
    · rename_i hnone
      refine .replaced ?_ (moves_moveEntry hs hd)
      rw [hentry, hnone]
      rintro _ ⟨⟩

/-- **A call makes one of the edits.** -/
theorem apply_edit {h : HandleId} {a : Act} {c : Choice} {r : a.Resp}
    (ha : w.apply h a c = some (r, w')) : Edit w w' a r := by
  have pair {x : a.Resp × World} (hx : some x = some (r, w')) (he : Edit w x.2 a x.1) :
      Edit w w' a r := by
    cases hx
    exact he
  unfold apply at ha
  split at ha
  · obtain ⟨_, -, h⟩ := Option.map_eq_some_iff.mp ha
    cases h
    exact .still (.refl w)
  · split at ha
    · cases ha
    · exact pair ha (.still ⟨fun _ => rfl, fun _ _ => rfl⟩)
  · split at ha
    · exact pair ha (.still (.refl w))
    · exact pair ha (.still ⟨fun _ => rfl, fun _ _ => rfl⟩)
  · exact pair ha (.still ⟨fun _ => rfl, fun _ _ => rfl⟩)
  · exact pair ha (mkdir_edit ..)
  · exact pair ha (rmdir_edit ..)
  · exact pair ha (unlink_edit ..)
  · split at ha
    · exact pair ha (.still ⟨fun _ => rfl, fun _ _ => rfl⟩)
    · exact pair ha (.still (.refl w))
  · exact pair ha (create_edit ..)
  · exact pair ha (.still ⟨fun _ => rfl, fun _ _ => rfl⟩)
  · exact pair ha (.still ⟨fun _ => rfl, fun _ _ => rfl⟩)
  · exact pair ha (.still ⟨fun _ => rfl, fun _ _ => rfl⟩)
  · split at ha
    · exact pair ha (.still ⟨fun _ => rfl, fun _ _ => rfl⟩)
    · exact pair ha (.still (.refl w))
  · exact pair ha (link_edit ..)
  · exact pair ha (renameNoreplace_edit ..)
  · exact pair ha (rename_edit ..)
  · exact pair ha (.still (.refl w))
  · cases ha

/-! ## 4. Files -/

/-- What a call leaves of the files: none is lost, only a written one changes its content, and a
    new one has the next number. -/
structure Frame (w w' : World) (a : Act) : Prop where
  next : w.nextId ≤ w'.nextId
  kept : ∀ i x, w.inodes i = some x → i < w.nextId → ∃ y, w'.inodes i = some y ∧
    y.owner = x.owner ∧ (¬ a.writes i → y.data = x.data)
  fresh : ∀ i, (w'.inodes i).isSome → (w.inodes i).isSome ∨ w.nextId ≤ i ∧ i < w'.nextId

theorem Frame.of_eq {a : Act} (hi : w'.inodes = w.inodes) (hn : w.nextId ≤ w'.nextId) :
    Frame w w' a :=
  ⟨hn, fun _ x hx _ => ⟨x, hi ▸ hx, rfl, fun _ => rfl⟩, fun _ h => .inl (hi ▸ h)⟩

/-- One file is changed. -/
theorem Frame.setInode {a : Act} {i : Ino} {f : Inode → Inode} (hw : w'.inodes = w.inodes)
    (hn : w'.nextId = w.nextId) (howner : ∀ x, (f x).owner = x.owner)
    (hdata : ¬ a.writes i → ∀ x, (f x).data = x.data) : Frame w (w'.setInode i f) a := by
  refine ⟨hn.ge, fun j x hx _ => ?_, fun j hj => .inl ?_⟩
  · by_cases hji : j = i
    · subst hji
      exact ⟨f x, by simp [World.setInode, hw, hx], howner x, fun h => hdata h x⟩
    · exact ⟨x, by simp [World.setInode, hji, hw, hx], rfl, fun _ => rfl⟩
  · by_cases hji : j = i
    · subst hji
      simpa [World.setInode, hw] using hj
    · simpa [World.setInode, hji, hw] using hj

/-- A new file takes the next number. -/
theorem Frame.newInode {a : Act} (w : World) (h : HandleId) (k : Nat) :
    Frame w (w.newInode h k).2 a := by
  refine ⟨Nat.le_succ _, fun i x hx hi => ?_, fun i hi => ?_⟩
  · exact ⟨x, by simp [World.newInode, hx, Nat.ne_of_lt hi], rfl, fun _ => rfl⟩
  · by_cases hnew : i = w.nextId
    · exact .inr ⟨hnew.ge, hnew ▸ Nat.lt_succ_self _⟩
    · simp only [World.newInode, if_neg hnew] at hi
      exact .inl hi

theorem Frame.refl (w : World) (a : Act) : Frame w w a := .of_eq rfl le_rfl

theorem rename_frame (d : Dir) (n : Name) (d' : Dir) (n' : Name) (a : Act) :
    Frame w (w.rename d n d' n').2 a := by
  unfold rename
  split
  · exact .refl w a
  · exact .refl w a
  · exact .refl w a
  · split
    · exact .refl w a
    · split
      · exact .refl w a
      · exact .setInode rfl rfl (fun _ => rfl) fun _ _ => rfl
    · exact .of_eq rfl le_rfl

/-- **What a call leaves of the files.** -/
theorem apply_frame {h : HandleId} {a : Act} {c : Choice} {r : a.Resp}
    (ha : w.apply h a c = some (r, w')) : Frame w w' a := by
  have pair {x : a.Resp × World} (hx : some x = some (r, w')) (he : Frame w x.2 a) :
      Frame w w' a := by
    cases hx
    exact he
  unfold apply at ha
  split at ha
  · obtain ⟨_, -, h⟩ := Option.map_eq_some_iff.mp ha
    cases h
    exact .refl w _
  · split at ha
    · cases ha
    · exact pair ha (.of_eq rfl le_rfl)
  · split at ha
    · exact pair ha (.refl w _)
    · exact pair ha (.of_eq rfl le_rfl)
  · exact pair ha (.of_eq rfl le_rfl)
  · refine pair ha ?_
    unfold mkdir
    split
    · exact .refl w _
    · split
      · exact .refl w _
      · exact .of_eq rfl (Nat.le_succ _)
  · refine pair ha ?_
    unfold rmdir
    split
    · exact .refl w _
    · exact .refl w _
    · split
      · exact .refl w _
      · split
        · exact .of_eq rfl le_rfl
        · exact .refl w _
  · refine pair ha ?_
    unfold unlink
    split
    · exact .refl w _
    · exact .refl w _
    · exact .setInode rfl rfl (fun _ => rfl) fun _ _ => rfl
  · split at ha
    · exact pair ha (.newInode w h 0)
    · exact pair ha (.refl w _)
  · refine pair ha ?_
    unfold create
    split
    · exact .refl w _
    · split
      · exact .refl w _
      · have h := Frame.newInode (a := .createExclusive ‹Dir› ‹Name›) w h 1
        exact ⟨h.next, h.kept, h.fresh⟩
  · refine pair ha (.setInode rfl rfl (fun _ => rfl) ?_)
    simp [Act.writes]
  · refine pair ha (.setInode rfl rfl (fun _ => rfl) ?_)
    simp [Act.writes]
  · exact pair ha (.setInode rfl rfl (fun _ => rfl) fun _ _ => rfl)
  · split at ha
    · exact pair ha (.of_eq rfl le_rfl)
    · exact pair ha (.refl w _)
  · refine pair ha ?_
    unfold link
    split
    · exact .refl w _
    · exact .refl w _
    · split
      · exact .refl w _
      · exact .setInode rfl rfl (fun _ => rfl) fun _ _ => rfl
  · refine pair ha ?_
    unfold renameNoreplace
    split
    · exact .refl w _
    · exact .refl w _
    · exact .refl w _
    · split
      · exact .refl w _
      · exact .of_eq rfl le_rfl
  · exact pair ha (rename_frame ..)
  · exact pair ha (.refl w _)
  · cases ha

/-! ## 5. The tree -/

/-- Directories are where their parents' entries say, the files that are entered exist, and
    numbers are given once. -/
structure Tree (w : World) : Prop where
  root : w.idAt [] = some rootDir.id
  nested : ∀ p n id, w.entry p n = some (.dir id) ↔ w.idAt (p ++ [n]) = some id
  files : ∀ p n i, w.entry p n = some (.file i) → (w.inodes i).isSome
  inodes : ∀ i, (w.inodes i).isSome → i < w.nextId
  ids : ∀ p id, w.idAt p = some id → id < w.nextId
  distinct : ∀ p q id, w.idAt p = some id → w.idAt q = some id → p = q

/-- The numbers of directories and of files are apart. -/
def Apart (w : World) : Prop := ∀ p n id, w.entry p n = some (.dir id) → w.inodes id = none

/-- A file with one name is found under that name only. -/
def Single (w : World) : Prop := ∀ i node p n q m, w.inodes i = some node → node.nlink = 1 →
  w.entry p n = some (.file i) → w.entry q m = some (.file i) → p = q ∧ n = m

namespace Tree

/-- Nothing is entered, so no directory is there. -/
theorem idAt_eq_none (ht : Tree w) {p : Path} {n : Name} (h : w.entry p n = none) :
    w.idAt (p ++ [n]) = none := by
  cases hid : w.idAt (p ++ [n]) with
  | none => rfl
  | some id =>
    rw [(ht.nested p n id).mpr hid] at h
    cases h

end Tree

theorem append_singleton_inj {p q : Path} {n m : Name} : p ++ [n] = q ++ [m] ↔ p = q ∧ n = m :=
  ⟨fun h => by simpa using h, fun ⟨hp, hn⟩ => hp ▸ hn ▸ rfl⟩

theorem ne_append_singleton (p : Path) (n : Name) : p ≠ p ++ [n] := by
  intro h
  have := congrArg List.length h
  simp at this

/-- **A directory keeps its identity until it is removed.** -/
theorem Edit.keeps_id {a : Act} {r : a.Resp} (he : Edit w w' a r) (ht : Tree w) {p : Path}
    {id : DirId} (hp : w.idAt p = some id) : w'.idAt p = some id ∨
      ∃ d n, (⟨a, r⟩ : Σ a, Act.Resp a) = ⟨.unlinkatDir d n, .ok ()⟩ ∧ p = d.path ++ [n] ∧
        w'.idAt p = none := by
  cases he with
  | still h => exact .inl ((h.ids p).trans hp)
  | made hd hn _ ids _ =>
    refine .inl ?_
    rw [ids, if_neg, hp]
    rintro rfl
    rw [ht.idAt_eq_none hn] at hp
    cases hp
  | @removed d n _ hn _ ids _ =>
    by_cases h : p = d.path ++ [n]
    · exact .inr ⟨d, n, rfl, h, by rw [ids, if_pos h]⟩
    · exact .inl (by rw [ids, if_neg h, hp])
  | dropped _ h => exact .inl ((h.ids p).trans hp)
  | created _ _ _ h => exact .inl ((h.ids p).trans hp)
  | linked _ _ h => exact .inl ((h.ids p).trans hp)
  | moved _ h => exact .inl ((h.ids p).trans hp)
  | replaced _ h => exact .inl ((h.ids p).trans hp)

theorem Frame.isSome {a : Act} (hf : Frame w w' a) (ht : Tree w) {i : Ino}
    (h : (w.inodes i).isSome) : (w'.inodes i).isSome := by
  obtain ⟨x, hx⟩ := Option.isSome_iff_exists.mp h
  obtain ⟨y, hy, -⟩ := hf.kept i x hx (ht.inodes i h)
  rw [hy]
  rfl

theorem Frame.inodes_lt {a : Act} (hf : Frame w w' a) (ht : Tree w) (i : Ino)
    (hi : (w'.inodes i).isSome) : i < w'.nextId := by
  rcases hf.fresh i hi with h | h
  · exact lt_of_lt_of_le (ht.inodes i h) hf.next
  · exact h.2

/-- A tree whose directories are left alone, with new entries for files only. -/
theorem Tree.refile {a : Act} (ht : Tree w) (hf : Frame w w' a) (hids : ∀ p, w'.idAt p = w.idAt p)
    (hdirs : ∀ p n id, w'.entry p n = some (.dir id) ↔ w.entry p n = some (.dir id))
    (hfiles : ∀ p n i, w'.entry p n = some (.file i) → (w'.inodes i).isSome) : Tree w' where
  root := (hids _).trans ht.root
  nested p n id := by rw [hdirs, hids, ht.nested]
  files := hfiles
  inodes := hf.inodes_lt ht
  ids p id h := lt_of_lt_of_le (ht.ids p id (hids p ▸ h)) hf.next
  distinct p q id hp hq := ht.distinct p q id (hids p ▸ hp) (hids q ▸ hq)

/-- One entry that is not a directory is set. -/
theorem Tree.sets {a : Act} (ht : Tree w) (hf : Frame w w' a) {p : Path} {n : Name}
    {x : Option Ino} (h : Sets w w' p n x) (hold : ∀ id, w.entry p n ≠ some (.dir id))
    (hx : ∀ i, x = some i → (w'.inodes i).isSome) : Tree w' := by
  refine ht.refile hf h.ids (fun q m id => ?_) fun q m i hi => ?_
  · rw [h.entries]
    by_cases hq : q = p ∧ m = n
    · rw [if_pos hq, hq.1, hq.2]
      refine ⟨fun h => ?_, fun h => absurd h (hold id)⟩
      cases x <;> cases h
    · rw [if_neg hq]
  · rw [h.entries] at hi
    by_cases hq : q = p ∧ m = n
    · rw [if_pos hq] at hi
      cases x with
      | none => cases hi
      | some j =>
        cases hi
        exact hx i rfl
    · rw [if_neg hq] at hi
      exact hf.isSome ht (ht.files q m i hi)

/-- A file changes its entry. -/
theorem Tree.moves {a : Act} (ht : Tree w) (hf : Frame w w' a) {d d' : Dir} {n n' : Name} {i : Ino}
    (h : Moves w w' d n d' n' i) (hold : ∀ id, w.entry d'.path n' ≠ some (.dir id)) : Tree w' := by
  have hsource := (lookup_eq_some.mp h.source).2
  refine ht.refile hf h.ids (fun q m id => ?_) fun q m j hj => ?_
  · rw [h.entries]
    by_cases hq' : q = d'.path ∧ m = n'
    · rw [if_pos hq', hq'.1, hq'.2]
      exact ⟨nofun, fun h => absurd h (hold id)⟩
    · rw [if_neg hq']
      by_cases hq : q = d.path ∧ m = n
      · rw [if_pos hq, hq.1, hq.2, hsource]
        exact ⟨nofun, nofun⟩
      · rw [if_neg hq]
  · rw [h.entries] at hj
    by_cases hq' : q = d'.path ∧ m = n'
    · rw [if_pos hq'] at hj
      cases hj
      exact hf.isSome ht (ht.files _ _ _ hsource)
    · rw [if_neg hq'] at hj
      by_cases hq : q = d.path ∧ m = n
      · rw [if_pos hq] at hj
        cases hj
      · rw [if_neg hq] at hj
        exact hf.isSome ht (ht.files q m j hj)

/-- A child of the directory `p ++ [n]` has another path. -/
theorem child_ne {p q : Path} {n m : Name} (hq : q = p ++ [n]) : q ++ [m] ≠ p ++ [n] := fun h =>
  ne_append_singleton p n ((append_singleton_inj.mp h).1.symm.trans hq)

/-- A directory is made where nothing was. -/
theorem Tree.made {a : Act} (ht : Tree w) (hf : Frame w w' a) {d : Path} {n : Name}
    (hn : w.entry d n = none) (next : w'.nextId = w.nextId + 1)
    (ids : ∀ p, w'.idAt p = if p = d ++ [n] then some w.nextId else w.idAt p)
    (entries : ∀ p m, w'.entry p m = if p = d ++ [n] then none
      else if p = d ∧ m = n then some (.dir w.nextId) else w.entry p m) : Tree w' where
  root := by rw [ids, if_neg (by simp), ht.root]
  nested p m id := by
    rw [entries, ids]
    by_cases hp : p = d ++ [n]
    · rw [if_pos hp, if_neg (child_ne hp), ← ht.nested, hp, entry_of_idAt (ht.idAt_eq_none hn)]
    · by_cases hm : p = d ∧ m = n
      · rw [if_neg hp, if_pos hm, if_pos (append_singleton_inj.mpr hm)]
        simp
      · rw [if_neg hp, if_neg hm, if_neg fun h => hm (append_singleton_inj.mp h), ht.nested]
  files p m i hi := by
    rw [entries] at hi
    split at hi
    · cases hi
    · split at hi
      · cases hi
      · exact hf.isSome ht (ht.files p m i hi)
  inodes := hf.inodes_lt ht
  ids p id hp := by
    rw [ids] at hp
    split at hp
    · cases hp
      rw [next]
      exact Nat.lt_succ_self _
    · exact lt_of_lt_of_le (ht.ids p id hp) hf.next
  distinct p q id hp hq := by
    rw [ids] at hp hq
    split at hp <;> split at hq
    · rw [‹p = _›, ‹q = _›]
    · cases hp
      exact absurd (ht.ids q _ hq) (lt_irrefl _)
    · cases hq
      exact absurd (ht.ids p _ hp) (lt_irrefl _)
    · exact ht.distinct p q id hp hq

/-- An empty directory is removed. -/
theorem Tree.removed {a : Act} (ht : Tree w) (hf : Frame w w' a) {d : Path} {n : Name}
    (empty : ∀ m, w.entry (d ++ [n]) m = none)
    (ids : ∀ p, w'.idAt p = if p = d ++ [n] then none else w.idAt p)
    (entries : ∀ p m, w'.entry p m = if p = d ++ [n] then none
      else if p = d ∧ m = n then none else w.entry p m) : Tree w' where
  root := by rw [ids, if_neg (by simp), ht.root]
  nested p m id := by
    rw [entries, ids]
    by_cases hp : p = d ++ [n]
    · rw [if_pos hp, if_neg (child_ne hp), ← ht.nested, hp, empty]
    · by_cases hm : p = d ∧ m = n
      · rw [if_neg hp, if_pos hm, if_pos (append_singleton_inj.mpr hm)]
        exact ⟨nofun, nofun⟩
      · rw [if_neg hp, if_neg hm, if_neg fun h => hm (append_singleton_inj.mp h), ht.nested]
  files p m i hi := by
    rw [entries] at hi
    split at hi
    · cases hi
    · split at hi
      · cases hi
      · exact hf.isSome ht (ht.files p m i hi)
  inodes := hf.inodes_lt ht
  ids p id hp := by
    rw [ids] at hp
    split at hp
    · cases hp
    · exact lt_of_lt_of_le (ht.ids p id hp) hf.next
  distinct p q id hp hq := by
    rw [ids] at hp hq
    split at hp
    · cases hp
    · split at hq
      · cases hq
      · exact ht.distinct p q id hp hq

/-- **Every call keeps the tree.** -/
theorem Tree.edit {a : Act} {r : a.Resp} (ht : Tree w) (hf : Frame w w' a) (he : Edit w w' a r) :
    Tree w' := by
  cases he with
  | still h =>
    refine ht.refile hf h.ids (fun p n id => by rw [h.entries]) fun p n i hi => ?_
    exact hf.isSome ht (ht.files p n i (h.entries p n ▸ hi))
  | dropped hn h => exact ht.sets hf h (by rw [(lookup_eq_some.mp hn).2]; nofun) nofun
  | created hn _ hnew h => exact ht.sets hf h (by rw [hn]; nofun) (by rintro _ ⟨⟩; exact hnew)
  | linked hn hi h =>
    exact ht.sets hf h (by rw [hn]; nofun) (by rintro _ ⟨⟩; exact hf.isSome ht hi)
  | moved hn h => exact ht.moves hf h (by rw [hn]; nofun)
  | replaced hn h =>
    refine ht.moves hf h fun id hid => ?_
    obtain ⟨_, h, -⟩ := hn _ hid
    cases h
  | made _ hn next ids entries => exact ht.made hf hn next ids entries
  | removed _ empty ids entries => exact ht.removed hf empty ids entries

/-- Every call, failing or not, keeps the tree. -/
theorem Tree.step {h : HandleId} {a : Act} {c : Choice} {r : a.Resp} (ht : Tree w)
    (hs : w.step h a c = some (r, w')) : Tree w' := by
  unfold World.step at hs
  split at hs
  · obtain ⟨_, -, h⟩ := Option.map_eq_some_iff.mp hs
    cases h
    exact ht
  · exact ht.edit (apply_frame hs) (apply_edit hs)

end World

end SteadQ
