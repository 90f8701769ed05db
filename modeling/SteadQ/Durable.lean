/-
  File:      SteadQ/Durable.lean
  Subject:   POWER LOSS, and what a stabilized resolution is worth.

  Of a directory the entries of its last `fsync` survive, of a file the data of its last `fsync`.
  A job that rests at its destination is safe when the file and every directory above it are
  recorded; the source may have been recorded too, before the rename.
-/
import Mathlib.Logic.Relation
import SteadQ.Resolution
import SteadQ.Tickets

namespace SteadQ

open Octet Interact

/-! ## 1. Power loss -/

namespace World

/-- The directory the recorded entries lead to. -/
def durableId (w : World) (p : Path) : Option DirId :=
  p.foldl (fun id n => id.bind fun k =>
    match (w.syncedDirs k).lookup n with
    | some (.dir m) => some m
    | _ => none) (some rootDir.id)

def powerLoss (w : World) : World where
  dirs := fun p => (w.durableId p).map fun k => ⟨k, w.syncedDirs k⟩
  inodes := fun i => (w.inodes i).bind fun n => n.synced.map fun b => { n with data := b }
  syncedDirs := w.syncedDirs
  nextId := w.nextId
  locks := fun _ => none
  drawn := w.drawn

variable {w w' : World}

@[simp] theorem durableId_nil : w.durableId [] = some rootDir.id := rfl

theorem durableId_concat (p : Path) (n : Name) : w.durableId (p ++ [n]) =
    (w.durableId p).bind fun k =>
      match (w.syncedDirs k).lookup n with
      | some (.dir m) => some m
      | _ => none := by
  rw [durableId, List.foldl_append]
  rfl

theorem entry_powerLoss (p : Path) (n : Name) :
    w.powerLoss.entry p n = (w.durableId p).bind fun k => (w.syncedDirs k).lookup n := by
  show ((w.durableId p).map fun k => (⟨k, w.syncedDirs k⟩ : DirNode)).bind _ = _
  cases w.durableId p <;> rfl

/-- What a call records: nothing, the entries of the directory it syncs, or that a new directory
    is empty; of a file nothing, or the data it has. -/
structure Records (w w' : World) : Prop where
  dirs : ∀ k, w'.syncedDirs k = w.syncedDirs k ∨
    (∃ d node, w.live d = some node ∧ d.id = k ∧ w'.syncedDirs k = node.entries) ∨
    k = w.nextId ∧ w'.syncedDirs k = ∅
  files : ∀ i x, i < w.nextId → w.inodes i = some x →
    ∃ y, w'.inodes i = some y ∧ (y.synced = x.synced ∨ y.synced = some x.data)

theorem Records.of_eq (hd : w'.syncedDirs = w.syncedDirs) (hi : w'.inodes = w.inodes) :
    Records w w' :=
  ⟨fun _ => .inl (by rw [hd]), fun _ x _ hx => ⟨x, hi ▸ hx, .inl rfl⟩⟩

theorem Records.refl (w : World) : Records w w := .of_eq rfl rfl

theorem Records.setInode {i : Ino} {f : Inode → Inode} (hd : w'.syncedDirs = w.syncedDirs)
    (hi : w'.inodes = w.inodes) (hf : ∀ x, (f x).synced = x.synced ∨ (f x).synced = some x.data) :
    Records w (w'.setInode i f) := by
  refine ⟨fun _ => .inl (by rw [← hd]; rfl), fun j x _ hx => ?_⟩
  by_cases hj : j = i
  · exact ⟨f x, by simp [World.setInode, hj ▸ hi ▸ hx, hj], hf x⟩
  · exact ⟨x, by simp [World.setInode, hj, hi, hx], .inl rfl⟩

theorem Records.newInode (w : World) (h : HandleId) (k : Nat) : Records w (w.newInode h k).2 :=
  ⟨fun _ => .inl rfl, fun i x hi hx =>
    ⟨x, by simp [World.newInode, hx, Nat.ne_of_lt hi], .inl rfl⟩⟩

theorem mkdir_records (d : Dir) (n : Name) : Records w (w.mkdir d n).2 := by
  unfold mkdir
  split
  · exact .refl w
  · split
    · exact .refl w
    · refine ⟨fun k => ?_, fun i x _ hx => ⟨x, hx, .inl rfl⟩⟩
      by_cases hk : k = w.nextId
      · exact .inr (.inr ⟨hk, if_pos hk⟩)
      · exact .inl (if_neg hk)

theorem rename_records (d : Dir) (n : Name) (d' : Dir) (n' : Name) :
    Records w (w.rename d n d' n').2 := by
  unfold rename
  split
  · exact .refl w
  · exact .refl w
  · exact .refl w
  · split
    · exact .refl w
    · split
      · exact .refl w
      · exact .setInode rfl rfl fun _ => .inl rfl
    · exact .of_eq rfl rfl

theorem apply_records {h : HandleId} {a : Act} {c : Choice} {r : a.Resp}
    (ha : w.apply h a c = some (r, w')) : Records w w' := by
  have pair {x : a.Resp × World} (hx : some x = some (r, w')) (he : Records w x.2) :
      Records w w' := by
    cases hx
    exact he
  unfold apply at ha
  split at ha
  · obtain ⟨_, -, h⟩ := Option.map_eq_some_iff.mp ha
    cases h
    exact .refl w
  · split at ha
    · cases ha
    · exact pair ha (.of_eq rfl rfl)
  · split at ha
    · exact pair ha (.refl w)
    · exact pair ha (.of_eq rfl rfl)
  · exact pair ha (.of_eq rfl rfl)
  · exact pair ha (mkdir_records ..)
  · refine pair ha ?_
    unfold rmdir
    split
    · exact .refl w
    · exact .refl w
    · split
      · exact .refl w
      · split
        · exact .of_eq rfl rfl
        · exact .refl w
  · refine pair ha ?_
    unfold unlink
    split
    · exact .refl w
    · exact .refl w
    · exact .setInode rfl rfl fun _ => .inl rfl
  · split at ha
    · exact pair ha (.newInode w h 0)
    · exact pair ha (.refl w)
  · refine pair ha ?_
    unfold create
    split
    · exact .refl w
    · split
      · exact .refl w
      · have hnew := Records.newInode w h 1
        exact ⟨hnew.dirs, hnew.files⟩
  · exact pair ha (.setInode rfl rfl fun _ => .inl rfl)
  · exact pair ha (.setInode rfl rfl fun _ => .inl rfl)
  · exact pair ha (.setInode rfl rfl fun _ => .inr rfl)
  · split at ha
    · rename_i d _ node hlive
      refine pair ha ⟨fun k => ?_, fun i x _ hx => ⟨x, hx, .inl rfl⟩⟩
      by_cases hk : k = d.id
      · exact .inr (.inl ⟨d, node, hlive, hk.symm, if_pos hk⟩)
      · exact .inl (if_neg hk)
    · exact pair ha (.refl w)
  · refine pair ha ?_
    unfold link
    split
    · exact .refl w
    · exact .refl w
    · split
      · exact .refl w
      · exact .setInode rfl rfl fun _ => .inl rfl
  · refine pair ha ?_
    unfold renameNoreplace
    split
    · exact .refl w
    · exact .refl w
    · exact .refl w
    · split
      · exact .refl w
      · exact .of_eq rfl rfl
  · exact pair ha (rename_records ..)
  · exact pair ha (.refl w)
  · cases ha

end World

/-! ## 2. A file that stays where it is -/

/-- File `i` has this data and one name, `n` in `p`. -/
structure Rests (i : Ino) (data : Bytes) (p : Path) (n : Name) (w : World) : Prop where
  entry : w.entry p n = some (.file i)
  only : ∀ q m, w.entry q m = some (.file i) → q = p ∧ m = n
  data : ∃ node, w.inodes i = some node ∧ node.data = data

/-- One call of anybody, failing or not, or the end of a process; the file stays. -/
def RestingStep (i : Ino) (data : Bytes) (p : Path) (n : Name) (w w' : World) : Prop :=
  ((∃ t a c r, w.step t a c = some (r, w')) ∨ ∃ t, w' = w.release t) ∧ Rests i data p n w'

/-- Any number of them. -/
abbrev Resting (i : Ino) (data : Bytes) (p : Path) (n : Name) : World → World → Prop :=
  Relation.ReflTransGen (RestingStep i data p n)

/-- Every directory on the way to `p` is recorded in the one above it, and no directory but the
    one at `p` has recorded file `i`. -/
structure Anchored (i : Ino) (p : Path) (w : World) : Prop where
  way : ∀ q, q <+: p → w.durableId q = w.idAt q
  elsewhere : ∀ k m, w.idAt p ≠ some k → (w.syncedDirs k).lookup m ≠ some (.file i)

/-- The directory at `p` has recorded file `i` under `n` only. -/
def NameRecorded (i : Ino) (p : Path) (n : Name) (w : World) : Prop :=
  ∀ k m, w.idAt p = some k → ((w.syncedDirs k).lookup m = some (.file i) ↔ m = n)

def DataRecorded (i : Ino) (data : Bytes) (w : World) : Prop :=
  ∀ node, w.inodes i = some node → node.synced = some data

section Resting

variable {i : Ino} {data : Bytes} {p : Path} {n : Name} {w w' w'' : World}

theorem RestingStep.records (h : RestingStep i data p n w w') : w.Records w' := by
  obtain ⟨⟨t, a, c, r, hs⟩ | ⟨t, rfl⟩, -⟩ := h
  · unfold World.step at hs
    split at hs
    · obtain ⟨_, -, hw⟩ := Option.map_eq_some_iff.mp hs
      cases hw
      exact .refl w
    · exact World.apply_records hs
  · exact .of_eq rfl rfl

theorem RestingStep.tree (h : RestingStep i data p n w w') (ht : w.Tree) : w'.Tree := by
  obtain ⟨⟨t, a, c, r, hs⟩ | ⟨t, rfl⟩, -⟩ := h
  · exact ht.step hs
  · exact ⟨ht.root, ht.nested, ht.files, ht.inodes, ht.ids, ht.distinct⟩

/-- Every directory above one that is there is there. -/
theorem idAt_above (ht : w.Tree) {q : Path} (hq : q <+: p) (hp : (w.idAt p).isSome) :
    (w.idAt q).isSome := by
  obtain ⟨rest, rfl⟩ := hq
  induction rest using List.reverseRecOn with
  | nil => rwa [List.append_nil] at hp
  | append_singleton rest c ih =>
    refine ih ?_
    rw [← List.append_assoc] at hp
    obtain ⟨id, hid⟩ := Option.isSome_iff_exists.mp hp
    have hentry := (ht.nested _ _ _).mpr hid
    rw [World.entry] at hentry
    obtain ⟨node, hnode, -⟩ := Option.bind_eq_some_iff.mp hentry
    rw [World.idAt, hnode]
    rfl

theorem Rests.parent (hr : Rests i data p n w) : (w.idAt p).isSome := by
  have hentry := hr.entry
  rw [World.entry] at hentry
  obtain ⟨node, hnode, -⟩ := Option.bind_eq_some_iff.mp hentry
  rw [World.idAt, hnode]
  rfl

/-- The directories above a file that stays are not removed. -/
theorem RestingStep.keeps_way (h : RestingStep i data p n w w') (ht : w.Tree)
    (hr : Rests i data p n w) {q : Path} (hq : q <+: p) : w'.idAt q = w.idAt q := by
  have hthere := idAt_above (h.tree ht) hq h.2.parent
  obtain ⟨id, hid⟩ := Option.isSome_iff_exists.mp (idAt_above ht hq hr.parent)
  obtain ⟨⟨t, a, c, r, hs⟩ | ⟨t, rfl⟩, -⟩ := h
  · unfold World.step at hs
    split at hs
    · obtain ⟨_, -, hw⟩ := Option.map_eq_some_iff.mp hs
      cases hw
      rfl
    · rcases (World.apply_edit hs).keeps_id ht hid with hkept | ⟨d, m, -, -, hgone⟩
      · rw [hkept, hid]
      · rw [hgone] at hthere
        cases hthere
  · rfl

/-- A recorded entry of a directory stays recorded as long as it stays. -/
theorem RestingStep.keeps_record (h : RestingStep i data p n w w') (ht : w.Tree) {q : Path}
    {k : DirId} {m : Name} {x : Node} (hid : w.idAt q = some k)
    (hrecord : (w.syncedDirs k).lookup m = some x) (hentry : w.entry q m = some x) :
    (w'.syncedDirs k).lookup m = some x := by
  rcases h.records.dirs k with hsame | ⟨d, node, hlive, rfl, hsynced⟩ | ⟨rfl, -⟩
  · rw [hsame, hrecord]
  · obtain rfl := ht.distinct d.path q d.id (World.idAt_of_live hlive) hid
    rw [hsynced, ← World.entry_of_live hlive, hentry]
  · exact absurd (ht.ids q _ hid) (lt_irrefl _)

theorem Anchored.step (ha : Anchored i p w) (ht : w.Tree) (hr : Rests i data p n w)
    (h : RestingStep i data p n w w') : Anchored i p w' := by
  constructor
  · intro q
    induction q using List.reverseRecOn with
    | nil => exact fun _ => (h.tree ht).root.symm
    | append_singleton q c ih =>
      intro hqc
      have hq : q <+: p := (List.prefix_append q [c]).trans hqc
      obtain ⟨k, hk⟩ := Option.isSome_iff_exists.mp (idAt_above ht hq hr.parent)
      obtain ⟨id, hid⟩ := Option.isSome_iff_exists.mp (idAt_above ht hqc hr.parent)
      have hrecord : (w.syncedDirs k).lookup c = some (.dir id) := by
        have hway := ha.way _ hqc
        rw [World.durableId_concat, ha.way q hq, hk, hid, Option.bind_some] at hway
        split at hway
        · rename_i m hm
          rw [hm, Option.some.inj hway]
        · cases hway
      rw [World.durableId_concat, ih hq, h.keeps_way ht hr hq, h.keeps_way ht hr hqc, hk, hid,
        Option.bind_some, h.keeps_record ht hk hrecord ((ht.nested q c id).mpr hid)]
  · intro k m hk hlookup
    rw [h.keeps_way ht hr (List.prefix_refl p)] at hk
    rcases h.records.dirs k with hsame | ⟨d, node, hlive, rfl, hsynced⟩ | ⟨-, hnew⟩
    · exact ha.elsewhere k m hk (hsame ▸ hlookup)
    · rw [hsynced, ← World.entry_of_live hlive] at hlookup
      obtain ⟨rfl, -⟩ := hr.only _ _ hlookup
      exact hk (World.idAt_of_live hlive)
    · rw [hnew] at hlookup
      cases hlookup

theorem NameRecorded.step (hc : NameRecorded i p n w) (ht : w.Tree) (hr : Rests i data p n w)
    (h : RestingStep i data p n w w') : NameRecorded i p n w' := by
  intro k m hk
  rw [h.keeps_way ht hr (List.prefix_refl p)] at hk
  rcases h.records.dirs k with hsame | ⟨d, node, hlive, rfl, hsynced⟩ | ⟨rfl, -⟩
  · rw [hsame]
    exact hc k m hk
  · obtain rfl := ht.distinct d.path p d.id (World.idAt_of_live hlive) hk
    rw [hsynced, ← World.entry_of_live hlive]
    exact ⟨fun hm => (hr.only _ _ hm).2, fun hm => hm ▸ hr.entry⟩
  · exact absurd (ht.ids p _ hk) (lt_irrefl _)

theorem DataRecorded.step (hc : DataRecorded i data w) (ht : w.Tree) (hr : Rests i data p n w)
    (h : RestingStep i data p n w w') : DataRecorded i data w' := by
  intro node hnode
  obtain ⟨x, hx, hdata⟩ := hr.data
  obtain ⟨y, hy, hsynced⟩ := h.records.files i x (ht.inodes i (hx ▸ rfl)) hx
  obtain rfl := Option.some.inj (hnode.symm.trans hy)
  rcases hsynced with hsame | hnew
  · rw [hsame, hc x hx]
  · rw [hnew, hdata]

/-- What every step keeps holds in the end. -/
theorem Resting.keeps {I : World → Prop} (h : Resting i data p n w w') (ht : w.Tree)
    (hr : Rests i data p n w) (hi : I w)
    (hstep : ∀ u v, u.Tree → Rests i data p n u → RestingStep i data p n u v → I u → I v) :
    w'.Tree ∧ Rests i data p n w' ∧ I w' := by
  induction h with
  | refl => exact ⟨ht, hr, hi⟩
  | tail _ hs ih =>
    obtain ⟨ht', hr', hi'⟩ := ih
    exact ⟨hs.tree ht', hs.2, hstep _ _ ht' hr' hs hi'⟩

/-- **A file that is recorded, and the way to it, is where it was after a power loss, and under no
    other name.** -/
theorem Anchored.survives (ha : Anchored i p w) (hname : NameRecorded i p n w)
    (hdata : DataRecorded i data w) (hr : Rests i data p n w) :
    w.powerLoss.entry p n = some (.file i) ∧
    (∀ q m, w.powerLoss.entry q m = some (.file i) → m = n) ∧
    ∃ node, w.powerLoss.inodes i = some node ∧ node.data = data := by
  obtain ⟨k, hk⟩ := Option.isSome_iff_exists.mp hr.parent
  refine ⟨?_, fun q m hentry => ?_, ?_⟩
  · rw [World.entry_powerLoss, ha.way p (List.prefix_refl p), hk, Option.bind_some]
    exact (hname k n hk).mpr rfl
  · rw [World.entry_powerLoss] at hentry
    obtain ⟨k', -, hlookup⟩ := Option.bind_eq_some_iff.mp hentry
    by_cases hsame : w.idAt p = some k'
    · exact (hname k' m hsame).mp hlookup
    · exact absurd hlookup (ha.elsewhere k' m hsame)
  · obtain ⟨node, hnode, -⟩ := hr.data
    refine ⟨{ node with data := data }, ?_, rfl⟩
    show (w.inodes i).bind _ = _
    rw [hnode, Option.bind_some, hdata node hnode]
    rfl

end Resting

/-! ## 3. What a resolution asks the system for -/

section Resolve

variable {h : Handle} {l : CallLog} {path : ResolvePath} {ticket : TransitionTicket}

/-- The object was opened below the root, under its name. -/
structure OpenedAt (path : ResolvePath) (object : ResolvedObject) (l : CallLog) : Prop where
  place : object.directory.path = path.directory
  directory : ⟨.look (.openDirectory rootDir path.directory), .ok object.directory.id⟩ ∈ l
  file : ⟨.look (.openAt object.directory path.name), .ok object.file⟩ ∈ l

theorem OpenedAt.later {object : ResolvedObject} {l' : CallLog} (ho : OpenedAt path object l)
    (hl : l <:+ l') : OpenedAt path object l' :=
  ⟨ho.place, hl.subset ho.directory, hl.subset ho.file⟩

/-- Nothing matched. -/
def ResolveObj.Other : ResolveObj → Prop
  | .matching _ => False
  | _ => True

theorem findResolved_other (expected : CommonFields) (kind : ObjectKind) :
    (findResolved path ticket expected kind).Fails ResolveObj.Other := by
  refine .bind (Task.fails_ofOption trivial _) fun verifier => ?_
  refine .bind (Task.fails_mapErr fun e => by cases e <;> trivial) fun directory => ?_
  refine .bind (Task.fails_mapErr fun _ => trivial) fun stat => ?_
  refine .bind (Task.fails_mapErr fun e => by cases e <;> trivial) fun file => ?_
  refine .bind (.bind (Task.fails_mapErr fun _ => trivial) fun stat => ?_) fun _ => Task.fails_pure _
  split
  · exact Task.fails_throw trivial
  · refine .bind (Task.fails_mapErr fun e => by cases e <;> trivial) fun _ => ?_
    refine .bind (Task.fails_mapErr fun e => by cases e <;> trivial) fun _ => Task.fails_pure _

theorem resolveCheckObject_notes (expected : CommonFields) (kind : ObjectKind) :
    (looking (resolveCheckObject path ticket expected kind : LookM Empty ResolveObj)).Notes Sigma.mk
      h l fun r h' l' => h' = h ∧ ∀ object, r = .ok (.matching object) →
        OpenedAt path object l' := by
  refine notes_looking (.attempt (Q := fun r _ l' => (∀ object, r = .ok object →
    OpenedAt path object l') ∧ ∀ found, r = .error found → found.Other)
    (.and ?_ (Task.Always.notes (findResolved_other expected kind h))) fun r h₁ l₁ _ hr => ?_)
  · refine Task.notes_ofExcept (fun verifier _ => ?_) fun _ _ _ => nofun
    refine .bind (Q := fun r _ l' => ∀ d, r = .ok d → d.path = path.directory ∧
      ⟨.look (.openDirectory rootDir path.directory), .ok d.id⟩ ∈ l')
      (.mapErr (Task.notes_call fun r => ?_)) ?_ fun _ _ _ _ _ _ => nofun
    · intro d hd
      cases r with
      | error e => cases hd
      | ok id =>
        cases hd
        exact ⟨rfl, List.mem_cons_self⟩
    intro directory h₁ l₁ _ hopened
    obtain ⟨hplace, hdirectory⟩ := hopened directory rfl
    refine .bind (Q := fun _ _ _ => True) (Task.notes_any fun _ _ _ _ => trivial) ?_
      fun _ _ _ _ _ _ => nofun
    intro stat h₂ l₂ hl₂ _
    refine .bind (Q := fun r _ l' => ∀ i, r = .ok i → ⟨.look (.openAt directory path.name), .ok i⟩ ∈ l')
      (.mapErr (Task.notes_call fun r => ?_)) ?_ fun _ _ _ _ _ _ => nofun
    · intro i hi
      cases r with
      | error e => cases hi
      | ok j =>
        cases hi
        exact List.mem_cons_self
    intro file h₃ l₃ hl₃ hfile
    refine .bind (Q := fun _ _ _ => True) (Task.notes_any fun _ _ _ _ => trivial) ?_
      fun _ _ _ _ _ _ => nofun
    intro _ h₄ l₄ hl₄ _
    refine Task.notes_pure ?_
    rintro _ ⟨⟩
    exact ⟨hplace, hl₄.subset (hl₃.subset (hl₂.subset hdirectory)), hl₄.subset (hfile file rfl)⟩
  · split
    · refine Task.notes_pure ⟨rfl, ?_⟩
      rintro _ ⟨⟩
      exact hr.1 _ rfl
    · rename_i found
      refine Task.notes_pure ⟨rfl, ?_⟩
      rintro object ⟨⟩
      exact (hr.2 _ rfl).elim

theorem stabilizeObject_notes (object : ResolvedObject) :
    (stabilizeObject path object).Notes Sigma.mk h l fun r _ l' => r = .ok true →
      ⟨.fsync object.file, .ok ()⟩ ∈ l' ∧ ⟨.fsyncDir object.directory, .ok ()⟩ ∈ l' := by
  refine .bind (Q := fun r _ l' => r = .ok () → ⟨.fsync object.file, .ok ()⟩ ∈ l')
    (.mapErr (Task.notes_call fun r => ?_)) ?_ fun _ _ _ _ _ => nofun
  · intro hr
    cases r with
    | error e => cases hr
    | ok u => exact List.mem_cons_self
  intro _ h₁ l₁ _ hfile
  refine .bind (Q := fun r _ l' => r = .ok () → ⟨.fsyncDir object.directory, .ok ()⟩ ∈ l')
    (.mapErr (Task.notes_call fun r => ?_)) ?_ fun _ _ _ _ _ => nofun
  · intro hr
    cases r with
    | error e => cases hr
    | ok u => exact List.mem_cons_self
  intro _ h₂ l₂ hl₂ hdirectory
  exact Task.notes_any fun r _ l' hl _ =>
    ⟨hl.subset (hl₂.subset (hfile rfl)), hl.subset (hdirectory rfl)⟩

/-- **A stabilized resolution opened the destination and synced both the file and its
    directory.** -/
theorem resolve_notes {plan : ResolvePlan} (hplan : resolvePlan h ticket = .ok plan) :
    (resolve ticket true).Notes Sigma.mk h l fun r _ l' => r = .ok .destinationStabilized →
      ∃ object, OpenedAt plan.destinationPath object l' ∧
        ⟨.fsync object.file, .ok ()⟩ ∈ l' ∧ ⟨.fsyncDir object.directory, .ok ()⟩ ∈ l' := by
  refine Task.notes_memory ?_
  rw [hplan]
  refine .bind (resolveCheckObject_notes _ _) ?_ fun e => nomatch e
  rintro source h₁ l₁ - ⟨rfl, -⟩
  refine .bind (resolveCheckObject_notes _ _) ?_ fun e => nomatch e
  rintro destination h₂ l₂ - ⟨rfl, hdestination⟩
  split
  · refine Task.notes_ite (fun _ => ?_) fun hn => absurd rfl hn
    refine .attempt (Q := fun _ _ _ => True) (Task.notes_any fun _ _ _ _ => trivial)
      fun r h₃ l₃ _ _ => ?_
    split
    · exact Task.notes_pure nofun
    · exact Task.notes_pure nofun
    · exact Task.notes_pure nofun
  · rename_i object
    refine Task.notes_ite (fun _ => ?_) fun hn => absurd rfl hn
    refine .attempt (stabilizeObject_notes object) fun r h₃ l₃ hl₃ hr => ?_
    split
    · exact Task.notes_pure fun _ => ⟨object, (hdestination object rfl).later hl₃, hr rfl⟩
    · exact Task.notes_pure nofun
    · exact Task.notes_pure nofun
  all_goals exact Task.notes_pure nofun

end Resolve

/-! ## 4. After a power loss -/

section Names

variable {l : Layout} {c : CommonFields} {token : Octets 16} {target : Target}

/-- The name of a target begins with the identity it is made for. -/
def NamedFor (c : CommonFields) (n : Name) : Prop :=
  ∃ fields tag extension, n = taggedFilename (c.baseParts ++ fields) tag extension

theorem namedFor_ready : NamedFor c (l.ready c).filename :=
  ⟨[], _, _, by rw [List.append_nil]; rfl⟩

theorem namedFor_leased {bootId : Bytes} {boot wall : UInt64}
    (ht : l.leasedForBoot c bootId boot wall token = .ok target) : NamedFor c target.filename := by
  unfold Layout.leasedForBoot at ht
  split at ht
  · cases ht
  · dsimp only at ht
    split at ht
    · cases ht
    · rename_i filename hname
      cases ht
      unfold makeLeasedName at hname
      obtain ⟨bytes, -, hmade⟩ := Option.bind_eq_some_iff.mp hname
      cases hmade
      exact ⟨_, _, _, rfl⟩

theorem TicketSource.namedFor {s : TicketSource} (ht : s.target l c token = .ok target) :
    NamedFor c target.filename := by
  cases s with
  | ready =>
    cases ht
    exact namedFor_ready
  | leased bootId boot wall => exact namedFor_leased ht

theorem TicketDestination.namedFor {d : TicketDestination} (ht : d.target l c token = .ok target) :
    NamedFor c target.filename := by
  cases d with
  | ready =>
    cases ht
    exact namedFor_ready
  | leased bootId boot wall => exact namedFor_leased ht
  | delayed ns =>
    unfold TicketDestination.target Layout.delayed at ht
    dsimp only at ht
    split at ht
    · cases ht
    · cases ht
      exact ⟨_, _, _, rfl⟩
  | receipt bucket =>
    cases ht
    exact ⟨_, _, _, rfl⟩
  | dead bucket reason =>
    cases ht
    exact ⟨_, _, _, rfl⟩

theorem resolvePath_name {t : Target} {path : ResolvePath}
    (hp : ResolvePath.new t.relativePath = .ok path) : path.name = t.filename := by
  have hlast : t.relativePath.getLast? = some t.filename := List.getLast?_concat
  unfold ResolvePath.new at hp
  rw [hlast] at hp
  dsimp only at hp
  split_ifs at hp
  cases hp
  rfl

theorem destinationCommon_succeeds {T : TransitionTicket} {c : CommonFields}
    (hc : T.destinationCommon = .ok c) :
    Succeeds T.operation.protocolOperation T.sourceCommon c := by
  unfold TransitionTicket.destinationCommon at hc
  split at hc
  · rename_i c' hnext
    cases hc
    refine nextCommonFields_ok hnext ?_
    cases T.operation <;> decide
  · cases hc
  · cases hc

/-- **The two names of a ticket differ**: every transition counts the generation up. -/
theorem resolvePlan_names {h : Handle} {T : TransitionTicket} {plan : ResolvePlan}
    (hplan : resolvePlan h T = .ok plan) : plan.sourcePath.name ≠ plan.destinationPath.name := by
  obtain ⟨⟨source, destination⟩, hpaths, hplan⟩ := except_bind_eq_ok hplan
  obtain ⟨sourcePath, hsource, hplan⟩ := except_bind_eq_ok hplan
  obtain ⟨destinationPath, hdestination, hplan⟩ := except_bind_eq_ok hplan
  obtain ⟨_, -, hplan⟩ := except_bind_eq_ok hplan
  cases hplan
  obtain ⟨_, -, hpaths⟩ := except_bind_eq_ok hpaths
  obtain ⟨c, hnext, hpaths⟩ := except_bind_eq_ok hpaths
  obtain ⟨sourceTarget, hsourceTarget, hpaths⟩ := except_bind_eq_ok hpaths
  obtain ⟨target, htarget, hpaths⟩ := except_bind_eq_ok hpaths
  cases hpaths
  rw [resolvePath_name hsource, resolvePath_name hdestination]
  obtain ⟨fields, tag, extension, hname⟩ := TicketSource.namedFor hsourceTarget
  obtain ⟨fields', tag', extension', hname'⟩ := TicketDestination.namedFor htarget
  intro hsame
  rw [hname, hname'] at hsame
  have hgeneration := taggedFilename_generation hsame
  have hsucc := destinationCommon_succeeds hnext
  have hcounted := hsucc.generation
  rw [hgeneration] at hcounted
  omega

end Names

section Stabilized

variable {i : Ino} {data : Bytes} {p : Path} {n : Name} {w w' w'' : World} {t : HandleId}

/-- A call of `t` itself; the file stays. -/
def OwnStep (t : HandleId) (i : Ino) (data : Bytes) (p : Path) (n : Name) (w : World) (a : Act)
    (r : a.Resp) (w' : World) : Prop :=
  (∃ c, w.step t a c = some (r, w')) ∧ Rests i data p n w'

theorem OwnStep.resting {a : Act} {r : a.Resp} (h : OwnStep t i data p n w a r w') :
    Resting i data p n w w' := by
  obtain ⟨⟨c, hs⟩, hr⟩ := h
  exact .single ⟨.inl ⟨t, a, c, r, hs⟩, hr⟩

/-- A successful answer was not a fault. -/
theorem apply_of_ok {a : Act} {c : Choice} {r : a.Resp} (hs : w.step t a c = some (r, w'))
    (hok : ∀ e, a.failed e ≠ some r) : w.apply t a c = some (r, w') := by
  unfold World.step at hs
  split at hs
  · obtain ⟨r', hfailed, hw⟩ := Option.map_eq_some_iff.mp hs
    cases hw
    exact absurd hfailed (hok _)
  · exact hs

theorem opened_directory {c : Choice} {q : Path} {id : DirId}
    (hs : w.step t (.look (.openDirectory rootDir q)) c = some (.ok id, w')) :
    w.idAt q = some id := by
  have ha := apply_of_ok hs (by rintro e ⟨⟩)
  obtain ⟨r, hr, hw⟩ := Option.map_eq_some_iff.mp ha
  cases hw
  cases c with
  | plain =>
    simp only [World.answer] at hr
    split at hr
    · rename_i node hnode
      cases hr
      obtain ⟨_, -, hdirs⟩ := Option.bind_eq_some_iff.mp hnode
      have hdirs : w.dirs q = some node := hdirs
      rw [World.idAt, hdirs]
      rfl
    · cases hr
  | _ => cases hr

theorem opened_file {c : Choice} {d : Dir} {m : Name} {j : Ino}
    (hs : w.step t (.look (.openAt d m)) c = some (.ok j, w'))
    (hfile : w.lookup d m = some (.file i)) : j = i := by
  have ha := apply_of_ok hs (by rintro e ⟨⟩)
  obtain ⟨r, hr, hw⟩ := Option.map_eq_some_iff.mp ha
  cases hw
  cases c with
  | plain =>
    rw [World.answer_openAt, hfile] at hr
    cases hr
    rfl
  | _ => cases hr

theorem synced_file {c : Choice} {u : Unit} {node : Inode}
    (hs : w.step t (.fsync i) c = some (.ok u, w')) (hnode : w.inodes i = some node) :
    w'.inodes i = some { node with synced := some node.data } := by
  have ha := apply_of_ok hs (by rintro e ⟨⟩)
  cases c with
  | plain =>
    cases ha
    simp [World.setInode, hnode]
  | _ => cases ha

theorem synced_directory {c : Choice} {d : Dir} {u : Unit} {node : DirNode}
    (hs : w.step t (.fsyncDir d) c = some (.ok u, w')) (hlive : w.live d = some node) :
    w'.syncedDirs d.id = node.entries := by
  have ha := apply_of_ok hs (by rintro e ⟨⟩)
  cases c with
  | plain =>
    simp only [World.apply, hlive] at ha
    cases ha
    exact if_pos rfl
  | _ => cases ha

/-- **What a stabilized resolution is worth.** The job rests at the destination of the ticket from
    the start of the resolution on, whatever calls are made by anybody, failing or not; the way to
    it is recorded, and no other directory has recorded it. Then after any power loss it is at its
    destination with its data, and not at its source. -/
theorem stabilized_survives {h h' : Handle} {ticket : TransitionTicket} {plan : ResolvePlan}
    {es : CallLog} (hplan : resolvePlan h ticket = .ok plan) (ht : w.Tree)
    (hr : Rests i data plan.destinationPath.directory plan.destinationPath.name w)
    (ha : Anchored i plan.destinationPath.directory w)
    (hrun : ((resolve ticket true).start h).Amid
      (Resting i data plan.destinationPath.directory plan.destinationPath.name)
      (OwnStep t i data plan.destinationPath.directory plan.destinationPath.name)
      w es (.ok .destinationStabilized, h') w')
    (hlater : Resting i data plan.destinationPath.directory plan.destinationPath.name w' w'') :
    w''.powerLoss.entry plan.destinationPath.directory plan.destinationPath.name =
        some (.file i) ∧
    w''.powerLoss.entry plan.sourcePath.directory plan.sourcePath.name ≠ some (.file i) ∧
    ∃ node, w''.powerLoss.inodes i = some node ∧ node.data = data := by
  obtain ⟨object, hopened, hfile, hdirectory⟩ := (resolve_notes hplan).trace hrun.trace rfl
  have moment {e : Σ a, Act.Resp a} (he : e ∈ es.reverse) :=
    hrun.moment Relation.ReflTransGen.trans OwnStep.resting (List.mem_reverse.mp he)
  -- the directory of the destination is one and the same all along
  have hway {u : World} (hu : Resting i data plan.destinationPath.directory
      plan.destinationPath.name w u) : u.Tree ∧ Rests i data plan.destinationPath.directory
        plan.destinationPath.name u ∧ u.idAt plan.destinationPath.directory =
          w.idAt plan.destinationPath.directory :=
    hu.keeps (I := fun z => z.idAt plan.destinationPath.directory =
      w.idAt plan.destinationPath.directory) ht hr rfl fun _ _ htree hrests hs hsame =>
        (hs.keeps_way htree hrests (List.prefix_refl _)).trans hsame
  have hid : w.idAt plan.destinationPath.directory = some object.directory.id := by
    obtain ⟨u, v, hu, ⟨⟨c, hs⟩, -⟩, -⟩ := moment hopened.directory
    rw [← (hway hu).2.2]
    exact opened_directory hs
  have hlive {u : World} (hu : Resting i data plan.destinationPath.directory
      plan.destinationPath.name w u) : u.idAt object.directory.path = some object.directory.id := by
    rw [hopened.place, (hway hu).2.2, hid]
  have hobject : object.file = i := by
    obtain ⟨u, v, hu, ⟨⟨c, hs⟩, -⟩, -⟩ := moment hopened.file
    refine opened_file hs (World.lookup_eq_some.mpr ⟨hlive hu, ?_⟩)
    rw [hopened.place]
    exact (hway hu).2.1.entry
  have hname : NameRecorded i plan.destinationPath.directory plan.destinationPath.name w' := by
    obtain ⟨u, v, hu, hown, hv⟩ := moment hdirectory
    have huv := hown.resting
    obtain ⟨⟨c, hs⟩, -⟩ := hown
    obtain ⟨hutree, hurests, -⟩ := hway hu
    obtain ⟨hvtree, hvrests, hvid⟩ := hway (hu.trans huv)
    obtain ⟨node, hnode⟩ := Option.isSome_iff_exists.mp (World.live_isSome.mpr (hlive hu))
    have hsynced := synced_directory hs hnode
    refine (hv.keeps hvtree hvrests ?_ fun _ _ htree hrests hs hc => hc.step htree hrests hs).2.2
    intro k m hk
    obtain rfl : object.directory.id = k := Option.some.inj (hid.symm.trans (hvid.symm.trans hk))
    rw [hsynced, ← World.entry_of_live hnode, hopened.place]
    exact ⟨fun hm => (hurests.only _ _ hm).2, fun hm => hm ▸ hurests.entry⟩
  have hdata : DataRecorded i data w' := by
    obtain ⟨u, v, hu, hown, hv⟩ := moment hfile
    have huv := hown.resting
    obtain ⟨⟨c, hs⟩, -⟩ := hown
    obtain ⟨-, hurests, -⟩ := hway hu
    obtain ⟨hvtree, hvrests, -⟩ := hway (hu.trans huv)
    obtain ⟨node, hnode, rfl⟩ := hurests.data
    refine (hv.keeps hvtree hvrests ?_ fun _ _ htree hrests hs hc => hc.step htree hrests hs).2.2
    intro node' hnode'
    rw [hobject] at hs
    rw [synced_file hs hnode] at hnode'
    cases hnode'
    rfl
  have hwithin := hrun.within Relation.ReflTransGen.trans OwnStep.resting
  obtain ⟨htree', hrests', hanchored'⟩ := hwithin.keeps ht hr ha
    fun _ _ htree hrests hs hc => hc.step htree hrests hs
  obtain ⟨-, hrests'', hanchored'', hname'', hdata''⟩ := hlater.keeps
    (I := fun z => Anchored i plan.destinationPath.directory z ∧
      NameRecorded i plan.destinationPath.directory plan.destinationPath.name z ∧
      DataRecorded i data z) htree' hrests' ⟨hanchored', hname, hdata⟩ fun _ _ htree hrests hs hc =>
      ⟨hc.1.step htree hrests hs, hc.2.1.step htree hrests hs, hc.2.2.step htree hrests hs⟩
  obtain ⟨hentry, hothers, hcontent⟩ := hanchored''.survives hname'' hdata'' hrests''
  exact ⟨hentry, fun hsource => resolvePlan_names hplan (hothers _ _ hsource), hcontent⟩

end Stabilized

/-! ## 5. Samples -/

namespace Snapshot.Sound

variable {s : Snapshot} (hs : s.Sound)
include hs

theorem syncedDirs_eq {p : Path} {id : DirId} (hid : s.world.idAt p = some id) (n : Name) :
    (s.world.syncedDirs id).lookup n = s.world.entry p n := by
  obtain ⟨es, hd⟩ := hs.idAt_iff.mp hid
  have hdirs : s.world.dirs p = some ⟨id, entriesOf es⟩ := hs.dirs_iff.mpr ⟨id, es, hd, rfl⟩
  have hfind := (find_key (List.nodup_append.mp hs.numbered).1).mpr ⟨hd, rfl⟩
  rw [World.entry, hdirs, Option.bind_some]
  show (((s.dirs.find? _).map fun d => entriesOf d.2.2).getD ∅).lookup n = _
  rw [hfind]
  rfl

/-- In a snapshot everything is recorded. -/
theorem durableId_eq (p : Path) : s.world.durableId p = s.world.idAt p := by
  induction p using List.reverseRecOn with
  | nil => exact hs.tree.root.symm
  | append_singleton p n ih =>
    rw [World.durableId_concat, ih]
    cases hid : s.world.idAt p with
    | none => exact (hs.tree.idAt_eq_none (World.entry_of_idAt hid n)).symm
    | some k =>
      rw [Option.bind_some, hs.syncedDirs_eq hid]
      split
      · rename_i m hm
        exact ((hs.tree.nested p n m).mp hm).symm
      · rename_i hno
        cases hsub : s.world.idAt (p ++ [n]) with
        | none => rfl
        | some m => exact absurd ((hs.tree.nested p n m).mpr hsub) (hno m)

theorem entry_unique {x : Node} {p q : Path} {n m : Name} (hp : s.world.entry p n = some x)
    (hq : s.world.entry q m = some x) : q = p ∧ m = n := by
  have hone := (find_key hs.targets).mpr ⟨hs.entry_iff.mp hp, rfl⟩
  rw [(find_key hs.targets).mpr ⟨hs.entry_iff.mp hq, rfl⟩] at hone
  cases hone
  exact ⟨rfl, rfl⟩

theorem anchored {i : Ino} {p : Path} {n : Name} (hentry : s.world.entry p n = some (.file i)) :
    Anchored i p s.world := by
  refine ⟨fun q _ => hs.durableId_eq q, fun k m hk hlookup => ?_⟩
  cases hfind : s.dirs.find? fun d => d.2.1 = k with
  | none =>
    have hempty : s.world.syncedDirs k = ∅ := by
      show ((s.dirs.find? _).map fun d => entriesOf d.2.2).getD ∅ = ∅
      rw [hfind]
      rfl
    rw [hempty] at hlookup
    cases hlookup
  | some d =>
    obtain ⟨q, id, es⟩ := d
    obtain ⟨hd, rfl⟩ := (find_key (List.nodup_append.mp hs.numbered).1).mp hfind
    have hid : s.world.idAt q = some id := hs.idAt_iff.mpr ⟨es, hd⟩
    rw [hs.syncedDirs_eq hid] at hlookup
    obtain ⟨rfl, -⟩ := hs.entry_unique hentry hlookup
    exact hk hid

theorem rests {i : Ino} {p : Path} {n : Name} {node : Inode}
    (hentry : s.world.entry p n = some (.file i)) (hnode : s.world.inodes i = some node) :
    Rests i node.data p n s.world :=
  ⟨hentry, fun _ _ hother => hs.entry_unique hentry hother, node, hnode, rfl⟩

end Snapshot.Sound

/-- Looks and barriers. -/
def Act.quiet : Act → Bool
  | .look _ => true
  | .fsync _ => true
  | .fsyncDir _ => true
  | _ => false

theorem Rests.quiet {i : Ino} {data : Bytes} {p : Path} {n : Name} {w w' : World} {t : HandleId}
    {a : Act} {c : Choice} {r : a.Resp} (hr : Rests i data p n w) (hquiet : a.quiet = true)
    (hs : w.step t a c = some (r, w')) : Rests i data p n w' := by
  unfold World.step at hs
  split at hs
  · obtain ⟨_, -, hw⟩ := Option.map_eq_some_iff.mp hs
    cases hw
    exact hr
  · cases a with
    | look l =>
      obtain ⟨_, -, hw⟩ := Option.map_eq_some_iff.mp hs
      cases hw
      exact hr
    | fsync j =>
      cases c with
      | plain =>
        cases hs
        obtain ⟨node, hnode, hdata⟩ := hr.data
        refine ⟨hr.entry, hr.only, ?_⟩
        by_cases hj : i = j
        · exact ⟨{ node with synced := some node.data }, by simp [World.setInode, ← hj, hnode], hdata⟩
        · exact ⟨node, by simp [World.setInode, hj, hnode], hdata⟩
      | _ => cases hs
    | fsyncDir d =>
      cases c with
      | plain =>
        simp only [World.apply] at hs
        split at hs
        · cases hs
          exact ⟨hr.entry, hr.only, hr.data⟩
        · cases hs
          exact hr
      | _ => cases hs
    | _ => cases hquiet

def sampleClaimTicket : TransitionTicket where
  queueId := sampleFormat.queueId
  operation := .claim
  phase := .linearized
  sourceCommon := ⟨filled 16 3, 0, 0, 3⟩
  leaseToken := filled 16 4
  envelopeDigest := sampleHeader.envelopeDigest
  payloadLength := 3
  source := .ready
  destination := .leased sampleHandle.bootId 3600000000000 3600000000000

def sampleLeased : Snapshot := sampleQueue [(sampleLeasedName, .file 20)] []

theorem sampleLeased_sound : sampleLeased.Sound where
  paths := by decide +kernel
  numbered := by decide +kernel
  keys := by decide +kernel
  targets := by decide +kernel
  rooted := by decide +kernel
  leading := by decide +kernel
  reaching := by decide +kernel

/-- A resolution alone, nothing failing. -/
def soloResolve (ticket : TransitionTicket) (h : Handle) (w : World) :
    Option (CallLog × (Except Empty ResolutionOutcome × Handle) × World) :=
  ((resolve ticket true).start h).solo (fun a w => w.step 0 a (a.usual 0 w)) w

/-- The calls on the sample queue, evaluated together. -/
theorem sample_resolutions :
    (soloResolve sampleClaimTicket sampleHandle sampleLeased.world).map (fun x =>
      decide (x.2.1.1 = .ok .destinationStabilized ∧ ∀ e ∈ x.1, e.1.quiet = true)) = some true ∧
    (resolvePlan sampleHandle sampleClaimTicket).toOption.map (fun plan =>
      (plan.destinationPath.directory, plan.destinationPath.name)) =
        some (sampleReadyPath, sampleLeasedName) ∧
    ((sampleLostAck sampleLeased sampleReadyPath).bind fun x =>
      x.2.1.1.ticket.bind fun T => (soloResolve T x.2.1.2 x.2.2).map fun y =>
        decide (y.2.1.1 = .ok .destinationStabilized ∧
          (transitionTicketPaths sampleHandle T).map Prod.fst =
            .ok (sampleReadyPath ++ [sampleLeasedName]) ∧
          y.2.2.powerLoss.entry sampleReadyPath sampleLeasedName = some (.file 20))) =
        some true := by
  refine ⟨?_, ?_, ?_⟩ <;> decide +kernel

theorem stabilized_survives_claim : ∃ es h' w' plan,
    soloResolve sampleClaimTicket sampleHandle sampleLeased.world =
      some (es, (.ok .destinationStabilized, h'), w') ∧
    resolvePlan sampleHandle sampleClaimTicket = .ok plan ∧
    w'.powerLoss.entry sampleReadyPath sampleLeasedName = some (.file 20) ∧
    w'.powerLoss.entry plan.sourcePath.directory plan.sourcePath.name ≠ some (.file 20) := by
  obtain ⟨hrun, hplace, -⟩ := sample_resolutions
  obtain ⟨⟨es, ⟨r, h'⟩, w'⟩, hrun, hshows⟩ := Option.map_eq_some_iff.mp hrun
  obtain ⟨rfl, hquiet⟩ := of_decide_eq_true hshows
  obtain ⟨plan, hplan, hdestination⟩ := Option.map_eq_some_iff.mp hplace
  obtain ⟨hdirectory, hname⟩ := Prod.mk.inj hdestination
  have hplan : resolvePlan sampleHandle sampleClaimTicket = .ok plan := by
    cases hp : resolvePlan sampleHandle sampleClaimTicket with
    | error e =>
      rw [hp] at hplan
      cases hplan
    | ok plan' =>
      rw [hp] at hplan
      exact congrArg _ (Option.some.inj hplan)
  have hsound := sampleLeased_sound
  have hentry : sampleLeased.world.entry plan.destinationPath.directory
      plan.destinationPath.name = some (.file 20) := by
    rw [hdirectory, hname]
    exact hsound.entry_iff.mpr (by decide +kernel)
  obtain ⟨node, hnode⟩ := Option.isSome_iff_exists.mp (hsound.tree.files _ _ _ hentry)
  have hrests := hsound.rests hentry hnode
  have hamid : ((resolve sampleClaimTicket true).start sampleHandle).Amid
      (Resting 20 node.data plan.destinationPath.directory plan.destinationPath.name)
      (OwnStep 0 20 node.data plan.destinationPath.directory plan.destinationPath.name)
      sampleLeased.world es (.ok .destinationStabilized, h') w' :=
    Prog.amid_of_solo (P := fun a => a.quiet = true)
      (I := Rests 20 node.data plan.destinationPath.directory plan.destinationPath.name)
      (fun _ => .refl) (fun _ _ _ _ hquiet hu hs =>
        ⟨⟨⟨_, hs⟩, hu.quiet hquiet hs⟩, hu.quiet hquiet hs⟩) hrun hquiet hrests
  obtain ⟨hkept, hsource, -⟩ := stabilized_survives hplan hsound.tree hrests
    (hsound.anchored hentry) hamid .refl
  rw [hdirectory, hname] at hkept
  exact ⟨es, h', w', plan, hrun, hplan, hkept, hsource⟩

/-- **A stabilized job that is back at its source.** The barrier behind an acknowledgment fails,
    the resolution is stabilized, the power is lost: the lease is where it was. -/
theorem stabilized_ack_returns : ∃ es r h' w T es' h'' w',
    sampleLostAck sampleLeased sampleReadyPath = some (es, (r, h'), w) ∧ r.ticket = some T ∧
    soloResolve T h' w = some (es', (.ok .destinationStabilized, h''), w') ∧
    (transitionTicketPaths sampleHandle T).map Prod.fst =
      .ok (sampleReadyPath ++ [sampleLeasedName]) ∧
    w'.powerLoss.entry sampleReadyPath sampleLeasedName = some (.file 20) := by
  have hrun := sample_resolutions.2.2
  obtain ⟨⟨es, ⟨r, h'⟩, w⟩, hack, hrun⟩ := Option.bind_eq_some_iff.mp hrun
  obtain ⟨T, hT, hrun⟩ := Option.bind_eq_some_iff.mp hrun
  obtain ⟨⟨es', ⟨r', h''⟩, w'⟩, hresolve, hshows⟩ := Option.map_eq_some_iff.mp hrun
  obtain ⟨rfl, hpaths, hback⟩ := of_decide_eq_true hshows
  exact ⟨es, r, h', w, T, es', h'', w', hack, hT, hresolve, hpaths, hback⟩

end SteadQ
