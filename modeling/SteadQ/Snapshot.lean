/-
  File:      SteadQ/Snapshot.lean
  Subject:   FILE SYSTEMS WRITTEN DOWN AS TABLES, for examples that start from a given tree.

  A snapshot lists its directories and its files. Whether the lists describe a tree is checked by
  evaluation; the properties of file systems that the theorems ask for follow from the check.
-/
import SteadQ.Fresh

namespace SteadQ

open Octet Interact

structure Snapshot where
  dirs : List (Path × DirId × List (Name × Node))
  files : List (Ino × Bytes)

namespace Snapshot

/-- All entries: the directory, the name and what it leads to. -/
def entered (s : Snapshot) : List (Path × Name × Node) :=
  s.dirs.flatMap fun d => d.2.2.map fun e => (d.1, e.1, e.2)

def numbers (s : Snapshot) : List Nat := s.dirs.map (fun d => d.2.1) ++ s.files.map Prod.fst

def world (s : Snapshot) : World where
  dirs := fun p => (s.dirs.find? fun d => d.1 = p).map fun d => ⟨d.2.1, entriesOf d.2.2⟩
  inodes := fun i => (s.files.find? fun f => f.1 = i).map fun f => ⟨f.2, some f.2, 1, 0⟩
  syncedDirs := fun id =>
    ((s.dirs.find? fun d => d.2.1 = id).map fun d => entriesOf d.2.2).getD ∅
  nextId := s.numbers.foldr max 0 + 1
  locks := fun _ => none
  drawn := []

/-- What an entry leads to is listed. -/
def leads (s : Snapshot) (e : Path × Name × Node) : Bool :=
  match e.2.2 with
  | .dir id => s.dirs.any fun d => d.1 = e.1 ++ [e.2.1] ∧ d.2.1 = id
  | .file i => s.files.any fun f => f.1 = i

/-- A directory that is listed is the root or entered in its parent. -/
def reached (s : Snapshot) (d : Path × DirId × List (Name × Node)) : Bool :=
  match d.1.getLast? with
  | none => d.2.1 = rootDir.id
  | some n => (d.1.dropLast, n, .dir d.2.1) ∈ s.entered

/-- The check. -/
structure Sound (s : Snapshot) : Prop where
  paths : (s.dirs.map Prod.fst).Nodup
  numbered : s.numbers.Nodup
  keys : ∀ d ∈ s.dirs, (d.2.2.map Prod.fst).Nodup
  targets : (s.entered.map fun e => e.2.2).Nodup
  rooted : [] ∈ s.dirs.map Prod.fst
  leading : ∀ e ∈ s.entered, s.leads e = true
  reaching : ∀ d ∈ s.dirs, s.reached d = true

/-- A key that occurs once finds what it stands at. -/
theorem find_key {α κ : Type} [DecidableEq κ] {f : α → κ} {l : List α} (h : (l.map f).Nodup)
    {k : κ} {x : α} : (l.find? fun y => f y = k) = some x ↔ x ∈ l ∧ f x = k := by
  constructor
  · intro hx
    exact ⟨List.mem_of_find?_eq_some hx, by simpa using List.find?_some hx⟩
  · rintro ⟨hx, rfl⟩
    induction l with
    | nil => cases hx
    | cons y l ih =>
      rw [List.map_cons, List.nodup_cons] at h
      rcases List.mem_cons.mp hx with rfl | hx
      · simp
      · have hne : f y ≠ f x := fun he => h.1 (he ▸ List.mem_map_of_mem hx)
        simp [hne, ih h.2 hx]

theorem le_foldr_max {l : List Nat} {k : Nat} (h : k ∈ l) : k < l.foldr max 0 + 1 := by
  induction l with
  | nil => cases h
  | cons x l ih =>
    rw [List.foldr_cons]
    rcases List.mem_cons.mp h with rfl | h
    · omega
    · have := ih h
      omega

theorem inodes_isSome {s : Snapshot} {i : Ino} :
    (s.world.inodes i).isSome ↔ i ∈ s.files.map Prod.fst := by
  rw [world, Option.isSome_map, List.find?_isSome]
  simp

namespace Sound

variable {s : Snapshot} (hs : s.Sound)
include hs

theorem dirs_iff {p : Path} {node : DirNode} : s.world.dirs p = some node ↔
    ∃ id es, (p, id, es) ∈ s.dirs ∧ node = ⟨id, entriesOf es⟩ := by
  simp only [world, Option.map_eq_some_iff, find_key hs.paths]
  constructor
  · rintro ⟨⟨p', id, es⟩, ⟨hd, rfl⟩, rfl⟩
    exact ⟨id, es, hd, rfl⟩
  · rintro ⟨id, es, hd, rfl⟩
    exact ⟨_, ⟨hd, rfl⟩, rfl⟩

theorem idAt_iff {p : Path} {id : DirId} : s.world.idAt p = some id ↔
    ∃ es, (p, id, es) ∈ s.dirs := by
  simp only [World.idAt, Option.map_eq_some_iff, hs.dirs_iff]
  constructor
  · rintro ⟨_, ⟨id, es, hd, rfl⟩, rfl⟩
    exact ⟨es, hd⟩
  · rintro ⟨es, hd⟩
    exact ⟨_, ⟨id, es, hd, rfl⟩, rfl⟩

theorem entry_iff {p : Path} {n : Name} {x : Node} : s.world.entry p n = some x ↔
    (p, n, x) ∈ s.entered := by
  simp only [World.entry, Option.bind_eq_some_iff, hs.dirs_iff, entered, List.mem_flatMap,
    List.mem_map]
  constructor
  · rintro ⟨_, ⟨id, es, hd, rfl⟩, hx⟩
    rw [lookup_entriesOf, Option.map_eq_some_iff] at hx
    obtain ⟨⟨n', x⟩, hfind, rfl⟩ := hx
    obtain ⟨hmem, rfl⟩ := (find_key (hs.keys _ hd)).mp hfind
    exact ⟨_, hd, _, hmem, rfl⟩
  · rintro ⟨⟨p', id, es⟩, hd, ⟨n', x'⟩, hmem, heq⟩
    cases heq
    refine ⟨_, ⟨id, es, hd, rfl⟩, ?_⟩
    rw [lookup_entriesOf, (find_key (hs.keys _ hd)).mpr ⟨hmem, rfl⟩]
    rfl

theorem tree : s.world.Tree where
  root := by
    obtain ⟨⟨p, id, es⟩, hd, rfl⟩ := List.mem_map.mp hs.rooted
    have hid : id = rootDir.id := by simpa [reached] using hs.reaching _ hd
    exact hs.idAt_iff.mpr ⟨es, hid ▸ hd⟩
  nested p n id := by
    rw [hs.entry_iff, hs.idAt_iff]
    constructor
    · intro he
      obtain ⟨⟨p', id', es⟩, hd, hp⟩ := List.any_eq_true.mp (hs.leading _ he)
      obtain ⟨rfl, rfl⟩ : p' = p ++ [n] ∧ id' = id := by simpa using hp
      exact ⟨es, hd⟩
    · rintro ⟨es, hd⟩
      simpa [reached] using hs.reaching _ hd
  files p n i he := by
    obtain ⟨f, hf, heq⟩ := List.any_eq_true.mp (hs.leading _ (hs.entry_iff.mp he))
    exact inodes_isSome.mpr (List.mem_map.mpr ⟨f, hf, by simpa using heq⟩)
  inodes i hi := le_foldr_max (List.mem_append_right _ (inodes_isSome.mp hi))
  ids p id hp := by
    obtain ⟨es, hd⟩ := hs.idAt_iff.mp hp
    exact le_foldr_max (List.mem_append_left _ (List.mem_map_of_mem hd))
  distinct p q id hp hq := by
    obtain ⟨es, hd⟩ := hs.idAt_iff.mp hp
    obtain ⟨es', hd'⟩ := hs.idAt_iff.mp hq
    have hids := (List.nodup_append.mp hs.numbered).1
    have hone := (find_key hids).mpr ⟨hd, rfl⟩
    rw [(find_key hids).mpr ⟨hd', rfl⟩] at hone
    cases hone
    rfl

theorem apart : s.world.Apart := by
  intro p n id he
  obtain ⟨es, hd⟩ := hs.idAt_iff.mp ((hs.tree.nested p n id).mp he)
  rw [← Option.not_isSome_iff_eq_none, inodes_isSome]
  intro hfile
  exact (List.nodup_append.mp hs.numbered).2.2 _ (List.mem_map_of_mem hd) _ hfile rfl

theorem single : s.world.Single := by
  intro i node p n q m _ _ hp hq
  have hone := (find_key hs.targets).mpr ⟨hs.entry_iff.mp hp, rfl⟩
  rw [(find_key hs.targets).mpr ⟨hs.entry_iff.mp hq, rfl⟩] at hone
  cases hone
  exact ⟨rfl, rfl⟩

end Sound

end Snapshot

/-! ## Sample jobs -/

/-- The header of a job of the sample queue, sealed by its envelope digest. -/
def sampleHeader : FixedHeader :=
  let header : FixedHeader := ⟨formatMinor, 0, 3, 0, digestAlgorithmSha256, filled 16 3, 3, 0,
    payloadDigest [1, 2, 3], zeros 32⟩
  { header with envelopeDigest := (envelopeDigest header []).getD (zeros 32) }

def sampleData : Bytes := sampleHeader.bytes ++ [1, 2, 3]

def sampleShard : Bytes :=
  shardHex (computeShard sampleFormat.queueId (filled 16 3) sampleFormat.shardCount)

def sampleReadyPath : Path := [State.ready.dirName, sampleShard]

/-- Where an older release would have put the lease of the sample job. -/
def sampleOlderPath : Path :=
  [State.leased.dirName, sampleHandle.bootId, bucketHex 60, sampleShard]

/-! Names are not unfolded outside of evaluation: they contain a digest. -/

@[irreducible] def sampleReadyName : Name :=
  makeReadyName sampleFormat.queueId sampleShard ⟨filled 16 3, 0, 0, 3⟩

@[irreducible] def sampleLeasedName : Name :=
  (makeLeasedName sampleFormat.queueId sampleHandle.bootId (bucketHex 60) sampleShard
    ⟨filled 16 3, 1, 1, 3⟩ 3600000000000 3600000000000 (filled 16 4)).getD []

/-- The lease of the sample job, held at a path. -/
def sampleLeaseAt (path : Path) : LeaseInfo where
  jobId := filled 16 3
  envelopeDigest := sampleHeader.envelopeDigest
  generation := 1
  attempt := 1
  maximumAttempts := 3
  token := filled 16 4
  bootId := sampleHandle.bootId
  expiresBoottimeNs := 3600000000000
  expiresWallNs := 3600000000000
  contentType := []
  payloadLength := 3
  payloadDigest := sampleHeader.payloadDigest
  expectedDev := device
  expectedInode := 20
  exactSourcePath := path

/-- The sample queue with entries in its shard and in the older tree of leases; file 20 is the
    sample job. -/
def sampleQueue (ready older : List (Name × Node)) : Snapshot where
  dirs := [
    ([], 1, stateDirectories.zipIdx.map fun p => (p.1, .dir (2 + p.2))),
    (controlPath, 2, [(watermarkName, .file 11), (recoveryLockName, .file 12)]),
    ([State.ready.dirName], 3, [(sampleShard, .dir 16)]),
    ([State.leased.dirName], 4, [(sampleHandle.bootId, .dir 17)]),
    ([State.delayed.dirName], 5, []),
    ([State.receipt.dirName], 6, []),
    ([State.dead.dirName], 7, []),
    ([ascii "quarantine"], 8, []),
    ([ascii "tmp"], 9, []),
    (sampleReadyPath, 16, ready),
    (sampleOlderPath.take 2, 17, [(bucketHex 60, .dir 18)]),
    (sampleOlderPath.take 3, 18, [(sampleShard, .dir 19)]),
    (sampleOlderPath, 19, older)]
  files := [(11, (WatermarkRecord.mk 0 0).encode), (12, []), (20, sampleData)]

/-- An operation alone on a snapshot, with the failures `bad` asks for. -/
def Snapshot.call (s : Snapshot) (bad : World → Act → Option IoError) (h : Handle) (op : Op) :
    Option (Log Act.Resp × (OpResult × Handle) × World) :=
  (op.program sampleCodec h).solo (fun a w => w.step 0 a (a.failing (bad w) 0 w)) s.world

end SteadQ
