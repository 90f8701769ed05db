/-
  File:      SteadQ/Fresh.lean
  Subject:   A QUEUE RIGHT AFTER INITIALIZATION, and handles that were just opened.
-/
import SteadQ.Fs.Tree
import SteadQ.Lib.Codec
import SteadQ.Ops

namespace SteadQ

open Octet Interact

/-! ## 1. The tree -/

/-- `STATE_DIRECTORIES`. -/
def stateDirectories : List Name :=
  [ascii "control", ascii "ready", ascii "leased", ascii "delayed", ascii "receipts",
    ascii "dead", ascii "quarantine", ascii "tmp"]

def formatName : Name := ascii "FORMAT"

def entriesOf (l : List (Name × Node)) : Entries := l.foldr (fun p e => e.insert p.1 p.2) ∅

/-- Identities: the root is 1, the state directories follow, then the files of `init` and the
    ready shards. -/
def freshFormatIno : Ino := 10
def freshWatermarkIno : Ino := 11
def freshLockIno : Ino := 12
def freshShardId (i : Nat) : DirId := 16 + i

def freshEntries (f : FormatRecord) (root : Name) : Entries :=
  if root = State.ready.dirName then
    entriesOf ((shardNames f).zipIdx.map fun p => (p.1, .dir (freshShardId p.2)))
  else if [root] = controlPath then
    entriesOf [(watermarkName, .file freshWatermarkIno), (recoveryLockName, .file freshLockIno)]
  else ∅

def freshTree (f : FormatRecord) : List (Path × DirNode) :=
  ([], ⟨1, entriesOf ((formatName, .file freshFormatIno) ::
    stateDirectories.zipIdx.map fun p => (p.1, .dir (2 + p.2)))⟩) ::
  (stateDirectories.zipIdx.map fun p => ([p.1], ⟨2 + p.2, freshEntries f p.1⟩)) ++
  (shardNames f).zipIdx.map fun p => ([State.ready.dirName, p.1], ⟨freshShardId p.2, ∅⟩)

/-- The files of `init`: FORMAT, the watermark and the lock file of recovery. -/
def freshFile (f : FormatRecord) (record : WatermarkRecord) (i : Ino) : Option Bytes :=
  if i = freshFormatIno then some f.encode
  else if i = freshWatermarkIno then some record.encode
  else if i = freshLockIno then some []
  else none

def freshWorld (f : FormatRecord) (record : WatermarkRecord) : World where
  dirs := fun p => ((freshTree f).find? fun x => x.1 = p).map Prod.snd
  inodes := fun i => (freshFile f record i).map fun b => ⟨b, some b, 1, 0⟩
  syncedDirs := fun id =>
    (((freshTree f).find? fun x => x.2.id = id).map fun x => x.2.entries).getD ∅
  nextId := freshShardId f.shardCount.toNat
  locks := fun _ => none
  drawn := []

/-! ## 2. It is a tree -/

theorem lookup_entriesOf (l : List (Name × Node)) (n : Name) :
    (entriesOf l).lookup n = (l.find? fun x => x.1 = n).map Prod.snd := by
  induction l with
  | nil => rfl
  | cons x l ih =>
    simp only [entriesOf, List.foldr_cons, List.find?_cons] at ih ⊢
    by_cases h : x.1 = n
    · subst h
      simp
    · simp [h, ih, Ne.symm h]

theorem find_zipIdx {l : List Name} {n : Name} {x : Name × Nat}
    (h : (l.zipIdx.find? fun x => x.1 = n) = some x) : x.1 = n ∧ l[x.2]? = some n := by
  have hx : x.1 = n := by simpa using List.find?_some h
  have hm := List.mem_of_find?_eq_some h
  rw [List.mem_zipIdx_iff_getElem?] at hm
  exact ⟨hx, hx ▸ hm⟩

theorem find_never {α : Type} (l : List α) : (l.find? fun _ => false) = none := by simp

section Tree

variable (f : FormatRecord) (record : WatermarkRecord)

theorem dirs_root : (freshWorld f record).dirs [] =
    some ⟨1, entriesOf ((formatName, .file freshFormatIno) ::
      stateDirectories.zipIdx.map fun p => (p.1, .dir (2 + p.2)))⟩ := rfl

theorem dirs_state (s : Name) : (freshWorld f record).dirs [s] =
    (stateDirectories.zipIdx.find? fun x => x.1 = s).map fun x =>
      ⟨2 + x.2, freshEntries f x.1⟩ := by
  simp only [freshWorld, freshTree, List.find?_cons, List.find?_append, List.find?_map]
  simp [find_never, Function.comp_def]

theorem dirs_shard (s n : Name) : (freshWorld f record).dirs [s, n] =
    if s = State.ready.dirName then
      ((shardNames f).zipIdx.find? fun x => x.1 = n).map fun x => ⟨freshShardId x.2, ∅⟩
    else none := by
  simp only [freshWorld, freshTree, List.find?_cons, List.find?_append, List.find?_map]
  by_cases hs : s = State.ready.dirName
  · simp [find_never, Function.comp_def, hs]
  · simp [find_never, hs, Ne.symm hs]

theorem dirs_deep (s n m : Name) (p : Path) :
    (freshWorld f record).dirs (s :: n :: m :: p) = none := by
  simp [freshWorld, freshTree, List.find?_map]

/-- The identities of the directories, by depth. -/
theorem idAt_fresh {p : Path} {id : DirId} (h : (freshWorld f record).idAt p = some id) :
    ∃ k : Nat, k = id ∧ ((p = [] ∧ k = 1) ∨
      (∃ s i, p = [s] ∧ stateDirectories[i]? = some s ∧ i < 8 ∧ k = 2 + i) ∨
      ∃ n i, p = [State.ready.dirName, n] ∧ (shardNames f)[i]? = some n ∧
        i < f.shardCount.toNat ∧ k = 16 + i) := by
  rw [World.idAt, Option.map_eq_some_iff] at h
  obtain ⟨node, hnode, rfl⟩ := h
  obtain _ | ⟨s, _ | ⟨n, _ | ⟨m, p⟩⟩⟩ := p
  · cases hnode
    exact ⟨_, rfl, .inl ⟨rfl, rfl⟩⟩
  · rw [dirs_state] at hnode
    obtain ⟨x, hx, rfl⟩ := Option.map_eq_some_iff.mp hnode
    have hs := (find_zipIdx hx).2
    exact ⟨_, rfl, .inr (.inl ⟨s, x.2, rfl, hs, (List.getElem?_eq_some_iff.mp hs).1, rfl⟩)⟩
  · rw [dirs_shard] at hnode
    split at hnode
    · rename_i hs
      obtain ⟨x, hx, rfl⟩ := Option.map_eq_some_iff.mp hnode
      have hn := (find_zipIdx hx).2
      have hlt : x.2 < f.shardCount.toNat := by
        simpa [shardNames] using (List.getElem?_eq_some_iff.mp hn).1
      exact ⟨_, rfl, .inr (.inr ⟨n, x.2, by rw [hs], hn, hlt, rfl⟩)⟩
    · cases hnode
  · rw [dirs_deep] at hnode
    cases hnode

theorem entry_root (n : Name) : (freshWorld f record).entry [] n =
    if n = formatName then some (.file freshFormatIno)
    else (stateDirectories.zipIdx.find? fun x => x.1 = n).map fun x => .dir (2 + x.2) := by
  rw [World.entry, dirs_root, Option.bind_some, lookup_entriesOf, List.find?_cons, List.find?_map]
  by_cases h : n = formatName
  · simp [h]
  · simp [h, Ne.symm h, Function.comp_def]

theorem entry_state (s n : Name) : (freshWorld f record).entry [s] n =
    if s ∈ stateDirectories then (freshEntries f s).lookup n else none := by
  rw [World.entry, dirs_state]
  cases hx : stateDirectories.zipIdx.find? fun x => x.1 = s with
  | none =>
    have hs : s ∉ stateDirectories := by
      intro hs
      obtain ⟨i, hi⟩ := List.mem_iff_getElem?.mp hs
      have := List.find?_eq_none.mp hx (s, i) (List.mem_zipIdx_iff_getElem?.mpr hi)
      simp at this
    rw [if_neg hs]
    rfl
  | some x =>
    obtain ⟨hx₁, hx₂⟩ := find_zipIdx hx
    rw [if_pos (List.mem_of_getElem? hx₂), ← hx₁]
    rfl

theorem entry_shard (s n m : Name) : (freshWorld f record).entry [s, n] m = none := by
  rw [World.entry, dirs_shard]
  split
  · cases (shardNames f).zipIdx.find? fun x => x.1 = n <;> rfl
  · rfl

theorem lookup_freshEntries (s n : Name) : (freshEntries f s).lookup n =
    if s = State.ready.dirName then
      ((shardNames f).zipIdx.find? fun x => x.1 = n).map fun x => .dir (freshShardId x.2)
    else if [s] = controlPath then
      if n = watermarkName then some (.file freshWatermarkIno)
      else if n = recoveryLockName then some (.file freshLockIno) else none
    else none := by
  unfold freshEntries
  split
  · rw [lookup_entriesOf, List.find?_map]
    simp [Function.comp_def]
  · split
    · rw [lookup_entriesOf, List.find?_cons, List.find?_cons]
      by_cases h₁ : n = watermarkName
      · simp [h₁]
      · by_cases h₂ : n = recoveryLockName
        · subst h₂
          simp [h₁, Ne.symm h₁]
        · simp [h₁, h₂, Ne.symm h₁, Ne.symm h₂]
    · rfl

/-- **A fresh queue is a tree.** -/
theorem tree_freshWorld : (freshWorld f record).Tree where
  root := rfl
  nested p n id := by
    obtain _ | ⟨s, _ | ⟨m, _ | ⟨l, p⟩⟩⟩ := p
    · have hformat : (stateDirectories.zipIdx.find? fun x => x.1 = formatName) = none := by
        decide
      rw [entry_root, List.nil_append, World.idAt, dirs_state, Option.map_map]
      by_cases hn : n = formatName
      · rw [if_pos hn, hn, hformat]
        exact iff_of_false (fun h => by cases h) fun h => by cases h
      · rw [if_neg hn]
        simp [Option.map_eq_some_iff]
    · rw [entry_state, lookup_freshEntries, World.idAt]
      show _ ↔ Option.map _ ((freshWorld f record).dirs [s, n]) = _
      rw [dirs_shard]
      by_cases hs : s = State.ready.dirName
      · have hmem : State.ready.dirName ∈ stateDirectories := by decide
        simp [hs, hmem, Option.map_eq_some_iff]
      · simp only [if_neg hs, Option.map_none]
        refine iff_of_false (fun h => ?_) fun h => by cases h
        repeat' split at h
        all_goals cases h
    · rw [entry_shard, World.idAt]
      show _ ↔ Option.map _ ((freshWorld f record).dirs [s, m, n]) = _
      rw [dirs_deep]
      exact iff_of_false (fun h => by cases h) fun h => by cases h
    · rw [World.entry, dirs_deep, World.idAt, List.cons_append, List.cons_append, List.cons_append,
        dirs_deep]
      exact iff_of_false (fun h => by cases h) fun h => by cases h
  files p n i h := by
    have hfile : i = freshFormatIno ∨ i = freshWatermarkIno ∨ i = freshLockIno := by
      obtain _ | ⟨s, _ | ⟨m, _ | ⟨l, p⟩⟩⟩ := p
      · rw [entry_root] at h
        split at h
        · cases h
          exact .inl rfl
        · obtain ⟨x, -, hx⟩ := Option.map_eq_some_iff.mp h
          cases hx
      · rw [entry_state, lookup_freshEntries] at h
        split at h
        · split at h
          · obtain ⟨x, -, hx⟩ := Option.map_eq_some_iff.mp h
            cases hx
          · split at h
            · split at h
              · cases h
                exact .inr (.inl rfl)
              · split at h
                · cases h
                  exact .inr (.inr rfl)
                · cases h
            · cases h
        · cases h
      · rw [entry_shard] at h
        cases h
      · rw [World.entry, dirs_deep] at h
        cases h
    rcases hfile with rfl | rfl | rfl <;> rfl
  inodes i h := by
    have hi : (freshFile f record i).isSome := by
      rw [← Option.isSome_map]
      exact h
    have hle : i ≤ 12 := by
      rw [freshFile] at hi
      by_contra hgt
      have h₁ : i ≠ freshFormatIno := fun h => hgt (h ▸ by decide)
      have h₂ : i ≠ freshWatermarkIno := fun h => hgt (h ▸ by decide)
      have h₃ : i ≠ freshLockIno := fun h => hgt (h ▸ by decide)
      rw [if_neg h₁, if_neg h₂, if_neg h₃] at hi
      cases hi
    exact Nat.lt_of_le_of_lt hle (Nat.lt_of_lt_of_le (by decide) (Nat.le_add_right 16 _))
  ids p id h := by
    obtain ⟨k, rfl, hk⟩ := idAt_fresh f record h
    show k < 16 + f.shardCount.toNat
    rcases hk with ⟨-, rfl⟩ | ⟨s, i, -, -, hi, rfl⟩ | ⟨n, i, -, -, hi, rfl⟩ <;> omega
  distinct p q id hp hq := by
    obtain ⟨k, rfl, hk⟩ := idAt_fresh f record hp
    obtain ⟨l, hl, hl'⟩ := idAt_fresh f record hq
    obtain rfl : l = k := hl
    rcases hk with ⟨rfl, rfl⟩ | ⟨s, i, rfl, hi, hlt, rfl⟩ | ⟨n, i, rfl, hi, hlt, rfl⟩ <;>
      rcases hl' with ⟨rfl, h⟩ | ⟨s', j, rfl, hj, hlt', h⟩ | ⟨n', j, rfl, hj, hlt', h⟩
    -- identities of different depths differ
    all_goals try omega
    · rfl
    · obtain rfl : i = j := by omega
      rw [hi] at hj
      cases hj
      rfl
    · obtain rfl : i = j := by omega
      rw [hi] at hj
      cases hj
      rfl

end Tree

/-! ## 3. Handles and configurations -/

/-- `init_synced_directories`. -/
def initSyncedDirectories (f : FormatRecord) : List Path :=
  stateDirectories.map ([·]) ++ (shardNames f).map fun s => [State.ready.dirName, s]

/-- `Queue::open` bounds the receipts a duplicate acknowledgment has to probe. -/
def retentionIsAccepted (retentionNs terminalWidthNs : UInt64) : Bool :=
  match ceilingBucket retentionNs terminalWidthNs with
  | none => false
  | some buckets => min (buckets.toNat + 2) (2 ^ 64 - 1) ≤ 4096

/-- A handle that was just opened. -/
structure Opened (f : FormatRecord) (h : Handle) : Prop where
  format : h.format = f
  boot : bootIdBytes h.bootId = some h.bootIdBytes
  poisoned : h.poisoned = none
  retention : retentionIsAccepted h.options.receiptRetentionNs f.terminalBucketWidthNs = true
  floor : h.cachedWallFloor = none
  watermark : h.cachedWatermarkFd = none
  known : h.knownDirs = initSyncedDirectories f
  destination : h.cachedDestFd = none
  dirty : h.dirty = .empty

/-- Every handle is open and idle on a queue without jobs. -/
structure Fresh (f : FormatRecord) (c : QueueConfig) : Prop where
  world : ∃ record, c.world = freshWorld f record
  threads : ∀ t, ∃ h, c.threads t = .idle h ∧ Opened f h
  past : c.past = []

/-! ## 4. Runs in which nothing fails -/

/-- What an environment in which nothing fails chooses: the clocks show `now`, random values are
    new, and a directory is listed in the order of its entries. -/
def Act.usual (now : UInt64) (w : World) : Act → Choice
  | .look .clockRealtime => .time now
  | .look .clockBoottime => .time now
  | .look .clockMonotonic => .time now
  | .look (.readDir d) => .names (((w.live d).map fun n => n.entries.keys).getD [])
  | .look (.nextEntry d p) =>
    .next (((w.live d).bind fun n => n.entries.keys[p]?).map fun name => (name, p + 1))
  | .random128 => .draw ⟨beBytes 16 (w.drawn.length + 1), beBytes_length 16 _⟩
  | _ => .plain

/-- The same, with the failures `bad` asks for. -/
def Act.failing (bad : Act → Option IoError) (now : UInt64) (w : World) (a : Act) : Choice :=
  match bad a with
  | some e => .fault e
  | none => a.usual now w

/-- The record in `control/wall-watermark`, if there is one and it decodes. -/
def World.watermark (w : World) : Option WatermarkRecord :=
  (w.fileAt controlPath watermarkName).bind fun i =>
    (w.inodes i).bind fun n => (WatermarkRecord.decode n.data).toOption

/-! ## 5. A cursor format -/

section Cursor

open Coder

def phaseCoder : Coder RecoveryPhase :=
  nat.via RecoveryPhase.ctorIdx (fun n => [.reapLeases, .promoteDelayed, .cleanupTemp,
    .compactReceipts].getD n .deleteReceipts) fun p => by cases p <;> rfl

def retryKindCoder : Coder RecoveryHierarchyRetryKind :=
  nat.via RecoveryHierarchyRetryKind.ctorIdx (fun n => if n = 0 then .open else .enumerate)
    fun k => by cases k <;> rfl

def threeLevelCoder : Coder ThreeLevelCursor :=
  (bytes.pair (bytes.pair bytes)).via (fun c => (c.first, c.second, c.resumeAfter))
    (fun x => ⟨x.1, x.2.1, x.2.2⟩) fun _ => rfl

def fourLevelCoder : Coder FourLevelCursor :=
  (bytes.pair (bytes.pair (bytes.pair bytes))).via
    (fun c => (c.first, c.second, c.third, c.resumeAfter))
    (fun x => ⟨x.1, x.2.1, x.2.2.1, x.2.2.2⟩) fun _ => rfl

def hierarchyRetryCoder : Coder RecoveryHierarchyRetry :=
  (phaseCoder.pair (retryKindCoder.pair bytes.list)).via (fun c => (c.phase, c.kind, c.components))
    (fun x => ⟨x.1, x.2.1, x.2.2⟩) fun _ => rfl

def shardCoder : Coder UInt32 := nat.via UInt32.toNat UInt32.ofNat fun _ => UInt32.ofNat_toNat

def cursorCoder : Coder RecoveryCursor :=
  (phaseCoder.pair (fourLevelCoder.option.pair (shardCoder.option.pair (nat.option.pair
    (threeLevelCoder.option.pair (threeLevelCoder.option.pair (threeLevelCoder.option.pair
    (threeLevelCoder.option.pair (hierarchyRetryCoder.list.pair (hierarchyRetryCoder.list.pair
    phaseCoder.list)))))))))).via
    (fun c => (c.phase, c.reapLeases, c.reapColocatedShard, c.reapColocatedPosition,
      c.promoteDelayed, c.cleanupTemp, c.compactReceipts, c.deleteReceipts, c.hierarchyRetries,
      c.hierarchyRetryFrontiers, c.hierarchyRetryOverflow))
    (fun ⟨a, b, c, d, e, f, g, h, i, j, k⟩ => ⟨a, b, c, d, e, f, g, h, i, j, k⟩) fun _ => rfl

def cursorRecordCoder : Coder RecoveryCursorRecord :=
  (bytes.pair (nat.pair (bytes.pair cursorCoder))).via
    (fun r => (r.schema, r.version.toNat, r.queueId, r.cursor))
    (fun x => ⟨x.1, UInt16.ofNat x.2.1, x.2.2.1, x.2.2.2⟩)
    fun r => by rw [UInt16.ofNat_toNat]

end Cursor

/-- A format for cursor files. -/
def sampleCodec : CursorCodec where
  encode := fun r => cursorRecordCoder.put r []
  decode := fun b => match cursorRecordCoder.get b with
    | some (r, _) => .ok r
    | none => .error "invalid cursor"
  decode_encode := fun r => by rw [cursorRecordCoder.get_put]

/-! ## 6. A sample queue -/

/-- `n` equal bytes. -/
def filled (n : Nat) (x : UInt8) : Octets n := ⟨List.replicate n x, List.length_replicate⟩

/-- One shard, and one minute for every width. -/
def sampleFormat : FormatRecord where
  queueId := filled 16 1
  createdAtUnixNs := 0
  shardCount := 1
  leaseBucketWidthNs := 60000000000
  delayedBucketWidthNs := 60000000000
  terminalBucketWidthNs := 60000000000
  maxPayloadLength := 1000
  shards := by decide
  leaseWidth := by decide
  delayedWidth := by decide
  terminalWidth := by decide
  divides := by decide
  payload := by decide

/-- A strict handle that keeps no receipts longer than it has to. -/
def sampleHandle : Handle where
  format := sampleFormat
  bootId := ascii "11111111-1111-1111-1111-111111111111"
  bootIdBytes := filled 16 17
  poisoned := none
  scanRound := 0
  readyShardHint := none
  workerNonce := filled 16 2
  options := ⟨0, 0, false⟩
  recoveryCursor := .default
  cachedWallFloor := none
  cachedWatermarkFd := none
  knownDirs := initSyncedDirectories sampleFormat
  cachedDestFd := none
  publicationMode := none
  dirty := .empty

/-- Some lease of the sample queue. -/
def sampleLease : LeaseInfo :=
  ⟨filled 16 3, filled 32 0, 1, 1, 3, filled 16 4, sampleHandle.bootId, 0, 0, [], 0, filled 32 0,
    1, 1, []⟩

theorem opened_sampleHandle : Opened sampleFormat sampleHandle where
  format := rfl
  boot := by decide
  poisoned := rfl
  retention := by decide
  floor := rfl
  watermark := rfl
  known := rfl
  destination := rfl
  dirty := rfl

/-- Every handle is a sample handle; the watermark is at bucket 0. -/
def sampleConfig : QueueConfig := ⟨freshWorld sampleFormat ⟨0, 0⟩, fun _ => .idle sampleHandle, []⟩

theorem fresh_sampleConfig : Fresh sampleFormat sampleConfig :=
  ⟨⟨_, rfl⟩, fun _ => ⟨_, rfl, opened_sampleHandle⟩, rfl⟩

/-- Three attempts, three bytes. -/
def sampleJob : EnqueueInput := ⟨3, ⟨ascii "a/b", rfl⟩, .empty, none, none, none, [1, 2, 3]⟩

/-- The handle of a thread that is idle. -/
def handleOf (c : QueueConfig) (t : Tid) : Option Handle :=
  match c.threads t with
  | .idle h => some h
  | _ => none

theorem idle_of_handleOf {c : QueueConfig} {t : Tid} {h : Handle} (hh : handleOf c t = some h) :
    c.threads t = .idle h := by
  unfold handleOf at hh
  split at hh
  · rename_i hidle
    cases hh
    exact hidle
  · cases hh

/-- The result returned last. -/
def lastResult (c : QueueConfig) : Option OpResult :=
  match c.past with
  | ⟨.returned _ _ r _, _⟩ :: _ => some r
  | _ => none

end SteadQ
