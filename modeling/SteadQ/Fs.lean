/-
  File:      SteadQ/Fs.lean
  Subject:   SYSTEM CALLS AND THE FILE SYSTEM THEY ACT ON (crate `steadq-fs-linux`).

  The queue's code is a program over two signatures: `Look` (calls that change nothing) and `Act`
  (a look, or a call with an effect). `World` is the file system: a tree of directories, each
  with an identity and entries, the inodes, the advisory locks, the random values already drawn,
  and what a power loss would leave of every directory and file.
-/
import Mathlib.Data.List.AList
import SteadQ.Lib.Program
import SteadQ.Format

namespace SteadQ

open Octet Interact

/-! ## 1. Signatures -/

abbrev Ino := Nat
abbrev DirId := Nat
abbrev HandleId := Nat

/-- An open directory. -/
structure Dir where
  path : Path
  id : DirId
  deriving DecidableEq

inductive FileKind where
  | regular
  | directory
  deriving DecidableEq, Repr

structure Stat where
  kind : FileKind
  nlink : Nat
  size : Nat
  dev : Nat
  ino : Nat
  deriving DecidableEq, Repr

/-- Calls that change nothing. -/
inductive Look where
  | clockRealtime
  | clockBoottime
  | clockMonotonic
  | openDirectory (base : Dir) (path : Path)
  | openAt (dir : Dir) (name : Name)
  | fstatat (dir : Dir) (name : Name)
  | fstat (file : Ino)
  | fstatDir (dir : Dir)
  | pread (file : Ino) (offset length : Nat)
  | readDir (dir : Dir)
  | nextEntry (dir : Dir) (position : Nat)
  deriving DecidableEq

@[reducible] def Look.Resp : Look → Type
  | .clockRealtime => Except IoError UInt64
  | .clockBoottime => Except IoError UInt64
  | .clockMonotonic => Except IoError UInt64
  | .openDirectory .. => Except IoError DirId
  | .openAt .. => Except IoError Ino
  | .fstatat .. => Except IoError Stat
  | .fstat _ => Except IoError Stat
  | .fstatDir _ => Except IoError Stat
  | .pread .. => Except IoError Bytes
  | .readDir _ => Except (IoError × List Name) (List Name)
  | .nextEntry .. => Except IoError (Option (Name × Nat))

structure WallFloor where
  unixNs : UInt64
  watermarkBucket : UInt64
  watermarkSequence : UInt64
  deriving DecidableEq, Repr

/-- Marks the code leaves in the history; they are not system calls and have no effect. -/
inductive Mark where
  | floorBegin
  | floorEnd (floor : Option WallFloor)
  deriving DecidableEq

inductive LockFile where
  | wallWatermark
  | recovery
  | file (ino : Ino)
  deriving DecidableEq, Repr

/-- How a temporary file is linked into place. -/
inductive LinkForm where
  | directAtEmptyPath
  | procSelfFd
  deriving DecidableEq, Repr

inductive Act where
  | look (l : Look)
  | random128
  | tryLock (lock : LockFile)
  | unlock (lock : LockFile)
  | mkdirat (dir : Dir) (name : Name)
  | unlinkatDir (dir : Dir) (name : Name)
  | unlinkat (dir : Dir) (name : Name)
  | openTmpfile (dir : Dir)
  | createExclusive (dir : Dir) (name : Name)
  | write (file : Ino) (data : Bytes)
  | pwrite (file : Ino) (data : Bytes) (offset : Nat)
  | fsync (file : Ino)
  | fsyncDir (dir : Dir)
  | linkat (form : LinkForm) (file : Ino) (dir : Dir) (name : Name)
  | renameNoreplace (src : Dir) (srcName : Name) (dst : Dir) (dstName : Name)
  | renameat (src : Dir) (srcName : Name) (dst : Dir) (dstName : Name)
  | mark (m : Mark)
  deriving DecidableEq

@[reducible] def Act.Resp : Act → Type
  | .look l => l.Resp
  | .random128 => Except IoError (Octets 16)
  | .tryLock _ => Except IoError Bool
  | .openTmpfile _ => Except IoError Ino
  | .createExclusive .. => Except IoError Ino
  | .mark _ => Unit
  | .unlock _ => Unit
  | _ => Except IoError Unit

/-- The answer of a call that fails for a reason of the environment. -/
def Look.failed : (l : Look) → IoError → l.Resp
  | .clockRealtime, e => .error e
  | .clockBoottime, e => .error e
  | .clockMonotonic, e => .error e
  | .openDirectory .., e => .error e
  | .openAt .., e => .error e
  | .fstatat .., e => .error e
  | .fstat _, e => .error e
  | .fstatDir _, e => .error e
  | .pread .., e => .error e
  | .readDir _, e => .error (e, [])
  | .nextEntry .., e => .error e

def Act.failed : (a : Act) → IoError → Option a.Resp
  | .look l, e => some (l.failed e)
  | .random128, e => some (.error e)
  | .tryLock _, e => some (.error e)
  | .unlock _, _ => none
  | .mkdirat .., e => some (.error e)
  | .unlinkatDir .., e => some (.error e)
  | .unlinkat .., e => some (.error e)
  | .openTmpfile _, e => some (.error e)
  | .createExclusive .., e => some (.error e)
  | .write .., e => some (.error e)
  | .pwrite .., e => some (.error e)
  | .fsync _, e => some (.error e)
  | .fsyncDir _, e => some (.error e)
  | .linkat .., e => some (.error e)
  | .renameNoreplace .., e => some (.error e)
  | .renameat .., e => some (.error e)
  | .mark _, _ => none

/-- Whether a call changes the content of file `i`. -/
def Act.writes (i : Ino) : Act → Bool
  | .write j _ => j = i
  | .pwrite j _ _ => j = i
  | _ => false

/-! ## 2. The file system -/

inductive Node where
  | file (ino : Ino)
  | dir (id : DirId)
  deriving DecidableEq

abbrev Entries := AList (fun _ : Name => Node)

structure DirNode where
  id : DirId
  entries : Entries

structure Inode where
  data : Bytes
  /-- The data of the last `fsync`, if there was one. -/
  synced : Option Bytes
  nlink : Nat
  /-- The handle that created the file. -/
  owner : HandleId

structure World where
  dirs : Path → Option DirNode
  inodes : Ino → Option Inode
  /-- The entries of each directory at its last `fsync`. -/
  syncedDirs : DirId → Entries
  nextId : Nat
  locks : LockFile → Option HandleId
  drawn : List (Octets 16)

/-- What the environment decides at a call. -/
inductive Choice where
  | plain
  | fault (e : IoError)
  | time (ns : UInt64)
  | draw (b : Octets 16)
  | names (l : List Name)
  | broken (l : List Name) (e : IoError)
  | next (o : Option (Name × Nat))
  deriving DecidableEq

/-- The device of the queue. -/
def device : Nat := 1

/-- The descriptor of the root. -/
def rootDir : Dir := ⟨[], 1⟩

namespace World

variable (w : World)

/-- The directory a descriptor stands for, while it exists. -/
def live (d : Dir) : Option DirNode :=
  match w.dirs d.path with
  | some n => if n.id = d.id then some n else none
  | none => none

def lookup (d : Dir) (name : Name) : Option Node :=
  (w.live d).bind fun n => n.entries.lookup name

/-- The file at a path, if any. -/
def fileAt (p : Path) (name : Name) : Option Ino :=
  match (w.dirs p).bind fun n => n.entries.lookup name with
  | some (.file i) => some i
  | _ => none

def setEntries (p : Path) (f : Entries → Entries) : World :=
  { w with dirs := fun q => if q = p then (w.dirs q).map fun n => { n with entries := f n.entries }
                            else w.dirs q }

def setInode (i : Ino) (f : Inode → Inode) : World :=
  { w with inodes := fun j => if j = i then (w.inodes j).map f else w.inodes j }

def statFile (i : Ino) : Option Stat :=
  (w.inodes i).map fun n => ⟨.regular, n.nlink, n.data.length, device, i⟩

def statNode : Node → Option Stat
  | .file i => w.statFile i
  | .dir id => some ⟨.directory, 2, 0, device, id⟩

/-! ## 3. Effects -/

/-- The answer to a look. A directory listing is not one instant, so it may be any list of
    names, and it may break off; a stream read finds one entry that is there now. -/
def answer : (l : Look) → Choice → Option l.Resp
  | .clockRealtime, .time ns => some (.ok ns)
  | .clockBoottime, .time ns => some (.ok ns)
  | .clockMonotonic, .time ns => some (.ok ns)
  | .openDirectory d p, .plain =>
    match (w.live d).bind fun _ => w.dirs (d.path ++ p) with
    | some n => some (.ok n.id)
    | none => some (.error .enoent)
  | .openAt d n, .plain =>
    match w.lookup d n with
    | some (.file i) => some (.ok i)
    | some (.dir id) => some (.ok id)
    | none => some (.error .enoent)
  | .fstatat d n, .plain =>
    match (w.lookup d n).bind w.statNode with
    | some st => some (.ok st)
    | none => some (.error .enoent)
  | .fstat i, .plain =>
    match w.statFile i with
    | some st => some (.ok st)
    | none => some (.ok ⟨.directory, 2, 0, device, i⟩)
  | .fstatDir d, .plain => some (.ok ⟨.directory, if (w.live d).isSome then 2 else 0, 0, device, d.id⟩)
  | .pread i o n, .plain =>
    match w.inodes i with
    | some node => some (.ok (slice node.data o n))
    | none => some (.error .eisdir)
  | .readDir _, .names l => some (.ok l)
  | .readDir _, .broken l e => some (.error (e, l))
  | .nextEntry _ _, .next none => some (.ok none)
  | .nextEntry d _, .next (some (n, p)) =>
    if (w.lookup d n).isSome then some (.ok (some (n, p))) else none
  | _, _ => none

section Answers

variable {w}

theorem answer_openDirectory {d : Dir} {root : DirNode} (h : w.live d = some root) (p : Path) :
    w.answer (.openDirectory d p) .plain = some (match w.dirs (d.path ++ p) with
      | some n => .ok n.id
      | none => .error .enoent) := by
  simp only [answer, h, Option.bind_some]
  cases w.dirs (d.path ++ p) <;> rfl

theorem answer_openAt (d : Dir) (name : Name) :
    w.answer (.openAt d name) .plain = some (match w.lookup d name with
      | some (.file i) => .ok i
      | some (.dir id) => .ok id
      | none => .error .enoent) := by
  simp only [answer]
  rcases w.lookup d name with _ | _ | _ <;> rfl

end Answers

/-- A fresh inode, owned by `h`. -/
def newInode (h : HandleId) (nlink : Nat) : Ino × World :=
  (w.nextId, { w with
    inodes := fun j => if j = w.nextId then some ⟨[], none, nlink, h⟩ else w.inodes j
    nextId := w.nextId + 1 })

def mkdir (d : Dir) (name : Name) : Except IoError Unit × World :=
  match w.live d with
  | none => (.error .enoent, w)
  | some node =>
    if (node.entries.lookup name).isSome then (.error .eexist, w)
    else
      let w' := w.setEntries d.path (·.insert name (.dir w.nextId))
      (.ok (), { w' with
        dirs := fun q => if q = d.path ++ [name] then some ⟨w.nextId, ∅⟩ else w'.dirs q
        syncedDirs := fun i => if i = w.nextId then ∅ else w.syncedDirs i
        nextId := w.nextId + 1 })

def rmdir (d : Dir) (name : Name) : Except IoError Unit × World :=
  match w.lookup d name with
  | none => (.error .enoent, w)
  | some (.file _) => (.error .enotdir, w)
  | some (.dir _) =>
    match w.dirs (d.path ++ [name]) with
    | none => (.error .enoent, w)
    | some child =>
      if child.entries.entries = [] then
        let w' := w.setEntries d.path (·.erase name)
        (.ok (), { w' with dirs := fun q => if q = d.path ++ [name] then none else w'.dirs q })
      else (.error .enotempty, w)

def unlink (d : Dir) (name : Name) : Except IoError Unit × World :=
  match w.lookup d name with
  | none => (.error .enoent, w)
  | some (.dir _) => (.error .eisdir, w)
  | some (.file i) =>
    (.ok (), (w.setEntries d.path (·.erase name)).setInode i fun n => { n with nlink := n.nlink - 1 })

def create (h : HandleId) (d : Dir) (name : Name) : Except IoError Ino × World :=
  match w.live d with
  | none => (.error .enoent, w)
  | some node =>
    if (node.entries.lookup name).isSome then (.error .eexist, w)
    else
      let (i, w') := w.newInode h 1
      (.ok i, w'.setEntries d.path (·.insert name (.file i)))

def link (i : Ino) (d : Dir) (name : Name) : Except IoError Unit × World :=
  match w.inodes i, w.live d with
  | none, _ => (.error .enoent, w)
  | some _, none => (.error .enoent, w)
  | some _, some node =>
    if (node.entries.lookup name).isSome then (.error .eexist, w)
    else
      (.ok (), (w.setEntries d.path (·.insert name (.file i))).setInode i fun n =>
        { n with nlink := n.nlink + 1 })

/-- Move the file entry `name` of `d` to `name'` of `d'`, where nothing is in the way. -/
def moveEntry (d : Dir) (name : Name) (d' : Dir) (name' : Name) (i : Ino) : World :=
  (w.setEntries d.path (·.erase name)).setEntries d'.path (·.insert name' (.file i))

/-- A directory is never renamed by the queue; the model refuses. -/
def renameNoreplace (d : Dir) (name : Name) (d' : Dir) (name' : Name) :
    Except IoError Unit × World :=
  match w.lookup d name, w.live d' with
  | none, _ => (.error .enoent, w)
  | some _, none => (.error .enoent, w)
  | some (.dir _), some _ => (.error .eisdir, w)
  | some (.file i), some node =>
    if (node.entries.lookup name').isSome then (.error .eexist, w)
    else (.ok (), w.moveEntry d name d' name' i)

def rename (d : Dir) (name : Name) (d' : Dir) (name' : Name) : Except IoError Unit × World :=
  match w.lookup d name, w.live d' with
  | none, _ => (.error .enoent, w)
  | some _, none => (.error .enoent, w)
  | some (.dir _), some _ => (.error .eisdir, w)
  | some (.file i), some node =>
    match node.entries.lookup name' with
    | some (.dir _) => (.error .eisdir, w)
    | some (.file j) =>
      if i = j then (.ok (), w)
      else (.ok (), (w.moveEntry d name d' name' i).setInode j fun n =>
        { n with nlink := n.nlink - 1 })
    | none => (.ok (), w.moveEntry d name d' name' i)

/-- A call of handle `h` that does not fail for a reason of the environment. -/
def apply (h : HandleId) : (a : Act) → Choice → Option (a.Resp × World)
  | .look l, c => (w.answer l c).map fun r => (r, w)
  | .random128, .draw b => if b ∈ w.drawn then none else some (.ok b, { w with drawn := b :: w.drawn })
  | .tryLock k, .plain =>
    if (w.locks k).isSome then some (.ok false, w)
    else some (.ok true, { w with locks := fun k' => if k' = k then some h else w.locks k' })
  | .unlock k, .plain =>
    some ((), { w with locks := fun k' => if k' = k ∧ w.locks k = some h then none else w.locks k' })
  | .mkdirat d n, .plain => some (w.mkdir d n)
  | .unlinkatDir d n, .plain => some (w.rmdir d n)
  | .unlinkat d n, .plain => some (w.unlink d n)
  | .openTmpfile d, .plain =>
    if (w.live d).isSome then
      let (i, w') := w.newInode h 0
      some (.ok i, w')
    else some (.error .enoent, w)
  | .createExclusive d n, .plain => some (w.create h d n)
  | .write i b, .plain => some (.ok (), w.setInode i fun n => { n with data := n.data ++ b })
  | .pwrite i b o, .plain =>
    some (.ok (), w.setInode i fun n =>
      { n with data := n.data.take o ++ b ++ n.data.drop (o + b.length) })
  | .fsync i, .plain => some (.ok (), w.setInode i fun n => { n with synced := some n.data })
  | .fsyncDir d, .plain =>
    match w.live d with
    | some node =>
      some (.ok (), { w with
        syncedDirs := fun k => if k = d.id then node.entries else w.syncedDirs k })
    | none => some (.ok (), w)
  | .linkat _ i d n, .plain => some (w.link i d n)
  | .renameNoreplace d n d' n', .plain => some (w.renameNoreplace d n d' n')
  | .renameat d n d' n', .plain => some (w.rename d n d' n')
  | .mark _, .plain => some ((), w)
  | _, _ => none

/-- A call of handle `h`: it fails, changing nothing, or has its effect. -/
def step (h : HandleId) (a : Act) (c : Choice) : Option (a.Resp × World) :=
  match c with
  | .fault e => (a.failed e).map fun r => (r, w)
  | c => w.apply h a c

/-- The end of a process: its locks are gone. -/
def release (h : HandleId) : World :=
  { w with locks := fun k => if w.locks k = some h then none else w.locks k }

end World

end SteadQ
