/-
  File:      SteadQ/Law.lean
  Subject:   WHAT ONE CALL MAY DO TO THE FILE SYSTEM.

  `law` is a discipline: a ghost state that watches the system calls of one operation of one
  handle, and for every call the condition under which it is admitted. It is proved of the code
  function by function, whatever the other handles do in between; every property of runs of many
  handles is then derived from it and from the effects of the system calls.
-/
import SteadQ.Ops

namespace SteadQ

open Octet Interact

/-! ## 1. Names and places -/

/-- The state and the common fields of an entry below a state directory. Leased objects live
    next to the ready ones; the two kinds of names do not overlap. -/
def jobName (path : Path) (name : Name) : Option (ProtocolState × CommonFields) :=
  match path.head? with
  | none => none
  | some root =>
    if root = State.ready.dirName then
      match parseReady name, parseLeased name with
      | .ok p, _ => some (.ready, p.common)
      | _, .ok p => some (.leased, p.common)
      | _, _ => none
    else if root = State.leased.dirName then
      (parseLeased name).toOption.map fun p => (.leased, p.common)
    else if root = State.delayed.dirName then
      (parseDelayed name).toOption.map fun p => (.delayed, p.common)
    else if root = State.dead.dirName then
      (parseDead name).toOption.map fun p => (.dead, p.common)
    else if root = State.receipt.dirName then
      (parseReceipt name).toOption.map fun p => (.receipt, p.common)
    else none

/-- The layout of a queue; the boot id only matters for the boot of a handle. -/
def FormatRecord.layout (f : FormatRecord) : Layout :=
  ⟨f.queueId, f.shardCount, f.leaseBucketWidthNs, f.delayedBucketWidthNs,
    f.terminalBucketWidthNs, []⟩

/-- Where a job can go, apart from quarantine. -/
inductive Landing where
  | ready
  | leased (bootId : Bytes) (boottimeDeadlineNs wallDeadlineNs : UInt64) (token : Octets 16)
  | delayed (notBeforeNs : UInt64)
  | receipt (token : Octets 16) (bucket : UInt64)
  | dead (reason : UInt16) (bucket : UInt64)

namespace Landing

def state : Landing → ProtocolState
  | .ready => .ready
  | .leased .. => .leased
  | .delayed _ => .delayed
  | .receipt .. => .receipt
  | .dead .. => .dead

def target (f : FormatRecord) (c : CommonFields) : Landing → Option Target
  | .ready => some (f.layout.ready c)
  | .leased bootId boottime wall token =>
    (f.layout.leasedForBoot c bootId boottime wall token).toOption
  | .delayed nb => (f.layout.delayed c nb).toOption
  | .receipt token bucket => some (f.layout.receiptInBucket c token bucket)
  | .dead reason bucket => some (f.layout.deadInBucket c reason bucket)

end Landing

/-- A name in the layout for job fields `c`. -/
def LandsAt (f : FormatRecord) (l : Landing) (c : CommonFields) (path : Path) (name : Name) :
    Prop :=
  ∃ t, l.target f c = some t ∧ path = t.directory ∧ name = t.filename

section JobName

variable {path : Path} {name : Name} {rest : Path}

theorem jobName_ready {p : ReadyName} (h : parseReady name = .ok p) :
    jobName (State.ready.dirName :: rest) name = some (.ready, p.common) := by
  simp only [jobName, List.head?_cons, if_true, h]

theorem jobName_colocated {p : LeasedName} (h : parseLeased name = .ok p) :
    jobName (State.ready.dirName :: rest) name = some (.leased, p.common) := by
  obtain ⟨e, he⟩ := parseReady_of_parseLeased h
  simp only [jobName, List.head?_cons, if_true, he, h]

theorem jobName_leased {p : LeasedName} (h : parseLeased name = .ok p) :
    jobName (State.leased.dirName :: rest) name = some (.leased, p.common) := by
  have hne : State.leased.dirName ≠ State.ready.dirName := by decide
  simp only [jobName, List.head?_cons, if_neg hne, if_true, h]
  rfl

theorem jobName_delayed {p : DelayedName} (h : parseDelayed name = .ok p) :
    jobName (State.delayed.dirName :: rest) name = some (.delayed, p.common) := by
  have h₁ : State.delayed.dirName ≠ State.ready.dirName := by decide
  have h₂ : State.delayed.dirName ≠ State.leased.dirName := by decide
  simp only [jobName, List.head?_cons, if_neg h₁, if_neg h₂, if_true, h]
  rfl

theorem jobName_dead {p : DeadName} (h : parseDead name = .ok p) :
    jobName (State.dead.dirName :: rest) name = some (.dead, p.common) := by
  have h₁ : State.dead.dirName ≠ State.ready.dirName := by decide
  have h₂ : State.dead.dirName ≠ State.leased.dirName := by decide
  have h₃ : State.dead.dirName ≠ State.delayed.dirName := by decide
  simp only [jobName, List.head?_cons, if_neg h₁, if_neg h₂, if_neg h₃, if_true, h]
  rfl

theorem jobName_receipt {p : ReceiptName} (h : parseReceipt name = .ok p) :
    jobName (State.receipt.dirName :: rest) name = some (.receipt, p.common) := by
  have h₁ : State.receipt.dirName ≠ State.ready.dirName := by decide
  have h₂ : State.receipt.dirName ≠ State.leased.dirName := by decide
  have h₃ : State.receipt.dirName ≠ State.delayed.dirName := by decide
  have h₄ : State.receipt.dirName ≠ State.dead.dirName := by decide
  simp only [jobName, List.head?_cons, if_neg h₁, if_neg h₂, if_neg h₃, if_neg h₄, if_true, h]
  rfl

end JobName

/-- **The name of a landing says its state and its fields.** -/
theorem jobName_of_landsAt {f : FormatRecord} {l : Landing} {c : CommonFields} {path : Path}
    {name : Name} (h : LandsAt f l c path name) : jobName path name = some (l.state, c) := by
  obtain ⟨t, ht, rfl, rfl⟩ := h
  cases l with
  | ready =>
    cases ht
    exact jobName_ready (parseReady_tagged c _)
  | leased bootId boottime wall token =>
    simp only [Landing.target, Layout.leasedForBoot] at ht
    split at ht
    · cases ht
    · split at ht
      · cases ht
      · rename_i filename hname
        cases ht
        simp only [makeLeasedName, Option.bind_eq_bind, Option.bind_eq_some_iff,
          Option.some.injEq] at hname
        obtain ⟨bootBytes, -, rfl⟩ := hname
        exact jobName_colocated (parseLeased_tagged c bootBytes boottime wall token _)
  | delayed nb =>
    simp only [Landing.target, Layout.delayed] at ht
    split at ht
    · cases ht
    · cases ht
      exact jobName_delayed (parseDelayed_tagged c nb _)
  | receipt token bucket =>
    cases ht
    exact jobName_receipt (parseReceipt_tagged c token _)
  | dead reason bucket =>
    cases ht
    exact jobName_dead (parseDead_tagged c reason _)

/-! ## 2. Operations -/

/-- The transitions an operation can make. -/
def Op.permits : Op → Operation → Bool
  | .lease .., op => op = .claim ∨ op = .exhaustedReadyCleanup
  | .ack .., op => op = .acknowledge
  | .renew .., op => op = .renew
  | .retryNow _, op => op = .retryNow ∨ op = .bury
  | .retryAt .., op => op = .retryNow ∨ op = .retryLater ∨ op = .bury
  | .retryAfter .., op => op = .retryNow ∨ op = .retryLater ∨ op = .bury
  | .retryWithPolicy .., op => op = .retryNow ∨ op = .retryLater ∨ op = .bury
  | .bury .., op => op = .bury
  | .recover .., op => op = .promote ∨ op = .reapExpiredToReady ∨ op = .reapExpiredToDead
  | _, _ => false

/-- Recovery is the one operation that takes things away: receipts, stale temporary files and
    empty directories. -/
def Op.recovers : Op → Bool
  | .recover .. => true
  | _ => false

/-! ## 3. Ghost states -/

/-- A file this call created and has not given away. -/
structure OwnFile where
  ino : Ino
  place : Option (Path × Name)

structure Ghost where
  op : Op
  own : List OwnFile
  /-- Random values drawn and not used for a name, newest first. -/
  drawn : List (Octets 16)
  /-- Whether the call has renamed an entry without replacement. -/
  moved : Bool
  /-- Jobs claimed by the call, newest first. -/
  claims : List (Octets 16)

namespace Ghost

def enter (op : Op) (_ : Handle) : Ghost := ⟨op, [], [], false, []⟩

def ownAt (g : Ghost) (path : Path) (name : Name) : Option OwnFile :=
  g.own.find? fun o => o.place = some (path, name)

/-- A file that got its final name. -/
def giveAway (g : Ghost) (path : Path) (name : Name) : Ghost :=
  { g with own := g.own.filter fun o => o.place ≠ some (path, name) }

/-- The job id of a published name is used up. -/
def useJobId (g : Ghost) (path : Path) (name : Name) : Ghost :=
  match jobName path name with
  | some (_, c) => { g with drawn := g.drawn.filter (· ≠ c.jobId) }
  | none => g

end Ghost

/-- A claim moves a ready name to a leased one. -/
def claimOf (src : Path) (srcName : Name) (dst : Path) (dstName : Name) : Option (Octets 16) :=
  match jobName src srcName, jobName dst dstName with
  | some (.ready, c), some (.leased, _) => some c.jobId
  | _, _ => none

def Ghost.next (g : Ghost) : (a : Act) → a.Resp → Ghost
  | .random128, .ok b => { g with drawn := b :: g.drawn }
  | .openTmpfile _, .ok i => { g with own := ⟨i, none⟩ :: g.own }
  | .createExclusive d n, .ok i =>
    { g with
      own := ⟨i, some (d.path, n)⟩ :: g.own
      drawn := if n = recoveryLockName then g.drawn else g.drawn.tail }
  | .linkat _ i d n, .ok () =>
    { g with own := g.own.filter fun o => o.ino ≠ i }.useJobId d.path n
  | .renameNoreplace s sn d dn, .ok () =>
    let moved := { g with moved := true, claims := (claimOf s.path sn d.path dn).toList ++ g.claims }
    if s.path.head? = some tmpRoot then (moved.giveAway s.path sn).useJobId d.path dn else moved
  | .renameat s sn _ _, .ok () => g.giveAway s.path sn
  | _, _ => g

/-! ## 4. What is admitted -/

variable (f : FormatRecord)

/-- A name under which the call may publish a new job. -/
def Ghost.Publishes (g : Ghost) (path : Path) (name : Name) : Prop :=
  ∃ l c, LandsAt f l c path name ∧ (l = .ready ∨ ∃ nb, l = .delayed nb) ∧ c.generation = 0 ∧
    c.attempt = 0 ∧ 1 ≤ c.maximumAttempts.toNat ∧ c.jobId ∈ g.drawn

/-- Files that may be removed: temporary ones, and receipts by recovery. -/
def Ghost.Unlinkable (g : Ghost) (path : Path) (name : Name) : Prop :=
  path.head? = some tmpRoot ∨
    (g.op.recovers = true ∧ path.head? = some State.receipt.dirName) ∨
    (path = controlPath ∧ name ≠ watermarkName)

/-- A fresh temporary name, made from the random value drawn last. -/
def Ghost.Creates (g : Ghost) (path : Path) (name : Name) : Prop :=
  (path = controlPath ∧ name = recoveryLockName) ∨
  ∃ r rest, g.drawn = r :: rest ∧
    ((path.head? = some tmpRoot ∧ ∃ boottime, name = tempFilename boottime r) ∨
      (path = controlPath ∧ (name = watermarkTempName r ∨ name = cursorTempName r)) ∨
      (g.op.recovers = true ∧ path.head? = some State.receipt.dirName ∧
        name = compactionTempName r))

/-- Operations that give a job back for another attempt, or hand it out, only take one that has
    attempts left. -/
def Operation.NeedsAttempts (op : Operation) : Prop :=
  op = .claim ∨ op = .retryNow ∨ op = .retryLater ∨ op = .reapExpiredToReady

instance (op : Operation) : Decidable op.NeedsAttempts :=
  inferInstanceAs (Decidable (_ ∨ _))

/-- What an operation asks of the attempts of a job. -/
structure Operation.Fits (op : Operation) (c : CommonFields) : Prop where
  left : op.NeedsAttempts → c.attempt < c.maximumAttempts
  spent : op = .exhaustedReadyCleanup → c.maximumAttempts ≤ c.attempt

/-- A transition of a job from one name to another. -/
structure Ghost.Transits (g : Ghost) (src : Path) (srcName : Name) (dst : Path) (dstName : Name)
    (op : Operation) (c c' : CommonFields) (l : Landing) : Prop where
  source : jobName src srcName = some ((transition op).source, c)
  succeeds : Succeeds op c c'
  state : l.state = (transition op).destination
  lands : LandsAt f l c' dst dstName
  permits : g.op.permits op = true
  attempts : op.Fits c

/-- State directories whose objects can be quarantined. -/
def quarantineSource (path : Path) : Prop :=
  ∃ root, path.head? = some root ∧ (root = State.ready.dirName ∨ root = State.leased.dirName ∨
    root = State.delayed.dirName ∨ root = State.receipt.dirName)

/-- Renames without replacement: an own temporary file is published, a job makes a transition,
    or an object is quarantined. An operation on a lease moves the entry at the exact path of
    the lease and no other. Recovery stays in the shard it finds a job in. -/
inductive Ghost.Moves (g : Ghost) (src : Path) (srcName : Name) (dst : Path) (dstName : Name) :
    Prop where
  | publish (o : OwnFile) (hown : g.ownAt src srcName = some o)
      (htmp : src.head? = some tmpRoot) (hpub : g.Publishes f dst dstName)
  | transit (op : Operation) (c c' : CommonFields) (l : Landing)
      (h : g.Transits f src srcName dst dstName op c c' l)
      (hscope : ∀ lease, g.op.leaseInfo = some lease → lease.exactSourcePath = src ++ [srcName])
  | restore (op : Operation) (c c' : CommonFields)
      (hsource : jobName src srcName = some ((transition op).source, c))
      (hsucceeds : Succeeds op c c')
      (hlands : jobName dst dstName = some ((transition op).destination, c'))
      (hpermits : g.op.permits op = true) (hrecovers : g.op.recovers = true)
      (hattempts : op.Fits c)
  | quarantine (id : Octets 16) (reason : UInt16) (hsrc : quarantineSource src)
      (hdst : dst = quarantinePath) (hname : dstName = quarantineFilename id reason)
      (hop : g.op.leaseInfo = none)

/-- Renames that may replace their destination: that of a receipt, of the cursor, or of the
    watermark, by a temporary file of the call. -/
def Ghost.Replaces (g : Ghost) (src : Path) (srcName : Name) (dst : Path) (dstName : Name) : Prop :=
  src = dst ∧ srcName ≠ recoveryLockName ∧ (g.ownAt src srcName).isSome ∧
    ((dst.head? = some State.receipt.dirName ∧ ∃ parsed, parseReceipt dstName = .ok parsed) ∨
      (dst = controlPath ∧ dstName = recoveryCursorFile) ∨
      (dst = controlPath ∧ dstName = watermarkName))

def Ghost.allow (g : Ghost) : Act → Prop
  | .unlinkatDir _ _ => g.op.recovers = true
  | .unlinkat d n => g.Unlinkable d.path n
  | .createExclusive d n => g.Creates d.path n
  | .write i _ => ∃ o ∈ g.own, o.ino = i
  | .pwrite i _ _ => ∃ o ∈ g.own, o.ino = i
  | .linkat _ i d n => (∃ o ∈ g.own, o.ino = i ∧ o.place = none) ∧ g.Publishes f d.path n
  | .renameNoreplace s sn d dn => g.Moves f s.path sn d.path dn
  | .renameat s sn d dn => g.Replaces s.path sn d.path dn
  | _ => True

/-- What every answer satisfies: a status is about the file asked for. -/
def honest : (a : Act) → a.Resp → Prop
  | .look (.fstat i), .ok stat => stat.ino = i ∧ stat.dev = device
  | _, _ => True

/-- **The law of one call.** -/
def law : Discipline Act.Resp Ghost where
  next := Ghost.next
  allow := Ghost.allow f
  expect := fun _ a r => honest a r

end SteadQ
