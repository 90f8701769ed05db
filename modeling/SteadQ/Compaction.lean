/-
  File:      SteadQ/Compaction.lean
  Subject:   COMPACTION KEEPS THE EVIDENCE OF AN ACKNOWLEDGMENT.

  A full receipt is the acknowledged job; its compact form is a record of fixed size under the
  same name. The two are checked by different code against different fields.
-/
import SteadQ.Probe
import SteadQ.Resolution
import SteadQ.Snapshot

namespace SteadQ

open Octet Interact
open Interact.Task (evalThen_ok eval_bind meets_bind meets_mapErr meets_pure then_ok)

/-! ## 1. The two forms of a receipt -/

section Forms

variable {format : FormatRecord} {context : ReceiptContext} {name : ReceiptName}
  {header : FixedHeader} {start : UInt64} {expected : Option ExpectedReceipt}

/-- The evidence both forms carry. -/
def EvidenceMatches (header : FixedHeader) (expected : Option ExpectedReceipt) : Prop :=
  ∀ e, expected = some e → header.envelopeDigest = e.envelopeDigest ∧
    header.payloadLength = e.payloadLength

theorem checkFullReceipt_eq_ok : checkFullReceipt format name expected header = .ok () ↔
    (header.jobId = name.common.jobId ∧ header.maximumAttempts = name.common.maximumAttempts) ∧
      header.payloadLength ≤ format.maxPayloadLength ∧ EvidenceMatches header expected := by
  unfold checkFullReceipt EvidenceMatches
  split
  · rename_i hfields
    simp only [reduceCtorEq, false_iff]
    exact fun h => hfields h.1
  · rename_i hfields
    split
    · rename_i hlimit
      simp only [reduceCtorEq, false_iff]
      exact fun h => hlimit h.2.1
    · rename_i hlimit
      rw [and_iff_right (not_not.mp hfields), and_iff_right (not_not.mp hlimit)]
      cases expected with
      | none => simp
      | some e =>
        simp only [Option.some.injEq, forall_eq']
        by_cases hmatch : header.envelopeDigest = e.envelopeDigest ∧
            header.payloadLength = e.payloadLength
        · simp [hmatch]
        · simp [hmatch]

/-- **Once the full form is accepted, the compact form meets the same expectations.** -/
theorem compact_check_iff (hfull : checkFullReceipt format name none header = .ok ()) :
    checkCompactReceipt format name start expected (compactReceiptOf name header start).encode =
      .ok () ↔ checkFullReceipt format name expected header = .ok () := by
  obtain ⟨hfields, hlimit, -⟩ := checkFullReceipt_eq_ok.mp hfull
  rw [checkFullReceipt_eq_ok, and_iff_right hfields, and_iff_right hlimit]
  have hpath : (compactReceiptOf name header start).jobId = name.common.jobId ∧
      (compactReceiptOf name header start).leaseToken = name.token ∧
      (compactReceiptOf name header start).finalAttempt = name.common.attempt ∧
      (compactReceiptOf name header start).receiptBucketStartUnixNs = start :=
    ⟨hfields.1, rfl, rfl, rfl⟩
  have hlength : (compactReceiptOf name header start).originalPayloadLength ≤
      format.maxPayloadLength := hlimit
  simp only [checkCompactReceipt, CompactReceipt.decode_encode, if_neg (not_not.mpr hpath),
    if_neg (not_not.mpr hlength), EvidenceMatches]
  cases expected with
  | none => simp
  | some e =>
    simp only [Option.some.injEq, forall_eq', compactReceiptOf]
    by_cases hmatch : header.envelopeDigest = e.envelopeDigest ∧
        header.payloadLength = e.payloadLength
    · simp [hmatch]
    · simp [hmatch]

/-- The start of the bucket does not overflow where a name is authentic. -/
theorem authenticateReceiptName_start {bucket : UInt64}
    (h : authenticateReceiptName format context = .ok (name, bucket, start)) :
    checkedMulU64 bucket format.terminalBucketWidthNs = some start := by
  unfold authenticateReceiptName at h
  repeat' split at h
  all_goals cases h
  assumption

/-- What the compact form of a receipt is accepted as. -/
def compactReceiptFor (receipt : VerifiedReceipt) (file : Ino) : VerifiedReceipt :=
  ⟨receipt.name, receipt.bucketNumber, .compact, device, file⟩

section Accepted

variable {file : Ino} {node node' : Inode} {receipt : VerifiedReceipt} {job : VerifiedJob}

/-- **The compact form of an accepted full receipt is accepted in its place, and for every
    expectation the one is accepted exactly if the other is.** -/
theorem AcceptedReceipt.compacted (hfull : AcceptedReceipt format context none file node receipt)
    (file' : Ino) (hkind : receipt.kind = .full job)
    (hplace : authenticateReceiptName format context =
      .ok (receipt.name, receipt.bucketNumber, start)) (hlink : node'.nlink = 1)
    (hdata : node'.data = (compactReceiptOf receipt.name job.header start).encode)
    (expected : Option ExpectedReceipt) :
    AcceptedReceipt format context expected file' node' (compactReceiptFor receipt file') ↔
      AcceptedReceipt format context expected file node receipt := by
  obtain ⟨hlink₀, -, hdevice, hinode, start', hplace', hbytes⟩ := hfull
  rw [hplace] at hplace'
  cases hplace'
  rw [hkind] at hbytes
  obtain ⟨hsize, hnot, header, hintact, rfl, hcheck⟩ := hbytes
  have hlen : node'.data.length = compactReceiptSize := by rw [hdata, CompactReceipt.encode_length]
  have hslice : slice node'.data 0 compactReceiptSize = node'.data := by
    rw [slice, List.drop_zero, ← hlen, List.take_length]
  have hcompact : isCompactReceipt node'.data.length (slice node'.data 0 compactReceiptSize) =
      true := by
    rw [hslice, hlen, hdata]
    exact decide_eq_true ⟨rfl, CompactReceipt.encode_magic _⟩
  have hverdict : checkCompactReceipt format receipt.name start expected
      (slice node'.data 0 compactReceiptSize) = .ok () ↔
        checkFullReceipt format receipt.name expected header = .ok () := by
    rw [hslice, hdata]
    exact compact_check_iff hcheck
  constructor
  · rintro ⟨-, hnamed, -, -, start', hplace', hbytes'⟩
    obtain rfl : start = start' := by
      have := hplace.symm.trans hplace'
      simpa [compactReceiptFor] using this
    refine ⟨hlink₀, hnamed, hdevice, hinode, start, hplace, ?_⟩
    rw [hkind]
    exact ⟨hsize, hnot, header, hintact, rfl, hverdict.mp hbytes'.2.2⟩
  · rintro ⟨-, hnamed, -, -, start', hplace', hbytes'⟩
    rw [hplace] at hplace'
    cases hplace'
    rw [hkind] at hbytes'
    obtain ⟨-, -, header', hintact', hjob, hcheck'⟩ := hbytes'
    obtain rfl := hintact.1.unique hintact'.1
    exact ⟨hlink, hnamed, rfl, rfl, start, hplace, hlen.ge, hcompact, hverdict.mpr hcheck'⟩

/-- A file is accepted as one receipt at most. -/
theorem AcceptedReceipt.unique {expected' : Option ExpectedReceipt} {receipt' : VerifiedReceipt}
    (h : AcceptedReceipt format context expected file node receipt)
    (h' : AcceptedReceipt format context expected' file node receipt') : receipt = receipt' := by
  obtain ⟨-, -, hdevice, hinode, start, hplace, hbytes⟩ := h
  obtain ⟨-, -, hdevice', hinode', start', hplace', hbytes'⟩ := h'
  obtain ⟨name, bucket, kind, dev, ino⟩ := receipt
  obtain ⟨name', bucket', kind', dev', ino'⟩ := receipt'
  rw [hplace] at hplace'
  cases hplace'
  obtain rfl : dev = dev' := hdevice.trans hdevice'.symm
  obtain rfl : ino = ino' := hinode.trans hinode'.symm
  have hkinds : kind = kind' := by
    cases kind with
    | compact =>
      cases kind' with
      | compact => rfl
      | full job => exact absurd (hbytes.2.1.symm.trans hbytes'.2.1) nofun
    | full job =>
      cases kind' with
      | compact => exact absurd (hbytes.2.1.symm.trans hbytes'.2.1) nofun
      | full job' =>
        obtain ⟨-, -, header, hintact, rfl, -⟩ := hbytes
        obtain ⟨-, -, header', hintact', rfl, -⟩ := hbytes'
        rw [hintact.1.unique hintact'.1]
  rw [hkinds]

end Accepted

end Forms

/-! ## 2. One file in the place of another -/

/-- The entry `n` of the directory at `p` led to file `i` and now leads to the new file `i'`. -/
structure Replaced (w w' : World) (p : Path) (n : Name) (i i' : Ino) (data : Bytes) : Prop where
  ids : ∀ q, w'.idAt q = w.idAt q
  source : w.entry p n = some (.file i)
  entries : ∀ q m, w'.entry q m = if q = p ∧ m = n then some (.file i') else w.entry q m
  inode : ∃ node, w'.inodes i' = some node ∧ node.nlink = 1 ∧ node.data = data
  others : ∀ j, j ≠ i → j ≠ i' → w'.inodes j = w.inodes j
  fresh : ∀ q m x, w.entry q m = some x → x.number ≠ i'

/-- A receipt that meets the expectation lies under a name. -/
def World.AcceptsAt (w : World) (format : FormatRecord) (bucket shard : Bytes) (name : Name)
    (expected : Option ExpectedReceipt) : Prop :=
  ∃ x node receipt, w.entry [receiptsRoot, bucket, shard] name = some x ∧
    w.inodes x.number = some node ∧
    AcceptedReceipt format ⟨bucket, shard, name⟩ expected x.number node receipt

/-- A full receipt that a compaction replaces: the directory, the name and what is there. -/
structure FullReceiptAt (w : World) (format : FormatRecord) (bucket shard : Bytes) (name : Name)
    (i : Ino) (receipt : VerifiedReceipt) (job : VerifiedJob) : Prop where
  entry : w.entry [receiptsRoot, bucket, shard] name = some (.file i)
  full : receipt.kind = .full job
  accepted : ∃ node, w.inodes i = some node ∧
    AcceptedReceipt format ⟨bucket, shard, name⟩ none i node receipt

section Replaced

variable {w w' : World} {h : Handle} {bucket shard : Bytes} {name : Name} {i i' : Ino}
  {receipt : VerifiedReceipt} {job : VerifiedJob} {start : UInt64}

/-- What the compaction of a receipt leaves. -/
abbrev Compacted (w w' : World) (format : FormatRecord) (bucket shard : Bytes) (name : Name)
    (i i' : Ino) (receipt : VerifiedReceipt) (job : VerifiedJob) (start : UInt64) : Prop :=
  authenticateReceiptName format ⟨bucket, shard, name⟩ =
      .ok (receipt.name, receipt.bucketNumber, start) ∧
    Replaced w w' [receiptsRoot, bucket, shard] name i i'
      (compactReceiptOf receipt.name job.header start).encode

/-- Under every other name the same file is found as before. -/
theorem Replaced.other {data : Bytes} {p : Path} {n : Name} (hr : Replaced w w' p n i i' data)
    (hapart : w.Apart) (hsingle : w.Single) {node : Inode} (hnode : w.inodes i = some node)
    (hlink : node.nlink = 1) {q : Path} {m : Name} (hne : ¬ (q = p ∧ m = n)) {x : Node}
    (hx : w.entry q m = some x) : w'.inodes x.number = w.inodes x.number := by
  refine hr.others _ ?_ (hr.fresh q m x hx)
  rintro rfl
  cases x with
  | file j =>
    obtain ⟨rfl, rfl⟩ := hsingle j node p n q m hnode hlink hr.source hx
    exact hne ⟨rfl, rfl⟩
  | dir id =>
    rw [show (Node.dir id).number = id from rfl, hapart q m id hx] at hnode
    cases hnode

/-- **For every name and every expectation, a receipt is accepted before the compaction exactly
    if one is accepted behind it.** -/
theorem acceptsAt_compacted {format : FormatRecord}
    (hc : Compacted w w' format bucket shard name i i' receipt job start)
    (hfull : FullReceiptAt w format bucket shard name i receipt job) (hapart : w.Apart)
    (hsingle : w.Single) (b s : Bytes) (n : Name) (expected : Option ExpectedReceipt) :
    w'.AcceptsAt format b s n expected ↔ w.AcceptsAt format b s n expected := by
  obtain ⟨hplace, hr⟩ := hc
  obtain ⟨hentry, hkind, node, hnode, haccepted⟩ := hfull
  by_cases hsame : [receiptsRoot, b, s] = [receiptsRoot, bucket, shard] ∧ n = name
  · obtain ⟨hpath, rfl⟩ := hsame
    obtain ⟨rfl, rfl⟩ : b = bucket ∧ s = shard := by simpa using hpath
    obtain ⟨node', hnode', hlink', hdata'⟩ := hr.inode
    have hiff := fun e => haccepted.compacted i' hkind hplace hlink' hdata' e
    have hentry' : w'.entry [receiptsRoot, b, s] n = some (.file i') := by
      rw [hr.entries, if_pos ⟨rfl, rfl⟩]
    constructor
    · rintro ⟨x, node₁, receipt₁, hx, hnode₁, haccepted₁⟩
      rw [hentry'] at hx
      cases hx
      cases (hnode'.symm.trans hnode₁)
      obtain rfl := ((hiff none).mpr haccepted).unique haccepted₁
      exact ⟨_, node, receipt, hentry, hnode, (hiff expected).mp haccepted₁⟩
    · rintro ⟨x, node₁, receipt₁, hx, hnode₁, haccepted₁⟩
      rw [hentry] at hx
      cases hx
      cases (hnode.symm.trans hnode₁)
      obtain rfl := haccepted.unique haccepted₁
      exact ⟨_, node', _, hentry', hnode', (hiff expected).mpr haccepted₁⟩
  · have hentries : w'.entry [receiptsRoot, b, s] n = w.entry [receiptsRoot, b, s] n := by
      rw [hr.entries, if_neg hsame]
    unfold World.AcceptsAt
    constructor
    · rintro ⟨x, node₁, receipt₁, hx, hnode₁, haccepted₁⟩
      rw [hentries] at hx
      rw [hr.other hapart hsingle hnode haccepted.nlink hsame hx] at hnode₁
      exact ⟨x, node₁, receipt₁, hx, hnode₁, haccepted₁⟩
    · rintro ⟨x, node₁, receipt₁, hx, hnode₁, haccepted₁⟩
      refine ⟨x, node₁, receipt₁, hentries.trans hx, ?_, haccepted₁⟩
      rw [hr.other hapart hsingle hnode haccepted.nlink hsame hx]
      exact hnode₁

/-! Duplicate acknowledgments. -/

theorem holdsReceipt_iff {lease : LeaseInfo} {expected : ExpectedReceipt} {b : UInt64} :
    w.HoldsReceipt h lease expected b ↔ w.AcceptsAt h.format (bucketHex b)
      (shardHex (computeShard h.format.queueId lease.jobId h.format.shardCount))
      (makeReceiptName h.format.queueId (bucketHex b)
        (shardHex (computeShard h.format.queueId lease.jobId h.format.shardCount))
        expected.common lease.token) (some expected) := by
  unfold World.HoldsReceipt World.AcceptsAt
  constructor
  · rintro ⟨dir, x, receipt, hdir, hx, hverify⟩
    cases hnode : w.inodes x.number with
    | none => exact absurd ((verifyReceiptOnFd_judges_none hnode _ _).eval_ok.mp hverify) id
    | some node =>
      exact ⟨x, node, receipt, Option.bind_eq_some_iff.mpr ⟨dir, hdir, hx⟩, hnode,
        (verifyReceiptOnFd_judges hnode _ _).eval_ok.mp hverify⟩
  · rintro ⟨x, node, receipt, hx, hnode, haccepted⟩
    obtain ⟨dir, hdir, hlookup⟩ := Option.bind_eq_some_iff.mp hx
    exact ⟨dir, x, receipt, hdir, hlookup,
      (verifyReceiptOnFd_judges hnode _ _).eval_ok.mpr haccepted⟩

/-- The answer to a duplicate acknowledgment depends on the receipts that are accepted. -/
theorem eval_duplicateAckOutcome_congr (hroot : (w.live rootDir).isSome)
    (hroot' : (w'.live rootDir).isSome)
    (hsame : ∀ b s n e, w'.AcceptsAt h.format b s n e ↔ w.AcceptsAt h.format b s n e)
    (lease : LeaseInfo) (floor : WallFloor) :
    (duplicateAckOutcome lease floor).eval w'.reply h =
      (duplicateAckOutcome lease floor).eval w.reply h := by
  have hbounded : (checkDuplicateAckBounded lease floor).eval w'.reply h =
      (checkDuplicateAckBounded lease floor).eval w.reply h := by
    unfold checkDuplicateAckBounded
    rw [eval_bind, eval_bind, Task.eval_memory, Task.eval_memory, evalThen_ok,
      evalThen_ok]
    split
    · rename_i first count expected hrange hexpected
      obtain ⟨found, hfound, hiff⟩ := eval_probeReceipts h lease expected hroot count first
      obtain ⟨found', hfound', hiff'⟩ := eval_probeReceipts h lease expected hroot' count first
      rw [hfound, hfound']
      have heq : found = found' := by
        rw [Bool.eq_iff_iff, hiff, hiff']
        simp only [holdsReceipt_iff, hsame]
      rw [heq]
    · rfl
  unfold duplicateAckOutcome
  rw [eval_bind, eval_bind, Task.eval_attempt, Task.eval_attempt, hbounded,
    evalThen_ok, evalThen_ok]
  rcases (checkDuplicateAckBounded lease floor).eval w.reply h with ⟨_ | _ | _, _⟩ <;> rfl

/-! Resolutions. -/

/-- The same verdict, up to the file that is found. -/
def ResolveObj.Alike : ResolveObj → ResolveObj → Prop
  | .matching _, .matching _ => True
  | .matching _, _ => False
  | _, .matching _ => False
  | found, found' => found = found'

theorem resolutionOf_alike (stabilize : Bool) {s s' d d' : ResolveObj} (hs : s.Alike s')
    (hd : d.Alike d') : resolutionOf stabilize s d = resolutionOf stabilize s' d' := by
  cases s <;> cases s' <;> cases d <;> cases d' <;>
    simp_all [ResolveObj.Alike, resolutionOf]

/-- The paths of a plan are whole. -/
def ResolvePath.Whole (path : ResolvePath) : Prop := path.parts = path.directory ++ [path.name]

theorem resolvePath_new_whole {p : Path} {path : ResolvePath} (h : ResolvePath.new p = .ok path) :
    path.Whole := by
  unfold ResolvePath.new at h
  split at h
  · cases h
  · rename_i last hlast
    split at h
    · cases h
    · cases h
      exact (List.dropLast_append_getLast? last hlast).symm

theorem receipts_hold_no_job (kind : ObjectKind) :
    resolverObjectVerifier kind receiptsRoot ≠ some .job := by
  cases kind <;> decide

/-- What is resolved to a receipt is a receipt that is accepted. -/
theorem resolvesTo_receipt {path : ResolvePath} (hwhole : path.Whole) {b s : Bytes}
    (hdir : path.directory = [receiptsRoot, b, s]) {ticket : TransitionTicket}
    {expected : CommonFields} {kind : ObjectKind} :
    (∃ dir x node, ResolvesTo w h path ticket expected kind dir x node) ↔
      resolverObjectVerifier kind receiptsRoot = some .receipt ∧
        w.AcceptsAt h.format b s path.name (some (ticket.receipt expected)) := by
  have hparts : path.parts = [receiptsRoot, b, s, path.name] := by rw [hwhole, hdir]; rfl
  have hhead : path.parts.headD [] = receiptsRoot := by rw [hparts]; rfl
  constructor
  · rintro ⟨dir, x, node, hd, hx, hnode, hlink, hsize, v, hv, hbytes⟩
    rw [hhead] at hv
    have hentry : w.entry [receiptsRoot, b, s] path.name = some x := by
      rw [World.entry, ← hdir, hd, Option.bind_some, hx]
    cases v with
    | job => exact absurd hv (receipts_hold_no_job kind)
    | receipt =>
      obtain ⟨_, b', s', _, receipt, hparts', haccepted⟩ := hbytes
      rw [hparts] at hparts'
      obtain ⟨-, rfl, rfl, -⟩ : receiptsRoot = _ ∧ b = b' ∧ s = s' ∧ path.name = _ := by
        simpa using hparts'
      exact ⟨hv, x, node, receipt, hentry, hnode, haccepted⟩
  · rintro ⟨hv, x, node, receipt, hx, hnode, haccepted⟩
    rw [← hdir] at hx
    obtain ⟨dir, hd, hlookup⟩ := Option.bind_eq_some_iff.mp hx
    have hsize : fixedHeaderSize ≤ node.data.length := by
      obtain ⟨start, -, hbytes⟩ := haccepted.placed
      cases hkind : receipt.kind with
      | compact => rw [hkind] at hbytes; exact hbytes.1
      | full job => rw [hkind] at hbytes; exact hbytes.1
    exact ⟨dir, x, node, hd, hlookup, hnode, haccepted.nlink, hsize, .receipt, hhead ▸ hv,
      receiptsRoot, b, s, path.name, receipt, hparts, haccepted⟩

/-- **No check of a path can tell the compact form from the full one.** -/
theorem resolved_alike_compacted
    (hc : Compacted w w' h.format bucket shard name i i' receipt job start)
    (hfull : FullReceiptAt w h.format bucket shard name i receipt job) (hapart : w.Apart)
    (hsingle : w.Single) (hroot : (w.live rootDir).isSome) (hroot' : (w'.live rootDir).isSome)
    {path : ResolvePath} (hwhole : path.Whole) (ticket : TransitionTicket)
    (expected : CommonFields) (kind : ObjectKind) :
    (w.resolved h path ticket expected kind).Alike (w'.resolved h path ticket expected kind) := by
  have haccepts := acceptsAt_compacted hc hfull hapart hsingle
  obtain ⟨hplace, hr⟩ := hc
  obtain ⟨hentry, hkind, node, hnode, haccepted⟩ := hfull
  -- the same names are entered, and the same objects match
  have hentered : w'.entry path.directory path.name = none ↔
      w.entry path.directory path.name = none := by
    rw [hr.entries]
    split
    · rename_i hsame
      rw [hsame.1, hsame.2, hentry]
      simp
    · rfl
  have hmatch : (∃ dir x node, ResolvesTo w' h path ticket expected kind dir x node) ↔
      ∃ dir x node, ResolvesTo w h path ticket expected kind dir x node := by
    by_cases hsame : path.directory = [receiptsRoot, bucket, shard] ∧ path.name = name
    · rw [resolvesTo_receipt hwhole hsame.1, resolvesTo_receipt hwhole hsame.1, haccepts]
    · have hentries := hr.entries path.directory path.name
      rw [if_neg hsame] at hentries
      constructor
      · rintro ⟨dir', x, node₁, hd, hx, hnode₁, hlink, hsize, hbytes⟩
        have hx' : w.entry path.directory path.name = some x := by
          rw [← hentries, World.entry, hd, Option.bind_some, hx]
        obtain ⟨dir, hd', hlookup⟩ := Option.bind_eq_some_iff.mp hx'
        rw [hr.other hapart hsingle hnode haccepted.nlink hsame hx'] at hnode₁
        exact ⟨dir, x, node₁, hd', hlookup, hnode₁, hlink, hsize, hbytes⟩
      · rintro ⟨dir', x, node₁, hd, hx, hnode₁, hlink, hsize, hbytes⟩
        have hx' : w.entry path.directory path.name = some x := by
          rw [World.entry, hd, Option.bind_some, hx]
        obtain ⟨dir, hd', hlookup⟩ := Option.bind_eq_some_iff.mp (hentries.trans hx')
        rw [← hr.other hapart hsingle hnode haccepted.nlink hsame hx'] at hnode₁
        exact ⟨dir, x, node₁, hd', hlookup, hnode₁, hlink, hsize, hbytes⟩
  rcases resolved_cases h path ticket expected hroot kind with
    ⟨dir, x, node₁, hto, hres⟩ | ⟨hno, hres⟩
  · obtain ⟨dir', x', node', hto'⟩ := hmatch.mpr ⟨dir, x, node₁, hto⟩
    rw [hres, (resolved_matching hroot').mpr ⟨dir', x', node', hto', rfl⟩]
    trivial
  · rcases resolved_cases h path ticket expected hroot' kind with
      ⟨dir', x', node', hto', -⟩ | ⟨-, hres'⟩
    · obtain ⟨dir, x, node₁, hto⟩ := hmatch.mp ⟨dir', x', node', hto'⟩
      exact absurd hto (hno dir x node₁)
    · rw [IsNoMatch] at hres hres'
      rw [← Option.ne_none_iff_isSome (o := World.entry _ _ _)] at hres hres'
      simp only [ne_eq, hentered] at hres'
      generalize w.resolved h path ticket expected kind = found at hres ⊢
      generalize w'.resolved h path ticket expected kind = found' at hres' ⊢
      rcases hres with ⟨rfl, hv, hn⟩ | ⟨rfl, hn⟩
      · rcases hres' with ⟨rfl, -, -⟩ | ⟨rfl, hn' | hn'⟩
        · rfl
        · rw [hn'] at hv
          cases hv
        · exact absurd hn hn'
      · rcases hres' with ⟨rfl, hv, hn'⟩ | ⟨rfl, -⟩
        · rcases hn with hn | hn
          · rw [hn] at hv
            cases hv
          · exact absurd hn' hn
        · rfl

end Replaced

/-! ## 3. The visit of a receipt -/

section Visit

variable {w w' : World} {t : HandleId} {p : Pass} {ε α β : Type}

/-- Directories and files are as before. -/
structure SameTree (w w' : World) : Prop where
  dirs : w'.dirs = w.dirs
  inodes : w'.inodes = w.inodes

theorem SameTree.refl (w : World) : SameTree w w := ⟨rfl, rfl⟩

theorem SameTree.entry (hs : SameTree w w') (q : Path) (m : Name) :
    w'.entry q m = w.entry q m := by rw [World.entry, hs.dirs, World.entry]

theorem SameTree.idAt (hs : SameTree w w') (q : Path) : w'.idAt q = w.idAt q := by
  rw [World.idAt, hs.dirs, World.idAt]

/-- What is replaced in the same tree is replaced. -/
theorem Replaced.of_sameTree {w₁ : World} {q : Path} {m : Name} {i i' : Ino} {data : Bytes}
    (hs : SameTree w w₁) (hr : Replaced w₁ w' q m i i' data) : Replaced w w' q m i i' data where
  ids q := (hr.ids q).trans (hs.idAt q)
  source := (hs.entry _ _).symm.trans hr.source
  entries q m := by rw [hr.entries, hs.entry]
  inode := hr.inode
  others j hj hj' := (hr.others j hj hj').trans (by rw [hs.inodes])
  fresh q m x hx := hr.fresh q m x ((hs.entry q m).trans hx)

theorem Replaced.then_sameTree {w₁ : World} {q : Path} {m : Name} {i i' : Ino} {data : Bytes}
    (hr : Replaced w w₁ q m i i' data) (hs : SameTree w₁ w') : Replaced w w' q m i i' data where
  ids q := (hs.idAt q).trans (hr.ids q)
  source := hr.source
  entries q m := (hs.entry q m).trans (hr.entries q m)
  inode := by rw [hs.inodes]; exact hr.inode
  others j hj hj' := by rw [hs.inodes]; exact hr.others j hj hj'
  fresh := hr.fresh

/-! Code of the handle inside a pass. -/

theorem alone_lookHandle {m : LookM ε α} {k : Except ε α → PassM β}
    {Q : Except Empty β → Pass → World → Prop} (hm : Settled m)
    (hk : (k (m.eval w.reply p.handle).1).Meets (alone t) p w Q) :
    (lookHandle m >>= k).Meets (alone t) p w Q :=
  meets_bind.mpr (Task.meets_zoom.mpr (alone_attemptLook hm hk))

theorem alone_onHandle {m : QueueM ε α} {k : Except ε α → PassM β}
    {Q : Except Empty β → Pass → World → Prop}
    (hm : m.Meets (alone t) p.handle w fun r h' w' => (k r).Meets (alone t) (withHandle p h') w' Q) :
    (onHandle m >>= k).Meets (alone t) p w Q :=
  meets_bind.mpr (Task.meets_zoom.mpr (Task.meets_attempt.mpr hm))

/-! A new file, on its way into a directory. -/

/-- The new file `i'` is entered as `tmp`; nothing else has changed. -/
structure Staged (w w' : World) (q : Path) (tmp : Name) (i' : Ino) (data : Bytes) : Prop where
  ids : ∀ q, w'.idAt q = w.idAt q
  entries : ∀ q' m, w'.entry q' m = if q' = q ∧ m = tmp then some (.file i') else w.entry q' m
  inode : ∃ node, w'.inodes i' = some node ∧ node.nlink = 1 ∧ node.data = data
  others : ∀ j, j ≠ i' → w'.inodes j = w.inodes j

theorem create_staged {dir : Dir} {tmp : Name} {node : DirNode} (hlive : w.live dir = some node)
    (hfree : node.entries.lookup tmp = none) :
    ∃ w', w.create t dir tmp = (.ok w.nextId, w') ∧ Staged w w' dir.path tmp w.nextId [] := by
  refine ⟨_, by simp only [World.create, hlive, hfree, Option.isSome_none, Bool.false_eq_true,
    if_false, World.newInode]; rfl, fun q => ?_, fun q m => ?_, ?_, fun j hj => ?_⟩
  · rw [World.idAt_setEntries]
    rfl
  · have hdir : (w.idAt dir.path).isSome := by rw [World.idAt_of_live hlive]; rfl
    exact (World.entry_insert (by exact hdir)).trans rfl
  · exact ⟨⟨[], none, 1, t⟩, by simp [World.setEntries], rfl, rfl⟩
  · simp [World.setEntries, hj]

/-- The content of the new file is set. -/
theorem Staged.setInode {q : Path} {tmp : Name} {i' : Ino} {data : Bytes} {f : Inode → Inode}
    (hs : Staged w w' q tmp i' data) (hlink : ∀ x, (f x).nlink = x.nlink) (data' : Bytes)
    (hdata : ∀ x, x.data = data → (f x).data = data') :
    Staged w (w'.setInode i' f) q tmp i' data' where
  ids q := by rw [World.idAt_setInode]; exact hs.ids q
  entries q' m := by rw [World.entry_setInode]; exact hs.entries q' m
  inode := by
    obtain ⟨node, hnode, hone, hd⟩ := hs.inode
    exact ⟨f node, by simp [World.setInode, hnode], (hlink node).trans hone, hdata node hd⟩
  others j hj := by rw [← hs.others j hj]; simp [World.setInode, hj]

/-- A rename over another file of the directory. -/
theorem rename_over {dir : Dir} {tmp name : Name} {i i' : Ino}
    (hs : w.lookup dir tmp = some (.file i')) (hd : w.lookup dir name = some (.file i))
    (hne : i' ≠ i) : w.rename dir tmp dir name =
      (.ok (), (w.moveEntry dir tmp dir name i').setInode i fun n =>
        { n with nlink := n.nlink - 1 }) := by
  obtain ⟨hlive, hentry⟩ := World.lookup_eq_some.mp hd
  obtain ⟨node, hnode⟩ := Option.isSome_iff_exists.mp (World.live_isSome.mpr hlive)
  rw [World.entry_of_live hnode] at hentry
  simp only [World.rename, hs, hnode, hentry, if_neg hne]

/-- The new file takes the place of another. -/
theorem Staged.replaces {dir : Dir} {tmp name : Name} {i i' : Ino} {data : Bytes}
    (hs : Staged w w' dir.path tmp i' data) (hlive : w.idAt dir.path = some dir.id)
    (hname : w.entry dir.path name = some (.file i)) (htmp : w.entry dir.path tmp = none)
    (hfresh : ∀ q m x, w.entry q m = some x → x.number ≠ i') :
    ∃ w'', w'.rename dir tmp dir name = (.ok (), w'') ∧
      Replaced w w'' dir.path name i i' data := by
  have hnames : name ≠ tmp := by
    rintro rfl
    rw [htmp] at hname
    cases hname
  have hne : i' ≠ i := (hfresh _ _ _ hname).symm
  have hlive' : w'.idAt dir.path = some dir.id := (hs.ids _).trans hlive
  have hsource : w'.lookup dir tmp = some (.file i') :=
    World.lookup_eq_some.mpr ⟨hlive', by rw [hs.entries, if_pos ⟨rfl, rfl⟩]⟩
  have htarget : w'.lookup dir name = some (.file i) :=
    World.lookup_eq_some.mpr ⟨hlive', by rw [hs.entries, if_neg (fun hc => hnames hc.2), hname]⟩
  obtain ⟨node, hnode⟩ := Option.isSome_iff_exists.mp (World.live_isSome.mpr hlive')
  have hmoves : World.Moves w' (w'.moveEntry dir tmp dir name i') dir tmp dir name i' :=
    World.moves_moveEntry hsource hnode
  refine ⟨_, rename_over hsource htarget hne, ?_, hname, ?_, ?_, ?_, hfresh⟩
  · intro q
    rw [World.idAt_setInode, hmoves.ids, hs.ids]
  · intro q m
    rw [World.entry_setInode, hmoves.entries]
    split
    · rfl
    · rename_i hother
      split
      · rename_i htemp
        rw [htemp.1, htemp.2, htmp]
      · rename_i htemp
        rw [hs.entries, if_neg htemp]
  · obtain ⟨x, hx, hone, hd⟩ := hs.inode
    refine ⟨x, ?_, hone, hd⟩
    simp only [World.setInode, if_neg hne]
    exact hx
  · intro j hj hj'
    simp only [World.setInode, if_neg hj]
    exact hs.others j hj'

/-- The new file of a tree has a number that no entry leads to. -/
theorem tree_fresh (htree : w.Tree) {q : Path} {m : Name} {x : Node} (hx : w.entry q m = some x) :
    x.number ≠ w.nextId := by
  cases x with
  | file j => exact Nat.ne_of_lt (htree.inodes j (htree.files q m j hx))
  | dir id => exact Nat.ne_of_lt (htree.ids _ id ((htree.nested q m id).mp hx))

/-- A replacement whose destination is the expected file. -/
theorem replaceVerified_alone {h : Handle} {dir : Dir} {tmp name : Name} {i i' : Ino}
    {data : Bytes} {node : Inode} (hs : Staged w w' dir.path tmp i' data)
    (hlive : w.idAt dir.path = some dir.id) (hname : w.entry dir.path name = some (.file i))
    (hnode : w.inodes i = some node) (htmp : w.entry dir.path tmp = none)
    (hfresh : ∀ q m x, w.entry q m = some x → x.number ≠ i') :
    (replaceVerified dir tmp name (some ⟨device, i⟩)).Meets (alone t) h w'
      fun r h' w'' => r = .ok () ∧ h' = h ∧ Replaced w w'' dir.path name i i' data := by
  obtain ⟨w₁, hrename, hreplaced⟩ := hs.replaces hlive hname htmp hfresh
  have hnames : name ≠ tmp := by
    rintro rfl
    rw [htmp] at hname
    cases hname
  have hstat : (fstatat dir name).eval w'.reply h =
      (.ok ⟨.regular, node.nlink, node.data.length, device, i⟩, h) := by
    have hlookup : w'.lookup dir name = some (.file i) := World.lookup_eq_some.mpr
      ⟨(hs.ids _).trans hlive, by rw [hs.entries, if_neg (fun hc => hnames hc.2), hname]⟩
    have hi : w'.inodes i = some node := (hs.others i (hfresh _ _ _ hname)).trans hnode
    show (w'.reply (.fstatat dir name), h) = _
    simp only [World.reply, World.answer, hlookup, Option.bind_some, World.statNode,
      World.statFile, hi, Option.map_some, Option.getD_some]
  unfold replaceVerified
  refine meets_bind.mpr (meets_mapErr.mpr
    (alone_looking (m := fstatat dir name) (Task.asks_call rfl) ?_))
  rw [hstat]
  refine then_ok.mpr ?_
  rw [if_neg (not_not.mpr ⟨rfl, rfl⟩)]
  refine meets_bind.mpr (meets_mapErr.mpr
    (alone_call (a := .renameat dir tmp dir name) (r := .ok ()) (v := w₁) (fun _ => rfl)
      (congrArg some hrename) ?_))
  refine then_ok.mpr (meets_mapErr.mpr ?_)
  have hsync : ∃ w₂, w₁.apply t (.fsyncDir dir) .plain = some (.ok (), w₂) ∧ SameTree w₁ w₂ := by
    simp only [World.apply]
    cases w₁.live dir with
    | none => exact ⟨_, rfl, SameTree.refl _⟩
    | some dnode => exact ⟨_, rfl, ⟨rfl, rfl⟩⟩
  obtain ⟨w₂, hw₂, hsame⟩ := hsync
  exact alone_call (a := .fsyncDir dir) (fun _ => rfl) hw₂
    ⟨rfl, rfl, hreplaced.then_sameTree hsame⟩

/-- No file of the directory has the name of a temporary one. -/
def NoTemporary (w : World) (q : Path) : Prop := ∀ b, w.entry q (compactionTempName b) = none

/-- **The compact form is written and takes the place of the full one**, unless the temporary
    name drawn for it is taken. -/
theorem replaceByCompact_alone (htree : w.Tree) {dir : Dir} {name : Name} {i : Ino} {node : Inode}
    (hlive : w.idAt dir.path = some dir.id) (hname : w.entry dir.path name = some (.file i))
    (hnode : w.inodes i = some node) (shardPath : Path) (bytes : Bytes) :
    (replaceByCompact dir name shardPath ⟨device, i⟩ bytes).Meets (alone t) p w fun r p' w' =>
      r = .ok () ∧ p'.handle = p.handle ∧
        ((∃ i', Replaced w w' dir.path name i i' bytes) ∨
          SameTree w w' ∧ ¬ NoTemporary w dir.path) := by
  unfold replaceByCompact
  refine meets_bind.mpr (Task.meets_remember.mpr (then_ok.mpr ?_))
  refine alone_onHandle (alone_any fun r w₁ h₁ => ?_)
  -- the draw
  obtain ⟨b, rfl, hsame₁, htree₁⟩ : ∃ b, r = .ok b ∧ SameTree w w₁ ∧ w₁.Tree := by
    have htree₁ : w₁.Tree := htree.edit (World.apply_frame h₁) (World.apply_edit h₁)
    cases r with
    | error e => cases h₁
    | ok b =>
      simp only [Act.choice, World.apply] at h₁
      split at h₁
      · cases h₁
      · cases h₁
        exact ⟨b, rfl, ⟨rfl, rfl⟩, htree₁⟩
  have hlive₁ : w₁.idAt dir.path = some dir.id := (hsame₁.idAt _).trans hlive
  have hname₁ : w₁.entry dir.path name = some (.file i) := (hsame₁.entry _ _).trans hname
  have hnode₁ : w₁.inodes i = some node := by rw [hsame₁.inodes, hnode]
  obtain ⟨dnode, hdnode⟩ := Option.isSome_iff_exists.mp (World.live_isSome.mpr hlive₁)
  have hentry : w₁.entry dir.path (compactionTempName b) =
      dnode.entries.lookup (compactionTempName b) := World.entry_of_live hdnode _
  show Task.Meets (alone t) (onHandle (createExclusive dir (compactionTempName b)) >>= _) _ w₁ _
  cases hfree : dnode.entries.lookup (compactionTempName b) with
  | some x =>
    -- the name is taken
    refine alone_onHandle (alone_call (a := .createExclusive dir (compactionTempName b))
      (r := .error .eexist) (v := w₁) (fun _ => rfl) ?_ ?_)
    · simp only [World.apply, World.create, hdnode, hfree, Option.isSome_some, if_true]
    refine ⟨rfl, rfl, .inr ⟨hsame₁, fun hno => ?_⟩⟩
    have := hno b
    rw [← hsame₁.entry, hentry, hfree] at this
    cases this
  | none =>
    obtain ⟨w₂, hcreate, hstaged⟩ := create_staged (t := t) hdnode hfree
    refine alone_onHandle (alone_call (a := .createExclusive dir (compactionTempName b))
      (r := .ok w₁.nextId) (v := w₂) (fun _ => rfl) (congrArg some hcreate) ?_)
    show Task.Meets (alone t) (onHandle (writeAll w₁.nextId bytes) >>= _) _ w₂ _
    refine alone_onHandle (alone_call (a := .write w₁.nextId bytes) (fun _ => rfl) rfl ?_)
    have hwritten := hstaged.setInode (f := fun n => { n with data := n.data ++ bytes })
      (fun _ => rfl) bytes fun x hx => by rw [hx, List.nil_append]
    show Task.Meets (alone t) (onHandle (fsync w₁.nextId) >>= _) _ _ _
    refine alone_onHandle (alone_call (a := .fsync w₁.nextId) (fun _ => rfl) rfl ?_)
    have hsynced := hwritten.setInode (f := fun n => { n with synced := some n.data })
      (fun _ => rfl) bytes fun x hx => hx
    refine alone_onHandle ((replaceVerified_alone hsynced hlive₁ hname₁ hnode₁
      (hentry.trans hfree) fun q m x => tree_fresh htree₁).mono ?_)
    rintro r h' w₃ ⟨rfl, rfl, hreplaced⟩
    exact ⟨rfl, rfl, .inl ⟨_, hreplaced.of_sameTree hsame₁⟩⟩

/-! Names of receipts. -/

theorem authenticateReceiptName_parses {format : FormatRecord} {context : ReceiptContext}
    {place : ReceiptName × UInt64 × UInt64}
    (h : authenticateReceiptName format context = .ok place) :
    parseReceipt context.filename = .ok place.1 := by
  unfold authenticateReceiptName at h
  repeat' split at h
  all_goals cases h
  assumption

theorem parseReceipt_suffix {name : Name} {parsed : ReceiptName}
    (h : parseReceipt name = .ok parsed) : extRct <:+ name := by
  simp only [parseReceipt, splitParts, bind, Except.bind] at h
  cases hd : name.dropSuffix? extRct with
  | some stem =>
    obtain ⟨l, hl, hsuffix⟩ := List.dropSuffix?_eq_some_iff.mp hd
    rw [beq_iff_eq] at hsuffix
    exact ⟨stem, by rw [hl, hsuffix]⟩
  | none =>
    simp only [hd, orError] at h
    split at h
    · cases h
    · rename_i hx
      split at hx
      · cases hx
      · cases hx

/-- A receipt is not one of the temporary files of a compaction. -/
theorem not_temporary_of_receipt {name : Name} (h : extRct <:+ name) :
    compactionTemporaryName name = false := by
  obtain ⟨stem, rfl⟩ := h
  rw [compactionTemporaryName, temporaryName]
  split
  · rfl
  · rename_i rest hrest
    split
    · rfl
    · rename_i digits hdigits
      exfalso
      -- the two extensions end in different letters
      obtain ⟨pre, hpre, -⟩ := List.dropPrefix?_eq_some_iff.mp hrest
      obtain ⟨suf, hsuf, hext⟩ := List.dropSuffix?_eq_some_iff.mp hdigits
      rw [beq_iff_eq] at hext
      have hlast := congrArg List.getLast? hpre
      rw [hsuf, hext, ← List.append_assoc, List.getLast?_append_of_ne_nil _ (by decide),
        List.getLast?_append_of_ne_nil _ (by decide)] at hlast
      exact absurd hlast (by decide)

/-! The visit. -/

/-- A receipt that is accepted is visited under its lock, or not at all. -/
theorem withVerifiedReceipt_alone (htree : w.Tree) {c : PassContext} {operation : String}
    {place : Place} {bucket shard : Bytes} {dir : Dir} {name : Name} {i : Ino} {node : Inode}
    {receipt : VerifiedReceipt} {body : VerifiedReceipt → PassM EntryOutcome}
    {R : Pass → World → Prop} (hplace : place.names = [bucket, shard])
    (hlive : w.idAt dir.path = some dir.id) (hname : w.entry dir.path name = some (.file i))
    (hnode : w.inodes i = some node)
    (haccepted : AcceptedReceipt p.handle.format ⟨bucket, shard, name⟩ none i node receipt)
    (hlocked : w.locks (.file i) ≠ none → R p w)
    (hbody : ∀ w₁, SameTree w w₁ → w₁.Tree → (body receipt).Meets (alone t) p w₁
      fun r p' w' => r = .ok .kept ∧ ∀ w'', SameTree w' w'' → R p' w'') :
    (withVerifiedReceipt c operation place dir name body).Meets (alone t) p w
      fun r p' w' => r = .ok .kept ∧ R p' w' := by
  obtain ⟨start, hauth, -⟩ := haccepted.placed
  have hparse : parseReceipt name = .ok receipt.name := authenticateReceiptName_parses hauth
  have hsuffix : extRct.isSuffixOf name = true :=
    List.isSuffixOf_iff_suffix.mpr (parseReceipt_suffix hparse)
  obtain ⟨dnode, hdnode⟩ := Option.isSome_iff_exists.mp (World.live_isSome.mpr hlive)
  have hopen : ((openAt dir name).eval w.reply p.handle).1 = .ok i := by
    show w.reply (.openAt dir name) = _
    rw [World.reply, World.answer_openAt, World.lookup_eq hlive, hname]
    rfl
  unfold withVerifiedReceipt
  rw [if_neg (not_not.mpr hsuffix)]
  simp only [hparse]
  unfold withLockedReceipt
  refine alone_lookHandle (Task.asks_call rfl) ?_
  rw [hopen]
  cases hlock : w.locks (.file i) with
  | some holder =>
    refine alone_onHandle (alone_call (a := .tryLock (.file i)) (r := .ok false) (v := w)
      (fun _ => rfl) ?_ (meets_pure.mpr ⟨rfl, hlocked (by rw [hlock]; exact Option.some_ne_none _)⟩))
    simp only [World.apply, hlock, Option.isSome_some, if_true]
  | none =>
    obtain ⟨w₁, hw₁, hsame⟩ : ∃ w₁, w.apply t (.tryLock (.file i)) .plain = some (.ok true, w₁) ∧
        SameTree w w₁ := by
      refine ⟨{ w with locks := fun k => if k = .file i then some t else w.locks k }, ?_,
        ⟨rfl, rfl⟩⟩
      simp only [World.apply, hlock, Option.isSome_none, Bool.false_eq_true, if_false]
    have htree₁ : w₁.Tree := htree.edit (World.apply_frame hw₁) (World.apply_edit hw₁)
    have hverify : ((verifyReceiptOnFd i ⟨place.name 0, place.name 1, name⟩ none).eval w₁.reply
        p.handle).1 = .ok receipt := by
      have hnames : place.name 0 = bucket ∧ place.name 1 = shard := by
        simp [Place.name, hplace]
      rw [hnames.1, hnames.2, (verifyReceiptOnFd_judges (by rw [hsame.inodes]; exact hnode) _
        _).eval_ok.mpr haccepted]
    refine alone_onHandle (alone_call (a := .tryLock (.file i)) (fun _ => rfl) hw₁ ?_)
    refine meets_bind.mpr (alone_lookHandle (verifyReceiptOnFd_ofFile _ _ _).settled ?_)
    rw [show (withHandle p p.handle).handle = p.handle from rfl, hverify]
    refine (hbody w₁ hsame htree₁).mono ?_
    rintro r p' w₂ ⟨rfl, hR⟩
    refine then_ok.mpr (alone_onHandle (alone_call (a := .unlock (.file i)) (r := ())
      (fun _ => rfl) rfl (meets_pure.mpr ⟨rfl, hR _ ⟨rfl, rfl⟩⟩)))

section Receipt

variable {c : PassContext} {place : Place} {bucket shard : Bytes} {dir : Dir} {name : Name}
  {i : Ino} {receipt : VerifiedReceipt} {job : VerifiedJob}

/-- **The visit of a full receipt** replaces it by its compact form, unless it is locked or the
    temporary name is taken. -/
theorem compactVisit_full (htree : w.Tree) (hplace : place.names = [bucket, shard])
    (hpath : dir.path = [receiptsRoot, bucket, shard]) (hlive : w.idAt dir.path = some dir.id)
    (hfull : FullReceiptAt w p.handle.format bucket shard name i receipt job) :
    (compactVisit c place dir name).Meets (alone t) p w fun r p' w' =>
      r = .ok .kept ∧ p'.handle = p.handle ∧
        ((∃ i' start,
            Compacted w w' p.handle.format bucket shard name i i' receipt job start) ∨
          SameTree w w' ∧ (w.locks (.file i) ≠ none ∨ ¬ NoTemporary w dir.path)) := by
  obtain ⟨hentry, hkind, node, hnode, haccepted⟩ := hfull
  obtain ⟨start, hauth, -⟩ := haccepted.placed
  have hname : w.entry dir.path name = some (.file i) := hpath ▸ hentry
  have htemporary : compactionTemporaryName name = false := not_temporary_of_receipt
    (parseReceipt_suffix (authenticateReceiptName_parses hauth))
  unfold compactVisit
  rw [if_neg (by rw [htemporary]; exact Bool.false_ne_true)]
  refine withVerifiedReceipt_alone htree hplace hlive hname hnode haccepted
    (R := fun p' w' => p'.handle = p.handle ∧ ((∃ i' start,
        Compacted w w' p.handle.format bucket shard name i i' receipt job start) ∨
      SameTree w w' ∧ (w.locks (.file i) ≠ none ∨ ¬ NoTemporary w dir.path)))
    (fun hlock => ⟨rfl, .inr ⟨SameTree.refl w, .inl hlock⟩⟩) fun w₁ hsame htree₁ => ?_
  simp only [hkind]
  refine meets_bind.mpr (meets_bind.mpr (Task.meets_memory.mpr
    (then_ok.mpr (meets_pure.mpr (then_ok.mpr ?_)))))
  simp only [authenticateReceiptName_start hauth]
  refine meets_bind.mpr ?_
  rw [haccepted.device, haccepted.inode]
  refine (replaceByCompact_alone htree₁ ((hsame.idAt _).trans hlive)
    ((hsame.entry _ _).trans hname) (by rw [hsame.inodes]; exact hnode) _ _).mono ?_
  rintro r p' w₂ ⟨rfl, hhandle, hdone⟩
  refine then_ok.mpr (meets_pure.mpr ⟨rfl, fun w₃ hsame₃ => ⟨hhandle, ?_⟩⟩)
  rcases hdone with ⟨i', hreplaced⟩ | ⟨hsame₂, hno⟩
  · rw [hpath] at hreplaced
    exact .inl ⟨i', start, hauth, (hreplaced.of_sameTree hsame).then_sameTree hsame₃⟩
  · refine .inr ⟨⟨by rw [hsame₃.dirs, hsame₂.dirs, hsame.dirs],
      by rw [hsame₃.inodes, hsame₂.inodes, hsame.inodes]⟩, .inr fun hnone => hno fun b => ?_⟩
    rw [hsame.entry]
    exact hnone b

/-- **The visit of a compact receipt** changes nothing. -/
theorem compactVisit_compact {node : Inode} (htree : w.Tree)
    (hplace : place.names = [bucket, shard]) (hlive : w.idAt dir.path = some dir.id)
    (hname : w.entry dir.path name = some (.file i)) (hnode : w.inodes i = some node)
    (haccepted : AcceptedReceipt p.handle.format ⟨bucket, shard, name⟩ none i node receipt)
    (hkind : receipt.kind = .compact) :
    (compactVisit c place dir name).Meets (alone t) p w fun r p' w' =>
      r = .ok .kept ∧ p' = p ∧ SameTree w w' := by
  obtain ⟨start, hauth, -⟩ := haccepted.placed
  have htemporary : compactionTemporaryName name = false := not_temporary_of_receipt
    (parseReceipt_suffix (authenticateReceiptName_parses hauth))
  unfold compactVisit
  rw [if_neg (by rw [htemporary]; exact Bool.false_ne_true)]
  refine withVerifiedReceipt_alone htree hplace hlive hname hnode haccepted
    (R := fun p' w' => p' = p ∧ SameTree w w') (fun _ => ⟨rfl, SameTree.refl w⟩)
    fun w₁ hsame _ => ?_
  simp only [hkind]
  refine meets_pure.mpr ⟨rfl, fun w₂ hsame₂ => ⟨rfl, ?_⟩⟩
  exact ⟨hsame₂.dirs.trans hsame.dirs, hsame₂.inodes.trans hsame.inodes⟩

/-- What is the same before and behind the compaction: the answer to every duplicate
    acknowledgment and every resolution, for every handle of the queue. -/
structure SameEvidence (format : FormatRecord) (w w' : World) : Prop where
  duplicateAck : ∀ h : Handle, h.format = format → ∀ lease floor,
    (duplicateAckOutcome lease floor).eval w'.reply h =
      (duplicateAckOutcome lease floor).eval w.reply h
  resolve : ∀ h : Handle, h.format = format → ∀ t ticket stabilize, ∃ outcome,
    ((resolve ticket stabilize).Meets (alone t) h w fun r _ _ => r = .ok outcome) ∧
      (resolve ticket stabilize).Meets (alone t) h w' fun r _ _ => r = .ok outcome

/-- A plan that cannot be made fails the resolution. -/
theorem resolve_unplanned {h : Handle} {ticket : TransitionTicket} {e : Error}
    (hplan : resolvePlan h ticket = .error e) (stabilize : Bool) :
    (resolve ticket stabilize).Meets (alone t) h w fun r _ _ => r = .ok (.resolutionFailed e) := by
  unfold resolve
  refine meets_bind.mpr (Task.meets_memory.mpr ?_)
  simp only [then_ok, hplan]
  exact meets_pure.mpr rfl

theorem resolvePlan_whole {h : Handle} {ticket : TransitionTicket} {plan : ResolvePlan}
    (hplan : resolvePlan h ticket = .ok plan) :
    plan.sourcePath.Whole ∧ plan.destinationPath.Whole := by
  simp only [resolvePlan, bind, Except.bind, pure, Except.pure] at hplan
  split at hplan
  · cases hplan
  · split at hplan
    · cases hplan
    · rename_i source hsource
      split at hplan
      · cases hplan
      · rename_i destination hdestination
        split at hplan
        · cases hplan
        · cases hplan
          exact ⟨resolvePath_new_whole hsource, resolvePath_new_whole hdestination⟩

theorem sameEvidence_of_alike {format : FormatRecord} (htree : w.Tree) (htree' : w'.Tree)
    (hapart : w.Apart) (hapart' : w'.Apart)
    (haccepts : ∀ b s n e, w'.AcceptsAt format b s n e ↔ w.AcceptsAt format b s n e)
    (halike : ∀ h : Handle, h.format = format → ∀ path : ResolvePath, path.Whole →
      ∀ ticket expected kind, (w.resolved h path ticket expected kind).Alike
        (w'.resolved h path ticket expected kind)) : SameEvidence format w w' where
  duplicateAck h hformat lease floor := eval_duplicateAckOutcome_congr (tree_live htree)
    (tree_live htree') (by rw [hformat]; exact haccepts) lease floor
  resolve h hformat t ticket stabilize := by
    cases hplan : resolvePlan h ticket with
    | error e => exact ⟨_, resolve_unplanned hplan stabilize, resolve_unplanned hplan stabilize⟩
    | ok plan =>
      obtain ⟨hsource, hdestination⟩ := resolvePlan_whole hplan
      refine ⟨_, (resolve_alone (tree_live htree) hapart stabilize hplan).mono fun r _ _ hr =>
        hr.1, (resolve_alone (tree_live htree') hapart' stabilize hplan).mono fun r _ _ hr => ?_⟩
      rw [hr.1]
      exact congrArg Except.ok (resolutionOf_alike stabilize
        (halike h hformat _ hsource _ _ _) (halike h hformat _ hdestination _ _ _)).symm

/-- Looks see directories and files only. -/
theorem SameTree.reply (hs : SameTree w w') : w'.reply = w.reply := by
  have hlive (d : Dir) : w'.live d = w.live d := by rw [World.live, hs.dirs, World.live]
  have hlookup (d : Dir) (n : Name) : w'.lookup d n = w.lookup d n := by
    rw [World.lookup, hlive, World.lookup]
  have hstat (i : Ino) : w'.statFile i = w.statFile i := by
    rw [World.statFile, hs.inodes, World.statFile]
  have hnode (x : Node) : w'.statNode x = w.statNode x := by cases x <;> simp [World.statNode, hstat]
  funext l
  unfold World.reply
  cases l <;> simp only [World.answer, hlive, hlookup, hstat, hs.dirs, hs.inodes,
    show w'.statNode = w.statNode from funext hnode]

theorem ResolveObj.Alike.refl (found : ResolveObj) : found.Alike found := by
  cases found <;> simp [ResolveObj.Alike]

theorem SameTree.sameEvidence (hs : SameTree w w') (htree : w.Tree) (htree' : w'.Tree)
    (hapart : w.Apart) (format : FormatRecord) : SameEvidence format w w' := by
  refine sameEvidence_of_alike htree htree' hapart ?_ ?_ ?_
  · intro q n id hdir
    rw [hs.inodes]
    exact hapart q n id ((hs.entry q n).symm.trans hdir)
  · intro b s n e
    simp only [World.AcceptsAt, hs.entry, hs.inodes]
  · intro h _ path _ ticket expected kind
    rw [World.resolved, World.resolved, hs.reply]
    exact .refl _

/-- The new file is in the place of a file. -/
theorem Replaced.apart {data : Bytes} {q : Path} {m : Name} {i' : Ino}
    (hr : Replaced w w' q m i i' data) (hnode : (w.inodes i).isSome) (hapart : w.Apart) :
    w'.Apart := by
  intro q' m' id hdir
  rw [hr.entries] at hdir
  split at hdir
  · cases hdir
  · have hnone := hapart q' m' id hdir
    rw [hr.others id ?_ (hr.fresh q' m' _ hdir)]
    · exact hnone
    · rintro rfl
      rw [hnone] at hnode
      cases hnode

theorem Compacted.sameEvidence {i' : Ino} {start : UInt64} {format : FormatRecord}
    (hc : Compacted w w' format bucket shard name i i' receipt job start)
    (hfull : FullReceiptAt w format bucket shard name i receipt job) (hapart : w.Apart)
    (hsingle : w.Single) (htree : w.Tree) (htree' : w'.Tree) : SameEvidence format w w' := by
  obtain ⟨node, hnode, -⟩ := hfull.accepted
  refine sameEvidence_of_alike htree htree' hapart
    (hc.2.apart (by rw [hnode]; rfl) hapart) (acceptsAt_compacted hc hfull hapart hsingle) ?_
  intro h hformat path hwhole ticket expected kind
  subst hformat
  exact resolved_alike_compacted hc hfull hapart hsingle (tree_live htree) (tree_live htree')
    hwhole ticket expected kind

/-- **Compaction keeps the evidence of an acknowledgment.** -/
theorem compaction_keeps_evidence (c : PassContext) (htree : w.Tree) (hapart : w.Apart)
    (hsingle : w.Single) (hplace : place.names = [bucket, shard])
    (hpath : dir.path = [receiptsRoot, bucket, shard]) (hlive : w.idAt dir.path = some dir.id)
    (hentry : w.entry dir.path name = some (.file i))
    (hverified : (verifyReceiptOnFd i ⟨bucket, shard, name⟩ none).eval w.reply p.handle =
      (.ok receipt, p.handle)) (hkind : receipt.kind = .full job) :
    (compactVisit c place dir name).Meets (alone t) p w fun r p' w' =>
      r = .ok .kept ∧ SameEvidence p.handle.format w w' ∧
      (w.locks (.file i) = none → NoTemporary w dir.path → ∃ i' start,
        checkedMulU64 receipt.bucketNumber p.handle.format.terminalBucketWidthNs = some start ∧
        w'.entry dir.path name = some (.file i') ∧
        (w'.inodes i').map Inode.data =
          some (compactReceiptOf receipt.name job.header start).encode ∧
        (verifyReceiptOnFd i' ⟨bucket, shard, name⟩ none).eval w'.reply p.handle =
          (.ok (compactReceiptFor receipt i'), p.handle) ∧
        (∀ expected,
          (∃ x, (verifyReceiptOnFd i' ⟨bucket, shard, name⟩ (some expected)).eval w'.reply
            p.handle = (.ok x, p.handle)) ↔
          ∃ x, (verifyReceiptOnFd i ⟨bucket, shard, name⟩ (some expected)).eval w.reply
            p.handle = (.ok x, p.handle)) ∧
        ∀ t' c', (compactVisit c' place dir name).Meets (alone t') p' w' fun r p'' w'' =>
          r = .ok .kept ∧ p'' = p' ∧ SameTree w' w'') := by
  obtain ⟨node, hnode⟩ := Option.isSome_iff_exists.mp (htree.files _ _ _ hentry)
  have haccepted := (verifyReceiptOnFd_judges hnode _ _).eval_ok.mp hverified
  have hfull : FullReceiptAt w p.handle.format bucket shard name i receipt job :=
    ⟨hpath ▸ hentry, hkind, node, hnode, haccepted⟩
  refine (alone_tree (compactVisit_full htree hplace hpath hlive hfull) htree).mono ?_
  rintro r p' w' ⟨⟨rfl, hhandle, ⟨i', start, hc⟩ | ⟨hsame, hkept⟩⟩, htree'⟩
  · refine ⟨rfl, Compacted.sameEvidence hc hfull hapart hsingle htree htree', fun _ _ => ?_⟩
    obtain ⟨hauth, hr⟩ := hc
    obtain ⟨node', hnode', hlink', hdata'⟩ := hr.inode
    have hiff := fun e => haccepted.compacted i' hkind hauth hlink' hdata' e
    have hentry' : w'.entry dir.path name = some (.file i') := by
      rw [hpath, hr.entries, if_pos ⟨rfl, rfl⟩]
    have hcompact := (hiff none).mpr haccepted
    refine ⟨i', start, authenticateReceiptName_start hauth, hentry', ?_,
      (verifyReceiptOnFd_judges hnode' _ _).eval_ok.mpr hcompact, fun expected => ?_,
      fun t' c' => ?_⟩
    · rw [hnode', Option.map_some, hdata']
    · -- both files are accepted as one receipt at most
      simp only [(verifyReceiptOnFd_judges hnode' _ _).eval_ok,
        (verifyReceiptOnFd_judges hnode _ _).eval_ok]
      constructor
      · rintro ⟨x, hx⟩
        obtain rfl := hcompact.unique hx
        exact ⟨receipt, (hiff (some expected)).mp hx⟩
      · rintro ⟨x, hx⟩
        obtain rfl := haccepted.unique hx
        exact ⟨_, (hiff (some expected)).mpr hx⟩
    · refine compactVisit_compact htree' hplace ?_ hentry' hnode' (by rw [hhandle]; exact hcompact)
        rfl
      rw [hr.ids, hlive]
  · refine ⟨rfl, hsame.sameEvidence htree htree' hapart _, fun hfree hnone => ?_⟩
    rcases hkept with hlocked | htaken
    · exact absurd hfree hlocked
    · exact absurd hnone htaken

end Receipt

end Visit

/-! A receipt of the sample queue. -/

@[irreducible] def sampleReceiptName : Name :=
  makeReceiptName sampleFormat.queueId (bucketHex 0) sampleShard ⟨filled 16 3, 2, 1, 3⟩
    (filled 16 4)

def sampleReceiptPath : Path := [receiptsRoot, bucketHex 0, sampleShard]

def sampleReceipts : Snapshot where
  dirs := [([], 1, [(receiptsRoot, .dir 2)]), ([receiptsRoot], 2, [(bucketHex 0, .dir 3)]),
    ([receiptsRoot, bucketHex 0], 3, [(sampleShard, .dir 4)]),
    (sampleReceiptPath, 4, [(sampleReceiptName, .file 5)])]
  files := [(5, sampleData)]

def VerifiedReceiptKind.isFull : VerifiedReceiptKind → Bool
  | .full _ => true
  | .compact => false

theorem sampleReceipts_sound : sampleReceipts.Sound where
  paths := by decide +kernel
  numbered := by decide +kernel
  keys := by decide +kernel
  targets := by decide +kernel
  rooted := by decide +kernel
  leading := by decide +kernel
  reaching := by decide +kernel

/-- The visit of the sample receipt replaces it. -/
theorem compaction_keeps_evidence_sample : ∃ receipt job,
    (verifyReceiptOnFd 5 ⟨bucketHex 0, sampleShard, sampleReceiptName⟩ none).eval
      sampleReceipts.world.reply sampleHandle = (.ok receipt, sampleHandle) ∧
    receipt.kind = .full job ∧
    (compactVisit ⟨⟨100, 100⟩, ⟨100, 100, 10000⟩, 0, none, 0⟩
      ⟨[bucketHex 0, sampleShard], false, 0, 0, false⟩ ⟨sampleReceiptPath, 4⟩
      sampleReceiptName).Meets (alone 0) ⟨sampleHandle, {}, {}⟩ sampleReceipts.world
      fun r _ w' => r = .ok .kept ∧ SameEvidence sampleFormat sampleReceipts.world w' ∧
        ∃ i' start, w'.entry sampleReceiptPath sampleReceiptName = some (.file i') ∧
          (w'.inodes i').map Inode.data =
            some (compactReceiptOf receipt.name job.header start).encode := by
  have hsound := sampleReceipts_sound
  have hentry : sampleReceipts.world.entry sampleReceiptPath sampleReceiptName =
      some (.file 5) := hsound.entry_iff.mpr (by decide +kernel)
  -- the file is accepted as a full receipt, by evaluation
  obtain ⟨x, hx, -⟩ := eval_verifyReceiptOnFd (w := sampleReceipts.world) (h := sampleHandle) 5
    ⟨bucketHex 0, sampleShard, sampleReceiptName⟩ none
  have hisFull : (((verifyReceiptOnFd 5 ⟨bucketHex 0, sampleShard, sampleReceiptName⟩ none).eval
      sampleReceipts.world.reply sampleHandle).1.map fun r => r.kind.isFull).toOption =
        some true := by decide +kernel
  rw [hx] at hisFull
  obtain _ | receipt := x
  · cases hisFull
  obtain ⟨job, hjob⟩ : ∃ job, receipt.kind = .full job := by
    cases hkind : receipt.kind with
    | full job => exact ⟨job, rfl⟩
    | compact => simp [Except.map, Except.toOption, hkind, VerifiedReceiptKind.isFull] at hisFull
  have hnone : NoTemporary sampleReceipts.world sampleReceiptPath := by
    intro b
    have hlast : (compactionTempName b).getLast? ≠ sampleReceiptName.getLast? := by
      rw [compactionTempName, List.getLast?_append_of_ne_nil _ (by decide), sampleReceiptName,
        makeReceiptName, authenticatedFilename, taggedFilename,
        List.getLast?_append_of_ne_nil _ (by decide)]
      decide
    rw [Option.eq_none_iff_forall_ne_some]
    intro x hx
    have hmem : ∀ e ∈ sampleReceipts.entered,
        e.1 = sampleReceiptPath → e.2.1 = sampleReceiptName := by decide +kernel
    exact hlast (congrArg List.getLast? (hmem _ (hsound.entry_iff.mp hx) rfl))
  have hlisted : (sampleReceiptPath, 4, [(sampleReceiptName, Node.file 5)]) ∈
      sampleReceipts.dirs := by simp [sampleReceipts]
  have hlive : sampleReceipts.world.idAt sampleReceiptPath = some 4 :=
    hsound.idAt_iff.mpr ⟨_, hlisted⟩
  refine ⟨receipt, job, hx, hjob, Task.Meets.mono (compaction_keeps_evidence _ hsound.tree
    hsound.apart hsound.single rfl rfl hlive hentry hx hjob) ?_⟩
  rintro r p' w' ⟨hr, hsame, hput⟩
  obtain ⟨i', start, -, hentry', hdata, -⟩ := hput rfl hnone
  exact ⟨hr, hsame, i', start, hentry', hdata⟩

end SteadQ
