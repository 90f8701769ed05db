/-
  File:      SteadQ/Resolution.lean
  Subject:   WHAT RESOLUTION FINDS AND DOES on a file system with nobody else.
-/
import SteadQ.Content
import SteadQ.Queue.Resolve

namespace SteadQ

open Octet Interact
open Interact.Task (asks_call asks_ite asks_pure asks_throw meets_bind meets_mapErr meets_pure
  then_ok)

/-! ## 1. The object at a path -/

section Object

variable {w : World} {h : Handle} {path : ResolvePath} {ticket : TransitionTicket}
  {expected : CommonFields} {file : Ino} {node : Inode}

/-- What a ticket asks of a receipt. -/
def TransitionTicket.receipt (ticket : TransitionTicket) (expected : CommonFields) :
    ExpectedReceipt :=
  ⟨expected, ticket.leaseToken, ticket.envelopeDigest, ticket.payloadLength⟩

/-- The files a ticket is resolved to, by verifier. -/
def ResolvedBytes (format : FormatRecord) (path : ResolvePath) (ticket : TransitionTicket)
    (expected : CommonFields) (file : Ino) (node : Inode) : ResolverObjectVerifier → Prop
  | .receipt => ∃ state bucket shard name receipt, path.parts = [state, bucket, shard, name] ∧
      AcceptedReceipt format ⟨bucket, shard, path.name⟩ (some (ticket.receipt expected)) file node
        receipt
  | .job => ∃ header, Intact header node.data ∧
      resolvedHeaderMatches ticket expected header = true ∧
      resolvedNameMatches format ticket expected path.parts path.name = true

theorem verifyResolved_judges (hnode : w.inodes file = some node)
    (verifier : ResolverObjectVerifier) :
    Judges IsFinal w h (verifyResolved path ticket expected verifier file) fun _ =>
      ResolvedBytes h.format path ticket expected file node verifier := by
  unfold verifyResolved
  refine judges_memory ?_
  split
  · rename_i state bucket shard name hparts
    refine (Judges.bind (verifyReceiptOnFd_judges hnode _ _) fun receipt _ =>
      judges_pure ()).congr fun _ => ?_
    constructor
    · rintro ⟨receipt, hreceipt, -⟩
      exact ⟨state, bucket, shard, name, receipt, hparts, hreceipt⟩
    · rintro ⟨_, bucket', shard', _, receipt, hparts', hreceipt⟩
      rw [hparts] at hparts'
      obtain ⟨rfl, rfl, rfl, rfl⟩ : state = _ ∧ bucket = bucket' ∧ shard = shard' ∧ name = _ := by
        simpa using hparts'
      exact ⟨receipt, hreceipt, rfl⟩
  · rename_i hparts
    refine (judges_throw (by nofun)).congr fun _ => ⟨False.elim, ?_⟩
    rintro ⟨state, bucket, shard, name, -, hparts', -⟩
    exact hparts state bucket shard name hparts'
  · have hjob : Judges IsFinal w h (verifyJobOnFd file) fun job =>
        ∃ header, Intact header node.data ∧ job = verifiedJobOf header file node.data := by
      rcases eval_verifyJobOnFd (h := h) hnode with ⟨header, hi, hx⟩ | ⟨header, he, hp, hx⟩ |
        ⟨he, why, hx⟩
      · refine ⟨_, hx, fun job => ?_, nofun⟩
        rw [Except.ok.injEq]
        constructor
        · rintro rfl
          exact ⟨header, hi, rfl⟩
        · rintro ⟨header', hi', rfl⟩
          rw [hi.1.unique hi'.1]
      · refine ⟨_, hx, fun job => ⟨nofun, ?_⟩, by rintro _ ⟨⟩; nofun⟩
        rintro ⟨header', hi', -⟩
        exact absurd (he.unique hi'.1 ▸ hi'.2) hp
      · refine ⟨_, hx, fun job => ⟨nofun, ?_⟩, by rintro _ ⟨⟩; nofun⟩
        rintro ⟨header', hi', -⟩
        exact absurd hi'.1 (he header')
    refine (Judges.bind hjob fun job _ => judges_guard (by nofun) fun _ =>
      judges_guard (by nofun) fun _ => judges_pure ()).congr fun _ => ?_
    constructor
    · rintro ⟨job, ⟨header, hi, rfl⟩, hheader, hname, -⟩
      exact ⟨header, hi, not_not.mp hheader, not_not.mp hname⟩
    · rintro ⟨header, hi, hheader, hname⟩
      exact ⟨_, ⟨header, hi, rfl⟩, not_not.mpr hheader, not_not.mpr hname, rfl⟩

def IsConflict (found : ResolveObj) : Prop := found = .conflict

/-- **What matches is a singly linked regular file with the bytes of the ticket**; any other file
    conflicts with it. -/
theorem inspectResolved_judges (hnode : w.inodes file = some node)
    (verifier : ResolverObjectVerifier) :
    Judges IsConflict w h (inspectResolved path ticket expected verifier file) fun stat =>
      stat = ⟨.regular, node.nlink, node.data.length, device, file⟩ ∧ node.nlink = 1 ∧
        fixedHeaderSize ≤ node.data.length ∧
        ResolvedBytes h.format path ticket expected file node verifier := by
  have hverify : Judges IsConflict w h
      (Task.mapErr resolveVerificationFailure (verifyResolved path ticket expected verifier file))
      fun _ => ResolvedBytes h.format path ticket expected file node verifier := by
    refine (verifyResolved_judges hnode verifier).mapErr fun e he => ?_
    cases e with
    | io message => exact absurd rfl (he message)
    | corrupt why => rfl
    | payloadCorrupt => rfl
  unfold inspectResolved
  refine (Judges.bind (fstat_judges hnode _) fun stat _ => judges_guard (E := IsConflict) rfl
    fun _ => Judges.bind (preadExact_judges hnode 0 _
      (show IsConflict (resolveHeaderFailure .unexpectedEof) from rfl))
      fun _ _ =>
      Judges.bind hverify fun _ _ => judges_pure stat).congr fun stat => ?_
  constructor
  · rintro ⟨stat', rfl, hlinked, buf, ⟨rfl, hlen⟩, u, hbytes, rfl⟩
    have hlinked := not_not.mp hlinked
    simp only [isSinglyLinkedRegular, true_and, decide_eq_true_eq] at hlinked
    have hsize : fixedHeaderSize ≤ node.data.length := by
      have := slice_length_eq.mp hlen
      simp only [fixedHeaderSize] at this ⊢
      omega
    exact ⟨rfl, hlinked, hsize, hbytes⟩
  · rintro ⟨rfl, hlink, hsize, hbytes⟩
    refine ⟨_, rfl, not_not.mpr ?_, _, ⟨rfl, slice_length_eq.mpr (.inl (by omega))⟩, (), hbytes,
      rfl⟩
    simp only [isSinglyLinkedRegular, hlink, and_self, decide_true]

/-- What is not a file conflicts. -/
theorem inspectResolved_none (hnode : w.inodes file = none) (verifier : ResolverObjectVerifier) :
    (inspectResolved path ticket expected verifier file).eval w.reply h =
      (.error .conflict, h) := by
  obtain ⟨stat, hstat, hregular⟩ := reply_fstat w file
  have hkind : ¬ isSinglyLinkedRegular stat = true := by
    simp only [isSinglyLinkedRegular, decide_eq_true_eq]
    rintro ⟨hk, -⟩
    obtain ⟨node, hn⟩ := hregular hk
    rw [hnode] at hn
    cases hn
  unfold inspectResolved
  rw [Task.eval_bind, eval_fstat hstat, Task.evalThen_ok, if_pos hkind]
  rfl

theorem verifyResolved_ofFile (path : ResolvePath) (ticket : TransitionTicket)
    (expected : CommonFields) (verifier : ResolverObjectVerifier) (file : Ino) :
    OfFile file (verifyResolved path ticket expected verifier file) := by
  refine .bind Task.asks_memory fun h => ?_
  split
  · exact .bind (verifyReceiptOnFd_ofFile _ _ _) fun _ => asks_pure _
  · exact asks_throw _
  · exact .bind (verifyJobOnFd_ofFile _) fun job => asks_ite (asks_throw _)
      (asks_ite (asks_throw _) (asks_pure _))

theorem inspectResolved_ofFile (path : ResolvePath) (ticket : TransitionTicket)
    (expected : CommonFields) (verifier : ResolverObjectVerifier) (file : Ino) :
    OfFile file (inspectResolved path ticket expected verifier file) := by
  refine .bind (.mapErr (fstat_ofFile _)) fun stat => asks_ite (asks_throw _) ?_
  exact .bind (.mapErr (preadExact_ofFile _ _ _)) fun _ =>
    .bind (.mapErr (verifyResolved_ofFile _ _ _ _ _)) fun _ => asks_pure _

theorem findResolved_settled (path : ResolvePath) (ticket : TransitionTicket)
    (expected : CommonFields) (kind : ObjectKind) :
    Settled (findResolved path ticket expected kind) :=
  .bind (Task.asks_ofOption _ _) fun _ => .bind (.mapErr (asks_call rfl)) fun _ =>
    .bind (.mapErr (asks_call rfl)) fun _ => .bind (.mapErr (asks_call rfl)) fun _ =>
      .bind (inspectResolved_ofFile _ _ _ _ _).settled fun _ => asks_pure _

/-- The object that a path resolves to. -/
structure ResolvesTo (w : World) (h : Handle) (path : ResolvePath) (ticket : TransitionTicket)
    (expected : CommonFields) (kind : ObjectKind) (dir : DirNode) (x : Node) (node : Inode) :
    Prop where
  directory : w.dirs path.directory = some dir
  entry : dir.entries.lookup path.name = some x
  inode : w.inodes x.number = some node
  nlink : node.nlink = 1
  size : fixedHeaderSize ≤ node.data.length
  bytes : ∃ verifier, resolverObjectVerifier kind (path.parts.headD []) = some verifier ∧
    ResolvedBytes h.format path ticket expected x.number node verifier

/-- The descriptors and identities of an object. -/
def resolvedObjectOf (path : ResolvePath) (dir : DirNode) (x : Node) : ResolvedObject :=
  ⟨⟨path.directory, dir.id⟩, device, dir.id, x.number, device, x.number⟩

/-- What is found without a match: nothing at all exactly if nothing is entered, and otherwise
    something else. -/
def IsNoMatch (w : World) (path : ResolvePath) (kind : ObjectKind) (found : ResolveObj) : Prop :=
  found = .absent ∧ (resolverObjectVerifier kind (path.parts.headD [])).isSome ∧
      w.entry path.directory path.name = none ∨
    found = .conflict ∧ (resolverObjectVerifier kind (path.parts.headD []) = none ∨
      (w.entry path.directory path.name).isSome)

theorem inspectResolved_verdict (verifier : ResolverObjectVerifier) (file : Ino) :
    Judges IsConflict w h (inspectResolved path ticket expected verifier file) fun stat =>
      ∃ node, w.inodes file = some node ∧
        stat = ⟨.regular, node.nlink, node.data.length, device, file⟩ ∧ node.nlink = 1 ∧
        fixedHeaderSize ≤ node.data.length ∧
        ResolvedBytes h.format path ticket expected file node verifier := by
  cases hnode : w.inodes file with
  | none =>
    refine ⟨_, inspectResolved_none hnode verifier, fun stat => by simp, ?_⟩
    rintro _ ⟨⟩
    rfl
  | some node => exact (inspectResolved_judges hnode verifier).congr fun stat => by simp

/-- **The verdict on a path.** -/
theorem findResolved_judges (h : Handle) (path : ResolvePath) (ticket : TransitionTicket)
    (expected : CommonFields) (hroot : (w.live rootDir).isSome) (kind : ObjectKind) :
    Judges (IsNoMatch w path kind) w h (findResolved path ticket expected kind) fun object =>
      ∃ dir x node, ResolvesTo w h path ticket expected kind dir x node ∧
        object = resolvedObjectOf path dir x := by
  unfold findResolved
  cases hv : resolverObjectVerifier kind (path.parts.headD []) with
  | none =>
    refine ⟨.error .conflict, rfl, fun object => ⟨nofun, ?_⟩, ?_⟩
    · rintro ⟨dir, x, node, hto, -⟩
      obtain ⟨v, hv', -⟩ := hto.bytes
      rw [hv] at hv'
      cases hv'
    · rintro _ ⟨⟩
      exact .inr ⟨rfl, .inl hv⟩
  | some v =>
    show Judges _ w h ((Task.mapErr resolveDirectoryFailure (openRelative path.directory)) >>= _)
      _
    have hsome : (resolverObjectVerifier kind (path.parts.headD [])).isSome := by rw [hv]; rfl
    refine (Judges.bind (openRelative_judges hroot path.directory _ fun hdir => .inl ⟨rfl, hsome,
      by rw [World.entry, hdir, Option.bind_none]⟩) (K := fun d object => ∃ dir x node,
        ResolvesTo w h path ticket expected kind dir x node ∧
          object = resolvedObjectOf path dir x) fun d hd => ?_).congr fun object => ?_
    · obtain ⟨dir, hdir, rfl⟩ := hd
      have hentry : w.entry path.directory path.name = dir.entries.lookup path.name := by
        rw [World.entry, hdir, Option.bind_some]
      refine (Judges.bind (fstatDir_judges hdir _) fun dirStat _ => Judges.bind
        (openAt_judges hdir path.name _ fun hnone => .inl ⟨rfl, hsome, hentry.trans hnone⟩)
          fun file hfile => Judges.bind ((inspectResolved_verdict v file).weaken fun found hf =>
            .inr ⟨hf, .inr (by obtain ⟨x, hx, -⟩ := hfile; rw [hentry, hx, Option.isSome_some])⟩)
              fun stat _ => judges_pure _).congr fun object => ?_
      · constructor
        · rintro ⟨_, rfl, _, ⟨x, hx, rfl⟩, _, ⟨node, hnode, rfl, hlink, hsize, hbytes⟩, rfl⟩
          exact ⟨dir, x, node, ⟨hdir, hx, hnode, hlink, hsize, v, hv, hbytes⟩, rfl⟩
        · rintro ⟨dir', x, node, ⟨hdir', hx, hnode, hlink, hsize, v', hv', hbytes⟩, rfl⟩
          rw [hdir] at hdir'
          cases hdir'
          rw [hv] at hv'
          cases hv'
          exact ⟨_, rfl, _, ⟨x, hx, rfl⟩, _, ⟨node, hnode, rfl, hlink, hsize, hbytes⟩, rfl⟩
    · constructor
      · rintro ⟨d, -, hd⟩
        exact hd
      · rintro ⟨dir, x, node, hto, rfl⟩
        exact ⟨_, ⟨dir, hto.directory, rfl⟩, dir, x, node, hto, rfl⟩

/-- What the check of a path finds. -/
def World.resolved (w : World) (h : Handle) (path : ResolvePath) (ticket : TransitionTicket)
    (expected : CommonFields) (kind : ObjectKind) : ResolveObj :=
  match ((findResolved path ticket expected kind).eval w.reply h).1 with
  | .ok object => .matching object
  | .error found => found

theorem eval_resolveCheckObject {ε : Type} (kind : ObjectKind) :
    ((resolveCheckObject path ticket expected kind : LookM ε ResolveObj).eval w.reply h).1 =
      .ok (w.resolved h path ticket expected kind) := by
  unfold resolveCheckObject World.resolved
  rw [Task.eval_bind, Task.eval_attempt, Task.evalThen_ok]
  cases ((findResolved path ticket expected kind).eval w.reply h).1 <;> rfl

/-- **What the check of a path finds**: the object of the ticket, nothing, or something else. -/
theorem resolved_cases (h : Handle) (path : ResolvePath) (ticket : TransitionTicket)
    (expected : CommonFields) (hroot : (w.live rootDir).isSome) (kind : ObjectKind) :
    (∃ dir x node, ResolvesTo w h path ticket expected kind dir x node ∧
      w.resolved h path ticket expected kind = .matching (resolvedObjectOf path dir x)) ∨
    (∀ dir x node, ¬ ResolvesTo w h path ticket expected kind dir x node) ∧
      IsNoMatch w path kind (w.resolved h path ticket expected kind) := by
  obtain ⟨y, hy, hok, herror⟩ := findResolved_judges h path ticket expected hroot kind
  unfold World.resolved
  rw [hy]
  cases y with
  | ok object =>
    obtain ⟨dir, x, node, hto, rfl⟩ := (hok object).mp rfl
    exact .inl ⟨dir, x, node, hto, rfl⟩
  | error found =>
    refine .inr ⟨fun dir x node hto => ?_, herror found rfl⟩
    exact absurd ((hok _).mpr ⟨dir, x, node, hto, rfl⟩) nofun

theorem resolved_matching (hroot : (w.live rootDir).isSome) {kind : ObjectKind}
    {object : ResolvedObject} :
    w.resolved h path ticket expected kind = .matching object ↔
      ∃ dir x node, ResolvesTo w h path ticket expected kind dir x node ∧
        object = resolvedObjectOf path dir x := by
  rcases resolved_cases h path ticket expected hroot kind with
    ⟨dir, x, node, hto, hres⟩ | ⟨hno, hres⟩
  · rw [hres, ResolveObj.matching.injEq]
    constructor
    · rintro rfl
      exact ⟨dir, x, node, hto, rfl⟩
    · rintro ⟨dir', x', node', hto', rfl⟩
      obtain rfl : dir = dir' := Option.some.inj (hto.directory.symm.trans hto'.directory)
      obtain rfl : x = x' := Option.some.inj (hto.entry.symm.trans hto'.entry)
      rfl
  · constructor
    · intro hm
      rcases hres with ⟨ha, -⟩ | ⟨hc, -⟩
      · rw [ha] at hm
        cases hm
      · rw [hc] at hm
        cases hm
    · rintro ⟨dir, x, node, hto, -⟩
      exact absurd hto (hno dir x node)

theorem resolveCheckObject_settled {ε : Type} (path : ResolvePath) (ticket : TransitionTicket)
    (expected : CommonFields) (kind : ObjectKind) :
    Settled (resolveCheckObject path ticket expected kind : LookM ε ResolveObj) :=
  .bind (.attempt (findResolved_settled _ _ _ _)) fun x => by
    cases x <;> exact asks_pure _

end Object

/-! ## 2. Stabilization -/

/-- The file system after the barriers of a stabilization. -/
def World.stabilized (w : World) (object : ResolvedObject) : World :=
  let w' := w.setInode object.file fun n => { n with synced := some n.data }
  match w'.live object.directory with
  | some node => { w' with
      syncedDirs := fun k => if k = object.directory.id then node.entries else w'.syncedDirs k }
  | none => w'

section Stabilize

variable {w : World} {h : Handle} {path : ResolvePath} {t : HandleId}

@[simp] theorem stabilized_dirs (w : World) (object : ResolvedObject) :
    (w.stabilized object).dirs = w.dirs := by
  unfold World.stabilized
  dsimp only
  split <;> rfl

theorem stabilized_inodes (w : World) (object : ResolvedObject) :
    (w.stabilized object).inodes =
      (w.setInode object.file fun n => { n with synced := some n.data }).inodes := by
  unfold World.stabilized
  dsimp only
  split <;> rfl

/-- Barriers change what survives a power loss, not what is seen. -/
theorem stabilized_statFile (w : World) (object : ResolvedObject) (i : Ino) :
    (w.stabilized object).statFile i = w.statFile i := by
  simp only [World.statFile, stabilized_inodes, World.setInode]
  split
  · cases w.inodes i <;> rfl
  · rfl

/-- **Stabilization of an object that is there succeeds.** -/
theorem stabilizeObject_alone {dir : DirNode} {i : Ino} {node : Inode}
    (hroot : (w.live rootDir).isSome) (hdir : w.dirs path.directory = some dir)
    (hentry : dir.entries.lookup path.name = some (.file i)) (hnode : w.inodes i = some node) :
    (stabilizeObject path (resolvedObjectOf path dir (.file i))).Meets (alone t) h w
      fun r h' w' => r = .ok true ∧ h' = h ∧
        w' = w.stabilized (resolvedObjectOf path dir (.file i)) := by
  obtain ⟨object, hobject⟩ : ∃ object, resolvedObjectOf path dir (.file i) = object := ⟨_, rfl⟩
  have hfields : object = ⟨⟨path.directory, dir.id⟩, device, dir.id, i, device, i⟩ := hobject.symm
  rw [hobject]
  have hdirs : (w.stabilized object).dirs path.directory = some dir := by
    rw [stabilized_dirs, hdir]
  have hroot' : ((w.stabilized object).live rootDir).isSome := by
    rwa [World.live, stabilized_dirs, ← World.live]
  unfold stabilizeObject
  refine meets_bind.mpr (meets_mapErr.mpr (alone_call (fun _ => rfl) rfl ?_))
  refine then_ok.mpr (meets_bind.mpr (meets_mapErr.mpr
    (alone_call (a := .fsyncDir object.directory) (r := .ok ()) (v := w.stabilized object)
      (fun _ => rfl) ?_ ?_)))
  · simp only [World.apply, World.stabilized]
    cases World.live _ object.directory <;> rfl
  refine then_ok.mpr (meets_bind.mpr (alone_attemptLook (asks_call rfl) ?_))
  rw [eval_openRelative hroot', hdirs]
  refine then_ok.mpr (meets_bind.mpr ?_)
  refine meets_mapErr.mpr (alone_looking (asks_call rfl) ?_)
  have hstat : (fstatDir ⟨path.directory, dir.id⟩).eval (w.stabilized object).reply h =
      (.ok ⟨.directory, 2, 0, device, dir.id⟩, h) := by
    rw [← reply_fstatDir hdirs]
    rfl
  rw [hstat]
  refine then_ok.mpr ?_
  rw [if_neg (not_not.mpr (by rw [hfields]; exact ⟨rfl, rfl⟩))]
  refine meets_bind.mpr (alone_attemptLook (asks_call rfl) ?_)
  have hfound : (fstatat ⟨path.directory, dir.id⟩ path.name).eval (w.stabilized object).reply h =
      (.ok ⟨.regular, node.nlink, node.data.length, device, i⟩, h) := by
    have hreply := reply_fstatat hdirs path.name
    rw [hentry, Option.bind_some] at hreply
    show ((w.stabilized object).reply (.fstatat ⟨path.directory, dir.id⟩ path.name), h) = _
    rw [hreply, World.statNode, stabilized_statFile, World.statFile, hnode]
    rfl
  rw [hfound]
  refine then_ok.mpr (meets_pure.mpr ⟨?_, rfl, rfl⟩)
  rw [hfields]
  simp

end Stabilize

/-! ## 3. Resolution -/

/-- The outcome, given what is found at the source and at the destination. -/
def resolutionOf (stabilize : Bool) : ResolveObj → ResolveObj → ResolutionOutcome
  | .matching _, .absent => if stabilize then .sourceStabilized else .sourceObserved
  | .absent, .matching _ => if stabilize then .destinationStabilized else .destinationObserved
  | .absent, .absent => .neitherObserved
  | .matching _, .matching _ => .bothObserved
  | .conflict, _ => .conflictingObject
  | _, .conflict => .conflictingObject
  | .error e, _ => .resolutionFailed e
  | _, .error e => .resolutionFailed e

/-- The file system a resolution leaves. -/
def World.settledBy (w : World) (stabilize : Bool) : ResolveObj → ResolveObj → World
  | .matching object, .absent => if stabilize then w.stabilized object else w
  | .absent, .matching object => if stabilize then w.stabilized object else w
  | _, _ => w

section Resolve

variable {w : World} {h : Handle} {ticket : TransitionTicket} {t : HandleId}

/-- What the check finds at the source of a plan. -/
def World.sourceFound (w : World) (h : Handle) (ticket : TransitionTicket) (plan : ResolvePlan) :
    ResolveObj :=
  w.resolved h plan.sourcePath ticket ticket.sourceCommon
    (transition ticket.operation.protocolOperation).sourceObjectKind

/-- What the check finds at the destination of a plan. -/
def World.destinationFound (w : World) (h : Handle) (ticket : TransitionTicket)
    (plan : ResolvePlan) : ResolveObj :=
  w.resolved h plan.destinationPath ticket plan.destinationCommon
    (transition ticket.operation.protocolOperation).destinationObjectKind

theorem settleResolved_alone (hroot : (w.live rootDir).isSome) (hapart : w.Apart)
    (stabilize : Bool) {path : ResolvePath} {expected : CommonFields} {kind : ObjectKind}
    {object : ResolvedObject} (hfound : w.resolved h path ticket expected kind = .matching object)
    (observed stabilized : ResolutionOutcome) :
    (settleResolved stabilize path object observed stabilized).Meets (alone t) h w
      fun r h' w' => r = .ok (if stabilize then stabilized else observed) ∧ h' = h ∧
        w' = if stabilize then w.stabilized object else w := by
  obtain ⟨dir, x, node, hto, rfl⟩ := (resolved_matching hroot).mp hfound
  unfold settleResolved
  cases stabilize with
  | false =>
    rw [if_neg Bool.false_ne_true]
    exact meets_pure.mpr ⟨rfl, rfl, rfl⟩
  | true =>
    rw [if_pos rfl]
    obtain ⟨i, rfl⟩ : ∃ i, x = .file i := by
      cases x with
      | file i => exact ⟨i, rfl⟩
      | dir id =>
        have hnone := hapart path.directory path.name id (by
          rw [World.entry, hto.directory, Option.bind_some, hto.entry])
        have hsome := hto.inode
        rw [show (Node.dir id).number = id from rfl, hnone] at hsome
        cases hsome
    refine meets_bind.mpr (Task.meets_attempt.mpr
      ((stabilizeObject_alone hroot hto.directory hto.entry hto.inode).mono ?_))
    rintro r h' w' ⟨rfl, rfl, rfl⟩
    exact then_ok.mpr (meets_pure.mpr ⟨rfl, rfl, rfl⟩)

/-- **A resolution, alone**: the outcome is read off what is found at the two paths. -/
theorem resolve_alone (hroot : (w.live rootDir).isSome) (hapart : w.Apart) (stabilize : Bool)
    {plan : ResolvePlan} (hplan : resolvePlan h ticket = .ok plan) :
    (resolve ticket stabilize).Meets (alone t) h w fun r h' w' =>
      r = .ok (resolutionOf stabilize (w.sourceFound h ticket plan)
        (w.destinationFound h ticket plan)) ∧ h' = h ∧
      w' = w.settledBy stabilize (w.sourceFound h ticket plan)
        (w.destinationFound h ticket plan) := by
  unfold resolve World.sourceFound World.destinationFound
  refine meets_bind.mpr (Task.meets_memory.mpr ?_)
  simp only [then_ok, hplan]
  refine meets_bind.mpr (alone_looking (resolveCheckObject_settled _ _ _ _) ?_)
  rw [eval_resolveCheckObject, then_ok]
  refine meets_bind.mpr (alone_looking (resolveCheckObject_settled _ _ _ _) ?_)
  rw [eval_resolveCheckObject, then_ok]
  generalize hs : w.resolved h plan.sourcePath _ _ _ = source
  generalize hd : w.resolved h plan.destinationPath _ _ _ = destination
  have hreport (outcome : ResolutionOutcome) : (pure outcome : QueueM Empty _).Meets (alone t) h w
      fun r h' w' => r = .ok outcome ∧ h' = h ∧ w' = w := meets_pure.mpr ⟨rfl, rfl, rfl⟩
  cases source with
  | conflict => exact hreport _
  | absent =>
    cases destination with
    | matching object => exact settleResolved_alone hroot hapart stabilize hd _ _
    | _ => exact hreport _
  | matching object =>
    cases destination with
    | absent => exact settleResolved_alone hroot hapart stabilize hs _ _
    | _ => exact hreport _
  | error e => cases destination <;> exact hreport _

end Resolve

end SteadQ
