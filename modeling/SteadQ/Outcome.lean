/-
  File:      SteadQ/Outcome.lean
  Subject:   OUTCOMES TELL THE TRUTH: every operation, whatever the system answers.

  An operation is a program; `Prog.Trace` gives its record for any answers, failures included.
-/
import SteadQ.Fresh
import SteadQ.Outcome.Consumer
import SteadQ.Outcome.Lease
import SteadQ.Queue.Batch

namespace SteadQ

open Octet Interact

/-! ## 1. What outcomes claim -/

def OpResult.verdict : OpResult → Verdict
  | .enqueue o => o.verdict
  | .lease o => o.verdict
  | .ack o => o.verdict
  | .renew o => o.verdict
  | .transition o => o.verdict
  | .recover _ => .lost

/-- The transfers that linearize an operation. -/
def Op.own : Op → Transfer → Bool
  | .lease .. => claims
  | _ => fun _ => true

/-- The transfer an operation is about: the first name of the job of its ticket, or the entry at
    the exact path of its lease. -/
def Op.Effect (q : Handle) (t : CallLog) (r : OpResult) (x : Transfer) : Op → Prop
  | .enqueue job => ∃ o, r = .enqueue o ∧ Enqueues q.format job o.ticket t x
  | .enqueueStreaming job _ => ∃ o, r = .enqueue o ∧ Enqueues q.format job o.ticket t x
  | op => ∃ info, op.leaseInfo = some info ∧ Leaves q.format info (op.Aims q) t x

/-- Enqueues, and what is done with a lease. -/
def Op.Moves : Op → Prop
  | .lease .. => False
  | .recover .. => False
  | _ => True

section Tells

variable {codec : CursorCodec} {op : Op} {h h' : Handle} {es : CallLog} {r : OpResult}
  {E : CallLog → (a : Act) → a.Resp → Prop}

theorem before_nil (own : Transfer → Bool) (h : Handle) : Before own h h [] := ⟨rfl, rfl, .refl h⟩

/-- An outcome and what it says. -/
theorem map_told {ρ : Type} {m : QueueM Empty ρ} {f : ρ → OpResult} {own : Transfer → Bool}
    {X : ρ → CallLog → Transfer → Prop} {Y : OpResult → CallLog → Transfer → Prop}
    {verdict : ρ → Verdict}
    (hm : m.Meets (recorder E) h [] (Told own h [] X verdict))
    (hv : ∀ o, (f o).verdict = verdict o) (hX : ∀ o t x, X o t x → Y (f o) t x) :
    (f <$> m).Meets (recorder E) h [] fun r h' t => ∀ x, r = .ok x →
      Fate own h [] (Y x) Warned x.verdict h' t := by
  refine Task.meets_map.mpr (Task.Meets.mono hm fun r h' t ht => ?_)
  cases r with
  | error e => exact nomatch e
  | ok o =>
    rintro _ ⟨⟩
    rw [hv]
    exact (ht o rfl).mono (fun t x _ hx => hX o t x hx) fun _ hu => hu

theorem task_told (hop : op.Moves) :
    (op.task codec).Meets (recorder E) h [] fun r h' t => ∀ x, r = .ok x →
      Fate op.own h [] (fun t y => op.Effect h t x y) Warned x.verdict h' t := by
  have hb := before_nil (fun _ => true) h
  cases op with
  | enqueue job =>
    exact map_told (enqueue_told hb job) (fun _ => rfl) fun o t x hx => ⟨o, rfl, hx⟩
  | enqueueStreaming job reader =>
    exact map_told (enqueueStreaming_told hb job reader) (fun _ => rfl) fun o t x hx => ⟨o, rfl, hx⟩
  | lease => exact hop.elim
  | ack deferred info =>
    exact map_told (ack_told hb deferred info) (fun _ => rfl) fun _ t x hx => ⟨info, rfl, hx⟩
  | renew info durationNs =>
    exact map_told (renew_told hb info durationNs) (fun _ => rfl) fun _ t x hx => ⟨info, rfl, hx⟩
  | retryNow info =>
    exact map_told (retryNow_told hb info) (fun _ => rfl) fun _ t x hx => ⟨info, rfl, hx⟩
  | retryAt info nb =>
    exact map_told (retryAt_told hb info nb) (fun _ => rfl) fun _ t x hx => ⟨info, rfl, hx⟩
  | retryAfter info durationNs =>
    exact map_told (retryAfter_told hb info durationNs) (fun _ => rfl)
      fun _ t x hx => ⟨info, rfl, hx⟩
  | retryWithPolicy info policy =>
    exact map_told (retryWithPolicy_told hb info policy) (fun _ => rfl)
      fun _ t x hx => ⟨info, rfl, hx⟩
  | bury info reason =>
    exact map_told (bury_told hb info reason) (fun _ => rfl) fun _ t x hx => ⟨info, rfl, hx⟩
  | recover => exact hop.elim

/-- What the record of a whole operation says. -/
theorem trace_fate (hop : op.Moves) (ht : (op.program codec h).Trace es (r, h')) :
    Fate op.own h [] (fun t y => op.Effect h t r y) Warned r.verdict h' es.reverse := by
  have hanswers : Expected (fun _ _ _ => True) [] es :=
    expected_of_forall (F := fun _ _ => True) fun _ _ => trivial
  have hf := ht.post (Op.meets_program (Q := fun x t => Fate op.own h []
    (fun t y => op.Effect h t x.1 y) Warned x.1.verdict x.2 t) (task_told hop)) hanswers
  rwa [List.append_nil] at hf

/-! ## 2. Outcomes and linearization -/

/-- **Outcomes tell the truth.** Whatever the system answers: an operation that was not committed,
    or that found its lease lost or acknowledged, linked and renamed nothing. One that was
    committed, or whose outcome is unknown, made exactly one transfer, the one it is about; and an
    unknown outcome poisons the handle. -/
theorem outcome_truthful (hop : op.Moves) (ht : (op.program codec h).Trace es (r, h')) :
    match r.verdict with
    | .done => ∃ x, transfers es.reverse = [x] ∧ op.Effect h es.reverse r x
    | .unknown => (∃ x, transfers es.reverse = [x] ∧ op.Effect h es.reverse r x) ∧
        h'.poisoned = some .postLinearizationStateUnknown
    | .refused _ => transfers es.reverse = []
    | .lost => transfers es.reverse = [] := by
  have hf := trace_fate hop ht
  cases hv : r.verdict with
  | done =>
    rw [hv] at hf
    obtain ⟨x, hx, hb⟩ := hf
    exact ⟨x, hb.transfers, hx⟩
  | unknown =>
    rw [hv] at hf
    obtain ⟨x, hx, ha, hw⟩ := hf
    exact ⟨⟨x, ha.transfers, hx⟩, hw⟩
  | refused e =>
    rw [hv] at hf
    exact hf.1.transfers
  | lost =>
    rw [hv] at hf
    exact hf.1.transfers

end Tells

/-- A call on the sample queue right after initialization, with the failures `bad` asks for. -/
def soloCall (bad : Act → Option IoError) (op : Op) : Option (CallLog × (OpResult × Handle) × World) :=
  (op.program sampleCodec sampleHandle).solo
    (fun a w => w.step 0 a (a.failing bad 0 w)) (freshWorld sampleFormat ⟨0, 0⟩)

/-- An enqueue in which nothing fails is committed, and made its one transfer. -/
theorem outcome_truthful_enqueue : ∃ es r h',
    ((Op.enqueue sampleJob).program sampleCodec sampleHandle).Trace es (r, h') ∧
    r.verdict = .done ∧
    ∃ x, transfers es.reverse = [x] ∧ (Op.enqueue sampleJob).Effect sampleHandle es.reverse r x := by
  have hrun : (soloCall (fun _ => none) (.enqueue sampleJob)).map (fun x => x.2.1.1.verdict) =
      some .done := by decide +kernel
  obtain ⟨⟨es, ⟨r, h'⟩, w⟩, hrun, hv⟩ := Option.map_eq_some_iff.mp hrun
  have ht := Prog.trace_of_solo hrun
  have htold := outcome_truthful (show (Op.enqueue sampleJob).Moves from trivial) ht
  have hv : r.verdict = .done := hv
  rw [hv] at htold
  exact ⟨es, r, h', ht, hv, htold⟩

/-! ## 3. Storage that runs out -/

/-- Every ready object is well-formed and stays as it is: the reads of a record agree on contents
    that are. -/
def ReadsSound (es : CallLog) : Prop :=
  ∃ contents, ∀ l r, (⟨.look l, r⟩ : Σ a : Act, a.Resp) ∈ es → Sound contents l r

/-- Mutations of a handle. -/
def Op.Changes : Op → Prop
  | .recover .. => False
  | _ => True

/-- Moved to `quarantine/`. -/
def Quarantined : Transfer → Prop
  | .link _ dst _ => dst.head? = some State.quarantine.dirName
  | .rename _ _ dst _ => dst.head? = some State.quarantine.dirName

theorem Swept.not_quarantined {x : Transfer} (hx : Swept x) : ¬ Quarantined x := by
  obtain ⟨shard, name, p, bucket, shard', name', -, -, rfl⟩ := hx
  exact (by decide : ¬ some State.dead.dirName = some State.quarantine.dirName)

theorem not_quarantined_of_claims {x : Transfer} (hx : claims x = true) : ¬ Quarantined x := by
  cases x with
  | link file dst name => cases hx
  | rename src name dst dstName =>
    simp only [claims, decide_eq_true_eq] at hx
    simp only [Quarantined, hx]
    decide

section Storage

variable {codec : CursorCodec} {op : Op} {h h' : Handle} {es : CallLog} {r : OpResult}

/-- The reads of looks, as an expectation on all calls. -/
def lookSound (contents : Ino → Option Bytes) : (a : Act) → a.Resp → Prop
  | .look l, r => Sound contents l r
  | _, _ => True

theorem trace_lease {deferred : Bool} {durationNs : UInt64} {entries rounds : Nat}
    (hreads : ReadsSound es)
    (ht : ((Op.lease deferred durationNs entries rounds).program codec h).Trace es (r, h')) :
    LeaseFate r.verdict h' es.reverse := by
  obtain ⟨contents, hsound⟩ := hreads
  have hanswers : Expected (fun _ => lookSound contents) [] es := by
    refine expected_of_forall fun e he => ?_
    obtain ⟨a, r⟩ := e
    cases a with
    | look l => exact hsound l r he
    | _ => trivial
  have hpending : Pending h [] := ⟨nofun, nofun⟩
  have htask : ((Op.lease deferred durationNs entries rounds).task codec).Meets
      (recorder fun _ => lookSound contents) h []
      fun r h' t => ∀ x, r = .ok x → LeaseFate x.verdict h' t := by
    refine Task.meets_map.mpr (Task.Meets.mono (lease_told (fun _ _ _ hr => hr) deferred durationNs
      entries rounds hpending) fun r h' t hr => ?_)
    cases r with
    | error e => exact nomatch e
    | ok o =>
      rintro _ ⟨⟩
      exact hr o rfl
  have hf := ht.post (Op.meets_program (Q := fun x t => LeaseFate x.1.verdict x.2 t) htask) hanswers
  rwa [List.append_nil] at hf

theorem Op.changes_cases (hop : op.Changes) :
    op.Moves ∨ ∃ deferred durationNs entries rounds, op = .lease deferred durationNs entries rounds := by
  cases op with
  | lease deferred durationNs entries rounds => exact .inr ⟨_, _, _, _, rfl⟩
  | recover => exact hop.elim
  | _ => exact .inl trivial

theorem Target.not_quarantine (target : Target) :
    target.directory.head? ≠ some State.quarantine.dirName := by
  have other (s : State) (hs : s ≠ .quarantine) :
      some s.dirName ≠ some State.quarantine.dirName :=
    fun h => hs (State.dirName_injective (Option.some.inj h))
  unfold Target.directory
  split <;> exact other _ (by decide)

theorem LandsAt.not_quarantine {f : FormatRecord} {l : Landing} {c : CommonFields} {dst : Path}
    {dstName : Name} (hl : LandsAt f l c dst dstName) :
    dst.head? ≠ some State.quarantine.dirName := by
  obtain ⟨target, -, rfl, -⟩ := hl
  exact target.not_quarantine

theorem Op.Effect.not_quarantined {t : CallLog} {x : Transfer} (hop : op.Moves)
    (hx : op.Effect h t r x) : ¬ Quarantined x := by
  have henqueues {job : EnqueueInput} {ticket : EnqueueTicket}
      (hx : Enqueues h.format job ticket t x) : ¬ Quarantined x := by
    obtain ⟨l, dst, dstName, hpub, -, hl, -⟩ := hx
    rcases hpub with ⟨d, i, -, rfl⟩ | ⟨d, n, i, -, -, rfl⟩ <;> exact hl.not_quarantine
  have hleaves (info : LeaseInfo) {P : CallLog → Operation → Landing → Prop}
      (hx : Leaves h.format info P t x) : ¬ Quarantined x := by
    obtain ⟨_, l, c, path, name, dst, dstName, -, -, hl, -, rfl⟩ := hx
    exact hl.not_quarantine
  cases op with
  | enqueue job =>
    obtain ⟨o, -, hx⟩ := hx
    exact henqueues hx
  | enqueueStreaming job reader =>
    obtain ⟨o, -, hx⟩ := hx
    exact henqueues hx
  | lease => exact hop.elim
  | recover => exact hop.elim
  | _ =>
    obtain ⟨info, -, hx⟩ := hx
    exact hleaves info hx

/-- Nothing an operation transfers goes to `quarantine/`. -/
theorem trace_not_quarantined (hop : op.Changes) (hreads : op.Moves ∨ ReadsSound es)
    (ht : (op.program codec h).Trace es (r, h')) :
    ∀ x ∈ transfers es.reverse, ¬ Quarantined x := by
  rcases Op.changes_cases hop with hmoves | ⟨deferred, durationNs, entries, rounds, rfl⟩
  · have hf := trace_fate hmoves ht
    have single {x : Transfer} (ht : transfers es.reverse = [x])
        (hx : op.Effect h es.reverse r x) : ∀ y ∈ transfers es.reverse, ¬ Quarantined y := by
      rw [ht]
      exact List.forall_mem_singleton.mpr (hx.not_quarantined hmoves)
    cases hv : r.verdict with
    | done =>
      rw [hv] at hf
      obtain ⟨x, hx, hb⟩ := hf
      exact single hb.transfers hx
    | unknown =>
      rw [hv] at hf
      obtain ⟨x, hx, ha, -⟩ := hf
      exact single ha.transfers hx
    | refused e =>
      rw [hv] at hf
      rw [hf.1.transfers]
      nofun
    | lost =>
      rw [hv] at hf
      rw [hf.1.transfers]
      nofun
  · have hf := trace_lease (hreads.resolve_left id) ht
    have claimed (hc : Claimed es.reverse) : ∀ y ∈ transfers es.reverse, ¬ Quarantined y := by
      obtain ⟨x, past, hpast, hx, hswept⟩ := hc
      rw [hpast]
      exact List.forall_mem_cons.mpr
        ⟨not_quarantined_of_claims hx, fun y hy => (hswept y hy).not_quarantined⟩
    cases hv : r.verdict with
    | done =>
      rw [hv] at hf
      exact claimed hf.1
    | unknown =>
      rw [hv] at hf
      exact claimed hf.1
    | refused e =>
      rw [hv] at hf
      exact fun x hx => (hf.1 x hx).not_quarantined
    | lost =>
      rw [hv] at hf
      exact fun x hx => (hf.swept x hx).not_quarantined

/-- A shortage in front of the linearization point is reported, one behind it poisons. -/
theorem trace_charged {k : Shortage} (hop : op.Changes) (hq : h.poisoned = none)
    (hreads : op.Moves ∨ ReadsSound es) (ht : (op.program codec h).Trace es (r, h'))
    (hs : shortage op.own es.reverse = some k) :
    (k = .before ∧ r.verdict = .refused .resourceExhausted ∧ h'.poisoned = none ∧
      (op.Moves → transfers es.reverse = []) ∧ ∀ x ∈ transfers es.reverse, Swept x) ∨
    (k = .behind ∧ h'.poisoned.isSome = true) := by
  have warned (hw : Warned h') : h'.poisoned.isSome = true := by
    rw [show h'.poisoned = _ from hw]
    rfl
  rcases Op.changes_cases hop with hmoves | ⟨deferred, durationNs, entries, rounds, rfl⟩
  · have hf := trace_fate hmoves ht
    cases hv : r.verdict with
    | done =>
      rw [hv] at hf
      obtain ⟨x, -, hb⟩ := hf
      cases hb.fine.symm.trans hs
    | unknown =>
      rw [hv] at hf
      obtain ⟨x, -, ha, hw⟩ := hf
      exact .inr ⟨ha.shortage k hs, warned hw⟩
    | lost =>
      rw [hv] at hf
      cases hf.2.shortage.symm.trans hs
    | refused e =>
      rw [hv] at hf
      obtain ⟨hsilent, hc⟩ := hf
      refine (hc k hs).imp_left fun ⟨hk, he, hp⟩ =>
        ⟨hk, he ▸ rfl, hp.trans hq, fun _ => hsilent.transfers, ?_⟩
      rw [hsilent.transfers]
      nofun
  · have hf := trace_lease (hreads.resolve_left id) ht
    have hs : shortage claims es.reverse = some k := hs
    cases hv : r.verdict with
    | done =>
      rw [hv] at hf
      cases hf.2.symm.trans hs
    | unknown =>
      rw [hv] at hf
      exact .inr ⟨hf.2.1 k hs, warned hf.2.2⟩
    | lost =>
      rw [hv] at hf
      cases hf.before.shortage.symm.trans hs
    | refused e =>
      rw [hv] at hf
      obtain ⟨hswept, hc⟩ := hf
      exact (hc k hs).imp_left fun ⟨hk, he, hp⟩ => ⟨hk, he ▸ rfl, hp, False.elim, hswept⟩

/-- **Storage that runs out in front of the linearization point.** The operation is refused with
    `ResourceExhausted`, the handle stays usable, and nothing was transferred, apart from the
    sweeps of a lease; so nothing went to `quarantine/`. -/
theorem exhausted_before (hop : op.Changes) (hq : h.poisoned = none)
    (hreads : op.Moves ∨ ReadsSound es) (ht : (op.program codec h).Trace es (r, h'))
    (hs : shortage op.own es.reverse = some .before) :
    r.verdict = .refused .resourceExhausted ∧ h'.poisoned = none ∧
      (op.Moves → transfers es.reverse = []) ∧
      ∀ x ∈ transfers es.reverse, Swept x ∧ ¬ Quarantined x := by
  rcases trace_charged hop hq hreads ht hs with ⟨-, hv, hp, hnone, hswept⟩ | ⟨hbehind, -⟩
  · exact ⟨hv, hp, hnone, fun x hx => ⟨hswept x hx, (hswept x hx).not_quarantined⟩⟩
  · cases hbehind

end Storage

/-- The unnamed file of an enqueue finds no room. -/
theorem tmpfile_exhausted : ∃ es r h',
    ((Op.enqueue sampleJob).program sampleCodec sampleHandle).Trace es (r, h') ∧
    shortage (Op.enqueue sampleJob).own es.reverse = some .before := by
  have hrun : (soloCall (fun
      | .openTmpfile _ => some .enospc
      | _ => none) (.enqueue sampleJob)).map
        (fun x => shortage (Op.enqueue sampleJob).own x.1.reverse) = some (some .before) := by
    decide +kernel
  obtain ⟨⟨es, ⟨r, h'⟩, w⟩, hrun, hs⟩ := Option.map_eq_some_iff.mp hrun
  exact ⟨es, r, h', Prog.trace_of_solo hrun, hs⟩

/-- Such an enqueue is refused. -/
theorem exhausted_before_enqueue : ∃ es r h',
    ((Op.enqueue sampleJob).program sampleCodec sampleHandle).Trace es (r, h') ∧
    shortage (Op.enqueue sampleJob).own es.reverse = some .before ∧
    r.verdict = .refused .resourceExhausted ∧ h'.poisoned = none ∧ transfers es.reverse = [] := by
  obtain ⟨es, r, h', ht, hs⟩ := tmpfile_exhausted
  obtain ⟨hv, hp, hnone, -⟩ :=
    exhausted_before (show (Op.enqueue sampleJob).Changes from trivial) rfl (.inl trivial) ht hs
  exact ⟨es, r, h', ht, hs, hv, hp, hnone trivial⟩

/-! ## 4. Barriers -/

section Barriers

variable {codec : CursorCodec} {h h' : Handle} {t : CallLog} {own : Transfer → Bool}
  {E : CallLog → (a : Act) → a.Resp → Prop}

/-- What the barriers of a batch leave behind: a shortage, if one was met, at a barrier. -/
structure Synced (own : Transfer → Bool) (failed : Bool) (t : CallLog) : Prop where
  transfers : transfers t = []
  made : made t = []
  fine : failed = false → shortage own t = none
  behind : ∀ k, shortage own t = some k → k = .behind

theorem Synced.fsynced {failed : Bool} (hs : Synced own failed t) (dir : Dir) (u : Unit) :
    Synced own failed (⟨.fsyncDir dir, .ok u⟩ :: t) where
  transfers := (transfers_quiet rfl).trans hs.transfers
  made := hs.made
  fine := fun hf => (shortage_fine rfl).trans (hs.fine hf)
  behind := fun k hk => hs.behind k ((shortage_fine rfl).symm.trans hk)

theorem Synced.failed {failed : Bool} (hs : Synced own failed t) (dir : Dir) (e : IoError) :
    Synced own true (⟨.fsyncDir dir, .error e⟩ :: t) where
  transfers := (transfers_quiet rfl).trans hs.transfers
  made := hs.made
  fine := nofun
  behind := fun k hk => by
    rcases Option.or_eq_some_iff.mp hk with hk | ⟨-, hk⟩
    · exact hs.behind k hk
    · split at hk
      · exact (Option.some.inj hk).symm.trans (standing_barrier hs.made dir)
      · cases hk

/-- The first error counts, after all directories were tried. -/
theorem syncAll_synced (dirs : List Dir) (first : Option IoError) (hs : Synced own first.isSome t) :
    (syncAll dirs first).Meets (recorder E) h t fun r h' t' =>
      h' = h ∧ Synced own (r matches .error _) t' := by
  induction dirs generalizing first t with
  | nil =>
    cases first with
    | none => exact Task.meets_pure.mpr ⟨rfl, hs⟩
    | some e => exact Task.meets_throw.mpr ⟨rfl, hs⟩
  | cons dir rest ih =>
    refine Task.meets_bind.mpr (Task.meets_attempt.mpr
      (Task.meets_call.mpr ⟨trivial, fun r _ => Task.then_ok.mpr ?_⟩))
    cases r with
    | ok u => exact ih first (hs.fsynced dir u)
    | error e =>
      refine ih _ ?_
      cases first <;> exact hs.failed dir e

/-- A commit that met a shortage met it at a barrier, and poisoned the handle. -/
theorem commit_poisons (own : Transfer → Bool) (b : Batch) : b.commit.Meets (recorder E) h [] fun _ h' t =>
    transfers t = [] ∧ ∀ k, shortage own t = some k → k = .behind ∧ h'.poisoned.isSome = true := by
  have hstart : Synced own (none : Option IoError).isSome [] := ⟨rfl, rfl, fun _ => rfl, nofun⟩
  refine Task.meets_bind.mpr (Task.meets_attempt.mpr (Task.meets_bind.mpr
    (Task.Meets.mono (syncAll_synced b.dirty.dirs none hstart) ?_)))
  rintro r h₁ t₁ ⟨rfl, hs⟩
  cases r with
  | ok u =>
    refine Task.then_ok.mpr (Task.meets_remember.mpr (Task.then_ok.mpr (Task.meets_pure.mpr ?_)))
    exact ⟨hs.transfers, fun k hk => by cases (hs.fine rfl).symm.trans hk⟩
  | error e =>
    refine Task.then_error.mpr (Task.then_ok.mpr ?_)
    refine Task.meets_bind.mpr (Task.meets_remember.mpr (Task.then_ok.mpr (Task.meets_pure.mpr ?_)))
    refine ⟨hs.transfers, fun k hk => ⟨hs.behind k hk, ?_⟩⟩
    cases hp : h₁.poisoned <;> simp [Handle.poison, hp]

end Barriers

/-- A call that failed for want of storage. -/
def starved (m : QueueMoment) : Bool :=
  match m.event with
  | .acted _ a r => a.exhausted r
  | _ => false

/-- Storage runs out at the barrier behind the link of an enqueue. -/
def starvedEnqueue : Option QueueConfig :=
  (queueSystem sampleCodec).call (Act.failing (fun
    | .fsyncDir _ => some .enospc
    | _ => none) 0) 0 (.enqueue sampleJob) 100 sampleConfig

end SteadQ
