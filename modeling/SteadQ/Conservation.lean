/-
  File:      SteadQ/Conservation.lean
  Subject:   WHAT THE COMMIT OF A BATCH COUNTS.

  A batch answers its calls with `Pending` and counts; `Batch.commit` reports the counts. An
  acknowledgment that finds the receipt of an earlier one is answered `Pending` as well, but is
  not counted.
-/
import SteadQ.Outcome

namespace SteadQ

open Octet Interact

/-! ## 1. Runs of a batch -/

inductive BatchCall where
  | enqueue (job : EnqueueInput)
  | lease (durationNs : UInt64) (entries rounds : Nat)
  | ack (lease : LeaseInfo)

inductive BatchAnswer where
  | enqueue (outcome : BatchEnqueueOutcome)
  | lease (outcome : BatchLeaseOutcome)
  | ack (outcome : BatchAckOutcome)

def Batch.call (b : Batch) : BatchCall → QueueM Empty (Batch × BatchAnswer)
  | .enqueue job => do
    let (b, outcome) ← b.enqueue job
    return (b, .enqueue outcome)
  | .lease durationNs entries rounds => do
    let (b, outcome) ← b.lease durationNs entries rounds
    return (b, .lease outcome)
  | .ack lease => do
    let (b, outcome) ← b.ack lease
    return (b, .ack outcome)

namespace BatchAnswer

/-- The job that is pending. -/
def ticket : BatchAnswer → Option EnqueueTicket
  | .enqueue (.pending ticket) => some ticket
  | _ => none

def isPendingLease : BatchAnswer → Bool
  | .lease (.pending _) => true
  | _ => false

def isPendingAck : BatchAnswer → Bool
  | .ack .pending => true
  | _ => false

end BatchAnswer

/-- A call of a batch: its answer and the system calls it made, newest first. -/
structure Batched where
  answer : BatchAnswer
  log : CallLog

/-- The calls of a batch, newest first. -/
inductive BatchRun (h₀ : Handle) : Batch → Handle → List Batched → Prop where
  | start : BatchRun h₀ .new h₀ []
  | call {b b' : Batch} {h h' : Handle} {past : List Batched} (hr : BatchRun h₀ b h past)
      (c : BatchCall) {es : Log Act.Resp} {answer : BatchAnswer}
      (htrace : ((b.call c).start h).Trace es (.ok (b', answer), h')) :
    BatchRun h₀ b' h' (⟨answer, es.reverse⟩ :: past)

/-- What a commit should report about these calls, given whether its barrier succeeded. -/
def Conserved (past : List Batched) : Except BatchCommitOutcome BatchCommitOutcome → Prop
  | .ok o =>
    o.committedEnqueues = past.reverse.filterMap (·.answer.ticket) ∧
    o.committedLeases = past.countP (·.answer.isPendingLease) ∧
    o.committedAcks = past.countP (·.answer.isPendingAck) ∧
    o.outcomeUnknownEnqueues = [] ∧ o.outcomeUnknownLeases = [] ∧ o.outcomeUnknownAcks = []
  | .error o =>
    o.outcomeUnknownEnqueues.map Prod.fst = past.reverse.filterMap (·.answer.ticket) ∧
    o.outcomeUnknownLeases.length = past.countP (·.answer.isPendingLease) ∧
    o.outcomeUnknownAcks.length = past.countP (·.answer.isPendingAck) ∧
    o.committedEnqueues = [] ∧ o.committedLeases = 0 ∧ o.committedAcks = 0

/-! ## 2. What a call adds -/

/-- A pending acknowledgment that made its receipt. -/
def Batched.receipted (x : Batched) : Bool :=
  x.answer.isPendingAck && !(transfers x.log).isEmpty

/-- The counts of a batch behind a call. -/
structure Adds (b b' : Batch) (x : Batched) : Prop where
  enqueues : b'.pendingEnqueues = b.pendingEnqueues ++ x.answer.ticket.toList
  leases : b'.pendingLeases = b.pendingLeases + x.answer.isPendingLease.toNat
  acks : b'.pendingAcks = b.pendingAcks + x.receipted.toNat

section Calls

variable {h : Handle} {b : Batch} {α β : Type}

/-- An operation on the dirty set of the batch: the counts are those of before. -/
theorem adds_of_borrow {m : QueueM Empty α} {k : Batch × α → QueueM Empty (Batch × β)}
    {answer : β → BatchAnswer} {P : α → CallLog → Prop}
    (hm : ∀ s, m.Notes Sigma.mk s [] fun r _ t => ∀ a, r = .ok a → P a t)
    (hk : ∀ dirty a s t, P a t → (k ({ b with dirty := dirty }, a)).Notes Sigma.mk s t
      fun r _ t' => ∀ x, r = .ok x → Adds b x.1 ⟨answer x.2, t'⟩) :
    (b.borrow m >>= k).Notes Sigma.mk h [] fun r _ t => ∀ x, r = .ok x →
      Adds b x.1 ⟨answer x.2, t⟩ := by
  refine .bind (Q := fun r _ t => ∀ x, r = .ok x →
    P x.2 t ∧ ∃ dirty, x.1 = { b with dirty := dirty }) ?_ ?_ (fun e => nomatch e)
  · refine Task.notes_memory (.bind (Task.notes_remember (Q := fun _ _ t => t = []) rfl) ?_
      (fun e => nomatch e))
    rintro _ s _ - rfl
    refine .bind (hm s) (fun a s t _ ha => Task.notes_memory ?_) (fun e => nomatch e)
    refine .bind (Task.notes_remember (Q := fun _ _ t => P a t) (ha a rfl)) ?_ (fun e => nomatch e)
    rintro _ _ _ - ha
    refine Task.notes_pure ?_
    rintro _ ⟨⟩
    exact ⟨ha, _, rfl⟩
  · rintro ⟨b', a⟩ s t - hx
    obtain ⟨ha, dirty, rfl⟩ := hx _ rfl
    exact hk dirty a s t ha

theorem enqueue_adds (b : Batch) (job : EnqueueInput) :
    (b.enqueue job).Notes Sigma.mk h [] fun r _ t =>
      ∀ x, r = .ok x → Adds b x.1 ⟨.enqueue x.2, t⟩ := by
  refine adds_of_borrow (P := fun _ _ => True) (fun _ => Task.notes_any fun _ _ _ _ _ _ => trivial)
    fun dirty outcome s t _ => ?_
  cases outcome <;> refine Task.notes_pure ?_ <;> rintro _ ⟨⟩ <;>
    exact ⟨by simp [BatchAnswer.ticket], rfl, rfl⟩

theorem lease_adds (b : Batch) (durationNs : UInt64) (entries rounds : Nat) :
    (b.lease durationNs entries rounds).Notes Sigma.mk h [] fun r _ t =>
      ∀ x, r = .ok x → Adds b x.1 ⟨.lease x.2, t⟩ := by
  refine adds_of_borrow (P := fun _ _ => True) (fun _ => Task.notes_any fun _ _ _ _ _ _ => trivial)
    fun dirty outcome s t _ => ?_
  cases outcome <;> refine Task.notes_pure ?_ <;> rintro _ ⟨⟩ <;>
    exact ⟨by simp [BatchAnswer.ticket], rfl, rfl⟩

/-- What the outcome of an acknowledgment tells about its receipt. -/
theorem ack_receipts (deferred : Bool) (lease : LeaseInfo) :
    (ack deferred lease).Notes Sigma.mk h [] fun r _ t => ∀ o, r = .ok o →
      (o = .acked → transfers t ≠ []) ∧ (o = .alreadyAcked → transfers t = []) := by
  refine Task.Meets.mono (D := recorder fun _ _ _ => True)
    (ack_told (before_nil (fun _ => true) h) deferred lease) ?_
  intro r h' t htold
  refine ⟨List.nil_suffix, fun o hr => ⟨?_, ?_⟩⟩
  · rintro rfl
    obtain ⟨x, -, hx⟩ := htold _ hr
    rw [hx.transfers]
    exact List.cons_ne_nil _ _
  · rintro rfl
    exact (htold _ hr).1.transfers

theorem ack_adds (b : Batch) (lease : LeaseInfo) :
    (b.ack lease).Notes Sigma.mk h [] fun r _ t =>
      ∀ x, r = .ok x → Adds b x.1 ⟨.ack x.2, t⟩ := by
  refine adds_of_borrow (fun _ => ack_receipts true lease) fun dirty outcome s t htold => ?_
  have plain {o : BatchAckOutcome} (ho : (BatchAnswer.ack o).isPendingAck = false) :
      Adds b { b with dirty := dirty } ⟨.ack o, t⟩ :=
    ⟨by simp [BatchAnswer.ticket], rfl, by simp [Batched.receipted, ho]⟩
  cases outcome <;> refine Task.notes_pure ?_ <;> rintro _ ⟨⟩
  case acked =>
    have hreceipt : (transfers t).isEmpty = false := List.isEmpty_eq_false_iff.mpr (htold.1 rfl)
    exact ⟨by simp [BatchAnswer.ticket], rfl, by
      simp [Batched.receipted, BatchAnswer.isPendingAck, hreceipt]⟩
  case alreadyAcked =>
    exact ⟨by simp [BatchAnswer.ticket], rfl, by simp [Batched.receipted, htold.2 rfl]⟩
  case leaseLost => exact plain rfl
  case notCommitted => exact plain rfl
  case outcomeUnknown => exact plain rfl

/-- **One call adds what it answered**, an acknowledgment that made no receipt apart. -/
theorem call_adds (b : Batch) (c : BatchCall) :
    (b.call c).Notes Sigma.mk h [] fun r _ t => ∀ x, r = .ok x → Adds b x.1 ⟨x.2, t⟩ := by
  have wrap {β : Type} {m : QueueM Empty (Batch × β)} {answer : β → BatchAnswer}
      (hm : m.Notes Sigma.mk h [] fun r _ t => ∀ x, r = .ok x → Adds b x.1 ⟨answer x.2, t⟩) :
      (m >>= fun x => pure (x.1, answer x.2) : QueueM Empty (Batch × BatchAnswer)).Notes Sigma.mk h []
        fun r _ t => ∀ x, r = .ok x → Adds b x.1 ⟨x.2, t⟩ := by
    refine .bind hm (fun x s t _ hx => Task.notes_pure ?_) (fun e => nomatch e)
    rintro _ ⟨⟩
    exact hx x rfl
  cases c with
  | enqueue job => exact wrap (enqueue_adds b job)
  | lease durationNs entries rounds => exact wrap (lease_adds b durationNs entries rounds)
  | ack lease => exact wrap (ack_adds b lease)

end Calls

/-! ## 3. The counts of a run -/

/-- The counts behind a run. -/
theorem BatchRun.counts {h₀ h : Handle} {b : Batch} {past : List Batched}
    (hr : BatchRun h₀ b h past) :
    b.pendingEnqueues = past.reverse.filterMap (·.answer.ticket) ∧
    b.pendingLeases = past.countP (·.answer.isPendingLease) ∧
    b.pendingAcks = past.countP Batched.receipted := by
  induction hr with
  | start => exact ⟨rfl, rfl, rfl⟩
  | @call b b' h h' past _ c es answer htrace ih =>
    obtain ⟨henqueues, hleases, hacks⟩ := ih
    have hadds := (call_adds b c).trace htrace _ rfl
    refine ⟨?_, ?_, ?_⟩
    · rw [hadds.enqueues, henqueues, List.reverse_cons, List.filterMap_append, List.filterMap_cons,
        List.filterMap_nil]
      cases answer.ticket <;> rfl
    · rw [hadds.leases, hleases, List.countP_cons]
      cases answer.isPendingLease <;> rfl
    · rw [hadds.acks, hacks, List.countP_cons]
      cases Batched.receipted _ <;> rfl

/-! ## 4. The commit -/

/-- A barrier that failed. -/
def Act.unsynced : (a : Act) → a.Resp → Bool
  | .fsyncDir _, .error _ => true
  | _, _ => false

/-- A commit succeeds if no barrier failed. -/
def synced (t : CallLog) : Bool := t.all fun e => !e.1.unsynced e.2

section Commit

variable {h : Handle} {t : CallLog}

theorem syncAll_synced_iff (dirs : List Dir) {first : Option IoError}
    (ht : synced t = first.isNone) :
    (syncAll dirs first).Notes Sigma.mk h t fun r _ t' => synced t' = r.isOk := by
  induction dirs generalizing first t h with
  | nil =>
    cases first with
    | none => exact Task.notes_pure ht
    | some e => exact Task.notes_throw ht
  | cons dir rest ih =>
    refine .attempt (Task.notes_call (Q := fun r _ t' => synced t' = (r.isOk && first.isNone))
      fun r => ?_) fun r s t' _ hr => ?_
    · rw [← ht]
      cases r <;> rfl
    · cases r with
      | ok u => exact ih hr
      | error e =>
        have hfirst : synced t' = (first.or (some e)).isNone := by
          cases first <;> exact hr
        exact ih hfirst

/-- What a commit reports. -/
def Batch.Reported (b : Batch) : Except BatchCommitOutcome BatchCommitOutcome → Prop
  | .ok o => o = ⟨b.pendingEnqueues, [], b.pendingLeases, [], b.pendingAcks, []⟩
  | .error o => ∃ e, o = ⟨[], b.pendingEnqueues.map (·, e), 0, List.replicate b.pendingLeases e, 0,
      List.replicate b.pendingAcks e⟩

theorem commit_reports (b : Batch) : b.commit.Notes Sigma.mk h [] fun r _ t => ∀ o, r = .ok o →
    b.Reported o ∧ synced t = o.isOk := by
  refine .attempt (Q := fun r _ t => synced t = r.isOk) ?_ fun r s t _ hr => ?_
  · refine .bind (syncAll_synced_iff b.dirty.dirs rfl) (fun _ s t _ ht => ?_) fun _ _ _ _ ht => ht
    exact Task.notes_remember ht
  · cases r with
    | ok u =>
      refine Task.notes_pure ?_
      rintro _ ⟨⟩
      exact ⟨rfl, hr⟩
    | error e =>
      refine .bind (Task.notes_remember (Q := fun _ _ t => synced t = false) hr)
        (fun _ s t _ ht => Task.notes_pure ?_) (fun e => nomatch e)
      rintro _ ⟨⟩
      exact ⟨⟨_, rfl⟩, ht⟩

end Commit

theorem conserved_iff {b : Batch} {past : List Batched}
    {o : Except BatchCommitOutcome BatchCommitOutcome} (ho : b.Reported o)
    (henqueues : b.pendingEnqueues = past.reverse.filterMap (·.answer.ticket))
    (hleases : b.pendingLeases = past.countP (·.answer.isPendingLease)) :
    Conserved past o ↔ b.pendingAcks = past.countP (·.answer.isPendingAck) := by
  cases o with
  | ok o =>
    cases ho
    simp [Conserved, henqueues, hleases]
  | error o =>
    obtain ⟨e, rfl⟩ := ho
    simp [Conserved, henqueues, hleases, Function.comp_def]

/-- The file system at time 0, to handle 0, when nothing fails. -/
def usually (a : Act) (w : World) : Option (a.Resp × World) := w.step 0 a (a.usual 0 w)

/-- One call of handle 0 in it. -/
def usualCall (op : Op) (c : QueueConfig) : Option QueueConfig :=
  (queueSystem sampleCodec).call (Act.usual 0) 0 op 200 c

/-- The lease a handle got last, with the queue behind it. -/
def lastLease (c : QueueConfig) : Option (LeaseInfo × QueueConfig) :=
  match lastResult c with
  | some (.lease (.leased info)) => some (info, c)
  | _ => none

/-- A job is enqueued and leased. -/
def leasedSample : Option (LeaseInfo × QueueConfig) :=
  (usualCall (.enqueue sampleJob) sampleConfig).bind fun c =>
    (usualCall (.lease false 1000000000 10 0) c).bind lastLease

/-- It is acknowledged as well. -/
def acknowledgedSample : Option (LeaseInfo × QueueConfig) :=
  leasedSample.bind fun x => (usualCall (.ack false x.1) x.2).map fun c => (x.1, c)

/-- A batch that acknowledges a lease and is committed: whether the acknowledgment was answered
    `Pending` and made its receipt, and what the commit counts. -/
def ackInBatch (x : LeaseInfo × QueueConfig) : Option (Bool × Bool × Nat) := do
  let h ← handleOf x.2 0
  let (es, (r, h'), w) ← ((Batch.new.call (.ack x.1)).start h).solo usually x.2.world
  match r with
  | .ok (b, answer) => do
    let (_, (r, _), _) ← (b.commit.start h').solo usually w
    match r with
    | .ok (.ok o) => some (answer.isPendingAck, (transfers es.reverse).isEmpty, o.committedAcks)
    | _ => none

/-- The same as a run of a batch. -/
theorem run_of_ackInBatch {x : LeaseInfo × QueueConfig} {pending silent : Bool} {count : Nat}
    (h : ackInBatch x = some (pending, silent, count)) :
    ∃ h₀ b h₁ h₂ ack es o, x.2.threads 0 = .idle h₀ ∧ BatchRun h₀ b h₁ [ack] ∧
      (b.commit.start h₁).Trace es (.ok (.ok o), h₂) ∧ ack.answer.isPendingAck = pending ∧
      (transfers ack.log).isEmpty = silent ∧ o.committedAcks = count := by
  obtain ⟨h₀, hidle, h⟩ := Option.bind_eq_some_iff.mp h
  obtain ⟨⟨es, ⟨r, h₁⟩, w⟩, hack, h⟩ := Option.bind_eq_some_iff.mp h
  cases r with
  | error e => exact nomatch e
  | ok y =>
    obtain ⟨b, answer⟩ := y
    obtain ⟨⟨es', ⟨r, h₂⟩, w'⟩, hcommit, h⟩ := Option.bind_eq_some_iff.mp h
    cases r with
    | error e => exact nomatch e
    | ok o =>
      cases o with
      | error o => cases h
      | ok o =>
        cases h
        exact ⟨h₀, b, h₁, h₂, ⟨answer, es.reverse⟩, es', o, idle_of_handleOf hidle,
          .call .start _ (Prog.trace_of_solo hack), Prog.trace_of_solo hcommit, rfl, rfl, rfl⟩

theorem reachable_leasedSample {x : LeaseInfo × QueueConfig} (hx : leasedSample = some x) :
    (queueSystem sampleCodec).Reachable sampleConfig x.2 := by
  obtain ⟨c₁, h₁, hx⟩ := Option.bind_eq_some_iff.mp hx
  obtain ⟨c₂, h₂, hx⟩ := Option.bind_eq_some_iff.mp hx
  have hlast : x.2 = c₂ := by
    unfold lastLease at hx
    split at hx <;> cases hx
    rfl
  rw [hlast]
  exact System.reachable_of_call (System.reachable_of_call .init h₁) h₂

/-- The acknowledgment of a batch that finds the receipt of an earlier one. -/
theorem acknowledged_twice : ∃ c h₀ b h₁ h₂ ack es o,
    (queueSystem sampleCodec).Reachable sampleConfig c ∧ c.threads 0 = .idle h₀ ∧
    BatchRun h₀ b h₁ [ack] ∧ (b.commit.start h₁).Trace es (.ok (.ok o), h₂) ∧
    ack.answer.isPendingAck = true ∧ transfers ack.log = [] ∧ o.committedAcks = 0 := by
  have hrun : acknowledgedSample.bind ackInBatch = some (true, true, 0) := by decide +kernel
  obtain ⟨x, hx, hack⟩ := Option.bind_eq_some_iff.mp hrun
  obtain ⟨h₀, b, h₁, h₂, ack, es, o, hidle, hr, hcommit, hpending, hsilent, hcount⟩ :=
    run_of_ackInBatch hack
  refine ⟨x.2, h₀, b, h₁, h₂, ack, es, o, ?_, hidle, hr, hcommit, hpending,
    List.isEmpty_iff.mp hsilent, hcount⟩
  obtain ⟨y, hy, hx⟩ := Option.bind_eq_some_iff.mp hx
  obtain ⟨c, hc, rfl⟩ := Option.map_eq_some_iff.mp hx
  exact System.reachable_of_call (reachable_leasedSample hy) hc

end SteadQ
