/-
  File:      SteadQ/Poisoned.lean
  Subject:   WHAT A POISONED HANDLE STILL DOES.

  Every mutation asks `check_not_poisoned`, but `retry_at`, `retry_after` and a policy with a
  positive delay take the wall floor before they ask, and taking it may advance the watermark.
-/
import SteadQ.Fresh

namespace SteadQ

open Octet Interact

variable {codec : CursorCodec} {h : Handle} {op : Op} {reason : PoisonReason}

/-! ## 1. Calls that change nothing -/

/-- Whatever the environment chooses, the file system stays as it is. -/
def Act.Harmless (a : Act) : Prop :=
  ∀ (t : HandleId) (w : World) (ch : Choice) (r : a.Resp) (w' : World),
    w.step t a ch = some (r, w') → w' = w

/-- Only harmless calls are admitted. -/
def frozen : Discipline Act.Resp Unit where
  next := fun _ _ _ => ()
  allow := fun _ a => a.Harmless

/-- The error of a call that was not committed. -/
def OpResult.refusal : OpResult → Option Error
  | .enqueue (.notCommitted _ e) => some e
  | .lease (.notCommitted e) => some e
  | .ack (.notCommitted e) => some e
  | .renew (.notCommitted e) => some e
  | .transition (.notCommitted e) => some e
  | _ => none

/-- The call is refused for `reason` and changes nothing, whatever the answers; the handle keeps
    its reason. -/
def Op.Frozen (codec : CursorCodec) (op : Op) (h : Handle) (reason : PoisonReason) : Prop :=
  (op.program codec h).Follows frozen (fun x _ =>
    x.1.refusal = some (.queuePoisoned reason.text) ∧ x.2.poisoned = some reason) ()

/-- The delay of a retry under a policy, where the policy gives one. -/
def policyDelayMs (f : FormatRecord) (lease : LeaseInfo) (policy : RetryPolicy) :
    Except RetryError UInt64 := retryDelayMs f.queueId lease.jobId lease.attempt policy

/-- The mutations of a handle; a retry under a policy has a valid one. -/
def Op.Mutates : Op → Prop
  | .recover .. => False
  | .retryWithPolicy _ policy => policy.validate = .ok ()
  | _ => True

/-- Calls that take the wall floor before they ask whether the handle is poisoned. -/
def Op.takesFloorFirst (f : FormatRecord) : Op → Bool
  | .retryAt .. => true
  | .retryAfter .. => true
  | .retryWithPolicy info policy =>
    match policyDelayMs f info policy with
    | .ok delayMs => delayMs ≠ 0
    | .error _ => false
  | _ => false

/-- A valid policy always gives a delay. -/
theorem policyDelayMs_ok (f : FormatRecord) (info : LeaseInfo) {policy : RetryPolicy}
    (hv : policy.validate = .ok ()) : ∃ delayMs, policyDelayMs f info policy = .ok delayMs := by
  simp only [policyDelayMs, retryDelayMs, hv, bind, Except.bind]
  split
  · exact ⟨_, rfl⟩
  · split
    · exact ⟨_, rfl⟩
    · split
      · exact ⟨_, rfl⟩
      · exact ⟨_, rfl⟩

/-! ## 2. Calls that ask first -/

theorem lease_poisoned (hp : h.poisoned = some reason) (deferred : Bool) (durationNs : UInt64)
    (entries rounds : Nat) : (lease deferred durationNs entries rounds).start h =
      .ret (.ok (.notCommitted (.queuePoisoned reason.text)), h) := by
  obtain ⟨⟩ := h
  cases hp
  cases rounds <;> rfl

theorem enqueue_poisoned (hp : h.poisoned = some reason) (job : EnqueueInput) :
    (enqueue job).start h =
      .ret (.ok (.notCommitted (.uncommitted (zeros 16)) (.queuePoisoned reason.text)), h) := by
  obtain ⟨_, _, _, _, _, _, _, ⟨_, _, deferred⟩⟩ := h
  cases hp
  cases deferred <;> rfl

theorem retry_poisoned (hp : h.poisoned = some reason) (info : LeaseInfo) (timing : RetryTiming) :
    (retry info timing).start h = .ret (.error (.queuePoisoned reason.text), h) := by
  obtain ⟨⟩ := h
  cases hp
  rfl

theorem enqueueStreaming_poisoned (hp : h.poisoned = some reason) (job : EnqueueInput)
    (reader : PayloadReader) : (enqueueStreaming job reader).start h =
      .ret (.ok (.notCommitted (.uncommitted (zeros 16)) (.queuePoisoned reason.text)), h) := by
  obtain ⟨⟩ := h
  cases hp
  rfl

theorem ack_poisoned (hp : h.poisoned = some reason) (deferred : Bool) (info : LeaseInfo) :
    (ack deferred info).start h = .ret (.ok (.notCommitted (.queuePoisoned reason.text)), h) := by
  obtain ⟨⟩ := h
  cases hp
  rfl

theorem renew_poisoned (hp : h.poisoned = some reason) (info : LeaseInfo) (durationNs : UInt64) :
    (renew info durationNs).start h =
      .ret (.ok (.notCommitted (.queuePoisoned reason.text)), h) := by
  obtain ⟨⟩ := h
  cases hp
  rfl

theorem retryNow_poisoned (hp : h.poisoned = some reason) (info : LeaseInfo) :
    (retryNow info).start h = .ret (.ok (.notCommitted (.queuePoisoned reason.text)), h) := by
  obtain ⟨⟩ := h
  cases hp
  rfl

theorem bury_poisoned (hp : h.poisoned = some reason) (info : LeaseInfo) (why : DeadReason) :
    (bury info why).start h = .ret (.ok (.notCommitted (.queuePoisoned reason.text)), h) := by
  obtain ⟨⟩ := h
  cases hp
  rfl

/-- A refusal of a task: nothing is called, and the handle stays as it is. -/
theorem meets_of_start {ε α : Type} {m : QueueM ε α} {r : Except ε α} {s : Handle}
    {Q : Except ε α → Handle → Unit → Prop} (hm : m.start h = .ret (r, s)) (hQ : Q r s ()) :
    m.Meets frozen h () Q := by
  unfold Task.Meets
  rw [hm]
  exact hQ

/-- Without a delay a policy is a retry at once. -/
theorem retryWithPolicy_zero {info : LeaseInfo} {policy : RetryPolicy}
    (hp : h.poisoned = some reason) (hd : policyDelayMs h.format info policy = .ok 0) :
    (retryWithPolicy info policy).Meets frozen h () fun r s _ =>
      r = .ok (.notCommitted (.queuePoisoned reason.text)) ∧ s = h := by
  have hd : retryDelayMs h.format.queueId info.jobId info.attempt policy = .ok 0 := hd
  refine Task.meets_bind.mpr (Task.meets_attempt.mpr (Task.meets_bind.mpr ?_))
  refine Task.meets_memory.mpr (Task.then_ok.mpr (Task.meets_bind.mpr ?_))
  refine Task.meets_ofExcept.mpr ?_
  rw [hd]
  refine Task.then_ok.mpr ?_
  rw [if_pos rfl]
  exact meets_of_start (retry_poisoned hp info .immediate) (Task.then_ok.mpr ⟨rfl, rfl⟩)

/-- The result of a refused call. -/
def Refused (reason : PoisonReason) (h : Handle) (r : Except Empty OpResult) (s : Handle) : Prop :=
  ∀ x, r = .ok x → x.refusal = some (.queuePoisoned reason.text) ∧ s = h

theorem task_refused (hp : h.poisoned = some reason) (hm : op.Mutates)
    (hfirst : op.takesFloorFirst h.format = false) :
    (op.task codec).Meets frozen h () fun r s _ => Refused reason h r s := by
  have refused {x : OpResult} (hx : x.refusal = some (.queuePoisoned reason.text)) :
      Refused reason h (.ok x) h := by
    rintro _ ⟨⟩
    exact ⟨hx, rfl⟩
  cases op with
  | enqueue job =>
    exact Task.meets_map.mpr (meets_of_start (enqueue_poisoned hp job) (refused rfl))
  | enqueueStreaming job reader =>
    exact Task.meets_map.mpr (meets_of_start (enqueueStreaming_poisoned hp job reader) (refused rfl))
  | lease deferred durationNs entries rounds =>
    exact Task.meets_map.mpr
      (meets_of_start (lease_poisoned hp deferred durationNs entries rounds) (refused rfl))
  | ack deferred info =>
    exact Task.meets_map.mpr (meets_of_start (ack_poisoned hp deferred info) (refused rfl))
  | renew info durationNs =>
    exact Task.meets_map.mpr (meets_of_start (renew_poisoned hp info durationNs) (refused rfl))
  | retryNow info =>
    exact Task.meets_map.mpr (meets_of_start (retryNow_poisoned hp info) (refused rfl))
  | retryAt info nb => cases hfirst
  | retryAfter info durationNs => cases hfirst
  | retryWithPolicy info policy =>
    obtain ⟨delayMs, hd⟩ := policyDelayMs_ok h.format info hm
    have hzero : delayMs = 0 := by simpa [Op.takesFloorFirst, hd] using hfirst
    rw [hzero] at hd
    refine Task.meets_map.mpr (Task.Meets.mono (retryWithPolicy_zero hp hd) ?_)
    rintro _ _ _ ⟨rfl, rfl⟩
    exact refused rfl
  | bury info why =>
    exact Task.meets_map.mpr (meets_of_start (bury_poisoned hp info why) (refused rfl))
  | recover budget scanBudget => exact hm.elim

/-! ## 3. Calls that take the floor first -/

theorem may_looking {ε α : Type} {m : LookM ε α} {x : Except ε α} {s : Handle}
    (hm : m.May h x s) : (looking m).May h x h := hm.peek fun _ r => ⟨r, rfl⟩

theorem may_mark {ε : Type} (m : Mark) : (mark m : QueueM ε Unit).May h (.ok ()) h :=
  Prog.Leads.act (Act.mark m) _ () _ (.ret _)

/-- The control directory cannot be opened. -/
theorem openRelative_mayFail (path : Path) : (openRelative path).May h (.error .eio) h :=
  Prog.Leads.act (Look.openDirectory rootDir path) _ (Except.error IoError.eio) _ (.ret _)

/-- What the caller sees of it. -/
def openFailure : Error := .ioFailure IoError.eio.text

theorem authenticated_mayFail (attempts : Nat) :
    (authenticatedWallFloorWithAttempts attempts).May h (.error openFailure) h := by
  have hopen : (Task.mapErr (fun e : IoError => WatermarkReadError.io e.text)
      (looking (openRelative controlPath)) : QueueM WatermarkReadError Dir).May h
      (.error (.io IoError.eio.text)) h := (may_looking (openRelative_mayFail _)).mapErr
  have hread : (tryReadWallWatermark attempts).May h (.error (.io IoError.eio.text)) h :=
    hopen.bind_error
  exact Task.May.bind_error (hread.mapErr)

theorem stabilized_mayFail : stabilizedWallFloor.May h (.error openFailure) h :=
  Task.May.bind_error ((may_looking (openRelative_mayFail _)).mapErr)

/-- A failure that is not transient poisons the handle; a poisoned one keeps its reason. -/
theorem watermarkAuthority_mayFail {α : Type} {m : QueueM Error α}
    (hm : m.May h (.error openFailure) h) :
    (watermarkAuthority m).May h (.error openFailure) (h.poison .watermarkAuthorityLost) := by
  refine .bind hm.attempt ?_
  exact .bind (Task.may_remember _) (Task.may_throw _)

theorem wallFloor_mayFail :
    wallFloorForMutation.May h (.error openFailure) (h.poison .watermarkAuthorityLost) := by
  have hfloor : (wallFloorForMutationWithAttempts watermarkReadAttempts).May h
      (.error openFailure) (h.poison .watermarkAuthorityLost) := by
    refine .bind Task.may_memory ?_
    split
    · exact (watermarkAuthority_mayFail stabilized_mayFail).bind_error
    · exact ((watermarkAuthority_mayFail (authenticated_mayFail _)).bind_error).bind_error
  exact .bind (may_mark _) (.bind hfloor.attempt (.bind (may_mark _) (Task.may_throw _)))

theorem transitionOutcome_mayFail {m : QueueM Error TransitionOutcome} {s : Handle} {e : Error}
    (hm : m.May h (.error e) s) : (transitionOutcome m).May h (.ok (.notCommitted e)) s :=
  .bind hm.attempt (Task.may_pure _)

theorem retryWithPolicy_mayFail {info : LeaseInfo} {policy : RetryPolicy} {delayMs delayNs : UInt64}
    (hd : policyDelayMs h.format info policy = .ok delayMs) (hpos : delayMs ≠ 0)
    (hmul : checkedMulU64 delayMs 1000000 = some delayNs) :
    (retryWithPolicy info policy).May h (.ok (.notCommitted openFailure))
      (h.poison .watermarkAuthorityLost) := by
  have hd : retryDelayMs h.format.queueId info.jobId info.attempt policy = .ok delayMs := hd
  refine transitionOutcome_mayFail (.bind Task.may_memory ?_)
  rw [hd]
  refine .bind (Task.may_ofExcept (.ok delayMs)) ?_
  rw [if_neg hpos, hmul]
  exact .bind (Task.may_ofExcept (.ok delayNs)) wallFloor_mayFail.bind_error

/-- A delay that does not fit in nanoseconds is refused for another reason. -/
theorem retryWithPolicy_overflow {info : LeaseInfo} {policy : RetryPolicy} {delayMs : UInt64}
    (hd : policyDelayMs h.format info policy = .ok delayMs) (hpos : delayMs ≠ 0)
    (hmul : checkedMulU64 delayMs 1000000 = none) :
    (retryWithPolicy info policy).May h (.ok (.notCommitted (.invalidInput "delay overflow"))) h := by
  have hd : retryDelayMs h.format.queueId info.jobId info.attempt policy = .ok delayMs := hd
  refine transitionOutcome_mayFail (.bind Task.may_memory ?_)
  rw [hd]
  refine .bind (Task.may_ofExcept (.ok delayMs)) ?_
  rw [if_neg hpos, hmul]
  exact (Task.may_ofExcept (.error _)).bind_error

/-- A call that takes the floor first may be refused for another reason. -/
theorem may_other (codec : CursorCodec) (reason : PoisonReason) (hm : op.Mutates) (hfirst : op.takesFloorFirst h.format = true) :
    ∃ r s, (op.task codec).May h (.ok r) s ∧ r.refusal ≠ some (.queuePoisoned reason.text) := by
  have hne : some openFailure ≠ some (.queuePoisoned reason.text) := nofun
  cases op with
  | retryAt info nb =>
    exact ⟨_, _, (transitionOutcome_mayFail wallFloor_mayFail.bind_error).map, hne⟩
  | retryAfter info durationNs =>
    exact ⟨_, _, (transitionOutcome_mayFail wallFloor_mayFail.bind_error).map, hne⟩
  | retryWithPolicy info policy =>
    obtain ⟨delayMs, hd⟩ := policyDelayMs_ok h.format info hm
    have hpos : delayMs ≠ 0 := by simpa [Op.takesFloorFirst, hd] using hfirst
    cases hmul : checkedMulU64 delayMs 1000000 with
    | none => exact ⟨_, _, (retryWithPolicy_overflow hd hpos hmul).map, nofun⟩
    | some delayNs => exact ⟨_, _, (retryWithPolicy_mayFail hd hpos hmul).map, hne⟩
  | _ => cases hfirst

/-! ## 4. The frozen calls -/

/-- **A poisoned handle is frozen, except that a delayed retry takes the floor first.** -/
theorem frozen_iff (codec : CursorCodec) (op : Op) (h : Handle) (reason : PoisonReason)
    (hp : h.poisoned = some reason) (hm : op.Mutates) :
    op.Frozen codec h reason ↔ op.takesFloorFirst h.format = false := by
  constructor
  · intro hf
    by_contra hfirst
    obtain ⟨r, s, hmay, hr⟩ := may_other codec reason hm (by simpa using hfirst)
    have hleads : (op.program codec h).Leads (r, s) := Prog.Leads.bind hmay (.ret _)
    obtain ⟨_, hpost, _⟩ := hleads.post (fun _ _ _ => trivial) hf
    exact hr hpost
  · intro hfirst
    refine Op.meets_program (Task.Meets.mono (task_refused hp hm hfirst) ?_)
    intro r s _ hr x hx
    obtain ⟨hx, rfl⟩ := hr x hx
    exact ⟨hx, hp⟩

/-- A handle that lost track of a publication is refused a burial. -/
theorem frozen_iff_bury :
    { sampleHandle with poisoned := some .postLinearizationStateUnknown }.poisoned =
        some .postLinearizationStateUnknown ∧
      ((Op.bury sampleLease .consumerRejected).Frozen sampleCodec
        { sampleHandle with poisoned := some .postLinearizationStateUnknown }
        .postLinearizationStateUnknown ↔
      (Op.bury sampleLease .consumerRejected).takesFloorFirst sampleFormat = false) :=
  ⟨rfl, frozen_iff sampleCodec (.bury sampleLease .consumerRejected) _ _ rfl trivial⟩

/-- At time 0 an enqueue loses track of its publication: the barrier behind the link fails. -/
def lostEnqueue : Option QueueConfig :=
  (queueSystem sampleCodec).call (Act.failing (fun
    | .fsyncDir _ => some .eio
    | _ => none) 0) 0 (.enqueue sampleJob) 100 sampleConfig

/-- Five minutes later the handle is asked for a retry. -/
def lateRetry : QueueConfig → Option QueueConfig :=
  (queueSystem sampleCodec).call (Act.usual 300000000000) 0 (.retryAt sampleLease 0) 100

/-- What the two calls show: the handle is poisoned, the retry is refused for that reason, and the
    watermark has advanced. -/
def lateRetryAdvances (c c' : QueueConfig) : Bool :=
  (handleOf c 0).bind Handle.poisoned = some .postLinearizationStateUnknown ∧
    (lastResult c').bind OpResult.refusal =
      some (.queuePoisoned PoisonReason.postLinearizationStateUnknown.text) ∧
    c.world.watermark = some ⟨0, 0⟩ ∧ c'.world.watermark = some ⟨5, 1⟩

/-- **A poisoned handle that is refused a delayed retry has replaced the watermark.** -/
theorem poisoned_retryAt_advances : ∃ c c' h, (queueSystem sampleCodec).Reachable sampleConfig c ∧
    c.threads 0 = .idle h ∧ h.poisoned = some .postLinearizationStateUnknown ∧
    lateRetry c = some c' ∧
    (lastResult c').bind OpResult.refusal =
      some (.queuePoisoned PoisonReason.postLinearizationStateUnknown.text) ∧
    c.world.watermark = some ⟨0, 0⟩ ∧ c'.world.watermark = some ⟨5, 1⟩ := by
  have hrun : (lostEnqueue.bind fun c => (lateRetry c).map (lateRetryAdvances c)) = some true := by
    decide +kernel
  obtain ⟨c, hc, hrun⟩ := Option.bind_eq_some_iff.mp hrun
  obtain ⟨c', hc', hshows⟩ := Option.map_eq_some_iff.mp hrun
  simp only [lateRetryAdvances, decide_eq_true_eq] at hshows
  obtain ⟨hpoisoned, hresult, hbefore, hafter⟩ := hshows
  obtain ⟨h, hh, hp⟩ := Option.bind_eq_some_iff.mp hpoisoned
  exact ⟨c, c', h, System.reachable_of_call .init hc, idle_of_handleOf hh, hp, hc', hresult,
    hbefore, hafter⟩

end SteadQ
