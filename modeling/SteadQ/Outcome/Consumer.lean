/-
  File:      SteadQ/Outcome/Consumer.lean
  Subject:   WHAT ACK, RETRY, BURY AND RENEW DID, given their outcome.
-/
import SteadQ.Law.Consumer
import SteadQ.Outcome.Publish

namespace SteadQ

open Octet Interact
open Interact.Task (meets_attempt meets_bind meets_ite meets_memory meets_pure meets_remember
  meets_throw then_ok)

/-! ## 1. Verdicts -/

def LeasedMoveOutcome.verdict : LeasedMoveOutcome → Verdict
  | .committed => .done
  | .outcomeUnknown _ => .unknown
  | .sourceGone => .lost
  | .sourceChanged => .lost
  | .collision => .lost
  | .failed e => .refused e

def TransitionOutcome.verdict : TransitionOutcome → Verdict
  | .committed => .done
  | .leaseLost => .lost
  | .notCommitted e => .refused e
  | .outcomeUnknown _ => .unknown

def AckOutcome.verdict : AckOutcome → Verdict
  | .acked => .done
  | .alreadyAcked => .lost
  | .leaseLost => .lost
  | .notCommitted e => .refused e
  | .outcomeUnknown _ => .unknown

def RenewOutcome.verdict : RenewOutcome → Verdict
  | .renewed _ => .done
  | .deferred _ => .done
  | .leaseLost => .lost
  | .notCommitted e => .refused e
  | .outcomeUnknown _ => .unknown

/-- A failure of the code of an operation is a refusal. -/
def errorVerdict {ρ : Type} (verdict : ρ → Verdict) : Except Error ρ → Verdict
  | .ok o => verdict o
  | .error e => .refused e

/-- The entry at the exact path of a lease was renamed to a target. -/
def Departs (lease : LeaseInfo) (target : Target) (x : Transfer) : Prop :=
  ∃ path name, lease.exactSourcePath = path ++ [name] ∧
    x = .rename path name target.directory target.filename

/-! ## 2. The move -/

section Move

variable {ρ α : Type} {E : CallLog → (a : Act) → a.Resp → Prop} {own : Transfer → Bool}
  {q h : Handle} {t : CallLog} {lease : LeaseInfo} {target : Target}

/-- Early code of an operation. -/
theorem Early.errorFate {m : QueueM Error α} {k : α → QueueM Error ρ} {verdict : ρ → Verdict}
    {J : α → Handle → CallLog → Prop} {X : CallLog → Transfer → Prop} {U : Handle → Prop}
    (hm : Early E own q (Charged q.poisoned) m h t J)
    (hk : ∀ a h' t', Before own q h' t' → Silent t t' → J a h' t' →
      (k a).Meets (recorder E) h' t' fun r h'' t'' =>
        Fate own q t' X U (errorVerdict verdict r) h'' t'') :
    (m >>= k).Meets (recorder E) h t fun r h' t' =>
      Fate own q t X U (errorVerdict verdict r) h' t' :=
  Early.fate (hm.weaken fun _ e _ hc => ⟨e, rfl, hc⟩) hk

theorem fate_ofExcept {x : Except Error α} {k : α → QueueM Error ρ} {verdict : ρ → Verdict}
    {X : CallLog → Transfer → Prop} {U : Handle → Prop} (hb : Before own q h t)
    (hk : ∀ a, x = .ok a → (k a).Meets (recorder E) h t fun r h' t' =>
      Fate own q t X U (errorVerdict verdict r) h' t') :
    (Task.ofExcept x >>= k).Meets (recorder E) h t fun r h' t' =>
      Fate own q t X U (errorVerdict verdict r) h' t' := by
  cases x with
  | error e => exact meets_throw.mpr (hb.refused e)
  | ok a => exact hk a rfl

theorem fate_ofOption {o : Option α} {e : Error} {k : α → QueueM Error ρ} {verdict : ρ → Verdict}
    {X : CallLog → Transfer → Prop} {U : Handle → Prop} (hb : Before own q h t)
    (hk : ∀ a, o = some a → (k a).Meets (recorder E) h t fun r h' t' =>
      Fate own q t X U (errorVerdict verdict r) h' t') :
    (Task.ofOption o e >>= k).Meets (recorder E) h t fun r h' t' =>
      Fate own q t X U (errorVerdict verdict r) h' t' := by
  cases o with
  | none => exact meets_throw.mpr (hb.refused e)
  | some a => exact hk a rfl

theorem executeLeasedMove_fate (hb : Before own q h t) (deferred : Bool)
    (source : LeasedSourceWitness) (dst : Dir) (dstName : Name) :
    (executeLeasedMove deferred source dst dstName).Meets (recorder E) h t fun r h' t' =>
      ∀ o, r = .ok o → Fate own q t
        (fun _ x => x = .rename source.directory.path source.name dst.path dstName) (Alike q)
        o.verdict h' t' := by
  have ok {o : LeasedMoveOutcome} {h' : Handle} {t' : CallLog}
      (hf : Fate own q t (fun _ x => x = .rename source.directory.path source.name dst.path dstName)
        (Alike q) o.verdict h' t') : ∀ o', (.ok o : Except Empty _) = .ok o' → Fate own q t
        (fun _ x => x = .rename source.directory.path source.name dst.path dstName) (Alike q)
        o'.verdict h' t' := by
    rintro _ ⟨⟩
    exact hf
  refine meets_bind.mpr (meets_attempt.mpr (Task.Meets.mono
    (looking_looked (Task.always_of_forall fun _ => trivial)) ?_))
  rintro r h₁ t₁ ⟨rfl, hl, -⟩
  have hb₁ := hb.looked hl
  have lost : Fate own q t (fun _ x => x = .rename source.directory.path source.name dst.path dstName)
      (Alike q) .lost h₁ t₁ := ⟨hl.silent, hb₁⟩
  refine then_ok.mpr ?_
  split
  · exact meets_pure.mpr (ok (lost.refuse _))
  · exact meets_pure.mpr (ok lost)
  · exact meets_pure.mpr (ok lost)
  refine meets_bind.mpr (meets_attempt.mpr (Task.Meets.mono (moveWitnessed_fate hb₁
    deferred source.directory source.name dst dstName _ (pure ())) fun r h₂ t₂ hf => ?_))
  have hf := hf.rebase hl.silent
  refine then_ok.mpr ?_
  cases r with
  | error e => cases e <;> exact meets_pure.mpr (ok hf)
  | ok moved =>
    obtain ⟨_, rfl, hb₂⟩ := hf
    refine meets_ite.mpr ⟨fun _ => ?_, fun _ => meets_pure.mpr (ok ⟨_, rfl, hb₂⟩)⟩
    refine meets_bind.mpr (meets_attempt.mpr (Task.Meets.mono
      (late_recordBoth hb₂ source.directory dst) ?_))
    rintro r h₃ t₃ ⟨ha, hl, hok, -⟩
    refine then_ok.mpr ?_
    cases r with
    | ok u => exact meets_pure.mpr (ok ⟨_, rfl, ha, (hok u rfl).1, hl⟩)
    | error e => exact meets_pure.mpr (ok ⟨_, rfl, ha, hl⟩)

theorem ensureAndOpen_early (hb : Before own q h t) (deferred : Bool)
    (dir : Path) : Early E own q (Charged q.poisoned) (ensureAndOpen deferred dir) h t
      fun d _ _ => d.path = dir := by
  refine .bind ((ensureDirWithDirty_early hb deferred dir).mapErr fun _ _ _ => Spent.charged) ?_
  intro _ h₁ t₁ hb₁ _ _
  exact ((openRelative_early hb₁ dir).mapErr fun _ _ _ => Spent.charged).mono
    fun _ _ _ _ hx => hx.2

theorem currentLeasedSource_early (hb : Before own q h t) (lease : LeaseInfo) :
    Early E own q (Charged q.poisoned) (currentLeasedSource lease) h t fun source h' _ =>
      h' = h ∧ ∀ w, source = some w → SourceOf lease w.directory.path w.name := by
  refine early_attemptLook hb (openAndValidateCurrentLease_yields h) fun r t₁ hl hb₁ hr => ?_
  split
  · exact early_pure hb₁ ⟨rfl, fun w hw => hr _ rfl w hw⟩
  · refine meets_bind.mpr (meets_remember.mpr (then_ok.mpr ?_))
    refine meets_throw.mpr ⟨.refl _, nofun, ?_⟩
    rintro _ ⟨⟩
    rw [hb₁.shortage]
    exact charged_none _
  · exact early_throw hb₁ (charged_none _)

/-- The source that was found is the entry at the path of the lease. -/
theorem departs_of_source {w : LeasedSourceWitness} (hw : SourceOf lease w.directory.path w.name)
    {dst : Dir} (hdst : dst.path = target.directory) {x : Transfer}
    (hx : x = .rename w.directory.path w.name dst.path target.filename) : Departs lease target x :=
  ⟨_, _, hw.exact, by rw [hx, hdst]⟩

theorem moveLeased_fate (hb : Before own q h t) (hq : q.poisoned = none) (deferred : Bool)
    {X : CallLog → Transfer → Prop} (hX : ∀ t' x, t <:+ t' → Departs lease target x → X t' x)
    (ticket : TransitionTicket) :
    (moveLeased deferred lease target ticket).Meets (recorder E) h t fun r h' t' =>
      Fate own q t X Warned (errorVerdict TransitionOutcome.verdict r) h' t' := by
  refine Early.errorFate (ensureAndOpen_early hb deferred target.directory) ?_
  intro dst h₁ t₁ hb₁ hs₁ hdst
  refine Early.errorFate (currentLeasedSource_early hb₁ lease) ?_
  rintro source _ t₂ hb₂ hs₂ ⟨rfl, hw⟩
  cases source with
  | none => exact meets_pure.mpr hb₂.lost
  | some w =>
    refine meets_bind.mpr (meets_attempt.mpr (Task.Meets.mono
      (executeLeasedMove_fate hb₂ deferred w dst target.filename) fun r h₃ t₃ hf => ?_))
    refine then_ok.mpr ?_
    cases r with
    | error e => exact nomatch e
    | ok o =>
      have hf : Fate own q t₂ X (Alike q) o.verdict h₃ t₃ :=
        (hf o rfl).mono (fun t' x ht' hx => hX t' x ((hs₁.trans hs₂).past.trans ht')
          (departs_of_source (hw w rfl) hdst hx)) fun _ hu => hu
      cases o with
      | committed => exact meets_pure.mpr hf
      | outcomeUnknown phase =>
        obtain ⟨x, hx, ha, hu⟩ := hf
        refine meets_bind.mpr (meets_remember.mpr (then_ok.mpr ?_))
        exact meets_pure.mpr ⟨x, hx, ha, warned_poison hu hq⟩
      | sourceGone => exact meets_pure.mpr hf
      | sourceChanged =>
        refine meets_bind.mpr (meets_remember.mpr (then_ok.mpr ?_))
        exact meets_throw.mpr ⟨hf.1, by rw [hf.2.shortage]; exact charged_none _⟩
      | collision => exact meets_throw.mpr (hf.refuse _)
      | failed e => exact meets_throw.mpr hf

end Move

/-! ## 3. Where an operation takes its lease -/

/-- The terminal bucket of the floor that the operation took. -/
def Terminal (f : FormatRecord) (t : CallLog) (b : UInt64) : Prop :=
  ∃ floor, Floored t floor ∧ bucketNumber floor.unixNs f.terminalBucketWidthNs = some b

/-- A retry of a lease with no attempts left goes to `dead/`, any other to `ready/` or, with a
    deadline ahead, to `delayed/`. -/
def RetryGoes (f : FormatRecord) (lease : LeaseInfo) (deadline : Option UInt64) (t : CallLog)
    (op : Operation) (l : Landing) : Prop :=
  if lease.maximumAttempts ≤ lease.attempt then
    op = .bury ∧ ∃ b, Terminal f t b ∧ l = .dead DeadReason.attemptsExhausted.code b
  else Due t deadline l ∧ ((op = .retryNow ∧ l = .ready) ∨ ∃ nb, op = .retryLater ∧ l = .delayed nb)

/-- The deadline of a retry at a delay, from the floor that the operation took. -/
def DelayGoes (f : FormatRecord) (lease : LeaseInfo) (durationNs : UInt64) (t : CallLog)
    (op : Operation) (l : Landing) : Prop :=
  ∃ floor nb, Floored t floor ∧ retryWallDeadline floor.unixNs durationNs = some nb ∧
    RetryGoes f lease (some nb) t op l

/-- The transitions of an operation on a lease, and where they end; the deadlines of a renewal
    count from the clock and the floor that it read. -/
def Op.Aims (q : Handle) (t : CallLog) : Op → Operation → Landing → Prop
  | .ack _ info, op, l => op = .acknowledge ∧ ∃ b, Terminal q.format t b ∧ l = .receipt info.token b
  | .renew info durationNs, op, l => op = .renew ∧ ∃ now floor boot wall,
      (⟨.look .clockBoottime, .ok now⟩ : Σ a : Act, a.Resp) ∈ t ∧ Floored t floor ∧
      checkedAddU64 now durationNs = some boot ∧ checkedAddU64 floor.unixNs durationNs = some wall ∧
      l = .leased q.bootId boot wall info.token
  | .retryNow info, op, l => RetryGoes q.format info none t op l
  | .retryAt info nb, op, l => RetryGoes q.format info (some nb) t op l
  | .retryAfter info durationNs, op, l => DelayGoes q.format info durationNs t op l
  | .retryWithPolicy info policy, op, l => ∃ delayMs,
      retryDelayMs q.format.queueId info.jobId info.attempt policy = .ok delayMs ∧
      if delayMs = 0 then RetryGoes q.format info none t op l
      else ∃ delayNs, checkedMulU64 delayMs 1000000 = some delayNs ∧
        DelayGoes q.format info delayNs t op l
  | .bury _ reason, op, l => op = .bury ∧ ∃ b, Terminal q.format t b ∧ l = .dead reason.code b
  | _, _, _ => False

/-- The entry of a lease goes where `P` says: from its exact path to the name the layout has for
    the next generation of the job. -/
def Leaves (f : FormatRecord) (lease : LeaseInfo) (P : CallLog → Operation → Landing → Prop)
    (t : CallLog) (x : Transfer) : Prop :=
  ∃ op l c path name dst dstName, P t op l ∧ Succeeds op (leaseCommon lease) c ∧
    LandsAt f l c dst dstName ∧ lease.exactSourcePath = path ++ [name] ∧
    x = .rename path name dst dstName

theorem leaves_of_departs {f : FormatRecord} {lease : LeaseInfo} {target : Target} {op : Operation}
    {l : Landing} {c : CommonFields} {P : CallLog → Operation → Landing → Prop} {t : CallLog}
    {x : Transfer} (hnext : nextIdentity op (leaseCommon lease) = .ok c) (hop : ¬ op.Publishes)
    (hl : l.target f c = some target) (hP : P t op l) (hx : Departs lease target x) :
    Leaves f lease P t x := by
  obtain ⟨path, name, hpath, rfl⟩ := hx
  exact ⟨op, l, c, path, name, _, _, hP, nextCommonFields_ok (nextIdentity_ok hnext) hop,
    ⟨target, hl, rfl, rfl⟩, hpath, rfl⟩

section Operations

variable {E : CallLog → (a : Act) → a.Resp → Prop} {own : Transfer → Bool} {q h : Handle}
  {t : CallLog} {lease : LeaseInfo} {ρ : Type}
  {P : CallLog → Operation → Landing → Prop}

theorem transitionTicket_early (hb : Before own q h t) (lease : LeaseInfo)
    (operation : TransitionOperation) (destination : TicketDestination) :
    Early E own q (Charged q.poisoned) (looking (transitionTicketForLease lease operation destination)) h t
      fun _ h' _ => h' = h :=
  (early_look hb Task.yields_any fun _ => charged_none _).mono fun _ _ _ _ hx => hx.1

theorem layout_target (hf : h.format = q.format) {c : CommonFields} :
    (∀ token b, (Landing.receipt token b).target q.format c =
        some (h.layout.receiptInBucket c token b)) ∧
      (∀ reason b, (Landing.dead reason b).target q.format c =
        some (h.layout.deadInBucket c reason b)) ∧
      Landing.ready.target q.format c = some (h.layout.ready c) := by
  simp only [Landing.target, FormatRecord.layout, Handle.layout, hf]
  exact ⟨fun _ _ => rfl, fun _ _ => rfl, rfl⟩

theorem buryWithWallFloor_fate (hb : Before own q h t) (hq : q.poisoned = none)
    (reason : DeadReason) {floor : WallFloor} (hfloor : Floored t floor)
    (hP : ∀ t' b, t <:+ t' → Terminal q.format t' b → P t' .bury (.dead reason.code b)) :
    (buryWithWallFloor lease reason floor).Meets (recorder E) h t fun r h' t' =>
      Fate own q t (Leaves q.format lease P) Warned (errorVerdict TransitionOutcome.verdict r) h' t' := by
  refine fate_ofExcept hb fun common hnext => ?_
  refine meets_bind.mpr (meets_memory.mpr (then_ok.mpr ?_))
  refine fate_ofOption hb fun bucket hbucket => ?_
  refine Early.errorFate (transitionTicket_early hb lease _ _) ?_
  rintro ticket _ t₁ hb₁ hs₁ rfl
  refine moveLeased_fate hb₁ hq false (fun t' x ht' hx => ?_) ticket
  have ht := hs₁.past.trans ht'
  refine leaves_of_departs hnext (by decide)
    ((layout_target hb.alike.format).2.1 reason.code bucket) (hP t' bucket ht ?_) hx
  exact ⟨floor, hfloor.later ht, hb.alike.format ▸ hbucket⟩

theorem retryFloor_early (hb : Before own q h t) {floor : Option WallFloor}
    (hfloor : ∀ f, floor = some f → Floored t f) :
    Early E own q (Charged q.poisoned) (retryFloor floor) h t fun f _ t' => Floored t' f := by
  cases floor with
  | some floor => exact early_pure hb (hfloor floor rfl)
  | none => exact wallFloorForMutation_early hb

/-- What is known of the timing of a retry when it starts. -/
structure Timed (t : CallLog) (deadline : Option UInt64) (timing : RetryTiming) : Prop where
  floor : ∀ f, timing.split.2 = some f → Floored t f
  due : ∀ t', t <:+ t' → Due t' deadline (timing.split.1.elim .ready .delayed)

theorem timed_immediate : Timed t none .immediate :=
  ⟨nofun, fun _ _ => .inl ⟨rfl, nofun⟩⟩

/-- A deadline the floor is past is none. -/
theorem timed_delayed {nb : UInt64} {floor : WallFloor} (hfloor : Floored t floor) :
    Timed t (some nb) (.delayed nb floor) := by
  refine ⟨fun f hf => Option.some.inj hf ▸ hfloor, fun t' ht' => ?_⟩
  by_cases hle : nb ≤ floor.unixNs
  · simp only [RetryTiming.split, if_pos hle, Option.elim_none]
    refine .inl ⟨rfl, ?_⟩
    rintro _ ⟨⟩
    exact ⟨floor, hfloor.later ht', hle⟩
  · simp only [RetryTiming.split, if_neg hle, Option.elim_some]
    exact .inr ⟨nb, floor, rfl, hfloor.later ht', UInt64.not_le.mp hle, rfl⟩

theorem retry_fate (hb : Before own q h t) {timing : RetryTiming} {deadline : Option UInt64}
    (htimed : Timed t deadline timing)
    (hP : ∀ t' op l, t <:+ t' → RetryGoes q.format lease deadline t' op l → P t' op l) :
    (retry lease timing).Meets (recorder E) h t fun r h' t' =>
      Fate own q t (Leaves q.format lease P) Warned (errorVerdict TransitionOutcome.verdict r) h' t' := by
  refine Early.errorFate (checkNotPoisoned_early hb) ?_
  rintro _ h₁ t₁ hb₁ hs₁ ⟨rfl, hq⟩
  obtain ⟨hfloor, hdue⟩ := htimed
  rcases hsplit : timing.split with ⟨delayedNs, floor⟩
  rw [hsplit] at hfloor hdue
  refine meets_ite.mpr ⟨fun hmax => ?_, fun hmax => ?_⟩
  · refine Early.errorFate (retryFloor_early hb₁ fun f hf => (hfloor f hf).later hs₁.past) ?_
    intro floor h₂ t₂ hb₂ hs₂ hfloor₂
    refine buryWithWallFloor_fate hb₂ hq _ hfloor₂ fun t' b ht' hb => ?_
    refine hP t' _ _ ((hs₁.trans hs₂).past.trans ht') ?_
    rw [RetryGoes, if_pos hmax]
    exact ⟨rfl, b, hb, rfl⟩
  refine meets_bind.mpr (meets_memory.mpr (then_ok.mpr ?_))
  refine fate_ofExcept hb₁ ?_
  rintro ⟨target, operation, destination⟩ htarget
  refine Early.errorFate (transitionTicket_early hb₁ lease _ _) ?_
  rintro ticket _ t₂ hb₂ hs₂ rfl
  refine moveLeased_fate hb₂ hq false (fun t' x ht' hx => ?_) ticket
  have ht := (hs₁.trans hs₂).past.trans ht'
  have hdue := hdue t' ht
  rcases retryTarget_ok htarget with ⟨nb, common, rfl, hnext, htarget⟩ | ⟨common, rfl, hnext, rfl⟩
  · refine leaves_of_departs (l := .delayed nb) hnext (by decide) ?_ (hP t' .retryLater _ ht ?_) hx
    · rw [layout_delayed hb₁.alike.format] at htarget
      simp only [Landing.target, htarget, Except.toOption]
    · rw [RetryGoes, if_neg hmax]
      exact ⟨hdue, .inr ⟨nb, rfl, rfl⟩⟩
  · refine leaves_of_departs hnext (by decide) (layout_target hb₁.alike.format).2.2
      (hP t' .retryNow .ready ht ?_) hx
    rw [RetryGoes, if_neg hmax]
    exact ⟨hdue, .inl ⟨rfl, rfl⟩⟩

/-- A failure of the code becomes the outcome `NotCommitted`. -/
theorem attempt_told {m : QueueM Error ρ} {verdict : ρ → Verdict} {refuse : Error → ρ}
    {X : CallLog → Transfer → Prop}
    (hm : m.Meets (recorder E) h t fun r h' t' =>
      Fate own q t X Warned (errorVerdict verdict r) h' t')
    (hrefuse : ∀ e, verdict (refuse e) = .refused e) {k : Except Error ρ → QueueM Empty ρ}
    (hok : ∀ o, k (.ok o) = pure o) (herror : ∀ e, k (.error e) = pure (refuse e)) :
    (Task.attempt m >>= k).Meets (recorder E) h t (Told own q t (fun _ => X) verdict) := by
  refine meets_bind.mpr (meets_attempt.mpr (Task.Meets.mono hm fun r h' t' hf => ?_))
  refine then_ok.mpr ?_
  cases r with
  | ok o =>
    rw [hok]
    exact meets_pure.mpr (told_ok hf)
  | error e =>
    rw [herror]
    refine meets_pure.mpr (told_ok ?_)
    rw [hrefuse]
    exact hf

theorem transitionOutcome_told {m : QueueM Error TransitionOutcome} {X : CallLog → Transfer → Prop}
    (hm : m.Meets (recorder E) h t fun r h' t' =>
      Fate own q t X Warned (errorVerdict TransitionOutcome.verdict r) h' t') :
    (transitionOutcome m).Meets (recorder E) h t
      (Told own q t (fun _ => X) TransitionOutcome.verdict) :=
  attempt_told hm (fun _ => rfl) (fun _ => rfl) fun _ => rfl

theorem retryNow_told (hb : Before own q h t) (lease : LeaseInfo) :
    (retryNow lease).Meets (recorder E) h t (Told own q t
      (fun _ => Leaves q.format lease fun t => (Op.retryNow lease).Aims q t)
      TransitionOutcome.verdict) :=
  transitionOutcome_told (retry_fate hb timed_immediate fun _ _ _ _ hr => hr)

theorem retryAt_told (hb : Before own q h t) (lease : LeaseInfo) (nb : UInt64) :
    (retryAt lease nb).Meets (recorder E) h t (Told own q t
      (fun _ => Leaves q.format lease fun t => (Op.retryAt lease nb).Aims q t)
      TransitionOutcome.verdict) := by
  refine transitionOutcome_told (Early.errorFate (wallFloorForMutation_early hb) ?_)
  intro floor h₁ t₁ hb₁ _ hfloor
  exact retry_fate hb₁ (timed_delayed hfloor) fun _ _ _ _ hr => hr

theorem retryDelayed_fate (hb : Before own q h t) (durationNs : UInt64)
    (hP : ∀ t' op l, DelayGoes q.format lease durationNs t' op l → P t' op l) :
    (retryDelayed lease durationNs).Meets (recorder E) h t fun r h' t' =>
      Fate own q t (Leaves q.format lease P) Warned (errorVerdict TransitionOutcome.verdict r) h' t' := by
  refine Early.errorFate (wallFloorForMutation_early hb) fun floor h₁ t₁ hb₁ _ hfloor => ?_
  refine fate_ofOption hb₁ fun deadline hdeadline => ?_
  exact retry_fate hb₁ (timed_delayed hfloor) fun t' op l ht' hr =>
    hP t' op l ⟨floor, deadline, hfloor.later ht', hdeadline, hr⟩

theorem retryAfter_told (hb : Before own q h t) (lease : LeaseInfo) (durationNs : UInt64) :
    (retryAfter lease durationNs).Meets (recorder E) h t (Told own q t
      (fun _ => Leaves q.format lease fun t => (Op.retryAfter lease durationNs).Aims q t)
      TransitionOutcome.verdict) :=
  transitionOutcome_told (retryDelayed_fate hb durationNs fun _ _ _ hr => hr)

theorem retryWithPolicy_told (hb : Before own q h t) (lease : LeaseInfo) (policy : RetryPolicy) :
    (retryWithPolicy lease policy).Meets (recorder E) h t (Told own q t
      (fun _ => Leaves q.format lease fun t => (Op.retryWithPolicy lease policy).Aims q t)
      TransitionOutcome.verdict) := by
  refine transitionOutcome_told ?_
  refine meets_bind.mpr (meets_memory.mpr (then_ok.mpr ?_))
  refine fate_ofExcept hb fun delayMs hdelay => ?_
  rw [Task.mapError_eq_ok, hb.alike.format] at hdelay
  refine meets_ite.mpr ⟨fun hzero => ?_, fun hzero => ?_⟩
  · refine retry_fate hb timed_immediate fun t' op l _ hr => ⟨delayMs, hdelay, ?_⟩
    rw [if_pos hzero]
    exact hr
  · refine fate_ofOption hb fun delayNs hns => ?_
    refine retryDelayed_fate hb delayNs fun t' op l hr => ⟨delayMs, hdelay, ?_⟩
    rw [if_neg hzero]
    exact ⟨delayNs, hns, hr⟩

theorem bury_told (hb : Before own q h t) (lease : LeaseInfo) (reason : DeadReason) :
    (bury lease reason).Meets (recorder E) h t (Told own q t
      (fun _ => Leaves q.format lease fun t => (Op.bury lease reason).Aims q t)
      TransitionOutcome.verdict) := by
  refine transitionOutcome_told (Early.errorFate (checkNotPoisoned_early hb) ?_)
  rintro _ h₁ t₁ hb₁ - ⟨rfl, hq⟩
  refine Early.errorFate (wallFloorForMutation_early hb₁) fun floor h₂ t₂ hb₂ _ hfloor => ?_
  exact buryWithWallFloor_fate hb₂ hq reason hfloor fun t' b _ hb => ⟨rfl, b, hb, rfl⟩

/-! ## 4. Ack and renew -/

/-- A duplicate acknowledgment only looks. -/
theorem duplicateAckOutcome_fate {X : CallLog → Transfer → Prop} (hb : Before own q h t)
    (floor : WallFloor) : (looking (duplicateAckOutcome lease floor)).Meets (recorder E) h t
      fun r h' t' => Fate own q t X Warned (errorVerdict AckOutcome.verdict r) h' t' := by
  refine Task.Meets.mono (looking_looked (duplicateAckOutcome_yields floor h)) ?_
  rintro r h' t' ⟨rfl, hl, hr⟩
  have hb' := hb.looked hl
  have lost : Fate own q t X Warned .lost h' t' := ⟨hl.silent, hb'⟩
  cases r with
  | error e => exact lost.refuse e
  | ok o =>
    have hnot := hr o rfl
    cases o with
    | acked => exact absurd trivial hnot
    | outcomeUnknown ticket => exact absurd trivial hnot
    | alreadyAcked => exact lost
    | leaseLost => exact lost
    | notCommitted e => exact lost.refuse e

theorem finishAck_fate (hb : Before own q h t) (hq : q.poisoned = none) (deferred : Bool)
    {X : CallLog → Transfer → Prop} {target : Target}
    (hX : ∀ t' x, t <:+ t' → Departs lease target x → X t' x) (floor : WallFloor) (ticket : TransitionTicket)
    {dst : Dir} (hdst : dst.path = target.directory) {source : LeasedSourceWitness}
    (hw : SourceOf lease source.directory.path source.name) :
    (finishAck deferred lease floor target ticket dst source).Meets (recorder E) h t
      fun r h' t' => Fate own q t X Warned (errorVerdict AckOutcome.verdict r) h' t' := by
  refine meets_bind.mpr (meets_attempt.mpr (Task.Meets.mono
    (executeLeasedMove_fate hb deferred source dst target.filename) fun r h₁ t₁ hf => ?_))
  refine then_ok.mpr ?_
  cases r with
  | error e => exact nomatch e
  | ok o =>
    have hf : Fate own q t X (Alike q) o.verdict h₁ t₁ :=
      (hf o rfl).mono (fun t' x ht' hx => hX t' x ht' (departs_of_source hw hdst hx)) fun _ hu => hu
    cases o with
    | committed => exact meets_pure.mpr hf
    | outcomeUnknown phase =>
      obtain ⟨x, hx, ha, hu⟩ := hf
      refine meets_bind.mpr (meets_remember.mpr (then_ok.mpr ?_))
      exact meets_pure.mpr ⟨x, hx, ha, warned_poison hu hq⟩
    | collision =>
      obtain ⟨hs₁, hb₁⟩ := hf
      refine Task.Meets.mono (Early.errorFate
        (early_look hb₁ Task.yields_any fun _ => charged_none _) ?_) fun _ _ _ hf => hf.rebase hs₁
      rintro authentic h₂ t₂ hb₂ - -
      have refused (e : Error) : Fate own q t₂ X Warned (.refused e)
          (h₂.poison .internalInvariantViolation) t₂ :=
        ⟨.refl t₂, by rw [hb₂.shortage]; exact charged_none e⟩
      refine meets_bind.mpr (meets_remember.mpr (then_ok.mpr ?_))
      exact meets_ite.mpr ⟨fun _ => meets_throw.mpr (refused _),
        fun _ => meets_throw.mpr (refused _)⟩
    | sourceGone =>
      exact Task.Meets.mono (duplicateAckOutcome_fate hf.2 floor) fun _ _ _ hf' => hf'.rebase hf.1
    | sourceChanged =>
      refine meets_bind.mpr (meets_remember.mpr (then_ok.mpr ?_))
      exact meets_throw.mpr ⟨hf.1, by rw [hf.2.shortage]; exact charged_none _⟩
    | failed e => exact meets_throw.mpr hf

theorem ackInner_fate (hb : Before own q h t) (deferred : Bool)
    (lease : LeaseInfo) : (ackInner deferred lease).Meets (recorder E) h t fun r h' t' =>
      Fate own q t (Leaves q.format lease ((Op.ack deferred lease).Aims q)) Warned
        (errorVerdict AckOutcome.verdict r) h' t' := by
  refine Early.errorFate (checkNotPoisoned_early hb) ?_
  rintro _ _ t₁ hb₁ - ⟨rfl, hq⟩
  refine Early.errorFate (wallFloorForMutation_early hb₁) fun floor h₂ t₂ hb₂ _ hfloor => ?_
  refine fate_ofExcept hb₂ fun common hnext => ?_
  refine meets_bind.mpr (meets_memory.mpr (then_ok.mpr ?_))
  refine fate_ofOption hb₂ fun bucket hbucket => ?_
  refine Early.errorFate (transitionTicket_early hb₂ lease _ _) fun ticket h₃ t₃ hb₃ hs₃ _ => ?_
  have hX (t' : CallLog) (x : Transfer) (ht' : t₂ <:+ t')
      (hx : Departs lease (h₂.layout.receiptInBucket common lease.token bucket) x) :
      Leaves q.format lease ((Op.ack deferred lease).Aims q) t' x :=
    leaves_of_departs hnext (by decide) ((layout_target hb₂.alike.format).1 lease.token bucket)
      ⟨rfl, bucket, ⟨floor, hfloor.later ht', hb₂.alike.format ▸ hbucket⟩, rfl⟩ hx
  refine Early.errorFate (ensureAndOpen_early hb₃ deferred _) fun dst h₄ t₄ hb₄ hs₄ hdst => ?_
  refine Early.errorFate (currentLeasedSource_early hb₄ lease) ?_
  rintro source _ t₅ hb₅ hs₅ ⟨rfl, hw⟩
  cases source with
  | none => exact duplicateAckOutcome_fate hb₅ floor
  | some w =>
    refine meets_bind.mpr (meets_attempt.mpr (Task.Meets.mono
      (looking_looked (Task.always_of_forall fun _ => trivial)) ?_))
    rintro r h₆ t₆ ⟨rfl, hl, -⟩
    have hb₆ := hb₅.looked hl
    refine then_ok.mpr ?_
    cases r with
    | ok u =>
      have hpast := (hs₃.trans hs₄).trans (hs₅.trans hl.silent)
      exact Task.Meets.mono (finishAck_fate hb₆ hq deferred (fun t' x ht' hx =>
        hX t' x (hpast.past.trans ht') hx) floor ticket hdst (hw w rfl))
        fun _ _ _ hf => hf.rebase hl.silent
    | error e =>
      have refused (h' : Handle) : Fate own q t₅ (Leaves q.format lease
          ((Op.ack deferred lease).Aims q)) Warned (.refused e) h' t₆ :=
        ⟨hl.silent, by rw [hb₆.shortage]; exact charged_none e⟩
      refine meets_ite.mpr ⟨fun _ => ?_, fun _ => meets_throw.mpr (refused _)⟩
      refine meets_bind.mpr (meets_remember.mpr (then_ok.mpr ?_))
      exact meets_throw.mpr (refused _)

theorem ack_told (hb : Before own q h t) (deferred : Bool)
    (lease : LeaseInfo) : (ack deferred lease).Meets (recorder E) h t (Told own q t
      (fun _ => Leaves q.format lease ((Op.ack deferred lease).Aims q)) AckOutcome.verdict) :=
  attempt_told (ackInner_fate hb deferred lease) (fun _ => rfl) (fun _ => rfl) fun _ => rfl

/-- The leased name of a renewal. -/
theorem layout_leased (ha : Alike q h) {c : CommonFields} {boot wall : UInt64} {token : Octets 16}
    {target : Target} (ht : h.layout.leased c boot wall token = .ok target) :
    (Landing.leased q.bootId boot wall token).target q.format c = some target := by
  have hsame : q.format.layout.leasedForBoot c q.bootId boot wall token =
      h.layout.leased c boot wall token := by
    rw [ha.layout]
    rfl
  simp only [Landing.target, hsame, ht, Except.toOption]

theorem renewWithDirty_fate (hb : Before own q h t) (deferred : Bool)
    (lease : LeaseInfo) (durationNs : UInt64) :
    (renewWithDirty deferred lease durationNs).Meets (recorder E) h t fun r h' t' =>
      Fate own q t (Leaves q.format lease ((Op.renew lease durationNs).Aims q)) Warned
        (errorVerdict RenewOutcome.verdict r) h' t' := by
  refine Early.errorFate (checkNotPoisoned_early hb) ?_
  rintro _ _ t₁ hb₁ - ⟨rfl, hq⟩
  refine meets_ite.mpr ⟨fun _ => meets_throw.mpr (hb₁.refused _), fun _ => ?_⟩
  refine Early.errorFate ((clockBoottime_early hb₁).mapErr fun _ _ _ => Spent.charged) ?_
  rintro now _ t₂ hb₂ - ⟨rfl, hnow⟩
  refine Early.errorFate (wallFloorForMutation_early hb₂) fun floor h₃ t₃ hb₃ hs₃ hfloor => ?_
  refine fate_ofOption hb₃ fun boot hboot => fate_ofOption hb₃ fun wall hwall => ?_
  refine fate_ofExcept hb₃ fun common hnext => ?_
  refine meets_bind.mpr (meets_memory.mpr (then_ok.mpr ?_))
  refine fate_ofExcept hb₃ fun target htarget => ?_
  refine Early.errorFate (transitionTicket_early hb₃ lease _ _) ?_
  rintro ticket _ t₄ hb₄ hs₄ rfl
  have hX (t' : CallLog) (x : Transfer) (ht' : t₄ <:+ t') (hx : Departs lease target x) :
      Leaves q.format lease ((Op.renew lease durationNs).Aims q) t' x := by
    have ht := hs₄.past.trans ht'
    exact leaves_of_departs hnext (by decide) (layout_leased hb₃.alike htarget)
      ⟨rfl, now, floor, boot, wall, (hs₃.past.trans ht).subset hnow, hfloor.later ht, hboot, hwall,
        rfl⟩ hx
  refine meets_bind.mpr (Task.Meets.mono (moveLeased_fate hb₄ hq deferred hX ticket)
    fun r h₅ t₅ hf => ?_)
  refine Task.then_intro (fun e he => by subst he; exact hf) fun o ho => ?_
  subst ho
  cases o <;> exact meets_pure.mpr hf

theorem renew_told (hb : Before own q h t) (lease : LeaseInfo)
    (durationNs : UInt64) : (renew lease durationNs).Meets (recorder E) h t (Told own q t
      (fun _ => Leaves q.format lease ((Op.renew lease durationNs).Aims q)) RenewOutcome.verdict) := by
  refine meets_bind.mpr (meets_memory.mpr (then_ok.mpr (meets_bind.mpr ?_)))
  refine meets_attempt.mpr (Task.Meets.mono (renewWithDirty_fate hb _ lease durationNs)
    fun r h₁ t₁ hf => then_ok.mpr ?_)
  cases r with
  | error e => exact meets_pure.mpr (told_ok hf)
  | ok o =>
    cases o with
    | renewed info =>
      exact meets_ite.mpr ⟨fun _ => meets_pure.mpr (told_ok hf),
        fun _ => meets_pure.mpr (told_ok hf)⟩
    | _ => exact meets_pure.mpr (told_ok hf)

end Operations

end SteadQ
