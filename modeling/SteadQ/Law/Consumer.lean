/-
  File:      SteadQ/Law/Consumer.lean
  Subject:   THE LAW OF ACK, RETRY, BURY AND RENEW: moves out of the exact path of a lease.
-/
import SteadQ.Law.Lease

namespace SteadQ

open Octet Interact
open Interact.Task (keeps_ite keeps_memory keeps_ofExcept keeps_ofOption keeps_pure keeps_remember
  keeps_throw then_ok yields_any yields_ite yields_ofExcept yields_pure yields_throw)

variable {f : FormatRecord} {g g₀ g' : Ghost} {h h' : Handle} {op : Op} {deferred : Bool}
  {lease : LeaseInfo}

/-! ## 1. The source -/

/-- The source of a move is the path of the lease, with the fields of the lease. -/
structure SourceOf (lease : LeaseInfo) (path : Path) (name : Name) : Prop where
  exact : lease.exactSourcePath = path ++ [name]
  fields : jobName path name = some (.leased, leaseCommon lease)

theorem parseLeasedPath_ok {l : Layout} {relative : Path} {location : Location} {name : Name}
    (hp : l.parseLeasedPath relative = .ok (location, name)) :
    ∃ rest, (relative = State.ready.dirName :: rest ++ [name] ∨
      relative = State.leased.dirName :: rest ++ [name]) := by
  unfold Layout.parseLeasedPath at hp
  split at hp
  · split_ifs at hp with hfirst
    split at hp
    · cases hp
    · split_ifs at hp
      split at hp
      · cases hp
      · split at hp
        · cases hp
        · cases hp
          exact ⟨[_], .inl (by rw [hfirst]; rfl)⟩
  · split_ifs at hp with hfirst
    split at hp
    · cases hp
    · split at hp
      · cases hp
      · split_ifs at hp
        cases hp
        exact ⟨[_, _, _], .inr (by rw [not_not.mp hfirst]; rfl)⟩
  · cases hp

theorem checkLeasedName_ok {parsed : LeasedName} (hc : checkLeasedName lease parsed = .ok ()) :
    parsed.common = leaseCommon lease := by
  unfold checkLeasedName at hc
  split_ifs at hc with h₁ h₂ h₃ h₄
  simp only [ne_eq, not_not] at h₁ h₂ h₃ h₄
  rw [leaseCommon, ← h₁, ← h₂, ← h₃, ← h₄]

theorem leasedPlace_ok {x : Bytes × UInt64 × UInt32 × Name} (hp : leasedPlace h lease = .ok x) :
    ∃ location, h.layout.parseLeasedPath lease.exactSourcePath = .ok (location, x.2.2.2) := by
  unfold leasedPlace at hp
  split_ifs at hp
  split at hp
  · cases hp
  · rename_i hparse
    dsimp only at hp
    split_ifs at hp
    cases hp
    exact ⟨_, hparse⟩
  · cases hp

theorem sourceOf_parsed {location : Location} {name : Name} {parsed : LeasedName}
    (hp : h.layout.parseLeasedPath lease.exactSourcePath = .ok (location, name))
    (hname : parseLeased name = .ok parsed) (hc : checkLeasedName lease parsed = .ok ()) :
    SourceOf lease lease.exactSourcePath.dropLast name := by
  obtain ⟨rest, hrest | hrest⟩ := parseLeasedPath_ok hp
  · rw [hrest, List.dropLast_concat]
    refine ⟨hrest, ?_⟩
    rw [jobName_colocated hname, checkLeasedName_ok hc]
  · rw [hrest, List.dropLast_concat]
    refine ⟨hrest, ?_⟩
    rw [jobName_leased hname, checkLeasedName_ok hc]

theorem openRelative_yields (path : Path) :
    (openRelative path).Yields fun d => d.path = path :=
  Task.yields_call fun _ _ => openBelow_eq_ok

theorem lookUpLeasedSource_yields (name : Name) :
    (lookUpLeasedSource lease name).Yields fun found => ∀ dir stat, found = some (dir, stat) →
      dir.path = lease.exactSourcePath.dropLast := by
  refine .attempt (openRelative_yields _) fun r hr => ?_
  split
  · exact yields_pure nofun
  · exact yields_throw
  · exact yields_throw
  · refine .attempt yields_any fun r' _ => ?_
    split
    · exact yields_pure nofun
    · exact yields_throw
    · refine yields_pure ?_
      rintro _ _ ⟨⟩
      exact hr _ rfl

/-- The witness of an opened source names the place it was opened at. -/
theorem openLeasedFile_yields (dir : Dir) (name : Name) (stat : Stat) :
    (openLeasedFile lease dir name stat).Yields fun w => w.directory = dir ∧ w.name = name := by
  refine .bind yields_any fun file _ => .bind yields_any fun opened _ => ?_
  refine yields_ite (fun _ => yields_throw) fun _ => ?_
  refine yields_ite (fun _ => yields_throw) fun _ => ?_
  refine .bind yields_any fun buf _ => yields_ofExcept fun header _ => ?_
  refine yields_ofExcept fun _ _ => ?_
  refine .bind yields_any fun ext _ => ?_
  dsimp only
  refine yields_ite (fun _ => yields_throw) fun _ => ?_
  refine yields_ite (fun _ => yields_throw) fun _ => ?_
  refine yields_ite (fun _ => yields_throw) fun _ => ?_
  exact yields_pure ⟨rfl, rfl⟩

theorem openAndValidateCurrentLease_yields :
    (openAndValidateCurrentLease lease).Yields fun source => ∀ w, source = some w →
      SourceOf lease w.directory.path w.name := by
  refine Task.yields_memory fun h => yields_ofExcept fun place hplace => ?_
  obtain ⟨bootId, bucket, shard, name⟩ := place
  obtain ⟨location, hparse⟩ := leasedPlace_ok hplace
  refine .bind (lookUpLeasedSource_yields name) fun found hfound => ?_
  split
  · exact yields_pure nofun
  · rename_i dir stat
    have hdir := hfound dir stat rfl
    refine yields_ite (fun _ => yields_throw) fun _ => ?_
    split
    · exact yields_throw
    · rename_i parsed hname
      refine yields_ofExcept fun _ hcheck => yields_ofExcept fun _ _ => ?_
      refine .bind (openLeasedFile_yields dir name stat) fun w hw => yields_pure ?_
      rintro _ ⟨⟩
      rw [hw.1, hw.2, hdir]
      exact sourceOf_parsed hparse hname hcheck

/-! ## 2. The move -/

/-- The entry has left the path of the lease, as far as the caller can know. -/
def LeasedMoveOutcome.Happened : LeasedMoveOutcome → Prop
  | .committed => True
  | .outcomeUnknown _ => True
  | _ => False

def TransitionOutcome.Happened : TransitionOutcome → Prop
  | .committed => True
  | .outcomeUnknown _ => True
  | _ => False

def AckOutcome.Happened : AckOutcome → Prop
  | .acked => True
  | .outcomeUnknown _ => True
  | _ => False

def RenewOutcome.Happened : RenewOutcome → Prop
  | .renewed _ => True
  | .deferred _ => True
  | .outcomeUnknown _ => True
  | _ => False

theorem executeLeasedMove_keeps {source : LeasedSourceWitness} {dst : Dir} {dstName : Name}
    (hs : Serves f op h g)
    (hmove : g.Moves f source.directory.path source.name dst.path dstName) :
    (executeLeasedMove deferred source dst dstName).Keeps (law f) h g (Serves f op)
      fun outcome _ g' => outcome.Happened → g'.moved = true := by
  refine keeps_attemptAny fun r => ?_
  split
  · exact keeps_pure hs nofun
  · exact keeps_pure hs nofun
  · exact keeps_pure hs nofun
  refine Task.meets_bind.mpr (Task.meets_attempt.mpr
    (Task.Meets.mono (moveWitnessed_known hs.toQuiet.stays hmove) ?_))
  rintro r h₁ g₁ ⟨hs₁, hmoved, hunknown⟩
  have hs₁ : Serves f op h₁ g₁ := ⟨hs₁.toQuiet, hs₁.op.trans hs.op⟩
  refine then_ok.mpr ?_
  split
  · exact keeps_pure hs₁ nofun
  · exact keeps_pure hs₁ nofun
  · exact keeps_pure hs₁ nofun
  · exact keeps_pure hs₁ fun _ => hunknown _ _ rfl
  · have hmoved : g₁.moved = true := hmoved rfl
    refine keeps_ite (fun _ => ?_) fun _ => keeps_pure hs₁ fun _ => hmoved
    have hrecord := recordBoth_keeps (f := f) (I := fun h' g' => Serves f op h' g' ∧ g'.moved = true)
      (fun _ => ⟨hs₁.memory rfl, hmoved⟩) source.directory dst
    refine Task.meets_bind.mpr (Task.meets_attempt.mpr (Task.Meets.mono hrecord ?_))
    rintro r h₂ g₂ ⟨⟨hs₂, hmoved₂⟩, -⟩
    refine then_ok.mpr ?_
    split
    · exact keeps_pure hs₂ fun _ => hmoved₂
    · exact keeps_pure hs₂ fun _ => hmoved₂

theorem currentLeasedSource_keeps (hs : Serves f op h g) :
    (currentLeasedSource lease).Keeps (law f) h g (Serves f op) fun source h' g' =>
      h' = h ∧ g' = g ∧ ∀ w, source = some w → SourceOf lease w.directory.path w.name := by
  refine keeps_attemptLook (openAndValidateCurrentLease_yields h) fun r hr => ?_
  split
  · exact keeps_pure hs ⟨rfl, rfl, fun w hw => hr _ rfl w hw⟩
  · exact keeps_remember (keeps_throw (hs.poison _))
  · exact keeps_throw hs

theorem ensureAndOpen_keeps {dir : Path} (hs : Serves f op h g) :
    (ensureAndOpen deferred dir).Keeps (law f) h g (Serves f op)
      fun d _ g' => g' = g ∧ d.path = dir := by
  refine .bind (hs.steady (ensureDirWithDirty_keeps hs.toQuiet.steady dir)).mapErr ?_
  rintro _ h₁ _ hs₁ ⟨-, rfl⟩
  exact (openRelative_keeps hs₁ dir).mapErr.mono (fun _ _ h => h)
    fun _ _ _ _ ⟨_, hg, hd⟩ => ⟨hg, hd⟩

/-- The call may move its lease to `target`. -/
structure Plans (f : FormatRecord) (g : Ghost) (lease : LeaseInfo) (operation : Operation)
    (l : Landing) (target : Target) : Prop where
  leased : (transition operation).source = .leased
  lands : ∃ c', Succeeds operation (leaseCommon lease) c' ∧ l.target f c' = some target
  state : l.state = (transition operation).destination
  permits : g.op.permits operation = true
  attempts : operation.NeedsAttempts → lease.attempt < lease.maximumAttempts

section Plans

variable {operation : Operation} {l : Landing} {target : Target}

theorem Plans.moves (hp : Plans f g lease operation l target) (hlease : g.op.leaseInfo = some lease)
    {w : LeasedSourceWitness} (hw : SourceOf lease w.directory.path w.name) {dst : Dir}
    (hdst : dst.path = target.directory) :
    g.Moves f w.directory.path w.name dst.path target.filename := by
  obtain ⟨c', hsucc, htarget⟩ := hp.lands
  refine .transit operation (leaseCommon lease) c' l ⟨?_, hsucc, hp.state,
    ⟨target, htarget, hdst, rfl⟩, hp.permits, ⟨hp.attempts, fun hop => ?_⟩⟩ ?_
  · rw [hp.leased]
    exact hw.fields
  · have hleased := hp.leased
    rw [hop] at hleased
    cases hleased
  · intro lease' hlease'
    rw [hlease] at hlease'
    cases hlease'
    exact hw.exact

theorem moveLeased_keeps (hs : Serves f op h g) (hop : op.leaseInfo = some lease)
    (hp : Plans f g lease operation l target) (ticket : TransitionTicket) :
    (moveLeased deferred lease target ticket).Keeps (law f) h g (Serves f op)
      fun outcome _ g' => outcome.Happened → g'.moved = true := by
  refine .bind (ensureAndOpen_keeps hs) ?_
  rintro dst h₁ g hs₁ ⟨rfl, hdst⟩
  refine .bind (currentLeasedSource_keeps hs₁) ?_
  rintro source _ _ hs₁ ⟨rfl, rfl, hw⟩
  split
  · exact keeps_pure hs₁ nofun
  · refine .attempt (executeLeasedMove_keeps hs₁
      (hp.moves (hs₁.op ▸ hop) (hw _ rfl) hdst)) fun r h₂ g₂ hs₂ hr => ?_
    split
    · exact keeps_pure hs₂ fun _ => hr _ rfl trivial
    · exact keeps_remember (keeps_pure (hs₂.poison _) fun _ => hr _ rfl trivial)
    · exact keeps_pure hs₂ nofun
    · exact keeps_remember (keeps_throw (hs₂.poison _))
    · exact keeps_throw hs₂
    · exact keeps_throw hs₂

end Plans

/-! ## 3. Ack -/

theorem duplicateAckOutcome_yields (floor : WallFloor) :
    (duplicateAckOutcome lease floor).Yields fun outcome => ¬ outcome.Happened := by
  refine .attempt yields_any fun r _ => ?_
  split
  · exact yields_pure nofun
  · exact yields_pure nofun
  · exact yields_pure nofun

theorem duplicateAckOutcome_keeps (floor : WallFloor) (hs : Serves f op h g) :
    (looking (duplicateAckOutcome lease floor)).Keeps (law f) h g (Serves f op)
      fun outcome _ g' => outcome.Happened → g'.moved = true :=
  (quiet_look hs (duplicateAckOutcome_yields floor h)).mono (fun _ _ h => h)
    fun _ _ _ _ hJ ho => absurd ho hJ.2.2

theorem finishAck_keeps {target : Target} {dst : Dir} {source : LeasedSourceWitness}
    (floor : WallFloor) (ticket : TransitionTicket) (hs : Serves f op h g)
    (hmove : g.Moves f source.directory.path source.name dst.path target.filename) :
    (finishAck deferred lease floor target ticket dst source).Keeps (law f) h g (Serves f op)
      fun outcome _ g' => outcome.Happened → g'.moved = true := by
  refine .attempt (executeLeasedMove_keeps hs hmove) fun r h₁ g₁ hs₁ hr => ?_
  split
  · exact keeps_pure hs₁ fun _ => hr _ rfl trivial
  · exact keeps_remember (keeps_pure (hs₁.poison _) fun _ => hr _ rfl trivial)
  · refine .bind (quiet_any hs₁) ?_
    rintro authentic _ _ hs₁ ⟨rfl, rfl⟩
    refine keeps_remember (keeps_ite (fun _ => ?_) fun _ => ?_)
    · exact keeps_throw (hs₁.poison _)
    · exact keeps_throw (hs₁.poison _)
  · exact duplicateAckOutcome_keeps floor hs₁
  · exact keeps_remember (keeps_throw (hs₁.poison _))
  · exact keeps_throw hs₁

theorem plans_ack {common : CommonFields} (hpermits : g.op.permits .acknowledge = true)
    (hnext : nextIdentity .acknowledge (leaseCommon lease) = .ok common) (bucket : UInt64) :
    Plans f g lease .acknowledge (.receipt lease.token bucket)
      (f.layout.receiptInBucket common lease.token bucket) where
  leased := rfl
  lands := ⟨common, nextCommonFields_ok (nextIdentity_ok hnext) (by decide), rfl⟩
  state := rfl
  permits := hpermits
  attempts := fun h => absurd h (by decide)

theorem layout_receiptInBucket (hf : h.format = f) (c : CommonFields) (token : Octets 16)
    (bucket : UInt64) :
    h.layout.receiptInBucket c token bucket = f.layout.receiptInBucket c token bucket := by
  subst hf
  rfl

theorem ackInner_keeps (hs : Serves f op h g) (hop : op.leaseInfo = some lease)
    (hpermits : op.permits .acknowledge = true) :
    (ackInner deferred lease).Keeps (law f) h g (Serves f op)
      fun outcome _ g' => outcome.Happened → g'.moved = true := by
  refine .bind (quiet_any hs) ?_
  rintro _ _ _ hs ⟨rfl, rfl⟩
  refine .bind hs.wallFloor fun floor h₁ g₁ hs₁ _ => ?_
  refine keeps_ofExcept hs₁ fun common hnext => keeps_memory ?_
  refine keeps_ofOption hs₁ fun bucket _ => ?_
  rw [layout_receiptInBucket hs₁.format]
  have hp := plans_ack (f := f) (hs₁.op ▸ hpermits) hnext bucket
  refine .bind (quiet_any hs₁) ?_
  rintro ticket _ _ hs₁ ⟨rfl, rfl⟩
  refine .bind (ensureAndOpen_keeps hs₁) ?_
  rintro dst h₂ _ hs₂ ⟨rfl, hdst⟩
  refine .bind (currentLeasedSource_keeps hs₂) ?_
  rintro source _ _ hs₂ ⟨rfl, rfl, hw⟩
  split
  · exact duplicateAckOutcome_keeps floor hs₂
  · refine keeps_attemptAny fun r => ?_
    split
    · refine keeps_ite (fun _ => ?_) fun _ => keeps_throw hs₂
      exact keeps_remember (keeps_throw (hs₂.poison _))
    · exact finishAck_keeps floor ticket hs₂ (hp.moves (hs₂.op ▸ hop) (hw _ rfl) hdst)

theorem ack_keeps (hs : Serves f (.ack deferred lease) h g) :
    (ack deferred lease).Keeps (law f) h g (Serves f (.ack deferred lease))
      fun outcome _ g' => outcome.Happened → g'.moved = true := by
  refine .attempt (ackInner_keeps hs rfl rfl) fun r h₁ g₁ hs₁ hr => ?_
  split
  · exact keeps_pure hs₁ (hr _ rfl)
  · exact keeps_pure hs₁ nofun

/-! ## 4. Retry and bury -/

theorem transitionOutcome_keeps {m : QueueM Error TransitionOutcome}
    (hm : m.Keeps (law f) h g (Serves f op)
      fun outcome _ g' => outcome.Happened → g'.moved = true) :
    (transitionOutcome m).Keeps (law f) h g (Serves f op)
      fun outcome _ g' => outcome.Happened → g'.moved = true := by
  refine .attempt hm fun r h₁ g₁ hs₁ hr => ?_
  split
  · exact keeps_pure hs₁ (hr _ rfl)
  · exact keeps_pure hs₁ nofun

theorem plans_bury {common : CommonFields} (hpermits : g.op.permits .bury = true)
    (hnext : nextIdentity .bury (leaseCommon lease) = .ok common) (reason : UInt16)
    (bucket : UInt64) :
    Plans f g lease .bury (.dead reason bucket) (f.layout.deadInBucket common reason bucket) where
  leased := rfl
  lands := ⟨common, nextCommonFields_ok (nextIdentity_ok hnext) (by decide), rfl⟩
  state := rfl
  permits := hpermits
  attempts := fun h => absurd h (by decide)

theorem buryWithWallFloor_keeps (reason : DeadReason) (floor : WallFloor) (hs : Serves f op h g)
    (hop : op.leaseInfo = some lease) (hpermits : op.permits .bury = true) :
    (buryWithWallFloor lease reason floor).Keeps (law f) h g (Serves f op)
      fun outcome _ g' => outcome.Happened → g'.moved = true := by
  refine keeps_ofExcept hs fun common hnext => keeps_memory ?_
  refine keeps_ofOption hs fun bucket _ => ?_
  rw [layout_deadInBucket hs.format]
  refine .bind (quiet_any hs) ?_
  rintro ticket _ _ hs ⟨rfl, rfl⟩
  exact moveLeased_keeps hs hop (plans_bury (hs.op ▸ hpermits) hnext _ _) ticket

/-- A call that retries a lease. -/
structure Op.Retries (op : Op) (lease : LeaseInfo) : Prop where
  lease : op.leaseInfo = some lease
  retry : op.permits .retryNow = true
  bury : op.permits .bury = true

theorem plans_retryNow {common : CommonFields} (hpermits : g.op.permits .retryNow = true)
    (hattempts : lease.attempt < lease.maximumAttempts)
    (hnext : nextIdentity .retryNow (leaseCommon lease) = .ok common) :
    Plans f g lease .retryNow .ready (f.layout.ready common) where
  leased := rfl
  lands := ⟨common, nextCommonFields_ok (nextIdentity_ok hnext) (by decide), rfl⟩
  state := rfl
  permits := hpermits
  attempts := fun _ => hattempts

theorem plans_retryLater {common : CommonFields} {nb : UInt64} {target : Target}
    (hpermits : g.op.permits .retryLater = true)
    (hattempts : lease.attempt < lease.maximumAttempts)
    (hnext : nextIdentity .retryLater (leaseCommon lease) = .ok common)
    (htarget : f.layout.delayed common nb = .ok target) :
    Plans f g lease .retryLater (.delayed nb) target where
  leased := rfl
  lands := ⟨common, nextCommonFields_ok (nextIdentity_ok hnext) (by decide), by
    rw [Landing.target, htarget]; rfl⟩
  state := rfl
  permits := hpermits
  attempts := fun _ => hattempts

theorem retryTarget_ok {l : Layout} {delayedNs : Option UInt64} {target : Target}
    {operation : TransitionOperation} {destination : TicketDestination}
    (hr : retryTarget l lease delayedNs = .ok (target, operation, destination)) :
    (∃ nb common, delayedNs = some nb ∧
      nextIdentity .retryLater (leaseCommon lease) = .ok common ∧
      l.delayed common nb = .ok target) ∨
    ∃ common, delayedNs = none ∧ nextIdentity .retryNow (leaseCommon lease) = .ok common ∧
      target = l.ready common := by
  cases delayedNs with
  | some nb =>
    simp only [retryTarget, bind, Except.bind] at hr
    split at hr
    · cases hr
    · rename_i common hnext
      split at hr
      · cases hr
      · rename_i target' htarget
        cases hr
        exact .inl ⟨nb, common, rfl, hnext, htarget⟩
  | none =>
    simp only [retryTarget, bind, Except.bind] at hr
    split at hr
    · cases hr
    · rename_i common hnext
      cases hr
      exact .inr ⟨common, rfl, hnext, rfl⟩

theorem retryFloor_keeps (floor : Option WallFloor) (hs : Serves f op h g) :
    (retryFloor floor).Keeps (law f) h g (Serves f op) fun _ _ _ => True := by
  cases floor with
  | some floor => exact keeps_pure hs trivial
  | none => exact hs.wallFloor.mono (fun _ _ h => h) fun _ _ _ _ _ => trivial

theorem retry_keeps {timing : RetryTiming} (hs : Serves f op h g) (hop : op.Retries lease)
    (hlater : timing.split.1.isSome → op.permits .retryLater = true) :
    (retry lease timing).Keeps (law f) h g (Serves f op)
      fun outcome _ g' => outcome.Happened → g'.moved = true := by
  refine .bind (quiet_any hs) ?_
  rintro _ _ _ hs ⟨rfl, rfl⟩
  rcases hsplit : timing.split with ⟨delayedNs, floor⟩
  refine keeps_ite (fun _ => ?_) fun hattempts => ?_
  · refine .bind (retryFloor_keeps floor hs) fun floor h₁ g₁ hs₁ _ => ?_
    exact buryWithWallFloor_keeps _ floor hs₁ hop.lease hop.bury
  · have hattempts := UInt32.not_le.mp hattempts
    have hsplit : timing.split.1 = delayedNs := by rw [hsplit]
    refine keeps_memory (keeps_ofExcept hs fun x hx => ?_)
    obtain ⟨target, operation, destination⟩ := x
    refine .bind (quiet_any hs) ?_
    rintro ticket _ _ hs ⟨rfl, rfl⟩
    rcases retryTarget_ok hx with ⟨nb, common, rfl, hnext, htarget⟩ | ⟨common, rfl, hnext, rfl⟩
    · rw [layout_delayed hs.format] at htarget
      exact moveLeased_keeps hs hop.lease
        (plans_retryLater (hs.op ▸ hlater (by rw [hsplit]; rfl)) hattempts hnext htarget) ticket
    · rw [layout_ready hs.format]
      exact moveLeased_keeps hs hop.lease
        (plans_retryNow (hs.op ▸ hop.retry) hattempts hnext) ticket

theorem retryNow_keeps (hs : Serves f (.retryNow lease) h g) :
    (retryNow lease).Keeps (law f) h g (Serves f (.retryNow lease))
      fun outcome _ g' => outcome.Happened → g'.moved = true :=
  transitionOutcome_keeps (retry_keeps hs ⟨rfl, rfl, rfl⟩ fun h => absurd h (by decide))

theorem retryAt_keeps {nb : UInt64} (hs : Serves f (.retryAt lease nb) h g) :
    (retryAt lease nb).Keeps (law f) h g (Serves f (.retryAt lease nb))
      fun outcome _ g' => outcome.Happened → g'.moved = true := by
  refine transitionOutcome_keeps (.bind hs.wallFloor fun floor h₁ g₁ hs₁ _ => ?_)
  exact retry_keeps hs₁ ⟨rfl, rfl, rfl⟩ fun _ => rfl

theorem retryDelayed_keeps {durationNs : UInt64} (hs : Serves f op h g) (hop : op.Retries lease)
    (hlater : op.permits .retryLater = true) :
    (retryDelayed lease durationNs).Keeps (law f) h g (Serves f op)
      fun outcome _ g' => outcome.Happened → g'.moved = true := by
  refine .bind hs.wallFloor fun floor h₁ g₁ hs₁ _ => ?_
  exact keeps_ofOption hs₁ fun deadline _ => retry_keeps hs₁ hop fun _ => hlater

theorem retryAfter_keeps {durationNs : UInt64} (hs : Serves f (.retryAfter lease durationNs) h g) :
    (retryAfter lease durationNs).Keeps (law f) h g (Serves f (.retryAfter lease durationNs))
      fun outcome _ g' => outcome.Happened → g'.moved = true :=
  transitionOutcome_keeps (retryDelayed_keeps hs ⟨rfl, rfl, rfl⟩ rfl)

theorem retryWithPolicy_keeps {policy : RetryPolicy}
    (hs : Serves f (.retryWithPolicy lease policy) h g) :
    (retryWithPolicy lease policy).Keeps (law f) h g (Serves f (.retryWithPolicy lease policy))
      fun outcome _ g' => outcome.Happened → g'.moved = true := by
  refine transitionOutcome_keeps (keeps_memory (keeps_ofExcept hs fun delayMs _ => ?_))
  refine keeps_ite (fun _ => ?_) fun _ => ?_
  · exact retry_keeps hs ⟨rfl, rfl, rfl⟩ fun h => absurd h (by decide)
  · exact keeps_ofOption hs fun delayNs _ => retryDelayed_keeps hs ⟨rfl, rfl, rfl⟩ rfl

theorem bury_keeps {reason : DeadReason} (hs : Serves f (.bury lease reason) h g) :
    (bury lease reason).Keeps (law f) h g (Serves f (.bury lease reason))
      fun outcome _ g' => outcome.Happened → g'.moved = true := by
  refine transitionOutcome_keeps (.bind (quiet_any hs) ?_)
  rintro _ _ _ hs ⟨rfl, rfl⟩
  refine .bind hs.wallFloor fun floor h₁ g₁ hs₁ _ => ?_
  exact buryWithWallFloor_keeps reason floor hs₁ rfl rfl

/-! ## 5. Renew -/

theorem plans_renew {common : CommonFields} {bootId : Bytes} {boottime wall : UInt64}
    {token : Octets 16} {target : Target} (hpermits : g.op.permits .renew = true)
    (hnext : nextIdentity .renew (leaseCommon lease) = .ok common)
    (htarget : f.layout.leasedForBoot common bootId boottime wall token = .ok target) :
    Plans f g lease .renew (.leased bootId boottime wall token) target where
  leased := rfl
  lands := ⟨common, nextCommonFields_ok (nextIdentity_ok hnext) (by decide), by
    rw [Landing.target, htarget]; rfl⟩
  state := rfl
  permits := hpermits
  attempts := fun h => absurd h (by decide)

theorem renewWithDirty_keeps {durationNs : UInt64} (hs : Serves f (.renew lease durationNs) h g) :
    (renewWithDirty deferred lease durationNs).Keeps (law f) h g
      (Serves f (.renew lease durationNs)) fun outcome _ g' => outcome.Happened → g'.moved = true := by
  refine .bind (quiet_any hs) ?_
  rintro _ _ _ hs ⟨rfl, rfl⟩
  refine keeps_ite (fun _ => keeps_throw hs) fun _ => ?_
  refine .bind (quiet_any hs).mapErr ?_
  rintro boottimeNow _ _ hs ⟨rfl, rfl⟩
  refine .bind hs.wallFloor fun floor h₁ g₁ hs₁ _ => ?_
  refine keeps_ofOption hs₁ fun boottime _ => keeps_ofOption hs₁ fun wall _ => ?_
  refine keeps_ofExcept hs₁ fun common hnext => keeps_memory ?_
  refine keeps_ofExcept hs₁ fun target htarget => ?_
  rw [Layout.leased, layout_leasedForBoot hs₁.format] at htarget
  refine .bind (quiet_any hs₁) ?_
  rintro ticket _ _ hs₁ ⟨rfl, rfl⟩
  refine .bind (moveLeased_keeps hs₁ rfl (plans_renew (by rw [hs₁.op]; rfl) hnext htarget) ticket)
    fun outcome h₂ g₂ hs₂ hmoved => ?_
  split
  · exact keeps_pure hs₂ hmoved
  · exact keeps_pure hs₂ nofun
  · exact keeps_pure hs₂ nofun
  · exact keeps_pure hs₂ hmoved

theorem renew_keeps {durationNs : UInt64} (hs : Serves f (.renew lease durationNs) h g) :
    (renew lease durationNs).Keeps (law f) h g (Serves f (.renew lease durationNs))
      fun outcome _ g' => outcome.Happened → g'.moved = true := by
  refine keeps_memory (.attempt (renewWithDirty_keeps hs) fun r h₁ g₁ hs₁ hr => ?_)
  split
  · exact keeps_pure hs₁ nofun
  · have hmoved : g₁.moved = true := hr _ rfl trivial
    exact keeps_ite (fun _ => keeps_pure hs₁ fun _ => hmoved)
      fun _ => keeps_pure hs₁ fun _ => hmoved
  · exact keeps_pure hs₁ (hr _ rfl)

end SteadQ
