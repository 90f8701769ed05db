/-
  File:      SteadQ/Law/Lease.lean
  Subject:   THE LAW OF LEASE: the scan, the claim, dead letters and quarantine.
-/
import SteadQ.Law.Publish

namespace SteadQ

open Octet Interact
open Interact.Task (keeps_ite keeps_memory keeps_pure keeps_remember keeps_throw)

variable {f : FormatRecord} {g g₀ g' : Ghost} {h h' : Handle} {op : Op} {deferred : Bool}

/-! ## 1. Code that moves things -/

/-- In a call of `op`. -/
structure Serves (f : FormatRecord) (op : Op) (h : Handle) (g : Ghost) : Prop
    extends Quiet f h g where
  op : g.op = op

section Serves

variable {ε α : Type} {m : QueueM ε α} {J : α → Handle → Ghost → Prop}

theorem Serves.memory (hs : Serves f op h g) (h₁ : h'.format = h.format) : Serves f op h' g :=
  ⟨hs.toQuiet.memory h₁, hs.op⟩

theorem Serves.poison (hs : Serves f op h g) (reason : PoisonReason) :
    Serves f op (h.poison reason) g := hs.memory rfl

theorem Serves.stays (hs : Serves f op h g) (hm : m.Keeps (law f) h g (Stays f g) J) :
    m.Keeps (law f) h g (Serves f op) J :=
  hm.mono (fun _ _ hs' => ⟨hs'.toQuiet, hs'.op.trans hs.op⟩) fun _ _ _ _ hJ => hJ

theorem Serves.steady (hs : Serves f op h g) (hm : m.Keeps (law f) h g (Steady f g) J) :
    m.Keeps (law f) h g (Serves f op) fun a h' g' => Steady f g h' g' ∧ J a h' g' :=
  hm.weaken fun _ _ hs' => ⟨hs'.toQuiet, hs'.op.trans hs.op⟩

theorem Serves.wallFloor (hs : Serves f op h g) :
    wallFloorForMutation.Keeps (law f) h g (Serves f op) fun _ _ g' => Grows g g' :=
  Task.Meets.mono (wallFloorForMutation_keeps h g ⟨hs.toQuiet, .refl g⟩)
    fun _ _ _ hc => ⟨⟨hc.toQuiet, hc.grows.op.trans hs.op⟩, fun _ _ => hc.grows⟩

theorem Serves.random128bit (hs : Serves f op h g) :
    random128bit.Keeps (law f) h g (Serves f op)
      fun x h' g' => h' = h ∧ g' = { g with drawn := x :: g.drawn } :=
  (random128bit_keeps hs.toQuiet.steady).mono
    (fun _ _ hs' => ⟨hs'.toQuiet, hs'.op.trans hs.op⟩) fun _ _ _ _ hJ => hJ

end Serves

theorem recordBoth_keeps {I : Handle → Ghost → Prop}
    (hI : ∀ dirty, I { h with dirty := dirty } g) (d d' : Dir) :
    (do recordDirty d; recordDirty d' : QueueM IoError Unit).Keeps (law f) h g I
      fun _ _ g' => g' = g := by
  refine .bind (recordDirty_keeps hI d) ?_
  rintro _ _ _ - ⟨dirty, rfl, rfl⟩
  exact (recordDirty_keeps (h := { h with dirty := dirty }) hI d').mono (fun _ _ h => h)
    fun _ _ _ _ ⟨_, _, hg⟩ => hg

theorem Serves.recordBoth (hs : Serves f op h g) (d d' : Dir) :
    (do recordDirty d; recordDirty d' : QueueM IoError Unit).Keeps (law f) h g (Serves f op)
      fun _ _ g' => g' = g :=
  recordBoth_keeps (fun _ => hs.memory rfl) d d'

/-! ## 2. Quarantine -/

theorem quarantineAttempts_keeps {src quarantine : Dir} {filename : Name}
    (reason : QuarantineReason) (limit left : Nat) (hs : Serves f op h g)
    (hop : op.leaseInfo = none) (hsrc : quarantineSource src.path)
    (hq : quarantine.path = quarantinePath) :
    (quarantineAttempts src filename reason quarantine limit left).Keeps (law f) h g
      (Serves f op) fun _ _ _ => True := by
  induction left generalizing h g with
  | zero => exact keeps_throw hs
  | succ left ih =>
    refine .bind hs.random128bit.mapErr ?_
    rintro id _ _ hs₁ ⟨rfl, rfl⟩
    have hmove : Ghost.Moves f { g with drawn := id :: g.drawn } src.path filename quarantine.path
        (quarantineFilename id reason.code) :=
      .quarantine id reason.code hsrc hq rfl (hs.op ▸ hop)
    refine .attempt (hs₁.stays (moveVerifiedNoreplace_keeps hs₁.toQuiet.stays hmove)) ?_
    intro r h₂ g₂ hs₂ _
    split
    · exact keeps_pure hs₂ trivial
    · refine keeps_ite (fun _ => ?_) fun _ => ih hs₂
      exact keeps_ite (fun _ => keeps_throw hs₂) fun _ => keeps_throw hs₂
    · exact keeps_throw hs₂

theorem publishQuarantineObjectWithIds_keeps {src : Dir} {filename : Name}
    (reason : QuarantineReason) (attempts : Nat) (hs : Serves f op h g)
    (hop : op.leaseInfo = none) (hsrc : quarantineSource src.path) :
    (publishQuarantineObjectWithIds src filename reason attempts).Keeps (law f) h g (Serves f op)
      fun _ _ _ => True := by
  refine keeps_ite (fun _ => keeps_throw hs) fun _ => ?_
  refine .bind (hs.steady
    (ensureDirWithDirty_keeps hs.toQuiet.steady _)).mapErr fun _ h₁ g₁ hs₁ _ => ?_
  refine .bind (openRelative_keeps hs₁ _).mapErr ?_
  rintro quarantine _ _ hs₁ ⟨rfl, rfl, hq⟩
  exact quarantineAttempts_keeps reason _ _ hs₁ hop hsrc hq

theorem publishQuarantineObject_keeps {src : Dir} {filename : Name} (reason : QuarantineReason)
    (hs : Serves f op h g) (hop : op.leaseInfo = none) (hsrc : quarantineSource src.path) :
    (publishQuarantineObject src filename reason).Keeps (law f) h g (Serves f op)
      fun _ _ _ => True :=
  publishQuarantineObjectWithIds_keeps reason _ hs hop hsrc

theorem quarantineCorruptLease_keeps {leasedDir : Dir} {leasedName : Name} {held : Ino}
    (hs : Serves f op h g) (hop : op.leaseInfo = none) (hsrc : quarantineSource leasedDir.path) :
    (quarantineCorruptLease leasedDir leasedName held).Keeps (law f) h g (Serves f op)
      fun _ _ _ => True := by
  refine .bind (quiet_any hs).mapErr ?_
  rintro heldStat _ _ hs ⟨rfl, rfl⟩
  refine .bind (quiet_any hs).mapErr ?_
  rintro nameStat _ _ hs ⟨rfl, rfl⟩
  refine keeps_ite (fun _ => keeps_throw hs) fun _ => ?_
  refine .bind hs.random128bit.mapErr ?_
  rintro id _ _ hs₁ ⟨rfl, rfl⟩
  refine .bind (hs₁.steady
    (ensureDirWithDirty_keeps hs₁.toQuiet.steady _)).mapErr fun _ h₂ g₂ hs₂ _ => ?_
  refine .bind (openRelative_keeps hs₂ _).mapErr ?_
  rintro quarantine h₂ g₂ hs₂ ⟨rfl, rfl, hq⟩
  have hmove : g₂.Moves f leasedDir.path leasedName quarantine.path _ :=
    .quarantine id QuarantineReason.payloadCorrupt.code hsrc hq rfl (hs₂.op ▸ hop)
  refine .bind (hs₂.stays (moveWitnessed_keeps hs₂.toQuiet.stays hmove)) fun _ _ _ hs₃ _ => ?_
  exact keeps_pure hs₃ trivial

/-! ## 3. Dead letters -/

/-- The call is a lease. -/
structure Op.Leases (op : Op) : Prop where
  claim : op.permits .claim = true
  cleanup : op.permits .exhaustedReadyCleanup = true
  noLease : op.leaseInfo = none

theorem Op.leases_lease (deferred : Bool) (durationNs : UInt64) (entries rounds : Nat) :
    (Op.lease deferred durationNs entries rounds).Leases := ⟨rfl, rfl, rfl⟩

theorem layout_deadInBucket (hf : h.format = f) (c : CommonFields) (reason : UInt16)
    (bucket : UInt64) : h.layout.deadInBucket c reason bucket = f.layout.deadInBucket c reason bucket := by
  subst hf
  rfl

theorem quarantineSource_ready (shard : UInt32) : quarantineSource (readyShardDir shard) :=
  ⟨_, rfl, .inl rfl⟩

theorem moveToDead_keeps {shard : UInt32} {entry : Name} {parsed : ReadyName}
    (reason : DeadReason) (floor : WallFloor) (hs : Serves f op h g) (hop : op.Leases)
    (hname : parseReady entry = .ok parsed)
    (hspent : parsed.common.maximumAttempts ≤ parsed.common.attempt) :
    (moveToDead (readyShardDir shard) entry parsed.common reason floor).Keeps (law f) h g
      (Serves f op) fun _ _ _ => True := by
  refine keeps_memory (Task.keeps_ofOption hs fun bucket _ => ?_)
  refine Task.keeps_ofExcept hs fun deadCommon hnext => ?_
  have hlands : LandsAt f (.dead reason.code bucket) deadCommon
      (h.layout.deadInBucket deadCommon reason.code bucket).directory
      (h.layout.deadInBucket deadCommon reason.code bucket).filename :=
    ⟨_, rfl, by rw [layout_deadInBucket hs.format], by rw [layout_deadInBucket hs.format]⟩
  refine .bind (hs.steady (ensureDirWithDirty_keeps hs.toQuiet.steady _)).mapErr
    fun _ h₁ g₁ hs₁ _ => ?_
  refine .bind (openRelative_keeps hs₁ _).mapErr ?_
  rintro deadDir _ _ hs₁ ⟨rfl, rfl, hdead⟩
  refine .bind (openRelative_keeps hs₁ _).mapErr ?_
  rintro sourceDir h₁ g₁ hs₁ ⟨rfl, rfl, hsource⟩
  have hmove : g₁.Moves f sourceDir.path entry deadDir.path
      (h.layout.deadInBucket deadCommon reason.code bucket).filename := by
    refine .transit .exhaustedReadyCleanup parsed.common deadCommon (.dead reason.code bucket) ?_ ?_
    · exact ⟨hsource ▸ jobName_ready hname,
        nextCommonFields_ok (nextIdentity_ok (Task.mapError_eq_ok.mp hnext)) (by decide), rfl,
        hdead ▸ hlands, hs₁.op ▸ hop.cleanup, ⟨fun h => absurd h (by decide), fun _ => hspent⟩⟩
    · intro l hl
      rw [hs₁.op, hop.noLease] at hl
      cases hl
  refine .attempt (hs₁.stays (moveVerifiedNoreplace_keeps hs₁.toQuiet.stays hmove)) ?_
  intro r h₂ g₂ hs₂ _
  split
  · exact keeps_pure hs₂ trivial
  · exact keeps_pure hs₂ trivial
  · exact keeps_throw hs₂

theorem buryExhausted_keeps {shard : UInt32} {entry : Name} {parsed : ReadyName}
    (floor : WallFloor) (hs : Serves f op h g) (hop : op.Leases)
    (hname : parseReady entry = .ok parsed)
    (hspent : parsed.common.maximumAttempts ≤ parsed.common.attempt) :
    (buryExhausted (readyShardDir shard) entry parsed.common floor).Keeps (law f) h g
      (Serves f op) fun _ _ _ => True := by
  refine .attempt (moveToDead_keeps .attemptsExhausted floor hs hop hname hspent) fun r h₁ g₁ hs₁ _ => ?_
  split
  · exact keeps_pure hs₁ trivial
  · exact keeps_throw hs₁
  · exact keeps_pure hs₁ trivial
  · exact keeps_remember (keeps_throw (hs₁.poison _))
  · exact keeps_throw hs₁
  · exact keeps_remember (keeps_throw (hs₁.poison _))

/-! ## 4. The claim -/

theorem quarantineCorruptReady_keeps {shardDir : Dir} (entry : Name) (hs : Serves f op h g)
    (hop : op.leaseInfo = none) (hsrc : quarantineSource shardDir.path) :
    (quarantineCorruptReady shardDir entry).Keeps (law f) h g (Serves f op) fun _ _ _ => True := by
  refine keeps_attemptAny fun stat => ?_
  refine .attempt (publishQuarantineObject_keeps _ hs hop hsrc) fun r h₁ g₁ hs₁ _ => ?_
  split
  · exact keeps_throw hs₁
  · exact keeps_throw hs₁
  · exact keeps_remember (keeps_throw (hs₁.poison _))
  · exact keeps_throw hs₁

theorem claimSource_keeps {shardDir : Dir} (entry : Name) (common : CommonFields)
    (hs : Serves f op h g) (hop : op.leaseInfo = none) (hsrc : quarantineSource shardDir.path) :
    (claimSource shardDir entry common).Keeps (law f) h g (Serves f op)
      fun _ h' g' => h' = h ∧ g' = g := by
  refine keeps_attemptAny fun r => ?_
  split
  · exact keeps_pure hs ⟨rfl, rfl⟩
  · exact keeps_throw hs
  · exact keeps_throw hs
  · exact .bind (quarantineCorruptReady_keeps entry hs hop hsrc)
      fun _ _ _ hs₁ _ => keeps_throw hs₁
  · exact keeps_throw hs

theorem claimDirectory_keeps {target : Target} (hs : Serves f op h g) :
    (claimDirectory deferred target).Keeps (law f) h g (Serves f op)
      fun d _ g' => g' = g ∧ d.path = target.directory := by
  refine .attempt (hs.steady (ensureDirWithDirty_keeps hs.toQuiet.steady _)) ?_
  intro r h₁ g₁ hs₁ hr
  cases r with
  | error e => exact keeps_ite (fun _ => keeps_throw hs₁) fun _ => keeps_throw hs₁
  | ok u =>
    obtain ⟨-, rfl⟩ := hr u rfl
    refine keeps_attemptLook (P := fun r => ∀ d, r = .ok d → d.path = target.directory)
      ⟨trivial, fun _ _ _ hr => openBelow_eq_ok hr⟩ fun r hr => ?_
    split
    · exact keeps_pure hs₁ ⟨rfl, hr _ rfl⟩
    · exact keeps_throw hs₁
    · exact keeps_throw hs₁

theorem stopUnknown_keeps {α : Type} {J : α → Handle → Ghost → Prop} (ticket : TransitionTicket)
    (phase : TransitionPhase) (hs : Serves f op h g) :
    (stopUnknown ticket phase : QueueM ScanAbort α).Keeps (law f) h g (Serves f op) J :=
  keeps_remember (keeps_throw (hs.poison _))

theorem withdrawCorruptClaim_keeps {α : Type} {J : α → Handle → Ghost → Prop}
    (ticket : TransitionTicket) {leasedDir : Dir} (target : Target) (file : Ino)
    (hs : Serves f op h g) (hop : op.leaseInfo = none) (hsrc : quarantineSource leasedDir.path) :
    (withdrawCorruptClaim ticket leasedDir target file : QueueM ScanAbort α).Keeps (law f) h g
      (Serves f op) J := by
  refine .attempt (quarantineCorruptLease_keeps hs hop hsrc) fun r h₁ g₁ hs₁ _ => ?_
  split
  · exact keeps_throw hs₁
  · exact stopUnknown_keeps ticket _ hs₁

theorem deliverClaim_keeps (ticket : TransitionTicket) {leasedDir : Dir} (target : Target)
    (file : Ino) (moved : MovedObject) {source : CommonFields} (leased : CommonFields)
    (token : Octets 16) (boottime wall : UInt64) (hs : Serves f op h g)
    (hop : op.leaseInfo = none) (hsrc : quarantineSource leasedDir.path)
    (hclaim : source.jobId ∈ g.claims) :
    (deliverClaim ticket leasedDir target file moved source leased token boottime wall).Keeps
      (law f) h g (Serves f op) fun info _ g' => info.jobId ∈ g'.claims := by
  refine .bind (quiet_any hs) ?_
  rintro found _ _ hs ⟨rfl, rfl⟩
  split
  · exact stopUnknown_keeps ticket _ hs
  · refine keeps_attemptAny fun r => ?_
    split
    · exact withdrawCorruptClaim_keeps ticket target file hs hop hsrc
    · exact stopUnknown_keeps ticket _ hs
    · exact keeps_memory (keeps_pure hs hclaim)

theorem layout_leasedForBoot (hf : h.format = f) (c : CommonFields) (bootId : Bytes)
    (boottime wall : UInt64) (token : Octets 16) :
    h.layout.leasedForBoot c bootId boottime wall token =
      f.layout.leasedForBoot c bootId boottime wall token := by
  subst hf
  rfl

theorem next_rename_claims (s : Dir) (sn : Name) (d : Dir) (dn : Name) :
    ((law f).next g (.renameNoreplace s sn d dn) (.ok ())).claims =
      (claimOf s.path sn d.path dn).toList ++ g.claims := by
  obtain ⟨own, drawn, hnext⟩ := next_rename (f := f) g s sn d dn
  rw [hnext]

/-- A leased object stays in a shard directory of `ready/`. -/
theorem leased_directory {bootId : Bytes} {boottime wall : UInt64} {token : Octets 16}
    {c : CommonFields} {target : Target}
    (ht : (Landing.leased bootId boottime wall token).target f c = some target) :
    ∃ shard, target.directory = readyShardDir shard := by
  simp only [Landing.target, Layout.leasedForBoot] at ht
  split at ht
  · cases ht
  · split at ht
    · cases ht
    · cases ht
      exact ⟨_, rfl⟩

theorem claimCandidate_keeps {shardDir : Dir} {shard : UInt32} {entry : Name}
    {parsed : ReadyName} (durationNs boottime : UInt64) (floor : WallFloor)
    (hs : Serves f op h g) (hop : op.Leases) (hshard : shardDir.path = readyShardDir shard)
    (hname : parseReady entry = .ok parsed)
    (hattempts : parsed.common.attempt < parsed.common.maximumAttempts) :
    (claimCandidate deferred durationNs shardDir entry parsed.common boottime floor).Keeps (law f)
      h g (Serves f op) fun info _ g' => info.jobId ∈ g'.claims := by
  have hsrc : quarantineSource shardDir.path := hshard ▸ quarantineSource_ready shard
  have hsource : jobName shardDir.path entry = some (.ready, parsed.common) :=
    hshard ▸ jobName_ready hname
  refine .bind hs.random128bit.mapErr ?_
  rintro token h g₁ hs₁ ⟨rfl, -⟩
  refine Task.keeps_ofOption hs₁ fun boottimeDeadline _ => ?_
  refine Task.keeps_ofOption hs₁ fun wallDeadline _ => ?_
  refine Task.keeps_ofExcept hs₁ fun leased hnext => ?_
  refine keeps_memory (Task.keeps_ofExcept hs₁ fun target htarget => ?_)
  rw [Task.mapError_eq_ok, layout_leasedForBoot hs₁.format] at htarget
  have hland : (Landing.leased h.bootId boottimeDeadline wallDeadline token).target f leased =
      some target := by
    rw [Landing.target, htarget]
    rfl
  refine .bind (claimDirectory_keeps hs₁) ?_
  rintro leasedDir h₂ g₁ hs₂ ⟨rfl, hdir⟩
  refine .bind (claimSource_keeps entry parsed.common hs₂ hop.noLease hsrc) ?_
  rintro source _ _ hs₂ ⟨rfl, rfl⟩
  refine .bind (quiet_any hs₂).mapErr ?_
  rintro ticket _ _ hs₂ ⟨rfl, rfl⟩
  refine .bind (quiet_any hs₂) ?_
  rintro _ h₂ g₁ hs₂ ⟨rfl, rfl⟩
  have hlands : LandsAt f (.leased h.bootId boottimeDeadline wallDeadline token) leased
      leasedDir.path target.filename := ⟨target, hland, hdir, rfl⟩
  have hmove : g₁.Moves f shardDir.path entry leasedDir.path target.filename := by
    refine .transit .claim parsed.common leased _ ⟨hsource, ?_, rfl, hlands, hs₂.op ▸ hop.claim,
      ⟨fun _ => hattempts, fun h => absurd h (by decide)⟩⟩ fun l hl => ?_
    · exact nextCommonFields_ok (nextIdentity_ok (Task.mapError_eq_ok.mp hnext)) (by decide)
    · rw [hs₂.op, hop.noLease] at hl
      cases hl
  refine .attempt (hs₂.stays (moveWitnessed_keeps hs₂.toQuiet.stays hmove)) ?_
  intro r h₃ g₂ hs₃ hr
  split
  · exact keeps_throw hs₃
  · exact keeps_throw hs₃
  · exact stopUnknown_keeps ticket _ hs₃
  · exact keeps_ite (fun _ => keeps_throw hs₃) fun _ => keeps_throw hs₃
  · rename_i moved ticket'
    obtain ⟨rfl, hg₂⟩ := hr _ rfl
    have hclaim : parsed.common.jobId ∈ g₂.claims := by
      rw [hg₂, next_rename_claims, claimOf, hsource, jobName_of_landsAt hlands]
      exact List.mem_cons_self ..
    have hleased : quarantineSource leasedDir.path := by
      obtain ⟨shard', hshard'⟩ := leased_directory hland
      rw [hdir, hshard']
      exact quarantineSource_ready shard'
    have hdeliver (h' : Handle) (hs' : Serves f op h' g₂) :=
      deliverClaim_keeps ticket' target source.file moved leased token boottimeDeadline wallDeadline
        hs' hop.noLease hleased hclaim
    refine keeps_ite (fun _ => ?_) fun _ => hdeliver _ hs₃
    refine .attempt (hs₃.recordBoth shardDir leasedDir) fun r h₄ g₄ hs₄ hr => ?_
    split
    · obtain rfl := hr _ rfl
      exact hdeliver _ hs₄
    · exact .bind (stopUnknown_keeps (J := fun _ _ _ => False) ticket' _ hs₄)
        fun _ _ _ _ h => h.elim

/-! ## 5. The scan -/

/-- What is known when a scan ends. -/
def Delivers (outcome : LeaseOutcome) (g : Ghost) : Prop :=
  ∀ info, outcome = .leased info → info.jobId ∈ g.claims

def StepDelivers (step : ScanStep) (g : Ghost) : Prop :=
  ∀ outcome, step = .done outcome → Delivers outcome g

theorem delivers_of_ne {outcome : LeaseOutcome} (h : ∀ info, outcome ≠ .leased info) :
    Delivers outcome g := fun info hi => absurd hi (h info)

theorem stepDelivers_go (state : ScanState) : StepDelivers (.go state) g := by
  rintro outcome ho
  cases ho

theorem stepDelivers_done {outcome : LeaseOutcome} (h : Delivers outcome g) :
    StepDelivers (.done outcome) g := by
  rintro _ ho
  cases ho
  exact h

theorem stepDelivers_failed (e : Error) : StepDelivers (.done (.notCommitted e)) g :=
  stepDelivers_done (delivers_of_ne nofun)

theorem afterAbort_delivers (state : ScanState) (abort : ScanAbort) :
    StepDelivers (afterAbort state abort) g := by
  cases abort with
  | skip => exact stepDelivers_go _
  | suspicious => exact stepDelivers_go _
  | failed e => exact stepDelivers_failed e
  | unknown ticket => exact stepDelivers_done (delivers_of_ne nofun)

theorem classifyCandidate_job {shard : UInt32} {entry : Name} {common : CommonFields}
    (hc : classifyCandidate f shard entry = .job common) :
    ∃ parsed, parseReady entry = .ok parsed ∧ parsed.common = common := by
  unfold classifyCandidate at hc
  split_ifs at hc
  split at hc
  · cases hc
  · rename_i parsed hparsed
    split_ifs at hc
    cases hc
    exact ⟨parsed, hparsed, rfl⟩

theorem scanFloor_keeps (state : ScanState) (hs : Serves f op h g) :
    (scanFloor state).Keeps (law f) h g (Serves f op) fun _ _ _ => True := by
  unfold scanFloor
  split
  · exact keeps_pure hs trivial
  · exact .bind hs.wallFloor fun _ _ _ hs₁ _ => keeps_pure hs₁ trivial

theorem scanExhausted_keeps {shard : UInt32} {entry : Name} {parsed : ReadyName}
    (state : ScanState) (hs : Serves f op h g) (hop : op.Leases)
    (hname : parseReady entry = .ok parsed)
    (hspent : parsed.common.maximumAttempts ≤ parsed.common.attempt) :
    (scanExhausted (readyShardDir shard) entry parsed.common state).Keeps (law f) h g (Serves f op)
      fun step _ g' => StepDelivers step g' := by
  refine .attempt (scanFloor_keeps state hs) fun r h₁ g₁ hs₁ _ => ?_
  split
  · exact keeps_pure hs₁ (stepDelivers_failed _)
  · refine .attempt (buryExhausted_keeps _ hs₁ hop hname hspent) fun r h₂ g₂ hs₂ _ => ?_
    split
    · exact keeps_pure hs₂ (stepDelivers_go _)
    · exact keeps_pure hs₂ (afterAbort_delivers _ _)

theorem scanClaim_keeps {shardDir : Dir} {shard : UInt32} {entry : Name} {parsed : ReadyName}
    (durationNs : UInt64) (state : ScanState) (hs : Serves f op h g) (hop : op.Leases)
    (hshard : shardDir.path = readyShardDir shard) (hname : parseReady entry = .ok parsed)
    (hattempts : parsed.common.attempt < parsed.common.maximumAttempts) :
    (scanClaim deferred durationNs shardDir entry parsed.common state).Keeps (law f) h g
      (Serves f op) fun step _ g' => StepDelivers step g' := by
  refine keeps_attemptAny fun r => ?_
  split
  · exact keeps_pure hs (stepDelivers_failed _)
  · refine .attempt (scanFloor_keeps state hs) fun r h₁ g₁ hs₁ _ => ?_
    split
    · exact keeps_pure hs₁ (stepDelivers_failed _)
    · refine .attempt (claimCandidate_keeps durationNs _ _ hs₁ hop hshard hname hattempts) ?_
      intro r h₂ g₂ hs₂ hr
      split
      · refine keeps_pure hs₂ (stepDelivers_done ?_)
        rintro info ⟨⟩
        exact hr _ rfl
      · exact keeps_pure hs₂ (afterAbort_delivers _ _)

theorem scanEntry_keeps {shardDir : Dir} {shard : UInt32} (durationNs : UInt64) (entry : Name)
    (state : ScanState) (hs : Serves f op h g) (hop : op.Leases)
    (hshard : shardDir.path = readyShardDir shard) :
    (scanEntry deferred durationNs shard shardDir entry state).Keeps (law f) h g (Serves f op)
      fun step _ g' => StepDelivers step g' := by
  refine keeps_memory ?_
  split
  · exact keeps_pure hs (stepDelivers_go _)
  · exact keeps_pure hs (stepDelivers_go _)
  · rename_i common hc
    obtain ⟨parsed, hname, rfl⟩ := classifyCandidate_job hc
    refine keeps_ite (fun hspent => scanExhausted_keeps state hs hop hname hspent) fun hlt => ?_
    exact scanClaim_keeps durationNs state hs hop hshard hname (UInt32.not_le.mp hlt)

theorem scanEntries_keeps {shardDir : Dir} {shard : UInt32} (durationNs : UInt64)
    (entries position : Nat) (state : ScanState) (hs : Serves f op h g) (hop : op.Leases)
    (hshard : shardDir.path = readyShardDir shard) :
    (scanEntries deferred durationNs shard shardDir entries position state).Keeps (law f) h g
      (Serves f op) fun step _ g' => StepDelivers step g' := by
  induction entries generalizing position state h g with
  | zero => exact keeps_pure hs (stepDelivers_go _)
  | succ entries ih =>
    refine keeps_attemptAny fun r => ?_
    split
    · exact keeps_pure hs (stepDelivers_go _)
    · exact keeps_pure hs (stepDelivers_go _)
    · refine .bind (scanEntry_keeps durationNs _ state hs hop hshard) fun step h₁ g₁ hs₁ hd => ?_
      split
      · exact keeps_pure hs₁ hd
      · exact ih _ _ hs₁

theorem scanShard_keeps (durationNs : UInt64) (entries : Nat) (shard : UInt32) (state : ScanState)
    (hs : Serves f op h g) (hop : op.Leases) :
    (scanShard deferred durationNs entries shard state).Keeps (law f) h g (Serves f op)
      fun step _ g' => StepDelivers step g' := by
  refine keeps_attemptLook (P := fun r => ∀ d, r = .ok d → d.path = readyShardDir shard)
    ⟨trivial, fun _ _ _ hr => openBelow_eq_ok hr⟩ fun r hr => ?_
  split
  · exact keeps_pure hs (stepDelivers_go _)
  · exact scanEntries_keeps durationNs entries 0 state hs hop (hr _ rfl)

theorem scanShards_keeps (durationNs : UInt64) (entries : Nat) (shards : List UInt32)
    (state : ScanState) (hs : Serves f op h g) (hop : op.Leases) :
    (scanShards deferred durationNs entries shards state).Keeps (law f) h g (Serves f op)
      fun outcome _ g' => Delivers outcome g' := by
  induction shards generalizing state h g with
  | nil =>
    exact keeps_ite (fun _ => keeps_pure hs (delivers_of_ne nofun)) fun _ => keeps_pure hs (delivers_of_ne nofun)
  | cons shard rest ih =>
    refine .bind (scanShard_keeps durationNs entries shard state hs hop) fun step h₁ g₁ hs₁ hd => ?_
    split
    · exact keeps_pure hs₁ (hd _ rfl)
    · exact ih _ hs₁

theorem leaseOnceWithDirty_keeps (durationNs : UInt64) (entries : Nat) (hs : Serves f op h g)
    (hop : op.Leases) :
    (leaseOnceWithDirty deferred durationNs entries).Keeps (law f) h g (Serves f op)
      fun outcome _ g' => Delivers outcome g' := by
  refine keeps_attemptAny fun r => ?_
  split
  · exact keeps_pure hs (delivers_of_ne nofun)
  · refine keeps_ite (fun _ => keeps_pure hs (delivers_of_ne nofun)) fun _ => ?_
    exact keeps_memory (keeps_remember
      (scanShards_keeps durationNs entries _ _ (hs.memory rfl) hop))

theorem lease_keeps (durationNs : UInt64) (entries rounds : Nat) (hs : Serves f op h g)
    (hop : op.Leases) :
    (lease deferred durationNs entries rounds).Keeps (law f) h g (Serves f op)
      fun outcome _ g' => Delivers outcome g' := by
  induction rounds generalizing h g with
  | zero => exact leaseOnceWithDirty_keeps durationNs entries hs hop
  | succ rounds ih =>
    refine .bind (leaseOnceWithDirty_keeps durationNs entries hs hop) fun outcome h₁ g₁ hs₁ hd => ?_
    exact keeps_ite (fun _ => ih hs₁) fun _ => keeps_pure hs₁ hd

end SteadQ
