/-
  File:      SteadQ/Tickets.lean
  Subject:   WHAT A TICKET SAYS ABOUT ITS OPERATION: the two paths and the phase.

  An operation renames one entry, and if it loses track behind the rename it hands out a ticket.
  The paths of the ticket are derived again from its fields, by other code than the operation's;
  the phase tells which barriers were made.
-/
import SteadQ.Opened
import SteadQ.Queue.Resolve
import SteadQ.Outcome
import SteadQ.Snapshot

namespace SteadQ

open Octet Interact
open Interact.Task (fails_attempt fails_pure fails_throw mapError_eq_ok meets_peek notes_any
  notes_call notes_ite notes_memory notes_ofExcept notes_pure notes_remember notes_throw yields_any
  yields_throw)

/-! ## 1. Two derivations of a path -/

section Paths

variable {h : Handle} {lease : LeaseInfo} {T : TransitionTicket}

/-- What `openAndValidateCurrentLease` asks of handle and lease. -/
def Accepted (h : Handle) (lease : LeaseInfo) : Prop :=
  ∃ bootId bucket shard name parsed, leasedPlace h lease = .ok (bootId, bucket, shard, name) ∧
    parseLeased name = .ok parsed ∧ checkLeasedName lease parsed = .ok () ∧
    checkLeasedPlace h.format parsed bootId bucket shard = .ok ()

/-- The source lies beside the ready jobs, not in the older tree of leases. -/
def LeaseInfo.Colocated (lease : LeaseInfo) : Prop :=
  lease.exactSourcePath.head? = some State.ready.dirName

instance (lease : LeaseInfo) : Decidable lease.Colocated :=
  inferInstanceAs (Decidable (_ = _))

/-- The fields of a leased name are those of the lease. -/
theorem checkLeasedName_fields {parsed : LeasedName}
    (hc : checkLeasedName lease parsed = .ok ()) :
    parsed.common = leaseCommon lease ∧ parsed.token = lease.token ∧
      parsed.boottimeDeadlineNs = lease.expiresBoottimeNs ∧
      parsed.wallDeadlineNs = lease.expiresWallNs := by
  unfold checkLeasedName at hc
  split_ifs at hc with h₁ h₂ h₃ h₄ h₅ h₆ h₇
  simp only [ne_eq, not_not] at h₁ h₂ h₃ h₄ h₅ h₆ h₇
  exact ⟨by rw [leaseCommon, ← h₁, ← h₂, ← h₃, ← h₄], h₅, h₆, h₇⟩

theorem checkLeasedPlace_fields {format : FormatRecord} {parsed : LeasedName} {bootId : Bytes}
    {bucket : UInt64} {shard : UInt32}
    (hc : checkLeasedPlace format parsed bootId bucket shard = .ok ()) :
    leaseBucket parsed.boottimeDeadlineNs format.leaseBucketWidthNs = some bucket ∧
      parsed.authenticateTag format.queueId bootId (bucketHex bucket) (shardHex shard) = true := by
  unfold checkLeasedPlace at hc
  split at hc
  · cases hc
  · rename_i expected hexpected
    split_ifs at hc with hbucket htag
    rw [not_not] at hbucket
    exact ⟨hbucket ▸ hexpected, htag⟩

/-- The two forms of the path of a lease. -/
theorem leasedPlace_forms {bootId : Bytes} {bucket : UInt64} {shard : UInt32} {name : Name}
    (hp : leasedPlace h lease = .ok (bootId, bucket, shard, name)) :
    bootId = lease.bootId ∧
      shard = computeShard h.format.queueId lease.jobId h.format.shardCount ∧
      ((lease.exactSourcePath = [State.ready.dirName, shardHex shard, name] ∧
          ∃ parsed, parseLeased name = .ok parsed ∧ bootId = formatBootId parsed.bootId) ∨
        lease.exactSourcePath = [State.leased.dirName, bootId, bucketHex bucket, shardHex shard,
            name] ∧ (bootIdBytes bootId).isSome) := by
  unfold leasedPlace at hp
  split_ifs at hp
  split at hp
  · cases hp
  · rename_i bootId' bucket' shard' name' hparse
    dsimp only at hp
    split_ifs at hp with hqueue hlease hshard
    cases hp
    rw [not_not] at hlease hshard
    refine ⟨hlease, hshard, ?_⟩
    unfold Layout.parseLeasedPath at hparse
    split at hparse
    · rename_i first shardText filename hpath
      split_ifs at hparse with hfirst
      split at hparse
      · cases hparse
      · rename_i shard₁ hshard₁
        split_ifs at hparse
        split at hparse
        · cases hparse
        · rename_i parsed hname
          split at hparse
          · cases hparse
          · cases hparse
            rw [hpath, hfirst, shardHex_of_shardFromHex hshard₁]
            exact .inl ⟨rfl, parsed, hname, rfl⟩
    · rename_i first boot bucketText shardText filename hpath
      split_ifs at hparse with hfirst hboot
      split at hparse
      · cases hparse
      · rename_i bucket₁ hbucket₁
        split at hparse
        · cases hparse
        · rename_i shard₁ hshard₁
          split_ifs at hparse
          cases hparse
          rw [not_not] at hfirst
          rw [hpath, hfirst, shardHex_of_shardFromHex hshard₁,
            bucketHex_of_bucketFromHex hbucket₁]
          refine .inr ⟨rfl, ?_⟩
          cases hb : bootIdBytes bootId with
          | none => exact absurd (by rw [hb]; rfl) hboot
          | some b => rfl
    · cases hparse
  · cases hp

/-- **The path the fields of an accepted lease give is its source, unless that lies in the older
    tree.** -/
theorem accepted_target (ha : Accepted h lease) : ∃ target,
    h.layout.leasedForBoot (leaseCommon lease) lease.bootId lease.expiresBoottimeNs
      lease.expiresWallNs lease.token = .ok target ∧
    (target.relativePath = lease.exactSourcePath ↔ lease.Colocated) := by
  obtain ⟨bootId, bucket, shard, name, parsed, hplace, hname, hfields, hcheck⟩ := ha
  obtain ⟨rfl, hshard, hforms⟩ := leasedPlace_forms hplace
  obtain ⟨hcommon, htoken, hboot, hwall⟩ := checkLeasedName_fields hfields
  obtain ⟨hbucket, htag⟩ := checkLeasedPlace_fields hcheck
  have hshardFor : h.layout.shardFor (leaseCommon lease).jobId = shard := hshard.symm
  have hwidth : leaseBucket lease.expiresBoottimeNs h.layout.leaseBucketWidthNs = some bucket := by
    rw [← hboot]
    exact hbucket
  rcases hforms with ⟨hpath, parsed', hname', hbootId⟩ | ⟨hpath, hbytes⟩
  · rw [hname] at hname'
    cases hname'
    -- the tag is the one computed from the fields, so the name is the name of the fields
    have hnamed : makeLeasedName h.layout.queueId lease.bootId (bucketHex bucket) (shardHex shard)
        (leaseCommon lease) lease.expiresBoottimeNs lease.expiresWallNs lease.token =
          some name := by
      have htag : computeNameTag h.format.queueId _ = parsed.tag := of_decide_eq_true htag
      rw [makeLeasedName, hbootId, bootIdBytes_formatBootId, ← hbootId, parseLeased_ok hname,
        ← htag, hcommon, htoken, hboot, hwall]
      rfl
    refine ⟨⟨.leased lease.bootId bucket shard, name⟩, ?_, ?_⟩
    · rw [Layout.leasedForBoot, hwidth]
      dsimp only
      rw [hshardFor, hnamed]
    · rw [LeaseInfo.Colocated, hpath]
      exact iff_of_true rfl rfl
  · obtain ⟨bytes, hbytes⟩ := Option.isSome_iff_exists.mp hbytes
    obtain ⟨filename, hmade⟩ : ∃ filename, makeLeasedName h.layout.queueId lease.bootId
        (bucketHex bucket) (shardHex shard) (leaseCommon lease) lease.expiresBoottimeNs
        lease.expiresWallNs lease.token = some filename := by
      rw [makeLeasedName, hbytes]
      exact ⟨_, rfl⟩
    refine ⟨⟨.leased lease.bootId bucket shard, filename⟩, ?_, ?_⟩
    · rw [Layout.leasedForBoot, hwidth]
      dsimp only
      rw [hshardFor, hmade]
    · rw [LeaseInfo.Colocated, hpath]
      refine iff_of_false (fun heq => ?_) fun hhead =>
        absurd (State.dirName_injective (Option.some.inj hhead)) (by decide)
      exact absurd (congrArg List.length heq) (by simp [Target.relativePath, Target.directory,
        readyShardDir])

/-- The tickets of the transitions of a lease to `target`. -/
structure TicketOf (h : Handle) (lease : LeaseInfo) (target : Target) (T : TransitionTicket) :
    Prop where
  queue : T.queueId = h.format.queueId
  valid : T.validate = .ok ()
  common : T.sourceCommon = leaseCommon lease
  token : T.leaseToken = lease.token
  digest : T.envelopeDigest = lease.envelopeDigest
  length : T.payloadLength = lease.payloadLength
  source : T.source = .leased lease.bootId lease.expiresBoottimeNs lease.expiresWallNs
  target : ∃ c, T.destinationCommon = .ok c ∧
    T.destination.target h.layout c T.leaseToken = .ok target

/-- The paths of a valid ticket, given its two targets. -/
theorem transitionTicketPaths_eq {source target : Target} {c : CommonFields}
    (hqueue : T.queueId = h.format.queueId) (hvalid : T.validate = .ok ())
    (hnext : T.destinationCommon = .ok c)
    (hsource : T.source.target h.layout T.sourceCommon T.leaseToken = .ok source)
    (htarget : T.destination.target h.layout c T.leaseToken = .ok target) :
    transitionTicketPaths h T = .ok (source.relativePath, target.relativePath) := by
  simp only [transitionTicketPaths, TransitionTicket.validateForQueue, hvalid, hqueue, hnext,
    hsource, htarget, bind, Except.bind, ne_eq, not_true_eq_false, if_false, pure, Except.pure]

theorem TicketOf.paths {target : Target} (ht : TicketOf h lease target T) (ha : Accepted h lease) :
    ∃ source : Target, transitionTicketPaths h T =
      .ok (source.relativePath, target.relativePath) ∧
      (source.relativePath = lease.exactSourcePath ↔ lease.Colocated) := by
  obtain ⟨source, hsource, hiff⟩ := accepted_target ha
  obtain ⟨c, hnext, htarget⟩ := ht.target
  refine ⟨source, transitionTicketPaths_eq ht.queue ht.valid hnext ?_ htarget, hiff⟩
  rw [ht.source, ht.common, ht.token]
  exact hsource

/-- The tickets of the claims of `common` to `target`. -/
structure ClaimTicketOf (h : Handle) (common : CommonFields) (target : Target)
    (T : TransitionTicket) : Prop where
  queue : T.queueId = h.format.queueId
  valid : T.validate = .ok ()
  common : T.sourceCommon = common
  source : T.source = .ready
  lands : target.directory.head? = some State.ready.dirName
  target : ∃ c, T.destinationCommon = .ok c ∧
    T.destination.target h.layout c T.leaseToken = .ok target

theorem ClaimTicketOf.paths {common : CommonFields} {target : Target}
    (ht : ClaimTicketOf h common target T) : transitionTicketPaths h T =
      .ok ((h.layout.ready common).relativePath, target.relativePath) := by
  obtain ⟨c, hnext, htarget⟩ := ht.target
  refine transitionTicketPaths_eq ht.queue ht.valid hnext ?_ htarget
  rw [ht.source, ht.common]
  rfl

/-- A candidate of a scan lies where the layout puts it. -/
theorem candidate_path {shard : UInt32} {entry : Name} {common : CommonFields}
    (hc : classifyCandidate h.format shard entry = .job common) :
    (h.layout.ready common).relativePath = readyShardDir shard ++ [entry] := by
  unfold classifyCandidate at hc
  split_ifs at hc
  split at hc
  · cases hc
  · rename_i parsed hname
    split_ifs at hc with htag hshard
    cases hc
    rw [not_not] at hshard
    have htag : computeNameTag h.format.queueId _ = parsed.tag := of_decide_eq_true htag
    have hfor : h.layout.shardFor parsed.common.jobId = shard := hshard
    rw [Layout.ready, hfor, makeReadyName, authenticatedFilename]
    rw [parseReady_ok hname, ← htag]
    rfl

end Paths

/-! ## 2. Barriers behind a rename -/

/-- The call `e` is in the record `l'`, and was made on top of `l`. -/
def Since (l l' : CallLog) (e : Σ a, Act.Resp a) : Prop := ∃ below, e :: below <:+ l' ∧ l <:+ below

theorem Since.here {l below : CallLog} (e : Σ a, Act.Resp a) (h : l <:+ below) :
    Since l (e :: below) e := ⟨below, List.suffix_rfl, h⟩

theorem Since.later {l l₁ l₂ : CallLog} {e : Σ a, Act.Resp a} (h : Since l l₁ e) (hl : l₁ <:+ l₂) :
    Since l l₂ e := by
  obtain ⟨below, he, hbelow⟩ := h
  exact ⟨below, he.trans hl, hbelow⟩

theorem Since.earlier {l l₀ l' : CallLog} {e : Σ a, Act.Resp a} (h : Since l l' e)
    (hl : l₀ <:+ l) : Since l₀ l' e := by
  obtain ⟨below, he, hbelow⟩ := h
  exact ⟨below, he, hl.trans hbelow⟩

/-- The two descriptors were found to be one directory. -/
def FoundOne (src dst : Dir) (l l' : CallLog) : Prop :=
  ∃ s d : Stat, Since l l' ⟨.look (.fstatDir src), .ok s⟩ ∧
    Since l l' ⟨.look (.fstatDir dst), .ok d⟩ ∧ s.dev = d.dev ∧ s.ino = d.ino

/-- **What a phase says**: these barriers were made behind the rename, on top of `l`. -/
def TransitionPhase.Backed (phase : TransitionPhase) (src dst : Dir) (l l' : CallLog) : Prop :=
  match phase with
  | .linearized => True
  | .destinationDirectoryDurable => Since l l' ⟨.fsyncDir dst, .ok ()⟩
  | .sourceDirectoryDurable => Since l l' ⟨.fsyncDir dst, .ok ()⟩ ∧
      (Since l l' ⟨.fsyncDir src, .ok ()⟩ ∨ FoundOne src dst l l')

theorem TransitionPhase.Backed.later {phase : TransitionPhase} {src dst : Dir} {l l₁ l₂ : CallLog}
    (h : phase.Backed src dst l l₁) (hl : l₁ <:+ l₂) : phase.Backed src dst l l₂ := by
  cases phase with
  | linearized => trivial
  | destinationDirectoryDurable => exact Since.later h hl
  | sourceDirectoryDurable =>
    obtain ⟨hdst, hsrc | ⟨s, d, hs, hd, hsame⟩⟩ := h
    · exact ⟨hdst.later hl, .inl (hsrc.later hl)⟩
    · exact ⟨hdst.later hl, .inr ⟨s, d, hs.later hl, hd.later hl, hsame⟩⟩

/-- The rename is in the record, and if the call makes its barriers itself, the phase is right. -/
def Moved (deferred : Bool) (phase : TransitionPhase) (src : Dir) (n : Name) (dst : Dir) (n' : Name)
    (l : CallLog) : Prop :=
  ∃ below, ⟨.renameNoreplace src n dst n', .ok ()⟩ :: below <:+ l ∧ (deferred = false →
    phase.Backed src dst (⟨.renameNoreplace src n dst n', .ok ()⟩ :: below) l)

theorem Moved.later {deferred : Bool} {phase : TransitionPhase} {src dst : Dir} {n n' : Name}
    {l l' : CallLog} (h : Moved deferred phase src n dst n' l) (hl : l <:+ l') :
    Moved deferred phase src n dst n' l' := by
  obtain ⟨below, hrename, hbacked⟩ := h
  exact ⟨below, hrename.trans hl, fun hd => (hbacked hd).later hl⟩

section Moves

variable {α : Type} {h : Handle} {l : CallLog} {deferred : Bool} {src dst : Dir} {n n' : Name}

theorem sameDirectory_notes : (looking (sameDirectory src dst)).Notes Sigma.mk h l fun r _ l' =>
    (∀ e, r ≠ .error e) ∧ (r = .ok true → FoundOne src dst l l') := by
  refine notes_looking ?_
  refine .attempt (Q := fun r _ l' => ∀ s, r = .ok s → Since l l' ⟨.look (.fstatDir src), .ok s⟩)
    (notes_call ?_) fun x h₁ l₁ hl₁ hsrc => ?_
  · rintro r s rfl
    exact .here _ List.suffix_rfl
  refine .attempt (Q := fun r _ l' => ∀ d, r = .ok d → Since l l' ⟨.look (.fstatDir dst), .ok d⟩)
    (notes_call ?_) fun y h₂ l₂ hl₂ hdst => ?_
  · rintro r d rfl
    exact .here _ hl₁
  split
  · rename_i s d
    refine notes_pure ⟨nofun, fun hsame => ?_⟩
    have hone : s.dev = d.dev ∧ s.ino = d.ino := of_decide_eq_true (Except.ok.inj hsame)
    exact ⟨s, d, (hsrc s rfl).later hl₂, hdst d rfl, hone⟩
  · exact notes_pure ⟨nofun, fun hfalse => by cases hfalse⟩

theorem moveBarrier_notes (phase : MovePhase) (dir : Dir) :
    (moveBarrier phase dir).Notes Sigma.mk h l fun r _ l' =>
      (∀ u, r = .ok u → l' = ⟨.fsyncDir dir, .ok ()⟩ :: l) ∧
      ∀ e, r = .error e → ∃ source, e = .outcomeUnknown phase source := by
  refine .mapErr (notes_call fun r => ?_)
  cases r with
  | ok u => exact ⟨fun _ _ => rfl, nofun⟩
  | error e =>
    refine ⟨nofun, ?_⟩
    rintro _ ⟨⟩
    exact ⟨e, rfl⟩

/-- The barriers of a confirmed move are in the record, and a failing one is told by its phase. -/
theorem confirmMove_notes (identity : MoveIdentity) (after : LookM IoError α) :
    (confirmMove deferred src dst n' identity after).Notes Sigma.mk h l fun r _ l' =>
      (∀ x, r = .ok x → deferred = false →
        TransitionPhase.sourceDirectoryDurable.Backed src dst l l') ∧
      ∀ e, r = .error e → ∃ phase source, e = .outcomeUnknown phase source ∧
        (ticketPhaseForMoveOutcomeUnknown phase).Backed src dst l l' := by
  have early {e : MoveFailure} {phase : MovePhase} {source : IoError} {l' : CallLog}
      (he : e = .outcomeUnknown phase source)
      (hphase : ticketPhaseForMoveOutcomeUnknown phase = .linearized) :
      ∃ phase source, e = .outcomeUnknown phase source ∧
        (ticketPhaseForMoveOutcomeUnknown phase).Backed src dst l l' :=
    ⟨phase, source, he, by rw [hphase]; trivial⟩
  refine .bind (Q := fun r _ _ => ∀ e, r = .error e →
    ∃ source, e = .outcomeUnknown .destinationIdentity source) (.mapErr (notes_anyLook.mono ?_)) ?_ ?_
  · intro r _ _ _ _ e he
    cases r with
    | ok x => cases he
    | error source =>
      cases he
      exact ⟨source, rfl⟩
  · intro stat h₁ l₁ hl₁ _
    refine notes_ite (fun _ => notes_throw ⟨nofun, ?_⟩) fun _ => ?_
    · rintro _ ⟨⟩
      exact early rfl rfl
    refine .bind (Q := fun r _ _ => ∀ e, r = .error e →
      ∃ source, e = .outcomeUnknown .postLinearization source) (.mapErr (notes_anyLook.mono ?_)) ?_ ?_
    · intro r _ _ _ _ e he
      cases r with
      | ok x => cases he
      | error source =>
        cases he
        exact ⟨source, rfl⟩
    · intro output h₂ l₂ hl₂ _
      refine notes_ite (fun hstrict => ?_) fun hdeferred =>
        notes_pure ⟨fun _ _ hd => absurd hd (by simpa using hdeferred), nofun⟩
      have hl : l <:+ l₂ := hl₁.trans hl₂
      refine .bind (moveBarrier_notes .destFsync dst) ?_ ?_
      · rintro _ h₃ l₃ - ⟨hsynced, -⟩
        obtain rfl := hsynced _ rfl
        have hdst : Since l (⟨.fsyncDir dst, .ok ()⟩ :: l₂) ⟨.fsyncDir dst, .ok ()⟩ := .here _ hl
        refine .bind sameDirectory_notes ?_ fun e _ _ _ hsame => absurd rfl (hsame.1 e)
        rintro same h₄ l₄ hl₄ ⟨-, hone⟩
        refine notes_ite (fun _ => ?_) fun hsame => notes_pure ⟨fun _ _ _ => ?_, nofun⟩
        · refine .bind (moveBarrier_notes .sourceFsync src) ?_ ?_
          · rintro _ h₅ l₅ hl₅ ⟨hsynced, -⟩
            obtain rfl := hsynced _ rfl
            refine notes_pure ⟨fun _ _ _ => ⟨hdst.later (hl₄.trans hl₅), .inl ?_⟩, nofun⟩
            exact .here _ (hl.trans ((List.suffix_cons _ _).trans hl₄))
          · rintro e h₅ l₅ hl₅ ⟨-, herror⟩
            obtain ⟨source, rfl⟩ := herror e rfl
            refine ⟨nofun, ?_⟩
            rintro _ ⟨⟩
            exact ⟨_, _, rfl, hdst.later (hl₄.trans hl₅)⟩
        · obtain ⟨s, d, hs, hd, hstat⟩ := hone (by simpa using hsame)
          have hbase : l <:+ ⟨.fsyncDir dst, .ok ()⟩ :: l₂ := hl.trans (List.suffix_cons _ _)
          exact ⟨hdst.later hl₄, .inr ⟨s, d, hs.earlier hbase, hd.earlier hbase, hstat⟩⟩
      · rintro e h₃ l₃ - ⟨-, herror⟩
        obtain ⟨source, rfl⟩ := herror e rfl
        refine ⟨nofun, ?_⟩
        rintro _ ⟨⟩
        exact early rfl rfl
    · intro e h₂ l₂ _ he
      obtain ⟨source, rfl⟩ := he e rfl
      refine ⟨nofun, ?_⟩
      rintro _ ⟨⟩
      exact early rfl rfl
  · intro e h₁ l₁ _ he
    obtain ⟨source, rfl⟩ := he e rfl
    refine ⟨nofun, ?_⟩
    rintro _ ⟨⟩
    exact early rfl rfl

/-- A move that loses track behind its rename reports the barriers it made. -/
theorem moveWitnessed_notes (identity : MoveIdentity) (after : LookM IoError α) :
    (moveWitnessed deferred src n dst n' identity after).Notes Sigma.mk h l fun r _ l' =>
      (∀ x, r = .ok x → Moved deferred .sourceDirectoryDurable src n dst n' l') ∧
      ∀ phase source, r = .error (.outcomeUnknown phase source) →
        Moved deferred (ticketPhaseForMoveOutcomeUnknown phase) src n dst n' l' := by
  refine .bind (Q := fun r _ l' =>
    (∀ u, r = .ok u → ⟨.renameNoreplace src n dst n', .ok ()⟩ :: l = l') ∧
    ∀ phase source, r ≠ .error (.outcomeUnknown phase source)) (.mapErr (notes_call ?_)) ?_ ?_
  · intro r
    cases r with
    | ok u => exact ⟨fun _ _ => rfl, nofun⟩
    | error e => exact ⟨nofun, fun phase source he => by cases e <;> cases he⟩
  · rintro u h₁ l₁ - ⟨hmoved, -⟩
    obtain rfl := hmoved u rfl
    refine (confirmMove_notes identity after).mono ?_
    rintro r h₂ l₂ hl₂ ⟨hok, herror⟩
    refine ⟨fun x hx => ⟨l, hl₂, fun hd => hok x hx hd⟩, ?_⟩
    intro phase source he
    obtain ⟨phase', source', heq, hbacked⟩ := herror _ he
    cases heq
    exact ⟨l, hl₂, fun _ => hbacked⟩
  · rintro e h₁ l₁ - ⟨-, hnot⟩
    exact ⟨nofun, fun phase source he => (hnot phase source (by cases he; rfl)).elim⟩

/-- What is read behind the rename is what the move hands on. -/
theorem moveWitnessed_after {J : α → Prop} {identity : MoveIdentity} {after : LookM IoError α}
    (hafter : ∀ l, after.Notes lookNote h l fun r _ _ => ∀ a, r = .ok a → J a) :
    (moveWitnessed deferred src n dst n' identity after).Notes Sigma.mk h l fun r _ _ =>
      ∀ x, r = .ok x → J x.2 := by
  refine .bind (Q := fun _ h' _ => h' = h) (.mapErr (notes_call fun _ => rfl)) ?_
    fun _ _ _ _ _ _ => nofun
  rintro _ h₁ l₁ - rfl
  refine .bind (Q := fun _ h' _ => h' = h₁) (.mapErr notes_anyLook) ?_ fun _ _ _ _ _ _ => nofun
  rintro stat h₂ l₂ - rfl
  refine notes_ite (fun _ => notes_throw nofun) fun _ => ?_
  refine .bind (Q := fun r _ _ => ∀ a, r = .ok a → J a) (.mapErr (notes_looking
    ((hafter l₂).mono fun r _ _ _ hr a ha => hr a (mapError_eq_ok.mp ha)))) ?_
    fun _ _ _ _ _ _ => nofun
  intro output h₃ l₃ _ houtput
  have done {h' : Handle} {l' : CallLog} :
      (pure (⟨stat.dev, stat.ino, stat.size⟩, output) : QueueM MoveFailure (MovedObject × α)).Notes
        Sigma.mk h' l' fun r _ _ => ∀ x, r = .ok x → J x.2 := by
    refine notes_pure ?_
    rintro _ ⟨⟩
    exact houtput output rfl
  refine notes_ite (fun _ => ?_) fun _ => done
  refine .bind (moveBarrier_notes .destFsync dst) (fun _ h₄ l₄ _ _ => ?_) fun _ _ _ _ _ _ => nofun
  refine .bind sameDirectory_notes (fun same h₅ l₅ _ _ => ?_) fun _ _ _ _ _ _ => nofun
  refine notes_ite (fun _ => ?_) fun _ => done
  exact .bind (moveBarrier_notes .sourceFsync src) (fun _ _ _ _ _ => done) fun _ _ _ _ _ _ => nofun

end Moves

/-! ## 3. Transitions of a lease -/

/-- What the record of a transition that hands out the ticket `T` shows: the lease was accepted,
    and its entry was renamed to the target of the ticket. -/
def LeaseReport (q : Handle) (lease : LeaseInfo) (deferred : Bool) (T : TransitionTicket)
    (l : CallLog) : Prop :=
  Accepted q lease ∧ ∃ target src n dst, TicketOf q lease target T ∧
    src.path ++ [n] = lease.exactSourcePath ∧ dst.path = target.directory ∧
    Moved deferred T.phase src n dst target.filename l

def TransitionOutcome.ticket : TransitionOutcome → Option TransitionTicket
  | .outcomeUnknown T => some T
  | _ => none

def AckOutcome.ticket : AckOutcome → Option TransitionTicket
  | .outcomeUnknown T => some T
  | _ => none

def RenewOutcome.ticket : RenewOutcome → Option TransitionTicket
  | .outcomeUnknown T => some T
  | _ => none

theorem TransitionTicket.new_ok {t T : TransitionTicket} (h : t.new = .ok T) :
    T = t ∧ t.validate = .ok () := by
  obtain ⟨_, hvalid, hpure⟩ := except_bind_eq_ok h
  exact ⟨(Except.ok.inj hpure).symm, hvalid⟩

section Transitions

variable {q h : Handle} {lease : LeaseInfo} {l : CallLog} {deferred : Bool} {target : Target}
  {T : TransitionTicket}

theorem Accepted.of_opened (ha : Accepted h lease) (hq : h.opened = q.opened) :
    Accepted q lease := by
  simp only [Handle.opened, Prod.mk.injEq] at hq
  obtain ⟨hformat, hboot, -⟩ := hq
  obtain ⟨bootId, bucket, shard, name, parsed, hplace, hname, hfields, hcheck⟩ := ha
  refine ⟨bootId, bucket, shard, name, parsed, ?_, hname, hfields, hformat ▸ hcheck⟩
  rw [← hplace]
  simp only [leasedPlace, Handle.layout, hformat, hboot]

theorem TicketOf.of_opened (ht : TicketOf h lease target T) (hq : h.opened = q.opened) :
    TicketOf q lease target T := by
  simp only [Handle.opened, Prod.mk.injEq] at hq
  obtain ⟨hformat, hboot, -⟩ := hq
  have hlayout : q.layout = h.layout := by simp only [Handle.layout, hformat, hboot]
  exact { ht with
    queue := hformat ▸ ht.queue
    target := by rw [hlayout]; exact ht.target }

theorem TicketOf.withPhase (ht : TicketOf h lease target T) (phase : TransitionPhase) :
    TicketOf h lease target (T.withPhase phase) :=
  ⟨ht.queue, ht.valid, ht.common, ht.token, ht.digest, ht.length, ht.source, ht.target⟩

/-- A lease whose source is handed on was accepted. -/
theorem openAndValidateCurrentLease_accepts :
    (openAndValidateCurrentLease lease).Notes lookNote h l fun r _ _ =>
      ∀ w, r = .ok (some w) → Accepted h lease := by
  refine notes_memory (notes_ofExcept (fun place hplace => ?_) fun _ _ _ => nofun)
  obtain ⟨bootId, bucket, shard, name⟩ := place
  refine .bind (Q := fun _ _ _ => True) (notes_any fun _ _ _ _ => trivial) ?_
    fun _ _ _ _ _ _ => nofun
  intro found h₁ l₁ _ _
  split
  · exact notes_pure nofun
  · refine notes_ite (fun _ => notes_throw nofun) fun _ => ?_
    split
    · exact notes_throw nofun
    · rename_i parsed hname
      refine notes_ofExcept (fun _ hfields => ?_) fun _ _ _ => nofun
      refine notes_ofExcept (fun _ hcheck => ?_) fun _ _ _ => nofun
      exact notes_any fun _ _ _ _ _ _ =>
        ⟨bootId, bucket, shard, name, parsed, hplace, hname, hfields, hcheck⟩

theorem currentLeasedSource_notes :
    (currentLeasedSource lease).Notes Sigma.mk h l fun r h' _ => h'.opened = h.opened ∧
      ∀ w, r = .ok (some w) → Accepted h lease ∧
        w.directory.path ++ [w.name] = lease.exactSourcePath := by
  have hlook : (looking (openAndValidateCurrentLease lease)).Notes Sigma.mk h l fun r h' _ =>
      h' = h ∧ ∀ w, r = .ok (some w) → Accepted h lease ∧
        w.directory.path ++ [w.name] = lease.exactSourcePath := by
    refine notes_looking ((openAndValidateCurrentLease_accepts.and
      openAndValidateCurrentLease_yields.notes).mono ?_)
    rintro r _ l' - ⟨haccepts, hsource⟩
    exact ⟨rfl, fun w hw => ⟨haccepts w hw, (hsource _ hw w rfl).exact.symm⟩⟩
  refine .attempt hlook fun r h₁ l₁ _ hr => ?_
  obtain ⟨rfl, hr⟩ := hr
  split
  · exact notes_pure ⟨rfl, fun w hw => hr w hw⟩
  · exact .bind (notes_remember
        (Q := fun r h' _ => h'.opened = h₁.opened ∧ r = .ok ()) ⟨rfl, rfl⟩)
      (fun _ _ _ _ hp => notes_throw ⟨hp.1, nofun⟩) fun _ _ _ _ hp => nomatch hp.2
  · exact notes_throw ⟨rfl, nofun⟩

theorem executeLeasedMove_notes (source : LeasedSourceWitness) (dst : Dir) (dstName : Name) :
    (executeLeasedMove deferred source dst dstName).Notes Sigma.mk h l fun r _ l' =>
      ∀ phase, r = .ok (.outcomeUnknown phase) →
        Moved deferred phase source.directory source.name dst dstName l' := by
  refine .attempt notes_anyLook fun r h₁ l₁ _ _ => ?_
  split
  · exact notes_pure nofun
  · exact notes_pure nofun
  · exact notes_pure nofun
  · refine .attempt (moveWitnessed_notes _ _) fun x h₂ l₂ _ hx => ?_
    obtain ⟨hok, hunknown⟩ := hx
    split
    · exact notes_pure nofun
    · exact notes_pure nofun
    · exact notes_pure nofun
    · rename_i phase source'
      refine notes_pure ?_
      rintro _ ⟨⟩
      exact hunknown phase source' rfl
    · rename_i moved
      refine notes_ite (fun hd => ?_) fun _ => notes_pure nofun
      -- the directories could not be noted: the rename is there, no barrier was asked for
      refine .attempt (Q := fun _ _ _ => True) (notes_any fun _ _ _ _ => trivial)
        fun y h₃ l₃ hl₃ _ => ?_
      split
      · exact notes_pure nofun
      · refine notes_pure ?_
        rintro _ ⟨⟩
        obtain ⟨below, hrename, -⟩ := (hok moved rfl).later hl₃
        exact ⟨below, hrename, fun hstrict => absurd (hd.symm.trans hstrict) nofun⟩

/-- A ticket that is handed out satisfies `P`. -/
def Reports {ε ρ : Type} (P : TransitionTicket → CallLog → Prop)
    (ticket : ρ → Option TransitionTicket) (r : Except ε ρ) (_ : Handle) (l : CallLog) : Prop :=
  ∀ x T, r = .ok x → ticket x = some T → P T l

variable {ε ε' α ρ : Type} {P : TransitionTicket → CallLog → Prop}
  {ticket : ρ → Option TransitionTicket}

theorem reports_pure {x : ρ} (hx : ticket x = none) :
    (pure x : QueueM ε ρ).Notes Sigma.mk h l (Reports P ticket) := by
  refine notes_pure ?_
  rintro _ T ⟨⟩ hT
  rw [hx] at hT
  cases hT

theorem reports_throw {e : ε} : (throw e : QueueM ε ρ).Notes Sigma.mk h l (Reports P ticket) :=
  notes_throw nofun

theorem reports_fail {m : QueueM ε α} {e : ε} :
    (m >>= fun _ => throw e).Notes Sigma.mk h l (Reports P ticket) :=
  .bind (Q := fun _ _ _ => True) (notes_any fun _ _ _ _ => trivial)
    (fun _ _ _ _ _ => reports_throw) fun _ _ _ _ _ _ _ => nofun

/-- Code in front of the move. -/
theorem reports_bind {m : QueueM ε α} {k : α → QueueM ε ρ} (hq : h.opened = q.opened)
    (hm : m.Fixes Handle.opened) (hk : ∀ a h' l', h'.opened = q.opened →
      (k a).Notes Sigma.mk h' l' (Reports P ticket)) :
    (m >>= k).Notes Sigma.mk h l (Reports P ticket) :=
  .bind (Task.Always.notes (hm h)) (fun a h' l' _ hh => hk a h' l' (hh.trans hq))
    fun _ _ _ _ _ _ _ => nofun

theorem reports_ofExcept {x : Except ε α} {k : α → QueueM ε ρ}
    (hk : ∀ a, x = .ok a → (k a).Notes Sigma.mk h l (Reports P ticket)) :
    (Task.ofExcept x >>= k).Notes Sigma.mk h l (Reports P ticket) :=
  notes_ofExcept hk fun _ _ _ _ => nofun

theorem reports_ofOption {o : Option α} {e : ε} {k : α → QueueM ε ρ}
    (hk : ∀ a, o = some a → (k a).Notes Sigma.mk h l (Reports P ticket)) :
    (Task.ofOption o e >>= k).Notes Sigma.mk h l (Reports P ticket) := by
  refine reports_ofExcept fun a ha => hk a ?_
  cases o with
  | none => cases ha
  | some b => exact congrArg some (Except.ok.inj ha)

/-- The ticket of a transition, given where its destination leads. -/
theorem reports_ticket {operation : TransitionOperation} {destination : TicketDestination}
    {c : CommonFields} {k : TransitionTicket → QueueM Error ρ} (hq : h.opened = q.opened)
    (hnext : nextIdentity operation.protocolOperation (leaseCommon lease) = .ok c)
    (htarget : destination.target h.layout c lease.token = .ok target)
    (hk : ∀ T, TicketOf q lease target T → (k T).Notes Sigma.mk h l (Reports P ticket)) :
    (looking (transitionTicketForLease lease operation destination) >>= k).Notes Sigma.mk h l
      (Reports P ticket) := by
  refine .bind (Q := fun r h' l' => h' = h ∧ l' = l ∧ ∀ T, r = .ok T → TicketOf q lease target T)
    (notes_looking (notes_memory ?_)) ?_ fun _ _ _ _ _ _ _ => nofun
  · refine ⟨List.suffix_rfl, rfl, rfl, fun T hT => ?_⟩
    obtain ⟨rfl, hvalid⟩ := TransitionTicket.new_ok hT
    refine TicketOf.of_opened ⟨rfl, hvalid, rfl, rfl, rfl, rfl, rfl, c, ?_, htarget⟩ hq
    rw [TransitionTicket.destinationCommon, nextIdentity_ok hnext]
  · rintro T _ _ - ⟨rfl, rfl, hT⟩
    exact hk T (hT T rfl)

theorem ensureAndOpen_path (dir : Path) :
    (ensureAndOpen deferred dir).Yields fun d => d.path = dir := by
  refine .bind yields_any fun _ _ => .mapErr ?_
  exact fun s => meets_peek (fun _ => trivial) (fun _ _ => rfl) (openBelow_yields rootDir dir s)

theorem moveLeased_notes (hq : h.opened = q.opened) (hticket : TicketOf q lease target T) :
    (moveLeased deferred lease target T).Notes Sigma.mk h l
      (Reports (LeaseReport q lease deferred) TransitionOutcome.ticket) := by
  refine .bind ((Task.Always.notes (ensureAndOpen_fixes deferred _ h)).and
    (ensureAndOpen_path _).notes) ?_ fun _ _ _ _ _ _ _ => nofun
  rintro dst h₁ l₁ - ⟨hopened₁, hdst⟩
  have hq₁ := hopened₁.trans hq
  refine .bind currentLeasedSource_notes ?_ fun _ _ _ _ _ _ _ => nofun
  rintro source h₂ l₂ - ⟨-, hsource⟩
  split
  · exact reports_pure rfl
  · rename_i w
    obtain ⟨haccepted, hexact⟩ := hsource w rfl
    refine .attempt (executeLeasedMove_notes w dst _) fun r h₃ l₃ _ hr => ?_
    split
    · exact reports_pure rfl
    · rename_i phase
      refine .bind (Q := fun _ _ l' => l' = l₃) (notes_remember rfl) ?_
        fun _ _ _ _ _ _ _ => nofun
      rintro _ h₄ _ - rfl
      refine notes_pure ?_
      rintro _ _ ⟨⟩ ⟨⟩
      exact ⟨haccepted.of_opened hq₁, target, w.directory, w.name, dst, hticket.withPhase phase,
        hexact, hdst dst rfl, hr phase rfl⟩
    · exact reports_pure rfl
    · exact reports_fail
    · exact reports_throw
    · exact reports_throw

theorem buryWithWallFloor_notes (hq : h.opened = q.opened) (reason : DeadReason)
    (floor : WallFloor) : (buryWithWallFloor lease reason floor).Notes Sigma.mk h l
      (Reports (LeaseReport q lease false) TransitionOutcome.ticket) := by
  refine reports_ofExcept fun c hc => notes_memory (reports_ofOption fun bucket _ => ?_)
  exact reports_ticket hq hc rfl fun T hT => moveLeased_notes hq hT

theorem retryFloor_fixes (floor : Option WallFloor) :
    (retryFloor floor).Fixes Handle.opened := by
  cases floor with
  | none => exact wallFloorForMutation_fixes
  | some floor => exact Task.fixes_pure floor

theorem retry_notes (hq : h.opened = q.opened) (timing : RetryTiming) :
    (retry lease timing).Notes Sigma.mk h l
      (Reports (LeaseReport q lease false) TransitionOutcome.ticket) := by
  refine reports_bind hq (looking_fixes _) fun _ h₁ l₁ hq₁ => ?_
  refine notes_ite (fun _ => ?_) fun _ => ?_
  · exact reports_bind hq₁ (retryFloor_fixes _) fun _ _ _ hq₂ => buryWithWallFloor_notes hq₂ _ _
  · refine notes_memory (reports_ofExcept fun x hx => ?_)
    obtain ⟨target, operation, destination⟩ := x
    unfold retryTarget at hx
    split at hx
    · obtain ⟨c, hc, hx⟩ := except_bind_eq_ok hx
      obtain ⟨target', htarget, hx⟩ := except_bind_eq_ok hx
      cases hx
      exact reports_ticket hq₁ hc htarget fun T hT => moveLeased_notes hq₁ hT
    · obtain ⟨c, hc, hx⟩ := except_bind_eq_ok hx
      cases hx
      exact reports_ticket hq₁ hc rfl fun T hT => moveLeased_notes hq₁ hT

theorem retryDelayed_notes (hq : h.opened = q.opened) (durationNs : UInt64) :
    (retryDelayed lease durationNs).Notes Sigma.mk h l
      (Reports (LeaseReport q lease false) TransitionOutcome.ticket) :=
  reports_bind hq wallFloorForMutation_fixes fun _ _ _ hq₁ =>
    reports_ofOption fun _ _ => retry_notes hq₁ _

/-- A failure is no ticket. -/
theorem transitionOutcome_notes {m : QueueM Error TransitionOutcome}
    (hm : m.Notes Sigma.mk h l (Reports P TransitionOutcome.ticket)) :
    (transitionOutcome m).Notes Sigma.mk h l (Reports P TransitionOutcome.ticket) := by
  refine .attempt hm fun r h₁ l₁ _ hr => ?_
  split
  · refine notes_pure ?_
    rintro x T ⟨⟩ hT
    exact hr _ T rfl hT
  · exact reports_pure rfl

theorem retryWithPolicy_notes (hq : h.opened = q.opened) (policy : RetryPolicy) :
    (retryWithPolicy lease policy).Notes Sigma.mk h l
      (Reports (LeaseReport q lease false) TransitionOutcome.ticket) := by
  refine transitionOutcome_notes (notes_memory (reports_ofExcept fun delayMs _ => ?_))
  refine notes_ite (fun _ => retry_notes hq _) fun _ => ?_
  exact reports_ofOption fun _ _ => retryDelayed_notes hq _

theorem bury_notes (hq : h.opened = q.opened) (reason : DeadReason) :
    (bury lease reason).Notes Sigma.mk h l
      (Reports (LeaseReport q lease false) TransitionOutcome.ticket) := by
  refine transitionOutcome_notes (reports_bind hq (looking_fixes _) fun _ _ _ hq₁ => ?_)
  exact reports_bind hq₁ wallFloorForMutation_fixes fun _ _ _ hq₂ => buryWithWallFloor_notes hq₂ _ _

theorem duplicateAckOutcome_notes (floor : WallFloor) :
    (looking (duplicateAckOutcome lease floor)).Notes Sigma.mk h l (Reports P AckOutcome.ticket) := by
  refine notes_looking (.attempt (Q := fun _ _ _ => True) (notes_any fun _ _ _ _ => trivial)
    fun r h₁ l₁ _ _ => ?_)
  split
  · exact notes_pure fun x T hx hT => by cases hx; cases hT
  · exact notes_pure fun x T hx hT => by cases hx; cases hT
  · exact notes_pure fun x T hx hT => by cases hx; cases hT

theorem finishAck_notes {w : LeasedSourceWitness} {dst : Dir} (ha : Accepted q lease)
    (hticket : TicketOf q lease target T)
    (hexact : w.directory.path ++ [w.name] = lease.exactSourcePath)
    (hdst : dst.path = target.directory) (floor : WallFloor) :
    (finishAck deferred lease floor target T dst w).Notes Sigma.mk h l
      (Reports (LeaseReport q lease deferred) AckOutcome.ticket) := by
  refine .attempt (executeLeasedMove_notes w dst _) fun r h₁ l₁ _ hr => ?_
  split
  · exact reports_pure rfl
  · rename_i phase
    refine .bind (Q := fun _ _ l' => l' = l₁) (notes_remember rfl) ?_
      fun _ _ _ _ _ _ _ => nofun
    rintro _ h₂ _ - rfl
    refine notes_pure ?_
    rintro _ _ ⟨⟩ ⟨⟩
    exact ⟨ha, target, w.directory, w.name, dst, hticket.withPhase phase, hexact, hdst,
      hr phase rfl⟩
  · refine .bind (Q := fun _ _ _ => True) (notes_any fun _ _ _ _ => trivial)
      (fun authentic h₂ l₂ _ _ => ?_) fun _ _ _ _ _ _ _ => nofun
    refine .bind (Q := fun _ _ _ => True) (notes_any fun _ _ _ _ => trivial)
      (fun _ h₃ l₃ _ _ => ?_) fun _ _ _ _ _ _ _ => nofun
    exact notes_ite (fun _ => reports_throw) fun _ => reports_throw
  · exact duplicateAckOutcome_notes floor
  · exact reports_fail
  · exact reports_throw

theorem ack_notes (hq : h.opened = q.opened) : (ack deferred lease).Notes Sigma.mk h l
    (Reports (LeaseReport q lease deferred) AckOutcome.ticket) := by
  refine .attempt (Q := Reports (LeaseReport q lease deferred) AckOutcome.ticket) ?_
    fun r h' l' _ hr => ?_
  · refine reports_bind hq (looking_fixes _) fun _ h₁ l₁ hq₁ => ?_
    refine reports_bind hq₁ wallFloorForMutation_fixes fun floor h₂ l₂ hq₂ => ?_
    refine reports_ofExcept fun c hc => notes_memory (reports_ofOption fun bucket _ => ?_)
    refine reports_ticket hq₂ hc rfl fun T hT => ?_
    refine .bind ((Task.Always.notes (ensureAndOpen_fixes deferred _ h₂)).and
      (ensureAndOpen_path _).notes) ?_ fun _ _ _ _ _ _ _ => nofun
    rintro dst h₃ l₃ - ⟨hopened₃, hdst⟩
    refine .bind currentLeasedSource_notes ?_ fun _ _ _ _ _ _ _ => nofun
    rintro source h₄ l₄ - ⟨-, hsource⟩
    split
    · exact duplicateAckOutcome_notes floor
    · rename_i w
      obtain ⟨haccepted, hexact⟩ := hsource w rfl
      refine .attempt notes_anyLook fun r h₅ l₅ _ _ => ?_
      split
      · exact notes_ite (fun _ => reports_fail) fun _ => reports_throw
      · exact finishAck_notes (haccepted.of_opened (hopened₃.trans hq₂)) hT hexact (hdst dst rfl)
          floor
  · split
    · refine notes_pure ?_
      rintro x T ⟨⟩ hT
      exact hr _ T rfl hT
    · exact reports_pure rfl

theorem renew_notes (hq : h.opened = q.opened) (durationNs : UInt64) :
    (renew lease durationNs).Notes Sigma.mk h l
      (Reports (LeaseReport q lease h.options.deferredDirSync) RenewOutcome.ticket) := by
  refine notes_memory (.attempt (Q := Reports (LeaseReport q lease h.options.deferredDirSync)
    RenewOutcome.ticket) ?_ fun r h' l' _ hr => ?_)
  · refine reports_bind hq (looking_fixes _) fun _ h₁ l₁ hq₁ => ?_
    refine notes_ite (fun _ => reports_throw) fun _ => ?_
    refine reports_bind hq₁ (liftLook_fixes _).mapErr fun now h₂ l₂ hq₂ => ?_
    refine reports_bind hq₂ wallFloorForMutation_fixes fun floor h₃ l₃ hq₃ => ?_
    refine reports_ofOption fun boot _ => reports_ofOption fun wall _ => ?_
    refine reports_ofExcept fun c hc => notes_memory (reports_ofExcept fun target htarget => ?_)
    refine reports_ticket hq₃ hc htarget fun T hT => ?_
    refine .bind (moveLeased_notes hq₃ hT) ?_ fun _ _ _ _ _ _ _ => nofun
    intro outcome h₄ l₄ _ houtcome
    split
    · exact reports_pure rfl
    · exact reports_pure rfl
    · exact reports_pure rfl
    · refine notes_pure ?_
      rintro _ _ ⟨⟩ ⟨⟩
      exact houtcome _ _ rfl rfl
  · split
    · exact reports_pure rfl
    · exact notes_ite (fun _ => reports_pure rfl) fun _ => reports_pure rfl
    · refine notes_pure ?_
      rintro x T ⟨⟩ hT
      exact hr _ T rfl hT

end Transitions

/-! ## 4. Claims -/

/-- What the record of a scan that hands out the ticket `T` shows: a candidate was renamed from
    where the layout puts it to the target of the ticket. -/
def ClaimReport (q : Handle) (deferred : Bool) (T : TransitionTicket) (l : CallLog) : Prop :=
  ∃ common target src n dst, ClaimTicketOf q common target T ∧
    src.path ++ [n] = (q.layout.ready common).relativePath ∧ dst.path = target.directory ∧
    Moved deferred T.phase src n dst target.filename l

/-- The scan is not stopped by a lost claim. -/
def ScanAbort.Known : ScanAbort → Prop
  | .unknown _ => False
  | _ => True

def LeaseOutcome.ticket : LeaseOutcome → Option TransitionTicket
  | .outcomeUnknown T => some T
  | _ => none

section Claims

variable {q h : Handle} {l : CallLog} {deferred : Bool} {target : Target} {T : TransitionTicket}
  {common : CommonFields} {α : Type}

theorem Moved.weaken {phase : TransitionPhase} {src dst : Dir} {n n' : Name}
    (hm : Moved deferred .sourceDirectoryDurable src n dst n' l) :
    Moved deferred phase src n dst n' l := by
  obtain ⟨below, hrename, hbacked⟩ := hm
  refine ⟨below, hrename, fun hd => ?_⟩
  cases phase with
  | linearized => trivial
  | destinationDirectoryDurable => exact (hbacked hd).1
  | sourceDirectoryDurable => exact hbacked hd

theorem quarantineCorruptReady_known (shardDir : Dir) (entry : Name) :
    (quarantineCorruptReady shardDir entry).Fails ScanAbort.Known := by
  refine .bind fails_attempt fun r => ?_
  refine .bind fails_attempt fun x => ?_
  split
  · exact fails_throw trivial
  · exact fails_throw trivial
  · exact .bind (Task.fails_remember _) fun _ => fails_throw trivial
  · exact fails_throw trivial

theorem claimSource_known (shardDir : Dir) (entry : Name) :
    (claimSource shardDir entry common).Fails ScanAbort.Known := by
  refine .bind fails_attempt fun r => ?_
  split
  · exact fails_pure _
  · exact fails_throw trivial
  · exact fails_throw trivial
  · exact .bind (quarantineCorruptReady_known shardDir entry) fun _ => fails_throw trivial
  · exact fails_throw trivial

theorem claimDirectory_known : (claimDirectory deferred target).Fails ScanAbort.Known := by
  refine .bind fails_attempt fun r => ?_
  split
  · split
    · exact fails_throw trivial
    · exact fails_throw trivial
  · refine .bind fails_attempt fun x => ?_
    split
    · exact fails_pure _
    · exact fails_throw trivial
    · exact fails_throw trivial

theorem checkClaimWitness_known (shardDir : Dir) (entry : Name) (source : ClaimSourceWitness) :
    (looking (checkClaimWitness shardDir entry source)).Fails ScanAbort.Known := by
  refine fun s => meets_peek (fun _ => trivial) (fun _ _ => rfl) (Task.Meets.mono
    (checkClaimWitness_always shardDir entry source) fun r _ _ hr e he => ?_)
  rcases hr e he with hlost | ⟨error, hrefused⟩
  · cases e with
    | unknown T => cases hlost
    | skip => trivial
    | suspicious => trivial
    | failed e => trivial
  · cases e with
    | unknown T => cases hrefused
    | skip => trivial
    | suspicious => trivial
    | failed e => trivial

theorem claimDirectory_path : (claimDirectory deferred target).Yields fun d =>
    d.path = target.directory := by
  refine .attempt yields_any fun r _ => ?_
  split
  · exact Task.yields_ite (fun _ => yields_throw) fun _ => yields_throw
  · refine .attempt (J := fun d => d.path = target.directory) (fun s => ?_) fun x hx => ?_
    · exact meets_peek (fun _ => trivial) (fun _ _ => rfl)
        (openBelow_yields rootDir target.directory s)
    · split
      · exact Task.yields_pure (hx _ rfl)
      · exact yields_throw
      · exact yields_throw

/-- A ticket that a scan stops with satisfies `P`. -/
def Stops (P : TransitionTicket → CallLog → Prop) (r : Except ScanAbort α) (_ : Handle)
    (l : CallLog) : Prop := ∀ T, r = .error (.unknown T) → P T l

variable {P : TransitionTicket → CallLog → Prop}

theorem stops_known {m : QueueM ScanAbort α} (hm : m.Fails ScanAbort.Known) :
    m.Notes Sigma.mk h l (Stops P) := by
  refine (Task.Always.notes (hm h)).mono ?_
  rintro r _ _ - hr T rfl
  exact (hr _ rfl).elim

theorem stops_throw {abort : ScanAbort} (hknown : abort.Known) :
    (throw abort : QueueM ScanAbort α).Notes Sigma.mk h l (Stops P) :=
  stops_known (fails_throw hknown)

theorem stops_bind {β : Type} {m : QueueM ScanAbort α} {k : α → QueueM ScanAbort β}
    {Q : Except ScanAbort α → Handle → CallLog → Prop} (hm : m.Notes Sigma.mk h l Q)
    (hknown : m.Fails ScanAbort.Known)
    (hk : ∀ a h' l', l <:+ l' → Q (.ok a) h' l' → (k a).Notes Sigma.mk h' l' (Stops P)) :
    (m >>= k).Notes Sigma.mk h l (Stops P) := by
  refine .bind (hm.and (Task.Always.notes (hknown h))) (fun a h' l' hl ha => hk a h' l' hl ha.1) ?_
  rintro e h' l' - ⟨-, hr⟩ T ⟨⟩
  exact (hr _ rfl).elim

/-- Code in front of the claim. -/
theorem stops_past {β : Type} {m : QueueM ScanAbort α} {k : α → QueueM ScanAbort β} {J : α → Prop}
    (hq : h.opened = q.opened) (hm : m.Fixes Handle.opened) (hknown : m.Fails ScanAbort.Known)
    (hJ : m.Yields J) (hk : ∀ a h' l', J a → h'.opened = q.opened →
      (k a).Notes Sigma.mk h' l' (Stops P)) : (m >>= k).Notes Sigma.mk h l (Stops P) :=
  stops_bind ((Task.Always.notes (hm h)).and hJ.notes) hknown fun a h' l' _ ha =>
    hk a h' l' (ha.2 a rfl) (ha.1.trans hq)

theorem stops_ofExcept {ε β : Type} {x : Except ε α} {f : ε → ScanAbort}
    {k : α → QueueM ScanAbort β} (hf : ∀ e, (f e).Known)
    (hk : ∀ a, x = .ok a → (k a).Notes Sigma.mk h l (Stops P)) :
    (Task.ofExcept (x.mapError f) >>= k).Notes Sigma.mk h l (Stops P) := by
  refine notes_ofExcept (fun a ha => hk a (mapError_eq_ok.mp ha)) ?_
  intro e he T hT
  cases x with
  | ok a => cases he
  | error e' =>
    cases he
    have hknown := hf e'
    rw [Except.error.inj hT] at hknown
    exact hknown.elim

theorem stopUnknown_notes (phase : TransitionPhase) (hP : P (T.withPhase phase) l) :
    (stopUnknown T phase : QueueM ScanAbort α).Notes Sigma.mk h l (Stops P) := by
  refine .bind (Q := fun r _ l' => r = .ok () ∧ l' = l) (notes_remember ⟨rfl, rfl⟩) ?_ ?_
  · rintro _ h' _ - ⟨-, rfl⟩
    refine notes_throw ?_
    rintro _ ⟨⟩
    exact hP
  · rintro e h' l' - ⟨he, -⟩
    cases he

theorem ClaimTicketOf.withPhase (ht : ClaimTicketOf h common target T) (phase : TransitionPhase) :
    ClaimTicketOf h common target (T.withPhase phase) :=
  ⟨ht.queue, ht.valid, ht.common, ht.source, ht.lands, ht.target⟩

/-- A claim that is done, with its barriers if it makes them: whatever phase is told is right. -/
structure ClaimDone (q : Handle) (deferred : Bool) (common : CommonFields) (target : Target)
    (T : TransitionTicket) (l : CallLog) : Prop where
  ticket : ClaimTicketOf q common target T
  moved : ∃ src n dst, src.path ++ [n] = (q.layout.ready common).relativePath ∧
    dst.path = target.directory ∧ Moved deferred .sourceDirectoryDurable src n dst target.filename l

theorem ClaimDone.later {l' : CallLog} (hd : ClaimDone q deferred common target T l)
    (hl : l <:+ l') : ClaimDone q deferred common target T l' := by
  obtain ⟨ht, src, n, dst, hsrc, hdst, hmoved⟩ := hd
  exact ⟨ht, src, n, dst, hsrc, hdst, hmoved.later hl⟩

theorem ClaimDone.stop (hd : ClaimDone q deferred common target T l) (phase : TransitionPhase) :
    (stopUnknown T phase : QueueM ScanAbort α).Notes Sigma.mk h l (Stops (ClaimReport q deferred)) := by
  obtain ⟨ht, src, n, dst, hsrc, hdst, hmoved⟩ := hd
  exact stopUnknown_notes phase
    ⟨common, target, src, n, dst, ht.withPhase phase, hsrc, hdst, hmoved.weaken⟩

theorem withdrawCorruptClaim_notes (hd : ClaimDone q deferred common target T l) (leasedDir : Dir)
    (file : Ino) : (withdrawCorruptClaim T leasedDir target file : QueueM ScanAbort α).Notes
      Sigma.mk h l (Stops (ClaimReport q deferred)) := by
  refine .attempt (Q := fun _ _ _ => True) (notes_any fun _ _ _ _ => trivial)
    fun r h₁ l₁ hl₁ _ => ?_
  split
  · exact stops_throw trivial
  · exact (hd.later hl₁).stop _

theorem deliverClaim_notes (hd : ClaimDone q deferred common target T l) (leasedDir : Dir)
    (file : Ino) (moved : MovedObject) (source leased : CommonFields) (token : Octets 16)
    (boot wall : UInt64) :
    (deliverClaim T leasedDir target file moved source leased token boot wall).Notes
      Sigma.mk h l (Stops (ClaimReport q deferred)) := by
  have hvalid : (looking (validateClaimedObject file moved.size source : LookM ScanAbort _)).Notes
      Sigma.mk h l fun r _ _ => ∀ e, r ≠ .error e :=
    notes_looking (Task.Always.notes (validateClaimedObject_always file _ source))
  refine .bind hvalid ?_ ?_
  · intro found h₁ l₁ hl₁ _
    split
    · exact (hd.later hl₁).stop _
    · refine .attempt notes_anyLook fun r h₂ l₂ hl₂ _ => ?_
      have hd₂ := hd.later (hl₁.trans hl₂)
      split
      · exact withdrawCorruptClaim_notes hd₂ leasedDir file
      · exact hd₂.stop _
      · exact notes_memory (stops_known (fails_pure _))
  · intro e h₁ l₁ _ he
    exact absurd rfl (he e)

theorem leasedForBoot_lands {layout : Layout} {bootId : Bytes} {boot wall : UInt64}
    {token : Octets 16} (ht : layout.leasedForBoot common bootId boot wall token = .ok target) :
    target.directory.head? = some State.ready.dirName := by
  unfold Layout.leasedForBoot at ht
  split at ht
  · cases ht
  · dsimp only at ht
    split at ht
    · cases ht
    · cases ht
      rfl

/-- The ticket of a claim. -/
theorem claimTransitionTicket_notes {leased : CommonFields} {token : Octets 16} {l' : CallLog}
    {boot wall : UInt64} (hq : h.opened = q.opened) (hnext : nextIdentity .claim common = .ok leased)
    (htarget : h.layout.leasedForBoot leased h.bootId boot wall token = .ok target)
    (evidence : TicketEvidence) :
    (claimTransitionTicket common token evidence boot wall).Notes lookNote h l' fun r _ _ =>
      ∀ T, r = .ok T → ClaimTicketOf q common target T := by
  refine notes_memory ⟨List.suffix_rfl, fun T hT => ?_⟩
  obtain ⟨rfl, hvalid⟩ := TransitionTicket.new_ok hT
  simp only [Handle.opened, Prod.mk.injEq] at hq
  obtain ⟨hformat, hboot, -⟩ := hq
  have hlayout : q.layout = h.layout := by simp only [Handle.layout, hformat, hboot]
  refine ⟨hformat ▸ rfl, hvalid, rfl, rfl, leasedForBoot_lands htarget, leased, ?_,
    hlayout ▸ htarget⟩
  dsimp only [TransitionTicket.destinationCommon, TransitionOperation.protocolOperation]
  rw [nextIdentity_ok hnext]

theorem claimCandidate_notes (hq : h.opened = q.opened) (durationNs : UInt64) {shardDir : Dir}
    {entry : Name} (hsrc : shardDir.path ++ [entry] = (q.layout.ready common).relativePath)
    (boottimeClaim : UInt64) (floor : WallFloor) :
    (claimCandidate deferred durationNs shardDir entry common boottimeClaim floor).Notes Sigma.mk h l
      (Stops (ClaimReport q deferred)) := by
  refine stops_past hq random128bit_fixes.mapErr (Task.fails_mapErr fun _ => trivial)
    yields_any fun token h₁ l₁ _ hq₁ => ?_
  refine stops_past hq₁ (Task.fixes_ofOption _ _) (Task.fails_ofOption trivial _) yields_any
    fun boot h₂ l₂ _ hq₂ => ?_
  refine stops_past hq₂ (Task.fixes_ofOption _ _) (Task.fails_ofOption trivial _) yields_any
    fun wall h₃ l₃ _ hq₃ => ?_
  refine stops_ofExcept (fun _ => trivial) fun leased hleased => ?_
  refine notes_memory (stops_ofExcept (fun _ => trivial) fun target htarget => ?_)
  refine stops_past hq₃ (claimDirectory_fixes _ _) claimDirectory_known claimDirectory_path
    fun leasedDir h₄ l₄ hdst hq₄ => ?_
  refine stops_past hq₄ (claimSource_fixes _ _ _) (claimSource_known _ _) yields_any
    fun source h₅ l₅ _ hq₅ => ?_
  have htarget₅ : h₅.layout.leasedForBoot leased h₅.bootId boot wall token = .ok target := by
    have hsame := hq₅.trans hq₃.symm
    simp only [Handle.opened, Prod.mk.injEq] at hsame
    rw [← htarget, Handle.layout, Handle.layout, hsame.1, hsame.2.1]
  have ticket_notes (evidence : TicketEvidence) (l' : CallLog) :
      (claimTransitionTicket common token evidence boot wall).Notes lookNote h₅ l' fun r _ _ =>
        ∀ T, r = .ok T → ClaimTicketOf q common target T :=
    claimTransitionTicket_notes hq₅ hleased htarget₅ evidence
  refine stops_bind (Q := fun r h' _ => h' = h₅ ∧ ∀ T, r = .ok T → ClaimTicketOf q common target T)
    (.mapErr (notes_looking ((ticket_notes _ l₅).mono ?_))) (Task.fails_mapErr fun _ => trivial) ?_
  · exact fun r _ _ _ hr => ⟨rfl, fun T hT => hr T (mapError_eq_ok.mp hT)⟩
  rintro ticket _ l₆ - ⟨rfl, hticket⟩
  refine stops_bind notes_anyLook (checkClaimWitness_known _ _ _) ?_
  rintro _ h₇ l₇ - rfl
  refine .attempt ((moveWitnessed_notes _ _).and
    (moveWitnessed_after (J := ClaimTicketOf q common target) fun l' => .mapErr ?_))
    fun r h₈ l₈ _ hr => ?_
  · refine .bind (Task.Always.notes (readClaimTicketEvidence_fixes _ _ _ h₇)) ?_
      fun _ _ _ _ _ _ hT => by cases hT
    intro evidence h' l₀ _ hopened
    have htarget' : h'.layout.leasedForBoot leased h'.bootId boot wall token = .ok target := by
      have hsame := hopened
      simp only [Handle.opened, Prod.mk.injEq] at hsame
      rw [← htarget₅, Handle.layout, Handle.layout, hsame.1, hsame.2.1]
    refine (claimTransitionTicket_notes (hopened.trans hq₅) hleased htarget' evidence).mono ?_
    exact fun r _ _ _ hr T hT => hr T (mapError_eq_ok.mp hT)
  · obtain ⟨⟨hmoved, hunknown⟩, hafter⟩ := hr
    split
    · exact stops_throw trivial
    · exact stops_throw trivial
    · rename_i phase source'
      exact stopUnknown_notes _ ⟨common, target, shardDir, entry, leasedDir,
        (hticket ticket rfl).withPhase _, hsrc, hdst, hunknown phase source' rfl⟩
    · exact notes_ite (fun _ => stops_throw trivial) fun _ => stops_throw trivial
    · rename_i moved ticket'
      have hdone : ClaimDone q deferred common target ticket' l₈ :=
        ⟨hafter _ rfl, shardDir, entry, leasedDir, hsrc, hdst, hmoved _ rfl⟩
      refine notes_ite (fun _ => ?_) fun _ => deliverClaim_notes hdone ..
      refine .attempt (Q := fun _ _ _ => True) (notes_any fun _ _ _ _ => trivial)
        fun x h₉ l₉ hl₉ _ => ?_
      split
      · exact deliverClaim_notes (hdone.later hl₉) ..
      · refine .bind ((hdone.later hl₉).stop _) (fun _ _ _ hl _ => ?_) ?_
        · exact deliverClaim_notes ((hdone.later hl₉).later hl) ..
        · rintro e _ _ - hstop T ⟨⟩
          exact hstop T rfl

/-! The scan. -/

def ScanStep.ticket : ScanStep → Option TransitionTicket
  | .done outcome => outcome.ticket
  | .go _ => none

theorem buryExhausted_known (readyDir : Path) (entry : Name) (floor : WallFloor) :
    (buryExhausted readyDir entry common floor).Fails ScanAbort.Known := by
  refine .bind fails_attempt fun r => ?_
  split
  · exact fails_pure _
  · exact fails_throw trivial
  · exact fails_pure _
  · exact .bind (Task.fails_remember _) fun _ => fails_throw trivial
  · exact fails_throw trivial
  · exact .bind (Task.fails_remember _) fun _ => fails_throw trivial

/-- The ticket of an aborted entry is the one the scan stops with. -/
theorem reports_afterAbort {state : ScanState} {abort : ScanAbort}
    (habort : ∀ T, abort = .unknown T → P T l) :
    (pure (afterAbort state abort) : QueueM Empty ScanStep).Notes Sigma.mk h l
      (Reports P ScanStep.ticket) := by
  cases abort with
  | skip => exact reports_pure rfl
  | suspicious => exact reports_pure rfl
  | failed e => exact reports_pure rfl
  | unknown T =>
    refine notes_pure ?_
    rintro _ _ ⟨⟩ ⟨⟩
    exact habort T rfl

theorem scanExhausted_notes (readyDir : Path) (entry : Name) (state : ScanState) :
    (scanExhausted readyDir entry common state).Notes Sigma.mk h l (Reports P ScanStep.ticket) := by
  refine .attempt (Q := fun _ _ _ => True) (notes_any fun _ _ _ _ => trivial)
    fun r h₁ l₁ _ _ => ?_
  split
  · exact reports_pure rfl
  · refine .attempt (Task.Always.notes (buryExhausted_known readyDir entry _ h₁))
      fun x h₂ l₂ _ hx => ?_
    split
    · exact reports_pure rfl
    · rename_i abort
      exact reports_afterAbort fun T hT => ((hT ▸ hx abort rfl : ScanAbort.Known (.unknown T))).elim

theorem scanClaim_notes (hq : h.opened = q.opened) (durationNs : UInt64) {shardDir : Dir}
    {entry : Name} (hsrc : shardDir.path ++ [entry] = (q.layout.ready common).relativePath)
    (state : ScanState) : (scanClaim deferred durationNs shardDir entry common state).Notes Sigma.mk
      h l (Reports (ClaimReport q deferred) ScanStep.ticket) := by
  refine .attempt notes_anyLook fun r h₁ l₁ _ hr => ?_
  obtain rfl := hr
  split
  · exact reports_pure rfl
  · refine .attempt (Task.Always.notes (scanFloor_fixes state _)) fun x h₂ l₂ _ hx => ?_
    split
    · exact reports_pure rfl
    · refine .attempt (claimCandidate_notes (hx.trans hq) durationNs hsrc _ _) fun y h₃ l₃ _ hy => ?_
      split
      · exact reports_pure rfl
      · rename_i abort
        exact reports_afterAbort fun T hT => hy T (hT ▸ rfl)

theorem scanEntry_notes (hq : h.opened = q.opened) (durationNs : UInt64) {shard : UInt32}
    {shardDir : Dir} (hdir : shardDir.path = readyShardDir shard) (entry : Name)
    (state : ScanState) : (scanEntry deferred durationNs shard shardDir entry state).Notes Sigma.mk
      h l (Reports (ClaimReport q deferred) ScanStep.ticket) := by
  refine notes_memory ?_
  split
  · exact reports_pure rfl
  · exact reports_pure rfl
  · rename_i common hcandidate
    refine notes_ite (fun _ => scanExhausted_notes _ _ _) fun _ => scanClaim_notes hq _ ?_ _
    have hpath := candidate_path hcandidate
    simp only [Handle.opened, Prod.mk.injEq] at hq
    have hlayout : q.layout = h.layout := by simp only [Handle.layout, hq.1, hq.2.1]
    rw [hlayout, hpath, hdir]

theorem scanEntries_notes (hq : h.opened = q.opened) (durationNs : UInt64) {shard : UInt32}
    {shardDir : Dir} (hdir : shardDir.path = readyShardDir shard) (entries position : Nat)
    (state : ScanState) :
    (scanEntries deferred durationNs shard shardDir entries position state).Notes Sigma.mk h l
      (Reports (ClaimReport q deferred) ScanStep.ticket) := by
  induction entries generalizing position state h l with
  | zero => exact reports_pure rfl
  | succ entries ih =>
    refine .attempt notes_anyLook fun r h₁ l₁ _ hr => ?_
    obtain rfl := hr
    split
    · exact reports_pure rfl
    · exact reports_pure rfl
    · refine .bind ((Task.Always.notes (scanEntry_fixes deferred _ _ _ _ _ _)).and
        (scanEntry_notes hq durationNs hdir _ state)) ?_ fun e => nomatch e
      rintro step h₂ l₂ - ⟨hopened, hreports⟩
      split
      · refine notes_pure ?_
        rintro _ T ⟨⟩ hT
        exact hreports _ T rfl hT
      · exact ih (hopened.trans hq) _ _

theorem scanShard_notes (hq : h.opened = q.opened) (durationNs : UInt64) (entries : Nat)
    (shard : UInt32) (state : ScanState) :
    (scanShard deferred durationNs entries shard state).Notes Sigma.mk h l
      (Reports (ClaimReport q deferred) ScanStep.ticket) := by
  have hopen : (looking (openRelative (readyShardDir shard))).Notes Sigma.mk h l fun r h' _ =>
      h' = h ∧ ∀ d, r = .ok d → d.path = readyShardDir shard :=
    notes_looking ((openBelow_yields rootDir (readyShardDir shard)).notes.mono
      fun r _ _ _ hr => ⟨rfl, hr⟩)
  refine .attempt hopen fun r h₁ l₁ _ hr => ?_
  obtain ⟨rfl, hr⟩ := hr
  split
  · exact reports_pure rfl
  · exact scanEntries_notes hq durationNs (hr _ rfl) _ _ _

theorem scanShards_notes (hq : h.opened = q.opened) (durationNs : UInt64) (entries : Nat)
    (shards : List UInt32) (state : ScanState) :
    (scanShards deferred durationNs entries shards state).Notes Sigma.mk h l
      (Reports (ClaimReport q deferred) LeaseOutcome.ticket) := by
  induction shards generalizing state h l with
  | nil => exact notes_ite (fun _ => reports_pure rfl) fun _ => reports_pure rfl
  | cons shard rest ih =>
    refine .bind ((Task.Always.notes (scanShard_fixes deferred durationNs entries shard state h)).and
      (scanShard_notes hq durationNs entries shard state)) ?_ fun e => nomatch e
    rintro step h₁ l₁ - ⟨hopened, hreports⟩
    split
    · refine notes_pure ?_
      rintro _ T ⟨⟩ hT
      exact hreports _ T rfl hT
    · exact ih (hopened.trans hq) _

theorem leaseOnceWithDirty_notes (hq : h.opened = q.opened) (durationNs : UInt64) (entries : Nat) :
    (leaseOnceWithDirty deferred durationNs entries).Notes Sigma.mk h l
      (Reports (ClaimReport q deferred) LeaseOutcome.ticket) := by
  refine .attempt notes_anyLook fun r h₁ l₁ _ hr => ?_
  obtain rfl := hr
  split
  · exact reports_pure rfl
  · refine notes_ite (fun _ => reports_pure rfl) fun _ => notes_memory ?_
    refine .bind (Q := fun r h' _ => h'.opened = q.opened) (notes_remember hq) ?_
      fun e => nomatch e
    exact fun _ h₂ l₂ _ hq₂ => scanShards_notes hq₂ durationNs entries _ _

theorem lease_notes (hq : h.opened = q.opened) (durationNs : UInt64) (entries rounds : Nat) :
    (lease deferred durationNs entries rounds).Notes Sigma.mk h l
      (Reports (ClaimReport q deferred) LeaseOutcome.ticket) := by
  induction rounds generalizing h l with
  | zero => exact leaseOnceWithDirty_notes hq durationNs entries
  | succ rounds ih =>
    refine .bind ((Task.Always.notes (leaseOnceWithDirty_fixes deferred durationNs entries h)).and
      (leaseOnceWithDirty_notes hq durationNs entries)) ?_ fun e => nomatch e
    rintro outcome h₁ l₁ - ⟨hopened, hreports⟩
    refine notes_ite (fun _ => ih (hopened.trans hq)) fun _ => notes_pure ?_
    rintro _ T ⟨⟩ hT
    exact hreports _ T rfl hT

end Claims

/-! ## 5. Operations -/

def OpResult.ticket : OpResult → Option TransitionTicket
  | .lease o => o.ticket
  | .ack o => o.ticket
  | .renew o => o.ticket
  | .transition o => o.ticket
  | _ => none

/-- The barriers are left to somebody else. -/
def Op.defers (h : Handle) : Op → Bool
  | .lease deferred .. => deferred
  | .ack deferred _ => deferred
  | .renew .. => h.options.deferredDirSync
  | _ => false

def Op.Report (h : Handle) (op : Op) (T : TransitionTicket) (l : CallLog) : Prop :=
  match op.leaseInfo with
  | some info => LeaseReport h info (op.defers h) T l
  | none => ClaimReport h (op.defers h) T l

section Operations

variable {codec : CursorCodec} {op : Op} {h h' : Handle} {es : CallLog} {r : OpResult}
  {T : TransitionTicket}

theorem map_reports {ρ : Type} {m : QueueM Empty ρ} {f : ρ → OpResult} {l : CallLog}
    {P : TransitionTicket → CallLog → Prop} {ticket : ρ → Option TransitionTicket}
    (hm : m.Notes Sigma.mk h l (Reports P ticket)) (hf : ∀ o, (f o).ticket = ticket o) :
    (f <$> m).Notes Sigma.mk h l (Reports P OpResult.ticket) := by
  refine Task.meets_map.mpr (Task.Notes.mono hm fun r _ _ _ hr => ?_)
  rintro x T hx hT
  cases r with
  | error e => exact nomatch e
  | ok o =>
    cases hx
    exact hr o T rfl (hf o ▸ hT)

theorem task_reports : (op.task codec).Notes Sigma.mk h [] (Reports (op.Report h) OpResult.ticket) := by
  have never {ρ : Type} {m : QueueM Empty ρ} {f : ρ → OpResult} (hf : ∀ o, (f o).ticket = none) :
      (f <$> m).Notes Sigma.mk h [] (Reports (op.Report h) OpResult.ticket) := by
    have hm : m.Notes Sigma.mk h [] (Reports (op.Report h) fun _ => none) :=
      notes_any fun _ _ _ _ _ _ _ => nofun
    exact map_reports hm hf
  cases op with
  | enqueue job => exact never fun _ => rfl
  | enqueueStreaming job reader => exact never fun _ => rfl
  | lease deferred durationNs entries rounds =>
    exact map_reports (lease_notes rfl durationNs entries rounds) fun _ => rfl
  | ack deferred info => exact map_reports (ack_notes rfl) fun _ => rfl
  | renew info durationNs => exact map_reports (renew_notes rfl durationNs) fun _ => rfl
  | retryNow info => exact map_reports (transitionOutcome_notes (retry_notes rfl _)) fun _ => rfl
  | retryAt info nb =>
    exact map_reports (transitionOutcome_notes (reports_bind rfl wallFloorForMutation_fixes
      fun _ _ _ hq => retry_notes hq _)) fun _ => rfl
  | retryAfter info durationNs =>
    exact map_reports (transitionOutcome_notes (retryDelayed_notes rfl durationNs)) fun _ => rfl
  | retryWithPolicy info policy => exact map_reports (retryWithPolicy_notes rfl policy) fun _ => rfl
  | bury info reason => exact map_reports (bury_notes rfl reason) fun _ => rfl
  | recover budget scanBudget => exact never fun _ => rfl

/-- What the record of an operation with a ticket shows. -/
theorem trace_reports (ht : (op.program codec h).Trace es (r, h')) (hT : r.ticket = some T) :
    op.Report h T es.reverse := by
  have hm : (op.task codec).Meets (recorder fun _ _ _ => True) h [] fun r s t =>
      ∀ x, r = .ok x → x.ticket = some T → op.Report h T t :=
    Task.Meets.mono task_reports fun r _ _ hr x hx hT => hr.2 x T hx hT
  have hpost := ht.post (Op.meets_program (Q := fun x t => x.1.ticket = some T → op.Report h T t) hm)
    (expected_of_forall (F := fun _ _ => True) fun _ _ => trivial)
  rw [List.append_nil] at hpost
  exact hpost hT

theorem verdict_of_ticket (hT : r.ticket = some T) : r.verdict = .unknown := by
  cases r with
  | enqueue o => cases hT
  | lease o => cases o <;> first | rfl | cases hT
  | ack o => cases o <;> first | rfl | cases hT
  | renew o => cases o <;> first | rfl | cases hT
  | transition o => cases o <;> first | rfl | cases hT
  | recover o => cases hT

theorem Op.moves_of_leaseInfo (op : Op) {info : LeaseInfo} (hinfo : op.leaseInfo = some info) :
    op.Moves := by
  cases op with
  | lease => cases hinfo
  | recover => cases hinfo
  | _ => trivial

theorem transfer_of_moved {deferred : Bool} {phase : TransitionPhase} {src dst : Dir} {n n' : Name}
    {l : CallLog} (hm : Moved deferred phase src n dst n' l) :
    .rename src.path n dst.path n' ∈ transfers l := by
  obtain ⟨below, hrename, -⟩ := hm
  exact List.mem_filterMap.mpr ⟨_, hrename.subset List.mem_cons_self, rfl⟩

/-- **A ticket names the two paths of the rename, unless the lease lies in the older tree.** For
    the operations on a lease that rename is all that was transferred. -/
theorem ticket_paths_iff (ht : (op.program codec h).Trace es (r, h')) (hT : r.ticket = some T) :
    match op.leaseInfo with
    | some info => ∃ src n dst n', transfers es.reverse = [.rename src n dst n'] ∧
        src ++ [n] = info.exactSourcePath ∧
        (transitionTicketPaths h T = .ok (src ++ [n], dst ++ [n']) ↔ info.Colocated)
    | none => ∃ src n dst n', .rename src n dst n' ∈ transfers es.reverse ∧
        claims (.rename src n dst n') = true ∧
        transitionTicketPaths h T = .ok (src ++ [n], dst ++ [n']) := by
  have hreport := trace_reports ht hT
  unfold Op.Report at hreport
  cases hinfo : op.leaseInfo with
  | some info =>
    rw [hinfo] at hreport
    obtain ⟨ha, target, src, n, dst, hticket, hsrc, hdst, hmoved⟩ := hreport
    obtain ⟨source, hpaths, hiff⟩ := hticket.paths ha
    have hmem := transfer_of_moved hmoved
    have honly : transfers es.reverse = [.rename src.path n dst.path target.filename] := by
      have htruth := outcome_truthful (op.moves_of_leaseInfo hinfo) ht
      rw [verdict_of_ticket hT] at htruth
      obtain ⟨⟨x, hx, -⟩, -⟩ := htruth
      rw [hx, List.mem_singleton] at hmem
      rw [hx, hmem]
    refine ⟨src.path, n, dst.path, target.filename, honly, hsrc, ?_⟩
    have hlands : target.relativePath = dst.path ++ [target.filename] := by rw [hdst]; rfl
    rw [hpaths, hsrc, ← hiff, hlands, Except.ok.injEq, Prod.mk.injEq, and_iff_left rfl]
  | none =>
    rw [hinfo] at hreport
    obtain ⟨common, target, src, n, dst, hticket, hsrc, hdst, hmoved⟩ := hreport
    refine ⟨src.path, n, dst.path, target.filename, transfer_of_moved hmoved, ?_, ?_⟩
    · exact decide_eq_true (hdst ▸ hticket.lands)
    · rw [hticket.paths, hsrc, hdst]
      rfl

end Operations

/-- The barrier of the receipt's directory fails. -/
def receiptBarrierFails (_ : World) : Act → Option IoError
  | .fsyncDir d => if d.path.head? = some State.receipt.dirName ∧ d.path.length = 3 then some .eio
    else none
  | _ => none

/-- The sample lease is acknowledged at the path, and the barrier behind the rename fails. -/
def sampleLostAck (queue : Snapshot) (path : Path) :
    Option (CallLog × (OpResult × Handle) × World) :=
  queue.call receiptBarrierFails sampleHandle (.ack false (sampleLeaseAt (path ++ [sampleLeasedName])))

/-- Whether the one rename of the record left the older tree while the ticket names another
    source. -/
def namesOther (es : CallLog) (T : TransitionTicket) : Bool :=
  match transfers es.reverse, transitionTicketPaths sampleHandle T with
  | [.rename src n dst n'], .ok paths =>
    decide (paths = (sampleReadyPath ++ [n], dst ++ [n']) ∧ src = sampleOlderPath)
  | _, _ => false

def barriers (l : CallLog) : List Dir := l.filterMap fun e =>
  match e.1 with
  | .fsyncDir d => some d
  | _ => none

def overstates (h : Handle) (x : CallLog × (OpResult × Handle) × World) : Bool :=
  match x.2.1.1.ticket with
  | none => false
  | some T => match transitionTicketPaths h T with
    | .error _ => false
    | .ok paths => decide (T.phase ≠ .linearized ∧
        ∀ dir ∈ barriers x.1.reverse, dir.path ≠ paths.2.dropLast)

/-- Directories cannot be examined once the entry is gone. -/
def unexamined (name : Name) (w : World) : Act → Option IoError
  | .look (.fstatDir _) => if (w.entry sampleReadyPath name).isNone then some .eio else none
  | _ => none

def sampleDeferredHandle : Handle := { sampleHandle with options := ⟨0, 0, true⟩ }

/-- The calls on the sample queue, evaluated together. -/
theorem sample_calls :
    (sampleLostAck (sampleQueue [(sampleLeasedName, .file 20)] []) sampleReadyPath).map
      (fun x => x.2.1.1.ticket.isSome) = some true ∧
    (sampleLostAck (sampleQueue [] [(sampleLeasedName, .file 20)]) sampleOlderPath).map
      (fun x => x.2.1.1.ticket.map (namesOther x.1)) = some (some true) ∧
    ((sampleQueue [(sampleReadyName, .file 20)] []).call (unexamined sampleReadyName) sampleHandle
      (.lease true 5000000000 10 0)).map (overstates sampleHandle) = some true ∧
    ((sampleQueue [(sampleLeasedName, .file 20)] []).call (unexamined sampleLeasedName) sampleHandle
      (.ack true (sampleLeaseAt (sampleReadyPath ++ [sampleLeasedName])))).map
        (overstates sampleHandle) = some true ∧
    ((sampleQueue [(sampleLeasedName, .file 20)] []).call (unexamined sampleLeasedName)
      sampleDeferredHandle (.renew (sampleLeaseAt (sampleReadyPath ++ [sampleLeasedName]))
        5000000000)).map (overstates sampleDeferredHandle) = some true := by
  refine ⟨?_, ?_, ?_, ?_, ?_⟩ <;> decide +kernel

theorem ticket_paths_ack : ∃ es r h' T, ((Op.ack false (sampleLeaseAt
      (sampleReadyPath ++ [sampleLeasedName]))).program sampleCodec sampleHandle).Trace es (r, h') ∧
    r.ticket = some T ∧ ∃ src n dst n', transfers es.reverse = [.rename src n dst n'] ∧
      transitionTicketPaths sampleHandle T = .ok (src ++ [n], dst ++ [n']) := by
  have hrun := sample_calls.1
  obtain ⟨⟨es, ⟨r, h'⟩, w⟩, hrun, hsome⟩ := Option.map_eq_some_iff.mp hrun
  obtain ⟨T, hT⟩ := Option.isSome_iff_exists.mp hsome
  have ht := Prog.trace_of_solo hrun
  obtain ⟨src, n, dst, n', honly, -, hiff⟩ := ticket_paths_iff ht hT
  exact ⟨es, r, h', T, ht, hT, src, n, dst, n', honly, hiff.mpr rfl⟩

/-- **The ticket of an older lease names a source that never was.** -/
theorem older_lease_ticket : ∃ es r h' T, ((Op.ack false (sampleLeaseAt
      (sampleOlderPath ++ [sampleLeasedName]))).program sampleCodec sampleHandle).Trace es (r, h') ∧
    r.ticket = some T ∧ ∃ src n dst n', transfers es.reverse = [.rename src n dst n'] ∧
      transitionTicketPaths sampleHandle T = .ok (sampleReadyPath ++ [n], dst ++ [n']) ∧
      src = sampleOlderPath := by
  have hrun := sample_calls.2.1
  obtain ⟨⟨es, ⟨r, h'⟩, w⟩, hrun, hshows⟩ := Option.map_eq_some_iff.mp hrun
  obtain ⟨T, hT, hshows⟩ := Option.map_eq_some_iff.mp hshows
  have ht := Prog.trace_of_solo hrun
  refine ⟨es, r, h', T, ht, hT, ?_⟩
  unfold namesOther at hshows
  split at hshows
  · rename_i src n dst n' paths honly hpaths
    obtain ⟨rfl, hsrc⟩ := of_decide_eq_true hshows
    exact ⟨src, n, dst, n', honly, hpaths, hsrc⟩
  · cases hshows

/-! ## 6. Phases -/

/-- Behind the rename to the destination of the ticket, the barriers of its phase were made. -/
def PhaseBacked (h : Handle) (T : TransitionTicket) (l : CallLog) : Prop :=
  ∃ (src : Dir) (n : Name) (dst : Dir) (n' : Name) (below : CallLog) (source : Path),
    transitionTicketPaths h T = .ok (source, dst.path ++ [n']) ∧
    ⟨.renameNoreplace src n dst n', .ok ()⟩ :: below <:+ l ∧
    T.phase.Backed src dst (⟨.renameNoreplace src n dst n', .ok ()⟩ :: below) l

/-- No ticket of the operation overstates its phase. -/
def Op.Honest (op : Op) (h : Handle) : Prop :=
  ∀ (codec : CursorCodec) (es : CallLog) (r : OpResult) (h' : Handle) (T : TransitionTicket),
    (op.program codec h).Trace es (r, h') → r.ticket = some T → PhaseBacked h T es.reverse

theorem honest_of_strict {op : Op} {h : Handle} (hstrict : op.defers h = false) : op.Honest h := by
  intro codec es r h' T ht hT
  have hreport := trace_reports ht hT
  unfold Op.Report at hreport
  rw [hstrict] at hreport
  cases hinfo : op.leaseInfo with
  | some info =>
    rw [hinfo] at hreport
    obtain ⟨ha, target, src, n, dst, hticket, -, hdst, below, hrename, hbacked⟩ := hreport
    obtain ⟨source, hpaths, -⟩ := hticket.paths ha
    refine ⟨src, n, dst, target.filename, below, source.relativePath, ?_, hrename, hbacked rfl⟩
    rw [hpaths, hdst]
    rfl
  | none =>
    rw [hinfo] at hreport
    obtain ⟨common, target, src, n, dst, hticket, -, hdst, below, hrename, hbacked⟩ := hreport
    refine ⟨src, n, dst, target.filename, below, (h.layout.ready common).relativePath, ?_, hrename,
      hbacked rfl⟩
    rw [hticket.paths, hdst]
    rfl

theorem Since.barrier {l l' : CallLog} {d : Dir} (h : Since l l' ⟨.fsyncDir d, .ok ()⟩) :
    d ∈ barriers l' := by
  obtain ⟨below, hmem, -⟩ := h
  exact List.mem_filterMap.mpr ⟨_, hmem.subset List.mem_cons_self, rfl⟩

/-- Some run hands out a ticket whose phase tells of a barrier of the destination directory, and
    the run never synced that directory. -/
def Op.Overstates (op : Op) (h : Handle) : Prop :=
  ∃ es r h' T paths, (op.program sampleCodec h).Trace es (r, h') ∧ r.ticket = some T ∧
    T.phase ≠ .linearized ∧ transitionTicketPaths h T = .ok paths ∧
    ∀ dir ∈ barriers es.reverse, dir.path ≠ paths.2.dropLast

theorem Op.Overstates.not_honest {op : Op} {h : Handle} (ho : op.Overstates h) : ¬ op.Honest h := by
  obtain ⟨es, r, h', T, paths, ht, hT, hphase, hpaths, hnone⟩ := ho
  intro hhonest
  obtain ⟨src, n, dst, n', below, source, hpaths', -, hbacked⟩ :=
    hhonest sampleCodec es r h' T ht hT
  rw [hpaths] at hpaths'
  cases hpaths'
  have hsynced : dst ∈ barriers es.reverse := by
    unfold TransitionPhase.Backed at hbacked
    split at hbacked
    · contradiction
    · exact hbacked.barrier
    · exact hbacked.1.barrier
  exact hnone dst hsynced List.dropLast_concat.symm

theorem overstates_of_call (queue : Snapshot) (bad : World → Act → Option IoError) {op : Op}
    {h : Handle} (hrun : (queue.call bad h op).map (overstates h) = some true) : op.Overstates h := by
  obtain ⟨⟨es, ⟨r, h'⟩, w⟩, hrun, hover⟩ := Option.map_eq_some_iff.mp hrun
  have ht := Prog.trace_of_solo hrun
  unfold overstates at hover
  split at hover
  · cases hover
  · rename_i T hT
    split at hover
    · cases hover
    · rename_i paths hpaths
      obtain ⟨hphase, hnone⟩ := of_decide_eq_true hover
      exact ⟨es, r, h', T, paths, ht, hT, hphase, hpaths, hnone⟩

theorem lease_overstates : (Op.lease true 5000000000 10 0).Overstates sampleHandle :=
  overstates_of_call _ _ sample_calls.2.2.1

theorem ack_overstates : (Op.ack true (sampleLeaseAt
    (sampleReadyPath ++ [sampleLeasedName]))).Overstates sampleHandle :=
  overstates_of_call _ _ sample_calls.2.2.2.1

theorem renew_overstates : (Op.renew (sampleLeaseAt (sampleReadyPath ++ [sampleLeasedName]))
    5000000000).Overstates sampleDeferredHandle :=
  overstates_of_call _ _ sample_calls.2.2.2.2

end SteadQ
