/-
  File:      SteadQ/Outcome/Lease.lean
  Subject:   WHAT A LEASE DID, given its outcome, when the ready objects are well-formed.

  A scan may sweep objects without attempts left to `dead/` before it claims one. The claim is
  its own transfer; the sweeps are not.
-/
import SteadQ.Law.Lease
import SteadQ.Outcome.Engine

namespace SteadQ

open Octet Interact
open Interact.Task (always_of_forall meets_attempt meets_bind meets_call meets_ite meets_mapErr
  meets_memory meets_pure meets_throw then_intro then_ok)

/-! ## 1. Well-formed objects -/

/-- An object with this header, as a publication leaves it. -/
structure JobBytes (header : FixedHeader) (data : Bytes) : Prop where
  decodes : FixedHeader.decode (slice data 0 fixedHeaderSize) = .ok header
  fits : isExtensionTooLarge header.extensionHeaderLength.toNat = false
  size : data.length =
    128 + header.extensionHeaderLength.toNat + header.payloadLength.toNat
  bounded : data.length < 2 ^ 64
  envelope : verifyEnvelopeDigest header
    (slice data 128 header.extensionHeaderLength.toNat) = true
  payload : payloadDigest (slice data (128 + header.extensionHeaderLength.toNat)
    header.payloadLength.toNat) = header.payloadDigest

/-- The object of the job that a ready name stands for. -/
def WellFormed (common : CommonFields) (data : Bytes) : Prop :=
  ∃ header, JobBytes header data ∧ header.jobId = common.jobId ∧
    header.maximumAttempts = common.maximumAttempts

/-- Every ready object is well-formed: what is opened under a ready name has such contents, and
    while the call lasts reads agree with them. -/
def Sound (contents : Ino → Option Bytes) : (l : Look) → l.Resp → Prop
  | .openAt dir name, r => ∀ shard p i, dir.path = readyShardDir shard → parseReady name = .ok p →
      r = .ok i → ∃ data, contents i = some data ∧ WellFormed p.common data
  | .fstat i, r => ∀ data stat, contents i = some data → r = .ok stat →
      isSinglyLinkedRegular stat = true ∧ stat.size = data.length
  | .pread i offset length, r => ∀ data, contents i = some data → r ≠ .error .unexpectedEof ∧
      ∀ b, r = .ok b → b = slice data offset length
  | _, _ => True

section Reads

variable {α β : Type} {contents : Ino → Option Bytes} {file : Ino} {data : Bytes}
  {header : FixedHeader}

/-- A read gives what satisfies `J`, or the system fails. -/
def Renders (contents : Ino → Option Bytes) (m : LookM VerificationError α) (J : α → Prop) :
    Prop :=
  ∀ h, m.Meets (Task.trusting (Sound contents)) h () fun r _ _ =>
    (∀ a, r = .ok a → J a) ∧ ∀ e, r = .error e → ∃ text, e = .io text

theorem renders_pure {a : α} {J : α → Prop} (hJ : J a) :
    Renders contents (pure a : LookM VerificationError α) J :=
  fun _ => ⟨by rintro _ ⟨⟩; exact hJ, nofun⟩

theorem Renders.bind {m : LookM VerificationError α} {k : α → LookM VerificationError β}
    {J : α → Prop} {K : β → Prop} (hm : Renders contents m J)
    (hk : ∀ a, J a → Renders contents (k a) K) : Renders contents (m >>= k) K := by
  intro h
  refine meets_bind.mpr (Task.Meets.mono (hm h) ?_)
  rintro r h' - ⟨hok, herror⟩
  refine then_intro (fun e he => ⟨nofun, ?_⟩) fun a ha => hk a (hok a ha) h'
  rintro _ ⟨⟩
  exact herror e he

theorem preadExact_renders (hdata : contents file = some data) (offset length : Nat)
    (hin : offset + length ≤ data.length) :
    Renders contents (Task.mapErr readError (preadExact file offset length))
      fun b => b = slice data offset length := by
  intro h
  refine meets_mapErr.mpr (meets_call.mpr ⟨trivial, fun r hr => ?_⟩)
  obtain ⟨heof, hb⟩ := hr data hdata
  cases r with
  | error e =>
    refine ⟨by rintro _ ⟨⟩, ?_⟩
    rintro _ ⟨⟩
    cases e with
    | unexpectedEof => exact absurd rfl heof
    | _ => exact ⟨_, rfl⟩
  | ok b =>
    obtain rfl := hb b rfl
    have hlen : (slice data offset length).length = length := by
      simp only [slice, List.length_take, List.length_drop]
      omega
    have hexact : exactly length (.ok (slice data offset length)) =
        .ok (slice data offset length) := if_pos hlen
    show (∀ a, (exactly length _).mapError readError = _ → _) ∧ _
    rw [hexact]
    exact ⟨by rintro _ ⟨⟩; rfl, by rintro _ ⟨⟩⟩

theorem readAndVerifyHeader_renders (hdata : contents file = some data)
    (hjob : JobBytes header data) :
    Renders contents (readAndVerifyHeader file) fun r => r = header := by
  have hsize := hjob.size
  refine .bind (preadExact_renders hdata 0 _ (by simp only [fixedHeaderSize]; omega)) ?_
  rintro _ rfl
  refine .bind (J := fun r => r = header) (fun h => ?_) ?_
  · rw [hjob.decodes]
    exact ⟨by rintro _ ⟨⟩; rfl, nofun⟩
  · rintro _ rfl
    rw [if_neg (by rw [hjob.fits]; exact Bool.false_ne_true)]
    exact renders_pure rfl

theorem readExtension_renders (hdata : contents file = some data) (hjob : JobBytes header data) :
    Renders contents (readExtension file header.extensionHeaderLength.toNat)
      fun ext => ext = slice data 128 header.extensionHeaderLength.toNat := by
  have hsize := hjob.size
  unfold readExtension
  split
  · exact preadExact_renders hdata 128 _ (by omega)
  · have hzero : header.extensionHeaderLength.toNat = 0 := by omega
    exact renders_pure (by rw [hzero, slice, List.take_zero])

theorem verifySize_renders (hdata : contents file = some data) (hjob : JobBytes header data) :
    Renders contents (verifySize file header header.extensionHeaderLength.toNat)
      fun _ => True := by
  have hsize := hjob.size
  have hbound := hjob.bounded
  refine .bind (J := fun stat => stat.size = data.length) (fun h => ?_) fun stat hstat => ?_
  · refine meets_mapErr.mpr (meets_call.mpr ⟨trivial, fun r hr => ?_⟩)
    cases r with
    | error e => exact ⟨nofun, by rintro _ ⟨⟩; exact ⟨_, rfl⟩⟩
    | ok stat => exact ⟨by rintro _ ⟨⟩; exact (hr data stat hdata rfl).2, nofun⟩
  · refine .bind (J := fun total => total = data.length) (fun h => ?_) ?_
    · rw [checkedTotalSize, if_pos (by omega)]
      exact ⟨by rintro _ ⟨⟩; exact hsize.symm, nofun⟩
    · rintro _ rfl
      rw [if_neg (by rw [hstat]; exact not_not_intro rfl)]
      exact renders_pure trivial

theorem verifyEnvelopeOnFd_renders (hdata : contents file = some data)
    (hjob : JobBytes header data) :
    Renders contents (verifyEnvelopeOnFd file) fun job => job.header = header ∧
      job.extension = slice data 128 header.extensionHeaderLength.toNat := by
  refine .bind (readAndVerifyHeader_renders hdata hjob) ?_
  rintro _ rfl
  refine .bind (verifySize_renders hdata hjob) fun stat _ => ?_
  refine .bind (readExtension_renders hdata hjob) ?_
  rintro _ rfl
  rw [if_neg (by rw [hjob.envelope]; exact not_not_intro rfl)]
  exact renders_pure ⟨rfl, rfl⟩

/-- Chunk by chunk, a payload is read as it stands. -/
theorem readPayload_renders (hdata : contents file = some data) (fuel start offset remaining : Nat)
    (hfuel : remaining ≤ fuel) (hstart : start ≤ offset) (hin : offset + remaining ≤ data.length) :
    Renders contents (readPayload file fuel offset remaining (slice data start (offset - start)))
      fun payload => payload = slice data start (offset + remaining - start) := by
  induction fuel generalizing offset remaining with
  | zero =>
    obtain rfl : remaining = 0 := by omega
    exact renders_pure rfl
  | succ fuel ih =>
    unfold readPayload
    split
    · refine .bind (J := fun chunk => chunk = slice data offset (min remaining 65536)) ?_ ?_
      · intro h
        refine meets_mapErr.mpr (meets_call.mpr ⟨trivial, fun r hr => ?_⟩)
        cases r with
        | error e => exact ⟨nofun, by rintro _ ⟨⟩; exact ⟨_, rfl⟩⟩
        | ok b => exact ⟨by rintro _ ⟨⟩; exact (hr data hdata).2 b rfl, nofun⟩
      · rintro _ rfl
        have hlen : (slice data offset (min remaining 65536)).length = min remaining 65536 := by
          simp only [slice, List.length_take, List.length_drop]
          omega
        rw [if_neg (List.ne_nil_of_length_pos (by omega)), hlen]
        have hjoin : slice data start (offset - start) ++ slice data offset (min remaining 65536) =
            slice data start (offset + min remaining 65536 - start) := by
          simp only [slice]
          rw [show offset + min remaining 65536 - start =
            (offset - start) + min remaining 65536 by omega, List.take_add, List.drop_drop,
            show start + (offset - start) = offset by omega]
        rw [hjoin]
        have := ih (offset + min remaining 65536) (remaining - min remaining 65536) (by omega)
          (by omega) (by omega)
        rwa [show offset + min remaining 65536 + (remaining - min remaining 65536) =
          offset + remaining by omega] at this
    · obtain rfl : remaining = 0 := by omega
      exact renders_pure rfl

theorem verifyJobOnFd_renders (hdata : contents file = some data) (hjob : JobBytes header data) :
    Renders contents (verifyJobOnFd file) fun _ => True := by
  have hsize := hjob.size
  refine .bind (verifyEnvelopeOnFd_renders hdata hjob) ?_
  rintro job ⟨hheader, hext⟩
  have hlen : job.extension.length = header.extensionHeaderLength.toNat := by
    simp only [hext, slice, List.length_take, List.length_drop]
    omega
  refine .bind (J := fun _ => True) ?_ fun _ _ => renders_pure trivial
  have hread := readPayload_renders hdata header.payloadLength.toNat
    (128 + header.extensionHeaderLength.toNat) (128 + header.extensionHeaderLength.toNat)
    header.payloadLength.toNat le_rfl le_rfl hsize.ge
  rw [Nat.sub_self, slice, List.take_zero, Nat.add_sub_cancel_left] at hread
  rw [hheader, hlen]
  refine .bind hread ?_
  rintro _ rfl
  rw [if_neg (by rw [hjob.payload]; exact not_not_intro rfl)]
  exact renders_pure trivial

/-- The payload of a well-formed object is never found corrupt. -/
theorem verifyPayloadOnFd_sound (hdata : contents file = some data) (hjob : JobBytes header data)
    (h : Handle) : (verifyPayloadOnFd file).Meets (Task.trusting (Sound contents)) h ()
      fun r _ _ => r ≠ .error .payloadCorrupt := by
  have hverify : Renders contents (do let _ ← verifyJobOnFd file) fun _ => True :=
    .bind (verifyJobOnFd_renders hdata hjob) fun _ _ => renders_pure trivial
  refine meets_mapErr.mpr (Task.Meets.mono (hverify h) ?_)
  rintro r - - ⟨-, herror⟩
  cases r with
  | ok u => nofun
  | error e =>
    obtain ⟨text, rfl⟩ := herror e rfl
    nofun

/-- Neither is a well-formed ready object, and what was opened is one. -/
theorem openClaimSource_sound {dir : Dir} {shard : UInt32} {name : Name} {p : ReadyName}
    (hdir : dir.path = readyShardDir shard) (hname : parseReady name = .ok p) (h : Handle) :
    (openClaimSource dir name p.common.jobId p.common.maximumAttempts).Meets
      (Task.trusting (Sound contents)) h () fun r _ _ =>
        (∀ text, r ≠ .error (.queueCorrupt text)) ∧ ∀ source, r = .ok (some source) →
          ∃ data header, contents source.file = some data ∧ JobBytes header data := by
  refine meets_bind.mpr (meets_attempt.mpr (meets_call.mpr ⟨trivial, fun r hr => ?_⟩))
  refine then_ok.mpr ?_
  cases r with
  | error e =>
    cases e with
    | enoent => exact meets_pure.mpr ⟨nofun, nofun⟩
    | _ => exact meets_throw.mpr ⟨nofun, nofun⟩
  | ok file =>
    obtain ⟨data, hdata, header, hjob, hid, hmax⟩ := hr shard p file hdir hname rfl
    refine meets_bind.mpr (meets_mapErr.mpr (meets_call.mpr ⟨trivial, ?_⟩))
    intro r hr
    cases r with
    | error e => exact ⟨by cases e <;> nofun, nofun⟩
    | ok stat =>
      refine then_ok.mpr ?_
      rw [if_neg (not_not_intro (hr data stat hdata rfl).1)]
      refine meets_bind.mpr (meets_bind.mpr (meets_mapErr.mpr
        (Task.Meets.mono (verifyEnvelopeOnFd_renders hdata hjob h) ?_)))
      rintro r h₁ - ⟨hok, herror⟩
      cases r with
      | error e =>
        obtain ⟨text, rfl⟩ := herror e rfl
        exact ⟨nofun, nofun⟩
      | ok job =>
        obtain ⟨hheader, -⟩ := hok job rfl
        refine then_ok.mpr ?_
        rw [if_neg (by rw [hheader]; exact not_not_intro hid),
          if_neg (by rw [hheader]; exact not_not_intro hmax)]
        refine meets_pure.mpr (then_ok.mpr (meets_pure.mpr ⟨nofun, ?_⟩))
        rintro _ ⟨⟩
        exact ⟨data, header, hdata, hjob⟩

end Reads

/-! ## 2. The transfers of a scan -/

/-- The rename of a claim: leased names lie in the ready directories. -/
def claims : Transfer → Bool
  | .rename _ _ dst _ => dst.head? = some State.ready.dirName
  | .link .. => false

/-- An object without attempts left went from its shard to `dead/`. -/
def Swept (x : Transfer) : Prop :=
  ∃ shard name p bucket shard' name', parseReady name = .ok p ∧
    p.common.attempt ≥ p.common.maximumAttempts ∧
    x = .rename (readyShardDir shard) name (bucketShardDir .dead bucket shard') name'

theorem Swept.not_claims {x : Transfer} (hx : Swept x) : claims x = false := by
  obtain ⟨shard, name, p, bucket, shard', name', -, -, rfl⟩ := hx
  exact (by decide : decide (some State.dead.dirName = some State.ready.dirName) = false)

/-- Nothing was claimed, and storage did not run out. -/
structure Scanning (h : Handle) (t : CallLog) : Prop where
  before : Before claims h h t
  usable : h.poisoned = none
  swept : ∀ x ∈ transfers t, Swept x

/-- One claim, behind any number of sweeps. -/
def Claimed (t : CallLog) : Prop :=
  ∃ x past, transfers t = x :: past ∧ claims x = true ∧ ∀ y ∈ past, Swept y

/-- What a verdict says of a scan. -/
def LeaseFate (v : Verdict) (h : Handle) (t : CallLog) : Prop :=
  match v with
  | .done => Claimed t ∧ shortage claims t = none
  | .unknown => Claimed t ∧ (∀ k, shortage claims t = some k → k = .behind) ∧ Warned h
  | .refused e => (∀ x ∈ transfers t, Swept x) ∧ Charged none (shortage claims t) e h
  | .lost => Scanning h t

def LeaseOutcome.verdict : LeaseOutcome → Verdict
  | .leased _ => .done
  | .empty => .lost
  | .notCommitted e => .refused e
  | .outcomeUnknown _ => .unknown

def ScanAbort.verdict : ScanAbort → Verdict
  | .skip => .lost
  | .suspicious => .lost
  | .failed e => .refused e
  | .unknown _ => .unknown

def claimVerdict : Except ScanAbort LeaseInfo → Verdict
  | .ok _ => .done
  | .error abort => abort.verdict

def sweepVerdict : Except ScanAbort Unit → Verdict
  | .ok _ => .lost
  | .error abort => abort.verdict

def ScanStep.verdict : ScanStep → Verdict
  | .go _ => .lost
  | .done outcome => outcome.verdict

theorem afterAbort_verdict (state : ScanState) (abort : ScanAbort) :
    (afterAbort state abort).verdict = abort.verdict := by
  cases abort <;> rfl

section Scan

variable {α β ρ : Type} {contents : Ino → Option Bytes} {h h' : Handle} {t t' : CallLog}
  {E : CallLog → (a : Act) → a.Resp → Prop}

theorem Scanning.resume (hs : Scanning h t) (hsilent : Silent t t')
    (hfine : shortage claims t' = none) (hq : h'.poisoned = none) : Scanning h' t' where
  before := ⟨hfine, by rw [hsilent.transfers]; exact hs.before.ahead, .refl h'⟩
  usable := hq
  swept := by rw [hsilent.transfers]; exact hs.swept

theorem Scanning.past (hs : Scanning h t) (hb : Before claims h h' t') (hsilent : Silent t t') :
    Scanning h' t' :=
  hs.resume hsilent hb.shortage (hb.alike.poisoned.trans hs.usable)

theorem Scanning.looked (hs : Scanning h t) (hl : Looked t t') : Scanning h t' :=
  hs.past (hs.before.looked hl) hl.silent

theorem Scanning.refused (hs : Scanning h t) (e : Error) : LeaseFate (.refused e) h t :=
  ⟨hs.swept, by rw [hs.before.shortage]; exact charged_none e⟩

/-- Code in front of a claim: it gives up on the entry, or on the scan. -/
def Aborts (s : Option Shortage) (abort : ScanAbort) (h : Handle) : Prop :=
  match abort.verdict with
  | .refused e => Charged none s e h
  | .lost => s = none ∧ h.poisoned = none
  | _ => False

theorem Aborts.fate {abort : ScanAbort} (hs : Scanning h t) (hsilent : Silent t t')
    (ha : Aborts (shortage claims t') abort h') : LeaseFate abort.verdict h' t' := by
  unfold Aborts at ha
  split at ha
  · rename_i e he
    rw [he]
    exact ⟨by rw [hsilent.transfers]; exact hs.swept, ha⟩
  · rename_i he
    rw [he]
    exact hs.resume hsilent ha.1 ha.2
  · exact ha.elim

theorem Early.claim {m : QueueM ScanAbort α} {k : α → QueueM ScanAbort LeaseInfo}
    {J : α → Handle → CallLog → Prop} (hs : Scanning h t)
    (hm : Early E claims h Aborts m h t J)
    (hk : ∀ a h' t', Scanning h' t' → J a h' t' → (k a).Meets (recorder E) h' t'
      fun r h'' t'' => LeaseFate (claimVerdict r) h'' t'') :
    (m >>= k).Meets (recorder E) h t fun r h' t' => LeaseFate (claimVerdict r) h' t' := by
  refine meets_bind.mpr (Task.Meets.mono hm fun r h' t' hp => ?_)
  refine then_intro (fun e he => (hp.error e he).fate hs hp.silent) fun a ha => ?_
  obtain ⟨hb, hj⟩ := hp.ok a ha
  exact hk a h' t' (hs.past hb hp.silent) hj

/-! ## 3. Sweeps -/

/-- What the move of an exhausted object leaves behind. -/
def SweepPost (r : Except DeadLetterFailure Unit) (h : Handle) (t : CallLog) : Prop :=
  match r with
  | .ok () => Scanning h t
  | .error (.invalid e) => LeaseFate (.refused e) h t
  | .error (.move (.notCommitted _ e)) => LeaseFate (.refused (Error.from e)) h t
  | .error (.move (.outcomeUnknown ..)) => (∀ x ∈ transfers t, Swept x) ∧
      (∀ k, shortage claims t = some k → k = .behind) ∧ h.poisoned = none
  | .error (.move _) => Scanning h t

theorem Early.sweep {m : QueueM IoError α} {k : α → QueueM DeadLetterFailure Unit}
    {J : α → Handle → CallLog → Prop} (hs : Scanning h t) (phase : MovePhase)
    (hm : Early E claims h (Spent h.poisoned) m h t J)
    (hk : ∀ a h' t', Scanning h' t' → J a h' t' → (k a).Meets (recorder E) h' t' SweepPost) :
    (Task.mapErr (fun e => .move (.notCommitted phase e)) m >>= k).Meets (recorder E) h t
      SweepPost := by
  refine meets_bind.mpr (meets_mapErr.mpr (Task.Meets.mono hm fun r h' t' hp => ?_))
  cases r with
  | error e => exact ⟨by rw [hp.silent.transfers]; exact hs.swept,
    hs.usable ▸ (hp.error e rfl).charged⟩
  | ok a =>
    obtain ⟨hb, hj⟩ := hp.ok a rfl
    exact hk a h' t' (hs.past hb hp.silent) hj

theorem moveToDead_post {shard : UInt32} {entry : Name} {p : ReadyName} (hs : Scanning h t)
    (hname : parseReady entry = .ok p) (hout : p.common.attempt ≥ p.common.maximumAttempts)
    (reason : DeadReason) (floor : WallFloor) :
    (moveToDead (readyShardDir shard) entry p.common reason floor).Meets (recorder E) h t
      SweepPost := by
  refine meets_bind.mpr (meets_memory.mpr (then_ok.mpr ?_))
  refine meets_bind.mpr (Task.meets_ofOption.mpr
    ⟨fun bucket _ => then_ok.mpr ?_, fun _ => hs.refused _⟩)
  refine meets_bind.mpr (Task.meets_ofExcept.mpr ?_)
  cases nextIdentity .exhaustedReadyCleanup p.common with
  | error e => exact hs.refused e
  | ok deadCommon =>
    refine then_ok.mpr ?_
    refine Early.sweep hs .ensureDest (ensureDirWithDirty_early hs.before false _) ?_
    rintro _ h₁ t₁ hs₁ -
    refine Early.sweep hs₁ .ensureDest (openRelative_early hs₁.before _) ?_
    rintro deadDir h₂ t₂ hs₂ ⟨-, hdead⟩
    refine Early.sweep hs₂ .preRename (openRelative_early hs₂.before _) ?_
    rintro sourceDir h₃ t₃ hs₃ ⟨-, hsource⟩
    have hswept : Swept (.rename sourceDir.path entry deadDir.path
        (h.layout.deadInBucket deadCommon reason.code bucket).filename) :=
      ⟨shard, entry, p, bucket, _, _, hname, hout, by rw [hsource, hdead]; rfl⟩
    refine meets_bind.mpr (meets_attempt.mpr (Task.Meets.mono
      (moveVerifiedNoreplace_fate hs₃.before sourceDir entry deadDir _) ?_))
    intro r h₄ t₄ hf
    refine then_ok.mpr ?_
    cases r with
    | ok u =>
      obtain ⟨_, rfl, hb⟩ := hf
      refine meets_pure.mpr ⟨⟨hb.fine, ?_, .refl _⟩, hb.alike.poisoned.trans hs₃.usable, ?_⟩
      · rw [hb.transfers, List.any_cons, hswept.not_claims, hs₃.before.ahead]
        rfl
      · rw [hb.transfers]
        exact List.forall_mem_cons.mpr ⟨hswept, hs₃.swept⟩
    | error failure =>
      cases failure with
      | sourceMissing => exact meets_pure.mpr (hs₃.past hf.2 hf.1)
      | alreadyExists => exact meets_throw.mpr (hs₃.past hf.2 hf.1)
      | notCommitted phase e =>
        exact meets_throw.mpr ⟨by rw [hf.1.transfers]; exact hs₃.swept, hs₃.usable ▸ hf.2⟩
      | outcomeUnknown phase e =>
        obtain ⟨_, rfl, ha, hl⟩ := hf
        refine meets_throw.mpr ⟨?_, ha.shortage, hl.poisoned.trans hs₃.usable⟩
        rw [ha.transfers]
        exact List.forall_mem_cons.mpr ⟨hswept, hs₃.swept⟩

theorem charged_atMovePhase {s : Option Shortage} {e : IoError} {what : String} {phase : MovePhase}
    (hc : Charged none s (Error.from e) h) :
    Charged none s (atMovePhase what phase e) h := by
  intro k hk
  rcases hc k hk with ⟨hbefore, he, hq⟩ | hbehind
  · exact .inl ⟨hbefore, by rw [atMovePhase, he], hq⟩
  · exact .inr hbehind

theorem buryExhausted_fate {shard : UInt32} {entry : Name} {p : ReadyName} (hs : Scanning h t)
    (hname : parseReady entry = .ok p) (hout : p.common.attempt ≥ p.common.maximumAttempts)
    (floor : WallFloor) :
    (buryExhausted (readyShardDir shard) entry p.common floor).Meets (recorder E) h t
      fun r h' t' => LeaseFate (sweepVerdict r) h' t' := by
  refine meets_bind.mpr (meets_attempt.mpr (Task.Meets.mono
    (moveToDead_post hs hname hout .attemptsExhausted floor) fun r h₁ t₁ hp => ?_))
  refine then_ok.mpr ?_
  split
  · exact meets_pure.mpr hp
  · exact meets_throw.mpr hp
  · exact meets_pure.mpr hp
  · -- the destination is taken: the scan stops, though storage is there
    have hs₁ : Scanning h₁ t₁ := hp
    refine meets_bind.mpr (Task.meets_remember.mpr (then_ok.mpr (meets_throw.mpr ?_)))
    exact ⟨hs₁.swept, by rw [hs₁.before.shortage]; exact charged_none _⟩
  · exact meets_throw.mpr ⟨hp.1, charged_atMovePhase hp.2⟩
  · obtain ⟨hswept, hbehind, hq⟩ := hp
    refine meets_bind.mpr (Task.meets_remember.mpr (then_ok.mpr (meets_throw.mpr ?_)))
    exact ⟨hswept, fun k hk => .inr ⟨hbehind k hk, by simp [Handle.poison, hq]⟩⟩

/-- What a step of the scan leaves behind. -/
def StepPost (r : Except Empty ScanStep) (h : Handle) (t : CallLog) : Prop :=
  ∀ step, r = .ok step → LeaseFate step.verdict h t

theorem stepPost {step : ScanStep} (hf : LeaseFate step.verdict h t) : StepPost (.ok step) h t := by
  rintro _ ⟨⟩
  exact hf

theorem abortPost {state : ScanState} {abort : ScanAbort} (hf : LeaseFate abort.verdict h t) :
    StepPost (.ok (afterAbort state abort)) h t :=
  stepPost (afterAbort_verdict state abort ▸ hf)

/-- The floor of a scan first. -/
theorem scanFloor_then {state : ScanState} {k : Except Error (WallFloor × ScanState) →
    QueueM Empty ScanStep} (hs : Scanning h t)
    (hk : ∀ floor state h' t', Scanning h' t' →
      (k (.ok (floor, state))).Meets (recorder E) h' t' StepPost)
    (herror : ∀ e h' t', LeaseFate (.refused e) h' t' →
      (k (.error e)).Meets (recorder E) h' t' StepPost) :
    (Task.attempt (scanFloor state) >>= k).Meets (recorder E) h t StepPost := by
  have hfloor : Early E claims h (Charged none) (scanFloor state) h t fun _ _ _ => True := by
    unfold scanFloor
    split
    · exact early_pure hs.before trivial
    · have hfloor := wallFloorForMutation_early (E := E) hs.before
      rw [hs.usable] at hfloor
      exact .bind hfloor fun _ _ _ hb _ _ => early_pure hb trivial
  refine hfloor.cases (fun a h' t' hb hsilent _ => hk a.1 a.2 h' t' (hs.past hb hsilent)) ?_
  intro e h' t' hsilent hc
  exact herror e h' t' ⟨by rw [hsilent.transfers]; exact hs.swept, hc⟩

theorem scanExhausted_post {shard : UInt32} {entry : Name} {p : ReadyName} (state : ScanState)
    (hs : Scanning h t) (hname : parseReady entry = .ok p)
    (hout : p.common.attempt ≥ p.common.maximumAttempts) :
    (scanExhausted (readyShardDir shard) entry p.common state).Meets (recorder E) h t
      StepPost := by
  refine scanFloor_then hs (fun floor state h₁ t₁ hs₁ => ?_)
    fun e h₁ t₁ hf => meets_pure.mpr (stepPost hf)
  refine meets_bind.mpr (meets_attempt.mpr (Task.Meets.mono
    (buryExhausted_fate hs₁ hname hout floor) fun r h₂ t₂ hf => then_ok.mpr ?_))
  cases r with
  | ok u => exact meets_pure.mpr (stepPost hf)
  | error abort => exact meets_pure.mpr (abortPost hf)

/-! ## 4. The claim -/

theorem Before.usable (hs : Scanning h t) (hb : Before claims h h' t') : h'.poisoned = none :=
  hb.alike.poisoned.trans hs.usable

/-- An entry that somebody else took, or that cannot be read now, is passed over. -/
theorem early_skip {J : α → Handle → CallLog → Prop} {abort : ScanAbort} (hs : Scanning h t)
    (hb : Before claims h h' t') (ha : abort.verdict = .lost) :
    Early E claims h Aborts (throw abort : QueueM ScanAbort α) h' t' J :=
  early_throw hb (by rw [Aborts, ha]; exact ⟨rfl, hb.usable hs⟩)

theorem claimDirectory_early (hs : Scanning h t) (deferred : Bool) (target : Target) :
    Early E claims h Aborts (claimDirectory deferred target) h t
      fun dir _ _ => dir.path = target.directory := by
  refine .attempt (ensureDirWithDirty_early hs.before deferred _) ?_ ?_
  · intro _ h₁ t₁ hb₁ _ _
    refine early_attemptLook hb₁ (openBelow_yields rootDir _ h₁) fun r t₂ _ hb₂ hr => ?_
    split
    · exact early_pure hb₂ (hr _ rfl)
    · exact early_skip hs hb₂ rfl
    · exact early_skip hs hb₂ rfl
  · intro e h₁ t₁ hs₁ hR
    refine meets_ite.mpr ⟨fun he => meets_throw.mpr ⟨hs₁, nofun, ?_⟩, fun he =>
      meets_throw.mpr ⟨hs₁, nofun, ?_⟩⟩
    · rintro _ ⟨⟩
      exact (he ▸ hs.usable ▸ hR.charged : Charged none _ _ _)
    · rintro _ ⟨⟩
      refine ⟨Option.eq_none_iff_forall_ne_some.mpr fun k hk => ?_, hR.1.trans hs.usable⟩
      exact he (IoError.exhausted_iff.mp (hR.2 k hk).2)

theorem checkClaimWitness_always (shardDir : Dir) (entry : Name) (source : ClaimSourceWitness) :
    (checkClaimWitness shardDir entry source).Always h fun r _ =>
      ∀ e, r = .error e → e.verdict = .lost ∨ ∃ error, e.verdict = .refused error := by
  refine meets_bind.mpr (meets_attempt.mpr (Task.Meets.mono
    (always_of_forall (Q := fun _ => True) fun _ => trivial) fun r _ _ _ => ?_))
  refine then_ok.mpr ?_
  split
  · exact meets_pure.mpr nofun
  · exact meets_throw.mpr (by rintro _ ⟨⟩; exact .inl rfl)
  · exact meets_throw.mpr (by rintro _ ⟨⟩; exact .inr ⟨_, rfl⟩)
  · exact meets_throw.mpr (by rintro _ ⟨⟩; exact .inl rfl)

theorem checkClaimWitness_early (hs : Scanning h t) (shardDir : Dir) (entry : Name)
    (source : ClaimSourceWitness) :
    Early E claims h Aborts (looking (checkClaimWitness shardDir entry source)) h t
      fun _ h' _ => h' = h := by
  refine Task.Meets.mono (looking_looked (checkClaimWitness_always shardDir entry source)) ?_
  rintro r h' t' ⟨rfl, hl, hr⟩
  refine ⟨hl.silent, fun _ _ => ⟨hs.before.looked hl, rfl⟩, fun e he => ?_⟩
  rw [hl.shortage, hs.before.shortage]
  rcases hr e he with hv | ⟨error, hv⟩
  · rw [Aborts, hv]
    exact ⟨rfl, hs.usable⟩
  · rw [Aborts, hv]
    exact charged_none error

theorem claim_ofExcept {ε : Type} {x : Except ε α} {f : ε → ScanAbort}
    {k : α → QueueM ScanAbort LeaseInfo} (hs : Scanning h t) (hf : ∀ e, (f e).verdict = .lost)
    (hk : ∀ a, x = .ok a → (k a).Meets (recorder E) h t
      fun r h' t' => LeaseFate (claimVerdict r) h' t') :
    (Task.ofExcept (x.mapError f) >>= k).Meets (recorder E) h t
      fun r h' t' => LeaseFate (claimVerdict r) h' t' := by
  cases x with
  | ok a => exact hk a rfl
  | error e =>
    show LeaseFate (f e).verdict h t
    rw [hf e]
    exact hs

theorem claim_ofOption {o : Option α} {k : α → QueueM ScanAbort LeaseInfo} (hs : Scanning h t)
    (hk : ∀ a, o = some a → (k a).Meets (recorder E) h t
      fun r h' t' => LeaseFate (claimVerdict r) h' t') :
    (Task.ofOption o .skip >>= k).Meets (recorder E) h t
      fun r h' t' => LeaseFate (claimVerdict r) h' t' := by
  cases o with
  | none => exact hs
  | some a => exact hk a rfl

theorem After.claimed {x : Transfer} (ha : After claims t x t') (hs : Scanning h t)
    (hx : claims x = true) : Claimed t' := ⟨x, _, ha.transfers, hx, hs.swept⟩

theorem After.unknown {x : Transfer} {h₀ : Handle} (ha : After claims t x t') (hs : Scanning h₀ t)
    (hx : claims x = true) (hl : Alike h₀ h) :
    LeaseFate .unknown (h.poison .postLinearizationStateUnknown) t' :=
  ⟨ha.claimed hs hx, ha.shortage, warned_poison hl hs.usable⟩

theorem validateClaimedObject_always {ε : Type} (file : Ino) (size : Nat) (common : CommonFields) :
    (validateClaimedObject file size common : LookM ε _).Always h fun r _ => ∀ e, r ≠ .error e := by
  refine meets_bind.mpr (meets_memory.mpr (then_ok.mpr ?_))
  refine meets_bind.mpr (meets_attempt.mpr (Task.Meets.mono
    (always_of_forall (Q := fun _ => True) fun _ => trivial) fun r _ _ _ => ?_))
  refine then_ok.mpr ?_
  split <;> exact meets_pure.mpr nofun

variable (hE : ∀ u l r, E u (.look l) r → Sound contents l r)

include hE

theorem claimSource_early {shardDir : Dir} {shard : UInt32} {entry : Name} {p : ReadyName}
    (hs : Scanning h t) (hdir : shardDir.path = readyShardDir shard)
    (hname : parseReady entry = .ok p) :
    Early E claims h Aborts (claimSource shardDir entry p.common) h t fun source h' _ =>
      h' = h ∧ ∃ data header, contents source.file = some data ∧ JobBytes header data := by
  refine meets_bind.mpr (meets_attempt.mpr (Task.Meets.mono
    (looking_trusted hE (openClaimSource_sound hdir hname h)) ?_))
  rintro r h₁ t₁ ⟨rfl, hl, hnot, hsource⟩
  have hb₁ := hs.before.looked hl
  refine then_ok.mpr (Early.after hl.silent ?_)
  split
  · exact early_pure hb₁ ⟨rfl, hsource _ rfl⟩
  · exact early_skip hs hb₁ rfl
  · exact early_skip hs hb₁ rfl
  · exact absurd rfl (hnot _)
  · exact early_throw hb₁ (charged_none _)

/-- Behind the claim, a well-formed object is delivered, or the outcome is unknown. -/
theorem deliverClaim_fate {x : Transfer} {h₀ : Handle} {t₀ : CallLog} {file : Ino} {data : Bytes}
    {header : FixedHeader} (hs : Scanning h₀ t₀) (hx : claims x = true)
    (hb : Behind claims h₀ t₀ x h t) (hdata : contents file = some data)
    (hjob : JobBytes header data) (ticket : TransitionTicket) (leasedDir : Dir) (target : Target)
    (moved : MovedObject) (source leased : CommonFields) (token : Octets 16)
    (boottimeDeadline wallDeadline : UInt64) :
    (deliverClaim ticket leasedDir target file moved source leased token boottimeDeadline
      wallDeadline).Meets (recorder E) h t fun r h' t' => LeaseFate (claimVerdict r) h' t' := by
  refine meets_bind.mpr (Task.Meets.mono
    (looking_looked (validateClaimedObject_always file moved.size source)) ?_)
  rintro r h₁ t₁ ⟨rfl, hl₁, hr⟩
  have hb₁ := hb.looked hl₁
  refine then_intro (fun e he => absurd he (hr e)) fun found hfound => ?_
  cases found with
  | none => exact After.unknown hb₁.toAfter hs hx hb₁.alike
  | some found =>
    refine meets_bind.mpr (meets_attempt.mpr (Task.Meets.mono
      (looking_trusted hE (verifyPayloadOnFd_sound hdata hjob h₁)) ?_))
    rintro r h₂ t₂ ⟨rfl, hl₂, hr⟩
    have hb₂ := hb₁.looked hl₂
    refine then_ok.mpr ?_
    split
    · exact absurd rfl hr
    · exact After.unknown hb₂.toAfter hs hx hb₂.alike
    · exact meets_bind.mpr (meets_memory.mpr (then_ok.mpr (meets_pure.mpr
        ⟨hb₂.toAfter.claimed hs hx, hb₂.fine⟩)))

theorem claimCandidate_fate {shardDir : Dir} {shard : UInt32} {entry : Name} {p : ReadyName}
    (hs : Scanning h t) (hdir : shardDir.path = readyShardDir shard)
    (hname : parseReady entry = .ok p) (deferred : Bool) (durationNs boottime : UInt64)
    (floor : WallFloor) :
    (claimCandidate deferred durationNs shardDir entry p.common boottime floor).Meets (recorder E)
      h t fun r h' t' => LeaseFate (claimVerdict r) h' t' := by
  refine Early.claim hs ((random128bit_early hs.before).mapErr
    fun s e h' (hR : Spent h.poisoned s e h') => (hs.usable ▸ hR.charged : Charged none _ _ _)) ?_
  rintro token h₁ t₁ hs₁ -
  refine claim_ofOption hs₁ fun boottimeDeadline _ => claim_ofOption hs₁ fun wallDeadline _ => ?_
  refine claim_ofExcept hs₁ (fun _ => rfl) fun leased _ => ?_
  refine meets_bind.mpr (meets_memory.mpr (then_ok.mpr ?_))
  refine claim_ofExcept hs₁ (fun _ => rfl) fun target htarget => ?_
  have htarget : (Landing.leased h₁.bootId boottimeDeadline wallDeadline token).target h₁.format
      leased = some target := by
    rw [Landing.target, ← layout_leasedForBoot rfl, htarget]
    rfl
  obtain ⟨shard', hready⟩ := leased_directory htarget
  refine Early.claim hs₁ (claimDirectory_early hs₁ deferred target) fun leasedDir h₂ t₂ hs₂ hland => ?_
  refine Early.claim hs₂ (claimSource_early hE hs₂ hdir hname) ?_
  rintro source h₃ t₃ hs₃ ⟨-, data, header, hdata, hjob⟩
  refine Early.claim hs₃ (.mapErr (S := Charged none) (early_look hs₃.before Task.yields_any
    fun _ => charged_none _) fun s e h hR => hR) ?_
  rintro ticket h₄ t₄ hs₄ -
  refine Early.claim hs₄ (checkClaimWitness_early hs₄ shardDir entry source) ?_
  rintro _ h₅ t₅ hs₅ -
  refine meets_bind.mpr (meets_attempt.mpr (Task.Meets.mono (.and
    (moveWitnessed_fate hs₅.before deferred shardDir entry leasedDir target.filename _ _)
    (moveWitnessed_resumes hs₅.before deferred shardDir entry leasedDir target.filename _ _)) ?_))
  rintro r h₆ t₆ ⟨hf, hresumes⟩
  have hx : claims (.rename shardDir.path entry leasedDir.path target.filename) = true := by
    rw [hland, hready]
    exact (by decide : decide (some State.ready.dirName = some State.ready.dirName) = true)
  refine then_ok.mpr ?_
  split
  · exact meets_throw.mpr (hs₅.past hf.2 hf.1)
  · exact meets_throw.mpr (hs₅.past hf.2 hf.1)
  · obtain ⟨_, rfl, ha, hl⟩ := hf
    exact After.unknown ha hs₅ hx hl
  · rename_i e
    refine meets_ite.mpr ⟨fun he => meets_throw.mpr ?_, fun he => meets_throw.mpr ?_⟩
    · exact ⟨by rw [hf.1.transfers]; exact hs₅.swept, he ▸ hs₅.usable ▸ hf.2⟩
    · refine hs₅.past (hresumes _ _ rfl ?_) hf.1
      exact Bool.eq_false_iff.mpr fun hex => he (IoError.exhausted_iff.mp hex)
  · obtain ⟨_, rfl, hb₆⟩ := hf
    have hdeliver {h' : Handle} {t' : CallLog}
        (hb : Behind claims h₅ t₅ (.rename shardDir.path entry leasedDir.path target.filename) h' t')
        (ticket : TransitionTicket) (moved : MovedObject) :=
      deliverClaim_fate hE hs₅ hx hb hdata hjob ticket leasedDir target moved p.common leased token
        boottimeDeadline wallDeadline
    refine meets_ite.mpr ⟨fun _ => ?_, fun _ => hdeliver hb₆ _ _⟩
    refine meets_bind.mpr (meets_attempt.mpr (Task.Meets.mono
      (late_recordBoth hb₆ shardDir leasedDir) ?_))
    rintro r h₇ t₇ ⟨ha, hl, hok, -⟩
    refine then_ok.mpr ?_
    split
    · exact hdeliver ⟨ha, (hok _ rfl).1, hl⟩ _ _
    · exact After.unknown ha hs₅ hx hl

/-! ## 5. The scan -/

theorem scanClaim_post {shardDir : Dir} {shard : UInt32} {entry : Name} {p : ReadyName}
    (deferred : Bool) (durationNs : UInt64) (state : ScanState) (hs : Scanning h t)
    (hdir : shardDir.path = readyShardDir shard) (hname : parseReady entry = .ok p) :
    (scanClaim deferred durationNs shardDir entry p.common state).Meets (recorder E) h t
      StepPost := by
  refine meets_bind.mpr (meets_attempt.mpr (Task.Meets.mono
    (looking_looked (always_of_forall (Q := fun _ => True) fun _ => trivial)) ?_))
  rintro r h₁ t₁ ⟨rfl, hl, -⟩
  have hs₁ := hs.looked hl
  refine then_ok.mpr ?_
  cases r with
  | error e => exact meets_pure.mpr (stepPost (hs₁.refused _))
  | ok boottime =>
    refine scanFloor_then hs₁ (fun floor state h₂ t₂ hs₂ => ?_)
      fun e h₂ t₂ hf => meets_pure.mpr (stepPost hf)
    refine meets_bind.mpr (meets_attempt.mpr (Task.Meets.mono
      (claimCandidate_fate hE hs₂ hdir hname deferred durationNs boottime floor)
      fun r h₃ t₃ hf => then_ok.mpr ?_))
    cases r with
    | ok info => exact meets_pure.mpr (stepPost hf)
    | error abort => exact meets_pure.mpr (abortPost hf)

theorem scanEntry_post {shardDir : Dir} {shard : UInt32} (deferred : Bool) (durationNs : UInt64)
    (entry : Name) (state : ScanState) (hs : Scanning h t)
    (hdir : shardDir.path = readyShardDir shard) :
    (scanEntry deferred durationNs shard shardDir entry state).Meets (recorder E) h t
      StepPost := by
  refine meets_bind.mpr (meets_memory.mpr (then_ok.mpr ?_))
  split
  · exact meets_pure.mpr (stepPost hs)
  · exact meets_pure.mpr (stepPost hs)
  · rename_i common hc
    obtain ⟨p, hname, rfl⟩ := classifyCandidate_job hc
    exact meets_ite.mpr ⟨fun hout => scanExhausted_post state hs hname hout,
      fun _ => scanClaim_post hE deferred durationNs state hs hdir hname⟩

theorem scanEntries_post {shardDir : Dir} {shard : UInt32} (deferred : Bool) (durationNs : UInt64)
    (hdir : shardDir.path = readyShardDir shard) (entries position : Nat) (state : ScanState)
    (hs : Scanning h t) :
    (scanEntries deferred durationNs shard shardDir entries position state).Meets (recorder E) h t
      StepPost := by
  induction entries generalizing position state h t with
  | zero => exact meets_pure.mpr (stepPost hs)
  | succ entries ih =>
    refine meets_bind.mpr (meets_attempt.mpr (Task.Meets.mono
      (looking_looked (always_of_forall (Q := fun _ => True) fun _ => trivial)) ?_))
    rintro r h₁ t₁ ⟨rfl, hl, -⟩
    have hs₁ := hs.looked hl
    refine then_ok.mpr ?_
    split
    · exact meets_pure.mpr (stepPost hs₁)
    · exact meets_pure.mpr (stepPost hs₁)
    · refine meets_bind.mpr (Task.Meets.mono
        (scanEntry_post hE deferred durationNs _ state hs₁ hdir) fun r h₂ t₂ hp => ?_)
      refine then_intro (fun e _ => nomatch e) fun step hstep => ?_
      have hf := hp step hstep
      cases step with
      | done outcome => exact meets_pure.mpr (stepPost hf)
      | go state => exact ih _ _ hf

theorem scanShard_post (deferred : Bool) (durationNs : UInt64) (entries : Nat) (shard : UInt32)
    (state : ScanState) (hs : Scanning h t) :
    (scanShard deferred durationNs entries shard state).Meets (recorder E) h t StepPost := by
  refine meets_bind.mpr (meets_attempt.mpr (Task.Meets.mono
    (looking_looked (openBelow_yields rootDir (readyShardDir shard) h)) ?_))
  rintro r h₁ t₁ ⟨rfl, hl, hr⟩
  have hs₁ := hs.looked hl
  refine then_ok.mpr ?_
  cases r with
  | error e => exact meets_pure.mpr (stepPost hs₁)
  | ok shardDir => exact scanEntries_post hE deferred durationNs (hr shardDir rfl) entries 0 state hs₁

/-- What the outcome of a lease says. -/
def LeaseTold (r : Except Empty LeaseOutcome) (h : Handle) (t : CallLog) : Prop :=
  ∀ outcome, r = .ok outcome → LeaseFate outcome.verdict h t

omit hE in
theorem leaseTold {outcome : LeaseOutcome} (hf : LeaseFate outcome.verdict h t) :
    LeaseTold (.ok outcome) h t := by
  rintro _ ⟨⟩
  exact hf

theorem scanShards_told (deferred : Bool) (durationNs : UInt64) (entries : Nat)
    (shards : List UInt32) (state : ScanState) (hs : Scanning h t) :
    (scanShards deferred durationNs entries shards state).Meets (recorder E) h t LeaseTold := by
  induction shards generalizing state h t with
  | nil =>
    exact meets_ite.mpr ⟨fun _ => meets_pure.mpr (leaseTold (hs.refused _)),
      fun _ => meets_pure.mpr (leaseTold hs)⟩
  | cons shard rest ih =>
    refine meets_bind.mpr (Task.Meets.mono
      (scanShard_post hE deferred durationNs entries shard state hs) fun r h₁ t₁ hp => ?_)
    refine then_intro (fun e _ => nomatch e) fun step hstep => ?_
    have hf := hp step hstep
    cases step with
    | done outcome => exact meets_pure.mpr (leaseTold hf)
    | go state => exact ih _ hf

/-- Where a round of a waiting lease may start: the one before gave up on nothing but a lock. -/
def Pending (h : Handle) (t : CallLog) : Prop := LeaseFate (.refused .maintenanceBusy) h t

omit hE in
theorem Pending.scanning (hp : Pending h t) (hq : h.poisoned = none) : Scanning h t := by
  have hfine : shortage claims t = none := by
    refine Option.eq_none_iff_forall_ne_some.mpr fun k hk => ?_
    rcases hp.2 k hk with ⟨-, he, -⟩ | ⟨-, hp⟩
    · cases he
    · rw [hq] at hp
      cases hp
  refine ⟨⟨hfine, ?_, .refl h⟩, hq, hp.1⟩
  exact List.any_eq_false.mpr fun x hx => by rw [(hp.1 x hx).not_claims]; exact Bool.false_ne_true

theorem leaseOnceWithDirty_told (deferred : Bool) (durationNs : UInt64) (entries : Nat)
    (hp : Pending h t) :
    (leaseOnceWithDirty deferred durationNs entries).Meets (recorder E) h t LeaseTold := by
  refine meets_bind.mpr (meets_attempt.mpr (Task.Meets.mono (looking_looked
    (Q := fun r => h.poisoned = none ∨ ∃ e, r = .error e) ?_) ?_))
  · refine meets_bind.mpr (meets_memory.mpr (then_ok.mpr ?_))
    split
    · exact meets_throw.mpr (.inr ⟨_, rfl⟩)
    · rename_i hq
      exact meets_pure.mpr (.inl hq)
  rintro r h₁ t₁ ⟨rfl, hl, hr⟩
  refine then_ok.mpr ?_
  cases r with
  | error e =>
    refine meets_pure.mpr (leaseTold ⟨by rw [hl.silent.transfers]; exact hp.1, ?_⟩)
    intro k hk
    rcases hp.2 k (hl.shortage ▸ hk) with ⟨-, hbusy, -⟩ | hbehind
    · cases hbusy
    · exact .inr hbehind
  | ok u =>
    obtain hq | ⟨e, he⟩ := hr
    · have hs := (hp.scanning hq).looked hl
      refine meets_ite.mpr ⟨fun _ => meets_pure.mpr (leaseTold (hs.refused _)),
        fun _ => ?_⟩
      refine meets_bind.mpr (meets_memory.mpr (then_ok.mpr ?_))
      refine meets_bind.mpr (Task.meets_remember.mpr (then_ok.mpr ?_))
      exact scanShards_told hE deferred durationNs entries _ _ (hs.resume (.refl t₁)
        hs.before.shortage hs.usable)
    · cases he

/-- **The outcome of a lease tells whether an object was claimed, and a shortage in front of the
    claim is reported as such.** -/
theorem lease_told (deferred : Bool) (durationNs : UInt64) (entries rounds : Nat)
    (hp : Pending h t) :
    (lease deferred durationNs entries rounds).Meets (recorder E) h t LeaseTold := by
  induction rounds generalizing h t with
  | zero => exact leaseOnceWithDirty_told hE deferred durationNs entries hp
  | succ rounds ih =>
    refine meets_bind.mpr (Task.Meets.mono
      (leaseOnceWithDirty_told hE deferred durationNs entries hp) fun r h₁ t₁ hr => ?_)
    refine then_intro (fun e _ => nomatch e) fun outcome ho => ?_
    have hf := hr outcome ho
    refine meets_ite.mpr ⟨fun hretry => ih ?_, fun _ => meets_pure.mpr (leaseTold hf)⟩
    unfold LeaseOutcome.retryable at hretry
    split at hretry
    · exact Scanning.refused hf _
    · exact hf
    · cases hretry

end Scan

end SteadQ
