/-
  File:      SteadQ/Outcome/Engine.lean
  Subject:   HOW THE ENGINE REPORTS: what a move or a publication did, given its outcome.
-/
import SteadQ.Outcome.Early

namespace SteadQ

open Octet Interact
open Interact.Task (meets_attempt meets_bind meets_call meets_mapErr meets_pure meets_throw
  then_intro then_ok)

/-! ## 1. Verdicts -/

inductive Verdict where
  | done
  | unknown
  | refused (error : Error)
  | lost
  deriving DecidableEq

/-- What a verdict says of an operation that had record `t` before: the transfer satisfies `X`,
    and the handle `U` when the outcome is unknown. -/
def Fate (own : Transfer → Bool) (q : Handle) (t : CallLog) (X : CallLog → Transfer → Prop)
    (U : Handle → Prop) (v : Verdict) (h' : Handle) (t' : CallLog) : Prop :=
  match v with
  | .done => ∃ x, X t' x ∧ Behind own q t x h' t'
  | .unknown => ∃ x, X t' x ∧ After own t x t' ∧ U h'
  | .refused e => Silent t t' ∧ Charged q.poisoned (shortage own t') e h'
  | .lost => Silent t t' ∧ Before own q h' t'

section Fate

variable {ε ε' α β : Type} {E : CallLog → (a : Act) → a.Resp → Prop} {own : Transfer → Bool}
  {q h h' : Handle} {t t' t₁ : CallLog} {x : Transfer} {X : CallLog → Transfer → Prop}
  {U : Handle → Prop} {v : Verdict}

theorem After.rebase (hs : Silent t t₁) (ha : After own t₁ x t') : After own t x t' :=
  ⟨hs.past.trans ha.past, hs.transfers ▸ ha.transfers, ha.made, ha.shortage⟩

theorem Behind.rebase (hs : Silent t t₁) (hb : Behind own q t₁ x h t') : Behind own q t x h t' :=
  ⟨hb.toAfter.rebase hs, hb.fine, hb.alike⟩

theorem Fate.rebase (hs : Silent t t₁) (hf : Fate own q t₁ X U v h' t') :
    Fate own q t X U v h' t' := by
  cases v with
  | done =>
    obtain ⟨x, hx, hb⟩ := hf
    exact ⟨x, hx, hb.rebase hs⟩
  | unknown =>
    obtain ⟨x, hx, ha, hu⟩ := hf
    exact ⟨x, hx, ha.rebase hs, hu⟩
  | refused e => exact ⟨hs.trans hf.1, hf.2⟩
  | lost => exact ⟨hs.trans hf.1, hf.2⟩

theorem Fate.mono {X' : CallLog → Transfer → Prop} {U' : Handle → Prop}
    (hX : ∀ t' x, t <:+ t' → X t' x → X' t' x) (hU : ∀ h, U h → U' h)
    (hf : Fate own q t X U v h' t') : Fate own q t X' U' v h' t' := by
  cases v with
  | done =>
    obtain ⟨x, hx, hb⟩ := hf
    exact ⟨x, hX _ _ hb.past hx, hb⟩
  | unknown =>
    obtain ⟨x, hx, ha, hu⟩ := hf
    exact ⟨x, hX _ _ ha.past hx, ha, hU _ hu⟩
  | refused e => exact hf
  | lost => exact hf

/-- The operation was refused before storage ran out. -/
theorem Before.refused (hb : Before own q h t) (e : Error) : Fate own q t X U (.refused e) h t :=
  ⟨.refl t, by rw [hb.shortage]; exact charged_none e⟩

/-- What was lost to another actor can be refused with any error. -/
theorem Fate.refuse (hf : Fate own q t X U .lost h' t') (e : Error) :
    Fate own q t X U (.refused e) h' t' :=
  ⟨hf.1, by rw [hf.2.shortage]; exact charged_none e⟩

theorem Before.lost (hb : Before own q h t) : Fate own q t X U .lost h t := ⟨.refl t, hb⟩

/-- A failure is a refusal, with an error that reports the shortage. -/
def Refuses (p : Option PoisonReason) (verdict : ε → Verdict) (s : Option Shortage) (e : ε)
    (h : Handle) : Prop :=
  ∃ error, verdict e = .refused error ∧ Charged p s error h

/-- Early code first: its failures are refusals. -/
theorem Early.fate {J : α → Handle → CallLog → Prop} {m : QueueM ε α} {k : α → QueueM ε β}
    {verdict : Except ε β → Verdict}
    (hm : Early E own q (Refuses q.poisoned fun e => verdict (.error e)) m h t J)
    (hk : ∀ a h' t', Before own q h' t' → Silent t t' → J a h' t' →
      (k a).Meets (recorder E) h' t' fun r h' t'' => Fate own q t' X U (verdict r) h' t'') :
    (m >>= k).Meets (recorder E) h t fun r h' t' => Fate own q t X U (verdict r) h' t' := by
  refine meets_bind.mpr (Task.Meets.mono hm fun r h' t' hp => ?_)
  refine then_intro (fun e he => ?_) fun a ha => ?_
  · obtain ⟨error, hv, hc⟩ := hp.error e he
    have hv : verdict (.error e) = .refused error := hv
    rw [hv]
    exact ⟨hp.silent, hc⟩
  · obtain ⟨hb, hj⟩ := hp.ok a ha
    exact Task.Meets.mono (hk a h' t' hb hp.silent hj) fun _ _ _ hf => hf.rebase hp.silent

end Fate

/-- The handle was poisoned by an operation that lost track of its transfer. -/
def Warned (h : Handle) : Prop := h.poisoned = some .postLinearizationStateUnknown

theorem warned_poison {q h : Handle} (ha : Alike q h) (hq : q.poisoned = none) :
    Warned (h.poison .postLinearizationStateUnknown) := by
  rw [Warned, Handle.poison, ha.poisoned, hq]
  rfl

/-- What the outcome of a whole operation says. -/
def Told {ρ : Type} (own : Transfer → Bool) (q : Handle) (t : CallLog)
    (X : ρ → CallLog → Transfer → Prop) (verdict : ρ → Verdict) (r : Except Empty ρ) (h' : Handle)
    (t' : CallLog) : Prop :=
  ∀ o, r = .ok o → Fate own q t (X o) Warned (verdict o) h' t'

theorem told_ok {ρ : Type} {own : Transfer → Bool} {q h' : Handle} {t t' : CallLog}
    {X : ρ → CallLog → Transfer → Prop} {verdict : ρ → Verdict} {o : ρ}
    (hf : Fate own q t (X o) Warned (verdict o) h' t') : Told own q t X verdict (.ok o) h' t' := by
  rintro _ ⟨⟩
  exact hf

/-! ## 2. Moves -/

def MoveFailure.verdict : MoveFailure → Verdict
  | .notCommitted _ e => .refused (Error.from e)
  | .outcomeUnknown .. => .unknown
  | .alreadyExists => .lost
  | .sourceMissing => .lost

def moveVerdict : Except MoveFailure α → Verdict
  | .ok _ => .done
  | .error failure => failure.verdict

section Moves

variable {α : Type} {E : CallLog → (a : Act) → a.Resp → Prop} {own : Transfer → Bool}
  {q h : Handle} {t t₀ : CallLog} {x : Transfer}

/-- Behind the transfer every failure is an unknown outcome. -/
theorem Late.moveFate {m : QueueM MoveFailure α} {J : α → Handle → CallLog → Prop}
    {X : CallLog → Transfer → Prop} (hX : ∀ t, X t x)
    (hm : Late E own q t₀ x (fun e => e.verdict = .unknown) m h t J) :
    m.Meets (recorder E) h t fun r h' t' => Fate own q t₀ X (Alike q) (moveVerdict r) h' t' := by
  refine Task.Meets.mono hm fun r h' t' hp => ?_
  obtain ⟨ha, hl, hok, herror⟩ := hp
  cases r with
  | ok a => exact ⟨x, hX _, ha, (hok a rfl).1, hl⟩
  | error e =>
    show Fate own q t₀ X (Alike q) e.verdict h' t'
    rw [herror e rfl]
    exact ⟨x, hX _, ha, hl⟩

/-- A link or a rename that failed changes nothing; only a shortage has to be reported. -/
theorem Before.failed {a : Act} {r : a.Resp} {e : IoError} (hb : Before own q h t)
    (ht : a.transfer r = none) (hx : a.exhausted r = e.exhausted)
    (hst : SteadQ.standing own t a = .before) : Silent t (⟨a, r⟩ :: t) ∧
      Spent q.poisoned (SteadQ.shortage own (⟨a, r⟩ :: t)) e h ∧
      (e.exhausted = false → Before own q h (⟨a, r⟩ :: t)) := by
  have hs : Silent t (⟨a, r⟩ :: t) := silent_call ht
  have hfine (he : e.exhausted = false) : Before own q h (⟨a, r⟩ :: t) := hb.call ht (hx.trans he)
  refine ⟨hs, ⟨hb.alike.poisoned, fun k hk => ?_⟩, hfine⟩
  cases he : e.exhausted with
  | false =>
    rw [(hfine he).shortage] at hk
    cases hk
  | true =>
    rw [shortage_hit hb.shortage (hx.trans he)] at hk
    exact ⟨(Option.some.inj hk).symm.trans hst, rfl⟩

theorem renameClassified_fate (hb : Before own q h t) (src : Dir)
    (srcName : Name) (dst : Dir) (dstName : Name) :
    (renameClassified src srcName dst dstName).Meets (recorder E) h t fun r h' t' =>
      Fate own q t (fun _ x => x = .rename src.path srcName dst.path dstName) (Alike q)
        (moveVerdict r) h' t' := by
  refine meets_mapErr.mpr ⟨trivial, fun r _ => ?_⟩
  cases r with
  | ok u => exact ⟨_, rfl, hb.transferred rfl rfl rfl hb.alike⟩
  | error e =>
    obtain ⟨hs, hspent, hfine⟩ := hb.failed (a := .renameNoreplace src srcName dst dstName)
      (r := .error e) rfl rfl (hb.standing _)
    cases e with
    | eexist => exact ⟨hs, hfine rfl⟩
    | enoent => exact ⟨hs, hfine rfl⟩
    | _ => exact ⟨hs, hspent.charged⟩

theorem moveBarrier_late (hb : Behind own q t₀ x h t) (phase : MovePhase) (dir : Dir) :
    Late E own q t₀ x (fun e => e.verdict = .unknown) (moveBarrier phase dir) h t
      fun _ h' _ => h' = h :=
  (late_fsyncDir hb dir).mapErr fun _ _ => rfl

theorem sameDirectory_always (source destination : Dir) :
    (sameDirectory source destination).Always h fun r _ => ∀ e, r ≠ .error e := by
  refine meets_bind.mpr (meets_attempt.mpr (meets_call.mpr ⟨trivial, fun r _ => ?_⟩))
  refine then_ok.mpr (meets_bind.mpr (meets_attempt.mpr
    (meets_call.mpr ⟨trivial, fun r' _ => then_ok.mpr ?_⟩)))
  split <;> exact meets_pure.mpr nofun

theorem confirmMove_late (hb : Behind own q t₀ x h t) (deferred : Bool) (src dst : Dir)
    (dstName : Name) (identity : MoveIdentity) (after : LookM IoError α) :
    Late E own q t₀ x (fun e => e.verdict = .unknown)
      (confirmMove deferred src dst dstName identity after) h t fun _ _ _ => True := by
  refine .bind ((late_lookAny hb).mapErr fun _ _ => rfl) ?_
  rintro stat _ t₁ hb₁ rfl
  refine late_ite (fun _ => late_throw hb₁ rfl) fun _ => ?_
  refine .bind ((late_lookAny hb₁).mapErr fun _ _ => rfl) ?_
  rintro output _ t₂ hb₂ rfl
  refine late_ite (fun _ => ?_) fun _ => late_pure hb₂ trivial
  refine .bind (moveBarrier_late hb₂ .destFsync dst) ?_
  rintro _ _ t₃ hb₃ rfl
  refine .bind (late_look hb₃ ?_) ?_
  · exact Task.Meets.mono (sameDirectory_always src dst) fun r _ _ hr e he => absurd he (hr e)
  · rintro same _ t₄ hb₄ rfl
    refine late_ite (fun _ => ?_) fun _ => late_pure hb₄ trivial
    exact .bind (moveBarrier_late hb₄ .sourceFsync src) fun _ _ t₅ hb₅ _ => late_pure hb₅ trivial

/-- A rename that decides, and code behind it. -/
theorem moveFate_bind {m : QueueM MoveFailure Unit} {k : QueueM MoveFailure α}
    {X : CallLog → Transfer → Prop}
    (hm : m.Meets (recorder E) h t fun r h' t' =>
      Fate own q t (fun _ x' => x' = x) (Alike q) (moveVerdict r) h' t')
    (hX : ∀ t, X t x)
    (hk : ∀ h' t', Behind own q t x h' t' →
      Late E own q t x (fun e => e.verdict = .unknown) k h' t' fun _ _ _ => True) :
    (m >>= fun _ => k).Meets (recorder E) h t fun r h' t' =>
      Fate own q t X (Alike q) (moveVerdict r) h' t' := by
  refine meets_bind.mpr (Task.Meets.mono hm fun r h' t' hf => ?_)
  refine then_intro (fun e he => ?_) fun a ha => ?_
  · subst he
    exact hf.mono (fun _ x' _ (hx : x' = x) => hx ▸ hX _) fun _ hu => hu
  · subst ha
    obtain ⟨_, rfl, hb⟩ := hf
    exact (hk h' t' hb).moveFate hX

/-- **A move that re-reads its destination tells whether it moved.** -/
theorem moveWitnessed_fate (hb : Before own q h t) (deferred : Bool)
    (src : Dir) (srcName : Name) (dst : Dir) (dstName : Name) (identity : MoveIdentity)
    (after : LookM IoError α) :
    (moveWitnessed deferred src srcName dst dstName identity after).Meets (recorder E) h t
      fun r h' t' => Fate own q t (fun _ x => x = .rename src.path srcName dst.path dstName)
        (Alike q) (moveVerdict r) h' t' :=
  moveFate_bind (renameClassified_fate hb src srcName dst dstName) (fun _ => rfl)
    fun _ _ hb' => confirmMove_late hb' deferred src dst dstName identity after

/-- A move that was refused for another reason than storage leaves everything as it was. -/
theorem moveWitnessed_resumes (hb : Before own q h t) (deferred : Bool) (src : Dir) (srcName : Name)
    (dst : Dir) (dstName : Name) (identity : MoveIdentity) (after : LookM IoError α) :
    (moveWitnessed deferred src srcName dst dstName identity after).Meets (recorder E) h t
      fun r h' t' => ∀ phase e, r = .error (.notCommitted phase e) → e.exhausted = false →
        Before own q h' t' := by
  have hrename : (renameClassified src srcName dst dstName).Meets (recorder E) h t fun r h' t' =>
      (∀ u, r = .ok u → Behind own q t (.rename src.path srcName dst.path dstName) h' t') ∧
      ∀ phase e, r = .error (.notCommitted phase e) → e.exhausted = false → Before own q h' t' := by
    refine meets_mapErr.mpr ⟨trivial, fun r _ => ?_⟩
    cases r with
    | ok u => exact ⟨fun _ _ => hb.transferred rfl rfl rfl hb.alike, nofun⟩
    | error e =>
      refine ⟨nofun, fun phase e' he hfine => hb.call rfl ?_⟩
      cases e <;> cases he <;> exact hfine
  refine meets_bind.mpr (Task.Meets.mono hrename ?_)
  rintro r h₁ t₁ ⟨hok, hresumes⟩
  refine then_intro (fun failure hr phase e he => ?_) fun u hu => ?_
  · cases he
    exact hresumes phase e hr
  · refine Task.Meets.mono
      (confirmMove_late (hok u hu) deferred src dst dstName identity after) ?_
    rintro _ h' t' ⟨-, -, -, herror⟩ phase e rfl -
    cases herror _ rfl

/-- **So does a move without an identity check.** -/
theorem moveVerifiedNoreplace_fate (hb : Before own q h t) (src : Dir)
    (srcName : Name) (dst : Dir) (dstName : Name) :
    (moveVerifiedNoreplace src srcName dst dstName).Meets (recorder E) h t
      fun r h' t' => Fate own q t (fun _ x => x = .rename src.path srcName dst.path dstName)
        (Alike q) (moveVerdict r) h' t' := by
  refine moveFate_bind (renameClassified_fate hb src srcName dst dstName) (fun _ => rfl) ?_
  intro h' t' hb'
  refine .bind (moveBarrier_late hb' .destFsync dst) ?_
  rintro _ _ t₂ hb₂ rfl
  exact (moveBarrier_late hb₂ .sourceFsync src).mono fun _ _ _ _ => trivial

end Moves

/-! ## 3. Publication of an unnamed file -/

def TmpfilePublishFailure.verdict : TmpfilePublishFailure → Verdict
  | .notCommitted _ e => .refused (Error.from e)
  | .outcomeUnknown .. => .unknown
  | .alreadyExists => .lost

def linkVerdict : Except TmpfilePublishFailure LinkStrategyAttempt → Verdict
  | .ok (.published _) => .done
  | .ok _ => .lost
  | .error failure => failure.verdict

def linkedVerdict : Except TmpfilePublishFailure (Option PublicationMode) → Verdict
  | .ok (some _) => .done
  | .ok none => .lost
  | .error failure => failure.verdict

def publishVerdict : Except TmpfilePublishFailure TmpfilePublishOutcome → Verdict
  | .ok (.published _) => .done
  | .ok .unsupported => .lost
  | .error failure => failure.verdict

section Publication

variable {E : CallLog → (a : Act) → a.Resp → Prop} {own : Transfer → Bool} {q h : Handle}
  {t : CallLog} (hb : Before own q h t)

include hb

theorem tryDirectTmpfileLink_fate (file : Ino) (dst : Dir) (name : Name) :
    (tryDirectTmpfileLink file dst name).Meets (recorder E) h t fun r h' t' =>
      Fate own q t (fun _ x => x = .link file dst.path name) (Alike q) (linkVerdict r) h' t' := by
  refine meets_bind.mpr (meets_attempt.mpr (meets_call.mpr ⟨trivial, fun r _ => ?_⟩))
  refine then_ok.mpr ?_
  cases r with
  | ok u => exact meets_pure.mpr ⟨_, rfl, hb.transferred rfl rfl rfl hb.alike⟩
  | error e =>
    obtain ⟨hs, hspent, hfine⟩ := hb.failed (a := .linkat .directAtEmptyPath file dst name)
      (r := .error e) rfl rfl (hb.standing _)
    cases e with
    | eexist => exact meets_throw.mpr ⟨hs, hfine rfl⟩
    | enosys => exact meets_pure.mpr ⟨hs, hfine rfl⟩
    | einval => exact meets_pure.mpr ⟨hs, hfine rfl⟩
    | enoent => exact meets_pure.mpr ⟨hs, hfine rfl⟩
    | eopnotsupp => exact meets_pure.mpr ⟨hs, hfine rfl⟩
    | _ => exact meets_throw.mpr ⟨hs, hspent.charged⟩

theorem tryProcTmpfileLink_fate (file : Ino) (dst : Dir) (name : Name) :
    (tryProcTmpfileLink file dst name).Meets (recorder E) h t fun r h' t' =>
      Fate own q t (fun _ x => x = .link file dst.path name) (Alike q) (linkVerdict r) h' t' := by
  refine meets_bind.mpr (meets_attempt.mpr (meets_call.mpr ⟨trivial, fun r _ => ?_⟩))
  refine then_ok.mpr ?_
  cases r with
  | ok u => exact meets_pure.mpr ⟨_, rfl, hb.transferred rfl rfl rfl hb.alike⟩
  | error e =>
    obtain ⟨hs, hspent, hfine⟩ := hb.failed (a := .linkat .procSelfFd file dst name)
      (r := .error e) rfl rfl (hb.standing _)
    cases e with
    | eexist => exact meets_throw.mpr ⟨hs, hfine rfl⟩
    | enoent =>
      have hb₁ := hfine rfl
      refine Task.Meets.mono (Early.fate ((looking_early hb₁ Task.yields_any).mapErr
        fun s e h hR => ⟨_, rfl, hR.charged⟩) ?_) fun _ _ _ hf => hf.rebase hs
      rintro destination _ t₂ hb₂ - -
      refine Task.meets_ite.mpr ⟨fun _ => meets_throw.mpr (hb₂.refused _),
        fun _ => meets_pure.mpr hb₂.lost⟩
    | einval => exact meets_pure.mpr ⟨hs, hfine rfl⟩
    | enosys => exact meets_pure.mpr ⟨hs, hfine rfl⟩
    | eopnotsupp => exact meets_pure.mpr ⟨hs, hfine rfl⟩
    | _ => exact meets_throw.mpr ⟨hs, hspent.charged⟩

theorem tryTmpfileLink_fate (viaProc : Bool) (file : Ino) (dst : Dir) (name : Name) :
    (tryTmpfileLink viaProc file dst name).Meets (recorder E) h t fun r h' t' =>
      Fate own q t (fun _ x => x = .link file dst.path name) (Alike q) (linkVerdict r) h' t' := by
  unfold tryTmpfileLink
  split
  · exact tryProcTmpfileLink_fate hb file dst name
  · exact tryDirectTmpfileLink_fate hb file dst name

theorem linkTmpfileNoreplace_fate (file : Ino) (dst : Dir) (name : Name)
    (preferred : Option PublicationMode) :
    (linkTmpfileNoreplace file dst name preferred).Meets (recorder E) h t fun r h' t' =>
      Fate own q t (fun _ x => x = .link file dst.path name) (Alike q) (linkedVerdict r) h' t' := by
  refine meets_bind.mpr (Task.Meets.mono (tryTmpfileLink_fate hb _ file dst name) ?_)
  intro r h₁ t₁ hf
  refine then_intro (fun e he => by subst he; exact hf) fun attempt ha => ?_
  subst ha
  cases attempt with
  | published mode => exact meets_pure.mpr hf
  | unsupported => exact meets_pure.mpr hf
  | tryNext =>
    obtain ⟨hs₁, hb₁⟩ := hf
    refine meets_bind.mpr (Task.Meets.mono (tryTmpfileLink_fate hb₁ _ file dst name) ?_)
    intro r h₂ t₂ hf
    have hf := hf.rebase hs₁
    refine then_intro (fun e he => by subst he; exact hf) fun attempt ha => ?_
    subst ha
    cases attempt <;> exact meets_pure.mpr hf

/-- **The publication of an unnamed file tells whether it was linked.** -/
theorem publishTmpfile_fate (file : Ino) (dst : Dir) (name : Name)
    (preferred : Option PublicationMode) (sync : Bool) :
    (publishTmpfileNoreplaceImpl file dst name preferred sync).Meets (recorder E) h t
      fun r h' t' => Fate own q t (fun _ x => x = .link file dst.path name) (Alike q)
        (publishVerdict r) h' t' := by
  refine Early.fate ((looking_early hb Task.yields_any).mapErr
    fun s e h hR => ⟨_, rfl, hR.charged⟩) ?_
  rintro stat _ t₁ hb₁ - -
  refine Early.fate (J := fun _ _ _ => True) (.mapErr (S := Spent q.poisoned) ?_
    fun s e h hR => ⟨_, rfl, hR.charged⟩) ?_
  · cases unnamedFileIdentity stat with
    | error e => exact early_throw hb₁ (spent_none hb₁ e)
    | ok identity => exact early_pure hb₁ trivial
  rintro identity _ t₂ hb₂ - -
  refine Early.fate ((fsync_early hb₂ file).mapErr fun s e h hR => ⟨_, rfl, hR.charged⟩) ?_
  rintro _ _ t₃ hb₃ - -
  refine meets_bind.mpr (Task.Meets.mono
    (linkTmpfileNoreplace_fate hb₃ file dst name preferred) fun r h₄ t₄ hf => ?_)
  refine then_intro (fun e he => by subst he; exact hf) fun mode hmode => ?_
  subst hmode
  cases mode with
  | none => exact meets_pure.mpr hf
  | some mode =>
    obtain ⟨x, rfl, hb₄⟩ := hf
    refine Task.meets_ite.mpr ⟨fun _ => ?_, fun _ => meets_pure.mpr ⟨_, rfl, hb₄⟩⟩
    refine meets_bind.mpr (meets_mapErr.mpr (Task.Meets.mono (late_fsyncDir hb₄ dst) ?_))
    rintro r h₅ t₅ ⟨ha, hl, hok, -⟩
    cases r with
    | error e => exact ⟨_, rfl, ha, hl⟩
    | ok u => exact then_ok.mpr (meets_pure.mpr ⟨_, rfl, ha, (hok u rfl).1, hl⟩)

end Publication

end SteadQ
