/-
  File:      SteadQ/Outcome/Publish.lean
  Subject:   WHAT AN ENQUEUE DID, given its outcome: buffered and streaming publication in its
             three modes.
-/
import SteadQ.Law.Publish
import SteadQ.Outcome.Engine

namespace SteadQ

open Octet Interact
open Interact.Task (meets_attempt meets_bind meets_ite meets_mapErr meets_memory meets_pure
  meets_remember meets_throw then_ok yields_any)

/-! ## 1. Named files -/

def PublishError.verdict : PublishError → Verdict
  | .notCommitted e => .refused e
  | .outcomeUnknown _ => .unknown
  | .outcomeUnknownPublished .. => .unknown

def publishedVerdict : Except PublishError α → Verdict
  | .ok _ => .done
  | .error e => e.verdict

/-- The transfer of a publication at `dst`, and the file it made it from. -/
def Published (dst : Path) (dstName : Name) (t : CallLog) (x : Transfer) : Prop :=
  (∃ d i, (⟨.openTmpfile d, .ok i⟩ : Σ a : Act, a.Resp) ∈ t ∧ x = .link i dst dstName) ∨
    ∃ d n i, (⟨.createExclusive d n, .ok i⟩ : Σ a : Act, a.Resp) ∈ t ∧
      d.path.head? = some tmpRoot ∧ x = .rename d.path n dst dstName

section Publish

variable {α : Type} {E : CallLog → (a : Act) → a.Resp → Prop} {own : Transfer → Bool}
  {q h : Handle} {t : CallLog}

theorem Spent.refuses {p : Option PoisonReason} {s : Option Shortage} {e : IoError}
    (hs : Spent p s e h) : Refuses p PublishError.verdict s (.before e) h := ⟨_, rfl, hs.charged⟩

theorem Early.before {m : QueueM IoError α} {J : α → Handle → CallLog → Prop}
    (hm : Early E own q (Spent q.poisoned) m h t J) :
    Early E own q (Refuses q.poisoned PublishError.verdict) (Task.mapErr .before m) h t J :=
  hm.mapErr fun _ _ _ => Spent.refuses

theorem charged_atPhase {s : Option Shortage} {e : IoError} (phase : TmpfilePublishPhase)
    (hc : Charged q.poisoned s (Error.from e) h) : Charged q.poisoned s (PublishError.atPhase phase e) h := by
  intro k hk
  rcases hc k hk with ⟨hb, he, hp⟩ | hb
  · exact .inl ⟨hb, by rw [PublishError.atPhase, he], hp⟩
  · exact .inr hb

/-- Where the temporary file of a publication lies, and that the call made it. -/
theorem createNamedTemp_early (hb : Before own q h t) (deferred : Bool)
    (destDir : Path) :
    Early E own q (Refuses q.poisoned PublishError.verdict) (createNamedTemp deferred destDir) h t
      fun made _ t' => (⟨.createExclusive made.1 made.2.1, .ok made.2.2⟩ : Σ a : Act, a.Resp) ∈ t' ∧
        made.1.path.head? = some tmpRoot := by
  refine early_memory (.bind (ensureDirWithDirty_early hb deferred _).before ?_)
  intro _ h₁ t₁ hb₁ _ _
  refine .bind (openRelative_early hb₁ _).before ?_
  rintro dir _ t₂ hb₂ - ⟨rfl, hdir⟩
  refine .bind (looking_early hb₂ yields_any).before ?_
  rintro boottime _ t₃ hb₃ - ⟨rfl, -, -⟩
  refine .bind (random128bit_early hb₃).before ?_
  rintro random _ t₄ hb₄ - rfl
  refine .bind (createExclusive_early hb₄ dir _).before ?_
  rintro file _ t₅ hb₅ - ⟨rfl, rfl⟩
  exact early_pure hb₅ ⟨List.mem_cons_self, by rw [hdir]; rfl⟩

/-- The temporary name is unlinked only when nothing was renamed. -/
theorem guardTemp_fate {X : CallLog → Transfer → Prop} (dir : Dir) (name : Name)
    {body : QueueM PublishError α}
    (hbody : body.Meets (recorder E) h t fun r h' t' =>
      Fate own q t X (Alike q) (publishedVerdict r) h' t') :
    (guardTemp dir name body).Meets (recorder E) h t fun r h' t' =>
      Fate own q t X (Alike q) (publishedVerdict r) h' t' := by
  refine meets_bind.mpr (meets_attempt.mpr (Task.Meets.mono hbody fun r h₁ t₁ hf => ?_))
  refine then_ok.mpr ?_
  cases r with
  | ok a => exact meets_pure.mpr hf
  | error e =>
    cases e with
    | notCommitted e =>
      refine meets_unlinked own fun x t₂ hs hsame => meets_throw.mpr ?_
      obtain ⟨hs₁, hc⟩ := hf
      exact ⟨hs₁.trans hs, by rw [hsame]; exact hc⟩
    | outcomeUnknown e => exact meets_throw.mpr hf
    | outcomeUnknownPublished digest e => exact meets_throw.mpr hf

theorem fromMoveFailure_fate {X : CallLog → Transfer → Prop} {m : QueueM MoveFailure α}
    (hm : m.Meets (recorder E) h t fun r h' t' =>
      Fate own q t X (Alike q) (moveVerdict r) h' t') :
    (Task.mapErr .fromMoveFailure m).Meets (recorder E) h t fun r h' t' =>
      Fate own q t X (Alike q) (publishedVerdict r) h' t' := by
  refine meets_mapErr.mpr (Task.Meets.mono hm fun r h' t' hf => ?_)
  cases r with
  | ok a => exact hf
  | error e =>
    cases e with
    | notCommitted phase e => exact hf
    | outcomeUnknown phase e => exact hf
    | alreadyExists => exact hf.refuse _
    | sourceMissing => exact hf.refuse _

/-- Code behind a publication: its failures are unknown outcomes. -/
theorem publishedFate_bind {β : Type} {x : Transfer} {m : QueueM PublishError α}
    {k : α → QueueM PublishError β}
    (hm : m.Meets (recorder E) h t fun r h' t' =>
      Fate own q t (fun _ x' => x' = x) (Alike q) (publishedVerdict r) h' t')
    (hk : ∀ a h' t', Behind own q t x h' t' →
      Late E own q t x (fun e => e.verdict = .unknown) (k a) h' t' fun _ _ _ => True) :
    (m >>= k).Meets (recorder E) h t fun r h' t' =>
      Fate own q t (fun _ x' => x' = x) (Alike q) (publishedVerdict r) h' t' := by
  refine meets_bind.mpr (Task.Meets.mono hm fun r h₁ t₁ hf => ?_)
  refine Task.then_intro (fun e he => by subst he; exact hf) fun a ha => ?_
  subst ha
  obtain ⟨_, rfl, hb⟩ := hf
  refine Task.Meets.mono (hk a h₁ t₁ hb) fun r h₂ t₂ hp => ?_
  obtain ⟨ha, hl, hok, herror⟩ := hp
  cases r with
  | ok b => exact ⟨_, rfl, ha, (hok b rfl).1, hl⟩
  | error e =>
    show Fate own q t _ (Alike q) e.verdict h₂ t₂
    rw [herror e rfl]
    exact ⟨_, rfl, ha, hl⟩

theorem finishNamedPublish_fate (hb : Before own q h t) (deferred : Bool)
    (tmpDir : Dir) (tmpName : Name) (file : Ino) (dst : Dir) (dstName : Name) :
    (finishNamedPublish deferred tmpDir tmpName file dst dstName).Meets (recorder E) h t
      fun r h' t' => Fate own q t (fun _ x => x = .rename tmpDir.path tmpName dst.path dstName)
        (Alike q) (publishedVerdict r) h' t' := by
  refine Early.fate (fsync_early hb file).before ?_
  rintro _ _ t₁ hb₁ - rfl
  refine Early.fate (looking_early hb₁ yields_any).before ?_
  rintro stat _ t₂ hb₂ - ⟨rfl, -, -⟩
  refine publishedFate_bind (fromMoveFailure_fate (moveWitnessed_fate hb₂ ..)) ?_
  intro _ h₃ t₃ hb₃
  refine late_ite (fun _ => ?_) fun _ => late_pure hb₃ trivial
  refine .bind ((late_recordDirty hb₃ tmpDir).mapErr fun _ _ => rfl) fun _ h₄ t₄ hb₄ _ => ?_
  exact (late_recordDirty hb₄ dst).mapErr fun _ _ => rfl

/-- The rename of a temporary file the call made. -/
theorem published_rename {dst tmpDir : Dir} {tmpName dstName : Name} {file : Ino}
    (hmade : (⟨.createExclusive tmpDir tmpName, .ok file⟩ : Σ a : Act, a.Resp) ∈ t)
    (htmp : tmpDir.path.head? = some tmpRoot) (t' : CallLog) (x : Transfer) (hs : t <:+ t')
    (hx : x = .rename tmpDir.path tmpName dst.path dstName) : Published dst.path dstName t' x :=
  .inr ⟨tmpDir, tmpName, file, hs.subset hmade, htmp, hx⟩

/-- A guarded publication under a temporary name: `body` writes the file and renames it. -/
theorem guarded_fate {tmpDir dst : Dir} {tmpName dstName : Name} {file : Ino}
    {body : QueueM PublishError α}
    (hmade : (⟨.createExclusive tmpDir tmpName, .ok file⟩ : Σ a : Act, a.Resp) ∈ t)
    (htmp : tmpDir.path.head? = some tmpRoot)
    (hbody : body.Meets (recorder E) h t fun r h' t' =>
      Fate own q t (fun _ x => x = .rename tmpDir.path tmpName dst.path dstName) (Alike q)
        (publishedVerdict r) h' t') :
    (guardTemp tmpDir tmpName body).Meets (recorder E) h t fun r h' t' =>
      Fate own q t (Published dst.path dstName) (Alike q) (publishedVerdict r) h' t' :=
  guardTemp_fate tmpDir tmpName (Task.Meets.mono hbody fun _ _ _ hf =>
    hf.mono (published_rename hmade htmp) fun _ hu => hu)

theorem encodeHeaderBytes_refused {header : FixedHeader} {ext : Bytes} {e : PublishError}
    (he : encodeHeaderBytes header ext = .error e) :
    Refuses q.poisoned PublishError.verdict none e h := by
  unfold encodeHeaderBytes at he
  cases hh : header.encode ext with
  | ok b =>
    rw [hh] at he
    cases he
  | error x =>
    rw [hh] at he
    cases he
    exact ⟨_, rfl, charged_none _⟩

theorem namedFallback_fate (hb : Before own q h t) (deferred : Bool)
    (destDir : Path) (dst : Dir) (dstName : Name) (header : FixedHeader) (ext payload : Bytes) :
    (namedFallback deferred destDir dst dstName header ext payload).Meets (recorder E) h t
      fun r h' t' => Fate own q t (Published dst.path dstName) (Alike q) (publishedVerdict r) h' t' := by
  refine Early.fate (createNamedTemp_early hb deferred destDir) ?_
  rintro ⟨tmpDir, tmpName, file⟩ h₁ t₁ hb₁ - ⟨hmade, htmp⟩
  refine guarded_fate hmade htmp (Early.fate (J := fun _ h' t' => h' = h₁ ∧ t' = t₁) ?_ ?_)
  · cases hh : encodeHeaderBytes header ext with
    | error e => exact early_throw hb₁ (encodeHeaderBytes_refused hh)
    | ok b => exact early_pure hb₁ ⟨rfl, rfl⟩
  rintro headerBytes _ _ - - ⟨rfl, rfl⟩
  refine Early.fate (writeAll_early hb₁ file _).before ?_
  rintro _ _ t₂ hb₂ - rfl
  refine Early.fate (writeAll_early hb₂ file _).before ?_
  rintro _ _ t₃ hb₃ - rfl
  refine Early.fate (writeAll_early hb₃ file _).before ?_
  rintro _ _ t₄ hb₄ - rfl
  exact finishNamedPublish_fate hb₄ deferred tmpDir tmpName file dst dstName

/-! ## 2. Unnamed files -/

def unnamedVerdict : Except PublishError Bool → Verdict
  | .ok true => .done
  | .ok false => .lost
  | .error e => e.verdict

theorem classifyTmpfile_fate {X : CallLog → Transfer → Prop}
    {r : Except TmpfilePublishFailure TmpfilePublishOutcome} {e : TmpfilePublishFailure}
    {h' : Handle} {t' : CallLog} (hr : r = .error e)
    (hf : Fate own q t X (Alike q) (publishVerdict r) h' t') :
    Fate own q t X (Alike q) (PublishError.classifyTmpfile e).verdict h' t' := by
  subst hr
  cases e with
  | alreadyExists => exact hf.refuse _
  | notCommitted phase e => exact ⟨hf.1, charged_atPhase phase hf.2⟩
  | outcomeUnknown phase e => exact hf

theorem publishUnnamed_fate (hb : Before own q h t) (deferred : Bool)
    (file : Ino) (dst : Dir) (dstName : Name) :
    (publishUnnamed deferred file dst dstName).Meets (recorder E) h t fun r h' t' =>
      Fate own q t (fun _ x => x = .link file dst.path dstName) (Alike q) (unnamedVerdict r) h' t' := by
  refine meets_bind.mpr (meets_memory.mpr (then_ok.mpr (meets_bind.mpr ?_)))
  refine meets_mapErr.mpr (Task.Meets.mono (publishTmpfile_fate hb file dst dstName _ _) ?_)
  intro r h₁ t₁ hf
  cases r with
  | error e => exact classifyTmpfile_fate rfl hf
  | ok outcome =>
    refine then_ok.mpr ?_
    cases outcome with
    | unsupported =>
      refine meets_bind.mpr (meets_remember.mpr (then_ok.mpr ?_))
      exact meets_pure.mpr ⟨hf.1, hf.2.memory ⟨rfl, rfl, rfl, rfl⟩⟩
    | published mode =>
      obtain ⟨_, rfl, hb₁⟩ := hf
      refine meets_bind.mpr (meets_remember.mpr (then_ok.mpr ?_))
      have hb₂ : Behind own q t (.link file dst.path dstName)
          { h₁ with publicationMode := some mode } t₁ := hb₁.memory ⟨rfl, rfl, rfl, rfl⟩
      refine meets_ite.mpr ⟨fun _ => ?_, fun _ => meets_pure.mpr ⟨_, rfl, hb₂⟩⟩
      refine meets_bind.mpr (meets_mapErr.mpr
        (Task.Meets.mono (late_recordDirty hb₂ dst) ?_))
      rintro r h₃ t₃ ⟨ha, hl, hok, -⟩
      cases r with
      | error e => exact ⟨_, rfl, ha, hl⟩
      | ok u => exact then_ok.mpr (meets_pure.mpr ⟨_, rfl, ha, (hok u rfl).1, hl⟩)

theorem openUnnamed_early (hb : Before own q h t) (dst : Dir) :
    Early E own q (Refuses q.poisoned PublishError.verdict) (openUnnamed dst) h t fun o _ t' =>
      ∀ file, o = some file → (⟨.openTmpfile dst, .ok file⟩ : Σ a : Act, a.Resp) ∈ t' := by
  refine early_memory (early_ite (fun _ => early_pure hb nofun) fun _ => ?_)
  refine meets_bind.mpr (meets_attempt.mpr (Task.meets_call.mpr ⟨trivial, fun r _ => ?_⟩))
  refine then_ok.mpr ?_
  cases r with
  | ok file =>
    refine Early.after (silent_call rfl) (early_pure (hb.call rfl rfl) ?_)
    rintro _ ⟨⟩
    exact List.mem_cons_self
  | error e =>
    obtain ⟨hs, hspent, hfine⟩ := hb.failed (a := .openTmpfile dst) (r := .error e) rfl rfl
      (hb.standing _)
    refine meets_ite.mpr ⟨fun hu => ?_, fun _ => ?_⟩
    · have hb₁ : Before own q h (⟨.openTmpfile dst, .error e⟩ :: t) := by
        refine hfine ?_
        cases e <;> first | rfl | cases hu
      exact Early.after hs (early_remember (early_pure (hb₁.memory ⟨rfl, rfl, rfl, rfl⟩) nofun))
    · refine meets_throw.mpr ⟨hs, nofun, ?_⟩
      rintro _ ⟨⟩
      exact hspent.refuses

theorem openOrCacheDir_early (hb : Before own q h t) (relative : Path) :
    Early E own q (Spent q.poisoned) (openOrCacheDir relative) h t fun d _ _ => d.path = relative := by
  have hopen : Early E own q (Spent q.poisoned) (openOrCacheDir.openAndCache relative) h t
      fun d _ _ => d.path = relative := by
    refine .bind (openRelative_early hb relative) ?_
    rintro d _ t₁ hb₁ - ⟨rfl, hd⟩
    exact early_remember (early_pure (hb₁.memory ⟨rfl, rfl, rfl, rfl⟩) hd)
  refine early_memory ?_
  split
  · exact early_ite (fun hd => early_pure hb hd) fun _ => hopen
  · exact hopen

/-- The link of an unnamed file the call opened, or the named way. -/
theorem published_link {dst : Dir} {dstName : Name} {file : Ino}
    (hopened : (⟨.openTmpfile dst, .ok file⟩ : Σ a : Act, a.Resp) ∈ t) (t' : CallLog)
    (x : Transfer) (hs : t <:+ t') (hx : x = .link file dst.path dstName) :
    Published dst.path dstName t' x :=
  .inl ⟨dst, file, hs.subset hopened, hx⟩

theorem unnamedThen_fate {dst : Dir} {dstName : Name} {file : Ino} {m : QueueM PublishError Bool}
    {a : α} {k : QueueM PublishError α}
    (hopened : (⟨.openTmpfile dst, .ok file⟩ : Σ a : Act, a.Resp) ∈ t)
    (hm : m.Meets (recorder E) h t fun r h' t' =>
      Fate own q t (fun _ x => x = .link file dst.path dstName) (Alike q) (unnamedVerdict r) h' t')
    (hk : ∀ h' t', Before own q h' t' → k.Meets (recorder E) h' t' fun r h'' t'' =>
      Fate own q t' (Published dst.path dstName) (Alike q) (publishedVerdict r) h'' t'') :
    (m >>= fun published => if published then pure a else k).Meets (recorder E) h t
      fun r h' t' => Fate own q t (Published dst.path dstName) (Alike q) (publishedVerdict r) h' t' := by
  refine meets_bind.mpr (Task.Meets.mono hm fun r h₁ t₁ hf => ?_)
  refine Task.then_intro (fun e he => ?_) fun published hp => ?_
  · subst he
    exact hf.mono (published_link hopened) fun _ hu => hu
  · subst hp
    cases published with
    | true => exact hf.mono (published_link hopened) fun _ hu => hu
    | false =>
      obtain ⟨hs₁, hb₁⟩ := hf
      exact Task.Meets.mono (hk h₁ t₁ hb₁) fun _ _ _ hf => hf.rebase hs₁

theorem writeAndPublish_fate (hb : Before own q h t) (deferred : Bool)
    (destDir : Path) (dstName : Name) (header : FixedHeader) (ext payload : Bytes) :
    (writeAndPublish deferred destDir dstName header ext payload).Meets (recorder E) h t
      fun r h' t' => Fate own q t (Published destDir dstName) (Alike q) (publishedVerdict r) h' t' := by
  refine Early.fate (ensureDirWithDirty_early hb deferred destDir).before ?_
  intro _ h₁ t₁ hb₁ _ _
  refine Early.fate (openOrCacheDir_early hb₁ destDir).before ?_
  rintro dst h₂ t₂ hb₂ - rfl
  refine Early.fate (openUnnamed_early hb₂ dst) ?_
  intro o h₃ t₃ hb₃ _ hopened
  cases o with
  | none => exact namedFallback_fate hb₃ deferred dst.path dst dstName header ext payload
  | some file =>
    refine Early.fate (J := fun _ h' t' => h' = h₃ ∧ t' = t₃) ?_ ?_
    · cases hh : encodeHeaderBytes header ext with
      | error e => exact early_throw hb₃ (encodeHeaderBytes_refused hh)
      | ok b => exact early_pure hb₃ ⟨rfl, rfl⟩
    rintro headerBytes _ _ - - ⟨rfl, rfl⟩
    refine Early.fate (writeAll_early hb₃ file _).before ?_
    rintro _ _ t₄ hb₄ hs₄ rfl
    refine unnamedThen_fate (hs₄.past.subset (hopened file rfl))
      (publishUnnamed_fate hb₄ deferred file dst dstName) fun h₅ t₅ hb₅ => ?_
    exact namedFallback_fate hb₅ deferred dst.path dst dstName header ext payload

/-! ## 3. Streams -/

theorem streamChunks_early (hb : Before own q h t) (file : Ino)
    (limit : Nat) (payload : Bytes) (reader : PayloadReader) :
    Early E own q (Refuses q.poisoned PublishError.verdict) (streamChunks file limit payload reader) h t
      fun _ _ _ => True := by
  induction reader generalizing h t payload with
  | nil => exact early_pure hb trivial
  | cons read rest ih =>
    cases read with
    | error e =>
      exact early_ite (fun _ => ih hb _) fun _ => early_throw hb ⟨_, rfl, charged_none _⟩
    | ok chunk =>
      refine early_ite (fun _ => early_pure hb trivial) fun _ => ?_
      refine early_ite (fun _ => early_throw hb ⟨_, rfl, charged_none _⟩) fun _ => ?_
      refine .bind (writeAll_early hb file _).before fun _ h₁ t₁ hb₁ _ _ => ?_
      exact ih hb₁ _

theorem streamEnvelope_early (hb : Before own q h t) (job : StreamedJob)
    (file : Ino) (reader : PayloadReader) :
    Early E own q (Refuses q.poisoned PublishError.verdict) (streamEnvelope job file reader) h t
      fun _ _ _ => True := by
  refine .bind (J := fun _ _ _ => True) ?_ fun payload h₁ t₁ hb₁ _ _ => ?_
  · refine .bind (writeAll_early hb file _).before fun _ h₁ t₁ hb₁ _ _ => ?_
    refine .bind (writeAll_early hb₁ file _).before fun _ h₂ t₂ hb₂ _ _ => ?_
    exact early_memory (streamChunks_early hb₂ file _ _ reader)
  refine early_ofExcept hb₁ (fun e he => ?_) fun header _ => ?_
  · cases hh : sealedHeader (headerOf job.jobId job.maximumAttempts job.createdAt job.ext
      payload.length (payloadDigest payload)) job.ext with
    | ok header =>
      rw [hh] at he
      cases he
    | error x =>
      rw [hh] at he
      cases he
      exact ⟨_, rfl, charged_none _⟩
  refine early_ofExcept hb₁ (fun e he => encodeHeaderBytes_refused he) fun headerBytes _ => ?_
  refine .bind (pwriteAll_early hb₁ file _ _).before fun _ h₂ t₂ hb₂ _ _ => ?_
  exact early_pure hb₂ trivial

theorem copyPayload_early (hb : Before own q h t) (src dst : Ino)
    (offset length fuel copied : Nat) :
    Early E own q (Refuses q.poisoned PublishError.verdict) (copyPayload src dst offset length fuel copied) h t
      fun _ _ _ => True := by
  induction fuel generalizing h t copied with
  | zero => exact early_pure hb trivial
  | succ fuel ih =>
    refine early_ite (fun _ => ?_) fun _ => early_pure hb trivial
    refine .bind (looking_early hb yields_any).before fun chunk h₁ t₁ hb₁ _ _ => ?_
    refine early_ite (fun _ => early_pure hb₁ trivial) fun _ => ?_
    refine .bind (writeAll_early hb₁ dst _).before fun _ h₂ t₂ hb₂ _ _ => ?_
    exact ih hb₂ _

theorem withPublishedDigest_fate {X : CallLog → Transfer → Prop} {digest : Octets 32}
    {verdict : Except PublishError α → Verdict} (hv : ∀ e, verdict (.error e) = e.verdict)
    {m : QueueM PublishError α}
    (hm : m.Meets (recorder E) h t fun r h' t' => Fate own q t X (Alike q) (verdict r) h' t') :
    (Task.mapErr (.withPublishedDigest digest) m).Meets (recorder E) h t fun r h' t' =>
      Fate own q t X (Alike q) (verdict r) h' t' := by
  refine meets_mapErr.mpr (Task.Meets.mono hm fun r h' t' hf => ?_)
  cases r with
  | ok a => exact hf
  | error e =>
    simp only [Except.mapError, hv] at hf ⊢
    cases e <;> exact hf

/-- A file is renamed into place, and a value returned. -/
theorem renamedThen_fate {β : Type} {x : Transfer} {m : QueueM PublishError α} {b : β}
    (hm : m.Meets (recorder E) h t fun r h' t' =>
      Fate own q t (fun _ x' => x' = x) (Alike q) (publishedVerdict r) h' t') :
    (m >>= fun _ => pure b).Meets (recorder E) h t fun r h' t' =>
      Fate own q t (fun _ x' => x' = x) (Alike q) (publishedVerdict r) h' t' :=
  publishedFate_bind hm fun _ _ _ hb => late_pure hb trivial

theorem namedFallbackStreaming_fate (hb : Before own q h t)
    (deferred : Bool) (destDir : Path) (dst : Dir) (dstName : Name) (header : FixedHeader)
    (ext : Bytes) (source : Ino) (payloadLength : Nat) :
    (namedFallbackStreaming deferred destDir dst dstName header ext source payloadLength).Meets
      (recorder E) h t fun r h' t' =>
        Fate own q t (Published dst.path dstName) (Alike q) (publishedVerdict r) h' t' := by
  refine Early.fate (createNamedTemp_early hb deferred destDir) ?_
  rintro ⟨tmpDir, tmpName, file⟩ h₁ t₁ hb₁ - ⟨hmade, htmp⟩
  refine guarded_fate hmade htmp (Early.fate (J := fun _ h' t' => h' = h₁ ∧ t' = t₁) ?_ ?_)
  · cases hh : encodeHeaderBytes header ext with
    | error e => exact early_throw hb₁ (encodeHeaderBytes_refused hh)
    | ok b => exact early_pure hb₁ ⟨rfl, rfl⟩
  rintro headerBytes _ _ - - ⟨rfl, rfl⟩
  refine Early.fate (writeAll_early hb₁ file _).before fun _ h₂ t₂ hb₂ _ _ => ?_
  refine Early.fate (writeAll_early hb₂ file _).before fun _ h₃ t₃ hb₃ _ _ => ?_
  refine Early.fate (copyPayload_early hb₃ source file ..) fun _ h₄ t₄ hb₄ _ _ => ?_
  exact renamedThen_fate (withPublishedDigest_fate (fun _ => rfl)
    (finishNamedPublish_fate hb₄ deferred tmpDir tmpName file dst dstName))

theorem namedFallbackStreamingInit_fate (hb : Before own q h t)
    (deferred : Bool) (destDir : Path) (dst : Dir) (dstName : Name) (job : StreamedJob)
    (reader : PayloadReader) :
    (namedFallbackStreamingInit deferred destDir dst dstName job reader).Meets (recorder E) h t
      fun r h' t' => Fate own q t (Published dst.path dstName) (Alike q) (publishedVerdict r) h' t' := by
  refine Early.fate (createNamedTemp_early hb deferred destDir) ?_
  rintro ⟨tmpDir, tmpName, file⟩ h₁ t₁ hb₁ - ⟨hmade, htmp⟩
  refine guarded_fate hmade htmp (Early.fate (streamEnvelope_early hb₁ job file reader) ?_)
  rintro ⟨header, payload⟩ h₂ t₂ hb₂ - -
  exact renamedThen_fate (withPublishedDigest_fate (fun _ => rfl)
    (finishNamedPublish_fate hb₂ deferred tmpDir tmpName file dst dstName))

theorem streamAndPublish_fate (hb : Before own q h t) (deferred : Bool)
    (destDir : Path) (dstName : Name) (job : StreamedJob) (reader : PayloadReader) :
    (streamAndPublish deferred destDir dstName job reader).Meets (recorder E) h t
      fun r h' t' => Fate own q t (Published destDir dstName) (Alike q) (publishedVerdict r) h' t' := by
  refine Early.fate (ensureDirWithDirty_early hb deferred destDir).before ?_
  intro _ h₁ t₁ hb₁ _ _
  refine Early.fate (openRelative_early hb₁ destDir).before ?_
  rintro dst h₂ t₂ hb₂ - ⟨rfl, rfl⟩
  refine Early.fate (openUnnamed_early hb₂ dst) ?_
  intro o h₃ t₃ hb₃ _ hopened
  cases o with
  | none => exact namedFallbackStreamingInit_fate hb₃ deferred dst.path dst dstName job reader
  | some file =>
    refine Early.fate (streamEnvelope_early hb₃ job file reader) ?_
    rintro ⟨header, payload⟩ h₄ t₄ hb₄ hs₄ -
    refine unnamedThen_fate (hs₄.past.subset (hopened file rfl)) (withPublishedDigest_fate
      (fun _ => rfl) (publishUnnamed_fate hb₄ deferred file dst dstName)) fun h₅ t₅ hb₅ => ?_
    exact namedFallbackStreaming_fate hb₅ deferred dst.path dst dstName header job.ext file _

end Publish

/-! ## 4. Enqueue -/

def EnqueueOutcome.verdict : EnqueueOutcome → Verdict
  | .committed _ => .done
  | .deferred _ => .done
  | .notCommitted _ e => .refused e
  | .outcomeUnknown .. => .unknown

def EnqueueOutcome.ticket : EnqueueOutcome → EnqueueTicket
  | .committed ticket => ticket
  | .deferred ticket => ticket
  | .notCommitted ticket _ => ticket
  | .outcomeUnknown ticket _ => ticket

/-- Where a job goes: the floor that the operation took decides whether its deadline is past. -/
def Due (t : CallLog) (deadline : Option UInt64) (l : Landing) : Prop :=
  (l = .ready ∧ ∀ nb, deadline = some nb → ∃ floor, Floored t floor ∧ nb ≤ floor.unixNs) ∨
    ∃ nb floor, deadline = some nb ∧ Floored t floor ∧ floor.unixNs < nb ∧ l = .delayed nb

theorem Due.later {t t' : CallLog} {deadline : Option UInt64} {l : Landing} (hd : Due t deadline l)
    (ht : t <:+ t') : Due t' deadline l := by
  rcases hd with ⟨hl, hpast⟩ | ⟨nb, floor, hnb, hfloor, hlt, hl⟩
  · refine .inl ⟨hl, fun nb hnb => ?_⟩
    obtain ⟨floor, hfloor, hle⟩ := hpast nb hnb
    exact ⟨floor, hfloor.later ht, hle⟩
  · exact .inr ⟨nb, floor, hnb, hfloor.later ht, hlt, hl⟩

/-- A job gets its first name: the one in the ticket, where the layout puts a job without attempts
    that is due at once or at its deadline. -/
def Enqueues (f : FormatRecord) (job : EnqueueInput) (ticket : EnqueueTicket) (t : CallLog)
    (x : Transfer) : Prop :=
  ∃ l dst dstName, Published dst dstName t x ∧ ticket.expectedRelativePath = dst ++ [dstName] ∧
    LandsAt f l ⟨ticket.jobId, 0, 0, job.maximumAttempts⟩ dst dstName ∧
    Due t job.initialNotBefore l

section Enqueue

variable {E : CallLog → (a : Act) → a.Resp → Prop} {own : Transfer → Bool} {q h : Handle}
  {t : CallLog}

/-- Where the job of a ticket goes. -/
def Destined (f : FormatRecord) (job : EnqueueInput) (jobId : Octets 16) (dst : Path)
    (dstName : Name) (t : CallLog) : Prop :=
  ∃ l, LandsAt f l ⟨jobId, 0, 0, job.maximumAttempts⟩ dst dstName ∧ Due t job.initialNotBefore l

theorem destined_of_target {job : EnqueueInput} {jobId : Octets 16} {floor : WallFloor}
    {c : CommonFields} {op : Operation} {target : Target} (hf : h.format = q.format)
    (hfloor : Floored t floor) (hpub : op.Publishes)
    (hnext : nextIdentity op ⟨jobId, 0, 0, job.maximumAttempts⟩ = .ok c)
    (ht : initialTarget h.layout (initialStateFor job.initialNotBefore floor.unixNs) c
      job.initialNotBefore = .ok target) :
    Destined q.format job jobId target.directory target.filename t := by
  obtain rfl := nextCommonFields_publishes (nextIdentity_ok hnext) hpub
  obtain ⟨l, hl, hplace⟩ := initialTarget_ok hf ht
  refine ⟨l, ⟨target, hl, rfl, rfl⟩, ?_⟩
  rcases hplace with ⟨rfl, hpast⟩ | ⟨nb, rfl, hnb, hlt⟩
  · exact .inl ⟨rfl, fun nb hnb => ⟨floor, hfloor, hpast nb hnb⟩⟩
  · exact .inr ⟨nb, floor, hnb, hfloor, hlt, rfl⟩

/-- Errors in front of a publication come with a ticket. -/
abbrev declined : EnqueueTicket × Error → Verdict := fun e => .refused e.2

theorem declines_none (e : EnqueueTicket × Error) : Refuses q.poisoned declined none e h :=
  ⟨_, rfl, charged_none _⟩

theorem prepareEnqueue_early (hb : Before own q h t) (job : EnqueueInput) :
    Early E own q (Refuses q.poisoned declined) (prepareEnqueue job) h t fun prepared _ t' =>
      q.poisoned = none ∧
      Destined q.format job prepared.ticket.jobId prepared.destDir prepared.filename t' ∧
      prepared.ticket.expectedRelativePath = prepared.destDir ++ [prepared.filename] := by
  refine .bind ((checkNotPoisoned_early hb).mapErr fun _ _ _ hR => ⟨_, rfl, hR⟩) ?_
  rintro _ _ t₁ hb₁ - ⟨rfl, hq⟩
  refine .bind ((random128bit_early hb₁).mapErr fun _ _ _ hR => ⟨_, rfl, hR.charged⟩) ?_
  rintro jobId _ t₂ hb₂ - rfl
  refine .bind ((wallFloorForMutation_early hb₂).mapErr fun _ _ _ hR => ⟨_, rfl, hR⟩) ?_
  intro floor h₃ t₃ hb₃ _ hfloor
  refine early_memory (early_ofExcept hb₃ (fun e _ => declines_none e) ?_)
  rintro ⟨header, ext⟩ -
  refine early_ofExcept hb₃ (fun e _ => declines_none e) ?_
  rintro ⟨state, target⟩ hplace
  obtain ⟨c, op, hpub, hnext, ht⟩ := placeEnqueue_ok hplace
  exact early_pure hb₃ ⟨hq, destined_of_target hb₃.alike.format hfloor hpub hnext ht, rfl⟩

/-- **The outcome of an enqueue tells whether the job was published, and where.** -/
theorem enqueueWithDirty_told (hb : Before own q h t) (deferred : Bool)
    (job : EnqueueInput) : (enqueueWithDirty deferred job).Meets (recorder E) h t
      (Told own q t (fun o => Enqueues q.format job o.ticket) EnqueueOutcome.verdict) := by
  refine Early.cases (prepareEnqueue_early hb job) ?_ ?_
  · rintro prepared h₁ t₁ hb₁ hs₁ ⟨hq, hd, hpath⟩
    refine meets_bind.mpr (meets_attempt.mpr (Task.Meets.mono
      (writeAndPublish_fate hb₁ deferred prepared.destDir prepared.filename prepared.header
        prepared.extBytes job.payload) fun r h₂ t₂ hf => then_ok.mpr ?_))
    have hf : Fate own q t (Enqueues q.format job prepared.ticket) (Alike q) (publishedVerdict r)
        h₂ t₂ := by
      refine (hf.mono (fun t' x ht' hx => ?_) fun _ hu => hu).rebase hs₁
      obtain ⟨l, hl, hplace⟩ := hd
      exact ⟨l, prepared.destDir, prepared.filename, hx, hpath, hl, hplace.later ht'⟩
    cases r with
    | ok u =>
      obtain ⟨x, hx, hb₂⟩ := hf
      refine meets_bind.mpr (meets_remember.mpr (then_ok.mpr ?_))
      exact meets_pure.mpr (told_ok ⟨x, hx, hb₂.memory ⟨rfl, rfl, rfl, rfl⟩⟩)
    | error e =>
      cases e with
      | notCommitted e => exact meets_pure.mpr (told_ok hf)
      | outcomeUnknown e =>
        obtain ⟨x, hx, ha, hu⟩ := hf
        refine meets_bind.mpr (meets_remember.mpr (then_ok.mpr ?_))
        exact meets_pure.mpr (told_ok ⟨x, hx, ha, warned_poison hu hq⟩)
      | outcomeUnknownPublished digest e =>
        obtain ⟨x, hx, ha, hu⟩ := hf
        refine meets_bind.mpr (meets_remember.mpr (then_ok.mpr ?_))
        exact meets_pure.mpr (told_ok ⟨x, hx, ha, warned_poison hu hq⟩)
  · rintro ⟨ticket, e⟩ h₁ t₁ hs₁ ⟨_, ⟨⟩, hc⟩
    exact meets_pure.mpr (told_ok ⟨hs₁, hc⟩)

theorem enqueue_told (hb : Before own q h t) (job : EnqueueInput) :
    (enqueue job).Meets (recorder E) h t
      (Told own q t (fun o => Enqueues q.format job o.ticket) EnqueueOutcome.verdict) := by
  refine meets_bind.mpr (meets_memory.mpr (then_ok.mpr (meets_bind.mpr ?_)))
  refine Task.Meets.mono (enqueueWithDirty_told hb _ job) fun r h₁ t₁ ht => ?_
  cases r with
  | error e => exact nomatch e
  | ok o =>
    have hf := ht o rfl
    refine then_ok.mpr ?_
    split
    · exact meets_pure.mpr (told_ok hf)
    · exact meets_pure.mpr (told_ok hf)

theorem prepareStreaming_early (hb : Before own q h t)
    (job : EnqueueInput) :
    Early E own q (Refuses q.poisoned declined) (prepareStreaming job) h t fun x _ t' =>
      q.poisoned = none ∧ Destined q.format job x.1.jobId x.2.2.directory x.2.2.filename t' := by
  refine .bind ((checkNotPoisoned_early hb).mapErr fun _ _ _ hR => ⟨_, rfl, hR⟩) ?_
  rintro _ _ t₁ hb₁ - ⟨rfl, hq⟩
  refine early_ite (fun _ => early_throw hb₁ (declines_none _)) fun _ => ?_
  refine .bind ((wallFloorForMutation_early hb₁).mapErr fun _ _ _ hR => ⟨_, rfl, hR⟩) ?_
  intro floor h₂ t₂ hb₂ _ hfloor
  refine .bind ((random128bit_early hb₂).mapErr fun _ _ _ hR => ⟨_, rfl, hR.charged⟩) ?_
  rintro jobId _ t₃ hb₃ hs₃ rfl
  refine early_ofExcept hb₃ (fun e he => ?_) fun ext _ => ?_
  · exact declines_none e
  refine early_ofExcept hb₃ (fun e _ => declines_none e) fun c hnext => ?_
  refine early_memory (early_ofExcept hb₃ (fun e _ => declines_none e) fun target ht => ?_)
  refine early_pure hb₃ ⟨hq, destined_of_target hb₃.alike.format (hfloor.later hs₃.past) ?_
    (Task.mapError_eq_ok.mp hnext) (Task.mapError_eq_ok.mp ht)⟩
  cases initialStateFor job.initialNotBefore floor.unixNs
  · exact .inl rfl
  · exact .inr rfl

/-- **So does the outcome of a streaming enqueue.** -/
theorem enqueueStreaming_told (hb : Before own q h t) (job : EnqueueInput)
    (reader : PayloadReader) : (enqueueStreaming job reader).Meets (recorder E) h t
      (Told own q t (fun o => Enqueues q.format job o.ticket) EnqueueOutcome.verdict) := by
  refine Early.cases (prepareStreaming_early hb job) ?_ ?_
  · rintro ⟨streamed, state, target⟩ h₁ t₁ hb₁ hs₁ ⟨hq, hd⟩
    refine meets_bind.mpr (meets_memory.mpr (then_ok.mpr (meets_bind.mpr ?_)))
    refine meets_attempt.mpr (Task.Meets.mono (streamAndPublish_fate hb₁ _ target.directory
      target.filename streamed reader) fun r h₂ t₂ hf => then_ok.mpr ?_)
    have hf (digest : Octets 32) : Fate own q t
        (Enqueues q.format job ⟨streamed.jobId, digest, state, target.relativePath⟩) (Alike q)
        (publishedVerdict r) h₂ t₂ := by
      refine (hf.mono (fun t' x ht' hx => ?_) fun _ hu => hu).rebase hs₁
      obtain ⟨l, hl, hplace⟩ := hd
      exact ⟨l, target.directory, target.filename, hx, rfl, hl, hplace.later ht'⟩
    cases r with
    | ok digest =>
      refine meets_ite.mpr ⟨fun _ => ?_, fun _ => ?_⟩
      · exact meets_pure.mpr (told_ok (hf digest))
      · exact meets_pure.mpr (told_ok (hf digest))
    | error e =>
      cases e with
      | notCommitted e => exact meets_pure.mpr (told_ok (hf (zeros 32)))
      | outcomeUnknown e =>
        obtain ⟨x, hx, ha, hu⟩ := hf (zeros 32)
        refine meets_bind.mpr (meets_remember.mpr (then_ok.mpr ?_))
        exact meets_pure.mpr (told_ok ⟨x, hx, ha, warned_poison hu hq⟩)
      | outcomeUnknownPublished digest e =>
        obtain ⟨x, hx, ha, hu⟩ := hf digest
        refine meets_bind.mpr (meets_remember.mpr (then_ok.mpr ?_))
        exact meets_pure.mpr (told_ok ⟨x, hx, ha, warned_poison hu hq⟩)
  · rintro ⟨ticket, e⟩ h₁ t₁ hs₁ ⟨_, ⟨⟩, hc⟩
    exact meets_pure.mpr (told_ok ⟨hs₁, hc⟩)

end Enqueue

end SteadQ
