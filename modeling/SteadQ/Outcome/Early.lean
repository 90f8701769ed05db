/-
  File:      SteadQ/Outcome/Early.lean
  Subject:   DIRECTORIES ON DEMAND AND THE WALL FLOOR, as code in front of a linearization point.
-/
import SteadQ.Outcome.Rules

namespace SteadQ

open Octet Interact
open Interact.Task (meets_bind meets_throw then_ok yields_any)

variable {E : CallLog → (a : Act) → a.Resp → Prop} {own : Transfer → Bool} {q h : Handle}
  {t : CallLog} {ε α : Type} {p : Option PoisonReason}

/-! ## 1. Calls of the system -/

/-- A shortage in front of the linearization point reaches the caller under its own name. -/
def Spent (p : Option PoisonReason) (s : Option Shortage) (e : IoError) (h : Handle) : Prop :=
  h.poisoned = p ∧ ∀ k, s = some k → k = .before ∧ e.exhausted = true

theorem spent_none (hb : Before own q h t) (e : IoError) :
    Spent q.poisoned none e h := ⟨hb.alike.poisoned, nofun⟩

section Calls

/-- A call that transfers nothing, and whose shortage `f` does not hide. -/
def Act.Plain {a : Act} (f : a.Resp → Except IoError α) : Prop :=
  ∀ r, a.transfer r = none ∧
    match f r with
    | .ok _ => a.exhausted r = false
    | .error e => a.exhausted r = true → e.exhausted = true

variable (hb : Before own q h t)

include hb

theorem early_io {a : Act} {f : a.Resp → Except IoError α} (hf : Act.Plain f)
    (hstand : standing own t a = .before) :
    Early E own q (Spent q.poisoned) (Task.call a f : QueueM IoError α) h t fun x h' t' =>
      h' = h ∧ ∃ r, f r = .ok x ∧ t' = ⟨a, r⟩ :: t := by
  refine early_call hb (fun r => (hf r).1) (fun r x hx => ?_) fun r e he => ?_
  · have := (hf r).2
    rw [hx] at this
    exact this
  · have := (hf r).2
    rw [he] at this
    refine ⟨hb.alike.poisoned, fun k hk => ?_⟩
    split at hk
    · cases hk
      exact ⟨hstand, this ‹_›⟩
    · cases hk

theorem mkdiratEexistOk_early (d : Dir) (n : Name) :
    Early E own q (Spent q.poisoned) (mkdiratEexistOk d n) h t fun _ h' t' => h' = h ∧ d ∈ made t' := by
  refine (early_io hb ?_ (hb.standing _)).mono ?_
  · rintro (e | _)
    · cases e <;> first | exact ⟨rfl, id⟩ | exact ⟨rfl, rfl⟩
    · exact ⟨rfl, rfl⟩
  · rintro x h' t' - ⟨rfl, r, -, rfl⟩
    exact ⟨rfl, List.mem_cons_self⟩

theorem fsyncDirFd_early {d : Dir} (hd : d ∈ made t) :
    Early E own q (Spent q.poisoned) (fsyncDirFd d) h t fun _ h' _ => h' = h :=
  (early_io hb (by rintro (e | _); exacts [⟨rfl, id⟩, ⟨rfl, rfl⟩])
    ((hb.standing (.fsyncDir d)).trans (if_pos hd))).mono fun _ _ _ _ hx => hx.1

theorem createExclusive_early (d : Dir) (n : Name) :
    Early E own q (Spent q.poisoned) (createExclusive d n) h t fun i h' t' =>
      h' = h ∧ t' = ⟨.createExclusive d n, .ok i⟩ :: t := by
  refine (early_io hb (by rintro (e | _); exacts [⟨rfl, id⟩, ⟨rfl, rfl⟩])
    (hb.standing _)).mono ?_
  rintro x h' t' - ⟨rfl, r, rfl, rfl⟩
  exact ⟨rfl, rfl⟩

theorem writeAll_early (i : Ino) (b : Bytes) :
    Early E own q (Spent q.poisoned) (writeAll i b) h t fun _ h' _ => h' = h :=
  (early_io hb (by rintro (e | _); exacts [⟨rfl, id⟩, ⟨rfl, rfl⟩])
    (hb.standing _)).mono fun _ _ _ _ hx => hx.1

theorem pwriteAll_early (i : Ino) (b : Bytes) (k : Nat) :
    Early E own q (Spent q.poisoned) (pwriteAll i b k) h t fun _ h' _ => h' = h :=
  (early_io hb (by rintro (e | _); exacts [⟨rfl, id⟩, ⟨rfl, rfl⟩])
    (hb.standing _)).mono fun _ _ _ _ hx => hx.1

theorem fsync_early (i : Ino) : Early E own q (Spent q.poisoned) (fsync i) h t fun _ h' _ => h' = h :=
  (early_io hb (by rintro (e | _); exacts [⟨rfl, id⟩, ⟨rfl, rfl⟩])
    (hb.standing _)).mono fun _ _ _ _ hx => hx.1

theorem random128bit_early : Early E own q (Spent q.poisoned) random128bit h t fun _ h' _ => h' = h :=
  (early_io hb (by rintro (e | _); exacts [⟨rfl, nofun⟩, ⟨rfl, rfl⟩])
    (hb.standing _)).mono fun _ _ _ _ hx => hx.1

theorem looking_early {P : α → Prop} {m : LookM IoError α} (hm : m.Yields P) :
    Early E own q (Spent q.poisoned) (looking m) h t fun a h' t' => h' = h ∧ Looked t t' ∧ P a :=
  early_look hb hm (spent_none hb)

theorem clockBoottime_early :
    Early E own q (Spent q.poisoned) (looking clockBoottimeNs) h t fun now h' t' =>
      h' = h ∧ (⟨.look .clockBoottime, .ok now⟩ : Σ a : Act, a.Resp) ∈ t' := by
  refine ⟨trivial, fun r _ => ?_⟩
  cases r with
  | error e =>
    refine ⟨silent_call rfl, nofun, ?_⟩
    rintro _ ⟨⟩
    show Spent q.poisoned (shortage own (⟨.look .clockBoottime, .error e⟩ :: t)) e h
    rw [shortage_fine rfl, hb.shortage]
    exact spent_none hb e
  | ok now => exact ⟨silent_call rfl, by
      rintro _ ⟨⟩; exact ⟨hb.call rfl rfl, rfl, List.mem_cons_self⟩, nofun⟩

end Calls

/-! ## 2. Directories -/

section Directories

theorem recordDirty_early (hb : Before own q h t) (dir : Dir) :
    Early E own q (Spent q.poisoned) (recordDirty dir) h t fun _ h' t' => Looked t t' ∧ Alike h h' := by
  refine early_memory (.bind (looking_early hb yields_any) ?_)
  rintro dirty h' t' hb' - ⟨rfl, hl, -⟩
  refine (early_forget hb' ⟨rfl, rfl, rfl, rfl⟩).mono ?_
  rintro _ _ _ - ⟨rfl, rfl⟩
  exact ⟨hl, rfl, rfl, rfl, rfl⟩

theorem syncParentOf_early (hb : Before own q h t) {parent : Dir}
    (hd : parent ∈ made t) (deferred : Bool) (children : List Path) :
    Early E own q (Spent q.poisoned) (syncParentOf deferred parent children) h t fun _ _ _ => True := by
  refine early_ite (fun _ => ?_) fun _ => ?_
  · refine .bind (recordDirty_early hb parent) fun _ h₁ t₁ hb₁ _ _ => ?_
    exact (early_forget hb₁ ⟨rfl, rfl, rfl, rfl⟩).mono fun _ _ _ _ _ => trivial
  · refine .bind (fsyncDirFd_early hb hd) fun _ h₁ t₁ hb₁ _ _ => ?_
    exact (early_forget hb₁ ⟨rfl, rfl, rfl, rfl⟩).mono fun _ _ _ _ _ => trivial

theorem ensureComponents_early (hb : Before own q h t) (deferred : Bool)
    (parent : Dir) (comps : List Name) :
    Early E own q (Spent q.poisoned) (ensureComponents deferred parent comps) h t fun _ _ _ => True := by
  induction comps generalizing parent h t with
  | nil => exact early_pure hb trivial
  | cons comp rest ih =>
    refine .bind (looking_early hb yields_any) ?_
    rintro known _ t₁ hb₁ - ⟨rfl, -, -⟩
    refine early_ite (fun _ => ?_) fun _ => ?_
    · refine .bind (looking_early hb₁ yields_any) fun child h₂ t₂ hb₂ _ _ => ?_
      exact ih hb₂ child
    · refine .bind (mkdiratEexistOk_early hb₁ parent comp) ?_
      rintro _ _ t₂ hb₂ - ⟨rfl, hd⟩
      refine .bind (looking_early hb₂ yields_any) ?_
      rintro child _ t₃ hb₃ - ⟨rfl, hl, -⟩
      refine .bind (syncParentOf_early hb₃ (hl.made ▸ hd) deferred _) ?_
      rintro _ h₄ t₄ hb₄ - -
      exact ih hb₄ child

theorem mkdirAll_early (hb : Before own q h t) (dir : Dir)
    {names : List Name} (hd : names ≠ [] ∨ dir ∈ made t) :
    Early E own q (Spent q.poisoned) (mkdirAll dir names) h t fun _ _ t' => dir ∈ made t' := by
  induction names generalizing h t with
  | nil => exact early_pure hb (hd.resolve_left (absurd rfl))
  | cons name rest ih =>
    refine .bind (mkdiratEexistOk_early hb dir name) ?_
    rintro _ _ t₁ hb₁ - ⟨rfl, hd⟩
    exact ih hb₁ (.inr hd)

theorem shardNames_ne_nil (f : FormatRecord) : shardNames f ≠ [] := by
  have hpos : f.shardCount ≠ 0 := by
    intro hz
    have := f.shards.1
    rw [hz] at this
    revert this
    decide
  intro hnil
  have hlen := congrArg List.length hnil
  simp only [shardNames, List.length_map, List.length_range, List.length_nil] at hlen
  exact hpos (UInt32.toNat_inj.mp hlen)

theorem ensureDirUpTo_early (hb : Before own q h t) (deferred : Bool)
    (depth : Nat) (relative : Path) :
    Early E own q (Spent q.poisoned) (ensureDirUpTo deferred depth relative) h t fun _ _ _ => True := by
  induction depth generalizing relative h t with
  | zero => exact early_pure hb trivial
  | succ depth ih =>
    refine .bind (looking_early hb yields_any) ?_
    rintro known _ t₁ hb₁ - ⟨rfl, -, -⟩
    refine early_ite (fun _ => early_pure hb₁ trivial) fun _ => early_memory ?_
    dsimp only
    split
    · refine .bind (ih hb₁ _) fun _ h₂ t₂ hb₂ _ _ => ?_
      refine .bind (looking_early hb₂ yields_any) fun bucketDir h₃ t₃ hb₃ _ _ => ?_
      refine .bind (mkdirAll_early hb₃ bucketDir (.inl (shardNames_ne_nil _))) ?_
      exact fun _ h₄ t₄ hb₄ _ hd => syncParentOf_early hb₄ hd deferred _
    · exact ensureComponents_early hb₁ deferred _ _

theorem ensureDirWithDirty_early (hb : Before own q h t)
    (deferred : Bool) (relative : Path) :
    Early E own q (Spent q.poisoned) (ensureDirWithDirty deferred relative) h t fun _ _ _ => True :=
  ensureDirUpTo_early hb deferred _ relative

theorem openRelative_early (hb : Before own q h t) (path : Path) :
    Early E own q (Spent q.poisoned) (looking (openRelative path)) h t fun d h' _ => h' = h ∧ d.path = path :=
  (looking_early hb (openBelow_yields rootDir path)).mono fun _ _ _ _ hx => ⟨hx.1, hx.2.2⟩

end Directories

/-! ## 3. The wall floor -/

/-- While the watermark is replaced: a shortage is `ResourceExhausted`, unless it is met behind
    the rename, where it is an error that is not transient. -/
def Owed (p : Option PoisonReason) (s : Option Shortage) (e : Error) (h : Handle) : Prop :=
  h.poisoned = p ∧ ∀ k, s = some k →
    (k = .before ∧ e = .resourceExhausted) ∨ (k = .behind ∧ e.transient = false)

/-- A shortage is `ResourceExhausted` and leaves the handle usable, or it poisons. -/
def Charged (p : Option PoisonReason) (s : Option Shortage) (e : Error) (h : Handle) : Prop :=
  ∀ k, s = some k → (k = .before ∧ e = .resourceExhausted ∧ h.poisoned = p) ∨
    (k = .behind ∧ h.poisoned.isSome = true)

theorem Spent.owed {s : Option Shortage} {e : IoError} (hs : Spent p s e h) :
    Owed p s (Error.from e) h :=
  ⟨hs.1, fun k hk => .inl ⟨(hs.2 k hk).1, IoError.exhausted_iff.mp (hs.2 k hk).2⟩⟩

theorem Spent.charged {s : Option Shortage} {e : IoError} (hs : Spent p s e h) :
    Charged p s (Error.from e) h :=
  fun k hk => .inl ⟨(hs.2 k hk).1, IoError.exhausted_iff.mp (hs.2 k hk).2, hs.1⟩

theorem charged_none (e : Error) : Charged p none e h := nofun

theorem owed_none (hb : Before own q h t) (e : Error) : Owed q.poisoned none e h :=
  ⟨hb.alike.poisoned, nofun⟩

/-- An unlinked temporary file changes nothing of what is reported. -/
theorem meets_unlinked (own : Transfer → Bool) {d : Dir} {n : Name} {k : Except IoError Unit → QueueM ε α}
    {Q : Except ε α → Handle → CallLog → Prop}
    (hk : ∀ x t', Silent t t' → shortage own t' = shortage own t → (k x).Meets (recorder E) h t' Q) :
    (Task.attempt (unlinkat d n) >>= k).Meets (recorder E) h t Q :=
  meets_bind.mpr (Task.meets_attempt.mpr ⟨trivial, fun r _ =>
    hk r _ (silent_call (by cases r <;> rfl)) (shortage_fine (by cases r <;> rfl))⟩)

/-- No shortage is met at all, and the handle stays usable. -/
def Calmly (p : Option PoisonReason) (s : Option Shortage) (_ : ε) (h : Handle) : Prop :=
  s = none ∧ h.poisoned = p

theorem Calmly.owed {s : Option Shortage} {e : ε} (hs : Calmly p s e h) (e' : Error) :
    Owed p s e' h :=
  ⟨hs.2, fun k hk => by cases hs.1.symm.trans hk⟩

section Floor

variable (hb : Before own q h t)

include hb

theorem calm_look (m : LookM ε α) :
    Early E own q (Calmly q.poisoned) (looking m) h t fun _ h' _ => h' = h :=
  (early_look hb yields_any fun _ => ⟨rfl, hb.alike.poisoned⟩).mono
    fun _ _ _ _ hx => hx.1

theorem calm_mapLook {ε' : Type} (f : ε' → ε) (m : LookM ε' α) :
    Early E own q (Calmly q.poisoned) (Task.mapErr f (looking m)) h t fun _ h' _ => h' = h :=
  (calm_look hb m).mapErr fun _ _ _ hR => hR

theorem reopenWallWatermark_early (control : Dir) :
    Early E own q (Calmly q.poisoned) (reopenWallWatermark control) h t fun _ _ _ => True := by
  refine .bind (calm_mapLook hb _ _) ?_
  rintro data _ t₁ hb₁ - rfl
  refine .bind (calm_look hb₁ _) ?_
  rintro snapshot _ t₂ hb₂ - rfl
  split
  · exact early_remember (early_pure (hb₂.memory ⟨rfl, rfl, rfl, rfl⟩) trivial)
  · exact early_pure hb₂ trivial

theorem readWallWatermarkOnce_early (control : Dir) :
    Early E own q (Calmly q.poisoned) (readWallWatermarkOnce control) h t fun _ _ _ => True := by
  refine early_memory ?_
  split
  · exact reopenWallWatermark_early hb control
  · refine .bind (calm_look hb _) ?_
    rintro snapshot _ t₁ hb₁ - rfl
    split
    · exact early_pure hb₁ trivial
    · refine early_remember (reopenWallWatermark_early (hb₁.memory ?_) control)
      exact ⟨rfl, rfl, rfl, rfl⟩

theorem readWallWatermarkRounds_early (control : Dir) (attempts : Nat) :
    Early E own q (Calmly q.poisoned) (readWallWatermarkRounds control attempts) h t fun _ _ _ => True := by
  induction attempts generalizing h t with
  | zero => exact early_pure hb trivial
  | succ attempts ih =>
    refine .bind (readWallWatermarkOnce_early hb control) fun read h₁ t₁ hb₁ _ _ => ?_
    split
    · exact early_pure hb₁ trivial
    · exact ih hb₁

theorem tryReadWallWatermark_early (attempts : Nat) :
    Early E own q (Calmly q.poisoned) (tryReadWallWatermark attempts) h t fun _ _ _ => True := by
  refine .bind (calm_mapLook hb _ _) ?_
  rintro control _ t₁ hb₁ - rfl
  exact readWallWatermarkRounds_early hb₁ control attempts

theorem authenticatedWallFloorWithAttempts_early (attempts : Nat) :
    Early E own q (Calmly q.poisoned) (authenticatedWallFloorWithAttempts attempts) h t fun _ _ _ => True := by
  have calm {h : Handle} {t : CallLog} (hb : Before own q h t) (e : Error) :
      Calmly q.poisoned none e h :=
    ⟨rfl, hb.alike.poisoned⟩
  refine .bind ((tryReadWallWatermark_early hb attempts).mapErr fun _ _ _ hR => hR) ?_
  intro read h₁ t₁ hb₁ _ _
  refine early_ofOption hb₁ (calm hb₁ _) fun watermark _ => ?_
  refine .bind (calm_mapLook hb₁ _ _) ?_
  rintro clock _ t₂ hb₂ - rfl
  exact early_memory (early_ofOption hb₂ (calm hb₂ _) fun unixNs _ => early_pure hb₂ trivial)

theorem readWallWatermark_early :
    Early E own q (Calmly q.poisoned) readWallWatermark h t fun _ _ _ => True := by
  refine .bind (tryReadWallWatermark_early hb watermarkReadAttempts) fun read h₁ t₁ hb₁ _ _ => ?_
  cases read with
  | none => exact early_throw hb₁ ⟨rfl, hb₁.alike.poisoned⟩
  | some watermark => exact early_pure hb₁ trivial

/-- The temporary file is written and renamed over the watermark. -/
theorem writeWatermark_early {control : Dir} (hc : control.path = controlPath) (tmp : Ino)
    (tmpName : Name) (record : WatermarkRecord) :
    Early E own q (Spent q.poisoned) (do
        writeAll tmp record.encode
        fsync tmp
        renameat control tmpName control watermarkName : QueueM IoError Unit) h t
      fun _ h' t' => h' = h ∧ made t' = [] := by
  refine .bind (writeAll_early hb tmp _) ?_
  rintro _ _ t₁ hb₁ - rfl
  refine .bind (fsync_early hb₁ tmp) ?_
  rintro _ _ t₂ hb₂ - rfl
  refine (early_io hb₂ ?_ (hb₂.standing _)).mono ?_
  · rintro (e | _)
    · exact ⟨rfl, id⟩
    · exact ⟨if_pos hc, rfl⟩
  · rintro _ h₃ t₃ - ⟨rfl, r, hr, rfl⟩
    cases hr
    exact ⟨rfl, rfl⟩

theorem replaceWallWatermark_early {control : Dir} (hc : control.path = controlPath)
    (record : WatermarkRecord) :
    Early E own q (Owed q.poisoned) (replaceWallWatermark control record) h t fun _ _ _ => True := by
  refine .bind ((random128bit_early hb).mapErr fun _ _ _ => Spent.owed) ?_
  rintro random _ t₁ hb₁ - rfl
  refine .bind ((createExclusive_early hb₁ control _).mapErr fun _ _ _ => Spent.owed) ?_
  rintro tmp _ t₂ hb₂ - ⟨rfl, rfl⟩
  refine .attempt (writeWatermark_early hb₂ hc tmp _ record) ?_ ?_
  · rintro _ _ t₃ hb₃ - ⟨rfl, hmade⟩
    -- behind the rename: a shortage is reported as an io failure
    refine .mapErr (S := fun s e h => Owed q.poisoned s (.ioFailure ("watermark directory fsync: " ++ e.text)) h)
      ?_ fun _ _ _ hR => hR
    refine (early_call hb₃ (fun r => by rfl) ?_ fun r e he => ?_).mono fun _ _ _ _ _ => trivial
    · rintro (e | _) x hx
      · cases hx
      · rfl
    · refine ⟨hb₃.alike.poisoned, fun k hk => .inr ⟨?_, rfl⟩⟩
      split at hk
      · cases hk
        rw [hb₃.standing]
        simp only [hmade, List.not_mem_nil, if_false]
      · cases hk
  · intro e h₃ t₃ hs₃ hR
    refine meets_unlinked own fun x t₄ hs₄ hsame => ?_
    refine meets_throw.mpr ⟨hs₃.trans hs₄, nofun, ?_⟩
    rintro _ ⟨⟩
    rw [hsame]
    exact hR.owed

theorem advanceWallWatermarkLocked_early {control : Dir} (hc : control.path = controlPath)
    (observed : WallFloor) :
    Early E own q (Owed q.poisoned) (advanceWallWatermarkLocked observed control) h t fun _ _ _ => True := by
  refine early_memory (early_ofOption hb (owed_none hb _) fun observedBucket _ => ?_)
  refine .bind ((readWallWatermark_early hb).mapErr fun _ _ _ hR => hR.owed _) ?_
  intro wm h₁ t₁ hb₁ _ _
  refine early_ite (fun _ => ?_) fun _ => ?_
  · exact early_ofOption hb₁ (owed_none hb₁ _) fun durableNs _ => early_pure hb₁ trivial
  · refine early_ofOption hb₁ (owed_none hb₁ _) fun newSeq _ => ?_
    refine .bind (replaceWallWatermark_early hb₁ hc _) fun _ h₂ t₂ hb₂ _ _ => ?_
    exact early_pure hb₂ trivial

/-- The lock is released whatever the action did. -/
theorem withWallWatermarkWriteLock_early {action : Dir → QueueM Error α}
    (hact : ∀ control h t, control.path = controlPath → Before own q h t →
      Early E own q (Owed q.poisoned) (action control) h t fun _ _ _ => True) :
    Early E own q (Owed q.poisoned) (withWallWatermarkWriteLock action) h t fun _ _ _ => True := by
  refine .bind ((openRelative_early hb controlPath).mapErr fun _ _ _ => Spent.owed) ?_
  rintro control _ t₁ hb₁ - ⟨rfl, hc⟩
  refine .bind (Early.mapErr (S := Spent q.poisoned) (f := Error.from) (early_io hb₁
    (by rintro (e | _); exacts [⟨rfl, nofun⟩, ⟨rfl, rfl⟩]) (hb₁.standing _)) fun _ _ _ => Spent.owed) ?_
  rintro locked _ t₂ hb₂ - ⟨rfl, -⟩
  refine early_ite (fun _ => early_throw hb₂ (owed_none hb₂ _)) fun _ => ?_
  refine meets_bind.mpr (Task.meets_attempt.mpr (Task.Meets.mono (hact control _ _ hc hb₂) ?_))
  intro r h₃ t₃ hp
  refine then_ok.mpr (meets_bind.mpr ⟨trivial, fun u _ => then_ok.mpr ?_⟩)
  have hsame : shortage own (⟨.unlock .wallWatermark, u⟩ :: t₃) = shortage own t₃ :=
    shortage_fine rfl
  refine ⟨hp.silent.trans (silent_call rfl), fun a ha => ?_, fun e he => ?_⟩
  · obtain ⟨hb₃, -⟩ := hp.ok a ha
    exact ⟨hb₃.call rfl rfl, trivial⟩
  · show Owed q.poisoned (shortage own (⟨.unlock .wallWatermark, u⟩ :: t₃)) e h₃
    rw [hsame]
    exact hp.error e he

theorem stabilizedWallFloor_early :
    Early E own q (Owed q.poisoned) stabilizedWallFloor h t fun _ _ _ => True := by
  refine withWallWatermarkWriteLock_early hb fun control h t hc hb => ?_
  refine .bind ((authenticatedWallFloorWithAttempts_early hb _).weaken
    fun _ e _ hR => hR.owed e) ?_
  intro observed h₁ t₁ hb₁ _ _
  refine early_memory (early_ofOption hb₁ (owed_none hb₁ _) fun observedBucket _ => ?_)
  refine early_ite (fun _ => early_pure hb₁ trivial) fun _ => ?_
  exact advanceWallWatermarkLocked_early hb₁ hc observed

omit hb in
/-- The handle is poisoned by every error that is not transient. -/
theorem watermarkAuthority_early {m : QueueM Error α}
    (hm : Early E own q (Owed q.poisoned) m h t fun _ _ _ => True) :
    Early E own q (Charged q.poisoned) (watermarkAuthority m) h t fun _ _ _ => True := by
  refine .attempt hm (fun a h₁ t₁ hb₁ _ _ => early_pure hb₁ trivial) fun e h₁ t₁ hs₁ hR => ?_
  refine Task.meets_ite.mpr ⟨fun htr => ?_, fun htr => ?_⟩
  · refine meets_throw.mpr ⟨hs₁, nofun, ?_⟩
    rintro _ ⟨⟩ k hk
    rcases hR.2 k hk with ⟨rfl, rfl⟩ | ⟨-, he⟩
    · exact .inl ⟨rfl, rfl, hR.1⟩
    · rw [he] at htr
      cases htr
  · refine meets_bind.mpr (Task.meets_remember.mpr (then_ok.mpr ?_))
    refine meets_throw.mpr ⟨hs₁, nofun, ?_⟩
    rintro _ ⟨⟩ k hk
    rcases hR.2 k hk with ⟨-, rfl⟩ | ⟨rfl, -⟩
    · exact absurd rfl htr
    · exact .inr ⟨rfl, by simp [Handle.poison, hR.1]⟩

theorem stabilizeAndCache_early :
    Early E own q (Charged q.poisoned) stabilizeAndCache h t fun _ _ _ => True := by
  refine .bind (watermarkAuthority_early (stabilizedWallFloor_early hb)) ?_
  intro floor h₁ t₁ hb₁ _ _
  exact early_remember (early_pure (hb₁.memory ⟨rfl, rfl, rfl, rfl⟩) trivial)

theorem cachedFloor_early (cached : WallFloor) (attempts : Nat) :
    Early E own q (Charged q.poisoned) (cachedFloor cached attempts) h t fun _ _ _ => True := by
  refine .bind (watermarkAuthority_early
    ((authenticatedWallFloorWithAttempts_early hb attempts).weaken fun _ e _ hR => hR.owed e)) ?_
  intro authenticated h₁ t₁ hb₁ _ _
  refine early_memory (early_ofOption hb₁ (charged_none _) fun observedBucket _ => ?_)
  refine early_ite (fun _ => ?_) fun _ => early_pure hb₁ trivial
  exact early_remember (early_pure (hb₁.memory ⟨rfl, rfl, rfl, rfl⟩) trivial)

theorem wallFloorForMutationWithAttempts_early (attempts : Nat) :
    Early E own q (Charged q.poisoned) (wallFloorForMutationWithAttempts attempts) h t fun _ _ _ => True := by
  refine early_memory ?_
  split
  · exact stabilizeAndCache_early hb
  · refine .bind (cachedFloor_early hb _ attempts) fun floor h₁ t₁ hb₁ _ _ => ?_
    split
    · exact early_pure hb₁ trivial
    · exact stabilizeAndCache_early hb₁

/-- **A shortage while the floor is acquired is `ResourceExhausted`, or it poisons.** -/
theorem wallFloorForMutation_early :
    Early E own q (Charged q.poisoned) wallFloorForMutation h t
      fun floor _ t' => Floored t' floor := by
  have marks {m : Mark} {u : Unit} {t : CallLog} :
      shortage own (⟨.mark m, u⟩ :: t) = shortage own t := shortage_fine rfl
  refine meets_bind.mpr ⟨trivial, fun u _ => then_ok.mpr ?_⟩
  have hb₁ : Before own q h (⟨.mark .floorBegin, u⟩ :: t) := hb.call rfl rfl
  refine Early.after (silent_call rfl)
    (.attempt (wallFloorForMutationWithAttempts_early hb₁ watermarkReadAttempts) ?_ ?_)
  · intro floor h₂ t₂ hb₂ _ _
    refine meets_bind.mpr ⟨trivial, fun u _ => then_ok.mpr ?_⟩
    exact Task.meets_pure.mpr ⟨silent_call rfl, fun _ ha => ⟨hb₂.call rfl rfl, by
      cases ha; exact List.mem_cons_self⟩, nofun⟩
  · intro e h₂ t₂ hs₂ hR
    refine meets_bind.mpr ⟨trivial, fun u _ => then_ok.mpr ?_⟩
    refine meets_throw.mpr ⟨hs₂.trans (silent_call rfl), nofun, ?_⟩
    rintro _ ⟨⟩
    show Charged q.poisoned (shortage own (⟨.mark (.floorEnd none), u⟩ :: t₂)) e h₂
    rw [marks]
    exact hR

end Floor

/-! ## 4. The poison check -/

/-- Behind the check the handle is known to be usable. -/
theorem checkNotPoisoned_early (hb : Before own q h t) :
    Early E own q (Charged q.poisoned) (looking checkNotPoisoned) h t fun _ h' _ =>
      h' = h ∧ q.poisoned = none := by
  have hcheck : checkNotPoisoned.Always h fun r _ => ∀ u, r = .ok u → h.poisoned = none := by
    refine meets_bind.mpr (Task.meets_memory.mpr (then_ok.mpr ?_))
    split
    · exact meets_throw.mpr nofun
    · exact Task.meets_pure.mpr fun _ _ => ‹_›
  refine Task.Meets.mono (looking_looked hcheck) ?_
  rintro r h' t' ⟨rfl, hl, hr⟩
  refine ⟨hl.silent, fun u hu => ⟨hb.looked hl, rfl, hb.alike.poisoned.symm.trans (hr u hu)⟩, ?_⟩
  intro e _
  rw [hl.shortage, hb.shortage]
  exact charged_none e

end SteadQ
