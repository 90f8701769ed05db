/-
  File:      SteadQ/Recovery/Rules.lean
  Subject:   WHAT A RECOVERY PASS KEEPS, phase by phase.

  A pass is bookkeeping, looks, and a few calls that change the queue, each behind a check of the
  operation budget. An invariant of the pass that bookkeeping keeps (`Tolerant`) is kept by the
  whole walk of a phase, if it is kept by the visits of the entries and by the removal of
  directories (`walkPhase_preserves`).
-/
import SteadQ.Lib.Invariant
import SteadQ.Opened
import SteadQ.Recovery.Pass

namespace SteadQ

open Octet Interact
open Interact.Task (keeps_memory keeps_pure keeps_remember meets_bind meets_zoom preserves_bind
  preserves_pure then_ok yields_any yields_pure)

/-! ## 1. What is asked of an invariant -/

/-- What an invariant says of the parts of a cursor, of the names found in directories and of the
    offsets a directory is streamed from. -/
structure CursorFacts where
  position : RecoveryPhase → Option (List Name) → Prop
  retry : RecoveryHierarchyRetry → Prop
  raw : Name → Prop
  offset : Nat → Prop

/-- Nothing is said of the cursor. -/
def CursorFacts.none : CursorFacts :=
  ⟨fun _ _ => True, fun _ => True, fun _ => True, fun _ => True⟩

/-- The names of directories are named after their levels. -/
def Canonical (kinds : List LevelKind) (names : List Name) : Prop :=
  List.Forall₂ (fun kind name => kind.canonical name = true) kinds names

/-- The positions and retries the walk comes upon are of the kind said. -/
structure CursorFacts.Closed (F : CursorFacts) : Prop where
  fresh : ∀ phase, F.position phase .none
  entry : ∀ phase names raw, Canonical phase.kinds names → F.raw raw →
    F.position phase (some (names ++ [raw]))
  named : ∀ phase kind names done, done <+: phase.kinds → done ≠ [] → Canonical done names →
    F.retry ⟨phase, kind, names⟩
  start : F.offset 0

theorem CursorFacts.none_closed : CursorFacts.none.Closed :=
  ⟨fun _ => trivial, fun _ _ _ _ _ => trivial, fun _ _ _ _ _ _ _ => trivial, trivial⟩

/-- The changes of the cursor. -/
inductive CursorStep (F : CursorFacts) (k : RecoveryCursor) : RecoveryCursor → Prop where
  | save {phase : RecoveryPhase} {position : Option (List Name)} (h : F.position phase position) :
    CursorStep F k (k.save phase position)
  | remember {phase : RecoveryPhase} {kind : RecoveryHierarchyRetryKind} {components : List Name}
      (h : F.retry ⟨phase, kind, components⟩) :
    CursorStep F k (rememberHierarchyRetry k phase kind components).2
  | withoutOverflow (phase : RecoveryPhase) : CursorStep F k (k.withoutOverflow phase)
  | advanceFrontier {retry : RecoveryHierarchyRetry} (h : F.retry retry) :
    CursorStep F k (k.advanceFrontier retry)
  | dropFrontier (phase : RecoveryPhase) : CursorStep F k (k.dropFrontier phase)
  | resolveRetry {retry : RecoveryHierarchyRetry} (h : F.retry retry) :
    CursorStep F k (k.resolveRetry retry)
  | proceed (phase : RecoveryPhase) : CursorStep F k { k with phase := phase }
  | shard (shard : Option UInt32) : CursorStep F k { k with reapColocatedShard := shard }
  | stream {position : Option Nat} (h : ∀ n, position = some n → F.offset n) :
    CursorStep F k { k with reapColocatedPosition := position }

def Pass.withCursor (p : Pass) (k : RecoveryCursor) : Pass :=
  { p with handle := { p.handle with recoveryCursor := k } }

def Pass.withStats (p : Pass) (s : RecoveryStats) : Pass := { p with stats := s }

def Pass.withScan (p : Pass) (s : RecoveryScanStats) : Pass := { p with scan := s }

variable {τ ε α : Type} {D : Discipline Act.Resp τ} {J : Pass → τ → Prop} {F : CursorFacts}
  {c : PassContext}

/-- Looks keep the invariant, and so do statistics other than the operation count. -/
structure Books (D : Discipline Act.Resp τ) (J : Pass → τ → Prop) : Prop where
  look : ∀ l p t, J p t →
    D.allow t (.look l) ∧ ∀ r, D.expect t (.look l) r → J p (D.next t (.look l) r)
  stats : ∀ s p t, s.operationsAttempted = p.stats.operationsAttempted → J p t →
    J (p.withStats s) t

/-- All bookkeeping keeps the invariant. -/
structure Tolerant (D : Discipline Act.Resp τ) (F : CursorFacts) (J : Pass → τ → Prop) : Prop
    extends Books D J where
  cursor : ∀ k p t, CursorStep F p.handle.recoveryCursor k → J p t → J (p.withCursor k) t
  saved : ∀ phase p t, J p t → F.position phase (p.handle.recoveryCursor.saved phase)
  known : ∀ p t, J p t → ∀ r ∈ p.handle.recoveryCursor.hierarchyRetries, F.retry r
  resumed : ∀ p t, J p t → ∀ n, p.handle.recoveryCursor.reapColocatedPosition = some n → F.offset n
  closed : F.Closed

/-- Reading a directory keeps the invariant, and the names found are of the kind said. -/
def Reads (D : Discipline Act.Resp τ) (F : CursorFacts) (c : PassContext) (J : Pass → τ → Prop) :
    Prop :=
  ∀ dir p t, J p t → (readRecoveryDirectory c dir).Keeps D p t J fun r _ _ =>
    ∀ names, r = .ok names → ∀ name ∈ names, F.raw name

/-- Streaming a directory keeps what the visits keep, and stops at an offset of the kind said. -/
def Streams (D : Discipline Act.Resp τ) (F : CursorFacts) (c : PassContext) (J : Pass → τ → Prop) :
    Prop :=
  ∀ dir position visit, F.offset position → (∀ name, (visit name).Preserves D J) → ∀ p t, J p t →
    (streamRecoveryDirectory c dir position visit).Keeps D p t J fun r _ _ => F.offset r.2

/-- The operation budget is not spent. -/
def HasRoom (c : PassContext) (p : Pass) : Prop :=
  p.stats.operationsAttempted < c.budget.maxOperations.toNat

/-- The invariant with room for one more operation. -/
def Room (c : PassContext) (J : Pass → τ → Prop) (p : Pass) (t : τ) : Prop := J p t ∧ HasRoom c p

theorem Books.room (hb : Books D J) : Books D (Room c J) where
  look := fun l p t h => ⟨(hb.look l p t h.1).1, fun r hr => ⟨(hb.look l p t h.1).2 r hr, h.2⟩⟩
  stats := by
    rintro s p t hs ⟨hJ, hroom⟩
    refine ⟨hb.stats s p t hs hJ, ?_⟩
    show s.operationsAttempted < _
    rw [hs]
    exact hroom

/-! ## 2. Bookkeeping -/

section Bookkeeping

/-- A look leaves the pass as it is. -/
theorem lookHandle_keeps (hb : Books D J) (m : LookM ε α) {p : Pass} {t : τ} (h : J p t) :
    (lookHandle m).Keeps D p t J fun _ p' _ => p' = p := by
  have hpeek : (looking m).Preserves D fun (s : Handle) t => s = p.handle ∧ J p t :=
    Task.preserves_peek fun l s t hs => ⟨(hb.look l p t hs.2).1, fun r hr =>
      ⟨hs.1, (hb.look l p t hs.2).2 r hr⟩⟩
  refine meets_zoom.mpr (Task.meets_attempt.mpr ?_)
  refine Task.Meets.mono (hpeek p.handle t ⟨rfl, h⟩) ?_
  rintro r s' t' ⟨rfl, hJ⟩
  exact ⟨hJ, fun _ _ => rfl⟩

@[grind ←] theorem lookHandle_preserves (hb : Books D J) (m : LookM ε α) :
    (lookHandle m).Preserves D J :=
  fun _ _ h => Task.Meets.mono (lookHandle_keeps hb m h) fun _ _ _ hr => hr.1

/-- What a look yields, the pass is told. -/
theorem lookHandle_yields {m : LookM ε α} {K : α → Prop} (hm : m.Yields K) :
    (lookHandle m).Yields fun r => ∀ a, r = .ok a → K a := by
  intro p
  refine meets_zoom.mpr (Task.meets_attempt.mpr ?_)
  refine Task.meets_peek (fun _ => trivial) (fun _ _ => rfl) (Task.Meets.mono (hm p.handle) ?_)
  rintro r h _ hr _ ⟨⟩
  exact hr

theorem lookHandle_tells (hb : Books D J) {m : LookM ε α} {K : α → Prop} (hm : m.Yields K) {p : Pass}
    {t : τ} (h : J p t) :
    (lookHandle m).Keeps D p t J fun r p' _ => p' = p ∧ ∀ a, r = .ok a → K a :=
  Task.Meets.mono (Task.Meets.yields (lookHandle_keeps hb m h) (lookHandle_yields hm))
    fun _ _ _ hr => ⟨hr.1.1, fun a ha => ⟨hr.1.2 a ha, hr.2 a ha⟩⟩

theorem onHandle_fixes {κ : Type} {f : Pass → κ} (hf : ∀ p h, f (withHandle p h) = f p)
    (m : QueueM ε α) : (onHandle m).Fixes f :=
  fun p => meets_zoom.mpr (Task.Meets.mono (Task.always_of_forall fun _ => trivial)
    fun _ s _ _ => hf p s)

@[grind ←] theorem onStats_preserves (hb : Books D J) {f : RecoveryStats → RecoveryStats}
    (hf : ∀ s, (f s).operationsAttempted = s.operationsAttempted) : (onStats f).Preserves D J :=
  Task.preserves_remember fun p t h => hb.stats (f p.stats) p t (hf _) h

@[grind ←] theorem thisHandle_preserves : thisHandle.Preserves D J := fun _ _ h => h

/-- The handle read is the one of the pass. -/
theorem meets_thisHandle {k : Handle → PassM α} {p : Pass} {t : τ}
    {Q : Except Empty α → Pass → τ → Prop} (h : (k p.handle).Meets D p t Q) : (thisHandle >>= k).Meets D p t Q := by
  simpa [thisHandle] using h

@[grind ←] theorem recordError_preserves (hb : Books D J) (op : String) (path : Path)
    (err : String) : (recordError op path err).Preserves D J := onStats_preserves hb fun _ => rfl

@[grind ←] theorem exhaust_preserves (hb : Books D J) : exhaust.Preserves D J :=
  onStats_preserves hb fun _ => rfl

@[grind ←] theorem skipScan_preserves (hb : Books D J) : skipScan.Preserves D J :=
  onStats_preserves hb fun _ => rfl

@[grind ←] theorem blockPhase_preserves (hb : Books D J) (op : String) (path : Path)
    (err : String) : (blockPhase op path err).Preserves D J :=
  .bind (recordError_preserves hb _ _ _) fun _ => onStats_preserves hb fun _ => rfl

@[grind ←] theorem recordMoveFailure_preserves (hb : Books D J) (operation : String)
    (path : Path) (failure : MoveFailure) :
    (recordMoveFailure operation path failure).Preserves D J := by
  cases failure <;> exact recordError_preserves hb _ _ _

@[grind ←] theorem recordUnlinkFailure_preserves (hb : Books D J) (operation : String)
    (path : Path) (failure : UnlinkFailure) :
    (recordUnlinkFailure operation path failure).Preserves D J := by
  cases failure <;> exact recordError_preserves hb _ _ _

@[grind ←] theorem recordRemoveDirectoryFailure_preserves (hb : Books D J)
    (operation : String) (path : Path) (failure : RemoveDirectoryFailure) :
    (recordRemoveDirectoryFailure operation path failure).Preserves D J := by
  cases failure <;> exact recordError_preserves hb _ _ _

@[grind ←] theorem recordReplaceFailure_preserves (hb : Books D J) (operation : String)
    (path : Path) (failure : ReplaceFailure) :
    (recordReplaceFailure operation path failure).Preserves D J := by
  cases failure <;> exact recordError_preserves hb _ _ _

@[grind ←] theorem recordDirectoryError_preserves (hb : Books D J) (op : String) (path : Path)
    (e : RecoveryDirectoryError) : (recordDirectoryError op path e).Preserves D J := by
  cases e <;> unfold recordDirectoryError <;> grind

theorem onCursor_preserves (ht : Tolerant D F J) {f : RecoveryCursor → RecoveryCursor}
    (hf : ∀ k, CursorStep F k (f k)) : (onCursor f).Preserves D J :=
  Task.preserves_remember fun p t h => ht.cursor _ p t (hf p.handle.recoveryCursor) h

/-- Work goes on only while there is room for an operation. -/
theorem workBudgetExhausted_keeps (hb : Books D J) {p : Pass} {t : τ} (h : J p t) :
    (workBudgetExhausted c).Keeps D p t J fun spent p' _ => spent = false → HasRoom c p' := by
  refine keeps_memory ?_
  split
  · exact ⟨h, fun _ ha => by cases ha; nofun⟩
  · rename_i hroom
    refine Task.Keeps.bind (lookHandle_keeps hb _ h) fun read p' t' hJ hp => ?_
    subst hp
    split
    · exact ⟨hJ, fun _ _ _ => Nat.lt_of_not_le hroom⟩
    · refine Task.Keeps.bind ((blockPhase_preserves hb _ _ _).yields yields_any hJ)
        fun _ p'' t'' hJ _ => ⟨hJ, ?_⟩
      rintro _ ⟨⟩ ⟨⟩

@[grind ←] theorem workBudgetExhausted_preserves (hb : Books D J) (c : PassContext) :
    (workBudgetExhausted c).Preserves D J :=
  fun _ _ h => Task.Meets.mono (workBudgetExhausted_keeps hb h) fun _ _ _ hr => hr.1

end Bookkeeping

/-! ## 3. Directories -/

section Directories

/-- The invariant does not read what was scanned. -/
def ScanFree (J : Pass → τ → Prop) : Prop := ∀ s p t, J p t → J (p.withScan s) t

/-- The names of a listing. -/
theorem enumerate_keeps (hb : Books D J) {dir : Dir} {raw : Name → Prop}
    (hraw : ∀ t r, D.expect t (.look (.readDir dir)) r → ∀ name ∈ (listed r).1, raw name)
    {p : Pass} {t : τ} (h : J p t) :
    (lookHandle (enumerate dir)).Keeps D p t J fun r p' _ =>
      p' = p ∧ ∀ name ∈ (listed r).1, raw name := by
  refine ⟨(hb.look _ p t h).1, fun r hr => ⟨(hb.look _ p t h).2 r hr, ?_⟩⟩
  rintro _ ⟨⟩
  exact ⟨rfl, hraw t r hr⟩

theorem reads_of_scanFree (hb : Books D J) (hs : ScanFree J)
    (hraw : ∀ t dir r, D.expect t (.look (.readDir dir)) r → ∀ name ∈ (listed r).1, F.raw name) :
    Reads D F c J := by
  intro dir p t h
  refine keeps_memory ?_
  dsimp only
  split
  · exact ⟨h, by rintro _ ⟨⟩ _ ⟨⟩⟩
  · split
    · exact ⟨h, by rintro _ ⟨⟩ _ ⟨⟩⟩
    · refine keeps_remember ?_
      have h := hs { p.scan with directoriesRead := p.scan.directoriesRead + 1 } p t h
      refine Task.Keeps.bind (lookHandle_keeps hb _ h) fun opened p₁ t₁ h _ => ?_
      split
      · exact ⟨h, by rintro _ ⟨⟩ _ ⟨⟩⟩
      · refine Task.Keeps.bind (enumerate_keeps hb (hraw · dir) h) fun listing p₂ t₂ h ⟨_, hnames⟩ => ?_
        refine Task.Keeps.bind (lookHandle_keeps hb _ h) fun counted p₃ t₃ h _ => ?_
        split
        · rename_i e
          exact nomatch e
        · refine keeps_remember ?_
          have h := fun s => hs s p₃ t₃ h
          split
          · refine ⟨h _, ?_⟩
            rintro _ ⟨⟩ _ ⟨⟩
            exact hnames
          · exact ⟨h _, by rintro _ ⟨⟩ _ ⟨⟩⟩

/-- The next entry of a stream. -/
theorem nextEntry_keeps (hb : Books D J) {dir : Dir} {position : Nat}
    {K : Except IoError (Option (Name × Nat)) → Prop}
    (hK : ∀ t r, D.expect t (.look (.nextEntry dir position)) r → K r) {p : Pass} {t : τ}
    (h : J p t) :
    (lookHandle (nextEntry dir position)).Keeps D p t J fun r p' _ => p' = p ∧ K r := by
  refine ⟨(hb.look _ p t h).1, fun r hr => ⟨(hb.look _ p t h).2 r hr, ?_⟩⟩
  rintro _ ⟨⟩
  exact ⟨rfl, hK t r hr⟩

theorem streamEntries_keeps (hb : Books D J) (hs : ScanFree J) {dir : Dir}
    (hoffset : ∀ t position r, D.expect t (.look (.nextEntry dir position)) r →
      ∀ entry, r = .ok (some entry) → F.offset entry.2)
    {visit : Name → PassM Bool} (hvisit : ∀ name, (visit name).Preserves D J)
    (left : Nat) {position : Nat} (hposition : F.offset position) {p : Pass} {t : τ} (h : J p t) :
    (streamEntries c dir visit left position).Keeps D p t J fun r _ _ => F.offset r.2 := by
  -- whatever stops the stream, it stops at the offset it has reached
  have hstop : ∀ (x : Except RecoveryDirectoryError Bool) {position : Nat}, F.offset position →
      ∀ {p : Pass} {t : τ}, J p t →
      (pure (x, position) : PassM _).Keeps D p t J fun r _ _ => F.offset r.2 :=
    fun x _ hposition _ _ h => keeps_pure h hposition
  induction left generalizing position p t with
  | zero => exact hstop _ hposition h
  | succ left ih =>
    refine keeps_memory ?_
    dsimp only
    split
    · exact hstop _ hposition h
    · refine Task.Keeps.bind (lookHandle_keeps hb _ h) fun time p t h _ => ?_
      split
      · exact hstop _ hposition h
      · exact hstop _ hposition h
      · refine Task.Keeps.bind (nextEntry_keeps hb (hoffset · position) h)
          fun entry p t h hentry => ?_
        split
        · exact hstop _ hposition h
        · exact hstop _ hposition h
        · rename_i name next
          refine keeps_remember ?_
          refine Task.Keeps.bind ((hvisit name).yields yields_any (hs _ p t h))
            fun broken p t h _ => ?_
          split
          · exact hstop _ hposition h
          · exact ih (hentry.2 _ rfl) h

theorem streams_of_scanFree (hb : Books D J) (hs : ScanFree J)
    (hoffset : ∀ t dir position r, D.expect t (.look (.nextEntry dir position)) r →
      ∀ entry, r = .ok (some entry) → F.offset entry.2) : Streams D F c J := by
  intro dir position visit hposition hvisit p t h
  refine keeps_memory ?_
  split
  · exact keeps_pure h hposition
  · refine keeps_remember (Task.Keeps.bind (lookHandle_keeps hb _ (hs _ p t h))
      fun opened p t h _ => ?_)
    split
    · exact keeps_pure h hposition
    · exact streamEntries_keeps hb hs (hoffset · dir) hvisit _ hposition h

end Directories

/-! ## 4. The ledger -/

section Ledger

/-- A directory that is remembered is one the invariant knows. -/
theorem rememberHierarchyRetryOrBlock_preserves (ht : Tolerant D F J) {phase : RecoveryPhase}
    {kind : RecoveryHierarchyRetryKind} {components : List Name}
    (h : F.retry ⟨phase, kind, components⟩) (path : Path) :
    (rememberHierarchyRetryOrBlock phase kind components path).Preserves D J := by
  intro p t hJ
  refine meets_thisHandle ?_
  dsimp only
  have hJ := ht.cursor _ p t (.remember h) hJ
  refine meets_bind.mpr (Task.meets_remember.mpr ?_)
  refine (?_ : Task.Preserves D J _) _ _ hJ
  split
  · exact preserves_pure _
  · exact .bind (blockPhase_preserves ht.toBooks _ _ _) fun _ => preserves_pure _
  · exact .bind (blockPhase_preserves ht.toBooks _ _ _) fun _ => preserves_pure _

theorem rememberLevelRetry_preserves (ht : Tolerant D F J) {hy : Hierarchy}
    {kind : RecoveryHierarchyRetryKind} {place : Place} (h : F.retry ⟨hy.phase, kind, place.names⟩) :
    (rememberLevelRetry hy kind place).Preserves D J := by
  refine .bind (rememberHierarchyRetryOrBlock_preserves ht h _) fun go => ?_
  split <;> exact preserves_pure _

/-- The retry of a phase is one of the ledger. -/
theorem nextHierarchyRetry_mem {k : RecoveryCursor} {phase : RecoveryPhase}
    {retry : RecoveryHierarchyRetry} (h : nextHierarchyRetry k phase = some retry) :
    retry ∈ k.hierarchyRetries := by
  have hhead : ∀ r, (k.hierarchyRetries.filter fun r => r.phase = phase).head? = some r →
      r ∈ k.hierarchyRetries := fun r hr => List.mem_of_mem_filter (List.mem_of_mem_head? hr)
  unfold nextHierarchyRetry at h
  dsimp only at h
  split at h
  · exact hhead _ h
  · rcases Option.or_eq_some_iff.mp h with hfind | ⟨-, hfirst⟩
    · exact List.mem_of_mem_filter (List.mem_of_find?_eq_some hfind)
    · exact hhead _ hfirst

theorem prepareHierarchyRetryPhase_keeps (ht : Tolerant D F J) (phase : RecoveryPhase) {p : Pass}
    {t : τ} (h : J p t) :
    (prepareHierarchyRetryPhase phase).Keeps D p t J fun r _ _ =>
      ∀ retry, r = some retry → F.retry retry := by
  refine keeps_remember ?_
  have h := ht.cursor _ p t (.withoutOverflow phase) h
  refine meets_thisHandle ⟨h, ?_⟩
  rintro _ ⟨⟩ retry hretry
  exact ht.known _ t h retry (nextHierarchyRetry_mem hretry)

theorem enumerateRetry_preserves (hr : Reads D F c J) (retry : RecoveryHierarchyRetry)
    (found : Option Dir) : (enumerateRetry c retry found).Preserves D J := by
  unfold enumerateRetry
  split
  · refine preserves_bind (fun p t h => hr _ p t h) fun read p t h _ => ?_
    split <;> exact h
  · exact preserves_pure _

theorem retryOneHierarchyDirectory_preserves (ht : Tolerant D F J) (hr : Reads D F c J)
    (phase : RecoveryPhase) {retry : Option RecoveryHierarchyRetry}
    (hretry : ∀ r, retry = some r → F.retry r) (root : Dir) :
    (retryOneHierarchyDirectory c phase retry root).Preserves D J := by
  have hb := ht.toBooks
  unfold retryOneHierarchyDirectory
  split
  · exact .bind (onCursor_preserves ht fun _ => .dropFrontier _) fun _ => preserves_pure _
  · rename_i retry
    have hadvance : (onCursor (·.advanceFrontier retry)).Preserves D J :=
      onCursor_preserves ht fun _ => .advanceFrontier (hretry retry rfl)
    refine .bind (lookHandle_preserves hb _) fun found => ?_
    split
    · exact .bind (exhaust_preserves hb) fun _ => preserves_pure _
    · refine .bind (.bind (blockPhase_preserves hb _ _ _) fun _ => exhaust_preserves hb) fun _ => ?_
      exact preserves_pure _
    · refine .bind (skipScan_preserves hb) fun _ => .bind (blockPhase_preserves hb _ _ _) fun _ => ?_
      exact .bind hadvance fun _ => preserves_pure _
    · refine .bind (enumerateRetry_preserves hr _ _) fun result => ?_
      split
      · refine .bind (onCursor_preserves ht fun _ => .resolveRetry (hretry retry rfl)) fun _ => ?_
        exact preserves_pure _
      · refine .bind (recordDirectoryError_preserves hb _ _ _) fun stop => ?_
        split
        · exact preserves_pure _
        · refine .bind (skipScan_preserves hb) fun _ => .bind hadvance fun _ => ?_
          exact preserves_pure _

end Ledger

/-! ## 5. Changes of the queue -/

section Changes

def Pass.counted (p : Pass) : Pass :=
  p.withStats { p.stats with operationsAttempted := p.stats.operationsAttempted + 1 }

/-- A change of the queue that is counted first keeps the invariant. -/
def Spends (D : Discipline Act.Resp τ) (c : PassContext) (J : Pass → τ → Prop) (m : QueueM ε α) :
    Prop :=
  ∀ p t, J p t → HasRoom c p → (onHandle m).Meets D p.counted t fun _ p' t' => J p' t'

theorem Spends.bind {m : QueueM ε α} {β : Type} {k : Except ε α → PassM β} (hm : Spends D c J m)
    (hk : ∀ r, (k r).Preserves D J) :
    (countOperation >>= fun _ => onHandle m >>= k).Brings D (Room c J) J := by
  rintro p t ⟨h, hroom⟩
  refine meets_bind.mpr (Task.meets_remember.mpr (then_ok.mpr ?_))
  refine meets_bind.mpr (Task.Meets.mono (hm p t h hroom) fun r p' t' h => ?_)
  exact Task.then_intro (fun _ _ => h) fun a _ => hk a p' t' h

/-- Code that needs no room. -/
theorem roomy {m : PassM α} (hm : m.Preserves D J) : m.Brings D (Room c J) J :=
  fun p t h => hm p t h.1

theorem roomy_bind {β : Type} {m : PassM α} {k : α → PassM β} (hm : m.Preserves D (Room c J))
    (hk : ∀ a, (k a).Brings D (Room c J) J) : (m >>= k).Brings D (Room c J) J :=
  Task.Brings.bind hm (fun _ _ h => h.1) hk

end Changes

/-! ## 6. Places -/

/-- What is known of a place: the directory it is, and that its names are those of the levels
    passed. The flag of the first level tells the boot of some handle under the invariant, the
    shard of the last level its number. -/
structure Reached (J : Pass → τ → Prop) (hy : Hierarchy) (done : List LevelKind) (place : Place)
    (dir : Dir) : Prop where
  path : dir.path = hy.root :: place.names
  canonical : Canonical done place.names
  boot : done.head? = some .boot →
    ∃ p t, J p t ∧ place.currentBoot = decide (place.name 0 = p.handle.bootId)
  shard : ∀ above, done = above ++ [.shard] →
    place.shard = (shardFromHex (place.name above.length)).getD 0

/-- What a name found canonical makes of the place above it. -/
structure Named (J : Pass → τ → Prop) (kind : LevelKind) (place : Place) (raw : Name)
    (here : Place) : Prop where
  names : here.names = place.names ++ [raw]
  canonical : kind.canonical raw = true
  boot : kind = .boot → ∃ p t, J p t ∧ here.currentBoot = decide (raw = p.handle.bootId)
  other : kind ≠ .boot → here.currentBoot = place.currentBoot
  shard : kind = .shard → here.shard = (shardFromHex raw).getD 0

section Places

variable {hy : Hierarchy} {done : List LevelKind} {kind : LevelKind} {place here : Place}
  {dir : Dir} {raw : Name}

theorem directoryName_keeps (hb : Books D J) (kind : LevelKind) (operation : String)
    (place : Place) (raw : Name) {p : Pass} {t : τ} (h : J p t) :
    (directoryName kind operation place raw).Keeps D p t J fun r _ _ =>
      ∀ here, r = some here → Named J kind place raw here := by
  have hrefused : ∀ path err, (recordError operation path err >>= fun _ => pure none :
      PassM (Option Place)).Keeps D p t J fun r _ _ =>
        ∀ here, r = some here → Named J kind place raw here := by
    intro path err
    refine meets_bind.mpr (Task.Meets.mono (recordError_preserves hb _ _ _ p t h) ?_)
    intro r p' t' h'
    refine Task.then_intro (fun e => nomatch e) fun _ _ => ⟨h', ?_⟩
    rintro _ ⟨⟩ _ ⟨⟩
  refine meets_thisHandle ?_
  dsimp only
  split
  · exact hrefused _ _
  · split
    · exact hrefused _ _
    · rename_i hcanonical
      have hcanonical : kind.canonical raw = true := by simpa using hcanonical
      split
      · refine ⟨h, ?_⟩
        rintro _ ⟨⟩ _ ⟨⟩
        exact ⟨rfl, hcanonical, fun _ => ⟨p, t, h, rfl⟩, fun hk => absurd rfl hk, nofun⟩
      · refine ⟨h, ?_⟩
        rintro _ ⟨⟩ _ ⟨⟩
        exact ⟨rfl, hcanonical, nofun, fun _ => rfl, nofun⟩
      · split
        · exact hrefused _ _
        · refine ⟨h, ?_⟩
          rintro _ ⟨⟩ _ ⟨⟩
          exact ⟨rfl, hcanonical, nofun, fun _ => rfl, fun _ => rfl⟩

/-- Boots are at the top only. -/
theorem boot_first {phase : RecoveryPhase} {rest : List LevelKind}
    (h : done ++ .boot :: rest = phase.kinds) : done = [] := by
  rcases done with _ | ⟨a, _ | ⟨b, _ | ⟨d, done⟩⟩⟩
  · rfl
  all_goals cases phase <;> simp [RecoveryPhase.kinds] at h

theorem Reached.names_canonical (hs : Reached J hy done place dir) (hn : Named J kind place raw here) :
    Canonical (done ++ [kind]) here.names := by
  rw [hn.names]
  exact List.rel_append hs.canonical (.cons hn.canonical .nil)

theorem Reached.child {below : Dir} (hs : Reached J hy done place dir)
    (hn : Named J kind place raw here) (hpath : below.path = dir.path ++ [raw])
    (hfirst : kind = .boot → done = []) (prune : Bool) :
    Reached J hy (done ++ [kind]) { here with prune := prune } below where
  path := by rw [hpath, hs.path, hn.names, List.cons_append]
  canonical := (hs.names_canonical hn : Canonical _ here.names)
  boot := by
    intro hhead
    have hc := hs.canonical
    have hnames := hn.names
    cases hdone : done with
    | nil =>
      subst hdone
      cases place with
      | mk names currentBoot bucket shard pr =>
        cases hc
        cases hhead
        obtain ⟨p, t, hJ, hcurrent⟩ := hn.boot rfl
        exact ⟨p, t, hJ, by simpa [Place.name, hnames] using hcurrent⟩
    | cons first done' =>
      subst hdone
      have hkind : kind ≠ .boot := fun hk => by cases hfirst hk
      obtain ⟨p, t, hJ, hcurrent⟩ := hs.boot hhead
      refine ⟨p, t, hJ, ?_⟩
      have hname : Place.name { here with prune := prune } 0 = place.name 0 := by
        obtain ⟨names, currentBoot, bucket, shard, pr⟩ := place
        cases hc
        simp [Place.name, hnames]
      rw [hname, ← hcurrent]
      exact hn.other hkind
  shard := by
    intro above habove
    obtain ⟨rfl, hkind⟩ := List.append_inj' habove rfl
    have hlength : place.names.length = done.length := hs.canonical.length_eq.symm
    have hlast : Place.name { here with prune := prune } done.length = raw := by
      simp [Place.name, hn.names, ← hlength]
    rw [hlast]
    exact hn.shard (List.cons.inj hkind).1

end Places

/-! ## 7. The walk -/

section Walk

variable {hy : Hierarchy} {done : List LevelKind}

/-- The visits of the entries, each with room for one operation. -/
def Visits (D : Discipline Act.Resp τ) (F : CursorFacts) (c : PassContext) (J : Pass → τ → Prop)
    (hy : Hierarchy) : Prop :=
  ∀ place dir raw, Reached J hy hy.phase.kinds place dir → F.raw raw →
    (hy.visit place dir raw).Brings D (Room c J) J

theorem pruneEmptyDirectory_preserves (hb : Books D J) {parent : Dir} {name : Name}
    (h : Spends D c J (removeEmptyDirectoryVerified parent name)) (operation : String)
    (path : Path) : (pruneEmptyDirectory c parent name operation path).Preserves D J := by
  refine preserves_bind (fun p t => workBudgetExhausted_keeps hb) fun spent p t hJ hroom => ?_
  split
  · exact (Task.Preserves.bind (exhaust_preserves hb) fun _ => preserves_pure _) p t hJ
  · rename_i hspent
    refine h.bind (fun removed => ?_) p t ⟨hJ, hroom (by simpa using hspent)⟩
    split
    · exact preserves_pure _
    · exact preserves_pure _
    · exact preserves_pure _
    · exact .bind (recordRemoveDirectoryFailure_preserves hb _ _ _) fun _ => preserves_pure _

/-- A level counts the directories it removes in statistics of its own. -/
def Counts (level : Level) : Prop :=
  ∀ s, (level.removed s).operationsAttempted = s.operationsAttempted

theorem pruneLevel_preserves (hb : Books D J) {parent : Dir} {name : Name}
    (h : Spends D c J (removeEmptyDirectoryVerified parent name)) {level : Level}
    (hlevel : Counts level) (place : Place) (gone observed absent : Nat) :
    (pruneLevel c hy level parent name place gone observed absent).Preserves D J := by
  unfold pruneLevel
  split
  · exact preserves_pure _
  · refine .bind (pruneEmptyDirectory_preserves hb h _ _) fun pruned => ?_
    split
    · exact .bind (onStats_preserves hb hlevel) fun _ => preserves_pure _
    · exact preserves_pure _
    · exact preserves_pure _
    · exact preserves_pure _

theorem walkEntries_preserves (ht : Tolerant D F J) {place : Place} {dir : Dir}
    (hreached : Reached J hy hy.phase.kinds place dir) (hvisit : Visits D F c J hy)
    (entries : List Name) (hraw : ∀ raw ∈ entries, F.raw raw) (absent : Nat) :
    (walkEntries c hy place dir entries absent).Preserves D J := by
  have hb := ht.toBooks
  induction entries generalizing absent with
  | nil => exact preserves_pure _
  | cons raw rest ih =>
    have ih := ih fun raw h => hraw raw (List.mem_cons_of_mem _ h)
    have hhere := hraw raw List.mem_cons_self
    intro p t hJ
    refine meets_thisHandle ?_
    have hposition := ht.saved hy.phase p t hJ
    generalize p.handle.recoveryCursor.saved hy.phase = position at hposition ⊢
    dsimp only
    split
    · exact ih absent p t hJ
    · refine preserves_bind (fun p t => workBudgetExhausted_keeps hb)
        (fun spent p t hJ hroom => ?_) p t hJ
      split
      · exact (Task.Preserves.bind (exhaust_preserves hb) fun _ => preserves_pure _) p t hJ
      · rename_i hspent
        have hsave : CursorStep F p.handle.recoveryCursor
            (p.handle.recoveryCursor.save hy.phase (some (place.names ++ [raw]))) :=
          .save (ht.closed.entry hy.phase place.names raw hreached.canonical hhere)
        have hroom : Room c J (p.withCursor _) t :=
          ⟨ht.cursor _ p t hsave hJ, hroom (by simpa using hspent)⟩
        refine meets_bind.mpr (Task.meets_remember.mpr (then_ok.mpr ?_))
        refine (?_ : Task.Brings D (Room c J) J _) _ t hroom
        split
        · exact roomy (.bind (recordError_preserves hb _ _ _) fun _ => ih absent)
        · refine .bind (hvisit place dir raw hreached hhere) (fun _ _ h => h) fun outcome => ?_
          split
          · exact ih _
          · exact ih _
          · exact Task.Preserves.bind (onCursor_preserves ht fun _ => .save hposition) fun _ =>
              preserves_pure _
          · exact preserves_pure _

/-- A directory that was entered is the one named, and its entries are of the kind said. -/
theorem descendLevel_keeps (ht : Tolerant D F J) (hr : Reads D F c J) (level : Level)
    (parent : Dir) (name : Name) {place : Place}
    (hplace : ∀ kind, F.retry ⟨hy.phase, kind, place.names⟩) {p : Pass} {t : τ} (h : J p t) :
    (descendLevel c hy level parent name place).Keeps D p t J fun r _ _ =>
      ∀ dir names, r = .entries dir names →
        dir.path = parent.path ++ [name] ∧ ∀ raw ∈ names, F.raw raw := by
  have hb := ht.toBooks
  -- the other outcomes say nothing
  have hother : ∀ kind, (rememberLevelRetry hy kind place).Yields fun r =>
      ∀ dir names, r = .entries dir names →
        dir.path = parent.path ++ [name] ∧ ∀ raw ∈ names, F.raw raw := by
    intro kind
    refine .bind yields_any fun kept _ => ?_
    split <;> exact yields_pure nofun
  refine Task.Keeps.bind ((lookHandle_preserves hb _).yields
    (lookHandle_yields (openBelow_yields parent [name])) h) fun opened p t h hopened => ?_
  split
  · refine Task.Preserves.yields ?_ ?_ h
    · exact .bind (skipScan_preserves hb) fun _ => .bind (blockPhase_preserves hb _ _ _) fun _ =>
        rememberLevelRetry_preserves ht (hplace _)
    · exact .bind yields_any fun _ _ => .bind yields_any fun _ _ => hother _
  · rename_i dir
    refine Task.Keeps.bind (hr dir p t h) fun read p t h hread => ?_
    split
    · rename_i names
      refine ⟨h, ?_⟩
      rintro _ ⟨⟩ _ _ ⟨⟩
      refine ⟨hopened dir rfl, fun raw hmem => hread names rfl raw ?_⟩
      exact (List.mem_insertionSort _).mp hmem
    · refine Task.Preserves.yields ?_ ?_ h
      · refine .bind (skipScan_preserves hb) fun _ =>
          .bind (recordDirectoryError_preserves hb _ _ _) fun stop => ?_
        split
        · exact preserves_pure _
        · exact rememberLevelRetry_preserves ht (hplace _)
      · refine .bind yields_any fun _ _ => .bind yields_any fun stop _ => ?_
        split
        · exact yields_pure nofun
        · exact hother _

/-- What is asked of the levels of a phase. -/
structure Levels (D : Discipline Act.Resp τ) (c : PassContext) (J : Pass → τ → Prop)
    (levels : List Level) : Prop where
  counts : ∀ level ∈ levels, Counts level
  admits : ∀ level ∈ levels, ∀ place, (level.admits place).Preserves D J
  removes : ∀ parent name, parent.path ≠ [] →
    Spends D c J (removeEmptyDirectoryVerified parent name)

/-- The directories of one level, given the walk below them. -/
theorem walkLevel_preserves (ht : Tolerant D F J) (hr : Reads D F c J) {level : Level}
    {rest : List LevelKind} (hlevels : Levels D c J [level])
    (hkinds : done ++ level.kind :: rest = hy.phase.kinds)
    {below : Place → Dir → List Name → PassM (Option Nat)}
    (hbelow : ∀ place dir names, Reached J hy (done ++ [level.kind]) place dir →
      (∀ raw ∈ names, F.raw raw) → (below place dir names).Preserves D J)
    {place : Place} {dir : Dir} (hreached : Reached J hy done place dir) (entries : List Name)
    (absent : Nat) : (walkLevel c hy level below place dir entries absent).Preserves D J := by
  have hb := ht.toBooks
  have hlevel := List.mem_singleton.mpr (rfl : level = level)
  have hfirst : level.kind = .boot → done = [] := fun hk => boot_first (hk ▸ hkinds)
  induction entries generalizing absent with
  | nil => exact preserves_pure _
  | cons raw entries ih =>
    refine .bind thisHandle_preserves fun h => ?_
    dsimp only
    split
    · exact ih absent
    · have hspent : (if level.checksWork then workBudgetExhausted c else pure false :
          PassM Bool).Preserves D J := by
        split
        · exact workBudgetExhausted_preserves hb c
        · exact preserves_pure _
      refine .bind hspent fun spent => ?_
      split
      · exact .bind (exhaust_preserves hb) fun _ => preserves_pure _
      · refine preserves_bind (fun p t => directoryName_keeps hb _ _ _ _)
          fun found p t hJ hfound => ?_
        split
        · exact ih absent p t hJ
        · rename_i here
          have hnamed := hfound here rfl
          refine (Task.Preserves.bind (hlevels.admits level hlevel here) fun admitted => ?_) p t hJ
          split
          · exact ih absent
          · exact preserves_pure _
          · rename_i prune
            have hretry : ∀ kind, F.retry ⟨hy.phase, kind, here.names⟩ := fun kind =>
              ht.closed.named hy.phase kind here.names (done ++ [level.kind])
                ⟨rest, by simpa using hkinds⟩ (by simp) (hreached.names_canonical hnamed)
            have hdescend : ∀ p t, J p t →
                (descendLevel c hy level dir raw { here with prune := prune }).Keeps D p t J
                  fun r _ _ => ∀ child names, r = .entries child names →
                    child.path = dir.path ++ [raw] ∧ ∀ raw ∈ names, F.raw raw :=
              fun p t => descendLevel_keeps ht hr level dir raw hretry
            refine preserves_bind hdescend fun descended p t hJ hdescended => ?_
            split
            · exact ih absent p t hJ
            · exact hJ
            · rename_i child names
              obtain ⟨hpath, hraw⟩ := hdescended child names rfl
              have hchild := hreached.child hnamed hpath hfirst prune
              refine (Task.Preserves.bind (hbelow _ child names hchild hraw) fun gone => ?_) p t hJ
              split
              · exact preserves_pure _
              · have hdeep : dir.path ≠ [] := by simp [hreached.path]
                refine .bind (pruneLevel_preserves hb (hlevels.removes dir raw hdeep)
                  (hlevels.counts level hlevel) _ _ _ _) fun next => ?_
                split
                · exact preserves_pure _
                · exact ih _

/-- **The walk of a hierarchy keeps what its visits keep.** -/
theorem walk_preserves (ht : Tolerant D F J) (hr : Reads D F c J) (hvisit : Visits D F c J hy)
    {levels : List Level} (hlevels : Levels D c J levels)
    (hkinds : done ++ levels.map Level.kind = hy.phase.kinds) {place : Place} {dir : Dir}
    (hreached : Reached J hy done place dir) (names : List Name) (hraw : ∀ raw ∈ names, F.raw raw) :
    (walk c hy levels place dir names).Preserves D J := by
  induction levels generalizing done place dir names with
  | nil =>
    have hdone : done = hy.phase.kinds := by simpa using hkinds
    exact walkEntries_preserves ht (hdone ▸ hreached) hvisit names hraw 0
  | cons level levels ih =>
    have htail : Levels D c J levels :=
      ⟨fun l hl => hlevels.counts l (List.mem_cons_of_mem _ hl),
        fun l hl => hlevels.admits l (List.mem_cons_of_mem _ hl), hlevels.removes⟩
    have hhead : Levels D c J [level] := by
      refine ⟨?_, ?_, hlevels.removes⟩
      · intro l hl
        exact hlevels.counts l (List.mem_singleton.mp hl ▸ List.mem_cons_self)
      · intro l hl
        exact hlevels.admits l (List.mem_singleton.mp hl ▸ List.mem_cons_self)
    refine walkLevel_preserves ht hr hhead hkinds ?_ hreached names 0
    intro place dir names hreached hraw
    exact ih htail (by simpa using hkinds) hreached names hraw

theorem walkPhase_preserves (ht : Tolerant D F J) (hr : Reads D F c J) (hvisit : Visits D F c J hy)
    {levels : List Level} (hlevels : Levels D c J levels)
    (hkinds : levels.map Level.kind = hy.phase.kinds) {dir : Dir} (hdir : dir.path = [hy.root])
    (names : List Name) (hraw : ∀ raw ∈ names, F.raw raw) :
    (walkPhase c hy levels dir names).Preserves D J := by
  have hroot : Reached J hy [] ⟨[], false, 0, 0, false⟩ dir := ⟨hdir, .nil, nofun, by simp⟩
  refine .bind (walk_preserves ht hr hvisit hlevels hkinds hroot names hraw) fun finished => ?_
  split
  · exact preserves_pure _
  · refine .bind (onCursor_preserves ht fun _ => .save (ht.closed.fresh _)) fun _ => ?_
    exact preserves_pure _

/-- The root of a phase is the one its hierarchy names. -/
theorem openPhase_keeps (ht : Tolerant D F J) (hr : Reads D F c J) {ready : PassM Bool}
    (hready : ready.Preserves D J) (openOperation readOperation : String) {p : Pass} {t : τ}
    (h : J p t) :
    (openPhase c hy openOperation readOperation ready).Keeps D p t J fun r _ _ =>
      ∀ dir names, r = some (dir, names) → dir.path = [hy.root] ∧ ∀ raw ∈ names, F.raw raw := by
  have hb := ht.toBooks
  refine Task.Keeps.bind ((lookHandle_preserves hb _).yields
    (lookHandle_yields (openBelow_yields rootDir [hy.root])) h) fun opened p t h hopened => ?_
  split
  · refine Task.Preserves.yields ?_ ?_ h
    · exact .bind (blockPhase_preserves hb _ _ _) fun _ => preserves_pure _
    · exact .bind yields_any fun _ _ => yields_pure nofun
  · rename_i dir
    refine Task.Keeps.bind (prepareHierarchyRetryPhase_keeps ht hy.phase h)
      fun retry p t h hretry => ?_
    refine Task.Keeps.bind ((retryOneHierarchyDirectory_preserves ht hr hy.phase hretry
      dir).yields yields_any h) fun stop p t h _ => ?_
    split
    · exact ⟨h, by rintro _ ⟨⟩ _ _ ⟨⟩⟩
    · refine Task.Keeps.bind (hready.yields yields_any h) fun go p t h _ => ?_
      split
      · refine Task.Keeps.bind (hr dir p t h) fun read p t h hread => ?_
        split
        · refine Task.Preserves.yields ?_ ?_ h
          · exact .bind (recordDirectoryError_preserves hb _ _ _) fun _ => preserves_pure _
          · exact .bind yields_any fun _ _ => yields_pure nofun
        · rename_i names
          refine ⟨h, ?_⟩
          rintro _ ⟨⟩ _ _ ⟨⟩
          refine ⟨hopened dir rfl, fun raw hmem => hread names rfl raw ?_⟩
          exact (List.mem_insertionSort _).mp hmem
      · exact ⟨h, by rintro _ ⟨⟩ _ _ ⟨⟩⟩

end Walk

end SteadQ
