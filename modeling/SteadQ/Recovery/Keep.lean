/-
  File:      SteadQ/Recovery/Keep.lean
  Subject:   WHAT THE FIVE PHASES KEEP.

  The phases differ in the changes they make to the queue. `Works` asks of an invariant that each
  of those keeps it when it is counted first; then every phase keeps it, and so does the pass
  (`runPhases_preserves`). `Condemns` is what the checks in front of a quarantine tell.
-/
import SteadQ.Recovery.Rules

namespace SteadQ

open Octet Interact
open Interact.Task (fixes_pure fixes_throw meets_bind preserves_bind preserves_pure then_intro
  then_ok)

variable {τ ε α : Type} {D : Discipline Act.Resp τ} {J : Pass → τ → Prop} {F : CursorFacts}
  {c : PassContext} {Bad : τ → Dir → Name → Prop} {Fine : τ → Dir → Name → VerifiedReceipt → Prop}

/-! ## 1. What is asked of the changes -/

/-- A lease that may be reaped: where it lies, and that on this boot its deadline is over. -/
inductive Expired (J : Pass → τ → Prop) (c : PassContext) (dir : Dir) (parsed : LeasedName) :
    Prop where
  | leased {place : Place}
      (hreached : Reached J (reapHierarchy c) RecoveryPhase.reapLeases.kinds place dir)
      (hdue : ¬ (place.currentBoot ∧ parsed.boottimeDeadlineNs > c.boottimeNow)) :
    Expired J c dir parsed
  | colocated {shard : UInt32} (hdir : dir.path = readyShardDir shard) {p : Pass} {t : τ}
      (hJ : J p t) (hdue : ¬ (formatBootId parsed.bootId = p.handle.bootId ∧
        parsed.boottimeDeadlineNs > c.boottimeNow)) :
    Expired J c dir parsed

/-- The context an active object is validated in: that of its directory, or that of its name if
    it is a lease next to the ready jobs. -/
inductive ActivePathContext.Of (format : FormatRecord) (entry : Name) :
    Path → ActivePathContext → Prop where
  | leased (boot bucket shard : Name) :
    Of format entry [leasedRoot, boot, bucket, shard] (.leased boot bucket shard)
  | delayed (bucket shard : Name) :
    Of format entry [delayedRoot, bucket, shard] (.delayed bucket shard)
  | colocated {parsed : LeasedName} {bucket : UInt64} (shard : UInt32)
      (hparsed : parseLeased entry = .ok parsed)
      (hbucket : leaseBucket parsed.boottimeDeadlineNs format.leaseBucketWidthNs = some bucket) :
    Of format entry (readyShardDir shard)
      (.leased (formatBootId parsed.bootId) (bucketHex bucket) (shardHex shard))

/-- What the checks tell: `Bad` of an object that can never become valid, `Fine` of a receipt that
    was verified. -/
structure Condemns (D : Discipline Act.Resp τ) (J : Pass → τ → Prop)
    (Bad : τ → Dir → Name → Prop) (Fine : τ → Dir → Name → VerifiedReceipt → Prop) : Prop where
  unparsedLease : ∀ {dir boot bucket shard entry e}, dir.path = [leasedRoot, boot, bucket, shard] →
    parseLeased entry = .error e → ∀ p t, J p t → Bad t dir entry
  unparsedDelayed : ∀ {dir bucket shard entry e}, dir.path = [delayedRoot, bucket, shard] →
    parseDelayed entry = .error e → ∀ p t, J p t → Bad t dir entry
  unparsedReceipt : ∀ {dir bucket shard entry e}, dir.path = [receiptsRoot, bucket, shard] →
    parseReceipt entry = .error e → ∀ p t, J p t → Bad t dir entry
  active : ∀ {dir entry ctx p t}, J p t → ctx.Of p.handle.format entry dir.path →
    (lookHandle (validateActiveObject dir entry ctx)).Keeps D p t J fun r p' t' =>
      p' = p ∧ ∀ why, r = .error (.queueCorrupt why) → Bad t' dir entry
  receipts : ∀ {dir bucket shard} (entry : Name) {p t}, J p t →
    dir.path = [receiptsRoot, bucket, shard] →
    (lookHandle (openAt dir entry)).Keeps D p t J fun opened p' t' => p' = p ∧
      ∀ file, opened = .ok file →
        (onHandle (tryOfdWriteLock (.file file))).Keeps D p t' J fun _ p' t' =>
          p'.stats = p.stats ∧
          (lookHandle (verifyReceiptOnFd file ⟨bucket, shard, entry⟩ none)).Keeps D p' t' J
            fun r p'' t' => p'' = p' ∧ (∀ receipt, r = .ok receipt → Fine t' dir entry receipt) ∧
              ∀ e reason, r = .error e → receiptQuarantineReason e = some reason →
                Bad t' dir entry

/-- Every change of the queue keeps the invariant. -/
structure Works (D : Discipline Act.Resp τ) (c : PassContext) (J : Pass → τ → Prop)
    (Bad : τ → Dir → Name → Prop) (Fine : τ → Dir → Name → VerifiedReceipt → Prop) : Prop where
  condemns : Condemns D J Bad Fine
  quarantine : ∀ src name path reason p t, J p t → Bad t src name →
    (quarantineRecoveryObject c src name path reason).Meets D p t fun _ p' t' => J p' t'
  removes : ∀ parent name, parent.path ≠ [] →
    Spends D c J (removeEmptyDirectoryVerified parent name)
  unlinks : ∀ dir name, (dir.path.head? = some tmpRoot ∨ dir.path.head? = some receiptsRoot) →
    Spends D c J (unlinkVerified dir name)
  reaps : ∀ dir entry parsed place, parseLeased entry = .ok parsed →
    parsed.common.attempt < parsed.common.maximumAttempts →
    Reached J (reapHierarchy c) RecoveryPhase.reapLeases.kinds place dir →
    Expired J c dir parsed → Spends D c J (reapToReady dir place.shard entry parsed.common)
  reapsColocated : ∀ dir entry parsed shard, parseLeased entry = .ok parsed →
    parsed.common.attempt < parsed.common.maximumAttempts →
    dir.path = readyShardDir shard → Expired J c dir parsed →
    Spends D c J (reapColocatedToReady dir entry parsed.common)
  buries : ∀ dir entry parsed reason floor, parseLeased entry = .ok parsed →
    Expired J c dir parsed → Spends D c J (reapToDead dir entry parsed.common reason floor)
  promotes : ∀ dir bucket shard entry parsed, parseDelayed entry = .ok parsed →
    dir.path = [delayedRoot, bucket, shard] →
    Spends D c J (promoteToReady dir shard entry parsed.common)
  compacts : ∀ dir bucket shard entry receipt job start p t,
    dir.path = [receiptsRoot, bucket, shard] → (∃ parsed, parseReceipt entry = .ok parsed) →
    Room c J p t → Fine t dir entry receipt → receipt.kind = .full job →
    checkedMulU64 receipt.bucketNumber p.handle.format.terminalBucketWidthNs = some start →
    (replaceByCompact dir entry dir.path ⟨receipt.device, receipt.inode⟩
      (compactReceiptOf receipt.name job.header start).encode).Meets D p t fun _ p' t' => J p' t'
  locks : ∀ lock, (onHandle (tryOfdWriteLock lock)).Preserves D J
  unlocks : ∀ lock, (onHandle (ε := Empty) (unlockFile lock)).Preserves D J

section Visits

/-- The path of a place below three levels. -/
theorem Reached.path_three {hy : Hierarchy} {a b d : LevelKind} {place : Place} {dir : Dir}
    (hs : Reached J hy [a, b, d] place dir) :
    dir.path = [hy.root, place.name 0, place.name 1, place.name 2] := by
  have hc := hs.canonical
  rw [hs.path]
  generalize hnames : place.names = names at hc
  obtain _ | ⟨_, _ | ⟨_, _ | ⟨_, _ | _⟩⟩⟩ := hc
  simp [Place.name, hnames]

theorem Reached.path_two {hy : Hierarchy} {a b : LevelKind} {place : Place} {dir : Dir}
    (hs : Reached J hy [a, b] place dir) :
    dir.path = [hy.root, place.name 0, place.name 1] := by
  have hc := hs.canonical
  rw [hs.path]
  generalize hnames : place.names = names at hc
  obtain _ | ⟨_, _ | ⟨_, _ | _⟩⟩ := hc
  simp [Place.name, hnames]

theorem quarantineEntry_keeps (hw : Works D c J Bad Fine) {dir : Dir} {entry : Name} (path : Path)
    (reason : QuarantineReason) {p : Pass} {t : τ} (h : J p t) (hbad : Bad t dir entry) :
    (quarantineEntry c dir entry path reason).Meets D p t fun _ p' t' => J p' t' := by
  refine meets_bind.mpr (Task.Meets.mono (hw.quarantine dir entry path reason p t h hbad) ?_)
  intro r p' t' h'
  refine then_intro (fun e => nomatch e) fun done _ => ?_
  split <;> exact h'

/-- A condemned object is recorded and quarantined; the record leaves the queue as it is. -/
theorem recordQuarantine_keeps (hb : Books D J) (hw : Works D c J Bad Fine) {dir : Dir}
    {entry : Name} (op : String) (path : Path) (err : String) (reason : QuarantineReason) {p : Pass}
    {t : τ} (h : J p t) (hbad : Bad t dir entry) :
    (recordError op path err >>= fun _ => quarantineEntry c dir entry path reason).Meets D p t
      fun _ p' t' => J p' t' := by
  refine meets_bind.mpr (Task.meets_remember.mpr (then_ok.mpr ?_))
  exact quarantineEntry_keeps hw path reason (hb.stats _ p t rfl h) hbad

theorem recordInvalid_keeps (hb : Books D J) (hw : Works D c J Bad Fine) {dir : Dir} {entry : Name}
    (op : String) (path : Path) {e : Error} {p : Pass} {t : τ} (h : J p t)
    (hbad : ∀ why, e = .queueCorrupt why → Bad t dir entry) :
    (recordError op path e.text >>= fun _ => quarantineInvalid c dir entry path e).Meets D p t
      fun _ p' t' => J p' t' := by
  unfold quarantineInvalid
  split
  · exact recordQuarantine_keeps hb hw _ _ _ _ h (hbad _ rfl)
  · exact (Task.Preserves.bind (recordError_preserves hb _ _ _) fun _ => preserves_pure _) p t h

theorem settleMove_preserves (hb : Books D J) {counted : RecoveryStats → RecoveryStats}
    (hcounted : ∀ s, (counted s).operationsAttempted = s.operationsAttempted) (operation : String)
    (path : Path) (r : Except MoveFailure Unit) :
    (settleMove counted operation path r).Preserves D J := by
  cases r with
  | ok u => exact .bind (onStats_preserves hb hcounted) fun _ => preserves_pure _
  | error failure =>
    exact .bind (recordMoveFailure_preserves hb operation path failure) fun _ =>
      preserves_pure _

theorem settleUnlink_preserves (hb : Books D J) {counted : RecoveryStats → RecoveryStats}
    (hcounted : ∀ s, (counted s).operationsAttempted = s.operationsAttempted) (operation : String)
    (path : Path) (r : Except UnlinkFailure Unit) :
    (settleUnlink counted operation path r).Preserves D J := by
  cases r with
  | ok u => exact .bind (onStats_preserves hb hcounted) fun _ => preserves_pure _
  | error failure =>
    exact .bind (recordUnlinkFailure_preserves hb operation path failure) fun _ =>
      preserves_pure _

theorem reapLease_brings (hb : Books D J) {dir : Dir} {entry : Name} {common : CommonFields}
    {toReady : QueueM MoveFailure Unit}
    (hready : common.attempt < common.maximumAttempts → Spends D c J toReady)
    (hdead : ∀ reason floor, Spends D c J (reapToDead dir entry common reason floor))
    (path : Path) : (reapLease c dir entry path common toReady).Brings D (Room c J) J := by
  unfold reapLease
  split
  · split
    · exact roomy (.bind (recordError_preserves hb _ _ _) fun _ => preserves_pure _)
    · refine (hdead _ _).bind fun moved => ?_
      exact settleMove_preserves hb (fun _ => by rfl) _ _ moved
  · rename_i hleft
    refine (hready (UInt32.not_le.mp hleft)).bind fun moved => ?_
    exact settleMove_preserves hb (fun _ => by rfl) _ _ moved

theorem reap_visits (hb : Books D J) (hw : Works D c J Bad Fine) :
    Visits D F c J (reapHierarchy c) := by
  intro place dir entry hreached _ p t hroom
  have hpath := hreached.path_three
  show (reapVisit c place dir entry).Meets D p t fun _ p' t' => J p' t'
  unfold reapVisit
  split
  · exact hroom.1
  · refine meets_thisHandle ?_
    dsimp only
    split
    · rename_i hparsed
      exact recordQuarantine_keeps hb hw _ _ _ _ hroom.1
        (hw.condemns.unparsedLease hpath hparsed p t hroom.1)
    · rename_i parsed hparsed
      split
      · exact hroom.1
      · rename_i hdue
        have hexpired : Expired J c dir parsed := .leased hreached hdue
        have hctx : ActivePathContext.Of p.handle.format entry dir.path
            (.leased (place.name 0) (place.name 1) (place.name 2)) := hpath ▸ .leased _ _ _
        refine (hw.condemns.active hroom.1 hctx).meets_bind fun valid p₁ t₁ h₁ hvalid => ?_
        obtain ⟨rfl, hbad⟩ := hvalid
        split
        · exact recordInvalid_keeps hb hw _ _ h₁ fun why he => hbad why (by rw [he])
        · have hstop : ∀ op path err (r : EntryOutcome),
              (recordError op path err >>= fun _ => pure r : PassM _).Preserves D J :=
            fun _ _ _ _ => .bind (recordError_preserves hb _ _ _) fun _ => preserves_pure _
          split
          · exact hstop _ _ _ _ p₁ t₁ h₁
          · split
            · exact hstop _ _ _ _ p₁ t₁ h₁
            · exact reapLease_brings hb (fun hleft => hw.reaps _ _ _ _ hparsed hleft hreached hexpired)
                (fun reason floor => hw.buries _ _ _ reason floor hparsed hexpired) _ p₁ t₁
                ⟨h₁, hroom.2⟩

theorem promote_visits (hb : Books D J) (hw : Works D c J Bad Fine) :
    Visits D F c J (promoteHierarchy c) := by
  intro place dir entry hreached _ p t hroom
  have hpath := hreached.path_two
  show (promoteVisit c place dir entry).Meets D p t fun _ p' t' => J p' t'
  unfold promoteVisit
  split
  · exact hroom.1
  · dsimp only
    split
    · rename_i hparsed
      exact recordQuarantine_keeps hb hw _ _ _ _ hroom.1
        (hw.condemns.unparsedDelayed hpath hparsed p t hroom.1)
    · rename_i parsed hparsed
      have hctx : ActivePathContext.Of p.handle.format entry dir.path
          (.delayed (place.name 0) (place.name 1)) := hpath ▸ .delayed _ _
      refine (hw.condemns.active hroom.1 hctx).meets_bind fun valid p₁ t₁ h₁ hvalid => ?_
      obtain ⟨rfl, hbad⟩ := hvalid
      split
      · exact recordInvalid_keeps hb hw _ _ h₁ fun why he => hbad why (by rw [he])
      · refine (hw.promotes _ _ _ _ _ hparsed hpath).bind (fun moved => ?_) p₁ t₁ ⟨h₁, hroom.2⟩
        exact settleMove_preserves hb (fun _ => by rfl) _ _ moved

theorem cleanup_visits (hb : Books D J) (hw : Works D c J Bad Fine) :
    Visits D F c J (cleanupHierarchy c) := by
  intro place dir entry hreached _
  have hroot : dir.path.head? = some tmpRoot := by rw [hreached.path]; rfl
  show (cleanupVisit c place dir entry).Brings D (Room c J) J
  unfold cleanupVisit
  split
  · exact roomy (preserves_pure _)
  · refine roomy_bind thisHandle_preserves fun h => ?_
    split
    · refine (hw.unlinks _ _ (.inl hroot)).bind fun removed => ?_
      exact settleUnlink_preserves hb (fun _ => by rfl) _ _ removed
    · exact roomy (preserves_pure _)

/-- What is asked of the work on a verified receipt. -/
theorem withVerifiedReceipt_brings (hb : Books D J) (hw : Works D c J Bad Fine) {place : Place}
    {dir : Dir} {entry : Name} (hpath : dir.path = [receiptsRoot, place.name 0, place.name 1])
    {body : VerifiedReceipt → PassM EntryOutcome}
    (hbody : ∀ receipt p t, (∃ parsed, parseReceipt entry = .ok parsed) → Room c J p t →
      Fine t dir entry receipt → (body receipt).Meets D p t fun _ p' t' => J p' t')
    (operation : String) :
    (withVerifiedReceipt c operation place dir entry body).Brings D (Room c J) J := by
  intro p t hroom
  unfold withVerifiedReceipt
  split
  · exact hroom.1
  · dsimp only
    split
    · rename_i hparsed
      exact recordQuarantine_keeps hb hw _ _ _ _ hroom.1
        (hw.condemns.unparsedReceipt hpath hparsed p t hroom.1)
    · rename_i parsed hparsed
      have hkept : ∀ op path err,
          (recordError op path err >>= fun _ => pure .kept : PassM EntryOutcome).Preserves D J :=
        fun _ _ _ => .bind (recordError_preserves hb _ _ _) fun _ => preserves_pure _
      refine (hw.condemns.receipts entry hroom.1 hpath).meets_bind
        fun opened p₁ t₁ h₁ hopened => ?_
      obtain ⟨rfl, hlock⟩ := hopened
      split
      · exact h₁
      · exact hkept _ _ _ p₁ t₁ h₁
      · rename_i file
        refine (hlock file rfl).meets_bind fun locked p₂ t₂ h₂ hverify => ?_
        obtain ⟨hstats, hverify⟩ := hverify
        -- the lock leaves the statistics alone, so there is still room behind it
        have hroom₂ : HasRoom c p₂ := by
          rw [HasRoom, hstats]
          exact hroom.2
        split
        · exact hkept _ _ _ p₂ t₂ h₂
        · exact h₂
        · refine meets_bind.mpr (Task.Meets.mono (Task.Keeps.meets_bind hverify
            fun verified p₃ t₃ h₃ hverdict => ?_) fun r p₃ t₃ h₃ => ?_)
          · obtain ⟨rfl, hfine, hbad⟩ := hverdict
            split
            · exact hbody _ p₃ t₃ ⟨parsed, hparsed⟩ ⟨h₃, hroom₂⟩ (hfine _ rfl)
            · split
              · exact hkept _ _ _ p₃ t₃ h₃
              · rename_i hreason
                exact recordQuarantine_keeps hb hw _ _ _ _ h₃ (hbad _ _ rfl hreason)
          · refine then_intro (fun e => nomatch e) fun outcome _ => ?_
            exact (Task.Preserves.bind (hw.unlocks _) fun _ => preserves_pure _) p₃ t₃ h₃

theorem compact_visits (hb : Books D J) (hw : Works D c J Bad Fine) :
    Visits D F c J (compactHierarchy c) := by
  intro place dir entry hreached _
  have hpath := hreached.path_two
  have hshard : receiptsRoot :: place.names = dir.path := hreached.path.symm
  have hroot : dir.path.head? = some receiptsRoot := by rw [hpath]; rfl
  show (compactVisit c place dir entry).Brings D (Room c J) J
  unfold compactVisit
  dsimp only
  rw [hshard]
  split
  · refine (hw.unlinks dir entry (.inr hroot)).bind fun removed => ?_
    split
    · exact preserves_pure _
    · exact .bind (recordUnlinkFailure_preserves hb _ _ _) fun _ => preserves_pure _
  · refine withVerifiedReceipt_brings hb hw hpath (fun receipt p t hname hroom hfine => ?_) _
    split
    · exact hroom.1
    · rename_i job hkind
      refine meets_thisHandle ?_
      split
      · exact hroom.1
      · rename_i start hstart
        refine meets_bind.mpr (Task.Meets.mono
          (hw.compacts _ _ _ _ _ _ _ p t hpath hname hroom hfine hkind hstart) fun r p' t' h' => ?_)
        exact then_intro (fun e => nomatch e) fun _ _ => h'

theorem delete_visits (hb : Books D J) (hw : Works D c J Bad Fine) :
    Visits D F c J (deleteHierarchy c) := by
  intro place dir entry hreached _
  have hroot : dir.path.head? = some receiptsRoot := by rw [hreached.path]; rfl
  refine withVerifiedReceipt_brings hb hw hreached.path_two (fun receipt p t _ hroom _ => ?_) _
  refine (?_ : Task.Brings D (Room c J) J _) p t hroom
  refine roomy_bind (lookHandle_preserves hb.room _) fun found => ?_
  split
  · exact roomy (preserves_pure _)
  · split
    · exact roomy (.bind (recordError_preserves hb _ _ _) fun _ => preserves_pure _)
    · refine (hw.unlinks _ _ (.inr hroot)).bind fun removed => ?_
      exact settleUnlink_preserves hb (fun _ => by rfl) _ _ removed

end Visits

/-! ## 2. The phases -/

section Phases

theorem phase_preserves (ht : Tolerant D F J) (hr : Reads D F c J) (hw : Works D c J Bad Fine)
    {hy : Hierarchy} (hvisit : Visits D F c J hy) {levels : List Level}
    (hkinds : levels.map Level.kind = hy.phase.kinds) (hcounts : ∀ level ∈ levels, Counts level)
    (hadmits : ∀ level ∈ levels, ∀ place, (level.admits place).Preserves D J) {dir : Dir}
    (hdir : dir.path = [hy.root]) (names : List Name) (hraw : ∀ raw ∈ names, F.raw raw) :
    (walkPhase c hy levels dir names).Preserves D J :=
  walkPhase_preserves ht hr hvisit ⟨hcounts, hadmits, hw.removes⟩ hkinds hdir names hraw

theorem admitLeaseBucket_preserves (hb : Books D J) (place : Place) :
    (admitLeaseBucket c place).Preserves D J := by
  unfold admitLeaseBucket
  split
  · refine .bind thisHandle_preserves fun h => ?_
    split
    · exact .bind (blockPhase_preserves hb _ _ _) fun _ => preserves_pure _
    · split <;> exact preserves_pure _
  · exact preserves_pure _

theorem reapColocatedLease_preserves (hb : Books D J) (hw : Works D c J Bad Fine) {dir : Dir}
    {shard : UInt32} (hdir : dir.path = readyShardDir shard) {entry : Name} {parsed : LeasedName}
    (hparsed : parseLeased entry = .ok parsed) (path : Path) :
    (reapColocatedLease c dir (shardHex shard) entry path parsed).Preserves D J := by
  intro p t hJ
  have hkept : ∀ op path err (r : Bool),
      (recordError op path err >>= fun _ => pure r : PassM _).Preserves D J :=
    fun _ _ _ _ => .bind (recordError_preserves hb _ _ _) fun _ => preserves_pure _
  refine meets_thisHandle ?_
  dsimp only
  split
  · exact hkept _ _ _ _ p t hJ
  · rename_i bucket hbucket
    split
    · exact hkept _ _ _ _ p t hJ
    · split
      · exact hJ
      · rename_i hdue
        have hexpired : Expired J c dir parsed := .colocated hdir hJ hdue
        have hctx : ActivePathContext.Of p.handle.format entry dir.path
            (.leased (formatBootId parsed.bootId) (bucketHex bucket) (shardHex shard)) :=
          hdir ▸ .colocated shard hparsed hbucket
        refine (hw.condemns.active hJ hctx).meets_bind fun valid p₁ t₁ h₁ hvalid => ?_
        obtain ⟨rfl, hbad⟩ := hvalid
        split
        · rw [← bind_assoc]
          refine meets_bind.mpr (Task.Meets.mono (recordInvalid_keeps hb hw _ _ h₁
            fun why he => hbad why (by rw [he])) fun r p' t' h' => ?_)
          exact then_intro (fun e => nomatch e) fun _ _ => h'
        · refine preserves_bind (fun p t => workBudgetExhausted_keeps hb)
            (fun spent p t hJ hroom => ?_) p₁ t₁ h₁
          split
          · exact (Task.Preserves.bind (exhaust_preserves hb) fun _ => preserves_pure _) p t hJ
          · rename_i hspent
            refine (Task.Brings.bind (reapLease_brings hb
              (fun hleft => hw.reapsColocated _ _ _ _ hparsed hleft hdir hexpired)
              (fun reason floor => hw.buries _ _ _ reason floor hparsed hexpired) _)
              (fun _ _ h => h) fun _ => preserves_pure _) p t ⟨hJ, hroom (by simpa using hspent)⟩

theorem reapColocatedVisit_preserves (hb : Books D J) (hw : Works D c J Bad Fine) {dir : Dir}
    {shard : UInt32} (hdir : dir.path = readyShardDir shard) (raw : Name) :
    (reapColocatedVisit c dir shard raw).Preserves D J := by
  unfold reapColocatedVisit
  split
  · exact preserves_pure _
  · split
    · exact preserves_pure _
    · exact reapColocatedLease_preserves hb hw hdir ‹_› _

theorem reapColocatedShard_preserves (ht : Tolerant D F J) (hst : Streams D F c J)
    (hw : Works D c J Bad Fine) (shard : UInt32) : (reapColocatedShard c shard).Preserves D J := by
  have hb := ht.toBooks
  intro p t hJ
  refine meets_thisHandle ?_
  have hposition : F.offset (p.handle.recoveryCursor.reapColocatedPosition.getD 0) := by
    have hresumed := ht.resumed p t hJ
    cases h : p.handle.recoveryCursor.reapColocatedPosition with
    | none => exact ht.closed.start
    | some n => exact hresumed n h
  refine (?_ : Task.Preserves D J _) p t hJ
  refine .bind (onCursor_preserves ht fun _ => .stream nofun) fun _ => ?_
  refine preserves_bind (fun p t hJ => (lookHandle_preserves hb _).yields
    (lookHandle_yields (openBelow_yields rootDir (readyShardDir shard))) hJ)
    fun opened p t hJ hopened => ?_
  split
  · refine (Task.Preserves.bind (skipScan_preserves hb) fun _ => ?_) p t hJ
    exact .bind (recordError_preserves hb _ _ _) fun _ => preserves_pure _
  · rename_i dir
    have hdir : dir.path = readyShardDir shard := hopened dir rfl
    refine preserves_bind (fun p t hJ => hst dir _ _ hposition
      (reapColocatedVisit_preserves hb hw hdir) p t hJ) (fun streamed p t hJ hstreamed => ?_) p t hJ
    have hsettle : ∀ stop : Bool, (if stop then do
          onCursor fun k => { k with
            reapColocatedPosition := if streamed.2 ≠ 0 then some streamed.2 else none }
          return true
        else return false : PassM Bool).Preserves D J := by
      intro stop
      split
      · refine .bind (onCursor_preserves ht fun _ => .stream ?_) fun _ => preserves_pure _
        intro n hn
        split at hn
        · cases hn
          exact hstreamed
        · cases hn
      · exact preserves_pure _
    refine (?_ : Task.Preserves D J _) p t hJ
    dsimp only
    split
    · exact .bind (preserves_pure _) hsettle
    · exact .bind (skipScan_preserves hb) fun _ =>
        .bind (recordDirectoryError_preserves hb _ _ _) hsettle

theorem reapColocatedShards_preserves (ht : Tolerant D F J) (hst : Streams D F c J)
    (hw : Works D c J Bad Fine) (left : Nat) (shard : UInt32) :
    (reapColocatedShards c left shard).Preserves D J := by
  have hb := ht.toBooks
  induction left generalizing shard with
  | zero => exact onCursor_preserves ht fun _ => .shard _
  | succ left ih =>
    refine .bind (onCursor_preserves ht fun _ => .shard _) fun _ => ?_
    refine .bind (workBudgetExhausted_preserves hb c) fun spent => ?_
    split
    · exact exhaust_preserves hb
    · refine .bind (reapColocatedShard_preserves ht hst hw shard) fun stop => ?_
      split
      · exact preserves_pure _
      · exact ih _

theorem reapColocatedReadyLeases_preserves (ht : Tolerant D F J) (hst : Streams D F c J)
    (hw : Works D c J Bad Fine) : (reapColocatedReadyLeases c).Preserves D J :=
  .bind thisHandle_preserves fun _ => reapColocatedShards_preserves ht hst hw _ _

theorem reapExpiredLeases_preserves (ht : Tolerant D F J) (hr : Reads D F c J)
    (hst : Streams D F c J) (hw : Works D c J Bad Fine) : (reapExpiredLeases c).Preserves D J := by
  have hb := ht.toBooks
  have hready : (do
      if (← thisHandle).recoveryCursor.reapColocatedShard.isSome then do
        reapColocatedReadyLeases c
        return false
      else return true : PassM Bool).Preserves D J := by
    refine .bind thisHandle_preserves fun h => ?_
    split
    · exact .bind (reapColocatedReadyLeases_preserves ht hst hw) fun _ => preserves_pure _
    · exact preserves_pure _
  refine preserves_bind (fun p t => openPhase_keeps ht hr hready _ _)
    fun opened p t hJ hopened => ?_
  split
  · exact hJ
  · rename_i dir names
    obtain ⟨hdir, hraw⟩ := hopened dir names rfl
    refine (Task.Preserves.bind (phase_preserves ht hr hw (reap_visits hb hw) rfl ?_ ?_ hdir names
      hraw) fun finished => ?_) p t hJ
    · simp only [reapLevels, List.forall_mem_cons, List.not_mem_nil, false_implies, implies_true,
        and_true]
      exact ⟨fun _ => rfl, fun _ => rfl, fun _ => rfl⟩
    · simp only [reapLevels, List.forall_mem_cons, List.not_mem_nil, false_implies, implies_true,
        and_true]
      exact ⟨fun _ => preserves_pure _, admitLeaseBucket_preserves hb, fun _ =>
        preserves_pure _⟩
    · split
      · exact reapColocatedReadyLeases_preserves ht hst hw
      · exact preserves_pure _

theorem promoteDelayed_preserves (ht : Tolerant D F J) (hr : Reads D F c J) (hw : Works D c J Bad Fine)
    (floor : WallFloor) : (promoteDelayed c floor).Preserves D J := by
  have hb := ht.toBooks
  refine preserves_bind (fun p t => openPhase_keeps ht hr (preserves_pure _) _ _)
    fun opened p t hJ hopened => ?_
  split
  · exact hJ
  · rename_i dir names
    obtain ⟨hdir, hraw⟩ := hopened dir names rfl
    refine (Task.Preserves.bind thisHandle_preserves fun h => ?_) p t hJ
    split
    · exact blockPhase_preserves hb _ _ _
    · refine .bind (phase_preserves ht hr hw (promote_visits hb hw) rfl ?_ ?_ hdir names hraw)
        fun _ => preserves_pure _
      · simp only [promoteLevels, List.forall_mem_cons, List.not_mem_nil, false_implies,
          implies_true, and_true]
        exact ⟨fun _ => rfl, fun _ => rfl⟩
      · simp only [promoteLevels, List.forall_mem_cons, List.not_mem_nil, false_implies,
          implies_true, and_true]
        refine ⟨fun place => ?_, fun _ => preserves_pure _⟩
        split <;> exact preserves_pure _

theorem cleanupTempFiles_preserves (ht : Tolerant D F J) (hr : Reads D F c J) (hw : Works D c J Bad Fine) :
    (cleanupTempFiles c).Preserves D J := by
  have hb := ht.toBooks
  refine preserves_bind (fun p t => openPhase_keeps ht hr (preserves_pure _) _ _)
    fun opened p t hJ hopened => ?_
  split
  · exact hJ
  · rename_i dir names
    obtain ⟨hdir, hraw⟩ := hopened dir names rfl
    refine (Task.Preserves.bind (phase_preserves ht hr hw (cleanup_visits hb hw) rfl ?_ ?_ hdir names
      hraw) fun _ => preserves_pure _) p t hJ
    · simp only [cleanupLevels, List.forall_mem_cons, List.not_mem_nil, false_implies,
        implies_true, and_true]
      exact ⟨fun _ => rfl, fun _ => rfl⟩
    · simp only [cleanupLevels, List.forall_mem_cons, List.not_mem_nil, false_implies,
        implies_true, and_true]
      exact ⟨fun _ => preserves_pure _, fun _ => preserves_pure _⟩

theorem compactReceipts_preserves (ht : Tolerant D F J) (hr : Reads D F c J) (hw : Works D c J Bad Fine) :
    (compactReceiptsWithScanBudget c).Preserves D J := by
  have hb := ht.toBooks
  refine preserves_bind (fun p t => openPhase_keeps ht hr (preserves_pure _) _ _)
    fun opened p t hJ hopened => ?_
  split
  · exact hJ
  · rename_i dir names
    obtain ⟨hdir, hraw⟩ := hopened dir names rfl
    refine (Task.Preserves.bind (phase_preserves ht hr hw (compact_visits hb hw) rfl ?_ ?_ hdir names
      hraw) fun _ => preserves_pure _) p t hJ
    · simp only [compactLevels, List.forall_mem_cons, List.not_mem_nil, false_implies,
        implies_true, and_true]
      exact ⟨fun _ => rfl, fun _ => rfl⟩
    · simp only [compactLevels, List.forall_mem_cons, List.not_mem_nil, false_implies,
        implies_true, and_true]
      exact ⟨fun _ => preserves_pure _, fun _ => preserves_pure _⟩

theorem deleteExpiredReceipts_preserves (ht : Tolerant D F J) (hr : Reads D F c J)
    (hw : Works D c J Bad Fine) (floor : WallFloor) (retentionNs : UInt64) :
    (deleteExpiredReceipts c floor retentionNs).Preserves D J := by
  have hb := ht.toBooks
  refine preserves_bind (fun p t => openPhase_keeps ht hr (preserves_pure _) _ _)
    fun opened p t hJ hopened => ?_
  split
  · exact hJ
  · rename_i dir names
    obtain ⟨hdir, hraw⟩ := hopened dir names rfl
    refine (Task.Preserves.bind thisHandle_preserves fun h => ?_) p t hJ
    refine .bind (phase_preserves ht hr hw (delete_visits hb hw) rfl ?_ ?_ hdir names hraw)
      fun _ => preserves_pure _
    · simp only [deleteLevels, List.forall_mem_cons, List.not_mem_nil, false_implies,
        implies_true, and_true]
      exact ⟨fun _ => rfl, fun _ => rfl⟩
    · simp only [deleteLevels, List.forall_mem_cons, List.not_mem_nil, false_implies,
        implies_true, and_true]
      refine ⟨fun place => ?_, fun _ => preserves_pure _⟩
      split <;> exact preserves_pure _

theorem runPhase_preserves (ht : Tolerant D F J) (hr : Reads D F c J) (hst : Streams D F c J)
    (hw : Works D c J Bad Fine) (phase : RecoveryPhase) : (runPhase c phase).Preserves D J := by
  cases phase with
  | reapLeases => exact reapExpiredLeases_preserves ht hr hst hw
  | promoteDelayed =>
    rw [runPhase]
    split
    · exact promoteDelayed_preserves ht hr hw _
    · exact preserves_pure _
  | cleanupTemp => exact cleanupTempFiles_preserves ht hr hw
  | compactReceipts => exact compactReceipts_preserves ht hr hw
  | deleteReceipts =>
    rw [runPhase]
    split
    · exact .bind thisHandle_preserves fun _ => deleteExpiredReceipts_preserves ht hr hw _ _
    · exact preserves_pure _

/-- **The phases of a pass keep what their changes keep.** -/
theorem runPhases_preserves (ht : Tolerant D F J) (hr : Reads D F c J) (hst : Streams D F c J)
    (hw : Works D c J Bad Fine) (left : Nat) : (runPhases c left).Preserves D J := by
  have hb := ht.toBooks
  induction left with
  | zero => exact preserves_pure _
  | succ left ih =>
    refine .bind Task.preserves_memory fun p => ?_
    split
    · exact preserves_pure _
    · refine .bind thisHandle_preserves fun h => ?_
      dsimp only
      generalize hnext : (if h.recoveryCursor.phase = .deleteReceipts then pure ()
        else runPhases c left : PassM Unit) = next
      have hnext : next.Preserves D J := by
        subst hnext
        split
        · exact preserves_pure _
        · exact ih
      have hrest : (workBudgetExhausted c >>= fun spent =>
          if spent = true then exhaust >>= fun _ => next else next).Preserves D J := by
        refine .bind (workBudgetExhausted_preserves hb c) fun spent => ?_
        split
        · exact .bind (exhaust_preserves hb) fun _ => hnext
        · exact hnext
      refine .bind (runPhase_preserves ht hr hst hw _) fun _ => .bind Task.preserves_memory fun p => ?_
      split
      · exact hrest
      · exact .bind (onCursor_preserves ht fun _ => .proceed _) fun _ => hrest

end Phases

/-! ## 3. The pass -/

/-- What is asked of the steps around the phases. -/
structure Around (D : Discipline Act.Resp τ) (codec : CursorCodec) (J : Pass → τ → Prop) :
    Prop where
  lock : (onHandle acquireRecoveryLock).Preserves D J
  unlock : (onHandle (ε := Empty) (unlockFile .recovery)).Preserves D J
  sweep : ∀ control name, control.path = controlPath → recoveryCursorTemporaryName name = true →
    (onHandle (unlinkVerified control name)).Preserves D J
  load : ∀ p t, J p t → (lookHandle (loadRecoveryCursor codec)).Keeps D p t J fun r p' t' =>
    ∀ cursor, r = .ok cursor → J (p'.withCursor cursor) t'
  floor : (onHandle (marked stabilizedWallFloor)).Preserves D J
  persist : (onHandle (persistRecoveryCursor codec)).Preserves D J

section Pass

variable {codec : CursorCodec} {budget : WorkBudget} {scanBudget : RecoveryScanBudget}

theorem sweepNames_preserves (hb : Books D J) (ha : Around D codec J) {control : Dir}
    (hcontrol : control.path = controlPath) {names : List Name}
    (hnames : ∀ name ∈ names, recoveryCursorTemporaryName name = true) :
    (sweepNames control names).Preserves D J := by
  induction names with
  | nil => exact preserves_pure _
  | cons name rest ih =>
    have ih := ih fun name h => hnames name (List.mem_cons_of_mem _ h)
    refine .bind (ha.sweep control name hcontrol (hnames name List.mem_cons_self)) fun removed => ?_
    split
    · exact ih
    · exact ih
    · exact .bind (recordUnlinkFailure_preserves hb _ _ _) fun _ => ih

theorem sweepCursorTemporaryFiles_preserves (hb : Books D J) (ha : Around D codec J) :
    sweepCursorTemporaryFiles.Preserves D J := by
  have hlook : (do
      let control ← openRelative controlPath
      let names ← readDir control
      return (control, names) : LookM IoError (Dir × List Name)).Yields
        fun found => found.1.path = controlPath := by
    refine .bind (openBelow_yields rootDir controlPath) fun control hcontrol => ?_
    exact .bind Task.yields_any fun names _ => Task.yields_pure hcontrol
  refine preserves_bind (fun p t hJ => (lookHandle_preserves hb _).yields
    (lookHandle_yields hlook) hJ) fun found p t hJ hfound => ?_
  split
  · exact recordError_preserves hb _ _ _ p t hJ
  · exact sweepNames_preserves hb ha (hfound _ rfl) (fun name h => (List.mem_filter.mp h).2) p t hJ

/-- A pass from the reading of its clock on. -/
def timedPass (codec : CursorCodec) (budget : WorkBudget) (scanBudget : RecoveryScanBudget)
    (now : UInt64) (floor : Option WallFloor) : PassM Unit := do
  match ← lookHandle clockMonotonicNs with
  | .error e => recordError "clock_monotonic" [] e.text
  | .ok startMono => do
    runPhases ⟨budget, scanBudget, now, floor, deadlineOf startMono budget⟩ 5
    match ← onHandle (persistRecoveryCursor codec) with
    | .ok () => return ()
    | .error e =>
      recordError "recovery_cursor_persist" (controlPath ++ [recoveryCursorFile]) e.text

theorem timedPass_preserves (ht : Tolerant D F J) (ha : Around D codec J)
    (hc : ∀ c : PassContext, c.budget = budget → c.scanBudget = scanBudget →
      Reads D F c J ∧ Streams D F c J ∧ Works D c J Bad Fine) (now : UInt64)
    (floor : Option WallFloor) : (timedPass codec budget scanBudget now floor).Preserves D J := by
  have hb := ht.toBooks
  refine .bind (lookHandle_preserves hb _) fun start => ?_
  split
  · exact recordError_preserves hb _ _ _
  · rename_i startMono
    obtain ⟨hr, hst, hw⟩ :=
      hc ⟨budget, scanBudget, now, floor, deadlineOf startMono budget⟩ rfl rfl
    refine .bind (runPhases_preserves ht hr hst hw 5) fun _ => .bind ha.persist fun saved => ?_
    split
    · exact preserves_pure _
    · exact recordError_preserves hb _ _ _

/-- **A pass keeps what its phases and the steps around them keep.** -/
theorem recoverLocked_preserves (ht : Tolerant D F J) (ha : Around D codec J)
    (hc : ∀ c : PassContext, c.budget = budget → c.scanBudget = scanBudget →
      Reads D F c J ∧ Streams D F c J ∧ Works D c J Bad Fine) :
    (recoverLocked codec budget scanBudget).Preserves D J := by
  have hb := ht.toBooks
  refine .bind (sweepCursorTemporaryFiles_preserves hb ha) fun _ => ?_
  refine preserves_bind (fun p t => ha.load p t) fun loaded p t hJ hloaded => ?_
  split
  · exact recordError_preserves hb _ _ _ p t hJ
  · rename_i cursor
    refine meets_bind.mpr (Task.meets_remember.mpr (then_ok.mpr ?_))
    refine (?_ : Task.Preserves D J _) _ t (hloaded cursor rfl)
    refine .bind (lookHandle_preserves hb _) fun boottime => ?_
    split
    · exact recordError_preserves hb _ _ _
    · rename_i now
      refine .bind ha.floor fun floor => ?_
      have hrest := timedPass_preserves ht ha hc now floor.toOption
      split
      · exact .bind (recordError_preserves hb _ _ _) fun _ => hrest
      · exact hrest

theorem recoverPass_preserves (hb : Books D J) (ha : Around D codec J)
    (hlocked : scanBudget.validate = .ok () →
      (recoverLocked codec budget scanBudget).Preserves D J) :
    (recoverPass codec budget scanBudget).Preserves D J := by
  unfold recoverPass
  split
  · exact .bind (onStats_preserves hb fun _ => rfl) fun _ => recordError_preserves hb _ _ _
  · rename_i hvalid
    refine .bind ha.lock fun locked => ?_
    split
    · exact recordError_preserves hb _ _ _
    · exact .bind (hlocked hvalid) fun _ => .bind ha.unlock fun _ => preserves_pure _

/-- What is kept from the start of a pass on holds of its report. -/
theorem recoverWithScanBudget_meets {h : Handle} {t : τ}
    (hp : (recoverPass codec budget scanBudget).Preserves D J) (h₀ : J ⟨h, {}, {}⟩ t) :
    (recoverWithScanBudget codec budget scanBudget).Meets D h t fun r h' t' =>
      ∀ report, r = .ok report → J ⟨h', report.stats, report.scan⟩ t' := by
  refine Prog.follows_bind.mpr (Prog.Follows.mono (hp _ t h₀) ?_)
  rintro x t' hx _ ⟨⟩
  exact hx

end Pass

/-! ## 4. What was scanned, and the cursor -/

/-- The part of a pass that its changes of the queue leave alone. -/
def Pass.kept (p : Pass) : RecoveryScanStats × RecoveryCursor := (p.scan, p.handle.recoveryCursor)

section Kept

@[grind ←] theorem unlinkVerified_fixes (dir : Dir) (name : Name) :
    (unlinkVerified dir name).Fixes Handle.opened := by
  unfold unlinkVerified
  grind

theorem removeEmptyDirectoryVerified_fixes (parent : Dir) (name : Name) :
    (removeEmptyDirectoryVerified parent name).Fixes Handle.opened :=
  .bind (.mapErr (Task.fixes_call _ _)) fun _ => .mapErr (fsyncDirFd_fixes _)

@[grind ←] theorem replaceVerified_fixes (dir : Dir) (srcName dstName : Name)
    (expected : Option MoveIdentity) :
    (replaceVerified dir srcName dstName expected).Fixes Handle.opened := by
  unfold replaceVerified
  grind

theorem reapToReady_fixes (src : Dir) (shard : UInt32) (name : Name) (common : CommonFields) :
    (reapToReady src shard name common).Fixes Handle.opened := by
  unfold reapToReady
  grind

theorem reapColocatedToReady_fixes (dir : Dir) (name : Name) (common : CommonFields) :
    (reapColocatedToReady dir name common).Fixes Handle.opened := by
  unfold reapColocatedToReady
  grind

theorem reapToDead_fixes (src : Dir) (name : Name) (common : CommonFields) (reason : DeadReason)
    (floor : WallFloor) : (reapToDead src name common reason floor).Fixes Handle.opened := by
  unfold reapToDead
  grind

theorem promoteToReady_fixes (src : Dir) (shard name : Name) (common : CommonFields) :
    (promoteToReady src shard name common).Fixes Handle.opened := by
  unfold promoteToReady
  grind

theorem acquireRecoveryLock_fixes : acquireRecoveryLock.Fixes Handle.opened := by
  have hlock : (do
      let locked ← Task.mapErr Error.from (tryOfdWriteLock .recovery)
      if ¬ locked then throw .maintenanceBusy else return () :
      QueueM Error Unit).Fixes Handle.opened := by
    refine .bind (.mapErr (tryOfdWriteLock_fixes _)) fun locked => ?_
    split
    · exact fixes_throw _
    · exact fixes_pure _
  refine .bind (.mapErr (liftLook_fixes _)) fun control => ?_
  refine .bind (.attempt (createExclusive_fixes _ _)) fun created => ?_
  split
  · exact .bind (.mapErr (fsync_fixes _)) fun _ => .bind (.mapErr (fsyncDirFd_fixes _)) fun _ => hlock
  · exact .bind (.mapErr (liftLook_fixes _)) fun _ => hlock
  · exact .bind (fixes_throw _) fun _ => hlock

@[grind ←] theorem cleanupCursorTemporaryFile_fixes (control : Dir) (name : Name) (primary : String) :
    (cleanupCursorTemporaryFile control name primary : QueueM Error α).Fixes Handle.opened := by
  unfold cleanupCursorTemporaryFile
  grind

theorem persistRecoveryCursor_fixes (codec : CursorCodec) :
    (persistRecoveryCursor codec).Fixes Handle.opened := by
  refine .bind Task.fixes_memory fun h => ?_
  dsimp only
  split
  · exact fixes_throw _
  · refine .bind (.mapErr (liftLook_fixes _)) fun control => ?_
    refine .bind (.mapErr random128bit_fixes) fun random => ?_
    refine .bind (.mapErr (createExclusive_fixes _ _)) fun temp => ?_
    refine .bind (.attempt (writeAll_fixes _ _)) fun written => ?_
    split
    · exact cleanupCursorTemporaryFile_fixes _ _ _
    · refine .bind (.attempt (fsync_fixes _)) fun synced => ?_
      split
      · exact cleanupCursorTemporaryFile_fixes _ _ _
      · refine .bind (.attempt (replaceVerified_fixes _ _ _ _)) fun replaced => ?_
        split
        · exact fixes_pure _
        · split
          · exact fixes_throw _
          · exact cleanupCursorTemporaryFile_fixes _ _ _

theorem markedFloor_fixes : (marked stabilizedWallFloor).Fixes Handle.opened := by
  unfold marked
  grind

theorem onHandle_kept {m : QueueM ε α} (hm : m.Fixes Handle.opened) :
    (onHandle m).Fixes Pass.kept := by
  refine Task.Fixes.zoom hm.attempt fun p h hh => ?_
  have hcursor : h.recoveryCursor = p.handle.recoveryCursor :=
    congrArg (fun x => x.2.2.2.2) hh
  exact congrArg (Prod.mk p.scan) hcursor

@[grind ←] theorem onStats_kept (f : RecoveryStats → RecoveryStats) :
    (onStats f).Fixes Pass.kept := Task.fixes_remember fun _ => rfl

@[grind ←] theorem recordError_kept (op : String) (path : Path) (err : String) :
    (recordError op path err).Fixes Pass.kept := onStats_kept _

theorem quarantineRecoveryObject_kept (c : PassContext) (src : Dir) (name : Name) (path : Path)
    (reason : QuarantineReason) :
    (quarantineRecoveryObject c src name path reason).Fixes Pass.kept := by
  refine .bind Task.fixes_memory fun p => ?_
  dsimp only
  split
  · exact .bind (onStats_kept _) fun _ => fixes_pure _
  · refine .bind (onHandle_kept (publishQuarantineObjectWithIds_fixes _ _ _ _)) fun result => ?_
    refine .bind (onStats_kept _) fun _ => ?_
    split
    · exact .bind (onStats_kept _) fun _ => fixes_pure _
    · refine .bind (recordError_kept _ _ _) fun _ => .bind (onStats_kept _) fun _ => ?_
      exact fixes_pure _
    · exact .bind (recordError_kept _ _ _) fun _ => fixes_pure _

theorem cleanupCompactionTemp_kept (dir : Dir) (name : Name) (path : Path) :
    (cleanupCompactionTemp dir name path).Fixes Pass.kept := by
  refine .bind (onHandle_kept (unlinkVerified_fixes _ _)) fun removed => ?_
  split
  · exact fixes_pure _
  · exact fixes_pure _
  · rename_i failure _
    cases failure <;> exact recordError_kept _ _ _

theorem replaceByCompact_kept (dir : Dir) (entry : Name) (shardPath : Path)
    (identity : MoveIdentity) (bytes : Bytes) :
    (replaceByCompact dir entry shardPath identity bytes).Fixes Pass.kept := by
  refine .bind (onStats_kept _) fun _ => .bind (onHandle_kept random128bit_fixes) fun random => ?_
  split
  · exact recordError_kept _ _ _
  · refine .bind (onHandle_kept (createExclusive_fixes _ _)) fun created => ?_
    split
    · exact recordError_kept _ _ _
    · refine .bind (onHandle_kept (writeAll_fixes _ _)) fun written => ?_
      split
      · exact .bind (recordError_kept _ _ _) fun _ => cleanupCompactionTemp_kept _ _ _
      · refine .bind (onHandle_kept (fsync_fixes _)) fun synced => ?_
        split
        · exact .bind (recordError_kept _ _ _) fun _ => cleanupCompactionTemp_kept _ _ _
        · refine .bind (onHandle_kept (replaceVerified_fixes _ _ _ _)) fun replaced => ?_
          split
          · exact onStats_kept _
          · rename_i failure
            refine .bind ?_ fun _ => ?_
            · cases failure <;> exact recordError_kept _ _ _
            · split
              · exact cleanupCompactionTemp_kept _ _ _
              · exact fixes_pure _

variable {P : RecoveryScanStats × RecoveryCursor → Prop}

/-- The state directories a condemned object can lie in. -/
def condemnable (path : Path) : Prop :=
  path.head? = some State.ready.dirName ∨ path.head? = some leasedRoot ∨
    path.head? = some delayedRoot ∨ path.head? = some receiptsRoot

theorem ActivePathContext.Of.condemnable {format : FormatRecord} {entry : Name} {path : Path}
    {ctx : ActivePathContext} (h : ctx.Of format entry path) : condemnable path := by
  cases h with
  | leased boot bucket shard => exact .inr (.inl rfl)
  | delayed bucket shard => exact .inr (.inr (.inl rfl))
  | colocated shard _ _ => exact .inl rfl

/-- Where nothing is asked of a condemned object but its place, the checks need to tell nothing. -/
theorem condemns_place (hb : Books D J)
    (hlock : ∀ lock, (onHandle (tryOfdWriteLock lock)).Preserves D J) :
    Condemns D J (fun _ dir _ => condemnable dir.path) fun _ _ _ _ => True where
  unparsedLease := fun h _ _ _ _ => h ▸ .inr (.inl rfl)
  unparsedDelayed := fun h _ _ _ _ => h ▸ .inr (.inr (.inl rfl))
  unparsedReceipt := fun h _ _ _ _ => h ▸ .inr (.inr (.inr rfl))
  active := fun h hctx => Task.Meets.mono (lookHandle_keeps hb _ h) fun _ _ _ hr =>
    ⟨hr.1, fun a ha => ⟨hr.2 a ha, fun _ _ => hctx.condemnable⟩⟩
  receipts := by
    intro dir bucket shard entry p t h hpath
    have hfixes : ∀ lock, (onHandle (tryOfdWriteLock lock)).Fixes Pass.stats :=
      fun _ => onHandle_fixes (fun _ _ => rfl) _
    refine Task.Meets.mono (lookHandle_keeps hb _ h) fun opened p₁ t₁ h₁ => ⟨h₁.1, fun r hr => ?_⟩
    obtain rfl := h₁.2 r hr
    refine ⟨rfl, fun file _ => ?_⟩
    have hstats := (hlock (.file file)).fixes (P := fun s => s = p₁.stats) (hfixes _)
    refine Task.Meets.mono (hstats p₁ t₁ ⟨h₁.1, rfl⟩) fun _ p₂ t₂ h₂ =>
      ⟨h₂.1, fun _ _ => ⟨h₂.2, ?_⟩⟩
    exact Task.Meets.mono (lookHandle_keeps hb _ h₂.1) fun _ _ _ hr => ⟨hr.1, fun a ha =>
      ⟨hr.2 a ha, fun _ _ => trivial, fun _ _ _ _ => hpath ▸ .inr (.inr (.inr rfl))⟩⟩

theorem Condemns.imp {Bad' : τ → Dir → Name → Prop} (hc : Condemns D J Bad Fine)
    (h : ∀ t dir entry, Bad t dir entry → Bad' t dir entry) : Condemns D J Bad' Fine where
  unparsedLease := fun hp he p t hJ => h _ _ _ (hc.unparsedLease hp he p t hJ)
  unparsedDelayed := fun hp he p t hJ => h _ _ _ (hc.unparsedDelayed hp he p t hJ)
  unparsedReceipt := fun hp he p t hJ => h _ _ _ (hc.unparsedReceipt hp he p t hJ)
  active := fun hJ hctx => (hc.active hJ hctx).mono (fun _ _ h => h)
    fun _ _ _ _ hr => ⟨hr.1, fun why he => h _ _ _ (hr.2 why he)⟩
  receipts := fun entry _ _ hJ hpath => (hc.receipts entry hJ hpath).mono (fun _ _ h => h)
    fun _ _ _ _ hr => ⟨hr.1, fun file he => ((hr.2 file he).mono (fun _ _ h => h)
      fun _ _ _ _ hl => ⟨hl.1, hl.2.mono (fun _ _ h => h)
        fun _ _ _ _ hv => ⟨hv.1, hv.2.1, fun e reason he hreason =>
          h _ _ _ (hv.2.2 e reason he hreason)⟩⟩)⟩

/-- Where nothing is asked of a condemned object, the checks need to tell nothing. -/
theorem condemns_any (hb : Books D J)
    (hlock : ∀ lock, (onHandle (tryOfdWriteLock lock)).Preserves D J) :
    Condemns D J (fun _ _ _ => True) fun _ _ _ _ => True :=
  (condemns_place hb hlock).imp fun _ _ _ _ => trivial

/-- Changes of the queue keep what is said of the scan and the cursor. -/
theorem works_of_kept (hD : ∀ t a, D.allow t a) :
    Works D c (fun p (_ : τ) => P p.kept) (fun _ _ _ => True) fun _ _ _ _ => True := by
  have hspends : ∀ {ε α : Type} {m : QueueM ε α}, m.Fixes Handle.opened →
      Spends D c (fun p (_ : τ) => P p.kept) m := by
    intro ε α m hm p t hJ _
    exact (onHandle_kept hm).preserves hD p.counted t hJ
  have hlock : ∀ lock, (onHandle (tryOfdWriteLock lock)).Preserves D fun p (_ : τ) => P p.kept :=
    fun lock => (onHandle_kept (tryOfdWriteLock_fixes lock)).preserves hD
  constructor
  · exact condemns_any ⟨fun l p t h => ⟨hD _ _, fun _ _ => h⟩, fun _ _ _ _ h => h⟩ hlock
  · exact fun src name path reason p t h _ =>
      (quarantineRecoveryObject_kept c src name path reason).preserves hD p t h
  · exact fun parent name _ => hspends (removeEmptyDirectoryVerified_fixes parent name)
  · exact fun dir name _ => hspends (unlinkVerified_fixes dir name)
  · exact fun dir entry parsed place _ _ _ _ => hspends (reapToReady_fixes dir place.shard entry _)
  · exact fun dir entry parsed _ _ _ _ _ => hspends (reapColocatedToReady_fixes dir entry _)
  · exact fun dir entry parsed reason floor _ _ => hspends (reapToDead_fixes dir entry _ reason floor)
  · exact fun dir _ shard entry parsed _ _ => hspends (promoteToReady_fixes dir shard entry _)
  · exact fun dir _ _ entry _ _ _ p t _ _ hroom _ _ _ =>
      (replaceByCompact_kept dir entry _ _ _).preserves hD p t hroom.1
  · exact hlock
  · exact fun lock => (onHandle_kept (unlockFile_fixes lock)).preserves hD

/-- So do the steps around the phases, up to the loading of the cursor. -/
theorem around_of_kept {codec : CursorCodec} (hD : ∀ t a, D.allow t a)
    (hload : ∀ p t, P p.kept → (lookHandle (loadRecoveryCursor codec)).Keeps D p t
      (fun p _ => P p.kept) fun r p' _ => ∀ cursor, r = .ok cursor → P (p'.scan, cursor)) :
    Around D codec fun p (_ : τ) => P p.kept where
  lock := (onHandle_kept acquireRecoveryLock_fixes).preserves hD
  unlock := (onHandle_kept (unlockFile_fixes .recovery)).preserves hD
  sweep := fun control name _ _ => (onHandle_kept (unlinkVerified_fixes control name)).preserves hD
  load := hload
  floor := (onHandle_kept markedFloor_fixes).preserves hD
  persist := (onHandle_kept (persistRecoveryCursor_fixes codec)).preserves hD

end Kept

end SteadQ
