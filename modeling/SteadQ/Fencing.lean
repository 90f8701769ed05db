/-
  File:      SteadQ/Fencing.lean
  Subject:   LEASES: who may move a job, and how often it is handed out.

  Every move makes a job one generation older, and the generation is part of its name; so a name
  that was left is never taken again. The exact path of a lease is therefore a fence.
-/
import SteadQ.Promises

namespace SteadQ

open Octet Interact Board

variable {codec : CursorCodec} {f : FormatRecord} {c₀ c c₁ c₂ c₃ : QueueConfig}

/-! ## 1. Names are used once -/

/-- The entry of a job left a name: it stands elsewhere. -/
theorem board_left (h₀ : Fresh f c₀) (hc : (queueSystem codec).Reachable c₀ c) {p : Path}
    {n : Name} {x : Condition} (hx : x.1 ≠ .receipt) (hgone : c.world.fileAt p n = none) :
    board c.past x.2.jobId ≠ .held x (p, n) := by
  intro hheld
  have hsome := (tracks_of_run h₀ hc).present hheld hx
  rw [show c.world.files (p, n) = none from hgone] at hsome
  cases hsome

theorem left_for_good (h₀ : Fresh f c₀) (h₁ : (queueSystem codec).Reachable c₀ c₁)
    (h₁₂ : (queueSystem codec).Reachable c₁ c₂) (h₂₃ : (queueSystem codec).Reachable c₂ c₃)
    {p : Path} {n : Name} {i : Ino} {x : Condition} (hi : c₁.world.fileAt p n = some i)
    (hx : jobName p n = some x) (hstate : x.1 ≠ .receipt) (hgone : c₂.world.fileAt p n = none) :
    c₃.world.fileAt p n = none := by
  have h₂ := h₁.trans h₁₂
  refine Option.eq_none_iff_forall_not_mem.mpr fun j hj => ?_
  have hback := board_of_entry h₀ (h₂.trans h₂₃) hj hx
  exact Course.left generation_lt
    (Turns.course (turns_of_run h₀ h₁ h₁₂) x.2.jobId)
    (Turns.course (turns_of_run h₀ h₂ h₂₃) x.2.jobId) (board_of_entry h₀ h₁ hi hx)
    (board_left h₀ h₂ hstate hgone) hback

/-- **A name a job has left is never taken again.** -/
theorem name_never_returns (h₀ : Fresh f c₀) (h₁ : (queueSystem codec).Reachable c₀ c₁)
    (h₁₂ : (queueSystem codec).Reachable c₁ c₂) {p : Path} {n : Name} {i : Ino} {x : Condition}
    (hi : c₁.world.fileAt p n = some i) (hx : jobName p n = some x) (hstate : x.1 ≠ .receipt)
    (hgone : c₂.world.fileAt p n = none) :
    ∀ c₃, (queueSystem codec).Reachable c₂ c₃ → c₃.world.fileAt p n = none :=
  fun _ h₂₃ => left_for_good h₀ h₁ h₁₂ h₂₃ hi hx hstate hgone

theorem name_never_returns_sample : ∃ c c' p n i y,
    (queueSystem sampleCodec).Reachable sampleConfig c ∧
    (queueSystem sampleCodec).Reachable c c' ∧ c.world.fileAt p n = some i ∧
    jobName p n = some y ∧ c'.world.fileAt p n = none ∧
    ∀ c'', (queueSystem sampleCodec).Reachable c' c'' → c''.world.fileAt p n = none := by
  obtain ⟨c, _, c', p, n, i, y, h⟩ := sample_run
  have hstate : y.1 ≠ .receipt := by
    rw [h.state]
    decide
  have hacked := h.moving.trans h.acked
  exact ⟨c, c', p, n, i, y, h.leased, hacked, h.file, h.name, h.left,
    name_never_returns fresh_sampleConfig h.leased hacked h.file h.name hstate h.left⟩

/-- The event moves the entry at a place. -/
def TakesFrom (p : Path) (n : Name) (e : QueueEvent) : Prop :=
  ∃ t s d dn, e = .acted t (.renameNoreplace s n d dn) (.ok ()) ∧ s.path = p

/-- An entry that is moved was there, and is not there any more. -/
theorem TakesFrom.leaves (h₀ : Fresh f c₀) (hc : (queueSystem codec).Reachable c₀ c) {p : Path}
    {n : Name} {m : QueueMoment} {newer older : List QueueMoment}
    (hpast : c.past = newer ++ m :: older) (h : TakesFrom p n m.event) :
    ∃ c₁ c₂ i, (queueSystem codec).Reachable c₀ c₁ ∧ c₁.past = older ∧
      c₁.world.fileAt p n = some i ∧ (queueSystem codec).Reachable c₁ c₂ ∧
      c₂.past = m :: older ∧ c₂.world.fileAt p n = none ∧
      (queueSystem codec).Reachable c₂ c := by
  obtain ⟨d₁, d₂, h₁, hp₁, hs, hp₂, h₂⟩ := hc.split h₀.past hpast
  obtain ⟨e, w⟩ := m
  obtain ⟨t, s, d, dn, rfl, rfl⟩ := h
  obtain ⟨_, _, ch, _, hw, hworld⟩ := hs.acted (hp₁.symm ▸ hp₂)
  obtain ⟨i, hi, hn, hfiles⟩ := World.renameNoreplace_ok (grown c₀ d₁ h₀ h₁).tree hw
  have hne : (s.path, n) ≠ (d.path, dn) := by
    intro hsame
    rw [hsame, hn] at hi
    cases hi
  refine ⟨d₁, d₂, i, h₁, hp₁, hi, .step .init hs, hp₂, ?_, h₂⟩
  show d₂.world.files (s.path, n) = none
  rw [hworld, hfiles, Function.update_of_ne hne, Function.update_self]

/-- **Of all calls that race for the entry of a job at most one gets it.** -/
theorem one_winner (h₀ : Fresh f c₀) (hc : (queueSystem codec).Reachable c₀ c) {p : Path}
    {n : Name} {x : Condition} {m m' : QueueMoment} {newer between older : List QueueMoment}
    (hpast : c.past = newer ++ m' :: (between ++ m :: older)) (hx : jobName p n = some x)
    (hstate : x.1 ≠ .receipt) (hm : TakesFrom p n m.event) : ¬ TakesFrom p n m'.event := by
  intro hm'
  obtain ⟨d₁, -, j, h₁, hp₁, hj, -⟩ := hm'.leaves h₀ hc hpast
  obtain ⟨e₁, e₂, i, he₁, -, hi, he₁₂, -, hgone, he₂⟩ := hm.leaves h₀ h₁ hp₁
  have hnone := left_for_good h₀ he₁ he₁₂ he₂ hi hx hstate hgone
  rw [hj] at hnone
  cases hnone

/-- The claim of the ready job is the only move from its ready name. -/
theorem one_winner_sample : ∃ c p n, ∃ m ∈ c.past, ∃ newer m',
    (queueSystem sampleCodec).Reachable sampleConfig c ∧ c.past = newer ++ m' :: c.past.tail ∧
    TakesFrom p n m.event ∧ ¬ TakesFrom p n m'.event := by
  obtain ⟨c, _, _, _, _, _, y, h⟩ := sample_run
  obtain ⟨m', rest, m, hpast, hm, hclaim⟩ := h.claim
  obtain ⟨t, s, sn, d, dn, he, x, hx⟩ := claimed_eq_some hclaim
  obtain ⟨between, older, hrest⟩ := List.append_of_mem hm
  have htakes : TakesFrom s.path sn m.event := ⟨t, s, d, dn, he, rfl⟩
  refine ⟨c, s.path, sn, m, ?_, [], m', h.leased, ?_, htakes, ?_⟩
  · rw [hpast]
    exact List.mem_cons_of_mem _ hm
  · rw [hpast]
    rfl
  · exact one_winner fresh_sampleConfig h.leased (hrest ▸ hpast : c.past = [] ++ m' :: _) hx
      nofun htakes

/-! ## 2. Stale leases -/

/-- **A call on a lease only moves the entry of the lease, and only if it never left**: a lease
    that was lost, however it was lost, moves no job. -/
theorem stale_lease_harmless (h₀ : Fresh f c₀) (hc : (queueSystem codec).Reachable c₀ c) {t : Tid}
    {op : Op} {lease : LeaseInfo} {s d : Dir} {sn dn : Name}
    {k : Act.Resp (.renameNoreplace s sn d dn) → Prog Act.Resp (OpResult × Handle)}
    (hrun : c.threads t = .running op (.act (.renameNoreplace s sn d dn) k))
    (hlease : op.leaseInfo = some lease) {ch : Choice} {w : World}
    (hw : c.world.step t (.renameNoreplace s sn d dn) ch = some (.ok (), w)) {y : Condition}
    (hy : jobName s.path sn = some y) :
    lease.exactSourcePath = s.path ++ [sn] ∧
      ∀ c₁ c₂ i, (queueSystem codec).Reachable c₀ c₁ → (queueSystem codec).Reachable c₁ c₂ →
        (queueSystem codec).Reachable c₂ c → c₁.world.fileAt s.path sn = some i →
        (c₂.world.fileAt s.path sn).isSome := by
  obtain ⟨g, hg, hallow, -⟩ := (h₀.obeys hc).act hrun
  have hop : g.1.op.leaseInfo = some lease := by
    rw [running_op h₀ hc hrun hg]
    exact hlease
  obtain ⟨j, hj, -⟩ := World.renameNoreplace_ok (grown c₀ c h₀ hc).tree hw
  have hmoves : g.1.Moves f s.path sn d.path dn := hallow.1
  have hscope : lease.exactSourcePath = s.path ++ [sn] ∧ y.1 ≠ .receipt := by
    cases hmoves with
    | publish o hown htmp hpub =>
      rw [jobName_tmp sn htmp] at hy
      cases hy
    | transit operation a b l htr hscope =>
      have hsource : y = _ := Option.some.inj (hy.symm.trans htr.source)
      refine ⟨hscope lease hop, ?_⟩
      rw [hsource]
      cases operation <;> exact nofun
    | restore operation a b hsrc hsucc hdst hperm hrec hfits =>
      rw [Op.leaseInfo_of_recovers hrec] at hop
      cases hop
    | quarantine id reason hsrc hdst hname hnone =>
      rw [hnone] at hop
      cases hop
  refine ⟨hscope.1, fun c₁ c₂ i h₁ h₁₂ h₂ hi => ?_⟩
  by_contra hnone
  have hgone := left_for_good h₀ h₁ h₁₂ h₂ hi hy hscope.2 (Option.not_isSome_iff_eq_none.mp hnone)
  rw [show c.world.fileAt s.path sn = some j from hj] at hgone
  cases hgone

/-- The rename of an acknowledgment. -/
theorem stale_lease_harmless_sample : ∃ c t op lease s d sn dn k w,
    (queueSystem sampleCodec).Reachable sampleConfig c ∧
    c.threads t = .running op (.act (.renameNoreplace s sn d dn) k) ∧
    op.leaseInfo = some lease ∧
    c.world.step t (.renameNoreplace s sn d dn) .plain = some (.ok (), w) ∧
    lease.exactSourcePath = s.path ++ [sn] := by
  obtain ⟨c, mid, c', p, n, i, y, h⟩ := sample_run
  obtain ⟨op, l, s, d, dn, k, ht, rfl, hl, w, hw⟩ := h.pending
  have hc := h.leased.trans h.moving
  exact ⟨mid, 0, op, l, s, d, n, dn, k, w, hc, ht, hl, hw,
    (stale_lease_harmless fresh_sampleConfig hc ht hl hw h.name).1⟩

/-! ## 3. Deliveries -/

/-- The event hands job `id` to a caller. -/
def delivers (id : JobId) : QueueEvent → Bool
  | .returned _ _ (.lease (.leased info)) _ => info.jobId = id
  | _ => false

/-- How often a job was handed out. -/
def deliveriesOf (id : JobId) (past : List QueueMoment) : Nat :=
  past.countP fun m => delivers id m.event

/-- Handles that have claimed job `id` and not returned, once for every claim. -/
def openClaims (id : JobId) : List QueueMoment → List Tid
  | [] => []
  | ⟨.acted t a r, _⟩ :: past =>
    if claimed (.acted t a r) = some id then t :: openClaims id past else openClaims id past
  | ⟨.returned t _ _ _, _⟩ :: past => (openClaims id past).filter (· ≠ t)
  | ⟨.killed t, _⟩ :: past => (openClaims id past).filter (· ≠ t)
  | ⟨.started _ _ _, _⟩ :: past => openClaims id past

theorem claimed_of_mem {t : Tid} {a : Act} {r : a.Resp} {id : JobId}
    (h : id ∈ (match (⟨a, r⟩ : Sigma Act.Resp) with
      | ⟨.renameNoreplace s sn d dn, .ok _⟩ => claimOf s.path sn d.path dn
      | _ => none).toList) : claimed (.acted t a r) = some id := by
  split at h
  · rename_i s sn d dn u heq
    cases heq
    exact Option.mem_toList.mp h
  · cases h

/-- Every delivery has a claim of its own. -/
structure Accounts (id : JobId) (s : QueueScene) : Prop where
  opened : ∀ t g, s.ghost t = some g → id ∈ g.1.claims → t ∈ openClaims id s.past
  paid : deliveriesOf id s.past + (openClaims id s.past).length ≤ claimsOf id s.past

theorem mem_filter_ne {t u : Tid} {l : List Tid} (hu : u ∈ l) (hne : u ≠ t) :
    u ∈ l.filter (· ≠ t) := List.mem_filter.mpr ⟨hu, by simpa using hne⟩

theorem accounts (id : JobId) : Throughout codec f (Accounts id) := by
  refine throughout (K := fun _ => True) (fun _ _ _ _ => trivial) ⟨?_, ?_, ?_, ?_⟩ fun c h₀ => ?_
  · intro s t op h _ hj _ _ _
    refine ⟨fun u g hg hid => ?_, hj.paid⟩
    rcases update_eq_some.mp hg with ⟨-, hg₁⟩ | ⟨-, hg₁⟩
    · cases hg₁
      cases hid
    · exact hj.opened u g hg₁ hid
  · intro s t g a ch r w _ hj hg _ _ _
    have hopen : openClaims id (⟨.acted t a r, w⟩ :: s.past) =
        if claimed (.acted t a r) = some id then t :: openClaims id s.past
        else openClaims id s.past := rfl
    have hclaims : claimsOf id (⟨.acted t a r, w⟩ :: s.past) =
        claimsOf id s.past + if claimed (.acted t a r) = some id then 1 else 0 := by
      unfold claimsOf
      rw [List.countP_cons]
      simp only [decide_eq_true_eq]
    refine ⟨fun u g' hg' hid => ?_, ?_⟩
    · show u ∈ openClaims id (⟨.acted t a r, w⟩ :: s.past)
      rw [hopen]
      rcases update_eq_some.mp hg' with ⟨rfl, hg₁⟩ | ⟨-, hg₁⟩
      · cases hg₁
        -- an old claim, or the one of this call
        have hmem : id ∈ (g.1.next a r).claims := hid
        rw [next_claims] at hmem
        split
        · exact List.mem_cons_self
        · rename_i hnot
          rcases List.mem_append.mp hmem with hnew | hold
          · exact absurd (claimed_of_mem hnew) hnot
          · exact hj.opened _ g hg hold
      · have hin := hj.opened u g' hg₁ hid
        split
        · exact List.mem_cons_of_mem _ hin
        · exact hin
    · show deliveriesOf id s.past + (openClaims id (⟨.acted t a r, w⟩ :: s.past)).length ≤
        claimsOf id (⟨.acted t a r, w⟩ :: s.past)
      have hpaid := hj.paid
      rw [hopen, hclaims]
      split
      · rw [List.length_cons]
        omega
      · omega
  · intro s t g op r h _ hj hg hpost
    refine ⟨fun u g' hg' hid => ?_, ?_⟩
    · rcases update_eq_some.mp hg' with ⟨-, hg₁⟩ | ⟨hne, hg₁⟩
      · cases hg₁
      · exact mem_filter_ne (hj.opened u g' hg₁ hid) hne
    · show deliveriesOf id (⟨.returned t op r h, s.world⟩ :: s.past) +
        ((openClaims id s.past).filter (· ≠ t)).length ≤ claimsOf id s.past
      have hpaid := hj.paid
      have hle := List.length_filter_le (fun u => decide (u ≠ t)) (openClaims id s.past)
      unfold deliveriesOf at hpaid ⊢
      rw [List.countP_cons]
      split
      · rename_i hdel
        -- the claim of this call is closed
        have hin : t ∈ openClaims id s.past := by
          refine hj.opened t g hg ?_
          unfold delivers at hdel
          split at hdel
          · rename_i info _ heq
            cases heq
            obtain rfl : info.jobId = id := of_decide_eq_true hdel
            exact hpost.2 info rfl
          · cases hdel
        have hlt : ((openClaims id s.past).filter (· ≠ t)).length <
            (openClaims id s.past).length :=
          List.length_filter_lt_length_iff_exists.mpr ⟨t, hin, by simp⟩
        omega
      · omega
  · intro s t _ hj
    refine ⟨fun u g' hg' hid => ?_, ?_⟩
    · rcases update_eq_some.mp hg' with ⟨-, hg₁⟩ | ⟨hne, hg₁⟩
      · cases hg₁
      · exact mem_filter_ne (hj.opened u g' hg₁ hid) hne
    · exact Nat.le_trans (Nat.add_le_add_left (List.length_filter_le _ _) _) hj.paid
  · refine ⟨fun t g hg => ?_, ?_⟩
    · rw [h₀.ghost t] at hg
      cases hg
    · rw [show (sceneOf f c).past = [] from h₀.past]
      exact Nat.le_refl 0

/-- **A job is handed out at most as often as its maximum says.** The maximum is that of any name
    the job ever had; results are counted over all handles. -/
theorem deliveries_within_maximum (h₀ : Fresh f c₀) (hc : (queueSystem codec).Reachable c₀ c)
    {m : QueueMoment} (hm : m ∈ c.past) {id : JobId} {y : Condition} (hl : Lands id y m.event) :
    deliveriesOf id c.past ≤ y.2.maximumAttempts.toNat := by
  obtain ⟨z, hz, hmax⟩ := board_of_lands h₀ hc hm hl
  have hpaid : deliveriesOf id c.past + (openClaims id c.past).length ≤ claimsOf id c.past :=
    (accounts id c₀ c h₀ hc).paid
  have hclaims : claimsOf id c.past = attempts (board c.past id) := (ledger c₀ c h₀ hc).claims id
  have hattempts : attempts (board c.past id) = z.2.attempt.toNat := by
    cases hσ : board c.past id with
    | unborn =>
      rw [hσ] at hz
      cases hz
    | held x p =>
      rw [hσ] at hz
      cases hz
      rfl
    | gone x =>
      rw [hσ] at hz
      cases hz
      rfl
  have hbound := ((lived_of_run h₀ hc).bounds hz).attempt
  rw [hmax] at hbound
  omega

/-- A job that was handed out once. -/
theorem deliveries_within_maximum_sample : ∃ c id y, ∃ m ∈ c.past,
    (queueSystem sampleCodec).Reachable sampleConfig c ∧ Lands id y m.event ∧
    deliveriesOf id c.past ≤ y.2.maximumAttempts.toNat := by
  obtain ⟨c, _, _, p, n, i, y, h⟩ := sample_run
  have hheld := board_of_entry fresh_sampleConfig h.leased h.file h.name
  obtain ⟨m, hm, hl⟩ := (board_told c.past y.2.jobId).1 y (p, n) hheld
  exact ⟨c, _, _, m, hm, h.leased, hl,
    deliveries_within_maximum fresh_sampleConfig h.leased hm hl⟩

end SteadQ
