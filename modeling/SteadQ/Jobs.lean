/-
  File:      SteadQ/Jobs.lean
  Subject:   EVERY RUN OF EVERY NUMBER OF HANDLES IS A PLAY OF THE LIFE OF JOBS.

  The history of a run determines a board: a link or a rename without replacement puts a job
  where the name says, a rename to quarantine takes it off. The file system agrees with this
  board all along, and every call is a turn of the lifecycle or leaves the board as it is. The
  protocol facts of `Lifecycle` then hold of every run.
-/
import SteadQ.Lifecycle
import SteadQ.Runs

namespace SteadQ

open Octet Interact Board

variable {codec : CursorCodec} {f : FormatRecord}

/-! ## 1. The board of a history -/

/-- What a place says: which job lies there, in which condition. -/
def jobAt (x : Path × Name) : Option (JobId × Condition) :=
  (jobName x.1 x.2).map fun y => (y.2.jobId, y)

/-- Only receipts are ever removed. -/
def Removable (y : Condition) : Prop := y.1 = .receipt

def landed (σ : JobBoard) (x : Path × Name) : JobBoard :=
  match jobAt x with
  | some (id, y) => Function.update σ id (.held y x)
  | none => σ

/-- A job went to quarantine; a receipt that does stays recorded where it was. -/
def withdrawn (σ : JobBoard) (x : Path × Name) : JobBoard :=
  match jobAt x with
  | some (id, y) => if y.1 = .receipt then σ else Function.update σ id (.gone y)
  | none => σ

def recorded (σ : JobBoard) : QueueEvent → JobBoard
  | .acted _ (.linkat _ _ d n) (.ok _) => landed σ (d.path, n)
  | .acted _ (.renameNoreplace s sn d dn) (.ok _) =>
    if (jobAt (d.path, dn)).isSome then landed σ (d.path, dn) else withdrawn σ (s.path, sn)
  | _ => σ

/-- Where jobs stand behind a history. -/
def board : List QueueMoment → JobBoard
  | [] => noJobs
  | m :: past => recorded (board past) m.event

/-- The job an event claims. -/
def claimed : QueueEvent → Option JobId
  | .acted _ (.renameNoreplace s sn d dn) (.ok _) => claimOf s.path sn d.path dn
  | _ => none

/-- How often a job was claimed. -/
def claimsOf (id : JobId) (past : List QueueMoment) : Nat :=
  past.countP fun m => claimed m.event = some id

def attempts : Standing Condition (Path × Name) → Nat
  | .unborn => 0
  | .held x _ => x.2.attempt.toNat
  | .gone x => x.2.attempt.toNat

theorem recorded_of_unlanded (σ : JobBoard) (t : Tid) {a : Act} {r : a.Resp}
    (h : a.lands r = false) :
    recorded σ (.acted t a r) = σ ∧ claimed (.acted t a r) = none := by
  cases a with
  | linkat form i d n =>
    cases r with
    | error e => exact ⟨rfl, rfl⟩
    | ok u => cases h
  | renameNoreplace s sn d dn =>
    cases r with
    | error e => exact ⟨rfl, rfl⟩
    | ok u => cases h
  | _ => exact ⟨rfl, rfl⟩

/-! ## 2. Turns -/

/-- One event: the board takes a turn or stays, the files follow it, ids that appear are fresh
    ones, and a claim is one attempt. -/
structure Entered (fresh : JobId → Prop) (claim : Option JobId) (w : World) (σ σ' : JobBoard) :
    Prop where
  turns : Turns lifecycle σ σ'
  tracks : Tracks jobAt Removable w.files σ'
  issued : ∀ id, σ' id ≠ .unborn → σ id ≠ .unborn ∨ fresh id
  claims : ∀ id, attempts (σ' id) = attempts (σ id) + if claim = some id then 1 else 0

section Entered

variable {fresh : JobId → Prop} {claim : Option JobId} {w : World} {σ : JobBoard} {id : JobId}
  {x y : Condition} {p q : Path × Name}

theorem Entered.same (h : Tracks jobAt Removable w.files σ) : Entered fresh none w σ σ :=
  ⟨.refl, h, fun _ hid => .inl hid, fun _ => rfl⟩

/-- A change of one job. -/
theorem entered_update {s : Standing Condition (Path × Name)} (hc : Change lifecycle id (σ id) s)
    (h : Tracks jobAt Removable w.files (Function.update σ id s)) (hf : σ id ≠ .unborn ∨ fresh id)
    (hclaim : ∀ k, claim = some k → k = id)
    (ha : attempts s = attempts (σ id) + if claim = some id then 1 else 0) :
    Entered fresh claim w σ (Function.update σ id s) := by
  refine ⟨.single ⟨id, s, hc, rfl⟩, h, fun k hk => ?_, fun k => ?_⟩
  · by_cases hkid : k = id
    · subst hkid
      exact hf
    · rw [Function.update_of_ne hkid] at hk
      exact .inl hk
  · by_cases hkid : k = id
    · subst hkid
      rw [Function.update_self]
      exact ha
    · have hne : claim ≠ some k := fun hk => hkid (hclaim k hk)
      rw [Function.update_of_ne hkid, if_neg hne, Nat.add_zero]

end Entered

/-! ## 3. What one call does -/

theorem jobAt_eq_some {x : Path × Name} {id : JobId} {y : Condition} :
    jobAt x = some (id, y) ↔ jobName x.1 x.2 = some y ∧ y.2.jobId = id := by
  unfold jobAt
  rw [Option.map_eq_some_iff]
  constructor
  · rintro ⟨z, hz, h⟩
    cases h
    exact ⟨hz, rfl⟩
  · rintro ⟨h, rfl⟩
    exact ⟨y, h, rfl⟩

theorem jobAt_of_jobName {p : Path} {n : Name} {y : Condition} (h : jobName p n = some y) :
    jobAt (p, n) = some (y.2.jobId, y) := jobAt_eq_some.mpr ⟨h, rfl⟩

theorem jobAt_eq_none {x : Path × Name} (h : jobName x.1 x.2 = none) : jobAt x = none := by
  unfold jobAt
  rw [h]
  rfl

theorem landed_of_jobAt {σ : JobBoard} {x : Path × Name} {id : JobId} {y : Condition}
    (h : jobAt x = some (id, y)) : landed σ x = Function.update σ id (.held y x) := by
  unfold landed
  rw [h]

/-- What lies in a directory that is scanned for quarantine, apart from receipts. -/
theorem clearable_of_source {p : Path} {n : Name} {y : Condition} (h : quarantineSource p)
    (hy : jobName p n = some y) (hr : y.1 ≠ .receipt) : Clearable y := by
  obtain ⟨root, hroot, hr'⟩ := h
  unfold jobName at hy
  rw [hroot] at hy
  dsimp only at hy
  have hdead : root ≠ State.dead.dirName := by
    rcases hr' with rfl | rfl | rfl | rfl <;> decide
  split_ifs at hy
  · split at hy
    · cases hy
      exact .inl rfl
    · cases hy
      exact .inr (.inl rfl)
    · cases hy
  · obtain ⟨_, -, rfl⟩ := Option.map_eq_some_iff.mp hy
    exact .inr (.inl rfl)
  · obtain ⟨_, -, rfl⟩ := Option.map_eq_some_iff.mp hy
    exact .inr (.inr rfl)
  · obtain ⟨_, -, rfl⟩ := Option.map_eq_some_iff.mp hy
    exact absurd rfl hr

/-- A name under which a job is published is one of a new job. -/
theorem Ghost.Publishes.born {g : Ghost} {p : Path} {n : Name} (h : g.Publishes f p n) :
    ∃ id y, jobAt (p, n) = some (id, y) ∧ Born id y ∧ id ∈ g.drawn := by
  obtain ⟨l, c, hlands, hplace, hgen, hattempt, hmax, hid⟩ := h
  have hstate : l.state = .ready ∨ l.state = .delayed := by
    obtain rfl | ⟨nb, rfl⟩ := hplace
    · exact .inl rfl
    · exact .inr rfl
  exact ⟨c.jobId, (l.state, c), jobAt_of_jobName (jobName_of_landsAt hlands),
    ⟨rfl, hstate, hgen, hattempt, hmax⟩, hid⟩

section Calls

variable {σ : JobBoard} {w w' : World} {deal : Tid → List (Octets 16)} {used : List (Octets 16)}
  {t : Tid} {g : Ghost}

/-- **A job is published.** Its id was drawn by this call, so no job has it. -/
theorem enter_published {files : Path × Name → Option Ino} {p : Path} {n : Name} {i : Ino}
    {fresh : JobId → Prop} (h : Tracks jobAt Removable files σ) (hpub : g.Publishes f p n)
    (hnew : ∀ id ∈ g.drawn, σ id = .unborn)
    (hfresh : ∀ id ∈ g.drawn, ∀ y, jobName p n = some y → y.2.jobId = id → fresh id)
    (hfiles : w'.files = Function.update files (p, n) (some i)) :
    Entered fresh none w' σ (landed σ (p, n)) := by
  obtain ⟨id, y, hjob, hborn, hid⟩ := hpub.born
  have hun := hnew id hid
  have hname := jobAt_eq_some.mp hjob
  have htracks : Tracks jobAt Removable w'.files (Function.update σ id (.held y (p, n))) := by
    rw [hfiles]
    refine h.place (fun l q hl => ?_) hjob i
    rw [hun] at hl
    cases hl
  rw [landed_of_jobAt hjob]
  refine entered_update ?_ htracks (.inr (hfresh id hid y hname.1 hname.2)) nofun ?_
  · rw [hun]
    exact .birth _ hborn
  · rw [hun]
    show y.2.attempt.toNat = 0 + 0
    rw [hborn.attempt]
    rfl

/-- **A job moves on.** -/
theorem enter_moved {p q : Path} {n m : Name} {i : Ino} {op : Operation} {c c' : CommonFields}
    {fresh : JobId → Prop} (h : Tracks jobAt Removable w.files σ)
    (hsrc : jobName p n = some ((transition op).source, c))
    (hdst : jobName q m = some ((transition op).destination, c'))
    (hsucc : Succeeds op c c') (hfits : op.Fits c) (hi : w.files (p, n) = some i)
    (hfiles : w'.files =
      Function.update (Function.update w.files (p, n) none) (q, m) (some i)) :
    Entered fresh (claimOf p n q m) w' σ (landed σ (q, m)) := by
  have hjob := jobAt_of_jobName hsrc
  have hjob' : jobAt (q, m) = some (c.jobId, ((transition op).destination, c')) :=
    jobAt_eq_some.mpr ⟨hdst, hsucc.jobId⟩
  have hheld := h.sound hi hjob
  have htracks : Tracks jobAt Removable w'.files
      (Function.update σ c.jobId (.held ((transition op).destination, c') (q, m))) := by
    rw [hfiles]
    exact h.move hi hjob hjob' i
  -- only the row of the claim leads from ready to leased
  have hclaim : claimOf p n q m = if op = .claim then some c.jobId else none := by
    unfold claimOf
    rw [hsrc, hdst]
    cases op <;> rfl
  rw [landed_of_jobAt hjob']
  refine entered_update ?_ htracks (.inl ?_) (fun k hk => ?_) ?_
  · rw [hheld]
    exact .next _ ⟨op, rfl, rfl, hsucc, hfits⟩
  · rw [hheld]
    exact nofun
  · rw [hclaim] at hk
    split at hk
    · exact (Option.some.inj hk).symm
    · cases hk
  · rw [hheld, hclaim]
    show c'.attempt.toNat = c.attempt.toNat + _
    rw [hsucc.attempt]
    split <;> simp

/-- **An object goes to quarantine.** -/
theorem enter_quarantined {p q : Path} {n m : Name} {i : Ino} {fresh : JobId → Prop}
    (h : Tracks jobAt Removable w.files σ) (hsrc : quarantineSource p)
    (hdst : jobAt (q, m) = none) (hi : w.files (p, n) = some i)
    (hfiles : w'.files =
      Function.update (Function.update w.files (p, n) none) (q, m) (some i)) :
    Entered fresh none w' σ (withdrawn σ (p, n)) := by
  have hfill : ∀ {files : Path × Name → Option Ino} {σ' : JobBoard},
      Tracks jobAt Removable files σ' →
      Tracks jobAt Removable (Function.update files (q, m) (some i)) σ' := by
    intro files σ' h'
    refine h'.refill (fun k l hl => ?_) i
    rw [hdst] at hl
    cases hl
  have hstay : (∀ k l, jobAt (p, n) = some (k, l) → Removable l) → Entered fresh none w' σ σ := by
    intro hspare
    refine .same ?_
    rw [hfiles]
    exact hfill (h.drop hspare)
  unfold withdrawn
  split
  · rename_i id y hjob
    split
    · rename_i hreceipt
      refine hstay fun k l hl => ?_
      rw [hjob] at hl
      cases hl
      exact hreceipt
    · rename_i hreceipt
      have hheld := h.sound hi hjob
      have htracks : Tracks jobAt Removable w'.files (Function.update σ id (.gone y)) := by
        rw [hfiles]
        exact hfill (h.retire hi hjob)
      refine entered_update ?_ htracks (.inl ?_) nofun ?_
      · rw [hheld]
        exact .leave (clearable_of_source hsrc (jobAt_eq_some.mp hjob).1 hreceipt)
      · rw [hheld]
        exact nofun
      · rw [hheld]
        rfl
  · rename_i hnone
    refine hstay fun k l hl => ?_
    rw [hnone] at hl
    cases hl

end Calls

/-! ## 4. The ledger -/

/-- What a pass has seen is there: files exist, and a receipt it saw is recorded where it saw it. -/
structure Sighted (w : World) (σ : JobBoard) (v : Sight) : Prop where
  files : ∀ i ∈ v.files, (w.inodes i).isSome
  seen : ∀ x ∈ v.seen, ∀ id y, jobAt x = some (id, y) → y.1 = .receipt → σ id = .held y x

/-- **The files and the history tell the same story.** -/
structure Ledger (s : QueueScene) : Prop where
  tracks : Tracks jobAt Removable s.world.files (board s.past)
  issued : ∀ id, board s.past id ≠ .unborn → UsedUp (dealt s) s.world.drawn id
  sighted : ∀ t g v, s.ghost t = some g → g.2 = some v → Sighted s.world (board s.past) v
  claims : ∀ id, claimsOf id s.past = attempts (board s.past id)
  played : ∀ newer older, s.past = newer ++ older → Turns lifecycle (board older) (board s.past)

/-- What is known beforehand. -/
structure Grounded (s : QueueScene) : Prop where
  grown : Grown s
  draws : Dealt (dealt s) s.world.drawn
  places : ∀ t g, s.ghost t = some g → Places g

theorem grounded : Throughout codec f Grounded := fun c₀ c h₀ hc =>
  ⟨grown c₀ c h₀ hc, draws c₀ c h₀ hc, places c₀ c h₀ hc⟩

section Step

variable {s : QueueScene} {t : Tid} {g : Watched} {a : Act} {ch : Choice} {r : a.Resp} {w : World}

/-- An id a call has drawn is not in use. -/
theorem Ledger.unborn (hl : Ledger s) (hg : s.ghost t = some g) {id : JobId}
    (hid : id ∈ g.1.drawn) : board s.past id = .unborn := by
  by_contra hne
  have hspent := (hl.issued id hne).out t
  rw [dealt, hg] at hspent
  exact hspent hid

/-- The id of the job a call publishes is spent. -/
theorem spent_useJobId (hd : Dealt (dealt s) s.world.drawn) (hg : s.ghost t = some g) {p : Path}
    {n : Name} {s' : QueueScene} {g' : Watched} {g₀ : Ghost}
    (hs' : s'.ghost = Function.update s.ghost t (some g')) (hw : s'.world.drawn = s.world.drawn)
    (hg' : g'.1.drawn = (g₀.useJobId p n).drawn) {id : JobId} (hid : id ∈ g.1.drawn) {y : Condition}
    (hy : jobName p n = some y) (hjob : y.2.jobId = id) : UsedUp (dealt s') s'.world.drawn id := by
  have hin : id ∈ dealt s t := by
    rw [dealt, hg]
    exact hid
  rw [dealt_update hs', hw]
  refine hd.spend hin ?_
  show id ∉ g'.1.drawn
  rw [hg', Ghost.useJobId, hy]
  simp [hjob]

/-- The place of a receipt that a pass replaces is recorded. -/
theorem Ledger.replaces (hl : Ledger s) (hg : s.ghost t = some g) (hp : Places g)
    {d d' : Dir} {n n' : Name} (hallow : (watch f).allow g (.renameat d n d' n')) :
    jobAt (d.path, n) = none ∧
      ∀ id y, jobAt (d'.path, n') = some (id, y) → board s.past id = .held y (d'.path, n') := by
  obtain ⟨hpath, -, hown, hdst⟩ : g.1.Replaces d.path n d'.path n' := hallow.1
  obtain ⟨o, ho⟩ := Option.isSome_iff_exists.mp hown
  have hmem := List.mem_of_find?_eq_some ho
  have hplace : o.place = some (d.path, n) := by
    simpa [Ghost.ownAt] using List.find?_some ho
  refine ⟨jobAt_eq_none (hp.unnamed o hmem _ _ hplace), fun id y hjob => ?_⟩
  rcases hdst with ⟨hroot, -⟩ | ⟨hc, -⟩ | ⟨hc, -⟩
  · -- a receipt: it was seen in this pass
    have hrec := hp.receipts o hmem _ _ hplace (hpath ▸ hroot)
    obtain ⟨v, hv⟩ := Option.isSome_iff_exists.mp (hp.watched hrec)
    have hcontrol : d.path ≠ controlPath := by
      intro hd
      rw [← hpath, hd] at hroot
      exact absurd hroot (by decide)
    have hseen := (hallow.2 v hv).resolve_left hcontrol
    have hname := (jobAt_eq_some.mp hjob).1
    rw [jobName_receipt_eq hroot] at hname
    obtain ⟨parsed, -, rfl⟩ := Option.map_eq_some_iff.mp hname
    exact (hl.sighted t g v hg hv).seen _ hseen id _ hjob rfl
  · rw [hc, jobAt_eq_none (jobName_control _)] at hjob
    cases hjob
  · rw [hc, jobAt_eq_none (jobName_control _)] at hjob
    cases hjob

theorem Ghost.Unlinkable.removable {g : Ghost} {p : Path} {n : Name} (h : g.Unlinkable p n)
    (id : JobId) (y : Condition) (hjob : jobAt (p, n) = some (id, y)) : Removable y := by
  have hname := (jobAt_eq_some.mp hjob).1
  rcases h with hp | ⟨-, hp⟩ | ⟨hp, -⟩
  · rw [jobName_tmp n hp] at hname
    cases hname
  · rw [jobName_receipt_eq hp] at hname
    obtain ⟨parsed, -, rfl⟩ := Option.map_eq_some_iff.mp hname
    rfl
  · rw [hp, jobName_control] at hname
    cases hname

theorem Ghost.Creates.unnamed {g : Ghost} {p : Path} {n : Name} (h : g.Creates p n) :
    jobAt (p, n) = none := by
  rcases h with ⟨hp, -⟩ | ⟨x, rest, -, ⟨hp, -⟩ | ⟨hp, -⟩ | ⟨-, hp, hn⟩⟩
  · exact jobAt_eq_none (hp ▸ jobName_control n)
  · exact jobAt_eq_none (jobName_tmp n hp)
  · exact jobAt_eq_none (hp ▸ jobName_control n)
  · exact jobAt_eq_none (hn ▸ jobName_compaction x hp)

/-- **An admitted call is a turn or leaves the board as it is.** -/
theorem Ledger.act (hs : Grounded s) (hl : Ledger s) (hg : s.ghost t = some g)
    (hallow : (watch f).allow g a) (hw : s.world.step t a ch = some (r, w)) :
    Entered (UsedUp (dealt (s.act t (watch f) g a r w)) w.drawn) (claimed (.acted t a r)) w
      (board s.past) (recorded (board s.past) (.acted t a r)) := by
  have hplaces := hs.places t g hg
  cases World.step_refiles hs.grown.tree hw with
  | same h hlands =>
    obtain ⟨hboard, hclaim⟩ := recorded_of_unlanded (board s.past) t hlands
    rw [hboard, hclaim]
    refine .same ?_
    rw [h]
    exact hl.tracks
  | @dropped d n h =>
    have hrem := Ghost.Unlinkable.removable (show g.1.Unlinkable d.path n from hallow.1)
    refine .same ?_
    rw [h]
    exact hl.tracks.drop hrem
  | @created d n i hn hi h =>
    have hnone := Ghost.Creates.unnamed (show g.1.Creates d.path n from hallow.1)
    refine .same ?_
    rw [h]
    refine hl.tracks.refill (fun k l hjob => ?_) i
    rw [hnone] at hjob
    cases hjob
  | @linked form i d n hn h =>
    have hdrawn : w.drawn = s.world.drawn := World.step_drawn hw nofun
    exact enter_published hl.tracks hallow.1.2 (fun id hid => hl.unborn hg hid)
      (fun id hid y => spent_useJobId hs.draws hg rfl hdrawn rfl hid) h
  | @moved d d' n n' i hi hn h =>
    have hmoves : g.1.Moves f d.path n d'.path n' := hallow.1
    have hrecorded : ∀ {y : Condition}, jobName d'.path n' = some y →
        recorded (board s.past) (.acted t (.renameNoreplace d n d' n') (.ok ())) =
          landed (board s.past) (d'.path, n') := by
      intro y hy
      have hsome : (jobAt (d'.path, n')).isSome := by
        rw [jobAt_of_jobName hy]
        rfl
      exact if_pos hsome
    cases hmoves with
    | publish o hown htmp hpub =>
      have hsrc : jobAt (d.path, n) = none := jobAt_eq_none (jobName_tmp n htmp)
      obtain ⟨id, y, hjob, -, -⟩ := hpub.born
      have hnone : claimed (.acted t (.renameNoreplace d n d' n') (.ok ())) = none := by
        show claimOf d.path n d'.path n' = none
        unfold claimOf
        rw [jobName_tmp n htmp]
      have htracks : Tracks jobAt Removable (Function.update s.world.files (d.path, n) none)
          (board s.past) := by
        refine hl.tracks.drop fun k l hk => ?_
        rw [hsrc] at hk
        cases hk
      have hdrawn : w.drawn = s.world.drawn := World.step_drawn hw nofun
      have hnext : ∃ g₀ : Ghost, (g.1.next (.renameNoreplace d n d' n') (.ok ())).drawn =
          (g₀.useJobId d'.path n').drawn := ⟨_, by rw [Ghost.next, if_pos htmp]⟩
      obtain ⟨g₀, hnext⟩ := hnext
      rw [hrecorded (jobAt_eq_some.mp hjob).1, hnone]
      exact enter_published htracks hpub (fun id hid => hl.unborn hg hid)
        (fun id hid y => spent_useJobId hs.draws hg rfl hdrawn hnext hid) h
    | transit op c c' l htr hscope =>
      have hdst : jobName d'.path n' = some ((transition op).destination, c') := by
        rw [jobName_of_landsAt htr.lands, htr.state]
      rw [hrecorded hdst]
      exact enter_moved hl.tracks htr.source hdst htr.succeeds htr.attempts hi h
    | restore op c c' hsrc hsucc hdst hperm hrec hfits =>
      rw [hrecorded hdst]
      exact enter_moved hl.tracks hsrc hdst hsucc hfits hi h
    | quarantine id reason hsrc hdst hname hop =>
      have hnone : jobAt (d'.path, n') = none := by
        rw [hdst]
        exact jobAt_eq_none (jobName_quarantine _)
      have hclaim : claimed (.acted t (.renameNoreplace d n d' n') (.ok ())) = none := by
        show claimOf d.path n d'.path n' = none
        unfold claimOf
        rw [hdst, jobName_quarantine]
        split
        · rename_i hd
          cases hd
        · rfl
      have hboard : recorded (board s.past) (.acted t (.renameNoreplace d n d' n') (.ok ())) =
          withdrawn (board s.past) (d.path, n) := by
        refine if_neg ?_
        rw [hnone]
        exact Bool.false_ne_true
      rw [hboard, hclaim]
      exact enter_quarantined hl.tracks hsrc hnone hi h
  | @replaced d d' n n' i hi h =>
    obtain ⟨hsrc, hdst⟩ := hl.replaces hg hplaces hallow
    refine .same ?_
    rw [h]
    refine Tracks.refill (hl.tracks.drop fun k l hk => ?_) hdst i
    rw [hsrc] at hk
    cases hk

/-- A receipt that was seen stays recorded, and files are never destroyed. -/
theorem Sighted.turns {w' : World} {σ σ' : JobBoard} {v : Sight} (h : Sighted w σ v)
    (hσ : Turns lifecycle σ σ') (hi : ∀ i, (w.inodes i).isSome → (w'.inodes i).isSome) :
    Sighted w' σ' v := by
  refine ⟨fun i hv => hi i (h.files i hv), fun x hx id y hjob hy => ?_⟩
  have hheld := h.seen x hx id y hjob hy
  rw [ended_stays hσ (.inl ⟨y, x, hheld, .inl hy⟩)]
  exact hheld

/-- What a call adds to the sight of its pass. -/
theorem Sighted.next {σ : JobBoard} {v : Sight} {w₀ : World} (h : Sighted w₀ σ v)
    (ha : w₀.Apart) (htracks : Tracks jobAt Removable w₀.files σ)
    (hw : w₀.step t a ch = some (r, w)) : Sighted w₀ σ (v.next a r) := by
  cases a with
  | look l =>
    cases l with
    | fstat i =>
      cases r with
      | error e => exact h
      | ok stat =>
        dsimp only [Sight.next]
        split
        · rename_i hreg
          refine ⟨fun j hj => ?_, h.seen⟩
          rcases List.mem_cons.mp hj with rfl | hj
          · exact World.fstat_regular hw hreg
          · exact h.files j hj
        · exact h
    | fstatat d n =>
      cases r with
      | error e => exact h
      | ok stat =>
        dsimp only [Sight.next]
        split
        · rename_i hin
          refine ⟨h.files, fun x hx id y hjob hy => ?_⟩
          rcases List.mem_cons.mp hx with rfl | hx
          · exact htracks.sound (World.fstatat_ok ha hw (h.files _ hin)) hjob
          · exact h.seen x hx id y hjob hy
        · exact h
    | _ => exact h
  | _ => exact h

/-- The ledger behind one more event. -/
theorem Ledger.enter {s' : QueueScene} {m : QueueMoment} (hl : Ledger s)
    (hpast : s'.past = m :: s.past) (hd : Deals s s')
    (he : Entered (UsedUp (dealt s') s'.world.drawn) (claimed m.event) s'.world (board s.past)
      (recorded (board s.past) m.event))
    (hv : ∀ t g v, s'.ghost t = some g → g.2 = some v →
      Sighted s'.world (recorded (board s.past) m.event) v) : Ledger s' := by
  have hboard : board s'.past = recorded (board s.past) m.event := by
    rw [hpast]
    rfl
  refine ⟨hboard ▸ he.tracks, fun id hid => ?_, hboard ▸ hv, fun id => ?_, fun newer older hn => ?_⟩
  · rw [hboard] at hid
    rcases he.issued id hid with hold | hnew
    · exact (hl.issued id hold).dealing hd
    · exact hnew
  · rw [hboard, he.claims id, hpast, claimsOf, List.countP_cons, ← hl.claims id]
    simp only [decide_eq_true_eq, claimsOf]
  · rw [hboard]
    rw [hpast] at hn
    cases newer with
    | nil =>
      cases hn
      exact .refl
    | cons x newer =>
      exact (hl.played newer older (List.cons.inj hn).2).trans he.turns

end Step

/-- A fresh queue has no jobs. -/
theorem fresh_files {c : QueueConfig} (h₀ : Fresh f c) {x : Path × Name} {id : JobId}
    {y : Condition} (hy : jobAt x = some (id, y)) : c.world.files x = none := by
  obtain ⟨record, hw⟩ := h₀.world
  have hname := (jobAt_eq_some.mp hy).1
  refine Option.eq_none_iff_forall_not_mem.mpr fun i hi => ?_
  have hentry := World.files_eq_some.mp hi
  rw [hw] at hentry
  rcases entry_fresh hentry with ⟨hp, -⟩ | ⟨hp, -⟩ | ⟨hp, -⟩
  · rw [hp] at hname
    cases hname
  · rw [hp, jobName_control] at hname
    cases hname
  · rw [hp, jobName_control] at hname
    cases hname

/-- **The ledger is right all along every run.** -/
theorem ledger : Throughout codec f Ledger := by
  refine throughout grounded ⟨?_, ?_, ?_, ?_⟩ fun c h₀ => ?_
  · intro s t op h hs hl hidle hmem hsound
    refine hl.enter rfl (start_deals s t op h) (.same hl.tracks) fun u g v hg hv => ?_
    rcases update_eq_some.mp hg with ⟨-, hg₁⟩ | ⟨-, hg₁⟩
    · cases hg₁
      have hnew : v = ⟨[], []⟩ := by
        simp only [Watched.enter, Sight.enter] at hv
        split at hv
        · exact (Option.some.inj hv).symm
        · cases hv
      subst hnew
      exact ⟨fun _ h => absurd h List.not_mem_nil, fun _ h => absurd h List.not_mem_nil⟩
    · exact hl.sighted u g v hg₁ hv
  · intro s t g a ch r w hs hl hg hallow _ hw
    have he := hl.act (f := f) hs hg hallow hw
    refine hl.enter rfl (act_deals hg hw) he fun u g' v hg' hv => ?_
    have hinodes := World.step_inodes hs.grown.tree hw
    rcases update_eq_some.mp hg' with ⟨-, hg₁⟩ | ⟨-, hg₁⟩
    · cases hg₁
      obtain ⟨v₀, hv₀, rfl⟩ := Option.map_eq_some_iff.mp hv
      exact ((hl.sighted t g v₀ hg hv₀).next hs.grown.apart hl.tracks hw).turns he.turns hinodes
    · exact (hl.sighted u g' v hg₁ hv).turns he.turns hinodes
  · intro s t g op r h hs hl hg _
    refine hl.enter rfl (deals_drop t rfl rfl) (.same hl.tracks) fun u g' v hg' hv => ?_
    rcases update_eq_some.mp hg' with ⟨-, hg'⟩ | ⟨-, hg'⟩
    · cases hg'
    · exact hl.sighted u g' v hg' hv
  · intro s t hs hl
    refine hl.enter rfl (deals_drop t rfl rfl) (.same hl.tracks) fun u g' v hg' hv => ?_
    rcases update_eq_some.mp hg' with ⟨-, hg'⟩ | ⟨-, hg'⟩
    · cases hg'
    · have hv' := hl.sighted u g' v hg' hv
      exact ⟨hv'.files, hv'.seen⟩
  · have hpast : (sceneOf f c).past = [] := h₀.past
    refine ⟨⟨fun {p i k l} hp hl => ?_, ?_, ?_⟩, ?_, fun t g v hg => ?_, ?_, ?_⟩
    · have hnone := fresh_files h₀ hl
      rw [show (sceneOf f c).world.files p = none from hnone] at hp
      cases hp
    · rw [hpast]
      intro k l p hp
      cases hp
    · rw [hpast]
      intro k l p hp
      cases hp
    · rw [hpast]
      exact fun id hid => absurd rfl hid
    · rw [h₀.ghost t] at hg
      cases hg
    · rw [hpast]
      exact fun id => rfl
    · rw [hpast]
      intro newer older hn
      obtain ⟨rfl, rfl⟩ := List.append_eq_nil_iff.mp hn.symm
      exact .refl

end SteadQ
