/-
  File:      SteadQ/Promises.lean
  Subject:   WHAT THE QUEUE PROMISES ABOUT JOBS, in terms of its files and its history.

  Everything here holds of every run from a fresh queue, with any number of handles, any
  interleaving of their system calls, calls that fail and handles that are killed.
-/
import SteadQ.Conservation
import SteadQ.Jobs

namespace SteadQ

open Octet Interact Board

variable {codec : CursorCodec} {f : FormatRecord} {c₀ c c' : QueueConfig}

/-! ## 1. A run to look at -/

/-- The entry at the end of a path, and what its name says. -/
def entryAt (c : QueueConfig) (path : Path) : Option (Path × Name × Ino × Condition) := do
  let name ← path.getLast?
  let i ← c.world.fileAt path.dropLast name
  let y ← jobName path.dropLast name
  return (path.dropLast, name, i, y)

/-- Where the last rename without replacement put its file. -/
def lastMove (c : QueueConfig) : Option Path :=
  c.past.findSome? fun m =>
    match m.event with
    | .acted _ (.renameNoreplace _ _ d dn) (.ok _) => some (d.path ++ [dn])
    | _ => none

theorem entryAt_eq {c : QueueConfig} {path p : Path} {n : Name} {i : Ino} {y : Condition}
    (h : entryAt c path = some (p, n, i, y)) :
    path = p ++ [n] ∧ c.world.fileAt p n = some i ∧ jobName p n = some y := by
  obtain ⟨name, hname, h⟩ := Option.bind_eq_some_iff.mp h
  obtain ⟨j, hj, h⟩ := Option.bind_eq_some_iff.mp h
  obtain ⟨z, hz, h⟩ := Option.bind_eq_some_iff.mp h
  cases h
  exact ⟨(List.dropLast_append_getLast? n hname).symm, hj, hz⟩

/-- Handle 0 works on, in an environment in which nothing fails, up to its next rename without
    replacement. -/
def driveToMove : Nat → QueueConfig → Option QueueConfig
  | 0, _ => none
  | n + 1, c =>
    match c.threads 0 with
    | .running _ (.act (.renameNoreplace ..) _) => some c
    | .running _ (.act a _) =>
      ((queueSystem sampleCodec).next c (.act 0 (a.usual 0 c.world))).bind (driveToMove n)
    | _ => none

theorem reachable_driveToMove {c c' d : QueueConfig} {n : Nat}
    (hc : (queueSystem sampleCodec).Reachable d c) (h : driveToMove n c = some c') :
    (queueSystem sampleCodec).Reachable d c' := by
  induction n generalizing c with
  | zero => cases h
  | succ n ih =>
    unfold driveToMove at h
    split at h
    · cases h
      exact hc
    · obtain ⟨c₁, h₁, h⟩ := Option.bind_eq_some_iff.mp h
      exact ih (hc.step (System.step_of_next h₁)) h
    · cases h

/-- The rename handle 0 is about to make on a lease, if it will succeed. -/
def pendingMove (c : QueueConfig) : Option (Dir × Name) :=
  match c.threads 0 with
  | .running op (.act (.renameNoreplace s sn d dn) _) =>
    match op.leaseInfo, c.world.step 0 (.renameNoreplace s sn d dn) .plain with
    | some _, some (.ok (), _) => some (s, sn)
    | _, _ => none
  | _ => none

theorem pendingMove_eq {c : QueueConfig} {s : Dir} {sn : Name}
    (h : pendingMove c = some (s, sn)) : ∃ op l d dn k,
      c.threads 0 = .running op (.act (.renameNoreplace s sn d dn) k) ∧ op.leaseInfo = some l ∧
      ∃ w, c.world.step 0 (.renameNoreplace s sn d dn) .plain = some (.ok (), w) := by
  unfold pendingMove at h
  split at h
  · rename_i op s' sn' d dn k ht
    split at h
    · rename_i l w hl hw
      cases h
      exact ⟨op, l, d, dn, k, ht, hl, w, hw⟩
    · cases h
  · cases h

/-- The stages of a run: a job is enqueued and leased; its acknowledgment is about to rename the
    entry; it has returned. -/
structure Stages where
  info : LeaseInfo
  leased : QueueConfig
  moving : QueueConfig
  acked : QueueConfig
  source : Path × Name × Ino × Condition
  pending : Dir × Name
  receipt : Path × Name × Ino × Condition

def stagesOf (x : LeaseInfo × QueueConfig) : Option Stages := do
  let started ← (queueSystem sampleCodec).next x.2 (.start 0 (.ack false x.1))
  let moving ← driveToMove 200 started
  let acked ← (queueSystem sampleCodec).drive (Act.usual 0) 0 200 moving
  return ⟨x.1, x.2, moving, acked, ← entryAt x.2 x.1.exactSourcePath, ← pendingMove moving,
    ← entryAt acked (← lastMove acked)⟩

/-- A job is enqueued, leased and acknowledged. -/
structure SampleRun (c mid c' : QueueConfig) (p : Path) (n : Name) (i : Ino) (y : Condition) :
    Prop where
  leased : (queueSystem sampleCodec).Reachable sampleConfig c
  moving : (queueSystem sampleCodec).Reachable c mid
  acked : (queueSystem sampleCodec).Reachable mid c'
  file : c.world.fileAt p n = some i
  name : jobName p n = some y
  state : y.1 = .leased
  attempt : y.2.attempt = 1
  claim : ∃ m rest m', c.past = m :: rest ∧ m' ∈ rest ∧ claimed m'.event = some y.2.jobId
  pending : ∃ op l s d dn k, mid.threads 0 = .running op (.act (.renameNoreplace s n d dn) k) ∧
    s.path = p ∧ op.leaseInfo = some l ∧
    ∃ w, mid.world.step 0 (.renameNoreplace s n d dn) .plain = some (.ok (), w)
  left : c'.world.fileAt p n = none
  receipt : ∃ q m j z, c'.world.fileAt q m = some j ∧ jobName q m = some z ∧ z.1 = .receipt

/-- What the stages show. -/
def Stages.shows (e : Stages) : Bool :=
  decide (e.source.2.2.2.1 = .leased ∧ e.source.2.2.2.2.attempt = 1 ∧
    e.leased.past.tail.any (fun m => claimed m.event = some e.source.2.2.2.2.jobId) = true ∧
    e.pending.1.path = e.source.1 ∧ e.pending.2 = e.source.2.1 ∧
    e.acked.world.fileAt e.source.1 e.source.2.1 = none ∧ e.receipt.2.2.2.1 = .receipt)

theorem sample_run : ∃ c mid c' p n i y, SampleRun c mid c' p n i y := by
  have hrun : (leasedSample.bind stagesOf).map Stages.shows = some true := by decide +kernel
  obtain ⟨e, he, hshows⟩ := Option.map_eq_some_iff.mp hrun
  obtain ⟨hstate, hone, hclaim, hpath, hname, hleft, hreceipt⟩ := of_decide_eq_true hshows
  obtain ⟨⟨info, leased⟩, hleased, he⟩ := Option.bind_eq_some_iff.mp he
  obtain ⟨started, hstart, he⟩ := Option.bind_eq_some_iff.mp he
  obtain ⟨moving, hmoving, he⟩ := Option.bind_eq_some_iff.mp he
  obtain ⟨acked, hacked, he⟩ := Option.bind_eq_some_iff.mp he
  obtain ⟨⟨p, n, i, y⟩, hsource, he⟩ := Option.bind_eq_some_iff.mp he
  obtain ⟨⟨s, sn⟩, hpending, he⟩ := Option.bind_eq_some_iff.mp he
  obtain ⟨path, -, he⟩ := Option.bind_eq_some_iff.mp he
  obtain ⟨⟨q, m, j, z⟩, hend, he⟩ := Option.bind_eq_some_iff.mp he
  cases he
  obtain ⟨-, hfile, hjob⟩ := entryAt_eq hsource
  obtain ⟨-, hfile', hjob'⟩ := entryAt_eq hend
  obtain ⟨op, l, d, dn, k, ht, hl, hw⟩ := pendingMove_eq hpending
  obtain ⟨m', hm', hid⟩ := List.any_eq_true.mp hclaim
  have hcons : ∃ m₀ rest, leased.past = m₀ :: rest ∧ m' ∈ rest := by
    have hin : m' ∈ leased.past.tail := hm'
    cases hp : leased.past with
    | nil =>
      rw [hp] at hin
      cases hin
    | cons m₀ rest =>
      rw [hp] at hin
      exact ⟨m₀, rest, rfl, hin⟩
  obtain ⟨m₀, rest, hcons, hin⟩ := hcons
  have hn : sn = n := hname
  subst hn
  exact ⟨leased, moving, acked, p, sn, i, y, {
    leased := reachable_leasedSample hleased
    moving := reachable_driveToMove (.step .init (System.step_of_next hstart)) hmoving
    acked := System.reachable_of_drive .init hacked
    file := hfile
    name := hjob
    state := hstate
    attempt := hone
    claim := ⟨m₀, rest, m', hcons, hin, of_decide_eq_true hid⟩
    pending := ⟨op, l, s, d, dn, k, ht, hpath, hl, hw⟩
    left := hleft
    receipt := ⟨q, m, j, z, hfile', hjob', hreceipt⟩ }⟩

/-! ## 2. Runs and lives -/

theorem tracks_of_run (h₀ : Fresh f c₀) (hc : (queueSystem codec).Reachable c₀ c) :
    Tracks jobAt Removable c.world.files (board c.past) := (ledger c₀ c h₀ hc).tracks

theorem turns_of_run (h₀ : Fresh f c₀) (hc : (queueSystem codec).Reachable c₀ c)
    (hc' : (queueSystem codec).Reachable c c') :
    Turns lifecycle (board c.past) (board c'.past) := by
  obtain ⟨newer, hn⟩ := hc'.past
  exact (ledger c₀ c' h₀ (hc.trans hc')).played newer c.past hn

/-- **Runs refine the life of jobs**: the state directories are what the board of the history
    says, and between any two points of a run jobs only make moves of the lifecycle. -/
theorem run_refines_lifecycle (h₀ : Fresh f c₀) (hc : (queueSystem codec).Reachable c₀ c)
    (hc' : (queueSystem codec).Reachable c c') :
    Tracks jobAt Removable c'.world.files (board c'.past) ∧
      Turns lifecycle (board c.past) (board c'.past) :=
  ⟨tracks_of_run h₀ (hc.trans hc'), turns_of_run h₀ hc hc'⟩

theorem run_refines_lifecycle_sample : ∃ c p n i y,
    (queueSystem sampleCodec).Reachable sampleConfig c ∧ c.world.fileAt p n = some i ∧
    jobName p n = some y ∧ y.1 = .leased ∧ Turns lifecycle noJobs (board c.past) := by
  obtain ⟨c, _, _, p, n, i, y, h⟩ := sample_run
  exact ⟨c, p, n, i, y, h.leased, h.file, h.name, h.state,
    (run_refines_lifecycle fresh_sampleConfig .init h.leased).2⟩

section Names

variable {p q : Path} {n m : Name} {i j : Ino} {x y : Condition}

/-- The board has every entry. -/
theorem board_of_entry (h₀ : Fresh f c₀) (hc : (queueSystem codec).Reachable c₀ c)
    (hi : c.world.fileAt p n = some i) (hx : jobName p n = some x) :
    board c.past x.2.jobId = .held x (p, n) :=
  (tracks_of_run h₀ hc).sound (p := (p, n)) hi (jobAt_of_jobName hx)

/-- **A job has one entry.** Two entries that name the same job are the same entry. -/
theorem one_entry_per_job (h₀ : Fresh f c₀) (hc : (queueSystem codec).Reachable c₀ c)
    (hi : c.world.fileAt p n = some i) (hj : c.world.fileAt q m = some j)
    (hx : jobName p n = some x) (hy : jobName q m = some y) (hid : x.2.jobId = y.2.jobId) :
    p = q ∧ n = m := by
  have hheld := board_of_entry h₀ hc hi hx
  rw [hid, board_of_entry h₀ hc hj hy] at hheld
  cases hheld
  exact ⟨rfl, rfl⟩

theorem one_entry_per_job_sample : ∃ c p n i y,
    (queueSystem sampleCodec).Reachable sampleConfig c ∧ c.world.fileAt p n = some i ∧
    jobName p n = some y ∧ y.1 = .leased ∧
    ∀ q m j z, c.world.fileAt q m = some j → jobName q m = some z → z.2.jobId = y.2.jobId →
      q = p ∧ m = n := by
  obtain ⟨c, _, _, p, n, i, y, h⟩ := sample_run
  exact ⟨c, p, n, i, y, h.leased, h.file, h.name, h.state, fun q m j z hj hz hid =>
    one_entry_per_job fresh_sampleConfig h.leased hj h.file hz h.name hid⟩

theorem lived_of_run (h₀ : Fresh f c₀) (hc : (queueSystem codec).Reachable c₀ c) :
    Lived (board c.past) := by
  have hplay := turns_of_run h₀ .init hc
  rw [h₀.past] at hplay
  exact hplay

/-- What the protocol allows is what names say. -/
theorem bounded_of_entry (h₀ : Fresh f c₀) (hc : (queueSystem codec).Reachable c₀ c)
    (hi : c.world.fileAt p n = some i) (hx : jobName p n = some x) : Bounded x.2.jobId x := by
  refine (lived_of_run h₀ hc).bounds ?_
  rw [board_of_entry h₀ hc hi hx]
  rfl

/-- **Attempts and generations stay within their bounds**: no name has more attempts than its
    maximum, ready and delayed jobs have one left, and the others have used one. -/
theorem names_within_bounds (h₀ : Fresh f c₀) (hc : (queueSystem codec).Reachable c₀ c)
    (hi : c.world.fileAt p n = some i) (hx : jobName p n = some x) :
    1 ≤ x.2.maximumAttempts.toNat ∧ x.2.attempt.toNat ≤ x.2.maximumAttempts.toNat ∧
      x.2.attempt.toNat ≤ x.2.generation.toNat ∧
      (x.1 = .ready ∨ x.1 = .delayed → x.2.attempt.toNat < x.2.maximumAttempts.toNat) ∧
      (x.1 = .leased ∨ x.1 = .dead ∨ x.1 = .receipt → 1 ≤ x.2.attempt.toNat) := by
  have hb := bounded_of_entry h₀ hc hi hx
  exact ⟨hb.maximum, hb.attempt, hb.generation, hb.left, hb.used⟩

theorem names_within_bounds_sample : ∃ c p n i y,
    (queueSystem sampleCodec).Reachable sampleConfig c ∧ c.world.fileAt p n = some i ∧
    jobName p n = some y ∧ y.1 = .leased ∧ y.2.attempt.toNat ≤ y.2.maximumAttempts.toNat := by
  obtain ⟨c, _, _, p, n, i, y, h⟩ := sample_run
  exact ⟨c, p, n, i, y, h.leased, h.file, h.name, h.state,
    (names_within_bounds fresh_sampleConfig h.leased h.file h.name).2.1⟩

theorem claims_of_entry (h₀ : Fresh f c₀) (hc : (queueSystem codec).Reachable c₀ c)
    (hi : c.world.fileAt p n = some i) (hx : jobName p n = some x) :
    claimsOf x.2.jobId c.past = x.2.attempt.toNat := by
  have hclaims : claimsOf x.2.jobId c.past = attempts (board c.past x.2.jobId) :=
    (ledger c₀ c h₀ hc).claims x.2.jobId
  rw [board_of_entry h₀ hc hi hx] at hclaims
  exact hclaims

/-- A claim takes a ready job. -/
theorem claimed_eq_some {e : QueueEvent} {id : JobId} (h : claimed e = some id) :
    ∃ t s sn d dn, e = .acted t (.renameNoreplace s sn d dn) (.ok ()) ∧
      ∃ x, jobName s.path sn = some (.ready, x) := by
  unfold claimed at h
  split at h
  · rename_i t s sn d dn u
    unfold claimOf at h
    split at h
    · rename_i x _ hx _
      exact ⟨t, s, sn, d, dn, rfl, x, hx⟩
    · cases h
  · cases h

/-- **The attempt in a name is the number of times the job was claimed.** -/
theorem claims_are_attempts (h₀ : Fresh f c₀) (hc : (queueSystem codec).Reachable c₀ c)
    (hi : c.world.fileAt p n = some i) (hx : jobName p n = some x) :
    claimsOf x.2.jobId c.past = x.2.attempt.toNat ∧
      claimsOf x.2.jobId c.past ≤ x.2.maximumAttempts.toNat := by
  have hclaims := claims_of_entry h₀ hc hi hx
  refine ⟨hclaims, ?_⟩
  rw [hclaims]
  exact (bounded_of_entry h₀ hc hi hx).attempt

theorem claims_are_attempts_sample : ∃ c id, (queueSystem sampleCodec).Reachable sampleConfig c ∧
    claimsOf id c.past = 1 := by
  obtain ⟨c, _, _, p, n, i, y, h⟩ := sample_run
  refine ⟨c, y.2.jobId, h.leased, ?_⟩
  rw [(claims_are_attempts fresh_sampleConfig h.leased h.file h.name).1, h.attempt]
  rfl

end Names

/-! ## 3. What becomes of a job -/

/-- Where an event gives a file a name. -/
def landing : QueueEvent → Option (Path × Name)
  | .acted _ (.linkat _ _ d n) (.ok _) => some (d.path, n)
  | .acted _ (.renameNoreplace _ _ d dn) (.ok _) => some (d.path, dn)
  | _ => none

/-- The event gives job `id` a name that says `y`. -/
def Lands (id : JobId) (y : Condition) (e : QueueEvent) : Prop :=
  ∃ x, landing e = some x ∧ jobAt x = some (id, y)

/-- The event renames the entry of job `id`, not a receipt, to a name that is none of a job. -/
def Withdraws (id : JobId) (e : QueueEvent) : Prop :=
  ∃ t s sn d dn y, e = .acted t (.renameNoreplace s sn d dn) (.ok ()) ∧
    jobAt (s.path, sn) = some (id, y) ∧ y.1 ≠ .receipt ∧ jobAt (d.path, dn) = none

/-- The event renames the entry of job `id`, not a receipt, into quarantine. -/
def Quarantines (id : JobId) (e : QueueEvent) : Prop :=
  ∃ t s sn d dn y, e = .acted t (.renameNoreplace s sn d dn) (.ok ()) ∧
    jobAt (s.path, sn) = some (id, y) ∧ y.1 ≠ .receipt ∧ d.path = quarantinePath

/-- How one event changes the standing of one job. -/
theorem recorded_cases (σ : JobBoard) (e : QueueEvent) (id : JobId) :
    recorded σ e id = σ id ∨ (∃ x y, Lands id y e ∧ recorded σ e id = .held y x) ∨
      ∃ y, Withdraws id e ∧ recorded σ e id = .gone y := by
  have hland : ∀ x, landing e = some x → landed σ x id = σ id ∨
      ∃ x' y, Lands id y e ∧ landed σ x id = .held y x' := by
    intro x hx
    cases hjob : jobAt x with
    | none => exact .inl (by simp only [landed, hjob])
    | some k =>
      obtain ⟨id', y⟩ := k
      rw [landed_of_jobAt hjob]
      by_cases hid : id = id'
      · subst hid
        exact .inr ⟨x, y, ⟨x, hx, hjob⟩, Function.update_self ..⟩
      · exact .inl (Function.update_of_ne hid _ _)
  unfold recorded
  split
  · exact (hland _ rfl).imp_right .inl
  · rename_i s sn d dn _
    split
    · exact (hland _ rfl).imp_right .inl
    · rename_i hnone
      cases hjob : jobAt (s.path, sn) with
      | none => exact .inl (by simp only [withdrawn, hjob])
      | some k =>
        obtain ⟨id', y⟩ := k
        by_cases hreceipt : y.1 = .receipt
        · exact .inl (by simp only [withdrawn, hjob, if_pos hreceipt])
        · have hgone : withdrawn σ (s.path, sn) = Function.update σ id' (.gone y) := by
            simp only [withdrawn, hjob, if_neg hreceipt]
          rw [hgone]
          by_cases hid : id = id'
          · subst hid
            have hdst := Option.not_isSome_iff_eq_none.mp hnone
            exact .inr (.inr ⟨y, ⟨_, s, sn, d, dn, y, rfl, hjob, hreceipt, hdst⟩,
              Function.update_self ..⟩)
          · exact .inl (Function.update_of_ne hid _ _)
  · exact .inl rfl

/-- What the standing of a job says about the history. -/
theorem board_told (past : List QueueMoment) (id : JobId) :
    (∀ y x, board past id = .held y x → ∃ m ∈ past, Lands id y m.event) ∧
      ∀ y, board past id = .gone y → ∃ m ∈ past, Withdraws id m.event := by
  induction past with
  | nil => exact ⟨nofun, nofun⟩
  | cons m past ih =>
    have hlater : ∀ {P : QueueEvent → Prop}, (∃ m' ∈ past, P m'.event) →
        ∃ m' ∈ m :: past, P m'.event :=
      fun ⟨m', hm, hp⟩ => ⟨m', List.mem_cons_of_mem _ hm, hp⟩
    rcases recorded_cases (board past) m.event id with h | ⟨x, y, hland, h⟩ | ⟨y, hq, h⟩
    · refine ⟨fun y x hy => hlater (ih.1 y x ?_), fun y hy => hlater (ih.2 y ?_)⟩
      · rw [← h]
        exact hy
      · rw [← h]
        exact hy
    · refine ⟨fun y' x' hy => ?_, fun y' hy => ?_⟩
      · cases h.symm.trans hy
        exact ⟨m, List.mem_cons_self, hland⟩
      · cases h.symm.trans hy
    · refine ⟨fun y' x' hy => ?_, fun y' hy => ⟨m, List.mem_cons_self, hq⟩⟩
      cases h.symm.trans hy

theorem recorded_of_landing {σ : JobBoard} {e : QueueEvent} {x : Path × Name} {id : JobId}
    {y : Condition} (hx : landing e = some x) (hjob : jobAt x = some (id, y)) :
    recorded σ e = Function.update σ id (.held y x) := by
  unfold landing at hx
  split at hx
  · cases hx
    exact landed_of_jobAt hjob
  · cases hx
    rename_i s sn d dn _
    have hsome : (jobAt (d.path, dn)).isSome := by
      rw [hjob]
      rfl
    exact (if_pos hsome).trans (landed_of_jobAt hjob)
  · cases hx

/-- A job that got a name stands on the board from then on, and keeps its maximum. -/
theorem board_of_lands (h₀ : Fresh f c₀) (hc : (queueSystem codec).Reachable c₀ c)
    {m : QueueMoment} (hm : m ∈ c.past) {id : JobId} {y : Condition} (hl : Lands id y m.event) :
    ∃ z, (board c.past id).label = some z ∧ z.2.maximumAttempts = y.2.maximumAttempts := by
  obtain ⟨newer, older, hpast⟩ := List.append_of_mem hm
  have hplayed := (ledger c₀ c h₀ hc).played newer (m :: older) hpast
  obtain ⟨x, hx, hjob⟩ := hl
  have hheld : board (m :: older) id = .held y x := by
    show recorded (board older) m.event id = _
    rw [recorded_of_landing hx hjob, Function.update_self]
  have hborn : board (m :: older) id ≠ .unborn := by
    rw [hheld]
    exact nofun
  have hcourse := Turns.course hplayed id
  have hkeeps := hcourse.keeps (I := fun z => z.2.maximumAttempts = y.2.maximumAttempts) hborn
    (fun l l' ⟨op, hop⟩ hl => hop.succeeds.maximumAttempts.trans hl) (by
      rw [hheld]
      rintro _ ⟨⟩
      rfl)
  cases hσ : board c.past id with
  | unborn => exact absurd hσ (hcourse.born hborn)
  | held z p => exact ⟨z, rfl, hkeeps z (congrArg Standing.label hσ)⟩
  | gone z => exact ⟨z, rfl, hkeeps z (congrArg Standing.label hσ)⟩

/-- An entry that leaves the names of jobs goes to quarantine. -/
theorem Withdraws.quarantines (h₀ : Fresh f c₀) (hc : (queueSystem codec).Reachable c₀ c)
    {m : QueueMoment} (hm : m ∈ c.past) {id : JobId} (h : Withdraws id m.event) :
    Quarantines id m.event := by
  obtain ⟨newer, older, hpast⟩ := List.append_of_mem hm
  obtain ⟨e, w⟩ := m
  obtain ⟨t, s, sn, d, dn, y, rfl, hjob, hreceipt, hnone⟩ := h
  obtain ⟨c₁, g, hcall, -⟩ := h₀.callAt hc hpast
  have hmoves : g.1.Moves f s.path sn d.path dn := hcall.allowed.1
  have hnamed : ∀ {z : Condition}, jobName d.path dn ≠ some z := by
    intro z hz
    rw [jobAt_of_jobName hz] at hnone
    cases hnone
  refine ⟨t, s, sn, d, dn, y, rfl, hjob, hreceipt, ?_⟩
  cases hmoves with
  | publish o hown htmp hpub =>
    obtain ⟨id', z, hz, -⟩ := hpub.born
    exact absurd (jobAt_eq_some.mp hz).1 hnamed
  | transit op a b l htr hscope => exact absurd (jobName_of_landsAt htr.lands) hnamed
  | restore op a b hsrc hsucc hdst hperm hrec hfits => exact absurd hdst hnamed
  | quarantine id' reason hsrc hdst hname hop => exact hdst

/-- **No job is lost.** A job that got a name is in a state directory, unless it was acknowledged
    or put into quarantine. -/
theorem job_never_lost (h₀ : Fresh f c₀) (hc : (queueSystem codec).Reachable c₀ c)
    {m : QueueMoment} (hm : m ∈ c.past) {id : JobId} {y : Condition} (hl : Lands id y m.event) :
    (∃ p n i x, c.world.fileAt p n = some i ∧ jobName p n = some x ∧ x.2.jobId = id) ∨
      (∃ m' ∈ c.past, ∃ x, Lands id x m'.event ∧ x.1 = .receipt) ∨
      ∃ m' ∈ c.past, Quarantines id m'.event := by
  have htracks := tracks_of_run h₀ hc
  obtain ⟨hheld, hgone⟩ := board_told c.past id
  cases hσ : board c.past id with
  | unborn =>
    obtain ⟨z, hz, -⟩ := board_of_lands h₀ hc hm hl
    rw [hσ] at hz
    cases hz
  | held x p =>
    by_cases hx : x.1 = .receipt
    · obtain ⟨m', hm', hl'⟩ := hheld x p hσ
      exact .inr (.inl ⟨m', hm', x, hl', hx⟩)
    · obtain ⟨i, hi⟩ := Option.isSome_iff_exists.mp (htracks.present hσ hx)
      obtain ⟨hname, hid⟩ := jobAt_eq_some.mp (htracks.named hσ)
      exact .inl ⟨p.1, p.2, i, x, hi, hname, hid⟩
  | gone x =>
    obtain ⟨m', hm', hw⟩ := hgone x hσ
    exact .inr (.inr ⟨m', hm', hw.quarantines h₀ hc hm'⟩)

theorem job_never_lost_sample : ∃ c id y, ∃ m ∈ c.past,
    (queueSystem sampleCodec).Reachable sampleConfig c ∧ Lands id y m.event ∧
    ((∃ p n i x, c.world.fileAt p n = some i ∧ jobName p n = some x ∧ x.2.jobId = id) ∨
      (∃ m' ∈ c.past, ∃ x, Lands id x m'.event ∧ x.1 = .receipt) ∨
      ∃ m' ∈ c.past, Quarantines id m'.event) := by
  obtain ⟨c, _, _, p, n, i, y, h⟩ := sample_run
  have hheld := board_of_entry fresh_sampleConfig h.leased h.file h.name
  obtain ⟨m, hm, hl⟩ := (board_told c.past y.2.jobId).1 y (p, n) hheld
  exact ⟨c, _, _, m, hm, h.leased, hl, job_never_lost fresh_sampleConfig h.leased hm hl⟩

/-- **An acknowledged or dead job stays where it is**: no later entry names it elsewhere, and a
    dead job's entry is never removed. -/
theorem ended_for_good (h₀ : Fresh f c₀) (hc : (queueSystem codec).Reachable c₀ c)
    (hc' : (queueSystem codec).Reachable c c') {p : Path} {n : Name} {i : Ino} {x : Condition}
    (hi : c.world.fileAt p n = some i) (hx : jobName p n = some x)
    (hended : x.1 = .receipt ∨ x.1 = .dead) :
    (x.1 = .dead → (c'.world.fileAt p n).isSome) ∧
      ∀ q m j y, c'.world.fileAt q m = some j → jobName q m = some y →
        y.2.jobId = x.2.jobId → q = p ∧ m = n := by
  have hheld := board_of_entry h₀ hc hi hx
  have hstays : board c'.past x.2.jobId = .held x (p, n) := by
    rw [ended_stays (turns_of_run h₀ hc hc') (.inl ⟨x, (p, n), hheld, hended⟩)]
    exact hheld
  refine ⟨fun hdead => ?_, fun q m j y hj hy hid => ?_⟩
  · refine (tracks_of_run h₀ (hc.trans hc')).present hstays fun hreceipt => ?_
    cases hdead.symm.trans hreceipt
  · have hother := board_of_entry h₀ (hc.trans hc') hj hy
    rw [hid, hstays] at hother
    cases hother
    exact ⟨rfl, rfl⟩

/-- The acknowledged job of a run. -/
theorem ended_for_good_sample : ∃ c p n i x, (queueSystem sampleCodec).Reachable sampleConfig c ∧
    c.world.fileAt p n = some i ∧ jobName p n = some x ∧ x.1 = .receipt ∧
    ∀ c', (queueSystem sampleCodec).Reachable c c' → ∀ q m j y, c'.world.fileAt q m = some j →
      jobName q m = some y → y.2.jobId = x.2.jobId → q = p ∧ m = n := by
  obtain ⟨_, _, c, _, _, _, _, h⟩ := sample_run
  obtain ⟨p, n, i, x, hi, hx, hreceipt⟩ := h.receipt
  have hc := (h.leased.trans h.moving).trans h.acked
  exact ⟨c, p, n, i, x, hc, hi, hx, hreceipt, fun c' hc' =>
    (ended_for_good fresh_sampleConfig hc hc' hi hx (.inl hreceipt)).2⟩

/-- **No ready job has used up its attempts**: in no run is an entry moved from `ready/` to
    `dead/`. The cleanup of exhausted jobs only ever serves queues that others have edited. -/
theorem ready_never_spent (h₀ : Fresh f c₀) (hc : (queueSystem codec).Reachable c₀ c)
    {m : QueueMoment} (hm : m ∈ c.past) {t : Tid} {s d : Dir} {sn dn : Name}
    (he : m.event = .acted t (.renameNoreplace s sn d dn) (.ok ())) {x y : CommonFields}
    (hx : jobName s.path sn = some (.ready, x)) : jobName d.path dn ≠ some (.dead, y) := by
  intro hy
  obtain ⟨newer, older, hpast⟩ := List.append_of_mem hm
  obtain ⟨e, w⟩ := m
  obtain rfl : e = _ := he
  obtain ⟨c₁, g, hcall, -⟩ := h₀.callAt hc hpast
  obtain ⟨ch, hw⟩ := hcall.answered
  obtain ⟨i, hi, -⟩ := World.renameNoreplace_ok (grown c₀ c₁ h₀ hcall.reachable).tree hw
  have hleft := (bounded_of_entry h₀ hcall.reachable hi hx).left (.inl rfl)
  -- the only row from ready to dead asks for a job without attempts
  have hrow : ∀ {op : Operation} {a b : CommonFields},
      jobName s.path sn = some ((transition op).source, a) →
      jobName d.path dn = some ((transition op).destination, b) → op.Fits a → False := by
    intro op a b hsource hdest hfits
    have hs := Option.some.inj (hx.symm.trans hsource)
    have hd := Option.some.inj (hy.symm.trans hdest)
    have hop : op = .exhaustedReadyCleanup := by
      have h₁ : (transition op).source = .ready := (congrArg Prod.fst hs).symm
      have h₂ : (transition op).destination = .dead := (congrArg Prod.fst hd).symm
      revert h₁ h₂
      cases op <;> decide
    have hspent := UInt32.le_iff_toNat_le.mp (hfits.spent hop)
    rw [← show x = a from congrArg Prod.snd hs] at hspent
    exact absurd hleft (Nat.not_lt.mpr hspent)
  have hmoves : g.1.Moves f s.path sn d.path dn := hcall.allowed.1
  cases hmoves with
  | publish o hown htmp hpub =>
    rw [jobName_tmp sn htmp] at hx
    cases hx
  | transit op a b l htr hscope =>
    exact hrow htr.source (htr.state ▸ jobName_of_landsAt htr.lands) htr.attempts
  | restore op a b hsrc hsucc hdst hperm hrec hfits => exact hrow hsrc hdst hfits
  | quarantine id' reason hsrc hdst hname hop =>
    rw [hdst, jobName_quarantine] at hy
    cases hy

/-- The claim of a ready job. -/
theorem ready_never_spent_sample : ∃ c, ∃ m ∈ c.past, ∃ t s sn d dn x,
    (queueSystem sampleCodec).Reachable sampleConfig c ∧
    m.event = .acted t (.renameNoreplace s sn d dn) (.ok ()) ∧
    jobName s.path sn = some (.ready, x) ∧ ∀ y, jobName d.path dn ≠ some (.dead, y) := by
  obtain ⟨c, _, _, p, n, i, y, h⟩ := sample_run
  obtain ⟨_, _, m, hpast, hm, hclaim⟩ := h.claim
  obtain ⟨t, s, sn, d, dn, he, x, hx⟩ := claimed_eq_some hclaim
  have hmem : m ∈ c.past := by
    rw [hpast]
    exact List.mem_cons_of_mem _ hm
  exact ⟨c, m, hmem, t, s, sn, d, dn, x, h.leased, he, hx, fun y =>
    ready_never_spent fresh_sampleConfig h.leased hmem he hx⟩

end SteadQ
