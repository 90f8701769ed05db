/-
  File:      SteadQ/Lifecycle.lean
  Subject:   WHAT A JOB GOES THROUGH, as a protocol of its own.

  The queue is for this: a job is published once, is handed out at most as often as its maximum
  says, and ends acknowledged, dead or in quarantine. Here the job is an object on a board (its
  conditions are a state and the fields of its name), and the protocol table says how it moves.
-/
import SteadQ.Law
import SteadQ.Lib.Board

namespace SteadQ

open Octet Board

abbrev JobId := Octets 16

/-- The state of a job and the fields its name carries. -/
abbrev Condition := ProtocolState × CommonFields

/-- Where jobs stand; places are those of the file system. -/
abbrev JobBoard := JobId → Standing Condition (Path × Name)

/-! ## 1. The rules -/

/-- A new job is ready or delayed. -/
structure Born (id : JobId) (x : Condition) : Prop where
  id : x.2.jobId = id
  state : x.1 = .ready ∨ x.1 = .delayed
  generation : x.2.generation = 0
  attempt : x.2.attempt = 0
  maximum : 1 ≤ x.2.maximumAttempts.toNat

/-- A row of the table that starts from a job with a name. -/
structure Proceeds (op : Operation) (x y : Condition) : Prop where
  source : x.1 = (transition op).source
  destination : y.1 = (transition op).destination
  succeeds : Succeeds op x.2 y.2
  attempts : op.Fits x.2

/-- Jobs that can be put into quarantine. -/
def Clearable (x : Condition) : Prop := x.1 = .ready ∨ x.1 = .leased ∨ x.1 = .delayed

/-- **The life of a job.** -/
def lifecycle : Rules JobId Condition where
  birth := Born
  next := fun x y => ∃ op, Proceeds op x y
  leave := Clearable

/-- A board on which no job has been published. -/
def noJobs : JobBoard := fun _ => .unborn

/-- What a board can be. -/
def Lived (σ : JobBoard) : Prop := Turns lifecycle noJobs σ

/-! ## 2. Bounds -/

/-- What the fields of a job are in each of its states. -/
structure Bounded (id : JobId) (x : Condition) : Prop where
  id : x.2.jobId = id
  named : x.1 = .ready ∨ x.1 = .leased ∨ x.1 = .delayed ∨ x.1 = .dead ∨ x.1 = .receipt
  attempt : x.2.attempt.toNat ≤ x.2.maximumAttempts.toNat
  left : x.1 = .ready ∨ x.1 = .delayed → x.2.attempt.toNat < x.2.maximumAttempts.toNat
  used : x.1 = .leased ∨ x.1 = .dead ∨ x.1 = .receipt → 1 ≤ x.2.attempt.toNat
  maximum : 1 ≤ x.2.maximumAttempts.toNat
  /-- Every attempt took a claim, and a claim is one generation. -/
  generation : x.2.attempt.toNat ≤ x.2.generation.toNat

theorem Born.bounded {id : JobId} {x : Condition} (h : Born id x) : Bounded id x := by
  have hattempt : x.2.attempt.toNat = 0 := by rw [h.attempt]; rfl
  refine ⟨h.id, ?_, by omega, fun _ => by have := h.maximum; omega, fun hused => ?_, h.maximum,
    by omega⟩
  · exact h.state.elim .inl fun h => .inr (.inr (.inl h))
  · rcases h.state with hs | hs <;> rw [hs] at hused <;> simp at hused

/-- The rows that start from a job with a name: out of `delayed`, out of `ready`, back from a
    lease, and those that keep or end one. -/
theorem transition_rows (op : Operation)
    (h : (transition op).source ≠ .hidden ∧ (transition op).source ≠ .active) :
    op = .promote ∨ op = .claim ∨ op = .exhaustedReadyCleanup ∨
      ((transition op).source = .leased ∧ op ≠ .claim ∧
        ((op.NeedsAttempts ∧
          ((transition op).destination = .ready ∨ (transition op).destination = .delayed)) ∨
        ((transition op).destination = .leased ∨ (transition op).destination = .dead ∨
          (transition op).destination = .receipt))) := by
  revert h
  cases op <;> decide

/-- A row of the table keeps the bounds. -/
theorem Proceeds.bounded {op : Operation} {id : JobId} {x y : Condition} (h : Proceeds op x y)
    (hx : Bounded id x) : Bounded id y := by
  have hid : y.2.jobId = id := h.succeeds.jobId.trans hx.id
  have hmax : y.2.maximumAttempts.toNat = x.2.maximumAttempts.toNat := by
    rw [h.succeeds.maximumAttempts]
  have hgen := h.succeeds.generation
  have hattempt := h.succeeds.attempt
  have hpos := hx.maximum
  have hle := hx.attempt
  have hrank := hx.generation
  have hnamed : (transition op).source ≠ .hidden ∧ (transition op).source ≠ .active := by
    rw [← h.source]
    rcases hx.named with hs | hs | hs | hs | hs <;> rw [hs] <;> decide
  rcases transition_rows op hnamed with rfl | rfl | rfl | ⟨hsource, hop, hback | hkeep⟩
  · -- promotion: the attempts are as they were
    have hleft := hx.left (.inr h.source)
    rw [if_neg (by decide), Nat.add_zero] at hattempt
    refine ⟨hid, .inl h.destination, by omega, fun _ => by omega, fun hused => ?_, by omega,
      by omega⟩
    rw [h.destination] at hused
    exact absurd hused (by decide)
  · -- a claim takes one of the attempts that are left
    have hleft := UInt32.lt_iff_toNat_lt.mp (h.attempts.left (.inl rfl))
    rw [if_pos rfl] at hattempt
    refine ⟨hid, .inr (.inl h.destination), by omega, fun hl => ?_, fun _ => by omega, by omega,
      by omega⟩
    rw [h.destination] at hl
    exact absurd hl (by decide)
  · -- no ready job has used up its attempts
    have hleft := hx.left (.inl h.source)
    have hspent := UInt32.le_iff_toNat_le.mp (h.attempts.spent rfl)
    omega
  · -- back from a lease
    have hleft := UInt32.lt_iff_toNat_lt.mp (h.attempts.left hback.1)
    rw [if_neg hop, Nat.add_zero] at hattempt
    rw [← h.destination] at hback
    refine ⟨hid, ?_, by omega, fun _ => by omega, fun hused => ?_, by omega, by omega⟩
    · exact hback.2.elim .inl fun hs => .inr (.inr (.inl hs))
    · rcases hback.2 with hs | hs <;> rw [hs] at hused <;> exact absurd hused (by decide)
  · have hused := hx.used (.inl (h.source.trans hsource))
    rw [if_neg hop, Nat.add_zero] at hattempt
    rw [← h.destination] at hkeep
    refine ⟨hid, ?_, by omega, fun hl => ?_, fun _ => by omega, by omega, by omega⟩
    · rcases hkeep with hs | hs | hs
      · exact .inr (.inl hs)
      · exact .inr (.inr (.inr (.inl hs)))
      · exact .inr (.inr (.inr (.inr hs)))
    · rcases hkeep with hs | hs | hs <;> rw [hs] at hl <;> exact absurd hl (by decide)

/-- **The bounds hold of every job in play.** -/
theorem Lived.bounds {σ : JobBoard} (h : Lived σ) {id : JobId} {x : Condition}
    (hx : (σ id).label = some x) : Bounded id x :=
  (Turns.course h id).invariant (fun _ => Born.bounded)
    (fun _ _ ⟨_, hm⟩ => hm.bounded) nofun x hx

/-! ## 3. Ends and generations -/

/-- An acknowledged job and a dead one have reached their end. -/
def Ended (x : Condition) : Prop := x.1 = .receipt ∨ x.1 = .dead

theorem ended_next {x y : Condition} {op : Operation} (hx : Ended x) : ¬ Proceeds op x y := by
  intro h
  have hsource := h.source
  rcases hx with hx | hx <;> rw [hx] at hsource <;> revert hsource <;> cases op <;> decide

theorem ended_clear {x : Condition} (hx : Ended x) : ¬ Clearable x := by
  intro h
  unfold Clearable at h
  rcases hx with hx | hx <;> rw [hx] at h <;> exact absurd h (by decide)

/-- **Acknowledged jobs, dead jobs and jobs in quarantine stay where they are.** -/
theorem ended_stays {σ σ' : JobBoard} (h : Turns lifecycle σ σ') {id : JobId}
    (hid : (∃ x p, σ id = .held x p ∧ Ended x) ∨ ∃ x, σ id = .gone x) : σ' id = σ id := by
  refine (Turns.course h id).stays ?_ ?_
  · rcases hid with ⟨x, p, hx, -⟩ | ⟨x, hx⟩ <;> rw [hx] <;> exact nofun
  · intro x p hx
    rcases hid with ⟨x', p', hx', hended⟩ | ⟨x', hx'⟩
    · rw [hx] at hx'
      cases hx'
      exact ⟨fun y ⟨op, hm⟩ => ended_next hended hm, ended_clear hended⟩
    · rw [hx] at hx'
      cases hx'

def Condition.generation (x : Condition) : Nat := x.2.generation.toNat

/-- **Every move makes the job one generation older.** -/
theorem generation_lt (x y : Condition) (h : lifecycle.next x y) : x.generation < y.generation := by
  obtain ⟨op, hop⟩ := h
  rw [Condition.generation, Condition.generation, hop.succeeds.generation]
  exact Nat.lt_succ_self _

end SteadQ
