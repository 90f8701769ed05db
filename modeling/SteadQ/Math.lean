/-
  File:      SteadQ/Math.lean
  Subject:   BUCKET ARITHMETIC AND RETRY DELAYS (crate `steadq-math`).

  The functions are on machine words, as in the crate; each has one lemma that says in natural
  numbers when it answers and what, and later proofs use only those.
-/
import Mathlib.Algebra.Order.Floor.Div
import SteadQ.Lib.Sha256

namespace SteadQ

open Octet

/-! ## 1. Checked arithmetic -/

def checkedAddU64 (a b : UInt64) : Option UInt64 :=
  if a.toNat + b.toNat < 2 ^ 64 then some (a + b) else none

def checkedMulU64 (a b : UInt64) : Option UInt64 :=
  if a.toNat * b.toNat < 2 ^ 64 then some (a * b) else none

theorem checkedAddU64_eq_some {a b c : UInt64} :
    checkedAddU64 a b = some c ↔ c.toNat = a.toNat + b.toNat := by
  unfold checkedAddU64
  have hc := c.toNat_lt
  split
  · rename_i h
    rw [Option.some.injEq, ← UInt64.toNat_inj, UInt64.toNat_add, Nat.mod_eq_of_lt h]
    exact eq_comm
  · rename_i h
    simp only [reduceCtorEq, false_iff]
    omega

theorem checkedMulU64_eq_some {a b c : UInt64} :
    checkedMulU64 a b = some c ↔ c.toNat = a.toNat * b.toNat := by
  unfold checkedMulU64
  have hc := c.toNat_lt
  split
  · rename_i h
    rw [Option.some.injEq, ← UInt64.toNat_inj, UInt64.toNat_mul, Nat.mod_eq_of_lt h]
    exact eq_comm
  · rename_i h
    simp only [reduceCtorEq, false_iff]
    omega

theorem checkedAddU64_eq_none {a b : UInt64} :
    checkedAddU64 a b = none ↔ 2 ^ 64 ≤ a.toNat + b.toNat := by
  unfold checkedAddU64
  split <;> simp <;> omega

theorem checkedMulU64_eq_none {a b : UInt64} :
    checkedMulU64 a b = none ↔ 2 ^ 64 ≤ a.toNat * b.toNat := by
  unfold checkedMulU64
  split <;> simp <;> omega

/-! ## 2. Buckets -/

/-- `floor(timestamp / width)`; none when the width is zero. -/
def bucketNumber (timestampNs bucketWidthNs : UInt64) : Option UInt64 :=
  if bucketWidthNs = 0 then none else some (timestampNs / bucketWidthNs)

/-- `ceiling(timestamp / width)`; none when the width is zero. -/
def ceilingBucket (timestampNs bucketWidthNs : UInt64) : Option UInt64 :=
  if bucketWidthNs = 0 then none
  else
    let q := timestampNs / bucketWidthNs
    let r := timestampNs % bucketWidthNs
    if r ≠ 0 then checkedAddU64 q 1 else some q

/-- The bucket in which a deadline is eligible, and the instant at which that bucket starts. -/
def eligibilityBucketAndNs (requestedNs bucketWidthNs : UInt64) : Option (UInt64 × UInt64) := do
  let bucket ← ceilingBucket requestedNs bucketWidthNs
  let ns ← checkedMulU64 bucket bucketWidthNs
  some (bucket, ns)

def leaseBucket (boottimeDeadlineNs leaseBucketWidthNs : UInt64) : Option UInt64 :=
  bucketNumber boottimeDeadlineNs leaseBucketWidthNs

/-- `max(clock, stored_bucket * width)`; none on overflow. -/
def effectiveWallFloor (clockRealtimeNs storedBucket bucketWidthNs : UInt64) : Option UInt64 :=
  if bucketWidthNs = 0 then none
  else (checkedMulU64 storedBucket bucketWidthNs).map fun watermarkNs =>
    max clockRealtimeNs watermarkNs

theorem toNat_pos {w : UInt64} (h : ¬ w = 0) : 0 < w.toNat := by
  rw [Nat.pos_iff_ne_zero]
  exact fun h0 => h (UInt64.toNat_inj.mp h0)

theorem bucketNumber_eq_some {ts w b : UInt64} :
    bucketNumber ts w = some b ↔ 0 < w.toNat ∧ b.toNat = ts.toNat / w.toNat := by
  unfold bucketNumber
  split
  · rename_i h
    subst h
    simp
  · rename_i h
    have hw : 0 < w.toNat := toNat_pos h
    rw [Option.some.injEq, ← UInt64.toNat_inj, UInt64.toNat_div]
    exact ⟨fun h => ⟨hw, h.symm⟩, fun h => h.2.symm⟩

theorem ceilingBucket_eq_some {ts w b : UInt64} :
    ceilingBucket ts w = some b ↔ 0 < w.toNat ∧ b.toNat = ts.toNat ⌈/⌉ w.toNat := by
  unfold ceilingBucket
  split
  · rename_i h
    subst h
    simp
  · rename_i h
    have hw : 0 < w.toNat := toNat_pos h
    have hmod : ts % w ≠ 0 ↔ ts.toNat % w.toNat ≠ 0 := by
      rw [ne_eq, ← UInt64.toNat_inj, UInt64.toNat_mod]
      rfl
    have hsplit := Nat.div_add_mod ts.toNat w.toNat
    have hceil : ts.toNat ⌈/⌉ w.toNat = ts.toNat / w.toNat +
        (if ts.toNat % w.toNat = 0 then 0 else 1) := by
      rw [Nat.ceilDiv_eq_add_pred_div]
      have hlt := Nat.mod_lt ts.toNat hw
      split
      · rename_i h0
        rw [Nat.add_zero, Nat.div_eq_iff hw]
        rw [h0] at hsplit
        rw [Nat.mul_comm] at hsplit
        omega
      · rename_i h0
        rw [Nat.div_eq_iff hw, Nat.add_mul]
        rw [Nat.mul_comm] at hsplit
        omega
    simp only
    split
    · rename_i hr
      rw [checkedAddU64_eq_some, UInt64.toNat_div, hceil, if_neg (hmod.mp hr)]
      exact ⟨fun h => ⟨hw, h⟩, fun h => h.2⟩
    · rename_i hr
      have hr0 : ts.toNat % w.toNat = 0 := by
        by_contra hne
        exact hr (hmod.mpr hne)
      rw [Option.some.injEq, ← UInt64.toNat_inj, UInt64.toNat_div, hceil, if_pos hr0]
      exact ⟨fun h => ⟨hw, h.symm⟩, fun h => h.2.symm⟩

/-! ## 3. Retry delays -/

/-- The absolute deadline of a retry; none past `2 ^ 63 - 1` nanoseconds. -/
def retryWallDeadline (effectiveWallFloorNs delayNs : UInt64) : Option UInt64 := do
  let deadline ← checkedAddU64 effectiveWallFloorNs delayNs
  if deadline.toNat > 2 ^ 63 - 1 then none else some deadline

structure RetryPolicy where
  baseMs : UInt64
  capMs : UInt64
  useJitter : Bool
  maxDelayMs : Option UInt64
  deriving DecidableEq

inductive RetryError where
  | zeroBase
  | capTooSmall
  | overflow
  deriving DecidableEq

def RetryPolicy.effectiveCapMs (p : RetryPolicy) : UInt64 :=
  match p.maxDelayMs with
  | some m => min p.capMs m
  | none => p.capMs

def RetryPolicy.validate (p : RetryPolicy) : Except RetryError Unit :=
  if p.baseMs = 0 then .error .zeroBase
  else if p.effectiveCapMs < p.baseMs then .error .capTooSmall
  else .ok ()

/-- Saturating `base * 2 ^ (exp - 1)`. -/
def saturatingDouble (base : UInt64) (exp : UInt32) : UInt64 :=
  if exp = 0 ∨ base = 0 then base
  else if exp > 64 then UInt64.ofNat (2 ^ 64 - 1)
  else if base.toNat * 2 ^ (exp.toNat - 1) < 2 ^ 64 then
    UInt64.ofNat (base.toNat * 2 ^ (exp.toNat - 1))
  else UInt64.ofNat (2 ^ 64 - 1)

/-- The hashed sample of one rejection round. -/
def jitterSample (queueId jobId : Octets 16) (attempt : UInt32) (counter : Nat) : Nat :=
  beNat ((sha256 (ascii "SteadQ-1-jitter" ++ [0] ++ queueId.1 ++ jobId.1 ++
    beBytes 4 attempt.toNat ++ beBytes 4 counter)).1.take 8)

/-- The offset of the first sample not below `threshold`, in at most `rounds` rounds. -/
def jitterOffset (queueId jobId : Octets 16) (attempt : UInt32) (threshold span : Nat) :
    (rounds counter : Nat) → Option Nat
  | 0, _ => none
  | rounds + 1, counter =>
    let x := jitterSample queueId jobId attempt counter
    if x ≥ threshold then some (x % span)
    else jitterOffset queueId jobId attempt threshold span rounds (counter + 1)

/-- The delay before the next attempt, in milliseconds. -/
def retryDelayMs (queueId jobId : Octets 16) (attempt : UInt32) (policy : RetryPolicy) :
    Except RetryError UInt64 := do
  policy.validate
  if attempt = 0 then return 0
  let ceiling := (min policy.effectiveCapMs (saturatingDouble policy.baseMs attempt)).toNat
  if ¬ policy.useJitter then return UInt64.ofNat ceiling
  let lower := (ceiling + 1) / 2
  let span := ceiling - lower + 1
  -- `span.wrapping_neg() % span`: samples below it would favour the low residues
  let threshold := (2 ^ 64 - span) % span
  match jitterOffset queueId jobId attempt threshold span 64 0 with
  | some offset => return UInt64.ofNat (lower + offset)
  | none => return UInt64.ofNat (lower + span / 2)

/-! ## 4. What rounding gives -/

/-- A deadline is never after the start of the bucket it is rounded up to. -/
theorem le_ceilDiv_mul {n w : Nat} (hw : 0 < w) : n ≤ n ⌈/⌉ w * w := by
  rw [Nat.mul_comm]
  exact le_smul_ceilDiv hw

end SteadQ
