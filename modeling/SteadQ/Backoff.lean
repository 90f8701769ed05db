/-
  File:      SteadQ/Backoff.lean
  Subject:   RETRY DELAYS (`retry_delay_ms`): bounds, growth, and the fairness of the jitter.

  `Math.lean` computes a delay in natural numbers. Here the same function is written with every
  operation of the machine words checked, so that an overflow would show.
-/
import Mathlib
import SteadQ.Math
import SteadQ.Protocol

namespace SteadQ

open Octet

/-! ## 1. Checked words -/

def checkedSubU64 (a b : UInt64) : Option UInt64 := if b ≤ a then some (a - b) else none

/-- A remainder by zero panics. -/
def checkedRemU64 (a b : UInt64) : Option UInt64 := if b = 0 then none else some (a % b)

/-- A shift by the width or more panics. -/
def checkedShrU64 (a : UInt64) (n : UInt32) : Option UInt64 :=
  if n < 64 then some (a >>> n.toUInt64) else none

/-- A left shift also loses the bits it moves out of the word. -/
def checkedShlU64 (a : UInt64) (n : UInt32) : Option UInt64 :=
  if n < 64 ∧ a.toNat * 2 ^ n.toNat < 2 ^ 64 then some (a <<< n.toUInt64) else none

def u64Max : UInt64 := UInt64.ofNat (2 ^ 64 - 1)

theorem checkedSubU64_ofNat {a b : Nat} (ha : a < 2 ^ 64) (h : b ≤ a) :
    checkedSubU64 (UInt64.ofNat a) (UInt64.ofNat b) = some (UInt64.ofNat (a - b)) := by
  have hle : UInt64.ofNat b ≤ UInt64.ofNat a := by
    rw [UInt64.le_iff_toNat_le, UInt64.toNat_ofNat', UInt64.toNat_ofNat', Nat.mod_eq_of_lt ha,
      Nat.mod_eq_of_lt (by omega)]
    exact h
  rw [checkedSubU64, if_pos hle, UInt64.ofNat_sub h]

theorem checkedAddU64_ofNat {a b : Nat} (h : a + b < 2 ^ 64) :
    checkedAddU64 (UInt64.ofNat a) (UInt64.ofNat b) = some (UInt64.ofNat (a + b)) := by
  rw [checkedAddU64_eq_some]
  simp only [UInt64.toNat_ofNat']
  rw [Nat.mod_eq_of_lt h, Nat.mod_eq_of_lt (by omega : a < 2 ^ 64),
    Nat.mod_eq_of_lt (by omega : b < 2 ^ 64)]

theorem checkedRemU64_ofNat {a b : Nat} (ha : a < 2 ^ 64) (hb : b < 2 ^ 64) (h : 0 < b) :
    checkedRemU64 (UInt64.ofNat a) (UInt64.ofNat b) = some (UInt64.ofNat (a % b)) := by
  have hne : UInt64.ofNat b ≠ 0 := by
    intro h0
    have := congrArg UInt64.toNat h0
    rw [UInt64.toNat_ofNat', Nat.mod_eq_of_lt hb] at this
    exact h.ne' this
  rw [checkedRemU64, if_neg hne, Option.some.injEq, ← UInt64.toNat_inj, UInt64.toNat_mod]
  simp only [UInt64.toNat_ofNat']
  have hmod : a % b < b := Nat.mod_lt _ h
  rw [Nat.mod_eq_of_lt ha, Nat.mod_eq_of_lt hb, Nat.mod_eq_of_lt (by omega : a % b < 2 ^ 64)]

theorem neg_ofNat {n : Nat} (h : n ≤ 2 ^ 64) :
    -UInt64.ofNat n = UInt64.ofNat (2 ^ 64 - n) := by
  rw [UInt64.ofNat_sub h]
  exact (UInt64.zero_sub _).symm

/-! ## 2. The functions of the crate, checked -/

/-- `saturating_double` -/
def saturatingDoubleChecked (base : UInt64) (exp : UInt32) : Option UInt64 :=
  if exp = 0 ∨ base = 0 then some base
  else if exp > 64 then some u64Max
  else
    let shift := exp - 1
    if shift ≥ 64 then some u64Max
    else do
      let bound ← checkedShrU64 u64Max shift
      if base > bound then some u64Max else checkedShlU64 base shift

/-- One round of the rejection loop: the offset of a sample that is not rejected. -/
def jitterRound (threshold span x : UInt64) : Option UInt64 :=
  if x ≥ threshold then some (x % span) else none

/-- `span.wrapping_neg() % span` -/
def jitterThreshold (span : UInt64) : UInt64 := -span % span

/-- The rejection loop over `rounds` samples. -/
def jitterLoop (sample : Nat → UInt64) (threshold span : UInt64) :
    (rounds counter : Nat) → Option UInt64
  | 0, _ => none
  | rounds + 1, counter =>
    match jitterRound threshold span (sample counter) with
    | some offset => some offset
    | none => jitterLoop sample threshold span rounds (counter + 1)

/-- `retry_delay_ms`; `none` when an operation overflows. -/
def retryDelayMsChecked (queueId jobId : Octets 16) (attempt : UInt32) (policy : RetryPolicy) :
    Option (Except RetryError UInt64) :=
  match policy.validate with
  | .error e => some (.error e)
  | .ok () =>
    if attempt = 0 then some (.ok 0)
    else do
      let doubled ← saturatingDoubleChecked policy.baseMs attempt
      let ceiling := min policy.effectiveCapMs doubled
      if ¬ policy.useJitter then some (.ok ceiling)
      else do
        -- `div_ceil(2)` is quotient plus remainder
        let lower ← checkedAddU64 (ceiling / 2) (ceiling % 2)
        let width ← checkedSubU64 ceiling lower
        let span ← checkedAddU64 width 1
        let threshold ← checkedRemU64 (-span) span
        let sample := fun counter => UInt64.ofNat (jitterSample queueId jobId attempt counter)
        match jitterLoop sample threshold span 64 0 with
        | some offset => (checkedAddU64 lower offset).map .ok
        | none => (checkedAddU64 lower (span / 2)).map .ok

theorem saturatingDoubleChecked_eq (base : UInt64) (exp : UInt32) :
    saturatingDoubleChecked base exp = some (saturatingDouble base exp) := by
  unfold saturatingDoubleChecked saturatingDouble
  split
  · rfl
  · rename_i hne
    split
    · rfl
    · rename_i hle
      have hpos : exp ≠ 0 := fun h => hne (.inl h)
      have hexp : 0 < exp.toNat := by
        rw [Nat.pos_iff_ne_zero]
        exact fun h => hpos (UInt32.toNat_inj.mp h)
      have hexp64 : exp.toNat ≤ 64 := by
        have := UInt32.lt_iff_toNat_lt.not.mp hle
        exact Nat.le_of_not_lt this
      have hshift : (exp - 1).toNat = exp.toNat - 1 :=
        UInt32.toNat_sub_of_le _ _ (UInt32.le_iff_toNat_le.mpr hexp)
      have hlt : exp - 1 < 64 := by
        rw [UInt32.lt_iff_toNat_lt, hshift]
        show exp.toNat - 1 < 64
        omega
      have hword : (exp - 1).toUInt64.toNat % 64 = exp.toNat - 1 := by
        rw [UInt32.toNat_toUInt64, hshift]
        omega
      have hbound : (u64Max >>> (exp - 1).toUInt64).toNat = (2 ^ 64 - 1) / 2 ^ (exp.toNat - 1) := by
        rw [UInt64.toNat_shiftRight, hword, Nat.shiftRight_eq_div_pow]
        rfl
      have hfits : ¬ base > u64Max >>> (exp - 1).toUInt64 ↔
          base.toNat * 2 ^ (exp.toNat - 1) < 2 ^ 64 := by
        rw [gt_iff_lt, UInt64.lt_iff_toNat_lt, hbound, Nat.not_lt,
          Nat.le_div_iff_mul_le (Nat.two_pow_pos _)]
        omega
      have hnot : ¬ exp - 1 ≥ 64 := by
        rw [ge_iff_le, UInt32.not_le]
        exact hlt
      simp only [if_neg hnot, checkedShrU64, if_pos hlt, Option.bind_eq_bind, Option.bind_some]
      by_cases hfit : base.toNat * 2 ^ (exp.toNat - 1) < 2 ^ 64
      · rw [if_neg (hfits.mpr hfit), if_pos hfit, checkedShlU64, hshift, if_pos ⟨hlt, hfit⟩,
          Option.some.injEq, ← UInt64.toNat_inj, UInt64.toNat_shiftLeft, hword,
          Nat.shiftLeft_eq, UInt64.toNat_ofNat']
      · rw [if_pos (not_not.mp (hfits.not.mpr hfit)), if_neg hfit]
        rfl

/-! ## 3. The ceiling of a delay -/

/-- `min(cap, base * 2^(attempt - 1))`, without a bound on the numbers. -/
def RetryPolicy.ceiling (p : RetryPolicy) (attempt : UInt32) : Nat :=
  min p.effectiveCapMs.toNat (p.baseMs.toNat * 2 ^ (attempt.toNat - 1))

theorem RetryPolicy.ceiling_lt (p : RetryPolicy) (attempt : UInt32) :
    p.ceiling attempt < 2 ^ 64 :=
  Nat.lt_of_le_of_lt (Nat.min_le_left ..) p.effectiveCapMs.toNat_lt

theorem RetryPolicy.ceiling_pos {p : RetryPolicy} (hvalid : p.validate = .ok ())
    (attempt : UInt32) : 0 < p.ceiling attempt := by
  simp only [RetryPolicy.validate] at hvalid
  split at hvalid
  · cases hvalid
  · rename_i hbase
    split at hvalid
    · cases hvalid
    · rename_i hcap
      rw [UInt64.not_lt, UInt64.le_iff_toNat_le] at hcap
      have hb := toNat_pos hbase
      exact Nat.lt_min.mpr ⟨by omega, Nat.mul_pos hb (Nat.two_pow_pos _)⟩

/-- Saturation does not show below the cap. -/
theorem min_saturatingDouble (p : RetryPolicy) {attempt : UInt32} (h : attempt ≠ 0) :
    min p.effectiveCapMs (saturatingDouble p.baseMs attempt) =
      UInt64.ofNat (p.ceiling attempt) := by
  rw [← UInt64.toNat_inj, UInt64.toNat_min, UInt64.toNat_ofNat',
    Nat.mod_eq_of_lt (p.ceiling_lt attempt), RetryPolicy.ceiling]
  have hcap := p.effectiveCapMs.toNat_lt
  have hmax : (UInt64.ofNat (2 ^ 64 - 1)).toNat = 2 ^ 64 - 1 := rfl
  unfold saturatingDouble
  split
  · rename_i h0
    have hbase : p.baseMs = 0 := h0.resolve_left h
    rw [hbase]
    simp
  · rename_i hne
    have hb : 0 < p.baseMs.toNat := toNat_pos fun h0 => hne (.inr h0)
    split
    · rename_i hlarge
      have hlarge : 64 < attempt.toNat := UInt32.lt_iff_toNat_lt.mp hlarge
      have hpow : 2 ^ 64 ≤ 2 ^ (attempt.toNat - 1) := Nat.pow_le_pow_right (by decide) (by omega)
      have hprod := Nat.mul_le_mul hb hpow
      rw [hmax]
      omega
    · split
      · rename_i hfit
        rw [UInt64.toNat_ofNat', Nat.mod_eq_of_lt hfit]
      · rw [hmax]
        omega

/-! ## 4. The rejection loop -/

section Jitter

variable (queueId jobId : Octets 16) (attempt : UInt32)

theorem jitterSample_lt (counter : Nat) : jitterSample queueId jobId attempt counter < 2 ^ 64 := by
  have h := beNat_lt ((sha256 (ascii "SteadQ-1-jitter" ++ [0] ++ queueId.1 ++ jobId.1 ++
    beBytes 4 attempt.toNat ++ beBytes 4 counter)).1.take 8)
  have hlen := (sha256 (ascii "SteadQ-1-jitter" ++ [0] ++ queueId.1 ++ jobId.1 ++
    beBytes 4 attempt.toNat ++ beBytes 4 counter)).2
  rw [List.length_take, hlen] at h
  exact h

theorem jitterOffset_lt {threshold span rounds counter offset : Nat} (hspan : 0 < span)
    (h : jitterOffset queueId jobId attempt threshold span rounds counter = some offset) :
    offset < span := by
  induction rounds generalizing counter with
  | zero => cases h
  | succ rounds ih =>
    simp only [jitterOffset] at h
    split at h
    · cases h
      exact Nat.mod_lt _ hspan
    · exact ih h

/-- The loop on words is the loop on numbers. -/
theorem jitterLoop_eq {threshold span : Nat} (hthreshold : threshold < 2 ^ 64)
    (hspan : span < 2 ^ 64) (rounds counter : Nat) :
    jitterLoop (fun c => UInt64.ofNat (jitterSample queueId jobId attempt c))
      (UInt64.ofNat threshold) (UInt64.ofNat span) rounds counter =
      (jitterOffset queueId jobId attempt threshold span rounds counter).map UInt64.ofNat := by
  induction rounds generalizing counter with
  | zero => rfl
  | succ rounds ih =>
    have hx := jitterSample_lt queueId jobId attempt counter
    rw [jitterLoop, jitterOffset, jitterRound]
    generalize jitterSample queueId jobId attempt counter = x at hx
    have hge : UInt64.ofNat x ≥ UInt64.ofNat threshold ↔ x ≥ threshold := by
      rw [ge_iff_le, UInt64.le_iff_toNat_le, UInt64.toNat_ofNat', UInt64.toNat_ofNat',
        Nat.mod_eq_of_lt hx, Nat.mod_eq_of_lt hthreshold]
    by_cases hacc : x ≥ threshold
    · have hmod : UInt64.ofNat x % UInt64.ofNat span = UInt64.ofNat (x % span) :=
        (UInt64.ofNat_mod hx hspan).symm
      rw [if_pos (hge.mpr hacc), if_pos hacc, hmod]
      rfl
    · rw [if_neg (hge.not.mpr hacc), if_neg hacc]
      exact ih (counter + 1)

end Jitter

/-! ## 5. The delay -/

/-- What the jitter adds to the lower end: an offset below the span. -/
theorem retryDelayMs_jitter (queueId jobId : Octets 16) {attempt : UInt32} {policy : RetryPolicy}
    (hvalid : policy.validate = .ok ()) (hattempt : attempt ≠ 0)
    (hjitter : policy.useJitter = true) :
    let c := policy.ceiling attempt
    let lower := (c + 1) / 2
    let span := c - lower + 1
    ∃ offset < span,
      retryDelayMs queueId jobId attempt policy = .ok (UInt64.ofNat (lower + offset)) ∧
      retryDelayMsChecked queueId jobId attempt policy =
        some (.ok (UInt64.ofNat (lower + offset))) := by
  intro c lower span
  have hc : c < 2 ^ 64 := policy.ceiling_lt attempt
  have hpos : 0 < c := policy.ceiling_pos hvalid attempt
  have hlower : lower ≤ c := by omega
  have hspan : 0 < span := by omega
  have hspan64 : span < 2 ^ 64 := by omega
  have hlowerWord : checkedAddU64 (UInt64.ofNat c / 2) (UInt64.ofNat c % 2) =
      some (UInt64.ofNat lower) := by
    have hplus : c / 2 + c % 2 = lower := by omega
    rw [show (2 : UInt64) = UInt64.ofNat 2 from rfl, ← UInt64.ofNat_div hc (by decide),
      ← UInt64.ofNat_mod hc (by decide), checkedAddU64_ofNat (by omega), hplus]
  have hwidth : checkedSubU64 (UInt64.ofNat c) (UInt64.ofNat lower) =
      some (UInt64.ofNat (c - lower)) := checkedSubU64_ofNat hc hlower
  have hspanWord : checkedAddU64 (UInt64.ofNat (c - lower)) 1 = some (UInt64.ofNat span) :=
    checkedAddU64_ofNat (b := 1) (by omega)
  have hthreshold : checkedRemU64 (-UInt64.ofNat span) (UInt64.ofNat span) =
      some (UInt64.ofNat ((2 ^ 64 - span) % span)) := by
    rw [neg_ofNat (by omega), checkedRemU64_ofNat (by omega) hspan64 hspan]
  have hlast (offset : Nat) (ho : offset < span) :
      (checkedAddU64 (UInt64.ofNat lower) (UInt64.ofNat offset)).map
        (Except.ok (ε := RetryError)) = some (.ok (UInt64.ofNat (lower + offset))) := by
    rw [checkedAddU64_ofNat (by omega : lower + offset < 2 ^ 64), Option.map_some]
  have hword : min policy.effectiveCapMs (saturatingDouble policy.baseMs attempt) =
      UInt64.ofNat c := min_saturatingDouble policy hattempt
  have hcNat : (UInt64.ofNat c).toNat = c := by rw [UInt64.toNat_ofNat', Nat.mod_eq_of_lt hc]
  have hbelow : (2 ^ 64 - span) % span < 2 ^ 64 := Nat.lt_trans (Nat.mod_lt _ hspan) hspan64
  have hloop := jitterLoop_eq queueId jobId attempt hbelow hspan64 64 0
  simp only [retryDelayMs, retryDelayMsChecked, hvalid, hjitter, if_neg hattempt,
    saturatingDoubleChecked_eq, hword, hcNat, bind, Except.bind, Option.bind_some,
    not_true_eq_false, if_false, hlowerWord, hwidth, hspanWord, hthreshold, hloop]
  cases hoffset : jitterOffset queueId jobId attempt ((2 ^ 64 - span) % span) span 64 0 with
  | some offset =>
    have ho : offset < span := jitterOffset_lt queueId jobId attempt hspan hoffset
    exact ⟨offset, ho, rfl, hlast offset ho⟩
  | none =>
    have ho : span / 2 < span := Nat.div_lt_self hspan (by decide)
    refine ⟨span / 2, ho, rfl, ?_⟩
    rw [← hlast (span / 2) ho, UInt64.ofNat_div hspan64 (by decide)]
    rfl

/-- A delay without jitter is the ceiling. -/
theorem retryDelayMs_plain (queueId jobId : Octets 16) {attempt : UInt32} {policy : RetryPolicy}
    (hvalid : policy.validate = .ok ()) (hattempt : attempt ≠ 0)
    (hjitter : policy.useJitter = false) :
    retryDelayMs queueId jobId attempt policy = .ok (UInt64.ofNat (policy.ceiling attempt)) ∧
      retryDelayMsChecked queueId jobId attempt policy =
        some (.ok (UInt64.ofNat (policy.ceiling attempt))) := by
  have hword := min_saturatingDouble policy hattempt
  have hc := Nat.mod_eq_of_lt (policy.ceiling_lt attempt)
  simp [retryDelayMs, retryDelayMsChecked, hvalid, hjitter, hattempt, saturatingDoubleChecked_eq,
    hword, -Nat.reducePow, hc, bind, Except.bind, pure, Except.pure]

/-- **No operation overflows**: the checked function answers, as the plain one does. -/
theorem retryDelayMsChecked_eq (queueId jobId : Octets 16) (attempt : UInt32)
    (policy : RetryPolicy) :
    retryDelayMsChecked queueId jobId attempt policy =
      some (retryDelayMs queueId jobId attempt policy) := by
  cases hvalid : policy.validate with
  | error e => simp [retryDelayMsChecked, retryDelayMs, hvalid, bind, Except.bind]
  | ok _ =>
    by_cases hattempt : attempt = 0
    · simp [retryDelayMsChecked, retryDelayMs, hvalid, hattempt, bind, Except.bind, pure,
        Except.pure]
    · cases hjitter : policy.useJitter with
      | false =>
        obtain ⟨hplain, hchecked⟩ := retryDelayMs_plain queueId jobId hvalid hattempt hjitter
        rw [hplain, hchecked]
      | true =>
        obtain ⟨_, -, hdelay, hchecked⟩ :=
          retryDelayMs_jitter queueId jobId hvalid hattempt hjitter
        rw [hdelay, hchecked]

/-- The delay of a valid policy, in numbers. -/
theorem retryDelayMs_spec (queueId jobId : Octets 16) {attempt : UInt32} {policy : RetryPolicy}
    (hvalid : policy.validate = .ok ()) (hattempt : attempt ≠ 0) :
    ∃ d, retryDelayMs queueId jobId attempt policy = .ok d ∧
      (policy.ceiling attempt + 1) / 2 ≤ d.toNat ∧ d.toNat ≤ policy.ceiling attempt ∧
      (policy.useJitter = false → d.toNat = policy.ceiling attempt) := by
  have hc := policy.ceiling_lt attempt
  cases hjitter : policy.useJitter with
  | false =>
    refine ⟨_, (retryDelayMs_plain queueId jobId hvalid hattempt hjitter).1, ?_⟩
    rw [UInt64.toNat_ofNat', Nat.mod_eq_of_lt hc]
    exact ⟨by have := policy.ceiling_pos hvalid attempt; omega, Nat.le_refl _, fun _ => rfl⟩
  | true =>
    obtain ⟨offset, ho, hdelay, -⟩ := retryDelayMs_jitter queueId jobId hvalid hattempt hjitter
    refine ⟨_, hdelay, ?_⟩
    rw [UInt64.toNat_ofNat', Nat.mod_eq_of_lt (by omega)]
    exact ⟨by omega, by omega, nofun⟩

/-- Below the cap the delays grow: the next interval starts where this one ends. -/
theorem retryDelayMs_mono (queueId jobId : Octets 16) {attempt : UInt32} {policy : RetryPolicy}
    (hvalid : policy.validate = .ok ()) (hattempt : attempt ≠ 0)
    (hcap : policy.baseMs.toNat * 2 ^ attempt.toNat ≤ policy.effectiveCapMs.toNat)
    {d d' : UInt64} (hd : retryDelayMs queueId jobId attempt policy = .ok d)
    (hd' : retryDelayMs queueId jobId (attempt + 1) policy = .ok d') : d ≤ d' := by
  have hpos : 0 < attempt.toNat := by
    rw [Nat.pos_iff_ne_zero]
    exact fun h => hattempt (UInt32.toNat_inj.mp h)
  have hbase : 0 < policy.baseMs.toNat := by
    have h := policy.ceiling_pos hvalid attempt
    exact Nat.pos_of_mul_pos_right (Nat.lt_of_lt_of_le h (Nat.min_le_right ..))
  -- an attempt below the cap is far below the largest attempt
  have hsmall : attempt.toNat < 64 := by
    by_contra hlarge
    have hpow : 2 ^ 64 ≤ 2 ^ attempt.toNat := Nat.pow_le_pow_right (by decide) (by omega)
    have := Nat.mul_le_mul hbase hpow
    have := policy.effectiveCapMs.toNat_lt
    omega
  have hnext : (attempt + 1).toNat = attempt.toNat + 1 := by
    rw [UInt32.toNat_add]
    exact Nat.mod_eq_of_lt (by show attempt.toNat + 1 < 2 ^ 32; omega)
  have hnext0 : attempt + 1 ≠ 0 := fun h => by
    have := congrArg UInt32.toNat h
    rw [hnext] at this
    exact Nat.succ_ne_zero _ this
  have hdouble : 2 ^ attempt.toNat = 2 * 2 ^ (attempt.toNat - 1) := by
    rw [← Nat.pow_succ']
    congr 1
    omega
  have hceil : policy.ceiling (attempt + 1) = 2 * policy.ceiling attempt := by
    simp only [RetryPolicy.ceiling, hnext, Nat.add_sub_cancel]
    rw [hdouble] at hcap ⊢
    rw [Nat.mul_left_comm] at hcap ⊢
    omega
  obtain ⟨e, he, -, hupper, -⟩ := retryDelayMs_spec queueId jobId hvalid hattempt
  obtain ⟨e', he', hlower, -⟩ := retryDelayMs_spec queueId jobId hvalid hnext0
  obtain rfl : e = d := Except.ok.inj (he.symm.trans hd)
  obtain rfl : e' = d' := Except.ok.inj (he'.symm.trans hd')
  rw [UInt64.le_iff_toNat_le]
  omega

/-! ## 6. Fairness -/

/-- A window of whole periods holds every residue equally often. -/
theorem card_residues_in_window (start periods : Nat) {span offset : Nat} (ho : offset < span) :
    ((Finset.Ico start (start + periods * span)).filter fun x => x % span = offset).card =
      periods := by
  have hspan : 0 < span := Nat.pos_of_ne_zero (by omega)
  have hperiodic : Function.Periodic (fun x => x % span = offset) (periods * span) := by
    intro x
    simp only [Nat.add_mul_mod_self_right]
  have hcount := Nat.count_modEq_card (periods * span) hspan offset
  rw [Nat.filter_Ico_card_eq_of_periodic start _ _ hperiodic]
  simp only [Nat.ModEq, Nat.mod_eq_of_lt ho, Nat.mul_div_cancel _ hspan, Nat.mul_mod_left,
    Nat.not_lt_zero, if_false, Nat.add_zero] at hcount
  exact hcount

/-- The samples not rejected start at the remainder, so they are whole periods of the span. -/
theorem jitterThreshold_toNat {span : UInt64} (hspan : span ≠ 0) :
    (jitterThreshold span).toNat = 2 ^ 64 % span.toNat := by
  have hlt := span.toNat_lt
  have hpos := toNat_pos hspan
  rw [jitterThreshold, UInt64.toNat_mod, UInt64.toNat_neg]
  show (2 ^ 64 - span.toNat) % 2 ^ 64 % span.toNat = _
  rw [Nat.mod_eq_of_lt (by omega : 2 ^ 64 - span.toNat < 2 ^ 64)]
  conv_rhs => rw [← Nat.sub_add_cancel hlt.le, Nat.add_mod_right]

/-- **The jitter is fair**: every offset is accepted for equally many of the `2 ^ 64` samples. -/
theorem jitterRound_fair {span offset : UInt64} (ho : offset < span) :
    (Finset.univ.filter fun x => jitterRound (jitterThreshold span) span x = some offset).card =
      2 ^ 64 / span.toNat := by
  have hspan : span ≠ 0 := by
    rintro rfl
    exact absurd ho (by simp)
  have hoNat := UInt64.lt_iff_toNat_lt.mp ho
  have hwindow := card_residues_in_window (2 ^ 64 % span.toNat) (2 ^ 64 / span.toNat) hoNat
  rw [Nat.mod_add_div'] at hwindow
  rw [← hwindow]
  refine Finset.card_bij (fun x _ => x.toNat) ?_ (fun _ _ _ _ h => UInt64.toNat_inj.mp h) ?_
  · intro x hx
    have hx := (Finset.mem_filter.mp hx).2
    simp only [jitterRound] at hx
    split at hx
    · rename_i hge
      rw [ge_iff_le, UInt64.le_iff_toNat_le, jitterThreshold_toNat hspan] at hge
      rw [Option.some.injEq, ← UInt64.toNat_inj, UInt64.toNat_mod] at hx
      exact Finset.mem_filter.mpr ⟨Finset.mem_Ico.mpr ⟨hge, x.toNat_lt⟩, hx⟩
    · cases hx
  · intro n hn
    obtain ⟨hico, hmod⟩ := Finset.mem_filter.mp hn
    obtain ⟨hge, hlt⟩ := Finset.mem_Ico.mp hico
    have hnat : (UInt64.ofNat n).toNat = n := by rw [UInt64.toNat_ofNat', Nat.mod_eq_of_lt hlt]
    refine ⟨UInt64.ofNat n, Finset.mem_filter.mpr ⟨Finset.mem_univ _, ?_⟩, hnat⟩
    have haccepted : UInt64.ofNat n ≥ jitterThreshold span := by
      rw [ge_iff_le, UInt64.le_iff_toNat_le, jitterThreshold_toNat hspan, hnat]
      exact hge
    rw [jitterRound, if_pos haccepted, Option.some.injEq, ← UInt64.toNat_inj, UInt64.toNat_mod,
      hnat, hmod]

/-- **Retry delays.** A valid policy answers for every attempt, without an overflow: the ceiling
    without jitter, the upper half of the ceiling with jitter, never zero. The delays do not
    decrease up to the cap, and the jitter favours no offset. -/
theorem retry_delay_correct (policy : RetryPolicy) (hvalid : policy.validate = .ok ())
    (queueId jobId : Octets 16) (attempt : UInt32) (hattempt : 1 ≤ attempt) :
    let c := min policy.effectiveCapMs.toNat (policy.baseMs.toNat * 2 ^ (attempt.toNat - 1))
    (∃ d, retryDelayMsChecked queueId jobId attempt policy = some (.ok d) ∧
      retryDelayMs queueId jobId attempt policy = .ok d ∧ d ≠ 0 ∧
      (policy.useJitter = false → d.toNat = c) ∧
      (policy.useJitter = true → c ⌈/⌉ 2 ≤ d.toNat ∧ d.toNat ≤ c)) ∧
    (policy.baseMs.toNat * 2 ^ attempt.toNat ≤ policy.effectiveCapMs.toNat →
      ∀ d d', retryDelayMs queueId jobId attempt policy = .ok d →
        retryDelayMs queueId jobId (attempt + 1) policy = .ok d' → d ≤ d') ∧
    ∀ span offset : UInt64, offset < span →
      (jitterThreshold span).toNat = (2 ^ 64 - span.toNat) % span.toNat ∧
      (Finset.univ.filter fun x => jitterRound (jitterThreshold span) span x = some offset).card =
        2 ^ 64 / span.toNat := by
  intro c
  have hne : attempt ≠ 0 := by
    rintro rfl
    exact absurd hattempt (by decide)
  have hpos : 0 < c := policy.ceiling_pos hvalid attempt
  refine ⟨?_, ?_, ?_⟩
  · obtain ⟨d, hd, hlower, hupper, hplain⟩ := retryDelayMs_spec queueId jobId hvalid hne
    refine ⟨d, by rw [retryDelayMsChecked_eq, hd], hd, ?_, hplain, fun _ => ⟨?_, hupper⟩⟩
    · rintro rfl
      have hzero : (0 : UInt64).toNat = 0 := rfl
      change (c + 1) / 2 ≤ _ at hlower
      omega
    · rw [Nat.ceilDiv_eq_add_pred_div]
      exact hlower
  · exact fun hcap d d' => retryDelayMs_mono queueId jobId hvalid hne hcap
  · intro span offset ho
    have hspan : span ≠ 0 := by
      rintro rfl
      exact absurd ho (by simp)
    refine ⟨?_, jitterRound_fair ho⟩
    have hlt := span.toNat_lt
    rw [jitterThreshold_toNat hspan, ← Nat.add_mod_right (2 ^ 64 - span.toNat),
      Nat.sub_add_cancel hlt.le]

/-- A policy with jitter and a cap that the third attempt reaches. -/
def samplePolicy : RetryPolicy := ⟨1000, 300000, true, some 3000⟩

theorem retry_delay_correct_sample :
    ∃ d, retryDelayMs (zeros 16) (zeros 16) 2 samplePolicy = .ok d ∧ 1000 ≤ d.toNat ∧
      d.toNat ≤ 2000 := by
  obtain ⟨⟨d, -, hd, -, -, hjitter⟩, -⟩ :=
    retry_delay_correct samplePolicy rfl (zeros 16) (zeros 16) 2 (by decide)
  exact ⟨d, hd, hjitter rfl⟩

end SteadQ
