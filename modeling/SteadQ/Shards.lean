/-
  File:      SteadQ/Shards.lean
  Subject:   THE ORDER IN WHICH A LEASE SCANS THE SHARDS.

  A scan starts at a shard taken from a hash, or at the hint a publication left, and steps by a
  stride taken from the same hash. The stride is made odd before it is masked, so it is invertible
  modulo the number of shards, a power of two; with one shard the mask leaves nothing of it, and
  the stride is 1.
-/
import SteadQ.Queue.Lease
import Mathlib.Data.Nat.ModEq
import Mathlib.Data.Nat.Prime.Basic
import Mathlib.Data.List.Perm.Subperm

namespace SteadQ

open Octet

/-! ## 1. A power of two as a mask -/

theorem toNat_of_isPowerOfTwo {n : UInt32} (h : isPowerOfTwo n = true) :
    ∃ k < 32, n.toNat = 2 ^ k := by
  obtain ⟨hne, hand⟩ := of_decide_eq_true h
  have hpos : n.toNat ≠ 0 := fun hzero => hne (UInt32.toNat_inj.mp hzero)
  have hle : (1 : UInt32) ≤ n := by
    rw [UInt32.le_iff_toNat_le]
    exact Nat.pos_of_ne_zero hpos
  have hnat : n.toNat &&& (n.toNat - 1) = 0 := by
    have htoNat := congrArg UInt32.toNat hand
    rw [UInt32.toNat_and, UInt32.toNat_sub_of_le _ _ hle] at htoNat
    exact htoNat
  obtain ⟨k, hk⟩ := (Nat.and_sub_one_eq_zero_iff_isPowerOfTwo hpos).mp hnat
  refine ⟨k, ?_, hk⟩
  have hlt := n.toNat_lt
  rw [hk] at hlt
  exact (Nat.pow_lt_pow_iff_right Nat.one_lt_two).mp hlt

section Mask

variable {k : Nat} {n : UInt32}

theorem toNat_mask (hn : n.toNat = 2 ^ k) : (n - 1).toNat = 2 ^ k - 1 := by
  have hle : (1 : UInt32) ≤ n := by
    rw [UInt32.le_iff_toNat_le, hn]
    exact Nat.one_le_two_pow
  rw [UInt32.toNat_sub_of_le _ _ hle, hn]
  rfl

/-- What wraps around at 32 bits is not seen behind the mask. -/
theorem shardAt_toNat (hk : k < 32) (hn : n.toNat = 2 ^ k) (start stride i : UInt32) :
    (shardAt start stride i n).toNat = (start.toNat + stride.toNat * i.toNat) % 2 ^ k := by
  have hdvd : 2 ^ k ∣ 2 ^ 32 := Nat.pow_dvd_pow 2 hk.le
  rw [shardAt, UInt32.toNat_and, toNat_mask hn, Nat.and_two_pow_sub_one_eq_mod, UInt32.toNat_add,
    UInt32.toNat_mul, Nat.mod_mod_of_dvd _ hdvd, Nat.add_mod, Nat.mod_mod_of_dvd _ hdvd,
    ← Nat.add_mod]

/-! ## 2. The stride -/

/-- What a scan takes from a hash value: the start and the stride. -/
def scanParamsOf (result : Octets 32) (shardCount : UInt32) : UInt32 × UInt32 :=
  let mask : UInt64 := UInt64.ofNat (shardCount - 1).toNat
  let start := UInt64.ofNat (beNat (result.1.take 8)) &&& mask
  let stride := (UInt64.ofNat (beNat ((result.1.drop 8).take 8)) ||| 1) &&& mask
  (UInt32.ofNat start.toNat, UInt32.ofNat (if stride = 0 then 1 else stride.toNat))

theorem shardScanParams_eq (queueId bootId workerNonce : Octets 16) (scanRound : UInt64)
    (shardCount : UInt32) : shardScanParams queueId bootId workerNonce scanRound shardCount =
      scanParamsOf (sha256 (ascii "SteadQ-1-scan" ++ [0] ++ queueId.1 ++ bootId.1 ++
        workerNonce.1 ++ beBytes 8 scanRound.toNat)) shardCount := rfl

/-- **Every stride is odd.** With one shard nothing is left behind the mask, and 1 stands in. -/
theorem scanParamsOf_stride_odd (hk : k < 32) (hn : n.toNat = 2 ^ k) (result : Octets 32) :
    (scanParamsOf result n).2.toNat % 2 = 1 := by
  let drawn := UInt64.ofNat (beNat ((result.1.drop 8).take 8)) ||| 1
  let stride := drawn &&& UInt64.ofNat (n - 1).toNat
  have hlt : 2 ^ k < 2 ^ 32 := Nat.pow_lt_pow_right Nat.one_lt_two hk
  have hmask : (UInt64.ofNat (n - 1).toNat).toNat = 2 ^ k - 1 := by
    rw [toNat_mask hn]
    exact UInt64.toNat_ofNat_of_lt' (show _ < 2 ^ 64 by omega)
  have hstride : stride.toNat = drawn.toNat % 2 ^ k := by
    rw [UInt64.toNat_and, hmask, Nat.and_two_pow_sub_one_eq_mod]
  show (UInt32.ofNat (if stride = 0 then 1 else stride.toNat)).toNat % 2 = 1
  split
  · rfl
  · rename_i hne
    have hbound : stride.toNat < 2 ^ k := hstride ▸ Nat.mod_lt _ (Nat.two_pow_pos k)
    have hodd : drawn.toNat % 2 = 1 := by
      rw [UInt64.toNat_or]
      exact Nat.or_mod_two_eq_one.mpr (.inr rfl)
    have hpos : k ≠ 0 := by
      rintro rfl
      exact hne (UInt64.toNat_inj.mp (Nat.lt_one_iff.mp hbound))
    rw [UInt32.toNat_ofNat_of_lt' (show _ < 2 ^ 32 by omega), hstride,
      Nat.mod_mod_of_dvd _ (dvd_pow_self 2 hpos), hodd]

end Mask

/-! ## 3. The scan -/

/-- An odd stride meets every remainder of a power of two once. -/
theorem perm_range_of_odd {k start stride : Nat} (hodd : stride % 2 = 1) :
    ((List.range (2 ^ k)).map fun i => (start + stride * i) % 2 ^ k).Perm (List.range (2 ^ k)) := by
  have hcoprime : Nat.gcd (2 ^ k) stride = 1 :=
    Nat.Coprime.pow_left k (Nat.coprime_two_left.mpr (Nat.odd_iff.mpr hodd))
  have hinj : ∀ i ∈ List.range (2 ^ k), ∀ j ∈ List.range (2 ^ k),
      (start + stride * i) % 2 ^ k = (start + stride * j) % 2 ^ k → i = j := by
    intro i hi j hj heq
    have hmul : stride * i ≡ stride * j [MOD 2 ^ k] := Nat.ModEq.add_left_cancel' start heq
    have hmod : i ≡ j [MOD 2 ^ k] := Nat.ModEq.cancel_left_of_coprime hcoprime hmul
    rw [List.mem_range] at hi hj
    exact Nat.ModEq.eq_of_lt_of_lt hmod hi hj
  have hnodup : ((List.range (2 ^ k)).map fun i => (start + stride * i) % 2 ^ k).Nodup :=
    List.Nodup.map_on hinj List.nodup_range
  have hsubset : ((List.range (2 ^ k)).map fun i => (start + stride * i) % 2 ^ k) ⊆
      List.range (2 ^ k) := by
    intro m hm
    obtain ⟨i, -, rfl⟩ := List.mem_map.mp hm
    exact List.mem_range.mpr (Nat.mod_lt _ (Nat.two_pow_pos k))
  exact (List.subperm_of_subset hnodup hsubset).perm_of_length_le (by simp)

/-- The shards of a scan with any odd stride, from any start. -/
theorem perm_shardAt {n stride : UInt32} (h : isPowerOfTwo n = true) (start : UInt32)
    (hodd : stride.toNat % 2 = 1) :
    ((List.range n.toNat).map fun i => (shardAt start stride (UInt32.ofNat i) n).toNat).Perm
      (List.range n.toNat) := by
  obtain ⟨k, hk, hn⟩ := toNat_of_isPowerOfTwo h
  have hlt : 2 ^ k < 2 ^ 32 := Nat.pow_lt_pow_right Nat.one_lt_two hk
  have hshards : ((List.range n.toNat).map fun i =>
        (shardAt start stride (UInt32.ofNat i) n).toNat) =
      (List.range (2 ^ k)).map fun i => (start.toNat + stride.toNat * i) % 2 ^ k := by
    rw [hn]
    refine List.map_congr_left fun i hi => ?_
    have hi := List.mem_range.mp hi
    rw [shardAt_toNat hk hn, UInt32.toNat_ofNat_of_lt' (show _ < 2 ^ 32 by omega)]
  rw [hshards, hn]
  exact perm_range_of_odd hodd

/-- **A scan visits every shard once**: from any start, with the stride of any hash value; and so
    does the scan of every handle, whether it starts as scheduled or at the hint. -/
theorem scan_visits_every_shard (n : UInt32) (hn : isPowerOfTwo n = true) :
    (∀ (result : Octets 32) (start : UInt32),
      ((List.range n.toNat).map fun i =>
        (shardAt start (scanParamsOf result n).2 (UInt32.ofNat i) n).toNat).Perm
          (List.range n.toNat)) ∧
    ∀ h : Handle, h.format.shardCount = n →
      ((scanOrder h).map UInt32.toNat).Perm (List.range n.toNat) := by
  obtain ⟨k, hk, hcount⟩ := toNat_of_isPowerOfTwo hn
  constructor
  · intro result start
    exact perm_shardAt hn start (scanParamsOf_stride_odd hk hcount result)
  · rintro h rfl
    have hodd := scanParamsOf_stride_odd hk hcount (sha256 (ascii "SteadQ-1-scan" ++ [0] ++
      h.format.queueId.1 ++ h.bootIdBytes.1 ++ h.workerNonce.1 ++ beBytes 8 h.scanRound.toNat))
    rw [← shardScanParams_eq] at hodd
    rw [scanOrder, List.map_map]
    exact perm_shardAt hn _ hodd

/-- The default number of shards. -/
theorem scan_visits_every_shard_default :
    isPowerOfTwo 64 = true ∧
    (∀ (result : Octets 32) (start : UInt32),
      ((List.range 64).map fun i =>
        (shardAt start (scanParamsOf result 64).2 (UInt32.ofNat i) 64).toNat).Perm
          (List.range 64)) ∧
    ∀ h : Handle, h.format.shardCount = 64 →
      ((scanOrder h).map UInt32.toNat).Perm (List.range 64) :=
  ⟨by decide, scan_visits_every_shard 64 (by decide)⟩

/-- From the last of eight shards with a stride that wraps around. -/
example : (List.range 8).map (fun i => shardAt 7 0xfffffffd (UInt32.ofNat i) 8) =
    [7, 4, 1, 6, 3, 0, 5, 2] := by decide

end SteadQ
