/-
  File:      SteadQ/Lib/Bytes.lean
  Subject:   BYTE STRINGS: octet strings of fixed length, big-endian integers and lowercase hex,
             each encoder next to its decoder with the two round trips.
-/
import Mathlib.Algebra.Group.Nat.Defs
import Mathlib.Data.List.Induction

namespace Octet

abbrev Bytes := List UInt8

/-- A byte string of exactly `n` bytes. -/
abbrev Octets (n : Nat) := { b : Bytes // b.length = n }

/-- The bytes of an ASCII text. -/
def ascii (s : String) : Bytes := s.toList.map fun c => UInt8.ofNat c.toNat

/-! ## 1. Big-endian numbers -/

/-- The `w` low-order bytes of `n`, most significant first. -/
def beBytes : Nat → Nat → Bytes
  | 0, _ => []
  | w + 1, n => beBytes w (n / 256) ++ [UInt8.ofNat n]

def beNat (b : Bytes) : Nat := b.foldl (fun acc x => acc * 256 + x.toNat) 0

@[simp] theorem beBytes_length (w n : Nat) : (beBytes w n).length = w := by
  induction w generalizing n with
  | zero => rfl
  | succ w ih => simp [beBytes, ih]

theorem beNat_append_singleton (b : Bytes) (x : UInt8) :
    beNat (b ++ [x]) = beNat b * 256 + x.toNat := by
  simp [beNat]

theorem beNat_lt (b : Bytes) : beNat b < 256 ^ b.length := by
  induction b using List.reverseRecOn with
  | nil => simp [beNat]
  | append_singleton b x ih =>
    rw [beNat_append_singleton, List.length_append, List.length_singleton, Nat.pow_succ]
    have hx : x.toNat < 256 := x.toNat_lt
    omega

/-- Reading back the bytes of a number that fits gives the number. -/
theorem beNat_beBytes {w n : Nat} (h : n < 256 ^ w) : beNat (beBytes w n) = n := by
  induction w generalizing n with
  | zero =>
    have : n = 0 := by simpa using h
    simp [this, beBytes, beNat]
  | succ w ih =>
    have hdiv : n / 256 < 256 ^ w := by
      rw [Nat.pow_succ] at h
      exact Nat.div_lt_of_lt_mul (by rw [Nat.mul_comm]; exact h)
    rw [beBytes, beNat_append_singleton, ih hdiv, UInt8.toNat_ofNat']
    omega

/-- A byte string is the big-endian form of the number it denotes. -/
theorem beBytes_beNat (b : Bytes) : beBytes b.length (beNat b) = b := by
  induction b using List.reverseRecOn with
  | nil => rfl
  | append_singleton b x ih =>
    have hx : x.toNat < 256 := x.toNat_lt
    have hdiv : (beNat b * 256 + x.toNat) / 256 = beNat b := by omega
    have hlow : UInt8.ofNat (beNat b * 256 + x.toNat) = x := by
      apply UInt8.toNat_inj.mp
      rw [UInt8.toNat_ofNat']
      omega
    rw [List.length_append, List.length_singleton, beBytes, beNat_append_singleton, hdiv, ih, hlow]

/-! ## 2. Lowercase hex -/

def hexDigit (n : UInt8) : UInt8 := if n < 10 then 48 + n else 87 + n

/-- Two lowercase digits per byte. -/
def hexEncode : Bytes → Bytes
  | [] => []
  | b :: bs => hexDigit (b >>> 4) :: hexDigit (b &&& 15) :: hexEncode bs

def fromHexDigitLower (b : UInt8) : Option UInt8 :=
  if 48 ≤ b ∧ b ≤ 57 then some (b - 48)
  else if 97 ≤ b ∧ b ≤ 102 then some (b - 97 + 10)
  else none

def fromHexPairLower (hi lo : UInt8) : Option UInt8 := do
  let h ← fromHexDigitLower hi
  let l ← fromHexDigitLower lo
  some ((h <<< 4) ||| l)

def hexDecode : Bytes → Option Bytes
  | [] => some []
  | [_] => none
  | hi :: lo :: rest => do
    let b ← fromHexPairLower hi lo
    let bs ← hexDecode rest
    some (b :: bs)

/-- Decode exactly `2 * n` lowercase hex digits. -/
def hexDecodeArray (n : Nat) (s : Bytes) : Option (Octets n) :=
  match hexDecode s with
  | some b => if h : b.length = n then some ⟨b, h⟩ else none
  | none => none

@[simp] theorem hexEncode_length (b : Bytes) : (hexEncode b).length = 2 * b.length := by
  induction b with
  | nil => rfl
  | cons x xs ih => simp [hexEncode, ih]; omega

/-- The four high bits. -/
theorem toNat_high (b : UInt8) : (b >>> 4).toNat = b.toNat / 16 := by
  rw [UInt8.toNat_shiftRight, Nat.shiftRight_eq_div_pow]
  rfl

/-- The four low bits. -/
theorem toNat_low (b : UInt8) : (b &&& 15).toNat = b.toNat % 16 := by
  rw [UInt8.toNat_and]
  exact Nat.and_two_pow_sub_one_eq_mod b.toNat 4

theorem high_lt (b : UInt8) : (b >>> 4).toNat < 16 := by
  have hb := b.toNat_lt
  rw [toNat_high]
  omega

theorem low_lt (b : UInt8) : (b &&& 15).toNat < 16 := by
  rw [toNat_low]
  exact Nat.mod_lt _ (by decide)

/-- Four bits in front of four. -/
theorem toNat_nibbles {u l : UInt8} (hu : u.toNat < 16) (hl : l.toNat < 16) :
    ((u <<< 4) ||| l).toNat = 16 * u.toNat + l.toNat := by
  have hshift : (u <<< 4).toNat = u.toNat <<< 4 := by
    rw [UInt8.toNat_shiftLeft, Nat.mod_eq_of_lt]
    · rfl
    · show u.toNat <<< 4 < 256
      rw [Nat.shiftLeft_eq]
      omega
  rw [UInt8.toNat_or, hshift, ← Nat.shiftLeft_add_eq_or_of_lt hl, Nat.shiftLeft_eq]
  omega

/-- **Every byte of a hex string is one of sixteen digits.** -/
theorem mem_hexEncode {b : Bytes} {x : UInt8} (h : x ∈ hexEncode b) :
    ∃ d : Fin 16, x = hexDigit (UInt8.ofNat d) := by
  have hnibble {n : UInt8} (hn : n.toNat < 16) :
      ∃ d : Fin 16, hexDigit n = hexDigit (UInt8.ofNat d) := by
    refine ⟨⟨n.toNat, hn⟩, ?_⟩
    rw [UInt8.ofNat_toNat]
  induction b with
  | nil => cases h
  | cons y ys ih =>
    rcases List.mem_cons.mp h with rfl | h
    · exact hnibble (high_lt y)
    · rcases List.mem_cons.mp h with rfl | h
      · exact hnibble (low_lt y)
      · exact ih h

theorem fromHexDigitLower_hexDigit {d : UInt8} (hd : d.toNat < 16) :
    fromHexDigitLower (hexDigit d) = some d := by
  have key : ∀ d : Fin 16, fromHexDigitLower (hexDigit (UInt8.ofNat d)) = some (UInt8.ofNat d) := by
    decide
  simpa using key ⟨d.toNat, hd⟩

theorem fromHexPairLower_hexDigit (b : UInt8) :
    fromHexPairLower (hexDigit (b >>> 4)) (hexDigit (b &&& 15)) = some b := by
  have hjoin : ((b >>> 4) <<< 4) ||| (b &&& 15) = b := by
    apply UInt8.toNat_inj.mp
    rw [toNat_nibbles (high_lt b) (low_lt b), toNat_high, toNat_low, Nat.div_add_mod]
  rw [fromHexPairLower, fromHexDigitLower_hexDigit (high_lt b),
    fromHexDigitLower_hexDigit (low_lt b)]
  exact congrArg some hjoin

theorem hexDecode_hexEncode (b : Bytes) : hexDecode (hexEncode b) = some b := by
  induction b with
  | nil => rfl
  | cons x xs ih => simp [hexEncode, hexDecode, fromHexPairLower_hexDigit, ih]

theorem hexDecodeArray_hexEncode {n : Nat} (b : Octets n) :
    hexDecodeArray n (hexEncode b.1) = some b := by
  have hlen := b.2
  simp [hexDecodeArray, hexDecode_hexEncode, hlen]

theorem hexDigit_fromHexDigitLower {c v : UInt8} (h : fromHexDigitLower c = some v) :
    hexDigit v = c ∧ v < 16 := by
  have hdecimal : ∀ n : Fin 10, hexDigit (UInt8.ofNat (48 + n) - 48) = UInt8.ofNat (48 + n) ∧
      UInt8.ofNat (48 + n) - 48 < 16 := by decide
  have hletter : ∀ n : Fin 6, hexDigit (UInt8.ofNat (97 + n) - 97 + 10) = UInt8.ofNat (97 + n) ∧
      UInt8.ofNat (97 + n) - 97 + 10 < 16 := by decide
  have hfrom {first : Nat} (hc : first ≤ c.toNat) : c = UInt8.ofNat (first + (c.toNat - first)) := by
    rw [Nat.add_sub_of_le hc, UInt8.ofNat_toNat]
  unfold fromHexDigitLower at h
  split at h
  · rename_i hc
    have hlo : 48 ≤ c.toNat := UInt8.le_iff_toNat_le.mp hc.1
    have hhi : c.toNat ≤ 57 := UInt8.le_iff_toNat_le.mp hc.2
    cases h
    rw [hfrom hlo]
    exact hdecimal ⟨c.toNat - 48, by omega⟩
  · split at h
    · rename_i hc
      have hlo : 97 ≤ c.toNat := UInt8.le_iff_toNat_le.mp hc.1
      have hhi : c.toNat ≤ 102 := UInt8.le_iff_toNat_le.mp hc.2
      cases h
      rw [hfrom hlo]
      exact hletter ⟨c.toNat - 97, by omega⟩
    · cases h

theorem hexDigit_fromHexPairLower {hi lo b : UInt8} (h : fromHexPairLower hi lo = some b) :
    hexDigit (b >>> 4) = hi ∧ hexDigit (b &&& 15) = lo := by
  simp only [fromHexPairLower, Option.bind_eq_bind, Option.bind_eq_some_iff,
    Option.some.injEq] at h
  obtain ⟨u, hu, l, hl, rfl⟩ := h
  obtain ⟨rfl, hu16⟩ := hexDigit_fromHexDigitLower hu
  obtain ⟨rfl, hl16⟩ := hexDigit_fromHexDigitLower hl
  have hu16 : u.toNat < 16 := hu16
  have hl16 : l.toNat < 16 := hl16
  have hhigh : ((u <<< 4) ||| l) >>> 4 = u := by
    apply UInt8.toNat_inj.mp
    rw [toNat_high, toNat_nibbles hu16 hl16]
    omega
  have hlow : ((u <<< 4) ||| l) &&& 15 = l := by
    apply UInt8.toNat_inj.mp
    rw [toNat_low, toNat_nibbles hu16 hl16]
    omega
  rw [hhigh, hlow]
  exact ⟨rfl, rfl⟩

/-- **Only the canonical digits are accepted.** -/
theorem hexEncode_of_hexDecode {s b : Bytes} (h : hexDecode s = some b) : hexEncode b = s := by
  induction s using hexDecode.induct generalizing b with
  | case1 =>
    simp only [hexDecode, Option.some.injEq] at h
    subst h
    rfl
  | case2 => simp [hexDecode] at h
  | case3 hi lo rest ih =>
    simp only [hexDecode, Option.bind_eq_bind, Option.bind_eq_some_iff, Option.some.injEq] at h
    obtain ⟨x, hx, xs, hxs, rfl⟩ := h
    obtain ⟨hhi, hlo⟩ := hexDigit_fromHexPairLower hx
    rw [hexEncode, hhi, hlo, ih hxs]

theorem hexEncode_of_hexDecodeArray {n : Nat} {s : Bytes} {b : Octets n}
    (h : hexDecodeArray n s = some b) : hexEncode b.1 = s := by
  unfold hexDecodeArray at h
  split at h
  · rename_i x hx
    split at h
    · cases h
      exact hexEncode_of_hexDecode hx
    · cases h
  · cases h


end Octet
