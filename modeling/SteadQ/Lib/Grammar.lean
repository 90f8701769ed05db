/-
  File:      SteadQ/Lib/Grammar.lean
  Subject:   GRAMMARS OF BYTE STRINGS WITHOUT RECURSION, in the constructs ABNF has for them.

  A quoted text stands for the bytes written.
-/
import SteadQ.Lib.Bytes

namespace Octet

/-! ## 1. Rules -/

inductive Rule where
  /-- `%xLO-HI` -/
  | range (lo hi : UInt8)
  /-- `"text"` -/
  | text (s : Bytes)
  /-- `a / b` -/
  | either (a b : Rule)
  /-- `a b` -/
  | seq (a b : Rule)
  /-- `na`, exactly `n` times -/
  | times (n : Nat) (a : Rule)

namespace Rule

def Generates : Rule → Bytes → Prop
  | .range lo hi, s => ∃ b, lo ≤ b ∧ b ≤ hi ∧ s = [b]
  | .text t, s => s = t
  | .either a b, s => a.Generates s ∨ b.Generates s
  | .seq a b, s => ∃ u v, a.Generates u ∧ b.Generates v ∧ s = u ++ v
  | .times n a, s => ∃ l : List Bytes, l.length = n ∧ (∀ u ∈ l, a.Generates u) ∧ s = l.flatten

/-- One rule after the other. -/
def seqs (rules : List Rule) : Rule := rules.foldr .seq (.text [])

theorem generates_seqs_nil {s : Bytes} : (seqs []).Generates s ↔ s = [] := Iff.rfl

theorem generates_seqs_cons {a : Rule} {rules : List Rule} {s : Bytes} :
    (seqs (a :: rules)).Generates s ↔
      ∃ u v, a.Generates u ∧ (seqs rules).Generates v ∧ s = u ++ v := Iff.rfl

/-! ## 2. Hex digits -/

/-- `%x30-39 / %x61-66` -/
def hexDigit : Rule := .either (.range 48 57) (.range 97 102)

theorem generates_hexDigit {s : Bytes} :
    hexDigit.Generates s ↔ ∃ b v, fromHexDigitLower b = some v ∧ s = [b] := by
  constructor
  · rintro (⟨b, hlo, hhi, rfl⟩ | ⟨b, hlo, hhi, rfl⟩)
    · exact ⟨b, b - 48, if_pos ⟨hlo, hhi⟩, rfl⟩
    · have hno : ¬ (48 ≤ b ∧ b ≤ 57) := by
        rintro ⟨-, hb⟩
        exact absurd (UInt8.le_trans hlo hb) (by decide)
      refine ⟨b, b - 97 + 10, ?_, rfl⟩
      rw [fromHexDigitLower, if_neg hno, if_pos ⟨hlo, hhi⟩]
  · rintro ⟨b, v, hv, rfl⟩
    unfold fromHexDigitLower at hv
    split at hv
    · rename_i hb
      exact .inl ⟨b, hb.1, hb.2, rfl⟩
    · split at hv
      · rename_i hb
        exact .inr ⟨b, hb.1, hb.2, rfl⟩
      · cases hv

theorem hexDigit_of_nibble (b : UInt8) : hexDigit.Generates [Octet.hexDigit (b >>> 4)] ∧
    hexDigit.Generates [Octet.hexDigit (b &&& 15)] := by
  have h := fromHexPairLower_hexDigit b
  simp only [fromHexPairLower, Option.bind_eq_bind, Option.bind_eq_some_iff] at h
  obtain ⟨hi, hhi, lo, hlo, -⟩ := h
  exact ⟨generates_hexDigit.mpr ⟨_, hi, hhi, rfl⟩, generates_hexDigit.mpr ⟨_, lo, hlo, rfl⟩⟩

/-- **A run of hex digits of even length is the hex form of some bytes.** -/
theorem generates_hex {w : Nat} {s : Bytes} :
    (times (2 * w) hexDigit).Generates s ↔ ∃ b : Octets w, s = hexEncode b.1 := by
  induction w generalizing s with
  | zero =>
    constructor
    · rintro ⟨l, hlen, -, rfl⟩
      rw [List.length_eq_zero_iff.mp hlen]
      exact ⟨⟨[], rfl⟩, rfl⟩
    · rintro ⟨⟨b, hb⟩, rfl⟩
      cases List.length_eq_zero_iff.mp hb
      exact ⟨[], rfl, fun _ hx => absurd hx List.not_mem_nil, rfl⟩
  | succ w ih =>
    constructor
    · rintro ⟨l, hlen, hdigits, rfl⟩
      obtain _ | ⟨u, _ | ⟨v, l⟩⟩ := l
      · exact absurd hlen (by rw [List.length_nil]; omega)
      · exact absurd hlen (by rw [List.length_singleton]; omega)
      have hrest : ∀ x ∈ l, hexDigit.Generates x := fun x hx =>
        hdigits x (List.mem_cons_of_mem _ (List.mem_cons_of_mem _ hx))
      obtain ⟨⟨b, hb⟩, hs⟩ := ih.mp ⟨l, by simp only [List.length_cons] at hlen; omega, hrest, rfl⟩
      obtain ⟨hi, x, hx, rfl⟩ := generates_hexDigit.mp (hdigits u List.mem_cons_self)
      obtain ⟨lo, y, hy, rfl⟩ :=
        generates_hexDigit.mp (hdigits v (List.mem_cons_of_mem _ List.mem_cons_self))
      have hpair : fromHexPairLower hi lo = some ((x <<< 4) ||| y) := by
        simp [fromHexPairLower, hx, hy]
      obtain ⟨hhi, hlo⟩ := hexDigit_fromHexPairLower hpair
      refine ⟨⟨((x <<< 4) ||| y) :: b, by rw [List.length_cons, hb]⟩, ?_⟩
      rw [List.flatten_cons, List.flatten_cons, hs, hexEncode, hhi, hlo]
      rfl
    · rintro ⟨⟨b, hb⟩, rfl⟩
      obtain _ | ⟨x, b⟩ := b
      · cases hb
      obtain ⟨l, hlen, hdigits, hl⟩ := ih.mpr ⟨⟨b, Nat.succ.inj hb⟩, rfl⟩
      obtain ⟨hhi, hlo⟩ := hexDigit_of_nibble x
      refine ⟨[Octet.hexDigit (x >>> 4)] :: [Octet.hexDigit (x &&& 15)] :: l,
        by simp only [List.length_cons, hlen]; omega, ?_, ?_⟩
      · intro u hu
        rcases List.mem_cons.mp hu with rfl | hu
        · exact hhi
        · rcases List.mem_cons.mp hu with rfl | hu
          · exact hlo
          · exact hdigits u hu
      · rw [List.flatten_cons, List.flatten_cons, ← hl]
        rfl

end Rule

end Octet
