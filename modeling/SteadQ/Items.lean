/-
  File:      SteadQ/Items.lean
  Subject:   ITEMS, ENCODED AND READ.

  The reader of `Cbor.lean` takes one item off the input. `CborItem.encode` is the one encoding of
  an item that it accepts, whatever follows it.
-/
import SteadQ.Cbor

namespace SteadQ

open Octet

/-! ## 1. Heads -/

theorem initialByte_toNat {major info : Nat} (hm : major < 8) (hi : info < 32) :
    (initialByte major info).toNat = major * 32 + info := by
  rw [initialByte, UInt8.toNat_ofNat', Nat.mod_eq_of_lt (by omega)]

theorem initialByte_major {major info : Nat} (hm : major < 8) (hi : info < 32) :
    (initialByte major info).toNat / 32 = major ∧ (initialByte major info).toNat % 32 = info := by
  rw [initialByte_toNat hm hi]
  omega

/-- The initial byte of an item is that of its major type and additional information. -/
theorem initialByte_of_toNat (b : UInt8) : initialByte (b.toNat / 32) (b.toNat % 32) = b := by
  rw [initialByte, ← UInt8.toNat_inj, UInt8.toNat_ofNat', Nat.mul_comm, Nat.div_add_mod]
  exact Nat.mod_eq_of_lt b.toNat_lt

theorem readWide_encode {width least v : Nat} (rest : Bytes) (hlow : least ≤ v)
    (hv : v < 256 ^ width) : readWide width least (beBytes width v ++ rest) = .ok (v, rest) := by
  have hlen := beBytes_length width v
  have hnot : ¬ (beBytes width v ++ rest).length < width := by
    rw [List.length_append, hlen]
    omega
  rw [readWide, if_neg hnot, List.take_left' hlen, List.drop_left' hlen, beNat_beBytes hv]
  exact if_neg (Nat.not_lt.mpr hlow)

theorem encode_of_readWide {width least v : Nat} {input rest : Bytes}
    (h : readWide width least input = .ok (v, rest)) :
    least ≤ v ∧ v < 256 ^ width ∧ input = beBytes width v ++ rest := by
  unfold readWide at h
  split at h
  · cases h
  · rename_i hlen
    dsimp only at h
    split at h
    · cases h
    · rename_i hlow
      obtain ⟨rfl, rfl⟩ := Prod.mk.inj (Except.ok.inj h)
      have htake : (input.take width).length = width := by
        rw [List.length_take]
        omega
      have hlt := beNat_lt (input.take width)
      have hbytes := beBytes_beNat (input.take width)
      rw [htake] at hlt hbytes
      exact ⟨Nat.not_lt.mp hlow, hlt, by rw [hbytes, List.take_append_drop]⟩

/-- The head of a value: its initial byte, and how the value is read behind it. -/
theorem readUint_encodeHeader {major v : Nat} (hm : major < 8) (hv : v < 2 ^ 64) :
    ∃ b tail, encodeHeader major v = b :: tail ∧ b.toNat / 32 = major ∧
      ∀ rest, readUint (b.toNat % 32) (tail ++ rest) = .ok (v, rest) := by
  have hwide (info width least : Nat) (hi : info < 32)
      (hread : ∀ input, readUint info input = readWide width least input) (hlow : least ≤ v)
      (hhigh : v < 256 ^ width) :
      ∃ b tail, initialByte major info :: beBytes width v = b :: tail ∧ b.toNat / 32 = major ∧
        ∀ rest, readUint (b.toNat % 32) (tail ++ rest) = .ok (v, rest) := by
    obtain ⟨hmajor, hinfo⟩ := initialByte_major hm hi
    refine ⟨_, _, rfl, hmajor, fun rest => ?_⟩
    rw [hinfo, hread, readWide_encode rest hlow hhigh]
  unfold encodeHeader
  split
  · rename_i hsmall
    have hi : v < 32 := by omega
    obtain ⟨hmajor, hinfo⟩ := initialByte_major hm hi
    refine ⟨_, [], rfl, hmajor, fun rest => ?_⟩
    rw [hinfo, readUint, if_pos hsmall]
    rfl
  · rename_i h₀
    split
    · rename_i h₁
      exact hwide 24 1 24 (by omega) (fun _ => rfl) (by omega) h₁
    · rename_i h₁
      split
      · rename_i h₂
        exact hwide 25 2 256 (by omega) (fun _ => rfl) (by omega) h₂
      · rename_i h₂
        split
        · rename_i h₃
          exact hwide 26 4 65536 (by omega) (fun _ => rfl) (by omega) h₃
        · exact hwide 27 8 4294967296 (by omega) (fun _ => rfl) (by omega) hv

/-- **Only the shortest head of a value is accepted.** -/
theorem encodeHeader_of_readUint {additional v : Nat} {input rest : Bytes}
    (h : readUint additional input = .ok (v, rest)) (major : Nat) :
    v < 2 ^ 64 ∧ initialByte major additional :: input = encodeHeader major v ++ rest := by
  unfold readUint at h
  split at h
  · rename_i hsmall
    obtain ⟨rfl, rfl⟩ := Prod.mk.inj (Except.ok.inj h)
    exact ⟨by omega, by rw [encodeHeader, if_pos hsmall]; rfl⟩
  split at h
  · rename_i hadditional
    obtain ⟨hlow, hhigh, rfl⟩ := encode_of_readWide h
    refine ⟨by omega, ?_⟩
    rw [encodeHeader, if_neg (by omega), if_pos (by omega), hadditional]
    rfl
  split at h
  · rename_i hadditional
    obtain ⟨hlow, hhigh, rfl⟩ := encode_of_readWide h
    refine ⟨by omega, ?_⟩
    rw [encodeHeader, if_neg (by omega), if_neg (by omega), if_pos (by omega), hadditional]
    rfl
  split at h
  · rename_i hadditional
    obtain ⟨hlow, hhigh, rfl⟩ := encode_of_readWide h
    refine ⟨by omega, ?_⟩
    rw [encodeHeader, if_neg (by omega), if_neg (by omega), if_neg (by omega), if_pos (by omega),
      hadditional]
    rfl
  split at h
  · rename_i hadditional
    obtain ⟨hlow, hhigh, rfl⟩ := encode_of_readWide h
    refine ⟨hhigh, ?_⟩
    rw [encodeHeader, if_neg (by omega), if_neg (by omega), if_neg (by omega), if_neg (by omega),
      hadditional]
    rfl
  split at h <;> cases h

theorem encodeHeader_ne_nil (major v : Nat) : encodeHeader major v ≠ [] := by
  unfold encodeHeader
  repeat' split
  all_goals exact List.cons_ne_nil _ _

/-! ## 2. Items -/

mutual

/-- The encoding of an item. -/
def CborItem.encode : CborItem → Bytes
  | .uint v => encodeHeader 0 v
  | .nint v => encodeHeader 1 v
  | .bytes b => encodeByteString b
  | .text s => encodeTextString s.bytes
  | .bool false => [244]
  | .bool true => [245]
  | .map items => encodeHeader 5 items.length ++ encodePairs items

/-- Keys and values, one behind the other. -/
def encodePairs : List (CborItem × CborItem) → Bytes
  | [] => []
  | (key, val) :: rest => key.encode ++ (val.encode ++ encodePairs rest)

end

/-- Items whose numbers have 64 bits, with maps of bounded length, `levels` deep. -/
def CborItem.Fits : Nat → CborItem → Prop
  | 0, _ => False
  | _ + 1, .uint v => v < 2 ^ 64
  | _ + 1, .nint v => v < 2 ^ 63
  | _ + 1, .bytes b => b.length < 2 ^ 64
  | _ + 1, .text s => s.bytes.length < 2 ^ 64
  | _ + 1, .bool _ => True
  | levels + 1, .map items => items.length ≤ maxMetadataEntries * 8 ∧
      ∀ entry ∈ items, entry.1.Fits levels ∧ entry.2.Fits levels

theorem CborItem.encode_ne_nil (item : CborItem) : item.encode ≠ [] := by
  cases item with
  | uint v => exact encodeHeader_ne_nil 0 v
  | nint v => exact encodeHeader_ne_nil 1 v
  | bytes b => exact List.append_ne_nil_of_left_ne_nil (encodeHeader_ne_nil _ _) _
  | text s => exact List.append_ne_nil_of_left_ne_nil (encodeHeader_ne_nil _ _) _
  | bool b => cases b <;> exact List.cons_ne_nil _ _
  | map items =>
    rw [CborItem.encode]
    exact List.append_ne_nil_of_left_ne_nil (encodeHeader_ne_nil _ _) _

theorem encodePairs_eq (items : List (CborItem × CborItem)) :
    encodePairs items = items.flatMap fun entry => entry.1.encode ++ entry.2.encode := by
  induction items with
  | nil => rfl
  | cons entry items ih =>
    rw [encodePairs, List.flatMap_cons, ih, List.append_assoc]

/-- Every entry of a map takes two bytes at least. -/
theorem two_mul_le_encodePairs (items : List (CborItem × CborItem)) :
    2 * items.length ≤ (encodePairs items).length := by
  induction items with
  | nil => exact Nat.zero_le _
  | cons entry items ih =>
    obtain ⟨key, val⟩ := entry
    have hkey := List.length_pos_of_ne_nil key.encode_ne_nil
    have hval := List.length_pos_of_ne_nil val.encode_ne_nil
    rw [encodePairs, List.length_append, List.length_append, List.length_cons]
    omega

theorem readString_encode {total major : Nat} {s rest : Bytes} (hm : major < 8)
    (hs : s.length < 2 ^ 64) (htotal : (s ++ rest).length ≤ total) (hbound : total < 2 ^ 64) :
    ∃ b tail, encodeHeader major s.length = b :: tail ∧ b.toNat / 32 = major ∧
      readString total (b.toNat % 32) (tail ++ (s ++ rest)) = .ok (s, rest) := by
  obtain ⟨b, tail, hhead, hmajor, hread⟩ := readUint_encodeHeader hm hs
  refine ⟨b, tail, hhead, hmajor, ?_⟩
  rw [List.length_append] at htotal
  have hover : ¬ total - (s ++ rest).length + s.length ≥ 2 ^ 64 := by
    rw [List.length_append]
    omega
  have hshort : ¬ (s ++ rest).length < s.length := by
    rw [List.length_append]
    omega
  simp only [readString, hread, bind, Except.bind, if_neg hover, if_neg hshort, pure, Except.pure,
    List.take_left, List.drop_left]

theorem readPairs_encode {reader : Bytes → Except CborError (CborItem × Bytes)}
    {items : List (CborItem × CborItem)} {rest : Bytes} {total : Nat}
    (hlen : (encodePairs items ++ rest).length ≤ total)
    (hreader : ∀ entry ∈ items, ∀ item, item = entry.1 ∨ item = entry.2 → ∀ rest',
      (item.encode ++ rest').length ≤ total → reader (item.encode ++ rest') = .ok (item, rest')) :
    readPairs reader items.length (encodePairs items ++ rest) = .ok (items, rest) := by
  induction items with
  | nil => rfl
  | cons entry items ih =>
    obtain ⟨key, val⟩ := entry
    have hsplit : encodePairs ((key, val) :: items) ++ rest =
        key.encode ++ (val.encode ++ (encodePairs items ++ rest)) := by
      rw [encodePairs, List.append_assoc, List.append_assoc]
    rw [hsplit] at hlen ⊢
    have hlen₁ : (val.encode ++ (encodePairs items ++ rest)).length ≤ total := by
      rw [List.length_append] at hlen
      omega
    have hlen₂ : (encodePairs items ++ rest).length ≤ total := by
      rw [List.length_append] at hlen₁
      omega
    have hkey := hreader _ List.mem_cons_self key (.inl rfl) _ hlen
    have hval := hreader _ List.mem_cons_self val (.inr rfl) _ hlen₁
    have hrest := ih hlen₂ fun entry he => hreader entry (List.mem_cons_of_mem _ he)
    simp only [List.length_cons, readPairs, hkey, hval, hrest, bind, Except.bind, pure, Except.pure]

/-- **An item is read back**, whatever follows it. -/
theorem readItem_encode {total levels : Nat} {item : CborItem} (hfits : item.Fits levels)
    (rest : Bytes) (htotal : (item.encode ++ rest).length ≤ total) (hbound : total < 2 ^ 64) :
    readItem total levels (item.encode ++ rest) = .ok (item, rest) := by
  induction levels generalizing item rest with
  | zero => exact hfits.elim
  | succ levels ih =>
    cases item with
    | uint v =>
      obtain ⟨b, tail, hhead, hmajor, hread⟩ := readUint_encodeHeader (by decide : 0 < 8) hfits
      rw [CborItem.encode, hhead, List.cons_append, readItem]
      simp only [hmajor, hread, if_true, bind, Except.bind, pure, Except.pure]
    | nint v =>
      have hv : v < 2 ^ 63 := hfits
      obtain ⟨b, tail, hhead, hmajor, hread⟩ :=
        readUint_encodeHeader (by decide : 1 < 8) (by omega : v < 2 ^ 64)
      have hnot : ¬ v > 2 ^ 63 - 1 := by omega
      rw [CborItem.encode, hhead, List.cons_append, readItem]
      simp only [hmajor, hread, hnot, if_true, if_false, bind, Except.bind, pure, Except.pure,
        Nat.one_ne_zero]
    | bytes s =>
      rw [CborItem.encode, encodeByteString, List.append_assoc] at htotal ⊢
      have hlen : (s ++ rest).length ≤ total := by
        rw [List.length_append] at htotal
        omega
      obtain ⟨b, tail, hhead, hmajor, hread⟩ :=
        readString_encode (by decide : 2 < 8) hfits hlen hbound
      rw [hhead, List.cons_append, readItem]
      simp [hmajor, hread, bind, Except.bind, pure, Except.pure]
    | text s =>
      rw [CborItem.encode, encodeTextString, List.append_assoc] at htotal ⊢
      have hlen : (s.bytes ++ rest).length ≤ total := by
        rw [List.length_append] at htotal
        omega
      obtain ⟨b, tail, hhead, hmajor, hread⟩ :=
        readString_encode (by decide : 3 < 8) hfits hlen hbound
      rw [hhead, List.cons_append, readItem]
      simp [hmajor, hread, s.utf8, bind, Except.bind, pure, Except.pure]
    | bool b => cases b <;> rfl
    | map items =>
      obtain ⟨hmany, hentries⟩ := hfits
      have hmany' : items.length < 2 ^ 64 := by
        simp only [maxMetadataEntries] at hmany
        omega
      obtain ⟨b, tail, hhead, hmajor, hread⟩ := readUint_encodeHeader (by decide : 5 < 8) hmany'
      rw [CborItem.encode, List.append_assoc] at htotal ⊢
      have hlen : (encodePairs items ++ rest).length ≤ total := by
        rw [List.length_append] at htotal
        omega
      have hroom : ¬ items.length > (encodePairs items ++ rest).length / 2 := by
        have := two_mul_le_encodePairs items
        rw [List.length_append]
        omega
      have hpairs : readPairs (readItem total levels) items.length (encodePairs items ++ rest) =
          .ok (items, rest) := by
        refine readPairs_encode hlen fun entry he item hitem rest' hrest' => ?_
        obtain ⟨hk, hv⟩ := hentries entry he
        rcases hitem with rfl | rfl
        · exact ih hk rest' hrest'
        · exact ih hv rest' hrest'
      rw [hhead, List.cons_append, readItem]
      simp [hmajor, hread, hroom, Nat.not_lt.mpr hmany, hpairs, -List.length_append, bind,
        Except.bind, pure, Except.pure]

theorem encode_of_readString {total additional : Nat} {input s rest : Bytes}
    (h : readString total additional input = .ok (s, rest)) (major : Nat) :
    s.length < 2 ^ 64 ∧
      initialByte major additional :: input = encodeHeader major s.length ++ (s ++ rest) := by
  obtain ⟨⟨len, rest'⟩, hread, h⟩ := except_bind_eq_ok h
  dsimp only at h
  split at h
  · cases h
  split at h
  · cases h
  rename_i hshort
  obtain ⟨rfl, rfl⟩ := Prod.mk.inj (Except.ok.inj h)
  have hlen : (rest'.take len).length = len := by
    rw [List.length_take]
    omega
  rw [hlen, List.take_append_drop]
  exact encodeHeader_of_readUint hread major

theorem encode_of_readPairs {reader : Bytes → Except CborError (CborItem × Bytes)}
    {P : CborItem → Prop} {n : Nat} {input rest : Bytes} {items : List (CborItem × CborItem)}
    (hreader : ∀ input item rest, reader input = .ok (item, rest) →
      P item ∧ input = item.encode ++ rest)
    (h : readPairs reader n input = .ok (items, rest)) :
    items.length = n ∧ (∀ entry ∈ items, P entry.1 ∧ P entry.2) ∧
      input = encodePairs items ++ rest := by
  induction n generalizing input items with
  | zero =>
    obtain ⟨rfl, rfl⟩ := Prod.mk.inj (Except.ok.inj h)
    exact ⟨rfl, nofun, rfl⟩
  | succ n ih =>
    obtain ⟨⟨key, rest₁⟩, hkey, h⟩ := except_bind_eq_ok h
    obtain ⟨⟨val, rest₂⟩, hval, h⟩ := except_bind_eq_ok h
    obtain ⟨⟨items', rest₃⟩, hitems, h⟩ := except_bind_eq_ok h
    obtain ⟨rfl, rfl⟩ := Prod.mk.inj (Except.ok.inj h)
    obtain ⟨hk, rfl⟩ := hreader _ _ _ hkey
    obtain ⟨hv, rfl⟩ := hreader _ _ _ hval
    obtain ⟨rfl, hall, rfl⟩ := ih hitems
    refine ⟨rfl, ?_, by rw [encodePairs, List.append_assoc, List.append_assoc]⟩
    intro entry he
    rcases List.mem_cons.mp he with rfl | he
    · exact ⟨hk, hv⟩
    · exact hall entry he

/-- **What is read as an item stood there encoded.** -/
theorem encode_of_readItem {total levels : Nat} {input rest : Bytes} {item : CborItem}
    (h : readItem total levels input = .ok (item, rest)) :
    item.Fits levels ∧ input = item.encode ++ rest := by
  induction levels generalizing input rest item with
  | zero => cases h
  | succ levels ih =>
    cases input with
    | nil => cases h
    | cons initial input =>
      have hinitial := initialByte_of_toNat initial
      rw [readItem] at h
      dsimp only at h
      split at h
      · rename_i hmajor
        obtain ⟨⟨v, rest'⟩, hread, h⟩ := except_bind_eq_ok h
        obtain ⟨rfl, rfl⟩ := Prod.mk.inj (Except.ok.inj h)
        rw [← hinitial, hmajor]
        exact encodeHeader_of_readUint hread 0
      split at h
      · rename_i hmajor
        obtain ⟨⟨v, rest'⟩, hread, h⟩ := except_bind_eq_ok h
        dsimp only at h
        split at h
        · cases h
        rename_i hsmall
        obtain ⟨rfl, rfl⟩ := Prod.mk.inj (Except.ok.inj h)
        rw [← hinitial, hmajor]
        have hv : v < 2 ^ 63 := by omega
        exact ⟨hv, (encodeHeader_of_readUint hread 1).2⟩
      split at h
      · rename_i hmajor
        obtain ⟨⟨s, rest'⟩, hread, h⟩ := except_bind_eq_ok h
        obtain ⟨rfl, rfl⟩ := Prod.mk.inj (Except.ok.inj h)
        obtain ⟨hs, henc⟩ := encode_of_readString hread 2
        rw [← hinitial, hmajor, CborItem.encode, encodeByteString, List.append_assoc]
        exact ⟨hs, henc⟩
      split at h
      · rename_i hmajor
        obtain ⟨⟨s, rest'⟩, hread, h⟩ := except_bind_eq_ok h
        dsimp only at h
        split at h
        · rename_i hutf8
          obtain ⟨rfl, rfl⟩ := Prod.mk.inj (Except.ok.inj h)
          obtain ⟨hs, henc⟩ := encode_of_readString hread 3
          rw [← hinitial, hmajor, CborItem.encode, encodeTextString, List.append_assoc]
          exact ⟨hs, henc⟩
        · cases h
      split at h
      · rename_i hmajor
        obtain ⟨⟨len, rest'⟩, hread, h⟩ := except_bind_eq_ok h
        dsimp only at h
        split at h
        · cases h
        split at h
        · cases h
        rename_i hmany
        obtain ⟨⟨items, rest''⟩, hpairs, h⟩ := except_bind_eq_ok h
        obtain ⟨rfl, rfl⟩ := Prod.mk.inj (Except.ok.inj h)
        obtain ⟨rfl, hall, rfl⟩ := encode_of_readPairs (fun _ _ _ => ih) hpairs
        rw [← hinitial, hmajor, CborItem.encode, List.append_assoc]
        exact ⟨⟨Nat.not_lt.mp hmany, hall⟩, (encodeHeader_of_readUint hread 5).2⟩
      split at h
      · cases h
      split at h
      · rename_i hmajor
        unfold readSimple at h
        split at h
        · rename_i hadditional
          obtain ⟨rfl, rfl⟩ := Prod.mk.inj (Except.ok.inj h)
          rw [← hinitial, hmajor, hadditional]
          exact ⟨trivial, rfl⟩
        split at h
        · rename_i hadditional
          obtain ⟨rfl, rfl⟩ := Prod.mk.inj (Except.ok.inj h)
          rw [← hinitial, hmajor, hadditional]
          exact ⟨trivial, rfl⟩
        -- every other simple value is refused
        split at h
        · cases h
        split at h
        · cases h
        split at h
        · split at h <;> cases h
        split at h <;> cases h
      · cases h

end SteadQ
