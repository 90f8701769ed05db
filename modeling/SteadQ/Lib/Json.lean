/-
  File:      SteadQ/Lib/Json.lean
  Subject:   COMPACT JSON TEXTS: how long they are, and that a text says which value it is of.

  Objects are lists of fields in the order they are written; numbers are natural.
-/
import Mathlib.Algebra.GroupWithZero.Nat
import Mathlib.Algebra.Order.BigOperators.Group.List
import Mathlib.Algebra.Order.Group.Nat
import SteadQ.Lib.Bytes

namespace Octet

/-! ## 1. Values and texts -/

inductive Json where
  | null
  | num (n : Nat)
  | str (s : Bytes)
  | arr (items : List Json)
  | obj (fields : List (Bytes × Json))

def decimal (n : Nat) : Bytes := (Nat.toDigits 10 n).map fun c => UInt8.ofNat c.toNat

/-- One byte of a string: quotes, backslashes and control characters are escaped. -/
def escape (b : UInt8) : Bytes :=
  if b = 34 then [92, 34]
  else if b = 92 then [92, 92]
  else if b = 8 then [92, 98]
  else if b = 9 then [92, 116]
  else if b = 10 then [92, 110]
  else if b = 12 then [92, 102]
  else if b = 13 then [92, 114]
  else if b < 32 then [92, 117, 48, 48, hexDigit (b >>> 4), hexDigit (b &&& 15)]
  else [b]

def quoted (s : Bytes) : Bytes := 34 :: (s.flatMap escape ++ [34])

mutual

def Json.text : Json → Bytes
  | .null => ascii "null"
  | .num n => decimal n
  | .str s => quoted s
  | .arr [] => [91, 93]
  | .arr (j :: items) => 91 :: (j.text ++ itemsText items)
  | .obj [] => [123, 125]
  | .obj ((key, j) :: fields) => 123 :: (quoted key ++ 58 :: (j.text ++ fieldsText fields))

/-- The items behind the first, and the end of the array. -/
def itemsText : List Json → Bytes
  | [] => [93]
  | j :: items => 44 :: (j.text ++ itemsText items)

/-- The fields behind the first, and the end of the object. -/
def fieldsText : List (Bytes × Json) → Bytes
  | [] => [125]
  | (key, j) :: fields => 44 :: (quoted key ++ 58 :: (j.text ++ fieldsText fields))

end

/-! ## 2. Numbers -/

def isDigitByte (b : UInt8) : Bool := 48 ≤ b ∧ b ≤ 57

/-- What follows a number is no digit. -/
def Ends (s : Bytes) : Prop := ∀ b ∈ s.head?, isDigitByte b = false

theorem toNat_of_isDigit {c : Char} (h : c.isDigit = true) : 48 ≤ c.toNat ∧ c.toNat ≤ 57 := by
  simp only [Char.isDigit, Bool.and_eq_true, decide_eq_true_eq] at h
  exact h

theorem digit_of_mem_decimal {n : Nat} {b : UInt8} (h : b ∈ decimal n) : isDigitByte b = true := by
  obtain ⟨c, hc, rfl⟩ := List.mem_map.mp h
  have hdigit := toNat_of_isDigit (Nat.isDigit_of_mem_toDigits (by decide) (by decide) hc)
  simp only [isDigitByte, UInt8.le_iff_toNat_le, UInt8.toNat_ofNat', decide_eq_true_eq]
  rw [Nat.mod_eq_of_lt (by omega)]
  exact hdigit

theorem decimal_injective {n m : Nat} (h : decimal n = decimal m) : n = m := by
  -- the characters of the digits are read off the bytes
  have hchars : ∀ k, (decimal k).map (fun b => Char.ofNat b.toNat) = Nat.toDigits 10 k := by
    intro k
    rw [decimal, List.map_map]
    refine (List.map_congr_left fun c hc => ?_).trans (List.map_id _)
    have hdigit := toNat_of_isDigit (Nat.isDigit_of_mem_toDigits (by decide) (by decide) hc)
    show Char.ofNat (UInt8.ofNat c.toNat).toNat = c
    rw [UInt8.toNat_ofNat', Nat.mod_eq_of_lt (by omega), Char.ofNat_toNat]
  have hdigits : Nat.toDigits 10 n = Nat.toDigits 10 m := by rw [← hchars, h, hchars]
  rw [← Nat.ofDigitChars_toDigits (b := 10) (n := n) (by decide) (by decide), hdigits,
    Nat.ofDigitChars_toDigits (by decide) (by decide)]

theorem takeWhile_decimal {n : Nat} {s : Bytes} (hs : Ends s) :
    (decimal n ++ s).takeWhile isDigitByte = decimal n := by
  rw [List.takeWhile_append_of_pos fun b hb => digit_of_mem_decimal hb]
  cases s with
  | nil => simp
  | cons b s => rw [List.takeWhile_cons_of_neg (by simp [hs b rfl]), List.append_nil]

theorem decimal_cancel {n m : Nat} {s t : Bytes} (hs : Ends s) (ht : Ends t)
    (h : decimal n ++ s = decimal m ++ t) : n = m ∧ s = t := by
  have heq : decimal n = decimal m := by
    rw [← takeWhile_decimal hs, h, takeWhile_decimal ht]
  exact ⟨decimal_injective heq, List.append_cancel_left (heq ▸ h)⟩

theorem decimal_length {n k : Nat} (hk : 0 < k) (h : n < 10 ^ k) : (decimal n).length ≤ k := by
  rw [decimal, List.length_map]
  exact (Nat.length_toDigits_le_iff (by decide) hk).mpr h

/-! ## 3. Strings -/

/-- The byte behind a backslash. -/
def unescapeRest : Bytes → Option (UInt8 × Bytes)
  | 117 :: 48 :: 48 :: hi :: lo :: rest => (fromHexPairLower hi lo).map fun b => (b, rest)
  | 98 :: rest => some (8, rest)
  | 116 :: rest => some (9, rest)
  | 110 :: rest => some (10, rest)
  | 102 :: rest => some (12, rest)
  | 114 :: rest => some (13, rest)
  | b :: rest => some (b, rest)
  | [] => none

/-- Read one byte of a string back; `none` at its end. -/
def unescape : Bytes → Option (UInt8 × Bytes)
  | [] => none
  | b :: rest =>
    if b = 92 then unescapeRest rest else if b = 34 then none else some (b, rest)

theorem unescape_escape (b : UInt8) (rest : Bytes) :
    unescape (escape b ++ rest) = some (b, rest) := by
  unfold escape
  repeat' split
  all_goals try (subst b; rfl)
  · show (fromHexPairLower _ _).map _ = _
    rw [fromHexPairLower_hexDigit]
    rfl
  · rename_i hquote hslash _ _ _ _ _ _
    show (if b = 92 then _ else if b = 34 then _ else _) = _
    rw [if_neg hslash, if_neg hquote]
    rfl

theorem flatMap_escape_cancel {s s' u v : Bytes}
    (h : s.flatMap escape ++ 34 :: u = s'.flatMap escape ++ 34 :: v) : s = s' ∧ u = v := by
  induction s generalizing s' with
  | nil =>
    cases s' with
    | nil => exact ⟨rfl, (List.cons.inj h).2⟩
    | cons b s' =>
      have hread := congrArg unescape h
      rw [List.flatMap_cons, List.append_assoc, unescape_escape] at hread
      cases hread
  | cons a s ih =>
    have hread := congrArg unescape h
    rw [List.flatMap_cons, List.append_assoc, unescape_escape] at hread
    cases s' with
    | nil => cases hread
    | cons b s' =>
      rw [List.flatMap_cons, List.append_assoc, unescape_escape] at hread
      obtain ⟨hab, hrest⟩ := Prod.mk.inj (Option.some.inj hread)
      obtain ⟨hs, huv⟩ := ih hrest
      exact ⟨by rw [hab, hs], huv⟩

theorem quoted_cancel {s s' u v : Bytes} (h : quoted s ++ u = quoted s' ++ v) :
    s = s' ∧ u = v := by
  refine flatMap_escape_cancel ?_
  simpa [quoted] using h

/-! ## 4. A text determines its value -/

theorem ends_of_head {b : UInt8} {s : Bytes} (hb : isDigitByte b = false) : Ends (b :: s) := by
  rintro _ ⟨⟩
  exact hb

theorem ends_itemsText (items : List Json) (s : Bytes) : Ends (itemsText items ++ s) := by
  cases items <;> exact ends_of_head (by decide)

theorem ends_fieldsText (fields : List (Bytes × Json)) (s : Bytes) :
    Ends (fieldsText fields ++ s) := by
  cases fields <;> exact ends_of_head (by decide)

/-- The kinds of values differ in the first byte of their texts. -/
def Json.kind : Json → Nat
  | .null => 0
  | .num _ => 1
  | .str _ => 2
  | .arr _ => 3
  | .obj _ => 4

def kindOfByte (b : UInt8) : Nat :=
  if b = 110 then 0 else if b = 34 then 2 else if b = 91 then 3 else if b = 123 then 4
  else if b = 93 then 5 else 1

theorem kindOfByte_digit {b : UInt8} (h : isDigitByte b = true) : kindOfByte b = 1 := by
  obtain ⟨hlo, hhi⟩ := of_decide_eq_true h
  have habove {k : UInt8} (hk : ¬ k ≤ 57) : b ≠ k := fun hb => hk (hb ▸ hhi)
  have hbelow : b ≠ 34 := fun hb => absurd (hb ▸ hlo) (by decide)
  rw [kindOfByte, if_neg (habove (by decide)), if_neg hbelow, if_neg (habove (by decide)),
    if_neg (habove (by decide)), if_neg (habove (by decide))]

theorem head_text (j : Json) (s : Bytes) : (j.text ++ s).head?.map kindOfByte = some j.kind := by
  cases j with
  | null => rfl
  | num n =>
    have hdigits : ∀ b ∈ decimal n, kindOfByte b = 1 :=
      fun b hb => kindOfByte_digit (digit_of_mem_decimal hb)
    have hne : decimal n ≠ [] := by simp [decimal]
    rw [Json.text]
    cases hd : decimal n with
    | nil => exact absurd hd hne
    | cons b d => exact congrArg some (hdigits b (hd ▸ List.mem_cons_self))
  | str s => rfl
  | arr items => cases items <;> rfl
  | obj fields => rcases fields with _ | ⟨⟨key, j⟩, fields⟩ <;> rfl

/-- What stands before a comma or the end of an array is not the end of an array. -/
theorem text_ne_close (j : Json) (s t : Bytes) : j.text ++ s ≠ 93 :: t := by
  intro h
  have hkind := head_text j s
  rw [h] at hkind
  cases j <;> simp [kindOfByte, Json.kind] at hkind

mutual

theorem Json.text_cancel (j j' : Json) {s t : Bytes} (hs : Ends s) (ht : Ends t)
    (h : j.text ++ s = j'.text ++ t) : j = j' ∧ s = t := by
  have hkind : some j.kind = some j'.kind := by rw [← head_text j s, h, head_text]
  match j, j' with
  | .null, .null => exact ⟨rfl, List.append_cancel_left h⟩
  | .num n, .num m =>
    obtain ⟨rfl, hst⟩ := decimal_cancel hs ht (by simpa [Json.text] using h)
    exact ⟨rfl, hst⟩
  | .str a, .str b =>
    obtain ⟨rfl, hst⟩ := quoted_cancel (by simpa [Json.text] using h)
    exact ⟨rfl, hst⟩
  | .arr [], .arr [] => exact ⟨rfl, by simpa [Json.text] using h⟩
  | .arr [], .arr (j' :: items') =>
    refine absurd ?_ (text_ne_close j' (itemsText items' ++ t) s)
    simpa [Json.text] using h.symm
  | .arr (j :: items), .arr [] =>
    refine absurd ?_ (text_ne_close j (itemsText items ++ s) t)
    simpa [Json.text] using h
  | .arr (j :: items), .arr (j' :: items') =>
    have h' : j.text ++ (itemsText items ++ s) = j'.text ++ (itemsText items' ++ t) := by
      simpa [Json.text] using h
    obtain ⟨rfl, hrest⟩ := Json.text_cancel j j' (ends_itemsText _ _) (ends_itemsText _ _) h'
    obtain ⟨rfl, hst⟩ := itemsText_cancel items items' hrest
    exact ⟨rfl, hst⟩
  | .obj [], .obj [] => exact ⟨rfl, by simpa [Json.text] using h⟩
  | .obj [], .obj ((key', j') :: fields') => simp [Json.text, quoted] at h
  | .obj ((key, j) :: fields), .obj [] => simp [Json.text, quoted] at h
  | .obj ((key, j) :: fields), .obj ((key', j') :: fields') =>
    have h' : quoted key ++ 58 :: (j.text ++ (fieldsText fields ++ s)) =
        quoted key' ++ 58 :: (j'.text ++ (fieldsText fields' ++ t)) := by
      simpa [Json.text] using h
    obtain ⟨rfl, hvalue⟩ := quoted_cancel h'
    obtain ⟨rfl, hrest⟩ := Json.text_cancel j j' (ends_fieldsText _ _) (ends_fieldsText _ _)
      (List.cons.inj hvalue).2
    obtain ⟨rfl, hst⟩ := fieldsText_cancel fields fields' hrest
    exact ⟨rfl, hst⟩
  | .null, .num _ | .null, .str _ | .null, .arr _ | .null, .obj _
  | .num _, .null | .num _, .str _ | .num _, .arr _ | .num _, .obj _
  | .str _, .null | .str _, .num _ | .str _, .arr _ | .str _, .obj _
  | .arr _, .null | .arr _, .num _ | .arr _, .str _ | .arr _, .obj _
  | .obj _, .null | .obj _, .num _ | .obj _, .str _ | .obj _, .arr _ => simp [Json.kind] at hkind

theorem itemsText_cancel (items items' : List Json) {s t : Bytes}
    (h : itemsText items ++ s = itemsText items' ++ t) : items = items' ∧ s = t := by
  match items, items' with
  | [], [] => exact ⟨rfl, by simpa [itemsText] using h⟩
  | [], j' :: items' => simp [itemsText] at h
  | j :: items, [] => simp [itemsText] at h
  | j :: items, j' :: items' =>
    have h' : j.text ++ (itemsText items ++ s) = j'.text ++ (itemsText items' ++ t) := by
      simpa [itemsText] using h
    obtain ⟨rfl, hrest⟩ := Json.text_cancel j j' (ends_itemsText _ _) (ends_itemsText _ _) h'
    obtain ⟨rfl, hst⟩ := itemsText_cancel items items' hrest
    exact ⟨rfl, hst⟩

theorem fieldsText_cancel (fields fields' : List (Bytes × Json)) {s t : Bytes}
    (h : fieldsText fields ++ s = fieldsText fields' ++ t) : fields = fields' ∧ s = t := by
  match fields, fields' with
  | [], [] => exact ⟨rfl, by simpa [fieldsText] using h⟩
  | [], (key', j') :: fields' => simp [fieldsText] at h
  | (key, j) :: fields, [] => simp [fieldsText] at h
  | (key, j) :: fields, (key', j') :: fields' =>
    have h' : quoted key ++ 58 :: (j.text ++ (fieldsText fields ++ s)) =
        quoted key' ++ 58 :: (j'.text ++ (fieldsText fields' ++ t)) := by
      simpa [fieldsText] using h
    obtain ⟨rfl, hvalue⟩ := quoted_cancel h'
    obtain ⟨rfl, hrest⟩ := Json.text_cancel j j' (ends_fieldsText _ _) (ends_fieldsText _ _)
      (List.cons.inj hvalue).2
    obtain ⟨rfl, hst⟩ := fieldsText_cancel fields fields' hrest
    exact ⟨rfl, hst⟩

end

theorem Json.text_injective {j j' : Json} (h : j.text = j'.text) : j = j' :=
  (Json.text_cancel j j' (s := []) (t := []) nofun nofun (by rw [h])).1

/-! ## 5. Lengths -/

theorem text_num_length {n k : Nat} (hk : 0 < k) (h : n < 10 ^ k) :
    (Json.num n).text.length ≤ k := by
  rw [Json.text]
  exact decimal_length hk h

/-- A string of bytes that stand for themselves. -/
theorem quoted_length {s : Bytes} (h : ∀ b ∈ s, escape b = [b]) :
    (quoted s).length = s.length + 2 := by
  have hsame : s.flatMap escape = s := by
    induction s with
    | nil => rfl
    | cons b s ih =>
      rw [List.flatMap_cons, h b List.mem_cons_self,
        ih fun b hb => h b (List.mem_cons_of_mem _ hb)]
      rfl
  simp [quoted, hsame]

/-- Hex digits stand for themselves. -/
theorem escape_of_mem_hexEncode {b : Bytes} {x : UInt8} (h : x ∈ hexEncode b) : escape x = [x] := by
  have key : ∀ d : Fin 16, escape (hexDigit (UInt8.ofNat d)) = [hexDigit (UInt8.ofNat d)] := by
    decide
  obtain ⟨d, rfl⟩ := mem_hexEncode h
  exact key d

theorem itemsText_length (items : List Json) :
    (itemsText items).length = (items.map fun j => j.text.length + 1).sum + 1 := by
  induction items with
  | nil => rfl
  | cons j items ih =>
    simp only [itemsText, List.length_cons, List.length_append, List.map_cons, List.sum_cons, ih]
    omega

/-- Every item takes its text and a comma. -/
theorem text_arr_length (items : List Json) :
    (Json.arr items).text.length ≤ (items.map fun j => j.text.length + 1).sum + 2 := by
  cases items with
  | nil => simp [Json.text]
  | cons j items =>
    simp only [Json.text, List.length_cons, List.length_append, List.map_cons, List.sum_cons,
      itemsText_length]
    omega

/-- At most `n` items of at most `m` bytes each. -/
theorem text_arr_le {items : List Json} {n m : Nat} (hn : items.length ≤ n)
    (hm : ∀ j ∈ items, j.text.length ≤ m) : (Json.arr items).text.length ≤ n * (m + 1) + 2 := by
  have hsum : (items.map fun j => j.text.length + 1).sum ≤ items.length * (m + 1) := by
    have h := List.sum_le_card_nsmul (items.map fun j => j.text.length + 1) (m + 1) (by
      simpa using hm)
    simpa using h
  have hmul : items.length * (m + 1) ≤ n * (m + 1) := Nat.mul_le_mul_right _ hn
  exact (text_arr_length items).trans (by omega)

theorem fieldsText_length (fields : List (Bytes × Json)) :
    (fieldsText fields).length =
      (fields.map fun f => (quoted f.1).length + f.2.text.length + 2).sum + 1 := by
  induction fields with
  | nil => rfl
  | cons f fields ih =>
    obtain ⟨key, j⟩ := f
    simp only [fieldsText, List.length_cons, List.length_append, List.map_cons, List.sum_cons, ih]
    omega

/-- Every field takes its key, a colon, its value and a comma. -/
theorem text_obj_length (fields : List (Bytes × Json)) :
    (Json.obj fields).text.length ≤
      (fields.map fun f => (quoted f.1).length + f.2.text.length + 2).sum + 2 := by
  cases fields with
  | nil => simp [Json.text]
  | cons f fields =>
    obtain ⟨key, j⟩ := f
    simp only [Json.text, List.length_cons, List.length_append, List.map_cons, List.sum_cons,
      fieldsText_length]
    omega

end Octet
