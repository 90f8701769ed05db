/-
  File:      SteadQ/Metadata.lean
  Subject:   METADATA, BOTH WAYS.

  The encoder sorts the entries by their encoded keys, and the decoder accepts no other order. A
  signed number that is not negative is encoded as the unsigned one it comes back as.
-/
import SteadQ.Items

namespace SteadQ

open Octet

/-! ## 1. Values of metadata -/

namespace MetadataValue

def item : MetadataValue → CborItem
  | .bool b => .bool b
  | .u64 n => .uint n.toNat
  | .i64 n => if 0 ≤ n.toInt then .uint n.toInt.toNat else .nint (-1 - n.toInt).toNat
  | .text s => .text s
  | .bytes b => .bytes b

/-- A non-negative signed number comes back as an unsigned one. -/
def unsigned : MetadataValue → MetadataValue
  | .i64 n => if 0 ≤ n.toInt then .u64 (UInt64.ofNat n.toInt.toNat) else .i64 n
  | v => v

theorem encode_item (v : MetadataValue) : v.item.encode = v.encode := by
  cases v with
  | bool b => cases b <;> rfl
  | u64 n => rfl
  | i64 n =>
    simp only [item, encode]
    split <;> rfl
  | text s => rfl
  | bytes b => rfl

theorem item_fits {v : MetadataValue} (hv : v.validate = .ok ()) (levels : Nat) :
    v.item.Fits (levels + 1) := by
  cases v with
  | bool b => trivial
  | u64 n => exact n.toNat_lt
  | i64 n =>
    have hlow := n.le_toInt
    have hhigh := n.toInt_lt
    simp only [item]
    split
    · show n.toInt.toNat < 2 ^ 64
      omega
    · show (-1 - n.toInt).toNat < 2 ^ 63
      omega
  | text s =>
    simp only [validate] at hv
    split at hv
    · cases hv
    · rename_i hlen
      show s.bytes.length < 2 ^ 64
      simp only [maxTextValue] at hlen
      omega
  | bytes b =>
    simp only [validate] at hv
    split at hv
    · cases hv
    · rename_i hlen
      show b.length < 2 ^ 64
      simp only [maxBytesValue] at hlen
      omega

/-- The largest negated number fits, so that the subtraction does not wrap around. -/
theorem toInt_negated {v : Nat} (hv : ¬ v > 2 ^ 63 - 1) : (Int64.ofInt (-1 - v)).toInt = -1 - v :=
  Int64.toInt_ofInt_of_le (by omega) (by omega)

theorem metadataValue_item {v : MetadataValue} (hv : v.validate = .ok ()) :
    metadataValue v.item = .ok v.unsigned := by
  cases v with
  | bool b => rfl
  | u64 n =>
    simp only [item, metadataValue, unsigned]
    rw [UInt64.ofNat_toNat]
  | i64 n =>
    have hlow := n.le_toInt
    simp only [item, unsigned]
    split
    · rfl
    · rename_i hneg
      have hsmall : ¬ (-1 - n.toInt).toNat > 2 ^ 63 - 1 := by omega
      have hback : -1 - (((-1 - n.toInt).toNat : Nat) : Int) = n.toInt := by omega
      simp only [metadataValue, if_neg hsmall, hback, Int64.ofInt_toInt]
  | text s =>
    simp only [validate] at hv
    split at hv
    · cases hv
    · rename_i hlen
      simp only [item, metadataValue, if_neg hlen, unsigned]
  | bytes b =>
    simp only [validate] at hv
    split at hv
    · cases hv
    · rename_i hlen
      simp only [item, metadataValue, if_neg hlen, unsigned]

theorem item_of_metadataValue {i : CborItem} {v : MetadataValue} {levels : Nat}
    (hfits : i.Fits levels) (h : metadataValue i = .ok v) :
    v.item = i ∧ v.validate = .ok () ∧ v.unsigned = v := by
  cases levels with
  | zero => exact hfits.elim
  | succ levels =>
    cases i with
    | uint n =>
      cases h
      refine ⟨?_, rfl, rfl⟩
      show CborItem.uint (UInt64.ofNat n).toNat = .uint n
      rw [UInt64.toNat_ofNat', Nat.mod_eq_of_lt hfits]
    | nint n =>
      simp only [metadataValue] at h
      split at h
      · cases h
      · rename_i hsmall
        cases h
        have hint := toInt_negated hsmall
        have hneg : ¬ (0 : Int) ≤ -1 - n := by omega
        refine ⟨?_, rfl, ?_⟩
        · simp only [item, hint, if_neg hneg]
          congr 1
          omega
        · simp only [unsigned, hint, if_neg hneg]
    | bytes b =>
      simp only [metadataValue] at h
      split at h
      · cases h
      · rename_i hlen
        cases h
        exact ⟨rfl, if_neg hlen, rfl⟩
    | text s =>
      simp only [metadataValue] at h
      split at h
      · cases h
      · rename_i hlen
        cases h
        exact ⟨rfl, if_neg hlen, rfl⟩
    | bool b =>
      cases h
      exact ⟨rfl, rfl, rfl⟩
    | map items => cases h

end MetadataValue

/-! ## 2. Metadata -/

theorem encodeTextString_inj {a b : Bytes} (ha : a.length < 2 ^ 63) (hb : b.length < 2 ^ 63)
    (h : encodeTextString a = encodeTextString b) : a = b := by
  have hlen : (a ++ []).length ≤ a.length + b.length := by simp
  have hlen' : (b ++ []).length ≤ a.length + b.length := by simp
  obtain ⟨x, tail, hhead, -, hread⟩ :=
    readString_encode (by decide : 3 < 8) (by omega : a.length < 2 ^ 64) hlen (by omega)
  obtain ⟨x', tail', hhead', -, hread'⟩ :=
    readString_encode (by decide : 3 < 8) (by omega : b.length < 2 ^ 64) hlen' (by omega)
  rw [encodeTextString, encodeTextString, hhead, hhead', List.cons_append, List.cons_append,
    List.cons.injEq] at h
  obtain ⟨rfl, htail⟩ := h
  rw [List.append_nil] at hread hread'
  rw [htail, hread'] at hread
  exact (Prod.mk.inj (Except.ok.inj hread)).1.symm

theorem validateMetadataKey_length {key : Bytes} (h : validateMetadataKey key = .ok ()) :
    key.length ≤ 64 := by
  unfold validateMetadataKey at h
  split at h
  · cases h
  · split at h
    · cases h
    · rename_i hlen
      exact Nat.not_lt.mp hlen

namespace Metadata

/-- What the encoder checks of the entries. -/
structure Valid (m : Metadata) : Prop where
  few : m.entries.length ≤ maxMetadataEntries
  entries : ∀ e ∈ m.entries, validateMetadataKey e.1.bytes = .ok () ∧ e.2.validate = .ok ()

def unsigned (m : Metadata) : Metadata := m.mapValues MetadataValue.unsigned

def itemEntry (e : Str × MetadataValue) : CborItem × CborItem := (.text e.1, e.2.item)

def items (m : Metadata) : List (CborItem × CborItem) := m.encodedOrder.map itemEntry

/-- The bytes that order an entry. -/
def encodedKey (e : Str × MetadataValue) : Bytes := encodeTextString e.1.bytes

theorem mem_encodedOrder {m : Metadata} {e : Str × MetadataValue} :
    e ∈ m.encodedOrder ↔ e ∈ m.entries := (List.perm_insertionSort _ m.entries).mem_iff

theorem encodedOrder_length (m : Metadata) : m.encodedOrder.length = m.entries.length :=
  (List.perm_insertionSort _ m.entries).length_eq

/-- Two entries with one encoded key are one entry. -/
theorem eq_of_encodedKey {m : Metadata} (hm : m.Valid) {a b : Str × MetadataValue}
    (ha : a ∈ m.entries) (hb : b ∈ m.entries) (h : encodedKey a = encodedKey b) : a = b := by
  have hla := validateMetadataKey_length (hm.entries a ha).1
  have hlb := validateMetadataKey_length (hm.entries b hb).1
  have hkey : a.1 = b.1 := Str.ext (encodeTextString_inj (by omega) (by omega) h)
  exact m.ascending.eq_of_key ha hb hkey

theorem encodedOrder_ascending {m : Metadata} (hm : m.Valid) :
    Ascending encodedKey m.encodedOrder :=
  ascending_insertionSort m.ascending.nodup fun _ ha _ hb => eq_of_encodedKey hm ha hb

theorem metadataKeys_ok {seen : List Str} {l : List (Str × CborItem)}
    (hvalid : ∀ e ∈ l, validateMetadataKey e.1.bytes = .ok ()) (hnodup : (l.map Prod.fst).Nodup)
    (hnew : ∀ e ∈ l, e.1 ∉ seen) :
    metadataKeys seen (l.map fun e => (.text e.1, e.2)) = .ok l := by
  induction l generalizing seen with
  | nil => rfl
  | cons e l ih =>
    obtain ⟨he, hl⟩ := List.nodup_cons.mp hnodup
    have hrest : metadataKeys (e.1 :: seen) (l.map fun e => (.text e.1, e.2)) = .ok l := by
      refine ih (fun x hx => hvalid x (List.mem_cons_of_mem e hx)) hl fun x hx hmem => ?_
      rcases List.mem_cons.mp hmem with heq | hmem
      · exact he (List.mem_map.mpr ⟨x, hx, heq⟩)
      · exact hnew x (List.mem_cons_of_mem e hx) hmem
    simp only [List.map_cons, metadataKeys, hvalid e List.mem_cons_self,
      if_neg (hnew e List.mem_cons_self), hrest, bind, Except.bind, pure, Except.pure]

theorem metadataKeys_eq_ok {seen : List Str} {l : List (CborItem × CborItem)}
    {entries : List (Str × CborItem)} (h : metadataKeys seen l = .ok entries) :
    l = entries.map (fun e => (.text e.1, e.2)) ∧
      ∀ e ∈ entries, validateMetadataKey e.1.bytes = .ok () := by
  induction l generalizing seen entries with
  | nil =>
    cases h
    exact ⟨rfl, nofun⟩
  | cons e l ih =>
    obtain ⟨key, val⟩ := e
    cases key with
    | text mk =>
      obtain ⟨_, hkey, h⟩ := except_bind_eq_ok h
      split at h
      · cases h
      obtain ⟨rest, hrest, h⟩ := except_bind_eq_ok h
      cases h
      obtain ⟨rfl, hall⟩ := ih hrest
      exact ⟨rfl, List.forall_mem_cons.mpr ⟨hkey, hall⟩⟩
    | uint v => cases h
    | nint v => cases h
    | bytes b => cases h
    | bool b => cases h
    | map items => cases h

theorem metadataOrder_iff {previous : Option Bytes} {keys : List Str} :
    metadataOrder previous keys = .ok () ↔
      (∀ p ∈ previous, ∀ k ∈ keys.head?, p < encodeTextString k.bytes) ∧
        Ascending (fun k : Str => encodeTextString k.bytes) keys := by
  induction keys generalizing previous with
  | nil => simp [metadataOrder, Ascending]
  | cons k keys ih =>
    have hrest : metadataOrder (some (encodeTextString k.bytes)) keys = .ok () ↔
        Ascending (fun k : Str => encodeTextString k.bytes) (k :: keys) := by
      rw [ih]
      constructor
      · rintro ⟨hhead, hasc⟩
        refine List.pairwise_cons.mpr ⟨fun x hx => ?_, hasc⟩
        cases keys with
        | nil => cases hx
        | cons y keys =>
          have hy := hhead _ rfl y rfl
          rcases List.mem_cons.mp hx with rfl | hx
          · exact hy
          · exact Std.lt_trans hy ((List.pairwise_cons.mp hasc).1 x hx)
      · intro hasc
        obtain ⟨hfirst, hasc⟩ := List.pairwise_cons.mp hasc
        refine ⟨?_, hasc⟩
        rintro _ ⟨⟩ x hx
        exact hfirst x (List.mem_of_mem_head? hx)
    cases previous with
    | none => simpa [metadataOrder] using hrest
    | some p =>
      simp only [metadataOrder]
      split
      · rename_i hle
        refine ⟨nofun, fun h => ?_⟩
        exact absurd (h.1 p rfl k rfl) (List.not_lt.mpr hle)
      · rename_i hnot
        rw [hrest]
        refine ⟨fun h => ⟨?_, h⟩, fun h => h.2⟩
        rintro _ ⟨⟩ _ ⟨⟩
        exact List.not_le.mp hnot

theorem insertMetadata_ok (m : Metadata) {l : List (Str × MetadataValue)}
    (hvalid : ∀ e ∈ l, e.2.validate = .ok ()) :
    insertMetadata m (l.map fun e => (e.1, e.2.item)) =
      .ok (m.insertAll (l.map fun e => (e.1, e.2.unsigned))) := by
  induction l generalizing m with
  | nil => rfl
  | cons e l ih =>
    have hvalue := MetadataValue.metadataValue_item (hvalid e List.mem_cons_self)
    simp only [List.map_cons, insertMetadata, hvalue, bind, Except.bind, OrdMap.insertAll]
    exact ih _ fun x hx => hvalid x (List.mem_cons_of_mem e hx)

theorem insertMetadata_eq_ok {m m' : Metadata} {l : List (Str × CborItem)} {levels : Nat}
    (hfits : ∀ e ∈ l, e.2.Fits levels) (h : insertMetadata m l = .ok m') :
    ∃ vals : List (Str × MetadataValue), l = vals.map (fun e => (e.1, e.2.item)) ∧
      (∀ e ∈ vals, e.2.validate = .ok () ∧ e.2.unsigned = e.2) ∧ m' = m.insertAll vals := by
  induction l generalizing m with
  | nil =>
    cases h
    exact ⟨[], rfl, nofun, rfl⟩
  | cons e l ih =>
    obtain ⟨v, hv, h⟩ := except_bind_eq_ok h
    obtain ⟨hitem, hvalid⟩ :=
      MetadataValue.item_of_metadataValue (hfits e List.mem_cons_self) hv
    obtain ⟨vals, hl, hall, hm'⟩ := ih (fun x hx => hfits x (List.mem_cons_of_mem e hx)) h
    refine ⟨(e.1, v) :: vals, ?_, List.forall_mem_cons.mpr ⟨hvalid, hall⟩, hm'⟩
    rw [List.map_cons, hitem, ← hl]

/-- Entries inserted into the empty map are its entries. -/
theorem mem_insertAll_empty {l : List (Str × MetadataValue)} (hnodup : (l.map Prod.fst).Nodup)
    {e : Str × MetadataValue} :
    e ∈ (OrdMap.insertAll (.empty : Metadata) l).entries ↔ e ∈ l := by
  have hnew : ∀ x ∈ (.empty : Metadata).entries, x.1 ∉ l.map Prod.fst := by
    intro x hx
    exact absurd hx List.not_mem_nil
  rw [OrdMap.mem_insertAll hnodup hnew]
  exact or_iff_left (by simp [OrdMap.empty])

/-- **Metadata reads back**, each value without its sign. -/
theorem decodeMetadata_items {m : Metadata} (hm : m.Valid) :
    decodeMetadata m.items = .ok m.unsigned := by
  have hmem {e : Str × MetadataValue} := mem_encodedOrder (m := m) (e := e)
  have hasc := encodedOrder_ascending hm
  have hlen : ¬ m.items.length > maxMetadataEntries := by
    rw [items, List.length_map, encodedOrder_length]
    exact Nat.not_lt.mpr hm.few
  have hnodup : (m.encodedOrder.map Prod.fst).Nodup := by
    refine List.Nodup.map_on (fun a ha b hb h => ?_) hasc.nodup
    exact m.ascending.eq_of_key (hmem.mp ha) (hmem.mp hb) h
  have hkeys : metadataKeys [] m.items = .ok (m.encodedOrder.map fun e => (e.1, e.2.item)) := by
    have hitems : m.items =
        (m.encodedOrder.map fun e => (e.1, e.2.item)).map fun e => (.text e.1, e.2) := by
      rw [List.map_map]
      rfl
    rw [hitems]
    refine metadataKeys_ok ?_ (by rwa [List.map_map]) (fun _ _ => List.not_mem_nil)
    intro e he
    obtain ⟨x, hx, rfl⟩ := List.mem_map.mp he
    exact (hm.entries x (hmem.mp hx)).1
  have horder : metadataOrder none ((m.encodedOrder.map fun e => (e.1, e.2.item)).map (·.1)) =
      .ok () := by
    rw [metadataOrder_iff, List.map_map]
    exact ⟨nofun, List.pairwise_map.mpr hasc⟩
  simp only [decodeMetadata, if_neg hlen, hkeys, horder, bind, Except.bind]
  rw [insertMetadata_ok .empty fun e he => (hm.entries e (hmem.mp he)).2]
  refine congrArg _ (OrdMap.ext_mem fun e => ?_)
  have hnodup' : ((m.encodedOrder.map fun e => (e.1, e.2.unsigned)).map Prod.fst).Nodup := by
    rwa [List.map_map]
  rw [mem_insertAll_empty hnodup']
  simp only [unsigned, OrdMap.mapValues, List.mem_map, hmem]

/-- **Only the encoded order of metadata is accepted.** -/
theorem items_of_decodeMetadata {l : List (CborItem × CborItem)} {m : Metadata} {levels : Nat}
    (hfits : ∀ e ∈ l, e.2.Fits levels) (h : decodeMetadata l = .ok m) :
    m.items = l ∧ m.Valid ∧ m.unsigned = m := by
  unfold decodeMetadata at h
  split at h
  · cases h
  rename_i hlen
  obtain ⟨entries, hkeys, hread⟩ := except_bind_eq_ok h
  clear h
  obtain ⟨_, horder, h⟩ := except_bind_eq_ok hread
  clear hread
  obtain ⟨rfl, hvalidKeys⟩ := metadataKeys_eq_ok hkeys
  have hfits' : ∀ e ∈ entries, e.2.Fits levels :=
    fun e he => hfits (.text e.1, e.2) (List.mem_map.mpr ⟨e, he, rfl⟩)
  obtain ⟨vals, rfl, hvals, rfl⟩ := insertMetadata_eq_ok hfits' h
  rw [metadataOrder_iff, List.map_map] at horder
  have hasc : Ascending encodedKey vals := by
    have hkeys := horder.2
    rw [Ascending, List.pairwise_map] at hkeys
    exact hkeys
  have hnodup : (vals.map Prod.fst).Nodup := by
    refine List.Nodup.of_map (fun k : Str => encodeTextString k.bytes) ?_
    rw [List.map_map]
    exact hasc.nodup_map
  have hmem {e : Str × MetadataValue} :
      e ∈ (OrdMap.insertAll (.empty : Metadata) vals).entries ↔ e ∈ vals :=
    mem_insertAll_empty hnodup
  have hvalid : Metadata.Valid (OrdMap.insertAll .empty vals) := by
    refine ⟨?_, fun e he => ?_⟩
    · have hperm : (OrdMap.insertAll (.empty : Metadata) vals).entries.Perm vals :=
        (List.perm_ext_iff_of_nodup (OrdMap.ascending _).nodup hasc.nodup).mpr fun _ => hmem
      rw [hperm.length_eq]
      simpa using hlen
    · have he := hmem.mp he
      exact ⟨hvalidKeys (e.1, e.2.item) (List.mem_map.mpr ⟨e, he, rfl⟩), (hvals e he).1⟩
  refine ⟨?_, hvalid, ?_⟩
  · have horder' : Metadata.encodedOrder (OrdMap.insertAll .empty vals) = vals :=
      eq_of_ascending (encodedOrder_ascending hvalid) hasc fun e => mem_encodedOrder.trans hmem
    rw [items, horder', List.map_map]
    rfl
  · refine OrdMap.ext_entries ?_
    show List.map _ _ = _
    conv_rhs => rw [← List.map_id (OrdMap.insertAll (.empty : Metadata) vals).entries]
    refine List.map_congr_left fun e he => ?_
    rw [(hvals e (hmem.mp he)).2]
    rfl

end Metadata

end SteadQ
