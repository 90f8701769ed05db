/-
  File:      SteadQ/Extension.lean
  Subject:   THE EXTENSION HEADER, BOTH WAYS.

  A header is the map of its entries, and the decoder is a fold over the entries of the map it
  reads. Every key of the map sets one field, and every field but one sets its key again.
-/
import Mathlib.Data.List.Flatten
import SteadQ.CborParser
import SteadQ.Metadata

namespace SteadQ

open Octet

/-! ## 1. Entries of the header -/

theorem check_eq_ok {ε β : Type} {x : Except ε Unit} {f : Unit → Except ε β} {b : β} :
    (x >>= f) = .ok b ↔ x = .ok () ∧ f () = .ok b := by
  cases x with
  | error e => simp [bind, Except.bind]
  | ok a => simp [bind, Except.bind]

theorem forM_eq_ok {ε α : Type} {l : List α} {f : α → Except ε Unit} :
    l.forM f = .ok () ↔ ∀ a ∈ l, f a = .ok () := by
  induction l with
  | nil => simp [List.forM, pure, Except.pure]
  | cons a l ih => rw [List.forM, check_eq_ok, ih, List.forall_mem_cons]

namespace ExtensionHeader

/-- The value of a top-level key. -/
def entry (h : ExtensionHeader) : Nat → Option CborItem
  | 1 => h.initialNotBeforeUnixNs.map fun ns => .uint ns.toNat
  | 2 => if h.contentType.bytes = [] then none else some (.text h.contentType)
  | 3 => if h.metadata.entries = [] then none else some (.map h.metadata.items)
  | 4 => h.producerId.map .text
  | 5 => h.traceContext.map .bytes
  | _ => none

def entries (h : ExtensionHeader) : List (Nat × CborItem) :=
  [1, 2, 3, 4, 5].filterMap fun k => (h.entry k).map (k, ·)

def topEntry (e : Nat × CborItem) : CborItem × CborItem := (.uint e.1, e.2)

def item (h : ExtensionHeader) : CborItem := .map (h.entries.map topEntry)

def unsigned (h : ExtensionHeader) : ExtensionHeader :=
  { h with metadata := h.metadata.unsigned }

/-- What both directions check, but for a content type that is missing. -/
structure Sound (h : ExtensionHeader) : Prop where
  contentType : h.contentType.bytes ≠ [] → validateContentType h.contentType.bytes = .ok ()
  metadata : h.metadata.Valid
  producerId : ∀ pid ∈ h.producerId, pid.bytes.length ≤ maxProducerIdLen ∧ 0 ∉ pid.bytes
  traceContext : ∀ tc ∈ h.traceContext, tc.length ≤ maxTraceContextLen

theorem validateContentType_length {s : Bytes} (h : validateContentType s = .ok ()) :
    s ≠ [] ∧ s.length ≤ maxContentTypeLen := by
  unfold validateContentType at h
  split at h
  · cases h
  · rename_i hnot
    exact ⟨fun heq => hnot (.inl heq), Nat.not_lt.mp fun hlen => hnot (.inr hlen)⟩

theorem mem_entries {h : ExtensionHeader} {k : Nat} {v : CborItem} :
    (k, v) ∈ h.entries ↔ h.entry k = some v := by
  simp only [entries, List.mem_filterMap, Option.map_eq_some_iff, Prod.mk.injEq]
  constructor
  · rintro ⟨_, -, _, hentry, rfl, rfl⟩
    exact hentry
  · intro hentry
    refine ⟨k, ?_, v, hentry, rfl, rfl⟩
    unfold entry at hentry
    split at hentry
    case h_6 => cases hentry
    all_goals simp

theorem entries_ascending (h : ExtensionHeader) : Ascending Prod.fst h.entries := by
  have hkeys : [1, 2, 3, 4, 5].Pairwise (· < ·) := by decide
  refine List.pairwise_filterMap.mpr (hkeys.imp ?_)
  intro a b hab x hx y hy
  obtain ⟨_, -, rfl⟩ := Option.map_eq_some_iff.mp hx
  obtain ⟨_, -, rfl⟩ := Option.map_eq_some_iff.mp hy
  exact hab

theorem entries_length (h : ExtensionHeader) : h.entries.length ≤ 5 :=
  List.length_filterMap_le _ _

theorem validate_iff {h : ExtensionHeader} :
    h.validate = .ok () ↔ h.contentType.bytes ≠ [] ∧ h.Sound := by
  unfold validate
  rw [check_eq_ok]
  by_cases hfew : h.metadata.entries.length > maxMetadataEntries
  · rw [if_pos hfew]
    exact ⟨nofun, fun hs => absurd hs.2.metadata.few (Nat.not_le.mpr hfew)⟩
  rw [if_neg hfew]
  show _ ∧ (_ >>= _) = _ ↔ _
  rw [check_eq_ok, forM_eq_ok]
  constructor
  · rintro ⟨hct, hmd, htail⟩
    refine ⟨(validateContentType_length hct).1, fun _ => hct,
      ⟨Nat.not_lt.mp hfew, fun e he => check_eq_ok.mp (hmd e he)⟩, ?_, ?_⟩
    · intro pid hpid
      rw [Option.mem_def.mp hpid] at htail
      dsimp only at htail
      split at htail
      · cases htail
      split at htail
      · cases htail
      exact ⟨Nat.not_lt.mp ‹_›, ‹_›⟩
    · intro tc htc
      rw [Option.mem_def.mp htc] at htail
      have hlast : (if tc.length > maxTraceContextLen then
          throw .traceContextTooLong else pure ()) = (.ok () : Except CborError Unit) := by
        dsimp only at htail
        split at htail
        · split at htail
          · cases htail
          · split at htail
            · cases htail
            · exact htail
        · exact htail
      split at hlast
      · cases hlast
      · exact Nat.not_lt.mp ‹_›
  · rintro ⟨hct, hs⟩
    refine ⟨hs.contentType hct, fun e he => check_eq_ok.mpr (hs.metadata.entries e he), ?_⟩
    have hlast : ∀ tc ∈ h.traceContext, (if tc.length > maxTraceContextLen then
        throw .traceContextTooLong else pure ()) = (.ok () : Except CborError Unit) :=
      fun tc htc => if_neg (Nat.not_lt.mpr (hs.traceContext tc htc))
    cases hpid : h.producerId with
    | none =>
      cases htc : h.traceContext with
      | none => rfl
      | some tc => exact hlast tc htc
    | some pid =>
      obtain ⟨hlen, hnul⟩ := hs.producerId pid hpid
      dsimp only
      rw [if_neg (Nat.not_lt.mpr hlen), if_neg hnul]
      cases htc : h.traceContext with
      | none => rfl
      | some tc => exact hlast tc htc

/-! ## 2. Encoding a header -/

theorem encode_metadata (m : Metadata) :
    (CborItem.map m.items).encode = encodeHeader 5 m.entries.length ++
      m.encodedOrder.flatMap fun e => encodeTextString e.1.bytes ++ e.2.encode := by
  rw [CborItem.encode, encodePairs_eq, Metadata.items, List.length_map,
    Metadata.encodedOrder_length, List.flatMap_map]
  refine congrArg _ (List.flatMap_congr fun e _ => ?_)
  show CborItem.encode (.text e.1) ++ e.2.item.encode = _
  rw [MetadataValue.encode_item]
  rfl

theorem encodedEntries_eq {h : ExtensionHeader} (hct : h.contentType.bytes ≠ []) :
    h.encodedEntries = h.entries.map fun e => encodeHeader 0 e.1 ++ e.2.encode := by
  have hmetadata : (if h.metadata.entries = [] then [] else
      [encodeHeader 0 3 ++ encodeHeader 5 h.metadata.entries.length ++
        h.metadata.encodedOrder.flatMap fun e => encodeTextString e.1.bytes ++ e.2.encode]) =
      ((h.entry 3).map fun v => encodeHeader 0 3 ++ v.encode).toList := by
    simp only [entry]
    split
    · rfl
    · rw [List.append_assoc, ← encode_metadata]
      rfl
  have hpieces : h.entries.map (fun e => encodeHeader 0 e.1 ++ e.2.encode) =
      [1, 2, 3, 4, 5].flatMap fun k =>
        ((h.entry k).map fun v => encodeHeader 0 k ++ v.encode).toList := by
    rw [entries, List.map_filterMap, List.filterMap_eq_flatMap_toList]
    simp only [Option.map_map]
    rfl
  rw [hpieces, encodedEntries, hmetadata]
  simp only [List.flatMap_cons, List.flatMap_nil, List.append_nil, List.append_assoc]
  simp only [entry, if_neg hct, Option.map_map]
  rfl

/-- **A header is encoded as the map of its entries.** -/
theorem encode_eq_ok {h : ExtensionHeader} {b : Bytes} :
    h.encode = .ok b ↔ h.contentType.bytes ≠ [] ∧ h.Sound ∧ b = h.item.encode ∧
      b.length ≤ maxExtensionSize := by
  unfold encode
  rw [check_eq_ok, validate_iff, and_assoc]
  refine and_congr_right fun hct => and_congr_right fun _ => ?_
  have hbuf : encodeHeader 5 h.encodedEntries.length ++ h.encodedEntries.flatten =
      h.item.encode := by
    rw [encodedEntries_eq hct, item, CborItem.encode, encodePairs_eq, List.length_map,
      List.length_map, List.flatMap_map]
    rfl
  dsimp only
  rw [hbuf]
  split
  · rename_i hlong
    refine ⟨(fun h => by cases h), ?_⟩
    rintro ⟨rfl, hlen⟩
    exact absurd hlen (Nat.not_le.mpr hlong)
  · rename_i hlong
    constructor
    · intro h
      cases h
      exact ⟨rfl, Nat.not_lt.mp hlong⟩
    · rintro ⟨rfl, -⟩
      rfl

/-! ## 3. Decoding a header -/

theorem entry_fits {h : ExtensionHeader} (hs : h.Sound) {k : Nat} {v : CborItem}
    (hentry : h.entry k = some v) : v.Fits 2 := by
  unfold entry at hentry
  split at hentry
  · obtain ⟨ns, -, rfl⟩ := Option.map_eq_some_iff.mp hentry
    exact ns.toNat_lt
  · split at hentry
    · cases hentry
    · rename_i hct
      cases hentry
      have hlen := (validateContentType_length (hs.contentType hct)).2
      show h.contentType.bytes.length < 2 ^ 64
      simp only [maxContentTypeLen] at hlen
      omega
  · split at hentry
    · cases hentry
    · cases hentry
      have hfew := hs.metadata.few
      refine ⟨?_, fun e he => ?_⟩
      · rw [Metadata.items, List.length_map, Metadata.encodedOrder_length]
        omega
      · obtain ⟨x, hx, rfl⟩ := List.mem_map.mp he
        obtain ⟨hkey, hvalue⟩ := hs.metadata.entries x (Metadata.mem_encodedOrder.mp hx)
        have hlen := validateMetadataKey_length hkey
        refine ⟨?_, MetadataValue.item_fits hvalue 0⟩
        show x.1.bytes.length < 2 ^ 64
        omega
  · obtain ⟨pid, hpid, rfl⟩ := Option.map_eq_some_iff.mp hentry
    have hlen := (hs.producerId pid hpid).1
    show pid.bytes.length < 2 ^ 64
    simp only [maxProducerIdLen] at hlen
    omega
  · obtain ⟨tc, htc, rfl⟩ := Option.map_eq_some_iff.mp hentry
    have hlen := hs.traceContext tc htc
    show tc.length < 2 ^ 64
    simp only [maxTraceContextLen] at hlen
    omega
  · cases hentry

theorem item_fits {h : ExtensionHeader} (hs : h.Sound) : h.item.Fits 3 := by
  have hlen := h.entries_length
  refine ⟨?_, fun e he => ?_⟩
  · rw [List.length_map]
    simp only [maxMetadataEntries]
    omega
  · obtain ⟨⟨k, v⟩, hx, rfl⟩ := List.mem_map.mp he
    have hentry := mem_entries.mp hx
    refine ⟨?_, entry_fits hs hentry⟩
    show k < 2 ^ 64
    unfold entry at hentry
    split at hentry
    case h_6 => cases hentry
    all_goals omega

/-- The fold that the decoder is. -/
def decodeAll (ext : ExtensionHeader) (kv : List (Nat × CborItem)) :
    Except CborError ExtensionHeader :=
  kv.foldlM (fun ext e => decodeEntry ext e.1 e.2) ext

/-- The keys seen are those up to the previous one, so that a key is refused unless it ascends. -/
theorem decodeEntries_cons {seen : List Nat} {previous : Option Nat} {ext h : ExtensionHeader}
    {key : Nat} {val : CborItem} {rest : List (CborItem × CborItem)}
    (hseen : ∀ k, (k ∈ seen ∨ ∃ p ∈ previous, k < p) ↔ ∃ p ∈ previous, k ≤ p) :
    decodeEntries ext seen previous ((.uint key, val) :: rest) = .ok h ↔
      (∀ p ∈ previous, p < key) ∧ ∃ ext', decodeEntry ext key val = .ok ext' ∧
        decodeEntries ext' (key :: seen) (some key) rest = .ok h := by
  have hbind : (decodeEntry ext key val >>= fun ext' =>
      decodeEntries ext' (key :: seen) (some key) rest) = .ok h ↔
      ∃ ext', decodeEntry ext key val = .ok ext' ∧
        decodeEntries ext' (key :: seen) (some key) rest = .ok h := by
    refine ⟨except_bind_eq_ok, ?_⟩
    rintro ⟨ext', hone, hrest⟩
    rw [hone]
    exact hrest
  have hkey := hseen key
  rw [decodeEntries]
  split
  · rename_i hmem
    obtain ⟨p, hp, hle⟩ := hkey.mp (.inl hmem)
    refine ⟨(fun h => by cases h), fun h => ?_⟩
    exact absurd (h.1 p hp) (Nat.not_lt.mpr hle)
  · rename_i hmem
    cases previous with
    | none =>
      refine hbind.trans ⟨fun h => ⟨(fun p hp => by cases hp), h⟩, fun h => h.2⟩
    | some p =>
      simp only [Option.mem_some_iff, exists_eq_left'] at hkey
      dsimp only
      split
      · rename_i hlt
        refine ⟨(fun h => by cases h), fun h => ?_⟩
        exact absurd (h.1 p rfl) (by omega)
      · rename_i hlt
        refine hbind.trans ⟨fun h => ⟨?_, h⟩, fun h => h.2⟩
        rintro _ ⟨⟩
        exact Nat.not_le.mp fun hle => (hkey.mpr hle).elim hmem hlt

theorem decodeEntries_iff {seen : List Nat} {previous : Option Nat} {ext h : ExtensionHeader}
    {items : List (CborItem × CborItem)}
    (hseen : ∀ k, (k ∈ seen ∨ ∃ p ∈ previous, k < p) ↔ ∃ p ∈ previous, k ≤ p) :
    decodeEntries ext seen previous items = .ok h ↔ ∃ kv : List (Nat × CborItem),
      items = kv.map topEntry ∧ Ascending Prod.fst kv ∧ (∀ p ∈ previous, ∀ e ∈ kv, p < e.1) ∧
        decodeAll ext kv = .ok h := by
  induction items generalizing seen previous ext with
  | nil =>
    constructor
    · intro h
      exact ⟨[], rfl, List.Pairwise.nil, nofun, h⟩
    · rintro ⟨kv, hkv, -, -, hall⟩
      rw [List.map_eq_nil_iff.mp hkv.symm] at hall
      exact hall
  | cons entry items ih =>
    obtain ⟨key, val⟩ := entry
    cases key with
    | uint key =>
      rw [decodeEntries_cons hseen]
      have hseen' (hkey : ∀ p ∈ previous, p < key) (k : Nat) :
          (k ∈ key :: seen ∨ ∃ p ∈ some key, k < p) ↔ ∃ p ∈ some key, k ≤ p := by
        simp only [List.mem_cons, Option.mem_some_iff, exists_eq_left']
        constructor
        · rintro ((rfl | hmem) | hlt)
          · exact Nat.le_refl _
          · obtain ⟨p, hp, hle⟩ := (hseen k).mp (.inl hmem)
            exact Nat.le_of_lt (Nat.lt_of_le_of_lt hle (hkey p hp))
          · exact Nat.le_of_lt hlt
        · intro hle
          rcases Nat.eq_or_lt_of_le hle with rfl | hlt
          · exact .inl (.inl rfl)
          · exact .inr hlt
      constructor
      · rintro ⟨hkey, ext', hone, hrest⟩
        obtain ⟨kv, rfl, hasc, habove, hall⟩ := (ih (hseen' hkey)).mp hrest
        refine ⟨(key, val) :: kv, rfl, List.pairwise_cons.mpr ⟨habove key rfl, hasc⟩, ?_, ?_⟩
        · intro p hp e he
          rcases List.mem_cons.mp he with rfl | he
          · exact hkey p hp
          · exact Nat.lt_trans (hkey p hp) (habove key rfl e he)
        · rw [decodeAll, List.foldlM_cons]
          dsimp only
          rw [hone]
          exact hall
      · rintro ⟨kv, hkv, hasc, habove, hall⟩
        cases kv with
        | nil => cases hkv
        | cons e kv =>
          obtain ⟨hhead, rfl⟩ := List.cons.inj hkv
          obtain ⟨hk, rfl⟩ := Prod.mk.inj hhead
          cases hk
          obtain ⟨hfirst, hasc⟩ := List.pairwise_cons.mp hasc
          have hkey : ∀ p ∈ previous, p < e.1 := fun p hp => habove p hp e List.mem_cons_self
          obtain ⟨ext', hone, hrest⟩ := except_bind_eq_ok hall
          refine ⟨hkey, ext', hone, (ih (hseen' hkey)).mpr ⟨kv, rfl, hasc, ?_, hrest⟩⟩
          rintro _ ⟨⟩
          exact hfirst
    | nint _ | bytes _ | text _ | bool _ | map _ =>
      refine ⟨nofun, ?_⟩
      rintro ⟨kv, hkv, -⟩
      cases kv with
      | nil => cases hkv
      | cons e kv => cases (Prod.mk.inj (List.cons.inj hkv).1).1

theorem readItem_whole {levels : Nat} {item : CborItem} {b : Bytes} (hfits : item.Fits levels)
    (hb : b = item.encode) (hbound : b.length < 2 ^ 64) :
    readItem b.length levels b = .ok (item, []) := by
  have hlist : item.encode ++ [] = b := by rw [List.append_nil, hb]
  have hread := readItem_encode hfits [] (Nat.le_of_eq (congrArg List.length hlist)) hbound
  rwa [hlist] at hread

/-- **The decoder accepts the encoding of a map** with ascending keys that it can store. -/
theorem decode_eq_ok {b : Bytes} {h : ExtensionHeader} :
    decode b = .ok h ↔ b.length ≤ maxExtensionSize ∧ ∃ kv : List (Nat × CborItem),
      (CborItem.map (kv.map topEntry)).Fits 3 ∧ b = (CborItem.map (kv.map topEntry)).encode ∧
        Ascending Prod.fst kv ∧ decodeAll empty kv = .ok h ∧ h.contentType.bytes ≠ [] := by
  have hseen (k : Nat) : (k ∈ ([] : List Nat) ∨ ∃ p ∈ (none : Option Nat), k < p) ↔
      ∃ p ∈ (none : Option Nat), k ≤ p := by simp
  constructor
  · intro hdec
    unfold decode at hdec
    split at hdec
    · cases hdec
    rename_i hlen
    obtain ⟨⟨top, rest⟩, hread, hdec'⟩ := except_bind_eq_ok hdec
    clear hdec
    cases top with
    | map items =>
      obtain ⟨ext, hentries, hdec⟩ := except_bind_eq_ok hdec'
      obtain ⟨hfits, hb⟩ := encode_of_readItem hread
      obtain ⟨kv, rfl, hasc, -, hall⟩ := (decodeEntries_iff hseen).mp hentries
      split at hdec
      · split at hdec <;> cases hdec
      rename_i hrest
      split at hdec
      · cases hdec
      rename_i hct
      cases hdec
      rw [not_not.mp hrest, List.append_nil] at hb
      exact ⟨Nat.not_lt.mp hlen, kv, hfits, hb, hasc, hall, hct⟩
    | uint _ | nint _ | bytes _ | text _ | bool _ => cases hdec'
  · rintro ⟨hlen, kv, hfits, hb, hasc, hall, hct⟩
    have hbound : b.length < 2 ^ 64 := by
      simp only [maxExtensionSize] at hlen
      omega
    have hread := readItem_whole hfits hb hbound
    have hentries : decodeEntries empty [] none (kv.map topEntry) = .ok h :=
      (decodeEntries_iff hseen).mpr ⟨kv, rfl, hasc, (fun p hp => by cases hp), hall⟩
    unfold decode
    rw [if_neg (Nat.not_lt.mpr hlen)]
    simp only [hread, hentries, bind, Except.bind, if_neg hct, ne_eq, not_true_eq_false, if_false,
      pure, Except.pure]

theorem unsigned_eq_iff {h : ExtensionHeader} :
    h.unsigned = h ↔ h.metadata.unsigned = h.metadata :=
  ⟨fun hu => congrArg metadata hu, fun hu => by rw [unsigned, hu]⟩

/-- One key of a header, if it has an entry. -/
def storeEntry (h ext : ExtensionHeader) (k : Nat) : Except CborError ExtensionHeader :=
  match h.entry k with
  | some v => decodeEntry ext k v
  | none => .ok ext

theorem decodeAll_entries_eq (h ext : ExtensionHeader) :
    decodeAll ext h.entries = [1, 2, 3, 4, 5].foldlM h.storeEntry ext := by
  rw [decodeAll, entries, List.foldlM_filterMap]
  refine congrArg (fun f => List.foldlM f ext _) (funext fun ext => funext fun k => ?_)
  rw [storeEntry]
  cases h.entry k <;> rfl

section Store

variable {h ext : ExtensionHeader}

theorem storeEntry_one (hnew : ext.initialNotBeforeUnixNs = none) :
    h.storeEntry ext 1 = .ok { ext with initialNotBeforeUnixNs := h.initialNotBeforeUnixNs } := by
  cases hinitial : h.initialNotBeforeUnixNs with
  | none =>
    simp only [storeEntry, entry, hinitial, Option.map_none]
    rw [← hnew]
  | some ns =>
    simp only [storeEntry, entry, hinitial, Option.map_some, decodeEntry, UInt64.ofNat_toNat]

theorem storeEntry_two (hs : h.Sound) (hnew : ext.contentType = empty.contentType) :
    h.storeEntry ext 2 = .ok { ext with contentType := h.contentType } := by
  by_cases hct : h.contentType.bytes = []
  · have heq : h.contentType = ext.contentType := Str.ext (hct.trans (by rw [hnew]; rfl))
    simp only [storeEntry, entry, if_pos hct]
    rw [heq]
  · simp only [storeEntry, entry, if_neg hct, decodeEntry, hs.contentType hct, bind, Except.bind,
      pure, Except.pure]

theorem storeEntry_three (hs : h.Sound) (hnew : ext.metadata = .empty) :
    h.storeEntry ext 3 = .ok { ext with metadata := h.metadata.unsigned } := by
  by_cases hnil : h.metadata.entries = []
  · have heq : h.metadata.unsigned = ext.metadata := by
      refine OrdMap.ext_entries ?_
      rw [hnew]
      show h.metadata.entries.map _ = []
      rw [hnil]
      rfl
    simp only [storeEntry, entry, if_pos hnil]
    rw [heq]
  · simp only [storeEntry, entry, if_neg hnil, decodeEntry,
      Metadata.decodeMetadata_items hs.metadata, bind, Except.bind, pure, Except.pure]

theorem storeEntry_four (hs : h.Sound) (hnew : ext.producerId = none) :
    h.storeEntry ext 4 = .ok { ext with producerId := h.producerId } := by
  cases hpid : h.producerId with
  | none =>
    simp only [storeEntry, entry, hpid, Option.map_none]
    rw [← hnew]
  | some pid =>
    obtain ⟨hlen, hnul⟩ := hs.producerId pid hpid
    simp only [storeEntry, entry, hpid, Option.map_some, decodeEntry, if_neg hnul,
      if_neg (Nat.not_lt.mpr hlen)]

theorem storeEntry_five (hs : h.Sound) (hnew : ext.traceContext = none) :
    h.storeEntry ext 5 = .ok { ext with traceContext := h.traceContext } := by
  cases htc : h.traceContext with
  | none =>
    simp only [storeEntry, entry, htc, Option.map_none]
    rw [← hnew]
  | some tc =>
    simp only [storeEntry, entry, htc, Option.map_some, decodeEntry,
      if_neg (Nat.not_lt.mpr (hs.traceContext tc htc))]

/-- **Every entry of a header stores its field again.** A field that has no entry is as it is in
    the empty header. -/
theorem decodeAll_entries (hs : h.Sound) : decodeAll empty h.entries = .ok h.unsigned := by
  rw [decodeAll_entries_eq]
  simp only [List.foldlM_cons, List.foldlM_nil]
  rw [storeEntry_one]
  · show (h.storeEntry _ 2 >>= _) = _
    rw [storeEntry_two hs]
    · show (h.storeEntry _ 3 >>= _) = _
      rw [storeEntry_three hs]
      · show (h.storeEntry _ 4 >>= _) = _
        rw [storeEntry_four hs]
        · show (h.storeEntry _ 5 >>= _) = _
          rw [storeEntry_five hs]
          all_goals rfl
        rfl
      rfl
    rfl
  rfl

end Store

/-- An entry that stores what a header without it holds already. -/
def emptyMetadata : Nat × CborItem → Bool
  | (3, .map []) => true
  | _ => false

theorem emptyMetadata_iff {e : Nat × CborItem} : emptyMetadata e = true ↔ e = (3, .map []) := by
  constructor
  · intro h
    unfold emptyMetadata at h
    split at h
    · rfl
    · cases h
  · rintro rfl
    rfl

theorem decodeEntry_spec {ext ext' : ExtensionHeader} {k levels : Nat} {v : CborItem}
    (hfits : v.Fits levels) (hs : ext.Sound) (h : decodeEntry ext k v = .ok ext') :
    ext'.Sound ∧ (ext.unsigned = ext → ext'.unsigned = ext') ∧ (1 ≤ k ∧ k ≤ 5) ∧
      (∀ j, j ≠ k → ext'.entry j = ext.entry j) ∧
        ext'.entry k = if emptyMetadata (k, v) then none else some v := by
  unfold decodeEntry at h
  rw [unsigned_eq_iff, unsigned_eq_iff]
  split at h
  · rename_i n
    cases h
    refine ⟨{ hs with }, id, by decide, fun j hj => ?_, ?_⟩
    · unfold entry
      split <;> first | rfl | exact absurd rfl hj
    · cases levels with
      | zero => exact hfits.elim
      | succ levels =>
        show some (CborItem.uint (UInt64.ofNat n).toNat) = some (.uint n)
        rw [UInt64.toNat_ofNat', Nat.mod_eq_of_lt hfits]
  · rename_i ct
    obtain ⟨hct, h⟩ := check_eq_ok.mp h
    cases h
    refine ⟨{ hs with contentType := fun _ => hct }, id, by decide, fun j hj => ?_, ?_⟩
    · unfold entry
      split <;> first | rfl | exact absurd rfl hj
    · show (if _ then _ else _) = _
      rw [if_neg (validateContentType_length hct).1]
      rfl
  · rename_i items
    obtain ⟨m, hm, h⟩ := except_bind_eq_ok h
    cases h
    obtain ⟨levels, rfl⟩ : ∃ n, levels = n + 1 := by
      cases levels with
      | zero => exact hfits.elim
      | succ levels => exact ⟨levels, rfl⟩
    obtain ⟨hitems, hvalid, hunsigned⟩ :=
      Metadata.items_of_decodeMetadata (fun e he => (hfits.2 e he).2) hm
    refine ⟨{ hs with metadata := hvalid }, fun _ => hunsigned, by decide, fun j hj => ?_, ?_⟩
    · unfold entry
      split <;> first | rfl | exact absurd rfl hj
    · show (if m.entries = [] then _ else some (CborItem.map m.items)) = _
      have hlen : items.length = m.entries.length := by
        rw [← hitems, Metadata.items, List.length_map, Metadata.encodedOrder_length]
      cases items with
      | nil => rw [if_pos (List.length_eq_zero_iff.mp hlen.symm)]; rfl
      | cons e items =>
        rw [if_neg (fun hnil => by rw [hnil] at hlen; cases hlen), hitems]
        rfl
  · rename_i pid
    split at h
    · cases h
    rename_i hnul
    split at h
    · cases h
    rename_i hlen
    cases h
    refine ⟨{ hs with producerId := ?_ }, id, by decide, fun j hj => ?_, rfl⟩
    · rintro _ ⟨⟩
      exact ⟨Nat.not_lt.mp hlen, hnul⟩
    · unfold entry
      split <;> first | rfl | exact absurd rfl hj
  · rename_i tc
    split at h
    · cases h
    rename_i hlen
    cases h
    refine ⟨{ hs with traceContext := ?_ }, id, by decide, fun j hj => ?_, rfl⟩
    · rintro _ ⟨⟩
      exact Nat.not_lt.mp hlen
    · unfold entry
      split <;> first | rfl | exact absurd rfl hj
  · split at h <;> cases h

/-- **The fields of a decoded header** are those of the entries, and those it had. -/
theorem decodeAll_spec {kv : List (Nat × CborItem)} {ext ext' : ExtensionHeader} {levels : Nat}
    (hasc : Ascending Prod.fst kv) (hfits : ∀ e ∈ kv, e.2.Fits levels) (hs : ext.Sound)
    (h : decodeAll ext kv = .ok ext') :
    ext'.Sound ∧ (ext.unsigned = ext → ext'.unsigned = ext') ∧ (∀ e ∈ kv, 1 ≤ e.1 ∧ e.1 ≤ 5) ∧
      ∀ k v, ext'.entry k = some v ↔ ((k, v) ∈ kv ∧ emptyMetadata (k, v) = false) ∨
        (k ∉ kv.map Prod.fst ∧ ext.entry k = some v) := by
  induction kv generalizing ext with
  | nil =>
    cases h
    exact ⟨hs, id, nofun, fun k v => by simp⟩
  | cons e kv ih =>
    obtain ⟨hfirst, hasc⟩ := List.pairwise_cons.mp hasc
    obtain ⟨ext₁, hone, hrest⟩ := except_bind_eq_ok h
    obtain ⟨hs₁, hu₁, hkey, hother, hsame⟩ := decodeEntry_spec (hfits e List.mem_cons_self) hs hone
    obtain ⟨hs', hu', hkeys, hmem⟩ :=
      ih hasc (fun x hx => hfits x (List.mem_cons_of_mem e hx)) hs₁ hrest
    refine ⟨hs', hu' ∘ hu₁, List.forall_mem_cons.mpr ⟨hkey, hkeys⟩, fun k v => ?_⟩
    rw [hmem k v]
    have hnew : e.1 ∉ kv.map Prod.fst := fun hin => by
      obtain ⟨x, hx, hxe⟩ := List.mem_map.mp hin
      exact absurd (hfirst x hx) (by rw [hxe]; exact Nat.lt_irrefl _)
    by_cases hk : k = e.1
    · subst hk
      have hnot : (e.1, v) ∉ kv := fun hin => hnew (List.mem_map.mpr ⟨_, hin, rfl⟩)
      have hval : ext₁.entry e.1 = some v ↔ e.2 = v ∧ emptyMetadata (e.1, v) = false := by
        rw [hsame]
        cases hempty : emptyMetadata (e.1, e.2) with
        | true =>
          refine ⟨nofun, ?_⟩
          rintro ⟨rfl, hfalse⟩
          rw [hempty] at hfalse
          cases hfalse
        | false =>
          refine ⟨?_, fun heq => congrArg some heq.1⟩
          rintro ⟨⟩
          exact ⟨rfl, hempty⟩
      have hhead : (e.1, v) = e ↔ e.2 = v :=
        ⟨fun heq => by rw [← heq], fun heq => by rw [← heq]⟩
      simp only [hval, hnot, hnew, hhead, List.mem_cons, List.map_cons, or_false, false_and,
        false_or, not_false_eq_true, true_and, not_true_eq_false]
    · have hhead : (k, v) ≠ e := fun heq => hk (by rw [← heq])
      simp only [hother k hk, hhead, hk, List.mem_cons, List.map_cons, false_or]

theorem empty_sound : empty.Sound := by
  refine ⟨fun hct => absurd rfl hct, ⟨Nat.zero_le _, nofun⟩, nofun, nofun⟩

/-- The entries of an accepted input, and those the header keeps. -/
theorem entries_of_decode {b : Bytes} {h : ExtensionHeader} (hdec : decode b = .ok h) :
    h.Sound ∧ h.unsigned = h ∧ h.contentType.bytes ≠ [] ∧ b.length ≤ maxExtensionSize ∧
      ∃ kv : List (Nat × CborItem), kv.length ≤ 5 ∧ (CborItem.map (kv.map topEntry)).Fits 3 ∧
        b = (CborItem.map (kv.map topEntry)).encode ∧
          h.entries = kv.filter fun e => !emptyMetadata e := by
  obtain ⟨hlen, kv, hfits, hb, hasc, hall, hct⟩ := decode_eq_ok.mp hdec
  have hfits' : ∀ e ∈ kv, e.2.Fits 2 :=
    fun e he => (hfits.2 (topEntry e) (List.mem_map.mpr ⟨e, he, rfl⟩)).2
  obtain ⟨hs, hu, hkeys, hmem⟩ := decodeAll_spec hasc hfits' empty_sound hall
  refine ⟨hs, hu rfl, hct, hlen, kv, ?_, hfits, hb, ?_⟩
  · have hsub : kv.map Prod.fst ⊆ [1, 2, 3, 4, 5] := by
      intro k hk
      obtain ⟨e, he, rfl⟩ := List.mem_map.mp hk
      have hrange := hkeys e he
      simp only [List.mem_cons, List.not_mem_nil, or_false]
      omega
    simpa using (List.subperm_of_subset hasc.nodup_map hsub).length_le
  · refine eq_of_ascending h.entries_ascending (hasc.sublist List.filter_sublist) fun e => ?_
    obtain ⟨k, v⟩ := e
    have hnone : empty.entry k ≠ some v := by
      unfold entry
      split <;> exact nofun
    rw [mem_entries, hmem, List.mem_filter, Bool.not_eq_true']
    exact or_iff_left fun hor => hnone hor.2

theorem encode_map {kv : List (Nat × CborItem)} (hfew : kv.length ≤ 5) :
    (CborItem.map (kv.map topEntry)).encode =
      initialByte 5 kv.length :: kv.flatMap fun e => encodeHeader 0 e.1 ++ e.2.encode := by
  have hhead : encodeHeader 5 kv.length = [initialByte 5 kv.length] := if_pos (by omega)
  rw [CborItem.encode, encodePairs_eq, List.length_map, hhead, List.flatMap_map]
  rfl

/-- **An accepted header can be encoded again**, as its entries but for empty metadata. -/
theorem encode_of_decode {b : Bytes} {h : ExtensionHeader} (hdec : decode b = .ok h) :
    h.encode = .ok h.item.encode := by
  obtain ⟨hs, -, hct, hlen, kv, hfew, -, rfl, hentries⟩ := entries_of_decode hdec
  refine encode_eq_ok.mpr ⟨hct, hs, rfl, Nat.le_trans ?_ hlen⟩
  rw [item, encode_map h.entries_length, encode_map hfew, hentries]
  exact Nat.succ_le_succ (List.filter_sublist.flatMap _).length_le

theorem decode_of_encode {h : ExtensionHeader} {b : Bytes} (henc : h.encode = .ok b) :
    decode b = .ok h.unsigned := by
  obtain ⟨hct, hs, hb, hlen⟩ := encode_eq_ok.mp henc
  exact decode_eq_ok.mpr
    ⟨hlen, h.entries, item_fits hs, hb, h.entries_ascending, decodeAll_entries hs, hct⟩

end ExtensionHeader

/-! ## 4. The two directions -/

/-- **Extension headers round trip.** -/
theorem extension_round_trip :
    (∀ (h : ExtensionHeader) (b : Bytes), h.encode = .ok b →
      ExtensionHeader.decode b = .ok h.unsigned) ∧
    (∀ (b : Bytes) (h : ExtensionHeader), ExtensionHeader.decode b = .ok h →
      h.validate = .ok () ∧ ∃ b', h.encode = .ok b' ∧ ExtensionHeader.decode b' = .ok h) ∧
    (∀ b, CborParser.decode b = ofResult (ExtensionHeader.decode b)) ∧
    ∀ key, CborParser.validateMetadataKey key = ofResult (validateMetadataKey key) := by
  refine ⟨fun h b => ExtensionHeader.decode_of_encode, fun b h hdec => ?_, CborParser.decode_eq,
    CborParser.validateMetadataKey_eq⟩
  obtain ⟨hs, hu, hct, -⟩ := ExtensionHeader.entries_of_decode hdec
  have henc := ExtensionHeader.encode_of_decode hdec
  refine ⟨ExtensionHeader.validate_iff.mpr ⟨hct, hs⟩, _, henc, ?_⟩
  rw [ExtensionHeader.decode_of_encode henc, hu]

/-- The input gives metadata, and gives it empty. -/
def HasEmptyMetadata (b : Bytes) : Prop :=
  ∃ items, readItem b.length 3 b = .ok (.map items, []) ∧ (.uint 3, .map []) ∈ items

theorem hasEmptyMetadata_iff {b : Bytes} {kv : List (Nat × CborItem)}
    (hlen : b.length ≤ maxExtensionSize)
    (hfits : (CborItem.map (kv.map ExtensionHeader.topEntry)).Fits 3)
    (hb : b = (CborItem.map (kv.map ExtensionHeader.topEntry)).encode) :
    HasEmptyMetadata b ↔ (3, .map []) ∈ kv := by
  have hread := ExtensionHeader.readItem_whole hfits hb (by
    simp only [maxExtensionSize] at hlen
    omega)
  simp only [HasEmptyMetadata, hread, Except.ok.injEq, Prod.mk.injEq, CborItem.map.injEq, and_true,
    exists_eq_left', List.mem_map, ExtensionHeader.topEntry, CborItem.uint.injEq]
  constructor
  · rintro ⟨⟨k, v⟩, he, rfl, rfl⟩
    exact he
  · intro he
    exact ⟨_, he, rfl, rfl⟩

/-- **An accepted input is the encoding of its header** unless it gives metadata that is empty. -/
theorem extension_canonical_iff (b : Bytes) (h : ExtensionHeader)
    (hdec : ExtensionHeader.decode b = .ok h) :
    (h.encode = .ok b ↔ ¬ HasEmptyMetadata b) ∧
      ∀ b', ExtensionHeader.decode b' = .ok h → ¬ HasEmptyMetadata b → ¬ HasEmptyMetadata b' →
        b' = b := by
  have hcanonical {b : Bytes} (hdec : ExtensionHeader.decode b = .ok h) :
      h.encode = .ok b ↔ ¬ HasEmptyMetadata b := by
    obtain ⟨hs, -, -, hlen, kv, -, hfits, hb, hentries⟩ :=
      ExtensionHeader.entries_of_decode hdec
    rw [ExtensionHeader.encode_of_decode hdec, Except.ok.injEq, hasEmptyMetadata_iff hlen hfits hb]
    constructor
    · intro heq hmem
      have hempty := (hasEmptyMetadata_iff hlen hfits hb).mpr hmem
      rw [hasEmptyMetadata_iff hlen (ExtensionHeader.item_fits hs) heq.symm, hentries] at hempty
      exact Bool.false_ne_true (List.mem_filter.mp hempty).2
    · intro hnot
      have hall : h.entries = kv := by
        rw [hentries, List.filter_eq_self]
        intro e he
        rw [Bool.not_eq_true', Bool.eq_false_iff]
        intro hempty
        exact hnot (ExtensionHeader.emptyMetadata_iff.mp hempty ▸ he)
      rw [hb, ExtensionHeader.item, hall]
  refine ⟨hcanonical hdec, fun b' hdec' hb hb' => ?_⟩
  have henc := (hcanonical hdec).mpr hb
  rw [(hcanonical hdec').mpr hb'] at henc
  exact Except.ok.inj henc

/-- `{2: "a"}`. -/
def plainBytes : Bytes := [0xa1, 0x02, 0x61, 0x61]

/-- `{2: "a", 3: {}}`. -/
def emptyMetadataBytes : Bytes := [0xa2, 0x02, 0x61, 0x61, 0x03, 0xa0]

def plainHeader : ExtensionHeader := ⟨none, ⟨[0x61], rfl⟩, .empty, none, none⟩

theorem extension_canonical_iff_plain :
    ExtensionHeader.decode plainBytes = .ok plainHeader ∧
      (plainHeader.encode = .ok plainBytes ↔ ¬ HasEmptyMetadata plainBytes) :=
  ⟨rfl, (extension_canonical_iff plainBytes plainHeader rfl).1⟩

/-- **Two accepted inputs, one header**: the longer one is not what the header is encoded as. -/
theorem extension_not_canonical :
    ExtensionHeader.decode emptyMetadataBytes = .ok plainHeader ∧
      ExtensionHeader.decode plainBytes = .ok plainHeader ∧
        plainHeader.encode = .ok plainBytes ∧ plainBytes ≠ emptyMetadataBytes := by
  refine ⟨rfl, rfl, rfl, by decide⟩

end SteadQ
