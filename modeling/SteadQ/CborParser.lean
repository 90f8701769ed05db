/-
  File:      SteadQ/CborParser.lean
  Subject:   THE PARSER AS IT WALKS THE BUFFER.

  `Cbor.lean` reads items off a list. The source keeps a position and a depth, indexes and slices
  the buffer, adds and subtracts machine words and unwraps conversions; each of these can end the
  thread. Here every one of them is a step that may `panic`.
-/
import Mathlib.Algebra.Group.Int.Defs
import SteadQ.Items

namespace SteadQ

open Octet

/-! ## 1. Steps that may panic -/

/-- How a call ends that gives no value. -/
inductive Stop where
  | error (e : CborError)
  | panic
  /-- The recursion is deeper than was allowed for. -/
  | deep
  deriving DecidableEq

/-- A call that cannot panic. -/
def ofResult {α : Type} : Except CborError α → Except Stop α
  | .ok a => .ok a
  | .error e => .error (.error e)

theorem ofResult_bind {α β : Type} (x : Except CborError α) (f : α → Except CborError β) :
    ofResult (x >>= f) = ofResult x >>= fun a => ofResult (f a) := by
  cases x <;> rfl

namespace CborParser

/-- `data[i]`. -/
def index (data : Bytes) (i : Nat) : Except Stop UInt8 :=
  match data[i]? with
  | some b => .ok b
  | none => .error .panic

/-- `data[i..j]`. -/
def subslice (data : Bytes) (i j : Nat) : Except Stop Bytes :=
  if i ≤ j ∧ j ≤ data.length then .ok ((data.take j).drop i) else .error .panic

/-- Addition of machine words of `width` bits. -/
def plus (width a b : Nat) : Except Stop Nat :=
  if a + b < 2 ^ width then .ok (a + b) else .error .panic

/-- Subtraction of unsigned machine words. -/
def minus (a b : Nat) : Except Stop Nat := if b ≤ a then .ok (a - b) else .error .panic

/-- Subtraction of 64-bit signed machine words. -/
def minusI64 (a b : Int) : Except Stop Int :=
  if -2 ^ 63 ≤ a - b ∧ a - b < 2 ^ 63 then .ok (a - b) else .error .panic

/-- `pos.checked_add(n)`; an overflow is an error of the input. -/
def checkedAdd (a b : Nat) : Except Stop Nat :=
  if a + b < 2 ^ 64 then .ok (a + b) else .error (.error .intOverflow)

/-- `try_into().unwrap()` to an array. -/
def unwrapArray (n : Nat) (b : Bytes) : Except Stop (Octets n) :=
  if h : b.length = n then .ok ⟨b, h⟩ else .error .panic

end CborParser

/-! ## 2. The walk -/

structure CborParser where
  data : Bytes
  pos : Nat
  depth : Nat

namespace CborParser

def readByte (p : CborParser) : Except Stop (UInt8 × CborParser) := do
  if p.pos ≥ p.data.length then throw (.error .truncated)
  let b ← index p.data p.pos
  let pos ← plus 64 p.pos 1
  return (b, { p with pos := pos })

/-- A length of one byte. -/
def readUint8 (p : CborParser) : Except Stop (Nat × CborParser) := do
  let pos ← checkedAdd p.pos 1
  if pos > p.data.length then throw (.error .truncated)
  let b ← index p.data (← minus pos 1)
  if b.toNat < 24 then throw (.error .intOverflow)
  return (b.toNat, { p with pos := pos })

/-- A length of `width` big-endian bytes. -/
def readUintWide (p : CborParser) (width least : Nat) : Except Stop (Nat × CborParser) := do
  let pos ← checkedAdd p.pos width
  if pos > p.data.length then throw (.error .truncated)
  let bytes ← subslice p.data (← minus pos width) pos
  let array ← unwrapArray width bytes
  if beNat array.1 < least then throw (.error .intOverflow)
  return (beNat array.1, { p with pos := pos })

def readUint (p : CborParser) (additional : Nat) : Except Stop (Nat × CborParser) :=
  if additional < 24 then .ok (additional, p)
  else if additional = 24 then p.readUint8
  else if additional = 25 then p.readUintWide 2 256
  else if additional = 26 then p.readUintWide 4 65536
  else if additional = 27 then p.readUintWide 8 4294967296
  else if additional = 31 then .error (.error .indefiniteLength)
  else .error (.error (.invalidMajorType additional))

/-- The bytes of a string, of either kind. -/
def readString (p : CborParser) (additional : Nat) : Except Stop (Bytes × CborParser) := do
  let (len, p) ← p.readUint additional
  let stop ← checkedAdd p.pos len
  if stop > p.data.length then throw (.error .truncated)
  let b ← subslice p.data p.pos stop
  return (b, { p with pos := stop })

def readSimple (p : CborParser) (additional : Nat) : Except Stop (CborItem × CborParser) :=
  if additional = 20 then .ok (.bool false, p)
  else if additional = 21 then .ok (.bool true, p)
  else if additional = 22 then .error (.error .nullNotAllowed)
  else if additional = 23 then .error (.error .undefinedNotAllowed)
  else if additional = 24 then do
    let (sv, _) ← p.readByte
    throw (.error (.invalidSimpleValue sv.toNat))
  else if 25 ≤ additional ∧ additional ≤ 27 then .error (.error .floatNotAllowed)
  else .error (.error (.invalidSimpleValue additional))

/-- The entries of a map, read by `item`. -/
def readPairs (item : CborParser → Except Stop (CborItem × CborParser)) :
    Nat → CborParser → Except Stop (List (CborItem × CborItem) × CborParser)
  | 0, p => .ok ([], p)
  | n + 1, p => do
    let (key, p) ← item p
    let (val, p) ← item p
    let (items, p) ← readPairs item n p
    return ((key, val) :: items, p)

/-- One item; `fuel` is how deep the recursion may go. -/
def readItem : Nat → CborParser → Except Stop (CborItem × CborParser)
  | 0, _ => .error .deep
  | fuel + 1, p => do
    if p.depth > 2 then throw (.error .nestingTooDeep)
    let (initial, p) ← p.readByte
    let major := (initial >>> 5).toNat
    let additional := (initial &&& 0x1f).toNat
    if major = 0 then
      let (v, p) ← p.readUint additional
      return (.uint v, p)
    else if major = 1 then
      let (v, p) ← p.readUint additional
      if v > 2 ^ 63 - 1 then throw (.error .intOverflow)
      return (.nint v, p)
    else if major = 2 then
      let (b, p) ← p.readString additional
      return (.bytes b, p)
    else if major = 3 then
      let (s, p) ← p.readString additional
      if h : isUtf8 s = true then return (.text ⟨s, h⟩, p)
      else throw (.error .invalidUtf8)
    else if major = 5 then
      let depth ← plus 32 p.depth 1
      let (len, p) ← { p with depth := depth }.readUint additional
      let remaining ← minus p.data.length p.pos
      if len > remaining / 2 then throw (.error .truncated)
      if len > maxMetadataEntries * 8 then throw (.error .tooManyEntries)
      let (items, p) ← readPairs (readItem fuel) len p
      let depth ← minus p.depth 1
      return (.map items, { p with depth := depth })
    else if major = 6 then throw (.error (.unexpectedTag additional))
    else if major = 7 then p.readSimple additional
    else throw (.error (.invalidMajorType major))

/-! ## 3. A whole header -/

def validateMetadataKey (key : Bytes) : Except Stop Unit := do
  if key = [] ∨ key.length > 64 then throw (.error (.invalidKey key))
  let first ← index key 0
  if ¬ isLowerOrDigit first then throw (.error (.invalidKey key))
  let rest ← subslice key 1 key.length
  if rest.all fun b => isLowerOrDigit b ∨ b = 46 ∨ b = 95 ∨ b = 45 then return ()
  else throw (.error (.invalidKey key))

def metadataKeys (seen : List Str) :
    List (CborItem × CborItem) → Except Stop (List (Str × CborItem))
  | [] => .ok []
  | (.text key, val) :: rest => do
    validateMetadataKey key.bytes
    if key ∈ seen then throw (.error (.duplicateMetadataKey key.bytes))
    let items ← metadataKeys (key :: seen) rest
    return (key, val) :: items
  | _ => .error (.error .nonStringKey)

def metadataValue : CborItem → Except Stop MetadataValue
  | .nint v =>
    if v > 2 ^ 63 - 1 then .error (.error .intOverflow)
    else do
      let n ← minusI64 (-1) v
      return .i64 (Int64.ofInt n)
  | item => ofResult (SteadQ.metadataValue item)

def insertMetadata (m : Metadata) : List (Str × CborItem) → Except Stop Metadata
  | [] => .ok m
  | (key, item) :: rest => do
    let v ← metadataValue item
    insertMetadata (m.insert key v) rest

def decodeMetadata (items : List (CborItem × CborItem)) : Except Stop Metadata := do
  if items.length > maxMetadataEntries then throw (.error .tooManyEntries)
  let entries ← metadataKeys [] items
  ofResult (metadataOrder none (entries.map (·.1)))
  insertMetadata .empty entries

def decodeEntry (ext : ExtensionHeader) (key : Nat) (val : CborItem) :
    Except Stop ExtensionHeader :=
  match key, val with
  | 3, .map items => do
    let metadata ← decodeMetadata items
    return { ext with metadata := metadata }
  | key, val => ofResult (SteadQ.decodeEntry ext key val)

def decodeEntries (ext : ExtensionHeader) (seen : List Nat) (previous : Option Nat) :
    List (CborItem × CborItem) → Except Stop ExtensionHeader
  | [] => .ok ext
  | (.uint key, val) :: rest => do
    if key ∈ seen then throw (.error (.duplicateKey key))
    match previous with
    | some p => if key < p then throw (.error (.duplicateKey key))
    | none => pure ()
    let ext ← decodeEntry ext key val
    decodeEntries ext (key :: seen) (some key) rest
  | _ => .error (.error (.unknownKey 0))

def decodeExtension (p : CborParser) : Except Stop (ExtensionHeader × CborParser) := do
  -- three maps may be entered, and a fourth call refuses
  let (top, p) ← p.readItem 4
  match top with
  | .map items => do
    let ext ← decodeEntries .empty [] none items
    if ext.contentType.bytes = [] then throw (.error .missingContentType)
    return (ext, p)
  | _ => throw (.error (.invalidMajorType 0))

def decode (input : Bytes) : Except Stop ExtensionHeader := do
  if input.length > maxExtensionSize then throw (.error .tooLarge)
  let (ext, p) ← decodeExtension ⟨input, 0, 0⟩
  if p.pos ≠ input.length then throw (.error .trailingBytes)
  return ext

/-! ## 4. The walk is the reader -/

/-- A parser that stands inside its buffer. -/
def Inside (p : CborParser) : Prop := p.pos ≤ p.data.length ∧ p.data.length < 2 ^ 63

/-- What is left of the buffer. -/
def rest (p : CborParser) : Bytes := p.data.drop p.pos

/-- The parser that stands before `rest`. -/
def before (p : CborParser) (rest : Bytes) : CborParser :=
  { p with pos := p.data.length - rest.length }

/-- The walk that reads what the reader reads. -/
def follow {α : Type} (p : CborParser) (r : Except CborError (α × Bytes)) :
    Except Stop (α × CborParser) :=
  match r with
  | .ok (a, rest) => .ok (a, p.before rest)
  | .error e => .error (.error e)

section Walk

variable {p : CborParser}

theorem rest_length (p : CborParser) : p.rest.length = p.data.length - p.pos := List.length_drop

theorem rest_suffix (p : CborParser) : p.rest <:+ p.data := List.drop_suffix _ _

theorem before_rest {r : Bytes} (hr : r <:+ p.data) : (p.before r).rest = r :=
  (List.suffix_iff_eq_drop.mp hr).symm

theorem Inside.before (hp : p.Inside) (r : Bytes) : (p.before r).Inside :=
  ⟨Nat.sub_le _ _, hp.2⟩

theorem before_before (r r' : Bytes) : (p.before r).before r' = p.before r' := rfl

theorem before_self (hp : p.Inside) : p.before p.rest = p := by
  have hpos : p.data.length - p.rest.length = p.pos := by
    have := hp.1
    rw [rest_length]
    omega
  rw [before, hpos]

/-- A step over `n` bytes. -/
theorem step_eq {n : Nat} (hp : p.pos + n ≤ p.data.length) :
    { p with pos := p.pos + n } = p.before (p.rest.drop n) := by
  have hpos : p.data.length - (p.rest.drop n).length = p.pos + n := by
    rw [List.length_drop, rest_length]
    omega
  rw [before, hpos]

theorem subslice_rest {n : Nat} (hp : p.pos + n ≤ p.data.length) :
    subslice p.data p.pos (p.pos + n) = .ok (p.rest.take n) := by
  rw [subslice, if_pos ⟨Nat.le_add_right _ _, hp⟩, List.drop_take, Nat.add_sub_cancel_left]
  rfl

theorem checkedAdd_ok {a b : Nat} (h : a + b < 2 ^ 64) : checkedAdd a b = .ok (a + b) := if_pos h

theorem minus_ok {a b : Nat} (h : b ≤ a) : minus a b = .ok (a - b) := if_pos h

theorem readByte_eq (hp : p.Inside) :
    p.readByte = match p.rest with
      | [] => .error (.error .truncated)
      | b :: tail => .ok (b, p.before tail) := by
  have hlen := p.rest_length
  have hget : p.data[p.pos]? = p.rest[0]? := by rw [rest, List.getElem?_drop, Nat.add_zero]
  obtain ⟨hpos, hbound⟩ := hp
  unfold readByte
  cases hrest : p.rest with
  | nil =>
    rw [hrest, List.length_nil] at hlen
    rw [if_pos (by omega)]
    rfl
  | cons b tail =>
    rw [hrest, List.length_cons] at hlen
    rw [hrest] at hget
    have hindex : index p.data p.pos = .ok b := by
      rw [index, hget]
      rfl
    have hstep := step_eq (p := p) (n := 1) (by omega)
    rw [hrest] at hstep
    have hplus : plus 64 p.pos 1 = .ok (p.pos + 1) := if_pos (by omega)
    rw [if_neg (by omega)]
    simp only [hindex, hplus, bind, Except.bind, pure, Except.pure]
    rw [hstep]
    rfl

theorem readUint8_eq (hp : p.Inside) : p.readUint8 = p.follow (readWide 1 24 p.rest) := by
  have hlen := p.rest_length
  obtain ⟨hpos, hbound⟩ := hp
  simp only [readUint8, checkedAdd_ok (by omega : p.pos + 1 < 2 ^ 64), bind, Except.bind]
  by_cases hshort : p.pos + 1 > p.data.length
  · rw [if_pos hshort, readWide, if_pos (by omega)]
    rfl
  · have hget : p.data[p.pos]? = p.rest[0]? := by rw [rest, List.getElem?_drop, Nat.add_zero]
    have hstep := step_eq (p := p) (n := 1) (by omega)
    cases hrest : p.rest with
    | nil =>
      rw [hrest, List.length_nil] at hlen
      omega
    | cons b tail =>
      rw [hrest] at hget hstep
      have hindex : index p.data p.pos = .ok b := by
        rw [index, hget]
        rfl
      have hval : beNat ((b :: tail).take 1) = b.toNat := by simp [beNat]
      rw [if_neg hshort, readWide, if_neg (by rw [List.length_cons]; omega), hval]
      simp only [minus_ok (by omega : 1 ≤ p.pos + 1), Nat.add_sub_cancel, hindex]
      split
      · rfl
      · rw [hstep]
        rfl

theorem readUintWide_eq (hp : p.Inside) {width : Nat} (hwidth : width ≤ 8) (least : Nat) :
    p.readUintWide width least = p.follow (readWide width least p.rest) := by
  have hlen := p.rest_length
  obtain ⟨hpos, hbound⟩ := hp
  simp only [readUintWide, checkedAdd_ok (by omega : p.pos + width < 2 ^ 64), bind, Except.bind]
  by_cases hshort : p.pos + width > p.data.length
  · rw [if_pos hshort, readWide, if_pos (by omega)]
    rfl
  · have hstep := step_eq (p := p) (n := width) (by omega)
    have hslice := subslice_rest (p := p) (n := width) (by omega)
    have htake : (p.rest.take width).length = width := by
      rw [List.length_take]
      omega
    have harray : unwrapArray width (p.rest.take width) = .ok ⟨p.rest.take width, htake⟩ :=
      dif_pos htake
    rw [if_neg hshort, readWide, if_neg (by omega)]
    simp only [minus_ok (by omega : width ≤ p.pos + width), Nat.add_sub_cancel, hslice, harray]
    split
    · rfl
    · rw [hstep]
      rfl

/-- **A length is read as the reader reads it.** -/
theorem readUint_eq (hp : p.Inside) (additional : Nat) :
    p.readUint additional = p.follow (SteadQ.readUint additional p.rest) := by
  unfold readUint SteadQ.readUint
  split
  · rw [follow, before_self hp]
  split
  · exact readUint8_eq hp
  split
  · exact readUintWide_eq hp (by decide) _
  split
  · exact readUintWide_eq hp (by decide) _
  split
  · exact readUintWide_eq hp (by decide) _
  split <;> rfl

theorem readUint_suffix {additional len : Nat} {input r : Bytes}
    (h : SteadQ.readUint additional input = .ok (len, r)) : r <:+ input := by
  have henc := (encodeHeader_of_readUint h 0).2
  cases hhead : encodeHeader 0 len with
  | nil => exact absurd hhead (encodeHeader_ne_nil 0 len)
  | cons b tail =>
    rw [hhead, List.cons_append] at henc
    exact ⟨tail, (List.cons.inj henc).2.symm⟩

theorem readString_eq (hp : p.Inside) (additional : Nat) :
    p.readString additional =
      p.follow (SteadQ.readString p.data.length additional p.rest) := by
  unfold readString SteadQ.readString
  rw [readUint_eq hp]
  cases hread : SteadQ.readUint additional p.rest with
  | error e => rfl
  | ok r =>
    obtain ⟨len, r⟩ := r
    have hr : r <:+ p.data := (readUint_suffix hread).trans p.rest_suffix
    have hrlen := hr.length_le
    have hpos : (p.before r).pos = p.data.length - r.length := rfl
    have hdata : (p.before r).data = p.data := rfl
    simp only [follow, bind, Except.bind, hpos, hdata]
    by_cases hover : p.data.length - r.length + len ≥ 2 ^ 64
    · rw [checkedAdd, if_neg (Nat.not_lt.mpr hover), if_pos hover]
      rfl
    rw [checkedAdd_ok (Nat.not_le.mp hover), if_neg hover]
    dsimp only
    by_cases hshort : r.length < len
    · rw [if_pos (by omega), if_pos hshort]
      rfl
    · have hin : (p.before r).pos + len ≤ (p.before r).data.length := by
        rw [hpos, hdata]
        omega
      have hslice := subslice_rest hin
      have hstep := step_eq hin
      rw [before_rest hr, hpos, hdata] at hslice
      rw [before_rest hr, hpos, before_before] at hstep
      rw [if_neg (by omega), if_neg hshort, hslice]
      exact congrArg (fun q => Except.ok (r.take len, q)) hstep

theorem readSimple_eq (hp : p.Inside) (additional : Nat) :
    p.readSimple additional = p.follow (SteadQ.readSimple additional p.rest) := by
  unfold readSimple SteadQ.readSimple
  split
  · rw [follow, before_self hp]
  split
  · rw [follow, before_self hp]
  split
  · rfl
  split
  · rfl
  split
  · rw [readByte_eq hp]
    cases p.rest <;> rfl
  split <;> rfl

/-- A reader that leaves a suffix, and a walk that follows it. -/
structure Mirrors (p : CborParser) (walk : CborParser → Except Stop (CborItem × CborParser))
    (reader : Bytes → Except CborError (CborItem × Bytes)) : Prop where
  follows : ∀ r, r <:+ p.data → walk (p.before r) = p.follow (reader r)
  suffix : ∀ r item r', reader r = .ok (item, r') → r' <:+ r

theorem readPairs_eq {walk : CborParser → Except Stop (CborItem × CborParser)}
    {reader : Bytes → Except CborError (CborItem × Bytes)} (hm : Mirrors p walk reader) (n : Nat)
    {r : Bytes} (hr : r <:+ p.data) :
    readPairs walk n (p.before r) = p.follow (SteadQ.readPairs reader n r) := by
  induction n generalizing r with
  | zero => rfl
  | succ n ih =>
    rw [readPairs, SteadQ.readPairs, hm.follows r hr]
    cases hkey : reader r with
    | error e => rfl
    | ok k =>
      obtain ⟨key, r₁⟩ := k
      have hr₁ := (hm.suffix r key r₁ hkey).trans hr
      show (walk (p.before r₁) >>= _) = p.follow (reader r₁ >>= _)
      rw [hm.follows r₁ hr₁]
      cases hval : reader r₁ with
      | error e => rfl
      | ok v =>
        obtain ⟨val, r₂⟩ := v
        have hr₂ := (hm.suffix r₁ val r₂ hval).trans hr₁
        show (readPairs walk n (p.before r₂) >>= _) = p.follow (SteadQ.readPairs reader n r₂ >>= _)
        rw [ih hr₂]
        cases SteadQ.readPairs reader n r₂ <;> rfl

theorem major_eq (b : UInt8) : (b >>> 5).toNat = b.toNat / 32 := by
  rw [UInt8.toNat_shiftRight, Nat.shiftRight_eq_div_pow]
  rfl

theorem additional_eq (b : UInt8) : (b &&& 0x1f).toNat = b.toNat % 32 := by
  rw [UInt8.toNat_and]
  exact Nat.and_two_pow_sub_one_eq_mod b.toNat 5

/-- **An item is read as the reader reads it**, and the depth is given back. -/
theorem readItem_eq {levels fuel : Nat} (hp : p.Inside) (hdepth : p.depth + levels = 3)
    (hfuel : levels < fuel) :
    p.readItem fuel = p.follow (SteadQ.readItem p.data.length levels p.rest) := by
  induction levels generalizing p fuel with
  | zero =>
    obtain ⟨fuel, rfl⟩ : ∃ n, fuel = n + 1 := ⟨fuel - 1, by omega⟩
    rw [readItem, if_pos (by omega)]
    rfl
  | succ levels ih =>
    obtain ⟨fuel, rfl⟩ : ∃ n, fuel = n + 1 := ⟨fuel - 1, by omega⟩
    rw [readItem, if_neg (by omega), readByte_eq hp]
    cases hrest : p.rest with
    | nil => rfl
    | cons initial input =>
      have hin : input <:+ p.data := by
        refine List.IsSuffix.trans ?_ p.rest_suffix
        rw [hrest]
        exact List.suffix_cons _ _
      have hq := hp.before input
      have hqrest := before_rest hin
      have huint (additional : Nat) :
          (p.before input).readUint additional =
            p.follow (SteadQ.readUint additional input) := by
        rw [readUint_eq hq, hqrest]
        rfl
      have hstring (additional : Nat) :
          (p.before input).readString additional =
            p.follow (SteadQ.readString p.data.length additional input) := by
        rw [readString_eq hq, hqrest]
        rfl
      rw [SteadQ.readItem]
      simp only [bind, Except.bind, major_eq, additional_eq, huint, hstring]
      split
      · cases SteadQ.readUint (initial.toNat % 32) input <;> rfl
      split
      · cases SteadQ.readUint (initial.toNat % 32) input with
        | error e => rfl
        | ok r =>
          dsimp only [follow]
          split <;> rfl
      split
      · cases SteadQ.readString p.data.length (initial.toNat % 32) input <;> rfl
      split
      · cases SteadQ.readString p.data.length (initial.toNat % 32) input with
        | error e => rfl
        | ok r =>
          dsimp only [follow]
          split <;> rfl
      split
      · -- the entries are read one level further down
        let q : CborParser := { p with depth := p.depth + 1 }
        have hplus : plus 32 (p.before input).depth 1 = .ok (p.depth + 1) :=
          if_pos (by show p.depth + 1 < 2 ^ 32; omega)
        have hdeep (additional : Nat) :
            { p.before input with depth := p.depth + 1 }.readUint additional =
              q.follow (SteadQ.readUint additional input) := by
          show (q.before input).readUint additional = _
          rw [readUint_eq (p := q.before input) hq, before_rest (p := q) hin]
          rfl
        have hmirrors : Mirrors q (readItem fuel) (SteadQ.readItem p.data.length levels) := by
          refine ⟨fun r hr => ?_, fun r item r' h => ?_⟩
          · have h := ih (p := q.before r) (hp.before r)
              (by show p.depth + 1 + levels = 3; omega) (Nat.lt_of_succ_lt_succ hfuel)
            rw [before_rest (p := q) hr] at h
            exact h
          · exact ⟨item.encode, (encode_of_readItem h).2.symm⟩
        simp only [hplus, hdeep]
        cases hread : SteadQ.readUint (initial.toNat % 32) input with
        | error e => rfl
        | ok r =>
          obtain ⟨len, r⟩ := r
          have hr : r <:+ q.data := (readUint_suffix hread).trans hin
          have hminus : minus (q.before r).data.length (q.before r).pos = .ok r.length := by
            have hle : r.length ≤ p.data.length := hr.length_le
            show minus p.data.length (p.data.length - r.length) = _
            rw [minus_ok (Nat.sub_le _ _), Nat.sub_sub_self hle]
          simp only [follow, hminus]
          split
          · rfl
          split
          · rfl
          rw [readPairs_eq hmirrors len hr]
          cases SteadQ.readPairs (SteadQ.readItem p.data.length levels) len r with
          | error e => rfl
          | ok items => rfl
      split
      · rfl
      split
      · rw [readSimple_eq hq, hqrest]
        rfl
      · rfl

end Walk

/-! ## 5. No panic -/

theorem validateMetadataKey_eq (key : Bytes) :
    validateMetadataKey key = ofResult (SteadQ.validateMetadataKey key) := by
  cases key with
  | nil => rfl
  | cons first rest =>
    simp only [validateMetadataKey, SteadQ.validateMetadataKey, reduceCtorEq, false_or]
    split
    · rfl
    · have hslice : subslice (first :: rest) 1 (first :: rest).length = .ok rest := by
        rw [subslice, if_pos ⟨by simp, Nat.le_refl _⟩, List.take_length]
        rfl
      simp only [index, List.getElem?_cons_zero, hslice, bind, Except.bind]
      split
      · rfl
      split <;> rfl

theorem metadataKeys_eq (seen : List Str) (items : List (CborItem × CborItem)) :
    metadataKeys seen items = ofResult (SteadQ.metadataKeys seen items) := by
  induction items generalizing seen with
  | nil => rfl
  | cons entry items ih =>
    obtain ⟨key, val⟩ := entry
    cases key with
    | text key =>
      rw [metadataKeys, SteadQ.metadataKeys, ofResult_bind, validateMetadataKey_eq]
      refine congrArg _ (funext fun _ => ?_)
      split
      · rfl
      · rw [ih]
        cases SteadQ.metadataKeys (key :: seen) items <;> rfl
    | uint _ | nint _ | bytes _ | bool _ | map _ => rfl

theorem metadataValue_eq (item : CborItem) :
    metadataValue item = ofResult (SteadQ.metadataValue item) := by
  cases item with
  | nint v =>
    simp only [metadataValue, SteadQ.metadataValue]
    split
    · rfl
    · rw [minusI64, if_pos (by omega)]
      rfl
  | uint _ | bytes _ | text _ | bool _ | map _ => rfl

theorem insertMetadata_eq (m : Metadata) (l : List (Str × CborItem)) :
    insertMetadata m l = ofResult (SteadQ.insertMetadata m l) := by
  induction l generalizing m with
  | nil => rfl
  | cons e l ih =>
    rw [insertMetadata, SteadQ.insertMetadata, ofResult_bind, metadataValue_eq]
    exact congrArg _ (funext fun v => ih _)

theorem decodeMetadata_eq (items : List (CborItem × CborItem)) :
    decodeMetadata items = ofResult (SteadQ.decodeMetadata items) := by
  unfold decodeMetadata SteadQ.decodeMetadata
  split
  · rfl
  · show (_ >>= _) = ofResult (_ >>= _)
    rw [ofResult_bind, metadataKeys_eq]
    refine congrArg _ (funext fun entries => ?_)
    rw [ofResult_bind]
    exact congrArg _ (funext fun _ => insertMetadata_eq _ _)

theorem decodeEntry_eq (ext : ExtensionHeader) (key : Nat) (val : CborItem) :
    decodeEntry ext key val = ofResult (SteadQ.decodeEntry ext key val) := by
  unfold decodeEntry
  split
  · rw [SteadQ.decodeEntry, ofResult_bind, decodeMetadata_eq]
    rfl
  · rfl

theorem decodeEntries_eq (ext : ExtensionHeader) (seen : List Nat) (previous : Option Nat)
    (items : List (CborItem × CborItem)) :
    decodeEntries ext seen previous items =
      ofResult (SteadQ.decodeEntries ext seen previous items) := by
  induction items generalizing ext seen previous with
  | nil => rfl
  | cons entry items ih =>
    obtain ⟨key, val⟩ := entry
    cases key with
    | uint key =>
      have hbind : (decodeEntry ext key val >>= fun ext =>
          decodeEntries ext (key :: seen) (some key) items) =
          ofResult (SteadQ.decodeEntry ext key val >>= fun ext =>
            SteadQ.decodeEntries ext (key :: seen) (some key) items) := by
        rw [ofResult_bind, decodeEntry_eq]
        exact congrArg _ (funext fun ext => ih ext _ _)
      rw [decodeEntries, SteadQ.decodeEntries]
      split
      · rfl
      · cases previous with
        | none => exact hbind
        | some p =>
          dsimp only
          split
          · rfl
          · exact hbind
    | nint _ | bytes _ | text _ | bool _ | map _ => rfl

/-- **The walk decodes what the reader decodes**; it never panics, and four levels of recursion
    are enough. -/
theorem decode_eq (input : Bytes) : decode input = ofResult (ExtensionHeader.decode input) := by
  unfold decode ExtensionHeader.decode
  split
  · rfl
  rename_i hlen
  have hlen' : input.length < 2 ^ 63 := by
    simp only [maxExtensionSize] at hlen
    omega
  have hitem : readItem 4 ⟨input, 0, 0⟩ =
      (⟨input, 0, 0⟩ : CborParser).follow (SteadQ.readItem input.length 3 input) :=
    readItem_eq ⟨Nat.zero_le _, hlen'⟩ rfl (by decide)
  simp only [decodeExtension, hitem, bind, Except.bind]
  cases hread : SteadQ.readItem input.length 3 input with
  | error e => rfl
  | ok r =>
    obtain ⟨top, r⟩ := r
    have hr : r.length ≤ input.length := by
      rw [(encode_of_readItem hread).2, List.length_append]
      omega
    cases top with
    | map items =>
      simp only [follow, decodeEntries_eq]
      cases SteadQ.decodeEntries .empty [] none items with
      | error e => rfl
      | ok ext =>
        -- nothing is left exactly when the walk is at the end
        have hend : (before ⟨input, 0, 0⟩ r).pos ≠ input.length ↔ r ≠ [] := by
          show input.length - r.length ≠ input.length ↔ _
          rw [← List.length_pos_iff_ne_nil]
          omega
        by_cases hct : ext.contentType.bytes = []
        · simp only [ofResult, if_pos hct]
          rfl
        · simp only [ofResult, if_neg hct, pure, Except.pure]
          by_cases hleft : r ≠ []
          · rw [if_pos (hend.mpr hleft), if_pos hleft]
            rfl
          · rw [if_neg (mt hend.mp hleft), if_neg hleft]
    | uint _ | nint _ | bytes _ | text _ | bool _ => rfl

end CborParser

end SteadQ
