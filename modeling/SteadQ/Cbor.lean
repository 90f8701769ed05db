/-
  File:      SteadQ/Cbor.lean
  Subject:   THE EXTENSION HEADER, deterministic CBOR (`cbor.rs` of the format crate).

  A string is its bytes, which `isUtf8` accepts (`Str`). Metadata is a map in key order. What is
  read from an input is the rest of it; the position is the length of what is gone.
-/
import SteadQ.Format
import SteadQ.Lib.OrdMap

namespace SteadQ

open Octet

/-! ## 1. Data -/

def maxExtensionSize : Nat := 65536
def maxMetadataEntries : Nat := 256
def maxTextValue : Nat := 4096
def maxBytesValue : Nat := 4096
def maxContentTypeLen : Nat := 255
def maxProducerIdLen : Nat := 255
def maxTraceContextLen : Nat := 1024

/-- Continuation bytes of a UTF-8 sequence lie in `lo ..= hi`. -/
def inRange (b lo hi : UInt8) : Bool := lo ≤ b ∧ b ≤ hi

/-- `std::str::from_utf8`. -/
def isUtf8 : Bytes → Bool
  | [] => true
  | a :: s =>
    if a < 128 then isUtf8 s
    else match s with
      | [] => false
      | b :: s' =>
        if inRange a 194 223 then inRange b 128 191 && isUtf8 s'
        else match s' with
          | [] => false
          | c :: s'' =>
            if inRange a 224 239 then
              (if a = 224 then inRange b 160 191
               else if a = 237 then inRange b 128 159 else inRange b 128 191) &&
              inRange c 128 191 && isUtf8 s''
            else match s'' with
              | [] => false
              | d :: s''' =>
                (if a = 240 then inRange b 144 191
                 else if a = 244 then inRange b 128 143
                 else inRange a 241 243 && inRange b 128 191) &&
                inRange c 128 191 && inRange d 128 191 && isUtf8 s'''

/-- A string. -/
structure Str where
  bytes : Bytes
  utf8 : isUtf8 bytes = true
  deriving DecidableEq

instance : LT Str := ⟨fun a b => a.bytes < b.bytes⟩
instance : LE Str := ⟨fun a b => a.bytes ≤ b.bytes⟩
instance : DecidableLT Str := fun a b => inferInstanceAs (Decidable (a.bytes < b.bytes))

theorem Str.ext {a b : Str} (h : a.bytes = b.bytes) : a = b := by
  cases a
  cases b
  cases h
  rfl

/-- Strings are ordered by their bytes. -/
instance : Std.IsLinearOrder Str where
  le_refl := fun a => Std.le_refl a.bytes
  le_trans := fun _ _ _ h h' => Std.le_trans (α := Bytes) h h'
  le_antisymm := fun _ _ h h' => Str.ext (Std.le_antisymm (α := Bytes) h h')
  le_total := fun a b => Std.le_total (a := a.bytes) (b := b.bytes)

instance : Std.LawfulOrderLT Str where
  lt_iff := fun a b => Std.lt_iff_le_and_not_ge (a := a.bytes) (b := b.bytes)

inductive MetadataValue where
  | bool (b : Bool)
  | i64 (n : Int64)
  | u64 (n : UInt64)
  | text (s : Str)
  | bytes (b : Bytes)
  deriving DecidableEq

abbrev Metadata := OrdMap Str MetadataValue

structure ExtensionHeader where
  initialNotBeforeUnixNs : Option UInt64
  contentType : Str
  metadata : Metadata
  producerId : Option Str
  traceContext : Option Bytes

inductive CborError where
  | tooLarge
  | tooManyEntries
  | contentTypeTooLong
  | producerIdTooLong
  | traceContextTooLong
  | textTooLong
  | bytesTooLong
  | invalidKey (key : Bytes)
  | nonStringKey
  | duplicateMetadataKey (key : Bytes)
  | keysNotCanonical (key : Bytes)
  | invalidContentType
  | producerIdNul
  | truncated
  | invalidMajorType (t : Nat)
  | invalidSimpleValue (v : Nat)
  | unexpectedTag (t : Nat)
  | indefiniteLength
  | floatNotAllowed
  | nullNotAllowed
  | undefinedNotAllowed
  | nestingTooDeep
  | unknownKey (k : Nat)
  | duplicateKey (k : Nat)
  | missingContentType
  | invalidUtf8
  | trailingBytes
  | intOverflow
  deriving DecidableEq

/-- A text in a message. -/
def shown (b : Bytes) : String := String.ofList (b.map fun x => Char.ofNat x.toNat)

def CborError.text : CborError → String
  | .tooLarge => "extension exceeds max size"
  | .tooManyEntries => "metadata exceeds max entries"
  | .contentTypeTooLong => "content type too long"
  | .producerIdTooLong => "producer_id too long"
  | .traceContextTooLong => "trace_context too long"
  | .textTooLong => "text value too long"
  | .bytesTooLong => "bytes value too long"
  | .invalidKey key => "invalid metadata key: " ++ shown key
  | .nonStringKey => "invalid metadata key: non-string"
  | .duplicateMetadataKey key => "invalid metadata key: duplicate metadata key: " ++ shown key
  | .keysNotCanonical key =>
    "invalid metadata key: metadata keys not in canonical order: " ++ shown key
  | .invalidContentType => "content type contains invalid ASCII"
  | .producerIdNul => "producer_id contains NUL"
  | .truncated => "truncated input"
  | .invalidMajorType t => "invalid major type " ++ toString t
  | .invalidSimpleValue v => "invalid simple value " ++ toString v
  | .unexpectedTag t => "unexpected tag " ++ toString t
  | .indefiniteLength => "indefinite length not allowed"
  | .floatNotAllowed => "float not allowed"
  | .nullNotAllowed => "null not allowed"
  | .undefinedNotAllowed => "undefined not allowed"
  | .nestingTooDeep => "nesting too deep"
  | .unknownKey k => "unknown protocol key " ++ toString k
  | .duplicateKey k => "duplicate key " ++ toString k
  | .missingContentType => "content_type is required"
  | .invalidUtf8 => "invalid UTF-8"
  | .trailingBytes => "trailing bytes"
  | .intOverflow => "integer overflow"

/-! ## 2. Encoding -/

/-- The initial byte of major type `major` with additional information `info`. -/
def initialByte (major info : Nat) : UInt8 := UInt8.ofNat (major * 32 + info)

def encodeHeader (major value : Nat) : Bytes :=
  if value < 24 then [initialByte major value]
  else if value < 256 then initialByte major 24 :: beBytes 1 value
  else if value < 65536 then initialByte major 25 :: beBytes 2 value
  else if value < 4294967296 then initialByte major 26 :: beBytes 4 value
  else initialByte major 27 :: beBytes 8 value

def encodeTextString (s : Bytes) : Bytes := encodeHeader 3 s.length ++ s
def encodeByteString (b : Bytes) : Bytes := encodeHeader 2 b.length ++ b

def isLowerOrDigit (b : UInt8) : Bool := (97 ≤ b ∧ b ≤ 122) ∨ (48 ≤ b ∧ b ≤ 57)

def validateMetadataKey (key : Bytes) : Except CborError Unit :=
  match key with
  | [] => .error (.invalidKey key)
  | first :: rest =>
    if key.length > 64 then .error (.invalidKey key)
    else if ¬ isLowerOrDigit first then .error (.invalidKey key)
    else if rest.all fun b => isLowerOrDigit b ∨ b = 46 ∨ b = 95 ∨ b = 45 then .ok ()
    else .error (.invalidKey key)

def validateContentType (s : Bytes) : Except CborError Unit :=
  if s = [] ∨ s.length > maxContentTypeLen then .error .contentTypeTooLong
  else if s.all fun b => 32 ≤ b ∧ b ≤ 126 then .ok ()
  else .error .invalidContentType

def MetadataValue.validate : MetadataValue → Except CborError Unit
  | .text s => if s.bytes.length > maxTextValue then .error .textTooLong else .ok ()
  | .bytes b => if b.length > maxBytesValue then .error .bytesTooLong else .ok ()
  | _ => .ok ()

def MetadataValue.encode : MetadataValue → Bytes
  | .bool false => [244]
  | .bool true => [245]
  | .u64 n => encodeHeader 0 n.toNat
  | .i64 n => if 0 ≤ n.toInt then encodeHeader 0 n.toInt.toNat
              else encodeHeader 1 (-1 - n.toInt).toNat
  | .text s => encodeTextString s.bytes
  | .bytes b => encodeByteString b

/-- The entries of a map in the order of their encoded keys. -/
def Metadata.encodedOrder (m : Metadata) : List (Str × MetadataValue) :=
  m.entries.insertionSort fun a b => encodeTextString a.1.bytes ≤ encodeTextString b.1.bytes

namespace ExtensionHeader

def validate (h : ExtensionHeader) : Except CborError Unit := do
  validateContentType h.contentType.bytes
  if h.metadata.entries.length > maxMetadataEntries then throw .tooManyEntries
  h.metadata.entries.forM fun (k, v) => do
    validateMetadataKey k.bytes
    v.validate
  match h.producerId with
  | some pid =>
    if pid.bytes.length > maxProducerIdLen then throw .producerIdTooLong
    else if 0 ∈ pid.bytes then throw .producerIdNul
  | none => pure ()
  match h.traceContext with
  | some tc => if tc.length > maxTraceContextLen then throw .traceContextTooLong
  | none => pure ()

/-- The entries of the top-level map, in ascending key order. -/
def encodedEntries (h : ExtensionHeader) : List Bytes :=
  (h.initialNotBeforeUnixNs.map fun ns => encodeHeader 0 1 ++ encodeHeader 0 ns.toNat).toList ++
  [encodeHeader 0 2 ++ encodeTextString h.contentType.bytes] ++
  (if h.metadata.entries = [] then [] else
    [encodeHeader 0 3 ++ encodeHeader 5 h.metadata.entries.length ++
      h.metadata.encodedOrder.flatMap fun (k, v) => encodeTextString k.bytes ++ v.encode]) ++
  (h.producerId.map fun pid => encodeHeader 0 4 ++ encodeTextString pid.bytes).toList ++
  (h.traceContext.map fun tc => encodeHeader 0 5 ++ encodeByteString tc).toList

def encode (h : ExtensionHeader) : Except CborError Bytes := do
  h.validate
  let buf := encodeHeader 5 h.encodedEntries.length ++ h.encodedEntries.flatten
  if buf.length > maxExtensionSize then throw .tooLarge
  return buf

end ExtensionHeader

/-! ## 3. Decoding -/

inductive CborItem where
  | uint (v : Nat)
  | nint (v : Nat)
  | bytes (b : Bytes)
  | text (s : Str)
  | bool (b : Bool)
  | map (items : List (CborItem × CborItem))

/-- The value of `width` big-endian bytes; `least` is the smallest value that needs them. -/
def readWide (width least : Nat) (input : Bytes) : Except CborError (Nat × Bytes) :=
  if input.length < width then .error .truncated
  else
    let v := beNat (input.take width)
    if v < least then .error .intOverflow else .ok (v, input.drop width)

def readUint (additional : Nat) (input : Bytes) : Except CborError (Nat × Bytes) :=
  if additional < 24 then .ok (additional, input)
  else if additional = 24 then readWide 1 24 input
  else if additional = 25 then readWide 2 256 input
  else if additional = 26 then readWide 4 65536 input
  else if additional = 27 then readWide 8 4294967296 input
  else if additional = 31 then .error .indefiniteLength
  else .error (.invalidMajorType additional)

/-- The bytes of a string; `total` is the length of the whole input. -/
def readString (total additional : Nat) (input : Bytes) : Except CborError (Bytes × Bytes) := do
  let (len, rest) ← readUint additional input
  -- `pos.checked_add(len)`
  if total - rest.length + len ≥ 2 ^ 64 then throw .intOverflow
  if rest.length < len then throw .truncated
  return (rest.take len, rest.drop len)

/-- `n` keys and values, read by `item`. -/
def readPairs (item : Bytes → Except CborError (CborItem × Bytes)) :
    Nat → Bytes → Except CborError (List (CborItem × CborItem) × Bytes)
  | 0, input => .ok ([], input)
  | n + 1, input => do
    let (key, rest) ← item input
    let (val, rest) ← item rest
    let (items, rest) ← readPairs item n rest
    return ((key, val) :: items, rest)

def readSimple (additional : Nat) (rest : Bytes) : Except CborError (CborItem × Bytes) :=
  if additional = 20 then .ok (.bool false, rest)
  else if additional = 21 then .ok (.bool true, rest)
  else if additional = 22 then .error .nullNotAllowed
  else if additional = 23 then .error .undefinedNotAllowed
  else if additional = 24 then
    match rest with
    | [] => .error .truncated
    | sv :: _ => .error (.invalidSimpleValue sv.toNat)
  else if 25 ≤ additional ∧ additional ≤ 27 then .error .floatNotAllowed
  else .error (.invalidSimpleValue additional)

/-- One item of an input of length `total`; `levels` is how many maps may still be entered, plus
    one. -/
def readItem (total : Nat) : Nat → Bytes → Except CborError (CborItem × Bytes)
  | 0, _ => .error .nestingTooDeep
  | _, [] => .error .truncated
  | levels + 1, initial :: input => do
    let major := initial.toNat / 32
    let additional := initial.toNat % 32
    if major = 0 then
      let (v, rest) ← readUint additional input
      return (.uint v, rest)
    else if major = 1 then
      let (v, rest) ← readUint additional input
      if v > 2 ^ 63 - 1 then throw .intOverflow
      return (.nint v, rest)
    else if major = 2 then
      let (b, rest) ← readString total additional input
      return (.bytes b, rest)
    else if major = 3 then
      let (s, rest) ← readString total additional input
      if h : isUtf8 s = true then return (.text ⟨s, h⟩, rest)
      else throw .invalidUtf8
    else if major = 5 then
      let (len, rest) ← readUint additional input
      if len > rest.length / 2 then throw .truncated
      if len > maxMetadataEntries * 8 then throw .tooManyEntries
      let (items, rest) ← readPairs (readItem total levels) len rest
      return (.map items, rest)
    else if major = 6 then throw (.unexpectedTag additional)
    else if major = 7 then readSimple additional input
    else throw (.invalidMajorType major)

/-- The text keys of a metadata map, each valid and new. -/
def metadataKeys (seen : List Str) :
    List (CborItem × CborItem) → Except CborError (List (Str × CborItem))
  | [] => .ok []
  | (.text mk, mv) :: rest => do
    validateMetadataKey mk.bytes
    if mk ∈ seen then throw (.duplicateMetadataKey mk.bytes)
    let items ← metadataKeys (mk :: seen) rest
    return (mk, mv) :: items
  | _ => .error .nonStringKey

/-- Metadata keys arrive in the order of their encodings. -/
def metadataOrder (previous : Option Bytes) : List Str → Except CborError Unit
  | [] => .ok ()
  | mk :: rest =>
    match previous with
    | none => metadataOrder (some (encodeTextString mk.bytes)) rest
    | some p =>
      if encodeTextString mk.bytes ≤ p then .error (.keysNotCanonical mk.bytes)
      else metadataOrder (some (encodeTextString mk.bytes)) rest

def metadataValue : CborItem → Except CborError MetadataValue
  | .bool b => .ok (.bool b)
  | .uint v => .ok (.u64 (UInt64.ofNat v))
  | .nint v => if v > 2 ^ 63 - 1 then .error .intOverflow else .ok (.i64 (Int64.ofInt (-1 - v)))
  | .text s => if s.bytes.length > maxTextValue then .error .textTooLong else .ok (.text s)
  | .bytes b => if b.length > maxBytesValue then .error .bytesTooLong else .ok (.bytes b)
  | .map _ => .error (.invalidMajorType 5)

def insertMetadata (m : Metadata) : List (Str × CborItem) → Except CborError Metadata
  | [] => .ok m
  | (mk, item) :: rest => do
    let v ← metadataValue item
    insertMetadata (m.insert mk v) rest

def decodeMetadata (items : List (CborItem × CborItem)) : Except CborError Metadata := do
  if items.length > maxMetadataEntries then throw .tooManyEntries
  let entries ← metadataKeys [] items
  metadataOrder none (entries.map (·.1))
  insertMetadata .empty entries

/-- Store the value of one top-level key. -/
def decodeEntry (ext : ExtensionHeader) (key : Nat) (val : CborItem) :
    Except CborError ExtensionHeader :=
  match key, val with
  | 1, .uint v => .ok { ext with initialNotBeforeUnixNs := some (UInt64.ofNat v) }
  | 2, .text ct => do
    validateContentType ct.bytes
    return { ext with contentType := ct }
  | 3, .map items => do
    let metadata ← decodeMetadata items
    return { ext with metadata := metadata }
  | 4, .text pid =>
    if 0 ∈ pid.bytes then .error .producerIdNul
    else if pid.bytes.length > maxProducerIdLen then .error .producerIdTooLong
    else .ok { ext with producerId := some pid }
  | 5, .bytes tc =>
    if tc.length > maxTraceContextLen then .error .traceContextTooLong
    else .ok { ext with traceContext := some tc }
  | key, _ =>
    if 1 ≤ key ∧ key ≤ 5 then .error (.invalidMajorType 0) else .error (.unknownKey key)

/-- The entries of the top-level map; keys are new and ascend. -/
def decodeEntries (ext : ExtensionHeader) (seen : List Nat) (previous : Option Nat) :
    List (CborItem × CborItem) → Except CborError ExtensionHeader
  | [] => .ok ext
  | (.uint key, val) :: rest => do
    if key ∈ seen then throw (.duplicateKey key)
    match previous with
    | some p => if key < p then throw (.duplicateKey key)
    | none => pure ()
    let ext ← decodeEntry ext key val
    decodeEntries ext (key :: seen) (some key) rest
  | _ => .error (.unknownKey 0)

namespace ExtensionHeader

def empty : ExtensionHeader := ⟨none, ⟨[], rfl⟩, .empty, none, none⟩

def decode (input : Bytes) : Except CborError ExtensionHeader := do
  if input.length > maxExtensionSize then throw .tooLarge
  let (top, rest) ← readItem input.length 3 input
  match top with
  | .map items => do
    let ext ← decodeEntries empty [] none items
    if ext.contentType.bytes = [] then throw .missingContentType
    if rest ≠ [] then throw .trailingBytes
    return ext
  | _ => throw (.invalidMajorType 0)

end ExtensionHeader

example : (ExtensionHeader.mk none ⟨ascii "a/b", rfl⟩ .empty none none).encode =
    .ok ([161, 2, 99] ++ ascii "a/b") := by decide

example : ((ExtensionHeader.decode ([161, 2, 99] ++ ascii "a/b")).toOption.map (·.contentType.bytes)) =
    some (ascii "a/b") := by decide

end SteadQ
