/-
  File:      SteadQ/Names.lean
  Subject:   CANONICAL FILE NAMES (crate `steadq-names`): writers, tags, shards and parsers.

  A name is a byte string of dot-separated fields. Every writer of a state goes through one
  builder (`taggedFilename`) and every parser through one splitter (`parseParts`), so the round
  trips are instances of one lemma.
-/
import Mathlib.Data.List.Infix
import SteadQ.Lib.Sha256

namespace SteadQ

open Octet

/-- A path component. -/
abbrev Name := Bytes

/-! ## 1. Numbers in names -/

def hexU64 (v : UInt64) : Bytes := hexEncode (beBytes 8 v.toNat)
def hexU32 (v : UInt32) : Bytes := hexEncode (beBytes 4 v.toNat)
def hexU16 (v : UInt16) : Bytes := hexEncode (beBytes 2 v.toNat)

def hexDecode16 (s : Bytes) : Option (Octets 16) := hexDecodeArray 16 s

def hexDecodeU64 (s : Bytes) : Option UInt64 :=
  (hexDecodeArray 8 s).map fun b => UInt64.ofNat (beNat b.1)

def hexDecodeU32 (s : Bytes) : Option UInt32 :=
  (hexDecodeArray 4 s).map fun b => UInt32.ofNat (beNat b.1)

def hexDecodeU16 (s : Bytes) : Option UInt16 :=
  (hexDecodeArray 2 s).map fun b => UInt16.ofNat (beNat b.1)

theorem hexDecode16_hex (b : Octets 16) : hexDecode16 (hexEncode b.1) = some b :=
  hexDecodeArray_hexEncode b

/-- The three integer widths share one argument: the big-endian bytes of a bounded number. -/
theorem hexDecodeArray_beBytes {w n : Nat} (h : n < 256 ^ w) :
    ∃ b : Octets w, hexDecodeArray w (hexEncode (beBytes w n)) = some b ∧ beNat b.1 = n :=
  ⟨⟨beBytes w n, beBytes_length w n⟩, hexDecodeArray_hexEncode ⟨beBytes w n, beBytes_length w n⟩,
    beNat_beBytes h⟩

theorem hexDecodeU64_hex (v : UInt64) : hexDecodeU64 (hexU64 v) = some v := by
  obtain ⟨b, hb, hn⟩ := hexDecodeArray_beBytes (w := 8) (n := v.toNat) v.toNat_lt
  simp [hexDecodeU64, hexU64, hb, hn]

theorem hexDecodeU32_hex (v : UInt32) : hexDecodeU32 (hexU32 v) = some v := by
  obtain ⟨b, hb, hn⟩ := hexDecodeArray_beBytes (w := 4) (n := v.toNat) v.toNat_lt
  simp [hexDecodeU32, hexU32, hb, hn]

theorem hexDecodeU16_hex (v : UInt16) : hexDecodeU16 (hexU16 v) = some v := by
  obtain ⟨b, hb, hn⟩ := hexDecodeArray_beBytes (w := 2) (n := v.toNat) v.toNat_lt
  simp [hexDecodeU16, hexU16, hb, hn]

/-! ## 2. States, shards, buckets, boot ids -/

inductive State where
  | ready
  | leased
  | delayed
  | receipt
  | dead
  | quarantine
  deriving DecidableEq, Repr

def State.dirName : State → Name
  | .ready => ascii "ready"
  | .leased => ascii "leased"
  | .delayed => ascii "delayed"
  | .receipt => ascii "receipts"
  | .dead => ascii "dead"
  | .quarantine => ascii "quarantine"

theorem State.dirName_injective {s s' : State} (h : s.dirName = s'.dirName) : s = s' := by
  cases s <;> cases s' <;> first | rfl | exact absurd h (by decide)

/-- First 8 bytes of `SHA256("SteadQ-1-name\0" || queue_id || context)`. -/
def computeNameTag (queueId : Octets 16) (context : Bytes) : Octets 8 :=
  ⟨(sha256 (ascii "SteadQ-1-name" ++ [0] ++ queueId.1 ++ context)).1.take 8, by
    rw [List.length_take, (sha256 _).2]
    rfl⟩

/-- Trailing zero bits of `n`, of which at most `bits` are counted. -/
def trailingZeros : (bits n : Nat) → Nat
  | 0, _ => 0
  | bits + 1, n => if n % 2 = 0 then trailingZeros bits (n / 2) + 1 else 0

/-- The low `log2 shard_count` bits of the hash of the job id. -/
def computeShard (queueId jobId : Octets 16) (shardCount : UInt32) : UInt32 :=
  let val := beNat ((sha256 (ascii "SteadQ-1-shard" ++ [0] ++ queueId.1 ++ jobId.1)).1.take 4)
  UInt32.ofNat (val % 2 ^ trailingZeros 32 shardCount.toNat)

def shardHex (shard : UInt32) : Bytes := hexU16 (UInt16.ofNat shard.toNat)

def shardFromHex (s : Bytes) : Option UInt32 :=
  (hexDecodeU16 s).map fun v => UInt32.ofNat v.toNat

/-- Where a scan of the shards starts and by how much it steps. -/
def shardScanParams (queueId bootId workerNonce : Octets 16) (scanRound : UInt64)
    (shardCount : UInt32) : UInt32 × UInt32 :=
  let result := (sha256 (ascii "SteadQ-1-scan" ++ [0] ++ queueId.1 ++ bootId.1 ++ workerNonce.1 ++
    beBytes 8 scanRound.toNat)).1
  let mask : UInt64 := UInt64.ofNat (shardCount - 1).toNat
  let start := UInt64.ofNat (beNat (result.take 8)) &&& mask
  let stride := (UInt64.ofNat (beNat ((result.drop 8).take 8)) ||| 1) &&& mask
  (UInt32.ofNat start.toNat, UInt32.ofNat (if stride = 0 then 1 else stride.toNat))

/-- The i-th shard of a scan. -/
def shardAt (start stride i shardCount : UInt32) : UInt32 :=
  (start + stride * i) &&& (shardCount - 1)

def bucketHex (bucket : UInt64) : Bytes := hexU64 bucket
def bucketFromHex (s : Bytes) : Option UInt64 := hexDecodeU64 s

theorem bucketFromHex_bucketHex (b : UInt64) : bucketFromHex (bucketHex b) = some b :=
  hexDecodeU64_hex b

theorem bucketHex_injective {b b' : UInt64} (h : bucketHex b = bucketHex b') : b = b' := by
  have := bucketFromHex_bucketHex b
  rw [h, bucketFromHex_bucketHex b'] at this
  exact (Option.some.inj this).symm

/-- The canonical text of a boot id: groups of 8, 4, 4, 4 and 12 hex digits. -/
def formatBootId (bytes : Octets 16) : Bytes :=
  let h := hexEncode bytes.1
  h.take 8 ++ [45] ++ (h.drop 8).take 4 ++ [45] ++ (h.drop 12).take 4 ++ [45] ++
    (h.drop 16).take 4 ++ [45] ++ h.drop 20

def bootIdBytes (s : Bytes) : Option (Octets 16) :=
  if s.length ≠ 36 then none
  else if s[8]? ≠ some 45 ∨ s[13]? ≠ some 45 ∨ s[18]? ≠ some 45 ∨ s[23]? ≠ some 45 then none
  else hexDecode16 (s.take 8 ++ (s.drop 9).take 4 ++ (s.drop 14).take 4 ++
    (s.drop 19).take 4 ++ s.drop 24)

/-! ## 3. Writers -/

structure CommonFields where
  jobId : Octets 16
  generation : UInt64
  attempt : UInt32
  maximumAttempts : UInt32
  deriving DecidableEq

/-- A field: a one-letter label and hex digits. -/
def field (label : UInt8) (hex : Bytes) : Bytes := label :: hex

/-- The fields every state name starts with. -/
def CommonFields.baseParts (c : CommonFields) : List Bytes :=
  [hexEncode c.jobId.1, field 103 (hexU64 c.generation), field 97 (hexU32 c.attempt),
   field 109 (hexU32 c.maximumAttempts)]

def joinDots (parts : List Bytes) : Bytes := [(46 : UInt8)].intercalate parts

def taggedFilename (parts : List Bytes) (tag : Octets 8) (extension : Bytes) : Name :=
  joinDots (parts ++ [field 107 (hexEncode tag.1)]) ++ extension

/-- The name of `parts` whose tag authenticates the directory context in front of it. -/
def authenticatedFilename (queueId : Octets 16) (context : Bytes) (parts : List Bytes)
    (extension : Bytes) : Name :=
  taggedFilename parts (computeNameTag queueId (context ++ joinDots parts)) extension

def extSqj : Bytes := ascii ".sqj"
def extRct : Bytes := ascii ".rct"

def readyContext (shard : Bytes) : Bytes := ascii "ready/-/-/" ++ shard ++ ascii "/"

def leasedContext (bootId bucket shard : Bytes) : Bytes :=
  ascii "leased/" ++ bootId ++ ascii "/" ++ bucket ++ ascii "/" ++ shard ++ ascii "/"

def delayedContext (bucket shard : Bytes) : Bytes :=
  ascii "delayed/-/" ++ bucket ++ ascii "/" ++ shard ++ ascii "/"

def terminalContext (state : State) (bucket shard : Bytes) : Bytes :=
  state.dirName ++ ascii "/-/" ++ bucket ++ ascii "/" ++ shard ++ ascii "/"

def delayedParts (c : CommonFields) (notBeforeNs : UInt64) : List Bytes :=
  c.baseParts ++ [field 100 (hexU64 notBeforeNs)]

def deadParts (c : CommonFields) (reason : UInt16) : List Bytes :=
  c.baseParts ++ [field 120 (hexU16 reason)]

def receiptParts (c : CommonFields) (token : Octets 16) : List Bytes :=
  c.baseParts ++ [field 116 (hexEncode token.1)]

def leasedParts (c : CommonFields) (bootId : Octets 16) (boottimeDeadlineNs wallDeadlineNs : UInt64)
    (token : Octets 16) : List Bytes :=
  c.baseParts ++ [field 111 (hexEncode bootId.1), field 98 (hexU64 boottimeDeadlineNs),
    field 119 (hexU64 wallDeadlineNs), field 116 (hexEncode token.1)]

def makeReadyName (queueId : Octets 16) (shard : Bytes) (c : CommonFields) : Name :=
  authenticatedFilename queueId (readyContext shard) c.baseParts extSqj

def makeDelayedName (queueId : Octets 16) (bucket shard : Bytes) (c : CommonFields)
    (notBeforeNs : UInt64) : Name :=
  authenticatedFilename queueId (delayedContext bucket shard) (delayedParts c notBeforeNs) extSqj

def makeLeasedName (queueId : Octets 16) (bootId bucket shard : Bytes) (c : CommonFields)
    (boottimeDeadlineNs wallDeadlineNs : UInt64) (token : Octets 16) : Option Name := do
  let bootBytes ← bootIdBytes bootId
  some (authenticatedFilename queueId (leasedContext bootId bucket shard)
    (leasedParts c bootBytes boottimeDeadlineNs wallDeadlineNs token) extSqj)

def makeReceiptName (queueId : Octets 16) (bucket shard : Bytes) (c : CommonFields)
    (token : Octets 16) : Name :=
  authenticatedFilename queueId (terminalContext .receipt bucket shard) (receiptParts c token)
    extRct

def makeDeadName (queueId : Octets 16) (bucket shard : Bytes) (c : CommonFields)
    (reason : UInt16) : Name :=
  authenticatedFilename queueId (terminalContext .dead bucket shard) (deadParts c reason) extSqj

def tempFilename (createdBoottimeNs : UInt64) (random : Octets 16) : Name :=
  joinDots [hexU64 createdBoottimeNs, hexEncode random.1] ++ ascii ".tmp"

def quarantineFilename (quarantineId : Octets 16) (reason : UInt16) : Name :=
  joinDots [field 113 (hexEncode quarantineId.1), field 120 (hexU16 reason)] ++ ascii ".raw"

/-! ## 4. Parsers -/

inductive ParseError where
  | badExtension
  | badHex (what : String)
  | malformed
  | nonAscii
  deriving DecidableEq

def ParseError.text : ParseError → String
  | .badExtension => "invalid extension"
  | .badHex what => "invalid hex field " ++ what
  | .malformed => "malformed filename"
  | .nonAscii => "non-ASCII byte in filename"

structure ReadyName where
  common : CommonFields
  tag : Octets 8
  deriving DecidableEq

structure DelayedName where
  common : CommonFields
  notBeforeNs : UInt64
  tag : Octets 8
  deriving DecidableEq

structure DeadName where
  common : CommonFields
  reason : UInt16
  tag : Octets 8
  deriving DecidableEq

structure ReceiptName where
  common : CommonFields
  token : Octets 16
  tag : Octets 8
  deriving DecidableEq

structure LeasedName where
  common : CommonFields
  bootId : Octets 16
  boottimeDeadlineNs : UInt64
  wallDeadlineNs : UInt64
  token : Octets 16
  tag : Octets 8
  deriving DecidableEq

structure TempName where
  createdBoottimeNs : UInt64
  random : Octets 16
  deriving DecidableEq

structure QuarantineName where
  quarantineId : Octets 16
  reason : UInt16
  deriving DecidableEq

def orError (o : Option α) (e : ParseError) : Except ParseError α :=
  match o with
  | some a => .ok a
  | none => .error e

def assertAscii (s : Bytes) : Except ParseError Unit :=
  if s.all (fun b => b < 128 && b != 0) then .ok () else .error .nonAscii

/-- Strip a one-letter label; something must follow it. -/
def stripTag (part : Bytes) (label : UInt8) : Except ParseError Bytes :=
  match part with
  | first :: rest => if first = label ∧ rest ≠ [] then .ok rest else .error .malformed
  | [] => .error .malformed

def parseTaggedHexU64 (part : Bytes) (label : UInt8) : Except ParseError UInt64 := do
  orError (hexDecodeU64 (← stripTag part label)) (.badHex "u64")

def parseTaggedHexU32 (part : Bytes) (label : UInt8) : Except ParseError UInt32 := do
  orError (hexDecodeU32 (← stripTag part label)) (.badHex "u32")

def parseTaggedHexU16 (part : Bytes) (label : UInt8) : Except ParseError UInt16 := do
  orError (hexDecodeU16 (← stripTag part label)) (.badHex "u16")

def parseTaggedHex16 (part : Bytes) (label : UInt8) : Except ParseError (Octets 16) := do
  orError (hexDecode16 (← stripTag part label)) (.badHex "16")

def parseTag (part : Bytes) : Except ParseError (Octets 8) := do
  orError (hexDecodeArray 8 (← stripTag part 107)) (.badHex "k")

/-- The common fields and the parts after them. -/
def parseCommonStrict : List Bytes → Except ParseError (CommonFields × List Bytes)
  | p0 :: p1 :: p2 :: p3 :: rest => do
    let jobId ← orError (hexDecode16 p0) (.badHex "job_id")
    let generation ← parseTaggedHexU64 p1 103
    let attempt ← parseTaggedHexU32 p2 97
    let maximumAttempts ← parseTaggedHexU32 p3 109
    .ok (⟨jobId, generation, attempt, maximumAttempts⟩, rest)
  | _ => .error .malformed

/-- The dot-separated parts in front of an extension; there must be `count` of them. -/
def splitParts (filename : Name) (extension : Bytes) (count : Nat) :
    Except ParseError (List Bytes) := do
  assertAscii filename
  let stem ← orError (filename.dropSuffix? extension) .badExtension
  let parts := stem.splitOn 46
  if parts.length ≠ count then .error .malformed else .ok parts

/-- `<job-id>.g<gen>.a<att>.m<max>.k<tag>.sqj` -/
def parseReady (filename : Name) : Except ParseError ReadyName := do
  let parts ← splitParts filename extSqj 5
  let (common, rest) ← parseCommonStrict parts
  match rest with
  | [k] => return ⟨common, ← parseTag k⟩
  | _ => .error .malformed

/-- `<job-id>.g<gen>.a<att>.m<max>.d<ns>.k<tag>.sqj` -/
def parseDelayed (filename : Name) : Except ParseError DelayedName := do
  let parts ← splitParts filename extSqj 6
  let (common, rest) ← parseCommonStrict parts
  match rest with
  | [d, k] => return ⟨common, ← parseTaggedHexU64 d 100, ← parseTag k⟩
  | _ => .error .malformed

/-- `<job-id>.g<gen>.a<att>.m<max>.x<reason>.k<tag>.sqj` -/
def parseDead (filename : Name) : Except ParseError DeadName := do
  let parts ← splitParts filename extSqj 6
  let (common, rest) ← parseCommonStrict parts
  match rest with
  | [x, k] => return ⟨common, ← parseTaggedHexU16 x 120, ← parseTag k⟩
  | _ => .error .malformed

/-- `<job-id>.g<gen>.a<att>.m<max>.t<token>.k<tag>.rct` -/
def parseReceipt (filename : Name) : Except ParseError ReceiptName := do
  let parts ← splitParts filename extRct 6
  let (common, rest) ← parseCommonStrict parts
  match rest with
  | [t, k] => return ⟨common, ← parseTaggedHex16 t 116, ← parseTag k⟩
  | _ => .error .malformed

/-- `<job-id>.g<gen>.a<att>.m<max>.o<boot>.b<boottime>.w<wall>.t<token>.k<tag>.sqj` -/
def parseLeased (filename : Name) : Except ParseError LeasedName := do
  let parts ← splitParts filename extSqj 9
  let (common, rest) ← parseCommonStrict parts
  match rest with
  | [o, b, w, t, k] =>
    return ⟨common, ← parseTaggedHex16 o 111, ← parseTaggedHexU64 b 98, ← parseTaggedHexU64 w 119,
      ← parseTaggedHex16 t 116, ← parseTag k⟩
  | _ => .error .malformed

/-- `<created-boottime-ns>.<random>.tmp` -/
def parseTemp (filename : Name) : Except ParseError TempName := do
  match ← splitParts filename (ascii ".tmp") 2 with
  | [created, random] =>
    return ⟨← orError (hexDecodeU64 created) (.badHex "boottime"),
      ← orError (hexDecode16 random) (.badHex "random")⟩
  | _ => .error .malformed

/-- `q<quarantine-id>.x<reason>.raw` -/
def parseQuarantine (filename : Name) : Except ParseError QuarantineName := do
  match ← splitParts filename (ascii ".raw") 2 with
  | [q, x] =>
    if q.length ≠ 33 ∨ q.head? ≠ some 113 then .error .malformed
    else return ⟨← orError (hexDecode16 q.tail) (.badHex "id"), ← parseTaggedHexU16 x 120⟩
  | _ => .error .malformed

def ReadyName.authenticateTag (n : ReadyName) (queueId : Octets 16) (shard : Bytes) : Bool :=
  computeNameTag queueId (readyContext shard ++ joinDots n.common.baseParts) = n.tag

def LeasedName.authenticateTag (n : LeasedName) (queueId : Octets 16) (bootId bucket shard : Bytes) :
    Bool :=
  computeNameTag queueId (leasedContext bootId bucket shard ++
    joinDots (leasedParts n.common n.bootId n.boottimeDeadlineNs n.wallDeadlineNs n.token)) = n.tag

def DelayedName.authenticateTag (n : DelayedName) (queueId : Octets 16) (bucket shard : Bytes) :
    Bool :=
  computeNameTag queueId (delayedContext bucket shard ++
    joinDots (delayedParts n.common n.notBeforeNs)) = n.tag

def DeadName.authenticateTag (n : DeadName) (queueId : Octets 16) (bucket shard : Bytes) : Bool :=
  computeNameTag queueId (terminalContext .dead bucket shard ++
    joinDots (deadParts n.common n.reason)) = n.tag

def ReceiptName.authenticateTag (n : ReceiptName) (queueId : Octets 16) (bucket shard : Bytes) :
    Bool :=
  computeNameTag queueId (terminalContext .receipt bucket shard ++
    joinDots (receiptParts n.common n.token)) = n.tag

/-! ## 5. Round trips -/

/-- A part that the splitter gives back: printable and without the separator. -/
def Plain (part : Bytes) : Prop := ∀ x ∈ part, x ≠ 46 ∧ x < 128 ∧ x ≠ 0

theorem plain_hexEncode (b : Bytes) : Plain (hexEncode b) := by
  have key : ∀ d : Fin 16, hexDigit (UInt8.ofNat d) ≠ 46 ∧ hexDigit (UInt8.ofNat d) < 128 ∧
      hexDigit (UInt8.ofNat d) ≠ 0 := by decide
  intro x hx
  obtain ⟨d, rfl⟩ := mem_hexEncode hx
  exact key d

theorem plain_field {label : UInt8} (hl : label ≠ 46 ∧ label < 128 ∧ label ≠ 0) (b : Bytes) :
    Plain (field label (hexEncode b)) := by
  intro x hx
  rcases List.mem_cons.mp hx with rfl | hx
  · exact hl
  · exact plain_hexEncode b x hx

theorem mem_joinDots {x : UInt8} {parts : List Bytes} (h : x ∈ joinDots parts) :
    x = 46 ∨ ∃ p ∈ parts, x ∈ p := by
  induction parts with
  | nil => simp [joinDots, List.intercalate] at h
  | cons p ps ih =>
    cases ps with
    | nil => exact .inr ⟨p, by simp, by simpa [joinDots, List.intercalate] using h⟩
    | cons q qs =>
      have hsplit : joinDots (p :: q :: qs) = p ++ 46 :: joinDots (q :: qs) := by
        simp [joinDots, List.intercalate]
      rw [hsplit, List.mem_append, List.mem_cons] at h
      rcases h with h | rfl | h
      · exact .inr ⟨p, by simp, h⟩
      · exact .inl rfl
      · rcases ih h with rfl | ⟨r, hr, hx⟩
        · exact .inl rfl
        · exact .inr ⟨r, List.mem_cons_of_mem _ hr, hx⟩

/-- **The splitter undoes the joiner.** -/
theorem splitParts_joinDots {parts : List Bytes} {extension : Bytes} {count : Nat}
    (hplain : ∀ p ∈ parts, Plain p) (hne : parts ≠ []) (hcount : parts.length = count)
    (hext : ∀ x ∈ extension, x < 128 ∧ x ≠ 0) :
    splitParts (joinDots parts ++ extension) extension count = .ok parts := by
  have hascii : assertAscii (joinDots parts ++ extension) = .ok () := by
    unfold assertAscii
    rw [if_pos]
    rw [List.all_eq_true]
    intro x hx
    rw [Bool.and_eq_true, decide_eq_true_eq, bne_iff_ne]
    rcases List.mem_append.mp hx with hx | hx
    · rcases mem_joinDots hx with rfl | ⟨p, hp, hxp⟩
      · decide
      · exact (hplain p hp x hxp).2
    · exact hext x hx
  have hdrop : (joinDots parts ++ extension).dropSuffix? extension = some (joinDots parts) := by
    simp [List.dropSuffix?_eq_some_iff]
  have hsplit : (joinDots parts).splitOn 46 = parts :=
    List.splitOn_intercalate 46 (fun p hp hx => (hplain p hp 46 hx).1 rfl) hne
  simp only [splitParts, hascii, hdrop, orError, bind, Except.bind, hsplit, hcount, ne_eq,
    not_true_eq_false, if_false]

theorem stripTag_field {label : UInt8} {b : Bytes} (hb : b ≠ []) :
    stripTag (field label (hexEncode b)) label = .ok (hexEncode b) := by
  have hne : hexEncode b ≠ [] := by
    cases b with
    | nil => exact absurd rfl hb
    | cons x xs => simp [hexEncode]
  simp [stripTag, field, hne]

theorem octets_ne_nil {n : Nat} (b : Octets (n + 1)) : b.1 ≠ [] := by
  intro h
  have := b.2
  rw [h] at this
  simp at this

theorem beBytes_ne_nil (w n : Nat) : beBytes (w + 1) n ≠ [] := by
  simp [beBytes]

@[simp] theorem parseTaggedHexU64_field (label : UInt8) (v : UInt64) :
    parseTaggedHexU64 (field label (hexU64 v)) label = .ok v := by
  have h : stripTag (field label (hexU64 v)) label = .ok (hexU64 v) :=
    stripTag_field (beBytes_ne_nil 7 _)
  simp [parseTaggedHexU64, h, bind, Except.bind, hexDecodeU64_hex, orError]

@[simp] theorem parseTaggedHexU32_field (label : UInt8) (v : UInt32) :
    parseTaggedHexU32 (field label (hexU32 v)) label = .ok v := by
  have h : stripTag (field label (hexU32 v)) label = .ok (hexU32 v) :=
    stripTag_field (beBytes_ne_nil 3 _)
  simp [parseTaggedHexU32, h, bind, Except.bind, hexDecodeU32_hex, orError]

@[simp] theorem parseTaggedHexU16_field (label : UInt8) (v : UInt16) :
    parseTaggedHexU16 (field label (hexU16 v)) label = .ok v := by
  have h : stripTag (field label (hexU16 v)) label = .ok (hexU16 v) :=
    stripTag_field (beBytes_ne_nil 1 _)
  simp [parseTaggedHexU16, h, bind, Except.bind, hexDecodeU16_hex, orError]

@[simp] theorem parseTaggedHex16_field (label : UInt8) (v : Octets 16) :
    parseTaggedHex16 (field label (hexEncode v.1)) label = .ok v := by
  have h : stripTag (field label (hexEncode v.1)) label = .ok (hexEncode v.1) :=
    stripTag_field (octets_ne_nil v)
  simp [parseTaggedHex16, h, bind, Except.bind, hexDecode16_hex, orError]

@[simp] theorem parseTag_field (v : Octets 8) :
    parseTag (field 107 (hexEncode v.1)) = .ok v := by
  have h : stripTag (field 107 (hexEncode v.1)) 107 = .ok (hexEncode v.1) :=
    stripTag_field (octets_ne_nil v)
  simp [parseTag, h, bind, Except.bind, hexDecodeArray_hexEncode, orError]

@[simp] theorem parseCommonStrict_baseParts (c : CommonFields) (rest : List Bytes) :
    parseCommonStrict (c.baseParts ++ rest) = .ok (c, rest) := by
  simp [parseCommonStrict, CommonFields.baseParts, hexDecode16_hex, orError, bind, Except.bind]

theorem plain_baseParts (c : CommonFields) : ∀ p ∈ c.baseParts, Plain p := by
  intro p hp
  simp only [CommonFields.baseParts, List.mem_cons, List.not_mem_nil, or_false] at hp
  rcases hp with rfl | rfl | rfl | rfl
  · exact plain_hexEncode _
  · exact plain_field (by decide) _
  · exact plain_field (by decide) _
  · exact plain_field (by decide) _

/-- What a written name splits into: its common fields, the fields of its state and the tag. -/
theorem splitParts_taggedFilename (c : CommonFields) (fields : List Bytes) (tag : Octets 8)
    {extension : Bytes} (count : Nat) (hcount : fields.length + 5 = count)
    (hplain : ∀ p ∈ fields, Plain p) (hext : ∀ x ∈ extension, x < 128 ∧ x ≠ 0) :
    splitParts (taggedFilename (c.baseParts ++ fields) tag extension) extension count =
      .ok (c.baseParts ++ (fields ++ [field 107 (hexEncode tag.1)])) := by
  rw [taggedFilename, List.append_assoc]
  apply splitParts_joinDots
  · intro p hp
    rw [List.mem_append, List.mem_append, List.mem_singleton] at hp
    rcases hp with hp | hp | rfl
    · exact plain_baseParts c p hp
    · exact hplain p hp
    · exact plain_field (by decide) _
  · simp [CommonFields.baseParts]
  · simp [CommonFields.baseParts, ← hcount]
  · exact hext

theorem ascii_of_all {b : Bytes} (h : b.all (fun x => decide (x < 128 ∧ x ≠ 0)) = true) :
    ∀ x ∈ b, x < 128 ∧ x ≠ 0 :=
  fun x hx => of_decide_eq_true (List.all_eq_true.mp h x hx)

theorem extSqj_ascii : ∀ x ∈ extSqj, x < 128 ∧ x ≠ 0 := ascii_of_all rfl

theorem extRct_ascii : ∀ x ∈ extRct, x < 128 ∧ x ≠ 0 := ascii_of_all rfl

theorem parseReady_tagged (c : CommonFields) (tag : Octets 8) :
    parseReady (taggedFilename c.baseParts tag extSqj) = .ok ⟨c, tag⟩ := by
  have h := splitParts_taggedFilename c [] tag 5 rfl (by simp) extSqj_ascii
  rw [List.append_nil] at h
  simp only [parseReady, h, bind, Except.bind, parseCommonStrict_baseParts, List.nil_append,
    parseTag_field]
  rfl

theorem parseDelayed_tagged (c : CommonFields) (ns : UInt64) (tag : Octets 8) :
    parseDelayed (taggedFilename (delayedParts c ns) tag extSqj) = .ok ⟨c, ns, tag⟩ := by
  have h := splitParts_taggedFilename c [field 100 (hexU64 ns)] tag 6 rfl
    (List.forall_mem_singleton.mpr (plain_field (by decide) _)) extSqj_ascii
  simp only [parseDelayed, delayedParts, h, bind, Except.bind, parseCommonStrict_baseParts,
    List.singleton_append, parseTaggedHexU64_field, parseTag_field]
  rfl

theorem parseDead_tagged (c : CommonFields) (reason : UInt16) (tag : Octets 8) :
    parseDead (taggedFilename (deadParts c reason) tag extSqj) = .ok ⟨c, reason, tag⟩ := by
  have h := splitParts_taggedFilename c [field 120 (hexU16 reason)] tag 6 rfl
    (List.forall_mem_singleton.mpr (plain_field (by decide) _)) extSqj_ascii
  simp only [parseDead, deadParts, h, bind, Except.bind, parseCommonStrict_baseParts,
    List.singleton_append, parseTaggedHexU16_field, parseTag_field]
  rfl

theorem parseReceipt_tagged (c : CommonFields) (token : Octets 16) (tag : Octets 8) :
    parseReceipt (taggedFilename (receiptParts c token) tag extRct) = .ok ⟨c, token, tag⟩ := by
  have h := splitParts_taggedFilename c [field 116 (hexEncode token.1)] tag 6 rfl
    (List.forall_mem_singleton.mpr (plain_field (by decide) _)) extRct_ascii
  simp only [parseReceipt, receiptParts, h, bind, Except.bind, parseCommonStrict_baseParts,
    List.singleton_append, parseTaggedHex16_field, parseTag_field]
  rfl

theorem parseLeased_tagged (c : CommonFields) (bootId : Octets 16) (boottime wall : UInt64)
    (token : Octets 16) (tag : Octets 8) :
    parseLeased (taggedFilename (leasedParts c bootId boottime wall token) tag extSqj) =
      .ok ⟨c, bootId, boottime, wall, token, tag⟩ := by
  have h := splitParts_taggedFilename c
    [field 111 (hexEncode bootId.1), field 98 (hexU64 boottime), field 119 (hexU64 wall),
      field 116 (hexEncode token.1)] tag 9 rfl ?_ extSqj_ascii
  · simp only [parseLeased, leasedParts, h, bind, Except.bind, parseCommonStrict_baseParts,
      List.cons_append, List.nil_append, parseTaggedHexU64_field, parseTaggedHex16_field,
      parseTag_field]
    rfl
  · intro p hp
    simp only [List.mem_cons, List.not_mem_nil, or_false] at hp
    rcases hp with rfl | rfl | rfl | rfl
    · exact plain_field (by decide) _
    · exact plain_field (by decide) _
    · exact plain_field (by decide) _
    · exact plain_field (by decide) _

/-- A name has one number of parts. -/
theorem splitParts_count {n : Name} {extension : Bytes} {k k' : Nat} {parts parts' : List Bytes}
    (h : splitParts n extension k = .ok parts) (h' : splitParts n extension k' = .ok parts') :
    k = k' := by
  simp only [splitParts, bind, Except.bind] at h h'
  split at h
  · cases h
  · rename_i hascii
    split at h
    · cases h
    · rename_i hstem
      simp only [hascii, hstem] at h'
      split_ifs at h h' with hk hk'
      exact (not_not.mp hk).symm.trans (not_not.mp hk')

theorem parseLeased_splits {n : Name} {p : LeasedName} (h : parseLeased n = .ok p) :
    ∃ parts, splitParts n extSqj 9 = .ok parts := by
  simp only [parseLeased, bind, Except.bind] at h
  split at h
  · cases h
  · exact ⟨_, by assumption⟩

theorem parseReady_splits {n : Name} {p : ReadyName} (h : parseReady n = .ok p) :
    ∃ parts, splitParts n extSqj 5 = .ok parts := by
  simp only [parseReady, bind, Except.bind] at h
  split at h
  · cases h
  · exact ⟨_, by assumption⟩

/-- Ready and leased names share a directory and are told apart by their parts. -/
theorem parseReady_of_parseLeased {n : Name} {p : LeasedName} (h : parseLeased n = .ok p) :
    ∃ e, parseReady n = .error e := by
  cases hr : parseReady n with
  | error e => exact ⟨e, rfl⟩
  | ok q =>
    obtain ⟨parts, hparts⟩ := parseLeased_splits h
    obtain ⟨parts', hparts'⟩ := parseReady_splits hr
    exact absurd (splitParts_count hparts hparts') (by decide)

theorem taggedFilename_split (c : CommonFields) (fields : List Bytes) (tag : Octets 8)
    (extension : Bytes) : ∃ rest, taggedFilename (c.baseParts ++ fields) tag extension =
      (hexEncode c.jobId.1 ++ [46, 103]) ++ (hexU64 c.generation ++ rest) := by
  refine ⟨46 :: (joinDots ([field 97 (hexU32 c.attempt), field 109 (hexU32 c.maximumAttempts)] ++
    (fields ++ [field 107 (hexEncode tag.1)])) ++ extension), ?_⟩
  unfold taggedFilename CommonFields.baseParts joinDots
  simp [List.intercalate, List.intersperse, field]

/-- Equal names have one generation, whatever state they are of. -/
theorem taggedFilename_generation {c c' : CommonFields} {fields fields' : List Bytes}
    {tag tag' : Octets 8} {extension extension' : Bytes}
    (h : taggedFilename (c.baseParts ++ fields) tag extension =
      taggedFilename (c'.baseParts ++ fields') tag' extension') : c.generation = c'.generation := by
  obtain ⟨rest, hrest⟩ := taggedFilename_split c fields tag extension
  obtain ⟨rest', hrest'⟩ := taggedFilename_split c' fields' tag' extension'
  rw [hrest, hrest'] at h
  have htail := (List.append_inj h (by simp [c.jobId.2, c'.jobId.2])).2
  have hgeneration := (List.append_inj htail (by simp [hexU64])).1
  exact bucketHex_injective hgeneration

/-! ## 6. Only canonical names parse -/

/-- The three integer widths share one argument: the bytes of the number they denote. -/
theorem hexEncode_of_beNat {w : Nat} {s : Bytes} {b : Octets w} (h : hexDecodeArray w s = some b) :
    s = hexEncode (beBytes w (beNat b.1)) := by
  have hb := beBytes_beNat b.1
  rw [b.2] at hb
  rw [hb, hexEncode_of_hexDecodeArray h]

theorem beNat_octets_lt {w : Nat} (b : Octets w) : beNat b.1 < 256 ^ w := by
  have hlt := beNat_lt b.1
  rwa [b.2] at hlt

theorem hexU64_of_decode {s : Bytes} {v : UInt64} (h : hexDecodeU64 s = some v) : s = hexU64 v := by
  obtain ⟨b, hb, rfl⟩ := Option.map_eq_some_iff.mp h
  rw [hexU64, UInt64.toNat_ofNat_of_lt' (beNat_octets_lt b)]
  exact hexEncode_of_beNat hb

theorem hexU32_of_decode {s : Bytes} {v : UInt32} (h : hexDecodeU32 s = some v) : s = hexU32 v := by
  obtain ⟨b, hb, rfl⟩ := Option.map_eq_some_iff.mp h
  rw [hexU32, UInt32.toNat_ofNat_of_lt' (beNat_octets_lt b)]
  exact hexEncode_of_beNat hb

theorem hexU16_of_decode {s : Bytes} {v : UInt16} (h : hexDecodeU16 s = some v) : s = hexU16 v := by
  obtain ⟨b, hb, rfl⟩ := Option.map_eq_some_iff.mp h
  rw [hexU16, UInt16.toNat_ofNat_of_lt' (beNat_octets_lt b)]
  exact hexEncode_of_beNat hb

theorem shardHex_of_shardFromHex {s : Bytes} {shard : UInt32} (h : shardFromHex s = some shard) :
    s = shardHex shard := by
  obtain ⟨v, hv, rfl⟩ := Option.map_eq_some_iff.mp h
  have hlt : v.toNat < 2 ^ 32 := Nat.lt_trans v.toNat_lt (by decide)
  rw [shardHex, UInt32.toNat_ofNat_of_lt' hlt, UInt16.ofNat_toNat]
  exact hexU16_of_decode hv

theorem bucketHex_of_bucketFromHex {s : Bytes} {bucket : UInt64}
    (h : bucketFromHex s = some bucket) : s = bucketHex bucket := hexU64_of_decode h

theorem except_bind_eq_ok {ε α β : Type} {x : Except ε α} {f : α → Except ε β} {b : β}
    (h : (x >>= f) = .ok b) : ∃ a, x = .ok a ∧ f a = .ok b := by
  cases x with
  | error e => cases h
  | ok a => exact ⟨a, rfl, h⟩

theorem orError_eq_ok {α : Type} {o : Option α} {e : ParseError} {a : α} :
    orError o e = .ok a ↔ o = some a := by
  cases o <;> simp [orError]

theorem stripTag_eq_ok {part rest : Bytes} {label : UInt8} (h : stripTag part label = .ok rest) :
    part = field label rest := by
  unfold stripTag at h
  split at h
  · split at h
    · rename_i hl
      cases h
      rw [hl.1]
      rfl
    · cases h
  · cases h

theorem parseTaggedHexU64_ok {part : Bytes} {label : UInt8} {v : UInt64}
    (h : parseTaggedHexU64 part label = .ok v) : part = field label (hexU64 v) := by
  obtain ⟨rest, hs, hd⟩ := except_bind_eq_ok h
  rw [stripTag_eq_ok hs, hexU64_of_decode (orError_eq_ok.mp hd)]

theorem parseTaggedHexU32_ok {part : Bytes} {label : UInt8} {v : UInt32}
    (h : parseTaggedHexU32 part label = .ok v) : part = field label (hexU32 v) := by
  obtain ⟨rest, hs, hd⟩ := except_bind_eq_ok h
  rw [stripTag_eq_ok hs, hexU32_of_decode (orError_eq_ok.mp hd)]

theorem parseTaggedHex16_ok {part : Bytes} {label : UInt8} {v : Octets 16}
    (h : parseTaggedHex16 part label = .ok v) : part = field label (hexEncode v.1) := by
  obtain ⟨rest, hs, hd⟩ := except_bind_eq_ok h
  rw [stripTag_eq_ok hs, hexEncode_of_hexDecodeArray (orError_eq_ok.mp hd)]

theorem parseTag_ok {part : Bytes} {tag : Octets 8} (h : parseTag part = .ok tag) :
    part = field 107 (hexEncode tag.1) := by
  obtain ⟨rest, hs, hd⟩ := except_bind_eq_ok h
  rw [stripTag_eq_ok hs, hexEncode_of_hexDecodeArray (orError_eq_ok.mp hd)]

theorem parseCommonStrict_ok {parts rest : List Bytes} {c : CommonFields}
    (h : parseCommonStrict parts = .ok (c, rest)) : parts = c.baseParts ++ rest := by
  unfold parseCommonStrict at h
  split at h
  · rename_i p0 p1 p2 p3 rest'
    obtain ⟨jobId, h0, h⟩ := except_bind_eq_ok h
    obtain ⟨generation, h1, h⟩ := except_bind_eq_ok h
    obtain ⟨attempt, h2, h⟩ := except_bind_eq_ok h
    obtain ⟨maximumAttempts, h3, h⟩ := except_bind_eq_ok h
    cases h
    rw [← hexEncode_of_hexDecodeArray (orError_eq_ok.mp h0), parseTaggedHexU64_ok h1,
      parseTaggedHexU32_ok h2, parseTaggedHexU32_ok h3]
    rfl
  · cases h

theorem splitParts_ok {n : Name} {extension : Bytes} {count : Nat} {parts : List Bytes}
    (h : splitParts n extension count = .ok parts) : n = joinDots parts ++ extension := by
  obtain ⟨_, -, h⟩ := except_bind_eq_ok h
  obtain ⟨stem, hstem, h⟩ := except_bind_eq_ok h
  obtain ⟨l, hl, hsuffix⟩ := List.dropSuffix?_eq_some_iff.mp (orError_eq_ok.mp hstem)
  rw [beq_iff_eq] at hsuffix
  dsimp only at h
  split at h
  · cases h
  · cases h
    rw [hl, hsuffix]
    exact congrArg (· ++ extension) (List.intercalate_splitOn 46).symm

/-- **A name that parses as a ready name is the name of its fields.** -/
theorem parseReady_ok {n : Name} {p : ReadyName} (h : parseReady n = .ok p) :
    n = taggedFilename p.common.baseParts p.tag extSqj := by
  obtain ⟨parts, hparts, h⟩ := except_bind_eq_ok h
  obtain ⟨⟨common, rest⟩, hcommon, h⟩ := except_bind_eq_ok h
  dsimp only at h
  split at h
  · rename_i k
    obtain ⟨tag, htag, h⟩ := except_bind_eq_ok h
    cases h
    rw [splitParts_ok hparts, parseCommonStrict_ok hcommon, parseTag_ok htag]
    rfl
  · cases h

/-- **So is one that parses as a leased name.** -/
theorem parseLeased_ok {n : Name} {p : LeasedName} (h : parseLeased n = .ok p) :
    n = taggedFilename (leasedParts p.common p.bootId p.boottimeDeadlineNs p.wallDeadlineNs
      p.token) p.tag extSqj := by
  obtain ⟨parts, hparts, h⟩ := except_bind_eq_ok h
  obtain ⟨⟨common, rest⟩, hcommon, h⟩ := except_bind_eq_ok h
  dsimp only at h
  split at h
  · rename_i o b w t k
    obtain ⟨bootId, ho, h⟩ := except_bind_eq_ok h
    obtain ⟨boottime, hb, h⟩ := except_bind_eq_ok h
    obtain ⟨wall, hw, h⟩ := except_bind_eq_ok h
    obtain ⟨token, ht, h⟩ := except_bind_eq_ok h
    obtain ⟨tag, htag, h⟩ := except_bind_eq_ok h
    cases h
    rw [splitParts_ok hparts, parseCommonStrict_ok hcommon, parseTaggedHex16_ok ho,
      parseTaggedHexU64_ok hb, parseTaggedHexU64_ok hw, parseTaggedHex16_ok ht, parseTag_ok htag]
    rfl
  · cases h

/-- A boot id reads back from its canonical text. -/
theorem bootIdBytes_formatBootId (b : Octets 16) : bootIdBytes (formatBootId b) = some b := by
  have hlen : (hexEncode b.1).length = 32 := by rw [hexEncode_length, b.2]
  have hhex := hexDecode16_hex b
  obtain ⟨s, hs⟩ : ∃ s, hexEncode b.1 = s := ⟨_, rfl⟩
  rw [hs] at hlen hhex
  -- the five groups of digits, and the text made of them
  obtain ⟨a, x, rfl, hla⟩ : ∃ a x, s = a ++ x ∧ a.length = 8 :=
    ⟨_, _, (List.take_append_drop 8 s).symm, by rw [List.length_take]; omega⟩
  rw [List.length_append] at hlen
  obtain ⟨c, y, rfl, hlc⟩ : ∃ c y, x = c ++ y ∧ c.length = 4 :=
    ⟨_, _, (List.take_append_drop 4 x).symm, by rw [List.length_take]; omega⟩
  rw [List.length_append] at hlen
  obtain ⟨d, z, rfl, hld⟩ : ∃ d z, y = d ++ z ∧ d.length = 4 :=
    ⟨_, _, (List.take_append_drop 4 y).symm, by rw [List.length_take]; omega⟩
  rw [List.length_append] at hlen
  obtain ⟨e, f, rfl, hle⟩ : ∃ e f, z = e ++ f ∧ e.length = 4 :=
    ⟨_, _, (List.take_append_drop 4 z).symm, by rw [List.length_take]; omega⟩
  rw [List.length_append] at hlen
  have htext : formatBootId b = a ++ [45] ++ c ++ [45] ++ d ++ [45] ++ e ++ [45] ++ f := by
    simp (disch := omega) [formatBootId, hs, List.drop_append, List.drop_eq_nil_of_le, hla, hlc,
      hld]
  rw [htext, bootIdBytes, if_neg (by simp [hla, hlc, hld]; omega), if_neg]
  · simpa (disch := omega) [List.drop_append, List.take_append, List.drop_eq_nil_of_le, hla, hlc,
      hld, hle] using hhex
  · simp [List.getElem?_append, hla, hlc, hld, hle]

end SteadQ
