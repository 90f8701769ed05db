/-
  File:      SteadQ/Format.lean
  Subject:   BINARY RECORDS (crate `steadq-format`): FORMAT, the fixed job header, the compact
             receipt and the wall watermark.

  A record is written as the concatenation of its fields in file order, and read with `slice` at
  the crate's offsets. `FormatRecord` carries the checks of its constructor as fields.
-/
import SteadQ.Protocol

namespace SteadQ

open Octet

def formatMagic : Bytes := ascii "SDQFMT1" ++ [0]
def jobMagic : Bytes := ascii "SDQJOB1" ++ [0]
def receiptMagic : Bytes := ascii "SDQRCPT" ++ [0]
def watermarkMagic : Bytes := ascii "SDQWMR1" ++ [0]

def formatSize : Nat := 160
def fixedHeaderSize : Nat := 128
def compactReceiptSize : Nat := 128
def watermarkSize : Nat := 64

def digestAlgorithmSha256 : UInt8 := 1
def nameTagBits : UInt8 := 64
def formatMajor : UInt16 := 1
def formatMinor : UInt16 := 1
def strictCompactReceiptMinor : UInt16 := 1

def maxPayloadLength : UInt64 := 1099511627775
def maxExtensionHeaderLength : Nat := 65536

/-! ## 1. Fields at offsets -/

def u16Bytes (v : UInt16) : Bytes := beBytes 2 v.toNat
def u32Bytes (v : UInt32) : Bytes := beBytes 4 v.toNat
def u64Bytes (v : UInt64) : Bytes := beBytes 8 v.toNat

@[simp] theorem u16Bytes_length (v : UInt16) : (u16Bytes v).length = 2 := beBytes_length 2 _
@[simp] theorem u32Bytes_length (v : UInt32) : (u32Bytes v).length = 4 := beBytes_length 4 _
@[simp] theorem u64Bytes_length (v : UInt64) : (u64Bytes v).length = 8 := beBytes_length 8 _

/-- `buf[offset .. offset + n]` -/
def slice (buf : Bytes) (offset n : Nat) : Bytes := (buf.drop offset).take n

def u16At (buf : Bytes) (offset : Nat) : UInt16 := UInt16.ofNat (beNat (slice buf offset 2))
def u32At (buf : Bytes) (offset : Nat) : UInt32 := UInt32.ofNat (beNat (slice buf offset 4))
def u64At (buf : Bytes) (offset : Nat) : UInt64 := UInt64.ofNat (beNat (slice buf offset 8))

/-- `n` bytes at `offset`; zeros when the buffer is too short (callers check the size first). -/
def octetsAt (n : Nat) (buf : Bytes) (offset : Nat) : Octets n :=
  if h : (slice buf offset n).length = n then ⟨slice buf offset n, h⟩ else zeros n

/-- A field behind `a` is looked up in what follows `a`. -/
theorem slice_skip {a z : Bytes} {o n : Nat} (h : a.length ≤ o) :
    slice (a ++ z) o n = slice z (o - a.length) n := by
  simp [slice, List.drop_append, List.drop_eq_nil_of_le h]

theorem slice_here {m z : Bytes} {n : Nat} (h : m.length = n) : slice (m ++ z) 0 n = m := by
  subst h
  simp [slice]

theorem u64At_here (v : UInt64) (z : Bytes) :
    UInt64.ofNat (beNat (slice (u64Bytes v ++ z) 0 8)) = v := by
  rw [slice_here (u64Bytes_length v), u64Bytes, beNat_beBytes v.toNat_lt]
  exact UInt64.ofNat_toNat

theorem u32At_here (v : UInt32) (z : Bytes) :
    UInt32.ofNat (beNat (slice (u32Bytes v ++ z) 0 4)) = v := by
  rw [slice_here (u32Bytes_length v), u32Bytes, beNat_beBytes v.toNat_lt]
  exact UInt32.ofNat_toNat

theorem u16At_here (v : UInt16) (z : Bytes) :
    UInt16.ofNat (beNat (slice (u16Bytes v ++ z) 0 2)) = v := by
  rw [slice_here (u16Bytes_length v), u16Bytes, beNat_beBytes v.toNat_lt]
  exact UInt16.ofNat_toNat

theorem octetsAt_eq {n : Nat} {b : Bytes} {v : Octets n} {o : Nat} (h : slice b o n = v.1) :
    octetsAt n b o = v := by
  unfold octetsAt
  rw [dif_pos (by rw [h]; exact v.2)]
  exact Subtype.ext h

/-! ## 2. The wall watermark -/

inductive WatermarkError where
  | badMagic
  | unsupportedVersion (major minor : UInt16)
  | nonzeroReserved
  | digestMismatch
  | wrongSize (expected actual : Nat)
  deriving DecidableEq, Repr

def WatermarkError.text : WatermarkError → String
  | .badMagic => "magic mismatch"
  | .unsupportedVersion major minor =>
    "unsupported version " ++ toString major ++ "." ++ toString minor
  | .nonzeroReserved => "nonzero reserved"
  | .digestMismatch => "digest mismatch"
  | .wrongSize expected actual =>
    "wrong size: expected " ++ toString expected ++ ", got " ++ toString actual

structure WatermarkRecord where
  highestObservedBucket : UInt64
  sequence : UInt64
  deriving DecidableEq, Repr

def watermarkDigest (record : Bytes) : Octets 32 :=
  sha256 (ascii "SteadQ-1-wall-watermark" ++ [0] ++ record)

namespace WatermarkRecord

/-- The bytes under the digest. -/
def body (r : WatermarkRecord) : Bytes :=
  watermarkMagic ++ (u16Bytes formatMajor ++ (u16Bytes formatMinor ++ (u32Bytes 0 ++
    (u64Bytes r.highestObservedBucket ++ (u64Bytes r.sequence ++ [])))))

def encode (r : WatermarkRecord) : Bytes := r.body ++ (watermarkDigest r.body).1

def decode (buf : Bytes) : Except WatermarkError WatermarkRecord :=
  if buf.length ≠ watermarkSize then .error (.wrongSize watermarkSize buf.length)
  else if slice buf 0 8 ≠ watermarkMagic then .error .badMagic
  else if u16At buf 8 ≠ formatMajor then .error (.unsupportedVersion (u16At buf 8) (u16At buf 10))
  else if u32At buf 12 ≠ 0 then .error .nonzeroReserved
  else if watermarkDigest (slice buf 0 32) ≠ octetsAt 32 buf 32 then .error .digestMismatch
  else .ok ⟨u64At buf 16, u64At buf 24⟩

@[simp] theorem body_length (r : WatermarkRecord) : r.body.length = 32 := by
  simp [body, watermarkMagic, ascii]

@[simp] theorem encode_length (r : WatermarkRecord) : r.encode.length = watermarkSize := by
  rw [encode, List.length_append, body_length, (watermarkDigest r.body).2]
  rfl

/-- The fields of a record, whatever follows them. -/
theorem body_fields (r : WatermarkRecord) (z : Bytes) :
    slice (r.body ++ z) 0 8 = watermarkMagic ∧ u16At (r.body ++ z) 8 = formatMajor ∧
      u32At (r.body ++ z) 12 = 0 ∧ u64At (r.body ++ z) 16 = r.highestObservedBucket ∧
      u64At (r.body ++ z) 24 = r.sequence := by
  have hm : watermarkMagic.length = 8 := rfl
  simp (disch := simp [hm]) only [body, List.append_assoc, u16At, u32At, u64At, slice_skip,
    slice_here hm, hm, u16Bytes_length, u32Bytes_length, u64Bytes_length, Nat.reduceSub,
    u16At_here, u32At_here, u64At_here, and_self]

/-- **A written watermark reads back as itself.** -/
theorem decode_encode (r : WatermarkRecord) : decode r.encode = .ok r := by
  -- the digest is only compared, so it is kept abstract
  obtain ⟨d, hd⟩ : ∃ d, watermarkDigest r.body = d := ⟨_, rfl⟩
  have hlen : r.encode.length = watermarkSize := encode_length r
  have henc : r.encode = r.body ++ d.1 := by rw [encode, hd]
  have hbody : slice (r.body ++ d.1) 0 32 = r.body := slice_here (body_length r)
  have hdigest : octetsAt 32 (r.body ++ d.1) 32 = d := by
    apply octetsAt_eq
    rw [slice_skip (by simp), body_length]
    simpa using slice_here (z := []) d.2
  obtain ⟨h0, h8, h12, h16, h24⟩ := body_fields r d.1
  rw [henc] at hlen ⊢
  simp only [decode, hlen, h0, h8, h12, h16, h24, hbody, hdigest, hd, ne_eq, not_true_eq_false,
    if_false]

end WatermarkRecord

/-! ## 3. The fixed job header -/

inductive HeaderError where
  | badMagic
  | unsupportedVersion (major minor : UInt16)
  | nonzeroFlags
  | digestAlgoMismatch (algorithm : UInt8)
  | nonzeroReserved
  | wrongSize (expected actual : Nat)
  | payloadTooLarge
  | extensionTooLarge
  | zeroMaxAttempts
  | extensionLengthMismatch
  deriving DecidableEq, Repr

def HeaderError.text : HeaderError → String
  | .badMagic => "magic mismatch"
  | .unsupportedVersion major minor =>
    "unsupported version " ++ toString major ++ "." ++ toString minor
  | .nonzeroFlags => "nonzero flags"
  | .digestAlgoMismatch algorithm => "digest algorithm mismatch: " ++ toString algorithm
  | .nonzeroReserved => "nonzero reserved bytes"
  | .wrongSize expected actual =>
    "wrong size: expected " ++ toString expected ++ ", got " ++ toString actual
  | .payloadTooLarge => "payload length exceeds maximum"
  | .extensionTooLarge => "extension header exceeds maximum"
  | .zeroMaxAttempts => "maximum_attempts is zero"
  | .extensionLengthMismatch => "extension_header_length does not match actual extension bytes"

structure FixedHeader where
  formatMinor : UInt16
  extensionHeaderLength : UInt32
  payloadLength : UInt64
  flags : UInt32
  digestAlgorithm : UInt8
  jobId : Octets 16
  maximumAttempts : UInt32
  createdAtUnixNs : UInt64
  payloadDigest : Octets 32
  envelopeDigest : Octets 32
  deriving DecidableEq

namespace FixedHeader

/-- The header in file order. -/
def bytes (h : FixedHeader) : Bytes :=
  jobMagic ++ (u16Bytes formatMajor ++ (u16Bytes h.formatMinor ++
    (u32Bytes h.extensionHeaderLength ++ (u64Bytes h.payloadLength ++ (u32Bytes h.flags ++
    ([h.digestAlgorithm] ++ ([0, 0, 0] ++ (h.jobId.1 ++ (u32Bytes h.maximumAttempts ++
    ([0, 0, 0, 0] ++ (u64Bytes h.createdAtUnixNs ++ (h.payloadDigest.1 ++
    (h.envelopeDigest.1 ++ [])))))))))))))

/-- Encode; the declared extension length must be that of the extension. -/
def encode (h : FixedHeader) (extension : Bytes) : Except HeaderError Bytes :=
  if UInt32.ofNat extension.length ≠ h.extensionHeaderLength then .error .extensionLengthMismatch
  else .ok h.bytes

def decode (buf : Bytes) : Except HeaderError FixedHeader :=
  if buf.length ≠ fixedHeaderSize then .error (.wrongSize fixedHeaderSize buf.length)
  else if slice buf 0 8 ≠ jobMagic then .error .badMagic
  else if u16At buf 8 ≠ formatMajor then .error (.unsupportedVersion (u16At buf 8) (u16At buf 10))
  else if u32At buf 24 ≠ 0 then .error .nonzeroFlags
  else if slice buf 28 1 ≠ [digestAlgorithmSha256] then
    .error (.digestAlgoMismatch ((slice buf 28 1).headD 0))
  else if slice buf 29 3 ≠ [0, 0, 0] ∨ slice buf 52 4 ≠ [0, 0, 0, 0] then .error .nonzeroReserved
  else if u32At buf 48 = 0 then .error .zeroMaxAttempts
  else if u64At buf 16 > maxPayloadLength then .error .payloadTooLarge
  else if (u32At buf 12).toNat > maxExtensionHeaderLength then .error .extensionTooLarge
  else .ok {
    formatMinor := u16At buf 10
    extensionHeaderLength := u32At buf 12
    payloadLength := u64At buf 16
    flags := u32At buf 24
    digestAlgorithm := (slice buf 28 1).headD 0
    jobId := octetsAt 16 buf 32
    maximumAttempts := u32At buf 48
    createdAtUnixNs := u64At buf 56
    payloadDigest := octetsAt 32 buf 64
    envelopeDigest := octetsAt 32 buf 96 }

end FixedHeader

def payloadDigest (payload : Bytes) : Octets 32 := sha256 payload

/-- The digest of the header, its own digest field zeroed, and the extension. -/
def envelopeDigest (header : FixedHeader) (extension : Bytes) : Option (Octets 32) :=
  match { header with envelopeDigest := zeros 32 }.encode extension with
  | .ok zeroed => some (sha256 (ascii "SteadQ-1-envelope" ++ [0] ++ zeroed ++ extension))
  | .error _ => none

def verifyEnvelopeDigest (header : FixedHeader) (extension : Bytes) : Bool :=
  match envelopeDigest header extension with
  | some computed => computed = header.envelopeDigest
  | none => false

/-! ## 4. The compact receipt -/

structure CompactReceipt where
  jobId : Octets 16
  envelopeDigest : Octets 32
  finalAttempt : UInt32
  leaseToken : Octets 16
  receiptBucketStartUnixNs : UInt64
  originalPayloadLength : UInt64
  deriving DecidableEq

inductive ReceiptError where
  | badMagic
  | unsupportedVersion (major minor : UInt16)
  | digestMismatch
  | wrongSize (expected actual : Nat)
  deriving DecidableEq, Repr

def ReceiptError.text : ReceiptError → String
  | .badMagic => "magic mismatch"
  | .unsupportedVersion major minor =>
    "unsupported version " ++ toString major ++ "." ++ toString minor
  | .digestMismatch => "digest mismatch"
  | .wrongSize expected actual =>
    "wrong size: expected " ++ toString expected ++ ", got " ++ toString actual

def receiptDigest (record : Bytes) : Octets 32 :=
  sha256 (ascii "SteadQ-1-receipt" ++ [0] ++ record)

namespace CompactReceipt

def body (r : CompactReceipt) : Bytes :=
  receiptMagic ++ (u16Bytes formatMajor ++ (u16Bytes formatMinor ++ (r.jobId.1 ++
    (r.envelopeDigest.1 ++ (u32Bytes r.finalAttempt ++ (r.leaseToken.1 ++
    (u64Bytes r.receiptBucketStartUnixNs ++ (u64Bytes r.originalPayloadLength ++ []))))))))

def encode (r : CompactReceipt) : Bytes := r.body ++ (receiptDigest r.body).1

def decode (buf : Bytes) : Except ReceiptError CompactReceipt :=
  if buf.length ≠ compactReceiptSize then .error (.wrongSize compactReceiptSize buf.length)
  else if slice buf 0 8 ≠ receiptMagic then .error .badMagic
  else if u16At buf 8 ≠ formatMajor ∨ u16At buf 10 < strictCompactReceiptMinor then
    .error (.unsupportedVersion (u16At buf 8) (u16At buf 10))
  else if receiptDigest (slice buf 0 96) ≠ octetsAt 32 buf 96 then .error .digestMismatch
  else .ok {
    jobId := octetsAt 16 buf 12
    envelopeDigest := octetsAt 32 buf 28
    finalAttempt := u32At buf 60
    leaseToken := octetsAt 16 buf 64
    receiptBucketStartUnixNs := u64At buf 80
    originalPayloadLength := u64At buf 88 }

@[simp] theorem body_length (r : CompactReceipt) : r.body.length = 96 := by
  simp [body, receiptMagic, ascii, r.jobId.2, r.envelopeDigest.2, r.leaseToken.2]

@[simp] theorem encode_length (r : CompactReceipt) : r.encode.length = compactReceiptSize := by
  rw [encode, List.length_append, body_length, (receiptDigest r.body).2]
  rfl

/-- The fields of a receipt, whatever follows them. -/
theorem body_fields (r : CompactReceipt) (z : Bytes) :
    slice (r.body ++ z) 0 8 = receiptMagic ∧ u16At (r.body ++ z) 8 = formatMajor ∧
      u16At (r.body ++ z) 10 = formatMinor ∧ u32At (r.body ++ z) 60 = r.finalAttempt ∧
      u64At (r.body ++ z) 80 = r.receiptBucketStartUnixNs ∧
      u64At (r.body ++ z) 88 = r.originalPayloadLength := by
  have hm : receiptMagic.length = 8 := rfl
  simp (disch := simp [hm, r.jobId.2, r.envelopeDigest.2, r.leaseToken.2]) only [body,
    List.append_assoc, u16At, u32At, u64At, slice_skip, slice_here hm, hm, u16Bytes_length,
    u32Bytes_length, u64Bytes_length, r.jobId.2, r.envelopeDigest.2, r.leaseToken.2,
    Nat.reduceSub, u16At_here, u32At_here, u64At_here, and_self]

/-- The identities in a receipt, whatever follows them. -/
theorem body_identities (r : CompactReceipt) (z : Bytes) :
    octetsAt 16 (r.body ++ z) 12 = r.jobId ∧ octetsAt 32 (r.body ++ z) 28 = r.envelopeDigest ∧
      octetsAt 16 (r.body ++ z) 64 = r.leaseToken := by
  have hm : receiptMagic.length = 8 := rfl
  refine ⟨octetsAt_eq ?_, octetsAt_eq ?_, octetsAt_eq ?_⟩
  · simp (disch := simp [hm]) only [body, List.append_assoc, slice_skip, hm, u16Bytes_length,
      Nat.reduceSub, slice_here r.jobId.2]
  · simp (disch := simp [hm, r.jobId.2]) only [body, List.append_assoc, slice_skip, hm,
      u16Bytes_length, r.jobId.2, Nat.reduceSub, slice_here r.envelopeDigest.2]
  · simp (disch := simp [hm, r.jobId.2, r.envelopeDigest.2]) only [body, List.append_assoc,
      slice_skip, hm, u16Bytes_length, u32Bytes_length, r.jobId.2, r.envelopeDigest.2,
      Nat.reduceSub, slice_here r.leaseToken.2]

theorem encode_magic (r : CompactReceipt) : slice r.encode 0 8 = receiptMagic :=
  (body_fields r _).1

/-- **A written receipt reads back as itself.** -/
theorem decode_encode (r : CompactReceipt) : decode r.encode = .ok r := by
  -- the digest is only compared, so it is kept abstract
  obtain ⟨d, hd⟩ : ∃ d, receiptDigest r.body = d := ⟨_, rfl⟩
  have hlen : r.encode.length = compactReceiptSize := encode_length r
  have henc : r.encode = r.body ++ d.1 := by rw [encode, hd]
  have hbody : slice (r.body ++ d.1) 0 96 = r.body := slice_here (body_length r)
  have hdigest : octetsAt 32 (r.body ++ d.1) 96 = d := by
    apply octetsAt_eq
    rw [slice_skip (by simp), body_length]
    simpa using slice_here (z := []) d.2
  have hminor : ¬ formatMinor < strictCompactReceiptMinor := by decide
  obtain ⟨h0, h8, h10, h60, h80, h88⟩ := body_fields r d.1
  obtain ⟨h12, h28, h64⟩ := body_identities r d.1
  rw [henc] at hlen ⊢
  simp only [decode, hlen, h0, h8, h10, h60, h80, h88, h12, h28, h64, hbody, hdigest, hd, hminor,
    ne_eq, not_true_eq_false, or_self, if_false]

end CompactReceipt

/-! ## 5. FORMAT -/

def isPowerOfTwo (n : UInt32) : Bool := n ≠ 0 ∧ n &&& (n - 1) = 0

/-- The parameters of a queue as they are written, checked or not. -/
structure FormatFields where
  queueId : Octets 16
  createdAtUnixNs : UInt64
  shardCount : UInt32
  leaseBucketWidthNs : UInt64
  delayedBucketWidthNs : UInt64
  terminalBucketWidthNs : UInt64
  maxPayloadLength : UInt64
  deriving DecidableEq

/-- The parameters of a queue, with what the constructor and the decoder check. -/
structure FormatRecord where
  queueId : Octets 16
  createdAtUnixNs : UInt64
  shardCount : UInt32
  leaseBucketWidthNs : UInt64
  delayedBucketWidthNs : UInt64
  terminalBucketWidthNs : UInt64
  maxPayloadLength : UInt64
  shards : isPowerOfTwo shardCount = true ∧ shardCount ≤ 4096
  leaseWidth : leaseBucketWidthNs ≠ 0
  delayedWidth : delayedBucketWidthNs ≠ 0
  terminalWidth : 60000000000 ≤ terminalBucketWidthNs ∧ terminalBucketWidthNs ≤ 86400000000000
  divides : terminalBucketWidthNs % delayedBucketWidthNs = 0
  payload : maxPayloadLength ≤ SteadQ.maxPayloadLength

inductive FormatError where
  | badMagic
  | unsupportedVersion (major minor : UInt16)
  | nonzeroFlags
  | nonzeroReserved
  | unsupportedDigestAlgo (algorithm : UInt8)
  | invalidNameTagBits (bits : UInt8)
  | invalidShardCount (count : UInt32)
  | invalidBucketWidth
  | payloadLimitExceeded
  | digestMismatch
  | nonzeroFeatureBits
  | wrongSize (expected actual : Nat)
  deriving DecidableEq, Repr

def formatDigest (header : Bytes) : Octets 32 :=
  sha256 (ascii "SteadQ-1-format" ++ [0] ++ header)

namespace FormatRecord

def new (queueId : Octets 16) (createdAtUnixNs : UInt64) (shardCount : UInt32)
    (leaseBucketWidthNs delayedBucketWidthNs terminalBucketWidthNs maxPayloadLength : UInt64) :
    Except FormatError FormatRecord :=
  if hs : isPowerOfTwo shardCount = true ∧ shardCount ≤ 4096 then
    if hl : leaseBucketWidthNs ≠ 0 then
      if hd : delayedBucketWidthNs ≠ 0 then
        if ht : 60000000000 ≤ terminalBucketWidthNs ∧ terminalBucketWidthNs ≤ 86400000000000 then
          if hm : terminalBucketWidthNs % delayedBucketWidthNs = 0 then
            if hp : maxPayloadLength ≤ SteadQ.maxPayloadLength then
              .ok ⟨queueId, createdAtUnixNs, shardCount, leaseBucketWidthNs, delayedBucketWidthNs,
                terminalBucketWidthNs, maxPayloadLength, hs, hl, hd, ht, hm, hp⟩
            else .error .payloadLimitExceeded
          else .error .invalidBucketWidth
        else .error .invalidBucketWidth
      else .error .invalidBucketWidth
    else .error .invalidBucketWidth
  else .error (.invalidShardCount shardCount)

/-- The bytes under the digest. -/
def body (f : FormatRecord) : Bytes :=
  formatMagic ++ (u16Bytes formatMajor ++ (u16Bytes formatMinor ++ (u32Bytes 0 ++ (f.queueId.1 ++
    (u64Bytes f.createdAtUnixNs ++ (u32Bytes f.shardCount ++ (u32Bytes 0 ++
    (u64Bytes f.leaseBucketWidthNs ++ (u64Bytes f.delayedBucketWidthNs ++
    (u64Bytes f.terminalBucketWidthNs ++ (u64Bytes f.maxPayloadLength ++
    ([digestAlgorithmSha256] ++ ([nameTagBits] ++ ((zeros 6).1 ++ (u64Bytes 0 ++ (u64Bytes 0 ++
    ((zeros 24).1 ++ [])))))))))))))))))

def encode (f : FormatRecord) : Bytes := f.body ++ (formatDigest f.body).1

def decode (buf : Bytes) : Except FormatError FormatRecord :=
  if buf.length ≠ formatSize then .error (.wrongSize formatSize buf.length)
  else if slice buf 0 8 ≠ formatMagic then .error .badMagic
  else if u16At buf 8 ≠ formatMajor then .error (.unsupportedVersion (u16At buf 8) (u16At buf 10))
  else if u32At buf 12 ≠ 0 then .error .nonzeroFlags
  else if u32At buf 44 ≠ 0 then .error .nonzeroReserved
  else if slice buf 80 1 ≠ [digestAlgorithmSha256] then
    .error (.unsupportedDigestAlgo ((slice buf 80 1).headD 0))
  else if slice buf 81 1 ≠ [nameTagBits] then
    .error (.invalidNameTagBits ((slice buf 81 1).headD 0))
  else if slice buf 82 6 ≠ (zeros 6).1 ∨ slice buf 104 24 ≠ (zeros 24).1 then
    .error .nonzeroReserved
  else if u64At buf 88 ≠ 0 ∨ u64At buf 96 ≠ 0 then .error .nonzeroFeatureBits
  else if formatDigest (slice buf 0 128) ≠ octetsAt 32 buf 128 then .error .digestMismatch
  else new (octetsAt 16 buf 16) (u64At buf 32) (u32At buf 40) (u64At buf 48) (u64At buf 56)
    (u64At buf 64) (u64At buf 72)

@[simp] theorem body_length (f : FormatRecord) : f.body.length = 128 := by
  simp [body, formatMagic, ascii, f.queueId.2, zeros]

@[simp] theorem encode_length (f : FormatRecord) : f.encode.length = formatSize := by
  rw [encode, List.length_append, body_length, (formatDigest f.body).2]
  rfl

/-- A valid record passes the constructor. -/
theorem new_self (f : FormatRecord) : new f.queueId f.createdAtUnixNs f.shardCount
    f.leaseBucketWidthNs f.delayedBucketWidthNs f.terminalBucketWidthNs f.maxPayloadLength =
      .ok f := by
  simp only [new, dif_pos f.shards, dif_pos f.leaseWidth, dif_pos f.delayedWidth,
    dif_pos f.terminalWidth, dif_pos f.divides, dif_pos f.payload]

def fields (f : FormatRecord) : FormatFields :=
  ⟨f.queueId, f.createdAtUnixNs, f.shardCount, f.leaseBucketWidthNs, f.delayedBucketWidthNs,
    f.terminalBucketWidthNs, f.maxPayloadLength⟩

end FormatRecord

namespace FormatFields

/-- The checks of the constructor. -/
def check (x : FormatFields) : Except FormatError FormatRecord :=
  FormatRecord.new x.queueId x.createdAtUnixNs x.shardCount x.leaseBucketWidthNs
    x.delayedBucketWidthNs x.terminalBucketWidthNs x.maxPayloadLength

/-- The bytes under the digest. -/
def body (x : FormatFields) : Bytes :=
  formatMagic ++ (u16Bytes formatMajor ++ (u16Bytes formatMinor ++ (u32Bytes 0 ++ (x.queueId.1 ++
    (u64Bytes x.createdAtUnixNs ++ (u32Bytes x.shardCount ++ (u32Bytes 0 ++
    (u64Bytes x.leaseBucketWidthNs ++ (u64Bytes x.delayedBucketWidthNs ++
    (u64Bytes x.terminalBucketWidthNs ++ (u64Bytes x.maxPayloadLength ++
    ([digestAlgorithmSha256] ++ ([nameTagBits] ++ ((zeros 6).1 ++ (u64Bytes 0 ++ (u64Bytes 0 ++
    ((zeros 24).1 ++ [])))))))))))))))))

def encode (x : FormatFields) : Bytes := x.body ++ (formatDigest x.body).1

@[simp] theorem body_length (x : FormatFields) : x.body.length = 128 := by
  simp [body, formatMagic, ascii, x.queueId.2, zeros]

/-- The checked fields of a record, whatever follows them. -/
theorem body_checks (x : FormatFields) (z : Bytes) :
    slice (x.body ++ z) 0 8 = formatMagic ∧ u16At (x.body ++ z) 8 = formatMajor ∧
      u32At (x.body ++ z) 12 = 0 ∧ u32At (x.body ++ z) 44 = 0 ∧
      slice (x.body ++ z) 80 1 = [digestAlgorithmSha256] ∧
      slice (x.body ++ z) 81 1 = [nameTagBits] ∧ slice (x.body ++ z) 82 6 = (zeros 6).1 ∧
      slice (x.body ++ z) 104 24 = (zeros 24).1 ∧ u64At (x.body ++ z) 88 = 0 ∧
      u64At (x.body ++ z) 96 = 0 := by
  have hm : formatMagic.length = 8 := rfl
  have hone (x : UInt8) (z : Bytes) : slice ([x] ++ z) 0 1 = [x] := slice_here rfl
  simp (disch := simp [hm, x.queueId.2, (zeros 6).2]) only [body, List.append_assoc, u16At, u32At,
    u64At, slice_skip, slice_here hm, hm, u16Bytes_length, u32Bytes_length, u64Bytes_length,
    x.queueId.2, (zeros 6).2, slice_here (zeros 6).2, slice_here (zeros 24).2, hone,
    List.length_cons, List.length_nil, Nat.reduceAdd, Nat.reduceSub, u16At_here, u32At_here,
    u64At_here, and_self]

/-- The parameters of a record, whatever follows them. -/
theorem body_parameters (x : FormatFields) (z : Bytes) :
    octetsAt 16 (x.body ++ z) 16 = x.queueId ∧ u64At (x.body ++ z) 32 = x.createdAtUnixNs ∧
      u32At (x.body ++ z) 40 = x.shardCount ∧ u64At (x.body ++ z) 48 = x.leaseBucketWidthNs ∧
      u64At (x.body ++ z) 56 = x.delayedBucketWidthNs ∧
      u64At (x.body ++ z) 64 = x.terminalBucketWidthNs ∧
      u64At (x.body ++ z) 72 = x.maxPayloadLength := by
  have hm : formatMagic.length = 8 := rfl
  refine ⟨octetsAt_eq ?_, ?_⟩
  · simp (disch := simp [hm]) only [body, List.append_assoc, slice_skip, hm, u16Bytes_length,
      u32Bytes_length, Nat.reduceSub, slice_here x.queueId.2]
  · simp (disch := simp [hm, x.queueId.2]) only [body, List.append_assoc, u32At, u64At, slice_skip,
      hm, u16Bytes_length, u32Bytes_length, u64Bytes_length, x.queueId.2, Nat.reduceSub,
      u32At_here, u64At_here, and_self]

/-- **The decoder makes the checks of the constructor**, on whatever was written. -/
theorem decode_encode (x : FormatFields) : FormatRecord.decode x.encode = x.check := by
  -- the digest is only compared, so it is kept abstract
  obtain ⟨d, hd⟩ : ∃ d, formatDigest x.body = d := ⟨_, rfl⟩
  have henc : x.encode = x.body ++ d.1 := by rw [encode, hd]
  have hlen : (x.body ++ d.1).length = formatSize := by
    rw [List.length_append, body_length, d.2]
    rfl
  have hbody : slice (x.body ++ d.1) 0 128 = x.body := slice_here (body_length x)
  have hdigest : octetsAt 32 (x.body ++ d.1) 128 = d := by
    apply octetsAt_eq
    rw [slice_skip (by simp), body_length]
    simpa using slice_here (z := []) d.2
  obtain ⟨c₀, c₁, c₂, c₃, c₄, c₅, c₆, c₇, c₈, c₉⟩ := body_checks x d.1
  obtain ⟨p₀, p₁, p₂, p₃, p₄, p₅, p₆⟩ := body_parameters x d.1
  rw [henc]
  simp only [FormatRecord.decode, hlen, c₀, c₁, c₂, c₃, c₄, c₅, c₆, c₇, c₈, c₉, hbody, hd,
    hdigest, ne_eq, not_true_eq_false, or_self, if_false, p₀, p₁, p₂, p₃, p₄, p₅, p₆]
  rfl

end FormatFields

/-- **A written FORMAT reads back as itself.** -/
theorem FormatRecord.decode_encode (f : FormatRecord) : decode f.encode = .ok f :=
  (f.fields.decode_encode).trans f.new_self

end SteadQ
