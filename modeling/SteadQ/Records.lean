/-
  File:      SteadQ/Records.lean
  Subject:   BINARY RECORDS, BOTH WAYS: FORMAT, the fixed job header, the compact receipt and the
             wall watermark.

  `Format.lean` writes a record as the concatenation of its fields and reads it at fixed offsets.
  Here a buffer is taken apart at the offsets (`pieces`), and what is read from each piece writes the
  piece (`u64Bytes_u64At`, `octetsAt_val`), so that an accepted buffer is the one its record
  writes.
-/
import Mathlib.Algebra.GroupWithZero.Nat
import SteadQ.Format

namespace SteadQ

open Octet

/-! ## 1. Taking a buffer apart -/

section Pieces

variable {b : Bytes} {o n : Nat}

/-- Pieces of the given lengths, from `o` on. -/
def pieces (b : Bytes) (o : Nat) : List Nat → Bytes
  | [] => []
  | n :: ns => slice b o n ++ pieces b (o + n) ns

theorem pieces_eq (b : Bytes) (o : Nat) (ns : List Nat) : pieces b o ns = slice b o ns.sum := by
  induction ns generalizing o with
  | nil => simp [pieces, slice]
  | cons n ns ih =>
    rw [pieces, ih, List.sum_cons, slice, slice, slice, List.take_add, List.drop_drop]

theorem slice_all (h : b.length = n) : slice b 0 n = b := by
  rw [slice, List.drop_zero, List.take_of_length_le h.le]

theorem slice_length (h : o + n ≤ b.length) : (slice b o n).length = n := by
  rw [slice, List.length_take, List.length_drop]
  omega

theorem beBytes_slice (h : o + n ≤ b.length) : beBytes n (beNat (slice b o n)) = slice b o n := by
  have hb := beBytes_beNat (slice b o n)
  rwa [slice_length h] at hb

theorem beNat_slice_lt (h : o + n ≤ b.length) : beNat (slice b o n) < 256 ^ n := by
  have hb := beNat_lt (slice b o n)
  rwa [slice_length h] at hb

theorem u16Bytes_u16At (h : o + 2 ≤ b.length) : u16Bytes (u16At b o) = slice b o 2 := by
  have hlt : beNat (slice b o 2) < 2 ^ 16 := beNat_slice_lt h
  rw [u16Bytes, u16At, UInt16.toNat_ofNat', Nat.mod_eq_of_lt hlt, beBytes_slice h]

theorem u32Bytes_u32At (h : o + 4 ≤ b.length) : u32Bytes (u32At b o) = slice b o 4 := by
  have hlt : beNat (slice b o 4) < 2 ^ 32 := beNat_slice_lt h
  rw [u32Bytes, u32At, UInt32.toNat_ofNat', Nat.mod_eq_of_lt hlt, beBytes_slice h]

theorem u64Bytes_u64At (h : o + 8 ≤ b.length) : u64Bytes (u64At b o) = slice b o 8 := by
  have hlt : beNat (slice b o 8) < 2 ^ 64 := beNat_slice_lt h
  rw [u64Bytes, u64At, UInt64.toNat_ofNat', Nat.mod_eq_of_lt hlt, beBytes_slice h]

theorem octetsAt_val (h : o + n ≤ b.length) : (octetsAt n b o).1 = slice b o n := by
  rw [octetsAt, dif_pos (slice_length h)]

end Pieces

/-! ## 2. The fixed job header -/

namespace FixedHeader

/-- What the decoder checks; every header the queue writes satisfies it. -/
structure Valid (h : FixedHeader) : Prop where
  flags : h.flags = 0
  algorithm : h.digestAlgorithm = digestAlgorithmSha256
  attempts : h.maximumAttempts ≠ 0
  payload : h.payloadLength ≤ maxPayloadLength
  extension : h.extensionHeaderLength.toNat ≤ maxExtensionHeaderLength

@[simp] theorem bytes_length (h : FixedHeader) : h.bytes.length = fixedHeaderSize := by
  simp [bytes, jobMagic, ascii, h.jobId.2, h.payloadDigest.2, h.envelopeDigest.2, fixedHeaderSize]

/-- The numbers and reserved bytes of a header. -/
theorem bytes_fields (h : FixedHeader) :
    slice h.bytes 0 8 = jobMagic ∧ u16At h.bytes 8 = SteadQ.formatMajor ∧
      u16At h.bytes 10 = h.formatMinor ∧ u32At h.bytes 12 = h.extensionHeaderLength ∧
      u64At h.bytes 16 = h.payloadLength ∧ u32At h.bytes 24 = h.flags ∧
      slice h.bytes 28 1 = [h.digestAlgorithm] ∧ slice h.bytes 29 3 = [0, 0, 0] ∧
      u32At h.bytes 48 = h.maximumAttempts ∧ slice h.bytes 52 4 = [0, 0, 0, 0] ∧
      u64At h.bytes 56 = h.createdAtUnixNs := by
  have hm : jobMagic.length = 8 := rfl
  have hone (x : UInt8) (z : Bytes) : slice ([x] ++ z) 0 1 = [x] := slice_here rfl
  have hthree (z : Bytes) : slice ([0, 0, 0] ++ z) 0 3 = [0, 0, 0] := slice_here rfl
  have hfour (z : Bytes) : slice ([0, 0, 0, 0] ++ z) 0 4 = [0, 0, 0, 0] := slice_here rfl
  simp (disch := simp [hm, h.jobId.2]) only [bytes, u16At, u32At, u64At, slice_skip, slice_here hm,
    hm, u16Bytes_length, u32Bytes_length, u64Bytes_length, h.jobId.2, hone, hthree, hfour,
    List.length_cons, List.length_nil, Nat.reduceAdd, Nat.reduceSub, u16At_here, u32At_here,
    u64At_here, and_self]

theorem bytes_identities (h : FixedHeader) :
    octetsAt 16 h.bytes 32 = h.jobId ∧ octetsAt 32 h.bytes 64 = h.payloadDigest ∧
      octetsAt 32 h.bytes 96 = h.envelopeDigest := by
  have hm : jobMagic.length = 8 := rfl
  refine ⟨octetsAt_eq ?_, octetsAt_eq ?_, octetsAt_eq ?_⟩
  · simp (disch := simp [hm]) only [bytes, slice_skip, hm, u16Bytes_length, u32Bytes_length,
      u64Bytes_length, List.length_cons, List.length_nil, Nat.reduceAdd, Nat.reduceSub,
      slice_here h.jobId.2]
  · simp (disch := simp [hm, h.jobId.2]) only [bytes, slice_skip, hm, u16Bytes_length,
      u32Bytes_length, u64Bytes_length, h.jobId.2, List.length_cons, List.length_nil,
      Nat.reduceAdd, Nat.reduceSub, slice_here h.payloadDigest.2]
  · simp (disch := simp [hm, h.jobId.2, h.payloadDigest.2]) only [bytes, slice_skip, hm,
      u16Bytes_length, u32Bytes_length, u64Bytes_length, h.jobId.2, h.payloadDigest.2,
      List.length_cons, List.length_nil, Nat.reduceAdd, Nat.reduceSub,
      slice_here h.envelopeDigest.2]

/-- **A valid header reads back as itself.** -/
theorem decode_bytes {h : FixedHeader} (hv : h.Valid) : decode h.bytes = .ok h := by
  obtain ⟨h₀, h₈, h₁₀, h₁₂, h₁₆, h₂₄, h₂₈, h₂₉, h₄₈, h₅₂, h₅₆⟩ := bytes_fields h
  obtain ⟨h₃₂, h₆₄, h₉₆⟩ := bytes_identities h
  have hpayload : ¬ h.payloadLength > maxPayloadLength := UInt64.not_lt.mpr hv.payload
  have hext : ¬ h.extensionHeaderLength.toNat > maxExtensionHeaderLength :=
    Nat.not_lt.mpr hv.extension
  simp only [decode, bytes_length, h₀, h₈, h₁₀, h₁₂, h₁₆, h₂₄, h₂₈, h₂₉, h₄₈, h₅₂, h₅₆, h₃₂, h₆₄,
    h₉₆, hv.flags, hv.algorithm, hv.attempts, hpayload, hext, ne_eq, not_true_eq_false, or_self,
    if_false, List.headD_cons]
  rw [← hv.flags, ← hv.algorithm]

/-- What the decoder found in an accepted buffer. -/
theorem decode_eq_ok {b : Bytes} {h : FixedHeader} (hd : decode b = .ok h) :
    b.length = fixedHeaderSize ∧ slice b 0 8 = jobMagic ∧ u16At b 8 = SteadQ.formatMajor ∧
      slice b 28 1 = [digestAlgorithmSha256] ∧ slice b 29 3 = [0, 0, 0] ∧
      slice b 52 4 = [0, 0, 0, 0] ∧ h.Valid ∧
      h = ⟨u16At b 10, u32At b 12, u64At b 16, u32At b 24, (slice b 28 1).headD 0,
        octetsAt 16 b 32, u32At b 48, u64At b 56, octetsAt 32 b 64, octetsAt 32 b 96⟩ := by
  unfold decode at hd
  split at hd
  · cases hd
  split at hd
  · cases hd
  split at hd
  · cases hd
  split at hd
  · cases hd
  split at hd
  · cases hd
  split at hd
  · cases hd
  split at hd
  · cases hd
  split at hd
  · cases hd
  split at hd
  · cases hd
  rename_i hlen hmagic hmajor hflags halgo hreserved hattempts hpayload hext
  rw [not_or, not_not, not_not] at hreserved
  rw [not_not] at hlen hmagic hmajor hflags halgo
  have hhead : (slice b 28 1).headD 0 = digestAlgorithmSha256 := by rw [halgo, List.headD_cons]
  have heq := (Except.ok.inj hd).symm
  refine ⟨hlen, hmagic, hmajor, halgo, hreserved.1, hreserved.2, ?_, heq⟩
  rw [heq]
  exact ⟨hflags, hhead, hattempts, UInt64.not_lt.mp hpayload, Nat.not_lt.mp hext⟩

/-- **An accepted buffer is the one its header writes.** -/
theorem bytes_of_decode {b : Bytes} {h : FixedHeader} (hd : decode b = .ok h) : h.bytes = b := by
  obtain ⟨hlen, hmagic, hmajor, halgo, h₂₉, h₅₂, -, rfl⟩ := decode_eq_ok hd
  have hlen : b.length = 128 := hlen
  have hhead : [(slice b 28 1).headD 0] = slice b 28 1 := by rw [halgo, List.headD_cons]
  have h₈ : slice b 8 2 = u16Bytes SteadQ.formatMajor := by
    rw [← hmajor, u16Bytes_u16At (by omega)]
  have hb := pieces_eq b 0 [8, 2, 2, 4, 8, 4, 1, 3, 16, 4, 4, 8, 32, 32]
  simp only [pieces, Nat.reduceAdd, hmagic, h₈, h₂₉, h₅₂] at hb
  simp (disch := omega) only [bytes, hhead, u16Bytes_u16At, u32Bytes_u32At, u64Bytes_u64At,
    octetsAt_val]
  exact hb.trans (slice_all hlen)

theorem encode_eq_ok {h : FixedHeader} {extension : Bytes}
    (hlen : extension.length = h.extensionHeaderLength.toNat) :
    h.encode extension = .ok h.bytes := by
  rw [encode, hlen, UInt32.ofNat_toNat, if_neg (not_not.mpr rfl)]

end FixedHeader

/-! ## 3. Records under a digest -/

/-- A buffer is what stands in front of its digest, and the digest. -/
theorem append_digest {b body : Bytes} {digest : Bytes → Octets 32} {n : Nat}
    (hlen : b.length = n + 32) (hbody : body = slice b 0 n)
    (hdigest : digest (slice b 0 n) = octetsAt 32 b n) : body ++ (digest body).1 = b := by
  rw [hbody, hdigest, octetsAt_val hlen.ge]
  have hb := pieces_eq b 0 [n, 32]
  simp only [pieces, Nat.zero_add, List.append_nil, List.sum_cons, List.sum_nil, Nat.add_zero] at hb
  exact hb.trans (slice_all hlen)

/-- **An accepted watermark of this version is the one its record writes.** -/
theorem WatermarkRecord.encode_of_decode {b : Bytes} {r : WatermarkRecord}
    (hminor : u16At b 10 = formatMinor) (hd : decode b = .ok r) : r.encode = b := by
  unfold decode at hd
  split at hd
  · cases hd
  split at hd
  · cases hd
  split at hd
  · cases hd
  split at hd
  · cases hd
  split at hd
  · cases hd
  rename_i hlen hmagic hmajor hreserved hdigest
  rw [not_not] at hlen hmagic hmajor hreserved hdigest
  cases hd
  have hlen : b.length = 64 := hlen
  have h₈ : slice b 8 2 = u16Bytes formatMajor := by rw [← hmajor, u16Bytes_u16At (by omega)]
  have h₁₀ : slice b 10 2 = u16Bytes formatMinor := by rw [← hminor, u16Bytes_u16At (by omega)]
  have h₁₂ : slice b 12 4 = u32Bytes 0 := by rw [← hreserved, u32Bytes_u32At (by omega)]
  have hbody : body ⟨u64At b 16, u64At b 24⟩ = slice b 0 32 := by
    have hb := pieces_eq b 0 [8, 2, 2, 4, 8, 8]
    simp only [pieces, Nat.reduceAdd, hmagic, h₈, h₁₀, h₁₂] at hb
    simp (disch := omega) only [body, u64Bytes_u64At]
    exact hb
  exact append_digest hlen hbody hdigest

/-- **An accepted receipt of this version is the one its record writes.** -/
theorem CompactReceipt.encode_of_decode {b : Bytes} {r : CompactReceipt}
    (hminor : u16At b 10 = formatMinor) (hd : decode b = .ok r) : r.encode = b := by
  unfold decode at hd
  split at hd
  · cases hd
  split at hd
  · cases hd
  split at hd
  · cases hd
  split at hd
  · cases hd
  rename_i hlen hmagic hversion hdigest
  rw [not_or, not_not] at hversion
  rw [not_not] at hlen hmagic hdigest
  cases hd
  have hlen : b.length = 128 := hlen
  have h₈ : slice b 8 2 = u16Bytes formatMajor := by
    rw [← hversion.1, u16Bytes_u16At (by omega)]
  have h₁₀ : slice b 10 2 = u16Bytes formatMinor := by rw [← hminor, u16Bytes_u16At (by omega)]
  refine append_digest hlen ?_ hdigest
  have hb := pieces_eq b 0 [8, 2, 2, 16, 32, 4, 16, 8, 8]
  simp only [pieces, Nat.reduceAdd, hmagic, h₈, h₁₀] at hb
  simp (disch := omega) only [body, u32Bytes_u32At, u64Bytes_u64At, octetsAt_val]
  exact hb

/-- What the constructor checks it keeps. -/
theorem FormatRecord.fields_of_new {x : FormatFields} {f : FormatRecord} (h : x.check = .ok f) :
    f.fields = x := by
  unfold FormatFields.check FormatRecord.new at h
  split at h
  · split at h
    · split at h
      · split at h
        · split at h
          · split at h
            · cases h
              rfl
            · cases h
          · cases h
        · cases h
      · cases h
    · cases h
  · cases h

/-- **An accepted FORMAT of this version is the one its record writes.** -/
theorem FormatRecord.encode_of_decode {b : Bytes} {f : FormatRecord}
    (hminor : u16At b 10 = formatMinor) (hd : decode b = .ok f) : f.encode = b := by
  unfold decode at hd
  split at hd
  · cases hd
  split at hd
  · cases hd
  split at hd
  · cases hd
  split at hd
  · cases hd
  split at hd
  · cases hd
  split at hd
  · cases hd
  split at hd
  · cases hd
  split at hd
  · cases hd
  split at hd
  · cases hd
  split at hd
  · cases hd
  rename_i hlen hmagic hmajor hflags hreserved halgo hbits hzeros hfeatures hdigest
  rw [not_or, not_not, not_not] at hzeros hfeatures
  rw [not_not] at hlen hmagic hmajor hflags hreserved halgo hbits hdigest
  have hfields : f.fields = ⟨octetsAt 16 b 16, u64At b 32, u32At b 40, u64At b 48, u64At b 56,
      u64At b 64, u64At b 72⟩ := fields_of_new hd
  have hlen : b.length = 160 := hlen
  have h₈ : slice b 8 2 = u16Bytes formatMajor := by rw [← hmajor, u16Bytes_u16At (by omega)]
  have h₁₀ : slice b 10 2 = u16Bytes formatMinor := by rw [← hminor, u16Bytes_u16At (by omega)]
  have h₁₂ : slice b 12 4 = u32Bytes 0 := by rw [← hflags, u32Bytes_u32At (by omega)]
  have h₄₄ : slice b 44 4 = u32Bytes 0 := by rw [← hreserved, u32Bytes_u32At (by omega)]
  have h₈₈ : slice b 88 8 = u64Bytes 0 := by rw [← hfeatures.1, u64Bytes_u64At (by omega)]
  have h₉₆ : slice b 96 8 = u64Bytes 0 := by rw [← hfeatures.2, u64Bytes_u64At (by omega)]
  have hencode : f.encode = f.fields.encode := rfl
  rw [hencode, hfields]
  refine append_digest hlen ?_ hdigest
  have hb := pieces_eq b 0 [8, 2, 2, 4, 16, 8, 4, 4, 8, 8, 8, 8, 1, 1, 6, 8, 8, 24]
  simp only [pieces, Nat.reduceAdd, hmagic, h₈, h₁₀, h₁₂, h₄₄, halgo, hbits, hzeros.1, h₈₈, h₉₆,
    hzeros.2] at hb
  simp (disch := omega) only [FormatFields.body, u32Bytes_u32At, u64Bytes_u64At, octetsAt_val]
  exact hb

/-! ## 4. The options of a new queue -/

structure CreateOptions where
  shardCount : UInt32 := 64
  leaseBucketWidthNs : UInt64 := 10000000000
  delayedBucketWidthNs : UInt64 := 10000000000
  terminalBucketWidthNs : UInt64 := 3600000000000
  maxPayloadLength : UInt64 := SteadQ.maxPayloadLength

def validateCreateOptions (opts : CreateOptions) : Except Error Unit :=
  if isPowerOfTwo opts.shardCount = false ∨ opts.shardCount > 4096 then
    .error (.invalidInput "invalid shard count")
  else if opts.leaseBucketWidthNs = 0 then
    .error (.invalidInput "lease bucket width must be non-zero")
  else if opts.delayedBucketWidthNs = 0 then
    .error (.invalidInput "delayed bucket width must be non-zero")
  else if opts.terminalBucketWidthNs = 0 then
    .error (.invalidInput "terminal bucket width must be non-zero")
  else if ¬ (60000000000 ≤ opts.terminalBucketWidthNs ∧
      opts.terminalBucketWidthNs ≤ 86400000000000) then
    .error (.invalidInput "invalid terminal bucket width")
  else if ¬ opts.terminalBucketWidthNs % opts.delayedBucketWidthNs = 0 then
    .error (.invalidInput "delayed bucket width must divide terminal bucket width")
  else if opts.maxPayloadLength > SteadQ.maxPayloadLength then
    .error (.invalidInput "payload limit exceeds maximum")
  else .ok ()

/-- The record a new queue gets. -/
def CreateOptions.fields (opts : CreateOptions) (queueId : Octets 16) (createdAtUnixNs : UInt64) :
    FormatFields :=
  ⟨queueId, createdAtUnixNs, opts.shardCount, opts.leaseBucketWidthNs, opts.delayedBucketWidthNs,
    opts.terminalBucketWidthNs, opts.maxPayloadLength⟩

/-- What all three validators ask. -/
structure CreateOptions.Valid (opts : CreateOptions) : Prop where
  shards : isPowerOfTwo opts.shardCount = true ∧ opts.shardCount ≤ 4096
  leaseWidth : opts.leaseBucketWidthNs ≠ 0
  delayedWidth : opts.delayedBucketWidthNs ≠ 0
  terminalWidth : 60000000000 ≤ opts.terminalBucketWidthNs ∧
    opts.terminalBucketWidthNs ≤ 86400000000000
  divides : opts.terminalBucketWidthNs % opts.delayedBucketWidthNs = 0
  payload : opts.maxPayloadLength ≤ SteadQ.maxPayloadLength

theorem validateCreateOptions_iff (opts : CreateOptions) :
    validateCreateOptions opts = .ok () ↔ opts.Valid := by
  constructor
  · intro h
    unfold validateCreateOptions at h
    split at h
    · cases h
    split at h
    · cases h
    split at h
    · cases h
    split at h
    · cases h
    split at h
    · cases h
    split at h
    · cases h
    split at h
    · cases h
    rename_i hshards hlease hdelayed hterminal hwidth hdivides hpayload
    rw [not_or, Bool.not_eq_false, UInt32.not_lt] at hshards
    exact ⟨hshards, hlease, hdelayed, not_not.mp hwidth, not_not.mp hdivides,
      UInt64.not_lt.mp hpayload⟩
  · intro h
    have hshards : ¬ (isPowerOfTwo opts.shardCount = false ∨ opts.shardCount > 4096) := by
      rw [not_or, Bool.not_eq_false, UInt32.not_lt]
      exact h.shards
    -- zero is below the smallest terminal width, so that check never decides
    have hterminal : opts.terminalBucketWidthNs ≠ 0 := by
      intro h0
      have := h.terminalWidth.1
      rw [h0] at this
      exact absurd this (by decide)
    rw [validateCreateOptions, if_neg hshards, if_neg h.leaseWidth, if_neg h.delayedWidth,
      if_neg hterminal, if_neg (not_not.mpr h.terminalWidth), if_neg (not_not.mpr h.divides),
      if_neg (UInt64.not_lt.mpr h.payload)]

theorem check_iff (opts : CreateOptions) (queueId : Octets 16) (createdAtUnixNs : UInt64) :
    (∃ f, (opts.fields queueId createdAtUnixNs).check = .ok f) ↔ opts.Valid := by
  constructor
  · rintro ⟨f, hf⟩
    have hfields := FormatRecord.fields_of_new hf
    simp only [FormatRecord.fields, CreateOptions.fields, FormatFields.mk.injEq] at hfields
    obtain ⟨-, -, h₁, h₂, h₃, h₄, h₅⟩ := hfields
    exact ⟨h₁ ▸ f.shards, h₂ ▸ f.leaseWidth, h₃ ▸ f.delayedWidth, h₄ ▸ f.terminalWidth,
      h₃ ▸ h₄ ▸ f.divides, h₅ ▸ f.payload⟩
  · intro h
    let f : FormatRecord := ⟨queueId, createdAtUnixNs, opts.shardCount, opts.leaseBucketWidthNs,
      opts.delayedBucketWidthNs, opts.terminalBucketWidthNs, opts.maxPayloadLength, h.shards,
      h.leaseWidth, h.delayedWidth, h.terminalWidth, h.divides, h.payload⟩
    exact ⟨f, f.new_self⟩

/-! ## 5. All records -/

/-- **The binary records are faithful.** What is written reads back; an accepted buffer of this
    version is the one its record writes; and the options of a new queue are accepted by all
    three validators or by none. -/
theorem records_faithful :
    (∀ queueId created shards lease delayed terminal payload f,
      FormatRecord.new queueId created shards lease delayed terminal payload = .ok f →
        FormatRecord.decode f.encode = .ok f) ∧
    (∀ (h : FixedHeader) (extension : Bytes), h.Valid →
      extension.length = h.extensionHeaderLength.toNat →
        ∃ b, h.encode extension = .ok b ∧ FixedHeader.decode b = .ok h) ∧
    (∀ r : CompactReceipt, CompactReceipt.decode r.encode = .ok r) ∧
    (∀ r : WatermarkRecord, WatermarkRecord.decode r.encode = .ok r) ∧
    (∀ b h extension, FixedHeader.decode b = .ok h →
      extension.length = h.extensionHeaderLength.toNat → h.encode extension = .ok b) ∧
    (∀ b, u16At b 10 = 1 →
      (∀ f, FormatRecord.decode b = .ok f → f.encode = b) ∧
      (∀ r, CompactReceipt.decode b = .ok r → r.encode = b) ∧
      (∀ r, WatermarkRecord.decode b = .ok r → r.encode = b)) ∧
    ∀ (opts : CreateOptions) (queueId : Octets 16) (created : UInt64),
      (validateCreateOptions opts = .ok () ↔
        ∃ f, FormatRecord.new queueId created opts.shardCount opts.leaseBucketWidthNs
          opts.delayedBucketWidthNs opts.terminalBucketWidthNs opts.maxPayloadLength = .ok f) ∧
      (validateCreateOptions opts = .ok () ↔
        ∃ f, FormatRecord.decode (opts.fields queueId created).encode = .ok f) := by
  refine ⟨?_, ?_, CompactReceipt.decode_encode, WatermarkRecord.decode_encode, ?_, ?_, ?_⟩
  · intro _ _ _ _ _ _ _ f _
    exact f.decode_encode
  · intro h extension hv hlen
    exact ⟨h.bytes, FixedHeader.encode_eq_ok hlen, FixedHeader.decode_bytes hv⟩
  · intro b h extension hd hlen
    rw [FixedHeader.encode_eq_ok hlen, FixedHeader.bytes_of_decode hd]
  · intro b hminor
    exact ⟨fun _ => FormatRecord.encode_of_decode hminor,
      fun _ => CompactReceipt.encode_of_decode hminor,
      fun _ => WatermarkRecord.encode_of_decode hminor⟩
  · intro opts queueId created
    have hcheck := check_iff opts queueId created
    rw [validateCreateOptions_iff, FormatFields.decode_encode]
    exact ⟨hcheck.symm, hcheck.symm⟩

end SteadQ
