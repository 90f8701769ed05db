/-
  File:      SteadQ/Envelope.lean
  Subject:   THE ENVELOPE IN A BUFFER (`ValidatedEnvelope::from_bytes`), and what its digest
             commits to.

  The digest of an envelope covers the header, with the digest field zeroed, and the extension; the
  header holds the digest of the payload and both lengths.
-/
import SteadQ.Content
import SteadQ.Records

namespace SteadQ

open Octet Interact

/-! ## 1. Checks on a buffer -/

inductive EnvelopeError where
  | header (e : HeaderError)
  | envelopeDigestMismatch
  | payloadDigestMismatch
  | tooShort (expected actual : Nat)
  | trailingBytes
  | io (message : String)
  deriving DecidableEq

structure ValidatedEnvelope where
  header : FixedHeader
  extension : Bytes
  payload : Bytes
  deriving DecidableEq

namespace ValidatedEnvelope

/-- `a.checked_add(b)` of two sizes. -/
def checkedAdd (a b : Nat) : Except EnvelopeError Nat :=
  if a + b < 2 ^ 64 then .ok (a + b) else .error (.io "size overflow")

/-- Parse and validate a whole object. -/
def fromBytes (data : Bytes) (verifyPayload : Bool) : Except EnvelopeError ValidatedEnvelope :=
  if data.length < fixedHeaderSize then .error (.tooShort fixedHeaderSize data.length)
  else do
    let header ← (FixedHeader.decode (slice data 0 fixedHeaderSize)).mapError .header
    let extLen := header.extensionHeaderLength.toNat
    let withExtension ← checkedAdd fixedHeaderSize extLen
    let expectedTotal ← checkedAdd withExtension header.payloadLength.toNat
    if data.length ≠ expectedTotal then
      if data.length > expectedTotal then throw .trailingBytes
      else throw (.tooShort expectedTotal data.length)
    else
      let extension := slice data fixedHeaderSize extLen
      let payload := data.drop (fixedHeaderSize + extLen)
      if ¬ verifyEnvelopeDigest header extension then throw .envelopeDigestMismatch
      else if verifyPayload = true ∧ payloadDigest payload ≠ header.payloadDigest then
        throw .payloadDigestMismatch
      else return ⟨header, extension, payload⟩

/-- The envelope in a buffer with this header. -/
def ofBytes (header : FixedHeader) (data : Bytes) : ValidatedEnvelope :=
  ⟨header, extensionOf header data, payloadOf header data⟩

end ValidatedEnvelope

open ValidatedEnvelope

theorem EnvelopeBytes.payload_eq {header : FixedHeader} {data : Bytes}
    (he : EnvelopeBytes header data) :
    data.drop (fixedHeaderSize + header.extensionHeaderLength.toNat) = payloadOf header data := by
  have hsize := he.size
  rw [payloadOf, slice, List.take_of_length_le (by rw [List.length_drop]; omega)]
  rfl

/-- The lengths a header can declare do not overflow. -/
theorem decode_lengths {buf : Bytes} {header : FixedHeader}
    (hd : FixedHeader.decode buf = .ok header) :
    header.extensionHeaderLength.toNat ≤ 65536 ∧ header.payloadLength.toNat < 2 ^ 40 := by
  obtain ⟨-, -, -, -, -, -, hvalid, -⟩ := FixedHeader.decode_eq_ok hd
  have hext := hvalid.extension
  have hpayload := UInt64.le_iff_toNat_le.mp hvalid.payload
  have hmax : maxPayloadLength.toNat = 1099511627775 := rfl
  simp only [maxExtensionHeaderLength] at hext
  omega

/-- **The verdict on a buffer.** -/
theorem fromBytes_spec (data : Bytes) (verifyPayload : Bool) :
    (∃ header, EnvelopeBytes header data ∧
      fromBytes data verifyPayload =
        if verifyPayload = true ∧ payloadDigest (payloadOf header data) ≠ header.payloadDigest then
          .error .payloadDigestMismatch
        else .ok (ofBytes header data)) ∨
    ((∀ header, ¬ EnvelopeBytes header data) ∧
      ∃ e, e ≠ .payloadDigestMismatch ∧ fromBytes data verifyPayload = .error e) := by
  have hnone {e : EnvelopeError} (he : e ≠ .payloadDigestMismatch)
      (hbytes : ∀ header, ¬ EnvelopeBytes header data) :
      (∀ header, ¬ EnvelopeBytes header data) ∧
        ∃ e', e' ≠ .payloadDigestMismatch ∧ (.error e : Except _ ValidatedEnvelope) = .error e' :=
    ⟨hbytes, e, he, rfl⟩
  unfold fromBytes
  split
  · rename_i hshort
    refine .inr (hnone (fun h => by cases h) fun header hb => ?_)
    have hlen := decode_length hb.decodes
    rw [slice, List.length_take, List.length_drop] at hlen
    omega
  · cases hd : FixedHeader.decode (slice data 0 fixedHeaderSize) with
    | error e =>
      refine .inr (hnone (fun h => by cases h) fun header hb => ?_)
      cases hd.symm.trans hb.decodes
    | ok header =>
      have honly {header' : FixedHeader} (hb : EnvelopeBytes header' data) : header' = header :=
        Except.ok.inj (hb.decodes.symm.trans hd)
      obtain ⟨hext, hpayload⟩ := decode_lengths hd
      have hfirst : checkedAdd fixedHeaderSize header.extensionHeaderLength.toNat =
          .ok (128 + header.extensionHeaderLength.toNat) :=
        if_pos (by simp only [fixedHeaderSize]; omega)
      have hsecond : checkedAdd (128 + header.extensionHeaderLength.toNat)
          header.payloadLength.toNat =
          .ok (128 + header.extensionHeaderLength.toNat + header.payloadLength.toNat) :=
        if_pos (by omega)
      simp only [Except.mapError, bind, Except.bind, hfirst, hsecond]
      split
      · rename_i hsize
        have hbytes : ∀ header', ¬ EnvelopeBytes header' data := fun header' hb =>
          hsize (by rw [← honly hb]; exact hb.size)
        split
        · exact .inr (hnone (fun h => by cases h) hbytes)
        · exact .inr (hnone (fun h => by cases h) hbytes)
      · rename_i hsize
        rw [not_not] at hsize
        split
        · rename_i hdigest
          refine .inr (hnone (fun h => by cases h) fun header' hb => hdigest ?_)
          rw [← honly hb]
          exact hb.envelope
        · rename_i hdigest
          have hb : EnvelopeBytes header data :=
            ⟨hd, by simpa [isExtensionTooLarge] using hext, hsize, by omega, not_not.mp hdigest⟩
          rw [hb.payload_eq]
          exact .inl ⟨header, hb, rfl⟩

theorem fromBytes_eq_ok {data : Bytes} {verifyPayload : Bool} {env : ValidatedEnvelope} :
    fromBytes data verifyPayload = .ok env ↔ EnvelopeBytes env.header data ∧
      env.extension = extensionOf env.header data ∧ env.payload = payloadOf env.header data ∧
        (verifyPayload = true → payloadDigest env.payload = env.header.payloadDigest) := by
  rcases fromBytes_spec data verifyPayload with ⟨header, hb, heq⟩ | ⟨hbytes, e, -, heq⟩
  · rw [heq]
    constructor
    · intro h
      split at h
      · cases h
      · rename_i hdigest
        cases h
        exact ⟨hb, rfl, rfl, fun hv => not_not.mp fun hne => hdigest ⟨hv, hne⟩⟩
    · obtain ⟨header', extension, payload⟩ := env
      dsimp only
      rintro ⟨hb', rfl, rfl, hdigest⟩
      obtain rfl := hb.unique hb'
      rw [if_neg fun hbad => hbad.2 (hdigest hbad.1)]
      rfl
  · rw [heq]
    exact ⟨nofun, fun h => absurd h.1 (hbytes _)⟩

/-! ## 2. The layout -/

/-- The header without its digest. -/
def FixedHeader.front (h : FixedHeader) : Bytes := h.bytes.take 96

theorem FixedHeader.bytes_eq (h : FixedHeader) : h.bytes = h.front ++ h.envelopeDigest.1 := by
  have hlast : h.bytes.drop 96 = h.envelopeDigest.1 := by
    have hslice : slice h.bytes 96 32 = h.envelopeDigest.1 := by
      rw [← octetsAt_val (by rw [bytes_length]; decide), (bytes_identities h).2.2]
    rw [← hslice, slice, List.take_of_length_le (by rw [List.length_drop, bytes_length]; decide)]
  rw [front, ← hlast, List.take_append_drop]

theorem FixedHeader.front_length (h : FixedHeader) : h.front.length = 96 := by
  rw [front, List.length_take, bytes_length]
  rfl

/-- The header as it is hashed. -/
def FixedHeader.zeroed (h : FixedHeader) : FixedHeader := { h with envelopeDigest := zeros 32 }

theorem FixedHeader.front_zeroed (h : FixedHeader) : h.zeroed.front = h.front := by
  have hm : jobMagic.length = 8 := rfl
  simp only [front, bytes, zeroed, List.take_append, hm, u16Bytes_length, u32Bytes_length,
    u64Bytes_length, h.jobId.2, h.payloadDigest.2, List.length_cons, List.length_nil,
    Nat.reduceAdd, Nat.reduceSub, List.take_zero, List.take_nil]

/-- Headers with one front and one digest are one header. -/
theorem FixedHeader.eq_of_front {h h' : FixedHeader} (hv : h.Valid) (hv' : h'.Valid)
    (hfront : h.front = h'.front) (hdigest : h.envelopeDigest = h'.envelopeDigest) : h = h' := by
  have hbytes : h.bytes = h'.bytes := by rw [bytes_eq, bytes_eq, hfront, hdigest]
  have hdecode := decode_bytes hv
  rw [hbytes, decode_bytes hv'] at hdecode
  exact (Except.ok.inj hdecode).symm

/-- What the envelope digest is computed from. -/
def envelopeMessage (header : FixedHeader) (extension : Bytes) : Bytes :=
  ascii "SteadQ-1-envelope" ++ [0] ++ header.zeroed.bytes ++ extension

theorem verifyEnvelopeDigest_iff {header : FixedHeader} {extension : Bytes}
    (hlen : extension.length = header.extensionHeaderLength.toNat) :
    verifyEnvelopeDigest header extension = true ↔
      sha256 (envelopeMessage header extension) = header.envelopeDigest := by
  have henc : header.zeroed.encode extension = .ok header.zeroed.bytes :=
    FixedHeader.encode_eq_ok hlen
  unfold verifyEnvelopeDigest envelopeDigest
  rw [show { header with envelopeDigest := zeros 32 } = header.zeroed from rfl, henc]
  exact decide_eq_true_iff

/-- What is hashed of an envelope determines the front of the header and the extension. -/
theorem envelopeMessage_inj {header header' : FixedHeader} {extension extension' : Bytes}
    (h : envelopeMessage header extension = envelopeMessage header' extension') :
    header.front = header'.front ∧ extension = extension' := by
  unfold envelopeMessage at h
  obtain ⟨hhead, hext⟩ := List.append_inj h (by
    simp only [List.length_append, FixedHeader.bytes_length])
  obtain ⟨-, hbytes⟩ := List.append_inj hhead rfl
  refine ⟨?_, hext⟩
  rw [← header.front_zeroed, ← header'.front_zeroed, FixedHeader.front, hbytes]
  rfl

section Layout

variable {header header' : FixedHeader} {data data' : Bytes}

theorem EnvelopeBytes.header_bytes (he : EnvelopeBytes header data) :
    header.bytes = data.take 128 := by
  rw [FixedHeader.bytes_of_decode he.decodes]
  rfl

theorem EnvelopeBytes.valid (he : EnvelopeBytes header data) : header.Valid :=
  (FixedHeader.decode_eq_ok he.decodes).2.2.2.2.2.2.1

/-- **An accepted buffer is header, extension and payload.** -/
theorem EnvelopeBytes.layout (he : EnvelopeBytes header data) :
    data = header.bytes ++ (extensionOf header data ++ payloadOf header data) := by
  have hrest : extensionOf header data ++ payloadOf header data = data.drop 128 := by
    rw [← he.payload_eq, extensionOf, slice]
    show _ ++ data.drop (128 + _) = _
    rw [← List.drop_drop, List.take_append_drop]
  rw [hrest, he.header_bytes, List.take_append_drop]

theorem EnvelopeBytes.digest (he : EnvelopeBytes header data) :
    sha256 (envelopeMessage header (extensionOf header data)) = header.envelopeDigest :=
  (verifyEnvelopeDigest_iff he.extension_length).mp he.envelope

theorem EnvelopeBytes.front_eq (he : EnvelopeBytes header data) : header.front = data.take 96 := by
  rw [FixedHeader.front, he.header_bytes, List.take_take]
  rfl

theorem EnvelopeBytes.digest_eq (he : EnvelopeBytes header data) :
    header.envelopeDigest.1 = slice data 96 32 := by
  have hdrop := congrArg (List.drop 96) (header.bytes_eq.symm.trans he.header_bytes)
  rw [List.drop_left' header.front_length, List.drop_take] at hdrop
  exact hdrop

end Layout

/-! ## 3. What a digest commits to -/

/-- The messages that are hashed when an object is verified. -/
def ValidatedEnvelope.hashed (env : ValidatedEnvelope) : List Bytes :=
  [envelopeMessage env.header env.extension, env.payload]

/-- Two different messages, one of each object, with one digest. -/
def Collision (env env' : ValidatedEnvelope) : Prop :=
  ∃ m ∈ env.hashed, ∃ m' ∈ env'.hashed, m ≠ m' ∧ sha256 m = sha256 m'

section Commitment

variable {data data' : Bytes} {env env' : ValidatedEnvelope}

/-- Messages at one place of two objects with one digest are one message. -/
theorem eq_of_not_collision (hfree : ¬ Collision env env') {m m' : Bytes} (hm : m ∈ env.hashed)
    (hm' : m' ∈ env'.hashed) (h : sha256 m = sha256 m') : m = m' := by
  by_contra hne
  exact hfree ⟨m, hm, m', hm', hne, h⟩

/-- **One envelope digest, one object.** -/
theorem data_eq_of_digest (h : fromBytes data true = .ok env) (h' : fromBytes data' true = .ok env')
    (hdigest : env.header.envelopeDigest = env'.header.envelopeDigest)
    (hfree : ¬ Collision env env') : data = data' := by
  obtain ⟨he, hext, hbody, hpayload⟩ := fromBytes_eq_ok.mp h
  obtain ⟨he', hext', hbody', hpayload'⟩ := fromBytes_eq_ok.mp h'
  have hmessage : envelopeMessage env.header env.extension =
      envelopeMessage env'.header env'.extension := by
    refine eq_of_not_collision hfree List.mem_cons_self List.mem_cons_self ?_
    rw [hext, hext', he.digest, he'.digest, hdigest]
  obtain ⟨hfront, hextension⟩ := envelopeMessage_inj hmessage
  have hheader := FixedHeader.eq_of_front he.valid he'.valid hfront hdigest
  have hsame : env.payload = env'.payload := by
    refine eq_of_not_collision hfree (by simp [hashed]) (by simp [hashed]) ?_
    show payloadDigest env.payload = payloadDigest env'.payload
    rw [hpayload rfl, hpayload' rfl, hheader]
  rw [he.layout, he'.layout, ← hext, ← hext', ← hbody, ← hbody', hheader, hextension, hsame]

/-- A byte changed in an accepted object leaves the digest as it was, if it is accepted still. -/
theorem digest_of_set (h : fromBytes data true = .ok env) {i : Nat} {b : UInt8}
    (h' : fromBytes (data.set i b) true = .ok env') :
    env.header.envelopeDigest = env'.header.envelopeDigest := by
  obtain ⟨he, -⟩ := fromBytes_eq_ok.mp h
  obtain ⟨he', -⟩ := fromBytes_eq_ok.mp h'
  by_cases hi : 96 ≤ i ∧ i < 128
  · -- the digest itself is not hashed
    have hfront : env.header.zeroed.front = env'.header.zeroed.front := by
      rw [FixedHeader.front_zeroed, FixedHeader.front_zeroed, he.front_eq, he'.front_eq,
        List.take_set_of_le hi.1]
    have hzeroed : env.header.zeroed = env'.header.zeroed :=
      FixedHeader.eq_of_front { he.valid with } { he'.valid with } hfront rfl
    have hlen : env.header.extensionHeaderLength = env'.header.extensionHeaderLength :=
      show env.header.zeroed.extensionHeaderLength = env'.header.zeroed.extensionHeaderLength by
        rw [hzeroed]
    have hext : extensionOf env'.header (data.set i b) = extensionOf env.header data := by
      rw [extensionOf, extensionOf, slice, slice, List.drop_set_of_lt hi.2, hlen]
    rw [← he.digest, ← he'.digest, hext, envelopeMessage, envelopeMessage, hzeroed]
  · have hslice : slice (data.set i b) 96 32 = slice data 96 32 := by
      rw [slice, slice]
      rcases Nat.lt_or_ge i 96 with hlt | hge
      · rw [List.drop_set_of_lt hlt]
      · rw [List.drop_set, if_neg (Nat.not_lt.mpr hge), List.take_set_of_le (by omega)]
    exact Subtype.ext (by rw [he.digest_eq, he'.digest_eq, hslice])

end Commitment

theorem eval_verifyJobOnFd_ok {w : World} {h : Handle} {file : Ino} {node : Inode}
    (hnode : w.inodes file = some node) :
    (∃ job, (verifyJobOnFd file).eval w.reply h = (.ok job, h)) ↔
      ∃ env, fromBytes node.data true = .ok env := by
  have hintact {header : FixedHeader} (hi : Intact header node.data) :
      fromBytes node.data true = .ok (ofBytes header node.data) :=
    fromBytes_eq_ok.mpr ⟨hi.1, rfl, rfl, fun _ => hi.2⟩
  rcases eval_verifyJobOnFd (h := h) hnode with ⟨header, hi, heval⟩ | ⟨header, he, hne, heval⟩ |
    ⟨hnone, why, heval⟩
  · exact ⟨fun _ => ⟨_, hintact hi⟩, fun _ => ⟨_, heval⟩⟩
  · rw [heval]
    refine ⟨nofun, fun ⟨env, henv⟩ => ?_⟩
    obtain ⟨he', -, hpayload, hdigest⟩ := fromBytes_eq_ok.mp henv
    obtain rfl := he.unique he'
    rw [hpayload] at hdigest
    exact absurd (hdigest rfl) hne
  · rw [heval]
    refine ⟨nofun, fun ⟨env, henv⟩ => ?_⟩
    exact absurd (fromBytes_eq_ok.mp henv).1 (hnone _)

/-- **The envelope digest commits to the whole object.** -/
theorem envelope_commits :
    (∀ (data data' : Bytes) (env env' : ValidatedEnvelope), fromBytes data true = .ok env →
      fromBytes data' true = .ok env' → env.header.envelopeDigest = env'.header.envelopeDigest →
        ¬ Collision env env' → data = data') ∧
    (∀ (data : Bytes) (env env' : ValidatedEnvelope) (i : Nat) (b : UInt8),
      fromBytes data true = .ok env → i < data.length → data[i]? ≠ some b →
        fromBytes (data.set i b) true = .ok env' → Collision env env') ∧
    ∀ (w : World) (h : Handle) (file : Ino) (node : Inode), w.inodes file = some node →
      ((∃ job, (verifyJobOnFd file).eval w.reply h = (.ok job, h)) ↔
        ∃ env, fromBytes node.data true = .ok env) := by
  refine ⟨fun data data' env env' => data_eq_of_digest, ?_, fun w h file node =>
    eval_verifyJobOnFd_ok⟩
  intro data env env' i b h hi hb h'
  by_contra hfree
  have hsame := data_eq_of_digest h h' (digest_of_set h h') hfree
  refine hb ?_
  rw [hsame, List.getElem?_set_self hi]

end SteadQ
