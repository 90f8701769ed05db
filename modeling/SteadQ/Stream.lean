/-
  File:      SteadQ/Stream.lean
  Subject:   THE VERIFIERS ON A FILE THAT IS READ IN PIECES.

  `pread` may return fewer bytes than it was asked for. The source reads on, in `pread_exact` and in
  the loop over the payload; `Queue/Verified.lean` takes a read of a known length for one call. Here
  the loop is written out, and every answer may be short.
-/
import SteadQ.Envelope

namespace SteadQ

open Octet Interact ValidatedEnvelope

/-! ## 1. Verifiers that read in pieces -/

/-- Read on until `missing` bytes are there; every piece has at least one. -/
def preadOn (file : Ino) : (fuel offset missing : Nat) → Bytes → LookM IoError Bytes
  | 0, _, _, buf => return buf
  | fuel + 1, offset, missing, buf =>
    if missing > 0 then do
      let piece ← pread file offset missing
      if piece = [] then throw .unexpectedEof
      else preadOn file fuel (offset + piece.length) (missing - piece.length) (buf ++ piece)
    else return buf

/-- `pread_exact` -/
def preadFull (file : Ino) (offset length : Nat) : LookM IoError Bytes :=
  preadOn file length offset length []

section By

variable (exact : Nat → Nat → LookM IoError Bytes) (file : Ino)

def readAndVerifyHeaderBy : LookM VerificationError FixedHeader := do
  let buf ← Task.mapErr readError (exact 0 fixedHeaderSize)
  let header ← Task.ofExcept
    ((FixedHeader.decode buf).mapError fun e => .corrupt ("header decode: " ++ e.text))
  if isExtensionTooLarge header.extensionHeaderLength.toNat then
    throw (.corrupt "extension header too large")
  else return header

def readExtensionBy (extLen : Nat) : LookM VerificationError Bytes :=
  if extLen > 0 then Task.mapErr readError (exact 128 extLen) else return []

def verifyEnvelopeBy : LookM VerificationError VerifiedJob := do
  let header ← readAndVerifyHeaderBy exact
  let stat ← verifySize file header header.extensionHeaderLength.toNat
  let ext ← readExtensionBy exact header.extensionHeaderLength.toNat
  if ¬ verifyEnvelopeDigest header ext then throw (.corrupt "envelope digest mismatch")
  else return ⟨header, ext, stat.dev, stat.ino, stat.size⟩

def verifyJobBy : LookM VerificationError VerifiedJob := do
  let job ← verifyEnvelopeBy exact file
  verifyPayload file job.header job.extension.length
  return job

end By

/-! ## 2. Short answers -/

/-- What a regular file of these bytes may answer: some of the bytes asked for, and none only when
    there are none. -/
def ShortReads (file : Ino) (data : Bytes) : (l : Look) → l.Resp → Prop
  | .pread f offset length, r => f = file → ∃ b, r = .ok b ∧ b <+: slice data offset length ∧
      (b = [] → slice data offset length = [])
  | .fstat f, r => f = file → ∃ stat, r = .ok stat ∧ stat.kind = .regular ∧ stat.size = data.length
  | _, _ => True

section InPieces

variable {ε ε' α β : Type} {file : Ino} {data : Bytes} {m : LookM ε α} {k : α → LookM ε β}
  {Q : Except ε α → Prop} {R : Except ε β → Prop}

/-- In whatever pieces the file is read, the outcome satisfies `Q`. -/
def InPieces (file : Ino) (data : Bytes) (m : LookM ε α) (Q : Except ε α → Prop) : Prop :=
  ∀ h, m.Meets (Task.trusting (ShortReads file data)) h () fun r _ _ => Q r

theorem inPieces_pure {a : α} (ha : Q (.ok a)) : InPieces file data (pure a) Q := fun _ => ha

theorem inPieces_throw {e : ε} (he : Q (.error e)) : InPieces file data (throw e) Q := fun _ => he

theorem inPieces_ofExcept {x : Except ε α} (hx : Q x) : InPieces file data (Task.ofExcept x) Q :=
  fun _ => hx

theorem InPieces.bind (hm : InPieces file data m Q) (herror : ∀ e, Q (.error e) → R (.error e))
    (hok : ∀ a, Q (.ok a) → InPieces file data (k a) R) : InPieces file data (m >>= k) R := by
  intro h
  refine Task.meets_bind.mpr (Task.Meets.mono (hm h) fun r s _ hr => ?_)
  cases r with
  | error e => exact herror e hr
  | ok a => exact hok a hr s

theorem InPieces.mapErr {m : LookM ε' α} {f : ε' → ε} {Q : Except ε' α → Prop}
    (hm : InPieces file data m Q) :
    InPieces file data (Task.mapErr f m) fun r => ∃ x, Q x ∧ r = x.mapError f :=
  fun h => Task.meets_mapErr.mpr (Task.Meets.mono (hm h) fun r _ _ hr => ⟨r, hr, rfl⟩)

theorem InPieces.mono {Q' : Except ε α → Prop} (hm : InPieces file data m Q)
    (hQ : ∀ r, Q r → Q' r) : InPieces file data m Q' :=
  fun h => Task.Meets.mono (hm h) fun r _ _ => hQ r

/-- Some of the bytes that are there, and at least one if there is one. -/
theorem pread_inPieces (offset length : Nat) :
    InPieces file data (pread file offset length) fun r =>
      ∃ n, n ≤ min length (data.length - offset) ∧ r = .ok (slice data offset n) ∧
        (n = 0 → min length (data.length - offset) = 0) := by
  refine fun h => ⟨trivial, fun r hr => ?_⟩
  obtain ⟨b, rfl, hpre, hempty⟩ := hr rfl
  have hlen : (slice data offset length).length = min length (data.length - offset) := by
    rw [slice, List.length_take, List.length_drop]
  have hle := hpre.length_le
  refine ⟨b.length, hlen ▸ hle, congrArg Except.ok ?_, fun hzero => ?_⟩
  · have htake : b = (slice data offset length).take b.length := List.prefix_iff_eq_take.mp hpre
    rw [slice, List.take_take, Nat.min_eq_left (by omega)] at htake
    exact htake
  · rw [← hlen, hempty (List.length_eq_zero_iff.mp hzero)]
    rfl

end InPieces

theorem slice_add {data : Bytes} {offset n m : Nat} (h : n ≤ m) :
    slice data offset m = slice data offset n ++ slice data (offset + n) (m - n) := by
  obtain ⟨k, rfl⟩ := Nat.exists_eq_add_of_le h
  rw [slice, slice, slice, List.take_add, List.drop_drop, Nat.add_sub_cancel_left]

section Pieces

variable {file : Ino} {data : Bytes}

/-- **In whatever pieces, the bytes that were asked for**, if the file has them. -/
theorem preadOn_inPieces (fuel offset missing : Nat) (buf : Bytes) (hfuel : missing ≤ fuel) :
    InPieces file data (preadOn file fuel offset missing buf) fun r =>
      r = if offset + missing ≤ data.length ∨ missing = 0 then .ok (buf ++ slice data offset missing)
        else .error .unexpectedEof := by
  induction fuel generalizing offset missing buf with
  | zero =>
    obtain rfl : missing = 0 := by omega
    exact inPieces_pure (by simp [slice])
  | succ fuel ih =>
    unfold preadOn
    split
    · refine (pread_inPieces offset missing).bind (fun e he => ?_) fun piece hpiece => ?_
      · obtain ⟨_, -, hok, -⟩ := he
        cases hok
      obtain ⟨n, hn, hslice, hzero⟩ := hpiece
      obtain rfl := Except.ok.inj hslice
      have hlen : (slice data offset n).length = n := slice_length_eq.mpr (by omega)
      split
      · rename_i hnil
        rw [hnil, List.length_nil] at hlen
        have hnone := hzero hlen.symm
        exact inPieces_throw (by rw [if_neg (by omega)])
      · rename_i hsome
        have hpos : n ≠ 0 := fun hz => hsome (List.length_eq_zero_iff.mp (hlen.trans hz))
        rw [hlen]
        refine (ih (offset + n) (missing - n) _ (by omega)).mono fun r hr => ?_
        have hiff : (offset + n + (missing - n) ≤ data.length ∨ missing - n = 0) ↔
            (offset + missing ≤ data.length ∨ missing = 0) := by omega
        rw [hr, List.append_assoc, ← slice_add (by omega), if_congr hiff rfl rfl]
    · obtain rfl : missing = 0 := by omega
      exact inPieces_pure (by simp [slice])

theorem preadFull_inPieces (offset length : Nat) :
    InPieces file data (preadFull file offset length) fun r =>
      r = exactly length (.ok (slice data offset length)) := by
  refine (preadOn_inPieces length offset length [] le_rfl).mono fun r hr => ?_
  rw [hr, exactly, if_congr slice_length_eq.symm rfl rfl]
  rfl

/-- **The payload, in whatever pieces.** -/
theorem readPayload_inPieces (fuel offset remaining : Nat) (payload : Bytes)
    (hfuel : remaining ≤ fuel) (hin : offset + remaining ≤ data.length) :
    InPieces file data (readPayload file fuel offset remaining payload) fun r =>
      r = .ok (payload ++ slice data offset remaining) := by
  induction fuel generalizing offset remaining payload with
  | zero =>
    obtain rfl : remaining = 0 := by omega
    exact inPieces_pure (by simp [slice])
  | succ fuel ih =>
    unfold readPayload
    split
    · refine (pread_inPieces offset (min remaining 65536)).mapErr.bind ?_ fun piece hpiece => ?_
      · rintro e ⟨x, ⟨n, -, rfl, -⟩, hx⟩
        cases hx
      obtain ⟨x, ⟨n, hn, rfl, hzero⟩, hx⟩ := hpiece
      obtain rfl := Except.ok.inj hx
      have hlen : (slice data offset n).length = n := slice_length_eq.mpr (by omega)
      split
      · rename_i hnil
        rw [hnil, List.length_nil] at hlen
        have hnone := hzero hlen.symm
        omega
      · rw [hlen]
        refine (ih (offset + n) (remaining - n) _ ?_ (by omega)).mono fun r hr => ?_
        · have hpos : n ≠ 0 := fun hz => by
            have hnone := hzero hz
            omega
          omega
        · rw [hr, List.append_assoc, ← slice_add (by omega)]
    · obtain rfl : remaining = 0 := by omega
      exact inPieces_pure (by simp [slice])

end Pieces

/-! ## 3. The verdict of a stream -/

section Verdict

variable {α : Type} {file : Ino} {data : Bytes}

/-- The object is refused as corrupt, and it is. -/
def FoundCorrupt (data : Bytes) (r : Except VerificationError α) : Prop :=
  (∀ header, ¬ EnvelopeBytes header data) ∧ ∃ why, r = .error (.corrupt why)

theorem FoundCorrupt.error {e : VerificationError} {β : Type}
    (h : FoundCorrupt data (.error e : Except _ α)) : FoundCorrupt data (.error e : Except _ β) := by
  obtain ⟨hnone, why, hwhy⟩ := h
  cases hwhy
  exact ⟨hnone, why, rfl⟩

/-- A buffer is filled, or the object is too short for it. -/
theorem fill_inPieces (offset length : Nat) :
    InPieces file data (Task.mapErr readError (preadFull file offset length)) fun r =>
      r = if (slice data offset length).length = length then .ok (slice data offset length)
        else .error (.corrupt "object is shorter than its envelope") := by
  refine (preadFull_inPieces offset length).mapErr.mono ?_
  rintro _ ⟨x, rfl, rfl⟩
  show Except.mapError readError (if _ then _ else _) = _
  split <;> rfl

theorem header_inPieces :
    InPieces file data (readAndVerifyHeaderBy (preadFull file)) fun r =>
      (∃ header, r = .ok header ∧ FixedHeader.decode (slice data 0 fixedHeaderSize) = .ok header ∧
        isExtensionTooLarge header.extensionHeaderLength.toNat = false) ∨ FoundCorrupt data r := by
  by_cases hlen : (slice data 0 fixedHeaderSize).length = fixedHeaderSize
  · refine (fill_inPieces 0 fixedHeaderSize).bind ?_ fun buf hbuf => ?_
    · rw [if_pos hlen]
      nofun
    rw [if_pos hlen] at hbuf
    cases hbuf
    refine (inPieces_ofExcept (Q := fun x => x = _) rfl).bind ?_ fun header hheader => ?_
    · intro e he
      refine .inr ⟨fun header hb => ?_, ?_⟩
      · rw [hb.decodes] at he
        cases he
      · cases hd : FixedHeader.decode (slice data 0 fixedHeaderSize) with
        | ok header =>
          rw [hd] at he
          cases he
        | error e' =>
          rw [hd] at he
          cases he
          exact ⟨_, rfl⟩
    · have hd := Task.mapError_eq_ok.mp hheader.symm
      split
      · rename_i hext
        refine inPieces_throw (.inr ⟨fun header' hb => ?_, _, rfl⟩)
        obtain rfl := Except.ok.inj (hb.decodes.symm.trans hd)
        exact absurd hext (by rw [hb.fits]; decide)
      · rename_i hext
        exact inPieces_pure (.inl ⟨header, rfl, hd, Bool.eq_false_iff.mpr hext⟩)
  · refine (fill_inPieces 0 fixedHeaderSize).bind ?_ ?_
    · rw [if_neg hlen]
      rintro _ ⟨⟩
      exact .inr ⟨fun header hb => hlen (decode_length hb.decodes), _, rfl⟩
    · rw [if_neg hlen]
      nofun

theorem size_inPieces {header : FixedHeader}
    (hd : FixedHeader.decode (slice data 0 fixedHeaderSize) = .ok header) :
    InPieces file data (verifySize file header header.extensionHeaderLength.toNat) fun r =>
      ((∃ stat, r = .ok stat) ∧ data.length =
        128 + header.extensionHeaderLength.toNat + header.payloadLength.toNat) ∨
      FoundCorrupt data r := by
  obtain ⟨hext, hpayload⟩ := decode_lengths hd
  have htotal : checkedTotalSize header.extensionHeaderLength.toNat header.payloadLength =
      .ok (128 + header.extensionHeaderLength.toNat + header.payloadLength.toNat) :=
    if_pos (by omega)
  have hstat : InPieces file data (fstat file) fun r =>
      ∃ stat, r = .ok stat ∧ stat.kind = .regular ∧ stat.size = data.length :=
    fun h => ⟨trivial, fun r hr => hr rfl⟩
  unfold verifySize
  rw [htotal]
  refine hstat.mapErr.bind ?_ fun stat hs => ?_
  · rintro e ⟨x, ⟨stat, rfl, -⟩, he⟩
    cases he
  obtain ⟨x, ⟨stat', rfl, -, hsize⟩, hx⟩ := hs
  cases hx
  refine (inPieces_ofExcept (Q := fun x => x = _) rfl).bind nofun fun total htotal => ?_
  cases htotal
  split
  · rename_i hne
    refine inPieces_throw (.inr ⟨fun header' hb => hne ?_, _, rfl⟩)
    obtain rfl := Except.ok.inj (hb.decodes.symm.trans hd)
    rw [hsize, hb.size]
  · rename_i hne
    refine inPieces_pure (.inl ⟨⟨_, rfl⟩, ?_⟩)
    rw [← hsize, not_not.mp hne]

theorem extension_inPieces {extLen : Nat} (hin : 128 + extLen ≤ data.length) :
    InPieces file data (readExtensionBy (preadFull file) extLen) fun r =>
      r = .ok (slice data 128 extLen) := by
  unfold readExtensionBy
  split
  · refine (fill_inPieces 128 extLen).mono fun r hr => ?_
    rw [hr, if_pos (slice_length_eq.mpr (.inl hin))]
  · obtain rfl : extLen = 0 := by omega
    exact inPieces_pure (by simp [slice])

/-- **The verdict on an envelope**, in whatever pieces. -/
theorem verifyEnvelopeBy_inPieces :
    InPieces file data (verifyEnvelopeBy (preadFull file) file) fun r =>
      (∃ header job, EnvelopeBytes header data ∧ r = .ok job ∧ job.header = header ∧
        job.extension = extensionOf header data) ∨ FoundCorrupt data r := by
  unfold verifyEnvelopeBy
  refine header_inPieces.bind ?_ fun header hheader => ?_
  · rintro e (⟨_, ⟨⟩, -⟩ | hcorrupt)
    exact .inr hcorrupt.error
  obtain ⟨_, heq, hd, hfits⟩ | ⟨-, -, ⟨⟩⟩ := hheader
  cases heq
  refine (size_inPieces hd).bind ?_ fun stat hstat => ?_
  · rintro e (⟨⟨_, ⟨⟩⟩, -⟩ | hcorrupt)
    exact .inr hcorrupt.error
  obtain ⟨-, hsize⟩ | ⟨-, -, ⟨⟩⟩ := hstat
  refine (extension_inPieces (by omega)).bind nofun fun ext hext => ?_
  cases hext
  split
  · rename_i hdigest
    refine inPieces_throw (.inr ⟨fun header' hb => hdigest ?_, _, rfl⟩)
    obtain rfl := Except.ok.inj (hb.decodes.symm.trans hd)
    exact hb.envelope
  · rename_i hdigest
    obtain ⟨hext, hpayload⟩ := decode_lengths hd
    exact inPieces_pure (.inl ⟨header, _, ⟨hd, hfits, hsize, by omega, not_not.mp hdigest⟩, rfl, rfl,
      rfl⟩)

/-- **The verdict on a whole job**, in whatever pieces. -/
theorem verifyJobBy_inPieces :
    InPieces file data (verifyJobBy (preadFull file) file) fun r =>
      (∃ header job, EnvelopeBytes header data ∧ job.header = header ∧
        job.extension = extensionOf header data ∧
          r = if payloadDigest (payloadOf header data) = header.payloadDigest then .ok job
            else .error .payloadCorrupt) ∨ FoundCorrupt data r := by
  unfold verifyJobBy
  refine verifyEnvelopeBy_inPieces.bind ?_ fun job hjob => ?_
  · rintro e (⟨_, _, _, ⟨⟩, -⟩ | hcorrupt)
    exact .inr hcorrupt.error
  obtain ⟨header, _, hb, heq, hheader, hext⟩ | ⟨-, -, ⟨⟩⟩ := hjob
  cases heq
  have hpayload : InPieces file data (verifyPayload file job.header job.extension.length) fun r =>
      r = if payloadDigest (payloadOf header data) = header.payloadDigest then .ok ()
        else .error .payloadCorrupt := by
    unfold verifyPayload
    rw [hheader, hext, hb.extension_length]
    refine (readPayload_inPieces _ _ _ [] le_rfl hb.size.ge).bind nofun fun payload hp => ?_
    cases hp
    split
    · rename_i hne
      exact inPieces_throw (if_neg hne).symm
    · rename_i heq
      exact inPieces_pure (if_pos (not_not.mp heq)).symm
  refine hpayload.bind (fun e he => ?_) fun _ hok => ?_
  · split at he
    · cases he
    · cases he
      exact .inl ⟨header, job, hb, hheader, hext, by rw [if_neg ‹_›]⟩
  · split at hok
    · exact inPieces_pure (.inl ⟨header, job, hb, hheader, hext, by rw [if_pos ‹_›]⟩)
    · cases hok

end Verdict

/-! ## 4. The two verifiers -/

/-- Success with the same header and extension, or failure of the same kind. -/
def Agree : Except EnvelopeError ValidatedEnvelope → Except VerificationError VerifiedJob → Prop
  | .ok env, .ok job => job.header = env.header ∧ job.extension = env.extension
  | .error e, .error e' => (e' = .payloadCorrupt ↔ e = .payloadDigestMismatch) ∧
      ∀ message, e' ≠ .io message
  | _, _ => False

theorem agree_of_corrupt {data : Bytes} {r : Except VerificationError VerifiedJob}
    (h : FoundCorrupt data r) (verifyPayload : Bool) : Agree (fromBytes data verifyPayload) r := by
  obtain ⟨hnone, why, rfl⟩ := h
  rcases fromBytes_spec data verifyPayload with ⟨header, hb, -⟩ | ⟨-, e, he, heq⟩
  · exact absurd hb (hnone header)
  · rw [heq]
    exact ⟨by simp [he], nofun⟩

/-- **The verifier on a buffer and those on a descriptor agree**, in whatever pieces the file is
    read. -/
theorem verifiers_agree (file : Ino) (data : Bytes) :
    InPieces file data (verifyJobBy (preadFull file) file) (Agree (fromBytes data true)) ∧
      InPieces file data (verifyEnvelopeBy (preadFull file) file) (Agree (fromBytes data false)) := by
  constructor
  · refine verifyJobBy_inPieces.mono ?_
    rintro r (⟨header, job, hb, hheader, hext, rfl⟩ | hcorrupt)
    · rcases fromBytes_spec data true with ⟨header', hb', heq⟩ | ⟨hnone, -⟩
      · obtain rfl := hb.unique hb'
        rw [heq]
        by_cases hp : payloadDigest (payloadOf header data) = header.payloadDigest
        · rw [if_pos hp, if_neg fun hbad => hbad.2 hp]
          exact ⟨hheader, hext⟩
        · rw [if_neg hp, if_pos ⟨rfl, hp⟩]
          exact ⟨by simp, nofun⟩
      · exact absurd hb (hnone header)
    · exact agree_of_corrupt hcorrupt true
  · refine verifyEnvelopeBy_inPieces.mono ?_
    rintro r (⟨header, job, hb, rfl, hheader, hext⟩ | hcorrupt)
    · rcases fromBytes_spec data false with ⟨header', hb', heq⟩ | ⟨hnone, -⟩
      · obtain rfl := hb.unique hb'
        rw [heq, if_neg fun hbad => Bool.false_ne_true hbad.1]
        exact ⟨hheader, hext⟩
      · exact absurd hb (hnone header)
    · exact agree_of_corrupt hcorrupt false

end SteadQ
