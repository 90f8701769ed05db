/-
  File:      SteadQ/Delivery.lean
  Subject:   THE DELIVERY OF A PAYLOAD to the holder of a lease.

  A reader holds the descriptor of a job that was verified, and reads its payload piece by piece
  without hashing it again. There are two ways to get one: with a lease, and later by the lease.
-/
import SteadQ.Snapshot
import SteadQ.Stream

namespace SteadQ

open Octet Interact
open Interact.Task (given_any given_call given_ite given_memory given_ofExcept given_pure
  given_throw)

/-! ## 1. Readers -/

/-- A reader for a payload that was verified when the reader was made. -/
structure VerifiedPayloadReader where
  file : Ino
  payloadStart : UInt64
  payloadLen : UInt64
  deriving DecidableEq

/-- The reader of the object with this header. -/
def VerifiedPayloadReader.ofHeader (file : Ino) (header : FixedHeader) : VerifiedPayloadReader :=
  ⟨file, 128 + header.extensionHeaderLength.toUInt64, header.payloadLength⟩

namespace VerifiedPayloadReader

/-- Read into a buffer of `bufLen` bytes: the bytes that were read, none at the end. -/
def readAt (reader : VerifiedPayloadReader) (bufLen : Nat) (offset : UInt64) : LookM Error Bytes :=
  if offset ≥ reader.payloadLen ∨ bufLen = 0 then return []
  else do
    let toRead := min bufLen (reader.payloadLen - offset).toNat
    let bytes ← Task.mapErr Error.from
      (pread reader.file (reader.payloadStart + offset).toNat toRead)
    if bytes = [] then throw (.queueCorrupt "unexpected EOF during payload read")
    else return bytes

/-- Pass what is read to `f`, which carries `k` from call to call, until nothing is read. A read
    that is not the last one has at least one byte. -/
def streamFrom {κ : Type} (reader : VerifiedPayloadReader) (bufLen : Nat)
    (f : κ → Bytes → Except Error κ) : (fuel : Nat) → (offset : UInt64) → κ → LookM Error κ
  | 0, _, k => return k
  | fuel + 1, offset, k => do
    let bytes ← reader.readAt bufLen offset
    if bytes = [] then return k
    else do
      let k ← Task.ofExcept (f k bytes)
      reader.streamFrom bufLen f fuel (offset + UInt64.ofNat bytes.length) k

/-- Read from the start and advance by what was read, until nothing is read. -/
def readToEnd (reader : VerifiedPayloadReader) (bufLen : Nat) : LookM Error Bytes :=
  reader.streamFrom bufLen (fun read bytes => .ok (read ++ bytes)) (reader.payloadLen.toNat + 1) 0 []

end VerifiedPayloadReader

/-- Open the payload of a lease; none when the lease is gone. A payload that is corrupt is
    quarantined. -/
def openVerifiedPayloadReader (lease : LeaseInfo) : QueueM Error (Option VerifiedPayloadReader) := do
  match ← openAndValidateCurrentLease lease with
  | none => return none
  | some source =>
    match ← attemptLook (verifyJobOnFd source.file) with
    | .ok verified => return some (.ofHeader source.file verified.header)
    | .error e =>
      if e.toError = .payloadCorrupt then do
        match ← Task.attempt
            (quarantineCorruptLease source.directory source.name source.file) with
        | .error (.outcomeUnknown phase detail) =>
          throw (.queueCorrupt ("payload is corrupt and quarantine is indeterminate at " ++
            phase.text ++ ": " ++ detail.text))
        | _ => throw e.toError
      else throw e.toError

/-- The size of the buffer: `chunk_size.clamp(4096, 1 << 20)`. -/
def streamBuffer (chunkSize : Nat) : Nat := max 4096 (min chunkSize 1048576)

def streamLeasePayload {κ : Type} (lease : LeaseInfo) (chunkSize : Nat)
    (f : κ → Bytes → Except Error κ) (init : κ) : QueueM Error κ := do
  match ← openVerifiedPayloadReader lease with
  | none => throw (.queueCorrupt "lease source not found")
  | some reader =>
    looking (reader.streamFrom (streamBuffer chunkSize) f (reader.payloadLen.toNat + 1) 0 init)

/-- The claim is committed: verify the payload, hand out the lease, and with it the reader. -/
def deliverClaimWithPayload (ticket : TransitionTicket) (leasedDir : Dir) (target : Target)
    (file : Ino) (moved : MovedObject) (source leased : CommonFields) (token : Octets 16)
    (boottimeDeadline wallDeadline : UInt64) :
    QueueM ScanAbort (LeaseInfo × VerifiedPayloadReader) := do
  match ← (validateClaimedObject file moved.size source : LookM ScanAbort _) with
  | none => stopUnknown ticket .sourceDirectoryDurable
  | some (header, contentType) =>
    match ← attemptLook (verifyPayloadOnFd file) with
    | .error .payloadCorrupt => withdrawCorruptClaim ticket leasedDir target file
    | .error _ => stopUnknown ticket .sourceDirectoryDurable
    | .ok () =>
      let lease : LeaseInfo := {
        jobId := source.jobId
        envelopeDigest := header.envelopeDigest
        generation := leased.generation
        attempt := leased.attempt
        maximumAttempts := source.maximumAttempts
        token := token
        bootId := (← Task.memory).bootId
        expiresBoottimeNs := boottimeDeadline
        expiresWallNs := wallDeadline
        contentType := contentType
        payloadLength := header.payloadLength
        payloadDigest := header.payloadDigest
        expectedDev := moved.device
        expectedInode := moved.inode
        exactSourcePath := target.relativePath }
      return (lease, .ofHeader file header)

/-! ## 2. What was verified -/

/-- What files with these contents answer, if they answer: some of the bytes asked for, none only
    when there are none, and their size. Nothing is said of names. -/
def Stored (contents : Ino → Bytes) : (l : Look) → l.Resp → Prop
  | .pread file offset length, r => ∀ b, r = .ok b → b <+: slice (contents file) offset length ∧
      (b = [] → slice (contents file) offset length = [])
  | .fstat file, r => ∀ stat, r = .ok stat → stat.size = (contents file).length
  | _, _ => True

section Stored

variable {contents : Ino → Bytes} {file : Ino}

theorem pread_given (offset length : Nat) :
    (pread file offset length).Given (Stored contents) fun b =>
      b = slice (contents file) offset b.length ∧ b.length ≤ length := by
  refine given_call fun r b hr hb => ?_
  obtain ⟨hpre, -⟩ := hr b hb
  have hlen : b.length ≤ length :=
    hpre.length_le.trans (by rw [slice, List.length_take]; exact Nat.min_le_left ..)
  have htake : b = (slice (contents file) offset length).take b.length :=
    List.prefix_iff_eq_take.mp hpre
  rw [slice, List.take_take, Nat.min_eq_left hlen] at htake
  exact ⟨htake, hlen⟩

theorem preadExact_given (offset length : Nat) :
    (preadExact file offset length).Given (Stored contents) fun b =>
      b = slice (contents file) offset length := by
  refine given_call fun r b hr hb => ?_
  cases r with
  | error e => cases hb
  | ok c =>
    obtain ⟨hpre, -⟩ := hr c rfl
    by_cases hlen : c.length = length
    · obtain rfl : c = b := Except.ok.inj ((if_pos hlen).symm.trans hb)
      refine hpre.eq_of_length (Nat.le_antisymm hpre.length_le ?_)
      rw [slice, List.length_take, hlen]
      exact Nat.min_le_left ..
    · cases (if_neg hlen).symm.trans hb

theorem readAndVerifyHeader_given :
    (readAndVerifyHeader file).Given (Stored contents) fun header =>
      FixedHeader.decode (slice (contents file) 0 fixedHeaderSize) = .ok header ∧
        isExtensionTooLarge header.extensionHeaderLength.toNat = false := by
  refine .bind (preadExact_given 0 fixedHeaderSize).mapErr ?_
  rintro _ rfl
  refine given_ofExcept fun header hheader => given_ite (fun _ => given_throw) ?_
  exact fun hfits => given_pure ⟨Task.mapError_eq_ok.mp hheader, Bool.eq_false_iff.mpr hfits⟩

theorem verifySize_given (header : FixedHeader) (extLen : Nat) :
    (verifySize file header extLen).Given (Stored contents) fun _ =>
      (contents file).length = 128 + extLen + header.payloadLength.toNat ∧
        (contents file).length < 2 ^ 64 := by
  have hstat : (fstat file).Given (Stored contents) fun stat =>
      stat.size = (contents file).length := given_call fun _ stat hr hs => hr stat hs
  refine hstat.mapErr.bind fun stat hsize => given_ofExcept fun total htotal => ?_
  refine given_ite (fun _ => given_throw) fun heq => given_pure ?_
  unfold checkedTotalSize at htotal
  split at htotal
  · rename_i hlt
    obtain rfl := Except.ok.inj htotal
    rw [← hsize, ← not_not.mp heq]
    exact ⟨rfl, hlt⟩
  · cases htotal

theorem readExtension_given (extLen : Nat) :
    (readExtension file extLen).Given (Stored contents) fun ext =>
      ext = slice (contents file) 128 extLen := by
  refine given_ite (fun _ => (preadExact_given 128 extLen).mapErr) fun hzero => ?_
  obtain rfl : extLen = 0 := by omega
  exact given_pure (by simp [slice])

theorem verifyEnvelopeOnFd_given :
    (verifyEnvelopeOnFd file).Given (Stored contents) fun job =>
      EnvelopeBytes job.header (contents file) ∧
        job.extension = extensionOf job.header (contents file) := by
  refine readAndVerifyHeader_given.bind fun header hheader => ?_
  refine (verifySize_given header _).bind fun stat hsize => ?_
  refine (readExtension_given _).bind ?_
  rintro _ rfl
  refine given_ite (fun _ => given_throw) fun hdigest => given_pure ⟨?_, rfl⟩
  exact ⟨hheader.1, hheader.2, hsize.1, hsize.2, not_not.mp hdigest⟩

/-- The loop over the payload adds the bytes that were asked for. -/
theorem readPayload_given (fuel offset remaining : Nat) (payload : Bytes)
    (hfuel : remaining ≤ fuel) :
    (readPayload file fuel offset remaining payload).Given (Stored contents) fun result =>
      result = payload ++ slice (contents file) offset remaining := by
  induction fuel generalizing offset remaining payload with
  | zero =>
    obtain rfl : remaining = 0 := by omega
    exact given_pure (by simp [slice])
  | succ fuel ih =>
    refine given_ite (fun hsome => ?_) fun hnone => ?_
    · refine (pread_given offset _).mapErr.bind fun chunk hchunk => ?_
      refine given_ite (fun _ => given_throw) fun hne => ?_
      obtain ⟨hslice, hlen⟩ := hchunk
      have hpos : 0 < chunk.length := List.length_pos_iff.mpr hne
      have hjoin : chunk ++ slice (contents file) (offset + chunk.length)
          (remaining - chunk.length) = slice (contents file) offset remaining := by
        rw [slice_add (show chunk.length ≤ remaining by omega), ← hslice]
      have hrest := ih (offset + chunk.length) (remaining - chunk.length) (payload ++ chunk)
        (by omega)
      rwa [List.append_assoc, hjoin] at hrest
    · obtain rfl : remaining = 0 := by omega
      exact given_pure (by simp [slice])

/-- **What is verified is intact.** -/
theorem verifyJobOnFd_given :
    (verifyJobOnFd file).Given (Stored contents) fun job => Intact job.header (contents file) := by
  refine verifyEnvelopeOnFd_given.bind fun job hjob => ?_
  obtain ⟨hbytes, hext⟩ := hjob
  have hpayload : (verifyPayload file job.header job.extension.length).Given (Stored contents)
      fun _ => payloadDigest (payloadOf job.header (contents file)) = job.header.payloadDigest := by
    rw [hext, hbytes.extension_length]
    refine (readPayload_given _ _ _ [] le_rfl).bind ?_
    rintro _ rfl
    exact given_ite (fun _ => given_throw) fun heq => given_pure (not_not.mp heq)
  exact hpayload.bind fun _ hdigest => given_pure ⟨hbytes, hdigest⟩

/-! ## 3. The two ways to a reader -/

/-- The reader stands for the payload of the lease, as it was verified. -/
def Verified (contents : Ino → Bytes) (lease : LeaseInfo) (reader : VerifiedPayloadReader) : Prop :=
  ∃ header, Intact header (contents reader.file) ∧ reader = .ofHeader reader.file header ∧
    header.payloadLength = lease.payloadLength ∧ header.payloadDigest = lease.payloadDigest

theorem checkLeasedHeader_payload {lease : LeaseInfo} {header : FixedHeader}
    (h : checkLeasedHeader lease header = .ok ()) :
    header.payloadLength = lease.payloadLength ∧ header.payloadDigest = lease.payloadDigest := by
  unfold checkLeasedHeader at h
  split_ifs at h with _ _ _ hlength hdigest
  exact ⟨not_not.mp hlength, not_not.mp hdigest⟩

theorem openLeasedFile_given (lease : LeaseInfo) (dir : Dir) (name : Name) (srcStat : Stat) :
    (openLeasedFile lease dir name srcStat).Given (Stored contents) fun source => ∃ header,
      FixedHeader.decode (slice (contents source.file) 0 fixedHeaderSize) = .ok header ∧
        header.payloadLength = lease.payloadLength ∧
        header.payloadDigest = lease.payloadDigest := by
  refine .bind given_any fun file _ => .bind given_any fun opened _ => ?_
  refine given_ite (fun _ => given_throw) fun _ => ?_
  refine given_ite (fun _ => given_throw) fun _ => ?_
  refine (preadExact_given 0 fixedHeaderSize).mapErr.bind ?_
  rintro _ rfl
  refine given_ofExcept fun header hheader => given_ofExcept fun _ hcheck => ?_
  refine .bind given_any fun ext _ => ?_
  refine given_ite (fun _ => given_throw) fun _ => ?_
  refine given_ite (fun _ => given_throw) fun _ => ?_
  refine given_ite (fun _ => given_throw) fun _ => given_pure ?_
  exact ⟨header, Task.mapError_eq_ok.mp hheader, checkLeasedHeader_payload hcheck⟩

theorem openAndValidateCurrentLease_given (lease : LeaseInfo) :
    (openAndValidateCurrentLease lease).Given (Stored contents) fun found =>
      ∀ source, found = some source → ∃ header,
        FixedHeader.decode (slice (contents source.file) 0 fixedHeaderSize) = .ok header ∧
          header.payloadLength = lease.payloadLength ∧
          header.payloadDigest = lease.payloadDigest := by
  refine given_memory fun h => given_ofExcept fun place _ => ?_
  refine .bind given_any fun found _ => ?_
  split
  · exact given_pure (fun _ hnone => by cases hnone)
  · refine given_ite (fun _ => given_throw) fun _ => ?_
    split
    · exact given_throw
    · refine given_ofExcept fun _ _ => given_ofExcept fun _ _ => ?_
      refine (openLeasedFile_given lease _ _ _).bind fun source hsource => given_pure ?_
      rintro _ ⟨⟩
      exact hsource

end Stored

/-- The calls of the queue are not looked at, but for the reads. -/
def StoredAct (contents : Ino → Bytes) : (a : Act) → a.Resp → Prop
  | .look l, r => Stored contents l r
  | _, _ => True

section Ways

variable {contents : Ino → Bytes}

theorem looking_given {ε α : Type} {m : LookM ε α} {J : α → Prop}
    (hm : m.Given (Stored contents) J) : (looking m).Given (StoredAct contents) J :=
  hm.peek fun _ _ hr => hr

/-- **A reader that is opened by its lease.** -/
theorem openVerifiedPayloadReader_verified (lease : LeaseInfo) :
    (openVerifiedPayloadReader lease).Given (StoredAct contents) fun found =>
      ∀ reader, found = some reader → Verified contents lease reader := by
  refine .bind (looking_given (openAndValidateCurrentLease_given lease)) fun found hfound => ?_
  split
  · exact given_pure (fun _ hnone => by cases hnone)
  · rename_i source
    obtain ⟨header, hdecode, hlength, hdigest⟩ := hfound source rfl
    refine .attempt (looking_given verifyJobOnFd_given) fun r hr => ?_
    split
    · rename_i job
      have hintact := hr job rfl
      obtain rfl : header = job.header :=
        Except.ok.inj (hdecode.symm.trans hintact.1.decodes)
      refine given_pure ?_
      rintro _ ⟨⟩
      exact ⟨_, hintact, rfl, hlength, hdigest⟩
    · refine given_ite (fun _ => .bind given_any fun r _ => ?_) fun _ => given_throw
      split <;> exact given_throw

theorem validateClaimedObject_given {ε : Type} (file : Ino) (size : Nat) (common : CommonFields) :
    (validateClaimedObject file size common : LookM ε _).Given (Stored contents) fun found =>
      ∀ header contentType, found = some (header, contentType) →
        FixedHeader.decode (slice (contents file) 0 fixedHeaderSize) = .ok header := by
  refine given_memory fun h => ?_
  refine .attempt (J := fun found : FixedHeader × Bytes =>
    FixedHeader.decode (slice (contents file) 0 fixedHeaderSize) = .ok found.1) ?_ fun r hr => ?_
  · refine (preadExact_given 0 fixedHeaderSize).mapErr.bind ?_
    rintro _ rfl
    refine given_ofExcept fun header hheader => ?_
    have hdecode := Task.mapError_eq_ok.mp hheader
    refine given_ite (fun _ => given_throw) fun _ => ?_
    refine .bind given_any fun ext _ => given_ofExcept fun total _ => ?_
    refine given_ite (fun _ => given_throw) fun _ => ?_
    refine given_ite (fun _ => ?_) fun _ => given_pure hdecode
    split
    · exact given_throw
    · exact given_pure hdecode
  · split
    · rename_i found
      refine given_pure ?_
      rintro header contentType ⟨⟩
      exact hr _ rfl
    · exact given_pure (fun _ _ hnone => by cases hnone)

/-- **A reader that comes with its lease.** -/
theorem deliverClaimWithPayload_verified (ticket : TransitionTicket) (leasedDir : Dir)
    (target : Target) (file : Ino) (moved : MovedObject) (source leased : CommonFields)
    (token : Octets 16) (boottimeDeadline wallDeadline : UInt64) :
    (deliverClaimWithPayload ticket leasedDir target file moved source leased token
      boottimeDeadline wallDeadline).Given (StoredAct contents) fun delivered =>
        Verified contents delivered.1 delivered.2 := by
  have hstop {α : Type} {J : α → Prop} (phase : TransitionPhase) :
      (stopUnknown ticket phase : QueueM ScanAbort α).Given (StoredAct contents) J :=
    .bind given_any fun _ _ => given_throw
  refine .bind (looking_given (validateClaimedObject_given file moved.size source)) ?_
  intro found hfound
  split
  · exact hstop _
  · rename_i header contentType
    have hdecode := hfound header contentType rfl
    have hverify : (verifyPayloadOnFd file).Given (Stored contents) fun _ =>
        Intact header (contents file) := by
      refine (verifyJobOnFd_given.bind fun job hjob => given_pure ?_).mapErr
      obtain rfl : header = job.header := Except.ok.inj (hdecode.symm.trans hjob.1.decodes)
      exact hjob
    refine .attempt (looking_given hverify) fun r hr => ?_
    split
    · refine .bind given_any fun r _ => ?_
      split
      · exact given_throw
      · exact hstop _
    · exact hstop _
    · exact given_memory fun h => given_pure ⟨header, hr () rfl, rfl, rfl, rfl⟩

end Ways

/-! ## 4. Delivery -/

section Delivery

open VerifiedPayloadReader

variable {header : FixedHeader} {data : Bytes} {file : Ino}

theorem toNat_payloadStart (file : Ino) (hb : EnvelopeBytes header data) :
    (ofHeader file header).payloadStart.toNat = 128 + header.extensionHeaderLength.toNat := by
  have hsize := hb.size
  have hbound := hb.bounded
  show (128 + header.extensionHeaderLength.toUInt64).toNat = _
  rw [UInt64.toNat_add, UInt32.toNat_toUInt64]
  exact Nat.mod_eq_of_lt (show 128 + _ < _ by omega)

theorem EnvelopeBytes.payload_length (hb : EnvelopeBytes header data) :
    (payloadOf header data).length = header.payloadLength.toNat :=
  slice_length_eq.mpr (.inl hb.size.ge)

theorem slice_slice {b : Bytes} {o m i n : Nat} (h : i + n ≤ m) :
    slice (slice b o m) i n = slice b (o + i) n := by
  rw [slice, slice, slice, List.drop_take, List.take_take, Nat.min_eq_left (by omega),
    List.drop_drop]

/-- Where a read in the payload goes. -/
theorem toNat_readAt (file : Ino) (hb : EnvelopeBytes header data) {offset : UInt64}
    (h : ¬ offset ≥ (ofHeader file header).payloadLen) :
    ((ofHeader file header).payloadStart + offset).toNat =
        128 + header.extensionHeaderLength.toNat + offset.toNat ∧
      ((ofHeader file header).payloadLen - offset).toNat =
        header.payloadLength.toNat - offset.toNat ∧
      offset.toNat < header.payloadLength.toNat := by
  have hsize := hb.size
  have hbound := hb.bounded
  have hlt : offset.toNat < header.payloadLength.toNat :=
    Nat.lt_of_not_le fun hle => h (UInt64.le_iff_toNat_le.mpr hle)
  refine ⟨?_, ?_, hlt⟩
  · rw [UInt64.toNat_add, toNat_payloadStart file hb]
    exact Nat.mod_eq_of_lt (by omega)
  · exact UInt64.toNat_sub_of_le _ _ (UInt64.le_iff_toNat_le.mpr hlt.le)

/-- **No read leaves the payload**, whatever is answered. -/
theorem readAt_within (file : Ino) (hb : EnvelopeBytes header data) (bufLen : Nat)
    (offset : UInt64) :
    ((ofHeader file header).readAt bufLen offset).Asks fun l => ∃ o n, l = .pread file o n ∧
      128 + header.extensionHeaderLength.toNat ≤ o ∧
      o + n ≤ 128 + header.extensionHeaderLength.toNat + header.payloadLength.toNat := by
  unfold readAt
  split
  · exact Task.asks_pure _
  · rename_i hread
    obtain ⟨hpast, hbuf⟩ := not_or.mp hread
    obtain ⟨hstart, hleft, hlt⟩ := toNat_readAt file hb hpast
    refine .bind (.mapErr (Task.asks_call ⟨_, _, rfl, ?_, ?_⟩)) fun bytes =>
      Task.asks_ite (Task.asks_throw _) (Task.asks_pure _)
    · omega
    · rw [hstart, hleft]
      omega

/-- **One read** gives the bytes of the payload from the offset on, and none only at the end or
    into an empty buffer. -/
theorem readAt_inPieces (hb : EnvelopeBytes header data) (bufLen : Nat) (offset : UInt64) :
    InPieces file data ((ofHeader file header).readAt bufLen offset) fun r => ∃ n,
      r = .ok (slice (payloadOf header data) offset.toNat n) ∧
      n ≤ min bufLen (header.payloadLength.toNat - offset.toNat) ∧
      (n = 0 ↔ header.payloadLength.toNat ≤ offset.toNat ∨ bufLen = 0) := by
  have hsize := hb.size
  unfold readAt
  split
  · rename_i hend
    refine inPieces_pure ⟨0, by simp [slice], Nat.zero_le _, iff_of_true rfl ?_⟩
    exact hend.imp_left UInt64.le_iff_toNat_le.mp
  · rename_i hread
    obtain ⟨hpast, hbuf⟩ := not_or.mp hread
    obtain ⟨hstart, hleft, hlt⟩ := toNat_readAt file hb hpast
    refine (pread_inPieces _ _).mapErr.bind ?_ fun bytes hbytes => ?_
    · rintro e ⟨x, ⟨n, -, rfl, -⟩, hx⟩
      cases hx
    obtain ⟨x, ⟨n, hn, rfl, hzero⟩, hx⟩ := hbytes
    obtain rfl := Except.ok.inj hx
    rw [hstart, hleft] at hn hzero
    rw [hstart]
    have hpos : n ≠ 0 := fun hz => by
      have hnone := hzero hz
      omega
    have hlen : (slice data (128 + header.extensionHeaderLength.toNat + offset.toNat) n).length =
        n := slice_length_eq.mpr (by omega)
    rw [if_neg (fun hnil => hpos (by rw [← hlen, hnil]; rfl))]
    refine inPieces_pure ⟨n, ?_, by omega, iff_of_false hpos (by omega)⟩
    rw [payloadOf, slice_slice (by omega)]

/-- The offset behind a read. -/
theorem toNat_offset (hb : EnvelopeBytes header data) (offset : UInt64) (n : Nat)
    (h : offset.toNat + n ≤ header.payloadLength.toNat) :
    (offset + UInt64.ofNat n).toNat = offset.toNat + n := by
  have hsize := hb.size
  have hbound := hb.bounded
  rw [UInt64.toNat_add, UInt64.toNat_ofNat_of_lt' (show n < 2 ^ 64 by omega)]
  exact Nat.mod_eq_of_lt (by omega)

/-- The slices that were passed to `f`: a first part of the bytes, and all of them unless `f`
    failed. -/
def Passed {κ : Type} (f : κ → Bytes → Except Error κ) (bufLen : Nat) (k : κ) (bytes : Bytes)
    (r : Except Error κ) : Prop :=
  ∃ slices : List Bytes, slices.flatten <+: bytes ∧
    (∀ s ∈ slices, s ≠ [] ∧ s.length ≤ bufLen) ∧ r = slices.foldlM f k ∧
    ∀ k', r = .ok k' → slices.flatten = bytes

theorem passed_end {κ : Type} (f : κ → Bytes → Except Error κ) (bufLen : Nat) (k : κ) :
    Passed f bufLen k [] (.ok k) :=
  ⟨[], List.nil_prefix, fun _ h => absurd h List.not_mem_nil, rfl, fun _ _ => rfl⟩

theorem passed_cons {κ : Type} {f : κ → Bytes → Except Error κ} {bufLen n : Nat} {k : κ}
    {bytes : Bytes} {r : Except Error κ} (hn : 0 < n ∧ n ≤ bufLen ∧ n ≤ bytes.length)
    (h : (∃ e, f k (bytes.take n) = .error e ∧ r = .error e) ∨
      ∃ k', f k (bytes.take n) = .ok k' ∧ Passed f bufLen k' (bytes.drop n) r) :
    Passed f bufLen k bytes r := by
  obtain ⟨hpos, hle, hin⟩ := hn
  have hlen : (bytes.take n).length = n := by rw [List.length_take, Nat.min_eq_left hin]
  have hpiece : bytes.take n ≠ [] ∧ (bytes.take n).length ≤ bufLen :=
    ⟨List.ne_nil_of_length_pos (by omega), by omega⟩
  rcases h with ⟨e, hf, rfl⟩ | ⟨k', hf, slices, hpre, hslices, rfl, hall⟩
  · refine ⟨[bytes.take n], ?_, ?_, ?_, fun _ hok => by cases hok⟩
    · rw [List.flatten_singleton]
      exact List.take_prefix ..
    · intro s hs
      rwa [List.mem_singleton.mp hs]
    · rw [List.foldlM_cons, hf]
      rfl
  · refine ⟨bytes.take n :: slices, ?_, ?_, ?_, fun k'' hok => ?_⟩
    · have happend := (List.prefix_append_right_inj (bytes.take n)).mpr hpre
      rwa [List.take_append_drop] at happend
    · intro s hs
      rcases List.mem_cons.mp hs with rfl | hs
      · exact hpiece
      · exact hslices s hs
    · rw [List.foldlM_cons, hf]
      rfl
    · rw [List.flatten_cons, hall k'' hok, List.take_append_drop]

/-- **The loop passes on what is left of the payload.** -/
theorem streamFrom_inPieces {κ : Type} (hb : EnvelopeBytes header data) {bufLen : Nat}
    (hbuf : bufLen ≠ 0) (f : κ → Bytes → Except Error κ) (fuel : Nat) (offset : UInt64) (k : κ)
    (hoffset : offset.toNat ≤ header.payloadLength.toNat)
    (hfuel : header.payloadLength.toNat - offset.toNat < fuel) :
    InPieces file data ((ofHeader file header).streamFrom bufLen f fuel offset k)
      (Passed f bufLen k ((payloadOf header data).drop offset.toNat)) := by
  have hlength := hb.payload_length
  induction fuel generalizing offset k with
  | zero => exact absurd hfuel (Nat.not_lt_zero _)
  | succ fuel ih =>
    refine (readAt_inPieces hb bufLen offset).bind ?_ fun bytes hbytes => ?_
    · rintro e ⟨n, he, -⟩
      cases he
    obtain ⟨n, hslice, hn, hend⟩ := hbytes
    obtain rfl := Except.ok.inj hslice
    by_cases hzero : n = 0
    · -- the end of the payload
      have hpast := (hend.mp hzero).resolve_right hbuf
      rw [hzero, if_pos (by simp [slice]), List.drop_eq_nil_of_le (by omega)]
      exact inPieces_pure (passed_end f bufLen k)
    · have hlen : (slice (payloadOf header data) offset.toNat n).length = n :=
        slice_length_eq.mpr (by omega)
      have hleft : n ≤ ((payloadOf header data).drop offset.toNat).length := by
        rw [List.length_drop]
        omega
      rw [if_neg (fun hnil => hzero (by rw [← hlen, hnil]; rfl)), hlen]
      have hrange : 0 < n ∧ n ≤ bufLen ∧ n ≤ ((payloadOf header data).drop offset.toNat).length :=
        ⟨Nat.pos_of_ne_zero hzero, by omega, hleft⟩
      refine (inPieces_ofExcept (Q := fun x => x = f k _) rfl).bind (fun e he => ?_) fun k' hk' => ?_
      · exact passed_cons hrange (.inl ⟨e, he.symm, rfl⟩)
      · have hnext := toNat_offset hb offset n (by omega)
        refine (ih (offset + UInt64.ofNat n) k' (by omega) (by omega)).mono fun r hr => ?_
        rw [hnext, ← List.drop_drop] at hr
        exact passed_cons hrange (.inr ⟨k', hk'.symm, hr⟩)

theorem foldlM_append (read : Bytes) (slices : List Bytes) :
    slices.foldlM (fun read bytes => (.ok (read ++ bytes) : Except Error Bytes)) read =
      .ok (read ++ slices.flatten) := by
  induction slices generalizing read with
  | nil => exact congrArg Except.ok (List.append_nil read).symm
  | cons bytes slices ih =>
    rw [List.foldlM_cons, List.flatten_cons, ← List.append_assoc]
    exact ih (read ++ bytes)

/-- **Reading to the end gives the payload.** -/
theorem readToEnd_inPieces (hb : EnvelopeBytes header data) {bufLen : Nat} (hbuf : bufLen ≠ 0) :
    InPieces file data ((ofHeader file header).readToEnd bufLen) fun r =>
      r = .ok (payloadOf header data) := by
  refine (streamFrom_inPieces hb hbuf _ _ 0 [] (Nat.zero_le _) (Nat.lt_succ_of_le
    (Nat.sub_le ..))).mono fun r hr => ?_
  obtain ⟨slices, -, -, hfold, hall⟩ := hr
  rw [foldlM_append, List.nil_append] at hfold
  rw [hfold, hall _ hfold]
  rfl

/-- An empty buffer takes nothing. -/
theorem readToEnd_empty (reader : VerifiedPayloadReader) : reader.readToEnd 0 = pure [] := by
  have hread : reader.readAt 0 0 = pure [] := if_pos (.inr rfl)
  show (reader.readAt 0 0 >>= _) = _
  rw [hread]
  rfl

end Delivery

/-! ## 5. Among others -/

/-- Others make calls, none of which writes to the file: they may rename it, unlink it, and do with
    other files what they like. -/
def Meanwhile (file : Ino) : World → World → Prop :=
  Relation.ReflTransGen fun w w' =>
    ∃ (t : HandleId) (a : Act) (c : Choice) (r : a.Resp), w.apply t a c = some (r, w') ∧
      a.writes file = false

/-- A look is answered from the files as they are, and a read may be short. -/
def AnswersNow (w : World) (l : Look) (r : l.Resp) (w' : World) : Prop :=
  w' = w ∧ ∀ file node, w.inodes file = some node → ShortReads file node.data l r

/-- The file holds these bytes, and its number is in use. -/
def World.HoldsFile (w : World) (file : Ino) (data : Bytes) : Prop :=
  file < w.nextId ∧ ∃ node, w.inodes file = some node ∧ node.data = data

theorem World.HoldsFile.meanwhile {w w' : World} {file : Ino} {data : Bytes}
    (h : w.HoldsFile file data) (hm : Meanwhile file w w') : w'.HoldsFile file data := by
  induction hm with
  | refl => exact h
  | tail _ hstep ih =>
    obtain ⟨t, a, c, r, happly, hwrites⟩ := hstep
    obtain ⟨hlt, node, hnode, rfl⟩ := ih
    have hframe := World.apply_frame happly
    obtain ⟨node', hnode', -, hdata⟩ := hframe.kept file node hnode hlt
    exact ⟨lt_of_lt_of_le hlt hframe.next, node', hnode', hdata (by rw [hwrites]; decide)⟩

/-- **What is read of a file does not depend on its name.** -/
theorem InPieces.amid {ε α : Type} {m : LookM ε α} {Q : Except ε α → Prop} {w w' : World}
    {file : Ino} {data : Bytes} {h h' : Handle} {es : Log Look.Resp} {r : Except ε α}
    (hm : InPieces file data m Q) (hw : w.HoldsFile file data)
    (hrun : (m.start h).Amid (Meanwhile file) AnswersNow w es (r, h') w') : Q r := by
  refine hrun.given (I := fun u => u.HoldsFile file data) hw (fun hu hm => hu.meanwhile hm) ?_ (hm h)
  rintro u l r _ hu ⟨rfl, hanswer⟩
  obtain ⟨-, node, hnode, rfl⟩ := id hu
  exact ⟨hanswer file node hnode, hu⟩

/-! ## 6. The payload of a lease -/

/-- Every file is read in pieces, and no read fails. -/
def ShortAct (contents : Ino → Bytes) : (a : Act) → a.Resp → Prop
  | .look l, r => ∀ file, ShortReads file (contents file) l r
  | _, _ => True

theorem storedAct_of_short {contents : Ino → Bytes} (a : Act) (r : a.Resp)
    (h : ShortAct contents a r) : StoredAct contents a r := by
  cases a with
  | look l =>
    cases l with
    | pread file offset length =>
      intro b hb
      obtain ⟨b', hb', hpre⟩ := h file rfl
      obtain rfl := Except.ok.inj (hb.symm.trans hb')
      exact hpre
    | fstat file =>
      intro stat hstat
      obtain ⟨stat', hstat', -, hsize⟩ := h file rfl
      obtain rfl := Except.ok.inj (hstat.symm.trans hstat')
      exact hsize
    | _ => trivial
  | _ => trivial

/-- The bytes a reader stands for. -/
def VerifiedPayloadReader.payload (contents : Ino → Bytes) (reader : VerifiedPayloadReader) : Bytes :=
  slice (contents reader.file) reader.payloadStart.toNat reader.payloadLen.toNat

theorem payload_ofHeader (contents : Ino → Bytes) {file : Ino} {header : FixedHeader}
    (hb : EnvelopeBytes header (contents file)) :
    (VerifiedPayloadReader.ofHeader file header).payload contents =
      payloadOf header (contents file) := by
  rw [VerifiedPayloadReader.payload, toNat_payloadStart file hb]
  rfl

section Lease

variable {contents : Ino → Bytes} {lease : LeaseInfo} {reader : VerifiedPayloadReader}

/-- The payload of the lease. -/
theorem Verified.payload (h : Verified contents lease reader) :
    (reader.payload contents).length = lease.payloadLength.toNat ∧
      payloadDigest (reader.payload contents) = lease.payloadDigest := by
  obtain ⟨header, ⟨hb, hdigest⟩, hreader, hlength, hpayload⟩ := h
  rw [hreader, payload_ofHeader contents hb, hb.payload_length, hdigest]
  exact ⟨by rw [hlength], hpayload⟩

theorem Verified.readAt (h : Verified contents lease reader) (bufLen : Nat) (offset : UInt64) :
    (reader.readAt bufLen offset).Asks fun l => ∃ o n, l = .pread reader.file o n ∧
      reader.payloadStart.toNat ≤ o ∧
      o + n ≤ reader.payloadStart.toNat + reader.payloadLen.toNat := by
  obtain ⟨header, ⟨hb, -⟩, hreader, -, -⟩ := h
  have hwithin := readAt_within reader.file hb bufLen offset
  rw [← toNat_payloadStart reader.file hb] at hwithin
  rw [hreader]
  exact hwithin

theorem Verified.streamFrom {κ : Type} (h : Verified contents lease reader) {bufLen : Nat}
    (hbuf : bufLen ≠ 0) (f : κ → Bytes → Except Error κ) (init : κ) :
    InPieces reader.file (contents reader.file)
      (reader.streamFrom bufLen f (reader.payloadLen.toNat + 1) 0 init)
      (Passed f bufLen init (reader.payload contents)) := by
  obtain ⟨header, ⟨hb, -⟩, hreader, -, -⟩ := h
  rw [hreader, payload_ofHeader contents hb]
  exact streamFrom_inPieces hb hbuf f _ 0 init (Nat.zero_le _) (Nat.lt_succ_of_le (Nat.sub_le ..))

theorem Verified.readToEnd (h : Verified contents lease reader) {bufLen : Nat} (hbuf : bufLen ≠ 0) :
    InPieces reader.file (contents reader.file) (reader.readToEnd bufLen) fun r =>
      r = .ok (reader.payload contents) := by
  obtain ⟨header, ⟨hb, -⟩, hreader, -, -⟩ := h
  rw [hreader, payload_ofHeader contents hb]
  exact readToEnd_inPieces hb hbuf

theorem streamBuffer_ne_zero (chunkSize : Nat) : streamBuffer chunkSize ≠ 0 := by
  have hle : 4096 ≤ streamBuffer chunkSize := Nat.le_max_left ..
  omega

/-- **`stream_lease_payload` passes on the payload of the lease.** -/
theorem streamLeasePayload_given {κ : Type} (contents : Ino → Bytes) (lease : LeaseInfo)
    (chunkSize : Nat) (f : κ → Bytes → Except Error κ) (init : κ) :
    (streamLeasePayload lease chunkSize f init).Given (ShortAct contents) fun k =>
      ∃ (reader : VerifiedPayloadReader) (slices : List Bytes), Verified contents lease reader ∧
        slices.flatten = reader.payload contents ∧ slices.foldlM f init = .ok k := by
  refine ((openVerifiedPayloadReader_verified lease).of_imp storedAct_of_short).bind ?_
  intro found hfound
  split
  · exact given_throw
  · rename_i reader
    have hreader := hfound reader rfl
    have hstream := hreader.streamFrom (streamBuffer_ne_zero chunkSize) f init
    refine Task.Given.peek (F := ShortReads reader.file (contents reader.file))
      (fun s => Task.Meets.mono (hstream s) ?_) fun l r hr => hr reader.file
    rintro r - - ⟨slices, -, -, hfold, hall⟩ k rfl
    exact ⟨reader, slices, hreader, hall k rfl, hfold.symm⟩

end Lease

/-- **The payload is delivered exactly.** Both ways lead to a reader of the payload that was
    verified for the lease. No read leaves the payload; in whatever pieces the file is read, and
    whatever others do with its name, the slices that are streamed are the payload, and so are the
    bytes that are read to the end with a buffer that is not empty. -/
theorem payload_delivered_exactly (contents : Ino → Bytes) :
    (∀ lease, (openVerifiedPayloadReader lease).Given (StoredAct contents) fun found =>
      ∀ reader, found = some reader → Verified contents lease reader) ∧
    (∀ ticket leasedDir target file moved source leased token boottimeDeadline wallDeadline,
      (deliverClaimWithPayload ticket leasedDir target file moved source leased token
        boottimeDeadline wallDeadline).Given (StoredAct contents) fun delivered =>
          Verified contents delivered.1 delivered.2) ∧
    (∀ (κ : Type) lease chunkSize (f : κ → Bytes → Except Error κ) init,
      (streamLeasePayload lease chunkSize f init).Given (ShortAct contents) fun k =>
        ∃ (reader : VerifiedPayloadReader) (slices : List Bytes), Verified contents lease reader ∧
          slices.flatten = reader.payload contents ∧ slices.foldlM f init = .ok k) ∧
    ∀ lease reader, Verified contents lease reader →
      ((reader.payload contents).length = lease.payloadLength.toNat ∧
        payloadDigest (reader.payload contents) = lease.payloadDigest) ∧
      (∀ bufLen offset, (reader.readAt bufLen offset).Asks fun l => ∃ o n,
        l = .pread reader.file o n ∧ reader.payloadStart.toNat ≤ o ∧
          o + n ≤ reader.payloadStart.toNat + reader.payloadLen.toNat) ∧
      (∀ (κ : Type) bufLen (f : κ → Bytes → Except Error κ) init, bufLen ≠ 0 →
        InPieces reader.file (contents reader.file)
          (reader.streamFrom bufLen f (reader.payloadLen.toNat + 1) 0 init)
          (Passed f bufLen init (reader.payload contents))) ∧
      (∀ bufLen, bufLen ≠ 0 → InPieces reader.file (contents reader.file)
        (reader.readToEnd bufLen) fun r => r = .ok (reader.payload contents)) ∧
      ∀ bufLen w es h r h' w', bufLen ≠ 0 → w.HoldsFile reader.file (contents reader.file) →
        ((reader.readToEnd bufLen).start h).Amid (Meanwhile reader.file) AnswersNow w es (r, h') w' →
          r = .ok (reader.payload contents) := by
  refine ⟨openVerifiedPayloadReader_verified, deliverClaimWithPayload_verified,
    fun κ => streamLeasePayload_given contents, ?_⟩
  intro lease reader hreader
  refine ⟨hreader.payload, hreader.readAt, ?_, ?_, ?_⟩
  · intro κ bufLen f init hbuf
    exact hreader.streamFrom hbuf f init
  · intro bufLen hbuf
    exact hreader.readToEnd hbuf
  · intro bufLen w es h r h' w' hbuf hw hrun
    exact (hreader.readToEnd hbuf).amid hw hrun

/-! ## 7. A sample -/

theorem sampleHeader_seal :
    sha256 (envelopeMessage sampleHeader []) = sampleHeader.envelopeDigest := by
  have hencode : sampleHeader.zeroed.encode [] = .ok sampleHeader.zeroed.bytes :=
    FixedHeader.encode_eq_ok rfl
  have hdigest : envelopeDigest sampleHeader.zeroed [] =
      some (sha256 (envelopeMessage sampleHeader [])) := by
    rw [envelopeDigest, show { sampleHeader.zeroed with envelopeDigest := zeros 32 } =
      sampleHeader.zeroed from rfl, hencode]
    rfl
  have hseal : sampleHeader.envelopeDigest =
      (envelopeDigest sampleHeader.zeroed []).getD (zeros 32) := by
    simp only [sampleHeader, FixedHeader.zeroed]
  rw [hseal, hdigest, Option.getD_some]

theorem slice_sampleData : slice sampleData 0 fixedHeaderSize = sampleHeader.bytes ∧
    payloadOf sampleHeader sampleData = [1, 2, 3] := by
  have hlen := sampleHeader.bytes_length
  constructor
  · exact slice_here hlen
  · show slice (sampleHeader.bytes ++ [1, 2, 3]) 128 3 = _
    rw [slice_skip (show sampleHeader.bytes.length ≤ 128 from hlen.le), hlen]
    rfl

/-- The sample job passes the verification. -/
theorem intact_sampleData : Intact sampleHeader sampleData := by
  obtain ⟨hhead, hpayload⟩ := slice_sampleData
  have hvalid : sampleHeader.Valid := ⟨rfl, rfl, by decide, by decide, by decide⟩
  have hsize : sampleData.length = 131 := by
    rw [sampleData, List.length_append, sampleHeader.bytes_length]
    rfl
  refine ⟨⟨?_, rfl, hsize, ?_, ?_⟩, ?_⟩
  · rw [hhead]
    exact FixedHeader.decode_bytes hvalid
  · rw [hsize]
    decide
  · exact (verifyEnvelopeDigest_iff rfl).mpr sampleHeader_seal
  · rw [hpayload]
    rfl
/-- The reader of the sample job. -/
def sampleReader : VerifiedPayloadReader := .ofHeader 20 sampleHeader

theorem verified_sampleReader :
    Verified (fun _ => sampleData) (sampleLeaseAt []) sampleReader ∧
      sampleReader.payload (fun _ => sampleData) = [1, 2, 3] :=
  ⟨⟨sampleHeader, intact_sampleData, rfl, rfl, rfl⟩,
    (payload_ofHeader (fun _ => sampleData) intact_sampleData.1).trans
      slice_sampleData.2⟩

/-- Three bytes, read two at a time. -/
theorem payload_delivered_exactly_sample :
    Verified (fun _ => sampleData) (sampleLeaseAt []) sampleReader ∧
      InPieces 20 sampleData (sampleReader.readToEnd 2) fun r => r = .ok [1, 2, 3] := by
  obtain ⟨hverified, hpayload⟩ := verified_sampleReader
  obtain ⟨-, -, -, hread, -⟩ :=
    (payload_delivered_exactly fun _ => sampleData).2.2.2 (sampleLeaseAt []) sampleReader hverified
  rw [hpayload] at hread
  exact ⟨hverified, hread 2 (by decide)⟩

/-- **An empty buffer**: nothing is read, which looks like the end. -/
theorem empty_buffer_reads_nothing :
    Verified (fun _ => sampleData) (sampleLeaseAt []) sampleReader ∧
      sampleReader.payload (fun _ => sampleData) = [1, 2, 3] ∧
      InPieces 20 sampleData (sampleReader.readToEnd 0) fun r => r = .ok [] := by
  obtain ⟨hverified, hpayload⟩ := verified_sampleReader
  refine ⟨hverified, hpayload, ?_⟩
  rw [readToEnd_empty]
  exact inPieces_pure rfl

end SteadQ
