/-
  File:      SteadQ/Content.lean
  Subject:   WHAT VERIFICATION SAYS OF THE BYTES OF A FILE, on a file system nobody changes.

  The verifiers of `queue/verified.rs` read a file piece by piece. On a fixed file system each of
  them is a verdict on the bytes.
-/
import SteadQ.Alone
import SteadQ.Queue.Verified

namespace SteadQ

open Octet Interact
open Interact.Task (asks_call asks_ite asks_ofExcept asks_pure asks_throw evalThen_ok eval_bind
  eval_mapErr)

variable {w : World} {h : Handle} {file : Ino} {node : Inode} {α β : Type}

/-! ## 1. Replies about a file -/

theorem reply_pread (hnode : w.inodes file = some node) (offset length : Nat) :
    w.reply (.pread file offset length) = .ok (slice node.data offset length) := by
  simp only [World.reply, World.answer, hnode, Option.getD_some]

theorem eval_preadExact (hnode : w.inodes file = some node) (offset length : Nat) :
    (preadExact file offset length).eval w.reply h =
      (exactly length (.ok (slice node.data offset length)), h) := by
  rw [← reply_pread hnode]
  rfl

theorem eval_pread (hnode : w.inodes file = some node) (offset length : Nat) :
    (pread file offset length).eval w.reply h = (.ok (slice node.data offset length), h) := by
  rw [← reply_pread hnode]
  rfl

theorem reply_fstat_file (hnode : w.inodes file = some node) :
    w.reply (.fstat file) = .ok ⟨.regular, node.nlink, node.data.length, device, file⟩ := by
  simp [World.reply, World.answer, World.statFile, hnode]

/-- A status is always there, and only files are regular. -/
theorem reply_fstat (w : World) (file : Ino) : ∃ stat, w.reply (.fstat file) = .ok stat ∧
    (stat.kind = .regular → ∃ node, w.inodes file = some node) := by
  cases hnode : w.inodes file with
  | none => exact ⟨⟨.directory, 2, 0, device, file⟩,
      by simp [World.reply, World.answer, World.statFile, hnode], nofun⟩
  | some node => exact ⟨_, reply_fstat_file hnode, fun _ => ⟨node, rfl⟩⟩

theorem eval_fstat {ε : Type} {stat : Stat} (hstat : w.reply (.fstat file) = .ok stat)
    (f : IoError → ε) (h : Handle) :
    (Task.mapErr f (fstat file)).eval w.reply h = (.ok stat, h) := by
  have heval : (fstat file).eval w.reply h = (.ok stat, h) := by
    rw [← hstat]
    rfl
  rw [eval_mapErr, heval]
  rfl

theorem slice_length_eq {data : Bytes} {offset length : Nat} :
    (slice data offset length).length = length ↔ offset + length ≤ data.length ∨ length = 0 := by
  simp only [slice, List.length_take, List.length_drop]
  omega

/-! ## 2. Verdicts -/

section Judges

variable {ε ε' : Type} {E : ε → Prop} {m : LookM ε α} {k : α → LookM ε β} {J : α → Prop}

/-- On this file system the check gives `a` exactly if `J a`, and fails as in `E` otherwise. -/
def Judges (E : ε → Prop) (w : World) (h : Handle) (m : LookM ε α) (J : α → Prop) : Prop :=
  ∃ x, m.eval w.reply h = (x, h) ∧ (∀ a, x = .ok a ↔ J a) ∧ ∀ e, x = .error e → E e

theorem Judges.eval_ok {a : α} (hm : Judges E w h m J) :
    m.eval w.reply h = (.ok a, h) ↔ J a := by
  obtain ⟨x, hx, hok, -⟩ := hm
  rw [hx, ← hok, Prod.mk.injEq, and_iff_left rfl]

theorem judges_pure (a : α) : Judges E w h (pure a : LookM ε α) fun b => b = a :=
  ⟨_, rfl, fun b => by rw [Except.ok.injEq, eq_comm], nofun⟩

theorem judges_throw {e : ε} (he : E e) : Judges E w h (throw e : LookM ε α) fun _ => False :=
  ⟨_, rfl, fun _ => by simp, by rintro _ ⟨⟩; exact he⟩

theorem judges_memory {k : Handle → LookM ε β} {K : β → Prop} (hk : Judges E w h (k h) K) :
    Judges E w h (Task.memory >>= k) K := hk

theorem Judges.congr {K : α → Prop} (hm : Judges E w h m J) (hJK : ∀ a, J a ↔ K a) :
    Judges E w h m K := by
  obtain ⟨x, hx, hok, herror⟩ := hm
  exact ⟨x, hx, fun a => (hok a).trans (hJK a), herror⟩

theorem Judges.weaken {E' : ε → Prop} (hm : Judges E w h m J) (hE : ∀ e, E e → E' e) :
    Judges E' w h m J := by
  obtain ⟨x, hx, hok, herror⟩ := hm
  exact ⟨x, hx, hok, fun e he => hE e (herror e he)⟩

theorem Judges.mapErr {f : ε → ε'} {E' : ε' → Prop} (hm : Judges E w h m J)
    (hE : ∀ e, E e → E' (f e)) : Judges E' w h (Task.mapErr f m) J := by
  obtain ⟨x, hx, hok, herror⟩ := hm
  refine ⟨x.mapError f, by rw [eval_mapErr, hx], fun a => ?_, fun e he => ?_⟩
  · rw [Task.mapError_eq_ok, hok]
  · cases x with
    | ok a => cases he
    | error e' =>
      obtain rfl := Except.error.inj he
      exact hE e' (herror e' rfl)

theorem Judges.bind {K : α → β → Prop} (hm : Judges E w h m J)
    (hk : ∀ a, J a → Judges E w h (k a) (K a)) :
    Judges E w h (m >>= k) fun b => ∃ a, J a ∧ K a b := by
  obtain ⟨x, hx, hok, herror⟩ := hm
  rw [Judges, eval_bind, hx]
  cases x with
  | error e =>
    refine ⟨.error e, rfl, fun b => ?_, fun e' he' => ?_⟩
    · refine ⟨nofun, ?_⟩
      rintro ⟨a, ha, -⟩
      exact absurd ((hok a).mpr ha) nofun
    · exact herror e' (congrArg Except.error (Except.error.inj he'))
  | ok a =>
    have ha : J a := (hok a).mp rfl
    obtain ⟨y, hy, hyok, hyerror⟩ := hk a ha
    refine ⟨y, hy, fun b => (hyok b).trans ⟨fun hb => ⟨a, ha, hb⟩, ?_⟩, hyerror⟩
    rintro ⟨a', ha', hb⟩
    obtain rfl : a = a' := Except.ok.inj ((hok a').mpr ha')
    exact hb

theorem judges_ofExcept {x : Except ε α} (hx : ∀ e, x = .error e → E e) :
    Judges E w h (Task.ofExcept x) fun a => x = .ok a :=
  ⟨x, rfl, fun _ => Iff.rfl, hx⟩

/-- A guard in front of the rest. -/
theorem judges_guard {c : Prop} [Decidable c] {e : ε} (he : E e)
    (hm : ¬ c → Judges E w h m J) :
    Judges E w h (if c then throw e else m) fun a => ¬ c ∧ J a := by
  by_cases hc : c
  · rw [if_pos hc]
    exact (judges_throw he).congr fun a => by simp [hc]
  · rw [if_neg hc]
    exact (hm hc).congr fun a => by simp [hc]

/-- A read of a file gives its bytes if there are enough of them. -/
theorem preadExact_judges (hnode : w.inodes file = some node) (offset length : Nat)
    {short : IoError → ε} (hshort : E (short .unexpectedEof)) :
    Judges E w h (Task.mapErr short (preadExact file offset length)) fun b =>
      b = slice node.data offset length ∧ b.length = length := by
  have hread : Judges (· = .unexpectedEof) w h (preadExact file offset length)
      fun b => b = slice node.data offset length ∧ b.length = length := by
    refine ⟨_, eval_preadExact hnode _ _, fun b => ?_, fun e he => ?_⟩
    · rw [exactly_eq_ok, Except.ok.injEq]
      exact ⟨fun hb => ⟨hb.1.symm, hb.2⟩, fun hb => ⟨hb.1.symm, hb.2⟩⟩
    · simp only [exactly] at he
      split at he
      · cases he
      · exact (Except.error.inj he).symm
  exact hread.mapErr fun e he => he ▸ hshort

theorem fstat_judges (hnode : w.inodes file = some node) (f : IoError → ε) :
    Judges E w h (Task.mapErr f (fstat file)) fun stat =>
      stat = ⟨.regular, node.nlink, node.data.length, device, file⟩ :=
  ⟨_, eval_fstat (reply_fstat_file hnode) _ h, fun a => by rw [Except.ok.injEq, eq_comm], nofun⟩

/-- A directory opens by its path exactly if it is there. -/
theorem openRelative_judges (hroot : (w.live rootDir).isSome) (path : Path) (f : IoError → ε)
    (hf : w.dirs path = none → E (f .enoent)) :
    Judges E w h (Task.mapErr f (openRelative path)) fun dir =>
      ∃ node, w.dirs path = some node ∧ dir = ⟨path, node.id⟩ := by
  refine Judges.mapErr (E := fun e => e = .enoent ∧ w.dirs path = none)
    ⟨_, eval_openRelative hroot path, fun dir => ?_, fun e he => ?_⟩ fun e he => he.1 ▸ hf he.2
  · cases w.dirs path with
    | none => simp
    | some node => simp [eq_comm]
  · cases hnode : w.dirs path with
    | none => simpa [hnode, eq_comm] using he
    | some node => simp [hnode] at he

/-- A name opens exactly if it is an entry. -/
theorem openAt_judges {path : Path} {dir : DirNode} (hdir : w.dirs path = some dir) (name : Name)
    (f : IoError → ε) (hf : dir.entries.lookup name = none → E (f .enoent)) :
    Judges E w h (Task.mapErr f (openAt ⟨path, dir.id⟩ name)) fun file =>
      ∃ x, dir.entries.lookup name = some x ∧ file = x.number := by
  refine Judges.mapErr (E := fun e => e = .enoent ∧ dir.entries.lookup name = none)
    ⟨_, eval_openAt hdir name, fun file => ?_, fun e he => ?_⟩ fun e he => he.1 ▸ hf he.2
  · cases dir.entries.lookup name with
    | none => simp
    | some x => simp [eq_comm]
  · cases hx : dir.entries.lookup name with
    | none => simpa [hx, eq_comm] using he
    | some x => simp [hx] at he

theorem fstatDir_judges {path : Path} {dir : DirNode} (hdir : w.dirs path = some dir)
    (f : IoError → ε) : Judges E w h (Task.mapErr f (fstatDir ⟨path, dir.id⟩)) fun stat =>
      stat = ⟨.directory, 2, 0, device, dir.id⟩ := by
  have heval : (fstatDir ⟨path, dir.id⟩).eval w.reply h =
      (.ok ⟨.directory, 2, 0, device, dir.id⟩, h) := by
    rw [← reply_fstatDir hdir]
    rfl
  exact Judges.mapErr (E := fun _ => False)
    ⟨_, heval, fun stat => by rw [Except.ok.injEq, eq_comm], nofun⟩ fun _ => False.elim

end Judges

/-- The object is corrupt; no later read will find it otherwise. -/
def IsCorrupt (e : VerificationError) : Prop := ∃ why, e = .corrupt why

/-! ## 3. The envelope -/

/-- Everything but the payload of an object with this header. -/
structure EnvelopeBytes (header : FixedHeader) (data : Bytes) : Prop where
  decodes : FixedHeader.decode (slice data 0 fixedHeaderSize) = .ok header
  fits : isExtensionTooLarge header.extensionHeaderLength.toNat = false
  size : data.length =
    128 + header.extensionHeaderLength.toNat + header.payloadLength.toNat
  bounded : data.length < 2 ^ 64
  envelope : verifyEnvelopeDigest header
    (slice data 128 header.extensionHeaderLength.toNat) = true

/-- The bytes of the extension. -/
def extensionOf (header : FixedHeader) (data : Bytes) : Bytes :=
  slice data 128 header.extensionHeaderLength.toNat

/-- The bytes of the payload. -/
def payloadOf (header : FixedHeader) (data : Bytes) : Bytes :=
  slice data (128 + header.extensionHeaderLength.toNat) header.payloadLength.toNat

theorem EnvelopeBytes.unique {header header' : FixedHeader} {data : Bytes}
    (he : EnvelopeBytes header data) (he' : EnvelopeBytes header' data) : header = header' :=
  Except.ok.inj (he.decodes.symm.trans he'.decodes)

theorem EnvelopeBytes.extension_length {header : FixedHeader} {data : Bytes}
    (he : EnvelopeBytes header data) :
    (extensionOf header data).length = header.extensionHeaderLength.toNat :=
  slice_length_eq.mpr (.inl (by have := he.size; omega))

theorem decode_length {buf : Bytes} {header : FixedHeader}
    (hd : FixedHeader.decode buf = .ok header) : buf.length = fixedHeaderSize := by
  unfold FixedHeader.decode at hd
  split at hd
  · cases hd
  · exact not_not.mp ‹_›

theorem readAndVerifyHeader_judges (hnode : w.inodes file = some node) :
    Judges IsCorrupt w h (readAndVerifyHeader file) fun header =>
      FixedHeader.decode (slice node.data 0 fixedHeaderSize) = .ok header ∧
        isExtensionTooLarge header.extensionHeaderLength.toNat = false := by
  unfold readAndVerifyHeader
  refine (Judges.bind (preadExact_judges hnode 0 fixedHeaderSize ⟨_, rfl⟩) fun buf _ =>
    Judges.bind (judges_ofExcept fun e he => ?_) fun header _ =>
      judges_guard ⟨_, rfl⟩ fun _ => judges_pure header).congr fun header => ?_
  · cases hd : FixedHeader.decode buf with
    | ok a => rw [hd] at he; cases he
    | error e' =>
      rw [hd] at he
      exact ⟨_, (Except.error.inj he).symm⟩
  · constructor
    · rintro ⟨buf, ⟨rfl, -⟩, header', hd, hext, rfl⟩
      exact ⟨Task.mapError_eq_ok.mp hd, by simpa using hext⟩
    · rintro ⟨hd, hext⟩
      exact ⟨_, ⟨rfl, decode_length hd⟩, header, Task.mapError_eq_ok.mpr hd, by simpa using hext,
        rfl⟩

theorem checkedTotalSize_eq_ok {extLen total : Nat} {payloadLength : UInt64} :
    checkedTotalSize extLen payloadLength = .ok total ↔
      total = 128 + extLen + payloadLength.toNat ∧ total < 2 ^ 64 := by
  unfold checkedTotalSize
  split
  · rw [Except.ok.injEq]
    constructor
    · rintro rfl
      exact ⟨rfl, by assumption⟩
    · rintro ⟨rfl, -⟩
      rfl
  · simp only [reduceCtorEq, false_iff]
    rintro ⟨rfl, hlt⟩
    contradiction

theorem verifySize_judges (hnode : w.inodes file = some node) (header : FixedHeader)
    (extLen : Nat) :
    Judges IsCorrupt w h (verifySize file header extLen) fun stat =>
      stat = ⟨.regular, node.nlink, node.data.length, device, file⟩ ∧
        node.data.length = 128 + extLen + header.payloadLength.toNat ∧
        node.data.length < 2 ^ 64 := by
  unfold verifySize
  refine (Judges.bind (fstat_judges hnode _) fun stat _ => Judges.bind
    (judges_ofExcept fun e he => ?_) fun total _ => judges_guard ⟨_, rfl⟩ fun _ =>
      judges_pure stat).congr fun stat => ?_
  · unfold checkedTotalSize at he
    split at he
    · cases he
    · exact ⟨_, (Except.error.inj he).symm⟩
  · constructor
    · rintro ⟨stat', rfl, total, htotal, hsize, rfl⟩
      obtain ⟨rfl, hlt⟩ := checkedTotalSize_eq_ok.mp htotal
      have hlen : 128 + extLen + header.payloadLength.toNat = node.data.length := not_not.mp hsize
      exact ⟨rfl, hlen.symm, hlen ▸ hlt⟩
    · rintro ⟨rfl, hsize, hlt⟩
      exact ⟨_, rfl, _, checkedTotalSize_eq_ok.mpr ⟨rfl, hsize ▸ hlt⟩, not_not.mpr hsize.symm, rfl⟩

theorem readExtension_judges (hnode : w.inodes file = some node) {extLen : Nat}
    (hin : 128 + extLen ≤ node.data.length) :
    Judges IsCorrupt w h (readExtension file extLen) fun ext => ext = slice node.data 128 extLen := by
  unfold readExtension
  split
  · refine (preadExact_judges hnode 128 extLen ⟨_, rfl⟩).congr fun ext => ⟨And.left, ?_⟩
    rintro rfl
    exact ⟨rfl, slice_length_eq.mpr (.inl hin)⟩
  · obtain rfl : extLen = 0 := by omega
    exact (judges_pure []).congr fun ext => by simp [slice]

/-- What the verification of an envelope returns. -/
def verifiedJobOf (header : FixedHeader) (file : Ino) (data : Bytes) : VerifiedJob :=
  ⟨header, extensionOf header data, device, file, data.length⟩

/-- **The verdict on an envelope.** -/
theorem verifyEnvelopeOnFd_judges (hnode : w.inodes file = some node) :
    Judges IsCorrupt w h (verifyEnvelopeOnFd file) fun job =>
      ∃ header, EnvelopeBytes header node.data ∧ job = verifiedJobOf header file node.data := by
  unfold verifyEnvelopeOnFd
  refine (Judges.bind (readAndVerifyHeader_judges hnode) fun header _ =>
    Judges.bind (verifySize_judges hnode header _) fun stat hstat =>
      Judges.bind (readExtension_judges hnode (by omega)) fun ext _ =>
        judges_guard ⟨_, rfl⟩ fun _ => judges_pure _).congr fun job => ?_
  constructor
  · rintro ⟨header, ⟨hd, hext⟩, stat, ⟨rfl, hsize, hlt⟩, ext, rfl, hdigest, rfl⟩
    exact ⟨header, ⟨hd, hext, hsize, hlt, by simpa using hdigest⟩, rfl⟩
  · rintro ⟨header, he, rfl⟩
    exact ⟨header, ⟨he.decodes, he.fits⟩, _, ⟨rfl, he.size, he.bounded⟩, _, rfl,
      by simpa using he.envelope, rfl⟩

/-! ## 4. The payload -/

/-- Chunk by chunk, a payload is read as it stands. -/
theorem eval_readPayload (hnode : w.inodes file = some node) (fuel start offset remaining : Nat)
    (hfuel : remaining ≤ fuel) (hstart : start ≤ offset)
    (hin : offset + remaining ≤ node.data.length) :
    (readPayload file fuel offset remaining (slice node.data start (offset - start))).eval
      w.reply h = (.ok (slice node.data start (offset + remaining - start)), h) := by
  induction fuel generalizing offset remaining with
  | zero =>
    obtain rfl : remaining = 0 := by omega
    rfl
  | succ fuel ih =>
    unfold readPayload
    split
    · have hchunk : (Task.mapErr (fun e => VerificationError.io e.text)
          (pread file offset (min remaining 65536))).eval w.reply h =
            (.ok (slice node.data offset (min remaining 65536)), h) := by
        rw [eval_mapErr, eval_pread hnode]
        rfl
      have hlen : (slice node.data offset (min remaining 65536)).length = min remaining 65536 :=
        slice_length_eq.mpr (.inl (by omega))
      have hjoin : slice node.data start (offset - start) ++
          slice node.data offset (min remaining 65536) =
            slice node.data start (offset + min remaining 65536 - start) := by
        simp only [slice]
        rw [show offset + min remaining 65536 - start =
          (offset - start) + min remaining 65536 by omega, List.take_add, List.drop_drop,
          show start + (offset - start) = offset by omega]
      rw [eval_bind, hchunk, evalThen_ok, if_neg (List.ne_nil_of_length_pos (by omega)),
        hlen, hjoin, ih (offset + min remaining 65536) (remaining - min remaining 65536) (by omega)
          (by omega) (by omega)]
      rw [show offset + min remaining 65536 + (remaining - min remaining 65536) =
        offset + remaining by omega]
    · obtain rfl : remaining = 0 := by omega
      rfl

/-- **The verdict on a payload.** -/
theorem eval_verifyPayload (hnode : w.inodes file = some node) {header : FixedHeader}
    (he : EnvelopeBytes header node.data) :
    (verifyPayload file header (extensionOf header node.data).length).eval w.reply h =
      (if payloadDigest (payloadOf header node.data) = header.payloadDigest then .ok ()
        else .error .payloadCorrupt, h) := by
  have hread := eval_readPayload (h := h) hnode header.payloadLength.toNat
    (128 + header.extensionHeaderLength.toNat) (128 + header.extensionHeaderLength.toNat)
    header.payloadLength.toNat le_rfl le_rfl he.size.ge
  rw [Nat.sub_self, slice, List.take_zero, Nat.add_sub_cancel_left] at hread
  unfold verifyPayload
  rw [he.extension_length, eval_bind, hread, evalThen_ok]
  by_cases hp : payloadDigest (payloadOf header node.data) = header.payloadDigest
  · rw [if_pos hp]
    exact congrArg (fun m : LookM VerificationError Unit => m.eval w.reply h)
      (if_neg (not_not.mpr hp))
  · rw [if_neg hp]
    exact congrArg (fun m : LookM VerificationError Unit => m.eval w.reply h) (if_pos hp)

/-- An object whose envelope and payload both pass. -/
def Intact (header : FixedHeader) (data : Bytes) : Prop :=
  EnvelopeBytes header data ∧ payloadDigest (payloadOf header data) = header.payloadDigest

/-- **The verdict on a whole job.** Only a payload that fails its digest is not plainly corrupt. -/
theorem eval_verifyJobOnFd (hnode : w.inodes file = some node) :
    (∃ header, Intact header node.data ∧
      (verifyJobOnFd file).eval w.reply h = (.ok (verifiedJobOf header file node.data), h)) ∨
    (∃ header, EnvelopeBytes header node.data ∧
      payloadDigest (payloadOf header node.data) ≠ header.payloadDigest ∧
      (verifyJobOnFd file).eval w.reply h = (.error .payloadCorrupt, h)) ∨
    ((∀ header, ¬ EnvelopeBytes header node.data) ∧
      ∃ why, (verifyJobOnFd file).eval w.reply h = (.error (.corrupt why), h)) := by
  obtain ⟨x, hx, hok, herror⟩ := verifyEnvelopeOnFd_judges (h := h) hnode
  unfold verifyJobOnFd
  rw [eval_bind, hx]
  cases x with
  | error e =>
    obtain ⟨why, rfl⟩ := herror e rfl
    refine .inr (.inr ⟨fun header he => ?_, why, rfl⟩)
    exact absurd ((hok _).mpr ⟨header, he, rfl⟩) nofun
  | ok job =>
    obtain ⟨header, he, rfl⟩ := (hok job).mp rfl
    rw [evalThen_ok, eval_bind]
    by_cases hp : payloadDigest (payloadOf header node.data) = header.payloadDigest
    · refine .inl ⟨header, ⟨he, hp⟩, ?_⟩
      show Task.evalThen _ _ ((verifyPayload file header
        (extensionOf header node.data).length).eval w.reply h) = _
      rw [eval_verifyPayload hnode he, if_pos hp]
      rfl
    · refine .inr (.inl ⟨header, he, hp, ?_⟩)
      show Task.evalThen _ _ ((verifyPayload file header
        (extensionOf header node.data).length).eval w.reply h) = _
      rw [eval_verifyPayload hnode he, if_neg hp]
      rfl

/-! ## 5. Receipts -/

/-- Not a failing read: the object itself is at fault. -/
def IsFinal (e : VerificationError) : Prop := ∀ message, e ≠ .io message

theorem IsCorrupt.final {e : VerificationError} (he : IsCorrupt e) : IsFinal e := by
  obtain ⟨why, rfl⟩ := he
  nofun

theorem checkCompactReceipt_final {format : FormatRecord} {name : ReceiptName} {start : UInt64}
    {expected : Option ExpectedReceipt} {record : Bytes} {e : VerificationError}
    (h : checkCompactReceipt format name start expected record = .error e) : IsFinal e := by
  rintro message rfl
  unfold checkCompactReceipt at h
  repeat' split at h
  all_goals cases h

theorem checkFullReceipt_final {format : FormatRecord} {name : ReceiptName}
    {expected : Option ExpectedReceipt} {header : FixedHeader} {e : VerificationError}
    (h : checkFullReceipt format name expected header = .error e) : IsFinal e := by
  rintro message rfl
  unfold checkFullReceipt at h
  repeat' split at h
  all_goals cases h

theorem authenticateReceiptName_final {format : FormatRecord} {context : ReceiptContext}
    {e : VerificationError} (h : authenticateReceiptName format context = .error e) :
    IsFinal e := by
  rintro message rfl
  unfold authenticateReceiptName at h
  repeat' split at h
  all_goals cases h

/-- The bytes of a receipt of each kind, for a name and the start of its bucket. -/
def ReceiptBytes (format : FormatRecord) (name : ReceiptName) (start : UInt64)
    (expected : Option ExpectedReceipt) (file : Ino) (data : Bytes) :
    VerifiedReceiptKind → Prop
  | .compact => compactReceiptSize ≤ data.length ∧
      isCompactReceipt data.length (slice data 0 compactReceiptSize) = true ∧
      checkCompactReceipt format name start expected (slice data 0 compactReceiptSize) = .ok ()
  | .full job => compactReceiptSize ≤ data.length ∧
      isCompactReceipt data.length (slice data 0 compactReceiptSize) = false ∧
      ∃ header, Intact header data ∧ job = verifiedJobOf header file data ∧
        checkFullReceipt format name expected header = .ok ()

/-- What it takes to be accepted as a receipt in a place. -/
structure AcceptedReceipt (format : FormatRecord) (context : ReceiptContext)
    (expected : Option ExpectedReceipt) (file : Ino) (node : Inode) (receipt : VerifiedReceipt) :
    Prop where
  nlink : node.nlink = 1
  named : expectedNameMatches receipt.name expected = true
  device : receipt.device = SteadQ.device
  inode : receipt.inode = file
  placed : ∃ start, authenticateReceiptName format context =
      .ok (receipt.name, receipt.bucketNumber, start) ∧
    ReceiptBytes format receipt.name start expected file node.data receipt.kind

theorem verifyReceiptKind_judges (hnode : w.inodes file = some node) (name : ReceiptName)
    (start : UInt64) (expected : Option ExpectedReceipt) :
    Judges IsFinal w h (verifyReceiptKind file node.data.length name start expected)
      (ReceiptBytes h.format name start expected file node.data) := by
  unfold verifyReceiptKind
  refine judges_memory ((Judges.bind (preadExact_judges hnode 0 compactReceiptSize (by nofun))
    (K := fun _ => ReceiptBytes h.format name start expected file node.data)
    fun record hrecord => ?_).congr fun kind => ?_)
  · obtain ⟨rfl, hlen⟩ := hrecord
    have hsize : compactReceiptSize ≤ node.data.length := by
      have := slice_length_eq.mp hlen
      simp only [compactReceiptSize] at this ⊢
      omega
    by_cases hcompact :
        isCompactReceipt node.data.length (slice node.data 0 compactReceiptSize) = true
    · rw [if_pos hcompact]
      refine (Judges.bind (judges_ofExcept fun e => checkCompactReceipt_final) fun u _ =>
        judges_pure VerifiedReceiptKind.compact).congr fun kind => ?_
      cases kind with
      | compact =>
        constructor
        · rintro ⟨u, hcheck, -⟩
          exact ⟨hsize, hcompact, hcheck⟩
        · rintro ⟨-, -, hcheck⟩
          exact ⟨(), hcheck, rfl⟩
      | full job => simp [ReceiptBytes, hcompact]
    · rw [if_neg hcompact]
      rw [Bool.not_eq_true] at hcompact
      have henvelope := (verifyEnvelopeOnFd_judges (h := h) hnode).weaken fun e => IsCorrupt.final
      refine (Judges.bind henvelope (K := fun job kind => ∃ header,
        job = verifiedJobOf header file node.data ∧ Intact header node.data ∧
          checkFullReceipt h.format name expected header = .ok () ∧ kind = .full job)
        fun job hjob => ?_).congr fun kind => ?_
      · obtain ⟨header, he, rfl⟩ := hjob
        refine (Judges.bind (judges_ofExcept fun e => checkFullReceipt_final) fun u _ =>
          Judges.bind (J := fun _ => payloadDigest (payloadOf header node.data) =
            header.payloadDigest) ⟨_, eval_verifyPayload hnode he, fun _ => ?_, fun e he' => ?_⟩
          fun _ _ => judges_pure _).congr fun kind => ?_
        · split <;> simp [*]
        · split at he'
          · cases he'
          · cases he'
            nofun
        · constructor
          · rintro ⟨u, hcheck, v, hp, rfl⟩
            exact ⟨header, rfl, ⟨he, hp⟩, hcheck, rfl⟩
          · rintro ⟨header', heq, ⟨he', hp⟩, hcheck, rfl⟩
            obtain rfl := he.unique he'
            exact ⟨(), hcheck, (), hp, rfl⟩
      · cases kind with
        | compact => simp [ReceiptBytes, hcompact]
        | full job =>
          simp only [ReceiptBytes, hsize, hcompact, true_and]
          constructor
          · rintro ⟨job', -, header, hjob, hintact, hcheck, hkind⟩
            cases hkind
            exact ⟨header, hintact, hjob, hcheck⟩
          · rintro ⟨header, hintact, rfl, hcheck⟩
            exact ⟨_, ⟨header, hintact.1, rfl⟩, header, rfl, hintact, hcheck, rfl⟩
  · constructor
    · rintro ⟨_, -, hkind⟩
      exact hkind
    · intro hkind
      have hsize : compactReceiptSize ≤ node.data.length := by
        cases kind with
        | compact => exact hkind.1
        | full job => exact hkind.1
      exact ⟨_, ⟨rfl, slice_length_eq.mpr (.inl (by omega))⟩, hkind⟩

/-- **The verdict on a receipt.** -/
theorem verifyReceiptOnFd_judges (hnode : w.inodes file = some node) (context : ReceiptContext)
    (expected : Option ExpectedReceipt) :
    Judges IsFinal w h (verifyReceiptOnFd file context expected)
      (AcceptedReceipt h.format context expected file node) := by
  unfold verifyReceiptOnFd
  refine judges_memory ((Judges.bind (fstat_judges hnode _) fun stat hstat =>
    judges_guard (by nofun) fun _ => judges_guard (by nofun) fun _ =>
      Judges.bind (judges_ofExcept fun e => authenticateReceiptName_final) fun place _ =>
        judges_guard (by nofun) fun _ => Judges.bind
          (J := ReceiptBytes h.format place.1 place.2.2 expected file node.data)
          (by subst hstat; exact verifyReceiptKind_judges hnode place.1 place.2.2 expected)
          fun kind _ => judges_pure _).congr fun receipt => ?_)
  constructor
  · rintro ⟨stat, rfl, -, hlink, ⟨name, bucket, start⟩, hplace, hnamed, kind, hkind, rfl⟩
    exact ⟨not_not.mp hlink, not_not.mp hnamed, rfl, rfl, start, hplace, hkind⟩
  · rintro ⟨hlink, hnamed, hdevice, hinode, start, hplace, hkind⟩
    obtain ⟨name, bucket, kind, _, _⟩ := receipt
    obtain rfl : _ = SteadQ.device := hdevice
    obtain rfl : _ = file := hinode
    exact ⟨_, rfl, not_not.mpr rfl, not_not.mpr hlink, ⟨name, bucket, start⟩, hplace,
      not_not.mpr hnamed, kind, hkind, rfl⟩

/-- What is not a file is no receipt. -/
theorem verifyReceiptOnFd_judges_none (hnode : w.inodes file = none) (context : ReceiptContext)
    (expected : Option ExpectedReceipt) :
    Judges IsFinal w h (verifyReceiptOnFd file context expected) fun _ => False := by
  obtain ⟨stat, hstat, hregular⟩ := reply_fstat w file
  have hkind : stat.kind ≠ .regular := fun hk => by
    obtain ⟨node, hn⟩ := hregular hk
    rw [hnode] at hn
    cases hn
  refine ⟨.error (.corrupt "receipt is not a regular file"), ?_, fun _ => by simp, ?_⟩
  · unfold verifyReceiptOnFd
    rw [eval_bind, Task.eval_memory, evalThen_ok, eval_bind, eval_fstat hstat,
      evalThen_ok, if_pos hkind]
    rfl
  · rintro _ ⟨⟩
    nofun

/-- The verification of a receipt leaves the handle alone, and none of its reads fails. -/
theorem eval_verifyReceiptOnFd (file : Ino) (context : ReceiptContext)
    (expected : Option ExpectedReceipt) :
    ∃ x, (verifyReceiptOnFd file context expected).eval w.reply h = (x, h) ∧
      ∀ e, x = .error e → IsFinal e := by
  cases hnode : w.inodes file with
  | none =>
    obtain ⟨x, hx, -, herror⟩ := verifyReceiptOnFd_judges_none (h := h) hnode context expected
    exact ⟨x, hx, herror⟩
  | some node =>
    obtain ⟨x, hx, -, herror⟩ := verifyReceiptOnFd_judges (h := h) hnode context expected
    exact ⟨x, hx, herror⟩

/-! ## 6. Only the file is asked -/

/-- A look at an open file. -/
def Look.isOf (file : Ino) : Look → Bool
  | .fstat i => i = file
  | .pread i _ _ => i = file
  | _ => false

/-- Code that looks at one file only. -/
def OfFile {ε : Type} (file : Ino) (m : LookM ε α) : Prop := m.Asks fun l => l.isOf file = true

theorem OfFile.settled {ε : Type} {m : LookM ε α} (hm : OfFile file m) : Settled m :=
  hm.mono fun l hl => by cases l <;> first | rfl | cases hl

theorem fstat_ofFile (file : Ino) : OfFile file (fstat file) :=
  asks_call (decide_eq_true rfl)

theorem preadExact_ofFile (file : Ino) (offset length : Nat) :
    OfFile file (preadExact file offset length) := asks_call (decide_eq_true rfl)

theorem verifyEnvelopeOnFd_ofFile (file : Ino) : OfFile file (verifyEnvelopeOnFd file) := by
  refine .bind (.bind (.mapErr (preadExact_ofFile _ _ _)) fun buf => .bind (asks_ofExcept _)
    fun header => asks_ite (asks_throw _) (asks_pure _)) fun header => ?_
  refine .bind (.bind (.mapErr (fstat_ofFile _)) fun stat => .bind (asks_ofExcept _)
    fun total => asks_ite (asks_throw _) (asks_pure _)) fun stat => ?_
  refine .bind (asks_ite (.mapErr (preadExact_ofFile _ _ _)) (asks_pure _)) fun ext => ?_
  exact asks_ite (asks_throw _) (asks_pure _)

theorem readPayload_ofFile (file : Ino) (fuel offset remaining : Nat) (payload : Bytes) :
    OfFile file (readPayload file fuel offset remaining payload) := by
  induction fuel generalizing offset remaining payload with
  | zero => exact asks_pure _
  | succ fuel ih =>
    refine asks_ite (.bind (.mapErr (asks_call (decide_eq_true rfl))) fun chunk => ?_)
      (asks_pure _)
    exact asks_ite (asks_throw _) (ih _ _ _)

theorem verifyPayload_ofFile (file : Ino) (header : FixedHeader) (extLen : Nat) :
    OfFile file (verifyPayload file header extLen) :=
  .bind (readPayload_ofFile _ _ _ _ _) fun _ => asks_ite (asks_throw _) (asks_pure _)

theorem verifyJobOnFd_ofFile (file : Ino) : OfFile file (verifyJobOnFd file) :=
  .bind (verifyEnvelopeOnFd_ofFile file) fun _ => .bind (verifyPayload_ofFile _ _ _) fun _ =>
    asks_pure _

theorem verifyReceiptOnFd_ofFile (file : Ino) (context : ReceiptContext)
    (expected : Option ExpectedReceipt) :
    OfFile file (verifyReceiptOnFd file context expected) := by
  refine .bind Task.asks_memory fun h => .bind (.mapErr (fstat_ofFile _)) fun stat => ?_
  refine asks_ite (asks_throw _) (asks_ite (asks_throw _) ?_)
  refine .bind (asks_ofExcept _) fun p => asks_ite (asks_throw _) ?_
  refine .bind (.bind Task.asks_memory fun h => .bind (.mapErr (preadExact_ofFile _ _ _))
    fun record => ?_) fun kind => asks_pure _
  refine asks_ite (.bind (asks_ofExcept _) fun _ => asks_pure _) ?_
  exact .bind (verifyEnvelopeOnFd_ofFile file) fun job => .bind (asks_ofExcept _) fun _ =>
    .bind (verifyPayload_ofFile _ _ _) fun _ => asks_pure _

end SteadQ
