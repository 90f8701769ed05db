/-
  File:      SteadQ/Wire.lean
  Subject:   TICKETS ON THE WIRE (`TransitionTicket::to_json`, `from_json`), and that every ticket is
             well formed.

  A ticket is built through `TransitionTicket.new` only, and leaves the process as JSON. The wire
  form writes identities in hex; reading and writing JSON itself is a `TicketCodec`.
-/
import SteadQ.Queue.Consumer
import SteadQ.Fresh
import SteadQ.Snapshot

namespace SteadQ

open Octet Interact

/-! ## 1. The wire form -/

def transitionTicketSchema : Bytes := ascii "steadq-transition-ticket"
def transitionTicketVersion : UInt16 := 2

structure TicketIdentityWire where
  jobId : Bytes
  generation : UInt64
  attempt : UInt32
  maximumAttempts : UInt32
  leaseToken : Bytes
  envelopeDigest : Bytes
  payloadLength : UInt64

structure TransitionTicketWire where
  schema : Bytes
  version : UInt16
  queueId : Bytes
  operation : TransitionOperation
  phase : TransitionPhase
  sourceIdentity : TicketIdentityWire
  source : TicketSource
  destinationDerivation : TicketDestination

/-- The JSON of the wire form: what is written is read back. -/
structure TicketCodec where
  encode : TransitionTicketWire → Bytes
  decode : Bytes → Except String TransitionTicketWire
  decode_encode : ∀ wire, decode (encode wire) = .ok wire

namespace TransitionTicket

def wire (t : TransitionTicket) : TransitionTicketWire where
  schema := transitionTicketSchema
  version := transitionTicketVersion
  queueId := hexEncode t.queueId.1
  operation := t.operation
  phase := t.phase
  sourceIdentity := {
    jobId := hexEncode t.sourceCommon.jobId.1
    generation := t.sourceCommon.generation
    attempt := t.sourceCommon.attempt
    maximumAttempts := t.sourceCommon.maximumAttempts
    leaseToken := hexEncode t.leaseToken.1
    envelopeDigest := hexEncode t.envelopeDigest.1
    payloadLength := t.payloadLength }
  source := t.source
  destinationDerivation := t.destination

def toJson (codec : TicketCodec) (t : TransitionTicket) : Bytes := codec.encode t.wire

/-- A field of the wire form in hex. -/
def hexField (n : Nat) (s : Bytes) (name : String) : Except Error (Octets n) :=
  match hexDecodeArray n s with
  | some b => .ok b
  | none => .error (.invalidTicket ("invalid " ++ name))

def fromJson (codec : TicketCodec) (data : Bytes) : Except Error TransitionTicket := do
  let wire ← (codec.decode data).mapError fun e => Error.invalidTicket ("invalid JSON: " ++ e)
  if wire.schema ≠ transitionTicketSchema then throw (.invalidTicket "invalid schema")
  if wire.version ≠ transitionTicketVersion then throw (.invalidTicket "unsupported version")
  let queueId ← hexField 16 wire.queueId "queue_id"
  let jobId ← hexField 16 wire.sourceIdentity.jobId "job_id"
  let leaseToken ← hexField 16 wire.sourceIdentity.leaseToken "lease_token"
  let envelopeDigest ← hexField 32 wire.sourceIdentity.envelopeDigest "envelope_digest"
  new {
    queueId := queueId
    operation := wire.operation
    phase := wire.phase
    sourceCommon := ⟨jobId, wire.sourceIdentity.generation, wire.sourceIdentity.attempt,
      wire.sourceIdentity.maximumAttempts⟩
    leaseToken := leaseToken
    envelopeDigest := envelopeDigest
    payloadLength := wire.sourceIdentity.payloadLength
    source := wire.source
    destination := wire.destinationDerivation }

/-! ## 2. Valid tickets -/

/-- The states of source and destination are those of the operation. -/
structure Legal (t : TransitionTicket) : Prop where
  attempts : t.sourceCommon.maximumAttempts ≠ 0
  attempt : t.sourceCommon.attempt ≤ t.sourceCommon.maximumAttempts
  next : ∃ c, t.destinationCommon = .ok c ∧ c.attempt ≤ t.sourceCommon.maximumAttempts
  source : t.source.protocolState = (transition t.operation.protocolOperation).source
  destination : t.destination.protocolState = (transition t.operation.protocolOperation).destination
  boots : ∀ b ∈ t.source.bootId.toList ++ t.destination.bootId.toList, (bootIdBytes b).isSome

theorem validate_iff {t : TransitionTicket} : t.validate = .ok () ↔ t.Legal := by
  unfold validate
  by_cases hattempts : t.sourceCommon.maximumAttempts = 0
  · rw [if_pos hattempts]
    exact ⟨nofun, fun h => absurd hattempts h.attempts⟩
  by_cases hattempt : t.sourceCommon.attempt > t.sourceCommon.maximumAttempts
  · rw [if_neg hattempts, if_pos hattempt]
    exact ⟨nofun, fun h => absurd hattempt (UInt32.not_lt.mpr h.attempt)⟩
  rw [if_neg hattempts, if_neg hattempt]
  cases hnext : t.destinationCommon with
  | error e =>
    refine ⟨nofun, fun h => ?_⟩
    obtain ⟨c, hc, -⟩ := h.next
    cases hnext.symm.trans hc
  | ok c =>
    simp only [bind, Except.bind, pure, Except.pure]
    split
    · rename_i hbad
      refine ⟨nofun, fun h => absurd ⟨h.source, h.destination, ?_⟩ hbad⟩
      obtain ⟨c', hc', hle⟩ := h.next
      cases hnext.symm.trans hc'
      exact hle
    rename_i hgood
    obtain ⟨hsource, hdestination, hle⟩ := not_not.mp hgood
    split
    · rename_i hboot
      refine ⟨nofun, fun h => ?_⟩
      obtain ⟨b, hb, hnone⟩ := List.any_eq_true.mp hboot
      have hsome := h.boots b hb
      rw [Option.isNone_iff_eq_none.mp hnone] at hsome
      cases hsome
    · rename_i hboot
      refine ⟨fun _ => ⟨hattempts, UInt32.not_lt.mp hattempt, ⟨c, hnext, hle⟩, hsource,
        hdestination, fun b hb => ?_⟩, fun _ => rfl⟩
      by_contra hsome
      exact hboot (List.any_eq_true.mpr ⟨b, hb, by simpa using hsome⟩)

theorem new_eq_ok {t t' : TransitionTicket} : t.new = .ok t' ↔ t.validate = .ok () ∧ t' = t := by
  unfold new
  cases hv : t.validate with
  | error e => exact ⟨nofun, nofun⟩
  | ok u =>
    refine ⟨fun h => ⟨rfl, (Except.ok.inj h).symm⟩, ?_⟩
    rintro ⟨-, rfl⟩
    rfl

end TransitionTicket

/-- A generation and an attempt that can be counted up are. -/
theorem nextCommonFields_counts {op : Operation} {c : CommonFields} (hop : ¬ op.Publishes)
    (hgeneration : c.generation.toNat + 1 < 2 ^ 64)
    (hattempt : op = .claim → c.attempt.toNat + 1 < 2 ^ 32) :
    ∃ c', nextCommonFields op c = .ok c' := by
  simp only [nextCommonFields, transition_generation hop, transition_attempt hop,
    GenerationChange.apply, if_pos hgeneration, bind, Except.bind]
  by_cases hclaim : op = .claim
  · rw [if_pos hclaim]
    simp only [AttemptChange.apply, if_pos (hattempt hclaim)]
    exact ⟨_, rfl⟩
  · rw [if_neg hclaim]
    exact ⟨_, rfl⟩

theorem TransitionOperation.not_publishes (op : TransitionOperation) :
    ¬ op.protocolOperation.Publishes := by
  cases op <;> decide

namespace TransitionTicket

variable {t : TransitionTicket}

theorem destinationCommon_eq_ok {c : CommonFields} :
    t.destinationCommon = .ok c ↔
      nextCommonFields t.operation.protocolOperation t.sourceCommon = .ok c := by
  unfold destinationCommon
  split
  · rename_i hnext
    rw [hnext, Except.ok.injEq, Except.ok.injEq]
  · rename_i hnext
    rw [hnext]
    exact ⟨nofun, nofun⟩
  · rename_i hnext
    rw [hnext]
    exact ⟨nofun, nofun⟩

/-- The next identity of a valid ticket. -/
theorem Legal.counts (h : t.Legal) : ∃ c, t.destinationCommon = .ok c ∧
    Succeeds t.operation.protocolOperation t.sourceCommon c ∧
      c.attempt ≤ t.sourceCommon.maximumAttempts := by
  obtain ⟨c, hc, hle⟩ := h.next
  exact ⟨c, hc, nextCommonFields_ok (destinationCommon_eq_ok.mp hc) t.operation.not_publishes, hle⟩

/-- The conditions on a ticket whose source and destination are those of its operation. -/
theorem legal_of_counts (hgeneration : t.sourceCommon.generation.toNat + 1 < 2 ^ 64)
    (hattempt : t.sourceCommon.attempt ≤ t.sourceCommon.maximumAttempts)
    (hattempts : t.sourceCommon.maximumAttempts ≠ 0)
    (hclaim : t.operation = .claim →
      t.sourceCommon.attempt < t.sourceCommon.maximumAttempts)
    (hsource : t.source.protocolState = (transition t.operation.protocolOperation).source)
    (hdestination : t.destination.protocolState =
      (transition t.operation.protocolOperation).destination)
    (hboots : ∀ b ∈ t.source.bootId.toList ++ t.destination.bootId.toList,
      (bootIdBytes b).isSome) : t.Legal := by
  have hmax := t.sourceCommon.maximumAttempts.toNat_lt
  have hroom : t.operation.protocolOperation = .claim →
      t.sourceCommon.attempt.toNat + 1 ≤ t.sourceCommon.maximumAttempts.toNat := by
    intro h
    refine UInt32.lt_iff_toNat_lt.mp (hclaim ?_)
    cases hop : t.operation <;> rw [hop] at h <;> first | rfl | cases h
  obtain ⟨c, hc⟩ := nextCommonFields_counts t.operation.not_publishes hgeneration
    fun h => Nat.lt_of_le_of_lt (hroom h) hmax
  have hsucceeds := nextCommonFields_ok hc t.operation.not_publishes
  refine ⟨hattempts, hattempt, ⟨c, destinationCommon_eq_ok.mpr hc, ?_⟩, hsource, hdestination,
    hboots⟩
  rw [UInt32.le_iff_toNat_le] at hattempt ⊢
  rw [hsucceeds.attempt]
  split
  · rename_i h
    exact hroom h
  · exact hattempt

end TransitionTicket

/-! ## 3. Tickets that are built -/

/-- A lease that can be ended or prolonged; its boot ID is that of the handle that made it. -/
structure CurrentLease (lease : LeaseInfo) : Prop where
  boot : (bootIdBytes lease.bootId).isSome
  attempted : 1 ≤ lease.attempt
  attempt : lease.attempt ≤ lease.maximumAttempts
  generation : lease.generation.toNat < 2 ^ 64 - 1

/-- The destinations that the operations on a lease ask tickets for. -/
inductive LeaseDestination (h : Handle) : TransitionOperation → TicketDestination → Prop where
  | renew (boottime wall : UInt64) : LeaseDestination h .renew (.leased h.bootId boottime wall)
  | acknowledge (bucket : UInt64) : LeaseDestination h .acknowledge (.receipt bucket)
  | retryNow : LeaseDestination h .retryNow .ready
  | retryLater (notBefore : UInt64) : LeaseDestination h .retryLater (.delayed notBefore)
  | bury (bucket : UInt64) (reason : UInt16) : LeaseDestination h .bury (.dead bucket reason)

/-- The ticket of a transition of a lease. -/
def leaseTicket (h : Handle) (lease : LeaseInfo) (operation : TransitionOperation)
    (destination : TicketDestination) : TransitionTicket where
  queueId := h.format.queueId
  operation := operation
  phase := .linearized
  sourceCommon := leaseCommon lease
  leaseToken := lease.token
  envelopeDigest := lease.envelopeDigest
  payloadLength := lease.payloadLength
  source := .leased lease.bootId lease.expiresBoottimeNs lease.expiresWallNs
  destination := destination

/-- The ticket of a claim. -/
def claimTicket (h : Handle) (source : CommonFields) (token : Octets 16)
    (evidence : TicketEvidence) (boottime wall : UInt64) : TransitionTicket where
  queueId := h.format.queueId
  operation := .claim
  phase := .linearized
  sourceCommon := source
  leaseToken := token
  envelopeDigest := evidence.envelopeDigest
  payloadLength := evidence.payloadLength
  source := .ready
  destination := .leased h.bootId boottime wall

section Built

variable {h : Handle}

theorem leaseTicket_legal (hboot : (bootIdBytes h.bootId).isSome) {lease : LeaseInfo}
    (hl : CurrentLease lease) {operation : TransitionOperation} {destination : TicketDestination}
    (hd : LeaseDestination h operation destination) :
    (leaseTicket h lease operation destination).Legal := by
  have hattempts : lease.maximumAttempts ≠ 0 := by
    intro hzero
    have h1 := UInt32.le_iff_toNat_le.mp hl.attempted
    have h2 := UInt32.le_iff_toNat_le.mp hl.attempt
    rw [hzero] at h2
    exact absurd (Nat.le_trans h1 h2) (by decide)
  have hgeneration : (leaseCommon lease).generation.toNat + 1 < 2 ^ 64 := by
    have := hl.generation
    show lease.generation.toNat + 1 < 2 ^ 64
    omega
  refine TransitionTicket.legal_of_counts hgeneration hl.attempt hattempts ?_ ?_ ?_ ?_
  · intro hclaim
    cases hd <;> cases hclaim
  · cases hd <;> rfl
  · cases hd <;> rfl
  · intro b hb
    cases hd with
    | renew boottime wall =>
      rcases List.mem_pair.mp hb with rfl | rfl
      · exact hl.boot
      · exact hboot
    | acknowledge | retryNow | retryLater | bury =>
      cases List.mem_singleton.mp hb
      exact hl.boot

theorem transitionTicketForLease_starts (hboot : (bootIdBytes h.bootId).isSome) {lease : LeaseInfo}
    (hl : CurrentLease lease) {operation : TransitionOperation} {destination : TicketDestination}
    (hd : LeaseDestination h operation destination) :
    (transitionTicketForLease lease operation destination).start h =
      .ret (.ok (leaseTicket h lease operation destination), h) := by
  have hnew := TransitionTicket.new_eq_ok.mpr
    ⟨TransitionTicket.validate_iff.mpr (leaseTicket_legal hboot hl hd), rfl⟩
  show Prog.ret ((leaseTicket h lease operation destination).new, h) = _
  rw [hnew]

/-- A claim at the last generation is given up before its ticket is made. -/
theorem claim_exhausted {source : CommonFields} (hlast : source.generation.toNat = 2 ^ 64 - 1) :
    nextIdentity .claim source = .error .stateExhausted := by
  have hnot : ¬ source.generation.toNat + 1 < 2 ^ 64 := by omega
  simp only [nextIdentity, nextCommonFields, transition_generation
    (show ¬ Operation.Publishes .claim by decide), GenerationChange.apply, if_neg hnot, bind, Except.bind]

theorem claimTransitionTicket_starts (hboot : (bootIdBytes h.bootId).isSome)
    {source : CommonFields} (hattempt : source.attempt < source.maximumAttempts)
    (hgeneration : source.generation.toNat + 1 < 2 ^ 64) (token : Octets 16)
    (evidence : TicketEvidence) (boottime wall : UInt64) :
    (claimTransitionTicket source token evidence boottime wall).start h =
      .ret (.ok (claimTicket h source token evidence boottime wall), h) := by
  have hlegal : (claimTicket h source token evidence boottime wall).Legal := by
    refine TransitionTicket.legal_of_counts hgeneration (UInt32.le_of_lt hattempt) ?_
      (fun _ => hattempt) rfl rfl fun b hb => ?_
    · intro hzero
      have hlt := UInt32.lt_iff_toNat_lt.mp hattempt
      rw [show source.maximumAttempts = 0 from hzero] at hlt
      exact absurd hlt (Nat.not_lt_zero _)
    · cases List.mem_singleton.mp hb
      exact hboot
  have hnew := TransitionTicket.new_eq_ok.mpr ⟨TransitionTicket.validate_iff.mpr hlegal, rfl⟩
  show Prog.ret ((claimTicket h source token evidence boottime wall).new, h) = _
  rw [hnew]

end Built

/-! ## 4. The wire, both ways -/

section Wire

variable {codec : TicketCodec}

theorem hexField_hexEncode {n : Nat} (b : Octets n) (name : String) :
    TransitionTicket.hexField n (hexEncode b.1) name = .ok b := by
  rw [TransitionTicket.hexField, hexDecodeArray_hexEncode]

theorem fromJson_toJson {t : TransitionTicket} (ht : t.validate = .ok ()) :
    TransitionTicket.fromJson codec (t.toJson codec) = .ok t := by
  unfold TransitionTicket.fromJson TransitionTicket.toJson
  rw [codec.decode_encode]
  simp only [Except.mapError, TransitionTicket.wire, hexField_hexEncode, bind, Except.bind, ne_eq,
    not_true_eq_false, if_false]
  exact TransitionTicket.new_eq_ok.mpr ⟨ht, rfl⟩

/-- Whatever bytes a ticket was read from, it went through `TransitionTicket.new`. -/
theorem fromJson_valid {data : Bytes} {t : TransitionTicket}
    (h : TransitionTicket.fromJson codec data = .ok t) : t.validate = .ok () := by
  unfold TransitionTicket.fromJson at h
  obtain ⟨wire, -, h⟩ := except_bind_eq_ok h
  by_cases hschema : wire.schema ≠ transitionTicketSchema
  · rw [if_pos hschema] at h
    cases h
  by_cases hversion : wire.version ≠ transitionTicketVersion
  · rw [if_neg hschema, if_pos hversion] at h
    cases h
  rw [if_neg hschema, if_neg hversion] at h
  obtain ⟨_, -, h⟩ := except_bind_eq_ok h
  obtain ⟨_, -, h⟩ := except_bind_eq_ok h
  obtain ⟨_, -, h⟩ := except_bind_eq_ok h
  obtain ⟨_, -, h⟩ := except_bind_eq_ok h
  obtain ⟨hvalid, rfl⟩ := TransitionTicket.new_eq_ok.mp h
  exact hvalid

end Wire

/-- Every ticket of a current lease and of a ready entry with attempts left is built; a ready entry
    at the last generation is passed over before. A valid ticket comes back from the wire, and a
    ticket read from the wire is valid, with a next identity. -/
theorem tickets_well_formed (codec : TicketCodec) (h : Handle)
    (hboot : bootIdBytes h.bootId = some h.bootIdBytes) :
    (∀ lease operation destination, CurrentLease lease → LeaseDestination h operation destination →
      (transitionTicketForLease lease operation destination).start h =
        .ret (.ok (leaseTicket h lease operation destination), h)) ∧
    (∀ (source : CommonFields) (token : Octets 16) (evidence : TicketEvidence)
        (boottime wall : UInt64), source.attempt < source.maximumAttempts →
      (source.generation.toNat = 2 ^ 64 - 1 ∧
        nextIdentity .claim source = .error .stateExhausted) ∨
      (claimTransitionTicket source token evidence boottime wall).start h =
        .ret (.ok (claimTicket h source token evidence boottime wall), h)) ∧
    (∀ t : TransitionTicket, t.validate = .ok () →
      TransitionTicket.fromJson codec (t.toJson codec) = .ok t) ∧
    ∀ (data : Bytes) (t : TransitionTicket), TransitionTicket.fromJson codec data = .ok t →
      t.validate = .ok () ∧ ∃ c, t.destinationCommon = .ok c ∧
        c.generation.toNat = t.sourceCommon.generation.toNat + 1 ∧
        c.attempt ≤ t.sourceCommon.maximumAttempts := by
  have hsome : (bootIdBytes h.bootId).isSome := by
    rw [hboot]
    rfl
  refine ⟨fun lease operation destination hl hd => transitionTicketForLease_starts hsome hl hd,
    fun source token evidence boottime wall hattempt => ?_, fun t ht => fromJson_toJson ht,
    fun data t ht => ?_⟩
  · by_cases hlast : source.generation.toNat = 2 ^ 64 - 1
    · exact .inl ⟨hlast, claim_exhausted hlast⟩
    · have hlt := source.generation.toNat_lt
      exact .inr (claimTransitionTicket_starts hsome hattempt (by omega) token evidence boottime
        wall)
  · have hvalid := fromJson_valid ht
    obtain ⟨c, hc, hsucceeds, hle⟩ := (TransitionTicket.validate_iff.mp hvalid).counts
    exact ⟨hvalid, c, hc, hsucceeds.generation, hle⟩

/-! ## 5. A ticket format -/

section Format

open Coder

def operationCoder : Coder TransitionOperation :=
  nat.via TransitionOperation.ctorIdx (fun n => [.claim, .renew, .acknowledge, .retryNow,
    .retryLater].getD n .bury) fun o => by cases o <;> rfl

def ticketPhaseCoder : Coder TransitionPhase :=
  nat.via TransitionPhase.ctorIdx (fun n => [.linearized, .destinationDirectoryDurable].getD n
    .sourceDirectoryDurable) fun p => by cases p <;> rfl

def u64Coder : Coder UInt64 := nat.via UInt64.toNat UInt64.ofNat fun _ => UInt64.ofNat_toNat

def leasedCoder : Coder (Bytes × UInt64 × UInt64) := bytes.pair (u64Coder.pair u64Coder)

def ticketSourceCoder : Coder TicketSource :=
  leasedCoder.option.via
    (fun
      | .ready => none
      | .leased bootId boottime wall => some (bootId, boottime, wall))
    (fun o => o.elim .ready fun x => .leased x.1 x.2.1 x.2.2)
    fun s => by cases s <;> rfl

def ticketDestinationCoder : Coder TicketDestination :=
  (nat.pair leasedCoder).via
    (fun
      | .ready => (0, [], 0, 0)
      | .leased bootId boottime wall => (1, bootId, boottime, wall)
      | .delayed notBefore => (2, [], notBefore, 0)
      | .receipt bucket => (3, [], bucket, 0)
      | .dead bucket reason => (4, [], bucket, reason.toUInt64))
    (fun
      | (0, _, _, _) => .ready
      | (1, bootId, boottime, wall) => .leased bootId boottime wall
      | (2, _, notBefore, _) => .delayed notBefore
      | (3, _, bucket, _) => .receipt bucket
      | (_, _, bucket, reason) => .dead bucket reason.toUInt16)
    fun d => by cases d <;> first | rfl | simp

def ticketIdentityCoder : Coder TicketIdentityWire :=
  (bytes.pair (u64Coder.pair (shardCoder.pair (shardCoder.pair (bytes.pair (bytes.pair
    u64Coder)))))).via
    (fun i => (i.jobId, i.generation, i.attempt, i.maximumAttempts, i.leaseToken,
      i.envelopeDigest, i.payloadLength))
    (fun ⟨a, b, c, d, e, f, g⟩ => ⟨a, b, c, d, e, f, g⟩) fun _ => rfl

def ticketWireCoder : Coder TransitionTicketWire :=
  (bytes.pair (nat.pair (bytes.pair (operationCoder.pair (ticketPhaseCoder.pair
    (ticketIdentityCoder.pair (ticketSourceCoder.pair ticketDestinationCoder))))))).via
    (fun w => (w.schema, w.version.toNat, w.queueId, w.operation, w.phase, w.sourceIdentity,
      w.source, w.destinationDerivation))
    (fun ⟨a, b, c, d, e, f, g, i⟩ => ⟨a, UInt16.ofNat b, c, d, e, f, g, i⟩)
    fun w => by simp only [UInt16.ofNat_toNat]

end Format

/-- A format for tickets. -/
def sampleTicketCodec : TicketCodec where
  encode := fun wire => ticketWireCoder.put wire []
  decode := fun b => match ticketWireCoder.get b with
    | some (wire, _) => .ok wire
    | none => .error "invalid ticket"
  decode_encode := fun wire => by rw [ticketWireCoder.get_put]

/-- The acknowledgement of the sample lease. -/
theorem tickets_well_formed_acknowledge :
    (transitionTicketForLease (sampleLeaseAt []) .acknowledge (.receipt 60)).start sampleHandle =
      .ret (.ok (leaseTicket sampleHandle (sampleLeaseAt []) .acknowledge (.receipt 60)),
        sampleHandle) :=
  (tickets_well_formed sampleTicketCodec sampleHandle (by decide)).1 _ _ _
    ⟨by decide, by decide, by decide, by decide⟩ (.acknowledge 60)

end SteadQ
