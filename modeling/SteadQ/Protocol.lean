/-
  File:      SteadQ/Protocol.lean
  Subject:   THE PROTOCOL TABLE, ERRORS, OUTCOMES AND TICKETS
             (`state_machine.rs`, `errors.rs` of the core crate).
-/
import SteadQ.Names

namespace SteadQ

open Octet

/-! ## 1. The table -/

inductive Operation where
  | enqueueImmediate
  | enqueueDelayed
  | promote
  | claim
  | exhaustedReadyCleanup
  | renew
  | acknowledge
  | retryNow
  | retryLater
  | bury
  | reapExpiredToReady
  | reapExpiredToDead
  | quarantine
  deriving DecidableEq, Repr

inductive ProtocolState where
  | hidden
  | ready
  | leased
  | delayed
  | dead
  | receipt
  | quarantine
  | active
  deriving DecidableEq, Repr

inductive ObjectKind where
  | fullJob
  | fullReceipt
  | compactReceipt
  | rawObject
  | watermarkRecord
  deriving DecidableEq, Repr

inductive GenerationChange where
  | zero
  | increment
  | incrementOrSame
  deriving DecidableEq, Repr

inductive AttemptChange where
  | zero
  | increment
  | unchanged
  deriving DecidableEq, Repr

structure TransitionDef where
  source : ProtocolState
  sourceObjectKind : ObjectKind
  destination : ProtocolState
  destinationObjectKind : ObjectKind
  generationChange : GenerationChange
  attemptChange : AttemptChange
  deriving DecidableEq, Repr

def transition : Operation → TransitionDef
  | .enqueueImmediate => ⟨.hidden, .fullJob, .ready, .fullJob, .zero, .zero⟩
  | .enqueueDelayed => ⟨.hidden, .fullJob, .delayed, .fullJob, .zero, .zero⟩
  | .promote => ⟨.delayed, .fullJob, .ready, .fullJob, .increment, .unchanged⟩
  | .claim => ⟨.ready, .fullJob, .leased, .fullJob, .increment, .increment⟩
  | .exhaustedReadyCleanup => ⟨.ready, .fullJob, .dead, .fullJob, .increment, .unchanged⟩
  | .renew => ⟨.leased, .fullJob, .leased, .fullJob, .increment, .unchanged⟩
  | .acknowledge => ⟨.leased, .fullJob, .receipt, .fullReceipt, .increment, .unchanged⟩
  | .retryNow => ⟨.leased, .fullJob, .ready, .fullJob, .increment, .unchanged⟩
  | .retryLater => ⟨.leased, .fullJob, .delayed, .fullJob, .increment, .unchanged⟩
  | .bury => ⟨.leased, .fullJob, .dead, .fullJob, .increment, .unchanged⟩
  | .reapExpiredToReady => ⟨.leased, .fullJob, .ready, .fullJob, .increment, .unchanged⟩
  | .reapExpiredToDead => ⟨.leased, .fullJob, .dead, .fullJob, .increment, .unchanged⟩
  | .quarantine => ⟨.active, .rawObject, .quarantine, .rawObject, .increment, .unchanged⟩

/-! ## 2. Identity changes -/

inductive IdentityChangeError where
  | overflow
  | indeterminate
  deriving DecidableEq, Repr

def GenerationChange.apply : GenerationChange → UInt64 → Except IdentityChangeError UInt64
  | .zero, _ => .ok 0
  | .increment, g => if g.toNat + 1 < 2 ^ 64 then .ok (g + 1) else .error .overflow
  | .incrementOrSame, _ => .error .indeterminate

def AttemptChange.apply : AttemptChange → UInt32 → Except IdentityChangeError UInt32
  | .zero, _ => .ok 0
  | .increment, a => if a.toNat + 1 < 2 ^ 32 then .ok (a + 1) else .error .overflow
  | .unchanged, a => .ok a

/-- Apply the generation and attempt rules of the table. -/
def nextCommonFields (operation : Operation) (source : CommonFields) :
    Except IdentityChangeError CommonFields := do
  let definition := transition operation
  let generation ← definition.generationChange.apply source.generation
  let attempt ← definition.attemptChange.apply source.attempt
  return ⟨source.jobId, generation, attempt, source.maximumAttempts⟩

/-- How an operation moves a job that already has a name: its id and maximum stay, its
    generation grows by one, and its attempt grows by one exactly on a claim. -/
structure Succeeds (operation : Operation) (source next : CommonFields) : Prop where
  jobId : next.jobId = source.jobId
  maximumAttempts : next.maximumAttempts = source.maximumAttempts
  generation : next.generation.toNat = source.generation.toNat + 1
  attempt : next.attempt.toNat = source.attempt.toNat + (if operation = .claim then 1 else 0)

/-- An enqueue is the one operation that does not start from a named job. -/
def Operation.Publishes (op : Operation) : Prop := op = .enqueueImmediate ∨ op = .enqueueDelayed

instance (op : Operation) : Decidable op.Publishes :=
  inferInstanceAs (Decidable (_ ∨ _))

theorem increment_ok {g g' : UInt64} (h : GenerationChange.apply .increment g = .ok g') :
    g'.toNat = g.toNat + 1 := by
  simp only [GenerationChange.apply] at h
  split at h
  · rename_i hlt
    cases h
    rw [UInt64.toNat_add]
    exact Nat.mod_eq_of_lt hlt
  · cases h

theorem attemptIncrement_ok {a a' : UInt32} (h : AttemptChange.apply .increment a = .ok a') :
    a'.toNat = a.toNat + 1 := by
  simp only [AttemptChange.apply] at h
  split at h
  · rename_i hlt
    cases h
    rw [UInt32.toNat_add]
    exact Nat.mod_eq_of_lt hlt
  · cases h

theorem transition_generation {op : Operation} (hop : ¬ op.Publishes) :
    (transition op).generationChange = .increment := by
  cases op <;> first | rfl | exact absurd (by decide) hop

theorem transition_attempt {op : Operation} (hop : ¬ op.Publishes) :
    (transition op).attemptChange = if op = .claim then .increment else .unchanged := by
  cases op <;> first | rfl | exact absurd (by decide) hop

theorem nextCommonFields_ok {op : Operation} {c c' : CommonFields}
    (h : nextCommonFields op c = .ok c') (hop : ¬ op.Publishes) : Succeeds op c c' := by
  simp only [nextCommonFields, transition_generation hop, transition_attempt hop, bind,
    Except.bind] at h
  split at h
  · cases h
  · rename_i g hg
    split at h
    · cases h
    · rename_i a ha
      cases h
      refine ⟨rfl, rfl, increment_ok hg, ?_⟩
      by_cases hclaim : op = .claim
      · rw [if_pos hclaim] at ha ⊢
        exact attemptIncrement_ok ha
      · rw [if_neg hclaim] at ha ⊢
        cases ha
        rfl

/-- An enqueue starts the job at generation zero and attempt zero. -/
theorem nextCommonFields_publishes {op : Operation} {c c' : CommonFields}
    (h : nextCommonFields op c = .ok c') (hop : op.Publishes) :
    c' = ⟨c.jobId, 0, 0, c.maximumAttempts⟩ := by
  rcases hop with rfl | rfl
  · cases h
    rfl
  · cases h
    rfl

/-! ## 3. Errors -/

/-- An `io::Error`: an errno, or an error made by the library itself. -/
inductive IoError where
  | enoent
  | eexist
  | enotdir
  | eisdir
  | enotempty
  | einval
  | enosys
  | eopnotsupp
  | enospc
  | edquot
  | eio
  | errno (code : Nat)
  | eloop
  | unexpectedEof
  | invalidData (message : String)
  | custom (message : String)
  deriving DecidableEq, Repr

def IoError.text : IoError → String
  | .enoent => "No such file or directory (os error 2)"
  | .eexist => "File exists (os error 17)"
  | .enotdir => "Not a directory (os error 20)"
  | .eisdir => "Is a directory (os error 21)"
  | .enotempty => "Directory not empty (os error 39)"
  | .einval => "Invalid argument (os error 22)"
  | .enosys => "Function not implemented (os error 38)"
  | .eopnotsupp => "Operation not supported (os error 95)"
  | .enospc => "No space left on device (os error 28)"
  | .edquot => "Disk quota exceeded (os error 122)"
  | .eio => "Input/output error (os error 5)"
  | .errno code => "os error " ++ toString code
  | .eloop => "Too many levels of symbolic links (os error 40)"
  | .unexpectedEof => "failed to fill whole buffer"
  | .invalidData message => message
  | .custom message => message

inductive Error where
  | resourceExhausted
  | stateExhausted
  | identityCollision
  | invalidInput (why : String)
  | invalidTicket (why : String)
  | unsupportedFilesystem
  | unsupportedFormat
  | invalidClock
  | maintenanceBusy
  | queueCorrupt (why : String)
  | payloadCorrupt
  | queuePoisoned (why : String)
  | permissionDenied
  | ioFailure (why : String)
  deriving DecidableEq, Repr

/-- `ErrorKind::Interrupted`: `EINTR`. -/
def IoError.isInterrupted (e : IoError) : Bool := e = .errno 4

/-- `ENOSPC` and `EDQUOT` are resource exhaustion; every other error is an io failure. -/
def Error.from : IoError → Error
  | .enospc => .resourceExhausted
  | .edquot => .resourceExhausted
  | e => .ioFailure e.text

def Error.text : Error → String
  | .resourceExhausted => "resource exhausted"
  | .stateExhausted => "state exhausted"
  | .identityCollision => "identity collision"
  | .invalidInput why => "invalid input: " ++ why
  | .invalidTicket why => "invalid transition ticket: " ++ why
  | .unsupportedFilesystem => "unsupported filesystem"
  | .unsupportedFormat => "unsupported format"
  | .invalidClock => "invalid clock"
  | .maintenanceBusy => "maintenance busy"
  | .queueCorrupt why => "queue corrupt: " ++ why
  | .payloadCorrupt => "payload corrupt"
  | .queuePoisoned why => "queue poisoned: " ++ why
  | .permissionDenied => "permission denied"
  | .ioFailure why => "io failure: " ++ why

inductive PoisonReason where
  | postLinearizationStateUnknown
  | watermarkAuthorityLost
  | internalInvariantViolation
  deriving DecidableEq, Repr

def PoisonReason.text : PoisonReason → String
  | .postLinearizationStateUnknown => "post-linearization state unknown"
  | .watermarkAuthorityLost => "wall watermark authority lost"
  | .internalInvariantViolation => "internal invariant violation"

def nextIdentity (operation : Operation) (source : CommonFields) : Except Error CommonFields :=
  match nextCommonFields operation source with
  | .ok c => .ok c
  | .error .overflow => .error .stateExhausted
  | .error .indeterminate =>
    .error (.invalidInput "operation has an indeterminate generation change")

theorem nextIdentity_ok {op : Operation} {c c' : CommonFields} (h : nextIdentity op c = .ok c') :
    nextCommonFields op c = .ok c' := by
  unfold nextIdentity at h
  split at h <;> cases h
  assumption

inductive DeadReason where
  | unspecified
  | consumerRejected
  | unsupportedContentType
  | administrativeBury
  | attemptsExhausted
  deriving DecidableEq, Repr

def DeadReason.code : DeadReason → UInt16
  | .unspecified => 0
  | .consumerRejected => 1
  | .unsupportedContentType => 2
  | .administrativeBury => 3
  | .attemptsExhausted => 4

inductive QuarantineReason where
  | envelopeCorrupt
  | payloadCorrupt
  | filenameParseFailed
  | filenameTagFailed
  | filenameHeaderMismatch
  | unsupportedRequiredFeature
  | duplicateStateConflict
  | nonRegularFile
  | unexpectedHardLink
  | crossDeviceObject
  | impossibleStateTransition
  deriving DecidableEq, Repr

def QuarantineReason.code : QuarantineReason → UInt16
  | .envelopeCorrupt => 1
  | .payloadCorrupt => 2
  | .filenameParseFailed => 3
  | .filenameTagFailed => 4
  | .filenameHeaderMismatch => 5
  | .unsupportedRequiredFeature => 6
  | .duplicateStateConflict => 7
  | .nonRegularFile => 8
  | .unexpectedHardLink => 9
  | .crossDeviceObject => 10
  | .impossibleStateTransition => 11

/-! ## 4. Tickets and lease handles -/

/-- A relative path below the queue root, component by component. -/
abbrev Path := List Name

inductive TransitionOperation where
  | claim
  | renew
  | acknowledge
  | retryNow
  | retryLater
  | bury
  deriving DecidableEq, Repr

def TransitionOperation.protocolOperation : TransitionOperation → Operation
  | .claim => .claim
  | .renew => .renew
  | .acknowledge => .acknowledge
  | .retryNow => .retryNow
  | .retryLater => .retryLater
  | .bury => .bury

inductive TransitionPhase where
  | linearized
  | destinationDirectoryDurable
  | sourceDirectoryDurable
  deriving DecidableEq, Repr

inductive TicketSource where
  | ready
  | leased (bootId : Bytes) (boottimeDeadlineNs wallDeadlineNs : UInt64)
  deriving DecidableEq

def TicketSource.protocolState : TicketSource → ProtocolState
  | .ready => .ready
  | .leased .. => .leased

def TicketSource.bootId : TicketSource → Option Bytes
  | .ready => none
  | .leased b _ _ => some b

inductive TicketDestination where
  | ready
  | leased (bootId : Bytes) (boottimeDeadlineNs wallDeadlineNs : UInt64)
  | delayed (notBeforeNs : UInt64)
  | receipt (terminalBucket : UInt64)
  | dead (terminalBucket : UInt64) (reason : UInt16)
  deriving DecidableEq

def TicketDestination.protocolState : TicketDestination → ProtocolState
  | .ready => .ready
  | .leased .. => .leased
  | .delayed _ => .delayed
  | .receipt _ => .receipt
  | .dead .. => .dead

def TicketDestination.bootId : TicketDestination → Option Bytes
  | .leased b _ _ => some b
  | _ => none

structure TransitionTicket where
  queueId : Octets 16
  operation : TransitionOperation
  phase : TransitionPhase
  sourceCommon : CommonFields
  leaseToken : Octets 16
  envelopeDigest : Octets 32
  payloadLength : UInt64
  source : TicketSource
  destination : TicketDestination
  deriving DecidableEq

namespace TransitionTicket

def destinationCommon (t : TransitionTicket) : Except Error CommonFields :=
  match nextCommonFields t.operation.protocolOperation t.sourceCommon with
  | .ok c => .ok c
  | .error .overflow =>
    .error (.invalidTicket "source generation or attempt cannot increment")
  | .error .indeterminate =>
    .error (.invalidTicket "ticket operation has an indeterminate generation change")

def validate (t : TransitionTicket) : Except Error Unit := do
  if t.sourceCommon.maximumAttempts = 0 then
    throw (.invalidTicket "ticket maximum_attempts must be nonzero")
  if t.sourceCommon.attempt > t.sourceCommon.maximumAttempts then
    throw (.invalidTicket "ticket attempt exceeds maximum_attempts")
  let destinationCommon ← t.destinationCommon
  let definition := transition t.operation.protocolOperation
  if ¬ (t.source.protocolState = definition.source ∧
      t.destination.protocolState = definition.destination ∧
      destinationCommon.attempt ≤ t.sourceCommon.maximumAttempts) then
    throw (.invalidTicket "operation does not permit the ticket source and destination")
  if (t.source.bootId.toList ++ t.destination.bootId.toList).any
      (fun b => (bootIdBytes b).isNone) then
    throw (.invalidTicket "ticket boot_id is not canonical")

/-- A ticket is only built valid. -/
def new (t : TransitionTicket) : Except Error TransitionTicket := do
  t.validate
  return t

def withPhase (t : TransitionTicket) (phase : TransitionPhase) : TransitionTicket :=
  { t with phase }

end TransitionTicket

inductive InitialState where
  | ready
  | delayed
  deriving DecidableEq, Repr

structure EnqueueTicket where
  jobId : Octets 16
  envelopeDigest : Octets 32
  expectedInitialState : InitialState
  expectedRelativePath : Path
  deriving DecidableEq

def zeros (n : Nat) : Octets n := ⟨List.replicate n 0, List.length_replicate⟩

def EnqueueTicket.uncommitted (jobId : Octets 16) : EnqueueTicket :=
  ⟨jobId, zeros 32, .ready, []⟩

/-- What a consumer holds: the identity of the leased object and its exact name. -/
structure LeaseInfo where
  jobId : Octets 16
  envelopeDigest : Octets 32
  generation : UInt64
  attempt : UInt32
  maximumAttempts : UInt32
  token : Octets 16
  bootId : Bytes
  expiresBoottimeNs : UInt64
  expiresWallNs : UInt64
  contentType : Bytes
  payloadLength : UInt64
  payloadDigest : Octets 32
  expectedDev : Nat
  expectedInode : Nat
  exactSourcePath : Path
  deriving DecidableEq

def leaseCommon (lease : LeaseInfo) : CommonFields :=
  ⟨lease.jobId, lease.generation, lease.attempt, lease.maximumAttempts⟩

/-! ## 5. Outcomes -/

inductive EnqueueOutcome where
  | committed (ticket : EnqueueTicket)
  | deferred (ticket : EnqueueTicket)
  | notCommitted (ticket : EnqueueTicket) (error : Error)
  | outcomeUnknown (ticket : EnqueueTicket) (error : Error)
  deriving DecidableEq

inductive LeaseOutcome where
  | leased (lease : LeaseInfo)
  | empty
  | notCommitted (error : Error)
  | outcomeUnknown (ticket : TransitionTicket)
  deriving DecidableEq

inductive RenewOutcome where
  | renewed (lease : LeaseInfo)
  | deferred (lease : LeaseInfo)
  | leaseLost
  | notCommitted (error : Error)
  | outcomeUnknown (ticket : TransitionTicket)
  deriving DecidableEq

inductive AckOutcome where
  | acked
  | alreadyAcked
  | leaseLost
  | notCommitted (error : Error)
  | outcomeUnknown (ticket : TransitionTicket)
  deriving DecidableEq

inductive TransitionOutcome where
  | committed
  | leaseLost
  | notCommitted (error : Error)
  | outcomeUnknown (ticket : TransitionTicket)
  deriving DecidableEq

end SteadQ
