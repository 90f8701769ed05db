/-
  File:      SteadQ/Ops.lean
  Subject:   THE CALLS OF A HANDLE AND THE POOL OF HANDLES.
-/
import SteadQ.Lib.Pool
import SteadQ.Recovery.Pass

namespace SteadQ

open Octet Interact

/-! ## 1. Operations -/

inductive Op where
  | enqueue (job : EnqueueInput)
  | enqueueStreaming (job : EnqueueInput) (reader : PayloadReader)
  | lease (deferred : Bool) (durationNs : UInt64) (entries rounds : Nat)
  | ack (deferred : Bool) (lease : LeaseInfo)
  | renew (lease : LeaseInfo) (durationNs : UInt64)
  | retryNow (lease : LeaseInfo)
  | retryAt (lease : LeaseInfo) (notBeforeNs : UInt64)
  | retryAfter (lease : LeaseInfo) (durationNs : UInt64)
  | retryWithPolicy (lease : LeaseInfo) (policy : RetryPolicy)
  | bury (lease : LeaseInfo) (reason : DeadReason)
  | recover (budget : WorkBudget) (scanBudget : RecoveryScanBudget)

inductive OpResult where
  | enqueue (outcome : EnqueueOutcome)
  | lease (outcome : LeaseOutcome)
  | ack (outcome : AckOutcome)
  | renew (outcome : RenewOutcome)
  | transition (outcome : TransitionOutcome)
  | recover (report : RecoveryReport)

namespace Op

variable (codec : CursorCodec)

def task : Op → QueueM Empty OpResult
  | .enqueue job => .enqueue <$> SteadQ.enqueue job
  | .enqueueStreaming job reader => .enqueue <$> SteadQ.enqueueStreaming job reader
  | .lease deferred durationNs entries rounds =>
    .lease <$> SteadQ.lease deferred durationNs entries rounds
  | .ack deferred l => .ack <$> SteadQ.ack deferred l
  | .renew l durationNs => .renew <$> SteadQ.renew l durationNs
  | .retryNow l => .transition <$> SteadQ.retryNow l
  | .retryAt l notBeforeNs => .transition <$> SteadQ.retryAt l notBeforeNs
  | .retryAfter l durationNs => .transition <$> SteadQ.retryAfter l durationNs
  | .retryWithPolicy l policy => .transition <$> SteadQ.retryWithPolicy l policy
  | .bury l reason => .transition <$> SteadQ.bury l reason
  | .recover budget scanBudget => .recover <$> recoverWithScanBudget codec budget scanBudget

/-- The lease an operation works on. -/
def leaseInfo : Op → Option LeaseInfo
  | .ack _ l => some l
  | .renew l _ => some l
  | .retryNow l => some l
  | .retryAt l _ => some l
  | .retryAfter l _ => some l
  | .retryWithPolicy l _ => some l
  | .bury l _ => some l
  | _ => none

/-- A call never fails as such; failures are outcomes. -/
def program (op : Op) (h : Handle) : Prog Act.Resp (OpResult × Handle) :=
  (op.task codec).start h >>= fun x =>
    match x.1 with
    | .ok r => .ret (r, x.2)
    | .error e => nomatch e

theorem meets_program {codec : CursorCodec} {op : Op} {h : Handle} {τ : Type}
    {D : Discipline Act.Resp τ} {t : τ} {Q : OpResult × Handle → τ → Prop}
    (hm : (op.task codec).Meets D h t fun r s t => ∀ x, r = .ok x → Q (x, s) t) :
    (op.program codec h).Follows D Q t := by
  refine Prog.follows_bind.mpr (Prog.Follows.mono hm fun x t hx => ?_)
  obtain ⟨r, s⟩ := x
  cases r with
  | error e => exact nomatch e
  | ok r => exact hx r rfl

end Op

/-! ## 2. The pool -/

/-- Handles over one file system; thread `t` is handle `t`. -/
def queueSystem (codec : CursorCodec) : System Act.Resp World Choice Op OpResult Handle where
  effect := fun t w a ch => w.step t a ch
  release := fun t w => w.release t
  program := Op.program codec

abbrev QueueConfig := Config Act.Resp World Op OpResult Handle
abbrev QueueEvent := Event Act.Resp Op OpResult Handle
abbrev QueueMoment := Moment Act.Resp World Op OpResult Handle

end SteadQ
