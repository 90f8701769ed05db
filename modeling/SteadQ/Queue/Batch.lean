/-
  File:      SteadQ/Queue/Batch.lean
  Subject:   GROUP COMMIT (`queue/batch.rs`, `DirtySet::sync_all`, `sync_dirty`).

  The operations of a batch are those of a handle with their barriers left out; what is to be
  synced lies in a dirty set. `Batch.commit` syncs it once.
-/
import SteadQ.Queue.Consumer

namespace SteadQ

open Octet Interact

/-! ## 1. Batches -/

structure Batch where
  dirty : DirtySet
  pendingEnqueues : List EnqueueTicket
  pendingLeases : Nat
  pendingAcks : Nat

def Batch.new : Batch := ⟨.empty, [], 0, 0⟩

inductive BatchEnqueueOutcome where
  | pending (ticket : EnqueueTicket)
  | notCommitted (ticket : EnqueueTicket) (error : Error)
  | outcomeUnknown (ticket : EnqueueTicket) (error : Error)

inductive BatchLeaseOutcome where
  | pending (info : LeaseInfo)
  | empty
  | notCommitted (error : Error)
  | outcomeUnknown (ticket : TransitionTicket)

inductive BatchAckOutcome where
  | pending
  | notCommitted (error : Error)
  | outcomeUnknown (ticket : TransitionTicket)

structure BatchCommitOutcome where
  committedEnqueues : List EnqueueTicket
  outcomeUnknownEnqueues : List (EnqueueTicket × Error)
  committedLeases : Nat
  outcomeUnknownLeases : List Error
  committedAcks : Nat
  outcomeUnknownAcks : List Error

/-! ## 2. Operations -/

/-- Run an operation on the dirty set of a batch; the handle's own is not touched. -/
def Batch.borrow {α : Type} (b : Batch) (m : QueueM Empty α) : QueueM Empty (Batch × α) := do
  let own := (← Task.memory).dirty
  Task.remember fun h => { h with dirty := b.dirty }
  let a ← m
  let dirty := (← Task.memory).dirty
  Task.remember fun h => { h with dirty := own }
  return ({ b with dirty := dirty }, a)

def Batch.enqueue (b : Batch) (job : EnqueueInput) :
    QueueM Empty (Batch × BatchEnqueueOutcome) := do
  let (b, outcome) ← b.borrow (enqueueWithDirty true job)
  match outcome with
  | .committed ticket =>
    return ({ b with pendingEnqueues := b.pendingEnqueues ++ [ticket] }, .pending ticket)
  | .deferred ticket =>
    return ({ b with pendingEnqueues := b.pendingEnqueues ++ [ticket] }, .pending ticket)
  | .notCommitted ticket e => return (b, .notCommitted ticket e)
  | .outcomeUnknown ticket e => return (b, .outcomeUnknown ticket e)

def Batch.lease (b : Batch) (durationNs : UInt64) (entries rounds : Nat) :
    QueueM Empty (Batch × BatchLeaseOutcome) := do
  let (b, outcome) ← b.borrow (SteadQ.lease true durationNs entries rounds)
  match outcome with
  | .leased info => return ({ b with pendingLeases := b.pendingLeases + 1 }, .pending info)
  | .empty => return (b, .empty)
  | .notCommitted e => return (b, .notCommitted e)
  | .outcomeUnknown ticket => return (b, .outcomeUnknown ticket)

def Batch.ack (b : Batch) (lease : LeaseInfo) : QueueM Empty (Batch × BatchAckOutcome) := do
  let (b, outcome) ← b.borrow (SteadQ.ack true lease)
  match outcome with
  | .acked => return ({ b with pendingAcks := b.pendingAcks + 1 }, .pending)
  | .alreadyAcked => return (b, .pending)
  | .leaseLost => return (b, .notCommitted (.invalidInput "lease lost"))
  | .notCommitted e => return (b, .notCommitted e)
  | .outcomeUnknown ticket => return (b, .outcomeUnknown ticket)

/-! ## 3. Barriers -/

/-- Fsync every directory; the first error counts, after all were tried. -/
def syncAll : List Dir → Option IoError → QueueM IoError Unit
  | [], none => return ()
  | [], some e => throw e
  | dir :: rest, first => do
    match ← Task.attempt (fsyncDirFd dir) with
    | .ok () => syncAll rest first
    | .error e => syncAll rest (first.or (some e))

/-- The barrier of a dirty set; directories pending on it become known. -/
def syncDirty (dirty : DirtySet) : QueueM IoError Unit := do
  syncAll dirty.dirs none
  Task.remember fun h => { h with knownDirs := h.knownDirs ++ dirty.pendingDirs }

def Batch.commit (b : Batch) : QueueM Empty (Except BatchCommitOutcome BatchCommitOutcome) := do
  match ← Task.attempt (syncDirty b.dirty) with
  | .error e => do
    poison .postLinearizationStateUnknown
    let e := Error.from e
    return .error {
      committedEnqueues := []
      outcomeUnknownEnqueues := b.pendingEnqueues.map (·, e)
      committedLeases := 0
      outcomeUnknownLeases := List.replicate b.pendingLeases e
      committedAcks := 0
      outcomeUnknownAcks := List.replicate b.pendingAcks e }
  | .ok () =>
    return .ok {
      committedEnqueues := b.pendingEnqueues
      outcomeUnknownEnqueues := []
      committedLeases := b.pendingLeases
      outcomeUnknownLeases := []
      committedAcks := b.pendingAcks
      outcomeUnknownAcks := [] }

end SteadQ
