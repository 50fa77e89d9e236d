import Vannak.Ipto.Payload

/-!
# The metadata outbox and its delivery

`MetadataOutbox` of `ipto.rs`: the entries by idempotency key, the queue of keys still
to be delivered, and the delivery, draining and retrying of entries. The Ipto client
behind `IptoWriter` is any machine that answers a write and moves to a next state.
-/

namespace Vannak.Ipto

open Foundation Storage

set_option autoImplicit false

inductive OutboxStatus where
  | pending
  | acknowledged
  | failed
deriving DecidableEq, Repr

structure MetadataOutboxEntry where
  payload : IptoWritePayload
  status : OutboxStatus
  recordOffset : Option Nat
  retryCount : UInt32
  lastError : Option String
  retryable : Bool
deriving DecidableEq

structure MetadataOutbox where
  entries : BTreeMap IdempotencyKey MetadataOutboxEntry
  pending : List IdempotencyKey
deriving DecidableEq

inductive OutboxEnqueueResult where
  | enqueued
  | duplicate
deriving DecidableEq, Repr

namespace MetadataOutbox

def new : MetadataOutbox := ⟨∅, []⟩

def enqueueWithOffset (outbox : MetadataOutbox) (payload : IptoWritePayload) (recordOffset : Option Nat) :
    OutboxEnqueueResult × MetadataOutbox :=
  let key := payload.idempotencyKey
  if outbox.entries.contains key then (.duplicate, outbox)
  else (.enqueued, {
    entries := outbox.entries.insert key {
      payload, recordOffset
      status := .pending
      retryCount := 0
      lastError := none
      retryable := false }
    pending := outbox.pending ++ [key] })

def nextPending (outbox : MetadataOutbox) : Option MetadataOutboxEntry :=
  (outbox.pending.filterMap fun key => outbox.entries[key]?).find? fun entry =>
    entry.status = .pending

def nextPendingForTarget (outbox : MetadataOutbox) (target : IptoInstanceId) :
    Option MetadataOutboxEntry :=
  (outbox.pending.filterMap fun key => outbox.entries[key]?).find? fun entry =>
    entry.status = .pending ∧ entry.payload.target = target

def acknowledge (outbox : MetadataOutbox) (key : IdempotencyKey) : Bool × MetadataOutbox :=
  match outbox.entries[key]? with
  | none => (false, outbox)
  | some entry => (true, {
      entries := outbox.entries.insert key { entry with status := .acknowledged }
      pending := outbox.pending.filter (· ≠ key) })

def failWithRetryability (outbox : MetadataOutbox) (key : IdempotencyKey) (error : String)
    (retryable : Bool) : Bool × MetadataOutbox :=
  match outbox.entries[key]? with
  | none => (false, outbox)
  | some entry => (true, {
      entries := outbox.entries.insert key { entry with
        status := .failed
        retryCount := entry.retryCount + 1
        lastError := some error
        retryable }
      pending := outbox.pending.filter (· ≠ key) })

def fail (outbox : MetadataOutbox) (key : IdempotencyKey) (error : String) : Bool × MetadataOutbox :=
  outbox.failWithRetryability key error false

def retryFailed (outbox : MetadataOutbox) (key : IdempotencyKey) : Bool × MetadataOutbox :=
  match outbox.entries[key]? with
  | none => (false, outbox)
  | some entry =>
    if entry.status ≠ .failed then (false, outbox)
    else (true, {
      entries := outbox.entries.insert key { entry with status := .pending }
      pending := if outbox.pending.any (· = key) then outbox.pending else outbox.pending ++ [key] })

/-- Requeues transient failures; permanent ones stay parked. -/
def retryFailedForTarget (outbox : MetadataOutbox) (target : IptoInstanceId) : Nat × MetadataOutbox :=
  let keys := (outbox.entries.toList.filter fun (_, entry) =>
    entry.status = .failed ∧ entry.retryable ∧ entry.payload.target = target).map Prod.fst
  (keys.length, keys.foldl (fun outbox key => (outbox.retryFailed key).2) outbox)

end MetadataOutbox

/-! ## Delivery -/

structure IptoWriteError where
  message : String
  retryable : Bool
deriving DecidableEq, Repr

/-- An implementation of the `IptoWriter` trait with its own state. -/
structure IptoWriter (ω : Type) where
  write : ω → IptoWritePayload → Except IptoWriteError Unit × ω

inductive MetadataOutboxDeliveryResult where
  | noPending
  | acknowledged (idempotencyKey : IdempotencyKey)
  | failed (idempotencyKey : IdempotencyKey) (retryable : Bool) (message : String)
deriving DecidableEq, Repr

section Delivery

variable {ω : Type} (writer : IptoWriter ω)

/-- What both delivery functions do with the entry they found. -/
def deliver (next : Option MetadataOutboxEntry) (outbox : MetadataOutbox) (remote : ω) :
    MetadataOutboxDeliveryResult × MetadataOutbox × ω :=
  match next with
  | none => (.noPending, outbox, remote)
  | some entry =>
    let payload := entry.payload
    let key := payload.idempotencyKey
    match writer.write remote payload with
    | (.ok (), remote) => (.acknowledged key, (outbox.acknowledge key).2, remote)
    | (.error error, remote) =>
      (.failed key error.retryable error.message,
        (outbox.failWithRetryability key error.message error.retryable).2, remote)

def deliverNextPending (outbox : MetadataOutbox) (remote : ω) :
    MetadataOutboxDeliveryResult × MetadataOutbox × ω :=
  deliver writer outbox.nextPending outbox remote

def deliverNextPendingForTarget (target : IptoInstanceId) (outbox : MetadataOutbox) (remote : ω) :
    MetadataOutboxDeliveryResult × MetadataOutbox × ω :=
  deliver writer (outbox.nextPendingForTarget target) outbox remote

structure MetadataOutboxDrainSummary where
  attempted : Nat
  acknowledged : Nat
  failed : Nat
  stoppedAfterFailure : Bool
deriving DecidableEq, Repr

/-- The loop of both drain functions. A retryable failure stops it, a permanent one
does not. -/
def drain (deliver : MetadataOutbox → ω → MetadataOutboxDeliveryResult × MetadataOutbox × ω) :
    Nat → MetadataOutboxDrainSummary → MetadataOutbox → ω → MetadataOutboxDrainSummary × MetadataOutbox × ω
  | 0, summary, outbox, remote => (summary, outbox, remote)
  | attempts + 1, summary, outbox, remote =>
    match deliver outbox remote with
    | (.noPending, outbox, remote) => (summary, outbox, remote)
    | (.acknowledged _, outbox, remote) =>
      drain deliver attempts { summary with
        attempted := summary.attempted + 1
        acknowledged := summary.acknowledged + 1 } outbox remote
    | (.failed _ retryable _, outbox, remote) =>
      let summary := { summary with
        attempted := summary.attempted + 1
        failed := summary.failed + 1
        stoppedAfterFailure := retryable }
      if retryable then (summary, outbox, remote) else drain deliver attempts summary outbox remote

/-- The loop keeps what each of its deliveries keeps. -/
theorem drain_invariant {deliver : MetadataOutbox → ω → MetadataOutboxDeliveryResult × MetadataOutbox × ω}
    {invariant : MetadataOutbox → ω → Prop}
    (hDeliver : ∀ outbox remote, invariant outbox remote →
      invariant (deliver outbox remote).2.1 (deliver outbox remote).2.2)
    (attempts : Nat) (summary : MetadataOutboxDrainSummary) {outbox : MetadataOutbox} {remote : ω}
    (h : invariant outbox remote) :
    invariant (drain deliver attempts summary outbox remote).2.1
      (drain deliver attempts summary outbox remote).2.2 := by
  induction attempts generalizing summary outbox remote with
  | zero => exact h
  | succ attempts ih =>
    have hNext := hDeliver outbox remote h
    rw [drain]
    split
    · rename_i hResult
      rwa [hResult] at hNext
    · rename_i hResult
      rw [hResult] at hNext
      exact ih _ hNext
    · rename_i hResult
      rw [hResult] at hNext
      dsimp only
      split
      · exact hNext
      · exact ih _ hNext

def drainPendingOutbox (outbox : MetadataOutbox) (remote : ω) (maxAttempts : Nat) :
    MetadataOutboxDrainSummary × MetadataOutbox × ω :=
  drain (deliverNextPending writer) maxAttempts ⟨0, 0, 0, false⟩ outbox remote

def drainPendingOutboxForTarget (target : IptoInstanceId) (outbox : MetadataOutbox) (remote : ω)
    (maxAttempts : Nat) : MetadataOutboxDrainSummary × MetadataOutbox × ω :=
  drain (deliverNextPendingForTarget writer target) maxAttempts ⟨0, 0, 0, false⟩ outbox remote

end Delivery

end Vannak.Ipto
