import Vannak.Ipto.Queue

/-!
# What an outbox keeps

The abstract content of an outbox is a ledger: the payloads in the order in which they
were recorded, with the offsets of their records. Delivery, draining and retrying move
entries between statuses but leave the ledger alone, keep the queue equal to the set of
pending entries, and only acknowledge what the writer accepted.
-/

namespace Vannak.Ipto

open Foundation Storage

set_option autoImplicit false

abbrev Ledger := List (IptoWritePayload × Nat)

def Ledger.lookup (ledger : Ledger) (key : IdempotencyKey) : Option (IptoWritePayload × Option Nat) :=
  (ledger.find? fun row => row.1.idempotencyKey = key).map fun row => (row.1, some row.2)

def Ledger.keys (ledger : Ledger) : List IdempotencyKey := ledger.map fun row => row.1.idempotencyKey

/-- A call of `write` with its answer. -/
abbrev WriterCall := IptoWritePayload × Except IptoWriteError Unit

/-- The same writer, remembering its calls. -/
def IptoWriter.recording {ω : Type} (writer : IptoWriter ω) : IptoWriter (ω × List WriterCall) where
  write remote payload :=
    let (answer, next) := writer.write remote.1 payload
    (answer, next, remote.2 ++ [(payload, answer)])

namespace MetadataOutbox

/-- The part of an entry that never changes. -/
def recorded (outbox : MetadataOutbox) (key : IdempotencyKey) : Option (IptoWritePayload × Option Nat) :=
  (outbox.entries[key]?).map fun entry => (entry.payload, entry.recordOffset)

theorem recorded_insert {outbox : MetadataOutbox} {key : IdempotencyKey} {entry next : MetadataOutboxEntry}
    (hEntry : outbox.entries[key]? = some entry) (hPayload : next.payload = entry.payload)
    (hOffset : next.recordOffset = entry.recordOffset) (pending : List IdempotencyKey) :
    (MetadataOutbox.mk (outbox.entries.insert key next) pending).recorded = outbox.recorded := by
  funext other
  rw [recorded, recorded, getElem?_insert_ite]
  split
  · rename_i hKey
    subst hKey
    rw [hEntry, Option.map_some, Option.map_some, hPayload, hOffset]
  · rfl

end MetadataOutbox

structure Follows (ledger : Ledger) (calls : List WriterCall) (outbox : MetadataOutbox) : Prop where
  recorded : ∀ key, outbox.recorded key = ledger.lookup key
  nodup : outbox.pending.Nodup
  mem_pending : ∀ key, key ∈ outbox.pending ↔ outbox.statusOf key = some .pending
  acknowledged : ∀ (key : IdempotencyKey) (entry : MetadataOutboxEntry),
    outbox.entries[key]? = some entry → entry.status = .acknowledged → (entry.payload, .ok ()) ∈ calls

/-! ## Ledgers -/

theorem Ledger.lookup_eq_some {ledger : Ledger} {key : IdempotencyKey} {payload : IptoWritePayload}
    {offset : Option Nat} (h : ledger.lookup key = some (payload, offset)) :
    payload.idempotencyKey = key := by
  obtain ⟨row, hRow, hEq⟩ := Option.map_eq_some_iff.mp h
  cases hEq
  simpa using List.find?_some hRow

theorem Ledger.lookup_of_mem {ledger : Ledger} (hKeys : ledger.keys.Nodup) {payload : IptoWritePayload}
    {offset : Nat} (h : (payload, offset) ∈ ledger) :
    ledger.lookup payload.idempotencyKey = some (payload, some offset) := by
  induction ledger with
  | nil => cases h
  | cons row ledger ih =>
    rw [Ledger.keys, List.map_cons, List.nodup_cons] at hKeys
    rw [Ledger.lookup, List.find?_cons]
    rcases List.mem_cons.mp h with rfl | h
    · simp
    · have hFresh : row.1.idempotencyKey ≠ payload.idempotencyKey := by
        intro hEq
        exact hKeys.1 (hEq ▸ List.mem_map.mpr ⟨_, h, rfl⟩)
      simpa [hFresh, Ledger.lookup] using ih hKeys.2 h

theorem Ledger.lookup_eq_none {ledger : Ledger} {key : IdempotencyKey} :
    ledger.lookup key = none ↔ key ∉ ledger.keys := by
  rw [Ledger.lookup, Option.map_eq_none_iff, List.find?_eq_none, Ledger.keys, List.mem_map]
  constructor
  · rintro h ⟨row, hRow, hKey⟩
    exact h row hRow (by simpa using hKey)
  · intro h row hRow hKey
    exact h ⟨row, hRow, by simpa using hKey⟩

theorem Ledger.lookup_concat {ledger : Ledger} {payload : IptoWritePayload} {offset : Nat}
    (hFresh : payload.idempotencyKey ∉ ledger.keys) (key : IdempotencyKey) :
    Ledger.lookup (ledger ++ [(payload, offset)]) key =
      if payload.idempotencyKey = key then some (payload, some offset) else ledger.lookup key := by
  rw [Ledger.lookup, List.find?_append]
  split
  · rename_i hKey
    subst hKey
    have hNone : ledger.find? (fun row => row.1.idempotencyKey = payload.idempotencyKey) = none :=
      Option.map_eq_none_iff.mp (Ledger.lookup_eq_none.mpr hFresh)
    simp [hNone]
  · rename_i hKey
    simp [hKey, Ledger.lookup]

/-! ## Entries that follow a ledger -/

namespace Follows

variable {ledger : Ledger} {calls : List WriterCall} {outbox : MetadataOutbox}

theorem new (calls : List WriterCall) : Follows [] calls MetadataOutbox.new where
  recorded key := by simp [MetadataOutbox.recorded, MetadataOutbox.new, Ledger.lookup]
  nodup := List.nodup_nil
  mem_pending key := by simp [MetadataOutbox.statusOf, MetadataOutbox.new]
  acknowledged key entry hEntry := by simp [MetadataOutbox.new] at hEntry

theorem mono (h : Follows ledger calls outbox) {more : List WriterCall} (hMore : calls ⊆ more) :
    Follows ledger more outbox where
  recorded := h.recorded
  nodup := h.nodup
  mem_pending := h.mem_pending
  acknowledged key entry hEntry hStatus := hMore (h.acknowledged key entry hEntry hStatus)

theorem lookup_of_entry (h : Follows ledger calls outbox) {key : IdempotencyKey}
    {entry : MetadataOutboxEntry} (hEntry : outbox.entries[key]? = some entry) :
    ledger.lookup key = some (entry.payload, entry.recordOffset) := by
  rw [← h.recorded, MetadataOutbox.recorded, hEntry]
  rfl

theorem key_of_entry (h : Follows ledger calls outbox) {key : IdempotencyKey}
    {entry : MetadataOutboxEntry} (hEntry : outbox.entries[key]? = some entry) :
    entry.payload.idempotencyKey = key :=
  Ledger.lookup_eq_some (h.lookup_of_entry hEntry)

theorem contains_iff (h : Follows ledger calls outbox) (key : IdempotencyKey) :
    outbox.entries.contains key = true ↔ key ∈ ledger.keys := by
  rw [← not_iff_not, ← Ledger.lookup_eq_none, ← h.recorded, MetadataOutbox.recorded,
    Option.map_eq_none_iff, Std.ExtTreeMap.contains_iff_mem, getElem?_eq_none_iff]

theorem inStep (h : Follows ledger calls outbox) : outbox.InStep where
  key_of_entry _ _ := h.key_of_entry
  nodup := h.nodup
  mem_pending := h.mem_pending

/-- Every change of an entry after it was recorded: a new status, and the queue in step
with it. -/
theorem update (h : Follows ledger calls outbox) {key : IdempotencyKey}
    {entry next : MetadataOutboxEntry} {pending : List IdempotencyKey}
    (hEntry : outbox.entries[key]? = some entry) (hPayload : next.payload = entry.payload)
    (hOffset : next.recordOffset = entry.recordOffset)
    (hNext : MetadataOutbox.InStep ⟨outbox.entries.insert key next, pending⟩)
    (hAcknowledged : next.status = .acknowledged → (entry.payload, .ok ()) ∈ calls) :
    Follows ledger calls ⟨outbox.entries.insert key next, pending⟩ := by
  refine ⟨fun other => ?_, hNext.nodup, hNext.mem_pending, fun other found hFound hStatus => ?_⟩
  · rw [MetadataOutbox.recorded_insert hEntry hPayload hOffset]
    exact h.recorded other
  · rw [getElem?_insert_ite] at hFound
    split at hFound
    · obtain rfl := Option.some.inj hFound
      rw [hPayload]
      exact hAcknowledged hStatus
    · exact h.acknowledged other found hFound hStatus

theorem enqueue (h : Follows ledger calls outbox) {payload : IptoWritePayload}
    (hFresh : payload.idempotencyKey ∉ ledger.keys) (offset : Nat) :
    (outbox.enqueueWithOffset payload (some offset)).2.pending =
        outbox.pending ++ [payload.idempotencyKey] ∧
      Follows (ledger ++ [(payload, offset)]) calls
        (outbox.enqueueWithOffset payload (some offset)).2 := by
  have hMissing : outbox.entries.contains payload.idempotencyKey = false := by
    rw [← Bool.not_eq_true, h.contains_iff]
    exact hFresh
  have hNext := h.inStep.enqueueWithOffset payload (some offset)
  rw [MetadataOutbox.enqueueWithOffset, hMissing] at hNext ⊢
  refine ⟨rfl, fun other => ?_, hNext.nodup, hNext.mem_pending, fun other found hFound hStatus => ?_⟩
  · rw [MetadataOutbox.recorded, Ledger.lookup_concat hFresh]
    simp only [Bool.false_eq_true, if_false, getElem?_insert_ite]
    split
    · rfl
    · exact h.recorded other
  · simp only [Bool.false_eq_true, if_false, getElem?_insert_ite] at hFound
    split at hFound
    · obtain rfl := Option.some.inj hFound
      cases hStatus
    · exact h.acknowledged other found hFound hStatus

/-! ## Statuses -/

theorem acknowledge (h : Follows ledger calls outbox) {key : IdempotencyKey}
    {entry : MetadataOutboxEntry} (hEntry : outbox.entries[key]? = some entry)
    (hCall : (entry.payload, .ok ()) ∈ calls) : Follows ledger calls (outbox.acknowledge key).2 := by
  have hNext := h.inStep.acknowledge key
  rw [MetadataOutbox.acknowledge, hEntry] at hNext ⊢
  exact h.update hEntry rfl rfl hNext fun _ => hCall

theorem failWithRetryability (h : Follows ledger calls outbox) (key : IdempotencyKey) (error : String)
    (retryable : Bool) :
    Follows ledger calls (outbox.failWithRetryability key error retryable).2 := by
  have hNext := h.inStep.failWithRetryability key error retryable
  rw [MetadataOutbox.failWithRetryability] at hNext ⊢
  split
  · exact h
  · rename_i entry hEntry
    rw [hEntry] at hNext
    exact h.update hEntry rfl rfl hNext fun hStatus => by cases hStatus

theorem retryFailed (h : Follows ledger calls outbox) (key : IdempotencyKey) :
    Follows ledger calls (outbox.retryFailed key).2 := by
  have hNext := h.inStep.retryFailed key
  cases hEntry : outbox.entries[key]? with
  | none =>
    rw [MetadataOutbox.retryFailed, hEntry]
    exact h
  | some entry =>
    by_cases hFailed : entry.status = .failed
    · rw [h.inStep.retryFailed_eq hEntry hFailed] at hNext ⊢
      exact h.update hEntry rfl rfl hNext fun hStatus => by cases hStatus
    · simp only [MetadataOutbox.retryFailed, hEntry, ne_eq, hFailed, not_false_eq_true, if_true]
      exact h

theorem retryFailedForTarget (h : Follows ledger calls outbox) (target : IptoInstanceId) :
    Follows ledger calls (outbox.retryFailedForTarget target).2 := by
  rw [MetadataOutbox.retryFailedForTarget]
  generalize List.map Prod.fst (List.filter _ outbox.entries.toList) = keys
  induction keys generalizing outbox with
  | nil => exact h
  | cons key keys ih => exact ih (h.retryFailed key)

/-! ## Delivery and draining -/

section Delivery

variable {ω : Type} (writer : IptoWriter ω)

theorem deliver {remote : ω × List WriterCall} (h : Follows ledger remote.2 outbox)
    {next : Option MetadataOutboxEntry}
    (hNext : ∀ entry, next = some entry → ∃ key : IdempotencyKey, outbox.entries[key]? = some entry) :
    Follows ledger (Ipto.deliver writer.recording next outbox remote).2.2.2
      (Ipto.deliver writer.recording next outbox remote).2.1 := by
  cases next with
  | none => exact h
  | some entry =>
    obtain ⟨key, hEntry⟩ := hNext entry rfl
    obtain rfl := h.key_of_entry hEntry
    rw [Ipto.deliver]
    simp only [IptoWriter.recording]
    cases hAnswer : (writer.write remote.1 entry.payload).1 with
    | ok done =>
      refine (h.mono (List.subset_append_left _ _)).acknowledge hEntry ?_
      simp
    | error error =>
      exact (h.mono (List.subset_append_left _ _)).failWithRetryability _ _ _

theorem deliverNextPending {remote : ω × List WriterCall} (h : Follows ledger remote.2 outbox) :
    Follows ledger (Ipto.deliverNextPending writer.recording outbox remote).2.2.2
      (Ipto.deliverNextPending writer.recording outbox remote).2.1 :=
  h.deliver writer fun _ hFind => ⟨_, (h.inStep.of_find hFind).2.1⟩

theorem deliverNextPendingForTarget {remote : ω × List WriterCall}
    (h : Follows ledger remote.2 outbox) (target : IptoInstanceId) :
    Follows ledger (Ipto.deliverNextPendingForTarget writer.recording target outbox remote).2.2.2
      (Ipto.deliverNextPendingForTarget writer.recording target outbox remote).2.1 :=
  h.deliver writer fun _ hFind => ⟨_, (h.inStep.of_find hFind).2.1⟩

theorem drain
    {deliver : MetadataOutbox → ω × List WriterCall →
      MetadataOutboxDeliveryResult × MetadataOutbox × (ω × List WriterCall)}
    (hDeliver : ∀ outbox remote, Follows ledger remote.2 outbox →
      Follows ledger (deliver outbox remote).2.2.2 (deliver outbox remote).2.1)
    (attempts : Nat) (summary : MetadataOutboxDrainSummary) {remote : ω × List WriterCall}
    (h : Follows ledger remote.2 outbox) :
    Follows ledger (Ipto.drain deliver attempts summary outbox remote).2.2.2
      (Ipto.drain deliver attempts summary outbox remote).2.1 :=
  @drain_invariant _ deliver (fun outbox remote => Follows ledger remote.2 outbox) hDeliver attempts summary
    outbox remote h

end Delivery

end Follows

end Vannak.Ipto
