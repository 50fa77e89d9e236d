import Vannak.Ipto.Outbox

/-!
# The queue of an outbox

The entries of an outbox and its queue are two structures that every operation updates
separately. The queue holds the key of each pending entry once and no other key, and every
operation keeps it so.
-/

namespace Vannak.Ipto

open Foundation

set_option autoImplicit false

namespace MetadataOutbox

def statusOf (outbox : MetadataOutbox) (key : IdempotencyKey) : Option OutboxStatus :=
  (outbox.entries[key]?).map MetadataOutboxEntry.status

theorem enqueueWithOffset_of_fresh {outbox : MetadataOutbox} {payload : IptoWritePayload}
    (hFresh : payload.idempotencyKey ∉ outbox.entries) (recordOffset : Option Nat) :
    outbox.enqueueWithOffset payload recordOffset =
      (.enqueued, ⟨outbox.entries.insert payload.idempotencyKey ⟨payload, .pending, recordOffset, 0, none, false⟩,
        outbox.pending ++ [payload.idempotencyKey]⟩) := by
  rw [enqueueWithOffset, if_neg fun hContains => hFresh (Std.ExtTreeMap.contains_iff_mem.mp hContains)]

theorem mem_entries_enqueueWithOffset {outbox : MetadataOutbox} {payload : IptoWritePayload}
    (hFresh : payload.idempotencyKey ∉ outbox.entries) (recordOffset : Option Nat) (key : IdempotencyKey) :
    key ∈ (outbox.enqueueWithOffset payload recordOffset).2.entries ↔
      payload.idempotencyKey = key ∨ key ∈ outbox.entries := by
  rw [enqueueWithOffset_of_fresh hFresh, Std.ExtTreeMap.mem_insert, Std.compare_eq_iff_eq]

structure InStep (outbox : MetadataOutbox) : Prop where
  key_of_entry : ∀ (key : IdempotencyKey) (entry : MetadataOutboxEntry),
    outbox.entries[key]? = some entry → entry.payload.idempotencyKey = key
  nodup : outbox.pending.Nodup
  mem_pending : ∀ key, key ∈ outbox.pending ↔ outbox.statusOf key = some .pending

namespace InStep

variable {outbox : MetadataOutbox}

theorem new : MetadataOutbox.new.InStep where
  key_of_entry key entry hEntry := by simp [MetadataOutbox.new] at hEntry
  nodup := List.nodup_nil
  mem_pending key := by simp [statusOf, MetadataOutbox.new]

/-- An entry put under its key with a new status, and the queue adjusted to it. -/
theorem insert (h : outbox.InStep) {key : IdempotencyKey} {next : MetadataOutboxEntry}
    {pending : List IdempotencyKey} (hKey : next.payload.idempotencyKey = key) (hNodup : pending.Nodup)
    (hPending : ∀ other, other ∈ pending ↔
      if other = key then next.status = .pending else other ∈ outbox.pending) :
    InStep ⟨outbox.entries.insert key next, pending⟩ := by
  refine ⟨fun other found hFound => ?_, hNodup, fun other => ?_⟩
  · exact @forall_getElem?_insert _ _ _ _ _ outbox.entries
      (fun key entry => entry.payload.idempotencyKey = key) h.key_of_entry key next hKey other found hFound
  · rw [hPending, statusOf, getElem?_insert_ite]
    by_cases hOther : other = key
    · subst hOther
      simp
    · rw [if_neg hOther, if_neg (Ne.symm hOther)]
      exact h.mem_pending other

/-- A pending entry put under a key that is not queued. -/
theorem queue (h : outbox.InStep) {key : IdempotencyKey} {next : MetadataOutboxEntry}
    (hKey : next.payload.idempotencyKey = key) (hNext : next.status = .pending) (hUnqueued : key ∉ outbox.pending) :
    InStep ⟨outbox.entries.insert key next, outbox.pending ++ [key]⟩ := by
  refine h.insert hKey ?_ fun other => ?_
  · exact List.Nodup.append h.nodup (List.nodup_singleton _) (by simpa using hUnqueued)
  · rw [List.mem_append, List.mem_singleton]
    split
    · rename_i hOther
      simp [hOther, hNext]
    · rename_i hOther
      simp [hOther]

/-- Taking the key off the queue, whatever status other than pending its entry gets. -/
theorem dequeue (h : outbox.InStep) {key : IdempotencyKey} {next : MetadataOutboxEntry}
    (hKey : next.payload.idempotencyKey = key) (hStatus : next.status ≠ .pending) :
    InStep ⟨outbox.entries.insert key next, outbox.pending.filter (· ≠ key)⟩ := by
  refine h.insert hKey (h.nodup.filter _) fun other => ?_
  rw [List.mem_filter]
  split
  · rename_i hOther
    simp [hOther, hStatus]
  · rename_i hOther
    simp [hOther]

theorem not_mem_pending (h : outbox.InStep) {key : IdempotencyKey}
    (hStatus : outbox.statusOf key ≠ some .pending) : key ∉ outbox.pending :=
  fun hQueued => hStatus ((h.mem_pending key).mp hQueued)

theorem entry_of_pending (h : outbox.InStep) {key : IdempotencyKey} (hQueued : key ∈ outbox.pending) :
    ∃ entry, outbox.entries[key]? = some entry ∧ entry.status = .pending :=
  Option.map_eq_some_iff.mp ((h.mem_pending key).mp hQueued)

theorem enqueueWithOffset (h : outbox.InStep) (payload : IptoWritePayload) (recordOffset : Option Nat) :
    (outbox.enqueueWithOffset payload recordOffset).2.InStep := by
  rw [MetadataOutbox.enqueueWithOffset]
  split
  · exact h
  · rename_i hMissing
    rw [Std.ExtTreeMap.contains_iff_mem] at hMissing
    refine h.queue rfl rfl (h.not_mem_pending ?_)
    rw [statusOf, Std.ExtTreeMap.getElem?_eq_none hMissing]
    simp

theorem acknowledge (h : outbox.InStep) (key : IdempotencyKey) : (outbox.acknowledge key).2.InStep := by
  rw [MetadataOutbox.acknowledge]
  split
  · exact h
  · rename_i entry hEntry
    exact h.dequeue (h.key_of_entry key entry hEntry) (by simp)

theorem failWithRetryability (h : outbox.InStep) (key : IdempotencyKey) (error : String) (retryable : Bool) :
    (outbox.failWithRetryability key error retryable).2.InStep := by
  rw [MetadataOutbox.failWithRetryability]
  split
  · exact h
  · rename_i entry hEntry
    exact h.dequeue (h.key_of_entry key entry hEntry) (by simp)

/-- A failed entry is not queued, so that its key is appended. -/
theorem retryFailed_eq (h : outbox.InStep) {key : IdempotencyKey} {entry : MetadataOutboxEntry}
    (hEntry : outbox.entries[key]? = some entry) (hFailed : entry.status = .failed) :
    (outbox.retryFailed key).2 =
      ⟨outbox.entries.insert key { entry with status := .pending }, outbox.pending ++ [key]⟩ := by
  have hUnqueued : key ∉ outbox.pending := by
    refine h.not_mem_pending ?_
    rw [statusOf, hEntry, Option.map_some, hFailed]
    simp
  have hAny : ¬outbox.pending.any (· = key) = true := by
    rw [List.any_eq_true]
    rintro ⟨other, hOther, hEq⟩
    exact hUnqueued (of_decide_eq_true hEq ▸ hOther)
  simp only [MetadataOutbox.retryFailed, hEntry, hFailed, ne_eq, not_true_eq_false, if_false, if_neg hAny]

theorem retryFailed (h : outbox.InStep) (key : IdempotencyKey) : (outbox.retryFailed key).2.InStep := by
  cases hEntry : outbox.entries[key]? with
  | none =>
    rw [MetadataOutbox.retryFailed, hEntry]
    exact h
  | some entry =>
    by_cases hFailed : entry.status = .failed
    · rw [h.retryFailed_eq hEntry hFailed]
      refine h.queue (h.key_of_entry key entry hEntry) rfl (h.not_mem_pending ?_)
      rw [statusOf, hEntry, Option.map_some, hFailed]
      simp
    · simp only [MetadataOutbox.retryFailed, hEntry, ne_eq, hFailed, not_false_eq_true, if_true]
      exact h

theorem retryFailedForTarget (h : outbox.InStep) (target : IptoInstanceId) :
    (outbox.retryFailedForTarget target).2.InStep := by
  rw [MetadataOutbox.retryFailedForTarget]
  exact List.foldlRecOn _ _ (motive := InStep) h fun _ hNext key _ => hNext.retryFailed key

end InStep

end MetadataOutbox

/-! ## Deliveries -/

/-- What a writer's answer makes of the entry. -/
def MetadataOutboxEntry.answered (entry : MetadataOutboxEntry) : Except IptoWriteError Unit → MetadataOutboxEntry
  | .ok () => { entry with status := .acknowledged }
  | .error error => { entry with
      status := .failed
      retryCount := entry.retryCount + 1
      lastError := some error.message
      retryable := error.retryable }

theorem MetadataOutboxEntry.answered_payload (entry : MetadataOutboxEntry) (answer : Except IptoWriteError Unit) :
    (entry.answered answer).payload = entry.payload := by
  cases answer <;> rfl

theorem MetadataOutboxEntry.answered_status_ne (entry : MetadataOutboxEntry) (answer : Except IptoWriteError Unit) :
    (entry.answered answer).status ≠ .pending := by
  cases answer <;> simp [answered]

def MetadataOutboxDeliveryResult.ofAnswer (key : IdempotencyKey) :
    Except IptoWriteError Unit → MetadataOutboxDeliveryResult
  | .ok () => .acknowledged key
  | .error error => .failed key error.retryable error.message

namespace MetadataOutbox

/-- The outbox after the entry was answered. -/
def settle (outbox : MetadataOutbox) (entry : MetadataOutboxEntry) (answer : Except IptoWriteError Unit) :
    MetadataOutbox where
  entries := outbox.entries.insert entry.payload.idempotencyKey (entry.answered answer)
  pending := outbox.pending.filter (· ≠ entry.payload.idempotencyKey)

theorem getElem?_settle (outbox : MetadataOutbox) (entry : MetadataOutboxEntry)
    (answer : Except IptoWriteError Unit) (key : IdempotencyKey) :
    (outbox.settle entry answer).entries[key]? =
      if entry.payload.idempotencyKey = key then some (entry.answered answer) else outbox.entries[key]? := by
  rw [settle]
  exact getElem?_insert_ite outbox.entries _ key _

namespace InStep

variable {ω : Type} {outbox : MetadataOutbox}

theorem settle (h : outbox.InStep) (entry : MetadataOutboxEntry) (answer : Except IptoWriteError Unit) :
    (outbox.settle entry answer).InStep :=
  h.dequeue (congrArg IptoWritePayload.idempotencyKey (entry.answered_payload answer))
    (entry.answered_status_ne answer)

/-- The entry that a search of the queue finds is queued under its own key. -/
theorem of_find (h : outbox.InStep) {accepts : MetadataOutboxEntry → Bool} {entry : MetadataOutboxEntry}
    (hFind : (outbox.pending.filterMap fun key => outbox.entries[key]?).find? accepts = some entry) :
    entry.payload.idempotencyKey ∈ outbox.pending ∧
      outbox.entries[entry.payload.idempotencyKey]? = some entry ∧ entry.status = .pending := by
  obtain ⟨key, hQueued, hEntry⟩ := List.mem_filterMap.mp (List.mem_of_find?_eq_some hFind)
  obtain rfl := h.key_of_entry key entry hEntry
  obtain ⟨found, hFound, hPending⟩ := h.entry_of_pending hQueued
  rw [hEntry] at hFound
  exact ⟨hQueued, hEntry, Option.some.inj hFound ▸ hPending⟩

end InStep

theorem deliver_some {ω : Type} (writer : IptoWriter ω) {outbox : MetadataOutbox} {entry : MetadataOutboxEntry}
    (hEntry : outbox.entries[entry.payload.idempotencyKey]? = some entry) (remote : ω) :
    deliver writer (some entry) outbox remote =
      (.ofAnswer entry.payload.idempotencyKey (writer.write remote entry.payload).1,
        outbox.settle entry (writer.write remote entry.payload).1, (writer.write remote entry.payload).2) := by
  rw [deliver]
  obtain ⟨answer, next⟩ := writer.write remote entry.payload
  cases answer with
  | ok done =>
    simp only [acknowledge, hEntry]
    rfl
  | error error =>
    simp only [failWithRetryability, hEntry]
    rfl

theorem InStep.deliver {ω : Type} {outbox : MetadataOutbox} (h : outbox.InStep) (writer : IptoWriter ω)
    {next : Option MetadataOutboxEntry}
    (hNext : ∀ entry, next = some entry → outbox.entries[entry.payload.idempotencyKey]? = some entry) (remote : ω) :
    (Ipto.deliver writer next outbox remote).2.1.InStep := by
  cases next with
  | none => exact h
  | some entry =>
    rw [deliver_some writer (hNext entry rfl)]
    exact h.settle entry _

end MetadataOutbox

end Vannak.Ipto
