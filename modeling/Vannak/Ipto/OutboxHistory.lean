import Vannak.Foundation.History
import Vannak.Ipto.Draining

/-!
# Runs of an outbox and their histories

A `MetadataOutbox` in memory and its callers: enqueueing, direct acknowledgements and failures, retries, deliveries
and drains, in any order. The history of a run is the calls of the writer and of `retry_failed`.
-/

namespace Vannak.Ipto

open Foundation

set_option autoImplicit false

/-! ## Counting entries -/

structure MetadataOutboxSnapshot where
  total : Nat
  pending : Nat
  acknowledged : Nat
  failed : Nat
  queuedPending : Nat
deriving DecidableEq, Repr

def MetadataOutboxSnapshot.count (snapshot : MetadataOutboxSnapshot) (entry : MetadataOutboxEntry) :
    MetadataOutboxSnapshot :=
  match entry.status with
  | .pending => { snapshot with pending := snapshot.pending + 1 }
  | .acknowledged => { snapshot with acknowledged := snapshot.acknowledged + 1 }
  | .failed => { snapshot with failed := snapshot.failed + 1 }

namespace MetadataOutbox

def enqueue (outbox : MetadataOutbox) (payload : IptoWritePayload) : OutboxEnqueueResult × MetadataOutbox :=
  outbox.enqueueWithOffset payload none

def snapshot (outbox : MetadataOutbox) : MetadataOutboxSnapshot :=
  (outbox.entries.toList.map Prod.snd).foldl MetadataOutboxSnapshot.count {
    total := outbox.entries.size
    pending := 0
    acknowledged := 0
    failed := 0
    queuedPending := outbox.pending.length }

end MetadataOutbox

theorem foldl_count (entries : List MetadataOutboxEntry) (snapshot : MetadataOutboxSnapshot) :
    entries.foldl MetadataOutboxSnapshot.count snapshot = { snapshot with
      pending := snapshot.pending + entries.countP fun entry => entry.status = .pending
      acknowledged := snapshot.acknowledged + entries.countP fun entry => entry.status = .acknowledged
      failed := snapshot.failed + entries.countP fun entry => entry.status = .failed } := by
  induction entries generalizing snapshot with
  | nil => rfl
  | cons entry entries ih =>
    rw [List.foldl_cons, ih, MetadataOutboxSnapshot.count]
    cases hStatus : entry.status <;> simp [hStatus, Nat.add_assoc, Nat.add_comm 1]

/-- Every entry has one of the three statuses. -/
theorem length_eq_countP (entries : List MetadataOutboxEntry) :
    entries.length = (entries.countP fun entry => entry.status = .pending) +
      (entries.countP fun entry => entry.status = .acknowledged) +
      entries.countP fun entry => entry.status = .failed := by
  induction entries with
  | nil => rfl
  | cons entry entries ih =>
    rw [List.length_cons, ih]
    cases hStatus : entry.status <;> simp [hStatus] <;> omega

theorem MetadataOutbox.snapshot_total (outbox : MetadataOutbox) :
    outbox.snapshot.total = outbox.snapshot.pending + outbox.snapshot.acknowledged + outbox.snapshot.failed := by
  have hSize : outbox.entries.size = (outbox.entries.toList.map Prod.snd).length := by
    rw [List.length_map, Std.ExtTreeMap.length_toList]
  rw [MetadataOutbox.snapshot, foldl_count]
  simp only [Nat.zero_add, hSize]
  exact length_eq_countP _

/-- The queue and the keys of the pending entries are two lists of the same keys. -/
theorem MetadataOutbox.InStep.snapshot_queued {outbox : MetadataOutbox} (h : outbox.InStep) :
    outbox.snapshot.queuedPending = outbox.snapshot.pending := by
  have hKeys : ((outbox.entries.toList.filter fun binding => binding.2.status = .pending).map Prod.fst).Nodup := by
    have hDistinct : (outbox.entries.toList.map Prod.fst).Nodup := by
      rw [Std.ExtTreeMap.map_fst_toList_eq_keys]
      exact Std.ExtTreeMap.distinct_keys.imp fun hNe hEq => hNe (Std.compare_eq_iff_eq.mpr hEq)
    exact hDistinct.sublist (List.filter_sublist.map Prod.fst)
  have hPerm : List.Perm outbox.pending
      ((outbox.entries.toList.filter fun binding => binding.2.status = .pending).map Prod.fst) := by
    refine (List.perm_ext_iff_of_nodup h.nodup hKeys).mpr fun key => ?_
    rw [h.mem_pending, MetadataOutbox.statusOf, Option.map_eq_some_iff, List.mem_map]
    constructor
    · rintro ⟨entry, hEntry, hPending⟩
      exact ⟨(key, entry), List.mem_filter.mpr
        ⟨Std.ExtTreeMap.mem_toList_iff_getElem?_eq_some.mpr hEntry, decide_eq_true hPending⟩, rfl⟩
    · rintro ⟨⟨other, entry⟩, hBinding, rfl⟩
      obtain ⟨hMem, hPending⟩ := List.mem_filter.mp hBinding
      exact ⟨entry, Std.ExtTreeMap.mem_toList_iff_getElem?_eq_some.mp hMem, of_decide_eq_true hPending⟩
  rw [MetadataOutbox.snapshot, foldl_count]
  simp only [Nat.zero_add, hPerm.length_eq, List.length_map, List.countP_eq_length_filter, List.filter_map]
  rfl

/-! ## Runs -/

inductive OutboxEvent where
  | written (payload : IptoWritePayload) (answer : Except IptoWriteError Unit)
  | retried (key : IdempotencyKey)

def OutboxEvent.Attempts (key : IdempotencyKey) : OutboxEvent → Prop
  | written payload _ => payload.idempotencyKey = key
  | retried _ => False

/-- The same writer, remembering its calls in a history. -/
def IptoWriter.tracing {ω : Type} (writer : IptoWriter ω) : IptoWriter (ω × List OutboxEvent) where
  write remote payload :=
    let (answer, next) := writer.write remote.1 payload
    (answer, next, remote.2 ++ [.written payload answer])

inductive OutboxOperation where
  | enqueue (payload : IptoWritePayload)
  | acknowledge (key : IdempotencyKey)
  | fail (key : IdempotencyKey) (error : String)
  | retryFailed (key : IdempotencyKey)
  | retryFailedForTarget (target : IptoInstanceId)
  | deliverNextPending
  | deliverNextPendingForTarget (target : IptoInstanceId)
  | drainPendingOutbox (maxAttempts : Nat)
  | drainPendingOutboxForTarget (target : IptoInstanceId) (maxAttempts : Nat)
deriving DecidableEq

/-- A status set by the caller and not by a writer's answer. -/
def OutboxOperation.Direct : OutboxOperation → Prop
  | acknowledge _ | fail _ _ => True
  | _ => False

structure OutboxRun (ω : Type) where
  outbox : MetadataOutbox
  /-- The client behind the writer, and the history. -/
  remote : ω × List OutboxEvent

section Runs

variable {ω : Type} (writer : IptoWriter ω)

def operate (run : OutboxRun ω) : OutboxOperation → OutboxRun ω
  | .enqueue payload => { run with outbox := (run.outbox.enqueue payload).2 }
  | .acknowledge key => { run with outbox := (run.outbox.acknowledge key).2 }
  | .fail key error => { run with outbox := (run.outbox.fail key error).2 }
  | .retryFailed key =>
    ⟨(run.outbox.retryFailed key).2, run.remote.1, run.remote.2 ++ [.retried key]⟩
  | .retryFailedForTarget target => { run with outbox := (run.outbox.retryFailedForTarget target).2 }
  | .deliverNextPending =>
    let (_, outbox, remote) := deliverNextPending writer.tracing run.outbox run.remote
    ⟨outbox, remote⟩
  | .deliverNextPendingForTarget target =>
    let (_, outbox, remote) := deliverNextPendingForTarget writer.tracing target run.outbox run.remote
    ⟨outbox, remote⟩
  | .drainPendingOutbox maxAttempts =>
    let (_, outbox, remote) := drainPendingOutbox writer.tracing run.outbox run.remote maxAttempts
    ⟨outbox, remote⟩
  | .drainPendingOutboxForTarget target maxAttempts =>
    let (_, outbox, remote) := drainPendingOutboxForTarget writer.tracing target run.outbox run.remote maxAttempts
    ⟨outbox, remote⟩

def runOutbox (remote : ω) (operations : List OutboxOperation) : OutboxRun ω :=
  operations.foldl (operate writer) ⟨.new, remote, []⟩

/-! ## Entries that wait for nothing -/

variable {writer} {outbox : MetadataOutbox}

/-- Everything but `retry_failed` and direct changes leaves an entry that does not wait as it is. -/
def KeepsSettled (outbox next : MetadataOutbox) : Prop :=
  ∀ (key : IdempotencyKey) (entry : MetadataOutboxEntry),
    outbox.entries[key]? = some entry → ¬entry.Waiting → next.entries[key]? = some entry

theorem keepsSettled_enqueue (outbox : MetadataOutbox) (payload : IptoWritePayload) :
    KeepsSettled outbox (outbox.enqueue payload).2 := by
  intro key entry hEntry _
  rw [MetadataOutbox.enqueue, MetadataOutbox.enqueueWithOffset]
  split
  · exact hEntry
  · rename_i hMissing
    dsimp only
    rw [getElem?_insert_ite, if_neg]
    · exact hEntry
    · rintro rfl
      rw [Std.ExtTreeMap.contains_iff_mem] at hMissing
      rw [Std.ExtTreeMap.getElem?_eq_none hMissing] at hEntry
      cases hEntry

theorem keepsSettled_retryFailedForTarget (outbox : MetadataOutbox) (target : IptoInstanceId) :
    KeepsSettled outbox (outbox.retryFailedForTarget target).2 := by
  intro key entry hEntry hSettled
  rw [mapsEntries_retryFailedForTarget outbox target key, hEntry, Option.map_some, requeueFor, if_neg]
  rintro ⟨hFailed, hRetryable, -⟩
  exact hSettled (.inr ⟨hFailed, hRetryable⟩)

theorem keepsSettled_settle {entry : MetadataOutboxEntry}
    (hEntry : outbox.entries[entry.payload.idempotencyKey]? = some entry) (hPending : entry.status = .pending)
    (answer : Except IptoWriteError Unit) : KeepsSettled outbox (outbox.settle entry answer) := by
  intro key other hOther hSettled
  rw [MetadataOutbox.getElem?_settle, if_neg]
  · exact hOther
  · rintro rfl
    rw [hEntry] at hOther
    exact hSettled (.inl (Option.some.inj hOther ▸ hPending))

theorem entries_retryFailed_of_acknowledged {key other : IdempotencyKey} {entry : MetadataOutboxEntry}
    (hEntry : outbox.entries[other]? = some entry) (hStatus : entry.status = .acknowledged) :
    (outbox.retryFailed key).2.entries[other]? = some entry := by
  rw [entries_retryFailed, hEntry]
  split
  · rw [Option.map_some, requeue, hStatus, if_neg (by simp)]
  · rfl

end Runs

/-! ## Histories -/

/-- The writer accepted, or refused for good. -/
def Final : Except IptoWriteError Unit → Prop
  | .ok () => True
  | .error error => error.retryable = false

theorem not_waiting_answered {entry : MetadataOutboxEntry} {answer : Except IptoWriteError Unit}
    (h : Final answer) : ¬(entry.answered answer).Waiting := by
  cases answer with
  | ok done => simp [MetadataOutboxEntry.answered, MetadataOutboxEntry.Waiting]
  | error error =>
    have hRetryable : error.retryable = false := h
    simp [MetadataOutboxEntry.answered, MetadataOutboxEntry.Waiting, hRetryable]

/-- A final answer blocks every later attempt of its key. -/
def OutboxEvent.Blocks (earlier later : OutboxEvent) : Prop :=
  ∃ payload answer, earlier = .written payload answer ∧ Final answer ∧ later.Attempts payload.idempotencyKey

/-- Only `retry_failed`, and only after a failure. -/
def OutboxEvent.Releases (earlier event : OutboxEvent) : Prop :=
  ∃ payload error, earlier = .written payload (.error error) ∧ event = .retried payload.idempotencyKey

/-- The entries show the final answers that stand, and no attempt was made against one. -/
structure Reflects (outbox : MetadataOutbox) (history : List OutboxEvent) : Prop where
  inStep : outbox.InStep
  settled : ∀ (payload : IptoWritePayload) (answer : Except IptoWriteError Unit), Final answer →
    Standing OutboxEvent.Releases history (.written payload answer) →
      ∃ entry, outbox.entries[payload.idempotencyKey]? = some entry ∧ ¬entry.Waiting ∧
        (answer = .ok () → entry.status = .acknowledged)
  guarded : Guarded OutboxEvent.Blocks OutboxEvent.Releases history

namespace Reflects

variable {outbox : MetadataOutbox} {history : List OutboxEvent}

theorem new : Reflects .new [] where
  inStep := MetadataOutbox.InStep.new
  settled _ _ _ hStands := absurd hStands (not_standing_nil _)
  guarded := Guarded.nil

/-- A step that adds nothing to the history. -/
theorem silent (h : Reflects outbox history) {next : MetadataOutbox} (hInStep : next.InStep)
    (hKeeps : KeepsSettled outbox next) : Reflects next history where
  inStep := hInStep
  settled payload answer hFinal hStands := by
    obtain ⟨entry, hEntry, hSettled, hStatus⟩ := h.settled payload answer hFinal hStands
    exact ⟨entry, hKeeps _ _ hEntry hSettled, hSettled, hStatus⟩
  guarded := h.guarded

/-- Only pending entries are attempted, and a final answer that stands leaves none. -/
theorem written (h : Reflects outbox history) {entry : MetadataOutboxEntry}
    (hEntry : outbox.entries[entry.payload.idempotencyKey]? = some entry) (hPending : entry.status = .pending)
    (answer : Except IptoWriteError Unit) :
    Reflects (outbox.settle entry answer) (history ++ [.written entry.payload answer]) where
  inStep := h.inStep.settle entry answer
  settled payload other hFinal hStands := by
    rcases standing_concat.mp hStands with hSame | ⟨hOld, -⟩
    · cases hSame
      refine ⟨entry.answered answer, ?_, not_waiting_answered hFinal, ?_⟩
      · rw [MetadataOutbox.getElem?_settle, if_pos rfl]
      · rintro rfl
        rfl
    · obtain ⟨found, hFound, hSettled, hStatus⟩ := h.settled payload other hFinal hOld
      exact ⟨found, keepsSettled_settle hEntry hPending answer _ _ hFound hSettled, hSettled, hStatus⟩
  guarded := by
    refine h.guarded.concat fun earlier hStands => ?_
    rintro ⟨payload, other, rfl, hFinal, hAttempts⟩
    obtain ⟨found, hFound, hSettled, -⟩ := h.settled payload other hFinal hStands
    rw [← (hAttempts : entry.payload.idempotencyKey = payload.idempotencyKey), hEntry] at hFound
    exact hSettled (.inl (Option.some.inj hFound ▸ hPending))

theorem retryFailed (h : Reflects outbox history) (key : IdempotencyKey) :
    Reflects (outbox.retryFailed key).2 (history ++ [.retried key]) where
  inStep := h.inStep.retryFailed key
  settled payload answer hFinal hStands := by
    rcases standing_concat.mp hStands with hSame | ⟨hOld, hHeld⟩
    · cases hSame
    · obtain ⟨entry, hEntry, hSettled, hStatus⟩ := h.settled payload answer hFinal hOld
      refine ⟨entry, ?_, hSettled, hStatus⟩
      cases answer with
      | ok done => exact entries_retryFailed_of_acknowledged hEntry (hStatus rfl)
      | error error =>
        rw [entries_retryFailed, if_neg, hEntry]
        rintro rfl
        exact hHeld ⟨payload, error, rfl, rfl⟩
  guarded := by
    refine h.guarded.concat fun earlier _ => ?_
    rintro ⟨payload, answer, -, -, hAttempts⟩
    exact hAttempts

section Deliveries

variable {ω : Type} (writer : IptoWriter ω)

theorem deliver {remote : ω × List OutboxEvent} (h : Reflects outbox remote.2) {next : Option MetadataOutboxEntry}
    (hNext : ∀ entry, next = some entry →
      outbox.entries[entry.payload.idempotencyKey]? = some entry ∧ entry.status = .pending) :
    Reflects (Ipto.deliver writer.tracing next outbox remote).2.1
      (Ipto.deliver writer.tracing next outbox remote).2.2.2 := by
  cases next with
  | none => exact h
  | some entry =>
    obtain ⟨hEntry, hPending⟩ := hNext entry rfl
    rw [MetadataOutbox.deliver_some writer.tracing hEntry]
    exact h.written hEntry hPending (writer.write remote.1 entry.payload).1

theorem deliverNextPending {remote : ω × List OutboxEvent} (h : Reflects outbox remote.2) :
    Reflects (Ipto.deliverNextPending writer.tracing outbox remote).2.1
      (Ipto.deliverNextPending writer.tracing outbox remote).2.2.2 :=
  h.deliver writer fun _ hFind => (h.inStep.of_find hFind).2

theorem deliverNextPendingForTarget (target : IptoInstanceId) {remote : ω × List OutboxEvent}
    (h : Reflects outbox remote.2) :
    Reflects (Ipto.deliverNextPendingForTarget writer.tracing target outbox remote).2.1
      (Ipto.deliverNextPendingForTarget writer.tracing target outbox remote).2.2.2 :=
  h.deliver writer fun _ hFind => (h.inStep.of_find hFind).2

theorem operate {run : OutboxRun ω} (h : Reflects run.outbox run.remote.2) {operation : OutboxOperation}
    (hDirect : ¬operation.Direct) :
    Reflects (operate writer run operation).outbox (operate writer run operation).remote.2 := by
  cases operation with
  | enqueue payload =>
    exact h.silent (h.inStep.enqueueWithOffset payload none) (keepsSettled_enqueue run.outbox payload)
  | acknowledge key => exact absurd trivial hDirect
  | fail key error => exact absurd trivial hDirect
  | retryFailed key => exact h.retryFailed key
  | retryFailedForTarget target =>
    exact h.silent (h.inStep.retryFailedForTarget target) (keepsSettled_retryFailedForTarget run.outbox target)
  | deliverNextPending => exact h.deliverNextPending writer
  | deliverNextPendingForTarget target => exact h.deliverNextPendingForTarget writer target
  | drainPendingOutbox maxAttempts =>
    exact @drain_invariant _ (Ipto.deliverNextPending writer.tracing) (fun outbox remote => Reflects outbox remote.2)
      (fun _ _ hNext => hNext.deliverNextPending writer) maxAttempts _ run.outbox run.remote h
  | drainPendingOutboxForTarget target maxAttempts =>
    exact @drain_invariant _ (Ipto.deliverNextPendingForTarget writer.tracing target)
      (fun outbox remote => Reflects outbox remote.2)
      (fun _ _ hNext => hNext.deliverNextPendingForTarget writer target) maxAttempts _ run.outbox run.remote h

end Deliveries

end Reflects

/-! ## Whole runs -/

section Whole

variable {ω : Type} {writer : IptoWriter ω}

theorem inStep_drain {writer : IptoWriter (ω × List OutboxEvent)}
    {search : MetadataOutbox → MetadataOutboxEntry → Bool} (attempts : Nat) (summary : MetadataOutboxDrainSummary)
    {outbox : MetadataOutbox} (h : outbox.InStep) (remote : ω × List OutboxEvent) :
    (drain (fun outbox => deliver writer
      ((outbox.pending.filterMap fun key => outbox.entries[key]?).find? (search outbox)) outbox)
      attempts summary outbox remote).2.1.InStep :=
  @drain_invariant _ _ (fun outbox _ => outbox.InStep)
    (fun _ remote hNext => hNext.deliver writer (fun _ hFind => (hNext.of_find hFind).2.1) remote)
    attempts summary outbox remote h

theorem inStep_operate {run : OutboxRun ω} (h : run.outbox.InStep) (operation : OutboxOperation) :
    (operate writer run operation).outbox.InStep := by
  cases operation with
  | enqueue payload => exact h.enqueueWithOffset payload none
  | acknowledge key => exact h.acknowledge key
  | fail key error => exact h.failWithRetryability key error false
  | retryFailed key => exact h.retryFailed key
  | retryFailedForTarget target => exact h.retryFailedForTarget target
  | deliverNextPending => exact h.deliver writer.tracing (fun _ hFind => (h.of_find hFind).2.1) run.remote
  | deliverNextPendingForTarget target =>
    exact h.deliver writer.tracing (fun _ hFind => (h.of_find hFind).2.1) run.remote
  | drainPendingOutbox maxAttempts => exact inStep_drain maxAttempts _ h run.remote
  | drainPendingOutboxForTarget target maxAttempts => exact inStep_drain maxAttempts _ h run.remote

theorem inStep_runOutbox (writer : IptoWriter ω) (remote : ω) (operations : List OutboxOperation) :
    (runOutbox writer remote operations).outbox.InStep :=
  List.foldlRecOn operations (operate writer) (motive := fun run => run.outbox.InStep) MetadataOutbox.InStep.new
    fun _ hRun operation _ => inStep_operate hRun operation

theorem reflects_runOutbox (writer : IptoWriter ω) (remote : ω) {operations : List OutboxOperation}
    (hDirect : ∀ operation ∈ operations, ¬operation.Direct) :
    Reflects (runOutbox writer remote operations).outbox (runOutbox writer remote operations).remote.2 :=
  List.foldlRecOn operations (operate writer) (motive := fun run => Reflects run.outbox run.remote.2) Reflects.new
    fun _ hRun operation hOperation => hRun.operate writer (hDirect operation hOperation)

/-- In step, and the entry under the key is this one. -/
def Holds (key : IdempotencyKey) (entry : MetadataOutboxEntry) (outbox : MetadataOutbox) : Prop :=
  outbox.InStep ∧ outbox.entries[key]? = some entry

theorem Holds.deliver {writer : IptoWriter (ω × List OutboxEvent)} {key : IdempotencyKey}
    {entry : MetadataOutboxEntry} {outbox : MetadataOutbox} (h : Holds key entry outbox) (hSettled : ¬entry.Waiting)
    {accepts : MetadataOutboxEntry → Bool} (remote : ω × List OutboxEvent) :
    Holds key entry (Ipto.deliver writer
      ((outbox.pending.filterMap fun key => outbox.entries[key]?).find? accepts) outbox remote).2.1 := by
  refine ⟨h.1.deliver writer (fun _ hFind => (h.1.of_find hFind).2.1) remote, ?_⟩
  cases hFind : (outbox.pending.filterMap fun key => outbox.entries[key]?).find? accepts with
  | none => exact h.2
  | some next =>
    obtain ⟨-, hNext, hPending⟩ := h.1.of_find hFind
    rw [MetadataOutbox.deliver_some writer hNext]
    exact keepsSettled_settle hNext hPending _ key entry h.2 hSettled

theorem holds_operate {key : IdempotencyKey} {entry : MetadataOutboxEntry} {run : OutboxRun ω}
    (h : Holds key entry run.outbox) (hStatus : entry.status = .acknowledged) {operation : OutboxOperation}
    (hDirect : ¬operation.Direct) : Holds key entry (operate writer run operation).outbox := by
  have hSettled : ¬entry.Waiting := by simp [MetadataOutboxEntry.Waiting, hStatus]
  cases operation with
  | enqueue payload =>
    exact ⟨inStep_operate h.1 _, keepsSettled_enqueue run.outbox payload key entry h.2 hSettled⟩
  | acknowledge key => exact absurd trivial hDirect
  | fail key error => exact absurd trivial hDirect
  | retryFailed other => exact ⟨inStep_operate h.1 _, entries_retryFailed_of_acknowledged h.2 hStatus⟩
  | retryFailedForTarget target =>
    exact ⟨inStep_operate h.1 _, keepsSettled_retryFailedForTarget run.outbox target key entry h.2 hSettled⟩
  | deliverNextPending => exact h.deliver hSettled run.remote
  | deliverNextPendingForTarget target => exact h.deliver hSettled run.remote
  | drainPendingOutbox maxAttempts =>
    exact @drain_invariant _ (Ipto.deliverNextPending writer.tracing) (fun outbox _ => Holds key entry outbox)
      (fun _ remote hNext => hNext.deliver hSettled remote) maxAttempts _ run.outbox run.remote h
  | drainPendingOutboxForTarget target maxAttempts =>
    exact @drain_invariant _ (Ipto.deliverNextPendingForTarget writer.tracing target)
      (fun outbox _ => Holds key entry outbox)
      (fun _ remote hNext => hNext.deliver hSettled remote) maxAttempts _ run.outbox run.remote h

theorem acknowledged_stays {remote : ω} {before after : List OutboxOperation}
    (hDirect : ∀ operation ∈ after, ¬operation.Direct) {key : IdempotencyKey}
    (h : (runOutbox writer remote before).outbox.statusOf key = some .acknowledged) :
    (runOutbox writer remote (before ++ after)).outbox.statusOf key = some .acknowledged := by
  obtain ⟨entry, hEntry, hStatus⟩ := Option.map_eq_some_iff.mp h
  have hHolds : Holds key entry (runOutbox writer remote (before ++ after)).outbox := by
    rw [runOutbox, List.foldl_append]
    exact List.foldlRecOn after (operate writer) (motive := fun run => Holds key entry run.outbox)
      ⟨inStep_runOutbox writer remote before, hEntry⟩
      fun _ hRun operation hOperation => holds_operate hRun hStatus (hDirect operation hOperation)
  rw [MetadataOutbox.statusOf, hHolds.2, Option.map_some, hStatus]

/-- Whatever is done to an outbox, its queue holds the pending keys once each. Unless statuses are set directly,
nothing is written again after it was accepted, nor after it was refused for good before `retry_failed` names it. -/
theorem outbox_runs_deliver_at_most_once (writer : IptoWriter ω) (remote : ω) (operations : List OutboxOperation) :
    let run := runOutbox writer remote operations
    (run.outbox.pending.Nodup ∧
      (∀ key : IdempotencyKey, key ∈ run.outbox.pending ↔
        ∃ entry, run.outbox.entries[key]? = some entry ∧ entry.status = .pending) ∧
      run.outbox.snapshot.total =
        run.outbox.snapshot.pending + run.outbox.snapshot.acknowledged + run.outbox.snapshot.failed ∧
      run.outbox.snapshot.queuedPending = run.outbox.snapshot.pending) ∧
    ((∀ operation ∈ operations, ¬operation.Direct) →
      (∀ before after key, operations = before ++ after →
        (runOutbox writer remote before).outbox.statusOf key = some .acknowledged →
          run.outbox.statusOf key = some .acknowledged) ∧
      (∀ before payload after, run.remote.2 = before ++ .written payload (.ok ()) :: after →
        ∀ event ∈ after, ¬event.Attempts payload.idempotencyKey) ∧
      ∀ before payload error between later after,
        run.remote.2 = before ++ .written payload (.error error) :: (between ++ later :: after) →
          error.retryable = false → later.Attempts payload.idempotencyKey →
            .retried payload.idempotencyKey ∈ between) := by
  intro run
  have hInStep : run.outbox.InStep := inStep_runOutbox writer remote operations
  refine ⟨⟨hInStep.nodup, fun key => ?_, run.outbox.snapshot_total, hInStep.snapshot_queued⟩, fun hDirect => ?_⟩
  · rw [hInStep.mem_pending, MetadataOutbox.statusOf, Option.map_eq_some_iff]
  have hGuarded := (reflects_runOutbox writer remote hDirect).guarded
  refine ⟨?_, ?_, ?_⟩
  · rintro before after key rfl hStatus
    exact acknowledged_stays (fun operation hOperation => hDirect operation (List.mem_append_right _ hOperation))
      hStatus
  · intro before payload after hSplit event hEvent hAttempts
    refine hGuarded.not_blocks hSplit ?_ hEvent ⟨payload, .ok (), rfl, trivial, hAttempts⟩
    rintro other - ⟨refused, error, hAnswer, -⟩
    cases hAnswer
  · intro before payload error between later after hSplit hPermanent hAttempts
    obtain ⟨event, hEvent, refused, cause, hAnswer, rfl⟩ :=
      hGuarded before _ between later after hSplit ⟨payload, .error error, rfl, hPermanent, hAttempts⟩
    cases hAnswer
    exact hEvent

end Whole

/-- A writer that refuses its first call for good and accepts the others. -/
def refusesOnce : IptoWriter Nat where
  write calls _ := (if calls = 0 then .error ⟨"unknown attribute", false⟩ else .ok (), calls + 1)

def untilAcknowledged : List OutboxOperation :=
  [.enqueue legacyPayload, .drainPendingOutbox 3, .retryFailedForTarget legacyPayload.target, .deliverNextPending,
    .retryFailed legacyPayload.idempotencyKey, .deliverNextPendingForTarget legacyPayload.target]

theorem statusOf_untilAcknowledged :
    (runOutbox refusesOnce 0 untilAcknowledged).outbox.statusOf legacyPayload.idempotencyKey =
      some .acknowledged := by
  decide +kernel

theorem outbox_runs_deliver_at_most_once_refused :
    (runOutbox refusesOnce 0 (untilAcknowledged ++ [.drainPendingOutbox 2])).outbox.statusOf
      legacyPayload.idempotencyKey = some .acknowledged :=
  ((outbox_runs_deliver_at_most_once refusesOnce 0 (untilAcknowledged ++ [.drainPendingOutbox 2])).2
    (by simp [untilAcknowledged, OutboxOperation.Direct])).1 untilAcknowledged [.drainPendingOutbox 2]
    legacyPayload.idempotencyKey rfl statusOf_untilAcknowledged

end Vannak.Ipto
