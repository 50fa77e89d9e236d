import Vannak.Foundation.Trials
import Vannak.Ipto.OutboxHistory

/-!
# Draining one target

Every delivery of a drain searches the queue anew. What it finds is the next of the entries that waited for the
target when the drain began, since answering an entry takes only its own key off the queue.
-/

namespace Vannak.Ipto

open Foundation

set_option autoImplicit false

namespace MetadataOutbox

def queued (outbox : MetadataOutbox) : List MetadataOutboxEntry :=
  outbox.pending.filterMap fun key => outbox.entries[key]?

/-- The pending entries of the target in the order of the queue. -/
def waitingFor (outbox : MetadataOutbox) (target : IptoInstanceId) : List MetadataOutboxEntry :=
  outbox.queued.filter fun entry => entry.status = .pending ∧ entry.payload.target = target

theorem nextPendingForTarget_eq_head? (outbox : MetadataOutbox) (target : IptoInstanceId) :
    outbox.nextPendingForTarget target = (outbox.waitingFor target).head? := by
  rw [waitingFor, List.head?_filter]
  rfl

theorem mem_waitingFor {outbox : MetadataOutbox} {target : IptoInstanceId} {entry : MetadataOutboxEntry}
    (h : outbox.InStep) :
    entry ∈ outbox.waitingFor target ↔
      outbox.entries[entry.payload.idempotencyKey]? = some entry ∧ entry.status = .pending ∧
        entry.payload.target = target := by
  rw [waitingFor, List.mem_filter, decide_eq_true_iff, queued, List.mem_filterMap]
  constructor
  · rintro ⟨⟨key, -, hEntry⟩, hAccepts⟩
    obtain rfl := h.key_of_entry key entry hEntry
    exact ⟨hEntry, hAccepts⟩
  · rintro ⟨hEntry, hAccepts⟩
    refine ⟨⟨_, (h.mem_pending _).mpr ?_, hEntry⟩, hAccepts⟩
    rw [statusOf, hEntry, Option.map_some, hAccepts.1]

namespace InStep

variable {outbox : MetadataOutbox}

theorem map_key_queued (h : outbox.InStep) :
    (outbox.queued.map fun entry => entry.payload.idempotencyKey) = outbox.pending := by
  rw [queued, List.map_filterMap]
  refine (List.filterMap_congr fun key hKey => ?_).trans List.filterMap_some
  obtain ⟨entry, hEntry, -⟩ := h.entry_of_pending hKey
  rw [hEntry, Option.map_some, h.key_of_entry key entry hEntry]

theorem nodup_waitingFor (h : outbox.InStep) (target : IptoInstanceId) :
    ((outbox.waitingFor target).map fun entry => entry.payload.idempotencyKey).Nodup := by
  have hQueued : (outbox.queued.map fun entry => entry.payload.idempotencyKey).Nodup := by
    rw [h.map_key_queued]
    exact h.nodup
  exact hQueued.sublist (List.filter_sublist.map _)

theorem queued_settle (h : outbox.InStep) (entry : MetadataOutboxEntry) (answer : Except IptoWriteError Unit) :
    (outbox.settle entry answer).queued =
      outbox.queued.filter fun other => other.payload.idempotencyKey ≠ entry.payload.idempotencyKey := by
  rw [queued, queued, List.filter_filterMap]
  simp only [getElem?_settle]
  rw [MetadataOutbox.settle, List.filterMap_filter]
  refine List.filterMap_congr fun key hKey => ?_
  obtain ⟨found, hFound, -⟩ := h.entry_of_pending hKey
  obtain rfl := h.key_of_entry key found hFound
  rw [hFound]
  by_cases hSame : found.payload.idempotencyKey = entry.payload.idempotencyKey
  · simp [hSame, Option.filter]
  · simp [hSame, Ne.symm hSame, Option.filter]

theorem waitingFor_settle (h : outbox.InStep) {target : IptoInstanceId} {entry : MetadataOutboxEntry}
    {rest : List MetadataOutboxEntry} (hWaiting : outbox.waitingFor target = entry :: rest)
    (answer : Except IptoWriteError Unit) : (outbox.settle entry answer).waitingFor target = rest := by
  have hNodup := h.nodup_waitingFor target
  rw [hWaiting, List.map_cons, List.nodup_cons] at hNodup
  have hOthers : ∀ other ∈ rest, other.payload.idempotencyKey ≠ entry.payload.idempotencyKey :=
    fun other hOther hEq => hNodup.1 (hEq ▸ List.mem_map_of_mem hOther)
  rw [waitingFor, h.queued_settle, List.filter_comm, ← waitingFor, hWaiting, List.filter_cons_of_neg (by simp),
    List.filter_eq_self]
  exact fun other hOther => decide_eq_true (hOthers other hOther)

end InStep

/-! ## Answered entries -/

abbrev Answered := MetadataOutboxEntry × Except IptoWriteError Unit

/-- The outbox after these entries were answered one after another. -/
def settleAll (outbox : MetadataOutbox) (answers : List Answered) : MetadataOutbox :=
  answers.foldl (fun outbox answered => outbox.settle answered.1 answered.2) outbox

def answeredKeys (answers : List Answered) : List IdempotencyKey :=
  answers.map fun answered => answered.1.payload.idempotencyKey

theorem pending_settleAll (outbox : MetadataOutbox) (answers : List Answered) :
    (outbox.settleAll answers).pending = outbox.pending.filter (· ∉ answeredKeys answers) := by
  induction answers generalizing outbox with
  | nil => simp [settleAll, answeredKeys]
  | cons answered answers ih =>
    rw [settleAll, List.foldl_cons, ← settleAll, ih, settle, List.filter_filter]
    refine List.filter_congr fun key _ => ?_
    rw [answeredKeys, answeredKeys, List.map_cons, Bool.and_comm]
    simp [beq_eq_decide]

theorem getElem?_settleAll_of_not_mem {answers : List Answered} {key : IdempotencyKey}
    (h : key ∉ answeredKeys answers) (outbox : MetadataOutbox) :
    (outbox.settleAll answers).entries[key]? = outbox.entries[key]? := by
  induction answers generalizing outbox with
  | nil => rfl
  | cons answered answers ih =>
    rw [answeredKeys, List.map_cons, List.mem_cons, not_or] at h
    rw [settleAll, List.foldl_cons, ← settleAll, ih h.2, getElem?_settle, if_neg (Ne.symm h.1)]

theorem getElem?_settleAll_of_mem {answers : List Answered} (hNodup : (answeredKeys answers).Nodup)
    {answered : Answered} (h : answered ∈ answers) (outbox : MetadataOutbox) :
    (outbox.settleAll answers).entries[answered.1.payload.idempotencyKey]? =
      some (answered.1.answered answered.2) := by
  induction answers generalizing outbox with
  | nil => cases h
  | cons first answers ih =>
    rw [answeredKeys, List.map_cons, List.nodup_cons] at hNodup
    rw [settleAll, List.foldl_cons, ← settleAll]
    rcases List.mem_cons.mp h with rfl | h
    · rw [getElem?_settleAll_of_not_mem hNodup.1, getElem?_settle, if_pos rfl]
    · exact ih hNodup.2 h _

end MetadataOutbox

/-! ## The drain -/

def RetryableFailure : Except IptoWriteError Unit → Bool
  | .ok () => false
  | .error error => error.retryable

def Accepted : Except IptoWriteError Unit → Bool
  | .ok () => true
  | .error _ => false

namespace MetadataOutboxDrainSummary

/-- The summary after these answers. -/
def after (summary : MetadataOutboxDrainSummary) (answers : List MetadataOutbox.Answered) :
    MetadataOutboxDrainSummary where
  attempted := summary.attempted + answers.length
  acknowledged := summary.acknowledged + answers.countP fun answered => Accepted answered.2
  failed := summary.failed + answers.countP fun answered => !Accepted answered.2
  stoppedAfterFailure := summary.stoppedAfterFailure || answers.any fun answered => RetryableFailure answered.2

theorem after_nil (summary : MetadataOutboxDrainSummary) : summary.after [] = summary := by
  simp [after]

theorem after_cons (summary : MetadataOutboxDrainSummary) (answered : MetadataOutbox.Answered)
    (answers : List MetadataOutbox.Answered) :
    summary.after (answered :: answers) = (summary.after [answered]).after answers := by
  simp only [after, List.length_cons, List.length_nil, List.countP_cons, List.countP_nil, List.any_cons, List.any_nil,
    Bool.or_false, Bool.or_assoc]
  congr 1 <;> omega

end MetadataOutboxDrainSummary

section Drain

variable {ω : Type} (writer : IptoWriter ω) (target : IptoInstanceId)

/-- What the writer is asked about an entry. -/
def askWriter (remote : ω) (entry : MetadataOutboxEntry) : Except IptoWriteError Unit × ω :=
  writer.write remote entry.payload

def attempt (maxAttempts : Nat) (entries : List MetadataOutboxEntry) (remote : ω) :
    List MetadataOutbox.Answered × ω :=
  tryEach (askWriter writer) RetryableFailure maxAttempts entries remote

/-- One round of the loop, by the answer that the writer gives. -/
theorem drain_succ {outbox : MetadataOutbox} {entry : MetadataOutboxEntry}
    (hNext : outbox.nextPendingForTarget target = some entry)
    (hEntry : outbox.entries[entry.payload.idempotencyKey]? = some entry) (attempts : Nat)
    {summary : MetadataOutboxDrainSummary} (hFlag : summary.stoppedAfterFailure = false) (remote : ω) :
    drain (deliverNextPendingForTarget writer target) (attempts + 1) summary outbox remote =
      if RetryableFailure (askWriter writer remote entry).1 then
        (summary.after [(entry, (askWriter writer remote entry).1)],
          outbox.settle entry (askWriter writer remote entry).1, (askWriter writer remote entry).2)
      else
        drain (deliverNextPendingForTarget writer target) attempts
          (summary.after [(entry, (askWriter writer remote entry).1)])
          (outbox.settle entry (askWriter writer remote entry).1) (askWriter writer remote entry).2 := by
  rw [drain, deliverNextPendingForTarget, hNext, MetadataOutbox.deliver_some writer hEntry, ← askWriter]
  obtain ⟨answer, next⟩ := askWriter writer remote entry
  cases answer with
  | ok done =>
    simp [MetadataOutboxDeliveryResult.ofAnswer, RetryableFailure, MetadataOutboxDrainSummary.after, Accepted]
  | error error =>
    simp [MetadataOutboxDeliveryResult.ofAnswer, RetryableFailure, MetadataOutboxDrainSummary.after, Accepted, hFlag]

theorem drain_eq_attempt {outbox : MetadataOutbox} (h : outbox.InStep) (attempts : Nat)
    {summary : MetadataOutboxDrainSummary} (hFlag : summary.stoppedAfterFailure = false) (remote : ω) :
    drain (deliverNextPendingForTarget writer target) attempts summary outbox remote =
      (summary.after (attempt writer attempts (outbox.waitingFor target) remote).1,
        outbox.settleAll (attempt writer attempts (outbox.waitingFor target) remote).1,
        (attempt writer attempts (outbox.waitingFor target) remote).2) := by
  induction attempts generalizing outbox summary remote with
  | zero =>
    rw [drain, attempt, tryEach, MetadataOutboxDrainSummary.after_nil]
    rfl
  | succ attempts ih =>
    have hNext := outbox.nextPendingForTarget_eq_head? target
    cases hWaiting : outbox.waitingFor target with
    | nil =>
      rw [hWaiting, List.head?_nil] at hNext
      rw [drain, deliverNextPendingForTarget, hNext, attempt, tryEach, MetadataOutboxDrainSummary.after_nil]
      rfl
    | cons entry rest =>
      rw [hWaiting, List.head?_cons] at hNext
      obtain ⟨-, hEntry, -⟩ := h.of_find hNext
      rw [drain_succ writer target hNext hEntry attempts hFlag, attempt, tryEach_cons]
      split
      · rfl
      · rename_i hProceeds
        have hStill : (summary.after [(entry, (askWriter writer remote entry).1)]).stoppedAfterFailure = false := by
          simpa [MetadataOutboxDrainSummary.after, hFlag] using hProceeds
        rw [ih (h.settle entry _) hStill, h.waitingFor_settle hWaiting, ← MetadataOutboxDrainSummary.after_cons]
        rfl

end Drain

/-- The outbox of some run in memory. -/
def MetadataOutbox.ReachableInMemory (outbox : MetadataOutbox) : Prop :=
  ∃ (ω : Type) (writer : IptoWriter ω) (remote : ω) (operations : List OutboxOperation),
    (runOutbox writer remote operations).outbox = outbox

theorem MetadataOutbox.inStep_of_reachable {outbox : MetadataOutbox}
    (h : outbox.Reachable ∨ outbox.ReachableInMemory) : outbox.InStep := by
  rcases h with hSegment | ⟨ω, writer, remote, operations, rfl⟩
  · obtain ⟨ledger, calls, hFollows⟩ := hSegment.kept
    exact hFollows.inStep
  · exact inStep_runOutbox writer remote operations

theorem countP_accepted (answers : List MetadataOutbox.Answered) :
    answers.length = (answers.countP fun answered => Accepted answered.2) +
      answers.countP fun answered => !Accepted answered.2 := by
  rw [List.length_eq_countP_add_countP fun answered : MetadataOutbox.Answered => Accepted answered.2]
  simp

/-- A drain attempts the first of the entries waiting for its target, in the order of the queue, until none is left,
the attempts are used up or one fails retryably. It answers what it attempts and touches nothing else. -/
theorem drainPendingOutboxForTarget_exact {ω : Type} (writer : IptoWriter ω) (target : IptoInstanceId)
    {outbox : MetadataOutbox} (hReachable : outbox.Reachable ∨ outbox.ReachableInMemory) (remote : ω)
    (maxAttempts : Nat) :
    let waiting := outbox.waitingFor target
    let (summary, drained, next) := drainPendingOutboxForTarget writer target outbox remote maxAttempts
    ∃ answers : List MetadataOutbox.Answered,
      askEach (askWriter writer) (waiting.take summary.attempted) remote = (answers, next) ∧
      answers.length = summary.attempted ∧ (MetadataOutbox.answeredKeys answers).Nodup ∧
      (summary.attempted = waiting.length ∨ summary.attempted = maxAttempts ∨
        ∃ last, answers.getLast? = some last ∧ RetryableFailure last.2 = true) ∧
      (∀ answered ∈ answers.dropLast, RetryableFailure answered.2 = false) ∧
      summary.acknowledged = (answers.countP fun answered => Accepted answered.2) ∧
      summary.failed = (answers.countP fun answered => !Accepted answered.2) ∧
      summary.attempted = summary.acknowledged + summary.failed ∧ summary.attempted ≤ maxAttempts ∧
      (summary.stoppedAfterFailure = true ↔
        ∃ last, answers.getLast? = some last ∧ RetryableFailure last.2 = true) ∧
      (∀ answered ∈ answers, drained.entries[answered.1.payload.idempotencyKey]? =
        some (answered.1.answered answered.2)) ∧
      (∀ key : IdempotencyKey, key ∉ MetadataOutbox.answeredKeys answers →
        drained.entries[key]? = outbox.entries[key]?) ∧
      (∀ (key : IdempotencyKey) (entry : MetadataOutboxEntry), outbox.entries[key]? = some entry →
        entry.payload.target ≠ target → drained.entries[key]? = some entry) ∧
      drained.pending = outbox.pending.filter (· ∉ MetadataOutbox.answeredKeys answers) := by
  have h := MetadataOutbox.inStep_of_reachable hReachable
  rw [drainPendingOutboxForTarget, drain_eq_attempt writer target h maxAttempts rfl]
  have hTried := tried_tryEach (askWriter writer) RetryableFailure maxAttempts (outbox.waitingFor target) remote
  have hAsked := tryEach_eq_askEach (askWriter writer) RetryableFailure maxAttempts (outbox.waitingFor target) remote
  rw [← attempt] at hTried hAsked
  rcases hAttempt : attempt writer maxAttempts (outbox.waitingFor target) remote with ⟨answers, next⟩
  rw [hAttempt] at hTried hAsked
  have hItems : answers.map Prod.fst = (outbox.waitingFor target).take answers.length := by
    have hAnswers := congrArg (fun pair => pair.1.map Prod.fst) hAsked
    rwa [map_fst_askEach] at hAnswers
  have hKeys : MetadataOutbox.answeredKeys answers =
      ((outbox.waitingFor target).take answers.length).map fun entry => entry.payload.idempotencyKey := by
    rw [← hItems, List.map_map]
    rfl
  have hNodup : (MetadataOutbox.answeredKeys answers).Nodup := by
    rw [hKeys]
    exact (h.nodup_waitingFor target).sublist ((List.take_sublist _ _).map _)
  have hOthers : ∀ key : IdempotencyKey, key ∉ MetadataOutbox.answeredKeys answers →
      (outbox.settleAll answers).entries[key]? = outbox.entries[key]? :=
    fun key hKey => MetadataOutbox.getElem?_settleAll_of_not_mem hKey outbox
  simp only [MetadataOutboxDrainSummary.after, Nat.zero_add, Bool.false_or]
  refine ⟨answers, hAsked.symm, rfl, hNodup, hTried.ends, hTried.proceeds, rfl, rfl, countP_accepted answers,
    hTried.length_le, hTried.any_iff, ?_, hOthers, ?_, outbox.pending_settleAll answers⟩
  · exact fun answered hAnswered => MetadataOutbox.getElem?_settleAll_of_mem hNodup hAnswered outbox
  · intro key entry hEntry hTarget
    rw [hOthers key, hEntry]
    rw [hKeys, List.mem_map]
    rintro ⟨attempted, hAttempted, rfl⟩
    obtain ⟨hFound, -, hSame⟩ := (MetadataOutbox.mem_waitingFor h).mp (List.mem_of_mem_take hAttempted)
    rw [hEntry] at hFound
    exact hTarget (Option.some.inj hFound ▸ hSame)

def otherTargetPayload : IptoWritePayload := { legacyPayload with
  target := ⟨"ipto-b"⟩
  idempotencyKey := ⟨"data:other"⟩ }

def mixedTargets : OutboxRun Nat :=
  runOutbox refusesOnce 0 [.enqueue legacyPayload, .enqueue otherTargetPayload,
    .enqueue { legacyPayload with idempotencyKey := ⟨"data:last"⟩ }]

def mixedDrain : MetadataOutboxDrainSummary × MetadataOutbox × Nat :=
  drainPendingOutboxForTarget refusesOnce legacyPayload.target mixedTargets.outbox 0 5

theorem otherTarget_pending :
    (mixedTargets.outbox.entries[otherTargetPayload.idempotencyKey]?).map
      (fun entry => (entry.payload.target, entry.status)) = some (otherTargetPayload.target, .pending) := by
  decide +kernel

theorem drainPendingOutboxForTarget_exact_mixed :
    mixedDrain.1 = ⟨2, 1, 1, false⟩ ∧
      mixedDrain.2.1.statusOf otherTargetPayload.idempotencyKey = some .pending := by
  have hExact := drainPendingOutboxForTarget_exact refusesOnce legacyPayload.target
    (.inr ⟨Nat, refusesOnce, 0, _, rfl⟩ : mixedTargets.outbox.Reachable ∨ mixedTargets.outbox.ReachableInMemory) 0 5
  obtain ⟨entry, hEntry, hFacts⟩ := Option.map_eq_some_iff.mp otherTarget_pending
  obtain ⟨hTarget, hStatus⟩ := Prod.mk.inj hFacts
  have hOther : entry.payload.target ≠ legacyPayload.target := by
    rw [hTarget]
    decide
  refine ⟨by decide +kernel, ?_⟩
  rcases hDrain : mixedDrain with ⟨summary, drained, next⟩
  rw [mixedDrain] at hDrain
  rw [hDrain] at hExact
  obtain ⟨answers, -, -, -, -, -, -, -, -, -, -, -, -, hKept, -⟩ := hExact
  rw [MetadataOutbox.statusOf, hKept _ entry hEntry hOther, Option.map_some, hStatus]

end Vannak.Ipto
