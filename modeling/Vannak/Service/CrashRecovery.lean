import Vannak.Service.DurableAppends

/-!
# Recovery after a crash in the middle of an append

The process may stop between two `write` calls of an append, and the file then ends in a
proper prefix of a frame. Both recoveries first replay the segment and then scan it again
for `open_append`, and both readers refuse such a prefix unless it is empty.
-/

namespace Vannak.Service

open Foundation Storage Ingest Ipto

set_option autoImplicit false

/-- A proper prefix of the frame of a record that could have been appended. -/
def ProperPrefix (payload torn : Bytes) : Prop :=
  Sized payload ∧ ∃ rest, frame payload = torn ++ rest ∧ rest ≠ []

theorem openAppend_properPrefix {payloads : List Bytes} (h : ∀ payload ∈ payloads, Sized payload)
    {payload torn : Bytes} (hTorn : ProperPrefix payload torn) (path : PathBuf) (segmentId : SegmentId)
    (nodeId : NodeId) {next : SegmentWriter}
    (hOpen : SegmentWriter.openAppend (segmentBytes payloads ++ torn) path segmentId nodeId = .ok next) :
    torn = [] := by
  obtain ⟨hSized, rest, hFrame, hRest⟩ := hTorn
  by_contra hNonempty
  exact SegmentWriter.openAppend_torn h hSized hFrame hNonempty hRest path segmentId nodeId next hOpen

/-- On a healthy disk every run serves what it acknowledges. -/
theorem serves_healthy {σ ι ο : Type} (machine : Appender σ ι ο) {state : σ} {payloads : List Bytes}
    (h : (machine.writer state).Holds payloads) {inputs : List ι}
    (hHealthy : ∀ state, ∀ input ∈ inputs, ∀ attempt, machine.attempt? state input = some attempt →
      attempt.disk = .healthy) :
    machine.Serves (run machine.step state inputs).1 (run machine.step state inputs).2 := by
  refine (Appender.serves_until_torn h ?_).1
  clear h
  induction inputs generalizing state with
  | nil => trivial
  | cons input inputs ih =>
    refine ⟨fun attempt hAttempt => ?_, ih fun state other hOther =>
      hHealthy state other (List.mem_cons_of_mem input hOther)⟩
    obtain ⟨disk, payload⟩ := attempt
    obtain rfl : disk = .healthy := hHealthy state input List.mem_cons_self _ hAttempt
    exact Attempt.harmless_healthy payload

/-! ## The outbox -/

/-- The payloads that the enqueues of a run accepted, in order. -/
def storedPayloads (past : List (OutboxStep × OutboxAnswer)) : List IptoWritePayload :=
  past.filterMap fun
    | (.enqueueDurable payload, .enqueued (.ok (.enqueued _))) => some payload
    | _ => none

theorem storedPayloads_concat (past : List (OutboxStep × OutboxAnswer)) (call : OutboxStep × OutboxAnswer) :
    storedPayloads (past ++ [call]) = storedPayloads past ++ storedPayloads [call] := by
  rw [storedPayloads, List.filterMap_append]
  rfl

theorem stores_step {ω : Type} (writer : IptoWriter ω) (past : List (OutboxStep × OutboxAnswer))
    (system : OutboxSystem ω) (step : OutboxStep) (h : system.Stores (storedPayloads past)) :
    (outboxStep writer system step).2.Stores
      (storedPayloads (past ++ [(step, (outboxStep writer system step).1)])) := by
  rw [storedPayloads_concat]
  by_cases hEnqueue : ∃ payload, step = .enqueueDurable payload
  · obtain ⟨payload, rfl⟩ := hEnqueue
    rcases enqueueDurable_stores writer h payload with ⟨hSame, hNot⟩ | ⟨hAnswer, hNext⟩
    · have hNothing : storedPayloads [(OutboxStep.enqueueDurable payload,
          (outboxStep writer system (.enqueueDurable payload)).1)] = [] := by
        rw [storedPayloads, List.filterMap_cons]
        split
        · rfl
        · rename_i hSome
          split at hSome
          · rename_i hCall
            exact absurd (Prod.mk.inj hCall).2 (hNot _)
          · cases hSome
      rw [hNothing, hSame, List.append_nil]
      exact h
    · rw [hAnswer]
      exact hNext
  · rw [not_exists] at hEnqueue
    have hNothing : storedPayloads [(step, (outboxStep writer system step).1)] = [] := by
      cases step with
      | enqueueDurable payload => exact absurd rfl (hEnqueue payload)
      | _ => rfl
    rw [hNothing, List.append_nil]
    exact outboxStep_stores writer h hEnqueue

/-- `recover_after(.., None)` gives back these payloads in order, all pending, and a writer
that serves what it acknowledges. -/
def OutboxRecovers (file : Bytes) (payloads : List IptoWritePayload) : Prop :=
  ∀ path segmentId nodeId, ∃ durable summary,
    SegmentBackedMetadataOutbox.recoverAfter file path segmentId nodeId none = .ok (durable, summary) ∧
    (∀ key, durable.outbox.recorded key = (ledgerFrom 8 payloads).lookup key) ∧
    durable.outbox.pending = payloads.map IptoWritePayload.idempotencyKey ∧
    ∀ more : List IptoWritePayload, outboxAppender.Serves
      (run outboxAppender.step durable (more.map fun payload => (.healthy, payload))).1
      (run outboxAppender.step durable (more.map fun payload => (.healthy, payload))).2

theorem outboxRecovers_iff {ω : Type} {system : OutboxSystem ω} {payloads : List IptoWritePayload}
    (h : system.Stores payloads) {payload torn : Bytes} (hTorn : ProperPrefix payload torn) :
    OutboxRecovers (system.durable.writer.file ++ torn) payloads ↔ torn = [] := by
  constructor
  · intro hRecovers
    obtain ⟨durable, summary, hRecover, -⟩ := hRecovers system.durable.writer.path
      system.durable.writer.segmentId system.durable.writer.nodeId
    obtain ⟨replay, -, hRest⟩ := ok_of_bind hRecover
    obtain ⟨next, hOpen, -⟩ := ok_of_bind hRest
    rw [h.holds.file] at hOpen
    exact openAppend_properPrefix h.holds.sized hTorn _ _ _ (ok_of_mapError hOpen)
  · rintro rfl path segmentId nodeId
    rw [List.append_nil]
    obtain ⟨durable, summary, hRecover, hHolds, hFollows, hPending⟩ :=
      recoverAfter_holds h.holds h.distinct path segmentId nodeId
    refine ⟨durable, summary, hRecover, hFollows.recorded, hPending, fun more => ?_⟩
    refine serves_healthy outboxAppender hHolds fun state input hInput attempt hAttempt => ?_
    obtain ⟨payload, -, rfl⟩ := List.mem_map.mp hInput
    simp only [outboxAppender] at hAttempt
    split at hAttempt
    · cases hAttempt
    · cases hAttempt
      rfl

/-! ## The journal -/

inductive JournalStep where
  | appendDurable (event : PipelineEvent)
  | recover (segmentId : SegmentId) (nodeId : NodeId)
deriving DecidableEq

inductive JournalAnswer where
  | appended (result : Except ProcessEventJournalError RecordOffset)
  | recovered (result : Except ProcessEventJournalError ProcessEventReplay)
deriving DecidableEq

def journalStep (journal : ProcessEventJournal) : JournalStep → JournalAnswer × ProcessEventJournal
  | .appendDurable event =>
    let (result, journal) := journal.appendDurable event
    (.appended result, journal)
  | .recover segmentId nodeId =>
    match ProcessEventJournal.recover journal.writer.file journal.writer.path segmentId nodeId with
    | .error error => (.recovered (.error error), journal)
    | .ok (journal, replay) => (.recovered (.ok replay), journal)

/-- The events that the appends of a run accepted, in order. -/
def journaledEvents (past : List (JournalStep × JournalAnswer)) : List PipelineEvent :=
  past.filterMap fun
    | (.appendDurable event, .appended (.ok _)) => some event
    | _ => none

theorem journaledEvents_concat (past : List (JournalStep × JournalAnswer)) (call : JournalStep × JournalAnswer) :
    journaledEvents (past ++ [call]) = journaledEvents past ++ journaledEvents [call] := by
  rw [journaledEvents, List.filterMap_append]
  rfl

theorem recover_holds {journal : ProcessEventJournal} {events : List PipelineEvent}
    (h : journal.Holds events) (path : PathBuf) (segmentId : SegmentId) (nodeId : NodeId) :
    ∃ next replay, ProcessEventJournal.recover journal.writer.file path segmentId nodeId = .ok (next, replay) ∧
      next.Holds events ∧ replay.events.map JournaledPipelineEvent.event = events := by
  obtain ⟨replay, hReplay, hEvents⟩ := h.replay
  obtain ⟨next, hOpen, hHolds⟩ := h.written.reopen path segmentId nodeId
  refine ⟨⟨next⟩, replay, ?_, ⟨h.valid, hHolds⟩, hEvents⟩
  rw [ProcessEventJournal.recover, hReplay, hOpen]
  rfl

theorem holds_step (past : List (JournalStep × JournalAnswer)) (journal : ProcessEventJournal)
    (step : JournalStep) (h : journal.Holds (journaledEvents past)) :
    (journalStep journal step).2.Holds (journaledEvents (past ++ [(step, (journalStep journal step).1)])) := by
  rw [journaledEvents_concat]
  cases step with
  | appendDurable event =>
    rw [journalStep]
    rcases h.appendDurable event with ⟨-, offset, next, hAppend, hNext⟩ | ⟨error, hAppend⟩
    · simp only [hAppend]
      exact hNext
    · simp only [hAppend]
      rw [journaledEvents, journaledEvents, List.filterMap_cons_none rfl, List.filterMap_nil, List.append_nil]
      exact h
  | recover segmentId nodeId =>
    obtain ⟨next, replay, hRecover, hHolds, -⟩ := recover_holds h journal.writer.path segmentId nodeId
    rw [journalStep, hRecover]
    rw [journaledEvents, journaledEvents, List.filterMap_cons_none rfl, List.filterMap_nil, List.append_nil]
    exact hHolds

/-- `recover` replays these events in order and gives a writer that serves what it
acknowledges. -/
def JournalRecovers (file : Bytes) (events : List PipelineEvent) : Prop :=
  ∀ path segmentId nodeId, ∃ journal replay,
    ProcessEventJournal.recover file path segmentId nodeId = .ok (journal, replay) ∧
    replay.events.map JournaledPipelineEvent.event = events ∧
    ∀ more : List PipelineEvent, journalAppender.Serves
      (run journalAppender.step journal (more.map fun event => (.healthy, event))).1
      (run journalAppender.step journal (more.map fun event => (.healthy, event))).2

theorem journalRecovers_iff {journal : ProcessEventJournal} {events : List PipelineEvent}
    (h : journal.Holds events) {payload torn : Bytes} (hTorn : ProperPrefix payload torn) :
    JournalRecovers (journal.writer.file ++ torn) events ↔ torn = [] := by
  constructor
  · intro hRecovers
    obtain ⟨next, replay, hRecover, -⟩ := hRecovers journal.writer.path journal.writer.segmentId
      journal.writer.nodeId
    obtain ⟨replay, -, hRest⟩ := ok_of_bind hRecover
    obtain ⟨writer, hOpen, -⟩ := ok_of_bind hRest
    rw [h.written.file] at hOpen
    exact openAppend_properPrefix h.written.sized hTorn _ _ _ (ok_of_mapError hOpen)
  · rintro rfl path segmentId nodeId
    rw [List.append_nil]
    obtain ⟨next, replay, hRecover, hHolds, hEvents⟩ := recover_holds h path segmentId nodeId
    refine ⟨next, replay, hRecover, hEvents, fun more => ?_⟩
    refine serves_healthy journalAppender hHolds.written fun state input hInput attempt hAttempt => ?_
    obtain ⟨event, -, rfl⟩ := List.mem_map.mp hInput
    simp only [journalAppender] at hAttempt
    split at hAttempt
    · cases hAttempt
      rfl
    · cases hAttempt

/-! ## Both recoveries -/

def crashedEvent : PipelineEvent :=
  .new ⟨"event-1"⟩ ⟨"durga"⟩ 1 ⟨"tenant"⟩ ⟨"prod"⟩ ⟨"invoice"⟩ ⟨"definition"⟩ ⟨"instance-1"⟩
    ⟨"2026-06-20T10:00:00Z"⟩ .processStarted

end Vannak.Service
