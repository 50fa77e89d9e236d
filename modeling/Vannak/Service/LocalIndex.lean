import Vannak.Process.Duplicates
import Vannak.Service.ProcessEvents

/-!
# The service with a local index

`VannakService` over `ProcessIndex::Local`, one hot index and no mailboxes. A durable ingest looks
the event up, journals it and ingests it, so the index is what the journal rebuilds, counters
included.
-/

namespace Vannak.Service

open Foundation Storage Ingest Process

set_option autoImplicit false

structure LocalService where
  hotIndex : HotIndex
  processEventJournal : Option ProcessEventJournal

namespace LocalService

def new (journal : ProcessEventJournal) : LocalService := ⟨HotIndex.new, some journal⟩

def ingestProcessEventDurable (service : LocalService) (event : PipelineEvent) :
    Except VannakServiceError DurableProcessIngestResult × LocalService :=
  match event.validate with
  | .error error => (.error (.processIngest error), service)
  | .ok () =>
    match service.processEventJournal with
    | none => (.error .processEventJournalNotConfigured, service)
    | some journal =>
      if service.hotIndex.containsEvent event.eventId then
        (.ok ⟨.duplicate, journal.writer.manifest.byteLen⟩, service)
      else
        match journal.appendDurable event with
        | (.error error, journal) =>
          (.error (.processEventJournal error), { service with processEventJournal := some journal })
        | (.ok offset, journal) =>
          match service.hotIndex.ingest event with
          | (.error error, hotIndex) => (.error (.processIngest error), ⟨hotIndex, some journal⟩)
          | (.ok outcome, hotIndex) => (.ok ⟨outcome, offset⟩, ⟨hotIndex, some journal⟩)

end LocalService

def replayIntoLocal (hotIndex : HotIndex) (event : JournaledPipelineEvent) : Except VannakServiceError HotIndex :=
  match hotIndex.ingest event.event with
  | (.error error, _) => .error (.processIngest error)
  | (.ok _, hotIndex) => .ok hotIndex

/-- `recover_process_events_into_hot_index` over a local index. -/
def recoverProcessEventsIntoLocalIndex (hotIndex : HotIndex) (file : Bytes) :
    Except VannakServiceError (ProcessEventReplaySummary × HotIndex) := do
  let replay ← (replayProcessEventSegment file).mapError .processEventJournal
  let hotIndex ← replay.events.foldlM replayIntoLocal hotIndex
  return (replay.summary, hotIndex)

/-! ## Replaying events -/

theorem replayIntoLocal_of_valid {event : JournaledPipelineEvent} (h : event.event.validate = .ok ())
    (hotIndex : HotIndex) : replayIntoLocal hotIndex event = .ok (hotIndex.ingest event.event).2 := by
  rw [replayIntoLocal, HotIndex.ingest, h]
  by_cases hKnown : event.event.eventId ∈ hotIndex.eventsById
  · simp only [if_pos hKnown]
  · simp only [if_neg hKnown]

theorem foldlM_replayIntoLocal {events : List JournaledPipelineEvent}
    (h : ∀ event ∈ events, event.event.validate = .ok ()) (hotIndex : HotIndex) :
    events.foldlM replayIntoLocal hotIndex =
      .ok (hotIndex.ingestAll (events.map JournaledPipelineEvent.event)) := by
  induction events generalizing hotIndex with
  | nil => rfl
  | cons event events ih =>
    obtain ⟨hEvent, hEvents⟩ := List.forall_mem_cons.mp h
    rw [List.foldlM_cons, replayIntoLocal_of_valid hEvent]
    exact ih hEvents _

/-- A segment of valid events replays into any index as those events. -/
theorem recoverProcessEventsIntoLocalIndex_segmentBytes {events : List PipelineEvent}
    (hValid : ∀ event ∈ events, event.validate = .ok ())
    (hSized : ∀ event ∈ events, Sized (encodePipelineEvent event)) (hotIndex : HotIndex) :
    recoverProcessEventsIntoLocalIndex hotIndex (segmentBytes (events.map encodePipelineEvent)) =
      .ok (⟨events.length, events.length⟩, hotIndex.ingestAll events) := by
  have hEvents := ProcessEventJournal.map_event_journaledFrom 8 events
  have hJournaled : ∀ event ∈ ProcessEventJournal.journaledFrom 8 events, event.event.validate = .ok () := by
    intro event hEvent
    exact hValid _ (hEvents ▸ List.mem_map_of_mem hEvent)
  have hLength : (ProcessEventJournal.journaledFrom 8 events).length = events.length := by
    rw [← List.length_map JournaledPipelineEvent.event, hEvents]
  have hFold := foldlM_replayIntoLocal hJournaled hotIndex
  rw [hEvents] at hFold
  rw [recoverProcessEventsIntoLocalIndex, ProcessEventJournal.replayProcessEventSegment_segmentBytes hValid hSized,
    hLength]
  exact ok_bind hFold _

/-! ## Repeated events -/

/-- Repetitions of an event after its first occurrence count as duplicates and do nothing else. -/
theorem withoutDuplicates_ingestAll_eraseDups {events : List PipelineEvent}
    (h : ∀ event ∈ events, event.validate = .ok ()) (hotIndex : HotIndex) :
    (hotIndex.ingestAll events).withoutDuplicates = (hotIndex.ingestAll events.eraseDups).withoutDuplicates := by
  induction events using List.reverseRecOn with
  | nil => rfl
  | append_singleton events event ih =>
    obtain ⟨hEvents, hEvent⟩ := List.forall_mem_append.mp h
    have hValid := hEvent event (List.mem_singleton_self event)
    rw [HotIndex.ingestAll_concat, eraseDups_concat]
    split
    · rename_i hRepeated
      have hKnown := HotIndex.mem_eventsById_ingestAll hValid hRepeated hotIndex
      rw [HotIndex.withoutDuplicates_ingest_of_mem hValid hKnown]
      exact ih hEvents
    · rw [HotIndex.ingestAll_concat]
      exact HotIndex.withoutDuplicates_ingest_congr (ih hEvents) event

theorem withoutDuplicates_ingestAll_of_known {events : List PipelineEvent} {hotIndex : HotIndex}
    (hValid : ∀ event ∈ events, event.validate = .ok ())
    (h : ∀ event ∈ events, event.eventId ∈ hotIndex.eventsById) :
    (hotIndex.ingestAll events).withoutDuplicates = hotIndex.withoutDuplicates := by
  induction events using List.reverseRecOn with
  | nil => rfl
  | append_singleton events event ih =>
    obtain ⟨hEvents, hEvent⟩ := List.forall_mem_append.mp hValid
    obtain ⟨hEarlier, hLast⟩ := List.forall_mem_append.mp h
    have hSame := ih hEvents hEarlier
    have hMaps : (hotIndex.ingestAll events).eventsById = hotIndex.eventsById :=
      congrArg (fun index => index.eventsById) hSame
    have hKnown : event.eventId ∈ (hotIndex.ingestAll events).eventsById := by
      rw [hMaps]
      exact hLast event (List.mem_singleton_self event)
    rw [HotIndex.ingestAll_concat,
      HotIndex.withoutDuplicates_ingest_of_mem (hEvent event (List.mem_singleton_self event)) hKnown, hSame]

/-! ## The run -/

/-- What the call reports: the event and where its record is. -/
def acceptedRecord? :
    PipelineEvent × Except VannakServiceError DurableProcessIngestResult → Option JournaledPipelineEvent
  | (event, .ok ⟨.accepted, offset⟩) => some ⟨offset, event⟩
  | _ => none

def acceptedRecords (history : List (PipelineEvent × Except VannakServiceError DurableProcessIngestResult)) :
    List JournaledPipelineEvent :=
  history.filterMap acceptedRecord?

structure Rebuilds (history : List (PipelineEvent × Except VannakServiceError DurableProcessIngestResult))
    (service : LocalService) (events : List PipelineEvent) : Prop where
  journal : ∃ journal, service.processEventJournal = some journal ∧ journal.Holds events
  index : service.hotIndex = HotIndex.new.ingestAll events
  known : ∀ id, id ∈ service.hotIndex.eventsById ↔ id ∈ events.map PipelineEvent.eventId
  distinct : (events.map PipelineEvent.eventId).Nodup
  reported : acceptedRecords history = ProcessEventJournal.journaledFrom 8 events

theorem acceptedRecords_concat_none
    (history : List (PipelineEvent × Except VannakServiceError DurableProcessIngestResult)) {event : PipelineEvent}
    {answer : Except VannakServiceError DurableProcessIngestResult} (h : acceptedRecord? (event, answer) = none) :
    acceptedRecords (history ++ [(event, answer)]) = acceptedRecords history := by
  rw [acceptedRecords, List.filterMap_append, List.filterMap_cons, h, List.filterMap_nil, List.append_nil]
  rfl

theorem Rebuilds.step {history : List (PipelineEvent × Except VannakServiceError DurableProcessIngestResult)}
    {service : LocalService} {events : List PipelineEvent} (h : Rebuilds history service events)
    (event : PipelineEvent) :
    ∃ events, Rebuilds (history ++ [(event, (service.ingestProcessEventDurable event).1)])
      (service.ingestProcessEventDurable event).2 events := by
  obtain ⟨journal, hJournal, hHolds⟩ := h.journal
  have hSame : ∀ answer, acceptedRecord? (event, answer) = none →
      Rebuilds (history ++ [(event, answer)]) service events :=
    fun answer hNone => { h with reported := (acceptedRecords_concat_none history hNone).trans h.reported }
  rw [LocalService.ingestProcessEventDurable]
  cases hValid : event.validate with
  | error error => exact ⟨events, hSame _ rfl⟩
  | ok =>
    simp only [hJournal]
    by_cases hKnown : event.eventId ∈ service.hotIndex.eventsById
    · have hContains : service.hotIndex.containsEvent event.eventId = true := decide_eq_true hKnown
      rw [if_pos hContains]
      exact ⟨events, hSame _ rfl⟩
    · have hContains : ¬service.hotIndex.containsEvent event.eventId = true := by
        simpa [HotIndex.containsEvent] using hKnown
      rw [if_neg hContains]
      rcases hHolds.appendDurable event with ⟨hTakes, offset, next, hAppend, hNext⟩ | ⟨error, hAppend⟩
      · obtain ⟨index, hIngest⟩ : ∃ index, service.hotIndex.ingest event = (.ok .accepted, index) := by
          rw [HotIndex.ingest, hValid]
          simp only [if_neg hKnown]
          exact ⟨_, rfl⟩
        have hIndex : index = (service.hotIndex.ingest event).2 := by rw [hIngest]
        simp only [hAppend, hIngest]
        refine ⟨events ++ [event], ⟨next, rfl, hNext⟩, ?_, fun id => ?_, ?_, ?_⟩
        · rw [hIndex, h.index, HotIndex.ingestAll_concat]
        · dsimp only
          rw [hIndex, HotIndex.mem_eventsById_ingest, h.known, List.map_append, List.mem_append, List.map_singleton,
            List.mem_singleton]
          exact or_congr_right ⟨fun hLast => hLast.2.symm, fun hLast => ⟨hValid, hLast.symm⟩⟩
        · rw [List.map_append, List.map_singleton]
          refine h.distinct.append (List.nodup_singleton _) ?_
          simpa using fun hMem => hKnown ((h.known _).mpr hMem)
        · have hOffset := hHolds.offset_of_appendDurable hAppend
          rw [acceptedRecords, List.filterMap_append, ProcessEventJournal.journaledFrom_concat, ← h.reported, hOffset,
            length_segmentBytes]
          rfl
      · simp only [hAppend]
        rw [← hJournal]
        exact ⟨events, hSame _ rfl⟩

theorem rebuilds_new {journal : ProcessEventJournal} (h : journal.Holds []) :
    Rebuilds [] (LocalService.new journal) [] where
  journal := ⟨journal, rfl, h⟩
  index := rfl
  known := by simp [LocalService.new, HotIndex.new]
  distinct := List.nodup_nil
  reported := rfl

/-- Whatever was ingested through a fresh service, the journal holds the accepted events at the reported offsets
and rebuilds the live index. Further replays and repeated records only count duplicates. -/
theorem journal_rebuilds_hot_index (path : PathBuf) (segmentId : SegmentId) (nodeId : NodeId)
    (events : List PipelineEvent) :
    ∃ journal history service final accepted,
      ProcessEventJournal.create none path segmentId nodeId = .ok journal ∧
      run LocalService.ingestProcessEventDurable (LocalService.new journal) events = (history, service) ∧
      service.processEventJournal = some final ∧
      final.writer.file = segmentBytes (accepted.map encodePipelineEvent) ∧
      (accepted.map PipelineEvent.eventId).Nodup ∧
      (acceptedRecords history).map JournaledPipelineEvent.event = accepted ∧
      replayProcessEventSegment final.writer.file =
        .ok ⟨acceptedRecords history, ⟨accepted.length, accepted.length⟩⟩ ∧
      recoverProcessEventsIntoLocalIndex HotIndex.new final.writer.file =
        .ok (⟨accepted.length, accepted.length⟩, service.hotIndex) ∧
      ∀ repeated : List PipelineEvent, repeated.eraseDups = accepted →
        (∃ replayed, recoverProcessEventsIntoLocalIndex HotIndex.new
            (segmentBytes (repeated.map encodePipelineEvent)) =
            .ok (⟨repeated.length, repeated.length⟩, replayed) ∧
          replayed.withoutDuplicates = service.hotIndex.withoutDuplicates) ∧
        ∃ replayed, recoverProcessEventsIntoLocalIndex service.hotIndex
            (segmentBytes (repeated.map encodePipelineEvent)) =
            .ok (⟨repeated.length, repeated.length⟩, replayed) ∧
          replayed.withoutDuplicates = service.hotIndex.withoutDuplicates := by
  obtain ⟨writer, hWriter, hWritten⟩ := SegmentWriter.holds_create path segmentId nodeId
  have hCreate : ProcessEventJournal.create none path segmentId nodeId = .ok ⟨writer⟩ := by
    rw [ProcessEventJournal.create, hWriter]
    rfl
  have hStart : ∃ events, Rebuilds [] (LocalService.new ⟨writer⟩) events :=
    ⟨[], rebuilds_new ⟨by simp, hWritten⟩⟩
  have hStep : ∀ past service event, (∃ events, Rebuilds past service events) →
      ∃ events, Rebuilds (past ++ [(event, (service.ingestProcessEventDurable event).1)])
        (service.ingestProcessEventDurable event).2 events := by
    rintro past service event ⟨events, hRebuilds⟩
    exact hRebuilds.step event
  obtain ⟨accepted, hRebuilds⟩ := run_history hStep hStart events
  obtain ⟨final, hFinal, hHolds⟩ := hRebuilds.journal
  have hEvents := ProcessEventJournal.map_event_journaledFrom 8 accepted
  have hLength : (ProcessEventJournal.journaledFrom 8 accepted).length = accepted.length := by
    rw [← List.length_map JournaledPipelineEvent.event, hEvents]
  refine ⟨⟨writer⟩, _, _, final, accepted, hCreate, rfl, hFinal, hHolds.written.file, hRebuilds.distinct, ?_, ?_, ?_,
    fun repeated hRepeated => ?_⟩
  · rw [hRebuilds.reported, hEvents]
  · rw [hHolds.written.file, hRebuilds.reported,
      ProcessEventJournal.replayProcessEventSegment_segmentBytes hHolds.valid hHolds.sized, hLength]
  · rw [hHolds.written.file, hRebuilds.index]
    exact recoverProcessEventsIntoLocalIndex_segmentBytes hHolds.valid hHolds.sized _
  · have hMem : ∀ event ∈ repeated, event ∈ accepted := by
      intro event hEvent
      rw [← hRepeated]
      exact List.mem_eraseDups.mpr hEvent
    have hValid : ∀ event ∈ repeated, event.validate = .ok () := fun event hEvent =>
      hHolds.valid event (hMem event hEvent)
    have hSized : ∀ event ∈ repeated, Sized (encodePipelineEvent event) := fun event hEvent =>
      hHolds.sized event (hMem event hEvent)
    refine ⟨⟨_, recoverProcessEventsIntoLocalIndex_segmentBytes hValid hSized _, ?_⟩,
      ⟨_, recoverProcessEventsIntoLocalIndex_segmentBytes hValid hSized _, ?_⟩⟩
    · rw [withoutDuplicates_ingestAll_eraseDups hValid, hRepeated, hRebuilds.index]
    · refine withoutDuplicates_ingestAll_of_known hValid fun event hEvent => (hRebuilds.known _).mpr ?_
      exact List.mem_map_of_mem (hMem event hEvent)

end Vannak.Service
