import Vannak.Ingest.Codec
import Vannak.Storage.Format

/-!
# The process-event journal

`ProcessEventJournal` of `ingest.rs`: a segment of encoded events. Its file holds the
encodings of the events it accepted, so that replaying it gives these events back.
-/

namespace Vannak.Ingest

open Foundation Storage

set_option autoImplicit false

inductive ProcessEventJournalError where
  | segment (error : SegmentError)
  | ingest (error : IngestError)
  | decode (error : ProcessEventDecodeError)
deriving DecidableEq, Repr

structure ProcessEventJournal where
  writer : SegmentWriter
deriving DecidableEq, Repr

structure JournaledPipelineEvent where
  offset : RecordOffset
  event : PipelineEvent
deriving DecidableEq, Repr

structure ProcessEventReplaySummary where
  scannedRecords : Nat
  replayedRecords : Nat
deriving DecidableEq, Repr

structure ProcessEventReplay where
  events : List JournaledPipelineEvent
  summary : ProcessEventReplaySummary
deriving DecidableEq, Repr

/-- The body of the replay loop: decode, validate and push. -/
def replayEvent (events : List JournaledPipelineEvent) (record : SegmentRecord) :
    Except ProcessEventJournalError (List JournaledPipelineEvent) := do
  let event ← (decodePipelineEvent record.payload).mapError .decode
  event.validate.mapError .ingest
  return events ++ [⟨record.offset, event⟩]

/-- Every scanned record is pushed, so the two counters of the summary are the same. -/
def replayProcessEventSegment (file : Bytes) : Except ProcessEventJournalError ProcessEventReplay := do
  let reader ← (SegmentReader.openFile file).mapError .segment
  let events ← reader.whileSome .segment (fun events record _ => replayEvent events record) []
  return ⟨events, ⟨events.length, events.length⟩⟩

namespace ProcessEventJournal

def create (existing : Option Bytes) (path : PathBuf) (segmentId : SegmentId) (nodeId : NodeId) :
    Except ProcessEventJournalError ProcessEventJournal := do
  let writer ← (SegmentWriter.create existing path segmentId nodeId).mapError .segment
  return { writer }

/-- `file` is the content found under the path. -/
def recover (file : Bytes) (path : PathBuf) (segmentId : SegmentId) (nodeId : NodeId) :
    Except ProcessEventJournalError (ProcessEventJournal × ProcessEventReplay) := do
  let replay ← replayProcessEventSegment file
  let writer ← (SegmentWriter.openAppend file path segmentId nodeId).mapError .segment
  return ({ writer }, replay)

/-- `append_durable` on a disk with the given outcomes. -/
def appendDurableOn (disk : DiskWrites) (journal : ProcessEventJournal) (event : PipelineEvent) :
    Except ProcessEventJournalError RecordOffset × ProcessEventJournal :=
  match event.validate with
  | .error error => (.error (.ingest error), journal)
  | .ok () =>
    match journal.writer.appendRecordOn disk (encodePipelineEvent event) with
    | (.error error, writer) => (.error (.segment error), { writer })
    | (.ok offset, writer) => (.ok offset, { writer })

def appendDurable (journal : ProcessEventJournal) (event : PipelineEvent) :
    Except ProcessEventJournalError RecordOffset × ProcessEventJournal :=
  journal.appendDurableOn .healthy event

/-- What `append_durable` accepts: a valid event whose record is not too large. -/
def Takes (event : PipelineEvent) : Prop := event.validate = .ok () ∧ Sized (encodePipelineEvent event)

/-- The journal holds exactly these events. -/
structure Holds (journal : ProcessEventJournal) (events : List PipelineEvent) : Prop where
  valid : ∀ event ∈ events, event.validate = .ok ()
  written : journal.writer.Holds (events.map encodePipelineEvent)

/-- An event that is refused leaves the journal as it was. -/
theorem Holds.appendDurable {journal : ProcessEventJournal} {events : List PipelineEvent}
    (h : journal.Holds events) (event : PipelineEvent) :
    (Takes event ∧ ∃ offset next, journal.appendDurable event = (.ok offset, next) ∧
      next.Holds (events ++ [event])) ∨
    ∃ error, journal.appendDurable event = (.error error, journal) := by
  rw [ProcessEventJournal.appendDurable, appendDurableOn]
  cases hValid : event.validate with
  | error error => exact .inr ⟨_, rfl⟩
  | ok =>
    by_cases hSized : Sized (encodePipelineEvent event)
    · obtain ⟨next, hAppend, hHolds⟩ := h.written.append hSized
      rw [SegmentWriter.appendRecord] at hAppend
      refine .inl ⟨⟨hValid, hSized⟩, (segmentBytes (events.map encodePipelineEvent)).length, ⟨next⟩,
        ?_, ?_, ?_⟩
      · simp only [hAppend]
      · intro other hOther
        rcases List.mem_append.mp hOther with hOther | hOther
        · exact h.valid other hOther
        · exact List.mem_singleton.mp hOther ▸ hValid
      · rw [List.map_append]
        exact hHolds
    · have hRefused := SegmentWriter.appendRecord_of_not_sized journal.writer hSized
      rw [SegmentWriter.appendRecord] at hRefused
      refine .inr ⟨.segment (.recordTooLarge (encodePipelineEvent event).length), ?_⟩
      simp only [hRefused]

/-- The offset of a record is the length of the file before it. -/
theorem Holds.offset_of_appendDurable {journal next : ProcessEventJournal} {events : List PipelineEvent}
    (h : journal.Holds events) {event : PipelineEvent} {offset : RecordOffset}
    (hAppend : journal.appendDurable event = (.ok offset, next)) :
    offset = (segmentBytes (events.map encodePipelineEvent)).length := by
  rw [ProcessEventJournal.appendDurable, appendDurableOn] at hAppend
  cases hValid : event.validate with
  | error error =>
    rw [hValid] at hAppend
    cases hAppend
  | ok =>
    rw [hValid] at hAppend
    by_cases hSized : Sized (encodePipelineEvent event)
    · obtain ⟨writer, hWritten, -⟩ := h.written.append hSized
      rw [SegmentWriter.appendRecord] at hWritten
      simp only [hWritten] at hAppend
      cases hAppend
      rfl
    · have hRefused := SegmentWriter.appendRecord_of_not_sized journal.writer hSized
      rw [SegmentWriter.appendRecord] at hRefused
      simp only [hRefused] at hAppend
      cases hAppend

/-- Events with the offsets of their records, the first of which is at this offset. -/
def journaledFrom : Nat → List PipelineEvent → List JournaledPipelineEvent
  | _, [] => []
  | offset, event :: events =>
    ⟨offset, event⟩ :: journaledFrom (offset + (frame (encodePipelineEvent event)).length) events

theorem map_event_journaledFrom (offset : Nat) (events : List PipelineEvent) :
    (journaledFrom offset events).map JournaledPipelineEvent.event = events := by
  induction events generalizing offset with
  | nil => rfl
  | cons event events ih => rw [journaledFrom, List.map_cons, ih]

theorem journaledFrom_concat (offset : Nat) (events : List PipelineEvent) (event : PipelineEvent) :
    journaledFrom offset (events ++ [event]) = journaledFrom offset events ++
      [⟨offset + ((events.map encodePipelineEvent).flatMap frame).length, event⟩] := by
  induction events generalizing offset with
  | nil => rfl
  | cons first events ih =>
    simp only [List.cons_append, journaledFrom, ih, List.map_cons, List.flatMap_cons, List.length_append,
      Nat.add_assoc]

theorem foldlM_replayEvent {events : List PipelineEvent} (hValid : ∀ event ∈ events, event.validate = .ok ())
    (hSized : ∀ event ∈ events, Sized (encodePipelineEvent event)) (offset : Nat)
    (before : List JournaledPipelineEvent) :
    (recordsFrom offset (events.map encodePipelineEvent)).foldlM replayEvent before =
      .ok (before ++ journaledFrom offset events) := by
  induction events generalizing offset before with
  | nil =>
    rw [journaledFrom, List.append_nil]
    rfl
  | cons event events ih =>
    obtain ⟨hFirstValid, hRestValid⟩ := List.forall_mem_cons.mp hValid
    obtain ⟨hFirstSized, hRestSized⟩ := List.forall_mem_cons.mp hSized
    have hReplay := ih hRestValid hRestSized
      (offset + (frame (encodePipelineEvent event)).length) (before ++ [⟨offset, event⟩])
    have hStep : replayEvent before
        ⟨offset, checksum (encodePipelineEvent event), encodePipelineEvent event⟩ =
        .ok (before ++ [⟨offset, event⟩]) := by
      rw [replayEvent, decodePipelineEvent_encode hFirstSized]
      simp only [Except.mapError, hFirstValid, bind, Except.bind]
      rfl
    rw [List.append_assoc] at hReplay
    rw [List.map_cons, recordsFrom, List.foldlM_cons, hStep]
    exact hReplay

theorem replayProcessEventSegment_segmentBytes {events : List PipelineEvent}
    (hValid : ∀ event ∈ events, event.validate = .ok ())
    (hSized : ∀ event ∈ events, Sized (encodePipelineEvent event)) :
    replayProcessEventSegment (segmentBytes (events.map encodePipelineEvent)) =
      .ok ⟨journaledFrom 8 events, ⟨(journaledFrom 8 events).length, (journaledFrom 8 events).length⟩⟩ := by
  have hFrames : ∀ bytes ∈ events.map encodePipelineEvent, Sized bytes := by
    intro bytes hBytes
    obtain ⟨event, hEvent, rfl⟩ := List.mem_map.mp hBytes
    exact hSized event hEvent
  have hLoop := SegmentReader.whileSome_frames ProcessEventJournalError.segment
    (fun events record _ => replayEvent events record) hFrames 8 replayEvent (fun _ _ _ => rfl) []
  rw [foldlM_replayEvent hValid hSized, List.nil_append] at hLoop
  rw [replayProcessEventSegment, segmentBytes, openFile_segment]
  simp only [Except.mapError, bind, Except.bind]
  rw [hLoop]
  rfl

theorem Holds.sized {journal : ProcessEventJournal} {events : List PipelineEvent} (h : journal.Holds events) :
    ∀ event ∈ events, Sized (encodePipelineEvent event) :=
  fun _ hEvent => h.written.sized _ (List.mem_map_of_mem hEvent)

theorem Holds.replay {journal : ProcessEventJournal} {events : List PipelineEvent}
    (h : journal.Holds events) :
    ∃ replay, replayProcessEventSegment journal.writer.file = .ok replay ∧
      replay.events.map JournaledPipelineEvent.event = events := by
  rw [h.written.file, replayProcessEventSegment_segmentBytes h.valid h.sized]
  exact ⟨_, rfl, map_event_journaledFrom 8 events⟩

end ProcessEventJournal

end Vannak.Ingest
