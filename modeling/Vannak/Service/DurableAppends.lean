import Vannak.Ingest.Journal
import Vannak.Ipto.Durable
import Vannak.Storage.FailedAppend

/-!
# Durable appends on a failing disk

`append_record`, `append_durable` and `enqueue_durable` as machines that append. All three
keep the records they acknowledged as long as a failing call leaves nothing in the file; a
call that leaves a part of its frame is followed by appends to a file no scan accepts.
-/

namespace Vannak.Service

open Foundation Storage Ingest Ipto

set_option autoImplicit false

def segmentAppender : Appender SegmentWriter Attempt (Except SegmentError RecordOffset) where
  step writer attempt := writer.appendRecordOn attempt.disk attempt.payload
  writer := id
  attempt? _ attempt := some attempt
  payload := Attempt.payload
  acknowledged? := Except.toOption
  idle _ _ h := by cases h
  appends _ _ _ h := by
    cases h
    exact ⟨rfl, rfl, rfl⟩

/-- An invalid event is refused before the segment is touched. -/
def journalAppender : Appender ProcessEventJournal (DiskWrites × PipelineEvent)
    (Except ProcessEventJournalError RecordOffset) where
  step journal call := journal.appendDurableOn call.1 call.2
  writer := ProcessEventJournal.writer
  attempt? _ call := if call.2.validate = .ok () then some ⟨call.1, encodePipelineEvent call.2⟩ else none
  payload call := encodePipelineEvent call.2
  acknowledged? := Except.toOption
  idle journal call h := by
    have hInvalid : call.2.validate ≠ .ok () := fun hValid => by rw [if_pos hValid] at h; cases h
    cases hError : call.2.validate with
    | error error =>
      rw [ProcessEventJournal.appendDurableOn, hError]
      exact ⟨rfl, rfl⟩
    | ok => exact absurd hError hInvalid
  appends journal call attempt h := by
    have hValid : call.2.validate = .ok () := by
      by_contra hInvalid
      rw [if_neg hInvalid] at h
      cases h
    rw [if_pos hValid] at h
    cases h
    rw [ProcessEventJournal.appendDurableOn, hValid]
    rcases hAppend : journal.writer.appendRecordOn call.1 (encodePipelineEvent call.2) with
      ⟨_ | offset, writer⟩ <;> exact ⟨rfl, rfl, rfl⟩

/-- A payload whose key is known is answered without an append. -/
def outboxAppender : Appender SegmentBackedMetadataOutbox (DiskWrites × IptoWritePayload)
    (Except MetadataOutboxStorageError DurableOutboxEnqueueResult) where
  step durable call := durable.enqueueDurableOn call.1 call.2
  writer := SegmentBackedMetadataOutbox.writer
  attempt? durable call :=
    if durable.outbox.entries.contains call.2.idempotencyKey then none else some ⟨call.1, call.2.encode⟩
  payload call := call.2.encode
  acknowledged?
    | .ok (.enqueued offset) => some offset
    | _ => none
  idle durable call h := by
    have hKnown : durable.outbox.entries.contains call.2.idempotencyKey = true := by
      by_contra hFresh
      rw [if_neg hFresh] at h
      cases h
    rw [SegmentBackedMetadataOutbox.enqueueDurableOn, if_pos hKnown]
    exact ⟨rfl, rfl⟩
  appends durable call attempt h := by
    have hFresh : ¬durable.outbox.entries.contains call.2.idempotencyKey = true := fun hKnown => by
      rw [if_pos hKnown] at h
      cases h
    rw [if_neg hFresh] at h
    cases h
    rw [SegmentBackedMetadataOutbox.enqueueDurableOn, if_neg hFresh]
    rcases hAppend : durable.writer.appendRecordOn call.1 call.2.encode with
      ⟨_ | offset, writer⟩ <;> exact ⟨rfl, rfl, rfl⟩

/-- Runs without damage keep the promise, and the first call that tears its frame breaks it. -/
def ServesUntilTorn {σ ι ο : Type} (machine : Appender σ ι ο) (state : σ) : Prop :=
  ∀ inputs, AllSteps machine.step machine.Harmless state inputs →
    machine.Serves (run machine.step state inputs).1 (run machine.step state inputs).2 ∧
    ∀ input, machine.Tears (run machine.step state inputs).2 input →
      ¬machine.Serves (run machine.step state (inputs ++ [input])).1
        (run machine.step state (inputs ++ [input])).2

theorem servesUntilTorn_of_opened {σ ι ο : Type} (machine : Appender σ ι ο) {state : σ}
    (h : (machine.writer state).Opened) : ServesUntilTorn machine state := by
  obtain ⟨payloads, hHolds⟩ := h.holds
  exact fun _ hHarmless => Appender.serves_until_torn hHolds hHarmless

theorem acknowledged_appends_survive (writer : SegmentWriter) (journal : ProcessEventJournal)
    (durable : SegmentBackedMetadataOutbox) :
    (writer.Opened → ServesUntilTorn segmentAppender writer) ∧
    (journal.writer.Opened → ServesUntilTorn journalAppender journal) ∧
    (durable.writer.Opened → ServesUntilTorn outboxAppender durable) :=
  ⟨fun h => servesUntilTorn_of_opened segmentAppender h,
    fun h => servesUntilTorn_of_opened journalAppender h,
    fun h => servesUntilTorn_of_opened outboxAppender h⟩

/-- A new segment in `a.seg`. -/
def emptySegment : SegmentWriter where
  segmentId := ⟨"segment-a"⟩
  nodeId := ⟨"node-a"⟩
  path := ⟨utf8Bytes "a.seg"⟩
  file := segmentMagic
  recordCount := 0
  byteLen := segmentMagic.length
  checksum := 0

theorem emptySegment_opened : emptySegment.Opened :=
  ⟨⟨utf8Bytes "a.seg"⟩, ⟨"segment-a"⟩, ⟨"node-a"⟩, .inl rfl⟩

/-- An append that fails with nothing written, between two that succeed. -/
theorem acknowledged_appends_survive_clean_failure :
    segmentAppender.Serves
      (run segmentAppender.step emptySegment [⟨.healthy, [1, 2, 3]⟩,
        ⟨⟨.failedAfter 0, .complete, .complete⟩, [4]⟩, ⟨.healthy, [5]⟩]).1
      (run segmentAppender.step emptySegment [⟨.healthy, [1, 2, 3]⟩,
        ⟨⟨.failedAfter 0, .complete, .complete⟩, [4]⟩, ⟨.healthy, [5]⟩]).2 := by
  have hSurvive := (acknowledged_appends_survive emptySegment ⟨emptySegment⟩ ⟨.new, emptySegment⟩).1
  refine (hSurvive emptySegment_opened [⟨.healthy, [1, 2, 3]⟩,
    ⟨⟨.failedAfter 0, .complete, .complete⟩, [4]⟩, ⟨.healthy, [5]⟩] ?_).1
  refine ⟨?_, ?_, ?_, trivial⟩
  · rintro _ ⟨⟩
    decide
  · rintro _ ⟨⟩
    decide
  · rintro _ ⟨⟩
    decide

/-- The first append fails after two of its four length bytes and the second returns
`Ok(8)`; a full read then finds no record, and the segment cannot be reopened. -/
theorem torn_append_hides_the_next :
    (run segmentAppender.step emptySegment [⟨⟨.failedAfter 2, .complete, .complete⟩, [1, 2, 3]⟩,
      ⟨.healthy, [1, 2, 3]⟩]).1.map (fun call => call.2.toOption) = [none, some 8] ∧
    ¬∀ (writer : SegmentWriter) (calls : List Attempt), writer.Opened →
      segmentAppender.Serves (run segmentAppender.step writer calls).1
        (run segmentAppender.step writer calls).2 := by
  refine ⟨by decide +kernel, fun h => ?_⟩
  obtain ⟨⟨records, stop, hRead, hServed⟩, -⟩ := h emptySegment
    [⟨⟨.failedAfter 2, .complete, .complete⟩, [1, 2, 3]⟩, ⟨.healthy, [1, 2, 3]⟩] emptySegment_opened
  have hNothing : readFile (run segmentAppender.step emptySegment
      [⟨⟨.failedAfter 2, .complete, .complete⟩, [1, 2, 3]⟩, ⟨.healthy, [1, 2, 3]⟩]).2.file =
      .ok ([], some (.io .unexpectedEof)) := by decide +kernel
  obtain ⟨rfl, -⟩ := Prod.mk.inj (Except.ok.inj (hNothing.symm.trans hRead))
  obtain ⟨record, hRecord, -⟩ := hServed _ (List.mem_cons_of_mem _ List.mem_cons_self) 8 (by decide +kernel)
  cases hRecord

end Vannak.Service
