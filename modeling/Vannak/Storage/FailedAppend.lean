import Vannak.Foundation.Run
import Vannak.Storage.Format

/-!
# Appends on a failing disk

A `write_all` that fails leaves what it had written in the file, while the writer goes on
with the counters from before. The records that were acknowledged stay readable at their
offsets as long as no failed append leaves bytes behind, and the first one that leaves a
part of its frame makes the segment impossible to reopen.
-/

namespace Vannak.Storage

open Foundation

set_option autoImplicit false

/-- One call of `append_record` with what the disk does during it. -/
structure Attempt where
  disk : DiskWrites
  payload : Bytes
deriving DecidableEq, Repr

namespace Attempt

/-- The bytes that reach the file. -/
def written (attempt : Attempt) : Bytes :=
  if maxRecordLen < attempt.payload.length then []
  else
    match attempt.disk.length with
    | .failedAfter count => (u32Bytes (UInt32.ofNat attempt.payload.length)).take count
    | .complete => u32Bytes (UInt32.ofNat attempt.payload.length) ++
      match attempt.disk.checksum with
      | .failedAfter count => (u64Bytes (checksum attempt.payload)).take count
      | .complete => u64Bytes (checksum attempt.payload) ++
        match attempt.disk.payload with
        | .failedAfter count => attempt.payload.take count
        | .complete => attempt.payload

def Succeeds (attempt : Attempt) : Prop := Sized attempt.payload ∧ attempt.disk = .healthy

instance (attempt : Attempt) : Decidable attempt.Succeeds := inferInstanceAs (Decidable (_ ∧ _))

/-- The whole frame is in the file, whatever the call returned. -/
def Whole (attempt : Attempt) : Prop := attempt.written = frame attempt.payload

instance (attempt : Attempt) : Decidable attempt.Whole := inferInstanceAs (Decidable (_ = _))

/-- A call that fails leaves nothing in the file. -/
def Harmless (attempt : Attempt) : Prop := attempt.Succeeds ∨ attempt.written = []

instance (attempt : Attempt) : Decidable attempt.Harmless := inferInstanceAs (Decidable (_ ∨ _))

/-- The call leaves a part of its frame in the file, and not all of it. -/
def Tears (attempt : Attempt) : Prop := attempt.written ≠ [] ∧ ¬attempt.Whole

instance (attempt : Attempt) : Decidable attempt.Tears := inferInstanceAs (Decidable (_ ∧ _))

theorem written_of_not_sized {attempt : Attempt} (h : ¬Sized attempt.payload) : attempt.written = [] :=
  if_pos (Nat.lt_of_not_le h)

theorem exists_written_append {attempt : Attempt} (h : Sized attempt.payload) :
    ∃ rest, frame attempt.payload = attempt.written ++ rest := by
  obtain ⟨⟨length, sum, body⟩, payload⟩ := attempt
  rw [written, if_neg (Nat.not_lt.mpr h), frame]
  cases length with
  | failedAfter count =>
    refine ⟨(u32Bytes (UInt32.ofNat payload.length)).drop count ++
      (u64Bytes (checksum payload) ++ payload), ?_⟩
    simp only [← List.append_assoc, List.take_append_drop]
  | complete =>
    cases sum with
    | failedAfter count =>
      refine ⟨(u64Bytes (checksum payload)).drop count ++ payload, ?_⟩
      simp only [List.append_assoc]
      rw [← List.append_assoc (List.take _ _), List.take_append_drop]
    | complete =>
      cases body with
      | failedAfter count =>
        refine ⟨payload.drop count, ?_⟩
        simp only [List.append_assoc, List.take_append_drop]
      | complete =>
        refine ⟨[], ?_⟩
        simp only [List.append_nil]

theorem Tears.frame {attempt : Attempt} (h : attempt.Tears) :
    Sized attempt.payload ∧ ∃ rest, Storage.frame attempt.payload = attempt.written ++ rest ∧ rest ≠ [] := by
  have hSized : Sized attempt.payload := by
    by_contra hLarge
    exact h.1 (written_of_not_sized hLarge)
  obtain ⟨rest, hFrame⟩ := exists_written_append hSized
  refine ⟨hSized, rest, hFrame, ?_⟩
  rintro rfl
  exact h.2 (by rw [Whole, hFrame, List.append_nil])

/-- On a healthy disk a call fails only for the size of its payload. -/
theorem harmless_healthy (payload : Bytes) : Harmless ⟨.healthy, payload⟩ := by
  by_cases hSized : Sized payload
  · exact .inl ⟨hSized, rfl⟩
  · exact .inr (written_of_not_sized hSized)

end Attempt

namespace SegmentWriter

theorem appendRecordOn_cases (writer : SegmentWriter) (attempt : Attempt) :
    (attempt.Succeeds ∧ writer.appendRecordOn attempt.disk attempt.payload = (.ok writer.byteLen, { writer with
      file := writer.file ++ attempt.written
      recordCount := writer.recordCount + 1
      byteLen := writer.byteLen + (frame attempt.payload).length
      checksum := combineChecksum writer.checksum (Storage.checksum attempt.payload) })) ∨
    (¬attempt.Succeeds ∧ ∃ error, writer.appendRecordOn attempt.disk attempt.payload =
      (.error error, { writer with file := writer.file ++ attempt.written })) := by
  obtain ⟨⟨length, sum, body⟩, payload⟩ := attempt
  by_cases hSized : Sized payload
  · have hSize : ¬maxRecordLen < payload.length := Nat.not_lt.mpr hSized
    have hLength : 4 + 8 + payload.length = (frame payload).length := by rw [length_frame]
    simp only [appendRecordOn, Attempt.written, Attempt.Succeeds, hSize, if_false, hSized, true_and,
      DiskWrites.healthy, DiskWrites.mk.injEq]
    cases length with
    | failedAfter count => exact .inr ⟨fun h => (by cases h.1), _, rfl⟩
    | complete =>
      cases sum with
      | failedAfter count =>
        refine .inr ⟨fun h => (by cases h.2.1), .io .writeFailed, ?_⟩
        simp only [writeAll, List.append_assoc]
      | complete =>
        cases body with
        | failedAfter count =>
          refine .inr ⟨fun h => (by cases h.2.2), .io .writeFailed, ?_⟩
          simp only [writeAll, List.append_assoc]
        | complete =>
          refine .inl ⟨⟨rfl, rfl, rfl⟩, ?_⟩
          simp only [writeAll, hLength, List.append_assoc]
  · refine .inr ⟨fun h => hSized h.1, .recordTooLarge payload.length, ?_⟩
    have hWritten : Attempt.written ⟨⟨length, sum, body⟩, payload⟩ = [] :=
      Attempt.written_of_not_sized hSized
    rw [appendRecordOn, if_pos (Nat.lt_of_not_le hSized), hWritten, List.append_nil]

theorem Holds.appendRecordOn {writer : SegmentWriter} {payloads : List Bytes} (h : writer.Holds payloads)
    {attempt : Attempt} (hHarmless : attempt.Harmless) :
    (attempt.Succeeds ∧
      (writer.appendRecordOn attempt.disk attempt.payload).1 = .ok (segmentBytes payloads).length ∧
      (writer.appendRecordOn attempt.disk attempt.payload).2.Holds (payloads ++ [attempt.payload])) ∨
    (∃ error, writer.appendRecordOn attempt.disk attempt.payload = (.error error, writer)) := by
  by_cases hSucceeds : attempt.Succeeds
  · obtain ⟨next, hNext, hHolds⟩ := h.append hSucceeds.1
    rw [appendRecord, ← hSucceeds.2] at hNext
    rw [hNext]
    exact .inl ⟨hSucceeds, rfl, hHolds⟩
  · have hNothing : attempt.written = [] := hHarmless.resolve_left hSucceeds
    rcases appendRecordOn_cases writer attempt with ⟨hOk, -⟩ | ⟨-, error, hAppend⟩
    · exact absurd hOk hSucceeds
    · refine .inr ⟨error, ?_⟩
      rw [hAppend, hNothing, List.append_nil]

theorem file_appendRecordOn (writer : SegmentWriter) (attempt : Attempt) :
    (writer.appendRecordOn attempt.disk attempt.payload).2.file = writer.file ++ attempt.written := by
  rcases appendRecordOn_cases writer attempt with ⟨-, hAppend⟩ | ⟨-, error, hAppend⟩
  · rw [hAppend]
  · rw [hAppend]

/-- A part of a frame behind whole frames is found by the scan. -/
theorem openAppend_torn {payloads : List Bytes} (h : ∀ payload ∈ payloads, Sized payload)
    {payload torn rest : Bytes} (hSized : Sized payload) (hFrame : frame payload = torn ++ rest)
    (hTorn : torn ≠ []) (hRest : rest ≠ []) (path : PathBuf) (segmentId : SegmentId) (nodeId : NodeId)
    (next : SegmentWriter) : openAppend (segmentBytes payloads ++ torn) path segmentId nodeId ≠ .ok next := by
  intro hOpen
  obtain ⟨stats, hStats, -⟩ := ok_of_bind hOpen
  obtain ⟨whole, hWhole, hFile⟩ := segment_of_scanSegment hStats
  obtain ⟨error, hError⟩ := SegmentReader.readNext_torn hSized hFrame hTorn hRest (segmentBytes payloads).length
  have hRead := readFile_append h torn
  rw [hFile, readFile_segment hWhole, SegmentReader.readAll_eq, hError] at hRead
  have hStop := congrArg Prod.snd (Except.ok.inj hRead)
  cases hStop

end SegmentWriter

/-! ## Machines that append -/

/-- A machine whose calls append at most one record each to the segment it keeps open. -/
structure Appender (σ ι ο : Type) where
  step : σ → ι → ο × σ
  writer : σ → SegmentWriter
  attempt? : σ → ι → Option Attempt
  payload : ι → Bytes
  acknowledged? : ο → Option RecordOffset
  idle : ∀ state input, attempt? state input = none →
    writer (step state input).2 = writer state ∧ acknowledged? (step state input).1 = none
  appends : ∀ state input attempt, attempt? state input = some attempt →
    attempt.payload = payload input ∧
    writer (step state input).2 = ((writer state).appendRecordOn attempt.disk attempt.payload).2 ∧
    acknowledged? (step state input).1 =
      ((writer state).appendRecordOn attempt.disk attempt.payload).1.toOption

namespace Appender

variable {σ ι ο : Type} (machine : Appender σ ι ο)

/-- The acknowledged records are where they were acknowledged, and the segment can be
reopened. -/
def Serves (past : List (ι × ο)) (state : σ) : Prop :=
  (∃ records stop, readFile (machine.writer state).file = .ok (records, stop) ∧
    ∀ call ∈ past, ∀ offset, machine.acknowledged? call.2 = some offset →
      ∃ record ∈ records, record.offset = offset ∧ record.payload = machine.payload call.1) ∧
  ∀ path segmentId nodeId, ∃ next,
    SegmentWriter.openAppend (machine.writer state).file path segmentId nodeId = .ok next

def Harmless (state : σ) (input : ι) : Prop :=
  ∀ attempt, machine.attempt? state input = some attempt → attempt.Harmless

def Tears (state : σ) (input : ι) : Prop :=
  ∃ attempt, machine.attempt? state input = some attempt ∧ attempt.Tears

/-- The segment holds only whole records, the acknowledged ones among them. -/
def Intact (past : List (ι × ο)) (state : σ) : Prop :=
  ∃ payloads, (machine.writer state).Holds payloads ∧
    ∀ call ∈ past, ∀ offset, machine.acknowledged? call.2 = some offset →
      ∃ record ∈ recordsFrom 8 payloads, record.offset = offset ∧ record.payload = machine.payload call.1

variable {machine}

theorem Intact.serves {past : List (ι × ο)} {state : σ} (h : machine.Intact past state) :
    machine.Serves past state := by
  obtain ⟨payloads, hHolds, hPast⟩ := h
  refine ⟨⟨recordsFrom 8 payloads, none, ?_, hPast⟩, fun path segmentId nodeId => ?_⟩
  · rw [hHolds.file, readFile_segment hHolds.sized]
  · obtain ⟨next, hNext, -⟩ := hHolds.reopen path segmentId nodeId
    exact ⟨next, hNext⟩

theorem Intact.step {past : List (ι × ο)} {state : σ} (h : machine.Intact past state) {input : ι}
    (hHarmless : machine.Harmless state input) :
    machine.Intact (past ++ [(input, (machine.step state input).1)]) (machine.step state input).2 := by
  obtain ⟨payloads, hHolds, hPast⟩ := h
  -- A call that is not acknowledged and leaves the writer alone leaves everything as it was.
  have hUnchanged (hWriter : machine.writer (machine.step state input).2 = machine.writer state)
      (hAnswer : machine.acknowledged? (machine.step state input).1 = none) :
      machine.Intact (past ++ [(input, (machine.step state input).1)]) (machine.step state input).2 := by
    refine ⟨payloads, by rwa [hWriter], fun call hCall offset hOffset => ?_⟩
    rcases List.mem_append.mp hCall with hCall | hCall
    · exact hPast call hCall offset hOffset
    · rw [List.mem_singleton.mp hCall, hAnswer] at hOffset
      cases hOffset
  cases hAttempt : machine.attempt? state input with
  | none =>
    obtain ⟨hWriter, hAnswer⟩ := machine.idle state input hAttempt
    exact hUnchanged hWriter hAnswer
  | some attempt =>
    obtain ⟨hPayload, hWriter, hAnswer⟩ := machine.appends state input attempt hAttempt
    rcases hHolds.appendRecordOn (hHarmless attempt hAttempt) with ⟨-, hOk, hNext⟩ | ⟨error, hError⟩
    · rw [hOk] at hAnswer
      refine ⟨payloads ++ [attempt.payload], by rwa [hWriter], fun call hCall offset hOffset => ?_⟩
      rw [recordsFrom_append]
      rcases List.mem_append.mp hCall with hCall | hCall
      · obtain ⟨record, hRecord, hFound⟩ := hPast call hCall offset hOffset
        exact ⟨record, List.mem_append_left _ hRecord, hFound⟩
      · obtain rfl := List.mem_singleton.mp hCall
        obtain rfl : (segmentBytes payloads).length = offset := Option.some.inj (hAnswer.symm.trans hOffset)
        refine ⟨⟨8 + (payloads.flatMap frame).length, checksum attempt.payload, attempt.payload⟩,
          List.mem_append_right _ List.mem_cons_self, ?_, hPayload⟩
        rw [length_segmentBytes]
    · rw [hError] at hWriter hAnswer
      exact hUnchanged hWriter hAnswer

theorem Intact.not_serves_of_tears {past : List (ι × ο)} {state : σ} (h : machine.Intact past state)
    {input : ι} (hTears : machine.Tears state input) (later : List (ι × ο)) :
    ¬machine.Serves later (machine.step state input).2 := by
  rintro ⟨-, hReopen⟩
  obtain ⟨payloads, hHolds, -⟩ := h
  obtain ⟨attempt, hAttempt, hTorn⟩ := hTears
  obtain ⟨-, hWriter, -⟩ := machine.appends state input attempt hAttempt
  obtain ⟨next, hNext⟩ := hReopen (machine.writer state).path (machine.writer state).segmentId
    (machine.writer state).nodeId
  rw [hWriter, SegmentWriter.file_appendRecordOn, hHolds.file] at hNext
  obtain ⟨hSized, rest, hFrame, hRest⟩ := hTorn.frame
  exact SegmentWriter.openAppend_torn hHolds.sized hSized hFrame hTorn.1 hRest _ _ _ next hNext

theorem serves_until_torn {state : σ} {payloads : List Bytes} (h : (machine.writer state).Holds payloads)
    {inputs : List ι} (hHarmless : AllSteps machine.step machine.Harmless state inputs) :
    machine.Serves (run machine.step state inputs).1 (run machine.step state inputs).2 ∧
    ∀ input, machine.Tears (run machine.step state inputs).2 input →
      ¬machine.Serves (run machine.step state (inputs ++ [input])).1
        (run machine.step state (inputs ++ [input])).2 := by
  have hStart : machine.Intact [] state := ⟨payloads, h, by simp⟩
  have hStep : ∀ past state input, machine.Intact past state → machine.Harmless state input →
      machine.Intact (past ++ [(input, (machine.step state input).1)]) (machine.step state input).2 :=
    fun _ _ _ hIntact hInput => hIntact.step hInput
  have hRun := run_history_of_allSteps hStep hStart hHarmless
  rw [List.nil_append] at hRun
  refine ⟨hRun.serves, fun input hTears => ?_⟩
  rw [run_concat]
  exact hRun.not_serves_of_tears hTears _

end Appender

/-- A writer on a file of its own: created, or reopened on what a scan accepted. -/
def SegmentWriter.Opened (writer : SegmentWriter) : Prop :=
  ∃ path segmentId nodeId, create none path segmentId nodeId = .ok writer ∨
    ∃ file, openAppend file path segmentId nodeId = .ok writer

theorem SegmentWriter.Opened.holds {writer : SegmentWriter} (h : writer.Opened) :
    ∃ payloads, writer.Holds payloads := by
  obtain ⟨path, segmentId, nodeId, hCreate | ⟨file, hOpen⟩⟩ := h
  · obtain ⟨created, hCreated, hHolds⟩ := holds_create path segmentId nodeId
    rw [hCreated] at hCreate
    cases hCreate
    exact ⟨[], hHolds⟩
  · obtain ⟨stats, hStats, hWriter⟩ := ok_of_bind hOpen
    obtain ⟨payloads, hSized, rfl⟩ := segment_of_scanSegment hStats
    rw [scanSegment_segment hSized] at hStats
    cases hStats
    cases hWriter
    exact ⟨payloads, hSized, rfl, rfl, rfl, rfl⟩

end Vannak.Storage
