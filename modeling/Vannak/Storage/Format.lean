import Vannak.Storage.Reading

/-!
# The segment format

A writer that met no I/O error is determined by the payloads it accepted: the file
is the magic followed by their frames, and the three counters are functions of the
list. Reopening rebuilds exactly these counters from the file. The converse
direction characterises the byte strings a scan accepts, and a truncated file is
read up to its last whole frame.
-/

namespace Vannak.Storage

open Foundation

set_option autoImplicit false

def segmentBytes (payloads : List Bytes) : Bytes := segmentMagic ++ payloads.flatMap frame

def rollingChecksum (payloads : List Bytes) : UInt64 :=
  payloads.foldl (fun current payload => combineChecksum current (checksum payload)) 0

theorem segmentBytes_append (payloads more : List Bytes) :
    segmentBytes (payloads ++ more) = segmentBytes payloads ++ more.flatMap frame := by
  simp [segmentBytes]

theorem length_segmentBytes (payloads : List Bytes) :
    (segmentBytes payloads).length = 8 + (payloads.flatMap frame).length := by
  simp [segmentBytes]

/-! ## Records of a list of payloads -/

theorem recordsFrom_append (offset : Nat) (payloads more : List Bytes) :
    recordsFrom offset (payloads ++ more) =
      recordsFrom offset payloads ++ recordsFrom (offset + (payloads.flatMap frame).length) more := by
  induction payloads generalizing offset with
  | nil => rfl
  | cons payload payloads ih =>
    simp only [List.cons_append, recordsFrom, ih, List.flatMap_cons, List.length_append, Nat.add_assoc]

@[simp] theorem map_payload_recordsFrom (offset : Nat) (payloads : List Bytes) :
    (recordsFrom offset payloads).map SegmentRecord.payload = payloads := by
  induction payloads generalizing offset with
  | nil => rfl
  | cons payload payloads ih => simp only [recordsFrom, List.map_cons, ih]

theorem payload_mem_of_mem_recordsFrom {offset : Nat} {payloads : List Bytes} {record : SegmentRecord}
    (h : record ∈ recordsFrom offset payloads) : record.payload ∈ payloads := by
  rw [← map_payload_recordsFrom offset payloads]
  exact List.mem_map_of_mem h

theorem offset_of_mem_recordsFrom {offset : Nat} {payloads : List Bytes} {record : SegmentRecord}
    (h : record ∈ recordsFrom offset payloads) : offset ≤ record.offset := by
  induction payloads generalizing offset with
  | nil => cases h
  | cons payload payloads ih =>
    rcases List.mem_cons.mp h with rfl | h
    · exact le_rfl
    · exact (Nat.le_add_right _ _).trans (ih h)

/-! ## Reading and scanning a well-formed file -/

theorem openFile_segment (unread : Bytes) :
    SegmentReader.openFile (segmentMagic ++ unread) = .ok ⟨unread, 8⟩ := by
  rw [SegmentReader.openFile, readExact_append rfl]
  simp [Except.mapError, bind, Except.bind, pure, Except.pure]

theorem openFile_eq_ok {file : Bytes} {reader : SegmentReader}
    (h : SegmentReader.openFile file = .ok reader) :
    file = segmentMagic ++ reader.unread ∧ reader.offset = 8 := by
  rw [SegmentReader.openFile] at h
  cases hMagic : readExact segmentMagic.length file with
  | error error =>
    rw [hMagic] at h
    cases h
  | ok pair =>
    obtain ⟨magic, unread⟩ := pair
    simp only [hMagic, Except.mapError, bind, Except.bind] at h
    split at h
    · cases h
    rename_i hSame
    simp only [pure, Except.pure, Except.ok.injEq] at h
    subst h
    rw [not_not.mp hSame] at hMagic
    exact ⟨(readExact_eq_ok.mp hMagic).1, length_segmentMagic⟩

/-- The records a full read of the file returns, or the error at its end. -/
def readFile (file : Bytes) : Except SegmentError (List SegmentRecord × Option SegmentError) := do
  let reader ← SegmentReader.openFile file
  return reader.readAll

theorem readFile_append {payloads : List Bytes} (h : ∀ payload ∈ payloads, Sized payload)
    (rest : Bytes) : readFile (segmentBytes payloads ++ rest) =
      .ok (recordsFrom 8 payloads ++ (SegmentReader.readAll ⟨rest, (segmentBytes payloads).length⟩).1,
        (SegmentReader.readAll ⟨rest, (segmentBytes payloads).length⟩).2) := by
  rw [readFile, segmentBytes, List.append_assoc, openFile_segment]
  simp only [bind, Except.bind, pure, Except.pure, SegmentReader.readAll_frames h]
  simp

theorem readFile_segment {payloads : List Bytes} (h : ∀ payload ∈ payloads, Sized payload) :
    readFile (segmentBytes payloads) = .ok (recordsFrom 8 payloads, none) := by
  have hRead := readFile_append h []
  simpa [SegmentReader.readAll_nil] using hRead

theorem foldl_stats (payloads : List Bytes) (offset : Nat) (stats : SegmentStats) :
    (recordsFrom offset payloads).foldlM (m := Except SegmentError)
      (fun stats record => .ok (stats.add record ⟨[], record.offset + (frame record.payload).length⟩))
      stats = .ok {
        recordCount := stats.recordCount + payloads.length
        byteLen := if payloads = [] then stats.byteLen else offset + (payloads.flatMap frame).length
        checksum := payloads.foldl
          (fun current payload => combineChecksum current (checksum payload)) stats.checksum } := by
  induction payloads generalizing offset stats with
  | nil => rfl
  | cons payload payloads ih =>
    simp only [recordsFrom, List.foldlM_cons, bind, Except.bind]
    rw [ih]
    simp only [SegmentStats.add, List.length_cons, List.foldl_cons, List.flatMap_cons,
      List.length_append, reduceCtorEq, if_false]
    cases payloads with
    | nil => simp
    | cons other payloads => simp [Nat.add_assoc, Nat.add_comm]

theorem scanSegment_segment {payloads : List Bytes} (h : ∀ payload ∈ payloads, Sized payload) :
    scanSegment (segmentBytes payloads) =
      .ok ⟨payloads.length, (segmentBytes payloads).length, rollingChecksum payloads⟩ := by
  have hLoop := SegmentReader.whileSome_frames id
    (fun (stats : SegmentStats) record after => .ok (stats.add record after)) h 8
    (fun stats record => .ok (stats.add record ⟨[], record.offset + (frame record.payload).length⟩))
    (fun _ _ _ => rfl) .initial
  rw [foldl_stats] at hLoop
  have hLen : (if payloads = [] then SegmentStats.initial.byteLen
      else 8 + (payloads.flatMap frame).length) = (segmentBytes payloads).length := by
    rw [length_segmentBytes]
    split
    · rename_i hNil
      simp [hNil, SegmentStats.initial]
    · rfl
  have hOpen : SegmentReader.openFile (segmentBytes payloads) = .ok ⟨payloads.flatMap frame, 8⟩ :=
    openFile_segment _
  rw [hLen] at hLoop
  rw [scanSegment, hOpen]
  simp only [bind, Except.bind]
  rw [hLoop]
  simp [pure, Except.pure, SegmentStats.initial, rollingChecksum]

/-- A scan that succeeds has read a sequence of frames to the end of the file. -/
theorem segment_of_scanSegment {file : Bytes} {stats : SegmentStats}
    (h : scanSegment file = .ok stats) :
    ∃ payloads : List Bytes, (∀ payload ∈ payloads, Sized payload) ∧ file = segmentBytes payloads := by
  rw [scanSegment] at h
  cases hOpen : SegmentReader.openFile file with
  | error error => simp [hOpen, bind, Except.bind] at h
  | ok reader =>
    simp only [hOpen, bind, Except.bind] at h
    split at h
    · cases h
    rename_i loopStats hLoop
    have hStop := SegmentReader.readAll_of_whileSome _ _ hLoop
    obtain ⟨payloads, hSized, hUnread, -⟩ := SegmentReader.unread_of_readAll reader (Prod.ext rfl hStop)
    exact ⟨payloads, hSized, by rw [segmentBytes, ← hUnread]; exact (openFile_eq_ok hOpen).1⟩

/-! ## Writers -/

/-- The writer has accepted exactly these payloads and met no I/O error. -/
structure SegmentWriter.Holds (writer : SegmentWriter) (payloads : List Bytes) : Prop where
  sized : ∀ payload ∈ payloads, Sized payload
  file : writer.file = segmentBytes payloads
  recordCount : writer.recordCount = payloads.length
  byteLen : writer.byteLen = (segmentBytes payloads).length
  checksum : writer.checksum = rollingChecksum payloads

namespace SegmentWriter

theorem holds_create (path : PathBuf) (segmentId : SegmentId) (nodeId : NodeId) :
    ∃ writer, create none path segmentId nodeId = .ok writer ∧ writer.Holds [] :=
  ⟨_, rfl, by simp, by simp [segmentBytes], rfl, by simp [segmentBytes], rfl⟩

theorem appendRecord_of_sized (writer : SegmentWriter) {payload : Bytes} (h : Sized payload) :
    writer.appendRecord payload = (.ok writer.byteLen, { writer with
      file := writer.file ++ frame payload
      recordCount := writer.recordCount + 1
      byteLen := writer.byteLen + (frame payload).length
      checksum := combineChecksum writer.checksum (Storage.checksum payload) }) := by
  have hSize : ¬maxRecordLen < payload.length := Nat.not_lt.mpr h
  have hLength : 4 + 8 + payload.length = (frame payload).length := by rw [length_frame]
  simp only [appendRecord, appendRecordOn, hSize, if_false, DiskWrites.healthy, writeAll, hLength, frame,
    List.append_assoc]

theorem appendRecord_of_not_sized (writer : SegmentWriter) {payload : Bytes} (h : ¬Sized payload) :
    writer.appendRecord payload = (.error (.recordTooLarge payload.length), writer) := by
  rw [appendRecord, appendRecordOn, if_pos (Nat.lt_of_not_le h)]

theorem Holds.append {writer : SegmentWriter} {payloads : List Bytes} (h : writer.Holds payloads)
    {payload : Bytes} (hSized : Sized payload) :
    ∃ next, writer.appendRecord payload = (.ok (segmentBytes payloads).length, next) ∧
      next.Holds (payloads ++ [payload]) := by
  refine ⟨_, by rw [appendRecord_of_sized writer hSized, h.byteLen], ?_, ?_, ?_, ?_, ?_⟩
  · intro other hOther
    rcases List.mem_append.mp hOther with hOther | hOther
    · exact h.sized other hOther
    · exact List.mem_singleton.mp hOther ▸ hSized
  · simp [h.file, segmentBytes_append]
  · simp [h.recordCount]
  · simp [segmentBytes_append]
  · simp [h.checksum, rollingChecksum]

/-- Dropping the writer and reopening its file gives the same counters back. -/
theorem Holds.reopen {writer : SegmentWriter} {payloads : List Bytes} (h : writer.Holds payloads)
    (path : PathBuf) (segmentId : SegmentId) (nodeId : NodeId) :
    ∃ next, openAppend writer.file path segmentId nodeId = .ok next ∧ next.Holds payloads := by
  refine ⟨_, by rw [openAppend, h.file, scanSegment_segment h.sized]; rfl, h.sized, rfl, rfl, rfl, rfl⟩

end SegmentWriter

/-! ## Runs with reopenings -/

inductive SegmentStep where
  | append (payload : Bytes)
  | reopen (segmentId : SegmentId) (nodeId : NodeId)
deriving DecidableEq, Repr

namespace SegmentStep

def payload? : SegmentStep → Option Bytes
  | append payload => some payload
  | reopen _ _ => none

/-- The offsets returned by the appends, or the first error. -/
def runAll : SegmentWriter → List SegmentStep → Except SegmentError (SegmentWriter × List RecordOffset)
  | writer, [] => .ok (writer, [])
  | writer, append payload :: steps =>
    match writer.appendRecord payload with
    | (.error error, _) => .error error
    | (.ok offset, next) => do
      let (final, offsets) ← runAll next steps
      return (final, offset :: offsets)
  | writer, reopen segmentId nodeId :: steps => do
    let next ← SegmentWriter.openAppend writer.file writer.path segmentId nodeId
    runAll next steps

def payloads (steps : List SegmentStep) : List Bytes := steps.filterMap payload?

def appends (steps : List SegmentStep) : List SegmentStep := (payloads steps).map append

theorem payloads_appends (steps : List SegmentStep) : payloads (appends steps) = payloads steps := by
  simp [appends, payloads, List.filterMap_map, Function.comp_def, payload?]

/-- The run lemma: reopenings leave no trace in what the writer holds. -/
theorem runAll_holds {steps : List SegmentStep} {writer : SegmentWriter} {held : List Bytes}
    (hHeld : writer.Holds held) (hSized : ∀ payload ∈ payloads steps, Sized payload) :
    ∃ final, runAll writer steps = .ok (final,
        (recordsFrom (segmentBytes held).length (payloads steps)).map SegmentRecord.offset) ∧
      final.Holds (held ++ payloads steps) := by
  induction steps generalizing writer held with
  | nil => exact ⟨writer, rfl, by simpa [payloads] using hHeld⟩
  | cons step steps ih =>
    cases step with
    | append payload =>
      have hPayloads : payloads (append payload :: steps) = payload :: payloads steps := rfl
      rw [hPayloads] at hSized ⊢
      obtain ⟨next, hNext, hNextHolds⟩ := hHeld.append (hSized payload List.mem_cons_self)
      obtain ⟨final, hRun, hFinal⟩ := ih hNextHolds
        fun other hOther => hSized other (List.mem_cons_of_mem payload hOther)
      refine ⟨final, ?_, by simpa using hFinal⟩
      rw [runAll, hNext]
      simp only [hRun, bind, Except.bind, pure, Except.pure, recordsFrom, List.map_cons,
        segmentBytes_append, List.flatMap_singleton, List.length_append]
    | reopen segmentId nodeId =>
      have hPayloads : payloads (reopen segmentId nodeId :: steps) = payloads steps := rfl
      rw [hPayloads] at hSized ⊢
      obtain ⟨next, hNext, hNextHolds⟩ := hHeld.reopen writer.path segmentId nodeId
      obtain ⟨final, hRun, hFinal⟩ := ih hNextHolds hSized
      refine ⟨final, ?_, hFinal⟩
      rw [runAll, hNext]
      exact hRun

end SegmentStep

/-! ## Truncated files -/

/-- The record ends within the first `limit` bytes of the file. -/
def SegmentRecord.EndsWithin (record : SegmentRecord) (limit : Nat) : Prop :=
  record.offset + (frame record.payload).length ≤ limit

instance (record : SegmentRecord) (limit : Nat) : Decidable (record.EndsWithin limit) :=
  inferInstanceAs (Decidable (_ ≤ _))

theorem filter_recordsFrom_eq_nil {payloads : List Bytes} {offset limit : Nat} (h : limit < offset) :
    (recordsFrom offset payloads).filter (fun record => record.EndsWithin limit) = [] := by
  rw [List.filter_eq_nil_iff]
  intro record hRecord hEnds
  have hOffset := offset_of_mem_recordsFrom hRecord
  have hEnd : record.offset + (frame record.payload).length ≤ limit := of_decide_eq_true hEnds
  omega

/-- The induction behind truncation: the cut falls behind the first frame, inside
it, or in front of it. -/
theorem readAll_truncated {payloads : List Bytes} (h : ∀ payload ∈ payloads, Sized payload)
    (offset count : Nat) (hCount : count ≤ (payloads.flatMap frame).length) :
    (SegmentReader.readAll ⟨(payloads.flatMap frame).take count, offset⟩).1 =
        (recordsFrom offset payloads).filter (fun record => record.EndsWithin (offset + count)) ∧
      ((SegmentReader.readAll ⟨(payloads.flatMap frame).take count, offset⟩).2 = none ↔
        ∃ whole, count = ((payloads.take whole).flatMap frame).length) := by
  induction payloads generalizing offset count with
  | nil =>
    have hZero : count = 0 := by simpa using hCount
    subst hZero
    exact ⟨rfl, ⟨fun _ => ⟨0, rfl⟩, fun _ => rfl⟩⟩
  | cons payload payloads ih =>
    have hSized := h payload List.mem_cons_self
    rw [List.flatMap_cons, List.length_append] at hCount
    rw [List.flatMap_cons, List.take_append]
    by_cases hWhole : (frame payload).length ≤ count
    · obtain ⟨hRecords, hStop⟩ := ih (fun other hOther => h other (List.mem_cons_of_mem payload hOther))
        (offset + (frame payload).length) (count - (frame payload).length) (by omega)
      have hLimit : offset + (frame payload).length + (count - (frame payload).length) =
          offset + count := by omega
      rw [hLimit] at hRecords
      have hEnds : SegmentRecord.EndsWithin ⟨offset, checksum payload, payload⟩ (offset + count) :=
        Nat.add_le_add_left hWhole offset
      rw [List.take_of_length_le hWhole, SegmentReader.readAll_eq, SegmentReader.readNext_frame hSized]
      refine ⟨?_, ?_⟩
      · simp only [hRecords, recordsFrom]
        rw [List.filter_cons_of_pos (by simpa using hEnds)]
      · simp only [hStop]
        constructor
        · rintro ⟨whole, hWholeEq⟩
          refine ⟨whole + 1, ?_⟩
          rw [List.take_succ_cons, List.flatMap_cons, List.length_append, ← hWholeEq]
          omega
        · rintro ⟨whole, hWholeEq⟩
          cases whole with
          | zero =>
            rw [List.take_zero, List.flatMap_nil, List.length_nil] at hWholeEq
            rw [length_frame] at hWhole
            omega
          | succ whole =>
            refine ⟨whole, ?_⟩
            rw [List.take_succ_cons, List.flatMap_cons, List.length_append] at hWholeEq
            omega
    · have hShort : count - (frame payload).length = 0 := by omega
      have hNoRecord : (recordsFrom offset (payload :: payloads)).filter
          (fun record => record.EndsWithin (offset + count)) = [] := by
        rw [recordsFrom, List.filter_cons_of_neg, filter_recordsFrom_eq_nil (by omega)]
        intro hEnds
        have hEnd : offset + (frame payload).length ≤ offset + count := of_decide_eq_true hEnds
        omega
      rw [hShort, List.take_zero, List.append_nil, hNoRecord]
      by_cases hEmpty : count = 0
      · subst hEmpty
        rw [List.take_zero, SegmentReader.readAll_nil]
        exact ⟨rfl, ⟨fun _ => ⟨0, rfl⟩, fun _ => rfl⟩⟩
      · have hLength : ((frame payload).take count).length = count := by
          rw [List.length_take]
          omega
        obtain ⟨error, hError⟩ := SegmentReader.readNext_torn hSized
          (List.take_append_drop count (frame payload)).symm
          (fun hNil => hEmpty (by rw [hNil] at hLength; exact hLength.symm))
          (fun hNil => hWhole (List.drop_eq_nil_iff.mp hNil)) offset
        rw [SegmentReader.readAll_eq, hError]
        refine ⟨rfl, Iff.intro (fun hStop => by cases hStop) ?_⟩
        rintro ⟨whole, hWholeEq⟩
        cases whole with
        | zero => exact absurd (by simpa using hWholeEq) hEmpty
        | succ whole =>
          rw [List.take_succ_cons, List.flatMap_cons, List.length_append] at hWholeEq
          omega

theorem readFile_truncated {payloads : List Bytes} (h : ∀ payload ∈ payloads, Sized payload)
    {count : Nat} (hMagic : 8 ≤ count) (hCount : count ≤ (segmentBytes payloads).length) :
    ∃ stop, readFile ((segmentBytes payloads).take count) =
        .ok ((recordsFrom 8 payloads).filter (fun record => record.EndsWithin count), stop) ∧
      (stop = none ↔ ∃ whole, count = (segmentBytes (payloads.take whole)).length) := by
  rw [length_segmentBytes] at hCount
  obtain ⟨hRecords, hStop⟩ := readAll_truncated h 8 (count - 8) (by omega)
  have hLimit : 8 + (count - 8) = count := by omega
  have hTake : (segmentBytes payloads).take count =
      segmentMagic ++ (payloads.flatMap frame).take (count - 8) := by
    rw [segmentBytes, List.take_append, List.take_of_length_le (by simpa using hMagic),
      length_segmentMagic]
  rw [hLimit] at hRecords
  refine ⟨_, ?_, hStop.trans ?_⟩
  · rw [hTake, readFile, openFile_segment]
    simp only [bind, Except.bind, pure, Except.pure, ← hRecords]
  · refine exists_congr fun whole => ?_
    rw [length_segmentBytes]
    omega

/-! ## The format theorem -/

/-- A complete frame, field by field: the length counts the payload and the
checksum is the one of the payload. -/
def CompleteFrame (bytes : Bytes) : Prop :=
  ∃ (len : UInt32) (sum : UInt64) (payload : Bytes),
    bytes = u32Bytes len ++ (u64Bytes sum ++ payload) ∧ payload.length = len.toNat ∧
      checksum payload = sum

theorem completeFrame_iff {bytes : Bytes} :
    CompleteFrame bytes ↔ ∃ payload, Sized payload ∧ bytes = frame payload := by
  constructor
  · rintro ⟨len, sum, payload, rfl, hLen, rfl⟩
    refine ⟨payload, ?_, ?_⟩
    · have hLt := len.toNat_lt
      rw [Sized, maxRecordLen]
      omega
    · rw [frame, hLen, UInt32.ofNat_toNat]
  · rintro ⟨payload, hSized, rfl⟩
    exact ⟨UInt32.ofNat payload.length, checksum payload, payload, rfl,
      (UInt32.toNat_ofNat_of_lt' hSized.lt).symm, rfl⟩

theorem scanSegment_isOk_iff (file : Bytes) :
    (∃ stats, scanSegment file = .ok stats) ↔
      ∃ frames : List Bytes, (∀ bytes ∈ frames, CompleteFrame bytes) ∧
        file = segmentMagic ++ frames.flatten := by
  constructor
  · rintro ⟨stats, hStats⟩
    obtain ⟨payloads, hSized, rfl⟩ := segment_of_scanSegment hStats
    refine ⟨payloads.map frame, ?_, by rw [segmentBytes, List.flatMap_def]⟩
    intro bytes hBytes
    obtain ⟨payload, hPayload, rfl⟩ := List.mem_map.mp hBytes
    exact completeFrame_iff.mpr ⟨payload, hSized payload hPayload, rfl⟩
  · rintro ⟨frames, hFrames, rfl⟩
    obtain ⟨payloads, hSized, rfl⟩ : ∃ payloads : List Bytes,
        (∀ payload ∈ payloads, Sized payload) ∧ frames = payloads.map frame := by
      induction frames with
      | nil => exact ⟨[], by simp, rfl⟩
      | cons bytes frames ih =>
        obtain ⟨payload, hPayload, rfl⟩ := completeFrame_iff.mp (hFrames bytes List.mem_cons_self)
        obtain ⟨payloads, hSized, rfl⟩ := ih fun other hOther =>
          hFrames other (List.mem_cons_of_mem _ hOther)
        refine ⟨payload :: payloads, ?_, rfl⟩
        intro other hOther
        rcases List.mem_cons.mp hOther with rfl | hOther
        · exact hPayload
        · exact hSized other hOther
    rw [← List.flatMap_def]
    exact ⟨_, scanSegment_segment hSized⟩

/-- Appending and reopening as `steps` say gives the format, and neither the reader
nor the manifest can tell the reopenings. -/
def AppendsExactly (path : PathBuf) (segmentId : SegmentId) (nodeId : NodeId)
    (steps : List SegmentStep) : Prop :=
  ∃ writer final fresh offsets freshOffsets records,
    SegmentWriter.create none path segmentId nodeId = .ok writer ∧
    SegmentStep.runAll writer steps = .ok (final, offsets) ∧
    SegmentStep.runAll writer (SegmentStep.appends steps) = .ok (fresh, freshOffsets) ∧
    final.file = segmentMagic ++ (SegmentStep.payloads steps).flatMap frame ∧
    readFile final.file = .ok (records, none) ∧
    records.map SegmentRecord.payload = SegmentStep.payloads steps ∧
    records.map SegmentRecord.offset = offsets ∧
    final.manifest.recordCount = fresh.manifest.recordCount ∧
    final.manifest.byteLen = fresh.manifest.byteLen ∧
    final.manifest.checksum = fresh.manifest.checksum

/-- The file cut after `count` bytes yields its whole records, then `None` exactly
at a frame boundary and an error anywhere else. -/
def TruncatesExactly (payloads : List Bytes) (count : Nat) : Prop :=
  ∃ records stop, readFile (segmentBytes payloads) = .ok (records, none) ∧
    records.map SegmentRecord.payload = payloads ∧
    readFile ((segmentBytes payloads).take count) =
      .ok (records.filter (fun record => record.EndsWithin count), stop) ∧
    (stop = none ↔ ∃ whole, count = (segmentBytes (payloads.take whole)).length)

theorem segmentFormat_exact :
    (∀ (path : PathBuf) (segmentId : SegmentId) (nodeId : NodeId) (steps : List SegmentStep),
      (∀ payload ∈ SegmentStep.payloads steps, Sized payload) →
        AppendsExactly path segmentId nodeId steps) ∧
    (∀ file, (∃ stats, scanSegment file = .ok stats) ↔
      ∃ frames : List Bytes, (∀ bytes ∈ frames, CompleteFrame bytes) ∧
        file = segmentMagic ++ frames.flatten) ∧
    (∀ (payloads : List Bytes) (count : Nat), (∀ payload ∈ payloads, Sized payload) →
      8 ≤ count → count ≤ (segmentBytes payloads).length → TruncatesExactly payloads count) := by
  refine ⟨?_, scanSegment_isOk_iff, ?_⟩
  · intro path segmentId nodeId steps hSized
    have hAppends : ∀ payload ∈ SegmentStep.payloads (SegmentStep.appends steps), Sized payload := by
      rwa [SegmentStep.payloads_appends]
    obtain ⟨writer, hCreate, hEmpty⟩ := SegmentWriter.holds_create path segmentId nodeId
    obtain ⟨final, hRun, hFinal⟩ := SegmentStep.runAll_holds hEmpty hSized
    obtain ⟨fresh, hFreshRun, hFresh⟩ := SegmentStep.runAll_holds hEmpty hAppends
    rw [List.nil_append] at hFinal hFresh
    rw [SegmentStep.payloads_appends] at hFresh
    refine ⟨writer, final, fresh, _, _, _, hCreate, hRun, hFreshRun, hFinal.file,
      by rw [hFinal.file]; exact readFile_segment hFinal.sized, map_payload_recordsFrom _ _, ?_,
      hFinal.recordCount.trans hFresh.recordCount.symm, hFinal.byteLen.trans hFresh.byteLen.symm,
      hFinal.checksum.trans hFresh.checksum.symm⟩
    simp [segmentBytes]
  · intro payloads count hSized hMagic hCount
    obtain ⟨stop, hRead, hStop⟩ := readFile_truncated hSized hMagic hCount
    exact ⟨_, stop, readFile_segment hSized, map_payload_recordsFrom _ _, hRead, hStop⟩

/-- One reopening between two appends, and a cut inside the second frame. -/
theorem segmentFormat_exact_two_records :
    AppendsExactly ⟨utf8Bytes "a.seg"⟩ ⟨"segment-a"⟩ ⟨"node-a"⟩
      [.append [1, 2, 3], .reopen ⟨"segment-a"⟩ ⟨"node-a"⟩, .append []] ∧
    TruncatesExactly [[1, 2, 3], []] 25 :=
  ⟨segmentFormat_exact.1 _ _ _ _ (by decide), segmentFormat_exact.2.2 _ _ (by decide) (by decide) (by decide)⟩

end Vannak.Storage
