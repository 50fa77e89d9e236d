import Vannak.Foundation.Fnv
import Vannak.Storage.Format

/-!
# Corrupted records

A byte of a payload or of a checksum field that is replaced by another one is noticed where its record is read: the
records before it are returned as they were written, and the error names the offset of the record.
-/

namespace Vannak.Storage

open Foundation

set_option autoImplicit false

/-! ## A record with any checksum field -/

theorem readNext_fields {payload sum : Bytes} (hSized : Sized payload) (hSum : sum.length = 8) (rest : Bytes)
    (offset : Nat) (hMismatch : u64OfBytes sum ≠ checksum payload) :
    SegmentReader.readNext ⟨u32Bytes (UInt32.ofNat payload.length) ++ (sum ++ (payload ++ rest)), offset⟩ =
      .error (.checksumMismatch offset (u64OfBytes sum) (checksum payload)) := by
  have hLen : (UInt32.ofNat payload.length).toNat = payload.length := UInt32.toNat_ofNat_of_lt' hSized.lt
  have hWord := length_u32Bytes (UInt32.ofNat payload.length)
  have hTotal : (u32Bytes (UInt32.ofNat payload.length) ++ (sum ++ (payload ++ rest))).length =
      12 + payload.length + rest.length := by
    simp only [List.length_append, hWord, hSum]
    omega
  have hNonempty : u32Bytes (UInt32.ofNat payload.length) ++ (sum ++ (payload ++ rest)) ≠ [] := by
    intro hNil
    rw [hNil, List.length_nil] at hTotal
    omega
  rw [SegmentReader.readNext, if_neg hNonempty, if_neg (by rw [hTotal]; omega)]
  simp only [List.take_left' hWord, List.drop_left' hWord, readExact_append hSum, Except.mapError, bind, Except.bind,
    u32OfBytes_u32Bytes, hLen, readExact_append rfl, ne_eq, hMismatch.symm, not_false_eq_true, if_true]
  rfl

/-- The checksum field and the payload behind it, with one byte replaced. -/
theorem corrupted_fields {payload : Bytes} {index : Nat} {byte : UInt8} (hIndex : index < 8 + payload.length)
    (hByte : (u64Bytes (checksum payload) ++ payload)[index]? ≠ some byte) :
    ∃ sum altered : Bytes, sum.length = 8 ∧ altered.length = payload.length ∧
      (u64Bytes (checksum payload) ++ payload).set index byte = sum ++ altered ∧
      u64OfBytes sum ≠ checksum altered := by
  have hEight := length_u64Bytes (checksum payload)
  by_cases hField : index < 8
  · have hFieldByte : (u64Bytes (checksum payload))[index]? ≠ some byte := by
      rwa [List.getElem?_append_left (by omega)] at hByte
    refine ⟨(u64Bytes (checksum payload)).set index byte, payload, by rw [List.length_set, hEight], rfl, ?_, ?_⟩
    · exact List.set_append_left _ _ (by omega)
    · intro hSame
      have hBack := congrArg u64Bytes hSame
      rw [u64Bytes_u64OfBytes (by rw [List.length_set, hEight])] at hBack
      have hDiffer := (differAt_set (by omega) hFieldByte).2 index
      rw [hBack] at hDiffer
      exact hDiffer.mp rfl rfl
  · have hPayloadByte : payload[index - 8]? ≠ some byte := by
      rwa [List.getElem?_append_right (by omega), hEight] at hByte
    refine ⟨u64Bytes (checksum payload), payload.set (index - 8) byte, hEight, List.length_set, ?_, ?_⟩
    · rw [List.set_append_right _ _ (by omega), hEight]
    · rw [u64OfBytes_u64Bytes]
      exact fnv1a_ne_of_differAt (differAt_set (by omega) hPayloadByte)

/-! ## The segment around it -/

theorem recordsFrom_eq_append {offset : Nat} {payloads : List Bytes} {before after : List SegmentRecord}
    {record : SegmentRecord} (h : recordsFrom offset payloads = before ++ record :: after) :
    ∃ earlier later, payloads = earlier ++ record.payload :: later ∧ before = recordsFrom offset earlier ∧
      record.offset = offset + (earlier.flatMap frame).length := by
  induction before generalizing offset payloads with
  | nil =>
    cases payloads with
    | nil => cases h
    | cons payload payloads =>
      obtain ⟨rfl, -⟩ := List.cons.inj h
      exact ⟨[], payloads, rfl, rfl, rfl⟩
  | cons first before ih =>
    cases payloads with
    | nil => cases h
    | cons payload payloads =>
      obtain ⟨hFirst, hRest⟩ := List.cons.inj h
      obtain ⟨earlier, later, rfl, rfl, hOffset⟩ := ih hRest
      refine ⟨payload :: earlier, later, rfl, by rw [recordsFrom, hFirst], ?_⟩
      rw [hOffset, List.flatMap_cons, List.length_append, Nat.add_assoc]

/-- A file that is read without an error holds the frames of its records. -/
theorem segment_of_readFile {file : Bytes} {records : List SegmentRecord} (h : readFile file = .ok (records, none)) :
    ∃ payloads : List Bytes, (∀ payload ∈ payloads, Sized payload) ∧ file = segmentBytes payloads ∧
      records = recordsFrom 8 payloads := by
  rw [readFile] at h
  cases hOpen : SegmentReader.openFile file with
  | error error =>
    rw [hOpen] at h
    cases h
  | ok reader =>
    rw [hOpen] at h
    obtain ⟨hFile, hOffset⟩ := openFile_eq_ok hOpen
    obtain ⟨payloads, hSized, hUnread, hRecords⟩ := SegmentReader.unread_of_readAll reader (Except.ok.inj h)
    exact ⟨payloads, hSized, by rw [hFile, hUnread, segmentBytes], by rw [hRecords, hOffset]⟩

theorem readFile_corrupted {earlier later : List Bytes} {payload : Bytes}
    (hSized : ∀ other ∈ earlier ++ payload :: later, Sized other) {index : Nat} {byte : UInt8}
    (hIndex : index < 8 + payload.length)
    (hByte : (segmentBytes (earlier ++ payload :: later))[(segmentBytes earlier).length + 4 + index]? ≠ some byte) :
    ∃ expected actual, expected ≠ actual ∧
      readFile ((segmentBytes (earlier ++ payload :: later)).set ((segmentBytes earlier).length + 4 + index) byte) =
        .ok (recordsFrom 8 earlier, some (.checksumMismatch (segmentBytes earlier).length expected actual)) := by
  have hPayload : Sized payload := hSized payload (by simp)
  have hWord := length_u32Bytes (UInt32.ofNat payload.length)
  have hSplit : segmentBytes (earlier ++ payload :: later) =
      segmentBytes earlier ++ (u32Bytes (UInt32.ofNat payload.length) ++
        ((u64Bytes (checksum payload) ++ payload) ++ later.flatMap frame)) := by
    rw [segmentBytes_append, List.flatMap_cons, frame]
    simp only [List.append_assoc]
  have hBody : (u64Bytes (checksum payload) ++ payload).length = 8 + payload.length := by
    rw [List.length_append, length_u64Bytes]
  have hBodyByte : (u64Bytes (checksum payload) ++ payload)[index]? ≠ some byte := by
    rw [hSplit, List.getElem?_append_right (by omega), List.getElem?_append_right (by omega),
      List.getElem?_append_left (by omega)] at hByte
    have hPosition : (segmentBytes earlier).length + 4 + index - (segmentBytes earlier).length -
        (u32Bytes (UInt32.ofNat payload.length)).length = index := by omega
    rwa [hPosition] at hByte
  obtain ⟨sum, altered, hSum, hAltered, hSet, hMismatch⟩ := corrupted_fields hIndex hBodyByte
  have hCorrupted :
      (segmentBytes (earlier ++ payload :: later)).set ((segmentBytes earlier).length + 4 + index) byte =
      segmentBytes earlier ++ (u32Bytes (UInt32.ofNat altered.length) ++
        (sum ++ (altered ++ later.flatMap frame))) := by
    have hPosition : (segmentBytes earlier).length + 4 + index - (segmentBytes earlier).length -
        (u32Bytes (UInt32.ofNat payload.length)).length = index := by omega
    rw [hSplit, List.set_append_right _ _ (by omega), List.set_append_right _ _ (by omega), hPosition,
      List.set_append_left _ _ (by omega), hSet, hAltered, List.append_assoc]
  have hAlteredSized : Sized altered := by
    rw [Sized, hAltered]
    exact hPayload
  refine ⟨u64OfBytes sum, checksum altered, hMismatch, ?_⟩
  rw [hCorrupted, readFile_append fun other hOther => hSized other (List.mem_append_left _ hOther),
    SegmentReader.readAll_eq, readNext_fields hAlteredSized hSum _ _ hMismatch]
  simp only [List.append_nil]

/-- A replaced byte of a payload or of a checksum field stops the reader at its record. -/
theorem corruption_detected :
    (∀ (file : Bytes) (before after : List SegmentRecord) (record : SegmentRecord) (position : Nat) (byte : UInt8),
      readFile file = .ok (before ++ record :: after, none) →
      record.offset + 4 ≤ position → position < record.offset + 12 + record.payload.length →
      file[position]? ≠ some byte →
      ∃ expected actual, expected ≠ actual ∧
        readFile (file.set position byte) =
          .ok (before, some (.checksumMismatch record.offset expected actual))) ∧
    ∀ (index : Nat) (left right : Bytes), DifferAt index left right → checksum left ≠ checksum right := by
  refine ⟨?_, fun index left right hDiffer => fnv1a_ne_of_differAt hDiffer⟩
  intro file before after record position byte hRead hLow hHigh hByte
  obtain ⟨payloads, hSized, rfl, hRecords⟩ := segment_of_readFile hRead
  obtain ⟨earlier, later, rfl, rfl, hOffset⟩ := recordsFrom_eq_append hRecords.symm
  rw [← length_segmentBytes] at hOffset
  obtain ⟨index, rfl⟩ : ∃ index, position = (segmentBytes earlier).length + 4 + index :=
    ⟨position - (record.offset + 4), by omega⟩
  rw [hOffset]
  exact readFile_corrupted hSized (by omega) hByte

/-- The second of two records, a byte of its payload and a byte of its checksum field. -/
theorem corruption_detected_second :
    (∃ expected actual, expected ≠ actual ∧
      readFile ((segmentBytes [[1, 2, 3], [4, 5]]).set 36 0) =
        .ok (recordsFrom 8 [[1, 2, 3]], some (.checksumMismatch 23 expected actual))) ∧
    (∃ expected actual, expected ≠ actual ∧
      readFile ((segmentBytes [[1, 2, 3], [4, 5]]).set 30 0) =
        .ok (recordsFrom 8 [[1, 2, 3]], some (.checksumMismatch 23 expected actual))) ∧
    checksum [1, 2, 3] ≠ checksum [1, 0, 3] := by
  have hRead : readFile (segmentBytes [[1, 2, 3], [4, 5]]) =
      .ok (recordsFrom 8 [[1, 2, 3]] ++ ⟨23, checksum [4, 5], [4, 5]⟩ :: [], none) := by
    decide +kernel
  refine ⟨?_, ?_, ?_⟩
  · exact corruption_detected.1 _ _ _ _ 36 0 hRead (by decide) (by decide) (by decide)
  · exact corruption_detected.1 _ _ _ _ 30 0 hRead (by decide) (by decide) (by decide)
  · refine corruption_detected.2 1 _ _ ⟨rfl, fun other => ?_⟩
    match other with
    | 0 | 1 | 2 | _ + 3 => simp

end Vannak.Storage
