import Vannak.Storage.Segment

/-!
# What a reader returns

A frame is the unit of the format. Everything about readers is derived from what
one `readNext` does with a frame at the front of the unread bytes, and from its
converse: a returned record stands there as a frame.
-/

namespace Vannak.Storage

open Foundation

set_option autoImplicit false

/-- `append_record` accepts the payload. -/
def Sized (payload : Bytes) : Prop := payload.length ≤ maxRecordLen

instance (payload : Bytes) : Decidable (Sized payload) := inferInstanceAs (Decidable (_ ≤ _))

/-- `len_le32 ++ checksum_le64 ++ payload`. -/
def frame (payload : Bytes) : Bytes :=
  u32Bytes (UInt32.ofNat payload.length) ++ (u64Bytes (checksum payload) ++ payload)

/-- The records of consecutive frames, the first of which starts at `offset`. -/
def recordsFrom : Nat → List Bytes → List SegmentRecord
  | _, [] => []
  | offset, payload :: payloads =>
    ⟨offset, checksum payload, payload⟩ :: recordsFrom (offset + (frame payload).length) payloads

@[simp] theorem length_segmentMagic : segmentMagic.length = 8 := by decide

@[simp] theorem length_frame (payload : Bytes) : (frame payload).length = 12 + payload.length := by
  simp only [frame, List.length_append, length_u32Bytes, length_u64Bytes]
  omega

theorem Sized.lt {payload : Bytes} (h : Sized payload) : payload.length < 2 ^ 32 := by
  have hMax : payload.length ≤ 2 ^ 32 - 1 := h
  omega

theorem readExact_eq_ok {count : Nat} {unread bytes rest : Bytes} :
    readExact count unread = .ok (bytes, rest) ↔ unread = bytes ++ rest ∧ bytes.length = count := by
  rw [readExact]
  split
  · rename_i hCount
    simp only [Except.ok.injEq, Prod.mk.injEq]
    constructor
    · rintro ⟨rfl, rfl⟩
      exact ⟨(List.take_append_drop count unread).symm, by simpa using hCount⟩
    · rintro ⟨rfl, rfl⟩
      exact ⟨List.take_left, List.drop_left⟩
  · rename_i hCount
    constructor
    · intro h
      cases h
    · rintro ⟨rfl, rfl⟩
      exact absurd (by simp) hCount

theorem readExact_append {bytes : Bytes} {count : Nat} (h : bytes.length = count) (rest : Bytes) :
    readExact count (bytes ++ rest) = .ok (bytes, rest) :=
  readExact_eq_ok.mpr ⟨rfl, h⟩

namespace SegmentReader

/-! ## One record -/

theorem readNext_frame {payload : Bytes} (h : Sized payload) (rest : Bytes) (offset : Nat) :
    readNext ⟨frame payload ++ rest, offset⟩ =
      .ok (some (⟨offset, checksum payload, payload⟩, ⟨rest, offset + (frame payload).length⟩)) := by
  have hLen : (UInt32.ofNat payload.length).toNat = payload.length := UInt32.toNat_ofNat_of_lt' h.lt
  have hLength := length_u32Bytes (UInt32.ofNat payload.length)
  have hUnread : frame payload ++ rest = u32Bytes (UInt32.ofNat payload.length) ++
      (u64Bytes (checksum payload) ++ (payload ++ rest)) := by
    simp only [frame, List.append_assoc]
  have hTake : (frame payload ++ rest).take 4 = u32Bytes (UInt32.ofNat payload.length) := by
    rw [hUnread, List.take_left' hLength]
  have hDrop : (frame payload ++ rest).drop 4 = u64Bytes (checksum payload) ++ (payload ++ rest) := by
    rw [hUnread, List.drop_left' hLength]
  have hTotal : (frame payload ++ rest).length = 12 + payload.length + rest.length := by simp
  have hNonempty : frame payload ++ rest ≠ [] := by
    intro hNil
    rw [hNil, List.length_nil] at hTotal
    omega
  rw [readNext, if_neg hNonempty, if_neg (by rw [hTotal]; omega)]
  simp only [hTake, hDrop, readExact_append (length_u64Bytes _), Except.mapError, bind, Except.bind,
    u32OfBytes_u32Bytes, u64OfBytes_u64Bytes, hLen, readExact_append rfl, ne_eq, not_true_eq_false,
    if_false, pure, Except.pure, length_frame]

/-- What the reader returned stood at the front as a frame. -/
theorem readNext_eq_some {reader next : SegmentReader} {record : SegmentRecord}
    (h : reader.readNext = .ok (some (record, next))) :
    Sized record.payload ∧ reader.unread = frame record.payload ++ next.unread ∧
      record = ⟨reader.offset, checksum record.payload, record.payload⟩ ∧
      next.offset = reader.offset + (frame record.payload).length := by
  rw [readNext] at h
  split at h
  · cases h
  split at h
  · cases h
  rename_i hFour
  cases hChecksum : readExact 8 (reader.unread.drop 4) with
  | error error => simp [hChecksum, Except.mapError, bind, Except.bind] at h
  | ok pair =>
    obtain ⟨checksumBuf, unread⟩ := pair
    simp only [hChecksum, Except.mapError, bind, Except.bind] at h
    cases hPayload : readExact (u32OfBytes (reader.unread.take 4)).toNat unread with
    | error error => simp [hPayload] at h
    | ok pair =>
      obtain ⟨payload, rest⟩ := pair
      simp only [hPayload] at h
      split at h
      · cases h
      rename_i hActual
      simp only [pure, Except.pure, Except.ok.injEq, Option.some.injEq, Prod.mk.injEq] at h
      obtain ⟨rfl, rfl⟩ := h
      obtain ⟨hDrop, hEight⟩ := readExact_eq_ok.mp hChecksum
      obtain ⟨hUnread, hLen⟩ := readExact_eq_ok.mp hPayload
      have hTakeLength : (reader.unread.take 4).length = 4 := by
        rw [List.length_take]
        omega
      have hSized : Sized payload := by
        have hLt := (u32OfBytes (reader.unread.take 4)).toNat_lt
        rw [Sized, maxRecordLen]
        omega
      refine ⟨hSized, ?_, rfl, ?_⟩
      · have hWord : u32Bytes (UInt32.ofNat payload.length) = reader.unread.take 4 := by
          rw [hLen, UInt32.ofNat_toNat, u32Bytes_u32OfBytes hTakeLength]
        have hSum : u64Bytes (checksum payload) = checksumBuf := by
          rw [not_not.mp hActual, u64Bytes_u64OfBytes hEight]
        calc
          reader.unread = reader.unread.take 4 ++ reader.unread.drop 4 :=
            (List.take_append_drop 4 reader.unread).symm
          _ = frame payload ++ rest := by
            rw [hDrop, hUnread, frame, hWord, hSum, List.append_assoc, List.append_assoc]
      · simp only [length_frame, hLen]

theorem readNext_eq_none {reader : SegmentReader} (h : reader.readNext = .ok none) :
    reader.unread = [] := by
  rw [readNext] at h
  split at h
  · assumption
  split at h
  · cases h
  cases hChecksum : readExact 8 (reader.unread.drop 4) with
  | error error => simp [hChecksum, Except.mapError, bind, Except.bind] at h
  | ok pair =>
    simp only [hChecksum, Except.mapError, bind, Except.bind] at h
    cases hPayload : readExact (u32OfBytes (reader.unread.take 4)).toNat pair.2 with
    | error error => simp [hPayload] at h
    | ok rest =>
      simp only [hPayload] at h
      split at h <;> cases h

/-- A nonempty proper prefix of a frame is an error, whichever field it ends in. -/
theorem readNext_torn {payload torn rest : Bytes} (hSized : Sized payload)
    (hFrame : frame payload = torn ++ rest) (hTorn : torn ≠ []) (hRest : rest ≠ []) (offset : Nat) :
    ∃ error, readNext ⟨torn, offset⟩ = .error error := by
  cases h : readNext ⟨torn, offset⟩ with
  | error error => exact ⟨error, rfl⟩
  | ok found =>
    cases found with
    | none => exact absurd (readNext_eq_none h) hTorn
    | some pair =>
      obtain ⟨record, next⟩ := pair
      obtain ⟨hRecord, hUnread, -, -⟩ := readNext_eq_some h
      have hUnread : torn = frame record.payload ++ next.unread := hUnread
      -- Both frames start with the same four length bytes, so the torn one is whole.
      have hWords : u32Bytes (UInt32.ofNat payload.length) =
          u32Bytes (UInt32.ofNat record.payload.length) := by
        have hFour := congrArg (List.take 4) hFrame
        rw [hUnread] at hFour
        simpa [frame] using hFour
      have hLengths : payload.length = record.payload.length := by
        have hBack := congrArg (fun bytes => (u32OfBytes bytes).toNat) hWords
        simpa [UInt32.toNat_ofNat_of_lt' hSized.lt, UInt32.toNat_ofNat_of_lt' hRecord.lt] using hBack
      have hTotal := congrArg List.length hFrame
      rw [hUnread] at hTotal
      simp only [length_frame, List.length_append] at hTotal
      have hPositive := List.length_pos_iff.mpr hRest
      omega

theorem readNext_shorter {reader next : SegmentReader} {record : SegmentRecord}
    (h : reader.readNext = .ok (some (record, next))) : next.unread.length < reader.unread.length := by
  have hLength := congrArg List.length (readNext_eq_some h).2.1
  simp only [List.length_append, length_frame] at hLength
  omega

/-! ## Full reads -/

theorem readAllFuel_eq {fuel : Nat} {reader : SegmentReader} (h : reader.unread.length < fuel) :
    readAllFuel fuel reader = readAll reader := by
  induction fuel using Nat.strongRecOn generalizing reader with
  | ind fuel ih =>
    obtain ⟨fuel, rfl⟩ : ∃ smaller, fuel = smaller + 1 := ⟨fuel - 1, by omega⟩
    rw [readAll, readAllFuel, readAllFuel]
    cases hNext : reader.readNext with
    | error error => rfl
    | ok found =>
      cases found with
      | none => rfl
      | some pair =>
        obtain ⟨record, next⟩ := pair
        have hShorter := readNext_shorter hNext
        simp only
        rw [ih fuel (by omega) (by omega)]
        by_cases hSame : reader.unread.length = fuel
        · rw [hSame, ih fuel (by omega) (by omega)]
        · rw [ih reader.unread.length (by omega) (by omega)]

/-- The loop equation of a full read, without fuel. -/
theorem readAll_eq (reader : SegmentReader) : readAll reader =
    match reader.readNext with
    | .error error => ([], some error)
    | .ok none => ([], none)
    | .ok (some (record, next)) => (record :: (readAll next).1, (readAll next).2) := by
  rw [readAll, readAllFuel]
  cases hNext : reader.readNext with
  | error error => rfl
  | ok found =>
    cases found with
    | none => rfl
    | some pair =>
      obtain ⟨record, next⟩ := pair
      simp only
      rw [readAllFuel_eq (readNext_shorter hNext)]

theorem readAll_nil (offset : Nat) : readAll ⟨[], offset⟩ = ([], none) := rfl

theorem readAll_frames {payloads : List Bytes} (h : ∀ payload ∈ payloads, Sized payload)
    (rest : Bytes) (offset : Nat) :
    readAll ⟨payloads.flatMap frame ++ rest, offset⟩ =
      (recordsFrom offset payloads ++
        (readAll ⟨rest, offset + (payloads.flatMap frame).length⟩).1,
      (readAll ⟨rest, offset + (payloads.flatMap frame).length⟩).2) := by
  induction payloads generalizing offset with
  | nil => simp [recordsFrom]
  | cons payload payloads ih =>
    have hTail := ih (fun other hOther => h other (List.mem_cons_of_mem payload hOther))
      (offset + (frame payload).length)
    rw [readAll_eq, List.flatMap_cons, List.append_assoc, readNext_frame (h payload List.mem_cons_self)]
    simp only [hTail, recordsFrom, List.cons_append, List.length_append, Nat.add_assoc]

/-- A full read without an error has consumed a sequence of frames. -/
theorem unread_of_readAll (reader : SegmentReader) {records : List SegmentRecord}
    (h : readAll reader = (records, none)) :
    ∃ payloads : List Bytes, (∀ payload ∈ payloads, Sized payload) ∧
      reader.unread = payloads.flatMap frame ∧ records = recordsFrom reader.offset payloads := by
  induction hLength : reader.unread.length using Nat.strongRecOn generalizing reader records with
  | ind length ih =>
    rw [readAll_eq] at h
    split at h
    · cases h
    · rename_i hNext
      cases h
      exact ⟨[], by simp, readNext_eq_none hNext, rfl⟩
    · rename_i record next hNext
      obtain ⟨hRecords, hStop⟩ := Prod.mk.inj h
      have hShorter := readNext_shorter hNext
      obtain ⟨hSized, hUnread, hRecord, hOffset⟩ := readNext_eq_some hNext
      obtain ⟨payloads, hAll, hRest, hTail⟩ :=
        ih next.unread.length (by omega) next (Prod.ext rfl hStop) rfl
      refine ⟨record.payload :: payloads, ?_, ?_, ?_⟩
      · intro payload hPayload
        rcases List.mem_cons.mp hPayload with rfl | hPayload
        · exact hSized
        · exact hAll payload hPayload
      · rw [hUnread, hRest, List.flatMap_cons]
      · rw [← hRecords, recordsFrom, ← hRecord, ← hOffset]
        exact congrArg (List.cons record) hTail

/-! ## The reading loop -/

section Loop

variable {σ ε : Type} (segmentError : SegmentError → ε)
  (body : σ → SegmentRecord → SegmentReader → Except ε σ)

theorem whileSomeFuel_eq {fuel : Nat} {reader : SegmentReader} (h : reader.unread.length < fuel)
    (state : σ) :
    whileSomeFuel segmentError body fuel reader state = reader.whileSome segmentError body state := by
  induction fuel using Nat.strongRecOn generalizing reader state with
  | ind fuel ih =>
    obtain ⟨fuel, rfl⟩ : ∃ smaller, fuel = smaller + 1 := ⟨fuel - 1, by omega⟩
    rw [whileSome, whileSomeFuel, whileSomeFuel]
    cases hNext : reader.readNext with
    | error error => rfl
    | ok found =>
      cases found with
      | none => rfl
      | some pair =>
        obtain ⟨record, next⟩ := pair
        have hShorter := readNext_shorter hNext
        simp only
        cases body state record next with
        | error error => rfl
        | ok state =>
          simp only
          rw [ih fuel (by omega) (by omega)]
          by_cases hSame : reader.unread.length = fuel
          · rw [hSame, ih fuel (by omega) (by omega)]
          · rw [ih reader.unread.length (by omega) (by omega)]

theorem whileSome_eq (reader : SegmentReader) (state : σ) :
    reader.whileSome segmentError body state =
      match reader.readNext with
      | .error error => .error (segmentError error)
      | .ok none => .ok state
      | .ok (some (record, next)) =>
        match body state record next with
        | .error error => .error error
        | .ok state => next.whileSome segmentError body state := by
  rw [whileSome, whileSomeFuel]
  cases hNext : reader.readNext with
  | error error => rfl
  | ok found =>
    cases found with
    | none => rfl
    | some pair =>
      obtain ⟨record, next⟩ := pair
      simp only
      cases body state record next with
      | error error => rfl
      | ok state =>
        simp only
        rw [whileSomeFuel_eq segmentError body (readNext_shorter hNext)]

/-- Over consecutive frames the loop folds its body over their records. -/
theorem whileSome_frames {payloads : List Bytes} (h : ∀ payload ∈ payloads, Sized payload)
    (offset : Nat) (step : σ → SegmentRecord → Except ε σ)
    (hStep : ∀ state record unread, body state record
      ⟨unread, record.offset + (frame record.payload).length⟩ = step state record) (state : σ) :
    whileSome ⟨payloads.flatMap frame, offset⟩ segmentError body state =
      (recordsFrom offset payloads).foldlM step state := by
  induction payloads generalizing offset state with
  | nil => rfl
  | cons payload payloads ih =>
    rw [whileSome_eq, List.flatMap_cons, readNext_frame (h payload List.mem_cons_self)]
    simp only [hStep state ⟨offset, checksum payload, payload⟩, recordsFrom, List.foldlM_cons, bind,
      Except.bind]
    cases step state ⟨offset, checksum payload, payload⟩ with
    | error error => rfl
    | ok state => exact ih (fun other hOther => h other (List.mem_cons_of_mem payload hOther)) _ state

/-- Two loops whose bodies agree through a function of their states. -/
theorem whileSome_map {τ : Type} {body : σ → SegmentRecord → SegmentReader → Except ε σ}
    {other : τ → SegmentRecord → SegmentReader → Except ε τ} {view : σ → τ}
    (hBody : ∀ state record next, other (view state) record next = (body state record next).map view)
    (reader : SegmentReader) (state : σ) :
    reader.whileSome segmentError other (view state) = (reader.whileSome segmentError body state).map view := by
  induction hLength : reader.unread.length using Nat.strongRecOn generalizing reader state with
  | ind length ih =>
    rw [whileSome_eq, whileSome_eq]
    cases hNext : reader.readNext with
    | error error => rfl
    | ok found =>
      cases found with
      | none => rfl
      | some pair =>
        obtain ⟨record, next⟩ := pair
        have hShorter := readNext_shorter hNext
        simp only [hBody]
        cases body state record next with
        | error error => rfl
        | ok state => exact ih next.unread.length (by omega) next state rfl

/-- A loop that ends without an error has seen a clean end of file. -/
theorem readAll_of_whileSome {reader : SegmentReader} {state final : σ}
    (h : reader.whileSome segmentError body state = .ok final) : (readAll reader).2 = none := by
  induction hLength : reader.unread.length using Nat.strongRecOn generalizing reader state with
  | ind length ih =>
    rw [whileSome_eq] at h
    rw [readAll_eq]
    cases hNext : reader.readNext with
    | error error => simp [hNext] at h
    | ok found =>
      cases found with
      | none => rfl
      | some pair =>
        obtain ⟨record, next⟩ := pair
        have hShorter := readNext_shorter hNext
        simp only [hNext] at h
        cases hBody : body state record next with
        | error error => simp [hBody] at h
        | ok state =>
          simp only [hBody] at h
          exact ih next.unread.length (by omega) h rfl

end Loop

end SegmentReader

end Vannak.Storage
