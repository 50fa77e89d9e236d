import Vannak.Storage.Format

/-!
# Segment discovery

`validate_and_manifest_segment` of `daemon.rs` has a scanner of its own, apart from the reader of `storage.rs`. The two
are compared one read at a time.
-/

namespace Vannak.Daemon

open Foundation Storage

set_option autoImplicit false

def segmentMagicLen : Nat := 8

def combineChecksum (current next : UInt64) : UInt64 := (current <<< 7 ||| current >>> 57) ^^^ next

def checksumValue (payload : Bytes) : UInt64 :=
  payload.foldl (fun hash byte => (hash ^^^ byte.toUInt64) * 0x00000100000001b3) 0xcbf29ce484222325

/-- The file that is left to read, and the position in it. -/
structure SegmentScanner where
  unread : Bytes
  offset : Nat

namespace SegmentScanner

/-- `SegmentRecord` of `daemon.rs`. -/
structure Record where
  offset : Nat
  checksum : UInt64
  payload : Bytes

def openFile (file : Bytes) : Except SegmentError SegmentScanner := do
  let (magic, unread) ← (readExact 8 file).mapError .io
  if magic ≠ utf8Bytes "VANNAK01" then throw .invalidMagic
  return { unread, offset := segmentMagicLen }

def currentOffset (scanner : SegmentScanner) : Nat := scanner.offset

def readNext (scanner : SegmentScanner) : Except SegmentError (Option (Record × SegmentScanner)) :=
  if scanner.unread = [] then .ok none
  else if scanner.unread.length < 4 then
    .error (.trailingBytes scanner.offset (scanner.offset + scanner.unread.length))
  else do
    let lenBuf := scanner.unread.take 4
    let (checksumBuf, unread) ← (readExact 8 (scanner.unread.drop 4)).mapError .io
    let len := (u32OfBytes lenBuf).toNat
    let expected := u64OfBytes checksumBuf
    let (payload, unread) ← (readExact len unread).mapError .io
    let actual := checksumValue payload
    if actual ≠ expected then throw (.checksumMismatch scanner.offset expected actual)
    return some (⟨scanner.offset, actual, payload⟩, ⟨unread, scanner.offset + (4 + 8 + len)⟩)

end SegmentScanner

/-- The counters of the loop. -/
structure Scanned where
  recordCount : Nat
  byteLen : Nat
  checksum : UInt64
deriving DecidableEq

/-- `while let Some(record) = inner.read_next()? { .. }`. A record is twelve bytes or more, so that the length of the
file bounds the rounds. -/
def scanFuel : Nat → SegmentScanner → Scanned → Except SegmentError Scanned
  | 0, _, scanned => .ok scanned
  | fuel + 1, scanner, scanned => do
    match ← scanner.readNext with
    | none => return scanned
    | some (record, next) =>
      scanFuel fuel next {
        recordCount := scanned.recordCount + 1
        byteLen := next.currentOffset
        checksum := combineChecksum scanned.checksum record.checksum }

/-- `Path::file_stem`: the last component without its last extension. -/
def fileStem (path : PathBuf) : PathBuf :=
  let components := (path.bytes.splitOn 0x2F).filter fun component => component ≠ [] ∧ component ≠ utf8Bytes "."
  match components.getLast? with
  | none => ⟨[]⟩
  | some name =>
    let before := (name.reverse.dropWhile (· ≠ 0x2E)).drop 1
    if name = utf8Bytes ".." then ⟨[]⟩
    else if before = [] then ⟨name⟩
    else ⟨before.reverse⟩

example : fileStem (.ofString "/data/segments/archive.tar.seg") = .ofString "archive.tar" := by
  decide

def validateAndManifestSegment (path : PathBuf) (file : Bytes) : Except SegmentError SegmentManifest := do
  let inner ← SegmentScanner.openFile file
  let scanned ← scanFuel (inner.unread.length + 1) inner ⟨0, segmentMagicLen, 0⟩
  if file.length ≠ scanned.byteLen then throw (.trailingBytes scanned.byteLen file.length)
  return {
    segmentId := ⟨(fileStem path).toStringLossy⟩
    nodeId := ⟨"discovery"⟩
    path
    recordCount := scanned.recordCount
    byteLen := scanned.byteLen
    checksum := scanned.checksum }

/-! ## One read -/

/-- A check before a result is the same check whatever is made of the result. -/
theorem refused_map {α β : Type} (view : α → β) (refused : Prop) [Decidable refused] (error : SegmentError)
    (value : α) : (if refused then .error error else .ok (view value)) =
      Except.map view (if refused then .error error else .ok value) := by
  split
  · rfl
  · rfl

namespace SegmentScanner

/-- The reader at the same position. -/
def reader (scanner : SegmentScanner) : SegmentReader := ⟨scanner.unread, scanner.offset⟩

def ofReader (reader : SegmentReader) : SegmentScanner := ⟨reader.unread, reader.offset⟩

def Record.ofRecord (record : SegmentRecord) : Record := ⟨record.offset, record.checksum, record.payload⟩

theorem openFile_eq (file : Bytes) : openFile file = (SegmentReader.openFile file).map ofReader := by
  rw [openFile, SegmentReader.openFile, length_segmentMagic]
  cases readExact 8 file with
  | error error => rfl
  | ok parts =>
    obtain ⟨magic, unread⟩ := parts
    simp only [Except.mapError, bind, Except.bind]
    change (if magic ≠ segmentMagic then _ else _) = _
    split
    · rfl
    · rfl

theorem readNext_eq (scanner : SegmentScanner) :
    scanner.readNext =
      scanner.reader.readNext.map (Option.map fun found => (Record.ofRecord found.1, ofReader found.2)) := by
  rw [readNext, SegmentReader.readNext, reader]
  dsimp only
  split
  · rfl
  · split
    · rfl
    · cases readExact 8 (scanner.unread.drop 4) with
      | error error => rfl
      | ok parts =>
        obtain ⟨checksumBuf, unread⟩ := parts
        simp only [Except.mapError, bind, Except.bind]
        cases readExact (u32OfBytes (scanner.unread.take 4)).toNat unread with
        | error error => rfl
        | ok parts =>
          obtain ⟨payload, unread⟩ := parts
          exact refused_map
            (Option.map fun found : SegmentRecord × SegmentReader => (Record.ofRecord found.1, ofReader found.2))
            (checksum payload ≠ u64OfBytes checksumBuf)
            (.checksumMismatch scanner.offset (u64OfBytes checksumBuf) (checksum payload))
            (some (⟨scanner.offset, checksum payload, payload⟩,
              ⟨unread, scanner.offset + (4 + 8 + (u32OfBytes (scanner.unread.take 4)).toNat)⟩))

end SegmentScanner

/-! ## Whole files -/

def Scanned.ofStats (stats : SegmentStats) : Scanned := ⟨stats.recordCount, stats.byteLen, stats.checksum⟩

theorem scanFuel_eq (fuel : Nat) (reader : SegmentReader) (stats : SegmentStats) :
    scanFuel fuel (.ofReader reader) (.ofStats stats) =
      (SegmentReader.whileSomeFuel id (fun (stats : SegmentStats) record after => .ok (stats.add record after))
        fuel reader stats).map Scanned.ofStats := by
  induction fuel generalizing reader stats with
  | zero => rfl
  | succ fuel ih =>
    rw [scanFuel, SegmentReader.whileSomeFuel, SegmentScanner.readNext_eq]
    change (Except.map _ reader.readNext).bind _ = _
    cases reader.readNext with
    | error error => rfl
    | ok found =>
      cases found with
      | none => rfl
      | some found =>
        obtain ⟨record, next⟩ := found
        exact ih next (stats.add record next)

/-- The manifest that discovery makes of the counters. -/
def discovered (path : PathBuf) (stats : SegmentStats) : SegmentManifest where
  segmentId := ⟨(fileStem path).toStringLossy⟩
  nodeId := ⟨"discovery"⟩
  path := path
  recordCount := stats.recordCount
  byteLen := stats.byteLen
  checksum := stats.checksum

theorem validateAndManifestSegment_eq (path : PathBuf) (file : Bytes) :
    validateAndManifestSegment path file = (scanSegment file).map (discovered path) := by
  rw [validateAndManifestSegment, scanSegment, SegmentScanner.openFile_eq]
  cases SegmentReader.openFile file with
  | error error => rfl
  | ok reader =>
    have hScan : scanFuel (reader.unread.length + 1) (.ofReader reader) ⟨0, segmentMagicLen, 0⟩ = _ :=
      scanFuel_eq (reader.unread.length + 1) reader .initial
    change (scanFuel (reader.unread.length + 1) (.ofReader reader) ⟨0, segmentMagicLen, 0⟩).bind _ =
      Except.map _ ((reader.whileSome id _ SegmentStats.initial).bind _)
    rw [hScan, SegmentReader.whileSome]
    cases SegmentReader.whileSomeFuel id (fun (stats : SegmentStats) record after => .ok (stats.add record after))
        (reader.unread.length + 1) reader .initial with
    | error error => rfl
    | ok stats =>
      exact refused_map (discovered path) (file.length ≠ stats.byteLen) _ stats

/-- What a scan of a whole file counts. -/
def counters (manifest : SegmentManifest) : Scanned := ⟨manifest.recordCount, manifest.byteLen, manifest.checksum⟩

theorem openAppend_isOk_iff (file : Bytes) (path : PathBuf) (segmentId : SegmentId) (nodeId : NodeId) :
    (∃ writer, SegmentWriter.openAppend file path segmentId nodeId = .ok writer) ↔
      ∃ stats, scanSegment file = .ok stats := by
  rw [SegmentWriter.openAppend]
  cases scanSegment file with
  | error error =>
    constructor
    · rintro ⟨_, hOk⟩
      cases hOk
    · rintro ⟨_, hOk⟩
      cases hOk
  | ok stats => exact iff_of_true ⟨_, rfl⟩ ⟨_, rfl⟩

/-- Discovery counts what a scan counts and fails where a scan fails, with the same error. -/
theorem discovery_agrees (path : PathBuf) (file : Bytes) :
    (validateAndManifestSegment path file).map counters = (scanSegment file).map Scanned.ofStats ∧
      ((∃ manifest, validateAndManifestSegment path file = .ok manifest) ↔
        ∃ stats, scanSegment file = .ok stats) ∧
      (∀ segmentId nodeId,
        (∃ writer, SegmentWriter.openAppend file path segmentId nodeId = .ok writer) ↔
          ∃ manifest, validateAndManifestSegment path file = .ok manifest) ∧
      ∀ error, validateAndManifestSegment path file = .error error ↔ scanSegment file = .error error := by
  have hOk : (∃ manifest, validateAndManifestSegment path file = .ok manifest) ↔
      ∃ stats, scanSegment file = .ok stats := by
    rw [validateAndManifestSegment_eq]
    cases scanSegment file with
    | error error =>
      constructor
      · rintro ⟨_, hMap⟩
        cases hMap
      · rintro ⟨_, hMap⟩
        cases hMap
    | ok stats => exact iff_of_true ⟨_, rfl⟩ ⟨_, rfl⟩
  refine ⟨?_, hOk, fun segmentId nodeId => (openAppend_isOk_iff file path segmentId nodeId).trans hOk.symm, ?_⟩
  · rw [validateAndManifestSegment_eq]
    cases scanSegment file <;> rfl
  · intro error
    rw [validateAndManifestSegment_eq]
    cases scanSegment file with
    | error other =>
      constructor
      · intro hSame
        exact congrArg _ (Except.error.inj hSame)
      · intro hSame
        exact congrArg _ (Except.error.inj hSame)
    | ok stats => exact iff_of_false (fun hMap => by cases hMap) (fun hMap => by cases hMap)

end Vannak.Daemon
