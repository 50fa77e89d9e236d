import Vannak.Identity

/-!
# Append-only event segments

The writer, the reader and the scan of `storage.rs`. A file is its content; the
handle inside a writer is the content of the file it points to, which is what
survives when the writer is dropped. Positions in a file are natural numbers: the
operating system refuses a write long before a `u64` position could overflow.
-/

namespace Vannak.Storage

open Foundation

set_option autoImplicit false

abbrev RecordOffset := Nat

/-- `SEGMENT_MAGIC`. -/
def segmentMagic : Bytes := utf8Bytes "VANNAK01"

/-- `MAX_RECORD_LEN`, that is `u32::MAX`. -/
def maxRecordLen : Nat := 2 ^ 32 - 1

inductive IoError where
  | notFound
  | alreadyExists
  | unexpectedEof
  | writeFailed
deriving DecidableEq, Repr

inductive SegmentError where
  | io (error : IoError)
  | invalidMagic
  | recordTooLarge (len : Nat)
  | checksumMismatch (offset : Nat) (expected actual : UInt64)
  | trailingBytes (offset byteLen : Nat)
deriving DecidableEq, Repr

structure SegmentManifest where
  segmentId : SegmentId
  nodeId : NodeId
  path : PathBuf
  recordCount : Nat
  byteLen : Nat
  checksum : UInt64
deriving DecidableEq, Repr

structure SegmentRecord where
  offset : Nat
  checksum : UInt64
  payload : Bytes
deriving DecidableEq, Repr

def checksum (payload : Bytes) : UInt64 := fnv1a payload

/-- `current.rotate_left(7) ^ next`. -/
def combineChecksum (current next : UInt64) : UInt64 :=
  (current <<< 7 ||| current >>> 57) ^^^ next

/-! ## Writer -/

/-- What a `write_all` call does: it writes everything, or it fails after some
prefix of its bytes has reached the file. -/
inductive WriteOutcome where
  | complete
  | failedAfter (written : Nat)
deriving DecidableEq, Repr

def writeAll (outcome : WriteOutcome) (file bytes : Bytes) : Except IoError Unit × Bytes :=
  match outcome with
  | .complete => (.ok (), file ++ bytes)
  | .failedAfter written => (.error .writeFailed, file ++ bytes.take written)

/-- The outcomes of the three `write_all` calls of one append. -/
structure DiskWrites where
  length : WriteOutcome
  checksum : WriteOutcome
  payload : WriteOutcome
deriving DecidableEq, Repr

def DiskWrites.healthy : DiskWrites := ⟨.complete, .complete, .complete⟩

structure SegmentWriter where
  segmentId : SegmentId
  nodeId : NodeId
  path : PathBuf
  file : Bytes
  recordCount : Nat
  byteLen : Nat
  checksum : UInt64
deriving DecidableEq, Repr

namespace SegmentWriter

/-- `existing` is the content already found under the path, if any. -/
def create (existing : Option Bytes) (path : PathBuf) (segmentId : SegmentId) (nodeId : NodeId) :
    Except SegmentError SegmentWriter :=
  match existing with
  | some _ => .error (.io .alreadyExists)
  | none => .ok {
      segmentId, nodeId, path
      file := segmentMagic
      recordCount := 0
      byteLen := segmentMagic.length
      checksum := 0 }

/-- `append_record` on a disk with the given outcomes. An error keeps the bytes
that were written before it and leaves the three counters alone. -/
def appendRecordOn (disk : DiskWrites) (writer : SegmentWriter) (payload : Bytes) :
    Except SegmentError RecordOffset × SegmentWriter :=
  if maxRecordLen < payload.length then (.error (.recordTooLarge payload.length), writer)
  else
    let offset := writer.byteLen
    let recordChecksum := Storage.checksum payload
    match writeAll disk.length writer.file (u32Bytes (UInt32.ofNat payload.length)) with
    | (.error error, file) => (.error (.io error), { writer with file })
    | (.ok (), file) =>
      match writeAll disk.checksum file (u64Bytes recordChecksum) with
      | (.error error, file) => (.error (.io error), { writer with file })
      | (.ok (), file) =>
        match writeAll disk.payload file payload with
        | (.error error, file) => (.error (.io error), { writer with file })
        | (.ok (), file) => (.ok offset, { writer with
            file
            recordCount := writer.recordCount + 1
            byteLen := writer.byteLen + (4 + 8 + payload.length)
            checksum := combineChecksum writer.checksum recordChecksum })

def appendRecord (writer : SegmentWriter) (payload : Bytes) :
    Except SegmentError RecordOffset × SegmentWriter :=
  writer.appendRecordOn .healthy payload

def manifest (writer : SegmentWriter) : SegmentManifest where
  segmentId := writer.segmentId
  nodeId := writer.nodeId
  path := writer.path
  recordCount := writer.recordCount
  byteLen := writer.byteLen
  checksum := writer.checksum

end SegmentWriter

/-! ## Reader -/

/-- `read_exact`: splits off `count` bytes, or fails at the end of the file. -/
def readExact (count : Nat) (unread : Bytes) : Except IoError (Bytes × Bytes) :=
  if count ≤ unread.length then .ok (unread.take count, unread.drop count) else .error .unexpectedEof

structure SegmentReader where
  unread : Bytes
  offset : Nat
deriving DecidableEq, Repr

namespace SegmentReader

def openFile (file : Bytes) : Except SegmentError SegmentReader := do
  let (magic, unread) ← (readExact segmentMagic.length file).mapError .io
  if magic ≠ segmentMagic then throw .invalidMagic
  return { unread, offset := segmentMagic.length }

/-- The length field is read by a loop that tells an empty rest from a partial
one; the other two fields are read by `read_exact`. -/
def readNext (reader : SegmentReader) : Except SegmentError (Option (SegmentRecord × SegmentReader)) :=
  if reader.unread = [] then .ok none
  else if reader.unread.length < 4 then
    .error (.trailingBytes reader.offset (reader.offset + reader.unread.length))
  else do
    let lenBuf := reader.unread.take 4
    let (checksumBuf, unread) ← (readExact 8 (reader.unread.drop 4)).mapError .io
    let len := (u32OfBytes lenBuf).toNat
    let expected := u64OfBytes checksumBuf
    let (payload, unread) ← (readExact len unread).mapError .io
    let actual := checksum payload
    if actual ≠ expected then throw (.checksumMismatch reader.offset expected actual)
    return some (⟨reader.offset, actual, payload⟩, ⟨unread, reader.offset + (4 + 8 + len)⟩)

/-- The records a full read returns, and the error it stops at if there is one. -/
def readAllFuel : Nat → SegmentReader → List SegmentRecord × Option SegmentError
  | 0, _ => ([], none)
  | fuel + 1, reader =>
    match reader.readNext with
    | .error error => ([], some error)
    | .ok none => ([], none)
    | .ok (some (record, next)) =>
      let (records, stop) := readAllFuel fuel next
      (record :: records, stop)

def readAll (reader : SegmentReader) : List SegmentRecord × Option SegmentError :=
  readAllFuel (reader.unread.length + 1) reader

/-- `while let Some(record) = reader.read_next()? { .. }` with a body that may
fail; the body also sees the reader after the record. -/
def whileSomeFuel {σ ε : Type} (segmentError : SegmentError → ε)
    (body : σ → SegmentRecord → SegmentReader → Except ε σ) :
    Nat → SegmentReader → σ → Except ε σ
  | 0, _, state => .ok state
  | fuel + 1, reader, state =>
    match reader.readNext with
    | .error error => .error (segmentError error)
    | .ok none => .ok state
    | .ok (some (record, next)) =>
      match body state record next with
      | .error error => .error error
      | .ok state => whileSomeFuel segmentError body fuel next state

def whileSome {σ ε : Type} (reader : SegmentReader) (segmentError : SegmentError → ε)
    (body : σ → SegmentRecord → SegmentReader → Except ε σ) (state : σ) : Except ε σ :=
  whileSomeFuel segmentError body (reader.unread.length + 1) reader state

end SegmentReader

/-! ## Scan and reopening -/

structure SegmentStats where
  recordCount : Nat
  byteLen : Nat
  checksum : UInt64
deriving DecidableEq, Repr

def SegmentStats.initial : SegmentStats := ⟨0, segmentMagic.length, 0⟩

def SegmentStats.add (stats : SegmentStats) (record : SegmentRecord) (after : SegmentReader) :
    SegmentStats where
  recordCount := stats.recordCount + 1
  byteLen := after.offset
  checksum := combineChecksum stats.checksum record.checksum

def scanSegment (file : Bytes) : Except SegmentError SegmentStats := do
  let reader ← SegmentReader.openFile file
  let stats ← reader.whileSome id (fun stats record after => .ok (stats.add record after)) .initial
  if file.length ≠ stats.byteLen then throw (.trailingBytes stats.byteLen file.length)
  return stats

def SegmentWriter.openAppend (file : Bytes) (path : PathBuf) (segmentId : SegmentId) (nodeId : NodeId) :
    Except SegmentError SegmentWriter := do
  let stats ← scanSegment file
  return {
    segmentId, nodeId, path, file
    recordCount := stats.recordCount
    byteLen := stats.byteLen
    checksum := stats.checksum }

end Vannak.Storage
