import Vannak.Foundation.Run
import Vannak.Ipto.Ledger
import Vannak.Storage.Format

/-!
# The segment-backed outbox

`SegmentBackedMetadataOutbox` of `ipto.rs`: every payload is appended to a segment
before it is queued, and after a crash the outbox is rebuilt from the segment. The
segment holds exactly the ledger of the outbox, so that no interleaving of deliveries,
retries and crashes loses a payload.
-/

namespace Vannak.Ipto

open Foundation Storage

set_option autoImplicit false

inductive MetadataOutboxStorageError where
  | segment (error : SegmentError)
  | payloadDecode (error : IptoPayloadDecodeError)
deriving DecidableEq, Repr

inductive DurableOutboxEnqueueResult where
  | enqueued (offset : Nat)
  | duplicate
deriving DecidableEq, Repr

structure MetadataOutboxReplaySummary where
  checkpointOffset : Option Nat
  scannedRecords : Nat
  skippedRecords : Nat
  replayedRecords : Nat
deriving DecidableEq, Repr

structure MetadataOutboxReplay where
  outbox : MetadataOutbox
  summary : MetadataOutboxReplaySummary
deriving DecidableEq

/-- The body of the replay loop. Records up to the checkpoint are counted and
skipped; a payload whose key is already there is ignored by `enqueue_with_offset`. -/
def replayRecord (replay : MetadataOutboxReplay) (record : SegmentRecord) :
    Except MetadataOutboxStorageError MetadataOutboxReplay :=
  let summary := { replay.summary with scannedRecords := replay.summary.scannedRecords + 1 }
  if replay.summary.checkpointOffset.any (record.offset ≤ ·) then
    .ok { replay with summary := { summary with skippedRecords := summary.skippedRecords + 1 } }
  else
    match IptoWritePayload.decode record.payload with
    | .error error => .error (.payloadDecode error)
    | .ok payload => .ok {
        outbox := (replay.outbox.enqueueWithOffset payload (some record.offset)).2
        summary := { summary with replayedRecords := summary.replayedRecords + 1 } }

def replayMetadataOutboxSegmentAfter (file : Bytes) (checkpointOffset : Option Nat) :
    Except MetadataOutboxStorageError MetadataOutboxReplay := do
  let reader ← (SegmentReader.openFile file).mapError .segment
  reader.whileSome .segment (fun replay record _ => replayRecord replay record)
    ⟨MetadataOutbox.new, ⟨checkpointOffset, 0, 0, 0⟩⟩

structure SegmentBackedMetadataOutbox where
  outbox : MetadataOutbox
  writer : SegmentWriter
deriving DecidableEq

namespace SegmentBackedMetadataOutbox

def create (existing : Option Bytes) (path : PathBuf) (segmentId : SegmentId) (nodeId : NodeId) :
    Except MetadataOutboxStorageError SegmentBackedMetadataOutbox := do
  let writer ← (SegmentWriter.create existing path segmentId nodeId).mapError .segment
  return { outbox := MetadataOutbox.new, writer }

/-- `file` is the content found under the path. -/
def recoverAfter (file : Bytes) (path : PathBuf) (segmentId : SegmentId) (nodeId : NodeId)
    (checkpointOffset : Option Nat) :
    Except MetadataOutboxStorageError (SegmentBackedMetadataOutbox × MetadataOutboxReplaySummary) := do
  let replay ← replayMetadataOutboxSegmentAfter file checkpointOffset
  let writer ← (SegmentWriter.openAppend file path segmentId nodeId).mapError .segment
  return ({ outbox := replay.outbox, writer }, replay.summary)

/-- `enqueue_durable` on a disk with the given outcomes. -/
def enqueueDurableOn (disk : DiskWrites) (durable : SegmentBackedMetadataOutbox)
    (payload : IptoWritePayload) :
    Except MetadataOutboxStorageError DurableOutboxEnqueueResult × SegmentBackedMetadataOutbox :=
  if durable.outbox.entries.contains payload.idempotencyKey then (.ok .duplicate, durable)
  else
    match durable.writer.appendRecordOn disk payload.encode with
    | (.error error, writer) => (.error (.segment error), { durable with writer })
    | (.ok offset, writer) => (.ok (.enqueued offset), {
        outbox := (durable.outbox.enqueueWithOffset payload (some offset)).2
        writer })

def enqueueDurable (durable : SegmentBackedMetadataOutbox) (payload : IptoWritePayload) :
    Except MetadataOutboxStorageError DurableOutboxEnqueueResult × SegmentBackedMetadataOutbox :=
  durable.enqueueDurableOn .healthy payload

end SegmentBackedMetadataOutbox

/-! ## Runs -/

inductive OutboxStep where
  | enqueueDurable (payload : IptoWritePayload)
  | deliverNextPending
  | deliverNextPendingForTarget (target : IptoInstanceId)
  | drainPendingOutbox (maxAttempts : Nat)
  | drainPendingOutboxForTarget (target : IptoInstanceId) (maxAttempts : Nat)
  | retryFailed (key : IdempotencyKey)
  | retryFailedForTarget (target : IptoInstanceId)
  | crashAndRecover (segmentId : SegmentId) (nodeId : NodeId)
deriving DecidableEq

inductive OutboxAnswer where
  | enqueued (result : Except MetadataOutboxStorageError DurableOutboxEnqueueResult)
  | delivered (result : MetadataOutboxDeliveryResult)
  | drained (summary : MetadataOutboxDrainSummary)
  | retried (requeued : Bool)
  | retriedAll (count : Nat)
  | recovered (result : Except MetadataOutboxStorageError MetadataOutboxReplaySummary)
deriving DecidableEq

/-- The outbox, the remote side behind the writer, and the calls of `write` since the
last recovery. -/
structure OutboxSystem (ω : Type) where
  durable : SegmentBackedMetadataOutbox
  remote : ω × List WriterCall

section Runs

variable {ω : Type} (writer : IptoWriter ω)

/-- A crash loses the outbox and keeps the file; the calls made before it no longer
count. A recovery that fails leaves nothing running, which is recorded by its answer. -/
def outboxStep (system : OutboxSystem ω) : OutboxStep → OutboxAnswer × OutboxSystem ω
  | .enqueueDurable payload =>
    let (result, durable) := system.durable.enqueueDurable payload
    (.enqueued result, { system with durable })
  | .deliverNextPending =>
    let (result, outbox, remote) := deliverNextPending writer.recording system.durable.outbox system.remote
    (.delivered result, ⟨{ system.durable with outbox }, remote⟩)
  | .deliverNextPendingForTarget target =>
    let (result, outbox, remote) :=
      deliverNextPendingForTarget writer.recording target system.durable.outbox system.remote
    (.delivered result, ⟨{ system.durable with outbox }, remote⟩)
  | .drainPendingOutbox maxAttempts =>
    let (summary, outbox, remote) :=
      drainPendingOutbox writer.recording system.durable.outbox system.remote maxAttempts
    (.drained summary, ⟨{ system.durable with outbox }, remote⟩)
  | .drainPendingOutboxForTarget target maxAttempts =>
    let (summary, outbox, remote) :=
      drainPendingOutboxForTarget writer.recording target system.durable.outbox system.remote maxAttempts
    (.drained summary, ⟨{ system.durable with outbox }, remote⟩)
  | .retryFailed key =>
    let (requeued, outbox) := system.durable.outbox.retryFailed key
    (.retried requeued, { system with durable := { system.durable with outbox } })
  | .retryFailedForTarget target =>
    let (count, outbox) := system.durable.outbox.retryFailedForTarget target
    (.retriedAll count, { system with durable := { system.durable with outbox } })
  | .crashAndRecover segmentId nodeId =>
    match SegmentBackedMetadataOutbox.recoverAfter system.durable.writer.file system.durable.writer.path
        segmentId nodeId none with
    | .error error => (.recovered (.error error), system)
    | .ok (durable, summary) => (.recovered (.ok summary), ⟨durable, system.remote.1, []⟩)

end Runs

/-! ## The ledger of a segment -/

def ledgerFrom : Nat → List IptoWritePayload → Ledger
  | _, [] => []
  | offset, payload :: payloads =>
    (payload, offset) :: ledgerFrom (offset + (frame payload.encode).length) payloads

theorem keys_ledgerFrom (offset : Nat) (payloads : List IptoWritePayload) :
    (ledgerFrom offset payloads).keys = payloads.map IptoWritePayload.idempotencyKey := by
  induction payloads generalizing offset with
  | nil => rfl
  | cons payload payloads ih =>
    rw [ledgerFrom, Ledger.keys, List.map_cons, List.map_cons]
    exact congrArg _ (ih _)

theorem ledgerFrom_concat (offset : Nat) (payloads : List IptoWritePayload) (payload : IptoWritePayload) :
    ledgerFrom offset (payloads ++ [payload]) = ledgerFrom offset payloads ++
      [(payload, offset + ((payloads.map IptoWritePayload.encode).flatMap frame).length)] := by
  induction payloads generalizing offset with
  | nil => rfl
  | cons first payloads ih =>
    simp only [List.cons_append, ledgerFrom, ih, List.map_cons, List.flatMap_cons, List.length_append,
      Nat.add_assoc]

theorem le_of_mem_ledgerFrom {offset : Nat} {payloads : List IptoWritePayload}
    {row : IptoWritePayload × Nat} (h : row ∈ ledgerFrom offset payloads) : offset ≤ row.2 := by
  induction payloads generalizing offset with
  | nil => cases h
  | cons payload payloads ih =>
    rcases List.mem_cons.mp h with rfl | h
    · exact le_rfl
    · exact (Nat.le_add_right _ _).trans (ih h)

theorem ledgerFrom_sorted (offset : Nat) (payloads : List IptoWritePayload) :
    (ledgerFrom offset payloads).Pairwise fun left right => left.2 < right.2 := by
  induction payloads generalizing offset with
  | nil => exact List.Pairwise.nil
  | cons payload payloads ih =>
    refine List.Pairwise.cons (fun row hRow => ?_) (ih _)
    have hLe := le_of_mem_ledgerFrom hRow
    rw [length_frame] at hLe
    omega

/-! ## Replay -/

theorem decode_of_mem_recordsFrom {payloads : List IptoWritePayload}
    (hSized : ∀ payload ∈ payloads.map IptoWritePayload.encode, Sized payload) {offset : Nat}
    {record : SegmentRecord} (h : record ∈ recordsFrom offset (payloads.map IptoWritePayload.encode)) :
    ∃ payload ∈ payloads, IptoWritePayload.decode record.payload = .ok payload := by
  have hPayload := payload_mem_of_mem_recordsFrom h
  obtain ⟨payload, hMem, hEncode⟩ := List.mem_map.mp hPayload
  exact ⟨payload, hMem, hEncode ▸ decode_encode (hSized _ (hEncode ▸ hPayload))⟩

theorem replayRecord_encode {replay : MetadataOutboxReplay}
    (hNone : replay.summary.checkpointOffset = none) {payload : IptoWritePayload}
    (hSized : Sized payload.encode) (offset : Nat) (sum : UInt64) :
    replayRecord replay ⟨offset, sum, payload.encode⟩ = .ok {
      outbox := (replay.outbox.enqueueWithOffset payload (some offset)).2
      summary := { replay.summary with
        scannedRecords := replay.summary.scannedRecords + 1
        replayedRecords := replay.summary.replayedRecords + 1 } } := by
  simp [replayRecord, hNone, decode_encode hSized]

theorem foldlM_replayRecord {payloads : List IptoWritePayload}
    (hSized : ∀ payload ∈ payloads, Sized payload.encode) (offset : Nat) {ledger : Ledger}
    {replay : MetadataOutboxReplay} (hNone : replay.summary.checkpointOffset = none)
    (hFollows : Follows ledger [] replay.outbox) (hPending : replay.outbox.pending = ledger.keys)
    (hDistinct : (ledger.keys ++ payloads.map IptoWritePayload.idempotencyKey).Nodup) :
    ∃ final, (recordsFrom offset (payloads.map IptoWritePayload.encode)).foldlM replayRecord replay =
        .ok final ∧
      Follows (ledger ++ ledgerFrom offset payloads) [] final.outbox ∧
      final.outbox.pending = ledger.keys ++ payloads.map IptoWritePayload.idempotencyKey := by
  induction payloads generalizing offset ledger replay with
  | nil => exact ⟨replay, rfl, by simpa [ledgerFrom] using hFollows, by simpa using hPending⟩
  | cons payload payloads ih =>
    have hFresh : payload.idempotencyKey ∉ ledger.keys := by
      intro hMem
      exact (List.nodup_append.mp hDistinct).2.2 _ hMem _ List.mem_cons_self rfl
    obtain ⟨hQueue, hNext⟩ := hFollows.enqueue hFresh offset
    obtain ⟨next, hStep, hOutbox, hNextNone⟩ : ∃ next,
        replayRecord replay ⟨offset, checksum payload.encode, payload.encode⟩ = .ok next ∧
        next.outbox = (replay.outbox.enqueueWithOffset payload (some offset)).2 ∧
        next.summary.checkpointOffset = none := by
      have hPayload := hSized payload List.mem_cons_self
      exact ⟨_, replayRecord_encode hNone hPayload offset _, rfl, hNone⟩
    rw [← hOutbox] at hQueue hNext
    have hKeys : Ledger.keys (ledger ++ [(payload, offset)]) = ledger.keys ++ [payload.idempotencyKey] := by
      simp [Ledger.keys]
    obtain ⟨final, hFinal, hFinalFollows, hFinalPending⟩ := ih
      (fun other hOther => hSized other (List.mem_cons_of_mem payload hOther))
      (offset + (frame payload.encode).length) hNextNone hNext
      (by rw [hQueue, hPending, hKeys]) (by simpa [hKeys] using hDistinct)
    refine ⟨final, ?_, by simpa [ledgerFrom] using hFinalFollows, by simpa [hKeys] using hFinalPending⟩
    rw [List.map_cons, recordsFrom, List.foldlM_cons, hStep]
    exact hFinal

theorem replayMetadataOutboxSegmentAfter_segmentBytes {payloads : List Bytes}
    (hSized : ∀ payload ∈ payloads, Sized payload) (checkpointOffset : Option Nat) :
    replayMetadataOutboxSegmentAfter (segmentBytes payloads) checkpointOffset =
      (recordsFrom 8 payloads).foldlM replayRecord ⟨MetadataOutbox.new, ⟨checkpointOffset, 0, 0, 0⟩⟩ := by
  rw [replayMetadataOutboxSegmentAfter, segmentBytes, openFile_segment]
  exact SegmentReader.whileSome_frames .segment (fun replay record _ => replayRecord replay record)
    hSized 8 replayRecord (fun _ _ _ => rfl) _

theorem recoverAfter_holds {writer : SegmentWriter} {payloads : List IptoWritePayload}
    (hHolds : writer.Holds (payloads.map IptoWritePayload.encode))
    (hDistinct : (payloads.map IptoWritePayload.idempotencyKey).Nodup) (path : PathBuf)
    (segmentId : SegmentId) (nodeId : NodeId) :
    ∃ durable summary,
      SegmentBackedMetadataOutbox.recoverAfter writer.file path segmentId nodeId none =
        .ok (durable, summary) ∧
      durable.writer.Holds (payloads.map IptoWritePayload.encode) ∧
      Follows (ledgerFrom 8 payloads) [] durable.outbox ∧
      durable.outbox.pending = payloads.map IptoWritePayload.idempotencyKey := by
  have hSized : ∀ payload ∈ payloads, Sized payload.encode := fun payload hPayload =>
    hHolds.sized _ (List.mem_map_of_mem hPayload)
  obtain ⟨final, hFinal, hFollows, hPending⟩ := @foldlM_replayRecord payloads hSized 8 []
    ⟨MetadataOutbox.new, ⟨none, 0, 0, 0⟩⟩ rfl (Follows.new []) rfl (by simpa [Ledger.keys] using hDistinct)
  have hReplay : replayMetadataOutboxSegmentAfter writer.file none = .ok final := by
    rw [hHolds.file, replayMetadataOutboxSegmentAfter_segmentBytes hHolds.sized]
    exact hFinal
  obtain ⟨next, hNext, hNextHolds⟩ := hHolds.reopen path segmentId nodeId
  refine ⟨⟨final.outbox, next⟩, final.summary, ?_, hNextHolds, hFollows, hPending⟩
  rw [SegmentBackedMetadataOutbox.recoverAfter, hReplay, hNext]
  rfl

/-! ## The run invariant -/

/-- The segment holds these payloads and the outbox follows their ledger. -/
structure OutboxSystem.Stores {ω : Type} (system : OutboxSystem ω) (payloads : List IptoWritePayload) :
    Prop where
  distinct : (payloads.map IptoWritePayload.idempotencyKey).Nodup
  holds : system.durable.writer.Holds (payloads.map IptoWritePayload.encode)
  follows : Follows (ledgerFrom 8 payloads) system.remote.2 system.durable.outbox

section Invariant

variable {ω : Type} (writer : IptoWriter ω)

theorem OutboxSystem.Stores.keys {system : OutboxSystem ω} {payloads : List IptoWritePayload}
    (h : system.Stores payloads) : (ledgerFrom 8 payloads).keys.Nodup := by
  rw [keys_ledgerFrom]
  exact h.distinct

theorem OutboxSystem.Stores.contains_iff {system : OutboxSystem ω} {payloads : List IptoWritePayload}
    (h : system.Stores payloads) (key : IdempotencyKey) :
    system.durable.outbox.entries.contains key = true ↔
      key ∈ payloads.map IptoWritePayload.idempotencyKey := by
  rw [h.follows.contains_iff, keys_ledgerFrom]

/-- A payload is known, appended and queued, or refused by the segment. -/
theorem enqueueDurable_cases (durable : SegmentBackedMetadataOutbox) (payload : IptoWritePayload) :
    (payload.idempotencyKey ∈ durable.outbox.entries ∧ durable.enqueueDurable payload = (.ok .duplicate, durable)) ∨
    (payload.idempotencyKey ∉ durable.outbox.entries ∧ Sized payload.encode ∧
      ∃ next, durable.enqueueDurable payload = (.ok (.enqueued durable.writer.byteLen),
          ⟨(durable.outbox.enqueueWithOffset payload (some durable.writer.byteLen)).2, next⟩) ∧
        next.segmentId = durable.writer.segmentId ∧ next.file = durable.writer.file ++ frame payload.encode ∧
        ∀ records, durable.writer.Holds records → next.Holds (records ++ [payload.encode])) ∨
    (payload.idempotencyKey ∉ durable.outbox.entries ∧
      ∃ error, durable.enqueueDurable payload = (.error error, durable)) := by
  rw [SegmentBackedMetadataOutbox.enqueueDurable, SegmentBackedMetadataOutbox.enqueueDurableOn,
    ← SegmentWriter.appendRecord]
  by_cases hKnown : payload.idempotencyKey ∈ durable.outbox.entries
  · rw [if_pos (Std.ExtTreeMap.contains_iff_mem.mpr hKnown)]
    exact .inl ⟨hKnown, rfl⟩
  · rw [if_neg fun hContains => hKnown (Std.ExtTreeMap.contains_iff_mem.mp hContains)]
    by_cases hSized : Sized payload.encode
    · have hAppend := SegmentWriter.appendRecord_of_sized durable.writer hSized
      rw [hAppend]
      refine .inr (.inl ⟨hKnown, hSized, _, rfl, rfl, rfl, fun records hHolds => ?_⟩)
      obtain ⟨next, hNext, hNextHolds⟩ := hHolds.append hSized
      obtain ⟨-, rfl⟩ := Prod.mk.inj (hAppend.symm.trans hNext)
      exact hNextHolds
    · rw [SegmentWriter.appendRecord_of_not_sized durable.writer hSized]
      exact .inr (.inr ⟨hKnown, _, rfl⟩)

/-- Enqueueing either changes nothing or extends the segment and the ledger by the
same payload, at the offset that is returned. -/
theorem enqueueDurable_stores {system : OutboxSystem ω} {payloads : List IptoWritePayload}
    (h : system.Stores payloads) (payload : IptoWritePayload) :
    ((outboxStep writer system (.enqueueDurable payload)).2 = system ∧
      ∀ offset, (outboxStep writer system (.enqueueDurable payload)).1 ≠ .enqueued (.ok (.enqueued offset))) ∨
    (outboxStep writer system (.enqueueDurable payload)).1 =
        .enqueued (.ok (.enqueued (segmentBytes (payloads.map IptoWritePayload.encode)).length)) ∧
      (outboxStep writer system (.enqueueDurable payload)).2.Stores (payloads ++ [payload]) := by
  have hKnown : payload.idempotencyKey ∈ system.durable.outbox.entries ↔
      payload.idempotencyKey ∈ payloads.map IptoWritePayload.idempotencyKey := by
    rw [← Std.ExtTreeMap.contains_iff_mem, h.contains_iff]
  rcases enqueueDurable_cases system.durable payload with
    ⟨-, hResult⟩ | ⟨hFresh, -, next, hResult, -, -, hNext⟩ | ⟨-, error, hResult⟩
  · rw [outboxStep, hResult]
    exact .inl ⟨rfl, by simp⟩
  · rw [hKnown] at hFresh
    rw [outboxStep, hResult, h.holds.byteLen]
    refine .inr ⟨rfl, ?_, ?_, ?_⟩
    · rw [List.map_append, List.map_singleton]
      exact List.Nodup.append h.distinct (List.nodup_singleton _) (by simpa using hFresh)
    · simpa using hNext _ h.holds
    · have hFollows := (h.follows.enqueue (by rwa [keys_ledgerFrom])
        (segmentBytes (payloads.map IptoWritePayload.encode)).length).2
      rwa [length_segmentBytes, ← ledgerFrom_concat, ← length_segmentBytes] at hFollows
  · rw [outboxStep, hResult]
    exact .inl ⟨rfl, by simp⟩

theorem crashAndRecover_stores {system : OutboxSystem ω} {payloads : List IptoWritePayload}
    (h : system.Stores payloads) (segmentId : SegmentId) (nodeId : NodeId) :
    ∃ summary next, outboxStep writer system (.crashAndRecover segmentId nodeId) =
        (.recovered (.ok summary), next) ∧ next.Stores payloads ∧
      next.durable.outbox.pending = payloads.map IptoWritePayload.idempotencyKey := by
  obtain ⟨durable, summary, hRecover, hHolds, hFollows, hPending⟩ :=
    recoverAfter_holds h.holds h.distinct system.durable.writer.path segmentId nodeId
  exact ⟨summary, ⟨durable, system.remote.1, []⟩, by rw [outboxStep, hRecover],
    ⟨h.distinct, hHolds, hFollows⟩, hPending⟩

/-- Every step but an enqueue keeps the payloads that are stored. -/
theorem outboxStep_stores {system : OutboxSystem ω} {payloads : List IptoWritePayload}
    (h : system.Stores payloads) {step : OutboxStep} (hStep : ∀ payload, step ≠ .enqueueDurable payload) :
    (outboxStep writer system step).2.Stores payloads := by
  cases step with
  | enqueueDurable payload => exact absurd rfl (hStep payload)
  | deliverNextPending => exact ⟨h.distinct, h.holds, h.follows.deliverNextPending writer⟩
  | deliverNextPendingForTarget target =>
    exact ⟨h.distinct, h.holds, h.follows.deliverNextPendingForTarget writer target⟩
  | drainPendingOutbox maxAttempts =>
    exact ⟨h.distinct, h.holds, Follows.drain
      (fun _ _ hFollows => hFollows.deliverNextPending writer) maxAttempts _ h.follows⟩
  | drainPendingOutboxForTarget target maxAttempts =>
    exact ⟨h.distinct, h.holds, Follows.drain
      (fun _ _ hFollows => hFollows.deliverNextPendingForTarget writer target) maxAttempts _ h.follows⟩
  | retryFailed key => exact ⟨h.distinct, h.holds, h.follows.retryFailed key⟩
  | retryFailedForTarget target => exact ⟨h.distinct, h.holds, h.follows.retryFailedForTarget target⟩
  | crashAndRecover segmentId nodeId =>
    obtain ⟨summary, next, hRecover, hStores, -⟩ := crashAndRecover_stores writer h segmentId nodeId
    rw [hRecover]
    exact hStores

/-- The system stores every payload that an enqueue of the past accepted, at the offset
it returned. -/
def Remembers (past : List (OutboxStep × OutboxAnswer)) (system : OutboxSystem ω) : Prop :=
  ∃ payloads, system.Stores payloads ∧ ∀ payload offset,
    (OutboxStep.enqueueDurable payload, OutboxAnswer.enqueued (.ok (.enqueued offset))) ∈ past →
      (payload, offset) ∈ ledgerFrom 8 payloads

theorem remembers_step (past : List (OutboxStep × OutboxAnswer)) (system : OutboxSystem ω)
    (step : OutboxStep) (h : Remembers past system) :
    Remembers (past ++ [(step, (outboxStep writer system step).1)]) (outboxStep writer system step).2 := by
  obtain ⟨payloads, hStores, hPast⟩ := h
  by_cases hEnqueue : ∃ payload, step = .enqueueDurable payload
  · obtain ⟨payload, rfl⟩ := hEnqueue
    rcases enqueueDurable_stores writer hStores payload with ⟨hSame, hNot⟩ | ⟨hAnswer, hNext⟩
    · refine ⟨payloads, by rw [hSame]; exact hStores, fun other offset hMem => ?_⟩
      rcases List.mem_append.mp hMem with hMem | hMem
      · exact hPast other offset hMem
      · exact absurd (Prod.mk.inj (List.mem_singleton.mp hMem)).2.symm (hNot offset)
    · refine ⟨payloads ++ [payload], hNext, fun other offset hMem => ?_⟩
      rw [ledgerFrom_concat]
      rcases List.mem_append.mp hMem with hMem | hMem
      · exact List.mem_append_left _ (hPast other offset hMem)
      · rw [hAnswer, length_segmentBytes] at hMem
        cases List.mem_singleton.mp hMem
        exact List.mem_append_right _ (List.mem_singleton_self _)
  · rw [not_exists] at hEnqueue
    refine ⟨payloads, outboxStep_stores writer hStores hEnqueue, fun other offset hMem => ?_⟩
    rcases List.mem_append.mp hMem with hMem | hMem
    · exact hPast other offset hMem
    · exact absurd (Prod.mk.inj (List.mem_singleton.mp hMem)).1.symm (hEnqueue other)

/-! ## Nothing is lost -/

/-- The payload is in the outbox under its key, with its offset, and acknowledged only
if the writer accepted it since the last recovery. -/
def Keeps (system : OutboxSystem ω) (payload : IptoWritePayload) (offset : Nat) : Prop :=
  ∃ entry, system.durable.outbox.entries[payload.idempotencyKey]? = some entry ∧
    entry.payload = payload ∧ entry.recordOffset = some offset ∧
    (entry.status = .acknowledged → (payload, .ok ()) ∈ system.remote.2)

def MetadataOutbox.offsetOf (outbox : MetadataOutbox) (key : IdempotencyKey) : Option Nat :=
  (outbox.entries[key]?).bind MetadataOutboxEntry.recordOffset

/-- Every entry is pending and queued once, in the order of the records. -/
structure MetadataOutbox.FreshlyQueued (outbox : MetadataOutbox) : Prop where
  pending : ∀ (key : IdempotencyKey) (entry : MetadataOutboxEntry),
    outbox.entries[key]? = some entry → entry.status = .pending
  queued : ∀ key, key ∈ outbox.pending ↔ key ∈ outbox.entries
  once : outbox.pending.Nodup
  ordered : outbox.pending.Pairwise fun left right =>
    ∃ first second, outbox.offsetOf left = some first ∧ outbox.offsetOf right = some second ∧ first < second

def RecoversExactly (system : OutboxSystem ω) : Prop :=
  ∀ segmentId nodeId, ∃ summary next,
    outboxStep writer system (.crashAndRecover segmentId nodeId) = (.recovered (.ok summary), next) ∧
    (∀ key, next.durable.outbox.recorded key = system.durable.outbox.recorded key) ∧
    next.durable.outbox.FreshlyQueued

/-- Every record of the segment is a payload whose key is refused as a duplicate. -/
def RefusesStoredKeys (system : OutboxSystem ω) : Prop :=
  ∃ records, readFile system.durable.writer.file = .ok (records, none) ∧
    ∀ record ∈ records, ∃ stored, IptoWritePayload.decode record.payload = .ok stored ∧
      ∀ payload : IptoWritePayload, payload.idempotencyKey = stored.idempotencyKey →
        outboxStep writer system (.enqueueDurable payload) = (.enqueued (.ok .duplicate), system)

variable {writer} {system : OutboxSystem ω} {payloads : List IptoWritePayload}

theorem keeps_of_mem (h : system.Stores payloads) {payload : IptoWritePayload} {offset : Nat}
    (hMem : (payload, offset) ∈ ledgerFrom 8 payloads) : Keeps system payload offset := by
  have hRecorded := h.follows.recorded payload.idempotencyKey
  rw [Ledger.lookup_of_mem h.keys hMem] at hRecorded
  obtain ⟨entry, hEntry, hEq⟩ := Option.map_eq_some_iff.mp hRecorded
  obtain ⟨hPayload, hOffset⟩ := Prod.mk.inj hEq
  refine ⟨entry, hEntry, hPayload, hOffset, fun hStatus => ?_⟩
  exact hPayload ▸ h.follows.acknowledged _ entry hEntry hStatus

theorem freshlyQueued_of_pending (h : system.Stores payloads)
    (hPending : system.durable.outbox.pending = payloads.map IptoWritePayload.idempotencyKey) :
    system.durable.outbox.FreshlyQueued := by
  have hQueued : ∀ key, key ∈ system.durable.outbox.pending ↔ key ∈ system.durable.outbox.entries := by
    intro key
    rw [hPending, ← h.contains_iff, Std.ExtTreeMap.contains_iff_mem]
  refine ⟨fun key entry hEntry => ?_, hQueued, h.follows.nodup, ?_⟩
  · have hMem : key ∈ system.durable.outbox.entries := by
      rw [Std.ExtTreeMap.mem_iff_isSome_getElem?, hEntry]
      rfl
    have hStatus := (h.follows.mem_pending key).mp ((hQueued key).mpr hMem)
    rw [MetadataOutbox.statusOf, hEntry] at hStatus
    exact Option.some.inj hStatus
  · rw [hPending, ← keys_ledgerFrom 8, Ledger.keys, List.pairwise_map]
    refine (ledgerFrom_sorted 8 payloads).imp_of_mem fun {left right} hLeft hRight hLt => ?_
    obtain ⟨first, hFirst, -, hFirstOffset, -⟩ := keeps_of_mem h hLeft
    obtain ⟨second, hSecond, -, hSecondOffset, -⟩ := keeps_of_mem h hRight
    exact ⟨left.2, right.2, by rw [MetadataOutbox.offsetOf, hFirst]; exact hFirstOffset,
      by rw [MetadataOutbox.offsetOf, hSecond]; exact hSecondOffset, hLt⟩

theorem recoversExactly_of_stores (h : system.Stores payloads) : RecoversExactly writer system := by
  intro segmentId nodeId
  obtain ⟨summary, next, hRecover, hNext, hPending⟩ := crashAndRecover_stores writer h segmentId nodeId
  refine ⟨summary, next, hRecover, fun key => ?_, freshlyQueued_of_pending hNext hPending⟩
  rw [hNext.follows.recorded, h.follows.recorded]

theorem refusesStoredKeys_of_stores (h : system.Stores payloads) : RefusesStoredKeys writer system := by
  refine ⟨_, by rw [h.holds.file]; exact readFile_segment h.holds.sized, fun record hRecord => ?_⟩
  obtain ⟨stored, hStored, hDecode⟩ := decode_of_mem_recordsFrom h.holds.sized hRecord
  refine ⟨stored, hDecode, fun payload hKey => ?_⟩
  have hContains : system.durable.outbox.entries.contains payload.idempotencyKey = true := by
    rw [h.contains_iff, hKey]
    exact List.mem_map_of_mem hStored
  rw [outboxStep, SegmentBackedMetadataOutbox.enqueueDurable, SegmentBackedMetadataOutbox.enqueueDurableOn,
    if_pos hContains]

end Invariant

theorem no_metadata_write_is_lost {ω : Type} (writer : IptoWriter ω) (remote : ω) (path : PathBuf)
    (segmentId : SegmentId) (nodeId : NodeId) :
    ∃ durable, SegmentBackedMetadataOutbox.create none path segmentId nodeId = .ok durable ∧
      ∀ steps : List OutboxStep,
        let (answers, system) := run (outboxStep writer) ⟨durable, remote, []⟩ steps
        (∀ payload offset,
          (OutboxStep.enqueueDurable payload, OutboxAnswer.enqueued (.ok (.enqueued offset))) ∈ answers →
            Keeps system payload offset) ∧
        RecoversExactly writer system ∧ RefusesStoredKeys writer system := by
  obtain ⟨segment, hCreate, hHolds⟩ := SegmentWriter.holds_create path segmentId nodeId
  refine ⟨⟨MetadataOutbox.new, segment⟩, ?_, fun steps => ?_⟩
  · rw [SegmentBackedMetadataOutbox.create, hCreate]
    rfl
  · have hEmpty : Remembers [] (⟨⟨MetadataOutbox.new, segment⟩, remote, []⟩ : OutboxSystem ω) :=
      ⟨[], ⟨List.nodup_nil, hHolds, Follows.new []⟩, by simp⟩
    obtain ⟨payloads, hStores, hPast⟩ := run_history (remembers_step writer) hEmpty steps
    exact ⟨fun payload offset hMem => keeps_of_mem hStores (hPast payload offset hMem),
      recoversExactly_of_stores hStores, refusesStoredKeys_of_stores hStores⟩

/-- A writer that accepts everything. -/
def acceptingWriter : IptoWriter Unit := ⟨fun _ _ => (.ok (), ())⟩

/-- Accepted at offset 8, acknowledged, then rebuilt as pending after a crash. -/
theorem no_metadata_write_is_lost_after_crash :
    ∃ durable, SegmentBackedMetadataOutbox.create none ⟨utf8Bytes "a.seg"⟩ ⟨"outbox"⟩ ⟨"node-a"⟩ = .ok durable ∧
      Keeps (run (outboxStep acceptingWriter) ⟨durable, (), []⟩ [.enqueueDurable legacyPayload,
        .drainPendingOutbox 4, .crashAndRecover ⟨"outbox"⟩ ⟨"node-a"⟩]).2 legacyPayload 8 := by
  obtain ⟨durable, hCreate, hRun⟩ := no_metadata_write_is_lost acceptingWriter () ⟨utf8Bytes "a.seg"⟩
    ⟨"outbox"⟩ ⟨"node-a"⟩
  have hKeeps := fun steps => (hRun steps).1
  refine ⟨durable, hCreate, hKeeps _ legacyPayload 8 ?_⟩
  cases hCreate
  refine List.mem_cons.mpr (.inl (Prod.ext rfl ?_))
  decide +kernel

end Vannak.Ipto
