import Vannak.Ipto.Checkpoint
import Vannak.Storage.FailedAppend

/-!
# Recovery after a checkpoint

The segment-backed outbox with every step its callers can take: acknowledging and failing by
hand, recovering after any checkpoint, and appends on a disk that may fail. What the outbox
has recorded is a ledger in the order of the offsets, so that its checkpoints say how far
each stream was acknowledged. On a healthy disk the ledger is the end of the segment, and a
recovery after such a checkpoint rebuilds what lies behind it.
-/

namespace Vannak.Ipto

open Foundation Storage Cluster

set_option autoImplicit false

namespace SegmentBackedMetadataOutbox

def acknowledgedCheckpoint (durable : SegmentBackedMetadataOutbox) (shardId : DataIndividualShardId)
    (target : IptoInstanceId) (epoch : CheckpointEpoch) : Option MetadataOutboxCheckpoint :=
  durable.outbox.acknowledgedCheckpoint shardId target durable.writer.manifest.segmentId epoch

def acknowledgedCheckpointsForTarget (durable : SegmentBackedMetadataOutbox) (target : IptoInstanceId)
    (epoch : CheckpointEpoch) : List MetadataOutboxCheckpoint :=
  durable.outbox.acknowledgedCheckpointsForTarget target durable.writer.manifest.segmentId epoch

end SegmentBackedMetadataOutbox

/-! ## Steps -/

inductive CheckpointStep where
  | outbox (step : OutboxStep)
  | enqueueDurableOn (disk : DiskWrites) (payload : IptoWritePayload)
  | acknowledge (key : IdempotencyKey)
  | fail (key : IdempotencyKey) (error : String)
  | recoverAfter (segmentId : SegmentId) (nodeId : NodeId) (checkpointOffset : Option Nat)
deriving DecidableEq

/-- No append of the step fails on the disk. -/
def CheckpointStep.Healthy : CheckpointStep → Prop
  | .enqueueDurableOn disk _ => disk = .healthy
  | _ => True

section Steps

variable {ω : Type} (writer : IptoWriter ω)

/-- A recovery that fails leaves nothing running; the state before it stands in for that. -/
def checkpointStep (system : OutboxSystem ω) : CheckpointStep → OutboxSystem ω
  | .outbox step => (outboxStep writer system step).2
  | .enqueueDurableOn disk payload => { system with durable := (system.durable.enqueueDurableOn disk payload).2 }
  | .acknowledge key =>
    { system with durable := { system.durable with outbox := (system.durable.outbox.acknowledge key).2 } }
  | .fail key error =>
    { system with durable := { system.durable with outbox := (system.durable.outbox.fail key error).2 } }
  | .recoverAfter segmentId nodeId checkpointOffset =>
    match SegmentBackedMetadataOutbox.recoverAfter system.durable.writer.file system.durable.writer.path
        segmentId nodeId checkpointOffset with
    | .error _ => system
    | .ok (durable, _) => ⟨durable, system.remote.1, []⟩

end Steps

/-! ## What a step leaves recorded -/

namespace MetadataOutbox

variable (outbox : MetadataOutbox)

theorem recorded_acknowledge (key : IdempotencyKey) : (outbox.acknowledge key).2.recorded = outbox.recorded := by
  rw [acknowledge]
  split
  · rfl
  · rename_i hEntry
    exact recorded_insert hEntry (by rfl) (by rfl) _

theorem recorded_failWithRetryability (key : IdempotencyKey) (error : String) (retryable : Bool) :
    (outbox.failWithRetryability key error retryable).2.recorded = outbox.recorded := by
  rw [failWithRetryability]
  split
  · rfl
  · rename_i hEntry
    exact recorded_insert hEntry (by rfl) (by rfl) _

theorem recorded_retryFailed (key : IdempotencyKey) :
    (outbox.retryFailed key).2.recorded = outbox.recorded := by
  rw [retryFailed]
  split
  · rfl
  · rename_i hEntry
    split
    · rfl
    · exact recorded_insert hEntry (by rfl) (by rfl) _

theorem recorded_retryFailedForTarget (target : IptoInstanceId) :
    (outbox.retryFailedForTarget target).2.recorded = outbox.recorded := by
  rw [retryFailedForTarget]
  generalize List.map Prod.fst (List.filter _ outbox.entries.toList) = keys
  dsimp only
  induction keys generalizing outbox with
  | nil => rfl
  | cons key keys ih => rw [List.foldl_cons, ih, recorded_retryFailed]

variable {ω : Type} (writer : IptoWriter ω)

theorem recorded_deliver (next : Option MetadataOutboxEntry) (remote : ω) :
    (deliver writer next outbox remote).2.1.recorded = outbox.recorded := by
  cases next with
  | none => rfl
  | some entry =>
    rw [deliver]
    split
    · exact recorded_acknowledge outbox _
    · exact recorded_failWithRetryability outbox _ _ _

theorem recorded_drain {deliver : MetadataOutbox → ω → MetadataOutboxDeliveryResult × MetadataOutbox × ω}
    (hDeliver : ∀ outbox remote, (deliver outbox remote).2.1.recorded = outbox.recorded) (attempts : Nat)
    (summary : MetadataOutboxDrainSummary) (remote : ω) :
    (drain deliver attempts summary outbox remote).2.1.recorded = outbox.recorded :=
  @drain_invariant _ deliver (fun next _ => next.recorded = outbox.recorded)
    (fun next remote hNext => (hDeliver next remote).trans hNext) attempts summary outbox remote rfl

end MetadataOutbox

/-! ## Ledgers in order -/

theorem Ledger.lookup_append (ledger more : Ledger) (key : IdempotencyKey) :
    Ledger.lookup (ledger ++ more) key = (ledger.lookup key).or (more.lookup key) := by
  rw [Ledger.lookup, List.find?_append, Option.map_or]
  rfl

theorem Ledger.mem_of_lookup {ledger : Ledger} {key : IdempotencyKey} {payload : IptoWritePayload}
    {offset : Option Nat} (h : ledger.lookup key = some (payload, offset)) :
    ∃ found, offset = some found ∧ (payload, found) ∈ ledger := by
  obtain ⟨row, hRow, hEq⟩ := Option.map_eq_some_iff.mp h
  cases hEq
  exact ⟨row.2, rfl, List.mem_of_find?_eq_some hRow⟩

/-- A row that is found stays found when rows are dropped and it is not. -/
theorem Ledger.lookup_filter {ledger : Ledger} {keep : IptoWritePayload × Nat → Bool} {key : IdempotencyKey}
    {payload : IptoWritePayload} {offset : Nat} (h : ledger.lookup key = some (payload, some offset))
    (hKeep : keep (payload, offset)) : Ledger.lookup (ledger.filter keep) key = some (payload, some offset) := by
  induction ledger with
  | nil => cases h
  | cons row ledger ih =>
    rw [Ledger.lookup, List.find?_cons] at h
    by_cases hKey : row.1.idempotencyKey = key
    · rw [decide_eq_true hKey] at h
      cases h
      rw [List.filter_cons_of_pos hKeep, Ledger.lookup, List.find?_cons, decide_eq_true hKey]
      rfl
    · rw [decide_eq_false hKey] at h
      rw [List.filter_cons]
      split
      · rw [Ledger.lookup, List.find?_cons, decide_eq_false hKey]
        exact ih h
      · exact ih h

/-- The outbox has recorded, for every key, its first row of the ledger. -/
def Records (ledger : Ledger) (outbox : MetadataOutbox) : Prop :=
  ∀ key, outbox.recorded key = ledger.lookup key

namespace Records

variable {ledger : Ledger} {outbox : MetadataOutbox}

theorem new : Records [] MetadataOutbox.new := (Follows.new []).recorded

theorem of_eq (h : Records ledger outbox) {next : MetadataOutbox} (hEq : next.recorded = outbox.recorded) :
    Records ledger next := by
  intro key
  rw [hEq]
  exact h key

theorem lookup_of_entry (h : Records ledger outbox) {key : IdempotencyKey} {entry : MetadataOutboxEntry}
    (hEntry : outbox.entries[key]? = some entry) :
    ledger.lookup key = some (entry.payload, entry.recordOffset) := by
  rw [← h, MetadataOutbox.recorded, hEntry]
  rfl

theorem entry_of_lookup (h : Records ledger outbox) {key : IdempotencyKey} {payload : IptoWritePayload}
    {offset : Option Nat} (hLookup : ledger.lookup key = some (payload, offset)) :
    ∃ entry, outbox.entries[key]? = some entry ∧ entry.payload = payload ∧ entry.recordOffset = offset := by
  rw [← h, MetadataOutbox.recorded, Option.map_eq_some_iff] at hLookup
  obtain ⟨entry, hEntry, hEq⟩ := hLookup
  exact ⟨entry, hEntry, (Prod.mk.inj hEq).1, (Prod.mk.inj hEq).2⟩

/-- A key that is already there keeps its row: the new one is not the first. -/
theorem enqueueWithOffset (h : Records ledger outbox) (payload : IptoWritePayload) (offset : Nat) :
    Records (ledger ++ [(payload, offset)]) (outbox.enqueueWithOffset payload (some offset)).2 := by
  intro key
  rw [Ledger.lookup_append, ← h]
  have hRow : Ledger.lookup [(payload, offset)] key =
      if payload.idempotencyKey = key then some (payload, some offset) else none := by
    simp only [Ledger.lookup, List.find?_cons, List.find?_nil]
    split <;> simp_all
  rw [hRow, MetadataOutbox.enqueueWithOffset]
  split
  · rename_i hContains
    have hMem := Std.ExtTreeMap.mem_iff_isSome_getElem?.mp (Std.ExtTreeMap.contains_iff_mem.mp hContains)
    obtain ⟨entry, hEntry⟩ := Option.isSome_iff_exists.mp hMem
    split
    · rename_i hKey
      subst hKey
      rw [MetadataOutbox.recorded, hEntry]
      rfl
    · rw [Option.or_none]
  · rename_i hContains
    dsimp only
    rw [MetadataOutbox.recorded, MetadataOutbox.recorded, getElem?_insert_ite]
    split
    · rename_i hKey
      subst hKey
      rw [Std.ExtTreeMap.getElem?_eq_none_of_contains_eq_false (Bool.eq_false_iff.mpr hContains)]
      rfl
    · rw [Option.or_none]

theorem distinctOffsets (h : Records ledger outbox)
    (hSorted : ledger.Pairwise fun left right => left.2 < right.2) : outbox.DistinctOffsets := by
  intro key other entry second offset hEntry hSecond hOffset hOther
  have hFirst := h.lookup_of_entry hEntry
  have hAgain := h.lookup_of_entry hSecond
  rw [hOffset] at hFirst
  rw [hOther] at hAgain
  obtain ⟨found, hFound, hMem⟩ := Ledger.mem_of_lookup hFirst
  obtain ⟨again, hAgainEq, hAgainMem⟩ := Ledger.mem_of_lookup hAgain
  cases hFound
  cases hAgainEq
  have hOffsets : (ledger.map Prod.snd).Nodup := List.pairwise_map.mpr (hSorted.imp fun hLt => hLt.ne)
  have hRow := List.inj_on_of_nodup_map hOffsets hMem hAgainMem rfl
  rw [← Ledger.lookup_eq_some hFirst, ← Ledger.lookup_eq_some hAgain, (Prod.mk.inj hRow).1]

end Records

/-! ## Replay after a checkpoint -/

/-- The rows that the replay of these records enqueues. -/
def replayedRows (checkpointOffset : Option Nat) (records : List SegmentRecord) : Ledger :=
  records.filterMap fun record =>
    if checkpointOffset.any (record.offset ≤ ·) then none
    else (IptoWritePayload.decode record.payload).toOption.map fun payload => (payload, record.offset)

/-- The rows were enqueued, none was delivered yet, and every record was counted once. -/
structure Replays (ledger : Ledger) (replay : MetadataOutboxReplay) : Prop where
  records : Records ledger replay.outbox
  pending : ∀ (key : IdempotencyKey) (entry : MetadataOutboxEntry),
    replay.outbox.entries[key]? = some entry → entry.status = .pending
  counted : replay.summary.scannedRecords = replay.summary.skippedRecords + replay.summary.replayedRecords

theorem MetadataOutbox.pending_enqueueWithOffset {outbox : MetadataOutbox}
    (h : ∀ (key : IdempotencyKey) (entry : MetadataOutboxEntry),
      outbox.entries[key]? = some entry → entry.status = .pending)
    (payload : IptoWritePayload) (offset : Option Nat) (key : IdempotencyKey) (entry : MetadataOutboxEntry)
    (hEntry : (outbox.enqueueWithOffset payload offset).2.entries[key]? = some entry) :
    entry.status = .pending := by
  rw [MetadataOutbox.enqueueWithOffset] at hEntry
  split at hEntry
  · exact h key entry hEntry
  · rw [getElem?_insert_ite] at hEntry
    split at hEntry
    · cases hEntry
      rfl
    · exact h key entry hEntry

namespace Replays

variable {ledger : Ledger} {replay next final : MetadataOutboxReplay}

theorem replayRecord (h : Replays ledger replay) {record : SegmentRecord}
    (hRecord : Ipto.replayRecord replay record = .ok next) :
    next.summary.checkpointOffset = replay.summary.checkpointOffset ∧
      Replays (ledger ++ replayedRows replay.summary.checkpointOffset [record]) next := by
  rw [Ipto.replayRecord] at hRecord
  rw [replayedRows, List.filterMap_cons]
  split at hRecord
  · rename_i hSkip
    cases hRecord
    rw [if_pos hSkip]
    refine ⟨rfl, by simpa using h.records, h.pending, ?_⟩
    have hCounted := h.counted
    dsimp only
    omega
  · rename_i hKeep
    rw [if_neg hKeep]
    split at hRecord
    · cases hRecord
    · rename_i payload hDecode
      cases hRecord
      rw [hDecode]
      refine ⟨rfl, h.records.enqueueWithOffset payload record.offset,
        MetadataOutbox.pending_enqueueWithOffset h.pending payload _, ?_⟩
      have hCounted := h.counted
      dsimp only
      omega

theorem foldlM {records : List SegmentRecord} (h : Replays ledger replay)
    (hFinal : records.foldlM Ipto.replayRecord replay = .ok final) :
    Replays (ledger ++ replayedRows replay.summary.checkpointOffset records) final := by
  induction records generalizing ledger replay with
  | nil =>
    cases hFinal
    simpa [replayedRows] using h
  | cons record records ih =>
    rw [List.foldlM_cons] at hFinal
    obtain ⟨next, hNext, hRest⟩ := ok_of_bind hFinal
    obtain ⟨hCheckpoint, hReplays⟩ := h.replayRecord hNext
    have hAll := ih hReplays hRest
    rw [hCheckpoint, List.append_assoc] at hAll
    have hRows : replayedRows replay.summary.checkpointOffset (record :: records) =
        replayedRows replay.summary.checkpointOffset [record] ++
          replayedRows replay.summary.checkpointOffset records := by
      rw [replayedRows, ← List.singleton_append, List.filterMap_append]
      rfl
    rw [hRows]
    exact hAll

end Replays

theorem recordsFrom_sorted (offset : Nat) (payloads : List Bytes) :
    (recordsFrom offset payloads).Pairwise fun left right => left.offset < right.offset := by
  induction payloads generalizing offset with
  | nil => exact List.Pairwise.nil
  | cons payload payloads ih =>
    refine List.Pairwise.cons (fun record hRecord => ?_) (ih _)
    have hLe := offset_of_mem_recordsFrom hRecord
    rw [length_frame] at hLe
    dsimp only
    omega

theorem lt_of_mem_recordsFrom {offset : Nat} {payloads : List Bytes} {record : SegmentRecord}
    (h : record ∈ recordsFrom offset payloads) :
    record.offset < offset + (payloads.flatMap frame).length := by
  induction payloads generalizing offset with
  | nil => cases h
  | cons payload payloads ih =>
    rw [List.flatMap_cons, List.length_append, length_frame]
    rcases List.mem_cons.mp h with rfl | h
    · dsimp only
      omega
    · have hLt := ih h
      rw [length_frame] at hLt
      omega

theorem offset_of_mem_replayedRows {checkpointOffset : Option Nat} {records : List SegmentRecord}
    {row : IptoWritePayload × Nat} (h : row ∈ replayedRows checkpointOffset records) :
    ∃ record ∈ records, row.2 = record.offset := by
  obtain ⟨record, hRecord, hRow⟩ := List.mem_filterMap.mp h
  split at hRow
  · cases hRow
  · obtain ⟨payload, -, rfl⟩ := Option.map_eq_some_iff.mp hRow
    exact ⟨record, hRecord, rfl⟩

theorem replayedRows_sorted {records : List SegmentRecord} (checkpointOffset : Option Nat)
    (h : records.Pairwise fun left right => left.offset < right.offset) :
    (replayedRows checkpointOffset records).Pairwise fun left right => left.2 < right.2 := by
  rw [replayedRows, List.pairwise_filterMap]
  refine h.imp fun {left right} hLt => ?_
  intro first hFirst second hSecond
  split at hFirst
  · cases hFirst
  · split at hSecond
    · cases hSecond
    · obtain ⟨payload, -, rfl⟩ := Option.map_eq_some_iff.mp hFirst
      obtain ⟨other, -, rfl⟩ := Option.map_eq_some_iff.mp hSecond
      exact hLt

/-- A recovery succeeds on whole segments only, and records the rows behind the checkpoint. -/
theorem recoverAfter_eq_ok {file : Bytes} {path : PathBuf} {segmentId : SegmentId} {nodeId : NodeId}
    {checkpointOffset : Option Nat} {durable : SegmentBackedMetadataOutbox} {summary : MetadataOutboxReplaySummary}
    (h : SegmentBackedMetadataOutbox.recoverAfter file path segmentId nodeId checkpointOffset =
      .ok (durable, summary)) :
    ∃ payloads, file = segmentBytes payloads ∧ durable.writer.Holds payloads ∧ durable.writer.file = file ∧
      Records (replayedRows checkpointOffset (recordsFrom 8 payloads)) durable.outbox := by
  obtain ⟨replay, hReplay, hRest⟩ := ok_of_bind h
  obtain ⟨writer, hWriter, hPair⟩ := ok_of_bind hRest
  cases hPair
  have hOpened := ok_of_mapError hWriter
  obtain ⟨stats, hStats, hMade⟩ := ok_of_bind hOpened
  cases hMade
  obtain ⟨payloads, hSized, rfl⟩ := segment_of_scanSegment hStats
  rw [replayMetadataOutboxSegmentAfter_segmentBytes hSized] at hReplay
  have hInitial : Replays [] ⟨MetadataOutbox.new, ⟨checkpointOffset, 0, 0, 0⟩⟩ :=
    ⟨Records.new, by simp [MetadataOutbox.new], rfl⟩
  have hReplays := hInitial.foldlM hReplay
  rw [List.nil_append] at hReplays
  rw [scanSegment_segment hSized] at hStats
  cases hStats
  exact ⟨payloads, rfl, ⟨hSized, rfl, rfl, rfl, rfl⟩, rfl, hReplays.records⟩

/-! ## Every run, on any disk -/

/-- What the outbox has recorded is a ledger in the order of the offsets, all of them in front of
the place where the next record goes. -/
def SegmentBackedMetadataOutbox.InOrder (durable : SegmentBackedMetadataOutbox) : Prop :=
  ∃ ledger, Records ledger durable.outbox ∧ (ledger.Pairwise fun left right => left.2 < right.2) ∧
    ∀ row ∈ ledger, row.2 < durable.writer.byteLen

namespace SegmentBackedMetadataOutbox.InOrder

variable {durable : SegmentBackedMetadataOutbox}

theorem of_eq (h : durable.InOrder) {outbox : MetadataOutbox} (hEq : outbox.recorded = durable.outbox.recorded) :
    InOrder { durable with outbox } := by
  obtain ⟨ledger, hRecords, hSorted, hBelow⟩ := h
  exact ⟨ledger, hRecords.of_eq hEq, hSorted, hBelow⟩

theorem enqueueDurableOn (h : durable.InOrder) (disk : DiskWrites) (payload : IptoWritePayload) :
    (durable.enqueueDurableOn disk payload).2.InOrder := by
  obtain ⟨ledger, hRecords, hSorted, hBelow⟩ := h
  rw [SegmentBackedMetadataOutbox.enqueueDurableOn]
  split
  · exact ⟨ledger, hRecords, hSorted, hBelow⟩
  · rcases SegmentWriter.appendRecordOn_cases durable.writer ⟨disk, payload.encode⟩ with
      ⟨-, hAppend⟩ | ⟨-, error, hAppend⟩
    · rw [hAppend]
      refine ⟨_, hRecords.enqueueWithOffset payload durable.writer.byteLen, ?_, fun row hRow => ?_⟩
      · rw [List.pairwise_append]
        refine ⟨hSorted, List.pairwise_singleton _ _, fun row hRow last hLast => ?_⟩
        rw [List.mem_singleton.mp hLast]
        exact hBelow row hRow
      · dsimp only
        rw [length_frame]
        rcases List.mem_append.mp hRow with hRow | hRow
        · have hLt := hBelow row hRow
          omega
        · rw [List.mem_singleton.mp hRow]
          dsimp only
          omega
    · rw [hAppend]
      exact ⟨ledger, hRecords, hSorted, hBelow⟩

theorem recoverAfter {file : Bytes} {path : PathBuf} {segmentId : SegmentId} {nodeId : NodeId}
    {checkpointOffset : Option Nat} {summary : MetadataOutboxReplaySummary}
    (h : SegmentBackedMetadataOutbox.recoverAfter file path segmentId nodeId checkpointOffset =
      .ok (durable, summary)) : durable.InOrder := by
  obtain ⟨payloads, -, hHolds, -, hRecords⟩ := recoverAfter_eq_ok h
  refine ⟨_, hRecords, replayedRows_sorted _ (recordsFrom_sorted 8 payloads), fun row hRow => ?_⟩
  obtain ⟨record, hRecord, hOffset⟩ := offset_of_mem_replayedRows hRow
  have hLt := lt_of_mem_recordsFrom hRecord
  rwa [hOffset, hHolds.byteLen, length_segmentBytes]

end SegmentBackedMetadataOutbox.InOrder

/-- A step moves statuses, appends one payload or recovers. -/
theorem checkpointStep_cases {ω : Type} (writer : IptoWriter ω) (system : OutboxSystem ω)
    (step : CheckpointStep) :
    (∃ outbox, (checkpointStep writer system step).durable = { system.durable with outbox } ∧
      outbox.recorded = system.durable.outbox.recorded) ∨
    (∃ disk payload, (step.Healthy → disk = .healthy) ∧
      (checkpointStep writer system step).durable = (system.durable.enqueueDurableOn disk payload).2) ∨
    (∃ segmentId nodeId checkpointOffset summary, SegmentBackedMetadataOutbox.recoverAfter
      system.durable.writer.file system.durable.writer.path segmentId nodeId checkpointOffset =
        .ok ((checkpointStep writer system step).durable, summary)) := by
  cases step with
  | outbox step =>
    cases step with
    | enqueueDurable payload => exact .inr (.inl ⟨.healthy, payload, fun _ => rfl, rfl⟩)
    | deliverNextPending =>
      exact .inl ⟨_, rfl, MetadataOutbox.recorded_deliver _ _ _ _⟩
    | deliverNextPendingForTarget target =>
      exact .inl ⟨_, rfl, MetadataOutbox.recorded_deliver _ _ _ _⟩
    | drainPendingOutbox maxAttempts =>
      exact .inl ⟨_, rfl, MetadataOutbox.recorded_drain _
        (fun outbox _ => outbox.recorded_deliver _ _ _) _ _ _⟩
    | drainPendingOutboxForTarget target maxAttempts =>
      exact .inl ⟨_, rfl, MetadataOutbox.recorded_drain _
        (fun outbox _ => outbox.recorded_deliver _ _ _) _ _ _⟩
    | retryFailed key => exact .inl ⟨_, rfl, MetadataOutbox.recorded_retryFailed _ key⟩
    | retryFailedForTarget target =>
      exact .inl ⟨_, rfl, MetadataOutbox.recorded_retryFailedForTarget _ target⟩
    | crashAndRecover segmentId nodeId =>
      rw [checkpointStep, outboxStep]
      split
      · exact .inl ⟨_, rfl, rfl⟩
      · rename_i hRecover
        exact .inr (.inr ⟨segmentId, nodeId, none, _, hRecover⟩)
  | enqueueDurableOn disk payload => exact .inr (.inl ⟨disk, payload, id, rfl⟩)
  | acknowledge key => exact .inl ⟨_, rfl, MetadataOutbox.recorded_acknowledge _ key⟩
  | fail key error => exact .inl ⟨_, rfl, MetadataOutbox.recorded_failWithRetryability _ key error false⟩
  | recoverAfter segmentId nodeId checkpointOffset =>
    rw [checkpointStep]
    split
    · exact .inl ⟨_, rfl, rfl⟩
    · rename_i hRecover
      exact .inr (.inr ⟨segmentId, nodeId, checkpointOffset, _, hRecover⟩)

theorem inOrder_checkpointStep {ω : Type} (writer : IptoWriter ω) {system : OutboxSystem ω}
    (h : system.durable.InOrder) (step : CheckpointStep) :
    (checkpointStep writer system step).durable.InOrder := by
  rcases checkpointStep_cases writer system step with ⟨outbox, hNext, hRecorded⟩ | ⟨disk, payload, -, hNext⟩ |
    ⟨segmentId, nodeId, checkpointOffset, summary, hRecover⟩
  · rw [hNext]
    exact h.of_eq hRecorded
  · rw [hNext]
    exact h.enqueueDurableOn disk payload
  · exact SegmentBackedMetadataOutbox.InOrder.recoverAfter hRecover

/-! ## Every run on a healthy disk -/

theorem filter_suffix_of_sorted {ledger : Ledger} (h : ledger.Pairwise fun left right => left.2 < right.2)
    (offset : Nat) : ledger.filter (fun row => offset < row.2) <:+ ledger := by
  induction ledger with
  | nil => exact List.nil_suffix
  | cons row ledger ih =>
    obtain ⟨hRow, hRest⟩ := List.pairwise_cons.mp h
    by_cases hAbove : offset < row.2
    · have hAll : (row :: ledger).filter (fun row => offset < row.2) = row :: ledger := by
        refine List.filter_eq_self.mpr fun other hOther => decide_eq_true ?_
        rcases List.mem_cons.mp hOther with rfl | hOther
        · exact hAbove
        · exact hAbove.trans (hRow other hOther)
      rw [hAll]
    · rw [List.filter_cons_of_neg (by simpa using hAbove)]
      exact (ih hRest).trans (List.suffix_cons row ledger)

/-- The rows of the ledger that a recovery after the checkpoint replays. -/
def Ledger.after (ledger : Ledger) (checkpointOffset : Option Nat) : Ledger :=
  ledger.filter fun row => checkpointOffset.all (· < row.2)

theorem Ledger.after_suffix {ledger : Ledger} (h : ledger.Pairwise fun left right => left.2 < right.2)
    (checkpointOffset : Option Nat) : ledger.after checkpointOffset <:+ ledger := by
  cases checkpointOffset with
  | none =>
    have hAll : ledger.after none = ledger := List.filter_eq_self.mpr fun row hRow => rfl
    rw [hAll]
  | some offset => exact filter_suffix_of_sorted h offset

theorem replayedRows_encode (checkpointOffset : Option Nat) {payloads : List IptoWritePayload}
    (hSized : ∀ payload ∈ payloads, Sized payload.encode) (offset : Nat) :
    replayedRows checkpointOffset (recordsFrom offset (payloads.map IptoWritePayload.encode)) =
      (ledgerFrom offset payloads).after checkpointOffset := by
  induction payloads generalizing offset with
  | nil => rfl
  | cons payload payloads ih =>
    have hRest := ih (fun other hOther => hSized other (List.mem_cons_of_mem payload hOther))
      (offset + (frame payload.encode).length)
    rw [replayedRows, Ledger.after] at hRest
    rw [replayedRows, Ledger.after, List.map_cons, recordsFrom, ledgerFrom, List.filterMap_cons, List.filter_cons]
    dsimp only
    rw [decode_encode (hSized payload List.mem_cons_self), hRest]
    cases checkpointOffset with
    | none => rfl
    | some last =>
      by_cases hSkip : offset ≤ last
      · simp [hSkip, Nat.not_lt.mpr hSkip]
      · simp [hSkip, Nat.lt_of_not_le hSkip, Except.toOption]

theorem replayRecord_isOk {payloads : List IptoWritePayload}
    (hSized : ∀ payload ∈ payloads.map IptoWritePayload.encode, Sized payload) {offset : Nat}
    {record : SegmentRecord} (h : record ∈ recordsFrom offset (payloads.map IptoWritePayload.encode))
    (replay : MetadataOutboxReplay) : ∃ next, replayRecord replay record = .ok next := by
  obtain ⟨payload, -, hDecode⟩ := decode_of_mem_recordsFrom hSized h
  rw [replayRecord, hDecode]
  dsimp only
  split
  · exact ⟨_, rfl⟩
  · exact ⟨_, rfl⟩

/-- On a segment of payloads every recovery succeeds, and replays the rows after the checkpoint. -/
theorem recoverAfter_replays {writer : SegmentWriter} {payloads : List IptoWritePayload}
    (hHolds : writer.Holds (payloads.map IptoWritePayload.encode)) (path : PathBuf) (segmentId : SegmentId)
    (nodeId : NodeId) (checkpointOffset : Option Nat) :
    ∃ durable summary,
      SegmentBackedMetadataOutbox.recoverAfter writer.file path segmentId nodeId checkpointOffset =
        .ok (durable, summary) ∧
      durable.writer.Holds (payloads.map IptoWritePayload.encode) ∧
      Replays ((ledgerFrom 8 payloads).after checkpointOffset) ⟨durable.outbox, summary⟩ := by
  have hSized : ∀ payload ∈ payloads, Sized payload.encode := fun payload hPayload =>
    hHolds.sized _ (List.mem_map_of_mem hPayload)
  have hInitial : Replays [] ⟨MetadataOutbox.new, ⟨checkpointOffset, 0, 0, 0⟩⟩ :=
    ⟨Records.new, by simp [MetadataOutbox.new], rfl⟩
  obtain ⟨final, hFinal⟩ := foldlM_isOk (fun record hRecord => replayRecord_isOk hHolds.sized hRecord)
    ⟨MetadataOutbox.new, ⟨checkpointOffset, 0, 0, 0⟩⟩
  have hReplays := hInitial.foldlM hFinal
  rw [List.nil_append, replayedRows_encode _ hSized] at hReplays
  obtain ⟨next, hNext, hNextHolds⟩ := hHolds.reopen path segmentId nodeId
  refine ⟨⟨final.outbox, next⟩, final.summary, ?_, hNextHolds, hReplays⟩
  rw [SegmentBackedMetadataOutbox.recoverAfter, hNext, hHolds.file,
    replayMetadataOutboxSegmentAfter_segmentBytes hHolds.sized, hFinal]
  rfl

/-- The segment holds these payloads, and the outbox has recorded the last of them. -/
def SegmentBackedMetadataOutbox.KeepsEnd (durable : SegmentBackedMetadataOutbox) : Prop :=
  ∃ payloads ledger, durable.writer.Holds (payloads.map IptoWritePayload.encode) ∧
    ledger <:+ ledgerFrom 8 payloads ∧ Records ledger durable.outbox

theorem SegmentBackedMetadataOutbox.KeepsEnd.enqueueDurable {durable : SegmentBackedMetadataOutbox}
    (h : durable.KeepsEnd) (payload : IptoWritePayload) :
    (durable.enqueueDurableOn .healthy payload).2.KeepsEnd := by
  obtain ⟨payloads, ledger, hHolds, ⟨before, hBefore⟩, hRecords⟩ := h
  rw [← SegmentBackedMetadataOutbox.enqueueDurable]
  rcases enqueueDurable_cases durable payload with
    ⟨-, hResult⟩ | ⟨-, -, next, hResult, -, -, hNext⟩ | ⟨-, error, hResult⟩
  · rw [hResult]
    exact ⟨payloads, ledger, hHolds, ⟨before, hBefore⟩, hRecords⟩
  · rw [hResult, hHolds.byteLen]
    refine ⟨payloads ++ [payload], _, by simpa using hNext _ hHolds, ⟨before, ?_⟩,
      hRecords.enqueueWithOffset payload _⟩
    rw [ledgerFrom_concat, ← hBefore, ← length_segmentBytes, List.append_assoc]
  · rw [hResult]
    exact ⟨payloads, ledger, hHolds, ⟨before, hBefore⟩, hRecords⟩

theorem keepsEnd_checkpointStep {ω : Type} (writer : IptoWriter ω) {system : OutboxSystem ω}
    (h : system.durable.KeepsEnd) {step : CheckpointStep} (hHealthy : step.Healthy) :
    (checkpointStep writer system step).durable.KeepsEnd := by
  rcases checkpointStep_cases writer system step with ⟨outbox, hNext, hRecorded⟩ | ⟨disk, payload, hDisk, hNext⟩ |
    ⟨segmentId, nodeId, checkpointOffset, summary, hRecover⟩
  · obtain ⟨payloads, ledger, hHolds, hEnd, hRecords⟩ := h
    rw [hNext]
    exact ⟨payloads, ledger, hHolds, hEnd, hRecords.of_eq hRecorded⟩
  · rw [hNext, hDisk hHealthy]
    exact h.enqueueDurable payload
  · obtain ⟨payloads, ledger, hHolds, -, -⟩ := h
    obtain ⟨durable, found, hAgain, hNext, hReplays⟩ := recoverAfter_replays hHolds
      system.durable.writer.path segmentId nodeId checkpointOffset
    rw [hRecover] at hAgain
    cases hAgain
    exact ⟨payloads, _, hNext, Ledger.after_suffix (ledgerFrom_sorted 8 payloads) checkpointOffset,
      hReplays.records⟩

/-! ## Rebuilding behind a checkpoint -/

/-- Every entry behind the offset is pending in the next outbox, as it was recorded. Any other
entry there was recorded behind the offset under the key of an entry at or in front of it. -/
structure RebuildsAfter (offset : Nat) (outbox next : MetadataOutbox) : Prop where
  rebuilt : ∀ (key : IdempotencyKey) (entry : MetadataOutboxEntry) (other : Nat),
    outbox.entries[key]? = some entry → entry.recordOffset = some other → offset < other →
      ∃ again, next.entries[key]? = some again ∧ again.status = .pending ∧
        again.payload = entry.payload ∧ again.recordOffset = some other
  others : ∀ (key : IdempotencyKey) (again : MetadataOutboxEntry), next.entries[key]? = some again →
    again.status = .pending ∧ ∃ other, again.recordOffset = some other ∧ offset < other ∧
      ∃ entry first, outbox.entries[key]? = some entry ∧ entry.recordOffset = some first ∧
        (first ≤ offset ∨ first = other ∧ entry.payload = again.payload)

theorem rebuildsAfter_of_suffix {outbox : MetadataOutbox} {replay : MetadataOutboxReplay}
    {ledger whole : Ledger} (hSorted : whole.Pairwise fun left right => left.2 < right.2)
    (hEnd : ledger <:+ whole) (hRecords : Records ledger outbox) {offset : Nat} {payload : IptoWritePayload}
    (hOffset : (payload, offset) ∈ ledger) (hReplays : Replays (whole.after (some offset)) replay) :
    RebuildsAfter offset outbox replay.outbox := by
  obtain ⟨before, rfl⟩ := hEnd
  have hAfter : Ledger.after (before ++ ledger) (some offset) = ledger.filter fun row => offset < row.2 := by
    have hNothing : before.filter (fun row => offset < row.2) = [] := by
      refine List.filter_eq_nil_iff.mpr fun row hRow hLt => ?_
      have hBefore := (List.pairwise_append.mp hSorted).2.2 row hRow (payload, offset) hOffset
      exact absurd (of_decide_eq_true hLt) (Nat.lt_asymm hBefore)
    calc Ledger.after (before ++ ledger) (some offset)
        = before.filter (fun row => offset < row.2) ++ ledger.filter (fun row => offset < row.2) :=
          List.filter_append before ledger
      _ = ledger.filter fun row => offset < row.2 := by rw [hNothing, List.nil_append]
  rw [hAfter] at hReplays
  have hRebuilt : ∀ (key : IdempotencyKey) (entry : MetadataOutboxEntry) (other : Nat),
      outbox.entries[key]? = some entry → entry.recordOffset = some other → offset < other →
        ∃ again, replay.outbox.entries[key]? = some again ∧ again.payload = entry.payload ∧
          again.recordOffset = some other := by
    intro key entry other hEntry hOther hLt
    have hLookup := hRecords.lookup_of_entry hEntry
    rw [hOther] at hLookup
    exact hReplays.records.entry_of_lookup (Ledger.lookup_filter hLookup (decide_eq_true hLt))
  refine ⟨fun key entry other hEntry hOther hLt => ?_, fun key again hAgain => ?_⟩
  · obtain ⟨again, hAgain, hPayload, hAgainOffset⟩ := hRebuilt key entry other hEntry hOther hLt
    exact ⟨again, hAgain, hReplays.pending key again hAgain, hPayload, hAgainOffset⟩
  · refine ⟨hReplays.pending key again hAgain, ?_⟩
    have hLookup := hReplays.records.lookup_of_entry hAgain
    obtain ⟨other, hOther, hMem⟩ := Ledger.mem_of_lookup hLookup
    obtain ⟨hLedger, hLt⟩ := List.mem_filter.mp hMem
    refine ⟨other, hOther, of_decide_eq_true hLt, ?_⟩
    -- the key has a row in the ledger, so the outbox has recorded the first one
    cases hFirst : ledger.lookup key with
    | none =>
      refine absurd (List.mem_map.mpr ⟨_, hLedger, ?_⟩) (Ledger.lookup_eq_none.mp hFirst)
      exact Ledger.lookup_eq_some hLookup
    | some found =>
      obtain ⟨entry, hEntry, hPayload, hRecord⟩ := hRecords.entry_of_lookup hFirst
      obtain ⟨first, hFound, -⟩ := Ledger.mem_of_lookup hFirst
      refine ⟨entry, first, hEntry, hRecord.trans hFound, ?_⟩
      by_cases hBehind : offset < first
      · obtain ⟨same, hSame, hSamePayload, hSameOffset⟩ := hRebuilt key entry first hEntry
          (hRecord.trans hFound) hBehind
        rw [hAgain] at hSame
        cases hSame
        rw [hOther] at hSameOffset
        exact .inr ⟨(Option.some.inj hSameOffset).symm, hSamePayload.symm⟩
      · exact .inl (Nat.le_of_not_lt hBehind)

/-- Every record of the segment is a payload of this shard and target. -/
def HoldsOnly (file : Bytes) (shardId : DataIndividualShardId) (target : IptoInstanceId) : Prop :=
  ∃ records, readFile file = .ok (records, none) ∧ ∀ record ∈ records, ∃ payload,
    IptoWritePayload.decode record.payload = .ok payload ∧ payload.target = target ∧ payload.shardId = shardId

instance (file : Bytes) (shardId : DataIndividualShardId) (target : IptoInstanceId) :
    Decidable (HoldsOnly file shardId target) :=
  match hRead : readFile file with
  | .ok (records, none) =>
    decidable_of_iff (∀ record ∈ records, ∃ payload ∈ (IptoWritePayload.decode record.payload).toOption,
      payload.target = target ∧ payload.shardId = shardId) (by
        simp only [HoldsOnly, hRead, Except.ok.injEq, Prod.mk.injEq, and_true, exists_eq_left', Option.mem_def,
          toOption_eq_some])
  | .ok (_, some _) => .isFalse fun ⟨_, hOther, _⟩ => by
      rw [hRead] at hOther
      cases hOther
  | .error _ => .isFalse fun ⟨_, hOther, _⟩ => by
      rw [hRead] at hOther
      cases hOther

theorem mem_of_mem_ledgerFrom {offset : Nat} {payloads : List IptoWritePayload}
    {row : IptoWritePayload × Nat} (h : row ∈ ledgerFrom offset payloads) : row.1 ∈ payloads := by
  induction payloads generalizing offset with
  | nil => cases h
  | cons payload payloads ih =>
    rcases List.mem_cons.mp h with rfl | h
    · exact List.mem_cons_self
    · exact List.mem_cons_of_mem payload (ih h)

theorem HoldsOnly.payload {writer : SegmentWriter} {shardId : DataIndividualShardId} {target : IptoInstanceId}
    (h : HoldsOnly writer.file shardId target) {payloads : List IptoWritePayload}
    (hHolds : writer.Holds (payloads.map IptoWritePayload.encode)) {payload : IptoWritePayload}
    (hPayload : payload ∈ payloads) : payload.target = target ∧ payload.shardId = shardId := by
  obtain ⟨records, hRead, hRecords⟩ := h
  rw [hHolds.file, readFile_segment hHolds.sized] at hRead
  cases hRead
  have hEncoded : payload.encode ∈ payloads.map IptoWritePayload.encode := List.mem_map_of_mem hPayload
  have hMem : payload.encode ∈
      (recordsFrom 8 (payloads.map IptoWritePayload.encode)).map SegmentRecord.payload := by
    rwa [map_payload_recordsFrom]
  obtain ⟨record, hRecord, hEq⟩ := List.mem_map.mp hMem
  obtain ⟨found, hDecode, hStream⟩ := hRecords record hRecord
  rw [hEq, decode_encode (hHolds.sized _ hEncoded)] at hDecode
  cases hDecode
  exact hStream

/-- A recovery after this offset succeeds and rebuilds what lies behind it. Nothing that is not
acknowledged is lost by it. -/
def RecoversBehind (durable : SegmentBackedMetadataOutbox) (offset : Nat) : Prop :=
  ∀ segmentId nodeId, ∃ recovered summary,
    SegmentBackedMetadataOutbox.recoverAfter durable.writer.file durable.writer.path segmentId nodeId
      (some offset) = .ok (recovered, summary) ∧
    RebuildsAfter offset durable.outbox recovered.outbox ∧
    (∀ (key : IdempotencyKey) (entry : MetadataOutboxEntry), durable.outbox.entries[key]? = some entry →
      entry.status ≠ .acknowledged → ∃ again, recovered.outbox.entries[key]? = some again ∧
        again.status = .pending ∧ again.payload = entry.payload ∧ again.recordOffset = entry.recordOffset) ∧
    summary.scannedRecords = summary.skippedRecords + summary.replayedRecords

theorem recoversBehind_of_keepsEnd {durable : SegmentBackedMetadataOutbox} (h : durable.KeepsEnd)
    {shardId : DataIndividualShardId} {target : IptoInstanceId} {offset : Nat}
    (hReached : durable.outbox.Reached shardId target offset)
    (hOnly : HoldsOnly durable.writer.file shardId target) : RecoversBehind durable offset := by
  obtain ⟨payloads, ledger, hHolds, hEnd, hRecords⟩ := h
  intro segmentId nodeId
  obtain ⟨recovered, summary, hRecover, -, hReplays⟩ := recoverAfter_replays hHolds durable.writer.path segmentId
    nodeId (some offset)
  obtain ⟨entry, key, hEntry, -, -, hOffset⟩ := hReached.entry
  have hLookup := hRecords.lookup_of_entry hEntry
  rw [hOffset] at hLookup
  obtain ⟨found, hFound, hMem⟩ := Ledger.mem_of_lookup hLookup
  cases hFound
  have hRebuilds := rebuildsAfter_of_suffix (ledgerFrom_sorted 8 payloads) hEnd hRecords hMem hReplays
  refine ⟨recovered, summary, hRecover, hRebuilds, fun other second hSecond hStatus => ?_, hReplays.counted⟩
  obtain ⟨last, hLast, hRow⟩ := Ledger.mem_of_lookup (hRecords.lookup_of_entry hSecond)
  obtain ⟨hTarget, hShard⟩ := hOnly.payload hHolds (mem_of_mem_ledgerFrom (hEnd.subset hRow))
  have hBehind : offset < last := by
    by_contra hLe
    exact hStatus (hReached.acknowledged last second ⟨other, hSecond, hTarget, hShard, hLast⟩
      (Nat.le_of_not_lt hLe))
  rw [hLast]
  exact hRebuilds.rebuilt other second last hSecond hLast hBehind

theorem acknowledgedCheckpoint_exact {ω : Type} (writer : IptoWriter ω) (remote : ω) (path : PathBuf)
    (segmentId : SegmentId) (nodeId : NodeId) :
    ∃ durable, SegmentBackedMetadataOutbox.create none path segmentId nodeId = .ok durable ∧
      ∀ (steps : List CheckpointStep) (shardId : DataIndividualShardId) (target : IptoInstanceId)
        (epoch : CheckpointEpoch),
        let reached := (steps.foldl (checkpointStep writer) ⟨durable, remote, []⟩).durable
        (∀ checkpoint, reached.acknowledgedCheckpoint shardId target epoch = some checkpoint →
          reached.outbox.Reached shardId target checkpoint.lastAcknowledgedOffset ∧
          ((∀ step ∈ steps, step.Healthy) → HoldsOnly reached.writer.file shardId target →
            RecoversBehind reached checkpoint.lastAcknowledgedOffset)) ∧
        (reached.acknowledgedCheckpoint shardId target epoch = none ↔
          reached.outbox.Unreached shardId target) := by
  obtain ⟨segment, hCreate, hHolds⟩ := SegmentWriter.holds_create path segmentId nodeId
  refine ⟨⟨MetadataOutbox.new, segment⟩, ?_, fun steps shardId target epoch => ?_⟩
  · rw [SegmentBackedMetadataOutbox.create, hCreate]
    rfl
  intro reached
  have hInOrder : reached.InOrder := List.foldlRecOn steps _
    (motive := fun system : OutboxSystem ω => system.durable.InOrder) ⟨[], Records.new, List.Pairwise.nil, by simp⟩
    fun system hSystem step _ => inOrder_checkpointStep writer hSystem step
  obtain ⟨ledger, hRecords, hSorted, -⟩ := hInOrder
  have hDistinct := hRecords.distinctOffsets hSorted
  refine ⟨fun checkpoint hSome => ?_, MetadataOutbox.acknowledgedCheckpoint_eq_none hDistinct⟩
  have hReached := MetadataOutbox.acknowledgedCheckpoint_eq_some hDistinct hSome
  refine ⟨hReached, fun hHealthy hOnly => ?_⟩
  have hEnd : reached.KeepsEnd := List.foldlRecOn steps _
    (motive := fun system : OutboxSystem ω => system.durable.KeepsEnd)
    ⟨[], [], hHolds, List.suffix_refl [], Records.new⟩
    fun system hSystem step hStep => keepsEnd_checkpointStep writer hSystem (hHealthy step hStep)
  exact recoversBehind_of_keepsEnd hEnd hReached hOnly

theorem acknowledgedCheckpoint_exact_delivered :
    ∃ durable, SegmentBackedMetadataOutbox.create none ⟨utf8Bytes "a.seg"⟩ ⟨"outbox"⟩ ⟨"node-a"⟩ = .ok durable ∧
      let reached := ([.outbox (.enqueueDurable legacyPayload), .outbox .deliverNextPending].foldl
        (checkpointStep acceptingWriter) ⟨durable, (), []⟩).durable
      reached.outbox.Reached legacyPayload.shardId legacyPayload.target 8 ∧ RecoversBehind reached 8 := by
  obtain ⟨durable, hCreate, hRun⟩ := acknowledgedCheckpoint_exact acceptingWriter () ⟨utf8Bytes "a.seg"⟩
    ⟨"outbox"⟩ ⟨"node-a"⟩
  refine ⟨durable, hCreate, ?_⟩
  intro reached
  have hSome := (hRun [.outbox (.enqueueDurable legacyPayload), .outbox .deliverNextPending]
    legacyPayload.shardId legacyPayload.target 1).1
  cases hCreate
  have hCheckpoint : (reached.acknowledgedCheckpoint legacyPayload.shardId legacyPayload.target 1).map
      MetadataOutboxCheckpoint.lastAcknowledgedOffset = some 8 := by decide +kernel
  obtain ⟨checkpoint, hFound, hOffset⟩ := Option.map_eq_some_iff.mp hCheckpoint
  obtain ⟨hReached, hRecovers⟩ := hSome checkpoint hFound
  rw [hOffset] at hReached hRecovers
  exact ⟨hReached, hRecovers (by simp [CheckpointStep.Healthy]) (by decide +kernel)⟩

/-! ## A key recorded twice -/

/-- The next outbox has the keys of the entries behind the offset and no others. -/
def RebuildsExactly (offset : Nat) (outbox next : MetadataOutbox) : Prop :=
  ∀ key : IdempotencyKey, (∃ again, next.entries[key]? = some again) ↔
    ∃ entry other, outbox.entries[key]? = some entry ∧ entry.recordOffset = some other ∧ offset < other

/-- The recovery after 8 forgets the payload, so that it is written a second time; the recovery of
everything finds it at 8 again. -/
def recordedTwice : List CheckpointStep := [.outbox (.enqueueDurable legacyPayload), .outbox .deliverNextPending,
  .recoverAfter ⟨"outbox"⟩ ⟨"node-a"⟩ (some 8), .outbox (.enqueueDurable legacyPayload),
  .recoverAfter ⟨"outbox"⟩ ⟨"node-a"⟩ none, .outbox .deliverNextPending]

theorem acknowledgedCheckpoint_recordedTwice :
    ∃ durable, SegmentBackedMetadataOutbox.create none ⟨utf8Bytes "a.seg"⟩ ⟨"outbox"⟩ ⟨"node-a"⟩ = .ok durable ∧
      let reached := (recordedTwice.foldl (checkpointStep acceptingWriter) ⟨durable, (), []⟩).durable
      ∃ checkpoint recovered summary,
        reached.acknowledgedCheckpoint legacyPayload.shardId legacyPayload.target 1 = some checkpoint ∧
        HoldsOnly reached.writer.file legacyPayload.shardId legacyPayload.target ∧
        SegmentBackedMetadataOutbox.recoverAfter reached.writer.file reached.writer.path ⟨"outbox"⟩ ⟨"node-a"⟩
          (some checkpoint.lastAcknowledgedOffset) = .ok (recovered, summary) ∧
        ¬RebuildsExactly checkpoint.lastAcknowledgedOffset reached.outbox recovered.outbox := by
  refine ⟨_, rfl, ?_⟩
  intro reached
  have hCheckpoint : (reached.acknowledgedCheckpoint legacyPayload.shardId legacyPayload.target 1).map
      MetadataOutboxCheckpoint.lastAcknowledgedOffset = some 8 := by decide +kernel
  have hRecovered : (SegmentBackedMetadataOutbox.recoverAfter reached.writer.file reached.writer.path ⟨"outbox"⟩
      ⟨"node-a"⟩ (some 8)).toOption.bind (fun recovered =>
        recovered.1.outbox.entries[legacyPayload.idempotencyKey]?) ≠ none := by decide +kernel
  have hEntry : (reached.outbox.entries[legacyPayload.idempotencyKey]?).bind
      MetadataOutboxEntry.recordOffset = some 8 := by decide +kernel
  obtain ⟨checkpoint, hSome, hOffset⟩ := Option.map_eq_some_iff.mp hCheckpoint
  obtain ⟨again, hAgain⟩ := Option.ne_none_iff_exists'.mp hRecovered
  obtain ⟨⟨recovered, summary⟩, hRecover, hFound⟩ := Option.bind_eq_some_iff.mp hAgain
  refine ⟨checkpoint, recovered, summary, hSome, by decide +kernel, ?_, fun hExact => ?_⟩
  · rw [hOffset]
    exact toOption_eq_some.mp hRecover
  · obtain ⟨entry, other, hOther, hRecord, hLt⟩ := (hExact _).mp ⟨again, hFound⟩
    rw [hOther, Option.bind_some, hRecord] at hEntry
    cases hEntry
    rw [hOffset] at hLt
    exact absurd hLt (Nat.lt_irrefl 8)

end Vannak.Ipto
