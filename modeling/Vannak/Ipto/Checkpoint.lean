import Vannak.Cluster.Control
import Vannak.Foundation.Leading
import Vannak.Ipto.Durable

/-!
# Acknowledged checkpoints

`acknowledged_checkpoint` of `ipto.rs`: the entries of one shard and target, sorted by the
offsets of their records, and the last one before the first that is not acknowledged. The
outbox keeps its entries by key and acknowledges them in any order.
-/

namespace Vannak.Ipto

open Foundation Storage Cluster

set_option autoImplicit false

namespace MetadataOutbox

def entryValues (outbox : MetadataOutbox) : List MetadataOutboxEntry := outbox.entries.toList.map Prod.snd

/-- The entries of a shard and target with their offsets, in the order of the offsets. The sort
is stable. -/
def stream (outbox : MetadataOutbox) (shardId : DataIndividualShardId) (target : IptoInstanceId) :
    List (Nat × MetadataOutboxEntry) :=
  ((outbox.entryValues.filter fun entry => entry.payload.target = target ∧ entry.payload.shardId = shardId
    ).filterMap fun entry => entry.recordOffset.map fun offset => (offset, entry)
    ).insertionSort fun left right => left.1 ≤ right.1

def acknowledgedCheckpoint (outbox : MetadataOutbox) (shardId : DataIndividualShardId)
    (target : IptoInstanceId) (segmentId : SegmentId) (epoch : CheckpointEpoch) :
    Option MetadataOutboxCheckpoint :=
  (lastLeading (fun row => row.2.status = .acknowledged) (outbox.stream shardId target)).map fun row =>
    { dataIndividualShardId := shardId
      target
      segmentId
      lastAcknowledgedOffset := row.1
      mappingVersion := row.2.payload.mappingVersion
      epoch }

def acknowledgedCheckpointsForTarget (outbox : MetadataOutbox) (target : IptoInstanceId)
    (segmentId : SegmentId) (epoch : CheckpointEpoch) : List MetadataOutboxCheckpoint :=
  let shards : BTreeSet DataIndividualShardId :=
    .ofList ((outbox.entryValues.filter fun entry => entry.payload.target = target).map fun entry =>
      entry.payload.shardId)
  shards.toList.filterMap fun shardId => outbox.acknowledgedCheckpoint shardId target segmentId epoch

/-- The entry was recorded at this offset and belongs to the shard and target. -/
def InStream (outbox : MetadataOutbox) (shardId : DataIndividualShardId) (target : IptoInstanceId)
    (offset : Nat) (entry : MetadataOutboxEntry) : Prop :=
  ∃ key : IdempotencyKey, outbox.entries[key]? = some entry ∧ entry.payload.target = target ∧
    entry.payload.shardId = shardId ∧ entry.recordOffset = some offset

/-- No two entries have the same offset. -/
def DistinctOffsets (outbox : MetadataOutbox) : Prop :=
  ∀ (key other : IdempotencyKey) (entry second : MetadataOutboxEntry) (offset : Nat),
    outbox.entries[key]? = some entry → outbox.entries[other]? = some second →
    entry.recordOffset = some offset → second.recordOffset = some offset → key = other

variable {outbox : MetadataOutbox} {shardId : DataIndividualShardId} {target : IptoInstanceId}

theorem mem_stream {offset : Nat} {entry : MetadataOutboxEntry} :
    (offset, entry) ∈ outbox.stream shardId target ↔ outbox.InStream shardId target offset entry := by
  rw [stream, List.mem_insertionSort, List.mem_filterMap]
  constructor
  · rintro ⟨found, hFound, hOffset⟩
    obtain ⟨hMem, hStream⟩ := List.mem_filter.mp hFound
    obtain ⟨⟨key, value⟩, hBinding, rfl⟩ := List.mem_map.mp hMem
    obtain ⟨found, hRecord, hPair⟩ := Option.map_eq_some_iff.mp hOffset
    cases hPair
    obtain ⟨hTarget, hShard⟩ := of_decide_eq_true hStream
    exact ⟨key, Std.ExtTreeMap.mem_toList_iff_getElem?_eq_some.mp hBinding, hTarget, hShard, hRecord⟩
  · rintro ⟨key, hEntry, hTarget, hShard, hOffset⟩
    refine ⟨entry, List.mem_filter.mpr ⟨?_, decide_eq_true ⟨hTarget, hShard⟩⟩, by rw [hOffset]; rfl⟩
    exact List.mem_map.mpr ⟨(key, entry), Std.ExtTreeMap.mem_toList_iff_getElem?_eq_some.mpr hEntry, rfl⟩

/-- With distinct offsets the order of the stream is strict. -/
theorem stream_sorted (h : outbox.DistinctOffsets) :
    (outbox.stream shardId target).Pairwise fun left right => left.1 < right.1 := by
  have hDistinct : (outbox.stream shardId target).Pairwise fun left right => left.1 ≠ right.1 := by
    rw [stream, (List.perm_insertionSort _ _).pairwise_iff fun hNe => hNe.symm, List.pairwise_filterMap]
    refine List.Pairwise.filter _ ?_
    rw [entryValues, List.pairwise_map]
    refine Std.ExtTreeMap.distinct_keys_toList.imp_of_mem fun {left right} hLeft hRight hNe => ?_
    intro first hFirst second hSecond hEq
    obtain ⟨offset, hOffset, rfl⟩ := Option.map_eq_some_iff.mp hFirst
    obtain ⟨other, hOther, rfl⟩ := Option.map_eq_some_iff.mp hSecond
    obtain rfl : offset = other := hEq
    have hKeys := h left.1 right.1 left.2 right.2 offset
      (Std.ExtTreeMap.mem_toList_iff_getElem?_eq_some.mp hLeft)
      (Std.ExtTreeMap.mem_toList_iff_getElem?_eq_some.mp hRight) hOffset hOther
    exact hNe (Std.compare_eq_iff_eq.mpr hKeys)
  have hSorted : (outbox.stream shardId target).Pairwise fun left right => left.1 ≤ right.1 :=
    List.pairwise_insertionSort _ _
  exact (hSorted.and hDistinct).imp fun hBoth => lt_of_le_of_ne hBoth.1 hBoth.2

/-! ## What a checkpoint says -/

/-- The entries of the stream are acknowledged up to this offset, which is the offset of one of
them, and no further. -/
structure Reached (outbox : MetadataOutbox) (shardId : DataIndividualShardId) (target : IptoInstanceId)
    (offset : Nat) : Prop where
  entry : ∃ entry, outbox.InStream shardId target offset entry
  acknowledged : ∀ other entry, outbox.InStream shardId target other entry → other ≤ offset →
    entry.status = .acknowledged
  next : ∀ other entry, outbox.InStream shardId target other entry → offset < other →
    (∀ third found, outbox.InStream shardId target third found → offset < third → other ≤ third) →
      entry.status ≠ .acknowledged

/-- The stream has no entry, or its first entry is not acknowledged. -/
def Unreached (outbox : MetadataOutbox) (shardId : DataIndividualShardId) (target : IptoInstanceId) : Prop :=
  (∀ offset entry, ¬outbox.InStream shardId target offset entry) ∨
    ∃ offset entry, outbox.InStream shardId target offset entry ∧
      (∀ other found, outbox.InStream shardId target other found → offset ≤ other) ∧
      entry.status ≠ .acknowledged

theorem acknowledgedCheckpoint_eq_some (h : outbox.DistinctOffsets) {segmentId : SegmentId}
    {epoch : CheckpointEpoch} {checkpoint : MetadataOutboxCheckpoint}
    (hSome : outbox.acknowledgedCheckpoint shardId target segmentId epoch = some checkpoint) :
    outbox.Reached shardId target checkpoint.lastAcknowledgedOffset := by
  obtain ⟨⟨offset, entry⟩, hLast, rfl⟩ := Option.map_eq_some_iff.mp hSome
  obtain ⟨hMem, hBelow, hNext⟩ := lastLeading_eq_some (stream_sorted h) hLast
  refine ⟨⟨entry, mem_stream.mp hMem⟩, fun other found hFound hLe => ?_, fun other found hFound hLt hLeast => ?_⟩
  · exact of_decide_eq_true (hBelow (other, found) (mem_stream.mpr hFound) hLe)
  · have hFails := hNext (other, found) (mem_stream.mpr hFound) hLt fun third hThird hAbove =>
      hLeast third.1 third.2 (mem_stream.mp hThird) hAbove
    exact fun hStatus => hFails (decide_eq_true hStatus)

theorem acknowledgedCheckpoint_eq_none (h : outbox.DistinctOffsets) {segmentId : SegmentId}
    {epoch : CheckpointEpoch} :
    outbox.acknowledgedCheckpoint shardId target segmentId epoch = none ↔
      outbox.Unreached shardId target := by
  rw [acknowledgedCheckpoint, Option.map_eq_none_iff, lastLeading_eq_none (stream_sorted h), Unreached]
  refine or_congr ?_ ?_
  · rw [List.eq_nil_iff_forall_not_mem]
    exact ⟨fun hNone offset entry hEntry => hNone (offset, entry) (mem_stream.mpr hEntry),
      fun hNone row hRow => hNone row.1 row.2 (mem_stream.mp hRow)⟩
  · constructor
    · rintro ⟨⟨offset, entry⟩, hFirst, hLeast, hFails⟩
      refine ⟨offset, entry, mem_stream.mp hFirst, fun other found hFound => ?_, ?_⟩
      · exact hLeast (other, found) (mem_stream.mpr hFound)
      · exact fun hStatus => hFails (decide_eq_true hStatus)
    · rintro ⟨offset, entry, hFirst, hLeast, hStatus⟩
      refine ⟨(offset, entry), mem_stream.mpr hFirst, fun row hRow => ?_, ?_⟩
      · exact hLeast row.1 row.2 (mem_stream.mp hRow)
      · exact fun hPasses => hStatus (of_decide_eq_true hPasses)

/-! ## The checkpoints of a target -/

theorem acknowledgedCheckpoint_fields {segmentId : SegmentId} {epoch : CheckpointEpoch}
    {checkpoint : MetadataOutboxCheckpoint}
    (h : outbox.acknowledgedCheckpoint shardId target segmentId epoch = some checkpoint) :
    checkpoint.dataIndividualShardId = shardId ∧ checkpoint.target = target ∧
      checkpoint.segmentId = segmentId ∧ checkpoint.epoch = epoch := by
  obtain ⟨row, -, rfl⟩ := Option.map_eq_some_iff.mp h
  exact ⟨rfl, rfl, rfl, rfl⟩

theorem exists_of_mem_checkpointsForTarget {segmentId : SegmentId} {epoch : CheckpointEpoch}
    {checkpoint : MetadataOutboxCheckpoint}
    (h : checkpoint ∈ outbox.acknowledgedCheckpointsForTarget target segmentId epoch) :
    outbox.acknowledgedCheckpoint checkpoint.dataIndividualShardId target segmentId epoch = some checkpoint := by
  obtain ⟨shardId, -, hSome⟩ := List.mem_filterMap.mp h
  rw [(acknowledgedCheckpoint_fields hSome).1]
  exact hSome

/-- There is at most one checkpoint of each shard. -/
theorem checkpointsForTarget_shards (outbox : MetadataOutbox) (target : IptoInstanceId) (segmentId : SegmentId)
    (epoch : CheckpointEpoch) :
    ((outbox.acknowledgedCheckpointsForTarget target segmentId epoch).map
      MetadataOutboxCheckpoint.dataIndividualShardId).Nodup := by
  rw [acknowledgedCheckpointsForTarget, List.Nodup, List.pairwise_map, List.pairwise_filterMap]
  refine Std.ExtTreeSet.distinct_toList.imp fun {left right} hNe => ?_
  intro first hFirst second hSecond hEq
  rw [(acknowledgedCheckpoint_fields hFirst).1, (acknowledgedCheckpoint_fields hSecond).1] at hEq
  exact hNe (Std.compare_eq_iff_eq.mpr hEq)

end MetadataOutbox

end Vannak.Ipto
