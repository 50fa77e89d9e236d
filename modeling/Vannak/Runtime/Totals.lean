import Vannak.Foundation.Tally
import Vannak.Runtime.Refinement
import Vannak.Runtime.TimeRange

/-!
# Counts of the shards

`HotIndexSnapshot` of `observability.rs` and the totals over the shards. Events, instances and the two counters have
one shard each, so that their sums are the counts of one index. A pipeline or a metadata reference is counted by
every shard that has it.
-/

namespace Vannak.Process

open Foundation

set_option autoImplicit false

structure HotIndexSnapshot where
  processInstanceCount : Nat
  eventCount : Nat
  pipelineCount : Nat
  metadataRefCount : Nat
  duplicateEvents : Nat
  rejectedEvents : Nat
deriving DecidableEq, Repr

namespace HotIndex

def snapshot (index : HotIndex) : HotIndexSnapshot where
  processInstanceCount := index.processInstances.size
  eventCount := index.eventsById.size
  pipelineCount := index.eventsByPipeline.size
  metadataRefCount := index.eventsByMetadataRef.size
  duplicateEvents := index.duplicateEvents
  rejectedEvents := index.rejectedEvents

/-! ## The counts, from what was ingested -/

def isValid (event : PipelineEvent) : Bool := event.validate = .ok ()

/-- The counts of an index are those of its log, and of what was not accepted. -/
structure Counts (index : HotIndex) (ingested : List PipelineEvent) : Prop where
  pipelines : ∀ id, id ∈ index.eventsByPipeline ↔ id ∈ (acceptedLog ingested).map PipelineEvent.pipelineId
  metadataRefs : ∀ metadataRef, metadataRef ∈ index.eventsByMetadataRef ↔
    metadataRef ∈ (acceptedLog ingested).flatMap PipelineEvent.metadataRefs
  duplicates : index.duplicateEvents + (acceptedLog ingested).length = ingested.countP isValid
  rejected : index.rejectedEvents = ingested.countP fun event => !isValid event

theorem key_mem_pushId {α : Type} [Ord α] [Std.TransOrd α] [Std.LawfulEqOrd α] {map : BTreeMap α (List EventId)}
    {key other : α} {id : EventId} : other ∈ pushId map key id ↔ other ∈ map ∨ other = key := by
  rw [pushId, Std.ExtTreeMap.mem_insert, Std.compare_eq_iff_eq, or_comm, eq_comm (a := key)]

theorem key_mem_foldl_pushId {refs : List MetadataRef} {map : BTreeMap MetadataRef (List EventId)} {id : EventId}
    {metadataRef : MetadataRef} :
    metadataRef ∈ refs.foldl (fun map ref => pushId map ref id) map ↔ metadataRef ∈ map ∨ metadataRef ∈ refs := by
  induction refs generalizing map with
  | nil => simp
  | cons ref refs ih => rw [List.foldl_cons, ih, key_mem_pushId, List.mem_cons, or_assoc]

theorem counts_ingestAll (ingested : List PipelineEvent) : (new.ingestAll ingested).Counts ingested := by
  induction ingested using List.reverseRecOn with
  | nil => exact ⟨by simp [new, ingestAll, acceptedLog], by simp [new, ingestAll, acceptedLog], rfl, rfl⟩
  | append_singleton ingested event ih =>
    have hIndexes := indexes_ingestAll ingested
    have hLog : acceptedLog (ingested ++ [event]) = acceptInto (acceptedLog ingested) event := List.foldl_concat ..
    rw [ingestAll_concat]
    rcases (new.ingestAll ingested).ingest_cases event with
      ⟨error, hError, hIngest⟩ | ⟨hValid, hKnown, hIngest⟩ | ⟨hValid, hFresh, hIngest⟩
    · have hInvalid : isValid event = false := by simp [isValid, hError]
      rw [acceptInto_of_error hError] at hLog
      rw [hIngest]
      exact ⟨by rw [hLog]; exact ih.pipelines, by rw [hLog]; exact ih.metadataRefs,
        by simp [hLog, hInvalid, ih.duplicates], by simp [hInvalid, ih.rejected]⟩
    · have hIsValid : isValid event = true := decide_eq_true hValid
      have hDuplicates := ih.duplicates
      rw [hIndexes.acceptInto_of_known hKnown] at hLog
      rw [hIngest]
      refine ⟨by rw [hLog]; exact ih.pipelines, by rw [hLog]; exact ih.metadataRefs, ?_,
        by simp [hIsValid, ih.rejected]⟩
      simp only [hLog, List.countP_append, List.countP_singleton, hIsValid, if_true]
      omega
    · have hIsValid : isValid event = true := decide_eq_true hValid
      have hDuplicates := ih.duplicates
      rw [hIndexes.acceptInto_of_fresh hValid hFresh] at hLog
      rw [hIngest]
      refine ⟨fun id => ?_, fun metadataRef => ?_, ?_, by simp [accept, hIsValid, ih.rejected]⟩
      · rw [accept, key_mem_pushId, ih.pipelines, hLog, List.map_append, List.mem_append, List.map_singleton,
          List.mem_singleton]
      · rw [accept, key_mem_foldl_pushId, ih.metadataRefs, hLog, List.flatMap_append, List.mem_append,
          List.flatMap_singleton]
      · simp only [accept, hLog, List.length_append, List.length_singleton, List.countP_append,
          List.countP_singleton, hIsValid, if_true]
        omega

end HotIndex

end Vannak.Process

namespace Vannak.Runtime

open Foundation Process
open ShardLocalRuntime (onLogicalShard)

set_option autoImplicit false

structure ShardSnapshot where
  shardId : Nat
  hotIndex : HotIndexSnapshot
deriving DecidableEq, Repr

structure ShardRuntimeSnapshot where
  shards : List ShardSnapshot
  totals : HotIndexSnapshot
deriving DecidableEq, Repr

def totalsOf (shards : List ShardSnapshot) : HotIndexSnapshot where
  processInstanceCount := (shards.map fun shard => shard.hotIndex.processInstanceCount).sum
  eventCount := (shards.map fun shard => shard.hotIndex.eventCount).sum
  pipelineCount := (shards.map fun shard => shard.hotIndex.pipelineCount).sum
  metadataRefCount := (shards.map fun shard => shard.hotIndex.metadataRefCount).sum
  duplicateEvents := (shards.map fun shard => shard.hotIndex.duplicateEvents).sum
  rejectedEvents := (shards.map fun shard => shard.hotIndex.rejectedEvents).sum

/-- The common part of `snapshot` and `runtime_snapshot`. -/
def ShardRuntimeSnapshot.ofSnapshots (snapshots : List HotIndexSnapshot) : ShardRuntimeSnapshot :=
  let shards := snapshots.zipIdx.map fun snapshot => ⟨snapshot.2, snapshot.1⟩
  ⟨shards, totalsOf shards⟩

def ShardLocalRuntime.snapshot (runtime : ShardLocalRuntime) : ShardRuntimeSnapshot :=
  .ofSnapshots (runtime.shards.map HotIndex.snapshot)

def SitasShardRuntime.runtimeSnapshot {config : SitasRuntimeConfig} (mapAll : MapAll config HotIndexSnapshot)
    (runtime : SitasShardRuntime config) : ShardRuntimeSnapshot :=
  .ofSnapshots (runtime.mapHotIndexes mapAll HotIndex.snapshot)

/-- `ProcessIndex`, the process events of the service. -/
inductive ProcessIndex (config : SitasRuntimeConfig) where
  | localIndex (index : HotIndex)
  | sitasIndex (runtime : SitasShardRuntime config)

def ProcessIndex.snapshot {config : SitasRuntimeConfig} (mapAll : SitasShardRuntime.MapAll config HotIndexSnapshot) :
    ProcessIndex config → HotIndexSnapshot
  | localIndex index => index.snapshot
  | sitasIndex runtime => (runtime.runtimeSnapshot mapAll).totals

/-! ## Counts of a part -/

/-- The counts of one index. -/
def countsOf (ingested : List PipelineEvent) : HotIndexSnapshot where
  processInstanceCount := distinct ((acceptedLog ingested).flatMap fun event => [event.processInstanceId])
  eventCount := (acceptedLog ingested).length
  pipelineCount := distinct ((acceptedLog ingested).flatMap fun event => [event.pipelineId])
  metadataRefCount := distinct ((acceptedLog ingested).flatMap PipelineEvent.metadataRefs)
  duplicateEvents := ingested.countP HotIndex.isValid - (acceptedLog ingested).length
  rejectedEvents := ingested.countP fun event => !HotIndex.isValid event

theorem snapshot_ingestAll (ingested : List PipelineEvent) :
    (HotIndex.new.ingestAll ingested).snapshot = countsOf ingested := by
  have hIndexes := HotIndex.indexes_ingestAll ingested
  have hCounts := HotIndex.counts_ingestAll ingested
  have hInstances : ∀ id, id ∈ (HotIndex.new.ingestAll ingested).processInstances ↔
      id ∈ (acceptedLog ingested).flatMap fun event => [event.processInstanceId] := by
    intro id
    rw [Std.ExtTreeMap.mem_iff_isSome_getElem?, hIndexes.instances, Option.isSome_iff_ne_none, ne_eq,
      reduceEvents_eq_none_iff, ← List.map_eq_flatMap]
    exact mem_instanceIds.symm.trans (by simp [instanceIds])
  have hEvents : (HotIndex.new.ingestAll ingested).eventsById.size = (acceptedLog ingested).length := by
    rw [size_eq_distinct hIndexes.mem_eventsById_iff, distinct_eq_length hIndexes.distinct, List.length_map]
  have hPipelines : ∀ id, id ∈ (HotIndex.new.ingestAll ingested).eventsByPipeline ↔
      id ∈ (acceptedLog ingested).flatMap fun event => [event.pipelineId] := by
    intro id
    rw [hCounts.pipelines, ← List.map_eq_flatMap]
  have hDuplicates := hCounts.duplicates
  rw [HotIndex.snapshot, countsOf, size_eq_distinct hInstances, hEvents, size_eq_distinct hPipelines,
    size_eq_distinct hCounts.metadataRefs, hCounts.rejected, ← hDuplicates,
    Nat.add_sub_cancel]

/-- The totals when every shard has ingested its part. -/
def totalCounts (shardCount : Nat) (ingested : List PipelineEvent) : HotIndexSnapshot :=
  (ShardRuntimeSnapshot.ofSnapshots ((List.range shardCount).map fun shard =>
    countsOf (onLogicalShard shardCount shard ingested))).totals

theorem sum_ofSnapshots (snapshots : List HotIndexSnapshot) (field : HotIndexSnapshot → Nat) :
    (((snapshots.zipIdx.map fun snapshot => ShardSnapshot.mk snapshot.2 snapshot.1).map fun shard =>
      field shard.hotIndex)).sum = (snapshots.map field).sum := by
  have hFirst : snapshots.zipIdx.map Prod.fst = snapshots := List.zipIdx_map_fst 0 snapshots
  conv_rhs => rw [← hFirst]
  rw [List.map_map, List.map_map]
  rfl

theorem totals_ofSnapshots (snapshots : List HotIndexSnapshot) :
    (ShardRuntimeSnapshot.ofSnapshots snapshots).totals =
      ⟨(snapshots.map HotIndexSnapshot.processInstanceCount).sum, (snapshots.map HotIndexSnapshot.eventCount).sum,
        (snapshots.map HotIndexSnapshot.pipelineCount).sum, (snapshots.map HotIndexSnapshot.metadataRefCount).sum,
        (snapshots.map HotIndexSnapshot.duplicateEvents).sum,
        (snapshots.map HotIndexSnapshot.rejectedEvents).sum⟩ := by
  simp only [ShardRuntimeSnapshot.ofSnapshots, totalsOf, sum_ofSnapshots]

theorem ShardLocalRuntime.Routes.snapshot_totals {runtime : ShardLocalRuntime} {shardCount : Nat}
    {ingested : List PipelineEvent} (h : runtime.Routes shardCount ingested) :
    runtime.snapshot.totals = totalCounts shardCount ingested := by
  rw [ShardLocalRuntime.snapshot, h, List.map_map, totalCounts]
  simp only [Function.comp_def, snapshot_ingestAll]

theorem SitasShardRuntime.runtimeSnapshot_totals {config : SitasRuntimeConfig}
    {mapAll : MapAll config HotIndexSnapshot} (hMapAll : InShardOrder mapAll) (ingested : List PipelineEvent) :
    ((run SitasShardRuntime.ingest (start config) ingested).2.runtimeSnapshot mapAll).totals =
      totalCounts config.shardCount ingested := by
  rw [runtimeSnapshot, mapHotIndexes, hMapAll, List.map_map, totalCounts, ← List.map_coe_finRange_eq_range,
    List.map_map]
  simp only [Function.comp_def, hotIndex_run, snapshot_ingestAll]

/-! ## Which sums are right -/

/-- Events that share a pipeline or a metadata reference are placed on one shard. -/
def SharedOnOneShard (shardCount : Nat) (log : List PipelineEvent) : Prop :=
  ∀ left ∈ log, ∀ right ∈ log,
    (left.pipelineId = right.pipelineId ∨ ∃ metadataRef ∈ left.metadataRefs, metadataRef ∈ right.metadataRefs) →
      shardForProcessInstance left.processInstanceId shardCount =
        shardForProcessInstance right.processInstanceId shardCount

instance (shardCount : Nat) (log : List PipelineEvent) : Decidable (SharedOnOneShard shardCount log) :=
  inferInstanceAs (Decidable (∀ left ∈ log, ∀ right ∈ log, _ → _ = _))

def shardOf (shardCount : Nat) (event : PipelineEvent) : Nat :=
  shardForProcessInstance event.processInstanceId shardCount

theorem sharedOnOneShard_iff {shardCount : Nat} {log : List PipelineEvent} :
    SharedOnOneShard shardCount log ↔ Apart (shardOf shardCount) (fun event => [event.pipelineId]) log ∧
      Apart (shardOf shardCount) PipelineEvent.metadataRefs log := by
  constructor
  · intro h
    refine ⟨fun left hLeft right hRight key hKey hOther => ?_, fun left hLeft right hRight key hKey hOther => ?_⟩
    · rw [List.mem_singleton] at hKey hOther
      exact h left hLeft right hRight (.inl (hKey.symm.trans hOther))
    · exact h left hLeft right hRight (.inr ⟨key, hKey, hOther⟩)
  · rintro ⟨hPipelines, hRefs⟩ left hLeft right hRight (hSame | ⟨metadataRef, hKey, hOther⟩)
    · exact hPipelines left hLeft right hRight _ (List.mem_singleton_self _) (List.mem_singleton.mpr hSame)
    · exact hRefs left hLeft right hRight metadataRef hKey hOther

theorem length_acceptedLog_le (ingested : List PipelineEvent) :
    (acceptedLog ingested).length ≤ ingested.countP HotIndex.isValid := by
  rw [← (HotIndex.counts_ingestAll ingested).duplicates]
  exact Nat.le_add_left _ _

theorem totalCounts_eq_iff {shardCount : Nat} (hCount : 0 < shardCount) {ingested : List PipelineEvent}
    (hIds : IdsFixInstances ingested) :
    totalCounts shardCount ingested = countsOf ingested ↔ SharedOnOneShard shardCount (acceptedLog ingested) := by
  have hPlaces : ∀ events : List PipelineEvent, ∀ event ∈ events, shardOf shardCount event < shardCount :=
    fun _ _ _ => Nat.mod_lt _ hCount
  have hParts : ∀ shard, acceptedLog (itemsAt (shardOf shardCount) shard ingested) =
      itemsAt (shardOf shardCount) shard (acceptedLog ingested) := fun shard => acceptedLog_onLogicalShard hIds shard
  have hInstances : Apart (shardOf shardCount) (fun event => [event.processInstanceId]) (acceptedLog ingested) := by
    intro left _ right _ key hLeft hRight
    rw [List.mem_singleton] at hLeft hRight
    rw [shardOf, shardOf, ← hLeft, hRight]
  have hValid := sum_countP_itemsAt (shardOf shardCount) (hPlaces ingested) HotIndex.isValid
  have hAccepted := sum_length_itemsAt (shardOf shardCount) (hPlaces (acceptedLog ingested))
  have hDuplicates : ((List.range shardCount).map fun shard =>
      (itemsAt (shardOf shardCount) shard ingested).countP HotIndex.isValid -
        (itemsAt (shardOf shardCount) shard (acceptedLog ingested)).length).sum =
      ingested.countP HotIndex.isValid - (acceptedLog ingested).length := by
    have hSplit : ∀ shard, (itemsAt (shardOf shardCount) shard ingested).countP HotIndex.isValid =
        ((itemsAt (shardOf shardCount) shard ingested).countP HotIndex.isValid -
          (itemsAt (shardOf shardCount) shard (acceptedLog ingested)).length) +
        (itemsAt (shardOf shardCount) shard (acceptedLog ingested)).length := by
      intro shard
      rw [← hParts]
      exact (Nat.sub_add_cancel (length_acceptedLog_le _)).symm
    rw [← hValid, ← hAccepted]
    conv_rhs => rw [funext hSplit, List.sum_map_add, Nat.add_sub_cancel]
  have hPart : ∀ shard, onLogicalShard shardCount shard ingested = itemsAt (shardOf shardCount) shard ingested :=
    fun _ => rfl
  rw [totalCounts, totals_ofSnapshots, sharedOnOneShard_iff]
  simp only [List.map_map, Function.comp_def, countsOf, hPart, hParts, HotIndexSnapshot.mk.injEq, hDuplicates,
    hAccepted, sum_countP_itemsAt (shardOf shardCount) (hPlaces ingested), and_true, true_and,
    sum_distinct_eq_iff (shardOf shardCount) _ (hPlaces (acceptedLog ingested)), hInstances]

/-- The totals of both runtimes, and what the service reports of its shards, are the counts of one index exactly
when no pipeline and no metadata reference is found on two shards. -/
theorem snapshot_totals_eq_iff {config : SitasRuntimeConfig} {runtime : ShardLocalRuntime}
    {mapAll : SitasShardRuntime.MapAll config HotIndexSnapshot} {ingested : List PipelineEvent}
    (hNew : ShardLocalRuntime.new config.shardCount = .ok runtime) (hMapAll : SitasShardRuntime.InShardOrder mapAll)
    (hIds : IdsFixInstances ingested) :
    let single := (HotIndex.new.ingestAll ingested).snapshot
    let sitas := (run SitasShardRuntime.ingest (.start config) ingested).2
    ((run ShardLocalRuntime.ingest runtime ingested).2.snapshot.totals = single ∧
      (sitas.runtimeSnapshot mapAll).totals = single ∧
      (ProcessIndex.sitasIndex sitas).snapshot mapAll = single) ↔
    SharedOnOneShard config.shardCount (acceptedLog ingested) := by
  intro single sitas
  have hShards : (run ShardLocalRuntime.ingest runtime ingested).2.snapshot.totals =
      totalCounts config.shardCount ingested :=
    (ShardLocalRuntime.routes_run (ShardLocalRuntime.routes_new hNew) ingested).snapshot_totals
  have hSitas : (sitas.runtimeSnapshot mapAll).totals = totalCounts config.shardCount ingested :=
    SitasShardRuntime.runtimeSnapshot_totals hMapAll ingested
  have hSingle : single = countsOf ingested := snapshot_ingestAll ingested
  rw [ProcessIndex.snapshot, hShards, hSitas, hSingle, and_self, and_self]
  exact totalCounts_eq_iff config.shardCount_pos hIds

def mapSnapshotsInOrder : SitasShardRuntime.MapAll twoShards HotIndexSnapshot :=
  fun output => (List.finRange 2).map fun shard => (shard, output shard)

/-- The events of one instance, on one shard. -/
def oneInstance : List PipelineEvent :=
  [startedAt "instance-a" "2026-06-30T10:00:00Z",
    { startedAt "instance-a" "2026-06-30T10:00:01Z" with eventId := ⟨"completed-a"⟩, kind := .processCompleted }]

theorem snapshot_totals_eq_iff_oneInstance :
    ∃ runtime, ShardLocalRuntime.new 2 = .ok runtime ∧
      (run ShardLocalRuntime.ingest runtime oneInstance).2.snapshot.totals =
        (HotIndex.new.ingestAll oneInstance).snapshot := by
  obtain ⟨runtime, hNew⟩ := ShardLocalRuntime.exists_new (by decide : 0 < 2)
  have hInOrder : SitasShardRuntime.InShardOrder mapSnapshotsInOrder := fun _ => rfl
  exact ⟨runtime, hNew, ((snapshot_totals_eq_iff hNew hInOrder (by decide +kernel)).mpr (by decide +kernel)).1⟩

/-- Two instances of one pipeline on two shards: two pipelines. -/
theorem pipeline_counted_on_each_shard :
    ∃ runtime, ShardLocalRuntime.new 2 = .ok runtime ∧ IdsFixInstances outOfOrder ∧
      (run ShardLocalRuntime.ingest runtime outOfOrder).2.snapshot.totals.pipelineCount = 2 ∧
      ((run SitasShardRuntime.ingest (.start twoShards) outOfOrder).2.runtimeSnapshot
        mapSnapshotsInOrder).totals.pipelineCount = 2 ∧
      (HotIndex.new.ingestAll outOfOrder).snapshot.pipelineCount = 1 := by
  obtain ⟨runtime, hNew⟩ := ShardLocalRuntime.exists_new (by decide : 0 < 2)
  have hRoutes := ShardLocalRuntime.routes_run (ShardLocalRuntime.routes_new hNew) outOfOrder
  refine ⟨runtime, hNew, by decide +kernel, ?_, by decide +kernel, by decide +kernel⟩
  rw [hRoutes.snapshot_totals]
  decide +kernel

end Vannak.Runtime
