import Vannak.Runtime.Refinement
import Vannak.Runtime.TimeRange

/-!
# Fan-out queries

The queries of `sitas_runtime.rs` that ask all shards. Every shard answers with the whole limit and the answers are
cut afterwards, where `ShardLocalRuntime` asks each shard for what is still missing. Over the same shards the lists
are the same.
-/

namespace Vannak.Process

open Foundation

set_option autoImplicit false

namespace HotIndex

/-- What ingesting can lead to. -/
def Reached (index : HotIndex) : Prop := ∃ ingested, index = new.ingestAll ingested

variable {index : HotIndex}

theorem Reached.impact_eq (h : index.Reached) (query : ImpactQuery) :
    index.impact query = (index.mentioningEvents query.metadataRef).take query.limit.value := by
  obtain ⟨ingested, rfl⟩ := h
  have hIndexes := indexes_ingestAll ingested
  rw [hIndexes.impact_eq, hIndexes.mentioningEvents_eq]

theorem Reached.inRangeEvents_sorted (h : index.Reached) (query : TimeRangeQuery) :
    (index.inRangeEvents query).Pairwise fun left right => timeKey left ≤ timeKey right := by
  obtain ⟨ingested, rfl⟩ := h
  rw [inRangeEvents_eq (filesTimes_ingestAll ingested) (indexes_ingestAll ingested)]
  exact sortByKey_sorted timeKey _

theorem Reached.eventsInTimeRange_eq (h : index.Reached) (query : TimeRangeQuery) :
    index.eventsInTimeRange query = (index.inRangeEvents query).take query.limit.value := by
  obtain ⟨ingested, rfl⟩ := h
  have hTimes := filesTimes_ingestAll ingested
  have hIndexes := indexes_ingestAll ingested
  rw [HotIndex.eventsInTimeRange_eq hTimes hIndexes, inRangeEvents_eq hTimes hIndexes]

end HotIndex

end Vannak.Process

namespace Vannak.Runtime

open Foundation Process

set_option autoImplicit false

namespace SitasShardRuntime

variable {config : SitasRuntimeConfig}

def pipelineInstances (mapAll : MapAll config (List ProcessInstanceSnapshot)) (runtime : SitasShardRuntime config)
    (query : PipelineQuery) : List ProcessInstanceSnapshot :=
  fill query.limit.value [] (runtime.mapHotIndexes mapAll fun index => index.pipelineInstances query)

def impact (mapAll : MapAll config (List PipelineEvent)) (runtime : SitasShardRuntime config)
    (query : ImpactQuery) : List PipelineEvent :=
  fill query.limit.value [] (runtime.mapHotIndexes mapAll fun index => index.impact query)

def processInstancesByStatus (mapAll : MapAll config (List ProcessInstanceSnapshot))
    (runtime : SitasShardRuntime config) (query : ProcessStatusQuery) : List ProcessInstanceSnapshot :=
  fill query.limit.value [] (runtime.mapHotIndexes mapAll fun index => index.processInstancesByStatus query)

/-! ## Over the shards -/

/-- The shards in order. -/
def hotIndexes (runtime : SitasShardRuntime config) : List HotIndex :=
  (List.finRange config.shardCount).map runtime.hotIndex

/-- `ShardLocalRuntime` with the same shards. -/
def shardLocal (runtime : SitasShardRuntime config) : ShardLocalRuntime where
  shards := runtime.hotIndexes
  shards_pos := by
    rw [hotIndexes, List.length_map, List.length_finRange]
    exact config.shardCount_pos

theorem flatten_mapHotIndexes {β : Type} {mapAll : MapAll config (List β)} (hMapAll : InShardOrder mapAll)
    (runtime : SitasShardRuntime config) (operation : HotIndex → List β) :
    (runtime.mapHotIndexes mapAll operation).flatten = runtime.hotIndexes.flatMap operation := by
  rw [mapHotIndexes, hMapAll, List.map_map, hotIndexes, List.flatMap_map, List.flatMap_def]
  rfl

/-- Answers that are cut at the limit, and cut again, are the first of the full answers. -/
theorem fill_mapHotIndexes {β : Type} {mapAll : MapAll config (List β)} (hMapAll : InShardOrder mapAll)
    {runtime : SitasShardRuntime config} {limit : QueryLimit} {ask all : HotIndex → List β}
    (h : ∀ shard, ask (runtime.hotIndex shard) = (all (runtime.hotIndex shard)).take limit.value) :
    fill limit.value [] (runtime.mapHotIndexes mapAll ask) = (runtime.hotIndexes.flatMap all).take limit.value := by
  have hAsk : runtime.hotIndexes.flatMap ask =
      runtime.hotIndexes.flatMap fun index => (all index).take limit.value := by
    refine List.flatMap_congr fun index hIndex => ?_
    obtain ⟨shard, -, rfl⟩ := List.mem_map.mp hIndex
    exact h shard
  rw [fill_eq_take (Nat.zero_le _), List.nil_append, flatten_mapHotIndexes hMapAll, hAsk]
  exact take_flatMap_take (Nat.le_refl _) _ _

end SitasShardRuntime

theorem ShardLocalRuntime.impact_eq {runtime : ShardLocalRuntime} (h : ∀ shard ∈ runtime.shards, shard.Reached)
    (query : ImpactQuery) :
    runtime.impact query =
      (runtime.shards.flatMap fun shard => shard.mentioningEvents query.metadataRef).take query.limit.value := by
  refine gather_eq_take (fun shard hShard remaining hRemaining => ?_) (Nat.zero_le _)
  rw [(h shard hShard).impact_eq, QueryLimit.value_new hRemaining]

/-- Whatever the shards hold, nothing is lost by asking each for the limit only, and the two runtimes return the same
lists. -/
theorem fanout_merges_exact {config : SitasRuntimeConfig}
    {mapAll : ∀ β : Type, SitasShardRuntime.MapAll config β}
    (hMapAll : ∀ β, SitasShardRuntime.InShardOrder (mapAll β)) (runtime : SitasShardRuntime config)
    (hShards : ∀ shard, (runtime.hotIndex shard).Reached) :
    (∀ query : TimeRangeQuery, runtime.eventsInTimeRange (mapAll _) query =
      (sortByKey timeKey (runtime.hotIndexes.flatMap fun index => index.inRangeEvents query)).take
        query.limit.value) ∧
    (∀ query : PipelineQuery, runtime.pipelineInstances (mapAll _) query =
        (runtime.hotIndexes.flatMap fun index => index.matchingInstances fun snapshot =>
          snapshot.pipelineId = query.pipelineId).take query.limit.value ∧
      runtime.shardLocal.pipelineInstances query = runtime.pipelineInstances (mapAll _) query) ∧
    (∀ query : ImpactQuery, runtime.impact (mapAll _) query =
        (runtime.hotIndexes.flatMap fun index => index.mentioningEvents query.metadataRef).take query.limit.value ∧
      runtime.shardLocal.impact query = runtime.impact (mapAll _) query) ∧
    ∀ query : ProcessStatusQuery, runtime.processInstancesByStatus (mapAll _) query =
        (runtime.hotIndexes.flatMap fun index => index.matchingInstances fun snapshot =>
          snapshot.status = query.status).take query.limit.value ∧
      runtime.shardLocal.processInstancesByStatus query = runtime.processInstancesByStatus (mapAll _) query := by
  have hSelect : ∀ (limit : QueryLimit) (selected : ProcessInstanceSnapshot → Bool),
      fill limit.value [] (runtime.mapHotIndexes (mapAll _) fun index => index.selectInstances limit selected) =
        (runtime.hotIndexes.flatMap fun index => index.matchingInstances selected).take limit.value :=
    fun limit selected => SitasShardRuntime.fill_mapHotIndexes (hMapAll _) fun shard =>
      HotIndex.selectInstances_eq _ limit selected
  refine ⟨fun query => ?_, fun query => ?_, fun query => ?_, fun query => ?_⟩
  · have hSorted : ∀ shard, ((runtime.hotIndex shard).inRangeEvents query).Pairwise
        fun left right => timeKey left ≤ timeKey right := fun shard => (hShards shard).inRangeEvents_sorted query
    have hFanout := SitasShardRuntime.flatten_mapHotIndexes (hMapAll _) runtime fun index =>
      index.eventsInTimeRange query
    rw [SitasShardRuntime.eventsInTimeRange, hFanout, mergeSort_notLater, SitasShardRuntime.hotIndexes,
      List.flatMap_map, List.flatMap_map]
    simp only [fun shard => (hShards shard).eventsInTimeRange_eq query]
    exact take_sortByKey_groups timeKey query.limit.value (List.finRange config.shardCount) hSorted []
  · have hAnswer := hSelect query.limit fun snapshot => snapshot.pipelineId = query.pipelineId
    exact ⟨hAnswer, (selectInstances_gather _ _).trans hAnswer.symm⟩
  · have hReached : ∀ shard ∈ runtime.shardLocal.shards, shard.Reached := by
      intro index hIndex
      obtain ⟨shard, -, rfl⟩ := List.mem_map.mp hIndex
      exact hShards shard
    have hAnswer : runtime.impact (mapAll _) query =
        (runtime.hotIndexes.flatMap fun index => index.mentioningEvents query.metadataRef).take query.limit.value :=
      SitasShardRuntime.fill_mapHotIndexes (hMapAll _) fun shard => (hShards shard).impact_eq query
    exact ⟨hAnswer, (ShardLocalRuntime.impact_eq hReached query).trans hAnswer.symm⟩
  · have hAnswer := hSelect query.limit fun snapshot => snapshot.status = query.status
    exact ⟨hAnswer, (selectInstances_gather _ _).trans hAnswer.symm⟩

/-- Two shards, of which the second has the earlier event. -/
theorem fanout_merges_exact_outOfOrder :
    (∀ query : TimeRangeQuery,
      (run SitasShardRuntime.ingest (.start twoShards) outOfOrder).2.eventsInTimeRange mapAllInOrder query =
        (sortByKey timeKey ((run SitasShardRuntime.ingest (.start twoShards) outOfOrder).2.hotIndexes.flatMap
          fun index => index.inRangeEvents query)).take query.limit.value) ∧
    ∀ query : ImpactQuery,
      (run SitasShardRuntime.ingest (.start twoShards) outOfOrder).2.shardLocal.impact query =
        (run SitasShardRuntime.ingest (.start twoShards) outOfOrder).2.impact mapAllInOrder query := by
  obtain ⟨hTimes, -, hImpact, -⟩ := @fanout_merges_exact twoShards
    (fun _ output => (List.finRange 2).map fun shard => (shard, output shard)) (fun _ _ => rfl)
    (run SitasShardRuntime.ingest (.start twoShards) outOfOrder).2
    fun shard => ⟨_, SitasShardRuntime.hotIndex_run twoShards outOfOrder shard⟩
  exact ⟨hTimes, fun query => (hImpact query).2⟩

end Vannak.Runtime
