import Vannak.Foundation.Earliest
import Vannak.Process.Scans
import Vannak.Runtime.ShardLocal
import Vannak.Runtime.Sitas

/-!
# Time ranges over shards

`events_in_time_range` of the two runtimes. `SitasShardRuntime` asks every shard for the first events of its own and
sorts. `ShardLocalRuntime` asks one shard after another for as many as are still missing, so that early events of a
late shard are left out before it sorts.
-/

namespace Vannak.Runtime

open Foundation Process
open ShardLocalRuntime (onLogicalShard ingestAll_onLogicalShard_concat notLater routes_new routes_run)

set_option autoImplicit false

namespace SitasShardRuntime

variable {config : SitasRuntimeConfig}

/-- `map_all` of the `sitas` crate on the outputs of an operation on the shards. -/
abbrev MapAll (config : SitasRuntimeConfig) (β : Type) : Type :=
  (Fin config.shardCount → β) → List (Fin config.shardCount × β)

/-- What `runtime_snapshot` counts on: every shard answers, in the order of the shards. -/
def InShardOrder {β : Type} (mapAll : MapAll config β) : Prop :=
  ∀ output, mapAll output = (List.finRange config.shardCount).map fun shard => (shard, output shard)

def mapHotIndexes {β : Type} (mapAll : MapAll config β) (runtime : SitasShardRuntime config)
    (operation : HotIndex → β) : List β :=
  (mapAll fun shard => operation (runtime.hotIndex shard)).map Prod.snd

def eventsInTimeRange (mapAll : MapAll config (List PipelineEvent)) (runtime : SitasShardRuntime config)
    (query : TimeRangeQuery) : List PipelineEvent :=
  let events := (runtime.mapHotIndexes mapAll fun index => index.eventsInTimeRange query).flatten
  (events.mergeSort notLater).take query.limit.value

end SitasShardRuntime

/-! ## What the shards accepted -/

/-- The events of a shard in the range, as it accepted them. -/
def shardInRange (shardCount : Nat) (ingested : List PipelineEvent) (query : TimeRangeQuery) (shard : Nat) :
    List PipelineEvent :=
  (acceptedLog (onLogicalShard shardCount shard ingested)).filter fun event => query.contains event.timestamp

/-- All of them, in the order of the shards. -/
def inRange (shardCount : Nat) (ingested : List PipelineEvent) (query : TimeRangeQuery) : List PipelineEvent :=
  (List.range shardCount).flatMap (shardInRange shardCount ingested query)

/-- The earliest events in the range, as many as the limit allows. -/
def earliestInRange (shardCount : Nat) (ingested : List PipelineEvent) (query : TimeRangeQuery) :
    List PipelineEvent :=
  (sortByKey timeKey (inRange shardCount ingested query)).take query.limit.value

/-- The events in the range in the order of the shards, those of a shard by time. -/
def inRangeByShard (shardCount : Nat) (ingested : List PipelineEvent) (query : TimeRangeQuery) :
    List PipelineEvent :=
  (List.range shardCount).flatMap fun shard => sortByKey timeKey (shardInRange shardCount ingested query shard)

theorem sortByKey_inRangeByShard (shardCount : Nat) (ingested : List PipelineEvent) (query : TimeRangeQuery) :
    sortByKey timeKey (inRangeByShard shardCount ingested query) =
      sortByKey timeKey (inRange shardCount ingested query) :=
  sortByKey_flatMap_sortByKey timeKey (List.range shardCount) (shardInRange shardCount ingested query)

theorem mergeSort_notLater (events : List PipelineEvent) : events.mergeSort notLater = sortByKey timeKey events :=
  mergeSort_eq_sortByKey timeKey events

theorem eventsInTimeRange_ingestAll (shardCount : Nat) (ingested : List PipelineEvent) (query : TimeRangeQuery)
    (shard : Nat) :
    (HotIndex.new.ingestAll (onLogicalShard shardCount shard ingested)).eventsInTimeRange query =
      (sortByKey timeKey (shardInRange shardCount ingested query shard)).take query.limit.value :=
  HotIndex.eventsInTimeRange_eq (HotIndex.filesTimes_ingestAll _) (HotIndex.indexes_ingestAll _) query

/-! ## One shard after another -/

/-- The limit is reached before sorting. -/
theorem ShardLocalRuntime.Routes.eventsInTimeRange_eq {runtime : ShardLocalRuntime} {shardCount : Nat}
    {ingested : List PipelineEvent} (h : runtime.Routes shardCount ingested) (query : TimeRangeQuery) :
    runtime.eventsInTimeRange query =
      sortByKey timeKey ((inRangeByShard shardCount ingested query).take query.limit.value) := by
  have hGather : gather query.limit.value
      (fun shard remaining => shard.eventsInTimeRange ⟨query.start, query.stop, QueryLimit.new remaining⟩) []
      runtime.shards = (inRangeByShard shardCount ingested query).take query.limit.value := by
    rw [h, gather_map]
    refine gather_eq_take (fun shard _ remaining hRemaining => ?_) (Nat.zero_le _)
    rw [eventsInTimeRange_ingestAll, QueryLimit.value_new hRemaining]
    rfl
  rw [ShardLocalRuntime.eventsInTimeRange, hGather, mergeSort_notLater]
  refine List.take_of_length_le ?_
  rw [length_sortByKey, List.length_take]
  exact min_le_left _ _

/-! ## Every shard with the whole limit -/

namespace SitasShardRuntime

variable {config : SitasRuntimeConfig}

theorem hotIndex_run (config : SitasRuntimeConfig) (ingested : List PipelineEvent)
    (shard : Fin config.shardCount) :
    (run SitasShardRuntime.ingest (start config) ingested).2.hotIndex shard =
      HotIndex.new.ingestAll (onLogicalShard config.shardCount shard ingested) := by
  induction ingested using List.reverseRecOn generalizing shard with
  | nil => rfl
  | append_singleton ingested event ih =>
    rw [run_concat, ingestAll_onLogicalShard_concat, ingest, hotIndex_ingestOn, ih, ih]
    have hSame : shardFor config event.processInstanceId = shard ↔
        shardForProcessInstance event.processInstanceId config.shardCount = shard := Fin.ext_iff
    by_cases hShard : shardFor config event.processInstanceId = shard
    · rw [if_pos hShard, if_pos (hSame.mp hShard), hShard]
    · rw [if_neg hShard, if_neg fun hOwner => hShard (hSame.mpr hOwner)]

/-- What `SitasShardRuntime` answers is always the earliest. -/
theorem eventsInTimeRange_run {mapAll : MapAll config (List PipelineEvent)} (hMapAll : InShardOrder mapAll)
    (ingested : List PipelineEvent) (query : TimeRangeQuery) :
    (run SitasShardRuntime.ingest (start config) ingested).2.eventsInTimeRange mapAll query =
      earliestInRange config.shardCount ingested query := by
  have hFanout : (mapHotIndexes mapAll (run SitasShardRuntime.ingest (start config) ingested).2
      fun index => index.eventsInTimeRange query).flatten = (List.range config.shardCount).flatMap fun shard =>
        (sortByKey timeKey (shardInRange config.shardCount ingested query shard)).take query.limit.value := by
    rw [mapHotIndexes, hMapAll, List.map_map, ← List.map_coe_finRange_eq_range, List.flatMap_map, List.flatMap_def]
    simp only [Function.comp_def, hotIndex_run, eventsInTimeRange_ingestAll]
  rw [eventsInTimeRange, hFanout, mergeSort_notLater, earliestInRange, ← sortByKey_inRangeByShard]
  exact take_sortByKey_groups timeKey query.limit.value (List.range config.shardCount)
    (fun shard => sortByKey_sorted timeKey _) []

end SitasShardRuntime

/-- `ShardLocalRuntime` answers with the earliest events, as `SitasShardRuntime` does, exactly when no event that the
limit cuts off in the order of the shards is earlier than one that it keeps. -/
theorem eventsInTimeRange_earliest_iff {config : SitasRuntimeConfig} {runtime : ShardLocalRuntime}
    {mapAll : SitasShardRuntime.MapAll config (List PipelineEvent)}
    (hNew : ShardLocalRuntime.new config.shardCount = .ok runtime) (hMapAll : SitasShardRuntime.InShardOrder mapAll)
    (ingested : List PipelineEvent) (query : TimeRangeQuery) :
    let shards := (run ShardLocalRuntime.ingest runtime ingested).2
    let sitas := (run SitasShardRuntime.ingest (.start config) ingested).2
    let events := inRangeByShard config.shardCount ingested query
    (shards.eventsInTimeRange query = earliestInRange config.shardCount ingested query ∧
      shards.eventsInTimeRange query = sitas.eventsInTimeRange mapAll query) ↔
    ∀ kept ∈ events.take query.limit.value, ∀ cut ∈ events.drop query.limit.value,
      kept.timestamp.asStr ≤ cut.timestamp.asStr := by
  intro shards sitas events
  have hShards : shards.eventsInTimeRange query = sortByKey timeKey (events.take query.limit.value) :=
    (routes_run (routes_new hNew) ingested).eventsInTimeRange_eq query
  have hSitas : sitas.eventsInTimeRange mapAll query = earliestInRange config.shardCount ingested query :=
    SitasShardRuntime.eventsInTimeRange_run hMapAll ingested query
  rw [hSitas, and_self, hShards, earliestInRange, ← sortByKey_inRangeByShard]
  exact sortByKey_take_eq_iff timeKey query.limit.value events

def twoShards : SitasRuntimeConfig := ⟨2, 8, by decide, by decide⟩

def mapAllInOrder : SitasShardRuntime.MapAll twoShards (List PipelineEvent) :=
  fun output => (List.finRange 2).map fun shard => (shard, output shard)

theorem mapAllInOrder_inShardOrder : SitasShardRuntime.InShardOrder mapAllInOrder :=
  fun _ => rfl

def startedAt (processInstanceId timestamp : String) : PipelineEvent :=
  .new ⟨s!"started-{processInstanceId}"⟩ ⟨"durga"⟩ 1 ⟨"tenant-a"⟩ ⟨"prod"⟩ ⟨"pipeline-a"⟩ ⟨"definition-a"⟩
    ⟨processInstanceId⟩ ⟨timestamp⟩ .processStarted

/-- The instance of the first shard starts first. -/
def inOrder : List PipelineEvent :=
  [startedAt "instance-b" "2026-06-30T10:00:02Z", startedAt "instance-a" "2026-06-30T10:00:01Z"]

theorem eventsInTimeRange_earliest_iff_inOrder :
    ∃ runtime, ShardLocalRuntime.new 2 = .ok runtime ∧
      ((run ShardLocalRuntime.ingest runtime inOrder).2.eventsInTimeRange ⟨none, none, .new 1⟩ =
          earliestInRange 2 inOrder ⟨none, none, .new 1⟩ ∧
        (run ShardLocalRuntime.ingest runtime inOrder).2.eventsInTimeRange ⟨none, none, .new 1⟩ =
          (run SitasShardRuntime.ingest (.start twoShards) inOrder).2.eventsInTimeRange mapAllInOrder
            ⟨none, none, .new 1⟩) := by
  obtain ⟨runtime, hNew⟩ := ShardLocalRuntime.exists_new (by decide : 0 < 2)
  refine ⟨runtime, hNew, ?_⟩
  exact (eventsInTimeRange_earliest_iff hNew mapAllInOrder_inShardOrder inOrder
    ⟨none, none, .new 1⟩).mpr (by decide +kernel)

/-- The instance of the second shard starts first. -/
def outOfOrder : List PipelineEvent :=
  [startedAt "instance-a" "2026-06-30T10:00:02Z", startedAt "instance-b" "2026-06-30T10:00:01Z"]

/-- With room for one event, the later one is returned. -/
theorem later_event_of_first_shard_returned :
    ∃ runtime, ShardLocalRuntime.new 2 = .ok runtime ∧
      (run ShardLocalRuntime.ingest runtime outOfOrder).2.eventsInTimeRange ⟨none, none, .new 1⟩ =
        [startedAt "instance-a" "2026-06-30T10:00:02Z"] ∧
      (run SitasShardRuntime.ingest (.start twoShards) outOfOrder).2.eventsInTimeRange mapAllInOrder
        ⟨none, none, .new 1⟩ = [startedAt "instance-b" "2026-06-30T10:00:01Z"] ∧
      ¬∀ ingested query, (run ShardLocalRuntime.ingest runtime ingested).2.eventsInTimeRange query =
        earliestInRange 2 ingested query := by
  obtain ⟨runtime, hNew⟩ := ShardLocalRuntime.exists_new (by decide : 0 < 2)
  have hRoutes : (run ShardLocalRuntime.ingest runtime outOfOrder).2.Routes 2 outOfOrder :=
    routes_run (routes_new hNew) outOfOrder
  have hEarliest : earliestInRange 2 outOfOrder ⟨none, none, .new 1⟩ =
      [startedAt "instance-b" "2026-06-30T10:00:01Z"] := by decide +kernel
  have hReturned : (run ShardLocalRuntime.ingest runtime outOfOrder).2.eventsInTimeRange ⟨none, none, .new 1⟩ =
      [startedAt "instance-a" "2026-06-30T10:00:02Z"] := by
    rw [hRoutes.eventsInTimeRange_eq]
    decide +kernel
  refine ⟨runtime, hNew, hReturned, ?_, fun hAll => ?_⟩
  · rw [SitasShardRuntime.eventsInTimeRange_run mapAllInOrder_inShardOrder]
    exact hEarliest
  · have hSame := hAll outOfOrder ⟨none, none, .new 1⟩
    rw [hReturned, hEarliest] at hSame
    exact absurd hSame (by decide)

end Vannak.Runtime
