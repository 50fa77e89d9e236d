import Vannak.Foundation.Sweep
import Vannak.Process.Queries

/-!
# Shard-local runtime

`ShardLocalRuntime` of `runtime.rs`, one hot index per logical shard. An event goes to the shard of its process
instance. Queries about one instance ask its shard; the others ask the shards in order and merge what they return.
-/

namespace Vannak.Runtime

open Foundation Process

set_option autoImplicit false

inductive RuntimeError where
  | noShards
  | queueCapacityZero
  | queueFull (shardId capacity : Nat)
  | invalidShard (shardId : Nat)
  | ingest (error : IngestError)
deriving DecidableEq, Repr

structure ShardIngestOutcome where
  shardId : Nat
  outcome : IngestOutcome
deriving DecidableEq, Repr

def shardForProcessInstance (processInstanceId : ProcessInstanceId) (shardCount : Nat) : Nat :=
  (fnv1a (utf8Bytes processInstanceId.asStr)).toNat % shardCount

/-- `new` refuses to build a runtime without shards. -/
structure ShardLocalRuntime where
  shards : List HotIndex
  shards_pos : 0 < shards.length

namespace ShardLocalRuntime

def new (shardCount : Nat) : Except RuntimeError ShardLocalRuntime :=
  if h : shardCount = 0 then .error .noShards
  else .ok ⟨(List.range shardCount).map fun _ => HotIndex.new, by
    rw [List.length_map, List.length_range]
    exact Nat.pos_of_ne_zero h⟩

def shardFor (runtime : ShardLocalRuntime) (processInstanceId : ProcessInstanceId) : Fin runtime.shards.length :=
  ⟨shardForProcessInstance processInstanceId runtime.shards.length, Nat.mod_lt _ runtime.shards_pos⟩

def ingest (runtime : ShardLocalRuntime) (event : PipelineEvent) :
    Except RuntimeError ShardIngestOutcome × ShardLocalRuntime :=
  let shardId := runtime.shardFor event.processInstanceId
  let (result, shard) := (runtime.shards.get shardId).ingest event
  let next : ShardLocalRuntime := ⟨runtime.shards.set shardId shard, by
    rw [List.length_set]
    exact runtime.shards_pos⟩
  match result with
  | .error error => (.error (.ingest error), next)
  | .ok outcome => (.ok ⟨shardId, outcome⟩, next)

def processInstance (runtime : ShardLocalRuntime) (processInstanceId : ProcessInstanceId) :
    Option ProcessInstanceSnapshot :=
  (runtime.shards.get (runtime.shardFor processInstanceId)).processInstance processInstanceId

def events (runtime : ShardLocalRuntime) (query : EventQuery) : List PipelineEvent :=
  (runtime.shards.get (runtime.shardFor query.processInstanceId)).events query

def pipelineInstances (runtime : ShardLocalRuntime) (query : PipelineQuery) : List ProcessInstanceSnapshot :=
  gather query.limit.value
    (fun shard remaining => shard.pipelineInstances ⟨query.pipelineId, QueryLimit.new remaining⟩) [] runtime.shards

def impact (runtime : ShardLocalRuntime) (query : ImpactQuery) : List PipelineEvent :=
  gather query.limit.value (fun shard remaining => shard.impact ⟨query.metadataRef, QueryLimit.new remaining⟩) []
    runtime.shards

def processInstancesByStatus (runtime : ShardLocalRuntime) (query : ProcessStatusQuery) :
    List ProcessInstanceSnapshot :=
  gather query.limit.value
    (fun shard remaining => shard.processInstancesByStatus ⟨query.status, QueryLimit.new remaining⟩) []
    runtime.shards

/-- The order of `sort_by` on the timestamps. -/
def notLater (left right : PipelineEvent) : Bool := left.timestamp.asStr ≤ right.timestamp.asStr

def eventsInTimeRange (runtime : ShardLocalRuntime) (query : TimeRangeQuery) : List PipelineEvent :=
  let events := gather query.limit.value
    (fun shard remaining => shard.eventsInTimeRange ⟨query.start, query.stop, QueryLimit.new remaining⟩) []
    runtime.shards
  (events.mergeSort notLater).take query.limit.value

def affectedPipelines (runtime : ShardLocalRuntime) (metadataRef : MetadataRef) : List PipelineId :=
  let pipelines : Std.ExtTreeSet PipelineId := runtime.shards.foldl
    (fun pipelines shard => (shard.affectedPipelines metadataRef).foldl
      (fun pipelines pipeline => pipelines.insert pipeline) pipelines) ∅
  pipelines.toList

/-! ## Routing -/

def onLogicalShard (shardCount shard : Nat) (events : List PipelineEvent) : List PipelineEvent :=
  events.filter fun event => shardForProcessInstance event.processInstanceId shardCount = shard

theorem onLogicalShard_append (shardCount shard : Nat) (first second : List PipelineEvent) :
    onLogicalShard shardCount shard (first ++ second) =
      onLogicalShard shardCount shard first ++ onLogicalShard shardCount shard second := List.filter_append ..

theorem onLogicalShard_singleton (shardCount shard : Nat) (event : PipelineEvent) :
    onLogicalShard shardCount shard [event] =
      if shardForProcessInstance event.processInstanceId shardCount = shard then [event] else [] := by
  simp [onLogicalShard, List.filter_singleton]

/-- Each shard has ingested the events of its process instances, in order. -/
def Routes (runtime : ShardLocalRuntime) (shardCount : Nat) (events : List PipelineEvent) : Prop :=
  runtime.shards = (List.range shardCount).map fun shard =>
    HotIndex.new.ingestAll (onLogicalShard shardCount shard events)

variable {runtime : ShardLocalRuntime} {shardCount : Nat} {events : List PipelineEvent}

theorem Routes.length_shards (h : runtime.Routes shardCount events) : runtime.shards.length = shardCount := by
  rw [h, List.length_map, List.length_range]

theorem Routes.shard_eq (h : runtime.Routes shardCount events) (id : ProcessInstanceId) :
    runtime.shards.get (runtime.shardFor id) =
      HotIndex.new.ingestAll (onLogicalShard shardCount (shardForProcessInstance id shardCount) events) := by
  have hShard : (runtime.shardFor id : Nat) = shardForProcessInstance id shardCount :=
    congrArg (shardForProcessInstance id) h.length_shards
  have hGet : runtime.shards[(runtime.shardFor id : Nat)]? =
      some (HotIndex.new.ingestAll (onLogicalShard shardCount (shardForProcessInstance id shardCount) events)) := by
    have hLt : shardForProcessInstance id shardCount < shardCount := by
      rw [← h.length_shards]
      exact Nat.mod_lt _ runtime.shards_pos
    rw [hShard, h, List.getElem?_map, List.getElem?_range hLt]
    rfl
  exact (List.getElem?_eq_some_iff.mp hGet).2

theorem ingestAll_onLogicalShard_concat (shardCount shard : Nat) (events : List PipelineEvent)
    (event : PipelineEvent) :
    HotIndex.new.ingestAll (onLogicalShard shardCount shard (events ++ [event])) =
      if shardForProcessInstance event.processInstanceId shardCount = shard then
        ((HotIndex.new.ingestAll (onLogicalShard shardCount shard events)).ingest event).2
      else HotIndex.new.ingestAll (onLogicalShard shardCount shard events) := by
  rw [onLogicalShard_append, onLogicalShard_singleton]
  split
  · exact HotIndex.ingestAll_concat ..
  · rw [List.append_nil]

theorem shards_ingest (runtime : ShardLocalRuntime) (event : PipelineEvent) :
    (runtime.ingest event).2.shards = runtime.shards.set (runtime.shardFor event.processInstanceId)
      ((runtime.shards.get (runtime.shardFor event.processInstanceId)).ingest event).2 := by
  rw [ingest]
  generalize (runtime.shards.get (runtime.shardFor event.processInstanceId)).ingest event = result
  obtain ⟨error | outcome, shard⟩ := result
  · rfl
  · rfl

theorem Routes.ingest (h : runtime.Routes shardCount events) (event : PipelineEvent) :
    (runtime.ingest event).2.Routes shardCount (events ++ [event]) := by
  have hShard : (runtime.shardFor event.processInstanceId : Nat) =
      shardForProcessInstance event.processInstanceId shardCount :=
    congrArg (shardForProcessInstance event.processInstanceId) h.length_shards
  have hLt : shardForProcessInstance event.processInstanceId shardCount < shardCount := by
    rw [← hShard, ← h.length_shards]
    exact (runtime.shardFor event.processInstanceId).2
  rw [Routes, shards_ingest, h.shard_eq, hShard]
  refine List.ext_getElem? fun shard => ?_
  rw [List.getElem?_set, List.getElem?_map, h.length_shards]
  by_cases hSame : shardForProcessInstance event.processInstanceId shardCount = shard
  · subst hSame
    rw [if_pos rfl, if_pos hLt, List.getElem?_range hLt, Option.map_some, ingestAll_onLogicalShard_concat, if_pos rfl]
  · rw [if_neg hSame, h, List.getElem?_map]
    simp only [ingestAll_onLogicalShard_concat]
    by_cases hRange : shard < shardCount
    · rw [List.getElem?_range hRange]
      simp only [Option.map_some, if_neg hSame]
    · rw [List.getElem?_eq_none (by simpa using hRange)]
      rfl

theorem routes_new (h : ShardLocalRuntime.new shardCount = .ok runtime) : runtime.Routes shardCount [] := by
  rw [new] at h
  split at h
  · cases h
  · cases h
    rfl

theorem exists_new (h : 0 < shardCount) : ∃ runtime, new shardCount = .ok runtime := by
  rw [new, dif_neg h.ne']
  exact ⟨_, rfl⟩

/-- Every run leaves each shard with its own events. -/
theorem routes_run (h : runtime.Routes shardCount []) (events : List PipelineEvent) :
    (run ShardLocalRuntime.ingest runtime events).2.Routes shardCount events := by
  induction events using List.reverseRecOn with
  | nil => exact h
  | append_singleton events event ih =>
    rw [run_concat]
    exact ih.ingest event

end ShardLocalRuntime

end Vannak.Runtime
