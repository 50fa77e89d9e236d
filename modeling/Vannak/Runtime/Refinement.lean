import Vannak.Runtime.ShardLocal

/-!
# The sharded runtime and one index

If an event id belongs to one process instance, a shard accepts what one index for everything would accept of the
shard's events. So each shard indexes its part of the accepted log, and the merged answers are those of the whole.
-/

namespace Vannak.Runtime

open Foundation Process
open ShardLocalRuntime (onLogicalShard)

set_option autoImplicit false

/-- Events with the same id concern the same process instance. -/
def IdsFixInstances (events : List PipelineEvent) : Prop :=
  ∀ left ∈ events, ∀ right ∈ events, left.eventId = right.eventId →
    left.processInstanceId = right.processInstanceId

/-- The queries have the same answers. Where the order of the shards shows, the answers have the same items
if the limit leaves none out. -/
structure AnswersAlike (runtime : ShardLocalRuntime) (index : HotIndex) : Prop where
  processInstance : ∀ id, runtime.processInstance id = index.processInstance id
  events : ∀ query, runtime.events query = index.events query
  affectedPipelines : ∀ metadataRef, runtime.affectedPipelines metadataRef = index.affectedPipelines metadataRef
  pipelineInstances : ∀ query : PipelineQuery,
    (index.matchingInstances fun snapshot => snapshot.pipelineId = query.pipelineId).length ≤ query.limit.value →
    (runtime.pipelineInstances query).Perm (index.pipelineInstances query)
  processInstancesByStatus : ∀ query : ProcessStatusQuery,
    (index.matchingInstances fun snapshot => snapshot.status = query.status).length ≤ query.limit.value →
    (runtime.processInstancesByStatus query).Perm (index.processInstancesByStatus query)
  impact : ∀ query : ImpactQuery, (index.mentioningEvents query.metadataRef).length ≤ query.limit.value →
    (runtime.impact query).Perm (index.impact query)

variable {shardCount : Nat} {events log : List PipelineEvent} {index : HotIndex} {runtime : ShardLocalRuntime}

/-! ## Parts of the log -/

theorem IdsFixInstances.of_concat {event : PipelineEvent} (h : IdsFixInstances (events ++ [event])) :
    IdsFixInstances events := fun left hLeft right hRight =>
  h left (List.mem_append_left _ hLeft) right (List.mem_append_left _ hRight)

theorem acceptedLog_onLogicalShard (h : IdsFixInstances events) (shard : Nat) :
    acceptedLog (onLogicalShard shardCount shard events) = onLogicalShard shardCount shard (acceptedLog events) :=
  acceptedLog_filter fun left hLeft right hRight hId => by rw [h left hLeft right hRight hId]

theorem indexes_onLogicalShard (h : IdsFixInstances events) (shard : Nat) :
    (HotIndex.new.ingestAll (onLogicalShard shardCount shard events)).Indexes
      (onLogicalShard shardCount shard (acceptedLog events)) := by
  rw [← acceptedLog_onLogicalShard h]
  exact HotIndex.indexes_ingestAll _

/-- The event's shard knows its id if any shard does. -/
theorem eventId_mem_onLogicalShard_iff {event : PipelineEvent} (h : IdsFixInstances (events ++ [event])) :
    event.eventId ∈ (onLogicalShard shardCount (shardForProcessInstance event.processInstanceId shardCount)
        (acceptedLog events)).map PipelineEvent.eventId ↔
      event.eventId ∈ (acceptedLog events).map PipelineEvent.eventId := by
  rw [List.mem_map, List.mem_map]
  constructor
  · rintro ⟨other, hOther, hId⟩
    exact ⟨other, List.mem_of_mem_filter hOther, hId⟩
  · rintro ⟨other, hOther, hId⟩
    have hInstance := h other (List.mem_append_left _ (mem_of_mem_acceptedLog hOther)) event (by simp) hId
    refine ⟨other, List.mem_filter.mpr ⟨hOther, ?_⟩, hId⟩
    rw [hInstance]
    exact decide_eq_true rfl

theorem filter_onLogicalShard (id : ProcessInstanceId) (log : List PipelineEvent) :
    ((onLogicalShard shardCount (shardForProcessInstance id shardCount) log).filter fun event =>
      event.processInstanceId = id) = log.filter fun event => event.processInstanceId = id := by
  rw [onLogicalShard, List.filter_filter]
  refine List.filter_congr fun event _ => ?_
  by_cases hId : event.processInstanceId = id
  · simp [hId]
  · simp [hId]

theorem filter_onLogicalShard_of_ne {id : ProcessInstanceId} {shard : Nat}
    (h : shardForProcessInstance id shardCount ≠ shard) (log : List PipelineEvent) :
    ((onLogicalShard shardCount shard log).filter fun event => event.processInstanceId = id) = [] := by
  rw [List.filter_eq_nil_iff]
  intro event hEvent hId
  have hShard := of_decide_eq_true (List.mem_filter.mp hEvent).2
  rw [of_decide_eq_true hId] at hShard
  exact h hShard

theorem perm_flatMap_onLogicalShard (h : 0 < shardCount) (log : List PipelineEvent) :
    ((List.range shardCount).flatMap fun shard => onLogicalShard shardCount shard log).Perm log :=
  perm_flatMap_range fun _ _ => Nat.mod_lt _ h

theorem perm_mentions (h : 0 < shardCount) (metadataRef : MetadataRef) (log : List PipelineEvent) :
    ((List.range shardCount).flatMap fun shard => mentions metadataRef (onLogicalShard shardCount shard log)).Perm
      (mentions metadataRef log) := by
  have hPerm := (perm_flatMap_onLogicalShard h log).flatMap_right
    fun event => List.replicate (event.metadataRefs.count metadataRef) event
  rwa [List.flatMap_assoc] at hPerm

/-- The instances of a shard are the instances of the whole that are placed there. -/
theorem toList_processInstances (h : index.Indexes log) {shard : Nat} {part : HotIndex}
    (hPart : part.Indexes (onLogicalShard shardCount shard log)) :
    part.processInstances.toList =
      index.processInstances.toList.filter fun binding => shardForProcessInstance binding.1 shardCount = shard := by
  refine toList_eq_of_mem_iff (Std.ExtTreeMap.ordered_keys_toList.filter _) fun id state => ?_
  rw [List.mem_filter, Std.ExtTreeMap.mem_toList_iff_getElem?_eq_some, hPart.instances, h.instances,
    decide_eq_true_iff]
  by_cases hShard : shardForProcessInstance id shardCount = shard
  · subst hShard
    rw [filter_onLogicalShard, and_iff_left rfl]
  · rw [filter_onLogicalShard_of_ne hShard]
    simp [reduceEvents, hShard]

theorem perm_matchingInstances (h : index.Indexes log) (hCount : 0 < shardCount) {parts : Nat → HotIndex}
    (hParts : ∀ shard, (parts shard).Indexes (onLogicalShard shardCount shard log))
    (selected : ProcessInstanceSnapshot → Bool) :
    ((List.range shardCount).flatMap fun shard => (parts shard).matchingInstances selected).Perm
      (index.matchingInstances selected) := by
  have hPlaced : ((List.range shardCount).flatMap fun shard => (parts shard).processInstances.toList).Perm
      index.processInstances.toList := by
    simp only [fun shard => toList_processInstances h (hParts shard)]
    exact perm_flatMap_range fun _ _ => Nat.mod_lt _ hCount
  have hPerm := (hPlaced.map Prod.snd).filterMap (HotIndex.snapshotIf selected)
  rwa [List.map_flatMap, List.filterMap_flatMap] at hPerm

theorem mem_affectedPipelines (index : HotIndex) (metadataRef : MetadataRef) (pipeline : PipelineId) :
    pipeline ∈ index.affectedPipelines metadataRef ↔
      pipeline ∈ (index.mentioningEvents metadataRef).map PipelineEvent.pipelineId := by
  rw [HotIndex.affectedPipelines_eq, Std.ExtTreeSet.mem_toList]
  refine (mem_foldl_insert _ _ _).trans ?_
  simp

/-! ## Answers -/

theorem selectInstances_gather {limit : QueryLimit} (selected : ProcessInstanceSnapshot → Bool)
    (shards : List HotIndex) :
    gather limit.value (fun shard remaining => shard.selectInstances (QueryLimit.new remaining) selected) [] shards =
      (shards.flatMap fun shard => shard.matchingInstances selected).take limit.value := by
  refine gather_eq_take (fun shard _ remaining hRemaining => ?_) (Nat.zero_le _)
  rw [HotIndex.selectInstances_eq, QueryLimit.value_new hRemaining]

theorem answersAlike_of_routes (hRoutes : runtime.Routes shardCount events) (hIds : IdsFixInstances events)
    (hIndex : index.Indexes (acceptedLog events)) : AnswersAlike runtime index := by
  have hCount : 0 < shardCount := hRoutes.length_shards ▸ runtime.shards_pos
  have hParts : ∀ shard, (HotIndex.new.ingestAll (onLogicalShard shardCount shard events)).Indexes
      (onLogicalShard shardCount shard (acceptedLog events)) := indexes_onLogicalShard hIds
  have hShards : ∀ shard ∈ runtime.shards, ∃ part, shard.Indexes part := by
    intro shard hShard
    rw [hRoutes] at hShard
    obtain ⟨number, -, rfl⟩ := List.mem_map.mp hShard
    exact ⟨_, hParts number⟩
  have hSelect : ∀ (limit : QueryLimit) (selected : ProcessInstanceSnapshot → Bool),
      (index.matchingInstances selected).length ≤ limit.value →
      (gather limit.value (fun shard remaining => shard.selectInstances (QueryLimit.new remaining) selected) []
        runtime.shards).Perm (index.selectInstances limit selected) := by
    intro limit selected hLimit
    rw [selectInstances_gather, HotIndex.selectInstances_eq, hRoutes, List.flatMap_map]
    exact perm_take (perm_matchingInstances hIndex hCount hParts selected) hLimit
  have hMentions : ∀ metadataRef,
      (runtime.shards.flatMap fun shard => shard.mentioningEvents metadataRef).Perm
        (index.mentioningEvents metadataRef) := by
    intro metadataRef
    rw [hRoutes, List.flatMap_map, hIndex.mentioningEvents_eq]
    simp only [fun shard => (hParts shard).mentioningEvents_eq metadataRef]
    exact perm_mentions hCount metadataRef _
  refine ⟨fun id => ?_, fun query => ?_, fun metadataRef => ?_, fun query hLimit => ?_, fun query hLimit => ?_,
    fun query hLimit => ?_⟩
  · rw [ShardLocalRuntime.processInstance, hRoutes.shard_eq, (hParts _).processInstance_eq,
      hIndex.processInstance_eq, filter_onLogicalShard]
  · rw [ShardLocalRuntime.events, hRoutes.shard_eq, (hParts _).events_eq, hIndex.events_eq, filter_onLogicalShard]
  · have hMem : ∀ pipeline, pipeline ∈ (runtime.shards.flatMap fun shard => shard.affectedPipelines metadataRef) ↔
        pipeline ∈ (index.mentioningEvents metadataRef).map PipelineEvent.pipelineId := by
      intro pipeline
      rw [← ((hMentions metadataRef).map PipelineEvent.pipelineId).mem_iff, List.map_flatMap, List.mem_flatMap,
        List.mem_flatMap]
      simp only [mem_affectedPipelines]
    rw [HotIndex.affectedPipelines_eq, ShardLocalRuntime.affectedPipelines, ← List.foldl_flatMap]
    refine congrArg Std.ExtTreeSet.toList (Std.ExtTreeSet.ext_mem fun pipeline => ?_)
    exact (mem_foldl_insert _ _ _).trans ((or_congr_left (hMem pipeline)).trans (mem_foldl_insert _ _ _).symm)
  · exact hSelect query.limit _ hLimit
  · exact hSelect query.limit _ hLimit
  · have hAsk : ∀ shard ∈ runtime.shards, ∀ remaining, 0 < remaining →
        shard.impact ⟨query.metadataRef, QueryLimit.new remaining⟩ =
          (shard.mentioningEvents query.metadataRef).take remaining := by
      intro shard hShard remaining hRemaining
      obtain ⟨part, hPart⟩ := hShards shard hShard
      rw [hPart.impact_eq, hPart.mentioningEvents_eq, QueryLimit.value_new hRemaining]
    rw [ShardLocalRuntime.impact, gather_eq_take hAsk (Nat.zero_le _), List.nil_append, hIndex.impact_eq,
      ← hIndex.mentioningEvents_eq]
    exact perm_take (hMentions query.metadataRef) hLimit

/-! ## Outcomes -/

/-- The result of the shard, with its number. -/
def withShardId (shardId : Nat) : Except IngestError IngestOutcome → Except RuntimeError ShardIngestOutcome
  | .error error => .error (.ingest error)
  | .ok outcome => .ok ⟨shardId, outcome⟩

theorem ShardLocalRuntime.Routes.outcome (h : runtime.Routes shardCount events) (event : PipelineEvent) :
    (runtime.ingest event).1 = withShardId (shardForProcessInstance event.processInstanceId shardCount)
      ((HotIndex.new.ingestAll (onLogicalShard shardCount
        (shardForProcessInstance event.processInstanceId shardCount) events)).ingest event).1 := by
  have hShard : (runtime.shardFor event.processInstanceId : Nat) =
      shardForProcessInstance event.processInstanceId shardCount :=
    congrArg (shardForProcessInstance event.processInstanceId) h.length_shards
  rw [ShardLocalRuntime.ingest, h.shard_eq]
  generalize (HotIndex.new.ingestAll _).ingest event = result
  obtain ⟨error | outcome, shard⟩ := result
  · rfl
  · simp only [hShard]
    rfl

/-- With ids that fix the instance, the shard reports what one index reports. -/
theorem outcome_onLogicalShard {event : PipelineEvent} (h : IdsFixInstances (events ++ [event])) :
    ((HotIndex.new.ingestAll (onLogicalShard shardCount
      (shardForProcessInstance event.processInstanceId shardCount) events)).ingest event).1 =
      ((HotIndex.new.ingestAll events).ingest event).1 := by
  rw [(indexes_onLogicalShard h.of_concat _).outcome, (HotIndex.indexes_ingestAll events).outcome]
  simp only [eventId_mem_onLogicalShard_iff h]

theorem history_run (hRoutes : runtime.Routes shardCount []) (hIds : IdsFixInstances events) :
    (run ShardLocalRuntime.ingest runtime events).1 =
      (run HotIndex.ingest HotIndex.new events).1.map fun entry =>
        (entry.1, withShardId (shardForProcessInstance entry.1.processInstanceId shardCount) entry.2) := by
  induction events using List.reverseRecOn with
  | nil => rfl
  | append_singleton events event ih =>
    have hIndex : (run HotIndex.ingest HotIndex.new events).2 = HotIndex.new.ingestAll events := run_snd ..
    rw [run_concat, run_concat, List.map_append, ih hIds.of_concat,
      (ShardLocalRuntime.routes_run hRoutes events).outcome, outcome_onLogicalShard hIds, hIndex]
    rfl

/-- Whatever the number of shards, each event has the outcome that one index gives it, and the queries then have
the same answers. -/
theorem shardLocalRuntime_refines_hotIndex {shardCount : Nat} {events : List PipelineEvent} (hCount : 1 ≤ shardCount)
    (hIds : IdsFixInstances events) :
    ∃ runtime, ShardLocalRuntime.new shardCount = .ok runtime ∧
      (run ShardLocalRuntime.ingest runtime events).1 =
        (run HotIndex.ingest HotIndex.new events).1.map (fun entry =>
          (entry.1, withShardId (shardForProcessInstance entry.1.processInstanceId shardCount) entry.2)) ∧
      AnswersAlike (run ShardLocalRuntime.ingest runtime events).2 (run HotIndex.ingest HotIndex.new events).2 := by
  obtain ⟨runtime, hNew⟩ := ShardLocalRuntime.exists_new hCount
  have hRoutes := ShardLocalRuntime.routes_new hNew
  refine ⟨runtime, hNew, history_run hRoutes hIds, ?_⟩
  have hIndex : (run HotIndex.ingest HotIndex.new events).2 = HotIndex.new.ingestAll events := run_snd ..
  rw [hIndex]
  exact answersAlike_of_routes (ShardLocalRuntime.routes_run hRoutes events) hIds (HotIndex.indexes_ingestAll events)

instance (events : List PipelineEvent) : Decidable (IdsFixInstances events) :=
  inferInstanceAs (Decidable (∀ left ∈ events, ∀ right ∈ events, _))

def startedEvent (eventId processInstanceId : String) : PipelineEvent :=
  .new ⟨eventId⟩ ⟨"durga"⟩ 1 ⟨"tenant-a"⟩ ⟨"prod"⟩ ⟨"pipeline-a"⟩ ⟨"definition-a"⟩ ⟨processInstanceId⟩
    ⟨"2026-06-30T10:00:00Z"⟩ .processStarted

/-- Two instances, one event of them delivered twice. -/
def redelivered : List PipelineEvent :=
  [startedEvent "event-1" "instance-a", startedEvent "event-2" "instance-b", startedEvent "event-1" "instance-a"]

theorem shardLocalRuntime_refines_hotIndex_redelivered :
    ∃ runtime, ShardLocalRuntime.new 4 = .ok runtime ∧
      (run ShardLocalRuntime.ingest runtime redelivered).1 =
        (run HotIndex.ingest HotIndex.new redelivered).1.map (fun entry =>
          (entry.1, withShardId (shardForProcessInstance entry.1.processInstanceId 4) entry.2)) ∧
      AnswersAlike (run ShardLocalRuntime.ingest runtime redelivered).2
        (run HotIndex.ingest HotIndex.new redelivered).2 :=
  shardLocalRuntime_refines_hotIndex (by decide) (by decide +kernel)

end Vannak.Runtime
