import Vannak.Runtime.Refinement

/-!
# Duplicates in the sharded runtime

An event id is looked up on the shard that owns the event's process instance and nowhere else. So an id is accepted
once per shard. The events that are accepted do not depend on the number of shards if ids fix the instance.
-/

namespace Vannak.Runtime

open Foundation Process
open ShardLocalRuntime (onLogicalShard onLogicalShard_append onLogicalShard_singleton)

set_option autoImplicit false

def acceptedEvent? : PipelineEvent × Except RuntimeError ShardIngestOutcome → Option PipelineEvent
  | (event, .ok ⟨_, .accepted⟩) => some event
  | _ => none

def acceptedEvents (history : List (PipelineEvent × Except RuntimeError ShardIngestOutcome)) : List PipelineEvent :=
  history.filterMap acceptedEvent?

/-- Every query has the same answer. -/
structure SameAnswers (left right : ShardLocalRuntime) : Prop where
  processInstance : ∀ id, left.processInstance id = right.processInstance id
  events : ∀ query, left.events query = right.events query
  pipelineInstances : ∀ query, left.pipelineInstances query = right.pipelineInstances query
  impact : ∀ query, left.impact query = right.impact query
  processInstancesByStatus : ∀ query, left.processInstancesByStatus query = right.processInstancesByStatus query
  eventsInTimeRange : ∀ query, left.eventsInTimeRange query = right.eventsInTimeRange query
  affectedPipelines : ∀ metadataRef, left.affectedPipelines metadataRef = right.affectedPipelines metadataRef

variable {shardCount : Nat} {events : List PipelineEvent} {runtime : ShardLocalRuntime}

/-! ## Counted duplicates -/

theorem gather_withoutDuplicates {α : Type} {ask : HotIndex → Nat → List α}
    (hAsk : ∀ index, ask index.withoutDuplicates = ask index) (limit : Nat) (shards : List HotIndex) :
    gather limit ask [] (shards.map HotIndex.withoutDuplicates) = gather limit ask [] shards := by
  rw [gather_map]
  simp only [hAsk]

theorem ask_withoutDuplicates {β : Type} (ask : HotIndex → β)
    (hAsk : ∀ index, ask index.withoutDuplicates = ask index) {left right : ShardLocalRuntime}
    (h : left.shards.map HotIndex.withoutDuplicates = right.shards.map HotIndex.withoutDuplicates)
    (id : ProcessInstanceId) :
    ask (left.shards.get (left.shardFor id)) = ask (right.shards.get (right.shardFor id)) := by
  have hRead : ∀ runtime : ShardLocalRuntime,
      ((runtime.shards.map HotIndex.withoutDuplicates)[shardForProcessInstance id
        (runtime.shards.map HotIndex.withoutDuplicates).length]?).map ask =
        some (ask (runtime.shards.get (runtime.shardFor id))) := by
    intro runtime
    have hGet : runtime.shards[shardForProcessInstance id runtime.shards.length]? =
        some (runtime.shards.get (runtime.shardFor id)) := List.getElem?_eq_getElem (runtime.shardFor id).2
    rw [List.length_map, List.getElem?_map, hGet, Option.map_some, Option.map_some, hAsk]
  have hLeft := hRead left
  rw [h, hRead right] at hLeft
  exact (Option.some.inj hLeft).symm

theorem sameAnswers_of_withoutDuplicates {left right : ShardLocalRuntime}
    (h : left.shards.map HotIndex.withoutDuplicates = right.shards.map HotIndex.withoutDuplicates) :
    SameAnswers left right := by
  have hGather : ∀ {α : Type} (ask : HotIndex → Nat → List α) (limit : Nat),
      (∀ index, ask index.withoutDuplicates = ask index) →
      gather limit ask [] left.shards = gather limit ask [] right.shards := by
    intro α ask limit hAsk
    rw [← gather_withoutDuplicates hAsk, h, gather_withoutDuplicates hAsk]
  refine ⟨fun id => ?_, fun query => ?_, fun query => ?_, fun query => ?_, fun query => ?_, fun query => ?_,
    fun metadataRef => ?_⟩
  · exact ask_withoutDuplicates (fun index => index.processInstance id) (fun _ => rfl) h id
  · exact ask_withoutDuplicates (fun index => index.events query) (fun _ => rfl) h query.processInstanceId
  · exact hGather _ _ fun _ => rfl
  · exact hGather _ _ fun _ => rfl
  · exact hGather _ _ fun _ => rfl
  · rw [ShardLocalRuntime.eventsInTimeRange, hGather _ _ fun _ => rfl]
    rfl
  · have hRead : ∀ runtime : ShardLocalRuntime, runtime.affectedPipelines metadataRef =
        ((runtime.shards.map HotIndex.withoutDuplicates).foldl
          (fun (pipelines : Std.ExtTreeSet PipelineId) shard => (shard.affectedPipelines metadataRef).foldl
            (fun pipelines pipeline => pipelines.insert pipeline) pipelines) ∅).toList := by
      intro runtime
      rw [List.foldl_map]
      rfl
    rw [hRead, h, ← hRead]

theorem withoutDuplicates_shards_ingest {event : PipelineEvent} (hValid : event.validate = .ok ())
    (hKnown : event.eventId ∈ (runtime.shards.get (runtime.shardFor event.processInstanceId)).eventsById) :
    (runtime.ingest event).2.shards.map HotIndex.withoutDuplicates =
      runtime.shards.map HotIndex.withoutDuplicates := by
  rw [ShardLocalRuntime.shards_ingest, List.map_set, HotIndex.withoutDuplicates_ingest_of_mem hValid hKnown]
  refine List.ext_getElem? fun number => ?_
  rw [List.getElem?_set]
  split
  · rename_i hNumber
    subst hNumber
    rw [List.getElem?_map, List.getElem?_eq_getElem (runtime.shardFor event.processInstanceId).2]
    simp
  · rfl

/-! ## Accepted events -/

theorem acceptedLog_concat (events : List PipelineEvent) (event : PipelineEvent) :
    acceptedLog (events ++ [event]) = acceptInto (acceptedLog events) event := List.foldl_concat ..

theorem acceptedEvents_run_concat (hRoutes : runtime.Routes shardCount []) (events : List PipelineEvent)
    (event : PipelineEvent) :
    acceptedEvents (run ShardLocalRuntime.ingest runtime (events ++ [event])).1 =
      acceptedEvents (run ShardLocalRuntime.ingest runtime events).1 ++
        if event.validate = .ok () ∧ event.eventId ∉ (acceptedLog (onLogicalShard shardCount
          (shardForProcessInstance event.processInstanceId shardCount) events)).map PipelineEvent.eventId
        then [event] else [] := by
  rw [run_concat, acceptedEvents, List.filterMap_append, (ShardLocalRuntime.routes_run hRoutes events).outcome,
    (HotIndex.indexes_ingestAll _).outcome, ← acceptedEvents]
  congr 1
  cases event.validate with
  | error error => simp [withShardId, Except.map, acceptedEvent?]
  | ok =>
    by_cases hKnown : event.eventId ∈ (acceptedLog (onLogicalShard shardCount
        (shardForProcessInstance event.processInstanceId shardCount) events)).map PipelineEvent.eventId
    · simp only [not_true_eq_false, and_false, if_false, hKnown]
      rfl
    · simp only [hKnown, not_false_eq_true, and_true, if_true]
      rfl

/-- The events that a shard has accepted. -/
theorem onLogicalShard_acceptedEvents (hRoutes : runtime.Routes shardCount []) (events : List PipelineEvent)
    (shard : Nat) :
    onLogicalShard shardCount shard (acceptedEvents (run ShardLocalRuntime.ingest runtime events).1) =
      acceptedLog (onLogicalShard shardCount shard events) := by
  induction events using List.reverseRecOn with
  | nil => rfl
  | append_singleton events event ih =>
    rw [acceptedEvents_run_concat hRoutes, onLogicalShard_append, ih, onLogicalShard_append, onLogicalShard_singleton]
    by_cases hShard : shardForProcessInstance event.processInstanceId shardCount = shard
    · subst hShard
      rw [if_pos rfl, acceptedLog_concat, acceptInto]
      split
      · rw [onLogicalShard_singleton, if_pos rfl]
      · exact List.append_nil _
    · rw [if_neg hShard, List.append_nil]
      split
      · rw [onLogicalShard_singleton, if_neg hShard, List.append_nil]
      · exact List.append_nil _

theorem acceptedEvents_run (hRoutes : runtime.Routes shardCount []) (hIds : IdsFixInstances events) :
    acceptedEvents (run ShardLocalRuntime.ingest runtime events).1 = acceptedLog events := by
  induction events using List.reverseRecOn with
  | nil => rfl
  | append_singleton events event ih =>
    rw [acceptedEvents_run_concat hRoutes, acceptedLog_concat, acceptInto, ih hIds.of_concat,
      acceptedLog_onLogicalShard hIds.of_concat]
    simp only [eventId_mem_onLogicalShard_iff hIds]
    split
    · rfl
    · exact List.append_nil _

/-- The accepted events are valid and have different ids, so that replaying them accepts them all. -/
theorem acceptedLog_acceptedLog (events : List PipelineEvent) :
    acceptedLog (acceptedLog events) = acceptedLog events := by
  induction events using List.reverseRecOn with
  | nil => rfl
  | append_singleton events event ih =>
    rw [acceptedLog_concat, acceptInto]
    split
    · rename_i hTaken
      rw [acceptedLog_concat, ih, acceptInto, if_pos hTaken]
    · exact ih

theorem ingest_eq_duplicate_iff (hRoutes : runtime.Routes shardCount []) (events : List PipelineEvent)
    {event : PipelineEvent} (hValid : event.validate = .ok ()) :
    ((run ShardLocalRuntime.ingest runtime events).2.ingest event).1 =
        .ok ⟨shardForProcessInstance event.processInstanceId shardCount, .duplicate⟩ ↔
      ∃ earlier ∈ acceptedEvents (run ShardLocalRuntime.ingest runtime events).1,
        earlier.eventId = event.eventId ∧ shardForProcessInstance earlier.processInstanceId shardCount =
          shardForProcessInstance event.processInstanceId shardCount := by
  rw [(ShardLocalRuntime.routes_run hRoutes events).outcome, (HotIndex.indexes_ingestAll _).outcome, hValid,
    ← onLogicalShard_acceptedEvents hRoutes]
  have hKnown : event.eventId ∈ (onLogicalShard shardCount
        (shardForProcessInstance event.processInstanceId shardCount)
        (acceptedEvents (run ShardLocalRuntime.ingest runtime events).1)).map PipelineEvent.eventId ↔
      ∃ earlier ∈ acceptedEvents (run ShardLocalRuntime.ingest runtime events).1,
        earlier.eventId = event.eventId ∧ shardForProcessInstance earlier.processInstanceId shardCount =
          shardForProcessInstance event.processInstanceId shardCount := by
    simp only [List.mem_map, onLogicalShard, List.mem_filter, decide_eq_true_iff]
    exact exists_congr fun earlier => by tauto
  rw [← hKnown]
  by_cases hMem : event.eventId ∈ (onLogicalShard shardCount
      (shardForProcessInstance event.processInstanceId shardCount)
      (acceptedEvents (run ShardLocalRuntime.ingest runtime events).1)).map PipelineEvent.eventId
  · simp [hMem, Except.map, withShardId]
  · simp [hMem, Except.map, withShardId]

theorem sameAnswers_of_duplicate (hRoutes : runtime.Routes shardCount []) {events : List PipelineEvent}
    {event : PipelineEvent} (hValid : event.validate = .ok ())
    (h : ((run ShardLocalRuntime.ingest runtime events).2.ingest event).1 =
      .ok ⟨shardForProcessInstance event.processInstanceId shardCount, .duplicate⟩) :
    SameAnswers ((run ShardLocalRuntime.ingest runtime events).2.ingest event).2
      (run ShardLocalRuntime.ingest runtime events).2 := by
  have hRun := ShardLocalRuntime.routes_run hRoutes events
  refine sameAnswers_of_withoutDuplicates (withoutDuplicates_shards_ingest hValid ?_)
  rw [hRun.shard_eq]
  have hOutcome : ((HotIndex.new.ingestAll (onLogicalShard shardCount
      (shardForProcessInstance event.processInstanceId shardCount) events)).ingest event).1 = .ok .duplicate := by
    rw [hRun.outcome] at h
    revert h
    generalize ((HotIndex.new.ingestAll _).ingest event).1 = result
    intro h
    cases result with
    | error error => cases h
    | ok outcome =>
      cases outcome with
      | accepted => cases h
      | duplicate => rfl
  exact ((HotIndex.ingest_eq_duplicate_iff _ event).mp hOutcome).2

/-- An id is accepted once per shard: a valid event is a duplicate if its own shard has accepted the id before, and
then it changes no answer. If ids fix the instance, what is accepted, and what replaying it rebuilds, is the same for
every number of shards. -/
theorem duplicates_are_shard_local {shardCount : Nat} (hCount : 1 ≤ shardCount) :
    ∃ runtime, ShardLocalRuntime.new shardCount = .ok runtime ∧
      (∀ events event, event.validate = .ok () →
        (((run ShardLocalRuntime.ingest runtime events).2.ingest event).1 =
            .ok ⟨shardForProcessInstance event.processInstanceId shardCount, .duplicate⟩ ↔
          ∃ earlier ∈ acceptedEvents (run ShardLocalRuntime.ingest runtime events).1,
            earlier.eventId = event.eventId ∧ shardForProcessInstance earlier.processInstanceId shardCount =
              shardForProcessInstance event.processInstanceId shardCount) ∧
        (((run ShardLocalRuntime.ingest runtime events).2.ingest event).1 =
            .ok ⟨shardForProcessInstance event.processInstanceId shardCount, .duplicate⟩ →
          SameAnswers ((run ShardLocalRuntime.ingest runtime events).2.ingest event).2
            (run ShardLocalRuntime.ingest runtime events).2)) ∧
      ∀ events, IdsFixInstances events → ∀ otherCount, 1 ≤ otherCount →
        ∃ other accepted, ShardLocalRuntime.new otherCount = .ok other ∧
          acceptedEvents (run ShardLocalRuntime.ingest runtime events).1 = accepted ∧
          acceptedEvents (run ShardLocalRuntime.ingest other events).1 = accepted ∧
          (accepted.map PipelineEvent.eventId).Nodup ∧
          AnswersAlike (run ShardLocalRuntime.ingest runtime events).2 (HotIndex.new.ingestAll accepted) ∧
          AnswersAlike (run ShardLocalRuntime.ingest other events).2 (HotIndex.new.ingestAll accepted) ∧
          AnswersAlike (run ShardLocalRuntime.ingest runtime accepted).2 (HotIndex.new.ingestAll accepted) ∧
          AnswersAlike (run ShardLocalRuntime.ingest other accepted).2 (HotIndex.new.ingestAll accepted) := by
  obtain ⟨runtime, hNew⟩ := ShardLocalRuntime.exists_new hCount
  have hRoutes := ShardLocalRuntime.routes_new hNew
  refine ⟨runtime, hNew, fun events event hValid => ⟨ingest_eq_duplicate_iff hRoutes events hValid,
    sameAnswers_of_duplicate hRoutes hValid⟩, fun events hIds otherCount hOther => ?_⟩
  obtain ⟨other, hOtherNew⟩ := ShardLocalRuntime.exists_new hOther
  have hOtherRoutes := ShardLocalRuntime.routes_new hOtherNew
  have hAccepted : IdsFixInstances (acceptedLog events) := fun left hLeft right hRight =>
    hIds left (mem_of_mem_acceptedLog hLeft) right (mem_of_mem_acceptedLog hRight)
  have hReplayed : (HotIndex.new.ingestAll (acceptedLog events)).Indexes (acceptedLog (acceptedLog events)) :=
    HotIndex.indexes_ingestAll _
  have hRebuilt := hReplayed
  rw [acceptedLog_acceptedLog] at hRebuilt
  exact ⟨other, acceptedLog events, hOtherNew, acceptedEvents_run hRoutes hIds, acceptedEvents_run hOtherRoutes hIds,
    hRebuilt.distinct, answersAlike_of_routes (ShardLocalRuntime.routes_run hRoutes _) hIds hRebuilt,
    answersAlike_of_routes (ShardLocalRuntime.routes_run hOtherRoutes _) hIds hRebuilt,
    answersAlike_of_routes (ShardLocalRuntime.routes_run hRoutes _) hAccepted hReplayed,
    answersAlike_of_routes (ShardLocalRuntime.routes_run hOtherRoutes _) hAccepted hReplayed⟩

/-- What a fresh runtime reports. -/
def historyWith (shardCount : Nat) (events : List PipelineEvent) :
    Except RuntimeError (List (PipelineEvent × Except RuntimeError ShardIngestOutcome)) :=
  (ShardLocalRuntime.new shardCount).map fun runtime => (run ShardLocalRuntime.ingest runtime events).1

theorem duplicates_are_shard_local_redelivered :
    ∃ runtime, ShardLocalRuntime.new 2 = .ok runtime ∧
      ((run ShardLocalRuntime.ingest runtime [startedEvent "event-1" "instance-a"]).2.ingest
        (startedEvent "event-1" "instance-a")).1 =
          .ok ⟨shardForProcessInstance ⟨"instance-a"⟩ 2, .duplicate⟩ := by
  obtain ⟨runtime, hNew, hDuplicate, -⟩ := @duplicates_are_shard_local 2 (by decide)
  refine ⟨runtime, hNew, (hDuplicate _ _ (by decide)).1.mpr ⟨startedEvent "event-1" "instance-a", ?_, rfl, rfl⟩⟩
  have hAccepted : (historyWith 2 [startedEvent "event-1" "instance-a"]).map acceptedEvents =
      .ok [startedEvent "event-1" "instance-a"] := by
    decide +kernel
  rw [historyWith, hNew] at hAccepted
  rw [Except.ok.inj hAccepted]
  exact List.mem_singleton_self _

/-- One id for two process instances that are on different shards of two. Both events are accepted; a single shard
accepts only the first. -/
theorem id_accepted_on_two_shards :
    historyWith 2 [startedEvent "event-1" "instance-a", startedEvent "event-1" "instance-b"] =
      .ok [(startedEvent "event-1" "instance-a", .ok ⟨0, .accepted⟩),
        (startedEvent "event-1" "instance-b", .ok ⟨1, .accepted⟩)] ∧
    historyWith 1 [startedEvent "event-1" "instance-a", startedEvent "event-1" "instance-b"] =
      .ok [(startedEvent "event-1" "instance-a", .ok ⟨0, .accepted⟩),
        (startedEvent "event-1" "instance-b", .ok ⟨0, .duplicate⟩)] := by
  constructor
  · decide +kernel
  · decide +kernel

end Vannak.Runtime
