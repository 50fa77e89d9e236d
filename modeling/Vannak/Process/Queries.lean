import Vannak.Foundation.Limited
import Vannak.Process.Duplicates

/-!
# Queries on the hot index

The process event queries of `query.rs` on one `HotIndex`. Each answers with one variant of `QueryResult`, so that
the answers here are its lists. The loops stop at the limit of the query; what they return are the first of all
matches.
-/

namespace Vannak.Process

open Foundation

set_option autoImplicit false

def QueryLimit.new (limit : Nat) : QueryLimit := ⟨max limit 1, Nat.le_max_right limit 1⟩

theorem QueryLimit.value_new {limit : Nat} (h : 0 < limit) : (new limit).value = limit := Nat.max_eq_left h

structure PipelineQuery where
  pipelineId : PipelineId
  limit : QueryLimit

structure EventQuery where
  processInstanceId : ProcessInstanceId
  limit : QueryLimit

structure ImpactQuery where
  metadataRef : MetadataRef
  limit : QueryLimit

structure ProcessStatusQuery where
  status : ProcessStatus
  limit : QueryLimit

namespace HotIndex

def snapshotIf (selected : ProcessInstanceSnapshot → Bool) (state : ProcessInstanceState) :
    Option ProcessInstanceSnapshot :=
  let snapshot := state.snapshot
  if selected snapshot then some snapshot else none

/-- The loop of `pipeline_instances` and `process_instances_by_status`. -/
def selectInstances (index : HotIndex) (limit : QueryLimit) (selected : ProcessInstanceSnapshot → Bool) :
    List ProcessInstanceSnapshot :=
  collect limit.value (snapshotIf selected) [] (index.processInstances.toList.map Prod.snd)

def pipelineInstances (index : HotIndex) (query : PipelineQuery) : List ProcessInstanceSnapshot :=
  index.selectInstances query.limit fun snapshot => snapshot.pipelineId = query.pipelineId

def processInstancesByStatus (index : HotIndex) (query : ProcessStatusQuery) : List ProcessInstanceSnapshot :=
  index.selectInstances query.limit fun snapshot => snapshot.status = query.status

def events (index : HotIndex) (query : EventQuery) : List PipelineEvent :=
  index.eventsForIds ((index.eventsByProcess.getD query.processInstanceId []).take query.limit.value)

def impact (index : HotIndex) (query : ImpactQuery) : List PipelineEvent :=
  index.eventsForIds ((index.eventsByMetadataRef.getD query.metadataRef []).take query.limit.value)

def affectedPipelines (index : HotIndex) (metadataRef : MetadataRef) : List PipelineId :=
  let pipelines := (index.eventsByMetadataRef.getD metadataRef []).foldl
    (fun (pipelines : Std.ExtTreeSet PipelineId) eventId =>
      match index.eventsById[eventId]? with
      | none => pipelines
      | some event => pipelines.insert event.pipelineId) ∅
  pipelines.toList

/-! ## Without the limit -/

/-- The instances that a query selects. -/
def matchingInstances (index : HotIndex) (selected : ProcessInstanceSnapshot → Bool) : List ProcessInstanceSnapshot :=
  (index.processInstances.toList.map Prod.snd).filterMap (snapshotIf selected)

/-- The events of the entries of a reference. An event that repeats a reference has several entries. -/
def mentioningEvents (index : HotIndex) (metadataRef : MetadataRef) : List PipelineEvent :=
  index.eventsForIds (index.eventsByMetadataRef.getD metadataRef [])

theorem selectInstances_eq (index : HotIndex) (limit : QueryLimit) (selected : ProcessInstanceSnapshot → Bool) :
    index.selectInstances limit selected = (index.matchingInstances selected).take limit.value := by
  rw [selectInstances, collect_eq_take (snapshotIf selected) limit.value_pos, List.nil_append]
  rfl

end HotIndex

/-! ## The accepted events -/

/-- The valid events that no earlier one of the log has the id of. -/
def acceptInto (log : List PipelineEvent) (event : PipelineEvent) : List PipelineEvent :=
  if event.validate = .ok () ∧ event.eventId ∉ log.map PipelineEvent.eventId then log ++ [event] else log

def acceptedLog (events : List PipelineEvent) : List PipelineEvent := events.foldl acceptInto []

def reduceEvents (events : List PipelineEvent) : Option ProcessInstanceState :=
  events.foldl (fun state event => some ((state.getD (.new event)).apply event)) none

/-- One entry for each time an event lists the reference. -/
def mentions (metadataRef : MetadataRef) (log : List PipelineEvent) : List PipelineEvent :=
  log.flatMap fun event => List.replicate (event.metadataRefs.count metadataRef) event

/-- The index files the events of the log, in order, and reduces each instance from its own. -/
structure HotIndex.Indexes (index : HotIndex) (log : List PipelineEvent) : Prop where
  distinct : (log.map PipelineEvent.eventId).Nodup
  events : ∀ id, index.eventsById[id]? = log.find? (fun event => event.eventId = id)
  instances : ∀ id, index.processInstances[id]? = reduceEvents (log.filter fun event => event.processInstanceId = id)
  byProcess : ∀ id, index.eventsByProcess.getD id [] =
    (log.filter fun event => event.processInstanceId = id).map PipelineEvent.eventId
  byMetadataRef : ∀ metadataRef, index.eventsByMetadataRef.getD metadataRef [] =
    (mentions metadataRef log).map PipelineEvent.eventId

/-- The reference with a given key. -/
def metadataRefOfKey : Nat × String × Option String → MetadataRef
  | (0, id, _) => .dataset ⟨id⟩
  | (1, id, version) => .schema ⟨id⟩ (version.map StringId.mk)
  | (2, id, _) => .field ⟨id⟩
  | (3, id, version) => .pipelineDefinition ⟨id⟩ (version.map StringId.mk)
  | (4, id, _) => .object ⟨id⟩
  | (5, id, _) => .lineageEdge ⟨id⟩
  | (6, id, _) => .dataContract ⟨id⟩
  | (7, id, _) => .owner ⟨id⟩
  | (_, id, _) => .classification ⟨id⟩

theorem metadataRefOfKey_key : Function.LeftInverse metadataRefOfKey metadataRefKey := by
  intro metadataRef
  cases metadataRef with
  | schema id version | pipelineDefinition id version => cases version <;> rfl
  | _ => rfl

instance : Std.LawfulEqOrd MetadataRef where
  eq_of_compare h := metadataRefOfKey_key.injective (Std.LawfulEqOrd.eq_of_compare h)

theorem getD_pushId {α : Type} [Ord α] [Std.TransOrd α] [Std.LawfulEqOrd α] [DecidableEq α]
    (map : BTreeMap α (List EventId)) (key other : α) (id : EventId) :
    (pushId map key id).getD other [] = map.getD other [] ++ if key = other then [id] else [] := by
  rw [pushId, Std.ExtTreeMap.getD_insert]
  by_cases hKey : key = other
  · subst hKey
    simp
  · simp [hKey]

theorem getD_foldl_pushId (refs : List MetadataRef) (map : BTreeMap MetadataRef (List EventId)) (id : EventId)
    (metadataRef : MetadataRef) :
    (refs.foldl (fun map ref => pushId map ref id) map).getD metadataRef [] =
      map.getD metadataRef [] ++ List.replicate (refs.count metadataRef) id := by
  induction refs generalizing map with
  | nil => simp
  | cons ref refs ih =>
    rw [List.foldl_cons, ih, getD_pushId, List.append_assoc, List.count_cons]
    by_cases hRef : ref = metadataRef
    · simp [hRef, List.replicate_succ]
    · simp [hRef]

theorem reduceEvents_concat (events : List PipelineEvent) (event : PipelineEvent) :
    reduceEvents (events ++ [event]) = some (((reduceEvents events).getD (.new event)).apply event) :=
  List.foldl_concat ..

namespace HotIndex

variable {index : HotIndex} {log : List PipelineEvent}

theorem Indexes.mem_eventsById_iff (h : index.Indexes log) (id : EventId) :
    id ∈ index.eventsById ↔ id ∈ log.map PipelineEvent.eventId := by
  rw [Std.ExtTreeMap.mem_iff_isSome_getElem?, h.events, List.find?_isSome]
  simp

theorem indexes_new : new.Indexes [] where
  distinct := List.nodup_nil
  events := by simp [new]
  instances := by simp [new, reduceEvents]
  byProcess := by simp [new]
  byMetadataRef := by simp [new, mentions]

theorem Indexes.ingest (h : index.Indexes log) (event : PipelineEvent) :
    (index.ingest event).2.Indexes (acceptInto log event) := by
  rw [HotIndex.ingest, acceptInto]
  cases hValid : event.validate with
  | error error =>
    simp only [reduceCtorEq, false_and, if_false]
    exact { h with }
  | ok =>
    by_cases hKnown : event.eventId ∈ index.eventsById
    · have hMem := (h.mem_eventsById_iff _).mp hKnown
      simp only [if_pos hKnown, true_and, not_not.mpr hMem, if_false]
      exact { h with }
    · have hFresh : event.eventId ∉ log.map PipelineEvent.eventId := fun hMem =>
        hKnown ((h.mem_eventsById_iff _).mpr hMem)
      simp only [if_neg hKnown, true_and, if_pos hFresh]
      refine ⟨?_, fun id => ?_, fun id => ?_, fun id => ?_, fun metadataRef => ?_⟩
      · rw [List.map_append, List.map_singleton]
        refine h.distinct.append (List.nodup_singleton _) ?_
        simpa using hFresh
      · rw [getElem?_insert_ite, h.events, List.find?_append, List.find?_singleton]
        by_cases hId : event.eventId = id
        · subst hId
          have hNone : log.find? (fun other => other.eventId = event.eventId) = none := by
            rw [← h.events]
            exact Std.ExtTreeMap.getElem?_eq_none hKnown
          simp [hNone]
        · simp [hId]
      · rw [getElem?_reduceInstance, h.instances, h.instances, List.filter_append, List.filter_singleton]
        by_cases hId : event.processInstanceId = id
        · subst hId
          simp [reduceEvents_concat]
        · simp [hId]
      · rw [getD_pushId, h.byProcess, List.filter_append, List.filter_singleton, List.map_append]
        by_cases hId : event.processInstanceId = id
        · simp [hId]
        · simp [hId]
      · rw [getD_foldl_pushId, h.byMetadataRef, mentions, mentions, List.flatMap_append, List.map_append,
          List.flatMap_singleton, List.map_replicate]

theorem indexes_ingestAll (events : List PipelineEvent) : (new.ingestAll events).Indexes (acceptedLog events) := by
  induction events using List.reverseRecOn with
  | nil => exact indexes_new
  | append_singleton events event ih =>
    rw [ingestAll_concat, acceptedLog, List.foldl_concat]
    exact ih.ingest event

/-- The log decides what is reported. -/
theorem Indexes.outcome (h : index.Indexes log) (event : PipelineEvent) :
    (index.ingest event).1 = event.validate.map fun _ =>
      if event.eventId ∈ log.map PipelineEvent.eventId then .duplicate else .accepted := by
  rw [HotIndex.ingest]
  cases event.validate with
  | error error => rfl
  | ok =>
    by_cases hKnown : event.eventId ∈ index.eventsById
    · simp only [if_pos hKnown, Except.map, if_pos ((h.mem_eventsById_iff _).mp hKnown)]
    · simp only [if_neg hKnown, Except.map, if_neg fun hMem => hKnown ((h.mem_eventsById_iff _).mpr hMem)]

theorem Indexes.getElem?_eventId (h : index.Indexes log) {event : PipelineEvent} (hMem : event ∈ log) :
    index.eventsById[event.eventId]? = some event := by
  rw [h.events]
  cases hFind : log.find? (fun other => other.eventId = event.eventId) with
  | none => simpa using List.find?_eq_none.mp hFind event hMem
  | some other =>
    have hId : other.eventId = event.eventId := by simpa using List.find?_some hFind
    rw [List.inj_on_of_nodup_map h.distinct (List.mem_of_find?_eq_some hFind) hMem hId]

theorem Indexes.eventsForIds_map (h : index.Indexes log) {events : List PipelineEvent} (hSubset : events ⊆ log) :
    index.eventsForIds (events.map PipelineEvent.eventId) = events := by
  rw [eventsForIds, List.filterMap_map]
  calc events.filterMap (fun event => index.eventsById[event.eventId]?)
    _ = events.filterMap some := List.filterMap_congr fun event hEvent => h.getElem?_eventId (hSubset hEvent)
    _ = events := List.filterMap_some

theorem mentions_subset (metadataRef : MetadataRef) (log : List PipelineEvent) : mentions metadataRef log ⊆ log := by
  intro event hEvent
  obtain ⟨other, hOther, hSame⟩ := List.mem_flatMap.mp hEvent
  rwa [List.eq_of_mem_replicate hSame]

theorem Indexes.mentioningEvents_eq (h : index.Indexes log) (metadataRef : MetadataRef) :
    index.mentioningEvents metadataRef = mentions metadataRef log := by
  rw [mentioningEvents, h.byMetadataRef, h.eventsForIds_map (mentions_subset metadataRef log)]

/-! ### The answers, from the log -/

theorem Indexes.processInstance_eq (h : index.Indexes log) (id : ProcessInstanceId) :
    index.processInstance id =
      (reduceEvents (log.filter fun event => event.processInstanceId = id)).map ProcessInstanceState.snapshot := by
  rw [processInstance, h.instances]

theorem Indexes.events_eq (h : index.Indexes log) (query : EventQuery) :
    index.events query =
      (log.filter fun event => event.processInstanceId = query.processInstanceId).take query.limit.value := by
  rw [HotIndex.events, h.byProcess, ← List.map_take, h.eventsForIds_map]
  exact fun event hEvent => List.mem_of_mem_filter (List.mem_of_mem_take hEvent)

theorem Indexes.impact_eq (h : index.Indexes log) (query : ImpactQuery) :
    index.impact query = (mentions query.metadataRef log).take query.limit.value := by
  rw [impact, h.byMetadataRef, ← List.map_take, h.eventsForIds_map]
  exact fun event hEvent => mentions_subset _ _ (List.mem_of_mem_take hEvent)

theorem affectedPipelines_eq (index : HotIndex) (metadataRef : MetadataRef) :
    index.affectedPipelines metadataRef =
      (((index.mentioningEvents metadataRef).map PipelineEvent.pipelineId).foldl
        (fun (pipelines : Std.ExtTreeSet PipelineId) id => pipelines.insert id) ∅).toList := by
  rw [affectedPipelines, mentioningEvents, eventsForIds, List.foldl_map, List.foldl_filterMap]
  congr 2
  funext pipelines eventId
  cases index.eventsById[eventId]? <;> rfl

end HotIndex

/-! ## Part of the log -/

theorem mem_of_mem_acceptedLog {events : List PipelineEvent} {event : PipelineEvent}
    (h : event ∈ acceptedLog events) : event ∈ events := by
  induction events using List.reverseRecOn with
  | nil => exact h
  | append_singleton events last ih =>
    rw [acceptedLog, List.foldl_concat, acceptInto] at h
    rw [List.mem_append]
    split at h
    · exact (List.mem_append.mp h).imp_left ih
    · exact .inl (ih h)

/-- Events that are kept by their id alone are accepted or not as in the whole. -/
theorem acceptedLog_filter {keep : PipelineEvent → Bool} {events : List PipelineEvent}
    (h : ∀ left ∈ events, ∀ right ∈ events, left.eventId = right.eventId → keep left = keep right) :
    acceptedLog (events.filter keep) = (acceptedLog events).filter keep := by
  induction events using List.reverseRecOn with
  | nil => rfl
  | append_singleton events event ih =>
    have hEarlier := ih fun left hLeft right hRight =>
      h left (List.mem_append_left _ hLeft) right (List.mem_append_left _ hRight)
    rw [List.filter_append, List.filter_singleton]
    have hLog : acceptedLog (events ++ [event]) = acceptInto (acceptedLog events) event := List.foldl_concat ..
    by_cases hKeep : keep event = true
    · have hFilter : acceptedLog (events.filter keep ++ [event]) =
          acceptInto (acceptedLog (events.filter keep)) event := List.foldl_concat ..
      have hId : event.eventId ∈ ((acceptedLog events).filter keep).map PipelineEvent.eventId ↔
          event.eventId ∈ (acceptedLog events).map PipelineEvent.eventId := by
        constructor
        · intro hMem
          obtain ⟨other, hOther, hSame⟩ := List.mem_map.mp hMem
          exact List.mem_map.mpr ⟨other, List.mem_of_mem_filter hOther, hSame⟩
        · intro hMem
          obtain ⟨other, hOther, hSame⟩ := List.mem_map.mp hMem
          have hOtherKeep : keep other = true := by
            rw [h other (List.mem_append_left _ (mem_of_mem_acceptedLog hOther)) event (by simp) hSame, hKeep]
          exact List.mem_map.mpr ⟨other, List.mem_filter.mpr ⟨hOther, hOtherKeep⟩, hSame⟩
      simp only [hKeep, cond_true]
      rw [hFilter, hLog, hEarlier, acceptInto, acceptInto]
      simp only [hId]
      split
      · rw [List.filter_append, List.filter_singleton, hKeep]
        rfl
      · rfl
    · simp only [hKeep, cond_false]
      rw [List.append_nil, hEarlier, hLog, acceptInto]
      split
      · rw [List.filter_append, List.filter_singleton]
        simp [hKeep]
      · rfl

end Vannak.Process
