import Vannak.Foundation.Sorting
import Vannak.Process.Reducer

/-!
# Queries as scans of the accepted log

The maps of the hot index are kept beside each other. Every query on them answers what a scan of the accepted events
would answer.
-/

namespace Vannak.Process

open Foundation

set_option autoImplicit false

namespace HotIndex

/-- The index after an event that it accepts. -/
def accept (index : HotIndex) (event : PipelineEvent) : HotIndex := { index with
  processInstances := reduceInstance index.processInstances event
  eventsByProcess := pushId index.eventsByProcess event.processInstanceId event.eventId
  eventsByPipeline := pushId index.eventsByPipeline event.pipelineId event.eventId
  eventsByTime := pushId index.eventsByTime event.timestamp event.eventId
  eventsByMetadataRef := event.metadataRefs.foldl (fun map ref => pushId map ref event.eventId)
    index.eventsByMetadataRef
  eventsById := index.eventsById.insert event.eventId event }

/-- An event is rejected, a duplicate, or accepted and filed. -/
theorem ingest_cases (index : HotIndex) (event : PipelineEvent) :
    (∃ error, event.validate = .error error ∧
      index.ingest event = (.error error, { index with rejectedEvents := index.rejectedEvents + 1 })) ∨
    (event.validate = .ok () ∧ event.eventId ∈ index.eventsById ∧
      index.ingest event = (.ok .duplicate, { index with duplicateEvents := index.duplicateEvents + 1 })) ∨
    (event.validate = .ok () ∧ event.eventId ∉ index.eventsById ∧
      index.ingest event = (.ok .accepted, index.accept event)) := by
  rw [ingest]
  cases hValid : event.validate with
  | error error => exact .inl ⟨error, rfl, rfl⟩
  | ok =>
    by_cases hKnown : event.eventId ∈ index.eventsById
    · exact .inr (.inl ⟨rfl, hKnown, by simp only [if_pos hKnown]⟩)
    · refine .inr (.inr ⟨rfl, hKnown, ?_⟩)
      simp only [if_neg hKnown]
      rfl

end HotIndex

theorem acceptInto_of_error {log : List PipelineEvent} {event : PipelineEvent} {error : IngestError}
    (h : event.validate = .error error) : acceptInto log event = log := by
  rw [acceptInto, h, if_neg (by simp)]

theorem HotIndex.Indexes.acceptInto_of_known {index : HotIndex} {log : List PipelineEvent} (h : index.Indexes log)
    {event : PipelineEvent} (hKnown : event.eventId ∈ index.eventsById) : acceptInto log event = log :=
  if_neg fun hFresh => hFresh.2 ((h.mem_eventsById_iff _).mp hKnown)

theorem HotIndex.Indexes.acceptInto_of_fresh {index : HotIndex} {log : List PipelineEvent} (h : index.Indexes log)
    {event : PipelineEvent} (hValid : event.validate = .ok ()) (hFresh : event.eventId ∉ index.eventsById) :
    acceptInto log event = log ++ [event] :=
  if_pos ⟨hValid, fun hMem => hFresh ((h.mem_eventsById_iff _).mpr hMem)⟩

/-- The ingested events that were reported as accepted. -/
def returnedAccepted (index : HotIndex) : List PipelineEvent → List PipelineEvent
  | [] => []
  | event :: events =>
    match index.ingest event with
    | (.ok .accepted, next) => event :: returnedAccepted next events
    | (_, next) => returnedAccepted next events

theorem foldl_acceptInto {index : HotIndex} {log : List PipelineEvent} (h : index.Indexes log)
    (events : List PipelineEvent) : events.foldl acceptInto log = log ++ returnedAccepted index events := by
  induction events generalizing index log with
  | nil => rw [List.foldl_nil, returnedAccepted, List.append_nil]
  | cons event events ih =>
    rw [List.foldl_cons, ih (h.ingest event), returnedAccepted]
    rcases index.ingest_cases event with ⟨error, hError, hIngest⟩ | ⟨-, hKnown, hIngest⟩ | ⟨hValid, hFresh, hIngest⟩
    · rw [acceptInto_of_error hError, hIngest]
    · rw [h.acceptInto_of_known hKnown, hIngest]
    · rw [h.acceptInto_of_fresh hValid hFresh, hIngest, List.append_assoc, List.singleton_append]

/-- What is reported as accepted is the first valid event of each id. -/
theorem returnedAccepted_eq (events : List PipelineEvent) :
    returnedAccepted .new events = acceptedLog events := by
  rw [acceptedLog, foldl_acceptInto HotIndex.indexes_new, List.nil_append]

/-! ## The events by time -/

/-- Every timestamp files its events in the order of the log. -/
def HotIndex.FilesTimes (index : HotIndex) (log : List PipelineEvent) : Prop :=
  ∀ timestamp, index.eventsByTime.getD timestamp [] =
    (log.filter fun event => event.timestamp = timestamp).map PipelineEvent.eventId

namespace HotIndex

variable {index : HotIndex} {log : List PipelineEvent}

theorem FilesTimes.ingest (h : index.FilesTimes log) (hIndexes : index.Indexes log) (event : PipelineEvent) :
    (index.ingest event).2.FilesTimes (acceptInto log event) := by
  rcases index.ingest_cases event with ⟨error, hError, hIngest⟩ | ⟨-, hKnown, hIngest⟩ | ⟨hValid, hFresh, hIngest⟩
  · rw [acceptInto_of_error hError, hIngest]
    exact h
  · rw [hIndexes.acceptInto_of_known hKnown, hIngest]
    exact h
  · rw [hIndexes.acceptInto_of_fresh hValid hFresh, hIngest]
    intro timestamp
    rw [accept, getD_pushId, h timestamp, List.filter_append, List.filter_singleton, List.map_append]
    by_cases hTime : event.timestamp = timestamp
    · simp [hTime]
    · simp [hTime]

theorem filesTimes_ingestAll (events : List PipelineEvent) :
    (new.ingestAll events).FilesTimes (acceptedLog events) := by
  induction events using List.reverseRecOn with
  | nil => exact fun timestamp => by simp [new, ingestAll, acceptedLog]
  | append_singleton events event ih =>
    rw [ingestAll_concat, acceptedLog, List.foldl_concat]
    exact ih.ingest (indexes_ingestAll events) event

theorem pushUntil_eq {limit : QueryLimit} {found : List EventId} (hFound : found.length < limit.value)
    (ids : List EventId) :
    pushUntil limit found ids =
      ((found ++ ids).take limit.value, decide (limit.value ≤ (found ++ ids).length)) := by
  induction ids generalizing found with
  | nil => simp [pushUntil, hFound, hFound.le]
  | cons id ids ih =>
    have hSplit : found ++ id :: ids = found ++ [id] ++ ids := List.append_cons found id ids
    rw [pushUntil, hSplit, QueryLimit.reached]
    by_cases hLimit : limit.value ≤ (found ++ [id]).length
    · have hLength : (found ++ [id]).length = limit.value := by
        rw [List.length_append, List.length_singleton] at hLimit ⊢
        omega
      rw [if_pos (decide_eq_true hLimit), ← hLength, List.take_left, decide_eq_true]
      exact (List.sublist_append_left (found ++ [id]) ids).length_le
    · rw [if_neg (by simpa using hLimit), ih (Nat.lt_of_not_le hLimit)]

theorem collectInRange_eq_take {query : TimeRangeQuery} {found : List EventId}
    (hFound : found.length < query.limit.value) (filed : List (EventTimestamp × List EventId)) :
    collectInRange query found filed =
      (found ++ (filed.filter fun entry => query.contains entry.1).flatMap Prod.snd).take query.limit.value := by
  induction filed generalizing found with
  | nil => simp [collectInRange, List.take_of_length_le hFound.le]
  | cons entry filed ih =>
    obtain ⟨timestamp, ids⟩ := entry
    rw [collectInRange, List.filter_cons]
    by_cases hContains : query.contains timestamp = true
    · rw [if_neg (not_not.mpr hContains), if_pos hContains, pushUntil_eq hFound, List.flatMap_cons,
        ← List.append_assoc]
      by_cases hLimit : query.limit.value ≤ (found ++ ids).length
      · rw [decide_eq_true hLimit, List.take_append_of_le_length hLimit]
      · have hShort : (found ++ ids).take query.limit.value = found ++ ids :=
          List.take_of_length_le (Nat.le_of_not_le hLimit)
        rw [decide_eq_false hLimit, hShort]
        exact ih (Nat.lt_of_not_le hLimit)
    · rw [if_pos hContains, if_neg hContains]
      exact ih hFound

theorem lt_of_compare_timestamp {left right : EventTimestamp} (h : compare left right = .lt) :
    left.asStr < right.asStr := by
  rwa [StringId.compare_def, compare_lt_iff_lt] at h

/-- The filed events in the range are the events of the log in the range, sorted by their timestamps. -/
theorem FilesTimes.inRange_eq (h : index.FilesTimes log) (query : TimeRangeQuery) :
    (index.eventsByTime.toList.filter fun entry => query.contains entry.1).flatMap Prod.snd =
      (sortByKey timeKey (log.filter fun event => query.contains event.timestamp)).map PipelineEvent.eventId := by
  have hGroup : ∀ entry ∈ index.eventsByTime.toList.filter fun entry => query.contains entry.1,
      entry.2 = ((log.filter fun event => query.contains event.timestamp).filter fun event =>
        timeKey event = entry.1.asStr).map PipelineEvent.eventId := by
    rintro ⟨timestamp, ids⟩ hEntry
    obtain ⟨hMem, hContains⟩ := List.mem_filter.mp hEntry
    have hFiled := h timestamp
    rw [Std.ExtTreeMap.getD_eq_getD_getElem?, Std.ExtTreeMap.mem_toList_iff_getElem?_eq_some.mp hMem,
      Option.getD_some] at hFiled
    rw [hFiled, List.filter_filter]
    refine congrArg (List.map PipelineEvent.eventId) (List.filter_congr fun event _ => ?_)
    by_cases hTime : event.timestamp = timestamp
    · simp [hTime, timeKey, hContains]
    · have hText : timeKey event ≠ timestamp.asStr := fun hEq => hTime (congrArg StringId.mk hEq)
      simp [hTime, hText]
  have hKeys : ((index.eventsByTime.toList.filter fun entry => query.contains entry.1).map
      fun entry => entry.1.asStr).Pairwise (· < ·) := by
    rw [List.pairwise_map]
    exact (Std.ExtTreeMap.ordered_keys_toList.filter _).imp lt_of_compare_timestamp
  have hCovers : ∀ event ∈ log.filter fun event => query.contains event.timestamp,
      timeKey event ∈ (index.eventsByTime.toList.filter fun entry => query.contains entry.1).map
        fun entry => entry.1.asStr := by
    intro event hEvent
    obtain ⟨hMem, hContains⟩ := List.mem_filter.mp hEvent
    have hFiled := h event.timestamp
    rw [Std.ExtTreeMap.getD_eq_getD_getElem?] at hFiled
    cases hIds : index.eventsByTime[event.timestamp]? with
    | none =>
      rw [hIds, Option.getD_none] at hFiled
      have hNil := List.map_eq_nil_iff.mp hFiled.symm
      exact absurd (decide_eq_true rfl) (List.filter_eq_nil_iff.mp hNil event hMem)
    | some ids =>
      exact List.mem_map.mpr ⟨(event.timestamp, ids), List.mem_filter.mpr
        ⟨Std.ExtTreeMap.mem_toList_iff_getElem?_eq_some.mpr hIds, hContains⟩, rfl⟩
  rw [List.flatMap_congr hGroup, ← List.map_flatMap, ← flatMap_filter_eq_sortByKey timeKey hKeys hCovers,
    List.flatMap_map]

theorem eventsInTimeRange_eq (hTimes : index.FilesTimes log) (hIndexes : index.Indexes log) (query : TimeRangeQuery) :
    index.eventsInTimeRange query =
      (sortByKey timeKey (log.filter fun event => query.contains event.timestamp)).take query.limit.value := by
  have hEmpty : ([] : List EventId).length < query.limit.value := query.limit.value_pos
  rw [eventsInTimeRange, collectInRange_eq_take hEmpty, List.nil_append, hTimes.inRange_eq, ← List.map_take,
    hIndexes.eventsForIds_map]
  intro event hEvent
  exact List.mem_of_mem_filter ((List.mem_insertionSort _).mp (List.mem_of_mem_take hEvent))

/-- The events of the entries in the range, without the limit. -/
def inRangeEvents (index : HotIndex) (query : TimeRangeQuery) : List PipelineEvent :=
  index.eventsForIds ((index.eventsByTime.toList.filter fun entry => query.contains entry.1).flatMap Prod.snd)

theorem inRangeEvents_eq (hTimes : index.FilesTimes log) (hIndexes : index.Indexes log) (query : TimeRangeQuery) :
    index.inRangeEvents query = sortByKey timeKey (log.filter fun event => query.contains event.timestamp) := by
  rw [inRangeEvents, hTimes.inRange_eq, hIndexes.eventsForIds_map]
  exact fun event hEvent => List.mem_of_mem_filter ((List.mem_insertionSort _).mp hEvent)

end HotIndex

/-! ## The instances -/

def ownEvents (log : List PipelineEvent) (id : ProcessInstanceId) : List PipelineEvent :=
  log.filter fun event => event.processInstanceId = id

/-- The instances of the log in the order of their ids. -/
def instanceIds (log : List PipelineEvent) : List ProcessInstanceId :=
  (Std.ExtTreeSet.ofList (log.map PipelineEvent.processInstanceId) : Std.ExtTreeSet ProcessInstanceId).toList

/-- The snapshot of an instance after the events of the log. -/
def snapshotOf (log : List PipelineEvent) (id : ProcessInstanceId) : Option ProcessInstanceSnapshot :=
  (reduceEvents (ownEvents log id)).map ProcessInstanceState.snapshot

/-- The pipelines of the events with the reference, in order and each once. -/
def pipelinesMentioning (log : List PipelineEvent) (metadataRef : MetadataRef) : List PipelineId :=
  (Std.ExtTreeSet.ofList ((log.filter fun event => metadataRef ∈ event.metadataRefs).map
    PipelineEvent.pipelineId) : Std.ExtTreeSet PipelineId).toList

theorem reduceEvents_eq_none_iff {events : List PipelineEvent} : reduceEvents events = none ↔ events = [] := by
  cases events using List.reverseRecOn with
  | nil => exact iff_of_true rfl rfl
  | append_singleton events event =>
    rw [reduceEvents_concat]
    simp

theorem mem_instanceIds {log : List PipelineEvent} {id : ProcessInstanceId} :
    id ∈ instanceIds log ↔ ownEvents log id ≠ [] := by
  rw [instanceIds, Std.ExtTreeSet.mem_toList, Std.ExtTreeSet.mem_ofList, List.contains_iff_mem, List.mem_map,
    ownEvents, ne_eq, List.filter_eq_nil_iff]
  simp

theorem mem_mentions {metadataRef : MetadataRef} {log : List PipelineEvent} {event : PipelineEvent} :
    event ∈ mentions metadataRef log ↔ event ∈ log ∧ metadataRef ∈ event.metadataRefs := by
  rw [mentions, List.mem_flatMap]
  constructor
  · rintro ⟨other, hOther, hEvent⟩
    obtain ⟨hCount, rfl⟩ := List.mem_replicate.mp hEvent
    exact ⟨hOther, List.count_pos_iff.mp (Nat.pos_of_ne_zero hCount)⟩
  · rintro ⟨hEvent, hRef⟩
    exact ⟨event, hEvent, List.mem_replicate.mpr ⟨(List.count_pos_iff.mpr hRef).ne', rfl⟩⟩

namespace ProcessInstanceState

theorem pipelineId_apply (state : ProcessInstanceState) (event : PipelineEvent) :
    (state.apply event).pipelineId = state.pipelineId := by
  rw [apply]
  split
  · rfl
  · exact (applyKind_fields (state.applyCommon event) event).2.2.2.2.1

end ProcessInstanceState

/-- An instance keeps the pipeline of its first event. -/
theorem pipelineId_reduceEvents (events : List PipelineEvent) :
    (reduceEvents events).map ProcessInstanceState.pipelineId = events.head?.map PipelineEvent.pipelineId := by
  induction events using List.reverseRecOn with
  | nil => rfl
  | append_singleton events event ih =>
    rw [reduceEvents_concat, Option.map_some, ProcessInstanceState.pipelineId_apply, List.head?_append]
    cases hState : reduceEvents events with
    | none =>
      rw [reduceEvents_eq_none_iff.mp hState]
      rfl
    | some state =>
      rw [hState, Option.map_some] at ih
      cases events with
      | nil => cases ih
      | cons first events => exact ih

namespace HotIndex

variable {index : HotIndex} {log : List PipelineEvent}

theorem Indexes.keys_eq (h : index.Indexes log) : index.processInstances.keys = instanceIds log := by
  have hKeys : index.processInstances.keys.Pairwise fun left right => compare left right = .lt :=
    Std.ExtTreeMap.ordered_keys
  have hIds : (instanceIds log).Pairwise fun left right => compare left right = .lt := Std.ExtTreeSet.ordered_toList
  refine eq_of_ordered id hKeys hIds fun id => ?_
  rw [mem_instanceIds, Std.ExtTreeMap.mem_keys, Std.ExtTreeMap.mem_iff_isSome_getElem?, h.instances,
    Option.isSome_iff_ne_none, ne_eq, reduceEvents_eq_none_iff]
  rfl

theorem Indexes.matchingInstances_eq (h : index.Indexes log) (selected : ProcessInstanceSnapshot → Bool) :
    index.matchingInstances selected =
      ((instanceIds log).filter fun id => (snapshotOf log id).any selected).filterMap (snapshotOf log) := by
  rw [matchingInstances, map_snd_toList, h.keys_eq, List.filterMap_filterMap, List.filterMap_filter]
  refine List.filterMap_congr fun id _ => ?_
  rw [h.instances, snapshotOf, ownEvents]
  cases reduceEvents (log.filter fun event => event.processInstanceId = id) with
  | none => rfl
  | some state => rfl

theorem Indexes.selectInstances_scan (h : index.Indexes log) (limit : QueryLimit)
    (selected : ProcessInstanceSnapshot → Bool) :
    index.selectInstances limit selected =
      (((instanceIds log).filter fun id => (snapshotOf log id).any selected).take limit.value).filterMap
        (snapshotOf log) := by
  rw [selectInstances_eq, h.matchingInstances_eq, take_filterMap]
  intro id hId
  obtain ⟨snapshot, hSnapshot, -⟩ := (Option.any_eq_true _ _).mp (List.mem_filter.mp hId).2
  rw [hSnapshot]
  rfl

theorem Indexes.pipelineInstances_scan (h : index.Indexes log) (query : PipelineQuery) :
    index.pipelineInstances query =
      (((instanceIds log).filter fun id =>
        (ownEvents log id).head?.map PipelineEvent.pipelineId = some query.pipelineId).take
          query.limit.value).filterMap (snapshotOf log) := by
  rw [pipelineInstances, h.selectInstances_scan]
  refine congrArg (fun ids => (List.take query.limit.value ids).filterMap (snapshotOf log)) ?_
  refine List.filter_congr fun id _ => ?_
  rw [← pipelineId_reduceEvents, snapshotOf]
  cases reduceEvents (ownEvents log id) with
  | none => rfl
  | some state => simp [ProcessInstanceState.snapshot]

theorem Indexes.processInstancesByStatus_scan (h : index.Indexes log) (query : ProcessStatusQuery) :
    index.processInstancesByStatus query =
      (((instanceIds log).filter fun id =>
        (snapshotOf log id).map ProcessInstanceSnapshot.status = some query.status).take
          query.limit.value).filterMap (snapshotOf log) := by
  rw [processInstancesByStatus, h.selectInstances_scan]
  refine congrArg (fun ids => (List.take query.limit.value ids).filterMap (snapshotOf log)) ?_
  refine List.filter_congr fun id _ => ?_
  cases snapshotOf log id with
  | none => rfl
  | some snapshot => simp

theorem Indexes.affectedPipelines_scan (h : index.Indexes log) (metadataRef : MetadataRef) :
    index.affectedPipelines metadataRef = pipelinesMentioning log metadataRef := by
  have hPipelines : (index.affectedPipelines metadataRef).Pairwise fun left right => compare left right = .lt :=
    Std.ExtTreeSet.ordered_toList
  have hMentioning : (pipelinesMentioning log metadataRef).Pairwise fun left right => compare left right = .lt :=
    Std.ExtTreeSet.ordered_toList
  refine eq_of_ordered id hPipelines hMentioning fun pipelineId => ?_
  rw [affectedPipelines_eq, Std.ExtTreeSet.mem_toList, mem_foldl_insert, h.mentioningEvents_eq, pipelinesMentioning,
    Std.ExtTreeSet.mem_toList, Std.ExtTreeSet.mem_ofList, List.contains_iff_mem, List.mem_map, List.mem_map]
  simp [mem_mentions, List.mem_filter]

end HotIndex

/-- Whatever was ingested, the answers are scans of the accepted events, and what is not accepted changes a counter
only. -/
theorem queries_scan_accepted (ingested : List PipelineEvent) :
    let index := HotIndex.new.ingestAll ingested
    let log := returnedAccepted .new ingested
    log = acceptedLog ingested ∧
    (∀ query : EventQuery, index.events query =
      (log.filter fun event => event.processInstanceId = query.processInstanceId).take query.limit.value) ∧
    (∀ query : TimeRangeQuery, index.eventsInTimeRange query =
      (sortByKey timeKey (log.filter fun event => query.contains event.timestamp)).take query.limit.value) ∧
    (∀ query : PipelineQuery, index.pipelineInstances query =
      (((instanceIds log).filter fun id =>
        (ownEvents log id).head?.map PipelineEvent.pipelineId = some query.pipelineId).take
          query.limit.value).filterMap (snapshotOf log)) ∧
    (∀ query : ProcessStatusQuery, index.processInstancesByStatus query =
      (((instanceIds log).filter fun id =>
        (snapshotOf log id).map ProcessInstanceSnapshot.status = some query.status).take
          query.limit.value).filterMap (snapshotOf log)) ∧
    (∀ metadataRef, index.affectedPipelines metadataRef = pipelinesMentioning log metadataRef) ∧
    ∀ event : PipelineEvent,
      (∀ error, (index.ingest event).1 = .error error →
        (index.ingest event).2 = { index with rejectedEvents := index.rejectedEvents + 1 }) ∧
      ((index.ingest event).1 = .ok .duplicate →
        (index.ingest event).2 = { index with duplicateEvents := index.duplicateEvents + 1 }) := by
  intro index log
  have hLog : log = acceptedLog ingested := returnedAccepted_eq ingested
  have hIndexes : index.Indexes log := hLog ▸ HotIndex.indexes_ingestAll ingested
  have hTimes : index.FilesTimes log := hLog ▸ HotIndex.filesTimes_ingestAll ingested
  refine ⟨hLog, hIndexes.events_eq, HotIndex.eventsInTimeRange_eq hTimes hIndexes, hIndexes.pipelineInstances_scan,
    hIndexes.processInstancesByStatus_scan, hIndexes.affectedPipelines_scan, fun event => ?_⟩
  rcases index.ingest_cases event with ⟨error, -, hIngest⟩ | ⟨-, -, hIngest⟩ | ⟨-, -, hIngest⟩
  · simp [hIngest]
  · simp [hIngest]
  · simp [hIngest]

end Vannak.Process
