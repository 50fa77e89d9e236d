import Vannak.Daemon.PeerRequests
import Vannak.Foundation.Grouping
import Vannak.Service.CaptureGate

/-!
# The provenance index as scans of its log

The queries of `DataProvenanceIndex`. Its six maps group the accepted events by their keys, so that every answer is a
scan of the accepted events.
-/

namespace Vannak

open Foundation Daemon

set_option autoImplicit false

structure DataProvenanceIndexSnapshot where
  metadataEventCount : Nat
  dataIndividualCount : Nat
  processInstanceCount : Nat
  activityCount : Nat
deriving DecidableEq, Repr

namespace DataProvenanceIndex

def eventsForKeys (index : DataProvenanceIndex) (keys : List IdempotencyKey) : List DataIndividualMetadataEvent :=
  keys.filterMap (index.eventsByIdempotency[·]?)

def metadataForDataIndividual (index : DataProvenanceIndex) (query : DataIndividualMetadataQuery) :
    List DataIndividualMetadataEvent :=
  index.eventsForKeys ((index.eventsByDataIndividual.getD query.dataIndividualId []).take query.limit.value)

def metadataForProcess (index : DataProvenanceIndex) (query : ProcessMetadataQuery) :
    List DataIndividualMetadataEvent :=
  index.eventsForKeys ((index.eventsByProcess.getD query.processInstanceId []).take query.limit.value)

def metadataForActivity (index : DataProvenanceIndex) (query : ActivityMetadataQuery) :
    List DataIndividualMetadataEvent :=
  index.eventsForKeys
    ((index.eventsByActivity.getD (query.processInstanceId, query.activityId) []).take query.limit.value)

def dataIndividualsForProcess (index : DataProvenanceIndex) (processInstanceId : ProcessInstanceId) :
    List DataIndividualId :=
  (index.dataIndividualsByProcess.getD processInstanceId ∅).toList

def dataIndividualsForActivity (index : DataProvenanceIndex) (processInstanceId : ProcessInstanceId)
    (activityId : ActivityId) : List DataIndividualId :=
  (index.dataIndividualsByActivity.getD (processInstanceId, activityId) ∅).toList

def snapshot (index : DataProvenanceIndex) : DataProvenanceIndexSnapshot where
  metadataEventCount := index.eventsByIdempotency.size
  dataIndividualCount := index.eventsByDataIndividual.size
  processInstanceCount := index.eventsByProcess.size
  activityCount := index.eventsByActivity.size

def ingestAll (index : DataProvenanceIndex) (events : List DataIndividualMetadataEvent) : DataProvenanceIndex :=
  events.foldl (fun index event => (index.ingest event).2) index

/-- The events that were reported as accepted. -/
def acceptedEvents (index : DataProvenanceIndex) :
    List DataIndividualMetadataEvent → List DataIndividualMetadataEvent
  | [] => []
  | event :: events =>
    match index.ingest event with
    | (.accepted, next) => event :: acceptedEvents next events
    | (.duplicate, next) => acceptedEvents next events

end DataProvenanceIndex

/-! ## The log -/

namespace DataIndividualMetadataEvent

/-- The key of an event that has an activity. -/
def activityKey (event : DataIndividualMetadataEvent) : Option (ProcessInstanceId × ActivityId) :=
  event.activityId.map fun activity => (event.processInstanceId, activity)

/-- The log with an event, unless its idempotency key is known. -/
def fileFirst (log : List DataIndividualMetadataEvent) (event : DataIndividualMetadataEvent) :
    List DataIndividualMetadataEvent :=
  if event.idempotencyKey ∈ log.map idempotencyKey then log else log ++ [event]

/-- The first event of each idempotency key, in order. -/
def firstOfEachKey (events : List DataIndividualMetadataEvent) : List DataIndividualMetadataEvent :=
  events.foldl fileFirst []

end DataIndividualMetadataEvent

open DataIndividualMetadataEvent (activityKey fileFirst firstOfEachKey)

def keysOf (events : List DataIndividualMetadataEvent) : List IdempotencyKey :=
  events.map DataIndividualMetadataEvent.idempotencyKey

def individualsOf (events : List DataIndividualMetadataEvent) : BTreeSet DataIndividualId :=
  Std.ExtTreeSet.ofList (events.map DataIndividualMetadataEvent.dataIndividualId)

/-- Every map groups the log. -/
structure DataProvenanceIndex.Indexes (index : DataProvenanceIndex) (log : List DataIndividualMetadataEvent) :
    Prop where
  nodup : (keysOf log).Nodup
  events : ∀ key, index.eventsByIdempotency[key]? = log.find? fun event => event.idempotencyKey = key
  individuals : Groups (fun event => some event.dataIndividualId) keysOf index.eventsByDataIndividual log
  processes : Groups (fun event => some event.processInstanceId) keysOf index.eventsByProcess log
  activities : Groups activityKey keysOf index.eventsByActivity log
  processIndividuals :
    Groups (fun event => some event.processInstanceId) individualsOf index.dataIndividualsByProcess log
  activityIndividuals : Groups activityKey individualsOf index.dataIndividualsByActivity log

theorem keysOf_concat (events : List DataIndividualMetadataEvent) (event : DataIndividualMetadataEvent) :
    keysOf (events ++ [event]) = keysOf events ++ [event.idempotencyKey] := List.map_append

theorem individualsOf_concat (events : List DataIndividualMetadataEvent) (event : DataIndividualMetadataEvent) :
    individualsOf (events ++ [event]) = (individualsOf events).insert event.dataIndividualId := by
  apply Std.ExtTreeSet.ext_mem
  intro id
  rw [individualsOf, individualsOf, Std.ExtTreeSet.mem_insert, Std.ExtTreeSet.mem_ofList, Std.ExtTreeSet.mem_ofList,
    List.contains_iff_mem, List.contains_iff_mem, List.map_append, List.mem_append, List.map_singleton,
    List.mem_singleton, Std.compare_eq_iff_eq]
  exact or_comm.trans (or_congr_left eq_comm)

section Filing

variable {κ : Type} [DecidableEq κ] [Ord κ] [Std.TransOrd κ] [Std.LawfulEqOrd κ]
  {keyOf : DataIndividualMetadataEvent → Option κ} {log : List DataIndividualMetadataEvent}

theorem groups_pushTo {map : BTreeMap κ (List IdempotencyKey)} (h : Groups keyOf keysOf map log)
    (event : DataIndividualMetadataEvent) :
    Groups keyOf keysOf ((keyOf event).elim map fun key => pushTo map key event.idempotencyKey) (log ++ [event]) := by
  cases hKey : keyOf event with
  | none => exact h.concat_of_none hKey
  | some key =>
    refine h.concat_of_some hKey ?_
    rw [keysOf_concat]
    exact congrArg (· ++ [event.idempotencyKey]) (h.getD_eq key)

theorem groups_insertTo {map : BTreeMap κ (BTreeSet DataIndividualId)} (h : Groups keyOf individualsOf map log)
    (event : DataIndividualMetadataEvent) :
    Groups keyOf individualsOf ((keyOf event).elim map fun key => insertTo map key event.dataIndividualId)
      (log ++ [event]) := by
  cases hKey : keyOf event with
  | none => exact h.concat_of_none hKey
  | some key =>
    refine h.concat_of_some hKey ?_
    rw [individualsOf_concat]
    exact congrArg (·.insert event.dataIndividualId) (h.getD_eq key)

end Filing

namespace DataProvenanceIndex

variable {index : DataProvenanceIndex} {log : List DataIndividualMetadataEvent}

theorem indexes_empty : new.Indexes [] where
  nodup := List.nodup_nil
  events := fun _ => rfl
  individuals := groups_empty
  processes := groups_empty
  activities := groups_empty
  processIndividuals := groups_empty
  activityIndividuals := groups_empty

theorem Indexes.mem_iff (h : index.Indexes log) (key : IdempotencyKey) :
    key ∈ index.eventsByIdempotency ↔ key ∈ keysOf log := by
  rw [Std.ExtTreeMap.mem_iff_isSome_getElem?, h.events, List.find?_isSome, keysOf, List.mem_map]
  simp

/-- An event is a duplicate of a filed one, or it is accepted. -/
theorem Indexes.ingest_cases (h : index.Indexes log) (event : DataIndividualMetadataEvent) :
    (event.idempotencyKey ∈ keysOf log ∧ index.ingest event = (.duplicate, index) ∧ fileFirst log event = log) ∨
    (event.idempotencyKey ∉ keysOf log ∧ index.ingest event = (.accepted, (index.ingest event).2) ∧
      fileFirst log event = log ++ [event]) := by
  by_cases hKnown : event.idempotencyKey ∈ index.eventsByIdempotency
  · have hKey := (h.mem_iff _).mp hKnown
    exact .inl ⟨hKey, if_pos hKnown, if_pos hKey⟩
  · have hKey := (h.mem_iff _).not.mp hKnown
    refine .inr ⟨hKey, ?_, if_neg hKey⟩
    rw [ingest, if_neg hKnown]

theorem Indexes.accept (h : index.Indexes log) {event : DataIndividualMetadataEvent}
    (hFresh : event.idempotencyKey ∉ keysOf log) : (index.ingest event).2.Indexes (log ++ [event]) := by
  have hUnknown := (h.mem_iff _).not.mpr hFresh
  have hStored (key : IdempotencyKey) : (index.ingest event).2.eventsByIdempotency[key]? =
      (log ++ [event]).find? fun event => event.idempotencyKey = key := by
    rw [getElem?_ingest, h.events, List.find?_append]
    by_cases hKey : event.idempotencyKey = key
    · subst hKey
      have hNone : (log.find? fun other => other.idempotencyKey = event.idempotencyKey) = none := by
        rw [← h.events]
        exact Std.ExtTreeMap.getElem?_eq_none hUnknown
      simp [hNone]
    · simp [hKey]
  rw [ingest, if_neg hUnknown] at hStored ⊢
  refine ⟨?_, hStored, groups_pushTo h.individuals event, groups_pushTo h.processes event,
    groups_pushTo h.activities event, groups_insertTo h.processIndividuals event,
    groups_insertTo h.activityIndividuals event⟩
  rw [keysOf_concat]
  exact List.nodup_append.mpr ⟨h.nodup, List.nodup_singleton _, fun key hKey other hOther hSame =>
    hFresh (List.mem_singleton.mp hOther ▸ hSame ▸ hKey)⟩

theorem Indexes.ingest (h : index.Indexes log) (event : DataIndividualMetadataEvent) :
    (index.ingest event).2.Indexes (fileFirst log event) := by
  rcases h.ingest_cases event with ⟨-, hIngest, hLog⟩ | ⟨hFresh, -, hLog⟩
  · rw [hIngest, hLog]
    exact h
  · rw [hLog]
    exact h.accept hFresh

theorem Indexes.ingestAll (h : index.Indexes log) (events : List DataIndividualMetadataEvent) :
    (index.ingestAll events).Indexes (events.foldl fileFirst log) := by
  induction events generalizing index log with
  | nil => exact h
  | cons event events ih => exact ih (h.ingest event)

theorem Indexes.acceptedEvents_eq (h : index.Indexes log) (events : List DataIndividualMetadataEvent) :
    log ++ index.acceptedEvents events = events.foldl fileFirst log := by
  induction events generalizing index log with
  | nil => exact List.append_nil log
  | cons event events ih =>
    rw [List.foldl_cons, acceptedEvents]
    rcases h.ingest_cases event with ⟨-, hIngest, hLog⟩ | ⟨hFresh, hIngest, hLog⟩
    · rw [hIngest, hLog]
      exact ih h
    · rw [hIngest, hLog, ← ih (h.accept hFresh), List.append_assoc, List.singleton_append]

/-! ## The answers -/

theorem Indexes.getElem?_key (h : index.Indexes log) {event : DataIndividualMetadataEvent} (hMem : event ∈ log) :
    index.eventsByIdempotency[event.idempotencyKey]? = some event := by
  rw [h.events]
  cases hFind : log.find? (fun other => other.idempotencyKey = event.idempotencyKey) with
  | none => simpa using List.find?_eq_none.mp hFind event hMem
  | some other =>
    have hKey : other.idempotencyKey = event.idempotencyKey := by simpa using List.find?_some hFind
    rw [List.inj_on_of_nodup_map h.nodup (List.mem_of_find?_eq_some hFind) hMem hKey]

theorem Indexes.eventsForKeys_eq (h : index.Indexes log) {events : List DataIndividualMetadataEvent}
    (hSubset : events ⊆ log) : index.eventsForKeys (keysOf events) = events := by
  rw [eventsForKeys, keysOf, List.filterMap_map]
  have hStored : ∀ event ∈ events, ((fun key => index.eventsByIdempotency[key]?) ∘
      DataIndividualMetadataEvent.idempotencyKey) event = some event := by
    intro event hEvent
    exact h.getElem?_key (hSubset hEvent)
  rw [List.filterMap_congr hStored, List.filterMap_some]

/-- The keys filed under one key answer with the events of the log. -/
theorem Indexes.query_eq {κ : Type} [DecidableEq κ] [Ord κ] [Std.TransOrd κ] (h : index.Indexes log)
    {keyOf : DataIndividualMetadataEvent → Option κ} {map : BTreeMap κ (List IdempotencyKey)}
    (hMap : Groups keyOf keysOf map log) (key : κ) (limit : Nat) :
    index.eventsForKeys ((map.getD key []).take limit) = (itemsOf keyOf key log).take limit := by
  have hFiled : map.getD key [] = keysOf (itemsOf keyOf key log) := hMap.getD_eq key
  rw [hFiled, keysOf, ← List.map_take]
  exact h.eventsForKeys_eq fun event hEvent => List.mem_of_mem_filter (List.mem_of_mem_take hEvent)

end DataProvenanceIndex

/-- The different individuals in the order of their ids. -/
def IsSortedSetOf (found ids : List DataIndividualId) : Prop :=
  found.Pairwise (fun left right => compare left right = .lt) ∧ ∀ id, id ∈ found ↔ id ∈ ids

theorem isSortedSetOf_individualsOf (events : List DataIndividualMetadataEvent) :
    IsSortedSetOf (individualsOf events).toList (events.map DataIndividualMetadataEvent.dataIndividualId) := by
  refine ⟨Std.ExtTreeSet.ordered_toList, fun id => ?_⟩
  rw [individualsOf, Std.ExtTreeSet.mem_toList, Std.ExtTreeSet.mem_ofList, List.contains_iff_mem]

/-- Whatever was ingested, the answers are scans of the accepted events, the counts are those of their different keys,
and a duplicate changes nothing. -/
theorem provenance_queries_scan (ingested : List DataIndividualMetadataEvent) :
    let index := DataProvenanceIndex.new.ingestAll ingested
    let log := DataProvenanceIndex.new.acceptedEvents ingested
    log = firstOfEachKey ingested ∧
    (∀ query : DataIndividualMetadataQuery, index.metadataForDataIndividual query =
      (log.filter fun event => event.dataIndividualId = query.dataIndividualId).take query.limit.value) ∧
    (∀ query : ProcessMetadataQuery, index.metadataForProcess query =
      (log.filter fun event => event.processInstanceId = query.processInstanceId).take query.limit.value) ∧
    (∀ query : ActivityMetadataQuery, index.metadataForActivity query =
      (log.filter fun event => event.processInstanceId = query.processInstanceId ∧
        event.activityId = some query.activityId).take query.limit.value) ∧
    (∀ process, IsSortedSetOf (index.dataIndividualsForProcess process)
      ((log.filter fun event => event.processInstanceId = process).map
        DataIndividualMetadataEvent.dataIndividualId)) ∧
    (∀ process activity, IsSortedSetOf (index.dataIndividualsForActivity process activity)
      ((log.filter fun event => event.processInstanceId = process ∧ event.activityId = some activity).map
        DataIndividualMetadataEvent.dataIndividualId)) ∧
    index.snapshot = {
      metadataEventCount := distinct (keysOf log)
      dataIndividualCount := distinct (log.map DataIndividualMetadataEvent.dataIndividualId)
      processInstanceCount := distinct (log.map DataIndividualMetadataEvent.processInstanceId)
      activityCount := distinct (log.filterMap activityKey) } ∧
    ∀ event, index.ingest event =
      if event.idempotencyKey ∈ keysOf log then (.duplicate, index)
      else (.accepted, (index.ingest event).2) := by
  intro index log
  have hLog : log = firstOfEachKey ingested := DataProvenanceIndex.indexes_empty.acceptedEvents_eq ingested
  have hIndexes : index.Indexes log := hLog ▸ DataProvenanceIndex.indexes_empty.ingestAll ingested
  have hActivity (process : ProcessInstanceId) (activity : ActivityId) :
      itemsOf activityKey (process, activity) log =
        log.filter fun event => event.processInstanceId = process ∧ event.activityId = some activity := by
    refine List.filter_congr fun event _ => ?_
    rw [activityKey]
    cases event.activityId <;> simp
  have hProcess (process : ProcessInstanceId) :
      itemsOf (fun event => some event.processInstanceId) process log =
        log.filter fun event => event.processInstanceId = process := by
    refine List.filter_congr fun event _ => ?_
    simp
  have hIndividual (individual : DataIndividualId) :
      itemsOf (fun event => some event.dataIndividualId) individual log =
        log.filter fun event => event.dataIndividualId = individual := by
    refine List.filter_congr fun event _ => ?_
    simp
  refine ⟨hLog, fun query => ?_, fun query => ?_, fun query => ?_, fun process => ?_, fun process activity => ?_, ?_,
    fun event => ?_⟩
  · rw [← hIndividual]
    exact hIndexes.query_eq hIndexes.individuals _ _
  · rw [← hProcess]
    exact hIndexes.query_eq hIndexes.processes _ _
  · rw [← hActivity]
    exact hIndexes.query_eq hIndexes.activities _ _
  · rw [← hProcess, DataProvenanceIndex.dataIndividualsForProcess]
    have hFiled : index.dataIndividualsByProcess.getD process ∅ = _ := hIndexes.processIndividuals.getD_eq process
    rw [hFiled]
    exact isSortedSetOf_individualsOf _
  · rw [← hActivity, DataProvenanceIndex.dataIndividualsForActivity]
    have hFiled : index.dataIndividualsByActivity.getD (process, activity) ∅ = _ :=
      hIndexes.activityIndividuals.getD_eq (process, activity)
    rw [hFiled]
    exact isSortedSetOf_individualsOf _
  · have hMap {κ : Type} (key : DataIndividualMetadataEvent → κ) :
        log.filterMap (fun event => some (key event)) = log.map key := congrFun List.filterMap_eq_map log
    rw [DataProvenanceIndex.snapshot, size_eq_distinct hIndexes.mem_iff, hIndexes.individuals.size_eq,
      hIndexes.processes.size_eq, hIndexes.activities.size_eq, hMap, hMap]
  · rcases hIndexes.ingest_cases event with ⟨hKey, hIngest, -⟩ | ⟨hKey, hIngest, -⟩
    · rw [if_pos hKey, hIngest]
    · rw [if_neg hKey]
      exact hIngest

end Vannak
