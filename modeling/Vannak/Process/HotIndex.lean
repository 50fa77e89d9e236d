import Vannak.Foundation.OrderedMap
import Vannak.Foundation.Run
import Vannak.Process.Instance

/-!
# The hot index

`HotIndex` of `index.rs`, one per shard. Of its maps only the process instances and the
events by id decide what later events do; `ProcessView` is this part, and events of
different instances with different ids can be exchanged on it.
-/

namespace Vannak.Process

open Foundation

set_option autoImplicit false

/-! ## Order of metadata references -/

/-- Position of the variant, then its fields in order. -/
def metadataRefKey : MetadataRef → Nat × String × Option String
  | .dataset id => (0, id.asStr, none)
  | .schema id version => (1, id.asStr, version.map StringId.asStr)
  | .field id => (2, id.asStr, none)
  | .pipelineDefinition id version => (3, id.asStr, version.map StringId.asStr)
  | .object id => (4, id.asStr, none)
  | .lineageEdge id => (5, id.asStr, none)
  | .dataContract id => (6, id.asStr, none)
  | .owner id => (7, id.asStr, none)
  | .classification id => (8, id.asStr, none)

instance : Ord MetadataRef := ⟨compareOn metadataRefKey⟩

instance : Std.TransOrd MetadataRef := inferInstanceAs (Std.TransCmp (compareOn metadataRefKey))

/-! ## The index -/

inductive IngestOutcome where
  | accepted
  | duplicate
deriving DecidableEq, Repr

structure HotIndex where
  processInstances : BTreeMap ProcessInstanceId ProcessInstanceState
  eventsById : BTreeMap EventId PipelineEvent
  eventsByProcess : BTreeMap ProcessInstanceId (List EventId)
  eventsByPipeline : BTreeMap PipelineId (List EventId)
  eventsByMetadataRef : BTreeMap MetadataRef (List EventId)
  eventsByTime : BTreeMap EventTimestamp (List EventId)
  duplicateEvents : Nat
  rejectedEvents : Nat

/-- `entry(key).or_default().push(id)`. -/
def pushId {α : Type} [Ord α] [Std.TransOrd α] (map : BTreeMap α (List EventId)) (key : α) (id : EventId) :
    BTreeMap α (List EventId) :=
  map.insert key (map.getD key [] ++ [id])

namespace HotIndex

def new : HotIndex := ⟨∅, ∅, ∅, ∅, ∅, ∅, 0, 0⟩

/-- `entry(id).or_insert_with(|| ProcessInstanceState::new(&event)).apply(&event)`. -/
def reduceInstance (instances : BTreeMap ProcessInstanceId ProcessInstanceState) (event : PipelineEvent) :
    BTreeMap ProcessInstanceId ProcessInstanceState :=
  let state := instances.getD event.processInstanceId (ProcessInstanceState.new event)
  instances.insert event.processInstanceId (state.apply event)

def ingest (index : HotIndex) (event : PipelineEvent) : Except IngestError IngestOutcome × HotIndex :=
  match event.validate with
  | .error error => (.error error, { index with rejectedEvents := index.rejectedEvents + 1 })
  | .ok () =>
    if event.eventId ∈ index.eventsById then
      (.ok .duplicate, { index with duplicateEvents := index.duplicateEvents + 1 })
    else (.ok .accepted, { index with
      processInstances := reduceInstance index.processInstances event
      eventsByProcess := pushId index.eventsByProcess event.processInstanceId event.eventId
      eventsByPipeline := pushId index.eventsByPipeline event.pipelineId event.eventId
      eventsByTime := pushId index.eventsByTime event.timestamp event.eventId
      eventsByMetadataRef := event.metadataRefs.foldl (fun map ref => pushId map ref event.eventId)
        index.eventsByMetadataRef
      eventsById := index.eventsById.insert event.eventId event })

def containsEvent (index : HotIndex) (eventId : EventId) : Bool := eventId ∈ index.eventsById

def processInstance (index : HotIndex) (processInstanceId : ProcessInstanceId) :
    Option ProcessInstanceSnapshot :=
  (index.processInstances[processInstanceId]?).map ProcessInstanceState.snapshot

end HotIndex

/-! ## What later events depend on -/

@[ext]
structure ProcessView where
  instances : BTreeMap ProcessInstanceId ProcessInstanceState
  events : BTreeMap EventId PipelineEvent

def HotIndex.view (index : HotIndex) : ProcessView := ⟨index.processInstances, index.eventsById⟩

namespace ProcessView

def empty : ProcessView := ⟨∅, ∅⟩

def ingest (view : ProcessView) (event : PipelineEvent) : ProcessView :=
  if event.validate.isOk = false ∨ event.eventId ∈ view.events then view
  else ⟨HotIndex.reduceInstance view.instances event, view.events.insert event.eventId event⟩

def ingestAll (view : ProcessView) (events : List PipelineEvent) : ProcessView :=
  events.foldl ingest view

theorem ingestAll_append (view : ProcessView) (first second : List PipelineEvent) :
    view.ingestAll (first ++ second) = (view.ingestAll first).ingestAll second := List.foldl_append

end ProcessView

/-- The events concern different instances and are no duplicates of each other. -/
def Unrelated (left right : PipelineEvent) : Prop :=
  left.processInstanceId ≠ right.processInstanceId ∧ left.eventId ≠ right.eventId

instance (left right : PipelineEvent) : Decidable (Unrelated left right) :=
  inferInstanceAs (Decidable (_ ∧ _))

/-- Unrelated events, and two deliveries of one event. -/
def Exchangeable (left right : PipelineEvent) : Prop := Unrelated left right ∨ left = right

instance (left right : PipelineEvent) : Decidable (Exchangeable left right) :=
  inferInstanceAs (Decidable (_ ∨ _))

theorem Unrelated.symm {left right : PipelineEvent} (h : Unrelated left right) : Unrelated right left :=
  ⟨h.1.symm, h.2.symm⟩

theorem ProcessView.ingest_eq_self {view : ProcessView} {event : PipelineEvent}
    (h : event.validate.isOk = false ∨ event.eventId ∈ view.events) : view.ingest event = view :=
  if_pos h

theorem ProcessView.ingest_eq {view : ProcessView} {event : PipelineEvent}
    (h : ¬(event.validate.isOk = false ∨ event.eventId ∈ view.events)) :
    view.ingest event =
      ⟨HotIndex.reduceInstance view.instances event, view.events.insert event.eventId event⟩ :=
  if_neg h

theorem HotIndex.view_ingest (index : HotIndex) (event : PipelineEvent) :
    (index.ingest event).2.view = index.view.ingest event := by
  rw [HotIndex.ingest]
  cases hValid : event.validate with
  | error error =>
    rw [ProcessView.ingest_eq_self (.inl (by rw [hValid]; rfl))]
    rfl
  | ok =>
    by_cases hKnown : event.eventId ∈ index.eventsById
    · rw [ProcessView.ingest_eq_self (.inr hKnown)]
      simp only [if_pos hKnown]
      rfl
    · have hFresh : ¬(event.validate.isOk = false ∨ event.eventId ∈ index.view.events) := by
        rw [hValid]
        rintro (hError | hMem)
        · cases hError
        · exact hKnown hMem
      rw [ProcessView.ingest_eq hFresh]
      simp only [if_neg hKnown]
      rfl

theorem getElem?_reduceInstance (instances : BTreeMap ProcessInstanceId ProcessInstanceState)
    (event : PipelineEvent) (id : ProcessInstanceId) :
    (HotIndex.reduceInstance instances event)[id]? =
      if event.processInstanceId = id then
        some (((instances[event.processInstanceId]?).getD (.new event)).apply event)
      else instances[id]? := by
  rw [HotIndex.reduceInstance, getElem?_insert_ite, Std.ExtTreeMap.getD_eq_getD_getElem?]

theorem reduceInstance_comm {left right : PipelineEvent}
    (h : left.processInstanceId ≠ right.processInstanceId)
    (instances : BTreeMap ProcessInstanceId ProcessInstanceState) :
    HotIndex.reduceInstance (HotIndex.reduceInstance instances left) right =
      HotIndex.reduceInstance (HotIndex.reduceInstance instances right) left := by
  refine Std.ExtTreeMap.ext_getElem? fun id => ?_
  simp only [getElem?_reduceInstance, if_neg h, if_neg h.symm]
  by_cases hLeft : left.processInstanceId = id
  · rw [if_pos hLeft, if_neg (hLeft ▸ h.symm), if_pos hLeft]
  · rw [if_neg hLeft, if_neg hLeft]

/-- An event decides by its own id whether it is taken, whatever else is taken first. -/
theorem ProcessView.mem_events_ingest {left right : PipelineEvent} (h : left.eventId ≠ right.eventId)
    (view : ProcessView) : right.eventId ∈ (view.ingest left).events ↔ right.eventId ∈ view.events := by
  rw [ProcessView.ingest]
  split
  · rfl
  · rw [Std.ExtTreeMap.mem_insert, Std.compare_eq_iff_eq]
    exact ⟨fun hMem => hMem.resolve_left h, .inr⟩

theorem ProcessView.ingest_comm {left right : PipelineEvent} (h : Unrelated left right) (view : ProcessView) :
    (view.ingest left).ingest right = (view.ingest right).ingest left := by
  by_cases hLeft : left.validate.isOk = false ∨ left.eventId ∈ view.events
  · rw [ingest_eq_self hLeft, ingest_eq_self (hLeft.imp_right (mem_events_ingest h.symm.2 view).mpr)]
  by_cases hRight : right.validate.isOk = false ∨ right.eventId ∈ view.events
  · rw [ingest_eq_self hRight, ingest_eq_self (hRight.imp_right (mem_events_ingest h.2 view).mpr)]
  · have hLeftLater : ¬(left.validate.isOk = false ∨ left.eventId ∈ (view.ingest right).events) := by
      rwa [mem_events_ingest h.symm.2]
    have hRightLater : ¬(right.validate.isOk = false ∨ right.eventId ∈ (view.ingest left).events) := by
      rwa [mem_events_ingest h.2]
    rw [ingest_eq hRightLater, ingest_eq hLeftLater, ingest_eq hLeft, ingest_eq hRight]
    exact ProcessView.ext (reduceInstance_comm h.1 _) (insert_comm h.2 _ _ _)

/-- An event may overtake events that it can be exchanged with. -/
theorem ProcessView.ingestAll_overtake {event : PipelineEvent} {others : List PipelineEvent}
    (h : ∀ other ∈ others, Exchangeable event other) (view : ProcessView) :
    (view.ingest event).ingestAll others = (view.ingestAll others).ingest event := by
  refine foldl_exchange (fun view left right hExchangeable => ?_) h view
  rcases hExchangeable with hUnrelated | rfl
  · exact ingest_comm hUnrelated view
  · rfl

end Vannak.Process
