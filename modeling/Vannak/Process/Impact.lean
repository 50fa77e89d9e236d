import Vannak.Process.Scans

/-!
# Repeated metadata references

An event may list a reference more than once. The hot index then files it once for each time, and a new instance
copies the list, while applying an event to an instance adds only what is not there yet.
-/

namespace Vannak.Process

set_option autoImplicit false

/-- The first of the accepted events that list the reference, each once. -/
def impactOf (log : List PipelineEvent) (query : ImpactQuery) : List PipelineEvent :=
  (log.filter fun event => query.metadataRef ∈ event.metadataRefs).take query.limit.value

/-! ## Answers of impact queries -/

theorem mentions_of_nodup {metadataRef : MetadataRef} {log : List PipelineEvent}
    (h : ∀ event ∈ log, event.metadataRefs.Nodup) :
    mentions metadataRef log = log.filter fun event => metadataRef ∈ event.metadataRefs := by
  induction log with
  | nil => rfl
  | cons event log ih =>
    obtain ⟨hEvent, hLog⟩ := List.forall_mem_cons.mp h
    rw [mentions, List.flatMap_cons, ← mentions, ih hLog, List.filter_cons]
    by_cases hRef : metadataRef ∈ event.metadataRefs
    · rw [List.count_eq_one_of_mem hEvent hRef, if_pos (decide_eq_true hRef)]
      rfl
    · rw [List.count_eq_zero.mpr hRef, if_neg (by simpa using hRef)]
      rfl

/-- The entries of an event stand beside each other. -/
theorem replicate_sublist_mentions {metadataRef : MetadataRef} {log : List PipelineEvent} {event : PipelineEvent}
    (h : event ∈ log) :
    (List.replicate (event.metadataRefs.count metadataRef) event).Sublist (mentions metadataRef log) := by
  rw [mentions, List.flatMap_def]
  exact List.sublist_flatten_of_mem (List.mem_map.mpr ⟨event, h, rfl⟩)

theorem nodup_of_impact {log : List PipelineEvent} (hDistinct : (log.map PipelineEvent.eventId).Nodup)
    (h : ∀ query : ImpactQuery, (mentions query.metadataRef log).take query.limit.value = impactOf log query) :
    ∀ event ∈ log, event.metadataRefs.Nodup := by
  intro event hEvent
  rw [List.nodup_iff_count_le_one]
  intro metadataRef
  -- with a limit beyond both lists the answer is all entries, and on the other side each event once
  let limit := (mentions metadataRef log).length + log.length + 1
  have hAll := h ⟨metadataRef, limit, Nat.succ_pos _⟩
  have hEntries : (mentions metadataRef log).take limit = mentions metadataRef log :=
    List.take_of_length_le (by omega)
  have hEvents : impactOf log ⟨metadataRef, limit, Nat.succ_pos _⟩ =
      log.filter fun event => metadataRef ∈ event.metadataRefs := by
    refine List.take_of_length_le ((List.length_filter_le _ _).trans ?_)
    dsimp only [limit]
    omega
  have hOnce : (mentions metadataRef log).Nodup := by
    have hEq : mentions metadataRef log = log.filter fun event => metadataRef ∈ event.metadataRefs :=
      hEntries.symm.trans (hAll.trans hEvents)
    rw [hEq]
    exact (List.Nodup.of_map _ hDistinct).filter _
  exact List.nodup_replicate.mp (hOnce.sublist (replicate_sublist_mentions hEvent))

/-! ## References of instances -/

theorem nodup_foldl_push {refs seen : List MetadataRef} (h : seen.Nodup) :
    (refs.foldl (fun refs metadataRef => if metadataRef ∈ refs then refs else refs ++ [metadataRef]) seen).Nodup := by
  induction refs generalizing seen with
  | nil => exact h
  | cons metadataRef refs ih =>
    rw [List.foldl_cons]
    split
    · exact ih h
    · rename_i hNew
      exact ih (h.append (List.nodup_singleton _) (by simpa using hNew))

theorem ProcessInstanceState.nodup_metadataRefs_apply {state : ProcessInstanceState} (h : state.metadataRefs.Nodup)
    (event : PipelineEvent) : (state.apply event).metadataRefs.Nodup := by
  rw [apply]
  split
  · exact h
  · have hTerminal : state.isTerminal = (state.applyCommon event).isTerminal := rfl
    rw [hTerminal, (applyKind_fields (state.applyCommon event) event).2.2.2.2.2]
    exact nodup_foldl_push h

/-- An instance takes over what its first event repeats and repeats nothing itself. -/
theorem nodup_metadataRefs_reduceEvents {events : List PipelineEvent}
    (h : ∀ event ∈ events, event.metadataRefs.Nodup) {state : ProcessInstanceState}
    (hState : reduceEvents events = some state) : state.metadataRefs.Nodup := by
  induction events using List.reverseRecOn generalizing state with
  | nil => cases hState
  | append_singleton events event ih =>
    rw [reduceEvents_concat] at hState
    obtain rfl := Option.some.inj hState
    refine ProcessInstanceState.nodup_metadataRefs_apply ?_ event
    cases hEarlier : reduceEvents events with
    | none => exact h event (List.mem_append_right _ (List.mem_singleton_self _))
    | some earlier => exact ih (fun other hOther => h other (List.mem_append_left _ hOther)) hEarlier

/-! ## Events without repeated references -/

/-- Impact answers list the first events with the reference, and no snapshot repeats a reference. -/
def NoRepeats (index : HotIndex) (log : List PipelineEvent) : Prop :=
  (∀ query : ImpactQuery, index.impact query = impactOf log query) ∧
    ∀ id snapshot, index.processInstance id = some snapshot → snapshot.metadataRefs.Nodup

/-- There are no repeats exactly when no accepted event repeats a reference. -/
theorem noRepeats_iff (ingested : List PipelineEvent) :
    NoRepeats (HotIndex.new.ingestAll ingested) (returnedAccepted .new ingested) ↔
      ∀ event ∈ acceptedLog ingested, event.metadataRefs.Nodup := by
  have hIndexes := HotIndex.indexes_ingestAll ingested
  rw [returnedAccepted_eq]
  constructor
  · rintro ⟨hImpact, -⟩
    exact nodup_of_impact hIndexes.distinct fun query => (hIndexes.impact_eq query).symm.trans (hImpact query)
  · intro hNodup
    refine ⟨fun query => ?_, fun id snapshot hSnapshot => ?_⟩
    · rw [hIndexes.impact_eq, mentions_of_nodup hNodup, impactOf]
    · rw [hIndexes.processInstance_eq, Option.map_eq_some_iff] at hSnapshot
      obtain ⟨state, hState, rfl⟩ := hSnapshot
      exact nodup_metadataRefs_reduceEvents (fun event hEvent => hNodup event (List.mem_of_mem_filter hEvent)) hState

def orders : MetadataRef := .dataset ⟨"orders"⟩

/-- An event that lists a data set twice. -/
def repeatingEvent : PipelineEvent :=
  (PipelineEvent.new ⟨"event-1"⟩ ⟨"durga"⟩ 1 ⟨"tenant"⟩ ⟨"prod"⟩ ⟨"invoice"⟩ ⟨"definition"⟩ ⟨"instance-1"⟩
    ⟨"2026-06-20T10:00:00Z"⟩ .processStarted).withMetadataRefs [orders, orders]

/-- The event is answered twice, and its instance has the reference twice. -/
theorem repeated_reference_answered_twice :
    (HotIndex.new.ingestAll [repeatingEvent]).impact ⟨orders, .new 10⟩ = [repeatingEvent, repeatingEvent] ∧
      ((HotIndex.new.ingestAll [repeatingEvent]).processInstance ⟨"instance-1"⟩).map
        ProcessInstanceSnapshot.metadataRefs = some [orders, orders] ∧
      ¬∀ ingested, NoRepeats (HotIndex.new.ingestAll ingested) (returnedAccepted .new ingested) := by
  have hImpact : (HotIndex.new.ingestAll [repeatingEvent]).impact ⟨orders, .new 10⟩ =
      [repeatingEvent, repeatingEvent] := by decide +kernel
  refine ⟨hImpact, by decide +kernel, fun hAll => ?_⟩
  have hOnce := (hAll [repeatingEvent]).1 ⟨orders, .new 10⟩
  rw [hImpact] at hOnce
  have hListed : impactOf (returnedAccepted .new [repeatingEvent]) ⟨orders, .new 10⟩ = [repeatingEvent] := by
    decide +kernel
  rw [hListed] at hOnce
  cases hOnce

end Vannak.Process
