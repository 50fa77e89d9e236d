import Vannak.Process.Chronology

/-!
# Duplicates in the hot index

An event whose id is known changes nothing but a counter. So an index is determined, up to
that counter, by the events it has seen without the repetitions.
-/

namespace Vannak.Process.HotIndex

open Foundation

set_option autoImplicit false

theorem ingest_eq_duplicate_iff (index : HotIndex) (event : PipelineEvent) :
    (index.ingest event).1 = .ok .duplicate ↔
      event.validate = .ok () ∧ event.eventId ∈ index.eventsById := by
  rw [ingest]
  cases event.validate with
  | error error => simp
  | ok =>
    by_cases hKnown : event.eventId ∈ index.eventsById
    · simp [hKnown]
    · simp [hKnown]

theorem mem_eventsById_ingest (index : HotIndex) (event : PipelineEvent) (id : EventId) :
    id ∈ (index.ingest event).2.eventsById ↔
      id ∈ index.eventsById ∨ event.validate = .ok () ∧ event.eventId = id := by
  rw [ingest]
  cases event.validate with
  | error error => simp
  | ok =>
    by_cases hKnown : event.eventId ∈ index.eventsById
    · simp only [if_pos hKnown, true_and]
      exact ⟨.inl, fun hMem => hMem.elim (fun hMem => hMem) fun hSame => hSame ▸ hKnown⟩
    · simp only [if_neg hKnown, true_and]
      rw [Std.ExtTreeMap.mem_insert, Std.compare_eq_iff_eq]
      exact or_comm

/-! ## Up to the duplicate counter -/

def withoutDuplicates (index : HotIndex) : HotIndex := { index with duplicateEvents := 0 }

theorem withoutDuplicates_ingest (index : HotIndex) (event : PipelineEvent) :
    (index.withoutDuplicates.ingest event).2.withoutDuplicates = (index.ingest event).2.withoutDuplicates := by
  rw [ingest, ingest]
  cases event.validate with
  | error error => rfl
  | ok =>
    by_cases hKnown : event.eventId ∈ index.eventsById
    · have hSame : event.eventId ∈ index.withoutDuplicates.eventsById := hKnown
      simp only [if_pos hKnown, if_pos hSame]
      rfl
    · have hSame : event.eventId ∉ index.withoutDuplicates.eventsById := hKnown
      simp only [if_neg hKnown, if_neg hSame]
      rfl

theorem withoutDuplicates_ingest_congr {left right : HotIndex}
    (h : left.withoutDuplicates = right.withoutDuplicates) (event : PipelineEvent) :
    (left.ingest event).2.withoutDuplicates = (right.ingest event).2.withoutDuplicates := by
  rw [← withoutDuplicates_ingest, h, withoutDuplicates_ingest]

theorem withoutDuplicates_ingest_of_mem {index : HotIndex} {event : PipelineEvent}
    (hValid : event.validate = .ok ()) (h : event.eventId ∈ index.eventsById) :
    (index.ingest event).2.withoutDuplicates = index.withoutDuplicates := by
  rw [ingest, hValid]
  simp only [if_pos h]
  rfl

theorem ingestAll_concat (index : HotIndex) (events : List PipelineEvent) (event : PipelineEvent) :
    index.ingestAll (events ++ [event]) = ((index.ingestAll events).ingest event).2 :=
  List.foldl_concat ..

theorem view_ingestAll (index : HotIndex) (events : List PipelineEvent) :
    (index.ingestAll events).view = index.view.ingestAll events := by
  induction events generalizing index with
  | nil => rfl
  | cons event events ih =>
    have hNext := ih (index.ingest event).2
    rwa [view_ingest] at hNext

/-- The valid events that were ingested are known. -/
theorem mem_eventsById_ingestAll {events : List PipelineEvent} {event : PipelineEvent}
    (hValid : event.validate = .ok ()) (h : event ∈ events) (index : HotIndex) :
    event.eventId ∈ (index.ingestAll events).eventsById := by
  induction events using List.reverseRecOn with
  | nil => exact absurd h List.not_mem_nil
  | append_singleton events last ih =>
    rw [ingestAll_concat, mem_eventsById_ingest]
    rcases List.mem_append.mp h with h | h
    · exact .inl (ih h)
    · rw [List.mem_singleton] at h
      subst h
      exact .inr ⟨hValid, rfl⟩

end Vannak.Process.HotIndex
