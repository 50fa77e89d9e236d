import Mathlib

/-!
# Histories in which an event blocks later ones

An event of a history may forbid later events until another one releases it. Such a rule is checked as the
history grows: the next event must not be blocked by one that still stands.
-/

namespace Vannak.Foundation

set_option autoImplicit false

variable {α : Type} {blocks releases : α → α → Prop} {history : List α}

/-- Between an event and a later one that it blocks there is one that releases it. -/
def Guarded (blocks releases : α → α → Prop) (history : List α) : Prop :=
  ∀ before earlier between later after, history = before ++ earlier :: (between ++ later :: after) →
    blocks earlier later → ∃ event ∈ between, releases earlier event

/-- The event happened and nothing has released it since. -/
def Standing (releases : α → α → Prop) (history : List α) (earlier : α) : Prop :=
  ∃ before after, history = before ++ earlier :: after ∧ ∀ event ∈ after, ¬releases earlier event

theorem concat_eq_append_cons {next earlier : α} {before after : List α}
    (h : history ++ [next] = before ++ earlier :: after) :
    (after = [] ∧ earlier = next ∧ before = history) ∨
      ∃ rest, after = rest ++ [next] ∧ history = before ++ earlier :: rest := by
  rcases List.eq_nil_or_concat after with rfl | ⟨rest, last, rfl⟩
  · obtain ⟨hBefore, hNext⟩ := List.append_inj' h rfl
    exact .inl ⟨rfl, (List.singleton_inj.mp hNext).symm, hBefore.symm⟩
  · rw [List.concat_eq_append, ← List.cons_append, ← List.append_assoc] at h
    obtain ⟨hHistory, hNext⟩ := List.append_inj' h rfl
    rw [List.concat_eq_append, List.singleton_inj.mp hNext]
    exact .inr ⟨rest, rfl, hHistory⟩

theorem not_standing_nil (earlier : α) : ¬Standing releases [] earlier := by
  rintro ⟨before, after, hEmpty, -⟩
  exact List.append_ne_nil_of_right_ne_nil before (List.cons_ne_nil _ _) hEmpty.symm

theorem standing_concat {next earlier : α} :
    Standing releases (history ++ [next]) earlier ↔
      earlier = next ∨ Standing releases history earlier ∧ ¬releases earlier next := by
  constructor
  · rintro ⟨before, after, hSplit, hStands⟩
    rcases concat_eq_append_cons hSplit with ⟨-, hNext, -⟩ | ⟨rest, rfl, hHistory⟩
    · exact .inl hNext
    · exact .inr ⟨⟨before, rest, hHistory, fun event hEvent => hStands event (List.mem_append_left _ hEvent)⟩,
        hStands next (List.mem_append_right _ (List.mem_singleton_self _))⟩
  · rintro (rfl | ⟨⟨before, after, rfl, hStands⟩, hNext⟩)
    · exact ⟨history, [], rfl, fun event hEvent => by cases hEvent⟩
    · refine ⟨before, after ++ [next], by simp, fun event hEvent => ?_⟩
      rcases List.mem_append.mp hEvent with hEvent | hEvent
      · exact hStands event hEvent
      · rwa [List.mem_singleton.mp hEvent]

namespace Guarded

theorem nil : Guarded blocks releases [] := by
  intro before earlier between later after hEmpty
  exact absurd hEmpty.symm (List.append_ne_nil_of_right_ne_nil before (List.cons_ne_nil _ _))

theorem concat (h : Guarded blocks releases history) {next : α}
    (hNext : ∀ earlier, Standing releases history earlier → ¬blocks earlier next) :
    Guarded blocks releases (history ++ [next]) := by
  intro before earlier between later after hSplit hBlocks
  rcases concat_eq_append_cons hSplit with ⟨hNil, -, -⟩ | ⟨rest, hRest, hHistory⟩
  · exact absurd hNil (List.append_ne_nil_of_right_ne_nil between (List.cons_ne_nil _ _))
  · rcases concat_eq_append_cons hRest.symm with ⟨-, rfl, rfl⟩ | ⟨others, -, rfl⟩
    · -- the blocked event is the new one, so that its blocker must have been released
      by_contra hNone
      refine hNext earlier ⟨before, between, hHistory, fun event hEvent hReleases => ?_⟩ hBlocks
      exact hNone ⟨event, hEvent, hReleases⟩
    · exact h before earlier between later others hHistory hBlocks

/-- An event that nothing releases leaves no later event that it blocks. -/
theorem not_blocks (h : Guarded blocks releases history) {before after : List α} {earlier later : α}
    (hSplit : history = before ++ earlier :: after) (hReleases : ∀ event ∈ after, ¬releases earlier event)
    (hLater : later ∈ after) : ¬blocks earlier later := by
  intro hBlocks
  obtain ⟨between, rest, rfl⟩ := List.append_of_mem hLater
  obtain ⟨event, hEvent, hRelease⟩ := h before earlier between later rest hSplit hBlocks
  exact hReleases event (List.mem_append_left _ hEvent) hRelease

end Guarded

end Vannak.Foundation
