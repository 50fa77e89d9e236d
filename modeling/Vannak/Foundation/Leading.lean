import Mathlib

/-!
# The leading part of a sorted list

In a list sorted by rank, the elements in front of the first that fails a test are those
below some rank. The last of them says how far everything has passed.
-/

namespace Vannak.Foundation

set_option autoImplicit false

section Leading

variable {α β : Type} [LinearOrder β] {rank : α → β} {passes : α → Bool} {list : List α}

/-- `into_iter().take_while(passes).last()`. -/
def lastLeading (passes : α → Bool) (list : List α) : Option α := (list.takeWhile passes).getLast?

theorem lastLeading_eq_some (hSorted : list.Pairwise fun left right => rank left < rank right) {element : α}
    (h : lastLeading passes list = some element) :
    element ∈ list ∧ (∀ other ∈ list, rank other ≤ rank element → passes other) ∧
      ∀ other ∈ list, rank element < rank other →
        (∀ third ∈ list, rank element < rank third → rank other ≤ rank third) → ¬passes other := by
  obtain ⟨before, hBefore⟩ := List.getLast?_eq_some_iff.mp h
  have hSplit : list = before ++ [element] ++ list.dropWhile passes := by
    rw [← hBefore, List.takeWhile_append_dropWhile]
  have hElement : element ∈ list := by
    rw [hSplit]
    simp
  rw [hSplit, List.pairwise_append] at hSorted
  obtain ⟨hLeading, hRest, hAcross⟩ := hSorted
  have hAbove : ∀ other ∈ list.dropWhile passes, rank element < rank other :=
    fun other hOther => hAcross element (by simp) other hOther
  have hBelow : ∀ other ∈ before ++ [element], rank other ≤ rank element := by
    intro other hOther
    rcases List.mem_append.mp hOther with hOther | hOther
    · exact ((List.pairwise_append.mp hLeading).2.2 other hOther element (by simp)).le
    · rw [List.mem_singleton.mp hOther]
  refine ⟨hElement, fun other hOther hLe => ?_, fun other hOther hLt hLeast => ?_⟩
  · rw [hSplit] at hOther
    rcases List.mem_append.mp hOther with hOther | hOther
    · exact List.mem_takeWhile_imp (hBefore ▸ hOther)
    · exact absurd (hAbove other hOther) (not_lt.mpr hLe)
  · have hOtherRest : other ∈ list.dropWhile passes := by
      rw [hSplit] at hOther
      exact (List.mem_append.mp hOther).resolve_left fun hMem => absurd hLt (not_lt.mpr (hBelow other hMem))
    cases hDrop : list.dropWhile passes with
    | nil =>
      rw [hDrop] at hOtherRest
      exact absurd hOtherRest List.not_mem_nil
    | cons first rest =>
      have hFirst : ¬passes first := by
        have hHead := List.head_dropWhile_not passes (by rw [hDrop]; exact List.cons_ne_nil first rest)
        simpa [hDrop] using hHead
      have hFirstMem : first ∈ list := by
        rw [hSplit, hDrop]
        simp
      have hFirstRest : first ∈ list.dropWhile passes := by
        rw [hDrop]
        exact List.mem_cons_self
      rw [hDrop] at hOtherRest hRest
      rcases List.mem_cons.mp hOtherRest with rfl | hLater
      · exact hFirst
      · have hLess := (List.pairwise_cons.mp hRest).1 other hLater
        exact absurd (hLeast first hFirstMem (hAbove first hFirstRest)) (not_le.mpr hLess)

theorem lastLeading_eq_none (hSorted : list.Pairwise fun left right => rank left < rank right) :
    lastLeading passes list = none ↔
      list = [] ∨ ∃ first ∈ list, (∀ other ∈ list, rank first ≤ rank other) ∧ ¬passes first := by
  cases list with
  | nil => simp [lastLeading]
  | cons head rest =>
    have hHead := (List.pairwise_cons.mp hSorted).1
    rw [lastLeading, List.getLast?_eq_none_iff, List.takeWhile_cons]
    constructor
    · intro h
      refine .inr ⟨head, List.mem_cons_self, fun other hOther => ?_, fun hPasses => ?_⟩
      · rcases List.mem_cons.mp hOther with rfl | hOther
        · exact le_refl _
        · exact (hHead other hOther).le
      · rw [if_pos hPasses] at h
        cases h
    · rintro (hNil | ⟨first, hFirst, hLeast, hFails⟩)
      · cases hNil
      · rcases List.mem_cons.mp hFirst with rfl | hFirst
        · rw [if_neg hFails]
        · exact absurd (hHead first hFirst) (not_lt.mpr (hLeast head List.mem_cons_self))

end Leading

end Vannak.Foundation
