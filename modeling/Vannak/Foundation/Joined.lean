import Mathlib

/-!
# Texts joined by a separator

`format!("{}:{}", left, right)` keeps its two parts apart only if the separator cannot
occur in them. Two joins of different parts are the same text exactly when one left part
reaches over a separator into the other's right part.
-/

namespace Vannak.Foundation

set_option autoImplicit false

section Lists

variable {α : Type} {separator : α}

/-- The second pair has moved a part and its separator from right to left. -/
def ShiftedBy (separator : α) (left right : List α × List α) : Prop :=
  ∃ part, right.1 = left.1 ++ separator :: part ∧ left.2 = part ++ separator :: right.2

theorem join_eq_join_iff (left right : List α × List α) :
    left.1 ++ separator :: left.2 = right.1 ++ separator :: right.2 ↔
      left = right ∨ ShiftedBy separator left right ∨ ShiftedBy separator right left := by
  obtain ⟨first, second⟩ := left
  obtain ⟨other, rest⟩ := right
  constructor
  · intro h
    rcases List.append_eq_append_iff.mp h with ⟨middle, hOther, hMiddle⟩ | ⟨middle, hFirst, hMiddle⟩
    · cases middle with
      | nil =>
        rw [List.append_nil] at hOther
        exact .inl (Prod.ext hOther.symm (List.cons.inj hMiddle).2)
      | cons head part =>
        obtain ⟨rfl, hSecond⟩ := List.cons.inj hMiddle
        exact .inr (.inl ⟨part, hOther, hSecond⟩)
    · cases middle with
      | nil =>
        rw [List.append_nil] at hFirst
        exact .inl (Prod.ext hFirst (List.cons.inj hMiddle).2.symm)
      | cons head part =>
        obtain ⟨rfl, hRest⟩ := List.cons.inj hMiddle
        exact .inr (.inr ⟨part, hFirst, hRest⟩)
  · rintro (hSame | ⟨part, hOther, hSecond⟩ | ⟨part, hFirst, hRest⟩)
    · rw [hSame]
    · dsimp only at hOther hSecond ⊢
      rw [hOther, hSecond, List.append_assoc, List.cons_append]
    · dsimp only at hFirst hRest ⊢
      rw [hFirst, hRest, List.append_assoc, List.cons_append]

/-- A right part without the separator is what stands behind the last one. -/
theorem join_inj_of_not_mem {left right : List α × List α} (hLeft : separator ∉ left.2)
    (hRight : separator ∉ right.2)
    (h : left.1 ++ separator :: left.2 = right.1 ++ separator :: right.2) : left = right := by
  rcases (join_eq_join_iff left right).mp h with hSame | ⟨part, -, hSecond⟩ | ⟨part, -, hSecond⟩
  · exact hSame
  · exact absurd (hSecond ▸ List.mem_append_right part List.mem_cons_self) hLeft
  · exact absurd (hSecond ▸ List.mem_append_right part List.mem_cons_self) hRight

end Lists

/-- The second pair of texts has moved a part and its colon from right to left. -/
def Shifted (left right : String × String) : Prop :=
  ∃ part, right.1 = left.1 ++ ":" ++ part ∧ left.2 = part ++ ":" ++ right.2

theorem toList_colon (left right : String) :
    (left ++ ":" ++ right).toList = left.toList ++ ':' :: right.toList := by
  rw [String.toList_append, String.toList_append, List.append_assoc]
  rfl

theorem shifted_iff (left right : String × String) :
    Shifted left right ↔
      ShiftedBy ':' (left.1.toList, left.2.toList) (right.1.toList, right.2.toList) := by
  constructor
  · rintro ⟨part, hOther, hSecond⟩
    exact ⟨part.toList, by rw [hOther, toList_colon], by rw [hSecond, toList_colon]⟩
  · rintro ⟨part, hOther, hSecond⟩
    refine ⟨String.ofList part, ?_, ?_⟩
    · apply String.toList_inj.mp
      rw [toList_colon, String.toList_ofList]
      exact hOther
    · apply String.toList_inj.mp
      rw [toList_colon, String.toList_ofList]
      exact hSecond

theorem colon_eq_colon_iff (left right : String × String) :
    left.1 ++ ":" ++ left.2 = right.1 ++ ":" ++ right.2 ↔
      left = right ∨ Shifted left right ∨ Shifted right left := by
  rw [← String.toList_inj, toList_colon, toList_colon, shifted_iff, shifted_iff,
    join_eq_join_iff (left.1.toList, left.2.toList) (right.1.toList, right.2.toList), Prod.mk.injEq,
    String.toList_inj, String.toList_inj, ← Prod.ext_iff]

/-- A first part without a colon is kept whole. -/
theorem colon_eq_colon_of_not_mem {head : String} (h : ':' ∉ head.toList) (tail part rest : String) :
    head ++ ":" ++ tail = part ++ ":" ++ rest ↔
      part = head ∧ tail = rest ∨ ∃ middle, part = head ++ ":" ++ middle ∧ tail = middle ++ ":" ++ rest := by
  rw [colon_eq_colon_iff (head, tail) (part, rest), Prod.mk.injEq]
  constructor
  · rintro (⟨hHead, hTail⟩ | hShifted | ⟨middle, hHead, -⟩)
    · exact .inl ⟨hHead.symm, hTail⟩
    · exact .inr hShifted
    · dsimp only at hHead
      rw [hHead, toList_colon] at h
      exact absurd (List.mem_append_right _ List.mem_cons_self) h
  · rintro (⟨rfl, rfl⟩ | hShifted)
    · exact .inl ⟨rfl, rfl⟩
    · exact .inr (.inl hShifted)

end Vannak.Foundation
