import Mathlib

/-!
# Stable sorting by a key

Sorting that leaves items with one key in their order. Only one list is sorted and has the items of every key in this
order, whichever way it was made.
-/

namespace Vannak.Foundation

set_option autoImplicit false

variable {α κ : Type} [LinearOrder κ] (key : α → κ)

def sortByKey (items : List α) : List α := items.insertionSort fun left right => key left ≤ key right

theorem sortByKey_sorted (items : List α) :
    (sortByKey key items).Pairwise fun left right => key left ≤ key right := by
  have : IsTrans α fun left right => key left ≤ key right := ⟨fun _ _ _ => le_trans⟩
  have : Std.Total fun left right : α => key left ≤ key right := ⟨fun _ _ => le_total _ _⟩
  exact List.pairwise_insertionSort _ items

theorem filter_orderedInsert (keeps : α → Bool) (item : α) {rows : List α}
    (hSorted : rows.Pairwise fun left right => key left ≤ key right) :
    (rows.orderedInsert (fun left right => key left ≤ key right) item).filter keeps =
      if keeps item then (rows.filter keeps).orderedInsert (fun left right => key left ≤ key right) item
      else rows.filter keeps := by
  induction rows with
  | nil => rw [List.orderedInsert_nil, List.filter_cons, List.filter_nil, List.orderedInsert_nil]
  | cons row rows ih =>
    obtain ⟨hRow, hRows⟩ := List.pairwise_cons.mp hSorted
    rw [List.orderedInsert_cons]
    by_cases hFirst : key item ≤ key row
    · rw [if_pos hFirst, List.filter_cons]
      refine if_congr Iff.rfl ?_ rfl
      -- the item goes before all that is kept
      cases hKept : (row :: rows).filter keeps with
      | nil => rfl
      | cons first rest =>
        have hMem : first ∈ row :: rows := List.mem_of_mem_filter (hKept ▸ List.mem_cons_self)
        rw [List.orderedInsert_cons_of_le]
        rcases List.mem_cons.mp hMem with rfl | hMem
        · exact hFirst
        · exact hFirst.trans (hRow first hMem)
    · rw [if_neg hFirst, List.filter_cons, ih hRows, List.filter_cons]
      by_cases hKeeps : keeps row = true
      · rw [if_pos hKeeps, if_pos hKeeps]
        split
        · rw [List.orderedInsert_cons, if_neg hFirst]
        · rfl
      · rw [if_neg hKeeps, if_neg hKeeps]

/-- Sorting is stable: what is kept is sorted as it would be alone. -/
theorem filter_sortByKey (keeps : α → Bool) (items : List α) :
    (sortByKey key items).filter keeps = sortByKey key (items.filter keeps) := by
  induction items with
  | nil => rfl
  | cons item items ih =>
    rw [sortByKey, List.insertionSort_cons, ← sortByKey,
      filter_orderedInsert key keeps item (sortByKey_sorted key items), ih, List.filter_cons]
    split
    · rw [sortByKey, sortByKey, List.insertionSort_cons]
    · rfl

theorem head?_sortByKey (items : List α) : (sortByKey key items).head? = items.argmin key := by
  induction items with
  | nil => rfl
  | cons item items ih =>
    rw [sortByKey, List.insertionSort_cons, ← sortByKey, List.argmin_cons, ← ih]
    cases sortByKey key items with
    | nil => rfl
    | cons row rows =>
      rw [List.orderedInsert_cons, List.head?_cons]
      by_cases hFirst : key item ≤ key row
      · simp [hFirst, not_lt.mpr hFirst]
      · simp [hFirst, not_le.mp hFirst]

/-! ## Sorted lists with the items of each key in order -/

theorem pairwise_filter_key (items : List α) (value : κ) :
    (items.filter (key · = value)).Pairwise fun left right => key left ≤ key right := by
  have hKey : ∀ item ∈ items.filter (key · = value), key item = value :=
    fun item hItem => of_decide_eq_true (List.mem_filter.mp hItem).2
  exact List.pairwise_of_forall_mem_list fun left hLeft right hRight =>
    (hKey left hLeft).trans_le (hKey right hRight).ge

theorem filter_key_sortByKey (items : List α) (value : κ) :
    (sortByKey key items).filter (key · = value) = items.filter (key · = value) := by
  rw [filter_sortByKey, sortByKey]
  exact (pairwise_filter_key key items value).insertionSort_eq

theorem eq_of_filter_key {first second : List α} (hFirst : first.Pairwise fun left right => key left ≤ key right)
    (hSecond : second.Pairwise fun left right => key left ≤ key right)
    (h : ∀ value, first.filter (key · = value) = second.filter (key · = value)) : first = second := by
  have hMem : ∀ item, item ∈ first ↔ item ∈ second := by
    intro item
    have hSame := congrArg (item ∈ ·) (h (key item))
    simpa [List.mem_filter] using hSame
  induction first generalizing second with
  | nil =>
    refine (List.eq_nil_iff_forall_not_mem.mpr fun item hItem => ?_).symm
    exact List.not_mem_nil ((hMem item).mpr hItem)
  | cons left first ih =>
    cases second with
    | nil => exact absurd ((hMem left).mp List.mem_cons_self) List.not_mem_nil
    | cons right second =>
      obtain ⟨hLeft, hFirstTail⟩ := List.pairwise_cons.mp hFirst
      obtain ⟨hRight, hSecondTail⟩ := List.pairwise_cons.mp hSecond
      have hKey : key left = key right := by
        refine le_antisymm ?_ ?_
        · rcases List.mem_cons.mp ((hMem right).mpr List.mem_cons_self) with rfl | hOld
          · exact le_refl _
          · exact hLeft right hOld
        · rcases List.mem_cons.mp ((hMem left).mp List.mem_cons_self) with rfl | hOld
          · exact le_refl _
          · exact hRight left hOld
      have hHeads := h (key left)
      rw [List.filter_cons_of_pos (by simp), List.filter_cons_of_pos (by simp [hKey])] at hHeads
      obtain ⟨rfl, -⟩ := List.cons.inj hHeads
      have hTails : ∀ value, first.filter (key · = value) = second.filter (key · = value) := by
        intro value
        have hValue := h value
        rw [List.filter_cons, List.filter_cons] at hValue
        split at hValue
        · exact (List.cons.inj hValue).2
        · exact hValue
      refine congrArg (left :: ·) (ih hFirstTail hSecondTail hTails fun item => ?_)
      have hSame := congrArg (item ∈ ·) (hTails (key item))
      simpa [List.mem_filter] using hSame

theorem flatMap_ite_eq {keys : List κ} (hKeys : keys.Nodup) (value : κ) (items : List α) :
    (keys.flatMap fun other => if other = value then items else []) = if value ∈ keys then items else [] := by
  induction keys with
  | nil => rfl
  | cons first keys ih =>
    obtain ⟨hFirst, hRest⟩ := List.nodup_cons.mp hKeys
    rw [List.flatMap_cons, ih hRest]
    by_cases hSame : first = value
    · subst hSame
      simp [hFirst]
    · simp [hSame, Ne.symm hSame]

/-- The groups of equal keys, one after another in the order of the keys. -/
theorem flatMap_filter_eq_sortByKey {keys : List κ} (hKeys : keys.Pairwise (· < ·)) {items : List α}
    (hCovers : ∀ item ∈ items, key item ∈ keys) :
    (keys.flatMap fun value => items.filter (key · = value)) = sortByKey key items := by
  refine eq_of_filter_key key ?_ (sortByKey_sorted key items) fun value => ?_
  · rw [List.pairwise_flatMap]
    refine ⟨fun value _ => pairwise_filter_key key items value, hKeys.imp fun hLess left hLeft right hRight => ?_⟩
    rw [of_decide_eq_true (List.mem_filter.mp hLeft).2, of_decide_eq_true (List.mem_filter.mp hRight).2]
    exact hLess.le
  · have hGroup : ∀ other, (items.filter (key · = other)).filter (key · = value) =
        if other = value then items.filter (key · = value) else [] := by
      intro other
      split
      · rename_i hSame
        rw [hSame, List.filter_filter]
        simp
      · rename_i hOther
        rw [List.filter_filter, List.filter_eq_nil_iff]
        intro item _ hBoth
        obtain ⟨hValue, hKey⟩ := (Bool.and_eq_true _ _).mp hBoth
        exact hOther ((of_decide_eq_true hKey).symm.trans (of_decide_eq_true hValue))
    rw [filter_key_sortByKey, List.filter_flatMap]
    simp only [hGroup]
    rw [flatMap_ite_eq (hKeys.imp fun hLess => hLess.ne) value]
    split
    · rfl
    · rename_i hMissing
      refine (List.filter_eq_nil_iff.mpr fun item hItem hKey => hMissing ?_).symm
      exact of_decide_eq_true hKey ▸ hCovers item hItem

end Vannak.Foundation
