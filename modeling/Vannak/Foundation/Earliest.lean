import Vannak.Foundation.Sorting

/-!
# The first items of a sorted list

Which items can be left out before sorting without changing the first ones: those that enough others precede, and
what no item within the limit comes after.
-/

namespace Vannak.Foundation

set_option autoImplicit false

variable {α κ : Type} [LinearOrder κ] (key : α → κ)

theorem sortByKey_perm (items : List α) : (sortByKey key items).Perm items := List.perm_insertionSort _ items

theorem length_sortByKey (items : List α) : (sortByKey key items).length = items.length :=
  (sortByKey_perm key items).length_eq

theorem mem_sortByKey {items : List α} {item : α} : item ∈ sortByKey key items ↔ item ∈ items :=
  (sortByKey_perm key items).mem_iff

theorem sortByKey_append {first second : List α}
    (h : ∀ left ∈ first, ∀ right ∈ second, key left ≤ key right) :
    sortByKey key (first ++ second) = sortByKey key first ++ sortByKey key second := by
  refine eq_of_filter_key key (sortByKey_sorted key _) ?_ fun value => ?_
  · refine List.pairwise_append.mpr ⟨sortByKey_sorted key first, sortByKey_sorted key second, ?_⟩
    exact fun left hLeft right hRight => h left ((mem_sortByKey key).mp hLeft) right ((mem_sortByKey key).mp hRight)
  · rw [filter_key_sortByKey, List.filter_append, List.filter_append, filter_key_sortByKey, filter_key_sortByKey]

/-- Sorting a part of the list first changes nothing. -/
theorem sortByKey_flatMap_sortByKey {σ : Type} (groups : List σ) (items : σ → List α) :
    sortByKey key (groups.flatMap fun group => sortByKey key (items group)) =
      sortByKey key (groups.flatMap items) := by
  refine eq_of_filter_key key (sortByKey_sorted key _) (sortByKey_sorted key _) fun value => ?_
  rw [filter_key_sortByKey, filter_key_sortByKey, List.filter_flatMap, List.filter_flatMap]
  simp only [filter_key_sortByKey]

/-- `mergeSort` is the same stable sort. -/
theorem mergeSort_eq_sortByKey (items : List α) :
    (items.mergeSort fun left right => decide (key left ≤ key right)) = sortByKey key items := by
  have hTrans : ∀ left middle right : α, decide (key left ≤ key middle) = true →
      decide (key middle ≤ key right) = true → decide (key left ≤ key right) = true := by
    simp only [decide_eq_true_eq]
    exact fun _ _ _ => le_trans
  have hTotal : ∀ left right : α, (decide (key left ≤ key right) || decide (key right ≤ key left)) = true := by
    simp only [Bool.or_eq_true, decide_eq_true_eq]
    exact fun left right => le_total _ _
  refine eq_of_filter_key key ?_ (sortByKey_sorted key items) fun value => ?_
  · exact (List.pairwise_mergeSort hTrans hTotal items).imp fun h => of_decide_eq_true h
  · -- the items with one key are a sorted part of the list, and all of them are in the sorted list
    have hPart : (items.filter (key · = value)).Sublist
        (items.mergeSort fun left right => decide (key left ≤ key right)) :=
      List.sublist_mergeSort hTrans hTotal
        ((pairwise_filter_key key items value).imp fun h => decide_eq_true h) List.filter_sublist
    have hAll := hPart.filter (key · = value)
    rw [List.filter_filter] at hAll
    simp only [Bool.and_self] at hAll
    rw [filter_key_sortByKey]
    exact (hAll.eq_of_length (((List.mergeSort_perm items _).filter _).length_eq).symm).symm

/-! ## Items that others precede -/

theorem filter_key_filter (keeps : κ → Bool) (items : List α) (value : κ) :
    (items.filter fun item => keeps (key item)).filter (key · = value) =
      if keeps value then items.filter (key · = value) else [] := by
  rw [List.filter_filter]
  split
  · rename_i hKeeps
    refine List.filter_congr fun item _ => ?_
    by_cases hKey : key item = value
    · simp [hKey, hKeeps]
    · simp [hKey]
  · rename_i hDrops
    rw [List.filter_eq_nil_iff]
    intro item _ hBoth
    obtain ⟨hKey, hKeeps⟩ := (Bool.and_eq_true _ _).mp hBoth
    exact hDrops (of_decide_eq_true hKey ▸ hKeeps)

/-- Items of one key within a list, in the sorted list between what precedes and what follows them. -/
theorem sortByKey_split (value : κ) {middle : List α} (hMiddle : ∀ item ∈ middle, key item = value)
    (before after : List α) :
    sortByKey key (before ++ (middle ++ after)) =
      sortByKey key (before.filter (key · ≤ value) ++ after.filter (key · < value)) ++
        (middle ++ sortByKey key (before.filter (value < key ·) ++ after.filter (value ≤ key ·))) := by
  have hBelow : ∀ item ∈ sortByKey key (before.filter (key · ≤ value) ++ after.filter (key · < value)),
      key item ≤ value := by
    intro item hItem
    rcases List.mem_append.mp ((mem_sortByKey key).mp hItem) with hBefore | hAfter
    · exact of_decide_eq_true (List.mem_filter.mp hBefore).2
    · exact (of_decide_eq_true (List.mem_filter.mp hAfter).2 : key item < value).le
  have hAbove : ∀ item ∈ sortByKey key (before.filter (value < key ·) ++ after.filter (value ≤ key ·)),
      value ≤ key item := by
    intro item hItem
    rcases List.mem_append.mp ((mem_sortByKey key).mp hItem) with hBefore | hAfter
    · exact (of_decide_eq_true (List.mem_filter.mp hBefore).2 : value < key item).le
    · exact of_decide_eq_true (List.mem_filter.mp hAfter).2
  refine eq_of_filter_key key (sortByKey_sorted key _) ?_ fun other => ?_
  · refine List.pairwise_append.mpr ⟨sortByKey_sorted key _, List.pairwise_append.mpr
      ⟨?_, sortByKey_sorted key _, ?_⟩, ?_⟩
    · exact List.pairwise_of_forall_mem_list fun left hLeft right hRight =>
        ((hMiddle left hLeft).trans (hMiddle right hRight).symm).le
    · exact fun left hLeft right hRight => (hMiddle left hLeft).trans_le (hAbove right hRight)
    · intro left hLeft right hRight
      rcases List.mem_append.mp hRight with hHere | hLater
      · exact (hBelow left hLeft).trans (hMiddle right hHere).ge
      · exact (hBelow left hLeft).trans (hAbove right hLater)
  · have hNone : other ≠ value → middle.filter (key · = other) = [] := by
      intro hOther
      rw [List.filter_eq_nil_iff]
      exact fun item hItem hKey => hOther ((of_decide_eq_true hKey).symm.trans (hMiddle item hItem))
    rw [filter_key_sortByKey, List.filter_append, List.filter_append, List.filter_append, List.filter_append,
      filter_key_sortByKey, filter_key_sortByKey, List.filter_append, List.filter_append,
      filter_key_filter key (fun place => decide (place ≤ value)),
      filter_key_filter key (fun place => decide (place < value)),
      filter_key_filter key (fun place => decide (value < place)),
      filter_key_filter key (fun place => decide (value ≤ place))]
    rcases lt_trichotomy other value with hLess | rfl | hMore
    · simp [hNone hLess.ne, hLess, hLess.le, hLess.not_ge, hLess.not_gt]
    · simp
    · simp [hNone hMore.ne', hMore, hMore.le, hMore.not_ge, hMore.not_gt]

/-- Items that at least `limit` others precede are not among the first `limit`. -/
theorem take_sortByKey_of_preceded {limit : Nat} {before preceded : List α}
    (h : ∀ item ∈ preceded, limit ≤ (before.filter (key · ≤ key item)).length) (after : List α) :
    (sortByKey key (before ++ (preceded ++ after))).take limit = (sortByKey key (before ++ after)).take limit := by
  induction preceded with
  | nil => rfl
  | cons item preceded ih =>
    obtain ⟨hItem, hRest⟩ := List.forall_mem_cons.mp h
    rw [← ih hRest]
    have hSelf : ∀ other ∈ [item], key other = key item :=
      fun other hOther => congrArg key (List.mem_singleton.mp hOther)
    have hWith := sortByKey_split key (key item) hSelf before (preceded ++ after)
    have hWithout := sortByKey_split key (key item) (List.forall_mem_nil _) before (preceded ++ after)
    have hLength : limit ≤ (sortByKey key
        (before.filter (key · ≤ key item) ++ (preceded ++ after).filter (key · < key item))).length := by
      rw [length_sortByKey, List.length_append]
      exact hItem.trans (Nat.le_add_right _ _)
    rw [List.singleton_append] at hWith
    rw [List.nil_append] at hWithout
    rw [List.cons_append, hWith, hWithout, List.take_append_of_le_length hLength,
      List.take_append_of_le_length hLength]

/-- Of each group only the first items count. -/
theorem take_sortByKey_groups {σ : Type} (limit : Nat) (groups : List σ) {items : σ → List α}
    (hSorted : ∀ group, (items group).Pairwise fun left right => key left ≤ key right) (before : List α) :
    (sortByKey key (before ++ groups.flatMap fun group => (items group).take limit)).take limit =
      (sortByKey key (before ++ groups.flatMap items)).take limit := by
  induction groups generalizing before with
  | nil => rfl
  | cons group groups ih =>
    rw [List.flatMap_cons, List.flatMap_cons, ← List.append_assoc, ih, ← List.append_assoc]
    by_cases hShort : (items group).length ≤ limit
    · rw [List.take_of_length_le hShort]
    · have hCut := List.take_append_drop limit (items group)
      have hPair := List.pairwise_append.mp (hCut.symm ▸ hSorted group)
      have hSplit : before ++ items group ++ groups.flatMap items =
          before ++ (items group).take limit ++ ((items group).drop limit ++ groups.flatMap items) := by
        rw [← List.append_assoc, List.append_assoc before ((items group).take limit), hCut]
      rw [hSplit]
      refine (take_sortByKey_of_preceded key (fun item hItem => ?_) _).symm
      have hAll : ((items group).take limit).filter (key · ≤ key item) = (items group).take limit :=
        List.filter_eq_self.mpr fun other hOther => decide_eq_true (hPair.2.2 other hOther item hItem)
      rw [List.filter_append, hAll, List.length_append, List.length_take, min_eq_left (Nat.le_of_not_le hShort)]
      exact Nat.le_add_left _ _

/-! ## Cutting before sorting -/

/-- The first items sorted are the first of all sorted exactly when nothing that is cut off is smaller. -/
theorem sortByKey_take_eq_iff (limit : Nat) (items : List α) :
    sortByKey key (items.take limit) = (sortByKey key items).take limit ↔
      ∀ left ∈ items.take limit, ∀ right ∈ items.drop limit, key left ≤ key right := by
  have hCut := List.take_append_drop limit items
  constructor
  · intro hEq left hLeft right hRight
    -- what is cut off is also what the sorted list has after the limit
    have hRest : ((sortByKey key items).drop limit).Perm (items.drop limit) := by
      have hAll : ((sortByKey key items).take limit ++ (sortByKey key items).drop limit).Perm
          (items.take limit ++ items.drop limit) := by
        rw [hCut, List.take_append_drop]
        exact sortByKey_perm key items
      rw [← hEq] at hAll
      exact (List.perm_append_left_iff _).mp (hAll.trans ((sortByKey_perm key _).append_right _).symm)
    have hSorted := sortByKey_sorted key items
    rw [← List.take_append_drop limit (sortByKey key items)] at hSorted
    refine (List.pairwise_append.mp hSorted).2.2 left ?_ right (hRest.mem_iff.mpr hRight)
    rw [← hEq]
    exact (mem_sortByKey key).mpr hLeft
  · intro h
    have hAppend := sortByKey_append key h
    rw [hCut] at hAppend
    rw [hAppend]
    by_cases hShort : items.length ≤ limit
    · rw [List.drop_of_length_le hShort, List.take_of_length_le hShort]
      simp only [sortByKey, List.insertionSort_nil, List.append_nil]
      refine (List.take_of_length_le ?_).symm
      rw [List.length_insertionSort]
      exact hShort
    · have hLength : (sortByKey key (items.take limit)).length = limit := by
        rw [length_sortByKey, List.length_take, min_eq_left (Nat.le_of_not_le hShort)]
      rw [List.take_append_of_le_length hLength.ge, List.take_of_length_le hLength.le]

end Vannak.Foundation
