import Mathlib

/-!
# Ordered maps built by repeated insertion

Facts about `Std.ExtTreeMap` that loops over a map need: a map is what inserting its
own bindings one after another builds, and a binding of a map built this way was
inserted.
-/

namespace Vannak.Foundation

open Std

set_option autoImplicit false

section Insertion

variable {α β : Type} [Ord α] [TransOrd α] [LawfulEqOrd α]

theorem getElem?_insert_ite [DecidableEq α] (map : ExtTreeMap α β) (key other : α) (value : β) :
    (map.insert key value)[other]? = if key = other then some value else map[other]? := by
  simp only [ExtTreeMap.getElem?_insert, Std.compare_eq_iff_eq]

theorem getElem?_erase_ite [DecidableEq α] (map : ExtTreeMap α β) (key other : α) :
    (map.erase key)[other]? = if key = other then none else map[other]? := by
  simp only [ExtTreeMap.getElem?_erase, Std.compare_eq_iff_eq]

theorem insert_comm [DecidableEq α] {left right : α} (h : left ≠ right) (map : ExtTreeMap α β)
    (leftValue rightValue : β) :
    (map.insert left leftValue).insert right rightValue =
      (map.insert right rightValue).insert left leftValue := by
  refine ExtTreeMap.ext_getElem? fun key => ?_
  simp only [getElem?_insert_ite]
  by_cases hLeft : left = key
  · rw [if_pos hLeft, if_neg (hLeft ▸ h.symm), if_pos hLeft]
  · rw [if_neg hLeft, if_neg hLeft]

/-- What holds of the bindings of a map and of a new binding holds after inserting it. -/
theorem forall_getElem?_insert {map : ExtTreeMap α β} {property : α → β → Prop}
    (h : ∀ (key : α) (value : β), map[key]? = some value → property key value) {key : α} {value : β}
    (hNew : property key value) (other : α) (found : β)
    (hFound : (map.insert key value)[other]? = some found) : property other found := by
  rw [ExtTreeMap.getElem?_insert] at hFound
  split at hFound
  · rename_i hEq
    obtain rfl := LawfulEqOrd.eq_of_compare hEq
    exact Option.some.inj hFound ▸ hNew
  · exact h other found hFound

theorem mem_of_getElem?_insertMany {pairs : List (α × β)} {map : ExtTreeMap α β} {key : α} {value : β}
    (h : (map.insertMany pairs)[key]? = some value) : (key, value) ∈ pairs ∨ map[key]? = some value := by
  induction pairs generalizing map with
  | nil => exact .inr h
  | cons pair pairs ih =>
    obtain ⟨first, inserted⟩ := pair
    rw [ExtTreeMap.insertMany_cons] at h
    rcases ih h with hMem | hMap
    · exact .inl (List.mem_cons_of_mem _ hMem)
    · rw [ExtTreeMap.getElem?_insert] at hMap
      split at hMap
      · rename_i hEq
        obtain rfl := LawfulEqOrd.eq_of_compare hEq
        obtain rfl := Option.some.inj hMap
        exact .inl List.mem_cons_self
      · exact .inr hMap

theorem insertMany_toList (map : ExtTreeMap α β) : (∅ : ExtTreeMap α β).insertMany map.toList = map := by
  let _ : DecidableEq α := fun left right => decidable_of_iff (compare left right = .eq) compare_eq_iff_eq
  refine ExtTreeMap.ext_getElem? fun key => ?_
  cases hKey : map[key]? with
  | some value =>
    exact ExtTreeMap.getElem?_insertMany_list_of_mem ReflOrd.compare_self
      ExtTreeMap.distinct_keys_toList (ExtTreeMap.mem_toList_iff_getElem?_eq_some.mpr hKey)
  | none =>
    cases hBuilt : ((∅ : ExtTreeMap α β).insertMany map.toList)[key]? with
    | none => rfl
    | some value =>
      rcases mem_of_getElem?_insertMany hBuilt with hMem | hEmpty
      · rw [ExtTreeMap.mem_toList_iff_getElem?_eq_some.mp hMem] at hKey
        cases hKey
      · simp at hEmpty

/-- A binding that passes the filter, without the proof that `getElem?_filter` carries. -/
theorem getElem?_filter_eq_some {map : ExtTreeMap α β} {keep : α → β → Bool} {key : α} {value : β} :
    (map.filter keep)[key]? = some value ↔ map[key]? = some value ∧ keep key value = true := by
  rw [← ExtTreeMap.mem_toList_iff_getElem?_eq_some, ← ExtTreeMap.mem_toList_iff_getElem?_eq_some,
    ExtTreeMap.toList_filter, List.mem_filter]

end Insertion

/-! ## Replaying the bindings of a map -/

section Replay

variable {α β σ γ ε : Type} [Ord α] [TransOrd α] [LawfulEqOrd α]

omit [LawfulEqOrd α] in
theorem foldlM_insertMany {step : σ → γ → Except ε σ} (build : ExtTreeMap α β → σ) (item : α × β → γ)
    (before after : List (α × β))
    (hStep : ∀ first pair last, before ++ after = first ++ pair :: last →
      step (build ((∅ : ExtTreeMap α β).insertMany first)) (item pair) =
        .ok (build (((∅ : ExtTreeMap α β).insertMany first).insert pair.1 pair.2))) :
    (after.map item).foldlM step (build ((∅ : ExtTreeMap α β).insertMany before)) =
      .ok (build ((∅ : ExtTreeMap α β).insertMany (before ++ after))) := by
  induction after generalizing before with
  | nil => simp [pure, Except.pure]
  | cons pair after ih =>
    have hSplit : before ++ pair :: after = (before ++ [pair]) ++ after := by simp
    rw [hSplit] at hStep ⊢
    rw [List.map_cons, List.foldlM_cons, hStep before pair after (by simp)]
    have hInserted : ((∅ : ExtTreeMap α β).insertMany before).insert pair.1 pair.2 =
        (∅ : ExtTreeMap α β).insertMany (before ++ [pair]) := by
      rw [ExtTreeMap.insertMany_append, ExtTreeMap.insertMany_list_singleton]
    rw [hInserted]
    exact ih _ hStep

/-- A loop that inserts the bindings of a map in order rebuilds the map. Each round may
assume that what was built so far is an earlier part of the map. -/
theorem foldlM_toList {step : σ → γ → Except ε σ} (build : ExtTreeMap α β → σ) (item : α × β → γ)
    (map : ExtTreeMap α β)
    (hStep : ∀ (built : ExtTreeMap α β) (key : α) (value : β), map[key]? = some value →
      (∀ (other : α) (found : β), built[other]? = some found →
        map[other]? = some found ∧ compare other key = .lt) → built.size < map.size →
      step (build built) (item (key, value)) = .ok (build (built.insert key value))) :
    (map.toList.map item).foldlM step (build ∅) = .ok (build map) := by
  suffices hRounds : ∀ first pair last, [] ++ map.toList = first ++ pair :: last →
      step (build ((∅ : ExtTreeMap α β).insertMany first)) (item pair) =
        .ok (build (((∅ : ExtTreeMap α β).insertMany first).insert pair.1 pair.2)) by
    have hReplay := foldlM_insertMany build item [] map.toList hRounds
    rwa [List.nil_append, ExtTreeMap.insertMany_nil, insertMany_toList] at hReplay
  rintro first ⟨key, value⟩ last hList
  rw [List.nil_append] at hList
  have hMem : ∀ pair ∈ first ++ (key, value) :: last, map[pair.1]? = some pair.2 := by
    intro pair hPair
    rw [← hList] at hPair
    exact ExtTreeMap.mem_toList_iff_getElem?_eq_some.mp hPair
  have hOrdered := ExtTreeMap.ordered_keys_toList (t := map)
  rw [hList, List.pairwise_append] at hOrdered
  refine hStep _ key value (hMem (key, value) (by simp)) (fun other found hFound => ?_) ?_
  · rcases mem_of_getElem?_insertMany hFound with hFirst | hEmpty
    · exact ⟨hMem (other, found) (List.mem_append_left _ hFirst),
        hOrdered.2.2 (other, found) hFirst (key, value) List.mem_cons_self⟩
    · simp at hEmpty
  · have hBuilt := ExtTreeMap.size_insertMany_list_le (t := (∅ : ExtTreeMap α β)) (l := first)
    have hLength := congrArg List.length hList
    rw [ExtTreeMap.length_toList, List.length_append, List.length_cons] at hLength
    rw [ExtTreeMap.size_empty] at hBuilt
    omega

theorem mem_foldl_insert (keys : List α) (built : ExtTreeSet α) (key : α) :
    key ∈ keys.foldl ExtTreeSet.insert built ↔ key ∈ keys ∨ key ∈ built := by
  induction keys generalizing built with
  | nil => simp
  | cons first keys ih =>
    rw [List.foldl_cons, ih, ExtTreeSet.mem_insert, List.mem_cons, Std.compare_eq_iff_eq]
    constructor
    · rintro (hKeys | rfl | hBuilt)
      · exact .inl (.inr hKeys)
      · exact .inl (.inl rfl)
      · exact .inr hBuilt
    · rintro ((rfl | hKeys) | hBuilt)
      · exact .inr (.inl rfl)
      · exact .inl hKeys
      · exact .inr (.inr hBuilt)

theorem foldlM_toList_set {step : σ → γ → Except ε σ} (build : ExtTreeSet α → σ) (item : α → γ)
    (set : ExtTreeSet α)
    (hStep : ∀ built key, step (build built) (item key) = .ok (build (built.insert key))) :
    (set.toList.map item).foldlM step (build ∅) = .ok (build set) := by
  have hReplay : ∀ (keys : List α) (built : ExtTreeSet α),
      (keys.map item).foldlM step (build built) = .ok (build (keys.foldl ExtTreeSet.insert built)) := by
    intro keys
    induction keys with
    | nil => exact fun _ => rfl
    | cons key keys ih =>
      intro built
      rw [List.map_cons, List.foldlM_cons, hStep]
      exact ih (built.insert key)
  rw [hReplay]
  congr 2
  refine ExtTreeSet.ext_mem fun key => ?_
  rw [mem_foldl_insert, ExtTreeSet.mem_toList]
  simp

end Replay

/-! ## First and last keys -/

section Extremes

variable {α β : Type} [Ord α] [TransOrd α] [LawfulEqOrd α] {map : ExtTreeMap α β}

theorem minKey?_ne_maxKey? (hSize : 1 < map.size) {key : α} (hMin : map.minKey? = some key) :
    map.maxKey? ≠ some key := by
  intro hMax
  have hAll : map.keys ⊆ [key] := by
    intro other hOther
    have hMem : other ∈ map := ExtTreeMap.mem_keys.mp hOther
    have hAbove := (ExtTreeMap.minKey?_eq_some_iff_mem_and_forall.mp hMin).2 other hMem
    have hBelow := (ExtTreeMap.maxKey?_eq_some_iff_mem_and_forall.mp hMax).2 other hMem
    exact List.mem_singleton.mpr (LawfulEqOrd.eq_of_compare (OrientedCmp.isLE_antisymm hBelow hAbove))
  have hLength := (ExtTreeMap.nodup_keys.subperm hAll).length_le
  rw [ExtTreeMap.length_keys, List.length_singleton] at hLength
  omega

/-- Removing the first of several keys leaves the last key in place. -/
theorem maxKey?_erase_minKey? (hSize : 1 < map.size) {key : α} (hMin : map.minKey? = some key) :
    (map.erase key).maxKey? = map.maxKey? := by
  refine ExtTreeMap.maxKey?_erase_eq_of_not_compare_eq_maxKey? fun {last} hMax hEq => ?_
  rw [← LawfulEqOrd.eq_of_compare hEq] at hMax
  exact minKey?_ne_maxKey? hSize hMin hMax

omit [LawfulEqOrd α] in
theorem exists_minKey? (hSize : 0 < map.size) : ∃ key, map.minKey? = some key := by
  cases h : map.minKey? with
  | some key => exact ⟨key, rfl⟩
  | none =>
    rw [ExtTreeMap.minKey?_eq_none_iff.mp h, ExtTreeMap.size_empty] at hSize
    omega

omit [LawfulEqOrd α] in
/-- Lists in strict order are fixed by their members. -/
theorem eq_of_ordered {γ : Type} (key : γ → α) {first second : List γ}
    (hFirst : first.Pairwise fun left right => compare (key left) (key right) = .lt)
    (hSecond : second.Pairwise fun left right => compare (key left) (key right) = .lt)
    (hMem : ∀ item, item ∈ first ↔ item ∈ second) : first = second := by
  have hIrrefl : Std.Irrefl fun left right : γ => compare (key left) (key right) = .lt :=
    ⟨fun item hLt => by simp [Std.ReflCmp.compare_self] at hLt⟩
  have hAntisymm : Std.Antisymm fun left right : γ => compare (key left) (key right) = .lt := by
    refine ⟨fun left right hLess hMore => ?_⟩
    have hSwap := OrientedOrd.eq_swap (a := key left) (b := key right)
    rw [hLess, hMore] at hSwap
    cases hSwap
  exact hFirst.eq_of_mem_iff hSecond hMem

theorem toList_eq_of_mem_iff {bindings : List (α × β)}
    (hSorted : bindings.Pairwise fun left right => compare left.1 right.1 = .lt)
    (h : ∀ key value, (key, value) ∈ bindings ↔ map[key]? = some value) : map.toList = bindings := by
  refine eq_of_ordered Prod.fst ExtTreeMap.ordered_keys_toList hSorted fun binding => ?_
  rw [ExtTreeMap.mem_toList_iff_getElem?_eq_some, ← h]

theorem map_snd_toList (map : ExtTreeMap α β) : map.toList.map Prod.snd = map.keys.filterMap (map[·]?) := by
  rw [← ExtTreeMap.map_fst_toList_eq_keys, List.filterMap_map, ← List.filterMap_eq_map]
  refine List.filterMap_congr fun binding hBinding => ?_
  exact (ExtTreeMap.mem_toList_iff_getElem?_eq_some.mp hBinding).symm

theorem toList_insert_last [DecidableEq α] {key : α} (hLast : ∀ other ∈ map, compare other key = .lt) (value : β) :
    (map.insert key value).toList = map.toList ++ [(key, value)] := by
  refine toList_eq_of_mem_iff (List.pairwise_append.mpr ⟨ExtTreeMap.ordered_keys_toList,
    List.pairwise_singleton _ _, fun binding hBinding last hEnd => ?_⟩) fun other found => ?_
  · rw [List.mem_singleton.mp hEnd]
    refine hLast _ (ExtTreeMap.mem_iff_isSome_getElem?.mpr ?_)
    rw [ExtTreeMap.mem_toList_iff_getElem?_eq_some.mp hBinding]
    rfl
  · rw [List.mem_append, ExtTreeMap.mem_toList_iff_getElem?_eq_some, List.mem_singleton, getElem?_insert_ite]
    by_cases hKey : key = other
    · subst hKey
      have hFresh : map[key]? = none := by
        refine ExtTreeMap.getElem?_eq_none fun hMem => ?_
        have hLess := hLast key hMem
        simp [Std.ReflCmp.compare_self] at hLess
      simp [hFresh, eq_comm]
    · simp [hKey, Ne.symm hKey]

theorem toList_erase_first [DecidableEq α] {key : α} (hMin : map.minKey? = some key) :
    (map.erase key).toList = map.toList.tail := by
  have hFirst : ∃ value, map.toList = (key, value) :: map.toList.tail := by
    rw [ExtTreeMap.minKey?_eq_head?_keys, ← ExtTreeMap.map_fst_toList_eq_keys, List.head?_map] at hMin
    obtain ⟨binding, hBinding, rfl⟩ := Option.map_eq_some_iff.mp hMin
    exact ⟨binding.2, (List.cons_head?_tail hBinding).symm⟩
  obtain ⟨value, hList⟩ := hFirst
  have hSorted := ExtTreeMap.ordered_keys_toList (t := map)
  rw [hList, List.pairwise_cons] at hSorted
  refine toList_eq_of_mem_iff hSorted.2 fun other found => ?_
  rw [getElem?_erase_ite]
  have hMem : (other, found) ∈ map.toList ↔ (other, found) = (key, value) ∨ (other, found) ∈ map.toList.tail := by
    rw [hList, List.mem_cons, List.tail_cons]
  rw [ExtTreeMap.mem_toList_iff_getElem?_eq_some] at hMem
  by_cases hKey : key = other
  · subst hKey
    rw [if_pos rfl]
    refine ⟨fun hTail => ?_, fun hNone => by cases hNone⟩
    have hLess := hSorted.1 _ hTail
    simp [Std.ReflCmp.compare_self] at hLess
  · rw [if_neg hKey, hMem]
    simp [Ne.symm hKey]

end Extremes

/-! ## First occurrences -/

section FirstOccurrences

variable {α : Type} [DecidableEq α]

theorem eraseDups_concat (items : List α) (item : α) :
    (items ++ [item]).eraseDups = if item ∈ items then items.eraseDups else items.eraseDups ++ [item] := by
  rw [List.eraseDups_append]
  by_cases hMem : item ∈ items
  · simp [hMem, List.removeAll]
  · simp [hMem, List.removeAll, List.eraseDups_cons]

theorem nodup_eraseDups (items : List α) : items.eraseDups.Nodup := by
  induction items using List.reverseRecOn with
  | nil => exact List.nodup_nil
  | append_singleton items item ih =>
    rw [eraseDups_concat]
    split
    · exact ih
    · rename_i hFresh
      refine List.nodup_append.mpr ⟨ih, List.nodup_singleton item, fun other hOther last hLast hEq => ?_⟩
      rw [List.mem_singleton.mp hLast] at hEq
      exact hFresh (hEq ▸ List.mem_eraseDups.mp hOther)

/-- Pushing what is not there yet. -/
theorem foldl_push_new (items : List α) :
    items.foldl (fun result item => if item ∈ result then result else result ++ [item]) [] = items.eraseDups := by
  induction items using List.reverseRecOn with
  | nil => rfl
  | append_singleton items item ih =>
    rw [List.foldl_append, ih, eraseDups_concat, List.foldl_cons, List.foldl_nil]
    simp only [List.mem_eraseDups]

/-- Pushing what a set of the items seen so far does not hold. -/
theorem foldl_push_unseen [Ord α] [TransOrd α] [LawfulEqOrd α] (items : List α) :
    (items.foldl (fun (found : ExtTreeSet α × List α) item =>
      if item ∈ found.1 then found else (found.1.insert item, found.2 ++ [item])) (∅, [])).2 = items.eraseDups := by
  suffices hBoth : ∀ found : ExtTreeSet α × List α, items.foldl (fun (found : ExtTreeSet α × List α) item =>
      if item ∈ found.1 then found else (found.1.insert item, found.2 ++ [item])) (∅, []) = found →
        found.2 = items.eraseDups ∧ ∀ item, item ∈ found.1 ↔ item ∈ items from (hBoth _ rfl).1
  induction items using List.reverseRecOn with
  | nil =>
    rintro found rfl
    exact ⟨rfl, fun item => by simp⟩
  | append_singleton items item ih =>
    rintro found rfl
    obtain ⟨hResult, hSeen⟩ := ih _ rfl
    rw [List.foldl_append, List.foldl_cons, List.foldl_nil, eraseDups_concat]
    by_cases hMem : item ∈ items
    · rw [if_pos ((hSeen item).mpr hMem), if_pos hMem]
      refine ⟨hResult, fun other => ?_⟩
      rw [hSeen, List.mem_append, List.mem_singleton]
      exact ⟨.inl, fun hOther => hOther.elim id fun hEq => hEq ▸ hMem⟩
    · rw [if_neg fun hFound => hMem ((hSeen item).mp hFound), if_neg hMem, hResult]
      refine ⟨rfl, fun other => ?_⟩
      rw [ExtTreeSet.mem_insert, Std.compare_eq_iff_eq, hSeen, List.mem_append, List.mem_singleton, or_comm,
        eq_comm]

end FirstOccurrences

end Vannak.Foundation
