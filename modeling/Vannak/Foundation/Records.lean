import Mathlib

/-!
# Records of a sequence

A record is an item that is at least as large as all items before it. A machine that drops whatever is smaller than
the last item it took sees the records only.
-/

namespace Vannak.Foundation

set_option autoImplicit false

variable {α κ σ : Type} [LinearOrder κ] (key : α → κ)

/-- The records among the items that come after the earlier ones. -/
def recordsAfter (earlier : List α) : List α → List α
  | [] => []
  | item :: items =>
    if ∀ other ∈ earlier, key other ≤ key item then item :: recordsAfter (earlier ++ [item]) items
    else recordsAfter (earlier ++ [item]) items

def records (items : List α) : List α := recordsAfter key [] items

theorem recordsAfter_concat (earlier items : List α) (item : α) :
    recordsAfter key earlier (items ++ [item]) = recordsAfter key earlier items ++
      if ∀ other ∈ earlier ++ items, key other ≤ key item then [item] else [] := by
  induction items generalizing earlier with
  | nil => simp [recordsAfter]
  | cons first items ih =>
    rw [List.cons_append, recordsAfter, recordsAfter, ih, List.append_assoc, List.singleton_append]
    split
    · rfl
    · rfl

theorem records_concat (items : List α) (item : α) :
    records key (items ++ [item]) = records key items ++
      if ∀ other ∈ items, key other ≤ key item then [item] else [] :=
  recordsAfter_concat key [] items item

theorem maximum_le_iff {items : List α} {item : α} :
    (items.map key).maximum ≤ key item ↔ ∀ other ∈ items, key other ≤ key item := by
  constructor
  · intro hMaximum other hOther
    exact WithBot.coe_le_coe.mp ((List.le_maximum_of_mem' (List.mem_map_of_mem hOther)).trans hMaximum)
  · intro hAll
    refine List.maximum_le_of_forall_le fun value hValue => ?_
    obtain ⟨other, hOther, rfl⟩ := List.mem_map.mp hValue
    exact WithBot.coe_le_coe.mpr (hAll other hOther)

/-- A machine that drops what is smaller than the last item it took. -/
structure Drops (step : σ → α → σ) (top : σ → WithBot κ) : Prop where
  drop : ∀ state item, (key item : WithBot κ) < top state → step state item = state
  take : ∀ state item, ¬(key item : WithBot κ) < top state → top (step state item) = key item

namespace Drops

variable {key} {step : σ → α → σ} {top : σ → WithBot κ} {state : σ}

theorem top_foldl (h : Drops key step top) (hBottom : top state = ⊥) (items : List α) :
    top (items.foldl step state) = (items.map key).maximum := by
  induction items using List.reverseRecOn with
  | nil => exact hBottom
  | append_singleton items item ih =>
    rw [List.foldl_concat, List.map_append, List.map_singleton, List.maximum_concat, ← ih]
    by_cases hOlder : (key item : WithBot κ) < top (items.foldl step state)
    · rw [h.drop _ _ hOlder, max_eq_left hOlder.le]
    · rw [h.take _ _ hOlder, max_eq_right (not_lt.mp hOlder)]

/-- An item after others is taken exactly when it is a record. -/
theorem taken_iff (h : Drops key step top) (hBottom : top state = ⊥) (items : List α) (item : α) :
    ¬(key item : WithBot κ) < top (items.foldl step state) ↔ ∀ other ∈ items, key other ≤ key item := by
  rw [h.top_foldl hBottom, not_lt, maximum_le_iff]

theorem foldl_records (h : Drops key step top) (hBottom : top state = ⊥) (items : List α) :
    (records key items).foldl step state = items.foldl step state := by
  induction items using List.reverseRecOn with
  | nil => rfl
  | append_singleton items item ih =>
    rw [records_concat, List.foldl_append, List.foldl_append, ih]
    by_cases hRecord : ∀ other ∈ items, key other ≤ key item
    · rw [if_pos hRecord]
    · have hOlder := not_not.mp ((h.taken_iff hBottom items item).not.mpr hRecord)
      rw [if_neg hRecord, List.foldl_nil, List.foldl_cons, List.foldl_nil, h.drop _ _ hOlder]

/-- What the steps on records preserve holds of the records and the state they lead to. -/
theorem records_induction (h : Drops key step top) (hBottom : top state = ⊥) {holds : List α → σ → Prop}
    (hNil : holds [] state)
    (hStep : ∀ taken current item, holds taken current → ¬(key item : WithBot κ) < top current →
      holds (taken ++ [item]) (step current item)) (items : List α) :
    holds (records key items) (items.foldl step state) := by
  induction items using List.reverseRecOn with
  | nil => exact hNil
  | append_singleton items item ih =>
    rw [records_concat, List.foldl_concat]
    have hTaken := h.taken_iff hBottom items item
    split
    · rename_i hRecord
      exact hStep _ _ item ih (hTaken.mpr hRecord)
    · rename_i hRecord
      rw [List.append_nil, h.drop _ _ (not_not.mp (hTaken.not.mpr hRecord))]
      exact ih

end Drops

end Vannak.Foundation
