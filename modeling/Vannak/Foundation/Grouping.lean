import Vannak.Foundation.Tally

/-!
# Maps that group a log

A map holds, under every key, a summary of the items of a log with that key. Items without a key are not filed.
-/

namespace Vannak.Foundation

open Std (ExtTreeMap TransOrd LawfulEqOrd)

set_option autoImplicit false

variable {α β κ : Type} [DecidableEq κ] (keyOf : α → Option κ)

/-- The items with the key. -/
def itemsOf (key : κ) (log : List α) : List α := log.filter fun item => keyOf item = some key

variable {keyOf} {item : α} {key : κ}

theorem itemsOf_concat_of_eq (h : keyOf item = some key) (log : List α) :
    itemsOf keyOf key (log ++ [item]) = itemsOf keyOf key log ++ [item] := by
  rw [itemsOf, List.filter_append, List.filter_singleton, decide_eq_true h]
  rfl

theorem itemsOf_concat_of_ne (h : keyOf item ≠ some key) (log : List α) :
    itemsOf keyOf key (log ++ [item]) = itemsOf keyOf key log := by
  rw [itemsOf, List.filter_append, List.filter_singleton, decide_eq_false h]
  exact List.append_nil _

theorem itemsOf_eq_nil_iff {log : List α} : itemsOf keyOf key log = [] ↔ key ∉ log.filterMap keyOf := by
  rw [itemsOf, List.filter_eq_nil_iff, List.mem_filterMap]
  simp

section Map

variable [Ord κ] [TransOrd κ]

/-- Every key that occurs has the summary of its items, and no other key is in the map. -/
def Groups (keyOf : α → Option κ) (summary : List α → β) (map : ExtTreeMap κ β) (log : List α) : Prop :=
  ∀ key, map[key]? = if itemsOf keyOf key log = [] then none else some (summary (itemsOf keyOf key log))

variable {summary : List α → β} {map : ExtTreeMap κ β} {log : List α}

theorem groups_empty : Groups keyOf summary (∅ : ExtTreeMap κ β) [] := by
  intro key
  rw [ExtTreeMap.getElem?_empty, itemsOf, List.filter_nil, if_pos rfl]

theorem Groups.getD_eq (h : Groups keyOf summary map log) (key : κ) :
    map.getD key (summary []) = summary (itemsOf keyOf key log) := by
  rw [ExtTreeMap.getD_eq_getD_getElem?, h key]
  split
  · rename_i hNil
    rw [hNil, Option.getD_none]
  · rw [Option.getD_some]

theorem Groups.mem_iff (h : Groups keyOf summary map log) (key : κ) : key ∈ map ↔ key ∈ log.filterMap keyOf := by
  rw [ExtTreeMap.mem_iff_isSome_getElem?, h key, ← not_iff_not, ← itemsOf_eq_nil_iff]
  split
  · rename_i hNil
    simp [hNil]
  · rename_i hSome
    simp [hSome]

theorem Groups.concat_of_none (h : Groups keyOf summary map log) (hKey : keyOf item = none) :
    Groups keyOf summary map (log ++ [item]) := by
  intro key
  rw [itemsOf_concat_of_ne (by simp [hKey])]
  exact h key

variable [LawfulEqOrd κ]

theorem Groups.size_eq (h : Groups keyOf summary map log) : map.size = distinct (log.filterMap keyOf) :=
  size_eq_distinct h.mem_iff

/-- An update of the summary under the key of a new item. -/
theorem Groups.concat_of_some (h : Groups keyOf summary map log) (hKey : keyOf item = some key) {value : β}
    (hValue : value = summary (itemsOf keyOf key log ++ [item])) :
    Groups keyOf summary (map.insert key value) (log ++ [item]) := by
  intro other
  rw [getElem?_insert_ite]
  by_cases hSame : key = other
  · subst hSame
    rw [if_pos rfl, itemsOf_concat_of_eq hKey, if_neg (by simp), hValue]
  · rw [if_neg hSame, itemsOf_concat_of_ne (by simpa [hKey] using hSame)]
    exact h other

end Map

end Vannak.Foundation
