import Mathlib

/-!
# Answers with a limit

Three loops that stop once they have enough: one walks over items and keeps the selected ones, one asks one source
after another for what is still missing, one takes what is missing from answers that are there. All return the first
answers of the unlimited search.
-/

namespace Vannak.Foundation

set_option autoImplicit false

variable {α β σ τ : Type}

/-- Keep what is selected; stop after the item with which the limit is reached. -/
def collect (limit : Nat) (select : α → Option β) : List β → List α → List β
  | found, [] => found
  | found, item :: items =>
    let found := found ++ (select item).toList
    if limit ≤ found.length then found else collect limit select found items

/-- Ask one source after another for as much as is still missing. -/
def gather (limit : Nat) (ask : σ → Nat → List α) : List α → List σ → List α
  | found, [] => found
  | found, source :: sources =>
    let remaining := limit - found.length
    if remaining = 0 then found else gather limit ask (found ++ ask source remaining) sources

/-- Take from one answer after another as much as is still missing. -/
def fill (limit : Nat) : List α → List (List α) → List α
  | found, [] => found
  | found, answer :: answers =>
    let found := found ++ answer.take (limit - found.length)
    if limit ≤ found.length then found else fill limit found answers

theorem collect_eq_take {limit : Nat} (select : α → Option β) {found : List β} (hFound : found.length < limit)
    (items : List α) : collect limit select found items = (found ++ items.filterMap select).take limit := by
  induction items generalizing found with
  | nil => rw [collect, List.filterMap_nil, List.append_nil, List.take_of_length_le hFound.le]
  | cons item items ih =>
    have hItem : (item :: items).filterMap select = (select item).toList ++ items.filterMap select := by
      cases hSelect : select item with
      | none => rw [List.filterMap_cons_none hSelect, Option.toList_none, List.nil_append]
      | some value => rw [List.filterMap_cons_some hSelect, Option.toList_some, List.singleton_append]
    rw [collect, hItem, ← List.append_assoc]
    by_cases hLimit : limit ≤ (found ++ (select item).toList).length
    · have hLength : (found ++ (select item).toList).length = limit := by
        have hOne : (select item).toList.length ≤ 1 := by
          cases select item <;> simp
        rw [List.length_append] at hLimit ⊢
        omega
      rw [if_pos hLimit, List.take_append_of_le_length hLength.ge, List.take_of_length_le hLength.le]
    · rw [if_neg hLimit]
      exact ih (Nat.lt_of_not_le hLimit)

theorem take_take_append (limit : Nat) (first second : List α) :
    (first.take limit ++ second).take limit = (first ++ second).take limit := by
  have hRest : limit - (first.take limit).length = limit - first.length := by
    rw [List.length_take]
    omega
  rw [List.take_append, List.take_append, List.take_take, Nat.min_self, hRest]

theorem take_filterMap {select : α → Option β} {items : List α} (h : ∀ item ∈ items, (select item).isSome = true)
    (limit : Nat) : (items.filterMap select).take limit = (items.take limit).filterMap select := by
  induction items generalizing limit with
  | nil => simp
  | cons item items ih =>
    obtain ⟨hItem, hItems⟩ := List.forall_mem_cons.mp h
    obtain ⟨value, hValue⟩ := Option.isSome_iff_exists.mp hItem
    rw [List.filterMap_cons_some hValue]
    cases limit with
    | zero => rfl
    | succ limit => rw [List.take_succ_cons, List.take_succ_cons, List.filterMap_cons_some hValue, ih hItems]

/-- Sources that answer with the first of all they have are searched as if they were one. -/
theorem gather_eq_take {ask : σ → Nat → List α} {all : σ → List α} {sources : List σ}
    (h : ∀ source ∈ sources, ∀ remaining, 0 < remaining → ask source remaining = (all source).take remaining)
    {limit : Nat} {found : List α} (hFound : found.length ≤ limit) :
    gather limit ask found sources = (found ++ sources.flatMap all).take limit := by
  induction sources generalizing found with
  | nil => rw [gather, List.flatMap_nil, List.append_nil, List.take_of_length_le hFound]
  | cons source sources ih =>
    obtain ⟨hSource, hSources⟩ := List.forall_mem_cons.mp h
    rw [gather]
    by_cases hRemaining : limit - found.length = 0
    · have hLength : found.length = limit := by omega
      rw [if_pos hRemaining, List.take_append_of_le_length hLength.ge, List.take_of_length_le hLength.le]
    · have hAsked : (found ++ (all source).take (limit - found.length)).length ≤ limit := by
        rw [List.length_append, List.length_take]
        omega
      have hPrefix : (found ++ all source).take limit = found ++ (all source).take (limit - found.length) := by
        rw [List.take_append, List.take_of_length_le hFound]
      rw [if_neg hRemaining, hSource _ (Nat.pos_of_ne_zero hRemaining), ih hSources hAsked, List.flatMap_cons,
        ← List.append_assoc, ← hPrefix, take_take_append]

theorem fill_eq_take {limit : Nat} {found : List α} (hFound : found.length ≤ limit) (answers : List (List α)) :
    fill limit found answers = (found ++ answers.flatten).take limit := by
  induction answers generalizing found with
  | nil => rw [fill, List.flatten_nil, List.append_nil, List.take_of_length_le hFound]
  | cons answer answers ih =>
    have hPrefix : (found ++ answer).take limit = found ++ answer.take (limit - found.length) := by
      rw [List.take_append, List.take_of_length_le hFound]
    have hLength : (found ++ answer.take (limit - found.length)).length ≤ limit := by
      rw [← hPrefix]
      exact List.length_take_le _ _
    rw [fill, List.flatten_cons, ← List.append_assoc, ← take_take_append, hPrefix]
    by_cases hLimit : limit ≤ (found ++ answer.take (limit - found.length)).length
    · rw [if_pos hLimit, List.take_append_of_le_length hLimit, List.take_of_length_le hLength]
    · rw [if_neg hLimit]
      exact ih hLength

/-- Answers that are cut at the limit, or later, are long enough. -/
theorem take_flatMap_take {limit cut : Nat} (h : limit ≤ cut) (sources : List σ) (all : σ → List α) :
    (sources.flatMap fun source => (all source).take cut).take limit = (sources.flatMap all).take limit := by
  induction sources generalizing limit with
  | nil => rfl
  | cons source sources ih =>
    have hHead : ((all source).take cut).take limit = (all source).take limit := by
      rw [List.take_take, Nat.min_eq_left h]
    rw [List.flatMap_cons, List.flatMap_cons, List.take_append, List.take_append, hHead, List.length_take]
    refine congrArg (List.take limit (all source) ++ ·) ?_
    by_cases hShort : (all source).length ≤ cut
    · rw [Nat.min_eq_right hShort]
      exact ih ((Nat.sub_le limit _).trans h)
    · have hNone : limit - min cut (all source).length = 0 ∧ limit - (all source).length = 0 := by omega
      rw [hNone.1, hNone.2, List.take_zero, List.take_zero]

/-- A limit that leaves nothing out does not depend on the order. -/
theorem perm_take {left right : List α} {limit : Nat} (h : left.Perm right) (hLimit : right.length ≤ limit) :
    (left.take limit).Perm (right.take limit) := by
  rwa [List.take_of_length_le (h.length_eq ▸ hLimit), List.take_of_length_le hLimit]

theorem gather_map (limit : Nat) (ask : τ → Nat → List α) (read : σ → τ) (found : List α) (sources : List σ) :
    gather limit ask found (sources.map read) =
      gather limit (fun source => ask (read source)) found sources := by
  induction sources generalizing found with
  | nil => rfl
  | cons source sources ih =>
    rw [List.map_cons, gather, gather]
    split
    · rfl
    · exact ih _

end Vannak.Foundation
