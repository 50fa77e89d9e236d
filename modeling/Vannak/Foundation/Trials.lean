import Mathlib

/-!
# Trying items in order

Items are put to a machine one after another, until a number of trials is used up or an answer stops the loop.
-/

namespace Vannak.Foundation

set_option autoImplicit false

variable {α β σ : Type}

/-- Every item with its answer. -/
def askEach (ask : σ → α → β × σ) : List α → σ → List (α × β) × σ
  | [], state => ([], state)
  | item :: items, state =>
    let (answer, state) := ask state item
    let (answers, state) := askEach ask items state
    ((item, answer) :: answers, state)

def tryEach (ask : σ → α → β × σ) (stops : β → Bool) : Nat → List α → σ → List (α × β) × σ
  | 0, _, state => ([], state)
  | _ + 1, [], state => ([], state)
  | limit + 1, item :: items, state =>
    let (answer, state) := ask state item
    if stops answer then ([(item, answer)], state)
    else
      let (answers, state) := tryEach ask stops limit items state
      ((item, answer) :: answers, state)

theorem askEach_cons (ask : σ → α → β × σ) (item : α) (items : List α) (state : σ) :
    askEach ask (item :: items) state =
      ((item, (ask state item).1) :: (askEach ask items (ask state item).2).1,
        (askEach ask items (ask state item).2).2) :=
  rfl

theorem map_fst_askEach (ask : σ → α → β × σ) (items : List α) (state : σ) :
    (askEach ask items state).1.map Prod.fst = items := by
  induction items generalizing state with
  | nil => rfl
  | cons item items ih => rw [askEach_cons, List.map_cons, ih]

theorem tryEach_cons (ask : σ → α → β × σ) (stops : β → Bool) (limit : Nat) (item : α) (items : List α) (state : σ) :
    tryEach ask stops (limit + 1) (item :: items) state =
      if stops (ask state item).1 then ([(item, (ask state item).1)], (ask state item).2)
      else ((item, (ask state item).1) :: (tryEach ask stops limit items (ask state item).2).1,
        (tryEach ask stops limit items (ask state item).2).2) :=
  rfl

/-- What the answers of a loop with a limit are: those of the items tried, each but the last not stopping it. -/
structure Tried (stops : β → Bool) (limit : Nat) (items : List α) (answers : List (α × β)) : Prop where
  length_le : answers.length ≤ limit
  proceeds : ∀ trial ∈ answers.dropLast, stops trial.2 = false
  ends : answers.length = items.length ∨ answers.length = limit ∨
    ∃ trial, answers.getLast? = some trial ∧ stops trial.2 = true

theorem tried_cons {stops : β → Bool} {limit : Nat} {item : α} {items : List α} {answer : β}
    {answers : List (α × β)} (h : Tried stops limit items answers) (hAnswer : stops answer = false) :
    Tried stops (limit + 1) (item :: items) ((item, answer) :: answers) where
  length_le := Nat.succ_le_succ h.length_le
  proceeds trial hTrial := by
    cases answers with
    | nil => cases hTrial
    | cons first answers =>
      rw [List.dropLast_cons_cons] at hTrial
      rcases List.mem_cons.mp hTrial with rfl | hTrial
      · exact hAnswer
      · exact h.proceeds trial hTrial
  ends := by
    rcases h.ends with hItems | hLimit | ⟨trial, hLast, hStops⟩
    · exact .inl (congrArg (· + 1) hItems)
    · exact .inr (.inl (congrArg (· + 1) hLimit))
    · refine .inr (.inr ⟨trial, ?_, hStops⟩)
      rw [List.getLast?_cons, hLast]
      rfl

theorem tried_tryEach (ask : σ → α → β × σ) (stops : β → Bool) (limit : Nat) (items : List α) (state : σ) :
    Tried stops limit items (tryEach ask stops limit items state).1 := by
  induction limit generalizing items state with
  | zero => exact ⟨Nat.le_refl 0, fun trial hTrial => (List.not_mem_nil hTrial).elim, .inr (.inl rfl)⟩
  | succ limit ih =>
    cases items with
    | nil => exact ⟨Nat.zero_le _, fun trial hTrial => (List.not_mem_nil hTrial).elim, .inl rfl⟩
    | cons item items =>
      rw [tryEach_cons]
      split
      · rename_i hStops
        exact ⟨Nat.succ_le_succ (Nat.zero_le _), fun trial hTrial => (List.not_mem_nil hTrial).elim,
          .inr (.inr ⟨_, rfl, hStops⟩)⟩
      · rename_i hProceeds
        exact tried_cons (ih items _) (Bool.not_eq_true _ ▸ hProceeds)

/-- The items tried are the first ones, and the machine is asked about nothing else. -/
theorem tryEach_eq_askEach (ask : σ → α → β × σ) (stops : β → Bool) (limit : Nat) (items : List α) (state : σ) :
    tryEach ask stops limit items state =
      askEach ask (items.take (tryEach ask stops limit items state).1.length) state := by
  induction limit generalizing items state with
  | zero => rfl
  | succ limit ih =>
    cases items with
    | nil => rfl
    | cons item items =>
      rw [tryEach_cons]
      split
      · rfl
      · rw [List.length_cons, List.take_succ_cons, askEach_cons, ← ih]

/-- A loop is stopped by its last answer or not at all. -/
theorem Tried.any_iff {stops : β → Bool} {limit : Nat} {items : List α} {answers : List (α × β)}
    (h : Tried stops limit items answers) :
    (answers.any fun trial => stops trial.2) = true ↔
      ∃ trial, answers.getLast? = some trial ∧ stops trial.2 = true := by
  rcases List.eq_nil_or_concat answers with rfl | ⟨first, last, rfl⟩
  · simp
  · rw [List.concat_eq_append] at h ⊢
    have hFirst : (first.any fun trial => stops trial.2) = false := by
      rw [List.any_eq_false]
      intro trial hTrial hStops
      have hProceeds := h.proceeds trial (by rwa [List.dropLast_concat])
      rw [hProceeds] at hStops
      cases hStops
    rw [List.any_append, hFirst, List.getLast?_concat]
    simp

end Vannak.Foundation
