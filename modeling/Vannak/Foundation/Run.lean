import Mathlib

/-!
# Runs of a deterministic machine

A machine answers each input with an output and a next state. A run keeps the inputs
with their outputs, so that a property of a whole run can speak of what was answered
earlier. `run_history` is the induction rule: an invariant that may mention the past
holds at the end of every run if every step extends it.
-/

namespace Vannak.Foundation

set_option autoImplicit false

section Run

variable {σ ι ο : Type} (step : σ → ι → ο × σ)

/-- The inputs with their outputs, in order, and the state after the last one. -/
def run : σ → List ι → List (ι × ο) × σ
  | state, [] => ([], state)
  | state, input :: inputs =>
    ((input, (step state input).1) :: (run (step state input).2 inputs).1,
      (run (step state input).2 inputs).2)

/-- Every step of the run starts in a state that admits its input. -/
def AllSteps (admits : σ → ι → Prop) : σ → List ι → Prop
  | _, [] => True
  | state, input :: inputs => admits state input ∧ AllSteps admits (step state input).2 inputs

theorem run_append (state : σ) (first second : List ι) :
    run step state (first ++ second) =
      ((run step state first).1 ++ (run step (run step state first).2 second).1,
        (run step (run step state first).2 second).2) := by
  induction first generalizing state with
  | nil => rfl
  | cons input first ih => simp only [List.cons_append, run, ih]

theorem run_concat (state : σ) (inputs : List ι) (input : ι) :
    run step state (inputs ++ [input]) =
      ((run step state inputs).1 ++ [(input, (step (run step state inputs).2 input).1)],
        (step (run step state inputs).2 input).2) := by
  rw [run_append]
  rfl

theorem run_snd (state : σ) (inputs : List ι) :
    (run step state inputs).2 = inputs.foldl (fun state input => (step state input).2) state := by
  induction inputs generalizing state with
  | nil => rfl
  | cons input inputs ih => exact ih _

theorem allSteps_append {admits : σ → ι → Prop} {state : σ} {first second : List ι} :
    AllSteps step admits state (first ++ second) ↔
      AllSteps step admits state first ∧ AllSteps step admits (run step state first).2 second := by
  induction first generalizing state with
  | nil => simp [AllSteps, run]
  | cons input first ih => simp only [List.cons_append, AllSteps, run, ih, and_assoc]

variable {step}

theorem run_history_of_allSteps {admits : σ → ι → Prop} {invariant : List (ι × ο) → σ → Prop}
    (hStep : ∀ past state input, invariant past state → admits state input →
      invariant (past ++ [(input, (step state input).1)]) (step state input).2)
    {past : List (ι × ο)} {state : σ} {inputs : List ι} (hState : invariant past state)
    (hAdmits : AllSteps step admits state inputs) :
    invariant (past ++ (run step state inputs).1) (run step state inputs).2 := by
  induction inputs generalizing past state with
  | nil => simpa [run] using hState
  | cons input inputs ih =>
    have hNext := ih (hStep past state input hState hAdmits.1) hAdmits.2
    rwa [List.append_assoc] at hNext

theorem allSteps_of_forall {admits : σ → ι → Prop} {state : σ} {inputs : List ι}
    (h : ∀ state, ∀ input ∈ inputs, admits state input) : AllSteps step admits state inputs := by
  induction inputs generalizing state with
  | nil => trivial
  | cons input inputs ih =>
    exact ⟨h state input List.mem_cons_self, ih fun state other hOther =>
      h state other (List.mem_cons_of_mem input hOther)⟩

/-- Two conditions that agree on every state with the invariant agree on whole runs. -/
theorem allSteps_congr {admits other : σ → ι → Prop} {invariant : σ → Prop}
    (hStep : ∀ state input, invariant state → invariant (step state input).2)
    (hIff : ∀ state input, invariant state → (admits state input ↔ other state input)) {state : σ}
    (hState : invariant state) (inputs : List ι) :
    AllSteps step admits state inputs ↔ AllSteps step other state inputs := by
  induction inputs generalizing state with
  | nil => exact Iff.rfl
  | cons input inputs ih =>
    rw [AllSteps, AllSteps, hIff state input hState, ih (hStep state input hState)]

theorem allSteps_true (state : σ) (inputs : List ι) : AllSteps step (fun _ _ => True) state inputs :=
  allSteps_of_forall fun _ _ _ => trivial

theorem run_history {invariant : List (ι × ο) → σ → Prop}
    (hStep : ∀ past state input, invariant past state →
      invariant (past ++ [(input, (step state input).1)]) (step state input).2)
    {state : σ} (hState : invariant [] state) (inputs : List ι) :
    invariant (run step state inputs).1 (run step state inputs).2 := by
  have hRun := run_history_of_allSteps (fun past state input h _ => hStep past state input h)
    hState (allSteps_true state inputs)
  rwa [List.nil_append] at hRun

theorem run_invariant_of_allSteps {admits : σ → ι → Prop} {invariant : σ → Prop}
    (hStep : ∀ state input, invariant state → admits state input → invariant (step state input).2) {state : σ}
    {inputs : List ι} (hState : invariant state) (hAdmits : AllSteps step admits state inputs) :
    invariant (run step state inputs).2 := by
  induction inputs generalizing state with
  | nil => exact hState
  | cons input inputs ih => exact ih (hStep state input hState hAdmits.1) hAdmits.2

/-- What the invariant says of each state holds at every step of the run. -/
theorem allSteps_of_invariant {admits good : σ → ι → Prop} {invariant : σ → Prop}
    (hStep : ∀ state input, invariant state → admits state input → invariant (step state input).2)
    (hGood : ∀ state input, invariant state → admits state input → good state input) {state : σ} {inputs : List ι}
    (hState : invariant state) (hAdmits : AllSteps step admits state inputs) :
    AllSteps step good state inputs := by
  induction inputs generalizing state with
  | nil => trivial
  | cons input inputs ih =>
    exact ⟨hGood state input hState hAdmits.1, ih (hStep state input hState hAdmits.1) hAdmits.2⟩

theorem run_invariant {invariant : σ → Prop}
    (hStep : ∀ state input, invariant state → invariant (step state input).2) {state : σ}
    (hState : invariant state) (inputs : List ι) : invariant (run step state inputs).2 :=
  run_invariant_of_allSteps (fun state input h _ => hStep state input h) hState (allSteps_true state inputs)

end Run

/-! ## Traces -/

section Traces

variable {ε : Type} {allowed : List ε → ε → Prop}

/-- Every effect of the trace was allowed by those before it. -/
def Always (allowed : List ε → ε → Prop) (trace : List ε) : Prop :=
  ∀ before effect after, trace = before ++ effect :: after → allowed before effect

theorem always_nil : Always allowed [] := by
  intro before effect after h
  exact absurd h.symm (by simp)

theorem Always.concat {trace : List ε} (h : Always allowed trace) {effect : ε} (hEffect : allowed trace effect) :
    Always allowed (trace ++ [effect]) := by
  intro before other after hSplit
  rcases List.append_eq_append_iff.mp hSplit with ⟨middle, hBefore, hMiddle⟩ | ⟨middle, hTrace, hMiddle⟩
  · cases middle with
    | nil =>
      rw [List.append_nil] at hBefore
      obtain ⟨hSame, -⟩ := List.cons.inj hMiddle
      rwa [hBefore, ← hSame]
    | cons head rest =>
      obtain ⟨-, hRest⟩ := List.cons.inj hMiddle
      exact absurd hRest.symm (by simp)
  · cases middle with
    | nil =>
      rw [List.append_nil] at hTrace
      obtain ⟨hSame, -⟩ := List.cons.inj hMiddle
      rwa [← hTrace, hSame]
    | cons head rest =>
      obtain ⟨rfl, -⟩ := List.cons.inj hMiddle
      exact h before other rest hTrace

theorem Always.of_concat {trace : List ε} {effect : ε} (h : Always allowed (trace ++ [effect])) :
    Always allowed trace ∧ allowed trace effect :=
  ⟨fun before other after hSplit => h before other (after ++ [effect]) (by simp [hSplit]),
    h trace effect [] rfl⟩

end Traces

/-! ## Results in sequence -/

theorem ok_bind {α β ε : Type} {result : Except ε α} {value : α} (h : result = .ok value)
    (next : α → Except ε β) : (do next (← result)) = next value := by
  rw [h]
  rfl

theorem ok_of_bind {α β ε : Type} {result : Except ε α} {next : α → Except ε β} {value : β}
    (h : (do next (← result)) = .ok value) : ∃ middle, result = .ok middle ∧ next middle = .ok value := by
  cases result with
  | error error => cases h
  | ok middle => exact ⟨middle, rfl, h⟩

theorem ok_of_mapError {α ε δ : Type} {result : Except ε α} {convert : ε → δ} {value : α}
    (h : result.mapError convert = .ok value) : result = .ok value := by
  cases result with
  | error error => cases h
  | ok found => exact congrArg Except.ok (Except.ok.inj h)

theorem toOption_eq_some {α ε : Type} {result : Except ε α} {value : α} :
    result.toOption = some value ↔ result = .ok value := by
  cases result <;> simp [Except.toOption]

theorem foldlM_isOk {σ α ε : Type} {step : σ → α → Except ε σ} {items : List α}
    (h : ∀ item ∈ items, ∀ state, ∃ next, step state item = .ok next) (state : σ) :
    ∃ final, items.foldlM step state = .ok final := by
  induction items generalizing state with
  | nil => exact ⟨state, rfl⟩
  | cons item items ih =>
    obtain ⟨next, hNext⟩ := h item List.mem_cons_self state
    obtain ⟨final, hFinal⟩ := ih (fun other hOther => h other (List.mem_cons_of_mem item hOther)) next
    refine ⟨final, ?_⟩
    rw [List.foldlM_cons, hNext]
    exact hFinal

/-! ## Exchanging inputs -/

/-- An input that can be exchanged with each of the others may come first or last. -/
theorem foldl_exchange {σ ι : Type} {step : σ → ι → σ} {independent : ι → ι → Prop}
    (hExchange : ∀ state left right, independent left right →
      step (step state left) right = step (step state right) left)
    {input : ι} {others : List ι} (h : ∀ other ∈ others, independent input other) (state : σ) :
    others.foldl step (step state input) = step (others.foldl step state) input := by
  induction others generalizing state with
  | nil => rfl
  | cons other others ih =>
    obtain ⟨hOther, hOthers⟩ := List.forall_mem_cons.mp h
    rw [List.foldl_cons, List.foldl_cons, hExchange state input other hOther]
    exact ih hOthers (step state other)

end Vannak.Foundation
