import Vannak.Foundation.Run

/-!
# Attempts on a shared state

Processes make calls on one shared state. Each call is one atomic step, and the caller
may see it fail before or after it took effect; a failed call abandons the attempt and
the process may start again. `safe_run` is the rely and guarantee rule: an attempt that
is safe against every growth of the shared state is safe under every interleaving.
-/

namespace Vannak.Foundation

set_option autoImplicit false

/-- The calls of one attempt, each continued by what it returned. -/
inductive Program (σ κ : Type) where
  | done
  | panicked
  | read (next : σ → Program σ κ)
  | propose (command : κ) (next : Program σ κ)

inductive Process (σ κ : Type) where
  | idle
  | attempting (program : Program σ κ)
  | gaveUp

/-- The attempt has returned with success. -/
def Process.returned {σ κ : Type} : Process σ κ → Bool
  | .attempting .done => true
  | _ => false

theorem Process.returned_iff {σ κ : Type} {process : Process σ κ} :
    process.returned = true ↔ process = .attempting .done := by
  constructor
  · intro h
    rw [returned.eq_def] at h
    split at h
    · rfl
    · cases h
  · rintro rfl
    rfl

inductive Outcome where
  | answered
  | lostRequest
  | lostAnswer
deriving DecidableEq

inductive Move (ι : Type) where
  | start (process : ι)
  | call (process : ι) (outcome : Outcome)
  | giveUp (process : ι)
deriving DecidableEq

structure Sharing (σ κ ι : Type) where
  shared : σ
  processes : ι → Process σ κ

section Sharing

variable {σ κ ε ι : Type}

/-- The accepted commands, in the order of their acceptance. -/
def accepted (answers : List (Move ι × Option κ)) : List κ := answers.filterMap Prod.snd

theorem accepted_concat_none (past : List (Move ι × Option κ)) (move : Move ι) :
    accepted (past ++ [(move, none)]) = accepted past := by
  simp [accepted]

theorem accepted_concat_some (past : List (Move ι × Option κ)) (move : Move ι) (command : κ) :
    accepted (past ++ [(move, some command)]) = accepted past ++ [command] := by
  simp [accepted]

variable [DecidableEq ι] (apply : σ → κ → Except ε Unit × σ)

/-- The next call of a program: the command it got accepted, the shared state and what
becomes of the process. -/
def call (shared : σ) (outcome : Outcome) : Program σ κ → Option κ × σ × Process σ κ
  | .done => (none, shared, .attempting .done)
  | .panicked => (none, shared, .attempting .panicked)
  | .read next => (none, shared, if outcome = .answered then .attempting (next shared) else .idle)
  | .propose command next =>
    if outcome = .lostRequest then (none, shared, .idle)
    else
      match apply shared command with
      | (.ok (), after) => (some command, after, if outcome = .answered then .attempting next else .idle)
      | (.error _, after) => (none, after, .idle)

def Sharing.withProcess (system : Sharing σ κ ι) (process : ι) (next : Process σ κ) : Sharing σ κ ι :=
  { system with processes := Function.update system.processes process next }

@[simp] theorem Sharing.withProcess_self (system : Sharing σ κ ι) (process : ι) (next : Process σ κ) :
    (system.withProcess process next).processes process = next :=
  Function.update_self ..

theorem Sharing.withProcess_of_ne (system : Sharing σ κ ι) {process other : ι} (h : other ≠ process)
    (next : Process σ κ) : (system.withProcess process next).processes other = system.processes other :=
  Function.update_of_ne h ..

/-- A process starts or gives up between two attempts only. -/
def Sharing.step (attempt : Program σ κ) (system : Sharing σ κ ι) : Move ι → Option κ × Sharing σ κ ι
  | .start process =>
    match system.processes process with
    | .idle => (none, system.withProcess process (.attempting attempt))
    | _ => (none, system)
  | .giveUp process =>
    match system.processes process with
    | .idle => (none, system.withProcess process .gaveUp)
    | _ => (none, system)
  | .call process outcome =>
    match system.processes process with
    | .attempting program =>
      let (accepted, shared, next) := call apply system.shared outcome program
      (accepted, { system.withProcess process next with shared })
    | _ => (none, system)

/-! ## Safe programs -/

variable (inv : List κ → σ → Prop) (rel : σ → σ → Prop) (post : σ → Prop)

/-- The rest of a program is safe from a state on: whatever the other processes do by
`rel` before each of its calls, its own proposals keep the invariant and move by `rel`,
it does not panic, and it ends in the postcondition. -/
def Safe : σ → Program σ κ → Prop
  | shared, .done => post shared
  | _, .panicked => False
  | shared, .read next => ∀ past later, rel shared later → inv past later → Safe later (next later)
  | shared, .propose command next => ∀ past later after, rel shared later → inv past later →
      apply later command = (.ok (), after) →
        inv (past ++ [command]) after ∧ rel later after ∧ Safe after next

variable {apply inv rel post}

theorem Safe.mono (hTrans : ∀ first second third, rel first second → rel second third → rel first third)
    (hPost : ∀ before after, rel before after → post before → post after) {shared later : σ}
    {program : Program σ κ} (h : Safe apply inv rel post shared program) (hRel : rel shared later) :
    Safe apply inv rel post later program := by
  cases program with
  | done => exact hPost shared later hRel h
  | panicked => exact h
  | read next =>
    intro past last hLast hInv
    exact h past last (hTrans shared later last hRel hLast) hInv
  | propose command next =>
    intro past last after hLast hInv hApply
    exact h past last after (hTrans shared later last hRel hLast) hInv hApply

/-- A call leaves the shared state, or it is a proposal that was accepted. -/
theorem call_cases (hRefused : ∀ shared command error after,
      apply shared command = (.error error, after) → after = shared)
    (shared : σ) (outcome : Outcome) (program : Program σ κ) :
    (∃ next, call apply shared outcome program = (none, shared, next) ∧
        (next = .idle ∨ next = .attempting program ∨
          ∃ reply, program = .read reply ∧ next = .attempting (reply shared))) ∨
      ∃ command rest after next, program = .propose command rest ∧
        apply shared command = (.ok (), after) ∧
        call apply shared outcome program = (some command, after, next) ∧
        (next = .idle ∨ next = .attempting rest) := by
  cases program with
  | done => exact .inl ⟨_, rfl, .inr (.inl rfl)⟩
  | panicked => exact .inl ⟨_, rfl, .inr (.inl rfl)⟩
  | read reply =>
    refine .inl ⟨_, rfl, ?_⟩
    by_cases hAnswered : outcome = .answered
    · exact .inr (.inr ⟨reply, rfl, if_pos hAnswered⟩)
    · exact .inl (if_neg hAnswered)
  | propose command rest =>
    by_cases hLost : outcome = .lostRequest
    · exact .inl ⟨.idle, by rw [call, if_pos hLost], .inl rfl⟩
    · rw [call, if_neg hLost]
      rcases hApply : apply shared command with ⟨_ | _, after⟩
      · rw [hRefused _ _ _ _ hApply]
        exact .inl ⟨.idle, rfl, .inl rfl⟩
      · refine .inr ⟨command, rest, after, _, rfl, hApply, rfl, ?_⟩
        by_cases hAnswered : outcome = .answered
        · exact .inr (if_pos hAnswered)
        · exact .inl (if_neg hAnswered)

variable (apply inv rel post) in
/-- The invariant of the shared state, and every attempt under way is safe from it. -/
structure Sharing.AllSafe (past : List (Move ι × Option κ)) (system : Sharing σ κ ι) : Prop where
  holds : inv (accepted past) system.shared
  safe : ∀ process program, system.processes process = .attempting program →
    Safe apply inv rel post system.shared program

/-- One process goes on while the shared state grows. -/
theorem Sharing.AllSafe.update {past later : List (Move ι × Option κ)} {system : Sharing σ κ ι}
    (h : system.AllSafe apply inv rel post past)
    (hTrans : ∀ first second third, rel first second → rel second third → rel first third)
    (hPost : ∀ before after, rel before after → post before → post after) {shared : σ}
    (hRel : rel system.shared shared) (hInv : inv (accepted later) shared) {process : ι}
    {next : Process σ κ}
    (hNext : ∀ program, next = .attempting program → Safe apply inv rel post shared program) :
    Sharing.AllSafe apply inv rel post later { system.withProcess process next with shared } := by
  refine ⟨hInv, fun other program hProgram => ?_⟩
  by_cases hOther : other = process
  · subst hOther
    exact hNext program ((system.withProcess_self other next).symm.trans hProgram)
  · refine (h.safe other program ?_).mono hTrans hPost hRel
    exact (system.withProcess_of_ne hOther next).symm.trans hProgram

section Rule

variable {attempt : Program σ κ} (hRefl : ∀ shared, rel shared shared)
  (hTrans : ∀ first second third, rel first second → rel second third → rel first third)
  (hPost : ∀ before after, rel before after → post before → post after)
  (hRefused : ∀ shared command error after, apply shared command = (.error error, after) → after = shared)
  (hAttempt : ∀ past shared, inv past shared → Safe apply inv rel post shared attempt)

include hRefl hTrans hPost hRefused hAttempt

theorem safe_step (past : List (Move ι × Option κ)) (system : Sharing σ κ ι) (move : Move ι)
    (h : system.AllSafe apply inv rel post past) :
    (system.step apply attempt move).2.AllSafe apply inv rel post
      (past ++ [(move, (system.step apply attempt move).1)]) := by
  have hStays : ∀ process next, (∀ program, next = .attempting program →
      Safe apply inv rel post system.shared program) →
      Sharing.AllSafe apply inv rel post (past ++ [(move, none)]) (system.withProcess process next) :=
    fun process next hNext => h.update hTrans hPost (hRefl _)
      ((accepted_concat_none past move).symm ▸ h.holds) hNext
  have hSame : Sharing.AllSafe apply inv rel post (past ++ [(move, none)]) system :=
    ⟨(accepted_concat_none past move).symm ▸ h.holds, h.safe⟩
  cases move with
  | start process =>
    cases hProcess : system.processes process with
    | idle =>
      simp only [Sharing.step, hProcess]
      refine hStays process _ fun program hProgram => ?_
      cases hProgram
      exact hAttempt _ _ h.holds
    | attempting | gaveUp =>
      simp only [Sharing.step, hProcess]
      exact hSame
  | giveUp process =>
    cases hProcess : system.processes process with
    | idle =>
      simp only [Sharing.step, hProcess]
      exact hStays process _ fun program hProgram => by cases hProgram
    | attempting | gaveUp =>
      simp only [Sharing.step, hProcess]
      exact hSame
  | call process outcome =>
    cases hProcess : system.processes process with
    | idle | gaveUp =>
      simp only [Sharing.step, hProcess]
      exact hSame
    | attempting program =>
      have hSafe := h.safe process program hProcess
      rcases call_cases hRefused system.shared outcome program with
        ⟨next, hCall, hNext⟩ | ⟨command, rest, after, next, rfl, hApply, hCall, hNext⟩
      · simp only [Sharing.step, hProcess, hCall]
        refine hStays process next fun other hOther => ?_
        rcases hNext with rfl | rfl | ⟨reply, rfl, rfl⟩
        · cases hOther
        · cases hOther
          exact hSafe
        · cases hOther
          exact hSafe _ _ (hRefl _) h.holds
      · simp only [Sharing.step, hProcess, hCall]
        obtain ⟨hInv, hRel, hRest⟩ := hSafe _ _ after (hRefl _) h.holds hApply
        refine h.update hTrans hPost hRel ((accepted_concat_some past _ command).symm ▸ hInv) ?_
        intro other hOther
        rcases hNext with rfl | rfl
        · cases hOther
        · cases hOther
          exact hRest

theorem safe_run {system : Sharing σ κ ι} (hInv : inv [] system.shared)
    (hIdle : ∀ process, system.processes process = .idle) (moves : List (Move ι)) :
    (run (Sharing.step apply attempt) system moves).2.AllSafe apply inv rel post
      (run (Sharing.step apply attempt) system moves).1 := by
  refine run_history (safe_step hRefl hTrans hPost hRefused hAttempt) ⟨hInv, ?_⟩ moves
  intro process program hProgram
  rw [hIdle process] at hProgram
  cases hProgram

end Rule

/-- An attempt that returned is over. -/
theorem done_forever {attempt : Program σ κ} {system : Sharing σ κ ι} {process : ι}
    (h : system.processes process = .attempting .done) (moves : List (Move ι)) :
    (run (Sharing.step apply attempt) system moves).2.processes process = .attempting .done := by
  refine @run_invariant _ _ _ _ (fun system => system.processes process = .attempting .done) ?_ system h moves
  intro system move hDone
  cases move with
  | start other | giveUp other =>
    by_cases hOther : other = process
    · subst hOther
      simp only [Sharing.step, hDone]
    · rw [Sharing.step]
      split
      · exact (system.withProcess_of_ne (Ne.symm hOther) _).trans hDone
      · exact hDone
  | call other outcome =>
    by_cases hOther : other = process
    · subst hOther
      simp only [Sharing.step, hDone, call, Sharing.withProcess_self]
    · rw [Sharing.step]
      split
      · exact (system.withProcess_of_ne (Ne.symm hOther) _).trans hDone
      · exact hDone

end Sharing

end Vannak.Foundation
