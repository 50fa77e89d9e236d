import Vannak.Foundation.Records
import Vannak.Process.Queries

/-!
# What the reducer computes

An event that is older than the last one applied is dropped, so that the state of an instance depends on the records
of its events only, and over these its fields have closed forms.
-/

namespace Vannak.Process

open Foundation

set_option autoImplicit false

/-! ## Dropped events -/

def timeKey (event : PipelineEvent) : String := event.timestamp.asStr

/-- The events that are no older than any before them. -/
def runningMaxima (events : List PipelineEvent) : List PipelineEvent := records timeKey events

def reduceStep (state : Option ProcessInstanceState) (event : PipelineEvent) : Option ProcessInstanceState :=
  some ((state.getD (.new event)).apply event)

def lastUpdate : Option ProcessInstanceState → WithBot String
  | none => ⊥
  | some state => state.lastUpdatedAt.asStr

theorem drops_reduceStep : Drops timeKey reduceStep lastUpdate where
  drop state event hOlder := by
    cases state with
    | none => exact absurd hOlder not_lt_bot
    | some state =>
      rw [reduceStep, Option.getD_some, ProcessInstanceState.apply, if_pos]
      exact WithBot.coe_lt_coe.mp hOlder
  take state event hNewer := by
    rw [reduceStep, lastUpdate, ProcessInstanceState.lastUpdatedAt_apply]
    cases state with
    | none =>
      rw [Option.getD_none]
      split <;> rfl
    | some state =>
      rw [Option.getD_some, if_neg]
      · rfl
      · exact fun hOlder => hNewer (WithBot.coe_lt_coe.mpr hOlder)

theorem reduceEvents_runningMaxima (events : List PipelineEvent) :
    reduceEvents (runningMaxima events) = reduceEvents events :=
  drops_reduceStep.foldl_records rfl events

theorem lastUpdatedAt_maximum {events : List PipelineEvent} {state : ProcessInstanceState}
    (h : reduceEvents events = some state) :
    (∃ event ∈ events, event.timestamp = state.lastUpdatedAt) ∧
      ∀ event ∈ events, event.timestamp.asStr ≤ state.lastUpdatedAt.asStr := by
  have hMaximum : lastUpdate (reduceEvents events) = (events.map timeKey).maximum :=
    drops_reduceStep.top_foldl rfl events
  rw [h, lastUpdate] at hMaximum
  obtain ⟨hMem, hAll⟩ := List.maximum_eq_coe_iff.mp hMaximum.symm
  obtain ⟨event, hEvent, hSame⟩ := List.mem_map.mp hMem
  exact ⟨⟨event, hEvent, congrArg StringId.mk hSame⟩, fun other hOther => hAll _ (List.mem_map_of_mem hOther)⟩

/-! ## The status -/

def EventKind.IsKnown : EventKind → Bool
  | .unknown _ => false
  | _ => true

/-- The last event that ended the process. -/
def lastOutcome (events : List PipelineEvent) : Option PipelineEvent :=
  (events.filter fun event => event.kind = .processCompleted ∨ event.kind = .processFailed).getLast?

/-- The status that events leave, of which none is dropped. -/
def statusAfter (events : List PipelineEvent) : ProcessStatus :=
  match lastOutcome events with
  | some event => if event.kind = .processCompleted then .completed else .failed
  | none =>
    if events.any fun event => event.kind = .activityCancelled then .cancelled
    else if events.any fun event => EventKind.IsKnown event.kind then .active
    else .unknown

def ProcessStatus.IsTerminal (status : ProcessStatus) : Bool :=
  status = .completed ∨ status = .failed ∨ status = .cancelled

/-- The status after one more event of the kind. -/
def ProcessStatus.next (status : ProcessStatus) : EventKind → ProcessStatus
  | .processCompleted => .completed
  | .processFailed => .failed
  | .activityCancelled => if status.IsTerminal then status else .cancelled
  | .processStarted | .activityEntered | .activityCompleted | .activityEscalated | .gatewayTaken =>
    if status.IsTerminal then status else .active
  | .unknown _ => status

theorem lastOutcome_concat (events : List PipelineEvent) (event : PipelineEvent) :
    lastOutcome (events ++ [event]) =
      if event.kind = .processCompleted ∨ event.kind = .processFailed then some event else lastOutcome events := by
  rw [lastOutcome, List.filter_append, List.filter_singleton]
  by_cases hOutcome : event.kind = .processCompleted ∨ event.kind = .processFailed
  · rw [if_pos hOutcome, decide_eq_true hOutcome, cond_true, List.getLast?_concat]
  · rw [if_neg hOutcome, decide_eq_false hOutcome, cond_false, List.append_nil, lastOutcome]

theorem isTerminal_statusAfter {events : List PipelineEvent} {event : PipelineEvent}
    (h : lastOutcome events = some event) : (statusAfter events).IsTerminal = true := by
  rw [statusAfter, h]
  dsimp only
  split <;> rfl

theorem statusAfter_concat (events : List PipelineEvent) (event : PipelineEvent) :
    statusAfter (events ++ [event]) = (statusAfter events).next event.kind := by
  cases hOutcome : lastOutcome events with
  | some last =>
    have hTerminal := isTerminal_statusAfter hOutcome
    cases hKind : event.kind with
    | processCompleted | processFailed => simp [statusAfter, lastOutcome_concat, hKind, ProcessStatus.next]
    | _ =>
      have hSame : statusAfter (events ++ [event]) = statusAfter events := by
        rw [statusAfter, statusAfter, lastOutcome_concat, hKind, if_neg (by simp), hOutcome]
      rw [hSame]
      simp [ProcessStatus.next, hTerminal]
  | none =>
    cases hKind : event.kind with
    | processCompleted | processFailed => simp [statusAfter, lastOutcome_concat, hKind, ProcessStatus.next]
    | _ =>
      have hSame : lastOutcome (events ++ [event]) = none := by
        rw [lastOutcome_concat, hKind, if_neg (by simp), hOutcome]
      rw [statusAfter, statusAfter, hSame, hOutcome, List.any_append, List.any_append]
      simp only [List.any_cons, List.any_nil, hKind, Bool.or_false]
      -- what is left depends on whether an earlier event was a cancellation, and whether one was known
      generalize (events.any fun event => event.kind = .activityCancelled) = cancelled
      generalize (events.any fun event => EventKind.IsKnown event.kind) = known
      cases cancelled <;> cases known <;> rfl

/-! ## The other fields -/

def completedAtAfter (events : List PipelineEvent) : Option EventTimestamp :=
  ((events.filter fun event => event.kind = .processCompleted).getLast?).map PipelineEvent.timestamp

def startedAtAfter (events : List PipelineEvent) : Option EventTimestamp :=
  (events.find? fun event => event.kind = .processStarted).map PipelineEvent.timestamp

namespace ProcessInstanceState

/-- The activities that were entered are known, and those with a duration were entered. -/
def Nested (state : ProcessInstanceState) : Prop :=
  (∀ activityId, activityId ∈ state.activityDurations → activityId ∈ state.activityEnteredAt) ∧
    ∀ activityId, activityId ∈ state.activityEnteredAt → activityId ∈ state.activities

theorem recordActivityTerminal_fields (state : ProcessInstanceState) (event : PipelineEvent)
    (activityState : ActivityState) :
    (state.recordActivityTerminal event activityState).status = state.status ∧
      (state.recordActivityTerminal event activityState).completedAt = state.completedAt ∧
      (state.recordActivityTerminal event activityState).startedAt = state.startedAt ∧
      (state.recordActivityTerminal event activityState).retryCount = state.retryCount ∧
      (state.recordActivityTerminal event activityState).pipelineId = state.pipelineId ∧
      (state.recordActivityTerminal event activityState).metadataRefs = state.metadataRefs := by
  rw [recordActivityTerminal]
  split
  · exact ⟨rfl, rfl, rfl, rfl, rfl, rfl⟩
  · dsimp only
    split <;> exact ⟨rfl, rfl, rfl, rfl, rfl, rfl⟩

theorem Nested.recordActivityTerminal {state : ProcessInstanceState} (h : state.Nested) (event : PipelineEvent)
    (activityState : ActivityState) : (state.recordActivityTerminal event activityState).Nested := by
  have hKnown : ∀ (activities : BTreeMap ActivityId ActivityState) (activityId other : ActivityId),
      other ∈ activities → other ∈ activities.insert activityId activityState :=
    fun activities activityId other hOther => Std.ExtTreeMap.mem_insert.mpr (.inr hOther)
  rw [ProcessInstanceState.recordActivityTerminal]
  split
  · exact h
  · rename_i activityId _
    dsimp only
    split
    · exact ⟨h.1, fun other hOther => hKnown _ _ _ (h.2 other hOther)⟩
    · rename_i enteredAt hEntered
      refine ⟨fun other hOther => ?_, fun other hOther => hKnown _ _ _ (h.2 other hOther)⟩
      rcases Std.ExtTreeMap.mem_insert.mp hOther with hSame | hOld
      · obtain rfl := Std.LawfulEqOrd.eq_of_compare hSame
        rw [Std.ExtTreeMap.mem_iff_isSome_getElem?, hEntered]
        rfl
      · exact h.1 other hOld

theorem setStatusUnlessTerminal_eq (wasTerminal : Bool) (status : ProcessStatus) (state : ProcessInstanceState) :
    setStatusUnlessTerminal wasTerminal status state =
      { state with status := if wasTerminal then state.status else status } := by
  rw [setStatusUnlessTerminal]
  split <;> rfl

theorem isTerminal_eq (state : ProcessInstanceState) : state.isTerminal = state.status.IsTerminal := rfl

/-- What an event that is applied does to the fields beside the activities. -/
theorem applyKind_fields (state : ProcessInstanceState) (event : PipelineEvent) :
    (applyKind state.isTerminal state event).status = state.status.next event.kind ∧
      (applyKind state.isTerminal state event).completedAt =
        (if event.kind = .processCompleted then some event.timestamp else state.completedAt) ∧
      (applyKind state.isTerminal state event).startedAt =
        (state.startedAt <|> if event.kind = .processStarted then some event.timestamp else none) ∧
      (applyKind state.isTerminal state event).retryCount =
        (state.retryCount + if event.kind = .processFailed then 1 else 0) ∧
      (applyKind state.isTerminal state event).pipelineId = state.pipelineId ∧
      (applyKind state.isTerminal state event).metadataRefs = state.metadataRefs := by
  rw [applyKind, isTerminal_eq]
  cases hKind : event.kind with
  | activityEntered =>
    simp only [setStatusUnlessTerminal_eq]
    cases event.activityId <;> simp [ProcessStatus.next]
  | _ => simp [setStatusUnlessTerminal_eq, recordActivityTerminal_fields, ProcessStatus.next]

theorem Nested.applyKind {state : ProcessInstanceState} (h : state.Nested) (wasTerminal : Bool)
    (event : PipelineEvent) : (ProcessInstanceState.applyKind wasTerminal state event).Nested := by
  rw [ProcessInstanceState.applyKind]
  cases event.kind with
  | activityEntered =>
    simp only [setStatusUnlessTerminal_eq]
    split
    · exact h
    · rename_i activityId _
      refine ⟨fun other hOther => Std.ExtTreeMap.mem_insert.mpr (.inr (h.1 other hOther)), fun other hOther => ?_⟩
      rcases Std.ExtTreeMap.mem_insert.mp hOther with hSame | hOld
      · exact Std.ExtTreeMap.mem_insert.mpr (.inl hSame)
      · exact Std.ExtTreeMap.mem_insert.mpr (.inr (h.2 other hOld))
  | processStarted | unknown name =>
    simp only [setStatusUnlessTerminal_eq]
    exact h
  | _ =>
    simp only [setStatusUnlessTerminal_eq]
    refine Nested.recordActivityTerminal ?_ _ _
    exact h

/-- The state in terms of the events that were applied and not dropped. -/
structure Summarizes (state : ProcessInstanceState) (events : List PipelineEvent) : Prop where
  status : state.status = statusAfter events
  completedAt : state.completedAt = completedAtAfter events
  startedAt : state.startedAt = startedAtAfter events
  retryCount : state.retryCount = events.countP fun event => event.kind = .processFailed
  nested : state.Nested

theorem summarizes_new (event : PipelineEvent) : (new event).Summarizes [] where
  status := rfl
  completedAt := rfl
  startedAt := rfl
  retryCount := rfl
  nested := ⟨fun activityId hMem => by simp [new] at hMem, fun activityId hMem => by simp [new] at hMem⟩

theorem completedAtAfter_concat (events : List PipelineEvent) (event : PipelineEvent) :
    completedAtAfter (events ++ [event]) =
      if event.kind = .processCompleted then some event.timestamp else completedAtAfter events := by
  rw [completedAtAfter, List.filter_append, List.filter_singleton]
  by_cases hKind : event.kind = .processCompleted
  · rw [if_pos hKind, decide_eq_true hKind, cond_true, List.getLast?_concat, Option.map_some]
  · rw [if_neg hKind, decide_eq_false hKind, cond_false, List.append_nil, completedAtAfter]

theorem startedAtAfter_concat (events : List PipelineEvent) (event : PipelineEvent) :
    startedAtAfter (events ++ [event]) =
      (startedAtAfter events <|> if event.kind = .processStarted then some event.timestamp else none) := by
  rw [startedAtAfter, startedAtAfter, List.find?_append, List.find?_singleton]
  cases events.find? fun event => event.kind = .processStarted with
  | some first => rfl
  | none =>
    by_cases hKind : event.kind = .processStarted <;> simp [hKind]

theorem Summarizes.apply {state : ProcessInstanceState} {events : List PipelineEvent} (h : state.Summarizes events)
    {event : PipelineEvent} (hNewer : ¬event.timestamp.asStr < state.lastUpdatedAt.asStr) :
    (state.apply event).Summarizes (events ++ [event]) := by
  have hTerminal : state.isTerminal = (state.applyCommon event).isTerminal := rfl
  rw [ProcessInstanceState.apply, if_neg hNewer, hTerminal]
  obtain ⟨hStatus, hCompleted, hStarted, hRetries, -, -⟩ := applyKind_fields (state.applyCommon event) event
  have hNested : (state.applyCommon event).Nested := h.nested
  refine ⟨?_, ?_, ?_, ?_, hNested.applyKind _ event⟩
  · rw [hStatus, statusAfter_concat, ← h.status]
    rfl
  · rw [hCompleted, completedAtAfter_concat, ← h.completedAt]
    rfl
  · rw [hStarted, startedAtAfter_concat, ← h.startedAt]
    rfl
  · rw [hRetries, List.countP_append, List.countP_singleton, ← h.retryCount]
    simp [applyCommon]

end ProcessInstanceState

/-- No state before the first event, and then one that summarizes what was taken. -/
def Summary (taken : List PipelineEvent) : Option ProcessInstanceState → Prop
  | none => taken = []
  | some state => state.Summarizes taken

theorem summary_reduceStep {taken : List PipelineEvent} {current : Option ProcessInstanceState}
    {event : PipelineEvent} (h : Summary taken current)
    (hNewer : ¬(timeKey event : WithBot String) < lastUpdate current) :
    Summary (taken ++ [event]) (reduceStep current event) := by
  cases current with
  | none =>
    obtain rfl : taken = [] := h
    exact (ProcessInstanceState.summarizes_new event).apply (lt_irrefl _)
  | some state =>
    exact ProcessInstanceState.Summarizes.apply h fun hOlder => hNewer (WithBot.coe_lt_coe.mpr hOlder)

/-- The state of an instance summarizes the running maxima of its events. -/
theorem summary_reduceEvents (events : List PipelineEvent) : Summary (runningMaxima events) (reduceEvents events) :=
  drops_reduceStep.records_induction rfl rfl (fun _ _ _ => summary_reduceStep) events

/-- The state of every instance depends on the running maxima of its accepted events alone, and its status, its
times, its retries and its activity maps are read off them. -/
theorem reducer_determined_by_runningMaxima (ingested : List PipelineEvent) (id : ProcessInstanceId) :
    let own := (acceptedLog ingested).filter fun event => event.processInstanceId = id
    let taken := runningMaxima own
    (HotIndex.new.ingestAll ingested).processInstances[id]? = reduceEvents own ∧
      reduceEvents own = reduceEvents taken ∧
      ∀ state, reduceEvents own = some state →
        ((∃ event ∈ own, event.timestamp = state.lastUpdatedAt) ∧
          ∀ event ∈ own, event.timestamp.asStr ≤ state.lastUpdatedAt.asStr) ∧
        state.status = statusAfter taken ∧
        state.completedAt =
          ((taken.filter fun event => event.kind = .processCompleted).getLast?).map PipelineEvent.timestamp ∧
        state.startedAt = (taken.find? fun event => event.kind = .processStarted).map PipelineEvent.timestamp ∧
        state.retryCount = (taken.countP fun event => event.kind = .processFailed) ∧
        (∀ activityId, activityId ∈ state.activityDurations → activityId ∈ state.activityEnteredAt) ∧
        ∀ activityId, activityId ∈ state.activityEnteredAt → activityId ∈ state.activities := by
  intro own taken
  refine ⟨(HotIndex.indexes_ingestAll ingested).instances id, (reduceEvents_runningMaxima own).symm,
    fun state hState => ?_⟩
  have hSummary := summary_reduceEvents own
  rw [hState] at hSummary
  obtain ⟨hStatus, hCompleted, hStarted, hRetries, hNested⟩ := hSummary
  exact ⟨lastUpdatedAt_maximum hState, hStatus, hCompleted, hStarted, hRetries, hNested⟩

end Vannak.Process
