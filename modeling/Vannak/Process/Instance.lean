import Vannak.Ingest.Event
import Vannak.Process.Timestamp

/-!
# The reducer of one process instance

`ProcessInstanceState` of `process.rs`. An event that is older than the last one applied
is dropped, so that the result depends on the order in which events arrive.
-/

namespace Vannak.Process

set_option autoImplicit false

inductive ProcessStatus where
  | unknown
  | active
  | completed
  | failed
  | cancelled
deriving DecidableEq, Repr

inductive ActivityState where
  | entered
  | completed
  | escalated
  | cancelled
  | gatewayTaken
  | failed
deriving DecidableEq, Repr

structure ProcessInstanceState where
  tenantId : TenantId
  environmentId : EnvironmentId
  pipelineId : PipelineId
  processDefinitionId : ProcessDefinitionId
  processInstanceId : ProcessInstanceId
  processVersion : Option ProcessVersion
  currentActivityId : Option ActivityId
  status : ProcessStatus
  startedAt : Option EventTimestamp
  lastUpdatedAt : EventTimestamp
  completedAt : Option EventTimestamp
  correlationId : Option CorrelationId
  businessKey : Option BusinessKey
  tokenId : Option TokenId
  activities : BTreeMap ActivityId ActivityState
  activityEnteredAt : BTreeMap ActivityId EventTimestamp
  activityDurations : BTreeMap ActivityId Nat
  metadataRefs : List MetadataRef
  retryCount : Nat
  lastError : Option ErrorInfo
deriving DecidableEq

namespace ProcessInstanceState

def new (event : PipelineEvent) : ProcessInstanceState where
  tenantId := event.tenantId
  environmentId := event.environmentId
  pipelineId := event.pipelineId
  processDefinitionId := event.processDefinitionId
  processInstanceId := event.processInstanceId
  processVersion := event.processVersion
  currentActivityId := none
  status := .unknown
  startedAt := none
  lastUpdatedAt := event.timestamp
  completedAt := none
  correlationId := event.correlationId
  businessKey := event.businessKey
  tokenId := event.tokenId
  activities := ∅
  activityEnteredAt := ∅
  activityDurations := ∅
  metadataRefs := event.metadataRefs
  retryCount := 0
  lastError := none

def recordActivityTerminal (state : ProcessInstanceState) (event : PipelineEvent)
    (activityState : ActivityState) : ProcessInstanceState :=
  match event.activityId with
  | none => state
  | some activityId =>
    let state := { state with activities := state.activities.insert activityId activityState }
    match state.activityEnteredAt[activityId]? with
    | none => state
    | some enteredAt => { state with
        activityDurations := state.activityDurations.insert activityId
          (saturatingDurationUntil enteredAt event.timestamp) }

/-- A terminal status is only replaced by another terminal one. -/
def isTerminal (state : ProcessInstanceState) : Bool :=
  state.status = .completed ∨ state.status = .failed ∨ state.status = .cancelled

def setStatusUnlessTerminal (wasTerminal : Bool) (status : ProcessStatus) (state : ProcessInstanceState) :
    ProcessInstanceState :=
  if wasTerminal then state else { state with status }

/-- The fields that every event updates. -/
def applyCommon (state : ProcessInstanceState) (event : PipelineEvent) : ProcessInstanceState := { state with
  lastUpdatedAt := event.timestamp
  processVersion := event.processVersion <|> state.processVersion
  correlationId := event.correlationId <|> state.correlationId
  businessKey := event.businessKey <|> state.businessKey
  tokenId := event.tokenId <|> state.tokenId
  currentActivityId := event.activityId <|> state.currentActivityId
  lastError := event.error <|> state.lastError
  metadataRefs := event.metadataRefs.foldl
    (fun refs metadataRef => if metadataRef ∈ refs then refs else refs ++ [metadataRef]) state.metadataRefs }

def applyKind (wasTerminal : Bool) (state : ProcessInstanceState) (event : PipelineEvent) :
    ProcessInstanceState :=
  match event.kind with
  | .processStarted =>
    let state := setStatusUnlessTerminal wasTerminal .active state
    { state with startedAt := state.startedAt <|> some event.timestamp }
  | .activityEntered =>
    let state := setStatusUnlessTerminal wasTerminal .active state
    match event.activityId with
    | none => state
    | some activityId => { state with
        activities := state.activities.insert activityId .entered
        activityEnteredAt := state.activityEnteredAt.insert activityId event.timestamp }
  | .activityCompleted =>
    (setStatusUnlessTerminal wasTerminal .active state).recordActivityTerminal event .completed
  | .activityEscalated =>
    (setStatusUnlessTerminal wasTerminal .active state).recordActivityTerminal event .escalated
  | .activityCancelled =>
    (setStatusUnlessTerminal wasTerminal .cancelled state).recordActivityTerminal event .cancelled
  | .gatewayTaken =>
    (setStatusUnlessTerminal wasTerminal .active state).recordActivityTerminal event .gatewayTaken
  | .processCompleted =>
    let state := { state with
      status := .completed
      completedAt := some event.timestamp
      currentActivityId := some ⟨"completed"⟩ }
    state.recordActivityTerminal event .completed
  | .processFailed =>
    let state := { state with status := .failed, retryCount := state.retryCount + 1 }
    state.recordActivityTerminal event .failed
  | .unknown _ => state

def apply (state : ProcessInstanceState) (event : PipelineEvent) : ProcessInstanceState :=
  if event.timestamp.asStr < state.lastUpdatedAt.asStr then state
  else applyKind state.isTerminal (state.applyCommon event) event

end ProcessInstanceState

/-- The owned view returned by queries; it has the fields of the state. -/
structure ProcessInstanceSnapshot where
  tenantId : TenantId
  environmentId : EnvironmentId
  pipelineId : PipelineId
  processDefinitionId : ProcessDefinitionId
  processInstanceId : ProcessInstanceId
  processVersion : Option ProcessVersion
  currentActivityId : Option ActivityId
  status : ProcessStatus
  startedAt : Option EventTimestamp
  lastUpdatedAt : EventTimestamp
  completedAt : Option EventTimestamp
  correlationId : Option CorrelationId
  businessKey : Option BusinessKey
  tokenId : Option TokenId
  activities : BTreeMap ActivityId ActivityState
  activityEnteredAt : BTreeMap ActivityId EventTimestamp
  activityDurations : BTreeMap ActivityId Nat
  metadataRefs : List MetadataRef
  retryCount : Nat
  lastError : Option ErrorInfo
deriving DecidableEq

def ProcessInstanceState.snapshot (state : ProcessInstanceState) : ProcessInstanceSnapshot where
  tenantId := state.tenantId
  environmentId := state.environmentId
  pipelineId := state.pipelineId
  processDefinitionId := state.processDefinitionId
  processInstanceId := state.processInstanceId
  processVersion := state.processVersion
  currentActivityId := state.currentActivityId
  status := state.status
  startedAt := state.startedAt
  lastUpdatedAt := state.lastUpdatedAt
  completedAt := state.completedAt
  correlationId := state.correlationId
  businessKey := state.businessKey
  tokenId := state.tokenId
  activities := state.activities
  activityEnteredAt := state.activityEnteredAt
  activityDurations := state.activityDurations
  metadataRefs := state.metadataRefs
  retryCount := state.retryCount
  lastError := state.lastError

end Vannak.Process
