import Vannak.Identity

/-!
# Process events

The event accepted by the hot path with everything it carries: `PipelineEvent` of
`ingest.rs`, the lifecycle types of `process.rs` and the metadata references of
`metadata.rs`.
-/

namespace Vannak

open Foundation

set_option autoImplicit false

/-! ## Lifecycle and metadata types -/

inductive EventStatus where
  | started
  | completed
  | failed
  | escalated
  | cancelled
deriving DecidableEq, Repr

inductive EventKind where
  | processStarted
  | activityEntered
  | activityCompleted
  | activityEscalated
  | activityCancelled
  | gatewayTaken
  | processCompleted
  | processFailed
  | unknown (name : String)
deriving DecidableEq, Repr

def EventKind.inferredStatus : EventKind → EventStatus
  | processStarted | activityEntered => .started
  | activityCompleted | gatewayTaken | processCompleted => .completed
  | activityEscalated => .escalated
  | activityCancelled => .cancelled
  | processFailed => .failed
  | unknown _ => .started

structure ErrorInfo where
  message : String
  code : Option String
deriving DecidableEq, Repr

/-- Typed reference from a process event to the metadata graph. -/
inductive MetadataRef where
  | dataset (id : DatasetId)
  | schema (id : SchemaId) (version : Option MetadataVersion)
  | field (id : FieldId)
  | pipelineDefinition (id : PipelineDefinitionId) (version : Option MetadataVersion)
  | object (id : MetadataObjectId)
  | lineageEdge (id : LineageEdgeId)
  | dataContract (id : DataContractId)
  | owner (id : OwnerId)
  | classification (id : ClassificationId)
deriving DecidableEq, Repr

/-! ## Pipeline events -/

structure PipelineEvent where
  eventId : EventId
  sourceId : SourceId
  sourceSequence : SourceSequence
  tenantId : TenantId
  environmentId : EnvironmentId
  pipelineId : PipelineId
  processDefinitionId : ProcessDefinitionId
  processInstanceId : ProcessInstanceId
  processVersion : Option ProcessVersion
  activityId : Option ActivityId
  tokenId : Option TokenId
  correlationId : Option CorrelationId
  businessKey : Option BusinessKey
  timestamp : EventTimestamp
  status : EventStatus
  kind : EventKind
  error : Option ErrorInfo
  metadataRefs : List MetadataRef
  metadataVersion : Option MetadataVersion
  causalParent : Option EventId
  payload : Option String
deriving DecidableEq, Repr

inductive IngestError where
  | emptyField (field : String)
deriving DecidableEq, Repr

def validateNonEmpty (field value : String) : Except IngestError Unit :=
  if value = "" then .error (.emptyField field) else .ok ()

namespace PipelineEvent

def new (eventId : EventId) (sourceId : SourceId) (sourceSequence : SourceSequence)
    (tenantId : TenantId) (environmentId : EnvironmentId) (pipelineId : PipelineId)
    (processDefinitionId : ProcessDefinitionId) (processInstanceId : ProcessInstanceId)
    (timestamp : EventTimestamp) (kind : EventKind) : PipelineEvent where
  eventId := eventId
  sourceId := sourceId
  sourceSequence := sourceSequence
  tenantId := tenantId
  environmentId := environmentId
  pipelineId := pipelineId
  processDefinitionId := processDefinitionId
  processInstanceId := processInstanceId
  processVersion := none
  activityId := none
  tokenId := none
  correlationId := none
  businessKey := none
  timestamp := timestamp
  status := kind.inferredStatus
  kind := kind
  error := none
  metadataRefs := []
  metadataVersion := none
  causalParent := none
  payload := none

def withStatus (event : PipelineEvent) (status : EventStatus) : PipelineEvent :=
  { event with status }

def withProcessVersion (event : PipelineEvent) (version : ProcessVersion) : PipelineEvent :=
  { event with processVersion := some version }

def withActivityId (event : PipelineEvent) (activityId : ActivityId) : PipelineEvent :=
  { event with activityId := some activityId }

def withTokenId (event : PipelineEvent) (tokenId : TokenId) : PipelineEvent :=
  { event with tokenId := some tokenId }

def withCorrelationId (event : PipelineEvent) (correlationId : CorrelationId) : PipelineEvent :=
  { event with correlationId := some correlationId }

def withBusinessKey (event : PipelineEvent) (businessKey : BusinessKey) : PipelineEvent :=
  { event with businessKey := some businessKey }

def withError (event : PipelineEvent) (error : ErrorInfo) : PipelineEvent :=
  { event with error := some error }

def withMetadataRefs (event : PipelineEvent) (metadataRefs : List MetadataRef) : PipelineEvent :=
  { event with metadataRefs }

def withMetadataVersion (event : PipelineEvent) (metadataVersion : MetadataVersion) : PipelineEvent :=
  { event with metadataVersion := some metadataVersion }

def withCausalParent (event : PipelineEvent) (causalParent : EventId) : PipelineEvent :=
  { event with causalParent := some causalParent }

def withPayload (event : PipelineEvent) (payload : String) : PipelineEvent :=
  { event with payload := some payload }

def validate (event : PipelineEvent) : Except IngestError Unit := do
  validateNonEmpty "event_id" event.eventId.asStr
  validateNonEmpty "source_id" event.sourceId.asStr
  validateNonEmpty "tenant_id" event.tenantId.asStr
  validateNonEmpty "environment_id" event.environmentId.asStr
  validateNonEmpty "pipeline_id" event.pipelineId.asStr
  validateNonEmpty "process_definition_id" event.processDefinitionId.asStr
  validateNonEmpty "process_instance_id" event.processInstanceId.asStr
  validateNonEmpty "timestamp" event.timestamp.asStr

end PipelineEvent

end Vannak
