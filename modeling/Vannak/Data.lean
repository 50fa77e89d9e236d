import Vannak.Identity

/-!
# Metadata of data individuals

The metadata values, operations and provenance events of `data.rs`. The fields of a
provenance event are private to its module and only set by `new` and the `with_*`
builders, so that its idempotency key is always the one derived from its two
identifiers; the structure carries that fact.
-/

namespace Vannak

set_option autoImplicit false

inductive MetadataValue where
  | string (value : String)
  | integer (value : Int64)
  | boolean (value : Bool)
  | timestamp (value : EventTimestamp)
  | stringList (values : List String)
deriving DecidableEq, Repr

/-- Passive metadata observed at receive/create boundaries. -/
structure PassiveMetadata where
  fields : BTreeMap MetadataFieldName MetadataValue
deriving DecidableEq, Repr

def PassiveMetadata.new : PassiveMetadata := ⟨∅⟩

/-- Active metadata produced by transformations, masking, validation, and
enrichment. -/
structure ActiveMetadata where
  fields : BTreeMap MetadataFieldName MetadataValue
deriving DecidableEq, Repr

def ActiveMetadata.new : ActiveMetadata := ⟨∅⟩

inductive MetadataOperation where
  | created
  | received
  | transformed (pluginName : Option PluginName) (pluginVersion : Option PluginVersion)
  | masked (fields : List String)
  | validated (passed : Bool)
  | enriched (source : Option String)
  | routed
  | persisted
deriving DecidableEq, Repr

/-- `format!("{}:{}", data_individual_id, metadata_event_id)`. -/
def IdempotencyKey.derived (dataIndividualId : DataIndividualId) (metadataEventId : MetadataEventId) :
    IdempotencyKey :=
  ⟨dataIndividualId.asStr ++ ":" ++ metadataEventId.asStr⟩

/-- Provenance event for one flowing data item. -/
structure DataIndividualMetadataEvent where
  metadataEventId : MetadataEventId
  dataIndividualId : DataIndividualId
  dataIndividualShardId : DataIndividualShardId
  tenantId : TenantId
  environmentId : EnvironmentId
  pipelineId : PipelineId
  processInstanceId : ProcessInstanceId
  activityId : Option ActivityId
  timestamp : EventTimestamp
  operation : MetadataOperation
  passiveMetadata : PassiveMetadata
  activeMetadata : ActiveMetadata
  sourcePayloadRef : Option PayloadRef
  idempotencyKey : IdempotencyKey
  idempotencyKey_eq : idempotencyKey = IdempotencyKey.derived dataIndividualId metadataEventId
deriving DecidableEq

namespace DataIndividualMetadataEvent

def new (metadataEventId : MetadataEventId) (dataIndividualId : DataIndividualId)
    (dataIndividualShardId : DataIndividualShardId) (tenantId : TenantId) (environmentId : EnvironmentId)
    (pipelineId : PipelineId) (processInstanceId : ProcessInstanceId) (timestamp : EventTimestamp)
    (operation : MetadataOperation) : DataIndividualMetadataEvent where
  metadataEventId := metadataEventId
  dataIndividualId := dataIndividualId
  dataIndividualShardId := dataIndividualShardId
  tenantId := tenantId
  environmentId := environmentId
  pipelineId := pipelineId
  processInstanceId := processInstanceId
  activityId := none
  timestamp := timestamp
  operation := operation
  passiveMetadata := PassiveMetadata.new
  activeMetadata := ActiveMetadata.new
  sourcePayloadRef := none
  idempotencyKey := IdempotencyKey.derived dataIndividualId metadataEventId
  idempotencyKey_eq := rfl

def withActivityId (event : DataIndividualMetadataEvent) (activityId : ActivityId) :
    DataIndividualMetadataEvent :=
  { event with activityId := some activityId }

def withPassiveMetadata (event : DataIndividualMetadataEvent) (passiveMetadata : PassiveMetadata) :
    DataIndividualMetadataEvent :=
  { event with passiveMetadata }

def withActiveMetadata (event : DataIndividualMetadataEvent) (activeMetadata : ActiveMetadata) :
    DataIndividualMetadataEvent :=
  { event with activeMetadata }

def withSourcePayloadRef (event : DataIndividualMetadataEvent) (sourcePayloadRef : PayloadRef) :
    DataIndividualMetadataEvent :=
  { event with sourcePayloadRef := some sourcePayloadRef }

end DataIndividualMetadataEvent

end Vannak
