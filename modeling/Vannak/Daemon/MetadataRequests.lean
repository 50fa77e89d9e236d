import Vannak.Daemon.IngestRequests

/-!
# Provenance events over HTTP

`parse_metadata_event_json` and `handle_metadata_ingest_request` of `daemon.rs`. Whatever is
made of a request passes the check of the event, and every event that passes it can be posted.
-/

namespace Vannak

open Foundation Storage

set_option autoImplicit false

/-- `from_data_individual`. -/
def DataIndividualShardId.fromDataIndividual (dataIndividualId : DataIndividualId) : DataIndividualShardId :=
  fnv1a (utf8Bytes dataIndividualId.asStr)

namespace Ipto

def IptoPayloadDecodeError.display : IptoPayloadDecodeError → String
  | unexpectedEof => "unexpected end of Ipto payload bytes"
  | invalidUtf8 => "Ipto payload contains invalid UTF-8"
  | invalidValueTag tag => "invalid Ipto metadata value tag " ++ toString tag
  | trailingBytes count => "Ipto payload has " ++ toString count ++ " trailing undecoded bytes"

def MetadataOutboxStorageError.display (io : IoError → String) : MetadataOutboxStorageError → String
  | segment error => "metadata outbox segment error: " ++ error.display io
  | payloadDecode error => "metadata outbox payload decode error: " ++ error.display

end Ipto

def Service.CaptureError.display (io : IoError → String) : Service.CaptureError → String
  | processIngest error => error.display
  | controlPlane message => "control plane unavailable: " ++ message
  | noPlacementTarget shardId => "no Ipto placement target for shard " ++ toString shardId
  | writerLeaseNotHeld target holder => "node '" ++ holder.asStr ++
      "' does not hold writer lease for Ipto target '" ++ target.asStr ++ "'"
  | outbox error => error.display io

end Vannak

namespace Vannak.Daemon

open Foundation Storage Ipto Cluster Vannak.Runtime Service

set_option autoImplicit false

/-! ## The event -/

def required (value : Json) (field : String) : Except String String :=
  match (jsonStringField value field).filter fun text => !isBlank text with
  | some text => .ok text
  | none => .error ("missing or empty " ++ field)

def metadataShardOf (value : Json) (dataId : DataIndividualId) : Except String DataIndividualShardId :=
  match value.field "data_individual_shard_id" with
  | some shard => shard.asU64.elim (.error "invalid data_individual_shard_id") .ok
  | none => .ok (.fromDataIndividual dataId)

def metadataOperationOf (value : Json) : Except String MetadataOperation := do
  let name ← required value "operation"
  if name = "Created" then return .created
  else if name = "Received" then return .received
  else if name = "Transformed" then
    return .transformed ((jsonStringField value "plugin_name").map StringId.mk)
      ((jsonStringField value "plugin_version").map StringId.mk)
  else if name = "Masked" then
    let fields ← ((value.field "fields").bind Json.asArray).elim (.error "Masked requires fields") .ok
    return .masked (← Json.strings "invalid masked field" fields)
  else if name = "Validated" then
    return .validated (← ((value.field "passed").bind Json.asBool).elim (.error "Validated requires passed") .ok)
  else if name = "Enriched" then return .enriched (jsonStringField value "source")
  else if name = "Routed" then return .routed
  else if name = "Persisted" then return .persisted
  else .error "invalid metadata operation"

def metadataValueOf : Json → Except String MetadataValue
  | .string value => .ok (.string value)
  | .bool value => .ok (.boolean value)
  | .array values => (Json.strings "metadata lists must contain strings" values).map .stringList
  | .object [field] =>
    match jsonStringField (.object [field]) "timestamp" with
    | some timestamp => .ok (.timestamp ⟨timestamp⟩)
    | none => .error "expected timestamp object"
  | .number value =>
    (Json.number value).asI64.elim (.error "metadata numbers must be signed integers") fun value => .ok (.integer value)
  | .otherNumber text =>
    (Json.otherNumber text).asI64.elim (.error "metadata numbers must be signed integers") fun value =>
      .ok (.integer value)
  | _ => .error "unsupported metadata value"

abbrev MetadataFields := BTreeMap MetadataFieldName MetadataValue

/-- One round of the loop over the fields of a map. -/
def insertMetadataField (built : MetadataFields) (field : String × Json) : Except String MetadataFields := do
  return built.insert ⟨field.1⟩ (← metadataValueOf field.2)

/-- The loop for `passive_metadata` or `active_metadata`. -/
def metadataFieldsOf (value : Json) (field : String) : Except String MetadataFields :=
  match value.field field with
  | none => .ok ∅
  | some fields =>
    match fields.asObject with
    | none => .error (field ++ " must be an object")
    | some fields => fields.foldlM insertMetadataField ∅

/-- The event of a parsed body. -/
def metadataEventOf (value : Json) : Except String DataIndividualMetadataEvent := do
  let dataId : DataIndividualId := ⟨← required value "data_individual_id"⟩
  let shard ← metadataShardOf value dataId
  let operation ← metadataOperationOf value
  let event := DataIndividualMetadataEvent.new ⟨← required value "metadata_event_id"⟩ dataId shard
    ⟨← required value "tenant_id"⟩ ⟨← required value "environment_id"⟩ ⟨← required value "pipeline_id"⟩
    ⟨← required value "process_instance_id"⟩ ⟨← required value "timestamp"⟩ operation
  let event := { event with
    activityId := (jsonStringField value "activity_id").map StringId.mk
    sourcePayloadRef := (jsonStringField value "source_payload_ref").map StringId.mk }
  let passive ← metadataFieldsOf value "passive_metadata"
  let active ← metadataFieldsOf value "active_metadata"
  let event := (event.withPassiveMetadata ⟨passive⟩).withActiveMetadata ⟨active⟩
  event.validate.mapError IngestError.display
  return event

def parseMetadataEventJson (texts : Texts) (body : String) : Except String DataIndividualMetadataEvent := do
  metadataEventOf (← texts.fromStr body)

/-! ## The handler -/

section Handler

variable {config : SitasRuntimeConfig}

def captureAnswer (texts : Texts) : Except CaptureError MetadataCaptureResult → String × String
  | .ok result => ("200 OK", texts.toText (.ofFields [
      ("status", .string (if result.result = .duplicate then "duplicate" else "accepted")),
      ("target", .string result.target.asStr)]))
  | .error error => texts.serviceErrorResponse (error.display texts.io)

def handleMetadataIngestRequest (texts : Texts) (read : Except String ClusterControlState)
    (service : VannakService config) (body : String) : (String × String) × VannakService config :=
  match parseMetadataEventJson texts body with
  | .error error => (("400 Bad Request", texts.errorJson error), service)
  | .ok event =>
    let (result, service) := service.captureMetadataEvent read event
    (captureAnswer texts result, service)

end Handler

/-! ## The events that can be posted -/

/-- The name and the further fields of an operation. -/
def operationTag : MetadataOperation → String
  | .created => "Created"
  | .received => "Received"
  | .transformed _ _ => "Transformed"
  | .masked _ => "Masked"
  | .validated _ => "Validated"
  | .enriched _ => "Enriched"
  | .routed => "Routed"
  | .persisted => "Persisted"

def operationFields : MetadataOperation → List (String × Json)
  | .transformed pluginName pluginVersion => [("plugin_name", optionalJson (pluginName.map StringId.asStr)),
      ("plugin_version", optionalJson (pluginVersion.map StringId.asStr))]
  | .masked fields => [("fields", .array (fields.map .string))]
  | .validated passed => [("passed", .bool passed)]
  | .enriched source => [("source", optionalJson source)]
  | _ => []

def metadataValueJson : MetadataValue → Json
  | .string value => .string value
  | .integer value => .ofI64 value
  | .boolean value => .bool value
  | .timestamp value => .object [("timestamp", .string value.asStr)]
  | .stringList values => .array (values.map .string)

def metadataFieldJson (field : MetadataFieldName × MetadataValue) : String × Json :=
  (field.1.asStr, metadataValueJson field.2)

def metadataFieldsJson (fields : MetadataFields) : Json := .object (fields.toList.map metadataFieldJson)

/-- The fields of a request that spells out an event. -/
def metadataRequestFields (event : DataIndividualMetadataEvent) : List (String × Json) :=
  [("metadata_event_id", .string event.metadataEventId.asStr),
    ("data_individual_id", .string event.dataIndividualId.asStr),
    ("data_individual_shard_id", .number event.dataIndividualShardId),
    ("tenant_id", .string event.tenantId.asStr), ("environment_id", .string event.environmentId.asStr),
    ("pipeline_id", .string event.pipelineId.asStr), ("process_instance_id", .string event.processInstanceId.asStr),
    ("timestamp", .string event.timestamp.asStr), ("operation", .string (operationTag event.operation)),
    ("activity_id", optionalJson (event.activityId.map StringId.asStr)),
    ("source_payload_ref", optionalJson (event.sourcePayloadRef.map StringId.asStr)),
    ("passive_metadata", metadataFieldsJson event.passiveMetadata.fields),
    ("active_metadata", metadataFieldsJson event.activeMetadata.fields)] ++ operationFields event.operation

def metadataRequest (event : DataIndividualMetadataEvent) : Json := .ofFields (metadataRequestFields event)

theorem metadataValueOf_json (value : MetadataValue) : metadataValueOf (metadataValueJson value) = .ok value := by
  cases value with
  | integer value =>
    have hRead := Json.asI64_ofI64 value
    rw [metadataValueJson]
    rw [Json.ofI64] at hRead ⊢
    split
    · rename_i hSign
      rw [if_pos hSign] at hRead
      rw [metadataValueOf, hRead]
      rfl
    · rename_i hSign
      rw [if_neg hSign] at hRead
      rw [metadataValueOf, hRead]
      rfl
  | stringList values =>
    rw [metadataValueJson, metadataValueOf, Json.strings_map_string]
    rfl
  | _ => rfl

theorem foldlM_metadataFields (fields : MetadataFields) :
    (fields.toList.map metadataFieldJson).foldlM insertMetadataField ∅ = .ok fields := by
  refine foldlM_toList id metadataFieldJson fields fun built name value _ _ _ => ?_
  rw [insertMetadataField, metadataFieldJson, metadataValueOf_json]
  rfl

theorem nodup_metadataRequestFields (event : DataIndividualMetadataEvent) :
    ((metadataRequestFields event).map Prod.fst).Nodup := by
  rw [metadataRequestFields]
  cases event.operation <;> simp [operationFields]

section Fields

variable {event : DataIndividualMetadataEvent}

theorem field_metadataRequest (key : String) :
    (metadataRequest event).field key = (Json.object (metadataRequestFields event)).field key :=
  Json.field_ofFields (nodup_metadataRequestFields event)

theorem metadataFieldsOf_metadataRequest :
    metadataFieldsOf (metadataRequest event) "passive_metadata" = .ok event.passiveMetadata.fields ∧
      metadataFieldsOf (metadataRequest event) "active_metadata" = .ok event.activeMetadata.fields := by
  have hPassive : (metadataRequest event).field "passive_metadata" =
      some (metadataFieldsJson event.passiveMetadata.fields) := by
    rw [field_metadataRequest, metadataRequestFields]
    simp [Json.field]
  have hActive : (metadataRequest event).field "active_metadata" =
      some (metadataFieldsJson event.activeMetadata.fields) := by
    rw [field_metadataRequest, metadataRequestFields]
    simp [Json.field]
  rw [metadataFieldsOf, hPassive, metadataFieldsOf, hActive]
  exact ⟨foldlM_metadataFields _, foldlM_metadataFields _⟩

theorem isBlank_of_validate (h : event.validate = .ok ()) {field : String × String}
    (hField : field ∈ event.requiredFields) : isBlank field.2 = false := by
  rw [DataIndividualMetadataEvent.validate] at h
  cases hFind : event.requiredFields.find? fun required => isBlank required.2 with
  | none => simpa using List.find?_eq_none.mp hFind field hField
  | some blank =>
    rw [hFind] at h
    cases h

theorem required_metadataRequest (h : event.validate = .ok ()) {field : String × String}
    (hField : field ∈ event.requiredFields) : required (metadataRequest event) field.1 = .ok field.2 := by
  have hText : jsonStringField (metadataRequest event) field.1 = some field.2 := by
    rw [jsonStringField, field_metadataRequest, metadataRequestFields]
    simp only [DataIndividualMetadataEvent.requiredFields, List.mem_cons, List.not_mem_nil, or_false] at hField
    rcases hField with rfl | rfl | rfl | rfl | rfl | rfl | rfl <;> simp [Json.field, Json.asStr]
  rw [required, hText, Option.filter_some, isBlank_of_validate h hField]
  rfl

theorem field_of_operation {key : String} (h : key ∈ ["plugin_name", "plugin_version", "fields", "passed", "source"]) :
    (metadataRequest event).field key = (Json.object (operationFields event.operation)).field key := by
  rw [field_metadataRequest, metadataRequestFields]
  simp only [List.mem_cons, List.not_mem_nil, or_false] at h
  rcases h with rfl | rfl | rfl | rfl | rfl <;> simp [Json.field]

theorem map_mk_asStr {kind : IdKind} (id : Option (StringId kind)) :
    (id.map StringId.asStr).map StringId.mk = id := by
  cases id <;> rfl

theorem metadataOperationOf_metadataRequest : metadataOperationOf (metadataRequest event) = .ok event.operation := by
  have hTag : jsonStringField (metadataRequest event) "operation" = some (operationTag event.operation) := by
    rw [jsonStringField, field_metadataRequest, metadataRequestFields]
    simp [Json.field, Json.asStr]
  have hBlank : isBlank (operationTag event.operation) = false := by
    cases event.operation <;> simp [operationTag, isBlank, isWhitespace]
  have hName : required (metadataRequest event) "operation" = .ok (operationTag event.operation) := by
    rw [required, hTag, Option.filter_some, hBlank]
    rfl
  rw [metadataOperationOf, hName]
  cases hOperation : event.operation with
  | transformed pluginName pluginVersion =>
    have hPlugin : jsonStringField (metadataRequest event) "plugin_name" = pluginName.map StringId.asStr := by
      rw [jsonStringField, field_of_operation (by simp), hOperation]
      simp [Json.field, operationFields, asStr_optionalJson]
    have hVersion : jsonStringField (metadataRequest event) "plugin_version" = pluginVersion.map StringId.asStr := by
      rw [jsonStringField, field_of_operation (by simp), hOperation]
      simp [Json.field, operationFields, asStr_optionalJson]
    rw [hPlugin, hVersion, map_mk_asStr, map_mk_asStr]
    rfl
  | masked fields =>
    have hFields : (metadataRequest event).field "fields" = some (.array (fields.map .string)) := by
      rw [field_of_operation (by simp), hOperation]
      simp [Json.field, operationFields]
    rw [hFields]
    exact ok_bind (Json.strings_map_string _ fields) _
  | validated passed =>
    have hPassed : (metadataRequest event).field "passed" = some (.bool passed) := by
      rw [field_of_operation (by simp), hOperation]
      simp [Json.field, operationFields]
    rw [hPassed]
    rfl
  | enriched source =>
    have hSource : jsonStringField (metadataRequest event) "source" = source := by
      rw [jsonStringField, field_of_operation (by simp), hOperation]
      simp [Json.field, operationFields, asStr_optionalJson]
    rw [hSource]
    rfl
  | _ => rfl

theorem metadataEventOf_metadataRequest (h : event.validate = .ok ()) :
    metadataEventOf (metadataRequest event) = .ok event := by
  have hRequired := fun field hField => @required_metadataRequest event h field hField
  have hShard : metadataShardOf (metadataRequest event) ⟨event.dataIndividualId.asStr⟩ =
      .ok event.dataIndividualShardId := by
    rw [metadataShardOf, field_metadataRequest, metadataRequestFields]
    simp [Json.field, Json.asU64]
  have hBuilt : ({ DataIndividualMetadataEvent.new event.metadataEventId event.dataIndividualId
      event.dataIndividualShardId event.tenantId event.environmentId event.pipelineId event.processInstanceId
      event.timestamp event.operation with
      activityId := event.activityId, sourcePayloadRef := event.sourcePayloadRef }.withPassiveMetadata
        event.passiveMetadata).withActiveMetadata event.activeMetadata = event := by
    obtain ⟨_, _, _, _, _, _, _, _, _, _, _, _, _, idempotencyKey, hKey⟩ := event
    subst hKey
    rfl
  have hActivity : jsonStringField (metadataRequest event) "activity_id" = event.activityId.map StringId.asStr := by
    rw [jsonStringField, field_metadataRequest, metadataRequestFields]
    simp [Json.field, asStr_optionalJson]
  have hPayload :
      jsonStringField (metadataRequest event) "source_payload_ref" = event.sourcePayloadRef.map StringId.asStr := by
    rw [jsonStringField, field_metadataRequest, metadataRequestFields]
    simp [Json.field, asStr_optionalJson]
  obtain ⟨hPassive, hActive⟩ := @metadataFieldsOf_metadataRequest event
  simp only [DataIndividualMetadataEvent.requiredFields, List.forall_mem_cons] at hRequired
  obtain ⟨hId, hData, hTenant, hEnvironment, hPipeline, hProcess, hTimestamp, -⟩ := hRequired
  simp only [metadataEventOf, hData, hId, hTenant, hEnvironment, hPipeline, hProcess, hTimestamp, hActivity, hPayload,
    map_mk_asStr, hPassive, hActive, metadataOperationOf_metadataRequest, hShard, bind, Except.bind, pure, Except.pure]
  rw [hBuilt, h]
  rfl

end Fields

theorem validate_of_metadataEventOf {value : Json} {event : DataIndividualMetadataEvent}
    (h : metadataEventOf value = .ok event) : event.validate = .ok () := by
  rw [metadataEventOf] at h
  iterate 11 obtain ⟨_, -, h⟩ := ok_of_bind h
  obtain ⟨_, hValid, h⟩ := ok_of_bind h
  cases h
  exact ok_of_mapError hValid

/-- The events that are posted are exactly those that pass the check, and each of them arrives as it is. -/
theorem metadata_requests_exact (texts : Texts) (event : DataIndividualMetadataEvent) :
    (∀ body, parseMetadataEventJson texts body = .ok event → event.validate = .ok ()) ∧
    ∀ body, texts.fromStr body = .ok (metadataRequest event) →
      (parseMetadataEventJson texts body = .ok event ↔ event.validate = .ok ()) := by
  have hSound (body : String) (h : parseMetadataEventJson texts body = .ok event) : event.validate = .ok () := by
    obtain ⟨value, -, hEvent⟩ := ok_of_bind h
    exact validate_of_metadataEventOf hEvent
  refine ⟨hSound, fun body hBody => ⟨hSound body, fun hValid => ?_⟩⟩
  exact (ok_bind hBody _).trans (metadataEventOf_metadataRequest hValid)

end Vannak.Daemon
