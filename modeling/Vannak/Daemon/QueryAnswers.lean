import Vannak.Daemon.Http
import Vannak.Service.VannakService

/-!
# Answers to queries

`handle_query_request` and `serialize_query_result` of `daemon.rs` over the whole service.
-/

namespace Vannak.Daemon

open Foundation Process Vannak.Runtime Service

set_option autoImplicit false

/-- What the handlers use of `serde_json`, the `Debug` text of a string, and the texts of I/O errors. -/
structure Texts where
  fromStr : String → Except String Json
  toText : Json → String
  debug : String → String
  io : Storage.IoError → String

def Texts.parse (texts : Texts) (body : String) : Option Json := (texts.fromStr body).toOption

inductive QueryResult where
  | processInstances (instances : List ProcessInstanceSnapshot)
  | events (events : List PipelineEvent)
  | metadataEvents (events : List DataIndividualMetadataEvent)

/-! ## `Debug` texts -/

def debugOption {α : Type} (debug : α → String) : Option α → String
  | none => "None"
  | some value => "Some(" ++ debug value ++ ")"

def debugList {α : Type} (debug : α → String) (values : List α) : String :=
  "[" ++ ", ".intercalate (values.map debug) ++ "]"

/-- `format!("{:?}", kind)`. -/
def kindName (debug : String → String) : EventKind → String
  | .processStarted => "ProcessStarted"
  | .activityEntered => "ActivityEntered"
  | .activityCompleted => "ActivityCompleted"
  | .activityEscalated => "ActivityEscalated"
  | .activityCancelled => "ActivityCancelled"
  | .gatewayTaken => "GatewayTaken"
  | .processCompleted => "ProcessCompleted"
  | .processFailed => "ProcessFailed"
  | .unknown name => "Unknown(" ++ debug name ++ ")"

/-- `format!("{:?}", operation)`. -/
def operationName (debug : String → String) : MetadataOperation → String
  | .created => "Created"
  | .received => "Received"
  | .transformed pluginName pluginVersion =>
    "Transformed \x7b plugin_name: " ++ debugOption (fun name => "PluginName(" ++ debug name.asStr ++ ")") pluginName ++
      ", plugin_version: " ++ debugOption (fun version => "PluginVersion(" ++ debug version.asStr ++ ")") pluginVersion ++
      " \x7d"
  | .masked fields => "Masked \x7b fields: " ++ debugList debug fields ++ " \x7d"
  | .validated passed => "Validated \x7b passed: " ++ toString passed ++ " \x7d"
  | .enriched source => "Enriched \x7b source: " ++ debugOption debug source ++ " \x7d"
  | .routed => "Routed"
  | .persisted => "Persisted"

/-! ## The handler -/

def eventJson (debug : String → String) (event : PipelineEvent) : Json :=
  .ofFields [("event_id", .string event.eventId.asStr), ("pipeline_id", .string event.pipelineId.asStr),
    ("process_instance_id", .string event.processInstanceId.asStr), ("kind", .string (kindName debug event.kind))]

def metadataEventJson (debug : String → String) (event : DataIndividualMetadataEvent) : Json :=
  .ofFields [("metadata_event_id", .string event.metadataEventId.asStr),
    ("data_individual_id", .string event.dataIndividualId.asStr),
    ("operation", .string (operationName debug event.operation))]

def metadataEventsJson (debug : String → String) (events : List DataIndividualMetadataEvent) : Json :=
  .ofFields [("type", .string "MetadataEvents"), ("events", .array (events.map (metadataEventJson debug)))]

def serializeQueryResult (texts : Texts) : QueryResult → String
  | .processInstances instances => serializeProcessInstances texts.toText instances
  | .events events =>
    texts.toText (.ofFields [("type", .string "Events"), ("events", .array (events.map (eventJson texts.debug)))])
  | .metadataEvents events => texts.toText (metadataEventsJson texts.debug events)

section Handler

variable {config : SitasRuntimeConfig} (mapAll : ∀ β : Type, SitasShardRuntime.MapAll config β)

/-- What the service answers; an unknown instance is answered with a text of its own. -/
def answerOf (texts : Texts) (service : VannakService config) : QueryRequest → String
  | .processInstance query =>
    match service.hotIndex.processInstance query.processInstanceId with
    | some snapshot => serializeQueryResult texts (.processInstances [snapshot])
    | none => "\x7b\"type\":\"ProcessInstances\",\"instance\":[]\x7d"
  | .pipeline query => serializeQueryResult texts (.processInstances (service.hotIndex.pipelineInstances mapAll query))
  | .processStatus query =>
    serializeQueryResult texts (.processInstances (service.hotIndex.processInstancesByStatus mapAll query))
  | .dataIndividualMetadata query =>
    serializeQueryResult texts (.metadataEvents (service.metadata.provenanceIndex.metadataForDataIndividual query))
  | .processMetadata query =>
    serializeQueryResult texts (.metadataEvents (service.metadata.provenanceIndex.metadataForProcess query))
  | .activityMetadata query =>
    serializeQueryResult texts (.metadataEvents (service.metadata.provenanceIndex.metadataForActivity query))

def handleQueryRequest (texts : Texts) (service : VannakService config) (body : String) : String × String :=
  match queryRequest texts.parse body with
  | .error answer => answer
  | .ok request => ("200 OK", answerOf mapAll texts service request)

variable {mapAll} {texts : Texts} {service : VannakService config}

theorem handleQueryRequest_peer (hReads : ReadsJson texts.parse) {query : PeerQuery} (hSendable : query.Sendable) :
    handleQueryRequest mapAll texts service query.body =
      ("200 OK", answerOf mapAll texts service query.request) := by
  rw [handleQueryRequest, peerQuery_decoded hReads hSendable]

/-- What the node itself knows. -/
def knownInstances (mapAll : ∀ β : Type, SitasShardRuntime.MapAll config β) (service : VannakService config) :
    PeerQuery → List ProcessInstanceSnapshot
  | .processInstance query => (service.hotIndex.processInstance query.processInstanceId).toList
  | .pipeline query _ => service.hotIndex.pipelineInstances mapAll query
  | .processStatus query _ => service.hotIndex.processInstancesByStatus mapAll query

theorem parse_answerOf (hPrints : Prints texts.toText) (query : PeerQuery) :
    parseQueryResultJson (answerOf mapAll texts service query.request) =
      some (some (readBack (knownInstances mapAll service query))) := by
  cases query with
  | processInstance query =>
    have hUnknown : parseQueryResultJson "\x7b\"type\":\"ProcessInstances\",\"instance\":[]\x7d" = some (some []) := by
      decide
    rw [PeerQuery.request, answerOf, knownInstances]
    cases service.hotIndex.processInstance query.processInstanceId with
    | none => exact hUnknown
    | some snapshot => exact parse_serialize hPrints _
  | pipeline query hUsize | processStatus query hUsize => exact parse_serialize hPrints _

end Handler

end Vannak.Daemon
