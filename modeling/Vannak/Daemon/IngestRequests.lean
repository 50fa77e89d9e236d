import Vannak.Daemon.QueryAnswers
import Vannak.Foundation.JsonFields

/-!
# Process events over HTTP

`parse_ingest_event_json` and `handle_ingest_request` of `daemon.rs`, with the texts of the
errors that are answered. An event that comes without an id gets a generated one.
-/

namespace Vannak

open Foundation Storage

set_option autoImplicit false

/-! ## Texts of errors -/

def IngestError.display : IngestError → String
  | emptyField field => "event field " ++ field ++ " must not be empty"

namespace Storage

/-- `{:#x}`. -/
def hexText (value : UInt64) : String := "0x" ++ String.ofList (Nat.toDigits 16 value.toNat)

def SegmentError.display (io : IoError → String) : SegmentError → String
  | .io error => "segment I/O error: " ++ io error
  | invalidMagic => "invalid Vannak segment magic"
  | recordTooLarge len => "segment record length " ++ toString len ++ " exceeds u32::MAX"
  | checksumMismatch offset expected actual => "segment record checksum mismatch at offset " ++ toString offset ++
      ": expected " ++ hexText expected ++ ", got " ++ hexText actual
  | trailingBytes offset byteLen => "segment has trailing partial record bytes from offset " ++ toString offset ++
      " to byte length " ++ toString byteLen

end Storage

namespace Ingest

def ProcessEventDecodeError.display : ProcessEventDecodeError → String
  | invalidMagic => "invalid pipeline event payload magic"
  | unexpectedEof => "truncated pipeline event payload"
  | trailingBytes remaining => "pipeline event payload has " ++ toString remaining ++ " trailing bytes"
  | invalidUtf8 => "pipeline event payload contains invalid UTF-8"
  | invalidBool value => "invalid boolean tag " ++ toString value
  | invalidEventStatus value => "invalid event status tag " ++ toString value
  | invalidEventKind value => "invalid event kind tag " ++ toString value
  | invalidMetadataRefKind value => "invalid metadata reference kind tag " ++ toString value

def ProcessEventJournalError.display (io : IoError → String) : ProcessEventJournalError → String
  | segment error => error.display io
  | ingest error => error.display
  | decode error => error.display

end Ingest

def Runtime.SitasRuntimeError.display : Runtime.SitasRuntimeError → String
  | ingest error => error.display
  | queueFull shardId capacity =>
    "ingest queue for logical shard " ++ toString shardId ++ " is full at capacity " ++ toString capacity

def Service.VannakServiceError.display (io : IoError → String) : Service.VannakServiceError → String
  | processEventJournalNotConfigured => "process event journal is not configured"
  | processEventJournal error => error.display io
  | processIngest error => error.display
  | runtime error => error.display

end Vannak

namespace Vannak.Daemon

open Foundation Storage Ingest Process Vannak.Runtime Service

set_option autoImplicit false

/-- `json!({"error": ..})`. -/
def Texts.errorJson (texts : Texts) (error : String) : String := texts.toText (.object [("error", .string error)])

/-- `service_error_response` with the text of the error. -/
def Texts.serviceErrorResponse (texts : Texts) (error : String) : String × String :=
  ("503 Service Unavailable", texts.errorJson error)

/-! ## The event -/

def eventKindNamed (name : String) : Option EventKind :=
  if name = "ProcessStarted" then some .processStarted
  else if name = "ProcessCompleted" then some .processCompleted
  else if name = "ProcessFailed" then some .processFailed
  else if name = "ActivityEntered" then some .activityEntered
  else if name = "ActivityCompleted" then some .activityCompleted
  else if name = "ActivityCancelled" then some .activityCancelled
  else if name = "ActivityEscalated" then some .activityEscalated
  else if name = "GatewayTaken" then some .gatewayTaken
  else none

/-- The event of a parsed body. -/
def ingestEventOf (generatedId : EventId) (value : Json) : Option PipelineEvent := do
  let processInstanceId ← jsonStringField value "process_instance_id"
  let pipelineId ← jsonStringField value "pipeline_id"
  let kind ← eventKindNamed (← jsonStringField value "kind")
  let eventId := ((jsonStringField value "event_id").map StringId.mk).getD generatedId
  let timestamp := (jsonStringField value "timestamp").getD "unknown"
  let tenantId := (jsonStringField value "tenant_id").getD "demo"
  let environmentId := (jsonStringField value "environment_id").getD "demo"
  let event := PipelineEvent.new eventId ⟨"daemon-http"⟩ 0 ⟨tenantId⟩ ⟨environmentId⟩ ⟨pipelineId⟩
    ⟨"demo-definition"⟩ ⟨processInstanceId⟩ ⟨timestamp⟩ kind
  match jsonStringField value "activity_id" with
  | some activityId => return event.withActivityId ⟨activityId⟩
  | none => return event

def parseIngestEventJson (texts : Texts) (generatedId : EventId) (body : String) : Option PipelineEvent :=
  (texts.parse body).bind (ingestEventOf generatedId)

/-! ## The handler -/

section Handler

variable {config : SitasRuntimeConfig}

/-- What is answered to the outcome of an ingest. -/
def ingestAnswer (texts : Texts) : Except VannakServiceError IngestOutcome → String × String
  | .ok .accepted => ("200 OK", "\x7b\"status\":\"accepted\"\x7d")
  | .ok .duplicate => ("200 OK", "\x7b\"status\":\"duplicate\"\x7d")
  | .error (.processIngest error) => ("400 Bad Request", texts.errorJson error.display)
  | .error error => texts.serviceErrorResponse (error.display texts.io)

def handleIngestRequest (texts : Texts) (generatedId : EventId) (service : VannakService config) (body : String) :
    (String × String) × VannakService config :=
  match parseIngestEventJson texts generatedId body with
  | none => (badRequest "invalid event JSON", service)
  | some event =>
    let (outcome, service) := service.ingestProcessEventConfigured event
    (ingestAnswer texts outcome, service)

end Handler

/-! ## The events that can be posted -/

theorem eventKindNamed_eq_some_iff (debug : String → String) {name : String} {kind : EventKind} :
    eventKindNamed name = some kind ↔ name = kindName debug kind ∧ ∀ other, kind ≠ .unknown other := by
  constructor
  · intro h
    rw [eventKindNamed] at h
    repeat' split at h
    all_goals cases h
    all_goals exact ⟨by assumption, by simp⟩
  · rintro ⟨rfl, hKnown⟩
    cases kind with
    | unknown other => exact absurd rfl (hKnown other)
    | _ => rfl

/-- The events that a request can describe. -/
def IsPosted (event : PipelineEvent) : Prop :=
  (∀ name, event.kind ≠ .unknown name) ∧
    event = { PipelineEvent.new event.eventId ⟨"daemon-http"⟩ 0 event.tenantId event.environmentId event.pipelineId
      ⟨"demo-definition"⟩ event.processInstanceId event.timestamp event.kind with activityId := event.activityId }

def optionalJson (text : Option String) : Json := text.elim .null .string

theorem asStr_optionalJson (text : Option String) : (optionalJson text).asStr = text := by
  cases text <;> rfl

/-- The request that spells out an event. -/
def ingestRequest (debug : String → String) (event : PipelineEvent) : Json :=
  .ofFields [("event_id", .string event.eventId.asStr), ("timestamp", .string event.timestamp.asStr),
    ("tenant_id", .string event.tenantId.asStr), ("environment_id", .string event.environmentId.asStr),
    ("pipeline_id", .string event.pipelineId.asStr), ("process_instance_id", .string event.processInstanceId.asStr),
    ("kind", .string (kindName debug event.kind)), ("activity_id", optionalJson (event.activityId.map StringId.asStr))]

theorem isPosted_of_ingestEventOf {generatedId : EventId} {value : Json} {event : PipelineEvent}
    (h : ingestEventOf generatedId value = some event) : IsPosted event := by
  rw [ingestEventOf] at h
  obtain ⟨processInstanceId, -, h⟩ := Option.bind_eq_some_iff.mp h
  obtain ⟨pipelineId, -, h⟩ := Option.bind_eq_some_iff.mp h
  obtain ⟨kindText, -, h⟩ := Option.bind_eq_some_iff.mp h
  obtain ⟨kind, hKind, h⟩ := Option.bind_eq_some_iff.mp h
  have hKnown := ((eventKindNamed_eq_some_iff id).mp hKind).2
  split at h
  · cases h
    exact ⟨hKnown, rfl⟩
  · cases h
    exact ⟨hKnown, rfl⟩

theorem ingestEventOf_ingestRequest {event : PipelineEvent} (h : IsPosted event) (debug : String → String)
    (generatedId : EventId) : ingestEventOf generatedId (ingestRequest debug event) = some event := by
  obtain ⟨hKnown, hEvent⟩ := h
  have hKind : eventKindNamed (kindName debug event.kind) = some event.kind :=
    (eventKindNamed_eq_some_iff debug).mpr ⟨rfl, hKnown⟩
  have hField (key : String) : (ingestRequest debug event).field key = _ := Json.field_ofFields (by simp)
  have hText (field : String × String) (hMem : field ∈ [("event_id", event.eventId.asStr),
      ("timestamp", event.timestamp.asStr), ("tenant_id", event.tenantId.asStr),
      ("environment_id", event.environmentId.asStr), ("pipeline_id", event.pipelineId.asStr),
      ("process_instance_id", event.processInstanceId.asStr), ("kind", kindName debug event.kind)]) :
      jsonStringField (ingestRequest debug event) field.1 = some field.2 := by
    rw [jsonStringField, hField]
    simp only [List.mem_cons, List.not_mem_nil, or_false] at hMem
    rcases hMem with rfl | rfl | rfl | rfl | rfl | rfl | rfl <;> simp [Json.field, Json.asStr]
  have hActivity : jsonStringField (ingestRequest debug event) "activity_id" =
      event.activityId.map StringId.asStr := by
    rw [jsonStringField, hField]
    simp [Json.field, asStr_optionalJson]
  simp only [List.forall_mem_cons] at hText
  obtain ⟨hId, hTimestamp, hTenant, hEnvironment, hPipeline, hProcess, hKindText, -⟩ := hText
  simp only [ingestEventOf, hId, hTimestamp, hTenant, hEnvironment, hPipeline, hProcess, hKindText, hKind, hActivity,
    Option.bind_eq_bind, Option.bind_some, Option.map_some, Option.getD_some]
  rw [hEvent]
  cases event.activityId <;> rfl

/-- The events that are posted are exactly those with the fixed source and definition and a known kind, and each of
them arrives as it is. -/
theorem ingest_requests_exact (texts : Texts) (event : PipelineEvent) :
    (∀ generatedId body, parseIngestEventJson texts generatedId body = some event → IsPosted event) ∧
    ∀ generatedId body, texts.fromStr body = .ok (ingestRequest texts.debug event) →
      (parseIngestEventJson texts generatedId body = some event ↔ IsPosted event) := by
  have hSound (generatedId : EventId) (body : String)
      (h : parseIngestEventJson texts generatedId body = some event) : IsPosted event := by
    obtain ⟨value, -, hEvent⟩ := Option.bind_eq_some_iff.mp h
    exact isPosted_of_ingestEventOf hEvent
  refine ⟨hSound, fun generatedId body hBody => ⟨hSound generatedId body, fun hPosted => ?_⟩⟩
  rw [parseIngestEventJson, Texts.parse, hBody]
  exact ingestEventOf_ingestRequest hPosted texts.debug generatedId

end Vannak.Daemon
