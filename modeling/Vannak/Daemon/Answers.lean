import Vannak.Daemon.Serving

/-!
# The answers of the endpoint

Every answer of the health endpoint is a JSON object in an HTTP response that a peer reads as it was written. A success
has no `error` field, and anything else has nothing but an `error` field.
-/

namespace Vannak.Foundation

set_option autoImplicit false

namespace Json

/-- The texts of numbers are those of counters. -/
inductive Proper : Json → Prop where
  | null : Proper .null
  | bool (value : Bool) : Proper (.bool value)
  | number (value : UInt64) : Proper (.number value)
  | counter (value : Nat) : Proper (.otherNumber (toString value))
  | string (value : String) : Proper (.string value)
  | array {items : List Json} (hItems : ∀ item ∈ items, Proper item) : Proper (.array items)
  | object {fields : List (String × Json)} (hFields : ∀ field ∈ fields, Proper field.2) : Proper (.object fields)

theorem mem_insertionSort_fields {fields : List (String × Json)} {field : String × Json} :
    field ∈ fields.insertionSort (fun left right => left.1 ≤ right.1) ↔ field ∈ fields :=
  (List.perm_insertionSort _ fields).mem_iff

theorem proper_ofFields {fields : List (String × Json)} (h : ∀ field ∈ fields, Proper field.2) :
    (ofFields fields).Proper :=
  .object fun field hField => h field (mem_insertionSort_fields.mp hField)

theorem field_object_eq_none {fields : List (String × Json)} {key : String} (h : key ∉ fields.map Prod.fst) :
    (object fields).field key = none := by
  rw [field, Option.map_eq_none_iff, List.find?_eq_none]
  intro found hFound hKey
  exact h (of_decide_eq_true hKey ▸ List.mem_map_of_mem hFound)

theorem field_ofFields_eq_none {fields : List (String × Json)} {key : String} (h : key ∉ fields.map Prod.fst) :
    (ofFields fields).field key = none := by
  refine field_object_eq_none fun hKey => h ?_
  obtain ⟨found, hFound, rfl⟩ := List.mem_map.mp hKey
  exact List.mem_map_of_mem (mem_insertionSort_fields.mp hFound)

end Json

end Vannak.Foundation

namespace Vannak.Daemon

open Foundation Ingest Ipto Cluster Process Vannak.Runtime Service

set_option autoImplicit false

def refusals : List String :=
  ["400 Bad Request", "404 Not Found", "413 Payload Too Large", "503 Service Unavailable"]

theorem not_mem_refusals : ∀ status ∈ refusals, '\n' ∉ status.toList := by decide

/-- The body is the text of a JSON object that goes with the status. -/
def IsJson (answer : String × String) (value : Json) : Prop :=
  value.Proper ∧ answer.2 = String.ofList value.print ∧
    (answer.1 = "200 OK" ∧ value.field "error" = none ∨
      answer.1 ∈ refusals ∧ ∃ text, value = .object [("error", .string text)])

section Bodies

variable {texts : Texts}

theorem isJson_error {status body text : String} (hStatus : status ∈ refusals)
    (hBody : body.toList = (Json.object [("error", .string text)]).print) :
    ∃ value, IsJson (status, body) value := by
  refine ⟨.object [("error", .string text)], .object ?_, ?_, .inr ⟨hStatus, text, rfl⟩⟩
  · rintro _ hField
    rw [List.mem_singleton.mp hField]
    exact .string text
  · rw [← hBody, String.ofList_toList]

theorem isJson_ok {body : String} {value : Json} (hProper : value.Proper) (hError : value.field "error" = none)
    (hBody : body.toList = value.print) : ∃ value, IsJson ("200 OK", body) value :=
  ⟨value, hProper, by rw [← hBody, String.ofList_toList], .inl ⟨rfl, hError⟩⟩

theorem isJson_badRequest {text : String} (h : ∀ char ∈ text.toList, Plain char) :
    ∃ value, IsJson (badRequest text) value := by
  refine isJson_error (by decide) (?_ : _ = (Json.object [("error", .string text)]).print)
  rw [Json.print, Json.printFields, Json.print, quoted_of_plain h]
  have hKey : quoted "error".toList = "\"error\"".toList := by decide
  rw [hKey]
  simp

theorem isJson_errorJson (hPrints : Prints texts.toText) {status : String} (hStatus : status ∈ refusals)
    (text : String) : ∃ value, IsJson (status, texts.errorJson text) value :=
  isJson_error hStatus (hPrints _)

theorem isJson_payloadTooLarge : ∃ value, IsJson payloadTooLarge value := by
  refine isJson_error (by decide) (?_ : _ = (Json.object [("error", .string "request body too large")]).print)
  decide

theorem isJson_readRequestBody {stream : Stream} {contentLength : Option Nat} {config : DaemonConfig}
    {answer : String × String} (h : readRequestBody stream contentLength config = .error answer) :
    ∃ value, IsJson answer value := by
  rw [readRequestBody.eq_def] at h
  split at h
  · cases h
  · split at h
    · cases h
      exact isJson_payloadTooLarge
    · split at h
      · cases h
        refine isJson_error (by decide)
          (?_ : _ = (Json.object [("error", .string "failed to read request body")]).print)
        decide
      · cases h

theorem isJson_requestOfType {queryType : String} {value : Json} {answer : String × String}
    (h : requestOfType queryType value = .error answer) : ∃ value, IsJson answer value := by
  have hQuery : ∃ value, IsJson (badRequest "invalid query") value := isJson_badRequest (by simp [Plain])
  have hStatus : ∃ value, IsJson (badRequest "invalid process status") value := isJson_badRequest (by simp [Plain])
  rw [requestOfType] at h
  repeat' split at h
  all_goals cases h
  all_goals first
    | exact hQuery
    | exact hStatus

theorem isJson_queryRequest {body : String} {answer : String × String}
    (h : queryRequest texts.parse body = .error answer) : ∃ value, IsJson answer value := by
  rw [queryRequest] at h
  split at h
  · cases h
    exact isJson_badRequest (by simp [Plain])
  · split at h
    · cases h
      exact isJson_badRequest (by simp [Plain])
    · exact isJson_requestOfType h

/-! ## What is known -/

/-- An object of strings. -/
theorem proper_strings {fields : List (String × String)} :
    (Json.ofFields (fields.map fun field => (field.1, .string field.2))).Proper := by
  refine Json.proper_ofFields fun field hField => ?_
  obtain ⟨text, -, rfl⟩ := List.mem_map.mp hField
  exact .string text.2

theorem proper_list {α : Type} {key kind : String} {items : List α} {write : α → Json}
    (h : ∀ item, (write item).Proper) :
    (Json.ofFields [("type", .string kind), (key, .array (items.map write))]).Proper := by
  refine Json.proper_ofFields (List.forall_mem_cons.mpr ⟨.string kind, List.forall_mem_singleton.mpr (.array ?_)⟩)
  intro item hItem
  obtain ⟨found, -, rfl⟩ := List.mem_map.mp hItem
  exact h found

theorem isJson_serializeQueryResult (hPrints : Prints texts.toText) (result : QueryResult) :
    ∃ value, IsJson ("200 OK", serializeQueryResult texts result) value := by
  have hInstance (snapshot : ProcessInstanceSnapshot) : (instanceJson snapshot).Proper :=
    @proper_strings [("process_instance_id", snapshot.processInstanceId.asStr),
      ("pipeline_id", snapshot.pipelineId.asStr), ("status", statusName snapshot.status)]
  have hEvent (event : PipelineEvent) : (eventJson texts.debug event).Proper :=
    @proper_strings [("event_id", event.eventId.asStr), ("pipeline_id", event.pipelineId.asStr),
      ("process_instance_id", event.processInstanceId.asStr), ("kind", kindName texts.debug event.kind)]
  have hMetadata (event : DataIndividualMetadataEvent) : (metadataEventJson texts.debug event).Proper :=
    @proper_strings [("metadata_event_id", event.metadataEventId.asStr),
      ("data_individual_id", event.dataIndividualId.asStr), ("operation", operationName texts.debug event.operation)]
  cases result with
  | processInstances instances =>
    exact isJson_ok (proper_list hInstance) (Json.field_ofFields_eq_none (by simp)) (hPrints _)
  | events events => exact isJson_ok (proper_list hEvent) (Json.field_ofFields_eq_none (by simp)) (hPrints _)
  | metadataEvents events =>
    exact isJson_ok (proper_list hMetadata) (Json.field_ofFields_eq_none (by simp)) (hPrints _)

variable {config : SitasRuntimeConfig} {mapAll : ∀ β : Type, SitasShardRuntime.MapAll config β}

theorem isJson_answerOf (hPrints : Prints texts.toText) (service : VannakService config) (request : QueryRequest) :
    ∃ value, IsJson ("200 OK", answerOf mapAll texts service request) value := by
  have hUnknown : ∃ value, IsJson ("200 OK", "\x7b\"type\":\"ProcessInstances\",\"instance\":[]\x7d") value := by
    have hProper : (Json.object [("type", .string "ProcessInstances"), ("instance", .array [])]).Proper := by
      refine .object (List.forall_mem_cons.mpr ⟨.string _, List.forall_mem_singleton.mpr (.array ?_)⟩)
      exact List.forall_mem_nil _
    exact isJson_ok hProper (Json.field_object_eq_none (by simp)) (by decide)
  cases request with
  | processInstance query =>
    rw [answerOf]
    cases service.hotIndex.processInstance query.processInstanceId with
    | some snapshot => exact isJson_serializeQueryResult hPrints _
    | none => exact hUnknown
  | _ =>
    rw [answerOf]
    exact isJson_serializeQueryResult hPrints _

theorem isJson_handleQueryRequest (hPrints : Prints texts.toText) (service : VannakService config) (body : String) :
    ∃ value, IsJson (handleQueryRequest mapAll texts service body) value := by
  rw [handleQueryRequest]
  cases hRequest : queryRequest texts.parse body with
  | error answer => exact isJson_queryRequest hRequest
  | ok request => exact isJson_answerOf hPrints service request

/-! ## What is posted -/

theorem isJson_status (text : String) (h : ∀ char ∈ text.toList, Plain char) :
    ∃ value, IsJson ("200 OK", "\x7b\"status\":\"" ++ text ++ "\"\x7d") value := by
  have hKey : quoted "status".toList = "\"status\"".toList := by decide
  refine @isJson_ok _ (.object [("status", .string text)]) ?_ (Json.field_object_eq_none (by simp)) ?_
  · exact .object (List.forall_mem_singleton.mpr (.string text))
  · rw [Json.print, Json.printFields, Json.print, quoted_of_plain h, hKey]
    simp

theorem isJson_ingestAnswer (hPrints : Prints texts.toText) (outcome : Except VannakServiceError IngestOutcome) :
    ∃ value, IsJson (ingestAnswer texts outcome) value := by
  rw [ingestAnswer.eq_def]
  split
  · exact isJson_status "accepted" (by simp [Plain])
  · exact isJson_status "duplicate" (by simp [Plain])
  · exact isJson_errorJson hPrints (by decide) _
  · exact isJson_errorJson hPrints (by decide) _

theorem isJson_captureAnswer (hPrints : Prints texts.toText) (result : Except CaptureError MetadataCaptureResult) :
    ∃ value, IsJson (captureAnswer texts result) value := by
  cases result with
  | error error => exact isJson_errorJson hPrints (by decide) _
  | ok result =>
    exact isJson_ok (@proper_strings [("status", if result.result = .duplicate then "duplicate" else "accepted"),
      ("target", result.target.asStr)]) (Json.field_ofFields_eq_none (by simp)) (hPrints _)

/-! ## Health -/

theorem proper_counters (fields : List (String × Nat)) :
    (Json.object (fields.map fun field => (field.1, counter field.2))).Proper := by
  refine .object fun field hField => ?_
  obtain ⟨found, -, rfl⟩ := List.mem_map.mp hField
  exact .counter found.2

theorem proper_serviceFields (snapshot : VannakServiceSnapshot) :
    ∀ field ∈ serviceFields snapshot, field.2.Proper := by
  have hIndex := proper_counters [("event_count", snapshot.hotIndex.eventCount),
    ("process_instance_count", snapshot.hotIndex.processInstanceCount),
    ("pipeline_count", snapshot.hotIndex.pipelineCount), ("duplicate_events", snapshot.hotIndex.duplicateEvents),
    ("rejected_events", snapshot.hotIndex.rejectedEvents)]
  have hOutbox := proper_counters [("total", snapshot.metadataOutbox.total),
    ("pending", snapshot.metadataOutbox.pending), ("acknowledged", snapshot.metadataOutbox.acknowledged),
    ("failed", snapshot.metadataOutbox.failed)]
  have hProvenance := proper_counters [("metadata_event_count", snapshot.provenanceIndex.metadataEventCount)]
  intro field hField
  rw [serviceFields, List.mem_append] at hField
  rcases hField with hFixed | hJournal
  · simp only [List.mem_cons, List.not_mem_nil, or_false] at hFixed
    rcases hFixed with rfl | rfl | rfl | rfl
    · exact hIndex
    · exact hOutbox
    · exact hProvenance
    · exact .counter _
  · rw [Option.mem_toList, Option.map_eq_some_iff] at hJournal
    obtain ⟨manifest, -, rfl⟩ := hJournal
    exact proper_counters [("record_count", manifest.recordCount), ("byte_len", manifest.byteLen)]

theorem proper_writerFields (writer : BackgroundWriterSnapshot) : ∀ field ∈ writerFields writer, field.2.Proper := by
  intro field hField
  rw [writerFields, List.mem_append, List.mem_append] at hField
  rcases hField with (hFixed | hError) | hCycle
  · simp only [List.mem_cons, List.not_mem_nil, or_false] at hFixed
    rcases hFixed with rfl | rfl | rfl
    · exact .counter _
    · exact .counter _
    · exact .counter _
  · rw [Option.mem_toList, Option.map_eq_some_iff] at hError
    obtain ⟨error, -, rfl⟩ := hError
    exact .string error
  · rw [Option.mem_toList, Option.map_eq_some_iff] at hCycle
    obtain ⟨cycle, -, rfl⟩ := hCycle
    exact .counter _

theorem isJson_health (hPrints : Prints texts.toText) (service : Option VannakServiceSnapshot)
    (backgroundWriter : Option BackgroundWriterSnapshot) (uptime : Nat) :
    ∃ value, IsJson ("200 OK", buildHealthJson texts service backgroundWriter uptime) value := by
  refine isJson_ok ?_ ?_ (health_is_json hPrints service backgroundWriter uptime)
  · refine .object fun field hField => ?_
    rw [List.mem_append, List.mem_append] at hField
    rcases hField with (hUptime | hService) | hWriter
    · rw [List.mem_singleton.mp hUptime]
      exact .counter _
    · cases service with
      | none => cases hService
      | some snapshot => exact proper_serviceFields snapshot field hService
    · rw [Option.mem_toList, Option.map_eq_some_iff] at hWriter
      obtain ⟨writer, -, rfl⟩ := hWriter
      exact .object (proper_writerFields writer)
  · refine Json.field_object_eq_none fun hKey => ?_
    have hHealth := keys_healthFields service backgroundWriter uptime hKey
    simp [healthKeys] at hHealth

end Bodies

/-! ## What a client gets -/

section Connections

variable {config : SitasRuntimeConfig} {ω : Type} (setup : DaemonSetup config) (writer : IptoWriter ω)

theorem readRequestBody_of_unreadable {daemonConfig : DaemonConfig} {stream : Stream} {answer : String × String}
    (h : readRequest daemonConfig stream = some (.unreadable answer)) :
    ∃ rest contentLength, readRequestBody rest contentLength daemonConfig = .error answer := by
  rw [readRequest] at h
  split at h
  · cases h
  · rename_i requestLine rest hLine
    generalize readHeaders (rest.unread.length + 1) rest none = headers at h
    obtain ⟨contentLength, stream⟩ := headers
    refine ⟨stream, contentLength, ?_⟩
    have hUnreadable := Option.some.inj h
    generalize routeOf _ _ = route at hUnreadable
    revert hUnreadable
    cases readRequestBody stream contentLength daemonConfig with
    | error refused =>
      cases route with
      | ingestMetadata | ingest | query =>
        intro hUnreadable
        cases hUnreadable
        rfl
      | health | notFound =>
        intro hUnreadable
        cases hUnreadable
    | ok body =>
      intro hUnreadable
      cases route <;> cases hUnreadable

theorem isJson_serve (hPrints : Prints setup.texts.toText) (connection : Connection) (service : VannakService config)
    {stream : Stream} {request : Request} (hRequest : readRequest setup.daemonConfig stream = some request) :
    ∃ value, IsJson ((setup.handlers connection).serve service request).1 value := by
  cases request with
  | ingestMetadata body =>
    dsimp only [Handlers.serve, DaemonSetup.handlers]
    rw [handleMetadataIngestRequest]
    cases parseMetadataEventJson setup.texts body with
    | error error => exact isJson_errorJson hPrints (by decide) _
    | ok event => exact isJson_captureAnswer hPrints _
  | ingest body =>
    dsimp only [Handlers.serve, DaemonSetup.handlers]
    rw [handleIngestRequest]
    cases parseIngestEventJson setup.texts connection.generatedId body with
    | none => exact isJson_badRequest (by simp [Plain])
    | some event => exact isJson_ingestAnswer hPrints _
  | query body => exact isJson_handleQueryRequest hPrints service body
  | unreadable answer =>
    obtain ⟨rest, contentLength, hBody⟩ := readRequestBody_of_unreadable hRequest
    exact isJson_readRequestBody hBody
  | health => exact isJson_health hPrints _ _ _
  | notFound =>
    refine isJson_error (by decide) (?_ : _ = (Json.object [("error", .string "not found")]).print)
    decide

/-- Whatever a client sends, and whatever the state of the daemon: a request line that cannot be read is not answered,
and any other request is answered with a JSON object that reads as it was written. -/
theorem answers_are_json (hPrints : Prints setup.texts.toText) (state : DaemonState config ω)
    (connection : Connection) :
    (setup.daemonStep writer state (.connection connection)).1 = none ∧
        (∃ error, connection.stream.readLine.1 = .error error) ∧
        (setup.daemonStep writer state (.connection connection)).2 = state ∨
      ∃ status value, Json.Proper value ∧
        (status = "200 OK" ∧ value.field "error" = none ∨
          status ∈ refusals ∧ ∃ text, value = .object [("error", .string text)]) ∧
        (setup.daemonStep writer state (.connection connection)).1 =
          some (writeJsonResponse (status, String.ofList value.print)) ∧
        readAnswer ⟨writeJsonResponse (status, String.ofList value.print), .closed⟩ =
          .ok (some (String.ofList value.print)) := by
  rw [DaemonSetup.daemonStep, Handlers.handleHealthRequest]
  cases hRequest : readRequest setup.daemonConfig connection.stream with
  | none =>
    refine .inl ⟨rfl, ?_, DaemonState.ofService_ofSupervisor ..⟩
    rw [readRequest] at hRequest
    split at hRequest
    · rename_i error rest hLine
      exact ⟨error, by rw [hLine]⟩
    · cases hRequest
  | some request =>
    obtain ⟨value, hProper, hBody, hStatus⟩ := isJson_serve setup hPrints connection state.service hRequest
    rcases hServed : (setup.handlers connection).serve state.service request with ⟨⟨status, body⟩, service⟩
    rw [hServed] at hBody hStatus
    obtain rfl : body = String.ofList value.print := hBody
    refine .inr ⟨status, value, hProper, hStatus, by simp only [hServed], readAnswer_writeJsonResponse ?_⟩
    rcases hStatus with ⟨hOk, -⟩ | ⟨hRefusal, -⟩
    · exact hOk ▸ (by decide)
    · exact not_mem_refusals status hRefusal

end Connections

/-! ### A background writer that failed with a quoted text -/

/-- The texts as far as a sample needs them. -/
def knownTexts (known : List (String × Json)) : Texts where
  fromStr text := (known.lookup text).elim (.error "expected value") .ok
  toText := compactText
  debug text := "\"" ++ text ++ "\""
  io _ := "entity not found"

theorem mebibyte_lt : 1024 * 1024 < 2 ^ 64 := by decide

def sampleSetup (known : List (String × Json)) : DaemonSetup twoShards where
  texts := knownTexts known
  mapAll _ output := (List.finRange 2).map fun shard => (shard, output shard)
  daemonConfig := ⟨1024 * 1024, mebibyte_lt⟩
  nodeId := ⟨"node-a"⟩

def sampleStart : StartOptions where
  placement := mapBefore
  mapping := .new "v1"
  outboxPath := .ofString "outbox.seg"
  outboxSegmentId := ⟨"outbox"⟩
  nodeId := ⟨"node-a"⟩
  journalPath := .ofString "journal.seg"

/-- A connection that sends this and then nothing more. -/
def sending (bytes : Bytes) : Connection := ⟨⟨bytes, .closed⟩, ⟨"generated"⟩, .error "no control plane", none, 0⟩

def asksHealth : Connection :=
  { sending (utf8Bytes "GET /health HTTP/1.1\r\n\r\n") with
    backgroundWriter := some { BackgroundWriterSnapshot.default with lastControlError := some "no \"leader\"" } }

theorem answers_are_json_health :
    ∃ service, startService (knownTexts []) sampleStart (sampleSetup []).mapAll none none = .ok service ∧
      (((sampleSetup []).daemonStep acceptingWriter (.ofService service [] ()) (.connection asksHealth)).1 = none ∧
          (∃ error, asksHealth.stream.readLine.1 = .error error) ∧
          ((sampleSetup []).daemonStep acceptingWriter (.ofService service [] ()) (.connection asksHealth)).2 =
            .ofService service [] () ∨
        ∃ status value, Json.Proper value ∧
          (status = "200 OK" ∧ value.field "error" = none ∨
            status ∈ refusals ∧ ∃ text, value = .object [("error", .string text)]) ∧
          ((sampleSetup []).daemonStep acceptingWriter (.ofService service [] ()) (.connection asksHealth)).1 =
            some (writeJsonResponse (status, String.ofList value.print)) ∧
          readAnswer ⟨writeJsonResponse (status, String.ofList value.print), .closed⟩ =
            .ok (some (String.ofList value.print))) := by
  obtain ⟨service, hStart⟩ := @startService_fresh twoShards (knownTexts []) sampleStart (sampleSetup []).mapAll (by decide)
  exact ⟨service, hStart, answers_are_json (sampleSetup []) acceptingWriter prints_compactText (.ofService service [] ())
    asksHealth⟩

end Vannak.Daemon
