import Vannak.Foundation.Joined
import Vannak.Ingest.Codec
import Vannak.Process.Duplicates
import Vannak.Provenance

/-!
# Kafka payloads

What a Kafka message is decoded to: `durga.rs` and the decoding part of `kafka_client.rs`.
The text of a JSON payload is parsed by a library and is a parameter here. The id of a
Durga event is put together from the source, the topic, the process instance and the
offset, but not from the partition.
-/

namespace Vannak.Kafka

open Foundation Ingest Process

set_option autoImplicit false

/-! ## Durga events -/

inductive DurgaStatus where
  | started
  | completed
  | failed
  | escalated
  | cancelled
  | unknown (value : String)
deriving DecidableEq, Repr

def DurgaStatus.toEventStatus : DurgaStatus → EventStatus
  | started => .started
  | completed => .completed
  | failed => .failed
  | escalated => .escalated
  | cancelled => .cancelled
  | unknown _ => .started

inductive DurgaEventType where
  | processStarted
  | activityEntered
  | activityCompleted
  | activityEscalated
  | activityCancelled
  | gatewayTaken
  | processCompleted
  | processFailed
  | unknown (value : String)
deriving DecidableEq, Repr

def DurgaEventType.toEventKind : DurgaEventType → EventKind
  | processStarted => .processStarted
  | activityEntered => .activityEntered
  | activityCompleted => .activityCompleted
  | activityEscalated => .activityEscalated
  | activityCancelled => .activityCancelled
  | gatewayTaken => .gatewayTaken
  | processCompleted => .processCompleted
  | processFailed => .processFailed
  | unknown value => .unknown value

structure DurgaErrorInfo where
  message : String
  code : Option String
deriving DecidableEq, Repr

structure DurgaProcessEvent where
  processInstanceId : String
  processId : String
  activityId : Option String
  tokenId : Option String
  correlationId : Option String
  payload : Option String
  status : DurgaStatus
  error : Option DurgaErrorInfo
  eventType : DurgaEventType
  processVersion : Option String
  businessKey : Option String
  timestamp : String
  metadataRefs : List MetadataRef
  schemaVersion : Option String
deriving DecidableEq, Repr

/-- `if let Some(value) = field { event = event.with_field(value) }`. -/
def withSome {α : Type} (field : Option α) (set : PipelineEvent → α → PipelineEvent) (event : PipelineEvent) :
    PipelineEvent :=
  match field with
  | some value => set event value
  | none => event

def DurgaProcessEvent.intoPipelineEvent (durga : DurgaProcessEvent) (sourceId : SourceId)
    (sourceSequence : SourceSequence) (tenantId : TenantId) (environmentId : EnvironmentId) : PipelineEvent :=
  let eventId : EventId :=
    ⟨sourceId.asStr ++ ":" ++ durga.processInstanceId ++ ":" ++ toString sourceSequence.toNat⟩
  let event := (PipelineEvent.new eventId sourceId sourceSequence tenantId environmentId ⟨durga.processId⟩
    ⟨durga.processId⟩ ⟨durga.processInstanceId⟩ ⟨durga.timestamp⟩ durga.eventType.toEventKind).withStatus
      durga.status.toEventStatus
  let event := if durga.metadataRefs = [] then event else event.withMetadataRefs durga.metadataRefs
  let event := withSome durga.activityId (fun event id => event.withActivityId ⟨id⟩) event
  let event := withSome durga.tokenId (fun event id => event.withTokenId ⟨id⟩) event
  let event := withSome durga.correlationId (fun event id => event.withCorrelationId ⟨id⟩) event
  let event := withSome durga.processVersion (fun event version => event.withProcessVersion ⟨version⟩) event
  let event := withSome durga.businessKey (fun event key => event.withBusinessKey ⟨key⟩) event
  let event := withSome durga.error (fun event error => event.withError ⟨error.message, error.code⟩) event
  withSome durga.payload PipelineEvent.withPayload event

/-! ## Compatibility counters -/

structure DurgaCompatibilityState where
  unknownStatusCounts : BTreeMap String Nat
  unknownEventTypeCounts : BTreeMap String Nat

namespace DurgaCompatibilityState

def new : DurgaCompatibilityState := ⟨∅, ∅⟩

/-- `*counts.entry(value).or_default() += 1`. -/
def increment (counts : BTreeMap String Nat) (value : String) : BTreeMap String Nat :=
  counts.insert value (counts.getD value 0 + 1)

def recordUnknownStatus (compat : DurgaCompatibilityState) (value : String) : DurgaCompatibilityState :=
  { compat with unknownStatusCounts := increment compat.unknownStatusCounts value }

def recordUnknownEventType (compat : DurgaCompatibilityState) (value : String) : DurgaCompatibilityState :=
  { compat with unknownEventTypeCounts := increment compat.unknownEventTypeCounts value }

end DurgaCompatibilityState

def parseDurgaStatus (value : String) (compat : DurgaCompatibilityState) :
    DurgaStatus × DurgaCompatibilityState :=
  if value ∈ ["Started", "STARTED"] then (.started, compat)
  else if value ∈ ["Completed", "COMPLETED"] then (.completed, compat)
  else if value ∈ ["Failed", "FAILED"] then (.failed, compat)
  else if value ∈ ["Escalated", "ESCALATED"] then (.escalated, compat)
  else if value ∈ ["Cancelled", "CANCELLED", "Canceled", "CANCELED"] then (.cancelled, compat)
  else (.unknown value, compat.recordUnknownStatus value)

def parseDurgaEventType (value : String) (compat : DurgaCompatibilityState) :
    DurgaEventType × DurgaCompatibilityState :=
  if value ∈ ["ProcessStarted", "PROCESS_STARTED"] then (.processStarted, compat)
  else if value ∈ ["ActivityEntered", "ACTIVITY_ENTERED"] then (.activityEntered, compat)
  else if value ∈ ["ActivityCompleted", "ACTIVITY_COMPLETED"] then (.activityCompleted, compat)
  else if value ∈ ["ActivityEscalated", "ACTIVITY_ESCALATED"] then (.activityEscalated, compat)
  else if value ∈ ["ActivityCancelled", "ACTIVITY_CANCELLED", "ActivityCanceled", "ACTIVITY_CANCELED"] then
    (.activityCancelled, compat)
  else if value ∈ ["GatewayTaken", "GATEWAY_TAKEN"] then (.gatewayTaken, compat)
  else if value ∈ ["ProcessCompleted", "PROCESS_COMPLETED"] then (.processCompleted, compat)
  else if value ∈ ["ProcessFailed", "PROCESS_FAILED"] then (.processFailed, compat)
  else (.unknown value, compat.recordUnknownEventType value)

/-! ## JSON -/

structure MetadataRefJson where
  kind : String
  id : String
  version : Option String
deriving DecidableEq, Repr

def MetadataRefJson.intoMetadataRef (json : MetadataRefJson) : Option MetadataRef :=
  match json.kind with
  | "dataset" => some (.dataset ⟨json.id⟩)
  | "schema" => some (.schema ⟨json.id⟩ (json.version.map StringId.mk))
  | "field" => some (.field ⟨json.id⟩)
  | "pipelineDefinition" => some (.pipelineDefinition ⟨json.id⟩ (json.version.map StringId.mk))
  | "object" => some (.object ⟨json.id⟩)
  | "lineageEdge" => some (.lineageEdge ⟨json.id⟩)
  | "dataContract" => some (.dataContract ⟨json.id⟩)
  | "owner" => some (.owner ⟨json.id⟩)
  | "classification" => some (.classification ⟨json.id⟩)
  | _ => none

structure DurgaErrorInfoJson where
  message : String
  code : Option String
deriving DecidableEq, Repr

structure DurgaProcessEventJson (Value : Type) where
  processInstanceId : String
  processId : String
  activityId : Option String
  tokenId : Option String
  correlationId : Option String
  payload : Option Value
  status : String
  error : Option DurgaErrorInfoJson
  eventType : String
  processVersion : Option String
  businessKey : Option String
  timestamp : String
  schemaVersion : Option String
  metadataRefs : List MetadataRefJson

/-- What the decoder uses of `serde_json`: `from_slice` at the type of Durga's events, and
`to_string` of a value. -/
structure SerdeJson where
  Error : Type
  Value : Type
  fromSlice : Bytes → Except Error (DurgaProcessEventJson Value)
  toText : Value → String

/-- The event that a parsed record stands for. -/
def durgaProcessEvent (json : SerdeJson) (value : DurgaProcessEventJson json.Value)
    (compat : DurgaCompatibilityState) : DurgaProcessEvent × DurgaCompatibilityState :=
  let (status, compat) := parseDurgaStatus value.status compat
  let (eventType, compat) := parseDurgaEventType value.eventType compat
  ({  processInstanceId := value.processInstanceId
      processId := value.processId
      activityId := value.activityId
      tokenId := value.tokenId
      correlationId := value.correlationId
      payload := value.payload.map json.toText
      status
      error := value.error.map fun error => ⟨error.message, error.code⟩
      eventType
      processVersion := value.processVersion
      businessKey := value.businessKey
      timestamp := value.timestamp
      metadataRefs := value.metadataRefs.filterMap MetadataRefJson.intoMetadataRef
      schemaVersion := value.schemaVersion }, compat)

def decodeDurgaJsonProcessEvent (json : SerdeJson) (payload : Bytes) (compat : DurgaCompatibilityState) :
    Except json.Error (DurgaProcessEvent × DurgaCompatibilityState) := do
  let value ← json.fromSlice payload
  return durgaProcessEvent json value compat

/-! ## Consumer configuration -/

/-- What the consumer reads of a message. -/
structure KafkaMessage where
  topic : String
  partition : Int32
  offset : Int64
  payload : Option Bytes
deriving DecidableEq, Repr

inductive KafkaPayloadFormat where
  | vannakBinary
  | durgaJson
deriving DecidableEq, Repr

/-- The poll timeout and the end-of-partition events are options of the client only. -/
structure KafkaProcessConsumerConfig where
  brokers : String
  groupId : String
  topics : List String
  isolationLevel : String
  payloadFormat : KafkaPayloadFormat
  durgaSourceId : SourceId
  durgaTenantId : TenantId
  durgaEnvironmentId : EnvironmentId
  autoOffsetReset : String
deriving DecidableEq, Repr

inductive KafkaDecodeError (json : SerdeJson) where
  | missingPayload
  | decode (error : ProcessEventDecodeError)
  | durgaJson (error : json.Error)

namespace KafkaProcessConsumerConfig

def new (brokers groupId : String) (topics : List String) : KafkaProcessConsumerConfig where
  brokers := brokers
  groupId := groupId
  topics := topics
  isolationLevel := "read_committed"
  payloadFormat := .vannakBinary
  durgaSourceId := ⟨"kafka"⟩
  durgaTenantId := ⟨"default"⟩
  durgaEnvironmentId := ⟨"default"⟩
  autoOffsetReset := "earliest"

def withPayloadFormat (config : KafkaProcessConsumerConfig) (payloadFormat : KafkaPayloadFormat) :
    KafkaProcessConsumerConfig :=
  { config with payloadFormat }

/-- The text is that of `KafkaClientError::InvalidConfig`. -/
def validate (config : KafkaProcessConsumerConfig) : Except String Unit :=
  if isBlank config.brokers then .error "brokers must not be empty"
  else if isBlank config.groupId then .error "group id must not be empty"
  else if config.topics.isEmpty || config.topics.any isBlank then
    .error "at least one non-empty topic is required"
  else if isBlank config.autoOffsetReset then .error "auto.offset.reset must not be empty"
  else if isBlank config.isolationLevel then .error "isolation.level must not be empty"
  else .ok ()

/-- `SourceSequence(offset.max(0) as u64)`. -/
def sourceSequence (offset : Int64) : SourceSequence := (max offset 0).toUInt64

def decodeEvent (config : KafkaProcessConsumerConfig) (json : SerdeJson) (topic : String) (offset : Int64)
    (payload : Bytes) (compat : DurgaCompatibilityState) :
    Except (KafkaDecodeError json) (PipelineEvent × DurgaCompatibilityState) :=
  match config.payloadFormat with
  | .vannakBinary => do
    let event ← (decodePipelineEvent payload).mapError .decode
    return (event, compat)
  | .durgaJson => do
    let (event, compat) ← (decodeDurgaJsonProcessEvent json payload compat).mapError .durgaJson
    return (event.intoPipelineEvent ⟨config.durgaSourceId.asStr ++ ":" ++ topic⟩ (sourceSequence offset)
      config.durgaTenantId config.durgaEnvironmentId, compat)

/-- The decoding steps of `poll_with_sink`. -/
def decodeMessage (config : KafkaProcessConsumerConfig) (json : SerdeJson) (message : KafkaMessage)
    (compat : DurgaCompatibilityState) :
    Except (KafkaDecodeError json) (PipelineEvent × DurgaCompatibilityState) :=
  match message.payload with
  | none => .error .missingPayload
  | some payload => config.decodeEvent json message.topic message.offset payload compat

end KafkaProcessConsumerConfig

/-! ## Event ids -/

theorem eventId_withSome {α : Type} {set : PipelineEvent → α → PipelineEvent}
    (h : ∀ event value, (set event value).eventId = event.eventId) (field : Option α) (event : PipelineEvent) :
    (withSome field set event).eventId = event.eventId := by
  cases field with
  | none => rfl
  | some value => exact h event value

theorem DurgaProcessEvent.eventId_intoPipelineEvent (durga : DurgaProcessEvent) (sourceId : SourceId)
    (sourceSequence : SourceSequence) (tenantId : TenantId) (environmentId : EnvironmentId) :
    (durga.intoPipelineEvent sourceId sourceSequence tenantId environmentId).eventId =
      ⟨sourceId.asStr ++ ":" ++ durga.processInstanceId ++ ":" ++ toString sourceSequence.toNat⟩ := by
  rw [DurgaProcessEvent.intoPipelineEvent]
  iterate 7 refine Eq.trans (eventId_withSome (by intros; rfl) _ _) ?_
  split
  · rfl
  · rfl

namespace KafkaProcessConsumerConfig

variable {config : KafkaProcessConsumerConfig} {json : SerdeJson}

/-- The part of an event id in front of the offset. -/
def streamText (topic processInstanceId : String) : String := topic ++ ":" ++ processInstanceId

/-- A parsed payload is decoded, and its id is made of four texts. -/
theorem decodeEvent_of_fromSlice (hFormat : config.payloadFormat = .durgaJson) {payload : Bytes}
    {value : DurgaProcessEventJson json.Value} (h : json.fromSlice payload = .ok value) (topic : String)
    (offset : Int64) (compat : DurgaCompatibilityState) :
    ∃ event compatAfter, config.decodeEvent json topic offset payload compat = .ok (event, compatAfter) ∧
      event.eventId = ⟨config.durgaSourceId.asStr ++ ":" ++ streamText topic value.processInstanceId ++ ":" ++
        toString (sourceSequence offset).toNat⟩ := by
  have hDecode : config.decodeEvent json topic offset payload compat =
      .ok ((durgaProcessEvent json value compat).1.intoPipelineEvent ⟨config.durgaSourceId.asStr ++ ":" ++ topic⟩
        (sourceSequence offset) config.durgaTenantId config.durgaEnvironmentId,
        (durgaProcessEvent json value compat).2) := by
    rw [decodeEvent, hFormat, decodeDurgaJsonProcessEvent, h]
    rfl
  refine ⟨_, _, hDecode, ?_⟩
  rw [DurgaProcessEvent.eventId_intoPipelineEvent]
  simp only [streamText, durgaProcessEvent, String.append_assoc]

theorem colon_not_mem_toString (n : Nat) : ':' ∉ (toString n).toList := by
  intro hMem
  rw [Nat.toString_eq_repr, Nat.toList_repr] at hMem
  exact absurd (Nat.isDigit_of_mem_toDigits (by decide) (by decide) hMem) (by decide)

/-- The last colon of an id stands in front of the offset. -/
theorem eventId_eq_iff (source : String) (left right : String) (n m : Nat) :
    source ++ ":" ++ left ++ ":" ++ toString n = source ++ ":" ++ right ++ ":" ++ toString m ↔
      left = right ∧ n = m := by
  constructor
  · intro h
    rw [← String.toList_inj, toList_colon (source ++ ":" ++ left), toList_colon (source ++ ":" ++ right)] at h
    have hParts : ((source ++ ":" ++ left).toList, (toString n).toList) =
        ((source ++ ":" ++ right).toList, (toString m).toList) :=
      join_inj_of_not_mem (colon_not_mem_toString n) (colon_not_mem_toString m) h
    obtain ⟨hText, hNumber⟩ := Prod.mk.inj hParts
    rw [String.toList_inj] at hText hNumber
    refine ⟨?_, Nat.repr_injective hNumber⟩
    rw [← String.toList_inj] at hText ⊢
    simpa using hText
  · rintro ⟨rfl, rfl⟩
    rfl

theorem max_zero_of_nonneg {offset : Int64} (h : 0 ≤ offset) : max offset 0 = offset := by
  have hMax : max offset 0 = if offset ≤ 0 then 0 else offset := rfl
  rw [hMax]
  split
  · rename_i hNonpos
    exact Int64.le_antisymm h hNonpos
  · rfl

theorem sourceSequence_inj {left right : Int64} (hLeft : 0 ≤ left) (hRight : 0 ≤ right) :
    (sourceSequence left).toNat = (sourceSequence right).toNat ↔ left = right := by
  rw [sourceSequence, sourceSequence, max_zero_of_nonneg hLeft, max_zero_of_nonneg hRight]
  constructor
  · intro h
    exact Int64.toBitVec_inj.mp (congrArg UInt64.toBitVec (UInt64.toNat_inj.mp h))
  · rintro rfl
    rfl

/-- The ids of two messages differ exactly when their offsets or the texts of topic and instance
do, and then neither event is taken for the other. -/
theorem durga_events_differ_iff (hFormat : config.payloadFormat = .durgaJson) {first second : KafkaMessage}
    {firstPayload secondPayload : Bytes} (hFirst : first.payload = some firstPayload)
    (hSecond : second.payload = some secondPayload)
    {firstValue secondValue : DurgaProcessEventJson json.Value}
    (hFirstValue : json.fromSlice firstPayload = .ok firstValue)
    (hSecondValue : json.fromSlice secondPayload = .ok secondValue)
    (hFirstOffset : 0 ≤ first.offset) (hSecondOffset : 0 ≤ second.offset)
    (firstCompat secondCompat : DurgaCompatibilityState) :
    ∃ firstEvent secondEvent firstAfter secondAfter,
      config.decodeMessage json first firstCompat = .ok (firstEvent, firstAfter) ∧
      config.decodeMessage json second secondCompat = .ok (secondEvent, secondAfter) ∧
      ((firstEvent.eventId ≠ secondEvent.eventId ∧
          ∀ index : HotIndex, secondEvent.eventId ∉ index.eventsById →
            ((index.ingest firstEvent).2.ingest secondEvent).1 ≠ .ok .duplicate) ↔
        first.offset ≠ second.offset ∨ streamText first.topic firstValue.processInstanceId ≠
          streamText second.topic secondValue.processInstanceId) := by
  obtain ⟨firstEvent, firstAfter, hFirstDecode, hFirstId⟩ :=
    decodeEvent_of_fromSlice hFormat hFirstValue first.topic first.offset firstCompat
  obtain ⟨secondEvent, secondAfter, hSecondDecode, hSecondId⟩ :=
    decodeEvent_of_fromSlice hFormat hSecondValue second.topic second.offset secondCompat
  refine ⟨firstEvent, secondEvent, firstAfter, secondAfter, ?_, ?_, ?_⟩
  · rw [decodeMessage, hFirst]
    exact hFirstDecode
  · rw [decodeMessage, hSecond]
    exact hSecondDecode
  have hDiffer : firstEvent.eventId ≠ secondEvent.eventId ↔ first.offset ≠ second.offset ∨
      streamText first.topic firstValue.processInstanceId ≠
        streamText second.topic secondValue.processInstanceId := by
    rw [hFirstId, hSecondId, Ne, StringId.mk.injEq, eventId_eq_iff,
      sourceSequence_inj hFirstOffset hSecondOffset, not_and_or, or_comm]
  rw [← hDiffer]
  refine and_iff_left_of_imp fun hIds index hFresh hDuplicate => ?_
  obtain ⟨-, hKnown⟩ := ((index.ingest firstEvent).2.ingest_eq_duplicate_iff secondEvent).mp hDuplicate
  rcases (index.mem_eventsById_ingest firstEvent secondEvent.eventId).mp hKnown with hMem | ⟨-, hSame⟩
  · exact hFresh hMem
  · exact hIds hSame

/-! ### One instance in two partitions -/

def samplePayload : Bytes := utf8Bytes
  "\x7b\"processInstanceId\":\"i-1\",\"processId\":\"invoice\",\"status\":\"Started\",\"eventType\":\"ProcessStarted\",\"timestamp\":\"2026-06-20T10:00:00Z\"\x7d"

def sampleValue : DurgaProcessEventJson String where
  processInstanceId := "i-1"
  processId := "invoice"
  activityId := none
  tokenId := none
  correlationId := none
  payload := none
  status := "Started"
  error := none
  eventType := "ProcessStarted"
  processVersion := none
  businessKey := none
  timestamp := "2026-06-20T10:00:00Z"
  schemaVersion := none
  metadataRefs := []

/-- A parser that knows the sample payload. -/
def sampleJson : SerdeJson where
  Error := Unit
  Value := String
  fromSlice payload := if payload = samplePayload then .ok sampleValue else .error ()
  toText value := value

def sampleMessage (topic : String) (partition : Int32) (offset : Int64) : KafkaMessage :=
  ⟨topic, partition, offset, some samplePayload⟩

def sampleConfig : KafkaProcessConsumerConfig :=
  (new "localhost:9092" "vannak" ["process-events-invoice"]).withPayloadFormat .durgaJson

theorem sampleJson_fromSlice : sampleJson.fromSlice samplePayload = .ok sampleValue := by
  simp only [sampleJson, if_pos]

theorem durga_events_differ_by_offset :
    ∃ firstEvent secondEvent firstAfter secondAfter,
      sampleConfig.decodeMessage sampleJson (sampleMessage "process-events-invoice" 0 4) .new =
        .ok (firstEvent, firstAfter) ∧
      sampleConfig.decodeMessage sampleJson (sampleMessage "process-events-invoice" 0 5) .new =
        .ok (secondEvent, secondAfter) ∧
      firstEvent.eventId ≠ secondEvent.eventId := by
  obtain ⟨firstEvent, secondEvent, firstAfter, secondAfter, hFirst, hSecond, hDiffer⟩ :=
    @durga_events_differ_iff sampleConfig sampleJson rfl (sampleMessage "process-events-invoice" 0 4)
      (sampleMessage "process-events-invoice" 0 5) samplePayload samplePayload rfl rfl sampleValue sampleValue
      sampleJson_fromSlice sampleJson_fromSlice (by decide) (by decide) .new .new
  exact ⟨firstEvent, secondEvent, firstAfter, secondAfter, hFirst, hSecond, (hDiffer.mpr (.inl (by decide))).1⟩

/-- The records at one offset of two partitions get the same id, and the second is dropped. -/
theorem durga_events_collide :
    (sampleMessage "process-events-invoice" 0 4).partition ≠
      (sampleMessage "process-events-invoice" 1 4).partition ∧
    ∃ firstEvent secondEvent firstAfter secondAfter,
      sampleConfig.decodeMessage sampleJson (sampleMessage "process-events-invoice" 0 4) .new =
        .ok (firstEvent, firstAfter) ∧
      sampleConfig.decodeMessage sampleJson (sampleMessage "process-events-invoice" 1 4) .new =
        .ok (secondEvent, secondAfter) ∧
      firstEvent.eventId = secondEvent.eventId ∧
      ((HotIndex.new.ingest firstEvent).2.ingest secondEvent).1 = .ok .duplicate := by
  refine ⟨by decide, ?_⟩
  have hDecode : ∀ partition, sampleConfig.decodeMessage sampleJson
      (sampleMessage "process-events-invoice" partition 4) .new =
        .ok ((durgaProcessEvent sampleJson sampleValue .new).1.intoPipelineEvent
          ⟨"kafka:process-events-invoice"⟩ 4 ⟨"default"⟩ ⟨"default"⟩,
            (durgaProcessEvent sampleJson sampleValue .new).2) := by
    intro partition
    simp only [decodeMessage, sampleMessage, decodeEvent, decodeDurgaJsonProcessEvent, sampleJson_fromSlice]
    rfl
  refine ⟨_, _, _, _, hDecode 0, hDecode 1, rfl, ?_⟩
  rw [HotIndex.ingest_eq_duplicate_iff, HotIndex.mem_eventsById_ingest]
  have hValid : ((durgaProcessEvent sampleJson sampleValue .new).1.intoPipelineEvent
      ⟨"kafka:process-events-invoice"⟩ 4 ⟨"default"⟩ ⟨"default"⟩).validate = .ok () := by
    decide +kernel
  exact ⟨hValid, .inr ⟨hValid, rfl⟩⟩

end KafkaProcessConsumerConfig

end Vannak.Kafka
