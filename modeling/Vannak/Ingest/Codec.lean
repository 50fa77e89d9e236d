import Vannak.Foundation.Codec
import Vannak.Ingest.Event
import Vannak.Storage.Segment

/-!
# The pipeline event codec

`encode_pipeline_event` and `decode_pipeline_event` of `ingest.rs`. The `put_*`
functions append to a buffer and are modelled by the bytes they append; the payload
cursor is a decoder over the bytes it has not read yet. Every part of the format is
exact, so the codec is a bijection between the events that fit and the byte strings
that are accepted.
-/

namespace Vannak.Ingest

open Foundation Decoder Storage

set_option autoImplicit false

/-- `PIPELINE_EVENT_CODEC_MAGIC`. -/
def pipelineEventCodecMagic : Bytes := utf8Bytes "VPE1"

inductive ProcessEventDecodeError where
  | invalidMagic
  | unexpectedEof
  | trailingBytes (remaining : Nat)
  | invalidUtf8
  | invalidBool (value : UInt8)
  | invalidEventStatus (value : UInt8)
  | invalidEventKind (value : UInt8)
  | invalidMetadataRefKind (value : UInt8)
deriving DecidableEq, Repr

/-! ## Encoder -/

def putString (value : String) : Bytes := stringBytes value

def putOptionString (value : Option String) : Bytes := optionBytes putString value

def putOptionError (value : Option ErrorInfo) : Bytes :=
  optionBytes (fun error => putString error.message ++ putOptionString error.code) value

def putMetadataRef : MetadataRef → Bytes
  | .dataset id => 0 :: putString id.asStr
  | .schema id version => 1 :: (putString id.asStr ++ putOptionString (version.map StringId.asStr))
  | .field id => 2 :: putString id.asStr
  | .pipelineDefinition id version =>
    3 :: (putString id.asStr ++ putOptionString (version.map StringId.asStr))
  | .object id => 4 :: putString id.asStr
  | .lineageEdge id => 5 :: putString id.asStr
  | .dataContract id => 6 :: putString id.asStr
  | .owner id => 7 :: putString id.asStr
  | .classification id => 8 :: putString id.asStr

def putMetadataRefs (refs : List MetadataRef) : Bytes := countedBytes putMetadataRef refs

def encodeEventStatus : EventStatus → UInt8
  | .started => 0
  | .completed => 1
  | .failed => 2
  | .escalated => 3
  | .cancelled => 4

def encodeEventKind : EventKind → Bytes
  | .processStarted => [0]
  | .activityEntered => [1]
  | .activityCompleted => [2]
  | .activityEscalated => [3]
  | .activityCancelled => [4]
  | .gatewayTaken => [5]
  | .processCompleted => [6]
  | .processFailed => [7]
  | .unknown name => 8 :: putString name

def encodePipelineEvent (event : PipelineEvent) : Bytes :=
  pipelineEventCodecMagic ++
  (putString event.eventId.asStr ++
  (putString event.sourceId.asStr ++
  (u64Bytes event.sourceSequence ++
  (putString event.tenantId.asStr ++
  (putString event.environmentId.asStr ++
  (putString event.pipelineId.asStr ++
  (putString event.processDefinitionId.asStr ++
  (putString event.processInstanceId.asStr ++
  (putOptionString (event.processVersion.map StringId.asStr) ++
  (putOptionString (event.activityId.map StringId.asStr) ++
  (putOptionString (event.tokenId.map StringId.asStr) ++
  (putOptionString (event.correlationId.map StringId.asStr) ++
  (putOptionString (event.businessKey.map StringId.asStr) ++
  (putString event.timestamp.asStr ++
  ([encodeEventStatus event.status] ++
  (encodeEventKind event.kind ++
  (putOptionError event.error ++
  (putMetadataRefs event.metadataRefs ++
  (putOptionString (event.metadataVersion.map StringId.asStr) ++
  (putOptionString (event.causalParent.map StringId.asStr) ++
  putOptionString event.payload))))))))))))))))))))

/-! ## Decoder -/

abbrev PayloadCursor := Decoder ProcessEventDecodeError

namespace PayloadCursor

def u8 : PayloadCursor UInt8 := Decoder.u8 .unexpectedEof

def u64 : PayloadCursor UInt64 := Decoder.u64 .unexpectedEof

def string : PayloadCursor String := Decoder.string .unexpectedEof .invalidUtf8

def optionString : PayloadCursor (Option String) := Decoder.option .unexpectedEof .invalidBool string

/-- An identifier read by `string` and wrapped by its `from`. -/
def id (kind : IdKind) : PayloadCursor (StringId kind) := StringId.mk <$> string

def optionId (kind : IdKind) : PayloadCursor (Option (StringId kind)) :=
  Option.map StringId.mk <$> optionString

def errorInfo : PayloadCursor ErrorInfo := do
  let message ← string
  let code ← optionString
  return ⟨message, code⟩

def optionError : PayloadCursor (Option ErrorInfo) := Decoder.option .unexpectedEof .invalidBool errorInfo

/-- An identifier and an optional version, as two of the references have them. -/
def versioned (kind : IdKind) : PayloadCursor (StringId kind × Option MetadataVersion) := do
  let id ← id kind
  let version ← optionId .metadataVersion
  return (id, version)

def metadataRefOf (tag : UInt8) : PayloadCursor MetadataRef :=
  match tag with
  | 0 => MetadataRef.dataset <$> id .dataset
  | 1 => (fun (id, version) => MetadataRef.schema id version) <$> versioned .schema
  | 2 => MetadataRef.field <$> id .field
  | 3 => (fun (id, version) => MetadataRef.pipelineDefinition id version) <$> versioned .pipelineDefinition
  | 4 => MetadataRef.object <$> id .metadataObject
  | 5 => MetadataRef.lineageEdge <$> id .lineageEdge
  | 6 => MetadataRef.dataContract <$> id .dataContract
  | 7 => MetadataRef.owner <$> id .owner
  | 8 => MetadataRef.classification <$> id .classification
  | value => throw (.invalidMetadataRefKind value)

def metadataRefs : PayloadCursor (List MetadataRef) :=
  Decoder.counted .unexpectedEof (u8 >>= metadataRefOf)

def finish : PayloadCursor Unit := Decoder.finish .trailingBytes

end PayloadCursor

def decodeEventStatus (value : UInt8) : PayloadCursor EventStatus :=
  match value with
  | 0 => pure .started
  | 1 => pure .completed
  | 2 => pure .failed
  | 3 => pure .escalated
  | 4 => pure .cancelled
  | value => throw (.invalidEventStatus value)

def decodeEventKind (value : UInt8) : PayloadCursor EventKind :=
  match value with
  | 0 => pure .processStarted
  | 1 => pure .activityEntered
  | 2 => pure .activityCompleted
  | 3 => pure .activityEscalated
  | 4 => pure .activityCancelled
  | 5 => pure .gatewayTaken
  | 6 => pure .processCompleted
  | 7 => pure .processFailed
  | 8 => EventKind.unknown <$> PayloadCursor.string
  | value => throw (.invalidEventKind value)

/-- The second half of `decode_pipeline_event`: the event is rebuilt through `new`
and its builders. -/
def assemblePipelineEvent (eventId : EventId) (sourceId : SourceId) (sourceSequence : SourceSequence)
    (tenantId : TenantId) (environmentId : EnvironmentId) (pipelineId : PipelineId)
    (processDefinitionId : ProcessDefinitionId) (processInstanceId : ProcessInstanceId)
    (processVersion : Option ProcessVersion) (activityId : Option ActivityId) (tokenId : Option TokenId)
    (correlationId : Option CorrelationId) (businessKey : Option BusinessKey) (timestamp : EventTimestamp)
    (status : EventStatus) (kind : EventKind) (error : Option ErrorInfo) (metadataRefs : List MetadataRef)
    (metadataVersion : Option MetadataVersion) (causalParent : Option EventId)
    (eventPayload : Option String) : PipelineEvent :=
  let event := ((PipelineEvent.new eventId sourceId sourceSequence tenantId environmentId pipelineId
    processDefinitionId processInstanceId timestamp kind).withStatus status).withMetadataRefs metadataRefs
  let event := applyIfSome processVersion PipelineEvent.withProcessVersion event
  let event := applyIfSome activityId PipelineEvent.withActivityId event
  let event := applyIfSome tokenId PipelineEvent.withTokenId event
  let event := applyIfSome correlationId PipelineEvent.withCorrelationId event
  let event := applyIfSome businessKey PipelineEvent.withBusinessKey event
  let event := applyIfSome error PipelineEvent.withError event
  let event := applyIfSome metadataVersion PipelineEvent.withMetadataVersion event
  let event := applyIfSome causalParent PipelineEvent.withCausalParent event
  applyIfSome eventPayload PipelineEvent.withPayload event

def readPipelineEvent : PayloadCursor PipelineEvent := do
  Decoder.expect .unexpectedEof .invalidMagic pipelineEventCodecMagic
  let eventId ← PayloadCursor.id .event
  let sourceId ← PayloadCursor.id .source
  let sourceSequence ← PayloadCursor.u64
  let tenantId ← PayloadCursor.id .tenant
  let environmentId ← PayloadCursor.id .environment
  let pipelineId ← PayloadCursor.id .pipeline
  let processDefinitionId ← PayloadCursor.id .processDefinition
  let processInstanceId ← PayloadCursor.id .processInstance
  let processVersion ← PayloadCursor.optionId .processVersion
  let activityId ← PayloadCursor.optionId .activity
  let tokenId ← PayloadCursor.optionId .token
  let correlationId ← PayloadCursor.optionId .correlation
  let businessKey ← PayloadCursor.optionId .businessKey
  let timestamp ← PayloadCursor.id .timestamp
  let status ← PayloadCursor.u8 >>= decodeEventStatus
  let kind ← PayloadCursor.u8 >>= decodeEventKind
  let error ← PayloadCursor.optionError
  let metadataRefs ← PayloadCursor.metadataRefs
  let metadataVersion ← PayloadCursor.optionId .metadataVersion
  let causalParent ← PayloadCursor.optionId .event
  let eventPayload ← PayloadCursor.optionString
  PayloadCursor.finish
  return assemblePipelineEvent eventId sourceId sourceSequence tenantId environmentId pipelineId
    processDefinitionId processInstanceId processVersion activityId tokenId correlationId businessKey
    timestamp status kind error metadataRefs metadataVersion causalParent eventPayload

def decodePipelineEvent (payload : Bytes) : Except ProcessEventDecodeError PipelineEvent :=
  readPipelineEvent.run' payload

/-! ## Parts of the format -/

def ErrorFits (error : ErrorInfo) : Prop :=
  StringFits error.message ∧ OptionFits StringFits error.code

def MetadataRefFits : MetadataRef → Prop
  | .dataset id => StringFits id.asStr
  | .schema id version => StringFits id.asStr ∧ OptionFits StringFits (version.map StringId.asStr)
  | .field id => StringFits id.asStr
  | .pipelineDefinition id version =>
    StringFits id.asStr ∧ OptionFits StringFits (version.map StringId.asStr)
  | .object id => StringFits id.asStr
  | .lineageEdge id => StringFits id.asStr
  | .dataContract id => StringFits id.asStr
  | .owner id => StringFits id.asStr
  | .classification id => StringFits id.asStr

def KindFits : EventKind → Prop
  | .unknown name => StringFits name
  | _ => True

namespace PayloadCursor

theorem exact_optionString : Exact optionString putOptionString (OptionFits StringFits) :=
  exact_option _ _ (exact_string _ _)

theorem exact_id (kind : IdKind) :
    Exact (id kind) (fun value => putString value.asStr) fun value => StringFits value.asStr :=
  (exact_string _ _).map (fun _ => rfl) (fun _ => rfl)

theorem exact_optionId (kind : IdKind) :
    Exact (optionId kind) (fun value => putOptionString (value.map StringId.asStr))
      fun value => OptionFits StringFits (value.map StringId.asStr) :=
  exact_optionString.map (fun value => by cases value <;> rfl) (fun value => by cases value <;> rfl)

theorem exact_errorInfo :
    Exact errorInfo (fun error => putString error.message ++ putOptionString error.code) ErrorFits := by
  refine .of_run_iff @fun input error rest => ?_
  simp only [errorInfo, string, run_bind_eq_ok, (exact_string _ _).run_iff, exact_optionString.run_iff,
    run_pure_eq_ok]
  constructor
  · rintro ⟨message, _, ⟨rfl, hMessage⟩, code, _, ⟨rfl, hCode⟩, rfl, rfl⟩
    exact ⟨by rw [List.append_assoc]; rfl, hMessage, hCode⟩
  · rintro ⟨rfl, hMessage, hCode⟩
    exact ⟨_, _, ⟨by rw [List.append_assoc]; rfl, hMessage⟩, _, _, ⟨rfl, hCode⟩, rfl, rfl⟩

theorem exact_optionError : Exact optionError putOptionError (OptionFits ErrorFits) :=
  exact_option _ _ exact_errorInfo

theorem exact_versioned (kind : IdKind) :
    Exact (versioned kind)
      (fun value => putString value.1.asStr ++ putOptionString (value.2.map StringId.asStr))
      fun value => StringFits value.1.asStr ∧ OptionFits StringFits (value.2.map StringId.asStr) := by
  refine .of_run_iff @fun input value rest => ?_
  simp only [versioned, run_bind_eq_ok, (exact_id _).run_iff, (exact_optionId _).run_iff, run_pure_eq_ok]
  constructor
  · rintro ⟨id, _, ⟨rfl, hId⟩, version, _, ⟨rfl, hVersion⟩, rfl, rfl⟩
    exact ⟨by rw [List.append_assoc], hId, hVersion⟩
  · rintro ⟨rfl, hId, hVersion⟩
    exact ⟨_, _, ⟨by rw [List.append_assoc], hId⟩, _, _, ⟨rfl, hVersion⟩, rfl, rfl⟩

theorem run_metadataRefOf (tag : UInt8) (input : Bytes) (value : MetadataRef) (rest : Bytes) :
    (metadataRefOf tag).run input = .ok (value, rest) ↔
      tag :: input = putMetadataRef value ++ rest ∧ MetadataRefFits value := by
  constructor
  · intro h
    unfold metadataRefOf at h
    split at h
    case h_10 => cases h
    case h_2 | h_4 =>
      obtain ⟨inner, hInner, rfl⟩ := run_map_eq_ok.mp h
      obtain ⟨rfl, hFits⟩ := (exact_versioned _).run_iff.mp hInner
      exact ⟨rfl, hFits⟩
    all_goals
      obtain ⟨inner, hInner, rfl⟩ := run_map_eq_ok.mp h
      obtain ⟨rfl, hFits⟩ := (exact_id _).run_iff.mp hInner
      exact ⟨rfl, hFits⟩
  · rintro ⟨hInput, hFits⟩
    cases value
    case schema id version | pipelineDefinition id version =>
      obtain ⟨rfl, rfl⟩ := List.cons.inj hInput
      exact run_map_eq_ok.mpr ⟨(id, version), (exact_versioned _).run_iff.mpr ⟨rfl, hFits⟩, rfl⟩
    all_goals
      obtain ⟨rfl, rfl⟩ := List.cons.inj hInput
      exact run_map_eq_ok.mpr ⟨_, (exact_id _).run_iff.mpr ⟨rfl, hFits⟩, rfl⟩

theorem exact_metadataRefs :
    Exact metadataRefs putMetadataRefs (CountedFits MetadataRefFits) :=
  exact_counted _ (exact_tagged _ (fun value => by cases value <;> simp [putMetadataRef])
    run_metadataRefOf)

end PayloadCursor

theorem exact_eventStatus :
    Exact (PayloadCursor.u8 >>= decodeEventStatus) (fun status => [encodeEventStatus status])
      fun _ => True := by
  refine exact_tagged _ (fun _ => List.cons_ne_nil _ _) ?_
  intro tag input status rest
  constructor
  · intro h
    unfold decodeEventStatus at h
    split at h
    case h_6 => cases h
    all_goals
      obtain ⟨rfl, rfl⟩ := run_pure_eq_ok.mp h
      exact ⟨rfl, trivial⟩
  · rintro ⟨hInput, -⟩
    obtain ⟨rfl, rfl⟩ := List.cons.inj hInput
    cases status <;> rfl

theorem exact_eventKind :
    Exact (PayloadCursor.u8 >>= decodeEventKind) encodeEventKind KindFits := by
  refine exact_tagged _ (fun kind => by cases kind <;> simp [encodeEventKind]) ?_
  intro tag input kind rest
  constructor
  · intro h
    unfold decodeEventKind at h
    split at h
    case h_10 => cases h
    case h_9 =>
      obtain ⟨name, hName, rfl⟩ := run_map_eq_ok.mp h
      obtain ⟨rfl, hFits⟩ := (exact_string _ _).run_iff.mp hName
      exact ⟨rfl, hFits⟩
    all_goals
      obtain ⟨rfl, rfl⟩ := run_pure_eq_ok.mp h
      exact ⟨rfl, trivial⟩
  · rintro ⟨hInput, hFits⟩
    cases kind
    case unknown name =>
      obtain ⟨rfl, rfl⟩ := List.cons.inj hInput
      exact run_map_eq_ok.mpr ⟨name, (exact_string _ _).run_iff.mpr ⟨rfl, hFits⟩, rfl⟩
    all_goals
      obtain ⟨rfl, rfl⟩ := List.cons.inj hInput
      rfl

/-! ## Whole events -/

/-- Every text is short enough for its four-byte length and the references for
their count. -/
structure EventFits (event : PipelineEvent) : Prop where
  eventId : StringFits event.eventId.asStr
  sourceId : StringFits event.sourceId.asStr
  tenantId : StringFits event.tenantId.asStr
  environmentId : StringFits event.environmentId.asStr
  pipelineId : StringFits event.pipelineId.asStr
  processDefinitionId : StringFits event.processDefinitionId.asStr
  processInstanceId : StringFits event.processInstanceId.asStr
  processVersion : OptionFits StringFits (event.processVersion.map StringId.asStr)
  activityId : OptionFits StringFits (event.activityId.map StringId.asStr)
  tokenId : OptionFits StringFits (event.tokenId.map StringId.asStr)
  correlationId : OptionFits StringFits (event.correlationId.map StringId.asStr)
  businessKey : OptionFits StringFits (event.businessKey.map StringId.asStr)
  timestamp : StringFits event.timestamp.asStr
  kind : KindFits event.kind
  error : OptionFits ErrorFits event.error
  metadataRefs : CountedFits MetadataRefFits event.metadataRefs
  metadataVersion : OptionFits StringFits (event.metadataVersion.map StringId.asStr)
  causalParent : OptionFits StringFits (event.causalParent.map StringId.asStr)
  payload : OptionFits StringFits event.payload

theorem assemblePipelineEvent_eq (event : PipelineEvent) :
    assemblePipelineEvent event.eventId event.sourceId event.sourceSequence event.tenantId
      event.environmentId event.pipelineId event.processDefinitionId event.processInstanceId
      event.processVersion event.activityId event.tokenId event.correlationId event.businessKey
      event.timestamp event.status event.kind event.error event.metadataRefs event.metadataVersion
      event.causalParent event.payload = event := by
  dsimp only [assemblePipelineEvent]
  rw [
    applyIfSome_eq_set PipelineEvent.withProcessVersion PipelineEvent.processVersion
      (fun base processVersion => { base with processVersion }) (fun _ => rfl) (fun _ _ => rfl),
    applyIfSome_eq_set PipelineEvent.withActivityId PipelineEvent.activityId
      (fun base activityId => { base with activityId }) (fun _ => rfl) (fun _ _ => rfl),
    applyIfSome_eq_set PipelineEvent.withTokenId PipelineEvent.tokenId
      (fun base tokenId => { base with tokenId }) (fun _ => rfl) (fun _ _ => rfl),
    applyIfSome_eq_set PipelineEvent.withCorrelationId PipelineEvent.correlationId
      (fun base correlationId => { base with correlationId }) (fun _ => rfl) (fun _ _ => rfl),
    applyIfSome_eq_set PipelineEvent.withBusinessKey PipelineEvent.businessKey
      (fun base businessKey => { base with businessKey }) (fun _ => rfl) (fun _ _ => rfl),
    applyIfSome_eq_set PipelineEvent.withError PipelineEvent.error
      (fun base error => { base with error }) (fun _ => rfl) (fun _ _ => rfl),
    applyIfSome_eq_set PipelineEvent.withMetadataVersion PipelineEvent.metadataVersion
      (fun base metadataVersion => { base with metadataVersion }) (fun _ => rfl) (fun _ _ => rfl),
    applyIfSome_eq_set PipelineEvent.withCausalParent PipelineEvent.causalParent
      (fun base causalParent => { base with causalParent }) (fun _ => rfl) (fun _ _ => rfl),
    applyIfSome_eq_set PipelineEvent.withPayload PipelineEvent.payload
      (fun base payload => { base with payload }) (fun _ => rfl) (fun _ _ => rfl)]
  all_goals rfl

theorem readPipelineEvent_eq_ok {input rest : Bytes} {event : PipelineEvent} :
    readPipelineEvent.run input = .ok (event, rest) ↔
      input = encodePipelineEvent event ∧ rest = [] ∧ EventFits event := by
  constructor
  · intro h
    obtain ⟨_, _, rfl, -, h⟩ := (exact_expect _ _ _).run_bind.mp h
    obtain ⟨eventId, _, rfl, hEventId, h⟩ := (PayloadCursor.exact_id _).run_bind.mp h
    obtain ⟨sourceId, _, rfl, hSourceId, h⟩ := (PayloadCursor.exact_id _).run_bind.mp h
    obtain ⟨sourceSequence, _, rfl, -, h⟩ := (exact_u64 _).run_bind.mp h
    obtain ⟨tenantId, _, rfl, hTenantId, h⟩ := (PayloadCursor.exact_id _).run_bind.mp h
    obtain ⟨environmentId, _, rfl, hEnvironmentId, h⟩ := (PayloadCursor.exact_id _).run_bind.mp h
    obtain ⟨pipelineId, _, rfl, hPipelineId, h⟩ := (PayloadCursor.exact_id _).run_bind.mp h
    obtain ⟨processDefinitionId, _, rfl, hProcessDefinitionId, h⟩ := (PayloadCursor.exact_id _).run_bind.mp h
    obtain ⟨processInstanceId, _, rfl, hProcessInstanceId, h⟩ := (PayloadCursor.exact_id _).run_bind.mp h
    obtain ⟨processVersion, _, rfl, hProcessVersion, h⟩ := (PayloadCursor.exact_optionId _).run_bind.mp h
    obtain ⟨activityId, _, rfl, hActivityId, h⟩ := (PayloadCursor.exact_optionId _).run_bind.mp h
    obtain ⟨tokenId, _, rfl, hTokenId, h⟩ := (PayloadCursor.exact_optionId _).run_bind.mp h
    obtain ⟨correlationId, _, rfl, hCorrelationId, h⟩ := (PayloadCursor.exact_optionId _).run_bind.mp h
    obtain ⟨businessKey, _, rfl, hBusinessKey, h⟩ := (PayloadCursor.exact_optionId _).run_bind.mp h
    obtain ⟨timestamp, _, rfl, hTimestamp, h⟩ := (PayloadCursor.exact_id _).run_bind.mp h
    obtain ⟨status, _, rfl, -, h⟩ := exact_eventStatus.run_bind.mp h
    obtain ⟨kind, _, rfl, hKind, h⟩ := exact_eventKind.run_bind.mp h
    obtain ⟨error, _, rfl, hError, h⟩ := PayloadCursor.exact_optionError.run_bind.mp h
    obtain ⟨metadataRefs, _, rfl, hMetadataRefs, h⟩ := PayloadCursor.exact_metadataRefs.run_bind.mp h
    obtain ⟨metadataVersion, _, rfl, hMetadataVersion, h⟩ := (PayloadCursor.exact_optionId _).run_bind.mp h
    obtain ⟨causalParent, _, rfl, hCausalParent, h⟩ := (PayloadCursor.exact_optionId _).run_bind.mp h
    obtain ⟨payload, _, rfl, hPayload, h⟩ := PayloadCursor.exact_optionString.run_bind.mp h
    obtain ⟨_, _, hFinish, h⟩ := run_bind_eq_ok.mp h
    obtain ⟨rfl, rfl⟩ := run_finish_eq_ok.mp hFinish
    obtain ⟨hEvent, rfl⟩ := run_pure_eq_ok.mp h
    obtain rfl := hEvent.symm.trans (assemblePipelineEvent_eq ⟨eventId, sourceId, sourceSequence, tenantId,
      environmentId, pipelineId, processDefinitionId, processInstanceId, processVersion, activityId, tokenId,
      correlationId, businessKey, timestamp, status, kind, error, metadataRefs, metadataVersion,
      causalParent, payload⟩)
    refine ⟨?_, rfl, ?_⟩
    · rw [List.append_nil]
      rfl
    · exact ⟨hEventId, hSourceId, hTenantId, hEnvironmentId, hPipelineId, hProcessDefinitionId,
        hProcessInstanceId, hProcessVersion, hActivityId, hTokenId, hCorrelationId, hBusinessKey,
        hTimestamp, hKind, hError, hMetadataRefs, hMetadataVersion, hCausalParent, hPayload⟩
  · rintro ⟨rfl, rfl, hFits⟩
    refine (exact_expect _ _ _).run_bind.mpr ⟨(), _, rfl, trivial, ?_⟩
    refine (PayloadCursor.exact_id _).run_bind.mpr ⟨_, _, rfl, hFits.eventId, ?_⟩
    refine (PayloadCursor.exact_id _).run_bind.mpr ⟨_, _, rfl, hFits.sourceId, ?_⟩
    refine (exact_u64 _).run_bind.mpr ⟨_, _, rfl, trivial, ?_⟩
    refine (PayloadCursor.exact_id _).run_bind.mpr ⟨_, _, rfl, hFits.tenantId, ?_⟩
    refine (PayloadCursor.exact_id _).run_bind.mpr ⟨_, _, rfl, hFits.environmentId, ?_⟩
    refine (PayloadCursor.exact_id _).run_bind.mpr ⟨_, _, rfl, hFits.pipelineId, ?_⟩
    refine (PayloadCursor.exact_id _).run_bind.mpr ⟨_, _, rfl, hFits.processDefinitionId, ?_⟩
    refine (PayloadCursor.exact_id _).run_bind.mpr ⟨_, _, rfl, hFits.processInstanceId, ?_⟩
    refine (PayloadCursor.exact_optionId _).run_bind.mpr ⟨_, _, rfl, hFits.processVersion, ?_⟩
    refine (PayloadCursor.exact_optionId _).run_bind.mpr ⟨_, _, rfl, hFits.activityId, ?_⟩
    refine (PayloadCursor.exact_optionId _).run_bind.mpr ⟨_, _, rfl, hFits.tokenId, ?_⟩
    refine (PayloadCursor.exact_optionId _).run_bind.mpr ⟨_, _, rfl, hFits.correlationId, ?_⟩
    refine (PayloadCursor.exact_optionId _).run_bind.mpr ⟨_, _, rfl, hFits.businessKey, ?_⟩
    refine (PayloadCursor.exact_id _).run_bind.mpr ⟨_, _, rfl, hFits.timestamp, ?_⟩
    refine exact_eventStatus.run_bind.mpr ⟨_, _, rfl, trivial, ?_⟩
    refine exact_eventKind.run_bind.mpr ⟨_, _, rfl, hFits.kind, ?_⟩
    refine PayloadCursor.exact_optionError.run_bind.mpr ⟨_, _, rfl, hFits.error, ?_⟩
    refine PayloadCursor.exact_metadataRefs.run_bind.mpr ⟨_, _, rfl, hFits.metadataRefs, ?_⟩
    refine (PayloadCursor.exact_optionId _).run_bind.mpr ⟨_, _, rfl, hFits.metadataVersion, ?_⟩
    refine (PayloadCursor.exact_optionId _).run_bind.mpr ⟨_, _, rfl, hFits.causalParent, ?_⟩
    refine PayloadCursor.exact_optionString.run_bind.mpr ⟨_, [], (List.append_nil _).symm, hFits.payload, ?_⟩
    refine run_bind_eq_ok.mpr ⟨(), [], run_finish_eq_ok.mpr ⟨rfl, rfl⟩, ?_⟩
    exact run_pure_eq_ok.mpr ⟨assemblePipelineEvent_eq event, rfl⟩

theorem decodePipelineEvent_eq_ok {payload : Bytes} {event : PipelineEvent} :
    decodePipelineEvent payload = .ok event ↔ payload = encodePipelineEvent event ∧ EventFits event := by
  rw [decodePipelineEvent, run'_eq_ok]
  constructor
  · rintro ⟨rest, hRun⟩
    obtain ⟨hPayload, -, hFits⟩ := readPipelineEvent_eq_ok.mp hRun
    exact ⟨hPayload, hFits⟩
  · rintro ⟨hPayload, hFits⟩
    exact ⟨[], readPipelineEvent_eq_ok.mpr ⟨hPayload, rfl, hFits⟩⟩

/-! ## Length of the encoding -/

theorem putString_fits {text : String} (h : (putString text).length < 2 ^ 32) : StringFits text :=
  stringFits_of_lt h

theorem putOptionString_fits {text : Option String} (h : (putOptionString text).length < 2 ^ 32) :
    OptionFits StringFits text :=
  optionFits_of_lt (fun _ => putString_fits) h

theorem errorFits_of_lt {error : ErrorInfo}
    (h : (putString error.message ++ putOptionString error.code).length < 2 ^ 32) : ErrorFits error := by
  obtain ⟨hMessage, hCode⟩ := length_lt_of_append h
  exact ⟨putString_fits hMessage, putOptionString_fits hCode⟩

theorem metadataRefFits_of_lt {value : MetadataRef} (h : (putMetadataRef value).length < 2 ^ 32) :
    MetadataRefFits value := by
  cases value
  case schema id version | pipelineDefinition id version =>
    obtain ⟨hId, hVersion⟩ := length_lt_of_append (Nat.lt_of_succ_lt h)
    exact ⟨putString_fits hId, putOptionString_fits hVersion⟩
  all_goals exact putString_fits (Nat.lt_of_succ_lt h)

theorem kindFits_of_lt {kind : EventKind} (h : (encodeEventKind kind).length < 2 ^ 32) : KindFits kind := by
  cases kind
  case unknown name => exact putString_fits (Nat.lt_of_succ_lt h)
  all_goals trivial

theorem eventFits_of_lt {event : PipelineEvent} (h : (encodePipelineEvent event).length < 2 ^ 32) :
    EventFits event := by
  obtain ⟨-, h⟩ := length_lt_of_append h
  obtain ⟨hEventId, h⟩ := length_lt_of_append h
  obtain ⟨hSourceId, h⟩ := length_lt_of_append h
  obtain ⟨-, h⟩ := length_lt_of_append h
  obtain ⟨hTenantId, h⟩ := length_lt_of_append h
  obtain ⟨hEnvironmentId, h⟩ := length_lt_of_append h
  obtain ⟨hPipelineId, h⟩ := length_lt_of_append h
  obtain ⟨hProcessDefinitionId, h⟩ := length_lt_of_append h
  obtain ⟨hProcessInstanceId, h⟩ := length_lt_of_append h
  obtain ⟨hProcessVersion, h⟩ := length_lt_of_append h
  obtain ⟨hActivityId, h⟩ := length_lt_of_append h
  obtain ⟨hTokenId, h⟩ := length_lt_of_append h
  obtain ⟨hCorrelationId, h⟩ := length_lt_of_append h
  obtain ⟨hBusinessKey, h⟩ := length_lt_of_append h
  obtain ⟨hTimestamp, h⟩ := length_lt_of_append h
  obtain ⟨-, h⟩ := length_lt_of_append h
  obtain ⟨hKind, h⟩ := length_lt_of_append h
  obtain ⟨hError, h⟩ := length_lt_of_append h
  obtain ⟨hMetadataRefs, h⟩ := length_lt_of_append h
  obtain ⟨hMetadataVersion, h⟩ := length_lt_of_append h
  obtain ⟨hCausalParent, hPayload⟩ := length_lt_of_append h
  exact {
    eventId := putString_fits hEventId
    sourceId := putString_fits hSourceId
    tenantId := putString_fits hTenantId
    environmentId := putString_fits hEnvironmentId
    pipelineId := putString_fits hPipelineId
    processDefinitionId := putString_fits hProcessDefinitionId
    processInstanceId := putString_fits hProcessInstanceId
    processVersion := putOptionString_fits hProcessVersion
    activityId := putOptionString_fits hActivityId
    tokenId := putOptionString_fits hTokenId
    correlationId := putOptionString_fits hCorrelationId
    businessKey := putOptionString_fits hBusinessKey
    timestamp := putString_fits hTimestamp
    kind := kindFits_of_lt hKind
    error := optionFits_of_lt (fun _ => errorFits_of_lt) hError
    metadataRefs := countedFits_of_lt (fun value => by cases value <;> exact Nat.succ_pos _)
      (fun _ => metadataRefFits_of_lt) hMetadataRefs
    metadataVersion := putOptionString_fits hMetadataVersion
    causalParent := putOptionString_fits hCausalParent
    payload := putOptionString_fits hPayload }

theorem decodePipelineEvent_encode {event : PipelineEvent}
    (h : (encodePipelineEvent event).length ≤ maxRecordLen) :
    decodePipelineEvent (encodePipelineEvent event) = .ok event := by
  have hLt : (encodePipelineEvent event).length < 2 ^ 32 := by
    rw [maxRecordLen] at h
    omega
  exact decodePipelineEvent_eq_ok.mpr ⟨rfl, eventFits_of_lt hLt⟩

theorem pipelineEvent_codec_bijective :
    (∀ event : PipelineEvent, (encodePipelineEvent event).length ≤ maxRecordLen →
      decodePipelineEvent (encodePipelineEvent event) = .ok event) ∧
    (∀ (payload : Bytes) (event : PipelineEvent),
      decodePipelineEvent payload = .ok event → encodePipelineEvent event = payload) := by
  constructor
  · intro event hLength
    exact decodePipelineEvent_encode hLength
  · intro payload event h
    exact (decodePipelineEvent_eq_ok.mp h).1.symm

/-- An unknown kind with a status of its own, two references and an error code. -/
def unknownKindEvent : PipelineEvent := { PipelineEvent.new ⟨"event-1"⟩ ⟨"durga"⟩ 7 ⟨"tenant"⟩ ⟨"prod"⟩
    ⟨"invoice"⟩ ⟨"definition"⟩ ⟨"instance-1"⟩ ⟨"2026-06-20T10:00:00Z"⟩ (.unknown "CUSTOM") with
  status := .failed
  error := some ⟨"late", some "E1"⟩
  metadataRefs := [.schema ⟨"orders"⟩ (some ⟨"v2"⟩), .owner ⟨"ops"⟩] }

theorem pipelineEvent_codec_bijective_unknownKind :
    ∃ payload, payload.length = 179 ∧ decodePipelineEvent payload = .ok unknownKindEvent ∧
      encodePipelineEvent unknownKindEvent = payload := by
  have hLength : (encodePipelineEvent unknownKindEvent).length = 179 := by decide +kernel
  have hRoundTrip := pipelineEvent_codec_bijective.1 unknownKindEvent (by rw [hLength]; decide)
  exact ⟨_, hLength, hRoundTrip, pipelineEvent_codec_bijective.2 _ _ hRoundTrip⟩

end Vannak.Ingest
