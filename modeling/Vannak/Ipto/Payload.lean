import Vannak.Foundation.Codec
import Vannak.Data
import Vannak.Storage.Segment

/-!
# The outbox payload codec

`IptoWritePayload::encode` and `decode` of `ipto.rs`, with the optional `VMD1`
extension that carries the provenance event. The format is not canonical: any
non-zero byte is a `true`, and a map may be spelled with its keys in any order and
more than once. It is faithful: a payload is read back from its encoding, also when
it was itself decoded from another spelling.
-/

namespace Vannak.Ipto

open Foundation Decoder Storage

set_option autoImplicit false

structure IptoWritePayload where
  target : IptoInstanceId
  shardId : DataIndividualShardId
  idempotencyKey : IdempotencyKey
  mappingVersion : String
  attributes : BTreeMap IptoAttributeName MetadataValue
  /-- Original provenance fact, preserved independently of the Ipto mapping. -/
  provenance : Option DataIndividualMetadataEvent
deriving DecidableEq

inductive IptoPayloadDecodeError where
  | unexpectedEof
  | invalidUtf8
  | invalidValueTag (tag : UInt8)
  | trailingBytes (count : Nat)
deriving DecidableEq, Repr

/-! ## Encoder -/

def writeString (value : String) : Bytes := stringBytes value

def writeI64 (value : Int64) : Bytes := u64Bytes value.toUInt64

/-- `u8::from(bool)`. -/
def boolByte (value : Bool) : UInt8 := if value then 1 else 0

def writeMetadataValue : MetadataValue → Bytes
  | .string value => 0 :: writeString value
  | .integer value => 1 :: writeI64 value
  | .boolean value => 2 :: [boolByte value]
  | .timestamp value => 3 :: writeString value.asStr
  | .stringList values => 4 :: countedBytes writeString values

/-- One binding of a map: its key, then its value. -/
def writeEntry {kind : IdKind} (entry : StringId kind × MetadataValue) : Bytes :=
  writeString entry.1.asStr ++ writeMetadataValue entry.2

def encodeOptionalString (value : Option String) : Bytes := optionBytes writeString value

def encodeOperation : MetadataOperation → Bytes
  | .created => [0]
  | .received => [1]
  | .transformed pluginName pluginVersion =>
    2 :: (encodeOptionalString (pluginName.map StringId.asStr) ++
      encodeOptionalString (pluginVersion.map StringId.asStr))
  | .masked fields => 3 :: writeMetadataValue (.stringList fields)
  | .validated passed => 4 :: [boolByte passed]
  | .enriched source => 5 :: encodeOptionalString source
  | .routed => [6]
  | .persisted => [7]

def encodeProvenance (event : DataIndividualMetadataEvent) : Bytes :=
  writeString event.metadataEventId.asStr ++
  (writeString event.dataIndividualId.asStr ++
  (writeString event.tenantId.asStr ++
  (writeString event.environmentId.asStr ++
  (writeString event.pipelineId.asStr ++
  (writeString event.processInstanceId.asStr ++
  (writeString event.timestamp.asStr ++
  (u64Bytes event.dataIndividualShardId ++
  (encodeOptionalString (event.activityId.map StringId.asStr) ++
  (encodeOptionalString (event.sourcePayloadRef.map StringId.asStr) ++
  (encodeOperation event.operation ++
  (entriesBytes writeEntry event.passiveMetadata.fields ++
  entriesBytes writeEntry event.activeMetadata.fields)))))))))))

def provenanceMagic : Bytes := utf8Bytes "VMD1"

def encodeExtension : Option DataIndividualMetadataEvent → Bytes
  | none => []
  | some event => provenanceMagic ++ encodeProvenance event

def IptoWritePayload.encode (payload : IptoWritePayload) : Bytes :=
  writeString payload.target.asStr ++
  (u64Bytes payload.shardId ++
  (writeString payload.idempotencyKey.asStr ++
  (writeString payload.mappingVersion ++
  (entriesBytes writeEntry payload.attributes ++
  encodeExtension payload.provenance))))

/-! ## Decoder -/

abbrev DecodeCursor := Decoder IptoPayloadDecodeError

namespace DecodeCursor

def readU8 : DecodeCursor UInt8 := Decoder.u8 .unexpectedEof

def readU64 : DecodeCursor UInt64 := Decoder.u64 .unexpectedEof

def readI64 : DecodeCursor Int64 := UInt64.toInt64 <$> Decoder.u64 .unexpectedEof

def readString : DecodeCursor String := Decoder.string .unexpectedEof .invalidUtf8

def readBool : DecodeCursor Bool := (fun byte => decide (byte ≠ 0)) <$> readU8

/-- An identifier read by `read_string` and wrapped by its `from`. -/
def readId (kind : IdKind) : DecodeCursor (StringId kind) := StringId.mk <$> readString

def metadataValueOf (tag : UInt8) : DecodeCursor MetadataValue :=
  match tag with
  | 0 => MetadataValue.string <$> readString
  | 1 => MetadataValue.integer <$> readI64
  | 2 => MetadataValue.boolean <$> readBool
  | 3 => MetadataValue.timestamp <$> readId .timestamp
  | 4 => MetadataValue.stringList <$> Decoder.counted .unexpectedEof readString
  | other => throw (.invalidValueTag other)

def readMetadataValue : DecodeCursor MetadataValue := readU8 >>= metadataValueOf

def readEntry (kind : IdKind) : DecodeCursor (StringId kind × MetadataValue) := do
  let key ← readId kind
  let value ← readMetadataValue
  return (key, value)

def readEntries (kind : IdKind) : DecodeCursor (BTreeMap (StringId kind) MetadataValue) :=
  Decoder.entries .unexpectedEof (readEntry kind)

def finish : DecodeCursor Unit := Decoder.finish .trailingBytes

end DecodeCursor

open DecodeCursor

def decodeOptionalString : DecodeCursor (Option String) :=
  Decoder.option .unexpectedEof .invalidValueTag readString

def decodeOptionalId (kind : IdKind) : DecodeCursor (Option (StringId kind)) :=
  Option.map StringId.mk <$> decodeOptionalString

def operationOf (tag : UInt8) : DecodeCursor MetadataOperation :=
  match tag with
  | 0 => pure .created
  | 1 => pure .received
  | 2 => do
    let pluginName ← decodeOptionalId .pluginName
    let pluginVersion ← decodeOptionalId .pluginVersion
    return .transformed pluginName pluginVersion
  | 3 => do
    match ← readMetadataValue with
    | .stringList fields => pure (.masked fields)
    | _ => throw (.invalidValueTag 255)
  | 4 => MetadataOperation.validated <$> readBool
  | 5 => MetadataOperation.enriched <$> decodeOptionalString
  | 6 => pure .routed
  | 7 => pure .persisted
  | tag => throw (.invalidValueTag tag)

def decodeOperation : DecodeCursor MetadataOperation := readU8 >>= operationOf

/-- The end of `decode_provenance`: the event is rebuilt through `new`, which derives
its idempotency key again, and its builders. -/
def assembleProvenance (eventId : MetadataEventId) (dataId : DataIndividualId) (tenant : TenantId)
    (environment : EnvironmentId) (pipeline : PipelineId) (process : ProcessInstanceId)
    (timestamp : EventTimestamp) (shard : DataIndividualShardId) (activity : Option ActivityId)
    (payloadRef : Option PayloadRef) (operation : MetadataOperation) (passive : PassiveMetadata)
    (active : ActiveMetadata) : DataIndividualMetadataEvent :=
  let event := ((DataIndividualMetadataEvent.new eventId dataId shard tenant environment pipeline process
    timestamp operation).withPassiveMetadata passive).withActiveMetadata active
  let event := applyIfSome activity DataIndividualMetadataEvent.withActivityId event
  applyIfSome payloadRef DataIndividualMetadataEvent.withSourcePayloadRef event

def decodeProvenance : DecodeCursor DataIndividualMetadataEvent := do
  let eventId ← readId .metadataEvent
  let dataId ← readId .dataIndividual
  let tenant ← readId .tenant
  let environment ← readId .environment
  let pipeline ← readId .pipeline
  let process ← readId .processInstance
  let timestamp ← readId .timestamp
  let shard ← readU64
  let activity ← decodeOptionalId .activity
  let payloadRef ← decodeOptionalId .payloadRef
  let operation ← decodeOperation
  let passive ← readEntries .metadataField
  let active ← readEntries .metadataField
  return assembleProvenance eventId dataId tenant environment pipeline process timestamp shard activity
    payloadRef operation ⟨passive⟩ ⟨active⟩

/-- The extension is there exactly when bytes are left. -/
def decodeExtension : DecodeCursor (Option DataIndividualMetadataEvent) := do
  if (← get) = [] then pure none
  else do
    Decoder.expect .unexpectedEof (.invalidValueTag 255) provenanceMagic
    some <$> decodeProvenance

def readPayload : DecodeCursor IptoWritePayload := do
  let target ← readId .ipto
  let shardId ← readU64
  let idempotencyKey ← readId .idempotencyKey
  let mappingVersion ← readString
  let attributes ← readEntries .iptoAttribute
  let provenance ← decodeExtension
  DecodeCursor.finish
  return { target, shardId, idempotencyKey, mappingVersion, attributes, provenance }

def IptoWritePayload.decode (bytes : Bytes) : Except IptoPayloadDecodeError IptoWritePayload :=
  readPayload.run' bytes

/-! ## Parts of the format -/

def ValueFits : MetadataValue → Prop
  | .string value => StringFits value
  | .integer _ => True
  | .boolean _ => True
  | .timestamp value => StringFits value.asStr
  | .stringList values => CountedFits StringFits values

def EntryFits {kind : IdKind} (entry : StringId kind × MetadataValue) : Prop :=
  StringFits entry.1.asStr ∧ ValueFits entry.2

def OperationFits : MetadataOperation → Prop
  | .transformed pluginName pluginVersion =>
    OptionFits StringFits (pluginName.map StringId.asStr) ∧
      OptionFits StringFits (pluginVersion.map StringId.asStr)
  | .masked fields => CountedFits StringFits fields
  | .enriched source => OptionFits StringFits source
  | _ => True

theorem exact_readString : Exact readString writeString StringFits := exact_string _ _

theorem exact_readId (kind : IdKind) :
    Exact (readId kind) (fun id => writeString id.asStr) fun id => StringFits id.asStr :=
  exact_readString.map (fun _ => rfl) (fun _ => rfl)

theorem exact_readI64 : Exact readI64 writeI64 fun _ => True :=
  (exact_u64 _).map UInt64.toUInt64_toInt64 Int64.toInt64_toUInt64

theorem exact_decodeOptionalString :
    Exact decodeOptionalString encodeOptionalString (OptionFits StringFits) :=
  exact_option _ _ exact_readString

theorem exact_decodeOptionalId (kind : IdKind) :
    Exact (decodeOptionalId kind) (fun id => encodeOptionalString (id.map StringId.asStr))
      fun id => OptionFits StringFits (id.map StringId.asStr) :=
  exact_decodeOptionalString.map (fun id => by cases id <;> rfl) (fun id => by cases id <;> rfl)

/-- Only `1` is written for `true`, but every other non-zero byte is read as it. -/
theorem faithful_readBool : Faithful readBool (fun value => [boolByte value]) fun _ => True where
  reads {value} _ rest := by cases value <;> rfl
  yields _ := trivial

theorem faithful_readMetadataValue : Faithful readMetadataValue writeMetadataValue ValueFits := by
  have hList := exact_counted .unexpectedEof exact_readString
  refine faithful_tagged _ ?_ ?_
  · intro value hFits
    cases value with
    | string value => exact ⟨0, _, rfl, (exact_readString.reads hFits).map _⟩
    | integer value => exact ⟨1, _, rfl, (exact_readI64.reads trivial).map _⟩
    | boolean value => exact ⟨2, _, rfl, (faithful_readBool.reads trivial).map _⟩
    | timestamp value => exact ⟨3, _, rfl, ((exact_readId _).reads hFits).map _⟩
    | stringList values => exact ⟨4, _, rfl, (hList.reads hFits).map _⟩
  · intro tag input value rest hRun
    unfold metadataValueOf at hRun
    split at hRun
    case h_6 => cases hRun
    all_goals obtain ⟨inner, hInner, rfl⟩ := run_map_eq_ok.mp hRun
    · exact exact_readString.yields hInner
    · trivial
    · trivial
    · exact (exact_readId _).yields hInner
    · exact hList.yields hInner

theorem faithful_readEntry (kind : IdKind) : Faithful (readEntry kind) writeEntry EntryFits where
  reads hFits :=
    ((exact_readId kind).reads hFits.1).bind ((faithful_readMetadataValue.reads hFits.2).bind_pure _)
  yields hRun := by
    obtain ⟨key, _, hKey, hRun⟩ := run_bind_eq_ok.mp hRun
    obtain ⟨value, _, hValue, hRun⟩ := run_bind_eq_ok.mp hRun
    obtain ⟨rfl, -⟩ := run_pure_eq_ok.mp hRun
    exact ⟨(exact_readId kind).yields hKey, faithful_readMetadataValue.yields hValue⟩

theorem faithful_readEntries (kind : IdKind) :
    Faithful (readEntries kind) (entriesBytes writeEntry) fun map => CountedFits EntryFits map.toList :=
  faithful_entries _ (faithful_readEntry kind)

theorem faithful_decodeOperation : Faithful decodeOperation encodeOperation OperationFits := by
  refine faithful_tagged _ ?_ ?_
  · intro operation hFits
    cases operation with
    | created => exact ⟨0, [], rfl, .pure _⟩
    | received => exact ⟨1, [], rfl, .pure _⟩
    | transformed pluginName pluginVersion =>
      exact ⟨2, _, rfl, ((exact_decodeOptionalId _).reads hFits.1).bind
        (((exact_decodeOptionalId _).reads hFits.2).bind_pure _)⟩
    | masked fields =>
      have hValue : ValueFits (.stringList fields) := hFits
      exact ⟨3, _, rfl, fun rest => run_bind_eq_ok.mpr
        ⟨_, rest, faithful_readMetadataValue.reads hValue rest, rfl⟩⟩
    | validated passed => exact ⟨4, _, rfl, (faithful_readBool.reads trivial).map _⟩
    | enriched source => exact ⟨5, _, rfl, (exact_decodeOptionalString.reads hFits).map _⟩
    | routed => exact ⟨6, [], rfl, .pure _⟩
    | persisted => exact ⟨7, [], rfl, .pure _⟩
  · intro tag input operation rest hRun
    unfold operationOf at hRun
    split at hRun
    case h_3 =>
      obtain ⟨pluginName, _, hName, hRun⟩ := run_bind_eq_ok.mp hRun
      obtain ⟨pluginVersion, _, hVersion, hRun⟩ := run_bind_eq_ok.mp hRun
      obtain ⟨rfl, -⟩ := run_pure_eq_ok.mp hRun
      exact ⟨(exact_decodeOptionalId _).yields hName, (exact_decodeOptionalId _).yields hVersion⟩
    case h_4 =>
      obtain ⟨value, _, hValue, hRun⟩ := run_bind_eq_ok.mp hRun
      split at hRun
      · obtain ⟨rfl, -⟩ := run_pure_eq_ok.mp hRun
        exact faithful_readMetadataValue.yields hValue
      · cases hRun
    case h_5 =>
      obtain ⟨passed, -, rfl⟩ := run_map_eq_ok.mp hRun
      trivial
    case h_6 =>
      obtain ⟨source, hSource, rfl⟩ := run_map_eq_ok.mp hRun
      exact exact_decodeOptionalString.yields hSource
    case h_9 => cases hRun
    all_goals
      obtain ⟨rfl, -⟩ := run_pure_eq_ok.mp hRun
      trivial

/-! ## Provenance events -/

structure ProvenanceFits (event : DataIndividualMetadataEvent) : Prop where
  metadataEventId : StringFits event.metadataEventId.asStr
  dataIndividualId : StringFits event.dataIndividualId.asStr
  tenantId : StringFits event.tenantId.asStr
  environmentId : StringFits event.environmentId.asStr
  pipelineId : StringFits event.pipelineId.asStr
  processInstanceId : StringFits event.processInstanceId.asStr
  timestamp : StringFits event.timestamp.asStr
  activityId : OptionFits StringFits (event.activityId.map StringId.asStr)
  sourcePayloadRef : OptionFits StringFits (event.sourcePayloadRef.map StringId.asStr)
  operation : OperationFits event.operation
  passiveMetadata : CountedFits EntryFits event.passiveMetadata.fields.toList
  activeMetadata : CountedFits EntryFits event.activeMetadata.fields.toList

/-- Rebuilding gives the event back, its derived key included. -/
theorem assembleProvenance_eq (event : DataIndividualMetadataEvent) :
    assembleProvenance event.metadataEventId event.dataIndividualId event.tenantId event.environmentId
      event.pipelineId event.processInstanceId event.timestamp event.dataIndividualShardId
      event.activityId event.sourcePayloadRef event.operation event.passiveMetadata event.activeMetadata =
      event := by
  obtain ⟨_, _, _, _, _, _, _, _, _, _, _, _, _, _, rfl⟩ := event
  dsimp only [assembleProvenance]
  rw [applyIfSome_eq_set DataIndividualMetadataEvent.withActivityId DataIndividualMetadataEvent.activityId
      (fun base activityId => { base with activityId }) (fun _ => rfl) (fun _ _ => rfl),
    applyIfSome_eq_set DataIndividualMetadataEvent.withSourcePayloadRef
      DataIndividualMetadataEvent.sourcePayloadRef
      (fun base sourcePayloadRef => { base with sourcePayloadRef }) (fun _ => rfl) (fun _ _ => rfl)]
  all_goals rfl

theorem faithful_decodeProvenance : Faithful decodeProvenance encodeProvenance ProvenanceFits where
  reads {event} hFits := by
    have hEvent := assembleProvenance_eq event
    refine ((exact_readId _).reads hFits.metadataEventId).bind ?_
    refine ((exact_readId _).reads hFits.dataIndividualId).bind ?_
    refine ((exact_readId _).reads hFits.tenantId).bind ?_
    refine ((exact_readId _).reads hFits.environmentId).bind ?_
    refine ((exact_readId _).reads hFits.pipelineId).bind ?_
    refine ((exact_readId _).reads hFits.processInstanceId).bind ?_
    refine ((exact_readId _).reads hFits.timestamp).bind ?_
    refine ((exact_u64 _).reads trivial).bind ?_
    refine ((exact_decodeOptionalId _).reads hFits.activityId).bind ?_
    refine ((exact_decodeOptionalId _).reads hFits.sourcePayloadRef).bind ?_
    refine (faithful_decodeOperation.reads hFits.operation).bind ?_
    refine ((faithful_readEntries _).reads hFits.passiveMetadata).bind ?_
    intro rest
    refine run_bind_eq_ok.mpr ⟨_, rest, (faithful_readEntries _).reads hFits.activeMetadata rest, ?_⟩
    exact run_pure_eq_ok.mpr ⟨hEvent, rfl⟩
  yields {input event rest} h := by
    obtain ⟨eventId, _, hEventId, h⟩ := run_bind_eq_ok.mp h
    obtain ⟨dataId, _, hDataId, h⟩ := run_bind_eq_ok.mp h
    obtain ⟨tenant, _, hTenant, h⟩ := run_bind_eq_ok.mp h
    obtain ⟨environment, _, hEnvironment, h⟩ := run_bind_eq_ok.mp h
    obtain ⟨pipeline, _, hPipeline, h⟩ := run_bind_eq_ok.mp h
    obtain ⟨process, _, hProcess, h⟩ := run_bind_eq_ok.mp h
    obtain ⟨timestamp, _, hTimestamp, h⟩ := run_bind_eq_ok.mp h
    obtain ⟨shard, _, -, h⟩ := run_bind_eq_ok.mp h
    obtain ⟨activity, _, hActivity, h⟩ := run_bind_eq_ok.mp h
    obtain ⟨payloadRef, _, hPayloadRef, h⟩ := run_bind_eq_ok.mp h
    obtain ⟨operation, _, hOperation, h⟩ := run_bind_eq_ok.mp h
    obtain ⟨passive, _, hPassive, h⟩ := run_bind_eq_ok.mp h
    obtain ⟨active, _, hActive, h⟩ := run_bind_eq_ok.mp h
    obtain ⟨hEvent, -⟩ := run_pure_eq_ok.mp h
    obtain rfl := hEvent.symm.trans (assembleProvenance_eq ⟨eventId, dataId, shard, tenant, environment,
      pipeline, process, activity, timestamp, operation, ⟨passive⟩, ⟨active⟩, payloadRef, _, rfl⟩)
    exact ⟨(exact_readId _).yields hEventId, (exact_readId _).yields hDataId,
      (exact_readId _).yields hTenant, (exact_readId _).yields hEnvironment,
      (exact_readId _).yields hPipeline, (exact_readId _).yields hProcess,
      (exact_readId _).yields hTimestamp, (exact_decodeOptionalId _).yields hActivity,
      (exact_decodeOptionalId _).yields hPayloadRef, faithful_decodeOperation.yields hOperation,
      (faithful_readEntries _).yields hPassive, (faithful_readEntries _).yields hActive⟩

/-! ## Whole payloads -/

structure PayloadFits (payload : IptoWritePayload) : Prop where
  target : StringFits payload.target.asStr
  idempotencyKey : StringFits payload.idempotencyKey.asStr
  mappingVersion : StringFits payload.mappingVersion
  attributes : CountedFits EntryFits payload.attributes.toList
  provenance : OptionFits ProvenanceFits payload.provenance

theorem run_decodeExtension_of_ne_nil {input : Bytes} (h : input ≠ []) :
    decodeExtension.run input =
      (Decoder.expect .unexpectedEof (.invalidValueTag 255) provenanceMagic >>= fun _ =>
        some <$> decodeProvenance).run input := by
  cases input with
  | nil => exact absurd rfl h
  | cons byte bytes => rfl

theorem run_decodeExtension_encode {provenance : Option DataIndividualMetadataEvent}
    (h : OptionFits ProvenanceFits provenance) :
    decodeExtension.run (encodeExtension provenance) = .ok (provenance, []) := by
  cases provenance with
  | none => rfl
  | some event =>
    have hMagic : provenanceMagic ≠ [] := by decide
    have hRead := faithful_decodeProvenance.reads (h event rfl) []
    rw [List.append_nil] at hRead
    rw [encodeExtension, run_decodeExtension_of_ne_nil fun hNil =>
      hMagic (List.append_eq_nil_iff.mp hNil).1]
    exact (exact_expect _ _ _).run_bind.mpr
      ⟨(), _, rfl, trivial, run_map_eq_ok.mpr ⟨event, hRead, rfl⟩⟩

theorem decodeExtension_fits {input rest : Bytes} {provenance : Option DataIndividualMetadataEvent}
    (h : decodeExtension.run input = .ok (provenance, rest)) : OptionFits ProvenanceFits provenance := by
  cases input with
  | nil =>
    cases h
    exact fun _ hNone => by cases hNone
  | cons byte bytes =>
    rw [run_decodeExtension_of_ne_nil (List.cons_ne_nil byte bytes)] at h
    obtain ⟨_, _, _, _, h⟩ := (exact_expect _ _ _).run_bind.mp h
    obtain ⟨event, hEvent, rfl⟩ := run_map_eq_ok.mp h
    exact fun _ hSome => Option.some.inj hSome ▸ faithful_decodeProvenance.yields hEvent

theorem decode_encode_of_fits {payload : IptoWritePayload} (h : PayloadFits payload) :
    IptoWritePayload.decode payload.encode = .ok payload := by
  refine run'_eq_ok.mpr ⟨[], ?_⟩
  refine (exact_readId _).run_bind.mpr ⟨_, _, rfl, h.target, ?_⟩
  refine (exact_u64 _).run_bind.mpr ⟨_, _, rfl, trivial, ?_⟩
  refine (exact_readId _).run_bind.mpr ⟨_, _, rfl, h.idempotencyKey, ?_⟩
  refine exact_readString.run_bind.mpr ⟨_, _, rfl, h.mappingVersion, ?_⟩
  refine run_bind_eq_ok.mpr ⟨_, _, (faithful_readEntries _).reads h.attributes _, ?_⟩
  refine run_bind_eq_ok.mpr ⟨_, [], run_decodeExtension_encode h.provenance, ?_⟩
  refine run_bind_eq_ok.mpr ⟨(), [], run_finish_eq_ok.mpr ⟨rfl, rfl⟩, ?_⟩
  exact run_pure_eq_ok.mpr ⟨rfl, rfl⟩

theorem payloadFits_of_decode {bytes : Bytes} {payload : IptoWritePayload}
    (h : IptoWritePayload.decode bytes = .ok payload) : PayloadFits payload := by
  obtain ⟨rest, h⟩ := run'_eq_ok.mp h
  obtain ⟨target, _, hTarget, h⟩ := run_bind_eq_ok.mp h
  obtain ⟨shardId, _, -, h⟩ := run_bind_eq_ok.mp h
  obtain ⟨idempotencyKey, _, hIdempotencyKey, h⟩ := run_bind_eq_ok.mp h
  obtain ⟨mappingVersion, _, hMappingVersion, h⟩ := run_bind_eq_ok.mp h
  obtain ⟨attributes, _, hAttributes, h⟩ := run_bind_eq_ok.mp h
  obtain ⟨provenance, _, hProvenance, h⟩ := run_bind_eq_ok.mp h
  obtain ⟨_, _, -, h⟩ := run_bind_eq_ok.mp h
  obtain ⟨rfl, -⟩ := run_pure_eq_ok.mp h
  exact ⟨(exact_readId _).yields hTarget, (exact_readId _).yields hIdempotencyKey,
    exact_readString.yields hMappingVersion, (faithful_readEntries _).yields hAttributes,
    decodeExtension_fits hProvenance⟩

/-! ## Length of the encoding -/

theorem writeString_fits {text : String} (h : (writeString text).length < 2 ^ 32) : StringFits text :=
  stringFits_of_lt h

theorem writeStrings_fits {texts : List String} (h : (countedBytes writeString texts).length < 2 ^ 32) :
    CountedFits StringFits texts :=
  countedFits_of_lt (fun text => by rw [writeString, length_stringBytes]; omega)
    (fun _ => writeString_fits) h

theorem encodeOptionalString_fits {text : Option String}
    (h : (encodeOptionalString text).length < 2 ^ 32) : OptionFits StringFits text :=
  optionFits_of_lt (fun _ => writeString_fits) h

theorem valueFits_of_lt {value : MetadataValue} (h : (writeMetadataValue value).length < 2 ^ 32) :
    ValueFits value := by
  cases value with
  | string value => exact writeString_fits (Nat.lt_of_succ_lt h)
  | integer value => trivial
  | boolean value => trivial
  | timestamp value => exact writeString_fits (Nat.lt_of_succ_lt h)
  | stringList values => exact writeStrings_fits (Nat.lt_of_succ_lt h)

theorem entriesFits_of_lt {kind : IdKind} {map : BTreeMap (StringId kind) MetadataValue}
    (h : (entriesBytes writeEntry map).length < 2 ^ 32) : CountedFits EntryFits map.toList := by
  refine countedFits_of_lt (fun entry => ?_) (fun entry hEntry => ?_) h
  · rw [writeEntry, List.length_append, writeString, length_stringBytes]
    omega
  · obtain ⟨hKey, hValue⟩ := length_lt_of_append hEntry
    exact ⟨writeString_fits hKey, valueFits_of_lt hValue⟩

theorem operationFits_of_lt {operation : MetadataOperation}
    (h : (encodeOperation operation).length < 2 ^ 32) : OperationFits operation := by
  cases operation
  case transformed pluginName pluginVersion =>
    obtain ⟨hName, hVersion⟩ := length_lt_of_append (Nat.lt_of_succ_lt h)
    exact ⟨encodeOptionalString_fits hName, encodeOptionalString_fits hVersion⟩
  case masked fields => exact valueFits_of_lt (Nat.lt_of_succ_lt h)
  case enriched source => exact encodeOptionalString_fits (Nat.lt_of_succ_lt h)
  all_goals trivial

theorem provenanceFits_of_lt {event : DataIndividualMetadataEvent}
    (h : (encodeProvenance event).length < 2 ^ 32) : ProvenanceFits event := by
  obtain ⟨hMetadataEventId, h⟩ := length_lt_of_append h
  obtain ⟨hDataIndividualId, h⟩ := length_lt_of_append h
  obtain ⟨hTenantId, h⟩ := length_lt_of_append h
  obtain ⟨hEnvironmentId, h⟩ := length_lt_of_append h
  obtain ⟨hPipelineId, h⟩ := length_lt_of_append h
  obtain ⟨hProcessInstanceId, h⟩ := length_lt_of_append h
  obtain ⟨hTimestamp, h⟩ := length_lt_of_append h
  obtain ⟨-, h⟩ := length_lt_of_append h
  obtain ⟨hActivityId, h⟩ := length_lt_of_append h
  obtain ⟨hSourcePayloadRef, h⟩ := length_lt_of_append h
  obtain ⟨hOperation, h⟩ := length_lt_of_append h
  obtain ⟨hPassive, hActive⟩ := length_lt_of_append h
  exact ⟨writeString_fits hMetadataEventId, writeString_fits hDataIndividualId,
    writeString_fits hTenantId, writeString_fits hEnvironmentId, writeString_fits hPipelineId,
    writeString_fits hProcessInstanceId, writeString_fits hTimestamp,
    encodeOptionalString_fits hActivityId, encodeOptionalString_fits hSourcePayloadRef,
    operationFits_of_lt hOperation, entriesFits_of_lt hPassive, entriesFits_of_lt hActive⟩

theorem payloadFits_of_lt {payload : IptoWritePayload} (h : payload.encode.length < 2 ^ 32) :
    PayloadFits payload := by
  obtain ⟨hTarget, h⟩ := length_lt_of_append h
  obtain ⟨-, h⟩ := length_lt_of_append h
  obtain ⟨hIdempotencyKey, h⟩ := length_lt_of_append h
  obtain ⟨hMappingVersion, h⟩ := length_lt_of_append h
  obtain ⟨hAttributes, hExtension⟩ := length_lt_of_append h
  refine ⟨writeString_fits hTarget, writeString_fits hIdempotencyKey, writeString_fits hMappingVersion,
    entriesFits_of_lt hAttributes, fun event hEvent => ?_⟩
  rw [hEvent] at hExtension
  exact provenanceFits_of_lt (length_lt_of_append hExtension).2

theorem decode_encode {payload : IptoWritePayload} (h : payload.encode.length ≤ maxRecordLen) :
    IptoWritePayload.decode payload.encode = .ok payload := by
  refine decode_encode_of_fits (payloadFits_of_lt ?_)
  rw [maxRecordLen] at h
  omega

theorem payload_codec_faithful :
    (∀ payload : IptoWritePayload, payload.encode.length ≤ maxRecordLen →
      IptoWritePayload.decode payload.encode = .ok payload) ∧
    (∀ (bytes : Bytes) (payload : IptoWritePayload), IptoWritePayload.decode bytes = .ok payload →
      IptoWritePayload.decode payload.encode = .ok payload) :=
  ⟨fun _ => decode_encode, fun _ _ h => decode_encode_of_fits (payloadFits_of_decode h)⟩

/-- A legacy payload that ends in the byte of a `true`. -/
def legacyPayload : IptoWritePayload where
  target := ⟨"ipto-a"⟩
  shardId := 7
  idempotencyKey := ⟨"data:event"⟩
  mappingVersion := "v1"
  attributes := (∅ : BTreeMap IptoAttributeName MetadataValue).insert ⟨"checked"⟩ (.boolean true)
  provenance := none

/-- The same payload with the provenance event it was derived from. -/
def validatedPayload : IptoWritePayload := { legacyPayload with
  provenance := some ((DataIndividualMetadataEvent.new ⟨"event"⟩ ⟨"data"⟩ 7 ⟨"tenant"⟩ ⟨"prod"⟩ ⟨"invoice"⟩
    ⟨"instance-1"⟩ ⟨"2026-06-20T10:00:00Z"⟩ (.validated true)).withActivityId ⟨"check"⟩) }

/-- The second half is used on a spelling of `true` that the encoder never writes. -/
theorem payload_codec_faithful_validated :
    IptoWritePayload.decode validatedPayload.encode = .ok validatedPayload ∧
      IptoWritePayload.decode (legacyPayload.encode.dropLast ++ [7]) = .ok legacyPayload ∧
      IptoWritePayload.decode legacyPayload.encode = .ok legacyPayload := by
  have hSpelling : IptoWritePayload.decode (legacyPayload.encode.dropLast ++ [7]) = .ok legacyPayload := by
    decide +kernel
  exact ⟨payload_codec_faithful.1 _ (by decide +kernel), hSpelling, payload_codec_faithful.2 _ _ hSpelling⟩

end Vannak.Ipto
