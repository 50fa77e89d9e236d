import Vannak.Foundation.Bytes

/-!
# Identifiers

Every identifier of the source is a newtype over `String` with the derived order,
produced by the `string_id!` macro or written out in the same shape. They are one
structure here, tagged by what they identify, so that identifiers of different
kinds cannot be mixed up. Epochs and shard numbers are newtypes over `u64`.

Rust orders strings by their UTF-8 bytes, which is the order of their code points
and so the order of Lean's `String`.
-/

namespace Vannak

open Foundation

set_option autoImplicit false

inductive IdKind where
  | node | segment | ipto | iptoAttribute | metadataField
  | dataIndividual | metadataEvent | payloadRef | pluginName | pluginVersion | idempotencyKey
  | tenant | environment | pipeline | processDefinition | processInstance | activity | token
  | correlation | businessKey | processVersion
  | event | source | timestamp
  | dataset | schema | field | pipelineDefinition | metadataObject | lineageEdge | dataContract
  | owner | classification | metadataVersion
deriving DecidableEq, Repr

structure StringId (kind : IdKind) where
  asStr : String
deriving DecidableEq, Repr

namespace StringId

variable {kind : IdKind}

instance lawfulBEq : LawfulBEq (StringId kind) := inferInstance

instance : Ord (StringId kind) := ⟨fun left right => compare left.asStr right.asStr⟩

theorem compare_def (left right : StringId kind) :
    compare left right = compare left.asStr right.asStr := rfl

instance : Std.TransOrd (StringId kind) where
  eq_swap {left right} := by
    rw [compare_def, compare_def]
    exact Std.OrientedOrd.eq_swap
  isLE_trans {first second third} hFirst hSecond := by
    rw [compare_def] at *
    exact Std.TransCmp.isLE_trans hFirst hSecond

instance : Std.LawfulEqOrd (StringId kind) where
  compare_self {id} := by
    rw [compare_def]
    exact Std.ReflOrd.compare_self
  eq_of_compare {left right} h := by
    rw [compare_def] at h
    cases left
    cases right
    exact congrArg StringId.mk (Std.LawfulEqOrd.eq_of_compare h)

end StringId

abbrev NodeId := StringId .node
abbrev SegmentId := StringId .segment
abbrev IptoInstanceId := StringId .ipto
abbrev IptoAttributeName := StringId .iptoAttribute
abbrev MetadataFieldName := StringId .metadataField
abbrev DataIndividualId := StringId .dataIndividual
abbrev MetadataEventId := StringId .metadataEvent
abbrev PayloadRef := StringId .payloadRef
abbrev PluginName := StringId .pluginName
abbrev PluginVersion := StringId .pluginVersion
abbrev IdempotencyKey := StringId .idempotencyKey
abbrev TenantId := StringId .tenant
abbrev EnvironmentId := StringId .environment
abbrev PipelineId := StringId .pipeline
abbrev ProcessDefinitionId := StringId .processDefinition
abbrev ProcessInstanceId := StringId .processInstance
abbrev ActivityId := StringId .activity
abbrev TokenId := StringId .token
abbrev CorrelationId := StringId .correlation
abbrev BusinessKey := StringId .businessKey
abbrev ProcessVersion := StringId .processVersion
abbrev EventId := StringId .event
abbrev SourceId := StringId .source
abbrev EventTimestamp := StringId .timestamp
abbrev DatasetId := StringId .dataset
abbrev SchemaId := StringId .schema
abbrev FieldId := StringId .field
abbrev PipelineDefinitionId := StringId .pipelineDefinition
abbrev MetadataObjectId := StringId .metadataObject
abbrev LineageEdgeId := StringId .lineageEdge
abbrev DataContractId := StringId .dataContract
abbrev OwnerId := StringId .owner
abbrev ClassificationId := StringId .classification
abbrev MetadataVersion := StringId .metadataVersion

abbrev DataIndividualShardId := UInt64
abbrev PlacementEpoch := UInt64
abbrev LeaseEpoch := UInt64
abbrev CheckpointEpoch := UInt64
abbrev SourceSequence := UInt64

/-- `BTreeMap`: ordered by key, equal when the bindings are equal. -/
abbrev BTreeMap (α β : Type) [Ord α] := Std.ExtTreeMap α β

/-- `BTreeSet`. -/
abbrev BTreeSet (α : Type) [Ord α] := Std.ExtTreeSet α

/-- Pairs are ordered by their first component, then by their second. -/
instance pairOrd {α β : Type} [Ord α] [Ord β] : Ord (α × β) := lexOrd

/-- A Unix path is a byte string; only some paths are text. -/
structure PathBuf where
  bytes : Bytes
deriving DecidableEq, Repr

namespace PathBuf

/-- `PathBuf::from` on a `String`. -/
def ofString (text : String) : PathBuf := ⟨utf8Bytes text⟩

def continuation (byte : UInt8) : Bool := 0x80 ≤ byte && byte ≤ 0xBF

/-- The bytes that may follow a lead byte of a multi-byte sequence. -/
def secondByte (lead byte : UInt8) : Bool :=
  if lead = 0xE0 then 0xA0 ≤ byte && byte ≤ 0xBF
  else if lead = 0xED then 0x80 ≤ byte && byte ≤ 0x9F
  else if lead = 0xF0 then 0x90 ≤ byte && byte ≤ 0xBF
  else if lead = 0xF4 then 0x80 ≤ byte && byte ≤ 0x8F
  else continuation byte

/-- Length of the maximal ill-formed prefix that one replacement character stands
for, or of the well-formed sequence at the front. -/
def chunkLength : Bytes → Nat
  | [] => 0
  | [_] => 1
  | lead :: second :: rest =>
    if lead < 0xC2 || 0xF4 < lead || !secondByte lead second then 1
    else if lead < 0xE0 then 2
    else match rest with
      | [] => 2
      | third :: rest =>
        if !continuation third then 2
        else if lead < 0xF0 then 3
        else match rest with
          | [] => 3
          | fourth :: _ => if continuation fourth then 4 else 3

/-- `String::from_utf8_lossy`, one chunk at a time. -/
def lossyChunks : Nat → Bytes → String
  | 0, _ => ""
  | _ + 1, [] => ""
  | fuel + 1, input@(_ :: _) =>
    let chunk := input.take (chunkLength input)
    (utf8Decode chunk).getD "\uFFFD" ++ lossyChunks fuel (input.drop (chunkLength input))

/-- `Path::to_string_lossy`: the text itself when the path is valid UTF-8. -/
def toStringLossy (path : PathBuf) : String :=
  (utf8Decode path.bytes).getD (lossyChunks path.bytes.length path.bytes)

def IsUtf8 (path : PathBuf) : Prop := ∃ text, path = ofString text

theorem ofString_toStringLossy {path : PathBuf} (h : path.IsUtf8) :
    ofString path.toStringLossy = path := by
  obtain ⟨text, rfl⟩ := h
  simp [toStringLossy, ofString]

end PathBuf

end Vannak
