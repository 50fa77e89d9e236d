import Vannak.Data
import Vannak.Ingest.Event

/-!
# Provenance events and their index

The check of a provenance event and `DataProvenanceIndex` of `data.rs`, the local view of
the captured events by data individual, process and activity.
-/

namespace Vannak

set_option autoImplicit false

/-- `char::is_whitespace`: the Unicode property `White_Space`. -/
def isWhitespace (char : Char) : Bool :=
  let code := char.toNat
  (9 ≤ code ∧ code ≤ 13) ∨ code = 0x20 ∨ code = 0x85 ∨ code = 0xA0 ∨ code = 0x1680 ∨
    (0x2000 ≤ code ∧ code ≤ 0x200A) ∨ code = 0x2028 ∨ code = 0x2029 ∨ code = 0x202F ∨ code = 0x205F ∨
    code = 0x3000

/-- `value.trim().is_empty()`. -/
def isBlank (value : String) : Bool := value.toList.all isWhitespace

namespace DataIndividualMetadataEvent

/-- The fields that must not be blank, in the order they are checked. -/
def requiredFields (event : DataIndividualMetadataEvent) : List (String × String) :=
  [("metadata_event_id", event.metadataEventId.asStr),
    ("data_individual_id", event.dataIndividualId.asStr),
    ("tenant_id", event.tenantId.asStr),
    ("environment_id", event.environmentId.asStr),
    ("pipeline_id", event.pipelineId.asStr),
    ("process_instance_id", event.processInstanceId.asStr),
    ("timestamp", event.timestamp.asStr)]

def validate (event : DataIndividualMetadataEvent) : Except IngestError Unit :=
  match event.requiredFields.find? fun required => isBlank required.2 with
  | some (field, _) => .error (.emptyField field)
  | none => .ok ()

end DataIndividualMetadataEvent

inductive DataProvenanceIngestOutcome where
  | accepted
  | duplicate
deriving DecidableEq, Repr

instance activityKeyOrd : Std.TransOrd (ProcessInstanceId × ActivityId) := inferInstance

structure DataProvenanceIndex where
  eventsByIdempotency : BTreeMap IdempotencyKey DataIndividualMetadataEvent
  eventsByDataIndividual : BTreeMap DataIndividualId (List IdempotencyKey)
  eventsByProcess : BTreeMap ProcessInstanceId (List IdempotencyKey)
  eventsByActivity : BTreeMap (ProcessInstanceId × ActivityId) (List IdempotencyKey)
  dataIndividualsByProcess : BTreeMap ProcessInstanceId (BTreeSet DataIndividualId)
  dataIndividualsByActivity : BTreeMap (ProcessInstanceId × ActivityId) (BTreeSet DataIndividualId)

/-- `entry(key).or_default().push(value)`. -/
def pushTo {α β : Type} [Ord α] [Std.TransOrd α] (map : BTreeMap α (List β)) (key : α) (value : β) :
    BTreeMap α (List β) :=
  map.insert key (map.getD key [] ++ [value])

/-- `entry(key).or_default().insert(value)`. -/
def insertTo {α β : Type} [Ord α] [Std.TransOrd α] [Ord β] [Std.TransOrd β] (map : BTreeMap α (BTreeSet β))
    (key : α) (value : β) : BTreeMap α (BTreeSet β) :=
  map.insert key ((map.getD key ∅).insert value)

namespace DataProvenanceIndex

def new : DataProvenanceIndex := ⟨∅, ∅, ∅, ∅, ∅, ∅⟩

def ingest (index : DataProvenanceIndex) (event : DataIndividualMetadataEvent) :
    DataProvenanceIngestOutcome × DataProvenanceIndex :=
  if event.idempotencyKey ∈ index.eventsByIdempotency then (.duplicate, index)
  else
    let key := event.idempotencyKey
    let individual := event.dataIndividualId
    let process := event.processInstanceId
    let activity := event.activityId.map fun activity => (process, activity)
    (.accepted, {
      eventsByDataIndividual := pushTo index.eventsByDataIndividual individual key
      eventsByProcess := pushTo index.eventsByProcess process key
      dataIndividualsByProcess := insertTo index.dataIndividualsByProcess process individual
      eventsByActivity := activity.elim index.eventsByActivity fun activity =>
        pushTo index.eventsByActivity activity key
      dataIndividualsByActivity := activity.elim index.dataIndividualsByActivity fun activity =>
        insertTo index.dataIndividualsByActivity activity individual
      eventsByIdempotency := index.eventsByIdempotency.insert key event })

end DataProvenanceIndex

end Vannak
