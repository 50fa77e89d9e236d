import Vannak.Daemon.BackgroundWriter
import Vannak.Daemon.MetadataRequests
import Vannak.Ipto.OutboxHistory

/-!
# The health document

`build_health_json` of `daemon.rs` puts a JSON object together with `format!`: every text it makes
is the printed form of an object, whatever the counters are and whatever the last error says.
-/

namespace Vannak.Service

open Foundation Storage Ipto Cluster Process Vannak.Runtime

set_option autoImplicit false

structure VannakServiceSnapshot where
  hotIndex : HotIndexSnapshot
  metadataOutbox : MetadataOutboxSnapshot
  provenanceIndex : DataProvenanceIndexSnapshot
  processEventJournal : Option SegmentManifest
  placementEpoch : PlacementEpoch

def VannakService.snapshot {config : SitasRuntimeConfig}
    (mapAll : SitasShardRuntime.MapAll config HotIndexSnapshot) (service : VannakService config) :
    VannakServiceSnapshot where
  hotIndex := service.hotIndex.snapshot mapAll
  metadataOutbox := service.metadata.metadataOutbox.outbox.snapshot
  provenanceIndex := service.metadata.provenanceIndex.snapshot
  processEventJournal := service.processEventJournal.map fun journal => journal.writer.manifest
  placementEpoch := service.metadata.placementMap.epoch

end Vannak.Service

namespace Vannak.Daemon

open Foundation Storage Ipto Cluster Process Vannak.Runtime Service

set_option autoImplicit false

def serviceParts (snapshot : VannakServiceSnapshot) : List String :=
  ["\"hot_index\":\x7b\"event_count\":" ++ toString snapshot.hotIndex.eventCount ++
      ",\"process_instance_count\":" ++ toString snapshot.hotIndex.processInstanceCount ++
      ",\"pipeline_count\":" ++ toString snapshot.hotIndex.pipelineCount ++
      ",\"duplicate_events\":" ++ toString snapshot.hotIndex.duplicateEvents ++
      ",\"rejected_events\":" ++ toString snapshot.hotIndex.rejectedEvents ++ "\x7d",
    "\"outbox\":\x7b\"total\":" ++ toString snapshot.metadataOutbox.total ++
      ",\"pending\":" ++ toString snapshot.metadataOutbox.pending ++
      ",\"acknowledged\":" ++ toString snapshot.metadataOutbox.acknowledged ++
      ",\"failed\":" ++ toString snapshot.metadataOutbox.failed ++ "\x7d",
    "\"provenance\":\x7b\"metadata_event_count\":" ++ toString snapshot.provenanceIndex.metadataEventCount ++ "\x7d",
    "\"placement_epoch\":" ++ toString snapshot.placementEpoch.toNat] ++
  (snapshot.processEventJournal.map fun manifest =>
    "\"process_event_journal\":\x7b\"record_count\":" ++ toString manifest.recordCount ++ ",\"byte_len\":" ++
      toString manifest.byteLen ++ "\x7d").toList

def writerParts (texts : Texts) (writer : BackgroundWriterSnapshot) : List String :=
  ["\"cycles\":" ++ toString writer.cycles.toNat, "\"total_acknowledged\":" ++ toString writer.totalAcknowledged,
    "\"total_failed\":" ++ toString writer.totalFailed] ++
  (writer.lastControlError.map fun error => "\"last_control_error\":" ++ texts.toText (.string error)).toList ++
  (writer.currentCycle.map fun cycle => "\"current_cycle\":" ++ toString cycle.toNat).toList

/-- `service` is missing when no snapshot can be taken. -/
def buildHealthJson (texts : Texts) (service : Option VannakServiceSnapshot)
    (backgroundWriter : Option BackgroundWriterSnapshot) (uptime : Nat) : String :=
  "\x7b" ++ ",".intercalate (["\"uptime_secs\":" ++ toString uptime] ++ (service.map serviceParts).getD [] ++
    (backgroundWriter.map fun writer =>
      "\"background_writer\":\x7b" ++ ",".intercalate (writerParts texts writer) ++ "\x7d").toList) ++ "\x7d"

/-! ## The document as a value -/

def counter (value : Nat) : Json := .otherNumber (toString value)

def serviceFields (snapshot : VannakServiceSnapshot) : List (String × Json) :=
  [("hot_index", .object [("event_count", counter snapshot.hotIndex.eventCount),
      ("process_instance_count", counter snapshot.hotIndex.processInstanceCount),
      ("pipeline_count", counter snapshot.hotIndex.pipelineCount),
      ("duplicate_events", counter snapshot.hotIndex.duplicateEvents),
      ("rejected_events", counter snapshot.hotIndex.rejectedEvents)]),
    ("outbox", .object [("total", counter snapshot.metadataOutbox.total),
      ("pending", counter snapshot.metadataOutbox.pending),
      ("acknowledged", counter snapshot.metadataOutbox.acknowledged),
      ("failed", counter snapshot.metadataOutbox.failed)]),
    ("provenance", .object [("metadata_event_count", counter snapshot.provenanceIndex.metadataEventCount)]),
    ("placement_epoch", counter snapshot.placementEpoch.toNat)] ++
  (snapshot.processEventJournal.map fun manifest =>
    ("process_event_journal", Json.object [("record_count", counter manifest.recordCount),
      ("byte_len", counter manifest.byteLen)])).toList

def writerFields (writer : BackgroundWriterSnapshot) : List (String × Json) :=
  [("cycles", counter writer.cycles.toNat), ("total_acknowledged", counter writer.totalAcknowledged),
    ("total_failed", counter writer.totalFailed)] ++
  (writer.lastControlError.map fun error => ("last_control_error", Json.string error)).toList ++
  (writer.currentCycle.map fun cycle => ("current_cycle", counter cycle.toNat)).toList

def healthJson (service : Option VannakServiceSnapshot) (backgroundWriter : Option BackgroundWriterSnapshot)
    (uptime : Nat) : Json :=
  .object ([("uptime_secs", counter uptime)] ++ (service.map serviceFields).getD [] ++
    (backgroundWriter.map fun writer => ("background_writer", Json.object (writerFields writer))).toList)

/-- The text of a field with a plain key. -/
def fieldPart (field : String × Json) : String := "\"" ++ field.1 ++ "\":" ++ String.ofList field.2.print

theorem toList_fieldPart {field : String × Json} (h : ∀ char ∈ field.1.toList, Plain char) :
    (fieldPart field).toList = quoted field.1.toList ++ ':' :: field.2.print := by
  rw [quoted_of_plain h]
  simp [fieldPart]

theorem toList_intercalate_parts {fields : List (String × Json)}
    (h : ∀ field ∈ fields, ∀ char ∈ field.1.toList, Plain char) :
    (",".intercalate (fields.map fieldPart)).toList = Json.printFields fields := by
  induction fields with
  | nil => rfl
  | cons field fields ih =>
    obtain ⟨hField, hFields⟩ := List.forall_mem_cons.mp h
    have hRest := ih hFields
    cases fields with
    | nil =>
      rw [List.map_singleton, String.intercalate_singleton, toList_fieldPart hField]
      rfl
    | cons next fields =>
      rw [List.map_cons] at hRest ⊢
      obtain ⟨key, value⟩ := field
      rw [List.map_cons, String.intercalate_cons_cons, String.toList_append, String.toList_append, hRest,
        toList_fieldPart hField, Json.printFields.eq_3 key value (next :: fields) (by simp)]
      simp

theorem quoted_counters : ∀ key ∈ ["event_count", "process_instance_count", "pipeline_count", "duplicate_events",
    "rejected_events", "total", "pending", "acknowledged", "failed", "metadata_event_count", "record_count",
    "byte_len"], quoted key.toList = '\x22' :: (key.toList ++ ['\x22']) := by
  decide

theorem map_fieldPart_serviceFields (snapshot : VannakServiceSnapshot) :
    (serviceFields snapshot).map fieldPart = serviceParts snapshot := by
  have hKeys := quoted_counters
  simp only [List.forall_mem_cons] at hKeys
  obtain ⟨h1, h2, h3, h4, h5, h6, h7, h8, h9, h10, h11, h12, -⟩ := hKeys
  cases hJournal : snapshot.processEventJournal <;>
    (simp only [serviceFields, serviceParts, hJournal, List.map_cons, List.map_append, fieldPart, Json.print,
      Json.printFields, counter, Option.map_none, Option.map_some, Option.toList, List.map_nil, h1, h2, h3, h4, h5, h6,
      h7, h8, h9, h10, h11, h12]
     simp [← String.toList_inj])

theorem map_fieldPart_writerFields {texts : Texts} (hPrints : Prints texts.toText) (writer : BackgroundWriterSnapshot) :
    (writerFields writer).map fieldPart = writerParts texts writer := by
  cases hError : writer.lastControlError <;> cases hCycle : writer.currentCycle <;>
    simp [writerFields, writerParts, hError, hCycle, fieldPart, Json.print, counter, ← String.toList_inj, hPrints _]

def healthKeys : List String :=
  ["uptime_secs", "hot_index", "outbox", "provenance", "placement_epoch", "process_event_journal",
    "background_writer", "cycles", "total_acknowledged", "total_failed", "last_control_error", "current_cycle"]

theorem plain_of_keys {fields : List (String × Json)} (h : fields.map Prod.fst ⊆ healthKeys) :
    ∀ field ∈ fields, ∀ char ∈ field.1.toList, Plain char := by
  have hPlain : ∀ key ∈ healthKeys, ∀ char ∈ key.toList, Plain char := by
    simp [healthKeys, Plain]
  intro field hField
  exact hPlain field.1 (h (List.mem_map_of_mem hField))

theorem keys_serviceFields (snapshot : VannakServiceSnapshot) :
    (serviceFields snapshot).map Prod.fst ⊆ healthKeys := by
  cases hJournal : snapshot.processEventJournal <;> simp [serviceFields, hJournal, healthKeys]

theorem keys_writerFields (writer : BackgroundWriterSnapshot) :
    (writerFields writer).map Prod.fst ⊆ healthKeys := by
  cases hError : writer.lastControlError <;> cases hCycle : writer.currentCycle <;>
    simp [writerFields, hError, hCycle, healthKeys]

theorem keys_healthFields (service : Option VannakServiceSnapshot)
    (backgroundWriter : Option BackgroundWriterSnapshot) (uptime : Nat) :
    ([("uptime_secs", counter uptime)] ++ (service.map serviceFields).getD [] ++
      (backgroundWriter.map fun writer => ("background_writer", Json.object (writerFields writer))).toList).map
        Prod.fst ⊆ healthKeys := by
  have hSnapshot : ((service.map serviceFields).getD []).map Prod.fst ⊆ healthKeys := by
    cases service with
    | none => exact List.nil_subset _
    | some snapshot => exact keys_serviceFields snapshot
  rw [List.map_append, List.map_append, List.append_subset, List.append_subset]
  exact ⟨⟨by simp [healthKeys], hSnapshot⟩, by cases backgroundWriter <;> simp [healthKeys]⟩

/-- The health document is JSON at all times. -/
theorem health_is_json {texts : Texts} (hPrints : Prints texts.toText) (service : Option VannakServiceSnapshot)
    (backgroundWriter : Option BackgroundWriterSnapshot) (uptime : Nat) :
    (buildHealthJson texts service backgroundWriter uptime).toList =
      (healthJson service backgroundWriter uptime).print := by
  have hUptime : "\"uptime_secs\":" ++ toString uptime = fieldPart ("uptime_secs", counter uptime) := by
    simp [fieldPart, counter, Json.print, ← String.toList_inj]
  have hService : (service.map serviceParts).getD [] = ((service.map serviceFields).getD []).map fieldPart := by
    cases service with
    | none => rfl
    | some snapshot => exact (map_fieldPart_serviceFields snapshot).symm
  have hWriter (writer : BackgroundWriterSnapshot) :
      "\"background_writer\":\x7b" ++ ",".intercalate (writerParts texts writer) ++ "\x7d" =
        fieldPart ("background_writer", Json.object (writerFields writer)) := by
    have hFields := toList_intercalate_parts (plain_of_keys (keys_writerFields writer))
    rw [map_fieldPart_writerFields hPrints] at hFields
    simp [fieldPart, Json.print, ← hFields, ← String.toList_inj]
  have hWriters : (backgroundWriter.map fun writer =>
      "\"background_writer\":\x7b" ++ ",".intercalate (writerParts texts writer) ++ "\x7d").toList =
        (backgroundWriter.map fun writer =>
          ("background_writer", Json.object (writerFields writer))).toList.map fieldPart := by
    cases backgroundWriter with
    | none => rfl
    | some writer => exact congrArg ([·]) (hWriter writer)
  have hKeys := keys_healthFields service backgroundWriter uptime
  rw [buildHealthJson, hUptime, hService, hWriters, ← List.map_singleton, ← List.map_append, ← List.map_append,
    String.toList_append, String.toList_append, toList_intercalate_parts (plain_of_keys hKeys), healthJson, Json.print]
  simp

end Vannak.Daemon
