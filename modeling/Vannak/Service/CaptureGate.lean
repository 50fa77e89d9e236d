import Vannak.Service.Delivery

/-!
# Captures under committed authority

A capture is refused before anything is stored, or it is placed and leased by the control state it has read. What it
enqueues is then in the segment, in the outbox and in the provenance index. The provenance index stays what a replay
of the segment gives, across deliveries and restarts, as long as each record carries the fact of its own key.
-/

namespace Vannak.Ipto

open Foundation Storage

set_option autoImplicit false

/-- The provenance facts of the records, in order. -/
def factsOf (records : List Bytes) : List DataIndividualMetadataEvent :=
  records.filterMap fun bytes => (IptoWritePayload.decode bytes).toOption.bind IptoWritePayload.provenance

def provenanceOf (records : List Bytes) : DataProvenanceIndex :=
  (factsOf records).foldl (fun index event => (index.ingest event).2) DataProvenanceIndex.new

/-- The record carries the provenance event that has its idempotency key. -/
def CarriesOwnFact (bytes : Bytes) : Prop :=
  ∃ payload event, IptoWritePayload.decode bytes = .ok payload ∧ payload.provenance = some event ∧
    payload.idempotencyKey = event.idempotencyKey

theorem factsOf_append (first second : List Bytes) : factsOf (first ++ second) = factsOf first ++ factsOf second :=
  List.filterMap_append

theorem mem_factsOf {records : List Bytes} {event : DataIndividualMetadataEvent} :
    event ∈ factsOf records ↔
      ∃ bytes ∈ records, ∃ payload,
        IptoWritePayload.decode bytes = .ok payload ∧ payload.provenance = some event := by
  rw [factsOf, List.mem_filterMap]
  refine exists_congr fun bytes => and_congr_right fun _ => ?_
  cases IptoWritePayload.decode bytes with
  | error error => simp [Except.toOption]
  | ok payload => simp [Except.toOption]

theorem foldlM_replayFact {records : List Bytes} (h : ∀ bytes ∈ records, CarriesOwnFact bytes) (offset : Nat)
    (index : DataProvenanceIndex) :
    (recordsFrom offset records).foldlM replayFact index =
      .ok ((factsOf records).foldl (fun index event => (index.ingest event).2) index) := by
  induction records generalizing offset index with
  | nil => rfl
  | cons bytes records ih =>
    obtain ⟨⟨payload, event, hDecode, hEvent, -⟩, hRest⟩ := List.forall_mem_cons.mp h
    have hFact : replayFact index ⟨offset, checksum bytes, bytes⟩ = .ok (index.ingest event).2 := by
      simp only [replayFact, hDecode, hEvent]
    have hFacts : factsOf (bytes :: records) = event :: factsOf records := by
      rw [factsOf, List.filterMap_cons, hDecode]
      simp [Except.toOption, hEvent, factsOf]
    rw [recordsFrom, List.foldlM_cons, hFact, hFacts]
    exact ih hRest _ _

theorem replayProvenance_segmentBytes {records : List Bytes} (hSized : ∀ bytes ∈ records, Sized bytes)
    (h : ∀ bytes ∈ records, CarriesOwnFact bytes) :
    replayProvenance (segmentBytes records) = .ok (provenanceOf records) := by
  rw [replayProvenance, segmentBytes, openFile_segment]
  exact (SegmentReader.whileSome_frames .segment (fun index record _ => replayFact index record) hSized 8 replayFact
    (fun _ _ _ => rfl) _).trans (foldlM_replayFact h 8 _)

end Vannak.Ipto

namespace Vannak.DataProvenanceIndex

open Foundation Ipto

theorem getElem?_ingest (index : DataProvenanceIndex) (event : DataIndividualMetadataEvent) (key : IdempotencyKey) :
    (index.ingest event).2.eventsByIdempotency[key]? =
      if event.idempotencyKey = key then some ((index.eventsByIdempotency[key]?).getD event)
      else index.eventsByIdempotency[key]? := by
  rw [ingest]
  by_cases hKnown : event.idempotencyKey ∈ index.eventsByIdempotency
  · rw [if_pos hKnown]
    obtain ⟨stored, hStored⟩ := Option.isSome_iff_exists.mp (Std.ExtTreeMap.mem_iff_isSome_getElem?.mp hKnown)
    split
    · rename_i hKey
      rw [← hKey, hStored]
      rfl
    · rfl
  · rw [if_neg hKnown]
    dsimp only
    rw [getElem?_insert_ite]
    split
    · rename_i hKey
      rw [← hKey, Std.ExtTreeMap.getElem?_eq_none hKnown]
      rfl
    · rfl

theorem mem_ingest (index : DataProvenanceIndex) (event : DataIndividualMetadataEvent) (key : IdempotencyKey) :
    key ∈ (index.ingest event).2.eventsByIdempotency ↔
      event.idempotencyKey = key ∨ key ∈ index.eventsByIdempotency := by
  rw [Std.ExtTreeMap.mem_iff_isSome_getElem?, getElem?_ingest, Std.ExtTreeMap.mem_iff_isSome_getElem?]
  split
  · rename_i hKey
    simp [hKey]
  · rename_i hKey
    simp [hKey]

theorem ingest_of_mem {index : DataProvenanceIndex} {event : DataIndividualMetadataEvent}
    (h : event.idempotencyKey ∈ index.eventsByIdempotency) : (index.ingest event).2 = index := by
  rw [ingest, if_pos h]

theorem mem_provenanceOf (records : List Bytes) (key : IdempotencyKey) :
    key ∈ (provenanceOf records).eventsByIdempotency ↔
      ∃ event ∈ factsOf records, event.idempotencyKey = key := by
  rw [provenanceOf]
  generalize factsOf records = events
  induction events using List.reverseRecOn with
  | nil => simp [new]
  | append_singleton events event ih =>
    rw [List.foldl_concat, mem_ingest, ih]
    simp only [List.mem_append, List.mem_singleton]
    constructor
    · rintro (hLast | ⟨other, hOther, hKey⟩)
      · exact ⟨event, .inr rfl, hLast⟩
      · exact ⟨other, .inl hOther, hKey⟩
    · rintro ⟨other, hOther | rfl, hKey⟩
      · exact .inr ⟨other, hOther, hKey⟩
      · exact .inl hKey

end Vannak.DataProvenanceIndex

namespace Vannak.Ipto

open Foundation Storage

theorem Records.mem_entries_iff {ledger : Ledger} {outbox : MetadataOutbox} (h : Records ledger outbox)
    (key : IdempotencyKey) : key ∈ outbox.entries ↔ ∃ row ∈ ledger, row.1.idempotencyKey = key := by
  have hSome : (outbox.recorded key).isSome = (ledger.lookup key).isSome := congrArg Option.isSome (h key)
  rw [MetadataOutbox.recorded, Option.isSome_map, Ledger.lookup, Option.isSome_map] at hSome
  rw [Std.ExtTreeMap.mem_iff_isSome_getElem?, hSome, List.find?_isSome]
  simp

theorem mem_entries_of_recorded {left right : MetadataOutbox} (h : left.recorded = right.recorded)
    (key : IdempotencyKey) : key ∈ left.entries ↔ key ∈ right.entries := by
  have hSome := congrArg Option.isSome (congrFun h key)
  rw [MetadataOutbox.recorded, MetadataOutbox.recorded, Option.isSome_map, Option.isSome_map] at hSome
  rw [Std.ExtTreeMap.mem_iff_isSome_getElem?, Std.ExtTreeMap.mem_iff_isSome_getElem?, hSome]

end Vannak.Ipto

namespace Vannak.Service

open Foundation Storage Ipto Cluster

/-- The state places the event's shard on the target and has given the node the lease of it. -/
def GrantedBy (state : ClusterControlState) (node : NodeId) (event : DataIndividualMetadataEvent)
    (target : IptoInstanceId) : Prop :=
  ∃ placementMap lease, state.placementMap = some placementMap ∧
    placementMap.resolve event.dataIndividualShardId = some target ∧
    state.writerLease target = some lease ∧ lease.holder = node

/-- The payload of the capture is appended to the segment and queued for the target, and the provenance index has
the event, or another one that it had under the same key. -/
structure StoresCapture (service next : MetadataService) (event : DataIndividualMetadataEvent)
    (target : IptoInstanceId) (offset : Nat) : Prop where
  fresh : event.idempotencyKey ∉ service.metadataOutbox.outbox.entries
  segment : next.metadataOutbox.writer.file = service.metadataOutbox.writer.file ++
    frame (IptoWritePayload.fromEvent event target service.mapping).encode
  outbox : ∃ entry, next.metadataOutbox.outbox.entries[event.idempotencyKey]? = some entry ∧
    entry.payload = .fromEvent event target service.mapping ∧ entry.payload.target = target ∧
    entry.recordOffset = some offset ∧ entry.status = .pending
  provenance : ∃ stored, next.provenanceIndex.eventsByIdempotency[event.idempotencyKey]? = some stored ∧
    (stored = event ∨ service.provenanceIndex.eventsByIdempotency[event.idempotencyKey]? = some stored)

/-- The outbox, the segment and the provenance index are as before. -/
def StoresNothing (service next : MetadataService) : Prop :=
  next.metadataOutbox = service.metadataOutbox ∧ next.provenanceIndex = service.provenanceIndex

variable {service : MetadataService} {node : NodeId} {event : DataIndividualMetadataEvent}

theorem granted_of_placedOn {call : CaptureCall} {target : IptoInstanceId} (hNode : service.node = some node)
    (h : service.placedOn call = some target) :
    ∃ state, call.read = .ok state ∧ GrantedBy state node call.event target := by
  rw [MetadataService.placedOn, hNode] at h
  split at h
  · cases h
  · obtain ⟨state, hState, hRest⟩ := Option.bind_eq_some_iff.mp h
    obtain ⟨placementMap, hMap, hRest⟩ := Option.bind_eq_some_iff.mp hRest
    obtain ⟨resolved, hResolved, hRest⟩ := Option.bind_eq_some_iff.mp hRest
    split at hRest
    · rename_i hLease
      cases hRest
      obtain ⟨lease, hFound, hHolder⟩ := (Option.any_eq_true _ _).mp hLease
      exact ⟨state, toOption_eq_some.mp hState, placementMap, lease, hMap, hResolved, hFound,
        of_decide_eq_true hHolder⟩
    · cases hRest

/-- A capture under a control plane is refused without a trace or goes to the outbox with the grant it needs. -/
theorem capture_gate (hNode : service.node = some node) (call : CaptureCall) :
    (∃ error placementMap, ¬error.IsStorage ∧
      captureStep service call = (.error error, { service with placementMap })) ∨
    (∃ state target placementMap, call.read = .ok state ∧ GrantedBy state node call.event target ∧
      captureStep service call = { service with placementMap }.enqueueCapture call.event target) := by
  rcases captureStep_cases service call with
    ⟨error, placementMap, -, hOther, hCapture⟩ | ⟨target, placementMap, hTarget, hCapture⟩
  · exact .inl ⟨error, placementMap, hOther, hCapture⟩
  · obtain ⟨state, hRead, hGranted⟩ := granted_of_placedOn hNode hTarget
    exact .inr ⟨state, target, placementMap, hRead, hGranted, hCapture⟩

theorem node_enqueueCapture (service : MetadataService) (event : DataIndividualMetadataEvent)
    (target : IptoInstanceId) : (service.enqueueCapture event target).2.node = service.node := by
  rw [MetadataService.enqueueCapture]
  split
  · rfl
  · rfl

/-- What an enqueued capture leaves behind, if its placement map has replaced the local one. -/
theorem storesCapture_of_enqueued {target found : IptoInstanceId} {placementMap : IptoPlacementMap} {offset : Nat}
    (h : ({ service with placementMap }.enqueueCapture event found).1 = .ok ⟨target, .enqueued offset⟩) :
    target = found ∧
      StoresCapture service ({ service with placementMap }.enqueueCapture event found).2 event target offset := by
  rcases enqueueCapture_cases { service with placementMap } event found with
    ⟨-, hResult⟩ | ⟨hFresh, -, next, hResult, hFile, -⟩ | ⟨-, error, hResult⟩
  · rw [hResult] at h
    cases h
  · rw [hResult] at h ⊢
    cases h
    refine ⟨rfl, hFresh, hFile, ?_, ⟨_, (DataProvenanceIndex.getElem?_ingest ..).trans (if_pos rfl), ?_⟩⟩
    · rw [MetadataOutbox.enqueueWithOffset_of_fresh hFresh]
      exact ⟨_, Std.ExtTreeMap.getElem?_insert_self, rfl, rfl, rfl, rfl⟩
    · cases hStored : service.provenanceIndex.eventsByIdempotency[event.idempotencyKey]? with
      | none => exact .inl rfl
      | some stored => exact .inr rfl
  · rw [hResult] at h
    cases h

theorem capture_enqueued (hNode : service.node = some node) {call : CaptureCall} {target : IptoInstanceId}
    {offset : Nat} (h : (captureStep service call).1 = .ok ⟨target, .enqueued offset⟩) :
    (∃ state, call.read = .ok state ∧ GrantedBy state node call.event target) ∧
      StoresCapture service (captureStep service call).2 call.event target offset := by
  rcases capture_gate hNode call with
    ⟨error, placementMap, -, hCapture⟩ | ⟨state, placed, placementMap, hRead, hGranted, hCapture⟩
  · rw [hCapture] at h
    cases h
  · rw [hCapture] at h ⊢
    obtain ⟨rfl, hStores⟩ := storesCapture_of_enqueued h
    exact ⟨⟨state, hRead, hGranted⟩, hStores⟩

theorem capture_refused (hNode : service.node = some node) {call : CaptureCall} {error : CaptureError}
    (h : (captureStep service call).1 = .error error) (hOther : ¬error.IsStorage) :
    StoresNothing service (captureStep service call).2 := by
  rcases capture_gate hNode call with
    ⟨refusal, placementMap, -, hCapture⟩ | ⟨state, placed, placementMap, -, -, hCapture⟩
  · rw [hCapture]
    exact ⟨rfl, rfl⟩
  · rw [hCapture] at h
    rcases enqueueCapture_cases { service with placementMap } call.event placed with
      ⟨-, hResult⟩ | ⟨-, -, next, hResult, -, -⟩ | ⟨-, storage, hResult⟩
    · rw [hResult] at h
      cases h
    · rw [hResult] at h
      cases h
    · rw [hResult] at h
      cases h
      exact absurd trivial hOther

/-! ## Runs -/

inductive MetadataStep where
  | capture (call : CaptureCall)
  | drainForTarget (target : IptoInstanceId) (maxAttempts : Nat)
  | retryFailedForTarget (target : IptoInstanceId)
  | restart (placementMap : IptoPlacementMap) (mapping : IptoMapping) (segmentId : SegmentId) (nodeId : NodeId)
    (checkpointOffset : Option Nat)

inductive MetadataAnswer where
  | captured (result : Except CaptureError MetadataCaptureResult)
  | drained (summary : MetadataOutboxDrainSummary)
  | retried (count : Nat)
  | restarted (result : Except MetadataOutboxStorageError MetadataOutboxReplaySummary)

/-- The step is no restart that skips records. -/
def MetadataStep.Complete : MetadataStep → Prop
  | .restart _ _ _ _ checkpointOffset => checkpointOffset = none
  | _ => True

section Steps

variable {ω : Type} (writer : IptoWriter ω)

/-- A restart recovers from the segment under the same control plane. One that fails leaves nothing running; the
state before it stands in for that. -/
def metadataStep (state : MetadataService × ω) : MetadataStep → MetadataAnswer × MetadataService × ω
  | .capture call =>
    let (result, service) := state.1.captureMetadataEvent call.read call.event
    (.captured result, service, state.2)
  | .drainForTarget target maxAttempts =>
    let (summary, service, remote) := state.1.drainMetadataForTarget writer target state.2 maxAttempts
    (.drained summary, service, remote)
  | .retryFailedForTarget target =>
    let (count, outbox) := state.1.metadataOutbox.outbox.retryFailedForTarget target
    (.retried count, state.1.withOutbox outbox, state.2)
  | .restart placementMap mapping segmentId nodeId checkpointOffset =>
    match MetadataService.recoverAfter placementMap mapping state.1.metadataOutbox.writer.file
        state.1.metadataOutbox.writer.path segmentId nodeId checkpointOffset with
    | .error error => (.restarted (.error error), state)
    | .ok (service, summary) => (.restarted (.ok summary), { service with node := state.1.node }, state.2)

end Steps

/-- A step captures, moves statuses or recovers. -/
theorem metadataStep_cases {ω : Type} (writer : IptoWriter ω) (service : MetadataService) (remote : ω)
    (step : MetadataStep) :
    (∃ call, step = .capture call ∧
      (metadataStep writer (service, remote) step).2.1 = (captureStep service call).2) ∨
    (∃ outbox, (metadataStep writer (service, remote) step).2.1 = service.withOutbox outbox ∧
      outbox.recorded = service.metadataOutbox.outbox.recorded) ∨
    (∃ placementMap mapping segmentId nodeId checkpointOffset recovered summary,
      step = .restart placementMap mapping segmentId nodeId checkpointOffset ∧
      MetadataService.recoverAfter placementMap mapping service.metadataOutbox.writer.file
        service.metadataOutbox.writer.path segmentId nodeId checkpointOffset = .ok (recovered, summary) ∧
      (metadataStep writer (service, remote) step).2.1 = { recovered with node := service.node }) := by
  cases step with
  | capture call => exact .inl ⟨call, rfl, rfl⟩
  | drainForTarget target maxAttempts =>
    have hRecorded := MetadataOutbox.recorded_drain service.metadataOutbox.outbox
      (fun outbox remote => outbox.recorded_deliver writer (outbox.nextPendingForTarget target) remote)
      maxAttempts ⟨0, 0, 0, false⟩ remote
    exact .inr (.inl ⟨_, rfl, hRecorded⟩)
  | retryFailedForTarget target =>
    exact .inr (.inl ⟨_, rfl, MetadataOutbox.recorded_retryFailedForTarget _ target⟩)
  | restart placementMap mapping segmentId nodeId checkpointOffset =>
    rw [metadataStep]
    cases hRecover : MetadataService.recoverAfter placementMap mapping service.metadataOutbox.writer.file
        service.metadataOutbox.writer.path segmentId nodeId checkpointOffset with
    | error error => exact .inr (.inl ⟨service.metadataOutbox.outbox, rfl, rfl⟩)
    | ok recovered =>
      exact .inr (.inr ⟨placementMap, mapping, segmentId, nodeId, checkpointOffset, recovered.1, recovered.2, rfl,
        hRecover, rfl⟩)

/-- A service that was created, or recovered from a segment whose records carry their own facts. -/
inductive Starts (node : NodeId) : Option Nat → MetadataService → Prop where
  | fresh {placementMap : IptoPlacementMap} {mapping : IptoMapping} {path : PathBuf} {segmentId : SegmentId}
      {nodeId : NodeId} {service : MetadataService}
      (hCreate : MetadataService.create placementMap mapping none path segmentId nodeId = .ok service) :
      Starts node none (service.setControlPlane node)
  | recovered {placementMap : IptoPlacementMap} {mapping : IptoMapping} {records : List Bytes} {path : PathBuf}
      {segmentId : SegmentId} {nodeId : NodeId} {checkpointOffset : Option Nat} {service : MetadataService}
      {summary : MetadataOutboxReplaySummary} (hSized : ∀ bytes ∈ records, Sized bytes)
      (hFacts : ∀ bytes ∈ records, CarriesOwnFact bytes)
      (hRecover : MetadataService.recoverAfter placementMap mapping (segmentBytes records) path segmentId nodeId
        checkpointOffset = .ok (service, summary)) :
      Starts node checkpointOffset (service.setControlPlane node)

/-- The provenance index is what the segment gives, and it has every key of the outbox. -/
structure Reflects (service : MetadataService) (records : List Bytes) : Prop where
  holds : service.metadataOutbox.writer.Holds records
  facts : ∀ bytes ∈ records, CarriesOwnFact bytes
  provenance : service.provenanceIndex = provenanceOf records
  known : ∀ key ∈ service.metadataOutbox.outbox.entries, key ∈ service.provenanceIndex.eventsByIdempotency

/-- The outbox has skipped no record. -/
def SkipsNothing (service : MetadataService) : Prop :=
  ∀ key ∈ service.provenanceIndex.eventsByIdempotency, key ∈ service.metadataOutbox.outbox.entries

variable {records : List Bytes}

theorem Reflects.replayProvenance (h : Reflects service records) :
    replayProvenance service.metadataOutbox.writer.file = .ok service.provenanceIndex := by
  rw [h.holds.file, h.provenance]
  exact replayProvenance_segmentBytes h.holds.sized h.facts

theorem Reflects.of_stored {next : MetadataService} (h : Reflects service records)
    (hWriter : next.metadataOutbox.writer = service.metadataOutbox.writer)
    (hProvenance : next.provenanceIndex = service.provenanceIndex)
    (hKeys : ∀ key, key ∈ next.metadataOutbox.outbox.entries ↔ key ∈ service.metadataOutbox.outbox.entries) :
    Reflects next records where
  holds := hWriter ▸ h.holds
  facts := h.facts
  provenance := hProvenance.trans h.provenance
  known key hKey := hProvenance ▸ h.known key ((hKeys key).mp hKey)

theorem carriesOwnFact_fromEvent {target : IptoInstanceId} {mapping : IptoMapping}
    (hSized : Sized (IptoWritePayload.fromEvent event target mapping).encode) :
    CarriesOwnFact (IptoWritePayload.fromEvent event target mapping).encode :=
  ⟨_, event, decode_encode hSized, rfl, rfl⟩

theorem provenanceOf_concat {target : IptoInstanceId} {mapping : IptoMapping}
    (hSized : Sized (IptoWritePayload.fromEvent event target mapping).encode) (records : List Bytes) :
    provenanceOf (records ++ [(IptoWritePayload.fromEvent event target mapping).encode]) =
      ((provenanceOf records).ingest event).2 := by
  have hLast : factsOf [(IptoWritePayload.fromEvent event target mapping).encode] = [event] := by
    rw [factsOf, List.filterMap_cons, decode_encode hSized]
    rfl
  rw [provenanceOf, factsOf_append, hLast, List.foldl_concat]
  rfl

/-- A known key is known to the provenance index too, so that a duplicate changes nothing. -/
theorem Reflects.enqueueCapture (h : Reflects service records) (event : DataIndividualMetadataEvent)
    (target : IptoInstanceId) :
    (∃ records, Reflects (service.enqueueCapture event target).2 records) ∧
      (SkipsNothing service → SkipsNothing (service.enqueueCapture event target).2) := by
  rcases enqueueCapture_cases service event target with
    ⟨hKnown, hResult⟩ | ⟨hFresh, hSized, next, hResult, -, hNext⟩ | ⟨-, error, hResult⟩
  · rw [hResult]
    have hSame := DataProvenanceIndex.ingest_of_mem (h.known _ hKnown)
    exact ⟨⟨records, h.of_stored rfl hSame fun _ => Iff.rfl⟩, fun hAll key hStored => hAll key (hSame ▸ hStored)⟩
  · have hEntries := @MetadataOutbox.mem_entries_enqueueWithOffset _ (.fromEvent event target service.mapping) hFresh
      (some service.metadataOutbox.writer.byteLen)
    rw [hResult]
    refine ⟨⟨_, hNext records h.holds, ?_, ?_, fun key hStored => ?_⟩, fun hAll key hStored => ?_⟩
    · exact List.forall_mem_append.mpr ⟨h.facts, List.forall_mem_singleton.mpr (carriesOwnFact_fromEvent hSized)⟩
    · rw [provenanceOf_concat hSized, ← h.provenance]
    · exact (DataProvenanceIndex.mem_ingest ..).mpr (((hEntries key).mp hStored).imp_right (h.known key))
    · exact (hEntries key).mpr (((DataProvenanceIndex.mem_ingest ..).mp hStored).imp_right (hAll key))
  · rw [hResult]
    exact ⟨⟨records, h⟩, id⟩

theorem segmentBytes_injective {left right : List Bytes} (hLeft : ∀ bytes ∈ left, Sized bytes)
    (hRight : ∀ bytes ∈ right, Sized bytes) (h : segmentBytes left = segmentBytes right) : left = right := by
  have hRead := readFile_segment hLeft
  rw [h, readFile_segment hRight] at hRead
  have hRecords := congrArg (List.map SegmentRecord.payload) (Prod.mk.inj (Except.ok.inj hRead)).1
  rwa [map_payload_recordsFrom, map_payload_recordsFrom, eq_comm] at hRecords

theorem mem_replayedRows {checkpointOffset : Option Nat} {scanned : List SegmentRecord}
    {row : IptoWritePayload × Nat} :
    row ∈ replayedRows checkpointOffset scanned ↔ ∃ record ∈ scanned, ¬checkpointOffset.any (record.offset ≤ ·) ∧
      IptoWritePayload.decode record.payload = .ok row.1 ∧ record.offset = row.2 := by
  rw [replayedRows, List.mem_filterMap]
  refine exists_congr fun record => and_congr_right fun _ => ?_
  split
  · rename_i hSkip
    simp [hSkip]
  · rename_i hKeep
    rw [and_iff_right hKeep]
    cases IptoWritePayload.decode record.payload with
    | error error => simp [Except.toOption]
    | ok payload => simp [Except.toOption, Prod.ext_iff]

/-- The recovered outbox knows keys of facts only. -/
theorem mem_provenanceOf_of_replayed (h : ∀ bytes ∈ records, CarriesOwnFact bytes) {checkpointOffset : Option Nat}
    {row : IptoWritePayload × Nat} (hRow : row ∈ replayedRows checkpointOffset (recordsFrom 8 records)) :
    row.1.idempotencyKey ∈ (provenanceOf records).eventsByIdempotency := by
  obtain ⟨record, hRecord, -, hDecode, -⟩ := mem_replayedRows.mp hRow
  have hMem := payload_mem_of_mem_recordsFrom hRecord
  obtain ⟨payload, event, hOwn, hEvent, hKey⟩ := h _ hMem
  rw [hDecode] at hOwn
  cases hOwn
  exact (DataProvenanceIndex.mem_provenanceOf records _).mpr
    ⟨event, mem_factsOf.mpr ⟨_, hMem, _, hDecode, hEvent⟩, hKey.symm⟩

theorem exists_replayed_of_mem_provenanceOf (h : ∀ bytes ∈ records, CarriesOwnFact bytes) {key : IdempotencyKey}
    (hKey : key ∈ (provenanceOf records).eventsByIdempotency) :
    ∃ row ∈ replayedRows none (recordsFrom 8 records), row.1.idempotencyKey = key := by
  obtain ⟨event, hFact, rfl⟩ := (DataProvenanceIndex.mem_provenanceOf records key).mp hKey
  obtain ⟨bytes, hBytes, payload, hDecode, hEvent⟩ := mem_factsOf.mp hFact
  obtain ⟨own, other, hOwn, hOther, hSame⟩ := h bytes hBytes
  rw [hDecode] at hOwn
  cases hOwn
  rw [hEvent] at hOther
  cases hOther
  rw [← map_payload_recordsFrom 8 records] at hBytes
  obtain ⟨record, hRecord, rfl⟩ := List.mem_map.mp hBytes
  exact ⟨(payload, record.offset), mem_replayedRows.mpr ⟨record, hRecord, by simp, hDecode, rfl⟩, hSame⟩

/-- A new service is empty, and so is its segment. -/
theorem create_eq_ok {placementMap : IptoPlacementMap} {mapping : IptoMapping} {path : PathBuf}
    {segmentId : SegmentId} {nodeId : NodeId}
    (h : MetadataService.create placementMap mapping none path segmentId nodeId = .ok service) :
    service.metadataOutbox.writer.Holds [] ∧ service.metadataOutbox.outbox = .new ∧ service.provenanceIndex = .new := by
  obtain ⟨durable, hDurable, hMade⟩ := ok_of_bind h
  cases hMade
  obtain ⟨writer, hWriter, hMade⟩ := ok_of_bind hDurable
  cases hMade
  obtain ⟨created, hCreated, hHolds⟩ := SegmentWriter.holds_create path segmentId nodeId
  have hSame := (ok_of_mapError hWriter).symm.trans hCreated
  cases hSame
  exact ⟨hHolds, rfl, rfl⟩

/-- A recovered service has the segment, the rows of it that are not skipped and all its facts. -/
theorem serviceRecoverAfter_eq_ok {placementMap : IptoPlacementMap} {mapping : IptoMapping} {path : PathBuf}
    {segmentId : SegmentId} {nodeId : NodeId} {checkpointOffset : Option Nat} {summary : MetadataOutboxReplaySummary}
    (hSized : ∀ bytes ∈ records, Sized bytes)
    (h : MetadataService.recoverAfter placementMap mapping (segmentBytes records) path segmentId nodeId
      checkpointOffset = .ok (service, summary)) :
    service.metadataOutbox.writer.Holds records ∧
      Records (replayedRows checkpointOffset (recordsFrom 8 records)) service.metadataOutbox.outbox ∧
      replayProvenance (segmentBytes records) = .ok service.provenanceIndex := by
  obtain ⟨provenance, hProvenance, hRest⟩ := ok_of_bind h
  obtain ⟨⟨durable, replayed⟩, hDurable, hMade⟩ := ok_of_bind hRest
  cases hMade
  obtain ⟨payloads, hSame, hHolds, -, hRecords⟩ := recoverAfter_eq_ok hDurable
  obtain rfl := segmentBytes_injective hSized hHolds.sized hSame
  exact ⟨hHolds, hRecords, hProvenance⟩

/-- A recovery gives a service that reflects the segment; without a checkpoint it skips nothing. -/
theorem reflects_recoverAfter {placementMap : IptoPlacementMap} {mapping : IptoMapping} {path : PathBuf}
    {segmentId : SegmentId} {nodeId : NodeId} {checkpointOffset : Option Nat} {summary : MetadataOutboxReplaySummary}
    (hSized : ∀ bytes ∈ records, Sized bytes) (hFacts : ∀ bytes ∈ records, CarriesOwnFact bytes)
    (h : MetadataService.recoverAfter placementMap mapping (segmentBytes records) path segmentId nodeId
      checkpointOffset = .ok (service, summary)) :
    Reflects service records ∧ (checkpointOffset = none → SkipsNothing service) := by
  obtain ⟨hHolds, hRecords, hReplay⟩ := serviceRecoverAfter_eq_ok hSized h
  rw [replayProvenance_segmentBytes hSized hFacts] at hReplay
  have hProvenance : service.provenanceIndex = provenanceOf records := (Except.ok.inj hReplay).symm
  refine ⟨⟨hHolds, hFacts, hProvenance, fun key hKey => ?_⟩, fun hNone key hKey => ?_⟩
  · obtain ⟨row, hRow, rfl⟩ := (hRecords.mem_entries_iff key).mp hKey
    rw [hProvenance]
    exact mem_provenanceOf_of_replayed hFacts hRow
  · subst hNone
    rw [hProvenance] at hKey
    exact (hRecords.mem_entries_iff key).mpr (exists_replayed_of_mem_provenanceOf hFacts hKey)

/-- A step that keeps the segment, the provenance index and what is recorded. -/
theorem Reflects.of_recorded (h : Reflects service records) {outbox : MetadataOutbox}
    (hRecorded : outbox.recorded = service.metadataOutbox.outbox.recorded) :
    Reflects (service.withOutbox outbox) records ∧
      (SkipsNothing service → SkipsNothing (service.withOutbox outbox)) := by
  have hKeys := mem_entries_of_recorded hRecorded
  exact ⟨h.of_stored rfl rfl hKeys, fun hAll key hKey => (hKeys key).mpr (hAll key hKey)⟩

theorem Reflects.capture (h : Reflects service records) (hNode : service.node = some node) (call : CaptureCall) :
    (∃ records, Reflects (captureStep service call).2 records) ∧
      (SkipsNothing service → SkipsNothing (captureStep service call).2) ∧
      (captureStep service call).2.node = some node := by
  rcases capture_gate hNode call with
    ⟨error, placementMap, -, hCapture⟩ | ⟨state, target, placementMap, -, -, hCapture⟩
  · rw [hCapture]
    exact ⟨⟨records, h.of_stored rfl rfl fun _ => Iff.rfl⟩, id, hNode⟩
  · rw [hCapture]
    have hPlaced : Reflects { service with placementMap } records := h.of_stored rfl rfl fun _ => Iff.rfl
    obtain ⟨hReflects, hAll⟩ := hPlaced.enqueueCapture call.event target
    exact ⟨hReflects, hAll, (node_enqueueCapture ..).trans hNode⟩

theorem Reflects.step {ω : Type} (writer : IptoWriter ω) (h : Reflects service records)
    (hNode : service.node = some node) (remote : ω) (step : MetadataStep) :
    (∃ records, Reflects (metadataStep writer (service, remote) step).2.1 records) ∧
      (SkipsNothing service → step.Complete → SkipsNothing (metadataStep writer (service, remote) step).2.1) ∧
      (metadataStep writer (service, remote) step).2.1.node = some node := by
  rcases metadataStep_cases writer service remote step with
    ⟨call, -, hNext⟩ | ⟨outbox, hNext, hRecorded⟩ |
    ⟨placementMap, mapping, segmentId, nodeId, checkpointOffset, recovered, summary, rfl, hRecover, hNext⟩
  · obtain ⟨hReflects, hAll, hSame⟩ := h.capture hNode call
    rw [hNext]
    exact ⟨hReflects, fun hBefore _ => hAll hBefore, hSame⟩
  · obtain ⟨hReflects, hAll⟩ := h.of_recorded hRecorded
    rw [hNext]
    exact ⟨⟨records, hReflects⟩, fun hBefore _ => hAll hBefore, hNode⟩
  · rw [h.holds.file] at hRecover
    obtain ⟨hReflects, hAll⟩ := reflects_recoverAfter h.holds.sized h.facts hRecover
    rw [hNext]
    exact ⟨⟨records, hReflects.of_stored rfl rfl fun _ => Iff.rfl⟩, fun _ hComplete => hAll hComplete, hNode⟩

theorem Starts.reflects {checkpointOffset : Option Nat} (h : Starts node checkpointOffset service) :
    (∃ records, Reflects service records) ∧ (checkpointOffset = none → SkipsNothing service) ∧
      service.node = some node := by
  cases h with
  | fresh hCreate =>
    obtain ⟨hHolds, hOutbox, hProvenance⟩ := create_eq_ok hCreate
    refine ⟨⟨[], hHolds, by simp, hProvenance, ?_⟩, fun _ => ?_, rfl⟩
    · simp [MetadataService.setControlPlane, hOutbox, MetadataOutbox.new]
    · simp [SkipsNothing, MetadataService.setControlPlane, hProvenance, DataProvenanceIndex.new]
  | recovered hSized hFacts hRecover =>
    obtain ⟨hReflects, hAll⟩ := reflects_recoverAfter hSized hFacts hRecover
    exact ⟨⟨_, hReflects.of_stored rfl rfl fun _ => Iff.rfl⟩, hAll, rfl⟩

/-- What every state of a run satisfies; `complete` is the promise that no recovery skips records. -/
def Sound (node : NodeId) (complete : Prop) (service : MetadataService) : Prop :=
  (∃ records, Reflects service records) ∧ (complete → SkipsNothing service) ∧ service.node = some node

theorem sound_run {ω : Type} (writer : IptoWriter ω) {checkpointOffset : Option Nat} {complete : Prop}
    (h : Starts node checkpointOffset service) (hStart : complete → checkpointOffset = none) (remote : ω)
    {steps : List MetadataStep} (hSteps : complete → ∀ step ∈ steps, step.Complete) :
    Sound node complete (run (metadataStep writer) (service, remote) steps).2.1 := by
  obtain ⟨hReflects, hAll, hNode⟩ := h.reflects
  have hSound : Sound node complete service := ⟨hReflects, fun hComplete => hAll (hStart hComplete), hNode⟩
  have hStep : ∀ (state : MetadataService × ω) (step : MetadataStep), Sound node complete state.1 →
      (complete → step.Complete) → Sound node complete (metadataStep writer state step).2.1 := by
    rintro state step ⟨⟨records, hRecords⟩, hBefore, hSame⟩ hComplete
    obtain ⟨hNext, hKeeps, hNextNode⟩ := hRecords.step writer hSame state.2 step
    exact ⟨hNext, fun hPromise => hKeeps (hBefore hPromise) (hComplete hPromise), hNextNode⟩
  have hAdmits : AllSteps (metadataStep writer) (fun _ step => complete → step.Complete) (service, remote) steps :=
    allSteps_of_forall fun _ step hMem hPromise => hSteps hPromise step hMem
  exact run_invariant_of_allSteps hStep hSound hAdmits

/-- If the outbox has the keys of all facts, a new key is new to the provenance index. -/
theorem provenance_of_enqueued (hNode : service.node = some node) (hAll : SkipsNothing service)
    {call : CaptureCall} {target : IptoInstanceId} {offset : Nat}
    (h : (captureStep service call).1 = .ok ⟨target, .enqueued offset⟩) :
    (captureStep service call).2.provenanceIndex.eventsByIdempotency[call.event.idempotencyKey]? =
      some call.event := by
  obtain ⟨-, hStores⟩ := capture_enqueued hNode h
  obtain ⟨stored, hStored, rfl | hBefore⟩ := hStores.provenance
  · exact hStored
  · have hKnown : call.event.idempotencyKey ∈ service.provenanceIndex.eventsByIdempotency := by
      rw [Std.ExtTreeMap.mem_iff_isSome_getElem?, hBefore]
      rfl
    exact absurd (hAll _ hKnown) hStores.fresh

/-- A capture that is enqueued has the committed placement and the lease for it, and is stored; one that is refused
stores nothing. The provenance index of every run is the replay of its segment, and an enqueued event is in it unless
a recovery has skipped a record with its key. -/
theorem capture_is_gated_and_atomic :
    (∀ (service : MetadataService) (node : NodeId) (read : Except String ClusterControlState)
      (event : DataIndividualMetadataEvent), service.node = some node →
      (∀ target offset, (service.captureMetadataEvent read event).1 = .ok ⟨target, .enqueued offset⟩ →
        (∃ state, read = .ok state ∧ GrantedBy state node event target) ∧
        StoresCapture service (service.captureMetadataEvent read event).2 event target offset) ∧
      (∀ error, (service.captureMetadataEvent read event).1 = .error error → ¬error.IsStorage →
        StoresNothing service (service.captureMetadataEvent read event).2)) ∧
    (∀ (ω : Type) (writer : IptoWriter ω) (remote : ω) (node : NodeId) (checkpointOffset : Option Nat)
      (service : MetadataService) (steps : List MetadataStep), Starts node checkpointOffset service →
      replayProvenance (run (metadataStep writer) (service, remote) steps).2.1.metadataOutbox.writer.file =
        .ok (run (metadataStep writer) (service, remote) steps).2.1.provenanceIndex ∧
      (checkpointOffset = none → (∀ step ∈ steps, step.Complete) →
        ∀ (read : Except String ClusterControlState) (event : DataIndividualMetadataEvent)
          (target : IptoInstanceId) (offset : Nat),
          ((run (metadataStep writer) (service, remote) steps).2.1.captureMetadataEvent read event).1 =
            .ok ⟨target, .enqueued offset⟩ →
          ((run (metadataStep writer) (service, remote) steps).2.1.captureMetadataEvent
            read event).2.provenanceIndex.eventsByIdempotency[event.idempotencyKey]? = some event)) := by
  refine ⟨fun service node read event hNode => ⟨fun target offset hOk => @capture_enqueued _ _ hNode ⟨read, event⟩ _ _ hOk,
    fun error hError hOther => @capture_refused _ _ hNode ⟨read, event⟩ _ hError hOther⟩,
    fun ω writer remote node checkpointOffset service steps hStarts => ⟨?_, fun hNone hComplete => ?_⟩⟩
  · obtain ⟨⟨records, hRecords⟩, -⟩ := sound_run writer hStarts (fun h : False => h.elim) remote fun h => h.elim
    exact hRecords.replayProvenance
  · intro read event target offset hOk
    obtain ⟨-, hAll, hNode⟩ := sound_run writer hStarts (fun _ : True => hNone) remote fun _ => hComplete
    exact @provenance_of_enqueued _ _ hNode (hAll trivial) ⟨read, event⟩ _ _ hOk

/-- The placement of the sample service is committed, and `node-a` has the lease of its only instance. -/
def grantingState : ClusterControlState := { ClusterControlState.new with
  placementMaps := (∅ : BTreeMap PlacementEpoch IptoPlacementMap).insert 1 Daemon.mapBefore
  writerLeases := (∅ : BTreeMap IptoInstanceId WriterLease).insert ⟨"ipto-a"⟩ ⟨⟨"ipto-a"⟩, ⟨"node-a"⟩, 1⟩ }

/-- Captures of one metadata event; they have the same key and differ in their timestamps. -/
def capturedAt (timestamp : String) : CaptureCall where
  read := .ok grantingState
  event := .new ⟨"meta-1"⟩ ⟨"data-1"⟩ 5 ⟨"tenant"⟩ ⟨"prod"⟩ ⟨"pipeline"⟩ ⟨"instance"⟩ ⟨timestamp⟩ .received

def controlledService : MetadataService := sampleService.setControlPlane ⟨"node-a"⟩

theorem capture_is_gated_and_atomic_granted :
    (∃ state, (capturedAt "2026-06-30T10:00:00Z").read = .ok state ∧
      GrantedBy state ⟨"node-a"⟩ (capturedAt "2026-06-30T10:00:00Z").event ⟨"ipto-a"⟩) ∧
    StoresCapture controlledService (captureStep controlledService (capturedAt "2026-06-30T10:00:00Z")).2
      (capturedAt "2026-06-30T10:00:00Z").event ⟨"ipto-a"⟩ 8 :=
  (capture_is_gated_and_atomic.1 controlledService _ _ _ rfl).1 _ _ (by decide +kernel)

/-! ### A key that a recovery has skipped, and a record with a foreign fact -/

/-- The recovery skips the record of the first capture, so that its key is new to the outbox. -/
def recovered : MetadataService :=
  (run (metadataStep acceptingWriter) (controlledService, ()) [.capture (capturedAt "2026-06-30T10:00:00Z"),
    .restart Daemon.mapBefore (.new "v1") ⟨"outbox"⟩ ⟨"node-a"⟩ (some 8)]).2.1

/-- A record with the key of one event and the fact of another. -/
def foreignRecord : Bytes :=
  { IptoWritePayload.fromEvent (sampleCapture "data-2" "meta-2").event ⟨"ipto-a"⟩ (.new "v1") with
    idempotencyKey := (capturedAt "2026-06-30T10:00:00Z").event.idempotencyKey }.encode

def recoveredForeign : Except MetadataOutboxStorageError MetadataService := do
  let (service, _) ← MetadataService.recoverAfter Daemon.mapBefore (.new "v1") (segmentBytes [foreignRecord])
    (.ofString "outbox.seg") ⟨"outbox"⟩ ⟨"node-a"⟩ none
  return (captureStep (service.setControlPlane ⟨"node-a"⟩) (capturedAt "2026-06-30T10:00:00Z")).2

/-- The second capture is enqueued, but the index keeps the first event of the key. The capture whose key a foreign
record has is a duplicate for the outbox and new for the index, so that the index is ahead of the segment. -/
theorem capture_is_not_indexed :
    Starts ⟨"node-a"⟩ none controlledService ∧
    (∃ offset, (captureStep recovered (capturedAt "2026-06-30T10:00:05Z")).1 =
        .ok ⟨⟨"ipto-a"⟩, .enqueued offset⟩) ∧
      (captureStep recovered (capturedAt "2026-06-30T10:00:05Z")).2.provenanceIndex.eventsByIdempotency[
        (capturedAt "2026-06-30T10:00:05Z").event.idempotencyKey]? = some (capturedAt "2026-06-30T10:00:00Z").event ∧
      (capturedAt "2026-06-30T10:00:00Z").event ≠ (capturedAt "2026-06-30T10:00:05Z").event ∧
    ((IptoWritePayload.decode foreignRecord).toOption.bind IptoWritePayload.provenance).isSome ∧
      ∃ service, recoveredForeign = .ok service ∧
        replayProvenance service.metadataOutbox.writer.file ≠ .ok service.provenanceIndex := by
  have hEnqueued : (captureStep recovered (capturedAt "2026-06-30T10:00:05Z")).1.toOption.map
      (fun capture => (capture.target, decide (capture.result = .duplicate))) = some (⟨"ipto-a"⟩, false) := by
    decide +kernel
  have hForeign : recoveredForeign.toOption.map (fun service =>
      (decide ((capturedAt "2026-06-30T10:00:00Z").event.idempotencyKey ∈
          service.provenanceIndex.eventsByIdempotency),
        (replayProvenance service.metadataOutbox.writer.file).toOption.map fun index => decide
          ((capturedAt "2026-06-30T10:00:00Z").event.idempotencyKey ∈ index.eventsByIdempotency))) =
        some (true, some false) := by
    decide +kernel
  refine ⟨@Starts.fresh _ Daemon.mapBefore (.new "v1") (.ofString "outbox.seg") ⟨"outbox"⟩ ⟨"node-a"⟩ _ rfl, ?_,
    by decide +kernel, by decide, by decide +kernel, ?_⟩
  · generalize (captureStep recovered (capturedAt "2026-06-30T10:00:05Z")).1 = answer at hEnqueued
    obtain error | ⟨target, offset | _⟩ := answer
    · cases hEnqueued
    · obtain ⟨rfl, -⟩ := Prod.mk.inj (Option.some.inj hEnqueued)
      exact ⟨offset, rfl⟩
    · cases (Prod.mk.inj (Option.some.inj hEnqueued)).2
  · generalize recoveredForeign = result at hForeign
    obtain error | service := result
    · cases hForeign
    · refine ⟨service, rfl, fun hReplay => ?_⟩
      obtain ⟨hLive, hReplayed⟩ := Prod.mk.inj (Option.some.inj hForeign)
      rw [hReplay] at hReplayed
      rw [Except.toOption, Option.map_some, hLive] at hReplayed
      cases hReplayed

end Vannak.Service
