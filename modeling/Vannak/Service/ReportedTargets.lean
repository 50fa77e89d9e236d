import Vannak.Service.CaptureGate

/-!
# Reported targets

`capture_metadata_event` reports the instance that the placement gives a shard now. A duplicate is not stored again,
so that its write goes to the instance of the first capture. The two are the same unless the shard has moved since.
-/

namespace Vannak.Service

open Foundation Storage Ipto Cluster

set_option autoImplicit false

/-! ## One capture -/

/-- The instance that the write stored under a key goes to. -/
def MetadataService.storedTarget (service : MetadataService) (key : IdempotencyKey) : Option IptoInstanceId :=
  (service.metadataOutbox.outbox.entries[key]?).map fun entry => entry.payload.target

theorem MetadataService.exists_storedTarget {service : MetadataService} {key : IdempotencyKey}
    (h : key ∈ service.metadataOutbox.outbox.entries) : ∃ stored, service.storedTarget key = some stored := by
  obtain ⟨entry, hEntry⟩ := Option.isSome_iff_exists.mp (Std.ExtTreeMap.mem_iff_isSome_getElem?.mp h)
  exact ⟨entry.payload.target, by rw [storedTarget, hEntry, Option.map_some]⟩

theorem MetadataService.storedTarget_of_fresh {service : MetadataService} {key : IdempotencyKey}
    (h : key ∉ service.metadataOutbox.outbox.entries) : service.storedTarget key = none := by
  rw [storedTarget, Std.ExtTreeMap.getElem?_eq_none h, Option.map_none]

/-- A capture that succeeds reports the instance that the write under its key goes to. -/
def ReportsTarget (service : MetadataService) (call : CaptureCall) : Prop :=
  ∀ target result, (captureStep service call).1 = .ok ⟨target, result⟩ →
    (captureStep service call).2.storedTarget call.event.idempotencyKey = some target

/-- If the key is stored, it is stored for the instance that the event is placed on now. -/
def PlacedAsStored (service : MetadataService) (call : CaptureCall) : Prop :=
  ∀ target stored, service.placedOn call = some target →
    service.storedTarget call.event.idempotencyKey = some stored → stored = target

theorem reportsTarget_iff (service : MetadataService) (call : CaptureCall) :
    ReportsTarget service call ↔ PlacedAsStored service call := by
  rcases captureStep_cases service call with
    ⟨error, placementMap, hNone, -, hCapture⟩ | ⟨target, placementMap, hTarget, hCapture⟩
  · rw [ReportsTarget, PlacedAsStored, hCapture, hNone]
    constructor
    · intro _ target stored hSome
      cases hSome
    · intro _ target result hOk
      cases hOk
  · rcases enqueueCapture_cases { service with placementMap } call.event target with
      ⟨hKnown, hResult⟩ | ⟨hFresh, -, next, hResult, -, -⟩ | ⟨hFresh, error, hResult⟩
    · obtain ⟨stored, hStored⟩ := @MetadataService.exists_storedTarget service _ hKnown
      rw [ReportsTarget, PlacedAsStored, hCapture, hResult, hTarget]
      constructor
      · intro hReports other found hOther hFound
        cases hOther
        exact Option.some.inj (hFound.symm.trans (hReports target .duplicate rfl))
      · intro hPlaced other result hOk
        cases hOk
        rw [← hPlaced target stored rfl hStored]
        exact hStored
    · have hNone : service.storedTarget call.event.idempotencyKey = none := MetadataService.storedTarget_of_fresh hFresh
      rw [ReportsTarget, PlacedAsStored, hCapture, hResult, hNone]
      constructor
      · intro _ other stored _ hSome
        cases hSome
      · intro _ other result hOk
        cases hOk
        rw [MetadataService.storedTarget, MetadataOutbox.enqueueWithOffset_of_fresh hFresh]
        exact congrArg (Option.map _) Std.ExtTreeMap.getElem?_insert_self
    · have hNone : service.storedTarget call.event.idempotencyKey = none := MetadataService.storedTarget_of_fresh hFresh
      rw [ReportsTarget, PlacedAsStored, hCapture, hResult, hNone]
      constructor
      · intro _ other stored _ hSome
        cases hSome
      · intro _ other result hOk
        cases hOk

/-! ## Runs -/

def MetadataStep.Reports {ω : Type} (state : MetadataService × ω) : MetadataStep → Prop
  | .capture call => ReportsTarget state.1 call
  | _ => True

def MetadataStep.PlacedAsStored {ω : Type} (state : MetadataService × ω) : MetadataStep → Prop
  | .capture call => Service.PlacedAsStored state.1 call
  | _ => True

/-- The record is for the instance that its key is assigned to. -/
def RecordAssigned (assignment : IdempotencyKey → IptoInstanceId) (bytes : Bytes) : Prop :=
  ∀ payload, IptoWritePayload.decode bytes = .ok payload → payload.target = assignment payload.idempotencyKey

/-- The control state that the call reads grants no other instance than the one its key is assigned to. -/
def CallAssigned (assignment : IdempotencyKey → IptoInstanceId) (node : NodeId) (call : CaptureCall) : Prop :=
  ∀ state target, call.read = .ok state → GrantedBy state node call.event target →
    target = assignment call.event.idempotencyKey

/-- What is on disk and what is recorded in the outbox is for the instances assigned. -/
structure StoresAssigned (assignment : IdempotencyKey → IptoInstanceId) (node : NodeId)
    (service : MetadataService) : Prop where
  node : service.node = some node
  segment : ∃ records, service.metadataOutbox.writer.Holds records ∧
    ∀ bytes ∈ records, RecordAssigned assignment bytes
  outbox : ∃ ledger, Records ledger service.metadataOutbox.outbox ∧
    ∀ row ∈ ledger, row.1.target = assignment row.1.idempotencyKey

namespace StoresAssigned

variable {assignment : IdempotencyKey → IptoInstanceId} {node : NodeId} {service : MetadataService}

theorem storedTarget (h : StoresAssigned assignment node service) {key : IdempotencyKey} {stored : IptoInstanceId}
    (hStored : service.storedTarget key = some stored) : stored = assignment key := by
  obtain ⟨ledger, hRecords, hAssigned⟩ := h.outbox
  obtain ⟨entry, hEntry, rfl⟩ := Option.map_eq_some_iff.mp hStored
  have hLookup := hRecords.lookup_of_entry hEntry
  obtain ⟨offset, -, hRow⟩ := Ledger.mem_of_lookup hLookup
  rw [hAssigned _ hRow, Ledger.lookup_eq_some hLookup]

theorem of_recorded (h : StoresAssigned assignment node service) {outbox : MetadataOutbox}
    (hRecorded : outbox.recorded = service.metadataOutbox.outbox.recorded) :
    StoresAssigned assignment node (service.withOutbox outbox) where
  node := h.node
  segment := h.segment
  outbox := by
    obtain ⟨ledger, hRecords, hAssigned⟩ := h.outbox
    exact ⟨ledger, hRecords.of_eq hRecorded, hAssigned⟩

theorem enqueueCapture (h : StoresAssigned assignment node service) {event : DataIndividualMetadataEvent}
    {target : IptoInstanceId} (hTarget : target = assignment event.idempotencyKey) :
    StoresAssigned assignment node (service.enqueueCapture event target).2 := by
  rcases enqueueCapture_cases service event target with
    ⟨-, hResult⟩ | ⟨-, hSized, next, hResult, -, hNext⟩ | ⟨-, error, hResult⟩
  · rw [hResult]
    exact ⟨h.node, h.segment, h.outbox⟩
  · rw [hResult]
    obtain ⟨records, hHolds, hRecords⟩ := h.segment
    obtain ⟨ledger, hLedger, hRows⟩ := h.outbox
    refine ⟨h.node, ⟨_, hNext records hHolds, fun bytes hBytes payload hDecode => ?_⟩,
      ⟨_, hLedger.enqueueWithOffset _ _, fun row hRow => ?_⟩⟩
    · rcases List.mem_append.mp hBytes with hOld | hLast
      · exact hRecords bytes hOld payload hDecode
      · rw [List.mem_singleton.mp hLast, decode_encode hSized] at hDecode
        cases hDecode
        exact hTarget
    · rcases List.mem_append.mp hRow with hOld | hLast
      · exact hRows row hOld
      · rw [List.mem_singleton.mp hLast]
        exact hTarget
  · rw [hResult]
    exact h

theorem capture (h : StoresAssigned assignment node service) {call : CaptureCall}
    (hCall : CallAssigned assignment node call) : StoresAssigned assignment node (captureStep service call).2 := by
  rcases capture_gate h.node call with
    ⟨error, placementMap, -, hCapture⟩ | ⟨state, target, placementMap, hRead, hGranted, hCapture⟩
  · rw [hCapture]
    exact ⟨h.node, h.segment, h.outbox⟩
  · rw [hCapture]
    have hPlaced : StoresAssigned assignment node { service with placementMap } := ⟨h.node, h.segment, h.outbox⟩
    exact hPlaced.enqueueCapture (hCall state target hRead hGranted)

theorem of_recoverAfter {placementMap : IptoPlacementMap} {mapping : IptoMapping} {records : List Bytes}
    {path : PathBuf} {segmentId : SegmentId} {nodeId : NodeId} {checkpointOffset : Option Nat}
    {summary : MetadataOutboxReplaySummary} (hSized : ∀ bytes ∈ records, Sized bytes)
    (hAssigned : ∀ bytes ∈ records, RecordAssigned assignment bytes)
    (h : MetadataService.recoverAfter placementMap mapping (segmentBytes records) path segmentId nodeId
      checkpointOffset = .ok (service, summary)) :
    StoresAssigned assignment node { service with node := some node } := by
  obtain ⟨hHolds, hRecords, -⟩ := serviceRecoverAfter_eq_ok hSized h
  refine ⟨rfl, ⟨records, hHolds, hAssigned⟩, _, hRecords, fun row hRow => ?_⟩
  obtain ⟨record, hRecord, -, hDecode, -⟩ := mem_replayedRows.mp hRow
  exact hAssigned _ (payload_mem_of_mem_recordsFrom hRecord) _ hDecode

theorem step {ω : Type} (writer : IptoWriter ω) (h : StoresAssigned assignment node service) (remote : ω)
    {step : MetadataStep} (hStep : ∀ call, step = .capture call → CallAssigned assignment node call) :
    StoresAssigned assignment node (metadataStep writer (service, remote) step).2.1 := by
  rcases metadataStep_cases writer service remote step with
    ⟨call, hCall, hNext⟩ | ⟨outbox, hNext, hRecorded⟩ |
    ⟨placementMap, mapping, segmentId, nodeId, checkpointOffset, recovered, summary, -, hRecover, hNext⟩
  · rw [hNext]
    exact h.capture (hStep call hCall)
  · rw [hNext]
    exact h.of_recorded hRecorded
  · obtain ⟨records, hHolds, hRecords⟩ := h.segment
    rw [hHolds.file] at hRecover
    rw [hNext, h.node]
    exact of_recoverAfter hHolds.sized hRecords hRecover

theorem placedAsStored (h : StoresAssigned assignment node service) {call : CaptureCall}
    (hCall : CallAssigned assignment node call) : PlacedAsStored service call := by
  intro target stored hTarget hStored
  obtain ⟨state, hRead, hGranted⟩ := granted_of_placedOn h.node hTarget
  rw [h.storedTarget hStored, hCall state target hRead hGranted]

end StoresAssigned

theorem Starts.storesAssigned {assignment : IdempotencyKey → IptoInstanceId} {node : NodeId}
    {checkpointOffset : Option Nat} {service : MetadataService} (h : Starts node checkpointOffset service)
    (hSegment : ∀ records, service.metadataOutbox.writer.Holds records →
      ∀ bytes ∈ records, RecordAssigned assignment bytes) : StoresAssigned assignment node service := by
  cases h with
  | fresh hCreate =>
    obtain ⟨hHolds, hOutbox, -⟩ := create_eq_ok hCreate
    exact ⟨rfl, ⟨[], hHolds, hSegment [] hHolds⟩, [], hOutbox ▸ Records.new, by simp⟩
  | recovered hSized hFacts hRecover =>
    obtain ⟨hReflects, -⟩ := reflects_recoverAfter hSized hFacts hRecover
    exact .of_recoverAfter hSized (hSegment _ hReflects.holds) hRecover

/-- Over every run, captures report the instance that their write goes to exactly if each of them is placed where its
key is stored. That is so if every key is always granted one and the same instance. -/
theorem captures_report_target_iff {ω : Type} (writer : IptoWriter ω) (service : MetadataService) (remote : ω)
    (steps : List MetadataStep) :
    (AllSteps (metadataStep writer) MetadataStep.Reports (service, remote) steps ↔
      AllSteps (metadataStep writer) MetadataStep.PlacedAsStored (service, remote) steps) ∧
    ∀ (node : NodeId) (checkpointOffset : Option Nat) (assignment : IdempotencyKey → IptoInstanceId),
      Starts node checkpointOffset service →
      (∀ records, service.metadataOutbox.writer.Holds records →
        ∀ bytes ∈ records, RecordAssigned assignment bytes) →
      (∀ call, .capture call ∈ steps → CallAssigned assignment node call) →
      AllSteps (metadataStep writer) MetadataStep.Reports (service, remote) steps := by
  have hIff (state : MetadataService × ω) (step : MetadataStep) : step.Reports state ↔ step.PlacedAsStored state := by
    cases step with
    | capture call => exact reportsTarget_iff state.1 call
    | drainForTarget | retryFailedForTarget | restart => exact Iff.rfl
  have hSame : AllSteps (metadataStep writer) MetadataStep.Reports (service, remote) steps ↔
      AllSteps (metadataStep writer) MetadataStep.PlacedAsStored (service, remote) steps :=
    @allSteps_congr _ _ _ _ _ _ (fun _ => True) (fun _ _ _ => trivial) (fun state step _ => hIff state step) _ trivial
      steps
  refine ⟨hSame, fun node checkpointOffset assignment hStarts hSegment hCalls => ?_⟩
  have hAdmits : AllSteps (metadataStep writer)
      (fun _ step => ∀ call, step = .capture call → CallAssigned assignment node call) (service, remote) steps :=
    allSteps_of_forall fun _ step hStep call hCall => hCalls call (hCall ▸ hStep)
  refine @allSteps_of_invariant _ _ _ _ _ _ (fun state => StoresAssigned assignment node state.1)
    (fun state step h hStep => h.step writer state.2 hStep) (fun state step h hStep => ?_) _ _
    (hStarts.storesAssigned hSegment) hAdmits
  refine (hIff state step).mpr ?_
  cases step with
  | capture call => exact h.placedAsStored (hStep call rfl)
  | drainForTarget | retryFailedForTarget | restart => trivial

theorem reportsTarget_second {ω : Type} {writer : IptoWriter ω} {service : MetadataService} {remote : ω}
    {first second : CaptureCall} (h : AllSteps (metadataStep writer) MetadataStep.Reports (service, remote)
      [.capture first, .capture second]) : ReportsTarget (captureStep service first).2 second :=
  h.2.1

/-! ### A shard that moves between two captures -/

def firstPlacement : List ClusterControlCommand :=
  [.addNode ⟨"node-a"⟩, .setIptoPlacementMap Daemon.mapBefore,
    .grantWriterLease ⟨⟨"ipto-a"⟩, ⟨"node-a"⟩, 1⟩]

def movedPlacement : List ClusterControlCommand :=
  firstPlacement ++ [.setIptoPlacementMap Daemon.mapAfter, .grantWriterLease ⟨⟨"ipto-b"⟩, ⟨"node-a"⟩, 1⟩]

/-- A capture of one event when the commands are committed. -/
def capturedUnder (commands : List ClusterControlCommand) : CaptureCall where
  read := .ok (run ClusterControlState.apply .new commands).2
  event := .new ⟨"meta-1"⟩ ⟨"data-1"⟩ 12 ⟨"tenant"⟩ ⟨"prod"⟩ ⟨"pipeline"⟩ ⟨"instance"⟩
    ⟨"2026-06-30T10:00:00Z"⟩ .received

def afterFirst : MetadataService := (captureStep controlledService (capturedUnder firstPlacement)).2

/-- The event is captured again after its shard has moved to `ipto-b`. -/
theorem duplicate_reports_other_target :
    Starts ⟨"node-a"⟩ none controlledService ∧
    (captureStep controlledService (capturedUnder firstPlacement)).1 = .ok ⟨⟨"ipto-a"⟩, .enqueued 8⟩ ∧
    (captureStep afterFirst (capturedUnder movedPlacement)).1 = .ok ⟨⟨"ipto-b"⟩, .duplicate⟩ ∧
    (captureStep afterFirst (capturedUnder movedPlacement)).2.storedTarget
      (capturedUnder movedPlacement).event.idempotencyKey = some ⟨"ipto-a"⟩ ∧
    ¬∀ (ω : Type) (writer : IptoWriter ω) (remote : ω) (node : NodeId) (checkpointOffset : Option Nat)
      (service : MetadataService) (steps : List MetadataStep), Starts node checkpointOffset service →
      AllSteps (metadataStep writer) MetadataStep.Reports (service, remote) steps := by
  have hStarts : Starts ⟨"node-a"⟩ none controlledService :=
    @Starts.fresh _ Daemon.mapBefore (.new "v1") (.ofString "outbox.seg") ⟨"outbox"⟩ ⟨"node-a"⟩ _ rfl
  have hAnswer : (captureStep afterFirst (capturedUnder movedPlacement)).1 = .ok ⟨⟨"ipto-b"⟩, .duplicate⟩ := by
    decide +kernel
  have hStored : (captureStep afterFirst (capturedUnder movedPlacement)).2.storedTarget
      (capturedUnder movedPlacement).event.idempotencyKey = some ⟨"ipto-a"⟩ := by
    decide +kernel
  refine ⟨hStarts, by decide +kernel, hAnswer, hStored, fun hAll => ?_⟩
  have hReports : ReportsTarget afterFirst (capturedUnder movedPlacement) :=
    reportsTarget_second (hAll Unit acceptingWriter () _ _ controlledService _ hStarts)
  have hTarget := hReports ⟨"ipto-b"⟩ .duplicate hAnswer
  rw [hStored] at hTarget
  exact absurd hTarget (by decide)

end Vannak.Service
