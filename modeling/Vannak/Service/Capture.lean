import Vannak.Cluster.Control
import Vannak.Daemon.PlacementChange
import Vannak.Foundation.Joined
import Vannak.Ipto.Durable
import Vannak.Provenance

/-!
# Capturing metadata events

`capture_metadata_event` of `service.rs`: a provenance event is placed, mapped to a
payload and durably enqueued. The outbox tells captures apart by an idempotency key that
joins two free-form identifiers, so that a capture can be taken for a duplicate of another.
-/

namespace Vannak.Ipto

set_option autoImplicit false

/-- Versioned mapping from metadata field names to Ipto attributes. -/
structure IptoMapping where
  version : String
  fields : BTreeMap MetadataFieldName IptoAttributeName
  relationsEnabled : Bool

namespace IptoMapping

def new (version : String) : IptoMapping := ⟨version, ∅, true⟩

def mapField (mapping : IptoMapping) (field : MetadataFieldName) (name : IptoAttributeName) : IptoMapping :=
  { mapping with fields := mapping.fields.insert field name }

def withoutRelations (mapping : IptoMapping) : IptoMapping := { mapping with relationsEnabled := false }

def attributeFor (mapping : IptoMapping) (field : MetadataFieldName) : Option IptoAttributeName :=
  mapping.fields[field]?

/-- The loop over one of the metadata maps. -/
def mapFields (mapping : IptoMapping) (attributes : BTreeMap IptoAttributeName MetadataValue)
    (fields : BTreeMap MetadataFieldName MetadataValue) : BTreeMap IptoAttributeName MetadataValue :=
  fields.toList.foldl (fun attributes binding =>
    match mapping.attributeFor binding.1 with
    | some name => attributes.insert name binding.2
    | none => attributes) attributes

end IptoMapping

/-- Active metadata overrides passive metadata that is mapped to the same attribute. -/
def IptoWritePayload.fromEvent (event : DataIndividualMetadataEvent) (target : IptoInstanceId)
    (mapping : IptoMapping) : IptoWritePayload :=
  let attributes := mapping.mapFields (mapping.mapFields ∅ event.passiveMetadata.fields) event.activeMetadata.fields
  let attributes := match mapping.relationsEnabled, event.activityId with
    | true, some activityId =>
      attributes.insert ⟨"vannak:relation:wasGeneratedBy"⟩ (.string activityId.asStr)
    | _, _ => attributes
  { target
    shardId := event.dataIndividualShardId
    idempotencyKey := event.idempotencyKey
    mappingVersion := mapping.version
    attributes
    provenance := some event }

end Vannak.Ipto

namespace Vannak.Service

open Foundation Storage Ipto Cluster

set_option autoImplicit false

inductive CaptureError where
  | processIngest (error : IngestError)
  | controlPlane (message : String)
  | noPlacementTarget (shardId : DataIndividualShardId)
  | writerLeaseNotHeld (target : IptoInstanceId) (holder : NodeId)
  | outbox (error : MetadataOutboxStorageError)
deriving DecidableEq

def CaptureError.IsStorage : CaptureError → Prop
  | .outbox _ => True
  | _ => False

structure MetadataCaptureResult where
  target : IptoInstanceId
  result : DurableOutboxEnqueueResult
deriving DecidableEq, Repr

/-- The part of `VannakService` that captures metadata. `node` is there when a control
plane is configured. -/
structure MetadataService where
  placementMap : IptoPlacementMap
  node : Option NodeId
  mapping : IptoMapping
  metadataOutbox : SegmentBackedMetadataOutbox
  provenanceIndex : DataProvenanceIndex

namespace MetadataService

def new (placementMap : IptoPlacementMap) (mapping : IptoMapping) (metadataOutbox : SegmentBackedMetadataOutbox) :
    MetadataService :=
  ⟨placementMap, none, mapping, metadataOutbox, .new⟩

def setControlPlane (service : MetadataService) (node : NodeId) : MetadataService :=
  { service with node := some node }

/-- What the outbox and the provenance index do with a placed event. -/
def enqueueCapture (service : MetadataService) (event : DataIndividualMetadataEvent) (target : IptoInstanceId) :
    Except CaptureError MetadataCaptureResult × MetadataService :=
  match service.metadataOutbox.enqueueDurable (.fromEvent event target service.mapping) with
  | (.error error, metadataOutbox) => (.error (.outbox error), { service with metadataOutbox })
  | (.ok result, metadataOutbox) => (.ok ⟨target, result⟩, { service with
      metadataOutbox
      provenanceIndex := (service.provenanceIndex.ingest event).2 })

/-- With a control plane the committed placement replaces the local one, also when the
capture is then refused, and this node must hold the lease of the target. -/
def captureMetadataEvent (service : MetadataService) (read : Except String ClusterControlState)
    (event : DataIndividualMetadataEvent) : Except CaptureError MetadataCaptureResult × MetadataService :=
  match event.validate with
  | .error error => (.error (.processIngest error), service)
  | .ok () =>
    match service.node with
    | none =>
      match service.placementMap.resolve event.dataIndividualShardId with
      | none => (.error (.noPlacementTarget event.dataIndividualShardId), service)
      | some target => service.enqueueCapture event target
    | some node =>
      match read with
      | .error message => (.error (.controlPlane message), service)
      | .ok state =>
        match state.placementMap with
        | none => (.error (.controlPlane "placement is not committed"), service)
        | some placementMap =>
          let service := { service with placementMap }
          match service.placementMap.resolve event.dataIndividualShardId with
          | none => (.error (.noPlacementTarget event.dataIndividualShardId), service)
          | some target =>
            if (state.writerLeases[target]?).any (·.holder = node) then service.enqueueCapture event target
            else (.error (.writerLeaseNotHeld target node), service)

end MetadataService

structure CaptureCall where
  read : Except String ClusterControlState
  event : DataIndividualMetadataEvent

def captureStep (service : MetadataService) (call : CaptureCall) :
    Except CaptureError MetadataCaptureResult × MetadataService :=
  service.captureMetadataEvent call.read call.event

/-- The instance an event is accepted for: the placement resolves its shard, and a node under a control plane has the
lease. -/
def MetadataService.placedOn (service : MetadataService) (call : CaptureCall) : Option IptoInstanceId :=
  match call.event.validate with
  | .error _ => none
  | .ok () =>
    match service.node with
    | none => service.placementMap.resolve call.event.dataIndividualShardId
    | some node => do
      let state ← call.read.toOption
      let placementMap ← state.placementMap
      let target ← placementMap.resolve call.event.dataIndividualShardId
      if (state.writerLeases[target]?).any (·.holder = node) then some target else none

/-- A capture is refused before the outbox is asked, or the outbox answers for the instance that it is placed on. In
both cases the committed placement may have replaced the local one. -/
theorem captureStep_cases (service : MetadataService) (call : CaptureCall) :
    (∃ error placementMap, service.placedOn call = none ∧ ¬error.IsStorage ∧
      captureStep service call = (.error error, { service with placementMap })) ∨
    (∃ target placementMap, service.placedOn call = some target ∧
      captureStep service call = { service with placementMap }.enqueueCapture call.event target) := by
  obtain ⟨current, node, mapping, metadataOutbox, provenanceIndex⟩ := service
  rw [MetadataService.placedOn, captureStep, MetadataService.captureMetadataEvent]
  cases call.event.validate with
  | error error => exact .inl ⟨_, current, rfl, id, rfl⟩
  | ok =>
    dsimp only
    cases node with
    | none =>
      dsimp only
      cases current.resolve call.event.dataIndividualShardId with
      | none => exact .inl ⟨_, current, rfl, id, rfl⟩
      | some target => exact .inr ⟨target, current, rfl, rfl⟩
    | some node =>
      cases call.read with
      | error message => exact .inl ⟨_, current, rfl, id, rfl⟩
      | ok state =>
        simp only [Except.toOption, Option.bind_eq_bind, Option.bind_some]
        cases state.placementMap with
        | none => exact .inl ⟨_, current, rfl, id, rfl⟩
        | some placementMap =>
          simp only [Option.bind_some]
          cases placementMap.resolve call.event.dataIndividualShardId with
          | none => exact .inl ⟨_, placementMap, rfl, id, rfl⟩
          | some target =>
            simp only [Option.bind_some]
            by_cases hLease : (state.writerLeases[target]?).any (·.holder = node) = true
            · rw [if_pos hLease, if_pos hLease]
              exact .inr ⟨target, placementMap, rfl, rfl⟩
            · rw [if_neg hLease, if_neg hLease]
              exact .inl ⟨_, placementMap, rfl, id, rfl⟩

/-- The payload of a placed event is known, stored and queued, or refused by the segment. -/
theorem enqueueCapture_cases (service : MetadataService) (event : DataIndividualMetadataEvent)
    (target : IptoInstanceId) :
    (event.idempotencyKey ∈ service.metadataOutbox.outbox.entries ∧
      service.enqueueCapture event target = (.ok ⟨target, .duplicate⟩,
        { service with provenanceIndex := (service.provenanceIndex.ingest event).2 })) ∨
    (event.idempotencyKey ∉ service.metadataOutbox.outbox.entries ∧
      Sized (IptoWritePayload.fromEvent event target service.mapping).encode ∧
      ∃ next, service.enqueueCapture event target =
          (.ok ⟨target, .enqueued service.metadataOutbox.writer.byteLen⟩, { service with
            metadataOutbox := ⟨(service.metadataOutbox.outbox.enqueueWithOffset
              (.fromEvent event target service.mapping) (some service.metadataOutbox.writer.byteLen)).2, next⟩
            provenanceIndex := (service.provenanceIndex.ingest event).2 }) ∧
        next.file = service.metadataOutbox.writer.file ++
          frame (IptoWritePayload.fromEvent event target service.mapping).encode ∧
        ∀ records, service.metadataOutbox.writer.Holds records →
          next.Holds (records ++ [(IptoWritePayload.fromEvent event target service.mapping).encode])) ∨
    (event.idempotencyKey ∉ service.metadataOutbox.outbox.entries ∧
      ∃ error, service.enqueueCapture event target = (.error (.outbox error), service)) := by
  rw [MetadataService.enqueueCapture]
  rcases enqueueDurable_cases service.metadataOutbox (.fromEvent event target service.mapping) with
    ⟨hKnown, hResult⟩ | ⟨hFresh, hSized, next, hResult, -, hFile, hNext⟩ | ⟨hFresh, error, hResult⟩
  · rw [hResult]
    exact .inl ⟨hKnown, rfl⟩
  · rw [hResult]
    exact .inr (.inl ⟨hFresh, hSized, next, rfl, hFile, hNext⟩)
  · rw [hResult]
    exact .inr (.inr ⟨hFresh, error, rfl⟩)

/-! ## What a capture is a duplicate of -/

/-- The identifiers that a capture is told apart by. -/
def identifiers (event : DataIndividualMetadataEvent) : String × String :=
  (event.dataIndividualId.asStr, event.metadataEventId.asStr)

theorem idempotencyKey_eq_iff (left right : DataIndividualMetadataEvent) :
    left.idempotencyKey = right.idempotencyKey ↔
      identifiers left = identifiers right ∨ Shifted (identifiers left) (identifiers right) ∨
        Shifted (identifiers right) (identifiers left) := by
  rw [← colon_eq_colon_iff, left.idempotencyKey_eq, right.idempotencyKey_eq]
  exact ⟨fun h => congrArg StringId.asStr h, fun h => congrArg StringId.mk h⟩

abbrev CaptureHistory := List (CaptureCall × Except CaptureError MetadataCaptureResult)

/-- The event was captured by one of the calls. -/
def CapturedIn (past : CaptureHistory) (accepts : DataIndividualMetadataEvent → Prop) : Prop :=
  ∃ call result, (call, .ok result) ∈ past ∧ accepts call.event

/-- Every capture that is answered with `Duplicate` was captured before. -/
def DeduplicatesItself (history : CaptureHistory) : Prop :=
  ∀ before call target after, history = before ++ (call, .ok ⟨target, .duplicate⟩) :: after →
    CapturedIn before fun event => identifiers event = identifiers call.event

/-- Every key in the outbox is the key of a captured event, and the history is as claimed. -/
structure CaptureInvariant (events : List DataIndividualMetadataEvent) (past : CaptureHistory)
    (service : MetadataService) : Prop where
  among : ∀ call ∈ past, call.1.event ∈ events
  captured : ∀ key ∈ service.metadataOutbox.outbox.entries,
    CapturedIn past fun event => event.idempotencyKey = key
  itself : DeduplicatesItself past

theorem CapturedIn.mono {past : CaptureHistory} {accepts : DataIndividualMetadataEvent → Prop}
    (h : CapturedIn past accepts) (more : CaptureHistory) : CapturedIn (past ++ more) accepts := by
  obtain ⟨call, result, hMem, hAccepts⟩ := h
  exact ⟨call, result, List.mem_append_left more hMem, hAccepts⟩

theorem DeduplicatesItself.concat {past : CaptureHistory} (h : DeduplicatesItself past) {call : CaptureCall}
    {answer : Except CaptureError MetadataCaptureResult}
    (hAnswer : ∀ target, answer = .ok ⟨target, .duplicate⟩ →
      CapturedIn past fun event => identifiers event = identifiers call.event) :
    DeduplicatesItself (past ++ [(call, answer)]) := by
  intro before other target after hSplit
  rcases List.eq_nil_or_concat' after with rfl | ⟨front, last, rfl⟩
  · obtain ⟨rfl, hLast⟩ := List.append_inj' hSplit rfl
    cases hLast
    exact hAnswer target rfl
  · rw [← List.cons_append, ← List.append_assoc] at hSplit
    obtain ⟨rfl, -⟩ := List.append_inj' hSplit rfl
    exact h before other target front rfl

theorem CaptureInvariant.step {events : List DataIndividualMetadataEvent}
    (hApart : ∀ left ∈ events, ∀ right ∈ events, ¬Shifted (identifiers left) (identifiers right))
    (past : CaptureHistory) (service : MetadataService) (call : CaptureCall)
    (h : CaptureInvariant events past service) (hCall : call.event ∈ events) :
    CaptureInvariant events (past ++ [(call, (captureStep service call).1)]) (captureStep service call).2 := by
  have hAmong : ∀ other ∈ past ++ [(call, (captureStep service call).1)], other.1.event ∈ events :=
    List.forall_mem_append.mpr ⟨h.among, List.forall_mem_singleton.mpr hCall⟩
  -- An answer other than `Duplicate` says nothing about the past.
  have hOther (hNot : ∀ target, (captureStep service call).1 ≠ .ok ⟨target, .duplicate⟩)
      (hKeys : ∀ key ∈ (captureStep service call).2.metadataOutbox.outbox.entries,
        CapturedIn (past ++ [(call, (captureStep service call).1)]) fun event => event.idempotencyKey = key) :
      CaptureInvariant events (past ++ [(call, (captureStep service call).1)]) (captureStep service call).2 :=
    ⟨hAmong, hKeys, h.itself.concat fun target hAnswer => absurd hAnswer (hNot target)⟩
  rcases captureStep_cases service call with
    ⟨error, placementMap, -, -, hCapture⟩ | ⟨target, placementMap, -, hCapture⟩
  · rw [hCapture] at hOther ⊢
    exact hOther (fun target hAnswer => by cases hAnswer) fun key hKey => (h.captured key hKey).mono _
  · rcases enqueueCapture_cases { service with placementMap } call.event target with
      ⟨hKnown, hResult⟩ | ⟨hFresh, -, next, hResult, -, -⟩ | ⟨-, error, hResult⟩
    · rw [hCapture, hResult] at hAmong ⊢
      refine ⟨hAmong, fun key hKey => (h.captured key hKey).mono _, h.itself.concat fun _ _ => ?_⟩
      obtain ⟨earlier, result, hMem, hKey⟩ := h.captured _ hKnown
      rcases (idempotencyKey_eq_iff earlier.event call.event).mp hKey with hIds | hShifted | hShifted
      · exact ⟨earlier, result, hMem, hIds⟩
      · exact absurd hShifted (hApart _ (h.among _ hMem) _ hCall)
      · exact absurd hShifted (hApart _ hCall _ (h.among _ hMem))
    · rw [hCapture, hResult] at hOther ⊢
      refine hOther (fun other hDuplicate => by cases hDuplicate) fun key hKey => ?_
      rcases (MetadataOutbox.mem_entries_enqueueWithOffset hFresh _ key).mp hKey with hNew | hOld
      · exact ⟨call, _, List.mem_append_right past (List.mem_singleton_self _), hNew⟩
      · exact (h.captured key hOld).mono _
    · rw [hCapture, hResult] at hOther ⊢
      exact hOther (fun other hDuplicate => by cases hDuplicate) fun key hKey => (h.captured key hKey).mono _

theorem captures_deduplicate_themselves (left right : DataIndividualMetadataEvent) (service : MetadataService)
    (calls : List CaptureCall) :
    (identifiers left ≠ identifiers right →
      (left.idempotencyKey ≠ right.idempotencyKey ↔
        ¬Shifted (identifiers left) (identifiers right) ∧ ¬Shifted (identifiers right) (identifiers left))) ∧
    (service.metadataOutbox.outbox = MetadataOutbox.new →
      (∀ left ∈ calls, ∀ right ∈ calls, ¬Shifted (identifiers left.event) (identifiers right.event)) →
        DeduplicatesItself (run captureStep service calls).1) := by
  refine ⟨fun hDifferent => ?_, fun hNew hApart => ?_⟩
  · rw [ne_eq, idempotencyKey_eq_iff, not_or, not_or]
    exact and_iff_right hDifferent
  · have hEvents : ∀ left ∈ calls.map CaptureCall.event, ∀ right ∈ calls.map CaptureCall.event,
        ¬Shifted (identifiers left) (identifiers right) := by
      simpa only [List.forall_mem_map] using hApart
    have hStart : CaptureInvariant (calls.map CaptureCall.event) [] service :=
      ⟨by simp, by simp [hNew, MetadataOutbox.new], fun before call target after hSplit => by simp at hSplit⟩
    have hAdmits : AllSteps captureStep (fun _ call => call.event ∈ calls.map CaptureCall.event) service calls :=
      allSteps_of_forall fun _ call hCall => List.mem_map_of_mem hCall
    have hRun := run_history_of_allSteps
      (fun past state call => CaptureInvariant.step hEvents past state call) hStart hAdmits
    exact hRun.itself

/-- A provenance event with the given identifiers. -/
def sampleCapture (dataIndividualId metadataEventId : String) : CaptureCall where
  read := .error "not configured"
  event := .new ⟨metadataEventId⟩ ⟨dataIndividualId⟩ 5 ⟨"tenant"⟩ ⟨"prod"⟩ ⟨"pipeline"⟩ ⟨"instance"⟩
    ⟨"2026-06-30T10:00:00Z"⟩ .received

/-- A service without a control plane on a new outbox. -/
def sampleService : MetadataService :=
  .new Daemon.mapBefore (.new "v1")
    ⟨.new, ⟨⟨"outbox"⟩, ⟨"node-a"⟩, .ofString "outbox.seg", segmentMagic, 0, segmentMagic.length, 0⟩⟩

theorem not_shifted_of_not_mem {left right : String × String} (h : ':' ∉ left.2.toList) : ¬Shifted left right := by
  rintro ⟨part, -, hSecond⟩
  rw [hSecond, toList_colon] at h
  exact h (List.mem_append_right _ List.mem_cons_self)

/-- One event captured twice, and another one of the same data individual. -/
theorem captures_deduplicate_themselves_repeated :
    (run captureStep sampleService [sampleCapture "data-1" "meta-1", sampleCapture "data-1" "meta-2",
      sampleCapture "data-1" "meta-1"]).1.map
        (fun call => call.2.toOption.map fun capture => decide (capture.result = .duplicate)) =
      [some false, some false, some true] ∧
    DeduplicatesItself (run captureStep sampleService [sampleCapture "data-1" "meta-1",
      sampleCapture "data-1" "meta-2", sampleCapture "data-1" "meta-1"]).1 := by
  have hDeduplicates := fun calls => (captures_deduplicate_themselves (sampleCapture "data-1" "meta-1").event
    (sampleCapture "data-1" "meta-2").event sampleService calls).2 rfl
  refine ⟨by decide +kernel, hDeduplicates _ fun left hLeft right _ => ?_⟩
  apply not_shifted_of_not_mem
  rcases List.mem_cons.mp hLeft with rfl | hLeft
  · decide
  · rcases List.mem_cons.mp hLeft with rfl | hLeft
    · decide
    · rw [List.mem_singleton.mp hLeft]
      decide

/-- Both captures have the key `a:b:c`, and the second one is dropped. -/
theorem captures_collide :
    (captureStep sampleService (sampleCapture "a:b" "c")).1 = .ok ⟨⟨"ipto-a"⟩, .enqueued 8⟩ ∧
    (captureStep (captureStep sampleService (sampleCapture "a:b" "c")).2 (sampleCapture "a" "b:c")).1 =
      .ok ⟨⟨"ipto-a"⟩, .duplicate⟩ ∧
    ¬∀ (service : MetadataService) (calls : List CaptureCall),
      service.metadataOutbox.outbox = MetadataOutbox.new → DeduplicatesItself (run captureStep service calls).1 := by
  have hDuplicate : (captureStep (captureStep sampleService (sampleCapture "a:b" "c")).2
      (sampleCapture "a" "b:c")).1 = .ok ⟨⟨"ipto-a"⟩, .duplicate⟩ := by decide +kernel
  refine ⟨by decide +kernel, hDuplicate, fun h => ?_⟩
  obtain ⟨call, result, hMem, hSame⟩ := h sampleService [sampleCapture "a:b" "c", sampleCapture "a" "b:c"] rfl
    [(sampleCapture "a:b" "c", (captureStep sampleService (sampleCapture "a:b" "c")).1)]
    (sampleCapture "a" "b:c") ⟨"ipto-a"⟩ [] (by rw [← hDuplicate]; rfl)
  obtain ⟨rfl, -⟩ := Prod.mk.inj (List.mem_singleton.mp hMem)
  exact absurd hSame (by decide)

end Vannak.Service
