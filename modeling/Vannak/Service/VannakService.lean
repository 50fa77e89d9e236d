import Vannak.Runtime.Fanout
import Vannak.Runtime.Totals
import Vannak.Service.LocalIndex
import Vannak.Service.ProvenanceScans

/-!
# The whole service

`VannakService` of `service.rs` over either kind of `ProcessIndex`. Over a local index its process side is the
service of `LocalIndex`, over a Sitas runtime the supervisor, and its metadata side is the same over both.
-/

namespace Vannak.Runtime

open Foundation Process

set_option autoImplicit false

namespace ProcessIndex

variable {config : SitasRuntimeConfig}

/-- A Sitas runtime reports an ingest error as one of its own. -/
def ingest : ProcessIndex config → PipelineEvent →
    Except Service.VannakServiceError IngestOutcome × ProcessIndex config
  | localIndex index, event =>
    let (outcome, index) := index.ingest event
    (outcome.mapError .processIngest, localIndex index)
  | sitasIndex runtime, event =>
    let (outcome, runtime) := runtime.ingest event
    (outcome.mapError fun error => .runtime (.ingest error), sitasIndex runtime)

def containsEvent : ProcessIndex config → PipelineEvent → Bool
  | localIndex index, event => index.containsEvent event.eventId
  | sitasIndex runtime, event => runtime.containsEvent event.processInstanceId event.eventId

def processInstance : ProcessIndex config → ProcessInstanceId → Option ProcessInstanceSnapshot
  | localIndex index, id => index.processInstance id
  | sitasIndex runtime, id => runtime.processInstance id

section Queries

variable (mapAll : ∀ β : Type, SitasShardRuntime.MapAll config β)

def pipelineInstances : ProcessIndex config → PipelineQuery → List ProcessInstanceSnapshot
  | localIndex index, query => index.pipelineInstances query
  | sitasIndex runtime, query => runtime.pipelineInstances (mapAll _) query

def processInstancesByStatus : ProcessIndex config → ProcessStatusQuery → List ProcessInstanceSnapshot
  | localIndex index, query => index.processInstancesByStatus query
  | sitasIndex runtime, query => runtime.processInstancesByStatus (mapAll _) query

end Queries

end ProcessIndex

end Vannak.Runtime

namespace Vannak.Service

open Foundation Storage Ingest Process Vannak.Runtime Ipto Cluster Daemon

set_option autoImplicit false

structure VannakService (config : SitasRuntimeConfig) where
  hotIndex : ProcessIndex config
  processEventJournal : Option ProcessEventJournal
  metadata : MetadataService

namespace VannakService

variable {config : SitasRuntimeConfig}

def new (metadata : MetadataService) : VannakService config := ⟨.localIndex .new, none, metadata⟩

def withProcessEventJournal (service : VannakService config) (journal : ProcessEventJournal) : VannakService config :=
  { service with processEventJournal := some journal }

/-- `none` is `ProcessIndexAlreadyPopulated`. -/
def withSitasRuntime (mapAll : SitasShardRuntime.MapAll config HotIndexSnapshot) (service : VannakService config)
    (runtime : SitasShardRuntime config) : Option (VannakService config) :=
  if (service.hotIndex.snapshot mapAll).eventCount ≠ 0 then none
  else some { service with hotIndex := .sitasIndex runtime }

def ingestProcessEvent (service : VannakService config) (event : PipelineEvent) :
    Except VannakServiceError IngestOutcome × VannakService config :=
  let (outcome, hotIndex) := service.hotIndex.ingest event
  (outcome, { service with hotIndex })

def ingestProcessEventDurable (service : VannakService config) (event : PipelineEvent) :
    Except VannakServiceError DurableProcessIngestResult × VannakService config :=
  match event.validate with
  | .error error => (.error (.processIngest error), service)
  | .ok () =>
    match service.processEventJournal with
    | none => (.error .processEventJournalNotConfigured, service)
    | some journal =>
      if service.hotIndex.containsEvent event then
        (.ok ⟨.duplicate, journal.writer.manifest.byteLen⟩, service)
      else
        match journal.appendDurable event with
        | (.error error, journal) =>
          (.error (.processEventJournal error), { service with processEventJournal := some journal })
        | (.ok offset, journal) =>
          match service.hotIndex.ingest event with
          | (.error error, hotIndex) => (.error error, { service with hotIndex, processEventJournal := some journal })
          | (.ok outcome, hotIndex) => (.ok ⟨outcome, offset⟩,
              { service with hotIndex, processEventJournal := some journal })

/-- The configured journal determines whether public ingest is durable. -/
def ingestProcessEventConfigured (service : VannakService config) (event : PipelineEvent) :
    Except VannakServiceError IngestOutcome × VannakService config :=
  if service.processEventJournal.isSome then
    let (result, service) := service.ingestProcessEventDurable event
    (result.map DurableProcessIngestResult.outcome, service)
  else service.ingestProcessEvent event

def captureMetadataEvent (service : VannakService config) (read : Except String ClusterControlState)
    (event : DataIndividualMetadataEvent) : Except CaptureError MetadataCaptureResult × VannakService config :=
  let (result, metadata) := service.metadata.captureMetadataEvent read event
  (result, { service with metadata })

/-! ## Over a local index -/

def ofLocal (service : LocalService) (metadata : MetadataService) : VannakService config :=
  ⟨.localIndex service.hotIndex, service.processEventJournal, metadata⟩

theorem ingestProcessEventDurable_ofLocal (service : LocalService) (metadata : MetadataService)
    (event : PipelineEvent) :
    (@ofLocal config service metadata).ingestProcessEventDurable event =
      ((service.ingestProcessEventDurable event).1, ofLocal (service.ingestProcessEventDurable event).2 metadata) := by
  obtain ⟨hotIndex, processEventJournal⟩ := service
  rw [ofLocal, ingestProcessEventDurable, LocalService.ingestProcessEventDurable]
  cases event.validate with
  | error error => rfl
  | ok =>
    cases processEventJournal with
    | none => rfl
    | some journal =>
      dsimp only
      have hContains : (@ProcessIndex.localIndex config hotIndex).containsEvent event =
          hotIndex.containsEvent event.eventId := rfl
      by_cases hKnown : hotIndex.containsEvent event.eventId = true
      · rw [if_pos (hContains.trans hKnown), if_pos hKnown]
        rfl
      · rw [if_neg (hContains ▸ hKnown), if_neg hKnown]
        rcases journal.appendDurable event with ⟨error | offset, next⟩
        · rfl
        · simp only [ProcessIndex.ingest]
          rcases hotIndex.ingest event with ⟨error | outcome, index⟩
          · rfl
          · rfl

/-! ## Over a Sitas runtime -/

def ofSupervisor (supervisor : Supervisor config) (metadata : MetadataService) : VannakService config :=
  ⟨.sitasIndex supervisor.hotIndex, supervisor.processEventJournal, metadata⟩

theorem ingestProcessEventDurable_ofSupervisor (supervisor : Supervisor config) (metadata : MetadataService)
    (event : PipelineEvent) :
    (ofSupervisor supervisor metadata).ingestProcessEventDurable event =
      ((supervisor.ingestProcessEventDurable event).1,
        ofSupervisor (supervisor.ingestProcessEventDurable event).2 metadata) := by
  obtain ⟨hotIndex, processEventJournal, refused⟩ := supervisor
  rw [ofSupervisor, ingestProcessEventDurable, Supervisor.ingestProcessEventDurable]
  cases event.validate with
  | error error => rfl
  | ok =>
    cases processEventJournal with
    | none => rfl
    | some journal =>
      dsimp only
      have hContains : (@ProcessIndex.sitasIndex config hotIndex).containsEvent event =
          hotIndex.containsEvent event.processInstanceId event.eventId := rfl
      by_cases hKnown : hotIndex.containsEvent event.processInstanceId event.eventId = true
      · rw [if_pos (hContains.trans hKnown), if_pos hKnown]
        rfl
      · rw [if_neg (hContains ▸ hKnown), if_neg hKnown]
        rcases journal.appendDurable event with ⟨error | offset, next⟩
        · rfl
        · simp only [ProcessIndex.ingest]
          rcases hotIndex.ingest event with ⟨error | outcome, index⟩
          · rfl
          · rfl

end VannakService

end Vannak.Service
