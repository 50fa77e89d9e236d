import Vannak.Ipto.CheckpointRecovery
import Vannak.Service.Capture

/-!
# The metadata service around its outbox

The methods of `VannakService` by which the background writer reaches the outbox: draining
one target under its lease, the acknowledged checkpoints, and creation and recovery of the
service on a segment.
-/

namespace Vannak.Ipto

open Foundation Storage

set_option autoImplicit false

/-- The body of the loop of `replay_provenance`. -/
def replayFact (index : DataProvenanceIndex) (record : SegmentRecord) :
    Except MetadataOutboxStorageError DataProvenanceIndex :=
  match IptoWritePayload.decode record.payload with
  | .error error => .error (.payloadDecode error)
  | .ok payload =>
    match payload.provenance with
    | some event => .ok (index.ingest event).2
    | none => .ok index

/-- Replays the original metadata facts, including acknowledged records. -/
def replayProvenance (file : Bytes) : Except MetadataOutboxStorageError DataProvenanceIndex := do
  let reader ← (SegmentReader.openFile file).mapError .segment
  reader.whileSome .segment (fun index record _ => replayFact index record) DataProvenanceIndex.new

theorem replayProvenance_isOk {writer : SegmentWriter} {payloads : List IptoWritePayload}
    (hHolds : writer.Holds (payloads.map IptoWritePayload.encode)) :
    ∃ index, replayProvenance writer.file = .ok index := by
  have hFact : ∀ record ∈ recordsFrom 8 (payloads.map IptoWritePayload.encode),
      ∀ index, ∃ next, replayFact index record = .ok next := by
    intro record hRecord index
    obtain ⟨payload, -, hDecode⟩ := decode_of_mem_recordsFrom hHolds.sized hRecord
    rw [replayFact, hDecode]
    dsimp only
    split
    · exact ⟨_, rfl⟩
    · exact ⟨_, rfl⟩
  obtain ⟨index, hIndex⟩ := foldlM_isOk hFact DataProvenanceIndex.new
  refine ⟨index, ?_⟩
  rw [replayProvenance, hHolds.file, segmentBytes, openFile_segment]
  exact (SegmentReader.whileSome_frames .segment (fun index record _ => replayFact index record)
    hHolds.sized 8 replayFact (fun _ _ _ => rfl) _).trans hIndex

end Vannak.Ipto

namespace Vannak.Service

open Foundation Storage Ipto Cluster

set_option autoImplicit false

namespace MetadataService

/-- `metadata_outbox_mut().outbox_mut()` with what is done to it. -/
def withOutbox (service : MetadataService) (outbox : MetadataOutbox) : MetadataService :=
  { service with metadataOutbox := { service.metadataOutbox with outbox } }

def create (placementMap : IptoPlacementMap) (mapping : IptoMapping) (existing : Option Bytes) (path : PathBuf)
    (segmentId : SegmentId) (nodeId : NodeId) : Except MetadataOutboxStorageError MetadataService := do
  let metadataOutbox ← SegmentBackedMetadataOutbox.create existing path segmentId nodeId
  return .new placementMap mapping metadataOutbox

/-- `file` is the content found under the path. -/
def recoverAfter (placementMap : IptoPlacementMap) (mapping : IptoMapping) (file : Bytes) (path : PathBuf)
    (segmentId : SegmentId) (nodeId : NodeId) (checkpointOffset : Option Nat) :
    Except MetadataOutboxStorageError (MetadataService × MetadataOutboxReplaySummary) := do
  let provenanceIndex ← replayProvenance file
  let (metadataOutbox, summary) ←
    SegmentBackedMetadataOutbox.recoverAfter file path segmentId nodeId checkpointOffset
  return ({ MetadataService.new placementMap mapping metadataOutbox with provenanceIndex }, summary)

section Delivery

variable {ω : Type} (writer : IptoWriter ω)

def drainMetadataForTarget (service : MetadataService) (target : IptoInstanceId) (remote : ω)
    (maxAttempts : Nat) : MetadataOutboxDrainSummary × MetadataService × ω :=
  let (summary, outbox, remote) :=
    drainPendingOutboxForTarget writer target service.metadataOutbox.outbox remote maxAttempts
  (summary, service.withOutbox outbox, remote)

def drainMetadataForTargetIfLeaseHeld (service : MetadataService) (controlState : ClusterControlState)
    (nodeId : NodeId) (target : IptoInstanceId) (remote : ω) (maxAttempts : Nat) :
    Except CaptureError MetadataOutboxDrainSummary × MetadataService × ω :=
  match controlState.writerLease target with
  | none => (.error (.writerLeaseNotHeld target nodeId), service, remote)
  | some lease =>
    if lease.holder ≠ nodeId then (.error (.writerLeaseNotHeld target nodeId), service, remote)
    else
      let (summary, service, remote) := service.drainMetadataForTarget writer target remote maxAttempts
      (.ok summary, service, remote)

end Delivery

def acknowledgedCheckpointsForTarget (service : MetadataService) (target : IptoInstanceId)
    (epoch : CheckpointEpoch) : List MetadataOutboxCheckpoint :=
  service.metadataOutbox.acknowledgedCheckpointsForTarget target epoch

end MetadataService

end Vannak.Service
