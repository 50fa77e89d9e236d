import Vannak.Cluster.Invariant

/-!
# Commands and snapshots as bytes

The mirror types of `raft_sm.rs` and the two codecs built on them. A snapshot is
decoded by replaying every element through the reducer. JSON itself is a parameter:
`serde_json` is not part of the repository, and all that is used of it is that the
mirror types round-trip and that a JSON string is never empty.
-/

namespace Vannak.Cluster

open Foundation Storage

set_option autoImplicit false

/-! ## Mirror types

A command variant that has the fields of a snapshot element is written with the same
structure. -/

structure SerPlacementSlot where
  instanceName : String
  vnodes : UInt32
deriving DecidableEq, Repr

structure SerPlacementRange where
  start : UInt64
  stop : UInt64
  target : String
deriving DecidableEq, Repr

structure SerPlacementMap where
  epoch : UInt64
  slots : List SerPlacementSlot
  overrides : List SerPlacementRange
deriving DecidableEq, Repr

structure SerWriterLease where
  target : String
  holder : String
  epoch : UInt64
deriving DecidableEq, Repr

structure SerOutboxCheckpoint where
  dataIndividualShardId : UInt64
  target : String
  segmentId : String
  lastAcknowledgedOffset : Nat
  mappingVersion : String
  epoch : UInt64
deriving DecidableEq, Repr

structure SerSegmentManifest where
  segmentId : String
  nodeId : String
  path : String
  recordCount : Nat
  byteLen : Nat
  checksum : UInt64
deriving DecidableEq, Repr

structure SerSegmentOffset where
  segmentId : String
  offset : Nat
deriving DecidableEq, Repr

structure SerCheckpointManifest where
  checkpointId : String
  nodeId : String
  epoch : UInt64
  segmentOffsets : List SerSegmentOffset
  metadataVersion : Option String
  checksum : UInt64
deriving DecidableEq, Repr

structure SerClusterControlSnapshot where
  nodes : List String
  placementMaps : List SerPlacementMap
  writerLeases : List SerWriterLease
  outboxCheckpoints : List SerOutboxCheckpoint
  sealedSegments : List SerSegmentManifest
  checkpoints : List SerCheckpointManifest
deriving DecidableEq, Repr

inductive SerCommandVariant where
  | addNode (nodeId : String)
  | removeNode (nodeId : String)
  | setIptoPlacementMap (map : SerPlacementMap)
  | grantWriterLease (lease : SerWriterLease)
  | recordOutboxCheckpoint (checkpoint : SerOutboxCheckpoint)
  | recordSealedSegment (manifest : SerSegmentManifest)
  | recordCheckpoint (checkpoint : SerCheckpointManifest)
deriving DecidableEq, Repr

structure SerClusterControlCommand where
  variant : SerCommandVariant
deriving DecidableEq, Repr

/-- What is used of `serde_json`: `to_vec` and `from_slice` at three types, and the
text of an error. -/
structure SerdeJson (ε : Type) where
  commandToVec : SerClusterControlCommand → Except ε Bytes
  commandFromSlice : Bytes → Except ε SerClusterControlCommand
  snapshotToVec : SerClusterControlSnapshot → Except ε Bytes
  snapshotFromSlice : Bytes → Except ε SerClusterControlSnapshot
  stringToVec : String → Except ε Bytes
  errorText : ε → String

/-- `serde_json` round-trips the mirror types, and a JSON string has its quotes. -/
structure SerdeJson.RoundTrips {ε : Type} (serde : SerdeJson ε) : Prop where
  command : ∀ command, ∃ bytes,
    serde.commandToVec command = .ok bytes ∧ serde.commandFromSlice bytes = .ok command
  snapshot : ∀ snapshot, ∃ bytes,
    serde.snapshotToVec snapshot = .ok bytes ∧ serde.snapshotFromSlice bytes = .ok snapshot
  string : ∀ text, ∃ bytes, serde.stringToVec text = .ok bytes ∧ bytes ≠ []

/-! ## Conversions -/

def toSerSlots (slots : List IptoPlacementSlot) : List SerPlacementSlot :=
  slots.map fun slot => ⟨slot.instanceId.asStr, slot.vnodes⟩

def fromSerSlots (slots : List SerPlacementSlot) : Except ClusterControlError (List IptoPlacementSlot) :=
  slots.mapM fun slot => IptoPlacementSlot.new ⟨slot.instanceName⟩ slot.vnodes

def toSerOverrides (ranges : List IptoPlacementRange) : List SerPlacementRange :=
  ranges.map fun range => ⟨range.start, range.stop, range.target.asStr⟩

def fromSerOverrides (ranges : List SerPlacementRange) :
    Except ClusterControlError (List IptoPlacementRange) :=
  ranges.mapM fun range => IptoPlacementRange.new range.start range.stop ⟨range.target⟩

def toSerMap (epoch : PlacementEpoch) (map : IptoPlacementMap) : SerPlacementMap :=
  ⟨epoch, toSerSlots map.slots, toSerOverrides map.overrides⟩

def fromSerMap (map : SerPlacementMap) : Except String IptoPlacementMap := do
  let slots ← (fromSerSlots map.slots).mapError ClusterControlError.toText
  let overrides ← (fromSerOverrides map.overrides).mapError ClusterControlError.toText
  (IptoPlacementMap.new map.epoch slots overrides).mapError ClusterControlError.toText

def toSerLease (target : IptoInstanceId) (lease : WriterLease) : SerWriterLease :=
  ⟨target.asStr, lease.holder.asStr, lease.epoch⟩

def fromSerLease (lease : SerWriterLease) : WriterLease := ⟨⟨lease.target⟩, ⟨lease.holder⟩, lease.epoch⟩

def toSerOutboxCheckpoint (key : DataIndividualShardId × IptoInstanceId)
    (checkpoint : MetadataOutboxCheckpoint) : SerOutboxCheckpoint where
  dataIndividualShardId := key.1
  target := key.2.asStr
  segmentId := checkpoint.segmentId.asStr
  lastAcknowledgedOffset := checkpoint.lastAcknowledgedOffset
  mappingVersion := checkpoint.mappingVersion
  epoch := checkpoint.epoch

def fromSerOutboxCheckpoint (checkpoint : SerOutboxCheckpoint) : MetadataOutboxCheckpoint where
  dataIndividualShardId := checkpoint.dataIndividualShardId
  target := ⟨checkpoint.target⟩
  segmentId := ⟨checkpoint.segmentId⟩
  lastAcknowledgedOffset := checkpoint.lastAcknowledgedOffset
  mappingVersion := checkpoint.mappingVersion
  epoch := checkpoint.epoch

def toSerSegmentManifest (manifest : SegmentManifest) : SerSegmentManifest where
  segmentId := manifest.segmentId.asStr
  nodeId := manifest.nodeId.asStr
  path := manifest.path.toStringLossy
  recordCount := manifest.recordCount
  byteLen := manifest.byteLen
  checksum := manifest.checksum

def fromSerSegmentManifest (manifest : SerSegmentManifest) : SegmentManifest where
  segmentId := ⟨manifest.segmentId⟩
  nodeId := ⟨manifest.nodeId⟩
  path := PathBuf.ofString manifest.path
  recordCount := manifest.recordCount
  byteLen := manifest.byteLen
  checksum := manifest.checksum

def toSerCheckpointManifest (checkpoint : CheckpointManifest) : SerCheckpointManifest where
  checkpointId := checkpoint.checkpointId
  nodeId := checkpoint.nodeId.asStr
  epoch := checkpoint.epoch
  segmentOffsets := checkpoint.segmentOffsets.toList.map fun (segmentId, offset) => ⟨segmentId.asStr, offset⟩
  metadataVersion := checkpoint.metadataVersion
  checksum := checkpoint.checksum

def fromSerCheckpointManifest (checkpoint : SerCheckpointManifest) : CheckpointManifest where
  checkpointId := checkpoint.checkpointId
  nodeId := ⟨checkpoint.nodeId⟩
  epoch := checkpoint.epoch
  segmentOffsets := (∅ : BTreeMap SegmentId Nat).insertMany
    (checkpoint.segmentOffsets.map fun segment => (⟨segment.segmentId⟩, segment.offset))
  metadataVersion := checkpoint.metadataVersion
  checksum := checkpoint.checksum

/-! ## Commands -/

def toSerCommand : ClusterControlCommand → SerCommandVariant
  | .addNode nodeId => .addNode nodeId.asStr
  | .removeNode nodeId => .removeNode nodeId.asStr
  | .setIptoPlacementMap map => .setIptoPlacementMap (toSerMap map.epoch map)
  | .grantWriterLease lease => .grantWriterLease (toSerLease lease.target lease)
  | .recordOutboxCheckpoint checkpoint =>
    .recordOutboxCheckpoint
      (toSerOutboxCheckpoint (checkpoint.dataIndividualShardId, checkpoint.target) checkpoint)
  | .recordSealedSegment manifest => .recordSealedSegment (toSerSegmentManifest manifest)
  | .recordCheckpoint checkpoint => .recordCheckpoint (toSerCheckpointManifest checkpoint)

def fromSerCommand : SerCommandVariant → Except String ClusterControlCommand
  | .addNode nodeId => .ok (.addNode ⟨nodeId⟩)
  | .removeNode nodeId => .ok (.removeNode ⟨nodeId⟩)
  | .setIptoPlacementMap map => do
    let map ← fromSerMap map
    return .setIptoPlacementMap map
  | .grantWriterLease lease => .ok (.grantWriterLease (fromSerLease lease))
  | .recordOutboxCheckpoint checkpoint =>
    .ok (.recordOutboxCheckpoint (fromSerOutboxCheckpoint checkpoint))
  | .recordSealedSegment manifest => .ok (.recordSealedSegment (fromSerSegmentManifest manifest))
  | .recordCheckpoint checkpoint => .ok (.recordCheckpoint (fromSerCheckpointManifest checkpoint))

section Codec

variable {ε : Type} (serde : SerdeJson ε)

def encodeCommand (command : ClusterControlCommand) : Except ε Bytes :=
  serde.commandToVec ⟨toSerCommand command⟩

def decodeCommand (data : Bytes) : Except String ClusterControlCommand := do
  let command ← (serde.commandFromSlice data).mapError serde.errorText
  fromSerCommand command.variant

/-! ## Snapshots -/

/-- Epochs, lease targets and checkpoint keys are taken from the keys of the maps. -/
def toSerSnapshot (state : ClusterControlState) : SerClusterControlSnapshot where
  nodes := state.nodes.toList.map StringId.asStr
  placementMaps := state.placementMaps.toList.map fun (epoch, map) => toSerMap epoch map
  writerLeases := state.writerLeases.toList.map fun (target, lease) => toSerLease target lease
  outboxCheckpoints :=
    state.outboxCheckpoints.toList.map fun (key, checkpoint) => toSerOutboxCheckpoint key checkpoint
  sealedSegments := state.sealedSegments.toList.map fun (_, manifest) => toSerSegmentManifest manifest
  checkpoints := state.checkpoints.toList.map fun (_, checkpoint) => toSerCheckpointManifest checkpoint

def encodeSnapshot (state : ClusterControlState) : Except ε Bytes :=
  serde.snapshotToVec (toSerSnapshot state)

/-- `state.apply(command).map_err(|e| e.to_string())?`. -/
def applyOrText (state : ClusterControlState) (command : ClusterControlCommand) :
    Except String ClusterControlState :=
  match state.apply command with
  | (.ok (), next) => .ok next
  | (.error error, _) => .error error.toText

def replaySnapshot (snapshot : SerClusterControlSnapshot) : Except String ClusterControlState := do
  let state ← snapshot.nodes.foldlM (fun state node => applyOrText state (.addNode ⟨node⟩))
    ClusterControlState.new
  let state ← snapshot.placementMaps.foldlM (fun state mapData => do
    let map ← fromSerMap mapData
    applyOrText state (.setIptoPlacementMap map)) state
  let state ← snapshot.writerLeases.foldlM
    (fun state lease => applyOrText state (.grantWriterLease (fromSerLease lease))) state
  let state ← snapshot.outboxCheckpoints.foldlM
    (fun state checkpoint =>
      applyOrText state (.recordOutboxCheckpoint (fromSerOutboxCheckpoint checkpoint))) state
  let state ← snapshot.sealedSegments.foldlM
    (fun state manifest => applyOrText state (.recordSealedSegment (fromSerSegmentManifest manifest))) state
  snapshot.checkpoints.foldlM
    (fun state checkpoint =>
      applyOrText state (.recordCheckpoint (fromSerCheckpointManifest checkpoint))) state

def decodeSnapshot (data : Bytes) : Except String ClusterControlState := do
  let snapshot ← (serde.snapshotFromSlice data).mapError serde.errorText
  replaySnapshot snapshot

end Codec

end Vannak.Cluster
