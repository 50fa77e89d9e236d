import Vannak.Foundation.Run
import Vannak.Cluster.Placement
import Vannak.Storage.Segment

/-!
# Cluster control state

The reducer of `cluster.rs` that a Raft state machine applies to committed commands.
`apply` takes the state by mutable reference and returns a `Result`, so the model
returns both: what is left of the state after an error is a matter of proof.
-/

namespace Vannak.Cluster

open Foundation Storage

set_option autoImplicit false

structure WriterLease where
  target : IptoInstanceId
  holder : NodeId
  epoch : LeaseEpoch
deriving DecidableEq, Repr

structure MetadataOutboxCheckpoint where
  dataIndividualShardId : DataIndividualShardId
  target : IptoInstanceId
  segmentId : SegmentId
  lastAcknowledgedOffset : Nat
  mappingVersion : String
  epoch : CheckpointEpoch
deriving DecidableEq, Repr

/-- Shard-level recovery checkpoint replicated through Raft. -/
structure CheckpointManifest where
  checkpointId : String
  nodeId : NodeId
  epoch : CheckpointEpoch
  segmentOffsets : BTreeMap SegmentId Nat
  metadataVersion : Option String
  checksum : UInt64
deriving DecidableEq

/-- `MAX_PLACEMENT_HISTORY`. -/
def maxPlacementHistory : Nat := 5

instance checkpointKeyOrd : Std.TransOrd (DataIndividualShardId × IptoInstanceId) := inferInstance

structure ClusterControlState where
  nodes : BTreeSet NodeId
  placementMaps : BTreeMap PlacementEpoch IptoPlacementMap
  writerLeases : BTreeMap IptoInstanceId WriterLease
  outboxCheckpoints : BTreeMap (DataIndividualShardId × IptoInstanceId) MetadataOutboxCheckpoint
  sealedSegments : BTreeMap SegmentId SegmentManifest
  checkpoints : BTreeMap String CheckpointManifest

inductive ClusterControlCommand where
  | addNode (nodeId : NodeId)
  | removeNode (nodeId : NodeId)
  | setIptoPlacementMap (map : IptoPlacementMap)
  | grantWriterLease (lease : WriterLease)
  | recordOutboxCheckpoint (checkpoint : MetadataOutboxCheckpoint)
  | recordSealedSegment (manifest : SegmentManifest)
  | recordCheckpoint (checkpoint : CheckpointManifest)
deriving DecidableEq

namespace ClusterControlState

def new : ClusterControlState := ⟨∅, ∅, ∅, ∅, ∅, ∅⟩

/-- The current (latest-epoch) placement map, `values().next_back()`. -/
def placementMap (state : ClusterControlState) : Option IptoPlacementMap :=
  (state.placementMaps.toList.map Prod.snd).getLast?

def writerLease (state : ClusterControlState) (target : IptoInstanceId) : Option WriterLease :=
  state.writerLeases[target]?

def outboxCheckpoint (state : ClusterControlState) (shardId : DataIndividualShardId) (target : IptoInstanceId) :
    Option MetadataOutboxCheckpoint :=
  state.outboxCheckpoints[(shardId, target)]?

/-- The check that four commands make: the epoch of the stored record, if the proposed
epoch is not above it. -/
def staleEpoch {α : Type} (epochOf : α → UInt64) (stored : Option α) (proposed : UInt64) : Option UInt64 :=
  match stored with
  | some current => if proposed ≤ epochOf current then some (epochOf current) else none
  | none => none

/-- The pruning loop; each round removes the oldest map. -/
def prune : Nat → BTreeMap PlacementEpoch IptoPlacementMap → BTreeMap PlacementEpoch IptoPlacementMap
  | 0, maps => maps
  | fuel + 1, maps =>
    if maxPlacementHistory < maps.size then
      match maps.minKey? with
      | none => maps
      | some oldest => prune fuel (maps.erase oldest)
    else maps

def insertPlacementMap (state : ClusterControlState) (map : IptoPlacementMap) :
    Except ClusterControlError Unit × ClusterControlState :=
  match staleEpoch IptoPlacementMap.epoch state.placementMap map.epoch with
  | some current => (.error (.stalePlacementEpoch current map.epoch), state)
  | none =>
    let placementMaps := state.placementMaps.insert map.epoch map
    (.ok (), { state with placementMaps := prune placementMaps.size placementMaps })

def apply (state : ClusterControlState) :
    ClusterControlCommand → Except ClusterControlError Unit × ClusterControlState
  | .addNode nodeId => (.ok (), { state with nodes := state.nodes.insert nodeId })
  | .removeNode nodeId => (.ok (), { state with
      nodes := state.nodes.erase nodeId
      writerLeases := state.writerLeases.filter fun _ lease => lease.holder ≠ nodeId })
  | .setIptoPlacementMap map => state.insertPlacementMap map
  | .grantWriterLease lease =>
    if lease.holder ∉ state.nodes then (.error (.unknownLeaseHolder lease.holder), state)
    else
      match staleEpoch WriterLease.epoch state.writerLeases[lease.target]? lease.epoch with
      | some current => (.error (.staleLeaseEpoch lease.target current lease.epoch), state)
      | none => (.ok (), { state with writerLeases := state.writerLeases.insert lease.target lease })
  | .recordOutboxCheckpoint checkpoint =>
    let key := (checkpoint.dataIndividualShardId, checkpoint.target)
    match staleEpoch MetadataOutboxCheckpoint.epoch state.outboxCheckpoints[key]? checkpoint.epoch with
    | some current =>
      (.error (.staleCheckpointEpoch checkpoint.dataIndividualShardId checkpoint.target current
        checkpoint.epoch), state)
    | none => (.ok (), { state with outboxCheckpoints := state.outboxCheckpoints.insert key checkpoint })
  | .recordSealedSegment manifest => (.ok (), { state with
      sealedSegments := state.sealedSegments.insert manifest.segmentId manifest })
  | .recordCheckpoint checkpoint =>
    match staleEpoch CheckpointManifest.epoch state.checkpoints[checkpoint.checkpointId]?
        checkpoint.epoch with
    | some current =>
      (.error (.staleCheckpointManifest checkpoint.checkpointId current checkpoint.epoch), state)
    | none => (.ok (), { state with
        checkpoints := state.checkpoints.insert checkpoint.checkpointId checkpoint })

theorem staleEpoch_eq_none {α : Type} {epochOf : α → UInt64} {stored : Option α} {proposed : UInt64} :
    staleEpoch epochOf stored proposed = none ↔ ∀ current, stored = some current → epochOf current < proposed := by
  cases stored with
  | none => simp [staleEpoch]
  | some current =>
    simp only [staleEpoch, Option.some.injEq, forall_eq']
    split
    · rename_i hStale
      simp [UInt64.not_lt.mpr hStale]
    · rename_i hNewer
      simp [UInt64.not_le.mp hNewer]

theorem placementMap_eq (state : ClusterControlState) :
    state.placementMap = state.placementMaps.maxKey?.bind fun epoch => state.placementMaps[epoch]? := by
  rw [placementMap, List.getLast?_map, Std.ExtTreeMap.maxKey?_eq_getLast?_keys,
    ← Std.ExtTreeMap.map_fst_toList_eq_keys, List.getLast?_map]
  cases hLast : state.placementMaps.toList.getLast? with
  | none => rfl
  | some binding =>
    have hMem := List.mem_of_getLast? hLast
    exact (Std.ExtTreeMap.mem_toList_iff_getElem?_eq_some.mp hMem).symm

/-! ## What a command can do -/

/-- An accepted command with the state it leads to. -/
inductive Accepts (state : ClusterControlState) : ClusterControlCommand → ClusterControlState → Prop where
  | addNode (nodeId : NodeId) :
    Accepts state (.addNode nodeId) { state with nodes := state.nodes.insert nodeId }
  | removeNode (nodeId : NodeId) :
    Accepts state (.removeNode nodeId) { state with
      nodes := state.nodes.erase nodeId
      writerLeases := state.writerLeases.filter fun _ lease => lease.holder ≠ nodeId }
  | setIptoPlacementMap (map : IptoPlacementMap)
    (hNewer : ∀ current, state.placementMap = some current → current.epoch < map.epoch) :
    Accepts state (.setIptoPlacementMap map) { state with
      placementMaps :=
        prune (state.placementMaps.insert map.epoch map).size (state.placementMaps.insert map.epoch map) }
  | grantWriterLease (lease : WriterLease) (hHolder : lease.holder ∈ state.nodes)
    (hNewer : ∀ current : WriterLease,
      state.writerLeases[lease.target]? = some current → current.epoch < lease.epoch) :
    Accepts state (.grantWriterLease lease) { state with
      writerLeases := state.writerLeases.insert lease.target lease }
  | recordOutboxCheckpoint (checkpoint : MetadataOutboxCheckpoint)
    (hNewer : ∀ current : MetadataOutboxCheckpoint,
      state.outboxCheckpoints[(checkpoint.dataIndividualShardId, checkpoint.target)]? = some current →
        current.epoch < checkpoint.epoch) :
    Accepts state (.recordOutboxCheckpoint checkpoint) { state with
      outboxCheckpoints := state.outboxCheckpoints.insert
        (checkpoint.dataIndividualShardId, checkpoint.target) checkpoint }
  | recordSealedSegment (manifest : SegmentManifest) :
    Accepts state (.recordSealedSegment manifest) { state with
      sealedSegments := state.sealedSegments.insert manifest.segmentId manifest }
  | recordCheckpoint (checkpoint : CheckpointManifest)
    (hNewer : ∀ current : CheckpointManifest,
      state.checkpoints[checkpoint.checkpointId]? = some current → current.epoch < checkpoint.epoch) :
    Accepts state (.recordCheckpoint checkpoint) { state with
      checkpoints := state.checkpoints.insert checkpoint.checkpointId checkpoint }

/-- A command is accepted, or it is refused and the state is the one before. -/
theorem apply_cases (state : ClusterControlState) (command : ClusterControlCommand) :
    (∃ next, state.apply command = (.ok (), next) ∧ Accepts state command next) ∨
      ∃ error, state.apply command = (.error error, state) := by
  cases command with
  | addNode nodeId => exact .inl ⟨_, rfl, .addNode nodeId⟩
  | removeNode nodeId => exact .inl ⟨_, rfl, .removeNode nodeId⟩
  | setIptoPlacementMap map =>
    rw [apply, insertPlacementMap]
    split
    · exact .inr ⟨_, rfl⟩
    · rename_i hNewer
      exact .inl ⟨_, rfl, .setIptoPlacementMap map (staleEpoch_eq_none.mp hNewer)⟩
  | grantWriterLease lease =>
    rw [apply]
    split
    · exact .inr ⟨_, rfl⟩
    rename_i hHolder
    split
    · exact .inr ⟨_, rfl⟩
    · rename_i hNewer
      exact .inl ⟨_, rfl, .grantWriterLease lease (not_not.mp hHolder) (staleEpoch_eq_none.mp hNewer)⟩
  | recordOutboxCheckpoint checkpoint =>
    rw [apply]
    split
    · exact .inr ⟨_, rfl⟩
    · rename_i hNewer
      exact .inl ⟨_, rfl, .recordOutboxCheckpoint checkpoint (staleEpoch_eq_none.mp hNewer)⟩
  | recordSealedSegment manifest => exact .inl ⟨_, rfl, .recordSealedSegment manifest⟩
  | recordCheckpoint checkpoint =>
    rw [apply]
    split
    · exact .inr ⟨_, rfl⟩
    · rename_i hNewer
      exact .inl ⟨_, rfl, .recordCheckpoint checkpoint (staleEpoch_eq_none.mp hNewer)⟩

/-- Conversely the guards are all that is checked. -/
theorem Accepts.apply_eq {state next : ClusterControlState} {command : ClusterControlCommand}
    (h : Accepts state command next) : state.apply command = (.ok (), next) := by
  cases h with
  | addNode nodeId => rfl
  | removeNode nodeId => rfl
  | setIptoPlacementMap map hNewer =>
    rw [apply, insertPlacementMap, staleEpoch_eq_none.mpr hNewer]
  | grantWriterLease lease hHolder hNewer =>
    rw [apply, if_neg (not_not.mpr hHolder), staleEpoch_eq_none.mpr hNewer]
  | recordOutboxCheckpoint checkpoint hNewer =>
    rw [apply]
    rw [staleEpoch_eq_none.mpr hNewer]
  | recordSealedSegment manifest => rfl
  | recordCheckpoint checkpoint hNewer => rw [apply, staleEpoch_eq_none.mpr hNewer]

end ClusterControlState

end Vannak.Cluster
