import Vannak.Cluster.Snapshot

/-!
# Round trips of commands and snapshots

What the checked constructors built passes them again: sorting sorted overrides changes
nothing and the ring is rebuilt from the same slots. A snapshot lists each map in the
order of its keys, so replaying it meets every check of the reducer, provided that the
state is consistent.
-/

namespace Vannak.Cluster

open Foundation Storage

set_option autoImplicit false

/-! ## Placement maps -/

/-- Reading back, one by one, what was written reads the whole list back. -/
theorem mapM_map_eq_ok {α β ε : Type} {write : α → β} {read : β → Except ε α} {items : List α}
    (h : ∀ item ∈ items, read (write item) = .ok item) : (items.map write).mapM read = .ok items := by
  induction items with
  | nil => rfl
  | cons item items ih =>
    obtain ⟨hItem, hItems⟩ := List.forall_mem_cons.mp h
    rw [List.map_cons, List.mapM_cons, hItem, ih hItems]
    rfl

theorem fromSerMap_toSerMap {map : IptoPlacementMap} (h : map.Built) :
    fromSerMap (toSerMap map.epoch map) = .ok map := by
  have hSlots : fromSerSlots (toSerSlots map.slots) = .ok map.slots := mapM_map_eq_ok h.slot
  have hOverrides : fromSerOverrides (toSerOverrides map.overrides) = .ok map.overrides :=
    mapM_map_eq_ok h.override
  rw [fromSerMap, toSerMap, hSlots, hOverrides]
  exact congrArg (Except.mapError ClusterControlError.toText) (IptoPlacementMap.new_self h.ring_epoch)

/-- Whatever is decoded went through the constructors. -/
theorem ring_epoch_of_fromSerMap {data : SerPlacementMap} {map : IptoPlacementMap}
    (h : fromSerMap data = .ok map) : map.ring.epoch = map.epoch := by
  obtain ⟨slots, -, h⟩ := ok_of_bind h
  obtain ⟨overrides, -, h⟩ := ok_of_bind h
  cases hNew : IptoPlacementMap.new data.epoch slots overrides with
  | error error =>
    rw [hNew] at h
    cases h
  | ok built =>
    rw [hNew] at h
    cases h
    obtain ⟨hEpoch, -, hRing, -⟩ := IptoPlacementMap.eq_of_new hNew
    rw [hRing, hEpoch]
    rfl

/-! ## Commands -/

/-- Placement maps come from the constructors and the paths of segments are text. -/
abbrev ClusterControlCommand.Portable (command : ClusterControlCommand) : Prop :=
  ClusterControlState.Carries IptoPlacementMap.Built (fun manifest => manifest.path.IsUtf8) command

abbrev ClusterControlState.Portable (state : ClusterControlState) : Prop :=
  state.Stores IptoPlacementMap.Built fun manifest => manifest.path.IsUtf8

theorem fromSerSegmentManifest_toSerSegmentManifest {manifest : SegmentManifest}
    (h : manifest.path.IsUtf8) : fromSerSegmentManifest (toSerSegmentManifest manifest) = manifest := by
  simp only [fromSerSegmentManifest, toSerSegmentManifest, PathBuf.ofString_toStringLossy h]

theorem fromSerCheckpointManifest_toSerCheckpointManifest (checkpoint : CheckpointManifest) :
    fromSerCheckpointManifest (toSerCheckpointManifest checkpoint) = checkpoint := by
  simp only [fromSerCheckpointManifest, toSerCheckpointManifest, List.map_map]
  have hOffsets : (∅ : BTreeMap SegmentId Nat).insertMany checkpoint.segmentOffsets.toList =
      checkpoint.segmentOffsets := insertMany_toList _
  simp [Function.comp_def, hOffsets]

theorem fromSerCommand_toSerCommand {command : ClusterControlCommand} (h : command.Portable) :
    fromSerCommand (toSerCommand command) = .ok command := by
  cases command with
  | addNode | removeNode | grantWriterLease | recordOutboxCheckpoint => rfl
  | setIptoPlacementMap map =>
    rw [toSerCommand, fromSerCommand, fromSerMap_toSerMap h]
    rfl
  | recordSealedSegment manifest =>
    rw [toSerCommand, fromSerCommand, fromSerSegmentManifest_toSerSegmentManifest h]
  | recordCheckpoint checkpoint =>
    rw [toSerCommand, fromSerCommand, fromSerCheckpointManifest_toSerCheckpointManifest]

/-! ## Snapshots -/

theorem applyOrText_of_accepts {state next : ClusterControlState} {command : ClusterControlCommand}
    (h : state.Accepts command next) : applyOrText state command = .ok next := by
  rw [applyOrText, h.apply_eq]

theorem applyOrText_eq_ok {state next : ClusterControlState} {command : ClusterControlCommand}
    (h : applyOrText state command = .ok next) : state.Accepts command next := by
  rw [applyOrText] at h
  rcases state.apply_cases command with ⟨result, hApply, hAccepts⟩ | ⟨error, hApply⟩
  · rw [hApply] at h
    cases h
    exact hAccepts
  · rw [hApply] at h
    cases h

section Replay

variable {state : ClusterControlState}

theorem replay_placementMaps (h : state.Consistent) (hMaps : state.Portable) :
    ((toSerSnapshot state).placementMaps).foldlM (fun state mapData => do
      let map ← fromSerMap mapData
      applyOrText state (.setIptoPlacementMap map)) { ClusterControlState.new with nodes := state.nodes } =
    .ok { ClusterControlState.new with nodes := state.nodes, placementMaps := state.placementMaps } := by
  refine foldlM_toList
    (fun maps => { ClusterControlState.new with nodes := state.nodes, placementMaps := maps }) _ _ ?_
  intro built epoch map hMap hBuilt hSize
  have hKey := h.placement_key epoch map hMap
  have hRead : fromSerMap (toSerMap epoch map) = .ok map :=
    hKey ▸ fromSerMap_toSerMap (hMaps.placement epoch map hMap)
  rw [hRead]
  refine (applyOrText_of_accepts (.setIptoPlacementMap map fun current hCurrent => ?_)).trans ?_
  · rw [ClusterControlState.placementMap_eq] at hCurrent
    obtain ⟨last, -, hLast⟩ := Option.bind_eq_some_iff.mp hCurrent
    obtain ⟨hStored, hBelow⟩ := hBuilt last current hLast
    rw [h.placement_key last current hStored, hKey]
    exact Std.compare_eq_lt.mp hBelow
  · have hInserted : (built.insert map.epoch map).size ≤ maxPlacementHistory := by
      have hLe := Std.ExtTreeMap.size_insert_le (t := built) (k := map.epoch) (v := map)
      have hHistory := h.history
      omega
    rw [ClusterControlState.prune_of_size_le hInserted, hKey]

/-- A key comes once, so no earlier round can have stored a record under it. -/
theorem not_built {α β : Type} [Ord α] [Std.TransOrd α] {built map : BTreeMap α β} {key : α} {current : β}
    (hBuilt : ∀ (other : α) (found : β), built[other]? = some found →
      map[other]? = some found ∧ compare other key = .lt) : built[key]? ≠ some current := by
  intro hCurrent
  have hBelow := (hBuilt key current hCurrent).2
  rw [Std.ReflOrd.compare_self] at hBelow
  cases hBelow

theorem replay_writerLeases (h : state.Consistent) :
    ((toSerSnapshot state).writerLeases).foldlM
      (fun state lease => applyOrText state (.grantWriterLease (fromSerLease lease)))
      { ClusterControlState.new with nodes := state.nodes, placementMaps := state.placementMaps } =
    .ok { ClusterControlState.new with
      nodes := state.nodes, placementMaps := state.placementMaps, writerLeases := state.writerLeases } := by
  refine foldlM_toList (fun leases => { ClusterControlState.new with
    nodes := state.nodes, placementMaps := state.placementMaps, writerLeases := leases }) _ _ ?_
  intro built target lease hLease hBuilt _
  obtain rfl := h.lease_key target lease hLease
  exact applyOrText_of_accepts (.grantWriterLease lease (h.holder lease.target lease hLease)
    fun current hCurrent => absurd hCurrent (not_built hBuilt))

theorem replay_outboxCheckpoints (h : state.Consistent) :
    ((toSerSnapshot state).outboxCheckpoints).foldlM
      (fun state checkpoint =>
        applyOrText state (.recordOutboxCheckpoint (fromSerOutboxCheckpoint checkpoint)))
      { state with outboxCheckpoints := ∅, sealedSegments := ∅, checkpoints := ∅ } =
    .ok { state with sealedSegments := ∅, checkpoints := ∅ } := by
  refine foldlM_toList (fun checkpoints => { state with
    outboxCheckpoints := checkpoints, sealedSegments := ∅, checkpoints := ∅ }) _ _ ?_
  intro built key checkpoint hCheckpoint hBuilt _
  obtain rfl := h.checkpoint_key key checkpoint hCheckpoint
  exact applyOrText_of_accepts (.recordOutboxCheckpoint checkpoint
    fun current hCurrent => absurd hCurrent (not_built hBuilt))

theorem replay_sealedSegments (h : state.Consistent) (hPaths : state.Portable) :
    ((toSerSnapshot state).sealedSegments).foldlM
      (fun state manifest => applyOrText state (.recordSealedSegment (fromSerSegmentManifest manifest)))
      { state with sealedSegments := ∅, checkpoints := ∅ } =
    .ok { state with checkpoints := ∅ } := by
  refine foldlM_toList (fun segments => { state with sealedSegments := segments, checkpoints := ∅ }) _ _ ?_
  intro built segmentId manifest hManifest _ _
  obtain rfl := h.segment_key segmentId manifest hManifest
  rw [fromSerSegmentManifest_toSerSegmentManifest (hPaths.segment _ manifest hManifest)]
  exact applyOrText_of_accepts (.recordSealedSegment manifest)

theorem replay_checkpoints (h : state.Consistent) :
    ((toSerSnapshot state).checkpoints).foldlM
      (fun state checkpoint =>
        applyOrText state (.recordCheckpoint (fromSerCheckpointManifest checkpoint)))
      { state with checkpoints := ∅ } = .ok state := by
  refine foldlM_toList (fun checkpoints => { state with checkpoints := checkpoints }) _ _ ?_
  intro built checkpointId checkpoint hCheckpoint hBuilt _
  obtain rfl := h.manifest_key checkpointId checkpoint hCheckpoint
  rw [fromSerCheckpointManifest_toSerCheckpointManifest]
  exact applyOrText_of_accepts (.recordCheckpoint checkpoint
    fun current hCurrent => absurd hCurrent (not_built hBuilt))

theorem replay_nodes : ((toSerSnapshot state).nodes).foldlM
    (fun state node => applyOrText state (.addNode ⟨node⟩)) ClusterControlState.new =
    .ok { ClusterControlState.new with nodes := state.nodes } := by
  refine foldlM_toList_set (fun nodes => { ClusterControlState.new with nodes := nodes }) _ _ ?_
  intro built nodeId
  exact applyOrText_of_accepts (.addNode nodeId)

theorem replaySnapshot_toSerSnapshot (h : state.Consistent) (hStores : state.Portable) :
    replaySnapshot (toSerSnapshot state) = .ok state := by
  rw [replaySnapshot, replay_nodes]
  refine (ok_bind (replay_placementMaps h hStores) _).trans ?_
  refine (ok_bind (replay_writerLeases h) _).trans ?_
  refine (ok_bind (replay_outboxCheckpoints h) _).trans ?_
  refine (ok_bind (replay_sealedSegments h hStores) _).trans ?_
  exact replay_checkpoints h

end Replay

section Codec

variable {ε : Type} {serde : SerdeJson ε}

theorem decodeCommand_encodeCommand (hSerde : serde.RoundTrips) {command : ClusterControlCommand}
    (h : command.Portable) :
    ∃ bytes, encodeCommand serde command = .ok bytes ∧ decodeCommand serde bytes = .ok command := by
  obtain ⟨bytes, hWritten, hRead⟩ := hSerde.command ⟨toSerCommand command⟩
  refine ⟨bytes, hWritten, ?_⟩
  rw [decodeCommand, hRead]
  exact fromSerCommand_toSerCommand h

theorem decodeSnapshot_encodeSnapshot (hSerde : serde.RoundTrips) {state : ClusterControlState}
    (h : state.Consistent) (hStores : state.Portable) :
    ∃ bytes, encodeSnapshot serde state = .ok bytes ∧ decodeSnapshot serde bytes = .ok state := by
  obtain ⟨bytes, hWritten, hRead⟩ := hSerde.snapshot (toSerSnapshot state)
  refine ⟨bytes, hWritten, ?_⟩
  rw [decodeSnapshot, hRead]
  exact replaySnapshot_toSerSnapshot h hStores

end Codec

/-! ## Decoded states are reachable -/

/-- The rings of a command's map carry the epoch of the map. -/
abbrev ClusterControlCommand.RingEpochs (command : ClusterControlCommand) : Prop :=
  ClusterControlState.Carries (fun map => map.ring.epoch = map.epoch) (fun _ => True) command

/-- Some commands lead from one state to the other. -/
def ClusterControlState.Reaches (before after : ClusterControlState) : Prop :=
  ∃ commands : List ClusterControlCommand, (∀ command ∈ commands, command.RingEpochs) ∧
    (run ClusterControlState.apply before commands).2 = after

namespace ClusterControlState.Reaches

variable {first second third : ClusterControlState}

theorem trans (hFirst : first.Reaches second) (hSecond : second.Reaches third) : first.Reaches third := by
  obtain ⟨commands, hCommands, rfl⟩ := hFirst
  obtain ⟨others, hOthers, rfl⟩ := hSecond
  refine ⟨commands ++ others, List.forall_mem_append.mpr ⟨hCommands, hOthers⟩, ?_⟩
  rw [run_append]

theorem applyOrText {command : ClusterControlCommand} (h : applyOrText first command = .ok second)
    (hCommand : command.RingEpochs) : first.Reaches second := by
  refine ⟨[command], List.forall_mem_singleton.mpr hCommand, ?_⟩
  rw [run, (applyOrText_eq_ok h).apply_eq]
  rfl

theorem foldlM {γ : Type} {step : ClusterControlState → γ → Except String ClusterControlState}
    {items : List γ} (h : items.foldlM step first = .ok second)
    (hStep : ∀ state item next, step state item = .ok next → state.Reaches next) :
    first.Reaches second := by
  induction items generalizing first with
  | nil =>
    cases h
    exact ⟨[], by simp, rfl⟩
  | cons item items ih =>
    obtain ⟨next, hNext, hRest⟩ := ok_of_bind h
    exact (hStep first item next hNext).trans (ih hRest)

end ClusterControlState.Reaches

/-- Every element of a snapshot goes through the reducer, whatever the snapshot says. -/
theorem reaches_of_replaySnapshot {snapshot : SerClusterControlSnapshot} {state : ClusterControlState}
    (h : replaySnapshot snapshot = .ok state) : ClusterControlState.new.Reaches state := by
  obtain ⟨nodes, hNodes, h⟩ := ok_of_bind h
  obtain ⟨maps, hMaps, h⟩ := ok_of_bind h
  obtain ⟨leases, hLeases, h⟩ := ok_of_bind h
  obtain ⟨outbox, hOutbox, h⟩ := ok_of_bind h
  obtain ⟨segments, hSegments, hCheckpoints⟩ := ok_of_bind h
  have hAdded : ClusterControlState.new.Reaches nodes :=
    .foldlM hNodes fun _ _ _ hNext => .applyOrText hNext trivial
  have hPlaced : nodes.Reaches maps := by
    refine .foldlM hMaps fun state mapData next hNext => ?_
    obtain ⟨map, hMap, hApplied⟩ := ok_of_bind hNext
    exact .applyOrText hApplied (ring_epoch_of_fromSerMap hMap)
  have hGranted : maps.Reaches leases := .foldlM hLeases fun _ _ _ hNext => .applyOrText hNext trivial
  have hAcknowledged : leases.Reaches outbox :=
    .foldlM hOutbox fun _ _ _ hNext => .applyOrText hNext trivial
  have hSealed : outbox.Reaches segments :=
    .foldlM hSegments fun _ _ _ hNext => .applyOrText hNext trivial
  have hRecorded : segments.Reaches state :=
    .foldlM hCheckpoints fun _ _ _ hNext => .applyOrText hNext trivial
  exact hAdded.trans (hPlaced.trans (hGranted.trans (hAcknowledged.trans (hSealed.trans hRecorded))))

end Vannak.Cluster
