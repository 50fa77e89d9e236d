import Vannak.Foundation.OrderedMap
import Vannak.Cluster.Control

/-!
# Invariants of the control state

Every record is stored under its own key, every lease holder is a member, and at most
five placement maps are kept. Along a run the epochs of the current placement map, of
each outbox checkpoint and of each checkpoint manifest only grow.
-/

namespace Vannak.Cluster

open Foundation Storage

set_option autoImplicit false

namespace ClusterControlState

structure Consistent (state : ClusterControlState) : Prop where
  holder : ∀ (target : IptoInstanceId) (lease : WriterLease),
    state.writerLeases[target]? = some lease → lease.holder ∈ state.nodes
  lease_key : ∀ (target : IptoInstanceId) (lease : WriterLease),
    state.writerLeases[target]? = some lease → lease.target = target
  checkpoint_key : ∀ (key : DataIndividualShardId × IptoInstanceId) (checkpoint : MetadataOutboxCheckpoint),
    state.outboxCheckpoints[key]? = some checkpoint →
      (checkpoint.dataIndividualShardId, checkpoint.target) = key
  segment_key : ∀ (segmentId : SegmentId) (manifest : SegmentManifest),
    state.sealedSegments[segmentId]? = some manifest → manifest.segmentId = segmentId
  manifest_key : ∀ (checkpointId : String) (manifest : CheckpointManifest),
    state.checkpoints[checkpointId]? = some manifest → manifest.checkpointId = checkpointId
  placement_key : ∀ (epoch : PlacementEpoch) (map : IptoPlacementMap),
    state.placementMaps[epoch]? = some map → map.epoch = epoch
  history : state.placementMaps.size ≤ maxPlacementHistory

/-! ## Pruning -/

section Prune

variable {maps : BTreeMap PlacementEpoch IptoPlacementMap}

theorem getElem?_of_prune {fuel : Nat} {epoch : PlacementEpoch} {map : IptoPlacementMap}
    (h : (prune fuel maps)[epoch]? = some map) : maps[epoch]? = some map := by
  induction fuel generalizing maps with
  | zero => exact h
  | succ fuel ih =>
    rw [prune] at h
    split at h
    · split at h
      · exact h
      · have hErased := ih h
        rw [getElem?_erase_ite] at hErased
        split at hErased
        · cases hErased
        · exact hErased
    · exact h

theorem prune_of_size_le {fuel : Nat} (h : maps.size ≤ maxPlacementHistory) : prune fuel maps = maps := by
  cases fuel with
  | zero => rfl
  | succ fuel => rw [prune, if_neg (Nat.not_lt.mpr h)]

theorem size_prune_le {fuel : Nat} (h : maps.size ≤ fuel) :
    (prune fuel maps).size ≤ maxPlacementHistory := by
  induction fuel generalizing maps with
  | zero => exact h.trans (Nat.zero_le _)
  | succ fuel ih =>
    rw [prune]
    split
    · rename_i hLong
      obtain ⟨oldest, hOldest⟩ := exists_minKey? (Nat.zero_lt_of_lt hLong)
      rw [hOldest]
      refine ih ?_
      have hContains : maps.contains oldest = true :=
        Std.ExtTreeMap.contains_iff_mem.mpr (Std.ExtTreeMap.minKey?_mem hOldest)
      rw [Std.ExtTreeMap.size_erase, if_pos hContains]
      omega
    · rename_i hShort
      exact Nat.not_lt.mp hShort

theorem maxKey?_prune (fuel : Nat) : (prune fuel maps).maxKey? = maps.maxKey? := by
  induction fuel generalizing maps with
  | zero => rfl
  | succ fuel ih =>
    rw [prune]
    split
    · rename_i hLong
      have hSize : 1 < maps.size := lt_trans (by decide) hLong
      obtain ⟨oldest, hOldest⟩ := exists_minKey? (Nat.zero_lt_of_lt hSize)
      rw [hOldest]
      exact ih.trans (maxKey?_erase_minKey? hSize hOldest)
    · rfl

end Prune

/-! ## Consistency -/

theorem consistent_new : new.Consistent := by
  constructor <;> simp [new]

theorem Consistent.accepts {state next : ClusterControlState} {command : ClusterControlCommand}
    (h : state.Consistent) (hAccepts : Accepts state command next) : next.Consistent := by
  cases hAccepts with
  | addNode nodeId =>
    refine { h with holder := fun target lease hLease => ?_ }
    exact Std.ExtTreeSet.mem_insert.mpr (.inr (h.holder target lease hLease))
  | removeNode nodeId =>
    refine { h with holder := fun target lease hLease => ?_, lease_key := fun target lease hLease => ?_ }
    · obtain ⟨hStored, hKept⟩ := getElem?_filter_eq_some.mp hLease
      refine Std.ExtTreeSet.mem_erase.mpr ⟨fun hEq => ?_, h.holder target lease hStored⟩
      exact of_decide_eq_true hKept (Std.LawfulEqOrd.eq_of_compare hEq).symm
    · exact h.lease_key target lease (getElem?_filter_eq_some.mp hLease).1
  | setIptoPlacementMap map hNewer =>
    refine { h with placement_key := fun epoch stored hStored => ?_, history := size_prune_le le_rfl }
    exact forall_getElem?_insert h.placement_key rfl epoch stored (getElem?_of_prune hStored)
  | grantWriterLease lease hHolder hNewer =>
    exact { h with
      holder := forall_getElem?_insert h.holder hHolder
      lease_key := forall_getElem?_insert h.lease_key rfl }
  | recordOutboxCheckpoint checkpoint hNewer =>
    exact { h with checkpoint_key := forall_getElem?_insert h.checkpoint_key rfl }
  | recordSealedSegment manifest =>
    exact { h with segment_key := forall_getElem?_insert h.segment_key rfl }
  | recordCheckpoint checkpoint hNewer =>
    exact { h with manifest_key := forall_getElem?_insert h.manifest_key rfl }

theorem Consistent.apply {state : ClusterControlState} (h : state.Consistent)
    (command : ClusterControlCommand) : (state.apply command).2.Consistent := by
  rcases apply_cases state command with ⟨next, hApply, hAccepts⟩ | ⟨error, hApply⟩
  · rw [hApply]
    exact h.accepts hAccepts
  · rw [hApply]
    exact h

theorem consistent_run (commands : List ClusterControlCommand) :
    (run ClusterControlState.apply new commands).2.Consistent :=
  run_invariant (fun _ command h => h.apply command) consistent_new commands

/-! ## Growing epochs -/

/-- A record that is there stays there, or gives way to one with a greater epoch. -/
def Grows {α : Type} (epochOf : α → UInt64) (before after : Option α) : Prop :=
  ∀ current, before = some current →
    ∃ now, after = some now ∧ (now = current ∨ epochOf current < epochOf now)

theorem Grows.refl {α : Type} (epochOf : α → UInt64) (record : Option α) : Grows epochOf record record :=
  fun current hCurrent => ⟨current, hCurrent, .inl rfl⟩

theorem Grows.trans {α : Type} {epochOf : α → UInt64} {first second third : Option α}
    (hFirst : Grows epochOf first second) (hSecond : Grows epochOf second third) :
    Grows epochOf first third := by
  intro current hCurrent
  obtain ⟨middle, hMiddle, hGrown⟩ := hFirst current hCurrent
  obtain ⟨now, hNow, hGrownMore⟩ := hSecond middle hMiddle
  refine ⟨now, hNow, ?_⟩
  rcases hGrown with rfl | hGrown
  · exact hGrownMore
  · rcases hGrownMore with rfl | hGrownMore
    · exact .inr hGrown
    · exact .inr (UInt64.lt_trans hGrown hGrownMore)

theorem grows_insert {α β : Type} [Ord α] [Std.TransOrd α] [Std.LawfulEqOrd α] {epochOf : β → UInt64}
    {map : BTreeMap α β} {key : α} {value : β}
    (hNewer : ∀ current, map[key]? = some current → epochOf current < epochOf value) (other : α) :
    Grows epochOf map[other]? (map.insert key value)[other]? := by
  rw [Std.ExtTreeMap.getElem?_insert]
  split
  · rename_i hEq
    obtain rfl := Std.LawfulEqOrd.eq_of_compare hEq
    exact fun current hCurrent => ⟨value, rfl, .inr (hNewer current hCurrent)⟩
  · exact Grows.refl epochOf _

structure Advances (before after : ClusterControlState) : Prop where
  placement : Grows IptoPlacementMap.epoch before.placementMap after.placementMap
  outbox : ∀ key : DataIndividualShardId × IptoInstanceId,
    Grows MetadataOutboxCheckpoint.epoch before.outboxCheckpoints[key]? after.outboxCheckpoints[key]?
  manifest : ∀ checkpointId : String,
    Grows CheckpointManifest.epoch before.checkpoints[checkpointId]? after.checkpoints[checkpointId]?

theorem Advances.refl (state : ClusterControlState) : Advances state state :=
  ⟨.refl _ _, fun _ => .refl _ _, fun _ => .refl _ _⟩

theorem Advances.trans {first second third : ClusterControlState} (hFirst : Advances first second)
    (hSecond : Advances second third) : Advances first third where
  placement := hFirst.placement.trans hSecond.placement
  outbox key := (hFirst.outbox key).trans (hSecond.outbox key)
  manifest checkpointId := (hFirst.manifest checkpointId).trans (hSecond.manifest checkpointId)

/-- The map that was just accepted is the current one. -/
theorem placementMap_insert {state : ClusterControlState} (h : state.Consistent) {map : IptoPlacementMap}
    (hNewer : ∀ current, state.placementMap = some current → current.epoch < map.epoch) (fuel : Nat) :
    placementMap { state with placementMaps := prune fuel (state.placementMaps.insert map.epoch map) } =
      some map := by
  have hMax : (state.placementMaps.insert map.epoch map).maxKey? = some map.epoch := by
    rw [Std.ExtTreeMap.maxKey?_insert]
    cases hLast : state.placementMaps.maxKey? with
    | none => rfl
    | some last =>
      obtain ⟨current, hCurrent⟩ : ∃ current, state.placementMaps[last]? = some current :=
        Option.isSome_iff_exists.mp
          (Std.ExtTreeMap.mem_iff_isSome_getElem?.mp (Std.ExtTreeMap.maxKey?_mem hLast))
      have hLt := hNewer current (by rw [placementMap_eq, hLast]; exact hCurrent)
      rw [h.placement_key last current hCurrent] at hLt
      have hLe : (compare last map.epoch).isLE = true :=
        (Std.LawfulOrderOrd.isLE_compare last map.epoch).mpr (UInt64.le_of_lt hLt)
      simp [hLe]
  have hPruned : (prune fuel (state.placementMaps.insert map.epoch map)).maxKey? = some map.epoch :=
    (maxKey?_prune fuel).trans hMax
  obtain ⟨found, hFound⟩ : ∃ found,
      (prune fuel (state.placementMaps.insert map.epoch map))[map.epoch]? = some found :=
    Option.isSome_iff_exists.mp
      (Std.ExtTreeMap.mem_iff_isSome_getElem?.mp (Std.ExtTreeMap.maxKey?_mem hPruned))
  have hInserted := getElem?_of_prune hFound
  rw [getElem?_insert_ite, if_pos rfl] at hInserted
  rw [placementMap_eq, hPruned, Option.bind_some, hFound, hInserted]

theorem Consistent.advances {state next : ClusterControlState} {command : ClusterControlCommand}
    (h : state.Consistent) (hAccepts : Accepts state command next) : Advances state next := by
  cases hAccepts with
  | addNode nodeId => exact { Advances.refl state with }
  | removeNode nodeId => exact { Advances.refl state with }
  | setIptoPlacementMap map hNewer =>
    refine { Advances.refl state with placement := fun current hCurrent => ?_ }
    exact ⟨map, placementMap_insert h hNewer _, .inr (hNewer current hCurrent)⟩
  | grantWriterLease lease hHolder hNewer => exact { Advances.refl state with }
  | recordOutboxCheckpoint checkpoint hNewer =>
    exact { Advances.refl state with outbox := grows_insert hNewer }
  | recordSealedSegment manifest => exact { Advances.refl state with }
  | recordCheckpoint checkpoint hNewer =>
    exact { Advances.refl state with manifest := grows_insert hNewer }

theorem advances_run {state : ClusterControlState} (h : state.Consistent)
    (commands : List ClusterControlCommand) :
    Advances state (run ClusterControlState.apply state commands).2 := by
  induction commands generalizing state with
  | nil => exact .refl state
  | cons command commands ih =>
    have hRest := ih (h.apply command)
    refine Advances.trans ?_ hRest
    rcases apply_cases state command with ⟨next, hApply, hAccepts⟩ | ⟨error, hApply⟩
    · rw [hApply]
      exact h.advances hAccepts
    · rw [hApply]
      exact .refl state

/-! ## Properties of what is stored -/

/-- Every placement map and every segment manifest of the state has the property. -/
structure Stores (mapProperty : IptoPlacementMap → Prop) (manifestProperty : SegmentManifest → Prop)
    (state : ClusterControlState) : Prop where
  placement : ∀ (epoch : PlacementEpoch) (map : IptoPlacementMap),
    state.placementMaps[epoch]? = some map → mapProperty map
  segment : ∀ (segmentId : SegmentId) (manifest : SegmentManifest),
    state.sealedSegments[segmentId]? = some manifest → manifestProperty manifest

def Carries (mapProperty : IptoPlacementMap → Prop)
    (manifestProperty : SegmentManifest → Prop) : ClusterControlCommand → Prop
  | .setIptoPlacementMap map => mapProperty map
  | .recordSealedSegment manifest => manifestProperty manifest
  | _ => True

section Stores

variable {mapProperty : IptoPlacementMap → Prop} {manifestProperty : SegmentManifest → Prop}

theorem stores_new : new.Stores mapProperty manifestProperty := by
  constructor <;> simp [new]

theorem Stores.accepts {state next : ClusterControlState} {command : ClusterControlCommand}
    (h : state.Stores mapProperty manifestProperty) (hAccepts : Accepts state command next)
    (hCommand : Carries mapProperty manifestProperty command) :
    next.Stores mapProperty manifestProperty := by
  cases hAccepts with
  | setIptoPlacementMap map hNewer =>
    refine { h with placement := fun epoch stored hStored => ?_ }
    exact forall_getElem?_insert h.placement hCommand epoch stored (getElem?_of_prune hStored)
  | recordSealedSegment manifest =>
    exact { h with segment := forall_getElem?_insert h.segment hCommand }
  | addNode | removeNode | grantWriterLease | recordOutboxCheckpoint | recordCheckpoint =>
    exact { h with }

theorem Stores.apply {state : ClusterControlState} (h : state.Stores mapProperty manifestProperty)
    {command : ClusterControlCommand} (hCommand : Carries mapProperty manifestProperty command) :
    (state.apply command).2.Stores mapProperty manifestProperty := by
  rcases apply_cases state command with ⟨next, hApply, hAccepts⟩ | ⟨error, hApply⟩
  · rw [hApply]
    exact h.accepts hAccepts hCommand
  · rw [hApply]
    exact h

theorem stores_run {state : ClusterControlState} (h : state.Stores mapProperty manifestProperty)
    {commands : List ClusterControlCommand}
    (hCommands : ∀ command ∈ commands, Carries mapProperty manifestProperty command) :
    (run ClusterControlState.apply state commands).2.Stores mapProperty manifestProperty := by
  induction commands generalizing state with
  | nil => exact h
  | cons command commands ih =>
    obtain ⟨hHead, hTail⟩ := List.forall_mem_cons.mp hCommands
    exact ih (h.apply hHead) hTail

end Stores

end ClusterControlState

end Vannak.Cluster
