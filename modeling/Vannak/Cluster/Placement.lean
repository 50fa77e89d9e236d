import Vannak.Foundation.OrderedMap
import Vannak.Identity

/-!
# Placement maps

The consistent-hash ring, the override ranges and the placement map of `cluster.rs`.
The slots, the ring and the overrides of a map are private to its module and set by
`IptoPlacementMap::new` alone, so the structure carries what that constructor checks.
The epoch is a public field: nothing ties it to the epoch the ring was built with.
-/

namespace Vannak.Cluster

open Foundation

set_option autoImplicit false

/-- `ClusterControlError`, with the placement errors first. -/
inductive ClusterControlError where
  | noPlacementSlots
  | zeroVnodes (instance_ : String)
  | invalidPlacementRange (start stop : DataIndividualShardId)
  | overlappingPlacementRanges (leftStart leftStop rightStart rightStop : DataIndividualShardId)
  | stalePlacementEpoch (current proposed : PlacementEpoch)
  | unknownLeaseHolder (holder : NodeId)
  | staleLeaseEpoch (target : IptoInstanceId) (current proposed : LeaseEpoch)
  | staleCheckpointEpoch (shardId : DataIndividualShardId) (target : IptoInstanceId)
      (current proposed : CheckpointEpoch)
  | staleCheckpointManifest (checkpointId : String) (current proposed : CheckpointEpoch)
deriving DecidableEq, Repr

/-- The `Display` texts. -/
def ClusterControlError.toText : ClusterControlError → String
  | noPlacementSlots => "Ipto placement map requires at least one slot"
  | zeroVnodes instance_ =>
    "Ipto placement slot for '" ++ instance_ ++ "' must have at least one virtual node"
  | invalidPlacementRange start stop =>
    "invalid Ipto placement range: start " ++ toString start ++ " is greater than end " ++ toString stop
  | overlappingPlacementRanges leftStart leftStop rightStart rightStop =>
    "overlapping Ipto placement ranges: " ++ toString leftStart ++ "..=" ++ toString leftStop ++
      " overlaps " ++ toString rightStart ++ "..=" ++ toString rightStop
  | stalePlacementEpoch current proposed =>
    "stale Ipto placement epoch: current " ++ toString current ++ ", proposed " ++ toString proposed
  | unknownLeaseHolder holder => "writer lease holder '" ++ holder.asStr ++ "' is not a cluster node"
  | staleLeaseEpoch target current proposed =>
    "stale writer lease epoch for target '" ++ target.asStr ++ "': current " ++ toString current ++
      ", proposed " ++ toString proposed
  | staleCheckpointEpoch shardId target current proposed =>
    "stale outbox checkpoint epoch for shard " ++ toString shardId ++ " target '" ++ target.asStr ++
      "': current " ++ toString current ++ ", proposed " ++ toString proposed
  | staleCheckpointManifest checkpointId current proposed =>
    "stale checkpoint manifest epoch for '" ++ checkpointId ++ "': current " ++ toString current ++
      ", proposed " ++ toString proposed

/-! ## The ring -/

/-- A weighted Ipto instance entry in the placement configuration. -/
structure IptoPlacementSlot where
  instanceId : IptoInstanceId
  vnodes : UInt32
deriving DecidableEq, Repr

def IptoPlacementSlot.new (instanceId : IptoInstanceId) (vnodes : UInt32) :
    Except ClusterControlError IptoPlacementSlot :=
  if vnodes = 0 then .error (.zeroVnodes instanceId.asStr) else .ok { instanceId, vnodes }

structure RingPoint where
  position : UInt64
  instanceId : IptoInstanceId
deriving DecidableEq, Repr

structure IptoPlacementRing where
  epoch : PlacementEpoch
  points : List RingPoint
deriving DecidableEq, Repr

/-- The name and then the vnode index through the FNV-1a rounds. -/
def ringHash (instanceName : String) (vnodeIdx : UInt32) : UInt64 :=
  (u32Bytes vnodeIdx).foldl fnvStep (fnv1a (utf8Bytes instanceName))

namespace IptoPlacementRing

def slotPoints (slot : IptoPlacementSlot) : List RingPoint :=
  (List.range slot.vnodes.toNat).map fun vnodeIdx =>
    ⟨ringHash slot.instanceId.asStr (UInt32.ofNat vnodeIdx), slot.instanceId⟩

/-- The points of all slots, sorted stably by position. -/
def new (epoch : PlacementEpoch) (slots : List IptoPlacementSlot) : IptoPlacementRing where
  epoch := epoch
  points := (slots.flatMap slotPoints).insertionSort fun left right => left.position ≤ right.position

/-- Every slot has a point. -/
theorem flatMap_slotPoints_ne_nil {slots : List IptoPlacementSlot} (hSlots : slots ≠ [])
    (hBuilt : ∀ slot ∈ slots, IptoPlacementSlot.new slot.instanceId slot.vnodes = .ok slot) :
    slots.flatMap slotPoints ≠ [] := by
  obtain ⟨slot, hSlot⟩ := List.exists_mem_of_ne_nil _ hSlots
  have hVnodes : slot.vnodes ≠ 0 := by
    intro hZero
    have hNew := hBuilt slot hSlot
    rw [IptoPlacementSlot.new, if_pos hZero] at hNew
    cases hNew
  have hZero : 0 ∈ List.range slot.vnodes.toNat :=
    List.mem_range.mpr (Nat.pos_of_ne_zero fun hEq => hVnodes (UInt32.toNat_inj.mp hEq))
  have hPoint : _ ∈ slotPoints slot := List.mem_map_of_mem hZero
  exact List.ne_nil_of_mem (List.mem_flatMap.mpr ⟨slot, hSlot, hPoint⟩)

/-- `partition_point` is the index of the first point that is not below the shard. -/
def resolve (ring : IptoPlacementRing) (shardId : DataIndividualShardId) : Option IptoInstanceId :=
  if ring.points = [] then none
  else
    let idx := ring.points.findIdx fun point => ¬point.position < shardId
    (ring.points[idx % ring.points.length]?).map RingPoint.instanceId

/-- The instances of the points, each where it occurs first. -/
def instances (ring : IptoPlacementRing) : List IptoInstanceId :=
  (ring.points.foldl (fun (seen, result) point =>
    if point.instanceId ∈ seen then (seen, result)
    else (seen.insert point.instanceId, result ++ [point.instanceId])) ((∅ : BTreeSet IptoInstanceId), [])).2

theorem instances_eq (ring : IptoPlacementRing) :
    ring.instances = (ring.points.map RingPoint.instanceId).eraseDups := by
  rw [← foldl_push_unseen, List.foldl_map]
  rfl

end IptoPlacementRing

/-! ## Override ranges -/

/-- Inclusive data-individual shard range assigned to one Ipto instance. -/
structure IptoPlacementRange where
  start : DataIndividualShardId
  stop : DataIndividualShardId
  target : IptoInstanceId
deriving DecidableEq, Repr

namespace IptoPlacementRange

def new (start stop : DataIndividualShardId) (target : IptoInstanceId) :
    Except ClusterControlError IptoPlacementRange :=
  if stop < start then .error (.invalidPlacementRange start stop) else .ok { start, stop, target }

def contains (range : IptoPlacementRange) (shardId : DataIndividualShardId) : Bool :=
  range.start ≤ shardId ∧ shardId ≤ range.stop

end IptoPlacementRange

/-- The first neighbours, in the order of their starts, of which the right one starts
no later than the left one ends. -/
def firstOverlap : List IptoPlacementRange → Option (IptoPlacementRange × IptoPlacementRange)
  | left :: right :: rest =>
    if right.start ≤ left.stop then some (left, right) else firstOverlap (right :: rest)
  | _ => none

/-- One range ends before the other starts. -/
def IptoPlacementRange.Before (left right : IptoPlacementRange) : Prop := left.stop < right.start

/-- Checking neighbours is enough: the starts are sorted. -/
theorem pairwise_before_of_firstOverlap {ranges : List IptoPlacementRange}
    (hSorted : ranges.Pairwise fun left right => left.start ≤ right.start)
    (hOverlap : firstOverlap ranges = none) : ranges.Pairwise IptoPlacementRange.Before := by
  induction ranges with
  | nil => exact List.Pairwise.nil
  | cons left ranges ih =>
    cases ranges with
    | nil => exact List.pairwise_singleton _ _
    | cons right rest =>
      rw [firstOverlap] at hOverlap
      split at hOverlap
      · cases hOverlap
      · rename_i hApart
        obtain ⟨-, hTail⟩ := List.pairwise_cons.mp hSorted
        refine List.Pairwise.cons (fun range hRange => ?_) (ih hTail hOverlap)
        have hFirst : left.stop < right.start := UInt64.not_le.mp hApart
        rcases List.mem_cons.mp hRange with rfl | hRange
        · exact hFirst
        · exact UInt64.lt_of_lt_of_le hFirst ((List.pairwise_cons.mp hTail).1 range hRange)

theorem firstOverlap_eq_none {ranges : List IptoPlacementRange}
    (h : ranges.Pairwise IptoPlacementRange.Before) : firstOverlap ranges = none := by
  induction ranges with
  | nil => rfl
  | cons left ranges ih =>
    cases ranges with
    | nil => rfl
    | cons right rest =>
      obtain ⟨hLeft, hRest⟩ := List.pairwise_cons.mp h
      have hApart : ¬right.start ≤ left.stop := UInt64.not_le.mpr (hLeft right List.mem_cons_self)
      rw [firstOverlap, if_neg hApart]
      exact ih hRest

/-! ## Placement maps -/

theorem noOverrides_sorted :
    List.Pairwise (fun left right : IptoPlacementRange => left.start ≤ right.start) [] := .nil

theorem noOverrides_before : List.Pairwise IptoPlacementRange.Before [] := .nil

@[ext]
structure IptoPlacementMap where
  epoch : PlacementEpoch
  slots : List IptoPlacementSlot
  ring : IptoPlacementRing
  overrides : List IptoPlacementRange
  slots_ne_nil : slots ≠ []
  ring_eq : ring = IptoPlacementRing.new ring.epoch slots
  overrides_sorted : overrides.Pairwise fun left right => left.start ≤ right.start
  overrides_before : overrides.Pairwise IptoPlacementRange.Before
deriving DecidableEq

namespace IptoPlacementMap

def sortOverrides (overrides : List IptoPlacementRange) : List IptoPlacementRange :=
  overrides.insertionSort fun left right => left.start ≤ right.start

theorem sortOverrides_sorted (overrides : List IptoPlacementRange) :
    (sortOverrides overrides).Pairwise fun left right => left.start ≤ right.start := by
  have : IsTrans IptoPlacementRange fun left right => left.start ≤ right.start :=
    ⟨fun _ _ _ => UInt64.le_trans⟩
  have : Std.Total fun left right : IptoPlacementRange => left.start ≤ right.start :=
    ⟨fun _ _ => UInt64.le_total _ _⟩
  exact List.pairwise_insertionSort _ overrides

def new (epoch : PlacementEpoch) (slots : List IptoPlacementSlot)
    (overrides : List IptoPlacementRange) : Except ClusterControlError IptoPlacementMap :=
  if hSlots : slots = [] then .error .noPlacementSlots
  else
    match hOverlap : firstOverlap (sortOverrides overrides) with
    | some (left, right) =>
      .error (.overlappingPlacementRanges left.start left.stop right.start right.stop)
    | none => .ok {
        epoch, slots
        ring := IptoPlacementRing.new epoch slots
        overrides := sortOverrides overrides
        slots_ne_nil := hSlots
        ring_eq := rfl
        overrides_sorted := sortOverrides_sorted overrides
        overrides_before := pairwise_before_of_firstOverlap (sortOverrides_sorted overrides) hOverlap }

/-- The slots, the ranges and the map come from their checked constructors. -/
def Built (map : IptoPlacementMap) : Prop :=
  ∃ epoch slots overrides,
    (∀ slot ∈ slots, IptoPlacementSlot.new slot.instanceId slot.vnodes = .ok slot) ∧
    (∀ range ∈ overrides, IptoPlacementRange.new range.start range.stop range.target = .ok range) ∧
    new epoch slots overrides = .ok map

theorem eq_of_new {epoch : PlacementEpoch} {slots : List IptoPlacementSlot}
    {overrides : List IptoPlacementRange} {map : IptoPlacementMap} (h : new epoch slots overrides = .ok map) :
    map.epoch = epoch ∧ map.slots = slots ∧ map.ring = IptoPlacementRing.new epoch slots ∧
      map.overrides = sortOverrides overrides := by
  rw [new] at h
  split at h
  · cases h
  split at h
  · cases h
  · cases h
    exact ⟨rfl, rfl, rfl, rfl⟩

theorem sortOverrides_of_sorted {overrides : List IptoPlacementRange}
    (h : overrides.Pairwise fun left right => left.start ≤ right.start) :
    sortOverrides overrides = overrides :=
  h.insertionSort_eq

theorem exists_new (epoch : PlacementEpoch) {slots : List IptoPlacementSlot}
    {overrides : List IptoPlacementRange} (hSlots : slots ≠ [])
    (hOverlap : firstOverlap (sortOverrides overrides) = none) :
    ∃ map, new epoch slots overrides = .ok map := by
  rw [new, dif_neg hSlots]
  split
  · rename_i hSome
    rw [hOverlap] at hSome
    cases hSome
  · exact ⟨_, rfl⟩

theorem new_self {map : IptoPlacementMap} (hRing : map.ring.epoch = map.epoch) :
    new map.epoch map.slots map.overrides = .ok map := by
  have hSort := sortOverrides_of_sorted map.overrides_sorted
  obtain ⟨built, hBuilt⟩ := exists_new map.epoch map.slots_ne_nil
    (hSort.symm ▸ firstOverlap_eq_none map.overrides_before)
  obtain ⟨hEpoch, hSlots, hNewRing, hOverrides⟩ := eq_of_new hBuilt
  rw [hBuilt]
  refine congrArg Except.ok (IptoPlacementMap.ext hEpoch hSlots ?_ (hOverrides.trans hSort))
  rw [hNewRing, ← hRing]
  exact map.ring_eq.symm

theorem Built.ring_epoch {map : IptoPlacementMap} (h : map.Built) : map.ring.epoch = map.epoch := by
  obtain ⟨epoch, slots, overrides, -, -, hNew⟩ := h
  obtain ⟨hEpoch, -, hRing, -⟩ := eq_of_new hNew
  rw [hRing, hEpoch]
  rfl

theorem Built.slot {map : IptoPlacementMap} (h : map.Built) :
    ∀ slot ∈ map.slots, IptoPlacementSlot.new slot.instanceId slot.vnodes = .ok slot := by
  obtain ⟨epoch, slots, overrides, hSlots, -, hNew⟩ := h
  rw [(eq_of_new hNew).2.1]
  exact hSlots

theorem Built.override {map : IptoPlacementMap} (h : map.Built) :
    ∀ range ∈ map.overrides, IptoPlacementRange.new range.start range.stop range.target = .ok range := by
  obtain ⟨epoch, slots, overrides, -, hOverrides, hNew⟩ := h
  rw [(eq_of_new hNew).2.2.2]
  exact fun range hRange => hOverrides range ((List.mem_insertionSort _).mp hRange)

def resolve (map : IptoPlacementMap) (shardId : DataIndividualShardId) : Option IptoInstanceId :=
  match map.overrides.find? fun range => range.contains shardId with
  | some range => some range.target
  | none => map.ring.resolve shardId

/-- With a slot there is a point on the ring, so that every shard has a target. -/
theorem Built.exists_resolve {map : IptoPlacementMap} (h : map.Built) (shardId : DataIndividualShardId) :
    ∃ target, map.resolve shardId = some target := by
  have hPoints : map.ring.points ≠ [] := by
    obtain ⟨point, hPoint⟩ := List.exists_mem_of_ne_nil _
      (IptoPlacementRing.flatMap_slotPoints_ne_nil map.slots_ne_nil h.slot)
    rw [map.ring_eq]
    exact List.ne_nil_of_mem ((List.mem_insertionSort _).mpr hPoint)
  rw [resolve]
  split
  · exact ⟨_, rfl⟩
  · rw [IptoPlacementRing.resolve, if_neg hPoints]
    have hIndex := Nat.mod_lt (map.ring.points.findIdx fun point => ¬point.position < shardId)
      (List.length_pos_iff.mpr hPoints)
    exact ⟨_, congrArg (Option.map RingPoint.instanceId) (List.getElem?_eq_getElem hIndex)⟩

/-- `checked_add(1)`. -/
def checkedSucc (value : UInt64) : Option UInt64 :=
  if value = UInt64.ofNat (2 ^ 64 - 1) then none else some (value + 1)

/-- Starts of intervals on which resolution is constant. Ring points own their
inclusive upper endpoint, so ownership changes at point + 1. -/
def intervalStarts (map : IptoPlacementMap) : BTreeSet UInt64 :=
  (∅ : BTreeSet UInt64).insertMany
    (0 :: ((map.ring.points.filterMap fun point => checkedSucc point.position) ++
      map.overrides.flatMap fun range => range.start :: (checkedSucc range.stop).toList))

def instances (map : IptoPlacementMap) : List IptoInstanceId :=
  let all : BTreeSet IptoInstanceId := .ofList (map.ring.instances ++ map.overrides.map IptoPlacementRange.target)
  all.toList

theorem mem_instances {map : IptoPlacementMap} {target : IptoInstanceId} :
    target ∈ map.instances ↔
      (∃ point ∈ map.ring.points, point.instanceId = target) ∨ ∃ range ∈ map.overrides, range.target = target := by
  rw [instances, Std.ExtTreeSet.mem_toList, Std.ExtTreeSet.mem_ofList, List.contains_iff_mem, List.mem_append,
    IptoPlacementRing.instances_eq, List.mem_eraseDups, List.mem_map, List.mem_map]

theorem resolve_mem_instances {map : IptoPlacementMap} {shardId : DataIndividualShardId} {target : IptoInstanceId}
    (h : map.resolve shardId = some target) : target ∈ map.instances := by
  rw [resolve] at h
  split at h
  · rename_i range hFound
    exact mem_instances.mpr (.inr ⟨range, List.mem_of_find?_eq_some hFound, Option.some.inj h⟩)
  · rw [IptoPlacementRing.resolve] at h
    split at h
    · cases h
    · obtain ⟨point, hPoint, hTarget⟩ := Option.map_eq_some_iff.mp h
      exact mem_instances.mpr (.inl ⟨point, List.mem_of_getElem? hPoint, hTarget⟩)

theorem instances_nodup (map : IptoPlacementMap) : map.instances.Nodup :=
  Std.ExtTreeSet.distinct_toList.imp fun hNe hEq => hNe (Std.compare_eq_iff_eq.mpr hEq)

end IptoPlacementMap

end Vannak.Cluster
