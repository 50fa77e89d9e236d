import Vannak.Cluster.Placement
import Vannak.Foundation.Clockwise

/-!
# Which instance owns a shard

The ring is a table of points sorted by position, and the overrides go before it. Neither the order of the overrides
nor the search through the sorted table shows in the owners, and a new slot takes shards over without moving any
other.
-/

namespace Vannak.Cluster

open Foundation

set_option autoImplicit false

/-! ## The ring -/

/-- Where a point is on the circle. -/
def RingPoint.place (point : RingPoint) : Nat := point.position.toNat

/-- The points of all slots in the order of the slots. -/
def ringPoints (slots : List IptoPlacementSlot) : List RingPoint := slots.flatMap IptoPlacementRing.slotPoints

theorem IptoPlacementRing.points_new (epoch : PlacementEpoch) (slots : List IptoPlacementSlot) :
    (IptoPlacementRing.new epoch slots).points = sortByKey RingPoint.place (ringPoints slots) := by
  rw [IptoPlacementRing.new, sortByKey, ringPoints]
  congr

theorem IptoPlacementRing.resolve_new (epoch : PlacementEpoch) (slots : List IptoPlacementSlot)
    (shardId : DataIndividualShardId) :
    (IptoPlacementRing.new epoch slots).resolve shardId =
      (ownerOf RingPoint.place (ringPoints slots) shardId.toNat).map RingPoint.instanceId := by
  rw [← lookupRow_sortByKey, ← points_new epoch slots, resolve]
  have hIndex : (fun point : RingPoint => decide ¬point.position < shardId) =
      fun point => decide ¬RingPoint.place point < shardId.toNat :=
    funext fun point => decide_eq_decide.mpr (not_congr UInt64.lt_iff_toNat_lt)
  split
  · rename_i hNone
    rw [hNone]
    rfl
  · rw [hIndex]
    rfl

theorem exists_ownerOf {α κ : Type} [LinearOrder κ] (key : α → κ) {items : List α} (h : items ≠ []) (place : κ) :
    ∃ item, ownerOf key items place = some item := by
  rw [← Option.ne_none_iff_exists', ownerOf]
  intro hNone
  have hNil := (List.argmin_eq_none (f := key)).mp hNone
  rw [clockwise] at hNil
  split at hNil
  · exact h hNil
  · rename_i hSome
    exact hSome hNil

/-! ## Overrides -/

/-- No shard is in both ranges. -/
def IptoPlacementRange.Apart (left right : IptoPlacementRange) : Prop :=
  ¬∃ shardId, left.contains shardId ∧ right.contains shardId

instance : Std.Symm IptoPlacementRange.Apart :=
  ⟨fun _ _ h => fun ⟨shardId, hRight, hLeft⟩ => h ⟨shardId, hLeft, hRight⟩⟩

theorem IptoPlacementRange.contains_iff {range : IptoPlacementRange} {shardId : DataIndividualShardId} :
    range.contains shardId = true ↔ range.start ≤ shardId ∧ shardId ≤ range.stop := by
  rw [contains, decide_eq_true_iff]

theorem IptoPlacementRange.start_le_stop {range : IptoPlacementRange}
    (h : IptoPlacementRange.new range.start range.stop range.target = .ok range) : range.start ≤ range.stop := by
  rw [IptoPlacementRange.new] at h
  split at h
  · cases h
  · rename_i hOrdered
    exact UInt64.not_lt.mp hOrdered

theorem IptoPlacementRange.Before.apart {left right : IptoPlacementRange} (h : left.Before right) :
    left.Apart right := by
  rintro ⟨shardId, hLeft, hRight⟩
  have hFirst := (contains_iff.mp hLeft).2
  have hSecond := (contains_iff.mp hRight).1
  exact absurd (UInt64.lt_of_le_of_lt (UInt64.le_trans hSecond hFirst) h) (UInt64.lt_irrefl _)

/-- The start of the right range would be in both. -/
theorem IptoPlacementRange.Apart.before {left right : IptoPlacementRange} (h : left.Apart right)
    (hSorted : left.start ≤ right.start) (hRight : right.start ≤ right.stop) : left.Before right := by
  refine UInt64.not_le.mp fun hOverlap => h ⟨right.start, ?_, ?_⟩
  · exact contains_iff.mpr ⟨hSorted, hOverlap⟩
  · exact contains_iff.mpr ⟨UInt64.le_refl _, hRight⟩

namespace IptoPlacementMap

theorem sortOverrides_perm (overrides : List IptoPlacementRange) : (sortOverrides overrides).Perm overrides :=
  List.perm_insertionSort _ overrides

theorem firstOverlap_sortOverrides_iff {overrides : List IptoPlacementRange}
    (hRanges : ∀ range ∈ overrides, IptoPlacementRange.new range.start range.stop range.target = .ok range) :
    firstOverlap (sortOverrides overrides) = none ↔ overrides.Pairwise IptoPlacementRange.Apart := by
  rw [← (sortOverrides_perm overrides).pairwise_iff fun h => Std.Symm.symm _ _ h]
  constructor
  · intro hNone
    exact (pairwise_before_of_firstOverlap (sortOverrides_sorted overrides) hNone).imp fun h => h.apart
  · intro hApart
    refine firstOverlap_eq_none ?_
    have hBoth := List.pairwise_and_iff.mpr ⟨hApart, sortOverrides_sorted overrides⟩
    refine hBoth.imp_of_mem fun hLeft hRight h => h.1.before h.2 ?_
    exact IptoPlacementRange.start_le_stop (hRanges _ ((sortOverrides_perm overrides).mem_iff.mp hRight))

theorem exists_new_iff {epoch : PlacementEpoch} {slots : List IptoPlacementSlot}
    {overrides : List IptoPlacementRange}
    (hRanges : ∀ range ∈ overrides, IptoPlacementRange.new range.start range.stop range.target = .ok range) :
    (∃ map, new epoch slots overrides = .ok map) ↔ slots ≠ [] ∧ overrides.Pairwise IptoPlacementRange.Apart := by
  constructor
  · rintro ⟨map, hNew⟩
    obtain ⟨-, hSlots, -, hOverrides⟩ := eq_of_new hNew
    refine ⟨hSlots ▸ map.slots_ne_nil, (firstOverlap_sortOverrides_iff hRanges).mp ?_⟩
    rw [← hOverrides]
    exact firstOverlap_eq_none map.overrides_before
  · rintro ⟨hSlots, hApart⟩
    exact exists_new epoch hSlots ((firstOverlap_sortOverrides_iff hRanges).mpr hApart)

/-- The override of a shard, wherever it is in the list. -/
theorem resolve_of_override {epoch : PlacementEpoch} {slots : List IptoPlacementSlot}
    {overrides : List IptoPlacementRange} {map : IptoPlacementMap} (hNew : new epoch slots overrides = .ok map)
    {shardId : DataIndividualShardId} {range : IptoPlacementRange} (hRange : range ∈ overrides)
    (hContains : range.contains shardId = true) :
    (∀ other ∈ overrides, other.contains shardId = true → other = range) ∧
      map.resolve shardId = some range.target := by
  obtain ⟨-, -, -, hOverrides⟩ := eq_of_new hNew
  have hApart : overrides.Pairwise IptoPlacementRange.Apart := by
    rw [← (sortOverrides_perm overrides).pairwise_iff fun h => Std.Symm.symm _ _ h, ← hOverrides]
    exact map.overrides_before.imp fun h => h.apart
  have hOnly : ∀ other ∈ overrides, other.contains shardId = true → other = range := by
    intro other hOther hAlso
    by_contra hNe
    exact hApart.forall hOther hRange hNe ⟨shardId, hAlso, hContains⟩
  refine ⟨hOnly, ?_⟩
  rw [resolve, hOverrides]
  cases hFind : (sortOverrides overrides).find? fun range => range.contains shardId with
  | none =>
    have hMissing := List.find?_eq_none.mp hFind range ((sortOverrides_perm overrides).mem_iff.mpr hRange)
    exact absurd hContains hMissing
  | some found =>
    have hFound := (sortOverrides_perm overrides).mem_iff.mp (List.mem_of_find?_eq_some hFind)
    rw [hOnly found hFound (List.find?_some (p := fun range : IptoPlacementRange => range.contains shardId) hFind)]

theorem resolve_of_no_override {epoch : PlacementEpoch} {slots : List IptoPlacementSlot}
    {overrides : List IptoPlacementRange} {map : IptoPlacementMap} (hNew : new epoch slots overrides = .ok map)
    {shardId : DataIndividualShardId} (hNone : ∀ range ∈ overrides, ¬range.contains shardId = true) :
    map.resolve shardId = (ownerOf RingPoint.place (ringPoints slots) shardId.toNat).map RingPoint.instanceId := by
  obtain ⟨-, -, hRing, hOverrides⟩ := eq_of_new hNew
  have hFind : (map.overrides.find? fun range => range.contains shardId) = none := by
    rw [hOverrides, List.find?_eq_none]
    exact fun range hRange => hNone range ((sortOverrides_perm overrides).mem_iff.mp hRange)
  rw [resolve, hFind, hRing]
  exact IptoPlacementRing.resolve_new epoch slots shardId

/-- A map exists if there are slots and no two overrides meet. Then the one override that contains a shard owns it,
or else the first point at or after it on the circle, in the order of the slots if positions collide, however the
overrides are listed. -/
theorem resolve_total_unambiguous (epoch : PlacementEpoch) (slots : List IptoPlacementSlot)
    (overrides : List IptoPlacementRange)
    (hSlots : ∀ slot ∈ slots, IptoPlacementSlot.new slot.instanceId slot.vnodes = .ok slot)
    (hRanges : ∀ range ∈ overrides, IptoPlacementRange.new range.start range.stop range.target = .ok range) :
    ((∃ map, new epoch slots overrides = .ok map) ↔
      slots ≠ [] ∧ overrides.Pairwise fun left right =>
        ¬∃ shardId, left.contains shardId ∧ right.contains shardId) ∧
    ∀ map, new epoch slots overrides = .ok map →
      (∀ shardId,
        (∃ range ∈ overrides, range.contains shardId = true ∧
          (∀ other ∈ overrides, other.contains shardId = true → other = range) ∧
          map.resolve shardId = some range.target) ∨
        (∀ range ∈ overrides, ¬range.contains shardId = true) ∧
          ∃ point, ownerOf RingPoint.place (ringPoints slots) shardId.toNat = some point ∧
            map.resolve shardId = some point.instanceId) ∧
      ∀ permuted, permuted.Perm overrides → ∃ other, new epoch slots permuted = .ok other ∧
        ∀ shardId, other.resolve shardId = map.resolve shardId := by
  refine ⟨exists_new_iff hRanges, fun map hNew => ⟨fun shardId => ?_, fun permuted hPerm => ?_⟩⟩
  · by_cases hOverride : ∃ range ∈ overrides, range.contains shardId = true
    · obtain ⟨range, hRange, hContains⟩ := hOverride
      exact .inl ⟨range, hRange, hContains, resolve_of_override hNew hRange hContains⟩
    · have hNone : ∀ range ∈ overrides, ¬range.contains shardId = true :=
        fun range hRange hContains => hOverride ⟨range, hRange, hContains⟩
      have hNotNil := ((exists_new_iff hRanges).mp ⟨map, hNew⟩).1
      have hPoints : ringPoints slots ≠ [] := IptoPlacementRing.flatMap_slotPoints_ne_nil hNotNil hSlots
      obtain ⟨point, hPoint⟩ := exists_ownerOf RingPoint.place hPoints shardId.toNat
      refine .inr ⟨hNone, point, hPoint, ?_⟩
      rw [resolve_of_no_override hNew hNone, hPoint, Option.map_some]
  · obtain ⟨hNotNil, hApart⟩ := (exists_new_iff hRanges).mp ⟨map, hNew⟩
    have hPermuted : ∀ range ∈ permuted,
        IptoPlacementRange.new range.start range.stop range.target = .ok range :=
      fun range hRange => hRanges range (hPerm.mem_iff.mp hRange)
    obtain ⟨other, hOther⟩ := (exists_new_iff hPermuted).mpr
      ⟨hNotNil, (hPerm.pairwise_iff fun h => Std.Symm.symm _ _ h).mpr hApart⟩
    refine ⟨other, hOther, fun shardId => ?_⟩
    by_cases hOverride : ∃ range ∈ overrides, range.contains shardId = true
    · obtain ⟨range, hRange, hContains⟩ := hOverride
      rw [(resolve_of_override hNew hRange hContains).2,
        (resolve_of_override hOther (hPerm.mem_iff.mpr hRange) hContains).2]
    · have hNone : ∀ range ∈ overrides, ¬range.contains shardId = true :=
        fun range hRange hContains => hOverride ⟨range, hRange, hContains⟩
      rw [resolve_of_no_override hNew hNone,
        resolve_of_no_override hOther fun range hRange => hNone range (hPerm.mem_iff.mp hRange)]

def twoSlots : List IptoPlacementSlot := [⟨⟨"ipto-a"⟩, 2⟩, ⟨⟨"ipto-b"⟩, 1⟩]

def twoOverrides : List IptoPlacementRange := [⟨10, 20, ⟨"ipto-b"⟩⟩, ⟨0, 5, ⟨"ipto-a"⟩⟩]

theorem twoOverrides_apart : firstOverlap (sortOverrides twoOverrides) = none := by decide

theorem resolve_total_unambiguous_permuted :
    ∃ map other, new 1 twoSlots twoOverrides = .ok map ∧ new 1 twoSlots twoOverrides.reverse = .ok other ∧
      ∀ shardId, other.resolve shardId = map.resolve shardId := by
  obtain ⟨map, hNew⟩ := exists_new 1 (by decide : twoSlots ≠ []) twoOverrides_apart
  obtain ⟨other, hOther, hSame⟩ := ((resolve_total_unambiguous 1 twoSlots twoOverrides (by decide) (by decide)).2
    map hNew).2 twoOverrides.reverse (List.reverse_perm _)
  exact ⟨map, other, hNew, hOther, hSame⟩

/-! ## Reconfiguration -/

/-- The override list, once accepted, is accepted with any slots. -/
theorem exists_new_of_new {epoch : PlacementEpoch} {slots : List IptoPlacementSlot}
    {overrides : List IptoPlacementRange} {map : IptoPlacementMap} (hNew : new epoch slots overrides = .ok map)
    (next : PlacementEpoch) {others : List IptoPlacementSlot} (hOthers : others ≠ []) :
    ∃ other, new next others overrides = .ok other := by
  refine exists_new next hOthers ?_
  rw [← (eq_of_new hNew).2.2.2]
  exact firstOverlap_eq_none map.overrides_before

theorem instanceId_of_mem_slotPoints {slot : IptoPlacementSlot} {point : RingPoint}
    (h : point ∈ IptoPlacementRing.slotPoints slot) : point.instanceId = slot.instanceId := by
  obtain ⟨vnodeIdx, -, rfl⟩ := List.mem_map.mp h
  rfl

/-- Two maps with the same overrides, of which one has a slot more. -/
theorem resolve_insert_slot {epoch next : PlacementEpoch} {before after : List IptoPlacementSlot}
    {slot : IptoPlacementSlot} {overrides : List IptoPlacementRange} {smaller larger : IptoPlacementMap}
    (hSmaller : new epoch (before ++ after) overrides = .ok smaller)
    (hLarger : new next (before ++ slot :: after) overrides = .ok larger) (shardId : DataIndividualShardId) :
    larger.resolve shardId = smaller.resolve shardId ∨ larger.resolve shardId = some slot.instanceId := by
  by_cases hOverride : ∃ range ∈ overrides, range.contains shardId = true
  · obtain ⟨range, hRange, hContains⟩ := hOverride
    rw [(resolve_of_override hSmaller hRange hContains).2, (resolve_of_override hLarger hRange hContains).2]
    exact .inl rfl
  · have hNone : ∀ range ∈ overrides, ¬range.contains shardId = true :=
      fun range hRange hContains => hOverride ⟨range, hRange, hContains⟩
    rw [resolve_of_no_override hSmaller hNone, resolve_of_no_override hLarger hNone, ringPoints, ringPoints,
      List.flatMap_append, List.flatMap_append, List.flatMap_cons]
    rcases ownerOf_insert RingPoint.place (before.flatMap IptoPlacementRing.slotPoints)
      (IptoPlacementRing.slotPoints slot) (after.flatMap IptoPlacementRing.slotPoints) shardId.toNat
      with hSame | ⟨point, hPoint, hOwner⟩
    · rw [hSame]
      exact .inl rfl
    · rw [hOwner, Option.map_some, instanceId_of_mem_slotPoints hPoint]
      exact .inr rfl

/-- A slot put anywhere into the list takes shards over for its instance and moves no other. Taken out again, it
gives back its own. -/
theorem reconfiguration_moves_minimum (before after : List IptoPlacementSlot) (slot : IptoPlacementSlot)
    (overrides : List IptoPlacementRange) (epoch next : PlacementEpoch) :
    (∀ map, new epoch (before ++ after) overrides = .ok map →
      ∃ other, new next (before ++ slot :: after) overrides = .ok other ∧
        ∀ shardId, other.resolve shardId = map.resolve shardId ∨
          other.resolve shardId = some slot.instanceId) ∧
    (∀ map, before ++ after ≠ [] → new epoch (before ++ slot :: after) overrides = .ok map →
      ∃ other, new next (before ++ after) overrides = .ok other ∧
        ∀ shardId, other.resolve shardId ≠ map.resolve shardId → map.resolve shardId = some slot.instanceId) := by
  constructor
  · intro map hMap
    obtain ⟨other, hOther⟩ := exists_new_of_new hMap next
      (List.append_ne_nil_of_right_ne_nil before (List.cons_ne_nil slot after))
    exact ⟨other, hOther, resolve_insert_slot hMap hOther⟩
  · intro map hLeft hMap
    obtain ⟨other, hOther⟩ := exists_new_of_new hMap next hLeft
    refine ⟨other, hOther, fun shardId hMoved => ?_⟩
    exact (resolve_insert_slot hOther hMap shardId).resolve_left fun hSame => hMoved hSame.symm

theorem reconfiguration_moves_minimum_first :
    ∃ map other, new 1 twoSlots twoOverrides = .ok map ∧
      new 2 (⟨⟨"ipto-c"⟩, 3⟩ :: twoSlots) twoOverrides = .ok other ∧
      ∀ shardId, other.resolve shardId = map.resolve shardId ∨ other.resolve shardId = some ⟨"ipto-c"⟩ := by
  obtain ⟨map, hNew⟩ := exists_new 1 (by decide : twoSlots ≠ []) twoOverrides_apart
  obtain ⟨other, hOther, hOwners⟩ :=
    (reconfiguration_moves_minimum [] twoSlots ⟨⟨"ipto-c"⟩, 3⟩ twoOverrides 1 2).1 map hNew
  exact ⟨map, other, hNew, hOther, hOwners⟩

end IptoPlacementMap

end Vannak.Cluster
