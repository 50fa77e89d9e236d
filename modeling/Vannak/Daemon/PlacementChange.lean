import Vannak.Foundation.Sweep
import Vannak.Cluster.Placement

/-!
# Detecting placement changes

`detect_placement_change` of `daemon.rs` compares two placement maps at the starts of the
intervals on which both are constant, and merges what it finds into ranges. The sweep is
exact: between two neighbouring starts neither resolution changes.
-/

namespace Vannak.Daemon

open Foundation Cluster

set_option autoImplicit false

/-- A shard range that changed owner; the label is the old and the new target. -/
abbrev MovedRange := Piece DataIndividualShardId (IptoInstanceId × IptoInstanceId)

structure PlacementChange where
  fromEpoch : PlacementEpoch
  toEpoch : PlacementEpoch
  movedRanges : List MovedRange
deriving DecidableEq, Repr

def PlacementChange.isEmpty (change : PlacementChange) : Bool := change.movedRanges.isEmpty

/-- `u64::MAX`. -/
def u64Max : UInt64 := UInt64.ofNat (2 ^ 64 - 1)

/-- Each boundary with the last shard before the next one. -/
def intervals : List UInt64 → List (UInt64 × UInt64)
  | [] => []
  | [start] => [(start, u64Max)]
  | start :: next :: rest => (start, next - 1) :: intervals (next :: rest)

section Detect

variable (fromMap toMap : IptoPlacementMap)

/-- The loop body: the last range grows if the interval touches it and moved alike. -/
def recordMove (movedRanges : List MovedRange) (interval : UInt64 × UInt64) : List MovedRange :=
  match fromMap.resolve interval.1, toMap.resolve interval.1 with
  | some old, some new =>
    if old = new then movedRanges
    else
      match movedRanges.getLast? with
      | some previous =>
        if IptoPlacementMap.checkedSucc previous.last = some interval.1 ∧ previous.label = (old, new) then
          movedRanges.dropLast ++ [{ previous with last := interval.2 }]
        else movedRanges ++ [⟨interval.1, interval.2, (old, new)⟩]
      | none => movedRanges ++ [⟨interval.1, interval.2, (old, new)⟩]
  | _, _ => movedRanges

def boundaries : List UInt64 := (fromMap.intervalStarts.insertMany toMap.intervalStarts.toList).toList

def detectPlacementChange : PlacementChange where
  fromEpoch := fromMap.epoch
  toEpoch := toMap.epoch
  movedRanges := (intervals (boundaries fromMap toMap)).foldl (recordMove fromMap toMap) []

/-- Old and new target of a shard that moves. -/
def move (shardId : DataIndividualShardId) : Option (IptoInstanceId × IptoInstanceId) :=
  match fromMap.resolve shardId, toMap.resolve shardId with
  | some old, some new => if old = new then none else some (old, new)
  | _, _ => none

end Detect

/-! ## Machine arithmetic -/

theorem le_u64Max (value : UInt64) : value ≤ u64Max := by
  rw [UInt64.le_iff_toNat_le, u64Max, UInt64.toNat_ofNat_of_lt' (by decide)]
  have hSize := value.toNat_lt
  omega

theorem checkedSucc_eq_some {value next : UInt64} :
    IptoPlacementMap.checkedSucc value = some next ↔ value ⋖ next := by
  have hMax : u64Max.toNat = 2 ^ 64 - 1 := UInt64.toNat_ofNat_of_lt' (by decide)
  rw [UInt64.covBy_iff, IptoPlacementMap.checkedSucc]
  split
  · rename_i hLast
    have hNext := next.toNat_lt
    have hValue : value.toNat = 2 ^ 64 - 1 := hLast ▸ hMax
    simp only [reduceCtorEq, false_iff]
    omega
  · rename_i hLast
    have hBelow : value.toNat ≠ 2 ^ 64 - 1 := fun hEq =>
      hLast (UInt64.toNat_inj.mp (hEq.trans hMax.symm))
    have hSize := value.toNat_lt
    rw [Option.some.injEq, ← UInt64.toNat_inj, UInt64.toNat_add,
      Nat.mod_eq_of_lt (by rw [UInt64.toNat_one]; omega), UInt64.toNat_one]
    exact eq_comm

theorem pred_covBy {first next : UInt64} (h : first < next) : next - 1 ⋖ next := by
  have hLt := UInt64.lt_iff_toNat_lt.mp h
  have hPositive : 1 ≤ next := by
    rw [UInt64.le_iff_toNat_le, UInt64.toNat_one]
    omega
  rw [UInt64.covBy_iff, UInt64.toNat_sub_of_le _ _ hPositive, UInt64.toNat_one]
  omega

theorem exists_covBy {value above : UInt64} (h : value < above) : ∃ next, value ⋖ next ∧ next ≤ above := by
  have hLt := UInt64.lt_iff_toNat_lt.mp h
  have hSize : value.toNat + 1 < UInt64.size := Nat.lt_of_le_of_lt hLt above.toNat_lt
  have hNext : value ⋖ UInt64.ofNat (value.toNat + 1) :=
    UInt64.covBy_iff.mpr (UInt64.toNat_ofNat_of_lt' hSize)
  exact ⟨_, hNext, hNext.ge_of_gt h⟩

/-! ## Resolution between boundaries -/

section Resolution

variable {map : IptoPlacementMap} {left right : DataIndividualShardId}

theorem mem_intervalStarts {value : UInt64} :
    value ∈ map.intervalStarts ↔ value = 0 ∨
      (∃ point ∈ map.ring.points, point.position ⋖ value) ∨
      ∃ range ∈ map.overrides, value = range.start ∨ range.stop ⋖ value := by
  rw [IptoPlacementMap.intervalStarts, Std.ExtTreeSet.mem_insertMany_list]
  simp only [List.contains_iff_mem, List.mem_cons, List.mem_append, List.mem_filterMap, List.mem_flatMap,
    Option.mem_toList, checkedSucc_eq_some, Std.ExtTreeSet.not_mem_empty, false_or]

theorem findIdx_congr {α : Type} {first second : α → Bool} {items : List α}
    (h : ∀ item ∈ items, first item = second item) : items.findIdx first = items.findIdx second := by
  induction items with
  | nil => rfl
  | cons item items ih =>
    obtain ⟨hItem, hItems⟩ := List.forall_mem_cons.mp h
    rw [List.findIdx_cons, List.findIdx_cons, hItem, ih hItems]

/-- The starts hold every shard at which the resolution of the map can change. -/
theorem resolve_eq_of_no_start (hLe : left ≤ right)
    (hStarts : ∀ start ∈ map.intervalStarts, left < start → right < start) :
    map.resolve left = map.resolve right := by
  have hPoint : ∀ point ∈ map.ring.points, (¬point.position < left ↔ ¬point.position < right) := by
    intro point hPoint
    refine not_congr ⟨fun hBelow => hBelow.trans_le hLe, fun hBelow => ?_⟩
    by_contra hNot
    obtain ⟨next, hNext, hReached⟩ := exists_covBy hBelow
    have hStart := mem_intervalStarts.mpr (.inr (.inl ⟨point, hPoint, hNext⟩))
    exact absurd (hStarts next hStart ((not_lt.mp hNot).trans_lt hNext.lt)) (not_lt.mpr hReached)
  have hRange : ∀ range ∈ map.overrides, range.contains left = range.contains right := by
    intro range hRange
    refine decide_eq_decide.mpr ⟨fun ⟨hFrom, hTo⟩ => ⟨hFrom.trans hLe, ?_⟩, fun ⟨hFrom, hTo⟩ =>
      ⟨?_, hLe.trans hTo⟩⟩
    · by_contra hNot
      obtain ⟨next, hNext, hReached⟩ := exists_covBy (not_le.mp hNot)
      have hStart := mem_intervalStarts.mpr (.inr (.inr ⟨range, hRange, .inr hNext⟩))
      exact absurd (hStarts next hStart (hTo.trans_lt hNext.lt)) (not_lt.mpr hReached)
    · by_contra hNot
      have hStart := mem_intervalStarts.mpr (.inr (.inr ⟨range, hRange, .inl rfl⟩))
      exact absurd (hStarts range.start hStart (not_le.mp hNot)) (not_lt.mpr hFrom)
  have hRing : map.ring.resolve left = map.ring.resolve right := by
    rw [IptoPlacementRing.resolve, IptoPlacementRing.resolve]
    rw [findIdx_congr fun point h => decide_eq_decide.mpr (hPoint point h)]
  rw [IptoPlacementMap.resolve, IptoPlacementMap.resolve, List.find?_congr hRange, hRing]

end Resolution

/-! ## The intervals -/

theorem tiles_intervals {first : UInt64} {rest : List UInt64} (h : (first :: rest).Pairwise (· < ·)) :
    Tiles u64Max first (intervals (first :: rest)) := by
  induction rest generalizing first with
  | nil => exact .last (le_u64Max first)
  | cons next rest ih =>
    obtain ⟨hFirst, hRest⟩ := List.pairwise_cons.mp h
    have hLt := hFirst next List.mem_cons_self
    have hPred := pred_covBy hLt
    exact .cons (hPred.le_of_lt hLt) hPred (ih hRest)

theorem fst_mem_of_mem_intervals {starts : List UInt64} {interval : UInt64 × UInt64}
    (h : interval ∈ intervals starts) : interval.1 ∈ starts := by
  fun_induction intervals starts with
  | case1 => cases h
  | case2 first =>
    obtain rfl := List.mem_singleton.mp h
    exact List.mem_cons_self
  | case3 first next rest ih =>
    rcases List.mem_cons.mp h with rfl | hLater
    · exact List.mem_cons_self
    · exact List.mem_cons_of_mem _ (ih hLater)

/-- No boundary lies inside an interval after its start. -/
theorem lt_of_mem_intervals {starts : List UInt64} (h : starts.Pairwise (· < ·))
    {interval : UInt64 × UInt64} (hInterval : interval ∈ intervals starts) {start : UInt64}
    (hStart : start ∈ starts) (hAfter : interval.1 < start) : interval.2 < start := by
  fun_induction intervals starts with
  | case1 => cases hStart
  | case2 first =>
    obtain rfl := List.mem_singleton.mp hInterval
    obtain rfl := List.mem_singleton.mp hStart
    exact absurd hAfter (lt_irrefl _)
  | case3 first next rest ih =>
    obtain ⟨hFirst, hRest⟩ := List.pairwise_cons.mp h
    rcases List.mem_cons.mp hInterval with rfl | hLaterInterval
    · rcases List.mem_cons.mp hStart with rfl | hStart
      · exact absurd hAfter (lt_irrefl _)
      · have hPred := pred_covBy (hFirst next List.mem_cons_self)
        rcases List.mem_cons.mp hStart with rfl | hLater
        · exact hPred.lt
        · exact hPred.lt.trans ((List.pairwise_cons.mp hRest).1 start hLater)
    · rcases List.mem_cons.mp hStart with rfl | hStart
      · exact absurd hAfter (hFirst interval.1 (fst_mem_of_mem_intervals hLaterInterval)).not_gt
      · exact ih hRest hLaterInterval hStart

section Exactness

variable {fromMap toMap : IptoPlacementMap}

theorem mem_boundaries {start : UInt64} :
    start ∈ boundaries fromMap toMap ↔ start ∈ fromMap.intervalStarts ∨ start ∈ toMap.intervalStarts := by
  rw [boundaries, Std.ExtTreeSet.mem_toList, Std.ExtTreeSet.mem_insertMany_list, List.contains_iff_mem,
    Std.ExtTreeSet.mem_toList]

theorem boundaries_sorted : (boundaries fromMap toMap).Pairwise (· < ·) :=
  Std.ExtTreeSet.ordered_toList.imp fun h => Std.compare_eq_lt.mp h

theorem boundaries_eq_cons : ∃ rest, boundaries fromMap toMap = 0 :: rest := by
  have hZero : (0 : UInt64) ∈ boundaries fromMap toMap :=
    mem_boundaries.mpr (.inl (mem_intervalStarts.mpr (.inl rfl)))
  have hSorted := @boundaries_sorted fromMap toMap
  cases hStarts : boundaries fromMap toMap with
  | nil =>
    rw [hStarts] at hZero
    cases hZero
  | cons first rest =>
    rw [hStarts] at hZero hSorted
    rcases List.mem_cons.mp hZero with rfl | hLater
    · exact ⟨rest, rfl⟩
    · exact absurd ((List.pairwise_cons.mp hSorted).1 0 hLater) (by simp)

theorem move_eq_of_mem_interval {interval : UInt64 × UInt64}
    (hInterval : interval ∈ intervals (boundaries fromMap toMap)) {shardId : DataIndividualShardId}
    (hShard : shardId ∈ Set.Icc interval.1 interval.2) :
    move fromMap toMap shardId = move fromMap toMap interval.1 := by
  have hApart : ∀ start ∈ boundaries fromMap toMap, interval.1 < start → shardId < start :=
    fun start hStart hAfter => hShard.2.trans_lt (lt_of_mem_intervals boundaries_sorted hInterval hStart hAfter)
  rw [move, move,
    resolve_eq_of_no_start hShard.1 fun start hStart => hApart start (mem_boundaries.mpr (.inl hStart)),
    resolve_eq_of_no_start hShard.1 fun start hStart => hApart start (mem_boundaries.mpr (.inr hStart))]

/-- What the loop body does, in terms of the move of the interval's first shard. -/
theorem recordMove_cases (movedRanges : List MovedRange) (interval : UInt64 × UInt64) :
    (move fromMap toMap interval.1 = none ∧ recordMove fromMap toMap movedRanges interval = movedRanges) ∨
    ∃ pair, move fromMap toMap interval.1 = some pair ∧
      ((∃ before previous, movedRanges = before ++ [previous] ∧ previous.last ⋖ interval.1 ∧
          previous.label = pair ∧
          recordMove fromMap toMap movedRanges interval =
            before ++ [⟨previous.first, interval.2, previous.label⟩]) ∨
        ((∀ previous, movedRanges.getLast? = some previous → previous.last ⋖ interval.1 →
            previous.label ≠ pair) ∧
          recordMove fromMap toMap movedRanges interval = movedRanges ++ [⟨interval.1, interval.2, pair⟩])) := by
  rw [recordMove, move]
  split
  · rename_i old new hOld hNew
    split
    · exact .inl ⟨rfl, rfl⟩
    refine .inr ⟨_, rfl, ?_⟩
    split
    · rename_i previous hLast
      obtain ⟨before, rfl⟩ := List.getLast?_eq_some_iff.mp hLast
      split
      · rename_i hTouch
        refine .inl ⟨before, previous, rfl, checkedSucc_eq_some.mp hTouch.1, hTouch.2, ?_⟩
        rw [List.dropLast_concat]
      · rename_i hNot
        refine .inr ⟨fun other hOther hTouch hLabel => hNot ?_, rfl⟩
        obtain rfl := Option.some.inj (hLast.symm.trans hOther)
        exact ⟨checkedSucc_eq_some.mpr hTouch, hLabel⟩
    · rename_i hNone
      refine .inr ⟨fun previous hPrevious => ?_, rfl⟩
      rw [hNone] at hPrevious
      cases hPrevious
  · exact .inl ⟨rfl, rfl⟩

theorem charts_recordMove {interval : UInt64 × UInt64}
    (hInterval : interval ∈ intervals (boundaries fromMap toMap)) (movedRanges : List MovedRange)
    (hTile : interval.1 ≤ interval.2) (h : Charts (move fromMap toMap) (Set.Iio interval.1) movedRanges) :
    Charts (move fromMap toMap) (Set.Iic interval.2) (recordMove fromMap toMap movedRanges interval) := by
  have hConstant : ∀ shardId ∈ Set.Icc interval.1 interval.2,
      move fromMap toMap shardId = move fromMap toMap interval.1 :=
    fun shardId hShard => move_eq_of_mem_interval hInterval hShard
  rcases @recordMove_cases fromMap toMap movedRanges interval with
    ⟨hNone, hEq⟩ | ⟨pair, hPair, ⟨before, previous, rfl, hTouch, rfl, hEq⟩ | ⟨hNew, hEq⟩⟩
  · rw [hEq]
    exact h.skip hTile fun shardId hShard => (hConstant shardId hShard).trans hNone
  · rw [hEq]
    exact h.extend hTile hTouch fun shardId hShard => (hConstant shardId hShard).trans hPair
  · rw [hEq]
    exact h.push hTile (fun shardId hShard => (hConstant shardId hShard).trans hPair) hNew

theorem charts_detectPlacementChange :
    Charts (move fromMap toMap) (Set.Iic u64Max) (detectPlacementChange fromMap toMap).movedRanges := by
  obtain ⟨rest, hStarts⟩ := @boundaries_eq_cons fromMap toMap
  have hTiles : Tiles u64Max 0 (intervals (boundaries fromMap toMap)) := by
    rw [hStarts]
    exact tiles_intervals (hStarts ▸ boundaries_sorted)
  exact Charts.foldl hTiles (fun interval hInterval => charts_recordMove hInterval)
    (charts_empty fun shardId => UInt64.zero_le)

theorem move_eq_none (hFrom : fromMap.Built) (hTo : toMap.Built) {shardId : DataIndividualShardId} :
    move fromMap toMap shardId = none ↔ fromMap.resolve shardId = toMap.resolve shardId := by
  obtain ⟨old, hOld⟩ := hFrom.exists_resolve shardId
  obtain ⟨new, hNew⟩ := hTo.exists_resolve shardId
  simp [move, hOld, hNew]

theorem resolve_of_move {shardId : DataIndividualShardId} {pair : IptoInstanceId × IptoInstanceId}
    (h : move fromMap toMap shardId = some pair) :
    fromMap.resolve shardId = some pair.1 ∧ toMap.resolve shardId = some pair.2 := by
  rw [move] at h
  split at h
  · rename_i old new hOld hNew
    split at h
    · cases h
    · cases h
      exact ⟨hOld, hNew⟩
  · cases h

/-- The ranges hold the shards that move and no others, each once, with their targets;
they are sorted and disjoint, and ranges that touch moved differently. -/
structure ListsMoves (fromMap toMap : IptoPlacementMap) (movedRanges : List MovedRange) : Prop where
  unmoved : ∀ shardId, fromMap.resolve shardId = toMap.resolve shardId →
    movedRanges.filter (·.contains shardId) = []
  moved : ∀ shardId, fromMap.resolve shardId ≠ toMap.resolve shardId →
    ∃ range, movedRanges.filter (·.contains shardId) = [range] ∧
      fromMap.resolve shardId = some range.label.1 ∧ toMap.resolve shardId = some range.label.2
  nonempty : ∀ range ∈ movedRanges, range.first ≤ range.last
  sorted : movedRanges.Pairwise fun left right => left.last < right.first
  maximal : movedRanges.Pairwise fun left right =>
    left.last.toNat + 1 = right.first.toNat → left.label ≠ right.label

theorem detectPlacementChange_exact (hFrom : fromMap.Built) (hTo : toMap.Built) :
    ListsMoves fromMap toMap (detectPlacementChange fromMap toMap).movedRanges where
  unmoved shardId hSame :=
    charts_detectPlacementChange.filter_eq_nil (le_u64Max shardId) ((move_eq_none hFrom hTo).mpr hSame)
  moved shardId hMoved := by
    obtain ⟨pair, hPair⟩ := Option.ne_none_iff_exists'.mp fun h => hMoved ((move_eq_none hFrom hTo).mp h)
    obtain ⟨range, hRange, rfl⟩ :=
      charts_detectPlacementChange.filter_eq_singleton (le_u64Max shardId) hPair
    exact ⟨range, hRange, resolve_of_move hPair⟩
  nonempty := charts_detectPlacementChange.ordered
  sorted := charts_detectPlacementChange.apart.imp fun h => h.1
  maximal := charts_detectPlacementChange.apart.imp fun h hTouch => h.2 (UInt64.covBy_iff.mpr hTouch.symm)

end Exactness

/-- One ring point for one instance, and optional overrides. -/
def singleSlotMap (epoch : PlacementEpoch) (overrides : List IptoPlacementRange)
    (hSorted : overrides.Pairwise fun left right => left.start ≤ right.start)
    (hBefore : overrides.Pairwise IptoPlacementRange.Before) : IptoPlacementMap where
  epoch := epoch
  slots := [⟨⟨"ipto-a"⟩, 1⟩]
  ring := IptoPlacementRing.new epoch [⟨⟨"ipto-a"⟩, 1⟩]
  overrides := overrides
  slots_ne_nil := by decide
  ring_eq := rfl
  overrides_sorted := hSorted
  overrides_before := hBefore

def mapBefore : IptoPlacementMap := singleSlotMap 1 [] noOverrides_sorted noOverrides_before

def mapAfter : IptoPlacementMap :=
  singleSlotMap 2 [⟨10, u64Max, ⟨"ipto-b"⟩⟩] (List.pairwise_singleton _ _) (List.pairwise_singleton _ _)

/-- An override up to the last shard: the shards from 10 on move, and shard 0 does not. -/
theorem detectPlacementChange_exact_last_shard :
    (detectPlacementChange mapBefore mapAfter).movedRanges = [⟨10, u64Max, (⟨"ipto-a"⟩, ⟨"ipto-b"⟩)⟩] ∧
      ListsMoves mapBefore mapAfter (detectPlacementChange mapBefore mapAfter).movedRanges :=
  ⟨by decide +kernel, detectPlacementChange_exact
    ⟨1, mapBefore.slots, mapBefore.overrides, by decide, by decide, IptoPlacementMap.new_self rfl⟩
    ⟨2, mapAfter.slots, mapAfter.overrides, by decide, by decide, IptoPlacementMap.new_self rfl⟩⟩

end Vannak.Daemon
