import Vannak.Cluster.Invariant

/-!
# Resolving through the placement history

While entries move from one instance to another a reader asks the owners of a shard under
all the placement maps that are kept. What is kept is a window on the run: the last five
maps that were accepted, in the order in which they were accepted.
-/

namespace Vannak.Cluster

open Foundation

set_option autoImplicit false

namespace ClusterControlState

/-- The values of the tree map, in the order of the epochs. -/
def keptMaps (state : ClusterControlState) : List IptoPlacementMap :=
  state.placementMaps.toList.map Prod.snd

/-- The owner under the current map only. -/
def resolveIptoTarget (state : ClusterControlState) (shardId : DataIndividualShardId) : Option IptoInstanceId := do
  let map ← state.placementMap
  map.resolve shardId

/-- The owners under the kept maps, newest map first, each instance once. -/
def resolveWithFallback (state : ClusterControlState) (shardId : DataIndividualShardId) : List IptoInstanceId :=
  state.keptMaps.reverse.foldl (fun candidates map =>
    match map.resolve shardId with
    | some target => if target ∈ candidates then candidates else candidates ++ [target]
    | none => candidates) []

/-- All instances of all kept maps, for a query that goes everywhere. -/
def allIptoInstances (state : ClusterControlState) : List IptoInstanceId :=
  (state.keptMaps.foldl (fun found map =>
    map.instances.foldl (fun (found : BTreeSet IptoInstanceId × List IptoInstanceId) target =>
      if target ∈ found.1 then found else (found.1.insert target, found.2 ++ [target])) found) (∅, [])).2

theorem resolveWithFallback_eq (state : ClusterControlState) (shardId : DataIndividualShardId) :
    state.resolveWithFallback shardId =
      (state.keptMaps.reverse.filterMap fun map => map.resolve shardId).eraseDups := by
  rw [← foldl_push_new, List.foldl_filterMap, resolveWithFallback]
  congr 1
  funext candidates map
  cases map.resolve shardId <;> rfl

theorem allIptoInstances_eq (state : ClusterControlState) :
    state.allIptoInstances = (state.keptMaps.flatMap IptoPlacementMap.instances).eraseDups := by
  rw [← foldl_push_unseen, List.foldl_flatMap]
  rfl

theorem resolveWithFallback_subset (state : ClusterControlState) (shardId : DataIndividualShardId) :
    state.resolveWithFallback shardId ⊆ state.allIptoInstances := by
  intro target hTarget
  rw [resolveWithFallback_eq, List.mem_eraseDups, List.mem_filterMap] at hTarget
  obtain ⟨map, hMap, hResolve⟩ := hTarget
  rw [allIptoInstances_eq, List.mem_eraseDups]
  exact List.mem_flatMap.mpr ⟨map, List.mem_reverse.mp hMap, IptoPlacementMap.resolve_mem_instances hResolve⟩

/-- The current map is asked first, so its owner comes first. -/
theorem head?_resolveWithFallback {state : ClusterControlState} {shardId : DataIndividualShardId}
    {target : IptoInstanceId} (h : state.resolveIptoTarget shardId = some target) :
    (state.resolveWithFallback shardId).head? = some target := by
  obtain ⟨map, hMap, hResolve⟩ := Option.bind_eq_some_iff.mp h
  have hLast : state.keptMaps.getLast? = some map := hMap
  rw [resolveWithFallback_eq]
  obtain ⟨older, hKept⟩ := List.getLast?_eq_some_iff.mp hLast
  rw [hKept, List.reverse_append, List.reverse_singleton, List.singleton_append, List.filterMap_cons, hResolve,
    List.eraseDups_cons]
  rfl

/-! ## The window on the run -/

def acceptedMap? : ClusterControlCommand × Except ClusterControlError Unit → Option IptoPlacementMap
  | (.setIptoPlacementMap map, .ok ()) => some map
  | _ => none

/-- The placement maps that a run accepted, in order. -/
def acceptedMaps (history : List (ClusterControlCommand × Except ClusterControlError Unit)) :
    List IptoPlacementMap :=
  history.filterMap acceptedMap?

theorem toList_prune {fuel : Nat} {maps : BTreeMap PlacementEpoch IptoPlacementMap} (h : maps.size ≤ fuel) :
    (prune fuel maps).toList = maps.toList.drop (maps.size - maxPlacementHistory) := by
  induction fuel generalizing maps with
  | zero => rw [Nat.le_zero.mp h, Nat.zero_sub, prune, List.drop_zero]
  | succ fuel ih =>
    rw [prune]
    split
    · rename_i hLong
      obtain ⟨oldest, hOldest⟩ := exists_minKey? (Nat.zero_lt_of_lt hLong)
      have hSize : (maps.erase oldest).size = maps.size - 1 := by
        have hContains : maps.contains oldest = true :=
          Std.ExtTreeMap.contains_iff_mem.mpr (Std.ExtTreeMap.minKey?_mem hOldest)
        rw [Std.ExtTreeMap.size_erase, if_pos hContains]
      rw [hOldest]
      refine (ih (by omega)).trans ?_
      rw [toList_erase_first hOldest, hSize, ← List.drop_one, List.drop_drop]
      congr 1
      omega
    · rename_i hShort
      rw [Nat.sub_eq_zero_of_le (Nat.not_lt.mp hShort), List.drop_zero]

/-- A newer epoch than that of the current map is newer than all that are kept. -/
theorem Consistent.epoch_lt {state : ClusterControlState} (h : state.Consistent) {proposed : PlacementEpoch}
    (hNewer : ∀ current, state.placementMap = some current → current.epoch < proposed) :
    ∀ epoch ∈ state.placementMaps, compare epoch proposed = .lt := by
  intro epoch hEpoch
  obtain ⟨last, hLast⟩ : ∃ last, state.placementMaps.maxKey? = some last := by
    refine Option.ne_none_iff_exists'.mp fun hNone => ?_
    rw [Std.ExtTreeMap.maxKey?_eq_none_iff.mp hNone] at hEpoch
    exact Std.ExtTreeMap.not_mem_empty hEpoch
  obtain ⟨hMem, hAbove⟩ := Std.ExtTreeMap.maxKey?_eq_some_iff_mem_and_forall.mp hLast
  obtain ⟨current, hCurrent⟩ := Option.isSome_iff_exists.mp (Std.ExtTreeMap.mem_iff_isSome_getElem?.mp hMem)
  have hLt := hNewer current (by rw [placementMap_eq, hLast]; exact hCurrent)
  rw [h.placement_key last current hCurrent] at hLt
  have hLe : epoch ≤ last := (Std.LawfulOrderOrd.isLE_compare epoch last).mp (hAbove epoch hEpoch)
  exact Std.compare_eq_lt.mpr (UInt64.lt_of_le_of_lt hLe hLt)

theorem drop_concat_window {α : Type} (items : List α) (item : α) (window : Nat) :
    (items.drop (items.length - window) ++ [item]).drop
        ((items.drop (items.length - window)).length + 1 - window) =
      (items ++ [item]).drop ((items ++ [item]).length - window) := by
  rw [← List.drop_append_of_le_length (Nat.sub_le _ _), List.drop_drop, List.length_drop, List.length_append,
    List.length_singleton]
  congr 1
  omega

/-- What is kept, seen from the run that led to it. -/
structure KeepsRecent (history : List (ClusterControlCommand × Except ClusterControlError Unit))
    (state : ClusterControlState) : Prop where
  consistent : state.Consistent
  kept : state.keptMaps = (acceptedMaps history).drop ((acceptedMaps history).length - maxPlacementHistory)
  increasing : (acceptedMaps history).Pairwise fun older newer => older.epoch < newer.epoch

/-- The current map is the one accepted last. -/
theorem KeepsRecent.placementMap_eq {history : List (ClusterControlCommand × Except ClusterControlError Unit)}
    {state : ClusterControlState} (h : KeepsRecent history state) :
    state.placementMap = (acceptedMaps history).getLast? := by
  have hLast : state.placementMap = state.keptMaps.getLast? := rfl
  rw [hLast, h.kept, List.getLast?_drop]
  split
  · rename_i hAll
    have hEmpty : (acceptedMaps history).length = 0 := by
      have hFive : maxPlacementHistory = 5 := rfl
      omega
    rw [List.eq_nil_of_length_eq_zero hEmpty]
    rfl
  · rfl

theorem KeepsRecent.epoch_lt {history : List (ClusterControlCommand × Except ClusterControlError Unit)}
    {state : ClusterControlState} (h : KeepsRecent history state) {proposed : PlacementEpoch}
    (hNewer : ∀ current, state.placementMap = some current → current.epoch < proposed) :
    ∀ map ∈ acceptedMaps history, map.epoch < proposed := by
  intro map hMap
  cases hLast : (acceptedMaps history).getLast? with
  | none =>
    rw [List.getLast?_eq_none_iff.mp hLast] at hMap
    cases hMap
  | some last =>
    have hLt := hNewer last (h.placementMap_eq.trans hLast)
    obtain ⟨older, hAll⟩ := List.getLast?_eq_some_iff.mp hLast
    have hIncreasing := h.increasing
    rw [hAll] at hMap hIncreasing
    rcases List.mem_append.mp hMap with hOlder | hSame
    · exact UInt64.lt_trans ((List.pairwise_append.mp hIncreasing).2.2 map hOlder last List.mem_cons_self) hLt
    · rwa [List.mem_singleton.mp hSame]

theorem acceptedMaps_concat (history : List (ClusterControlCommand × Except ClusterControlError Unit))
    (command : ClusterControlCommand) (answer : Except ClusterControlError Unit) :
    acceptedMaps (history ++ [(command, answer)]) =
      acceptedMaps history ++ (acceptedMap? (command, answer)).toList := by
  rw [acceptedMaps, List.filterMap_append]
  cases hMap : acceptedMap? (command, answer) <;> simp [hMap, acceptedMaps]

theorem keepsRecent_step (history : List (ClusterControlCommand × Except ClusterControlError Unit))
    (state : ClusterControlState) (command : ClusterControlCommand) (h : KeepsRecent history state) :
    KeepsRecent (history ++ [(command, (state.apply command).1)]) (state.apply command).2 := by
  have hConsistent := h.consistent.apply command
  have hSame : ∀ next : ClusterControlState, next.Consistent → next.placementMaps = state.placementMaps →
      acceptedMap? (command, (state.apply command).1) = none →
      KeepsRecent (history ++ [(command, (state.apply command).1)]) next := by
    intro next hNext hMaps hNone
    have hMap : acceptedMaps (history ++ [(command, (state.apply command).1)]) = acceptedMaps history := by
      rw [acceptedMaps_concat, hNone, Option.toList_none, List.append_nil]
    refine ⟨hNext, ?_, hMap ▸ h.increasing⟩
    rw [hMap, keptMaps, hMaps]
    exact h.kept
  rcases apply_cases state command with ⟨next, hApply, hAccepts⟩ | ⟨error, hApply⟩
  · rw [hApply] at hConsistent hSame ⊢
    cases hAccepts with
    | setIptoPlacementMap map hNewer =>
      refine ⟨hConsistent, ?_, ?_⟩
      · rw [acceptedMaps_concat, acceptedMap?, Option.toList_some, ← drop_concat_window, ← h.kept, keptMaps]
        rw [toList_prune le_rfl, ← Std.ExtTreeMap.length_toList,
          toList_insert_last (h.consistent.epoch_lt hNewer), List.map_drop, List.map_append, List.length_append,
          keptMaps, List.length_map]
        rfl
      · rw [acceptedMaps_concat, acceptedMap?, Option.toList_some]
        refine List.pairwise_append.mpr ⟨h.increasing, List.pairwise_singleton _ _, fun older hOlder last hLast => ?_⟩
        rw [List.mem_singleton.mp hLast]
        exact h.epoch_lt hNewer older hOlder
    | addNode nodeId => exact hSame _ hConsistent rfl rfl
    | removeNode nodeId => exact hSame _ hConsistent rfl rfl
    | grantWriterLease lease hHolder hNewer => exact hSame _ hConsistent rfl rfl
    | recordOutboxCheckpoint checkpoint hNewer => exact hSame _ hConsistent rfl rfl
    | recordSealedSegment manifest => exact hSame _ hConsistent rfl rfl
    | recordCheckpoint checkpoint hNewer => exact hSame _ hConsistent rfl rfl
  · rw [hApply] at hConsistent hSame ⊢
    refine hSame state hConsistent rfl ?_
    cases command <;> rfl

theorem keepsRecent_run (commands : List ClusterControlCommand) :
    KeepsRecent (run apply new commands).1 (run apply new commands).2 := by
  exact run_history keepsRecent_step ⟨consistent_new, rfl, .nil⟩ commands

/-- Readers ask the owners under the last five accepted maps, the current owner first. -/
theorem resolveWithFallback_recent_owners (commands : List ClusterControlCommand)
    (shardId : DataIndividualShardId) :
    let accepted := acceptedMaps (run apply new commands).1
    let state := (run apply new commands).2
    state.resolveWithFallback shardId =
        ((accepted.reverse.take maxPlacementHistory).filterMap fun map => map.resolve shardId).eraseDups ∧
      (∀ target, state.resolveIptoTarget shardId = some target →
        (state.resolveWithFallback shardId).head? = some target) ∧
      ((∀ map ∈ accepted, map.Built) →
        (state.resolveWithFallback shardId).head? = state.resolveIptoTarget shardId) ∧
      (∀ target ∈ state.resolveWithFallback shardId, target ∈ state.allIptoInstances) ∧
      state.allIptoInstances.Nodup := by
  intro accepted state
  have hKept : state.keptMaps = accepted.drop (accepted.length - maxPlacementHistory) :=
    (keepsRecent_run commands).kept
  refine ⟨?_, fun target => head?_resolveWithFallback, fun hBuilt => ?_, ?_, ?_⟩
  · rw [resolveWithFallback_eq, hKept, List.take_reverse]
  · cases hCurrent : state.placementMap with
    | some map =>
      have hMap : map ∈ state.keptMaps := List.mem_of_getLast? hCurrent
      rw [hKept] at hMap
      obtain ⟨target, hTarget⟩ := (hBuilt map (List.mem_of_mem_drop hMap)).exists_resolve shardId
      have hOwner : state.resolveIptoTarget shardId = some target := by
        rw [resolveIptoTarget, hCurrent]
        exact hTarget
      rw [hOwner]
      exact head?_resolveWithFallback hOwner
    | none =>
      have hEmpty : state.keptMaps = [] := List.getLast?_eq_none_iff.mp hCurrent
      rw [resolveWithFallback_eq, hEmpty, resolveIptoTarget, hCurrent]
      rfl
  · exact fun target hTarget => resolveWithFallback_subset state shardId hTarget
  · rw [allIptoInstances_eq]
    exact nodup_eraseDups _

/-- All shards on one instance. -/
def oneInstanceMap (epoch : PlacementEpoch) (target : IptoInstanceId) : IptoPlacementMap where
  epoch := epoch
  slots := [⟨target, 1⟩]
  ring := IptoPlacementRing.new epoch [⟨target, 1⟩]
  overrides := []
  slots_ne_nil := List.cons_ne_nil _ _
  ring_eq := rfl
  overrides_sorted := noOverrides_sorted
  overrides_before := noOverrides_before

theorem oneInstanceMap_built (epoch : PlacementEpoch) (target : IptoInstanceId) :
    (oneInstanceMap epoch target).Built :=
  ⟨epoch, _, _, by simp [oneInstanceMap, IptoPlacementSlot.new], by simp [oneInstanceMap],
    @IptoPlacementMap.new_self (oneInstanceMap epoch target) rfl⟩

/-- A third map returns to the first owner, and a stale one is refused. -/
def movedAndBack : List ClusterControlCommand :=
  [.setIptoPlacementMap (oneInstanceMap 1 ⟨"ipto-a"⟩), .setIptoPlacementMap (oneInstanceMap 2 ⟨"ipto-b"⟩),
    .setIptoPlacementMap (oneInstanceMap 1 ⟨"ipto-c"⟩), .setIptoPlacementMap (oneInstanceMap 3 ⟨"ipto-a"⟩)]

theorem resolveWithFallback_recent_owners_moved :
    ((run apply new movedAndBack).2.resolveWithFallback 42) = [⟨"ipto-a"⟩, ⟨"ipto-b"⟩] ∧
      ((run apply new movedAndBack).2.resolveWithFallback 42).head? =
        (run apply new movedAndBack).2.resolveIptoTarget 42 := by
  have hAccepted : acceptedMaps (run apply new movedAndBack).1 =
      [oneInstanceMap 1 ⟨"ipto-a"⟩, oneInstanceMap 2 ⟨"ipto-b"⟩, oneInstanceMap 3 ⟨"ipto-a"⟩] := by
    decide +kernel
  obtain ⟨hOwners, -, hHead, -⟩ := resolveWithFallback_recent_owners movedAndBack 42
  refine ⟨?_, hHead ?_⟩
  · rw [hOwners, hAccepted]
    decide +kernel
  · rw [hAccepted]
    intro map hMap
    simp only [List.mem_cons, List.not_mem_nil, or_false] at hMap
    rcases hMap with rfl | rfl | rfl
    · exact oneInstanceMap_built 1 _
    · exact oneInstanceMap_built 2 _
    · exact oneInstanceMap_built 3 _

end ClusterControlState

end Vannak.Cluster
