import Vannak.Cluster.Fallback
import Vannak.Daemon.Rebalance

/-!
# The rebalance monitor

`run_rebalance_monitor` of `daemon.rs` remembers the epoch it saw last. A cycle takes the lock on
the control state twice, once for the current map and once for the map of the remembered epoch, so
that commands may be committed in between, and then holds the writer while it rebalances. The
remembered epoch moves on whatever came of that.
-/

namespace Vannak.Daemon

open Foundation Storage Cluster Ipto

set_option autoImplicit false

structure RebalanceMonitorConfig where
  maxDrainAttempts : Nat

/-- The control state as its committed commands, the state behind the shared writer, and the
variables of the loop. `reading` is what the first lock of the cycle under way gave. -/
structure RebalanceMonitor (ω : Type) where
  log : List ClusterControlCommand
  remote : ω
  lastEpoch : Option PlacementEpoch
  reading : Option (Option IptoPlacementMap)
  outcomes : List RebalanceOutcome

/-- A committed command, a write by another user of the writer, or the next step of the loop with
what it meets when it scans the segment. -/
inductive MonitorStep where
  | command (command : ClusterControlCommand)
  | write (payload : IptoWritePayload)
  | advance (scan : MovedRange → SegmentScan)

/-- A call of `rebalance_after_placement_change` and its result. -/
abbrev RebalanceCall := PlacementChange × Except MetadataOutboxStorageError (List RebalanceOutcome)

namespace RebalanceMonitor

variable {ω : Type}

def start (remote : ω) : RebalanceMonitor ω := ⟨[], remote, none, none, []⟩

def control (monitor : RebalanceMonitor ω) : ClusterControlState :=
  (run ClusterControlState.apply .new monitor.log).2

/-- The placement maps accepted so far, kept or pruned. -/
def accepted (monitor : RebalanceMonitor ω) : List IptoPlacementMap :=
  ClusterControlState.acceptedMaps (run ClusterControlState.apply .new monitor.log).1

/-- `placement_map_history().find(..)`. -/
def mapOfEpoch (state : ClusterControlState) (epoch : PlacementEpoch) : Option IptoPlacementMap :=
  (state.placementMaps.toList.find? fun binding => binding.1 = epoch).map Prod.snd

/-- The cycle after its first lock. -/
def finishCycle (writer : IptoWriter ω) (config : RebalanceMonitorConfig) (scan : MovedRange → SegmentScan)
    (currentMap : Option IptoPlacementMap) (monitor : RebalanceMonitor ω) :
    Option RebalanceCall × RebalanceMonitor ω :=
  let monitor := { monitor with reading := none }
  match currentMap with
  | none => (none, monitor)
  | some map =>
    match monitor.lastEpoch with
    | none => (none, { monitor with lastEpoch := some map.epoch })
    | some previous =>
      if previous = map.epoch then (none, monitor)
      else
        let monitor' := { monitor with lastEpoch := some map.epoch }
        match mapOfEpoch monitor.control previous with
        | none => (none, monitor')
        | some previousMap =>
          let change := detectPlacementChange previousMap map
          if change.isEmpty then (none, monitor')
          else
            match rebalanceAfterPlacementChange writer scan config.maxDrainAttempts change monitor.remote with
            | (.ok result, remote) =>
              (some (change, .ok result), { monitor' with remote, outcomes := monitor'.outcomes ++ result })
            | (.error error, remote) => (some (change, .error error), { monitor' with remote })

end RebalanceMonitor

open RebalanceMonitor in
def monitorStep {ω : Type} (writer : IptoWriter ω) (config : RebalanceMonitorConfig)
    (monitor : RebalanceMonitor ω) : MonitorStep → Option RebalanceCall × RebalanceMonitor ω
  | .command command => (none, { monitor with log := monitor.log ++ [command] })
  | .write payload => (none, { monitor with remote := (writer.write monitor.remote payload).2 })
  | .advance scan =>
    match monitor.reading with
    | none => (none, { monitor with reading := some monitor.control.placementMap })
    | some currentMap => finishCycle writer config scan currentMap monitor

/-- The owner of some shard under one map differs from its owner under the other. -/
def SomeShardMoves (fromMap toMap : IptoPlacementMap) : Prop :=
  ∃ shardId old new, fromMap.resolve shardId = some old ∧ toMap.resolve shardId = some new ∧ old ≠ new

/-- In every moved range all entries found were acknowledged. -/
def AllAcknowledged (change : PlacementChange) (outcomes : List RebalanceOutcome) : Prop :=
  outcomes.length = change.movedRanges.length ∧
    ∀ outcome ∈ outcomes, outcome.drainSummary.acknowledged = outcome.drainSummary.entriesFound

section Monitor

variable {ω : Type} (writer : IptoWriter ω) (config : RebalanceMonitorConfig)

/-- A step takes the remembered epoch past a change only after rebalancing for it, to the end. -/
def NeverSkips (monitor : RebalanceMonitor ω) (input : MonitorStep) : Prop :=
  ∀ before ∈ monitor.accepted, ∀ after ∈ monitor.accepted, monitor.lastEpoch = some before.epoch →
    (monitorStep writer config monitor input).2.lastEpoch = some after.epoch → SomeShardMoves before after →
    ∃ outcomes, (monitorStep writer config monitor input).1 =
        some (detectPlacementChange before after, .ok outcomes) ∧
      AllAcknowledged (detectPlacementChange before after) outcomes

/-- For every range in turn the segment can be read, the attempts are enough for its records and the
writer takes each of them. -/
def RangesAccepted (scan : MovedRange → SegmentScan) : List MovedRange → ω → Prop
  | [], _ => True
  | range :: ranges, remote =>
    ∃ ledger next, segmentLedger (scan range) = .ok ledger ∧
      (payloadsOf ledger range).length ≤ config.maxDrainAttempts ∧
      acceptAll writer remote (payloadsOf ledger range) = some next ∧ RangesAccepted scan ranges next

/-- A cycle that comes to a change still finds the old map, and nothing fails while it rebalances. -/
def MeetsNoFailure (monitor : RebalanceMonitor ω) (input : MonitorStep) : Prop :=
  ∀ scan map, input = .advance scan → monitor.reading = some (some map) →
    ∀ before ∈ monitor.accepted, monitor.lastEpoch = some before.epoch → SomeShardMoves before map →
      before ∈ monitor.control.keptMaps ∧
        RangesAccepted writer config scan (detectPlacementChange before map).movedRanges monitor.remote

/-! ## Rebalancing without a failure -/

theorem rebalanceRanges_acknowledged_iff (scan : MovedRange → SegmentScan) (change : PlacementChange)
    (ranges : List MovedRange) (remote : ω) :
    (∃ outcomes, (rebalanceRanges writer scan config.maxDrainAttempts change ranges remote).1 = .ok outcomes ∧
      outcomes.length = ranges.length ∧
      ∀ outcome ∈ outcomes, outcome.drainSummary.acknowledged = outcome.drainSummary.entriesFound) ↔
    RangesAccepted writer config scan ranges remote := by
  induction ranges generalizing remote with
  | nil => exact ⟨fun _ => trivial, fun _ => ⟨[], rfl, rfl, by simp⟩⟩
  | cons range ranges ih =>
    rw [rebalanceRanges, rebalanceShardRangeTo_eq, RangesAccepted]
    cases hLedger : segmentLedger (scan range) with
    | error error =>
      constructor
      · rintro ⟨_, hOk, -⟩
        cases hOk
      · rintro ⟨_, _, hSome, -⟩
        cases hSome
    | ok ledger =>
      dsimp only
      generalize hOffer : offer writer config.maxDrainAttempts (rangePayloads range.first range.last ledger)
        ⟨0, 0, 0, false⟩ remote = offered
      obtain ⟨drain, next⟩ := offered
      dsimp only
      constructor
      · rintro ⟨outcomes, hOk, hLength, hAll⟩
        rcases hRest : rebalanceRanges writer scan config.maxDrainAttempts change ranges next with
          ⟨error | rest, last⟩
        · rw [hRest] at hOk
          cases hOk
        · rw [hRest] at hOk
          cases hOk
          have hFirst : drain.acknowledged = (rangePayloads range.first range.last ledger).length :=
            hAll _ List.mem_cons_self
          obtain ⟨hAttempts, taken, hTaken⟩ := acceptAll_of_offer writer (by rw [hOffer, hFirst, Nat.zero_add])
          have hNext := offer_of_acceptAll writer hTaken hAttempts ⟨0, 0, 0, false⟩
          rw [hOffer] at hNext
          cases hNext
          refine ⟨ledger, next, rfl, hAttempts, hTaken, (ih next).mp ⟨rest, ?_, ?_, ?_⟩⟩
          · rw [hRest]
          · exact Nat.succ.inj hLength
          · exact fun outcome hOutcome => hAll outcome (List.mem_cons_of_mem _ hOutcome)
      · rintro ⟨found, taken, hFound, hAttempts, hTaken, hRanges⟩
        cases hFound
        have hNext := offer_of_acceptAll writer hTaken hAttempts ⟨0, 0, 0, false⟩
        rw [payloadsOf, hOffer] at hNext
        cases hNext
        obtain ⟨rest, hRest, hLength, hAll⟩ := (ih next).mpr hRanges
        rcases hResult : rebalanceRanges writer scan config.maxDrainAttempts change ranges next with ⟨result, last⟩
        rw [hResult] at hRest
        cases hRest
        refine ⟨_, rfl, congrArg Nat.succ hLength, fun outcome hOutcome => ?_⟩
        rcases List.mem_cons.mp hOutcome with rfl | hOutcome
        · exact Nat.zero_add _
        · exact hAll outcome hOutcome

theorem acknowledged_iff (scan : MovedRange → SegmentScan) (change : PlacementChange) (remote : ω) :
    (∃ outcomes, (rebalanceAfterPlacementChange writer scan config.maxDrainAttempts change remote).1 = .ok outcomes ∧
      AllAcknowledged change outcomes) ↔
    RangesAccepted writer config scan change.movedRanges remote :=
  rebalanceRanges_acknowledged_iff writer config scan change change.movedRanges remote

theorem movedRanges_ne_nil {fromMap toMap : IptoPlacementMap} (h : SomeShardMoves fromMap toMap) :
    (detectPlacementChange fromMap toMap).movedRanges ≠ [] := by
  obtain ⟨shardId, old, new, hOld, hNew, hMoved⟩ := h
  have hMove : move fromMap toMap shardId = some (old, new) := by simp [move, hOld, hNew, hMoved]
  obtain ⟨range, hRange, -⟩ := charts_detectPlacementChange.filter_eq_singleton (le_u64Max shardId) hMove
  intro hNil
  rw [hNil] at hRange
  cases hRange

/-! ## What the monitor has seen -/

namespace RebalanceMonitor

variable {monitor : RebalanceMonitor ω}

theorem keepsRecent (monitor : RebalanceMonitor ω) : ClusterControlState.KeepsRecent
    (run ClusterControlState.apply .new monitor.log).1 monitor.control :=
  ClusterControlState.keepsRecent_run monitor.log

theorem accepted_of_kept {map : IptoPlacementMap} (h : map ∈ monitor.control.keptMaps) : map ∈ monitor.accepted := by
  rw [monitor.keepsRecent.kept] at h
  exact List.mem_of_mem_drop h

/-- No two maps with the same epoch are accepted. -/
theorem accepted_unique {left right : IptoPlacementMap} (hLeft : left ∈ monitor.accepted)
    (hRight : right ∈ monitor.accepted) (hEpoch : left.epoch = right.epoch) : left = right := by
  have hEpochs : (monitor.accepted.map IptoPlacementMap.epoch).Nodup :=
    List.pairwise_map.mpr (monitor.keepsRecent.increasing.imp UInt64.ne_of_lt)
  exact List.inj_on_of_nodup_map hEpochs hLeft hRight hEpoch

theorem mapOfEpoch_eq_some {epoch : PlacementEpoch} {map : IptoPlacementMap} :
    mapOfEpoch monitor.control epoch = some map ↔ map ∈ monitor.control.keptMaps ∧ map.epoch = epoch := by
  have hKey : ∀ binding ∈ monitor.control.placementMaps.toList, binding.2.epoch = binding.1 := fun binding hBinding =>
    monitor.keepsRecent.consistent.placement_key _ _ (Std.ExtTreeMap.mem_toList_iff_getElem?_eq_some.mp hBinding)
  constructor
  · intro h
    obtain ⟨binding, hFound, rfl⟩ := Option.map_eq_some_iff.mp h
    have hMem := List.mem_of_find?_eq_some hFound
    have hEpoch := List.find?_some hFound
    rw [decide_eq_true_iff] at hEpoch
    exact ⟨List.mem_map_of_mem hMem, (hKey binding hMem).trans hEpoch⟩
  · rintro ⟨hKept, rfl⟩
    obtain ⟨binding, hBinding, rfl⟩ := List.mem_map.mp hKept
    rw [mapOfEpoch]
    cases hFound : monitor.control.placementMaps.toList.find? fun other => other.1 = binding.2.epoch with
    | none =>
      exact absurd (decide_eq_true (hKey binding hBinding).symm) (List.find?_eq_none.mp hFound binding hBinding)
    | some other =>
      have hOther := List.mem_of_find?_eq_some hFound
      have hEpoch := List.find?_some hFound
      rw [decide_eq_true_iff] at hEpoch
      refine congrArg some (accepted_unique (accepted_of_kept (List.mem_map_of_mem hOther))
        (accepted_of_kept hKept) ?_)
      rw [hKey other hOther, hEpoch]

/-- The remembered epoch and the map just read are of maps that were accepted. -/
structure Tracks (monitor : RebalanceMonitor ω) : Prop where
  last : ∀ epoch, monitor.lastEpoch = some epoch → ∃ map ∈ monitor.accepted, map.epoch = epoch
  reading : ∀ map, monitor.reading = some (some map) → map ∈ monitor.accepted

theorem tracks_start (remote : ω) : (start remote).Tracks :=
  ⟨fun epoch h => (by cases h), fun map h => (by cases h)⟩

theorem accepted_command (monitor : RebalanceMonitor ω) (command : ClusterControlCommand) :
    monitor.accepted ⊆ ({ monitor with log := monitor.log ++ [command] } : RebalanceMonitor ω).accepted := by
  intro map hMap
  rw [accepted, run_concat, ClusterControlState.acceptedMaps_concat]
  exact List.mem_append_left _ hMap

/-- What the second half of a cycle can do with a map that it read. -/
theorem finishCycle_cases (scan : MovedRange → SegmentScan) (map : IptoPlacementMap) (monitor : RebalanceMonitor ω) :
    (finishCycle writer config scan (some map) monitor).2.log = monitor.log ∧
      (finishCycle writer config scan (some map) monitor).2.reading = none ∧
      (finishCycle writer config scan (some map) monitor).2.lastEpoch = some map.epoch ∧
      ∀ previous, monitor.lastEpoch = some previous → previous ≠ map.epoch →
        (finishCycle writer config scan (some map) monitor).1 =
          (mapOfEpoch monitor.control previous).bind fun previousMap =>
            let change := detectPlacementChange previousMap map
            if change.isEmpty then none
            else some (change, (rebalanceAfterPlacementChange writer scan config.maxDrainAttempts change
              monitor.remote).1) := by
  rw [finishCycle]
  dsimp only
  split
  · rename_i hNone
    exact ⟨rfl, rfl, rfl, fun previous hPrevious => absurd (hNone.symm.trans hPrevious) (by simp)⟩
  · rename_i previous hPrevious
    split
    · rename_i hSame
      refine ⟨rfl, rfl, hPrevious.trans (congrArg some hSame), fun other hOther hDiffer => ?_⟩
      rw [hPrevious] at hOther
      cases hOther
      exact absurd hSame hDiffer
    · have hControl : ({ monitor with reading := none } : RebalanceMonitor ω).control = monitor.control := rfl
      rw [hControl]
      have hOnly : ∀ other, monitor.lastEpoch = some other → other = previous := fun other hOther =>
        Option.some.inj (hOther.symm.trans hPrevious)
      split
      · rename_i hGone
        refine ⟨rfl, rfl, rfl, fun other hOther _ => ?_⟩
        rw [hOnly other hOther, hGone]
        rfl
      · rename_i previousMap hFound
        split
        · rename_i hEmpty
          refine ⟨rfl, rfl, rfl, fun other hOther _ => ?_⟩
          rw [hOnly other hOther, hFound, Option.bind_some]
          exact (if_pos hEmpty).symm
        · rename_i hMoved
          have hBind : ∀ other, monitor.lastEpoch = some other →
              ((mapOfEpoch monitor.control other).bind fun previousMap =>
                if (detectPlacementChange previousMap map).isEmpty then none
                else some (detectPlacementChange previousMap map, (rebalanceAfterPlacementChange writer scan
                  config.maxDrainAttempts (detectPlacementChange previousMap map) monitor.remote).1)) =
              some (detectPlacementChange previousMap map, (rebalanceAfterPlacementChange writer scan
                config.maxDrainAttempts (detectPlacementChange previousMap map) monitor.remote).1) := by
            intro other hOther
            rw [hOnly other hOther, hFound, Option.bind_some]
            exact if_neg hMoved
          split
          · rename_i hResult
            refine ⟨rfl, rfl, rfl, fun other hOther _ => ?_⟩
            rw [hBind other hOther, hResult]
          · rename_i hResult
            refine ⟨rfl, rfl, rfl, fun other hOther _ => ?_⟩
            rw [hBind other hOther, hResult]

theorem Tracks.step (h : monitor.Tracks) (input : MonitorStep) :
    (monitorStep writer config monitor input).2.Tracks := by
  cases input with
  | command command =>
    refine ⟨fun epoch hEpoch => ?_, fun map hMap => accepted_command monitor command (h.reading map hMap)⟩
    obtain ⟨map, hMap, hSame⟩ := h.last epoch hEpoch
    exact ⟨map, accepted_command monitor command hMap, hSame⟩
  | write payload => exact ⟨h.last, h.reading⟩
  | advance scan =>
    rw [monitorStep]
    split
    · refine ⟨h.last, fun map hMap => ?_⟩
      have hCurrent : monitor.control.placementMap = some map := Option.some.inj hMap
      rw [monitor.keepsRecent.placementMap_eq] at hCurrent
      exact List.mem_of_getLast? hCurrent
    · rename_i currentMap hReading
      cases currentMap with
      | none => exact ⟨h.last, fun map hMap => (by cases hMap)⟩
      | some map =>
        obtain ⟨hLog, hRead, hLast, -⟩ := finishCycle_cases writer config scan map monitor
        have hAccepted : (finishCycle writer config scan (some map) monitor).2.accepted = monitor.accepted :=
          congrArg (fun log => ClusterControlState.acceptedMaps (run ClusterControlState.apply .new log).1) hLog
        refine ⟨fun epoch hEpoch => ⟨map, hAccepted ▸ h.reading map hReading, ?_⟩, fun other hOther => ?_⟩
        · rw [hLast] at hEpoch
          exact Option.some.inj hEpoch
        · rw [hRead] at hOther
          cases hOther

end RebalanceMonitor

/-! ## Changes and cycles -/

section Changes

variable {monitor : RebalanceMonitor ω}

theorem not_someShardMoves_self (map : IptoPlacementMap) : ¬SomeShardMoves map map := by
  rintro ⟨shardId, old, new, hOld, hNew, hDiffer⟩
  exact hDiffer (Option.some.inj (hOld.symm.trans hNew))

theorem neverSkips_of_same_epoch {input : MonitorStep}
    (hSame : (monitorStep writer config monitor input).2.lastEpoch = monitor.lastEpoch) :
    NeverSkips writer config monitor input := by
  intro before hBefore after hAfter hLast hNext hMoves
  rw [hSame, hLast] at hNext
  rw [RebalanceMonitor.accepted_unique hBefore hAfter (Option.some.inj hNext)] at hMoves
  exact absurd hMoves (not_someShardMoves_self after)

/-- The call that a cycle makes when it comes to a change whose old map is kept. -/
theorem finishCycle_of_kept (scan : MovedRange → SegmentScan) {before map : IptoPlacementMap}
    (hMap : map ∈ monitor.accepted) (hKept : before ∈ monitor.control.keptMaps)
    (hLast : monitor.lastEpoch = some before.epoch) (hMoves : SomeShardMoves before map) :
    (monitor.finishCycle writer config scan (some map)).1 = some (detectPlacementChange before map,
      (rebalanceAfterPlacementChange writer scan config.maxDrainAttempts (detectPlacementChange before map)
        monitor.remote).1) := by
  have hDiffer : before.epoch ≠ map.epoch := by
    intro hEpoch
    rw [RebalanceMonitor.accepted_unique (RebalanceMonitor.accepted_of_kept hKept) hMap hEpoch] at hMoves
    exact not_someShardMoves_self map hMoves
  rw [(monitor.finishCycle_cases writer config scan map).2.2.2 _ hLast hDiffer,
    RebalanceMonitor.mapOfEpoch_eq_some.mpr ⟨hKept, rfl⟩, Option.bind_some]
  refine if_neg ?_
  rw [PlacementChange.isEmpty, List.isEmpty_iff]
  exact movedRanges_ne_nil hMoves

theorem kept_of_finishCycle (scan : MovedRange → SegmentScan) {before map : IptoPlacementMap}
    (hBefore : before ∈ monitor.accepted) (hMap : map ∈ monitor.accepted)
    (hLast : monitor.lastEpoch = some before.epoch) (hMoves : SomeShardMoves before map) {call : RebalanceCall}
    (hCall : (monitor.finishCycle writer config scan (some map)).1 = some call) :
    before ∈ monitor.control.keptMaps := by
  have hDiffer : before.epoch ≠ map.epoch := by
    intro hEpoch
    rw [RebalanceMonitor.accepted_unique hBefore hMap hEpoch] at hMoves
    exact not_someShardMoves_self map hMoves
  rw [(monitor.finishCycle_cases writer config scan map).2.2.2 _ hLast hDiffer] at hCall
  obtain ⟨found, hFound, -⟩ := Option.bind_eq_some_iff.mp hCall
  obtain ⟨hKept, hEpoch⟩ := RebalanceMonitor.mapOfEpoch_eq_some.mp hFound
  rwa [RebalanceMonitor.accepted_unique hBefore (RebalanceMonitor.accepted_of_kept hKept) hEpoch.symm]

theorem neverSkips_iff (h : monitor.Tracks) (input : MonitorStep) :
    NeverSkips writer config monitor input ↔ MeetsNoFailure writer config monitor input := by
  cases input with
  | command command =>
    exact ⟨fun _ scan map hInput => (by cases hInput), fun _ => neverSkips_of_same_epoch writer config rfl⟩
  | write payload =>
    exact ⟨fun _ scan map hInput => (by cases hInput), fun _ => neverSkips_of_same_epoch writer config rfl⟩
  | advance scan =>
    cases hReading : monitor.reading with
    | none =>
      refine ⟨fun _ other map _ hRead => ?_, fun _ => neverSkips_of_same_epoch writer config ?_⟩
      · rw [hReading] at hRead
        cases hRead
      · rw [monitorStep, hReading]
    | some currentMap =>
      have hStep : monitorStep writer config monitor (.advance scan) =
          monitor.finishCycle writer config scan currentMap := by rw [monitorStep, hReading]
      cases currentMap with
      | none =>
        refine ⟨fun _ other map _ hRead => ?_, fun _ => neverSkips_of_same_epoch writer config ?_⟩
        · rw [hReading] at hRead
          cases hRead
        · rw [hStep]
          rfl
      | some map =>
        have hMap := h.reading map hReading
        have hEpoch := (monitor.finishCycle_cases writer config scan map).2.2.1
        constructor
        · intro hNever other found hInput hRead before hBefore hLast hMoves
          cases hInput
          rw [hReading] at hRead
          cases hRead
          obtain ⟨outcomes, hCall, hAll⟩ := hNever before hBefore map hMap hLast (hStep ▸ hEpoch) hMoves
          rw [hStep] at hCall
          have hKept := kept_of_finishCycle writer config scan hBefore hMap hLast hMoves hCall
          rw [finishCycle_of_kept writer config scan hMap hKept hLast hMoves] at hCall
          have hResult := congrArg Prod.snd (Option.some.inj hCall)
          exact ⟨hKept, (acknowledged_iff writer config scan _ _).mp ⟨outcomes, hResult, hAll⟩⟩
        · intro hMeets before hBefore after hAfter hLast hNext hMoves
          rw [hStep, hEpoch] at hNext
          obtain rfl := RebalanceMonitor.accepted_unique hMap hAfter (Option.some.inj hNext)
          obtain ⟨hKept, hRanges⟩ := hMeets scan map rfl hReading before hBefore hLast hMoves
          obtain ⟨outcomes, hResult, hAll⟩ := (acknowledged_iff writer config scan _ _).mpr hRanges
          refine ⟨outcomes, ?_, hAll⟩
          rw [hStep, finishCycle_of_kept writer config scan hMap hKept hLast hMoves, hResult]

end Changes

/-- A run of the monitor, with commands and other writes between its steps, skips no change exactly
if no cycle that comes to a change meets a failure. -/
theorem rebalance_monitor_never_skips_iff (remote : ω) (inputs : List MonitorStep) :
    AllSteps (monitorStep writer config) (NeverSkips writer config) (.start remote) inputs ↔
      AllSteps (monitorStep writer config) (MeetsNoFailure writer config) (.start remote) inputs := by
  have hStep : ∀ (monitor : RebalanceMonitor ω) input, monitor.Tracks →
      (monitorStep writer config monitor input).2.Tracks :=
    fun monitor input h => RebalanceMonitor.Tracks.step writer config h input
  have hIff : ∀ (monitor : RebalanceMonitor ω) input, monitor.Tracks →
      (NeverSkips writer config monitor input ↔ MeetsNoFailure writer config monitor input) :=
    fun monitor input h => neverSkips_iff writer config h input
  exact allSteps_congr hStep hIff (RebalanceMonitor.tracks_start remote) inputs

end Monitor

/-- A cycle under the first map, and then a change that moves the shards from 10 on. -/
def changeCommitted : List MonitorStep :=
  [.command (.setIptoPlacementMap mapBefore), .advance fun _ => .ok segmentMagic, .advance fun _ => .ok segmentMagic,
    .command (.setIptoPlacementMap mapAfter), .advance fun _ => .ok segmentMagic]

def unreadable : MonitorStep := .advance fun _ => .error (.io .unexpectedEof)

def monitorAtChange : RebalanceMonitor Unit :=
  (run (monitorStep acceptingWriter ⟨100⟩) (.start ()) changeCommitted).2

/-- The segment cannot be read once, and the change is never rebalanced: the cycles after that find
nothing to do. -/
theorem rebalance_monitor_skips_unreadable :
    ¬AllSteps (monitorStep acceptingWriter ⟨100⟩) (NeverSkips acceptingWriter ⟨100⟩) (.start ())
        (changeCommitted ++ [unreadable]) ∧
      (monitorStep acceptingWriter ⟨100⟩ monitorAtChange unreadable).2.lastEpoch = some mapAfter.epoch ∧
      (run (monitorStep acceptingWriter ⟨100⟩) (monitorStep acceptingWriter ⟨100⟩ monitorAtChange unreadable).2
        [.advance fun _ => .ok segmentMagic, .advance fun _ => .ok segmentMagic]).2.outcomes = [] := by
  have hNext : (monitorStep acceptingWriter ⟨100⟩ monitorAtChange unreadable).2.lastEpoch = some mapAfter.epoch := by
    decide +kernel
  have hFailed : ((monitorStep acceptingWriter ⟨100⟩ monitorAtChange unreadable).1.bind fun call =>
      call.2.toOption) = none := by decide +kernel
  refine ⟨fun hAll => ?_, hNext, by decide +kernel⟩
  have hLast : NeverSkips acceptingWriter ⟨100⟩ monitorAtChange unreadable := ((allSteps_append _).mp hAll).2.1
  have hMoves : SomeShardMoves mapBefore mapAfter :=
    ⟨20, ⟨"ipto-a"⟩, ⟨"ipto-b"⟩, by decide +kernel, by decide +kernel, by decide⟩
  obtain ⟨outcomes, hCall, -⟩ := hLast mapBefore (by decide +kernel) mapAfter (by decide +kernel) (by decide +kernel)
    hNext hMoves
  rw [hCall] at hFailed
  cases hFailed

end Vannak.Daemon
