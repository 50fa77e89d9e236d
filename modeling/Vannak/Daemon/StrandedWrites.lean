import Vannak.Daemon.CommittedCheckpoints
import Vannak.Ipto.Draining

/-!
# Writes left behind by a placement change

A payload keeps the target it was captured for, while a cycle of the background writer goes
through the instances of the placement map that is committed now. One cycle acknowledges the
waiting entries of exactly these instances, so that the entries of an instance that has left
the map wait for ever.
-/

namespace Vannak.Daemon

open Foundation Storage Ipto Cluster Service

set_option autoImplicit false

def committedTargets (plane : ClusterControlState) : List IptoInstanceId :=
  (plane.placementMap.map IptoPlacementMap.instances).getD []

/-- One cycle with nothing in between: the control read succeeds, and the proposals have these outcomes. -/
def cycleSteps (outcomes : List ProposeOutcome) : List WriterStep := .beginCycle none :: outcomes.map .advance

def WaitingLeasesHeld (outbox : MetadataOutbox) (plane : ClusterControlState) (nodeId : NodeId) : Prop :=
  ∀ (key : IdempotencyKey) (entry : MetadataOutboxEntry), outbox.entries[key]? = some entry → entry.Waiting →
    HoldsLease plane nodeId entry.payload.target

/-- Every entry that was waiting in the first outbox is acknowledged in the second. -/
def AcknowledgesWaiting (outbox next : MetadataOutbox) : Prop :=
  ∀ (key : IdempotencyKey) (entry : MetadataOutboxEntry), outbox.entries[key]? = some entry → entry.Waiting →
    ∃ after, next.entries[key]? = some after ∧ after.status = .acknowledged

/-- The target of every waiting entry is an instance of the committed placement map. -/
def WaitingTargetsPlaced (outbox : MetadataOutbox) (plane : ClusterControlState) : Prop :=
  ∀ (key : IdempotencyKey) (entry : MetadataOutboxEntry), outbox.entries[key]? = some entry → entry.Waiting →
    entry.payload.target ∈ committedTargets plane

theorem acknowledgesWaiting_iff {outbox next : MetadataOutbox} {plane : ClusterControlState}
    (h : MapsEntries (serveEntry (committedTargets plane)) outbox next) :
    AcknowledgesWaiting outbox next ↔ WaitingTargetsPlaced outbox plane := by
  constructor
  · intro hAll key entry hEntry hWaiting
    obtain ⟨after, hAfter, hStatus⟩ := hAll key entry hEntry hWaiting
    rw [h, hEntry, Option.map_some] at hAfter
    obtain rfl := Option.some.inj hAfter
    by_contra hNot
    rw [serveEntry, if_neg fun hServed => hNot hServed.1] at hStatus
    rcases hWaiting with hPending | ⟨hFailed, -⟩
    · rw [hPending] at hStatus
      cases hStatus
    · rw [hFailed] at hStatus
      cases hStatus
  · intro hPlaced key entry hEntry hWaiting
    refine ⟨{ entry with status := .acknowledged }, ?_, rfl⟩
    rw [h, hEntry, Option.map_some, serveEntry, if_pos ⟨hPlaced key entry hEntry hWaiting, hWaiting⟩]

section Cycle

variable {ω : Type} {writer : IptoWriter ω} {config : BackgroundWriterConfig} {nodeId : NodeId}
  {segmentId : SegmentId} {start node : WriterNode ω}

/-- The targets in front have been served, the others have not. -/
structure ServedSoFar (start node : WriterNode ω) (done : List IptoInstanceId) : Prop where
  kept : node.service.metadataOutbox.outbox.Kept
  served : MapsEntries (serveEntry done) start.service.metadataOutbox.outbox node.service.metadataOutbox.outbox
  ended : node.cycle = none → done = committedTargets start.plane
  ahead : ∀ cycle, node.cycle = some cycle →
    done ++ cycle.targets = committedTargets start.plane ∧ cycle.control = start.plane

theorem size_le_of_mapsEntries {change : MetadataOutboxEntry → MetadataOutboxEntry} {outbox next : MetadataOutbox}
    (h : MapsEntries change outbox next) : next.entries.size ≤ outbox.entries.size := by
  have hSubset : next.entries.keys ⊆ outbox.entries.keys := by
    intro key hKey
    rw [Std.ExtTreeMap.mem_keys, Std.ExtTreeMap.mem_iff_isSome_getElem?] at hKey ⊢
    rwa [h, Option.isSome_map] at hKey
  have hNodup : next.entries.keys.Nodup := Std.ExtTreeMap.distinct_keys.imp fun hNe hEq =>
    hNe (Std.compare_eq_iff_eq.mpr hEq)
  rw [← Std.ExtTreeMap.length_keys, ← Std.ExtTreeMap.length_keys]
  exact (hNodup.subperm hSubset).length_le

theorem serveTarget_served (hOk : ∀ remote payload, (writer.write remote payload).1 = .ok ())
    (hLeases : WaitingLeasesHeld start.service.metadataOutbox.outbox start.plane nodeId)
    (hAttempts : start.service.metadataOutbox.outbox.entries.size ≤ config.maxDrainAttemptsPerTarget)
    {done targets : List IptoInstanceId} {target : IptoInstanceId} {cycle : WriterCycle}
    (h : ServedSoFar start node done) (hCycle : node.cycle = some cycle)
    (hTargets : cycle.targets = target :: targets) :
    ServedSoFar start (serveTarget writer config nodeId { cycle with targets } target node) (done ++ [target]) := by
  obtain ⟨hSplit, hControl⟩ := h.ahead cycle hCycle
  have hAhead : (done ++ [target]) ++ targets = committedTargets start.plane := by
    rw [← hSplit, hTargets, List.append_assoc]
    rfl
  rcases serveTarget_cases writer config nodeId { cycle with targets } target node with
    ⟨hUnheld, hServe⟩ | ⟨-, snapshot, cycleSummaries, -, hServe⟩
  · rw [hServe]
    refine ⟨h.kept, h.served.of_eq fun key entry hEntry => ?_, fun hNone => (by cases hNone), fun later hLater => ?_⟩
    · -- nothing waits for a target whose lease is not held
      refine Eq.trans ?_ (serveEntry_append done target entry)
      by_cases hWaiting : entry.Waiting
      · have hHeld := hLeases key entry hEntry hWaiting
        have hOther : ¬(serveEntry done entry).payload.target ∈ [target] := by
          have hPayload : (serveEntry done entry).payload = entry.payload := by
            rw [serveEntry]
            split
            · rfl
            · rfl
          rw [hPayload, List.mem_singleton]
          rintro rfl
          exact hUnheld (hControl ▸ hHeld)
        rw [serveEntry.eq_def [target], if_neg fun hServed => hOther hServed.1]
      · have hSame : serveEntry done entry = entry := by
          rw [serveEntry, if_neg fun hServed => hWaiting hServed.2]
        rw [hSame, serveEntry, if_neg fun hServed => hWaiting hServed.2]
    · cases hLater
      exact ⟨hAhead, hControl⟩
  · rw [hServe]
    have hRecording : ∀ remote payload, (writer.recording.write remote payload).1 = .ok () :=
      fun remote payload => hOk remote.1 payload
    have hDrained := @mapsEntries_retry_drain _ writer.recording target _ hRecording h.kept
      config.maxDrainAttemptsPerTarget ((size_le_of_mapsEntries h.served).trans hAttempts) node.remote
    refine ⟨?_, ?_, fun hNone => (by cases hNone), fun later hLater => ?_⟩
    · exact (h.kept.retryFailedForTarget target).drain (fun _ _ hKept => hKept.deliver _ _ _) _ _ node.remote
    · exact (h.served.trans hDrained).of_eq fun key entry _ => serveEntry_append done target entry
    · cases hLater
      exact ⟨hAhead, hControl⟩

theorem advance_served (hOk : ∀ remote payload, (writer.write remote payload).1 = .ok ())
    (hLeases : WaitingLeasesHeld start.service.metadataOutbox.outbox start.plane nodeId)
    (hAttempts : start.service.metadataOutbox.outbox.entries.size ≤ config.maxDrainAttemptsPerTarget)
    (h : ∃ done, ServedSoFar start node done) (outcome : ProposeOutcome) :
    ∃ done, ServedSoFar start (writerStep writer config nodeId segmentId node (.advance outcome)).2 done := by
  obtain ⟨done, hServed⟩ := h
  rw [writerStep]
  split
  · exact ⟨done, hServed⟩
  · rename_i cycle hCycle
    obtain ⟨hSplit, hControl⟩ := hServed.ahead cycle hCycle
    rw [advanceCycle]
    split
    · rename_i checkpoint checkpoints hCheckpoints
      refine ⟨done, ?_⟩
      rcases recordCheckpoint_cases { cycle with checkpoints } checkpoint outcome node with
        ⟨-, hRecord⟩ | ⟨-, snapshot, -, hRecord⟩
      · rw [hRecord]
        refine ⟨hServed.kept, hServed.served, fun hNone => (by cases hNone), fun later hLater => ?_⟩
        cases hLater
        exact ⟨hSplit, hControl⟩
      · rw [hRecord]
        refine ⟨hServed.kept, hServed.served, fun hNone => (by cases hNone), fun later hLater => ?_⟩
        cases hLater
        exact ⟨hSplit, hControl⟩
    · split
      · rename_i target targets hTargets
        exact ⟨_, serveTarget_served hOk hLeases hAttempts hServed hCycle hTargets⟩
      · rename_i hTargets
        refine ⟨done, hServed.kept, hServed.served, fun _ => ?_, fun later hLater => (by cases hLater)⟩
        rw [← hSplit, hTargets, List.append_nil]

theorem run_advance_served (hOk : ∀ remote payload, (writer.write remote payload).1 = .ok ())
    (hLeases : WaitingLeasesHeld start.service.metadataOutbox.outbox start.plane nodeId)
    (hAttempts : start.service.metadataOutbox.outbox.entries.size ≤ config.maxDrainAttemptsPerTarget)
    (h : ∃ done, ServedSoFar start node done) (outcomes : List ProposeOutcome) :
    ∃ done, ServedSoFar start
      (run (writerStep writer config nodeId segmentId) node (outcomes.map .advance)).2 done := by
  induction outcomes generalizing node with
  | nil => exact h
  | cons outcome outcomes ih => exact ih (advance_served hOk hLeases hAttempts h outcome)

/-! ## A cycle comes to its end -/

theorem advance_checkpoint {cycle : WriterCycle} {checkpoint : MetadataOutboxCheckpoint}
    {checkpoints : List MetadataOutboxCheckpoint} (hCycle : node.cycle = some cycle)
    (hCheckpoints : cycle.checkpoints = checkpoint :: checkpoints) (outcome : ProposeOutcome) :
    (writerStep writer config nodeId segmentId node (.advance outcome)).2.cycle =
      some { cycle with checkpoints } := by
  simp only [writerStep, hCycle, advanceCycle, hCheckpoints]
  rcases recordCheckpoint_cases { cycle with checkpoints } checkpoint outcome node with
    ⟨-, hRecord⟩ | ⟨-, snapshot, -, hRecord⟩
  · rw [hRecord]
  · rw [hRecord]

theorem advance_target {cycle : WriterCycle} {target : IptoInstanceId} {targets : List IptoInstanceId}
    (hCycle : node.cycle = some cycle) (hCheckpoints : cycle.checkpoints = [])
    (hTargets : cycle.targets = target :: targets) (outcome : ProposeOutcome) :
    ∃ next, (writerStep writer config nodeId segmentId node (.advance outcome)).2.cycle = some next ∧
      next.targets = targets := by
  simp only [writerStep, hCycle, advanceCycle, hCheckpoints, hTargets]
  rcases serveTarget_cases writer config nodeId { cycle with
      targets
      checkpoints := [] } target node with
    ⟨-, hServe⟩ | ⟨-, snapshot, cycleSummaries, -, hServe⟩
  · rw [hServe]
    exact ⟨_, rfl, rfl⟩
  · rw [hServe]
    exact ⟨_, rfl, rfl⟩

/-- The outcomes that a choice for every proposal begins with. -/
def firstOutcomes (choose : Nat → ProposeOutcome) (count : Nat) : List ProposeOutcome :=
  (List.range count).map choose

theorem firstOutcomes_succ (choose : Nat → ProposeOutcome) (count : Nat) :
    firstOutcomes choose (count + 1) = choose 0 :: firstOutcomes (fun index => choose (index + 1)) count := by
  rw [firstOutcomes, List.range_succ_eq_map, List.map_cons, List.map_map]
  rfl

theorem cycle_ends (targets : List IptoInstanceId) : ∀ (checkpoints : List MetadataOutboxCheckpoint)
    (node : WriterNode ω) (cycle : WriterCycle) (choose : Nat → ProposeOutcome), node.cycle = some cycle →
      cycle.targets = targets → cycle.checkpoints = checkpoints →
      ∃ count, (run (writerStep writer config nodeId segmentId) node
        ((firstOutcomes choose count).map .advance)).2.cycle = none := by
  -- the outer induction is on the targets, since serving one brings new checkpoints
  induction targets with
  | nil =>
    intro checkpoints
    induction checkpoints with
    | nil =>
      intro node cycle choose hCycle hTargets hCheckpoints
      refine ⟨1, ?_⟩
      simp only [firstOutcomes_succ, List.map_cons, run, writerStep, hCycle, advanceCycle, hCheckpoints, hTargets]
      rfl
    | cons checkpoint checkpoints ih =>
      intro node cycle choose hCycle hTargets hCheckpoints
      obtain ⟨count, hCount⟩ := ih _ _ (fun index => choose (index + 1))
        (advance_checkpoint hCycle hCheckpoints (choose 0)) hTargets rfl
      exact ⟨count + 1, by rw [firstOutcomes_succ]; exact hCount⟩
  | cons target targets ihTargets =>
    intro checkpoints
    induction checkpoints with
    | nil =>
      intro node cycle choose hCycle hTargets hCheckpoints
      obtain ⟨next, hNext, hRest⟩ := @advance_target ω writer config nodeId segmentId _ _ _ _ hCycle hCheckpoints
        hTargets (choose 0)
      obtain ⟨count, hCount⟩ := ihTargets next.checkpoints _ next (fun index => choose (index + 1)) hNext hRest rfl
      exact ⟨count + 1, by rw [firstOutcomes_succ]; exact hCount⟩
    | cons checkpoint checkpoints ih =>
      intro node cycle choose hCycle hTargets hCheckpoints
      obtain ⟨count, hCount⟩ := ih _ _ (fun index => choose (index + 1))
        (advance_checkpoint hCycle hCheckpoints (choose 0)) hTargets rfl
      exact ⟨count + 1, by rw [firstOutcomes_succ]; exact hCount⟩

end Cycle

theorem waiting_writes_acknowledged_iff {ω : Type} (writer : IptoWriter ω) (config : BackgroundWriterConfig)
    (nodeId : NodeId) (segmentId : SegmentId) (node : WriterNode ω)
    (hReachable : node.service.metadataOutbox.outbox.Reachable) (hIdle : node.cycle = none)
    (hLeases : WaitingLeasesHeld node.service.metadataOutbox.outbox node.plane nodeId)
    (hOk : ∀ remote payload, (writer.write remote payload).1 = .ok ())
    (hAttempts : node.service.metadataOutbox.outbox.entries.size ≤ config.maxDrainAttemptsPerTarget) :
    let step := writerStep writer config nodeId segmentId
    (∀ choose, ∃ count, (run step node (cycleSteps (firstOutcomes choose count))).2.cycle = none) ∧
    ∀ outcomes, (run step node (cycleSteps outcomes)).2.cycle = none →
      (AcknowledgesWaiting node.service.metadataOutbox.outbox
          (run step node (cycleSteps outcomes)).2.service.metadataOutbox.outbox ↔
        WaitingTargetsPlaced node.service.metadataOutbox.outbox node.plane) := by
  intro step
  have hBegin : ∃ begun cycle, writerStep writer config nodeId segmentId node (.beginCycle none) = (none, begun) ∧
      begun.service = node.service ∧ begun.cycle = some cycle ∧ cycle.control = node.plane ∧
      cycle.targets = committedTargets node.plane ∧ cycle.checkpoints = [] := by
    rw [writerStep, hIdle]
    exact ⟨_, _, rfl, rfl, rfl, rfl, rfl, rfl⟩
  obtain ⟨begun, cycle, hStep, hService, hCycle, hControl, hTargets, hCheckpoints⟩ := hBegin
  have hFirst : step node (.beginCycle none) = (none, begun) := hStep
  have hRun : ∀ outcomes, (run step node (cycleSteps outcomes)).2 =
      (run (writerStep writer config nodeId segmentId) begun (outcomes.map .advance)).2 := by
    intro outcomes
    rw [cycleSteps, run, hFirst]
  refine ⟨fun choose => ?_, fun outcomes hEnded => ?_⟩
  · obtain ⟨count, hCount⟩ := @cycle_ends ω writer config nodeId segmentId _ _ begun cycle choose hCycle hTargets
      hCheckpoints
    exact ⟨count, by rw [hRun]; exact hCount⟩
  · have hStart : ServedSoFar node begun [] := by
      refine ⟨?_, ?_, fun hNone => ?_, fun later hLater => ?_⟩
      · rw [hService]
        exact hReachable.kept
      · rw [hService]
        exact (mapsEntries_refl _).of_eq fun key entry _ => (serveEntry_nil entry).symm
      · rw [hCycle] at hNone
        cases hNone
      · rw [hCycle] at hLater
        cases hLater
        exact ⟨hTargets, hControl⟩
    obtain ⟨done, hServed⟩ := @run_advance_served ω writer config nodeId segmentId _ _ hOk hLeases hAttempts
      ⟨[], hStart⟩ outcomes
    rw [hRun] at hEnded ⊢
    have hDone := hServed.ended hEnded
    rw [hDone] at hServed
    exact acknowledgesWaiting_iff hServed.served

/-! ## A placement change between capture and delivery -/

/-- All shards on `ipto-b`, by an override. -/
def mapToB : IptoPlacementMap :=
  singleSlotMap 1 [⟨0, u64Max, ⟨"ipto-b"⟩⟩] (List.pairwise_singleton _ _) (List.pairwise_singleton _ _)

/-- The override is dropped, and with it the instance. -/
def mapBackToA : IptoPlacementMap := singleSlotMap 2 [] noOverrides_sorted noOverrides_before

def captureForB : List WriterStep :=
  [.command (.addNode ⟨"node-a"⟩), .command (.setIptoPlacementMap mapToB),
    .command (.grantWriterLease ⟨⟨"ipto-b"⟩, ⟨"node-a"⟩, 1⟩), .capture none (sampleCapture "data-1" "meta-1").event]

def capturedNode (steps : List WriterStep) : WriterNode Unit :=
  (run (writerStep acceptingWriter ⟨100⟩ ⟨"node-a"⟩ ⟨"outbox"⟩)
    (WriterNode.start { emptyService with node := some ⟨"node-a"⟩ } ()) steps).2

def payloadForB : IptoWritePayload :=
  .fromEvent (sampleCapture "data-1" "meta-1").event ⟨"ipto-b"⟩ (.new "v1")

theorem forall_entries {outbox : MetadataOutbox} {property : MetadataOutboxEntry → Prop}
    (h : ∀ entry ∈ outbox.entryValues, property entry) (key : IdempotencyKey) (entry : MetadataOutboxEntry)
    (hEntry : outbox.entries[key]? = some entry) : property entry :=
  h entry (List.mem_map.mpr ⟨(key, entry), Std.ExtTreeMap.mem_toList_iff_getElem?_eq_some.mpr hEntry, rfl⟩)

/-- The outbox after the one capture, with or without a placement change behind it. -/
theorem reachable_capturedForB {outbox : MetadataOutbox}
    (h : outbox = (emptyService.metadataOutbox.enqueueDurable payloadForB).2.outbox) : outbox.Reachable := by
  have hCreate : SegmentBackedMetadataOutbox.create none ⟨utf8Bytes "a.seg"⟩ ⟨"outbox"⟩ ⟨"node-a"⟩ =
      .ok emptyService.metadataOutbox := rfl
  refine ⟨Unit, acceptingWriter, (), _, _, _, _, [.outbox (.enqueueDurable payloadForB)], hCreate, ?_⟩
  rw [List.foldl_cons, List.foldl_nil, h]
  generalize emptyService.metadataOutbox = durable
  generalize payloadForB = payload
  rfl

theorem acceptingWriter_ok (remote : Unit) (payload : IptoWritePayload) :
    (acceptingWriter.write remote payload).1 = .ok () := rfl

def placedNode : WriterNode Unit := capturedNode captureForB

/-- While `ipto-b` is placed its entry is delivered. -/
theorem waiting_writes_acknowledged_iff_placed :
    WaitingTargetsPlaced placedNode.service.metadataOutbox.outbox placedNode.plane ∧
    AcknowledgesWaiting placedNode.service.metadataOutbox.outbox
      (run (writerStep acceptingWriter ⟨100⟩ ⟨"node-a"⟩ ⟨"outbox"⟩) placedNode
        (cycleSteps [.answered, .answered, .answered, .answered])).2.service.metadataOutbox.outbox := by
  have hTargets : ∀ entry ∈ placedNode.service.metadataOutbox.outbox.entryValues,
      entry.payload.target = ⟨"ipto-b"⟩ := by decide +kernel
  have hLease : ((placedNode.plane.writerLease ⟨"ipto-b"⟩).map WriterLease.holder) = some ⟨"node-a"⟩ := by
    decide +kernel
  have hPlaced : WaitingTargetsPlaced placedNode.service.metadataOutbox.outbox placedNode.plane := by
    intro key entry hEntry hWaiting
    rw [forall_entries hTargets key entry hEntry]
    decide +kernel
  have hIff := (waiting_writes_acknowledged_iff acceptingWriter ⟨100⟩ ⟨"node-a"⟩ ⟨"outbox"⟩ placedNode
    (reachable_capturedForB (by decide +kernel)) (by decide +kernel) (fun key entry hEntry _ => by
      rw [forall_entries hTargets key entry hEntry]
      exact Option.map_eq_some_iff.mp hLease) acceptingWriter_ok (by decide +kernel)).2
    [.answered, .answered, .answered, .answered] (by decide +kernel)
  exact ⟨hPlaced, hIff.mpr hPlaced⟩

def strandedNode : WriterNode Unit := capturedNode (captureForB ++ [.command (.setIptoPlacementMap mapBackToA)])

/-- The lease of `ipto-b` is still held, but the cycle no longer comes to it. -/
theorem waiting_write_stranded :
    strandedNode.service.metadataOutbox.outbox.Reachable ∧ strandedNode.cycle = none ∧
    WaitingLeasesHeld strandedNode.service.metadataOutbox.outbox strandedNode.plane ⟨"node-a"⟩ ∧
    (∀ remote payload, (acceptingWriter.write remote payload).1 = .ok ()) ∧
    strandedNode.service.metadataOutbox.outbox.entries.size ≤ 100 ∧
    (run (writerStep acceptingWriter ⟨100⟩ ⟨"node-a"⟩ ⟨"outbox"⟩) strandedNode
      (cycleSteps [.answered, .answered])).2.cycle = none ∧
    ¬AcknowledgesWaiting strandedNode.service.metadataOutbox.outbox
      (run (writerStep acceptingWriter ⟨100⟩ ⟨"node-a"⟩ ⟨"outbox"⟩) strandedNode
        (cycleSteps [.answered, .answered])).2.service.metadataOutbox.outbox := by
  have hTargets : ∀ entry ∈ strandedNode.service.metadataOutbox.outbox.entryValues,
      entry.payload.target = ⟨"ipto-b"⟩ := by decide +kernel
  have hLease : ((strandedNode.plane.writerLease ⟨"ipto-b"⟩).map WriterLease.holder) = some ⟨"node-a"⟩ := by
    decide +kernel
  refine ⟨reachable_capturedForB (by decide +kernel), by decide +kernel, fun key entry hEntry _ => ?_,
    acceptingWriter_ok, by decide +kernel, by decide +kernel, fun hAll => ?_⟩
  · rw [forall_entries hTargets key entry hEntry]
    exact Option.map_eq_some_iff.mp hLease
  · have hBefore : (strandedNode.service.metadataOutbox.outbox.entries[payloadForB.idempotencyKey]?).map
        MetadataOutboxEntry.status = some .pending := by decide +kernel
    have hAfter : ((run (writerStep acceptingWriter ⟨100⟩ ⟨"node-a"⟩ ⟨"outbox"⟩) strandedNode
        (cycleSteps [.answered, .answered])).2.service.metadataOutbox.outbox.entries[
          payloadForB.idempotencyKey]?).map MetadataOutboxEntry.status = some .pending := by decide +kernel
    obtain ⟨entry, hEntry, hStatus⟩ := Option.map_eq_some_iff.mp hBefore
    obtain ⟨after, hFound, hAcknowledged⟩ := hAll _ entry hEntry (.inl hStatus)
    rw [hFound, Option.map_some, hAcknowledged] at hAfter
    cases hAfter

end Vannak.Daemon
