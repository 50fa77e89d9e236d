import Vannak.Daemon.BackgroundWriter

/-!
# Committed checkpoints

Over whole runs of the background writer, with failing reads, proposals and writes and with
restarts, a committed checkpoint never moves back and covers only what the writer accepted.
The invariant relates the segment, the calls of the writer and the replicated state; for a
cycle under way it says that the keys still ahead are committed as they were read.
-/

namespace Vannak.Daemon

open Foundation Storage Ipto Cluster Service

set_option autoImplicit false

/-! ## What a checkpoint covers -/

/-- The offset is that of a row, and every row of the stream up to it was written. -/
structure WrittenUpTo (ledger : Ledger) (calls : List WriterCall) (shardId : DataIndividualShardId)
    (target : IptoInstanceId) (offset : Nat) : Prop where
  recorded : ∃ row ∈ ledger, row.2 = offset
  written : ∀ row ∈ ledger, row.1.shardId = shardId → row.1.target = target → row.2 ≤ offset →
    (row.1, .ok ()) ∈ calls

def checkpointKey (checkpoint : MetadataOutboxCheckpoint) : DataIndividualShardId × IptoInstanceId :=
  (checkpoint.dataIndividualShardId, checkpoint.target)

structure Backed (segmentId : SegmentId) (ledger : Ledger) (calls : List WriterCall)
    (checkpoint : MetadataOutboxCheckpoint) : Prop where
  segment : checkpoint.segmentId = segmentId
  writtenUpTo : WrittenUpTo ledger calls checkpoint.dataIndividualShardId checkpoint.target
    checkpoint.lastAcknowledgedOffset

theorem Backed.calls {segmentId : SegmentId} {ledger : Ledger} {calls later : List WriterCall}
    {checkpoint : MetadataOutboxCheckpoint} (h : Backed segmentId ledger calls checkpoint) (hCalls : calls ⊆ later) :
    Backed segmentId ledger later checkpoint :=
  ⟨h.segment, h.writtenUpTo.recorded, fun row hRow hShard hTarget hLe =>
    hCalls (h.writtenUpTo.written row hRow hShard hTarget hLe)⟩

/-- Records behind the others take nothing back. -/
theorem Backed.append {segmentId : SegmentId} {ledger more : Ledger} {calls : List WriterCall}
    {checkpoint : MetadataOutboxCheckpoint} (h : Backed segmentId ledger calls checkpoint)
    (hSorted : (ledger ++ more).Pairwise fun left right => left.2 < right.2) :
    Backed segmentId (ledger ++ more) calls checkpoint := by
  obtain ⟨hSegment, ⟨last, hLast, hOffset⟩, hWritten⟩ := h
  refine ⟨hSegment, ⟨last, List.mem_append_left more hLast, hOffset⟩, fun row hRow hShard hTarget hLe => ?_⟩
  rcases List.mem_append.mp hRow with hRow | hRow
  · exact hWritten row hRow hShard hTarget hLe
  · have hLt := (List.pairwise_append.mp hSorted).2.2 last hLast row hRow
    omega

/-! ## The invariant -/

/-- The rest of the cycle may propose a checkpoint of this key. -/
def WriterCycle.Ahead (cycle : WriterCycle) (key : DataIndividualShardId × IptoInstanceId) : Prop :=
  key ∈ cycle.checkpoints.map checkpointKey ∨ key.2 ∈ cycle.targets

structure WriterCycle.Fits (cycle : WriterCycle) (segmentId : SegmentId) (ledger : Ledger)
    (calls : List WriterCall) (plane : ClusterControlState) : Prop where
  targets : cycle.targets.Nodup
  keys : (cycle.checkpoints.map checkpointKey).Nodup
  apart : ∀ checkpoint ∈ cycle.checkpoints, checkpoint.target ∉ cycle.targets
  asRead : ∀ key, cycle.Ahead key → plane.outboxCheckpoints[key]? = cycle.control.outboxCheckpoints[key]?
  backed : ∀ checkpoint ∈ cycle.checkpoints, Backed segmentId ledger calls checkpoint
  epoch : ∀ checkpoint ∈ cycle.checkpoints, checkpoint.epoch = cycle.checkpointEpoch

def WriterNode.system {ω : Type} (node : WriterNode ω) : OutboxSystem ω :=
  ⟨node.service.metadataOutbox, node.remote⟩

structure WriterNode.Sound {ω : Type} (segmentId : SegmentId) (payloads : List IptoWritePayload)
    (node : WriterNode ω) : Prop where
  stores : node.system.Stores payloads
  segment : node.service.metadataOutbox.writer.segmentId = segmentId
  committed : ∀ (key : DataIndividualShardId × IptoInstanceId) (checkpoint : MetadataOutboxCheckpoint),
    node.plane.outboxCheckpoints[key]? = some checkpoint →
      key = checkpointKey checkpoint ∧ Backed segmentId (ledgerFrom 8 payloads) node.remote.2 checkpoint
  cycle : ∀ cycle, node.cycle = some cycle →
    cycle.Fits segmentId (ledgerFrom 8 payloads) node.remote.2 node.plane

/-- Every committed checkpoint is still there or was replaced by one that is as far. -/
def Advanced (before after : ClusterControlState) : Prop :=
  ∀ (key : DataIndividualShardId × IptoInstanceId) (checkpoint : MetadataOutboxCheckpoint),
    before.outboxCheckpoints[key]? = some checkpoint → ∃ next : MetadataOutboxCheckpoint,
      after.outboxCheckpoints[key]? = some next ∧ checkpoint.lastAcknowledgedOffset ≤ next.lastAcknowledgedOffset

theorem Advanced.of_eq {before after : ClusterControlState}
    (h : after.outboxCheckpoints = before.outboxCheckpoints) : Advanced before after := by
  intro key checkpoint hCommitted
  exact ⟨checkpoint, h ▸ hCommitted, le_rfl⟩

theorem Advanced.trans {first second third : ClusterControlState} (h : Advanced first second)
    (hNext : Advanced second third) : Advanced first third := by
  intro key checkpoint hCommitted
  obtain ⟨middle, hMiddle, hLe⟩ := h key checkpoint hCommitted
  obtain ⟨last, hLast, hLeLast⟩ := hNext key middle hMiddle
  exact ⟨last, hLast, hLe.trans hLeLast⟩

section Steps

variable {ω : Type} {writer : IptoWriter ω} {config : BackgroundWriterConfig} {nodeId : NodeId}
  {segmentId : SegmentId} {payloads : List IptoWritePayload} {node : WriterNode ω} {cycle : WriterCycle}

/-! ## Serving -/

theorem calls_deliver (writer : IptoWriter ω) (next : Option MetadataOutboxEntry) (outbox : MetadataOutbox)
    (remote : ω × List WriterCall) : remote.2 ⊆ (deliver writer.recording next outbox remote).2.2.2 := by
  cases next with
  | none => exact List.Subset.refl _
  | some entry =>
    rw [deliver]
    simp only [IptoWriter.recording]
    cases (writer.write remote.1 entry.payload).1 with
    | ok done => exact List.subset_append_left _ _
    | error error => exact List.subset_append_left _ _

theorem calls_drain
    {deliver : MetadataOutbox → ω × List WriterCall →
      MetadataOutboxDeliveryResult × MetadataOutbox × (ω × List WriterCall)}
    (hDeliver : ∀ outbox remote, remote.2 ⊆ (deliver outbox remote).2.2.2) (attempts : Nat)
    (summary : MetadataOutboxDrainSummary) (outbox : MetadataOutbox) (remote : ω × List WriterCall) :
    remote.2 ⊆ (drain deliver attempts summary outbox remote).2.2.2 :=
  @drain_invariant _ deliver (fun _ next => remote.2 ⊆ next.2)
    (fun outbox next hNext => List.Subset.trans hNext (hDeliver outbox next)) attempts summary outbox remote
    (List.Subset.refl remote.2)

theorem calls_drainTarget (writer : IptoWriter ω) (config : BackgroundWriterConfig) (target : IptoInstanceId)
    (outbox : MetadataOutbox) (remote : ω × List WriterCall) :
    remote.2 ⊆ (drainTarget writer.recording config target outbox remote).2.2.2 :=
  calls_drain (fun outbox remote => calls_deliver writer _ outbox remote) _ _ _ _

theorem stores_drainTarget (h : node.system.Stores payloads) (writer : IptoWriter ω)
    (config : BackgroundWriterConfig) (target : IptoInstanceId) :
    let drained := drainTarget writer.recording config target node.service.metadataOutbox.outbox node.remote
    OutboxSystem.Stores ⟨{ node.service.metadataOutbox with outbox := drained.2.1 }, drained.2.2⟩ payloads := by
  have hRetried := outboxStep_stores writer h
    (show ∀ payload, OutboxStep.retryFailedForTarget target ≠ .enqueueDurable payload by simp)
  exact outboxStep_stores writer hRetried
    (show ∀ payload, OutboxStep.drainPendingOutboxForTarget target config.maxDrainAttemptsPerTarget ≠
      .enqueueDurable payload by simp)

theorem Stores.distinctOffsets {system : OutboxSystem ω} (h : system.Stores payloads) :
    system.durable.outbox.DistinctOffsets :=
  Records.distinctOffsets h.follows.recorded (ledgerFrom_sorted 8 payloads)

/-- What the outbox reports as acknowledged was written. -/
theorem backed_of_reported {system : OutboxSystem ω} (h : system.Stores payloads) {target : IptoInstanceId}
    {segmentId : SegmentId} {epoch : CheckpointEpoch} {checkpoint : MetadataOutboxCheckpoint}
    (hSome : system.durable.outbox.acknowledgedCheckpoint checkpoint.dataIndividualShardId target segmentId epoch =
      some checkpoint) :
    Backed segmentId (ledgerFrom 8 payloads) system.remote.2 checkpoint := by
  obtain ⟨-, hTarget, hSegment, -⟩ := MetadataOutbox.acknowledgedCheckpoint_fields hSome
  have hReached := MetadataOutbox.acknowledgedCheckpoint_eq_some (Stores.distinctOffsets h) hSome
  refine ⟨hSegment, ?_, fun row hRow hShard hRowTarget hLe => ?_⟩
  · obtain ⟨entry, key, hEntry, -, -, hOffset⟩ := hReached.entry
    have hLookup := h.follows.lookup_of_entry hEntry
    rw [hOffset] at hLookup
    obtain ⟨found, hFound, hMem⟩ := Ledger.mem_of_lookup hLookup
    exact ⟨_, hMem, (Option.some.inj hFound).symm⟩
  · obtain ⟨entry, hEntry, hPayload, hOffset, hCall⟩ := keeps_of_mem h hRow
    refine hCall (hReached.acknowledged row.2 entry ⟨_, hEntry, ?_, ?_, hOffset⟩ hLe)
    · rw [hPayload, hRowTarget, hTarget]
    · rw [hPayload, hShard]

/-- The invariant survives whatever leaves the committed checkpoints alone and loses neither a
record nor a call. -/
theorem WriterNode.Sound.of_backed (h : node.Sound segmentId payloads) {next : WriterNode ω}
    {stored : List IptoWritePayload} (hStores : next.system.Stores stored)
    (hSegment : next.service.metadataOutbox.writer.segmentId = segmentId)
    (hPlane : next.plane.outboxCheckpoints = node.plane.outboxCheckpoints)
    (hBacked : ∀ checkpoint, Backed segmentId (ledgerFrom 8 payloads) node.remote.2 checkpoint →
      Backed segmentId (ledgerFrom 8 stored) next.remote.2 checkpoint)
    (hCycle : ∀ cycle, next.cycle = some cycle →
      cycle.Fits segmentId (ledgerFrom 8 stored) next.remote.2 next.plane) :
    next.Sound segmentId stored where
  stores := hStores
  segment := hSegment
  committed key checkpoint hCommitted := by
    rw [hPlane] at hCommitted
    obtain ⟨hKey, hOld⟩ := h.committed key checkpoint hCommitted
    exact ⟨hKey, hBacked checkpoint hOld⟩
  cycle := hCycle

theorem WriterCycle.Fits.of_backed {ledger next : Ledger} {calls later : List WriterCall}
    {plane after : ClusterControlState} (h : cycle.Fits segmentId ledger calls plane)
    (hPlane : after.outboxCheckpoints = plane.outboxCheckpoints)
    (hBacked : ∀ checkpoint, Backed segmentId ledger calls checkpoint → Backed segmentId next later checkpoint) :
    cycle.Fits segmentId next later after where
  targets := h.targets
  keys := h.keys
  apart := h.apart
  asRead key hAhead := by
    rw [hPlane]
    exact h.asRead key hAhead
  backed checkpoint hCheckpoint := hBacked checkpoint (h.backed checkpoint hCheckpoint)
  epoch := h.epoch

theorem serveTarget_sound (h : node.Sound segmentId payloads) {target : IptoInstanceId}
    {targets : List IptoInstanceId} (hCycle : node.cycle = some cycle) (hNone : cycle.checkpoints = [])
    (hTargets : cycle.targets = target :: targets) :
    (serveTarget writer config nodeId { cycle with targets } target node).Sound segmentId payloads ∧
      (serveTarget writer config nodeId { cycle with targets } target node).plane = node.plane := by
  have hFits := h.cycle cycle hCycle
  obtain ⟨hFresh, hNodup⟩ := List.nodup_cons.mp (hTargets ▸ hFits.targets)
  -- the keys of this target were ahead, and so are those of the remaining ones
  have hAsRead : ∀ key : DataIndividualShardId × IptoInstanceId, key.2 = target ∨ key.2 ∈ targets →
      node.plane.outboxCheckpoints[key]? = cycle.control.outboxCheckpoints[key]? := by
    intro key hKey
    refine hFits.asRead key (.inr ?_)
    rw [hTargets]
    exact List.mem_cons.mpr hKey
  rcases serveTarget_cases writer config nodeId { cycle with targets } target node with
    ⟨-, hServe⟩ | ⟨-, snapshot, cycleSummaries, -, hServe⟩
  · rw [hServe]
    refine ⟨h.of_backed h.stores h.segment rfl (fun _ hBacked => hBacked) fun next hNext => ?_, rfl⟩
    cases hNext
    refine ⟨hNodup, hFits.keys, ?_, ?_, hFits.backed, hFits.epoch⟩
    · simp [hNone]
    · rintro key (hKey | hKey)
      · simp [hNone] at hKey
      · exact hAsRead key (.inr hKey)
  · rw [hServe]
    dsimp only
    have hStores := stores_drainTarget h.stores writer config target
    have hCalls := calls_drainTarget writer config target node.service.metadataOutbox.outbox node.remote
    refine ⟨h.of_backed hStores h.segment rfl (fun _ hBacked => hBacked.calls hCalls) fun next hNext => ?_, rfl⟩
    cases hNext
    have hReported : ∀ checkpoint ∈ (node.service.withOutbox (drainTarget writer.recording config target
        node.service.metadataOutbox.outbox node.remote).2.1).acknowledgedCheckpointsForTarget target
          cycle.checkpointEpoch, checkpoint.target = target ∧ checkpoint.epoch = cycle.checkpointEpoch ∧
        Backed segmentId (ledgerFrom 8 payloads) (drainTarget writer.recording config target
          node.service.metadataOutbox.outbox node.remote).2.2.2 checkpoint := by
      intro checkpoint hCheckpoint
      have hSome := MetadataOutbox.exists_of_mem_checkpointsForTarget hCheckpoint
      obtain ⟨-, hTarget, -, hEpoch⟩ := MetadataOutbox.acknowledgedCheckpoint_fields hSome
      have hBacked := backed_of_reported hStores hSome
      exact ⟨hTarget, hEpoch, by rw [← h.segment]; exact hBacked⟩
    refine ⟨hNodup, ?_, fun checkpoint hCheckpoint => ?_, ?_, fun checkpoint hCheckpoint =>
      (hReported checkpoint hCheckpoint).2.2, fun checkpoint hCheckpoint => (hReported checkpoint hCheckpoint).2.1⟩
    · refine List.Nodup.of_map Prod.fst ?_
      rw [List.map_map]
      exact MetadataOutbox.checkpointsForTarget_shards _ target _ cycle.checkpointEpoch
    · rw [(hReported checkpoint hCheckpoint).1]
      exact hFresh
    · rintro key (hKey | hKey)
      · obtain ⟨checkpoint, hCheckpoint, rfl⟩ := List.mem_map.mp hKey
        exact hAsRead _ (.inl (hReported checkpoint hCheckpoint).1)
      · exact hAsRead key (.inr hKey)

/-! ## Proposing -/

theorem propose_checkpoint_cases (plane : ClusterControlState) (checkpoint : MetadataOutboxCheckpoint)
    (outcome : ProposeOutcome) :
    (propose plane (.recordOutboxCheckpoint checkpoint) outcome).2.outboxCheckpoints = plane.outboxCheckpoints ∨
    (propose plane (.recordOutboxCheckpoint checkpoint) outcome).2.outboxCheckpoints =
      plane.outboxCheckpoints.insert (checkpointKey checkpoint) checkpoint := by
  have hApply : (propose plane (.recordOutboxCheckpoint checkpoint) outcome).2 = plane ∨
      (propose plane (.recordOutboxCheckpoint checkpoint) outcome).2 =
        (plane.apply (.recordOutboxCheckpoint checkpoint)).2 := by
    cases outcome with
    | answered =>
      rw [propose]
      split
      · rename_i hApply
        exact .inr (by rw [hApply])
      · rename_i hApply
        exact .inr (by rw [hApply])
    | failedBefore error => exact .inl rfl
    | failedAfter error => exact .inr rfl
  rcases hApply with hSame | hApplied
  · exact .inl (by rw [hSame])
  · rw [hApplied]
    rcases plane.apply_cases (.recordOutboxCheckpoint checkpoint) with ⟨next, hNext, hAccepts⟩ | ⟨error, hError⟩
    · rw [hNext]
      cases hAccepts
      exact .inr rfl
    · rw [hError]
      exact .inl rfl

/-- A checkpoint is skipped, or it is proposed and the cycle goes on with the rest. -/
theorem recordCheckpoint_cases (cycle : WriterCycle) (checkpoint : MetadataOutboxCheckpoint)
    (outcome : ProposeOutcome) (node : WriterNode ω) :
    (cycle.alreadyCommitted checkpoint = true ∧
      recordCheckpoint cycle checkpoint outcome node = (none, { node with cycle := some cycle })) ∨
    (cycle.alreadyCommitted checkpoint = false ∧ ∃ snapshot, snapshot.cycles = node.snapshot.cycles ∧
      recordCheckpoint cycle checkpoint outcome node = (some ⟨checkpoint, node.plane⟩, { node with
        plane := (propose node.plane (.recordOutboxCheckpoint checkpoint) outcome).2
        snapshot
        cycle := some cycle })) := by
  rw [recordCheckpoint]
  split
  · rename_i hCommitted
    exact .inl ⟨hCommitted, rfl⟩
  · rename_i hCommitted
    refine .inr ⟨Bool.eq_false_iff.mpr hCommitted, ?_⟩
    split
    · rename_i hPropose
      exact ⟨node.snapshot, rfl, by rw [hPropose]⟩
    · rename_i error plane hPropose
      exact ⟨{ node.snapshot with lastControlError := some error }, rfl, by rw [hPropose]⟩

theorem recordCheckpoint_sound (h : node.Sound segmentId payloads) {checkpoint : MetadataOutboxCheckpoint}
    {checkpoints : List MetadataOutboxCheckpoint} (hCycle : node.cycle = some cycle)
    (hCheckpoints : cycle.checkpoints = checkpoint :: checkpoints) (outcome : ProposeOutcome) :
    (recordCheckpoint { cycle with checkpoints } checkpoint outcome node).2.Sound segmentId payloads ∧
      Advanced node.plane (recordCheckpoint { cycle with checkpoints } checkpoint outcome node).2.plane := by
  have hFits := h.cycle cycle hCycle
  have hMem : checkpoint ∈ cycle.checkpoints := by
    rw [hCheckpoints]
    exact List.mem_cons_self
  have hLater : ∀ other ∈ checkpoints, other ∈ cycle.checkpoints := by
    intro other hOther
    rw [hCheckpoints]
    exact List.mem_cons_of_mem checkpoint hOther
  obtain ⟨hFresh, hNodup⟩ : checkpointKey checkpoint ∉ checkpoints.map checkpointKey ∧
      (checkpoints.map checkpointKey).Nodup := by
    rw [← List.nodup_cons, ← List.map_cons, ← hCheckpoints]
    exact hFits.keys
  -- what is ahead afterwards was ahead before, and is not the key of this checkpoint
  have hAhead : ∀ key, WriterCycle.Ahead { cycle with checkpoints } key →
      cycle.Ahead key ∧ key ≠ checkpointKey checkpoint := by
    rintro key (hKey | hKey)
    · refine ⟨.inl ?_, fun hEq => hFresh (hEq ▸ hKey)⟩
      rw [hCheckpoints]
      exact List.mem_cons_of_mem _ hKey
    · refine ⟨.inr hKey, fun hEq => hFits.apart checkpoint hMem ?_⟩
      rw [hEq] at hKey
      exact hKey
  have hRest : ∀ plane : ClusterControlState,
      (∀ key, key ≠ checkpointKey checkpoint →
        plane.outboxCheckpoints[key]? = node.plane.outboxCheckpoints[key]?) →
      WriterCycle.Fits { cycle with checkpoints } segmentId (ledgerFrom 8 payloads) node.remote.2 plane := by
    intro plane hPlane
    refine ⟨hFits.targets, hNodup, fun other hOther => hFits.apart other (hLater other hOther), fun key hKey => ?_,
      fun other hOther => hFits.backed other (hLater other hOther),
      fun other hOther => hFits.epoch other (hLater other hOther)⟩
    obtain ⟨hBefore, hNe⟩ := hAhead key hKey
    rw [hPlane key hNe]
    exact hFits.asRead key hBefore
  rcases recordCheckpoint_cases { cycle with checkpoints } checkpoint outcome node with
    ⟨-, hRecord⟩ | ⟨hNot, snapshot, -, hRecord⟩
  · rw [hRecord]
    refine ⟨h.of_backed h.stores h.segment rfl (fun _ hBacked => hBacked) fun next hNext => ?_, .of_eq rfl⟩
    cases hNext
    exact hRest node.plane fun _ _ => rfl
  · rw [hRecord]
    rcases propose_checkpoint_cases node.plane checkpoint outcome with hPlane | hPlane
    · refine ⟨h.of_backed h.stores h.segment hPlane (fun _ hBacked => hBacked) fun next hNext => ?_, .of_eq hPlane⟩
      cases hNext
      exact hRest _ fun key _ => by rw [hPlane]
    · refine ⟨⟨h.stores, h.segment, fun key found hFound => ?_, fun next hNext => ?_⟩, fun key old hOld => ?_⟩
      · dsimp only at hFound
        rw [hPlane, getElem?_insert_ite] at hFound
        split at hFound
        · rename_i hKey
          cases hFound
          exact ⟨hKey.symm, hFits.backed checkpoint hMem⟩
        · exact h.committed key found hFound
      · cases hNext
        refine hRest _ fun key hNe => ?_
        rw [hPlane, getElem?_insert_ite, if_neg hNe.symm]
      · dsimp only
        rw [hPlane, getElem?_insert_ite]
        split
        · rename_i hKey
          subst hKey
          refine ⟨checkpoint, rfl, ?_⟩
          have hRead := hFits.asRead (checkpointKey checkpoint) (.inl (List.mem_map_of_mem hMem))
          rw [hOld] at hRead
          have hSegment := (h.committed _ old hOld).2.segment.trans (hFits.backed checkpoint hMem).segment.symm
          -- it was not skipped, so what was read is not as far
          rw [WriterCycle.alreadyCommitted, ClusterControlState.outboxCheckpoint] at hNot
          rw [checkpointKey] at hRead
          rw [← hRead, Option.any_some, decide_eq_false_iff_not] at hNot
          exact Nat.le_of_lt (Nat.lt_of_not_le fun hLe => hNot ⟨hSegment, hLe⟩)
        · exact ⟨old, hOld, le_rfl⟩

/-! ## The other steps -/

theorem segmentId_enqueueDurable (durable : SegmentBackedMetadataOutbox) (payload : IptoWritePayload) :
    (durable.enqueueDurable payload).2.writer.segmentId = durable.writer.segmentId := by
  rcases enqueueDurable_cases durable payload with
    ⟨-, hResult⟩ | ⟨-, -, next, hResult, hSegment, -⟩ | ⟨-, error, hResult⟩
  · rw [hResult]
  · rw [hResult]
    exact hSegment
  · rw [hResult]

theorem enqueueDurable_sound (writer : IptoWriter ω) (h : node.Sound segmentId payloads) (payload : IptoWritePayload)
    {service : MetadataService} (hOutbox : service.metadataOutbox =
      (node.service.metadataOutbox.enqueueDurable payload).2) :
    ∃ stored, WriterNode.Sound segmentId stored { node with service } := by
  have hSegment : service.metadataOutbox.writer.segmentId = segmentId := by
    rw [hOutbox, segmentId_enqueueDurable]
    exact h.segment
  have hSystem : WriterNode.system { node with service } =
      (outboxStep writer node.system (.enqueueDurable payload)).2 := by
    rw [WriterNode.system, hOutbox]
    rfl
  rcases enqueueDurable_stores writer h.stores payload with ⟨hSame, -⟩ | ⟨-, hNext⟩
  · rw [hSame] at hSystem
    refine ⟨payloads, h.of_backed (hSystem ▸ h.stores) hSegment rfl (fun _ hBacked => hBacked) fun cycle hCycle => ?_⟩
    exact h.cycle cycle hCycle
  · have hBacked : ∀ checkpoint, Backed segmentId (ledgerFrom 8 payloads) node.remote.2 checkpoint →
        Backed segmentId (ledgerFrom 8 (payloads ++ [payload])) node.remote.2 checkpoint := by
      intro checkpoint hBacked
      have hSorted := ledgerFrom_sorted 8 (payloads ++ [payload])
      rw [ledgerFrom_concat] at hSorted ⊢
      exact hBacked.append hSorted
    refine ⟨payloads ++ [payload], h.of_backed (hSystem ▸ hNext) hSegment rfl hBacked fun cycle hCycle => ?_⟩
    exact (h.cycle cycle hCycle).of_backed rfl hBacked

theorem capture_sound (writer : IptoWriter ω) (h : node.Sound segmentId payloads)
    (read : Except String ClusterControlState) (event : DataIndividualMetadataEvent) :
    ∃ stored, WriterNode.Sound segmentId stored { node with
      service := (node.service.captureMetadataEvent read event).2 } := by
  rcases captureStep_cases node.service ⟨read, event⟩ with
    ⟨error, placementMap, -, -, hCapture⟩ | ⟨target, placementMap, -, hCapture⟩
  · rw [captureStep] at hCapture
    rw [hCapture]
    exact ⟨payloads, h.of_backed h.stores h.segment rfl (fun _ hBacked => hBacked) h.cycle⟩
  · rw [captureStep] at hCapture
    rw [hCapture]
    refine enqueueDurable_sound writer h (.fromEvent event target node.service.mapping) ?_
    rw [MetadataService.enqueueCapture]
    split
    · rename_i hEnqueue
      rw [hEnqueue]
    · rename_i hEnqueue
      rw [hEnqueue]

theorem beginCycle_sound (h : node.Sound segmentId payloads) (readError : Option String) :
    WriterNode.Sound segmentId payloads { node with
      snapshot := (beginCycle node.snapshot (readPlane node.plane readError)).1
      cycle := (beginCycle node.snapshot (readPlane node.plane readError)).2 } := by
  refine h.of_backed h.stores h.segment rfl (fun _ hBacked => hBacked) fun cycle hCycle => ?_
  cases readError with
  | some error => cases hCycle
  | none =>
    cases hCycle
    refine ⟨?_, List.nodup_nil, by simp, fun key hKey => rfl, by simp, by simp⟩
    cases hMap : node.plane.placementMap with
    | none => simp
    | some map =>
      simp only [Option.map_some, Option.getD_some]
      exact map.instances_nodup

theorem outboxCheckpoints_apply {plane : ClusterControlState} {command : ClusterControlCommand}
    (h : ∀ checkpoint, command ≠ .recordOutboxCheckpoint checkpoint) :
    (plane.apply command).2.outboxCheckpoints = plane.outboxCheckpoints := by
  rcases plane.apply_cases command with ⟨next, hNext, hAccepts⟩ | ⟨error, hError⟩
  · rw [hNext]
    cases hAccepts with
    | recordOutboxCheckpoint checkpoint => exact absurd rfl (h checkpoint)
    | addNode | removeNode | setIptoPlacementMap | grantWriterLease | recordSealedSegment | recordCheckpoint => rfl
  · rw [hError]

theorem segmentId_recoverAfter {file : Bytes} {path : PathBuf} {segmentId : SegmentId} {nodeId : NodeId}
    {checkpointOffset : Option Nat} {durable : SegmentBackedMetadataOutbox} {summary : MetadataOutboxReplaySummary}
    (h : SegmentBackedMetadataOutbox.recoverAfter file path segmentId nodeId checkpointOffset =
      .ok (durable, summary)) : durable.writer.segmentId = segmentId := by
  obtain ⟨replay, -, hRest⟩ := ok_of_bind h
  obtain ⟨writer, hWriter, hPair⟩ := ok_of_bind hRest
  obtain ⟨stats, -, hMade⟩ := ok_of_bind (ok_of_mapError hWriter)
  cases hPair
  cases hMade
  rfl

/-- A restart succeeds. It finds every record again and forgets only what was acknowledged. -/
theorem restart_sound (h : node.Sound segmentId payloads) (placementMap : IptoPlacementMap)
    (mapping : IptoMapping) (nodeId : NodeId) :
    ∃ service summary, MetadataService.recoverAfter placementMap mapping node.service.metadataOutbox.writer.file
        node.service.metadataOutbox.writer.path segmentId nodeId none = .ok (service, summary) ∧
      WriterNode.Sound segmentId payloads { node with
        service := { service with node := node.service.node }
        snapshot := .default
        cycle := none } := by
  obtain ⟨index, hIndex⟩ := replayProvenance_isOk h.stores.holds
  obtain ⟨durable, summary, hRecover, hHolds, hFollows, -⟩ := recoverAfter_holds h.stores.holds h.stores.distinct
    node.service.metadataOutbox.writer.path segmentId nodeId
  refine ⟨{ MetadataService.new placementMap mapping durable with provenanceIndex := index }, summary, ?_, ?_⟩
  · rw [MetadataService.recoverAfter]
    exact (ok_bind hIndex _).trans (ok_bind hRecover _)
  · refine h.of_backed ⟨h.stores.distinct, hHolds, hFollows.mono (List.nil_subset _)⟩
      (segmentId_recoverAfter hRecover) rfl (fun _ hBacked => hBacked) fun cycle hCycle => ?_
    cases hCycle

/-! ## Every step -/

theorem writerStep_sound (h : node.Sound segmentId payloads) (step : WriterStep) :
    (∃ stored, (writerStep writer config nodeId segmentId node step).2.Sound segmentId stored) ∧
      Advanced node.plane (writerStep writer config nodeId segmentId node step).2.plane := by
  cases step with
  | beginCycle readError =>
    rw [writerStep]
    split
    · exact ⟨⟨payloads, h⟩, .of_eq rfl⟩
    · exact ⟨⟨payloads, beginCycle_sound h readError⟩, .of_eq rfl⟩
  | advance outcome =>
    rw [writerStep]
    split
    · exact ⟨⟨payloads, h⟩, .of_eq rfl⟩
    · rename_i cycle hCycle
      rw [advanceCycle]
      split
      · rename_i checkpoint checkpoints hCheckpoints
        obtain ⟨hSound, hAdvanced⟩ := recordCheckpoint_sound h hCycle hCheckpoints outcome
        exact ⟨⟨payloads, hSound⟩, hAdvanced⟩
      · rename_i hNone
        split
        · rename_i target targets hTargets
          obtain ⟨hSound, hPlane⟩ := @serveTarget_sound ω writer config nodeId _ _ _ _ h _ _ hCycle hNone hTargets
          exact ⟨⟨payloads, hSound⟩, .of_eq (by rw [hPlane])⟩
        · refine ⟨⟨payloads, ?_⟩, .of_eq rfl⟩
          exact h.of_backed h.stores h.segment rfl (fun _ hBacked => hBacked) fun next hNext => by cases hNext
  | capture readError event =>
    exact ⟨capture_sound writer h _ event, .of_eq rfl⟩
  | command command =>
    by_cases hOwn : ∃ checkpoint, command = .recordOutboxCheckpoint checkpoint
    · obtain ⟨checkpoint, rfl⟩ := hOwn
      exact ⟨⟨payloads, h⟩, .of_eq rfl⟩
    · rw [not_exists] at hOwn
      have hPlane := @outboxCheckpoints_apply node.plane command hOwn
      have hStep : writerStep writer config nodeId segmentId node (.command command) =
          (none, { node with plane := (node.plane.apply command).2 }) := by
        rw [writerStep]
        exact hOwn
      rw [hStep]
      refine ⟨⟨payloads, ?_⟩, .of_eq hPlane⟩
      exact h.of_backed h.stores h.segment hPlane (fun _ hBacked => hBacked) fun cycle hCycle =>
        (h.cycle cycle hCycle).of_backed hPlane fun _ hBacked => hBacked
  | restart placementMap mapping =>
    obtain ⟨service, summary, hRecover, hSound⟩ := restart_sound h placementMap mapping nodeId
    rw [writerStep, hRecover]
    exact ⟨⟨payloads, hSound⟩, .of_eq rfl⟩

/-! ## Epochs -/

theorem epoch_le_maxCommittedEpoch {control : ClusterControlState}
    {key : DataIndividualShardId × IptoInstanceId} {checkpoint : MetadataOutboxCheckpoint}
    (h : control.outboxCheckpoints[key]? = some checkpoint) : checkpoint.epoch ≤ maxCommittedEpoch control := by
  have hMem : checkpoint.epoch ∈ control.outboxCheckpoints.toList.map fun binding => binding.2.epoch :=
    List.mem_map.mpr ⟨(key, checkpoint), Std.ExtTreeMap.mem_toList_iff_getElem?_eq_some.mpr h, rfl⟩
  rw [maxCommittedEpoch]
  cases hMax : (control.outboxCheckpoints.toList.map fun binding => binding.2.epoch).max? with
  | none =>
    rw [List.max?_eq_none_iff] at hMax
    rw [hMax] at hMem
    cases hMem
  | some found => exact (List.max?_eq_some_iff.mp hMax).2 _ hMem

theorem lt_saturatingAdd {left right : UInt64} (hRight : right ≠ 0) (h : saturatingAdd left right < u64Max) :
    left < saturatingAdd left right ∧ right < u64Max := by
  rw [saturatingAdd] at h ⊢
  split at h
  · rename_i hFits
    rw [if_pos hFits]
    have hPositive : right.toNat ≠ 0 := fun hZero => hRight (UInt64.toNat_inj.mp hZero)
    have hSum : (left + right).toNat = left.toNat + right.toNat := by
      rw [UInt64.toNat_add, Nat.mod_eq_of_lt hFits]
    rw [UInt64.lt_iff_toNat_lt, hSum] at h
    rw [UInt64.lt_iff_toNat_lt, UInt64.lt_iff_toNat_lt, hSum]
    omega
  · exact absurd h (UInt64.lt_irrefl u64Max)

/-- The epoch of a cycle that begins stays below the greatest `u64`. -/
def BelowMax (node : WriterNode ω) : WriterStep → Prop
  | .beginCycle _ => node.cycle = none →
    saturatingAdd (maxCommittedEpoch node.plane) (node.snapshot.cycles + 1) < u64Max
  | _ => True

/-- The counter can still be incremented, and the epoch of the cycle is above all that was read. -/
structure WriterNode.Ticking (node : WriterNode ω) : Prop where
  cycles : node.snapshot.cycles < u64Max
  above : ∀ cycle, node.cycle = some cycle →
    ∀ (key : DataIndividualShardId × IptoInstanceId) (checkpoint : MetadataOutboxCheckpoint),
      cycle.control.outboxCheckpoints[key]? = some checkpoint → checkpoint.epoch < cycle.checkpointEpoch

theorem add_one_ne_zero {value : UInt64} (h : value < u64Max) : value + 1 ≠ 0 := by
  intro hZero
  have hMax : u64Max.toNat = 2 ^ 64 - 1 := UInt64.toNat_ofNat_of_lt' (by decide)
  have hSum := congrArg UInt64.toNat hZero
  rw [UInt64.lt_iff_toNat_lt, hMax] at h
  rw [UInt64.toNat_add, UInt64.toNat_one, UInt64.toNat_zero] at hSum
  omega

/-- A cycle that goes on keeps what it has read, its epoch and the counter. -/
theorem Ticking.of_cycle {next : WriterNode ω} (h : node.Ticking) (hCycle : node.cycle = some cycle)
    (hCycles : next.snapshot.cycles = node.snapshot.cycles)
    (hNext : ∀ later, next.cycle = some later →
      later.control = cycle.control ∧ later.checkpointEpoch = cycle.checkpointEpoch) : next.Ticking where
  cycles := hCycles ▸ h.cycles
  above later hLater key checkpoint hCommitted := by
    obtain ⟨hControl, hEpoch⟩ := hNext later hLater
    rw [hControl] at hCommitted
    rw [hEpoch]
    exact h.above cycle hCycle key checkpoint hCommitted

theorem beginCycle_ticking (h : node.Ticking) (hNone : node.cycle = none) {readError : Option String}
    (hBelow : BelowMax node (.beginCycle readError)) :
    WriterNode.Ticking { node with
      snapshot := (beginCycle node.snapshot (readPlane node.plane readError)).1
      cycle := (beginCycle node.snapshot (readPlane node.plane readError)).2 } := by
  obtain ⟨hAbove, hCycles⟩ := lt_saturatingAdd (add_one_ne_zero h.cycles) (hBelow hNone)
  cases readError with
  | some error => exact ⟨hCycles, fun cycle hCycle => by cases hCycle⟩
  | none =>
    refine ⟨hCycles, fun cycle hCycle key checkpoint hCommitted => ?_⟩
    cases hCycle
    exact lt_of_le_of_lt (epoch_le_maxCommittedEpoch hCommitted) hAbove

theorem writerStep_ticking (h : node.Ticking) {step : WriterStep} (hBelow : BelowMax node step) :
    (writerStep writer config nodeId segmentId node step).2.Ticking := by
  cases step with
  | beginCycle readError =>
    rw [writerStep]
    split
    · exact h
    · rename_i hNone
      exact beginCycle_ticking h hNone hBelow
  | advance outcome =>
    rw [writerStep]
    split
    · exact h
    · rename_i cycle hCycle
      rw [advanceCycle]
      split
      · rename_i checkpoint checkpoints hCheckpoints
        rcases recordCheckpoint_cases { cycle with checkpoints } checkpoint outcome node with
          ⟨-, hRecord⟩ | ⟨-, snapshot, hCycles, hRecord⟩
        · rw [hRecord]
          exact Ticking.of_cycle h hCycle rfl fun later hLater => by cases hLater; exact ⟨rfl, rfl⟩
        · rw [hRecord]
          exact Ticking.of_cycle h hCycle hCycles fun later hLater => by cases hLater; exact ⟨rfl, rfl⟩
      · split
        · rename_i target targets hTargets
          rcases serveTarget_cases writer config nodeId { cycle with targets } target node with
            ⟨-, hServe⟩ | ⟨-, snapshot, cycleSummaries, hCycles, hServe⟩
          · rw [hServe]
            exact Ticking.of_cycle h hCycle rfl fun later hLater => by cases hLater; exact ⟨rfl, rfl⟩
          · rw [hServe]
            exact Ticking.of_cycle h hCycle hCycles fun later hLater => by cases hLater; exact ⟨rfl, rfl⟩
        · exact ⟨h.cycles, fun later hLater => by cases hLater⟩
  | capture readError event => exact ⟨h.cycles, h.above⟩
  | command command =>
    cases command with
    | recordOutboxCheckpoint checkpoint => exact h
    | addNode | removeNode | setIptoPlacementMap | grantWriterLease | recordSealedSegment | recordCheckpoint =>
      exact ⟨h.cycles, h.above⟩
  | restart placementMap mapping =>
    rw [writerStep]
    split
    · exact h
    · have hZero : BackgroundWriterSnapshot.default.cycles < u64Max := by decide
      exact ⟨hZero, fun later hLater => by cases hLater⟩

/-- The committed checkpoint of the key is older, so that the proposal is not stale. -/
structure Proposal.Fresh (proposal : Proposal) : Prop where
  newer : ∀ current, proposal.plane.outboxCheckpoint proposal.checkpoint.dataIndividualShardId
    proposal.checkpoint.target = some current → current.epoch < proposal.checkpoint.epoch
  accepted : (proposal.plane.apply (.recordOutboxCheckpoint proposal.checkpoint)).1 = .ok ()

theorem writerStep_fresh (hSound : node.Sound segmentId payloads) (hTicking : node.Ticking) {step : WriterStep}
    {proposal : Proposal}
    (h : (writerStep writer config nodeId segmentId node step).1 = some proposal) : proposal.Fresh := by
  cases step with
  | beginCycle readError =>
    rw [writerStep] at h
    split at h
    · cases h
    · cases h
  | advance outcome =>
    rw [writerStep] at h
    split at h
    · cases h
    rename_i cycle hCycle
    rw [advanceCycle] at h
    split at h
    · rename_i checkpoint checkpoints hCheckpoints
      rcases recordCheckpoint_cases { cycle with checkpoints } checkpoint outcome node with
        ⟨-, hRecord⟩ | ⟨-, snapshot, -, hRecord⟩
      · rw [hRecord] at h
        cases h
      · rw [hRecord] at h
        cases h
        have hFits := hSound.cycle cycle hCycle
        have hMem : checkpoint ∈ cycle.checkpoints := by
          rw [hCheckpoints]
          exact List.mem_cons_self
        have hNewer : ∀ current, node.plane.outboxCheckpoints[checkpointKey checkpoint]? = some current →
            current.epoch < checkpoint.epoch := by
          intro current hCurrent
          rw [hFits.asRead _ (.inl (List.mem_map_of_mem hMem))] at hCurrent
          rw [hFits.epoch checkpoint hMem]
          exact hTicking.above cycle hCycle _ current hCurrent
        refine ⟨hNewer, ?_⟩
        rw [(ClusterControlState.Accepts.recordOutboxCheckpoint checkpoint hNewer).apply_eq]
    · split at h
      · cases h
      · cases h
  | capture readError event => cases h
  | command command =>
    cases command with
    | recordOutboxCheckpoint checkpoint => cases h
    | addNode | removeNode | setIptoPlacementMap | grantWriterLease | recordSealedSegment | recordCheckpoint =>
      cases h
  | restart placementMap mapping =>
    rw [writerStep] at h
    split at h
    · cases h
    · cases h

end Steps

/-! ## Every run -/

theorem row_of_mem_recordsFrom {payloads : List IptoWritePayload} {offset : Nat} {record : SegmentRecord}
    (h : record ∈ recordsFrom offset (payloads.map IptoWritePayload.encode)) :
    ∃ payload, (payload, record.offset) ∈ ledgerFrom offset payloads ∧ record.payload = payload.encode := by
  induction payloads generalizing offset with
  | nil => cases h
  | cons payload payloads ih =>
    rcases List.mem_cons.mp h with rfl | h
    · exact ⟨payload, List.mem_cons_self, rfl⟩
    · obtain ⟨found, hFound, hPayload⟩ := ih h
      exact ⟨found, List.mem_cons_of_mem _ hFound, hPayload⟩

/-- Every record of the stream up to the offset was written with `Ok` at least once. -/
def WrittenThrough (file : Bytes) (calls : List WriterCall) (shardId : DataIndividualShardId)
    (target : IptoInstanceId) (offset : Nat) : Prop :=
  ∃ records, readFile file = .ok (records, none) ∧ ∀ record ∈ records, record.offset ≤ offset →
    ∃ payload, IptoWritePayload.decode record.payload = .ok payload ∧
      (payload.shardId = shardId → payload.target = target → (payload, .ok ()) ∈ calls)

theorem writtenThrough_of_sound {ω : Type} {segmentId : SegmentId} {payloads : List IptoWritePayload}
    {node : WriterNode ω} (h : node.Sound segmentId payloads) {shardId : DataIndividualShardId}
    {target : IptoInstanceId} {checkpoint : MetadataOutboxCheckpoint}
    (hCommitted : node.plane.outboxCheckpoint shardId target = some checkpoint) :
    WrittenThrough node.service.metadataOutbox.writer.file node.remote.2 shardId target
      checkpoint.lastAcknowledgedOffset := by
  obtain ⟨hKey, hBacked⟩ := h.committed _ checkpoint hCommitted
  obtain ⟨rfl, rfl⟩ := Prod.mk.inj hKey
  have hHolds : node.service.metadataOutbox.writer.Holds (payloads.map IptoWritePayload.encode) := h.stores.holds
  refine ⟨_, by rw [hHolds.file]; exact readFile_segment hHolds.sized, fun record hRecord hLe => ?_⟩
  obtain ⟨payload, hRow, hEncode⟩ := row_of_mem_recordsFrom hRecord
  have hSized := hHolds.sized _ (List.mem_map_of_mem (mem_of_mem_ledgerFrom hRow))
  refine ⟨payload, by rw [hEncode]; exact decode_encode hSized, fun hShard hTarget => ?_⟩
  exact hBacked.writtenUpTo.written (payload, record.offset) hRow hShard hTarget hLe

theorem sound_start {ω : Type} {service : MetadataService} {path : PathBuf} {segmentId : SegmentId}
    {nodeId : NodeId} {durable : SegmentBackedMetadataOutbox}
    (hCreate : SegmentBackedMetadataOutbox.create none path segmentId nodeId = .ok durable)
    (hService : service.metadataOutbox = durable) (remote : ω) :
    (WriterNode.start service remote).Sound segmentId [] := by
  obtain ⟨segment, hSegment, hHolds⟩ := SegmentWriter.holds_create path segmentId nodeId
  rw [SegmentBackedMetadataOutbox.create, hSegment] at hCreate
  cases hCreate
  cases hSegment
  refine ⟨⟨List.nodup_nil, ?_, ?_⟩, ?_, fun key checkpoint hCommitted => ?_, fun cycle hCycle => ?_⟩
  · rw [WriterNode.system, WriterNode.start, hService]
    exact hHolds
  · rw [WriterNode.system, WriterNode.start, hService]
    exact Follows.new []
  · rw [WriterNode.start, hService]
  · simp [WriterNode.start, ClusterControlState.new] at hCommitted
  · cases hCycle

section Runs

variable {ω : Type} {writer : IptoWriter ω} {config : BackgroundWriterConfig} {nodeId : NodeId}
  {segmentId : SegmentId}

theorem run_sound {node : WriterNode ω} (h : ∃ payloads, node.Sound segmentId payloads) (steps : List WriterStep) :
    (∃ payloads, (run (writerStep writer config nodeId segmentId) node steps).2.Sound segmentId payloads) ∧
      Advanced node.plane (run (writerStep writer config nodeId segmentId) node steps).2.plane := by
  induction steps generalizing node with
  | nil => exact ⟨h, .of_eq rfl⟩
  | cons step steps ih =>
    obtain ⟨payloads, hSound⟩ := h
    obtain ⟨hNext, hStep⟩ := @writerStep_sound ω writer config nodeId _ _ _ hSound step
    obtain ⟨hLast, hRest⟩ := ih hNext
    exact ⟨hLast, hStep.trans hRest⟩

/-- So far every proposal was fresh, and the next one will be. -/
structure FreshSoFar (segmentId : SegmentId) (past : List (WriterStep × Option Proposal)) (node : WriterNode ω) :
    Prop where
  sound : ∃ payloads, node.Sound segmentId payloads
  ticking : node.Ticking
  fresh : ∀ step proposal, (step, some proposal) ∈ past → proposal.Fresh

theorem freshSoFar_step (past : List (WriterStep × Option Proposal)) (node : WriterNode ω) (step : WriterStep)
    (h : FreshSoFar segmentId past node) (hBelow : BelowMax node step) :
    FreshSoFar segmentId (past ++ [(step, (writerStep writer config nodeId segmentId node step).1)])
      (writerStep writer config nodeId segmentId node step).2 := by
  obtain ⟨payloads, hSound⟩ := h.sound
  refine ⟨(writerStep_sound hSound step).1, writerStep_ticking h.ticking hBelow, fun other proposal hMem => ?_⟩
  rcases List.mem_append.mp hMem with hMem | hMem
  · exact h.fresh other proposal hMem
  · have hAnswer := (Prod.mk.inj (List.mem_singleton.mp hMem)).2
    exact writerStep_fresh hSound h.ticking hAnswer.symm

end Runs

theorem committed_checkpoints_advance {ω : Type} (writer : IptoWriter ω) (config : BackgroundWriterConfig)
    (nodeId : NodeId) (segmentId : SegmentId) (placementMap : IptoPlacementMap) (mapping : IptoMapping)
    (path : PathBuf) (remote : ω) (attached : Option NodeId) :
    ∃ service, MetadataService.create placementMap mapping none path segmentId nodeId = .ok service ∧
      ∀ steps : List WriterStep,
        let step := writerStep writer config nodeId segmentId
        let start := WriterNode.start { service with node := attached } remote
        let reached := (run step start steps).2
        (∀ more, Advanced reached.plane (run step reached more).2.plane) ∧
        (∀ shardId target checkpoint, reached.plane.outboxCheckpoint shardId target = some checkpoint →
          WrittenThrough reached.service.metadataOutbox.writer.file reached.remote.2 shardId target
            checkpoint.lastAcknowledgedOffset) ∧
        (AllSteps step BelowMax start steps →
          ∀ input proposal, (input, some proposal) ∈ (run step start steps).1 → proposal.Fresh) := by
  obtain ⟨segment, hSegment, -⟩ := SegmentWriter.holds_create path segmentId nodeId
  have hCreate : SegmentBackedMetadataOutbox.create none path segmentId nodeId = .ok ⟨.new, segment⟩ := by
    rw [SegmentBackedMetadataOutbox.create, hSegment]
    rfl
  refine ⟨.new placementMap mapping ⟨.new, segment⟩, ?_, fun steps => ?_⟩
  · rw [MetadataService.create, hCreate]
    rfl
  intro step start reached
  have hStart : start.Sound segmentId [] := sound_start hCreate rfl remote
  have hReached := (@run_sound ω writer config nodeId segmentId start ⟨[], hStart⟩ steps).1
  refine ⟨fun more => (run_sound hReached more).2, fun shardId target checkpoint hCommitted => ?_,
    fun hBelow input proposal hMem => ?_⟩
  · obtain ⟨payloads, hSound⟩ := hReached
    exact writtenThrough_of_sound hSound hCommitted
  · have hZero : BackgroundWriterSnapshot.default.cycles < u64Max := by decide
    have hFresh : FreshSoFar segmentId [] start :=
      ⟨⟨[], hStart⟩, ⟨hZero, fun cycle hCycle => by cases hCycle⟩, by simp⟩
    have hHistory := run_history_of_allSteps freshSoFar_step hFresh hBelow
    rw [List.nil_append] at hHistory
    exact hHistory.fresh input proposal hMem

/-- The proposal takes effect although it is reported as failed, and then the process restarts. -/
def lateProposal : List WriterStep :=
  [.command (.addNode ⟨"node-a"⟩), .command (.setIptoPlacementMap mapBefore),
    .command (.grantWriterLease ⟨⟨"ipto-a"⟩, ⟨"node-a"⟩, 1⟩), .capture none (sampleCapture "data-1" "meta-1").event,
    .beginCycle none, .advance .answered, .advance (.failedAfter "timeout"), .restart mapBefore (.new "v1")]

/-- A service on an empty segment. -/
def emptyService : MetadataService :=
  .new mapBefore (.new "v1")
    ⟨.new, ⟨⟨"outbox"⟩, ⟨"node-a"⟩, ⟨utf8Bytes "a.seg"⟩, segmentMagic, 0, segmentMagic.length, 0⟩⟩

def lateRun : List (WriterStep × Option Proposal) × WriterNode Unit :=
  run (writerStep acceptingWriter ⟨100⟩ ⟨"node-a"⟩ ⟨"outbox"⟩)
    (WriterNode.start { emptyService with node := some ⟨"node-a"⟩ } ()) lateProposal

theorem committed_checkpoints_advance_restarted :
    (∃ checkpoint, lateRun.2.plane.outboxCheckpoint 5 ⟨"ipto-a"⟩ = some checkpoint ∧
      checkpoint.lastAcknowledgedOffset = 8 ∧ WrittenThrough lateRun.2.service.metadataOutbox.writer.file
        lateRun.2.remote.2 5 ⟨"ipto-a"⟩ checkpoint.lastAcknowledgedOffset) ∧
    Advanced lateRun.2.plane (run (writerStep acceptingWriter ⟨100⟩ ⟨"node-a"⟩ ⟨"outbox"⟩) lateRun.2
      [.beginCycle (some "no quorum"), .beginCycle none]).2.plane ∧
    ∃ input proposal, (input, some proposal) ∈ lateRun.1 ∧ proposal.Fresh := by
  obtain ⟨service, hCreate, hRun⟩ := committed_checkpoints_advance acceptingWriter ⟨100⟩ ⟨"node-a"⟩ ⟨"outbox"⟩
    mapBefore (.new "v1") ⟨utf8Bytes "a.seg"⟩ () (some ⟨"node-a"⟩)
  have hMade : MetadataService.create mapBefore (.new "v1") none ⟨utf8Bytes "a.seg"⟩ ⟨"outbox"⟩ ⟨"node-a"⟩ =
      .ok emptyService := rfl
  rw [hMade] at hCreate
  obtain rfl := Except.ok.inj hCreate
  -- about any run that ends like this one, so that nothing is evaluated here
  have hFacts : ∀ steps late, run (writerStep acceptingWriter ⟨100⟩ ⟨"node-a"⟩ ⟨"outbox"⟩)
      (WriterNode.start { emptyService with node := some ⟨"node-a"⟩ } ()) steps = late →
      (∀ more, Advanced late.2.plane
        (run (writerStep acceptingWriter ⟨100⟩ ⟨"node-a"⟩ ⟨"outbox"⟩) late.2 more).2.plane) ∧
      (∀ shardId target checkpoint, late.2.plane.outboxCheckpoint shardId target = some checkpoint →
        WrittenThrough late.2.service.metadataOutbox.writer.file late.2.remote.2 shardId target
          checkpoint.lastAcknowledgedOffset) ∧
      (AllSteps (writerStep acceptingWriter ⟨100⟩ ⟨"node-a"⟩ ⟨"outbox"⟩) BelowMax
          (WriterNode.start { emptyService with node := some ⟨"node-a"⟩ } ()) steps →
        ∀ input proposal, (input, some proposal) ∈ late.1 → proposal.Fresh) := by
    intro steps late hLate
    subst hLate
    exact hRun steps
  obtain ⟨hAdvanced, hWritten, hFresh⟩ := hFacts lateProposal lateRun rfl
  have hCommitted : (lateRun.2.plane.outboxCheckpoint 5 ⟨"ipto-a"⟩).map
      MetadataOutboxCheckpoint.lastAcknowledgedOffset = some 8 := by decide +kernel
  obtain ⟨checkpoint, hCheckpoint, hOffset⟩ := Option.map_eq_some_iff.mp hCommitted
  refine ⟨⟨checkpoint, hCheckpoint, hOffset, hWritten 5 ⟨"ipto-a"⟩ checkpoint hCheckpoint⟩, hAdvanced _, ?_⟩
  have hProposed : (lateRun.1[6]?.bind Prod.snd).isSome = true := by decide +kernel
  obtain ⟨proposal, hProposal⟩ := Option.isSome_iff_exists.mp hProposed
  obtain ⟨⟨input, answer⟩, hAnswer, hEq⟩ := Option.bind_eq_some_iff.mp hProposal
  cases hEq
  have hMem := List.mem_of_getElem? hAnswer
  refine ⟨input, proposal, hMem, hFresh ⟨trivial, trivial, trivial, trivial, fun _ => ?_, trivial, trivial,
    trivial, trivial⟩ input proposal hMem⟩
  decide +kernel

end Vannak.Daemon
