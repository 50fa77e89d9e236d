import Vannak.Service.Delivery

/-!
# The background writer

The loop of `run_background_writer` in `daemon.rs`, cut where another thread or process can
come in between: a cycle reads the control state, serves its targets one after the other
under the service lock, and proposes the acknowledged checkpoints of each without the lock.
Captures, commands of other nodes and restarts of the process may happen between any two of
these steps.
-/

namespace Vannak.Daemon

open Foundation Storage Ipto Cluster Service

set_option autoImplicit false

structure BackgroundWriterConfig where
  maxDrainAttemptsPerTarget : Nat
deriving DecidableEq, Repr

structure BackgroundWriterSnapshot where
  cycles : UInt64
  totalAcknowledged : Nat
  totalFailed : Nat
  lastControlError : Option String
  currentCycle : Option UInt64
  lastSummary : Option (List (IptoInstanceId × MetadataOutboxDrainSummary))
deriving DecidableEq, Repr

def BackgroundWriterSnapshot.default : BackgroundWriterSnapshot := ⟨0, 0, 0, none, none, none⟩

/-- `saturating_add`. -/
def saturatingAdd (left right : UInt64) : UInt64 :=
  if left.toNat + right.toNat < 2 ^ 64 then left + right else u64Max

def maxCommittedEpoch (control : ClusterControlState) : UInt64 :=
  (control.outboxCheckpoints.toList.map fun binding => binding.2.epoch).max?.getD 0

/-- The variables of a cycle whose control read has succeeded: the targets still to be served, and the
checkpoints of the last one served that are still to be proposed. -/
structure WriterCycle where
  control : ClusterControlState
  checkpointEpoch : CheckpointEpoch
  targets : List IptoInstanceId
  checkpoints : List MetadataOutboxCheckpoint
  cycleSummaries : List (IptoInstanceId × MetadataOutboxDrainSummary)

/-- The head of the loop. A failed read ends the cycle. -/
def beginCycle (snapshot : BackgroundWriterSnapshot) (read : Except String ClusterControlState) :
    BackgroundWriterSnapshot × Option WriterCycle :=
  let cycles := snapshot.cycles + 1
  let snapshot := { snapshot with
    cycles
    currentCycle := some cycles }
  match read with
  | .error error => ({ snapshot with lastControlError := some error }, none)
  | .ok control => ({ snapshot with lastControlError := none }, some {
      control
      checkpointEpoch := saturatingAdd (maxCommittedEpoch control) cycles
      targets := (control.placementMap.map IptoPlacementMap.instances).getD []
      checkpoints := []
      cycleSummaries := [] })

/-- The committed checkpoint that was read is already as far. -/
def WriterCycle.alreadyCommitted (cycle : WriterCycle) (checkpoint : MetadataOutboxCheckpoint) : Bool :=
  (cycle.control.outboxCheckpoint checkpoint.dataIndividualShardId checkpoint.target).any fun committed =>
    committed.segmentId = checkpoint.segmentId ∧
      checkpoint.lastAcknowledgedOffset ≤ committed.lastAcknowledgedOffset

/-! ## The control plane -/

/-- What a proposal does: it is applied and answered, or it fails before or after taking effect. -/
inductive ProposeOutcome where
  | answered
  | failedBefore (error : String)
  | failedAfter (error : String)
deriving DecidableEq, Repr

def propose (plane : ClusterControlState) (command : ClusterControlCommand) :
    ProposeOutcome → Except String Unit × ClusterControlState
  | .answered =>
    match plane.apply command with
    | (.ok (), next) => (.ok (), next)
    | (.error error, next) => (.error error.toText, next)
  | .failedBefore error => (.error error, plane)
  | .failedAfter error => (.error error, (plane.apply command).2)

/-- A linearizable read: the committed state, or an error. -/
def readPlane (plane : ClusterControlState) : Option String → Except String ClusterControlState
  | none => .ok plane
  | some error => .error error

/-! ## Steps -/

/-- The process with its service, the Ipto side with the calls of `write` so far, the committed control
state, and the cycle that is under way. -/
structure WriterNode (ω : Type) where
  service : MetadataService
  remote : ω × List WriterCall
  plane : ClusterControlState
  snapshot : BackgroundWriterSnapshot
  cycle : Option WriterCycle

inductive WriterStep where
  | beginCycle (readError : Option String)
  | advance (outcome : ProposeOutcome)
  | capture (readError : Option String) (event : DataIndividualMetadataEvent)
  | command (command : ClusterControlCommand)
  | restart (placementMap : IptoPlacementMap) (mapping : IptoMapping)

/-- A checkpoint with the committed state that it was proposed to. -/
structure Proposal where
  checkpoint : MetadataOutboxCheckpoint
  plane : ClusterControlState

section Steps

variable {ω : Type} (writer : IptoWriter ω) (config : BackgroundWriterConfig) (nodeId : NodeId)

/-- The body of the loop over the targets up to the proposals. It runs under the service lock. -/
def serveTarget (cycle : WriterCycle) (target : IptoInstanceId) (node : WriterNode ω) : WriterNode ω :=
  if (cycle.control.writerLease target).all (·.holder ≠ nodeId) then { node with cycle := some cycle }
  else
    let service := node.service.withOutbox (node.service.metadataOutbox.outbox.retryFailedForTarget target).2
    let (result, service, remote) := service.drainMetadataForTargetIfLeaseHeld writer.recording cycle.control nodeId
      target node.remote config.maxDrainAttemptsPerTarget
    let checkpoints := service.acknowledgedCheckpointsForTarget target cycle.checkpointEpoch
    match result with
    | .error _ => { node with
        service, remote
        cycle := some { cycle with checkpoints } }
    | .ok summary =>
      if summary.attempted = 0 then { node with
        service, remote
        cycle := some { cycle with checkpoints } }
      else { node with
        service, remote
        snapshot := { node.snapshot with
          totalAcknowledged := node.snapshot.totalAcknowledged + summary.acknowledged
          totalFailed := node.snapshot.totalFailed + summary.failed }
        cycle := some { cycle with
          checkpoints
          cycleSummaries := cycle.cycleSummaries ++ [(target, summary)] } }

/-- The proposal of one checkpoint, made without the lock. -/
def recordCheckpoint (cycle : WriterCycle) (checkpoint : MetadataOutboxCheckpoint) (outcome : ProposeOutcome)
    (node : WriterNode ω) : Option Proposal × WriterNode ω :=
  if cycle.alreadyCommitted checkpoint then (none, { node with cycle := some cycle })
  else
    match propose node.plane (.recordOutboxCheckpoint checkpoint) outcome with
    | (.ok (), plane) => (some ⟨checkpoint, node.plane⟩, { node with
        plane
        cycle := some cycle })
    | (.error error, plane) => (some ⟨checkpoint, node.plane⟩, { node with
        plane
        snapshot := { node.snapshot with lastControlError := some error }
        cycle := some cycle })

def endCycle (cycle : WriterCycle) (node : WriterNode ω) : WriterNode ω := { node with
  snapshot := { node.snapshot with
    lastSummary := if cycle.cycleSummaries = [] then node.snapshot.lastSummary else some cycle.cycleSummaries }
  cycle := none }

/-- The next thing the cycle does. -/
def advanceCycle (cycle : WriterCycle) (outcome : ProposeOutcome) (node : WriterNode ω) :
    Option Proposal × WriterNode ω :=
  match cycle.checkpoints with
  | checkpoint :: checkpoints => recordCheckpoint { cycle with checkpoints } checkpoint outcome node
  | [] =>
    match cycle.targets with
    | target :: targets => (none, serveTarget writer config nodeId { cycle with targets } target node)
    | [] => (none, endCycle cycle node)

/-- This node is the only one that proposes outbox checkpoints. A restart forgets the cycle and its
counter and keeps what is on disk; a recovery that fails is tried again. -/
def writerStep (segmentId : SegmentId) (node : WriterNode ω) : WriterStep → Option Proposal × WriterNode ω
  | .beginCycle readError =>
    match node.cycle with
    | some _ => (none, node)
    | none =>
      let (snapshot, cycle) := Daemon.beginCycle node.snapshot (readPlane node.plane readError)
      (none, { node with snapshot, cycle })
  | .advance outcome =>
    match node.cycle with
    | none => (none, node)
    | some cycle => advanceCycle writer config nodeId cycle outcome node
  | .capture readError event =>
    (none, { node with service := (node.service.captureMetadataEvent (readPlane node.plane readError) event).2 })
  | .command command =>
    match command with
    | .recordOutboxCheckpoint _ => (none, node)
    | command => (none, { node with plane := (node.plane.apply command).2 })
  | .restart placementMap mapping =>
    let segment := node.service.metadataOutbox.writer
    match MetadataService.recoverAfter placementMap mapping segment.file segment.path segmentId nodeId none with
    | .error _ => (none, node)
    | .ok (service, _) => (none, { node with
        service := { service with node := node.service.node }
        snapshot := .default
        cycle := none })

/-- A process that has just been started on a new segment, before anything is committed. -/
def WriterNode.start (service : MetadataService) (remote : ω) : WriterNode ω :=
  ⟨service, (remote, []), ClusterControlState.new, .default, none⟩

end Steps

/-! ## What serving a target does -/

section Serving

variable {ω : Type} (writer : IptoWriter ω) (config : BackgroundWriterConfig) (nodeId : NodeId)

def HoldsLease (control : ClusterControlState) (nodeId : NodeId) (target : IptoInstanceId) : Prop :=
  ∃ lease, control.writerLease target = some lease ∧ lease.holder = nodeId

/-- Requeueing the transient failures of the target and draining it. -/
def drainTarget (target : IptoInstanceId) (outbox : MetadataOutbox) (remote : ω) :
    MetadataOutboxDrainSummary × MetadataOutbox × ω :=
  drainPendingOutboxForTarget writer target (outbox.retryFailedForTarget target).2 remote
    config.maxDrainAttemptsPerTarget

/-- Without the lease nothing happens; with it the outbox is drained and the checkpoints are taken. -/
theorem serveTarget_cases (cycle : WriterCycle) (target : IptoInstanceId) (node : WriterNode ω) :
    (¬HoldsLease cycle.control nodeId target ∧
      serveTarget writer config nodeId cycle target node = { node with cycle := some cycle }) ∨
    (HoldsLease cycle.control nodeId target ∧ ∃ snapshot cycleSummaries, snapshot.cycles = node.snapshot.cycles ∧
      let drained := drainTarget writer.recording config target node.service.metadataOutbox.outbox node.remote
      let service := node.service.withOutbox drained.2.1
      serveTarget writer config nodeId cycle target node =
        ⟨service, drained.2.2, node.plane, snapshot, some { cycle with
        checkpoints := service.acknowledgedCheckpointsForTarget target cycle.checkpointEpoch
        cycleSummaries }⟩) := by
  by_cases hHeld : HoldsLease cycle.control nodeId target
  · obtain ⟨lease, hLease, hHolder⟩ := hHeld
    have hAll : (cycle.control.writerLease target).all (·.holder ≠ nodeId) = false := by
      rw [hLease]
      simp [hHolder]
    refine .inr ⟨⟨lease, hLease, hHolder⟩, ?_⟩
    rw [serveTarget, hAll]
    simp only [Bool.false_eq_true, if_false, MetadataService.drainMetadataForTargetIfLeaseHeld, hLease, hHolder,
      ne_eq, not_true_eq_false, MetadataService.drainMetadataForTarget]
    split
    · refine ⟨_, _, ?_, rfl⟩
      rfl
    · refine ⟨_, _, ?_, rfl⟩
      rfl
  · have hAll : (cycle.control.writerLease target).all (·.holder ≠ nodeId) = true := by
      cases hLease : cycle.control.writerLease target with
      | none => rfl
      | some lease => simpa using fun hHolder => hHeld ⟨lease, hLease, hHolder⟩
    refine .inl ⟨hHeld, ?_⟩
    rw [serveTarget, hAll]
    rfl

end Serving

end Vannak.Daemon
