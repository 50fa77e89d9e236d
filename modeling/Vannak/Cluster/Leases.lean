import Vannak.Cluster.Invariant

/-!
# Writer-lease epochs

A grant is only compared with the lease that is stored for its target, and removing a
node deletes the leases it holds together with their epochs. The epochs granted for a
target are strictly increasing as long as the target's lease is not deleted this way.
-/

namespace Vannak.Cluster

open Foundation Storage

set_option autoImplicit false

namespace ClusterControlState

/-- The epoch of an accepted grant for the target. -/
def grantedEpoch? (target : IptoInstanceId) :
    ClusterControlCommand × Except ClusterControlError Unit → Option LeaseEpoch
  | (.grantWriterLease lease, .ok ()) => if lease.target = target then some lease.epoch else none
  | _ => none

/-- The epochs granted for the target, in the order of the grants. -/
def grantedEpochs (target : IptoInstanceId)
    (answers : List (ClusterControlCommand × Except ClusterControlError Unit)) : List LeaseEpoch :=
  answers.filterMap (grantedEpoch? target)

/-- The command does not remove the node that holds the target's lease. -/
def KeepsLease (target : IptoInstanceId) (state : ClusterControlState) (command : ClusterControlCommand) :
    Prop :=
  ∀ (nodeId : NodeId) (lease : WriterLease), command = .removeNode nodeId →
    state.writerLeases[target]? = some lease → lease.holder ≠ nodeId

/-- The epochs granted so far increase, and the stored lease is at least at the last. -/
structure LeaseHistory (target : IptoInstanceId)
    (past : List (ClusterControlCommand × Except ClusterControlError Unit)) (state : ClusterControlState) :
    Prop where
  increasing : (grantedEpochs target past).Pairwise (· < ·)
  stored : ∀ epoch ∈ grantedEpochs target past, ∃ lease : WriterLease,
    state.writerLeases[target]? = some lease ∧ epoch ≤ lease.epoch

theorem grantedEpochs_concat (target : IptoInstanceId)
    (past : List (ClusterControlCommand × Except ClusterControlError Unit))
    (answer : ClusterControlCommand × Except ClusterControlError Unit) :
    grantedEpochs target (past ++ [answer]) =
      grantedEpochs target past ++ (grantedEpoch? target answer).toList := by
  rw [grantedEpochs, List.filterMap_append, grantedEpochs]
  cases hEpoch : grantedEpoch? target answer with
  | none => simp [hEpoch]
  | some epoch => simp [hEpoch]

variable {target : IptoInstanceId}
  {past : List (ClusterControlCommand × Except ClusterControlError Unit)} {state next : ClusterControlState}

/-- A step that is no grant for the target and keeps its lease. -/
theorem LeaseHistory.unchanged (h : LeaseHistory target past state)
    {answer : ClusterControlCommand × Except ClusterControlError Unit}
    (hAnswer : grantedEpoch? target answer = none)
    (hLease : next.writerLeases[target]? = state.writerLeases[target]?) :
    LeaseHistory target (past ++ [answer]) next := by
  refine ⟨?_, ?_⟩
  · rw [grantedEpochs_concat, hAnswer]
    simpa using h.increasing
  · rw [grantedEpochs_concat, hAnswer, hLease]
    simpa using h.stored

theorem LeaseHistory.grant (h : LeaseHistory target past state) {lease : WriterLease}
    (hTarget : lease.target = target)
    (hNewer : ∀ current : WriterLease,
      state.writerLeases[target]? = some current → current.epoch < lease.epoch)
    (hLease : next.writerLeases[target]? = some lease) :
    LeaseHistory target (past ++ [(.grantWriterLease lease, .ok ())]) next := by
  have hEpoch : grantedEpoch? target (.grantWriterLease lease, .ok ()) = some lease.epoch := by
    rw [grantedEpoch?, if_pos hTarget]
  have hBelow : ∀ epoch ∈ grantedEpochs target past, epoch < lease.epoch := by
    intro epoch hMem
    obtain ⟨current, hCurrent, hLe⟩ := h.stored epoch hMem
    exact UInt64.lt_of_le_of_lt hLe (hNewer current hCurrent)
  refine ⟨?_, ?_⟩
  · rw [grantedEpochs_concat, hEpoch, Option.toList_some]
    exact List.pairwise_append.mpr ⟨h.increasing, List.pairwise_singleton _ _,
      fun epoch hMem other hOther => List.mem_singleton.mp hOther ▸ hBelow epoch hMem⟩
  · intro epoch hMem
    rw [grantedEpochs_concat, hEpoch, Option.toList_some] at hMem
    refine ⟨lease, hLease, ?_⟩
    rcases List.mem_append.mp hMem with hMem | hMem
    · exact UInt64.le_of_lt (hBelow epoch hMem)
    · exact UInt64.le_of_eq (List.mem_singleton.mp hMem)

theorem LeaseHistory.step (h : LeaseHistory target past state) {command : ClusterControlCommand}
    (hKeeps : KeepsLease target state command) :
    LeaseHistory target (past ++ [(command, (state.apply command).1)]) (state.apply command).2 := by
  rcases apply_cases state command with ⟨next, hApply, hAccepts⟩ | ⟨error, hApply⟩
  · rw [hApply]
    cases hAccepts with
    | removeNode nodeId =>
      refine h.unchanged rfl ?_
      cases hStored : state.writerLeases[target]? with
      | some lease =>
        exact getElem?_filter_eq_some.mpr ⟨hStored, decide_eq_true (hKeeps nodeId lease rfl hStored)⟩
      | none =>
        refine Option.eq_none_iff_forall_ne_some.mpr fun lease hLease => ?_
        rw [(getElem?_filter_eq_some.mp hLease).1] at hStored
        cases hStored
    | grantWriterLease lease hHolder hNewer =>
      by_cases hTarget : lease.target = target
      · subst hTarget
        exact h.grant rfl hNewer (by rw [getElem?_insert_ite, if_pos rfl])
      · exact h.unchanged (by rw [grantedEpoch?, if_neg hTarget])
          (by rw [getElem?_insert_ite, if_neg hTarget])
    | addNode | setIptoPlacementMap | recordOutboxCheckpoint | recordSealedSegment | recordCheckpoint =>
      exact h.unchanged rfl rfl
  · rw [hApply]
    refine h.unchanged ?_ rfl
    cases command <;> rfl

theorem writerLease_epochs_increasing (target : IptoInstanceId) (commands : List ClusterControlCommand)
    (hKeeps : AllSteps ClusterControlState.apply (KeepsLease target) new commands) :
    (grantedEpochs target (run ClusterControlState.apply new commands).1).Pairwise (· < ·) := by
  have hNew : LeaseHistory target [] new := ⟨List.Pairwise.nil, by simp [grantedEpochs]⟩
  exact (run_history_of_allSteps (fun _ _ _ h => h.step) hNew hKeeps).increasing

/-- Removing a node that does not hold the lease is harmless. -/
theorem writerLease_epochs_increasing_two_grants :
    (grantedEpochs ⟨"ipto-a"⟩ (run ClusterControlState.apply new
      [.addNode ⟨"node-a"⟩, .addNode ⟨"node-b"⟩, .grantWriterLease ⟨⟨"ipto-a"⟩, ⟨"node-a"⟩, 1⟩,
        .removeNode ⟨"node-b"⟩, .grantWriterLease ⟨⟨"ipto-a"⟩, ⟨"node-a"⟩, 2⟩]).1).Pairwise (· < ·) := by
  refine writerLease_epochs_increasing _ _ ⟨?_, ?_, ?_, ?_, ?_, trivial⟩
  all_goals
    intro nodeId lease hCommand hLease
    cases hCommand
  -- the one removal finds the lease with `node-a`
  have hHolder : lease = ⟨⟨"ipto-a"⟩, ⟨"node-a"⟩, 1⟩ := by
    refine Option.some.inj (hLease.symm.trans ?_)
    decide +kernel
  rw [hHolder]
  decide

/-- The lease of the removed holder takes its epoch along, and the next holder is
granted the same epoch again. -/
theorem writerLease_epoch_granted_twice :
    ¬∀ (target : IptoInstanceId) (commands : List ClusterControlCommand),
      (grantedEpochs target (run ClusterControlState.apply new commands).1).Pairwise (· < ·) := by
  intro hAll
  have hRun := hAll ⟨"ipto-a"⟩ [.addNode ⟨"node-a"⟩, .grantWriterLease ⟨⟨"ipto-a"⟩, ⟨"node-a"⟩, 1⟩,
    .removeNode ⟨"node-a"⟩, .addNode ⟨"node-b"⟩, .grantWriterLease ⟨⟨"ipto-a"⟩, ⟨"node-b"⟩, 1⟩]
  revert hRun
  decide +kernel

end ClusterControlState

end Vannak.Cluster
