import Vannak.Cluster.Restore

/-!
# The replicated state machine

`ClusterStateMachine` of `raft_sm.rs`: encoded commands go in, an empty reply means that
the reducer accepted the command. A replica that is replaced, at any points of the log,
by a fresh machine restored from a snapshot answers like one that applies the commands
directly and ends in the same state.
-/

namespace Vannak.Cluster

open Foundation Storage

set_option autoImplicit false

structure ClusterStateMachine where
  state : ClusterControlState

/-- `unwrap_or_default` on the bytes of a serialization. -/
def bytesOrDefault {ε : Type} : Except ε Bytes → Bytes
  | .ok bytes => bytes
  | .error _ => []

namespace ClusterStateMachine

def new : ClusterStateMachine := ⟨ClusterControlState.new⟩

section Machine

variable {ε : Type} (serde : SerdeJson ε)

def apply (machine : ClusterStateMachine) (command : Bytes) : ClusterStateMachine :=
  match decodeCommand serde command with
  | .error _ => machine
  | .ok command => ⟨(machine.state.apply command).2⟩

def applyWithResult (machine : ClusterStateMachine) (command : Bytes) : Bytes × ClusterStateMachine :=
  match decodeCommand serde command with
  | .error error => (bytesOrDefault (serde.stringToVec error), machine)
  | .ok command =>
    match machine.state.apply command with
    | (.ok (), state) => ([], ⟨state⟩)
    | (.error error, state) => (bytesOrDefault (serde.stringToVec error.toText), ⟨state⟩)

def snapshot (machine : ClusterStateMachine) : Bytes := bytesOrDefault (encodeSnapshot serde machine.state)

def restore (machine : ClusterStateMachine) (snapshotData : Bytes) : ClusterStateMachine :=
  match decodeSnapshot serde snapshotData with
  | .ok state => ⟨state⟩
  | .error _ => machine

end Machine

end ClusterStateMachine

/-- A replica is fed the next command, or is replaced by a fresh one. -/
inductive ReplicaStep where
  | feed (command : ClusterControlCommand)
  | replace

def ReplicaStep.command? : ReplicaStep → Option ClusterControlCommand
  | .feed command => some command
  | .replace => none

section Replica

variable {ε : Type} (serde : SerdeJson ε)

/-- The replies to the commands and the machine after the last step. -/
def replica : ClusterStateMachine → List ReplicaStep → Except ε (List Bytes × ClusterStateMachine)
  | machine, [] => .ok ([], machine)
  | machine, .feed command :: steps => do
    let bytes ← encodeCommand serde command
    let (reply, machine) := machine.applyWithResult serde bytes
    let (replies, machine) ← replica machine steps
    return (reply :: replies, machine)
  | machine, .replace :: steps =>
    replica (ClusterStateMachine.new.restore serde (machine.snapshot serde)) steps

variable {serde}

theorem applyWithResult_of_decodeCommand (hSerde : serde.RoundTrips) {bytes : Bytes}
    {command : ClusterControlCommand} (h : decodeCommand serde bytes = .ok command)
    (machine : ClusterStateMachine) :
    ∃ reply, machine.applyWithResult serde bytes = (reply, ⟨(machine.state.apply command).2⟩) ∧
      (reply = [] ↔ (machine.state.apply command).1 = .ok ()) := by
  rw [ClusterStateMachine.applyWithResult, h]
  rcases machine.state.apply_cases command with ⟨next, hApply, -⟩ | ⟨error, hApply⟩
  · exact ⟨[], by simp only [hApply], by simp [hApply]⟩
  · obtain ⟨text, hText, hNonempty⟩ := hSerde.string error.toText
    exact ⟨text, by simp only [hApply, hText, bytesOrDefault], by simp [hApply, hNonempty]⟩

theorem restore_snapshot (hSerde : serde.RoundTrips) {machine : ClusterStateMachine}
    (h : machine.state.Consistent) (hStores : machine.state.Portable) (fresh : ClusterStateMachine) :
    fresh.restore serde (machine.snapshot serde) = machine := by
  obtain ⟨bytes, hWritten, hRead⟩ := decodeSnapshot_encodeSnapshot hSerde h hStores
  rw [ClusterStateMachine.snapshot, hWritten, bytesOrDefault, ClusterStateMachine.restore, hRead]

/-- The steps of a replica from a state that a snapshot can carry. -/
theorem replica_eq_run (hSerde : serde.RoundTrips) {steps : List ReplicaStep}
    (hSteps : ∀ command ∈ steps.filterMap ReplicaStep.command?, command.Portable)
    (machine : ClusterStateMachine) (h : machine.state.Consistent) (hStores : machine.state.Portable) :
    ∃ replies,
      replica serde machine steps = .ok (replies,
        ⟨(run ClusterControlState.apply machine.state (steps.filterMap ReplicaStep.command?)).2⟩) ∧
      List.Forall₂ (fun reply answer => reply = [] ↔ answer.2 = .ok ()) replies
        (run ClusterControlState.apply machine.state (steps.filterMap ReplicaStep.command?)).1 := by
  induction steps generalizing machine with
  | nil => exact ⟨[], rfl, .nil⟩
  | cons step steps ih =>
    cases step with
    | replace =>
      rw [replica, restore_snapshot hSerde h hStores]
      exact ih hSteps machine h hStores
    | feed command =>
      rw [List.filterMap_cons_some (show (ReplicaStep.feed command).command? = some command from rfl)]
        at hSteps ⊢
      obtain ⟨hCommand, hRest⟩ := List.forall_mem_cons.mp hSteps
      obtain ⟨bytes, hWritten, hRead⟩ := decodeCommand_encodeCommand hSerde hCommand
      obtain ⟨reply, hReply, hEmpty⟩ := applyWithResult_of_decodeCommand hSerde hRead machine
      obtain ⟨replies, hReplies, hAnswers⟩ := ih hRest
        ⟨(machine.state.apply command).2⟩ (h.apply command) (hStores.apply hCommand)
      refine ⟨reply :: replies, ?_, .cons hEmpty hAnswers⟩
      rw [replica]
      refine (ok_bind hWritten _).trans ?_
      simp only [hReply]
      exact ok_bind hReplies _

/-- Encoding, snapshots and restores do not show: command by command the reply is empty
exactly when the reducer accepts, and the last state is that of the direct fold. -/
theorem replica_agrees_with_reducer (hSerde : serde.RoundTrips) (steps : List ReplicaStep)
    (hSteps : ∀ command ∈ steps.filterMap ReplicaStep.command?, command.Portable) :
    (∃ replies machine, replica serde .new steps = .ok (replies, machine) ∧
      List.Forall₂ (fun reply answer => reply = [] ↔ answer.2 = .ok ()) replies
        (run ClusterControlState.apply .new (steps.filterMap ReplicaStep.command?)).1 ∧
      machine.state =
        (run ClusterControlState.apply .new (steps.filterMap ReplicaStep.command?)).2) ∧
    (∀ command : ClusterControlCommand, command.Portable →
      ∃ bytes, encodeCommand serde command = .ok bytes ∧ decodeCommand serde bytes = .ok command) ∧
    ∀ commands : List ClusterControlCommand, (∀ command ∈ commands, command.Portable) →
      ∃ bytes, encodeSnapshot serde (run ClusterControlState.apply .new commands).2 = .ok bytes ∧
        decodeSnapshot serde bytes = .ok (run ClusterControlState.apply .new commands).2 := by
  refine ⟨?_, fun command h => decodeCommand_encodeCommand hSerde h, fun commands hCommands => ?_⟩
  · obtain ⟨replies, hReplies, hAnswers⟩ := replica_eq_run hSerde hSteps
      ClusterStateMachine.new ClusterControlState.consistent_new ClusterControlState.stores_new
    exact ⟨replies, _, hReplies, hAnswers, rfl⟩
  · exact decodeSnapshot_encodeSnapshot hSerde (ClusterControlState.consistent_run commands)
      (ClusterControlState.stores_run ClusterControlState.stores_new hCommands)

end Replica

/-! ### A log with one replacement

The JSON texts of one short log; a value that does not occur in it gets some text of its
own. -/

section Sample

instance charCountable : Countable Char := Function.Injective.countable (f := Char.toNat) fun _ _ => Char.toNat_inj.mp
instance stringCountable : Countable String := Function.Injective.countable (f := String.toList) fun _ _ => String.toList_inj.mp
instance uint32Countable : Countable UInt32 := Function.Injective.countable (f := UInt32.toNat) fun _ _ => UInt32.toNat_inj.mp
instance uint64Countable : Countable UInt64 := Function.Injective.countable (f := UInt64.toNat) fun _ _ => UInt64.toNat_inj.mp

deriving instance Countable for SerPlacementSlot
deriving instance Countable for SerPlacementRange
deriving instance Countable for SerPlacementMap
deriving instance Countable for SerWriterLease
deriving instance Countable for SerOutboxCheckpoint
deriving instance Countable for SerSegmentManifest
deriving instance Countable for SerSegmentOffset
deriving instance Countable for SerCheckpointManifest
deriving instance Countable for SerClusterControlSnapshot
deriving instance Countable for SerCommandVariant
deriving instance Countable for SerClusterControlCommand

variable {α : Type} [DecidableEq α] [Countable α]

/-- The listed texts, and runs of zero bytes for all other values. -/
noncomputable def sampleToVec (samples : List (α × String)) (value : α) : Bytes :=
  match samples.find? fun sample => sample.1 = value with
  | some sample => utf8Bytes sample.2
  | none => List.replicate ((Countable.exists_injective_nat α).choose value) 0

open Classical in
noncomputable def sampleFromSlice (samples : List (α × String)) (data : Bytes) : Except String α :=
  if h : ∃ value, sampleToVec samples value = data then .ok h.choose
  else .error "expected value at line 1 column 1"

theorem sampleToVec_injective {samples : List (α × String)}
    (hTexts : ∀ left ∈ samples, ∀ right ∈ samples, utf8Bytes left.2 = utf8Bytes right.2 → left.1 = right.1)
    (hVisible : ∀ sample ∈ samples, ∃ byte ∈ utf8Bytes sample.2, byte ≠ 0) :
    Function.Injective (sampleToVec samples) := by
  have hText : ∀ (value : α) (sample : α × String),
      samples.find? (fun sample => sample.1 = value) = some sample →
      sample ∈ samples ∧ sample.1 = value := fun value sample hFound =>
    ⟨List.mem_of_find?_eq_some hFound, by simpa using List.find?_some hFound⟩
  have hZeros : ∀ sample ∈ samples, ∀ count, utf8Bytes sample.2 ≠ List.replicate count 0 := by
    intro sample hSample count hEq
    obtain ⟨byte, hByte, hNonzero⟩ := hVisible sample hSample
    rw [hEq] at hByte
    exact hNonzero (List.eq_of_mem_replicate hByte)
  intro left right hEq
  rw [sampleToVec, sampleToVec] at hEq
  split at hEq <;> split at hEq
  · rename_i leftSample hLeft _ rightSample hRight
    obtain ⟨hLeftMem, rfl⟩ := hText left leftSample hLeft
    obtain ⟨hRightMem, rfl⟩ := hText right rightSample hRight
    exact hTexts leftSample hLeftMem rightSample hRightMem hEq
  · rename_i leftSample hLeft _ hRight
    exact absurd hEq (hZeros leftSample (hText left leftSample hLeft).1 _)
  · rename_i hLeft _ rightSample hRight
    exact absurd hEq.symm (hZeros rightSample (hText right rightSample hRight).1 _)
  · have hCount := congrArg List.length hEq
    rw [List.length_replicate, List.length_replicate] at hCount
    exact (Countable.exists_injective_nat α).choose_spec hCount

theorem sampleFromSlice_sampleToVec {samples : List (α × String)}
    (h : Function.Injective (sampleToVec samples)) (value : α) :
    sampleFromSlice samples (sampleToVec samples value) = .ok value := by
  have hExists : ∃ other, sampleToVec samples other = sampleToVec samples value := ⟨value, rfl⟩
  rw [sampleFromSlice, dif_pos hExists, h hExists.choose_spec]

end Sample

theorem sampleSlots_ne_nil : [(⟨⟨"ipto-a"⟩, 1⟩ : IptoPlacementSlot)] ≠ [] := by decide

def sampleMap : IptoPlacementMap where
  epoch := 1
  slots := [⟨⟨"ipto-a"⟩, 1⟩]
  ring := IptoPlacementRing.new 1 [⟨⟨"ipto-a"⟩, 1⟩]
  overrides := [⟨10, 20, ⟨"ipto-a"⟩⟩]
  slots_ne_nil := sampleSlots_ne_nil
  ring_eq := rfl
  overrides_sorted := List.pairwise_singleton _ _
  overrides_before := List.pairwise_singleton _ _

/-- The lease goes to a node that is not there. -/
def sampleSteps : List ReplicaStep :=
  [.feed (.addNode ⟨"node-a"⟩), .feed (.setIptoPlacementMap sampleMap), .replace,
    .feed (.grantWriterLease ⟨⟨"ipto-a"⟩, ⟨"node-b"⟩, 1⟩)]

def jsonObject (fields : String) : String := "\x7b" ++ fields ++ "\x7d"

def sampleMapFields : String :=
  "\"epoch\":1,\"slots\":[" ++ jsonObject "\"instance\":\"ipto-a\",\"vnodes\":1" ++ "],\"overrides\":[" ++
    jsonObject "\"start\":10,\"end\":20,\"target\":\"ipto-a\"" ++ "]"

def sampleCommands : List (SerClusterControlCommand × String) :=
  [(⟨.addNode "node-a"⟩, jsonObject ("\"cmd\":\"AddNode\",\"data\":" ++ jsonObject "\"node_id\":\"node-a\"")),
    (⟨.setIptoPlacementMap (toSerMap 1 sampleMap)⟩,
      jsonObject ("\"cmd\":\"SetIptoPlacementMap\",\"data\":" ++ jsonObject sampleMapFields)),
    (⟨.grantWriterLease ⟨"ipto-a", "node-b", 1⟩⟩,
      jsonObject ("\"cmd\":\"GrantWriterLease\",\"data\":" ++
        jsonObject "\"target\":\"ipto-a\",\"holder\":\"node-b\",\"epoch\":1"))]

def sampleSnapshots : List (SerClusterControlSnapshot × String) :=
  [(⟨["node-a"], [toSerMap 1 sampleMap], [], [], [], []⟩,
    jsonObject ("\"nodes\":[\"node-a\"],\"placement_maps\":[" ++ jsonObject sampleMapFields ++
      "],\"writer_leases\":[],\"outbox_checkpoints\":[],\"sealed_segments\":[],\"checkpoints\":[]"))]

noncomputable def sampleJson : SerdeJson String where
  commandToVec command := .ok (sampleToVec sampleCommands command)
  commandFromSlice := sampleFromSlice sampleCommands
  snapshotToVec snapshot := .ok (sampleToVec sampleSnapshots snapshot)
  snapshotFromSlice := sampleFromSlice sampleSnapshots
  stringToVec text := .ok (0x22 :: (utf8Bytes text ++ [0x22]))
  errorText error := error

theorem sampleJson_roundTrips : sampleJson.RoundTrips where
  command command := ⟨_, rfl, sampleFromSlice_sampleToVec
    (sampleToVec_injective (by decide +kernel) (by decide +kernel)) command⟩
  snapshot snapshot := ⟨_, rfl, sampleFromSlice_sampleToVec
    (sampleToVec_injective (by decide +kernel) (by decide +kernel)) snapshot⟩
  string text := ⟨_, rfl, List.cons_ne_nil _ _⟩

theorem sampleSteps_portable : ∀ command ∈ sampleSteps.filterMap ReplicaStep.command?, command.Portable := by
  have hMap : sampleMap.Built := ⟨_, _, _, by decide, by decide, IptoPlacementMap.new_self rfl⟩
  intro command hCommand
  rcases List.mem_cons.mp hCommand with rfl | hCommand
  · trivial
  rcases List.mem_cons.mp hCommand with rfl | hCommand
  · exact hMap
  · rw [List.mem_singleton.mp hCommand]
    trivial

theorem replica_agrees_with_reducer_replaced :
    ∃ replies machine, replica sampleJson .new sampleSteps = .ok (replies, machine) ∧
      List.Forall₂ (fun reply answer => reply = [] ↔ answer.2 = .ok ()) replies
        (run ClusterControlState.apply .new (sampleSteps.filterMap ReplicaStep.command?)).1 ∧
      machine.state =
        (run ClusterControlState.apply .new (sampleSteps.filterMap ReplicaStep.command?)).2 :=
  (replica_agrees_with_reducer sampleJson_roundTrips sampleSteps sampleSteps_portable).1

/-! ## What every state satisfies -/

namespace ClusterControlState

/-- The whole invariant: consistency, and of each placement map sorted and disjoint
overrides and the ring of its slots. -/
structure WellFormed (state : ClusterControlState) : Prop extends Consistent state where
  sorted : ∀ (epoch : PlacementEpoch) (map : IptoPlacementMap), state.placementMaps[epoch]? = some map →
    map.overrides.Pairwise fun left right => left.start ≤ right.start
  disjoint : ∀ (epoch : PlacementEpoch) (map : IptoPlacementMap), state.placementMaps[epoch]? = some map →
    map.overrides.Pairwise fun left right => ∀ shardId, ¬(left.contains shardId ∧ right.contains shardId)
  ring : ∀ (epoch : PlacementEpoch) (map : IptoPlacementMap), state.placementMaps[epoch]? = some map →
    map.ring = IptoPlacementRing.new map.ring.epoch map.slots

theorem not_contains_of_before {left right : IptoPlacementRange} (h : left.Before right)
    (shardId : DataIndividualShardId) : ¬(left.contains shardId ∧ right.contains shardId) := by
  rintro ⟨hLeft, hRight⟩
  have hBelow := (of_decide_eq_true hLeft).2
  have hAbove := (of_decide_eq_true hRight).1
  exact UInt64.not_le.mpr (UInt64.lt_of_le_of_lt hBelow h) hAbove

theorem Consistent.wellFormed {state : ClusterControlState} (h : state.Consistent) : state.WellFormed where
  toConsistent := h
  sorted _ map _ := map.overrides_sorted
  disjoint _ map _ := map.overrides_before.imp not_contains_of_before
  ring _ map _ := map.ring_eq

/-- The rings also carry the epochs of their maps. The epoch of a map can be assigned to,
so of maps in commands this has to be asked. -/
def RingsRebuilt (state : ClusterControlState) : Prop :=
  ∀ (epoch : PlacementEpoch) (map : IptoPlacementMap), state.placementMaps[epoch]? = some map →
    map.ring = IptoPlacementRing.new map.epoch map.slots

theorem Stores.ringsRebuilt {state : ClusterControlState}
    (h : state.Stores (fun map => map.ring.epoch = map.epoch) fun _ => True) : state.RingsRebuilt := by
  intro epoch map hMap
  rw [← h.placement epoch map hMap]
  exact map.ring_eq

theorem Reaches.stores_ringEpochs {state : ClusterControlState} (h : new.Reaches state) :
    state.Stores (fun map => map.ring.epoch = map.epoch) fun _ => True := by
  obtain ⟨commands, hCommands, rfl⟩ := h
  exact stores_run stores_new hCommands

theorem Reaches.consistent {state : ClusterControlState} (h : new.Reaches state) : state.Consistent := by
  obtain ⟨commands, -, rfl⟩ := h
  exact consistent_run commands

theorem eq_of_apply_error {state next : ClusterControlState} {command : ClusterControlCommand}
    {error : ClusterControlError} (h : state.apply command = (.error error, next)) : next = state := by
  rcases state.apply_cases command with ⟨accepted, hApply, -⟩ | ⟨refused, hApply⟩
  · rw [hApply] at h
    cases h
  · rw [hApply] at h
    cases h
    rfl

end ClusterControlState

theorem reaches_of_decodeSnapshot {ε : Type} {serde : SerdeJson ε} {data : Bytes}
    {state : ClusterControlState} (h : decodeSnapshot serde data = .ok state) :
    ClusterControlState.new.Reaches state := by
  obtain ⟨snapshot, -, hReplay⟩ := ok_of_bind h
  exact reaches_of_replaySnapshot hReplay

/-- The invariant holds after every run and in every decoded state, epochs only grow
along a run, and what fails leaves the state as it was. -/
theorem control_state_invariant {ε : Type} (serde : SerdeJson ε) :
    (∀ commands, (run ClusterControlState.apply .new commands).2.WellFormed ∧
      ((∀ command ∈ commands, command.RingEpochs) →
        (run ClusterControlState.apply .new commands).2.RingsRebuilt)) ∧
    (∀ data state, decodeSnapshot serde data = .ok state → state.WellFormed ∧ state.RingsRebuilt) ∧
    (∀ before after, (run ClusterControlState.apply .new before).2.Advances
      (run ClusterControlState.apply .new (before ++ after)).2) ∧
    (∀ state command error next,
      ClusterControlState.apply state command = (.error error, next) → next = state) ∧
    (∀ (machine : ClusterStateMachine) data error, decodeCommand serde data = .error error →
      machine.apply serde data = machine ∧ (machine.applyWithResult serde data).2 = machine) ∧
    ∀ (machine : ClusterStateMachine) data error, decodeSnapshot serde data = .error error →
      machine.restore serde data = machine := by
  refine ⟨fun commands => ⟨(ClusterControlState.consistent_run commands).wellFormed, fun hCommands =>
    (ClusterControlState.stores_run ClusterControlState.stores_new hCommands).ringsRebuilt⟩,
    fun data state h => ?_, fun before after => ?_, fun state command error next h =>
    ClusterControlState.eq_of_apply_error h, fun machine data error h => ?_, fun machine data error h => ?_⟩
  · have hReaches := reaches_of_decodeSnapshot h
    exact ⟨hReaches.consistent.wellFormed, hReaches.stores_ringEpochs.ringsRebuilt⟩
  · rw [run_append]
    exact ClusterControlState.advances_run (ClusterControlState.consistent_run before) after
  · rw [ClusterStateMachine.apply, ClusterStateMachine.applyWithResult, h]
    exact ⟨rfl, rfl⟩
  · rw [ClusterStateMachine.restore, h]

end Vannak.Cluster
