import Vannak.Cluster.Fallback
import Vannak.Cluster.Replica

/-!
# The control plane over Raft

`RaftControlPlane` of `node_control.rs` reaches the replicated state machine through requests
that followers answer with the name of their leader. It agrees with the control plane that is a
mutex around the control state: other clients commit commands in between, and a proposal that
fails without a redirect may still be committed, once.
-/

namespace Vannak.Cluster

open Foundation Storage

set_option autoImplicit false

/-! ## Queries of the state machine -/

inductive ClusterQuery where
  | controlSnapshot
  | resolveTarget (shardId : DataIndividualShardId)
  | resolveWithFallback (shardId : DataIndividualShardId)
  | listIptoInstances
  | currentPlacementEpoch
  | getWriterLease (target : String)
  | getOutboxCheckpoint (shardId : DataIndividualShardId) (target : String)
  | getSealedSegment (segmentId : String)
deriving DecidableEq

/-- `serde_json` at queries and at the types of their results. -/
structure QueryJson (ε : Type) extends SerdeJson ε where
  queryToVec : ClusterQuery → Except ε Bytes
  queryFromSlice : Bytes → Except ε ClusterQuery
  optionalStringToVec : Option String → Except ε Bytes
  stringsToVec : List String → Except ε Bytes
  optionalU64ToVec : Option Nat → Except ε Bytes

structure QueryJson.RoundTrips {ε : Type} (serde : QueryJson ε) : Prop extends
    SerdeJson.RoundTrips serde.toSerdeJson where
  query : ∀ query, ∃ bytes, serde.queryToVec query = .ok bytes ∧ serde.queryFromSlice bytes = .ok query

section Queries

variable {ε : Type} (serde : QueryJson ε)

def handleQuery (state : ClusterControlState) : ClusterQuery → Bytes
  | .controlSnapshot => bytesOrDefault (encodeSnapshot serde.toSerdeJson state)
  | .resolveTarget shardId =>
    bytesOrDefault (serde.optionalStringToVec ((state.resolveIptoTarget shardId).map StringId.asStr))
  | .resolveWithFallback shardId =>
    bytesOrDefault (serde.stringsToVec ((state.resolveWithFallback shardId).map StringId.asStr))
  | .listIptoInstances => bytesOrDefault (serde.stringsToVec (state.allIptoInstances.map StringId.asStr))
  | .currentPlacementEpoch =>
    bytesOrDefault (serde.optionalU64ToVec (state.placementMap.map fun map => map.epoch.toNat))
  | .getWriterLease target =>
    bytesOrDefault (serde.optionalStringToVec ((state.writerLease ⟨target⟩).map fun lease => lease.holder.asStr))
  | .getOutboxCheckpoint shardId target => bytesOrDefault (serde.optionalU64ToVec
      ((state.outboxCheckpoint shardId ⟨target⟩).map MetadataOutboxCheckpoint.lastAcknowledgedOffset))
  | .getSealedSegment segmentId => bytesOrDefault (serde.optionalU64ToVec
      (state.sealedSegments[(⟨segmentId⟩ : SegmentId)]?.map fun manifest => manifest.checksum.toNat))

def ClusterStateMachine.query (machine : ClusterStateMachine) (request : Bytes) : Bytes :=
  match serde.queryFromSlice request with
  | .error error => bytesOrDefault (serde.stringToVec (serde.errorText error))
  | .ok query => handleQuery serde machine.state query

end Queries

/-! ## Control planes -/

structure ControlPlane (σ : Type) where
  read : σ → Except String ClusterControlState × σ
  propose : σ → ClusterControlCommand → Except String Unit × σ

/-- `Mutex<ClusterControlState>`. -/
def mutexPlane : ControlPlane ClusterControlState where
  read state := (.ok state, state)
  propose state command :=
    let (result, state) := state.apply command
    (result.mapError ClusterControlError.toText, state)

inductive RequestKind where
  | clientCommandRequest
  | clientQueryRequest
deriving DecidableEq

/-- `ClientCommandResponse` and `ClientQueryResponse` have these fields in common. -/
structure ClientResponse where
  success : Bool
  status : String
  message : String
  leaderId : String
  result : Bytes

/-- The handler and the client of the Raft library: a request goes to the own node or to an address, and its answer is
a decoded response or an error. -/
structure Graft (ρ : Type) where
  ownId : String
  dispatch : ρ → RequestKind → Bytes → Except String ClientResponse × ρ
  peerAddr : ρ → String → Except String String
  sendRpc : ρ → String → RequestKind → Bytes → Except String ClientResponse × ρ

namespace Graft

variable {ρ : Type} (graft : Graft ρ)

/-- The answer names another leader. -/
def Redirects (response : ClientResponse) : Prop :=
  ¬(response.success = true ∨ response.leaderId = "" ∨ response.leaderId = graft.ownId)

instance (response : ClientResponse) : Decidable (graft.Redirects response) :=
  inferInstanceAs (Decidable ¬_)

/-- The loop of `request` over the redirects that are left. -/
def followLeader (kind : RequestKind) (body : Bytes) :
    Nat → Except String ClientResponse → ρ → Except String ClientResponse × ρ
  | 0, reply, state => (reply, state)
  | _ + 1, .error error, state => (.error error, state)
  | redirects + 1, .ok response, state =>
    if graft.Redirects response then
      match graft.peerAddr state response.leaderId with
      | .error error => (.error error, state)
      | .ok address =>
        let (reply, state) := graft.sendRpc state address kind body
        followLeader kind body redirects reply state
    else (.ok response, state)

def request (kind : RequestKind) (body : Bytes) (state : ρ) : Except String ClientResponse × ρ :=
  let (reply, state) := graft.dispatch state kind body
  graft.followLeader kind body 2 reply state

end Graft

/-- A reply that is not empty is the reason of a refusal. -/
def refusalOf (result : Bytes) : Except String Unit :=
  if result ≠ [] then .error (PathBuf.toStringLossy ⟨result⟩) else .ok ()

/-- `RaftControlPlane`. -/
def raftPlane {ε ρ : Type} (serde : QueryJson ε) (graft : Graft ρ) : ControlPlane ρ where
  read state :=
    match serde.queryToVec .controlSnapshot with
    | .error error => (.error (serde.errorText error), state)
    | .ok body =>
      match graft.request .clientQueryRequest body state with
      | (.error error, state) => (.error error, state)
      | (.ok reply, state) =>
        if reply.success then (decodeSnapshot serde.toSerdeJson reply.result, state)
        else (.error ("control read: " ++ reply.status ++ " " ++ reply.message), state)
  propose state command :=
    match encodeCommand serde.toSerdeJson command with
    | .error error => (.error (serde.errorText error), state)
    | .ok body =>
      match graft.request .clientCommandRequest body state with
      | (.error error, state) => (.error error, state)
      | (.ok reply, state) =>
        if reply.success then (refusalOf reply.result, state)
        else (.error ("control proposal: " ++ reply.status ++ " " ++ reply.message), state)

/-! ## What the library is relied on for -/

/-- The state machine after the committed commands, and the commands of this plane whose requests failed and that may
still be committed. -/
structure RaftView where
  machine : ClusterStateMachine
  pending : List Bytes

section Views

variable {ε : Type} (serde : QueryJson ε)

/-- Other clients commit commands, and so does the leader with the ones that are pending. -/
inductive Commits : RaftView → RaftView → Prop where
  | refl (view : RaftView) : Commits view view
  | other {view next : RaftView} (command : Bytes)
      (hRest : Commits ⟨view.machine.apply serde.toSerdeJson command, view.pending⟩ next) : Commits view next
  | late {machine : ClusterStateMachine} {before after : List Bytes} {command : Bytes} {next : RaftView}
      (hRest : Commits ⟨machine.apply serde.toSerdeJson command, before ++ after⟩ next) :
      Commits ⟨machine, before ++ command :: after⟩ next

/-- What an answer to a request says about the cluster; the request may be committed unless the answer redirects it. -/
inductive Served {ρ : Type} (graft : Graft ρ) :
    RequestKind → Bytes → RaftView → Except String ClientResponse → RaftView → Prop where
  | applied {body : Bytes} {view middle next : RaftView} {response : ClientResponse} (hBefore : Commits serde view middle)
      (hSuccess : response.success = true)
      (hResult : response.result = (middle.machine.applyWithResult serde.toSerdeJson body).1)
      (hAfter : Commits serde ⟨middle.machine.apply serde.toSerdeJson body, middle.pending⟩ next) :
      Served graft .clientCommandRequest body view (.ok response) next
  | queried {body : Bytes} {view middle next : RaftView} {response : ClientResponse} (hBefore : Commits serde view middle)
      (hSuccess : response.success = true) (hResult : response.result = middle.machine.query serde body)
      (hAfter : Commits serde middle next) :
      Served graft .clientQueryRequest body view (.ok response) next
  | refused {kind : RequestKind} {body : Bytes} {view next : RaftView} {response : ClientResponse}
      (hSuccess : response.success = false) (hCommits : Commits serde view next) :
      Served graft kind body view (.ok response) next
  | failed {kind : RequestKind} {body : Bytes} {view next : RaftView} (error : String)
      (hCommits : Commits serde view next) : Served graft kind body view (.error error) next
  | undecided {body : Bytes} {view middle next : RaftView} {reply : Except String ClientResponse}
      (hReply : ∀ response, reply = .ok response → response.success = false ∧ ¬graft.Redirects response)
      (hBefore : Commits serde view middle)
      (hAfter : Commits serde ⟨middle.machine, middle.pending ++ [body]⟩ next) :
      Served graft .clientCommandRequest body view reply next

/-- A successful answer comes from the state machine of the leader when the command is committed, or behind a read
barrier. -/
structure Graft.Linearizable {ρ : Type} (graft : Graft ρ) (view : ρ → RaftView) : Prop where
  logged : ∀ state, ∃ log : List Bytes,
    (view state).machine = log.foldl (fun machine command => machine.apply serde.toSerdeJson command) .new
  dispatch : ∀ state kind body,
    Served serde graft kind body (view state) (graft.dispatch state kind body).1
      (view (graft.dispatch state kind body).2)
  sendRpc : ∀ state address kind body,
    Served serde graft kind body (view state) (graft.sendRpc state address kind body).1
      (view (graft.sendRpc state address kind body).2)

end Views

/-! ## Runs of a control plane -/

inductive PlaneCall where
  | read
  | propose (command : ClusterControlCommand)

inductive PlaneAnswer where
  | read (result : Except String ClusterControlState)
  | proposed (result : Except String Unit)

def ControlPlane.step {σ : Type} (plane : ControlPlane σ) (state : σ) : PlaneCall → PlaneAnswer × σ
  | .read =>
    let (result, state) := plane.read state
    (.read result, state)
  | .propose command =>
    let (result, state) := plane.propose state command
    (.proposed result, state)

/-- The call has failed without an answer of the state machine. -/
def PlaneCall.failed (error : String) : PlaneCall → PlaneAnswer
  | .read => .read (.error error)
  | .propose _ => .proposed (.error error)

section Explanations

variable {ε : Type} (serde : QueryJson ε)

/-- A refusal comes back as JSON text. -/
def jsonText (text : String) : String := PathBuf.toStringLossy ⟨bytesOrDefault (serde.stringToVec text)⟩

/-- The mutex plane gives the answer, or the call fails; the command of a failed proposal may be pending. -/
inductive Answers : RaftView → PlaneCall → PlaneAnswer → RaftView → Prop where
  | read (view : RaftView) : Answers view .read (.read (mutexPlane.read view.machine.state).1) view
  | proposed (view : RaftView) (command : ClusterControlCommand) :
      Answers view (.propose command)
        (.proposed ((mutexPlane.propose view.machine.state command).1.mapError (jsonText serde)))
        ⟨⟨(mutexPlane.propose view.machine.state command).2⟩, view.pending⟩
  | failed (view : RaftView) (call : PlaneCall) (error : String) : Answers view call (call.failed error) view
  | undecided (view : RaftView) {command : ClusterControlCommand} {body : Bytes}
      (hBody : encodeCommand serde.toSerdeJson command = .ok body) (error : String) :
      Answers view (.propose command) (.proposed (.error error)) ⟨view.machine, view.pending ++ [body]⟩

/-- One after the other the calls are answered from the state machine, with commits in between. -/
inductive Explains : RaftView → List (PlaneCall × PlaneAnswer) → RaftView → Prop where
  | done {view next : RaftView} (hCommits : Commits serde view next) : Explains view [] next
  | call {view middle after next : RaftView} {call : PlaneCall} {answer : PlaneAnswer}
      {calls : List (PlaneCall × PlaneAnswer)} (hCommits : Commits serde view middle)
      (hAnswer : Answers serde middle call answer after) (hRest : Explains after calls next) :
      Explains view ((call, answer) :: calls) next

end Explanations

section Refinement

variable {ε : Type} {serde : QueryJson ε}

theorem Commits.trans {first second third : RaftView} (hFirst : Commits serde first second)
    (hSecond : Commits serde second third) : Commits serde first third := by
  induction hFirst with
  | refl view => exact hSecond
  | other command hRest ih => exact .other command (ih hSecond)
  | late hRest ih => exact .late (ih hSecond)

theorem Explains.after {first second third : RaftView} {calls : List (PlaneCall × PlaneAnswer)}
    (hCommits : Commits serde first second) (h : Explains serde second calls third) :
    Explains serde first calls third := by
  cases h with
  | done hMore => exact .done (hCommits.trans hMore)
  | call hMore hAnswer hRest => exact .call (hCommits.trans hMore) hAnswer hRest

theorem Served.after {ρ : Type} {graft : Graft ρ} {kind : RequestKind} {body : Bytes} {first second third : RaftView}
    {reply : Except String ClientResponse} (hCommits : Commits serde first second)
    (h : Served serde graft kind body second reply third) : Served serde graft kind body first reply third := by
  cases h with
  | applied hBefore hSuccess hResult hAfter => exact .applied (hCommits.trans hBefore) hSuccess hResult hAfter
  | queried hBefore hSuccess hResult hAfter => exact .queried (hCommits.trans hBefore) hSuccess hResult hAfter
  | refused hSuccess hMore => exact .refused hSuccess (hCommits.trans hMore)
  | failed error hMore => exact .failed error (hCommits.trans hMore)
  | undecided hReply hBefore hAfter => exact .undecided hReply (hCommits.trans hBefore) hAfter

/-! ### Redirects -/

/-- A request that is redirected is not committed. -/
theorem Served.commits_of_redirects {ρ : Type} {graft : Graft ρ} {kind : RequestKind} {body : Bytes}
    {view next : RaftView} {response : ClientResponse} (h : Served serde graft kind body view (.ok response) next)
    (hRedirects : graft.Redirects response) : Commits serde view next := by
  cases h with
  | applied hBefore hSuccess => exact absurd (.inl hSuccess) hRedirects
  | queried hBefore hSuccess => exact absurd (.inl hSuccess) hRedirects
  | refused hSuccess hCommits => exact hCommits
  | undecided hReply => exact absurd hRedirects (hReply response rfl).2

variable {ρ : Type} {graft : Graft ρ} {view : ρ → RaftView}

theorem served_followLeader (h : graft.Linearizable serde view) {kind : RequestKind} {body : Bytes} {first : RaftView}
    (redirects : Nat) (reply : Except String ClientResponse) (state : ρ)
    (hServed : Served serde graft kind body first reply (view state)) :
    Served serde graft kind body first (graft.followLeader kind body redirects reply state).1
      (view (graft.followLeader kind body redirects reply state).2) := by
  induction redirects generalizing reply state with
  | zero => exact hServed
  | succ redirects ih =>
    cases reply with
    | error error => exact hServed
    | ok response =>
      rw [Graft.followLeader]
      split
      · rename_i hRedirects
        have hCommits := hServed.commits_of_redirects hRedirects
        split
        · exact .failed _ hCommits
        · rename_i address hAddress
          exact ih _ _ ((h.sendRpc state address kind body).after hCommits)
      · exact hServed

theorem served_request (h : graft.Linearizable serde view) (kind : RequestKind) (body : Bytes) (state : ρ) :
    Served serde graft kind body (view state) (graft.request kind body state).1
      (view (graft.request kind body state).2) :=
  served_followLeader h 2 _ _ (h.dispatch state kind body)

/-! ### The state that is read -/

/-- A snapshot carries the state. -/
def RaftView.Readable (view : RaftView) : Prop := view.machine.state.Consistent ∧ view.machine.state.Portable

/-- What every element is read as holds of all that is read. -/
theorem forall_of_mapM_eq_ok {α β δ : Type} {read : α → Except δ β} {property : β → Prop}
    (hRead : ∀ item value, read item = .ok value → property value) {items : List α} {values : List β}
    (h : items.mapM read = .ok values) : ∀ value ∈ values, property value := by
  induction items generalizing values with
  | nil =>
    cases h
    simp
  | cons item items ih =>
    rw [List.mapM_cons] at h
    obtain ⟨value, hValue, h⟩ := ok_of_bind h
    obtain ⟨others, hOthers, h⟩ := ok_of_bind h
    cases h
    exact List.forall_mem_cons.mpr ⟨hRead item value hValue, ih hOthers⟩

theorem slot_of_new {instanceId : IptoInstanceId} {vnodes : UInt32} {slot : IptoPlacementSlot}
    (h : IptoPlacementSlot.new instanceId vnodes = .ok slot) :
    IptoPlacementSlot.new slot.instanceId slot.vnodes = .ok slot := by
  have hBuilt := h
  rw [IptoPlacementSlot.new] at hBuilt
  split at hBuilt
  · cases hBuilt
  · cases hBuilt
    exact h

theorem range_of_new {start stop : DataIndividualShardId} {target : IptoInstanceId} {range : IptoPlacementRange}
    (h : IptoPlacementRange.new start stop target = .ok range) :
    IptoPlacementRange.new range.start range.stop range.target = .ok range := by
  have hBuilt := h
  rw [IptoPlacementRange.new] at hBuilt
  split at hBuilt
  · cases hBuilt
  · cases hBuilt
    exact h

theorem built_of_fromSerMap {data : SerPlacementMap} {map : IptoPlacementMap} (h : fromSerMap data = .ok map) :
    map.Built := by
  obtain ⟨slots, hSlots, h⟩ := ok_of_bind h
  obtain ⟨overrides, hOverrides, h⟩ := ok_of_bind h
  refine ⟨data.epoch, slots, overrides, ?_, ?_, ok_of_mapError h⟩
  · exact forall_of_mapM_eq_ok (fun _ _ hSlot => slot_of_new hSlot) (ok_of_mapError hSlots)
  · exact forall_of_mapM_eq_ok (fun _ _ hRange => range_of_new hRange) (ok_of_mapError hOverrides)

/-- Maps are read through the constructors, and paths from texts. -/
theorem portable_of_decodeCommand {command : Bytes} {decoded : ClusterControlCommand}
    (h : decodeCommand serde.toSerdeJson command = .ok decoded) : decoded.Portable := by
  obtain ⟨read, -, h⟩ := ok_of_bind h
  cases hVariant : read.variant with
  | setIptoPlacementMap data =>
    rw [hVariant] at h
    obtain ⟨map, hMap, h⟩ := ok_of_bind h
    cases h
    exact built_of_fromSerMap hMap
  | recordSealedSegment manifest =>
    rw [hVariant] at h
    cases h
    exact ⟨manifest.path, rfl⟩
  | addNode nodeId | removeNode nodeId | grantWriterLease lease | recordOutboxCheckpoint checkpoint
  | recordCheckpoint checkpoint =>
    rw [hVariant] at h
    cases h
    trivial

theorem RaftView.Readable.apply {machine : ClusterStateMachine} {pending : List Bytes}
    (h : RaftView.Readable ⟨machine, pending⟩) (command : Bytes) (others : List Bytes) :
    RaftView.Readable ⟨machine.apply serde.toSerdeJson command, others⟩ := by
  rw [ClusterStateMachine.apply]
  cases hCommand : decodeCommand serde.toSerdeJson command with
  | error error => exact h
  | ok decoded => exact ⟨h.1.apply decoded, h.2.apply (portable_of_decodeCommand hCommand)⟩

theorem Commits.readable {first second : RaftView} (hCommits : Commits serde first second) (h : first.Readable) :
    second.Readable := by
  induction hCommits with
  | refl view => exact h
  | other command hRest ih => exact ih (h.apply command _)
  | late hRest ih => exact ih (h.apply _ _)

theorem Graft.Linearizable.readable (h : graft.Linearizable serde view) (state : ρ) : (view state).Readable := by
  obtain ⟨log, hLog⟩ := h.logged state
  have hReplayed : ∀ (log : List Bytes) (machine : ClusterStateMachine), RaftView.Readable ⟨machine, []⟩ →
      RaftView.Readable ⟨log.foldl (fun machine command => machine.apply serde.toSerdeJson command) machine, []⟩ := by
    intro log
    induction log with
    | nil => exact fun machine hMachine => hMachine
    | cons command log ih => exact fun machine hMachine => ih _ (hMachine.apply command [])
  have hNew : RaftView.Readable ⟨.new, []⟩ := ⟨ClusterControlState.consistent_new, ClusterControlState.stores_new⟩
  have hAll := hReplayed log .new hNew
  rw [← hLog] at hAll
  exact hAll

/-! ### One call -/

/-- The reply to a command is read as what the mutex plane answers. -/
theorem proposed_of_applied (hSerde : serde.RoundTrips) {command : ClusterControlCommand} {body : Bytes}
    (hBody : decodeCommand serde.toSerdeJson body = .ok command) (machine : ClusterStateMachine) :
    machine.apply serde.toSerdeJson body = ⟨(mutexPlane.propose machine.state command).2⟩ ∧
      refusalOf (machine.applyWithResult serde.toSerdeJson body).1 =
        (mutexPlane.propose machine.state command).1.mapError (jsonText serde) := by
  rw [ClusterStateMachine.applyWithResult, ClusterStateMachine.apply, hBody, mutexPlane]
  rcases machine.state.apply_cases command with ⟨next, hApply, -⟩ | ⟨error, hApply⟩
  · simp only [hApply]
    exact ⟨trivial, rfl⟩
  · obtain ⟨text, hText, hNonempty⟩ := hSerde.string error.toText
    simp only [hApply, Except.mapError, jsonText, hText, bytesOrDefault]
    exact ⟨trivial, if_pos hNonempty⟩

theorem query_controlSnapshot (hSerde : serde.RoundTrips) {body : Bytes}
    (hBody : serde.queryToVec .controlSnapshot = .ok body) {view : RaftView} (h : view.Readable) :
    decodeSnapshot serde.toSerdeJson (view.machine.query serde body) = .ok view.machine.state := by
  obtain ⟨written, hWritten, hRead⟩ := hSerde.query .controlSnapshot
  obtain rfl := Except.ok.inj (hBody.symm.trans hWritten)
  obtain ⟨bytes, hEncoded, hDecoded⟩ := decodeSnapshot_encodeSnapshot hSerde.toRoundTrips h.1 h.2
  rw [ClusterStateMachine.query, hRead]
  simp only [handleQuery, hEncoded, bytesOrDefault, hDecoded]

/-- A call is answered by the mutex plane, or it fails. -/
theorem raftPlane_step (hSerde : serde.RoundTrips) (hGraft : graft.Linearizable serde view) (state : ρ)
    {call : PlaneCall} (hCall : ∀ command, call = .propose command → command.Portable) :
    ∃ middle after, Commits serde (view state) middle ∧
      Answers serde middle call ((raftPlane serde graft).step state call).1 after ∧
      Commits serde after (view ((raftPlane serde graft).step state call).2) := by
  cases call with
  | read =>
    obtain ⟨body, hBody, -⟩ := hSerde.query .controlSnapshot
    have hServed := served_request hGraft .clientQueryRequest body state
    have hReadable := hGraft.readable state
    rw [ControlPlane.step, raftPlane]
    simp only [hBody]
    generalize graft.request .clientQueryRequest body state = exchange at hServed
    obtain ⟨reply, next⟩ := exchange
    cases hServed with
    | queried hBefore hSuccess hResult hAfter =>
      rename_i middle response
      have hDecoded := query_controlSnapshot hSerde hBody (hBefore.readable hReadable)
      simp only [hSuccess, if_true, hResult, hDecoded]
      exact ⟨middle, middle, hBefore, .read middle, hAfter⟩
    | refused hSuccess hCommits =>
      simp only [hSuccess, Bool.false_eq_true, if_false]
      exact ⟨_, _, .refl _, .failed _ .read _, hCommits⟩
    | failed error hCommits => exact ⟨_, _, .refl _, .failed _ .read _, hCommits⟩
  | propose command =>
    obtain ⟨body, hBody, hDecoded⟩ := decodeCommand_encodeCommand hSerde.toRoundTrips (hCall command rfl)
    have hServed := served_request hGraft .clientCommandRequest body state
    rw [ControlPlane.step, raftPlane]
    simp only [hBody]
    generalize graft.request .clientCommandRequest body state = exchange at hServed
    obtain ⟨reply, next⟩ := exchange
    cases hServed with
    | applied hBefore hSuccess hResult hAfter =>
      rename_i middle response
      obtain ⟨hState, hAnswer⟩ := proposed_of_applied hSerde hDecoded middle.machine
      rw [hState] at hAfter
      simp only [hSuccess, if_true, hResult, hAnswer]
      exact ⟨middle, _, hBefore, .proposed middle command, hAfter⟩
    | refused hSuccess hCommits =>
      simp only [hSuccess, Bool.false_eq_true, if_false]
      exact ⟨_, _, .refl _, .failed _ (.propose command) _, hCommits⟩
    | failed error hCommits => exact ⟨_, _, .refl _, .failed _ (.propose command) _, hCommits⟩
    | undecided hReply hBefore hAfter =>
      rename_i middle
      cases reply with
      | error error => exact ⟨_, _, hBefore, .undecided middle hBody error, hAfter⟩
      | ok response =>
        simp only [(hReply response rfl).1, Bool.false_eq_true, if_false]
        exact ⟨_, _, hBefore, .undecided middle hBody _, hAfter⟩

/-- The control plane over Raft refines the one that is a mutex: one after the other its calls are answered from the
committed state, also across redirects, or they fail; a command is committed once if it is answered, and at most once if
not. -/
theorem raft_plane_refines_mutex (hSerde : serde.RoundTrips) (hGraft : graft.Linearizable serde view)
    {calls : List PlaneCall} (hCalls : ∀ command, .propose command ∈ calls → command.Portable) (state : ρ) :
    Explains serde (view state) (run (raftPlane serde graft).step state calls).1
      (view (run (raftPlane serde graft).step state calls).2) := by
  induction calls generalizing state with
  | nil => exact .done (.refl _)
  | cons call calls ih =>
    obtain ⟨middle, after, hBefore, hAnswer, hAfter⟩ := raftPlane_step hSerde hGraft state
      fun command hCommand => hCalls command (hCommand ▸ List.mem_cons_self)
    have hRest := ih (fun command hCommand => hCalls command (List.mem_cons_of_mem call hCommand))
      ((raftPlane serde graft).step state call).2
    exact .call hBefore hAnswer (hRest.after hAfter)

end Refinement

/-! ### A follower that redirects -/

deriving instance Countable for ClusterQuery

def sampleQueries : List (ClusterQuery × String) := [(.controlSnapshot, "\x7b\"query\":\"ControlSnapshot\"\x7d")]

def quotedText (text : String) : String := "\"" ++ text ++ "\""

noncomputable def sampleQueryJson : QueryJson String := { sampleJson with
  queryToVec := fun query => .ok (sampleToVec sampleQueries query)
  queryFromSlice := sampleFromSlice sampleQueries
  optionalStringToVec := fun text => .ok (utf8Bytes (text.elim "null" quotedText))
  stringsToVec := fun texts => .ok (utf8Bytes ("[" ++ ",".intercalate (texts.map quotedText) ++ "]"))
  optionalU64ToVec := fun number => .ok (utf8Bytes (number.elim "null" toString)) }

theorem sampleQueryJson_roundTrips : sampleQueryJson.RoundTrips where
  toRoundTrips := sampleJson_roundTrips
  query query := ⟨_, rfl, sampleFromSlice_sampleToVec
    (sampleToVec_injective (by decide +kernel) (by decide +kernel)) query⟩

noncomputable def committed (log : List Bytes) : ClusterStateMachine :=
  log.foldl (fun machine command => machine.apply sampleQueryJson.toSerdeJson command) .new

/-- The own node follows `node-b`, which commits at once; the state is its log. -/
noncomputable def followerGraft : Graft (List Bytes) where
  ownId := "node-a"
  dispatch log _ _ := (.ok ⟨false, "NOT_LEADER", "not the leader", "node-b", []⟩, log)
  peerAddr _ leader := if leader = "node-b" then .ok "127.0.0.1:7001" else .error "unknown peer"
  sendRpc log _ kind body :=
    match kind with
    | .clientCommandRequest => (.ok ⟨true, "OK", "", "node-b",
        ((committed log).applyWithResult sampleQueryJson.toSerdeJson body).1⟩, log ++ [body])
    | .clientQueryRequest => (.ok ⟨true, "OK", "", "node-b", (committed log).query sampleQueryJson body⟩, log)

theorem linearizable_followerGraft :
    followerGraft.Linearizable sampleQueryJson fun log => ⟨committed log, []⟩ where
  logged log := ⟨log, rfl⟩
  dispatch log kind body := .refused rfl (.refl _)
  sendRpc log address kind body := by
    cases kind with
    | clientQueryRequest => exact .queried (.refl _) rfl rfl (.refl _)
    | clientCommandRequest =>
      have hCommitted : committed (log ++ [body]) =
          (committed log).apply sampleQueryJson.toSerdeJson body := List.foldl_concat _ _ _ _
      refine .applied (.refl _) rfl rfl ?_
      dsimp only [followerGraft]
      rw [hCommitted]
      exact .refl _

theorem raft_plane_refines_mutex_redirected :
    Explains sampleQueryJson ⟨committed [], []⟩
      (run (raftPlane sampleQueryJson followerGraft).step [] [.propose (.addNode ⟨"node-a"⟩), .read]).1
      ⟨committed (run (raftPlane sampleQueryJson followerGraft).step [] [.propose (.addNode ⟨"node-a"⟩), .read]).2,
        []⟩ := by
  refine raft_plane_refines_mutex sampleQueryJson_roundTrips linearizable_followerGraft ?_ []
  intro command hCommand
  simp only [List.mem_cons, PlaneCall.propose.injEq, reduceCtorEq, List.not_mem_nil, or_false] at hCommand
  subst hCommand
  trivial

end Vannak.Cluster
