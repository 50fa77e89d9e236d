import Vannak.Daemon.ClusterAnswers
import Vannak.Daemon.PostedEvents

/-!
# Queries of a cluster

The fan-out queries of `daemon.rs` from end to end: a query is put into a request, each peer that
can be reached serves it as a daemon, and what is read from the answers is merged.
-/

namespace Vannak.Daemon

open Foundation Process Vannak.Runtime Service

set_option autoImplicit false

/-! ## Nodes -/

/-- A daemon that is asked; a query needs the connection only for how the stream ends. -/
structure QueryNode where
  config : SitasRuntimeConfig
  setup : DaemonSetup config
  connection : Connection
  service : VannakService config

namespace QueryNode

/-- The daemon closes the connection after its answer. -/
def serve (node : QueryNode) (request : Bytes) : Stream × VannakService node.config :=
  let (answer, service) := (node.setup.handlers node.connection).handleHealthRequest node.setup.daemonConfig
    node.service ⟨request, node.connection.stream.ending⟩
  (⟨answer.getD [], .closed⟩, service)

/-- The JSON library reads queries and prints answers. -/
def Conversant (node : QueryNode) : Prop :=
  ReadsJson node.setup.texts.parse ∧ Prints node.setup.texts.toText

/-- The query fits into a request body. -/
def Admits (node : QueryNode) (query : PeerQuery) : Prop :=
  query.body.utf8ByteSize ≤ node.setup.daemonConfig.maxRequestBodyBytes

instance (node : QueryNode) (query : PeerQuery) : Decidable (node.Admits query) :=
  Nat.decLe ..

/-- What is read from the answer of a node. -/
def instancesFor (node : QueryNode) (query : PeerQuery) : Option (List ProcessInstanceSnapshot) :=
  if node.Admits query then some (readBack (knownInstances node.setup.mapAll node.service query)) else none

end QueryNode

/-! ## The fan-out -/

section Fanout

variable {config : SitasRuntimeConfig}

/-- The loop over the peers as far as it sends and reads. -/
def askPeers (connect : String → Except String (Bytes → Stream)) (jsonBody : String) (peers : List String) :
    Option (List PeerAnswer) :=
  peers.mapM fun peer => (sendQueryToPeer connect peer jsonBody).map fun answer => (peer, answer)

/-- The three fan-out queries of a service; `none` is a panic in the parser of the answers. -/
def fanoutQuery (mapAll : ∀ β : Type, SitasShardRuntime.MapAll config β) (service : VannakService config)
    (connect : String → Except String (Bytes → Stream)) (peers : List String) :
    PeerQuery → Option ClusterQueryResult
  | .processInstance query => do
    let known : Except String _ := .ok (service.hotIndex.processInstance query.processInstanceId)
    return fanoutProcessInstanceQuery known (← askPeers connect (processInstanceBody query) peers)
  | .pipeline query _ => do
    let known : Except String _ := .ok (service.hotIndex.pipelineInstances mapAll query)
    return fanoutPipelineQuery query known (← askPeers connect (pipelineBody query) peers)
  | .processStatus query _ => do
    let known : Except String _ := .ok (service.hotIndex.processInstancesByStatus mapAll query)
    return fanoutProcessStatusQuery query known (← askPeers connect (processStatusBody query) peers)

/-- The instances of the node, then those of the peers, as far as they are taken over. -/
def mergedInstances (known more : List ProcessInstanceSnapshot) : PeerQuery → List ProcessInstanceSnapshot
  | .processInstance _ => known ++ more.filter fun snapshot => snapshot.processInstanceId ∉ idsOf known
  | .pipeline query _ => (known ++ more).take query.limit.value
  | .processStatus query _ => (known ++ more).take query.limit.value

end Fanout

/-! ## One peer -/

section Peers

variable {nodes : String → Except String QueryNode}

/-- A connection to a peer that can be reached. -/
def connectTo (nodes : String → Except String QueryNode) (peer : String) : Except String (Bytes → Stream) :=
  (nodes peer).map fun node request => (node.serve request).1

/-- The nodes behind addresses: an address has no line feed. -/
def Reachable (nodes : String → Except String QueryNode) : Prop :=
  ∀ peer node, nodes peer = .ok node → '\n' ∉ peer.toList ∧ node.Conversant

theorem ok_one_line : '\n' ∉ "200 OK".toList := by decide

theorem payloadTooLarge_one_line : '\n' ∉ payloadTooLarge.1.toList := by decide

theorem parse_payloadTooLarge : parseQueryResultJson payloadTooLarge.2 = some none := by decide

theorem QueryNode.serve_peerRequest {node : QueryNode} (h : node.Conversant) {peer : String}
    (hPeer : '\n' ∉ peer.toList) {query : PeerQuery} (hSendable : query.Sendable)
    (hUsize : query.body.utf8ByteSize < 2 ^ 64) :
    (node.serve (peerRequest peer query.body)).2 = node.service ∧
      ∃ body, readAnswer (node.serve (peerRequest peer query.body)).1 = .ok (some body) ∧
        parseQueryResultJson body = some (node.instancesFor query) := by
  have hAnswered := @handleQueryRequest_peer _ node.setup.mapAll node.setup.texts node.service h.1 _ hSendable
  rw [serve, Handlers.handleHealthRequest, readRequest_peerRequest hPeer hUsize, peerRequestRead, instancesFor]
  by_cases hAdmits : node.Admits query
  · have hBody : query.body.utf8ByteSize ≤ node.setup.daemonConfig.maxRequestBodyBytes := hAdmits
    rw [if_pos hAdmits, if_pos hBody]
    dsimp only [Handlers.serve, DaemonSetup.handlers]
    rw [hAnswered, Option.getD_some]
    exact ⟨rfl, _, readAnswer_writeJsonResponse ok_one_line, parse_answerOf h.2 query⟩
  · have hBody : ¬query.body.utf8ByteSize ≤ node.setup.daemonConfig.maxRequestBodyBytes := hAdmits
    rw [if_neg hAdmits, if_neg hBody]
    exact ⟨rfl, _, readAnswer_writeJsonResponse payloadTooLarge_one_line, parse_payloadTooLarge⟩

/-- What is read from a peer, or why there is nothing. -/
def readFrom (nodes : String → Except String QueryNode) (query : PeerQuery) (peer : String) : PeerAnswer :=
  (peer, (nodes peer).map fun node => node.instancesFor query)

theorem sendQueryToPeer_connectTo (h : Reachable nodes) {query : PeerQuery} (hSendable : query.Sendable)
    (hUsize : query.body.utf8ByteSize < 2 ^ 64) (peer : String) :
    sendQueryToPeer (connectTo nodes) peer query.body = some (readFrom nodes query peer).2 := by
  rw [sendQueryToPeer, connectTo, readFrom]
  cases hNode : nodes peer with
  | error error => rfl
  | ok node =>
    obtain ⟨hPeer, hConversant⟩ := h peer node hNode
    obtain ⟨-, body, hBody, hParsed⟩ := node.serve_peerRequest hConversant hPeer hSendable hUsize
    simp only [Except.map, hBody, hParsed, Option.map_some]

theorem askPeers_connectTo (h : Reachable nodes) {query : PeerQuery} (hSendable : query.Sendable)
    (hUsize : query.body.utf8ByteSize < 2 ^ 64) (peers : List String) :
    askPeers (connectTo nodes) query.body peers = some (peers.map (readFrom nodes query)) := by
  have hSent (peer : String) : (sendQueryToPeer (connectTo nodes) peer query.body).map (fun answer => (peer, answer)) =
      some (readFrom nodes query peer) := by
    rw [sendQueryToPeer_connectTo h hSendable hUsize]
    rfl
  rw [askPeers]
  simp only [hSent]
  exact List.mapM_pure

/-! ## All peers -/

/-- The instances of the peers that can be reached, in the order of the peers. -/
def reachedInstances (nodes : String → Except String QueryNode) (query : PeerQuery) (peers : List String) :
    List ProcessInstanceSnapshot :=
  peers.flatMap fun peer => ((nodes peer).toOption.bind fun node => node.instancesFor query).getD []

theorem failed_mergePeers
    (merge : List ProcessInstanceSnapshot → List ProcessInstanceSnapshot → List ProcessInstanceSnapshot)
    (instances : List ProcessInstanceSnapshot) (failed : List String) (query : PeerQuery) (peers : List String) :
    (mergePeers merge instances failed (peers.map (readFrom nodes query))).2 =
      failed ++ peers.filter fun peer => (nodes peer).toOption.isNone := by
  induction peers generalizing instances failed with
  | nil => exact (List.append_nil failed).symm
  | cons peer peers ih =>
    rw [List.map_cons, List.filter_cons, readFrom]
    cases nodes peer with
    | error error =>
      rw [Except.map, mergePeers, ih, List.append_assoc]
      rfl
    | ok node =>
      rw [Except.map]
      cases node.instancesFor query with
      | none => exact ih instances failed
      | some more => exact ih (merge instances more) failed

theorem peerInstances_readFrom (query : PeerQuery) (peers : List String) :
    peerInstances (peers.map (readFrom nodes query)) = reachedInstances nodes query peers := by
  rw [reachedInstances]
  induction peers with
  | nil => rfl
  | cons peer peers ih =>
    rw [List.map_cons, List.flatMap_cons, ← ih, readFrom]
    cases nodes peer with
    | error error => rfl
    | ok node =>
      rw [Except.map]
      cases hRead : node.instancesFor query with
      | none =>
        rw [peerInstances_cons_none rfl, Except.toOption, Option.bind_some, hRead]
        rfl
      | some more =>
        rw [peerInstances_cons_some, Except.toOption, Option.bind_some, hRead]
        rfl

theorem ClusterQueryResult.eq_mk {result : ClusterQueryResult} {peerCount : Nat} {failedPeers : List String}
    {merged : List ProcessInstanceSnapshot} (hCount : result.peerCount = peerCount)
    (hFailed : result.failedPeers = failedPeers) (hMerged : result.merged = merged) :
    result = ⟨peerCount, failedPeers, merged⟩ := by
  subst hCount hFailed hMerged
  rfl

theorem fanoutProcessInstanceQuery_readFrom (known : Option ProcessInstanceSnapshot) (query : PeerQuery)
    (peers : List String) :
    fanoutProcessInstanceQuery (.ok known : Except String _) (peers.map (readFrom nodes query)) =
      ⟨peers.length, peers.filter fun peer => (nodes peer).toOption.isNone,
        known.toList ++ (reachedInstances nodes query peers).filter fun snapshot =>
          snapshot.processInstanceId ∉ idsOf known.toList⟩ := by
  refine ClusterQueryResult.eq_mk (List.length_map _) ?_ ?_
  · exact failed_mergePeers _ _ _ query peers
  · rw [merged_fanoutProcessInstanceQuery, unseenInstances, peerInstances_readFrom]
    rfl

theorem fanoutLimited_readFrom (limit : QueryLimit) (known : List ProcessInstanceSnapshot) (query : PeerQuery)
    (peers : List String) :
    fanoutLimited limit (.ok known : Except String _) (peers.map (readFrom nodes query)) =
      ⟨peers.length, peers.filter fun peer => (nodes peer).toOption.isNone,
        (known ++ reachedInstances nodes query peers).take limit.value⟩ := by
  refine ClusterQueryResult.eq_mk (List.length_map _) ?_ ?_
  · exact failed_mergePeers _ _ _ query peers
  · rw [merged_fanoutLimited, peerInstances_readFrom]
    rfl

end Peers

/-! ### A peer that knows the instance, and one that cannot be reached -/

def flatTexts : Texts := { knownTexts [] with
  fromStr text := (readFlat text).elim (.error "expected value") .ok }

/-- A node without a runtime has the local index. -/
def knowingNode : QueryNode where
  config := twoShards
  setup := { sampleSetup [] with texts := flatTexts }
  connection := sending []
  service := ((VannakService.new sampleService).ingestProcessEvent sampleEvent).2

def sampleNodes (peer : String) : Except String QueryNode :=
  if peer = "127.0.0.1:9090" then .ok knowingNode else .error "connection refused"

theorem parse_flatTexts : flatTexts.parse = readFlat := by
  funext text
  change ((readFlat text).elim (Except.error "expected value") Except.ok).toOption = readFlat text
  cases readFlat text <;> rfl

theorem reachable_sampleNodes : Reachable sampleNodes := by
  intro peer node hNode
  rw [sampleNodes] at hNode
  split at hNode
  · rename_i hPeer
    cases hNode
    refine ⟨hPeer ▸ (by decide), ?_, prints_compactText⟩
    exact parse_flatTexts.symm ▸ readsJson_readFlat
  · cases hNode

def instanceQuery : PeerQuery := .processInstance ⟨⟨"instance-a"⟩⟩

theorem sendable_instanceQuery : instanceQuery.Sendable := by
  simp [instanceQuery, PeerQuery.Sendable, Plain]

end Vannak.Daemon
