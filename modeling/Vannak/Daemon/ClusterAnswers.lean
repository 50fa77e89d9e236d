import Vannak.Daemon.PeerRequests

/-!
# Merged cluster answers

The fan-out queries of `daemon.rs` merge the answers of the peers into the local answer. `send_query_to_peer` is
given by its results. The process-instance query skips what the node knows itself but not what an earlier peer named;
the other two skip nothing, so that repeated instances use up the limit.
-/

namespace Vannak.Daemon

open Foundation Process

set_option autoImplicit false

/-- A peer and what `send_query_to_peer` returns for it; a parsed answer is always `ProcessInstances`. -/
abbrev PeerAnswer : Type := String × Except String (Option (List ProcessInstanceSnapshot))

structure ClusterQueryResult where
  peerCount : Nat
  failedPeers : List String
  merged : List ProcessInstanceSnapshot

/-- The loop over the peers; `merge` takes over the instances of one answer. -/
def mergePeers (merge : List ProcessInstanceSnapshot → List ProcessInstanceSnapshot → List ProcessInstanceSnapshot) :
    List ProcessInstanceSnapshot → List String → List PeerAnswer → List ProcessInstanceSnapshot × List String
  | instances, failed, [] => (instances, failed)
  | instances, failed, (_, .ok (some more)) :: peers => mergePeers merge (merge instances more) failed peers
  | instances, failed, (_, .ok none) :: peers => mergePeers merge instances failed peers
  | instances, failed, (peer, .error _) :: peers => mergePeers merge instances (failed ++ [peer]) peers

variable {ε : Type}

def fanoutProcessInstanceQuery (localAnswer : Except ε (Option ProcessInstanceSnapshot)) (peers : List PeerAnswer) :
    ClusterQueryResult :=
  let instances := (localAnswer.toOption.bind id).toList
  let failed := if localAnswer.isOk then [] else ["local"]
  let seenIds := instances.map ProcessInstanceSnapshot.processInstanceId
  let (instances, failed) := mergePeers
    (fun instances more => instances ++ more.filter fun instance' => instance'.processInstanceId ∉ seenIds)
    instances failed peers
  ⟨peers.length, failed, instances⟩

/-- The common body of the two queries with a limit. -/
def fanoutLimited (limit : QueryLimit) (localAnswer : Except ε (List ProcessInstanceSnapshot))
    (peers : List PeerAnswer) : ClusterQueryResult :=
  let allInstances := localAnswer.toOption.getD []
  let (allInstances, failed) := mergePeers
    (fun allInstances more => allInstances ++ more.take (min (limit.value - allInstances.length) more.length))
    allInstances [] peers
  ⟨peers.length, failed, allInstances.take limit.value⟩

def fanoutPipelineQuery (query : PipelineQuery) (localAnswer : Except ε (List ProcessInstanceSnapshot))
    (peers : List PeerAnswer) : ClusterQueryResult := fanoutLimited query.limit localAnswer peers

def fanoutProcessStatusQuery (query : ProcessStatusQuery) (localAnswer : Except ε (List ProcessInstanceSnapshot))
    (peers : List PeerAnswer) : ClusterQueryResult := fanoutLimited query.limit localAnswer peers

/-! ## What was answered -/

def answered? : PeerAnswer → Option (List ProcessInstanceSnapshot)
  | (_, .ok answer) => answer
  | (_, .error _) => none

/-- The instances of the peers' answers, in order. -/
def peerInstances (peers : List PeerAnswer) : List ProcessInstanceSnapshot := (peers.filterMap answered?).flatten

def idsOf (instances : List ProcessInstanceSnapshot) : List ProcessInstanceId :=
  instances.map ProcessInstanceSnapshot.processInstanceId

theorem idsOf_append (first second : List ProcessInstanceSnapshot) :
    idsOf (first ++ second) = idsOf first ++ idsOf second := List.map_append

theorem peerInstances_cons_some (peer : String) (more : List ProcessInstanceSnapshot) (peers : List PeerAnswer) :
    peerInstances ((peer, .ok (some more)) :: peers) = more ++ peerInstances peers := by
  have hAnswered : answered? (peer, .ok (some more)) = some more := rfl
  rw [peerInstances, List.filterMap_cons_some hAnswered, List.flatten_cons]
  rfl

theorem peerInstances_cons_none {peer : PeerAnswer} (h : answered? peer = none) (peers : List PeerAnswer) :
    peerInstances (peer :: peers) = peerInstances peers := by
  rw [peerInstances, List.filterMap_cons_none h]
  rfl

/-! ## What is merged -/

/-- A merge that appends what it selects appends the selection of all answers. -/
theorem mergePeers_filter (keep : ProcessInstanceSnapshot → Bool) (instances : List ProcessInstanceSnapshot)
    (failed : List String) (peers : List PeerAnswer) :
    (mergePeers (fun instances more => instances ++ more.filter keep) instances failed peers).1 =
      instances ++ (peerInstances peers).filter keep := by
  induction peers generalizing instances failed with
  | nil => exact (List.append_nil _).symm
  | cons peer peers ih =>
    rcases peer with ⟨peer, error | ⟨⟩ | more⟩
    · rw [mergePeers, ih, peerInstances_cons_none rfl]
    · rw [mergePeers, ih, peerInstances_cons_none rfl]
    · rw [mergePeers, ih, peerInstances_cons_some, List.filter_append, List.append_assoc]

/-- A merge that takes what is still missing leaves the first instances of all answers. -/
theorem take_mergePeers (limit : Nat) (instances : List ProcessInstanceSnapshot) (failed : List String)
    (peers : List PeerAnswer) :
    (mergePeers (fun instances more => instances ++ more.take (min (limit - instances.length) more.length)) instances
      failed peers).1.take limit = (instances ++ peerInstances peers).take limit := by
  induction peers generalizing instances failed with
  | nil => rw [mergePeers, peerInstances, List.filterMap_nil, List.flatten_nil, List.append_nil]
  | cons peer peers ih =>
    rcases peer with ⟨peer, error | ⟨⟩ | more⟩
    · rw [mergePeers, ih, peerInstances_cons_none rfl]
    · rw [mergePeers, ih, peerInstances_cons_none rfl]
    · have hTaken : (instances ++ more.take (min (limit - instances.length) more.length)).take limit =
          (instances ++ more).take limit := by
        rw [← List.take_eq_take_min, List.take_append, List.take_append, List.take_take, Nat.min_self]
      rw [mergePeers, ih, peerInstances_cons_some, ← take_take_append, hTaken, take_take_append, List.append_assoc]

theorem merged_fanoutLimited (limit : QueryLimit) (localAnswer : Except ε (List ProcessInstanceSnapshot))
    (peers : List PeerAnswer) :
    (fanoutLimited limit localAnswer peers).merged =
      (localAnswer.toOption.getD [] ++ peerInstances peers).take limit.value :=
  take_mergePeers limit.value _ [] peers

/-- The instance that the node knows itself. -/
def localInstance (localAnswer : Except ε (Option ProcessInstanceSnapshot)) : List ProcessInstanceSnapshot :=
  (localAnswer.toOption.bind id).toList

/-- The instances of the peers that the node does not know itself. -/
def unseenInstances (localAnswer : Except ε (Option ProcessInstanceSnapshot)) (peers : List PeerAnswer) :
    List ProcessInstanceSnapshot :=
  (peerInstances peers).filter fun snapshot => snapshot.processInstanceId ∉ idsOf (localInstance localAnswer)

theorem merged_fanoutProcessInstanceQuery (localAnswer : Except ε (Option ProcessInstanceSnapshot))
    (peers : List PeerAnswer) :
    (fanoutProcessInstanceQuery localAnswer peers).merged =
      localInstance localAnswer ++ unseenInstances localAnswer peers :=
  mergePeers_filter (fun snapshot => snapshot.processInstanceId ∉ idsOf (localInstance localAnswer)) _ _ peers

theorem nodup_localInstance (localAnswer : Except ε (Option ProcessInstanceSnapshot)) :
    (idsOf (localInstance localAnswer)).Nodup := by
  rw [localInstance]
  cases localAnswer.toOption.bind id with
  | none => exact List.nodup_nil
  | some snapshot => exact List.nodup_singleton _

/-- Each instance once, and all that were answered. -/
def MergesAll (localAnswer : Except ε (Option ProcessInstanceSnapshot)) (peers : List PeerAnswer)
    (merged : List ProcessInstanceSnapshot) : Prop :=
  (idsOf merged).Nodup ∧ ∀ id ∈ idsOf (localInstance localAnswer ++ peerInstances peers), id ∈ idsOf merged

theorem fanoutProcessInstanceQuery_mergesAll_iff (localAnswer : Except ε (Option ProcessInstanceSnapshot))
    (peers : List PeerAnswer) :
    MergesAll localAnswer peers (fanoutProcessInstanceQuery localAnswer peers).merged ↔
      (idsOf (unseenInstances localAnswer peers)).Nodup := by
  rw [MergesAll, merged_fanoutProcessInstanceQuery, idsOf_append]
  constructor
  · rintro ⟨hNodup, -⟩
    exact (List.nodup_append.mp hNodup).2.1
  · intro hUnseen
    refine ⟨(nodup_localInstance localAnswer).append hUnseen ?_, fun id hId => ?_⟩
    · intro id hKnown hOther
      obtain ⟨snapshot, hSnapshot, rfl⟩ := List.mem_map.mp hOther
      exact of_decide_eq_true (List.mem_filter.mp hSnapshot).2 hKnown
    · rw [idsOf_append, List.mem_append] at hId
      rw [List.mem_append]
      rcases hId with hKnown | hPeer
      · exact .inl hKnown
      · by_cases hKnown : id ∈ idsOf (localInstance localAnswer)
        · exact .inl hKnown
        · obtain ⟨snapshot, hSnapshot, rfl⟩ := List.mem_map.mp hPeer
          exact .inr (List.mem_map_of_mem (List.mem_filter.mpr ⟨hSnapshot, decide_eq_true hKnown⟩))

/-- Each instance once, all that were answered unless the limit is reached, and no more than the limit. -/
def MergesUpTo (limit : QueryLimit) (localAnswer : Except ε (List ProcessInstanceSnapshot)) (peers : List PeerAnswer)
    (merged : List ProcessInstanceSnapshot) : Prop :=
  (idsOf merged).Nodup ∧
    (∀ id ∈ idsOf (localAnswer.toOption.getD [] ++ peerInstances peers),
      id ∈ idsOf merged ∨ limit.reached merged.length = true) ∧
    merged.length ≤ limit.value

theorem fanoutLimited_mergesUpTo_iff (limit : QueryLimit) (localAnswer : Except ε (List ProcessInstanceSnapshot))
    (peers : List PeerAnswer) :
    MergesUpTo limit localAnswer peers (fanoutLimited limit localAnswer peers).merged ↔
      (idsOf ((localAnswer.toOption.getD [] ++ peerInstances peers).take limit.value)).Nodup := by
  rw [MergesUpTo, merged_fanoutLimited]
  refine and_iff_left ⟨fun id hId => ?_, List.length_take_le _ _⟩
  by_cases hShort : (localAnswer.toOption.getD [] ++ peerInstances peers).length ≤ limit.value
  · rw [List.take_of_length_le hShort]
    exact .inl hId
  · refine .inr (decide_eq_true ?_)
    rw [List.length_take]
    exact le_min (Nat.le_refl _) (Nat.le_of_not_le hShort)

/-- The merged answers name each instance once exactly when no two instances that are taken over name the same. -/
theorem merged_names_once_iff {ε : Type} :
    (∀ (localAnswer : Except ε (Option ProcessInstanceSnapshot)) (peers : List PeerAnswer),
      MergesAll localAnswer peers (fanoutProcessInstanceQuery localAnswer peers).merged ↔
        (idsOf (unseenInstances localAnswer peers)).Nodup) ∧
    (∀ (query : PipelineQuery) (localAnswer : Except ε (List ProcessInstanceSnapshot)) (peers : List PeerAnswer),
      MergesUpTo query.limit localAnswer peers (fanoutPipelineQuery query localAnswer peers).merged ↔
        (idsOf ((localAnswer.toOption.getD [] ++ peerInstances peers).take query.limit.value)).Nodup) ∧
    ∀ (query : ProcessStatusQuery) (localAnswer : Except ε (List ProcessInstanceSnapshot))
      (peers : List PeerAnswer),
      MergesUpTo query.limit localAnswer peers (fanoutProcessStatusQuery query localAnswer peers).merged ↔
        (idsOf ((localAnswer.toOption.getD [] ++ peerInstances peers).take query.limit.value)).Nodup :=
  ⟨fanoutProcessInstanceQuery_mergesAll_iff, fun query => fanoutLimited_mergesUpTo_iff query.limit,
    fun query => fanoutLimited_mergesUpTo_iff query.limit⟩

/-- The answer of a peer that knows the instance. -/
def peerKnowing (peer : String) (ids : List String) : PeerAnswer :=
  (peer, .ok (some (ids.map fun id => peerSnapshot id.toList "pipeline-a".toList .active)))

/-- Two peers that know an instance the node does not know; and a limit used up by a repeated instance. -/
theorem instance_merged_twice :
    idsOf (fanoutProcessInstanceQuery (ε := String) (.ok none)
      [peerKnowing "peer-1" ["instance-a"], peerKnowing "peer-2" ["instance-a"]]).merged =
        [⟨"instance-a"⟩, ⟨"instance-a"⟩] ∧
    idsOf (fanoutPipelineQuery (ε := String) ⟨⟨"pipeline-a"⟩, .new 2⟩ (.ok [])
      [peerKnowing "peer-1" ["instance-a"], peerKnowing "peer-2" ["instance-a", "instance-b"]]).merged =
        [⟨"instance-a"⟩, ⟨"instance-a"⟩] ∧
    ¬MergesAll (ε := String) (.ok none) [peerKnowing "peer-1" ["instance-a"], peerKnowing "peer-2" ["instance-a"]]
      (fanoutProcessInstanceQuery (ε := String) (.ok none)
        [peerKnowing "peer-1" ["instance-a"], peerKnowing "peer-2" ["instance-a"]]).merged := by
  refine ⟨by decide +kernel, by decide +kernel, fun hMerges => ?_⟩
  exact absurd hMerges.1 (by decide +kernel)

end Vannak.Daemon
