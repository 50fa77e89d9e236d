import Vannak.Foundation.Attempts
import Vannak.Cluster.Invariant
import Vannak.Daemon.PlacementChange

/-!
# Bootstrap of the control plane

`initialize_control_plane` of `bin/vannak.rs`, run by any number of nodes at once. Every
attempt acts on the states of its two reads; a refused proposal abandons it. What one
proposal can change is said once, and the interleavings are left to `safe_run`.
-/

namespace Vannak.Daemon

open Foundation Cluster

set_option autoImplicit false

/-! ## The node list -/

/-- `Vec::dedup`: of equal neighbours the first is kept. -/
def dedup {α : Type} [DecidableEq α] : List α → List α
  | first :: second :: rest =>
    if first = second then dedup (second :: rest) else first :: dedup (second :: rest)
  | short => short

/-- The own id and the ids of the peers, sorted and without repeats. -/
def nodeList (peerId : NodeId) (peers : List NodeId) : List NodeId :=
  dedup ((peerId :: peers).insertionSort fun left right => left.asStr ≤ right.asStr)

theorem mem_dedup {α : Type} [DecidableEq α] {items : List α} {item : α} : item ∈ dedup items ↔ item ∈ items := by
  induction items with
  | nil => rfl
  | cons first items ih =>
    cases items with
    | nil => rfl
    | cons second rest =>
      rw [dedup]
      split
      · rename_i hSame
        rw [ih, hSame]
        simp
      · rw [List.mem_cons, ih, ← List.mem_cons]

theorem pairwise_dedup {α : Type} [DecidableEq α] {le : α → α → Prop}
    (hAnti : ∀ left right, le left right → le right left → left = right) {items : List α}
    (h : items.Pairwise le) : (dedup items).Pairwise fun left right => le left right ∧ left ≠ right := by
  induction items with
  | nil => exact List.Pairwise.nil
  | cons first items ih =>
    cases items with
    | nil => exact List.pairwise_singleton _ _
    | cons second rest =>
      obtain ⟨hFirst, hTail⟩ := List.pairwise_cons.mp h
      rw [dedup]
      split
      · exact ih hTail
      · rename_i hApart
        refine List.Pairwise.cons (fun other hOther => ?_) (ih hTail)
        have hMem := mem_dedup.mp hOther
        refine ⟨hFirst other hMem, fun hSame => hApart ?_⟩
        rcases List.mem_cons.mp hMem with hSecond | hRest
        · rw [hSame, hSecond]
        · refine hAnti first second (hFirst second List.mem_cons_self) ?_
          rw [hSame]
          exact (List.pairwise_cons.mp hTail).1 other hRest

/-- Nodes that list the same members attempt with the same list. -/
theorem nodeList_congr {left right : NodeId} {leftPeers rightPeers : List NodeId}
    (h : ∀ node, node ∈ left :: leftPeers ↔ node ∈ right :: rightPeers) :
    nodeList left leftPeers = nodeList right rightPeers := by
  have hAnti : ∀ left right : NodeId, left.asStr ≤ right.asStr → right.asStr ≤ left.asStr → left = right := by
    rintro ⟨left⟩ ⟨right⟩ hLe hGe
    exact congrArg StringId.mk (le_antisymm hLe hGe)
  have : IsTrans NodeId fun left right => left.asStr ≤ right.asStr := ⟨fun _ _ _ => le_trans⟩
  have : Std.Total fun left right : NodeId => left.asStr ≤ right.asStr := ⟨fun _ _ => le_total _ _⟩
  have hSorted : ∀ nodes : List NodeId,
      (dedup (nodes.insertionSort fun left right => left.asStr ≤ right.asStr)).Pairwise
        fun left right => left.asStr ≤ right.asStr ∧ left ≠ right :=
    fun nodes => pairwise_dedup hAnti (List.pairwise_insertionSort _ nodes)
  refine List.Perm.eq_of_pairwise (fun first second _ _ => hAnti first second)
    ((hSorted _).imp And.left) ((hSorted _).imp And.left) ?_
  refine (List.perm_ext_iff_of_nodup ((hSorted _).imp And.right) ((hSorted _).imp And.right)).mpr fun node => ?_
  rw [mem_dedup, mem_dedup, (List.perm_insertionSort _ _).mem_iff, (List.perm_insertionSort _ _).mem_iff]
  exact h node

theorem nodeList_ne_nil (peerId : NodeId) (peers : List NodeId) : nodeList peerId peers ≠ [] := by
  refine List.ne_nil_of_mem (a := peerId) (mem_dedup.mpr ?_)
  exact (List.perm_insertionSort _ _).mem_iff.mpr List.mem_cons_self

/-! ## The attempt -/

abbrev ControlProgram := Program ClusterControlState ClusterControlCommand

/-- The node named like the target, or `nodes[0]`, which panics on an empty list. -/
def holderFor (nodes : List NodeId) (target : IptoInstanceId) : Option NodeId :=
  nodes.head?.map fun first => (nodes.find? fun node => node.asStr = target.asStr).getD first

def addNodes (state : ClusterControlState) : List NodeId → ControlProgram → ControlProgram
  | [], rest => rest
  | node :: nodes, rest =>
    if node ∈ state.nodes then addNodes state nodes rest
    else .propose (.addNode node) (addNodes state nodes rest)

def grantLeases (nodes : List NodeId) (state : ClusterControlState) : List IptoInstanceId → ControlProgram
  | [] => .done
  | target :: targets =>
    if state.writerLease target = none then
      match holderFor nodes target with
      | none => .panicked
      | some holder => .propose (.grantWriterLease { target, holder, epoch := 1 }) (grantLeases nodes state targets)
    else grantLeases nodes state targets

/-- From the second read on; `unwrap` panics without a placement map. -/
def leaseInstances (nodes : List NodeId) : ControlProgram :=
  .read fun state =>
    match state.placementMap with
    | none => .panicked
    | some map => grantLeases nodes state map.instances

/-- One round of the loop of `initialize_control_plane`. -/
def initializeAttempt (placement : IptoPlacementMap) (nodes : List NodeId) : ControlProgram :=
  .read fun state =>
    addNodes state nodes <|
      if state.placementMap = none then .propose (.setIptoPlacementMap placement) (leaseInstances nodes)
      else leaseInstances nodes

/-- Any number of nodes on one control state. -/
def bootstrapStep {ι : Type} [DecidableEq ι] (placement : IptoPlacementMap) (nodes : List NodeId) :
    Sharing ClusterControlState ClusterControlCommand ι → Move ι →
      Option ClusterControlCommand × Sharing ClusterControlState ClusterControlCommand ι :=
  Sharing.step ClusterControlState.apply (initializeAttempt placement nodes)

def bootstrapStart (ι : Type) : Sharing ClusterControlState ClusterControlCommand ι :=
  ⟨ClusterControlState.new, fun _ => .idle⟩

/-! ## What a proposal can change -/

/-- The commands the attempts propose. -/
def Proposed (placement : IptoPlacementMap) (nodes : List NodeId) : ClusterControlCommand → Prop
  | .addNode node => node ∈ nodes
  | .setIptoPlacementMap map => map = placement
  | .grantWriterLease lease => holderFor nodes lease.target = some lease.holder ∧ lease.epoch = 1
  | _ => False

def grantsTo (target : IptoInstanceId) : ClusterControlCommand → Bool
  | .grantWriterLease lease => lease.target = target
  | _ => false

/-- The control state with the commands accepted so far. -/
structure Converging (placement : IptoPlacementMap) (nodes : List NodeId)
    (past : List ClusterControlCommand) (state : ClusterControlState) : Prop where
  proposed : ∀ command ∈ past, Proposed placement nodes command
  consistent : state.Consistent
  maps : ∀ (epoch : PlacementEpoch) (map : IptoPlacementMap),
    state.placementMaps[epoch]? = some map → map = placement
  first_epoch : ∀ target lease, state.writerLease target = some lease → lease.epoch = 1
  granted : ∀ target, past.countP (grantsTo target) = (state.writerLease target).toList.length

/-- Members, the current placement map and the leases are kept. -/
structure Keeps (before after : ClusterControlState) : Prop where
  nodes : ∀ node ∈ before.nodes, node ∈ after.nodes
  placement : ∀ map, before.placementMap = some map → after.placementMap = some map
  leases : ∀ target lease, before.writerLease target = some lease → after.writerLease target = some lease

theorem Keeps.refl (state : ClusterControlState) : Keeps state state :=
  ⟨fun _ => id, fun _ => id, fun _ _ => id⟩

theorem Keeps.trans {first second third : ClusterControlState} (hFirst : Keeps first second)
    (hSecond : Keeps second third) : Keeps first third :=
  ⟨fun node h => hSecond.nodes node (hFirst.nodes node h),
    fun map h => hSecond.placement map (hFirst.placement map h),
    fun target lease h => hSecond.leases target lease (hFirst.leases target lease h)⟩

/-- What an attempt that returns has brought about. -/
structure Initialized (placement : IptoPlacementMap) (nodes : List NodeId) (state : ClusterControlState) :
    Prop where
  members : ∀ node ∈ nodes, node ∈ state.nodes
  placed : state.placementMap = some placement
  leases : ∀ target ∈ placement.instances, ∃ lease, state.writerLease target = some lease

theorem Initialized.keeps {placement : IptoPlacementMap} {nodes : List NodeId}
    {before after : ClusterControlState} (h : Initialized placement nodes before) (hKeeps : Keeps before after) :
    Initialized placement nodes after := by
  refine ⟨fun node hNode => hKeeps.nodes node (h.members node hNode), hKeeps.placement placement h.placed, ?_⟩
  intro target hTarget
  obtain ⟨lease, hLease⟩ := h.leases target hTarget
  exact ⟨lease, hKeeps.leases target lease hLease⟩

section Converging

variable {placement : IptoPlacementMap} {nodes : List NodeId} {past : List ClusterControlCommand}
  {state next : ClusterControlState}

theorem Converging.placementMap_eq (h : Converging placement nodes past state) {map : IptoPlacementMap}
    (hMap : state.placementMap = some map) : map = placement := by
  rw [ClusterControlState.placementMap_eq] at hMap
  obtain ⟨epoch, -, hStored⟩ := Option.bind_eq_some_iff.mp hMap
  exact h.maps epoch map hStored

/-- An accepted proposal keeps the invariant and what is there. -/
theorem Converging.accept (h : Converging placement nodes past state) {command : ClusterControlCommand}
    (hProposed : Proposed placement nodes command)
    (hAccepts : ClusterControlState.Accepts state command next) :
    Converging placement nodes (past ++ [command]) next ∧ Keeps state next := by
  have hCommands : ∀ other ∈ past ++ [command], Proposed placement nodes other := by
    intro other hOther
    rcases List.mem_append.mp hOther with hPast | hLast
    · exact h.proposed other hPast
    · rwa [List.mem_singleton.mp hLast]
  have hConsistent := h.consistent.accepts hAccepts
  cases hAccepts with
  | addNode node =>
    refine ⟨⟨hCommands, hConsistent, h.maps, h.first_epoch, fun target => ?_⟩, ⟨fun other hOther => ?_, ?_, ?_⟩⟩
    · rw [List.countP_append, h.granted target]
      rfl
    · exact Std.ExtTreeSet.mem_insert.mpr (.inr hOther)
    · exact fun _ => id
    · exact fun _ _ => id
  | setIptoPlacementMap map hNewer =>
    obtain rfl : map = placement := hProposed
    refine ⟨⟨hCommands, hConsistent, fun epoch other hOther => ?_, h.first_epoch, fun target => ?_⟩,
      ⟨fun _ => id, fun other hOther => ?_, fun _ _ => id⟩⟩
    · exact forall_getElem?_insert h.maps rfl epoch other (ClusterControlState.getElem?_of_prune hOther)
    · rw [List.countP_append, h.granted target]
      rfl
    · have hBelow := hNewer other hOther
      rw [h.placementMap_eq hOther] at hBelow
      exact absurd hBelow (UInt64.lt_irrefl _)
  | grantWriterLease lease hHolder hNewer =>
    obtain ⟨hNamed, hEpoch⟩ := hProposed
    -- a lease in place has epoch 1 as well, so the grant is a first one
    have hFree : state.writerLease lease.target = none := by
      refine Option.eq_none_iff_forall_ne_some.mpr fun current hCurrent => ?_
      have hBelow := hNewer current hCurrent
      rw [h.first_epoch _ _ hCurrent, hEpoch] at hBelow
      exact UInt64.lt_irrefl _ hBelow
    have hLookup : ∀ target, ClusterControlState.writerLease
        { state with writerLeases := state.writerLeases.insert lease.target lease } target =
          if lease.target = target then some lease else state.writerLease target :=
      fun target => getElem?_insert_ite _ _ _ _
    refine ⟨⟨hCommands, hConsistent, h.maps, fun target other hOther => ?_, fun target => ?_⟩,
      ⟨fun _ => id, fun _ => id, ?_⟩⟩
    · rw [hLookup] at hOther
      split at hOther
      · exact Option.some.inj hOther ▸ hEpoch
      · exact h.first_epoch target other hOther
    · rw [List.countP_append, h.granted target, hLookup, List.countP_singleton]
      by_cases hTarget : lease.target = target
      · subst hTarget
        rw [if_pos rfl, hFree]
        simp [grantsTo]
      · simp [grantsTo, hTarget]
    · intro target other hOther
      rw [hLookup, if_neg]
      · exact hOther
      · rintro rfl
        rw [hFree] at hOther
        cases hOther
  | removeNode | recordOutboxCheckpoint | recordSealedSegment | recordCheckpoint => cases hProposed

theorem Converging.apply (h : Converging placement nodes past state) {command : ClusterControlCommand}
    (hProposed : Proposed placement nodes command) (hApply : state.apply command = (.ok (), next)) :
    Converging placement nodes (past ++ [command]) next ∧ Keeps state next := by
  rcases state.apply_cases command with ⟨after, hAfter, hAccepts⟩ | ⟨error, hRefused⟩
  · rw [hApply] at hAfter
    cases hAfter
    exact h.accept hProposed hAccepts
  · rw [hApply] at hRefused
    cases hRefused

theorem Converging.placementMap_set (h : Converging placement nodes past state)
    (hApply : state.apply (.setIptoPlacementMap placement) = (.ok (), next)) :
    next.placementMap = some placement := by
  rcases state.apply_cases (.setIptoPlacementMap placement) with ⟨after, hAfter, hAccepts⟩ | ⟨error, hRefused⟩
  · rw [hApply] at hAfter
    cases hAfter
    cases hAccepts with
    | setIptoPlacementMap _ hNewer => exact ClusterControlState.placementMap_insert h.consistent hNewer _
  · rw [hApply] at hRefused
    cases hRefused

end Converging

/-! ## The attempt is safe -/

section Safe

variable {placement : IptoPlacementMap} {nodes : List NodeId}

/-- Safety of the rest of an attempt, against the other nodes. -/
abbrev SafeFrom (placement : IptoPlacementMap) (nodes : List NodeId) :
    ClusterControlState → ControlProgram → Prop :=
  Safe ClusterControlState.apply (Converging placement nodes) Keeps (Initialized placement nodes)

theorem safe_addNodes {seen shared : ClusterControlState} {items : List NodeId} {rest : ControlProgram}
    (hItems : ∀ node ∈ items, node ∈ nodes) (hSeen : Keeps seen shared)
    (hRest : ∀ later, Keeps shared later → (∀ node ∈ items, node ∈ later.nodes) →
      SafeFrom placement nodes later rest) :
    SafeFrom placement nodes shared (addNodes seen items rest) := by
  induction items generalizing shared with
  | nil => exact hRest shared (Keeps.refl shared) (by simp)
  | cons node items ih =>
    obtain ⟨hNode, hItems⟩ := List.forall_mem_cons.mp hItems
    rw [addNodes]
    split
    · rename_i hMember
      refine ih hItems hSeen fun later hLater hAdded => hRest later hLater ?_
      exact List.forall_mem_cons.mpr ⟨hLater.nodes node (hSeen.nodes node hMember), hAdded⟩
    · intro past later after hLater hConverging hApply
      obtain ⟨hNext, hKeeps⟩ := hConverging.apply (show Proposed placement nodes (.addNode node) from hNode) hApply
      have hMember : node ∈ after.nodes := by
        cases hApply
        exact Std.ExtTreeSet.mem_insert_self
      have hAfter := hLater.trans hKeeps
      refine ⟨hNext, hKeeps, ih hItems (hSeen.trans hAfter) fun last hLast hAdded => ?_⟩
      exact hRest last (hAfter.trans hLast) (List.forall_mem_cons.mpr ⟨hLast.nodes node hMember, hAdded⟩)

theorem exists_holderFor (hNodes : nodes ≠ []) (target : IptoInstanceId) :
    ∃ holder, holderFor nodes target = some holder := by
  obtain ⟨first, rest, rfl⟩ := List.exists_cons_of_ne_nil hNodes
  exact ⟨_, rfl⟩

theorem safe_grantLeases (hNodes : nodes ≠ []) {seen shared : ClusterControlState}
    {targets : List IptoInstanceId} (hSeen : Keeps seen shared)
    (hEnd : ∀ later, Keeps shared later →
      (∀ target ∈ targets, ∃ lease, later.writerLease target = some lease) → Initialized placement nodes later) :
    SafeFrom placement nodes shared (grantLeases nodes seen targets) := by
  induction targets generalizing shared with
  | nil => exact hEnd shared (Keeps.refl shared) (by simp)
  | cons target targets ih =>
    rw [grantLeases]
    split
    · obtain ⟨holder, hHolder⟩ := exists_holderFor hNodes target
      simp only [hHolder]
      intro past later after hLater hConverging hApply
      obtain ⟨hNext, hKeeps⟩ := hConverging.apply
        (show Proposed placement nodes (.grantWriterLease _) from ⟨hHolder, rfl⟩) hApply
      have hLease : ∃ lease, after.writerLease target = some lease := by
        have hGranted := hNext.granted target
        rw [List.countP_append, List.countP_singleton] at hGranted
        cases hStored : after.writerLease target with
        | some lease => exact ⟨lease, rfl⟩
        | none =>
          rw [hStored] at hGranted
          simp [grantsTo] at hGranted
      have hAfter := hLater.trans hKeeps
      refine ⟨hNext, hKeeps, ih (hSeen.trans hAfter) fun last hLast hLeases => ?_⟩
      obtain ⟨lease, hLease⟩ := hLease
      exact hEnd last (hAfter.trans hLast)
        (List.forall_mem_cons.mpr ⟨⟨lease, hLast.leases target lease hLease⟩, hLeases⟩)
    · rename_i hTaken
      obtain ⟨lease, hLease⟩ := Option.ne_none_iff_exists'.mp hTaken
      refine ih hSeen fun later hLater hLeases => hEnd later hLater ?_
      have hKept := hLater.leases target lease (hSeen.leases target lease hLease)
      exact List.forall_mem_cons.mpr ⟨⟨lease, hKept⟩, hLeases⟩

/-- With the members and the placement in place the second read finds a map. -/
theorem safe_leaseInstances (hNodes : nodes ≠ []) {shared : ClusterControlState}
    (hMembers : ∀ node ∈ nodes, node ∈ shared.nodes) (hPlacement : shared.placementMap = some placement) :
    SafeFrom placement nodes shared (leaseInstances nodes) := by
  intro past later hLater hConverging
  simp only [hLater.placement placement hPlacement]
  refine safe_grantLeases hNodes (Keeps.refl later) fun last hLast hLeases => ⟨fun node hNode => ?_, ?_, hLeases⟩
  · exact hLast.nodes node (hLater.nodes node (hMembers node hNode))
  · exact hLast.placement placement (hLater.placement placement hPlacement)

theorem safe_initializeAttempt (hNodes : nodes ≠ []) (past : List ClusterControlCommand)
    (shared : ClusterControlState) (_ : Converging placement nodes past shared) :
    SafeFrom placement nodes shared (initializeAttempt placement nodes) := by
  intro seenPast seen _ hSeen
  refine safe_addNodes (fun node => id) (Keeps.refl seen) fun later hLater hMembers => ?_
  split
  · intro past last after hLast hConverging hApply
    obtain ⟨hNext, hKeeps⟩ := hConverging.apply
      (show Proposed placement nodes (.setIptoPlacementMap placement) from rfl) hApply
    refine ⟨hNext, hKeeps, safe_leaseInstances hNodes (fun node hNode => ?_) ?_⟩
    · exact hKeeps.nodes node (hLast.nodes node (hMembers node hNode))
    · exact hConverging.placementMap_set hApply
  · rename_i hPlaced
    obtain ⟨map, hMap⟩ := Option.ne_none_iff_exists'.mp hPlaced
    obtain rfl := hSeen.placementMap_eq hMap
    exact safe_leaseInstances hNodes hMembers (hLater.placement _ hMap)

end Safe

theorem converging_start (ι : Type) (placement : IptoPlacementMap) (nodes : List NodeId) :
    Converging placement nodes [] (bootstrapStart ι).shared := by
  refine ⟨by simp, ClusterControlState.consistent_new, fun epoch map hMap => ?_, fun target lease hLease => ?_,
    fun target => ?_⟩
  · simp [bootstrapStart, ClusterControlState.new] at hMap
  · simp [bootstrapStart, ClusterControlState.new, ClusterControlState.writerLease] at hLease
  · simp [bootstrapStart, ClusterControlState.new, ClusterControlState.writerLease]

theorem bootstrap_safe {ι : Type} [DecidableEq ι] (placement : IptoPlacementMap) {nodes : List NodeId}
    (hNodes : nodes ≠ []) (moves : List (Move ι)) :
    (run (bootstrapStep placement nodes) (bootstrapStart ι) moves).2.AllSafe ClusterControlState.apply
      (Converging placement nodes) Keeps (Initialized placement nodes)
      (run (bootstrapStep placement nodes) (bootstrapStart ι) moves).1 := by
  refine safe_run Keeps.refl (fun _ _ _ => Keeps.trans) (fun _ _ hKeeps h => h.keeps hKeeps) ?_
    (safe_initializeAttempt hNodes) (converging_start ι placement nodes) (fun _ => rfl) moves
  intro state command error after hRefused
  rcases state.apply_cases command with ⟨next, hAccepted, -⟩ | ⟨other, hSame⟩
  · rw [hAccepted] at hRefused
    cases hRefused
  · rw [hSame] at hRefused
    exact (Prod.mk.inj hRefused).2.symm

/-- The holder is the node named like the target, or else the first of the list. -/
theorem holderFor_eq_some {nodes : List NodeId} {target : IptoInstanceId} {holder : NodeId}
    (h : holderFor nodes target = some holder) :
    (holder ∈ nodes ∧ holder.asStr = target.asStr) ∨
      (∀ node ∈ nodes, node.asStr ≠ target.asStr) ∧ nodes.head? = some holder := by
  obtain ⟨first, hFirst, rfl⟩ := Option.map_eq_some_iff.mp h
  cases hFound : nodes.find? fun node => node.asStr = target.asStr with
  | some node =>
    have hName := List.find?_some hFound
    exact .inl ⟨List.mem_of_find?_eq_some hFound, of_decide_eq_true hName⟩
  | none =>
    refine .inr ⟨fun node hNode hName => ?_, hFirst⟩
    exact absurd hName (by simpa using List.find?_eq_none.mp hFound node hNode)

/-- Whatever the interleaving and whichever calls fail: one grant per target and to the
right holder, one placement map, no panic, and after the first attempt that returns the
control plane is initialized for good. -/
theorem concurrent_bootstrap_converges {k : ℕ} (placement : IptoPlacementMap) (nodes : List NodeId)
    (hNodes : nodes ≠ []) (moves : List (Move (Fin k))) :
    let past := (run (bootstrapStep placement nodes) (bootstrapStart (Fin k)) moves).1
    let system := (run (bootstrapStep placement nodes) (bootstrapStart (Fin k)) moves).2
    (∀ target, (accepted past).countP (grantsTo target) ≤ 1) ∧
      (∀ lease, .grantWriterLease lease ∈ accepted past →
        (lease.holder ∈ nodes ∧ lease.holder.asStr = lease.target.asStr) ∨
          (∀ node ∈ nodes, node.asStr ≠ lease.target.asStr) ∧ nodes.head? = some lease.holder) ∧
      (∀ map, .setIptoPlacementMap map ∈ accepted past → map = placement) ∧
      (∀ (epoch : PlacementEpoch) (map : IptoPlacementMap),
        system.shared.placementMaps[epoch]? = some map → map = placement) ∧
      (∀ process, system.processes process ≠ .attempting .panicked) ∧
      ∀ process, (system.processes process).returned = true → ∀ later : List (Move (Fin k)),
        Initialized placement nodes
          (run (bootstrapStep placement nodes) (bootstrapStart (Fin k)) (moves ++ later)).2.shared := by
  intro past system
  have hSafe := bootstrap_safe placement hNodes moves
  refine ⟨fun target => ?_, fun lease hLease => ?_, fun map hMap => ?_, fun epoch map hMap => ?_, ?_, ?_⟩
  · rw [hSafe.holds.granted target]
    cases system.shared.writerLease target <;> simp
  · exact holderFor_eq_some (hSafe.holds.proposed _ hLease).1
  · exact hSafe.holds.proposed _ hMap
  · exact hSafe.holds.maps epoch map hMap
  · intro process hPanicked
    exact hSafe.safe process .panicked hPanicked
  · intro process hDone later
    have hLater : (run (bootstrapStep placement nodes) (bootstrapStart (Fin k)) (moves ++ later)).2.processes
        process = .attempting .done := by
      rw [run_append]
      exact done_forever (Process.returned_iff.mp hDone) later
    exact (bootstrap_safe placement hNodes (moves ++ later)).safe process .done hLater

def twoNodes : List NodeId := nodeList ⟨"node-1"⟩ [⟨"node-2"⟩]

def onlyMap : IptoPlacementMap := singleSlotMap 1 [] noOverrides_sorted noOverrides_before

/-- Both nodes read the empty state; the second loses the answer to its last `AddNode`
and finds everything done when it starts again. -/
def racingMoves : List (Move (Fin 2)) :=
  [.start 0, .start 1, .call 0 .answered, .call 1 .answered, .call 0 .answered, .call 1 .answered,
    .call 0 .answered, .call 1 .lostAnswer, .call 0 .answered, .start 1, .call 0 .answered,
    .call 1 .answered, .call 0 .answered, .call 1 .answered]

theorem concurrent_bootstrap_converges_racing :
    (∀ process, ((run (bootstrapStep onlyMap twoNodes) (bootstrapStart (Fin 2)) racingMoves).2.processes
        process).returned = true) ∧
      Initialized onlyMap twoNodes
        (run (bootstrapStep onlyMap twoNodes) (bootstrapStart (Fin 2)) (racingMoves ++ [])).2.shared := by
  have hReturned : ∀ process,
      ((run (bootstrapStep onlyMap twoNodes) (bootstrapStart (Fin 2)) racingMoves).2.processes process).returned =
        true := by
    decide +kernel
  refine ⟨hReturned, ?_⟩
  exact (concurrent_bootstrap_converges onlyMap twoNodes (nodeList_ne_nil _ _) racingMoves).2.2.2.2.2 0
    (hReturned 0) []

end Vannak.Daemon
