import Vannak.Daemon.PostedEvents

/-!
# Posted provenance

A provenance event that is posted to the daemon is accepted once for its idempotency key, and the
metadata queries of a client are answered from what was accepted, in the order in which it was,
whatever else the daemon does and however often it is started again.
-/

namespace Vannak.Daemon

open Foundation Storage Ingest Ipto Process Vannak.Runtime Service

set_option autoImplicit false

variable {config : SitasRuntimeConfig} {ω : Type}

namespace DaemonSetup

/-- The provenance event of a connection that posted one and was answered that it is accepted. -/
def acceptedFact? (setup : DaemonSetup config) :
    DaemonStep config × Option Bytes → Option DataIndividualMetadataEvent
  | (.connection connection, answer) => if saysAccepted answer then setup.postedMetadata connection else none
  | _ => none

def acceptedFacts (setup : DaemonSetup config) (history : List (DaemonStep config × Option Bytes)) :
    List DataIndividualMetadataEvent :=
  history.filterMap setup.acceptedFact?

theorem acceptedFacts_concat (setup : DaemonSetup config) (past : List (DaemonStep config × Option Bytes))
    (call : DaemonStep config × Option Bytes) :
    setup.acceptedFacts (past ++ [call]) = setup.acceptedFacts past ++ (setup.acceptedFact? call).toList := by
  rw [acceptedFacts, List.filterMap_append]
  refine congrArg (_ ++ ·) ?_
  cases hCall : setup.acceptedFact? call <;> simp [hCall]

theorem acceptedFacts_concat_none (setup : DaemonSetup config) (past : List (DaemonStep config × Option Bytes))
    {call : DaemonStep config × Option Bytes} (h : setup.acceptedFact? call = none) :
    setup.acceptedFacts (past ++ [call]) = setup.acceptedFacts past := by
  rw [acceptedFacts_concat, h, Option.toList_none, List.append_nil]

end DaemonSetup

/-- The segment, the provenance index and the keys of the outbox are those of these facts. -/
structure KeepsFacts (facts : List DataIndividualMetadataEvent) (service : MetadataService) : Prop where
  records : ∃ records, Reflects service records ∧ factsOf records = facts
  skipsNothing : SkipsNothing service
  distinct : (keysOf facts).Nodup
  node : ∃ node, service.node = some node

/-- The capture has put a write into the outbox. -/
def Enqueued (result : Except CaptureError MetadataCaptureResult) : Prop :=
  ∃ target offset, result = .ok ⟨target, .enqueued offset⟩

section Facts

variable {facts : List DataIndividualMetadataEvent} {service : MetadataService}

theorem fileFirst_foldl {facts log : List DataIndividualMetadataEvent} (h : (keysOf (log ++ facts)).Nodup) :
    facts.foldl DataIndividualMetadataEvent.fileFirst log = log ++ facts := by
  induction facts generalizing log with
  | nil => exact (List.append_nil log).symm
  | cons event facts ih =>
    have hSplit : log ++ event :: facts = log ++ [event] ++ facts := by simp
    have hFresh : event.idempotencyKey ∉ keysOf log := by
      rw [keysOf, List.map_append, List.nodup_append] at h
      intro hMem
      exact h.2.2 _ hMem _ List.mem_cons_self rfl
    rw [List.foldl_cons, DataIndividualMetadataEvent.fileFirst]
    rw [hSplit] at h ⊢
    exact (congrArg (facts.foldl DataIndividualMetadataEvent.fileFirst) (if_neg hFresh)).trans (ih h)

/-- The index has filed every fact. -/
theorem KeepsFacts.indexes (h : KeepsFacts facts service) : service.provenanceIndex.Indexes facts := by
  obtain ⟨records, hReflects, rfl⟩ := h.records
  have hFiled : (factsOf records).foldl DataIndividualMetadataEvent.fileFirst [] = factsOf records :=
    fileFirst_foldl h.distinct
  have hAll := DataProvenanceIndex.indexes_empty.ingestAll (factsOf records)
  rw [hFiled] at hAll
  rw [hReflects.provenance]
  exact hAll

theorem KeepsFacts.mem_entries_iff (h : KeepsFacts facts service) (key : IdempotencyKey) :
    key ∈ service.metadataOutbox.outbox.entries ↔ key ∈ keysOf facts := by
  obtain ⟨records, hReflects, -⟩ := h.records
  rw [← h.indexes.mem_iff key]
  exact ⟨hReflects.known key, h.skipsNothing key⟩

theorem KeepsFacts.of_placement (h : KeepsFacts facts service) (placementMap : Cluster.IptoPlacementMap) :
    KeepsFacts facts { service with placementMap } := by
  obtain ⟨records, hReflects, hFacts⟩ := h.records
  exact ⟨⟨records, hReflects.of_stored rfl rfl fun _ => Iff.rfl, hFacts⟩, h.skipsNothing, h.distinct, h.node⟩

theorem KeepsFacts.of_recorded (h : KeepsFacts facts service) {outbox : MetadataOutbox}
    (hRecorded : outbox.recorded = service.metadataOutbox.outbox.recorded) :
    KeepsFacts facts (service.withOutbox outbox) := by
  obtain ⟨records, hReflects, hFacts⟩ := h.records
  obtain ⟨hNext, hAll⟩ := hReflects.of_recorded hRecorded
  exact ⟨⟨records, hNext, hFacts⟩, hAll h.skipsNothing, h.distinct, h.node⟩

/-- What is enqueued was unknown, and is filed afterwards. -/
theorem KeepsFacts.enqueueCapture (h : KeepsFacts facts service) (event : DataIndividualMetadataEvent)
    (target : IptoInstanceId) :
    (¬Enqueued (service.enqueueCapture event target).1 ∧
      KeepsFacts facts (service.enqueueCapture event target).2) ∨
    (Enqueued (service.enqueueCapture event target).1 ∧
      KeepsFacts (facts ++ [event]) (service.enqueueCapture event target).2) := by
  obtain ⟨records, hReflects, hFacts⟩ := h.records
  have hAll := (hReflects.enqueueCapture event target).2 h.skipsNothing
  have hNode := (node_enqueueCapture service event target).trans h.node.choose_spec
  rcases enqueueCapture_cases service event target with
    ⟨hKnown, hResult⟩ | ⟨hFresh, hSized, next, hResult, -, hNext⟩ | ⟨-, error, hResult⟩
  · have hSame := DataProvenanceIndex.ingest_of_mem (hReflects.known _ hKnown)
    rw [hResult] at hAll hNode ⊢
    refine .inl ⟨by simp [Enqueued], ⟨records, ?_, hFacts⟩, hAll, h.distinct, _, hNode⟩
    exact hReflects.of_stored rfl hSame fun _ => Iff.rfl
  · have hKeys : event.idempotencyKey ∉ keysOf facts := (h.mem_entries_iff _).not.mp hFresh
    have hEntries := @MetadataOutbox.mem_entries_enqueueWithOffset _ (.fromEvent event target service.mapping) hFresh
      (some service.metadataOutbox.writer.byteLen)
    have hLast : factsOf [(IptoWritePayload.fromEvent event target service.mapping).encode] = [event] := by
      rw [factsOf, List.filterMap_cons, decode_encode hSized]
      rfl
    rw [hResult] at hAll hNode ⊢
    refine .inr ⟨⟨_, _, rfl⟩, ⟨_, ⟨hNext records hReflects.holds, ?_, ?_, fun key hStored => ?_⟩, ?_⟩, hAll, ?_, _, hNode⟩
    · exact List.forall_mem_append.mpr ⟨hReflects.facts, List.forall_mem_singleton.mpr (carriesOwnFact_fromEvent hSized)⟩
    · rw [provenanceOf_concat hSized, ← hReflects.provenance]
    · exact (DataProvenanceIndex.mem_ingest ..).mpr (((hEntries key).mp hStored).imp_right (hReflects.known key))
    · rw [factsOf_append, hFacts, hLast]
    · rw [keysOf_concat]
      exact List.concat_eq_append ▸ h.distinct.concat hKeys
  · rw [hResult]
    exact .inl ⟨by simp [Enqueued], h⟩

theorem KeepsFacts.captureStep (h : KeepsFacts facts service) (call : CaptureCall) :
    (¬Enqueued (captureStep service call).1 ∧ KeepsFacts facts (captureStep service call).2) ∨
    (Enqueued (captureStep service call).1 ∧
      KeepsFacts (facts ++ [call.event]) (captureStep service call).2) := by
  obtain ⟨node, hNode⟩ := h.node
  rcases capture_gate hNode call with
    ⟨error, placementMap, -, hCapture⟩ | ⟨state, target, placementMap, -, -, hCapture⟩
  · rw [hCapture]
    exact .inl ⟨by simp [Enqueued], h.of_placement placementMap⟩
  · rw [hCapture]
    exact (h.of_placement placementMap).enqueueCapture call.event target

theorem KeepsFacts.drain (h : KeepsFacts facts service) (writer : IptoWriter ω) (control : Cluster.ClusterControlState)
    (nodeId : NodeId) (target : IptoInstanceId) (remote : ω) (maxAttempts : Nat) :
    KeepsFacts facts
      (service.drainMetadataForTargetIfLeaseHeld writer control nodeId target remote maxAttempts).2.1 := by
  have hRecorded := MetadataOutbox.recorded_drain service.metadataOutbox.outbox
    (fun outbox remote => outbox.recorded_deliver writer (outbox.nextPendingForTarget target) remote)
    maxAttempts ⟨0, 0, 0, false⟩ remote
  rw [MetadataService.drainMetadataForTargetIfLeaseHeld]
  split
  · exact h
  · split
    · exact h
    · exact h.of_recorded hRecorded

/-- What is opened has the facts of the file that is found, and those of a new file are none. -/
theorem keepsFacts_openOutbox {texts : Texts} {options : StartOptions} {metadata : MetadataService} (nodeId : NodeId) :
    (openOutbox texts options none = .ok metadata → KeepsFacts [] (metadata.setControlPlane nodeId)) ∧
    (KeepsFacts facts service → openOutbox texts options (some service.metadataOutbox.writer.file) = .ok metadata →
      KeepsFacts facts (metadata.setControlPlane nodeId)) := by
  constructor
  · intro hOpen
    rw [openOutbox] at hOpen
    obtain ⟨hHolds, hOutbox, hProvenance⟩ := create_eq_ok (ok_of_mapError hOpen)
    refine ⟨⟨[], ⟨hHolds, by simp, hProvenance, ?_⟩, rfl⟩, ?_, List.nodup_nil, nodeId, rfl⟩
    · simp [MetadataService.setControlPlane, hOutbox, MetadataOutbox.new]
    · simp [SkipsNothing, MetadataService.setControlPlane, hProvenance, DataProvenanceIndex.new]
  · intro h hOpen
    obtain ⟨records, hReflects, hFacts⟩ := h.records
    rw [hReflects.holds.file] at hOpen
    cases hRecover : MetadataService.recoverAfter options.placement options.mapping (segmentBytes records)
        options.outboxPath options.outboxSegmentId options.nodeId none with
    | error error =>
      rw [openOutbox, hRecover] at hOpen
      cases hOpen
    | ok recovered =>
      rw [openOutbox, hRecover] at hOpen
      cases hOpen
      obtain ⟨hNext, hAll⟩ := reflects_recoverAfter hReflects.holds.sized hReflects.facts hRecover
      exact ⟨⟨records, hNext.of_stored rfl rfl fun _ => Iff.rfl, hFacts⟩, hAll rfl, h.distinct, nodeId, rfl⟩

end Facts

/-! ## Runs -/

/-- What a metadata query finds among these facts. -/
def scanFacts (facts : List DataIndividualMetadataEvent) : QueryRequest → Option (List DataIndividualMetadataEvent)
  | .dataIndividualMetadata query =>
    some ((facts.filter fun event => event.dataIndividualId = query.dataIndividualId).take query.limit.value)
  | .processMetadata query =>
    some ((facts.filter fun event => event.processInstanceId = query.processInstanceId).take query.limit.value)
  | .activityMetadata query =>
    some ((facts.filter fun event => event.processInstanceId = query.processInstanceId ∧
      event.activityId = some query.activityId).take query.limit.value)
  | .processInstance _ | .pipeline _ | .processStatus _ => none

section Runs

variable (setup : DaemonSetup config) (writer : IptoWriter ω)

theorem keepsFacts_step (hPrints : Prints setup.texts.toText) (past : List (DaemonStep config × Option Bytes))
    (state : DaemonState config ω) (step : DaemonStep config)
    (hPosts : KeepsPosts (setup.acceptedPosts past) state.supervisor)
    (h : KeepsFacts (setup.acceptedFacts past) state.metadata) :
    KeepsFacts (setup.acceptedFacts (past ++ [(step, (setup.daemonStep writer state step).1)]))
      (setup.daemonStep writer state step).2.metadata := by
  obtain ⟨journal, journaled, hJournal, hHolds, -⟩ := hPosts.journal
  cases step with
  | connection connection =>
    rw [setup.acceptedFacts_concat, DaemonSetup.acceptedFact?]
    rcases setup.connection_cases writer state (by simp [hJournal]) connection with
      ⟨event, -, hPosted, hStep⟩ | ⟨event, hPosted, -, hStep⟩ | ⟨-, hPosted, hStep⟩
    · rw [hPosted, ite_self, Option.toList_none, List.append_nil, hStep]
      exact h
    · have hSays := saysAccepted_captureAnswer hPrints (captureStep state.metadata ⟨connection.read, event⟩).1
      rw [hStep, hPosted]
      rcases h.captureStep ⟨connection.read, event⟩ with ⟨hOther, hKeeps⟩ | ⟨hEnqueued, hKeeps⟩
      · rw [if_neg (mt hSays.mp hOther), Option.toList_none, List.append_nil]
        exact hKeeps
      · rw [if_pos (hSays.mpr hEnqueued)]
        exact hKeeps
    · rw [hPosted, ite_self, Option.toList_none, List.append_nil, hStep]
      exact h
  | submit record =>
    rw [setup.acceptedFacts_concat_none past rfl]
    exact h
  | resubmit index =>
    rw [setup.acceptedFacts_concat_none past rfl]
    exact h
  | work shard =>
    rw [setup.acceptedFacts_concat_none past rfl]
    exact h
  | serveTarget control target maxAttempts =>
    rw [setup.acceptedFacts_concat_none past rfl, DaemonSetup.daemonStep]
    have hRetried := h.of_recorded (MetadataOutbox.recorded_retryFailedForTarget _ target)
    split
    · exact h
    · exact hRetried.drain writer control setup.nodeId target state.remote maxAttempts
  | restart options =>
    rw [setup.acceptedFacts_concat_none past rfl]
    rcases setup.restart_cases writer hJournal hHolds options with
      hSame | ⟨next, runtime, metadata, hOpen, hNext, -, -⟩
    · rw [hSame]
      exact h
    · rw [hNext]
      exact (keepsFacts_openOutbox options.nodeId).2 h hOpen

/-- What clients were told to be accepted is kept. -/
def KeepsAccepted (past : List (DaemonStep config × Option Bytes)) (state : DaemonState config ω) : Prop :=
  KeepsPosts (setup.acceptedPosts past) state.supervisor ∧ KeepsFacts (setup.acceptedFacts past) state.metadata

theorem keepsAccepted_step (hPrints : Prints setup.texts.toText) (past : List (DaemonStep config × Option Bytes))
    (state : DaemonState config ω) (step : DaemonStep config) (h : KeepsAccepted setup past state) :
    KeepsAccepted setup (past ++ [(step, (setup.daemonStep writer state step).1)])
      (setup.daemonStep writer state step).2 :=
  ⟨keepsPosts_step setup writer hPrints past state step h.1,
    keepsFacts_step setup writer hPrints past state step h.1 h.2⟩

theorem answer_of_scanFacts {facts : List DataIndividualMetadataEvent} {service : VannakService config}
    (h : KeepsFacts facts service.metadata) {request : QueryRequest} {found : List DataIndividualMetadataEvent}
    (hFound : scanFacts facts request = some found) :
    answerOf setup.mapAll setup.texts service request =
      setup.texts.toText (metadataEventsJson setup.texts.debug found) := by
  have hIndexes := h.indexes
  cases request with
  | dataIndividualMetadata query =>
    have hScan : itemsOf (fun event => some event.dataIndividualId) query.dataIndividualId facts =
        facts.filter fun event => event.dataIndividualId = query.dataIndividualId := by
      refine List.filter_congr fun event _ => ?_
      simp
    cases hFound
    rw [← hScan, ← hIndexes.query_eq hIndexes.individuals]
    rfl
  | processMetadata query =>
    have hScan : itemsOf (fun event => some event.processInstanceId) query.processInstanceId facts =
        facts.filter fun event => event.processInstanceId = query.processInstanceId := by
      refine List.filter_congr fun event _ => ?_
      simp
    cases hFound
    rw [← hScan, ← hIndexes.query_eq hIndexes.processes]
    rfl
  | activityMetadata query =>
    have hScan : itemsOf DataIndividualMetadataEvent.activityKey (query.processInstanceId, query.activityId) facts =
        facts.filter fun event => event.processInstanceId = query.processInstanceId ∧
          event.activityId = some query.activityId := by
      refine List.filter_congr fun event _ => ?_
      rw [DataIndividualMetadataEvent.activityKey]
      cases event.activityId <;> simp
    cases hFound
    rw [← hScan, ← hIndexes.query_eq hIndexes.activities]
    rfl
  | processInstance query => cases hFound
  | pipeline query => cases hFound
  | processStatus query => cases hFound

/-- In every run of a daemon, over restarts, drains and other clients as well, a metadata query is answered from the
provenance events that clients were told to be accepted: the matching ones in the order of their acceptance, as many
as the limit allows. None of them is accepted twice. -/
theorem facts_answer_queries (hPrints : Prints setup.texts.toText) {options : StartOptions}
    {service : VannakService config}
    (hStart : startService setup.texts options setup.mapAll none none = .ok service) (remote : ω)
    (steps : List (DaemonStep config)) :
    ∃ history state, run (setup.daemonStep writer) (.ofService service [] remote) steps = (history, state) ∧
      (keysOf (setup.acceptedFacts history)).Nodup ∧
      ∀ connection body request found,
        readRequest setup.daemonConfig connection.stream = some (.query body) →
        queryRequest setup.texts.parse body = .ok request →
        scanFacts (setup.acceptedFacts history) request = some found →
        (setup.daemonStep writer state (.connection connection)).1 = some (writeJsonResponse
          ("200 OK", setup.texts.toText (metadataEventsJson setup.texts.debug found))) := by
  have hFresh : KeepsFacts (setup.acceptedFacts []) (DaemonState.ofService service [] remote).metadata := by
    have hOpens : OpensJournal config setup.texts options none [] := opensJournal_none
    rcases @startService_cases _ _ _ setup.mapAll _ _ hOpens none with
      ⟨error, hFails⟩ | ⟨next, runtime, metadata, hOpen, hStarted, -, -⟩
    · rw [hFails] at hStart
      cases hStart
    · rw [hStarted] at hStart
      cases hStart
      exact (@keepsFacts_openOutbox [] metadata _ _ _ options.nodeId).1 hOpen
  have hKeeps := run_history (keepsAccepted_step setup writer hPrints) ⟨keepsPosts_start setup hStart remote, hFresh⟩
    steps
  refine ⟨_, _, rfl, hKeeps.2.distinct, fun connection body request found hRead hRequest hFound => ?_⟩
  rw [DaemonSetup.daemonStep, Handlers.handleHealthRequest, hRead]
  dsimp only [Handlers.serve, DaemonSetup.handlers]
  have hAnswer := @answer_of_scanFacts _ setup
    _ (run (setup.daemonStep writer) (.ofService service [] remote) steps).2.service hKeeps.2 _ _ hFound
  rw [handleQueryRequest, hRequest]
  exact congrArg (fun body => some (writeJsonResponse ("200 OK", body))) hAnswer

end Runs

/-! ### A provenance event that is posted, and asked for after a restart -/

def sampleFact : DataIndividualMetadataEvent :=
  .new ⟨"meta-1"⟩ ⟨"data-1"⟩ 5 ⟨"tenant"⟩ ⟨"prod"⟩ ⟨"pipeline"⟩ ⟨"instance"⟩ ⟨"2026-06-30T10:00:00Z"⟩ .received

def factQuery : Json := .ofFields [("type", .string "ProcessMetadata"), ("process_instance_id", .string "instance"),
  ("limit", .number 10)]

def factSetup : DaemonSetup twoShards := sampleSetup
  [(compactText (metadataRequest sampleFact), metadataRequest sampleFact), (compactText factQuery, factQuery)]

/-- `node-a` has the lease of the only instance. -/
def postsFact : Connection :=
  { sending (postRequest "/ingest/metadata" (compactText (metadataRequest sampleFact))) with
    read := .ok grantingState }

theorem facts_answer_queries_restarted :
    ∃ service history state,
      startService factSetup.texts sampleStart factSetup.mapAll none none = .ok service ∧
      run (factSetup.daemonStep acceptingWriter) (.ofService service [] ())
        [.connection postsFact, .restart sampleStart] = (history, state) ∧
      (keysOf (factSetup.acceptedFacts history)).Nodup ∧
      ∀ connection body request found,
        readRequest factSetup.daemonConfig connection.stream = some (.query body) →
        queryRequest factSetup.texts.parse body = .ok request →
        scanFacts (factSetup.acceptedFacts history) request = some found →
        (factSetup.daemonStep acceptingWriter state (.connection connection)).1 = some (writeJsonResponse
          ("200 OK", factSetup.texts.toText (metadataEventsJson factSetup.texts.debug found))) := by
  obtain ⟨service, hStart⟩ := @startService_fresh twoShards factSetup.texts sampleStart factSetup.mapAll (by decide)
  obtain ⟨history, state, hRun⟩ := facts_answer_queries factSetup acceptingWriter prints_compactText hStart ()
    [.connection postsFact, .restart sampleStart]
  exact ⟨service, history, state, hStart, hRun⟩

end Vannak.Daemon
