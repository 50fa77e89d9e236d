import Vannak.Daemon.Health
import Vannak.Service.CrashRecovery
import Vannak.Service.Restart

/-!
# The daemon at work

A daemon from one process start to the next: `run` of `vannak.rs` opens the segments that it
finds, the health endpoint serves connections, a Kafka consumer and the mailbox workers feed the
index, and the background writer drains the outbox. All of them share the service under one lock,
so that a run is a sequence of such steps. What the clients see are the bytes of the answers.
-/

namespace Vannak.Service

open Foundation Ingest Process Vannak.Runtime

set_option autoImplicit false

theorem Supervisor.refused_ingestProcessEventDurable {config : SitasRuntimeConfig} (supervisor : Supervisor config)
    (event : PipelineEvent) : (supervisor.ingestProcessEventDurable event).2.refused = supervisor.refused := by
  rw [Supervisor.ingestProcessEventDurable]
  repeat' split
  all_goals rfl

/-- With a journal the public ingest is the durable one of the supervisor. -/
theorem VannakService.ingestProcessEventConfigured_ofSupervisor {config : SitasRuntimeConfig}
    {supervisor : Supervisor config} (h : supervisor.processEventJournal.isSome) (metadata : MetadataService)
    (event : PipelineEvent) :
    (VannakService.ofSupervisor supervisor metadata).ingestProcessEventConfigured event =
      ((supervisor.ingestProcessEventDurable event).1.map DurableProcessIngestResult.outcome,
        .ofSupervisor (supervisor.ingestProcessEventDurable event).2 metadata) := by
  have hConfigured : (VannakService.ofSupervisor supervisor metadata).processEventJournal.isSome = true := h
  rw [ingestProcessEventConfigured, if_pos hConfigured, ingestProcessEventDurable_ofSupervisor]

end Vannak.Service

namespace Vannak.Daemon

open Foundation Storage Ingest Ipto Cluster Process Vannak.Runtime Service

set_option autoImplicit false

/-! ## Starting -/

/-- What `run` makes of its configuration. -/
structure StartOptions where
  placement : IptoPlacementMap
  mapping : IptoMapping
  outboxPath : PathBuf
  outboxSegmentId : SegmentId
  nodeId : NodeId
  journalPath : PathBuf

section Start

variable {config : SitasRuntimeConfig} (texts : Texts) (options : StartOptions)

/-- The outbox that is found is recovered without a checkpoint. -/
def openOutbox (existing : Option Bytes) : Except String MetadataService :=
  match existing with
  | some file =>
    ((MetadataService.recoverAfter options.placement options.mapping file options.outboxPath options.outboxSegmentId
      options.nodeId none).map Prod.fst).mapError (·.display texts.io)
  | none =>
    (MetadataService.create options.placement options.mapping none options.outboxPath options.outboxSegmentId
      options.nodeId).mapError (·.display texts.io)

/-- A journaled event goes through `ingest_process_event` of the service. -/
def replayIntoService (service : VannakService config) (event : JournaledPipelineEvent) :
    Except String (VannakService config) :=
  match service.ingestProcessEvent event.event with
  | (.error error, _) => .error (error.display texts.io)
  | (.ok _, service) => .ok service

def openJournal (existing : Option Bytes) (service : VannakService config) : Except String (VannakService config) :=
  match existing with
  | some file => do
    let (journal, replay) ← (ProcessEventJournal.recover file options.journalPath ⟨"process-journal"⟩
      options.nodeId).mapError (·.display texts.io)
    return (← replay.events.foldlM (replayIntoService texts) service).withProcessEventJournal journal
  | none => do
    let journal ← (ProcessEventJournal.create none options.journalPath ⟨"process-journal"⟩
      options.nodeId).mapError (·.display texts.io)
    return service.withProcessEventJournal journal

/-- `run` up to the daemon, over the content of the two files. -/
def startService (mapAll : ∀ β : Type, SitasShardRuntime.MapAll config β) (outbox journal : Option Bytes) :
    Except String (VannakService config) := do
  let metadata ← openOutbox texts options outbox
  match (VannakService.new metadata).withSitasRuntime (mapAll _) (.start config) with
  | none => .error "attach Sitas before replay or ingest"
  | some service =>
    if options.journalPath = options.outboxPath then
      .error "journal and metadata outbox must use different files"
    else
      let service ← openJournal texts options journal service
      return { service with metadata := service.metadata.setControlPlane options.nodeId }

end Start

/-! ## Steps -/

/-- A daemon with what its Kafka consumer keeps, and the Ipto side. -/
structure DaemonState (config : SitasRuntimeConfig) (ω : Type) where
  supervisor : Supervisor config
  metadata : MetadataService
  remote : ω

/-- A connection: what the client sends, the id for an event without one, what a read of the control state returns,
and what the health document is made of besides the service. -/
structure Connection where
  stream : Stream
  generatedId : EventId
  read : Except String ClusterControlState
  backgroundWriter : Option BackgroundWriterSnapshot
  uptime : Nat

inductive DaemonStep (config : SitasRuntimeConfig) where
  | connection (connection : Connection)
  | submit (record : KafkaProcessRecord)
  | resubmit (index : Nat)
  | work (shard : Fin config.shardCount)
  | serveTarget (control : ClusterControlState) (target : IptoInstanceId) (maxAttempts : Nat)
  | restart (options : StartOptions)

namespace DaemonState

variable {config : SitasRuntimeConfig} {ω : Type}

def service (state : DaemonState config ω) : VannakService config := .ofSupervisor state.supervisor state.metadata

/-- A service of `run` has a Sitas runtime. -/
def ofService (service : VannakService config) (refused : List KafkaPendingRecord) (remote : ω) :
    DaemonState config ω where
  supervisor :=
    { hotIndex := match service.hotIndex with
        | .sitasIndex hotIndex => hotIndex
        | .localIndex _ => .start config
      processEventJournal := service.processEventJournal
      refused }
  metadata := service.metadata
  remote := remote

end DaemonState

/-- The daemon as far as it does not change. -/
structure DaemonSetup (config : SitasRuntimeConfig) where
  texts : Texts
  mapAll : ∀ β : Type, SitasShardRuntime.MapAll config β
  daemonConfig : DaemonConfig
  nodeId : NodeId

namespace DaemonSetup

variable {config : SitasRuntimeConfig} {ω : Type} (setup : DaemonSetup config)

def handlers (connection : Connection) : Handlers (VannakService config) where
  handleMetadataIngestRequest := handleMetadataIngestRequest setup.texts connection.read
  handleIngestRequest := handleIngestRequest setup.texts connection.generatedId
  handleQueryRequest := handleQueryRequest setup.mapAll setup.texts
  buildHealthJson service :=
    buildHealthJson setup.texts (some (service.snapshot (setup.mapAll _))) connection.backgroundWriter
      connection.uptime

/-- The answer is what the client of a connection gets. The records of the Kafka consumer come again after a restart;
one that fails leaves nothing running, and the state before it stands in for that. -/
def daemonStep (writer : IptoWriter ω) (state : DaemonState config ω) :
    DaemonStep config → Option Bytes × DaemonState config ω
  | .connection connection =>
    let (answer, service) :=
      (setup.handlers connection).handleHealthRequest setup.daemonConfig state.service connection.stream
    (answer, .ofService service state.supervisor.refused state.remote)
  | .submit record => (none, { state with supervisor := (supervisorStep state.supervisor (.submit record)).2 })
  | .resubmit index => (none, { state with supervisor := (supervisorStep state.supervisor (.resubmit index)).2 })
  | .work shard => (none, { state with supervisor := (supervisorStep state.supervisor (.work shard)).2 })
  | .serveTarget control target maxAttempts =>
    if (control.writerLease target).all (·.holder ≠ setup.nodeId) then (none, state)
    else
      let metadata := state.metadata.withOutbox (state.metadata.metadataOutbox.outbox.retryFailedForTarget target).2
      let (_, metadata, remote) :=
        metadata.drainMetadataForTargetIfLeaseHeld writer control setup.nodeId target state.remote maxAttempts
      (none, { state with metadata, remote })
  | .restart options =>
    match startService setup.texts options setup.mapAll (some state.metadata.metadataOutbox.writer.file)
        (state.supervisor.processEventJournal.map fun journal => journal.writer.file) with
    | .error _ => (none, state)
    | .ok service => (none, .ofService service [] state.remote)

/-! ## What a connection does -/

/-- The event that a connection posts. -/
def postedEvent (connection : Connection) : Option PipelineEvent :=
  match readRequest setup.daemonConfig connection.stream with
  | some (.ingest body) => parseIngestEventJson setup.texts connection.generatedId body
  | _ => none

/-- The provenance event that a connection posts. -/
def postedMetadata (connection : Connection) : Option DataIndividualMetadataEvent :=
  match readRequest setup.daemonConfig connection.stream with
  | some (.ingestMetadata body) => (parseMetadataEventJson setup.texts body).toOption
  | _ => none

end DaemonSetup

namespace DaemonState

variable {config : SitasRuntimeConfig} {ω : Type}

theorem ofService_ofSupervisor (supervisor : Supervisor config) (metadata : MetadataService) (remote : ω) :
    ofService (.ofSupervisor supervisor metadata) supervisor.refused remote = ⟨supervisor, metadata, remote⟩ := rfl

end DaemonState

namespace DaemonSetup

variable {config : SitasRuntimeConfig} {ω : Type} (setup : DaemonSetup config) (writer : IptoWriter ω)

/-- A connection posts an event, posts a provenance event, or leaves the service as it is. -/
theorem connection_cases (state : DaemonState config ω) (hJournal : state.supervisor.processEventJournal.isSome)
    (connection : Connection) :
    (∃ event, setup.postedEvent connection = some event ∧ setup.postedMetadata connection = none ∧
      setup.daemonStep writer state (.connection connection) =
        (some (writeJsonResponse (ingestAnswer setup.texts
          ((state.supervisor.ingestProcessEventDurable event).1.map DurableProcessIngestResult.outcome))),
          { state with supervisor := (state.supervisor.ingestProcessEventDurable event).2 })) ∨
    (∃ event, setup.postedMetadata connection = some event ∧ setup.postedEvent connection = none ∧
      setup.daemonStep writer state (.connection connection) =
        (some (writeJsonResponse (captureAnswer setup.texts (captureStep state.metadata ⟨connection.read, event⟩).1)),
          { state with metadata := (captureStep state.metadata ⟨connection.read, event⟩).2 })) ∨
    (setup.postedEvent connection = none ∧ setup.postedMetadata connection = none ∧
      (setup.daemonStep writer state (.connection connection)).2 = state) := by
  have hSame := DaemonState.ofService_ofSupervisor state.supervisor state.metadata state.remote
  rw [daemonStep, Handlers.handleHealthRequest, postedEvent, postedMetadata]
  cases hRequest : readRequest setup.daemonConfig connection.stream with
  | none => exact .inr (.inr ⟨rfl, rfl, hSame⟩)
  | some request =>
    cases request with
    | ingest body =>
      dsimp only [Handlers.serve, handlers]
      rw [handleIngestRequest]
      cases hEvent : parseIngestEventJson setup.texts connection.generatedId body with
      | none => exact .inr (.inr ⟨rfl, rfl, hSame⟩)
      | some event =>
        refine .inl ⟨event, rfl, rfl, ?_⟩
        simp only [DaemonState.service, VannakService.ingestProcessEventConfigured_ofSupervisor hJournal]
        rw [← Supervisor.refused_ingestProcessEventDurable state.supervisor event, DaemonState.ofService_ofSupervisor]
    | ingestMetadata body =>
      dsimp only [Handlers.serve, handlers]
      rw [handleMetadataIngestRequest]
      cases hEvent : parseMetadataEventJson setup.texts body with
      | error error => exact .inr (.inr ⟨rfl, rfl, hSame⟩)
      | ok event => exact .inr (.inl ⟨event, rfl, rfl, rfl⟩)
    | query body => exact .inr (.inr ⟨rfl, rfl, hSame⟩)
    | unreadable answer => exact .inr (.inr ⟨rfl, rfl, hSame⟩)
    | health => exact .inr (.inr ⟨rfl, rfl, hSame⟩)
    | notFound => exact .inr (.inr ⟨rfl, rfl, hSame⟩)

end DaemonSetup

/-! ## What a restart does -/

section Restarting

variable {config : SitasRuntimeConfig} {texts : Texts} {options : StartOptions}
  {mapAll : ∀ β : Type, SitasShardRuntime.MapAll config β}

theorem foldlM_replayIntoService {events : List JournaledPipelineEvent}
    (h : ∀ event ∈ events, event.event.validate = .ok ()) (runtime : SitasShardRuntime config)
    (journal : Option ProcessEventJournal) (metadata : MetadataService) :
    ∃ final, events.foldlM (replayIntoService texts) ⟨.sitasIndex runtime, journal, metadata⟩ =
        .ok ⟨.sitasIndex final, journal, metadata⟩ ∧
      ∀ shard, final.hotIndex shard =
        (runtime.hotIndex shard).ingestAll (onShard shard (events.map JournaledPipelineEvent.event)) := by
  obtain ⟨final, hFinal, hIndexes⟩ := foldlM_replayInto h runtime
  refine ⟨final, ?_, hIndexes⟩
  clear hIndexes
  induction events generalizing runtime with
  | nil =>
    cases hFinal
    rfl
  | cons event events ih =>
    obtain ⟨hEvent, hEvents⟩ := List.forall_mem_cons.mp h
    obtain ⟨next, hNext, hRest⟩ := ok_of_bind hFinal
    have hStep : replayIntoService texts ⟨.sitasIndex runtime, journal, metadata⟩ event =
        .ok ⟨.sitasIndex next, journal, metadata⟩ := by
      rw [replayInto] at hNext
      rw [replayIntoService, VannakService.ingestProcessEvent]
      simp only [ProcessIndex.ingest]
      rcases hIngest : runtime.ingest event.event with ⟨error | outcome, index⟩
      · rw [hIngest] at hNext
        cases hNext
      · rw [hIngest] at hNext
        cases hNext
        rfl
    rw [List.foldlM_cons, hStep]
    exact ih hEvents next hRest

variable (config texts options) in
/-- A start with this journal file gives a journal of these events, and their index. -/
def OpensJournal (file : Option Bytes) (journaled : List PipelineEvent) : Prop :=
  ∀ metadata, ∃ next runtime, openJournal texts options file
      (⟨.sitasIndex (.start config), none, metadata⟩ : VannakService config) =
        .ok ⟨.sitasIndex runtime, some next, metadata⟩ ∧
    next.Holds journaled ∧
    ∀ shard, runtime.hotIndex shard = HotIndex.new.ingestAll (onShard shard journaled)

/-- Without a file the journal is a new one. -/
theorem opensJournal_none : OpensJournal config texts options none [] := by
  intro metadata
  obtain ⟨writer, hCreate, hWriter⟩ :=
    SegmentWriter.holds_create options.journalPath ⟨"process-journal"⟩ options.nodeId
  refine ⟨⟨writer⟩, .start config, ?_, ⟨by simp, hWriter⟩, fun shard => rfl⟩
  rw [openJournal, ProcessEventJournal.create, hCreate]
  rfl

/-- The journal that is found is replayed into the index and continued. -/
theorem opensJournal_some {journal : ProcessEventJournal} {journaled : List PipelineEvent}
    (h : journal.Holds journaled) : OpensJournal config texts options (some journal.writer.file) journaled := by
  intro metadata
  obtain ⟨next, replay, hRecover, hNext, hEvents⟩ :=
    recover_holds h options.journalPath ⟨"process-journal"⟩ options.nodeId
  have hValid : ∀ event ∈ replay.events, event.event.validate = .ok () := by
    intro event hEvent
    exact h.valid _ (hEvents ▸ List.mem_map_of_mem hEvent)
  obtain ⟨runtime, hReplayed, hIndexes⟩ := @foldlM_replayIntoService config texts _ hValid (.start config) none metadata
  refine ⟨next, runtime, ?_, hNext, fun shard => ?_⟩
  · rw [openJournal, hRecover]
    exact ok_bind hReplayed _
  · rw [hIndexes, hEvents]
    rfl

/-- A service without events takes a runtime. -/
theorem withSitasRuntime_new (metadata : MetadataService)
    (mapAll : SitasShardRuntime.MapAll config HotIndexSnapshot) (runtime : SitasShardRuntime config) :
    (VannakService.new metadata).withSitasRuntime mapAll runtime = some ⟨.sitasIndex runtime, none, metadata⟩ := by
  rw [VannakService.withSitasRuntime, if_neg]
  · rfl
  · simp [VannakService.new, ProcessIndex.snapshot, HotIndex.snapshot, HotIndex.new]

theorem startService_eq {journal outbox : Option Bytes} {metadata : MetadataService} {next : ProcessEventJournal}
    {runtime : SitasShardRuntime config} (hPaths : options.journalPath ≠ options.outboxPath)
    (hOutbox : openOutbox texts options outbox = .ok metadata)
    (hOpened : openJournal texts options journal ⟨.sitasIndex (.start config), none, metadata⟩ =
      .ok ⟨.sitasIndex runtime, some next, metadata⟩) :
    startService texts options mapAll outbox journal =
      .ok ⟨.sitasIndex runtime, some next, metadata.setControlPlane options.nodeId⟩ := by
  have hAttached := withSitasRuntime_new metadata (mapAll _) (.start config)
  rw [startService, hOutbox]
  simp only [hAttached, bind, Except.bind, if_neg hPaths, hOpened]
  rfl

/-- A start fails, or it is a start on what the two files hold. -/
theorem startService_cases {journal : Option Bytes} {journaled : List PipelineEvent}
    (h : OpensJournal config texts options journal journaled) (outbox : Option Bytes) :
    (∃ error, (startService texts options mapAll outbox journal : Except String (VannakService config)) =
      .error error) ∨
    ∃ next runtime metadata, openOutbox texts options outbox = .ok metadata ∧
      startService texts options mapAll outbox journal =
        .ok ⟨.sitasIndex runtime, some next, metadata.setControlPlane options.nodeId⟩ ∧
      next.Holds journaled ∧
      ∀ shard : Fin config.shardCount,
        runtime.hotIndex shard = HotIndex.new.ingestAll (onShard shard journaled) := by
  cases hOutbox : openOutbox texts options outbox with
  | error error =>
    rw [startService, hOutbox]
    exact .inl ⟨error, rfl⟩
  | ok metadata =>
    by_cases hPaths : options.journalPath = options.outboxPath
    · have hAttached := withSitasRuntime_new metadata (mapAll _) (.start config)
      refine .inl ⟨"journal and metadata outbox must use different files", ?_⟩
      rw [startService, hOutbox]
      simp only [hAttached, bind, Except.bind, if_pos hPaths]
    · obtain ⟨next, runtime, hOpened, hNext, hIndexes⟩ := h metadata
      exact .inr ⟨next, runtime, metadata, rfl, startService_eq hPaths hOutbox hOpened, hNext, hIndexes⟩

/-- Without files a start fails only because both are to be one. -/
theorem startService_fresh (hPaths : options.journalPath ≠ options.outboxPath) :
    ∃ service : VannakService config, startService texts options mapAll none none = .ok service := by
  obtain ⟨writer, hCreate, -⟩ := SegmentWriter.holds_create options.outboxPath options.outboxSegmentId options.nodeId
  have hOutbox : openOutbox texts options none = .ok (.new options.placement options.mapping ⟨.new, writer⟩) := by
    rw [openOutbox, MetadataService.create, SegmentBackedMetadataOutbox.create, hCreate]
    rfl
  have hOpens : OpensJournal config texts options none [] := opensJournal_none
  obtain ⟨next, runtime, hOpened, -, -⟩ := hOpens (.new options.placement options.mapping ⟨.new, writer⟩)
  exact ⟨_, startService_eq hPaths hOutbox hOpened⟩

end Restarting

theorem DaemonSetup.restart_cases {config : SitasRuntimeConfig} {ω : Type} (setup : DaemonSetup config)
    (writer : IptoWriter ω) {state : DaemonState config ω} {journal : ProcessEventJournal}
    {journaled : List PipelineEvent} (hJournal : state.supervisor.processEventJournal = some journal)
    (hHolds : journal.Holds journaled) (options : StartOptions) :
    (setup.daemonStep writer state (.restart options)).2 = state ∨
    ∃ next runtime metadata,
      openOutbox setup.texts options (some state.metadata.metadataOutbox.writer.file) = .ok metadata ∧
      (setup.daemonStep writer state (.restart options)).2 =
        ⟨⟨runtime, some next, []⟩, metadata.setControlPlane options.nodeId, state.remote⟩ ∧
      next.Holds journaled ∧
      ∀ shard : Fin config.shardCount,
        runtime.hotIndex shard = HotIndex.new.ingestAll (onShard shard journaled) := by
  rw [daemonStep, hJournal, Option.map_some]
  have hOpens : OpensJournal config setup.texts options (some journal.writer.file) journaled := opensJournal_some hHolds
  rcases @startService_cases _ _ _ setup.mapAll _ _ hOpens (some state.metadata.metadataOutbox.writer.file) with
    ⟨error, hStart⟩ | ⟨next, runtime, metadata, hOutbox, hStart, hNext, hIndexes⟩
  · rw [hStart]
    exact .inl rfl
  · rw [hStart]
    exact .inr ⟨next, runtime, metadata, hOutbox, rfl, hNext, hIndexes⟩

/-! ## What a client is told -/

def acceptedStart : List Char := "\x7b\"status\":\"accepted\"".toList

/-- The body of the answer says that what was posted is accepted. -/
def saysAccepted (answer : Option Bytes) : Bool :=
  match answer.map fun bytes => readAnswer ⟨bytes, .closed⟩ with
  | some (.ok (some body)) => acceptedStart.isPrefixOf body.toList
  | _ => false

section Answers

variable {texts : Texts}

theorem saysAccepted_writeJsonResponse {status : String} (h : '\n' ∉ status.toList) (body : String) :
    saysAccepted (some (writeJsonResponse (status, body))) = acceptedStart.isPrefixOf body.toList := by
  rw [saysAccepted, Option.map_some, @readAnswer_writeJsonResponse (status, body) h]

/-- An object whose first field is the status. -/
theorem print_status_first (status : String) (fields : List (String × Json)) :
    ∃ rest, (Json.object (("status", .string status) :: fields)).print =
      '\x7b' :: (quoted "status".toList ++ ':' :: (quoted status.toList ++ rest)) := by
  cases fields with
  | nil => exact ⟨['\x7d'], by simp [Json.print, Json.printFields]⟩
  | cons field fields =>
    refine ⟨',' :: (Json.printFields (field :: fields) ++ ['\x7d']), ?_⟩
    rw [Json.print, Json.printFields.eq_3 _ _ _ (by simp), Json.print]
    simp

theorem not_isPrefixOf_errorJson (hPrints : Prints texts.toText) (error : String) :
    acceptedStart.isPrefixOf (texts.errorJson error).toList = false := by
  have hKey : quoted "error".toList = ['\x22', 'e', 'r', 'r', 'o', 'r', '\x22'] := by decide
  have hStart : acceptedStart = ['\x7b', '\x22', 's'] ++ acceptedStart.drop 3 := by decide
  rw [Texts.errorJson, hPrints, Json.print, Json.printFields, hKey, hStart]
  rfl

/-- An answer of status 200, 400 or 503. -/
theorem saysAccepted_of_status {status : String}
    (h : status ∈ ["200 OK", "400 Bad Request", "503 Service Unavailable"]) (body : String) :
    saysAccepted (some (writeJsonResponse (status, body))) = acceptedStart.isPrefixOf body.toList := by
  have hLines : ∀ status ∈ ["200 OK", "400 Bad Request", "503 Service Unavailable"], '\n' ∉ status.toList := by decide
  exact saysAccepted_writeJsonResponse (hLines status h) body

theorem saysAccepted_ingestAnswer (hPrints : Prints texts.toText) (outcome : Except VannakServiceError IngestOutcome) :
    saysAccepted (some (writeJsonResponse (ingestAnswer texts outcome))) = true ↔ outcome = .ok .accepted := by
  have hError := not_isPrefixOf_errorJson hPrints
  rcases outcome with error | ⟨⟨⟩ | ⟨⟩⟩
  · have hRefused : saysAccepted (some (writeJsonResponse (ingestAnswer texts (.error error)))) = false := by
      cases error <;> exact (saysAccepted_of_status (by simp) _).trans (hError _)
    simp [hRefused]
  · rw [ingestAnswer, saysAccepted_of_status (by simp)]
    decide
  · rw [ingestAnswer, saysAccepted_of_status (by simp)]
    decide

theorem saysAccepted_captureAnswer (hPrints : Prints texts.toText)
    (result : Except CaptureError MetadataCaptureResult) :
    saysAccepted (some (writeJsonResponse (captureAnswer texts result))) = true ↔
      ∃ target offset, result = .ok ⟨target, .enqueued offset⟩ := by
  have hError := not_isPrefixOf_errorJson hPrints
  have hText (target : IptoInstanceId) (status : String) : ∃ rest, (texts.toText (.ofFields
      [("status", .string status), ("target", .string target.asStr)])).toList =
        '\x7b' :: (quoted "status".toList ++ ':' :: (quoted status.toList ++ rest)) := by
    have hOrder : "status" ≤ "target" := by decide
    have hSorted : Json.ofFields [("status", .string status), ("target", .string target.asStr)] =
        .object [("status", .string status), ("target", .string target.asStr)] := by
      simp [Json.ofFields, List.insertionSort, hOrder]
    rw [hPrints, hSorted]
    exact print_status_first status _
  rcases result with error | ⟨target, ⟨offset⟩ | ⟨⟩⟩
  · rw [captureAnswer, Texts.serviceErrorResponse, saysAccepted_of_status (by simp), hError]
    simp
  · obtain ⟨rest, hRest⟩ := hText target "accepted"
    have hStart : '\x7b' :: (quoted "status".toList ++ ':' :: (quoted "accepted".toList ++ rest)) =
        acceptedStart ++ rest := by
      have hQuoted : '\x7b' :: (quoted "status".toList ++ ':' :: quoted "accepted".toList) = acceptedStart := by decide
      rw [← hQuoted]
      simp
    rw [captureAnswer, saysAccepted_of_status (by simp), if_neg (by simp), hRest, hStart]
    simp
  · obtain ⟨rest, hRest⟩ := hText target "duplicate"
    rw [captureAnswer, saysAccepted_of_status (by simp), if_pos rfl, hRest]
    have hAccepted : acceptedStart = "\x7b\"status\":\"".toList ++ 'a' :: "ccepted\"".toList := by decide
    have hDuplicate : '\x7b' :: (quoted "status".toList ++ ':' :: (quoted "duplicate".toList ++ rest)) =
        "\x7b\"status\":\"".toList ++ 'd' :: ("uplicate\"".toList ++ rest) := by
      have hQuoted : '\x7b' :: (quoted "status".toList ++ ':' :: quoted "duplicate".toList) =
          "\x7b\"status\":\"".toList ++ 'd' :: "uplicate\"".toList := by decide
      have hAppended := congrArg (· ++ rest) hQuoted
      simpa using hAppended
    rw [hDuplicate, hAccepted, List.isPrefixOf_iff_prefix, List.prefix_append_right_inj, List.cons_prefix_cons]
    simp

end Answers

end Vannak.Daemon
