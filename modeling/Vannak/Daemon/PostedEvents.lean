import Vannak.Daemon.Answers

/-!
# Posted events

An event that is posted to the daemon is accepted at most once, whatever else the daemon does and
however often it is started again; it is in the journal from then on.
-/

namespace Vannak.Daemon

open Foundation Storage Ingest Ipto Process Vannak.Runtime Service

set_option autoImplicit false

variable {config : SitasRuntimeConfig} {ω : Type}

namespace DaemonSetup

/-- The event of a connection that posted one and was answered that it is accepted. -/
def acceptedPost? (setup : DaemonSetup config) : DaemonStep config × Option Bytes → Option PipelineEvent
  | (.connection connection, answer) => if saysAccepted answer then setup.postedEvent connection else none
  | _ => none

def acceptedPosts (setup : DaemonSetup config) (history : List (DaemonStep config × Option Bytes)) :
    List PipelineEvent :=
  history.filterMap setup.acceptedPost?

end DaemonSetup

/-- What an index tells events apart by. -/
def placedId (config : SitasRuntimeConfig) (event : PipelineEvent) : Fin config.shardCount × EventId :=
  (SitasShardRuntime.shardFor config event.processInstanceId, event.eventId)

/-- The accepted events are journaled in order, known to the index, and different. -/
structure KeepsPosts (accepted : List PipelineEvent) (supervisor : Supervisor config) : Prop where
  journal : ∃ journal journaled, supervisor.processEventJournal = some journal ∧ journal.Holds journaled ∧
    accepted.Sublist journaled
  known : ∀ event ∈ accepted, supervisor.hotIndex.containsEvent event.processInstanceId event.eventId = true
  distinct : (accepted.map (placedId config)).Nodup

/-! ## The index only grows -/

/-- Every shard knows the events that it knew. -/
def Grows (before after : SitasShardRuntime config) : Prop :=
  ∀ shard, ∀ id ∈ (before.hotIndex shard).eventsById, id ∈ (after.hotIndex shard).eventsById

theorem Grows.containsEvent {before after : SitasShardRuntime config} (h : Grows before after)
    {processInstanceId : ProcessInstanceId} {eventId : EventId}
    (hKnown : before.containsEvent processInstanceId eventId = true) :
    after.containsEvent processInstanceId eventId = true :=
  decide_eq_true (h _ _ (of_decide_eq_true hKnown))

theorem grows_ingestOn (runtime : SitasShardRuntime config) (shard : Fin config.shardCount) (event : PipelineEvent) :
    Grows runtime (runtime.ingestOn shard event).2 := by
  intro other id hId
  rw [SitasShardRuntime.hotIndex_ingestOn]
  split
  · rename_i hShard
    subst hShard
    exact (HotIndex.mem_eventsById_ingest _ event id).mpr (.inl hId)
  · exact hId

theorem grows_of_hotIndex_eq {before after : SitasShardRuntime config} (h : after.hotIndex = before.hotIndex) :
    Grows before after := by
  intro shard id hId
  rwa [h]

theorem grows_workerStep (runtime : SitasShardRuntime config) (shard : Fin config.shardCount) :
    Grows runtime (runtime.workerStep shard).2 := by
  rw [SitasShardRuntime.workerStep]
  cases runtime.mailbox shard with
  | nil => exact grows_of_hotIndex_eq rfl
  | cons event rest => exact grows_ingestOn runtime shard event

theorem hotIndex_trySubmit (runtime : SitasShardRuntime config) (event : PipelineEvent) :
    (runtime.trySubmit event).2.hotIndex = runtime.hotIndex := by
  cases hValid : event.validate with
  | error error =>
    rw [SitasShardRuntime.trySubmit, hValid]
  | ok =>
    rcases runtime.trySubmit_of_valid hValid with ⟨-, capacity, hSubmit⟩ | ⟨-, outcome, hSubmit⟩
    · rw [hSubmit]
    · rw [hSubmit]

/-! ## Steps -/

section Steps

variable {accepted : List PipelineEvent} {supervisor : Supervisor config}

theorem KeepsPosts.of_grows (h : KeepsPosts accepted supervisor) {next : Supervisor config}
    (hGrows : Grows supervisor.hotIndex next.hotIndex)
    (hJournal : ∀ journal journaled, supervisor.processEventJournal = some journal → journal.Holds journaled →
      ∃ journal more, next.processEventJournal = some journal ∧ journal.Holds (journaled ++ more)) :
    KeepsPosts accepted next where
  journal := by
    obtain ⟨journal, journaled, hSome, hHolds, hSublist⟩ := h.journal
    obtain ⟨longer, more, hNext, hLonger⟩ := hJournal journal journaled hSome hHolds
    exact ⟨longer, journaled ++ more, hNext, hLonger, hSublist.trans (List.sublist_append_left ..)⟩
  known event hEvent := hGrows.containsEvent (h.known event hEvent)
  distinct := h.distinct

/-- A record of the consumer is journaled at most once more, and the index is left to the workers. -/
theorem submitted_grows {journal : ProcessEventJournal} {journaled : List PipelineEvent} (h : journal.Holds journaled)
    (runtime : SitasShardRuntime config) (pending : KafkaPendingRecord) :
    (trySubmitKafkaPendingRecord runtime (some journal) pending).runtime.hotIndex = runtime.hotIndex ∧
      ∃ next more, (trySubmitKafkaPendingRecord runtime (some journal) pending).journal = some next ∧
        next.Holds (journaled ++ more) := by
  have hOnce : ∃ result next more, journalOnce (some journal) pending = (result, some next) ∧
      next.Holds (journaled ++ more) := by
    have hKept : journal.Holds (journaled ++ []) := by rwa [List.append_nil]
    cases hOffset : pending.journalOffset with
    | some offset => exact ⟨.ok pending, journal, [], by simp only [journalOnce, hOffset], hKept⟩
    | none =>
      rcases h.appendDurable pending.record.event with ⟨-, offset, next, hAppend, hNext⟩ | ⟨error, hAppend⟩
      · exact ⟨.ok { pending with journalOffset := some offset }, next, _, by simp only [journalOnce, hOffset, hAppend],
          hNext⟩
      · exact ⟨.error error, journal, [], by simp only [journalOnce, hOffset, hAppend], hKept⟩
  obtain ⟨result, next, more, hOnce, hNext⟩ := hOnce
  rw [trySubmitKafkaPendingRecord, hOnce]
  cases result with
  | error error => exact ⟨rfl, next, more, rfl, hNext⟩
  | ok written =>
    have hSame := hotIndex_trySubmit runtime written.record.event
    dsimp only
    split
    · rename_i hSubmit
      rw [hSubmit] at hSame
      exact ⟨hSame, next, more, rfl, hNext⟩
    · rename_i hSubmit
      rw [hSubmit] at hSame
      exact ⟨hSame, next, more, rfl, hNext⟩
    · rename_i hSubmit
      rw [hSubmit] at hSame
      exact ⟨hSame, next, more, rfl, hNext⟩

theorem containsEvent_ingest {event : PipelineEvent} (h : event.validate = .ok ()) (runtime : SitasShardRuntime config) :
    (runtime.ingest event).2.containsEvent event.processInstanceId event.eventId = true := by
  rw [SitasShardRuntime.containsEvent, SitasShardRuntime.ingest, SitasShardRuntime.hotIndex_ingestOn, if_pos rfl]
  exact decide_eq_true ((HotIndex.mem_eventsById_ingest _ event _).mpr (.inr ⟨h, rfl⟩))

/-- What is accepted was unknown, and is journaled and known afterwards. -/
theorem KeepsPosts.ingestDurable (h : KeepsPosts accepted supervisor) (event : PipelineEvent) :
    ((supervisor.ingestProcessEventDurable event).1.map DurableProcessIngestResult.outcome ≠ .ok .accepted ∧
      KeepsPosts accepted (supervisor.ingestProcessEventDurable event).2) ∨
    ((supervisor.ingestProcessEventDurable event).1.map DurableProcessIngestResult.outcome = .ok .accepted ∧
      KeepsPosts (accepted ++ [event]) (supervisor.ingestProcessEventDurable event).2) := by
  obtain ⟨journal, journaled, hJournal, hHolds, hSublist⟩ := h.journal
  rw [Supervisor.ingestProcessEventDurable]
  cases hValid : event.validate with
  | error error => exact .inl ⟨by simp [Except.map], h⟩
  | ok =>
    simp only [hJournal]
    by_cases hKnown : supervisor.hotIndex.containsEvent event.processInstanceId event.eventId = true
    · rw [if_pos hKnown]
      exact .inl ⟨by simp [Except.map], h⟩
    · rw [if_neg hKnown]
      rcases hHolds.appendDurable event with ⟨-, offset, next, hAppend, hNext⟩ | ⟨error, hAppend⟩
      · have hFresh : event.eventId ∉
            (supervisor.hotIndex.hotIndex (SitasShardRuntime.shardFor config event.processInstanceId)).eventsById :=
          fun hMem => hKnown (decide_eq_true hMem)
        obtain ⟨runtime, hIngest⟩ : ∃ runtime, supervisor.hotIndex.ingest event = (.ok .accepted, runtime) := by
          rw [SitasShardRuntime.ingest, SitasShardRuntime.ingestOn, HotIndex.ingest, hValid]
          simp only [if_neg hFresh]
          exact ⟨_, rfl⟩
        have hGrows := grows_ingestOn supervisor.hotIndex
          (SitasShardRuntime.shardFor config event.processInstanceId) event
        have hContains := containsEvent_ingest hValid supervisor.hotIndex
        rw [← SitasShardRuntime.ingest] at hGrows
        rw [hIngest] at hGrows hContains
        simp only [hAppend, hIngest]
        refine .inr ⟨rfl, ⟨next, _, rfl, hNext, hSublist.append (List.Sublist.refl _)⟩, ?_, ?_⟩
        · intro other hOther
          rcases List.mem_append.mp hOther with hBefore | hLast
          · exact hGrows.containsEvent (h.known other hBefore)
          · rw [List.mem_singleton.mp hLast]
            exact hContains
        · rw [List.map_append, List.map_singleton]
          refine h.distinct.append (List.nodup_singleton _) ?_
          intro id hId hLast
          obtain ⟨other, hOther, rfl⟩ := List.mem_map.mp hId
          obtain ⟨hShard, hEventId⟩ := Prod.mk.inj (List.mem_singleton.mp hLast)
          have hOtherKnown := h.known other hOther
          rw [SitasShardRuntime.containsEvent, hShard, hEventId] at hOtherKnown
          exact hKnown hOtherKnown
      · simp only [hAppend]
        rw [← hJournal]
        exact .inl ⟨by simp [Except.map], h⟩

end Steps

/-! ## Runs -/

section Runs

variable (setup : DaemonSetup config) (writer : IptoWriter ω)

theorem acceptedPosts_concat (past : List (DaemonStep config × Option Bytes)) (call : DaemonStep config × Option Bytes) :
    setup.acceptedPosts (past ++ [call]) = setup.acceptedPosts past ++ (setup.acceptedPost? call).toList := by
  rw [DaemonSetup.acceptedPosts, List.filterMap_append]
  refine congrArg (_ ++ ·) ?_
  cases hCall : setup.acceptedPost? call <;> simp [hCall]

theorem acceptedPosts_concat_none (past : List (DaemonStep config × Option Bytes))
    {call : DaemonStep config × Option Bytes} (h : setup.acceptedPost? call = none) :
    setup.acceptedPosts (past ++ [call]) = setup.acceptedPosts past := by
  rw [acceptedPosts_concat, h, Option.toList_none, List.append_nil]

theorem KeepsPosts.supervisorStep {accepted : List PipelineEvent} {supervisor : Supervisor config}
    (h : KeepsPosts accepted supervisor) {step : SupervisorStep config} (hStep : ∀ event, step ≠ .ingestDurable event) :
    KeepsPosts accepted (Service.supervisorStep supervisor step).2 := by
  -- What the consumer hands over goes to the journal and to a mailbox.
  have hSubmitted (pending : KafkaPendingRecord) (refused : List KafkaPendingRecord) :
      KeepsPosts accepted ⟨(supervisor.submitKafkaRecord pending).runtime,
        (supervisor.submitKafkaRecord pending).journal, refused⟩ := by
    obtain ⟨journal, journaled, hJournal, hHolds, -⟩ := h.journal
    rw [Supervisor.submitKafkaRecord, hJournal]
    refine h.of_grows (grows_of_hotIndex_eq (submitted_grows hHolds _ pending).1) fun other events hOther hEvents => ?_
    obtain rfl := Option.some.inj (hJournal.symm.trans hOther)
    exact (submitted_grows hEvents _ pending).2
  cases step with
  | ingestDurable event => exact absurd rfl (hStep event)
  | submit record => exact hSubmitted _ _
  | resubmit index =>
    rw [Service.supervisorStep]
    cases supervisor.refused[index]? with
    | none => exact h
    | some pending => exact hSubmitted pending _
  | work shard =>
    refine h.of_grows (grows_workerStep _ shard) fun journal events hJournal hEvents => ?_
    exact ⟨journal, [], hJournal, by rwa [List.append_nil]⟩

theorem keepsPosts_step (hPrints : Prints setup.texts.toText) (past : List (DaemonStep config × Option Bytes))
    (state : DaemonState config ω) (step : DaemonStep config)
    (h : KeepsPosts (setup.acceptedPosts past) state.supervisor) :
    KeepsPosts (setup.acceptedPosts (past ++ [(step, (setup.daemonStep writer state step).1)]))
      (setup.daemonStep writer state step).2.supervisor := by
  obtain ⟨journal, journaled, hJournal, hHolds, hSublist⟩ := h.journal
  cases step with
  | connection connection =>
    rw [acceptedPosts_concat, DaemonSetup.acceptedPost?]
    rcases setup.connection_cases writer state (by simp [hJournal]) connection with
      ⟨event, hPosted, -, hStep⟩ | ⟨event, -, hPosted, hStep⟩ | ⟨hPosted, -, hStep⟩
    · have hSays := saysAccepted_ingestAnswer hPrints
        ((state.supervisor.ingestProcessEventDurable event).1.map DurableProcessIngestResult.outcome)
      rw [hStep, hPosted]
      rcases h.ingestDurable event with ⟨hOther, hKeeps⟩ | ⟨hAccepted, hKeeps⟩
      · rw [if_neg (mt hSays.mp hOther), Option.toList_none, List.append_nil]
        exact hKeeps
      · rw [if_pos (hSays.mpr hAccepted)]
        exact hKeeps
    · rw [hPosted, ite_self, Option.toList_none, List.append_nil, hStep]
      exact h
    · rw [hPosted, ite_self, Option.toList_none, List.append_nil, hStep]
      exact h
  | submit record =>
    rw [acceptedPosts_concat_none setup past rfl]
    exact h.supervisorStep (by simp)
  | resubmit index =>
    rw [acceptedPosts_concat_none setup past rfl]
    exact h.supervisorStep (by simp)
  | work shard =>
    rw [acceptedPosts_concat_none setup past rfl]
    exact h.supervisorStep (by simp)
  | serveTarget control target maxAttempts =>
    rw [acceptedPosts_concat_none setup past rfl, DaemonSetup.daemonStep]
    split
    · exact h
    · exact h
  | restart options =>
    rw [acceptedPosts_concat_none setup past rfl]
    rcases setup.restart_cases writer hJournal hHolds options with
      hSame | ⟨next, runtime, metadata, -, hNext, hNextHolds, hIndexes⟩
    · rw [hSame]
      exact h
    · rw [hNext]
      refine ⟨⟨next, journaled, rfl, hNextHolds, hSublist⟩, fun event hEvent => ?_, h.distinct⟩
      have hMem : event ∈ onShard (SitasShardRuntime.shardFor config event.processInstanceId) journaled :=
        List.mem_filter.mpr ⟨hSublist.subset hEvent, decide_eq_true rfl⟩
      have hValid := hHolds.valid event (hSublist.subset hEvent)
      refine decide_eq_true ?_
      rw [hIndexes]
      exact HotIndex.mem_eventsById_ingestAll hValid hMem _

/-- A daemon that starts on a new journal has accepted nothing. -/
theorem keepsPosts_start {options : StartOptions} {outbox : Option Bytes} {service : VannakService config}
    (hStart : startService setup.texts options setup.mapAll outbox none = .ok service) (remote : ω) :
    KeepsPosts (setup.acceptedPosts []) (DaemonState.ofService service [] remote).supervisor := by
  have hOpens : OpensJournal config setup.texts options none [] := opensJournal_none
  rcases @startService_cases _ _ _ setup.mapAll _ _ hOpens outbox with
    ⟨error, hFails⟩ | ⟨next, runtime, metadata, -, hStarted, hNext, -⟩
  · rw [hFails] at hStart
    cases hStart
  · rw [hStarted] at hStart
    cases hStart
    exact ⟨⟨next, [], rfl, hNext, List.Sublist.refl _⟩, by simp [DaemonSetup.acceptedPosts], List.nodup_nil⟩

/-- In every run of a daemon, over restarts as well, the events that clients are told to be accepted are in the journal
in this order, and none of them is accepted twice. -/
theorem posts_accepted_once (hPrints : Prints setup.texts.toText) {options : StartOptions} {outbox : Option Bytes}
    {service : VannakService config}
    (hStart : startService setup.texts options setup.mapAll outbox none = .ok service) (remote : ω)
    (steps : List (DaemonStep config)) :
    ∃ history state journal replay,
      run (setup.daemonStep writer) (.ofService service [] remote) steps = (history, state) ∧
      state.supervisor.processEventJournal = some journal ∧
      replayProcessEventSegment journal.writer.file = .ok replay ∧
      (setup.acceptedPosts history).Sublist (replay.events.map JournaledPipelineEvent.event) ∧
      ((setup.acceptedPosts history).map (placedId config)).Nodup ∧
      ∀ event ∈ setup.acceptedPosts history,
        state.service.hotIndex.containsEvent event = true := by
  have hKeeps := run_history (keepsPosts_step setup writer hPrints) (keepsPosts_start setup hStart remote) steps
  obtain ⟨journal, journaled, hJournal, hHolds, hSublist⟩ := hKeeps.journal
  obtain ⟨replay, hReplay, hEvents⟩ := hHolds.replay
  exact ⟨_, _, journal, replay, rfl, hJournal, hReplay, hEvents ▸ hSublist, hKeeps.distinct, hKeeps.known⟩

end Runs

/-! ### An event that is posted twice -/

def sampleEvent : PipelineEvent :=
  .new ⟨"event-1"⟩ ⟨"daemon-http"⟩ 0 ⟨"tenant-a"⟩ ⟨"prod"⟩ ⟨"pipeline-a"⟩ ⟨"demo-definition"⟩ ⟨"instance-a"⟩
    ⟨"2026-06-30T10:00:00Z"⟩ .processStarted

def postRequest (path body : String) : Bytes :=
  utf8Bytes (s!"POST {path} HTTP/1.1\r\nContent-Length: {body.utf8ByteSize}\r\n\r\n" ++ body)

def postingSetup : DaemonSetup twoShards :=
  sampleSetup [(compactText (ingestRequest id sampleEvent), ingestRequest id sampleEvent)]

def postsEvent : Connection := sending (postRequest "/ingest" (compactText (ingestRequest id sampleEvent)))

theorem posts_accepted_once_twice :
    ∃ service history state journal replay,
      startService postingSetup.texts sampleStart postingSetup.mapAll none none = .ok service ∧
      run (postingSetup.daemonStep acceptingWriter) (.ofService service [] ())
        [.connection postsEvent, .restart sampleStart, .connection postsEvent] = (history, state) ∧
      state.supervisor.processEventJournal = some journal ∧
      replayProcessEventSegment journal.writer.file = .ok replay ∧
      (postingSetup.acceptedPosts history).Sublist (replay.events.map JournaledPipelineEvent.event) ∧
      ((postingSetup.acceptedPosts history).map (placedId twoShards)).Nodup ∧
      ∀ event ∈ postingSetup.acceptedPosts history, state.service.hotIndex.containsEvent event = true := by
  obtain ⟨service, hStart⟩ :=
    @startService_fresh twoShards postingSetup.texts sampleStart postingSetup.mapAll (by decide)
  obtain ⟨history, state, journal, replay, hRun⟩ := posts_accepted_once postingSetup acceptingWriter prints_compactText
    hStart () [.connection postsEvent, .restart sampleStart, .connection postsEvent]
  exact ⟨service, history, state, journal, replay, hStart, hRun⟩

end Vannak.Daemon
