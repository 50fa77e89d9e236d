import Vannak.Process.Duplicates
import Vannak.Service.ProcessEvents

/-!
# The live index and the index after a restart

What is still waiting, applied to the live index, gives the index that the journal
rebuilds. Each step keeps this as long as no event overtakes a related one that was
journaled before it; then the two indexes agree whenever nothing waits.
-/

namespace Vannak.Service

open Foundation Storage Ingest Process Vannak.Runtime

set_option autoImplicit false

variable {config : SitasRuntimeConfig}

def onShard (shard : Fin config.shardCount) (events : List PipelineEvent) : List PipelineEvent :=
  events.filter fun event => SitasShardRuntime.shardFor config event.processInstanceId = shard

namespace Supervisor

def new (config : SitasRuntimeConfig) (journal : ProcessEventJournal) : Supervisor config :=
  ⟨.start config, some journal, []⟩

def refusedEvents (supervisor : Supervisor config) : List PipelineEvent :=
  supervisor.refused.map fun pending => pending.record.event

/-- Journaled events that the shard has not ingested, in the order they will reach it if
nothing is resubmitted out of turn. -/
def waiting (supervisor : Supervisor config) (shard : Fin config.shardCount) : List PipelineEvent :=
  supervisor.hotIndex.mailbox shard ++ onShard shard supervisor.refusedEvents

def MailboxFull (supervisor : Supervisor config) (event : PipelineEvent) : Prop :=
  config.mailboxCapacityPerShard ≤
    (supervisor.hotIndex.mailbox (SitasShardRuntime.shardFor config event.processInstanceId)).length

/-- No event overtakes one that it cannot be exchanged with, and the mailboxes do not run
empty while a record is refused. -/
def Orderly (supervisor : Supervisor config) : SupervisorStep config → Prop
  | .ingestDurable event => ProcessEventJournal.Takes event →
    ¬supervisor.hotIndex.containsEvent event.processInstanceId event.eventId →
      ∀ other ∈ supervisor.waiting (SitasShardRuntime.shardFor config event.processInstanceId),
        Exchangeable event other
  | .submit record => ProcessEventJournal.Takes record.event → ¬supervisor.MailboxFull record.event →
    ∀ other ∈ onShard (SitasShardRuntime.shardFor config record.event.processInstanceId)
      supervisor.refusedEvents, Exchangeable record.event other
  | .resubmit index => ∀ pending, supervisor.refused[index]? = some pending →
    ¬supervisor.MailboxFull pending.record.event →
      ∀ other ∈ onShard (SitasShardRuntime.shardFor config pending.record.event.processInstanceId)
        (supervisor.refusedEvents.take index), Exchangeable pending.record.event other
  | .work shard => supervisor.refused ≠ [] →
    ∃ other, (if other = shard then 1 else 0) < (supervisor.hotIndex.mailbox other).length

/-- The snapshots are those of a fresh runtime that has replayed the journal. -/
def AgreesWithRestart (supervisor : Supervisor config) : Prop :=
  ∃ journal summary restarted, supervisor.processEventJournal = some journal ∧
    recoverProcessEventsIntoHotIndex (SitasShardRuntime.start config) journal.writer.file =
      .ok (summary, restarted) ∧
    ∀ id, supervisor.hotIndex.processInstance id = restarted.processInstance id

/-- The waiting events lead from the live index to the journaled one. -/
structure Tracks (supervisor : Supervisor config) (journaled : List PipelineEvent) : Prop where
  journal : ∃ journal, supervisor.processEventJournal = some journal ∧ journal.Holds journaled
  views : ∀ shard, (supervisor.hotIndex.view shard).ingestAll (supervisor.waiting shard) =
    ProcessView.empty.ingestAll (onShard shard journaled)
  refused : ∀ pending ∈ supervisor.refused,
    pending.journalOffset ≠ none ∧ pending.record.event.validate = .ok ()
  busy : supervisor.refused ≠ [] → ∃ shard, supervisor.hotIndex.mailbox shard ≠ []

end Supervisor

/-! ## Restart -/

theorem onShard_concat (shard : Fin config.shardCount) (events : List PipelineEvent) (event : PipelineEvent) :
    onShard shard (events ++ [event]) =
      onShard shard events ++
        if SitasShardRuntime.shardFor config event.processInstanceId = shard then [event] else [] := by
  rw [onShard, List.filter_append, List.filter_singleton]
  simp [onShard]

/-- Replaying valid events gives each shard its own events in order. -/
theorem foldlM_replayInto {events : List JournaledPipelineEvent}
    (h : ∀ event ∈ events, event.event.validate = .ok ()) (hotIndex : SitasShardRuntime config) :
    ∃ final, events.foldlM replayInto hotIndex = .ok final ∧
      ∀ shard, final.hotIndex shard =
        (hotIndex.hotIndex shard).ingestAll (onShard shard (events.map JournaledPipelineEvent.event)) := by
  induction events generalizing hotIndex with
  | nil => exact ⟨hotIndex, rfl, fun _ => rfl⟩
  | cons event events ih =>
    obtain ⟨hEvent, hEvents⟩ := List.forall_mem_cons.mp h
    obtain ⟨outcome, next, hIngest⟩ := SitasShardRuntime.ingestOn_of_valid hEvent hotIndex
      (SitasShardRuntime.shardFor config event.event.processInstanceId)
    obtain ⟨final, hFinal, hIndexes⟩ := ih hEvents next
    refine ⟨final, ?_, fun shard => ?_⟩
    · rw [List.foldlM_cons, replayInto, SitasShardRuntime.ingest, hIngest]
      exact hFinal
    · have hNext := SitasShardRuntime.hotIndex_ingestOn hotIndex
        (SitasShardRuntime.shardFor config event.event.processInstanceId) shard event.event
      rw [hIngest] at hNext
      rw [hIndexes, hNext, List.map_cons, onShard, onShard, List.filter_cons]
      by_cases hShard : SitasShardRuntime.shardFor config event.event.processInstanceId = shard
      · subst hShard
        simp [HotIndex.ingestAll]
      · simp [hShard]

/-- A restart replays what the journal holds. -/
theorem recover_of_holds {journal : ProcessEventJournal} {journaled : List PipelineEvent}
    (h : journal.Holds journaled) :
    ∃ summary restarted, recoverProcessEventsIntoHotIndex (SitasShardRuntime.start config) journal.writer.file =
        .ok (summary, restarted) ∧
      ∀ shard, restarted.hotIndex shard = HotIndex.new.ingestAll (onShard shard journaled) := by
  obtain ⟨replay, hReplay, hEvents⟩ := h.replay
  have hValid : ∀ event ∈ replay.events, event.event.validate = .ok () := by
    intro event hEvent
    exact h.valid _ (hEvents ▸ List.mem_map_of_mem hEvent)
  obtain ⟨restarted, hRestarted, hIndexes⟩ := foldlM_replayInto hValid (SitasShardRuntime.start config)
  refine ⟨replay.summary, restarted, ?_, fun shard => ?_⟩
  · rw [recoverProcessEventsIntoHotIndex, hReplay]
    exact ok_bind hRestarted _
  · rw [hIndexes, hEvents]
    rfl

namespace Supervisor

theorem Tracks.agreesWithRestart {supervisor : Supervisor config} {journaled : List PipelineEvent}
    (h : supervisor.Tracks journaled) (hEmpty : ∀ shard, supervisor.hotIndex.mailbox shard = []) :
    supervisor.AgreesWithRestart := by
  obtain ⟨journal, hJournal, hHolds⟩ := h.journal
  obtain ⟨summary, restarted, hRestarted, hIndexes⟩ := @recover_of_holds config _ _ hHolds
  refine ⟨journal, summary, restarted, hJournal, hRestarted, ?_⟩
  refine SitasShardRuntime.processInstance_eq_of_view fun shard => ?_
  have hNone : supervisor.refused = [] := by
    by_contra hSome
    obtain ⟨other, hOther⟩ := h.busy hSome
    exact hOther (hEmpty other)
  have hView := h.views shard
  rw [waiting, hEmpty, refusedEvents, hNone] at hView
  rw [SitasShardRuntime.view, SitasShardRuntime.view, hIndexes, HotIndex.view_ingestAll]
  exact hView

/-! ## Steps -/

variable {supervisor : Supervisor config} {journaled : List PipelineEvent}

theorem ingestAll_onShard_concat (view : ProcessView) (shard : Fin config.shardCount)
    (events : List PipelineEvent) (event : PipelineEvent) :
    view.ingestAll (onShard shard (events ++ [event])) =
      if SitasShardRuntime.shardFor config event.processInstanceId = shard then
        (view.ingestAll (onShard shard events)).ingest event
      else view.ingestAll (onShard shard events) := by
  rw [onShard_concat]
  split
  · rw [ProcessView.ingestAll_append]
    rfl
  · rw [List.append_nil]

/-- A direct ingest overtakes everything that waits on its shard. -/
theorem Tracks.ingestDurable (h : supervisor.Tracks journaled) {event : PipelineEvent}
    (hOrderly : supervisor.Orderly (.ingestDurable event)) :
    ∃ journaled, (supervisor.ingestProcessEventDurable event).2.Tracks journaled := by
  obtain ⟨journal, hJournal, hHolds⟩ := h.journal
  rw [ingestProcessEventDurable]
  cases hValid : event.validate with
  | error error => exact ⟨journaled, h⟩
  | ok =>
    simp only [hJournal]
    by_cases hKnown : supervisor.hotIndex.containsEvent event.processInstanceId event.eventId = true
    · rw [if_pos hKnown]
      exact ⟨journaled, h⟩
    rw [if_neg hKnown]
    rcases hHolds.appendDurable event with ⟨hTakes, offset, next, hAppend, hNext⟩ | ⟨error, hAppend⟩
    · obtain ⟨outcome, hotIndex, hIngest⟩ := SitasShardRuntime.ingestOn_of_valid hValid supervisor.hotIndex
        (SitasShardRuntime.shardFor config event.processInstanceId)
      simp only [hAppend, SitasShardRuntime.ingest, hIngest]
      have hMailbox : hotIndex.mailbox = supervisor.hotIndex.mailbox := by
        rw [← SitasShardRuntime.mailbox_ingestOn supervisor.hotIndex _ event, hIngest]
      refine ⟨journaled ++ [event], ⟨next, rfl, hNext⟩, fun shard => ?_, h.refused, fun hRefused => ?_⟩
      · have hView := SitasShardRuntime.view_ingestOn supervisor.hotIndex
          (SitasShardRuntime.shardFor config event.processInstanceId) shard event
        rw [hIngest] at hView
        have hWaiting : waiting { supervisor with hotIndex, processEventJournal := some next } shard =
            supervisor.waiting shard := by
          rw [waiting, waiting, hMailbox]
          rfl
        rw [ingestAll_onShard_concat, ← h.views shard, hWaiting]
        simp only [hView]
        split
        · rename_i hShard
          subst hShard
          exact ProcessView.ingestAll_overtake (hOrderly hTakes hKnown) _
        · rfl
      · rw [hMailbox]
        exact h.busy hRefused
    · simp only [hAppend]
      rw [← hJournal]
      exact ⟨journaled, h⟩

/-- Once a valid record is journaled, it goes to its mailbox or stays with its consumer. -/
theorem trySubmit_of_journaled {hotIndex : SitasShardRuntime config} {journal next : Option ProcessEventJournal}
    {pending written : KafkaPendingRecord} (h : journalOnce journal pending = (.ok written, next))
    (hValid : written.record.event.validate = .ok ()) :
    (config.mailboxCapacityPerShard ≤ (hotIndex.mailbox
        (SitasShardRuntime.shardFor config written.record.event.processInstanceId)).length ∧
      trySubmitKafkaPendingRecord hotIndex journal pending = ⟨.ok none, hotIndex, next, written⟩) ∨
    (¬config.mailboxCapacityPerShard ≤ (hotIndex.mailbox
        (SitasShardRuntime.shardFor config written.record.event.processInstanceId)).length ∧
      ∃ outcome, trySubmitKafkaPendingRecord hotIndex journal pending = ⟨.ok (some outcome), { hotIndex with
        mailbox := Function.update hotIndex.mailbox
          (SitasShardRuntime.shardFor config written.record.event.processInstanceId)
          (hotIndex.mailbox (SitasShardRuntime.shardFor config written.record.event.processInstanceId) ++
            [written.record.event]) }, next, written⟩) := by
  rw [trySubmitKafkaPendingRecord, h]
  rcases SitasShardRuntime.trySubmit_of_valid hValid hotIndex with
    ⟨hFull, capacity, hSubmit⟩ | ⟨hRoom, outcome, hSubmit⟩
  · refine .inl ⟨hFull, ?_⟩
    simp only [hSubmit]
  · refine .inr ⟨hRoom, ?_⟩
    simp only [hSubmit]
    exact ⟨_, rfl⟩

/-- An event that enters its mailbox overtakes the refused events in front of it. -/
theorem ingestAll_enter {hotIndex : SitasShardRuntime config} {event : PipelineEvent}
    {before after : List PipelineEvent}
    (h : ∀ other ∈ onShard (SitasShardRuntime.shardFor config event.processInstanceId) before,
      Exchangeable event other) (shard : Fin config.shardCount) :
    (hotIndex.view shard).ingestAll
      (Function.update hotIndex.mailbox (SitasShardRuntime.shardFor config event.processInstanceId)
        (hotIndex.mailbox (SitasShardRuntime.shardFor config event.processInstanceId) ++ [event]) shard ++
          onShard shard (before ++ after)) =
    (hotIndex.view shard).ingestAll
      (hotIndex.mailbox shard ++ onShard shard (before ++ event :: after)) := by
  by_cases hShard : SitasShardRuntime.shardFor config event.processInstanceId = shard
  · subst hShard
    have hSplit : ∀ events : List PipelineEvent,
        onShard (SitasShardRuntime.shardFor config event.processInstanceId) (before ++ events) =
          onShard (SitasShardRuntime.shardFor config event.processInstanceId) before ++
            onShard (SitasShardRuntime.shardFor config event.processInstanceId) events :=
      fun events => List.filter_append ..
    have hHead : onShard (SitasShardRuntime.shardFor config event.processInstanceId) (event :: after) =
        event :: onShard (SitasShardRuntime.shardFor config event.processInstanceId) after :=
      List.filter_cons_of_pos (by simp)
    rw [Function.update_self, hSplit, hSplit, hHead]
    simp only [ProcessView.ingestAll_append]
    exact congrArg (fun view => ProcessView.ingestAll view _) (ProcessView.ingestAll_overtake h _)
  · rw [Function.update_of_ne (Ne.symm hShard)]
    simp [onShard, hShard]

theorem Tracks.submit (h : supervisor.Tracks journaled) {record : KafkaProcessRecord}
    (hOrderly : supervisor.Orderly (.submit record)) :
    ∃ journaled, (supervisorStep supervisor (.submit record)).2.Tracks journaled := by
  obtain ⟨journal, hJournal, hHolds⟩ := h.journal
  rw [supervisorStep, submitKafkaRecord, hJournal]
  rcases hHolds.appendDurable record.event with ⟨hTakes, offset, next, hAppend, hNext⟩ | ⟨error, hAppend⟩
  · have hOnce : journalOnce (some journal) (.new record) = (.ok ⟨record, some offset⟩, some next) := by
      simp only [journalOnce, KafkaPendingRecord.new, hAppend]
    rcases @trySubmit_of_journaled config supervisor.hotIndex _ _ _ _ hOnce hTakes.1 with
      ⟨hFull, hSubmit⟩ | ⟨hRoom, outcome, hSubmit⟩
    · simp only [hSubmit]
      refine ⟨journaled ++ [record.event], ⟨next, rfl, hNext⟩, fun shard => ?_, ?_, fun _ => ?_⟩
      · rw [ingestAll_onShard_concat, ← h.views shard, waiting, refusedEvents, List.map_append,
          List.map_singleton, ProcessView.ingestAll_append, ingestAll_onShard_concat,
          ← ProcessView.ingestAll_append]
        rfl
      · exact List.forall_mem_append.mpr
          ⟨h.refused, List.forall_mem_singleton.mpr ⟨Option.some_ne_none offset, hTakes.1⟩⟩
      · refine ⟨_, List.ne_nil_of_length_pos (config.mailboxCapacity_pos.trans_le hFull)⟩
    · simp only [hSubmit]
      refine ⟨journaled ++ [record.event], ⟨next, rfl, hNext⟩, fun shard => ?_, h.refused, fun _ => ?_⟩
      · have hEnter := @ingestAll_enter config supervisor.hotIndex record.event supervisor.refusedEvents []
          (hOrderly hTakes hRoom) shard
        rw [List.append_nil] at hEnter
        refine hEnter.trans ?_
        rw [ingestAll_onShard_concat, ← h.views shard, waiting, ProcessView.ingestAll_append,
          ingestAll_onShard_concat, ← ProcessView.ingestAll_append]
      · refine ⟨SitasShardRuntime.shardFor config record.event.processInstanceId, ?_⟩
        simp
  · have hOnce : journalOnce (some journal) (.new record) = (.error error, some journal) := by
      simp only [journalOnce, KafkaPendingRecord.new, hAppend]
    simp only [trySubmitKafkaPendingRecord, hOnce]
    rw [← hJournal]
    exact ⟨journaled, h⟩

theorem Tracks.resubmit (h : supervisor.Tracks journaled) {index : Nat}
    (hOrderly : supervisor.Orderly (.resubmit index)) :
    (supervisorStep supervisor (.resubmit index)).2.Tracks journaled := by
  obtain ⟨journal, hJournal, hHolds⟩ := h.journal
  rw [supervisorStep]
  cases hPending : supervisor.refused[index]? with
  | none => exact h
  | some pending =>
    have hMem := List.mem_of_getElem? hPending
    obtain ⟨hOffset, hValid⟩ := h.refused pending hMem
    obtain ⟨offset, hWritten⟩ := Option.ne_none_iff_exists'.mp hOffset
    have hOnce : journalOnce (some journal) pending = (.ok pending, some journal) := by
      simp only [journalOnce, hWritten]
    obtain ⟨hIndex, hGet⟩ := List.getElem?_eq_some_iff.mp hPending
    simp only [submitKafkaRecord, hJournal]
    rcases @trySubmit_of_journaled config supervisor.hotIndex _ _ _ _ hOnce hValid with
      ⟨-, hSubmit⟩ | ⟨hRoom, outcome, hSubmit⟩
    · simp only [hSubmit]
      rw [← hGet, List.set_getElem_self, ← hJournal]
      exact h
    · simp only [hSubmit]
      have hRefused : supervisor.refusedEvents = supervisor.refusedEvents.take index ++
          pending.record.event :: supervisor.refusedEvents.drop (index + 1) := by
        have hEvent : supervisor.refusedEvents[index]? = some pending.record.event := by
          rw [refusedEvents, List.getElem?_map, hPending, Option.map_some]
        obtain ⟨hLength, hAt⟩ := List.getElem?_eq_some_iff.mp hEvent
        rw [← hAt, List.getElem_cons_drop, List.take_append_drop]
      refine ⟨⟨journal, rfl, hHolds⟩, fun shard => ?_, ?_, fun _ => ?_⟩
      · have hEnter := @ingestAll_enter config supervisor.hotIndex pending.record.event
          (supervisor.refusedEvents.take index) (supervisor.refusedEvents.drop (index + 1))
          (hOrderly pending hPending hRoom) shard
        rw [← hRefused, ← List.eraseIdx_eq_take_drop_succ] at hEnter
        rw [← h.views shard, waiting, refusedEvents, ← List.eraseIdx_map]
        exact hEnter
      · exact fun other hOther => h.refused other (List.mem_of_mem_eraseIdx hOther)
      · refine ⟨SitasShardRuntime.shardFor config pending.record.event.processInstanceId, ?_⟩
        simp

theorem Tracks.work (h : supervisor.Tracks journaled) {shard : Fin config.shardCount}
    (hOrderly : supervisor.Orderly (.work shard)) :
    (supervisorStep supervisor (.work shard)).2.Tracks journaled := by
  rw [supervisorStep, SitasShardRuntime.workerStep]
  cases hMailbox : supervisor.hotIndex.mailbox shard with
  | nil => exact h
  | cons event rest =>
    refine ⟨h.journal, fun other => ?_, h.refused, fun hRefused => ?_⟩
    · have hView := SitasShardRuntime.view_ingestOn supervisor.hotIndex shard other event
      have hViews := h.views other
      rw [← hViews, waiting, waiting]
      by_cases hShard : shard = other
      · subst hShard
        rw [if_pos rfl] at hView
        simp only [Function.update_self, hMailbox]
        exact congrArg (fun view => ProcessView.ingestAll view _) hView
      · rw [if_neg hShard] at hView
        simp only [Function.update_of_ne (Ne.symm hShard)]
        exact congrArg (fun view => ProcessView.ingestAll view _) hView
    · obtain ⟨other, hOther⟩ := hOrderly hRefused
      refine ⟨other, ?_⟩
      by_cases hShard : other = shard
      · subst hShard
        rw [if_pos rfl, hMailbox, List.length_cons] at hOther
        simp only [Function.update_self]
        exact List.ne_nil_of_length_pos (Nat.lt_of_succ_lt_succ hOther)
      · rw [if_neg hShard] at hOther
        simp only [Function.update_of_ne hShard]
        exact List.ne_nil_of_length_pos hOther

/-- The supervisor tracks whatever its journal holds. -/
def OnTrack (supervisor : Supervisor config) : Prop := ∃ journaled, supervisor.Tracks journaled

theorem OnTrack.step (hState : supervisor.OnTrack) {step : SupervisorStep config}
    (hOrderly : supervisor.Orderly step) : (supervisorStep supervisor step).2.OnTrack := by
  obtain ⟨journaled, h⟩ := hState
  cases step with
  | ingestDurable event => exact h.ingestDurable hOrderly
  | submit record => exact h.submit hOrderly
  | resubmit index => exact ⟨journaled, h.resubmit hOrderly⟩
  | work shard => exact ⟨journaled, h.work hOrderly⟩

theorem tracks_new {journal : ProcessEventJournal} (h : journal.Holds []) :
    (new config journal).Tracks [] where
  journal := ⟨journal, rfl, h⟩
  views _ := rfl
  refused := by simp [new]
  busy hRefused := absurd rfl hRefused

end Supervisor

/-! ## Whole runs -/

/-- In every run without overtaking, the index agrees with the journal as often as the
mailboxes are empty. -/
theorem live_index_agrees_with_restart {path : PathBuf} {segmentId : SegmentId} {nodeId : NodeId}
    {journal : ProcessEventJournal}
    (hJournal : ProcessEventJournal.create none path segmentId nodeId = .ok journal)
    {steps : List (SupervisorStep config)}
    (hOrderly : AllSteps supervisorStep Supervisor.Orderly (Supervisor.new config journal) steps)
    (hEmpty : ∀ shard,
      (run supervisorStep (Supervisor.new config journal) steps).2.hotIndex.mailbox shard = []) :
    (run supervisorStep (Supervisor.new config journal) steps).2.AgreesWithRestart := by
  have hHolds : journal.Holds [] := by
    obtain ⟨writer, hWriter, hWritten⟩ := SegmentWriter.holds_create path segmentId nodeId
    rw [ProcessEventJournal.create, hWriter] at hJournal
    cases hJournal
    exact ⟨by simp, hWritten⟩
  have hStart : (Supervisor.new config journal).OnTrack := ⟨[], Supervisor.tracks_new hHolds⟩
  obtain ⟨journaled, hTracks⟩ := run_invariant_of_allSteps
    (fun _ _ hState hStep => hState.step hStep) hStart hOrderly
  exact hTracks.agreesWithRestart hEmpty

/-! ### Two events of one instance -/

def singleShard : SitasRuntimeConfig := ⟨1, 2, Nat.one_pos, Nat.two_pos⟩

def sampleJournal : ProcessEventJournal :=
  ⟨⟨⟨"segment-1"⟩, ⟨"node-a"⟩, .ofString "events.seg", segmentMagic, 0, segmentMagic.length, 0⟩⟩

def sampleEvent (eventId processInstanceId timestamp : String) (kind : EventKind) : PipelineEvent :=
  .new ⟨eventId⟩ ⟨"durga"⟩ 1 ⟨"tenant"⟩ ⟨"prod"⟩ ⟨"invoice"⟩ ⟨"definition"⟩ ⟨processInstanceId⟩ ⟨timestamp⟩ kind

def started : PipelineEvent :=
  sampleEvent "event-1" "instance-1" "2026-06-20T10:00:00Z" .processStarted

def completed : PipelineEvent :=
  sampleEvent "event-2" "instance-1" "2026-06-20T10:00:05Z" .processCompleted

def unrelatedEvent : PipelineEvent :=
  sampleEvent "event-3" "instance-2" "2026-06-20T10:00:05Z" .processCompleted

/-- The first event arrives through Kafka and waits while the second is ingested. -/
def overtaking (event : PipelineEvent) : List (SupervisorStep singleShard) :=
  [.submit ⟨⟨"events", 0⟩, 0, started⟩, .ingestDurable event, .work ⟨0, by decide⟩]

/-- The index and the one rebuilt know different start times of an instance. -/
theorem Supervisor.not_agreesWithRestart {supervisor : Supervisor config} {id : ProcessInstanceId}
    {live rebuilt : Option EventTimestamp}
    (hLive : (supervisor.hotIndex.processInstance id).map ProcessInstanceSnapshot.startedAt = some live)
    (hRebuilt : (supervisor.processEventJournal.bind fun journal =>
      (recoverProcessEventsIntoHotIndex (SitasShardRuntime.start config) journal.writer.file).toOption.bind
        fun recovered => (recovered.2.processInstance id).map ProcessInstanceSnapshot.startedAt) = some rebuilt)
    (hDiffer : live ≠ rebuilt) : ¬supervisor.AgreesWithRestart := by
  rintro ⟨journal, summary, restarted, hJournal, hRestarted, hSame⟩
  rw [hJournal, Option.bind_some, hRestarted, Except.toOption, Option.bind_some, ← hSame, hLive] at hRebuilt
  exact hDiffer (Option.some.inj hRebuilt)

theorem live_index_agrees_with_restart_unrelated :
    (run supervisorStep (Supervisor.new singleShard sampleJournal)
      (overtaking unrelatedEvent)).2.AgreesWithRestart := by
  refine @live_index_agrees_with_restart singleShard (.ofString "events.seg") ⟨"segment-1"⟩ ⟨"node-a"⟩
    sampleJournal rfl _ ⟨fun _ _ => ?_, fun _ _ => ?_, fun hRefused => absurd ?_ hRefused, trivial⟩ ?_
  all_goals decide +kernel

/-- The later event is applied first, so the earlier one is dropped; the journal has them
in the other order. -/
theorem live_index_disagrees_with_restart :
    ProcessEventJournal.create none (.ofString "events.seg") ⟨"segment-1"⟩ ⟨"node-a"⟩ = .ok sampleJournal ∧
    (∀ shard, (run supervisorStep (Supervisor.new singleShard sampleJournal)
      (overtaking completed)).2.hotIndex.mailbox shard = []) ∧
    ¬(run supervisorStep (Supervisor.new singleShard sampleJournal)
      (overtaking completed)).2.AgreesWithRestart := by
  refine ⟨rfl, by decide +kernel,
    @Supervisor.not_agreesWithRestart _ _ ⟨"instance-1"⟩ none (some started.timestamp) ?_ ?_ (by simp)⟩
  · decide +kernel
  · decide +kernel

end Vannak.Service
