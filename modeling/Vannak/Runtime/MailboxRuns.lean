import Vannak.Runtime.MailboxWorkers
import Vannak.Runtime.Totals

/-!
# Runs of the mailbox workers

What the calls, the drains and the workers leave behind in whatever order they step: the shards, the receivers, the
summaries. Every event that was taken into a mailbox is ingested once and in order or still waits.
-/

namespace Vannak.Runtime

open Foundation Process
open SitasShardRuntime (shardFor)

set_option autoImplicit false

variable {config : SitasRuntimeConfig}

/-! ## What the shards ingest -/

section Shards

variable {runtime next : SitasShardRuntime config} {shard : Fin config.shardCount} {event : PipelineEvent}
  {outcome : Except IngestError IngestOutcome}

theorem SitasShardRuntime.receive_eq_some (h : runtime.receive shard = some (event, outcome, next)) :
    runtime.mailbox shard = event :: next.mailbox shard ∧
      (∀ other, other ≠ shard → next.mailbox other = runtime.mailbox other) ∧
      outcome = (runtime.ingestOn shard event).1 ∧ next.hotIndex = (runtime.ingestOn shard event).2.hotIndex := by
  rw [receive] at h
  cases hMailbox : runtime.mailbox shard with
  | nil =>
    rw [hMailbox] at h
    cases h
  | cons first rest =>
    rw [hMailbox] at h
    cases h
    refine ⟨?_, fun other hOther => Function.update_of_ne hOther .., rfl, rfl⟩
    exact congrArg (List.cons event) (Function.update_self shard rest runtime.mailbox).symm

theorem SitasShardRuntime.trySubmit_eq_ok {outcome : QueuedIngestOutcome}
    (h : runtime.trySubmit event = (.ok outcome, next)) :
    event.validate = .ok () ∧
      (runtime.mailbox (shardFor config event.processInstanceId)).length < config.mailboxCapacityPerShard ∧
      next.hotIndex = runtime.hotIndex ∧
      next.mailbox = Function.update runtime.mailbox (shardFor config event.processInstanceId)
        (runtime.mailbox (shardFor config event.processInstanceId) ++ [event]) := by
  cases hValid : event.validate with
  | error error =>
    rw [trySubmit, hValid] at h
    cases h
  | ok =>
    rcases runtime.trySubmit_of_valid hValid with ⟨-, capacity, hSubmit⟩ | ⟨hRoom, accepted, hSubmit⟩
    · rw [hSubmit] at h
      cases h
    · rw [hSubmit] at h
      cases h
      exact ⟨rfl, Nat.lt_of_not_le hRoom, rfl, rfl⟩

/-- The answer tells of no event. -/
def MailboxAnswer.Quiet (answer : MailboxAnswer config) : Prop :=
  ∀ shard, answer.calledOn shard = [] ∧ answer.receivedOn shard = [] ∧ answer.submittedOn shard = []

/-- All that a step can do to the shards. -/
inductive Effect (runtime : SitasShardRuntime config) : MailboxAnswer config → SitasShardRuntime config → Prop where
  | quiet {answer : MailboxAnswer config} (hQuiet : answer.Quiet) : Effect runtime answer runtime
  | call (event : PipelineEvent) :
    Effect runtime
      (.ingested (shardFor config event.processInstanceId) event
        (runtime.ingestOn (shardFor config event.processInstanceId) event).1)
      (runtime.ingestOn (shardFor config event.processInstanceId) event).2
  | send {event : PipelineEvent} {outcome : QueuedIngestOutcome} {next : SitasShardRuntime config}
    (hSubmit : runtime.trySubmit event = (.ok outcome, next)) : Effect runtime (.submitted event outcome) next
  | receive {shard : Fin config.shardCount} {event : PipelineEvent}
    {outcome : Except IngestError IngestOutcome} {next : SitasShardRuntime config}
    (hReceive : runtime.receive shard = some (event, outcome, next)) :
    Effect runtime (.received shard event outcome) next

theorem MailboxRuntime.Moves.effect {state next : MailboxRuntime config} {answer : MailboxAnswer config}
    (h : state.Moves answer next) : Effect state.shards answer next.shards := by
  cases h with
  | ingested event => exact .call event
  | submitted hSubmit => exact .send hSubmit
  | drainRound _ hReceive | workerRound _ _ hReceive => exact .receive hReceive
  | _ => exact .quiet fun _ => ⟨rfl, rfl, rfl⟩

/-- The counters of an index are those of the outcomes it gave. -/
def CountsOutcomes (index : HotIndex) (counts : IngestWorkerSummary) : Prop :=
  index.snapshot.eventCount = counts.accepted ∧ index.snapshot.duplicateEvents = counts.duplicates ∧
    index.snapshot.rejectedEvents = counts.failed

theorem CountsOutcomes.ingest {index : HotIndex} {counts : IngestWorkerSummary} (h : CountsOutcomes index counts)
    (event : PipelineEvent) : CountsOutcomes (index.ingest event).2 (counts.count (index.ingest event).1) := by
  obtain ⟨hEvents, hDuplicates, hRejected⟩ := h
  rcases index.ingest_cases event with ⟨error, -, hIngest⟩ | ⟨-, -, hIngest⟩ | ⟨-, hFresh, hIngest⟩
  · rw [hIngest]
    exact ⟨hEvents, hDuplicates, congrArg (· + 1) hRejected⟩
  · rw [hIngest]
    exact ⟨hEvents, congrArg (· + 1) hDuplicates, hRejected⟩
  · rw [hIngest]
    constructor
    · have hSize : (index.eventsById.insert event.eventId event).size = index.eventsById.size + 1 := by
        rw [Std.ExtTreeMap.size_insert, if_neg]
        exact hFresh
      exact hSize.trans (congrArg (· + 1) hEvents)
    · exact ⟨hDuplicates, hRejected⟩

/-- What the answers so far say of the shards. -/
structure Keeps (answers : List (MailboxAnswer config)) (runtime : SitasShardRuntime config) : Prop where
  index : ∀ shard, runtime.hotIndex shard =
    HotIndex.new.ingestAll ((answers.flatMap (MailboxAnswer.ingestedOn shard)).map Prod.fst)
  mailbox : ∀ shard, (answers.flatMap (MailboxAnswer.receivedOn shard)).map Prod.fst ++ runtime.mailbox shard =
    answers.flatMap (MailboxAnswer.submittedOn shard)
  room : ∀ shard, (runtime.mailbox shard).length ≤ config.mailboxCapacityPerShard
  valid : ∀ shard, ∀ event ∈ runtime.mailbox shard, event.validate = .ok ()
  succeeds : ∀ shard, ∀ entry ∈ answers.flatMap (MailboxAnswer.receivedOn shard), ∃ outcome, entry.2 = .ok outcome
  counts : ∀ shard, CountsOutcomes (runtime.hotIndex shard)
    (.tally ((answers.flatMap (MailboxAnswer.ingestedOn shard)).map Prod.snd))

theorem flatMap_concat {α β : Type} (items : List α) (item : α) (read : α → List β) :
    (items ++ [item]).flatMap read = items.flatMap read ++ read item := by
  rw [List.flatMap_append, List.flatMap_singleton]

variable {answers : List (MailboxAnswer config)}

/-- The shard that an event runs on, whether a call or a receiver brought it. -/
theorem Keeps.ingestOn (h : Keeps answers runtime) (answer : MailboxAnswer config)
    (hNext : next.hotIndex = (runtime.ingestOn shard event).2.hotIndex)
    (hIngested : ∀ other, answer.ingestedOn other =
      if shard = other then [(event, (runtime.ingestOn shard event).1)] else []) (other : Fin config.shardCount) :
    next.hotIndex other =
        HotIndex.new.ingestAll (((answers ++ [answer]).flatMap (MailboxAnswer.ingestedOn other)).map Prod.fst) ∧
      CountsOutcomes (next.hotIndex other)
        (.tally (((answers ++ [answer]).flatMap (MailboxAnswer.ingestedOn other)).map Prod.snd)) := by
  rw [flatMap_concat, hIngested, hNext, SitasShardRuntime.hotIndex_ingestOn]
  by_cases hShard : shard = other
  · subst hShard
    rw [if_pos rfl, if_pos rfl, List.map_append, List.map_append, List.map_singleton, List.map_singleton,
      HotIndex.ingestAll_concat, ← h.index, IngestWorkerSummary.tally, List.foldl_concat]
    exact ⟨rfl, (h.counts shard).ingest event⟩
  · rw [if_neg hShard, if_neg hShard, List.append_nil]
    exact ⟨h.index other, h.counts other⟩

theorem Keeps.step (h : Keeps answers runtime) {answer : MailboxAnswer config}
    (hEffect : Effect runtime answer next) : Keeps (answers ++ [answer]) next := by
  cases hEffect with
  | quiet hQuiet =>
    have hSame : ∀ shard, (answers ++ [answer]).flatMap (MailboxAnswer.ingestedOn shard) =
          answers.flatMap (MailboxAnswer.ingestedOn shard) ∧
        (answers ++ [answer]).flatMap (MailboxAnswer.receivedOn shard) =
          answers.flatMap (MailboxAnswer.receivedOn shard) ∧
        (answers ++ [answer]).flatMap (MailboxAnswer.submittedOn shard) =
          answers.flatMap (MailboxAnswer.submittedOn shard) := by
      intro shard
      obtain ⟨hCalled, hReceived, hSubmitted⟩ := hQuiet shard
      rw [flatMap_concat, flatMap_concat, flatMap_concat, MailboxAnswer.ingestedOn, hCalled, hReceived, hSubmitted]
      simp only [List.append_nil, and_self]
    constructor
    · intro shard
      rw [(hSame shard).1, h.index]
    · intro shard
      rw [(hSame shard).2.1, (hSame shard).2.2, h.mailbox]
    · exact h.room
    · exact h.valid
    · intro shard
      rw [(hSame shard).2.1]
      exact h.succeeds shard
    · intro shard
      rw [(hSame shard).1]
      exact h.counts shard
  | call event =>
    have hShards := h.ingestOn (.ingested (shardFor config event.processInstanceId) event
      (runtime.ingestOn (shardFor config event.processInstanceId) event).1) rfl fun other => List.append_nil _
    constructor
    · exact fun shard => (hShards shard).1
    · intro shard
      have hSame := h.mailbox shard
      rw [flatMap_concat, flatMap_concat, MailboxAnswer.receivedOn, MailboxAnswer.submittedOn, List.append_nil,
        List.append_nil]
      · exact hSame
      all_goals simp
    · exact h.room
    · exact h.valid
    · intro shard
      rw [flatMap_concat]
      exact fun entry hEntry => h.succeeds shard entry (by simpa [MailboxAnswer.receivedOn] using hEntry)
    · exact fun shard => (hShards shard).2
  | @send event outcome next hSubmit =>
    obtain ⟨hValid, hRoom, hIndex, hMailbox⟩ := SitasShardRuntime.trySubmit_eq_ok hSubmit
    generalize hOwner : shardFor config event.processInstanceId = owner at hRoom hMailbox
    have hIngested (shard : Fin config.shardCount) :
        (answers ++ [MailboxAnswer.submitted event outcome]).flatMap (MailboxAnswer.ingestedOn shard) =
          answers.flatMap (MailboxAnswer.ingestedOn shard) := (flatMap_concat ..).trans (List.append_nil _)
    have hReceived (shard : Fin config.shardCount) :
        (answers ++ [MailboxAnswer.submitted event outcome]).flatMap (MailboxAnswer.receivedOn shard) =
          answers.flatMap (MailboxAnswer.receivedOn shard) := (flatMap_concat ..).trans (List.append_nil _)
    constructor
    · intro shard
      rw [hIngested, hIndex]
      exact h.index shard
    · intro shard
      rw [hReceived, flatMap_concat, MailboxAnswer.submittedOn, ← h.mailbox shard, hOwner, hMailbox]
      by_cases hShard : owner = shard
      · subst hShard
        rw [if_pos rfl, Function.update_self, List.append_assoc]
      · rw [if_neg hShard, Function.update_of_ne (Ne.symm hShard), List.append_nil]
    · intro shard
      rw [hMailbox]
      by_cases hShard : owner = shard
      · subst hShard
        rw [Function.update_self, List.length_append]
        exact hRoom
      · rw [Function.update_of_ne (Ne.symm hShard)]
        exact h.room shard
    · intro shard other hOther
      rw [hMailbox] at hOther
      by_cases hShard : owner = shard
      · subst hShard
        rw [Function.update_self] at hOther
        rcases List.mem_append.mp hOther with hOld | hNew
        · exact h.valid _ other hOld
        · rwa [List.mem_singleton.mp hNew]
      · rw [Function.update_of_ne (Ne.symm hShard)] at hOther
        exact h.valid shard other hOther
    · intro shard
      rw [hReceived]
      exact h.succeeds shard
    · intro shard
      rw [hIngested, hIndex]
      exact h.counts shard
  | @receive shard event outcome next hReceive =>
    obtain ⟨hMailbox, hOther, rfl, hIndex⟩ := SitasShardRuntime.receive_eq_some hReceive
    have hShards := h.ingestOn (.received shard event (runtime.ingestOn shard event).1) hIndex
      fun other => List.nil_append _
    have hEvent := h.valid shard event (by rw [hMailbox]; exact List.mem_cons_self)
    constructor
    · exact fun other => (hShards other).1
    · intro other
      rw [flatMap_concat, flatMap_concat, MailboxAnswer.receivedOn, ← h.mailbox other, List.map_append]
      by_cases hShard : shard = other
      · subst hShard
        rw [if_pos rfl, hMailbox, List.append_assoc]
        exact (List.append_nil _).symm
      · rw [if_neg hShard, hOther other (Ne.symm hShard), List.map_nil, List.append_nil]
        exact (List.append_nil _).symm
    · intro other
      by_cases hShard : other = shard
      · subst hShard
        have hRoom := h.room other
        rw [hMailbox, List.length_cons] at hRoom
        omega
      · rw [hOther other hShard]
        exact h.room other
    · intro other waiting hWaiting
      by_cases hShard : other = shard
      · subst hShard
        exact h.valid other waiting (by rw [hMailbox]; exact List.mem_cons_of_mem _ hWaiting)
      · exact h.valid other waiting (by rwa [hOther other hShard] at hWaiting)
    · intro other entry hEntry
      rw [flatMap_concat, List.mem_append, MailboxAnswer.receivedOn] at hEntry
      rcases hEntry with hOld | hNew
      · exact h.succeeds other entry hOld
      · split at hNew
        · obtain ⟨result, next, hOk⟩ := SitasShardRuntime.ingestOn_of_valid hEvent runtime shard
          rw [List.mem_singleton.mp hNew, hOk]
          exact ⟨result, rfl⟩
        · cases hNew
    · exact fun other => (hShards other).2

end Shards

/-! ## Who holds the receivers -/

def IngestWorker.Expects : IngestWorker → Bool → Prop
  | .spawned, receiver | .finished (.ok _), receiver => receiver = true
  | .receiving _, receiver => receiver = false
  | .finished (.error _), _ => False

theorem IngestWorker.Expects.finished {worker : IngestWorker} {receiver : Bool} (h : worker.Expects receiver)
    (hResult : worker.result?.isSome) : receiver = true ∧ worker.result? = some (.ok worker.counted) := by
  cases worker with
  | spawned | receiving => cases hResult
  | finished result =>
    cases result with
    | error => cases h
    | ok summary => exact ⟨h, rfl⟩

/-- The receivers, the drains and the workers fit together. -/
structure HoldsReceivers (receiver : Fin config.shardCount → Bool)
    (drains : Fin config.shardCount → Option (Nat × IngestDrainSummary))
    (workers : Option (MailboxWorkers config)) : Prop where
  draining : ∀ shard, (drains shard).isSome → receiver shard = true
  idle : workers = none → ∀ shard, receiver shard = true
  working : ∀ started, workers = some started → ∀ shard, (started.workerOn shard).Expects (receiver shard)
  stopping : workers.any MailboxWorkers.stopRequested = true → ∀ shard, drains shard = none

namespace HoldsReceivers

variable {receiver : Fin config.shardCount → Bool}
  {drains : Fin config.shardCount → Option (Nat × IngestDrainSummary)} {workers : Option (MailboxWorkers config)}
  {started : MailboxWorkers config} {shard : Fin config.shardCount}

theorem setDrain (h : HoldsReceivers receiver drains workers) {drain : Option (Nat × IngestDrainSummary)}
    (hDrain : drain.isSome → receiver shard = true ∧ workers.any MailboxWorkers.stopRequested = false) :
    HoldsReceivers receiver (Function.update drains shard drain) workers := by
  constructor
  · intro other hOther
    by_cases hShard : other = shard
    · subst hShard
      rw [Function.update_self] at hOther
      exact (hDrain hOther).1
    · rw [Function.update_of_ne hShard] at hOther
      exact h.draining other hOther
  · exact h.idle
  · exact h.working
  · intro hStopping other
    by_cases hShard : other = shard
    · subst hShard
      rw [Function.update_self]
      cases drain with
      | none => rfl
      | some drain => exact absurd ((hDrain rfl).2.symm.trans hStopping) Bool.false_ne_true
    · rw [Function.update_of_ne hShard]
      exact h.stopping hStopping other

theorem setWorker (h : HoldsReceivers receiver drains (some started)) {worker : IngestWorker} {held : Bool}
    (hExpects : worker.Expects held) (hDrain : held = false → drains shard = none) :
    HoldsReceivers (Function.update receiver shard held) drains (some (started.set shard worker)) := by
  constructor
  · intro other hOther
    by_cases hShard : other = shard
    · subst hShard
      cases held with
      | true => exact Function.update_self ..
      | false =>
        rw [hDrain rfl] at hOther
        cases hOther
    · rw [Function.update_of_ne hShard]
      exact h.draining other hOther
  · intro hNone
    cases hNone
  · rintro _ ⟨⟩ other
    rw [MailboxWorkers.workerOn_set]
    by_cases hShard : other = shard
    · subst hShard
      rwa [Function.update_self, Function.update_self]
    · rw [Function.update_of_ne hShard, Function.update_of_ne hShard]
      exact h.working started rfl other
  · exact h.stopping

theorem running (h : HoldsReceivers receiver drains workers) {drain : Nat × IngestDrainSummary}
    (hDrain : drains shard = some drain) : workers.any MailboxWorkers.stopRequested = false := by
  cases hStopping : workers.any MailboxWorkers.stopRequested with
  | false => rfl
  | true =>
    rw [h.stopping hStopping shard] at hDrain
    cases hDrain

end HoldsReceivers

namespace MailboxRuntime

def ReceiversHeld (state : MailboxRuntime config) : Prop :=
  HoldsReceivers state.receiver state.drains state.workers

theorem receiversHeld_start (config : SitasRuntimeConfig) : (start config).ReceiversHeld where
  draining _ hDrain := by cases hDrain
  idle _ _ := rfl
  working _ hWorkers := by cases hWorkers
  stopping hStopping := by cases hStopping

variable {state next : MailboxRuntime config} {answer : MailboxAnswer config}

theorem ReceiversHeld.moves (h : state.ReceiversHeld) (hMoves : state.Moves answer next) : next.ReceiversHeld := by
  rw [ReceiversHeld] at h
  cases hMoves with
  | waits | refused | ingested | submitted | noWorkers => exact h
  | draining _ _ hRunning _ hReceiver => exact h.setDrain fun _ => ⟨hReceiver, hRunning⟩
  | @drainRound shard _ _ _ _ _ hDrain =>
    exact h.setDrain fun _ => ⟨h.draining shard (by rw [hDrain]; rfl), h.running hDrain⟩
  | drained => exact h.setDrain fun hSome => by cases hSome
  | started hWorkers =>
    constructor
    · exact h.draining
    · intro hNone
      cases hNone
    · rintro _ ⟨⟩ shard
      exact h.idle hWorkers shard
    · intro hStopping
      cases hStopping
  | tookReceiver hWorkers _ hDrain =>
    rw [hWorkers] at h
    exact h.setWorker rfl fun _ => hDrain
  | @workerFailed shard workers hWorkers hWorker hReceiver =>
    have hExpects := h.working workers hWorkers shard
    rw [hWorker, hReceiver] at hExpects
    cases hExpects
  | @workerRound shard workers summary event outcome shards hWorkers hWorker =>
    have hExpects := h.working workers hWorkers shard
    rw [hWorker] at hExpects
    have hDrain : state.drains shard = none := by
      rw [← Option.not_isSome_iff_eq_none]
      intro hSome
      exact Bool.false_ne_true (hExpects.symm.trans (h.draining shard hSome))
    have hSame : Function.update state.receiver shard false = state.receiver := by
      rw [← hExpects, Function.update_eq_self]
    rw [hWorkers] at h
    have hNext := @HoldsReceivers.setWorker _ _ _ _ shard h (.receiving (summary.count outcome)) false rfl
      fun _ => hDrain
    rwa [hSame] at hNext
  | workerStopped hWorkers =>
    rw [hWorkers] at h
    exact h.setWorker rfl fun hFalse => by cases hFalse
  | stopRequested hWorkers hDrains =>
    constructor
    · exact h.draining
    · intro hNone
      cases hNone
    · rintro _ ⟨⟩ shard
      exact h.working _ hWorkers shard
    · intro _ shard
      exact Option.not_isSome_iff_eq_none.mp fun hDrain => hDrains ⟨shard, hDrain⟩
  | joined hWorkers hFinished =>
    constructor
    · exact h.draining
    · intro _ shard
      exact ((h.working _ hWorkers shard).finished (hFinished shard)).1
    · intro _ hNone
      cases hNone
    · intro hStopping
      cases hStopping

/-! ## What the summaries count -/

theorem foldl_count_on (shard other : Fin config.shardCount) (event : PipelineEvent)
    (outcome : Except IngestError IngestOutcome) (counts : IngestWorkerSummary) :
    (((MailboxAnswer.received other event outcome).receivedOn shard).map Prod.snd).foldl
      IngestWorkerSummary.count counts = if other = shard then counts.count outcome else counts := by
  rw [MailboxAnswer.receivedOn]
  split
  · rfl
  · rfl

theorem countedOn_setDrain (state : MailboxRuntime config) (shards : SitasShardRuntime config)
    (shard other : Fin config.shardCount) (drain : Option (Nat × IngestDrainSummary)) :
    countedOn { state with shards, drains := Function.update state.drains other drain } shard =
      if other = shard then (drainCounted drain).plus (workerCounted shard state.workers)
      else state.countedOn shard := by
  by_cases hShard : other = shard
  · subst hShard
    rw [if_pos rfl]
    exact congrArg (fun found => (drainCounted found).plus _) (Function.update_self ..)
  · rw [if_neg hShard]
    exact congrArg (fun found => (drainCounted found).plus _) (Function.update_of_ne (Ne.symm hShard) ..)

theorem countedOn_setWorker {workers : MailboxWorkers config} (hWorkers : state.workers = some workers)
    (shards : SitasShardRuntime config) (receiver : Fin config.shardCount → Bool)
    (shard other : Fin config.shardCount) (worker : IngestWorker) :
    countedOn { state with shards, receiver, workers := some (workers.set other worker) } shard =
      if other = shard then (drainCounted (state.drains shard)).plus worker.counted else state.countedOn shard := by
  rw [countedOn, workerCounted, MailboxWorkers.workerOn_set]
  by_cases hShard : other = shard
  · subst hShard
    rw [if_pos rfl, Function.update_self]
  · rw [if_neg hShard, Function.update_of_ne (Ne.symm hShard), countedOn, hWorkers, workerCounted]

/-- A worker that goes on without an event has counted what it had counted. -/
theorem countedOn_sameCount {workers : MailboxWorkers config} (hWorkers : state.workers = some workers)
    (receiver : Fin config.shardCount → Bool) (shard : Fin config.shardCount) {other : Fin config.shardCount}
    {worker : IngestWorker} (hCounted : worker.counted = (workers.workerOn other).counted) :
    countedOn { state with receiver, workers := some (workers.set other worker) } shard = state.countedOn shard := by
  rw [countedOn_setWorker hWorkers]
  split
  · rename_i hShard
    rw [hCounted, hShard, countedOn, hWorkers, workerCounted]
  · rfl

theorem filter_finRange {count : Nat} (shard : Fin count) :
    (List.finRange count).filter (fun other => decide (other = shard)) = [shard] := by
  rw [List.filter_eq, List.count_eq_one_of_mem (List.nodup_finRange _) (List.mem_finRange _)]
  rfl

/-- The workers are joined with a summary each. -/
theorem ReceiversHeld.mapM_results (h : state.ReceiversHeld) {workers : MailboxWorkers config}
    (hWorkers : state.workers = some workers) (hFinished : ∀ shard, (workers.workerOn shard).result?.isSome) :
    (workers.results.mapM fun entry => entry.2.map (Prod.mk entry.1)) =
      .ok ((List.finRange config.shardCount).map fun shard => (shard, (workers.workerOn shard).counted)) := by
  have hResult (shard : Fin config.shardCount) :
      (workers.workerOn shard).result? = some (.ok (workers.workerOn shard).counted) :=
    ((h.working workers hWorkers shard).finished (hFinished shard)).2
  have hResults : workers.results =
      (List.finRange config.shardCount).map fun shard => (shard, .ok (workers.workerOn shard).counted) := by
    rw [MailboxWorkers.results, ← List.filterMap_eq_map]
    refine List.filterMap_congr fun shard _ => ?_
    rw [hResult]
    rfl
  rw [hResults, List.mapM_map]
  exact List.mapM_pure

theorem ReceiversHeld.countedOn_moves (h : state.ReceiversHeld) (hMoves : state.Moves answer next)
    (shard : Fin config.shardCount) :
    (IngestWorkerSummary.total (answer.summariesOn shard)).plus (next.countedOn shard) =
      ((answer.receivedOn shard).map Prod.snd).foldl IngestWorkerSummary.count (state.countedOn shard) := by
  cases hMoves with
  | waits | refused | ingested | submitted | noWorkers => exact IngestWorkerSummary.default_plus _
  | @draining other rounds shardId _ hDrain =>
    refine (IngestWorkerSummary.default_plus _).trans ?_
    rw [countedOn_setDrain]
    split
    · rename_i hShard
      rw [countedOn, ← hShard, hDrain]
      rfl
    · rfl
  | @drainRound other rounds summary event outcome shards hDrain hReceive =>
    rw [foldl_count_on, countedOn_setDrain]
    refine (IngestWorkerSummary.default_plus _).trans ?_
    split
    · rename_i hShard
      rw [countedOn, ← hShard, hDrain, drainCounted, drainCounted, IngestDrainSummary.counts_count,
        IngestWorkerSummary.count_plus]
    · rfl
  | @drained other rounds summary hDrain =>
    rw [countedOn_setDrain, MailboxAnswer.summariesOn]
    by_cases hShard : other = shard
    · rw [if_pos hShard, if_pos hShard, countedOn, ← hShard, hDrain, drainCounted, drainCounted,
        IngestWorkerSummary.default_plus, IngestWorkerSummary.total_singleton]
      rfl
    · rw [if_neg hShard, if_neg hShard]
      exact IngestWorkerSummary.default_plus _
  | started hWorkers =>
    refine (IngestWorkerSummary.default_plus _).trans ?_
    rw [countedOn, countedOn, hWorkers]
    rfl
  | @tookReceiver other workers hWorkers hWorker =>
    refine (IngestWorkerSummary.default_plus _).trans (countedOn_sameCount hWorkers _ shard ?_)
    rw [hWorker]
    rfl
  | @workerFailed other workers hWorkers hWorker =>
    refine (IngestWorkerSummary.default_plus _).trans (countedOn_sameCount hWorkers _ shard ?_)
    rw [hWorker]
    rfl
  | @workerRound other workers summary event outcome shards hWorkers hWorker hReceive =>
    rw [foldl_count_on, countedOn_setWorker hWorkers]
    refine (IngestWorkerSummary.default_plus _).trans ?_
    split
    · rename_i hShard
      rw [countedOn, ← hShard, hWorkers, workerCounted, hWorker, IngestWorker.counted, IngestWorker.counted,
        IngestWorkerSummary.plus_count]
    · rfl
  | @workerStopped other workers summary hWorkers hWorker =>
    refine (IngestWorkerSummary.default_plus _).trans (countedOn_sameCount hWorkers _ shard ?_)
    rw [hWorker]
    rfl
  | stopRequested hWorkers =>
    refine (IngestWorkerSummary.default_plus _).trans ?_
    rw [countedOn, countedOn, hWorkers]
    rfl
  | @joined workers hWorkers hFinished =>
    have hSummary : (((List.finRange config.shardCount).map fun other =>
        (other, (workers.workerOn other).counted)).filter fun entry => entry.1 = shard).map Prod.snd =
          [(workers.workerOn shard).counted] := by
      rw [List.filter_map, List.map_map]
      exact congrArg (List.map _) (filter_finRange shard)
    rw [h.mapM_results hWorkers hFinished, MailboxAnswer.summariesOn, hSummary, countedOn, countedOn, hWorkers]
    calc
      (IngestWorkerSummary.total [(workers.workerOn shard).counted]).plus
            ((drainCounted (state.drains shard)).plus .default) =
          ((workers.workerOn shard).counted).plus (drainCounted (state.drains shard)) := by
        rw [IngestWorkerSummary.total_singleton, IngestWorkerSummary.plus_default]
      _ = (drainCounted (state.drains shard)).plus (workers.workerOn shard).counted :=
        IngestWorkerSummary.plus_comm ..

/-! ## Stopping -/

/-- Every worker takes its receiver if it has not, sees the stop token, and is joined. -/
def finishing (config : SitasRuntimeConfig) : List (MailboxStep config) :=
  ((List.finRange config.shardCount).flatMap fun shard => [.workerRound shard, .workerStop shard]) ++ [.joinWorkers]

/-- The workers of these shards have returned, and the others will be stopped. -/
structure Finishing (shards : List (Fin config.shardCount)) (state : MailboxRuntime config) : Prop where
  held : state.ReceiversHeld
  stopping : state.stopping = true
  returned : ∀ workers, state.workers = some workers →
    ∀ shard ∈ shards, (workers.workerOn shard).result?.isSome

theorem exists_workers (h : state.stopping = true) :
    ∃ workers, state.workers = some workers ∧ workers.stopRequested = true := by
  rw [stopping] at h
  cases hWorkers : state.workers with
  | none =>
    rw [hWorkers] at h
    cases h
  | some workers =>
    rw [hWorkers] at h
    exact ⟨workers, rfl, h⟩

theorem returned_set {workers : MailboxWorkers config} {shards : List (Fin config.shardCount)}
    (h : ∀ shard ∈ shards, (workers.workerOn shard).result?.isSome) {shard : Fin config.shardCount}
    {worker : IngestWorker} (hWorker : worker.result?.isSome ∨ (workers.workerOn shard).result? = none) :
    ∀ other ∈ shards, ((workers.set shard worker).workerOn other).result?.isSome := by
  intro other hOther
  rw [MailboxWorkers.workerOn_set]
  by_cases hShard : other = shard
  · subst hShard
    rw [Function.update_self]
    rcases hWorker with hSome | hNone
    · exact hSome
    · have hReturned := h other hOther
      rw [hNone] at hReturned
      cases hReturned
  · rw [Function.update_of_ne hShard]
    exact h other hOther

/-- After a round the worker has begun. -/
theorem Finishing.workerRound {shards : List (Fin config.shardCount)} (h : Finishing shards state)
    (shard : Fin config.shardCount) :
    Finishing shards (state.workerRound shard).2 ∧
      ∀ workers, (state.workerRound shard).2.workers = some workers → workers.workerOn shard ≠ .spawned := by
  obtain ⟨workers, hWorkers, hStop⟩ := exists_workers h.stopping
  have hHeld := h.held.moves (state.moves_operate (.workerRound shard))
  have hReturned := h.returned workers hWorkers
  rw [operate] at hHeld
  simp only [MailboxRuntime.workerRound, hWorkers] at hHeld ⊢
  cases hWorker : workers.workerOn shard with
  | finished result =>
    refine ⟨h, ?_⟩
    rintro _ hSame
    rw [hWorkers] at hSame
    cases hSame
    rw [hWorker]
    exact IngestWorker.noConfusion
  | spawned =>
    have hDrain := h.held.stopping h.stopping shard
    have hReceiver : state.receiver shard = true := by
      have hExpects := h.held.working workers hWorkers shard
      rwa [hWorker] at hExpects
    simp only [hWorker, hDrain, Option.isSome_none, Bool.false_eq_true, if_false, hReceiver, if_true] at hHeld ⊢
    refine ⟨⟨hHeld, hStop, ?_⟩, ?_⟩
    · rintro _ ⟨⟩
      exact returned_set hReturned (.inr (by rw [hWorker]; rfl))
    · rintro _ ⟨⟩
      rw [MailboxWorkers.workerOn_set, Function.update_self]
      exact IngestWorker.noConfusion
  | receiving summary =>
    simp only [hWorker] at hHeld ⊢
    cases hReceive : state.shards.receive shard with
    | none =>
      refine ⟨h, ?_⟩
      rintro _ hSame
      rw [hWorkers] at hSame
      cases hSame
      rw [hWorker]
      exact IngestWorker.noConfusion
    | some received =>
      simp only [hReceive] at hHeld
      refine ⟨⟨hHeld, hStop, ?_⟩, ?_⟩
      · rintro _ ⟨⟩
        exact returned_set hReturned (.inr (by rw [hWorker]; rfl))
      · rintro _ ⟨⟩
        rw [MailboxWorkers.workerOn_set, Function.update_self]
        exact IngestWorker.noConfusion

theorem Finishing.workerStop {shards : List (Fin config.shardCount)} (h : Finishing shards state)
    {shard : Fin config.shardCount}
    (hBegun : ∀ workers, state.workers = some workers → workers.workerOn shard ≠ .spawned) :
    Finishing (shard :: shards) (state.workerStop shard).2 := by
  obtain ⟨workers, hWorkers, hStop⟩ := exists_workers h.stopping
  have hHeld := h.held.moves (state.moves_operate (.workerStop shard))
  have hReturned := h.returned workers hWorkers
  rw [operate] at hHeld
  simp only [MailboxRuntime.workerStop, hWorkers] at hHeld ⊢
  cases hWorker : workers.workerOn shard with
  | spawned => exact absurd hWorker (hBegun workers hWorkers)
  | finished result =>
    refine ⟨h.held, h.stopping, fun other hOther => ?_⟩
    rw [hWorkers] at hOther
    cases hOther
    exact List.forall_mem_cons.mpr ⟨by rw [hWorker]; rfl, hReturned⟩
  | receiving summary =>
    simp only [hWorker, hStop, if_true] at hHeld ⊢
    refine ⟨hHeld, hStop, ?_⟩
    rintro _ ⟨⟩
    refine List.forall_mem_cons.mpr ⟨?_, returned_set hReturned (.inl rfl)⟩
    rw [MailboxWorkers.workerOn_set, Function.update_self]
    rfl

theorem Finishing.run {shards : List (Fin config.shardCount)} (h : Finishing shards state)
    (others : List (Fin config.shardCount)) :
    Finishing (others.reverse ++ shards)
      (run operate state (others.flatMap fun shard => [.workerRound shard, .workerStop shard])).2 := by
  induction others generalizing state shards with
  | nil => exact h
  | cons shard others ih =>
    obtain ⟨hRound, hBegun⟩ := h.workerRound shard
    have hRest := ih (hRound.workerStop hBegun)
    rw [List.reverse_cons, List.append_assoc]
    exact hRest

theorem workers_finishing (hHeld : state.ReceiversHeld) (hStopping : state.stopping = true) :
    (run operate state (finishing config)).2.workers = none := by
  have hFinishing : Finishing [] state := ⟨hHeld, hStopping, fun _ _ _ hNone => by cases hNone⟩
  have hAll := hFinishing.run (List.finRange config.shardCount)
  rw [finishing, run_append]
  generalize (Foundation.run operate state _).2 = stopped at hAll ⊢
  obtain ⟨workers, hWorkers, hStop⟩ := exists_workers hAll.stopping
  have hReturned : ∀ shard, (workers.workerOn shard).result?.isSome := by
    intro shard
    exact hAll.returned workers hWorkers shard (by simp)
  change (joinWorkers stopped).2.workers = none
  rw [joinWorkers, hWorkers]
  simp only [if_pos (And.intro hStop hReturned)]

end MailboxRuntime

/-! ## Runs -/

open MailboxRuntime

structure Accounted (answers : List (MailboxAnswer config)) (state : MailboxRuntime config) : Prop where
  keeps : Keeps answers state.shards
  held : state.ReceiversHeld
  counted : ∀ shard, (IngestWorkerSummary.total (answers.flatMap (MailboxAnswer.summariesOn shard))).plus
      (state.countedOn shard) =
    .tally ((answers.flatMap (MailboxAnswer.receivedOn shard)).map Prod.snd)
  working : ∀ answer ∈ answers, (∀ shard error, answer ≠ .workerFailed shard error) ∧
    ∀ error, answer ≠ .joined (.error error)

theorem ReceiversHeld.working {state next : MailboxRuntime config} {answer : MailboxAnswer config}
    (h : state.ReceiversHeld) (hMoves : state.Moves answer next) :
    (∀ shard error, answer ≠ .workerFailed shard error) ∧ ∀ error, answer ≠ .joined (.error error) := by
  cases hMoves with
  | @workerFailed shard workers hWorkers hWorker hReceiver =>
    have hExpects := HoldsReceivers.working h workers hWorkers shard
    rw [hWorker, hReceiver] at hExpects
    cases hExpects
  | @joined workers hWorkers hFinished =>
    rw [h.mapM_results hWorkers hFinished]
    exact ⟨fun _ _ hSame => (by cases hSame), fun _ hSame => (by cases hSame)⟩
  | _ => exact ⟨fun _ _ hSame => (by cases hSame), fun _ hSame => (by cases hSame)⟩

theorem Accounted.moves {answers : List (MailboxAnswer config)} {state next : MailboxRuntime config}
    {answer : MailboxAnswer config} (h : Accounted answers state) (hMoves : state.Moves answer next) :
    Accounted (answers ++ [answer]) next := by
  refine ⟨h.keeps.step hMoves.effect, h.held.moves hMoves, fun shard => ?_, fun other hOther => ?_⟩
  · rw [flatMap_concat, flatMap_concat, IngestWorkerSummary.total_append, List.map_append,
      IngestWorkerSummary.tally, List.foldl_append]
    change _ = (answer.receivedOn shard |>.map Prod.snd).foldl IngestWorkerSummary.count
      (.tally ((answers.flatMap (MailboxAnswer.receivedOn shard)).map Prod.snd))
    rw [← h.counted shard, IngestWorkerSummary.plus_assoc, h.held.countedOn_moves hMoves shard,
      IngestWorkerSummary.plus_foldl_count]
  · rcases List.mem_append.mp hOther with hOld | hNew
    · exact h.working other hOld
    · rw [List.mem_singleton.mp hNew]
      exact ReceiversHeld.working h.held hMoves

theorem accounted_start (config : SitasRuntimeConfig) : Accounted [] (start config) where
  keeps := {
    index := fun _ => rfl
    mailbox := fun _ => rfl
    room := fun _ => Nat.zero_le _
    valid := fun _ _ hNone => (by cases hNone)
    succeeds := fun _ _ hNone => (by cases hNone)
    counts := fun _ => ⟨rfl, rfl, rfl⟩ }
  held := receiversHeld_start config
  counted := fun _ => rfl
  working := List.forall_mem_nil _

/-- The run lemma. -/
theorem accounted_run (config : SitasRuntimeConfig) (steps : List (MailboxStep config)) :
    Accounted ((run operate (start config) steps).1.map Prod.snd) (run operate (start config) steps).2 := by
  refine @run_history _ _ _ operate (fun history state => Accounted (history.map Prod.snd) state) ?_ _
    (accounted_start config) steps
  intro past state step hPast
  rw [List.map_append]
  exact hPast.moves (state.moves_operate step)

/-- Whatever calls, drains and workers do in whatever order, every event that was taken into a mailbox is ingested
once and in order or still waits, the summaries and what is being counted account for all that was received, a worker
never finds its receiver gone, and workers that are told to stop can be joined. -/
theorem mailbox_workers_account (config : SitasRuntimeConfig) (steps : List (MailboxStep config)) :
    let answers := (run operate (start config) steps).1.map Prod.snd
    let final := (run operate (start config) steps).2
    (∀ shard, (answers.flatMap (MailboxAnswer.receivedOn shard)).map Prod.fst ++ final.shards.mailbox shard =
        answers.flatMap (MailboxAnswer.submittedOn shard) ∧
      (final.shards.mailbox shard).length ≤ config.mailboxCapacityPerShard) ∧
    (∀ shard, final.shards.hotIndex shard =
        HotIndex.new.ingestAll ((answers.flatMap (MailboxAnswer.ingestedOn shard)).map Prod.fst) ∧
      CountsOutcomes (final.shards.hotIndex shard)
        (.tally ((answers.flatMap (MailboxAnswer.ingestedOn shard)).map Prod.snd))) ∧
    (∀ shard, (IngestWorkerSummary.total (answers.flatMap (MailboxAnswer.summariesOn shard))).plus
        (final.countedOn shard) =
      .tally ((answers.flatMap (MailboxAnswer.receivedOn shard)).map Prod.snd)) ∧
    (∀ shard, ∀ entry ∈ answers.flatMap (MailboxAnswer.receivedOn shard), ∃ outcome, entry.2 = .ok outcome) ∧
    (∀ answer ∈ answers, (∀ shard error, answer ≠ .workerFailed shard error) ∧
      ∀ error, answer ≠ .joined (.error error)) ∧
    (final.workers = none → ∀ shard, final.receiver shard = true) ∧
    (final.stopping = true → (run operate final (finishing config)).2.workers = none) := by
  intro answers final
  have hAccounted := accounted_run config steps
  have hKeeps := hAccounted.keeps
  exact ⟨fun shard => ⟨hKeeps.mailbox shard, hKeeps.room shard⟩,
    fun shard => ⟨hKeeps.index shard, hKeeps.counts shard⟩, hAccounted.counted, hKeeps.succeeds, hAccounted.working,
    hAccounted.held.idle, workers_finishing hAccounted.held⟩

end Vannak.Runtime
