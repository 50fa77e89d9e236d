import Vannak.Runtime.BoundedIngest
import Vannak.Runtime.Sitas

/-!
# Mailbox workers

The calls and the workers of `sitas_runtime.rs`. A worker takes the receiver of its shard, ingests one event after
another and puts the receiver back when it is stopped; without workers `drain_shard` reads the mailbox. Sends come
from any thread between any two rounds. Starting and stopping the workers borrow the runtime alone: they wait for the
drains to return, and no other call begins before the workers are joined.
-/

namespace Vannak.Runtime

open Foundation Process
open SitasShardRuntime (shardFor)

set_option autoImplicit false

inductive MailboxError where
  | sitas (error : SitasRuntimeError)
  | invalidShard (shardId : Nat)
  | workersAlreadyRunning
  | workersRunning
deriving DecidableEq, Repr

@[ext]
structure IngestWorkerSummary where
  attempted : Nat
  accepted : Nat
  duplicates : Nat
  failed : Nat
deriving DecidableEq, Repr

namespace IngestWorkerSummary

def default : IngestWorkerSummary := ⟨0, 0, 0, 0⟩

/-- One more outcome in the loop of `run_ingest_worker`. -/
def count (summary : IngestWorkerSummary) (outcome : Except IngestError IngestOutcome) : IngestWorkerSummary :=
  let summary := { summary with attempted := summary.attempted + 1 }
  match outcome with
  | .ok .accepted => { summary with accepted := summary.accepted + 1 }
  | .ok .duplicate => { summary with duplicates := summary.duplicates + 1 }
  | .error _ => { summary with failed := summary.failed + 1 }

def plus (left right : IngestWorkerSummary) : IngestWorkerSummary where
  attempted := left.attempted + right.attempted
  accepted := left.accepted + right.accepted
  duplicates := left.duplicates + right.duplicates
  failed := left.failed + right.failed

/-- The counts of outcomes in a row. -/
def tally (outcomes : List (Except IngestError IngestOutcome)) : IngestWorkerSummary := outcomes.foldl count default

def total (summaries : List IngestWorkerSummary) : IngestWorkerSummary := summaries.foldl plus default

theorem plus_default (summary : IngestWorkerSummary) : summary.plus default = summary := rfl

theorem default_plus (summary : IngestWorkerSummary) : default.plus summary = summary := by
  ext <;> exact Nat.zero_add _

theorem total_singleton (summary : IngestWorkerSummary) : total [summary] = summary := default_plus summary

theorem plus_assoc (first second third : IngestWorkerSummary) :
    (first.plus second).plus third = first.plus (second.plus third) := by
  ext <;> exact Nat.add_assoc ..

theorem plus_comm (left right : IngestWorkerSummary) : left.plus right = right.plus left := by
  ext <;> exact Nat.add_comm ..

theorem plus_count (first second : IngestWorkerSummary) (outcome : Except IngestError IngestOutcome) :
    first.plus (second.count outcome) = (first.plus second).count outcome := by
  rcases outcome with error | (_ | _) <;> rfl

theorem plus_foldl_count (first second : IngestWorkerSummary)
    (outcomes : List (Except IngestError IngestOutcome)) :
    first.plus (outcomes.foldl count second) = outcomes.foldl count (first.plus second) := by
  induction outcomes generalizing second with
  | nil => rfl
  | cons outcome outcomes ih => rw [List.foldl_cons, ih, plus_count, List.foldl_cons]

theorem total_append (first second : List IngestWorkerSummary) :
    total (first ++ second) = (total first).plus (total second) := by
  induction second using List.reverseRecOn with
  | nil => rw [List.append_nil, total, total, List.foldl_nil, plus_default]
  | append_singleton second summary ih =>
    have hLast : total (second ++ [summary]) = (total second).plus summary := List.foldl_concat ..
    rw [← List.append_assoc, hLast, ← plus_assoc, ← ih]
    exact List.foldl_concat ..

theorem count_plus (first second : IngestWorkerSummary) (outcome : Except IngestError IngestOutcome) :
    (first.count outcome).plus second = (first.plus second).count outcome := by
  rcases outcome with error | (_ | _) <;> ext <;> simp [count, plus] <;> omega

end IngestWorkerSummary

namespace IngestDrainSummary

/-- One more outcome in the loop of `drain_shard`. -/
def count (summary : IngestDrainSummary) (outcome : Except IngestError IngestOutcome) : IngestDrainSummary :=
  let summary := { summary with attempted := summary.attempted + 1 }
  match outcome with
  | .ok .accepted => { summary with accepted := summary.accepted + 1 }
  | .ok .duplicate => { summary with duplicates := summary.duplicates + 1 }
  | .error _ => { summary with failed := summary.failed + 1 }

def counts (summary : IngestDrainSummary) : IngestWorkerSummary :=
  ⟨summary.attempted, summary.accepted, summary.duplicates, summary.failed⟩

theorem counts_count (summary : IngestDrainSummary) (outcome : Except IngestError IngestOutcome) :
    (summary.count outcome).counts = summary.counts.count outcome := by
  rcases outcome with error | (_ | _) <;> rfl

end IngestDrainSummary

/-! ## The runtime -/

inductive IngestWorker where
  | spawned
  | receiving (summary : IngestWorkerSummary)
  | finished (result : Except MailboxError IngestWorkerSummary)

def IngestWorker.result? : IngestWorker → Option (Except MailboxError IngestWorkerSummary)
  | .finished result => some result
  | .spawned | .receiving _ => none

variable {config : SitasRuntimeConfig}

structure MailboxWorkers (config : SitasRuntimeConfig) where
  stopRequested : Bool
  workerOn : Fin config.shardCount → IngestWorker

def MailboxWorkers.set (workers : MailboxWorkers config) (shard : Fin config.shardCount) (worker : IngestWorker) :
    MailboxWorkers config :=
  { workers with workerOn := Function.update workers.workerOn shard worker }

theorem MailboxWorkers.workerOn_set (workers : MailboxWorkers config) (shard : Fin config.shardCount)
    (worker : IngestWorker) : (workers.set shard worker).workerOn = Function.update workers.workerOn shard worker :=
  rfl

/-- The answers of the workers in the order of the shards. -/
def MailboxWorkers.results (workers : MailboxWorkers config) :
    List (Fin config.shardCount × Except MailboxError IngestWorkerSummary) :=
  (List.finRange config.shardCount).filterMap fun shard => (workers.workerOn shard).result?.map (Prod.mk shard)

/-- `receiver` says where the receiver of the mailbox is in the state of the shard, `drains` holds the rounds that are
left to a drain and what it counted. -/
structure MailboxRuntime (config : SitasRuntimeConfig) where
  shards : SitasShardRuntime config
  receiver : Fin config.shardCount → Bool
  drains : Fin config.shardCount → Option (Nat × IngestDrainSummary)
  workers : Option (MailboxWorkers config)

inductive MailboxStep (config : SitasRuntimeConfig) where
  | ingest (event : PipelineEvent)
  | trySubmit (event : PipelineEvent)
  | submit (event : PipelineEvent)
  | drainShard (shardId maxEvents : Nat)
  | drainRound (shard : Fin config.shardCount)
  | startMailboxWorkers
  | workerRound (shard : Fin config.shardCount)
  | workerStop (shard : Fin config.shardCount)
  | stopMailboxWorkers
  | joinWorkers

inductive MailboxAnswer (config : SitasRuntimeConfig) where
  | waits
  | refused (error : MailboxError)
  | ingested (shard : Fin config.shardCount) (event : PipelineEvent) (outcome : Except IngestError IngestOutcome)
  | submitted (event : PipelineEvent) (outcome : QueuedIngestOutcome)
  | received (shard : Fin config.shardCount) (event : PipelineEvent) (outcome : Except IngestError IngestOutcome)
  | draining (shard : Fin config.shardCount)
  | drained (shard : Fin config.shardCount) (summary : IngestDrainSummary)
  | started
  | tookReceiver (shard : Fin config.shardCount)
  | workerFailed (shard : Fin config.shardCount) (error : MailboxError)
  | stopRequested
  | workerStopped (shard : Fin config.shardCount)
  | joined (result : Except MailboxError (List (Fin config.shardCount × IngestWorkerSummary)))

/-- A receiver takes the first event of its mailbox, and the shard ingests it. -/
def SitasShardRuntime.receive (runtime : SitasShardRuntime config) (shard : Fin config.shardCount) :
    Option (PipelineEvent × Except IngestError IngestOutcome × SitasShardRuntime config) :=
  match runtime.mailbox shard with
  | [] => none
  | event :: rest =>
    let (outcome, runtime) := runtime.ingestOn shard event
    some (event, outcome, { runtime with mailbox := Function.update runtime.mailbox shard rest })

namespace MailboxRuntime

def start (config : SitasRuntimeConfig) : MailboxRuntime config :=
  ⟨.start config, fun _ => true, fun _ => none, none⟩

/-- `stop_mailbox_workers` has been called and still borrows the runtime. -/
def stopping (state : MailboxRuntime config) : Bool := state.workers.any MailboxWorkers.stopRequested

def anyDrain (state : MailboxRuntime config) : Prop := ∃ shard, (state.drains shard).isSome

instance (state : MailboxRuntime config) : Decidable state.anyDrain :=
  inferInstanceAs (Decidable (∃ shard, (state.drains shard).isSome))

/-- The closure of a drain keeps its shard until it returns. -/
def ingest (state : MailboxRuntime config) (event : PipelineEvent) : MailboxAnswer config × MailboxRuntime config :=
  let shard := shardFor config event.processInstanceId
  if state.stopping ∨ (state.drains shard).isSome then (.waits, state)
  else
    let (outcome, shards) := state.shards.ingestOn shard event
    (.ingested shard event outcome, { state with shards })

def trySubmit (state : MailboxRuntime config) (event : PipelineEvent) :
    MailboxAnswer config × MailboxRuntime config :=
  if state.stopping then (.waits, state)
  else
    match state.shards.trySubmit event with
    | (.error error, _) => (.refused (.sitas error), state)
    | (.ok outcome, shards) => (.submitted event outcome, { state with shards })

/-- `send` waits where `try_send` finds the mailbox full. -/
def submit (state : MailboxRuntime config) (event : PipelineEvent) : MailboxAnswer config × MailboxRuntime config :=
  if state.stopping then (.waits, state)
  else
    match state.shards.trySubmit event with
    | (.error (.ingest error), _) => (.refused (.sitas (.ingest error)), state)
    | (.error (.queueFull _ _), _) => (.waits, state)
    | (.ok outcome, shards) => (.submitted event outcome, { state with shards })

def drainShard (state : MailboxRuntime config) (shardId maxEvents : Nat) :
    MailboxAnswer config × MailboxRuntime config :=
  if state.stopping then (.waits, state)
  else if hShard : shardId < config.shardCount then
    let shard : Fin config.shardCount := ⟨shardId, hShard⟩
    if (state.drains shard).isSome then (.waits, state)
    else if state.receiver shard then
      let summary : IngestDrainSummary := ⟨shardId, 0, 0, 0, 0, 0⟩
      (.draining shard, { state with drains := Function.update state.drains shard (some (maxEvents, summary)) })
    else (.refused .workersRunning, state)
  else (.refused (.invalidShard shardId), state)

/-- The drain returns. -/
def drainEnd (state : MailboxRuntime config) (shard : Fin config.shardCount) (summary : IngestDrainSummary) :
    MailboxAnswer config × MailboxRuntime config :=
  (.drained shard { summary with remainingDepth := (state.shards.mailbox shard).length },
    { state with drains := Function.update state.drains shard none })

def drainRound (state : MailboxRuntime config) (shard : Fin config.shardCount) :
    MailboxAnswer config × MailboxRuntime config :=
  match state.drains shard with
  | none => (.waits, state)
  | some (0, summary) => state.drainEnd shard summary
  | some (rounds + 1, summary) =>
    match state.shards.receive shard with
    | none => state.drainEnd shard summary
    | some (event, outcome, shards) =>
      (.received shard event outcome,
        { state with
          shards
          drains := Function.update state.drains shard (some (rounds, summary.count outcome)) })

def startMailboxWorkers (state : MailboxRuntime config) : MailboxAnswer config × MailboxRuntime config :=
  if state.stopping ∨ state.anyDrain then (.waits, state)
  else
    match state.workers with
    | some _ => (.refused .workersAlreadyRunning, state)
    | none => (.started, { state with workers := some ⟨false, fun _ => .spawned⟩ })

/-- What `run_ingest_worker` does until it waits again, or would wait. -/
def workerRound (state : MailboxRuntime config) (shard : Fin config.shardCount) :
    MailboxAnswer config × MailboxRuntime config :=
  match state.workers with
  | none => (.waits, state)
  | some workers =>
    match workers.workerOn shard with
    | .finished _ => (.waits, state)
    | .spawned =>
      if (state.drains shard).isSome then (.waits, state)
      else if state.receiver shard then
        (.tookReceiver shard,
          { state with
            receiver := Function.update state.receiver shard false
            workers := some (workers.set shard (.receiving .default)) })
      else
        (.workerFailed shard .workersRunning,
          { state with workers := some (workers.set shard (.finished (.error .workersRunning))) })
    | .receiving summary =>
      match state.shards.receive shard with
      | none => (.waits, state)
      | some (event, outcome, shards) =>
        (.received shard event outcome,
          { state with
            shards
            workers := some (workers.set shard (.receiving (summary.count outcome))) })

/-- The worker sees the stop token: it puts the receiver back. -/
def workerStop (state : MailboxRuntime config) (shard : Fin config.shardCount) :
    MailboxAnswer config × MailboxRuntime config :=
  match state.workers with
  | none => (.waits, state)
  | some workers =>
    match workers.workerOn shard with
    | .spawned | .finished _ => (.waits, state)
    | .receiving summary =>
      if workers.stopRequested then
        (.workerStopped shard,
          { state with
            receiver := Function.update state.receiver shard true
            workers := some (workers.set shard (.finished (.ok summary))) })
      else (.waits, state)

def stopMailboxWorkers (state : MailboxRuntime config) : MailboxAnswer config × MailboxRuntime config :=
  if state.stopping ∨ state.anyDrain then (.waits, state)
  else
    match state.workers with
    | none => (.joined (.ok []), state)
    | some workers => (.stopRequested, { state with workers := some { workers with stopRequested := true } })

/-- `stop_and_join` returns when every worker has. -/
def joinWorkers (state : MailboxRuntime config) : MailboxAnswer config × MailboxRuntime config :=
  match state.workers with
  | none => (.waits, state)
  | some workers =>
    if workers.stopRequested ∧ ∀ shard, (workers.workerOn shard).result?.isSome then
      (.joined (workers.results.mapM fun entry => entry.2.map (Prod.mk entry.1)), { state with workers := none })
    else (.waits, state)

def operate (state : MailboxRuntime config) : MailboxStep config → MailboxAnswer config × MailboxRuntime config
  | .ingest event => state.ingest event
  | .trySubmit event => state.trySubmit event
  | .submit event => state.submit event
  | .drainShard shardId maxEvents => state.drainShard shardId maxEvents
  | .drainRound shard => state.drainRound shard
  | .startMailboxWorkers => state.startMailboxWorkers
  | .workerRound shard => state.workerRound shard
  | .workerStop shard => state.workerStop shard
  | .stopMailboxWorkers => state.stopMailboxWorkers
  | .joinWorkers => state.joinWorkers

end MailboxRuntime

/-! ## What the answers tell of a shard -/

namespace MailboxAnswer

def calledOn (shard : Fin config.shardCount) :
    MailboxAnswer config → List (PipelineEvent × Except IngestError IngestOutcome)
  | .ingested other event outcome => if other = shard then [(event, outcome)] else []
  | _ => []

def receivedOn (shard : Fin config.shardCount) :
    MailboxAnswer config → List (PipelineEvent × Except IngestError IngestOutcome)
  | .received other event outcome => if other = shard then [(event, outcome)] else []
  | _ => []

/-- What the shard ingested, called directly or from its mailbox. -/
def ingestedOn (shard : Fin config.shardCount) (answer : MailboxAnswer config) :
    List (PipelineEvent × Except IngestError IngestOutcome) :=
  answer.calledOn shard ++ answer.receivedOn shard

def submittedOn (shard : Fin config.shardCount) : MailboxAnswer config → List PipelineEvent
  | .submitted event _ => if shardFor config event.processInstanceId = shard then [event] else []
  | _ => []

/-- The summaries that callers got. -/
def summariesOn (shard : Fin config.shardCount) : MailboxAnswer config → List IngestWorkerSummary
  | .drained other summary => if other = shard then [summary.counts] else []
  | .joined (.ok summaries) => (summaries.filter fun entry => entry.1 = shard).map Prod.snd
  | _ => []

end MailboxAnswer

def IngestWorker.counted : IngestWorker → IngestWorkerSummary
  | .receiving summary | .finished (.ok summary) => summary
  | .spawned | .finished (.error _) => .default

def drainCounted : Option (Nat × IngestDrainSummary) → IngestWorkerSummary
  | none => .default
  | some (_, summary) => summary.counts

def workerCounted (shard : Fin config.shardCount) : Option (MailboxWorkers config) → IngestWorkerSummary
  | none => .default
  | some workers => (workers.workerOn shard).counted

/-- What a drain and a worker have counted and not yet returned. -/
def MailboxRuntime.countedOn (state : MailboxRuntime config) (shard : Fin config.shardCount) : IngestWorkerSummary :=
  (drainCounted (state.drains shard)).plus (workerCounted shard state.workers)

/-! ## What a step can do -/

namespace MailboxRuntime

inductive Moves (state : MailboxRuntime config) : MailboxAnswer config → MailboxRuntime config → Prop where
  | waits : Moves state .waits state
  | refused (error : MailboxError) : Moves state (.refused error) state
  | ingested (event : PipelineEvent) :
    Moves state
      (.ingested (shardFor config event.processInstanceId) event
        (state.shards.ingestOn (shardFor config event.processInstanceId) event).1)
      { state with shards := (state.shards.ingestOn (shardFor config event.processInstanceId) event).2 }
  | submitted {event : PipelineEvent} {outcome : QueuedIngestOutcome} {shards : SitasShardRuntime config}
    (hSubmit : state.shards.trySubmit event = (.ok outcome, shards)) :
    Moves state (.submitted event outcome) { state with shards }
  | draining {shard : Fin config.shardCount} (rounds shardId : Nat) (hRunning : state.stopping = false)
    (hDrain : state.drains shard = none) (hReceiver : state.receiver shard = true) :
    Moves state (.draining shard)
      { state with drains := Function.update state.drains shard (some (rounds, ⟨shardId, 0, 0, 0, 0, 0⟩)) }
  | drainRound {shard : Fin config.shardCount} {rounds : Nat} {summary : IngestDrainSummary} {event : PipelineEvent}
    {outcome : Except IngestError IngestOutcome} {shards : SitasShardRuntime config}
    (hDrain : state.drains shard = some (rounds + 1, summary))
    (hReceive : state.shards.receive shard = some (event, outcome, shards)) :
    Moves state (.received shard event outcome)
      { state with
        shards
        drains := Function.update state.drains shard (some (rounds, summary.count outcome)) }
  | drained {shard : Fin config.shardCount} {rounds : Nat} {summary : IngestDrainSummary}
    (hDrain : state.drains shard = some (rounds, summary)) :
    Moves state (.drained shard { summary with remainingDepth := (state.shards.mailbox shard).length })
      { state with drains := Function.update state.drains shard none }
  | started (hWorkers : state.workers = none) :
    Moves state .started { state with workers := some ⟨false, fun _ => .spawned⟩ }
  | tookReceiver {shard : Fin config.shardCount} {workers : MailboxWorkers config}
    (hWorkers : state.workers = some workers) (hWorker : workers.workerOn shard = .spawned)
    (hDrain : state.drains shard = none) :
    Moves state (.tookReceiver shard)
      { state with
        receiver := Function.update state.receiver shard false
        workers := some (workers.set shard (.receiving .default)) }
  | workerFailed {shard : Fin config.shardCount} {workers : MailboxWorkers config}
    (hWorkers : state.workers = some workers) (hWorker : workers.workerOn shard = .spawned)
    (hReceiver : state.receiver shard = false) :
    Moves state (.workerFailed shard .workersRunning)
      { state with workers := some (workers.set shard (.finished (.error .workersRunning))) }
  | workerRound {shard : Fin config.shardCount} {workers : MailboxWorkers config} {summary : IngestWorkerSummary}
    {event : PipelineEvent} {outcome : Except IngestError IngestOutcome} {shards : SitasShardRuntime config}
    (hWorkers : state.workers = some workers) (hWorker : workers.workerOn shard = .receiving summary)
    (hReceive : state.shards.receive shard = some (event, outcome, shards)) :
    Moves state (.received shard event outcome)
      { state with
        shards
        workers := some (workers.set shard (.receiving (summary.count outcome))) }
  | workerStopped {shard : Fin config.shardCount} {workers : MailboxWorkers config} {summary : IngestWorkerSummary}
    (hWorkers : state.workers = some workers) (hWorker : workers.workerOn shard = .receiving summary) :
    Moves state (.workerStopped shard)
      { state with
        receiver := Function.update state.receiver shard true
        workers := some (workers.set shard (.finished (.ok summary))) }
  | stopRequested {workers : MailboxWorkers config} (hWorkers : state.workers = some workers)
    (hDrains : ¬state.anyDrain) :
    Moves state .stopRequested { state with workers := some { workers with stopRequested := true } }
  | noWorkers (hWorkers : state.workers = none) : Moves state (.joined (.ok [])) state
  | joined {workers : MailboxWorkers config} (hWorkers : state.workers = some workers)
    (hFinished : ∀ shard, (workers.workerOn shard).result?.isSome) :
    Moves state (.joined (workers.results.mapM fun entry => entry.2.map (Prod.mk entry.1)))
      { state with workers := none }

theorem moves_operate (state : MailboxRuntime config) (step : MailboxStep config) :
    Moves state (state.operate step).1 (state.operate step).2 := by
  cases step with
  | ingest event =>
    rw [operate, ingest]
    split
    · exact .waits
    · exact .ingested event
  | trySubmit event =>
    rw [operate, trySubmit]
    split
    · exact .waits
    · split
      · exact .refused _
      · rename_i hSubmit
        exact .submitted hSubmit
  | submit event =>
    rw [operate, submit]
    split
    · exact .waits
    · split
      · exact .refused _
      · exact .waits
      · rename_i hSubmit
        exact .submitted hSubmit
  | drainShard shardId maxEvents =>
    rw [operate, drainShard]
    split
    · exact .waits
    · rename_i hRunning
      split
      · rename_i hShard
        simp only
        split
        · exact .waits
        · rename_i hDrain
          split
          · rename_i hReceiver
            exact .draining maxEvents shardId (Bool.eq_false_of_not_eq_true hRunning)
              (Option.not_isSome_iff_eq_none.mp hDrain) hReceiver
          · exact .refused _
      · exact .refused _
  | drainRound shard =>
    rw [operate, drainRound]
    split
    · exact .waits
    · rename_i hDrain
      exact .drained hDrain
    · rename_i hDrain
      split
      · exact .drained hDrain
      · rename_i hReceive
        exact .drainRound hDrain hReceive
  | startMailboxWorkers =>
    rw [operate, startMailboxWorkers]
    split
    · exact .waits
    · split
      · exact .refused _
      · rename_i hWorkers
        exact .started hWorkers
  | workerRound shard =>
    rw [operate, workerRound]
    split
    · exact .waits
    · rename_i hWorkers
      split
      · exact .waits
      · rename_i hWorker
        split
        · exact .waits
        · rename_i hDrain
          split
          · exact .tookReceiver hWorkers hWorker (Option.not_isSome_iff_eq_none.mp hDrain)
          · rename_i hReceiver
            exact .workerFailed hWorkers hWorker (Bool.eq_false_of_not_eq_true hReceiver)
      · rename_i hWorker
        split
        · exact .waits
        · rename_i hReceive
          exact .workerRound hWorkers hWorker hReceive
  | workerStop shard =>
    rw [operate, workerStop]
    split
    · exact .waits
    · rename_i hWorkers
      split
      · exact .waits
      · exact .waits
      · rename_i hWorker
        split
        · exact .workerStopped hWorkers hWorker
        · exact .waits
  | stopMailboxWorkers =>
    rw [operate, stopMailboxWorkers]
    split
    · exact .waits
    · rename_i hFree
      split
      · rename_i hWorkers
        exact .noWorkers hWorkers
      · rename_i hWorkers
        exact .stopRequested hWorkers fun hDrain => hFree (.inr hDrain)
  | joinWorkers =>
    rw [operate, joinWorkers]
    split
    · exact .waits
    · rename_i hWorkers
      split
      · rename_i hFinished
        exact .joined hWorkers hFinished.2
      · exact .waits

end MailboxRuntime

end Vannak.Runtime
