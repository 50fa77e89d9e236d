import Vannak.Process.HotIndex

/-!
# The sharded runtime

`SitasShardRuntime` of `sitas_runtime.rs`: one hot index and one bounded first-in
first-out mailbox per shard. A direct call runs on the owning shard at once; a worker
takes one event from its mailbox and ingests it. Executors, threads and stopping are left
out, so that a mailbox is never closed.
-/

namespace Vannak.Runtime

open Foundation Process

set_option autoImplicit false

/-- `start` refuses a configuration without shards or without room in the mailboxes. -/
structure SitasRuntimeConfig where
  shardCount : Nat
  mailboxCapacityPerShard : Nat
  shardCount_pos : 0 < shardCount
  mailboxCapacity_pos : 0 < mailboxCapacityPerShard

structure QueuedIngestOutcome where
  shardId : Nat
  queuedDepth : Nat
  capacity : Nat
deriving DecidableEq, Repr

inductive SitasRuntimeError where
  | ingest (error : IngestError)
  | queueFull (shardId capacity : Nat)
deriving DecidableEq, Repr

structure SitasShardRuntime (config : SitasRuntimeConfig) where
  hotIndex : Fin config.shardCount → HotIndex
  mailbox : Fin config.shardCount → List PipelineEvent

namespace SitasShardRuntime

variable {config : SitasRuntimeConfig}

def start (config : SitasRuntimeConfig) : SitasShardRuntime config := ⟨fun _ => HotIndex.new, fun _ => []⟩

/-- `shard_for_process_instance`: the hash of the name, modulo the number of shards. -/
def shardFor (config : SitasRuntimeConfig) (processInstanceId : ProcessInstanceId) : Fin config.shardCount :=
  ⟨(fnv1a (utf8Bytes processInstanceId.asStr)).toNat % config.shardCount,
    Nat.mod_lt _ config.shardCount_pos⟩

/-- The operation of `with_on` and `with_current_result` that ingests an event. -/
def ingestOn (runtime : SitasShardRuntime config) (shard : Fin config.shardCount) (event : PipelineEvent) :
    Except IngestError IngestOutcome × SitasShardRuntime config :=
  let (outcome, hotIndex) := (runtime.hotIndex shard).ingest event
  (outcome, { runtime with hotIndex := Function.update runtime.hotIndex shard hotIndex })

def ingest (runtime : SitasShardRuntime config) (event : PipelineEvent) :
    Except IngestError IngestOutcome × SitasShardRuntime config :=
  runtime.ingestOn (shardFor config event.processInstanceId) event

def trySubmit (runtime : SitasShardRuntime config) (event : PipelineEvent) :
    Except SitasRuntimeError QueuedIngestOutcome × SitasShardRuntime config :=
  match event.validate with
  | .error error => (.error (.ingest error), runtime)
  | .ok () =>
    let shard := shardFor config event.processInstanceId
    if config.mailboxCapacityPerShard ≤ (runtime.mailbox shard).length then
      (.error (.queueFull shard config.mailboxCapacityPerShard), runtime)
    else
      let mailbox := runtime.mailbox shard ++ [event]
      (.ok ⟨shard, mailbox.length, config.mailboxCapacityPerShard⟩,
        { runtime with mailbox := Function.update runtime.mailbox shard mailbox })

/-- One round of `run_ingest_worker`. -/
def workerStep (runtime : SitasShardRuntime config) (shard : Fin config.shardCount) :
    Option (Except IngestError IngestOutcome) × SitasShardRuntime config :=
  match runtime.mailbox shard with
  | [] => (none, runtime)
  | event :: rest =>
    let (outcome, runtime) := runtime.ingestOn shard event
    (some outcome, { runtime with mailbox := Function.update runtime.mailbox shard rest })

def containsEvent (runtime : SitasShardRuntime config) (processInstanceId : ProcessInstanceId)
    (eventId : EventId) : Bool :=
  (runtime.hotIndex (shardFor config processInstanceId)).containsEvent eventId

def processInstance (runtime : SitasShardRuntime config) (processInstanceId : ProcessInstanceId) :
    Option ProcessInstanceSnapshot :=
  (runtime.hotIndex (shardFor config processInstanceId)).processInstance processInstanceId

/-! ## The views of the shards -/

def view (runtime : SitasShardRuntime config) (shard : Fin config.shardCount) : ProcessView :=
  (runtime.hotIndex shard).view

theorem hotIndex_ingestOn (runtime : SitasShardRuntime config) (shard other : Fin config.shardCount)
    (event : PipelineEvent) :
    (runtime.ingestOn shard event).2.hotIndex other =
      if shard = other then ((runtime.hotIndex shard).ingest event).2 else runtime.hotIndex other := by
  rw [ingestOn]
  by_cases hShard : shard = other
  · subst hShard
    rw [if_pos rfl]
    exact Function.update_self ..
  · rw [if_neg hShard]
    exact Function.update_of_ne (Ne.symm hShard) ..

theorem view_ingestOn (runtime : SitasShardRuntime config) (shard other : Fin config.shardCount)
    (event : PipelineEvent) :
    (runtime.ingestOn shard event).2.view other =
      if shard = other then (runtime.view shard).ingest event else runtime.view other := by
  rw [view, hotIndex_ingestOn]
  split
  · exact HotIndex.view_ingest _ _
  · rfl

theorem ingestOn_of_valid {event : PipelineEvent} (h : event.validate = .ok ())
    (runtime : SitasShardRuntime config) (shard : Fin config.shardCount) :
    ∃ outcome next, runtime.ingestOn shard event = (.ok outcome, next) := by
  rw [ingestOn, HotIndex.ingest, h]
  by_cases hKnown : event.eventId ∈ (runtime.hotIndex shard).eventsById
  · simp only [if_pos hKnown]
    exact ⟨_, _, rfl⟩
  · simp only [if_neg hKnown]
    exact ⟨_, _, rfl⟩

theorem mailbox_ingestOn (runtime : SitasShardRuntime config) (shard : Fin config.shardCount)
    (event : PipelineEvent) : (runtime.ingestOn shard event).2.mailbox = runtime.mailbox := rfl

theorem trySubmit_of_valid {event : PipelineEvent} (h : event.validate = .ok ())
    (runtime : SitasShardRuntime config) :
    (config.mailboxCapacityPerShard ≤ (runtime.mailbox (shardFor config event.processInstanceId)).length ∧
      ∃ capacity, runtime.trySubmit event =
        (.error (.queueFull (shardFor config event.processInstanceId) capacity), runtime)) ∨
    (¬config.mailboxCapacityPerShard ≤ (runtime.mailbox (shardFor config event.processInstanceId)).length ∧
      ∃ outcome, runtime.trySubmit event = (.ok outcome, { runtime with
        mailbox := Function.update runtime.mailbox (shardFor config event.processInstanceId)
          (runtime.mailbox (shardFor config event.processInstanceId) ++ [event]) })) := by
  rw [trySubmit, h]
  by_cases hFull :
      config.mailboxCapacityPerShard ≤ (runtime.mailbox (shardFor config event.processInstanceId)).length
  · simp only [if_pos hFull]
    exact .inl ⟨hFull, _, rfl⟩
  · simp only [if_neg hFull]
    exact .inr ⟨hFull, _, rfl⟩

theorem processInstance_eq_of_view {left right : SitasShardRuntime config}
    (h : ∀ shard, left.view shard = right.view shard) (processInstanceId : ProcessInstanceId) :
    left.processInstance processInstanceId = right.processInstance processInstanceId := by
  have hInstances := congrArg ProcessView.instances (h (shardFor config processInstanceId))
  exact congrArg (fun instances : BTreeMap ProcessInstanceId ProcessInstanceState =>
    (instances[processInstanceId]?).map ProcessInstanceState.snapshot) hInstances

end SitasShardRuntime

end Vannak.Runtime
