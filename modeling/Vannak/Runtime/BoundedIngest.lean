import Vannak.Process.Scans
import Vannak.Runtime.TimeRange

/-!
# The bounded ingest boundary

`BoundedIngestRuntime` of `runtime.rs`. Events are checked when they are submitted and wait in the queue of their
shard; draining hands them to `ShardLocalRuntime`. What was drained from a queue and what still waits there are the
events submitted to the shard, in order.
-/

namespace Vannak.Runtime

open Foundation Process
open ShardLocalRuntime (onLogicalShard onLogicalShard_append onLogicalShard_singleton)

set_option autoImplicit false

structure IngestDrainSummary where
  shardId : Nat
  attempted : Nat
  accepted : Nat
  duplicates : Nat
  failed : Nat
  remainingDepth : Nat
deriving DecidableEq, Repr

/-- `new` gives every shard a queue and refuses queues without room. -/
structure BoundedIngestRuntime where
  runtime : ShardLocalRuntime
  queues : List (List PipelineEvent)
  perShardCapacity : Nat
  length_queues : queues.length = runtime.shards.length
  perShardCapacity_pos : 0 < perShardCapacity

/-- What the loop of `drain_shard` leaves behind. The code does not return the events that it took. -/
structure DrainedQueue where
  result : Except RuntimeError IngestDrainSummary
  runtime : ShardLocalRuntime
  queue : List PipelineEvent
  taken : List PipelineEvent

namespace BoundedIngestRuntime

def new (shardCount perShardCapacity : Nat) : Except RuntimeError BoundedIngestRuntime :=
  if hCapacity : perShardCapacity = 0 then .error .queueCapacityZero
  else
    match ShardLocalRuntime.new shardCount with
    | .error error => .error error
    | .ok runtime => .ok {
        runtime
        queues := List.replicate runtime.shards.length []
        perShardCapacity
        length_queues := List.length_replicate
        perShardCapacity_pos := Nat.pos_of_ne_zero hCapacity }

/-- Every shard has a queue. -/
def queueAt (bounded : BoundedIngestRuntime) (shard : Nat) : List PipelineEvent := bounded.queues.getD shard []

def submit (bounded : BoundedIngestRuntime) (event : PipelineEvent) :
    Except RuntimeError QueuedIngestOutcome × BoundedIngestRuntime :=
  match event.validate with
  | .error error => (.error (.ingest error), bounded)
  | .ok () =>
    let shardId := bounded.runtime.shardFor event.processInstanceId
    let queue := bounded.queueAt shardId
    if bounded.perShardCapacity ≤ queue.length then
      (.error (.queueFull shardId bounded.perShardCapacity), bounded)
    else
      let queue := queue ++ [event]
      (.ok ⟨shardId, queue.length, bounded.perShardCapacity⟩,
        { bounded with
          queues := bounded.queues.set shardId queue
          length_queues := by
            rw [List.length_set]
            exact bounded.length_queues })

/-- The loop of `drain_shard`. -/
def drainQueue : Nat → IngestDrainSummary → ShardLocalRuntime → List PipelineEvent → List PipelineEvent →
    DrainedQueue
  | 0, summary, runtime, queue, taken => ⟨.ok summary, runtime, queue, taken⟩
  | _ + 1, summary, runtime, [], taken => ⟨.ok summary, runtime, [], taken⟩
  | rounds + 1, summary, runtime, event :: queue, taken =>
    let summary := { summary with attempted := summary.attempted + 1 }
    match runtime.ingest event with
    | (.ok ⟨_, .accepted⟩, runtime) =>
      drainQueue rounds { summary with accepted := summary.accepted + 1 } runtime queue (taken ++ [event])
    | (.ok ⟨_, .duplicate⟩, runtime) =>
      drainQueue rounds { summary with duplicates := summary.duplicates + 1 } runtime queue (taken ++ [event])
    | (.error (.ingest _), runtime) =>
      drainQueue rounds { summary with failed := summary.failed + 1 } runtime queue (taken ++ [event])
    | (.error error, runtime) => ⟨.error error, runtime, queue, taken ++ [event]⟩

theorem length_shards_ingest (runtime : ShardLocalRuntime) (event : PipelineEvent) :
    (runtime.ingest event).2.shards.length = runtime.shards.length := by
  rw [ShardLocalRuntime.shards_ingest, List.length_set]

theorem length_shards_drainQueue (rounds : Nat) (summary : IngestDrainSummary) (runtime : ShardLocalRuntime)
    (queue taken : List PipelineEvent) :
    (drainQueue rounds summary runtime queue taken).runtime.shards.length = runtime.shards.length := by
  induction rounds generalizing summary runtime queue taken with
  | zero => rfl
  | succ rounds ih =>
    cases queue with
    | nil => rfl
    | cons event queue =>
      have hLength := length_shards_ingest runtime event
      rw [drainQueue]
      revert hLength
      rcases runtime.ingest event with ⟨error | ⟨shardId, outcome⟩, next⟩
      · intro hLength
        cases error with
        | ingest error => exact (ih _ _ _ _).trans hLength
        | noShards | queueCapacityZero | queueFull | invalidShard => exact hLength
      · intro hLength
        cases outcome with
        | accepted | duplicate => exact (ih _ _ _ _).trans hLength

/-- The summary, the state and what was taken. -/
def drainShard (bounded : BoundedIngestRuntime) (shardId maxEvents : Nat) :
    Except RuntimeError IngestDrainSummary × BoundedIngestRuntime × List PipelineEvent :=
  match bounded.queues[shardId]? with
  | none => (.error (.invalidShard shardId), bounded, [])
  | some queue =>
    let summary : IngestDrainSummary := ⟨shardId, 0, 0, 0, 0, queue.length⟩
    let drained := drainQueue maxEvents summary bounded.runtime queue []
    (drained.result.map fun summary => { summary with remainingDepth := drained.queue.length },
      { bounded with
        runtime := drained.runtime
        queues := bounded.queues.set shardId drained.queue
        length_queues := by
          rw [List.length_set, length_shards_drainQueue]
          exact bounded.length_queues },
      drained.taken)

/-- The loop of `drain_all`; what was taken is listed with its shard. -/
def drainShards (maxEvents : Nat) : BoundedIngestRuntime → List Nat →
    Except RuntimeError (List IngestDrainSummary) × BoundedIngestRuntime × List (Nat × PipelineEvent)
  | bounded, [] => (.ok [], bounded, [])
  | bounded, shardId :: shardIds =>
    match bounded.drainShard shardId maxEvents with
    | (.error error, bounded, taken) => (.error error, bounded, taken.map (Prod.mk shardId))
    | (.ok summary, bounded, taken) =>
      let (result, bounded, later) := drainShards maxEvents bounded shardIds
      (result.map (summary :: ·), bounded, taken.map (Prod.mk shardId) ++ later)

def drainAll (bounded : BoundedIngestRuntime) (maxEventsPerShard : Nat) :
    Except RuntimeError (List IngestDrainSummary) × BoundedIngestRuntime × List (Nat × PipelineEvent) :=
  drainShards maxEventsPerShard bounded (List.range bounded.queues.length)

end BoundedIngestRuntime

/-! ## Operations -/

inductive BoundedOperation where
  | submit (event : PipelineEvent)
  | drainShard (shardId maxEvents : Nat)
  | drainAll (maxEventsPerShard : Nat)

/-- The answer of an operation, with what it took from the queues. -/
inductive BoundedAnswer where
  | submitted (result : Except RuntimeError QueuedIngestOutcome)
  | drained (result : Except RuntimeError IngestDrainSummary) (taken : List (Nat × PipelineEvent))
  | drainedAll (result : Except RuntimeError (List IngestDrainSummary)) (taken : List (Nat × PipelineEvent))

namespace BoundedAnswer

def taken : BoundedAnswer → List (Nat × PipelineEvent)
  | submitted _ => []
  | drained _ taken => taken
  | drainedAll _ taken => taken

def summaries : BoundedAnswer → List IngestDrainSummary
  | submitted _ => []
  | drained result _ => result.toOption.toList
  | drainedAll result _ => result.toOption.getD []

end BoundedAnswer

def BoundedIngestRuntime.operate (bounded : BoundedIngestRuntime) :
    BoundedOperation → BoundedAnswer × BoundedIngestRuntime
  | .submit event =>
    let (result, bounded) := bounded.submit event
    (.submitted result, bounded)
  | .drainShard shardId maxEvents =>
    let (result, bounded, taken) := bounded.drainShard shardId maxEvents
    (.drained result (taken.map (Prod.mk shardId)), bounded)
  | .drainAll maxEventsPerShard =>
    let (result, bounded, taken) := bounded.drainAll maxEventsPerShard
    (.drainedAll result taken, bounded)

/-- The event of a submit that succeeded. -/
def submittedEvent? : BoundedOperation × BoundedAnswer → Option PipelineEvent
  | (.submit event, .submitted (.ok _)) => some event
  | _ => none

def submittedEvents (history : List (BoundedOperation × BoundedAnswer)) : List PipelineEvent :=
  history.filterMap submittedEvent?

/-- What was taken from the queues, in order, with the shards. -/
def drainedEvents (history : List (BoundedOperation × BoundedAnswer)) : List (Nat × PipelineEvent) :=
  history.flatMap fun entry => entry.2.taken

/-- What was taken from one queue. -/
def drainedFrom (shard : Nat) (drained : List (Nat × PipelineEvent)) : List PipelineEvent :=
  (drained.filter fun entry => entry.1 = shard).map Prod.snd

def IngestDrainSummary.Complete (summary : IngestDrainSummary) : Prop :=
  summary.failed = 0 ∧ summary.attempted = summary.accepted + summary.duplicates

/-! ## One drain -/

theorem ShardLocalRuntime.ingest_of_valid {event : PipelineEvent} (h : event.validate = .ok ())
    (runtime : ShardLocalRuntime) : ∃ outcome, (runtime.ingest event).1 = .ok outcome := by
  rw [ShardLocalRuntime.ingest]
  rcases (runtime.shards.get (runtime.shardFor event.processInstanceId)).ingest_cases event with
    ⟨error, hError, -⟩ | ⟨-, -, hIngest⟩ | ⟨-, -, hIngest⟩
  · rw [h] at hError
    cases hError
  · rw [hIngest]
    exact ⟨_, rfl⟩
  · rw [hIngest]
    exact ⟨_, rfl⟩

/-- The loop takes valid events from the front, as many as it may, and ingests them in order. -/
theorem BoundedIngestRuntime.drainQueue_of_valid {runtime : ShardLocalRuntime} {shardCount : Nat}
    {ingested queue : List PipelineEvent} (hRoutes : runtime.Routes shardCount ingested)
    (hValid : ∀ event ∈ queue, event.validate = .ok ()) {summary : IngestDrainSummary} (hSummary : summary.Complete)
    (rounds : Nat) (taken : List PipelineEvent) :
    (∃ final, (drainQueue rounds summary runtime queue taken).result = .ok final ∧ final.Complete) ∧
      (drainQueue rounds summary runtime queue taken).queue = queue.drop rounds ∧
      (drainQueue rounds summary runtime queue taken).taken = taken ++ queue.take rounds ∧
      (drainQueue rounds summary runtime queue taken).runtime.Routes shardCount (ingested ++ queue.take rounds) := by
  induction rounds generalizing summary runtime queue ingested taken with
  | zero =>
    rw [drainQueue, List.take_zero, List.append_nil, List.append_nil]
    exact ⟨⟨summary, rfl, hSummary⟩, rfl, rfl, hRoutes⟩
  | succ rounds ih =>
    cases queue with
    | nil =>
      rw [drainQueue, List.take_nil, List.append_nil, List.append_nil]
      exact ⟨⟨summary, rfl, hSummary⟩, rfl, rfl, hRoutes⟩
    | cons event queue =>
      obtain ⟨hEvent, hQueue⟩ := List.forall_mem_cons.mp hValid
      obtain ⟨hNone, hSum⟩ := hSummary
      have hNext := hRoutes.ingest event
      obtain ⟨outcome, hOutcome⟩ := ShardLocalRuntime.ingest_of_valid hEvent runtime
      have hIngest : runtime.ingest event = (.ok outcome, (runtime.ingest event).2) := Prod.ext hOutcome rfl
      rw [drainQueue, hIngest, List.take_succ_cons, List.drop_succ_cons,
        List.append_cons taken event (queue.take rounds), List.append_cons ingested event (queue.take rounds)]
      obtain ⟨shardId, outcome⟩ := outcome
      cases outcome with
      | accepted =>
        have hCounted : IngestDrainSummary.Complete
            { summary with attempted := summary.attempted + 1, accepted := summary.accepted + 1 } := by
          refine ⟨hNone, ?_⟩
          change summary.attempted + 1 = summary.accepted + 1 + summary.duplicates
          omega
        exact ih hNext hQueue hCounted _
      | duplicate =>
        have hCounted : IngestDrainSummary.Complete
            { summary with attempted := summary.attempted + 1, duplicates := summary.duplicates + 1 } := by
          refine ⟨hNone, ?_⟩
          change summary.attempted + 1 = summary.accepted + (summary.duplicates + 1)
          omega
        exact ih hNext hQueue hCounted _

/-! ## What the boundary keeps -/

/-- `submitted` are the events of the submits that succeeded and `drained` what was taken from the queues. -/
structure Conserves (shardCount capacity : Nat) (submitted : List PipelineEvent)
    (drained : List (Nat × PipelineEvent)) (bounded : BoundedIngestRuntime) : Prop where
  length : bounded.queues.length = shardCount
  capacity_eq : bounded.perShardCapacity = capacity
  length_le : ∀ queue ∈ bounded.queues, queue.length ≤ capacity
  valid : ∀ event ∈ submitted, event.validate = .ok ()
  routed : ∀ entry ∈ drained, shardForProcessInstance entry.2.processInstanceId shardCount = entry.1
  conserved : ∀ shard < shardCount,
    drainedFrom shard drained ++ bounded.queueAt shard = onLogicalShard shardCount shard submitted
  routes : bounded.runtime.Routes shardCount (drained.map Prod.snd)

theorem drainedFrom_append (shard : Nat) (first second : List (Nat × PipelineEvent)) :
    drainedFrom shard (first ++ second) = drainedFrom shard first ++ drainedFrom shard second := by
  rw [drainedFrom, List.filter_append, List.map_append]
  rfl

theorem drainedFrom_map_mk (shard other : Nat) (events : List PipelineEvent) :
    drainedFrom shard (events.map (Prod.mk other)) = if other = shard then events else [] := by
  rw [drainedFrom, List.filter_map, List.map_map]
  by_cases hSame : other = shard
  · simp [hSame, Function.comp_def]
  · simp [hSame, Function.comp_def]

namespace BoundedIngestRuntime

theorem queueAt_set {bounded next : BoundedIngestRuntime} {shard : Nat} {queue : List PipelineEvent}
    (h : next.queues = bounded.queues.set shard queue) (hShard : shard < bounded.queues.length) (other : Nat) :
    next.queueAt other = if shard = other then queue else bounded.queueAt other := by
  rw [queueAt, queueAt, List.getD_eq_getElem?_getD, List.getD_eq_getElem?_getD, h, List.getElem?_set]
  by_cases hSame : shard = other
  · rw [if_pos hSame, if_pos hSame, if_pos hShard, Option.getD_some]
  · rw [if_neg hSame, if_neg hSame]

theorem queueAt_mem {bounded : BoundedIngestRuntime} {shard : Nat} (h : shard < bounded.queues.length) :
    bounded.queueAt shard ∈ bounded.queues := by
  rw [queueAt, List.getD_eq_getElem _ _ h]
  exact List.getElem_mem h

end BoundedIngestRuntime

namespace Conserves

variable {shardCount capacity : Nat} {submitted : List PipelineEvent} {drained : List (Nat × PipelineEvent)}
  {bounded : BoundedIngestRuntime}

/-- The events in a queue were submitted, to its shard. -/
theorem waiting (h : Conserves shardCount capacity submitted drained bounded) {shard : Nat}
    (hShard : shard < shardCount) {event : PipelineEvent} (hEvent : event ∈ bounded.queueAt shard) :
    event.validate = .ok () ∧ shardForProcessInstance event.processInstanceId shardCount = shard := by
  have hMem : event ∈ onLogicalShard shardCount shard submitted := by
    rw [← h.conserved shard hShard]
    exact List.mem_append_right _ hEvent
  obtain ⟨hSubmitted, hOwner⟩ := List.mem_filter.mp hMem
  exact ⟨h.valid event hSubmitted, of_decide_eq_true hOwner⟩

theorem submit (h : Conserves shardCount capacity submitted drained bounded) (event : PipelineEvent) :
    Conserves shardCount capacity
      (submitted ++ (submittedEvent? (.submit event, .submitted (bounded.submit event).1)).toList) drained
      (bounded.submit event).2 := by
  have hRefused : Conserves shardCount capacity (submitted ++ []) drained bounded := by
    rwa [List.append_nil]
  have hCount : bounded.runtime.shards.length = shardCount := bounded.length_queues ▸ h.length
  have hOwner : (bounded.runtime.shardFor event.processInstanceId : Nat) =
      shardForProcessInstance event.processInstanceId shardCount :=
    congrArg (shardForProcessInstance event.processInstanceId) hCount
  have hShard : (bounded.runtime.shardFor event.processInstanceId : Nat) < bounded.queues.length := by
    rw [bounded.length_queues]
    exact (bounded.runtime.shardFor event.processInstanceId).2
  rw [BoundedIngestRuntime.submit]
  cases hValid : event.validate with
  | error error => exact hRefused
  | ok =>
    by_cases hFull : bounded.perShardCapacity ≤
        (bounded.queueAt (bounded.runtime.shardFor event.processInstanceId)).length
    · simp only [if_pos hFull]
      exact hRefused
    · simp only [if_neg hFull]
      refine ⟨?_, h.capacity_eq, ?_, ?_, h.routed, fun shard hLt => ?_, h.routes⟩
      · rw [List.length_set]
        exact h.length
      · intro queue hQueue
        rcases List.mem_or_eq_of_mem_set hQueue with hOld | rfl
        · exact h.length_le queue hOld
        · rw [List.length_append, List.length_singleton, ← h.capacity_eq]
          omega
      · intro other hOther
        rcases List.mem_append.mp hOther with hOld | hNew
        · exact h.valid other hOld
        · cases Option.mem_toList.mp hNew
          exact hValid
      · rw [BoundedIngestRuntime.queueAt_set rfl hShard, submittedEvent?, Option.toList_some, onLogicalShard_append,
          onLogicalShard_singleton, ← hOwner]
        by_cases hSame : (bounded.runtime.shardFor event.processInstanceId : Nat) = shard
        · rw [if_pos hSame, if_pos hSame, ← List.append_assoc, hSame, h.conserved shard hLt]
        · rw [if_neg hSame, if_neg hSame, List.append_nil, h.conserved shard hLt]

theorem drainShard (h : Conserves shardCount capacity submitted drained bounded) (shardId maxEvents : Nat) :
    Conserves shardCount capacity submitted
        (drained ++ (bounded.drainShard shardId maxEvents).2.2.map (Prod.mk shardId))
        (bounded.drainShard shardId maxEvents).2.1 ∧
      ∀ summary, (bounded.drainShard shardId maxEvents).1 = .ok summary → summary.Complete := by
  rw [BoundedIngestRuntime.drainShard]
  cases hQueue : bounded.queues[shardId]? with
  | none =>
    refine ⟨?_, fun summary hSummary => by cases hSummary⟩
    rw [List.map_nil, List.append_nil]
    exact h
  | some queue =>
    obtain ⟨hLt, hGet⟩ := List.getElem?_eq_some_iff.mp hQueue
    have hShard : shardId < shardCount := h.length ▸ hLt
    have hAt : bounded.queueAt shardId = queue := by
      rw [BoundedIngestRuntime.queueAt, List.getD_eq_getElem?_getD, hQueue, Option.getD_some]
    have hWaiting : ∀ event ∈ queue, event.validate = .ok () ∧
        shardForProcessInstance event.processInstanceId shardCount = shardId :=
      fun event hEvent => h.waiting hShard (hAt.symm ▸ hEvent)
    obtain ⟨⟨final, hResult, hFinal⟩, hRest, hTaken, hRoutes⟩ := BoundedIngestRuntime.drainQueue_of_valid h.routes
      (fun event hEvent => (hWaiting event hEvent).1)
      (⟨rfl, rfl⟩ : (IngestDrainSummary.mk shardId 0 0 0 0 queue.length).Complete) maxEvents []
    simp only [hResult, hRest, hTaken, List.nil_append]
    refine ⟨⟨?_, h.capacity_eq, ?_, h.valid, ?_, fun shard hLtShard => ?_, ?_⟩, ?_⟩
    · rw [List.length_set]
      exact h.length
    · intro other hOther
      rcases List.mem_or_eq_of_mem_set hOther with hOld | rfl
      · exact h.length_le other hOld
      · rw [List.length_drop]
        exact (Nat.sub_le _ _).trans (h.length_le queue (List.mem_of_getElem? hQueue))
    · intro entry hEntry
      rcases List.mem_append.mp hEntry with hOld | hNew
      · exact h.routed entry hOld
      · obtain ⟨event, hEvent, rfl⟩ := List.mem_map.mp hNew
        exact (hWaiting event (List.mem_of_mem_take hEvent)).2
    · rw [BoundedIngestRuntime.queueAt_set rfl hLt, drainedFrom_append, drainedFrom_map_mk]
      by_cases hSame : shardId = shard
      · subst hSame
        rw [if_pos rfl, if_pos rfl, List.append_assoc, List.take_append_drop, ← hAt, h.conserved shardId hLtShard]
      · rw [if_neg hSame, if_neg hSame, List.append_nil, h.conserved shard hLtShard]
    · rw [List.map_append, List.map_map, Function.comp_def, List.map_id']
      exact hRoutes
    · rintro summary hSummary
      cases hSummary
      exact hFinal

theorem drainShards (h : Conserves shardCount capacity submitted drained bounded) (maxEvents : Nat)
    (shardIds : List Nat) :
    Conserves shardCount capacity submitted
        (drained ++ (BoundedIngestRuntime.drainShards maxEvents bounded shardIds).2.2)
        (BoundedIngestRuntime.drainShards maxEvents bounded shardIds).2.1 ∧
      ∀ summaries, (BoundedIngestRuntime.drainShards maxEvents bounded shardIds).1 = .ok summaries →
        ∀ summary ∈ summaries, summary.Complete := by
  induction shardIds generalizing drained bounded with
  | nil =>
    rw [BoundedIngestRuntime.drainShards, List.append_nil]
    refine ⟨h, fun summaries hSummaries summary hSummary => ?_⟩
    cases hSummaries
    cases hSummary
  | cons shardId shardIds ih =>
    obtain ⟨hNext, hComplete⟩ := h.drainShard shardId maxEvents
    rw [BoundedIngestRuntime.drainShards]
    rcases hDrained : bounded.drainShard shardId maxEvents with ⟨error | summary, next, taken⟩
    · rw [hDrained] at hNext
      exact ⟨hNext, fun summaries hSummaries => by cases hSummaries⟩
    · rw [hDrained] at hNext hComplete
      obtain ⟨hLast, hLater⟩ := ih hNext
      rw [List.append_assoc] at hLast
      refine ⟨hLast, fun summaries hSummaries => ?_⟩
      change (BoundedIngestRuntime.drainShards maxEvents next shardIds).1.map (summary :: ·) = .ok summaries
        at hSummaries
      cases hResult : (BoundedIngestRuntime.drainShards maxEvents next shardIds).1 with
      | error error =>
        rw [hResult] at hSummaries
        cases hSummaries
      | ok later =>
        rw [hResult] at hSummaries
        cases hSummaries
        exact List.forall_mem_cons.mpr ⟨hComplete summary rfl, hLater later hResult⟩

/-- What every operation does. -/
theorem operate (h : Conserves shardCount capacity submitted drained bounded) (operation : BoundedOperation) :
    Conserves shardCount capacity (submitted ++ (submittedEvent? (operation, (bounded.operate operation).1)).toList)
        (drained ++ (bounded.operate operation).1.taken) (bounded.operate operation).2 ∧
      ∀ summary ∈ (bounded.operate operation).1.summaries, summary.Complete := by
  cases operation with
  | submit event =>
    refine ⟨?_, fun summary hSummary => by cases hSummary⟩
    rw [BoundedIngestRuntime.operate, BoundedAnswer.taken, List.append_nil]
    exact h.submit event
  | drainShard shardId maxEvents =>
    obtain ⟨hNext, hComplete⟩ := h.drainShard shardId maxEvents
    have hNone : submittedEvent? (.drainShard shardId maxEvents,
        (bounded.operate (.drainShard shardId maxEvents)).1) = none := rfl
    rw [hNone, Option.toList_none, List.append_nil]
    refine ⟨hNext, fun summary hSummary => hComplete summary ?_⟩
    exact toOption_eq_some.mp (Option.mem_toList.mp hSummary)
  | drainAll maxEventsPerShard =>
    obtain ⟨hNext, hComplete⟩ := h.drainShards maxEventsPerShard (List.range bounded.queues.length)
    have hNone : submittedEvent? (.drainAll maxEventsPerShard,
        (bounded.operate (.drainAll maxEventsPerShard)).1) = none := rfl
    rw [hNone, Option.toList_none, List.append_nil]
    refine ⟨hNext, fun summary hSummary => ?_⟩
    cases hResult : (bounded.drainAll maxEventsPerShard).1 with
    | error error =>
      simp only [BoundedIngestRuntime.operate, BoundedAnswer.summaries, hResult] at hSummary
      cases hSummary
    | ok summaries =>
      simp only [BoundedIngestRuntime.operate, BoundedAnswer.summaries, hResult] at hSummary
      exact hComplete summaries hResult summary hSummary

theorem new {start : BoundedIngestRuntime} (h : BoundedIngestRuntime.new shardCount capacity = .ok start) :
    Conserves shardCount capacity [] [] start := by
  rw [BoundedIngestRuntime.new] at h
  split at h
  · cases h
  · cases hRuntime : ShardLocalRuntime.new shardCount with
    | error error =>
      rw [hRuntime] at h
      cases h
    | ok runtime =>
      rw [hRuntime] at h
      cases h
      have hRoutes := ShardLocalRuntime.routes_new hRuntime
      refine ⟨?_, rfl, fun queue hQueue => ?_, List.forall_mem_nil _, List.forall_mem_nil _, fun shard hShard => ?_,
        hRoutes⟩
      · rw [List.length_replicate, hRoutes.length_shards]
      · rw [List.eq_of_mem_replicate hQueue]
        exact Nat.zero_le _
      · rw [BoundedIngestRuntime.queueAt, List.getD_eq_getElem _ _ (by simpa [hRoutes.length_shards] using hShard),
          List.getElem_replicate]
        rfl

/-- After the operations of a history. -/
def SoFar (shardCount capacity : Nat) (history : List (BoundedOperation × BoundedAnswer))
    (bounded : BoundedIngestRuntime) : Prop :=
  Conserves shardCount capacity (submittedEvents history) (drainedEvents history) bounded ∧
    ∀ entry ∈ history, ∀ summary ∈ entry.2.summaries, summary.Complete

/-- The run lemma. -/
theorem run {start : BoundedIngestRuntime} (h : Conserves shardCount capacity [] [] start)
    (operations : List BoundedOperation) :
    SoFar shardCount capacity (Foundation.run BoundedIngestRuntime.operate start operations).1
      (Foundation.run BoundedIngestRuntime.operate start operations).2 := by
  refine run_history ?_ ⟨h, List.forall_mem_nil _⟩ operations
  rintro history bounded operation ⟨hConserves, hComplete⟩
  obtain ⟨hNext, hNew⟩ := hConserves.operate operation
  refine ⟨?_, fun entry hEntry => ?_⟩
  · have hSubmitted : submittedEvents (history ++ [(operation, (bounded.operate operation).1)]) =
        submittedEvents history ++ (submittedEvent? (operation, (bounded.operate operation).1)).toList := by
      rw [submittedEvents, List.filterMap_append, submittedEvents]
      cases hEvent : submittedEvent? (operation, (bounded.operate operation).1) with
      | none => rw [List.filterMap_cons_none hEvent, List.filterMap_nil, Option.toList_none]
      | some event => rw [List.filterMap_cons_some hEvent, List.filterMap_nil, Option.toList_some]
    have hDrained : drainedEvents (history ++ [(operation, (bounded.operate operation).1)]) =
        drainedEvents history ++ (bounded.operate operation).1.taken := by
      rw [drainedEvents, List.flatMap_append, List.flatMap_singleton]
      rfl
    rw [hSubmitted, hDrained]
    exact hNext
  · rcases List.mem_append.mp hEntry with hOld | hLast
    · exact hComplete entry hOld
    · cases List.mem_singleton.mp hLast
      exact hNew

/-- Each index has ingested what was drained from its queue. -/
theorem shard_eq (h : Conserves shardCount capacity submitted drained bounded) {shard : Nat}
    (hShard : shard < shardCount) :
    bounded.runtime.shards[shard]? = some (HotIndex.new.ingestAll (drainedFrom shard drained)) := by
  have hOwn : onLogicalShard shardCount shard (drained.map Prod.snd) = drainedFrom shard drained := by
    rw [onLogicalShard, List.filter_map, drainedFrom]
    refine congrArg (List.map Prod.snd) (List.filter_congr fun entry hEntry => ?_)
    rw [Function.comp_apply, h.routed entry hEntry]
  rw [h.routes, List.getElem?_map, List.getElem?_range hShard, Option.map_some, hOwn]

/-- With empty queues the runtime is the one that was given the events directly. -/
theorem runtime_eq (h : Conserves shardCount capacity submitted drained bounded)
    (hEmpty : ∀ queue ∈ bounded.queues, queue = []) {direct : ShardLocalRuntime}
    (hDirect : direct.Routes shardCount submitted) : bounded.runtime = direct := by
  have hShards : bounded.runtime.shards = direct.shards := by
    refine List.ext_getElem? fun shard => ?_
    by_cases hShard : shard < shardCount
    · have hQueue := hEmpty _ (BoundedIngestRuntime.queueAt_mem (h.length.symm ▸ hShard))
      have hAll := h.conserved shard hShard
      rw [hQueue, List.append_nil] at hAll
      rw [h.shard_eq hShard, hAll, hDirect, List.getElem?_map, List.getElem?_range hShard, Option.map_some]
    · rw [List.getElem?_eq_none (by rw [h.routes.length_shards]; exact Nat.le_of_not_lt hShard),
        List.getElem?_eq_none (by rw [hDirect.length_shards]; exact Nat.le_of_not_lt hShard)]
  cases hBounded : bounded.runtime
  cases direct
  simpa [hBounded] using hShards

end Conserves

theorem BoundedIngestRuntime.submit_error {bounded : BoundedIngestRuntime} {event : PipelineEvent}
    {error : RuntimeError} (h : (bounded.submit event).1 = .error error) : (bounded.submit event).2 = bounded := by
  rw [submit] at h ⊢
  cases hValid : event.validate with
  | error error => rfl
  | ok =>
    simp only [hValid] at h ⊢
    split at h
    · rename_i hFull
      rw [if_pos hFull]
    · cases h

/-- Whatever is submitted and drained, the boundary loses nothing, takes nothing twice and keeps the order of each
shard. -/
theorem bounded_ingest_conserves {shardCount capacity : Nat} {start : BoundedIngestRuntime}
    {direct : ShardLocalRuntime} (hNew : BoundedIngestRuntime.new shardCount capacity = .ok start)
    (hDirect : ShardLocalRuntime.new shardCount = .ok direct) (operations : List BoundedOperation) :
    let history := (run BoundedIngestRuntime.operate start operations).1
    let bounded := (run BoundedIngestRuntime.operate start operations).2
    (∀ queue ∈ bounded.queues, queue.length ≤ capacity) ∧
    (∀ event error, (bounded.submit event).1 = .error error → (bounded.submit event).2 = bounded) ∧
    (∀ shard < shardCount, drainedFrom shard (drainedEvents history) ++ bounded.queueAt shard =
      onLogicalShard shardCount shard (submittedEvents history)) ∧
    (∀ shard < shardCount, bounded.runtime.shards[shard]? =
      some (HotIndex.new.ingestAll (drainedFrom shard (drainedEvents history)))) ∧
    (∀ entry ∈ history, ∀ summary ∈ entry.2.summaries,
      summary.failed = 0 ∧ summary.attempted = summary.accepted + summary.duplicates) ∧
    ((∀ queue ∈ bounded.queues, queue = []) →
      bounded.runtime = (run ShardLocalRuntime.ingest direct (submittedEvents history)).2) := by
  intro history bounded
  obtain ⟨hConserves, hComplete⟩ := (Conserves.new hNew).run operations
  have hRoutes := ShardLocalRuntime.routes_run (ShardLocalRuntime.routes_new hDirect) (submittedEvents history)
  exact ⟨hConserves.length_le, fun event error hError => BoundedIngestRuntime.submit_error hError,
    hConserves.conserved, fun shard hShard => hConserves.shard_eq hShard, hComplete,
    fun hEmpty => hConserves.runtime_eq hEmpty hRoutes⟩

/-- Queues of one event: the second submit is refused, the first event is drained and accepted. -/
def submitTwice : List BoundedOperation :=
  [.submit (startedAt "instance-a" "2026-06-30T10:00:01Z"), .submit (startedAt "instance-a" "2026-06-30T10:00:02Z"),
    .drainAll 8]

theorem bounded_ingest_conserves_submitTwice :
    ∃ start, BoundedIngestRuntime.new 2 1 = .ok start ∧
      (∀ queue ∈ (run BoundedIngestRuntime.operate start submitTwice).2.queues, queue.length ≤ 1) ∧
      drainedFrom 0 (drainedEvents (run BoundedIngestRuntime.operate start submitTwice).1) ++
          (run BoundedIngestRuntime.operate start submitTwice).2.queueAt 0 =
        onLogicalShard 2 0 (submittedEvents (run BoundedIngestRuntime.operate start submitTwice).1) := by
  obtain ⟨direct, hDirect⟩ := ShardLocalRuntime.exists_new (by decide : 0 < 2)
  obtain ⟨start, hNew⟩ : ∃ start, BoundedIngestRuntime.new 2 1 = .ok start := ⟨_, rfl⟩
  obtain ⟨hLength, -, hConserved, -⟩ := bounded_ingest_conserves hNew hDirect submitTwice
  exact ⟨start, hNew, hLength, hConserved 0 (by decide)⟩

end Vannak.Runtime
