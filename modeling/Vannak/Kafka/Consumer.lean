import Vannak.Kafka.Durga
import Vannak.Service.ProcessEvents

/-!
# The Kafka consumer

`KafkaProcessConsumer` of `kafka_client.rs` with its rebalance callbacks. The client
library is not modelled: each call of `poll_with_sink` is given the library's answers, and
what the call does to the outside is recorded as a list of effects. The service behind the
sink has a state of its own and may change between the calls.
-/

namespace Vannak.Kafka

open Foundation Ingest Service

set_option autoImplicit false

instance : Ord KafkaTopicPartition :=
  ⟨compareOn fun topicPartition => (topicPartition.topic, topicPartition.partition)⟩

instance : Std.TransOrd KafkaTopicPartition :=
  inferInstanceAs (Std.TransCmp
    (compareOn fun topicPartition : KafkaTopicPartition => (topicPartition.topic, topicPartition.partition)))

/-! ## Rebalance callbacks -/

inductive Rebalance where
  | assign (partitions : List KafkaTopicPartition)
  | revoke (partitions : List KafkaTopicPartition)
  | error (message : String)
deriving DecidableEq, Repr

inductive KafkaRebalanceEvent where
  | assigned (partitions : List KafkaTopicPartition)
  | revoked (partitions : List KafkaTopicPartition)
  | error (message : String)
deriving DecidableEq, Repr

structure KafkaRebalanceState where
  assignedPartitions : BTreeSet KafkaTopicPartition
  revokedPartitions : List KafkaTopicPartition
  pendingRevokedPartitions : List KafkaTopicPartition
  preRebalanceCount : Nat
  postRebalanceCount : Nat
  assignmentCount : Nat
  revocationCount : Nat
  errorCount : Nat
  lastEvent : Option KafkaRebalanceEvent

/-- `pre_rebalance` and `post_rebalance`. -/
inductive RebalanceCallback where
  | pre (rebalance : Rebalance)
  | post (rebalance : Rebalance)
deriving DecidableEq, Repr

namespace KafkaRebalanceState

def new : KafkaRebalanceState := ⟨∅, [], [], 0, 0, 0, 0, 0, none⟩

def recordRebalance (state : KafkaRebalanceState) : Rebalance → KafkaRebalanceState
  | .assign partitions => { state with
      assignmentCount := state.assignmentCount + 1
      lastEvent := some (.assigned partitions) }
  | .revoke partitions => { state with
      revocationCount := state.revocationCount + 1
      assignedPartitions := partitions.foldl (fun assigned partition => assigned.erase partition)
        state.assignedPartitions
      revokedPartitions := state.revokedPartitions ++ partitions
      pendingRevokedPartitions := state.pendingRevokedPartitions ++ partitions
      lastEvent := some (.revoked partitions) }
  | .error message => { state with
      errorCount := state.errorCount + 1
      lastEvent := some (.error message) }

def recordPreRebalance (state : KafkaRebalanceState) (rebalance : Rebalance) : KafkaRebalanceState :=
  { state with preRebalanceCount := state.preRebalanceCount + 1 }.recordRebalance rebalance

def recordPostRebalance (state : KafkaRebalanceState) (rebalance : Rebalance) : KafkaRebalanceState :=
  let state := { state with postRebalanceCount := state.postRebalanceCount + 1 }
  match rebalance with
  | .assign partitions => { state with assignedPartitions := .ofList partitions }
  | _ => state

def serve (state : KafkaRebalanceState) : RebalanceCallback → KafkaRebalanceState
  | .pre rebalance => state.recordPreRebalance rebalance
  | .post rebalance => state.recordPostRebalance rebalance

def takeUnhandledRevoked (state : KafkaRebalanceState) : List KafkaTopicPartition × KafkaRebalanceState :=
  (state.pendingRevokedPartitions, { state with pendingRevokedPartitions := [] })

end KafkaRebalanceState

/-! ## The consumer -/

/-- `MissingPayload`, `Decode` and `DurgaJson` are the three errors of decoding. -/
inductive KafkaClientError (KafkaError : Type) (json : SerdeJson) where
  | invalidConfig (message : String)
  | kafka (error : KafkaError)
  | commit (error : KafkaError)
  | decoding (error : KafkaDecodeError json)
  | ingest (error : KafkaIngestError)
  | pendingPartitionRevoked (topicPartition : KafkaTopicPartition) (offset : Int64)

/-- What the client library answers during one call: the callbacks it serves while it polls,
the message it delivers and the outcomes of the other requests, if they are made. -/
structure KafkaAnswers (KafkaError : Type) where
  callbacks : List RebalanceCallback
  delivery : Option (Except KafkaError KafkaMessage)
  pause : Except KafkaError Unit
  resume : Except KafkaError Unit
  partitionList : Except KafkaError Unit
  commit : Except KafkaError Unit

/-- What a call does to the outside. A commit may take effect although it is answered by an
error. -/
inductive KafkaEffect where
  | polled (message : KafkaMessage)
  | submitted (before after : KafkaPendingRecord)
      (result : Except KafkaIngestError (Option KafkaSubmitOutcome))
  | paused (topicPartition : KafkaTopicPartition)
  | resumed (topicPartition : KafkaTopicPartition)
  | committed (topicPartition : KafkaTopicPartition) (offset : Int64) (accepted : Bool)
deriving DecidableEq, Repr

structure KafkaProcessConsumer where
  config : KafkaProcessConsumerConfig
  pending : List KafkaPendingRecord
  paused : BTreeSet KafkaTopicPartition
  rebalanceState : KafkaRebalanceState
  durgaCompat : DurgaCompatibilityState
  totalPolled : Nat
  totalAccepted : Nat

/-- What one call of the sink answers and leaves behind. -/
structure SinkCall (σ : Type) where
  result : Except KafkaIngestError (Option KafkaSubmitOutcome)
  pending : KafkaPendingRecord
  service : σ

/-- What a call of the consumer answers and leaves behind. -/
structure Polled (KafkaError : Type) (json : SerdeJson) (σ : Type) where
  result : Except (KafkaClientError KafkaError json) (Option KafkaSubmitOutcome)
  effects : List KafkaEffect
  consumer : KafkaProcessConsumer
  service : σ

namespace KafkaProcessConsumer

def start {KafkaError : Type} {json : SerdeJson} (config : KafkaProcessConsumerConfig) :
    Except (KafkaClientError KafkaError json) KafkaProcessConsumer := do
  config.validate.mapError .invalidConfig
  return ⟨config, [], ∅, .new, .new, 0, 0⟩

section Calls

variable {KafkaError σ : Type} {json : SerdeJson}

def applyRebalanceState (consumer : KafkaProcessConsumer) :
    Except (KafkaClientError KafkaError json) Unit × KafkaProcessConsumer :=
  let (revoked, rebalanceState) := consumer.rebalanceState.takeUnhandledRevoked
  let consumer := { consumer with rebalanceState }
  if revoked = [] then (.ok (), consumer)
  else
    let consumer := { consumer with
      paused := consumer.paused.filter fun topicPartition => topicPartition ∉ revoked }
    match consumer.pending.find? fun pending => pending.record.topicPartition ∈ revoked with
    | some pending =>
      (.error (.pendingPartitionRevoked pending.record.topicPartition pending.record.offset), consumer)
    | none => (.ok (), consumer)

def pausePartition (consumer : KafkaProcessConsumer) (answers : KafkaAnswers KafkaError)
    (topicPartition : KafkaTopicPartition) :
    Except (KafkaClientError KafkaError json) Unit × List KafkaEffect × KafkaProcessConsumer :=
  if topicPartition ∈ consumer.paused then (.ok (), [], consumer)
  else (answers.pause.mapError .kafka, [.paused topicPartition],
    { consumer with paused := consumer.paused.insert topicPartition })

def resumePartition (consumer : KafkaProcessConsumer) (answers : KafkaAnswers KafkaError)
    (topicPartition : KafkaTopicPartition) :
    Except (KafkaClientError KafkaError json) Unit × List KafkaEffect × KafkaProcessConsumer :=
  if topicPartition ∉ consumer.paused then (.ok (), [], consumer)
  else (answers.resume.mapError .kafka, [.resumed topicPartition],
    { consumer with paused := consumer.paused.erase topicPartition })

def commitOffset (answers : KafkaAnswers KafkaError) (topicPartition : KafkaTopicPartition) (offset : Int64) :
    Except (KafkaClientError KafkaError json) Unit × List KafkaEffect :=
  match answers.partitionList with
  | .error error => (.error (.kafka error), [])
  | .ok () => (answers.commit.mapError .commit, [.committed topicPartition offset answers.commit.isOk])

def retryPendingWith (sink : σ → KafkaPendingRecord → SinkCall σ) (answers : KafkaAnswers KafkaError)
    (consumer : KafkaProcessConsumer) (service : σ) : Polled KafkaError json σ :=
  match consumer.pending with
  | [] => ⟨.ok none, [], consumer, service⟩
  | pending :: rest =>
    let call := sink service pending
    let consumer := { consumer with pending := call.pending :: rest }
    let submitted := KafkaEffect.submitted pending call.pending call.result
    match call.result with
    | .error error => ⟨.error (.ingest error), [submitted], consumer, call.service⟩
    | .ok none =>
      let (answer, effects, consumer) := consumer.pausePartition answers call.pending.record.topicPartition
      ⟨answer.map fun _ => none, submitted :: effects, consumer, call.service⟩
    | .ok (some outcome) =>
      match consumer.resumePartition answers outcome.topicPartition with
      | (.error error, effects, consumer) => ⟨.error error, submitted :: effects, consumer, call.service⟩
      | (.ok (), effects, consumer) =>
        match commitOffset answers outcome.topicPartition outcome.nextCommitOffset with
        | (.error error, commit) => ⟨.error error, submitted :: (effects ++ commit), consumer, call.service⟩
        | (.ok (), commit) => ⟨.ok (some outcome), submitted :: (effects ++ commit),
            { consumer with pending := rest, totalAccepted := consumer.totalAccepted + 1 }, call.service⟩

def serve (consumer : KafkaProcessConsumer) (callback : RebalanceCallback) : KafkaProcessConsumer :=
  { consumer with rebalanceState := consumer.rebalanceState.serve callback }

/-- The record of a decoded message is put behind the pending ones. -/
def pushBack (consumer : KafkaProcessConsumer) (message : KafkaMessage) (event : PipelineEvent)
    (durgaCompat : DurgaCompatibilityState) : KafkaProcessConsumer :=
  { consumer with
    durgaCompat
    pending := consumer.pending ++
      [.new ⟨⟨message.topic, message.partition⟩, message.offset, event⟩] }

def pollWithSink (sink : σ → KafkaPendingRecord → SinkCall σ) (answers : KafkaAnswers KafkaError)
    (consumer : KafkaProcessConsumer) (service : σ) : Polled KafkaError json σ :=
  match consumer.applyRebalanceState with
  | (.error error, consumer) => ⟨.error error, [], consumer, service⟩
  | (.ok (), consumer) =>
    if consumer.pending ≠ [] then consumer.retryPendingWith sink answers service
    else
      let consumer := answers.callbacks.foldl serve consumer
      match answers.delivery with
      | none => ⟨.ok none, [], consumer, service⟩
      | some result =>
        let consumer := { consumer with totalPolled := consumer.totalPolled + 1 }
        match result with
        | .error error => ⟨.error (.kafka error), [], consumer, service⟩
        | .ok message =>
          match consumer.config.decodeMessage json message consumer.durgaCompat with
          | .error error => ⟨.error (.decoding error), [.polled message], consumer, service⟩
          | .ok (event, durgaCompat) =>
            let polled := (consumer.pushBack message event durgaCompat).retryPendingWith sink answers service
            { polled with effects := .polled message :: polled.effects }

end Calls

end KafkaProcessConsumer

/-! ## What a call can do -/

section Outcomes

variable {KafkaError σ : Type} {json : SerdeJson} {sink : σ → KafkaPendingRecord → SinkCall σ}
  {answers : KafkaAnswers KafkaError}

/-- The partition was paused or resumed. -/
def KafkaEffect.IsNotice : KafkaEffect → Prop
  | paused _ | resumed _ => True
  | _ => False

/-- One attempt to hand a pending record on: it stays, also when its commit is refused, or it
leaves after an accepted commit. -/
inductive Retried (pending : KafkaPendingRecord) (call : SinkCall σ) (rest : List KafkaPendingRecord) :
    List KafkaEffect → List KafkaPendingRecord → Prop where
  | kept {notices : List KafkaEffect} (hNotices : ∀ effect ∈ notices, effect.IsNotice) :
    Retried pending call rest (.submitted pending call.pending call.result :: notices) (call.pending :: rest)
  | refused {notices : List KafkaEffect} (hNotices : ∀ effect ∈ notices, effect.IsNotice)
      {outcome : KafkaSubmitOutcome} (hResult : call.result = .ok (some outcome)) :
    Retried pending call rest
      (.submitted pending call.pending call.result ::
        (notices ++ [KafkaEffect.committed outcome.topicPartition outcome.nextCommitOffset false]))
      (call.pending :: rest)
  | accepted {notices : List KafkaEffect} (hNotices : ∀ effect ∈ notices, effect.IsNotice)
      {outcome : KafkaSubmitOutcome} (hResult : call.result = .ok (some outcome)) :
    Retried pending call rest
      (.submitted pending call.pending call.result ::
        (notices ++ [KafkaEffect.committed outcome.topicPartition outcome.nextCommitOffset true])) rest

namespace KafkaProcessConsumer

variable {consumer : KafkaProcessConsumer} {service : σ}

def unhandledRevoked (consumer : KafkaProcessConsumer) : List KafkaTopicPartition :=
  consumer.rebalanceState.pendingRevokedPartitions

def recordOf (message : KafkaMessage) (event : PipelineEvent) : KafkaProcessRecord :=
  ⟨⟨message.topic, message.partition⟩, message.offset, event⟩

theorem resumePartition_cases (consumer : KafkaProcessConsumer) (answers : KafkaAnswers KafkaError)
    (topicPartition : KafkaTopicPartition) :
    ∃ answer notices paused,
      (consumer.resumePartition answers topicPartition :
        Except (KafkaClientError KafkaError json) Unit × List KafkaEffect × KafkaProcessConsumer) =
          (answer, notices, { consumer with paused }) ∧ ∀ effect ∈ notices, effect.IsNotice := by
  rw [resumePartition]
  split
  · exact ⟨_, _, _, rfl, List.forall_mem_nil _⟩
  · exact ⟨_, _, _, rfl, List.forall_mem_singleton.mpr trivial⟩

theorem retried_of_pending {pending : KafkaPendingRecord} {rest : List KafkaPendingRecord}
    (h : consumer.pending = pending :: rest) :
    ∃ effects after paused accepted, (consumer.retryPendingWith sink answers service :
        Polled KafkaError json σ).effects = effects ∧
      (consumer.retryPendingWith sink answers service : Polled KafkaError json σ).consumer =
        { consumer with pending := after, paused, totalAccepted := accepted } ∧
      (consumer.retryPendingWith sink answers service : Polled KafkaError json σ).service =
        (sink service pending).service ∧
      Retried pending (sink service pending) rest effects after := by
  rw [retryPendingWith, h]
  dsimp only
  generalize sink service pending = call
  obtain ⟨result, written, next⟩ := call
  rcases result with error | _ | outcome
  · exact ⟨_, _, _, _, rfl, rfl, rfl, .kept (List.forall_mem_nil _)⟩
  · dsimp only
    rw [pausePartition]
    split
    · exact ⟨_, _, _, _, rfl, rfl, rfl, .kept (List.forall_mem_nil _)⟩
    · exact ⟨_, _, _, _, rfl, rfl, rfl, .kept (List.forall_mem_singleton.mpr trivial)⟩
  · dsimp only
    obtain ⟨answer, notices, paused, hResume, hNotices⟩ := @resumePartition_cases KafkaError json
      { consumer with pending := written :: rest } answers outcome.topicPartition
    rw [hResume]
    rcases answer with error | _
    · exact ⟨_, _, _, _, rfl, rfl, rfl, .kept hNotices⟩
    · rw [commitOffset]
      rcases answers.partitionList with error | _
      · refine ⟨_, _, _, _, rfl, rfl, rfl, .kept ?_⟩
        rwa [List.append_nil]
      · rcases answers.commit with error | _
        · exact ⟨_, _, _, _, rfl, rfl, rfl, .refused hNotices rfl⟩
        · exact ⟨_, _, _, _, rfl, rfl, rfl, .accepted hNotices rfl⟩

theorem applyRebalanceState_cases (consumer : KafkaProcessConsumer) :
    ((∃ pending ∈ consumer.pending, pending.record.topicPartition ∈ consumer.unhandledRevoked) ∧
      ∃ error paused, (consumer.applyRebalanceState :
        Except (KafkaClientError KafkaError json) Unit × KafkaProcessConsumer) =
          (.error error, { consumer with
            rebalanceState := consumer.rebalanceState.takeUnhandledRevoked.2, paused })) ∨
    ((∀ pending ∈ consumer.pending, pending.record.topicPartition ∉ consumer.unhandledRevoked) ∧
      ∃ paused, (consumer.applyRebalanceState :
        Except (KafkaClientError KafkaError json) Unit × KafkaProcessConsumer) =
          (.ok (), { consumer with
            rebalanceState := consumer.rebalanceState.takeUnhandledRevoked.2, paused })) := by
  have hTake : consumer.rebalanceState.takeUnhandledRevoked.1 = consumer.unhandledRevoked := rfl
  rw [applyRebalanceState]
  dsimp only
  rw [hTake]
  by_cases hNone : consumer.unhandledRevoked = []
  · refine .inr ⟨fun pending _ => ?_, _, if_pos hNone⟩
    rw [hNone]
    exact List.not_mem_nil
  · rw [if_neg hNone]
    cases hFind : consumer.pending.find? fun pending =>
        pending.record.topicPartition ∈ consumer.unhandledRevoked with
    | none =>
      refine .inr ⟨fun pending hPending => ?_, _, rfl⟩
      simpa using List.find?_eq_none.mp hFind pending hPending
    | some pending =>
      exact .inl ⟨⟨pending, List.mem_of_find?_eq_some hFind, by simpa using List.find?_some hFind⟩, _, _, rfl⟩

/-- The five ways a call of `poll_with_sink` goes. -/
inductive Polling (json : SerdeJson) (sink : σ → KafkaPendingRecord → SinkCall σ)
    (answers : KafkaAnswers KafkaError) (consumer : KafkaProcessConsumer) (service : σ) :
    List KafkaEffect → List KafkaPendingRecord → σ → Prop where
  | revoked {pending : KafkaPendingRecord} (hPending : pending ∈ consumer.pending)
      (hRevoked : pending.record.topicPartition ∈ consumer.unhandledRevoked) :
    Polling json sink answers consumer service [] consumer.pending service
  | retried {pending : KafkaPendingRecord} {rest after : List KafkaPendingRecord} {effects : List KafkaEffect}
      (hPending : consumer.pending = pending :: rest)
      (hOwned : ∀ pending ∈ consumer.pending, pending.record.topicPartition ∉ consumer.unhandledRevoked)
      (hRetried : Retried pending (sink service pending) rest effects after) :
    Polling json sink answers consumer service effects after (sink service pending).service
  | idle (hPending : consumer.pending = []) : Polling json sink answers consumer service [] [] service
  | undecodable (hPending : consumer.pending = []) {message : KafkaMessage}
      (hDelivery : answers.delivery = some (.ok message))
      (hDecode : (consumer.config.decodeMessage json message consumer.durgaCompat).isOk = false) :
    Polling json sink answers consumer service [.polled message] [] service
  | received (hPending : consumer.pending = []) {message : KafkaMessage}
      (hDelivery : answers.delivery = some (.ok message)) {event : PipelineEvent} {compat : DurgaCompatibilityState}
      (hDecode : consumer.config.decodeMessage json message consumer.durgaCompat = .ok (event, compat))
      {after : List KafkaPendingRecord} {effects : List KafkaEffect}
      (hRetried : Retried (.new (recordOf message event)) (sink service (.new (recordOf message event))) []
        effects after) :
    Polling json sink answers consumer service (.polled message :: effects) after
      (sink service (.new (recordOf message event))).service

theorem foldl_serve (callbacks : List RebalanceCallback) (consumer : KafkaProcessConsumer) :
    callbacks.foldl serve consumer = { consumer with
      rebalanceState := callbacks.foldl KafkaRebalanceState.serve consumer.rebalanceState } := by
  induction callbacks generalizing consumer with
  | nil => rfl
  | cons callback callbacks ih => exact ih (consumer.serve callback)

theorem polling (consumer : KafkaProcessConsumer) (service : σ) :
    Polling json sink answers consumer service
      (consumer.pollWithSink sink answers service : Polled KafkaError json σ).effects
      (consumer.pollWithSink sink answers service : Polled KafkaError json σ).consumer.pending
      (consumer.pollWithSink sink answers service : Polled KafkaError json σ).service ∧
    (consumer.pollWithSink sink answers service : Polled KafkaError json σ).consumer.config = consumer.config ∧
    (consumer.pending ≠ [] → (consumer.pollWithSink sink answers service :
      Polled KafkaError json σ).consumer.unhandledRevoked = []) := by
  rw [pollWithSink]
  rcases @applyRebalanceState_cases KafkaError json consumer with
    ⟨⟨pending, hPending, hRevoked⟩, error, paused, hApply⟩ | ⟨hOwned, paused, hApply⟩
  · rw [hApply]
    exact ⟨.revoked hPending hRevoked, rfl, fun _ => rfl⟩
  rw [hApply]
  dsimp only
  cases hPending : consumer.pending with
  | cons pending rest =>
    rw [if_pos (List.cons_ne_nil pending rest)]
    obtain ⟨effects, after, paused', accepted, hEffects, hConsumer, hService, hRetried⟩ :=
      @retried_of_pending KafkaError σ json sink answers { consumer with
        rebalanceState := consumer.rebalanceState.takeUnhandledRevoked.2, paused, pending := pending :: rest }
        service pending rest rfl
    rw [hEffects, hConsumer, hService]
    exact ⟨.retried hPending hOwned hRetried, rfl, fun _ => rfl⟩
  | nil =>
    rw [if_neg (not_not.mpr rfl), foldl_serve]
    dsimp only
    cases hDelivery : answers.delivery with
    | none => exact ⟨.idle hPending, rfl, fun hSome => absurd rfl hSome⟩
    | some result =>
      rcases result with error | message
      · exact ⟨.idle hPending, rfl, fun hSome => absurd rfl hSome⟩
      dsimp only
      cases hDecode : consumer.config.decodeMessage json message consumer.durgaCompat with
      | error error =>
        have hFailed : (consumer.config.decodeMessage json message consumer.durgaCompat).isOk = false := by
          rw [hDecode]
          rfl
        exact ⟨.undecodable hPending hDelivery hFailed, rfl, fun hSome => absurd rfl hSome⟩
      | ok decoded =>
        obtain ⟨event, compat⟩ := decoded
        obtain ⟨effects, after, paused', accepted, hEffects, hConsumer, hService, hRetried⟩ :=
          @retried_of_pending KafkaError σ json sink answers
            ({ consumer with
              rebalanceState := answers.callbacks.foldl KafkaRebalanceState.serve
                consumer.rebalanceState.takeUnhandledRevoked.2
              paused
              pending := []
              totalPolled := consumer.totalPolled + 1 }.pushBack message event compat)
            service (.new (recordOf message event)) [] rfl
        dsimp only
        rw [hEffects, hConsumer, hService]
        exact ⟨.received hPending hDelivery hDecode hRetried, rfl, fun hSome => absurd rfl hSome⟩

end KafkaProcessConsumer

end Outcomes

end Vannak.Kafka
