import Vannak.Foundation.Run
import Vannak.Kafka.Consumer
import Vannak.Service.Restart

/-!
# Offsets and revocations over a whole session

A session is a consumer with the service behind its sink: polls, rebalance callbacks and
the service's own work in any order. A commit covers all earlier offsets of its partition,
so the question is what became of the messages that were polled before it; and a pending
record outlives the list that says its partition was revoked.
-/

namespace Vannak.Kafka

open Foundation Ingest Service Vannak.Runtime

set_option autoImplicit false

/-! ## Sinks and sessions -/

/-- A sink can only hand the record on: the fields of a pending record are private to
`kafka_ingest.rs`, and an outcome is made from the record there. -/
structure KafkaSink (σ : Type) where
  submit : σ → KafkaPendingRecord → SinkCall σ
  keeps_record : ∀ service pending, (submit service pending).pending.record = pending.record
  outcome_of_record : ∀ service pending outcome, (submit service pending).result = .ok (some outcome) →
    outcome.topicPartition = pending.record.topicPartition ∧
      outcome.nextCommitOffset = nextCommitOffset pending.record.offset

/-- The event goes to the journal the first time, and never without a journal. -/
theorem journalOnce_cases (journal : Option ProcessEventJournal) (pending : KafkaPendingRecord) :
    (∃ found, journal = some found ∧ pending.journalOffset = none ∧
      ((∃ error next, found.appendDurable pending.record.event = (.error error, next) ∧
          journalOnce journal pending = (.error error, some next)) ∨
        ∃ offset next, found.appendDurable pending.record.event = (.ok offset, next) ∧
          journalOnce journal pending = (.ok ⟨pending.record, some offset⟩, some next))) ∨
    ((journal.isSome → pending.journalOffset.isSome) ∧ journalOnce journal pending = (.ok pending, journal)) := by
  obtain ⟨record, offset⟩ := pending
  cases journal with
  | none =>
    refine .inr ⟨fun hSome => absurd hSome (by decide), ?_⟩
    cases offset with
    | none => rfl
    | some offset => rfl
  | some found =>
    cases offset with
    | some offset => exact .inr ⟨fun _ => rfl, rfl⟩
    | none =>
      refine .inl ⟨found, rfl, rfl, ?_⟩
      rcases hAppend : found.appendDurable record.event with ⟨error | offset, next⟩
      · refine .inl ⟨error, next, rfl, ?_⟩
        simp only [journalOnce, hAppend]
      · refine .inr ⟨offset, next, rfl, ?_⟩
        simp only [journalOnce, hAppend]

section Submitting

variable {config : SitasRuntimeConfig}

/-- What `try_submit_kafka_pending_record` does once the record is journaled. -/
theorem trySubmit_of_journalOnce {runtime : SitasShardRuntime config} {journal next : Option ProcessEventJournal}
    {pending written : KafkaPendingRecord} (h : journalOnce journal pending = (.ok written, next)) :
    (∃ queued after, runtime.trySubmit written.record.event = (.ok queued, after) ∧
      trySubmitKafkaPendingRecord runtime journal pending = ⟨.ok (some {
        topicPartition := written.record.topicPartition
        offset := written.record.offset
        nextCommitOffset := nextCommitOffset written.record.offset
        journalOffset := written.journalOffset
        queued }), after, next, written⟩) ∨
    ∃ result after error, runtime.trySubmit written.record.event = (.error error, after) ∧
      trySubmitKafkaPendingRecord runtime journal pending = ⟨result, after, next, written⟩ ∧
        ∀ outcome, result ≠ .ok (some outcome) := by
  rw [trySubmitKafkaPendingRecord, h]
  dsimp only
  rcases hSubmit : runtime.trySubmit written.record.event with ⟨error | queued, after⟩
  · cases error with
    | queueFull shardId capacity => exact .inr ⟨_, _, _, rfl, rfl, by simp⟩
    | ingest error => exact .inr ⟨_, _, _, rfl, rfl, by simp⟩
  · exact .inl ⟨queued, after, rfl, rfl⟩

/-- The journal refuses the record, or the record is tried at the mailbox. -/
theorem trySubmit_cases (runtime : SitasShardRuntime config) (journal : Option ProcessEventJournal)
    (pending : KafkaPendingRecord) :
    (∃ error next, journalOnce journal pending = (.error error, next) ∧
      trySubmitKafkaPendingRecord runtime journal pending = ⟨.error (.journal error), runtime, next, pending⟩) ∨
    ∃ written next, journalOnce journal pending = (.ok written, next) ∧ written.record = pending.record ∧
      (journal.isSome → written.journalOffset.isSome) := by
  rcases journalOnce_cases journal pending with
    ⟨found, -, -, ⟨error, next, -, hOnce⟩ | ⟨offset, next, -, hOnce⟩⟩ | ⟨hOffset, hOnce⟩
  · refine .inl ⟨error, some next, hOnce, ?_⟩
    rw [trySubmitKafkaPendingRecord, hOnce]
  · exact .inr ⟨_, _, hOnce, rfl, fun _ => rfl⟩
  · exact .inr ⟨_, _, hOnce, rfl, hOffset⟩

theorem record_trySubmit (runtime : SitasShardRuntime config) (journal : Option ProcessEventJournal)
    (pending : KafkaPendingRecord) :
    (trySubmitKafkaPendingRecord runtime journal pending).pending.record = pending.record := by
  rcases trySubmit_cases runtime journal pending with
    ⟨error, next, -, hCall⟩ | ⟨written, next, hOnce, hRecord, -⟩
  · rw [hCall]
  · rcases @trySubmit_of_journalOnce config runtime journal next pending written hOnce with
      ⟨queued, after, -, hCall⟩ | ⟨result, after, error, -, hCall, -⟩
    · rw [hCall]
      exact hRecord
    · rw [hCall]
      exact hRecord

/-- The mailbox of the event's shard has taken it. -/
theorem mem_mailbox_of_trySubmit {runtime after : SitasShardRuntime config} {event : PipelineEvent}
    {queued : QueuedIngestOutcome} (h : runtime.trySubmit event = (.ok queued, after)) :
    event ∈ after.mailbox (SitasShardRuntime.shardFor config event.processInstanceId) := by
  rw [SitasShardRuntime.trySubmit] at h
  cases hValid : event.validate with
  | error error =>
    rw [hValid] at h
    cases h
  | ok =>
    rw [hValid] at h
    dsimp only at h
    split at h
    · cases h
    · cases h
      simp

/-- A record is admitted when its event has entered the mailbox of its shard, and the journal
if there is one. -/
theorem admitted_of_trySubmit {runtime : SitasShardRuntime config} {journal : Option ProcessEventJournal}
    {pending : KafkaPendingRecord} {outcome : KafkaSubmitOutcome}
    (h : (trySubmitKafkaPendingRecord runtime journal pending).result = .ok (some outcome)) :
    outcome.topicPartition = pending.record.topicPartition ∧
    outcome.nextCommitOffset = nextCommitOffset pending.record.offset ∧
    pending.record.event ∈ (trySubmitKafkaPendingRecord runtime journal pending).runtime.mailbox
      (SitasShardRuntime.shardFor config pending.record.event.processInstanceId) ∧
    (journal.isSome → (trySubmitKafkaPendingRecord runtime journal pending).pending.journalOffset.isSome) := by
  rcases trySubmit_cases runtime journal pending with
    ⟨error, next, -, hCall⟩ | ⟨written, next, hOnce, hRecord, hOffset⟩
  · rw [hCall] at h
    cases h
  · rcases @trySubmit_of_journalOnce config runtime journal next pending written hOnce with
      ⟨queued, after, hQueued, hCall⟩ | ⟨result, after, error, -, hCall, hResult⟩
    · rw [hCall] at h ⊢
      cases h
      rw [← hRecord]
      exact ⟨rfl, rfl, mem_mailbox_of_trySubmit hQueued, hOffset⟩
    · rw [hCall] at h
      exact absurd h (hResult outcome)

/-- The sink of `spawn_kafka_consumer`: `submit_kafka_record` of the service. -/
def submitKafkaRecord (config : SitasRuntimeConfig) :
    KafkaSink (SitasShardRuntime config × Option ProcessEventJournal) where
  submit service pending :=
    let submitted := trySubmitKafkaPendingRecord service.1 service.2 pending
    ⟨submitted.result, submitted.pending, submitted.runtime, submitted.journal⟩
  keeps_record service pending := record_trySubmit service.1 service.2 pending
  outcome_of_record _ _ _ h :=
    ⟨(admitted_of_trySubmit h).1, (admitted_of_trySubmit h).2.1⟩

end Submitting

structure Session (σ : Type) where
  consumer : KafkaProcessConsumer
  service : σ

/-- A poll with the answers of the client library, a callback between two polls, or a step
of the service on its own. -/
inductive SessionStep (KafkaError θ : Type) where
  | poll (answers : KafkaAnswers KafkaError)
  | rebalance (callback : RebalanceCallback)
  | serve (step : θ)

section Sessions

variable {KafkaError σ θ : Type} {json : SerdeJson} {sink : KafkaSink σ} {serviceStep : σ → θ → σ}

def sessionStep (json : SerdeJson) (sink : KafkaSink σ) (serviceStep : σ → θ → σ) (session : Session σ) :
    SessionStep KafkaError θ → List KafkaEffect × Session σ
  | .poll answers =>
    let polled : Polled KafkaError json σ := session.consumer.pollWithSink sink.submit answers session.service
    (polled.effects, ⟨polled.consumer, polled.service⟩)
  | .rebalance callback => ([], { session with consumer := session.consumer.serve callback })
  | .serve step => ([], { session with service := serviceStep session.service step })

/-- The effects of a run in order. -/
def traceOf {ι : Type} (history : List (ι × List KafkaEffect)) : List KafkaEffect := history.flatMap Prod.snd

/-- The record of the message was given to the sink, which admitted it. -/
def Admitted (trace : List KafkaEffect) (message : KafkaMessage) : Prop :=
  ∃ before after outcome, .submitted before after (.ok (some outcome)) ∈ trace ∧
    before.record.topicPartition = ⟨message.topic, message.partition⟩ ∧ before.record.offset = message.offset

def KafkaEffect.admits (message : KafkaMessage) : KafkaEffect → Bool
  | .submitted before _ (.ok (some _)) =>
    before.record.topicPartition = ⟨message.topic, message.partition⟩ ∧ before.record.offset = message.offset
  | _ => false

theorem admitted_iff (trace : List KafkaEffect) (message : KafkaMessage) :
    trace.any (KafkaEffect.admits message) ↔ Admitted trace message := by
  rw [List.any_eq_true]
  constructor
  · rintro ⟨effect, hMem, hAdmits⟩
    rw [KafkaEffect.admits.eq_def] at hAdmits
    split at hAdmits
    · exact ⟨_, _, _, hMem, of_decide_eq_true hAdmits⟩
    · cases hAdmits
  · rintro ⟨before, after, outcome, hMem, hRecord⟩
    exact ⟨_, hMem, decide_eq_true hRecord⟩

instance (trace : List KafkaEffect) (message : KafkaMessage) : Decidable (Admitted trace message) :=
  decidable_of_iff _ (admitted_iff trace message)

/-- A commit comes after the admission of all that was polled and lies below it. -/
def CoversAdmitted (before : List KafkaEffect) : KafkaEffect → Prop
  | .committed topicPartition offset _ => ∀ message, .polled message ∈ before →
    ⟨message.topic, message.partition⟩ = topicPartition → message.offset < offset → Admitted before message
  | _ => True

theorem Admitted.append {trace : List KafkaEffect} {message : KafkaMessage} (h : Admitted trace message)
    (more : List KafkaEffect) : Admitted (trace ++ more) message := by
  obtain ⟨before, after, outcome, hSubmitted, hRecord⟩ := h
  exact ⟨before, after, outcome, List.mem_append_left more hSubmitted, hRecord⟩

def OfMessage (pending : KafkaPendingRecord) (message : KafkaMessage) : Prop :=
  pending.record.topicPartition = ⟨message.topic, message.partition⟩ ∧ pending.record.offset = message.offset

/-- Every message polled so far was admitted or is still pending. -/
structure Accounted (trace : List KafkaEffect) (pending : List KafkaPendingRecord) : Prop where
  single : pending.length ≤ 1
  polled : ∀ message, .polled message ∈ trace →
    Admitted trace message ∨ ∃ record ∈ pending, OfMessage record message
  commits : Always CoversAdmitted trace

namespace Accounted

variable {trace : List KafkaEffect} {pending : List KafkaPendingRecord} {record other : KafkaPendingRecord}

theorem concat (h : Accounted trace pending) {effect : KafkaEffect} (hEffect : ∀ message, .polled message ≠ effect)
    (hCovers : CoversAdmitted trace effect) : Accounted (trace ++ [effect]) pending where
  single := h.single
  polled message hMem := by
    rcases List.mem_append.mp hMem with hMem | hMem
    · exact (h.polled message hMem).imp_left fun hAdmitted => hAdmitted.append _
    · exact absurd (List.mem_singleton.mp hMem) (hEffect message)
  commits := h.commits.concat hCovers

theorem append_notices (h : Accounted trace pending) {notices : List KafkaEffect}
    (hNotices : ∀ effect ∈ notices, effect.IsNotice) : Accounted (trace ++ notices) pending := by
  induction notices using List.reverseRecOn with
  | nil => rwa [List.append_nil]
  | append_singleton notices effect ih =>
    obtain ⟨hBefore, hEffect⟩ := List.forall_mem_append.mp hNotices
    have hNotice := List.forall_mem_singleton.mp hEffect
    rw [← List.append_assoc]
    cases effect with
    | paused topicPartition => exact (ih hBefore).concat (fun _ => by simp) trivial
    | resumed topicPartition => exact (ih hBefore).concat (fun _ => by simp) trivial
    | polled message => exact hNotice.elim
    | submitted first second result => exact hNotice.elim
    | committed topicPartition offset accepted => exact hNotice.elim

theorem replace (h : Accounted trace [record]) (hRecord : other.record = record.record) :
    Accounted trace [other] where
  single := le_refl 1
  polled message hMem := by
    refine (h.polled message hMem).imp_right fun ⟨found, hFound, hOf⟩ => ⟨other, by simp, ?_⟩
    rw [List.mem_singleton.mp hFound] at hOf
    rwa [OfMessage, hRecord]
  commits := h.commits

/-- Once its record is admitted, nothing polled is left without admission. -/
theorem admitted (h : Accounted trace [record]) {before after : KafkaPendingRecord} {outcome : KafkaSubmitOutcome}
    (hAdmitted : .submitted before after (.ok (some outcome)) ∈ trace) (hRecord : before.record = record.record) :
    Accounted trace [] where
  single := Nat.zero_le 1
  polled message hMem := by
    rcases h.polled message hMem with hEarlier | ⟨found, hFound, hOf⟩
    · exact .inl hEarlier
    · rw [List.mem_singleton.mp hFound] at hOf
      exact .inl ⟨before, after, outcome, hAdmitted, by rw [hRecord]; exact hOf.1, by rw [hRecord]; exact hOf.2⟩
  commits := h.commits

theorem covers (h : Accounted trace []) (topicPartition : KafkaTopicPartition) (offset : Int64) (accepted : Bool) :
    CoversAdmitted trace (.committed topicPartition offset accepted) := by
  intro message hMem _ _
  rcases h.polled message hMem with hAdmitted | ⟨found, hFound, -⟩
  · exact hAdmitted
  · exact absurd hFound List.not_mem_nil

/-- An attempt for the only pending record keeps the account. -/
theorem retried {effects : List KafkaEffect} {after : List KafkaPendingRecord} {service : σ}
    (h : Accounted trace [record]) (hRetried : Retried record (sink.submit service record) [] effects after) :
    Accounted (trace ++ effects) after := by
  have hCalled : Accounted
      (trace ++
        [KafkaEffect.submitted record (sink.submit service record).pending (sink.submit service record).result])
      [record] := by
    refine h.concat (fun _ => ?_) ?_
    · simp
    · trivial
  have hSubmitted := hCalled.replace (sink.keeps_record service record)
  have hCommitted : ∀ {notices : List KafkaEffect}, (∀ effect ∈ notices, effect.IsNotice) →
      ∀ {outcome}, (sink.submit service record).result = .ok (some outcome) →
      Accounted (trace ++ .submitted record (sink.submit service record).pending
        (sink.submit service record).result :: notices) [] := by
    intro notices hNotices outcome hResult
    have hNoticed := hSubmitted.append_notices hNotices
    rw [List.append_assoc, List.singleton_append] at hNoticed
    have hAdmitted : .submitted record (sink.submit service record).pending (.ok (some outcome)) ∈
        trace ++ .submitted record (sink.submit service record).pending
          (sink.submit service record).result :: notices := by
      rw [hResult]
      exact List.mem_append_right trace List.mem_cons_self
    exact hNoticed.admitted hAdmitted (sink.keeps_record service record).symm
  cases hRetried with
  | kept hNotices =>
    have hNoticed := hSubmitted.append_notices hNotices
    rwa [List.append_assoc, List.singleton_append] at hNoticed
  | refused hNotices hResult =>
    have hNoticed := hSubmitted.append_notices hNotices
    rw [List.append_assoc, List.singleton_append] at hNoticed
    rw [← List.cons_append, ← List.append_assoc]
    exact hNoticed.concat (fun _ => by simp) ((hCommitted hNotices hResult).covers _ _ _)
  | accepted hNotices hResult =>
    have hNoticed := hCommitted hNotices hResult
    rw [← List.cons_append, ← List.append_assoc]
    exact hNoticed.concat (fun _ => by simp) (hNoticed.covers _ _ _)

end Accounted

theorem accounted_nil : Accounted [] [] where
  single := Nat.zero_le 1
  polled _ hMem := absurd hMem List.not_mem_nil
  commits := always_nil

/-- A message that has just been decoded is the only pending one. -/
theorem Accounted.received {trace : List KafkaEffect} (h : Accounted trace []) (message : KafkaMessage)
    (event : PipelineEvent) :
    Accounted (trace ++ [KafkaEffect.polled message]) [.new (KafkaProcessConsumer.recordOf message event)] where
  single := le_refl 1
  polled other hMem := by
    rcases List.mem_append.mp hMem with hMem | hMem
    · rcases h.polled other hMem with hAdmitted | ⟨found, hFound, -⟩
      · exact .inl (hAdmitted.append _)
      · exact absurd hFound List.not_mem_nil
    · cases List.mem_singleton.mp hMem
      exact .inr ⟨_, List.mem_singleton_self _, rfl, rfl⟩
  commits := h.commits.concat trivial

/-- `decode_event` accepts the message, whatever it has counted before. -/
def Decodable (config : KafkaProcessConsumerConfig) (json : SerdeJson) (message : KafkaMessage) : Prop :=
  (config.decodeMessage json message .new).isOk

instance (config : KafkaProcessConsumerConfig) (json : SerdeJson) (message : KafkaMessage) :
    Decidable (Decodable config json message) :=
  inferInstanceAs (Decidable (_ = true))

/-- Every message that the step delivers can be decoded. -/
def DeliversDecodable (config : KafkaProcessConsumerConfig) (json : SerdeJson) :
    SessionStep KafkaError θ → Prop
  | .poll answers => ∀ message, answers.delivery = some (.ok message) → Decodable config json message
  | _ => True

/-- What decoding depends on. -/
theorem isOk_decodeMessage (config : KafkaProcessConsumerConfig) (json : SerdeJson) (message : KafkaMessage)
    (compat : DurgaCompatibilityState) :
    (config.decodeMessage json message compat).isOk =
      match message.payload, config.payloadFormat with
      | none, _ => false
      | some payload, .vannakBinary => (decodePipelineEvent payload).isOk
      | some payload, .durgaJson => (json.fromSlice payload).isOk := by
  rw [KafkaProcessConsumerConfig.decodeMessage]
  cases message.payload with
  | none => rfl
  | some payload =>
    dsimp only
    rw [KafkaProcessConsumerConfig.decodeEvent]
    cases config.payloadFormat with
    | vannakBinary =>
      dsimp only
      cases decodePipelineEvent payload with
      | error error => rfl
      | ok event => rfl
    | durgaJson =>
      dsimp only
      rw [decodeDurgaJsonProcessEvent]
      cases json.fromSlice payload with
      | error error => rfl
      | ok value => rfl

theorem traceOf_concat {ι : Type} (history : List (ι × List KafkaEffect)) (entry : ι × List KafkaEffect) :
    traceOf (history ++ [entry]) = traceOf history ++ entry.2 := by
  simp [traceOf]

theorem Accounted.polling {config : KafkaProcessConsumerConfig} {trace effects : List KafkaEffect}
    {consumer : KafkaProcessConsumer} {service next : σ} {answers : KafkaAnswers KafkaError}
    {after : List KafkaPendingRecord} (h : Accounted trace consumer.pending) (hConfig : consumer.config = config)
    (hDecodable : ∀ message, answers.delivery = some (.ok message) → Decodable config json message)
    (hPolling : consumer.Polling json sink.submit answers service effects after next) :
    Accounted (trace ++ effects) after := by
  cases hPolling with
  | revoked hPending hRevoked => rwa [List.append_nil]
  | @retried record rest _ _ hPending hOwned hRetried =>
    have hSingle := h.single
    rw [hPending] at h hSingle
    obtain rfl : rest = [] := List.eq_nil_of_length_eq_zero (by simpa using hSingle)
    exact h.retried hRetried
  | idle hPending =>
    rw [hPending] at h
    rwa [List.append_nil]
  | @undecodable _ message hDelivery hDecode =>
    have hOk := hDecodable message hDelivery
    rw [Decodable, ← hConfig, isOk_decodeMessage, ← isOk_decodeMessage _ _ _ consumer.durgaCompat, hDecode] at hOk
    cases hOk
  | @received hPending message hDelivery event compat hDecode _ _ hRetried =>
    rw [hPending] at h
    have hNext := (h.received message event).retried hRetried
    rwa [List.append_assoc, List.singleton_append] at hNext

def AccountedSession {ι : Type} (config : KafkaProcessConsumerConfig) (past : List (ι × List KafkaEffect))
    (session : Session σ) : Prop :=
  Accounted (traceOf past) session.consumer.pending ∧ session.consumer.config = config

theorem AccountedSession.step {config : KafkaProcessConsumerConfig}
    {past : List (SessionStep KafkaError θ × List KafkaEffect)} {session : Session σ}
    {step : SessionStep KafkaError θ} (h : AccountedSession config past session)
    (hDecodable : DeliversDecodable config json step) :
    AccountedSession config (past ++ [(step, (sessionStep json sink serviceStep session step).1)])
      (sessionStep json sink serviceStep session step).2 := by
  rw [AccountedSession, traceOf_concat]
  cases step with
  | poll answers =>
    obtain ⟨hPolling, hConfig, -⟩ :=
      @KafkaProcessConsumer.polling KafkaError σ json sink.submit answers session.consumer session.service
    exact ⟨h.1.polling h.2 hDecodable hPolling, hConfig.trans h.2⟩
  | rebalance callback => exact ⟨(List.append_nil (traceOf past)).symm ▸ h.1, h.2⟩
  | serve step => exact ⟨(List.append_nil (traceOf past)).symm ▸ h.1, h.2⟩

/-- In a session whose messages can all be decoded, an offset is committed only after all
that it covers was admitted; with the sink of the service, this means journaled and queued. -/
theorem commits_cover_admitted {config : KafkaProcessConsumerConfig} {consumer : KafkaProcessConsumer}
    (hStart : (KafkaProcessConsumer.start config : Except (KafkaClientError KafkaError json) _) = .ok consumer)
    (sink : KafkaSink σ) (serviceStep : σ → θ → σ) (service : σ) {steps : List (SessionStep KafkaError θ)}
    (hDecodable : ∀ step ∈ steps, DeliversDecodable config json step) :
    Always CoversAdmitted (traceOf (run (sessionStep json sink serviceStep) ⟨consumer, service⟩ steps).1) ∧
    ∀ (runtime : SitasRuntimeConfig) (service : SitasShardRuntime runtime × Option ProcessEventJournal)
      (pending : KafkaPendingRecord) (outcome : KafkaSubmitOutcome),
      ((submitKafkaRecord runtime).submit service pending).result = .ok (some outcome) →
        pending.record.event ∈ ((submitKafkaRecord runtime).submit service pending).service.1.mailbox
          (SitasShardRuntime.shardFor runtime pending.record.event.processInstanceId) ∧
        (service.2.isSome → ((submitKafkaRecord runtime).submit service pending).pending.journalOffset.isSome) := by
  have hNew : consumer.pending = [] ∧ consumer.config = config := by
    obtain ⟨_, -, hConsumer⟩ := ok_of_bind hStart
    cases hConsumer
    exact ⟨rfl, rfl⟩
  have hState : AccountedSession config ([] : List (SessionStep KafkaError θ × List KafkaEffect))
      ⟨consumer, service⟩ :=
    ⟨hNew.1.symm ▸ accounted_nil, hNew.2⟩
  have hSteps : AllSteps (sessionStep json sink serviceStep) (fun _ step => DeliversDecodable config json step)
      ⟨consumer, service⟩ steps :=
    allSteps_of_forall fun _ step hStep => hDecodable step hStep
  have hRun := run_history_of_allSteps (fun _ _ _ hSession hStep => hSession.step hStep) hState hSteps
  exact ⟨hRun.1.commits, fun _ _ _ _ hResult => (admitted_of_trySubmit hResult).2.2⟩

end Sessions

/-! ### A message that cannot be decoded -/

def deliver (message : KafkaMessage) : SessionStep Unit Unit :=
  .poll ⟨[], some (.ok message), .ok (), .ok (), .ok (), .ok ()⟩

def sampleService : SitasShardRuntime singleShard × Option ProcessEventJournal :=
  (.start singleShard, some sampleJournal)

def sampleConsumer : KafkaProcessConsumer :=
  ⟨KafkaProcessConsumerConfig.sampleConfig, [], ∅, .new, .new, 0, 0⟩

def sampleRun (steps : List (SessionStep Unit Unit)) : List KafkaEffect :=
  traceOf (run (sessionStep KafkaProcessConsumerConfig.sampleJson (submitKafkaRecord singleShard)
    fun service _ => service) ⟨sampleConsumer, sampleService⟩ steps).1

theorem commits_cover_admitted_twice :
    Always CoversAdmitted (sampleRun
      [deliver (KafkaProcessConsumerConfig.sampleMessage "process-events-invoice" 0 4),
        deliver (KafkaProcessConsumerConfig.sampleMessage "process-events-invoice" 0 5)]) := by
  refine (@commits_cover_admitted Unit _ _ KafkaProcessConsumerConfig.sampleJson
    KafkaProcessConsumerConfig.sampleConfig sampleConsumer rfl (submitKafkaRecord singleShard)
    (fun service _ => service) sampleService _ ?_).1
  refine List.forall_mem_cons.mpr ⟨?_, List.forall_mem_singleton.mpr ?_⟩
  · rintro _ ⟨⟩
    decide +kernel
  · rintro _ ⟨⟩
    decide +kernel

/-- The first message has no readable payload and is dropped; the commit of the second
covers it. -/
theorem commit_covers_dropped_message :
    (KafkaProcessConsumer.start KafkaProcessConsumerConfig.sampleConfig : Except (KafkaClientError Unit
      KafkaProcessConsumerConfig.sampleJson) _) = .ok sampleConsumer ∧
    ¬Always CoversAdmitted (sampleRun
      [deliver ⟨"process-events-invoice", 0, 4, some []⟩,
        deliver (KafkaProcessConsumerConfig.sampleMessage "process-events-invoice" 0 5)]) := by
  refine ⟨rfl, fun hAlways => ?_⟩
  have hAdmitted := hAlways _ (.committed ⟨"process-events-invoice", 0⟩ 6 true) []
    (by decide +kernel : _ = List.take 3 (sampleRun
      [deliver ⟨"process-events-invoice", 0, 4, some []⟩,
        deliver (KafkaProcessConsumerConfig.sampleMessage "process-events-invoice" 0 5)]) ++ _)
    ⟨"process-events-invoice", 0, 4, some []⟩ (by decide +kernel) rfl (by decide)
  exact absurd hAdmitted (by decide +kernel)

end Vannak.Kafka
