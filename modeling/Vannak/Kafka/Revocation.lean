import Vannak.Kafka.Commits

/-!
# Revoked partitions

A poll looks at the revocations since the poll before it and forgets them. A pending record
of a revoked partition is therefore refused once; whether it is refused for good depends on
the list of unhandled revocations at each later poll.
-/

namespace Vannak.Kafka

open Foundation Ingest Service Vannak.Runtime

set_option autoImplicit false

def RebalanceCallback.Revokes (callback : RebalanceCallback) (topicPartition : KafkaTopicPartition) : Prop :=
  ∃ partitions, callback = .pre (.revoke partitions) ∧ topicPartition ∈ partitions

/-- The record is given to the sink or its offset is committed. -/
def PassesOn (record : KafkaProcessRecord) : KafkaEffect → Prop
  | .submitted before _ _ => before.record = record
  | .committed topicPartition offset _ =>
    topicPartition = record.topicPartition ∧ offset = nextCommitOffset record.offset
  | _ => False

section Sessions

variable {KafkaError σ θ : Type} {json : SerdeJson} {sink : KafkaSink σ} {serviceStep : σ → θ → σ}

/-! ## At most one record is pending -/

theorem Retried.length_le {pending : KafkaPendingRecord} {call : SinkCall σ} {rest after : List KafkaPendingRecord}
    {effects : List KafkaEffect} (h : Retried pending call rest effects after) :
    after.length ≤ rest.length + 1 := by
  cases h with
  | kept hNotices => exact le_refl _
  | refused hNotices hResult => exact le_refl _
  | accepted hNotices hResult => exact Nat.le_succ _

theorem KafkaProcessConsumer.Polling.length_le {consumer : KafkaProcessConsumer}
    {answers : KafkaAnswers KafkaError} {service next : σ} {effects : List KafkaEffect}
    {after : List KafkaPendingRecord} (hSingle : consumer.pending.length ≤ 1)
    (h : consumer.Polling json sink.submit answers service effects after next) : after.length ≤ 1 := by
  cases h with
  | revoked hPending hRevoked => exact hSingle
  | retried hPending hOwned hRetried =>
    rw [hPending] at hSingle
    exact hRetried.length_le.trans hSingle
  | idle hPending => exact Nat.zero_le 1
  | undecodable hPending hDelivery hDecode => exact Nat.zero_le 1
  | received hPending hDelivery hDecode hRetried => exact hRetried.length_le

theorem eq_singleton_of_length_le_one {α : Type} {list : List α} {element : α} (hMem : element ∈ list)
    (hLength : list.length ≤ 1) : list = [element] := by
  obtain ⟨other, rfl⟩ := List.length_eq_one_iff.mp (le_antisymm hLength (List.length_pos_of_mem hMem))
  rw [List.mem_singleton.mp hMem]

theorem pending_length_step (session : Session σ) (step : SessionStep KafkaError θ)
    (h : session.consumer.pending.length ≤ 1) :
    (sessionStep json sink serviceStep session step).2.consumer.pending.length ≤ 1 := by
  cases step with
  | poll answers =>
    exact (@KafkaProcessConsumer.polling KafkaError σ json sink.submit answers session.consumer
      session.service).1.length_le h
  | rebalance callback => exact h
  | serve step => exact h

/-! ## One poll -/

theorem KafkaProcessConsumer.Polling.of_revoked {consumer : KafkaProcessConsumer}
    {answers : KafkaAnswers KafkaError} {service next : σ} {effects : List KafkaEffect}
    {after : List KafkaPendingRecord} {pending : KafkaPendingRecord} (hPending : pending ∈ consumer.pending)
    (hRevoked : pending.record.topicPartition ∈ consumer.unhandledRevoked)
    (h : consumer.Polling json sink.submit answers service effects after next) :
    effects = [] ∧ after = consumer.pending := by
  have hSome := List.ne_nil_of_mem hPending
  cases h with
  | revoked hOther hUnhandled => exact ⟨rfl, rfl⟩
  | retried hFirst hOwned hRetried => exact absurd hRevoked (hOwned pending hPending)
  | idle hNone => exact absurd hNone hSome
  | undecodable hNone hDelivery hDecode => exact absurd hNone hSome
  | received hNone hDelivery hDecode hRetried => exact absurd hNone hSome

theorem Retried.submitted_mem {pending : KafkaPendingRecord} {call : SinkCall σ}
    {rest after : List KafkaPendingRecord} {effects : List KafkaEffect}
    (h : Retried pending call rest effects after) : .submitted pending call.pending call.result ∈ effects := by
  cases h with
  | kept hNotices => exact List.mem_cons_self
  | refused hNotices hResult => exact List.mem_cons_self
  | accepted hNotices hResult => exact List.mem_cons_self

theorem KafkaProcessConsumer.Polling.of_unhandled {consumer : KafkaProcessConsumer}
    {answers : KafkaAnswers KafkaError} {service next : σ} {effects : List KafkaEffect}
    {after : List KafkaPendingRecord} {pending : KafkaPendingRecord} (hPending : consumer.pending = [pending])
    (hUnhandled : pending.record.topicPartition ∉ consumer.unhandledRevoked)
    (h : consumer.Polling json sink.submit answers service effects after next) :
    ∃ effect ∈ effects, PassesOn pending.record effect := by
  cases h with
  | revoked hOther hRevoked =>
    rw [hPending] at hOther
    rw [List.mem_singleton.mp hOther] at hRevoked
    exact absurd hRevoked hUnhandled
  | retried hFirst hOwned hRetried =>
    rw [hPending] at hFirst
    cases hFirst
    exact ⟨_, hRetried.submitted_mem, rfl⟩
  | idle hNone => exact absurd (hPending.symm.trans hNone) (List.cons_ne_nil _ _)
  | undecodable hNone hDelivery hDecode => exact absurd (hPending.symm.trans hNone) (List.cons_ne_nil _ _)
  | received hNone hDelivery hDecode hRetried =>
    exact absurd (hPending.symm.trans hNone) (List.cons_ne_nil _ _)

/-! ## Sessions -/

/-- Whenever a partition is revoked while a record of it is pending, that record is not passed
on later. -/
def RefusesRevoked (step : Session σ → SessionStep KafkaError θ → List KafkaEffect × Session σ)
    (start : Session σ) (steps : List (SessionStep KafkaError θ)) : Prop :=
  ∀ before callback later, steps = before ++ .rebalance callback :: later →
    ∀ pending ∈ (run step start before).2.consumer.pending, callback.Revokes pending.record.topicPartition →
      ∀ effect ∈ traceOf (run step (run step start (before ++ [.rebalance callback])).2 later).1,
        ¬PassesOn pending.record effect

/-- Whenever the consumer is polled while it holds a record whose partition was revoked before,
the partition is among the unhandled revocations. -/
def PolledUnhandled (step : Session σ → SessionStep KafkaError θ → List KafkaEffect × Session σ)
    (start : Session σ) (steps : List (SessionStep KafkaError θ)) : Prop :=
  ∀ before callback middle answers after,
    steps = before ++ .rebalance callback :: (middle ++ .poll answers :: after) →
    ∀ pending ∈ (run step start before).2.consumer.pending, callback.Revokes pending.record.topicPartition →
    ∀ still ∈ (run step (run step start (before ++ [.rebalance callback])).2 middle).2.consumer.pending,
      still.record = pending.record → pending.record.topicPartition ∈
        (run step (run step start (before ++ [.rebalance callback])).2 middle).2.consumer.unhandledRevoked

/-- As long as every poll finds the revocation unhandled, nothing happens to the record. -/
theorem quiet_of_polledUnhandled {session : Session σ} {pending : KafkaPendingRecord}
    (hPending : pending ∈ session.consumer.pending) {later : List (SessionStep KafkaError θ)}
    (h : ∀ middle answers after, later = middle ++ .poll answers :: after →
      (run (sessionStep json sink serviceStep) session middle).2.consumer.pending = session.consumer.pending →
      pending.record.topicPartition ∈
        (run (sessionStep json sink serviceStep) session middle).2.consumer.unhandledRevoked) :
    traceOf (run (sessionStep json sink serviceStep) session later).1 = [] ∧
      (run (sessionStep json sink serviceStep) session later).2.consumer.pending = session.consumer.pending := by
  induction later using List.reverseRecOn with
  | nil => exact ⟨rfl, rfl⟩
  | append_singleton earlier step ih =>
    obtain ⟨hTrace, hSame⟩ := ih fun middle answers after hSplit =>
      h middle answers (after ++ [step]) (by rw [hSplit, List.append_assoc, List.cons_append])
    rw [run_concat, traceOf_concat, hTrace, List.nil_append]
    cases step with
    | rebalance callback => exact ⟨rfl, hSame⟩
    | serve step => exact ⟨rfl, hSame⟩
    | poll answers =>
      have hUnhandled := h earlier answers [] rfl hSame
      have hPolling := (@KafkaProcessConsumer.polling KafkaError σ json sink.submit answers
        (run (sessionStep json sink serviceStep) session earlier).2.consumer
        (run (sessionStep json sink serviceStep) session earlier).2.service).1
      obtain ⟨hEffects, hAfter⟩ := hPolling.of_revoked (hSame.symm ▸ hPending) hUnhandled
      exact ⟨hEffects, hAfter.trans hSame⟩

/-- A session refuses the pending records of revoked partitions for good exactly when it is
never polled with one whose revocation was handled already. -/
theorem refuses_revoked_iff {config : KafkaProcessConsumerConfig} {consumer : KafkaProcessConsumer}
    (hStart : (KafkaProcessConsumer.start config : Except (KafkaClientError KafkaError json) _) = .ok consumer)
    (sink : KafkaSink σ) (serviceStep : σ → θ → σ) (service : σ) (steps : List (SessionStep KafkaError θ)) :
    RefusesRevoked (sessionStep json sink serviceStep) ⟨consumer, service⟩ steps ↔
      PolledUnhandled (sessionStep json sink serviceStep) ⟨consumer, service⟩ steps := by
  have hNew : consumer.pending.length ≤ 1 := by
    obtain ⟨_, -, hConsumer⟩ := ok_of_bind hStart
    cases hConsumer
    exact Nat.zero_le 1
  have hSingle : ∀ steps : List (SessionStep KafkaError θ),
      (run (sessionStep json sink serviceStep) ⟨consumer, service⟩ steps).2.consumer.pending.length ≤ 1 :=
    fun steps => run_invariant (fun session step h => pending_length_step session step h) hNew steps
  constructor
  · intro hRefuses before callback middle answers after hSteps pending hPending hRevokes still hStill hSame
    by_contra hHandled
    have hOnly := hSingle (before ++ [.rebalance callback] ++ middle)
    rw [run_append] at hOnly
    obtain ⟨effect, hEffect, hPasses⟩ := (@KafkaProcessConsumer.polling KafkaError σ json sink.submit answers
      _ _).1.of_unhandled (eq_singleton_of_length_le_one hStill hOnly) (hSame.symm ▸ hHandled)
    refine hRefuses before callback _ hSteps pending hPending hRevokes effect ?_ (hSame ▸ hPasses)
    rw [run_append, traceOf, List.flatMap_append, run, List.flatMap_cons]
    exact List.mem_append_right _ (List.mem_append_left _ hEffect)
  · intro hPolled before callback later hSteps pending hPending hRevokes effect hEffect
    have hHeld : pending ∈ (run (sessionStep json sink serviceStep) ⟨consumer, service⟩
        (before ++ [.rebalance callback])).2.consumer.pending := by
      rw [run_concat]
      exact hPending
    have hQuiet := @quiet_of_polledUnhandled KafkaError σ θ json sink serviceStep _ pending hHeld later
      fun middle answers after hSplit hSame =>
        hPolled before callback middle answers after (by rw [hSteps, hSplit]) pending hPending hRevokes
          pending (hSame.symm ▸ hHeld) rfl
    rw [hQuiet.1] at hEffect
    exact absurd hEffect List.not_mem_nil

end Sessions

/-! ### A record whose commit failed -/

/-- The message is admitted, but its offset is not committed. -/
def deliverUncommitted (message : KafkaMessage) : SessionStep Unit Unit :=
  .poll ⟨[], some (.ok message), .ok (), .ok (), .ok (), .error ()⟩

def pollNothing : SessionStep Unit Unit := .poll ⟨[], none, .ok (), .ok (), .ok (), .ok ()⟩

def revokeSample : RebalanceCallback := .pre (.revoke [⟨"process-events-invoice", 0⟩])

/-- The partition of the uncommitted record is revoked, and then the consumer is polled. -/
def revokedRun (polls : List (SessionStep Unit Unit)) : List (SessionStep Unit Unit) :=
  deliverUncommitted (KafkaProcessConsumerConfig.sampleMessage "process-events-invoice" 0 4) ::
    .rebalance revokeSample :: polls

def sampleStep : Session (SitasShardRuntime singleShard × Option ProcessEventJournal) →
    SessionStep Unit Unit →
    List KafkaEffect × Session (SitasShardRuntime singleShard × Option ProcessEventJournal) :=
  sessionStep KafkaProcessConsumerConfig.sampleJson (submitKafkaRecord singleShard) fun service _ => service

theorem refuses_revoked_once :
    RefusesRevoked sampleStep ⟨sampleConsumer, sampleService⟩ (revokedRun [pollNothing]) := by
  refine (@refuses_revoked_iff Unit _ Unit KafkaProcessConsumerConfig.sampleJson
    KafkaProcessConsumerConfig.sampleConfig sampleConsumer rfl (submitKafkaRecord singleShard)
    (fun service _ => service) sampleService _).mpr ?_
  intro before callback middle answers after hSteps pending hPending hRevokes still hStill hSame
  rcases before with _ | ⟨first, _ | ⟨second, rest⟩⟩
  · cases (List.cons.inj hSteps).1
  · obtain ⟨rfl, hRest⟩ := List.cons.inj hSteps
    obtain ⟨hCallback, hPoll⟩ := List.cons.inj hRest
    cases hCallback
    obtain ⟨rfl, -⟩ := List.append_eq_singleton_iff.mp hPoll.symm |>.resolve_right (by simp)
    obtain ⟨partitions, hPartitions, hMem⟩ := hRevokes
    cases hPartitions
    have hUnhandled : (run sampleStep ⟨sampleConsumer, sampleService⟩
        (revokedRun [])).2.consumer.unhandledRevoked = [⟨"process-events-invoice", 0⟩] := by
      decide +kernel
    exact hUnhandled ▸ hMem
  · have hLength := congrArg List.length hSteps
    simp [revokedRun] at hLength
    omega

def samplePending : KafkaPendingRecord where
  record := ⟨⟨"process-events-invoice", 0⟩, 4,
    (durgaProcessEvent KafkaProcessConsumerConfig.sampleJson KafkaProcessConsumerConfig.sampleValue
      .new).1.intoPipelineEvent ⟨"kafka:process-events-invoice"⟩ 4 ⟨"default"⟩ ⟨"default"⟩⟩
  journalOffset := some 8

/-- The first poll answers with an error and forgets the revocation, the second submits the
record again and commits its offset. -/
theorem passes_on_revoked :
    ¬RefusesRevoked sampleStep ⟨sampleConsumer, sampleService⟩ (revokedRun [pollNothing, pollNothing]) := by
  intro hRefuses
  have hPending : (run sampleStep ⟨sampleConsumer, sampleService⟩ [deliverUncommitted
      (KafkaProcessConsumerConfig.sampleMessage "process-events-invoice" 0 4)]).2.consumer.pending =
        [samplePending] := by
    decide +kernel
  refine hRefuses [deliverUncommitted _] revokeSample [pollNothing, pollNothing] rfl samplePending
    (hPending ▸ List.mem_singleton_self samplePending) ⟨_, rfl, List.mem_singleton_self _⟩
    (.committed ⟨"process-events-invoice", 0⟩ 5 true) ?_ ⟨rfl, by decide⟩
  decide +kernel

end Vannak.Kafka
