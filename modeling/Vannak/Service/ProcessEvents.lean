import Vannak.Foundation.Run
import Vannak.Ingest.Journal
import Vannak.Runtime.Sitas

/-!
# Process events through the service

The two ways a process event reaches the index in `service.rs` and `kafka_ingest.rs`.
Both append it to the journal first. A durable ingest then goes straight to the owning
shard, while a Kafka record waits in the shard's mailbox, or with its consumer when the
mailbox is full. A restart replays the journal into an empty index.
-/

namespace Vannak.Service

open Foundation Storage Ingest Process Vannak.Runtime

set_option autoImplicit false

/-! ## Kafka records -/

structure KafkaTopicPartition where
  topic : String
  partition : Int32
deriving DecidableEq, Repr

/-- `KafkaOffset::next_commit_offset` on `i64`. -/
def nextCommitOffset (offset : Int64) : Int64 :=
  if offset = Int64.maxValue then offset else offset + 1

structure KafkaProcessRecord where
  topicPartition : KafkaTopicPartition
  offset : Int64
  event : PipelineEvent
deriving DecidableEq, Repr

structure KafkaPendingRecord where
  record : KafkaProcessRecord
  journalOffset : Option RecordOffset
deriving DecidableEq, Repr

def KafkaPendingRecord.new (record : KafkaProcessRecord) : KafkaPendingRecord := ⟨record, none⟩

structure KafkaSubmitOutcome where
  topicPartition : KafkaTopicPartition
  offset : Int64
  nextCommitOffset : Int64
  journalOffset : Option RecordOffset
  queued : QueuedIngestOutcome
deriving DecidableEq, Repr

inductive KafkaIngestError where
  | journal (error : ProcessEventJournalError)
  | runtime (error : SitasRuntimeError)
deriving DecidableEq, Repr

section Submit

variable {config : SitasRuntimeConfig}

/-- The record goes to the journal once; later attempts find its offset. -/
def journalOnce (journal : Option ProcessEventJournal) (pending : KafkaPendingRecord) :
    Except ProcessEventJournalError KafkaPendingRecord × Option ProcessEventJournal :=
  match pending.journalOffset, journal with
  | none, some journal =>
    match journal.appendDurable pending.record.event with
    | (.error error, journal) => (.error error, some journal)
    | (.ok offset, journal) => (.ok { pending with journalOffset := some offset }, some journal)
  | _, _ => (.ok pending, journal)

/-- What a call leaves behind. -/
structure Submitted (config : SitasRuntimeConfig) where
  result : Except KafkaIngestError (Option KafkaSubmitOutcome)
  runtime : SitasShardRuntime config
  journal : Option ProcessEventJournal
  pending : KafkaPendingRecord

def trySubmitKafkaPendingRecord (runtime : SitasShardRuntime config)
    (journal : Option ProcessEventJournal) (pending : KafkaPendingRecord) : Submitted config :=
  match journalOnce journal pending with
  | (.error error, journal) => ⟨.error (.journal error), runtime, journal, pending⟩
  | (.ok pending, journal) =>
    match runtime.trySubmit pending.record.event with
    | (.ok queued, runtime) => ⟨.ok (some {
        topicPartition := pending.record.topicPartition
        offset := pending.record.offset
        nextCommitOffset := nextCommitOffset pending.record.offset
        journalOffset := pending.journalOffset
        queued }), runtime, journal, pending⟩
    | (.error (.queueFull _ _), runtime) => ⟨.ok none, runtime, journal, pending⟩
    | (.error error, runtime) => ⟨.error (.runtime error), runtime, journal, pending⟩

end Submit

/-! ## The service -/

inductive VannakServiceError where
  | processEventJournalNotConfigured
  | processEventJournal (error : ProcessEventJournalError)
  | processIngest (error : IngestError)
  | runtime (error : SitasRuntimeError)
deriving DecidableEq, Repr

structure DurableProcessIngestResult where
  outcome : IngestOutcome
  offset : RecordOffset
deriving DecidableEq, Repr

/-- The service with a sharded index, and the Kafka records that were refused by a full
mailbox and are kept by their consumer. -/
structure Supervisor (config : SitasRuntimeConfig) where
  hotIndex : SitasShardRuntime config
  processEventJournal : Option ProcessEventJournal
  refused : List KafkaPendingRecord

namespace Supervisor

variable {config : SitasRuntimeConfig}

def ingestProcessEventDurable (supervisor : Supervisor config) (event : PipelineEvent) :
    Except VannakServiceError DurableProcessIngestResult × Supervisor config :=
  match event.validate with
  | .error error => (.error (.processIngest error), supervisor)
  | .ok () =>
    match supervisor.processEventJournal with
    | none => (.error .processEventJournalNotConfigured, supervisor)
    | some journal =>
      if supervisor.hotIndex.containsEvent event.processInstanceId event.eventId then
        (.ok ⟨.duplicate, journal.writer.manifest.byteLen⟩, supervisor)
      else
        match journal.appendDurable event with
        | (.error error, journal) =>
          (.error (.processEventJournal error), { supervisor with processEventJournal := some journal })
        | (.ok offset, journal) =>
          match supervisor.hotIndex.ingest event with
          | (.error error, hotIndex) => (.error (.runtime (.ingest error)),
              { supervisor with hotIndex, processEventJournal := some journal })
          | (.ok outcome, hotIndex) => (.ok ⟨outcome, offset⟩,
              { supervisor with hotIndex, processEventJournal := some journal })

def submitKafkaRecord (supervisor : Supervisor config) (pending : KafkaPendingRecord) : Submitted config :=
  trySubmitKafkaPendingRecord supervisor.hotIndex supervisor.processEventJournal pending

end Supervisor

def replayInto {config : SitasRuntimeConfig} (hotIndex : SitasShardRuntime config)
    (event : JournaledPipelineEvent) : Except VannakServiceError (SitasShardRuntime config) :=
  match hotIndex.ingest event.event with
  | (.error error, _) => .error (.runtime (.ingest error))
  | (.ok _, hotIndex) => .ok hotIndex

/-- `recover_process_events_into_hot_index`. -/
def recoverProcessEventsIntoHotIndex {config : SitasRuntimeConfig} (hotIndex : SitasShardRuntime config)
    (file : Bytes) : Except VannakServiceError (ProcessEventReplaySummary × SitasShardRuntime config) := do
  let replay ← (replayProcessEventSegment file).mapError .processEventJournal
  let hotIndex ← replay.events.foldlM replayInto hotIndex
  return (replay.summary, hotIndex)

/-! ## Interleavings -/

inductive SupervisorStep (config : SitasRuntimeConfig) where
  | ingestDurable (event : PipelineEvent)
  | submit (record : KafkaProcessRecord)
  | resubmit (index : Nat)
  | work (shard : Fin config.shardCount)

inductive SupervisorAnswer where
  | ingested (result : Except VannakServiceError DurableProcessIngestResult)
  | submitted (result : Except KafkaIngestError (Option KafkaSubmitOutcome))
  | worked (outcome : Option (Except IngestError IngestOutcome))
  | nothing

section Steps

variable {config : SitasRuntimeConfig}

def supervisorStep (supervisor : Supervisor config) :
    SupervisorStep config → SupervisorAnswer × Supervisor config
  | .ingestDurable event =>
    let (result, supervisor) := supervisor.ingestProcessEventDurable event
    (.ingested result, supervisor)
  | .submit record =>
    let submitted := supervisor.submitKafkaRecord (.new record)
    let refused := match submitted.result with
      | .ok none => supervisor.refused ++ [submitted.pending]
      | _ => supervisor.refused
    (.submitted submitted.result, ⟨submitted.runtime, submitted.journal, refused⟩)
  | .resubmit index =>
    match supervisor.refused[index]? with
    | none => (.nothing, supervisor)
    | some pending =>
      let submitted := supervisor.submitKafkaRecord pending
      let refused := match submitted.result with
        | .ok (some _) => supervisor.refused.eraseIdx index
        | _ => supervisor.refused.set index submitted.pending
      (.submitted submitted.result, ⟨submitted.runtime, submitted.journal, refused⟩)
  | .work shard =>
    let (outcome, hotIndex) := supervisor.hotIndex.workerStep shard
    (.worked outcome, { supervisor with hotIndex })

end Steps

end Vannak.Service
