import Vannak.Kafka.Revocation

/-!
# Backpressure and commit retries

A consumer with the sink of the service and a journal. The effects of a session are read as
the progress of its records: each is polled, journaled, tried at its mailbox, possibly many
times, and committed, one record after the other. The index is then that of the journal, up
to the duplicates that the retries have caused.
-/

namespace Vannak.Kafka

open Foundation Storage Ingest Process Service Vannak.Runtime

set_option autoImplicit false

/-! ## Progress of the records -/

/-- A record is known by its partition and offset. -/
abbrev Position := KafkaTopicPartition × Int64

def positionOf (record : KafkaProcessRecord) : Position := (record.topicPartition, record.offset)

inductive Progress where
  | polled (position : Position)
  | journaled (position : Position) (offset : RecordOffset)
  | tried (position : Position) (offset : RecordOffset) (accepted : Bool)
  | committed (topicPartition : KafkaTopicPartition) (offset : Int64) (accepted : Bool)
deriving DecidableEq, Repr

/-- A call of the sink journals the record if it had no journal offset, and then tries the
mailbox unless the journal refused it. -/
def KafkaEffect.progress : KafkaEffect → List Progress
  | .polled message => [.polled (⟨message.topic, message.partition⟩, message.offset)]
  | .submitted before after result =>
    (match before.journalOffset, after.journalOffset with
      | none, some offset => [.journaled (positionOf before.record) offset]
      | _, _ => []) ++
    (match result, after.journalOffset with
      | .ok outcome, some offset => [.tried (positionOf before.record) offset outcome.isSome]
      | .error (.runtime _), some offset => [.tried (positionOf before.record) offset false]
      | _, _ => [])
  | .committed topicPartition offset accepted => [.committed topicPartition offset accepted]
  | .paused _ | .resumed _ => []

def progressOf (trace : List KafkaEffect) : List Progress := trace.flatMap KafkaEffect.progress

def polls (log : List Progress) : List Position := log.filterMap fun
  | .polled position => some position
  | _ => none

def journalings (log : List Progress) : List (Position × RecordOffset) := log.filterMap fun
  | .journaled position offset => some (position, offset)
  | _ => none

/-- The accepted commits. -/
def commits (log : List Progress) : List Position := log.filterMap fun
  | .committed topicPartition offset true => some (topicPartition, offset)
  | _ => none

/-- The first polled record that is not committed. -/
def current (log : List Progress) : Option Position := (polls log)[(commits log).length]?

/-- Everything happens to the current record, which is journaled before it is tried, with one
offset, and committed after a successful try. -/
def Orderly (before : List Progress) : Progress → Prop
  | .polled _ => current before = none
  | .journaled position _ => current before = some position ∧
    (journalings before).length = (commits before).length
  | .tried position offset _ => current before = some position ∧
    (journalings before)[(commits before).length]? = some (position, offset)
  | .committed topicPartition next _ => ∃ position offset, current before = some position ∧
    (journalings before)[(commits before).length]? = some (position, offset) ∧
    .tried position offset true ∈ before ∧
    topicPartition = position.1 ∧ next = nextCommitOffset position.2

/-- The offset that is committed for a record. -/
def commitOf (position : Position) : KafkaTopicPartition × Int64 := (position.1, nextCommitOffset position.2)

section Concat

variable (log : List Progress) (position : Position) (offset : RecordOffset) (accepted : Bool)
  (topicPartition : KafkaTopicPartition) (next : Int64)

@[simp] theorem polls_polled : polls (log ++ [Progress.polled position]) = polls log ++ [position] := by simp [polls]

@[simp] theorem polls_journaled : polls (log ++ [Progress.journaled position offset]) = polls log := by simp [polls]

@[simp] theorem polls_tried : polls (log ++ [Progress.tried position offset accepted]) = polls log := by simp [polls]

@[simp] theorem polls_committed : polls (log ++ [Progress.committed topicPartition next accepted]) = polls log := by
  simp [polls]

@[simp] theorem journalings_polled : journalings (log ++ [Progress.polled position]) = journalings log := by
  simp [journalings]

@[simp] theorem journalings_journaled :
    journalings (log ++ [Progress.journaled position offset]) = journalings log ++ [(position, offset)] := by
  simp [journalings]

@[simp] theorem journalings_tried :
    journalings (log ++ [Progress.tried position offset accepted]) = journalings log := by
  simp [journalings]

@[simp] theorem journalings_committed :
    journalings (log ++ [Progress.committed topicPartition next accepted]) = journalings log := by
  simp [journalings]

@[simp] theorem commits_polled : commits (log ++ [Progress.polled position]) = commits log := by simp [commits]

@[simp] theorem commits_journaled : commits (log ++ [Progress.journaled position offset]) = commits log := by
  simp [commits]

@[simp] theorem commits_tried : commits (log ++ [Progress.tried position offset accepted]) = commits log := by
  simp [commits]

@[simp] theorem commits_refused : commits (log ++ [Progress.committed topicPartition next false]) = commits log := by
  simp [commits]

@[simp] theorem commits_accepted :
    commits (log ++ [Progress.committed topicPartition next true]) = commits log ++ [(topicPartition, next)] := by
  simp [commits]

end Concat

theorem concat_isPrefix {α : Type} {first second : List α} {element : α} (h : first <+: second)
    (hNext : second[first.length]? = some element) : first ++ [element] <+: second := by
  obtain ⟨rest, rfl⟩ := h
  rw [List.getElem?_append_right (le_refl _), Nat.sub_self] at hNext
  obtain ⟨tail, rfl⟩ := List.head?_eq_some_iff.mp (List.head?_eq_getElem? ▸ hNext)
  exact ⟨tail, by rw [List.append_assoc, List.singleton_append]⟩

/-- The journal and the broker see the records in the order of the polls, each once. -/
theorem isPrefix_of_orderly {log : List Progress} (h : Always Orderly log) :
    (journalings log).map Prod.fst <+: polls log ∧ commits log <+: (polls log).map commitOf := by
  induction log using List.reverseRecOn with
  | nil => exact ⟨List.nil_prefix, List.nil_prefix⟩
  | append_singleton log effect ih =>
    obtain ⟨hBefore, hEffect⟩ := h.of_concat
    obtain ⟨hJournalings, hCommits⟩ := ih hBefore
    cases effect with
    | polled position =>
      rw [polls_polled, journalings_polled, commits_polled, List.map_append]
      exact ⟨hJournalings.trans (List.prefix_append _ _), hCommits.trans (List.prefix_append _ _)⟩
    | journaled position offset =>
      rw [polls_journaled, journalings_journaled, commits_journaled, List.map_append]
      refine ⟨concat_isPrefix hJournalings ?_, hCommits⟩
      rw [List.length_map, hEffect.2]
      exact hEffect.1
    | tried position offset accepted =>
      rw [polls_tried, journalings_tried, commits_tried]
      exact ⟨hJournalings, hCommits⟩
    | committed topicPartition next accepted =>
      obtain ⟨position, offset, hCurrent, -, -, rfl, rfl⟩ := hEffect
      cases accepted with
      | false =>
        rw [polls_committed, journalings_committed, commits_refused]
        exact ⟨hJournalings, hCommits⟩
      | true =>
        rw [polls_committed, journalings_committed, commits_accepted]
        refine ⟨hJournalings, concat_isPrefix hCommits ?_⟩
        rw [List.getElem?_map]
        exact congrArg (Option.map commitOf) hCurrent

/-! ## What is known at each moment -/

/-- The current record has got this offset in the journal. -/
structure Held (log : List Progress) (record : KafkaProcessRecord) (offset : RecordOffset) : Prop where
  polled : (polls log).length = (commits log).length + 1
  isCurrent : current log = some (positionOf record)
  written : (journalings log).length = (commits log).length + 1
  hasOffset : (journalings log)[(commits log).length]? = some (positionOf record, offset)
  valid : record.event.validate = .ok ()

/-- The four stages of a record, with the journaled events that have reached the mailboxes and
those that have not. -/
inductive Stage (log : List Progress) :
    List KafkaPendingRecord → List PipelineEvent → List PipelineEvent → Prop where
  | idle {settled : List PipelineEvent} (hPolls : (polls log).length = (commits log).length)
      (hJournalings : (journalings log).length = (commits log).length) : Stage log [] settled []
  | polled {record : KafkaProcessRecord} {settled : List PipelineEvent}
      (hPolls : (polls log).length = (commits log).length + 1) (hCurrent : current log = some (positionOf record))
      (hJournalings : (journalings log).length = (commits log).length) :
    Stage log [⟨record, none⟩] settled []
  | journaled {record : KafkaProcessRecord} {offset : RecordOffset} {settled : List PipelineEvent}
      (hHeld : Held log record offset) (hUntried : .tried (positionOf record) offset true ∉ log) :
    Stage log [⟨record, some offset⟩] settled [record.event]
  | admitted {record : KafkaProcessRecord} {offset : RecordOffset} {settled : List PipelineEvent}
      (hHeld : Held log record offset) (hTried : .tried (positionOf record) offset true ∈ log)
      (hSettled : record.event ∈ settled) :
    Stage log [⟨record, some offset⟩] settled []

theorem Held.tried {log : List Progress} {record : KafkaProcessRecord} {offset : RecordOffset}
    (h : Held log record offset) (position : Position) (other : RecordOffset) (accepted : Bool) :
    Held (log ++ [Progress.tried position other accepted]) record offset where
  polled := by simpa using h.polled
  isCurrent := by simpa [current] using h.isCurrent
  written := by simpa using h.written
  hasOffset := by simpa using h.hasOffset
  valid := h.valid

theorem Held.uncommitted {log : List Progress} {record : KafkaProcessRecord} {offset : RecordOffset}
    (h : Held log record offset) (topicPartition : KafkaTopicPartition) (next : Int64) :
    Held (log ++ [Progress.committed topicPartition next false]) record offset where
  polled := by simpa using h.polled
  isCurrent := by simpa [current] using h.isCurrent
  written := by simpa using h.written
  hasOffset := by simpa using h.hasOffset
  valid := h.valid

theorem Stage.held {log : List Progress} {record : KafkaProcessRecord} {offset : RecordOffset}
    {settled waiting : List PipelineEvent} (h : Stage log [⟨record, some offset⟩] settled waiting) :
    Held log record offset := by
  cases h with
  | journaled hHeld hUntried => exact hHeld
  | admitted hHeld hTried hSettled => exact hHeld

section Sessions

variable {config : SitasRuntimeConfig}

/-- The index would be that of the settled events if the mailboxes were empty. -/
def IndexOf (runtime : SitasShardRuntime config) (settled : List PipelineEvent) : Prop :=
  ∀ shard, ((runtime.hotIndex shard).ingestAll (runtime.mailbox shard)).withoutDuplicates =
    (HotIndex.new.ingestAll (onShard shard settled)).withoutDuplicates

/-- The event stands at the end of its mailbox. -/
def enqueued (runtime : SitasShardRuntime config) (event : PipelineEvent) : SitasShardRuntime config :=
  { runtime with
    mailbox := Function.update runtime.mailbox (SitasShardRuntime.shardFor config event.processInstanceId)
      (runtime.mailbox (SitasShardRuntime.shardFor config event.processInstanceId) ++ [event]) }

theorem ingestAll_enqueued (runtime : SitasShardRuntime config) (event : PipelineEvent)
    (shard : Fin config.shardCount) :
    ((enqueued runtime event).hotIndex shard).ingestAll ((enqueued runtime event).mailbox shard) =
      if SitasShardRuntime.shardFor config event.processInstanceId = shard then
        (((runtime.hotIndex shard).ingestAll (runtime.mailbox shard)).ingest event).2
      else (runtime.hotIndex shard).ingestAll (runtime.mailbox shard) := by
  by_cases hShard : SitasShardRuntime.shardFor config event.processInstanceId = shard
  · subst hShard
    rw [if_pos rfl]
    simp only [enqueued, Function.update_self]
    exact HotIndex.ingestAll_concat ..
  · rw [if_neg hShard]
    simp only [enqueued, Function.update_of_ne (Ne.symm hShard)]

theorem IndexOf.enqueued {runtime : SitasShardRuntime config} {settled : List PipelineEvent}
    (h : IndexOf runtime settled) (event : PipelineEvent) :
    IndexOf (enqueued runtime event) (settled ++ [event]) := by
  intro shard
  rw [ingestAll_enqueued, onShard_concat]
  split
  · rw [HotIndex.ingestAll_concat]
    exact HotIndex.withoutDuplicates_ingest_congr (h shard) event
  · rw [List.append_nil]
    exact h shard

/-- An event that is settled already is a duplicate. -/
theorem IndexOf.enqueued_again {runtime : SitasShardRuntime config} {settled : List PipelineEvent}
    (h : IndexOf runtime settled) {event : PipelineEvent} (hValid : event.validate = .ok ())
    (hSettled : event ∈ settled) : IndexOf (Kafka.enqueued runtime event) settled := by
  intro shard
  rw [ingestAll_enqueued]
  split
  · rename_i hShard
    have hMem : event ∈ onShard shard settled := List.mem_filter.mpr ⟨hSettled, decide_eq_true hShard⟩
    rw [HotIndex.withoutDuplicates_ingest_congr (h shard),
      HotIndex.withoutDuplicates_ingest_of_mem hValid (HotIndex.mem_eventsById_ingestAll hValid hMem _)]
  · exact h shard

def journalLength (events : List PipelineEvent) : Nat := (segmentBytes (events.map encodePipelineEvent)).length

theorem journalLength_lt_concat (events : List PipelineEvent) (event : PipelineEvent) :
    journalLength events < journalLength (events ++ [event]) := by
  rw [journalLength, journalLength, List.map_append, segmentBytes_append, List.length_append, List.map_singleton,
    List.flatMap_singleton, length_frame]
  omega

structure InStep (log : List Progress) (pending : List KafkaPendingRecord)
    (service : SitasShardRuntime config × Option ProcessEventJournal) (settled waiting : List PipelineEvent) :
    Prop where
  journal : ∃ journal, service.2 = some journal ∧ journal.Holds (settled ++ waiting)
  index : IndexOf service.1 settled
  stage : Stage log pending settled waiting
  increasing : (journalings log).Pairwise fun earlier later => earlier.2 < later.2
  bounded : ∀ entry ∈ journalings log, entry.2 < journalLength (settled ++ waiting)
  known : ∀ position offset accepted, .tried position offset accepted ∈ log →
    ∃ entry ∈ journalings log, entry.2 = offset
  orderly : Always Orderly log

namespace InStep

variable {log : List Progress} {pending : List KafkaPendingRecord} {record : KafkaProcessRecord}
  {runtime : SitasShardRuntime config} {journal : Option ProcessEventJournal}
  {service : SitasShardRuntime config × Option ProcessEventJournal} {settled waiting : List PipelineEvent}

/-! ## Steps -/

theorem polled (h : InStep log [] service settled waiting) (record : KafkaProcessRecord) :
    InStep (log ++ [Progress.polled (positionOf record)]) [.new record] service settled waiting := by
  obtain ⟨hJournal, hIndex, hStage, hIncreasing, hBounded, hKnown, hOrderly⟩ := h
  cases hStage with
  | idle hPolls hJournalings =>
    refine ⟨hJournal, hIndex, .polled ?_ ?_ ?_, ?_, ?_, ?_, hOrderly.concat ?_⟩
    · simp [hPolls]
    · simp [current, ← hPolls]
    · simpa using hJournalings
    · simpa using hIncreasing
    · simpa using hBounded
    · simpa using hKnown
    · exact List.getElem?_eq_none hPolls.le

theorem journaled {found next : ProcessEventJournal} {offset : RecordOffset}
    (h : InStep log [⟨record, none⟩] (runtime, some found) settled waiting)
    (hAppend : found.appendDurable record.event = (.ok offset, next)) :
    InStep (log ++ [Progress.journaled (positionOf record) offset]) [⟨record, some offset⟩] (runtime, some next)
      settled [record.event] := by
  obtain ⟨⟨_, hFound, hHolds⟩, hIndex, hStage, hIncreasing, hBounded, hKnown, hOrderly⟩ := h
  cases hFound
  cases hStage with
  | polled hPolls hCurrent hJournalings =>
    rw [List.append_nil] at hHolds hBounded
    have hOffset := hHolds.offset_of_appendDurable hAppend
    rcases hHolds.appendDurable record.event with ⟨hTakes, other, after, hOther, hNext⟩ | ⟨error, hOther⟩
    · cases hAppend.symm.trans hOther
      refine ⟨⟨next, rfl, hNext⟩, hIndex, .journaled ⟨?_, ?_, ?_, ?_, hTakes.1⟩ ?_, ?_, ?_, ?_, hOrderly.concat ?_⟩
      · simpa using hPolls
      · simpa [current] using hCurrent
      · simp [hJournalings]
      · simp [← hJournalings]
      · intro hMem
        obtain ⟨entry, hEntry, hSame⟩ := hKnown _ _ _ ((List.mem_append.mp hMem).resolve_right (by simp))
        exact absurd (hBounded entry hEntry) (by rw [hSame, hOffset]; exact lt_irrefl _)
      · rw [journalings_journaled, List.pairwise_append]
        refine ⟨hIncreasing, List.pairwise_singleton _ _, fun entry hEntry last hLast => ?_⟩
        rw [List.mem_singleton.mp hLast, hOffset]
        exact hBounded entry hEntry
      · intro entry hEntry
        rw [journalings_journaled, List.mem_append, List.mem_singleton] at hEntry
        rcases hEntry with hEntry | rfl
        · exact (hBounded entry hEntry).trans (journalLength_lt_concat settled record.event)
        · rw [hOffset]
          exact journalLength_lt_concat settled record.event
      · intro position other accepted hMem
        obtain ⟨entry, hEntry, hSame⟩ :=
          hKnown position other accepted ((List.mem_append.mp hMem).resolve_right (by simp))
        exact ⟨entry, by rw [journalings_journaled]; exact List.mem_append_left _ hEntry, hSame⟩
      · exact ⟨hCurrent, hJournalings⟩
    · cases hAppend.symm.trans hOther

/-- A try at the mailbox, whatever it changes there. -/
theorem tried {offset : RecordOffset} {accepted : Bool} {after : SitasShardRuntime config}
    {settledAfter waitingAfter : List PipelineEvent}
    (h : InStep log [⟨record, some offset⟩] (runtime, journal) settled waiting)
    (hEvents : settledAfter ++ waitingAfter = settled ++ waiting) (hIndex : IndexOf after settledAfter)
    (hStage : Stage (log ++ [Progress.tried (positionOf record) offset accepted]) [⟨record, some offset⟩]
      settledAfter waitingAfter) :
    InStep (log ++ [Progress.tried (positionOf record) offset accepted]) [⟨record, some offset⟩] (after, journal)
      settledAfter waitingAfter := by
  have hHeld := h.stage.held
  refine ⟨hEvents ▸ h.journal, hIndex, hStage, ?_, ?_, ?_, h.orderly.concat ⟨hHeld.isCurrent, hHeld.hasOffset⟩⟩
  · simpa using h.increasing
  · rw [hEvents]
    simpa using h.bounded
  · intro position other accepted hMem
    rw [journalings_tried]
    rcases List.mem_append.mp hMem with hMem | hMem
    · exact h.known position other accepted hMem
    · cases List.mem_singleton.mp hMem
      exact ⟨_, List.mem_of_getElem? hHeld.hasOffset, rfl⟩

/-- A failed try leaves everything as it was. -/
theorem refused {offset : RecordOffset} (h : InStep log [⟨record, some offset⟩] (runtime, journal) settled waiting) :
    InStep (log ++ [Progress.tried (positionOf record) offset false]) [⟨record, some offset⟩] (runtime, journal)
      settled waiting := by
  refine h.tried rfl h.index ?_
  cases h.stage with
  | journaled hHeld hUntried => exact .journaled (hHeld.tried _ _ _) (by simpa using hUntried)
  | admitted hHeld hTried hSettled => exact .admitted (hHeld.tried _ _ _) (by simpa using hTried) hSettled

/-- The event is new to the index or, after an earlier try, a duplicate. -/
theorem accepted {offset : RecordOffset}
    (h : InStep log [⟨record, some offset⟩] (runtime, journal) settled waiting) :
    InStep (log ++ [Progress.tried (positionOf record) offset true]) [⟨record, some offset⟩]
      (enqueued runtime record.event, journal) (settled ++ waiting) [] := by
  have hTried : .tried (positionOf record) offset true ∈ log ++ [Progress.tried (positionOf record) offset true] :=
    List.mem_append_right log (List.mem_singleton_self _)
  have hStage := h.stage
  cases hStage with
  | journaled hHeld hUntried =>
    refine h.tried (List.append_nil _) (h.index.enqueued record.event) (.admitted (hHeld.tried _ _ _) hTried ?_)
    exact List.mem_append_right settled (List.mem_singleton_self _)
  | admitted hHeld hEarlier hSettled =>
    rw [List.append_nil]
    exact h.tried rfl (h.index.enqueued_again hHeld.valid hSettled) (.admitted (hHeld.tried _ _ _) hTried hSettled)

theorem committed {offset : RecordOffset} (h : InStep log [⟨record, some offset⟩] service settled waiting)
    (hTried : .tried (positionOf record) offset true ∈ log) (accepted : Bool) :
    InStep (log ++ [Progress.committed record.topicPartition (nextCommitOffset record.offset) accepted])
      (if accepted then [] else [⟨record, some offset⟩]) service settled waiting := by
  have hHeld := h.stage.held
  have hOrderly : Orderly log (.committed record.topicPartition (nextCommitOffset record.offset) accepted) :=
    ⟨positionOf record, offset, hHeld.isCurrent, hHeld.hasOffset, hTried, rfl, rfl⟩
  refine ⟨h.journal, h.index, ?_, ?_, ?_, ?_, h.orderly.concat hOrderly⟩
  · cases h.stage with
    | journaled hHeld hUntried => exact absurd hTried hUntried
    | admitted hHeld hEarlier hSettled =>
      cases accepted with
      | false => exact .admitted (hHeld.uncommitted _ _) (List.mem_append_left _ hTried) hSettled
      | true => exact .idle (by simpa using hHeld.polled) (by simpa using hHeld.written)
  · simpa using h.increasing
  · simpa using h.bounded
  · simpa using h.known

theorem work (h : InStep log pending (runtime, journal) settled waiting) (shard : Fin config.shardCount) :
    InStep log pending ((runtime.workerStep shard).2, journal) settled waiting := by
  refine ⟨h.journal, fun other => ?_, h.stage, h.increasing, h.bounded, h.known, h.orderly⟩
  rw [← h.index other]
  dsimp only
  rw [SitasShardRuntime.workerStep]
  cases hMailbox : runtime.mailbox shard with
  | nil => rfl
  | cons event rest =>
    dsimp only
    rw [SitasShardRuntime.hotIndex_ingestOn]
    by_cases hShard : shard = other
    · subst hShard
      rw [if_pos rfl, Function.update_self, hMailbox]
      rfl
    · rw [if_neg hShard, Function.update_of_ne (Ne.symm hShard)]
      rfl

end InStep

/-! ## Attempts -/

/-- The mailbox is full or takes the event. -/
theorem InStep.tryMailbox {log : List Progress} {record : KafkaProcessRecord} {offset : RecordOffset}
    {runtime : SitasShardRuntime config} {journal next : Option ProcessEventJournal} {pending : KafkaPendingRecord}
    {settled waiting : List PipelineEvent}
    (h : InStep log [⟨record, some offset⟩] (runtime, next) settled waiting)
    (hOnce : journalOnce journal pending = (.ok ⟨record, some offset⟩, next)) :
    ∃ (outcome : Option KafkaSubmitOutcome) (after : SitasShardRuntime config)
      (settledAfter waitingAfter : List PipelineEvent),
      trySubmitKafkaPendingRecord runtime journal pending = ⟨.ok outcome, after, next, ⟨record, some offset⟩⟩ ∧
      InStep (log ++ [Progress.tried (positionOf record) offset outcome.isSome]) [⟨record, some offset⟩] (after, next)
        settledAfter waitingAfter := by
  rcases @Supervisor.trySubmit_of_journaled config runtime journal next pending _ hOnce h.stage.held.valid with
    ⟨-, hCall⟩ | ⟨-, outcome, hCall⟩
  · exact ⟨none, runtime, settled, waiting, hCall, h.refused⟩
  · exact ⟨some outcome, _, _, _, hCall, h.accepted⟩

/-- A call of the sink, read as progress. If it admits the record, the record was tried
successfully with its journal offset. -/
theorem InStep.attempt {log : List Progress} {pending : KafkaPendingRecord}
    {service : SitasShardRuntime config × Option ProcessEventJournal} {settled waiting : List PipelineEvent}
    (h : InStep log [pending] service settled waiting) :
    ∃ settledAfter waitingAfter,
      InStep (log ++ (KafkaEffect.submitted pending ((submitKafkaRecord config).submit service pending).pending
          ((submitKafkaRecord config).submit service pending).result).progress)
        [((submitKafkaRecord config).submit service pending).pending]
        ((submitKafkaRecord config).submit service pending).service settledAfter waitingAfter ∧
      ∀ outcome, ((submitKafkaRecord config).submit service pending).result = .ok (some outcome) →
        ∃ offset, ((submitKafkaRecord config).submit service pending).pending = ⟨pending.record, some offset⟩ ∧
          .tried (positionOf pending.record) offset true ∈
            log ++ (KafkaEffect.submitted pending ((submitKafkaRecord config).submit service pending).pending
              ((submitKafkaRecord config).submit service pending).result).progress := by
  obtain ⟨runtime, journal⟩ := service
  obtain ⟨record, written⟩ := pending
  obtain ⟨found, hFound, hHolds⟩ := h.journal
  dsimp only at hFound
  subst hFound
  cases written with
  | some offset =>
    have hOnce : journalOnce (some found) ⟨record, some offset⟩ =
        (.ok ⟨record, some offset⟩, some found) := rfl
    obtain ⟨outcome, after, settledAfter, waitingAfter, hCall, hNext⟩ := h.tryMailbox hOnce
    have hSubmit : (submitKafkaRecord config).submit (runtime, some found) ⟨record, some offset⟩ =
        ⟨.ok outcome, ⟨record, some offset⟩, after, some found⟩ := by
      simp only [submitKafkaRecord, hCall]
    rw [hSubmit]
    refine ⟨settledAfter, waitingAfter, hNext, fun accepted hAccepted => ⟨offset, rfl, ?_⟩⟩
    cases hAccepted
    exact List.mem_append_right log (List.mem_singleton_self _)
  | none =>
    rcases hHolds.appendDurable record.event with ⟨-, offset, next, hAppend, -⟩ | ⟨error, hAppend⟩
    · have hOnce : journalOnce (some found) ⟨record, none⟩ = (.ok ⟨record, some offset⟩, some next) := by
        simp only [journalOnce, hAppend]
      obtain ⟨outcome, after, settledAfter, waitingAfter, hCall, hNext⟩ := (h.journaled hAppend).tryMailbox hOnce
      have hSubmit : (submitKafkaRecord config).submit (runtime, some found) ⟨record, none⟩ =
          ⟨.ok outcome, ⟨record, some offset⟩, after, some next⟩ := by
        simp only [submitKafkaRecord, hCall]
      rw [hSubmit]
      rw [List.append_assoc] at hNext
      refine ⟨settledAfter, waitingAfter, hNext, fun accepted hAccepted => ⟨offset, rfl, ?_⟩⟩
      cases hAccepted
      exact List.mem_append_right log (List.mem_cons_of_mem _ (List.mem_singleton_self _))
    · have hOnce : journalOnce (some found) ⟨record, none⟩ = (.error error, some found) := by
        simp only [journalOnce, hAppend]
      have hSubmit : (submitKafkaRecord config).submit (runtime, some found) ⟨record, none⟩ =
          ⟨.error (.journal error), ⟨record, none⟩, runtime, some found⟩ := by
        simp only [submitKafkaRecord, trySubmitKafkaPendingRecord, hOnce]
      rw [hSubmit]
      refine ⟨settled, waiting, ?_, fun accepted hAccepted => by cases hAccepted⟩
      exact (List.append_nil log).symm ▸ h

theorem progressOf_notices {notices : List KafkaEffect} (h : ∀ effect ∈ notices, effect.IsNotice) :
    progressOf notices = [] := by
  refine List.flatMap_eq_nil_iff.mpr fun effect hEffect => ?_
  have hNotice := h effect hEffect
  cases effect with
  | paused topicPartition => rfl
  | resumed topicPartition => rfl
  | polled message => exact hNotice.elim
  | submitted first second result => exact hNotice.elim
  | committed topicPartition offset accepted => exact hNotice.elim

theorem InStep.retried {log : List Progress} {pending : KafkaPendingRecord} {after : List KafkaPendingRecord}
    {effects : List KafkaEffect} {service : SitasShardRuntime config × Option ProcessEventJournal}
    {settled waiting : List PipelineEvent} (h : InStep log [pending] service settled waiting)
    (hRetried : Retried pending ((submitKafkaRecord config).submit service pending) [] effects after) :
    ∃ settledAfter waitingAfter, InStep (log ++ progressOf effects) after
      ((submitKafkaRecord config).submit service pending).service settledAfter waitingAfter := by
  obtain ⟨settledAfter, waitingAfter, hNext, hAdmitted⟩ := h.attempt
  have hCommitted : ∀ {notices : List KafkaEffect}, (∀ effect ∈ notices, effect.IsNotice) →
      ∀ {outcome}, ((submitKafkaRecord config).submit service pending).result = .ok (some outcome) →
      ∀ accepted, InStep (log ++ progressOf (.submitted pending
          ((submitKafkaRecord config).submit service pending).pending
          ((submitKafkaRecord config).submit service pending).result ::
            (notices ++ [KafkaEffect.committed outcome.topicPartition outcome.nextCommitOffset accepted])))
        (if accepted then [] else [((submitKafkaRecord config).submit service pending).pending])
        ((submitKafkaRecord config).submit service pending).service settledAfter waitingAfter := by
    intro notices hNotices outcome hResult accepted
    obtain ⟨offset, hPending, hTried⟩ := hAdmitted outcome hResult
    obtain ⟨hPartition, hOffset⟩ := (submitKafkaRecord config).outcome_of_record service pending outcome hResult
    rw [hPending] at hNext
    have hDone := hNext.committed (hPending ▸ hTried) accepted
    rw [progressOf, List.flatMap_cons, List.flatMap_append, ← progressOf, progressOf_notices hNotices,
      hPartition, hOffset, ← List.append_assoc, hPending]
    exact hDone
  cases hRetried with
  | kept hNotices =>
    refine ⟨settledAfter, waitingAfter, ?_⟩
    rw [progressOf, List.flatMap_cons, ← progressOf, progressOf_notices hNotices, List.append_nil]
    exact hNext
  | refused hNotices hResult => exact ⟨_, _, hCommitted hNotices hResult false⟩
  | accepted hNotices hResult => exact ⟨_, _, hCommitted hNotices hResult true⟩

/-! ## Sessions -/

theorem progressOf_append (first second : List KafkaEffect) :
    progressOf (first ++ second) = progressOf first ++ progressOf second := List.flatMap_append

theorem Stage.length_le {log : List Progress} {pending : List KafkaPendingRecord}
    {settled waiting : List PipelineEvent} (h : Stage log pending settled waiting) : pending.length ≤ 1 := by
  cases h with
  | idle hPolls hJournalings => exact Nat.zero_le 1
  | polled hPolls hCurrent hJournalings => exact le_refl 1
  | journaled hHeld hUntried => exact le_refl 1
  | admitted hHeld hTried hSettled => exact le_refl 1

variable {KafkaError : Type} {json : SerdeJson}

theorem InStep.polling {consumerConfig : KafkaProcessConsumerConfig} {trace effects : List KafkaEffect}
    {consumer : KafkaProcessConsumer} {answers : KafkaAnswers KafkaError} {after : List KafkaPendingRecord}
    {service next : SitasShardRuntime config × Option ProcessEventJournal} {settled waiting : List PipelineEvent}
    (h : InStep (progressOf trace) consumer.pending service settled waiting)
    (hConfig : consumer.config = consumerConfig)
    (hDecodable : ∀ message, answers.delivery = some (.ok message) → Decodable consumerConfig json message)
    (hPolling : consumer.Polling json (submitKafkaRecord config).submit answers service effects after next) :
    ∃ settledAfter waitingAfter, InStep (progressOf (trace ++ effects)) after next settledAfter waitingAfter := by
  rw [progressOf_append]
  cases hPolling with
  | revoked hPending hRevoked => exact ⟨settled, waiting, (List.append_nil (progressOf trace)).symm ▸ h⟩
  | @retried record rest _ _ hPending hOwned hRetried =>
    rw [hPending] at h
    obtain rfl : rest = [] := List.eq_nil_of_length_eq_zero (by simpa using h.stage.length_le)
    exact h.retried hRetried
  | idle hPending => exact ⟨settled, waiting, (List.append_nil (progressOf trace)).symm ▸ hPending ▸ h⟩
  | @undecodable _ message hDelivery hDecode =>
    have hOk := hDecodable message hDelivery
    rw [Decodable, ← hConfig, isOk_decodeMessage, ← isOk_decodeMessage _ _ _ consumer.durgaCompat, hDecode] at hOk
    cases hOk
  | @received hPending message hDelivery event compat hDecode _ _ hRetried =>
    rw [hPending] at h
    have hNext := (h.polled (KafkaProcessConsumer.recordOf message event)).retried hRetried
    rwa [List.append_assoc] at hNext

def workStep (service : SitasShardRuntime config × Option ProcessEventJournal) (shard : Fin config.shardCount) :
    SitasShardRuntime config × Option ProcessEventJournal :=
  ((service.1.workerStep shard).2, service.2)

def SessionInStep (consumerConfig : KafkaProcessConsumerConfig)
    (past : List (SessionStep KafkaError (Fin config.shardCount) × List KafkaEffect))
    (session : Session (SitasShardRuntime config × Option ProcessEventJournal)) : Prop :=
  (∃ settled waiting, InStep (progressOf (traceOf past)) session.consumer.pending session.service settled waiting) ∧
    session.consumer.config = consumerConfig

theorem SessionInStep.step {consumerConfig : KafkaProcessConsumerConfig}
    {past : List (SessionStep KafkaError (Fin config.shardCount) × List KafkaEffect)}
    {session : Session (SitasShardRuntime config × Option ProcessEventJournal)}
    {step : SessionStep KafkaError (Fin config.shardCount)} (h : SessionInStep consumerConfig past session)
    (hDecodable : DeliversDecodable consumerConfig json step) :
    SessionInStep consumerConfig
      (past ++ [(step, (sessionStep json (submitKafkaRecord config) workStep session step).1)])
      (sessionStep json (submitKafkaRecord config) workStep session step).2 := by
  obtain ⟨⟨settled, waiting, hSession⟩, hConfig⟩ := h
  rw [SessionInStep, traceOf_concat]
  cases step with
  | poll answers =>
    obtain ⟨hPolling, hSame, -⟩ := @KafkaProcessConsumer.polling KafkaError _ json
      (submitKafkaRecord config).submit answers session.consumer session.service
    exact ⟨hSession.polling hConfig hDecodable hPolling, hSame.trans hConfig⟩
  | rebalance callback =>
    exact ⟨⟨settled, waiting, (List.append_nil (traceOf past)).symm ▸ hSession⟩, hConfig⟩
  | serve shard =>
    exact ⟨⟨settled, waiting, (List.append_nil (traceOf past)).symm ▸ hSession.work shard⟩, hConfig⟩

/-- The mailboxes are empty and the index is that of the journal. -/
def Synced (service : SitasShardRuntime config × Option ProcessEventJournal) : Prop :=
  ∃ journal events, service.2 = some journal ∧ journal.Holds events ∧
    ∀ shard, service.1.mailbox shard = [] ∧ (service.1.hotIndex shard).withoutDuplicates =
      (HotIndex.new.ingestAll (onShard shard events)).withoutDuplicates

theorem synced_create {path : PathBuf} {segmentId : SegmentId} {nodeId : NodeId} {journal : ProcessEventJournal}
    (h : ProcessEventJournal.create none path segmentId nodeId = .ok journal) :
    Synced (SitasShardRuntime.start config, some journal) := by
  obtain ⟨writer, hWriter, hWritten⟩ := SegmentWriter.holds_create path segmentId nodeId
  rw [ProcessEventJournal.create, hWriter] at h
  cases h
  exact ⟨_, [], rfl, ⟨by simp, hWritten⟩, fun _ => ⟨rfl, rfl⟩⟩

/-- The index is that of a fresh runtime that has replayed the journal, up to the duplicate
counters. -/
def AgreesWithReplay (service : SitasShardRuntime config × Option ProcessEventJournal) : Prop :=
  ∃ journal summary restarted, service.2 = some journal ∧
    recoverProcessEventsIntoHotIndex (SitasShardRuntime.start config) journal.writer.file =
      .ok (summary, restarted) ∧
    ∀ shard, (service.1.hotIndex shard).withoutDuplicates = (restarted.hotIndex shard).withoutDuplicates

/-- Every pending record was tried at its mailbox with success. -/
def AllAdmitted (log : List Progress) (pending : List KafkaPendingRecord) : Prop :=
  ∀ record ∈ pending, ∃ offset, record.journalOffset = some offset ∧
    .tried (positionOf record.record) offset true ∈ log

theorem InStep.agreesWithReplay {log : List Progress} {pending : List KafkaPendingRecord}
    {service : SitasShardRuntime config × Option ProcessEventJournal} {settled waiting : List PipelineEvent}
    (h : InStep log pending service settled waiting) (hAdmitted : AllAdmitted log pending)
    (hEmpty : ∀ shard, service.1.mailbox shard = []) : AgreesWithReplay service := by
  have hWaiting : waiting = [] := by
    cases h.stage with
    | idle hPolls hJournalings => rfl
    | polled hPolls hCurrent hJournalings => rfl
    | admitted hHeld hTried hSettled => rfl
    | journaled hHeld hUntried =>
      obtain ⟨offset, hOffset, hTried⟩ := hAdmitted _ (List.mem_singleton_self _)
      cases hOffset
      exact absurd hTried hUntried
  obtain ⟨journal, hJournal, hHolds⟩ := h.journal
  rw [hWaiting, List.append_nil] at hHolds
  obtain ⟨summary, restarted, hRestarted, hIndexes⟩ := @recover_of_holds config _ _ hHolds
  refine ⟨journal, summary, restarted, hJournal, hRestarted, fun shard => ?_⟩
  have hIndex := h.index shard
  rw [hEmpty] at hIndex
  rw [hIndexes]
  exact hIndex

theorem Synced.inStep {service : SitasShardRuntime config × Option ProcessEventJournal} (h : Synced service) :
    ∃ settled waiting, InStep [] [] service settled waiting := by
  obtain ⟨journal, events, hJournal, hHolds, hShards⟩ := h
  refine ⟨events, [], ⟨journal, hJournal, ?_⟩, fun shard => ?_, .idle rfl rfl, .nil, ?_, ?_, always_nil⟩
  · rwa [List.append_nil]
  · rw [(hShards shard).1]
    exact (hShards shard).2
  · exact fun _ hEntry => absurd hEntry List.not_mem_nil
  · exact fun _ _ _ hTried => absurd hTried List.not_mem_nil

end Sessions

/-! ### A commit that fails at first -/

def failedCommit (message : KafkaMessage) : List (SessionStep Unit (Fin singleShard.shardCount)) :=
  [.poll ⟨[], some (.ok message), .ok (), .ok (), .ok (), .error ()⟩,
    .poll ⟨[], none, .ok (), .ok (), .ok (), .ok ()⟩, .serve ⟨0, singleShard.shardCount_pos⟩, .serve ⟨0, singleShard.shardCount_pos⟩]

def failedCommitRun : List (SessionStep Unit (Fin singleShard.shardCount) × List KafkaEffect) ×
    Session (SitasShardRuntime singleShard × Option ProcessEventJournal) :=
  run (sessionStep KafkaProcessConsumerConfig.sampleJson (submitKafkaRecord singleShard) workStep)
    ⟨sampleConsumer, sampleService⟩
    (failedCommit (KafkaProcessConsumerConfig.sampleMessage "process-events-invoice" 0 4))

end Vannak.Kafka
