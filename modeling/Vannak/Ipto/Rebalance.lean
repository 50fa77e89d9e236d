import Vannak.Ipto.Durable

/-!
# Replaying a shard range

`rebalance_shard_range_to` of `ipto.rs` rescans a segment for the records of a shard range,
queues them in an outbox of their own and drains that outbox once. Seen from the writer this
is a list of payloads, the first record of every key, offered one after another.
-/

namespace Vannak.Ipto

open Foundation Storage

set_option autoImplicit false

def InShardRange (start stop : DataIndividualShardId) (payload : IptoWritePayload) : Prop :=
  payload.shardId ≥ start ∧ payload.shardId ≤ stop

instance (start stop : DataIndividualShardId) (payload : IptoWritePayload) :
    Decidable (InShardRange start stop payload) :=
  inferInstanceAs (Decidable (_ ∧ _))

/-- The body of the replay loop: every record is decoded, those of the range are queued. -/
def replayShardRecord (start stop : DataIndividualShardId) (outbox : MetadataOutbox) (record : SegmentRecord) :
    Except MetadataOutboxStorageError MetadataOutbox :=
  match IptoWritePayload.decode record.payload with
  | .error error => .error (.payloadDecode error)
  | .ok payload =>
    if InShardRange start stop payload then
      .ok (outbox.enqueueWithOffset payload (some record.offset)).2
    else .ok outbox

/-- The file as it is found when it is opened, or what goes wrong when it is read. -/
abbrev SegmentScan := Except SegmentError Bytes

def replayMetadataOutboxSegmentForShardRange (scan : SegmentScan) (start stop : DataIndividualShardId) :
    Except MetadataOutboxStorageError MetadataOutbox := do
  let file ← scan.mapError .segment
  let reader ← (SegmentReader.openFile file).mapError .segment
  reader.whileSome .segment (fun outbox record _ => replayShardRecord start stop outbox record) MetadataOutbox.new

structure MetadataOutboxRebalanceSummary where
  entriesFound : Nat
  attempted : Nat
  acknowledged : Nat
  failed : Nat
deriving DecidableEq, Repr

section Rebalance

variable {ω : Type} (writer : IptoWriter ω)

def rebalanceShardRangeTo (scan : SegmentScan) (start stop : DataIndividualShardId) (remote : ω)
    (maxAttempts : Nat) : Except MetadataOutboxStorageError MetadataOutboxRebalanceSummary × ω :=
  match replayMetadataOutboxSegmentForShardRange scan start stop with
  | .error error => (.error error, remote)
  | .ok pending =>
    let (drain, pending, remote) := drainPendingOutbox writer pending remote maxAttempts
    (.ok ⟨pending.entries.size, drain.attempted, drain.acknowledged, drain.failed⟩, remote)

end Rebalance

/-! ## The records of a segment -/

def ledgerRecord (ledger : Ledger) (record : SegmentRecord) : Except MetadataOutboxStorageError Ledger :=
  match IptoWritePayload.decode record.payload with
  | .error error => .error (.payloadDecode error)
  | .ok payload => .ok (ledger ++ [(payload, record.offset)])

/-- All records of a segment, decoded, with their offsets. -/
def segmentLedger (scan : SegmentScan) : Except MetadataOutboxStorageError Ledger := do
  let file ← scan.mapError .segment
  let reader ← (SegmentReader.openFile file).mapError .segment
  reader.whileSome .segment (fun ledger record _ => ledgerRecord ledger record) []

theorem foldlM_ledgerRecord {payloads : List IptoWritePayload}
    (hSized : ∀ payload ∈ payloads, Sized payload.encode) (offset : Nat) (ledger : Ledger) :
    (recordsFrom offset (payloads.map IptoWritePayload.encode)).foldlM ledgerRecord ledger =
      .ok (ledger ++ ledgerFrom offset payloads) := by
  induction payloads generalizing offset ledger with
  | nil =>
    rw [ledgerFrom, List.append_nil]
    rfl
  | cons payload payloads ih =>
    have hRecord : ledgerRecord ledger ⟨offset, checksum payload.encode, payload.encode⟩ =
        .ok (ledger ++ [(payload, offset)]) := by
      simp [ledgerRecord, decode_encode (hSized payload List.mem_cons_self)]
    rw [List.map_cons, recordsFrom, List.foldlM_cons, hRecord]
    refine (ih (fun other hOther => hSized other (List.mem_cons_of_mem payload hOther)) _ _).trans ?_
    rw [ledgerFrom, List.append_assoc, List.singleton_append]

/-- The records of a segment that was written payload by payload. -/
theorem segmentLedger_segmentBytes {payloads : List IptoWritePayload}
    (hSized : ∀ payload ∈ payloads, Sized payload.encode) :
    segmentLedger (.ok (segmentBytes (payloads.map IptoWritePayload.encode))) = .ok (ledgerFrom 8 payloads) := by
  have hFrames : ∀ bytes ∈ payloads.map IptoWritePayload.encode, Sized bytes := by
    intro bytes hBytes
    obtain ⟨payload, hPayload, rfl⟩ := List.mem_map.mp hBytes
    exact hSized payload hPayload
  have hOpen := openFile_segment ((payloads.map IptoWritePayload.encode).flatMap frame)
  rw [segmentLedger, segmentBytes]
  refine (ok_bind rfl _).trans ?_
  rw [hOpen]
  refine (SegmentReader.whileSome_frames .segment (fun ledger record _ => ledgerRecord ledger record)
    hFrames 8 ledgerRecord (fun _ _ _ => rfl) _).trans ?_
  rw [foldlM_ledgerRecord hSized, List.nil_append]

/-! ## The queue of a range -/

def enqueueRow (outbox : MetadataOutbox) (row : IptoWritePayload × Nat) : MetadataOutbox :=
  (outbox.enqueueWithOffset row.1 (some row.2)).2

def rangeRows (start stop : DataIndividualShardId) (ledger : Ledger) : Ledger :=
  ledger.filter fun row => InShardRange start stop row.1

theorem replayMetadataOutboxSegmentForShardRange_eq (scan : SegmentScan) (start stop : DataIndividualShardId) :
    replayMetadataOutboxSegmentForShardRange scan start stop =
      (segmentLedger scan).map fun ledger => (rangeRows start stop ledger).foldl enqueueRow MetadataOutbox.new := by
  have hBody : ∀ (ledger : Ledger) (record : SegmentRecord) (next : SegmentReader),
      replayShardRecord start stop ((rangeRows start stop ledger).foldl enqueueRow MetadataOutbox.new) record =
        (ledgerRecord ledger record).map fun ledger =>
          (rangeRows start stop ledger).foldl enqueueRow MetadataOutbox.new := by
    intro ledger record _
    rw [replayShardRecord, ledgerRecord]
    cases IptoWritePayload.decode record.payload with
    | error error => rfl
    | ok payload =>
      simp only [Except.map, rangeRows, List.filter_append, List.foldl_append]
      by_cases hRange : InShardRange start stop payload
      · rw [if_pos hRange, List.filter_singleton, decide_eq_true hRange]
        rfl
      · rw [if_neg hRange, List.filter_singleton, decide_eq_false hRange]
        rfl
  cases scan with
  | error error => rfl
  | ok file =>
    cases hOpen : SegmentReader.openFile file with
    | error error => simp [replayMetadataOutboxSegmentForShardRange, segmentLedger, hOpen, Except.mapError, bind,
        Except.bind, Except.map]
    | ok reader =>
      simp only [replayMetadataOutboxSegmentForShardRange, segmentLedger, hOpen, Except.mapError, bind, Except.bind]
      exact @SegmentReader.whileSome_map Ledger _ .segment _ (fun ledger record _ => ledgerRecord ledger record)
        (fun outbox record _ => replayShardRecord start stop outbox record) _ hBody reader []

/-- The payloads that get into the queue: of every key the first. -/
def queuePayload (payloads : List IptoWritePayload) (payload : IptoWritePayload) : List IptoWritePayload :=
  if payload.idempotencyKey ∈ payloads.map IptoWritePayload.idempotencyKey then payloads else payloads ++ [payload]

def rangePayloads (start stop : DataIndividualShardId) (ledger : Ledger) : List IptoWritePayload :=
  ((rangeRows start stop ledger).map Prod.fst).foldl queuePayload []

/-- An outbox with nothing but these payloads still to be delivered, in this order. -/
structure Queues (payloads : List IptoWritePayload) (outbox : MetadataOutbox) : Prop where
  pending : outbox.pending = payloads.map IptoWritePayload.idempotencyKey
  nodup : (payloads.map IptoWritePayload.idempotencyKey).Nodup
  entry : ∀ payload ∈ payloads, ∃ entry, outbox.entries[payload.idempotencyKey]? = some entry ∧
    entry.payload = payload ∧ entry.status = .pending

/-- Fresh from a replay: every entry is queued. -/
structure QueuesAll (payloads : List IptoWritePayload) (outbox : MetadataOutbox) : Prop extends
    Queues payloads outbox where
  mem_iff : ∀ key, key ∈ outbox.entries ↔ key ∈ payloads.map IptoWritePayload.idempotencyKey
  size : outbox.entries.size = payloads.length

theorem queuesAll_new : QueuesAll [] MetadataOutbox.new where
  pending := rfl
  nodup := List.nodup_nil
  entry payload hPayload := by cases hPayload
  mem_iff key := by simp [MetadataOutbox.new]
  size := rfl

theorem QueuesAll.enqueueRow {payloads : List IptoWritePayload} {outbox : MetadataOutbox}
    (h : QueuesAll payloads outbox) (row : IptoWritePayload × Nat) :
    QueuesAll (queuePayload payloads row.1) (Ipto.enqueueRow outbox row) := by
  rw [queuePayload, Ipto.enqueueRow, MetadataOutbox.enqueueWithOffset]
  by_cases hKnown : row.1.idempotencyKey ∈ payloads.map IptoWritePayload.idempotencyKey
  · rw [if_pos hKnown, if_pos (Std.ExtTreeMap.contains_iff_mem.mpr ((h.mem_iff _).mpr hKnown))]
    exact h
  · have hFresh : row.1.idempotencyKey ∉ outbox.entries := fun hMem => hKnown ((h.mem_iff _).mp hMem)
    rw [if_neg hKnown, if_neg fun hContains => hFresh (Std.ExtTreeMap.contains_iff_mem.mp hContains)]
    refine ⟨⟨?_, ?_, fun payload hPayload => ?_⟩, fun key => ?_, ?_⟩
    · dsimp only
      rw [h.pending, List.map_append, List.map_singleton]
    · rw [List.map_append, List.map_singleton]
      exact h.nodup.append (List.nodup_singleton _) (by simpa using hKnown)
    · dsimp only
      rw [getElem?_insert_ite]
      rcases List.mem_append.mp hPayload with hOld | hNew
      · have hOther : row.1.idempotencyKey ≠ payload.idempotencyKey := fun hKey =>
          hKnown (hKey ▸ List.mem_map_of_mem hOld)
        rw [if_neg hOther]
        exact h.entry payload hOld
      · rw [List.mem_singleton.mp hNew, if_pos rfl]
        exact ⟨_, rfl, rfl, rfl⟩
    · rw [Std.ExtTreeMap.mem_insert, Std.compare_eq_iff_eq, h.mem_iff, List.map_append, List.mem_append,
        List.map_singleton, List.mem_singleton, or_comm, eq_comm]
    · dsimp only
      rw [Std.ExtTreeMap.size_insert,
        if_neg fun hContains => hFresh (Std.ExtTreeMap.contains_iff_mem.mp hContains), h.size, List.length_append,
        List.length_singleton]

theorem queuesAll_rows (rows : Ledger) :
    QueuesAll ((rows.map Prod.fst).foldl queuePayload []) (rows.foldl enqueueRow MetadataOutbox.new) := by
  induction rows using List.reverseRecOn with
  | nil => exact queuesAll_new
  | append_singleton rows row ih =>
    rw [List.map_append, List.foldl_append, List.foldl_append]
    exact ih.enqueueRow row

theorem foldl_queuePayload_of_nodup {payloads queued : List IptoWritePayload}
    (h : ((queued ++ payloads).map IptoWritePayload.idempotencyKey).Nodup) :
    payloads.foldl queuePayload queued = queued ++ payloads := by
  induction payloads generalizing queued with
  | nil => rw [List.append_nil, List.foldl_nil]
  | cons payload payloads ih =>
    have hFresh : payload.idempotencyKey ∉ queued.map IptoWritePayload.idempotencyKey := by
      intro hMem
      rw [List.map_append] at h
      exact (List.nodup_append.mp h).2.2 _ hMem _ (List.mem_map_of_mem List.mem_cons_self) rfl
    rw [List.foldl_cons, queuePayload, if_neg hFresh, ih]
    · rw [List.append_assoc, List.singleton_append]
    · rwa [List.append_assoc, List.singleton_append]

theorem length_foldl_queuePayload_le (payloads queued : List IptoWritePayload) :
    (payloads.foldl queuePayload queued).length ≤ queued.length + payloads.length := by
  induction payloads generalizing queued with
  | nil => exact Nat.le_refl _
  | cons payload payloads ih =>
    refine (ih _).trans ?_
    rw [queuePayload]
    split
    · rw [List.length_cons]
      omega
    · rw [List.length_cons, List.length_append, List.length_singleton]
      omega

theorem length_rangePayloads_le (start stop : DataIndividualShardId) (ledger : Ledger) :
    (rangePayloads start stop ledger).length ≤ ledger.length := by
  refine (length_foldl_queuePayload_le _ []).trans ?_
  rw [List.length_nil, Nat.zero_add, List.length_map]
  exact List.length_filter_le _ _

/-- With distinct keys the queue is the records of the range, in the order of the segment. -/
theorem rangePayloads_of_nodup {ledger : Ledger} (h : ledger.keys.Nodup) (start stop : DataIndividualShardId) :
    rangePayloads start stop ledger =
      (ledger.map Prod.fst).filter fun payload => InShardRange start stop payload := by
  have hRows : (rangeRows start stop ledger).map Prod.fst =
      (ledger.map Prod.fst).filter fun payload => InShardRange start stop payload := by
    rw [List.filter_map]
    rfl
  have hKeys : ([] ++ (rangeRows start stop ledger).map Prod.fst).map IptoWritePayload.idempotencyKey =
      (rangeRows start stop ledger).map fun row => row.1.idempotencyKey := by
    rw [List.nil_append, List.map_map]
    rfl
  rw [rangePayloads, foldl_queuePayload_of_nodup, List.nil_append, hRows]
  rw [hKeys]
  exact h.sublist (List.filter_sublist.map _)

/-! ## Offering payloads -/

theorem Queues.nextPending_nil {outbox : MetadataOutbox} (h : Queues [] outbox) : outbox.nextPending = none := by
  rw [MetadataOutbox.nextPending, h.pending]
  rfl

theorem Queues.nextPending_cons {payload : IptoWritePayload} {payloads : List IptoWritePayload}
    {outbox : MetadataOutbox} (h : Queues (payload :: payloads) outbox) :
    ∃ entry, outbox.nextPending = some entry ∧ entry.payload = payload ∧
      outbox.entries[payload.idempotencyKey]? = some entry := by
  obtain ⟨entry, hEntry, hPayload, hStatus⟩ := h.entry payload List.mem_cons_self
  refine ⟨entry, ?_, hPayload, hEntry⟩
  rw [MetadataOutbox.nextPending, h.pending, List.map_cons, List.filterMap_cons, hEntry]
  exact List.find?_cons_of_pos (decide_eq_true hStatus)

theorem Queues.dequeue {payload : IptoWritePayload} {payloads : List IptoWritePayload} {outbox : MetadataOutbox}
    (h : Queues (payload :: payloads) outbox) (next : MetadataOutboxEntry) :
    Queues payloads ⟨outbox.entries.insert payload.idempotencyKey next,
      outbox.pending.filter (· ≠ payload.idempotencyKey)⟩ := by
  have hNodup := h.nodup
  rw [List.map_cons, List.nodup_cons] at hNodup
  refine ⟨?_, hNodup.2, fun other hOther => ?_⟩
  · dsimp only
    rw [h.pending, List.map_cons, List.filter_cons_of_neg (by simp), List.filter_eq_self]
    intro key hKey
    exact decide_eq_true fun hEq => hNodup.1 (hEq ▸ hKey)
  · have hKey : payload.idempotencyKey ≠ other.idempotencyKey := fun hEq =>
      hNodup.1 (hEq ▸ List.mem_map_of_mem hOther)
    dsimp only
    rw [getElem?_insert_ite, if_neg hKey]
    exact h.entry other (List.mem_cons_of_mem payload hOther)

theorem size_insert_of_entry {outbox : MetadataOutbox} {key : IdempotencyKey} {entry : MetadataOutboxEntry}
    (hEntry : outbox.entries[key]? = some entry) (next : MetadataOutboxEntry) :
    (outbox.entries.insert key next).size = outbox.entries.size := by
  have hContains : outbox.entries.contains key = true := by
    rw [Std.ExtTreeMap.contains_eq_isSome_getElem?, hEntry]
    rfl
  rw [Std.ExtTreeMap.size_insert, if_pos hContains]

section Offer

variable {ω : Type} (writer : IptoWriter ω)

/-- The drain as the writer sees it: payload after payload, until the attempts are used up
or a failure is retryable. -/
def offer : Nat → List IptoWritePayload → MetadataOutboxDrainSummary → ω → MetadataOutboxDrainSummary × ω
  | 0, _, summary, remote => (summary, remote)
  | _ + 1, [], summary, remote => (summary, remote)
  | attempts + 1, payload :: payloads, summary, remote =>
    match writer.write remote payload with
    | (.ok (), remote) =>
      offer attempts payloads { summary with
        attempted := summary.attempted + 1
        acknowledged := summary.acknowledged + 1 } remote
    | (.error error, remote) =>
      let summary := { summary with
        attempted := summary.attempted + 1
        failed := summary.failed + 1
        stoppedAfterFailure := error.retryable }
      if error.retryable then (summary, remote) else offer attempts payloads summary remote

theorem drain_queues {payloads : List IptoWritePayload} {outbox : MetadataOutbox} (h : Queues payloads outbox)
    (attempts : Nat) (summary : MetadataOutboxDrainSummary) (remote : ω) :
    ∃ drained, drain (deliverNextPending writer) attempts summary outbox remote =
        ((offer writer attempts payloads summary remote).1, drained,
          (offer writer attempts payloads summary remote).2) ∧
      drained.entries.size = outbox.entries.size := by
  induction attempts generalizing payloads outbox summary remote with
  | zero => exact ⟨outbox, rfl, rfl⟩
  | succ attempts ih =>
    cases payloads with
    | nil =>
      rw [drain, deliverNextPending, h.nextPending_nil, offer]
      exact ⟨outbox, rfl, rfl⟩
    | cons payload payloads =>
      obtain ⟨entry, hNext, rfl, hEntry⟩ := h.nextPending_cons
      rw [drain, deliverNextPending, hNext, offer, deliver]
      rcases hWrite : writer.write remote entry.payload with ⟨answer | done, next⟩
      · simp only [MetadataOutbox.failWithRetryability, hEntry]
        split
        · exact ⟨_, rfl, size_insert_of_entry hEntry _⟩
        · obtain ⟨drained, hDrained, hSize⟩ := ih (h.dequeue _) _ next
          exact ⟨drained, hDrained, hSize.trans (size_insert_of_entry hEntry _)⟩
      · simp only [MetadataOutbox.acknowledge, hEntry]
        obtain ⟨drained, hDrained, hSize⟩ := ih (h.dequeue _) _ next
        exact ⟨drained, hDrained, hSize.trans (size_insert_of_entry hEntry _)⟩

/-- One range: the payloads found, and what offering them comes to. -/
theorem rebalanceShardRangeTo_eq (scan : SegmentScan) (start stop : DataIndividualShardId) (remote : ω)
    (maxAttempts : Nat) :
    rebalanceShardRangeTo writer scan start stop remote maxAttempts =
      match segmentLedger scan with
      | .error error => (.error error, remote)
      | .ok ledger =>
        let payloads := rangePayloads start stop ledger
        let (drain, remote) := offer writer maxAttempts payloads ⟨0, 0, 0, false⟩ remote
        (.ok ⟨payloads.length, drain.attempted, drain.acknowledged, drain.failed⟩, remote) := by
  rw [rebalanceShardRangeTo, replayMetadataOutboxSegmentForShardRange_eq]
  cases segmentLedger scan with
  | error error => rfl
  | ok ledger =>
    have hQueues := queuesAll_rows (rangeRows start stop ledger)
    obtain ⟨drained, hDrained, hSize⟩ := drain_queues writer hQueues.toQueues maxAttempts ⟨0, 0, 0, false⟩ remote
    simp only [Except.map, drainPendingOutbox, hDrained, hSize, hQueues.size]
    rfl

/-! ## What the writer answers -/

/-- The writer takes these payloads one after another. -/
def acceptAll (remote : ω) : List IptoWritePayload → Option ω
  | [] => some remote
  | payload :: payloads =>
    match writer.write remote payload with
    | (.ok (), next) => acceptAll next payloads
    | (.error _, _) => none

theorem offer_of_acceptAll {payloads : List IptoWritePayload} {remote next : ω}
    (h : acceptAll writer remote payloads = some next) {attempts : Nat} (hAttempts : payloads.length ≤ attempts)
    (summary : MetadataOutboxDrainSummary) :
    offer writer attempts payloads summary remote =
      ({ summary with
        attempted := summary.attempted + payloads.length
        acknowledged := summary.acknowledged + payloads.length }, next) := by
  induction payloads generalizing attempts summary remote with
  | nil =>
    cases h
    cases attempts <;> rfl
  | cons payload payloads ih =>
    obtain ⟨attempts, rfl⟩ := Nat.exists_eq_add_of_le' (Nat.one_le_iff_ne_zero.mpr (Nat.ne_zero_of_lt hAttempts))
    rw [acceptAll] at h
    rw [offer]
    rcases hWrite : writer.write remote payload with ⟨answer | done, after⟩
    · rw [hWrite] at h
      cases h
    · rw [hWrite] at h
      dsimp only
      rw [ih h (Nat.le_of_succ_le_succ hAttempts), List.length_cons, Nat.add_right_comm, Nat.add_assoc,
        Nat.add_right_comm summary.acknowledged, Nat.add_assoc summary.acknowledged]

theorem offer_acknowledged_le (attempts : Nat) (payloads : List IptoWritePayload)
    (summary : MetadataOutboxDrainSummary) (remote : ω) :
    (offer writer attempts payloads summary remote).1.acknowledged ≤
      summary.acknowledged + min attempts payloads.length := by
  induction attempts generalizing payloads summary remote with
  | zero => exact Nat.le_add_right _ _
  | succ attempts ih =>
    cases payloads with
    | nil => exact Nat.le_add_right _ _
    | cons payload payloads =>
      rw [offer, List.length_cons]
      rcases writer.write remote payload with ⟨answer | done, next⟩
      · dsimp only
        split
        · exact Nat.le_add_right _ _
        · refine (ih payloads _ next).trans ?_
          dsimp only
          omega
      · refine (ih payloads _ next).trans ?_
        dsimp only
        omega

/-- All of the payloads are acknowledged only if the writer takes each, and there are attempts enough. -/
theorem acceptAll_of_offer {payloads : List IptoWritePayload} {attempts : Nat}
    {summary : MetadataOutboxDrainSummary} {remote : ω}
    (h : (offer writer attempts payloads summary remote).1.acknowledged =
      summary.acknowledged + payloads.length) :
    payloads.length ≤ attempts ∧ ∃ next, acceptAll writer remote payloads = some next := by
  induction payloads generalizing attempts summary remote with
  | nil => exact ⟨Nat.zero_le _, remote, rfl⟩
  | cons payload payloads ih =>
    cases attempts with
    | zero => simp [offer] at h
    | succ attempts =>
      rw [offer] at h
      rw [acceptAll]
      rcases hWrite : writer.write remote payload with ⟨answer | done, next⟩
      · rw [hWrite] at h
        dsimp only [List.length_cons] at h
        split at h
        · exact absurd h (by dsimp only; omega)
        · have hLe := offer_acknowledged_le writer attempts payloads { summary with
            attempted := summary.attempted + 1
            failed := summary.failed + 1
            stoppedAfterFailure := answer.retryable } next
          dsimp only at hLe
          omega
      · rw [hWrite, List.length_cons] at h
        have hRest := ih (h.trans (by omega : _ = summary.acknowledged + 1 + payloads.length))
        exact ⟨Nat.succ_le_succ hRest.1, hRest.2⟩

/-! ## The calls of the writer -/

theorem recording_write (remote : ω × List WriterCall) (payload : IptoWritePayload) :
    writer.recording.write remote payload = ((writer.write remote.1 payload).1, (writer.write remote.1 payload).2,
      remote.2 ++ [(payload, (writer.write remote.1 payload).1)]) := rfl

theorem calls_offer (attempts : Nat) (payloads : List IptoWritePayload) (summary : MetadataOutboxDrainSummary)
    (remote : ω × List WriterCall) {call : WriterCall}
    (h : call ∈ (offer writer.recording attempts payloads summary remote).2.2) :
    call ∈ remote.2 ∨ call.1 ∈ payloads := by
  induction attempts generalizing payloads summary remote with
  | zero => exact .inl h
  | succ attempts ih =>
    cases payloads with
    | nil => exact .inl h
    | cons payload payloads =>
      have hCalled : ∀ answer, call ∈ remote.2 ++ [(payload, answer)] →
          call ∈ remote.2 ∨ call.1 ∈ payload :: payloads := by
        intro answer hCall
        rcases List.mem_append.mp hCall with hOld | hNew
        · exact .inl hOld
        · rw [List.mem_singleton.mp hNew]
          exact .inr List.mem_cons_self
      have hNext : ∀ answer, call ∈ remote.2 ++ [(payload, answer)] ∨ call.1 ∈ payloads →
          call ∈ remote.2 ∨ call.1 ∈ payload :: payloads := by
        rintro answer (hCall | hRest)
        · exact hCalled answer hCall
        · exact .inr (List.mem_cons_of_mem payload hRest)
      rw [offer, recording_write] at h
      rcases hWrite : writer.write remote.1 payload with ⟨answer | done, next⟩
      · rw [hWrite] at h
        dsimp only at h
        split at h
        · exact hCalled _ h
        · exact hNext _ (ih payloads _ _ h)
      · rw [hWrite] at h
        exact hNext _ (ih payloads _ _ h)

/-- Failures, if any, are permanent, so that a drain goes on to the end. -/
def NeverRetryable : Prop :=
  ∀ remote payload error, (writer.write remote payload).1 = .error error → error.retryable = false

theorem neverRetryable_of_ok {writer : IptoWriter ω}
    (hOk : ∀ remote payload, (writer.write remote payload).1 = .ok ()) : NeverRetryable writer := by
  intro remote payload error hError
  rw [hOk] at hError
  cases hError

theorem calls_offer_all {writer : IptoWriter ω} (hWriter : NeverRetryable writer) {payloads : List IptoWritePayload}
    {attempts : Nat} (hAttempts : payloads.length ≤ attempts) (summary : MetadataOutboxDrainSummary)
    (remote : ω × List WriterCall) :
    (offer writer.recording attempts payloads summary remote).2.2.map Prod.fst =
      remote.2.map Prod.fst ++ payloads := by
  induction payloads generalizing attempts summary remote with
  | nil => cases attempts <;> simp [offer]
  | cons payload payloads ih =>
    obtain ⟨attempts, rfl⟩ := Nat.exists_eq_add_of_le' (Nat.one_le_iff_ne_zero.mpr (Nat.ne_zero_of_lt hAttempts))
    have hRest := ih (Nat.le_of_succ_le_succ hAttempts)
    have hPermanent := hWriter remote.1 payload
    rw [offer, recording_write]
    rcases hWrite : writer.write remote.1 payload with ⟨answer | done, next⟩
    · rw [hWrite] at hPermanent
      dsimp only
      rw [if_neg (by simp [hPermanent answer rfl]), hRest]
      simp
    · dsimp only
      rw [hRest]
      simp

theorem acceptAll_of_ok {writer : IptoWriter ω} (hOk : ∀ remote payload, (writer.write remote payload).1 = .ok ())
    (payloads : List IptoWritePayload) (remote : ω) : ∃ next, acceptAll writer remote payloads = some next := by
  induction payloads generalizing remote with
  | nil => exact ⟨remote, rfl⟩
  | cons payload payloads ih =>
    obtain ⟨next, hNext⟩ : ∃ next, writer.write remote payload = (.ok (), next) :=
      ⟨_, Prod.ext (hOk remote payload) rfl⟩
    rw [acceptAll, hNext]
    exact ih next

end Offer

end Vannak.Ipto
