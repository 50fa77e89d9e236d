import Vannak.Ipto.CheckpointRecovery

/-!
# Draining a target to the end

With a writer that accepts everything and enough attempts, requeueing and draining a target
acknowledges its waiting entries and leaves every other entry as it was. The queue of an
outbox is in step with its entries in every state its operations lead to.
-/

namespace Vannak.Ipto

open Foundation Storage

set_option autoImplicit false

/-! ## Outboxes in step with their queue -/

/-- Every entry is under its own key, and the queue is the pending entries, each once. -/
def MetadataOutbox.Kept (outbox : MetadataOutbox) : Prop := ∃ ledger calls, Follows ledger calls outbox

namespace MetadataOutbox.Kept

variable {outbox : MetadataOutbox}

theorem new : MetadataOutbox.new.Kept := ⟨[], [], Follows.new []⟩

theorem key_of_entry (h : outbox.Kept) {key : IdempotencyKey} {entry : MetadataOutboxEntry}
    (hEntry : outbox.entries[key]? = some entry) : entry.payload.idempotencyKey = key := by
  obtain ⟨ledger, calls, hFollows⟩ := h
  exact hFollows.key_of_entry hEntry

theorem enqueueWithOffset (h : outbox.Kept) (payload : IptoWritePayload) (offset : Nat) :
    (outbox.enqueueWithOffset payload (some offset)).2.Kept := by
  obtain ⟨ledger, calls, hFollows⟩ := h
  by_cases hKnown : payload.idempotencyKey ∈ ledger.keys
  · rw [MetadataOutbox.enqueueWithOffset, if_pos ((hFollows.contains_iff _).mpr hKnown)]
    exact ⟨ledger, calls, hFollows⟩
  · exact ⟨_, calls, (hFollows.enqueue hKnown offset).2⟩

theorem acknowledge (h : outbox.Kept) (key : IdempotencyKey) : (outbox.acknowledge key).2.Kept := by
  cases hEntry : outbox.entries[key]? with
  | none =>
    rw [MetadataOutbox.acknowledge, hEntry]
    exact h
  | some entry =>
    obtain ⟨ledger, calls, hFollows⟩ := h
    have hCalled := hFollows.mono (List.subset_append_left calls [(entry.payload, .ok ())])
    exact ⟨ledger, _, hCalled.acknowledge hEntry (List.mem_append_right calls (List.mem_singleton_self _))⟩

theorem failWithRetryability (h : outbox.Kept) (key : IdempotencyKey) (error : String) (retryable : Bool) :
    (outbox.failWithRetryability key error retryable).2.Kept := by
  obtain ⟨ledger, calls, hFollows⟩ := h
  exact ⟨ledger, calls, hFollows.failWithRetryability key error retryable⟩

theorem retryFailed (h : outbox.Kept) (key : IdempotencyKey) : (outbox.retryFailed key).2.Kept := by
  obtain ⟨ledger, calls, hFollows⟩ := h
  exact ⟨ledger, calls, hFollows.retryFailed key⟩

theorem retryFailedForTarget (h : outbox.Kept) (target : IptoInstanceId) :
    (outbox.retryFailedForTarget target).2.Kept := by
  obtain ⟨ledger, calls, hFollows⟩ := h
  exact ⟨ledger, calls, hFollows.retryFailedForTarget target⟩

theorem deliver {ω : Type} (writer : IptoWriter ω) (next : Option MetadataOutboxEntry) (h : outbox.Kept)
    (remote : ω) : (Ipto.deliver writer next outbox remote).2.1.Kept := by
  cases next with
  | none => exact h
  | some entry =>
    rw [Ipto.deliver]
    split
    · exact h.acknowledge _
    · exact h.failWithRetryability _ _ _

theorem drain {ω : Type} {deliver : MetadataOutbox → ω → MetadataOutboxDeliveryResult × MetadataOutbox × ω}
    (hDeliver : ∀ outbox remote, outbox.Kept → (deliver outbox remote).2.1.Kept) (attempts : Nat)
    (summary : MetadataOutboxDrainSummary) (h : outbox.Kept) (remote : ω) :
    (Ipto.drain deliver attempts summary outbox remote).2.1.Kept :=
  @drain_invariant _ deliver (fun outbox _ => outbox.Kept) hDeliver attempts summary outbox remote h

theorem foldlM_replayRecord {records : List SegmentRecord} {replay final : MetadataOutboxReplay}
    (h : replay.outbox.Kept) (hFinal : records.foldlM replayRecord replay = .ok final) : final.outbox.Kept := by
  induction records generalizing replay with
  | nil =>
    cases hFinal
    exact h
  | cons record records ih =>
    rw [List.foldlM_cons] at hFinal
    obtain ⟨next, hNext, hRest⟩ := ok_of_bind hFinal
    refine ih ?_ hRest
    rw [replayRecord] at hNext
    split at hNext
    · cases hNext
      exact h
    · split at hNext
      · cases hNext
      · cases hNext
        exact h.enqueueWithOffset _ record.offset

theorem recoverAfter {file : Bytes} {path : PathBuf} {segmentId : SegmentId} {nodeId : NodeId}
    {checkpointOffset : Option Nat} {durable : SegmentBackedMetadataOutbox} {summary : MetadataOutboxReplaySummary}
    (h : SegmentBackedMetadataOutbox.recoverAfter file path segmentId nodeId checkpointOffset =
      .ok (durable, summary)) : durable.outbox.Kept := by
  obtain ⟨replay, hReplay, hRest⟩ := ok_of_bind h
  obtain ⟨writer, hWriter, hPair⟩ := ok_of_bind hRest
  obtain ⟨stats, hStats, -⟩ := ok_of_bind (ok_of_mapError hWriter)
  cases hPair
  obtain ⟨payloads, hSized, rfl⟩ := segment_of_scanSegment hStats
  rw [replayMetadataOutboxSegmentAfter_segmentBytes hSized] at hReplay
  exact foldlM_replayRecord MetadataOutbox.Kept.new hReplay

theorem enqueueDurableOn {durable : SegmentBackedMetadataOutbox} (h : durable.outbox.Kept) (disk : DiskWrites)
    (payload : IptoWritePayload) : (durable.enqueueDurableOn disk payload).2.outbox.Kept := by
  rw [SegmentBackedMetadataOutbox.enqueueDurableOn]
  split
  · exact h
  · split
    · exact h
    · exact h.enqueueWithOffset payload _

end MetadataOutbox.Kept

theorem kept_checkpointStep {ω : Type} (writer : IptoWriter ω) {system : OutboxSystem ω}
    (h : system.durable.outbox.Kept) (step : CheckpointStep) :
    (checkpointStep writer system step).durable.outbox.Kept := by
  cases step with
  | outbox step =>
    cases step with
    | enqueueDurable payload => exact MetadataOutbox.Kept.enqueueDurableOn h .healthy payload
    | deliverNextPending => exact h.deliver _ _ _
    | deliverNextPendingForTarget target => exact h.deliver _ _ _
    | drainPendingOutbox maxAttempts =>
      exact h.drain (fun _ _ hKept => hKept.deliver _ _ _) maxAttempts _ system.remote
    | drainPendingOutboxForTarget target maxAttempts =>
      exact h.drain (fun _ _ hKept => hKept.deliver _ _ _) maxAttempts _ system.remote
    | retryFailed key => exact h.retryFailed key
    | retryFailedForTarget target => exact h.retryFailedForTarget target
    | crashAndRecover segmentId nodeId =>
      rw [checkpointStep, outboxStep]
      split
      · exact h
      · rename_i hRecover
        exact MetadataOutbox.Kept.recoverAfter hRecover
  | enqueueDurableOn disk payload => exact MetadataOutbox.Kept.enqueueDurableOn h disk payload
  | acknowledge key => exact h.acknowledge key
  | fail key error => exact h.failWithRetryability key error false
  | recoverAfter segmentId nodeId checkpointOffset =>
    rw [checkpointStep]
    split
    · exact h
    · rename_i hRecover
      exact MetadataOutbox.Kept.recoverAfter hRecover

/-- The outbox of a segment after any steps of its callers. -/
def MetadataOutbox.Reachable (outbox : MetadataOutbox) : Prop :=
  ∃ (ω : Type) (writer : IptoWriter ω) (remote : ω) (path : PathBuf) (segmentId : SegmentId) (nodeId : NodeId)
    (durable : SegmentBackedMetadataOutbox) (steps : List CheckpointStep),
    SegmentBackedMetadataOutbox.create none path segmentId nodeId = .ok durable ∧
      (steps.foldl (checkpointStep writer) ⟨durable, remote, []⟩).durable.outbox = outbox

theorem MetadataOutbox.Reachable.kept {outbox : MetadataOutbox} (h : outbox.Reachable) : outbox.Kept := by
  obtain ⟨ω, writer, remote, path, segmentId, nodeId, durable, steps, hCreate, rfl⟩ := h
  obtain ⟨segment, -, hMade⟩ := ok_of_bind hCreate
  cases hMade
  exact List.foldlRecOn steps _ (motive := fun system : OutboxSystem ω => system.durable.outbox.Kept)
    MetadataOutbox.Kept.new fun system hSystem step _ => kept_checkpointStep writer hSystem step

/-! ## Entry by entry -/

/-- `Pending`, or `Failed` and retryable. -/
def MetadataOutboxEntry.Waiting (entry : MetadataOutboxEntry) : Prop :=
  entry.status = .pending ∨ entry.status = .failed ∧ entry.retryable = true

instance (entry : MetadataOutboxEntry) : Decidable entry.Waiting := inferInstanceAs (Decidable (_ ∨ _))

def requeue (entry : MetadataOutboxEntry) : MetadataOutboxEntry :=
  if entry.status = .failed then { entry with status := .pending } else entry

def requeueFor (target : IptoInstanceId) (entry : MetadataOutboxEntry) : MetadataOutboxEntry :=
  if entry.status = .failed ∧ entry.retryable ∧ entry.payload.target = target then requeue entry else entry

def acknowledgePending (target : IptoInstanceId) (entry : MetadataOutboxEntry) : MetadataOutboxEntry :=
  if entry.status = .pending ∧ entry.payload.target = target then { entry with status := .acknowledged } else entry

/-- What serving these targets makes of an entry. -/
def serveEntry (targets : List IptoInstanceId) (entry : MetadataOutboxEntry) : MetadataOutboxEntry :=
  if entry.payload.target ∈ targets ∧ entry.Waiting then { entry with status := .acknowledged } else entry

/-- The next outbox has the same keys, with every entry changed like this. -/
def MapsEntries (change : MetadataOutboxEntry → MetadataOutboxEntry) (outbox next : MetadataOutbox) : Prop :=
  ∀ key : IdempotencyKey, next.entries[key]? = (outbox.entries[key]?).map change

theorem MapsEntries.trans {first second : MetadataOutboxEntry → MetadataOutboxEntry}
    {outbox middle next : MetadataOutbox} (h : MapsEntries first outbox middle)
    (hNext : MapsEntries second middle next) : MapsEntries (second ∘ first) outbox next := by
  intro key
  rw [hNext, h, Option.map_map]

theorem MapsEntries.of_eq {change other : MetadataOutboxEntry → MetadataOutboxEntry} {outbox next : MetadataOutbox}
    (h : MapsEntries change outbox next)
    (hEq : ∀ (key : IdempotencyKey) (entry : MetadataOutboxEntry), outbox.entries[key]? = some entry →
      change entry = other entry) :
    MapsEntries other outbox next := by
  intro key
  rw [h]
  cases hEntry : outbox.entries[key]? with
  | none => rfl
  | some entry => rw [Option.map_some, Option.map_some, hEq key entry hEntry]

theorem mapsEntries_refl (outbox : MetadataOutbox) : MapsEntries id outbox outbox := by
  intro key
  rw [Option.map_id]
  rfl

theorem serveEntry_nil (entry : MetadataOutboxEntry) : serveEntry [] entry = entry := by simp [serveEntry]

theorem acknowledgePending_requeueFor (target : IptoInstanceId) (entry : MetadataOutboxEntry) :
    acknowledgePending target (requeueFor target entry) = serveEntry [target] entry := by
  obtain ⟨payload, status, recordOffset, retryCount, lastError, retryable⟩ := entry
  cases status with
  | pending => simp [acknowledgePending, requeueFor, serveEntry, MetadataOutboxEntry.Waiting]
  | acknowledged => simp [acknowledgePending, requeueFor, serveEntry, MetadataOutboxEntry.Waiting]
  | failed =>
    by_cases hRetry : retryable = true ∧ payload.target = target
    · simp [acknowledgePending, requeueFor, requeue, serveEntry, MetadataOutboxEntry.Waiting, hRetry]
    · have hServe : ¬(payload.target = target ∧ retryable = true) := fun h => hRetry ⟨h.2, h.1⟩
      simp [acknowledgePending, requeueFor, serveEntry, MetadataOutboxEntry.Waiting, hRetry, hServe]

theorem serveEntry_append (first : List IptoInstanceId) (target : IptoInstanceId) (entry : MetadataOutboxEntry) :
    serveEntry [target] (serveEntry first entry) = serveEntry (first ++ [target]) entry := by
  by_cases hFirst : entry.payload.target ∈ first ∧ entry.Waiting
  · have hAll : entry.payload.target ∈ first ++ [target] ∧ entry.Waiting :=
      ⟨List.mem_append_left _ hFirst.1, hFirst.2⟩
    rw [serveEntry, serveEntry, if_pos hFirst, serveEntry, if_pos hAll, if_neg]
    simp [MetadataOutboxEntry.Waiting]
  · have hStep : serveEntry first entry = entry := by rw [serveEntry, if_neg hFirst]
    rw [hStep, serveEntry, serveEntry]
    refine if_congr ?_ rfl rfl
    rw [List.mem_append]
    constructor
    · exact fun h => ⟨.inr h.1, h.2⟩
    · rintro ⟨hMem | hMem, hWaiting⟩
      · exact absurd ⟨hMem, hWaiting⟩ hFirst
      · exact ⟨hMem, hWaiting⟩

/-! ## Requeueing -/

theorem entries_retryFailed (outbox : MetadataOutbox) (key other : IdempotencyKey) :
    (outbox.retryFailed key).2.entries[other]? =
      if key = other then (outbox.entries[other]?).map requeue else outbox.entries[other]? := by
  rw [MetadataOutbox.retryFailed]
  split
  · rename_i hNone
    split
    · rename_i hKey
      rw [← hKey, hNone]
      rfl
    · rfl
  · rename_i entry hEntry
    split
    · rename_i hStatus
      split
      · rename_i hKey
        rw [← hKey, hEntry, Option.map_some, requeue, if_neg hStatus]
      · rfl
    · rename_i hStatus
      dsimp only
      rw [getElem?_insert_ite]
      split
      · rename_i hKey
        rw [← hKey, hEntry, Option.map_some, requeue, if_pos (not_not.mp hStatus)]
      · rfl

theorem entries_foldl_retryFailed (keys : List IdempotencyKey) (outbox : MetadataOutbox) (key : IdempotencyKey) :
    (keys.foldl (fun outbox key => (outbox.retryFailed key).2) outbox).entries[key]? =
      if key ∈ keys then (outbox.entries[key]?).map requeue else outbox.entries[key]? := by
  induction keys generalizing outbox with
  | nil => rfl
  | cons first keys ih =>
    have hTwice : ∀ entry, requeue (requeue entry) = requeue entry := by
      intro entry
      simp only [requeue]
      split
      · simp
      · rfl
    rw [List.foldl_cons, ih, entries_retryFailed]
    by_cases hFirst : first = key
    · subst hFirst
      rw [if_pos rfl, if_pos List.mem_cons_self]
      split
      · rw [Option.map_map]
        exact congrArg (fun change => Option.map change _) (funext hTwice)
      · rfl
    · rw [if_neg hFirst]
      refine if_congr ?_ rfl rfl
      rw [List.mem_cons]
      exact ⟨.inr, fun h => h.resolve_left (Ne.symm hFirst)⟩

theorem mapsEntries_retryFailedForTarget (outbox : MetadataOutbox) (target : IptoInstanceId) :
    MapsEntries (requeueFor target) outbox (outbox.retryFailedForTarget target).2 := by
  intro key
  rw [MetadataOutbox.retryFailedForTarget, entries_foldl_retryFailed]
  cases hEntry : outbox.entries[key]? with
  | none => simp
  | some entry =>
    rw [Option.map_some, Option.map_some, requeueFor]
    by_cases hRetry : entry.status = .failed ∧ entry.retryable ∧ entry.payload.target = target
    · rw [if_pos hRetry, if_pos]
      exact List.mem_map.mpr ⟨(key, entry), List.mem_filter.mpr
        ⟨Std.ExtTreeMap.mem_toList_iff_getElem?_eq_some.mpr hEntry, decide_eq_true hRetry⟩, rfl⟩
    · rw [if_neg hRetry, if_neg]
      intro hKey
      obtain ⟨⟨other, found⟩, hFound, rfl⟩ := List.mem_map.mp hKey
      obtain ⟨hBinding, hHolds⟩ := List.mem_filter.mp hFound
      have hSame := Std.ExtTreeMap.mem_toList_iff_getElem?_eq_some.mp hBinding
      rw [hEntry] at hSame
      cases hSame
      exact hRetry (of_decide_eq_true hHolds)

/-! ## Draining -/

theorem MetadataOutbox.Kept.pending_length_le {outbox next : MetadataOutbox} (h : next.Kept)
    (hKeys : ∀ key, key ∈ next.entries → key ∈ outbox.entries) : next.pending.length ≤ outbox.entries.size := by
  obtain ⟨ledger, calls, hFollows⟩ := h
  have hSubset : next.pending ⊆ outbox.entries.keys := by
    intro key hKey
    have hStatus := (hFollows.mem_pending key).mp hKey
    rw [MetadataOutbox.statusOf, Option.map_eq_some_iff] at hStatus
    obtain ⟨entry, hEntry, -⟩ := hStatus
    rw [Std.ExtTreeMap.mem_keys]
    refine hKeys key ?_
    rw [Std.ExtTreeMap.mem_iff_isSome_getElem?, hEntry]
    rfl
  rw [← Std.ExtTreeMap.length_keys]
  exact (hFollows.nodup.subperm hSubset).length_le

section Accepting

variable {ω : Type} {writer : IptoWriter ω} {target : IptoInstanceId} {outbox : MetadataOutbox}

theorem nextPendingForTarget_eq_none (h : outbox.Kept) (hNone : outbox.nextPendingForTarget target = none) :
    MapsEntries (acknowledgePending target) outbox outbox := by
  refine (mapsEntries_refl outbox).of_eq fun key entry hEntry => ?_
  rw [acknowledgePending, if_neg]
  · rfl
  rintro ⟨hPending, hTarget⟩
  obtain ⟨ledger, calls, hFollows⟩ := h
  have hQueued : key ∈ outbox.pending := by
    rw [hFollows.mem_pending, MetadataOutbox.statusOf, hEntry, Option.map_some, hPending]
  have hFound := List.find?_eq_none.mp hNone entry (List.mem_filterMap.mpr ⟨key, hQueued, hEntry⟩)
  exact hFound (decide_eq_true ⟨hPending, hTarget⟩)

theorem nextPendingForTarget_eq_some (h : outbox.Kept) {entry : MetadataOutboxEntry}
    (hSome : outbox.nextPendingForTarget target = some entry) :
    entry.status = .pending ∧ entry.payload.target = target ∧
      entry.payload.idempotencyKey ∈ outbox.pending ∧
      outbox.entries[entry.payload.idempotencyKey]? = some entry := by
  rw [MetadataOutbox.nextPendingForTarget] at hSome
  have hAccepts := List.find?_some hSome
  obtain ⟨hPending, hTarget⟩ := of_decide_eq_true hAccepts
  obtain ⟨ledger, calls, hFollows⟩ := h
  obtain ⟨hQueued, hEntry, -⟩ := hFollows.inStep.of_find hSome
  exact ⟨hPending, hTarget, hQueued, hEntry⟩

/-- Every round takes one key off the queue, so that as many attempts as it is long are enough. -/
theorem mapsEntries_drain (hOk : ∀ remote payload, (writer.write remote payload).1 = .ok ()) (attempts : Nat)
    (h : outbox.Kept) (hLength : outbox.pending.length ≤ attempts) (summary : MetadataOutboxDrainSummary)
    (remote : ω) :
    MapsEntries (acknowledgePending target) outbox
      (drain (deliverNextPendingForTarget writer target) attempts summary outbox remote).2.1 := by
  induction attempts generalizing outbox summary remote with
  | zero =>
    refine nextPendingForTarget_eq_none h ?_
    rw [MetadataOutbox.nextPendingForTarget, List.eq_nil_of_length_eq_zero (Nat.le_zero.mp hLength)]
    rfl
  | succ attempts ih =>
    rw [drain, deliverNextPendingForTarget]
    cases hNext : outbox.nextPendingForTarget target with
    | none => exact nextPendingForTarget_eq_none h hNext
    | some entry =>
      obtain ⟨hPending, hTarget, hQueued, hEntry⟩ := nextPendingForTarget_eq_some h hNext
      obtain ⟨answer, hAnswer⟩ : ∃ next, writer.write remote entry.payload = (.ok (), next) :=
        ⟨_, Prod.ext (hOk remote entry.payload) rfl⟩
      simp only [deliver, hAnswer]
      have hShorter : (outbox.acknowledge entry.payload.idempotencyKey).2.pending.length ≤ attempts := by
        have hLess : (outbox.pending.filter (· ≠ entry.payload.idempotencyKey)).length < outbox.pending.length :=
          List.length_filter_lt_length_iff_exists.mpr ⟨_, hQueued, by simp⟩
        rw [MetadataOutbox.acknowledge, hEntry]
        exact Nat.le_of_lt_succ (hLess.trans_le hLength)
      refine fun key => (ih (h.acknowledge _) hShorter _ answer key).trans ?_
      rw [MetadataOutbox.acknowledge, hEntry]
      dsimp only
      rw [getElem?_insert_ite]
      split
      · rename_i hKey
        subst hKey
        rw [hEntry]
        simp [acknowledgePending, hPending, hTarget]
      · rfl

theorem mapsEntries_retry_drain (hOk : ∀ remote payload, (writer.write remote payload).1 = .ok ())
    (h : outbox.Kept) {attempts : Nat} (hAttempts : outbox.entries.size ≤ attempts) (remote : ω) :
    MapsEntries (serveEntry [target]) outbox (drainPendingOutboxForTarget writer target
      (outbox.retryFailedForTarget target).2 remote attempts).2.1 := by
  have hRetried := mapsEntries_retryFailedForTarget outbox target
  have hLength : (outbox.retryFailedForTarget target).2.pending.length ≤ attempts := by
    refine ((h.retryFailedForTarget target).pending_length_le fun key hKey => ?_).trans hAttempts
    rw [Std.ExtTreeMap.mem_iff_isSome_getElem?] at hKey ⊢
    rwa [hRetried, Option.isSome_map] at hKey
  have hDrained := @mapsEntries_drain ω writer target _ hOk attempts (h.retryFailedForTarget target) hLength
    ⟨0, 0, 0, false⟩ remote
  exact (hRetried.trans hDrained).of_eq fun key entry _ => acknowledgePending_requeueFor target entry

end Accepting

end Vannak.Ipto
