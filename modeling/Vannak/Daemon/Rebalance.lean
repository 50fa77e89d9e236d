import Vannak.Ipto.Rebalance
import Vannak.Ipto.RepoWriter
import Vannak.Daemon.PlacementChange

/-!
# Rebalancing after a placement change

`rebalance_after_placement_change` of `daemon.rs` replays the segment once for every moved
range. The ranges are disjoint and hold the moved shards and no others, so that every record of
a moved shard is offered once; what is offered is the record as it was stored, with the target
it had then.
-/

namespace Vannak.Daemon

open Foundation Storage Cluster Ipto

set_option autoImplicit false

structure RebalanceOutcome where
  placementChange : PlacementChange
  drainSummary : MetadataOutboxRebalanceSummary
deriving DecidableEq, Repr

section Rebalance

variable {ω : Type} (writer : IptoWriter ω) (scan : MovedRange → SegmentScan) (maxAttempts : Nat)

/-- The loop over the moved ranges. The segment is scanned anew for each of them; the targets of
the range are not used. -/
def rebalanceRanges (change : PlacementChange) :
    List MovedRange → ω → Except MetadataOutboxStorageError (List RebalanceOutcome) × ω
  | [], remote => (.ok [], remote)
  | range :: ranges, remote =>
    match rebalanceShardRangeTo writer (scan range) range.first range.last remote maxAttempts with
    | (.error error, remote) => (.error error, remote)
    | (.ok summary, remote) =>
      match rebalanceRanges change ranges remote with
      | (.error error, remote) => (.error error, remote)
      | (.ok outcomes, remote) => (.ok (⟨change, summary⟩ :: outcomes), remote)

def rebalanceAfterPlacementChange (change : PlacementChange) (remote : ω) :
    Except MetadataOutboxStorageError (List RebalanceOutcome) × ω :=
  rebalanceRanges writer scan maxAttempts change change.movedRanges remote

end Rebalance

/-- The payloads offered for a range of a segment with these records. -/
def payloadsOf (ledger : Ledger) (range : MovedRange) : List IptoWritePayload :=
  rangePayloads range.first range.last ledger

section Calls

variable {ω : Type} {writer : IptoWriter ω} {file : Bytes} {ledger : Ledger} {maxAttempts : Nat}

/-- Whatever the writer answers, it is offered nothing but payloads of the ranges. -/
theorem calls_rebalanceRanges (hLedger : segmentLedger (.ok file) = .ok ledger) (change : PlacementChange)
    (ranges : List MovedRange) (remote : ω × List WriterCall) {call : WriterCall}
    (h : call ∈ (rebalanceRanges writer.recording (fun _ => .ok file) maxAttempts change ranges remote).2.2) :
    call ∈ remote.2 ∨ ∃ range ∈ ranges, call.1 ∈ payloadsOf ledger range := by
  induction ranges generalizing remote with
  | nil => exact .inl h
  | cons range ranges ih =>
    have hFirst : ∀ found : WriterCall,
        found ∈ (offer writer.recording maxAttempts (payloadsOf ledger range) ⟨0, 0, 0, false⟩ remote).2.2 →
          found ∈ remote.2 ∨ found.1 ∈ payloadsOf ledger range :=
      fun found => calls_offer writer maxAttempts _ _ remote
    rw [rebalanceRanges, rebalanceShardRangeTo_eq, hLedger] at h
    dsimp only at h
    have hRest : call ∈ (rebalanceRanges writer.recording (fun _ => .ok file) maxAttempts change ranges
        (offer writer.recording maxAttempts (payloadsOf ledger range) ⟨0, 0, 0, false⟩ remote).2).2.2 := by
      split at h
      · rename_i hResult
        rw [payloadsOf, hResult]
        exact h
      · rename_i hResult
        rw [payloadsOf, hResult]
        exact h
    rcases ih _ hRest with hEarlier | ⟨later, hLater, hPayload⟩
    · rcases hFirst call hEarlier with hBefore | hOffered
      · exact .inl hBefore
      · exact .inr ⟨range, List.mem_cons_self, hOffered⟩
    · exact .inr ⟨later, List.mem_cons_of_mem range hLater, hPayload⟩

/-- Without a retryable failure, and with attempts enough, all payloads of all ranges are offered. -/
theorem calls_rebalanceRanges_all (hLedger : segmentLedger (.ok file) = .ok ledger)
    (hWriter : NeverRetryable writer) (hAttempts : ledger.length ≤ maxAttempts) (change : PlacementChange)
    (ranges : List MovedRange) (remote : ω × List WriterCall) :
    (rebalanceRanges writer.recording (fun _ => .ok file) maxAttempts change ranges remote).2.2.map Prod.fst =
      remote.2.map Prod.fst ++ ranges.flatMap (payloadsOf ledger) := by
  induction ranges generalizing remote with
  | nil =>
    rw [List.flatMap_nil, List.append_nil]
    rfl
  | cons range ranges ih =>
    have hOffered := calls_offer_all hWriter ((length_rangePayloads_le range.first range.last ledger).trans hAttempts)
      ⟨0, 0, 0, false⟩ remote
    have hRest := ih (offer writer.recording maxAttempts (rangePayloads range.first range.last ledger)
      ⟨0, 0, 0, false⟩ remote).2
    rw [hOffered, List.append_assoc] at hRest
    rw [rebalanceRanges, rebalanceShardRangeTo_eq, hLedger, List.flatMap_cons]
    dsimp only
    split
    · rename_i hResult
      rw [hResult] at hRest
      exact hRest
    · rename_i hResult
      rw [hResult] at hRest
      exact hRest

end Calls

/-! ## A writer that accepts everything -/

theorem rebalanceRanges_accepting {ω : Type} {writer : IptoWriter ω} {file : Bytes} {ledger : Ledger}
    {maxAttempts : Nat} (hLedger : segmentLedger (.ok file) = .ok ledger)
    (hOk : ∀ remote payload, (writer.write remote payload).1 = .ok ()) (hAttempts : ledger.length ≤ maxAttempts)
    (change : PlacementChange) (ranges : List MovedRange) (remote : ω) :
    (rebalanceRanges writer (fun _ => .ok file) maxAttempts change ranges remote).1 =
      .ok (ranges.map fun range =>
        let found := (payloadsOf ledger range).length
        ⟨change, ⟨found, found, found, 0⟩⟩) := by
  induction ranges generalizing remote with
  | nil => rfl
  | cons range ranges ih =>
    obtain ⟨next, hNext⟩ := acceptAll_of_ok hOk (payloadsOf ledger range) remote
    have hOffer := offer_of_acceptAll writer hNext
      ((length_rangePayloads_le range.first range.last ledger).trans hAttempts) ⟨0, 0, 0, false⟩
    have hRange : rebalanceShardRangeTo writer (.ok file) range.first range.last remote maxAttempts =
        (.ok ⟨(payloadsOf ledger range).length, (payloadsOf ledger range).length,
          (payloadsOf ledger range).length, 0⟩, next) := by
      rw [rebalanceShardRangeTo_eq, hLedger]
      dsimp only
      rw [payloadsOf] at hOffer ⊢
      rw [hOffer, Nat.zero_add]
    have hRest := ih next
    rw [rebalanceRanges, hRange, List.map_cons]
    rcases hResult : rebalanceRanges writer (fun _ => .ok file) maxAttempts change ranges next with ⟨outcomes, last⟩
    rw [hResult] at hRest
    obtain rfl : outcomes = _ := hRest
    dsimp only
    rw [hResult]

section Moved

variable {fromMap toMap : IptoPlacementMap}

def Moves (fromMap toMap : IptoPlacementMap) (payload : IptoWritePayload) : Prop :=
  fromMap.resolve payload.shardId ≠ toMap.resolve payload.shardId

instance (fromMap toMap : IptoPlacementMap) (payload : IptoWritePayload) :
    Decidable (Moves fromMap toMap payload) :=
  inferInstanceAs (Decidable (¬_))

theorem countP_contains_le {ranges : List MovedRange} (h : ListsMoves fromMap toMap ranges)
    (shardId : DataIndividualShardId) : ranges.countP (·.contains shardId) ≤ 1 := by
  rw [List.countP_eq_length_filter]
  by_cases hSame : fromMap.resolve shardId = toMap.resolve shardId
  · rw [h.unmoved shardId hSame]
    exact Nat.zero_le 1
  · obtain ⟨range, hRange, -⟩ := h.moved shardId hSame
    rw [hRange, List.length_singleton]

theorem any_contains_iff {ranges : List MovedRange} (h : ListsMoves fromMap toMap ranges)
    (shardId : DataIndividualShardId) :
    ranges.any (·.contains shardId) = true ↔ fromMap.resolve shardId ≠ toMap.resolve shardId := by
  rw [List.any_eq_true]
  constructor
  · rintro ⟨range, hRange, hContains⟩ hSame
    have hMem : range ∈ ranges.filter (·.contains shardId) := List.mem_filter.mpr ⟨hRange, hContains⟩
    rw [h.unmoved shardId hSame] at hMem
    cases hMem
  · intro hMoved
    obtain ⟨range, hRange, -⟩ := h.moved shardId hMoved
    have hMem : range ∈ ranges.filter (·.contains shardId) := hRange ▸ List.mem_singleton_self range
    exact ⟨range, (List.mem_filter.mp hMem).1, (List.mem_filter.mp hMem).2⟩

/-- The records found range by range are the records of the moved shards, each once. -/
theorem perm_moved {ranges : List MovedRange} (h : ListsMoves fromMap toMap ranges)
    (payloads : List IptoWritePayload) :
    (ranges.flatMap fun range => payloads.filter fun payload => range.contains payload.shardId).Perm
      (payloads.filter fun payload => Moves fromMap toMap payload) := by
  have hPerm := perm_flatMap_filter (fun (range : MovedRange) (payload : IptoWritePayload) =>
    range.contains payload.shardId) (fun payload (_ : payload ∈ payloads) => countP_contains_le h payload.shardId)
  refine hPerm.trans (List.Perm.of_eq (List.filter_congr fun payload _ => ?_))
  rw [Bool.eq_iff_iff, any_contains_iff h, decide_eq_true_iff]
  rfl

theorem payloadsOf_of_nodup {ledger : Ledger} (hDistinct : ledger.keys.Nodup) (range : MovedRange) :
    payloadsOf ledger range = (ledger.map Prod.fst).filter fun payload => range.contains payload.shardId := by
  rw [payloadsOf, rangePayloads_of_nodup hDistinct]
  rfl

end Moved

/-- Over all ranges together exactly the records of moved shards are written, each once and in the
order of the segment within its range. -/
theorem rebalance_writes_moved_once {ω : Type} (writer : IptoWriter ω)
    (hOk : ∀ remote payload, (writer.write remote payload).1 = .ok ()) {fromMap toMap : IptoPlacementMap}
    (hFrom : fromMap.Built) (hTo : toMap.Built) {file : Bytes} {ledger : Ledger}
    (hLedger : segmentLedger (.ok file) = .ok ledger) (hDistinct : ledger.keys.Nodup) {maxAttempts : Nat}
    (hAttempts : ledger.length ≤ maxAttempts) (remote : ω) :
    let change := detectPlacementChange fromMap toMap
    let result := rebalanceAfterPlacementChange writer.recording (fun _ => .ok file) maxAttempts change (remote, [])
    let written := result.2.2.map Prod.fst
    let moved := (ledger.map Prod.fst).filter fun payload => Moves fromMap toMap payload
    written.Perm moved ∧ (written.map IptoWritePayload.idempotencyKey).Nodup ∧
      written = change.movedRanges.flatMap (fun range =>
        (ledger.map Prod.fst).filter fun payload => range.contains payload.shardId) ∧
      ∃ outcomes, result.1 = .ok outcomes ∧ outcomes.length = change.movedRanges.length ∧
        (outcomes.map fun outcome => outcome.drainSummary.entriesFound).sum = moved.length ∧
        (outcomes.map fun outcome => outcome.drainSummary.attempted).sum = moved.length ∧
        (outcomes.map fun outcome => outcome.drainSummary.acknowledged).sum = moved.length ∧
        ∀ outcome ∈ outcomes, outcome.drainSummary.failed = 0 := by
  intro change result written moved
  have hPieces : change.movedRanges.flatMap (payloadsOf ledger) = change.movedRanges.flatMap (fun range =>
      (ledger.map Prod.fst).filter fun payload => range.contains payload.shardId) :=
    congrArg change.movedRanges.flatMap (funext (payloadsOf_of_nodup hDistinct))
  have hWritten : written = change.movedRanges.flatMap (payloadsOf ledger) :=
    calls_rebalanceRanges_all hLedger (neverRetryable_of_ok hOk) hAttempts change _ (remote, [])
  have hPerm : (change.movedRanges.flatMap (payloadsOf ledger)).Perm moved := by
    rw [hPieces]
    exact perm_moved (detectPlacementChange_exact hFrom hTo) _
  have hKeys : (moved.map IptoWritePayload.idempotencyKey).Nodup := by
    have hAll : (ledger.map Prod.fst).map IptoWritePayload.idempotencyKey = ledger.keys := List.map_map
    exact (hAll ▸ hDistinct).sublist (List.filter_sublist.map _)
  have hSum : (change.movedRanges.map fun range => (payloadsOf ledger range).length).sum = moved.length := by
    rw [← hPerm.length_eq, List.length_flatMap]
  have hOutcomes := @rebalanceRanges_accepting _ writer.recording file ledger maxAttempts hLedger
    (fun remote payload => hOk remote.1 payload) hAttempts change change.movedRanges (remote, [])
  refine ⟨hWritten ▸ hPerm, ?_, hWritten.trans hPieces, _, hOutcomes, List.length_map _, ?_, ?_, ?_, ?_⟩
  · exact ((hWritten ▸ hPerm).map _).nodup_iff.mpr hKeys
  · rw [List.map_map]
    exact hSum
  · rw [List.map_map]
    exact hSum
  · rw [List.map_map]
    exact hSum
  · intro outcome hOutcome
    obtain ⟨range, -, rfl⟩ := List.mem_map.mp hOutcome
    rfl

def storedPayload (shardId : DataIndividualShardId) (key : String) : IptoWritePayload :=
  ⟨⟨"ipto-a"⟩, shardId, ⟨key⟩, "v1", ∅, none⟩

/-- A segment with a record on each side of the change. -/
def storedPayloads : List IptoWritePayload := [storedPayload 5 "data-1:meta-1", storedPayload 20 "data-2:meta-2"]

theorem storedPayloads_ledger :
    segmentLedger (.ok (segmentBytes (storedPayloads.map IptoWritePayload.encode))) =
      .ok (ledgerFrom 8 storedPayloads) :=
  segmentLedger_segmentBytes (by decide +kernel)

theorem mapBefore_built : mapBefore.Built :=
  ⟨1, mapBefore.slots, mapBefore.overrides, by decide, by decide, IptoPlacementMap.new_self rfl⟩

theorem mapAfter_built : mapAfter.Built :=
  ⟨2, mapAfter.slots, mapAfter.overrides, by decide, by decide, IptoPlacementMap.new_self rfl⟩

theorem rebalance_writes_moved_once_one_record :
    ((rebalanceAfterPlacementChange acceptingWriter.recording
      (fun _ => .ok (segmentBytes (storedPayloads.map IptoWritePayload.encode))) 2
      (detectPlacementChange mapBefore mapAfter) ((), [])).2.2.map Prod.fst).Perm
        [storedPayload 20 "data-2:meta-2"] := by
  have hOnce := (rebalance_writes_moved_once acceptingWriter (fun _ _ => rfl) mapBefore_built mapAfter_built
    storedPayloads_ledger (by decide +kernel) (Nat.le_refl 2) ()).1
  have hMoved :
      ((ledgerFrom 8 storedPayloads).map Prod.fst).filter (fun payload => Moves mapBefore mapAfter payload) =
      [storedPayload 20 "data-2:meta-2"] := by decide +kernel
  exact hMoved ▸ hOnce

/-! ## Whose payloads are offered -/

/-- The payload is for the owner of its shard, so that a repository writer bound to that owner
does not refuse it. -/
structure ForOwner (toMap : IptoPlacementMap) (payload : IptoWritePayload) : Prop where
  target : toMap.resolve payload.shardId = some payload.target
  bound : ∀ owner, toMap.resolve payload.shardId = some owner → ∀ repoWriter : IptoRepoWriter,
    (repoWriter.withTarget owner).refusesTarget payload = false

theorem forOwner_iff {toMap : IptoPlacementMap} {payload : IptoWritePayload} :
    ForOwner toMap payload ↔ toMap.resolve payload.shardId = some payload.target := by
  refine ⟨ForOwner.target, fun hTarget => ⟨hTarget, fun owner hOwner repoWriter => ?_⟩⟩
  rw [hTarget] at hOwner
  cases hOwner
  simp [IptoRepoWriter.refusesTarget, IptoRepoWriter.withTarget]

section Rehome

variable (fromMap toMap : IptoPlacementMap)

/-- Every payload handed to the writer is for the new owner. -/
def HandsToOwners {ω : Type} (writer : IptoWriter ω) (file : Bytes) (maxAttempts : Nat) (remote : ω) : Prop :=
  ∀ call ∈ (rebalanceAfterPlacementChange writer.recording (fun _ => .ok file) maxAttempts
    (detectPlacementChange fromMap toMap) (remote, [])).2.2, ForOwner toMap call.1

/-- The first record of every key in a moved range was stored for the new owner. -/
def StoredForOwners (ledger : Ledger) : Prop :=
  ∀ range ∈ (detectPlacementChange fromMap toMap).movedRanges, ∀ payload ∈ payloadsOf ledger range,
    toMap.resolve payload.shardId = some payload.target

instance (ledger : Ledger) : Decidable (StoredForOwners fromMap toMap ledger) :=
  inferInstanceAs (Decidable (∀ range ∈ _, ∀ payload ∈ _, _ = _))

variable {fromMap toMap} {file : Bytes} {ledger : Ledger}

theorem handsToOwners_of_stored (hLedger : segmentLedger (.ok file) = .ok ledger)
    (h : StoredForOwners fromMap toMap ledger) {ω : Type} (writer : IptoWriter ω) (maxAttempts : Nat) (remote : ω) :
    HandsToOwners fromMap toMap writer file maxAttempts remote := by
  intro call hCall
  rcases calls_rebalanceRanges hLedger _ _ (remote, []) hCall with hNone | ⟨range, hRange, hPayload⟩
  · cases hNone
  · exact forOwner_iff.mpr (h range hRange call.1 hPayload)

theorem stored_of_handsToOwners (hLedger : segmentLedger (.ok file) = .ok ledger) {ω : Type} {writer : IptoWriter ω}
    (hWriter : NeverRetryable writer) {maxAttempts : Nat} (hAttempts : ledger.length ≤ maxAttempts) {remote : ω}
    (h : HandsToOwners fromMap toMap writer file maxAttempts remote) : StoredForOwners fromMap toMap ledger := by
  intro range hRange payload hPayload
  have hAll := calls_rebalanceRanges_all hLedger hWriter hAttempts (detectPlacementChange fromMap toMap)
    (detectPlacementChange fromMap toMap).movedRanges (remote, [])
  have hOffered : payload ∈ (rebalanceAfterPlacementChange writer.recording (fun _ => .ok file) maxAttempts
      (detectPlacementChange fromMap toMap) (remote, [])).2.2.map Prod.fst := by
    rw [rebalanceAfterPlacementChange, hAll]
    exact List.mem_flatMap.mpr ⟨range, hRange, hPayload⟩
  obtain ⟨call, hCall, rfl⟩ := List.mem_map.mp hOffered
  exact (h call hCall).target

end Rehome

/-- The payloads are offered as they were stored, so that they are for the new owners exactly if
they were stored for them. -/
theorem rebalance_hands_to_owners_iff (fromMap toMap : IptoPlacementMap) {file : Bytes} {ledger : Ledger}
    (hLedger : segmentLedger (.ok file) = .ok ledger) :
    ((∀ (ω : Type) (writer : IptoWriter ω) (maxAttempts : Nat) (remote : ω),
        HandsToOwners fromMap toMap writer file maxAttempts remote) ↔ StoredForOwners fromMap toMap ledger) ∧
      ∀ (ω : Type) (writer : IptoWriter ω) (maxAttempts : Nat) (remote : ω), NeverRetryable writer →
        ledger.length ≤ maxAttempts →
        (HandsToOwners fromMap toMap writer file maxAttempts remote ↔ StoredForOwners fromMap toMap ledger) := by
  refine ⟨⟨fun hAll => ?_, fun hStored ω writer => handsToOwners_of_stored hLedger hStored writer⟩,
    fun ω writer maxAttempts remote hWriter hAttempts => ⟨stored_of_handsToOwners hLedger hWriter hAttempts,
      fun hStored => handsToOwners_of_stored hLedger hStored writer maxAttempts remote⟩⟩
  have hAccepting : NeverRetryable acceptingWriter := neverRetryable_of_ok fun _ _ => rfl
  exact stored_of_handsToOwners hLedger hAccepting (Nat.le_refl _) (hAll Unit acceptingWriter _ ())

/-- Shards that go back to the instance their records were stored for. -/
theorem rebalance_hands_to_owners_iff_back :
    StoredForOwners mapAfter mapBefore (ledgerFrom 8 storedPayloads) ∧
      ∀ (ω : Type) (writer : IptoWriter ω) (maxAttempts : Nat) (remote : ω), HandsToOwners mapAfter mapBefore writer
        (segmentBytes (storedPayloads.map IptoWritePayload.encode)) maxAttempts remote := by
  have hStored : StoredForOwners mapAfter mapBefore (ledgerFrom 8 storedPayloads) := by decide +kernel
  exact ⟨hStored, (rebalance_hands_to_owners_iff mapAfter mapBefore storedPayloads_ledger).1.mpr hStored⟩

def storedOutbox : SegmentBackedMetadataOutbox :=
  storedPayloads.foldl (fun durable payload => (durable.enqueueDurable payload).2)
    ⟨.new, ⟨⟨"outbox"⟩, ⟨"node-a"⟩, ⟨utf8Bytes "a.seg"⟩, segmentMagic, 0, segmentMagic.length, 0⟩⟩

/-- Shard 20 moves to `ipto-b`, and its record is offered as one for `ipto-a`; a writer that is bound
to the new owner refuses it for good. -/
theorem rebalance_offers_old_target :
    mapBefore.Built ∧ mapAfter.Built ∧
    storedOutbox.writer.file = segmentBytes (storedPayloads.map IptoWritePayload.encode) ∧
    (rebalanceAfterPlacementChange acceptingWriter.recording (fun _ => .ok storedOutbox.writer.file) 2
      (detectPlacementChange mapBefore mapAfter) ((), [])).2.2 = [(storedPayload 20 "data-2:meta-2", .ok ())] ∧
    mapAfter.resolve 20 = some ⟨"ipto-b"⟩ ∧
    ¬HandsToOwners mapBefore mapAfter acceptingWriter storedOutbox.writer.file 2 () ∧
    ((IptoRepoWriter.configuredWriter.withTarget ⟨"ipto-b"⟩).write (fun _ => .done) (fun _ => false) ⟨[], 0⟩
      (storedPayload 20 "data-2:meta-2")).1 =
        .error ⟨"payload target differs from the writer repository target", false⟩ := by
  have hCalls : (rebalanceAfterPlacementChange acceptingWriter.recording (fun _ => .ok storedOutbox.writer.file) 2
      (detectPlacementChange mapBefore mapAfter) ((), [])).2.2 = [(storedPayload 20 "data-2:meta-2", .ok ())] := by
    decide +kernel
  refine ⟨mapBefore_built, mapAfter_built, by decide +kernel, hCalls, by decide +kernel, fun hHands => ?_,
    by decide +kernel⟩
  have hOwner := (hHands (storedPayload 20 "data-2:meta-2", .ok ()) (hCalls ▸ List.mem_singleton_self _)).target
  exact absurd hOwner (by decide +kernel)

end Vannak.Daemon
