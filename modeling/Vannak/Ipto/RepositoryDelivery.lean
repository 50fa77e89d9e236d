import Vannak.Ipto.CheckpointRecovery
import Vannak.Ipto.RepoWriter
import Vannak.Ipto.TargetDrain

/-!
# An outbox in front of a repository

The outbox sends a payload again after every failure and every crash, and the repository writer stores only what it
does not find. Together they give the repository each unit once: whatever calls fail, it gets units of the payloads of
the segment only, it has those of the acknowledged payloads, and after a restart it has them all.
-/

namespace Vannak.Ipto

open Foundation Storage

set_option autoImplicit false

/-! ## What an outbox asks of a writer -/

section Asks

variable {ω : Type} {writer : IptoWriter ω} {payloads : List IptoWritePayload} {outbox : MetadataOutbox}
  {remote : ω × List WriterCall} {holds : ω × List WriterCall → Prop}

theorem payload_mem_of_entry (h : Follows (ledgerFrom 8 payloads) remote.2 outbox) {key : IdempotencyKey}
    {entry : MetadataOutboxEntry} (hEntry : outbox.entries[key]? = some entry) : entry.payload ∈ payloads := by
  obtain ⟨row, hRow, hSame⟩ := Option.map_eq_some_iff.mp (h.lookup_of_entry hEntry)
  obtain ⟨hPayload, -⟩ := Prod.mk.inj hSame
  rw [← hPayload]
  exact mem_of_mem_ledgerFrom (List.mem_of_find?_eq_some hRow)

theorem deliver_asks (h : Follows (ledgerFrom 8 payloads) remote.2 outbox) {next : Option MetadataOutboxEntry}
    (hNext : ∀ entry, next = some entry → outbox.entries[entry.payload.idempotencyKey]? = some entry)
    (hWrite : ∀ remote, holds remote → ∀ payload ∈ payloads, holds (writer.recording.write remote payload).2)
    (hHolds : holds remote) : holds (deliver writer.recording next outbox remote).2.2 := by
  cases next with
  | none => exact hHolds
  | some entry =>
    have hEntry := hNext entry rfl
    rw [MetadataOutbox.deliver_some writer.recording hEntry]
    exact hWrite remote hHolds entry.payload (payload_mem_of_entry h hEntry)

/-- Whatever the writes of these payloads keep is kept by a step, if it survives a crash. -/
theorem outboxStep_asks {system : OutboxSystem ω} (h : system.Stores payloads)
    (hWrite : ∀ remote, holds remote → ∀ payload ∈ payloads, holds (writer.recording.write remote payload).2)
    (hCrash : ∀ remote, holds remote → holds (remote.1, [])) (hHolds : holds system.remote) (step : OutboxStep) :
    holds (outboxStep writer system step).2.remote := by
  have hFind {outbox : MetadataOutbox} {calls : List WriterCall} {accepts : MetadataOutboxEntry → Bool}
      (hFollows : Follows (ledgerFrom 8 payloads) calls outbox) (entry : MetadataOutboxEntry)
      (hFound : (outbox.pending.filterMap fun key => outbox.entries[key]?).find? accepts = some entry) :
      outbox.entries[entry.payload.idempotencyKey]? = some entry := (hFollows.inStep.of_find hFound).2.1
  cases step with
  | enqueueDurable payload => exact hHolds
  | deliverNextPending => exact deliver_asks h.follows (hFind h.follows) hWrite hHolds
  | deliverNextPendingForTarget target => exact deliver_asks h.follows (hFind h.follows) hWrite hHolds
  | drainPendingOutbox maxAttempts =>
    refine (@drain_invariant _ (deliverNextPending writer.recording)
      (fun outbox remote => Follows (ledgerFrom 8 payloads) remote.2 outbox ∧ holds remote)
      (fun outbox remote hBoth => ⟨hBoth.1.deliverNextPending writer, ?_⟩) maxAttempts _ _ _ ⟨h.follows, hHolds⟩).2
    exact deliver_asks hBoth.1 (hFind hBoth.1) hWrite hBoth.2
  | drainPendingOutboxForTarget target maxAttempts =>
    refine (@drain_invariant _ (deliverNextPendingForTarget writer.recording target)
      (fun outbox remote => Follows (ledgerFrom 8 payloads) remote.2 outbox ∧ holds remote)
      (fun outbox remote hBoth => ⟨hBoth.1.deliverNextPendingForTarget writer target, ?_⟩) maxAttempts _ _ _
      ⟨h.follows, hHolds⟩).2
    exact deliver_asks hBoth.1 (hFind hBoth.1) hWrite hBoth.2
  | retryFailed key => exact hHolds
  | retryFailedForTarget target => exact hHolds
  | crashAndRecover segmentId nodeId =>
    rw [outboxStep]
    split
    · exact hHolds
    · exact hCrash _ hHolds

end Asks

/-! ## A drain that nothing stops -/

section Drain

variable {ω : Type} {writer : IptoWriter ω} {holds : ω → Prop} {outbox : MetadataOutbox}

theorem pending_of_nextPending_none (h : outbox.InStep) (hNone : outbox.nextPending = none) :
    outbox.pending = [] := by
  rw [List.eq_nil_iff_forall_not_mem]
  intro key hQueued
  obtain ⟨entry, hEntry, hPending⟩ := h.entry_of_pending hQueued
  have hFound := List.find?_eq_none.mp hNone entry (List.mem_filterMap.mpr ⟨key, hQueued, hEntry⟩)
  exact hFound (decide_eq_true hPending)

/-- A writer that reports no transient failure gets the whole queue. -/
theorem drain_empties
    (hWrite : ∀ remote, holds remote → ∀ payload, RetryableFailure (writer.write remote payload).1 = false ∧
      holds (writer.write remote payload).2)
    (attempts : Nat) (h : outbox.InStep) (hLength : outbox.pending.length ≤ attempts)
    (summary : MetadataOutboxDrainSummary) {remote : ω} (hHolds : holds remote) :
    (drain (deliverNextPending writer) attempts summary outbox remote).2.1.pending = [] := by
  induction attempts generalizing outbox summary remote with
  | zero => exact List.length_eq_zero_iff.mp (Nat.le_zero.mp hLength)
  | succ attempts ih =>
    rw [drain, deliverNextPending]
    cases hNext : outbox.nextPending with
    | none => exact pending_of_nextPending_none h hNext
    | some entry =>
      obtain ⟨hQueued, hEntry, -⟩ := h.of_find hNext
      obtain ⟨hRetryable, hRemote⟩ := hWrite remote hHolds entry.payload
      have hShorter (answer : Except IptoWriteError Unit) :
          (outbox.settle entry answer).pending.length ≤ attempts := by
        have hLess : (outbox.settle entry answer).pending.length < outbox.pending.length :=
          List.length_filter_lt_length_iff_exists.mpr ⟨_, hQueued, by simp⟩
        omega
      rw [MetadataOutbox.deliver_some writer hEntry]
      generalize writer.write remote entry.payload = written at hRetryable hRemote ⊢
      obtain ⟨answer, next⟩ := written
      cases answer with
      | ok done => exact ih (h.settle entry _) (hShorter _) _ hRemote
      | error error =>
        have hPermanent : error.retryable = false := hRetryable
        dsimp only [MetadataOutboxDeliveryResult.ofAnswer]
        rw [if_neg (by simp [hPermanent])]
        exact ih (h.settle entry _) (hShorter _) _ hRemote

end Drain

/-! ## The units of a payload -/

namespace IptoRepoWriter

section Units

variable {outcome : Nat → CallOutcome} {unprintable : Char → Bool} {writer : IptoRepoWriter}

/-- Units were added at the end, all of the tenant and for these correlation ids. -/
def Appends (tenantId : Int64) (corrids : List String) (before after : List RepoUnit) : Prop :=
  ∃ added, after = before ++ added ∧ ∀ unit ∈ added, unit.tenantId = tenantId ∧ unit.corrid ∈ corrids

namespace Appends

variable {tenantId : Int64} {corrids more : List String} {before middle after : List RepoUnit}

theorem refl (tenantId : Int64) (corrids : List String) (units : List RepoUnit) :
    Appends tenantId corrids units units := ⟨[], (List.append_nil units).symm, List.forall_mem_nil _⟩

theorem weaken (h : Appends tenantId corrids before after) (hMore : corrids ⊆ more) :
    Appends tenantId more before after := by
  obtain ⟨added, hAfter, hAdded⟩ := h
  exact ⟨added, hAfter, fun unit hUnit => ⟨(hAdded unit hUnit).1, hMore (hAdded unit hUnit).2⟩⟩

theorem trans (hFirst : Appends tenantId corrids before middle) (hSecond : Appends tenantId corrids middle after) :
    Appends tenantId corrids before after := by
  obtain ⟨first, rfl, hFirst⟩ := hFirst
  obtain ⟨second, rfl, hSecond⟩ := hSecond
  exact ⟨first ++ second, List.append_assoc before first second, List.forall_mem_append.mpr ⟨hFirst, hSecond⟩⟩

end Appends

theorem storeMissing_appends {corrid : String} {unit : Except IptoWriteError RepoUnit}
    (hUnit : ∀ built, unit = .ok built → built.tenantId = writer.tenantId ∧ built.corrid = corrid)
    (failure : String) (repo : RepoService) :
    Appends writer.tenantId [corrid] repo.units
      (writer.storeMissing outcome corrid unit failure repo).2.units := by
  obtain ⟨hSame | ⟨-, built, hBuilt, hPushed⟩, -⟩ :=
    @storeMissing_cases outcome writer corrid unit hUnit failure repo
  · rw [hSame]
    exact .refl _ _ _
  · obtain ⟨hTenant, hCorrid⟩ := hUnit built hBuilt
    exact ⟨[built], hPushed, List.forall_mem_singleton.mpr ⟨hTenant, List.mem_singleton.mpr hCorrid⟩⟩

theorem writeRelationUnits_appends (payload : IptoWritePayload)
    (attributes : List (IptoAttributeName × MetadataValue)) (repo : RepoService) :
    Appends writer.tenantId (relationCorrids unprintable payload attributes) repo.units
      (writer.writeRelationUnits outcome unprintable payload attributes repo).2.units := by
  induction attributes generalizing repo with
  | nil => exact .refl _ _ _
  | cons first rest ih =>
    rcases @writeRelationUnits_cases outcome unprintable writer payload first rest repo with
      ⟨hNone, hRest⟩ | ⟨corrid, unit, next, hSome, hUnit, hFirst⟩
    · rw [relationCorrids, List.filterMap_cons, hNone, hRest]
      exact ih repo
    · have hAppends := @storeMissing_appends outcome writer corrid unit hUnit "store relation unit failed: " repo
      rw [relationCorrids, List.filterMap_cons, hSome]
      rcases hFirst with ⟨error, hStore, hFails⟩ | ⟨hStore, hRest⟩
      · rw [hStore] at hAppends
        rw [hFails]
        exact hAppends.weaken (by simp)
      · rw [hStore] at hAppends
        rw [hRest]
        exact (hAppends.weaken (by simp)).trans ((ih next).weaken (List.subset_cons_self _ _))

variable (unprintable writer) in
/-- The units that a payload is to have in the repository; none if the writer is not for its target. -/
def ownCorrids (payload : IptoWritePayload) : List String :=
  if writer.refusesTarget payload then [] else payloadCorrids unprintable payload

theorem ownCorrids_of_accepted {payload : IptoWritePayload} (h : writer.refusesTarget payload = false) :
    ownCorrids unprintable writer payload = payloadCorrids unprintable payload :=
  if_neg (by simp [h])

theorem write_of_refused {payload : IptoWritePayload} (h : writer.refusesTarget payload = true)
    (repo : RepoService) : writer.write outcome unprintable repo payload =
      (.error ⟨"payload target differs from the writer repository target", false⟩, repo) :=
  if_pos h

theorem write_appends (repo : RepoService) (payload : IptoWritePayload) :
    Appends writer.tenantId (ownCorrids unprintable writer payload) repo.units
      (writer.write outcome unprintable repo payload).2.units := by
  cases hTarget : writer.refusesTarget payload with
  | true =>
    rw [write_of_refused hTarget]
    exact .refl _ _ _
  | false =>
    rw [ownCorrids_of_accepted hTarget, payloadCorrids]
    have hAppends := @storeMissing_appends outcome writer _ _ (@buildUnitPayload_fields writer payload)
      "store unit failed: " repo
    rcases @write_cases outcome unprintable writer repo payload with
      ⟨error, hRefused⟩ | ⟨next, ⟨error, hStore, hFails⟩ | ⟨hStore, hRelations⟩⟩
    · rw [hRefused]
      exact .refl _ _ _
    · rw [hStore] at hAppends
      rw [hFails]
      exact hAppends.weaken (by simp)
    · rw [hStore] at hAppends
      rw [hRelations]
      exact (hAppends.weaken (by simp)).trans
        ((writeRelationUnits_appends payload payload.attributes.toList next).weaken (List.subset_cons_self _ _))

/-! ## A repository that answers -/

/-- No call fails from now on. -/
def Answers (outcome : Nat → CallOutcome) (repo : RepoService) : Prop :=
  ∀ call, repo.calls ≤ call → outcome call = .done

theorem Answers.step {repo next : RepoService} (h : Answers outcome repo) (hCalls : repo.calls ≤ next.calls) :
    Answers outcome next := fun call hCall => h call (hCalls.trans hCall)

theorem storeMissing_answers {corrid : String} {repo : RepoService} (h : Answers outcome repo) (built : RepoUnit)
    (failure : String) : ∃ next, writer.storeMissing outcome corrid (.ok built) failure repo = (.ok (), next) ∧
      Answers outcome next := by
  have hSearch : outcome repo.calls = .done := h _ (Nat.le_refl _)
  have hStore : outcome (repo.calls + 1) = .done := h _ (Nat.le_succ _)
  simp only [storeMissing, correlationExists, RepoService.searchUnits, hSearch]
  cases decide (0 < repo.units.countP fun stored =>
      decide (stored.tenantId = writer.tenantId ∧ stored.corrid = corrid)) with
  | true => exact ⟨_, rfl, h.step (Nat.le_succ _)⟩
  | false =>
    simp only [RepoService.storeUnitJson, hStore]
    exact ⟨_, rfl, h.step (Nat.le_add_right _ 2)⟩

/-- The writer has the attributes of every relation. -/
structure Configured (writer : IptoRepoWriter) : Prop where
  sdl : writer.sdlConfigured = true
  builds : ∀ {relationKey targetAttr : String}, relationTargetAttr relationKey = some targetAttr →
    ∀ value corrid, ∃ unit, writer.buildRelationUnit targetAttr value corrid = .ok unit

theorem configured_of_configureSdl {configured : Except String Unit}
    {attributeNameToId : String → Except String (Option Int64)} {fresh : IptoRepoWriter}
    (hFresh : fresh.sdlConfigured = false) (h : fresh.configureSdl configured attributeNameToId = (.ok (), writer)) :
    writer.Configured := by
  refine ⟨?_, fun hTarget value corrid => exists_buildRelationUnit hFresh h hTarget value corrid⟩
  simp only [configureSdl, hFresh, Bool.false_eq_true, if_false] at h
  split at h
  · cases h
  · split at h
    · cases h
    · cases h
      rfl

theorem writeRelationUnits_answers (hConfigured : writer.Configured) (payload : IptoWritePayload)
    (attributes : List (IptoAttributeName × MetadataValue)) {repo : RepoService} (h : Answers outcome repo) :
    ∃ next, writer.writeRelationUnits outcome unprintable payload attributes repo = (.ok (), next) ∧
      Answers outcome next := by
  induction attributes generalizing repo with
  | nil => exact ⟨repo, rfl, h⟩
  | cons first rest ih =>
    obtain ⟨attrName, value⟩ := first
    rw [writeRelationUnits]
    split
    · exact ih h
    · split
      · exact ih h
      · rename_i relationKey _ _ targetAttr hTarget
        dsimp only
        obtain ⟨unit, hBuilt⟩ := hConfigured.builds hTarget (relationTargetValue unprintable value)
          (relationCorrid payload relationKey (relationTargetValue unprintable value))
        obtain ⟨next, hStore, hNext⟩ := @storeMissing_answers outcome writer
          (relationCorrid payload relationKey (relationTargetValue unprintable value)) _ h unit
          "store relation unit failed: "
        rw [hBuilt, hStore]
        exact ih hNext

/-- The payload is stored, or its target is not the writer's. -/
theorem write_answers (hConfigured : writer.Configured) {repo : RepoService} (h : Answers outcome repo)
    (payload : IptoWritePayload) :
    RetryableFailure (writer.write outcome unprintable repo payload).1 = false ∧
      (writer.refusesTarget payload = false → (writer.write outcome unprintable repo payload).1 = .ok ()) ∧
      Answers outcome (writer.write outcome unprintable repo payload).2 := by
  cases hTarget : writer.refusesTarget payload with
  | true =>
    rw [write_of_refused hTarget]
    exact ⟨rfl, fun hAccepted => (by cases hAccepted), h⟩
  | false =>
    obtain ⟨stored, hStore, hStored⟩ := @storeMissing_answers outcome writer
      (corridForKey payload.idempotencyKey) _ h (writer.buildUnitPayload payload) "store unit failed: "
    obtain ⟨next, hRelations, hNext⟩ := @writeRelationUnits_answers outcome unprintable writer hConfigured payload
      payload.attributes.toList _ hStored
    rw [write, if_neg (by simp [hTarget]), if_neg (by simp [hConfigured.sdl]), hStore]
    dsimp only
    rw [hRelations]
    exact ⟨rfl, fun _ => rfl, hNext⟩

/-! ## The repository behind the outbox -/

/-- The repository has grown by units of these payloads, with those of every payload it has answered. -/
structure Mirrors (unprintable : Char → Bool) (writer : IptoRepoWriter) (start : List RepoUnit)
    (payloads : List IptoWritePayload) (remote : RepoService × List WriterCall) : Prop where
  appends : Appends writer.tenantId (payloads.flatMap (ownCorrids unprintable writer)) start remote.1.units
  distinct : DistinctCorrids writer.tenantId remote.1.units
  answered : ∀ payload, (payload, .ok ()) ∈ remote.2 → writer.refusesTarget payload = false ∧
    ∀ corrid ∈ payloadCorrids unprintable payload, Correlated writer.tenantId remote.1.units corrid

theorem Mirrors.write {start : List RepoUnit} {payloads : List IptoWritePayload}
    {remote : RepoService × List WriterCall} (h : Mirrors unprintable writer start payloads remote)
    {payload : IptoWritePayload} (hPayload : payload ∈ payloads) :
    Mirrors unprintable writer start payloads
      ((writer.toWriter outcome unprintable).recording.write remote payload).2 := by
  obtain ⟨repo, calls⟩ := remote
  obtain ⟨hAdds, hStored⟩ := @write_addsMissing outcome unprintable writer repo payload
  have hOwn : ownCorrids unprintable writer payload ⊆ payloads.flatMap (ownCorrids unprintable writer) :=
    fun corrid hCorrid => List.mem_flatMap.mpr ⟨payload, hPayload, hCorrid⟩
  refine ⟨h.appends.trans ((@write_appends outcome unprintable writer repo payload).weaken hOwn),
    hAdds.distinct h.distinct, fun other hCall => ?_⟩
  rcases List.mem_append.mp hCall with hOld | hNew
  · obtain ⟨hTarget, hThere⟩ := h.answered other hOld
    exact ⟨hTarget, fun corrid hCorrid => correlated_mono (hThere corrid hCorrid) hAdds.grows⟩
  · obtain ⟨rfl, hOk⟩ := Prod.mk.inj (List.mem_singleton.mp hNew)
    have hAnswer : (writer.write outcome unprintable repo other).1 = .ok () := hOk.symm
    refine ⟨?_, hStored hAnswer⟩
    cases hTarget : writer.refusesTarget other with
    | false => rfl
    | true =>
      rw [write_of_refused hTarget] at hAnswer
      cases hAnswer

theorem Mirrors.crash {start : List RepoUnit} {payloads : List IptoWritePayload}
    {remote : RepoService × List WriterCall} (h : Mirrors unprintable writer start payloads remote) :
    Mirrors unprintable writer start payloads (remote.1, []) :=
  { h with answered := fun payload hCall => by cases hCall }

theorem Mirrors.extend {start : List RepoUnit} {payloads more : List IptoWritePayload}
    {remote : RepoService × List WriterCall} (h : Mirrors unprintable writer start payloads remote)
    (hMore : payloads ⊆ more) : Mirrors unprintable writer start more remote := by
  refine { h with appends := h.appends.weaken fun corrid hCorrid => ?_ }
  obtain ⟨payload, hPayload, hOwn⟩ := List.mem_flatMap.mp hCorrid
  exact List.mem_flatMap.mpr ⟨payload, hMore hPayload, hOwn⟩

/-! ## Steps -/

theorem exists_mem_ledgerFrom {payloads : List IptoWritePayload} {payload : IptoWritePayload}
    (h : payload ∈ payloads) (offset : Nat) : ∃ found, (payload, found) ∈ ledgerFrom offset payloads := by
  induction payloads generalizing offset with
  | nil => cases h
  | cons first payloads ih =>
    rcases List.mem_cons.mp h with rfl | h
    · exact ⟨offset, List.mem_cons_self⟩
    · obtain ⟨found, hFound⟩ := ih h (offset + (frame first.encode).length)
      exact ⟨found, List.mem_cons_of_mem _ hFound⟩

variable (unprintable writer) in
/-- A payload in the outbox is to have this unit. -/
def Owed (outbox : MetadataOutbox) (corrid : String) : Prop :=
  ∃ (key : IdempotencyKey) (entry : MetadataOutboxEntry), outbox.entries[key]? = some entry ∧
    corrid ∈ ownCorrids unprintable writer entry.payload

theorem owed_iff {system : OutboxSystem RepoService} {payloads : List IptoWritePayload}
    (h : system.Stores payloads) (corrid : String) :
    Owed unprintable writer system.durable.outbox corrid ↔
      corrid ∈ payloads.flatMap (ownCorrids unprintable writer) := by
  constructor
  · rintro ⟨key, entry, hEntry, hCorrid⟩
    exact List.mem_flatMap.mpr ⟨entry.payload, payload_mem_of_entry h.follows hEntry, hCorrid⟩
  · intro hMem
    obtain ⟨payload, hPayload, hCorrid⟩ := List.mem_flatMap.mp hMem
    obtain ⟨offset, hRow⟩ := exists_mem_ledgerFrom hPayload 8
    obtain ⟨entry, hEntry, rfl, -, -⟩ := keeps_of_mem h hRow
    exact ⟨_, entry, hEntry, hCorrid⟩

variable (unprintable writer) in
/-- The segment is what the repository mirrors. -/
def Behind (start : List RepoUnit) (system : OutboxSystem RepoService) : Prop :=
  ∃ payloads, system.Stores payloads ∧ Mirrors unprintable writer start payloads system.remote

theorem Behind.step {start : List RepoUnit} {system : OutboxSystem RepoService}
    (h : Behind unprintable writer start system) (step : OutboxStep) :
    Behind unprintable writer start (outboxStep (writer.toWriter outcome unprintable) system step).2 := by
  obtain ⟨payloads, hStores, hMirrors⟩ := h
  by_cases hEnqueue : ∃ payload, step = .enqueueDurable payload
  · obtain ⟨payload, rfl⟩ := hEnqueue
    rcases enqueueDurable_stores (writer.toWriter outcome unprintable) hStores payload with
      ⟨hSame, -⟩ | ⟨-, hNext⟩
    · rw [hSame]
      exact ⟨payloads, hStores, hMirrors⟩
    · exact ⟨payloads ++ [payload], hNext, hMirrors.extend (List.subset_append_left _ _)⟩
  · rw [not_exists] at hEnqueue
    exact ⟨payloads, outboxStep_stores _ hStores hEnqueue, outboxStep_asks hStores
      (fun _ hRemote _ hPayload => hRemote.write hPayload) (fun _ hRemote => hRemote.crash) hMirrors step⟩

/-- From here on the repository only grows. -/
theorem Behind.from_here {start : List RepoUnit} {system : OutboxSystem RepoService}
    (h : Behind unprintable writer start system) : Behind unprintable writer system.remote.1.units system := by
  obtain ⟨payloads, hStores, hMirrors⟩ := h
  exact ⟨payloads, hStores, { hMirrors with appends := .refl _ _ _ }⟩

/-! ## After a restart -/

/-- The correlation ids of the tenant's units. -/
def tenantCorrids (tenantId : Int64) (units : List RepoUnit) : List String :=
  (units.filter fun stored => stored.tenantId = tenantId).map RepoUnit.corrid

theorem count_tenantCorrids {tenantId : Int64} {units : List RepoUnit} {corrid : String}
    (hDistinct : DistinctCorrids tenantId units) (h : Correlated tenantId units corrid) :
    (tenantCorrids tenantId units).count corrid = 1 := by
  obtain ⟨stored, hStored, hTenant, hCorrid⟩ := h
  refine List.count_eq_one_of_mem hDistinct (List.mem_map.mpr ⟨stored, ?_, hCorrid⟩)
  exact List.mem_filter.mpr ⟨hStored, decide_eq_true hTenant⟩

variable (unprintable writer) in
/-- Units that are owed were added, none twice, and those of the acknowledged payloads are there. -/
structure Mirrored (start : List RepoUnit) (outbox : MetadataOutbox) (units : List RepoUnit) : Prop where
  added : ∃ added, units = start ++ added ∧
    ∀ unit ∈ added, unit.tenantId = writer.tenantId ∧ Owed unprintable writer outbox unit.corrid
  once : (tenantCorrids writer.tenantId units).Nodup
  acknowledged : ∀ (key : IdempotencyKey) (entry : MetadataOutboxEntry), outbox.entries[key]? = some entry →
    entry.status = .acknowledged →
      ∀ corrid ∈ payloadCorrids unprintable entry.payload, (tenantCorrids writer.tenantId units).count corrid = 1

theorem Behind.mirrored {start : List RepoUnit} {system : OutboxSystem RepoService}
    (h : Behind unprintable writer start system) :
    Mirrored unprintable writer start system.durable.outbox system.remote.1.units := by
  obtain ⟨payloads, hStores, hMirrors⟩ := h
  obtain ⟨added, hUnits, hAdded⟩ := hMirrors.appends
  refine ⟨⟨added, hUnits, fun unit hUnit => ?_⟩, hMirrors.distinct, fun key entry hEntry hStatus corrid hCorrid => ?_⟩
  · exact ⟨(hAdded unit hUnit).1, (owed_iff hStores unit.corrid).mpr (hAdded unit hUnit).2⟩
  · have hCall := hStores.follows.acknowledged key entry hEntry hStatus
    exact count_tenantCorrids hMirrors.distinct ((hMirrors.answered entry.payload hCall).2 corrid hCorrid)

variable (unprintable writer) in
/-- The payloads are settled, only those for another target as failed, and what is owed is there once. -/
structure Completed (before after : MetadataOutbox) (units : List RepoUnit) : Prop where
  same : ∀ key, after.recorded key = before.recorded key
  settled : ∀ (key : IdempotencyKey) (entry : MetadataOutboxEntry), after.entries[key]? = some entry →
    entry.status = if writer.refusesTarget entry.payload then .failed else .acknowledged
  stored : ∀ corrid, Owed unprintable writer before corrid → (tenantCorrids writer.tenantId units).count corrid = 1

/-- Only payloads for another target have failed. -/
def Parks (writer : IptoRepoWriter) (outbox : MetadataOutbox) : Prop :=
  ∀ (key : IdempotencyKey) (entry : MetadataOutboxEntry), outbox.entries[key]? = some entry →
    entry.status = .failed → writer.refusesTarget entry.payload = true

theorem parks_deliver (hConfigured : writer.Configured) {outbox : MetadataOutbox}
    {remote : RepoService × List WriterCall} (h : outbox.InStep) (hAnswers : Answers outcome remote.1)
    (hParks : writer.Parks outbox) :
    let next := deliverNextPending (writer.toWriter outcome unprintable).recording outbox remote
    next.2.1.InStep ∧ Answers outcome next.2.2.1 ∧ writer.Parks next.2.1 := by
  intro next
  cases hNext : outbox.nextPending with
  | none =>
    have hSame : next = (.noPending, outbox, remote) := by
      simp only [next, deliverNextPending, hNext, deliver]
    rw [hSame]
    exact ⟨h, hAnswers, hParks⟩
  | some entry =>
    obtain ⟨-, hEntry, -⟩ := h.of_find hNext
    obtain ⟨-, hOk, hLater⟩ := @write_answers outcome unprintable writer hConfigured remote.1 hAnswers entry.payload
    have hSettled : next = _ := (congrArg (deliver _ · outbox remote) hNext).trans
      (MetadataOutbox.deliver_some (writer.toWriter outcome unprintable).recording hEntry remote)
    rw [hSettled]
    refine ⟨h.settle entry _, hLater, fun key found hFound hFailed => ?_⟩
    rw [MetadataOutbox.getElem?_settle] at hFound
    split at hFound
    · cases hFound
      rw [MetadataOutboxEntry.answered_payload]
      cases hTarget : writer.refusesTarget entry.payload with
      | true => rfl
      | false =>
        have hAnswer : ((writer.toWriter outcome unprintable).recording.write remote entry.payload).1 = .ok () :=
          hOk hTarget
        rw [hAnswer] at hFailed
        cases hFailed
    · exact hParks key found hFound hFailed

/-- A restart and a drain lose no payload, leave none queued, and park only those for another target. -/
theorem restarted_of_stores (hConfigured : writer.Configured) {start : List RepoUnit}
    {system : OutboxSystem RepoService} {payloads : List IptoWritePayload} (hStores : system.Stores payloads)
    (hMirrors : Mirrors unprintable writer start payloads system.remote)
    (hAnswers : Answers outcome system.remote.1) (segmentId : SegmentId) (nodeId : NodeId) {maxAttempts : Nat}
    (hAttempts : system.durable.outbox.entries.size ≤ maxAttempts) :
    let restarted := (run (outboxStep (writer.toWriter outcome unprintable)) system
      [.crashAndRecover segmentId nodeId, .drainPendingOutbox maxAttempts]).2
    restarted.Stores payloads ∧ Mirrors unprintable writer start payloads restarted.remote ∧
      restarted.durable.outbox.pending = [] ∧ writer.Parks restarted.durable.outbox := by
  intro restarted
  have hWrite : ∀ remote : RepoService × List WriterCall,
      Mirrors unprintable writer start payloads remote ∧ Answers outcome remote.1 → ∀ payload ∈ payloads,
        Mirrors unprintable writer start payloads
            ((writer.toWriter outcome unprintable).recording.write remote payload).2 ∧
          Answers outcome ((writer.toWriter outcome unprintable).recording.write remote payload).2.1 :=
    fun remote hRemote payload hPayload =>
      ⟨hRemote.1.write hPayload, (write_answers hConfigured hRemote.2 payload).2.2⟩
  obtain ⟨summary, next, hRecover, hNext, hPending⟩ :=
    crashAndRecover_stores (writer.toWriter outcome unprintable) hStores segmentId nodeId
  have hNextRemote := outboxStep_asks hStores hWrite (fun _ hRemote => ⟨hRemote.1.crash, hRemote.2⟩)
    ⟨hMirrors, hAnswers⟩ (.crashAndRecover segmentId nodeId)
  rw [hRecover] at hNextRemote
  have hRestarted : restarted =
      (outboxStep (writer.toWriter outcome unprintable) next (.drainPendingOutbox maxAttempts)).2 := by
    simp only [restarted, run, hRecover]
  rw [hRestarted]
  refine ⟨outboxStep_stores _ hNext fun payload => by simp, ?_, ?_, ?_⟩
  · exact (outboxStep_asks hNext hWrite (fun _ hRemote => ⟨hRemote.1.crash, hRemote.2⟩) hNextRemote
      (.drainPendingOutbox maxAttempts)).1
  · have hKnown (key : IdempotencyKey) (hKey : key ∈ next.durable.outbox.entries) :
        key ∈ system.durable.outbox.entries := by
      rw [← Std.ExtTreeMap.contains_iff_mem] at hKey ⊢
      exact (hStores.contains_iff key).mpr ((hNext.contains_iff key).mp hKey)
    have hKept : next.durable.outbox.Kept := ⟨_, _, hNext.follows⟩
    exact @drain_empties _ (writer.toWriter outcome unprintable).recording (fun remote => Answers outcome remote.1) _
      (fun remote hRemote payload =>
        ⟨(write_answers hConfigured hRemote payload).1, (write_answers hConfigured hRemote payload).2.2⟩)
      maxAttempts hNext.follows.inStep ((hKept.pending_length_le hKnown).trans hAttempts) _ _ hNextRemote.2
  · have hFresh : writer.Parks next.durable.outbox := fun key entry hEntry hFailed => by
      rw [(freshlyQueued_of_pending hNext hPending).pending key entry hEntry] at hFailed
      cases hFailed
    exact (@drain_invariant _ (deliverNextPending (writer.toWriter outcome unprintable).recording)
      (fun outbox remote => outbox.InStep ∧ Answers outcome remote.1 ∧ writer.Parks outbox)
      (fun outbox remote hBoth => parks_deliver hConfigured hBoth.1 hBoth.2.1 hBoth.2.2) maxAttempts _ _ _
      ⟨hNext.follows.inStep, hNextRemote.2, hFresh⟩).2.2

section Settled

variable {start : List RepoUnit} {system : OutboxSystem RepoService} {payloads : List IptoWritePayload}

theorem status_of_settled (hStores : system.Stores payloads)
    (hMirrors : Mirrors unprintable writer start payloads system.remote)
    (hEmpty : system.durable.outbox.pending = []) (hParks : writer.Parks system.durable.outbox)
    {key : IdempotencyKey} {entry : MetadataOutboxEntry}
    (hEntry : system.durable.outbox.entries[key]? = some entry) :
    entry.status = if writer.refusesTarget entry.payload then .failed else .acknowledged := by
  cases hStatus : entry.status with
  | pending =>
    have hQueued : key ∈ system.durable.outbox.pending := by
      rw [hStores.follows.mem_pending, MetadataOutbox.statusOf, hEntry, Option.map_some, hStatus]
    rw [hEmpty] at hQueued
    cases hQueued
  | acknowledged =>
    have hCall := hStores.follows.acknowledged key entry hEntry hStatus
    simp [(hMirrors.answered entry.payload hCall).1]
  | failed => simp [hParks key entry hEntry hStatus]

/-- What is owed is there when only payloads for another target are not acknowledged. -/
theorem count_of_settled (h : Behind unprintable writer start system)
    (hSettled : ∀ (key : IdempotencyKey) (entry : MetadataOutboxEntry),
      system.durable.outbox.entries[key]? = some entry →
        entry.status = if writer.refusesTarget entry.payload then .failed else .acknowledged)
    {corrid : String} (hOwed : Owed unprintable writer system.durable.outbox corrid) :
    (tenantCorrids writer.tenantId system.remote.1.units).count corrid = 1 := by
  obtain ⟨key, entry, hEntry, hOwn⟩ := hOwed
  have hStatus := hSettled key entry hEntry
  cases hTarget : writer.refusesTarget entry.payload with
  | true =>
    rw [ownCorrids, if_pos hTarget] at hOwn
    cases hOwn
  | false =>
    rw [ownCorrids_of_accepted hTarget] at hOwn
    rw [hTarget] at hStatus
    exact h.mirrored.acknowledged key entry hEntry hStatus corrid hOwn

end Settled

theorem Behind.completed (hConfigured : writer.Configured) {start : List RepoUnit}
    {system : OutboxSystem RepoService} (h : Behind unprintable writer start system)
    (hAnswers : Answers outcome system.remote.1) (segmentId : SegmentId) (nodeId : NodeId) {maxAttempts : Nat}
    (hAttempts : system.durable.outbox.entries.size ≤ maxAttempts) :
    let restarted := (run (outboxStep (writer.toWriter outcome unprintable)) system
      [.crashAndRecover segmentId nodeId, .drainPendingOutbox maxAttempts]).2
    Completed unprintable writer system.durable.outbox restarted.durable.outbox restarted.remote.1.units := by
  intro restarted
  obtain ⟨payloads, hStores, hMirrors⟩ := h
  obtain ⟨hFinal, hFinalMirrors, hEmpty, hParks⟩ :=
    restarted_of_stores hConfigured hStores hMirrors hAnswers segmentId nodeId hAttempts
  have hSettled : ∀ (key : IdempotencyKey) (entry : MetadataOutboxEntry),
      restarted.durable.outbox.entries[key]? = some entry →
        entry.status = if writer.refusesTarget entry.payload then .failed else .acknowledged :=
    fun key entry hEntry => status_of_settled hFinal hFinalMirrors hEmpty hParks hEntry
  refine ⟨fun key => ?_, hSettled, fun corrid hOwed => ?_⟩
  · rw [hFinal.follows.recorded, hStores.follows.recorded]
  · rw [owed_iff hStores, ← owed_iff hFinal] at hOwed
    exact count_of_settled ⟨payloads, hFinal, hFinalMirrors⟩ hSettled hOwed

end Units

/-- In every run of the outbox, over crashes and failed calls, the repository grows by units of its payloads only,
each of them once, with all those of the acknowledged payloads; and after a restart with a repository that answers, a
drain settles every payload and brings it every unit. -/
theorem repository_mirrors_outbox {fresh writer : IptoRepoWriter} {configured : Except String Unit}
    {attributeNameToId : String → Except String (Option Int64)} (hFresh : fresh.sdlConfigured = false)
    (hConfigured : fresh.configureSdl configured attributeNameToId = (.ok (), writer))
    (outcome : Nat → CallOutcome) (unprintable : Char → Bool) {repo : RepoService}
    (hStart : DistinctCorrids writer.tenantId repo.units) (path : PathBuf) (segmentId : SegmentId) (nodeId : NodeId) :
    ∃ durable, SegmentBackedMetadataOutbox.create none path segmentId nodeId = .ok durable ∧
      ∀ steps : List OutboxStep,
        let step := outboxStep (writer.toWriter outcome unprintable)
        let system := (run step ⟨durable, repo, []⟩ steps).2
        Mirrored unprintable writer repo.units system.durable.outbox system.remote.1.units ∧
        (∀ more, system.remote.1.units <+: (run step system more).2.remote.1.units) ∧
        (Answers outcome system.remote.1 → ∀ segmentId nodeId maxAttempts,
          system.durable.outbox.entries.size ≤ maxAttempts →
            let restarted := (run step system [.crashAndRecover segmentId nodeId, .drainPendingOutbox maxAttempts]).2
            Completed unprintable writer system.durable.outbox restarted.durable.outbox restarted.remote.1.units) := by
  obtain ⟨segment, hCreate, hHolds⟩ := SegmentWriter.holds_create path segmentId nodeId
  refine ⟨⟨MetadataOutbox.new, segment⟩, ?_, fun steps => ?_⟩
  · rw [SegmentBackedMetadataOutbox.create, hCreate]
    rfl
  · intro step system
    have hEmpty : Behind unprintable writer repo.units ⟨⟨MetadataOutbox.new, segment⟩, repo, []⟩ :=
      ⟨[], ⟨List.nodup_nil, hHolds, Follows.new []⟩, .refl _ _ _, hStart, fun payload hCall => by cases hCall⟩
    have hBehind : Behind unprintable writer repo.units system :=
      run_invariant (fun state input hState => hState.step input) hEmpty steps
    refine ⟨hBehind.mirrored, fun more => ?_, fun hAnswers segmentId nodeId maxAttempts hAttempts => ?_⟩
    · have hLater : Behind unprintable writer system.remote.1.units (run step system more).2 :=
        run_invariant (fun state input hState => hState.step input) hBehind.from_here more
      obtain ⟨added, hUnits, -⟩ := hLater.mirrored.added
      exact ⟨added, hUnits.symm⟩
    · exact hBehind.completed (configured_of_configureSdl hFresh hConfigured) hAnswers segmentId nodeId hAttempts

/-! ### A unit that was stored by a call that failed -/

def sampleFresh : IptoRepoWriter := (IptoRepoWriter.new 1).withTarget ⟨"ipto-a"⟩

/-- A repository that knows every attribute. -/
def sampleAttributes (_qualname : String) : Except String (Option Int64) := .ok (some 7)

def sampleConfigured : IptoRepoWriter := (sampleFresh.configureSdl (.ok ()) sampleAttributes).2

theorem configureSdl_sampleFresh :
    sampleFresh.configureSdl (.ok ()) sampleAttributes = (.ok (), sampleConfigured) := by
  have hOk : (sampleFresh.configureSdl (.ok ()) sampleAttributes).1 = .ok () := by decide +kernel
  rw [sampleConfigured]
  generalize sampleFresh.configureSdl (.ok ()) sampleAttributes = configured at hOk
  rw [← hOk]

/-- The outbox has sent the payload once, and was told that the unit of its relation was not stored. -/
def interrupted (durable : SegmentBackedMetadataOutbox) : OutboxSystem RepoService :=
  (run (outboxStep (sampleConfigured.toWriter lostAnswer fun _ => false)) ⟨durable, ⟨[], 0⟩, []⟩
    [.enqueueDurable relationPayload, .deliverNextPending]).2

theorem repository_mirrors_outbox_lost_answer :
    ∃ durable, SegmentBackedMetadataOutbox.create none ⟨utf8Bytes "a.seg"⟩ ⟨"outbox"⟩ ⟨"node-a"⟩ = .ok durable ∧
      (interrupted durable).remote.1.units.length = 2 ∧
      let restarted := (run (outboxStep (sampleConfigured.toWriter lostAnswer fun _ => false)) (interrupted durable)
        [.crashAndRecover ⟨"outbox"⟩ ⟨"node-a"⟩, .drainPendingOutbox 4]).2
      Completed (fun _ => false) sampleConfigured (interrupted durable).durable.outbox restarted.durable.outbox
        restarted.remote.1.units := by
  have hStart : DistinctCorrids sampleConfigured.tenantId [] := List.nodup_nil
  obtain ⟨durable, hCreate, hRun⟩ := @repository_mirrors_outbox _ _ _ _ rfl configureSdl_sampleFresh lostAnswer
    (fun _ => false) ⟨[], 0⟩ hStart ⟨utf8Bytes "a.seg"⟩ ⟨"outbox"⟩ ⟨"node-a"⟩
  obtain ⟨-, -, hCompleted⟩ := hRun [.enqueueDurable relationPayload, .deliverNextPending]
  have hCalls : (interrupted durable).remote.1.calls = 4 := by
    cases hCreate
    decide +kernel
  have hUnits : (interrupted durable).remote.1.units.length = 2 := by
    cases hCreate
    decide +kernel
  have hSize : (interrupted durable).durable.outbox.entries.size ≤ 4 := by
    cases hCreate
    decide +kernel
  have hAnswers : Answers lostAnswer (interrupted durable).remote.1 := fun call hCall => by
    rw [hCalls] at hCall
    exact if_neg (by omega)
  refine ⟨durable, hCreate, hUnits, ?_⟩
  unfold interrupted at hAnswers hSize ⊢
  exact hCompleted hAnswers _ _ 4 hSize

end IptoRepoWriter

end Vannak.Ipto
