import Vannak.Ipto.RepoWriter
import Vannak.Service.Capture

/-!
# Correlation keys

The entity of a payload and each of its relations is a unit with a correlation key of its own in `ipto_adapter.rs`. The
key of a relation appends its role and its value to the idempotency key, and an idempotency key may be such a text. Then
the units of two payloads have one key, and the entity that is written last is taken for stored.
-/

namespace Vannak.Ipto

open Foundation

set_option autoImplicit false

/-! ## Keys of the units -/

/-- The key of the entity is the idempotency key itself. -/
def relationCorrelationKey (key : IdempotencyKey) (relation : String × String) : IdempotencyKey :=
  ⟨key.asStr ++ ":relation:" ++ relation.1 ++ ":" ++ relation.2⟩

section

variable (unprintable : Char → Bool)

/-- The role and the value of the relation that an attribute stands for. -/
def relationOf? (entry : IptoAttributeName × MetadataValue) : Option (String × String) := do
  let relationKey ← relationKeyOf entry.1
  let _ ← relationTargetAttr relationKey
  return (relationKey, relationTargetValue unprintable entry.2)

namespace IptoWritePayload

def relations (payload : IptoWritePayload) : List (String × String) :=
  payload.attributes.toList.filterMap (relationOf? unprintable)

def correlationKeys (payload : IptoWritePayload) : List IdempotencyKey :=
  payload.idempotencyKey :: (payload.relations unprintable).map (relationCorrelationKey payload.idempotencyKey)

end IptoWritePayload

/-- The relation of the first key has the text of one of the second key, which ends behind its role or in its value. -/
def Overlaps (key : IdempotencyKey) (relation : String × String) (other : IdempotencyKey)
    (otherRelation : String × String) : Prop :=
  other.asStr = key.asStr ++ ":relation:" ++ relation.1 ∧
      relation.2 = "relation:" ++ otherRelation.1 ++ ":" ++ otherRelation.2 ∨
    ∃ part, other.asStr = key.asStr ++ ":relation:" ++ relation.1 ++ ":" ++ part ∧
      relation.2 = part ++ ":relation:" ++ otherRelation.1 ++ ":" ++ otherRelation.2

/-- The key of the second payload continues that of the first one to one of its relations, or into it and on to one of
its own. -/
def IptoWritePayload.Continues (payload other : IptoWritePayload) : Prop :=
  ∃ relation ∈ payload.relations unprintable,
    other.idempotencyKey = relationCorrelationKey payload.idempotencyKey relation ∨
      ∃ otherRelation ∈ other.relations unprintable,
        Overlaps payload.idempotencyKey relation other.idempotencyKey otherRelation

end

variable {unprintable : Char → Bool}

/-- The correlation ids of the relations are those of their keys. -/
theorem relationCorrids_eq (payload : IptoWritePayload) :
    IptoRepoWriter.relationCorrids unprintable payload payload.attributes.toList =
      ((payload.relations unprintable).map (relationCorrelationKey payload.idempotencyKey)).map corridForKey := by
  have hRelation (entry : IptoAttributeName × MetadataValue) :
      IptoRepoWriter.relationCorrid? unprintable payload entry =
        (relationOf? unprintable entry).map fun relation =>
          corridForKey (relationCorrelationKey payload.idempotencyKey relation) := by
    rw [IptoRepoWriter.relationCorrid?, relationOf?]
    cases relationKeyOf entry.1 with
    | none => rfl
    | some relationKey =>
      cases hAttr : relationTargetAttr relationKey with
      | none => simp [hAttr]
      | some targetAttr => simp [hAttr, IptoRepoWriter.relationCorrid, relationCorrelationKey]
  rw [IptoRepoWriter.relationCorrids, IptoWritePayload.relations, List.map_map, List.map_filterMap]
  exact List.filterMap_congr fun entry _ => hRelation entry

/-! ## Roles -/

/-- A role is a text without a colon, and not the word that stands before it. -/
structure IsRole (role : String) : Prop where
  colon_not_mem : ':' ∉ role.toList
  ne_relation : role ≠ "relation"

theorem isRole_of_mem_relations {payload : IptoWritePayload} {relation : String × String}
    (h : relation ∈ payload.relations unprintable) : IsRole relation.1 := by
  obtain ⟨entry, -, hEntry⟩ := List.mem_filterMap.mp h
  obtain ⟨relationKey, -, hRest⟩ := Option.bind_eq_some_iff.mp hEntry
  obtain ⟨targetAttr, hTarget, hMade⟩ := Option.bind_eq_some_iff.mp hRest
  cases hMade
  dsimp only
  rw [relationTargetAttr] at hTarget
  split at hTarget
  · rename_i hRole
    rw [hRole]
    exact ⟨by decide, by decide⟩
  · split at hTarget
    · rename_i hRole
      rw [hRole]
      exact ⟨by decide, by decide⟩
    · split at hTarget
      · rename_i hRole
        rw [hRole]
        exact ⟨by decide, by decide⟩
      · cases hTarget

theorem relationKeyOf_eq_some {name : IptoAttributeName} {role : String} (h : relationKeyOf name = some role) :
    name.asStr = "vannak:relation:" ++ role := by
  rw [relationKeyOf] at h
  split at h
  · rename_i hPrefix
    obtain ⟨rest, hRest⟩ := List.isPrefixOf_iff_prefix.mp hPrefix
    have hDrop : name.asStr.toList.drop "vannak:relation:".length = rest := by
      rw [← hRest]
      exact List.drop_left
    cases h
    apply String.toList_inj.mp
    rw [hDrop, String.toList_append, ← hRest]
    exact congrArg _ String.toList_ofList.symm
  · cases h

/-- Attributes have one value each, so that a payload has at most one relation of a role. -/
theorem relations_pairwise (payload : IptoWritePayload) :
    (payload.relations unprintable).Pairwise fun left right => left.1 ≠ right.1 := by
  rw [IptoWritePayload.relations, List.pairwise_filterMap]
  refine Std.ExtTreeMap.distinct_keys_toList.imp fun hDistinct left hLeft right hRight hSame => hDistinct ?_
  obtain ⟨role, hRole, hLeftRest⟩ := Option.bind_eq_some_iff.mp hLeft
  obtain ⟨otherRole, hOther, hRightRest⟩ := Option.bind_eq_some_iff.mp hRight
  obtain ⟨-, -, hLeftMade⟩ := Option.bind_eq_some_iff.mp hLeftRest
  obtain ⟨-, -, hRightMade⟩ := Option.bind_eq_some_iff.mp hRightRest
  cases hLeftMade
  cases hRightMade
  rw [Std.compare_eq_iff_eq]
  apply congrArg StringId.mk
  rw [relationKeyOf_eq_some hRole, relationKeyOf_eq_some hOther]
  exact congrArg _ hSame

/-! ## Equal texts -/

/-- What follows the idempotency key and its colon. -/
def relationSuffix (relation : String × String) : String := "relation" ++ ":" ++ (relation.1 ++ ":" ++ relation.2)

theorem asStr_relationCorrelationKey (key : IdempotencyKey) (relation : String × String) :
    (relationCorrelationKey key relation).asStr = key.asStr ++ ":" ++ relationSuffix relation := by
  have hWord : ":relation:" = ":" ++ "relation" ++ ":" := by decide
  simp only [relationCorrelationKey, relationSuffix, hWord, String.append_assoc]

theorem shifted_iff_overlaps {key other : IdempotencyKey} {relation otherRelation : String × String}
    (hRole : IsRole relation.1) :
    Shifted (key.asStr, relationSuffix relation) (other.asStr, relationSuffix otherRelation) ↔
      Overlaps key relation other otherRelation := by
  have hWord : ":relation:" = ":" ++ "relation" ++ ":" := by decide
  have hFirst : "relation:" = "relation" ++ ":" := by decide
  have hPlain : ':' ∉ "relation".toList := by decide
  constructor
  · rintro ⟨part, hOther, hSuffix⟩
    dsimp only at hOther hSuffix
    rcases (colon_eq_colon_of_not_mem hPlain _ _ _).mp hSuffix with ⟨-, hRest⟩ | ⟨middle, rfl, hRest⟩
    · rcases (colon_eq_colon_of_not_mem hRole.colon_not_mem _ _ _).mp hRest with ⟨hSame, -⟩ | ⟨middle, hSplit, -⟩
      · exact absurd hSame.symm hRole.ne_relation
      · rw [hSplit, toList_colon] at hPlain
        exact absurd (List.mem_append_right _ List.mem_cons_self) hPlain
    · rcases (colon_eq_colon_of_not_mem hRole.colon_not_mem _ _ _).mp hRest with
        ⟨rfl, hValue⟩ | ⟨value, rfl, hValue⟩
      · refine .inl ⟨?_, ?_⟩
        · rw [hOther]
          simp only [hWord, String.append_assoc]
        · rw [hValue]
          simp only [relationSuffix, hFirst, String.append_assoc]
      · refine .inr ⟨value, ?_, ?_⟩
        · rw [hOther]
          simp only [hWord, String.append_assoc]
        · rw [hValue]
          simp only [relationSuffix, hWord, String.append_assoc]
  · rintro (⟨hOther, hValue⟩ | ⟨part, hOther, hValue⟩)
    · refine ⟨"relation" ++ ":" ++ relation.1, ?_, ?_⟩
      · rw [hOther]
        simp only [hWord, String.append_assoc]
      · dsimp only
        rw [relationSuffix, hValue]
        simp only [relationSuffix, hFirst, String.append_assoc]
    · refine ⟨"relation" ++ ":" ++ relation.1 ++ ":" ++ part, ?_, ?_⟩
      · rw [hOther]
        simp only [hWord, String.append_assoc]
      · dsimp only
        rw [relationSuffix, hValue]
        simp only [relationSuffix, hWord, String.append_assoc]

/-- Relations of different keys have one text exactly if one key lies in the relation of the other. -/
theorem relationCorrelationKey_eq_iff {key other : IdempotencyKey} {relation otherRelation : String × String}
    (hKeys : key ≠ other) (hRole : IsRole relation.1) (hOther : IsRole otherRelation.1) :
    relationCorrelationKey key relation = relationCorrelationKey other otherRelation ↔
      Overlaps key relation other otherRelation ∨ Overlaps other otherRelation key relation := by
  rw [← shifted_iff_overlaps hRole, ← shifted_iff_overlaps hOther]
  have hText : relationCorrelationKey key relation = relationCorrelationKey other otherRelation ↔
      key.asStr ++ ":" ++ relationSuffix relation = other.asStr ++ ":" ++ relationSuffix otherRelation := by
    rw [← asStr_relationCorrelationKey, ← asStr_relationCorrelationKey]
    exact ⟨congrArg StringId.asStr, fun h => congrArg StringId.mk h⟩
  rw [hText, colon_eq_colon_iff (key.asStr, _) (other.asStr, _), Prod.mk.injEq]
  exact or_iff_right fun hSame => hKeys (congrArg StringId.mk hSame.1)

theorem relationCorrelationKey_ne_self (key : IdempotencyKey) (relation : String × String) :
    relationCorrelationKey key relation ≠ key := by
  intro h
  have hLength := congrArg (fun key => key.asStr.toList.length) h
  simp [relationCorrelationKey, String.toList_append] at hLength

/-- Relations of one key have one text only if they are the same. -/
theorem relationCorrelationKey_inj {key : IdempotencyKey} {relation otherRelation : String × String}
    (hRole : IsRole relation.1) (hOther : IsRole otherRelation.1)
    (h : relationCorrelationKey key relation = relationCorrelationKey key otherRelation) :
    relation.1 = otherRelation.1 := by
  have hText := congrArg StringId.asStr h
  rw [asStr_relationCorrelationKey, asStr_relationCorrelationKey, relationSuffix, relationSuffix,
    String.append_right_inj, String.append_right_inj] at hText
  rcases (colon_eq_colon_of_not_mem hRole.colon_not_mem _ _ _).mp hText with ⟨hSame, -⟩ | ⟨middle, hSplit, -⟩
  · exact hSame.symm
  · have hColon := hOther.colon_not_mem
    rw [hSplit, toList_colon] at hColon
    exact absurd (List.mem_append_right _ List.mem_cons_self) hColon

/-! ## Sets of payloads -/

namespace IptoWritePayload

theorem correlationKeys_nodup (payload : IptoWritePayload) : (payload.correlationKeys unprintable).Nodup := by
  rw [correlationKeys, List.nodup_cons]
  constructor
  · intro hMem
    obtain ⟨relation, -, hSame⟩ := List.mem_map.mp hMem
    exact relationCorrelationKey_ne_self _ _ hSame
  · rw [List.Nodup, List.pairwise_map]
    refine (relations_pairwise payload).imp_of_mem fun hLeft hRight hRoles hSame => hRoles ?_
    exact relationCorrelationKey_inj (isRole_of_mem_relations hLeft) (isRole_of_mem_relations hRight) hSame

theorem not_continues_self (payload : IptoWritePayload) : ¬payload.Continues unprintable payload := by
  rintro ⟨relation, -, hSame | ⟨otherRelation, -, ⟨hText, -⟩ | ⟨part, hText, -⟩⟩⟩
  · exact relationCorrelationKey_ne_self _ _ hSame.symm
  · have hLength := congrArg (fun text => text.toList.length) hText
    simp [String.toList_append] at hLength
  · have hLength := congrArg (fun text => text.toList.length) hText
    simp [String.toList_append] at hLength

/-- Two payloads share a correlation key exactly if one continues the other. -/
theorem disjoint_correlationKeys_iff {payload other : IptoWritePayload}
    (hKeys : payload.idempotencyKey ≠ other.idempotencyKey) :
    List.Disjoint (payload.correlationKeys unprintable) (other.correlationKeys unprintable) ↔
      ¬payload.Continues unprintable other ∧ ¬other.Continues unprintable payload := by
  constructor
  · intro hDisjoint
    have hFirst {payload other : IptoWritePayload} (hKeys : payload.idempotencyKey ≠ other.idempotencyKey)
        (hContinues : payload.Continues unprintable other) :
        ∃ key ∈ payload.correlationKeys unprintable, key ∈ other.correlationKeys unprintable := by
      obtain ⟨relation, hRelation, hSame | ⟨otherRelation, hOther, hOverlaps⟩⟩ := hContinues
      · refine ⟨_, List.mem_cons_of_mem _ (List.mem_map_of_mem hRelation), ?_⟩
        rw [← hSame]
        exact List.mem_cons_self
      · have hSame := (relationCorrelationKey_eq_iff hKeys (isRole_of_mem_relations hRelation)
          (isRole_of_mem_relations hOther)).mpr (.inl hOverlaps)
        refine ⟨_, List.mem_cons_of_mem _ (List.mem_map_of_mem hRelation), ?_⟩
        rw [hSame]
        exact List.mem_cons_of_mem _ (List.mem_map_of_mem hOther)
    constructor
    · intro hContinues
      obtain ⟨key, hKey, hOther⟩ := hFirst hKeys hContinues
      exact hDisjoint hKey hOther
    · intro hContinues
      obtain ⟨key, hKey, hOther⟩ := hFirst hKeys.symm hContinues
      exact hDisjoint hOther hKey
  · rintro ⟨hFirst, hSecond⟩ key hKey hOther
    rcases List.mem_cons.mp hKey with rfl | hKey
    · rcases List.mem_cons.mp hOther with hSame | hOther
      · exact hKeys hSame
      · obtain ⟨relation, hRelation, hSame⟩ := List.mem_map.mp hOther
        exact hSecond ⟨relation, hRelation, .inl hSame.symm⟩
    · obtain ⟨relation, hRelation, rfl⟩ := List.mem_map.mp hKey
      rcases List.mem_cons.mp hOther with hSame | hOther
      · exact hFirst ⟨relation, hRelation, .inl hSame.symm⟩
      · obtain ⟨otherRelation, hOtherRelation, hSame⟩ := List.mem_map.mp hOther
        rcases (relationCorrelationKey_eq_iff hKeys (isRole_of_mem_relations hRelation)
          (isRole_of_mem_relations hOtherRelation)).mp hSame.symm with hOverlaps | hOverlaps
        · exact hFirst ⟨relation, hRelation, .inr ⟨otherRelation, hOtherRelation, hOverlaps⟩⟩
        · exact hSecond ⟨otherRelation, hOtherRelation, .inr ⟨relation, hRelation, hOverlaps⟩⟩

theorem flatMap_correlationKeys_nodup_iff {payloads : List IptoWritePayload}
    (hKeys : (payloads.map idempotencyKey).Nodup) :
    (payloads.flatMap (correlationKeys unprintable)).Nodup ↔
      ∀ payload ∈ payloads, ∀ other ∈ payloads, ¬payload.Continues unprintable other := by
  have hDistinct : payloads.Pairwise fun payload other => payload.idempotencyKey ≠ other.idempotencyKey :=
    List.pairwise_map.mp hKeys
  rw [List.nodup_flatMap, and_iff_right fun payload _ => payload.correlationKeys_nodup]
  constructor
  · intro hDisjoint
    have hPairs : payloads.Pairwise fun payload other =>
        ¬payload.Continues unprintable other ∧ ¬other.Continues unprintable payload :=
      (hDistinct.and hDisjoint).imp fun hBoth => (disjoint_correlationKeys_iff hBoth.1).mp hBoth.2
    have hSymm : Std.Symm fun payload other : IptoWritePayload =>
        ¬payload.Continues unprintable other ∧ ¬other.Continues unprintable payload :=
      ⟨fun _ _ h => ⟨h.2, h.1⟩⟩
    have hAll := hPairs.forall_of_forall fun payload _ =>
      ⟨payload.not_continues_self, payload.not_continues_self⟩
    exact fun payload hPayload other hOther => (hAll hPayload hOther).1
  · intro hAll
    exact hDistinct.imp_of_mem fun hPayload hOther hBoth =>
      (disjoint_correlationKeys_iff hBoth).mpr ⟨hAll _ hPayload _ hOther, hAll _ hOther _ hPayload⟩

theorem eq_of_shared_key {payloads : List IptoWritePayload}
    (hDistinct : (payloads.flatMap (correlationKeys unprintable)).Nodup) {payload other : IptoWritePayload}
    (hPayload : payload ∈ payloads) (hOther : other ∈ payloads) {key : IdempotencyKey}
    (hKey : key ∈ payload.correlationKeys unprintable) (hShared : key ∈ other.correlationKeys unprintable) :
    payload = other := by
  have hSymm : Std.Symm (Function.onFun List.Disjoint (correlationKeys unprintable)) := ⟨fun _ _ h => h.symm⟩
  by_contra hNe
  exact (List.nodup_flatMap.mp hDistinct).2.forall hPayload hOther hNe hKey hShared

end IptoWritePayload

/-! ## Writing them -/

namespace IptoRepoWriter

variable {outcome : Nat → CallOutcome} {writer : IptoRepoWriter}

theorem mem_storeMissing {corrid : String} {unit : Except IptoWriteError RepoUnit}
    (hUnit : ∀ built, unit = .ok built → built.tenantId = writer.tenantId ∧ built.corrid = corrid) {failure : String}
    {repo : RepoService} {stored : RepoUnit}
    (h : stored ∈ (writer.storeMissing outcome corrid unit failure repo).2.units) :
    stored ∈ repo.units ∨ unit = .ok stored := by
  obtain ⟨hSame | ⟨-, built, hBuilt, hPushed⟩, -⟩ :=
    @storeMissing_cases outcome writer corrid unit hUnit failure repo
  · rw [hSame] at h
    exact .inl h
  · rw [hPushed, List.mem_append, List.mem_singleton] at h
    rcases h with hOld | rfl
    · exact .inl hOld
    · exact .inr hBuilt

theorem mem_writeRelationUnits {payload : IptoWritePayload} {attributes : List (IptoAttributeName × MetadataValue)}
    {repo : RepoService} {stored : RepoUnit}
    (h : stored ∈ (writer.writeRelationUnits outcome unprintable payload attributes repo).2.units) :
    stored ∈ repo.units ∨ stored.corrid ∈ relationCorrids unprintable payload attributes := by
  induction attributes generalizing repo with
  | nil => exact .inl h
  | cons first rest ih =>
    rcases @writeRelationUnits_cases outcome unprintable writer payload first rest repo with
      ⟨hNone, hRest⟩ | ⟨corrid, unit, next, hSome, hUnit, hFirst⟩
    · rw [relationCorrids, List.filterMap_cons, hNone]
      rw [hRest] at h
      exact ih h
    · have hStored (hMem : stored ∈ (writer.storeMissing outcome corrid unit
          "store relation unit failed: " repo).2.units) : stored ∈ repo.units ∨ stored.corrid = corrid :=
        (mem_storeMissing hUnit hMem).imp_right fun hBuilt => (hUnit stored hBuilt).2
      rw [relationCorrids, List.filterMap_cons, hSome, List.mem_cons]
      rcases hFirst with ⟨error, hStore, hFails⟩ | ⟨hStore, hRest⟩
      · rw [hStore] at hStored
        rw [hFails] at h
        exact (hStored h).imp_right .inl
      · rw [hStore] at hStored
        rw [hRest] at h
        rcases ih h with hNext | hLater
        · exact (hStored hNext).imp_right .inl
        · exact .inr (.inr hLater)

/-- A write adds the entity of its payload and units of its relations. -/
theorem mem_write {payload : IptoWritePayload} {repo : RepoService} {stored : RepoUnit}
    (h : stored ∈ (writer.write outcome unprintable repo payload).2.units) :
    stored ∈ repo.units ∨ stored = writer.buildUnitPayload payload ∨
      stored.corrid ∈ relationCorrids unprintable payload payload.attributes.toList := by
  have hStored (hMem : stored ∈ (writer.storeMissing outcome (corridForKey payload.idempotencyKey)
      (.ok (writer.buildUnitPayload payload)) "store unit failed: " repo).2.units) :
      stored ∈ repo.units ∨ stored = writer.buildUnitPayload payload :=
    (mem_storeMissing buildUnitPayload_fields hMem).imp_right fun hBuilt => (Except.ok.inj hBuilt).symm
  rcases @write_cases outcome unprintable writer repo payload with
    ⟨error, hRefused⟩ | ⟨next, ⟨error, hStore, hFails⟩ | ⟨hStore, hRelations⟩⟩
  · rw [hRefused] at h
    exact .inl h
  · rw [hStore] at hStored
    rw [hFails] at h
    exact (hStored h).imp_right .inl
  · rw [hStore] at hStored
    rw [hRelations] at h
    rcases mem_writeRelationUnits h with hNext | hRelation
    · exact (hStored hNext).imp_right .inl
    · exact .inr (.inr hRelation)

/-- What a search for the entity of the payload finds is that entity. -/
def FindsOwnEntity (writer : IptoRepoWriter) (units : List RepoUnit) (payload : IptoWritePayload) : Prop :=
  Correlated writer.tenantId units (corridForKey payload.idempotencyKey) → writer.buildUnitPayload payload ∈ units

section Distinct

variable {payloads : List IptoWritePayload}
  (hDistinct : (payloads.flatMap (IptoWritePayload.correlationKeys unprintable)).Nodup)
  (hHash : Set.InjOn corridForKey {key | key ∈ payloads.flatMap (IptoWritePayload.correlationKeys unprintable)})

include hDistinct hHash

theorem FindsOwnEntity.write {payload other : IptoWritePayload} (hPayload : payload ∈ payloads)
    (hOther : other ∈ payloads) {repo : RepoService} (h : writer.FindsOwnEntity repo.units payload) :
    writer.FindsOwnEntity (writer.write outcome unprintable repo other).2.units payload := by
  rintro ⟨stored, hStored, hTenant, hCorrid⟩
  have hEntity : payload.idempotencyKey ∈ payload.correlationKeys unprintable := List.mem_cons_self
  have hSameKey {key : IdempotencyKey} (hKey : key ∈ other.correlationKeys unprintable)
      (hSame : corridForKey key = corridForKey payload.idempotencyKey) :
      payload = other ∧ key = payload.idempotencyKey := by
    have hKeys := hHash (List.mem_flatMap.mpr ⟨other, hOther, hKey⟩)
      (List.mem_flatMap.mpr ⟨payload, hPayload, hEntity⟩) hSame
    rw [hKeys] at hKey
    exact ⟨IptoWritePayload.eq_of_shared_key hDistinct hPayload hOther hEntity hKey, hKeys⟩
  rcases mem_write hStored with hOld | rfl | hRelation
  · exact (write_addsMissing repo other).1.grows (h ⟨stored, hOld, hTenant, hCorrid⟩)
  · obtain ⟨rfl, -⟩ := hSameKey List.mem_cons_self hCorrid
    exact hStored
  · rw [relationCorrids_eq] at hRelation
    obtain ⟨key, hKey, hSame⟩ := List.mem_map.mp hRelation
    obtain ⟨rfl, rfl⟩ := hSameKey (List.mem_cons_of_mem _ hKey) (hSame.trans hCorrid)
    obtain ⟨relation, -, hSelf⟩ := List.mem_map.mp hKey
    exact absurd hSelf (relationCorrelationKey_ne_self _ _)

/-- In every run of writes of these payloads. -/
theorem FindsOwnEntity.run {payload : IptoWritePayload} (hPayload : payload ∈ payloads) {repo : RepoService}
    (h : writer.FindsOwnEntity repo.units payload) {writes : List IptoWritePayload}
    (hWrites : ∀ written ∈ writes, written ∈ payloads) :
    writer.FindsOwnEntity (run (writer.write outcome unprintable) repo writes).2.units payload := by
  have hStep : ∀ (state : RepoService) (written : IptoWritePayload), writer.FindsOwnEntity state.units payload →
      written ∈ payloads → writer.FindsOwnEntity (writer.write outcome unprintable state written).2.units payload :=
    fun state written hState hWritten => hState.write hDistinct hHash hPayload hWritten
  exact run_invariant_of_allSteps hStep h (allSteps_of_forall fun _ written hMem => hWrites written hMem)

end Distinct

end IptoRepoWriter

/-- The units of payloads with different idempotency keys have different correlation keys exactly if no payload
continues another. As long as the hash tells these keys apart, a write then stores the entity of its payload, whatever
was written and failed before. -/
theorem correlation_keys_distinct_iff (unprintable : Char → Bool) (payloads : List IptoWritePayload)
    (hKeys : (payloads.map IptoWritePayload.idempotencyKey).Nodup) :
    ((payloads.flatMap (IptoWritePayload.correlationKeys unprintable)).Nodup ↔
      ∀ payload ∈ payloads, ∀ other ∈ payloads, ¬payload.Continues unprintable other) ∧
    ((∀ payload ∈ payloads, ∀ other ∈ payloads, ¬payload.Continues unprintable other) →
      Set.InjOn corridForKey {key | key ∈ payloads.flatMap (IptoWritePayload.correlationKeys unprintable)} →
      ∀ (outcome : Nat → CallOutcome) (writer : IptoRepoWriter) (repo : RepoService),
        (∀ payload ∈ payloads, writer.FindsOwnEntity repo.units payload) →
        ∀ writes : List IptoWritePayload, (∀ payload ∈ writes, payload ∈ payloads) → ∀ payload ∈ payloads,
          let reached := (run (writer.write outcome unprintable) repo writes).2
          writer.FindsOwnEntity reached.units payload ∧
            ((writer.write outcome unprintable reached payload).1 = .ok () →
              writer.buildUnitPayload payload ∈ (writer.write outcome unprintable reached payload).2.units)) := by
  refine ⟨IptoWritePayload.flatMap_correlationKeys_nodup_iff hKeys, ?_⟩
  intro hApart hHash outcome writer repo hStart writes hWrites payload hPayload reached
  have hDistinct := (IptoWritePayload.flatMap_correlationKeys_nodup_iff hKeys).mpr hApart
  have hReached : writer.FindsOwnEntity reached.units payload :=
    (hStart payload hPayload).run hDistinct hHash hPayload hWrites
  refine ⟨hReached, fun hOk => ?_⟩
  have hStored := (IptoRepoWriter.write_addsMissing reached payload).2 hOk _ List.mem_cons_self
  exact hReached.write hDistinct hHash hPayload hPayload hStored

/-! ### A relation with the key of an entity -/

/-- The payload of an event that an activity has generated, if one is given. -/
def generatedPayload (metadataEventId : String) (activityId : Option ActivityId) : IptoWritePayload :=
  .fromEvent { (Service.sampleCapture "data-1" metadataEventId).event with activityId } ⟨"ipto-a"⟩ (.new "v1")

def generationWriter : IptoRepoWriter :=
  ⟨1, (∅ : BTreeMap IptoAttributeName (Int64 × String)).insert ⟨"prov:wasGeneratedBy"⟩ (7, "string"), true, none⟩

def distinctPayloads : List IptoWritePayload :=
  [generatedPayload "meta-1" (some ⟨"step-1"⟩), generatedPayload "meta-2" (some ⟨"step-1"⟩)]

theorem correlation_keys_distinct_iff_generated :
    (∀ payload ∈ distinctPayloads, ∀ other ∈ distinctPayloads, ¬payload.Continues (fun _ => false) other) ∧
      generationWriter.buildUnitPayload (generatedPayload "meta-2" (some ⟨"step-1"⟩)) ∈
        (generationWriter.write (fun _ => .done) (fun _ => false)
          (run (generationWriter.write (fun _ => .done) fun _ => false) ⟨[], 0⟩
            [generatedPayload "meta-1" (some ⟨"step-1"⟩)]).2
          (generatedPayload "meta-2" (some ⟨"step-1"⟩))).2.units := by
  obtain ⟨hIff, hWrite⟩ := correlation_keys_distinct_iff (fun _ => false) distinctPayloads (by decide +kernel)
  have hApart := hIff.mp (by decide +kernel)
  refine ⟨hApart, ?_⟩
  have hHash : ∀ left ∈ distinctPayloads.flatMap (IptoWritePayload.correlationKeys fun _ => false),
      ∀ right ∈ distinctPayloads.flatMap (IptoWritePayload.correlationKeys fun _ => false),
        corridForKey left = corridForKey right → left = right := by
    decide +kernel
  have hStart : ∀ payload ∈ distinctPayloads, generationWriter.FindsOwnEntity [] payload := by
    rintro payload - ⟨stored, hStored, -⟩
    cases hStored
  have hWrites : ∀ payload ∈ [generatedPayload "meta-1" (some ⟨"step-1"⟩)], payload ∈ distinctPayloads := by
    intro payload hPayload
    rw [List.mem_singleton.mp hPayload]
    exact List.mem_cons_self
  have hRun := hWrite hApart (fun left hLeft right hRight => hHash left hLeft right hRight) (fun _ => .done)
    generationWriter ⟨[], 0⟩ hStart _ hWrites _ (List.mem_cons_of_mem _ List.mem_cons_self)
  exact hRun.2 (by decide +kernel)

/-- The second event has the key of the relation of the first one. Both writes succeed, and its entity is missing. -/
theorem relation_taken_for_entity :
    let first := generatedPayload "meta-1" (some ⟨"step-1"⟩)
    let second := generatedPayload "meta-1:relation:wasGeneratedBy:step-1" none
    first.idempotencyKey ≠ second.idempotencyKey ∧
      ¬([first, second].flatMap (IptoWritePayload.correlationKeys fun _ => false)).Nodup ∧
      (run (generationWriter.write (fun _ => .done) fun _ => false) ⟨[], 0⟩ [first, second]).1.map Prod.snd =
        [.ok (), .ok ()] ∧
      generationWriter.buildUnitPayload second ∉
        (run (generationWriter.write (fun _ => .done) fun _ => false) ⟨[], 0⟩ [first, second]).2.units := by
  decide +kernel

end Vannak.Ipto
