import Vannak.Foundation.Run
import Vannak.Ipto.Outbox

/-!
# Writing to an Ipto repository

`IptoRepoWriter` of `ipto_adapter.rs`. One payload becomes several units of the repository, the
entity and a unit for each relation, and each is stored only if a search finds no unit with its
correlation id. The repository service is not part of the source: it is a list of stored units
whose calls may fail, a store before or after its unit is persisted.
-/

namespace Vannak.Ipto

open Foundation

set_option autoImplicit false

/-! ## The repository service -/

inductive JsonScalar where
  | string (value : String)
  | integer (value : Int64)
  | boolean (value : Bool)
deriving DecidableEq, Repr

structure UnitAttribute where
  attrId : Int64
  attrType : Nat
  value : List JsonScalar
deriving DecidableEq, Repr

structure RepoUnit where
  tenantId : Int64
  corrid : String
  status : Nat
  attributes : List UnitAttribute
deriving DecidableEq, Repr

inductive CallOutcome where
  | done
  | failsBefore (message : String)
  | failsAfter (message : String)
deriving DecidableEq, Repr

structure RepoService where
  units : List RepoUnit
  calls : Nat
deriving DecidableEq, Repr

/-- A unit of this tenant with this correlation id is stored. -/
def Correlated (tenantId : Int64) (units : List RepoUnit) (corrid : String) : Prop :=
  ∃ stored ∈ units, stored.tenantId = tenantId ∧ stored.corrid = corrid

namespace RepoService

variable (outcome : Nat → CallOutcome) (repo : RepoService)

/-- The hits of a query for a tenant and a correlation id. -/
def searchUnits (tenantId : Int64) (corrid : String) : Except String Nat × RepoService :=
  let next := { repo with calls := repo.calls + 1 }
  match outcome repo.calls with
  | .done => (.ok (repo.units.countP fun stored => stored.tenantId = tenantId ∧ stored.corrid = corrid), next)
  | .failsBefore message => (.error message, next)
  | .failsAfter message => (.error message, next)

def storeUnitJson (unit : RepoUnit) : Except String Unit × RepoService :=
  match outcome repo.calls with
  | .done => (.ok (), ⟨repo.units ++ [unit], repo.calls + 1⟩)
  | .failsBefore message => (.error message, ⟨repo.units, repo.calls + 1⟩)
  | .failsAfter message => (.error message, ⟨repo.units ++ [unit], repo.calls + 1⟩)

end RepoService

/-! ## Correlation ids -/

/-- `hash_bytes`: the seed goes through a round of its own. -/
def hashBytes (input : Bytes) (seed : UInt8) : UInt64 := input.foldl fnvStep (fnvStep fnvOffsetBasis seed)

/-- Lower-case hexadecimal, filled with zeros up to the width. -/
def hexPadded (width value : Nat) : String := String.ofList ((Nat.toDigits 16 value).leftpad width '0')

def corridForKey (key : IdempotencyKey) : String :=
  let bytes := utf8Bytes key.asStr
  let hi := (hashBytes bytes 0).toNat
  let lo := (hashBytes bytes 1).toNat
  hexPadded 8 (hi >>> 32) ++ "-" ++ hexPadded 4 ((hi >>> 16) &&& 0xFFFF) ++ "-" ++
    hexPadded 4 (0x7000 ||| (hi &&& 0x0FFF)) ++ "-" ++
    hexPadded 4 (0x8000 ||| (((lo % 2 ^ 32) >>> 16) &&& 0x3FFF)) ++ "-" ++ hexPadded 12 (lo &&& 0xFFFFFFFF)

/-! ## Relation attributes -/

section Debug

-- the Unicode tables of the standard library: what `Debug` does not print as it is
variable (unprintable : Char → Bool)

def debugChar (char : Char) : String :=
  if char = '\x00' then "\\0"
  else if char = '\t' then "\\t"
  else if char = '\r' then "\\r"
  else if char = '\n' then "\\n"
  else if char = '\x22' then "\\\x22"
  else if char = '\x5c' then "\\\\"
  else if unprintable char then "\\u\x7b" ++ String.ofList (Nat.toDigits 16 char.toNat) ++ "\x7d"
  else char.toString

def debugString (text : String) : String := "\x22" ++ String.join (text.toList.map (debugChar unprintable)) ++ "\x22"

/-- The derived `Debug` of a value, `{other:?}`. -/
def debugValue : MetadataValue → String
  | .string value => "String(" ++ debugString unprintable value ++ ")"
  | .integer value => "Integer(" ++ toString value.toInt ++ ")"
  | .boolean value => "Boolean(" ++ toString value ++ ")"
  | .timestamp value => "Timestamp(EventTimestamp(" ++ debugString unprintable value.asStr ++ "))"
  | .stringList values => "StringList([" ++ ", ".intercalate (values.map (debugString unprintable)) ++ "])"

def relationTargetValue : MetadataValue → String
  | .string value => value
  | other => debugValue unprintable other

end Debug

/-- The attribute name behind `vannak:relation:`. -/
def relationKeyOf (name : IptoAttributeName) : Option String :=
  if "vannak:relation:".toList.isPrefixOf name.asStr.toList then
    some (String.ofList (name.asStr.toList.drop "vannak:relation:".length))
  else none

/-- The attribute that a sentinel stands for. -/
def relationTargetAttr (relationKey : String) : Option String :=
  if relationKey = "wasGeneratedBy" then some "prov:wasGeneratedBy"
  else if relationKey = "wasDerivedFrom" then some "prov:wasDerivedFrom"
  else if relationKey = "used" then some "prov:used"
  else none

/-! ## The writer -/

structure IptoRepoWriter where
  tenantId : Int64
  attrIds : BTreeMap IptoAttributeName (Int64 × String)
  sdlConfigured : Bool
  target : Option IptoInstanceId

def attrTypeNumber (attrType : String) : Nat :=
  if attrType = "string" then 1
  else if attrType ∈ ["time", "instant", "timestamp", "datetime"] then 2
  else if attrType ∈ ["int", "integer"] then 3
  else if attrType = "long" then 4
  else if attrType ∈ ["double", "float"] then 5
  else if attrType ∈ ["bool", "boolean"] then 6
  else if attrType ∈ ["data", "bytes", "blob"] then 7
  else 1

def metadataValueToJson : MetadataValue → List JsonScalar
  | .string value => [.string value]
  | .integer value => [.integer value]
  | .boolean value => [.boolean value]
  | .timestamp value => [.string value.asStr]
  | .stringList values => values.map .string

namespace IptoRepoWriter

def new (tenantId : Int64) : IptoRepoWriter := ⟨tenantId, ∅, false, none⟩

def withTarget (writer : IptoRepoWriter) (target : IptoInstanceId) : IptoRepoWriter :=
  { writer with target := some target }

/-- The attributes looked up after the schema is configured, with their types. -/
def attributeNames : List (String × String) :=
  [("prov:generatedAtTime", "time"), ("prov:startedAtTime", "time"), ("prov:endedAtTime", "time"),
    ("prov:invalidatedAtTime", "time"), ("prov:wasAttributedTo", "string"), ("prov:wasGeneratedBy", "string"),
    ("prov:used", "string"), ("prov:wasDerivedFrom", "string"), ("prov:value", "string"),
    ("prov:location", "string"), ("prov:type", "string"), ("rdfs:label", "string"), ("rdfs:comment", "string"),
    ("vannak:dataIndividualId", "string"), ("vannak:processInstanceId", "string"), ("vannak:activityId", "string"),
    ("vannak:pipelineId", "string"), ("vannak:tenantId", "string"), ("vannak:environmentId", "string")]

/-- The lookup loop; what was found before a failure stays. -/
def resolveAttributes (attributeNameToId : String → Except String (Option Int64)) :
    List (String × String) → IptoRepoWriter → Except IptoWriteError Unit × IptoRepoWriter
  | [], writer => (.ok (), writer)
  | (qualname, attrType) :: rest, writer =>
    match attributeNameToId qualname with
    | .error error => (.error ⟨"id lookup for " ++ qualname ++ ": " ++ error, true⟩, writer)
    | .ok none => (.error ⟨"attribute " ++ qualname ++ " not found after SDL configuration", false⟩, writer)
    | .ok (some id) =>
      resolveAttributes attributeNameToId rest
        { writer with attrIds := writer.attrIds.insert ⟨qualname⟩ (id, attrType) }

/-- `configure_sdl`, given how the service answers the schema and the lookups. -/
def configureSdl (configured : Except String Unit) (attributeNameToId : String → Except String (Option Int64))
    (writer : IptoRepoWriter) : Except IptoWriteError Unit × IptoRepoWriter :=
  if writer.sdlConfigured then (.ok (), writer)
  else
    match configured with
    | .error error => (.error ⟨"SDL configuration failed: " ++ error, true⟩, writer)
    | .ok () =>
      match resolveAttributes attributeNameToId attributeNames writer with
      | (.error error, writer) => (.error error, writer)
      | (.ok (), writer) => (.ok (), { writer with sdlConfigured := true })

/-- Attributes that were not configured are left out. -/
def buildUnitPayload (writer : IptoRepoWriter) (payload : IptoWritePayload) : RepoUnit where
  tenantId := writer.tenantId
  corrid := corridForKey payload.idempotencyKey
  status := 30
  attributes := payload.attributes.toList.filterMap fun (name, value) =>
    (writer.attrIds[name]?).map fun (attrId, attrType) =>
      ⟨attrId, attrTypeNumber attrType, metadataValueToJson value⟩

def buildRelationUnit (writer : IptoRepoWriter) (attrQualname value corrid : String) :
    Except IptoWriteError RepoUnit :=
  match writer.attrIds[(⟨attrQualname⟩ : IptoAttributeName)]? with
  | none => .error ⟨"relation attribute " ++ attrQualname ++ " not found in SDL configuration", false⟩
  | some (attrId, attrType) =>
    let labelAttr := (writer.attrIds[(⟨"rdfs:label"⟩ : IptoAttributeName)]?).map fun (labelId, _) =>
      ⟨labelId, 1, [.string (attrQualname ++ " → " ++ value)]⟩
    .ok {
      tenantId := writer.tenantId
      corrid
      status := 30
      attributes := ⟨attrId, attrTypeNumber attrType, [.string value]⟩ :: labelAttr.toList }

/-- A writer bound to one target takes no payload for another. -/
def refusesTarget (writer : IptoRepoWriter) (payload : IptoWritePayload) : Bool :=
  writer.target.any (· ≠ payload.target)

section Write

variable (outcome : Nat → CallOutcome) (unprintable : Char → Bool) (writer : IptoRepoWriter)

def correlationExists (corrid : String) (repo : RepoService) : Except IptoWriteError Bool × RepoService :=
  match repo.searchUnits outcome writer.tenantId corrid with
  | (.ok totalHits, repo) => (.ok (0 < totalHits), repo)
  | (.error error, repo) => (.error ⟨"corrid search failed: " ++ error, true⟩, repo)

/-- Both kinds of unit are stored like this: search, build the unit, store it. -/
def storeMissing (corrid : String) (unit : Except IptoWriteError RepoUnit) (failure : String)
    (repo : RepoService) : Except IptoWriteError Unit × RepoService :=
  match writer.correlationExists outcome corrid repo with
  | (.error error, repo) => (.error error, repo)
  | (.ok true, repo) => (.ok (), repo)
  | (.ok false, repo) =>
    match unit with
    | .error error => (.error error, repo)
    | .ok unit =>
      match repo.storeUnitJson outcome unit with
      | (.ok (), repo) => (.ok (), repo)
      | (.error error, repo) => (.error ⟨failure ++ error, true⟩, repo)

def relationCorrid (payload : IptoWritePayload) (relationKey targetValue : String) : String :=
  corridForKey ⟨payload.idempotencyKey.asStr ++ ":relation:" ++ relationKey ++ ":" ++ targetValue⟩

/-- The loop over the attributes of the payload. -/
def writeRelationUnits (payload : IptoWritePayload) :
    List (IptoAttributeName × MetadataValue) → RepoService → Except IptoWriteError Unit × RepoService
  | [], repo => (.ok (), repo)
  | (attrName, value) :: rest, repo =>
    match relationKeyOf attrName with
    | none => writeRelationUnits payload rest repo
    | some relationKey =>
      match relationTargetAttr relationKey with
      | none => writeRelationUnits payload rest repo
      | some targetAttr =>
        let targetValue := relationTargetValue unprintable value
        let corrid := relationCorrid payload relationKey targetValue
        match writer.storeMissing outcome corrid (writer.buildRelationUnit targetAttr targetValue corrid)
            "store relation unit failed: " repo with
        | (.error error, repo) => (.error error, repo)
        | (.ok (), repo) => writeRelationUnits payload rest repo

/-- `IptoWriter::write`, with the repository as the state behind it. -/
def write (repo : RepoService) (payload : IptoWritePayload) : Except IptoWriteError Unit × RepoService :=
  if writer.refusesTarget payload then
    (.error ⟨"payload target differs from the writer repository target", false⟩, repo)
  else if ¬writer.sdlConfigured then
    (.error ⟨"IptoRepoWriter: SDL not configured — call configure_sdl() first", false⟩, repo)
  else
    match writer.storeMissing outcome (corridForKey payload.idempotencyKey) (.ok (writer.buildUnitPayload payload))
        "store unit failed: " repo with
    | (.error error, repo) => (.error error, repo)
    | (.ok (), repo) => writer.writeRelationUnits outcome unprintable payload payload.attributes.toList repo

def toWriter : IptoWriter RepoService where
  write := writer.write outcome unprintable

end Write

/-! ## What a configured writer knows -/

theorem mem_resolveAttributes {attributeNameToId : String → Except String (Option Int64)}
    {names : List (String × String)} {writer next : IptoRepoWriter}
    (h : resolveAttributes attributeNameToId names writer = (.ok (), next)) (name : IptoAttributeName)
    (hName : name ∈ writer.attrIds ∨ name.asStr ∈ names.map Prod.fst) : name ∈ next.attrIds := by
  induction names generalizing writer with
  | nil =>
    cases h
    exact hName.resolve_right (by simp)
  | cons first names ih =>
    obtain ⟨qualname, attrType⟩ := first
    rw [resolveAttributes] at h
    split at h
    · cases h
    · cases h
    · refine ih h ?_
      rw [List.map_cons, List.mem_cons] at hName
      rcases hName with hOld | hFirst | hRest
      · exact .inl (Std.ExtTreeMap.mem_insert.mpr (.inr hOld))
      · refine .inl (Std.ExtTreeMap.mem_insert.mpr (.inl (Std.compare_eq_iff_eq.mpr ?_)))
        cases name
        cases hFirst
        rfl
      · exact .inr hRest

/-- After `configure_sdl` the unit of every relation can be built. -/
theorem exists_buildRelationUnit {configured : Except String Unit}
    {attributeNameToId : String → Except String (Option Int64)} {writer next : IptoRepoWriter}
    (hFresh : writer.sdlConfigured = false) (h : writer.configureSdl configured attributeNameToId = (.ok (), next))
    {relationKey targetAttr : String} (hTarget : relationTargetAttr relationKey = some targetAttr)
    (value corrid : String) : ∃ unit, next.buildRelationUnit targetAttr value corrid = .ok unit := by
  have hKnown : (⟨targetAttr⟩ : IptoAttributeName) ∈ next.attrIds := by
    simp only [configureSdl, hFresh, Bool.false_eq_true, if_false] at h
    split at h
    · cases h
    · split at h
      · cases h
      · rename_i resolved hResolved
        cases h
        refine mem_resolveAttributes hResolved ⟨targetAttr⟩ (.inr ?_)
        rw [relationTargetAttr] at hTarget
        split at hTarget
        · cases hTarget
          decide
        · split at hTarget
          · cases hTarget
            decide
          · split at hTarget
            · cases hTarget
              decide
            · cases hTarget
  obtain ⟨found, hFound⟩ := Option.isSome_iff_exists.mp (Std.ExtTreeMap.mem_iff_isSome_getElem?.mp hKnown)
  rw [buildRelationUnit, hFound]
  exact ⟨_, rfl⟩

/-! ## One unit -/

section Idempotence

variable {outcome : Nat → CallOutcome} {unprintable : Char → Bool} {writer : IptoRepoWriter}

theorem units_searchUnits (repo : RepoService) (tenantId : Int64) (corrid : String) :
    (repo.searchUnits outcome tenantId corrid).2.units = repo.units := by
  rw [RepoService.searchUnits]
  split <;> rfl

theorem units_correlationExists (repo : RepoService) (corrid : String) :
    (writer.correlationExists outcome corrid repo).2.units = repo.units := by
  rw [← @units_searchUnits outcome repo writer.tenantId corrid, correlationExists]
  split
  · rename_i hSearch
    rw [hSearch]
  · rename_i hSearch
    rw [hSearch]

/-- A search that answers tells whether there is such a unit. -/
theorem correlationExists_eq_ok {repo next : RepoService} {corrid : String} {found : Bool}
    (h : writer.correlationExists outcome corrid repo = (.ok found, next)) :
    found = true ↔ Correlated writer.tenantId repo.units corrid := by
  rw [correlationExists, RepoService.searchUnits] at h
  split at h
  · rename_i hSearch
    split at hSearch
    · cases hSearch
      cases h
      rw [decide_eq_true_iff, List.countP_pos_iff]
      simp only [Correlated, decide_eq_true_iff]
    · cases hSearch
    · cases hSearch
  · cases h

/-- What storing a unit with a correlation id can do to the repository. -/
theorem storeMissing_cases {corrid : String} {unit : Except IptoWriteError RepoUnit}
    (hUnit : ∀ built, unit = .ok built → built.tenantId = writer.tenantId ∧ built.corrid = corrid)
    (failure : String) (repo : RepoService) :
    ((writer.storeMissing outcome corrid unit failure repo).2.units = repo.units ∨
      ¬Correlated writer.tenantId repo.units corrid ∧ ∃ built, unit = .ok built ∧
        (writer.storeMissing outcome corrid unit failure repo).2.units = repo.units ++ [built]) ∧
    ((writer.storeMissing outcome corrid unit failure repo).1 = .ok () →
      Correlated writer.tenantId (writer.storeMissing outcome corrid unit failure repo).2.units corrid) := by
  have hUnits := @units_correlationExists outcome writer repo corrid
  rw [storeMissing]
  cases hSearch : writer.correlationExists outcome corrid repo with
  | mk answer next =>
    rw [hSearch] at hUnits
    cases answer with
    | error error => exact ⟨.inl hUnits, fun hOk => by cases hOk⟩
    | ok found =>
      have hFound := correlationExists_eq_ok hSearch
      cases found with
      | true => exact ⟨.inl hUnits, fun _ => hUnits ▸ hFound.mp rfl⟩
      | false =>
        have hMissing : ¬Correlated writer.tenantId repo.units corrid := fun hThere => by
          cases hFound.mpr hThere
        cases unit with
        | error error => exact ⟨.inl hUnits, fun hOk => by cases hOk⟩
        | ok built =>
          obtain ⟨hTenant, hCorrid⟩ := hUnit built rfl
          have hStored : Correlated writer.tenantId (next.units ++ [built]) corrid :=
            ⟨built, List.mem_append_right _ (List.mem_singleton_self built), hTenant, hCorrid⟩
          have hPushed : next.units ++ [built] = repo.units ++ [built] := congrArg (· ++ [built]) hUnits
          dsimp only
          cases hOutcome : outcome next.calls with
          | done =>
            simp only [RepoService.storeUnitJson, hOutcome]
            exact ⟨.inr ⟨hMissing, built, rfl, hPushed⟩, fun _ => hStored⟩
          | failsBefore message =>
            simp only [RepoService.storeUnitJson, hOutcome]
            exact ⟨.inl hUnits, fun hOk => by cases hOk⟩
          | failsAfter message =>
            simp only [RepoService.storeUnitJson, hOutcome]
            exact ⟨.inr ⟨hMissing, built, rfl, hPushed⟩, fun hOk => by cases hOk⟩

/-! ## Whole payloads -/

/-- No two units of the tenant carry the same correlation id. -/
def DistinctCorrids (tenantId : Int64) (units : List RepoUnit) : Prop :=
  ((units.filter fun stored => stored.tenantId = tenantId).map RepoUnit.corrid).Nodup

instance (tenantId : Int64) (units : List RepoUnit) : Decidable (DistinctCorrids tenantId units) :=
  inferInstanceAs (Decidable (List.Nodup _))

theorem DistinctCorrids.concat {tenantId : Int64} {units : List RepoUnit} (h : DistinctCorrids tenantId units)
    {built : RepoUnit} (hTenant : built.tenantId = tenantId)
    (hMissing : ¬Correlated tenantId units built.corrid) : DistinctCorrids tenantId (units ++ [built]) := by
  rw [DistinctCorrids, List.filter_append, List.filter_singleton, decide_eq_true hTenant, List.map_append]
  refine h.append (List.nodup_singleton _) fun corrid hOld hNew => ?_
  obtain ⟨stored, hStored, hCorrid⟩ := List.mem_map.mp hOld
  obtain ⟨hMem, hSame⟩ := List.mem_filter.mp hStored
  exact hMissing ⟨stored, hMem, of_decide_eq_true hSame, hCorrid.trans (List.mem_singleton.mp hNew)⟩

/-- Units were added, for some of these correlation ids and at most one for each; if each of
them was there before, none was added. -/
structure AddsMissing (tenantId : Int64) (corrids : List String) (before after : List RepoUnit) : Prop where
  grows : before ⊆ after
  distinct : DistinctCorrids tenantId before → DistinctCorrids tenantId after
  quiet : (∀ corrid ∈ corrids, Correlated tenantId before corrid) → after = before

theorem correlated_mono {tenantId : Int64} {before after : List RepoUnit} {corrid : String}
    (h : Correlated tenantId before corrid) (hGrows : before ⊆ after) : Correlated tenantId after corrid := by
  obtain ⟨stored, hStored, hSame⟩ := h
  exact ⟨stored, hGrows hStored, hSame⟩

theorem AddsMissing.refl (tenantId : Int64) (corrids : List String) (units : List RepoUnit) :
    AddsMissing tenantId corrids units units :=
  ⟨List.Subset.refl units, id, fun _ => rfl⟩

theorem AddsMissing.weaken {tenantId : Int64} {corrids more : List String} {before after : List RepoUnit}
    (h : AddsMissing tenantId corrids before after) (hMore : corrids ⊆ more) :
    AddsMissing tenantId more before after :=
  { h with quiet := fun hThere => h.quiet fun corrid hCorrid => hThere corrid (hMore hCorrid) }

theorem AddsMissing.trans {tenantId : Int64} {corrids : List String} {before middle after : List RepoUnit}
    (hFirst : AddsMissing tenantId corrids before middle) (hSecond : AddsMissing tenantId corrids middle after) :
    AddsMissing tenantId corrids before after where
  grows := List.Subset.trans hFirst.grows hSecond.grows
  distinct h := hSecond.distinct (hFirst.distinct h)
  quiet hThere := by
    have hMiddle := hFirst.quiet hThere
    rw [← hMiddle] at hThere
    exact (hSecond.quiet hThere).trans hMiddle

/-- The correlation id of the relation that an attribute stands for, if it does. -/
def relationCorrid? (unprintable : Char → Bool) (payload : IptoWritePayload)
    (entry : IptoAttributeName × MetadataValue) : Option String := do
  let relationKey ← relationKeyOf entry.1
  let _ ← relationTargetAttr relationKey
  return relationCorrid payload relationKey (relationTargetValue unprintable entry.2)

def relationCorrids (unprintable : Char → Bool) (payload : IptoWritePayload)
    (attributes : List (IptoAttributeName × MetadataValue)) : List String :=
  attributes.filterMap (relationCorrid? unprintable payload)

/-- The units that a payload stands for, by their correlation ids. -/
def payloadCorrids (unprintable : Char → Bool) (payload : IptoWritePayload) : List String :=
  corridForKey payload.idempotencyKey :: relationCorrids unprintable payload payload.attributes.toList

theorem storeMissing_addsMissing {corrid : String} {unit : Except IptoWriteError RepoUnit}
    (hUnit : ∀ built, unit = .ok built → built.tenantId = writer.tenantId ∧ built.corrid = corrid)
    (failure : String) (repo : RepoService) :
    AddsMissing writer.tenantId [corrid] repo.units
      (writer.storeMissing outcome corrid unit failure repo).2.units := by
  obtain ⟨hSame | ⟨hMissing, built, hBuilt, hPushed⟩, -⟩ :=
    @storeMissing_cases outcome writer corrid unit hUnit failure repo
  · rw [hSame]
    exact .refl _ _ _
  · obtain ⟨hTenant, hCorrid⟩ := hUnit built hBuilt
    rw [hPushed]
    refine ⟨List.subset_append_left _ _, fun h => h.concat hTenant (hCorrid ▸ hMissing), fun hThere => ?_⟩
    exact absurd (hThere corrid (List.mem_singleton_self corrid)) hMissing

theorem buildRelationUnit_eq_ok {attrQualname value corrid : String} {built : RepoUnit}
    (h : writer.buildRelationUnit attrQualname value corrid = .ok built) :
    built.tenantId = writer.tenantId ∧ built.corrid = corrid := by
  rw [buildRelationUnit] at h
  split at h
  · cases h
  · cases h
    exact ⟨rfl, rfl⟩

/-- An attribute that stands for no relation is skipped. For any other the unit is stored before the rest. -/
theorem writeRelationUnits_cases (payload : IptoWritePayload) (first : IptoAttributeName × MetadataValue)
    (rest : List (IptoAttributeName × MetadataValue)) (repo : RepoService) :
    (relationCorrid? unprintable payload first = none ∧
      writer.writeRelationUnits outcome unprintable payload (first :: rest) repo =
        writer.writeRelationUnits outcome unprintable payload rest repo) ∨
    ∃ corrid unit next, relationCorrid? unprintable payload first = some corrid ∧
      (∀ built, unit = .ok built → built.tenantId = writer.tenantId ∧ built.corrid = corrid) ∧
      ((∃ error, writer.storeMissing outcome corrid unit "store relation unit failed: " repo = (.error error, next) ∧
          writer.writeRelationUnits outcome unprintable payload (first :: rest) repo = (.error error, next)) ∨
        writer.storeMissing outcome corrid unit "store relation unit failed: " repo = (.ok (), next) ∧
          writer.writeRelationUnits outcome unprintable payload (first :: rest) repo =
            writer.writeRelationUnits outcome unprintable payload rest next) := by
  obtain ⟨attrName, value⟩ := first
  rw [writeRelationUnits]
  cases hKey : relationKeyOf attrName with
  | none => exact .inl ⟨by simp [relationCorrid?, hKey], rfl⟩
  | some relationKey =>
    cases hAttr : relationTargetAttr relationKey with
    | none => exact .inl ⟨by simp [relationCorrid?, hKey, hAttr], by simp only [hAttr]⟩
    | some targetAttr =>
      simp only [hAttr]
      have hSome : relationCorrid? unprintable payload (attrName, value) =
          some (relationCorrid payload relationKey (relationTargetValue unprintable value)) := by
        simp [relationCorrid?, hKey, hAttr]
      generalize relationTargetValue unprintable value = targetValue at *
      generalize relationCorrid payload relationKey targetValue = corrid at *
      rcases hStore : writer.storeMissing outcome corrid (writer.buildRelationUnit targetAttr targetValue corrid)
        "store relation unit failed: " repo with ⟨error | done, next⟩
      · exact .inr ⟨corrid, _, next, hSome, fun _ => buildRelationUnit_eq_ok, .inl ⟨error, hStore, rfl⟩⟩
      · exact .inr ⟨corrid, _, next, hSome, fun _ => buildRelationUnit_eq_ok, .inr ⟨hStore, rfl⟩⟩

theorem writeRelationUnits_addsMissing (payload : IptoWritePayload)
    (attributes : List (IptoAttributeName × MetadataValue)) (repo : RepoService) :
    AddsMissing writer.tenantId (relationCorrids unprintable payload attributes) repo.units
        (writer.writeRelationUnits outcome unprintable payload attributes repo).2.units ∧
      ((writer.writeRelationUnits outcome unprintable payload attributes repo).1 = .ok () →
        ∀ corrid ∈ relationCorrids unprintable payload attributes, Correlated writer.tenantId
          (writer.writeRelationUnits outcome unprintable payload attributes repo).2.units corrid) := by
  induction attributes generalizing repo with
  | nil => exact ⟨.refl _ _ _, fun _ corrid hCorrid => by cases hCorrid⟩
  | cons first rest ih =>
    rcases @writeRelationUnits_cases outcome unprintable writer payload first rest repo with
      ⟨hNone, hRest⟩ | ⟨corrid, unit, next, hSome, hUnit, hFirst⟩
    · rw [relationCorrids, List.filterMap_cons, hNone, hRest]
      exact ih repo
    · have hAdds := @storeMissing_addsMissing outcome writer corrid unit hUnit "store relation unit failed: " repo
      have hStored := (@storeMissing_cases outcome writer corrid unit hUnit "store relation unit failed: " repo).2
      rw [relationCorrids, List.filterMap_cons, hSome]
      rcases hFirst with ⟨error, hStore, hFails⟩ | ⟨hStore, hRest⟩
      · rw [hStore] at hAdds
        rw [hFails]
        exact ⟨hAdds.weaken (by simp), fun hOk => by cases hOk⟩
      · rw [hStore] at hAdds hStored
        rw [hRest]
        obtain ⟨hLater, hAll⟩ := ih next
        refine ⟨(hAdds.weaken (by simp)).trans
          (hLater.weaken (List.subset_cons_self _ _)), fun hOk other hOther => ?_⟩
        rcases List.mem_cons.mp hOther with rfl | hOther
        · exact correlated_mono (hStored rfl) hLater.grows
        · exact hAll hOk other hOther

/-- The target or the configuration is refused, or the entity is stored before its relations. -/
theorem write_cases (repo : RepoService) (payload : IptoWritePayload) :
    (∃ error, writer.write outcome unprintable repo payload = (.error error, repo)) ∨
    ∃ next, (∃ error, writer.storeMissing outcome (corridForKey payload.idempotencyKey)
            (.ok (writer.buildUnitPayload payload)) "store unit failed: " repo = (.error error, next) ∧
          writer.write outcome unprintable repo payload = (.error error, next)) ∨
        writer.storeMissing outcome (corridForKey payload.idempotencyKey)
            (.ok (writer.buildUnitPayload payload)) "store unit failed: " repo = (.ok (), next) ∧
          writer.write outcome unprintable repo payload =
            writer.writeRelationUnits outcome unprintable payload payload.attributes.toList next := by
  rw [write]
  split
  · exact .inl ⟨_, rfl⟩
  split
  · exact .inl ⟨_, rfl⟩
  rcases writer.storeMissing outcome (corridForKey payload.idempotencyKey)
    (.ok (writer.buildUnitPayload payload)) "store unit failed: " repo with ⟨error | done, next⟩
  · exact .inr ⟨next, .inl ⟨error, rfl, rfl⟩⟩
  · exact .inr ⟨next, .inr ⟨rfl, rfl⟩⟩

theorem buildUnitPayload_fields {payload : IptoWritePayload} (built : RepoUnit)
    (h : (Except.ok (writer.buildUnitPayload payload) : Except IptoWriteError RepoUnit) = .ok built) :
    built.tenantId = writer.tenantId ∧ built.corrid = corridForKey payload.idempotencyKey := by
  cases h
  exact ⟨rfl, rfl⟩

/-- One write adds at most what is missing, and reports success only when nothing is. -/
theorem write_addsMissing (repo : RepoService) (payload : IptoWritePayload) :
    AddsMissing writer.tenantId (payloadCorrids unprintable payload) repo.units
        (writer.write outcome unprintable repo payload).2.units ∧
      ((writer.write outcome unprintable repo payload).1 = .ok () →
        ∀ corrid ∈ payloadCorrids unprintable payload,
          Correlated writer.tenantId (writer.write outcome unprintable repo payload).2.units corrid) := by
  have hAdds := @storeMissing_addsMissing outcome writer _ _ (@buildUnitPayload_fields writer payload)
    "store unit failed: " repo
  have hStored := (@storeMissing_cases outcome writer _ _ (@buildUnitPayload_fields writer payload)
    "store unit failed: " repo).2
  rcases @write_cases outcome unprintable writer repo payload with
    ⟨error, hRefused⟩ | ⟨next, ⟨error, hStore, hFails⟩ | ⟨hStore, hRelations⟩⟩
  · rw [hRefused]
    exact ⟨.refl _ _ _, fun hOk => by cases hOk⟩
  · rw [hStore] at hAdds
    rw [hFails]
    exact ⟨hAdds.weaken (by simp [payloadCorrids]), fun hOk => by cases hOk⟩
  · rw [hStore] at hAdds hStored
    rw [hRelations]
    obtain ⟨hRest, hAll⟩ :=
      @writeRelationUnits_addsMissing outcome unprintable writer payload payload.attributes.toList next
    refine ⟨(hAdds.weaken (by simp [payloadCorrids])).trans
      (hRest.weaken (List.subset_cons_self _ _)), fun hOk corrid hCorrid => ?_⟩
    rcases List.mem_cons.mp hCorrid with rfl | hCorrid
    · exact correlated_mono (hStored rfl) hRest.grows
    · exact hAll hOk corrid hCorrid

/-! ## Runs -/

theorem run_write_grows (repo : RepoService) (payloads : List IptoWritePayload) :
    repo.units ⊆ (run (writer.write outcome unprintable) repo payloads).2.units := by
  induction payloads generalizing repo with
  | nil => exact List.Subset.refl _
  | cons payload payloads ih => exact List.Subset.trans (write_addsMissing repo payload).1.grows (ih _)

end Idempotence

/-- Whatever calls fail, in any sequence of writes. -/
theorem write_idempotent (outcome : Nat → CallOutcome) (unprintable : Char → Bool) (writer : IptoRepoWriter)
    (repo : RepoService) (hStart : DistinctCorrids writer.tenantId repo.units) (payloads : List IptoWritePayload) :
    let reached := (run (writer.write outcome unprintable) repo payloads).2
    DistinctCorrids writer.tenantId reached.units ∧
      ∀ payload, (writer.write outcome unprintable reached payload).1 = .ok () →
        let written := (writer.write outcome unprintable reached payload).2
        (∀ corrid ∈ payloadCorrids unprintable payload, Correlated writer.tenantId written.units corrid) ∧
        ∀ others,
          let later := (run (writer.write outcome unprintable) written others).2
          (writer.write outcome unprintable later payload).2.units = later.units := by
  intro reached
  refine ⟨?_, fun payload hOk => ?_⟩
  · have hStep : ∀ (state : RepoService) payload, DistinctCorrids writer.tenantId state.units →
        DistinctCorrids writer.tenantId (writer.write outcome unprintable state payload).2.units :=
      fun state payload => (write_addsMissing state payload).1.distinct
    exact run_invariant hStep hStart payloads
  · have hStored := (write_addsMissing reached payload).2 hOk
    refine ⟨hStored, fun others => ?_⟩
    refine (write_addsMissing _ payload).1.quiet fun corrid hCorrid => ?_
    exact correlated_mono (hStored corrid hCorrid) (run_write_grows _ others)

def relationPayload : IptoWritePayload where
  target := ⟨"ipto-a"⟩
  shardId := 0
  idempotencyKey := ⟨"data-1:meta-1"⟩
  mappingVersion := "v1"
  attributes := ((∅ : BTreeMap IptoAttributeName MetadataValue).insert ⟨"prov:value"⟩ (.string "42")).insert
    ⟨"vannak:relation:used"⟩ (.string "data-0")
  provenance := none

def configuredWriter : IptoRepoWriter :=
  ⟨1, ((∅ : BTreeMap IptoAttributeName (Int64 × String)).insert ⟨"prov:value"⟩ (9, "string")).insert
    ⟨"prov:used"⟩ (7, "string"), true, some ⟨"ipto-a"⟩⟩

/-- The third call stores the unit of the relation and is reported as failed. -/
def lostAnswer (call : Nat) : CallOutcome := if call = 3 then .failsAfter "connection reset" else .done

/-- A failed write is tried again and then written once more: two units are stored. -/
theorem write_idempotent_lost_answer :
    DistinctCorrids configuredWriter.tenantId
        (run (configuredWriter.write lostAnswer fun _ => false) ⟨[], 0⟩ [relationPayload]).2.units ∧
      ∀ others : List IptoWritePayload,
        let written := (run (configuredWriter.write lostAnswer fun _ => false) ⟨[], 0⟩
          [relationPayload, relationPayload]).2
        let later := (run (configuredWriter.write lostAnswer fun _ => false) written others).2
        written.units.length = 2 ∧
          (configuredWriter.write lostAnswer (fun _ => false) later relationPayload).2.units = later.units := by
  obtain ⟨hDistinct, hAgain⟩ := write_idempotent lostAnswer (fun _ => false) configuredWriter ⟨[], 0⟩ (by decide)
    [relationPayload]
  refine ⟨hDistinct, fun others => ⟨by decide +kernel, ?_⟩⟩
  exact (hAgain relationPayload (by decide +kernel)).2 others

end IptoRepoWriter

end Vannak.Ipto
