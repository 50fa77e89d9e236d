import Vannak.Daemon.QueryWire

/-!
# Queries sent to peers

The bodies that the `fanout_*` functions put together with `format!`, and the part of
`handle_query_request` that decides what is asked. The bodies contain the identifiers as they
are, so that a peer reads another string, or no JSON at all, if one has to be escaped.
-/

namespace Vannak.Daemon

open Foundation Process

set_option autoImplicit false

structure ProcessInstanceQuery where
  processInstanceId : ProcessInstanceId
deriving DecidableEq

structure DataIndividualMetadataQuery where
  dataIndividualId : DataIndividualId
  limit : QueryLimit

structure ProcessMetadataQuery where
  processInstanceId : ProcessInstanceId
  limit : QueryLimit

structure ActivityMetadataQuery where
  processInstanceId : ProcessInstanceId
  activityId : ActivityId
  limit : QueryLimit

/-- The query that `handle_query_request` asks of its service. -/
inductive QueryRequest where
  | processInstance (query : ProcessInstanceQuery)
  | pipeline (query : PipelineQuery)
  | processStatus (query : ProcessStatusQuery)
  | dataIndividualMetadata (query : DataIndividualMetadataQuery)
  | processMetadata (query : ProcessMetadataQuery)
  | activityMetadata (query : ActivityMetadataQuery)

def jsonStringField (value : Json) (field : String) : Option String := (value.field field).bind Json.asStr

def jsonU64Field (value : Json) (field : String) : Option UInt64 := (value.field field).bind Json.asU64

/-- Status line and body of an answer that refuses the request. -/
def badRequest (error : String) : String × String :=
  ("400 Bad Request", "\x7b\"error\":\"" ++ error ++ "\"\x7d")

def statusNamed (name : String) : Option ProcessStatus :=
  if name = "Active" then some .active
  else if name = "Completed" then some .completed
  else if name = "Failed" then some .failed
  else if name = "Cancelled" then some .cancelled
  else none

/-- The query of a parsed body of a given type. -/
def requestOfType (queryType : String) (value : Json) : Except (String × String) QueryRequest :=
  let limit := QueryLimit.new ((jsonU64Field value "limit").getD 100).toNat
  if queryType = "ProcessInstance" then
    match jsonStringField value "process_instance_id" with
    | some id => .ok (.processInstance ⟨⟨id⟩⟩)
    | none => .error (badRequest "invalid query")
  else if queryType = "Pipeline" then
    match jsonStringField value "pipeline_id" with
    | some id => .ok (.pipeline ⟨⟨id⟩, limit⟩)
    | none => .error (badRequest "invalid query")
  else if queryType = "ProcessStatus" then
    match jsonStringField value "status" with
    | some name =>
      match statusNamed name with
      | some status => .ok (.processStatus ⟨status, limit⟩)
      | none => .error (badRequest "invalid process status")
    | none => .error (badRequest "invalid query")
  else if queryType = "DataIndividualMetadata" then
    match jsonStringField value "data_individual_id" with
    | some id => .ok (.dataIndividualMetadata ⟨⟨id⟩, limit⟩)
    | none => .error (badRequest "invalid query")
  else if queryType = "ProcessMetadata" then
    match jsonStringField value "process_instance_id" with
    | some id => .ok (.processMetadata ⟨⟨id⟩, limit⟩)
    | none => .error (badRequest "invalid query")
  else if queryType = "ActivityMetadata" then
    match jsonStringField value "process_instance_id", jsonStringField value "activity_id" with
    | some process, some activity => .ok (.activityMetadata ⟨⟨process⟩, ⟨activity⟩, limit⟩)
    | _, _ => .error (badRequest "invalid query")
  else .error (badRequest "invalid query")

/-- `handle_query_request` up to the call of the service. -/
def queryRequest (fromStr : String → Option Json) (body : String) : Except (String × String) QueryRequest :=
  match fromStr body with
  | none => .error (badRequest "invalid query JSON")
  | some value =>
    match jsonStringField value "type" with
    | none => .error (badRequest "invalid query")
    | some queryType => requestOfType queryType value

/-! ## The requests of the fan-out -/

/-- The body put together in `fanout_process_instance_query`. -/
def processInstanceBody (query : ProcessInstanceQuery) : String :=
  "\x7b\"type\":\"ProcessInstance\",\"process_instance_id\":\"" ++ query.processInstanceId.asStr ++ "\"\x7d"

/-- In `fanout_pipeline_query`. -/
def pipelineBody (query : PipelineQuery) : String :=
  "\x7b\"type\":\"Pipeline\",\"pipeline_id\":\"" ++ query.pipelineId.asStr ++ "\",\"limit\":" ++
    toString query.limit.value ++ "\x7d"

/-- In `fanout_process_status_query`. -/
def processStatusBody (query : ProcessStatusQuery) : String :=
  "\x7b\"type\":\"ProcessStatus\",\"status\":\"" ++ statusName query.status ++ "\",\"limit\":" ++
    toString query.limit.value ++ "\x7d"

/-- A query that is sent to peers; a limit is a `usize`. -/
inductive PeerQuery where
  | processInstance (query : ProcessInstanceQuery)
  | pipeline (query : PipelineQuery) (hUsize : query.limit.value < 2 ^ 64)
  | processStatus (query : ProcessStatusQuery) (hUsize : query.limit.value < 2 ^ 64)

namespace PeerQuery

def request : PeerQuery → QueryRequest
  | processInstance query => .processInstance query
  | pipeline query _ => .pipeline query
  | processStatus query _ => .processStatus query

def body : PeerQuery → String
  | processInstance query => processInstanceBody query
  | pipeline query _ => pipelineBody query
  | processStatus query _ => processStatusBody query

/-- The identifier stands for itself in a JSON string, and the status is one that peers know. -/
def Sendable : PeerQuery → Prop
  | processInstance query => ∀ char ∈ query.processInstanceId.asStr.toList, Plain char
  | pipeline query _ => ∀ char ∈ query.pipelineId.asStr.toList, Plain char
  | processStatus query _ => query.status ≠ .unknown

instance (query : PeerQuery) : Decidable query.Sendable := by
  cases query <;> (rw [Sendable]; infer_instance)

end PeerQuery

/-! ## Parsing -/

/-- A string that is written as it is, or a number. -/
def Json.Flat : Json → Prop
  | .string value => ∀ char ∈ value.toList, Plain char
  | .number _ => True
  | _ => False

/-- What `from_str` of `serde_json` is relied on for: it reads an object of plain strings and numbers whatever the
order of its keys, and a string that it finds in an object is spelled by a literal of the text. -/
structure ReadsJson (fromStr : String → Option Json) : Prop where
  object : ∀ (fields : List (String × Json)) (text : String), text.toList = (Json.object fields).print →
    (fields.map Prod.fst).Nodup → (∀ field ∈ fields, (∀ char ∈ field.1.toList, Plain char) ∧ Json.Flat field.2) →
    ∃ value, fromStr text = some value ∧ ∀ key, value.field key = (Json.object fields).field key
  spelled : ∀ (text : String) (value : Json) (key found : String), fromStr text = some value →
    jsonStringField value key = some found → SpelledIn text.toList found.toList

section Requests

variable {fromStr : String → Option Json}

theorem requestOfType_of_queryRequest {body : String} {request : QueryRequest}
    (h : queryRequest fromStr body = .ok request) :
    ∃ value queryType, fromStr body = some value ∧ requestOfType queryType value = .ok request := by
  rw [queryRequest] at h
  split at h
  · cases h
  · rename_i value hValue
    split at h
    · cases h
    · exact ⟨value, _, hValue, h⟩

/-- The service is asked about what the parser found. -/
theorem field_of_requestOfType {queryType : String} {value : Json} {query : PeerQuery}
    (h : requestOfType queryType value = .ok query.request) :
    match query with
    | .processInstance query => jsonStringField value "process_instance_id" = some query.processInstanceId.asStr
    | .pipeline query _ => jsonStringField value "pipeline_id" = some query.pipelineId.asStr
    | .processStatus query _ => ∃ name, statusNamed name = some query.status := by
  cases query with
  | processInstance query | pipeline query _ | processStatus query _ =>
    simp only [PeerQuery.request, requestOfType] at h
    repeat' split at h
    all_goals cases h
    all_goals first | assumption | exact ⟨_, by assumption⟩

theorem statusNamed_ne_unknown {name : String} {status : ProcessStatus} (h : statusNamed name = some status) :
    status ≠ .unknown := by
  rw [statusNamed] at h
  repeat' split at h
  all_goals cases h
  all_goals decide

/-! ### The bodies as texts -/

theorem quoted_of_plain {text : List Char} (h : ∀ char ∈ text, Plain char) :
    quoted text = '\x22' :: (text ++ ['\x22']) := by
  rw [quoted, escape_of_plain h]

/-- With nothing to escape the body is printed JSON, with the type first. -/
theorem print_typed {queryType key text : String} (hType : ∀ char ∈ queryType.toList, Plain char)
    (hKey : ∀ char ∈ key.toList, Plain char) (hText : ∀ char ∈ text.toList, Plain char) :
    (Json.object [("type", .string queryType), (key, .string text)]).print =
      ("\x7b\"type\":\"" ++ queryType ++ "\",\"" ++ key ++ "\":\"" ++ text ++ "\"\x7d").toList := by
  have hPlain : quoted "type".toList = '\x22' :: ("type".toList ++ ['\x22']) := quoted_of_plain (by simp [Plain])
  simp only [Json.print, Json.printFields, hPlain, quoted_of_plain hType, quoted_of_plain hKey, quoted_of_plain hText]
  simp

theorem print_typed_limit {queryType key text : String} (hType : ∀ char ∈ queryType.toList, Plain char)
    (hKey : ∀ char ∈ key.toList, Plain char) (hText : ∀ char ∈ text.toList, Plain char) {limit : Nat}
    (hLimit : limit < 2 ^ 64) :
    (Json.object [("type", .string queryType), (key, .string text), ("limit", .number (.ofNat limit))]).print =
      ("\x7b\"type\":\"" ++ queryType ++ "\",\"" ++ key ++ "\":\"" ++ text ++ "\",\"limit\":" ++ toString limit ++
        "\x7d").toList := by
  have hPlain : quoted "type".toList = '\x22' :: ("type".toList ++ ['\x22']) := quoted_of_plain (by simp [Plain])
  have hLimitPlain : quoted "limit".toList = '\x22' :: ("limit".toList ++ ['\x22']) :=
    quoted_of_plain (by simp [Plain])
  have hNat : (UInt64.ofNat limit).toNat = limit := UInt64.toNat_ofNat_of_lt hLimit
  simp only [Json.print, Json.printFields, hPlain, hLimitPlain, quoted_of_plain hType, quoted_of_plain hKey,
    quoted_of_plain hText, hNat]
  simp

theorem backslash_not_mem_toString (limit : Nat) : '\\' ∉ (toString limit).toList := by
  intro hMem
  rw [Nat.toString_eq_repr, Nat.toList_repr] at hMem
  exact absurd (Nat.isDigit_of_mem_toDigits (by decide) (by decide) hMem) (by decide)

/-- An id that a peer finds as it was sent stands for itself. -/
theorem plain_of_spelled (h : ReadsJson fromStr) {body before id after key : String} {value : Json}
    (hBody : body.toList = before.toList ++ '\x22' :: (id.toList ++ '\x22' :: after.toList))
    (hBefore : '\\' ∉ before.toList) (hAfter : '\\' ∉ after.toList) (hValue : fromStr body = some value)
    (hField : jsonStringField value key = some id) : ∀ char ∈ id.toList, Plain char := by
  refine SpelledIn.plain_of_embedded hBefore hAfter ?_
  rw [← hBody]
  exact h.spelled body value key id hValue hField

/-! ### Both directions -/

theorem plain_names : ∀ name ∈ ["type", "limit", "ProcessInstance", "process_instance_id", "Pipeline", "pipeline_id",
    "ProcessStatus", "status", "Unknown", "Active", "Completed", "Failed", "Cancelled"],
    ∀ char ∈ name.toList, Plain char := by
  simp [Plain]

theorem decoded_processInstance (h : ReadsJson fromStr) {query : ProcessInstanceQuery}
    (hPlain : ∀ char ∈ query.processInstanceId.asStr.toList, Plain char) :
    queryRequest fromStr (processInstanceBody query) = .ok (.processInstance query) := by
  have hText : (processInstanceBody query).toList = (Json.object [("type", .string "ProcessInstance"),
      ("process_instance_id", .string query.processInstanceId.asStr)]).print := by
    refine Eq.trans ?_ (print_typed (plain_names _ (by simp)) (plain_names _ (by simp)) hPlain).symm
    unfold processInstanceBody
    simp
  obtain ⟨value, hValue, hFields⟩ := h.object _ _ hText (by simp) (by
    simp only [List.forall_mem_cons, Json.Flat]
    exact ⟨⟨plain_names _ (by simp), plain_names _ (by simp)⟩, ⟨plain_names _ (by simp), hPlain⟩, by simp⟩)
  have hType : jsonStringField value "type" = some "ProcessInstance" := by
    rw [jsonStringField, hFields]
    simp [Json.field, Json.asStr]
  have hId : jsonStringField value "process_instance_id" = some query.processInstanceId.asStr := by
    rw [jsonStringField, hFields]
    simp [Json.field, Json.asStr]
  rw [queryRequest]
  simp only [hValue, hType, requestOfType, if_true, hId]

/-- A query with a type, one string and a limit. -/
theorem fields_of_typed_limit (h : ReadsJson fromStr) {body queryType key text : String} {limit : Nat}
    (hTypePlain : ∀ char ∈ queryType.toList, Plain char) (hKeyPlain : ∀ char ∈ key.toList, Plain char)
    (hKeys : key ≠ "type" ∧ key ≠ "limit")
    (hPlain : ∀ char ∈ text.toList, Plain char) (hLimit : limit < 2 ^ 64)
    (hBody : body.toList = ("\x7b\"type\":\"" ++ queryType ++ "\",\"" ++ key ++ "\":\"" ++ text ++ "\",\"limit\":" ++
      toString limit ++ "\x7d").toList) :
    ∃ value, fromStr body = some value ∧ jsonStringField value "type" = some queryType ∧
      jsonStringField value key = some text ∧ jsonU64Field value "limit" = some (.ofNat limit) := by
  have hText := hBody.trans (print_typed_limit hTypePlain hKeyPlain hPlain hLimit).symm
  obtain ⟨value, hValue, hFields⟩ := h.object _ _ hText (by simp [hKeys.1.symm, hKeys.2]) (by
    simp only [List.forall_mem_cons, Json.Flat]
    exact ⟨⟨plain_names _ (by simp), hTypePlain⟩, ⟨hKeyPlain, hPlain⟩, ⟨plain_names _ (by simp), trivial⟩, by simp⟩)
  refine ⟨value, hValue, ?_, ?_, ?_⟩
  · rw [jsonStringField, hFields]
    simp [Json.field, Json.asStr]
  · rw [jsonStringField, hFields]
    simp [Json.field, Json.asStr, hKeys.1.symm]
  · rw [jsonU64Field, hFields]
    simp [Json.field, Json.asU64, hKeys.2]

theorem limit_decoded {limit : QueryLimit} (hUsize : limit.value < 2 ^ 64) :
    QueryLimit.new (UInt64.ofNat limit.value).toNat = limit := by
  rw [UInt64.toNat_ofNat_of_lt' hUsize]
  obtain ⟨value, hPos⟩ := limit
  simp only [QueryLimit.new, QueryLimit.mk.injEq]
  exact Nat.max_eq_left hPos

theorem statusNamed_statusName {status : ProcessStatus} (h : status ≠ .unknown) :
    statusNamed (statusName status) = some status := by
  cases status with
  | unknown => exact absurd rfl h
  | active | completed | failed | cancelled => decide

theorem peerQuery_decoded (h : ReadsJson fromStr) {query : PeerQuery} (hSendable : query.Sendable) :
    queryRequest fromStr query.body = .ok query.request := by
  cases query with
  | processInstance query => exact decoded_processInstance h hSendable
  | pipeline query hUsize =>
    have hBody : (pipelineBody query).toList = ("\x7b\"type\":\"" ++ "Pipeline" ++ "\",\"" ++ "pipeline_id" ++
        "\":\"" ++ query.pipelineId.asStr ++ "\",\"limit\":" ++ toString query.limit.value ++ "\x7d").toList := by
      unfold pipelineBody
      simp
    obtain ⟨value, hValue, hType, hId, hLimit⟩ :=
      fields_of_typed_limit h (plain_names _ (by simp)) (plain_names _ (by simp)) (by simp) hSendable hUsize hBody
    change queryRequest fromStr (pipelineBody query) = _
    rw [queryRequest]
    simp only [hValue, hType, requestOfType, hId, hLimit, Option.getD_some, limit_decoded hUsize, String.reduceEq,
      if_true, if_false, PeerQuery.request]
  | processStatus query hUsize =>
    have hBody : (processStatusBody query).toList = ("\x7b\"type\":\"" ++ "ProcessStatus" ++ "\",\"" ++ "status" ++
        "\":\"" ++ statusName query.status ++ "\",\"limit\":" ++ toString query.limit.value ++ "\x7d").toList := by
      unfold processStatusBody
      simp
    have hPlain : ∀ char ∈ (statusName query.status).toList, Plain char :=
      plain_names _ (by cases query.status <;> simp [statusName])
    obtain ⟨value, hValue, hType, hName, hLimit⟩ :=
      fields_of_typed_limit h (plain_names _ (by simp)) (plain_names _ (by simp)) (by simp) hPlain hUsize hBody
    change queryRequest fromStr (processStatusBody query) = _
    rw [queryRequest]
    simp only [hValue, hType, requestOfType, hName, hLimit, Option.getD_some, limit_decoded hUsize, String.reduceEq,
      if_true, if_false, statusNamed_statusName hSendable, PeerQuery.request]

theorem sendable_of_decoded (h : ReadsJson fromStr) {query : PeerQuery}
    (hDecoded : queryRequest fromStr query.body = .ok query.request) : query.Sendable := by
  obtain ⟨value, queryType, hValue, hRequest⟩ := requestOfType_of_queryRequest hDecoded
  have hField := field_of_requestOfType hRequest
  cases query with
  | processInstance query =>
    have hBody : (processInstanceBody query).toList =
        "\x7b\"type\":\"ProcessInstance\",\"process_instance_id\":".toList ++
          '\x22' :: (query.processInstanceId.asStr.toList ++ '\x22' :: "\x7d".toList) := by
      unfold processInstanceBody
      simp
    exact plain_of_spelled h hBody (by simp) (by simp) hValue hField
  | pipeline query hUsize =>
    have hBody : (pipelineBody query).toList = "\x7b\"type\":\"Pipeline\",\"pipeline_id\":".toList ++
        '\x22' :: (query.pipelineId.asStr.toList ++
          '\x22' :: (",\"limit\":" ++ toString query.limit.value ++ "\x7d").toList) := by
      unfold pipelineBody
      simp
    have hDigits := backslash_not_mem_toString query.limit.value
    exact plain_of_spelled h hBody (by simp) (by simpa using hDigits) hValue hField
  | processStatus query hUsize =>
    obtain ⟨name, hName⟩ := hField
    exact statusNamed_ne_unknown hName

end Requests

/-! ## A reader of flat objects -/

def readPlain : List Char → Option (List Char × List Char)
  | [] => none
  | char :: rest =>
    if char = '\x22' then some ([], rest)
    else if Plain char then (readPlain rest).map fun (text, rest) => (char :: text, rest)
    else none

def readNumber (text : List Char) : Option (Json × List Char) :=
  let digits := text.takeWhile Char.isDigit
  let value := Nat.ofDigitChars 10 digits 0
  if digits = Nat.toDigits 10 value ∧ value < 2 ^ 64 then
    some (.number (.ofNat value), text.dropWhile Char.isDigit)
  else none

def readValue : List Char → Option (Json × List Char)
  | '\x22' :: rest => (readPlain rest).map fun (text, rest) => (.string (String.ofList text), rest)
  | text => readNumber text

/-- At most as many fields as the text is long. -/
def readFields : Nat → List Char → Option (List (String × Json) × List Char)
  | 0, _ => none
  | fuel + 1, text =>
    match text with
    | '\x22' :: rest => do
      let (key, rest) ← readPlain rest
      match rest with
      | ':' :: rest =>
        let (value, rest) ← readValue rest
        match rest with
        | ',' :: rest =>
          let (fields, rest) ← readFields fuel rest
          return ((String.ofList key, value) :: fields, rest)
        | '\x7d' :: rest => return ([(String.ofList key, value)], rest)
        | _ => none
      | _ => none
    | _ => none

def readFlat (text : String) : Option Json :=
  match text.toList with
  | ['\x7b', '\x7d'] => some (.object [])
  | '\x7b' :: rest =>
    match readFields rest.length rest with
    | some (fields, []) => some (.object fields)
    | _ => none
  | _ => none

theorem readPlain_append {text : List Char} (h : ∀ char ∈ text, Plain char) (rest : List Char) :
    readPlain (text ++ '\x22' :: rest) = some (text, rest) := by
  induction text with
  | nil => simp [readPlain]
  | cons char text ih =>
    obtain ⟨hChar, hText⟩ := List.forall_mem_cons.mp h
    rw [List.cons_append, readPlain, if_neg hChar.1, if_pos hChar, ih hText]
    rfl

theorem readNumber_append (value : UInt64) {next : Char} (hNext : next.isDigit = false) (rest : List Char) :
    readNumber ((toString value.toNat).toList ++ next :: rest) = some (.number value, next :: rest) := by
  have hDigits : (toString value.toNat).toList = Nat.toDigits 10 value.toNat := by
    rw [Nat.toString_eq_repr, Nat.toList_repr]
  have hAll : ∀ char ∈ Nat.toDigits 10 value.toNat, char.isDigit = true := fun char hChar =>
    Nat.isDigit_of_mem_toDigits (by decide) (by decide) hChar
  have hTake : (Nat.toDigits 10 value.toNat ++ next :: rest).takeWhile Char.isDigit =
      Nat.toDigits 10 value.toNat := by
    rw [List.takeWhile_append_of_pos hAll, List.takeWhile_cons_of_neg (by simp [hNext]), List.append_nil]
  have hDrop : (Nat.toDigits 10 value.toNat ++ next :: rest).dropWhile Char.isDigit = next :: rest := by
    rw [List.dropWhile_append_of_pos hAll, List.dropWhile_cons_of_neg (by simp [hNext])]
  rw [readNumber, hDigits, hTake, hDrop]
  simp only [Nat.ofDigitChars_ten_toDigits, true_and]
  rw [if_pos value.toNat_lt, UInt64.ofNat_toNat]

theorem readValue_append {value : Json} (h : Json.Flat value) {next : Char} (hNext : next ∈ [',', '\x7d'])
    (rest : List Char) : readValue (value.print ++ next :: rest) = some (value, next :: rest) := by
  cases value with
  | string value =>
    rw [Json.print, quoted_append, escape_of_plain h, readValue, readPlain_append h]
    simp
  | number value =>
    have hDigit : next.isDigit = false := by
      rcases List.mem_cons.mp hNext with rfl | hNext
      · decide
      · rw [List.mem_singleton.mp hNext]
        decide
    rw [Json.print, readValue]
    · exact readNumber_append value hDigit rest
    · intro tail hTail
      have hQuote : '\x22' ∈ (toString value.toNat).toList ∨ next = '\x22' := by
        cases hDigits : (toString value.toNat).toList with
        | nil =>
          rw [hDigits] at hTail
          exact .inr (List.cons.inj hTail).1
        | cons first digits =>
          rw [hDigits] at hTail
          exact .inl ((List.cons.inj hTail).1 ▸ List.mem_cons_self)
      rcases hQuote with hMem | rfl
      · rw [Nat.toString_eq_repr, Nat.toList_repr] at hMem
        exact absurd (Nat.isDigit_of_mem_toDigits (by decide) (by decide) hMem) (by decide)
      · revert hNext
        decide
  | null | bool | otherNumber | array | object => exact absurd h (by simp [Json.Flat])

theorem readFields_append {fields : List (String × Json)} (hFields : fields ≠ [])
    (hFlat : ∀ field ∈ fields, (∀ char ∈ field.1.toList, Plain char) ∧ Json.Flat field.2) {fuel : Nat}
    (hFuel : fields.length ≤ fuel) (rest : List Char) :
    readFields fuel (Json.printFields fields ++ '\x7d' :: rest) = some (fields, rest) := by
  induction fields generalizing fuel with
  | nil => exact absurd rfl hFields
  | cons field fields ih =>
    obtain ⟨key, value⟩ := field
    obtain ⟨⟨hKey, hValue⟩, hFlat⟩ := List.forall_mem_cons.mp hFlat
    cases fuel with
    | zero => cases hFuel
    | succ fuel =>
      cases fields with
      | nil =>
        rw [Json.printFields, List.append_assoc, quoted_append, escape_of_plain hKey, readFields]
        simp [readPlain_append hKey, readValue_append hValue]
      | cons second fields =>
        have hRest := ih (List.cons_ne_nil _ _) hFlat (Nat.le_of_succ_le_succ hFuel)
        rw [Json.printFields, List.append_assoc, quoted_append, escape_of_plain hKey, readFields]
        · simp [readPlain_append hKey, readValue_append hValue, hRest]
        · simp

theorem readPlain_spells {text found rest : List Char} (h : readPlain text = some (found, rest)) :
    Spells text found rest := by
  induction text generalizing found with
  | nil => cases h
  | cons char text ih =>
    rw [readPlain] at h
    split at h
    · rename_i hQuote
      cases h
      rw [hQuote]
      exact .close rest
    · split at h
      · rename_i hPlain
        obtain ⟨⟨tail, after⟩, hTail, hPair⟩ := Option.map_eq_some_iff.mp h
        cases hPair
        exact .plain char hPlain (ih hTail)
      · cases h

theorem readValue_spelled {text rest : List Char} {value : Json} (h : readValue text = some (value, rest)) :
    rest <:+ text ∧ ∀ found, value = .string found → SpelledIn text found.toList := by
  rw [readValue.eq_def] at h
  split at h
  · rename_i tail
    obtain ⟨⟨found, after⟩, hRead, hPair⟩ := Option.map_eq_some_iff.mp h
    cases hPair
    have hSpells := readPlain_spells hRead
    refine ⟨hSpells.suffix.trans (List.suffix_cons _ _), ?_⟩
    rintro _ ⟨⟩
    rw [String.toList_ofList]
    exact ⟨[], tail, rest, rfl, hSpells⟩
  · rw [readNumber] at h
    split at h
    · cases h
      refine ⟨List.dropWhile_suffix _, ?_⟩
      rintro _ ⟨⟩
    · cases h

theorem readFields_spelled {fuel : Nat} {text rest : List Char} {fields : List (String × Json)}
    (h : readFields fuel text = some (fields, rest)) {key found : String}
    (hField : (key, Json.string found) ∈ fields) : SpelledIn text found.toList := by
  induction fuel generalizing text fields with
  | zero => cases h
  | succ fuel ih =>
    rw [readFields.eq_def] at h
    split at h
    · cases h
    rename_i more hMore
    obtain rfl := Nat.succ.inj hMore
    split at h
    · rename_i keyText
      obtain ⟨⟨name, afterKey⟩, hKey, hRest⟩ := Option.bind_eq_some_iff.mp h
      have hKeySuffix := (readPlain_spells hKey).suffix.trans (List.suffix_cons '\x22' _)
      simp only at hRest
      split at hRest
      · rename_i valueText
        obtain ⟨⟨value, afterValue⟩, hValue, hRest⟩ := Option.bind_eq_some_iff.mp hRest
        obtain ⟨hSuffix, hString⟩ := readValue_spelled hValue
        have hValueSuffix := (List.suffix_cons ':' valueText).trans hKeySuffix
        simp only at hRest
        split at hRest
        · rename_i moreText
          obtain ⟨⟨others, afterFields⟩, hOthers, hPair⟩ := Option.bind_eq_some_iff.mp hRest
          cases hPair
          rcases List.mem_cons.mp hField with hFirst | hOther
          · exact (hString found (Prod.mk.inj hFirst).2.symm).of_suffix hValueSuffix
          · refine (ih hOthers hOther).of_suffix ?_
            exact ((List.suffix_cons ',' moreText).trans hSuffix).trans hValueSuffix
        · cases hRest
          have hFirst := List.mem_singleton.mp hField
          exact (hString found (Prod.mk.inj hFirst).2.symm).of_suffix hValueSuffix
        · cases hRest
      · cases hRest
    · cases h

theorem length_le_printFields (fields : List (String × Json)) : fields.length ≤ (Json.printFields fields).length := by
  induction fields with
  | nil => exact Nat.zero_le _
  | cons field fields ih =>
    obtain ⟨key, value⟩ := field
    cases fields with
    | nil =>
      simp only [Json.printFields, List.length_append, List.length_cons, List.length_nil]
      omega
    | cons second fields =>
      rw [Json.printFields]
      · simp only [List.length_append, List.length_cons] at ih ⊢
        omega
      · simp

/-- The reader reads what `serde_json` is relied on to read. -/
theorem readsJson_readFlat : ReadsJson readFlat where
  object fields text hText hKeys hFlat := by
    refine ⟨.object fields, ?_, fun _ => rfl⟩
    rw [readFlat, hText, Json.print]
    cases fields with
    | nil => rfl
    | cons field fields =>
      have hLength := length_le_printFields (field :: fields)
      have hRead := @readFields_append (field :: fields) (List.cons_ne_nil _ _) hFlat
        (Json.printFields (field :: fields) ++ ['\x7d']).length (by rw [List.length_append]; omega) []
      split
      · rename_i hEmpty
        have hShort := congrArg List.length (List.cons.inj hEmpty).2
        rw [List.length_append] at hShort
        simp only [List.length_cons, List.length_nil] at hShort hLength
        omega
      · rename_i rest _ hRest
        rw [← (List.cons.inj hRest).2, hRead]
      · rename_i hNone
        exact absurd rfl (hNone _)
  spelled text value key found hValue hField := by
    rw [readFlat] at hValue
    split at hValue
    · cases hValue
      cases hField
    · rename_i rest _ hText
      split at hValue
      · rename_i fields hRead
        cases hValue
        rw [hText]
        refine SpelledIn.of_suffix ?_ (List.suffix_cons _ _)
        obtain ⟨json, hJson, hString⟩ := Option.bind_eq_some_iff.mp hField
        obtain ⟨⟨name, other⟩, hFind, rfl⟩ := Option.map_eq_some_iff.mp hJson
        have hMem := List.mem_of_find?_eq_some hFind
        cases other with
        | string other =>
          cases hString
          exact readFields_spelled hRead hMem
        | null | bool | number | otherNumber | array | object => cases hString
      · cases hValue
    · cases hValue

/-! ## Peers and the queries sent to them -/

/-- A peer decodes exactly the query that was sent if and only if nothing in it would have to be escaped and its
status is one that peers know. -/
theorem peerQuery_decoded_iff {fromStr : String → Option Json} (h : ReadsJson fromStr) (query : PeerQuery) :
    queryRequest fromStr query.body = .ok query.request ↔ query.Sendable :=
  ⟨sendable_of_decoded h, peerQuery_decoded h⟩

def sentQueries : List PeerQuery :=
  [.processInstance ⟨⟨"instance-a"⟩⟩, .pipeline ⟨⟨"pipeline-a"⟩, ⟨10, by decide⟩⟩ (by decide),
    .processStatus ⟨.failed, ⟨1, by decide⟩⟩ (by decide)]

theorem peerQuery_decoded_iff_sent :
    sentQueries.map (fun query => queryRequest readFlat query.body) =
      sentQueries.map fun query => .ok query.request := by
  refine List.map_congr_left fun query hQuery => ?_
  refine (peerQuery_decoded_iff readsJson_readFlat query).mpr ?_
  simp only [sentQueries, List.mem_cons, List.not_mem_nil, or_false] at hQuery
  rcases hQuery with rfl | rfl | rfl
  · simp [PeerQuery.Sendable, Plain]
  · simp [PeerQuery.Sendable, Plain]
  · simp [PeerQuery.Sendable]

/-- An id with a quote in it, and the status of an instance without any known event. -/
theorem quote_and_unknown_not_decoded :
    queryRequest readFlat (PeerQuery.processInstance ⟨⟨"instance\"a"⟩⟩).body ≠
        .ok (PeerQuery.processInstance ⟨⟨"instance\"a"⟩⟩).request ∧
      queryRequest readFlat (PeerQuery.processStatus ⟨.unknown, ⟨10, by decide⟩⟩ (by decide)).body ≠
        .ok (PeerQuery.processStatus ⟨.unknown, ⟨10, by decide⟩⟩ (by decide)).request := by
  refine ⟨fun hDecoded => ?_, fun hDecoded => ?_⟩
  · have hPlain := sendable_of_decoded readsJson_readFlat hDecoded
    exact (hPlain '\x22' (by simp)).1 rfl
  · exact sendable_of_decoded readsJson_readFlat hDecoded rfl

end Vannak.Daemon
