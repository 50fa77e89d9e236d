import Vannak.Foundation.Json
import Vannak.Process.Queries
import Vannak.Provenance

/-!
# Peer query results on the wire

A node answers a peer with `serialize_query_result`, printed by `serde_json`; the asking node
reads the text with `parse_query_result_json`, which looks for the fields by their printed
starts. The keys of an object are printed in sorted order, so that a pipeline id is printed
before the process instance id that the reader takes as the start of an instance.
-/

namespace Vannak.Daemon

open Foundation Process

set_option autoImplicit false

/-- What `to_string` of `serde_json` prints: no spaces, keys in the order of the map, and control characters, quotes
and backslashes escaped. -/
def Prints (toText : Json → String) : Prop := ∀ value, (toText value).toList = value.print

/-- The `Debug` text. -/
def statusName : ProcessStatus → String
  | .unknown => "Unknown"
  | .active => "Active"
  | .completed => "Completed"
  | .failed => "Failed"
  | .cancelled => "Cancelled"

/-! ## Printing -/

def instanceJson (snapshot : ProcessInstanceSnapshot) : Json :=
  .ofFields [("process_instance_id", .string snapshot.processInstanceId.asStr),
    ("pipeline_id", .string snapshot.pipelineId.asStr), ("status", .string (statusName snapshot.status))]

/-- The value printed by `serialize_query_result` for `ProcessInstances`. -/
def processInstancesJson (instances : List ProcessInstanceSnapshot) : Json :=
  .ofFields [("type", .string "ProcessInstances"), ("instance", .array (instances.map instanceJson))]

def serializeProcessInstances (toText : Json → String) (instances : List ProcessInstanceSnapshot) : String :=
  toText (processInstancesJson instances)

/-! ## Reading -/

/-- `&text[..text.find('"').unwrap_or(0)]`. -/
def beforeQuote (text : List Char) : List Char :=
  if '\x22' ∈ text then text.takeWhile (· ≠ '\x22') else []

/-- `&text[text.find('"').unwrap_or(0) + 1..]`, which panics outside of the text and within a character. -/
def afterQuote (text : List Char) : Option (List Char) :=
  if '\x22' ∈ text then some ((text.dropWhile (· ≠ '\x22')).drop 1)
  else
    match text with
    | [] => none
    | first :: rest => if first.utf8Size = 1 then some rest else none

/-- The start of a field as the reader looks for it. -/
def fieldText (key : String) : List Char := fieldStart key.toList

def peerStatus (name : List Char) : ProcessStatus :=
  if name = "Active".toList then .active
  else if name = "Completed".toList then .completed
  else if name = "Failed".toList then .failed
  else if name = "Cancelled".toList then .cancelled
  else .active

def peerSnapshot (processInstanceId pipelineId : List Char) (status : ProcessStatus) : ProcessInstanceSnapshot where
  processInstanceId := ⟨String.ofList processInstanceId⟩
  pipelineId := ⟨String.ofList pipelineId⟩
  tenantId := ⟨""⟩
  environmentId := ⟨""⟩
  processDefinitionId := ⟨""⟩
  processVersion := none
  currentActivityId := none
  status := status
  startedAt := none
  lastUpdatedAt := ⟨"1970-01-01T00:00:00Z"⟩
  completedAt := none
  correlationId := none
  businessKey := none
  tokenId := none
  activities := ∅
  activityEnteredAt := ∅
  activityDurations := ∅
  metadataRefs := []
  retryCount := 0
  lastError := none

/-- The instance whose id starts here. -/
def readInstance (afterField : List Char) : ProcessInstanceSnapshot :=
  let pipelineId :=
    match after? (fieldText "pipeline_id") afterField with
    | some afterPipe => beforeQuote afterPipe
    | none => []
  let status :=
    match after? (fieldText "status") afterField with
    | some afterStat => peerStatus (beforeQuote afterStat)
    | none => .active
  peerSnapshot (beforeQuote afterField) pipelineId status

/-- The loop; `none` is a panic. Each round takes a field start off the text, so that the length of the text
bounds the rounds. -/
def readInstances : Nat → List Char → List ProcessInstanceSnapshot → Option (List ProcessInstanceSnapshot)
  | 0, _, instances => some instances
  | fuel + 1, rest, instances =>
    match after? (fieldText "process_instance_id") rest with
    | none => some instances
    | some afterField => do
      readInstances fuel (← afterQuote afterField) (instances ++ [readInstance afterField])

/-- `str::trim`. -/
def trim (text : List Char) : List Char :=
  ((text.dropWhile isWhitespace).reverse.dropWhile isWhitespace).reverse

/-- `parse_query_result_json`, which only ever returns `ProcessInstances`; the outer `none` is a panic. -/
def parseQueryResultJson (json : String) : Option (Option (List ProcessInstanceSnapshot)) :=
  let body := trim json.toList
  if after? "\"type\":\"ProcessInstances\"".toList body ≠ none then do
    let instances ← readInstances body.length body []
    if instances = [] ∧ after? "\"error\"".toList body ≠ none then some none else some (some instances)
  else some none

theorem after?_length {needle text rest : List Char} (h : after? needle text = some rest) :
    rest.length + needle.length ≤ text.length := by
  induction text with
  | nil =>
    rw [after?] at h
    split at h
    · rename_i hNeedle
      cases h
      rw [hNeedle]
      exact Nat.le_refl _
    · cases h
  | cons char text ih =>
    rw [after?] at h
    split at h
    · rename_i hPrefix
      cases h
      have hLength := (List.isPrefixOf_iff_prefix.mp hPrefix).length_le
      rw [List.length_drop]
      omega
    · exact (ih h).trans (Nat.le_succ _)

theorem afterQuote_length {text rest : List Char} (h : afterQuote text = some rest) : rest.length ≤ text.length := by
  rw [afterQuote.eq_def] at h
  split at h
  · cases h
    rw [List.length_drop]
    exact (Nat.sub_le _ _).trans (List.dropWhile_sublist _).length_le
  · split at h
    · cases h
    · split at h
      · cases h
        exact Nat.le_succ _
      · cases h

/-- Rounds beyond the length of the text change nothing. -/
theorem readInstances_succ {fuel : Nat} {rest : List Char} (h : rest.length ≤ fuel)
    (instances : List ProcessInstanceSnapshot) :
    readInstances (fuel + 1) rest instances = readInstances fuel rest instances := by
  induction fuel generalizing rest instances with
  | zero =>
    obtain rfl := List.length_eq_zero_iff.mp (Nat.le_zero.mp h)
    rfl
  | succ fuel ih =>
    rw [readInstances, readInstances]
    cases hField : after? (fieldText "process_instance_id") rest with
    | none => rfl
    | some afterField =>
      have hLength := after?_length hField
      cases hQuote : afterQuote afterField with
      | none => simp only [hQuote, Option.bind_eq_bind, Option.bind_none]
      | some next =>
        have hNext := afterQuote_length hQuote
        simp only [hQuote, Option.bind_eq_bind, Option.bind_some]
        refine ih ?_ _
        rw [fieldText, fieldStart, List.length_cons] at hLength
        omega

/-! ## Quotes -/

theorem beforeQuote_append {body : List Char} (h : '\x22' ∉ body) (rest : List Char) :
    beforeQuote (body ++ '\x22' :: rest) = body := by
  have hBody : ∀ char ∈ body, decide (char ≠ '\x22') = true := by
    intro char hChar
    exact decide_eq_true fun hQuote => h (hQuote ▸ hChar)
  rw [beforeQuote, if_pos (by simp), List.takeWhile_append_of_pos hBody]
  simp

theorem afterQuote_append {body : List Char} (h : '\x22' ∉ body) (rest : List Char) :
    afterQuote (body ++ '\x22' :: rest) = some rest := by
  have hBody : ∀ char ∈ body, decide (char ≠ '\x22') = true := by
    intro char hChar
    exact decide_eq_true fun hQuote => h (hQuote ▸ hChar)
  rw [afterQuote.eq_def, if_pos (by simp), List.dropWhile_append_of_pos hBody]
  simp

/-- The reader's idea of where a printed string ends. -/
def cut (text : List Char) : List Char := (escape text).takeWhile (· ≠ '\x22')

/-- A printed string up to its first quote, escaped or closing. -/
theorem escape_cases (text : List Char) :
    '\x22' ∉ escape text ∧ cut text = escape text ∨
      ∃ last, '\x22' ∉ cut text ∧ escape text = cut text ++ '\x22' :: escape last := by
  by_cases hQuote : '\x22' ∈ text
  · obtain ⟨first, last, rfl, hFirst⟩ := List.eq_append_cons_of_mem hQuote
    have hBody : '\x22' ∉ escape first ++ ['\\'] := by
      rw [List.mem_append, quote_mem_escape]
      simp [hFirst]
    have hSplit : escape (first ++ '\x22' :: last) = (escape first ++ ['\\']) ++ '\x22' :: escape last := by
      have hEscaped : escapeChar '\x22' = ['\\', '\x22'] := by decide
      rw [escape_append, escape_cons, hEscaped, List.append_assoc]
      rfl
    have hCut : cut (first ++ '\x22' :: last) = escape first ++ ['\\'] := by
      have hPositive : ∀ char ∈ escape first ++ ['\\'], decide (char ≠ '\x22') = true := by
        intro char hChar
        exact decide_eq_true fun hSame => hBody (hSame ▸ hChar)
      rw [cut, hSplit, List.takeWhile_append_of_pos hPositive]
      simp
    exact .inr ⟨last, hCut ▸ hBody, hCut ▸ hSplit⟩
  · have hEscape := mt quote_mem_escape.mp hQuote
    refine .inl ⟨hEscape, List.takeWhile_eq_self_iff.mpr fun char hChar => ?_⟩
    exact decide_eq_true fun hSame => hEscape (hSame ▸ hChar)

theorem beforeQuote_escape (text rest : List Char) : beforeQuote (escape text ++ '\x22' :: rest) = cut text := by
  rcases escape_cases text with ⟨hQuote, hCut⟩ | ⟨last, hQuote, hSplit⟩
  · rw [beforeQuote_append hQuote, hCut]
  · rw [hSplit, List.append_assoc, List.cons_append, beforeQuote_append hQuote]

/-- What is read is the string that was printed only if nothing in it was escaped. -/
theorem cut_eq_self_iff {text : List Char} : cut text = text ↔ ∀ char ∈ text, Plain char := by
  rw [← escape_eq_self_iff]
  rcases escape_cases text with ⟨-, hCut⟩ | ⟨last, hQuote, hSplit⟩
  · rw [hCut]
  · constructor
    · intro hSame
      have hMem : '\x22' ∈ text := quote_mem_escape.mp (by simp [hSplit])
      exact absurd (hSame.symm ▸ hMem) hQuote
    · intro hSame
      have hMem : '\x22' ∈ text := quote_mem_escape.mp (by simp [hSplit])
      have hPlain := escape_eq_self_iff.mp hSame
      exact absurd rfl (hPlain _ hMem).1

/-! ## Reading what was printed -/

def instanceText (snapshot : ProcessInstanceSnapshot) : List Char := (instanceJson snapshot).print

/-- From the id of an instance on. -/
def afterId (snapshot : ProcessInstanceSnapshot) (rest : List Char) : List Char :=
  escape snapshot.processInstanceId.asStr.toList ++ '\x22' :: ',' :: (quoted "status".toList ++ ':' ::
    (quoted (statusName snapshot.status).toList ++ '\x7d' :: rest))

/-- What follows the instances. -/
def closingText : List Char :=
  ']' :: ',' :: (quoted "type".toList ++ ':' :: (quoted "ProcessInstances".toList ++ ['\x7d']))

/-- What follows an instance. -/
def moreText : List ProcessInstanceSnapshot → List Char
  | [] => closingText
  | snapshot :: snapshots => ',' :: (instanceText snapshot ++ moreText snapshots)

theorem instanceText_append (snapshot : ProcessInstanceSnapshot) (rest : List Char) :
    instanceText snapshot ++ rest = '\x7b' :: (quoted "pipeline_id".toList ++ ':' ::
      (quoted snapshot.pipelineId.asStr.toList ++ ',' :: (quoted "process_instance_id".toList ++ ':' ::
        (quoted snapshot.processInstanceId.asStr.toList ++ ',' :: (quoted "status".toList ++ ':' ::
          (quoted (statusName snapshot.status).toList ++ '\x7d' :: rest)))))) := by
  have hSorted : instanceJson snapshot = .object [("pipeline_id", .string snapshot.pipelineId.asStr),
      ("process_instance_id", .string snapshot.processInstanceId.asStr),
      ("status", .string (statusName snapshot.status))] := by
    have hFirst : ¬"process_instance_id" ≤ "pipeline_id" := by decide
    have hSecond : "process_instance_id" ≤ "status" := by decide
    have hThird : "pipeline_id" ≤ "status" := by decide
    simp [instanceJson, Json.ofFields, List.insertionSort, List.orderedInsert, hFirst, hSecond, hThird]
  rw [instanceText, hSorted]
  simp only [Json.print, Json.printFields, quoted, List.cons_append, List.append_assoc, List.nil_append]

theorem printItems_append (snapshot : ProcessInstanceSnapshot) (snapshots : List ProcessInstanceSnapshot) :
    Json.printItems ((snapshot :: snapshots).map instanceJson) ++ closingText =
      instanceText snapshot ++ moreText snapshots := by
  induction snapshots generalizing snapshot with
  | nil => rfl
  | cons second snapshots ih =>
    have hItems := ih second
    rw [List.map_cons] at hItems ⊢
    rw [List.map_cons, Json.printItems, List.append_assoc, List.cons_append, hItems]
    · rfl
    · simp

theorem print_processInstancesJson (snapshots : List ProcessInstanceSnapshot) :
    (processInstancesJson snapshots).print = '\x7b' :: (quoted "instance".toList ++ ':' :: '[' ::
      (Json.printItems (snapshots.map instanceJson) ++ closingText)) := by
  have hSorted : processInstancesJson snapshots = .object [("instance", .array (snapshots.map instanceJson)),
      ("type", .string "ProcessInstances")] := by
    have hOrder : ¬"type" ≤ "instance" := by decide
    simp [processInstancesJson, Json.ofFields, List.insertionSort, List.orderedInsert, hOrder]
  rw [hSorted]
  simp only [Json.print, Json.printFields, closingText, quoted, List.cons_append, List.append_assoc, List.nil_append]

/-- The keys consist of plain characters. -/
theorem plain_keys : ∀ key ∈ ["pipeline_id", "process_instance_id", "status", "instance", "type"],
    ∀ char ∈ key.toList, Plain char := by
  simp [Plain]

/-- The keys have none of the characters that follow a literal. -/
theorem not_mem_keys : ∀ key ∈ ["pipeline_id", "process_instance_id", "status"], ':' ∉ key.toList ∧
    ∀ next ∈ [',', '\x7d', ']'], next ∉ key.toList ++ ['\x22', ':'] := by
  simp

section Reading

variable {key : String} {text rest : List Char}

theorem after?_value (hKey : key ∈ ["pipeline_id", "process_instance_id", "status"]) {next : Char}
    (hNext : next ∈ [',', '\x7d', ']']) :
    after? (fieldText key) (quoted text ++ next :: rest) = after? (fieldText key) rest := by
  have hPlain := plain_keys key (List.mem_append_left ["instance", "type"] hKey)
  have hNotMem := (not_mem_keys key hKey).2 next hNext
  rw [fieldText, after?_quoted hPlain hNotMem, after?_of_ne_quote]
  rintro rfl
  exact hNotMem (List.mem_append_right _ List.mem_cons_self)

theorem after?_key (hKey : key ∈ ["pipeline_id", "process_instance_id", "status"]) {other : String}
    (hOther : other ∈ ["pipeline_id", "process_instance_id", "status", "instance", "type"]) (hNe : other ≠ key) :
    after? (fieldText key) (quoted other.toList ++ ':' :: rest) = after? (fieldText key) rest := by
  have hPlain := plain_keys key (List.mem_append_left ["instance", "type"] hKey)
  have hNeList : other.toList ≠ key.toList := fun hSame => hNe (String.toList_injective hSame)
  rw [fieldText, after?_other_key hPlain (not_mem_keys key hKey).1 (plain_keys other hOther) hNeList,
    after?_of_ne_quote (by decide)]

theorem after?_found (hKey : key ∈ ["pipeline_id", "process_instance_id", "status"]) :
    after? (fieldText key) (quoted key.toList ++ ':' :: (quoted text ++ rest)) =
      some (escape text ++ '\x22' :: rest) := by
  rw [quoted_append text]
  exact after?_same_key (plain_keys key (List.mem_append_left ["instance", "type"] hKey))

theorem after?_literal (hKey : key ∈ ["pipeline_id", "process_instance_id", "status"]) {next : Char}
    (hNext : next ∈ [',', '\x7d', ']']) :
    after? (fieldText key) (escape text ++ '\x22' :: next :: rest) = after? (fieldText key) rest := by
  have hNotMem := (not_mem_keys key hKey).2 next hNext
  rw [fieldText, after?_escape (plain_keys key (List.mem_append_left ["instance", "type"] hKey)) hNotMem,
    after?_of_ne_quote]
  rintro rfl
  exact hNotMem (List.mem_append_right _ List.mem_cons_self)

theorem after?_punctuation {next : Char} (hNext : next ∈ [',', ':', '[', ']', '\x7b', '\x7d']) :
    after? (fieldText key) (next :: rest) = after? (fieldText key) rest := by
  refine after?_of_ne_quote ?_
  rintro rfl
  revert hNext
  decide

end Reading

section Instance

variable (snapshot : ProcessInstanceSnapshot) (rest : List Char)

theorem after?_instanceText :
    after? (fieldText "process_instance_id") (instanceText snapshot ++ rest) = some (afterId snapshot rest) := by
  rw [instanceText_append, after?_punctuation (by decide), after?_key (by decide) (by decide) (by decide),
    after?_value (by decide) (by decide), after?_found (by decide), afterId]

theorem after?_pipeline_instanceText :
    ∃ later, after? (fieldText "pipeline_id") (instanceText snapshot ++ rest) =
      some (escape snapshot.pipelineId.asStr.toList ++ '\x22' :: later) := by
  rw [instanceText_append, after?_punctuation (by decide), after?_found (by decide)]
  exact ⟨_, rfl⟩

/-- After the id of an instance the next pipeline id is that of the next instance. -/
theorem after?_pipeline_afterId :
    after? (fieldText "pipeline_id") (afterId snapshot rest) = after? (fieldText "pipeline_id") rest := by
  rw [afterId, after?_literal (by decide) (by decide), after?_key (by decide) (by decide) (by decide),
    after?_value (by decide) (by decide)]

theorem after?_status_afterId :
    after? (fieldText "status") (afterId snapshot rest) =
      some (escape (statusName snapshot.status).toList ++ '\x22' :: '\x7d' :: rest) := by
  rw [afterId, after?_literal (by decide) (by decide), after?_found (by decide)]

theorem after?_key_afterStatus :
    after? (fieldText "process_instance_id") (quoted "status".toList ++ ':' ::
      (quoted (statusName snapshot.status).toList ++ '\x7d' :: rest)) =
        after? (fieldText "process_instance_id") rest := by
  rw [after?_key (by decide) (by decide) (by decide), after?_value (by decide) (by decide)]

theorem beforeQuote_afterId : beforeQuote (afterId snapshot rest) = cut snapshot.processInstanceId.asStr.toList :=
  beforeQuote_escape _ _

/-- Whatever the id contains, the search goes on with the next instance. -/
theorem exists_afterQuote :
    ∃ next, afterQuote (afterId snapshot rest) = some next ∧
      after? (fieldText "process_instance_id") next = after? (fieldText "process_instance_id") rest := by
  rw [afterId]
  rcases escape_cases snapshot.processInstanceId.asStr.toList with ⟨hQuote, -⟩ | ⟨last, hQuote, hSplit⟩
  · refine ⟨_, afterQuote_append hQuote _, ?_⟩
    rw [after?_punctuation (by decide), after?_key_afterStatus]
  · rw [hSplit, List.append_assoc, List.cons_append, afterQuote_append hQuote]
    refine ⟨_, rfl, ?_⟩
    rw [after?_literal (by decide) (by decide), after?_key_afterStatus]

end Instance

theorem statusName_read (status : ProcessStatus) :
    peerStatus (cut (statusName status).toList) = if status = .unknown then .active else status := by
  cases status <;> decide

/-- The pipeline id that the reader takes for the instance before. -/
def nextPipeline : List ProcessInstanceSnapshot → List Char
  | [] => []
  | next :: _ => cut next.pipelineId.asStr.toList

/-- What the reader makes of printed instances. -/
def readBack : List ProcessInstanceSnapshot → List ProcessInstanceSnapshot
  | [] => []
  | snapshot :: snapshots =>
    peerSnapshot (cut snapshot.processInstanceId.asStr.toList) (nextPipeline snapshots)
      (if snapshot.status = .unknown then .active else snapshot.status) :: readBack snapshots

theorem after?_closingText {key : String} (hKey : key ∈ ["pipeline_id", "process_instance_id", "status"]) :
    after? (fieldText key) closingText = none := by
  have hType : "type" ≠ key := by
    rintro rfl
    revert hKey
    decide
  rw [closingText, after?_punctuation (by decide), after?_punctuation (by decide), after?_key hKey (by decide) hType,
    after?_value hKey (by decide)]
  rfl

theorem readInstance_afterId (snapshot : ProcessInstanceSnapshot) (snapshots : List ProcessInstanceSnapshot) :
    readInstance (afterId snapshot (moreText snapshots)) =
      peerSnapshot (cut snapshot.processInstanceId.asStr.toList) (nextPipeline snapshots)
        (if snapshot.status = .unknown then .active else snapshot.status) := by
  rw [readInstance, beforeQuote_afterId, after?_pipeline_afterId, after?_status_afterId]
  simp only [beforeQuote_escape, statusName_read]
  cases snapshots with
  | nil =>
    rw [moreText, after?_closingText (by decide)]
    rfl
  | cons next snapshots =>
    obtain ⟨later, hLater⟩ := after?_pipeline_instanceText next (moreText snapshots)
    rw [moreText, after?_punctuation (by decide), hLater]
    simp only [beforeQuote_escape, nextPipeline]

theorem readInstances_moreText {fuel : Nat} {rest : List Char} {snapshots : List ProcessInstanceSnapshot}
    (hFuel : snapshots.length ≤ fuel)
    (hRest : after? (fieldText "process_instance_id") rest =
      after? (fieldText "process_instance_id") (moreText snapshots))
    (instances : List ProcessInstanceSnapshot) :
    readInstances fuel rest instances = some (instances ++ readBack snapshots) := by
  induction snapshots generalizing fuel rest instances with
  | nil =>
    rw [readBack, List.append_nil]
    cases fuel with
    | zero => rfl
    | succ fuel => rw [readInstances, hRest, moreText, after?_closingText (by decide)]
  | cons snapshot snapshots ih =>
    cases fuel with
    | zero => cases hFuel
    | succ fuel =>
      obtain ⟨next, hNext, hMore⟩ := exists_afterQuote snapshot (moreText snapshots)
      rw [readInstances, hRest, moreText, after?_punctuation (by decide), after?_instanceText]
      simp only [hNext, Option.bind_eq_bind, Option.bind_some]
      rw [ih (Nat.le_of_succ_le_succ hFuel) hMore, readInstance_afterId, readBack, List.append_assoc,
        List.singleton_append]

/-! ## The round trip -/

theorem after?_ne_none_of_infix {needle before after : List Char} :
    after? needle (before ++ needle ++ after) ≠ none := by
  induction before with
  | nil =>
    by_cases hEmpty : needle = []
    · subst hEmpty
      cases after <;> simp [after?]
    · rw [List.nil_append, after?_append _ _ hEmpty]
      exact Option.some_ne_none _
  | cons char before ih =>
    rw [List.cons_append, List.cons_append, after?]
    split
    · exact Option.some_ne_none _
    · exact ih

theorem trim_of_braces (inner : List Char) :
    trim ('\x7b' :: (inner ++ ['\x7d'])) = '\x7b' :: (inner ++ ['\x7d']) := by
  have hOpen : isWhitespace '\x7b' = false := by decide
  have hClose : isWhitespace '\x7d' = false := by decide
  simp [trim, hOpen, hClose]

/-- The text of the answer. -/
def answerText (snapshots : List ProcessInstanceSnapshot) : List Char :=
  '\x7b' :: (quoted "instance".toList ++ ':' :: '[' :: (Json.printItems (snapshots.map instanceJson) ++ closingText))

theorem trim_answerText (snapshots : List ProcessInstanceSnapshot) :
    trim (answerText snapshots) = answerText snapshots := by
  obtain ⟨inner, hInner⟩ : ∃ inner, answerText snapshots = '\x7b' :: (inner ++ ['\x7d']) := by
    refine ⟨quoted "instance".toList ++ ':' :: '[' :: (Json.printItems (snapshots.map instanceJson) ++ ']' :: ',' ::
      (quoted "type".toList ++ ':' :: quoted "ProcessInstances".toList)), ?_⟩
    simp [answerText, closingText]
  rw [hInner, trim_of_braces]

/-- The search for the instances starts as after an instance. -/
theorem after?_printItems (snapshots : List ProcessInstanceSnapshot) :
    after? (fieldText "process_instance_id") (Json.printItems (snapshots.map instanceJson) ++ closingText) =
      after? (fieldText "process_instance_id") (moreText snapshots) := by
  cases snapshots with
  | nil => rfl
  | cons snapshot snapshots => rw [printItems_append, moreText, after?_punctuation (by decide)]

theorem length_le_moreText (snapshots : List ProcessInstanceSnapshot) :
    snapshots.length ≤ (moreText snapshots).length := by
  induction snapshots with
  | nil => exact Nat.zero_le _
  | cons snapshot snapshots ih =>
    rw [moreText, List.length_cons, List.length_cons, List.length_append]
    omega

theorem length_le_answerText (snapshots : List ProcessInstanceSnapshot) :
    snapshots.length ≤ (answerText snapshots).length := by
  have hMore := length_le_moreText snapshots
  cases snapshots with
  | nil => exact Nat.zero_le _
  | cons snapshot snapshots =>
    rw [moreText, List.length_cons] at hMore
    rw [answerText, printItems_append]
    simp only [List.length_cons, List.length_append] at hMore ⊢
    omega

/-- What the asking node makes of an answer. -/
theorem parse_serialize {toText : Json → String} (hPrints : Prints toText)
    (snapshots : List ProcessInstanceSnapshot) :
    parseQueryResultJson (serializeProcessInstances toText snapshots) = some (some (readBack snapshots)) := by
  have hBody : trim (serializeProcessInstances toText snapshots).toList = answerText snapshots := by
    rw [serializeProcessInstances, hPrints, print_processInstancesJson]
    exact trim_answerText snapshots
  have hType : after? "\"type\":\"ProcessInstances\"".toList (answerText snapshots) ≠ none := by
    have hSplit : answerText snapshots = ('\x7b' :: (quoted "instance".toList ++ ':' :: '[' ::
        (Json.printItems (snapshots.map instanceJson) ++ [']', ',']))) ++
          "\"type\":\"ProcessInstances\"".toList ++ ['\x7d'] := by
      have hNeedle : "\"type\":\"ProcessInstances\"".toList =
          quoted "type".toList ++ ':' :: quoted "ProcessInstances".toList := by
        decide
      rw [hNeedle]
      simp [answerText, closingText]
    rw [hSplit]
    exact after?_ne_none_of_infix
  have hRead : readInstances (answerText snapshots).length (answerText snapshots) [] = some (readBack snapshots) := by
    refine readInstances_moreText (length_le_answerText snapshots) ?_ []
    rw [answerText, after?_punctuation (by decide), after?_key (by decide) (by decide) (by decide),
      after?_punctuation (by decide), after?_printItems]
  rw [parseQueryResultJson]
  simp only [hBody, if_pos hType, hRead, Option.bind_eq_bind, Option.bind_some]
  cases snapshots with
  | nil =>
    have hError : after? "\"error\"".toList (answerText []) = none := by decide
    simp only [hError]
    rfl
  | cons snapshot snapshots => simp [readBack]

/-- The part of a snapshot that is sent. -/
def sent (snapshot : ProcessInstanceSnapshot) : ProcessInstanceId × PipelineId × ProcessStatus :=
  (snapshot.processInstanceId, snapshot.pipelineId, snapshot.status)

/-- Nothing in the id is escaped, there is no pipeline id, and the status is known to the reader. -/
def Survives (snapshot : ProcessInstanceSnapshot) : Prop :=
  (∀ char ∈ snapshot.processInstanceId.asStr.toList, Plain char) ∧ snapshot.pipelineId.asStr = "" ∧
    snapshot.status ≠ .unknown

instance (snapshot : ProcessInstanceSnapshot) : Decidable (Survives snapshot) :=
  inferInstanceAs (Decidable (_ ∧ _ ∧ _))

theorem ofList_eq_iff {kind : IdKind} {text : List Char} {id : StringId kind} :
    (⟨String.ofList text⟩ : StringId kind) = id ↔ text = id.asStr.toList := by
  constructor
  · rintro rfl
    exact String.toList_ofList.symm
  · rintro rfl
    rw [String.ofList_toList]

theorem readBack_sent_iff (snapshots : List ProcessInstanceSnapshot) :
    (readBack snapshots).map sent = snapshots.map sent ↔ ∀ snapshot ∈ snapshots, Survives snapshot := by
  induction snapshots with
  | nil => simp [readBack]
  | cons snapshot snapshots ih =>
    have hPipeline : (∀ other ∈ snapshots, Survives other) → nextPipeline snapshots = [] := by
      intro hAll
      cases snapshots with
      | nil => rfl
      | cons next snapshots =>
        rw [nextPipeline, (hAll next List.mem_cons_self).2.1]
        rfl
    have hStatus : (if snapshot.status = .unknown then .active else snapshot.status) = snapshot.status ↔
        snapshot.status ≠ .unknown := by
      cases snapshot.status <;> decide
    have hEmpty : [] = snapshot.pipelineId.asStr.toList ↔ snapshot.pipelineId.asStr = "" := by
      rw [eq_comm, String.toList_eq_nil_iff]
    rw [readBack, List.map_cons, List.map_cons, List.cons.injEq, ih, List.forall_mem_cons]
    refine and_congr_left fun hAll => ?_
    simp only [sent, peerSnapshot, hPipeline hAll, Prod.mk.injEq, ofList_eq_iff, cut_eq_self_iff, hStatus, hEmpty,
      Survives]

/-- The answer comes back with the ids, pipelines and statuses that were sent. -/
def SurvivesWire (toText : Json → String) (snapshots : List ProcessInstanceSnapshot) : Prop :=
  ∃ received, parseQueryResultJson (serializeProcessInstances toText snapshots) = some (some received) ∧
    received.map sent = snapshots.map sent

/-- Only instances without a pipeline id survive: the pipeline id that is printed before an id is given to the
instance before, and the last instance gets none. -/
theorem survivesWire_iff {toText : Json → String} (hPrints : Prints toText)
    (snapshots : List ProcessInstanceSnapshot) :
    SurvivesWire toText snapshots ↔ ∀ snapshot ∈ snapshots, Survives snapshot := by
  rw [SurvivesWire, parse_serialize hPrints, ← readBack_sent_iff]
  simp

def compactText (value : Json) : String := String.ofList value.print

theorem prints_compactText : Prints compactText := fun _ => String.toList_ofList

/-- An instance without a pipeline id, which no accepted event has. -/
def bareSnapshot : ProcessInstanceSnapshot := peerSnapshot "instance-a".toList [] .failed

theorem survivesWire_iff_bare : SurvivesWire compactText [bareSnapshot] :=
  (survivesWire_iff prints_compactText [bareSnapshot]).mpr (by simp [Survives, bareSnapshot, peerSnapshot, Plain])

/-- Two instances of two pipelines: the first comes back with the pipeline of the second. -/
theorem pipeline_lost_on_wire :
    ¬SurvivesWire compactText [peerSnapshot "instance-a".toList "pipeline-a".toList .active,
      peerSnapshot "instance-b".toList "pipeline-b".toList .completed] := by
  rintro ⟨received, hParse, hSent⟩
  rw [parse_serialize prints_compactText] at hParse
  obtain rfl := Option.some.inj (Option.some.inj hParse)
  revert hSent
  decide

end Vannak.Daemon
