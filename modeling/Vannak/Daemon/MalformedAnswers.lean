import Vannak.Daemon.QueryWire
import Vannak.Foundation.Slices

/-!
# Malformed peer answers

`parse_query_result_json` with the byte offsets of its slices. The reader steps over the quotation mark that closes
an instance id. It takes the offset 0 for a missing one and then cuts one byte off what follows the field start, which
may be empty or start with a longer character.
-/

namespace Vannak.Daemon

open Foundation Process

set_option autoImplicit false

/-- How a run of the reader ends. -/
inductive ReaderRun (α : Type) where
  | returned (value : α)
  | panicked
  | outOfRounds

/-- The value of a field after the start of another one: none if the field does not occur, and no value at all if a
slice panics. -/
def fieldAfter (key : String) (afterField : List Char) : Option (Option (List Char)) :=
  match find? (fieldText key) afterField with
  | none => some none
  | some start => do
    let after ← sliceFrom (start + byteLen (fieldText key)) afterField
    let stop := (find? ['\x22'] after).getD 0
    return some (← sliceTo stop after)

/-- One round of the loop: the instance and the rest of the text. -/
def readRound (start : Nat) (rest : List Char) : Option (ProcessInstanceSnapshot × List Char) := do
  let afterField ← sliceFrom (start + byteLen (fieldText "process_instance_id")) rest
  let idEnd := (find? ['\x22'] afterField).getD 0
  let id ← sliceTo idEnd afterField
  let pipelineId ← fieldAfter "pipeline_id" afterField
  let status ← fieldAfter "status" afterField
  let next ← sliceFrom (idEnd + 1) afterField
  return (peerSnapshot id (pipelineId.getD []) ((status.map peerStatus).getD .active), next)

/-- `while let Some(start) = rest.find(..)`, for at most so many rounds. -/
def readRounds : Nat → List Char → List ProcessInstanceSnapshot → ReaderRun (List ProcessInstanceSnapshot)
  | 0, _, _ => .outOfRounds
  | rounds + 1, rest, instances =>
    match find? (fieldText "process_instance_id") rest with
    | none => .returned instances
    | some start =>
      match readRound start rest with
      | none => .panicked
      | some (snapshot, next) => readRounds rounds next (instances ++ [snapshot])

def typeText : List Char := "\"type\":\"ProcessInstances\"".toList

/-- `parse_query_result_json`; a text has fewer field starts than bytes. -/
def parseByOffsets (json : String) : ReaderRun (Option (List ProcessInstanceSnapshot)) :=
  let body := trim json.toList
  if (find? typeText body).isSome then
    match readRounds (byteLen body + 1) body [] with
    | .returned instances =>
      if instances = [] ∧ (find? "\"error\"".toList body).isSome then .returned none else .returned (some instances)
    | .panicked => .panicked
    | .outOfRounds => .outOfRounds
  else .returned none

/-! ## The slices -/

theorem length_le_byteLen (text : List Char) : text.length ≤ byteLen text := by
  induction text with
  | nil => exact Nat.zero_le _
  | cons char text ih =>
    have hPos := char.utf8Size_pos
    rw [byteLen_cons, List.length_cons]
    omega

/-- The text before the first quotation mark, or nothing, can always be sliced. -/
theorem sliceTo_quote (text : List Char) : sliceTo ((find? ['\x22'] text).getD 0) text = some (beforeQuote text) := by
  rw [beforeQuote]
  by_cases hQuote : '\x22' ∈ text
  · have hSplit : text.takeWhile (· ≠ '\x22') ++ text.dropWhile (· ≠ '\x22') = text := List.takeWhile_append_dropWhile
    have hSlice := sliceTo_append (text.takeWhile (· ≠ '\x22')) (text.dropWhile (· ≠ '\x22'))
    rw [hSplit] at hSlice
    rw [find?_singleton hQuote, if_pos hQuote, Option.getD_some, hSlice]
  · rw [find?_singleton_none hQuote, if_neg hQuote, Option.getD_none, sliceTo_zero]

theorem sliceFrom_quote (text : List Char) :
    sliceFrom ((find? ['\x22'] text).getD 0 + 1) text = afterQuote text := by
  rw [afterQuote.eq_def]
  by_cases hQuote : '\x22' ∈ text
  · obtain ⟨before, rest, rfl, hBefore⟩ := List.eq_append_cons_of_mem hQuote
    have hChars : ∀ char ∈ before, decide (char ≠ '\x22') = true := by
      intro char hChar
      exact decide_eq_true fun hSame => hBefore (hSame ▸ hChar)
    have hTake : (before ++ '\x22' :: rest).takeWhile (· ≠ '\x22') = before := by
      rw [List.takeWhile_append_of_pos hChars]
      simp
    rw [find?_singleton hQuote, hTake, if_pos hQuote, List.dropWhile_append_of_pos hChars, Option.getD_some,
      sliceFrom_append, sliceFrom_one_cons]
    rfl
  · rw [find?_singleton_none hQuote, if_neg hQuote, Option.getD_none]
    cases text with
    | nil => rfl
    | cons first rest => exact sliceFrom_one_cons first rest

theorem fieldAfter_eq (key : String) (afterField : List Char) :
    fieldAfter key afterField = some ((after? (fieldText key) afterField).map beforeQuote) := by
  rw [fieldAfter]
  cases hFind : find? (fieldText key) afterField with
  | none => rw [after?_eq_none_iff.mpr hFind, Option.map_none]
  | some start =>
    obtain ⟨-, after, -, -, hAfter⟩ := find?_eq_some hFind
    simp only [sliceFrom_find? hFind, hAfter, sliceTo_quote, Option.bind_eq_bind, Option.bind_some, Option.map_some,
      Option.pure_def]

/-- A round panics only where it steps over the quotation mark. -/
theorem readRound_eq {start : Nat} {rest afterField : List Char}
    (hFind : find? (fieldText "process_instance_id") rest = some start)
    (hAfter : after? (fieldText "process_instance_id") rest = some afterField) :
    readRound start rest = (afterQuote afterField).map fun next => (readInstance afterField, next) := by
  have hInstance : peerSnapshot (beforeQuote afterField)
      (((after? (fieldText "pipeline_id") afterField).map beforeQuote).getD [])
      ((((after? (fieldText "status") afterField).map beforeQuote).map peerStatus).getD .active) =
      readInstance afterField := by
    rw [readInstance]
    cases after? (fieldText "pipeline_id") afterField <;> cases after? (fieldText "status") afterField <;> rfl
  rw [readRound, sliceFrom_find? hFind, hAfter]
  simp only [sliceTo_quote, fieldAfter_eq, sliceFrom_quote, Option.bind_eq_bind, Option.bind_some, hInstance,
    Option.pure_def]
  cases afterQuote afterField <;> rfl

/-! ## The loop -/

/-- Stepping over a closing quotation mark that is missing. -/
def NothingToCut (afterField : List Char) : Prop :=
  '\x22' ∉ afterField ∧ ∀ first ∈ afterField.head?, first.utf8Size ≠ 1

/-- The last instance id that the reader comes to is not closed, and no character of one byte follows its start. Each
search starts after the quotation mark that closes the id before. -/
inductive UnclosedId : List Char → Prop
  | last {text afterField : List Char} (hField : after? (fieldText "process_instance_id") text = some afterField)
      (hCut : NothingToCut afterField) : UnclosedId text
  | later {text id rest : List Char}
      (hField : after? (fieldText "process_instance_id") text = some (id ++ '\x22' :: rest)) (hId : '\x22' ∉ id)
      (hRest : UnclosedId rest) : UnclosedId text

theorem afterQuote_eq_none_iff {afterField : List Char} : afterQuote afterField = none ↔ NothingToCut afterField := by
  rw [afterQuote.eq_def, NothingToCut]
  split
  · rename_i hQuote
    simp [hQuote]
  · rename_i hQuote
    cases afterField with
    | nil => simp
    | cons first rest =>
      by_cases hOne : first.utf8Size = 1
      · simp [hOne]
      · simpa [hOne] using hQuote

/-- After the last quotation mark the reader finds no further field. -/
theorem not_unclosedId_of_no_quote {text : List Char} (h : '\x22' ∉ text) : ¬UnclosedId text := by
  have hNone : after? (fieldText "process_instance_id") text = none := by
    have hPlain : after? (fieldText "process_instance_id") (text ++ []) =
        after? (fieldText "process_instance_id") [] :=
      after?_of_no_quote h []
    rw [List.append_nil] at hPlain
    exact hPlain
  intro hUnclosed
  cases hUnclosed with
  | last hField _ => exact absurd (hNone.symm.trans hField) (by simp)
  | later hField _ _ => exact absurd (hNone.symm.trans hField) (by simp)

theorem unclosedId_iff {text afterField next : List Char}
    (hField : after? (fieldText "process_instance_id") text = some afterField)
    (hNext : afterQuote afterField = some next) : UnclosedId text ↔ UnclosedId next := by
  constructor
  · intro hUnclosed
    cases hUnclosed with
    | last hOther hCut =>
      cases hField.symm.trans hOther
      exact absurd (hNext.symm.trans (afterQuote_eq_none_iff.mpr hCut)) (by simp)
    | later hOther hId hRest =>
      cases hField.symm.trans hOther
      rw [afterQuote_append hId] at hNext
      cases hNext
      exact hRest
  · intro hUnclosed
    by_cases hQuote : '\x22' ∈ afterField
    · obtain ⟨id, rest, rfl, hId⟩ := List.eq_append_cons_of_mem hQuote
      rw [afterQuote_append hId] at hNext
      cases hNext
      exact .later hField hId hUnclosed
    · -- no quotation mark is left, so there is no further field
      rw [afterQuote.eq_def, if_neg hQuote] at hNext
      cases afterField with
      | nil => cases hNext
      | cons first rest =>
        dsimp only at hNext
        split at hNext
        · cases hNext
          exact absurd hUnclosed (not_unclosedId_of_no_quote fun hMem => hQuote (List.mem_cons_of_mem _ hMem))
        · cases hNext

theorem readInstances_eq_none_iff {fuel : Nat} {rest : List Char} (h : rest.length ≤ fuel)
    (instances : List ProcessInstanceSnapshot) : readInstances fuel rest instances = none ↔ UnclosedId rest := by
  induction fuel generalizing rest instances with
  | zero =>
    obtain rfl := List.length_eq_zero_iff.mp (Nat.le_zero.mp h)
    rw [readInstances]
    exact iff_of_false (by simp) (not_unclosedId_of_no_quote (by simp))
  | succ fuel ih =>
    rw [readInstances]
    cases hField : after? (fieldText "process_instance_id") rest with
    | none =>
      refine iff_of_false (by simp) fun hUnclosed => ?_
      cases hUnclosed with
      | last hOther _ => exact absurd (hField.symm.trans hOther) (by simp)
      | later hOther _ _ => exact absurd (hField.symm.trans hOther) (by simp)
    | some afterField =>
      have hLength := after?_length hField
      cases hNext : afterQuote afterField with
      | none =>
        simp only [hNext, Option.bind_eq_bind, Option.bind_none]
        exact iff_of_true trivial (.last hField (afterQuote_eq_none_iff.mp hNext))
      | some next =>
        have hShorter := afterQuote_length hNext
        simp only [hNext, Option.bind_eq_bind, Option.bind_some]
        rw [unclosedId_iff hField hNext]
        refine ih ?_ _
        rw [fieldText, fieldStart, List.length_cons] at hLength
        omega

def ReaderRun.ofOption {α : Type} : Option α → ReaderRun α
  | some value => .returned value
  | none => .panicked

/-- The loop ends before the text is used up. -/
theorem readRounds_eq {rounds : Nat} {rest : List Char} (h : rest.length < rounds)
    (instances : List ProcessInstanceSnapshot) :
    readRounds rounds rest instances = .ofOption (readInstances rounds rest instances) := by
  induction rounds generalizing rest instances with
  | zero => cases h
  | succ rounds ih =>
    rw [readRounds, readInstances]
    cases hFind : find? (fieldText "process_instance_id") rest with
    | none => rw [after?_eq_none_iff.mpr hFind, ReaderRun.ofOption]
    | some start =>
      obtain ⟨-, afterField, -, -, hField⟩ := find?_eq_some hFind
      have hLength := after?_length hField
      simp only [hField, readRound_eq hFind hField]
      cases hNext : afterQuote afterField with
      | none => simp only [Option.map_none, Option.bind_eq_bind, Option.bind_none, ReaderRun.ofOption]
      | some next =>
        have hShorter := afterQuote_length hNext
        simp only [Option.map_some, Option.bind_eq_bind, Option.bind_some]
        refine ih ?_ _
        rw [fieldText, fieldStart, List.length_cons] at hLength
        omega

theorem readInstances_of_le {fuel more : Nat} {rest : List Char} (h : rest.length ≤ fuel) (hMore : fuel ≤ more)
    (instances : List ProcessInstanceSnapshot) :
    readInstances more rest instances = readInstances fuel rest instances := by
  induction hMore with
  | refl => rfl
  | step hLe ih => rw [readInstances_succ (h.trans hLe), ih]

theorem isSome_find?_iff {needle text : List Char} :
    (find? needle text).isSome = true ↔ after? needle text ≠ none := by
  rw [Ne, after?_eq_none_iff, Option.isSome_iff_ne_none]

/-- The reader with offsets is the reader of the characters between them. -/
theorem parseByOffsets_eq (json : String) : parseByOffsets json = .ofOption (parseQueryResultJson json) := by
  have hBound := length_le_byteLen (trim json.toList)
  have hRounds : readRounds (byteLen (trim json.toList) + 1) (trim json.toList) [] = _ :=
    readRounds_eq (Nat.lt_succ_of_le hBound) []
  rw [readInstances_of_le (Nat.le_refl _) (Nat.le_succ_of_le hBound)] at hRounds
  rw [parseByOffsets, parseQueryResultJson]
  change _ = ReaderRun.ofOption (if after? typeText _ ≠ none then _ else _)
  simp only [hRounds]
  by_cases hType : after? typeText (trim json.toList) = none
  · have hNotFound : ¬(find? typeText (trim json.toList)).isSome = true := by
      rw [isSome_find?_iff]
      exact not_not_intro hType
    rw [if_neg hNotFound, if_neg (not_not_intro hType), ReaderRun.ofOption]
  · rw [if_pos (isSome_find?_iff.mpr hType), if_pos hType]
    cases readInstances (trim json.toList).length (trim json.toList) [] with
    | none => rfl
    | some instances =>
      simp only [ReaderRun.ofOption, isSome_find?_iff, Option.bind_eq_bind, Option.bind_some]
      split
      · rfl
      · rfl

theorem parseQueryResultJson_eq_none_iff {json : String} :
    parseQueryResultJson json = none ↔
      (find? typeText (trim json.toList)).isSome ∧ UnclosedId (trim json.toList) := by
  rw [parseQueryResultJson, isSome_find?_iff]
  change (if after? typeText _ ≠ none then _ else _) = _ ↔ _
  by_cases hType : after? typeText (trim json.toList) = none
  · rw [if_neg (not_not_intro hType)]
    simp [hType]
  · rw [if_pos hType, and_iff_right hType, ← readInstances_eq_none_iff (Nat.le_refl _) []]
    cases readInstances (trim json.toList).length (trim json.toList) [] with
    | none => exact iff_of_true rfl rfl
    | some instances =>
      refine iff_of_false ?_ (by simp)
      simp only [Option.bind_eq_bind, Option.bind_some]
      split
      · simp
      · simp

/-- The reader always comes to an end, and it panics exactly at an instance id that is cut off. -/
theorem parseByOffsets_returns_iff (json : String) :
    parseByOffsets json ≠ .outOfRounds ∧
      ((∃ answer, parseByOffsets json = .returned answer) ↔
        ¬((find? typeText (trim json.toList)).isSome ∧ UnclosedId (trim json.toList))) := by
  rw [parseByOffsets_eq, ← parseQueryResultJson_eq_none_iff]
  cases parseQueryResultJson json with
  | none => simp [ReaderRun.ofOption]
  | some answer => simp [ReaderRun.ofOption]

theorem parseByOffsets_panicked {json : String} (h : (parseQueryResultJson json).isNone = true) :
    parseByOffsets json = .panicked := by
  rw [parseByOffsets_eq, Option.isNone_iff_eq_none.mp h, ReaderRun.ofOption]

/-- An answer that ends after a field start, and one that goes on with a longer character. -/
theorem cut_off_answer_panics :
    parseByOffsets
        "\x7b\"type\":\"ProcessInstances\",\"instances\":[\x7b\"process_instance_id\":\"" = .panicked ∧
      parseByOffsets
        "\x7b\"type\":\"ProcessInstances\",\"instances\":[\x7b\"process_instance_id\":\"\u00e9" = .panicked := by
  constructor
  · exact parseByOffsets_panicked (by decide +kernel)
  · exact parseByOffsets_panicked (by decide +kernel)

end Vannak.Daemon
