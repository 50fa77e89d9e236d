import Mathlib

/-!
# JSON texts

Values with the text they are printed as, without spaces and with the fields of an object in
the order of its keys; what a string literal spells; and the search for a field by its
printed start, which is exact on printed values because inside a literal every quote is
escaped.
-/

namespace Vannak.Foundation

set_option autoImplicit false

/-! ## Printing -/

/-- A character that stands for itself in a string literal. -/
def Plain (char : Char) : Prop := char ≠ '\x22' ∧ char ≠ '\\' ∧ 0x20 ≤ char.toNat

instance (char : Char) : Decidable (Plain char) := inferInstanceAs (Decidable (_ ∧ _ ∧ _))

def hexDigit (value : Nat) : Char := Char.ofNat (if value < 10 then 48 + value else 87 + value)

def escapeChar (char : Char) : List Char :=
  if Plain char then [char]
  else if char = '\x22' then ['\\', '\x22']
  else if char = '\\' then ['\\', '\\']
  else if char = '\x08' then ['\\', 'b']
  else if char = '\x09' then ['\\', 't']
  else if char = '\x0a' then ['\\', 'n']
  else if char = '\x0c' then ['\\', 'f']
  else if char = '\x0d' then ['\\', 'r']
  else ['\\', 'u', '0', '0', hexDigit (char.toNat / 16), hexDigit (char.toNat % 16)]

def escape (text : List Char) : List Char := text.flatMap escapeChar

def quoted (text : List Char) : List Char := '\x22' :: (escape text ++ ['\x22'])

/-- Numbers that are no `u64` are kept as their text. -/
inductive Json where
  | null
  | bool (value : Bool)
  | number (value : UInt64)
  | otherNumber (text : String)
  | string (value : String)
  | array (items : List Json)
  | object (fields : List (String × Json))

namespace Json

/-- A map from the keys, in their order. -/
def ofFields (fields : List (String × Json)) : Json :=
  .object (fields.insertionSort fun left right => left.1 ≤ right.1)

/-- `Value::get` on an object. -/
def field (value : Json) (key : String) : Option Json :=
  match value with
  | object fields => (fields.find? fun field => field.1 = key).map Prod.snd
  | _ => none

def asStr : Json → Option String
  | string value => some value
  | _ => none

def asU64 : Json → Option UInt64
  | number value => some value
  | _ => none

mutual

def print : Json → List Char
  | null => "null".toList
  | bool value => (toString value).toList
  | number value => (toString value.toNat).toList
  | otherNumber text => text.toList
  | string value => quoted value.toList
  | array items => '[' :: (printItems items ++ [']'])
  | object fields => '\x7b' :: (printFields fields ++ ['\x7d'])

def printItems : List Json → List Char
  | [] => []
  | [item] => item.print
  | item :: items => item.print ++ ',' :: printItems items

def printFields : List (String × Json) → List Char
  | [] => []
  | [(key, value)] => quoted key.toList ++ ':' :: value.print
  | (key, value) :: fields => quoted key.toList ++ ':' :: (value.print ++ ',' :: printFields fields)

end

end Json

theorem escapeChar_of_plain {char : Char} (h : Plain char) : escapeChar char = [char] := if_pos h

/-- Of the characters that are escaped, only the quote has a quote in its escape. -/
theorem escapeChar_of_not_plain {char : Char} (h : ¬Plain char) :
    escapeChar char = ['\\', '\x22'] ∧ char = '\x22' ∨
      ∃ body, escapeChar char = '\\' :: body ∧ '\x22' ∉ body := by
  have hHex : ∀ value < 16, hexDigit value ≠ '\x22' := by decide
  rw [escapeChar, if_neg h]
  split
  · exact .inl ⟨rfl, by assumption⟩
  refine .inr ?_
  repeat' split
  case isFalse.isFalse.isFalse.isFalse.isFalse.isFalse hQuote hBackslash _ _ _ _ _ =>
    have hControl : char.toNat < 0x20 := by
      by_contra hAbove
      exact h ⟨hQuote, hBackslash, Nat.not_lt.mp hAbove⟩
    refine ⟨_, rfl, ?_⟩
    have hHigh := hHex (char.toNat / 16) (by omega)
    have hLow := hHex (char.toNat % 16) (Nat.mod_lt _ (by decide))
    simp [hHigh.symm, hLow.symm]
  all_goals exact ⟨_, rfl, by decide⟩

theorem escape_cons (char : Char) (text : List Char) : escape (char :: text) = escapeChar char ++ escape text := rfl

theorem escape_append (first second : List Char) : escape (first ++ second) = escape first ++ escape second :=
  List.flatMap_append ..

theorem escape_of_plain {text : List Char} (h : ∀ char ∈ text, Plain char) : escape text = text := by
  induction text with
  | nil => rfl
  | cons char text ih =>
    obtain ⟨hChar, hText⟩ := List.forall_mem_cons.mp h
    rw [escape_cons, escapeChar_of_plain hChar, ih hText]
    rfl

theorem quote_mem_escape {text : List Char} : '\x22' ∈ escape text ↔ '\x22' ∈ text := by
  rw [escape, List.mem_flatMap]
  constructor
  · rintro ⟨char, hChar, hQuote⟩
    by_cases hPlain : Plain char
    · rw [escapeChar_of_plain hPlain, List.mem_singleton] at hQuote
      rwa [hQuote]
    · rcases escapeChar_of_not_plain hPlain with ⟨-, rfl⟩ | ⟨body, hEscape, hBody⟩
      · exact hChar
      · rw [hEscape, List.mem_cons] at hQuote
        exact absurd (hQuote.resolve_left (by decide)) hBody
  · intro hQuote
    exact ⟨'\x22', hQuote, by decide⟩

theorem two_le_length_escapeChar {char : Char} (h : ¬Plain char) : 2 ≤ (escapeChar char).length := by
  rw [escapeChar, if_neg h]
  repeat' split
  all_goals simp

theorem length_le_escape (text : List Char) : text.length ≤ (escape text).length := by
  induction text with
  | nil => exact Nat.le_refl _
  | cons char text ih =>
    have hChar : 1 ≤ (escapeChar char).length := by
      by_cases hPlain : Plain char
      · rw [escapeChar_of_plain hPlain]
        exact Nat.le_refl _
      · exact (Nat.le_succ 1).trans (two_le_length_escapeChar hPlain)
    rw [escape_cons, List.length_append, List.length_cons]
    omega

theorem escape_eq_self_iff {text : List Char} : escape text = text ↔ ∀ char ∈ text, Plain char := by
  refine ⟨fun h => ?_, escape_of_plain⟩
  induction text with
  | nil => simp
  | cons char text ih =>
    have hLength := congrArg List.length h
    have hRest := length_le_escape text
    rw [escape_cons, List.length_append, List.length_cons] at hLength
    have hPlain : Plain char := by
      by_contra hPlain
      have hTwo := two_le_length_escapeChar hPlain
      omega
    rw [escape_cons, escapeChar_of_plain hPlain] at h
    exact List.forall_mem_cons.mpr ⟨hPlain, ih (List.cons.inj h).2⟩

theorem quoted_append (text rest : List Char) :
    quoted text ++ rest = '\x22' :: (escape text ++ '\x22' :: rest) := by
  rw [quoted, List.cons_append, List.append_assoc]
  rfl

/-! ## Searching -/

/-- What follows the first occurrence. -/
def after? (needle : List Char) : List Char → Option (List Char)
  | [] => if needle = [] then some [] else none
  | char :: rest =>
    if needle.isPrefixOf (char :: rest) then some ((char :: rest).drop needle.length) else after? needle rest

/-- The key of a field whose value is a string, up to the opening quote of the value. -/
def fieldStart (key : List Char) : List Char := '\x22' :: (key ++ ['\x22', ':', '\x22'])

theorem after?_of_not_prefix {needle : List Char} {char : Char} {rest : List Char}
    (h : ¬needle <+: char :: rest) : after? needle (char :: rest) = after? needle rest := by
  rw [after?, if_neg]
  rwa [List.isPrefixOf_iff_prefix]

theorem after?_append (needle rest : List Char) (h : needle ≠ []) : after? needle (needle ++ rest) = some rest := by
  obtain ⟨char, needle, rfl⟩ := List.exists_cons_of_ne_nil h
  rw [List.cons_append, after?, if_pos, ← List.cons_append, List.drop_left]
  rw [List.isPrefixOf_iff_prefix, ← List.cons_append]
  exact List.prefix_append _ _

section Search

variable {key text rest : List Char} {next : Char}

theorem after?_of_ne_quote {char : Char} (h : char ≠ '\x22') :
    after? (fieldStart key) (char :: rest) = after? (fieldStart key) rest :=
  after?_of_not_prefix fun hPrefix => h (List.cons_prefix_cons.mp hPrefix).1.symm

/-- What matches a key up to its closing quote is that key. -/
theorem eq_of_prefix_of_plain (hKey : ∀ char ∈ key, Plain char)
    (h : key ++ ['\x22', ':', '\x22'] <+: escape text ++ '\x22' :: next :: rest) : text = key ∧ next = ':' := by
  induction key generalizing text with
  | nil =>
    cases text with
    | nil =>
      obtain ⟨-, hNext⟩ := List.cons_prefix_cons.mp h
      exact ⟨rfl, (List.cons_prefix_cons.mp hNext).1.symm⟩
    | cons char text =>
      rw [escape_cons] at h
      by_cases hChar : Plain char
      · rw [escapeChar_of_plain hChar] at h
        exact absurd (List.cons_prefix_cons.mp h).1.symm hChar.1
      · rcases escapeChar_of_not_plain hChar with ⟨hEscape, -⟩ | ⟨body, hEscape, -⟩
        · rw [hEscape] at h
          exact absurd (List.cons_prefix_cons.mp h).1 (by decide)
        · rw [hEscape] at h
          exact absurd (List.cons_prefix_cons.mp h).1 (by decide)
  | cons first key ih =>
    obtain ⟨hFirst, hKey⟩ := List.forall_mem_cons.mp hKey
    cases text with
    | nil => exact absurd (List.cons_prefix_cons.mp h).1 hFirst.1
    | cons char text =>
      rw [escape_cons] at h
      by_cases hChar : Plain char
      · rw [escapeChar_of_plain hChar] at h
        obtain ⟨hSame, hRest⟩ := List.cons_prefix_cons.mp h
        obtain ⟨hText, hNext⟩ := ih hKey hRest
        exact ⟨by rw [hSame, hText], hNext⟩
      · rcases escapeChar_of_not_plain hChar with ⟨hEscape, -⟩ | ⟨body, hEscape, -⟩
        · rw [hEscape] at h
          exact absurd (List.cons_prefix_cons.mp h).1 hFirst.2.1
        · rw [hEscape] at h
          exact absurd (List.cons_prefix_cons.mp h).1 hFirst.2.1

theorem after?_of_no_quote {body : List Char} (h : '\x22' ∉ body) (tail : List Char) :
    after? (fieldStart key) (body ++ tail) = after? (fieldStart key) tail := by
  induction body with
  | nil => rfl
  | cons char body ih =>
    rw [List.mem_cons, not_or] at h
    rw [List.cons_append, after?_of_ne_quote (Ne.symm h.1), ih h.2]

theorem after?_closing (hNext : next ∉ key ++ ['\x22', ':']) :
    after? (fieldStart key) ('\x22' :: next :: rest) = after? (fieldStart key) (next :: rest) := by
  refine after?_of_not_prefix fun hPrefix => hNext ?_
  have hRest := (List.cons_prefix_cons.mp hPrefix).2
  cases key with
  | nil => exact (List.cons_prefix_cons.mp hRest).1 ▸ List.mem_cons_self
  | cons first key => exact (List.cons_prefix_cons.mp hRest).1 ▸ List.mem_cons_self

/-- The field does not start inside the literal of a value, nor at its closing quote. -/
theorem after?_escape (hKey : ∀ char ∈ key, Plain char) (hNext : next ∉ key ++ ['\x22', ':']) :
    after? (fieldStart key) (escape text ++ '\x22' :: next :: rest) = after? (fieldStart key) (next :: rest) := by
  induction text with
  | nil => exact after?_closing hNext
  | cons char text ih =>
    rw [escape_cons, List.append_assoc]
    by_cases hChar : Plain char
    · rw [escapeChar_of_plain hChar, after?_of_no_quote (by simpa using hChar.1.symm), ih]
    · rcases escapeChar_of_not_plain hChar with ⟨hEscape, -⟩ | ⟨body, hEscape, hBody⟩
      · rw [hEscape, List.cons_append, List.singleton_append, after?_of_ne_quote (by decide),
          after?_of_not_prefix, ih]
        intro hPrefix
        have hColon := (eq_of_prefix_of_plain hKey (List.cons_prefix_cons.mp hPrefix).2).2
        exact hNext (List.mem_append_right key (by simp [hColon]))
      · rw [hEscape, after?_of_no_quote (by simp [hBody]), ih]

theorem after?_quoted (hKey : ∀ char ∈ key, Plain char) (hNext : next ∉ key ++ ['\x22', ':']) :
    after? (fieldStart key) (quoted text ++ next :: rest) = after? (fieldStart key) (next :: rest) := by
  rw [quoted_append, after?_of_not_prefix, after?_escape hKey hNext]
  intro hPrefix
  have hColon := (eq_of_prefix_of_plain hKey (List.cons_prefix_cons.mp hPrefix).2).2
  exact hNext (List.mem_append_right key (by simp [hColon]))

/-- Another key is passed over. -/
theorem after?_other_key (hKey : ∀ char ∈ key, Plain char) (hColon : ':' ∉ key) {other : List Char}
    (hOther : ∀ char ∈ other, Plain char) (hNe : other ≠ key) :
    after? (fieldStart key) (quoted other ++ ':' :: rest) = after? (fieldStart key) (':' :: rest) := by
  have hClosing : after? (fieldStart key) ('\x22' :: ':' :: rest) = after? (fieldStart key) (':' :: rest) := by
    refine after?_of_not_prefix fun hPrefix => hColon ?_
    have hRest := (List.cons_prefix_cons.mp hPrefix).2
    cases key with
    | nil => exact absurd (List.cons_prefix_cons.mp hRest).1 (by decide)
    | cons first key => exact (List.cons_prefix_cons.mp hRest).1 ▸ List.mem_cons_self
  rw [quoted_append, after?_of_not_prefix]
  · rw [escape_of_plain hOther, after?_of_no_quote fun hQuote => (hOther _ hQuote).1 rfl, hClosing]
  · intro hPrefix
    exact hNe (eq_of_prefix_of_plain hKey (List.cons_prefix_cons.mp hPrefix).2).1

theorem after?_same_key (hKey : ∀ char ∈ key, Plain char) :
    after? (fieldStart key) (quoted key ++ ':' :: '\x22' :: rest) = some rest := by
  have hStart : quoted key ++ ':' :: '\x22' :: rest = fieldStart key ++ rest := by
    simp [quoted, fieldStart, escape_of_plain hKey]
  rw [hStart]
  exact after?_append _ _ (List.cons_ne_nil _ _)

end Search

/-! ## String literals -/

def hexDigitValue (digit : Char) : Option Nat :=
  if digit.isDigit then some (digit.toNat - 48)
  else if 'a' ≤ digit ∧ digit ≤ 'f' then some (digit.toNat - 87)
  else if 'A' ≤ digit ∧ digit ≤ 'F' then some (digit.toNat - 55)
  else none

/-- The value of four digits. -/
def hexValue : List Char → Option Nat
  | [first, second, third, fourth] => do
    return (((← hexDigitValue first) * 16 + (← hexDigitValue second)) * 16 + (← hexDigitValue third)) * 16 +
      (← hexDigitValue fourth)
  | _ => none

def shortEscapes : List (Char × Char) :=
  [('\x22', '\x22'), ('\\', '\\'), ('/', '/'), ('b', '\x08'), ('f', '\x0c'), ('n', '\x0a'), ('r', '\x0d'),
    ('t', '\x09')]

/-- What one escape stands for; a character beyond `u16` takes two surrogates. -/
inductive Escape : List Char → Char → Prop where
  | short (letter char : Char) (h : (letter, char) ∈ shortEscapes) : Escape ['\\', letter] char
  | unicode (digits : List Char) (code : Nat) (h : hexValue digits = some code) (hScalar : code.isValidChar) :
      Escape ('\\' :: 'u' :: digits) (Char.ofNat code)
  | pair (highDigits lowDigits : List Char) (high low : Nat) (hHigh : hexValue highDigits = some (0xD800 + high))
      (hHighLt : high < 0x400) (hLow : hexValue lowDigits = some (0xDC00 + low)) (hLowLt : low < 0x400) :
      Escape ('\\' :: 'u' :: (highDigits ++ '\\' :: 'u' :: lowDigits)) (Char.ofNat (0x10000 + high * 0x400 + low))

/-- The text after an opening quote spells the string up to its closing quote. -/
inductive Spells : List Char → List Char → List Char → Prop where
  | close (rest : List Char) : Spells ('\x22' :: rest) [] rest
  | plain {tail text rest : List Char} (char : Char) (hChar : Plain char) (h : Spells tail text rest) :
      Spells (char :: tail) (char :: text) rest
  | escaped {sequence tail text rest : List Char} (char : Char) (hEscape : Escape sequence char)
      (h : Spells tail text rest) : Spells (sequence ++ tail) (char :: text) rest

/-- A literal somewhere in the text. -/
def SpelledIn (text found : List Char) : Prop :=
  ∃ before tail rest, text = before ++ '\x22' :: tail ∧ Spells tail found rest

theorem SpelledIn.of_suffix {text found tail : List Char} (h : SpelledIn tail found) (hSuffix : tail <:+ text) :
    SpelledIn text found := by
  obtain ⟨before, rfl⟩ := hSuffix
  obtain ⟨inner, tail, rest, rfl, hSpells⟩ := h
  exact ⟨before ++ inner, tail, rest, by rw [List.append_assoc], hSpells⟩

theorem Spells.suffix {text found rest : List Char} (h : Spells text found rest) : rest <:+ text := by
  induction h with
  | close rest => exact List.suffix_cons _ _
  | plain char _ _ ih => exact ih.trans (List.suffix_cons _ _)
  | escaped _ _ _ ih => exact ih.trans (List.suffix_append _ _)

theorem quote_not_mem_of_hexValue {digits : List Char} {code : Nat} (h : hexValue digits = some code) :
    '\x22' ∉ digits := by
  have hQuote : hexDigitValue '\x22' = none := by decide
  rw [hexValue.eq_def] at h
  split at h
  · rename_i first second third fourth
    intro hMem
    simp only [List.mem_cons, List.not_mem_nil, or_false] at hMem
    rcases hMem with rfl | rfl | rfl | rfl <;> simp [hQuote] at h
  · cases h

/-- A quote is only ever escaped by itself. -/
theorem Escape.cases {sequence : List Char} {char : Char} (h : Escape sequence char) :
    sequence = ['\\', '\x22'] ∧ char = '\x22' ∨
      ∃ letter body, sequence = '\\' :: letter :: body ∧ '\x22' ∉ letter :: body := by
  cases h with
  | short letter char h =>
    by_cases hQuote : letter = '\x22'
    · subst hQuote
      refine .inl ⟨rfl, ?_⟩
      simpa [shortEscapes] using h
    · exact .inr ⟨letter, [], rfl, by simpa using Ne.symm hQuote⟩
  | unicode digits code h hScalar =>
    exact .inr ⟨'u', digits, rfl, by simp [quote_not_mem_of_hexValue h]⟩
  | pair highDigits lowDigits high low hHigh _ hLow _ =>
    exact .inr ⟨'u', _, rfl, by simp [quote_not_mem_of_hexValue hHigh, quote_not_mem_of_hexValue hLow]⟩

/-- Without a backslash before its first quote the literal is plain. -/
theorem Spells.plain_of_no_backslash {before after text rest : List Char}
    (h : Spells (before ++ '\x22' :: after) text rest) (hBefore : '\\' ∉ before) : ∀ char ∈ text, Plain char := by
  generalize hTail : before ++ '\x22' :: after = tail at h
  induction h generalizing before with
  | close rest => simp
  | plain char hChar h ih =>
    cases before with
    | nil => exact absurd (List.cons.inj hTail).1.symm hChar.1
    | cons first before =>
      obtain ⟨rfl, hRest⟩ := List.cons.inj hTail
      exact List.forall_mem_cons.mpr ⟨hChar, ih (fun hMem => hBefore (List.mem_cons_of_mem _ hMem)) hRest⟩
  | escaped char hEscape h ih =>
    have hBackslash : ∃ body, before ++ '\x22' :: after = '\\' :: body := by
      rcases hEscape.cases with ⟨rfl, -⟩ | ⟨letter, body, rfl, -⟩
      · exact ⟨_, hTail⟩
      · exact ⟨_, hTail⟩
    obtain ⟨body, hBody⟩ := hBackslash
    cases before with
    | nil => exact absurd (List.cons.inj hBody).1 (by decide)
    | cons first before => exact absurd ((List.cons.inj hBody).1 ▸ List.mem_cons_self) hBefore

/-- A literal that could end at a certain quote is at most as long as the text up to there, and as long only
if it is that text; otherwise a backslash stands before the quote and the literal goes on. -/
theorem Spells.up_to_quote {before after text rest : List Char}
    (h : Spells (before ++ '\x22' :: after) text rest) :
    text.length ≤ before.length ∧ (text.length = before.length → ∀ char ∈ text, Plain char) ∨
      before.getLast? = some '\\' ∧ ∃ first last, text = first ++ '\x22' :: last ∧ Spells after last rest := by
  generalize hTail : before ++ '\x22' :: after = tail at h
  induction h generalizing before with
  | close rest => exact .inl ⟨Nat.zero_le _, fun _ => by simp⟩
  | plain char hChar h ih =>
    cases before with
    | nil => exact absurd (List.cons.inj hTail).1.symm hChar.1
    | cons first before =>
      obtain ⟨rfl, hRest⟩ := List.cons.inj hTail
      rcases ih hRest with ⟨hLe, hPlain⟩ | ⟨hLast, start, last, rfl, hGoes⟩
      · refine .inl ⟨Nat.succ_le_succ hLe, fun hLength => ?_⟩
        exact List.forall_mem_cons.mpr ⟨hChar, hPlain (Nat.succ.inj hLength)⟩
      · refine .inr ⟨?_, _ :: start, last, rfl, hGoes⟩
        rw [List.getLast?_cons, hLast]
        rfl
  | @escaped sequence tail text rest char hEscape h ih =>
    have hInside : ∀ middle, before = sequence ++ middle → middle ++ '\x22' :: after = tail →
        (char :: text).length ≤ before.length ∧ ((char :: text).length = before.length →
          ∀ other ∈ char :: text, Plain other) ∨
        before.getLast? = some '\\' ∧
          ∃ first last, char :: text = first ++ '\x22' :: last ∧ Spells after last rest := by
      rintro middle rfl hMiddle
      have hTwo : 2 ≤ sequence.length := by
        rcases hEscape.cases with ⟨rfl, -⟩ | ⟨letter, body, rfl, -⟩ <;> simp
      rw [List.length_append, List.length_cons]
      rcases ih hMiddle with ⟨hLe, -⟩ | ⟨hLast, first, last, rfl, hGoes⟩
      · exact .inl ⟨by omega, fun hLength => by omega⟩
      · refine .inr ⟨?_, char :: first, last, rfl, hGoes⟩
        rw [List.getLast?_append, hLast]
        rfl
    rcases List.append_eq_append_iff.mp hTail with ⟨middle, hSequence, hRest⟩ | ⟨middle, hBefore, hRest⟩
    · cases middle with
      | nil => exact hInside [] (by simpa using hSequence.symm) hRest
      | cons first middle =>
        -- the quote is part of the escape
        obtain ⟨rfl, rfl⟩ := List.cons.inj hRest
        rcases hEscape.cases with ⟨rfl, rfl⟩ | ⟨letter, body, rfl, hQuote⟩
        · cases before with
          | nil => exact absurd (List.cons.inj hSequence).1 (by decide)
          | cons backslash before =>
            obtain ⟨rfl, hBefore⟩ := List.cons.inj hSequence
            cases before with
            | nil =>
              obtain ⟨-, rfl⟩ := List.cons.inj hBefore
              exact .inr ⟨rfl, [], text, rfl, h⟩
            | cons second before => simp at hBefore
        · refine absurd ?_ hQuote
          cases before with
          | nil => exact absurd (List.cons.inj hSequence).1 (by decide)
          | cons backslash before => simp [(List.cons.inj hSequence).2]
    · exact hInside middle hBefore hRest.symm

theorem Spells.quote_mem {tail text rest : List Char} (h : Spells tail text rest) : '\x22' ∈ tail := by
  induction h with
  | close rest => exact List.mem_cons_self
  | plain char _ _ ih => exact List.mem_cons_of_mem char ih
  | escaped _ _ _ ih => exact List.mem_append_right _ ih

theorem Spells.all_plain {tail text rest : List Char} (h : Spells tail text rest) (hTail : '\\' ∉ tail) :
    ∀ char ∈ text, Plain char := by
  obtain ⟨before, after, rfl, -⟩ := List.eq_append_cons_of_mem h.quote_mem
  exact h.plain_of_no_backslash fun hMem => hTail (List.mem_append_left _ hMem)

/-- Without backslashes around a string that stands unescaped between quotes, a literal anywhere in the text
that spells the string shows it to be plain. -/
theorem SpelledIn.plain_of_embedded {opening text after : List Char} (hOpening : '\\' ∉ opening)
    (hAfter : '\\' ∉ after) (hSpelled : SpelledIn (opening ++ '\x22' :: (text ++ '\x22' :: after)) text) :
    ∀ char ∈ text, Plain char := by
  obtain ⟨before, tail, rest, hText, h⟩ := hSpelled
  have hTailAfter : tail ⊆ after → ∀ char ∈ text, Plain char := fun hSubset =>
    h.all_plain fun hMem => hAfter (hSubset hMem)
  -- a literal that starts at the start of the string or within it
  have hWithin : ∀ skipped remaining, text = skipped ++ remaining → tail = remaining ++ '\x22' :: after →
      ∀ char ∈ text, Plain char := by
    rintro skipped remaining hSplit rfl
    rcases h.up_to_quote with ⟨hLe, hPlain⟩ | ⟨hLast, first, last, hFirst, hGoes⟩
    · refine hPlain (Nat.le_antisymm hLe ?_)
      rw [hSplit, List.length_append]
      exact Nat.le_add_left _ _
    · -- then the string would end both in a backslash and in a character of the plain rest
      have hEnd : text.getLast? = some '\\' := by
        rw [hSplit, List.getLast?_append, hLast]
        rfl
      rw [hFirst, List.getLast?_append, List.getLast?_cons, Option.some_or] at hEnd
      have hMem : '\\' ∈ '\x22' :: last := List.mem_of_getLast? ((List.getLast?_cons).trans hEnd)
      rcases List.mem_cons.mp hMem with hQuote | hLastMem
      · exact absurd hQuote (by decide)
      · exact absurd rfl (hGoes.all_plain hAfter _ hLastMem).2.1
  rcases List.append_eq_append_iff.mp hText.symm with ⟨middle, hOpens, hRest⟩ | ⟨middle, -, hRest⟩
  · cases middle with
    | nil => exact hWithin [] text rfl (List.cons.inj hRest).2
    | cons quote middle =>
      obtain ⟨rfl, rfl⟩ := List.cons.inj hRest
      refine h.plain_of_no_backslash fun hMem => hOpening ?_
      rw [hOpens]
      exact List.mem_append_right _ (List.mem_cons_of_mem _ hMem)
  · cases middle with
    | nil => exact hWithin [] text rfl (List.cons.inj hRest).2.symm
    | cons quote middle =>
      obtain ⟨-, hRest⟩ := List.cons.inj hRest
      rcases List.append_eq_append_iff.mp hRest with ⟨inner, -, hTail⟩ | ⟨inner, hInner, hTail⟩
      · cases inner with
        | nil => exact hTailAfter fun char hChar => (List.cons.inj hTail).2 ▸ hChar
        | cons second inner =>
          obtain ⟨-, rfl⟩ := List.cons.inj hTail
          exact hTailAfter fun char hChar => by simp [hChar]
      · cases inner with
        | nil => exact hTailAfter fun char hChar => (List.cons.inj hTail).2 ▸ hChar
        | cons second inner =>
          obtain ⟨rfl, rfl⟩ := List.cons.inj hTail
          exact hWithin (middle ++ ['\x22']) inner (by simpa using hInner) rfl

end Vannak.Foundation
