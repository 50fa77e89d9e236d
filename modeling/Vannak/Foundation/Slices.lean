import Vannak.Foundation.Json

/-!
# Slices of texts by byte offsets

A text is its characters; offsets count the bytes of their UTF-8 form. A slice outside of the text, or at an offset
within a character, is none.
-/

namespace Vannak.Foundation

set_option autoImplicit false

def byteLen (text : List Char) : Nat := (text.map Char.utf8Size).sum

/-- `&text[offset..]`. -/
def sliceFrom : Nat → List Char → Option (List Char)
  | 0, text => some text
  | _ + 1, [] => none
  | offset + 1, char :: text =>
    if char.utf8Size ≤ offset + 1 then sliceFrom (offset + 1 - char.utf8Size) text else none

/-- `&text[..offset]`. -/
def sliceTo : Nat → List Char → Option (List Char)
  | 0, _ => some []
  | _ + 1, [] => none
  | offset + 1, char :: text =>
    if char.utf8Size ≤ offset + 1 then (sliceTo (offset + 1 - char.utf8Size) text).map (char :: ·) else none

/-- `text.find(needle)`, the offset of the first occurrence. -/
def find? (needle : List Char) : List Char → Option Nat
  | [] => if needle = [] then some 0 else none
  | char :: text =>
    if needle.isPrefixOf (char :: text) then some 0 else (find? needle text).map (char.utf8Size + ·)

theorem byteLen_cons (char : Char) (text : List Char) : byteLen (char :: text) = char.utf8Size + byteLen text := by
  rw [byteLen, List.map_cons, List.sum_cons]
  rfl

theorem sliceFrom_zero (text : List Char) : sliceFrom 0 text = some text := by
  cases text <;> rfl

theorem sliceTo_zero (text : List Char) : sliceTo 0 text = some [] := by
  cases text <;> rfl

theorem sliceFrom_cons {char : Char} {offset : Nat} (h : char.utf8Size ≤ offset) (text : List Char) :
    sliceFrom offset (char :: text) = sliceFrom (offset - char.utf8Size) text := by
  cases offset with
  | zero => exact absurd h (Nat.not_le_of_lt char.utf8Size_pos)
  | succ offset => rw [sliceFrom, if_pos h]

theorem sliceTo_cons {char : Char} {offset : Nat} (h : char.utf8Size ≤ offset) (text : List Char) :
    sliceTo offset (char :: text) = (sliceTo (offset - char.utf8Size) text).map (char :: ·) := by
  cases offset with
  | zero => exact absurd h (Nat.not_le_of_lt char.utf8Size_pos)
  | succ offset => rw [sliceTo, if_pos h]

/-- What lies between two characters can be sliced. -/
theorem sliceFrom_append (first second : List Char) (offset : Nat) :
    sliceFrom (byteLen first + offset) (first ++ second) = sliceFrom offset second := by
  induction first with
  | nil => rw [List.nil_append, byteLen, List.map_nil, List.sum_nil, Nat.zero_add]
  | cons char first ih =>
    rw [byteLen_cons, List.cons_append, sliceFrom_cons (by omega), Nat.add_assoc, Nat.add_sub_cancel_left, ih]

theorem sliceTo_append (first second : List Char) : sliceTo (byteLen first) (first ++ second) = some first := by
  induction first with
  | nil => exact sliceTo_zero second
  | cons char first ih =>
    rw [byteLen_cons, List.cons_append, sliceTo_cons (Nat.le_add_right _ _), Nat.add_sub_cancel_left, ih,
      Option.map_some]

/-- Only a character of one byte can be cut off as one. -/
theorem sliceFrom_one_cons (first : Char) (rest : List Char) :
    sliceFrom 1 (first :: rest) = if first.utf8Size = 1 then some rest else none := by
  have hPos := first.utf8Size_pos
  rw [sliceFrom]
  by_cases hOne : first.utf8Size = 1
  · rw [if_pos hOne.le, if_pos hOne, hOne, Nat.sub_self, sliceFrom_zero]
  · rw [if_neg (by omega), if_neg hOne]

/-! ## Occurrences -/

theorem after?_eq_none_iff {needle text : List Char} : after? needle text = none ↔ find? needle text = none := by
  induction text with
  | nil =>
    rw [after?, find?]
    split <;> simp
  | cons char text ih =>
    rw [after?, find?]
    split
    · simp
    · rw [ih, Option.map_eq_none_iff]

/-- An offset that is found splits the text at the first occurrence. -/
theorem find?_eq_some {needle text : List Char} {start : Nat} (h : find? needle text = some start) :
    ∃ before rest, text = before ++ (needle ++ rest) ∧ start = byteLen before ∧ after? needle text = some rest := by
  induction text generalizing start with
  | nil =>
    rw [find?] at h
    split at h
    · rename_i hNeedle
      cases h
      exact ⟨[], [], by rw [hNeedle]; rfl, rfl, by rw [after?, if_pos hNeedle]⟩
    · cases h
  | cons char text ih =>
    rw [find?] at h
    split at h
    · rename_i hPrefix
      cases h
      obtain ⟨rest, hRest⟩ := List.isPrefixOf_iff_prefix.mp hPrefix
      refine ⟨[], rest, hRest.symm, rfl, ?_⟩
      rw [after?, if_pos hPrefix, ← hRest, List.drop_left]
    · rename_i hPrefix
      obtain ⟨offset, hOffset, rfl⟩ := Option.map_eq_some_iff.mp h
      obtain ⟨before, rest, rfl, rfl, hAfter⟩ := ih hOffset
      exact ⟨char :: before, rest, rfl, (byteLen_cons char before).symm, by rw [after?, if_neg hPrefix, hAfter]⟩

/-- What follows the first occurrence, by offsets. -/
theorem sliceFrom_find? {needle text : List Char} {start : Nat} (h : find? needle text = some start) :
    sliceFrom (start + byteLen needle) text = after? needle text := by
  obtain ⟨before, rest, rfl, rfl, hAfter⟩ := find?_eq_some h
  have hEnd := sliceFrom_append needle rest 0
  rw [Nat.add_zero] at hEnd
  rw [hAfter, sliceFrom_append, hEnd, sliceFrom_zero]

theorem find?_singleton {char : Char} {text : List Char} (h : char ∈ text) :
    find? [char] text = some (byteLen (text.takeWhile (· ≠ char))) := by
  induction text with
  | nil => cases h
  | cons first text ih =>
    rw [find?, List.takeWhile_cons]
    by_cases hFirst : first = char
    · subst hFirst
      rw [if_pos (by simp)]
      simp [byteLen]
    · have hText : char ∈ text := (List.mem_cons.mp h).resolve_left (Ne.symm hFirst)
      rw [if_neg (by simpa using Ne.symm hFirst), ih hText, if_pos (by simpa using hFirst), byteLen_cons,
        Option.map_some]

theorem find?_singleton_none {char : Char} {text : List Char} (h : char ∉ text) : find? [char] text = none := by
  induction text with
  | nil => rfl
  | cons first text ih =>
    rw [List.mem_cons, not_or] at h
    rw [find?, if_neg (by simpa using h.1), ih h.2, Option.map_none]

end Vannak.Foundation
