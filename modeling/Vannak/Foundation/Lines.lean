import Vannak.Foundation.Bytes

/-!
# Lines of a byte stream

A stream that is read up to and including a terminator, and UTF-8 text in which a line feed
is a byte of its own: an encoded character contains a byte below 128 only if it is that
character. Text that is written line by line is therefore read line by line.
-/

namespace Vannak.Foundation

set_option autoImplicit false

/-! ## Up to a terminator -/

section Through

variable {α : Type} [DecidableEq α]

/-- The items up to and including the first `stop`, and the items after it. -/
def through (stop : α) : List α → List α × List α
  | [] => ([], [])
  | item :: items =>
    if item = stop then ([item], items)
    else (item :: (through stop items).1, (through stop items).2)

variable {stop : α}

theorem through_append {line : List α} (h : stop ∉ line) (rest : List α) :
    through stop (line ++ stop :: rest) = (line ++ [stop], rest) := by
  induction line with
  | nil => simp [through]
  | cons item line ih =>
    rw [List.mem_cons, not_or] at h
    rw [List.cons_append, through, if_neg (Ne.symm h.1), ih h.2]
    rfl

theorem through_of_not_mem {items : List α} (h : stop ∉ items) : through stop items = (items, []) := by
  induction items with
  | nil => rfl
  | cons item items ih =>
    rw [List.mem_cons, not_or] at h
    rw [through, if_neg (Ne.symm h.1), ih h.2]

theorem through_append_through (items : List α) : (through stop items).1 ++ (through stop items).2 = items := by
  induction items with
  | nil => rfl
  | cons item items ih =>
    rw [through]
    split
    · rfl
    · exact congrArg (item :: ·) ih

theorem through_fst_eq_nil_iff {items : List α} : (through stop items).1 = [] ↔ items = [] := by
  cases items with
  | nil => simp [through]
  | cons item items =>
    rw [through]
    split <;> simp

end Through

/-! ## UTF-8 -/

theorem utf8Bytes_eq (text : String) : utf8Bytes text = text.toList.flatMap String.utf8EncodeChar := by
  rw [utf8Bytes, String.toUTF8_eq_toByteArray, ← String.utf8Encode_toList, List.utf8Encode]
  simp

@[simp] theorem utf8Bytes_append (first second : String) :
    utf8Bytes (first ++ second) = utf8Bytes first ++ utf8Bytes second := by
  rw [utf8Bytes_eq, utf8Bytes_eq, utf8Bytes_eq, String.toList_append, List.flatMap_append]

@[simp] theorem utf8Bytes_empty : utf8Bytes "" = [] := rfl

@[simp] theorem length_utf8Bytes (text : String) : (utf8Bytes text).length = text.utf8ByteSize := by
  rw [utf8Bytes, Array.length_toList]
  rfl

/-- A character of several bytes has no byte below 128. -/
theorem mem_utf8EncodeChar {char : Char} {byte : UInt8} (hByte : byte < 0x80) :
    byte ∈ String.utf8EncodeChar char ↔ char.toNat = byte.toNat := by
  have hLt : byte.toNat < 128 := hByte
  have hHigh : ∀ code, 128 ≤ code → code < 256 → byte ≠ UInt8.ofNat code := by
    rintro code hCode hFits rfl
    rw [UInt8.toNat_ofNat_of_lt' hFits] at hLt
    omega
  have hSingle : char.toNat ≤ 127 → (byte = UInt8.ofNat char.toNat ↔ char.toNat = byte.toNat) := by
    intro hChar
    have hFits : char.toNat < 256 := by omega
    rw [← UInt8.toNat_inj, UInt8.toNat_ofNat_of_lt' hFits]
    exact eq_comm
  have hCode : char.val.toNat = char.toNat := rfl
  simp only [String.utf8EncodeChar, hCode]
  split
  · rename_i hChar
    rw [List.mem_singleton]
    exact hSingle hChar
  · have hNe : char.toNat ≠ byte.toNat := by omega
    refine iff_of_false (fun hMem => ?_) hNe
    split at hMem
    · simp only [List.mem_cons, List.not_mem_nil, or_false] at hMem
      rcases hMem with hMem | hMem
      all_goals exact hHigh _ (by omega) (by omega) hMem
    · split at hMem
      · simp only [List.mem_cons, List.not_mem_nil, or_false] at hMem
        rcases hMem with hMem | hMem | hMem
        all_goals exact hHigh _ (by omega) (by omega) hMem
      · simp only [List.mem_cons, List.not_mem_nil, or_false] at hMem
        rcases hMem with hMem | hMem | hMem | hMem
        all_goals exact hHigh _ (by omega) (by omega) hMem

theorem mem_utf8Bytes {text : String} {byte : UInt8} (hByte : byte < 0x80) :
    byte ∈ utf8Bytes text ↔ ∃ char ∈ text.toList, char.toNat = byte.toNat := by
  rw [utf8Bytes_eq, List.mem_flatMap]
  constructor
  · rintro ⟨char, hChar, hMem⟩
    exact ⟨char, hChar, (mem_utf8EncodeChar hByte).mp hMem⟩
  · rintro ⟨char, hChar, hCode⟩
    exact ⟨char, hChar, (mem_utf8EncodeChar hByte).mpr hCode⟩

theorem through_utf8Bytes {line : String} (h : '\n' ∉ line.toList) (rest : Bytes) :
    through 10 (utf8Bytes (line ++ "\n") ++ rest) = (utf8Bytes (line ++ "\n"), rest) := by
  have hLine : 10 ∉ utf8Bytes line := by
    rw [mem_utf8Bytes (by decide)]
    rintro ⟨char, hChar, hCode⟩
    have hFeed : char = '\n' := Char.toNat_inj.mp hCode
    exact h (hFeed ▸ hChar)
  have hBytes : utf8Bytes (line ++ "\n") = utf8Bytes line ++ [10] := by
    rw [utf8Bytes_append]
    rfl
  rw [hBytes, List.append_assoc, List.singleton_append, through_append hLine]

end Vannak.Foundation
