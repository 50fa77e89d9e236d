import Vannak.Foundation.Bytes

/-!
# FNV-1a and single bytes

For a fixed byte a round is a bijection of the states: the prime is odd, so that it has an inverse modulo `2 ^ 64`.
For a fixed state it is injective in the byte. Two texts that differ in one byte therefore never collide.
-/

namespace Vannak.Foundation

set_option autoImplicit false

/-- The inverse of the prime modulo `2 ^ 64`. -/
def fnvInverse : UInt64 := 14886173955864302971

theorem fnvPrime_mul_inverse : fnvPrime * fnvInverse = 1 := by decide

theorem mul_fnvPrime_injective {left right : UInt64} (h : left * fnvPrime = right * fnvPrime) : left = right := by
  have hBack (state : UInt64) : state * fnvPrime * fnvInverse = state := by
    rw [UInt64.mul_assoc, fnvPrime_mul_inverse, UInt64.mul_one]
  rw [← hBack left, h, hBack]

theorem fnvStep_injective {left right : UInt64} {byte : UInt8} (h : fnvStep left byte = fnvStep right byte) :
    left = right :=
  (UInt64.xor_left_inj _).mp (mul_fnvPrime_injective h)

theorem fnvStep_byte_injective {state : UInt64} {left right : UInt8} (h : fnvStep state left = fnvStep state right) :
    left = right :=
  UInt8.toUInt64_inj.mp ((UInt64.xor_right_inj _).mp (mul_fnvPrime_injective h))

theorem foldl_fnvStep_injective {left right : UInt64} (bytes : Bytes)
    (h : bytes.foldl fnvStep left = bytes.foldl fnvStep right) : left = right := by
  induction bytes generalizing left right with
  | nil => exact h
  | cons byte bytes ih => exact fnvStep_injective (ih h)

theorem fnv1a_ne (before after : Bytes) {first second : UInt8} (h : first ≠ second) :
    fnv1a (before ++ first :: after) ≠ fnv1a (before ++ second :: after) := by
  intro hSame
  rw [fnv1a, fnv1a, List.foldl_append, List.foldl_append, List.foldl_cons, List.foldl_cons] at hSame
  exact h (fnvStep_byte_injective (foldl_fnvStep_injective after hSame))

/-- Two texts of one length that differ in exactly one byte. -/
def DifferAt (index : Nat) (left right : Bytes) : Prop :=
  left.length = right.length ∧ ∀ other : Nat, left[other]? = right[other]? ↔ other ≠ index

theorem DifferAt.split {index : Nat} {left right : Bytes} (h : DifferAt index left right) :
    ∃ before first second after, left = before ++ first :: after ∧ right = before ++ second :: after ∧
      first ≠ second := by
  obtain ⟨hLength, hOther⟩ := h
  have hNe : left[index]? ≠ right[index]? := fun hSame => (hOther index).mp hSame rfl
  have hLeft : index < left.length := by
    by_contra hBeyond
    exact hNe (by rw [List.getElem?_eq_none (by omega), List.getElem?_eq_none (by omega)])
  have hRight : index < right.length := hLength ▸ hLeft
  have hBefore : left.take index = right.take index := by
    apply List.ext_getElem?
    intro other
    rw [List.getElem?_take, List.getElem?_take]
    split
    · rename_i hLt
      exact (hOther other).mpr hLt.ne
    · rfl
  have hAfter : left.drop (index + 1) = right.drop (index + 1) := by
    apply List.ext_getElem?
    intro other
    rw [List.getElem?_drop, List.getElem?_drop]
    exact (hOther _).mpr (by omega)
  refine ⟨left.take index, left[index], right[index], left.drop (index + 1), ?_, ?_, ?_⟩
  · rw [List.getElem_cons_drop, List.take_append_drop]
  · rw [hBefore, hAfter, List.getElem_cons_drop, List.take_append_drop]
  · rwa [List.getElem?_eq_getElem hLeft, List.getElem?_eq_getElem hRight, Ne, Option.some_inj] at hNe

theorem fnv1a_ne_of_differAt {index : Nat} {left right : Bytes} (h : DifferAt index left right) :
    fnv1a left ≠ fnv1a right := by
  obtain ⟨before, first, second, after, rfl, rfl, hNe⟩ := h.split
  exact fnv1a_ne before after hNe

theorem differAt_set {index : Nat} {bytes : Bytes} {byte : UInt8} (hIndex : index < bytes.length)
    (hByte : bytes[index]? ≠ some byte) : DifferAt index bytes (bytes.set index byte) := by
  refine ⟨(List.length_set).symm, fun other => ?_⟩
  rw [List.getElem?_set]
  by_cases hSame : index = other
  · subst hSame
    simpa [hIndex] using hByte
  · simp [hSame, Ne.symm hSame]

end Vannak.Foundation
