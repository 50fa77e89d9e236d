import Mathlib

/-!
# Machine arithmetic that reports overflow

An operation on `i32` wraps around in a release build and panics in a debug build. The checked one has the same
result, and none where the mathematical result does not fit.
-/

namespace Vannak.Foundation

set_option autoImplicit false

/-- A value of `i32`. -/
def Fits32 (value : Int) : Prop := -2147483648 ≤ value ∧ value < 2147483648

instance (value : Int) : Decidable (Fits32 value) := inferInstanceAs (Decidable (_ ∧ _))

/-- The result of an operation whose mathematical value is `exact`. -/
def unwrapped (exact : Int) (result : Int32) : Option Int32 := if result.toInt = exact then some result else none

def addChecked (left right : Int32) : Option Int32 := unwrapped (left.toInt + right.toInt) (left + right)

def subChecked (left right : Int32) : Option Int32 := unwrapped (left.toInt - right.toInt) (left - right)

def mulChecked (left right : Int32) : Option Int32 := unwrapped (left.toInt * right.toInt) (left * right)

/-- A value of `i64`. -/
def fitsI64 (value : Int) : Option Int :=
  if (-value).toNat ≤ 2 ^ 63 ∧ value.toNat < 2 ^ 63 then some value else none

/-- A value of `u64`. -/
def fitsU64 (value : Nat) : Option Nat := if value < 2 ^ 64 then some value else none

theorem fits32_toInt (value : Int32) : Fits32 value.toInt := ⟨value.le_toInt, value.toInt_lt⟩

theorem bmod_of_fits {value : Int} (h : Fits32 value) : value.bmod (2 ^ 32) = value := by
  obtain ⟨hLow, hHigh⟩ := h
  exact Int.bmod_eq_of_le (by omega) (by omega)

theorem toInt_add_of_fits {left right : Int32} (h : Fits32 (left.toInt + right.toInt)) :
    (left + right).toInt = left.toInt + right.toInt := by
  rw [Int32.toInt_add, bmod_of_fits h]

theorem toInt_sub_of_fits {left right : Int32} (h : Fits32 (left.toInt - right.toInt)) :
    (left - right).toInt = left.toInt - right.toInt := by
  rw [Int32.toInt_sub, bmod_of_fits h]

theorem toInt_mul_of_fits {left right : Int32} (h : Fits32 (left.toInt * right.toInt)) :
    (left * right).toInt = left.toInt * right.toInt := by
  rw [Int32.toInt_mul, bmod_of_fits h]

theorem toInt_div_of_nonneg {left right : Int32} {first second : Int} (hLeft : left.toInt = first)
    (hRight : right.toInt = second) (hFirst : 0 ≤ first) (hSecond : 0 < second) :
    (left / right).toInt = first / second := by
  subst hLeft hRight
  have hNe : right ≠ -1 := by
    rintro rfl
    exact absurd hSecond (by decide)
  rw [Int32.toInt_div_of_ne_right _ _ hNe, Int.tdiv_eq_ediv_of_nonneg hFirst]

theorem unwrapped_of_eq {exact : Int} {result : Int32} (h : result.toInt = exact) :
    unwrapped exact result = some result := if_pos h

/-- What does not fit is reported, whatever the operation leaves. -/
theorem unwrapped_of_not_fits {exact : Int} (h : ¬Fits32 exact) (result : Int32) : unwrapped exact result = none :=
  if_neg fun hSame : result.toInt = exact => h (hSame ▸ fits32_toInt result)

theorem eq_of_unwrapped {exact : Int} {result value : Int32} (h : unwrapped exact result = some value) :
    result = value := by
  rw [unwrapped] at h
  split at h
  · exact Option.some.inj h
  · cases h

/-! ## What fits is computed, and nothing else -/

section

variable {left right : Int32} {first second : Int} (hLeft : left.toInt = first) (hRight : right.toInt = second)
include hLeft hRight

theorem addChecked_of_fits (h : Fits32 (first + second)) :
    ∃ sum, addChecked left right = some sum ∧ sum.toInt = first + second := by
  subst hLeft hRight
  exact ⟨_, unwrapped_of_eq (toInt_add_of_fits h), toInt_add_of_fits h⟩

theorem subChecked_of_fits (h : Fits32 (first - second)) :
    ∃ difference, subChecked left right = some difference ∧ difference.toInt = first - second := by
  subst hLeft hRight
  exact ⟨_, unwrapped_of_eq (toInt_sub_of_fits h), toInt_sub_of_fits h⟩

theorem mulChecked_of_fits (h : Fits32 (first * second)) :
    ∃ product, mulChecked left right = some product ∧ product.toInt = first * second := by
  subst hLeft hRight
  exact ⟨_, unwrapped_of_eq (toInt_mul_of_fits h), toInt_mul_of_fits h⟩

theorem addChecked_of_not_fits (h : ¬Fits32 (first + second)) : addChecked left right = none := by
  subst hLeft hRight
  exact unwrapped_of_not_fits h _

theorem mulChecked_of_not_fits (h : ¬Fits32 (first * second)) : mulChecked left right = none := by
  subst hLeft hRight
  exact unwrapped_of_not_fits h _

end

theorem fitsI64_of_le {value : Int} (hLow : (-value).toNat ≤ 2 ^ 63) (hHigh : value.toNat < 2 ^ 63) :
    fitsI64 value = some value := if_pos ⟨hLow, hHigh⟩

end Vannak.Foundation
