import Vannak.Foundation.Json

/-!
# Reading JSON values

The accessors of a value and what they read back. A signed integer is kept as a `u64`, or as its
text if it is negative, and a map gives back the fields that it was made of.
-/

namespace Vannak.Foundation.Json

set_option autoImplicit false

def asBool : Json → Option Bool
  | bool value => some value
  | _ => none

def asArray : Json → Option (List Json)
  | array items => some items
  | _ => none

def asObject : Json → Option (List (String × Json))
  | object fields => some fields
  | _ => none

/-- `as_i64`. The text of a number that is no `u64` has a point or an exponent unless it is a negative integer. -/
def asI64 : Json → Option Int64
  | number value => if value.toNat < 2 ^ 63 then some value.toInt64 else none
  | otherNumber text =>
    match text.toList with
    | '-' :: digits =>
      let magnitude := Nat.ofDigitChars 10 digits 0
      if digits.all Char.isDigit ∧ 0 < magnitude ∧ magnitude ≤ 2 ^ 63 then some (.ofInt (-magnitude)) else none
    | _ => none
  | _ => none

/-- The number of a signed integer. -/
def ofI64 (value : Int64) : Json :=
  if 0 ≤ value then number value.toUInt64 else otherNumber ("-" ++ toString value.toInt.natAbs)

theorem asI64_ofI64 (value : Int64) : (ofI64 value).asI64 = some value := by
  rw [ofI64]
  split
  · rename_i hSign
    have hBound : value.toUInt64.toNat < 2 ^ 63 := by
      rw [Int64.toNat_toUInt64_of_le hSign]
      exact Int64.toNatClampNeg_lt value
    rw [asI64, if_pos hBound, Int64.toInt64_toUInt64]
  · rename_i hSign
    have hLower := Int64.le_toInt value
    have hNegative : value.toInt < 0 := by
      rw [Int64.le_iff_toInt_le] at hSign
      exact Int.not_le.mp hSign
    have hDigits : ("-" ++ toString value.toInt.natAbs).toList = '-' :: Nat.toDigits 10 value.toInt.natAbs := by
      rw [String.toList_append, Nat.toString_eq_repr, Nat.toList_repr]
      rfl
    have hAll : (Nat.toDigits 10 value.toInt.natAbs).all Char.isDigit = true :=
      List.all_eq_true.mpr fun char hChar => Nat.isDigit_of_mem_toDigits (by decide) (by decide) hChar
    rw [asI64, hDigits]
    simp only [Nat.ofDigitChars_ten_toDigits]
    rw [if_pos ⟨hAll, by omega, by omega⟩]
    have hValue : -(value.toInt.natAbs : Int) = value.toInt := by omega
    rw [hValue, Int64.ofInt_toInt]

/-! ## Fields -/

section Fields

variable {fields : List (String × Json)} {key : String}

theorem field_ofFields (h : (fields.map Prod.fst).Nodup) : (ofFields fields).field key = (object fields).field key := by
  have hPerm := List.perm_insertionSort (fun left right : String × Json => left.1 ≤ right.1) fields
  have hSorted := (hPerm.map Prod.fst).nodup_iff.mpr h
  refine congrArg (Option.map Prod.snd) (List.find?_eq_find?_of_perm hPerm ?_)
  rintro left ⟨hLeft, hLeftKey⟩ right ⟨hRight, hRightKey⟩
  exact List.inj_on_of_nodup_map hSorted hLeft hRight
    ((of_decide_eq_true hLeftKey).trans (of_decide_eq_true hRightKey).symm)

end Fields

/-! ## Arrays of strings -/

/-- Reading the items one after the other, up to the first that is no string. -/
def strings {ε : Type} (error : ε) (items : List Json) : Except ε (List String) :=
  items.mapM fun item => item.asStr.elim (.error error) .ok

theorem strings_map_string {ε : Type} (error : ε) (values : List String) :
    strings error (values.map string) = .ok values := by
  induction values with
  | nil => rfl
  | cons value values ih =>
    rw [strings] at ih ⊢
    rw [List.map_cons, List.mapM_cons, ih]
    rfl

end Vannak.Foundation.Json
