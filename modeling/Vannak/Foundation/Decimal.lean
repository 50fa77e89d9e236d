import Mathlib

/-!
# Decimal text and its order

Numbers written with a fixed number of digits are ordered as their texts are. Fractions
are written with any number of digits and are not: a text that is continued by further
digits comes after or before the shorter one as the character behind them decides.
-/

namespace Vannak.Foundation

set_option autoImplicit false

/-! ## Lexicographic order -/

theorem append_lt_append_iff {α : Type} [LinearOrder α] {left right : List α}
    (h : left.length = right.length) (after other : List α) :
    left ++ after < right ++ other ↔ left < right ∨ left = right ∧ after < other := by
  induction left generalizing right with
  | nil =>
    obtain rfl := List.length_eq_zero_iff.mp h.symm
    simp
  | cons head left ih =>
    cases right with
    | nil => cases h
    | cons first right =>
      have hTail := ih (Nat.succ.inj h)
      rw [List.cons_append, List.cons_append, List.cons_lt_cons_iff, List.cons_lt_cons_iff, hTail]
      constructor
      · rintro (hLt | ⟨rfl, hLt | ⟨rfl, hLt⟩⟩)
        · exact .inl (.inl hLt)
        · exact .inl (.inr ⟨rfl, hLt⟩)
        · exact .inr ⟨rfl, hLt⟩
      · rintro ((hLt | ⟨rfl, hLt⟩) | ⟨hSame, hLt⟩)
        · exact .inl hLt
        · exact .inr ⟨rfl, .inl hLt⟩
        · obtain ⟨rfl, rfl⟩ := List.cons.inj hSame
          exact .inr ⟨rfl, .inr ⟨rfl, hLt⟩⟩

/-! ## Numbers of a fixed width -/

instance tenNeZero : NeZero 10 := ⟨by decide⟩

def digitChar (digit : Fin 10) : Char := Char.ofNat (48 + digit)

theorem digitChar_strictMono : StrictMono digitChar := by
  have h : ∀ left right : Fin 10, left < right → digitChar left < digitChar right := by decide
  exact fun left right => h left right

/-- The `width` least significant decimal digits, most significant first. -/
def decimal : Nat → Nat → List Char
  | 0, _ => []
  | width + 1, n => digitChar (Fin.ofNat 10 (n / 10 ^ width)) :: decimal width (n % 10 ^ width)

@[simp] theorem length_decimal (width n : Nat) : (decimal width n).length = width := by
  induction width generalizing n with
  | zero => rfl
  | succ width ih => rw [decimal, List.length_cons, ih]

theorem decimal_lt_decimal_iff {width n m : Nat} (hn : n < 10 ^ width) (hm : m < 10 ^ width) :
    decimal width n < decimal width m ↔ n < m := by
  induction width generalizing n m with
  | zero =>
    have hBoth : n = m := by
      rw [pow_zero] at hn hm
      omega
    simp [decimal, hBoth]
  | succ width ih =>
    have hPower : 0 < 10 ^ width := Nat.pow_pos (by decide)
    rw [pow_succ] at hn hm
    have hTop : n / 10 ^ width < 10 := Nat.div_lt_of_lt_mul hn
    have hOtherTop : m / 10 ^ width < 10 := Nat.div_lt_of_lt_mul hm
    have hSplit := Nat.div_add_mod n (10 ^ width)
    have hOtherSplit := Nat.div_add_mod m (10 ^ width)
    have hLow := Nat.mod_lt n hPower
    have hOtherLow := Nat.mod_lt m hPower
    have hDigits : Fin.ofNat 10 (n / 10 ^ width) < Fin.ofNat 10 (m / 10 ^ width) ↔
        n / 10 ^ width < m / 10 ^ width := by
      rw [Fin.lt_def, Fin.val_ofNat, Fin.val_ofNat, Nat.mod_eq_of_lt hTop, Nat.mod_eq_of_lt hOtherTop]
    have hSameDigit : Fin.ofNat 10 (n / 10 ^ width) = Fin.ofNat 10 (m / 10 ^ width) ↔
        n / 10 ^ width = m / 10 ^ width := by
      rw [Fin.ext_iff, Fin.val_ofNat, Fin.val_ofNat, Nat.mod_eq_of_lt hTop, Nat.mod_eq_of_lt hOtherTop]
    rw [decimal, decimal, List.cons_lt_cons_iff, digitChar_strictMono.lt_iff_lt,
      digitChar_strictMono.injective.eq_iff, hDigits, hSameDigit, ih hLow hOtherLow]
    constructor
    · rintro (hLt | ⟨hSame, hLt⟩)
      · have hStep : 10 ^ width * (n / 10 ^ width + 1) ≤ 10 ^ width * (m / 10 ^ width) :=
          Nat.mul_le_mul_left _ hLt
        rw [Nat.mul_add, Nat.mul_one] at hStep
        omega
      · rw [hSame] at hSplit
        omega
    · intro hLt
      rcases (Nat.div_le_div_right (c := 10 ^ width) hLt.le).lt_or_eq with hTopLt | hTopEq
      · exact .inl hTopLt
      · refine .inr ⟨hTopEq, ?_⟩
        rw [hTopEq] at hSplit
        omega

theorem decimal_inj {width n m : Nat} (hn : n < 10 ^ width) (hm : m < 10 ^ width)
    (h : decimal width n = decimal width m) : n = m := by
  rcases Nat.lt_trichotomy n m with hLt | hEq | hLt
  · exact absurd ((decimal_lt_decimal_iff hn hm).mpr hLt) (h ▸ lt_irrefl _)
  · exact hEq
  · exact absurd ((decimal_lt_decimal_iff hm hn).mpr hLt) (h ▸ lt_irrefl _)

/-! ## Fractions -/

/-- The value of the digits behind a decimal point. -/
def fractionValue : List (Fin 10) → ℚ
  | [] => 0
  | digit :: digits => ((digit : Nat) + fractionValue digits) / 10

theorem fractionValue_nonneg (digits : List (Fin 10)) : 0 ≤ fractionValue digits := by
  induction digits with
  | nil => exact le_refl 0
  | cons digit digits ih =>
    rw [fractionValue]
    positivity

theorem fractionValue_lt_one (digits : List (Fin 10)) : fractionValue digits < 1 := by
  induction digits with
  | nil => exact zero_lt_one
  | cons digit digits ih =>
    have hDigit : ((digit : Nat) : ℚ) ≤ 9 := by exact_mod_cast Nat.le_of_lt_succ digit.isLt
    rw [fractionValue, div_lt_one (by norm_num)]
    linarith

theorem fractionValue_le_of_isPrefix {left right : List (Fin 10)} (h : left <+: right) :
    fractionValue left ≤ fractionValue right := by
  induction left generalizing right with
  | nil => exact fractionValue_nonneg right
  | cons digit left ih =>
    obtain ⟨rest, rfl⟩ := h
    rw [List.cons_append, fractionValue, fractionValue]
    have hTail := ih (List.prefix_append left rest)
    gcongr

/-- The first digit in which two fractions differ decides, unless one of them ends
before it. -/
theorem fractionValue_lt_of_lt {left right : List (Fin 10)} (hLeft : ¬left <+: right)
    (h : left < right) : fractionValue left < fractionValue right := by
  induction left generalizing right with
  | nil => exact absurd List.nil_prefix hLeft
  | cons digit left ih =>
    cases right with
    | nil => exact absurd h (List.not_lt_nil _)
    | cons first right =>
      rw [fractionValue, fractionValue]
      rcases List.cons_lt_cons_iff.mp h with hDigit | ⟨rfl, hTail⟩
      · have hStep : ((digit : Nat) : ℚ) + 1 ≤ ((first : Nat) : ℚ) := by exact_mod_cast hDigit
        have hBelow := fractionValue_lt_one left
        have hAbove := fractionValue_nonneg right
        gcongr ?_ / 10
        linarith
      · have hValue := ih (fun hPrefix => hLeft (List.prefix_cons_inj digit |>.mpr hPrefix)) hTail
        gcongr

/-- Behind a closing character that is larger than every digit the shorter fraction comes last. -/
theorem closed_lt_closed_iff {close : Char} (hClose : ∀ digit, digitChar digit < close)
    (left right : List (Fin 10)) :
    left.map digitChar ++ [close] < right.map digitChar ++ [close] ↔
      (right <+: left ∧ left ≠ right) ∨ (¬left <+: right ∧ left < right) := by
  induction left generalizing right with
  | nil =>
    cases right with
    | nil => simp
    | cons first right =>
      have hAfter : ¬([close] : List Char) < digitChar first :: (right.map digitChar ++ [close]) := by
        rw [List.cons_lt_cons_iff]
        rintro (hLt | ⟨hSame, -⟩)
        · exact absurd hLt (hClose first).asymm
        · exact absurd hSame (hClose first).ne'
      simpa using hAfter
  | cons digit left ih =>
    cases right with
    | nil =>
      have hBefore : digitChar digit :: (left.map digitChar ++ [close]) < ([close] : List Char) :=
        List.cons_lt_cons_iff.mpr (.inl (hClose digit))
      simpa using hBefore
    | cons first right =>
      rw [List.map_cons, List.map_cons, List.cons_append, List.cons_append, List.cons_lt_cons_iff,
        digitChar_strictMono.lt_iff_lt, digitChar_strictMono.injective.eq_iff, ih, List.cons_prefix_cons,
        List.cons_prefix_cons, List.cons_lt_cons_iff]
      constructor
      · rintro (hLt | ⟨rfl, ⟨hPrefix, hNe⟩ | ⟨hNot, hLt⟩⟩)
        · exact .inr ⟨fun hBoth => absurd hBoth.1 hLt.ne, .inl hLt⟩
        · exact .inl ⟨⟨rfl, hPrefix⟩, fun hSame => hNe (List.cons.inj hSame).2⟩
        · exact .inr ⟨fun hBoth => hNot hBoth.2, .inr ⟨rfl, hLt⟩⟩
      · rintro (⟨⟨rfl, hPrefix⟩, hNe⟩ | ⟨hNot, hLt | ⟨rfl, hLt⟩⟩)
        · exact .inr ⟨rfl, .inl ⟨hPrefix, fun hSame => hNe (congrArg (List.cons _) hSame)⟩⟩
        · exact .inl hLt
        · exact .inr ⟨rfl, .inr ⟨fun hPrefix => hNot ⟨rfl, hPrefix⟩, hLt⟩⟩

end Vannak.Foundation
