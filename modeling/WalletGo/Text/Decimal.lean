import Mathlib.Algebra.Group.Nat.Defs
import Mathlib.Tactic.Common

/-!
Decimal numbers as text.

`zeroPadded` is a number with zeros in front up to a width. Reading digits is
`Nat.ofDigitChars`; what is written here is read back (`value_decimal`,
`value_zeroPadded`), whatever the width.
-/

namespace Text

def decimal (n : Nat) : List Char := Nat.toDigits 10 n

/-- A number in decimal, with zeros in front up to a width. -/
def zeroPadded (width n : Nat) : List Char :=
  List.replicate (width - (decimal n).length) '0' ++ decimal n

def value (digits : List Char) : Nat := Nat.ofDigitChars 10 digits 0

/-- Digits, at least one, and no zero in front of others. -/
def IsDecimal (digits : List Char) : Prop :=
  (∀ c ∈ digits, c.isDigit) ∧ digits ≠ [] ∧ (digits = ['0'] ∨ digits.head? ≠ some '0')

@[simp] theorem value_decimal (n : Nat) : value (decimal n) = n := Nat.ofDigitChars_ten_toDigits

@[simp] theorem value_zeroPadded (width n : Nat) : value (zeroPadded width n) = n := by
  rw [value, zeroPadded, Nat.ofDigitChars_append, Nat.ofDigitChars_replicate_zero, Nat.mul_zero]
  exact value_decimal n

theorem isDigit_decimal {n : Nat} {c : Char} (mem : c ∈ decimal n) : c.isDigit :=
  Nat.isDigit_of_mem_toDigits (by decide) (by decide) mem

theorem isDigit_zeroPadded {width n : Nat} {c : Char} (mem : c ∈ zeroPadded width n) :
    c.isDigit := by
  rcases List.mem_append.mp mem with zero | digit
  · obtain rfl := List.eq_of_mem_replicate zero
    rfl
  · exact isDigit_decimal digit

/-- A positive number does not begin with a zero. -/
theorem head?_decimal {n : Nat} (positive : 0 < n) : (decimal n).head? ≠ some '0' := by
  induction n using Nat.strongRecOn with
  | ind n ih =>
    rw [decimal, Nat.toDigits_eq_if (by decide)]
    split
    · next small =>
      have digit : ∀ d < 10, 0 < d → d.digitChar ≠ '0' := by decide
      simpa using digit n small positive
    · next large =>
      have shorter : 0 < n / 10 := by omega
      have first := ih (n / 10) (by omega) shorter
      cases front : Nat.toDigits 10 (n / 10) with
      | nil => exact absurd front Nat.toDigits_ne_nil
      | cons d rest =>
        rw [decimal, front] at first
        exact first

theorem isDecimal_decimal (n : Nat) : IsDecimal (decimal n) := by
  refine ⟨fun c mem => isDigit_decimal mem, Nat.toDigits_ne_nil, ?_⟩
  rcases Nat.eq_zero_or_pos n with rfl | positive
  · exact .inl (Nat.toDigits_zero 10)
  · exact .inr (head?_decimal positive)

/-- A number that fits has the width exactly. -/
theorem length_zeroPadded {width n : Nat} (positive : 0 < width) (fits : n < 10 ^ width) :
    (zeroPadded width n).length = width := by
  have short : (decimal n).length ≤ width :=
    (Nat.length_toDigits_le_iff (by decide) positive).mpr fits
  rw [zeroPadded, List.length_append, List.length_replicate]
  omega

end Text
