import Mathlib.Tactic.Common
import WalletGo.Domain
import WalletGo.Text.Decimal

/-!
`Money.String`: cents as BRL, for people.

`Formatted` is the shape `[-]R$ D,CC` and `Formatted.amount` what it stands for.
A text has at most one reading of that shape (`Formatted.unique`), because the
last two characters are the cents; so reading back is a matter of exhibiting the
one reading `Money.string` was written with, and the format is injective.
-/

namespace WalletGo

/-- The magnitude in uint64: the negation of the minimum, 2^63, fits there. -/
def Money.magnitude (m : Money) : UInt64 :=
  let abs := m.cents.toUInt64
  if m.cents < 0 then -abs else abs

/-- `Money.String`: `fmt.Sprintf("%sR$ %d,%02d", sign, abs/100, abs%100)`. -/
def Money.string (m : Money) : String :=
  let sign := if m.cents < 0 then "-" else ""
  let abs := m.magnitude
  sign ++ "R$ " ++ String.ofList (Text.decimal (abs / 100).toNat) ++ "," ++
    String.ofList (Text.zeroPadded 2 (abs % 100).toNat)

theorem Money.toNat_magnitude (m : Money) : m.magnitude.toNat = m.cents.toInt.natAbs := by
  have lower := m.cents.le_toInt
  have upper := m.cents.toInt_lt
  have unsigned : (m.cents.toUInt64.toNat : Int) = m.cents.toInt % 2 ^ 64 := by
    have bits : m.cents.toUInt64.toNat = m.cents.toBitVec.toNat := rfl
    have bound := m.cents.toBitVec.isLt
    rw [bits, ← Int64.toInt_toBitVec, BitVec.toInt_eq_toNat_cond]
    split <;> omega
  unfold Money.magnitude
  simp only [Int64.lt_iff_toInt_lt, Int64.toInt_zero]
  split
  · next negative =>
    rw [UInt64.toNat_neg, UInt64.size]
    omega
  · next nonneg =>
    omega

/-! ### The shape and its reading -/

/-- A text `[-]R$ D,CC`: `D` is decimal without a zero in front, `CC` is two digits. -/
structure Formatted (text : String) (negative : Bool) (whole cents : List Char) : Prop where
  shape : text.toList =
    (if negative then ['-'] else []) ++ ['R', '$', ' '] ++ whole ++ [','] ++ cents
  whole_decimal : Text.IsDecimal whole
  cents_length : cents.length = 2
  cents_digits : ∀ c ∈ cents, c.isDigit

/-- `100 * D + CC`, negated when the minus sign is there. -/
def Formatted.amount (negative : Bool) (whole cents : List Char) : Int :=
  let n : Int := 100 * Text.value whole + Text.value cents
  if negative then -n else n

/-- A text is formatted in one way only. -/
theorem Formatted.unique {text : String} {negative negative' : Bool}
    {whole whole' cents cents' : List Char} (one : Formatted text negative whole cents)
    (other : Formatted text negative' whole' cents') :
    negative = negative' ∧ whole = whole' ∧ cents = cents' := by
  have same := one.shape.symm.trans other.shape
  have sign : negative = negative' := by
    cases negative <;> cases negative' <;> simp_all
  subst sign
  simp only [List.append_assoc, List.append_cancel_left_eq] at same
  obtain ⟨wholes, rest⟩ := List.append_inj' same (by simp [one.cents_length, other.cents_length])
  exact ⟨rfl, wholes, List.append_cancel_left rest⟩

/-- What `Money.String` writes has the shape. -/
theorem Money.string_formatted (m : Money) :
    Formatted m.string (m.cents < 0) (Text.decimal (m.magnitude / 100).toNat)
      (Text.zeroPadded 2 (m.magnitude % 100).toNat) := by
  refine ⟨?_, Text.isDecimal_decimal _, ?_, fun c mem => Text.isDigit_zeroPadded mem⟩
  · unfold Money.string
    simp only [decide_eq_true_eq]
    split <;> simp
  · apply Text.length_zeroPadded (by decide)
    rw [UInt64.toNat_mod]
    exact Nat.mod_lt _ (by decide)

/-- The amount can be read back from the parts of its text. -/
theorem Money.string_amount (m : Money) :
    Formatted.amount (m.cents < 0) (Text.decimal (m.magnitude / 100).toNat)
      (Text.zeroPadded 2 (m.magnitude % 100).toNat) = m.cents.toInt := by
  have magnitude := m.toNat_magnitude
  simp only [Formatted.amount, Text.value_decimal, Text.value_zeroPadded, UInt64.toNat_div,
    UInt64.toNat_mod, UInt64.reduceToNat, decide_eq_true_eq, Int64.lt_iff_toInt_lt,
    Int64.toInt_zero]
  split <;> omega

/-- Formatting loses nothing: the text has the shape, every reading of it in that
shape gives the amount back, and so no two amounts share a text. -/
theorem Money.string_reads_back (m : Money) :
    (∃ negative whole cents, Formatted m.string negative whole cents) ∧
      (∀ negative whole cents, Formatted m.string negative whole cents →
        Formatted.amount negative whole cents = m.cents.toInt) ∧
      ∀ other : Money, other.string = m.string → other = m := by
  have readings : ∀ (m : Money) (negative : Bool) (whole cents : List Char),
      Formatted m.string negative whole cents →
        Formatted.amount negative whole cents = m.cents.toInt := by
    intro m negative whole cents reading
    obtain ⟨rfl, rfl, rfl⟩ := reading.unique m.string_formatted
    exact m.string_amount
  refine ⟨⟨_, _, _, m.string_formatted⟩, readings m, ?_⟩
  intro other same
  have shared := readings m _ _ _ (same ▸ other.string_formatted)
  rw [other.string_amount] at shared
  have cents : other.cents = m.cents := Int64.toInt_inj.mp shared
  cases other
  cases m
  exact congrArg Money.mk cents

example : Money.string ⟨Int64.minValue⟩ = "-R$ 92233720368547758,08" := by decide +kernel
example : Money.string ⟨-5⟩ = "-R$ 0,05" := by decide +kernel

end WalletGo
