import Mathlib.Algebra.Group.Int.Defs
import Mathlib.Tactic.Common
import WalletGo.Errors

/-!
`internal/domain`: money in integer cents and the rule for debiting an account.

`Money` is an int64; its arithmetic wraps and is checked afterwards, as in the
source. `canDebit` is the only place where a balance is compared with an amount.
`canDebit_customer` reads off what a successful check says about the exact
numbers, which is all that the ledger's invariants need of it. `Money.Exact`
compares a checked result with the number it stands for.
-/

namespace WalletGo

/-- `domain.Money`: an amount of BRL in cents. -/
structure Money where
  cents : Int64
deriving DecidableEq, Repr

inductive AccountKind where
  | customer
  | system
deriving DecidableEq, Repr

def newMoney (cents : Int64) : Money := ⟨cents⟩

def newTransferAmount (cents : Int64) : Except GoError Money :=
  if cents ≤ 0 then .error .errInvalidAmount else .ok ⟨cents⟩

/-- `Money.Add`: int64 addition wraps, and the wrapped sum is what is tested. -/
def Money.add (m other : Money) : Except GoError Money :=
  let a := m.cents
  let b := other.cents
  let sum := a + b
  if (b > 0 ∧ sum < a) ∨ (b < 0 ∧ sum > a) then .error .errMoneyOverflow else .ok ⟨sum⟩

def Money.sub (m other : Money) : Except GoError Money :=
  if other.cents = Int64.minValue then .error .errMoneyOverflow else m.add ⟨-other.cents⟩

/-- `domain.CanDebit`: `none` is the nil error. -/
def canDebit (balance amount : Money) (kind : AccountKind) : Option GoError :=
  if kind = .system then none
  else
    match balance.sub amount with
    | .error err => some err
    | .ok remaining => if remaining.cents < 0 then some .errInsufficientFunds else none

/-! ### What the checks say about exact numbers -/

def Int64Range (n : Int) : Prop := -2 ^ 63 ≤ n ∧ n ≤ 2 ^ 63 - 1

instance (n : Int) : Decidable (Int64Range n) := by
  unfold Int64Range; infer_instance

theorem toInt_ofInt_of_range {n : Int} (fits : Int64Range n) : (Int64.ofInt n).toInt = n := by
  obtain ⟨lower, upper⟩ := fits
  apply Int64.toInt_ofInt_of_le
  · omega
  · omega

theorem newTransferAmount_ok {cents : Int64} {amount : Money}
    (accepted : newTransferAmount cents = .ok amount) :
    amount = ⟨cents⟩ ∧ 0 < cents.toInt := by
  unfold newTransferAmount at accepted
  split at accepted
  · cases accepted
  · rename_i positive
    cases accepted
    refine ⟨rfl, ?_⟩
    have := mt Int64.le_iff_toInt_le.mpr positive
    simpa using this

/-- Negating a positive amount never wraps. -/
theorem toInt_neg_of_pos {x : Int64} (positive : 0 < x.toInt) : (-x).toInt = -x.toInt := by
  have upper := x.toInt_lt
  rw [Int64.toInt_neg]
  apply Int.bmod_eq_of_le <;> omega

/-- `Money.Add` succeeds only with the exact sum. -/
theorem Money.add_ok {m other sum : Money} (added : m.add other = .ok sum) :
    sum.cents.toInt = m.cents.toInt + other.cents.toInt := by
  unfold Money.add at added
  simp only at added
  split at added
  · cases added
  · rename_i fits
    cases added
    push Not at fits
    obtain ⟨above, below⟩ := fits
    simp only [gt_iff_lt, Int64.lt_iff_toInt_lt, Int64.toInt_zero] at above below
    have lowerA := m.cents.le_toInt
    have upperA := m.cents.toInt_lt
    have lowerB := other.cents.le_toInt
    have upperB := other.cents.toInt_lt
    rw [Int64.toInt_add] at above below ⊢
    simp only [Int.bmod_def] at above below ⊢
    omega

theorem Money.sub_error {m other : Money} {err : GoError} (failed : m.sub other = .error err) :
    err = .errMoneyOverflow := by
  unfold Money.sub Money.add at failed
  simp only at failed
  split at failed
  · cases failed
    rfl
  · split at failed
    · cases failed
      rfl
    · cases failed

/-- The two reasons to refuse a debit. -/
theorem canDebit_error {balance amount : Money} {kind : AccountKind} {err : GoError}
    (refused : canDebit balance amount kind = some err) :
    err = .errMoneyOverflow ∨ err = .errInsufficientFunds := by
  unfold canDebit at refused
  split at refused
  · cases refused
  · split at refused
    · next overflowed =>
      cases refused
      exact .inl (Money.sub_error overflowed)
    · split at refused
      · cases refused
        exact .inr rfl
      · cases refused

/-- A customer account that passes the check holds at least the amount: the
subtraction is exact, whatever the two int64 values are. -/
theorem canDebit_customer {balance amount : Money} (positive : 0 < amount.cents.toInt)
    (passes : canDebit balance amount .customer = none) :
    amount.cents.toInt ≤ balance.cents.toInt := by
  simp only [canDebit, reduceCtorEq, if_false] at passes
  cases difference : balance.sub amount with
  | error err => simp [difference] at passes
  | ok remaining =>
      simp only [difference] at passes
      unfold Money.sub at difference
      split at difference
      · cases difference
      · have exact := Money.add_ok difference
        simp only [toInt_neg_of_pos positive] at exact
        split at passes
        · cases passes
        · rename_i nonneg
          have : 0 ≤ remaining.cents.toInt := by
            simpa using mt Int64.lt_iff_toInt_lt.mpr nonneg
          omega

/-- `Money.Add` succeeds whenever the exact sum is an int64. -/
theorem Money.add_of_range (m other : Money)
    (fits : Int64Range (m.cents.toInt + other.cents.toInt)) :
    ∃ sum, m.add other = .ok sum ∧ sum.cents.toInt = m.cents.toInt + other.cents.toInt := by
  obtain ⟨lower, upper⟩ := fits
  have exact : (m.cents + other.cents).toInt = m.cents.toInt + other.cents.toInt := by
    rw [Int64.toInt_add]
    apply Int.bmod_eq_of_le <;> omega
  refine ⟨⟨m.cents + other.cents⟩, ?_, exact⟩
  unfold Money.add
  simp only [gt_iff_lt, Int64.lt_iff_toInt_lt, Int64.toInt_zero, exact]
  rw [if_neg (by omega)]

theorem Money.add_error {m other : Money} {err : GoError} (failed : m.add other = .error err) :
    err = .errMoneyOverflow := by
  unfold Money.add at failed
  simp only at failed
  split at failed
  · cases failed
    rfl
  · cases failed

/-! ### Exact results -/

theorem int64Range_toInt (x : Int64) : Int64Range x.toInt := by
  have lower := x.le_toInt
  have upper := x.toInt_lt
  constructor <;> omega

/-- A checked result against the exact number: the number itself when it is an
int64, and `ErrMoneyOverflow` exactly when it is not. -/
structure Money.Exact (result : Except GoError Money) (n : Int) : Prop where
  fits : Int64Range n → ∃ m, result = .ok m ∧ m.cents.toInt = n
  overflows : result = .error .errMoneyOverflow ↔ ¬ Int64Range n

/-- Addition is exact or reports the overflow. -/
theorem Money.add_exact (m other : Money) :
    Money.Exact (m.add other) (m.cents.toInt + other.cents.toInt) := by
  refine ⟨Money.add_of_range m other, ?_, ?_⟩
  · intro refused fits
    obtain ⟨sum, added, -⟩ := Money.add_of_range m other fits
    rw [refused] at added
    cases added
  · intro outside
    cases added : m.add other with
    | error err => rw [Money.add_error added]
    | ok sum =>
      have exact := Money.add_ok added
      exact absurd (exact ▸ int64Range_toInt sum.cents) outside

/-- Only the minimum has no negation. -/
theorem toInt_neg_of_ne_min {x : Int64} (notMin : x ≠ Int64.minValue) :
    (-x).toInt = -x.toInt := by
  have lower := x.le_toInt
  have upper := x.toInt_lt
  have above : x.toInt ≠ -2 ^ 63 := by
    intro least
    exact notMin (Int64.toInt_inj.mp least)
  rw [Int64.toInt_neg]
  apply Int.bmod_eq_of_le <;> omega

/-- Subtraction is exact or reports the overflow, except for the one amount that has no negation. -/
theorem Money.sub_exact {m other : Money} (notMin : other.cents ≠ Int64.minValue) :
    Money.Exact (m.sub other) (m.cents.toInt - other.cents.toInt) := by
  have added := Money.add_exact m ⟨-other.cents⟩
  rw [toInt_neg_of_ne_min notMin, ← Int.sub_eq_add_neg] at added
  rw [Money.sub, if_neg notMin]
  exact added

/-- `Money.Add` is exact everywhere. `Money.Sub` refuses the minimum before it
looks at the other operand, so it is exact unless the minimum is taken from a
negative amount, where the difference is an int64 and is refused all the same. -/
theorem Money.arithmetic_exact_iff (a b : Money) :
    (Money.Exact (a.add b) (a.cents.toInt + b.cents.toInt) ∧
      Money.Exact (a.sub b) (a.cents.toInt - b.cents.toInt)) ↔
      (b.cents = Int64.minValue → 0 ≤ a.cents.toInt) := by
  constructor
  · rintro ⟨-, subtracted⟩ least
    by_contra negative
    have refused : a.sub b = .error .errMoneyOverflow := if_pos least
    have outside := subtracted.overflows.mp refused
    have lower := a.cents.le_toInt
    have minimum : b.cents.toInt = -2 ^ 63 := by rw [least]; rfl
    exact outside ⟨by omega, by omega⟩
  · intro allowed
    refine ⟨Money.add_exact a b, ?_⟩
    by_cases least : b.cents = Int64.minValue
    · have nonneg := allowed least
      have minimum : b.cents.toInt = -2 ^ 63 := by rw [least]; rfl
      have outside : ¬ Int64Range (a.cents.toInt - b.cents.toInt) := by
        rintro ⟨-, upper⟩
        omega
      have refused : a.sub b = .error .errMoneyOverflow := if_pos least
      exact ⟨fun fits => absurd fits outside, fun _ => outside, fun _ => refused⟩
    · exact Money.sub_exact least

/-- One cent below zero, less the minimum, is the maximum; `Money.Sub` reports an
overflow. -/
theorem Money.sub_minimum_refused :
    Int64Range ((-1 : Int64).toInt - Int64.minValue.toInt) ∧
      Money.sub ⟨-1⟩ ⟨Int64.minValue⟩ = .error .errMoneyOverflow ∧
      ¬ Money.Exact (Money.sub ⟨-1⟩ ⟨Int64.minValue⟩)
        ((-1 : Int64).toInt - Int64.minValue.toInt) := by
  have fits : Int64Range ((-1 : Int64).toInt - Int64.minValue.toInt) := by decide
  have refused : Money.sub ⟨-1⟩ ⟨Int64.minValue⟩ = .error .errMoneyOverflow := rfl
  exact ⟨fits, refused, fun exact => exact.overflows.mp refused fits⟩

/-- A customer account that holds the amount passes the check. -/
theorem canDebit_of_le {balance amount : Money} {kind : AccountKind}
    (positive : 0 < amount.cents.toInt)
    (enough : kind = .customer → amount.cents.toInt ≤ balance.cents.toInt) :
    canDebit balance amount kind = none := by
  cases kind with
  | system => rfl
  | customer =>
    have negated := toInt_neg_of_pos positive
    have held := enough rfl
    have upper := balance.cents.toInt_lt
    obtain ⟨remaining, subtracted, exact⟩ := Money.add_of_range balance ⟨-amount.cents⟩
      ⟨by rw [negated]; omega, by rw [negated]; omega⟩
    have notMin : amount.cents ≠ Int64.minValue := by
      intro same
      rw [same] at positive
      exact absurd positive (by decide)
    have nonneg : ¬ remaining.cents < 0 := by
      rw [Int64.lt_iff_toInt_lt, exact, negated, Int64.toInt_zero]
      omega
    simp only [canDebit, reduceCtorEq, if_false, Money.sub, notMin, subtracted, nonneg]

end WalletGo
