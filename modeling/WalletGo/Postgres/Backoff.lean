import Mathlib.Algebra.Order.Ring.Int
import Mathlib.Tactic.Common
import WalletGo.Relay.Program
import WalletGo.Domain

/-!
The two backoffs: `nextAttempt` of the relay and `sleepBackoff` of the
serializable executor.

Both double a base by an int64 shift and then put the result under a cap when it
is above it or not positive. A shift that has wrapped can be positive again. It
then is a multiple of a large power of two, because the base is a multiple of a
small one, and so it is above the cap (`toInt_capped_shiftLeft`).
-/

namespace WalletGo

open Relay (shiftLeft)

-- durations are nanoseconds
def baseBackoff : Int64 := 5000000

def maxBackoff : Int64 := 200000000

/-- The bound of the draw in `sleepBackoff`. -/
def sleepCeiling (attempt : Nat) : Int64 :=
  let ceiling := shiftLeft baseBackoff (attempt - 1)
  if ceiling > maxBackoff ∨ ceiling ≤ 0 then maxBackoff else ceiling

/-- `rand.Int64N`, when the generator reads `draw`: `none` is its panic. -/
def int64N (draw : Nat) (n : Int64) : Option Int64 :=
  if n ≤ 0 then none else some (Int64.ofInt (draw % n.toInt.toNat : Nat))

/-- `sleepBackoff`, when the generator reads `draw`: it waits, or returns the
context's error when that comes first. `none` is a panic. -/
def sleepBackoff (ctxDone : Int64 → Option GoError) (draw attempt : Nat) :
    Option (Int64 × Option GoError) :=
  (int64N draw (sleepCeiling attempt)).map fun wait => (wait, ctxDone wait)

/-- The guard after both shifts. -/
def capped (cap ceiling : Int64) : Int64 :=
  if ceiling > cap ∨ ceiling ≤ 0 then cap else ceiling

/-- A ceiling that has overflowed is the cap. -/
theorem toInt_capped {cap ceiling : Int64} :
    (capped cap ceiling).toInt =
      if ceiling.toInt ≤ 0 then cap.toInt else min ceiling.toInt cap.toInt := by
  unfold capped
  simp only [gt_iff_lt, Int64.lt_iff_toInt_lt, Int64.le_iff_toInt_le, Int64.toInt_zero]
  split <;> split <;> omega

/-- A wrapped product keeps the power of two that divides it. -/
theorem dvd_toInt_ofInt {n : Int} {j : Nat} (small : j ≤ 64) (divides : (2 : Int) ^ j ∣ n) :
    (2 : Int) ^ j ∣ (Int64.ofInt n).toInt := by
  have modulus : (2 : Int) ^ j ∣ 2 ^ 64 := ⟨2 ^ (64 - j), by
    rw [← Int.pow_add, Nat.add_sub_cancel' small]⟩
  have wraps : ∃ q : Int, (Int64.ofInt n).toInt = n + 2 ^ 64 * q := by
    rw [Int64.toInt_ofInt, Int.bmod_def]
    refine ⟨if n % 2 ^ 64 < (2 ^ 64 + 1) / 2 then -(n / 2 ^ 64) else -(n / 2 ^ 64) - 1, ?_⟩
    norm_num only
    split <;> omega
  obtain ⟨q, exact⟩ := wraps
  rw [exact]
  exact Int.dvd_add divides (Int.dvd_mul_of_dvd_left modulus)

theorem toInt_shiftLeft {base : Int64} {n : Nat} (positive : 0 < base.toInt)
    (fits : base.toInt * 2 ^ n < 2 ^ 63) : (shiftLeft base n).toInt = base.toInt * 2 ^ n := by
  have grows : (0 : Int) < 2 ^ n := Int.pow_pos (by decide)
  have product : 0 < base.toInt * 2 ^ n := Int.mul_pos positive grows
  have short : n < 64 := by
    by_contra long
    have power : (2 : Int) ^ 64 ≤ 2 ^ n := pow_le_pow_right₀ (by decide) (by omega)
    have larger : (2 : Int) ^ n ≤ base.toInt * 2 ^ n := le_mul_of_one_le_left (by omega) positive
    omega
  rw [shiftLeft, if_pos short]
  exact toInt_ofInt_of_range ⟨by omega, by omega⟩

section Capped

variable {base cap : Int64} {b k : Nat}

/-- Once the shift has left int64, the wrapped value is either not positive or a
positive multiple of `2^(k + n)`, which is at least `2^(64 - b + k)`. -/
theorem shiftLeft_wrapped (bounded : base.toInt < 2 ^ b) (narrow : b ≤ 64)
    (divides : (2 : Int) ^ k ∣ base.toInt) (below : cap.toInt < 2 ^ (64 - b + k)) {n : Nat}
    (leaves : 2 ^ 63 ≤ base.toInt * 2 ^ n) :
    (shiftLeft base n).toInt ≤ 0 ∨ cap.toInt < (shiftLeft base n).toInt := by
  have capFits := cap.toInt_lt
  have grows : (0 : Int) < 2 ^ n := Int.pow_pos (by decide)
  have count : 64 - b ≤ n := by
    by_contra few
    have product : base.toInt * 2 ^ n < 2 ^ b * 2 ^ n := Int.mul_lt_mul_of_pos_right bounded grows
    rw [← Int.pow_add] at product
    have power : (2 : Int) ^ (b + n) ≤ 2 ^ 63 := pow_le_pow_right₀ (by decide) (by omega)
    omega
  unfold shiftLeft
  split
  · rcases lt_or_ge 0 (Int64.ofInt (base.toInt * 2 ^ n)).toInt with again | nonpos
    · -- positive again: at least the power of two that divides it
      right
      have multiple : (2 : Int) ^ min (k + n) 64 ∣ base.toInt * 2 ^ n := by
        obtain ⟨q, factor⟩ := divides
        refine Int.dvd_trans (pow_dvd_pow 2 (Nat.min_le_left _ _)) ⟨q, ?_⟩
        rw [factor, Int.pow_add, Int.mul_right_comm]
      have least := Int.le_of_dvd again (dvd_toInt_ofInt (Nat.min_le_right _ _) multiple)
      rcases Nat.le_total (k + n) 64 with fits | full
      · rw [Nat.min_eq_left fits] at least
        have power : (2 : Int) ^ (64 - b + k) ≤ 2 ^ (k + n) :=
          pow_le_pow_right₀ (by decide) (by omega)
        omega
      · rw [Nat.min_eq_right full] at least
        omega
    · exact .inl nonpos
  · exact .inl (Int.le_refl 0)

/-- A base below `2^b` that is a multiple of `2^k`: if the cap is below
`2^(64 - b + k)`, the capped shift is exact, whatever the shift count. -/
theorem toInt_capped_shiftLeft (positive : 0 < base.toInt) (bounded : base.toInt < 2 ^ b)
    (narrow : b ≤ 64) (divides : (2 : Int) ^ k ∣ base.toInt)
    (below : cap.toInt < 2 ^ (64 - b + k)) (n : Nat) :
    (capped cap (shiftLeft base n)).toInt = min (base.toInt * 2 ^ n) cap.toInt := by
  have capFits := cap.toInt_lt
  have product : 0 < base.toInt * 2 ^ n := Int.mul_pos positive (Int.pow_pos (by decide))
  rw [toInt_capped]
  rcases lt_or_ge (base.toInt * 2 ^ n) (2 ^ 63) with fits | leaves
  · rw [toInt_shiftLeft positive fits, if_neg (by omega)]
  · have capWins : min (base.toInt * 2 ^ n) cap.toInt = cap.toInt := by omega
    rw [capWins]
    rcases shiftLeft_wrapped bounded narrow divides below leaves with nonpos | above
    · rw [if_pos nonpos]
    · split <;> omega

end Capped

/-! ### The draw below a ceiling -/

/-- A drawn wait is below its ceiling. -/
theorem int64N_of_pos {n : Int64} (positive : 0 < n.toInt) (draw : Nat) :
    ∃ wait, int64N draw n = some wait ∧ wait.toInt = (draw % n.toInt.toNat : Nat) ∧
      wait.toInt < n.toInt := by
  have upper := n.toInt_lt
  have remainder : draw % n.toInt.toNat < n.toInt.toNat := Nat.mod_lt _ (by omega)
  have bound : ((draw % n.toInt.toNat : Nat) : Int) < n.toInt := by omega
  have exact : (Int64.ofInt (draw % n.toInt.toNat : Nat)).toInt = (draw % n.toInt.toNat : Nat) :=
    toInt_ofInt_of_range ⟨by omega, by omega⟩
  refine ⟨_, if_neg ?_, exact, ?_⟩
  · rw [Int64.le_iff_toInt_le, Int64.toInt_zero]
    omega
  · rw [exact]
    exact bound

/-- A ceiling that doubles from `base` until `cap` holds it, and draws below it
that never panic. -/
structure Doubles (ceiling : Nat → Int64) (base cap : Int) : Prop where
  exact : ∀ n, (ceiling n).toInt = min (base * 2 ^ n) cap
  positive : ∀ n, 0 < (ceiling n).toInt
  monotone : ∀ n m, n ≤ m → (ceiling n).toInt ≤ (ceiling m).toInt
  waits : ∀ draw n, ∃ wait, int64N draw (ceiling n) = some wait ∧
    0 ≤ wait.toInt ∧ wait.toInt < cap

theorem Doubles.of_exact {ceiling : Nat → Int64} {base cap : Int} (basePos : 0 < base)
    (capPos : 0 < cap) (exact : ∀ n, (ceiling n).toInt = min (base * 2 ^ n) cap) :
    Doubles ceiling base cap := by
  have positive : ∀ n, 0 < (ceiling n).toInt := by
    intro n
    have product : 0 < base * 2 ^ n := Int.mul_pos basePos (Int.pow_pos (by decide))
    rw [exact]
    omega
  refine ⟨exact, positive, ?_, ?_⟩
  · intro n m le
    have powers : (2 : Int) ^ n ≤ 2 ^ m := pow_le_pow_right₀ (by decide) le
    have products := Int.mul_le_mul_of_nonneg_left powers basePos.le
    rw [exact, exact]
    omega
  · intro draw n
    obtain ⟨wait, drawn, value, bound⟩ := int64N_of_pos (positive n) draw
    have underCap := exact n
    exact ⟨wait, drawn, by omega, by omega⟩

/-! ### The two ceilings -/

/-- The relay's ceiling, whatever the number of attempts: no overflow gets past the cap. -/
theorem Relay.toInt_ceiling (attempts : Nat) :
    (Relay.ceiling attempts).toInt = min (1000000000 * 2 ^ attempts) 60000000000 := by
  have shape : Relay.ceiling attempts =
      capped Relay.relayMaxBackoff (shiftLeft Relay.relayBaseBackoff attempts) := by
    cases attempts with
    | zero => rfl
    | succ n => rfl
  rw [shape]
  -- a second is 2^9 * 1953125 ns and less than 2^30 ns
  exact toInt_capped_shiftLeft (b := 30) (k := 9) (by decide) (by decide) (by decide) (by decide)
    (by decide) attempts

/-- The executor's ceiling, whatever the number of attempts. -/
theorem toInt_sleepCeiling (n : Nat) :
    (sleepCeiling (n + 1)).toInt = min (5000000 * 2 ^ n) 200000000 := by
  have shape : sleepCeiling (n + 1) = capped maxBackoff (shiftLeft baseBackoff n) := rfl
  rw [shape]
  -- five milliseconds are 2^6 * 78125 ns and less than 2^23 ns
  exact toInt_capped_shiftLeft (b := 23) (k := 6) (by decide) (by decide) (by decide) (by decide)
    (by decide) n

/-- Neither ceiling wraps, whatever the number of attempts: one second doubling up
to sixty in `nextAttempt`, five milliseconds doubling up to two hundred in
`sleepBackoff`, whose attempts count from one. Both functions draw from a positive
bound and wait for less than the cap. -/
theorem backoff_ceilings_exact :
    Doubles Relay.ceiling 1000000000 60000000000 ∧
      Doubles (fun n => sleepCeiling (n + 1)) 5000000 200000000 ∧
      (∀ clock draw attempts, ∃ wait, int64N draw (Relay.ceiling attempts) = some wait ∧
        Relay.nextAttempt clock draw attempts = clock + wait.toInt.toNat ∧
        wait.toInt < 60000000000) ∧
      ∀ ctxDone draw n, ∃ wait, sleepBackoff ctxDone draw (n + 1) = some (wait, ctxDone wait) ∧
        0 ≤ wait.toInt ∧ wait.toInt < 200000000 := by
  have relay : Doubles Relay.ceiling 1000000000 60000000000 :=
    Doubles.of_exact (by decide) (by decide) Relay.toInt_ceiling
  have sleep : Doubles (fun n => sleepCeiling (n + 1)) 5000000 200000000 :=
    Doubles.of_exact (by decide) (by decide) toInt_sleepCeiling
  refine ⟨relay, sleep, ?_, ?_⟩
  · intro clock draw attempts
    obtain ⟨wait, drawn, value, bound⟩ := int64N_of_pos (relay.positive attempts) draw
    have underCap := relay.exact attempts
    refine ⟨wait, drawn, ?_, by omega⟩
    rw [Relay.nextAttempt, value, Int.toNat_natCast]
  · intro ctxDone draw n
    obtain ⟨wait, drawn, nonneg, bound⟩ := sleep.waits draw n
    refine ⟨wait, ?_, nonneg, bound⟩
    rw [sleepBackoff, drawn, Option.map_some]

end WalletGo
