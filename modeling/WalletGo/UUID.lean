import Mathlib.Tactic.Common
import Mathlib.Tactic.Ring

/-!
Account, transfer and event identifiers, and the order in which the locking
strategy locks two accounts.

`lockOrder` compares the sixteen bytes from the left. `UUID.rank` reads them as
one big-endian number, so that the order of locking is an order on numbers
(`lockOrder_ascending`).
-/

namespace WalletGo

/-- `uuid.UUID` is `[16]byte`. -/
structure UUID where
  bytes : List UInt8
  length_eq : bytes.length = 16
deriving DecidableEq, Repr

namespace UUID

/-- `uuid.Nil`, also what `COALESCE(transfer_id, '0000…')` reads a NULL as. -/
def zero : UUID := ⟨List.replicate 16 0, rfl⟩

instance : Inhabited UUID := ⟨zero⟩

/-- The identifier whose last byte is `b` and whose other bytes are zero. -/
def ofByte (b : UInt8) : UUID := ⟨List.replicate 15 0 ++ [b], rfl⟩

end UUID

/-- `bytes.Compare`: lexicographic, a proper prefix first. -/
def bytesCompare : List UInt8 → List UInt8 → Int
  | [], [] => 0
  | [], _ :: _ => -1
  | _ :: _, [] => 1
  | a :: as, b :: bs =>
      if a < b then -1
      else if b < a then 1
      else bytesCompare as bs

/-- `lockOrder`: the two ids in ascending order. -/
def lockOrder (a b : UUID) : UUID × UUID :=
  if bytesCompare a.bytes b.bytes ≤ 0 then (a, b) else (b, a)

/-- A byte string read as a big-endian number. -/
def bigEndian : List UInt8 → Nat
  | [] => 0
  | b :: rest => b.toNat * 256 ^ rest.length + bigEndian rest

/-- The position of an identifier in the order of locking. -/
def UUID.rank (id : UUID) : Nat := bigEndian id.bytes

theorem bigEndian_lt (bytes : List UInt8) : bigEndian bytes < 256 ^ bytes.length := by
  induction bytes with
  | nil => simp [bigEndian]
  | cons b rest ih =>
      have byte : b.toNat + 1 ≤ 256 := b.toNat_lt
      calc
        bigEndian (b :: rest) < b.toNat * 256 ^ rest.length + 256 ^ rest.length := by
          simp only [bigEndian]
          omega
        _ = (b.toNat + 1) * 256 ^ rest.length := by ring
        _ ≤ 256 * 256 ^ rest.length := Nat.mul_le_mul_right _ byte
        _ = 256 ^ (b :: rest).length := by
          rw [List.length_cons, pow_succ, Nat.mul_comm]

/-- The first differing byte decides, whatever the rest holds. -/
theorem bigEndian_lt_of_head {a b : UInt8} {as bs : List UInt8} (lengths : as.length = bs.length)
    (less : a < b) : bigEndian (a :: as) < bigEndian (b :: bs) := by
  have byte : a.toNat + 1 ≤ b.toNat := UInt8.lt_iff_toNat_lt.mp less
  calc
    bigEndian (a :: as) < a.toNat * 256 ^ as.length + 256 ^ as.length := by
      simp only [bigEndian]
      have := bigEndian_lt as
      omega
    _ = (a.toNat + 1) * 256 ^ bs.length := by
      rw [lengths]
      ring
    _ ≤ b.toNat * 256 ^ bs.length := Nat.mul_le_mul_right _ byte
    _ ≤ bigEndian (b :: bs) := Nat.le_add_right _ _

/-- On equally long byte strings `bytes.Compare` is the comparison of the
numbers they spell. -/
theorem bytesCompare_spec {as bs : List UInt8} (lengths : as.length = bs.length) :
    (bytesCompare as bs ≤ 0 → as = bs ∨ bigEndian as < bigEndian bs) ∧
      (¬ bytesCompare as bs ≤ 0 → bigEndian bs < bigEndian as) := by
  induction as generalizing bs with
  | nil =>
      cases bs with
      | nil => simp [bytesCompare]
      | cons b bs => simp at lengths
  | cons a as ih =>
      cases bs with
      | nil => simp at lengths
      | cons b bs =>
          have tails : as.length = bs.length := by simpa using lengths
          simp only [bytesCompare]
          by_cases less : a < b
          · rw [if_pos less]
            exact ⟨fun _ => Or.inr (bigEndian_lt_of_head tails less), fun h => absurd (by decide) h⟩
          · rw [if_neg less]
            by_cases greater : b < a
            · rw [if_pos greater]
              exact ⟨fun h => absurd h (by decide),
                fun _ => bigEndian_lt_of_head tails.symm greater⟩
            · rw [if_neg greater]
              have same : a = b :=
                UInt8.le_antisymm (UInt8.not_lt.mp greater) (UInt8.not_lt.mp less)
              obtain ⟨below, above⟩ := ih tails
              subst same
              simp only [bigEndian, tails]
              refine ⟨fun h => ?_, fun h => Nat.add_lt_add_left (above h) _⟩
              rcases below h with rfl | lt
              · exact Or.inl rfl
              · exact Or.inr (Nat.add_lt_add_left lt _)

theorem UUID.rank_lt (id : UUID) : id.rank < 256 ^ 16 := by
  have bound := bigEndian_lt id.bytes
  rwa [id.length_eq] at bound

/-- Two distinct accounts are locked in strictly ascending order, whichever of
them is the source. -/
theorem lockOrder_ascending {a b : UUID} (distinct : a ≠ b) :
    (lockOrder a b).1.rank < (lockOrder a b).2.rank := by
  obtain ⟨below, above⟩ := bytesCompare_spec (a.length_eq.trans b.length_eq.symm)
  unfold lockOrder
  by_cases le : bytesCompare a.bytes b.bytes ≤ 0
  · rw [if_pos le]
    rcases below le with same | less
    · cases a
      cases b
      cases same
      exact absurd rfl distinct
    · exact less
  · rw [if_neg le]
    exact above le

/-- `lockOrder` only reorders: the two ids it returns are the two it was given. -/
theorem lockOrder_cases (a b : UUID) :
    lockOrder a b = (a, b) ∨ lockOrder a b = (b, a) := by
  unfold lockOrder
  split
  · exact Or.inl rfl
  · exact Or.inr rfl

end WalletGo
