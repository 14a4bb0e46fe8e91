import WalletGo.Text.Decimal

/-!
Signed integers as text, as a parser of a fixed width reads them.

`parseInt` takes a sign or none, then decimal digits, at least one and any number of
zeros in front, and refuses what does not fit the width.
-/

namespace Text

/-- A sign in front, if there is one, and what follows it. -/
def splitSign : List Char → Bool × List Char
  | '-' :: rest => (true, rest)
  | '+' :: rest => (false, rest)
  | text => (false, text)

/-- `strconv.ParseInt(text, 10, bits)` -/
def parseInt (bits : Nat) (text : List Char) : Option Int :=
  let (negative, digits) := splitSign text
  if digits = [] ∨ ¬ digits.all Char.isDigit then none
  else
    let n := value digits
    if negative then if n ≤ 2 ^ (bits - 1) then some (-n) else none
    else if n < 2 ^ (bits - 1) then some n else none

end Text
