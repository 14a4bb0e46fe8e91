import Mathlib.Tactic.Common
import WalletGo.Json.Utf8

/-!
JSON values as they are written: numbers by their literal, strings unescaped,
members in order and possibly several with one key.
-/

namespace Json

/-! ### Number literals -/

inductive NumberState where
  | start
  | neg
  | zero
  | digits
  | dot
  | fraction
  | exp
  | expSign
  | expDigits
deriving DecidableEq, Repr

namespace NumberState

/-- The state after one more character, if the literal can go on with it. -/
def next : NumberState → Char → Option NumberState
  | .start, c => if c = '-' then some .neg else firstDigit c
  | .neg, c => firstDigit c
  | .zero, c => afterInteger c
  | .digits, c => if c.isDigit then some .digits else afterInteger c
  | .dot, c => if c.isDigit then some .fraction else none
  | .fraction, c => if c.isDigit then some .fraction else exponent c
  | .exp, c => if c = '+' ∨ c = '-' then some .expSign else expDigit c
  | .expSign, c => expDigit c
  | .expDigits, c => expDigit c
where
  firstDigit (c : Char) : Option NumberState :=
    if c = '0' then some .zero else if c.isDigit then some .digits else none
  afterInteger (c : Char) : Option NumberState :=
    if c = '.' then some .dot else exponent c
  exponent (c : Char) : Option NumberState :=
    if c = 'e' ∨ c = 'E' then some .exp else none
  expDigit (c : Char) : Option NumberState :=
    if c.isDigit then some .expDigits else none

def final : NumberState → Bool
  | .zero | .digits | .fraction | .expDigits => true
  | .start | .neg | .dot | .exp | .expSign => false

def lex (text : List Char) : Option NumberState := text.foldlM next .start

theorem lex_snoc (text : List Char) (c : Char) :
    lex (text ++ [c]) = (lex text).bind (·.next c) := by
  rw [lex, List.foldlM_append]
  simp only [List.foldlM_cons, List.foldlM_nil, bind_pure]
  rfl

end NumberState

structure Literal where
  text : List Char
  valid : (NumberState.lex text).any (·.final)
deriving DecidableEq

/-! ### Values -/

inductive Tree where
  | null
  | bool (b : Bool)
  | number (n : Literal)
  | string (text : List Char)
  | array (items : List Tree)
  | object (members : List (List Char × Tree))

abbrev Member := List Char × Tree

mutual

/-- How many arrays and objects are open at the deepest point. -/
def Tree.depth : Tree → Nat
  | .array items => itemsDepth items + 1
  | .object members => membersDepth members + 1
  | _ => 0

def itemsDepth : List Tree → Nat
  | [] => 0
  | item :: rest => max item.depth (itemsDepth rest)

def membersDepth : List Member → Nat
  | [] => 0
  | (_, value) :: rest => max value.depth (membersDepth rest)

end

end Json
