import WalletGo.Json.Grammar

/-!
Writing a JSON value as Go's `json.Marshal` does, and reading it back.

The text is compact; a string has the characters escaped that JSON or HTML
requires. The text is a spelling of the value (`print_spells`), hence `parse_print`:
what is printed is read back, and printing is injective.
-/

namespace Json

def shortEscape : Char → Option Char
  | '"' => some '"'
  | '\\' => some '\\'
  | '\x08' => some 'b'
  | '\x0c' => some 'f'
  | '\n' => some 'n'
  | '\r' => some 'r'
  | '\t' => some 't'
  | _ => none

/-- Control characters, the HTML ones and the two line separators of JavaScript. -/
def needsCode (c : Char) : Bool :=
  decide (c.toNat < 0x20) || c == '<' || c == '>' || c == '&' || c.toNat == 0x2028 ||
    c.toNat == 0x2029

def escapeChar (c : Char) : List Char :=
  match shortEscape c with
  | some e => ['\\', e]
  | none =>
    if needsCode c then
      ['\\', 'u', hexDigit (c.toNat / 0x1000), hexDigit (c.toNat / 0x100 % 0x10),
        hexDigit (c.toNat / 0x10 % 0x10), hexDigit (c.toNat % 0x10)]
    else [c]

def quote (text : List Char) : List Char := '"' :: text.flatMap escapeChar ++ ['"']

mutual

def Tree.print : Tree → List Char
  | .null => ['n', 'u', 'l', 'l']
  | .bool true => ['t', 'r', 'u', 'e']
  | .bool false => ['f', 'a', 'l', 's', 'e']
  | .number n => n.text
  | .string text => quote text
  | .array [] => ['[', ']']
  | .array (item :: rest) => '[' :: (item.print ++ printItems rest)
  | .object [] => ['\x7b', '\x7d']
  | .object ((key, value) :: rest) =>
    '\x7b' :: (quote key ++ ':' :: (value.print ++ printMembers rest))

/-- The items after the first, and the closing bracket. -/
def printItems : List Tree → List Char
  | [] => [']']
  | item :: rest => ',' :: (item.print ++ printItems rest)

/-- The members after the first, and the closing brace. -/
def printMembers : List Member → List Char
  | [] => ['\x7d']
  | (key, value) :: rest => ',' :: (quote key ++ ':' :: (value.print ++ printMembers rest))

end

/-! ### The printed text is a spelling -/

def pieceOf (c : Char) : Piece :=
  if (shortEscape c).isNone && needsCode c then .code c.toNat else .rune c

theorem unescape_shortEscape {c e : Char} (short : shortEscape c = some e) :
    unescape e = some c ∧ e ≠ 'u' := by
  unfold shortEscape at short
  split at short <;> cases short <;> decide

theorem needsCode_lt {c : Char} (needs : needsCode c) : c.toNat < 0xD800 := by
  simp only [needsCode, Bool.or_eq_true, decide_eq_true_eq, beq_iff_eq] at needs
  rcases needs with ((((low | rfl) | rfl) | rfl) | same) | same
  · omega
  · decide
  · decide
  · decide
  · omega
  · omega

theorem unquote_code {n : Nat} (low : n < 0xD800) (pieces : List Piece) :
    unquote (.code n :: pieces) = Char.ofNat n :: unquote pieces := by
  have notHigh : isHighSurrogate n = false := decide_eq_false (by omega)
  have notLow : isLowSurrogate n = false := decide_eq_false (by omega)
  have single : ofCode n = Char.ofNat n := by
    simp [ofCode, notHigh, notLow]
  cases pieces with
  | nil => simp [unquote, single]
  | cons piece rest =>
    cases piece with
    | rune c => simp [unquote, single]
    | code m => simp [unquote, single, notHigh]

/-- The pieces of a text are read back as the text. -/
theorem unquote_pieces (text : List Char) : unquote (text.map pieceOf) = text := by
  induction text with
  | nil => rfl
  | cons c rest ih =>
    rw [List.map_cons, pieceOf]
    split
    case isTrue needs =>
      simp only [Bool.and_eq_true] at needs
      rw [unquote_code (needsCode_lt needs.2), ih, Char.ofNat_toNat]
    case isFalse => rw [unquote, ih]

theorem escapeChar_spells (c : Char) : SpellsPiece (pieceOf c) (escapeChar c) := by
  unfold escapeChar pieceOf
  cases short : shortEscape c with
  | some e =>
    obtain ⟨back, notU⟩ := unescape_shortEscape short
    exact .escape notU back
  | none =>
    cases needs : needsCode c with
    | true =>
      have low := needsCode_lt needs
      have value :
          ((c.toNat / 0x1000 * 16 + c.toNat / 0x100 % 0x10) * 16 + c.toNat / 0x10 % 0x10) * 16 +
          c.toNat % 0x10 = c.toNat := by omega
      have spells := SpellsPiece.code (hexValue_hexDigit (c.toNat / 0x1000) (by omega))
        (hexValue_hexDigit (c.toNat / 0x100 % 0x10) (by omega))
        (hexValue_hexDigit (c.toNat / 0x10 % 0x10) (by omega))
        (hexValue_hexDigit (c.toNat % 0x10) (by omega))
      rwa [value] at spells
    | false =>
      have notQuote : c ≠ '"' := by
        rintro rfl
        cases short
      have notBackslash : c ≠ '\\' := by
        rintro rfl
        cases short
      have printable : ¬ c.toNat < 0x20 := by
        simp only [needsCode, Bool.or_eq_false_iff, decide_eq_false_iff_not] at needs
        exact needs.1.1.1.1.1
      exact .plain notQuote notBackslash printable

theorem quote_spells (text : List Char) : SpellsString text (quote text) := by
  refine ⟨text.map pieceOf, text.flatMap escapeChar, ?_, unquote_pieces text, rfl⟩
  induction text with
  | nil => exact .nil
  | cons c rest ih => exact .cons (escapeChar_spells c) ih

theorem blank_nil : Blank [] := by
  intro c mem
  cases mem

mutual

/-- What is printed for a value spells the value. -/
theorem print_spells (t : Tree) : Spells t t.print := by
  match t with
  | .null | .bool true | .bool false | .number _ => rfl
  | .string text => exact quote_spells text
  | .array [] => exact ⟨[], blank_nil, rfl⟩
  | .array (item :: rest) =>
    exact ⟨[], _, _, blank_nil, print_spells item, printItems_spells rest, rfl⟩
  | .object [] => exact ⟨[], blank_nil, rfl⟩
  | .object ((key, value) :: rest) =>
    exact ⟨[], _, [], [], _, _, blank_nil, quote_spells key, blank_nil, blank_nil,
      print_spells value, printMembers_spells rest, rfl⟩

theorem printItems_spells (items : List Tree) : SpellsItems items (printItems items) := by
  match items with
  | [] => exact ⟨[], blank_nil, rfl⟩
  | item :: rest =>
    exact ⟨[], [], _, _, blank_nil, blank_nil, print_spells item, printItems_spells rest, rfl⟩

theorem printMembers_spells (members : List Member) :
    SpellsMembers members (printMembers members) := by
  match members with
  | [] => exact ⟨[], blank_nil, rfl⟩
  | (key, value) :: rest =>
    exact ⟨[], [], _, [], [], _, _, blank_nil, blank_nil, quote_spells key, blank_nil, blank_nil,
      print_spells value, printMembers_spells rest, rfl⟩

end

/-- What is printed is read back. -/
theorem parse_print {limit : Nat} (t : Tree) (fits : t.depth ≤ limit) :
    parse limit t.print = some (t, []) := by
  have read := parse_spells blank_nil (print_spells t) fits delimited_nil
  rwa [List.nil_append, List.append_nil] at read

/-- Different values are printed differently. -/
theorem print_injective : Function.Injective Tree.print := by
  intro t u same
  have readT := parse_print t (Nat.le_max_left t.depth u.depth)
  have readU := parse_print u (Nat.le_max_right t.depth u.depth)
  rw [same, readU] at readT
  exact (Prod.mk.inj (Option.some.inj readT)).1.symm

end Json
