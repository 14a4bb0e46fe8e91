import WalletGo.Json.Tree

/-!
Reading the first JSON value of a text, as Go's `encoding/json` scans it.

The scanner takes one character at a time. `Mode` is what it expects next and the
stack holds the arrays and objects that are open, with what has been read of them;
more than `limit` open ones are an error. The value ends with its last character;
a number ends before the first character that cannot continue it. What follows is
left to the caller (`parse`).
-/

namespace Json

/-! ### Strings -/

/-- A part of a string between its quotes: a character, or the number of a `\u`
escape. -/
inductive Piece where
  | rune (c : Char)
  | code (n : Nat)
deriving DecidableEq, Repr

def isHighSurrogate (n : Nat) : Bool := decide (0xD800 ≤ n ∧ n < 0xDC00)

def isLowSurrogate (n : Nat) : Bool := decide (0xDC00 ≤ n ∧ n < 0xE000)

/-- The character of a `\u` escape that is not half of a pair. -/
def ofCode (n : Nat) : Char :=
  if isHighSurrogate n || isLowSurrogate n then replacementChar else Char.ofNat n

/-- The text that a string's pieces spell. -/
def unquote : List Piece → List Char
  | [] => []
  | .rune c :: rest => c :: unquote rest
  | .code high :: .code low :: rest =>
    if isHighSurrogate high && isLowSurrogate low then
      Char.ofNat (0x10000 + (high - 0xD800) * 0x400 + (low - 0xDC00)) :: unquote rest
    else ofCode high :: unquote (.code low :: rest)
  | .code n :: rest => ofCode n :: unquote rest

def unescape : Char → Option Char
  | 'b' => some '\x08'
  | 'f' => some '\x0c'
  | 'n' => some '\n'
  | 'r' => some '\r'
  | 't' => some '\t'
  | '\\' => some '\\'
  | '/' => some '/'
  | '"' => some '"'
  | _ => none

inductive StringState where
  | plain
  | escape
  /-- Inside a `\u` escape: digits to go and the value of those read. -/
  | hex (left value : Nat)
deriving DecidableEq, Repr

inductive Target where
  | value
  | key
deriving DecidableEq, Repr

/-! ### The machine -/

/-- An open array or object: what has been read of it, and the key whose value is
being read. -/
inductive Frame where
  | array (items : List Tree)
  | object (members : List Member)
  | member (members : List Member) (key : List Char)

inductive Mode where
  | beginValue
  | beginValueOrEmpty
  | beginString
  | beginStringOrEmpty
  | string (target : Target) (pieces : List Piece) (state : StringState)
  | endKey (key : List Char)
  | literal (rest : List Char) (value : Tree)
  | number (text : List Char) (state : NumberState) (lexed : NumberState.lex text = some state)
  | endValue (value : Tree)

inductive Outcome where
  | more (mode : Mode) (stack : List Frame)
  | done (value : Tree) (consumed : Bool)
  | error

def isSpace (c : Char) : Bool := c == ' ' || c == '\t' || c == '\r' || c == '\n'

/-- A value has been read to its end. -/
def complete (value : Tree) (stack : List Frame) : Outcome :=
  match stack with
  | [] => .done value true
  | _ :: _ => .more (.endValue value) stack

def push (limit : Nat) (frame : Frame) (mode : Mode) (stack : List Frame) : Outcome :=
  if stack.length < limit then .more mode (frame :: stack) else .error

def beginNumber (c : Char) (stack : List Frame) : Outcome :=
  match started : NumberState.start.next c with
  | some state => .more (.number [c] state (by simpa [NumberState.lex] using started)) stack
  | none => .error

def beginValue (limit : Nat) (stack : List Frame) (c : Char) : Outcome :=
  match c with
  | '\x7b' => push limit (.object []) .beginStringOrEmpty stack
  | '[' => push limit (.array []) .beginValueOrEmpty stack
  | '"' => .more (.string .value [] .plain) stack
  | 't' => .more (.literal ['r', 'u', 'e'] (.bool true)) stack
  | 'f' => .more (.literal ['a', 'l', 's', 'e'] (.bool false)) stack
  | 'n' => .more (.literal ['u', 'l', 'l'] .null) stack
  | c => beginNumber c stack

def endValue (value : Tree) (stack : List Frame) (c : Char) : Outcome :=
  match stack, c with
  | .array items :: rest, ',' => .more .beginValue (.array (items ++ [value]) :: rest)
  | .array items :: rest, ']' => complete (.array (items ++ [value])) rest
  | .member members key :: rest, ',' =>
    .more .beginString (.object (members ++ [(key, value)]) :: rest)
  | .member members key :: rest, '\x7d' => complete (.object (members ++ [(key, value)])) rest
  | _, _ => .error

def inString (target : Target) (pieces : List Piece) (state : StringState) (stack : List Frame)
    (c : Char) : Outcome :=
  match state with
  | .plain =>
    if c = '"' then
      match target with
      | .value => complete (.string (unquote pieces)) stack
      | .key => .more (.endKey (unquote pieces)) stack
    else if c = '\\' then .more (.string target pieces .escape) stack
    else if c.toNat < 0x20 then .error
    else .more (.string target (pieces ++ [.rune c]) .plain) stack
  | .escape =>
    if c = 'u' then .more (.string target pieces (.hex 3 0)) stack
    else match unescape c with
      | some e => .more (.string target (pieces ++ [.rune e]) .plain) stack
      | none => .error
  | .hex left value =>
    match hexValue c with
    | none => .error
    | some digit =>
      match left with
      | 0 => .more (.string target (pieces ++ [.code (value * 16 + digit)]) .plain) stack
      | left + 1 => .more (.string target pieces (.hex left (value * 16 + digit))) stack

def inNumber (text : List Char) (state : NumberState) (lexed : NumberState.lex text = some state)
    (stack : List Frame) (c : Char) : Outcome :=
  match going : state.next c with
  | some state' => .more (.number (text ++ [c]) state' (by
      rw [NumberState.lex_snoc, lexed, Option.bind_some, going])) stack
  | none =>
    if final : state.final then
      let value := Tree.number ⟨text, by rw [lexed, Option.any_some, final]⟩
      match stack with
      | [] => .done value false
      | _ :: _ => if isSpace c then .more (.endValue value) stack else endValue value stack c
    else .error

def step (limit : Nat) (mode : Mode) (stack : List Frame) (c : Char) : Outcome :=
  match mode with
  | .beginValue => if isSpace c then .more .beginValue stack else beginValue limit stack c
  | .beginValueOrEmpty =>
    if isSpace c then .more .beginValueOrEmpty stack
    else match stack, c with
      | .array items :: rest, ']' => complete (.array items) rest
      | _, _ => beginValue limit stack c
  | .beginString =>
    if isSpace c then .more .beginString stack
    else if c = '"' then .more (.string .key [] .plain) stack else .error
  | .beginStringOrEmpty =>
    if isSpace c then .more .beginStringOrEmpty stack
    else match stack, c with
      | .object members :: rest, '\x7d' => complete (.object members) rest
      | _, _ => if c = '"' then .more (.string .key [] .plain) stack else .error
  | .string target pieces state => inString target pieces state stack c
  | .endKey key =>
    if isSpace c then .more (.endKey key) stack
    else match stack, c with
      | .object members :: rest, ':' => .more .beginValue (.member members key :: rest)
      | _, _ => .error
  | .literal rest value =>
    match rest with
    | [] => .error
    | [last] => if c = last then complete value stack else .error
    | next :: rest => if c = next then .more (.literal rest value) stack else .error
  | .number text state lexed => inNumber text state lexed stack c
  | .endValue value => if isSpace c then .more (.endValue value) stack else endValue value stack c

/-- At the end of the text only a number can end. -/
def atEnd (mode : Mode) (stack : List Frame) : Option (Tree × List Char) :=
  match mode, stack with
  | .number text state lexed, [] =>
    if final : state.final then
      some (.number ⟨text, by rw [lexed, Option.any_some, final]⟩, [])
    else none
  | _, _ => none

def scan (limit : Nat) : Mode → List Frame → List Char → Option (Tree × List Char)
  | mode, stack, [] => atEnd mode stack
  | mode, stack, c :: rest =>
    match step limit mode stack c with
    | .more mode stack => scan limit mode stack rest
    | .done value true => some (value, rest)
    | .done value false => some (value, c :: rest)
    | .error => none

/-- The first value of a text and what follows it, if the text starts with one. -/
def parse (limit : Nat) (text : List Char) : Option (Tree × List Char) :=
  scan limit .beginValue [] text

end Json
