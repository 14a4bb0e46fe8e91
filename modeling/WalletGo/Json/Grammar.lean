import WalletGo.Json.Scan

/-!
The spellings of a JSON value, and that the scanner accepts exactly these.

`Spells t s` says that the text `s` is a spelling of `t`: any white space inside
arrays and objects, any escapes in strings, no space around the value itself. The
scanner reads every spelling back, in any context (`scan_spells`), and whatever it
accepts was one (`parse_sound`).
-/

namespace Json

/-! ### Spellings -/

def Blank (space : List Char) : Prop := ∀ c ∈ space, isSpace c

theorem Blank.append {space space' : List Char} (blank : Blank space) (blank' : Blank space') :
    Blank (space ++ space') := by
  intro c mem
  rcases List.mem_append.mp mem with mem | mem
  · exact blank c mem
  · exact blank' c mem

inductive SpellsPiece : Piece → List Char → Prop where
  | plain {c : Char} (quote : c ≠ '"') (backslash : c ≠ '\\') (printable : ¬ c.toNat < 0x20) :
      SpellsPiece (.rune c) [c]
  | escape {e c : Char} (letter : e ≠ 'u') (unescapes : unescape e = some c) :
      SpellsPiece (.rune c) ['\\', e]
  | code {c₃ c₂ c₁ c₀ : Char} {d₃ d₂ d₁ d₀ : Nat} (h₃ : hexValue c₃ = some d₃)
      (h₂ : hexValue c₂ = some d₂) (h₁ : hexValue c₁ = some d₁) (h₀ : hexValue c₀ = some d₀) :
      SpellsPiece (.code (((d₃ * 16 + d₂) * 16 + d₁) * 16 + d₀)) ['\\', 'u', c₃, c₂, c₁, c₀]

inductive SpellsPieces : List Piece → List Char → Prop where
  | nil : SpellsPieces [] []
  | cons {piece : Piece} {pieces : List Piece} {first rest : List Char} :
      SpellsPiece piece first → SpellsPieces pieces rest →
      SpellsPieces (piece :: pieces) (first ++ rest)

def SpellsString (text spelled : List Char) : Prop :=
  ∃ pieces body, SpellsPieces pieces body ∧ unquote pieces = text ∧ spelled = '"' :: (body ++ ['"'])

mutual

def Spells : Tree → List Char → Prop
  | .null, s => s = ['n', 'u', 'l', 'l']
  | .bool true, s => s = ['t', 'r', 'u', 'e']
  | .bool false, s => s = ['f', 'a', 'l', 's', 'e']
  | .number n, s => s = n.text
  | .string text, s => SpellsString text s
  | .array [], s => ∃ space, Blank space ∧ s = '[' :: (space ++ [']'])
  | .array (item :: rest), s => ∃ space first more, Blank space ∧ Spells item first ∧
      SpellsItems rest more ∧ s = '[' :: (space ++ (first ++ more))
  | .object [], s => ∃ space, Blank space ∧ s = '\x7b' :: (space ++ ['\x7d'])
  | .object ((key, value) :: rest), s => ∃ space quoted before after first more, Blank space ∧
      SpellsString key quoted ∧ Blank before ∧ Blank after ∧ Spells value first ∧
      SpellsMembers rest more ∧
      s = '\x7b' :: (space ++ (quoted ++ (before ++ ':' :: (after ++ (first ++ more)))))

/-- What follows an item of an array: the other items and the bracket. -/
def SpellsItems : List Tree → List Char → Prop
  | [], s => ∃ space, Blank space ∧ s = space ++ [']']
  | item :: rest, s => ∃ before after first more, Blank before ∧ Blank after ∧ Spells item first ∧
      SpellsItems rest more ∧ s = before ++ ',' :: (after ++ (first ++ more))

/-- What follows a member of an object: the other members and the brace. -/
def SpellsMembers : List Member → List Char → Prop
  | [], s => ∃ space, Blank space ∧ s = space ++ ['\x7d']
  | (key, value) :: rest, s => ∃ space space' quoted before after first more, Blank space ∧
      Blank space' ∧ SpellsString key quoted ∧ Blank before ∧ Blank after ∧ Spells value first ∧
      SpellsMembers rest more ∧
      s = space ++ ',' :: (space' ++ (quoted ++ (before ++ ':' :: (after ++ (first ++ more)))))

end

/-! ### Scanning a spelling -/

section Scanning

variable {limit : Nat} {mode mode' : Mode} {stack stack' : List Frame} {c : Char} {rest : List Char}

theorem scan_more (stepped : step limit mode stack c = .more mode' stack') :
    scan limit mode stack (c :: rest) = scan limit mode' stack' rest := by
  rw [scan, stepped]

def finish (limit : Nat) (value : Tree) (stack : List Frame) (rest : List Char) :
    Option (Tree × List Char) :=
  match stack with
  | [] => some (value, rest)
  | _ :: _ => scan limit (.endValue value) stack rest

theorem scan_complete {value : Tree} (stepped : step limit mode stack c = complete value stack') :
    scan limit mode stack (c :: rest) = finish limit value stack' rest := by
  rw [scan, stepped]
  cases stack' with
  | nil => rfl
  | cons => rfl

/-- White space is skipped wherever it does not matter. -/
theorem scan_blank {space : List Char} (blank : Blank space)
    (skips : ∀ c, isSpace c → step limit mode stack c = .more mode stack) :
    scan limit mode stack (space ++ rest) = scan limit mode stack rest := by
  induction space with
  | nil => rfl
  | cons c space ih =>
    rw [List.cons_append, scan_more (skips c (blank c List.mem_cons_self))]
    exact ih fun d mem => blank d (List.mem_cons_of_mem _ mem)

theorem skips_beginValue (space : isSpace c) :
    step limit .beginValue stack c = .more .beginValue stack := by
  simp [step, space]

theorem skips_beginValueOrEmpty (space : isSpace c) :
    step limit .beginValueOrEmpty stack c = .more .beginValueOrEmpty stack := by
  simp [step, space]

theorem skips_beginString (space : isSpace c) :
    step limit .beginString stack c = .more .beginString stack := by
  simp [step, space]

theorem skips_beginStringOrEmpty (space : isSpace c) :
    step limit .beginStringOrEmpty stack c = .more .beginStringOrEmpty stack := by
  simp [step, space]

theorem skips_endKey {key : List Char} (space : isSpace c) :
    step limit (.endKey key) stack c = .more (.endKey key) stack := by
  simp [step, space]

theorem skips_endValue {value : Tree} (space : isSpace c) :
    step limit (.endValue value) stack c = .more (.endValue value) stack := by
  simp [step, space]

/-! #### Strings -/

variable {target : Target} {pieces : List Piece}

theorem scan_hex {left value digit : Nat} (hex : hexValue c = some digit) :
    scan limit (.string target pieces (.hex (left + 1) value)) stack (c :: rest) =
      scan limit (.string target pieces (.hex left (value * 16 + digit))) stack rest := by
  refine scan_more ?_
  simp [step, inString, hex]

theorem scan_lastHex {value digit : Nat} (hex : hexValue c = some digit) :
    scan limit (.string target pieces (.hex 0 value)) stack (c :: rest) =
      scan limit (.string target (pieces ++ [.code (value * 16 + digit)]) .plain) stack rest := by
  refine scan_more ?_
  simp [step, inString, hex]

/-- A piece of a string is read as it was spelled. -/
theorem scan_piece {piece : Piece} {spelled : List Char} (spells : SpellsPiece piece spelled) :
    scan limit (.string target pieces .plain) stack (spelled ++ rest) =
      scan limit (.string target (pieces ++ [piece]) .plain) stack rest := by
  have escape : step limit (.string target pieces .plain) stack '\\' =
      .more (.string target pieces .escape) stack := rfl
  cases spells with
  | plain quote backslash printable =>
    refine scan_more ?_
    simp [step, inString, quote, backslash, printable]
  | @escape e c letter unescapes =>
    have stands : step limit (.string target pieces .escape) stack e =
        .more (.string target (pieces ++ [.rune c]) .plain) stack := by
      simp [step, inString, letter, unescapes]
    exact (scan_more escape).trans (scan_more stands)
  | code h₃ h₂ h₁ h₀ =>
    have unicode : step limit (.string target pieces .escape) stack 'u' =
        .more (.string target pieces (.hex 3 0)) stack := rfl
    refine (scan_more escape).trans ((scan_more unicode).trans ?_)
    refine (scan_hex h₃).trans
      ((scan_hex h₂).trans ((scan_hex h₁).trans ((scan_lastHex h₀).trans ?_)))
    rw [Nat.zero_mul, Nat.zero_add]
    rfl

theorem scan_pieces {more : List Piece} {spelled : List Char} (spells : SpellsPieces more spelled) :
    scan limit (.string target pieces .plain) stack (spelled ++ rest) =
      scan limit (.string target (pieces ++ more) .plain) stack rest := by
  induction spells generalizing pieces with
  | nil => simp
  | cons first _ ih =>
    rw [List.append_assoc, scan_piece first, ih]
    simp

/-- A string that is a value, after its opening quote. -/
theorem scan_stringValue {pieces : List Piece} {body : List Char}
    (spells : SpellsPieces pieces body) :
    scan limit (.string .value [] .plain) stack (body ++ '"' :: rest) =
      finish limit (.string (unquote pieces)) stack rest := by
  rw [scan_pieces spells, List.nil_append]
  exact scan_complete rfl

/-- The key of a member, from its quote to the value. -/
theorem scan_key {members : List Member} {key quoted before after : List Char}
    (spells : SpellsString key quoted) (blank : Blank before) (blank' : Blank after)
    (mode : Mode) (opens : step limit mode (.object members :: stack) '"' =
      .more (.string .key [] .plain) (.object members :: stack)) :
    scan limit mode (.object members :: stack) (quoted ++ (before ++ ':' :: (after ++ rest))) =
      scan limit .beginValue (.member members key :: stack) rest := by
  obtain ⟨pieces, body, spelled, rfl, rfl⟩ := spells
  have closes : step limit (.string .key pieces .plain) (.object members :: stack) '"' =
      .more (.endKey (unquote pieces)) (.object members :: stack) := rfl
  have colon : step limit (.endKey (unquote pieces)) (.object members :: stack) ':' =
      .more .beginValue (.member members (unquote pieces) :: stack) := rfl
  rw [List.cons_append, scan_more opens, List.append_assoc, scan_pieces spelled, List.nil_append,
    List.singleton_append, scan_more closes, scan_blank blank fun _ =>
    skips_endKey, scan_more colon, scan_blank blank' fun _ => skips_beginValue]

/-! #### Numbers -/

/-- No number goes on with the first character. -/
def Delimited (rest : List Char) : Prop :=
  ∀ c, rest.head? = some c → ∀ state : NumberState, state.next c = none

theorem delimited_nil : Delimited [] := by
  intro c head
  cases head

theorem delimited_cons {c : Char} (stops : ∀ state : NumberState, state.next c = none)
    (rest : List Char) : Delimited (c :: rest) := by
  intro d head state
  cases head
  exact stops state

theorem delimited_comma (rest : List Char) : Delimited (',' :: rest) :=
  delimited_cons (fun state => by cases state <;> rfl) rest

theorem delimited_bracket (rest : List Char) : Delimited (']' :: rest) :=
  delimited_cons (fun state => by cases state <;> rfl) rest

theorem delimited_brace (rest : List Char) : Delimited ('\x7d' :: rest) :=
  delimited_cons (fun state => by cases state <;> rfl) rest

variable (limit stack) in
/-- A number goes on as long as its automaton does. -/
theorem step_number {text : List Char} {state next : NumberState}
    (lexed : NumberState.lex text = some state) (going : state.next c = some next) :
    ∃ lexed', step limit (.number text state lexed) stack c =
      .more (.number (text ++ [c]) next lexed') stack := by
  refine ⟨by rw [NumberState.lex_snoc, lexed, Option.bind_some, going], ?_⟩
  simp only [step, inNumber]
  split
  case h_1 other also =>
    obtain rfl : other = next := Option.some.inj (also.symm.trans going)
    rfl
  case h_2 stops => cases stops.symm.trans going

/-- A number that the next character does not continue is complete. -/
theorem scan_numberEnd {text : List Char} {state : NumberState}
    (lexed : NumberState.lex text = some state) (final : state.final)
    (stops : ∀ c, rest.head? = some c → state.next c = none) :
    scan limit (.number text state lexed) stack rest =
      finish limit (.number ⟨text, by rw [lexed, Option.any_some, final]⟩) stack rest := by
  cases rest with
  | nil =>
    cases stack with
    | nil => simp [scan, atEnd, final, finish]
    | cons => rfl
  | cons c rest =>
    have ends : step limit (.number text state lexed) stack c =
        match stack with
        | [] => .done (.number ⟨text, by rw [lexed, Option.any_some, final]⟩) false
        | _ :: _ =>
          step limit (.endValue (.number ⟨text, by rw [lexed, Option.any_some, final]⟩)) stack
            c := by
      simp only [step, inNumber]
      split
      case h_1 going => cases going.symm.trans (stops c rfl)
      case h_2 =>
        refine (dif_pos final).trans ?_
        cases stack with
        | nil => rfl
        | cons => rfl
    rw [scan, ends]
    cases stack with
    | nil => rfl
    | cons => rfl

/-- The rest of a number, up to a character that ends it. -/
theorem scan_number (delimited : Delimited rest) {text more : List Char} {state : NumberState}
    (lexed : NumberState.lex text = some state)
    (valid : (NumberState.lex (text ++ more)).any (·.final)) :
    scan limit (.number text state lexed) stack (more ++ rest) =
      finish limit (.number ⟨text ++ more, valid⟩) stack rest := by
  induction more generalizing text state with
  | nil =>
    have final : state.final := by simpa [lexed] using valid
    rw [List.nil_append, scan_numberEnd lexed final fun c head => delimited c head state]
    simp
  | cons c more ih =>
    have lexes : NumberState.lex (text ++ c :: more) =
        (state.next c).bind fun next => more.foldlM NumberState.next next := by
      have started : text.foldlM NumberState.next .start = some state := lexed
      rw [NumberState.lex, List.foldlM_append, started]
      rfl
    cases going : state.next c with
    | none =>
      rw [lexes, going] at valid
      cases valid
    | some next =>
      obtain ⟨lexed', steps⟩ := step_number limit stack lexed going
      rw [List.cons_append, scan_more steps, ih lexed' (by simpa using valid)]
      simp

theorem beginValue_number {state : NumberState} (starts : NumberState.start.next c = some state) :
    beginValue limit stack c = beginNumber c stack := by
  unfold beginValue
  split <;> first | rfl | cases starts

theorem not_isSpace_of_number {state : NumberState}
    (starts : NumberState.start.next c = some state) : isSpace c = false := by
  rw [Bool.eq_false_iff]
  intro space
  simp only [isSpace, Bool.or_eq_true, beq_iff_eq] at space
  rcases space with ((rfl | rfl) | rfl) | rfl <;> cases starts

theorem Literal.head (n : Literal) :
    ∃ c more state, n.text = c :: more ∧ NumberState.start.next c = some state := by
  obtain ⟨text, valid⟩ := n
  cases text with
  | nil => cases valid
  | cons c more =>
    cases starts : NumberState.start.next c with
    | some state => exact ⟨c, more, state, rfl, starts⟩
    | none =>
      rw [NumberState.lex, List.foldlM_cons, starts] at valid
      cases valid

/-- A number is read up to where it is delimited. -/
theorem scan_literalNumber (delimited : Delimited rest) (n : Literal) :
    scan limit .beginValue stack (n.text ++ rest) = finish limit (.number n) stack rest := by
  obtain ⟨c, more, state, text, starts⟩ := n.head
  have lexed : NumberState.lex [c] = some state := by simpa [NumberState.lex] using starts
  have steps : step limit .beginValue stack c = .more (.number [c] state lexed) stack := by
    simp only [step, not_isSpace_of_number starts, Bool.false_eq_true, if_false,
      beginValue_number starts, beginNumber]
    split
    case h_1 other also =>
      obtain rfl : other = state := Option.some.inj (also.symm.trans starts)
      rfl
    case h_2 stops => cases stops.symm.trans starts
  obtain ⟨whole, valid⟩ := n
  subst text
  rw [List.cons_append, scan_more steps]
  exact scan_number delimited lexed valid

/-! #### Values -/

theorem delimited_space (space : isSpace c) (rest : List Char) : Delimited (c :: rest) := by
  refine delimited_cons (fun state => ?_) rest
  simp only [isSpace, Bool.or_eq_true, beq_iff_eq] at space
  rcases space with ((rfl | rfl) | rfl) | rfl <;> cases state <;> rfl

theorem delimited_blank {space : List Char} (blank : Blank space) (delimited : Delimited rest) :
    Delimited (space ++ rest) := by
  cases space with
  | nil => exact delimited
  | cons c space => exact delimited_space (blank c List.mem_cons_self) _

/-- Behind an item there is a comma or the end of the array. -/
theorem delimited_items {items : List Tree} {spelled : List Char}
    (spells : SpellsItems items spelled) : Delimited (spelled ++ rest) := by
  cases items with
  | nil =>
    obtain ⟨space, blank, rfl⟩ := spells
    rw [List.append_assoc]
    exact delimited_blank blank (delimited_bracket rest)
  | cons item items =>
    obtain ⟨before, after, first, more, blank, _, _, _, rfl⟩ := spells
    rw [List.append_assoc]
    exact delimited_blank blank (delimited_comma _)

theorem delimited_members {members : List Member} {spelled : List Char}
    (spells : SpellsMembers members spelled) : Delimited (spelled ++ rest) := by
  cases members with
  | nil =>
    obtain ⟨space, blank, rfl⟩ := spells
    rw [List.append_assoc]
    exact delimited_blank blank (delimited_brace rest)
  | cons member members =>
    obtain ⟨space, space', quoted, before, after, first, more, blank, _, _, _, _, _, _, rfl⟩ :=
      spells
    rw [List.append_assoc]
    exact delimited_blank blank (delimited_comma _)

/-- A spelling starts neither with a space nor with a closing bracket. -/
theorem spells_head {t : Tree} {spelled : List Char} (spells : Spells t spelled) :
    ∃ c text, spelled = c :: text ∧ isSpace c = false ∧ c ≠ ']' := by
  cases t with
  | null =>
    cases spells
    exact ⟨_, _, rfl, rfl, by decide⟩
  | bool b =>
    cases b with
    | true =>
      cases spells
      exact ⟨_, _, rfl, rfl, by decide⟩
    | false =>
      cases spells
      exact ⟨_, _, rfl, rfl, by decide⟩
  | number n =>
    obtain rfl : spelled = n.text := spells
    obtain ⟨c, more, state, text, starts⟩ := n.head
    refine ⟨c, more, text, not_isSpace_of_number starts, ?_⟩
    rintro rfl
    cases starts
  | string text =>
    obtain ⟨pieces, body, _, _, rfl⟩ := spells
    exact ⟨_, _, rfl, rfl, by decide⟩
  | array items =>
    cases items with
    | nil =>
      obtain ⟨space, _, rfl⟩ := spells
      exact ⟨_, _, rfl, rfl, by decide⟩
    | cons item items =>
      obtain ⟨space, first, more, _, _, _, rfl⟩ := spells
      exact ⟨_, _, rfl, rfl, by decide⟩
  | object members =>
    cases members with
    | nil =>
      obtain ⟨space, _, rfl⟩ := spells
      exact ⟨_, _, rfl, rfl, by decide⟩
    | cons member members =>
      obtain ⟨space, quoted, before, after, first, more, _, _, _, _, _, _, rfl⟩ := spells
      exact ⟨_, _, rfl, rfl, by decide⟩

/-- The first item of an array is read like any value. -/
theorem scan_firstItem {t : Tree} {spelled : List Char} (spells : Spells t spelled) :
    scan limit .beginValueOrEmpty (.array [] :: stack) (spelled ++ rest) =
      scan limit .beginValue (.array [] :: stack) (spelled ++ rest) := by
  obtain ⟨c, text, rfl, notSpace, notClose⟩ := spells_head spells
  have same : step limit .beginValueOrEmpty (.array [] :: stack) c =
      step limit .beginValue (.array [] :: stack) c := by
    simp only [step, notSpace, Bool.false_eq_true, if_false]
    split
    · exact absurd rfl notClose
    · rfl
  rw [List.cons_append, scan, scan, same]

end Scanning

mutual

/-- A spelled value, whatever is open around it and whatever follows. -/
theorem scan_spells {limit : Nat} {stack : List Frame} {rest spelled : List Char} (t : Tree)
    (spells : Spells t spelled) (fits : t.depth + stack.length ≤ limit)
    (delimited : Delimited rest) :
    scan limit .beginValue stack (spelled ++ rest) = finish limit t stack rest := by
  match t with
  | .null =>
    cases spells
    exact (scan_more rfl).trans ((scan_more rfl).trans ((scan_more rfl).trans (scan_complete rfl)))
  | .bool true =>
    cases spells
    exact (scan_more rfl).trans ((scan_more rfl).trans ((scan_more rfl).trans (scan_complete rfl)))
  | .bool false =>
    cases spells
    exact (scan_more rfl).trans ((scan_more rfl).trans ((scan_more rfl).trans
      ((scan_more rfl).trans (scan_complete rfl))))
  | .number n =>
    cases spells
    exact scan_literalNumber delimited n
  | .string text =>
    obtain ⟨pieces, body, spelled, rfl, rfl⟩ := spells
    rw [List.cons_append, List.append_assoc]
    exact (scan_more rfl).trans (scan_stringValue spelled)
  | .array items =>
    have room : stack.length < limit := by
      rw [Tree.depth] at fits
      omega
    have opens : step limit .beginValue stack '[' = .more .beginValueOrEmpty (.array [] :: stack) :=
      if_pos room
    match items with
    | [] =>
      obtain ⟨space, blank, rfl⟩ := spells
      rw [List.cons_append, scan_more opens, List.append_assoc,
        scan_blank blank fun _ => skips_beginValueOrEmpty]
      exact scan_complete rfl
    | item :: items =>
      obtain ⟨space, first, more, blank, spellsItem, spellsItems, rfl⟩ := spells
      rw [Tree.depth, itemsDepth] at fits
      have itemFits : item.depth + (Frame.array [] :: stack).length ≤ limit := by
        rw [List.length_cons]
        omega
      rw [List.cons_append, scan_more opens, List.append_assoc,
        scan_blank blank fun _ =>
        skips_beginValueOrEmpty, List.append_assoc, scan_firstItem spellsItem,
        scan_spells item spellsItem itemFits (delimited_items spellsItems)]
      exact scan_spellsItems items item [] spellsItems (by omega)
  | .object members =>
    have room : stack.length < limit := by
      rw [Tree.depth] at fits
      omega
    have opens :
        step limit .beginValue stack '\x7b' = .more .beginStringOrEmpty (.object [] :: stack) :=
      if_pos room
    match members with
    | [] =>
      obtain ⟨space, blank, rfl⟩ := spells
      rw [List.cons_append, scan_more opens, List.append_assoc,
        scan_blank blank fun _ => skips_beginStringOrEmpty]
      exact scan_complete rfl
    | (key, value) :: members =>
      obtain ⟨space, quoted, before, after, first, more, blank, spellsKey, blankBefore, blankAfter,
        spellsValue, spellsMembers, rfl⟩ := spells
      rw [Tree.depth, membersDepth] at fits
      have valueFits : value.depth + (Frame.member [] key :: stack).length ≤ limit := by
        rw [List.length_cons]
        omega
      simp only [List.cons_append, List.append_assoc]
      rw [scan_more opens, scan_blank blank fun _ => skips_beginStringOrEmpty,
        scan_key spellsKey blankBefore blankAfter .beginStringOrEmpty rfl,
        scan_spells value spellsValue valueFits (delimited_members spellsMembers)]
      exact scan_spellsMembers members key value [] spellsMembers (by omega)

/-- The rest of an array after one of its items. -/
theorem scan_spellsItems {limit : Nat} {stack : List Frame} {rest spelled : List Char}
    (items : List Tree) (item : Tree) (done : List Tree) (spells : SpellsItems items spelled)
    (fits : itemsDepth items + stack.length + 1 ≤ limit) :
    scan limit (.endValue item) (.array done :: stack) (spelled ++ rest) =
      finish limit (.array (done ++ item :: items)) stack rest := by
  match items with
  | [] =>
    obtain ⟨space, blank, rfl⟩ := spells
    rw [List.append_assoc, scan_blank blank fun _ => skips_endValue]
    exact scan_complete rfl
  | next :: items =>
    obtain ⟨before, after, first, more, blank, blankAfter, spellsNext, spellsItems, rfl⟩ := spells
    rw [itemsDepth] at fits
    have nextFits : next.depth + (Frame.array (done ++ [item]) :: stack).length ≤ limit := by
      rw [List.length_cons]
      omega
    have comma : step limit (.endValue item) (.array done :: stack) ',' =
        .more .beginValue (.array (done ++ [item]) :: stack) := rfl
    rw [List.append_assoc, scan_blank blank fun _ => skips_endValue, List.cons_append,
      scan_more comma,
      List.append_assoc, scan_blank blankAfter fun _ => skips_beginValue, List.append_assoc,
      scan_spells next spellsNext nextFits (delimited_items spellsItems)]
    refine (scan_spellsItems items next (done ++ [item]) spellsItems (by omega)).trans ?_
    rw [List.append_assoc, List.singleton_append]

/-- The rest of an object after one of its members. -/
theorem scan_spellsMembers {limit : Nat} {stack : List Frame} {rest spelled : List Char}
    (members : List Member) (key : List Char) (value : Tree) (done : List Member)
    (spells : SpellsMembers members spelled)
    (fits : membersDepth members + stack.length + 1 ≤ limit) :
    scan limit (.endValue value) (.member done key :: stack) (spelled ++ rest) =
      finish limit (.object (done ++ (key, value) :: members)) stack rest := by
  match members with
  | [] =>
    obtain ⟨space, blank, rfl⟩ := spells
    rw [List.append_assoc, scan_blank blank fun _ => skips_endValue]
    exact scan_complete rfl
  | (nextKey, next) :: members =>
    obtain ⟨space, space', quoted, before, after, first, more, blank, blank',
      spellsKey, blankBefore, blankAfter, spellsNext, spellsMembers, rfl⟩ := spells
    rw [membersDepth] at fits
    have nextFits :
        next.depth + (Frame.member (done ++ [(key, value)]) nextKey :: stack).length ≤ limit := by
      rw [List.length_cons]
      omega
    have comma : step limit (.endValue value) (.member done key :: stack) ',' =
        .more .beginString (.object (done ++ [(key, value)]) :: stack) := rfl
    simp only [List.cons_append, List.append_assoc]
    rw [scan_blank blank fun _ => skips_endValue, scan_more comma,
      scan_blank blank' fun _ => skips_beginString,
      scan_key spellsKey blankBefore blankAfter .beginString rfl,
      scan_spells next spellsNext nextFits (delimited_members spellsMembers)]
    refine (scan_spellsMembers members nextKey next (done ++ [(key, value)]) spellsMembers
      (by omega)).trans ?_
    rw [List.append_assoc, List.singleton_append]

end

/-- Every spelling is read, with the spaces before it and up to what follows. -/
theorem parse_spells {limit : Nat} {space spelled rest : List Char} {t : Tree} (blank : Blank space)
    (spells : Spells t spelled) (fits : t.depth ≤ limit) (delimited : Delimited rest) :
    parse limit (space ++ (spelled ++ rest)) = some (t, rest) := by
  rw [parse, scan_blank blank fun _ => skips_beginValue]
  exact scan_spells t spells fits delimited

end Json
