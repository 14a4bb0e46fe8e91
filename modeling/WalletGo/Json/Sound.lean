import WalletGo.Json.Grammar

/-!
What the scanner accepts is a spelling of the value it returns.

The converse of `scan_spells`, by induction on the length of the text: an accepting
scan from any mode splits the text into what that mode demands and a rest from
which the scan goes on in the enclosing frame.
-/

namespace Json

section Leaves

variable {limit : Nat} {mode : Mode} {stack : List Frame} {r : Tree × List Char}

/-- Spaces before the first character that matters. -/
theorem scan_blank_sound (skips : ∀ c, isSpace c → step limit mode stack c = .more mode stack)
    (ends : atEnd mode stack = none) {text : List Char}
    (scanned : scan limit mode stack text = some r) :
    ∃ space c rest, text = space ++ c :: rest ∧ Blank space ∧ isSpace c = false ∧
      scan limit mode stack (c :: rest) = some r := by
  induction text with
  | nil =>
    rw [scan, ends] at scanned
    cases scanned
  | cons c rest ih =>
    cases space : isSpace c with
    | false =>
      refine ⟨[], c, rest, rfl, ?_, space, scanned⟩
      intro d mem
      cases mem
    | true =>
      rw [scan_more (skips c space)] at scanned
      obtain ⟨spaces, d, rest, rfl, blank, notSpace, scanned⟩ := ih scanned
      refine ⟨c :: spaces, d, rest, rfl, ?_, notSpace, scanned⟩
      intro e mem
      rcases List.mem_cons.mp mem with rfl | mem
      · exact space
      · exact blank e mem

/-- The remaining letters of `true`, `false` or `null`. -/
theorem scan_literal_sound {letters text : List Char} {value : Tree} (some' : letters ≠ [])
    (scanned : scan limit (.literal letters value) stack text = some r) :
    ∃ rest, text = letters ++ rest ∧ finish limit value stack rest = some r := by
  induction letters generalizing text with
  | nil => exact absurd rfl some'
  | cons letter letters ih =>
    cases text with
    | nil => cases scanned
    | cons c rest =>
      by_cases same : c = letter
      · subst same
        cases letters with
        | nil =>
          have ends : step limit (.literal [c] value) stack c = complete value stack := by
            simp [step]
          rw [scan_complete ends] at scanned
          exact ⟨rest, rfl, scanned⟩
        | cons next letters =>
          have goes : step limit (.literal (c :: next :: letters) value) stack c =
              .more (.literal (next :: letters) value) stack := by
            simp [step]
          rw [scan_more goes] at scanned
          obtain ⟨rest', rfl, finished⟩ := ih (List.cons_ne_nil _ _) scanned
          exact ⟨rest', rfl, finished⟩
      · have stops : step limit (.literal (letter :: letters) value) stack c = .error := by
          cases letters with
          | nil => simp [step, same]
          | cons => simp [step, same]
        rw [scan, stops] at scanned
        cases scanned

/-- The rest of a number. -/
theorem scan_number_sound {text input : List Char} {state : NumberState}
    (lexed : NumberState.lex text = some state)
    (scanned : scan limit (.number text state lexed) stack input = some r) :
    ∃ more rest valid, input = more ++ rest ∧
      finish limit (.number ⟨text ++ more, valid⟩) stack rest = some r := by
  induction input generalizing text state with
  | nil =>
    cases stack with
    | nil =>
      rw [scan, atEnd] at scanned
      split at scanned
      case isTrue final =>
        refine ⟨[], [], by rw [List.append_nil, lexed, Option.any_some, final], rfl, ?_⟩
        simpa [finish] using scanned
      case isFalse => cases scanned
    | cons => cases scanned
  | cons c rest ih =>
    cases going : state.next c with
    | some next =>
      obtain ⟨lexed', steps⟩ := step_number limit stack lexed going
      rw [scan_more steps] at scanned
      obtain ⟨more, rest', valid, rfl, finished⟩ := ih lexed' scanned
      refine ⟨c :: more, rest', by simpa using valid, rfl, ?_⟩
      simpa using finished
    | none =>
      have stops : ∀ d, (c :: rest).head? = some d → state.next d = none := by
        intro d head
        cases head
        exact going
      cases final : state.final with
      | false =>
        have refused : step limit (.number text state lexed) stack c = .error := by
          simp only [step, inNumber]
          split
          case h_1 going' => cases going'.symm.trans going
          case h_2 =>
            rw [dif_neg]
            simp [final]
        rw [scan, refused] at scanned
        cases scanned
      | true =>
        rw [scan_numberEnd lexed final stops] at scanned
        refine ⟨[], c :: rest, by rw [List.append_nil, lexed, Option.any_some, final], rfl, ?_⟩
        simpa using scanned

variable {target : Target} {pieces : List Piece}

theorem scan_hex_sound {left value : Nat} {text : List Char}
    (scanned : scan limit (.string target pieces (.hex (left + 1) value)) stack text = some r) :
    ∃ c rest digit, text = c :: rest ∧ hexValue c = some digit ∧
      scan limit (.string target pieces (.hex left (value * 16 + digit))) stack rest = some r := by
  cases text with
  | nil => cases scanned
  | cons c rest =>
    cases hex : hexValue c with
    | some digit => exact ⟨c, rest, digit, rfl, hex, (scan_hex hex).symm.trans scanned⟩
    | none =>
      have refused :
          step limit (.string target pieces (.hex (left + 1) value)) stack c = .error := by
        simp [step, inString, hex]
      rw [scan, refused] at scanned
      cases scanned

theorem scan_lastHex_sound {value : Nat} {text : List Char}
    (scanned : scan limit (.string target pieces (.hex 0 value)) stack text = some r) :
    ∃ c rest digit, text = c :: rest ∧ hexValue c = some digit ∧
      scan limit (.string target (pieces ++ [.code (value * 16 + digit)]) .plain) stack
        rest = some r := by
  cases text with
  | nil => cases scanned
  | cons c rest =>
    cases hex : hexValue c with
    | some digit => exact ⟨c, rest, digit, rfl, hex, (scan_lastHex hex).symm.trans scanned⟩
    | none =>
      have refused : step limit (.string target pieces (.hex 0 value)) stack c = .error := by
        simp [step, inString, hex]
      rw [scan, refused] at scanned
      cases scanned

/-- After a backslash comes the rest of one piece. -/
theorem scan_escape_sound {text : List Char}
    (scanned : scan limit (.string target pieces .escape) stack text = some r) :
    ∃ piece spelled rest, SpellsPiece piece ('\\' :: spelled) ∧ text = spelled ++ rest ∧
      scan limit (.string target (pieces ++ [piece]) .plain) stack rest = some r := by
  cases text with
  | nil => cases scanned
  | cons e rest =>
    by_cases unicode : e = 'u'
    · subst unicode
      have hexes : step limit (.string target pieces .escape) stack 'u' =
          .more (.string target pieces (.hex 3 0)) stack := rfl
      rw [scan_more hexes] at scanned
      obtain ⟨c₃, _, d₃, rfl, h₃, scanned⟩ := scan_hex_sound scanned
      obtain ⟨c₂, _, d₂, rfl, h₂, scanned⟩ := scan_hex_sound scanned
      obtain ⟨c₁, _, d₁, rfl, h₁, scanned⟩ := scan_hex_sound scanned
      obtain ⟨c₀, rest, d₀, rfl, h₀, scanned⟩ := scan_lastHex_sound scanned
      rw [Nat.zero_mul, Nat.zero_add] at scanned
      exact ⟨_, ['u', c₃, c₂, c₁, c₀], rest, .code h₃ h₂ h₁ h₀, rfl, scanned⟩
    · cases unescapes : unescape e with
      | some c =>
        have stands : step limit (.string target pieces .escape) stack e =
            .more (.string target (pieces ++ [.rune c]) .plain) stack := by
          simp [step, inString, unicode, unescapes]
        rw [scan_more stands] at scanned
        exact ⟨_, [e], rest, .escape unicode unescapes, rfl, scanned⟩
      | none =>
        have refused : step limit (.string target pieces .escape) stack e = .error := by
          simp [step, inString, unicode, unescapes]
        rw [scan, refused] at scanned
        cases scanned

/-- In a string comes its closing quote or one more piece. -/
theorem scan_plain_sound {text : List Char}
    (scanned : scan limit (.string target pieces .plain) stack text = some r) :
    (∃ rest, text = '"' :: rest) ∨
      ∃ piece spelled rest, SpellsPiece piece spelled ∧ text = spelled ++ rest ∧
        rest.length < text.length ∧
        scan limit (.string target (pieces ++ [piece]) .plain) stack rest = some r := by
  cases text with
  | nil => cases scanned
  | cons c rest =>
    by_cases quote : c = '"'
    · exact .inl ⟨rest, by rw [quote]⟩
    · refine .inr ?_
      by_cases backslash : c = '\\'
      · subst backslash
        have escapes : step limit (.string target pieces .plain) stack '\\' =
            .more (.string target pieces .escape) stack := rfl
        rw [scan_more escapes] at scanned
        obtain ⟨piece, spelled, rest, spells, rfl, later⟩ := scan_escape_sound scanned
        refine ⟨piece, '\\' :: spelled, rest, spells, rfl, ?_, later⟩
        simp only [List.length_cons, List.length_append]
        omega
      · by_cases control : c.toNat < 0x20
        · have refused : step limit (.string target pieces .plain) stack c = .error := by
            simp [step, inString, quote, backslash, control]
          rw [scan, refused] at scanned
          cases scanned
        · have goes : step limit (.string target pieces .plain) stack c =
              .more (.string target (pieces ++ [.rune c]) .plain) stack := by
            simp [step, inString, quote, backslash, control]
          rw [scan_more goes] at scanned
          exact ⟨.rune c, [c], rest, .plain quote backslash control, rfl, by simp, scanned⟩

/-- The rest of a string, up to its closing quote. -/
theorem scan_string_sound {text : List Char}
    (scanned : scan limit (.string target pieces .plain) stack text = some r) :
    ∃ more body rest, SpellsPieces more body ∧ text = body ++ '"' :: rest ∧
      scan limit (.string target (pieces ++ more) .plain) stack ('"' :: rest) = some r := by
  induction size : text.length using Nat.strongRecOn generalizing text pieces with
  | ind n ih =>
    rcases scan_plain_sound scanned with
      ⟨rest, rfl⟩ | ⟨piece, spelled, rest, spells, rfl, shorter, later⟩
    · refine ⟨[], [], rest, .nil, rfl, ?_⟩
      rwa [List.append_nil]
    · obtain ⟨more, body, rest', spellsMore, rfl, finished⟩ := ih _ (size ▸ shorter) later rfl
      refine ⟨piece :: more, spelled ++ body, rest', .cons spells spellsMore, ?_, ?_⟩
      · rw [List.append_assoc]
      · rwa [List.append_assoc, List.singleton_append] at finished

/-- Where a key is due comes its quote. -/
theorem scan_beginKey_sound {text : List Char}
    (scanned : scan limit .beginString stack text = some r) :
    ∃ space rest, text = space ++ '"' :: rest ∧ Blank space ∧
      scan limit (.string .key [] .plain) stack rest = some r := by
  obtain ⟨space, c, rest, rfl, blank, notSpace, begun⟩ :=
    scan_blank_sound (fun _ => skips_beginString) rfl scanned
  by_cases quote : c = '"'
  · subst quote
    rw [scan_more rfl] at begun
    exact ⟨space, rest, rfl, blank, begun⟩
  · have refused : step limit .beginString stack c = .error := by
      simp [step, notSpace, quote]
    rw [scan, refused] at begun
    cases begun

/-- A key, the colon and the spaces around it. -/
theorem scan_key_sound {members : List Member} {text : List Char}
    (scanned : scan limit (.string .key [] .plain) (.object members :: stack) text = some r) :
    ∃ key quoted before rest, SpellsString key ('"' :: quoted) ∧ Blank before ∧
      text = quoted ++ (before ++ ':' :: rest) ∧
      scan limit .beginValue (.member members key :: stack) rest = some r := by
  obtain ⟨pieces, body, rest, spells, rfl, closed⟩ := scan_string_sound scanned
  have closes : step limit (.string .key ([] ++ pieces) .plain) (.object members :: stack) '"' =
      .more (.endKey (unquote pieces)) (.object members :: stack) := rfl
  rw [scan_more closes] at closed
  obtain ⟨before, c, rest, rfl, blank, notSpace, ended⟩ :=
    scan_blank_sound (fun _ => skips_endKey) rfl closed
  by_cases colon : c = ':'
  · subst colon
    have goes : step limit (.endKey (unquote pieces)) (.object members :: stack) ':' =
        .more .beginValue (.member members (unquote pieces) :: stack) := rfl
    rw [scan_more goes] at ended
    exact ⟨_, body ++ ['"'], before, rest, ⟨pieces, body, spells, rfl, rfl⟩, blank, by simp, ended⟩
  · have refused : step limit (.endKey (unquote pieces)) (.object members :: stack) c = .error := by
      simp only [step, notSpace, Bool.false_eq_true, if_false]
      split
      · exact absurd rfl colon
      · rfl
    rw [scan, refused] at ended
    cases ended

end Leaves

/-! ### Values -/

section Values

variable {limit n : Nat} {stack : List Frame} {r : Tree × List Char} {c : Char}
  {text rest : List Char}

/-- A bracket is accepted when there is room for one more. -/
theorem scan_push_sound {frame : Frame} {mode mode' : Mode}
    (pushes : step limit mode stack c = push limit frame mode' stack)
    (scanned : scan limit mode stack (c :: rest) = some r) :
    stack.length < limit ∧ scan limit mode' (frame :: stack) rest = some r := by
  by_cases room : stack.length < limit
  · have goes : step limit mode stack c = .more mode' (frame :: stack) := by
      rw [pushes, push, if_pos room]
    rw [scan_more goes] at scanned
    exact ⟨room, scanned⟩
  · have refused : step limit mode stack c = .error := by
      rw [pushes, push, if_neg room]
    rw [scan, refused] at scanned
    cases scanned

/-- A value starts with a bracket or a brace, or is a scalar. -/
theorem scan_begin_sound (notSpace : isSpace c = false)
    (scanned : scan limit .beginValue stack (c :: rest) = some r) :
    (c = '\x7b' ∧ stack.length < limit ∧
      scan limit .beginStringOrEmpty (.object [] :: stack) rest = some r) ∨
    (c = '[' ∧ stack.length < limit ∧
      scan limit .beginValueOrEmpty (.array [] :: stack) rest = some r) ∨
    ∃ t more rest', Spells t (c :: more) ∧ t.depth = 0 ∧ rest = more ++ rest' ∧
      finish limit t stack rest' = some r := by
  have steps : step limit .beginValue stack c = beginValue limit stack c := by
    simp only [step, notSpace, Bool.false_eq_true, if_false]
  unfold beginValue at steps
  split at steps
  case h_1 => exact .inl ⟨rfl, scan_push_sound steps scanned⟩
  case h_2 => exact .inr (.inl ⟨rfl, scan_push_sound steps scanned⟩)
  case h_3 =>
    rw [scan_more steps] at scanned
    obtain ⟨pieces, body, rest, spells, rfl, closed⟩ := scan_string_sound scanned
    rw [List.nil_append, scan_complete rfl] at closed
    exact .inr (.inr ⟨.string (unquote pieces), body ++ ['"'], rest,
      ⟨pieces, body, spells, rfl, rfl⟩, rfl, by simp, closed⟩)
  case h_4 =>
    rw [scan_more steps] at scanned
    obtain ⟨rest, rfl, finished⟩ := scan_literal_sound (List.cons_ne_nil _ _) scanned
    exact .inr (.inr ⟨.bool true, _, rest, rfl, rfl, rfl, finished⟩)
  case h_5 =>
    rw [scan_more steps] at scanned
    obtain ⟨rest, rfl, finished⟩ := scan_literal_sound (List.cons_ne_nil _ _) scanned
    exact .inr (.inr ⟨.bool false, _, rest, rfl, rfl, rfl, finished⟩)
  case h_6 =>
    rw [scan_more steps] at scanned
    obtain ⟨rest, rfl, finished⟩ := scan_literal_sound (List.cons_ne_nil _ _) scanned
    exact .inr (.inr ⟨.null, _, rest, rfl, rfl, rfl, finished⟩)
  case h_7 =>
    unfold beginNumber at steps
    split at steps
    case h_1 state started =>
      rw [scan_more steps] at scanned
      obtain ⟨more, rest, valid, rfl, finished⟩ := scan_number_sound _ scanned
      exact .inr (.inr ⟨.number ⟨c :: more, valid⟩, more, rest, rfl, rfl, rfl, finished⟩)
    case h_2 =>
      rw [scan, steps] at scanned
      cases scanned

/-- What an accepting scan of a value has read, for texts of at most `n` characters. -/
def ReadsValues (limit n : Nat) : Prop :=
  ∀ ⦃stack text r⦄, text.length ≤ n → stack.length ≤ limit →
    scan limit .beginValue stack text = some r →
    ∃ t space spelled rest, Blank space ∧ Spells t spelled ∧ text = space ++ (spelled ++ rest) ∧
      t.depth + stack.length ≤ limit ∧ finish limit t stack rest = some r

/-- The rest of an array after one of its items. -/
theorem ReadsValues.items (reads : ReadsValues limit n) (room : stack.length < limit)
    {item : Tree} {done : List Tree} (short : text.length ≤ n + 1)
    (scanned : scan limit (.endValue item) (.array done :: stack) text = some r) :
    ∃ items spelled rest, SpellsItems items spelled ∧ text = spelled ++ rest ∧
      itemsDepth items + stack.length < limit ∧
      finish limit (.array (done ++ item :: items)) stack rest = some r := by
  induction size : text.length using Nat.strongRecOn generalizing text item done with
  | ind m ih =>
    obtain ⟨before, c, rest, rfl, blank, notSpace, ended⟩ :=
      scan_blank_sound (fun _ => skips_endValue) rfl scanned
    simp only [List.length_append, List.length_cons] at short size
    have steps : step limit (.endValue item) (.array done :: stack) c =
        endValue item (.array done :: stack) c := by
      simp only [step, notSpace, Bool.false_eq_true, if_false]
    by_cases comma : c = ','
    · subst comma
      rw [scan_more steps] at ended
      obtain ⟨next, after, first, rest, blankAfter, spells, rfl, fits, finished⟩ :=
        reads (by omega) (by rw [List.length_cons]; omega) ended
      simp only [List.length_append] at short size
      rw [List.length_cons] at fits
      obtain ⟨items, more, rest, spellsItems, rfl, fitsItems, finished⟩ :=
        ih rest.length (by omega) (by omega) finished rfl
      refine ⟨next :: items, before ++ ',' :: (after ++ (first ++ more)), rest,
        ⟨before, after, first, more, blank, blankAfter, spells, spellsItems, rfl⟩, by simp, ?_, ?_⟩
      · rw [itemsDepth]
        omega
      · simpa using finished
    · by_cases bracket : c = ']'
      · subst bracket
        rw [scan_complete steps] at ended
        refine ⟨[], before ++ [']'], rest, ⟨before, blank, rfl⟩, by simp, ?_, ended⟩
        rw [itemsDepth]
        omega
      · have refused : endValue item (.array done :: stack) c = .error := by
          simp [endValue, comma, bracket]
        rw [scan, steps, refused] at ended
        cases ended

/-- The rest of an object after one of its members. -/
theorem ReadsValues.members (reads : ReadsValues limit n) (room : stack.length < limit)
    {key : List Char} {value : Tree} {done : List Member} (short : text.length ≤ n + 1)
    (scanned : scan limit (.endValue value) (.member done key :: stack) text = some r) :
    ∃ members spelled rest, SpellsMembers members spelled ∧ text = spelled ++ rest ∧
      membersDepth members + stack.length < limit ∧
      finish limit (.object (done ++ (key, value) :: members)) stack rest = some r := by
  induction size : text.length using Nat.strongRecOn generalizing text key value done with
  | ind m ih =>
    obtain ⟨space, c, rest, rfl, blank, notSpace, ended⟩ :=
      scan_blank_sound (fun _ => skips_endValue) rfl scanned
    simp only [List.length_append, List.length_cons] at short size
    have steps : step limit (.endValue value) (.member done key :: stack) c =
        endValue value (.member done key :: stack) c := by
      simp only [step, notSpace, Bool.false_eq_true, if_false]
    by_cases comma : c = ','
    · subst comma
      rw [scan_more steps] at ended
      obtain ⟨space', rest, rfl, blank', keyed⟩ := scan_beginKey_sound ended
      obtain ⟨nextKey, quoted, before, rest, spellsKey, blankBefore, rfl, begun⟩ :=
        scan_key_sound keyed
      simp only [List.length_append, List.length_cons] at short size
      obtain ⟨next, after, first, rest, blankAfter, spells, rfl, fits, finished⟩ :=
        reads (by omega) (by rw [List.length_cons]; omega) begun
      simp only [List.length_append] at short size
      rw [List.length_cons] at fits
      obtain ⟨members, more, rest, spellsMembers, rfl, fitsMembers, finished⟩ :=
        ih rest.length (by omega) (by omega) finished rfl
      refine ⟨(nextKey, next) :: members,
        space ++ ',' :: (space' ++
          ('"' :: quoted ++ (before ++ ':' :: (after ++ (first ++ more))))), rest,
        ⟨space, space', _, before, after, first, more, blank, blank', spellsKey,
          blankBefore, blankAfter, spells, spellsMembers, rfl⟩, by simp, ?_, ?_⟩
      · rw [membersDepth]
        omega
      · simpa using finished
    · by_cases brace : c = '\x7d'
      · subst brace
        rw [scan_complete steps] at ended
        refine ⟨[], space ++ ['\x7d'], rest, ⟨space, blank, rfl⟩, by simp, ?_, ended⟩
        rw [membersDepth]
        omega
      · have refused : endValue value (.member done key :: stack) c = .error := by
          simp [endValue, comma, brace]
        rw [scan, steps, refused] at ended
        cases ended

/-- An array after its bracket. -/
theorem ReadsValues.array (reads : ReadsValues limit n) (room : stack.length < limit)
    (short : rest.length ≤ n)
    (scanned : scan limit .beginValueOrEmpty (.array [] :: stack) rest = some r) :
    ∃ items more rest', Spells (.array items) ('[' :: more) ∧ rest = more ++ rest' ∧
      itemsDepth items + stack.length < limit ∧
        finish limit (.array items) stack rest' = some r := by
  obtain ⟨space, c, rest, rfl, blank, notSpace, begun⟩ :=
    scan_blank_sound (fun _ => skips_beginValueOrEmpty) rfl scanned
  simp only [List.length_append, List.length_cons] at short
  by_cases bracket : c = ']'
  · subst bracket
    rw [scan_complete rfl] at begun
    refine ⟨[], space ++ [']'], rest, ⟨space, blank, rfl⟩, by simp, ?_, begun⟩
    rw [itemsDepth]
    omega
  · have same : step limit .beginValueOrEmpty (.array [] :: stack) c =
        step limit .beginValue (.array [] :: stack) c := by
      simp only [step, notSpace, Bool.false_eq_true, if_false]
      split
      · exact absurd rfl bracket
      · rfl
    have first : scan limit .beginValue (.array [] :: stack) (c :: rest) = some r := by
      rw [scan, ← same]
      exact begun
    obtain ⟨item, space', spelled, rest', blank', spells, text, fits, finished⟩ :=
      reads (by rw [List.length_cons]; omega) (by rw [List.length_cons]; omega) first
    have shorter : rest'.length ≤ rest.length + 1 := by
      rw [← List.length_cons, text]
      simp only [List.length_append]
      omega
    obtain ⟨items, more, rest, spellsItems, rfl, fitsItems, ended⟩ :=
      reads.items room (by omega) finished
    rw [List.length_cons] at fits
    refine ⟨item :: items, space ++ space' ++ (spelled ++ more), rest,
      ⟨space ++ space', spelled, more, blank.append blank', spells, spellsItems, rfl⟩,
      ?_, ?_, ended⟩
    · rw [text]
      simp
    · rw [itemsDepth]
      omega

/-- An object after its brace. -/
theorem ReadsValues.object (reads : ReadsValues limit n) (room : stack.length < limit)
    (short : rest.length ≤ n)
    (scanned : scan limit .beginStringOrEmpty (.object [] :: stack) rest = some r) :
    ∃ members more rest', Spells (.object members) ('\x7b' :: more) ∧ rest = more ++ rest' ∧
      membersDepth members + stack.length < limit ∧
      finish limit (.object members) stack rest' = some r := by
  obtain ⟨space, c, rest, rfl, blank, notSpace, begun⟩ :=
    scan_blank_sound (fun _ => skips_beginStringOrEmpty) rfl scanned
  simp only [List.length_append, List.length_cons] at short
  by_cases brace : c = '\x7d'
  · subst brace
    rw [scan_complete rfl] at begun
    refine ⟨[], space ++ ['\x7d'], rest, ⟨space, blank, rfl⟩, by simp, ?_, begun⟩
    rw [membersDepth]
    omega
  · by_cases quote : c = '"'
    · subst quote
      rw [scan_more rfl] at begun
      obtain ⟨key, quoted, before, rest, spellsKey, blankBefore, rfl, valued⟩ :=
        scan_key_sound begun
      simp only [List.length_append, List.length_cons] at short
      obtain ⟨value, after, first, rest, blankAfter, spells, rfl, fits, finished⟩ :=
        reads (by omega) (by rw [List.length_cons]; omega) valued
      simp only [List.length_append] at short
      obtain ⟨members, more, rest, spellsMembers, rfl, fitsMembers, ended⟩ :=
        reads.members room (by omega) finished
      rw [List.length_cons] at fits
      refine ⟨(key, value) :: members,
        space ++ ('"' :: quoted ++ (before ++ ':' :: (after ++ (first ++ more)))), rest,
        ⟨space, _, before, after, first, more, blank, spellsKey, blankBefore, blankAfter, spells,
          spellsMembers, rfl⟩, by simp, ?_, ended⟩
      rw [membersDepth]
      omega
    · have refused : step limit .beginStringOrEmpty (.object [] :: stack) c = .error := by
        simp [step, notSpace, brace, quote]
      rw [scan, refused] at begun
      cases begun

/-- Whatever the length, what the scanner reads spells the value it returns. -/
theorem readsValues (limit n : Nat) : ReadsValues limit n := by
  induction n with
  | zero =>
    intro stack text r short room scanned
    obtain rfl := List.eq_nil_of_length_eq_zero (Nat.le_zero.mp short)
    cases scanned
  | succ n reads =>
    intro stack text r short room scanned
    obtain ⟨space, c, rest, rfl, blank, notSpace, begun⟩ :=
      scan_blank_sound (fun _ => skips_beginValue) rfl scanned
    simp only [List.length_append, List.length_cons] at short
    rcases scan_begin_sound notSpace begun with
      ⟨rfl, room, opened⟩ | ⟨rfl, room, opened⟩ | ⟨t, more, rest, spells, flat, rfl, finished⟩
    · obtain ⟨members, more, rest, spells, rfl, fits, finished⟩ :=
        reads.object room (by omega) opened
      refine ⟨_, space, _, rest, blank, spells, rfl, ?_, finished⟩
      rw [Tree.depth]
      omega
    · obtain ⟨items, more, rest, spells, rfl, fits, finished⟩ := reads.array room (by omega) opened
      refine ⟨_, space, _, rest, blank, spells, rfl, ?_, finished⟩
      rw [Tree.depth]
      omega
    · exact ⟨t, space, _, rest, blank, spells, rfl, by omega, finished⟩

end Values

/-- What is read is spelled at the start of the text, after some spaces. -/
theorem parse_sound {limit : Nat} {text rest : List Char} {t : Tree}
    (parsed : parse limit text = some (t, rest)) :
    ∃ space spelled, Blank space ∧ Spells t spelled ∧ t.depth ≤ limit ∧
      text = space ++ (spelled ++ rest) := by
  have room : ([] : List Frame).length ≤ limit := Nat.zero_le limit
  obtain ⟨t', space, spelled, rest', blank, spells, rfl, fits, finished⟩ :=
    readsValues limit text.length (Nat.le_refl _) room parsed
  cases finished
  exact ⟨space, spelled, blank, spells, fits, rfl⟩

end Json
