import Mathlib.Data.List.TakeWhile
import WalletGo.Http.Pinned
import WalletGo.Json.Sound

/-!
The bodies that `decodeStrict` and `Fingerprint` accept, in terms of the grammar.

Both take the first value of a body and ask `Decoder.More` whether anything follows.
`More` is made for the inside of an array or object and answers no before a closing
bracket, so a body with a stray `]` or `}` after its value is accepted with whatever
comes behind the bracket. These are the only accepted bodies that are not one value
(`strict_iff_no_stray_close`). Either way the fingerprint is that of the first value,
and it is the same for two bodies exactly when their values are, up to the order of
members and to members that a later one replaces (`fingerprint_eq_iff_same`).
-/

namespace WalletGo

open Json (Tree Blank Spells Same StructField)

/-! ### One value and what follows it -/

/-- The body is one JSON value with white space around it. -/
def OneValue (body : List UInt8) : Prop :=
  ∃ value space spelled rest, Blank space ∧ Spells value spelled ∧ Blank rest ∧
    Json.decodeUtf8 body = space ++ (spelled ++ rest)

/-- The next character that is not a space closes an array or an object. -/
def StartsWithClose (rest : List Char) : Prop :=
  ∃ space close after, Blank space ∧ (close = ']' ∨ close = '\x7d') ∧ rest = space ++ close :: after

/-- A value that `accepts` takes, and behind it a bracket or brace that closes nothing. -/
def StrayClose (accepts : Tree → Prop) (body : List UInt8) : Prop :=
  ∃ value space spelled rest, Blank space ∧ Spells value spelled ∧ StartsWithClose rest ∧
    value.depth ≤ maxNestingDepth ∧ accepts value ∧
    Json.decodeUtf8 body = space ++ (spelled ++ rest)

/-- The body starts with the value, and `More` reports nothing behind it. -/
def Spelled (body : List UInt8) (value : Tree) : Prop :=
  ∃ space spelled rest, Blank space ∧ Spells value spelled ∧ (Blank rest ∨ StartsWithClose rest) ∧
    Json.decodeUtf8 body = space ++ (spelled ++ rest)

section Tails

variable {rest : List Char}

theorem StartsWithClose.delimited (stray : StartsWithClose rest) : Json.Delimited rest := by
  obtain ⟨space, close, after, blank, rfl | rfl, rfl⟩ := stray
  · exact Json.delimited_blank blank (Json.delimited_bracket after)
  · exact Json.delimited_blank blank (Json.delimited_brace after)

theorem delimited_of_blank (blank : Blank rest) : Json.Delimited rest := by
  have spaces := Json.delimited_blank blank Json.delimited_nil
  rwa [List.append_nil] at spaces

theorem StartsWithClose.not_blank (stray : StartsWithClose rest) : ¬ Blank rest := by
  obtain ⟨space, close, after, _, closes, rfl⟩ := stray
  intro blank
  have space' := blank close (List.mem_append_right _ List.mem_cons_self)
  rcases closes with rfl | rfl <;> cases space'

theorem dropWhile_blank_append {space : List Char} (blank : Blank space) :
    (space ++ rest).dropWhile Json.isSpace = rest.dropWhile Json.isSpace :=
  List.dropWhile_append_of_pos blank

/-- `More` is silent before a stray bracket as it is at the end. -/
theorem more_eq_false_iff : more rest = false ↔ Blank rest ∨ StartsWithClose rest := by
  constructor
  · intro silent
    have split := List.takeWhile_append_dropWhile (p := Json.isSpace) (l := rest)
    have blank : Blank (rest.takeWhile Json.isSpace) := fun _ => List.mem_takeWhile_imp
    unfold more at silent
    cases left : rest.dropWhile Json.isSpace with
    | nil =>
      rw [left, List.append_nil] at split
      rw [← split]
      exact .inl blank
    | cons c after =>
      rw [left] at silent split
      have closes : c = ']' ∨ c = '\x7d' := by
        by_contra neither
        rw [not_or] at neither
        simp [neither.1, neither.2] at silent
      exact .inr ⟨_, c, after, blank, closes, split.symm⟩
  · rintro (blank | ⟨space, close, after, blank, closes, rfl⟩)
    · have none' : rest.dropWhile Json.isSpace = [] := List.dropWhile_eq_nil_iff.mpr blank
      rw [more, none']
    · rw [more, dropWhile_blank_append blank]
      rcases closes with rfl | rfl <;> rfl

end Tails

/-! ### Accepted bodies -/

section Accepted

variable {body : List UInt8} {value value' : Tree}

/-- Reading a body is parsing it, at any limit that its value keeps to. -/
theorem Spelled.parse (spelled : Spelled body value) :
    ∃ rest, (Blank rest ∨ StartsWithClose rest) ∧
      ∀ limit, value.depth ≤ limit → Json.parse limit (Json.decodeUtf8 body) =
        some (value, rest) := by
  obtain ⟨space, text, rest, blank, spells, tail, decoded⟩ := spelled
  refine ⟨rest, tail, fun limit fits => ?_⟩
  have delimited : Json.Delimited rest := tail.elim delimited_of_blank StartsWithClose.delimited
  rw [decoded]
  exact Json.parse_spells blank spells fits delimited

/-- A body spells one value. -/
theorem Spelled.unique (first : Spelled body value) (second : Spelled body value') :
    value = value' := by
  obtain ⟨rest, _, parses⟩ := first.parse
  obtain ⟨rest', _, parses'⟩ := second.parse
  have same :=
    (parses _ (le_max_left value.depth value'.depth)).symm.trans (parses' _ (le_max_right _ _))
  cases same
  rfl

/-- The decoder accepts what spells a value that is not nested too deeply. -/
theorem denotes_iff_spelled :
    Denotes body value ↔ Spelled body value ∧ value.depth ≤ maxNestingDepth := by
  constructor
  · rintro ⟨rest, decoded, silent⟩
    obtain ⟨space, text, blank, spells, fits, split⟩ := Json.parse_sound decoded
    exact ⟨⟨space, text, rest, blank, spells, more_eq_false_iff.mp silent, split⟩, fits⟩
  · rintro ⟨spelled, fits⟩
    obtain ⟨rest, tail, parses⟩ := spelled.parse
    exact ⟨rest, parses maxNestingDepth fits, more_eq_false_iff.mpr tail⟩

/-- A body spells one value and one tail. -/
theorem not_oneValue_of_strayClose {accepts : Tree → Prop} (stray : StrayClose accepts body) :
    ¬ OneValue body := by
  rintro ⟨value', space', text', rest', blank', spells', blankRest, decoded'⟩
  obtain ⟨value, space, text, rest, blank, spells, close, fits, _, decoded⟩ := stray
  have first :
      Json.parse (max value.depth value'.depth) (Json.decodeUtf8 body) = some (value, rest) := by
    rw [decoded]
    exact Json.parse_spells blank spells (le_max_left _ _) close.delimited
  have second :
      Json.parse (max value.depth value'.depth) (Json.decodeUtf8 body) = some (value', rest') := by
    rw [decoded']
    exact Json.parse_spells blank' spells' (le_max_right _ _) (delimited_of_blank blankRest)
  cases first.symm.trans second
  exact close.not_blank blankRest

/-- What holds of a decoder that takes the values that `accepts` does. -/
theorem strict_iff {accepts : Tree → Prop} {accepted : Prop}
    (means : accepted ↔ ∃ value, Denotes body value ∧ accepts value) :
    (accepted → OneValue body) ↔ ¬ StrayClose accepts body := by
  constructor
  · intro strict stray
    obtain ⟨value, space, text, rest, blank, spells, close, fits, takes, decoded⟩ := stray
    have denotes : Denotes body value :=
      denotes_iff_spelled.mpr ⟨⟨space, text, rest, blank, spells, .inr close, decoded⟩, fits⟩
    have stray : StrayClose accepts body :=
      ⟨value, space, text, rest, blank, spells, close, fits, takes, decoded⟩
    exact not_oneValue_of_strayClose stray (strict (means.mpr ⟨value, denotes, takes⟩))
  · intro clean succeeded
    obtain ⟨value, denotes, takes⟩ := means.mp succeeded
    obtain ⟨⟨space, text, rest, blank, spells, tail, decoded⟩, fits⟩ :=
      denotes_iff_spelled.mp denotes
    rcases tail with blankRest | close
    · exact ⟨value, space, text, rest, blank, spells, blankRest, decoded⟩
    · exact absurd ⟨value, space, text, rest, blank, spells, close, fits, takes, decoded⟩ clean

end Accepted

/-- A decoder that succeeds has read a body of one value, except where a stray bracket
or brace follows a value it takes. -/
theorem strict_iff_no_stray_close (sha256 : List UInt8 → List UInt8) {σ : Type}
    (fields : List (StructField σ)) (zero : σ) (body : List UInt8) :
    (((∃ print, fingerprint sha256 body = .ok print) → OneValue body) ↔
      ¬ StrayClose (fun _ => True) body) ∧
    (((∃ req, decodeStrict fields zero body = .ok req) → OneValue body) ↔
      ¬ StrayClose (fun value => ∃ req, Json.decodeStruct fields zero value = .ok req) body) := by
  constructor
  · refine strict_iff ?_
    simp only [fingerprint_eq_ok_iff]
    constructor
    · rintro ⟨print, value, denotes, _⟩
      exact ⟨value, denotes, trivial⟩
    · rintro ⟨value, denotes, _⟩
      exact ⟨_, value, denotes, rfl⟩
  · refine strict_iff ?_
    simp only [decodeStrict_eq_ok_iff]
    constructor
    · rintro ⟨req, value, denotes, decoded⟩
      exact ⟨value, denotes, req, decoded⟩
    · rintro ⟨value, denotes, req, decoded⟩
      exact ⟨req, value, denotes, decoded⟩

def oneCent : Tree := .object [("amount_cents".toList, .number ⟨['1'], rfl⟩)]

def strayBracket : List UInt8 := Json.encodeUtf8 (oneCent.print ++ [']'])

/-- A deposit of one cent that both decoders accept, and that is no JSON text. -/
theorem stray_bracket_accepted :
    (∃ print, fingerprint id strayBracket = .ok print) ∧
      decodeStrict AmountRequestBody.fields AmountRequestBody.zero strayBracket = .ok ⟨1⟩ ∧
      ¬ OneValue strayBracket := by
  have shallow : oneCent.depth ≤ maxNestingDepth := by decide
  have close : StartsWithClose [']'] := ⟨[], ']', [], Json.blank_nil, .inl rfl, rfl⟩
  have decoded : Json.decodeUtf8 strayBracket = [] ++ (oneCent.print ++ [']']) :=
    Json.decodeUtf8_encodeUtf8 _
  have denotes := denotes_iff_spelled.mpr
    ⟨⟨[], _, _, Json.blank_nil, Json.print_spells _, .inr close, decoded⟩, shallow⟩
  have stray : StrayClose (fun _ => True) strayBracket :=
    ⟨_, [], _, _, Json.blank_nil, Json.print_spells _, close, shallow, trivial, decoded⟩
  exact ⟨⟨_, denotes.fingerprint id⟩,
    decodeStrict_eq_ok_iff.mpr ⟨_, denotes, by decide +kernel⟩, not_oneValue_of_strayClose stray⟩

/-! ### Equal fingerprints -/

/-- Two accepted bodies have one fingerprint exactly when they spell the same value. -/
theorem fingerprint_eq_iff_same {sha256 : List UInt8 → List UInt8}
    (injective : Function.Injective sha256) {a b : List UInt8} {printA printB : String}
    (acceptsA : fingerprint sha256 a = .ok printA) (acceptsB : fingerprint sha256 b = .ok printB) :
    (∃ value, Spelled a value) ∧ (∃ value, Spelled b value) ∧
      ∀ valueA valueB, Spelled a valueA → Spelled b valueB →
        (printA = printB ↔ Same valueA valueB) := by
  obtain ⟨readA, denotesA, rfl⟩ := fingerprint_eq_ok_iff.mp acceptsA
  obtain ⟨readB, denotesB, rfl⟩ := fingerprint_eq_ok_iff.mp acceptsB
  refine ⟨⟨readA, (denotes_iff_spelled.mp denotesA).1⟩,
    ⟨readB, (denotes_iff_spelled.mp denotesB).1⟩, ?_⟩
  intro valueA valueB spelledA spelledB
  obtain rfl := (denotes_iff_spelled.mp denotesA).1.unique spelledA
  obtain rfl := (denotes_iff_spelled.mp denotesB).1.unique spelledB
  rw [valueFingerprint_eq_iff injective, Json.canon_eq_iff_same]

/-- Two objects that differ in the order of their members. -/
theorem fingerprint_eq_iff_same_reordered :
    ∃ a b printA printB, fingerprint id a = .ok printA ∧ fingerprint id b = .ok printB ∧ a ≠ b ∧
      ∃ valueA valueB, Spelled a valueA ∧ Spelled b valueB ∧
        (printA = printB ↔ Same valueA valueB) := by
  have denotesA : Denotes _ (.object [(['a'], .null), (['b'], .bool true)]) :=
    denotes_print (by decide)
  have denotesB : Denotes _ (.object [(['b'], .bool true), (['a'], .null)]) :=
    denotes_print (by decide)
  obtain ⟨⟨valueA, spelledA⟩, ⟨valueB, spelledB⟩, same⟩ :=
    fingerprint_eq_iff_same Function.injective_id (denotesA.fingerprint id)
      (denotesB.fingerprint id)
  exact ⟨_, _, _, _, denotesA.fingerprint id,
    denotesB.fingerprint id, by decide +kernel, valueA, valueB,
    spelledA, spelledB, same valueA valueB spelledA spelledB⟩

end WalletGo
