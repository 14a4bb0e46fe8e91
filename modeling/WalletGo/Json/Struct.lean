import Mathlib.Algebra.Group.Int.Defs
import Mathlib.Data.List.Induction
import WalletGo.Json.Canon
import WalletGo.Text.Integer

/-!
Decoding an object into a struct, with unknown fields disallowed.

Members are stored in order, each into the field whose name it has exactly or,
failing that, up to case; `null` leaves the field as it was. `storeMembers_get` says
what a field holds in the end: the value of its last member that is not `null`.
-/

namespace Json

inductive Error where
  | malformed
  | unknownField (key : List Char)
  | wrongType
deriving DecidableEq, Repr

/-- The least character of a fold set, for the sets that have an ASCII letter:
beside the two cases these are the long s and the Kelvin sign. -/
def foldRune (c : Char) : Char :=
  if 'a' ≤ c ∧ c ≤ 'z' then Char.ofNat (c.toNat - 0x20)
  else if c.toNat = 0x17F then 'S'
  else if c.toNat = 0x212A then 'K'
  else c

def foldName (name : List Char) : List Char := name.map foldRune

/-! ### Scalars -/

def readString : Tree → Option (List Char)
  | .string text => some text
  | _ => none

/-- An integer literal that `strconv.ParseInt(literal, 10, 64)` takes. -/
def readInt64 : Tree → Option Int64
  | .number n => (Text.parseInt 64 n.text).map Int64.ofInt
  | _ => none

def Tree.IsScalar : Tree → Prop
  | .array _ | .object _ => False
  | _ => True

theorem Tree.IsScalar.canon {t : Tree} (scalar : t.IsScalar) : Json.canon t = t := by
  cases t with
  | array | object => cases scalar
  | null | bool | number | string => rfl

theorem Tree.IsScalar.depth {t : Tree} (scalar : t.IsScalar) : t.depth = 0 := by
  cases t with
  | array | object => cases scalar
  | null | bool | number | string => rfl

theorem scalar_of_readString {t : Tree} {text : List Char} (read : readString t = some text) :
    t.IsScalar := by
  cases t with
  | string => trivial
  | null | bool | number | array | object => cases read

theorem scalar_of_readInt64 {t : Tree} {n : Int64} (read : readInt64 t = some n) : t.IsScalar := by
  cases t with
  | number => trivial
  | null | bool | string | array | object => cases read

/-! ### Fields -/

/-- A field of a struct `σ`: its name, how its values are read, and how one is set. -/
structure StructField (σ : Type) where
  name : List Char
  Value : Type
  read : Tree → Option Value
  set : Value → σ → σ
  read_null : read .null = none
  scalar : ∀ {t v}, read t = some v → t.IsScalar

variable {σ : Type}

namespace StructField

/-- Store one value; `null` is stored nowhere. -/
def store (f : StructField σ) (value : Tree) (s : σ) : Option σ :=
  match value with
  | .null => some s
  | t => (f.read t).map fun v => f.set v s

/-- The key is taken for this field, if the struct has no better one. -/
def Matches (f : StructField σ) (key : List Char) : Prop := foldName key = foldName f.name

instance (f : StructField σ) (key : List Char) : Decidable (f.Matches key) :=
  inferInstanceAs (Decidable (_ = _))

/-- What a field that holds `v` holds after one more member. -/
def assign (f : StructField σ) (v : f.Value) (member : Member) : f.Value :=
  if f.Matches member.1 then (f.read member.2).getD v else v

end StructField

def fieldFor (fields : List (StructField σ)) (key : List Char) : Option (StructField σ) :=
  (fields.find? fun f => f.name == key).or (fields.find? fun f => foldName key == foldName f.name)

def storeMembers (fields : List (StructField σ)) : List Member → σ → Except Error σ
  | [], s => .ok s
  | (key, value) :: rest, s =>
    match fieldFor fields key with
    | none => .error (.unknownField key)
    | some f =>
      match f.store value s with
      | none => .error .wrongType
      | some s => storeMembers fields rest s

def Tree.members : Tree → List Member
  | .object members => members
  | _ => []

/-- Decode a value into a struct that starts out as `s`. -/
def decodeStruct (fields : List (StructField σ)) (s : σ) : Tree → Except Error σ
  | .null => .ok s
  | .object members => storeMembers fields members s
  | _ => .error .wrongType

/-- `null` is decoded like the empty object, but it is none. -/
theorem decodeStruct_eq_ok_iff {fields : List (StructField σ)} {s s' : σ} {value : Tree} :
    decodeStruct fields s value = .ok s' ↔
      (value = .null ∨ value = .object value.members) ∧
      storeMembers fields value.members s = .ok s' := by
  cases value with
  | null | object => simp [decodeStruct, Tree.members, storeMembers]
  | bool | number | string | array => simp [decodeStruct, Tree.members]

/-! ### What a struct holds in the end -/

theorem fieldFor_matches {fields : List (StructField σ)} {key : List Char} {f : StructField σ}
    (found : fieldFor fields key = some f) : f ∈ fields ∧ f.Matches key := by
  rw [fieldFor, Option.or_eq_some_iff] at found
  rcases found with exactly | ⟨_, folded⟩
  · have same := List.find?_some exactly
    rw [beq_iff_eq] at same
    exact ⟨List.mem_of_find?_eq_some exactly, congrArg foldName same.symm⟩
  · have same := List.find?_some folded
    rw [beq_iff_eq] at same
    exact ⟨List.mem_of_find?_eq_some folded, same⟩

theorem exists_fieldFor {fields : List (StructField σ)} {key : List Char} {f : StructField σ}
    (mem : f ∈ fields) (hits : f.Matches key) : ∃ g, fieldFor fields key = some g := by
  have folded : (fields.find? fun g => foldName key == foldName g.name).isSome := by
    rw [List.find?_isSome]
    exact ⟨f, mem, beq_iff_eq.mpr hits⟩
  rw [← Option.isSome_iff_exists, fieldFor, Option.isSome_or, folded, Bool.or_true]

/-- A member that can be stored: its key has a field, which can read the value. -/
def Storable (fields : List (StructField σ)) (member : Member) : Prop :=
  ∃ f, fieldFor fields member.1 = some f ∧ (member.2 = .null ∨ ∃ v, f.read member.2 = some v)

theorem Storable.scalar {fields : List (StructField σ)} {member : Member}
    (storable : Storable fields member) : member.2.IsScalar := by
  obtain ⟨f, _, null | ⟨v, read⟩⟩ := storable
  · rw [null]
    trivial
  · exact f.scalar read

/-- `null` stores nothing, and any other value what is read from it. -/
theorem store_eq_some_iff {f : StructField σ} {value : Tree} {s s' : σ} :
    f.store value s = some s' ↔
      value = .null ∧ s = s' ∨ ∃ v, f.read value = some v ∧ f.set v s = s' := by
  cases value with
  | null => simp [StructField.store, f.read_null]
  | bool | number | string | array | object => simp [StructField.store]

/-- Whether a member can be stored does not depend on what has been stored. -/
theorem storable_iff {fields : List (StructField σ)} {key : List Char} {value : Tree}
    {f : StructField σ} (s : σ) (found : fieldFor fields key = some f) :
    Storable fields (key, value) ↔ ∃ s', f.store value s = some s' := by
  constructor
  · rintro ⟨g, foundG, readable⟩
    obtain rfl : f = g := Option.some.inj (found.symm.trans foundG)
    rcases readable with null | ⟨v, read⟩
    · exact ⟨s, store_eq_some_iff.mpr (.inl ⟨null, rfl⟩)⟩
    · exact ⟨f.set v s, store_eq_some_iff.mpr (.inr ⟨v, read, rfl⟩)⟩
  · rintro ⟨s', stored⟩
    rcases store_eq_some_iff.mp stored with ⟨null, _⟩ | ⟨v, read, _⟩
    · exact ⟨f, found, .inl null⟩
    · exact ⟨f, found, .inr ⟨v, read⟩⟩

/-- Decoding succeeds exactly when every member can be stored, also one that a
later member overrides. -/
theorem storeMembers_ok_iff {fields : List (StructField σ)} {members : List Member} {s : σ} :
    (∃ s', storeMembers fields members s = .ok s') ↔
    ∀ member ∈ members, Storable fields member := by
  induction members generalizing s with
  | nil => simp [storeMembers]
  | cons member rest ih =>
    obtain ⟨key, value⟩ := member
    rw [List.forall_mem_cons, storeMembers]
    cases found : fieldFor fields key with
    | none => simp [Storable, found]
    | some f =>
      rw [storable_iff s found]
      cases stored : f.store value s with
      | none => simp [stored]
      | some t =>
        simp only [stored, ih]
        exact (and_iff_right ⟨t, rfl⟩).symm

/-- `get` reads the field `f` of a struct, and no other of its fields. -/
structure StructField.Observes (fields : List (StructField σ)) (f : StructField σ)
    (get : σ → f.Value) : Prop where
  mem : f ∈ fields
  own : ∀ v s, get (f.set v s) = v
  others : ∀ g ∈ fields, g = f ∨ foldName g.name ≠ foldName f.name ∧ ∀ v s, get (g.set v s) = get s

namespace StructField.Observes

variable {fields : List (StructField σ)} {f : StructField σ} {get : σ → f.Value}

/-- Storing a member changes the field it is for. -/
theorem get_store (observes : f.Observes fields get) {key : List Char} {value : Tree} {s s' : σ}
    {g : StructField σ} (found : fieldFor fields key = some g)
    (stored : g.store value s = some s') : get s' = f.assign (get s) (key, value) := by
  obtain ⟨mem, hits⟩ := fieldFor_matches found
  rw [StructField.assign]
  rcases observes.others g mem with rfl | ⟨apart, frame⟩
  · rw [if_pos hits]
    rcases store_eq_some_iff.mp stored with ⟨rfl, rfl⟩ | ⟨v, read, rfl⟩
    · rw [g.read_null]
      rfl
    · rw [read, observes.own]
      rfl
  · have misses : ¬ f.Matches key := fun also => apart (hits.symm.trans also)
    rw [if_neg misses]
    rcases store_eq_some_iff.mp stored with ⟨_, rfl⟩ | ⟨v, _, rfl⟩
    · rfl
    · exact frame v s

/-- A field holds what its members assign to it, one after the other. -/
theorem get_storeMembers (observes : f.Observes fields get) {members : List Member} {s s' : σ}
    (decoded : storeMembers fields members s = .ok s') :
    get s' = members.foldl f.assign (get s) := by
  induction members generalizing s with
  | nil =>
    cases decoded
    rfl
  | cons member rest ih =>
    obtain ⟨key, value⟩ := member
    rw [storeMembers] at decoded
    split at decoded
    · cases decoded
    case h_2 g found =>
      split at decoded
      · cases decoded
      case h_2 t stored =>
        rw [List.foldl_cons, ← observes.get_store found stored]
        exact ih decoded

/-- The members that match the field are stored into it. -/
theorem readable (observes : f.Observes fields get) {member : Member}
    (storable : Storable fields member) (hits : f.Matches member.1) :
    member.2 = .null ∨ ∃ v, f.read member.2 = some v := by
  obtain ⟨g, found, readable⟩ := storable
  obtain ⟨mem, hitsG⟩ := fieldFor_matches found
  rcases observes.others g mem with rfl | ⟨apart, _⟩
  · exact readable
  · exact absurd (hitsG.symm.trans hits) apart

theorem storable (observes : f.Observes fields get) {member : Member} (hits : f.Matches member.1)
    (readable : member.2 = .null ∨ ∃ v, f.read member.2 = some v) : Storable fields member := by
  obtain ⟨g, found⟩ := exists_fieldFor observes.mem hits
  obtain ⟨mem, hitsG⟩ := fieldFor_matches found
  rcases observes.others g mem with rfl | ⟨apart, _⟩
  · exact ⟨g, found, readable⟩
  · exact absurd (hitsG.symm.trans hits) apart

end StructField.Observes

namespace StructField

variable {f : StructField σ}

theorem foldl_assign_of_not_matches {members : List Member} (v : f.Value)
    (misses : ∀ member ∈ members, ¬ f.Matches member.1) : members.foldl f.assign v = v := by
  induction members with
  | nil => rfl
  | cons member rest ih =>
    rw [List.foldl_cons, assign, if_neg (misses member List.mem_cons_self)]
    exact ih fun other mem => misses other (List.mem_cons_of_mem _ mem)

/-- Either no member is for the field, or one is the last of those that are; it
is then also the last with its key. -/
theorem last_matching (members : List Member) :
    (∀ member ∈ members, ¬ f.Matches member.1) ∨
      ∃ key value, f.Matches key ∧ Assoc.last? key members = some value ∧
        ∀ v, members.foldl f.assign v = (f.read value).getD (members.foldl f.assign v) := by
  induction members using List.reverseRecOn with
  | nil => exact .inl fun member mem => nomatch mem
  | append_singleton members member ih =>
    obtain ⟨key, value⟩ := member
    by_cases hits : f.Matches key
    · refine .inr ⟨key, value, hits, ?_, fun v => ?_⟩
      · rw [Assoc.last?_append, Assoc.last?, if_pos rfl]
        rfl
      · rw [List.foldl_append, List.foldl_cons, List.foldl_nil, assign, if_pos hits]
        cases f.read value with
        | none => rfl
        | some w => rfl
    · rcases ih with misses | ⟨key', value', hits', last, assigned⟩
      · refine .inl fun other mem => ?_
        rcases List.mem_append.mp mem with mem | mem
        · exact misses other mem
        · rw [List.mem_singleton.mp mem]
          exact hits
      · have apart : key ≠ key' := fun same => hits (same ▸ hits')
        refine .inr ⟨key', value', hits', ?_, fun v => ?_⟩
        · rw [Assoc.last?_append, Assoc.last?, if_neg apart]
          exact last
        · rw [List.foldl_append, List.foldl_cons, List.foldl_nil, assign, if_neg hits]
          exact assigned v

end StructField

end Json
