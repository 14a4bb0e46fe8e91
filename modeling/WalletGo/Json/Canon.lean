import Mathlib.Data.List.Lex
import Mathlib.Data.Char
import Mathlib.Order.Lattice
import WalletGo.Json.Print

/-!
The canonical form of a JSON value: what decoding it into maps keeps.

An object becomes a map in which the last of several members with one key wins,
written in ascending order of the keys. A map is kept as the sorted list of its
entries; two such lists with the same entries are equal (`Assoc.ext`), so that
canonical objects are equal exactly when their last members are (`canon_object_iff`).
-/

namespace Json

/-! ### Maps as sorted lists -/

namespace Assoc

variable {K V : Type} [LinearOrder K]

def insert (k : K) (v : V) : List (K × V) → List (K × V)
  | [] => [(k, v)]
  | (k', v') :: rest =>
    if k < k' then (k, v) :: (k', v') :: rest
    else if k = k' then (k, v) :: rest
    else (k', v') :: insert k v rest

/-- The map that a list of members builds, one after the other. -/
def ofList (members : List (K × V)) : List (K × V) :=
  members.foldl (fun map member => insert member.1 member.2 map) []

def last? (k : K) : List (K × V) → Option V
  | [] => none
  | (k', v) :: rest => (last? k rest).or (if k' = k then some v else none)

def Sorted (map : List (K × V)) : Prop := map.Pairwise fun first second => first.1 < second.1

theorem mem_of_last? {k : K} {v : V} {members : List (K × V)} (found : last? k members = some v) :
    (k, v) ∈ members := by
  induction members with
  | nil => cases found
  | cons member rest ih =>
    obtain ⟨k', v'⟩ := member
    rw [last?, Option.or_eq_some_iff] at found
    rcases found with later | ⟨_, here⟩
    · exact List.mem_cons_of_mem _ (ih later)
    · split at here
      case isTrue same =>
        cases here
        rw [same]
        exact List.mem_cons_self
      case isFalse => cases here

theorem last?_eq_none {k : K} {members : List (K × V)}
    (missing : ∀ member ∈ members, member.1 ≠ k) : last? k members = none := by
  cases found : last? k members with
  | none => rfl
  | some v => exact absurd rfl (missing _ (mem_of_last? found))

theorem last?_append (k : K) (first second : List (K × V)) :
    last? k (first ++ second) = (last? k second).or (last? k first) := by
  induction first with
  | nil => simp [last?]
  | cons member rest ih =>
    rw [List.cons_append, last?, last?, ih, Option.or_assoc]

theorem last?_map {W : Type} (f : V → W) (k : K) (members : List (K × V)) :
    last? k (members.map fun member => (member.1, f member.2)) = (last? k members).map f := by
  induction members with
  | nil => rfl
  | cons member rest ih =>
    rw [List.map_cons, last?, last?, ih, Option.map_or]
    split <;> rfl

/-- What an insertion changes is its own key. -/
theorem last?_insert {map : List (K × V)} (sorted : Sorted map) (k : K) (v : V) (k' : K) :
    last? k' (insert k v map) = if k = k' then some v else last? k' map := by
  induction map with
  | nil => rfl
  | cons entry rest ih =>
    obtain ⟨k₀, v₀⟩ := entry
    obtain ⟨above, sortedRest⟩ := List.pairwise_cons.mp sorted
    unfold insert
    split
    case isTrue less =>
      by_cases same : k = k'
      · subst same
        have missing : last? k ((k₀, v₀) :: rest) = none := by
          refine last?_eq_none fun entry mem => ?_
          rcases List.mem_cons.mp mem with rfl | mem
          · exact less.ne'
          · exact (less.trans (above entry mem)).ne'
        rw [last?, missing]
        rfl
      · rw [last?, if_neg same, if_neg same, Option.or_none]
    case isFalse notLess =>
      split
      case isTrue same =>
        subst same
        by_cases here : k = k'
        · subst here
          rw [last?, last?_eq_none fun entry mem => (above entry mem).ne', if_pos rfl, if_pos rfl]
          rfl
        · rw [last?, last?, if_neg here, if_neg here, if_neg here]
      case isFalse apart =>
        rw [last?, ih sortedRest, last?]
        by_cases here : k = k'
        · rw [if_pos here, if_pos here]
          rfl
        · rw [if_neg here, if_neg here]

theorem mem_insert {k : K} {v : V} {map : List (K × V)} {entry : K × V}
    (mem : entry ∈ insert k v map) : entry = (k, v) ∨ entry ∈ map := by
  induction map with
  | nil => exact .inl (List.mem_singleton.mp mem)
  | cons head rest ih =>
    unfold insert at mem
    split at mem
    · exact List.mem_cons.mp mem
    · split at mem
      · rcases List.mem_cons.mp mem with here | later
        · exact .inl here
        · exact .inr (List.mem_cons_of_mem _ later)
      · rcases List.mem_cons.mp mem with rfl | later
        · exact .inr List.mem_cons_self
        · rcases ih later with here | old
          · exact .inl here
          · exact .inr (List.mem_cons_of_mem _ old)

theorem Sorted.insert {map : List (K × V)} (sorted : Sorted map) (k : K) (v : V) :
    Sorted (insert k v map) := by
  induction map with
  | nil => exact List.pairwise_singleton _ _
  | cons entry rest ih =>
    obtain ⟨above, sortedRest⟩ := List.pairwise_cons.mp sorted
    unfold Assoc.insert
    split
    case isTrue less =>
      refine List.pairwise_cons.mpr ⟨fun other mem => ?_, sorted⟩
      rcases List.mem_cons.mp mem with rfl | mem
      · exact less
      · exact less.trans (above other mem)
    case isFalse notLess =>
      split
      case isTrue same =>
        exact List.pairwise_cons.mpr ⟨fun other mem => same ▸ above other mem, sortedRest⟩
      case isFalse apart =>
        refine List.pairwise_cons.mpr ⟨fun other mem => ?_, ih sortedRest⟩
        rcases mem_insert mem with rfl | mem
        · exact lt_of_le_of_ne (not_lt.mp notLess) (Ne.symm apart)
        · exact above other mem

/-- Members inserted one by one: the order is kept, and the last of a key counts. -/
theorem foldl_insert (members : List (K × V)) {map : List (K × V)} (sorted : Sorted map) :
    Sorted (members.foldl (fun map member => Assoc.insert member.1 member.2 map) map) ∧
      ∀ k, last? k (members.foldl (fun map member => Assoc.insert member.1 member.2 map) map) =
        (last? k members).or (last? k map) := by
  induction members generalizing map with
  | nil => exact ⟨sorted, fun k => rfl⟩
  | cons member rest ih =>
    obtain ⟨sortedEnd, lookups⟩ := ih (sorted.insert member.1 member.2)
    refine ⟨sortedEnd, fun k => ?_⟩
    rw [List.foldl_cons, lookups, last?_insert sorted, last?, Option.or_assoc]
    congr 1
    split <;> rfl

theorem sorted_ofList (members : List (K × V)) : Sorted (ofList members) :=
  (foldl_insert members List.Pairwise.nil).1

/-- A map holds the last value of each key. -/
theorem last?_ofList (k : K) (members : List (K × V)) :
    last? k (ofList members) = last? k members := by
  rw [ofList, (foldl_insert members List.Pairwise.nil).2, last?, Option.or_none]

/-- In a sorted map the first entry is found under its key. -/
theorem last?_head {k : K} {v : V} {rest : List (K × V)} (sorted : Sorted ((k, v) :: rest)) :
    last? k ((k, v) :: rest) = some v := by
  have above := (List.pairwise_cons.mp sorted).1
  rw [last?, last?_eq_none fun entry mem => (above entry mem).ne', if_pos rfl]
  rfl

/-- Sorted maps with the same values are equal. -/
theorem ext {map map' : List (K × V)} (sorted : Sorted map) (sorted' : Sorted map')
    (same : ∀ k, last? k map = last? k map') : map = map' := by
  induction map generalizing map' with
  | nil =>
    cases map' with
    | nil => rfl
    | cons entry rest => cases (last?_head sorted').symm.trans (same entry.1).symm
  | cons entry rest ih =>
    cases map' with
    | nil => cases (last?_head sorted).symm.trans (same entry.1)
    | cons entry' rest' =>
      obtain ⟨k, v⟩ := entry
      obtain ⟨k', v'⟩ := entry'
      obtain ⟨above, sortedRest⟩ := List.pairwise_cons.mp sorted
      obtain ⟨above', sortedRest'⟩ := List.pairwise_cons.mp sorted'
      have found := mem_of_last? ((same k).symm.trans (last?_head sorted))
      have found' := mem_of_last? ((same k').trans (last?_head sorted'))
      -- each of the two least keys occurs in the other map, so they are equal
      have keys : k = k' := by
        rcases List.mem_cons.mp found with here | later
        · exact (Prod.mk.inj here).1
        · rcases List.mem_cons.mp found' with here' | later'
          · exact (Prod.mk.inj here').1.symm
          · exact absurd (above _ later') (above' _ later).asymm
      subst keys
      have values : some v = some v' :=
        (last?_head sorted).symm.trans ((same k).trans (last?_head sorted'))
      cases values
      refine congrArg _ (ih sortedRest sortedRest' fun key => ?_)
      by_cases here : k = key
      · subst here
        rw [last?_eq_none fun entry mem => (above entry mem).ne',
          last?_eq_none fun entry mem => (above' entry mem).ne']
      · have rests := same key
        rwa [last?, last?, if_neg here, Option.or_none, Option.or_none] at rests

end Assoc

/-! ### Canonical values -/

mutual

/-- Decode into maps and write the maps in order. -/
def canon : Tree → Tree
  | .array items => .array (canonItems items)
  | .object members => .object (Assoc.ofList (canonMembers members))
  | t => t

def canonItems : List Tree → List Tree
  | [] => []
  | item :: rest => canon item :: canonItems rest

def canonMembers : List Member → List Member
  | [] => []
  | (key, value) :: rest => (key, canon value) :: canonMembers rest

end

theorem canonMembers_eq (members : List Member) :
    canonMembers members = members.map fun member => (member.1, canon member.2) := by
  induction members with
  | nil => rfl
  | cons member rest ih => rw [canonMembers, ih, List.map_cons]

/-- Objects with the same last member for every key, up to the canonical form of
its value, have one canonical form. -/
theorem canon_object_iff {members members' : List Member} :
    canon (.object members) = canon (.object members') ↔
      ∀ k, (Assoc.last? k members).map canon = (Assoc.last? k members').map canon := by
  have entries : ∀ (ms : List Member) (k : List Char),
      Assoc.last? k (Assoc.ofList (canonMembers ms)) = (Assoc.last? k ms).map canon := by
    intro ms k
    rw [Assoc.last?_ofList, canonMembers_eq, Assoc.last?_map]
  rw [canon, canon, Tree.object.injEq]
  constructor
  · intro same k
    rw [← entries, ← entries, same]
  · intro same
    refine Assoc.ext (Assoc.sorted_ofList _) (Assoc.sorted_ofList _) fun k => ?_
    rw [entries, entries, same]

/-! ### What the canonical form forgets -/

/-- Equal values when, at every depth, only the last of several members with one key
counts and the order of the members does not. -/
inductive Same : Tree → Tree → Prop where
  | null : Same .null .null
  | bool (b : Bool) : Same (.bool b) (.bool b)
  | number (n : Literal) : Same (.number n) (.number n)
  | string (text : List Char) : Same (.string text) (.string text)
  | array {items items' : List Tree} (each : List.Forall₂ Same items items') :
      Same (.array items) (.array items')
  | object {members members' : List Member}
      (lasts : ∀ k, Option.Rel Same (Assoc.last? k members) (Assoc.last? k members')) :
      Same (.object members) (.object members')

mutual

/-- Two values have one canonical form when they mean the same. -/
theorem canon_eq_iff_same (t u : Tree) : canon t = canon u ↔ Same t u := by
  match t with
  | .null =>
    cases u with
    | null => exact iff_of_true rfl .null
    | _ => exact iff_of_false (by simp [canon]) nofun
  | .bool b =>
    cases u with
    | bool b' =>
      constructor
      · intro same
        obtain rfl : b = b' := by simpa [canon] using same
        exact .bool b
      · rintro ⟨⟩
        rfl
    | _ => exact iff_of_false (by simp [canon]) nofun
  | .number n =>
    cases u with
    | number n' =>
      constructor
      · intro same
        obtain rfl : n = n' := by simpa [canon] using same
        exact .number n
      · rintro ⟨⟩
        rfl
    | _ => exact iff_of_false (by simp [canon]) nofun
  | .string text =>
    cases u with
    | string text' =>
      constructor
      · intro same
        obtain rfl : text = text' := by simpa [canon] using same
        exact .string text
      · rintro ⟨⟩
        rfl
    | _ => exact iff_of_false (by simp [canon]) nofun
  | .array items =>
    cases u with
    | array items' =>
      rw [canon, canon, Tree.array.injEq, canonItems_eq_iff_same items items']
      constructor
      · exact .array
      · rintro ⟨⟩
        assumption
    | _ => exact iff_of_false (by simp [canon]) nofun
  | .object members =>
    cases u with
    | object members' =>
      rw [canon_object_iff]
      have lasts : ∀ k, (Assoc.last? k members).map canon = (Assoc.last? k members').map canon ↔
          Option.Rel Same (Assoc.last? k members) (Assoc.last? k members') := by
        intro k
        cases found : Assoc.last? k members with
        | none =>
          cases Assoc.last? k members' with
          | none => exact iff_of_true rfl .none
          | some value' => exact iff_of_false nofun nofun
        | some value =>
          have values := canonMembers_eq_iff_same members _ (Assoc.mem_of_last? found)
          cases Assoc.last? k members' with
          | none => exact iff_of_false nofun nofun
          | some value' =>
            rw [Option.map_some, Option.map_some, Option.some.injEq, values value']
            exact Option.rel_some_some.symm
      rw [forall_congr' lasts]
      constructor
      · exact .object
      · rintro ⟨⟩
        assumption
    | _ => exact iff_of_false (by simp [canon]) nofun

theorem canonItems_eq_iff_same (items items' : List Tree) :
    canonItems items = canonItems items' ↔ List.Forall₂ Same items items' := by
  match items, items' with
  | [], [] => exact iff_of_true rfl .nil
  | [], _ :: _ => exact iff_of_false nofun nofun
  | _ :: _, [] => exact iff_of_false nofun nofun
  | item :: items, item' :: items' =>
    rw [canonItems, canonItems, List.cons.injEq, canon_eq_iff_same item item',
      canonItems_eq_iff_same items items', List.forall₂_cons]

theorem canonMembers_eq_iff_same (members : List Member) :
    ∀ member ∈ members, ∀ u, canon member.2 = canon u ↔ Same member.2 u := by
  match members with
  | [] =>
    intro member mem
    cases mem
  | (key, value) :: rest =>
    intro member mem u
    rcases List.mem_cons.mp mem with rfl | mem
    · exact canon_eq_iff_same value u
    · exact canonMembers_eq_iff_same rest member mem u

end

end Json
