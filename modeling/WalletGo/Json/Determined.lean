import WalletGo.Json.Struct

/-!
What an object's canonical form says about the struct it decodes into.

The two decoders read the same members by different rules: maps keep the last
member of each key, a struct field takes the last non-null member of all keys that
match it. The map determines the field exactly when the field is `Settled`:
no key that matches it has `null` as its last value, and all of them have last
values that mean the same.
-/

namespace Json

namespace Assoc

variable {K V : Type} [LinearOrder K]

theorem exists_last? {k : K} {v : V} {members : List (K × V)} (mem : (k, v) ∈ members) :
    ∃ v', last? k members = some v' := by
  rw [← Option.isSome_iff_exists]
  induction members with
  | nil => cases mem
  | cons member rest ih =>
    rw [last?, Option.isSome_or]
    rcases List.mem_cons.mp mem with rfl | later
    · simp
    · simp [ih later]

/-- Repeating a last member changes no last member. -/
theorem last?_append_last {key : K} {value : V} {members : List (K × V)}
    (last : last? key members = some value) (k : K) :
    last? k (members ++ [(key, value)]) = last? k members := by
  rw [last?_append, last?, last?]
  by_cases same : key = k
  · subst same
    rw [if_pos rfl, last]
    rfl
  · rw [if_neg same]
    rfl

/-- So does a member in front of it with the same key. -/
theorem last?_append_overridden {key : K} {value : V} {members : List (K × V)}
    (last : last? key members = some value) (other : V) (k : K) :
    last? k (members ++ [(key, other), (key, value)]) = last? k members := by
  rw [List.append_cons, last?_append, last?, last?, last?_append, last?, last?]
  by_cases same : key = k
  · subst same
    rw [if_pos rfl, last]
    rfl
  · rw [if_neg same, if_neg same]
    rfl

end Assoc

variable {σ γ : Type} {fields : List (StructField σ)} {f : StructField σ}

/-- All last values of keys that match the field mean the same, and none of them
is `null`. `interp` is what the values stand for, for those that stand for
something. -/
def Settled (f : StructField σ) (interp : f.Value → Option γ) (members : List Member) : Prop :=
  ∀ key value, f.Matches key → Assoc.last? key members = some value →
    value ≠ .null ∧ ∀ key' value', f.Matches key' → Assoc.last? key' members = some value' →
      ∀ w w', (f.read value).bind interp = some w → (f.read value').bind interp = some w' → w = w'

variable {get : σ → f.Value} {interp : f.Value → Option γ} {members members' : List Member}

/-- A field that no member sets is set by no member of an object that means the same. -/
theorem matches_of_same (same : ∀ k, Assoc.last? k members = Assoc.last? k members')
    (misses : ∀ member ∈ members, ¬ f.Matches member.1) :
    ∀ member ∈ members', ¬ f.Matches member.1 := by
  rintro ⟨key, value⟩ mem hits
  obtain ⟨last, found⟩ := Assoc.exists_last? mem
  exact misses _ (Assoc.mem_of_last? ((same key).trans found)) hits

/-- The last values of keys that match a settled field can be read. -/
theorem Settled.readable (settled : Settled f interp members) (observes : f.Observes fields get)
    (storable : ∀ member ∈ members, Storable fields member) {key : List Char} {value : Tree}
    (hits : f.Matches key) (last : Assoc.last? key members = some value) :
    ∃ x, f.read value = some x := by
  obtain ⟨notNull, _⟩ := settled key value hits last
  exact (observes.readable (storable _ (Assoc.mem_of_last? last)) hits).resolve_left notNull

/-- Members that make the same map give a settled field the same meaning. -/
theorem Settled.determines (settled : Settled f interp members) (observes : f.Observes fields get)
    (storable : ∀ member ∈ members, Storable fields member)
    (same : ∀ k, Assoc.last? k members = Assoc.last? k members') {v : f.Value} {w w' : γ}
    (here : interp (members.foldl f.assign v) = some w)
    (there : interp (members'.foldl f.assign v) = some w') : w = w' := by
  rcases StructField.last_matching (f := f) members with misses | ⟨key, value, hits, last, assigned⟩
  · rw [StructField.foldl_assign_of_not_matches v misses] at here
    rw [StructField.foldl_assign_of_not_matches v (matches_of_same same misses), here] at there
    exact Option.some.inj there
  · rcases StructField.last_matching (f := f) members' with
      misses' | ⟨key', value', hits', last', assigned'⟩
    · have back := matches_of_same (fun k => (same k).symm) misses'
      exact absurd hits (back _ (Assoc.mem_of_last? last))
    · rw [← same] at last'
      obtain ⟨x, read⟩ := settled.readable observes storable hits last
      obtain ⟨x', read'⟩ := settled.readable observes storable hits' last'
      rw [assigned v, read, Option.getD_some] at here
      rw [assigned' v, read', Option.getD_some] at there
      refine (settled key value hits last).2 key' value' hits' last' w w' ?_ ?_
      · rw [read]
        exact here
      · rw [read']
        exact there

/-- Members that make the same map can give a field that is not settled another
meaning: a member with a null value can be preceded by one with any value, and of
two keys with different values either can come last. -/
theorem exists_other_of_not_settled (unsettled : ¬ Settled f interp members)
    (observes : f.Observes fields get) (storable : ∀ member ∈ members, Storable fields member)
    (spare : ∀ w, ∃ t x w', f.read t = some x ∧ interp x = some w' ∧ w ≠ w') (v : f.Value) (w : γ) :
    ∃ extra w', (∀ member ∈ extra, f.Matches member.1 ∧ Storable fields member) ∧
      (∀ k, Assoc.last? k (members ++ extra) = Assoc.last? k members) ∧
      interp ((members ++ extra).foldl f.assign v) = some w' ∧ w ≠ w' := by
  -- one more member with a last value that means something other than `w`
  have repeats : ∀ key value w', f.Matches key → Assoc.last? key members = some value →
      (f.read value).bind interp = some w' → w ≠ w' →
      ∃ extra w', (∀ member ∈ extra, f.Matches member.1 ∧ Storable fields member) ∧
        (∀ k, Assoc.last? k (members ++ extra) = Assoc.last? k members) ∧
        interp ((members ++ extra).foldl f.assign v) = some w' ∧ w ≠ w' := by
    intro key value w' hits last means apart
    obtain ⟨x, read, interpreted⟩ := Option.bind_eq_some_iff.mp means
    refine ⟨[(key, value)], w', ?_, Assoc.last?_append_last last, ?_, apart⟩
    · intro member mem
      rw [List.mem_singleton.mp mem]
      exact ⟨hits, storable _ (Assoc.mem_of_last? last)⟩
    · rw [List.foldl_append, List.foldl_cons, List.foldl_nil, StructField.assign, if_pos hits, read]
      exact interpreted
  simp only [Settled, not_forall] at unsettled
  obtain ⟨key, value, hits, last, broken⟩ := unsettled
  by_cases null : value = .null
  · subst null
    obtain ⟨t, x, w', read, interpreted, apart⟩ := spare w
    refine ⟨[(key, t), (key, .null)], w', ?_, Assoc.last?_append_overridden last t, ?_, apart⟩
    · intro member mem
      simp only [List.mem_cons, List.not_mem_nil, or_false] at mem
      rcases mem with rfl | rfl
      · exact ⟨hits, observes.storable hits (.inr ⟨x, read⟩)⟩
      · exact ⟨hits, observes.storable hits (.inl rfl)⟩
    · simp only [List.foldl_append, List.foldl_cons, List.foldl_nil, StructField.assign,
        if_pos hits, read, f.read_null, Option.getD_some, Option.getD_none]
      exact interpreted
  · simp only [not_and, not_forall] at broken
    obtain ⟨key', value', hits', last', w₁, w₂, means, means', apart⟩ := broken null
    by_cases first : w = w₁
    · exact repeats key' value' w₂ hits' last' means' (first ▸ apart)
    · exact repeats key value w₁ hits last means first

/-! ### Bodies with one canonical form -/

theorem last?_map_canon (storable : ∀ member ∈ members, Storable fields member) (k : List Char) :
    (Assoc.last? k members).map canon = Assoc.last? k members := by
  cases found : Assoc.last? k members with
  | none => rfl
  | some value =>
    have scalar := (storable _ (Assoc.mem_of_last? found)).scalar
    rw [Option.map_some, scalar.canon]

/-- Values that decode into the struct and have one canonical form have the same
last members. -/
theorem last?_eq_of_canon {s t t' : σ} {value value' : Tree}
    (decoded : decodeStruct fields s value = .ok t)
    (decoded' : decodeStruct fields s value' = .ok t') (same : canon value = canon value')
    (k : List Char) : Assoc.last? k value.members = Assoc.last? k value'.members := by
  obtain ⟨kind, stored⟩ := decodeStruct_eq_ok_iff.mp decoded
  obtain ⟨kind', stored'⟩ := decodeStruct_eq_ok_iff.mp decoded'
  rcases kind with null | object
  · rcases kind' with null' | object'
    · rw [null, null']
    · rw [null, object'] at same
      simp [canon] at same
  · rcases kind' with null' | object'
    · rw [object, null'] at same
      simp [canon] at same
    · rw [object, object', canon_object_iff] at same
      have lasts := same k
      rwa [last?_map_canon (storeMembers_ok_iff.mp ⟨t, stored⟩),
        last?_map_canon (storeMembers_ok_iff.mp ⟨t', stored'⟩)] at lasts

/-- Only the members of an object can leave a field unsettled. -/
theorem object_of_not_settled {value : Tree} (unsettled : ¬ Settled f interp value.members) :
    value = .object value.members := by
  cases value with
  | object => rfl
  | null | bool | number | string | array =>
    refine absurd ?_ unsettled
    intro key value hits last
    cases last

theorem membersDepth_of_scalar (scalar : ∀ member ∈ members, member.2.IsScalar) :
    membersDepth members = 0 := by
  induction members with
  | nil => rfl
  | cons member rest ih =>
    obtain ⟨key, value⟩ := member
    have head : value.depth = 0 := (scalar _ List.mem_cons_self).depth
    rw [membersDepth, head, ih fun other mem => scalar other (List.mem_cons_of_mem _ mem)]
    rfl

end Json
