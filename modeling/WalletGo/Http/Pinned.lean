import WalletGo.Http.Body
import WalletGo.Json.Determined

/-!
What a fingerprint says about the request it was taken from.

`Fingerprint` sees a body as maps and the handler sees it as a struct. A body with
`"amount_cents"` and `"AMOUNT_CENTS"` in either order has one fingerprint and two
amounts. `fingerprint_pins_request_iff`: a fingerprint determines the request
exactly when the body settles each field of it.
-/

namespace WalletGo

open Json (StructField Member Tree Settled Storable)

/-! ### Accepted bodies -/

section Accepted

variable {σ : Type} {fields : List (StructField σ)} {zero req : σ} {body : List UInt8}

theorem decodeStrict_eq_ok_iff :
    decodeStrict fields zero body = .ok req ↔
      ∃ value, Denotes body value ∧ Json.decodeStruct fields zero value = .ok req := by
  unfold decodeStrict Denotes
  cases decoded : decodeFirst body with
  | none => simp
  | some outcome =>
    obtain ⟨value, rest⟩ := outcome
    cases stored : Json.decodeStruct fields zero value with
    | error err => simp [stored]
    | ok req' =>
      cases trailing : more rest with
      | true => simp [stored, trailing]
      | false => simp [stored, trailing]

theorem parseID_eq_ok_iff {uuids : UUIDText} {text : List Char} {message : String} {id : UUID} :
    parseID uuids text message = .ok id ↔ uuids.parse text = some id := by
  unfold parseID
  cases uuids.parse text with
  | none => simp
  | some other => simp

variable {sha256 : List UInt8 → List UInt8}

theorem bodyFingerprint_eq_ok_iff {print : String} :
    bodyFingerprint sha256 body = .ok print ↔
      ∃ value, Denotes body value ∧ valueFingerprint sha256 value = print := by
  rw [← fingerprint_eq_ok_iff]
  unfold bodyFingerprint
  cases fingerprint sha256 body with
  | error err => simp
  | ok other => simp

theorem Except.bind_eq_ok_iff {ε α β : Type} {x : Except ε α} {next : α → Except ε β} {b : β} :
    (x >>= next) = .ok b ↔ ∃ a, x = .ok a ∧ next a = .ok b := by
  cases x with
  | error err => simp [bind, Except.bind]
  | ok a => simp [bind, Except.bind]

/-- What `Handler.transfer` accepts. -/
theorem readTransfer_eq_ok_iff {uuids : UUIDText} {input : TransferInput} :
    readTransfer uuids sha256 body = .ok input ↔ ∃ value req, Denotes body value ∧
      Json.decodeStruct TransferRequestBody.fields TransferRequestBody.zero value = .ok req ∧
      uuids.parse req.fromAccountID = some input.fromAccountID ∧
      uuids.parse req.toAccountID = some input.toAccountID ∧
      req.amountCents = input.amountCents ∧
      valueFingerprint sha256 value = input.fingerprint := by
  unfold readTransfer
  simp only [Except.bind_eq_ok_iff, decodeStrict_eq_ok_iff, parseID_eq_ok_iff,
    bodyFingerprint_eq_ok_iff, pure, Except.pure, Except.ok.injEq]
  constructor
  · rintro ⟨req, ⟨value, denotes, decoded⟩, source, parsed, target, parsed', print,
      ⟨value', denotes', hash⟩, rfl⟩
    obtain rfl := denotes.unique denotes'
    exact ⟨value, req, denotes, decoded, parsed, parsed', rfl, hash⟩
  · rintro ⟨value, req, denotes, decoded, parsed, parsed', amount, hash⟩
    refine ⟨req, ⟨value, denotes, decoded⟩, _, parsed, _, parsed', _, ⟨value, denotes, hash⟩, ?_⟩
    rw [amount]

/-- What `Handler.cashOp` accepts. -/
theorem readAmount_eq_ok_iff {input : AmountInput} :
    readAmount sha256 body = .ok input ↔ ∃ value req, Denotes body value ∧
      Json.decodeStruct AmountRequestBody.fields AmountRequestBody.zero value = .ok req ∧
      req.amountCents = input.amountCents ∧
      valueFingerprint sha256 value = input.fingerprint := by
  unfold readAmount
  simp only [Except.bind_eq_ok_iff, decodeStrict_eq_ok_iff, bodyFingerprint_eq_ok_iff, pure,
    Except.pure, Except.ok.injEq]
  constructor
  · rintro ⟨req, ⟨value, denotes, decoded⟩, print, ⟨value', denotes', hash⟩, rfl⟩
    obtain rfl := denotes.unique denotes'
    exact ⟨value, req, denotes, decoded, rfl, hash⟩
  · rintro ⟨value, req, denotes, decoded, amount, hash⟩
    refine ⟨req, ⟨value, denotes, decoded⟩, _, ⟨value, denotes, hash⟩, ?_⟩
    rw [amount]

/-! ### Bodies with the same fingerprint -/

def bodyMembers (body : List UInt8) : List Member :=
  match decodeFirst body with
  | some (value, _) => value.members
  | none => []

theorem Denotes.members {value : Tree} (denotes : Denotes body value) :
    bodyMembers body = value.members := by
  obtain ⟨rest, decoded, _⟩ := denotes
  rw [bodyMembers, decoded]

variable (sha256) in
/-- More members that change no last member make another body with the same
fingerprint, and the struct holds what they assign. -/
theorem exists_extended {value : Tree} (decoded : Json.decodeStruct fields zero value = .ok req)
    (object : value = .object value.members) {extra : List Member}
    (storable : ∀ member ∈ extra, Storable fields member)
    (same : ∀ k, Json.Assoc.last? k (value.members ++ extra) = Json.Assoc.last? k value.members) :
    ∃ body' value' req', Denotes body' value' ∧ Json.decodeStruct fields zero value' = .ok req' ∧
      valueFingerprint sha256 value' = valueFingerprint sha256 value ∧
      ∀ (f : StructField σ) (get : σ → f.Value), f.Observes fields get →
        get req' = extra.foldl f.assign (get req) := by
  obtain ⟨_, stored⟩ := Json.decodeStruct_eq_ok_iff.mp decoded
  have all : ∀ member ∈ value.members ++ extra, Storable fields member := by
    intro member mem
    rcases List.mem_append.mp mem with mem | mem
    · exact Json.storeMembers_ok_iff.mp ⟨req, stored⟩ member mem
    · exact storable member mem
  obtain ⟨req', stored'⟩ :
      ∃ req', Json.storeMembers fields (value.members ++ extra) zero = .ok req' :=
    Json.storeMembers_ok_iff.mpr all
  have shallow : (Tree.object (value.members ++ extra)).depth ≤ maxNestingDepth := by
    rw [Tree.depth, Json.membersDepth_of_scalar fun member mem => (all member mem).scalar]
    decide
  refine ⟨_, _, req', denotes_print shallow, stored', ?_, ?_⟩
  · have canon : Json.canon (.object (value.members ++ extra)) = Json.canon value := by
      rw [object, Json.canon_object_iff]
      intro k
      rw [← object, same]
    rw [valueFingerprint, valueFingerprint, canon]
  · intro f get observes
    rw [observes.get_storeMembers stored', observes.get_storeMembers stored, List.foldl_append]

/-- Bodies that denote `value` and one that has the same fingerprint, decodes too
and differs at most in the field `f`, agree on what `f` means. -/
def PinsField (sha256 : List UInt8 → List UInt8) (fields : List (StructField σ)) (zero : σ)
    (f : StructField σ) {γ : Type} (interp : f.Value → Option γ) (get : σ → f.Value) (value : Tree)
    (req : σ) : Prop :=
  ∀ body' value' req' w w', Denotes body' value' → Json.decodeStruct fields zero value' = .ok req' →
    valueFingerprint sha256 value' = valueFingerprint sha256 value →
    (∀ (g : StructField σ) (getG : σ → g.Value), g.Observes fields getG →
      Json.foldName f.name ≠ Json.foldName g.name → getG req' = getG req) →
    interp (get req) = some w → interp (get req') = some w' → w = w'

variable (sha256) in
/-- A field that is pinned is settled by its own members. -/
theorem PinsField.settled {f : StructField σ} {γ : Type} {interp : f.Value → Option γ}
    {get : σ → f.Value} {value : Tree} (pins : PinsField sha256 fields zero f interp get value req)
    (observes : f.Observes fields get)
    (spare : ∀ w, ∃ t x w', f.read t = some x ∧ interp x = some w' ∧ w ≠ w')
    (decoded : Json.decodeStruct fields zero value = .ok req) {w : γ}
    (means : interp (get req) = some w) : Settled f interp value.members := by
  by_contra unsettled
  obtain ⟨_, stored⟩ := Json.decodeStruct_eq_ok_iff.mp decoded
  obtain ⟨extra, w', hits, same, meansOther, apart⟩ :=
    Json.exists_other_of_not_settled unsettled observes (Json.storeMembers_ok_iff.mp ⟨req, stored⟩)
      spare (get zero) w
  obtain ⟨body', value', req', denotes, decoded', print, assigned⟩ :=
    exists_extended sha256 decoded (Json.object_of_not_settled unsettled)
      (fun member mem => (hits member mem).2) same
  have others : ∀ (g : StructField σ) (getG : σ → g.Value), g.Observes fields getG →
      Json.foldName f.name ≠ Json.foldName g.name → getG req' = getG req := by
    intro g getG observesG names
    rw [assigned g getG observesG]
    refine StructField.foldl_assign_of_not_matches _ ?_
    intro member mem hitsG
    exact names ((hits member mem).1.symm.trans hitsG)
  refine apart (pins body' value' req' w w' denotes decoded' print others means ?_)
  rw [assigned f get observes, observes.get_storeMembers stored, ← List.foldl_append]
  exact meansOther

/-- A settled field means the same in every body with the fingerprint. -/
theorem settled_agrees {f : StructField σ} {γ : Type} {interp : f.Value → Option γ}
    {get : σ → f.Value} {value value' : Tree} {req' : σ} (settled : Settled f interp value.members)
    (observes : f.Observes fields get) (injective : Function.Injective sha256)
    (decoded : Json.decodeStruct fields zero value = .ok req)
    (decoded' : Json.decodeStruct fields zero value' = .ok req')
    (print : valueFingerprint sha256 value' = valueFingerprint sha256 value) {w w' : γ}
    (means : interp (get req) = some w) (means' : interp (get req') = some w') : w' = w := by
  obtain ⟨_, stored⟩ := Json.decodeStruct_eq_ok_iff.mp decoded
  obtain ⟨_, stored'⟩ := Json.decodeStruct_eq_ok_iff.mp decoded'
  have canon := (valueFingerprint_eq_iff injective).mp print
  rw [observes.get_storeMembers stored] at means
  rw [observes.get_storeMembers stored'] at means'
  exact (settled.determines observes (Json.storeMembers_ok_iff.mp ⟨req, stored⟩)
    (Json.last?_eq_of_canon decoded decoded' canon.symm) means means').symm

end Accepted

/-! ### The two requests -/

namespace TransferRequestBody

theorem from_apart_to : Json.foldName fromField.name ≠ Json.foldName toField.name := by decide

theorem from_apart_amount : Json.foldName fromField.name ≠ Json.foldName amountField.name := by
  decide

theorem to_apart_amount : Json.foldName toField.name ≠ Json.foldName amountField.name := by decide

theorem mem_fields {g : StructField TransferRequestBody} (mem : g ∈ fields) :
    g = fromField ∨ g = toField ∨ g = amountField := by
  simpa only [fields, List.mem_cons, List.not_mem_nil, or_false] using mem

theorem observes_from : fromField.Observes fields (·.fromAccountID) := by
  refine ⟨by simp [fields], fun _ _ => rfl, ?_⟩
  intro g mem
  rcases mem_fields mem with rfl | rfl | rfl
  · exact .inl rfl
  · exact .inr ⟨from_apart_to.symm, fun _ _ => rfl⟩
  · exact .inr ⟨from_apart_amount.symm, fun _ _ => rfl⟩

theorem observes_to : toField.Observes fields (·.toAccountID) := by
  refine ⟨by simp [fields], fun _ _ => rfl, ?_⟩
  intro g mem
  rcases mem_fields mem with rfl | rfl | rfl
  · exact .inr ⟨from_apart_to, fun _ _ => rfl⟩
  · exact .inl rfl
  · exact .inr ⟨to_apart_amount.symm, fun _ _ => rfl⟩

theorem observes_amount : amountField.Observes fields (·.amountCents) := by
  refine ⟨by simp [fields], fun _ _ => rfl, ?_⟩
  intro g mem
  rcases mem_fields mem with rfl | rfl | rfl
  · exact .inr ⟨from_apart_amount, fun _ _ => rfl⟩
  · exact .inr ⟨to_apart_amount, fun _ _ => rfl⟩
  · exact .inl rfl

end TransferRequestBody

theorem AmountRequestBody.observes_amount : amountField.Observes fields (·.amountCents) := by
  refine ⟨by simp [fields], fun _ _ => rfl, ?_⟩
  intro g mem
  exact .inl (List.mem_singleton.mp mem)

/-- There is another account than any given one. -/
theorem spare_id (uuids : UUIDText) (w : UUID) :
    ∃ t x w', Json.readString t = some x ∧ uuids.parse x = some w' ∧ w ≠ w' := by
  by_cases first : w = UUID.zero
  · exact ⟨.string _, _, _, rfl, uuids.parse_format (.ofByte 1), first ▸ by decide⟩
  · exact ⟨.string _, _, _, rfl, uuids.parse_format .zero, first⟩

/-- There is another amount than any given one. -/
theorem spare_amount (w : Int64) :
    ∃ t x w', Json.readInt64 t = some x ∧ some x = some w' ∧ w ≠ w' := by
  by_cases first : w = 0
  · exact ⟨.number ⟨['1'], rfl⟩, 1, 1, by decide, rfl, first ▸ by decide⟩
  · exact ⟨.number ⟨['0'], rfl⟩, 0, 0, by decide, rfl, first⟩

/-- Each field of a transfer is settled by the members of the body. -/
def SettlesTransfer (uuids : UUIDText) (body : List UInt8) : Prop :=
  Settled TransferRequestBody.fromField uuids.parse (bodyMembers body) ∧
    Settled TransferRequestBody.toField uuids.parse (bodyMembers body) ∧
    Settled TransferRequestBody.amountField some (bodyMembers body)

def SettlesAmount (body : List UInt8) : Prop :=
  Settled AmountRequestBody.amountField some (bodyMembers body)

open TransferRequestBody in
/-- What the fingerprint pins, field by field. -/
theorem settlesTransfer_iff_pinned {uuids : UUIDText} {sha256 : List UInt8 → List UInt8}
    (injective : Function.Injective sha256) {body : List UInt8} {input : TransferInput}
    (accepted : readTransfer uuids sha256 body = .ok input) :
    (∀ body' input', readTransfer uuids sha256 body' = .ok input' →
      input'.fingerprint = input.fingerprint → input' = input) ↔ SettlesTransfer uuids body := by
  obtain ⟨value, req, denotes, decoded, source, target, amount, print⟩ :=
    readTransfer_eq_ok_iff.mp accepted
  rw [SettlesTransfer, denotes.members]
  constructor
  · intro pinned
    -- a body with another meaning of one field would be accepted as well
    refine ⟨?_, ?_, ?_⟩
    · refine PinsField.settled sha256 ?_ observes_from (spare_id uuids) decoded source
      intro body' value' req' w w' denotes' decoded' same others means means'
      have to' := others _ _ observes_to from_apart_to
      have amount' := others _ _ observes_amount from_apart_amount
      have equal := pinned body' ⟨w', input.toAccountID, input.amountCents, input.fingerprint⟩
        (readTransfer_eq_ok_iff.mpr ⟨value', req', denotes', decoded', means', to'.symm ▸ target,
          amount'.trans amount, same.trans print⟩) rfl
      have source' : some w = some input.fromAccountID := means.symm.trans source
      rw [← equal] at source'
      exact Option.some.inj source'
    · refine PinsField.settled sha256 ?_ observes_to (spare_id uuids) decoded target
      intro body' value' req' w w' denotes' decoded' same others means means'
      have from' := others _ _ observes_from from_apart_to.symm
      have amount' := others _ _ observes_amount to_apart_amount
      have equal := pinned body' ⟨input.fromAccountID, w', input.amountCents, input.fingerprint⟩
        (readTransfer_eq_ok_iff.mpr ⟨value', req', denotes', decoded', from'.symm ▸ source, means',
          amount'.trans amount, same.trans print⟩) rfl
      have target' : some w = some input.toAccountID := means.symm.trans target
      rw [← equal] at target'
      exact Option.some.inj target'
    · refine PinsField.settled sha256 ?_ observes_amount spare_amount decoded rfl
      intro body' value' req' w w' denotes' decoded' same others means means'
      have from' := others _ _ observes_from from_apart_amount.symm
      have to' := others _ _ observes_to to_apart_amount.symm
      have equal :=
        pinned body' ⟨input.fromAccountID, input.toAccountID, req'.amountCents, input.fingerprint⟩
        (readTransfer_eq_ok_iff.mpr ⟨value', req', denotes', decoded', from'.symm ▸ source,
          to'.symm ▸ target, rfl, same.trans print⟩) rfl
      have amounts : req'.amountCents = input.amountCents :=
        congrArg TransferInput.amountCents equal
      have here : req.amountCents = w := Option.some.inj means
      have there : req'.amountCents = w' := Option.some.inj means'
      exact here.symm.trans (amount.trans (amounts.symm.trans there))
  · rintro ⟨settledFrom, settledTo, settledAmount⟩ body' input' accepted' same
    obtain ⟨value', req', _, decoded', source', target', amount', print'⟩ :=
      readTransfer_eq_ok_iff.mp accepted'
    have prints : valueFingerprint sha256 value' = valueFingerprint sha256 value := by
      rw [print', print, same]
    have from_eq := settled_agrees settledFrom observes_from injective decoded
      decoded' prints source source'
    have to_eq := settled_agrees settledTo observes_to injective decoded decoded'
      prints target target'
    have amount_eq := settled_agrees settledAmount observes_amount injective decoded
      decoded' prints (congrArg some amount) (congrArg some amount')
    cases input
    cases input'
    simp only at from_eq to_eq amount_eq same
    rw [from_eq, to_eq, amount_eq, same]

/-- What the fingerprint pins of the other requests: the amount. -/
theorem settlesAmount_iff_pinned {sha256 : List UInt8 → List UInt8}
    (injective : Function.Injective sha256) {body : List UInt8} {input : AmountInput}
    (accepted : readAmount sha256 body = .ok input) :
    (∀ body' input', readAmount sha256 body' = .ok input' →
      input'.fingerprint = input.fingerprint → input' = input) ↔ SettlesAmount body := by
  obtain ⟨value, req, denotes, decoded, amount, print⟩ := readAmount_eq_ok_iff.mp accepted
  rw [SettlesAmount, denotes.members]
  constructor
  · intro pinned
    refine PinsField.settled sha256 ?_ AmountRequestBody.observes_amount spare_amount decoded rfl
    intro body' value' req' w w' denotes' decoded' same others means means'
    have equal := pinned body' ⟨req'.amountCents, input.fingerprint⟩
      (readAmount_eq_ok_iff.mpr ⟨value', req', denotes', decoded', rfl, same.trans print⟩) rfl
    have amounts : req'.amountCents = input.amountCents := congrArg AmountInput.amountCents equal
    have here : req.amountCents = w := Option.some.inj means
    have there : req'.amountCents = w' := Option.some.inj means'
    exact here.symm.trans (amount.trans (amounts.symm.trans there))
  · intro settled body' input' accepted' same
    obtain ⟨value', req', _, decoded', amount', print'⟩ := readAmount_eq_ok_iff.mp accepted'
    have prints : valueFingerprint sha256 value' = valueFingerprint sha256 value := by
      rw [print', print, same]
    have amount_eq := settled_agrees settled AmountRequestBody.observes_amount injective decoded
      decoded' prints (congrArg some amount) (congrArg some amount')
    cases input
    cases input'
    simp only at amount_eq same
    rw [amount_eq, same]

/-- The fingerprint of an accepted body determines the request exactly when no
key that matches a field of it has `null` as its last value, and the last values
of all keys that match the field mean the same account or amount. -/
theorem fingerprint_pins_request_iff (uuids : UUIDText) {sha256 : List UInt8 → List UInt8}
    (injective : Function.Injective sha256) :
    (∀ body input, readTransfer uuids sha256 body = .ok input →
      ((∀ body' input', readTransfer uuids sha256 body' = .ok input' →
        input'.fingerprint = input.fingerprint → input' = input) ↔ SettlesTransfer uuids body)) ∧
    (∀ body input, readAmount sha256 body = .ok input →
      ((∀ body' input', readAmount sha256 body' = .ok input' →
        input'.fingerprint = input.fingerprint → input' = input) ↔ SettlesAmount body)) := by
  constructor
  · intro body input accepted
    exact settlesTransfer_iff_pinned injective accepted
  · intro body input accepted
    exact settlesAmount_iff_pinned injective accepted

namespace TwoAmounts

def ids : List Member :=
  [("from_account_id".toList, .string "00000000-0000-0000-0000-000000000001".toList),
    ("to_account_id".toList, .string "00000000-0000-0000-0000-000000000002".toList)]

def lower : Member := ("amount_cents".toList, .number ⟨['1', '0', '0'], rfl⟩)

def upper : Member := ("AMOUNT_CENTS".toList, .number ⟨['2', '0', '0'], rfl⟩)

def bodyOf (members : List Member) : List UInt8 := Json.encodeUtf8 (Tree.object members).print

theorem denotes_bodyOf {members : List Member} (shallow : (Tree.object members).depth ≤ 1) :
    Denotes (bodyOf members) (.object members) :=
  denotes_print (shallow.trans (by decide))

/-- How a printed object is read, when its members can be decoded. -/
theorem readTransfer_bodyOf (sha256 : List UInt8 → List UInt8) (members : List Member)
    (amount : Int64) (shallow : (Tree.object members).depth ≤ 1)
    (decoded : Json.decodeStruct TransferRequestBody.fields TransferRequestBody.zero
      (.object members) = .ok ⟨"00000000-0000-0000-0000-000000000001".toList,
        "00000000-0000-0000-0000-000000000002".toList, amount⟩) :
    readTransfer .google sha256 (bodyOf members) =
      .ok ⟨.ofByte 1, .ofByte 2, amount, valueFingerprint sha256 (.object members)⟩ := by
  have source :
      UUIDText.google.parse "00000000-0000-0000-0000-000000000001".toList = some (.ofByte 1) := by
    decide +kernel
  have target :
      UUIDText.google.parse "00000000-0000-0000-0000-000000000002".toList = some (.ofByte 2) := by
    decide +kernel
  exact readTransfer_eq_ok_iff.mpr ⟨_, _, denotes_bodyOf shallow, decoded, source, target, rfl, rfl⟩

end TwoAmounts

open TwoAmounts in
/-- A plain body: its fingerprint pins what it asks for. -/
theorem fingerprint_pins_request_iff_plain :
    ∃ input, readTransfer .google id (bodyOf (ids ++ [lower])) = .ok input ∧
      input.amountCents = 100 ∧ ((∀ body' input', readTransfer .google id body' = .ok input' →
          input'.fingerprint = input.fingerprint → input' = input) ↔
        SettlesTransfer .google (bodyOf (ids ++ [lower]))) := by
  have accepted :=
    readTransfer_bodyOf id (ids ++ [lower]) 100 (by decide +kernel) (by decide +kernel)
  exact ⟨_, accepted, rfl, (fingerprint_pins_request_iff .google Function.injective_id).1 _ _
    accepted⟩

open TwoAmounts in
/-- With the two spellings of the amount in one order and in the other, the
fingerprint is the same and the amount is not. -/
theorem same_fingerprint_other_amount :
    ∃ first second, readTransfer .google id (bodyOf (ids ++ [lower, upper])) = .ok first ∧
      readTransfer .google id (bodyOf (ids ++ [upper, lower])) = .ok second ∧
      first.fingerprint = second.fingerprint ∧ first.amountCents = 200 ∧
        second.amountCents = 100 := by
  have canonical : (Json.canon (.object (ids ++ [lower, upper]))).print =
      (Json.canon (.object (ids ++ [upper, lower]))).print := by decide +kernel
  have first :=
    readTransfer_bodyOf id (ids ++ [lower, upper]) 200 (by decide +kernel) (by decide +kernel)
  have second :=
    readTransfer_bodyOf id (ids ++ [upper, lower]) 100 (by decide +kernel) (by decide +kernel)
  have prints : valueFingerprint id (.object (ids ++ [lower, upper])) =
      valueFingerprint id (.object (ids ++ [upper, lower])) := by
    rw [valueFingerprint, valueFingerprint, canonical]
  exact ⟨_, _, first, second, prints, rfl, rfl⟩

end WalletGo
