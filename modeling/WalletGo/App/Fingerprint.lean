import WalletGo.Errors

/-!
`app.Fingerprint`: the hash of the canonical form of a request body.

The hash function is a parameter. `canonical` is what it is applied to: the body
decoded into maps, with the text of its numbers kept, and marshalled again.
-/

namespace WalletGo

/-- `encoding/json` refuses deeper values. -/
def maxNestingDepth : Nat := 10000

/-- The decoder's first `Decode`: the value and the text after it. -/
def decodeFirst (body : List UInt8) : Option (Json.Tree × List Char) :=
  Json.parse maxNestingDepth (Json.decodeUtf8 body)

/-- `Decoder.More`: the next character that is not a space ends no array or object. -/
def more (rest : List Char) : Bool :=
  match rest.dropWhile Json.isSpace with
  | [] => false
  | c :: _ => c != ']' && c != '\x7d'

def canonical (body : List UInt8) : Except GoError (List UInt8) :=
  match decodeFirst body with
  | none => .error (.wrap "app: fingerprint" (.json .malformed))
  | some (value, rest) =>
    if more rest then .error (.other "app: fingerprint: trailing data after JSON body")
    else .ok (Json.encodeUtf8 (Json.canon value).print)

/-- `hex.EncodeToString(sum[:])` -/
def hexDigest (sha256 : List UInt8 → List UInt8) (bytes : List UInt8) : String :=
  String.ofList (Json.hexEncode (sha256 bytes))

def fingerprint (sha256 : List UInt8 → List UInt8) (body : List UInt8) : Except GoError String :=
  (canonical body).map (hexDigest sha256)

variable {sha256 : List UInt8 → List UInt8} {body : List UInt8}

/-- The digest in hexadecimal tells inputs apart where the hash does. -/
theorem hexDigest_injective (injective : Function.Injective sha256) :
    Function.Injective (hexDigest sha256) := by
  intro first second same
  exact injective (Json.hexEncode_injective (String.ofList_injective same))

def valueFingerprint (sha256 : List UInt8 → List UInt8) (value : Json.Tree) : String :=
  hexDigest sha256 (Json.encodeUtf8 (Json.canon value).print)

/-- The body is one value and nothing that `More` reports. -/
def Denotes (body : List UInt8) (value : Json.Tree) : Prop :=
  ∃ rest, decodeFirst body = some (value, rest) ∧ more rest = false

/-- A fingerprint is made of bodies that denote a value, and of that value. -/
theorem fingerprint_eq_ok_iff {print : String} :
    fingerprint sha256 body = .ok print ↔
      ∃ value, Denotes body value ∧ valueFingerprint sha256 value = print := by
  unfold fingerprint canonical Denotes
  cases decoded : decodeFirst body with
  | none => simp [Except.map]
  | some outcome =>
    obtain ⟨value, rest⟩ := outcome
    cases trailing : more rest with
    | true => simp [Except.map, trailing]
    | false => simp [Except.map, trailing, valueFingerprint]

variable (sha256) in
theorem Denotes.fingerprint {value : Json.Tree} (denotes : Denotes body value) :
    fingerprint sha256 body = .ok (valueFingerprint sha256 value) :=
  fingerprint_eq_ok_iff.mpr ⟨value, denotes, rfl⟩

theorem Denotes.unique {value value' : Json.Tree} (first : Denotes body value)
    (second : Denotes body value') : value = value' := by
  obtain ⟨rest, decoded, _⟩ := first
  obtain ⟨rest', decoded', _⟩ := second
  exact (Prod.mk.inj (Option.some.inj (decoded.symm.trans decoded'))).1

/-- Equal fingerprints are those of equal canonical forms. -/
theorem valueFingerprint_eq_iff (injective : Function.Injective sha256) {value value' : Json.Tree} :
    valueFingerprint sha256 value = valueFingerprint sha256 value' ↔
      Json.canon value = Json.canon value' := by
  constructor
  · intro same
    exact Json.print_injective (Json.encodeUtf8_injective (hexDigest_injective injective same))
  · intro same
    rw [valueFingerprint, valueFingerprint, same]

/-- The marshalled text of a value is a body that denotes it. -/
theorem denotes_print {value : Json.Tree} (shallow : value.depth ≤ maxNestingDepth) :
    Denotes (Json.encodeUtf8 value.print) value := by
  refine ⟨[], ?_, rfl⟩
  rw [decodeFirst, Json.decodeUtf8_encodeUtf8, Json.parse_print value shallow]

end WalletGo
