import WalletGo.App.Fingerprint
import WalletGo.App.Model

/-!
From an HTTP request to a command (`internal/adapters/http`).

`decodeStrict` and `Fingerprint` read the same bytes: the first into the request
struct, the second into maps. What the handlers make of a body is `readTransfer`
and `readAmount`.
-/

namespace WalletGo

/-! ### `google/uuid` -/

/-- What the adapter relies on in `google/uuid`. -/
structure UUIDText where
  /-- `uuid.Parse` -/
  parse : List Char → Option UUID
  /-- `UUID.String` -/
  format : UUID → String
  parse_format : ∀ id, parse (format id).toList = some id

def parseHexPairs : List UInt8 → Option (List UInt8)
  | [] => some []
  | [_] => none
  | high :: low :: rest => do
    let h ← Json.hexValue (Char.ofNat high.toNat)
    let l ← Json.hexValue (Char.ofNat low.toNat)
    return UInt8.ofNat (h * 16 + l) :: (← parseHexPairs rest)

namespace UUID

def ofHex (digits : List UInt8) : Option UUID :=
  (parseHexPairs digits).bind fun bytes => if h : bytes.length = 16 then some ⟨bytes, h⟩ else none

/-- The form `xxxxxxxx-xxxx-xxxx-xxxx-xxxxxxxxxxxx`; what follows it is not looked at. -/
def ofDashed (s : List UInt8) : Option UUID :=
  let dash := Char.toUInt8 '-'
  if s[8]? = some dash ∧ s[13]? = some dash ∧ s[18]? = some dash ∧ s[23]? = some dash then
    ofHex (s.take 8 ++ (s.drop 9).take 4 ++ (s.drop 14).take 4 ++ (s.drop 19).take 4 ++
      (s.drop 24).take 12)
  else none

/-- Braces are taken by the length alone. -/
def parse (text : List Char) : Option UUID :=
  let s := Json.encodeUtf8 text
  match s.length with
  | 36 => ofDashed s
  | 45 =>
    if Json.foldName ((s.take 9).map fun b => Char.ofNat b.toNat) = "URN:UUID:".toList then
      ofDashed (s.drop 9)
    else none
  | 38 => ofDashed (s.drop 1)
  | 32 => ofHex s
  | _ => none

def format (id : UUID) : String :=
  let hex := Json.hexEncode id.bytes
  String.ofList (hex.take 8 ++ '-' :: (hex.drop 8).take 4 ++ '-' :: (hex.drop 12).take 4 ++
    '-' :: (hex.drop 16).take 4 ++ '-' :: hex.drop 20)

/-- Pairs of digits are read as the bytes they were written for. -/
theorem parseHexPairs_hexEncode (bytes : List UInt8) :
    parseHexPairs ((Json.hexEncode bytes).map fun c => UInt8.ofNat c.toNat) = some bytes := by
  have digit :
      ∀ n < 16, Json.hexValue (Char.ofNat (UInt8.ofNat (Json.hexDigit n).toNat).toNat) =
      some n := by
    decide
  induction bytes with
  | nil => rfl
  | cons b rest ih =>
    have high := digit (b.toNat / 16) (by have := b.toNat_lt; omega)
    have low := digit (b.toNat % 16) (by omega)
    have same : UInt8.ofNat (b.toNat / 16 * 16 + b.toNat % 16) = b := by
      rw [Nat.div_add_mod']
      exact UInt8.ofNat_toNat
    rw [Json.hexEncode] at ih ⊢
    simp only [List.flatMap_cons, List.cons_append, List.nil_append, List.map_cons, parseHexPairs,
      high, low, ih, Option.bind_eq_bind, Option.bind_some, same]
    rfl

/-- The dashes are left out. -/
theorem ofDashed_eq {a b c d e : List UInt8} (ha : a.length = 8) (hb : b.length = 4)
    (hc : c.length = 4) (hd : d.length = 4) (he : e.length = 12) :
    let dash := Char.toUInt8 '-'
    ofDashed (a ++ dash :: b ++ dash :: c ++ dash :: d ++ dash :: e) =
    ofHex (a ++ b ++ c ++ d ++ e) := by
  simp [ofDashed, List.drop_append, List.drop_eq_nil_of_le, List.take_of_length_le, ha,
    hb, hc, hd, he]

theorem format_ascii {id : UUID} {c : Char} (mem : c ∈ id.format.toList) : c.toNat < 128 := by
  have spelled : c ∈ Json.hexEncode id.bytes ∨ c = '-' := by
    simp only [format, String.toList_ofList, List.mem_append, List.mem_cons] at mem
    rcases mem with (((mem | mem | mem) | mem | mem) | mem | mem) | mem | mem
    all_goals first
      | exact .inr mem
      | exact .inl (List.mem_of_mem_take mem)
      | exact .inl (List.mem_of_mem_drop (List.mem_of_mem_take mem))
      | exact .inl (List.mem_of_mem_drop mem)
  rcases spelled with digit | rfl
  · exact Json.hexEncode_ascii digit
  · decide

/-- An identifier is read back from its text. -/
theorem parse_format (id : UUID) : parse id.format.toList = some id := by
  obtain ⟨digits, eq⟩ :
    ∃ digits, (Json.hexEncode id.bytes).map (fun c => UInt8.ofNat c.toNat) = digits := ⟨_, rfl⟩
  have length : digits.length = 32 := by
    rw [← eq, List.length_map, Json.length_hexEncode, id.length_eq]
  have spelled : Json.encodeUtf8 id.format.toList = digits.take 8 ++
      Char.toUInt8 '-' :: (digits.drop 8).take 4 ++
      Char.toUInt8 '-' :: (digits.drop 12).take 4 ++ Char.toUInt8 '-' :: (digits.drop 16).take 4 ++
      Char.toUInt8 '-' :: digits.drop 20 := by
    rw [Json.encodeUtf8_ascii fun c mem => format_ascii mem, format, String.toList_ofList, ← eq]
    simp only [List.map_append, List.map_cons, List.map_take, List.map_drop]
    rfl
  have long : (Json.encodeUtf8 id.format.toList).length = 36 := by
    rw [spelled]
    simp [length]
  have whole : digits.take 8 ++ (digits.drop 8).take 4 ++ (digits.drop 12).take 4 ++
      (digits.drop 16).take 4 ++
      digits.drop 20 = digits := by
    have piece : ∀ n k, (digits.drop n).take k ++ digits.drop (n + k) = digits.drop n := by
      intro n k
      rw [← List.drop_drop, List.take_append_drop]
    rw [List.append_assoc, piece 16 4, List.append_assoc, piece 12 4, List.append_assoc, piece 8 4]
    exact List.take_append_drop 8 digits
  simp only [parse, long]
  rw [spelled, ofDashed_eq (by simp [length]) (by simp [length]) (by simp [length])
    (by simp [length]) (by simp [length]), whole, ofHex, ← eq, parseHexPairs_hexEncode]
  exact dif_pos id.length_eq

end UUID

/-- `google/uuid` as it is. -/
def UUIDText.google : UUIDText := ⟨UUID.parse, UUID.format, UUID.parse_format⟩

/-! ### Request bodies -/

def decodeStrict {σ : Type} (fields : List (Json.StructField σ)) (zero : σ) (body : List UInt8) :
    Except GoError σ :=
  match decodeFirst body with
  | none => .error (.badRequestFrom "invalid JSON body: " (.json .malformed))
  | some (value, rest) =>
    match Json.decodeStruct fields zero value with
    | .error err => .error (.badRequestFrom "invalid JSON body: " (.json err))
    | .ok req =>
      if more rest then .error (.badRequest "invalid JSON body: unexpected trailing data")
      else .ok req

def stringField {σ : Type} (name : String) (set : List Char → σ → σ) : Json.StructField σ :=
  ⟨name.toList, List Char, Json.readString, set, rfl, Json.scalar_of_readString⟩

def int64Field {σ : Type} (name : String) (set : Int64 → σ → σ) : Json.StructField σ :=
  ⟨name.toList, Int64, Json.readInt64, set, rfl, Json.scalar_of_readInt64⟩

/-- `transferRequest` -/
structure TransferRequestBody where
  fromAccountID : List Char
  toAccountID : List Char
  amountCents : Int64
deriving DecidableEq

namespace TransferRequestBody

def zero : TransferRequestBody := ⟨[], [], 0⟩

def fromField : Json.StructField TransferRequestBody :=
  stringField "from_account_id" fun v req => { req with fromAccountID := v }

def toField : Json.StructField TransferRequestBody :=
  stringField "to_account_id" fun v req => { req with toAccountID := v }

def amountField : Json.StructField TransferRequestBody :=
  int64Field "amount_cents" fun v req => { req with amountCents := v }

def fields : List (Json.StructField TransferRequestBody) := [fromField, toField, amountField]

end TransferRequestBody

/-- `amountRequest` -/
structure AmountRequestBody where
  amountCents : Int64
deriving DecidableEq

namespace AmountRequestBody

def zero : AmountRequestBody := ⟨0⟩

def amountField : Json.StructField AmountRequestBody :=
  int64Field "amount_cents" fun v _ => ⟨v⟩

def fields : List (Json.StructField AmountRequestBody) := [amountField]

end AmountRequestBody

structure TransferInput where
  fromAccountID : UUID
  toAccountID : UUID
  amountCents : Int64
  fingerprint : String
deriving DecidableEq

structure AmountInput where
  amountCents : Int64
  fingerprint : String
deriving DecidableEq

def parseID (uuids : UUIDText) (text : List Char) (message : String) : Except GoError UUID :=
  match uuids.parse text with
  | some id => .ok id
  | none => .error (.badRequest message)

/-- `app.Fingerprint` as the handlers report its errors. -/
def bodyFingerprint (sha256 : List UInt8 → List UInt8) (body : List UInt8) :
    Except GoError String :=
  match fingerprint sha256 body with
  | .ok print => .ok print
  | .error err => .error (.badRequestFrom "" err)

/-- `Handler.transfer`, from the body on to the fingerprint. -/
def readTransfer (uuids : UUIDText) (sha256 : List UInt8 → List UInt8) (body : List UInt8) :
    Except GoError TransferInput := do
  let req ← decodeStrict TransferRequestBody.fields TransferRequestBody.zero body
  let source ← parseID uuids req.fromAccountID "from_account_id must be a valid UUID"
  let target ← parseID uuids req.toAccountID "to_account_id must be a valid UUID"
  let print ← bodyFingerprint sha256 body
  return ⟨source, target, req.amountCents, print⟩

/-- `Handler.cashOp`, from the body on to the fingerprint. -/
def readAmount (sha256 : List UInt8 → List UInt8) (body : List UInt8) :
    Except GoError AmountInput := do
  let req ← decodeStrict AmountRequestBody.fields AmountRequestBody.zero body
  let print ← bodyFingerprint sha256 body
  return ⟨req.amountCents, print⟩

/-! ### Commands -/

def maxBodyBytes : Nat := 2 ^ 20

def maxKeyLength : Nat := 255

def readBody (body : List UInt8) : Except GoError (List UInt8) :=
  if body.length ≤ maxBodyBytes then .ok body
  else .error (.badRequest "could not read request body (max 1 MiB)")

/-- `Handler.idempotencyKey`; a missing header is the empty string. -/
def idempotencyKey (scope header endpoint : String) : Except GoError IdempotencyKey :=
  if header = "" then .error (.badRequest "Idempotency-Key header is required")
  else if header.utf8ByteSize > maxKeyLength then
    .error (.badRequest "Idempotency-Key must be at most 255 characters")
  else .ok ⟨scope, endpoint, header⟩

def handleTransfer (uuids : UUIDText) (sha256 : List UInt8 → List UInt8) (scope header : String)
    (body : List UInt8) : Except GoError TransferCommand := do
  let body ← readBody body
  let input ← readTransfer uuids sha256 body
  let key ← idempotencyKey scope header "POST /transfers"
  return ⟨key, input.fingerprint, input.fromAccountID, input.toAccountID, input.amountCents⟩

/-- The command `Handler.cashOp` runs; `op` is `deposits` or `withdrawals`. -/
def handleCashOp (uuids : UUIDText) (sha256 : List UInt8 → List UInt8) (scope header op : String)
    (id : List Char) (body : List UInt8) : Except GoError CashCommand := do
  let accountID ← parseID uuids id "account id must be a valid UUID"
  let body ← readBody body
  let input ← readAmount sha256 body
  let key ← idempotencyKey scope header ("POST /accounts/" ++ uuids.format accountID ++ "/" ++ op)
  return ⟨key, input.fingerprint, accountID, input.amountCents⟩

end WalletGo
