import WalletGo.Domain
import WalletGo.UUID

/-!
The data the use cases exchange (`internal/app/model.go`).

A JSON body is kept as the document it encodes: the stored response of a
transfer is the one-member object `{"transfer_id": id}`, the event payload an
object with four members. `none` is the empty body a NULL `response_body` is
read as. Timestamps are left out except in the outbox, where they decide what
the relay delivers.
-/

namespace WalletGo

/-- `app.IdempotencyKey`: scoped, never global. -/
structure IdempotencyKey where
  scope : String
  endpoint : String
  key : String
deriving DecidableEq, Repr

inductive KeyState where
  | inFlight
  | completed
deriving DecidableEq, Repr

structure ResponseBody where
  transferID : UUID
deriving DecidableEq, Repr

/-- The payload document of a `transfer.completed` event. -/
structure EventPayload where
  transferID : UUID
  fromAccountID : UUID
  toAccountID : UUID
  amountCents : Int64
deriving DecidableEq, Repr

structure StoredResponse where
  statusCode : Int
  body : Option ResponseBody
deriving DecidableEq, Repr

structure StoredKey where
  fingerprint : String
  state : KeyState
  transferID : UUID
  response : StoredResponse
deriving DecidableEq, Repr

structure TransferRequest where
  id : UUID
  fromAccountID : UUID
  toAccountID : UUID
  amount : Money
deriving DecidableEq, Repr

structure TransferCommand where
  key : IdempotencyKey
  fingerprint : String
  fromAccountID : UUID
  toAccountID : UUID
  amountCents : Int64
deriving DecidableEq, Repr

structure TransferResult where
  transferID : UUID
  response : StoredResponse
  replayed : Bool
deriving DecidableEq, Repr

def TransferResult.empty : TransferResult := ⟨UUID.zero, ⟨0, none⟩, false⟩

instance : Inhabited TransferResult := ⟨.empty⟩

structure CashCommand where
  key : IdempotencyKey
  fingerprint : String
  accountID : UUID
  amountCents : Int64
deriving DecidableEq, Repr

structure Account where
  id : UUID
  ownerID : String
  kind : AccountKind
  currency : String
deriving DecidableEq, Repr

end WalletGo
