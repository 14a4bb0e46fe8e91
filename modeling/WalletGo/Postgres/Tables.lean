import WalletGo.App.Model

/-!
The five tables (`migrations/`), as lists of rows in the order they became
visible, and the writes a transaction can make to them.

A transaction keeps the writes it has made as a list. What it sees is those
writes applied to committed rows (`Db.after`), and committing is applying the
same list to the committed rows of that moment. Nothing ever deletes a row, and
the only update is the one that completes an idempotency key.
-/

namespace WalletGo

/-- Server time, in arbitrary units. -/
abbrev Time := Nat

structure TransferRow where
  id : UUID
  fromAccountID : UUID
  toAccountID : UUID
  amountCents : Int64
  status : String
deriving DecidableEq, Repr

structure EntryRow where
  /-- `BIGSERIAL` -/
  id : Nat
  transferID : UUID
  accountID : UUID
  amountCents : Int64
deriving DecidableEq, Repr

structure KeyRow where
  key : IdempotencyKey
  fingerprint : String
  state : KeyState
  statusCode : Option Int
  responseBody : Option ResponseBody
  transferID : Option UUID
deriving DecidableEq, Repr

structure OutboxRow where
  eventID : UUID
  eventType : String
  payload : EventPayload
  createdAt : Time
  publishedAt : Option Time
  attempts : Nat
  nextAttemptAt : Time
deriving DecidableEq, Repr

structure Db where
  accounts : List Account
  transfers : List TransferRow
  entries : List EntryRow
  keys : List KeyRow
  outbox : List OutboxRow
deriving DecidableEq, Repr

def Db.empty : Db := ⟨[], [], [], [], []⟩

namespace Db

/-- `SELECT kind FROM accounts WHERE id = $1` -/
def kindOf (db : Db) (id : UUID) : Option AccountKind :=
  (db.accounts.find? fun a => a.id == id).map (·.kind)

/-- `SELECT … FROM idempotency_keys WHERE scope = $1 AND endpoint = $2 AND key = $3` -/
def keyRow (db : Db) (key : IdempotencyKey) : Option KeyRow :=
  db.keys.find? fun row => row.key == key

def sumOf (entries : List EntryRow) (id : UUID) : Int :=
  ((entries.filter fun e => e.accountID == id).map fun e => e.amountCents.toInt).sum

/-- `SELECT COALESCE(SUM(amount_cents), 0) FROM entries WHERE account_id = $1`:
a `SUM` over `BIGINT` is an exact numeric. -/
def sum (db : Db) (id : UUID) : Int := sumOf db.entries id

end Db

inductive Write where
  | insertKey (row : KeyRow)
  | completeKey (key : IdempotencyKey) (statusCode : Int) (body : Option ResponseBody)
      (transferID : UUID)
  | insertTransfer (row : TransferRow)
  | insertEntry (row : EntryRow)
  | insertEvent (row : OutboxRow)
deriving DecidableEq, Repr

/-- `SET state = 'completed', status_code = $4, response_body = $5, transfer_id = $6` -/
def KeyRow.complete (row : KeyRow) (statusCode : Int) (body : Option ResponseBody)
    (transferID : UUID) : KeyRow :=
  { row with
    state := .completed
    statusCode := some statusCode
    responseBody := body
    transferID := some transferID }

namespace Db

def write (db : Db) : Write → Db
  | .insertKey row => { db with keys := db.keys ++ [row] }
  | .completeKey key status body transferID =>
      { db with keys := db.keys.map fun row =>
          if row.key = key then row.complete status body transferID else row }
  | .insertTransfer row => { db with transfers := db.transfers ++ [row] }
  | .insertEntry row => { db with entries := db.entries ++ [row] }
  | .insertEvent row => { db with outbox := db.outbox ++ [row] }

def after (db : Db) (writes : List Write) : Db := writes.foldl Db.write db

@[simp] theorem after_nil (db : Db) : db.after [] = db := rfl

@[simp] theorem after_cons (db : Db) (w : Write) (rest : List Write) :
    db.after (w :: rest) = (db.write w).after rest := rfl

end Db

end WalletGo
