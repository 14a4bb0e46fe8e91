import WalletGo.Postgres.Statements

/-!
The methods of `lockingTx` and `serializableTx`, as programs over the
statements of `WalletGo.Postgres.Statements`.

A pipelined batch is run by the server in the order sent: a statement that finds
no row does not stop it, a statement that fails does, and every later read of
the batch then yields the same error (`sendReadBatch`). The two `Execute` bodies
of the source differ in the order of the ids, in `FOR UPDATE` and in the texts
they wrap errors with; `executeWith` is what they share.
-/

namespace WalletGo

open Txn (Prog)

/-- A method of `app.TransferTx`: a program that may return an error. -/
abbrev DbM := ExceptT GoError (Prog sql)

/-- Which executor `NewTransferExecutor` built. -/
inductive Strategy where
  | locking
  | serializable
deriving DecidableEq, Repr

/-- `fmt.Errorf(text + ": %w", err)` around whatever `reply` failed with. -/
def wrapError {β : Type} (text : String) : Except GoError β → Except GoError β
  | .ok value => .ok value
  | .error err => .error (.wrap text err)

def send {β : Type} (text : String) (statement : Prog sql (Except GoError β)) : DbM β :=
  ExceptT.mk (statement.bind fun reply => .ret (wrapError text reply))

def newUUID : DbM UUID :=
  ExceptT.mk (.op .newUUID fun id => .ret (.ok id))

/-- `lockingTx.ClaimKey` -/
def claimKey (key : IdempotencyKey) (fingerprint : String) : DbM Bool := do
  let rowsAffected ← send "postgres: claim idempotency key" (.op (.claimKey key fingerprint) .ret)
  return rowsAffected == 1

/-- `lockingTx.LoadKey`: the `COALESCE`s read NULL columns as zero values. -/
def loadKey (key : IdempotencyKey) : DbM StoredKey := do
  match ← send "postgres: load idempotency key" (.op (.loadKey key) .ret) with
  | none => throw (.wrap "postgres: load idempotency key" .noRows)
  | some row =>
    return {
      fingerprint := row.fingerprint
      state := row.state
      transferID := row.transferID.getD UUID.zero
      response := ⟨row.statusCode.getD 0, row.responseBody⟩ }

/-- `lockingTx.CompleteKey` -/
def completeKey (key : IdempotencyKey) (transferID : UUID) (resp : StoredResponse) : DbM Unit := do
  let rowsAffected ← send "postgres: complete idempotency key"
    (.op (.completeKey key resp.statusCode resp.body transferID) .ret)
  if rowsAffected ≠ 1 then
    throw (.other ("postgres: complete idempotency key: " ++ toString rowsAffected ++
      " rows updated, want 1"))

/-- `lockingTx.AppendEvent`: the event id is generated inside the call. -/
def appendEvent (eventType : String) (payload : EventPayload) : DbM Unit := do
  let eventID ← newUUID
  send "postgres: append event" (.op (.insertEvent eventID eventType payload) .ret)

/-- The results of the batch of two account reads and the balance. -/
structure ReadReplies where
  first : Except GoError (Option AccountKind)
  second : Except GoError (Option AccountKind)
  balance : Except GoError Int

/-- The pipelined batch of the two account reads and the balance read. -/
def sendReadBatch (forUpdate : Bool) (ids : UUID × UUID) (source : UUID) : Prog sql ReadReplies :=
  .op (.selectKind ids.1 forUpdate) fun
    | .error err => .ret ⟨.error err, .error err, .error err⟩
    | .ok first => .op (.selectKind ids.2 forUpdate) fun
      | .error err => .ret ⟨.ok first, .error err, .error err⟩
      | .ok second => .op (.sumEntries source) fun balance => .ret ⟨.ok first, .ok second, balance⟩

/-- `QueryRow().Scan(&kind)` and the handling of its error. -/
def scanKind (text : String) : Except GoError (Option AccountKind) → Except GoError AccountKind
  | .ok (some kind) => .ok kind
  | .ok none => .error .errAccountNotFound
  | .error err => .error (if err.is .noRows then .errAccountNotFound else .wrap text err)

/-- `QueryRow().Scan(&balance)` into an int64: a sum out of range is an error. -/
def scanInt64 (text : String) : Except GoError Int → Except GoError Int64
  | .ok n => if Int64Range n then .ok (Int64.ofInt n) else .error (.wrap text (.scanRange n))
  | .error err => .error (.wrap text err)

/-- Reading the results of the batch in order: the two kinds, of which the
source's is kept, and the balance. -/
def scanReplies (accountText : String) (ids : UUID × UUID) (source : UUID) (replies : ReadReplies) :
    Except GoError (AccountKind × Int64) := do
  let first ← scanKind accountText replies.first
  let second ← scanKind accountText replies.second
  let balance ← scanInt64 "postgres: read source balance" replies.balance
  return (if source = ids.2 then second else first, balance)

/-- The pipelined batch of the transfer row and its two entries. -/
def sendInsertBatch (req : TransferRequest) : DbM Unit := do
  send "postgres: insert transfer"
    (.op (.insertTransfer req.id req.fromAccountID req.toAccountID req.amount.cents) .ret)
  send "postgres: insert debit entry"
    (.op (.insertEntry req.id req.fromAccountID (-req.amount.cents)) .ret)
  send "postgres: insert credit entry"
    (.op (.insertEntry req.id req.toAccountID req.amount.cents) .ret)

/-- What the two `Execute` bodies share. `ids` is the order in which the accounts
are read. -/
def executeWith (forUpdate : Bool) (ids : UUID × UUID) (accountText batchText : String)
    (req : TransferRequest) : DbM Unit := do
  let replies ← ExceptT.lift (sendReadBatch forUpdate ids req.fromAccountID)
  let (kind, balance) ← ExceptT.mk (.ret (scanReplies accountText ids req.fromAccountID replies))
  send batchText (.op .closeBatch .ret)
  match canDebit (newMoney balance) req.amount kind with
  | some err => throw err
  | none => sendInsertBatch req

/-- `lockingTx.Execute` -/
def lockingExecute (req : TransferRequest) : DbM Unit :=
  executeWith true (lockOrder req.fromAccountID req.toAccountID) "postgres: lock account"
    "postgres: lock/balance batch" req

/-- `serializableTx.Execute` -/
def serializableExecute (req : TransferRequest) : DbM Unit :=
  executeWith false (req.fromAccountID, req.toAccountID) "postgres: read account"
    "postgres: read batch" req

/-- `tx.Execute`, dispatched on the executor's transaction type. -/
def execute : Strategy → TransferRequest → DbM Unit
  | .locking => lockingExecute
  | .serializable => serializableExecute

/-- `isSerializationFailure`: only these two SQLSTATEs are retried. -/
def isSerializationFailure (err : GoError) : Bool :=
  match err.asPgError with
  | some (code, _) => code == "40001" || code == "40P01"
  | none => false

def defaultMaxAttempts : Nat := 10

end WalletGo
