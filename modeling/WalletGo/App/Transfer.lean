import WalletGo.Postgres.Executor

/-!
`TransferService.Transfer` and the cash operations built on it.

`transferBody` is the closure that an executor runs, once per attempt. It writes
the captured variable `result`, which outlives a failed attempt; hence the state
of `Closure`. `validate` is what `Transfer` checks before it opens a transaction.
-/

namespace WalletGo

open Txn (Prog)

def statusTransferCreated : Int := 201

/-- A closure over the variable `result`. -/
abbrev Closure := ExceptT GoError (StateT TransferResult (Prog sql))

/-- Run a method and hand its error, if any, to the closure. -/
def Closure.attempt {α : Type} (method : DbM α) : Closure (Except GoError α) :=
  ExceptT.lift (StateT.lift method.run)

/-- Run a method and return its error, if any. -/
def Closure.call {α : Type} (method : DbM α) : Closure α :=
  ExceptT.mk (StateT.lift method.run)

def replay (cmd : TransferCommand) : DbM TransferResult := do
  let stored ← loadKey cmd.key
  if stored.fingerprint ≠ cmd.fingerprint then
    throw .errIdempotencyKeyReuse
  if stored.state ≠ .completed then
    throw .errRequestInFlight
  return ⟨stored.transferID, stored.response, true⟩

/-- The branch of the closure for a key that was taken: `result, err = replay(…)`. -/
def replayPart (cmd : TransferCommand) : Closure Unit := do
  match ← Closure.attempt (replay cmd) with
  | .ok replayed => set replayed
  | .error err =>
    set TransferResult.empty
    throw err

def executePart (x : Strategy) (cmd : TransferCommand) (amount : Money) : Closure Unit := do
  let id ← Closure.call newUUID
  let req : TransferRequest := ⟨id, cmd.fromAccountID, cmd.toAccountID, amount⟩
  Closure.call (execute x req)
  Closure.call (send "app: encode event payload" (.op .marshal .ret))
  let eventBody : EventPayload := ⟨req.id, req.fromAccountID, req.toAccountID, req.amount.cents⟩
  Closure.call (appendEvent "transfer.completed" eventBody)
  Closure.call (send "app: encode response" (.op .marshal .ret))
  let resp : StoredResponse := ⟨statusTransferCreated, some ⟨req.id⟩⟩
  Closure.call (completeKey cmd.key req.id resp)
  set (⟨req.id, resp, false⟩ : TransferResult)

def transferBody (x : Strategy) (cmd : TransferCommand) (amount : Money) : Closure Unit := do
  set TransferResult.empty
  let claimed ← Closure.call (claimKey cmd.key cmd.fingerprint)
  if !claimed then
    replayPart cmd
  else
    executePart x cmd amount

/-- The closure as a program: from the value `result` has when it is called to
the error it returns and the value it leaves. -/
def transferProg (x : Strategy) (cmd : TransferCommand) (amount : Money) (result : TransferResult) :
    Prog sql (Except GoError Unit × TransferResult) :=
  (transferBody x cmd amount).run.run result

/-- The checks of `Transfer` that precede the transaction. -/
def validate (cmd : TransferCommand) : Except GoError Money := do
  let amount ← newTransferAmount cmd.amountCents
  if cmd.fromAccountID = cmd.toAccountID then
    throw .errSameAccount
  return amount

/-- `CashService.Deposit`, as the transfer it asks for. -/
def depositCommand (systemAccountID : UUID) (cmd : CashCommand) : TransferCommand :=
  ⟨cmd.key, cmd.fingerprint, systemAccountID, cmd.accountID, cmd.amountCents⟩

/-- `CashService.Withdraw`, as the transfer it asks for. -/
def withdrawCommand (systemAccountID : UUID) (cmd : CashCommand) : TransferCommand :=
  ⟨cmd.key, cmd.fingerprint, cmd.accountID, systemAccountID, cmd.amountCents⟩

end WalletGo
