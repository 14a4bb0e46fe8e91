import WalletGo.App.Transfer

/-!
The two executors' `InTx`, for a call that has the database to itself while an
attempt runs.

What the environment does to one attempt is an `Attempt`: whether `Begin` fails,
what each operation meets, how the commit ends and whether the context is done
during the backoff that may follow. `alone` answers the operations of a
transaction from the committed rows and its own writes; with nobody else about,
both isolation levels see the same.
-/

namespace WalletGo

open Txn (Prog)

/-- What an executor runs: from the captured variable to the error returned and
the variable's new value. -/
abbrev Fn := TransferResult → Prog sql (Except GoError Unit × TransferResult)

/-- How a commit ends: acknowledged; refused, with nothing written; or applied
while the acknowledgement is lost. -/
inductive CommitOutcome where
  | acknowledged
  | failed (err : GoError)
  | lost (err : GoError)
deriving DecidableEq, Repr

/-- What the environment decides about one attempt. -/
structure Attempt where
  beginFault : Option GoError
  choice : Nat → Choice
  commit : CommitOutcome
  cancelled : Option GoError

/-- The answer to the `n`-th operation of a transaction that runs alone. -/
def alone (db : Db) (choice : Nat → Choice) (n : Nat) (writes : List Write) (o : Op) :
    o.Reply × List Write :=
  let outcome := exec (choice n) (db.after writes) (db.after writes) o
  (outcome.1, writes ++ outcome.2)

structure Outcome where
  err : Option GoError
  result : TransferResult
  db : Db

/-- Begin, run `fn`, and commit if it returned nil; the deferred rollback discards
the writes otherwise. -/
def attempt (beginText commitText : String) (fn : Fn) (a : Attempt) (result : TransferResult)
    (db : Db) : Outcome :=
  match a.beginFault with
  | some err => ⟨some (.wrap beginText err), result, db⟩
  | none =>
    match (fn result).run (alone db a.choice) [] 0 with
    | ((.error err, result'), _) => ⟨some err, result', db⟩
    | ((.ok (), result'), writes) =>
      match a.commit with
      | .acknowledged => ⟨none, result', db.after writes⟩
      | .failed err => ⟨some (.wrap commitText err), result', db⟩
      | .lost err => ⟨some (.wrap commitText err), result', db.after writes⟩

/-- The texts `InTx` wraps the errors of `Begin` and `Commit` with. -/
def Strategy.beginText : Strategy → String
  | .locking => "postgres: begin tx"
  | .serializable => "postgres: begin serializable tx"

@[inherit_doc Strategy.beginText]
def Strategy.commitText : Strategy → String
  | .locking => "postgres: commit tx"
  | .serializable => "postgres: commit serializable tx"

/-- `LockingTransferExecutor.InTx` -/
def lockingInTx (fn : Fn) (a : Attempt) (result : TransferResult) (db : Db) : Outcome :=
  attempt Strategy.locking.beginText Strategy.locking.commitText fn a result db

/-- `SerializableTransferExecutor.attempt` -/
def serializableAttempt (fn : Fn) (a : Attempt) (result : TransferResult) (db : Db) : Outcome :=
  attempt Strategy.serializable.beginText Strategy.serializable.commitText fn a result db

/-- The error of a call that has used up its attempts. -/
def gaveUp (attempts : Nat) (err : GoError) : GoError :=
  .wrap2 ("postgres: serializable transfer gave up after " ++ toString attempts ++ " attempts")
    .errConcurrencyConflict err

/-- The retry loop, with `left` attempts left after the `n`-th. `others n` is what
other calls commit before the `n`-th attempt begins. -/
def retryLoop (fn : Fn) (others : Nat → Db → Db) (attempts : Nat → Attempt) :
    (left n : Nat) → TransferResult → Db → Outcome
  | left, n, result, db =>
    let ended := serializableAttempt fn (attempts n) result (others n db)
    match ended.err with
    | none => ended
    | some err =>
      if ¬ isSerializationFailure err then ended
      else
        match left with
        | 0 => { ended with err := some (gaveUp n err) }
        | left + 1 =>
          match (attempts n).cancelled with
          | some ctxErr => { ended with err := some ctxErr }
          | none => retryLoop fn others attempts left (n + 1) ended.result ended.db

/-- `SerializableTransferExecutor.InTx`: `attempt >= e.maxAttempts` is tested after
the first attempt, so there is always one. -/
def serializableInTx (maxAttempts : Nat) (fn : Fn) (others : Nat → Db → Db)
    (attempts : Nat → Attempt) (result : TransferResult) (db : Db) : Outcome :=
  retryLoop fn others attempts (maxAttempts - 1) 1 result db

/-- A value of `app.TransferExecutor`. -/
inductive Executor where
  | locking
  | serializable (maxAttempts : Nat)
deriving DecidableEq, Repr

def newTransferExecutor : Strategy → Executor
  | .locking => .locking
  | .serializable => .serializable defaultMaxAttempts

def Executor.strategy : Executor → Strategy
  | .locking => .locking
  | .serializable _ => .serializable

/-- `InTx` of either executor, with nobody else about. -/
def Executor.inTx (e : Executor) (fn : Fn) (attempts : Nat → Attempt) (result : TransferResult)
    (db : Db) : Outcome :=
  match e with
  | .locking => lockingInTx fn (attempts 1) result db
  | .serializable maxAttempts => serializableInTx maxAttempts fn (fun _ db => db) attempts result db

end WalletGo
