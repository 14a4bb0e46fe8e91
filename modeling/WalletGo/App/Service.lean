import WalletGo.Postgres.InTx
import WalletGo.Postgres.Accounts

/-!
The services the HTTP handlers call, and what one request does to the database
when requests are served one after another.
-/

namespace WalletGo

/-- `TransferService.Transfer` -/
def transfer (e : Executor) (attempts : Nat → Attempt) (cmd : TransferCommand) (db : Db) :
    Except GoError TransferResult × Db :=
  match validate cmd with
  | .error err => (.error err, db)
  | .ok amount =>
    let ended := e.inTx (transferProg e.strategy cmd amount) attempts .empty db
    match ended.err with
    | some err => (.error err, ended.db)
    | none => (.ok ended.result, ended.db)

/-- `CashService.Deposit` -/
def deposit (e : Executor) (attempts : Nat → Attempt) (systemAccountID : UUID) (cmd : CashCommand)
    (db : Db) : Except GoError TransferResult × Db :=
  transfer e attempts (depositCommand systemAccountID cmd) db

/-- `CashService.Withdraw` -/
def withdraw (e : Executor) (attempts : Nat → Attempt) (systemAccountID : UUID) (cmd : CashCommand)
    (db : Db) : Except GoError TransferResult × Db :=
  transfer e attempts (withdrawCommand systemAccountID cmd) db

def defaultCurrency : String := "BRL"

/-- `unicode.IsSpace` -/
def isSpace (c : Char) : Bool :=
  let n := c.toNat
  (9 ≤ n && n ≤ 13) || n == 0x20 || n == 0x85 || n == 0xA0 || n == 0x1680 ||
    (0x2000 ≤ n && n ≤ 0x200A) || n == 0x2028 || n == 0x2029 || n == 0x202F || n == 0x205F ||
    n == 0x3000

/-- `strings.TrimSpace` -/
def trimSpace (text : String) : String :=
  String.ofList ((text.toList.dropWhile isSpace).reverse.dropWhile isSpace).reverse

/-- `AccountService.Create` up to its first statement. -/
def createInsert (ownerID : String) (id : UUID) (insert : CommitOutcome) (db : Db) :
    Except GoError Unit × Db :=
  let ownerID := trimSpace ownerID
  if ownerID = "" then (.error .errInvalidOwner, db)
  else AccountRepository.create insert ⟨id, ownerID, .customer, defaultCurrency⟩ db

/-- `AccountService.Create`: `id` is the generated one, `insert` and `find` say
how its two statements end. -/
def createAccount (ownerID : String) (id : UUID) (insert : CommitOutcome) (find : Option GoError)
    (db : Db) : Except GoError Account × Db :=
  match createInsert ownerID id insert db with
  | (.error err, db') => (.error err, db')
  | (.ok (), db') => (AccountRepository.findByID find id db', db')

/-- `AccountService.Balance` -/
def balance (find sum : Option GoError) (accountID : UUID) (db : Db) : Except GoError Money := do
  let _ ← AccountRepository.findByID find accountID db
  sumByAccount sum accountID db

/-- One request, with everything the environment decides about it. -/
inductive Request where
  | ensureSystem (id : UUID) (insert : CommitOutcome) (select : Option GoError)
  | create (ownerID : String) (id : UUID) (insert : CommitOutcome) (find : Option GoError)
  | deposit (e : Executor) (attempts : Nat → Attempt) (systemAccountID : UUID) (cmd : CashCommand)
  | withdraw (e : Executor) (attempts : Nat → Attempt) (systemAccountID : UUID) (cmd : CashCommand)
  | transfer (e : Executor) (attempts : Nat → Attempt) (cmd : TransferCommand)

def serve (db : Db) : Request → Db
  | .ensureSystem id insert select => (AccountRepository.ensureSystem id insert select db).2
  | .create ownerID id insert find => (createAccount ownerID id insert find db).2
  | .deposit e attempts systemAccountID cmd => (deposit e attempts systemAccountID cmd db).2
  | .withdraw e attempts systemAccountID cmd => (withdraw e attempts systemAccountID cmd db).2
  | .transfer e attempts cmd => (transfer e attempts cmd db).2

def serveAll (db : Db) (requests : List Request) : Db := requests.foldl serve db

end WalletGo
