import WalletGo.Postgres.InTx

/-!
`AccountRepository` and the balance query of `EntryRepository`.

Each method sends single statements, committed one by one; a `CommitOutcome`
says how an insert ends.
-/

namespace WalletGo

namespace Db

/-- `UNIQUE (owner_id, kind, currency)` -/
def ownerTaken (db : Db) (a : Account) : Bool :=
  db.accounts.any fun b => b.ownerID == a.ownerID && b.kind == a.kind && b.currency == a.currency

/-- The constraint an `INSERT INTO accounts` violates, if any. -/
def accountViolation (db : Db) (a : Account) : Option GoError :=
  if db.accounts.any (·.id == a.id) then some (.pgError "23505" "accounts_pkey")
  else if db.ownerTaken a then some (.pgError "23505" "accounts_owner_id_kind_currency_key")
  else none

/-- A row that violates nothing has an identifier and an owner that are not taken. -/
theorem accountViolation_free {db : Db} {a : Account} (valid : db.accountViolation a = none) :
    a.id ∉ db.accounts.map (·.id) ∧
      (a.ownerID, a.kind, a.currency) ∉ db.accounts.map fun b =>
      (b.ownerID, b.kind, b.currency) := by
  unfold accountViolation at valid
  split at valid
  · cases valid
  · next unused =>
    split at valid
    · cases valid
    · next free =>
      refine ⟨by simpa using unused, fun taken => free ?_⟩
      obtain ⟨b, mem, same⟩ := List.mem_map.mp taken
      injection same with owner rest
      injection rest with kind currency
      exact List.any_eq_true.mpr ⟨b, mem, by simp [owner, kind, currency]⟩

def addAccount (db : Db) (a : Account) : Db := { db with accounts := db.accounts ++ [a] }

/-- `INSERT INTO accounts` as a statement of its own. -/
def insertAccount (db : Db) (a : Account) : Except GoError Unit × Db :=
  match db.accountViolation a with
  | some err => (.error err, db)
  | none => (.ok (), db.addAccount a)

end Db

/-- A statement committed by itself: refused, or executed with its reply
delivered or lost. -/
def autocommit (outcome : CommitOutcome) (statement : Db → Except GoError Unit × Db) (db : Db) :
    Except GoError Unit × Db :=
  match outcome with
  | .acknowledged => statement db
  | .failed err => (.error err, db)
  | .lost err => (.error err, (statement db).2)

namespace AccountRepository

def pgUniqueViolation : String := "23505"

/-- How `Create` reports the error of its insert. -/
def createError (err : GoError) : GoError :=
  match err.asPgError with
  | some (code, _) =>
    if code = pgUniqueViolation then .errAccountAlreadyExists
    else .wrap "postgres: create account" err
  | none => .wrap "postgres: create account" err

def create (outcome : CommitOutcome) (a : Account) (db : Db) : Except GoError Unit × Db :=
  match autocommit outcome (·.insertAccount a) db with
  | (.error err, db') => (.error (createError err), db')
  | (.ok (), db') => (.ok (), db')

def findByID (fault : Option GoError) (id : UUID) (db : Db) : Except GoError Account :=
  match fault with
  | some err =>
    .error (if err.is .noRows then .errAccountNotFound else .wrap "postgres: find account" err)
  | none =>
    match db.accounts.find? (·.id == id) with
    | some a => .ok a
    | none => .error .errAccountNotFound

def systemAccount (id : UUID) : Account := ⟨id, "system", .system, "BRL"⟩

/-- `INSERT INTO accounts … ON CONFLICT (owner_id, kind, currency) DO NOTHING` -/
def insertSystem (id : UUID) (db : Db) : Except GoError Unit × Db :=
  if db.ownerTaken (systemAccount id) then (.ok (), db) else db.insertAccount (systemAccount id)

def ensureInsert (id : UUID) (insert : CommitOutcome) (db : Db) : Except GoError Unit × Db :=
  match autocommit insert (insertSystem id) db with
  | (.error err, db') => (.error (.wrap "postgres: ensure system account" err), db')
  | (.ok (), db') => (.ok (), db')

def ensureSelect (select : Option GoError) (db : Db) : Except GoError UUID :=
  match select with
  | some err => .error (.wrap "postgres: read system account" err)
  | none =>
    match db.accounts.find? fun a =>
      a.ownerID == "system" && a.kind == .system && a.currency == "BRL" with
    | some a => .ok a.id
    | none => .error (.wrap "postgres: read system account" .noRows)

def ensureSystem (id : UUID) (insert : CommitOutcome) (select : Option GoError) (db : Db) :
    Except GoError UUID × Db :=
  match ensureInsert id insert db with
  | (.error err, db') => (.error err, db')
  | (.ok (), db') => (ensureSelect select db', db')

end AccountRepository

/-- `EntryRepository.SumByAccount` -/
def sumByAccount (fault : Option GoError) (accountID : UUID) (db : Db) : Except GoError Money :=
  match fault with
  | some err => .error (.wrap "postgres: sum entries" err)
  | none => (scanInt64 "postgres: sum entries" (.ok (db.sum accountID))).map newMoney

end WalletGo
