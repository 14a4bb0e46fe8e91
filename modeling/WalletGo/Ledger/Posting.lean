import WalletGo.Postgres.Accounts

/-!
Postings: what a transaction that executes a transfer adds to the database.

A `Posting` determines one row of `idempotency_keys`, `transfers` and `outbox`
and two of `entries`; `Db.post` appends them. The six writes of the closure, made
one by one, come to one posting when the key was free (`Db.after_writes`).
`Accepts` is what the closure has checked by then. A database whose contents are
a list of postings is a `Journal`; account creations and accepted postings keep
it one.
-/

namespace WalletGo

structure Posting where
  key : IdempotencyKey
  fingerprint : String
  id : UUID
  source : UUID
  target : UUID
  amount : Int64
  debitID : Nat
  creditID : Nat
  eventID : UUID
  now : Time
  positive : 0 < amount.toInt
  distinct : source ≠ target

namespace Posting

def transferRow (p : Posting) : TransferRow := ⟨p.id, p.source, p.target, p.amount, "completed"⟩

def debit (p : Posting) : EntryRow := ⟨p.debitID, p.id, p.source, -p.amount⟩

def credit (p : Posting) : EntryRow := ⟨p.creditID, p.id, p.target, p.amount⟩

def entries (p : Posting) : List EntryRow := [p.debit, p.credit]

def payload (p : Posting) : EventPayload := ⟨p.id, p.source, p.target, p.amount⟩

def event (p : Posting) : OutboxRow :=
  ⟨p.eventID, "transfer.completed", p.payload, p.now, none, 0, p.now⟩

def claimRow (p : Posting) : KeyRow := ⟨p.key, p.fingerprint, .inFlight, none, none, none⟩

def keyRow (p : Posting) : KeyRow :=
  ⟨p.key, p.fingerprint, .completed, some statusTransferCreated, some ⟨p.id⟩, some p.id⟩

@[simp] theorem claimRow_key (p : Posting) : p.claimRow.key = p.key := rfl

@[simp] theorem keyRow_key (p : Posting) : p.keyRow.key = p.key := rfl

theorem claimRow_complete (p : Posting) :
    p.claimRow.complete statusTransferCreated (some ⟨p.id⟩) p.id = p.keyRow := rfl

/-- The writes of the closure, in the order it makes them. -/
def writes (p : Posting) : List Write :=
  [.insertKey p.claimRow, .insertTransfer p.transferRow, .insertEntry p.debit,
    .insertEntry p.credit, .insertEvent p.event,
    .completeKey p.key statusTransferCreated (some ⟨p.id⟩) p.id]

/-- What the posting adds to the balance of an account. -/
def effect (p : Posting) (id : UUID) : Int :=
  if id = p.source then -p.amount.toInt else if id = p.target then p.amount.toInt else 0

end Posting

namespace Db

def post (db : Db) (p : Posting) : Db where
  accounts := db.accounts
  transfers := db.transfers ++ [p.transferRow]
  entries := db.entries ++ p.entries
  keys := db.keys ++ [p.keyRow]
  outbox := db.outbox ++ [p.event]

theorem keyRow_eq_none {db : Db} {key : IdempotencyKey} :
    db.keyRow key = none ↔ ∀ row ∈ db.keys, row.key ≠ key := by
  simp [keyRow, List.find?_eq_none]

/-- The closure's writes, applied where its key is free, are one posting. -/
theorem after_writes {db : Db} {p : Posting} (free : db.keyRow p.key = none) :
    db.after p.writes = db.post p := by
  have kept : (db.keys.map fun row =>
      if row.key = p.key then row.complete statusTransferCreated (some ⟨p.id⟩) p.id else row) =
      db.keys := by
    refine (List.map_congr_left fun row mem => ?_).trans (List.map_id' _)
    rw [if_neg (keyRow_eq_none.mp free row mem)]
  simp [Posting.writes, Db.write, Db.post, Posting.entries, kept, Posting.claimRow_complete]

@[simp] theorem post_accounts (db : Db) (p : Posting) : (db.post p).accounts = db.accounts := rfl

@[simp] theorem kindOf_post (db : Db) (p : Posting) (id : UUID) :
    (db.post p).kindOf id = db.kindOf id := rfl

theorem keyRow_post (db : Db) (p : Posting) (key : IdempotencyKey) :
    (db.post p).keyRow key =
      (db.keyRow key <|> if p.key = key then some p.keyRow else none) := by
  unfold keyRow post
  rw [List.find?_append]
  by_cases same : p.key = key
  · simp [same]
  · simp [same]

theorem sumOf_append (first second : List EntryRow) (id : UUID) :
    sumOf (first ++ second) id = sumOf first id + sumOf second id := by
  simp [sumOf]

/-- The two entries of a posting add up to its effect. -/
theorem sumOf_entries (p : Posting) (id : UUID) : sumOf p.entries id = p.effect id := by
  have negated := toInt_neg_of_pos p.positive
  by_cases fromSource : id = p.source
  · have notTarget : p.target ≠ id := fun same => p.distinct (fromSource ▸ same.symm)
    simp [sumOf, Posting.entries, Posting.debit, Posting.credit, Posting.effect, fromSource.symm,
      notTarget, negated]
  · by_cases toTarget : id = p.target
    · simp [sumOf, Posting.entries, Posting.debit, Posting.credit, Posting.effect, toTarget,
        p.distinct, p.distinct.symm]
    · simp [sumOf, Posting.entries, Posting.debit, Posting.credit, Posting.effect, fromSource,
        toTarget, Ne.symm fromSource, Ne.symm toTarget]

/-- A posting changes each balance by its effect. -/
theorem sum_post (db : Db) (p : Posting) (id : UUID) :
    (db.post p).sum id = db.sum id + p.effect id := by
  simp only [Db.sum, Db.post, sumOf_append, sumOf_entries]

@[simp] theorem sum_addAccount (db : Db) (a : Account) (id : UUID) :
    (db.addAccount a).sum id = db.sum id := rfl

end Db

end WalletGo
