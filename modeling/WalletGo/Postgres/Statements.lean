import WalletGo.Postgres.Tables
import WalletGo.Txn.Program

/-!
The statements the transfer code sends, what each one replies and writes, and
the row locks it needs.

`exec` is the meaning of one statement for a transaction that sees `visible` and
whose constraints are checked against `latest`. At READ COMMITTED the two are
the same database; at SERIALIZABLE `visible` is the snapshot, and a key committed
after the snapshot makes the claim fail with SQLSTATE 40001. Whatever the
environment decides is in `Choice`: an injected database error, the next UUID,
the next sequence value and the clock. `json.Marshal` and `uuid.New` are
operations too, the first because the code handles its failure, the second
because its result is generated afresh by every run of the closure.
-/

namespace WalletGo

inductive Op where
  | claimKey (key : IdempotencyKey) (fingerprint : String)
  | loadKey (key : IdempotencyKey)
  | selectKind (id : UUID) (forUpdate : Bool)
  | sumEntries (accountID : UUID)
  | closeBatch
  | insertTransfer (id fromAccountID toAccountID : UUID) (amountCents : Int64)
  | insertEntry (transferID accountID : UUID) (amountCents : Int64)
  | insertEvent (eventID : UUID) (eventType : String) (payload : EventPayload)
  | completeKey (key : IdempotencyKey) (statusCode : Int) (body : Option ResponseBody)
      (transferID : UUID)
  | marshal
  | newUUID
deriving DecidableEq, Repr

/-- A reply is an error or what the driver hands back: rows affected, at most one
row, or nothing. `uuid.New` cannot fail. -/
abbrev Op.Reply : Op → Type
  | .claimKey .. => Except GoError Nat
  | .loadKey .. => Except GoError (Option KeyRow)
  | .selectKind .. => Except GoError (Option AccountKind)
  | .sumEntries .. => Except GoError Int
  | .completeKey .. => Except GoError Nat
  | .closeBatch | .insertTransfer .. | .insertEntry .. | .insertEvent .. | .marshal =>
      Except GoError Unit
  | .newUUID => UUID

abbrev sql : Txn.Signature := ⟨Op, Op.Reply⟩

/-- What the environment decides about one operation. -/
structure Choice where
  fault : Option GoError
  uuid : UUID
  entryID : Nat
  now : Time
deriving DecidableEq, Repr

instance : Inhabited Choice := ⟨⟨none, UUID.zero, 0, 0⟩⟩

/-- An injected fault replaces the reply and the statement writes nothing. -/
def Choice.guard {β : Type} (c : Choice) (outcome : Except GoError β × List Write) :
    Except GoError β × List Write :=
  match c.fault with
  | some err => (.error err, [])
  | none => outcome

namespace Db

/-- The constraint an `INSERT INTO transfers` violates, if any: the two CHECKs,
the primary key, the two foreign keys. -/
def transferViolation (db : Db) (id fromAccountID toAccountID : UUID) (amountCents : Int64) :
    Option GoError :=
  if ¬ 0 < amountCents then some (.pgError "23514" "transfers_amount_cents_check")
  else if fromAccountID = toAccountID then some (.pgError "23514" "transfers_check")
  else if db.transfers.any (·.id == id) then some (.pgError "23505" "transfers_pkey")
  else if (db.kindOf fromAccountID).isNone then
    some (.pgError "23503" "transfers_from_account_id_fkey")
  else if (db.kindOf toAccountID).isNone then
    some (.pgError "23503" "transfers_to_account_id_fkey")
  else none

def entryViolation (db : Db) (transferID accountID : UUID) (amountCents : Int64) :
    Option GoError :=
  if amountCents = 0 then some (.pgError "23514" "entries_amount_cents_check")
  else if ¬ db.transfers.any (·.id == transferID) then
    some (.pgError "23503" "entries_transfer_id_fkey")
  else if (db.kindOf accountID).isNone then some (.pgError "23503" "entries_account_id_fkey")
  else none

end Db

/-- What a statement that breaks no constraint replies and writes, or the
violation. -/
def insertUnless (violation : Option GoError) (row : Write) : Except GoError Unit × List Write :=
  match violation with
  | some err => (.error err, [])
  | none => (.ok (), [row])

/-- `INSERT INTO idempotency_keys … ON CONFLICT DO NOTHING` -/
def claimOutcome (visible latest : Db) (key : IdempotencyKey) (fingerprint : String) :
    Except GoError Nat × List Write :=
  if (visible.keyRow key).isSome then (.ok 0, [])
  else if (latest.keyRow key).isSome then
    (.error (.pgError "40001" "could not serialize access due to concurrent update"), [])
  else (.ok 1, [.insertKey ⟨key, fingerprint, .inFlight, none, none, none⟩])

/-- `UPDATE idempotency_keys SET … WHERE scope = $1 AND endpoint = $2 AND key = $3` -/
def completeOutcome (visible latest : Db) (key : IdempotencyKey) (statusCode : Int)
    (body : Option ResponseBody) (transferID : UUID) : Except GoError Nat × List Write :=
  if ¬ visible.keys.any (·.key == key) then (.ok 0, [])
  else if ¬ latest.transfers.any (·.id == transferID) then
    (.error (.pgError "23503" "idempotency_keys_transfer_id_fkey"), [])
  else (.ok (visible.keys.countP (·.key == key)), [.completeKey key statusCode body transferID])

def exec (c : Choice) (visible latest : Db) : (o : Op) → o.Reply × List Write
  | .claimKey key fingerprint => c.guard (claimOutcome visible latest key fingerprint)
  | .loadKey key => c.guard (.ok (visible.keyRow key), [])
  | .selectKind id _ => c.guard (.ok (visible.kindOf id), [])
  | .sumEntries id => c.guard (.ok (visible.sum id), [])
  | .closeBatch => c.guard (.ok (), [])
  | .insertTransfer id fromAccountID toAccountID amountCents => c.guard <|
      insertUnless (latest.transferViolation id fromAccountID toAccountID amountCents)
        (.insertTransfer ⟨id, fromAccountID, toAccountID, amountCents, "completed"⟩)
  | .insertEntry transferID accountID amountCents => c.guard <|
      insertUnless (latest.entryViolation transferID accountID amountCents)
        (.insertEntry ⟨c.entryID, transferID, accountID, amountCents⟩)
  | .insertEvent eventID eventType payload => c.guard <|
      insertUnless
        (if latest.outbox.any (·.eventID == eventID) then some (.pgError "23505" "outbox_pkey")
          else none)
        (.insertEvent ⟨eventID, eventType, payload, c.now, none, 0, c.now⟩)
  | .completeKey key statusCode body transferID =>
      c.guard (completeOutcome visible latest key statusCode body transferID)
  | .marshal => c.guard (.ok (), [])
  | .newUUID => (c.uuid, [])

/-! ### What each operation can do

An operation fails and writes nothing, or does what these say. -/

section Outcomes

variable (c : Choice) (visible latest : Db)

theorem Choice.guard_cases {β : Type} (outcome : Except GoError β × List Write) :
    (∃ err, c.guard outcome = (.error err, [])) ∨ c.guard outcome = outcome := by
  unfold Choice.guard
  split
  · exact .inl ⟨_, rfl⟩
  · exact .inr rfl

theorem Choice.guard_healthy {c : Choice} (healthy : c.fault = none) {β : Type}
    (outcome : Except GoError β × List Write) : c.guard outcome = outcome := by
  rw [Choice.guard, healthy]

/-- An insert fails, or violates nothing and adds its row. -/
theorem insertUnless_cases (violation : Option GoError) (row : Write) :
    (∃ err, c.guard (insertUnless violation row) = (.error err, [])) ∨
      violation = none ∧ c.guard (insertUnless violation row) = (.ok (), [row]) := by
  rcases c.guard_cases (insertUnless violation row) with failed | same
  · exact .inl failed
  · rw [same]
    cases violation with
    | some err => exact .inl ⟨err, rfl⟩
    | none => exact .inr ⟨rfl, rfl⟩

/-- `INSERT ... ON CONFLICT DO NOTHING`: it fails, finds the key, or claims it. -/
theorem exec_claimKey (key : IdempotencyKey) (fingerprint : String) :
    (∃ err, exec c visible latest (.claimKey key fingerprint) = (.error err, [])) ∨
      (visible.keyRow key).isSome ∧
        exec c visible latest (.claimKey key fingerprint) = (.ok 0, []) ∨
      visible.keyRow key = none ∧ latest.keyRow key = none ∧
        exec c visible latest (.claimKey key fingerprint) =
          (.ok 1, [.insertKey ⟨key, fingerprint, .inFlight, none, none, none⟩]) := by
  rcases c.guard_cases (claimOutcome visible latest key fingerprint) with failed | same
  · exact .inl failed
  · simp only [exec, same]
    unfold claimOutcome
    split
    · next seen => exact .inr (.inl ⟨seen, rfl⟩)
    · next unseen =>
      split
      · exact .inl ⟨_, rfl⟩
      · next absent => exact .inr (.inr ⟨by simpa using unseen, by simpa using absent, rfl⟩)

theorem exec_loadKey (key : IdempotencyKey) :
    (∃ err, exec c visible latest (.loadKey key) = (.error err, [])) ∨
      exec c visible latest (.loadKey key) = (.ok (visible.keyRow key), []) :=
  c.guard_cases _

theorem exec_selectKind (id : UUID) (forUpdate : Bool) :
    (∃ err, exec c visible latest (.selectKind id forUpdate) = (.error err, [])) ∨
      exec c visible latest (.selectKind id forUpdate) = (.ok (visible.kindOf id), []) :=
  c.guard_cases _

theorem exec_sumEntries (id : UUID) :
    (∃ err, exec c visible latest (.sumEntries id) = (.error err, [])) ∨
      exec c visible latest (.sumEntries id) = (.ok (visible.sum id), []) :=
  c.guard_cases _

theorem exec_closeBatch :
    (∃ err, exec c visible latest .closeBatch = (.error err, [])) ∨
      exec c visible latest .closeBatch = (.ok (), []) :=
  c.guard_cases _

theorem exec_marshal :
    (∃ err, exec c visible latest .marshal = (.error err, [])) ∨
      exec c visible latest .marshal = (.ok (), []) :=
  c.guard_cases _

/-- The transfer is inserted against the latest rows, or the statement fails. -/
theorem exec_insertTransfer (id fromAccountID toAccountID : UUID) (amountCents : Int64) :
    (∃ err, exec c visible latest (.insertTransfer id fromAccountID toAccountID amountCents) =
        (.error err, [])) ∨
      latest.transferViolation id fromAccountID toAccountID amountCents = none ∧
        exec c visible latest (.insertTransfer id fromAccountID toAccountID amountCents) =
          (.ok (), [.insertTransfer ⟨id, fromAccountID, toAccountID, amountCents, "completed"⟩]) :=
  insertUnless_cases c _ _

theorem exec_insertEntry (transferID accountID : UUID) (amountCents : Int64) :
    (∃ err, exec c visible latest (.insertEntry transferID accountID amountCents) =
      (.error err, [])) ∨ latest.entryViolation transferID accountID amountCents = none ∧
        exec c visible latest (.insertEntry transferID accountID amountCents) =
          (.ok (), [.insertEntry ⟨c.entryID, transferID, accountID, amountCents⟩]) :=
  insertUnless_cases c _ _

theorem exec_insertEvent (eventID : UUID) (eventType : String) (payload : EventPayload) :
    (∃ err, exec c visible latest (.insertEvent eventID eventType payload) = (.error err, [])) ∨
      eventID ∉ latest.outbox.map (·.eventID) ∧
        exec c visible latest (.insertEvent eventID eventType payload) =
          (.ok (), [.insertEvent ⟨eventID, eventType, payload, c.now, none, 0, c.now⟩]) := by
  unfold exec
  rcases insertUnless_cases c _ _ with failed | ⟨unused, same⟩
  · exact .inl failed
  · refine .inr ⟨?_, same⟩
    simpa using unused

/-- The key is completed as the transaction sees it, or the statement fails. -/
theorem exec_completeKey (key : IdempotencyKey) (statusCode : Int) (body : Option ResponseBody)
    (transferID : UUID) :
    (∃ err, exec c visible latest (.completeKey key statusCode body transferID) =
      (.error err, [])) ∨ visible.keyRow key = none ∧
        exec c visible latest (.completeKey key statusCode body transferID) = (.ok 0, []) ∨
      latest.transfers.any (·.id == transferID) ∧
        exec c visible latest (.completeKey key statusCode body transferID) =
          (.ok (visible.keys.countP (·.key == key)),
            [.completeKey key statusCode body transferID]) := by
  rcases c.guard_cases (completeOutcome visible latest key statusCode body transferID) with
    failed | same
  · exact .inl failed
  · simp only [exec, same]
    unfold completeOutcome
    split
    · next absent => exact .inr (.inl ⟨by simpa [Db.keyRow] using absent, rfl⟩)
    · split
      · exact .inl ⟨_, rfl⟩
      · next present => exact .inr (.inr ⟨by simpa using present, rfl⟩)

end Outcomes

/-- What the constraints of `transfers` ask of a row. -/
theorem Db.transferViolation_eq_none {db : Db} {id fromAccountID toAccountID : UUID}
    {amountCents : Int64} :
    db.transferViolation id fromAccountID toAccountID amountCents = none ↔
      0 < amountCents ∧ fromAccountID ≠ toAccountID ∧ id ∉ db.transfers.map (·.id) ∧
        (db.kindOf fromAccountID).isSome ∧ (db.kindOf toAccountID).isSome := by
  unfold Db.transferViolation
  split
  · simp_all
  · split
    · simp_all
    · split
      · simp_all
      · split
        · simp_all
        · simp_all [Option.isSome_iff_ne_none]

/-- What the constraints of `entries` ask of a row. -/
theorem Db.entryViolation_eq_none {db : Db} {transferID accountID : UUID} {amountCents : Int64} :
    db.entryViolation transferID accountID amountCents = none ↔
      amountCents ≠ 0 ∧ transferID ∈ db.transfers.map (·.id) ∧ (db.kindOf accountID).isSome := by
  unfold Db.entryViolation
  split
  · simp_all
  · split
    · simp_all
    · simp_all [Option.isSome_iff_ne_none]

/-! ### Row locks -/

/-- What a lock is taken on: a row, or the index entry of a row being inserted. -/
inductive Resource where
  | key (key : IdempotencyKey)
  | account (id : UUID)
  | transfer (id : UUID)
  | event (id : UUID)
deriving DecidableEq, Repr

inductive LockMode where
  | share
  | exclusive
deriving DecidableEq, Repr

/-- Two share locks go together; anything else conflicts. -/
def LockMode.conflicts : LockMode → LockMode → Bool
  | .share, .share => false
  | _, _ => true

abbrev Lock := Resource × LockMode

/-- The locks an operation has to obtain. An insert waits for an unfinished
insert of the same primary key, and its foreign keys take share locks on the
rows they refer to. -/
def Op.locks : Op → List Lock
  | .claimKey key _ => [(.key key, .exclusive)]
  | .selectKind id true => [(.account id, .exclusive)]
  | .insertTransfer id fromAccountID toAccountID _ =>
      [(.transfer id, .exclusive), (.account fromAccountID, .share), (.account toAccountID, .share)]
  | .insertEntry transferID accountID _ =>
    [(.transfer transferID, .share), (.account accountID, .share)]
  | .insertEvent eventID _ _ => [(.event eventID, .exclusive)]
  | .completeKey key _ _ transferID => [(.key key, .exclusive), (.transfer transferID, .share)]
  | .loadKey _ | .selectKind _ false | .sumEntries _ | .closeBatch | .marshal | .newUUID => []

/-- The locks an operation is left holding: none where it found no row, inserted
no row or failed. -/
def Op.acquires : (o : Op) → o.Reply → List Lock
  | .claimKey key fingerprint, .ok rows =>
      if rows = 1 then (Op.claimKey key fingerprint).locks else []
  | .selectKind id forUpdate, .ok (some _) => (Op.selectKind id forUpdate).locks
  | .insertTransfer id fromAccountID toAccountID amountCents, .ok () =>
      (Op.insertTransfer id fromAccountID toAccountID amountCents).locks
  | .insertEntry transferID accountID amountCents, .ok () =>
      (Op.insertEntry transferID accountID amountCents).locks
  | .insertEvent eventID eventType payload, .ok () =>
    (Op.insertEvent eventID eventType payload).locks
  | .completeKey key statusCode body transferID, .ok rows =>
      if rows = 0 then [] else (Op.completeKey key statusCode body transferID).locks
  | _, _ => []

/-- A statement that fails is left with no lock it did not hold. -/
theorem Op.acquires_faulted {c : Choice} (faulted : c.fault ≠ none) (visible latest : Db) (o : Op) :
    o.acquires (exec c visible latest o).1 = [] := by
  obtain ⟨err, failed⟩ := Option.ne_none_iff_exists'.mp faulted
  cases o <;> simp only [exec, Choice.guard, failed] <;> rfl

/-- A statement acquires no lock but those it asks for. -/
theorem Op.acquires_subset (o : Op) (reply : o.Reply) : o.acquires reply ⊆ o.locks := by
  intro lock mem
  unfold Op.acquires at mem
  split at mem
  · split at mem
    · exact mem
    · cases mem
  · exact mem
  · exact mem
  · exact mem
  · exact mem
  · split at mem
    · cases mem
    · exact mem
  · cases mem

theorem LockMode.conflicts_comm (first second : LockMode) :
    first.conflicts second = second.conflicts first := by
  cases first <;> cases second <;> rfl

end WalletGo
