import WalletGo.Ledger.Serial

/-!
A request that nothing stands in the way of is executed.

`Db.Admits db cmd` is the condition on the database under which a transfer goes
through: the command is valid, its key is free, both accounts exist and a
customer source holds the amount. With fresh ids and no faults the closure then
ends in a posting (`run_executes`), for either executor (`transfer_executes`).
-/

namespace WalletGo

open Txn (Prog)

/-- Nothing in the database stands in the way of the transfer. -/
structure Db.Admits (db : Db) (cmd : TransferCommand) : Prop where
  valid : validate cmd = .ok ⟨cmd.amountCents⟩
  free : db.keyRow cmd.key = none
  target : (db.kindOf cmd.toAccountID).isSome
  source : (db.kindOf cmd.fromAccountID).isSome
  funds : db.kindOf cmd.fromAccountID = some .customer →
    cmd.amountCents.toInt ≤ db.sum cmd.fromAccountID

def Db.Fresh (db : Db) (id : UUID) : Prop :=
  id ∉ db.transfers.map (·.id) ∧ id ∉ db.outbox.map (·.eventID)

namespace Phase

variable {x : Strategy} {cmd : TransferCommand} {amount : Money} {db : Db}

/-- The phases of an execution that goes well, with what they have read. -/
def Going (x : Strategy) (cmd : TransferCommand) (db : Db) : Phase amount → Prop
  | .load | .replayed _ | .failed _ => False
  | .readFirst id | .closeBatch id _ _ => db.Fresh id
  | .readSecond id k₁ => db.Fresh id ∧ k₁ = db.kindOf (readOrder x cmd).1
  | .readBalance id k₁ k₂ =>
      db.Fresh id ∧ k₁ = db.kindOf (readOrder x cmd).1 ∧ k₂ = db.kindOf (readOrder x cmd).2
  | .insertTransfer k => db.Fresh k.id
  | .insertEvent _ eventID => db.Fresh eventID
  | _ => True

/-- A run that goes on as it should ends with a transfer. -/
theorem Going.outcome {phase : Phase amount} (going : phase.Going x cmd db)
    {finish : Except GoError Unit × TransferResult} (ended : phase.outcome = some finish) :
    ∃ id, finish = (.ok (), ⟨id, createdResponse id, false⟩) := by
  cases phase with
  | executed k eventID => cases ended; exact ⟨k.id, rfl⟩
  | replayed row => exact going.elim
  | failed err => exact going.elim
  | _ => cases ended

theorem readOrder_isSome (admits : db.Admits cmd) :
    (db.kindOf (readOrder x cmd).1).isSome ∧ (db.kindOf (readOrder x cmd).2).isSome := by
  rcases readOrder_cases x cmd with order | order
  · rw [order]
    exact ⟨admits.source, admits.target⟩
  · rw [order]
    exact ⟨admits.target, admits.source⟩

/-- With both accounts found and the balance in range, the reads lead to the check. -/
theorem going_readBalance {id : UUID} {k₁ k₂ : Option AccountKind} {made : List Write} {c : Choice}
    (admits : db.Admits cmd) (fits : Int64Range (db.sum cmd.fromAccountID))
    (going : (.readBalance id k₁ k₂ : Phase amount).Going x cmd db)
    (summed : (db.after made).sum cmd.fromAccountID = db.sum cmd.fromAccountID)
    (healthy : c.fault = none) :
    ((.readBalance id k₁ k₂ : Phase amount).next x cmd (.sumEntries cmd.fromAccountID)
      (exec c (db.after made) (db.after made) (.sumEntries cmd.fromAccountID)).1).Going
      x cmd db := by
  obtain ⟨fresh, rfl, rfl⟩ := going
  obtain ⟨first, second⟩ := readOrder_isSome (x := x) admits
  obtain ⟨k₁, found₁⟩ := Option.isSome_iff_exists.mp first
  obtain ⟨k₂, found₂⟩ := Option.isSome_iff_exists.mp second
  simp only [exec, Choice.guard_healthy healthy, summed, next, found₁, found₂,
    afterRead_ok x cmd amount id k₁ k₂ fits]
  exact fresh

/-- An admitted transfer passes the check of the funds. -/
theorem going_closeBatch {id : UUID} {kind : AccountKind} {balance : Int64} {made : List Write}
    {c : Choice} (admits : db.Admits cmd) (same : amount = ⟨cmd.amountCents⟩)
    (facts : (.closeBatch id kind balance : Phase amount).Facts x cmd db db made)
    (fresh : db.Fresh id) (healthy : c.fault = none) :
    ((.closeBatch id kind balance : Phase amount).next x cmd .closeBatch
      (exec c (db.after made) (db.after made) .closeBatch).1).Going x cmd db := by
  obtain ⟨-, -, read⟩ := facts
  obtain ⟨-, positive, -⟩ := validate_ok admits.valid
  have allowed : canDebit (newMoney balance) amount kind = none := by
    rw [same]
    refine canDebit_of_le positive ?_
    rintro rfl
    have enough := admits.funds read.source
    rw [read.sum] at enough
    exact enough
  simp only [exec, Choice.guard_healthy healthy, next, orFail, afterCheck_allowed id allowed]
  exact fresh

/-- The row of an admitted transfer violates no constraint. -/
theorem transfer_valid (latest : Db) (id : UUID) (admits : db.Admits cmd)
    (same : amount = ⟨cmd.amountCents⟩) (fresh : db.Fresh id)
    (transfers : latest.transfers = db.transfers) (accounts : latest.accounts = db.accounts) :
    latest.transferViolation id cmd.fromAccountID cmd.toAccountID amount.cents = none := by
  obtain ⟨-, positive, distinct⟩ := validate_ok admits.valid
  rw [Db.transferViolation_eq_none, transfers]
  simp only [Db.kindOf, accounts]
  refine ⟨?_, distinct, fresh.1, admits.source, admits.target⟩
  rw [same, Int64.lt_iff_toInt_lt]
  simpa using positive

theorem entries_valid (latest : Db) (id : UUID) (admits : db.Admits cmd)
    (same : amount = ⟨cmd.amountCents⟩) (present : id ∈ latest.transfers.map (·.id))
    (accounts : latest.accounts = db.accounts) :
    latest.entryViolation id cmd.fromAccountID (-amount.cents) = none ∧
      latest.entryViolation id cmd.toAccountID amount.cents = none := by
  obtain ⟨-, positive, -⟩ := validate_ok admits.valid
  have negated := toInt_neg_of_pos positive
  simp only [Db.entryViolation_eq_none, Db.kindOf, accounts, same]
  refine ⟨⟨?_, present, admits.source⟩, ?_, present, admits.target⟩
  · intro zero
    rw [zero, Int64.toInt_zero] at negated
    omega
  · intro zero
    rw [zero, Int64.toInt_zero] at positive
    omega

/-- The key that was claimed is completed. -/
theorem going_completeKey {k : Checked amount} {eventID : UUID} {st : Stamps} {c : Choice}
    (free : db.keyRow cmd.key = none) (healthy : c.fault = none) :
    let latest := db.after (writes cmd st (.completeKey k eventID))
    (exec c latest latest (.completeKey cmd.key statusTransferCreated (some ⟨k.id⟩) k.id)).1 =
    .ok 1 := by
  intro latest
  have none : db.keys.countP (·.key == cmd.key) = 0 := by
    simpa [List.countP_eq_zero] using Db.keyRow_eq_none.mp free
  have once : latest.keys.countP (·.key == cmd.key) = 1 := by
    simp [latest, writes, rowsOf, Db.write, none]
  have taken : latest.keys.any (·.key == cmd.key) = true := by
    simp [latest, writes, rowsOf, Db.write]
  have present : latest.transfers.any (·.id == k.id) = true := by
    simp [latest, writes, rowsOf, Db.write]
  simp [exec, Choice.guard_healthy healthy, completeOutcome, once, taken, present]

/-- An operation without a fault keeps a good execution going. -/
theorem Going.step {phase : Phase amount} {made : List Write} {o : Op} {c : Choice}
    (admits : db.Admits cmd) (same : amount = ⟨cmd.amountCents⟩)
    (fits : Int64Range (db.sum cmd.fromAccountID)) (facts : phase.Facts x cmd db db made)
    (going : phase.Going x cmd db) (here : phase.op x cmd = some o) (healthy : c.fault = none)
    (fresh : db.Fresh c.uuid) :
    (phase.next x cmd o (exec c (db.after made) (db.after made) o).1).Going x cmd db := by
  cases phase with
  | claim =>
    cases here
    obtain ⟨⟨st, rfl⟩, -⟩ := facts
    simp [exec, Choice.guard_healthy healthy, writes, claimOutcome, admits.free, next, Going]
  | newTransferID => cases here; exact fresh
  | readFirst id =>
    cases here
    obtain ⟨⟨st, rfl⟩, -⟩ := facts
    simp only [exec, Choice.guard_healthy healthy]
    exact ⟨going, rfl⟩
  | readSecond id k₁ =>
    cases here
    obtain ⟨⟨st, rfl⟩, -⟩ := facts
    simp only [exec, Choice.guard_healthy healthy]
    exact ⟨going.1, going.2, rfl⟩
  | readBalance id k₁ k₂ =>
    cases here
    obtain ⟨⟨st, rfl⟩, -⟩ := facts
    exact going_readBalance admits fits going rfl healthy
  | closeBatch id kind balance => cases here; exact going_closeBatch admits same facts going healthy
  | insertTransfer k =>
    cases here
    obtain ⟨⟨st, rfl⟩, -⟩ := facts
    have valid := transfer_valid (db.after (writes cmd st (.insertTransfer k))) k.id admits same
      going rfl rfl
    simp only [exec, Choice.guard_healthy healthy, valid]
    trivial
  | insertDebit k =>
    cases here
    obtain ⟨⟨st, rfl⟩, -⟩ := facts
    have valid := entries_valid (db.after (writes cmd st (.insertDebit k))) k.id admits same
      (by simp [writes, rowsOf, Db.write]) rfl
    simp only [exec, Choice.guard_healthy healthy, valid.1]
    trivial
  | insertCredit k =>
    cases here
    obtain ⟨⟨st, rfl⟩, -⟩ := facts
    have valid := entries_valid (db.after (writes cmd st (.insertCredit k))) k.id admits same
      (by simp [writes, rowsOf, Db.write]) rfl
    simp only [exec, Choice.guard_healthy healthy, valid.2]
    trivial
  | marshalEvent k =>
    cases here
    simp only [exec, Choice.guard_healthy healthy]
    trivial
  | newEventID k => cases here; exact fresh
  | insertEvent k eventID =>
    cases here
    obtain ⟨⟨st, rfl⟩, -⟩ := facts
    have unused : (db.after (writes cmd st (.insertEvent k eventID))).outbox.any
        (·.eventID == eventID) = false := by
      simpa [writes, rowsOf, Db.write] using going.2
    simp only [exec, Choice.guard_healthy healthy, unused]
    trivial
  | marshalResponse k eventID =>
    cases here
    simp only [exec, Choice.guard_healthy healthy]
    trivial
  | completeKey k eventID =>
    cases here
    obtain ⟨⟨st, rfl⟩, -⟩ := facts
    rw [going_completeKey admits.free healthy]
    trivial
  | executed k eventID => cases here
  | replayed row => cases here
  | failed err => cases here
  | load => exact going.elim

end Phase

/-- An attempt in which nothing fails and every generated id is unused. -/
structure Attempt.Healthy (a : Attempt) (db : Db) : Prop where
  begun : a.beginFault = none
  choices : ∀ n, (a.choice n).fault = none ∧ db.Fresh (a.choice n).uuid
  committed : a.commit = .acknowledged

/-- The closure, run alone without faults on a database that admits its command,
executes it. -/
theorem run_executes {x : Strategy} {cmd : TransferCommand} {db : Db} (admits : db.Admits cmd)
    (fits : Int64Range (db.sum cmd.fromAccountID)) {choice : Nat → Choice}
    (healthy : ∀ n, (choice n).fault = none ∧ db.Fresh (choice n).uuid) (result : TransferResult) :
    ∃ id writes, (transferProg x cmd ⟨cmd.amountCents⟩ result).run (alone db choice) [] 0 =
      ((.ok (), ⟨id, createdResponse id, false⟩), writes) := by
  have start : (.claim : Phase ⟨cmd.amountCents⟩).Facts x cmd db db [] ∧
      (.claim : Phase ⟨cmd.amountCents⟩).Going x cmd db := ⟨⟨⟨⟨0, 0, 0⟩, rfl⟩, trivial⟩, trivial⟩
  obtain ⟨phase, ended, -, going⟩ := (transferProg_follows result).run (alone db choice)
    (fun phase writes => phase.Facts x cmd db db writes ∧ phase.Going x cmd db) start
    fun n _ _ _ here known => ⟨_, rfl, known.1.step here (choice n),
      known.2.step admits rfl fits known.1 here (healthy n).1 (healthy n).2⟩
  obtain ⟨id, finish⟩ := going.outcome ended
  exact ⟨id, _, Prod.ext finish rfl⟩

/-- `Transfer` executes a command that the database admits, through either
executor, when its first attempt meets no fault. -/
theorem transfer_executes (e : Executor) {cmd : TransferCommand} {db : Db} (admits : db.Admits cmd)
    (fits : Int64Range (db.sum cmd.fromAccountID)) {attempts : Nat → Attempt}
    (healthy : (attempts 1).Healthy db) :
    ∃ p : Posting, p.Carries cmd ∧ db.Accepts db p ∧
      transfer e attempts cmd db = (.ok ⟨p.id, createdResponse p.id, false⟩, db.post p) := by
  obtain ⟨id, writes, ran⟩ := run_executes (x := e.strategy) admits fits healthy.choices .empty
  have concluded := run_concluded admits.valid ran
  have ended : ∀ beginText commitText,
      attempt beginText commitText (transferProg e.strategy cmd ⟨cmd.amountCents⟩)
        (attempts 1) .empty db =
        ⟨none, ⟨id, createdResponse id, false⟩, db.after writes⟩ := by
    intro beginText commitText
    simp only [attempt, healthy.begun, ran, healthy.committed]
  generalize outcome :
    (⟨id, createdResponse id, false⟩ : TransferResult) = result at concluded ended
  cases concluded with
  | replayed row stored same completed => rw [admits.free] at stored; cases stored
  | posted p carries accepts =>
    refine ⟨p, carries, accepts, ?_⟩
    rw [Db.after_writes accepts.free] at ended
    cases e with
    | locking => simp only [transfer, admits.valid, Executor.inTx, lockingInTx, ended]
    | serializable maxAttempts =>
      simp only [transfer, admits.valid, Executor.inTx, serializableInTx]
      unfold retryLoop
      simp only [serializableAttempt, ended]

end WalletGo
