import WalletGo.App.Service
import WalletGo.World.Invariant

/-!
Calls through the locking executor are serialisable in commit order.

Every reply a transaction has acted on would be the same on any database that
agrees with the present one on what it has locked (`Phase.replies_stable`), except
that an account it did not find may have been opened since; but then it is going
to fail (`Phase.Doomed`). So at its commit, its whole run is the run it would make
alone on the database of that moment, and replaying the log one call at a time
(`Committed.replay`) arrives at the same rows with the same results.
-/

namespace WalletGo

open Txn (Prog)

namespace Phase

variable {x : Strategy} {cmd : TransferCommand} {amount : Money} {db db' : Db}

/-- The transaction has failed or is bound to: it has missed an account. -/
def Doomed : Phase amount → Prop
  | .failed _ => True
  | .readSecond _ k₁ => k₁ = none
  | .readBalance _ k₁ k₂ => k₁ = none ∨ k₂ = none
  | _ => False

theorem Failed.doomed {phase : Phase amount} (failed : phase.Failed) : phase.Doomed := by
  obtain ⟨err, rfl⟩ := failed
  trivial

theorem Doomed.readBalance {id : UUID} {k₁ k₂ : Option AccountKind}
    (doomed : (.readBalance id k₁ k₂ : Phase amount).Doomed) (reply : Except GoError Int) :
    (afterRead x cmd id ⟨.ok k₁, .ok k₂, reply⟩ : Phase amount).Doomed := by
  refine Failed.doomed (afterRead_failed ?_)
  intro kind₁ kind₂ n same
  cases same
  rcases doomed with missing | missing
  · cases missing
  · cases missing

/-- A transaction that is bound to fail stays so. -/
theorem Doomed.step {phase : Phase amount} (doomed : phase.Doomed) {o : Op}
    (here : phase.op x cmd = some o) (reply : o.Reply) : (phase.next x cmd o reply).Doomed := by
  cases phase with
  | readSecond id k₁ =>
    cases here
    rcases reply with err | k₂
    · exact (afterRead_failed (by simp)).doomed
    · exact .inl doomed
  | readBalance id k₁ k₂ => cases here; exact doomed.readBalance reply
  | failed err => cases here
  | _ => exact doomed.elim

theorem Doomed.outcome {phase : Phase amount} (doomed : phase.Doomed) {result : TransferResult} :
    phase.outcome ≠ some (.ok (), result) := by
  intro ended
  rcases outcome_ok ended with ⟨k, eventID, rfl, -⟩ | ⟨row, rfl, -⟩
  · exact doomed
  · exact doomed

end Phase

/-! ### Replies that locks protect -/

theorem Choice.guard_congr {c : Choice} {β : Type} {first second : Except GoError β × List Write}
    (same : c.fault = none → first = second) : c.guard first = c.guard second := by
  unfold Choice.guard
  split
  · rfl
  · next healthy => exact same healthy

namespace Phase

variable {cmd : TransferCommand} {amount : Money} {db db' : Db} {c : Choice} {made : List Write}

/-- The claim of a locked key gives the same on any database that agrees on it. -/
theorem claim_stable (agrees : Db.Agrees ((Op.claimKey cmd.key cmd.fingerprint).acquires
      (exec c db db (.claimKey cmd.key cmd.fingerprint)).1) db db') :
    exec c db' db' (.claimKey cmd.key cmd.fingerprint) =
      exec c db db (.claimKey cmd.key cmd.fingerprint) := by
  refine Choice.guard_congr fun healthy => ?_
  cases stored : db.keyRow cmd.key with
  | some row => simp [claimOutcome, stored, agrees.keyRow stored]
  | none =>
    have claimed : (exec c db db (.claimKey cmd.key cmd.fingerprint)).1 = .ok 1 := by
      simp [exec, Choice.guard_healthy healthy, claimOutcome, stored]
    rw [claimed] at agrees
    have absent := (agrees.keyRow_eq (List.mem_singleton.mpr rfl)).trans stored
    simp [claimOutcome, stored, absent]

/-- A row that is found is found later too. -/
theorem select_stable {held : List Lock} (agrees : Db.Agrees held db db') (id : UUID)
    (forUpdate : Bool) (unchanged : ∀ db : Db, (db.after made).kindOf id = db.kindOf id) :
    (∃ err, exec c (db.after made) (db.after made) (.selectKind id forUpdate) = (.error err, [])) ∨
      exec c (db.after made) (db.after made) (.selectKind id forUpdate) = (.ok none, []) ∨
      exec c (db'.after made) (db'.after made) (.selectKind id forUpdate) =
        exec c (db.after made) (db.after made) (.selectKind id forUpdate) := by
  rcases exec_selectKind c (db.after made) (db.after made) id forUpdate with failed | replied
  · exact .inl failed
  cases found : db.kindOf id with
  | none =>
    rw [unchanged, found] at replied
    exact .inr (.inl replied)
  | some kind =>
    refine .inr (.inr ?_)
    simp only [exec, unchanged, found, agrees.kindOf found]

/-- An insert that met no violation meets none later either. -/
theorem insert_stable {violation violation' : Option GoError} {row : Write}
    (valid : violation = none) (still : violation' = none) :
    c.guard (insertUnless violation' row) = c.guard (insertUnless violation row) := by
  rw [valid, still]

/-- So does the insert of a transfer whose identifier is locked. -/
theorem insertTransfer_stable {held : List Lock} (agrees : Db.Agrees held db db') {id : UUID}
    (locked : (.transfer id, .exclusive) ∈ held)
    (accounts : ∀ (db : Db) id, (db.after made).kindOf id = db.kindOf id)
    (transfers : ∀ db : Db, (db.after made).transfers = db.transfers) {source target : UUID}
    {amountCents : Int64}
    (valid : (db.after made).transferViolation id source target amountCents = none) :
    (db'.after made).transferViolation id source target amountCents = none := by
  rw [Db.transferViolation_eq_none, transfers, accounts, accounts] at valid ⊢
  obtain ⟨positive, distinct, fresh, sourceKnown, targetKnown⟩ := valid
  exact ⟨positive, distinct, fun present => fresh (agrees.transfer locked present),
    agrees.known sourceKnown, agrees.known targetKnown⟩

theorem insertEntry_stable {held : List Lock} (agrees : Db.Agrees held db db') (id account : UUID)
    (amountCents : Int64) (accounts : ∀ (db : Db) id, (db.after made).kindOf id = db.kindOf id)
    (inserted : ∀ db : Db, id ∈ (db.after made).transfers.map (·.id)) :
    (∃ err, exec c (db.after made) (db.after made) (.insertEntry id account amountCents) =
        (.error err, [])) ∨
      exec c (db'.after made) (db'.after made) (.insertEntry id account amountCents) =
        exec c (db.after made) (db.after made) (.insertEntry id account amountCents) := by
  rcases exec_insertEntry c (db.after made) (db.after made) id account amountCents with
    failed | ⟨valid, -⟩
  · exact .inl failed
  have still : (db'.after made).entryViolation id account amountCents = none := by
    rw [Db.entryViolation_eq_none, accounts] at valid ⊢
    exact ⟨valid.1, inserted db', agrees.known valid.2.2⟩
  exact .inr (insert_stable valid still)

/-- So does the completion of the key. -/
theorem completeKey_stable {held : List Lock} (agrees : Db.Agrees held db db')
    (locked : (.key cmd.key, .exclusive) ∈ held) (st : Stamps) (k : Checked amount)
    (eventID : UUID) : let made := writes cmd st (.completeKey k eventID)
    exec c (db'.after made) (db'.after made)
        (.completeKey cmd.key statusTransferCreated (some ⟨k.id⟩) k.id) =
      exec c (db.after made) (db.after made)
        (.completeKey cmd.key statusTransferCreated (some ⟨k.id⟩) k.id) := by
  intro made
  have taken : ∀ db : Db, (db.after made).keys.any (·.key == cmd.key) = true := by
    intro db
    simp [made, writes, rowsOf, Db.write]
  have inserted : ∀ db : Db, (db.after made).transfers.any (·.id == k.id) = true := by
    intro db
    simp [made, writes, rowsOf, Db.write]
  have counted : (db'.after made).keys.countP (·.key == cmd.key) =
      (db.after made).keys.countP (·.key == cmd.key) := by
    simp [made, writes, rowsOf, Db.write, agrees.countP_eq locked]
  simp only [exec, completeOutcome, taken, inserted, counted]

/-- The reply to an operation is the one any database would give that agrees on
what is locked afterwards, unless it dooms the transaction. -/
theorem replies_stable {x : Strategy} (locking : x = .locking) {phase : Phase amount} {o : Op}
    (here : phase.op x cmd = some o) (facts : phase.Facts x cmd db db made)
    (agrees : Db.Agrees (phase.held x cmd ++ o.acquires
      (exec c (db.after made) (db.after made) o).1) db db') :
    (phase.next x cmd o (exec c (db.after made) (db.after made) o).1).Doomed ∨
      exec c (db'.after made) (db'.after made) o = exec c (db.after made) (db.after made) o := by
  subst locking
  cases phase with
  | claim =>
    cases here
    obtain ⟨⟨st, rfl⟩, -⟩ := facts
    exact .inr (claim_stable agrees)
  | load =>
    cases here
    obtain ⟨⟨st, rfl⟩, present⟩ := facts
    obtain ⟨row, found⟩ := Option.isSome_iff_exists.mp present
    refine .inr ?_
    change c.guard (.ok (db'.keyRow cmd.key), []) = c.guard (.ok (db.keyRow cmd.key), [])
    rw [found, agrees.keyRow found]
  | newTransferID => cases here; exact .inr rfl
  | readFirst id =>
    cases here
    obtain ⟨⟨st, rfl⟩, -⟩ := facts
    have unchanged : ∀ (db : Db) account,
        (db.after (writes cmd st (.readFirst id : Phase amount))).kindOf account =
        db.kindOf account :=
      fun _ _ => rfl
    rcases select_stable agrees (readOrder .locking cmd).1 Strategy.locking.forUpdate
      (unchanged · _) with ⟨err, failed⟩ | absent | same
    · rw [failed]
      have failed :
          (afterRead .locking cmd id ⟨.error err, .error err, .error err⟩ : Phase amount).Failed :=
        afterRead_failed (by simp)
      exact .inl failed.doomed
    · rw [absent]
      exact .inl rfl
    · exact .inr same
  | readSecond id k₁ =>
    cases here
    obtain ⟨⟨st, rfl⟩, -⟩ := facts
    have unchanged : ∀ (db : Db) account,
        (db.after (writes cmd st (.readSecond id k₁ : Phase amount))).kindOf account =
        db.kindOf account :=
      fun _ _ => rfl
    rcases select_stable agrees (readOrder .locking cmd).2 Strategy.locking.forUpdate
      (unchanged · _) with ⟨err, failed⟩ | absent | same
    · rw [failed]
      exact .inl (afterRead_failed (by simp)).doomed
    · rw [absent]
      exact .inl (.inr rfl)
    · exact .inr same
  | readBalance id k₁ k₂ =>
    cases here
    obtain ⟨⟨st, rfl⟩, -⟩ := facts
    rcases k₁ with _ | kind₁
    · have doomed : (.readBalance id none k₂ : Phase amount).Doomed := .inl rfl
      exact .inl (doomed.step rfl _)
    rcases k₂ with _ | kind₂
    · have doomed : (.readBalance id (some kind₁) none : Phase amount).Doomed := .inr rfl
      exact .inl (doomed.step rfl _)
    have locked : (.account cmd.fromAccountID, .exclusive) ∈ accountLocks .locking cmd :=
      source_mem_accountLocks
    refine .inr ?_
    change c.guard (.ok (db'.sum cmd.fromAccountID), []) =
      c.guard (.ok (db.sum cmd.fromAccountID), [])
    rw [agrees.sum (List.mem_append_left _ locked)]
  | closeBatch id kind balance => cases here; exact .inr rfl
  | insertTransfer k =>
    cases here
    obtain ⟨⟨st, rfl⟩, -⟩ := facts
    rcases exec_insertTransfer c (db.after (writes cmd st (.insertTransfer k)))
        (db.after (writes cmd st (.insertTransfer k))) k.id cmd.fromAccountID
        cmd.toAccountID amount.cents
      with ⟨err, failed⟩ | ⟨valid, replied⟩
    · rw [failed]
      exact .inl trivial
    · rw [replied] at agrees
      refine .inr
        (insert_stable valid (insertTransfer_stable agrees ?_ (fun _ _ => rfl)
          (fun _ => rfl) valid))
      simp [Op.acquires, Op.locks]
  | insertDebit k =>
    cases here
    obtain ⟨⟨st, rfl⟩, -⟩ := facts
    have inserted : ∀ db : Db,
        k.id ∈ (db.after (writes cmd st (.insertDebit k))).transfers.map (·.id) := by
      simp [writes, rowsOf, Db.write]
    rcases insertEntry_stable agrees k.id cmd.fromAccountID (-amount.cents)
      (fun _ _ => rfl) inserted
      with ⟨err, failed⟩ | same
    · rw [failed]
      exact .inl trivial
    · exact .inr same
  | insertCredit k =>
    cases here
    obtain ⟨⟨st, rfl⟩, -⟩ := facts
    have inserted : ∀ db : Db,
        k.id ∈ (db.after (writes cmd st (.insertCredit k))).transfers.map (·.id) := by
      simp [writes, rowsOf, Db.write]
    rcases insertEntry_stable agrees k.id cmd.toAccountID amount.cents (fun _ _ => rfl) inserted
      with ⟨err, failed⟩ | same
    · rw [failed]
      exact .inl trivial
    · exact .inr same
  | marshalEvent k => cases here; exact .inr rfl
  | newEventID k => cases here; exact .inr rfl
  | insertEvent k eventID =>
    cases here
    obtain ⟨⟨st, rfl⟩, -⟩ := facts
    rcases exec_insertEvent c (db.after (writes cmd st (.insertEvent k eventID)))
        (db.after (writes cmd st (.insertEvent k eventID))) eventID "transfer.completed"
        (cmd.payload amount k.id) with ⟨err, failed⟩ | ⟨fresh, replied⟩
    · rw [failed]
      exact .inl trivial
    · rw [replied] at agrees
      have still :
          eventID ∉ (db'.after (writes cmd st (.insertEvent k eventID))).outbox.map (·.eventID) :=
        fun present => fresh (agrees.event (by simp [Op.acquires, Op.locks]) present)
      refine .inr (insert_stable ?_ ?_)
      · exact if_neg (by simpa using fresh)
      · exact if_neg (by simpa using still)
  | marshalResponse k eventID => cases here; exact .inr rfl
  | completeKey k eventID =>
    cases here
    obtain ⟨⟨st, rfl⟩, -⟩ := facts
    refine .inr (completeKey_stable agrees ?_ st k eventID)
    simp [held, entryLocks, transferLocks, accountLocks, Op.locks]
  | executed k eventID => cases here
  | replayed row => cases here
  | failed err => cases here

end Phase

/-! ### One transaction -/

/-- What the environment decided about the `n`-th operation. -/
def OpenTx.choice (tx : OpenTx) (n : Nat) : Choice := tx.choices[n]?.getD default

/-- The transaction has got where it would have got alone on `db`. -/
def OpenTx.RunsAlone (tx : OpenTx) (call : Call) (db : Db) : Prop :=
  Prog.Steps (alone db tx.choice) (transferProg call.strategy call.cmd call.amount .empty) []
    tx.choices.length tx.prog tx.writes

/-- The transaction would have got where it is on any database that agrees with
the present one on what it has locked. -/
structure Replayable (w : World) (i : Nat) (call : Call) (tx : OpenTx) (phase : Phase call.amount) :
    Prop where
  inv : TxInv w i call tx phase
  alone : phase.Doomed ∨ ∀ db', Db.Agrees (w.heldBy i) w.db db' → tx.RunsAlone call db'

/-- One operation further, alone as among the others. -/
theorem OpenTx.RunsAlone.advance {tx : OpenTx} {call : Call} {db db' : Db}
    (runs : tx.RunsAlone call db') {o : Op}
    {next : o.Reply → Prog sql (Except GoError Unit × TransferResult)} (prog : tx.prog = .op o next)
    {c : Choice} (now : Nat)
    (same : exec c (db'.after tx.writes) (db'.after tx.writes) o = tx.answer call.strategy db c o) :
    (tx.advance call.strategy db now o next c).RunsAlone call db' := by
  have before : Prog.Steps (WalletGo.alone db' (tx.advance call.strategy db now o next c).choice)
      (transferProg call.strategy call.cmd call.amount .empty) [] tx.choices.length (.op o next)
      tx.writes := by
    rw [← prog]
    refine runs.congr fun m earlier writes o => ?_
    simp only [WalletGo.alone, OpenTx.choice, OpenTx.advance]
    rw [List.getElem?_append_left earlier]
  have here : WalletGo.alone db' (tx.advance call.strategy db now o next c).choice tx.choices.length
      tx.writes o = ((tx.answer call.strategy db c o).1,
        tx.writes ++ (tx.answer call.strategy db c o).2) := by
    simp [WalletGo.alone, OpenTx.choice, OpenTx.advance, same]
  have after := before.next
  rw [here] at after
  unfold OpenTx.RunsAlone
  simpa [OpenTx.advance] using after

namespace Replayable

variable {w w' : World} {i : Nat} {call : Call} {tx : OpenTx} {phase : Phase call.amount}

/-- The acts of others, which the locks allow, leave a transaction replayable. -/
theorem stable (replayable : Replayable w i call tx phase) (kept : w'.heldBy i = w.heldBy i)
    (grown : w.db.Extends w'.db) (agrees : Db.Agrees (w.heldBy i) w.db w'.db) :
    Replayable w' i call tx phase where
  inv := replayable.inv.stable kept grown agrees
  alone := by
    rcases replayable.alone with doomed | alone
    · exact .inl doomed
    · refine .inr fun db' later => alone db' (agrees.trans ?_)
      rwa [kept] at later

theorem begun (result : TransferResult) (none : w.heldBy i = []) :
    Replayable w i call (.begun call result) .claim where
  inv := World.begun_inv result none
  alone := .inr fun _ _ => .refl

/-- One operation further a transaction can still be replayed. -/
theorem performed (replayable : Replayable w i call tx phase) (locking : call.strategy = .locking)
    (attempt : Nat) {o : Op} {next : o.Reply → Prog sql (Except GoError Unit × TransferResult)}
    (prog : tx.prog = .op o next) (c : Choice) :
    Replayable (w.performed i call attempt tx o next c) i call
      (tx.advance call.strategy w.db w.log.length o next c)
      (phase.next call.strategy call.cmd o (tx.answer call.strategy w.db c o).1) where
  inv := replayable.inv.performed attempt prog c
  alone := by
    have follows := replayable.inv.follows
    rw [prog] at follows
    have here := follows.1
    rcases replayable.alone with doomed | alone
    · exact .inl (doomed.step here _)
    by_cases doomed :
      (phase.next call.strategy call.cmd o (tx.answer call.strategy w.db c o).1).Doomed
    · exact .inl doomed
    refine .inr fun db' agrees => ?_
    rw [show (w.performed i call attempt tx o next c).heldBy i = _ from World.heldBy_append_self _]
      at agrees
    refine (alone db' (agrees.mono (List.subset_append_left _ _))).advance prog w.log.length ?_
    have base : tx.base call.strategy w.db = w.db := by rw [locking, OpenTx.base_locking]
    have facts := replayable.inv.facts
    rcases replayable.inv.held with ⟨err, rfl⟩ | held
    · cases here
    rw [held] at agrees
    simp only [OpenTx.answer, base] at agrees doomed facts ⊢
    exact (Phase.replies_stable locking here facts agrees).resolve_left doomed

end Replayable

/-! ### Whole runs -/

/-- One commit, made again by a call that has the database to itself. -/
def Committed.replay (db : Db) : Committed → Option Db
  | .account a => if (db.accountViolation a).isSome then none else some (db.addAccount a)
  | .call _ c tx result =>
    match transfer c.executor (fun _ => ⟨none, tx.choice, .acknowledged, none⟩) c.cmd db with
    | (.ok result', db') => if result' = result then some db' else none
    | (.error _, _) => none

/-- A transaction that is ready to commit is what its call alone would do now. -/
theorem Replayable.replay {w : World} {i : Nat} {call : Call} {tx : OpenTx}
    {phase : Phase call.amount} (replayable : Replayable w i call tx phase)
    (locking : call.executor = .locking) {result : TransferResult}
    (prog : tx.prog = .ret (.ok (), result)) :
    Committed.replay w.db (.call i call tx result) = some (w.db.after tx.writes) := by
  have ended := replayable.inv.follows
  rw [prog] at ended
  have runs : tx.RunsAlone call w.db := by
    rcases replayable.alone with doomed | alone
    · exact absurd ended doomed.outcome
    · exact alone w.db (.refl _ _)
  rw [OpenTx.RunsAlone, prog] at runs
  have ran := runs.run_eq_ret
  have transferred :
      transfer call.executor (fun _ => ⟨none, tx.choice, .acknowledged, none⟩) call.cmd
      w.db = (.ok result, w.db.after tx.writes) := by
    rw [Call.strategy, locking] at ran
    simp only [transfer, call.valid, locking, Executor.inTx, lockingInTx, attempt, ran]
  simp only [Committed.replay, transferred, if_true]

/-- The world has got where the replay of its log gets from `origin`. -/
structure World.Serial (origin : Db) (w : World) : Prop where
  inv : w.Inv
  locking : w.Uses (· = .locking)
  running : ∀ {i call attempt tx}, w.sessions i = .running call attempt tx →
    ∃ phase, Replayable w i call tx phase
  replay : Txn.runs Committed.replay origin w.log = some w.db

namespace World

variable {origin : Db} {w w' : World} {a : Act}

theorem Serial.init (origin : Db) : (World.init origin).Serial origin where
  inv := .init origin
  locking := by rintro i call ⟨⟩
  running was := nomatch was
  replay := rfl

/-- Every act leaves the open transactions replayable. -/
theorem Move.replayable (move : w.Move a w') (serial : w.Serial origin) {i : Nat} {call : Call}
    {attempt : Nat} {tx : OpenTx} (now : w'.sessions i = .running call attempt tx) :
    ∃ phase, Replayable w' i call tx phase := by
  refine move.running Replayable serial.inv serial.running (fun none => .begun _ none) ?_ ?_ now
  · rintro i c call attempt tx phase o next - was prog - rfl replayable
    have locking : call.executor = .locking := serial.locking i call (by rw [was]; rfl)
    exact replayable.performed (by rw [Call.strategy, locking]; rfl) attempt prog c
  · intro j call tx phase other replayable
    obtain ⟨kept, agrees⟩ := move.undisturbed serial.inv other
    exact replayable.stable kept (move.extends' serial.inv) agrees

/-- One act of a locking executor. -/
theorem Move.serial (move : w.Move a w') (allowed : a.Uses (· = .locking))
    (serial : w.Serial origin) : w'.Serial origin where
  inv := move.inv serial.inv
  locking := move.uses allowed serial.locking
  running now := move.replayable serial now
  replay := by
    cases move with
    | commits i outcome call attempt tx result s was prog allowed ends =>
      obtain ⟨phase, replayable⟩ := serial.running was
      have locking : call.executor = .locking := serial.locking i call (by rw [was]; rfl)
      refine Txn.runs_append_iff.mpr ⟨w.db, serial.replay, Txn.runs_cons_iff.mpr ⟨_, ?_, rfl⟩⟩
      exact replayable.replay locking prog
    | opens b valid =>
      refine Txn.runs_append_iff.mpr ⟨w.db, serial.replay, Txn.runs_cons_iff.mpr ⟨_, ?_, rfl⟩⟩
      simp [Committed.replay, valid]
    | _ => exact serial.replay

/-- Who has been told of success has committed, and who has committed has been
told, or has lost the acknowledgement. -/
structure Told (w : World) : Prop where
  committed : ∀ i cmd r, w.sessions i = .returned cmd (.ok r) →
    ∃ call tx, call.cmd = cmd ∧ .call i call tx r ∈ w.log
  told : ∀ i call tx r, .call i call tx r ∈ w.log → w.sessions i = .returned call.cmd (.ok r) ∨
    ∃ err, w.sessions i = .returned call.cmd (.error (.wrap "postgres: commit tx" err))

/-- Success is reported to those that have committed, and to nobody else. -/
theorem Told.step (told : w.Told) (locking : w.Uses (· = .locking)) (stepped : w.step a = some w') :
    w'.Told := by
  have move := step_move stepped
  constructor
  · intro i cmd r now
    by_cases mine : a.session = some i
    · obtain ⟨call, tx, same, log⟩ := move.reported mine now
      exact ⟨call, tx, same, by simp [log]⟩
    · rw [move.sessions_other mine] at now
      obtain ⟨call, tx, same, mem⟩ := told.committed i cmd r now
      exact ⟨call, tx, same, move.log_prefix.subset mem⟩
  · intro i call tx r mem
    rcases move.logged mem with old | ⟨attempt, was, -, acknowledged | ⟨err, lost⟩⟩
    · have returned := told.told i call tx r old
      have other : a.session ≠ some i := by
        intro mine
        rcases returned with was | ⟨err, was⟩
        · exact step_live mine stepped (by rw [was]; trivial)
        · exact step_live mine stepped (by rw [was]; trivial)
      rwa [move.sessions_other other]
    · exact .inl acknowledged
    · have executor : call.executor = .locking := locking i call (by rw [was]; rfl)
      refine .inr ⟨err, lost.trans ?_⟩
      simp [Call.afterError, Call.strategy, executor, Executor.strategy, Strategy.commitText]

end World

/-- Calls through the locking executor, interleaved statement by statement in any
way, are serialisable in commit order. In every state reached, the tables are
what running the commits of the log one at a time makes of the initial ones, each
with the result it had; whoever was told of success is in the log with that
result, and whoever is in the log was told so, or lost the acknowledgement. -/
theorem locking_serialisable {origin : Db} {acts : List Act} {w : World}
    (locking : ∀ a ∈ acts, a.Uses (· = .locking))
    (ran : Txn.runs World.step (.init origin) acts = some w) :
    Txn.runs Committed.replay origin w.log = some w.db ∧
    (∀ i cmd r, w.sessions i = .returned cmd (.ok r) →
      ∃ call tx, call.cmd = cmd ∧ .call i call tx r ∈ w.log) ∧
    ∀ i call tx r, .call i call tx r ∈ w.log → w.sessions i = .returned call.cmd (.ok r) ∨
      ∃ err, w.sessions i = .returned call.cmd (.error (.wrap "postgres: commit tx" err)) := by
  have initially : (World.init origin).Serial origin ∧ (World.init origin).Told :=
    ⟨.init origin, by rintro i cmd r ⟨⟩, by rintro i call tx r ⟨⟩⟩
  obtain ⟨serial, told⟩ := Txn.runs_admissible (Act.Uses (· = .locking))
    (fun w : World => w.Serial origin ∧ w.Told)
    (fun allowed known stepped => ⟨(World.step_move stepped).serial allowed known.1,
      known.2.step known.1.locking stepped⟩) locking initially ran
  exact ⟨serial.replay, told.committed, told.told⟩

namespace InTurn

open Scenario

def vault : UUID := .ofByte 4

/-- Two deposits, statement by statement in turn; the second to start commits first. -/
def acts : List Act :=
  opened ++
  [.openAccount ⟨vault, "vault", .system, "BRL"⟩,
    .start 0 .locking (command "first" systemID alice),
    .start 1 .locking (command "second" vault bob), .begin 0 none, .begin 1 none] ++
  (List.range 14).flatMap (fun n => [.perform 0 ⟨none, .ofByte 5, 2 * n + 1, n⟩,
    .perform 1 ⟨none, .ofByte 6, 2 * n + 2, n⟩]) ++
  [.commit 1 .acknowledged, .commit 0 .acknowledged]

end InTurn

open Scenario InTurn in
/-- Six commits, whose replay in this order gives the same database. -/
theorem locking_serialisable_in_turn :
    ∃ w, Txn.runs World.step (.init .empty) acts = some w ∧ w.log.length = 6 ∧
      Txn.runs Committed.replay .empty w.log = some w.db := by
  have both : ((Txn.runs World.step (.init .empty) acts).map fun w => w.log.length) = some 6 := by
    decide +kernel
  have locking : ∀ a ∈ acts, a.Uses (· = .locking) := by
    intro a mem
    cases a with
    | start i executor cmd =>
      have started : i = 0 ∧ executor = .locking ∧ cmd = command "first" systemID alice ∨
          i = 1 ∧ executor = .locking ∧ cmd = command "second" vault bob := by
        simpa [acts, opened] using mem
      rcases started with ⟨-, same, -⟩ | ⟨-, same, -⟩
      · exact same
      · exact same
    | _ => trivial
  obtain ⟨w, ran, length⟩ := Option.map_eq_some_iff.mp both
  exact ⟨w, ran, length, (locking_serialisable locking ran).1⟩

end WalletGo
