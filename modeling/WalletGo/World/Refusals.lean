import WalletGo.Ledger.Wallet
import WalletGo.Txn.Linear
import WalletGo.World.InFlight
import WalletGo.World.Mixed
import WalletGo.World.Reported

/-!
Nobody is refused without a reason.

A transaction that is bound to be refused (`Phase.refusal`) is refused for what it has read,
and what it has read were the committed rows at an act of its own: at the one that brought
the verdict through the locking executor, at the one that took the snapshot through the
serializable one. So the rows its session has seen stand for a wallet that has nothing else
to say to its command (`World.Judges`).
-/

namespace WalletGo

open Txn (Prog Passes)

namespace Phase

variable {x : Strategy} {cmd : TransferCommand} {amount : Money}

/-- The refusal that the transaction is bound to end with. -/
def refusal : Phase amount → Option GoError
  | .failed err => if err.refusal then some err else none
  | .readSecond _ none => some .errAccountNotFound
  | .readBalance _ none _ => some .errAccountNotFound
  | .readBalance _ _ none => some .errAccountNotFound
  | _ => none

theorem refusal_failed {err : GoError} (refusal : err.refusal = true) :
    (.failed err : Phase amount).refusal = some err := if_pos refusal

/-- Errors of statements are wrapped, and then no refusals. -/
theorem refusal_orFail {text : String} {phase : Phase amount} (calm : phase.refusal = none)
    (reply : Except GoError Unit) : (orFail text phase reply).refusal = none := by
  rcases reply with err | ⟨⟩
  · rfl
  · exact calm

/-- Once bound to be refused, always so. -/
theorem refusal_kept {phase : Phase amount} {err : GoError}
    (bound : phase.refusal = some err) {o : Op} (here : phase.op x cmd = some o) (reply : o.Reply) :
    (phase.next x cmd o reply).refusal = some err := by
  cases phase with
  | readSecond id k₁ =>
    cases here
    rcases k₁ with _ | k₁
    · rcases reply with failed | k₂
      · exact bound
      · exact bound
    · cases bound
  | readBalance id k₁ k₂ =>
    cases here
    rcases k₁ with _ | k₁
    · exact bound
    · rcases k₂ with _ | k₂
      · exact bound
      · cases bound
  | failed err => cases here
  | _ => cases bound

/-- A fault that is not about a missing row is not taken for one. -/
theorem afterRead_unread {id : UUID} {err : GoError} (driver : err.is .noRows = false)
    (second : Except GoError (Option AccountKind)) (balance : Except GoError Int) :
    (afterRead x cmd id ⟨.error err, second, balance⟩ : Phase amount).refusal = none := by
  simp only [afterRead, scanReplies, scanKind, driver, bind, Except.bind]
  rfl

theorem afterRead_unread_second {id : UUID} {k₁ : AccountKind} {err : GoError}
    (driver : err.is .noRows = false) (balance : Except GoError Int) :
    (afterRead x cmd id ⟨.ok (some k₁), .error err, balance⟩ : Phase amount).refusal = none := by
  simp only [afterRead, scanReplies, scanKind, driver, bind, Except.bind]
  rfl

theorem afterRead_found (id : UUID) (k₁ k₂ : AccountKind) (balance : Except GoError Int) :
    (afterRead x cmd id ⟨.ok (some k₁), .ok (some k₂), balance⟩ : Phase amount).refusal = none := by
  rcases balance with err | n
  · rfl
  · by_cases fits : Int64Range n
    · rw [afterRead_ok x cmd amount id k₁ k₂ fits]
      rfl
    · simp only [afterRead, scanReplies, scanKind, scanInt64, fits, if_false, bind, Except.bind]
      rfl

/-- A phase whose operation tells nothing about the rows that the wallet decides by. -/
def Neutral : Phase amount → Prop
  | .load | .readFirst _ | .readSecond .. | .closeBatch .. => False
  | _ => True

/-- An operation that tells nothing leads to no refusal. -/
theorem Neutral.next {phase : Phase amount} (neutral : phase.Neutral)
    (open' : phase.refusal = none) {o : Op} (here : phase.op x cmd = some o) (reply : o.Reply) :
    (phase.next x cmd o reply).refusal = none := by
  cases phase with
  | claim =>
    cases here
    rcases reply with failed | rows
    · rfl
    · simp only [Phase.next]
      split <;> rfl
  | newTransferID => cases here; rfl
  | readBalance id k₁ k₂ =>
    cases here
    rcases k₁ with _ | k₁
    · cases open'
    rcases k₂ with _ | k₂
    · cases open'
    exact afterRead_found id k₁ k₂ reply
  | insertTransfer k => cases here; exact refusal_orFail rfl reply
  | insertDebit k => cases here; exact refusal_orFail rfl reply
  | insertCredit k => cases here; exact refusal_orFail rfl reply
  | marshalEvent k => cases here; exact refusal_orFail rfl reply
  | newEventID k => cases here; rfl
  | insertEvent k eventID => cases here; exact refusal_orFail rfl reply
  | marshalResponse k eventID => cases here; exact refusal_orFail rfl reply
  | completeKey k eventID =>
    cases here
    rcases reply with failed | rows
    · rfl
    · simp only [Phase.next]
      split <;> rfl
  | executed k eventID => cases here
  | replayed row => cases here
  | failed err => cases here
  | _ => exact neutral.elim

section Due

variable {base db : Db} {made : List Write} {c : Choice} {err : GoError}

/-- A fault of a statement is not about a missing row, if none from outside is. -/
theorem select_driver (genuine : ∀ err, c.fault = some err → err.is .noRows = false)
    {visible latest : Db} {id : UUID} {forUpdate : Bool}
    (failed : exec c visible latest (.selectKind id forUpdate) = (.error err, [])) :
    err.is .noRows = false := by
  have replied :
      Op.replyError (.selectKind id forUpdate)
      (exec c visible latest (.selectKind id forUpdate)).1 =
      some err := by rw [failed]; rfl
  rcases exec_replyError replied with fault | ⟨code, message, rfl, -⟩
  · exact genuine err fault
  · rfl

/-- A key that is free now was free before. -/
theorem free_before (older : base.Extends db) (free : db.keyRow cmd.key = none) :
    base.keyRow cmd.key = none := by
  cases stored : base.keyRow cmd.key with
  | none => rfl
  | some row =>
    rw [older.keyRow stored] at free
    cases free

theorem missing_of_order {missed : UUID} (among : missed = (readOrder x cmd).1 ∨
      missed = (readOrder x cmd).2)
    (unknown : base.kindOf missed = none) :
    base.kindOf cmd.fromAccountID = none ∨ base.kindOf cmd.toAccountID = none := by
  rcases readOrder_cases x cmd with order | order
  · rw [order] at among
    rcases among with rfl | rfl
    · exact .inl unknown
    · exact .inr unknown
  · rw [order] at among
    rcases among with rfl | rfl
    · exact .inr unknown
    · exact .inl unknown

/-- A transaction becomes bound to be refused by an operation whose reply shows that the
wallet, as the transaction sees it, refuses its command. -/
theorem refusal_due (genuine : ∀ err, c.fault = some err → err.is .noRows = false)
    (valid : validate cmd = .ok amount) (older : base.Extends db) {phase : Phase amount}
    (facts : phase.Facts x cmd base db made) {o : Op} (here : phase.op x cmd = some o)
    (open' : phase.refusal = none)
    (now : (phase.next x cmd o (exec c (base.after made) (db.after made) o).1).refusal = some err) :
    base.wallet.verdict cmd = .error err := by
  by_cases neutral : phase.Neutral
  · cases (neutral.next open' here _).symm.trans now
  cases phase with
  | load =>
    cases here
    obtain ⟨⟨st, rfl⟩, present⟩ := facts
    obtain ⟨row, stored⟩ := Option.isSome_iff_exists.mp present
    rcases exec_loadKey c base db cmd.key with ⟨failed, same⟩ | same
    · simp only [writes, Db.after_nil, same] at now
      cases now
    · simp only [writes, Db.after_nil, same, stored, next, afterLoad] at now
      split at now
      · next other =>
        cases now
        rw [verdict_taken valid stored, if_neg other]
      · split at now
        · cases now
        · cases now
  | readFirst id =>
    cases here
    obtain ⟨⟨st, rfl⟩, free⟩ := facts
    rcases exec_selectKind c (base.after (writes cmd st (.readFirst id : Phase amount)))
        (db.after (writes cmd st (.readFirst id : Phase amount))) (readOrder x cmd).1
        x.forUpdate with
      ⟨failed, same⟩ | same
    · rw [same] at now
      have unread :
        (afterRead x cmd id ⟨.error failed, .error failed, .error failed⟩ : Phase amount).refusal =
        some err := now
      rw [afterRead_unread (select_driver genuine same)] at unread
      cases unread
    · rw [same] at now
      have found :
        (.readSecond id (base.kindOf (readOrder x cmd).1) : Phase amount).refusal = some err := now
      cases unknown : base.kindOf (readOrder x cmd).1 with
      | some kind =>
        rw [unknown] at found
        cases found
      | none =>
        rw [unknown] at found
        cases found
        exact verdict_missing valid (free_before older free)
          (missing_of_order (x := x) (.inl rfl) unknown)
  | readSecond id k₁ =>
    cases here
    obtain ⟨⟨st, rfl⟩, free, -⟩ := facts
    rcases k₁ with _ | k₁
    · cases open'
    rcases exec_selectKind c (base.after (writes cmd st (.readSecond id (some k₁) : Phase amount)))
        (db.after (writes cmd st (.readSecond id (some k₁) : Phase amount))) (readOrder x cmd).2
        x.forUpdate with
      ⟨failed, same⟩ | same
    · rw [same] at now
      have unread :
        (afterRead x cmd id ⟨.ok (some k₁), .error failed, .error failed⟩ : Phase amount).refusal =
        some err := now
      rw [afterRead_unread_second (select_driver genuine same)] at unread
      cases unread
    · rw [same] at now
      have found :
          (.readBalance id (some k₁) (base.kindOf (readOrder x cmd).2) : Phase amount).refusal =
          some err :=
        now
      cases unknown : base.kindOf (readOrder x cmd).2 with
      | some kind =>
        rw [unknown] at found
        cases found
      | none =>
        rw [unknown] at found
        cases found
        exact verdict_missing valid (free_before older free)
          (missing_of_order (x := x) (.inr rfl) unknown)
  | closeBatch id kind balance =>
    cases here
    obtain ⟨-, free, read⟩ := facts
    rcases exec_closeBatch c (base.after made) (db.after made) with ⟨failed, same⟩ | same
    · rw [same] at now
      cases now
    rw [same] at now
    have checked : (afterCheck id kind balance : Phase amount).refusal = some err := now
    cases check : canDebit (newMoney balance) amount kind with
    | none =>
      rw [afterCheck_allowed id check] at checked
      cases checked
    | some reason =>
      have refused : reason.refusal = true := by
        rcases canDebit_error check with rfl | rfl <;> rfl
      rw [afterCheck_refused id check, refusal_failed refused] at checked
      cases checked
      rw [verdict_known valid (free_before older free) (by rw [read.source]; rfl) read.target,
        funds_refused valid read.source read.sum check]
      rfl
  | _ => exact absurd trivial neutral

end Due

end Phase

/-! ### What a session has seen -/

/-- What comes from outside is none of the wallet's own errors, and does not say that a row
is missing: a scan finds that by itself. -/
def Act.Outside (a : Act) : Prop :=
  ∀ err, a.injects = some err → err.foreign = true ∧ err.is .noRows = false

theorem GoError.not_refusal_of_foreign {err : GoError} (foreign : err.foreign = true) :
    err.refusal = false := by
  cases err <;> first | rfl | cases foreign

/-- The tables were committed when session `i` made one of the acts. -/
def World.Saw (origin : World) (acts : List Act) (i : Nat) (db : Db) : Prop :=
  ∃ v a, Passes World.step origin acts v a ∧ a.session = some i ∧ v.db = db

namespace World

variable {origin w w' : World} {acts : List Act} {a : Act} {i : Nat} {db : Db}

theorem Saw.append (saw : Saw origin acts i db) (more : List Act) :
    Saw origin (acts ++ more) i db := by
  obtain ⟨v, a, passes, mine, same⟩ := saw
  exact ⟨v, a, passes.append more, mine, same⟩

theorem saw_last (ran : Txn.runs step origin acts = some w) (mine : a.session = some i) :
    Saw origin (acts ++ [a]) i w.db :=
  ⟨w, a, Txn.passes_last ran a, mine, rfl⟩

def Refuses (origin : World) (acts : List Act) (i : Nat) (cmd : TransferCommand) (err : GoError) :
    Prop :=
  ∃ db, Saw origin acts i db ∧ db.wallet.verdict cmd = .error err

theorem Refuses.append {cmd : TransferCommand} {err : GoError}
    (refuses : Refuses origin acts i cmd err) (more : List Act) :
    Refuses origin (acts ++ more) i cmd err := by
  obtain ⟨db, saw, verdict⟩ := refuses
  exact ⟨db, saw.append more, verdict⟩

end World

/-- What an open transaction has seen: its snapshot, and the reason for the refusal that it
is bound to end with. -/
structure Judged (origin : World) (acts : List Act) (w : World) (i : Nat)
    (call : Call) (tx : OpenTx) (phase : Phase call.amount) : Prop where
  inv : TxInv w i call tx phase
  snapshot : ∀ db n, tx.snapshot = some (db, n) → World.Saw origin acts i db
  bound : ∀ err, phase.refusal = some err → World.Refuses origin acts i call.cmd err

namespace Judged

variable {origin w w' : World} {acts : List Act} {a : Act} {i : Nat} {call : Call} {tx : OpenTx}
  {phase : Phase call.amount}

theorem begun (result : TransferResult) (none : w.heldBy i = []) :
    Judged origin acts w i call (.begun call result) .claim where
  inv := World.begun_inv result none
  snapshot _ _ pinned := nomatch pinned
  bound _ impossible := nomatch impossible

theorem append (judged : Judged origin acts w i call tx phase) (more : List Act) :
    Judged origin (acts ++ more) w i call tx phase where
  inv := judged.inv
  snapshot db n pinned := (judged.snapshot db n pinned).append more
  bound err bound := (judged.bound err bound).append more

/-- The acts of others leave the reasons as they are. -/
theorem stable (judged : Judged origin acts w i call tx phase) (move : w.Move a w') (inv : w.Inv)
    (other : a.session ≠ some i) : Judged origin acts w' i call tx phase where
  inv := by
    obtain ⟨kept, agrees⟩ := move.undisturbed inv other
    exact judged.inv.stable kept (move.extends' inv) agrees
  snapshot := judged.snapshot
  bound := judged.bound

/-- What a transaction reads now, it sees now or has seen when it took its snapshot. -/
theorem base (judged : Judged origin acts w i call tx phase) (saw : World.Saw origin acts i w.db) :
    World.Saw origin acts i (tx.base call.strategy w.db) := by
  unfold OpenTx.base
  split
  · next pinned => exact judged.snapshot _ _ pinned
  · exact saw

/-- An operation that leads to a refusal has seen its reason. -/
theorem performed (judged : Judged origin acts w i call tx phase)
    (saw : World.Saw origin acts i w.db) (attempt : Nat) {o : Op}
    {next : o.Reply → Prog sql (Except GoError Unit × TransferResult)} (prog : tx.prog = .op o next)
    {c : Choice} (outside : (Act.perform i c).Outside) :
    Judged origin acts (w.performed i call attempt tx o next c) i call
      (tx.advance call.strategy w.db w.log.length o next c)
      (phase.next call.strategy call.cmd o (tx.answer call.strategy w.db c o).1) where
  inv := judged.inv.performed attempt prog c
  snapshot db n pinned := by
    cases taken : tx.snapshot with
    | some earlier =>
      refine judged.snapshot db n ?_
      simp only [OpenTx.advance, OpenTx.pinned, taken, Option.getD_some] at pinned
      split at pinned
      · cases pinned
      · rw [taken, pinned]
    | none =>
      simp only [OpenTx.advance, OpenTx.pinned, taken, Option.getD_none] at pinned
      split at pinned
      · cases pinned
      · cases pinned
        exact saw
  bound err bound := by
    have follows := judged.inv.follows
    rw [prog] at follows
    cases already : phase.refusal with
    | some err' =>
      rw [Phase.refusal_kept already follows.1] at bound
      cases bound
      exact judged.bound err already
    | none =>
      refine ⟨_, judged.base saw, ?_⟩
      exact Phase.refusal_due (fun err fault => (outside err fault).2) call.valid judged.inv.older
        judged.inv.facts
        follows.1 already bound

end Judged

/-- Every refusal, given or bound to be given, is that of a wallet which the session has
seen. -/
structure World.Judges (origin : World) (acts : List Act) (w : World) : Prop where
  inv : w.Inv
  running : ∀ {i call attempt tx}, w.sessions i = .running call attempt tx →
    ∃ phase, Judged origin acts w i call tx phase
  refused : ∀ {i cmd err}, w.sessions i = .returned cmd (.error err) → err.refusal = true →
    Refuses origin acts i cmd err

namespace World

variable {origin w w' : World} {acts : List Act} {a : Act} {i : Nat}

theorem Judges.init (db : Db) : Judges (.init db) [] (.init db) where
  inv := .init db
  running was := nomatch was
  refused was := nomatch was

/-- The error with which a session is refused was its own act's. -/
theorem Judges.raised (judges : Judges origin acts w) (ran : Txn.runs step origin acts = some w)
    (outside : a.Outside) (mine : a.session = some i) (stepped : w.step a = some w')
    {cmd : TransferCommand} {err : GoError} (now : w'.sessions i = .returned cmd (.error err))
    (refusal : err.refusal = true) : Refuses origin (acts ++ [a]) i cmd err := by
  obtain ⟨cause, raised, same⟩ := step_returned mine stepped now
  have returned : err = cause := by
    rcases same with same | ⟨n, rfl⟩
    · exact same
    · cases refusal
  subst returned
  cases raised with
  | invalid executor cmd' err invalid =>
    obtain ⟨-, command⟩ := step_start stepped
    rw [now] at command
    cases command
    exact ⟨w.db, saw_last ran mine, verdict_invalid _ invalid⟩
  | unbegun text err => cases refusal
  | closure call attempt tx err result was prog =>
    have command : (w'.sessions i).command = some call.cmd := by
      have called : (w.sessions i).command = some call.cmd := by rw [was]; rfl
      rcases (step_move stepped).command called with crashed | same
      · rw [now] at crashed
        cases crashed
      · exact same
    rw [now] at command
    cases command
    obtain ⟨phase, judged⟩ := judges.running was
    have ended := judged.inv.follows
    rw [prog] at ended
    cases phase with
    | failed err' =>
      cases ended
      exact (judged.bound err (Phase.refusal_failed refusal)).append [_]
    | _ => cases ended
  | uncommitted text err outcome ended => cases refusal
  | cancelled err =>
    rw [GoError.not_refusal_of_foreign (outside err rfl).1] at refusal
    cases refusal

/-- One act without refusals from outside. -/
theorem Judges.step (judges : Judges origin acts w) (ran : Txn.runs step origin acts = some w)
    (outside : a.Outside) (stepped : w.step a = some w') : Judges origin (acts ++ [a]) w' where
  inv := step_inv judges.inv stepped
  running now := by
    have move := step_move stepped
    refine move.running (Judged origin (acts ++ [a])) judges.inv ?_
      (fun none => .begun _ none) ?_ ?_ now
    · intro i call attempt tx was
      obtain ⟨phase, judged⟩ := judges.running was
      exact ⟨phase, judged.append [a]⟩
    · rintro i c call attempt tx phase o next rfl was prog - rfl judged
      exact judged.performed (saw_last ran rfl) attempt prog outside
    · intro i call tx phase other judged
      exact judged.stable move judges.inv other
  refused {i cmd err} now refusal := by
    by_cases mine : a.session = some i
    · exact judges.raised ran outside mine stepped now refusal
    · rw [(step_move stepped).sessions_other mine] at now
      exact (judges.refused now refusal).append [a]

end World

namespace TooLate

open Scenario DiskFull

/-- Alice has nothing when a serializable transfer of hers takes its snapshot. A deposit of
as much as it needs is committed before it looks at her balance. -/
def acts : List Act :=
  opened ++
  [.start 1 (newTransferExecutor .serializable) (command "first" alice bob), .begin 1 none] ++
  performs 1 5 20 1 ++
  Act.execution 0 (newTransferExecutor .locking) payIn (.ofByte 4) 30 ++
  performs 1 5 60 5 ++ [.rollback 1]

theorem healthy : ∀ a ∈ acts, a.injects = none := by decide +kernel

/-- No fault of the run looks like a refusal. -/
theorem outside : ∀ a ∈ acts, a.Outside := by
  intro a mem err injected
  rw [healthy a mem] at injected
  cases injected

/-- The transfer is refused although the deposit has been committed by then. -/
theorem ran : ∃ w, Txn.runs World.step (.init .empty) acts = some w ∧
    w.sessions 1 = .returned (command "first" alice bob) (.error .errInsufficientFunds) ∧
    w.db.sum alice = 100 := by
  have observed :
      ((Txn.runs World.step (.init .empty) acts).map fun w =>
        (failure (w.sessions 1), w.db.sum alice)) =
      some (some (command "first" alice bob, .errInsufficientFunds), 100) := by decide +kernel
  obtain ⟨w, ran, same⟩ := Option.map_eq_some_iff.mp observed
  obtain ⟨failed, sum⟩ := Prod.mk.inj same
  exact ⟨w, ran, returned_of_failure failed, sum⟩

end TooLate

end WalletGo
