import WalletGo.App.Failures
import WalletGo.World.Invariant

/-!
The branches of `replay` for a key that is in flight or missing.

A row of `idempotency_keys` becomes visible together with the update that completes
it, so no committed row is in flight (`Move.completed`). A claim that reports false
has seen a committed row, and what a transaction sees stays: `LoadKey` finds the row.
Hence `replay` returns neither of its two errors (`loads_completed`), and as every
other error of a call is made by the driver, the context or `Execute`
(`World.Raised`), no call returns them.
-/

namespace WalletGo

open Txn (Prog)

/-! ### Completed keys -/

def Db.AllCompleted (db : Db) : Prop := ∀ row ∈ db.keys, row.state = .completed

namespace Db.AllCompleted

variable {base db : Db}

theorem keyRow (completed : db.AllCompleted) {key : IdempotencyKey} {row : KeyRow}
    (found : db.keyRow key = some row) : row.state = .completed :=
  completed row (List.mem_of_find?_eq_some found)

/-- What a snapshot holds is completed too. -/
theorem older (completed : db.AllCompleted) (older : base.Extends db) : base.AllCompleted :=
  fun row mem => completed row (older.keys.subset mem)

theorem post (completed : db.AllCompleted) (p : Posting) : (db.post p).AllCompleted := by
  intro row mem
  rcases List.mem_append.mp mem with old | new
  · exact completed row old
  · cases List.mem_singleton.mp new
    rfl

end Db.AllCompleted

/-- No act leaves a key in flight. -/
theorem World.Move.completed {w w' : World} {a : Act} (move : w.Move a w') (inv : w.Inv)
    (completed : w.db.AllCompleted) : w'.db.AllCompleted := by
  cases move with
  | commits i outcome call attempt tx result s was prog allowed now =>
    obtain ⟨phase, txInv⟩ := inv.running was
    change (w.db.after tx.writes).AllCompleted
    rcases (txInv.commits prog).after with same | ⟨p, -, -, posted⟩
    · rw [same]
      exact completed
    · rw [posted]
      exact completed.post p
  | _ => exact completed

namespace TxInv

variable {w : World} {i : Nat} {call : Call} {tx : OpenTx} {phase : Phase call.amount}

end TxInv

/-- Unless the statement fails, `LoadKey` finds a completed row. -/
theorem Phase.Facts.loads_completed {amount : Money} {x : Strategy} {cmd : TransferCommand}
    {base db : Db} {made : List Write} (facts : (.load : Phase amount).Facts x cmd base db made)
    (completed : base.AllCompleted) (c : Choice) :
    (∃ err, c.fault = some err ∧ (exec c (base.after made) (db.after made) (.loadKey cmd.key)).1 =
      .error err) ∨ ∃ row, base.keyRow cmd.key = some row ∧ row.state = .completed ∧
        (exec c (base.after made) (db.after made) (.loadKey cmd.key)).1 = .ok (some row) := by
  obtain ⟨⟨st, rfl⟩, present⟩ := facts
  obtain ⟨row, found⟩ := Option.isSome_iff_exists.mp present
  cases fault : c.fault with
  | some err => exact .inl ⟨err, rfl, by simp [exec, Choice.guard, fault]⟩
  | none =>
    refine .inr ⟨row, found, completed.keyRow found, ?_⟩
    simp [exec, Choice.guard, fault, Phase.writes, found]

/-! ### The errors of a call -/

/-- The error that an act brings in from the driver or the context. -/
def Act.injects : Act → Option GoError
  | .begin _ fault | .wake _ fault => fault
  | .perform _ c => c.fault
  | .commit _ (.failed err) | .commit _ (.lost err) => some err
  | _ => none

/-- No error of the driver or the context is the sentinel `s`. -/
def Act.Foreign (s : GoError) (a : Act) : Prop := ∀ err, a.injects = some err → err.is s = false

/-- Where the error comes from with which an act ends an attempt of session `i`. -/
inductive World.Raised (w : World) (i : Nat) : Act → GoError → Prop where
  | invalid (executor : Executor) (cmd : TransferCommand) (err : GoError)
      (invalid : validate cmd = .error err) : Raised w i (.start i executor cmd) err
  | unbegun (text : String) (err : GoError) : Raised w i (.begin i (some err)) (.wrap text err)
  | closure (call : Call) (attempt : Nat) (tx : OpenTx) (err : GoError) (result : TransferResult)
      (was : w.sessions i = .running call attempt tx) (prog : tx.prog = .ret (.error err, result)) :
      Raised w i (.rollback i) err
  | uncommitted (text : String) (err : GoError) (outcome : CommitOutcome)
      (ended : outcome = .failed err ∨ outcome = .lost err) :
      Raised w i (.commit i outcome) (.wrap text err)
  | cancelled (err : GoError) : Raised w i (.wake i (some err)) err

/-- A call returns the error of its last attempt, or that it has given up. -/
theorem Call.afterError_returned {call : Call} {attempt : Nat} {result : TransferResult}
    {err err' : GoError} {cmd : TransferCommand}
    (now : call.afterError attempt result err = .returned cmd (.error err')) :
    err' = err ∨ ∃ n, err' = gaveUp n err := by
  unfold Call.afterError at now
  split at now
  · cases now
    exact .inl rfl
  · split at now
    · cases now
      exact .inl rfl
    · split at now
      · cases now
        exact .inr ⟨_, rfl⟩
      · cases now

namespace World

variable {w w' : World} {i : Nat} {a : Act} {cmd : TransferCommand} {err : GoError}

theorem perform_running {call : Call} {attempt : Nat} {tx : OpenTx} {c : Choice}
    (stepped : w.perform i call attempt tx c = some w') :
    ∃ tx', w'.sessions i = .running call attempt tx' := by
  unfold perform at stepped
  split at stepped
  · cases stepped
  · split at stepped
    · cases stepped
    · cases stepped
      exact ⟨_, sessions_set_self _⟩

theorem commit_returned {call : Call} {attempt : Nat} {tx : OpenTx} {outcome : CommitOutcome}
    (stepped : w.commit i call attempt tx outcome = some w')
    (now : w'.sessions i = .returned cmd (.error err)) :
    ∃ cause, w.Raised i (.commit i outcome) cause ∧ (err = cause ∨ ∃ n, err = gaveUp n cause) := by
  unfold commit at stepped
  split at stepped
  · split at stepped
    · cases stepped
      rw [sessions_set_self] at now
      exact ⟨_, .uncommitted _ _ _ (.inl rfl), Call.afterError_returned now⟩
    · split at stepped
      · cases stepped
      · cases stepped
        rw [sessions_set_self] at now
        cases now
    · split at stepped
      · cases stepped
      · cases stepped
        rw [sessions_set_self] at now
        exact ⟨_, .uncommitted _ _ _ (.inr rfl), Call.afterError_returned now⟩
  · cases stepped

/-- A call returns the error of its last attempt, or gives up because of it. -/
theorem step_returned (mine : a.session = some i) (stepped : w.step a = some w')
    (now : w'.sessions i = .returned cmd (.error err)) :
    ∃ cause, w.Raised i a cause ∧ (err = cause ∨ ∃ n, err = gaveUp n cause) := by
  cases a with
  | start j executor cmd' =>
    cases mine
    simp only [step] at stepped
    split at stepped
    · split at stepped
      · next invalid =>
        cases stepped
        rw [sessions_set_self] at now
        cases now
        exact ⟨err, .invalid _ _ _ invalid, .inl rfl⟩
      · cases stepped
        rw [sessions_set_self] at now
        cases now
    · cases stepped
  | begin j fault =>
    cases mine
    simp only [step] at stepped
    split at stepped
    · cases stepped
      rw [sessions_set_self] at now
      exact ⟨_, .unbegun _ _, Call.afterError_returned now⟩
    · cases stepped
      rw [sessions_set_self] at now
      cases now
    · cases stepped
  | perform j c =>
    cases mine
    simp only [step] at stepped
    split at stepped
    · obtain ⟨tx, running⟩ := perform_running stepped
      rw [running] at now
      cases now
    · cases stepped
  | rollback j =>
    cases mine
    simp only [step] at stepped
    split at stepped
    · next was =>
      split at stepped
      · next prog =>
        cases stepped
        rw [sessions_set_self] at now
        exact ⟨_, .closure _ _ _ _ _ was prog, Call.afterError_returned now⟩
      · cases stepped
    · cases stepped
  | commit j outcome =>
    cases mine
    simp only [step] at stepped
    split at stepped
    · exact commit_returned stepped now
    · cases stepped
  | wake j cancelled =>
    cases mine
    simp only [step] at stepped
    split at stepped
    · cases stepped
      rw [sessions_set_self] at now
      cases now
      exact ⟨err, .cancelled err, .inl rfl⟩
    · cases stepped
      rw [sessions_set_self] at now
      cases now
    · cases stepped
  | crash j =>
    cases mine
    simp only [step] at stepped
    split at stepped
    · cases stepped
      rw [sessions_set_self] at now
      cases now
    · cases stepped
      rw [sessions_set_self] at now
      cases now
    · cases stepped
      rw [sessions_set_self] at now
      cases now
    · cases stepped
  | openAccount b => cases mine

/-- Giving up adds no sentinel but its own. -/
theorem is_gaveUp {s : GoError} (loop : GoError.errConcurrencyConflict.is s = false) (n : Nat)
    (err : GoError) : (gaveUp n err).is s = err.is s := by
  change (GoError.errConcurrencyConflict.is s || err.is s) = _
  rw [loop, Bool.false_or]

end World

/-- The sentinels of `replay` for a key that is not completed. -/
inductive Unfinished : GoError → Prop where
  | inFlight : Unfinished .errRequestInFlight
  | missing : Unfinished .noRows

namespace Unfinished

variable {s : GoError}

theorem sentinel (unfinished : Unfinished s) : Sentinel s := by
  cases unfinished with
  | inFlight => exact .requestInFlight
  | missing => exact .noRows

theorem loop (unfinished : Unfinished s) : GoError.errConcurrencyConflict.is s = false := by
  cases unfinished <;> rfl

theorem validated (unfinished : Unfinished s) {cmd : TransferCommand} {err : GoError}
    (invalid : validate cmd = .error err) : err.is s = false := by
  rcases validate_error invalid with rfl | rfl
  · cases unfinished <;> rfl
  · cases unfinished <;> rfl

/-- A completed row makes `replay` return none of them. -/
theorem load_meets (unfinished : Unfinished s) {amount : Money} {x : Strategy}
    {cmd : TransferCommand} {base db : Db} {made : List Write}
    (facts : (.load : Phase amount).Facts x cmd base db made) (completed : base.AllCompleted)
    {c : Choice} (foreign : ∀ err, c.fault = some err → err.is s = false) :
    ((.load : Phase amount).next x cmd (.loadKey cmd.key)
      (exec c (base.after made) (db.after made) (.loadKey cmd.key)).1).Meets (·.is s = false) := by
  rcases facts.loads_completed completed c with ⟨err, fault, same⟩ | ⟨row, -, state, same⟩
  · rw [same]
    exact unfinished.sentinel.benign.wrap _ _ (foreign err fault)
  · rw [same]
    simp only [Phase.next, Phase.afterLoad]
    split
    · cases unfinished <;> rfl
    · rw [if_neg (by simp [state])]
      trivial

end Unfinished

/-- No call has met a key that is in flight or missing. -/
structure World.Unhindered (s : GoError) (w : World) : Prop where
  inv : w.Inv
  completed : w.db.AllCompleted
  running : ∀ {i call attempt tx}, w.sessions i = .running call attempt tx →
    ∃ phase, TxInv w i call tx phase ∧ phase.Meets (·.is s = false)
  returned : ∀ {i cmd err}, w.sessions i = .returned cmd (.error err) → err.is s = false

namespace World

variable {w w' : World} {a : Act} {s : GoError}

theorem Unhindered.init {db : Db} (completed : db.AllCompleted) : (World.init db).Unhindered s where
  inv := .init db
  completed := completed
  running was := nomatch was
  returned was := nomatch was

/-- Nothing raises one of these errors as long as no key is in flight. -/
theorem Unhindered.raised (unhindered : w.Unhindered s) (unfinished : Unfinished s)
    (foreign : a.Foreign s) {i : Nat} {err : GoError} (raised : w.Raised i a err) :
    err.is s = false := by
  cases raised with
  | invalid executor cmd err invalid => exact unfinished.validated invalid
  | unbegun text err => exact foreign err rfl
  | closure call attempt tx err result was prog =>
    obtain ⟨phase, txInv, avoids⟩ := unhindered.running was
    have ended := txInv.follows
    rw [prog] at ended
    rw [Phase.outcome_error ended] at avoids
    exact avoids
  | uncommitted text err outcome ended =>
    rcases ended with rfl | rfl
    · exact foreign err rfl
    · exact foreign err rfl
  | cancelled err => exact foreign err rfl

/-- One act with faults of another kind. -/
theorem Unhindered.step (unhindered : w.Unhindered s) (unfinished : Unfinished s)
    (foreign : a.Foreign s) (stepped : w.step a = some w') : w'.Unhindered s := by
  have move := step_move stepped
  refine ⟨move.inv unhindered.inv, move.completed unhindered.inv unhindered.completed, ?_, ?_⟩
  · intro i call attempt tx now
    refine move.running (fun w i call tx phase => TxInv w i call tx phase ∧
      phase.Meets (·.is s = false))
      unhindered.inv unhindered.running (fun none => ⟨begun_inv _ none, trivial⟩) ?_ ?_ now
    · rintro i c call attempt tx phase o next rfl was prog - rfl ⟨txInv, -⟩
      refine ⟨txInv.performed attempt prog c, ?_⟩
      have here := txInv.follows
      rw [prog] at here
      refine Phase.next_meets unfinished.sentinel.benign here.1 _
        (unfinished.sentinel.replied foreign) ?_
      rintro rfl
      cases here.1
      exact unfinished.load_meets txInv.facts (unhindered.completed.older txInv.older) foreign
    · rintro j call tx phase other ⟨txInv, avoids⟩
      obtain ⟨kept, agrees⟩ := move.undisturbed unhindered.inv other
      exact ⟨txInv.stable kept (move.extends' unhindered.inv) agrees, avoids⟩
  · intro i cmd err now
    by_cases mine : a.session = some i
    · obtain ⟨cause, raised, same⟩ := step_returned mine stepped now
      have avoids := unhindered.raised unfinished foreign raised
      rcases same with rfl | ⟨n, rfl⟩
      · exact avoids
      · rw [is_gaveUp unfinished.loop]
        exact avoids
    · rw [move.sessions_other mine] at now
      exact unhindered.returned now

end World

namespace Repeated

open Scenario

/-- A deposit, and the same request again up to its claim. -/
def acts : List Act :=
  opened ++ Act.execution 0 .locking (command "once" systemID alice) (.ofByte 5) 0 ++
    [.start 1 (.serializable 3) (command "once" systemID alice), .begin 1 none,
      .perform 1 ⟨none, .ofByte 6, 20, 0⟩]

def loading : Session → Bool
  | .running _ _ ⟨.op (.loadKey _) _, _, _, _, _⟩ => true
  | _ => false

end Repeated

end WalletGo
