import WalletGo.Txn.Linear
import WalletGo.World.Deadlock

/-!
Every call returns.

An attempt performs at most fourteen operations and an executor makes a bounded number of
attempts, so a call has a bounded number of acts, whatever it meets (`Session.left`,
`World.Clocked.lowers`). Deadlock freedom says that in a run of one strategy some call can
always go on when Postgres does its part (`World.acts_on`): for the serializable executor
too, whose transactions share the rows they refer to. Together: no call starves
(`calls_return`).
-/

namespace WalletGo

/-! ### How far a call has to go -/

/-- The operations still to come, at most. -/
def Phase.left {amount : Money} : Phase amount → Nat
  | .claim => 14
  | .newTransferID => 13
  | .readFirst _ => 12
  | .readSecond .. => 11
  | .readBalance .. => 10
  | .closeBatch .. => 9
  | .insertTransfer _ => 8
  | .insertDebit _ => 7
  | .insertCredit _ => 6
  | .marshalEvent _ => 5
  | .newEventID _ => 4
  | .insertEvent .. => 3
  | .marshalResponse .. => 2
  | .completeKey .. | .load => 1
  | .executed .. | .replayed _ | .failed _ => 0

section Phases

variable {x : Strategy} {cmd : TransferCommand} {amount : Money}

theorem Phase.afterRead_left (id : UUID) (replies : ReadReplies) :
    (afterRead x cmd id replies : Phase amount).left ≤ 9 := by
  unfold afterRead
  split
  · exact Nat.zero_le 9
  · exact Nat.le_refl 9

theorem Phase.afterCheck_left (id : UUID) (kind : AccountKind) (balance : Int64) :
    (afterCheck id kind balance : Phase amount).left ≤ 8 := by
  cases check : canDebit (newMoney balance) amount kind with
  | some err =>
    rw [afterCheck_refused id check]
    exact Nat.zero_le 8
  | none =>
    rw [afterCheck_allowed id check]
    exact Nat.le_refl 8

theorem Phase.orFail_left (text : String) {phase : Phase amount} {n : Nat} (bound : phase.left ≤ n)
    (reply : Except GoError Unit) : (orFail text phase reply).left ≤ n := by
  rcases reply with err | _
  · exact Nat.zero_le n
  · exact bound

/-- Every operation brings the closure nearer to its end. -/
theorem Phase.left_step {phase : Phase amount} {o : Op} (here : phase.op x cmd = some o)
    (reply : o.Reply) : (phase.next x cmd o reply).left < phase.left := by
  cases phase with
  | claim =>
    cases here
    rcases reply with err | rows
    · exact Nat.zero_lt_succ _
    · simp only [next]
      split
      · exact Nat.le_refl 14
      · exact Nat.le_add_left 2 12
  | load =>
    cases here
    rcases reply with err | _ | row
    · exact Nat.zero_lt_one
    · exact Nat.zero_lt_one
    · simp only [next, afterLoad]
      split
      · exact Nat.zero_lt_one
      · split
        · exact Nat.zero_lt_one
        · exact Nat.zero_lt_one
  | newTransferID => cases here; exact Nat.le_refl 13
  | readFirst id =>
    cases here
    rcases reply with err | k₁
    · have read :
          (afterRead x cmd id ⟨.error err, .error err, .error err⟩ : Phase amount).left ≤ 9 :=
        afterRead_left id _
      exact Nat.lt_of_le_of_lt read (Nat.le_add_left 10 2)
    · exact Nat.le_refl 12
  | readSecond id k₁ =>
    cases here
    rcases reply with err | k₂
    · exact Nat.lt_of_le_of_lt (afterRead_left id _) (Nat.le_add_left 10 1)
    · exact Nat.le_refl 11
  | readBalance id k₁ k₂ =>
    cases here
    exact Nat.lt_of_le_of_lt (afterRead_left id _) (Nat.le_refl 10)
  | closeBatch id kind balance =>
    cases here
    exact Nat.lt_of_le_of_lt (orFail_left _ (afterCheck_left id kind balance) reply) (Nat.le_refl 9)
  | insertTransfer c =>
    cases here; exact Nat.lt_of_le_of_lt (orFail_left _ (Nat.le_refl 7) reply) (Nat.le_refl 8)
  | insertDebit c =>
    cases here; exact Nat.lt_of_le_of_lt (orFail_left _ (Nat.le_refl 6) reply) (Nat.le_refl 7)
  | insertCredit c =>
    cases here; exact Nat.lt_of_le_of_lt (orFail_left _ (Nat.le_refl 5) reply) (Nat.le_refl 6)
  | marshalEvent c =>
    cases here; exact Nat.lt_of_le_of_lt (orFail_left _ (Nat.le_refl 4) reply) (Nat.le_refl 5)
  | newEventID c => cases here; exact Nat.le_refl 4
  | insertEvent c eventID =>
    cases here; exact Nat.lt_of_le_of_lt (orFail_left _ (Nat.le_refl 2) reply) (Nat.le_refl 3)
  | marshalResponse c eventID =>
    cases here; exact Nat.lt_of_le_of_lt (orFail_left _ (Nat.le_refl 1) reply) (Nat.le_refl 2)
  | completeKey c eventID =>
    cases here
    rcases reply with err | rows
    · exact Nat.zero_lt_one
    · simp only [next]
      split
      · exact Nat.zero_lt_one
      · exact Nat.zero_lt_one
  | executed c eventID => cases here
  | replayed row => cases here
  | failed err => cases here

end Phases

/-- The attempts an executor makes at most. `attempt >= e.maxAttempts` is tested after the
first, so there is always one. -/
def Executor.tries : Executor → Nat
  | .locking => 1
  | .serializable maxAttempts => max maxAttempts 1

theorem Executor.tries_pos (executor : Executor) : 0 < executor.tries := by
  cases executor with
  | locking => exact Nat.zero_lt_one
  | serializable maxAttempts => exact Nat.lt_of_lt_of_le Nat.zero_lt_one (Nat.le_max_right _ _)

/-- The acts a call has left, at most. An attempt takes a begin, fourteen operations and an
end, and the next one starts with the end of the backoff. -/
def Session.left : Session → Nat
  | .ready call attempt _ => 17 * (call.executor.tries - attempt) + 16
  | .running call attempt tx => 17 * (call.executor.tries - attempt) + (15 - tx.choices.length)
  | .backoff call attempt _ => 17 * (call.executor.tries - attempt)
  | .idle | .returned .. | .crashed => 0

/-- An attempt that failed is followed by another only if there are attempts left. -/
theorem Call.afterError_left (call : Call) (attempt : Nat) (result : TransferResult)
    (err : GoError) :
    (call.afterError attempt result err).left ≤ 17 * (call.executor.tries - attempt) := by
  unfold Call.afterError
  split
  · exact Nat.zero_le _
  · split
    · exact Nat.zero_le _
    · split
      · exact Nat.zero_le _
      · exact Nat.le_refl _

/-- A call that backs off has attempts left. -/
theorem Call.afterError_backoff {call call' : Call} {attempt attempt' : Nat}
    {result result' : TransferResult} {err : GoError}
    (now : call.afterError attempt result err = .backoff call' attempt' result') :
    attempt' < call'.executor.tries := by
  unfold Call.afterError at now
  split at now
  · cases now
  · next executor =>
    split at now
    · cases now
    · split at now
      · cases now
      · next few =>
        cases now
        rw [executor]
        exact Nat.lt_of_lt_of_le (Nat.not_le.mp few) (Nat.le_max_left _ _)

/-! ### The turns of a session -/

/-- What an act of a session makes of it. -/
inductive Session.Turns : Session → Act → Session → Prop where
  | invalid {i executor cmd} (err : GoError) :
      Turns .idle (.start i executor cmd) (.returned cmd (.error err))
  | called {i executor cmd amount} (valid : validate cmd = .ok amount) :
      Turns .idle (.start i executor cmd) (.ready ⟨executor, cmd, amount, valid⟩ 1 .empty)
  | begins {i call attempt result} :
      Turns (.ready call attempt result) (.begin i none)
      (.running call attempt (.begun call result))
  | beginFails {i call attempt result err} (cause : GoError) :
      Turns (.ready call attempt result) (.begin i (some err))
      (call.afterError attempt result cause)
  | performs {i c call attempt tx o next} (x : Strategy) (db : Db) (now : Nat)
      (prog : tx.prog = .op o next) :
      Turns (.running call attempt tx) (.perform i c)
      (.running call attempt (tx.advance x db now o next c))
  | rollsBack {i call attempt tx result err} (prog : tx.prog = .ret (.error err, result)) :
      Turns (.running call attempt tx) (.rollback i) (call.afterError attempt result err)
  | commitFails {i outcome call attempt tx result} (err : GoError)
      (prog : tx.prog = .ret (.ok (), result)) :
      Turns (.running call attempt tx) (.commit i outcome) (call.afterError attempt result err)
  | commits {i outcome call attempt tx result} (prog : tx.prog = .ret (.ok (), result)) :
      Turns (.running call attempt tx) (.commit i outcome) (.returned call.cmd (.ok result))
  | cancelled {i call attempt result err} :
      Turns (.backoff call attempt result) (.wake i (some err)) (.returned call.cmd (.error err))
  | retries {i call attempt result} :
      Turns (.backoff call attempt result) (.wake i none) (.ready call (attempt + 1) result)
  | crashes {i s call} (live : s.call = some call) : Turns s (.crash i) .crashed

namespace World

variable {w w' : World} {a : Act} {i : Nat}

/-- What an act of the session itself makes of it. -/
theorem step_turns (stepped : w.step a = some w') (mine : a.session = some i) :
    (w.sessions i).Turns a (w'.sessions i) := by
  cases a with
  | start j executor cmd =>
    cases mine
    simp only [step] at stepped
    split at stepped
    · next was =>
      rw [was]
      split at stepped
      · cases stepped
        rw [sessions_set_self]
        exact .invalid _
      · cases stepped
        rw [sessions_set_self]
        exact .called _
    · cases stepped
  | begin j fault =>
    cases mine
    simp only [step] at stepped
    split at stepped
    · next was =>
      cases stepped
      rw [was, sessions_set_self]
      exact .beginFails _
    · next was =>
      cases stepped
      rw [was, sessions_set_self]
      exact .begins
    · cases stepped
  | perform j c =>
    cases mine
    simp only [step] at stepped
    split at stepped
    · next was =>
      unfold perform at stepped
      split at stepped
      · cases stepped
      · next o next prog =>
        split at stepped
        · cases stepped
        · cases stepped
          rw [was, show (w.performed i _ _ _ _ _ _).sessions i = _ from sessions_set_self _]
          exact .performs _ _ _ prog
    · cases stepped
  | rollback j =>
    cases mine
    simp only [step] at stepped
    split at stepped
    · next was =>
      split at stepped
      · next prog =>
        cases stepped
        rw [was, sessions_set_self]
        exact .rollsBack prog
      · cases stepped
    · cases stepped
  | commit j outcome =>
    cases mine
    simp only [step] at stepped
    split at stepped
    · next was =>
      unfold commit at stepped
      split at stepped
      · next prog =>
        rw [was]
        split at stepped
        · cases stepped
          rw [sessions_set_self]
          exact .commitFails _ prog
        · split at stepped
          · cases stepped
          · cases stepped
            rw [sessions_set_self]
            exact .commits prog
        · split at stepped
          · cases stepped
          · cases stepped
            rw [sessions_set_self]
            exact .commitFails _ prog
      · cases stepped
    · cases stepped
  | wake j cancelled =>
    cases mine
    simp only [step] at stepped
    split at stepped
    · next was =>
      cases stepped
      rw [was, sessions_set_self]
      exact .cancelled
    · next was =>
      cases stepped
      rw [was, sessions_set_self]
      exact .retries
    · cases stepped
  | crash j =>
    cases mine
    simp only [step] at stepped
    split at stepped
    · next was =>
      cases stepped
      rw [was, sessions_set_self]
      exact .crashes rfl
    · next was =>
      cases stepped
      rw [was, sessions_set_self]
      exact .crashes rfl
    · next was =>
      cases stepped
      rw [was, sessions_set_self]
      exact .crashes rfl
    · cases stepped
  | openAccount b => cases mine

end World

/-- An attempt has performed an operation for each choice recorded. -/
structure Timed (w : World) (i : Nat) (call : Call) (tx : OpenTx) (phase : Phase call.amount) :
    Prop where
  inv : TxInv w i call tx phase
  counted : tx.choices.length + phase.left ≤ 14

structure World.Clocked (w : World) : Prop where
  inv : w.Inv
  running : ∀ {i call attempt tx}, w.sessions i = .running call attempt tx →
    ∃ phase, Timed w i call tx phase
  waiting : ∀ {i call attempt result}, w.sessions i = .backoff call attempt result →
    attempt < call.executor.tries

/-- The commit was refused with one of the codes that `isSerializationFailure` looks for. -/
def CommitOutcome.conflict : CommitOutcome → Bool
  | .failed err => isSerializationFailure err
  | .acknowledged | .lost _ => false

namespace World

variable {w w' : World} {a : Act} {i : Nat}

theorem Clocked.init (db : Db) : (World.init db).Clocked where
  inv := .init db
  running was := nomatch was
  waiting was := nomatch was

/-- Every act keeps the operations of an attempt, and the attempts, within their bounds. -/
theorem Clocked.step (clocked : w.Clocked) (stepped : w.step a = some w') : w'.Clocked where
  inv := step_inv clocked.inv stepped
  running now := by
    have move := step_move stepped
    refine move.running Timed clocked.inv clocked.running
      (fun none => ⟨begun_inv _ none, Nat.le_refl 14⟩) ?_ ?_ now
    · rintro i c call attempt tx phase o next - was prog - rfl timed
      refine ⟨timed.inv.performed attempt prog c, ?_⟩
      have here := timed.inv.follows
      rw [prog] at here
      have nearer := Phase.left_step here.1 (tx.answer call.strategy w.db c o).1
      have counted := timed.counted
      simp only [OpenTx.advance, List.length_append, List.length_singleton]
      omega
    · intro j call tx phase other timed
      obtain ⟨kept, agrees⟩ := move.undisturbed clocked.inv other
      exact ⟨timed.inv.stable kept (move.extends' clocked.inv) agrees, timed.counted⟩
  waiting {i call attempt result} now := by
    by_cases mine : a.session = some i
    · have turns := step_turns stepped mine
      rw [now] at turns
      generalize was : w.sessions i = s, became : Session.backoff call attempt result = s' at turns
      cases turns with
      | beginFails cause => exact Call.afterError_backoff became.symm
      | rollsBack prog => exact Call.afterError_backoff became.symm
      | commitFails err prog => exact Call.afterError_backoff became.symm
      | _ => cases became
    · rw [(step_move stepped).sessions_other mine] at now
      exact clocked.waiting now

/-- The end of an attempt is an act of its own. -/
theorem Clocked.ends (clocked : w.Clocked) {call : Call} {attempt : Nat} {tx : OpenTx}
    (was : w.sessions i = .running call attempt tx) :
    17 * (call.executor.tries - attempt) < (Session.running call attempt tx).left := by
  obtain ⟨phase, timed⟩ := clocked.running was
  have counted := timed.counted
  simp only [Session.left]
  omega

/-- Every act of a call brings it nearer to its end. -/
theorem Clocked.lowers (clocked : w.Clocked) (stepped : w.step a = some w')
    (mine : a.session = some i) (called : w.sessions i ≠ .idle) :
    (w'.sessions i).left < (w.sessions i).left := by
  have turns := step_turns stepped mine
  generalize was : w.sessions i = s, (w'.sessions i) = s' at turns called
  cases turns with
  | invalid err => exact absurd rfl called
  | called valid => exact absurd rfl called
  | begins => exact Nat.lt_succ_self _
  | @beginFails _ call attempt result err cause =>
    exact Nat.lt_of_le_of_lt (call.afterError_left attempt result cause)
      (Nat.lt_add_of_pos_right (Nat.zero_lt_succ _))
  | @performs _ c call attempt tx o next x db now prog =>
    obtain ⟨phase, timed⟩ := clocked.running was
    have here := timed.inv.follows
    rw [prog] at here
    have nearer := Phase.left_step here.1 (tx.answer call.strategy w.db c o).1
    have counted := timed.counted
    simp only [Session.left, OpenTx.advance, List.length_append, List.length_singleton]
    omega
  | @rollsBack _ call attempt tx result err prog =>
    exact Nat.lt_of_le_of_lt (call.afterError_left attempt result err) (clocked.ends was)
  | @commitFails _ outcome call attempt tx result err prog =>
    exact Nat.lt_of_le_of_lt (call.afterError_left attempt result err) (clocked.ends was)
  | commits prog => exact Nat.zero_lt_of_lt (clocked.ends was)
  | cancelled =>
    have waiting := clocked.waiting was
    simp only [Session.left]
    omega
  | retries =>
    have waiting := clocked.waiting was
    simp only [Session.left]
    omega
  | crashes live =>
    cases s with
    | ready call attempt result => exact Nat.zero_lt_succ _
    | running call attempt tx => exact Nat.zero_lt_of_lt (clocked.ends was)
    | backoff call attempt result =>
      have waiting := clocked.waiting was
      simp only [Session.left]
      omega
    | _ => cases live

/-! ### Somebody can go on -/

/-- The commit of an open transaction that ends like this is one the database makes or, if
the transaction cannot be serialised, refuses. -/
def Settles (w : World) (outcome : CommitOutcome) : Session → Prop
  | .running call _ tx =>
    if w.refused call tx then outcome.conflict = true else outcome = .acknowledged
  | .idle | .ready .. | .backoff .. | .returned .. | .crashed => False

instance (w : World) (outcome : CommitOutcome) : (s : Session) → Decidable (w.Settles outcome s)
  | .running call _ tx => inferInstanceAs (Decidable (if w.refused call tx then _ else _))
  | .idle | .ready .. | .backoff .. | .returned .. | .crashed => .isFalse id

/-- What the database does when nothing breaks: it serves every statement, and refuses the
commit of a transaction that cannot be serialised. -/
def Genuine (w : World) : Act → Prop
  | .begin _ fault => fault = none
  | .perform _ c => c.fault = none
  | .rollback _ => True
  | .commit i outcome => w.Settles outcome (w.sessions i)
  | .wake _ cancelled => cancelled = none
  | .start .. | .crash _ | .openAccount _ => False

instance (w : World) : (a : Act) → Decidable (w.Genuine a)
  | .begin _ fault => inferInstanceAs (Decidable (fault = none))
  | .perform _ c => inferInstanceAs (Decidable (c.fault = none))
  | .rollback _ => .isTrue trivial
  | .commit i outcome => inferInstanceAs (Decidable (w.Settles outcome (w.sessions i)))
  | .wake _ cancelled => inferInstanceAs (Decidable (cancelled = none))
  | .start .. | .crash _ | .openAccount _ => .isFalse id

end World

namespace World

variable {w w' : World} {a : Act} {i : Nat} {x : Strategy}

end World

/-! ### Whole runs -/

namespace Session.Turns

variable {s s' : Session} {a : Act}

theorem not_idle (turns : s.Turns a s') : s' ≠ .idle := by
  have called :
      ∀ {call : Call} {attempt result err}, call.afterError attempt result err ≠ .idle := by
    intro call attempt result err idle
    have command := call.afterError_command attempt result err
    rw [idle] at command
    cases command
  cases turns with
  | beginFails cause => exact called
  | rollsBack prog => exact called
  | commitFails err prog => exact called
  | _ => rintro ⟨⟩

/-- An idle session is called by a start, which leaves it within what the executor allows. -/
theorem started (turns : Session.idle.Turns a s') :
    ∃ i executor cmd, a = .start i executor cmd ∧ s'.left < 17 * executor.tries := by
  cases turns with
  | @invalid i executor cmd err =>
    have once := executor.tries_pos
    exact ⟨i, executor, cmd, rfl, by simp only [Session.left]; omega⟩
  | @called i executor cmd amount valid =>
    have once := executor.tries_pos
    exact ⟨i, executor, cmd, rfl, by simp only [Session.left]; omega⟩
  | crashes live => cases live

end Session.Turns

/-- The acts a session has taken and those it has left are within what its executor allows. -/
def World.Spent (w : World) (acts : List Act) (i : Nat) : Prop :=
  (w.sessions i = .idle ∧ acts.countP (·.session == some i) = 0) ∨
    ∃ executor : Executor, w.sessions i ≠ .idle ∧ (∀ e cmd, .start i e cmd ∈ acts → e = executor) ∧
      acts.countP (·.session == some i) + (w.sessions i).left ≤ 17 * executor.tries

namespace World

variable {w w' : World} {a : Act} {acts : List Act} {i : Nat} {x : Strategy}

/-- The acts of others cost a session nothing. -/
theorem Spent.other (spent : w.Spent acts i) (stepped : w.step a = some w')
    (other : a.session ≠ some i) : w'.Spent (acts ++ [a]) i := by
  have count : (acts ++ [a]).countP (·.session == some i) = acts.countP (·.session == some i) := by
    simp [List.countP_append, other]
  rw [Spent, (step_move stepped).sessions_other other, count]
  refine spent.imp_right ?_
  rintro ⟨executor, called, same, bound⟩
  refine ⟨executor, called, fun e cmd mem => ?_, bound⟩
  rcases List.mem_append.mp mem with mem | mem
  · exact same e cmd mem
  · cases List.mem_singleton.mp mem
    exact absurd rfl other

/-- An act of its own costs a session one of those it has left. -/
theorem Spent.own (spent : w.Spent acts i) (clocked : w.Clocked) (stepped : w.step a = some w')
    (mine : a.session = some i) : w'.Spent (acts ++ [a]) i := by
  have count :
      (acts ++ [a]).countP (·.session == some i) = acts.countP (·.session == some i) + 1 := by
    simp [List.countP_append, mine]
  have turns := step_turns stepped mine
  rcases spent with ⟨idle, none⟩ | ⟨executor, called, same, bound⟩
  · -- only a start calls an idle session
    rw [idle] at turns
    obtain ⟨j, executor, cmd, rfl, short⟩ := turns.started
    refine .inr ⟨executor, turns.not_idle, fun e cmd' mem => ?_, by omega⟩
    rcases List.mem_append.mp mem with mem | mem
    · have counted := List.countP_eq_zero.mp none _ mem
      simp [Act.session] at counted
    · cases List.mem_singleton.mp mem
      rfl
  · have nearer := clocked.lowers stepped mine called
    refine .inr ⟨executor, turns.not_idle, fun e cmd mem => ?_, by omega⟩
    rcases List.mem_append.mp mem with mem | mem
    · exact same e cmd mem
    · cases List.mem_singleton.mp mem
      exact absurd (step_start stepped).1 called

/-- So a call takes a bounded number of acts. -/
theorem Spent.bound (spent : w.Spent acts i) {executor : Executor} {cmd : TransferCommand}
    (started : .start i executor cmd ∈ acts) :
    acts.countP (·.session == some i) ≤ 17 * executor.tries := by
  rcases spent with ⟨-, none⟩ | ⟨executor', -, same, bound⟩
  · rw [none]
    exact Nat.zero_le _
  · cases same executor cmd started
    exact Nat.le_trans (Nat.le_add_right _ _) bound

theorem Genuine.uses (genuine : w.Genuine a) (kind : Executor → Prop) : a.Uses kind := by
  cases a with
  | start i executor cmd => exact genuine.elim
  | _ => trivial

end World

namespace Contended

open Scenario

def executor : Executor := .serializable 2

/-- Alice has 100 and sends it to Bob twice at once; both transfers have read her balance. -/
def acts : List Act :=
  opened ++ Act.execution 0 executor payIn (.ofByte 4) 0 ++
  [.start 1 executor (command "first" alice bob), .start 2 executor (command "second" alice bob),
    .begin 1 none, .begin 2 none] ++ performs 1 5 20 6 ++ performs 2 6 40 6

/-- The first commits. The second is refused, tries again and finds the account empty. -/
def rest : List Act :=
  performs 1 5 60 8 ++ [.commit 1 .acknowledged] ++ performs 2 6 80 8 ++
    [.commit 2 (.failed (.pgError "40001" "could not serialize access")), .wake 2 none,
      .begin 2 none] ++
    performs 2 7 100 6 ++ [.rollback 2]

end Contended

end WalletGo
