import WalletGo.Postgres.Accounts
import WalletGo.Txn.System

/-!
Concurrent calls against one database, interleaved statement by statement.

A session is one call of `Transfer`, `Deposit` or `Withdraw` through either
executor. Its open transaction is the residual program of the closure with the
writes made so far. The scheduler picks the next act of any session; an operation
that needs a lock somebody else holds in a conflicting mode waits, which it may
fail at but not succeed in, and whatever the environment decides (errors, generated
ids, a commit that is applied without being acknowledged, a crash) is part of the
act. The log of commits is kept for stating properties; no act reads it except for
the conflict check of SERIALIZABLE.
-/

namespace WalletGo

open Txn (Prog)

/-- A call that has passed the checks of `Transfer`. -/
structure Call where
  executor : Executor
  cmd : TransferCommand
  amount : Money
  valid : validate cmd = .ok amount

abbrev Call.strategy (call : Call) : Strategy := call.executor.strategy

/-- A transaction that has begun and not ended. -/
structure OpenTx where
  /-- What is left of the closure. -/
  prog : Prog sql (Except GoError Unit × TransferResult)
  writes : List Write
  /-- The snapshot of a SERIALIZABLE transaction, with the length of the log when
  its first statement took it. -/
  snapshot : Option (Db × Nat)
  /-- The accounts whose entries it has read. -/
  reads : List UUID
  /-- What the environment has decided so far, in order. -/
  choices : List Choice

inductive Session where
  | idle
  | ready (call : Call) (attempt : Nat) (result : TransferResult)
  | running (call : Call) (attempt : Nat) (tx : OpenTx)
  | backoff (call : Call) (attempt : Nat) (result : TransferResult)
  | returned (cmd : TransferCommand) (reply : Except GoError TransferResult)
  | crashed

inductive Committed where
  | account (a : Account)
  | call (session : Nat) (call : Call) (tx : OpenTx) (result : TransferResult)

structure World where
  db : Db
  /-- The last value drawn from `entries_id_seq`. -/
  sequence : Nat
  locks : List (Nat × Lock)
  sessions : Nat → Session
  log : List Committed

def World.init (db : Db) : World := ⟨db, 0, [], fun _ => .idle, []⟩

inductive Act where
  | start (i : Nat) (executor : Executor) (cmd : TransferCommand)
  | begin (i : Nat) (fault : Option GoError)
  | perform (i : Nat) (c : Choice)
  | rollback (i : Nat)
  | commit (i : Nat) (outcome : CommitOutcome)
  | wake (i : Nat) (cancelled : Option GoError)
  | crash (i : Nat)
  | openAccount (a : Account)

def Act.session : Act → Option Nat
  | .start i _ _ | .begin i _ | .perform i _ | .rollback i | .commit i _ | .wake i _ | .crash i =>
    some i
  | .openAccount _ => none

/-! ### Transactions -/

def Op.reads : Op → List UUID
  | .sumEntries id => [id]
  | _ => []

/-- `nextval('entries_id_seq')` -/
def Op.drawsSequence : Op → Bool
  | .insertEntry .. => true
  | _ => false

namespace OpenTx

def begun (call : Call) (result : TransferResult) : OpenTx :=
  ⟨transferProg call.strategy call.cmd call.amount result, [], none, [], []⟩

/-- The committed rows a transaction sees: all of them at READ COMMITTED, those of
its snapshot at SERIALIZABLE. -/
def base (tx : OpenTx) (x : Strategy) (db : Db) : Db :=
  match x, tx.snapshot with
  | .serializable, some (snapshot, _) => snapshot
  | _, _ => db

/-- The first statement of a SERIALIZABLE transaction fixes its snapshot. -/
def pinned (tx : OpenTx) (x : Strategy) (db : Db) (now : Nat) : Option (Db × Nat) :=
  match x with
  | .locking => none
  | .serializable => some (tx.snapshot.getD (db, now))

/-- What an operation replies to the transaction, and what it writes. -/
def answer (tx : OpenTx) (x : Strategy) (db : Db) (c : Choice) (o : Op) : o.Reply × List Write :=
  exec c ((tx.base x db).after tx.writes) (db.after tx.writes) o

/-- The transaction after an operation, when `now` commits have been made. -/
def advance (tx : OpenTx) (x : Strategy) (db : Db) (now : Nat) (o : Op)
    (next : o.Reply → Prog sql (Except GoError Unit × TransferResult)) (c : Choice) : OpenTx :=
  ⟨next (tx.answer x db c o).1, tx.writes ++ (tx.answer x db c o).2, tx.pinned x db now,
    tx.reads ++ o.reads, tx.choices ++ [c]⟩

def touched (tx : OpenTx) : List UUID :=
  tx.writes.filterMap fun
    | .insertEntry row => some row.accountID
    | _ => none

/-- Two transactions each of which read entries the other wrote. -/
def cycle (tx other : OpenTx) : Bool :=
  tx.reads.any (other.touched.contains ·) && other.reads.any (tx.touched.contains ·)

end OpenTx

/-- The serializable transactions that committed after the `n`-th commit. -/
def serializableSince (log : List Committed) (n : Nat) : List OpenTx :=
  (log.drop n).filterMap fun
    | .call _ call tx _ => if call.strategy = .serializable then some tx else none
    | .account _ => none

/-- What `InTx` does with the error of an attempt. -/
def Call.afterError (call : Call) (attempt : Nat) (result : TransferResult) (err : GoError) :
    Session :=
  match call.executor with
  | .locking => .returned call.cmd (.error err)
  | .serializable maxAttempts =>
    if ¬ isSerializationFailure err then .returned call.cmd (.error err)
    else if attempt ≥ maxAttempts then .returned call.cmd (.error (gaveUp attempt err))
    else .backoff call attempt result

namespace World

def set (w : World) (i : Nat) (s : Session) : World :=
  { w with sessions := fun j => if j = i then s else w.sessions j }

/-- The end of a transaction releases its locks. -/
def release (w : World) (i : Nat) : World :=
  { w with locks := w.locks.filter fun entry => entry.1 != i }

/-- Somebody else holds a lock that conflicts with one the operation needs. -/
def blocked (w : World) (i : Nat) (o : Op) : Bool :=
  w.locks.any fun entry => entry.1 != i && o.locks.any fun lock =>
    lock.1 == entry.2.1 && lock.2.conflicts entry.2.2

/-- SERIALIZABLE refuses to commit a transaction that forms a cycle of reads and
writes with one that committed since its snapshot. -/
def refused (w : World) (call : Call) (tx : OpenTx) : Bool :=
  call.strategy == .serializable &&
    (serializableSince w.log (tx.pinned call.strategy w.db w.log.length |>.elim 0 (·.2))).any
    tx.cycle

/-- The world after one operation of an open transaction. -/
def performed (w : World) (i : Nat) (call : Call) (attempt : Nat) (tx : OpenTx) (o : Op)
    (next : o.Reply → Prog sql (Except GoError Unit × TransferResult)) (c : Choice) : World :=
  { w.set i (.running call attempt (tx.advance call.strategy w.db w.log.length o next c)) with
    sequence := if o.drawsSequence then c.entryID else w.sequence
    locks := w.locks ++ (o.acquires (tx.answer call.strategy w.db c o).1).map fun lock =>
    (i, lock) }

/-- One operation of an open transaction, unless it has to wait for a lock. It may fail
while it waits: its context is cancelled, `lock_timeout` passes, or it is the victim of a
deadlock. -/
def perform (w : World) (i : Nat) (call : Call) (attempt : Nat) (tx : OpenTx) (c : Choice) :
    Option World :=
  match tx.prog with
  | .ret _ => none
  | .op o next =>
    if (c.fault.isNone && w.blocked i o) ||
        (o.drawsSequence && decide (c.entryID ≤ w.sequence)) then none
    else some (w.performed i call attempt tx o next c)

/-- The transaction's writes become visible together. -/
def apply (w : World) (i : Nat) (call : Call) (tx : OpenTx) (result : TransferResult) : World :=
  { w.release i with db := w.db.after tx.writes, log := w.log ++ [.call i call tx result] }

/-- The commit of a transaction whose closure returned nil. -/
def commit (w : World) (i : Nat) (call : Call) (attempt : Nat) (tx : OpenTx)
    (outcome : CommitOutcome) : Option World :=
  match tx.prog with
  | .ret (.ok (), result) =>
    match outcome with
    | .failed err =>
      some ((w.release i).set i
        (call.afterError attempt result (.wrap call.strategy.commitText err)))
    | .acknowledged =>
      if w.refused call tx then none
      else some ((w.apply i call tx result).set i (.returned call.cmd (.ok result)))
    | .lost err =>
      if w.refused call tx then none
      else some ((w.apply i call tx result).set i
        (call.afterError attempt result (.wrap call.strategy.commitText err)))
  | _ => none

/-- One act, if it is enabled. -/
def step (w : World) : Act → Option World
  | .start i executor cmd =>
    match w.sessions i with
    | .idle =>
      match valid : validate cmd with
      | .error err => some (w.set i (.returned cmd (.error err)))
      | .ok amount => some (w.set i (.ready ⟨executor, cmd, amount, valid⟩ 1 .empty))
    | _ => none
  | .begin i fault =>
    match w.sessions i, fault with
    | .ready call attempt result, some err =>
      some (w.set i (call.afterError attempt result (.wrap call.strategy.beginText err)))
    | .ready call attempt result, none =>
      some (w.set i (.running call attempt (.begun call result)))
    | _, _ => none
  | .perform i c =>
    match w.sessions i with
    | .running call attempt tx => w.perform i call attempt tx c
    | _ => none
  | .rollback i =>
    match w.sessions i with
    | .running call attempt tx =>
      match tx.prog with
      | .ret (.error err, result) =>
        some ((w.release i).set i (call.afterError attempt result err))
      | _ => none
    | _ => none
  | .commit i outcome =>
    match w.sessions i with
    | .running call attempt tx => w.commit i call attempt tx outcome
    | _ => none
  | .wake i cancelled =>
    match w.sessions i, cancelled with
    | .backoff call _ _, some err => some (w.set i (.returned call.cmd (.error err)))
    | .backoff call attempt result, none => some (w.set i (.ready call (attempt + 1) result))
    | _, _ => none
  | .crash i =>
    match w.sessions i with
    | .ready .. | .backoff .. => some (w.set i .crashed)
    | .running .. => some ((w.release i).set i .crashed)
    | _ => none
  | .openAccount a =>
    if (w.db.accountViolation a).isSome then none
    else some { w with db := w.db.addAccount a, log := w.log ++ [.account a] }

end World

/-- The acts of a call that executes its command without meeting a fault: `id` is
generated for its transfer and its event, and its sequence values follow `last`. -/
def Act.execution (i : Nat) (executor : Executor) (cmd : TransferCommand) (id : UUID) (last : Nat) :
    List Act :=
  [.start i executor cmd, .begin i none] ++
    (List.range 14).map (fun n => .perform i ⟨none, id, last + n + 1, 0⟩) ++
    [.commit i .acknowledged]

/-! ### A small wallet -/

namespace Scenario

def systemID : UUID := .ofByte 1

def alice : UUID := .ofByte 2

def bob : UUID := .ofByte 3

def opened : List Act :=
  [.openAccount ⟨systemID, "system", .system, "BRL"⟩,
    .openAccount ⟨alice, "alice", .customer, "BRL"⟩, .openAccount ⟨bob, "bob", .customer, "BRL"⟩]

def command (key : String) (source target : UUID) : TransferCommand :=
  ⟨⟨"alice", "POST /transfers", key⟩, key, source, target, 100⟩

def payIn : TransferCommand := command "deposit" systemID alice

def performs (i : Nat) (id : UInt8) (last count : Nat) : List Act :=
  (List.range count).map fun n => .perform i ⟨none, .ofByte id, last + n + 1, 0⟩

end Scenario

/-! ### What a step can do -/

/-- A session outside a transaction that has not returned successfully. -/
def Session.Unsuccessful : Session → Prop
  | .running .. => False
  | .returned _ (.ok _) => False
  | _ => True

def Session.Over : Session → Prop
  | .returned .. | .crashed => True
  | _ => False

def Session.call : Session → Option Call
  | .ready call _ _ | .running call _ _ | .backoff call _ _ => some call
  | _ => none

def Session.command : Session → Option TransferCommand
  | .ready call _ _ | .running call _ _ | .backoff call _ _ => some call.cmd
  | .returned cmd _ => some cmd
  | .idle | .crashed => none

/-- `s` comes after `was` in the course of one call. -/
structure Session.Continues (was s : Session) : Prop where
  call : ∀ call, s.call = some call → was.call = some call
  command : ∀ cmd, was.command = some cmd → s = .crashed ∨ s.command = some cmd

theorem Session.continues_crashed (was : Session) : was.Continues .crashed :=
  ⟨nofun, fun _ _ => .inl rfl⟩

theorem Session.Unsuccessful.not_running {s : Session} (unsuccessful : s.Unsuccessful) :
    ∀ call attempt tx, s ≠ .running call attempt tx := by
  rintro call attempt tx rfl
  exact unsuccessful

theorem Session.Unsuccessful.not_ok {s : Session} (unsuccessful : s.Unsuccessful)
    (cmd : TransferCommand) (r : TransferResult) : s ≠ .returned cmd (.ok r) := by
  rintro rfl
  exact unsuccessful

theorem Call.afterError_unsuccessful (call : Call) (attempt : Nat) (result : TransferResult)
    (err : GoError) : (call.afterError attempt result err).Unsuccessful := by
  unfold Call.afterError
  split
  · trivial
  · split
    · trivial
    · split <;> trivial

theorem Call.afterError_call {call call' : Call} {attempt : Nat} {result : TransferResult}
    {err : GoError} (same : (call.afterError attempt result err).call = some call') :
    call' = call := by
  unfold Call.afterError at same
  split at same
  · cases same
  · split at same
    · cases same
    · split at same
      · cases same
      · cases same
        rfl

theorem Call.afterError_command (call : Call) (attempt : Nat) (result : TransferResult)
    (err : GoError) : (call.afterError attempt result err).command = some call.cmd := by
  unfold Call.afterError
  split
  · rfl
  · split
    · rfl
    · split <;> rfl

/-- After an error a call goes on or has returned. -/
theorem Call.afterError_continues {call : Call} {was : Session} (working : was.call = some call)
    (called : was.command = some call.cmd) (attempt : Nat) (result : TransferResult)
    (err : GoError) : was.Continues (call.afterError attempt result err) where
  call call' same := by rw [working, Call.afterError_call same]
  command cmd same := .inr (by rw [Call.afterError_command, ← called, same])

namespace World

variable {w : World} {i j : Nat}

@[simp] theorem sessions_set_self (s : Session) : (w.set i s).sessions i = s := by
  simp [set]

theorem sessions_set (other : j ≠ i) (s : Session) : (w.set i s).sessions j = w.sessions j := by
  simp [set, other]

end World

/-- The steps of the system, by what they do. -/
inductive World.Move (w : World) : Act → World → Prop where
  | outside {a : Act} (i : Nat) (s : Session) (mine : a.session = some i)
      (was : (w.sessions i).Unsuccessful) (now : s.Unsuccessful)
      (kept : (w.sessions i).Continues s ∨ ∃ executor cmd, a = .start i executor cmd ∧
        w.sessions i = .idle ∧ ∀ call, s.call = some call → call.executor = executor) :
      Move w a (w.set i s)
  | begins (i : Nat) (call : Call) (attempt : Nat) (result : TransferResult)
      (was : w.sessions i = .ready call attempt result) :
      Move w (.begin i none) (w.set i (.running call attempt (.begun call result)))
  | performs (i : Nat) (c : Choice) (call : Call) (attempt : Nat) (tx : OpenTx) (o : Op)
      (next : o.Reply → Prog sql (Except GoError Unit × TransferResult))
      (was : w.sessions i = .running call attempt tx) (prog : tx.prog = .op o next)
      (free : c.fault = none → w.blocked i o = false)
      (drawn : o.drawsSequence → w.sequence < c.entryID) :
      Move w (.perform i c) (w.performed i call attempt tx o next c)
  | aborts {a : Act} (i : Nat) (s : Session) (mine : a.session = some i) (call : Call)
      (attempt : Nat)
      (tx : OpenTx) (was : w.sessions i = .running call attempt tx) (now : s.Unsuccessful)
      (kept : (w.sessions i).Continues s) : Move w a ((w.release i).set i s)
  | commits (i : Nat) (outcome : CommitOutcome) (call : Call) (attempt : Nat) (tx : OpenTx)
      (result : TransferResult) (s : Session) (was : w.sessions i = .running call attempt tx)
      (prog : tx.prog = .ret (.ok (), result)) (allowed : w.refused call tx = false)
      (now : outcome = .acknowledged ∧ s = .returned call.cmd (.ok result) ∨
        ∃ err, outcome = .lost err ∧
          s = call.afterError attempt result (.wrap call.strategy.commitText err)) :
      Move w (.commit i outcome) ((w.apply i call tx result).set i s)
  | opens (a : Account) (valid : w.db.accountViolation a = none) :
      Move w (.openAccount a) { w with db := w.db.addAccount a, log := w.log ++ [.account a] }

namespace World

theorem commit_move {w w' : World} {i : Nat} {outcome : CommitOutcome} {call : Call} {attempt : Nat}
    {tx : OpenTx} (was : w.sessions i = .running call attempt tx)
    (stepped : w.commit i call attempt tx outcome = some w') : w.Move (.commit i outcome) w' := by
  unfold commit at stepped
  split at stepped
  · next result prog =>
    split at stepped
    · cases stepped
      refine .aborts i _ rfl call attempt tx was (call.afterError_unsuccessful _ _ _) ?_
      rw [was]
      exact Call.afterError_continues rfl rfl _ _ _
    · split at stepped
      · cases stepped
      · next allowed =>
        cases stepped
        exact .commits i _ call attempt tx result _ was prog (by simpa using allowed)
          (.inl ⟨rfl, rfl⟩)
    · split at stepped
      · cases stepped
      · next err allowed =>
        cases stepped
        exact .commits i _ call attempt tx result _ was prog (by simpa using allowed)
          (.inr ⟨err, rfl, rfl⟩)
  · cases stepped

theorem perform_move {w w' : World} {i : Nat} {c : Choice} {call : Call} {attempt : Nat}
    {tx : OpenTx} (was : w.sessions i = .running call attempt tx)
    (stepped : w.perform i call attempt tx c = some w') : w.Move (.perform i c) w' := by
  unfold perform at stepped
  split at stepped
  · cases stepped
  · next o next prog =>
    split at stepped
    · cases stepped
    · next enabled =>
      cases stepped
      simp only [Bool.or_eq_true, not_or, Bool.and_eq_true, decide_eq_true_eq, not_and, Nat.not_le,
        Bool.not_eq_true, Option.isNone_iff_eq_none] at enabled
      exact .performs i c call attempt tx o next was prog enabled.1 enabled.2

/-- Every step is one of the moves. -/
theorem step_move {w w' : World} {a : Act} (stepped : w.step a = some w') : w.Move a w' := by
  cases a with
  | start i executor cmd =>
    simp only [step] at stepped
    split at stepped
    · next was =>
      split at stepped
      · cases stepped
        exact .outside i _ rfl (by rw [was]; trivial) trivial
          (.inr ⟨executor, cmd, rfl, was, nofun⟩)
      · cases stepped
        refine .outside i _ rfl (by rw [was]; trivial) trivial (.inr ⟨executor, cmd, rfl, was, ?_⟩)
        rintro _ ⟨⟩
        rfl
    · cases stepped
  | begin i fault =>
    simp only [step] at stepped
    split at stepped
    · next was =>
      cases stepped
      refine .outside i _ rfl (by rw [was]; trivial)
        (Call.afterError_unsuccessful _ _ _ _) (.inl ?_)
      rw [was]
      exact Call.afterError_continues rfl rfl _ _ _
    · next was =>
      cases stepped
      exact .begins i _ _ _ was
    · cases stepped
  | perform i c =>
    simp only [step] at stepped
    split at stepped
    · next was => exact perform_move was stepped
    · cases stepped
  | rollback i =>
    simp only [step] at stepped
    split at stepped
    · next was =>
      split at stepped
      · cases stepped
        refine .aborts i _ rfl _ _ _ was (Call.afterError_unsuccessful _ _ _ _) ?_
        rw [was]
        exact Call.afterError_continues rfl rfl _ _ _
      · cases stepped
    · cases stepped
  | commit i outcome =>
    simp only [step] at stepped
    split at stepped
    · next was => exact commit_move was stepped
    · cases stepped
  | wake i cancelled =>
    simp only [step] at stepped
    split at stepped
    · next was =>
      cases stepped
      refine .outside i _ rfl (by rw [was]; trivial) trivial (.inl ?_)
      rw [was]
      exact ⟨nofun, fun _ same => .inr same⟩
    · next was =>
      cases stepped
      refine .outside i _ rfl (by rw [was]; trivial) trivial (.inl ?_)
      rw [was]
      exact ⟨fun _ same => same, fun _ same => .inr same⟩
    · cases stepped
  | crash i =>
    simp only [step] at stepped
    split at stepped
    · next was =>
      cases stepped
      exact .outside i _ rfl (by rw [was]; trivial) trivial (.inl (Session.continues_crashed _))
    · next was =>
      cases stepped
      exact .outside i _ rfl (by rw [was]; trivial) trivial (.inl (Session.continues_crashed _))
    · next was =>
      cases stepped
      exact .aborts i _ rfl _ _ _ was trivial (Session.continues_crashed _)
    · cases stepped
  | openAccount a =>
    simp only [step] at stepped
    split at stepped
    · cases stepped
    · next valid =>
      cases stepped
      exact .opens a (by simpa using valid)

/-- A session that has returned or crashed takes no more steps. -/
theorem step_live {w w' : World} {a : Act} {i : Nat} (mine : a.session = some i)
    (stepped : w.step a = some w') : ¬ (w.sessions i).Over := by
  intro ended
  cases was : w.sessions i with
  | returned cmd reply =>
    cases a with
    | openAccount a => cases mine
    | _ => cases mine; simp [step, was] at stepped
  | crashed =>
    cases a with
    | openAccount a => cases mine
    | _ => cases mine; simp [step, was] at stepped
  | _ => rw [was] at ended; exact ended

/-- A start calls an idle session. -/
theorem step_start {w w' : World} {i : Nat} {e : Executor} {cmd : TransferCommand}
    (stepped : w.step (.start i e cmd) = some w') :
    w.sessions i = .idle ∧ (w'.sessions i).command = some cmd := by
  simp only [step] at stepped
  split at stepped
  · next idle =>
    refine ⟨idle, ?_⟩
    split at stepped
    · cases stepped
      rw [sessions_set_self]
      rfl
    · cases stepped
      rw [sessions_set_self]
      rfl
  · cases stepped

/-- A step changes no session but its own. -/
theorem Move.sessions_other {w w' : World} {a : Act} {i : Nat} (move : w.Move a w')
    (other : a.session ≠ some i) : w'.sessions i = w.sessions i := by
  have distinct : ∀ {j}, a.session = some j → i ≠ j := by
    rintro j mine rfl
    exact other mine
  cases move with
  | outside j s mine was now kept => exact sessions_set (distinct mine) s
  | begins j call attempt result was => exact sessions_set (distinct rfl) _
  | performs j c call attempt tx o next was prog free drawn => exact sessions_set (distinct rfl) _
  | aborts j s mine call attempt tx was now kept => exact sessions_set (distinct mine) s
  | commits j outcome call attempt tx result s was prog allowed now =>
    exact sessions_set (distinct rfl) s
  | opens a valid => rfl

/-- The sequence does not go back. -/
theorem Move.sequence_le {w w' : World} {a : Act} (move : w.Move a w') :
    w.sequence ≤ w'.sequence := by
  cases move with
  | performs i c call attempt tx o next was prog free drawn =>
    simp only [performed]
    split
    · next draws => exact Nat.le_of_lt (drawn draws)
    · exact Nat.le_refl _
  | _ => exact Nat.le_refl _

/-- The log only grows. -/
theorem Move.log_prefix {w w' : World} {a : Act} (move : w.Move a w') : w.log <+: w'.log := by
  cases move with
  | commits i outcome call attempt tx result s was prog allowed now => exact List.prefix_append _ _
  | opens a valid => exact List.prefix_append _ _
  | _ => exact List.prefix_refl _

/-- Success is returned by the step that commits. -/
theorem Move.reported {w w' : World} {a : Act} {i : Nat} (move : w.Move a w')
    (mine : a.session = some i) {cmd : TransferCommand} {r : TransferResult}
    (now : w'.sessions i = .returned cmd (.ok r)) :
    ∃ call tx, call.cmd = cmd ∧ w'.log = w.log ++ [.call i call tx r] := by
  cases move with
  | outside j s mine' was calm kept =>
    cases mine.symm.trans mine'
    rw [sessions_set_self] at now
    exact absurd now (calm.not_ok cmd r)
  | begins j call attempt result was =>
    cases mine
    rw [sessions_set_self] at now
    cases now
  | performs j c call attempt tx o next was prog free drawn =>
    cases mine
    rw [show (w.performed i call attempt tx o next c).sessions i = _ from sessions_set_self _]
      at now
    cases now
  | aborts j s mine' call attempt tx was calm kept =>
    cases mine.symm.trans mine'
    rw [sessions_set_self] at now
    exact absurd now (calm.not_ok cmd r)
  | commits j outcome call attempt tx result s was prog allowed ends =>
    cases mine
    rw [sessions_set_self] at now
    subst now
    rcases ends with ⟨-, same⟩ | ⟨err, -, same⟩
    · cases same
      exact ⟨call, tx, rfl, rfl⟩
    · exact absurd same.symm ((call.afterError_unsuccessful _ _ _).not_ok cmd r)
  | opens a valid => cases mine

/-- What the step that makes a commit leaves its session at. -/
theorem Move.logged {w w' : World} {a : Act} {i : Nat} {call : Call} {tx : OpenTx}
    {r : TransferResult} (move : w.Move a w') (mem : .call i call tx r ∈ w'.log) :
    .call i call tx r ∈ w.log ∨ ∃ attempt, w.sessions i = .running call attempt tx ∧
      tx.prog = .ret (.ok (), r) ∧ (w'.sessions i = .returned call.cmd (.ok r) ∨
        ∃ err, w'.sessions i = call.afterError attempt r (.wrap call.strategy.commitText err)) := by
  cases move with
  | commits j outcome call' attempt tx' result s was prog allowed ends =>
    rcases List.mem_append.mp mem with old | new
    · exact .inl old
    · cases List.mem_singleton.mp new
      refine .inr ⟨attempt, was, prog, ?_⟩
      rw [sessions_set_self]
      rcases ends with ⟨-, rfl⟩ | ⟨err, -, rfl⟩
      · exact .inl rfl
      · exact .inr ⟨err, rfl⟩
  | opens a valid =>
    rcases List.mem_append.mp mem with old | new
    · exact .inl old
    · cases List.mem_singleton.mp new
  | _ => exact .inl mem

end World

end WalletGo
