import WalletGo.Relay.Program
import WalletGo.Postgres.InTx
import WalletGo.Txn.System

/-!
Any number of relays over one outbox, interleaved operation by operation.

A relay is the residual program of its poll and the updates of its open
transaction. `SKIP LOCKED` is the assumption about the server: the query returns
some row that no transaction holds and whose newest committed version is pending
and due, or no row. The environment decides which, and every error, the answer of
`Publish`, the fate of a commit and when a relay dies.

A transaction ends by its own commit or rollback, by a statement that fails, with the
process that runs it, or at the server, which the relay learns from its next statement;
its row is held until then. The answered calls of `Publish` and the committed
transactions are recorded for stating properties.
-/

namespace WalletGo.Relay

open Txn (Prog runs)

/-- What the `UPDATE` of a relay transaction sets, `attempts` aside. -/
inductive Update where
  | failed (nextAttemptAt : Time)
  | published (now : Time)
deriving DecidableEq, Repr

def Update.apply (row : OutboxRow) : Update → OutboxRow
  | .failed nextAttemptAt =>
    { row with attempts := row.attempts + 1, nextAttemptAt := nextAttemptAt }
  | .published now => { row with publishedAt := some now, attempts := row.attempts + 1 }

def Event.of (row : OutboxRow) : Event :=
  ⟨row.eventID, row.eventType, row.payload, row.attempts⟩

structure Session where
  prog : Prog sig (Nat × Option GoError)
  /-- What the open transaction has written. -/
  writes : List (UUID × Update)
  /-- The server has ended the transaction and the relay does not know yet. -/
  severed : Bool

structure State where
  outbox : List OutboxRow
  /-- The rows that open transactions hold. -/
  locks : List (Nat × UUID)
  relays : Nat → Session
  /-- The calls of `Publish` that have returned, with their success. -/
  calls : List (Event × Bool)
  /-- The events of the transactions that have committed an update. -/
  commits : List UUID

/-- What the environment decides about one operation. -/
structure Choice where
  fault : Option GoError
  pick : Option UUID
  /-- `now()` of the transaction -/
  now : Time
  /-- `time.Now()` of the relay, and its random draw -/
  clock : Time
  draw : Nat
  commit : CommitOutcome

def Choice.reply (c : Choice) : Except GoError Unit :=
  match c.fault with
  | none => .ok ()
  | some err => .error err

/-- The error of a statement on a connection that is gone. -/
def Choice.broken (c : Choice) : GoError := c.fault.getD (.other "conn closed")

inductive Act where
  /-- A transfer commits an event. -/
  | append (row : OutboxRow)
  | poll (i batchSize : Nat)
  | perform (i : Nat) (c : Choice)
  /-- The server rolls the relay's open transaction back on its own: the connection is
  lost, a timeout strikes or the server goes down. -/
  | sever (i : Nat)
  /-- The relay dies, or a panic unwinds its poll. -/
  | crash (i : Nat)

namespace State

def init : State := ⟨[], [], fun _ => ⟨.ret (0, none), [], false⟩, [], []⟩

def set (s : State) (i : Nat) (session : Session) : State :=
  { s with relays := fun j => if j = i then session else s.relays j }

def resume (s : State) (i : Nat) (prog : Prog sig (Nat × Option GoError)) : State :=
  s.set i ⟨prog, (s.relays i).writes, (s.relays i).severed⟩

/-- The transaction ends without its writes. -/
def release (s : State) (i : Nat) : State :=
  { s.set i ⟨(s.relays i).prog, [], false⟩ with locks := s.locks.filter fun lock => lock.1 != i }

/-- The transaction ends without its writes and without the relay. -/
def sever (s : State) (i : Nat) : State :=
  (s.release i).set i ⟨(s.relays i).prog, [], true⟩

def claim (s : State) (i : Nat) (eventID : UUID) : State :=
  { s with locks := s.locks ++ [(i, eventID)] }

def record (s : State) (e : Event) (success : Bool) : State :=
  { s with calls := s.calls ++ [(e, success)] }

def stage (s : State) (i : Nat) (eventID : UUID) (u : Update) : State :=
  s.set i ⟨(s.relays i).prog, (s.relays i).writes ++ [(eventID, u)], (s.relays i).severed⟩

/-- `UPDATE outbox SET … WHERE event_id = $1` -/
def updated (outbox : List OutboxRow) (write : UUID × Update) : List OutboxRow :=
  outbox.map fun row => if row.eventID = write.1 then write.2.apply row else row

def commit (s : State) (i : Nat) : State :=
  { s.release i with
    outbox := (s.relays i).writes.foldl updated s.outbox
    commits := s.commits ++ (s.relays i).writes.map (·.1) }

/-- `published_at IS NULL AND next_attempt_at <= now()`, on a row nobody holds. -/
def available (s : State) (now : Time) (row : OutboxRow) : Bool :=
  row.publishedAt.isNone && decide (row.nextAttemptAt ≤ now) &&
    s.locks.all fun lock => lock.2 != row.eventID

/-- `attempts` is an `INT`. -/
def exhausted (s : State) (eventID : UUID) : Bool :=
  s.outbox.any fun row => row.eventID == eventID && decide (2 ^ 31 ≤ row.attempts + 1)

/-- How a statement of relay `i` fails, if it does. -/
def fault (s : State) (i : Nat) (c : Choice) : Option GoError :=
  if (s.relays i).severed then some c.broken else c.fault

def outcome (s : State) (i : Nat) (c : Choice) : CommitOutcome :=
  if (s.relays i).severed then .failed c.broken else c.commit

def update (s : State) (i : Nat) (c : Choice) (eventID : UUID) (u : Update) :
    Except GoError Unit × State :=
  match s.fault i c with
  | some err => (.error err, s.release i)
  | none =>
    if s.exhausted eventID then (.error (.pgError "22003" "integer out of range"), s.release i)
    else (.ok (), s.stage i eventID u)

def select (s : State) (i : Nat) (c : Choice) : Option (Except GoError (Option Event) × State) :=
  match s.fault i c, c.pick with
  | some err, _ => some (.error err, s.release i)
  | none, none => some (.ok none, s)
  | none, some eventID =>
    match s.outbox.find? fun row => row.eventID == eventID with
    | none => none
    | some row =>
      if s.available c.now row then some (.ok (some (.of row)), s.claim i row.eventID) else none

/-- What an operation of relay `i` replies, and the state it leaves. -/
def answer (s : State) (i : Nat) (c : Choice) : (o : Op) → Option (o.Reply × State)
  | .begin => some (c.reply, s)
  | .select => s.select i c
  | .publish e => some (c.reply, s.record e c.fault.isNone)
  | .nextAttempt attempts => some (nextAttempt c.clock c.draw attempts, s)
  | .recordFailure eventID nextAttemptAt => some (s.update i c eventID (.failed nextAttemptAt))
  | .markPublished eventID => some (s.update i c eventID (.published c.now))
  | .commit =>
    match s.outcome i c with
    | .acknowledged => some (.ok (), s.commit i)
    | .lost err => some (.error err, s.commit i)
    | .failed err => some (.error err, s.release i)
  | .rollback => some ((), s.release i)

def perform (s : State) (i : Nat) (c : Choice) : Option State :=
  match (s.relays i).prog with
  | .ret _ => none
  | .op o next => (s.answer i c o).map fun outcome => outcome.2.resume i (next outcome.1)

/-- An event as `AppendEvent` inserts it. -/
def fresh (s : State) (row : OutboxRow) : Bool :=
  row.publishedAt.isNone && row.attempts == 0 && s.outbox.all fun other =>
    other.eventID != row.eventID

def step (s : State) : Act → Option State
  | .append row => if s.fresh row then some { s with outbox := s.outbox ++ [row] } else none
  | .poll i batchSize =>
    match (s.relays i).prog with
    | .ret _ => some (s.resume i (pollOnce batchSize))
    | .op _ _ => none
  | .perform i c => s.perform i c
  | .sever i =>
    match (s.relays i).prog with
    | .ret _ => none
    | .op o _ => if o = .begin then none else some (s.sever i)
  | .crash i => some ((s.release i).resume i (.ret (0, none)))

def Holds (s : State) (i : Nat) (eventID : UUID) : Prop := (i, eventID) ∈ s.locks

/-- The server has ended the transaction in which relay `i` goes on. -/
def Severed (s : State) (i : Nat) : Prop := (s.relays i).severed = true

/-- Relay `i` is in a call of `Publish`, or about to make it. -/
def Publishing (s : State) (i : Nat) (e : Event) : Prop :=
  ∃ next, (s.relays i).prog = .op (.publish e) next

def callsFor (s : State) (eventID : UUID) : Nat :=
  s.calls.countP fun call => call.1.id == eventID

end State

end WalletGo.Relay
