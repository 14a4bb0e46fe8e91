import WalletGo.Postgres.Tables
import WalletGo.Txn.Program

/-!
`OutboxRelay`: `processOne` and `PollOnce`, as programs.

The operations are the statements of the relay's transaction, the call of
`Publisher.Publish` and the draw of the next attempt's time. `Phase` lists the
points of `processOne` between two of them; `pollOnce_follows` says that polling
goes through these points and no others.
-/

namespace WalletGo.Relay

open Txn (Prog)

/-- `Event`, as far as the relay's query fills it in. -/
structure Event where
  id : UUID
  type : String
  payload : EventPayload
  attempts : Nat
deriving DecidableEq, Repr

inductive Op where
  | begin
  | select
  | publish (e : Event)
  | nextAttempt (attempts : Nat)
  | recordFailure (eventID : UUID) (nextAttemptAt : Time)
  | markPublished (eventID : UUID)
  | commit
  | rollback
deriving DecidableEq, Repr

/-- An error or what the call hands back. The deferred rollback's error is
dropped. -/
abbrev Op.Reply : Op → Type
  | .select => Except GoError (Option Event)
  | .nextAttempt _ => Time
  | .rollback => Unit
  | _ => Except GoError Unit

abbrev sig : Txn.Signature := ⟨Op, Op.Reply⟩

/-- Return `fmt.Errorf(text + ": %w", err)` on an error, go on otherwise. -/
def orReturn {α β : Type} (text : String) (reply : Except GoError α)
    (next : α → Prog sig (Except GoError β)) : Prog sig (Except GoError β) :=
  match reply with
  | .error err => .ret (.error (.wrap text err))
  | .ok value => next value

/-- `processOne` from the call of `Publish` on. -/
def deliver (e : Event) : Prog sig (Except GoError (Bool × Bool)) :=
  .op (.publish e) fun
    | .error _ =>
      .op (.nextAttempt (e.attempts + 1)) fun nextAttemptAt =>
      .op (.recordFailure e.id nextAttemptAt) fun reply =>
        orReturn "postgres: record failed attempt" reply fun () =>
      .op .commit fun reply =>
        orReturn "postgres: commit relay tx" reply fun () => .ret (.ok (true, false))
    | .ok () =>
      .op (.markPublished e.id) fun reply =>
        orReturn "postgres: mark event published" reply fun () =>
      .op .commit fun reply =>
        orReturn "postgres: commit relay tx" reply fun () => .ret (.ok (true, true))

/-- `processOne` inside its transaction. -/
def processRow : Prog sig (Except GoError (Bool × Bool)) :=
  .op .select fun
    | .error err =>
      .ret (if err.is .noRows then
        .ok (false, false) else .error (.wrap "postgres: poll outbox" err))
    | .ok none => .ret (.ok (false, false))
    | .ok (some e) => deliver e

/-- `OutboxRelay.processOne`: whether a row was found and whether it was
published. -/
def processOne : Prog sig (Except GoError (Bool × Bool)) :=
  .op .begin fun reply =>
    orReturn "postgres: begin relay tx" reply fun () =>
  processRow.bind fun result =>
  .op .rollback fun () => .ret result

/-- The loop of `PollOnce`, with `left` rounds left. -/
def pollLoop : (left published : Nat) → Prog sig (Nat × Option GoError)
  | 0, published => .ret (published, none)
  | left + 1, published => processOne.bind fun
    | .error err => .ret (published, some err)
    | .ok (false, _) => .ret (published, none)
    | .ok (true, didPublish) => pollLoop left (if didPublish then published + 1 else published)

/-- `OutboxRelay.PollOnce` -/
def pollOnce (batchSize : Nat) : Prog sig (Nat × Option GoError) := pollLoop batchSize 0

/-! ### The time of the next attempt -/

def shiftLeft (x : Int64) (n : Nat) : Int64 :=
  if n < 64 then Int64.ofInt (x.toInt * 2 ^ n) else 0

-- durations are nanoseconds
def relayBaseBackoff : Int64 := 1000000000

def relayMaxBackoff : Int64 := 60000000000

/-- The bound of the draw in `nextAttempt`. -/
def ceiling (attempts : Nat) : Int64 :=
  let ceiling := if attempts > 0 then shiftLeft relayBaseBackoff attempts else relayBaseBackoff
  if ceiling > relayMaxBackoff ∨ ceiling ≤ 0 then relayMaxBackoff else ceiling

/-- `nextAttempt`, when the clock reads `clock` and the generator `draw`. -/
def nextAttempt (clock : Time) (draw attempts : Nat) : Time :=
  clock + draw % (ceiling attempts).toInt.toNat

/-! ### Control flow -/

inductive Phase where
  | outside
  | selecting
  | publishing (e : Event)
  | scheduling (e : Event)
  | recording (e : Event) (nextAttemptAt : Time)
  | marking (e : Event)
  | committing (e : Event) (published : Bool)
  | closing

namespace Phase

def op : Phase → Op
  | .outside => .begin
  | .selecting => .select
  | .publishing e => .publish e
  | .scheduling e => .nextAttempt (e.attempts + 1)
  | .recording e nextAttemptAt => .recordFailure e.id nextAttemptAt
  | .marking e => .markPublished e.id
  | .committing _ _ => .commit
  | .closing => .rollback

def next : Phase → (o : Op) → o.Reply → Phase
  | .outside, .begin, .error _ => .outside
  | .outside, .begin, .ok () => .selecting
  | .selecting, .select, .error _ | .selecting, .select, .ok none => .closing
  | .selecting, .select, .ok (some e) => .publishing e
  | .publishing e, .publish _, .error _ => .scheduling e
  | .publishing e, .publish _, .ok () => .marking e
  | .scheduling e, .nextAttempt _, nextAttemptAt => .recording e nextAttemptAt
  | .recording e _, .recordFailure _ _, .ok () => .committing e false
  | .recording _ _, .recordFailure _ _, .error _ => .closing
  | .marking e, .markPublished _, .ok () => .committing e true
  | .marking _, .markPublished _, .error _ => .closing
  | .committing _ _, .commit, _ => .closing
  | .closing, .rollback, _ => .outside
  | phase, _, _ => phase

def discipline : Prog.Discipline sig Phase where
  allows phase o := o = phase.op
  moves phase o reply phase' := phase' = phase.next o reply

/-- The residual programs of a poll at a phase: it may end only outside a
transaction. -/
def Follows (program : Prog sig (Nat × Option GoError)) (phase : Phase) : Prop :=
  program.Always discipline (fun phase _ => phase = .outside) phase

end Phase

theorem deliver_follows (e : Event) :
    (deliver e).Always Phase.discipline (fun phase _ => phase = .closing) (.publishing e) := by
  refine ⟨rfl, ?_⟩
  rintro (err | _) _ rfl
  · refine ⟨rfl, ?_⟩
    rintro nextAttemptAt _ rfl
    refine ⟨rfl, ?_⟩
    rintro (err | _) _ rfl
    · rfl
    refine ⟨rfl, ?_⟩
    rintro (err | _) _ rfl
    · rfl
    · rfl
  · refine ⟨rfl, ?_⟩
    rintro (err | _) _ rfl
    · rfl
    refine ⟨rfl, ?_⟩
    rintro (err | _) _ rfl
    · rfl
    · rfl

/-- `processOne` starts and ends outside a transaction. -/
theorem processOne_follows :
    processOne.Always Phase.discipline (fun phase _ => phase = .outside) .outside := by
  refine ⟨rfl, ?_⟩
  rintro (err | _) _ rfl
  · rfl
  have row : processRow.Always Phase.discipline (fun phase _ => phase = .closing) .selecting := by
    refine ⟨rfl, ?_⟩
    rintro (err | _ | e) _ rfl
    · rfl
    · rfl
    · exact deliver_follows e
  refine Prog.Always.bind row ?_
  rintro _ result rfl
  refine ⟨rfl, ?_⟩
  rintro _ _ rfl
  rfl

theorem pollLoop_follows (left published : Nat) :
    Phase.Follows (pollLoop left published) .outside := by
  induction left generalizing published with
  | zero => rfl
  | succ left ih =>
    refine Prog.Always.bind processOne_follows ?_
    rintro _ (err | ⟨ok, didPublish⟩) rfl
    · rfl
    · cases ok with
      | false => rfl
      | true => exact ih _

theorem pollOnce_follows (batchSize : Nat) : Phase.Follows (pollOnce batchSize) .outside :=
  pollLoop_follows batchSize 0

end WalletGo.Relay
