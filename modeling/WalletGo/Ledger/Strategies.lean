import WalletGo.App.Failures
import WalletGo.Ledger.Serial

/-!
The two strategies compute the same function when requests are served in turn.

The bodies of `Execute` differ in the order in which they read the accounts, in
`FOR UPDATE` and in the texts of errors that only a fault can cause. `Matches` relates
the phases of one closure to those of the other; it takes them step by step to the
same end (`run_strategies`). No error of a fault-free attempt is retried
(`run_definite`), so the retry loop makes one attempt.
-/

namespace WalletGo

open Txn (Prog)

/-- An attempt in which nothing fails; its ids may be any. -/
structure Attempt.Clean (a : Attempt) : Prop where
  begun : a.beginFault = none
  choices : ∀ n, (a.choice n).fault = none
  committed : a.commit = .acknowledged

theorem Db.kindOf_after (db : Db) (writes : List Write) (id : UUID) :
    (db.after writes).kindOf id = db.kindOf id := by
  induction writes generalizing db with
  | nil => rfl
  | cons write rest ih =>
    rw [Db.after_cons, ih]
    cases write <;> rfl

namespace Phase

variable {cmd : TransferCommand} {amount : Money} {db : Db} {c : Choice}

/-- Neither of the two points between the account reads and the balance. -/
def Settled : Phase amount → Prop
  | .readSecond .. | .readBalance .. => False
  | _ => True

/-- Where the locking closure stands when the serializable one stands there. -/
inductive Matches (cmd : TransferCommand) (db : Db) : Phase amount → Phase amount → Prop where
  | same (phase : Phase amount) (settled : phase.Settled) : Matches cmd db phase phase
  | second (id : UUID) : Matches cmd db (.readSecond id (db.kindOf (readOrder .locking cmd).1))
      (.readSecond id (db.kindOf (readOrder .serializable cmd).1))
  | balance (id : UUID) : Matches cmd db
      (.readBalance id (db.kindOf (readOrder .locking cmd).1)
        (db.kindOf (readOrder .locking cmd).2))
      (.readBalance id (db.kindOf (readOrder .serializable cmd).1)
        (db.kindOf (readOrder .serializable cmd).2))

/-- Runs that match return the same. -/
theorem Matches.outcome {phase phase' : Phase amount} (agree : Matches cmd db phase phase') :
    phase.outcome = phase'.outcome := by
  cases agree <;> rfl

/-- The batch's results when no statement of it failed: the text is not used. -/
theorem scanReplies_ok (text : String) (ids : UUID × UUID) (source : UUID)
    (k₁ k₂ : Option AccountKind) (sum : Int) :
    scanReplies text ids source ⟨.ok k₁, .ok k₂, .ok sum⟩ =
      match k₁, k₂ with
      | some k₁, some k₂ => (scanInt64 "postgres: read source balance" (.ok sum)).map
          fun balance => (if source = ids.2 then k₂ else k₁, balance)
      | _, _ => .error .errAccountNotFound := by
  cases k₁ with
  | none => rfl
  | some k₁ =>
    cases k₂ with
    | none => rfl
    | some k₂ =>
      unfold scanReplies
      cases scanInt64 "postgres: read source balance" (.ok sum) <;> rfl

/-- In whichever order the accounts were read, the kind of the source is kept, and an
account that is missing is reported the same. -/
theorem afterRead_strategies (distinct : cmd.fromAccountID ≠ cmd.toAccountID)
    (id : UUID) (sum : Int) :
    (afterRead .locking cmd id ⟨.ok (db.kindOf (readOrder .locking cmd).1),
        .ok (db.kindOf (readOrder .locking cmd).2), .ok sum⟩ : Phase amount) =
      afterRead .serializable cmd id ⟨.ok (db.kindOf (readOrder .serializable cmd).1),
        .ok (db.kindOf (readOrder .serializable cmd).2), .ok sum⟩ := by
  have serializable : readOrder .serializable cmd = (cmd.fromAccountID, cmd.toAccountID) := rfl
  rw [afterRead, afterRead, scanReplies_ok, scanReplies_ok, serializable]
  rcases readOrder_cases .locking cmd with order | order
  · rw [order]
  · rw [order]
    cases db.kindOf cmd.fromAccountID with
    | none => cases db.kindOf cmd.toAccountID <;> rfl
    | some source =>
      cases db.kindOf cmd.toAccountID with
      | none => rfl
      | some target => simp [distinct]

theorem settled_afterRead {x : Strategy} (id : UUID) (replies : ReadReplies) :
    (afterRead x cmd id replies : Phase amount).Settled := by
  unfold afterRead
  split <;> trivial

theorem settled_afterCheck (id : UUID) (kind : AccountKind) (balance : Int64) :
    (afterCheck id kind balance : Phase amount).Settled := by
  unfold afterCheck
  split <;> trivial

theorem settled_orFail {text : String} {phase : Phase amount} (settled : phase.Settled)
    (reply : Except GoError Unit) : (orFail text phase reply).Settled := by
  cases reply with
  | error err => trivial
  | ok value => exact settled

/-- One operation without a fault takes both closures on. -/
theorem Matches.step (made : List Write) (distinct : cmd.fromAccountID ≠ cmd.toAccountID)
    (healthy : c.fault = none) {phase phase' : Phase amount}
    (agree : Matches cmd db phase phase') {o o' : Op} (here : phase.op .locking cmd = some o)
    (here' : phase'.op .serializable cmd = some o') :
    (exec c (db.after made) (db.after made) o).2 = (exec c (db.after made) (db.after made) o').2 ∧
      Matches cmd db (phase.next .locking cmd o (exec c (db.after made) (db.after made) o).1)
        (phase'.next .serializable cmd o' (exec c (db.after made) (db.after made) o').1) := by
  cases agree with
  | second id =>
    cases here
    cases here'
    simp only [exec, Choice.guard_healthy healthy, Db.kindOf_after]
    exact ⟨trivial, .balance id⟩
  | balance id =>
    cases here
    cases here'
    simp only [exec, Choice.guard_healthy healthy, next, afterRead_strategies distinct]
    exact ⟨trivial, .same _ (settled_afterRead id _)⟩
  | same phase settled =>
    cases phase with
    | readFirst id =>
      cases here
      cases here'
      simp only [exec, Choice.guard_healthy healthy, Db.kindOf_after]
      exact ⟨trivial, .second id⟩
    | closeBatch id kind balance =>
      cases here
      cases here'
      simp only [exec, Choice.guard_healthy healthy]
      exact ⟨trivial, .same _ (settled_afterCheck id kind balance)⟩
    | claim =>
      cases here
      cases here'
      refine ⟨rfl, .same _ ?_⟩
      simp only [next]
      split
      · trivial
      · split <;> trivial
    | load =>
      cases here
      cases here'
      refine ⟨rfl, .same _ ?_⟩
      simp only [next]
      split
      · trivial
      · trivial
      · unfold afterLoad
        split
        · trivial
        · split <;> trivial
    | completeKey k eventID =>
      cases here
      cases here'
      refine ⟨rfl, .same _ ?_⟩
      simp only [next]
      split
      · trivial
      · split <;> trivial
    | newTransferID =>
      cases here
      cases here'
      exact ⟨rfl, .same _ trivial⟩
    | newEventID k =>
      cases here
      cases here'
      exact ⟨rfl, .same _ trivial⟩
    | readSecond id k₁ => exact settled.elim
    | readBalance id k₁ k₂ => exact settled.elim
    | executed k eventID => cases here
    | replayed row => cases here
    | failed err => cases here
    | _ =>
      cases here
      cases here'
      refine ⟨rfl, .same _ (settled_orFail ?_ _)⟩
      trivial

end Phase

section Alone

variable {cmd : TransferCommand} {amount : Money} {db : Db} {choice : Nat → Choice}

/-- Run alone and without faults, the two closures give one result. -/
theorem run_strategies (distinct : cmd.fromAccountID ≠ cmd.toAccountID)
    (healthy : ∀ n, (choice n).fault = none) (result : TransferResult) :
    (transferProg .locking cmd amount result).run (alone db choice) [] 0 =
      (transferProg .serializable cmd amount result).run (alone db choice) [] 0 := by
  have locking : Phase.Follows .locking cmd (transferProg .locking cmd amount result)
    (.claim : Phase amount) := transferProg_follows result
  have serializable : Phase.Follows .serializable cmd (transferProg .serializable cmd amount result)
    (.claim : Phase amount) := transferProg_follows result
  refine locking.run_lockstep (alone db choice) (Phase.Matches cmd db) ?_ ?_ ?_ ?_ serializable
    (.same _ trivial)
  · intro phase phase' value value' agree ended ended'
    exact Option.some.inj (ended.symm.trans (agree.outcome.trans ended'))
  · intro phase phase' value o agree ended here'
    have going := agree.outcome.trans (Phase.op_outcome here')
    cases ended.symm.trans going
  · intro phase phase' value o agree here ended'
    have going := agree.outcome.symm.trans (Phase.op_outcome here)
    cases ended'.symm.trans going
  · intro n made phase phase' o o' agree here here'
    obtain ⟨same, agree'⟩ := agree.step made distinct (healthy n) here here'
    exact ⟨congrArg (made ++ ·) same, _, _, rfl, rfl, agree'⟩

/-- No error of a closure that runs alone without faults is retried. -/
theorem run_definite {x : Strategy} (healthy : ∀ n, (choice n).fault = none)
    {result result' : TransferResult} {err : GoError} {writes : List Write}
    (ran : (transferProg x cmd amount result).run (alone db choice) [] 0 =
      ((.error err, result'), writes)) : isSerializationFailure err = false := by
  refine transferProg_meets benign_definite rfl rfl rfl (fun n writes o err failed => ?_) ran
  rcases exec_replyError failed with fault | ⟨code, message, rfl, violation | outdated⟩
  · cases (healthy n).symm.trans fault
  · rcases violation with rfl | rfl | rfl <;> rfl
  · exact absurd rfl outdated

end Alone

/-! ### Requests in turn -/

inductive MoneyRequest where
  | transfer (cmd : TransferCommand)
  | deposit (systemAccountID : UUID) (cmd : CashCommand)
  | withdraw (systemAccountID : UUID) (cmd : CashCommand)

def MoneyRequest.serve (e : Executor) (attempts : Nat → Attempt) (db : Db) :
    MoneyRequest → Except GoError TransferResult × Db
  | .transfer cmd => WalletGo.transfer e attempts cmd db
  | .deposit systemAccountID cmd => WalletGo.deposit e attempts systemAccountID cmd db
  | .withdraw systemAccountID cmd => WalletGo.withdraw e attempts systemAccountID cmd db

/-- Serve requests one after another: the replies and the tables at the end. -/
def serveInTurn (e : Executor) : List (MoneyRequest × (Nat → Attempt)) → Db →
    List (Except GoError TransferResult) × Db
  | [], db => ([], db)
  | (request, attempts) :: rest, db =>
    let (reply, db') := request.serve e attempts db
    let (replies, db'') := serveInTurn e rest db'
    (reply :: replies, db'')

/-- The one attempt either executor makes. -/
theorem transfer_strategies {attempts : Nat → Attempt} (clean : (attempts 1).Clean)
    (maxAttempts : Nat) (cmd : TransferCommand) (db : Db) :
    transfer .locking attempts cmd db = transfer (.serializable maxAttempts) attempts cmd db := by
  unfold transfer
  cases valid : validate cmd with
  | error err => rfl
  | ok amount =>
    obtain ⟨-, -, distinct⟩ := validate_ok valid
    have same : (transferProg .locking cmd amount .empty).run (alone db (attempts 1).choice) [] 0 =
      (transferProg .serializable cmd amount .empty).run (alone db (attempts 1).choice) [] 0 :=
      run_strategies distinct clean.choices .empty
    simp only [Executor.inTx, Executor.strategy, lockingInTx, serializableInTx]
    rw [retryLoop.eq_def]
    simp only [serializableAttempt, attempt, clean.begun, same, clean.committed]
    cases ran :
      (transferProg .serializable cmd amount .empty).run (alone db (attempts 1).choice) [] 0 with
    | mk finish writes =>
      obtain ⟨reply, result⟩ := finish
      cases reply with
      | ok _ => rfl
      | error err => simp [run_definite clean.choices ran]

/-- The two executors are one function of the tables and the requests, as long as
nothing fails: each request gets the same result or the very same error, and the
tables at the end are the same. -/
theorem strategies_agree (requests : List (MoneyRequest × (Nat → Attempt)))
    (clean : ∀ request ∈ requests, ∀ n, (request.2 n).Clean) (db : Db) :
    serveInTurn (newTransferExecutor .locking) requests db =
      serveInTurn (newTransferExecutor .serializable) requests db := by
  induction requests generalizing db with
  | nil => rfl
  | cons first rest ih =>
    obtain ⟨request, attempts⟩ := first
    have here : request.serve .locking attempts db =
        request.serve (.serializable defaultMaxAttempts) attempts db := by
      cases request with
      | transfer cmd => exact transfer_strategies (clean _ List.mem_cons_self 1) _ cmd db
      | deposit systemAccountID cmd =>
        exact transfer_strategies (clean _ List.mem_cons_self 1) _ _ db
      | withdraw systemAccountID cmd =>
        exact transfer_strategies (clean _ List.mem_cons_self 1) _ _ db
    have later := fun db => ih (fun request mem => clean request (List.mem_cons_of_mem _ mem)) db
    simp only [serveInTurn, newTransferExecutor] at later ⊢
    rw [here, later]

namespace Reversed

def attempts (id : UUID) (sequence : Nat) (_ : Nat) : Attempt :=
  ⟨none, fun n => ⟨none, id, sequence + n, 0⟩, .acknowledged, none⟩

/-- The source of the deposit has the greater id: it is read second by one executor
and first by the other. -/
def db : Db := { Db.empty with
  accounts := [⟨.ofByte 9, "system", .system, "BRL"⟩, ⟨.ofByte 2, "alice", .customer, "BRL"⟩] }

def cash (key : String) (amountCents : Int64) : CashCommand :=
  ⟨⟨"alice", "POST /cash", key⟩, "fingerprint", .ofByte 2, amountCents⟩

def requests : List (MoneyRequest × (Nat → Attempt)) :=
  [(.deposit (.ofByte 9) (cash "first" 100), attempts (.ofByte 3) 0),
    (.withdraw (.ofByte 9) (cash "second" 200), attempts (.ofByte 4) 20)]

end Reversed

open Reversed in
/-- Two accounts in descending order, which the executors read in different orders. -/
theorem strategies_agree_reversed :
    serveInTurn (newTransferExecutor .locking) requests db =
        serveInTurn (newTransferExecutor .serializable) requests db ∧
      (serveInTurn (newTransferExecutor .locking) requests db).1 =
        [.ok ⟨.ofByte 3, createdResponse (.ofByte 3), false⟩, .error .errInsufficientFunds] := by
  have clean : ∀ request ∈ requests, ∀ n, (request.2 n).Clean := by
    intro request mem n
    simp only [requests, List.mem_cons, List.not_mem_nil, or_false] at mem
    rcases mem with rfl | rfl
    · exact ⟨rfl, fun _ => rfl, rfl⟩
    · exact ⟨rfl, fun _ => rfl, rfl⟩
  exact ⟨strategies_agree requests clean db, by decide +kernel⟩

end WalletGo
