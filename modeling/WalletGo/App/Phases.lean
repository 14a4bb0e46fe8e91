import WalletGo.App.Transfer

/-!
The control flow of the transfer closure.

`Phase` lists the points between two operations of the closure, each with what
the replies so far have determined; `Phase.op` is the operation performed there
and `Phase.next` the point its reply leads to. `transferProg_follows` says that
the closure, for either strategy, goes through these phases and no others, and
ends with the outcome of the last one. Everything proved later about
interleaved transactions is a case analysis over phases; the source's control
flow is read here only.
-/

namespace WalletGo

open Txn (Prog)

/-- A balance read that has passed the check of `CanDebit`, for the transfer
with the generated `id`. -/
structure Checked (amount : Money) where
  id : UUID
  kind : AccountKind
  balance : Int64
  allowed : canDebit (newMoney balance) amount kind = none

inductive Phase (amount : Money) where
  | claim
  | load
  | newTransferID
  | readFirst (id : UUID)
  | readSecond (id : UUID) (k₁ : Option AccountKind)
  | readBalance (id : UUID) (k₁ k₂ : Option AccountKind)
  | closeBatch (id : UUID) (kind : AccountKind) (balance : Int64)
  | insertTransfer (c : Checked amount)
  | insertDebit (c : Checked amount)
  | insertCredit (c : Checked amount)
  | marshalEvent (c : Checked amount)
  | newEventID (c : Checked amount)
  | insertEvent (c : Checked amount) (eventID : UUID)
  | marshalResponse (c : Checked amount) (eventID : UUID)
  | completeKey (c : Checked amount) (eventID : UUID)
  | executed (c : Checked amount) (eventID : UUID)
  | replayed (row : KeyRow)
  | failed (err : GoError)

/-! ### What distinguishes the strategies -/

/-- The order in which `Execute` reads the two accounts. -/
def readOrder : Strategy → TransferCommand → UUID × UUID
  | .locking, cmd => lockOrder cmd.fromAccountID cmd.toAccountID
  | .serializable, cmd => (cmd.fromAccountID, cmd.toAccountID)

def Strategy.forUpdate : Strategy → Bool
  | .locking => true
  | .serializable => false

def Strategy.accountText : Strategy → String
  | .locking => "postgres: lock account"
  | .serializable => "postgres: read account"

def Strategy.batchText : Strategy → String
  | .locking => "postgres: lock/balance batch"
  | .serializable => "postgres: read batch"

def TransferCommand.request (cmd : TransferCommand) (amount : Money) (id : UUID) :
    TransferRequest :=
  ⟨id, cmd.fromAccountID, cmd.toAccountID, amount⟩

def TransferCommand.payload (cmd : TransferCommand) (amount : Money) (id : UUID) : EventPayload :=
  ⟨id, cmd.fromAccountID, cmd.toAccountID, amount.cents⟩

def createdResponse (id : UUID) : StoredResponse := ⟨statusTransferCreated, some ⟨id⟩⟩

/-- What `replay` returns for a completed row. -/
def KeyRow.replayResult (row : KeyRow) : TransferResult :=
  ⟨row.transferID.getD UUID.zero, ⟨row.statusCode.getD 0, row.responseBody⟩, true⟩

/-- Both executors run one program, each in its own order and with its own texts. -/
theorem execute_eq (x : Strategy) (req : TransferRequest) (cmd : TransferCommand)
    (source : req.fromAccountID = cmd.fromAccountID) (target : req.toAccountID = cmd.toAccountID) :
    execute x req = executeWith x.forUpdate (readOrder x cmd) x.accountText x.batchText req := by
  cases x with
  | locking => simp only [execute, lockingExecute, readOrder, source, target]; rfl
  | serializable => simp only [execute, serializableExecute, readOrder, source, target]; rfl

namespace Phase

variable (x : Strategy) (cmd : TransferCommand) {amount : Money}

def op : Phase amount → Option Op
  | .claim => some (.claimKey cmd.key cmd.fingerprint)
  | .load => some (.loadKey cmd.key)
  | .newTransferID => some .newUUID
  | .readFirst _ => some (.selectKind (readOrder x cmd).1 x.forUpdate)
  | .readSecond _ _ => some (.selectKind (readOrder x cmd).2 x.forUpdate)
  | .readBalance _ _ _ => some (.sumEntries cmd.fromAccountID)
  | .closeBatch _ _ _ => some .closeBatch
  | .insertTransfer c => some (.insertTransfer c.id cmd.fromAccountID cmd.toAccountID amount.cents)
  | .insertDebit c => some (.insertEntry c.id cmd.fromAccountID (-amount.cents))
  | .insertCredit c => some (.insertEntry c.id cmd.toAccountID amount.cents)
  | .marshalEvent _ => some .marshal
  | .newEventID _ => some .newUUID
  | .insertEvent c eventID =>
    some (.insertEvent eventID "transfer.completed" (cmd.payload amount c.id))
  | .marshalResponse _ _ => some .marshal
  | .completeKey c _ => some (.completeKey cmd.key statusTransferCreated (some ⟨c.id⟩) c.id)
  | .executed _ _ | .replayed _ | .failed _ => none

/-- Where a stored key leads. -/
def afterLoad (row : KeyRow) : Phase amount :=
  if row.fingerprint ≠ cmd.fingerprint then .failed .errIdempotencyKeyReuse
  else if row.state ≠ .completed then .failed .errRequestInFlight
  else .replayed row

/-- Where reading the results of the batch leads. -/
def afterRead (id : UUID) (replies : ReadReplies) : Phase amount :=
  match scanReplies x.accountText (readOrder x cmd) cmd.fromAccountID replies with
  | .error err => .failed err
  | .ok (kind, balance) => .closeBatch id kind balance

def afterCheck (id : UUID) (kind : AccountKind) (balance : Int64) : Phase amount :=
  match allowed : canDebit (newMoney balance) amount kind with
  | some err => .failed err
  | none => .insertTransfer ⟨id, kind, balance, allowed⟩

theorem afterCheck_refused (id : UUID) {kind : AccountKind} {balance : Int64} {err : GoError}
    (refused : canDebit (newMoney balance) amount kind = some err) :
    afterCheck id kind balance = (.failed err : Phase amount) := by
  unfold afterCheck
  split <;> simp_all

theorem afterCheck_allowed (id : UUID) {kind : AccountKind} {balance : Int64}
    (allowed : canDebit (newMoney balance) amount kind = none) :
    afterCheck id kind balance = (.insertTransfer ⟨id, kind, balance, allowed⟩ : Phase amount) := by
  unfold afterCheck
  split <;> simp_all

/-- Go on after a statement that has only to succeed, or return its error. -/
def orFail (text : String) (phase : Phase amount) : Except GoError Unit → Phase amount
  | .error err => .failed (.wrap text err)
  | .ok () => phase

def next : Phase amount → (o : Op) → o.Reply → Phase amount
  | .claim, .claimKey _ _, reply =>
      match reply with
      | .error err => .failed (.wrap "postgres: claim idempotency key" err)
      | .ok rows => if rows = 1 then .newTransferID else .load
  | .load, .loadKey _, reply =>
      match reply with
      | .error err => .failed (.wrap "postgres: load idempotency key" err)
      | .ok none => .failed (.wrap "postgres: load idempotency key" .noRows)
      | .ok (some row) => afterLoad cmd row
  | .newTransferID, .newUUID, id => .readFirst id
  | .readFirst id, .selectKind _ _, reply =>
      match reply with
      | .error err => afterRead x cmd id ⟨.error err, .error err, .error err⟩
      | .ok k₁ => .readSecond id k₁
  | .readSecond id k₁, .selectKind _ _, reply =>
      match reply with
      | .error err => afterRead x cmd id ⟨.ok k₁, .error err, .error err⟩
      | .ok k₂ => .readBalance id k₁ k₂
  | .readBalance id k₁ k₂, .sumEntries _, reply => afterRead x cmd id ⟨.ok k₁, .ok k₂, reply⟩
  | .closeBatch id kind balance, .closeBatch, reply =>
      orFail x.batchText (afterCheck id kind balance) reply
  | .insertTransfer c, .insertTransfer .., reply =>
      orFail "postgres: insert transfer" (.insertDebit c) reply
  | .insertDebit c, .insertEntry .., reply =>
      orFail "postgres: insert debit entry" (.insertCredit c) reply
  | .insertCredit c, .insertEntry .., reply =>
      orFail "postgres: insert credit entry" (.marshalEvent c) reply
  | .marshalEvent c, .marshal, reply => orFail "app: encode event payload" (.newEventID c) reply
  | .newEventID c, .newUUID, eventID => .insertEvent c eventID
  | .insertEvent c eventID, .insertEvent .., reply =>
      orFail "postgres: append event" (.marshalResponse c eventID) reply
  | .marshalResponse c eventID, .marshal, reply =>
      orFail "app: encode response" (.completeKey c eventID) reply
  | .completeKey c eventID, .completeKey .., reply =>
      match reply with
      | .error err => .failed (.wrap "postgres: complete idempotency key" err)
      | .ok rows =>
          if rows ≠ 1 then
            .failed (.other ("postgres: complete idempotency key: " ++ toString rows ++
              " rows updated, want 1"))
          else .executed c eventID
  | phase, _, _ => phase

/-- What the closure returns and leaves in `result`, at its end points. -/
def outcome : Phase amount → Option (Except GoError Unit × TransferResult)
  | .executed c _ => some (.ok (), ⟨c.id, createdResponse c.id, false⟩)
  | .replayed row => some (.ok (), row.replayResult)
  | .failed err => some (.error err, .empty)
  | _ => none

/-- The programs that perform exactly the operation of each phase. -/
def discipline : Prog.Discipline sql (Phase amount) where
  allows phase o := phase.op x cmd = some o
  moves phase o reply phase' := phase' = phase.next x cmd o reply

/-- The residual programs of the closure at a phase. -/
def Follows (program : Prog sql (Except GoError Unit × TransferResult)) (phase : Phase amount) :
    Prop :=
  program.Always (discipline x cmd) (fun phase finish => phase.outcome = some finish) phase

end Phase

/-! ### The closure goes through the phases -/

section Follows

variable {x : Strategy} {cmd : TransferCommand} {amount : Money}

theorem follows_op {phase : Phase amount} {o : Op}
    {rest : o.Reply → Prog sql (Except GoError Unit × TransferResult)}
    (here : phase.op x cmd = some o)
    (later : ∀ reply, Phase.Follows x cmd (rest reply) (phase.next x cmd o reply)) :
    Phase.Follows x cmd (.op o rest) phase := by
  refine ⟨here, ?_⟩
  rintro reply _ rfl
  exact later reply

theorem follows_ret {phase : Phase amount} {finish : Except GoError Unit × TransferResult}
    (here : phase.outcome = some finish) : Phase.Follows x cmd (.ret finish) phase := here

/-- A phase performs an operation or ends the closure, not both. -/
theorem Phase.op_outcome {phase : Phase amount} {o : Op} (here : phase.op x cmd = some o) :
    phase.outcome = none := by
  cases phase with
  | executed c eventID => cases here
  | replayed row => cases here
  | failed err => cases here
  | _ => rfl

theorem Phase.Follows.performs {program : Prog sql (Except GoError Unit × TransferResult)}
    {phase : Phase amount} (follows : Phase.Follows x cmd program phase) {o : Op}
    (here : phase.op x cmd = some o) : ∃ rest, program = .op o rest := by
  cases program with
  | ret finish =>
    have ended : phase.outcome = some finish := follows
    rw [Phase.op_outcome here] at ended
    cases ended
  | op o' rest =>
    cases here.symm.trans follows.1
    exact ⟨rest, rfl⟩

theorem Phase.Follows.ends {program : Prog sql (Except GoError Unit × TransferResult)}
    {phase : Phase amount} (follows : Phase.Follows x cmd program phase)
    {finish : Except GoError Unit × TransferResult} (ended : phase.outcome = some finish) :
    program = .ret finish := by
  cases program with
  | ret finish' =>
    cases ended.symm.trans follows
    rfl
  | op o rest =>
    rw [Phase.op_outcome follows.1] at ended
    cases ended

/-- Running a method inside the closure leaves `result` as it was. -/
theorem always_lift {α : Type} {method : DbM α} {result : TransferResult} {phase : Phase amount}
    {mid : Phase amount → Except GoError α → Prop}
    (body : method.run.Always (Phase.discipline x cmd) mid phase) :
    (StateT.lift method.run result : Prog sql (Except GoError α × TransferResult)).Always
      (Phase.discipline x cmd) (fun phase' pair => mid phase' pair.1 ∧ pair.2 = result) phase :=
  Prog.Always.bind body fun _ _ ended => ⟨ended, rfl⟩

/-- A method call whose error the closure returns. -/
theorem follows_call {α : Type} {method : DbM α} {rest : α → Closure Unit} {result : TransferResult}
    {phase : Phase amount} {mid : Phase amount → Except GoError α → Prop}
    (body : method.run.Always (Phase.discipline x cmd) mid phase)
    (onOk : ∀ phase' value, mid phase' (.ok value) →
      Phase.Follows x cmd ((rest value).run.run result) phase')
    (onError : ∀ phase' err, mid phase' (.error err) → phase'.outcome = some (.error err, result)) :
    Phase.Follows x cmd ((Closure.call method >>= rest).run.run result) phase := by
  refine Prog.Always.bind (always_lift body) ?_
  rintro phase' ⟨reply, _⟩ ⟨ended, rfl⟩
  cases reply with
  | ok value => exact onOk phase' value ended
  | error err => exact onError phase' err ended

/-- A method call whose error the closure handles itself. -/
theorem follows_attempt {α : Type} {method : DbM α} {rest : Except GoError α → Closure Unit}
    {result : TransferResult} {phase : Phase amount} {mid : Phase amount → Except GoError α → Prop}
    (body : method.run.Always (Phase.discipline x cmd) mid phase)
    (onReply : ∀ phase' reply, mid phase' reply →
      Phase.Follows x cmd ((rest reply).run.run result) phase') :
    Phase.Follows x cmd ((Closure.attempt method >>= rest).run.run result) phase := by
  have attempted : (Closure.attempt method result).Always (Phase.discipline x cmd)
      (fun phase' pair => ∃ reply, pair = (.ok reply, result) ∧ mid phase' reply) phase := by
    refine Prog.Always.bind (always_lift body) ?_
    rintro phase' ⟨reply, _⟩ ⟨ended, rfl⟩
    exact ⟨reply, rfl, ended⟩
  refine Prog.Always.bind attempted ?_
  rintro phase' _ ⟨reply, rfl, ended⟩
  exact onReply phase' reply ended

/-- `replay` reads the stored key once and decides on it. -/
theorem replay_follows :
    (replay cmd).run.Always (Phase.discipline x cmd)
      (fun phase reply => phase.outcome = some (match reply with
        | .ok result => (.ok (), result)
        | .error err => (.error err, .empty))) (.load : Phase amount) := by
  refine And.intro rfl ?_
  rintro (err | _ | row) _ rfl
  · rfl
  · rfl
  · change Prog.Always _ _ (ite (row.fingerprint ≠ cmd.fingerprint) _ _ :
      Prog sql (Except GoError TransferResult)) (Phase.afterLoad cmd row)
    unfold Phase.afterLoad
    split
    · rfl
    · change Prog.Always _ _ (ite (row.state ≠ .completed) _ _ :
        Prog sql (Except GoError TransferResult)) _
      split
      · rfl
      · rfl

/-- The part that answers for a stored key begins where the key is loaded. -/
theorem replayPart_follows :
    Phase.Follows x cmd ((replayPart cmd).run.run .empty) (.load : Phase amount) := by
  refine follows_attempt replay_follows fun phase reply ended => ?_
  cases reply with
  | ok value => exact ended
  | error err => exact ended

/-- Where a run of `Execute` for the transfer `id` may end. -/
def ExecuteEnds (id : UUID) (phase : Phase amount) (reply : Except GoError Unit) : Prop :=
  (∃ c : Checked amount, c.id = id ∧ phase = .marshalEvent c ∧ reply = .ok ()) ∨
    ∃ err, phase = .failed err ∧ reply = .error err

theorem sendInsertBatch_follows (c : Checked amount) :
    (sendInsertBatch (cmd.request amount c.id)).run.Always (Phase.discipline x cmd)
      (ExecuteEnds c.id) (.insertTransfer c) := by
  refine And.intro rfl ?_
  rintro (err | _) _ rfl
  · exact .inr ⟨_, rfl, rfl⟩
  refine And.intro rfl ?_
  rintro (err | _) _ rfl
  · exact .inr ⟨_, rfl, rfl⟩
  refine And.intro rfl ?_
  rintro (err | _) _ rfl
  · exact .inr ⟨_, rfl, rfl⟩
  · exact .inl ⟨c, rfl, rfl, rfl⟩

/-- The part of `Execute` after its batch of reads. -/
def afterBatch (x : Strategy) (cmd : TransferCommand) (amount : Money) (id : UUID)
    (replies : ReadReplies) : DbM Unit := do
  let (kind, balance) ←
    ExceptT.mk (.ret (scanReplies x.accountText (readOrder x cmd) cmd.fromAccountID replies))
  send x.batchText (.op .closeBatch .ret)
  match canDebit (newMoney balance) amount kind with
  | some err => throw err
  | none => sendInsertBatch (cmd.request amount id)

theorem afterBatch_follows (id : UUID) (replies : ReadReplies) :
    (afterBatch x cmd amount id replies).run.Always (Phase.discipline x cmd)
      (ExecuteEnds id) (Phase.afterRead x cmd id replies : Phase amount) := by
  unfold afterBatch Phase.afterRead
  cases scanReplies x.accountText (readOrder x cmd) cmd.fromAccountID replies with
  | error err => exact .inr ⟨err, rfl, rfl⟩
  | ok read =>
    obtain ⟨kind, balance⟩ := read
    refine And.intro rfl ?_
    rintro (err | _) _ rfl
    · exact .inr ⟨_, rfl, rfl⟩
    change Prog.Always _ _ (ExceptT.run (match canDebit (newMoney balance) amount kind with
      | some err => throw err
      | none => sendInsertBatch (cmd.request amount id) : DbM Unit))
          (Phase.afterCheck id kind balance)
    cases check : canDebit (newMoney balance) amount kind with
    | some err =>
      rw [Phase.afterCheck_refused id check]
      exact .inr ⟨err, rfl, rfl⟩
    | none =>
      rw [Phase.afterCheck_allowed id check]
      exact sendInsertBatch_follows ⟨id, kind, balance, check⟩

/-- `Execute` leads from the first account read to the point after its inserts,
or to the error it returns. -/
theorem execute_follows (id : UUID) :
    (execute x (cmd.request amount id)).run.Always (Phase.discipline x cmd)
      (ExecuteEnds id) (.readFirst id : Phase amount) := by
  rw [execute_eq x (cmd.request amount id) cmd rfl rfl]
  refine And.intro rfl ?_
  rintro (err | k₁) _ rfl
  · exact afterBatch_follows id _
  refine And.intro rfl ?_
  rintro (err | k₂) _ rfl
  · exact afterBatch_follows id _
  refine And.intro rfl ?_
  rintro balance _ rfl
  exact afterBatch_follows id _

/-- The part that moves the money begins where the transfer gets its identifier. -/
theorem executePart_follows :
    Phase.Follows x cmd ((executePart x cmd amount).run.run .empty)
      (.newTransferID : Phase amount) := by
  refine follows_op rfl fun id => ?_
  refine follows_call (execute_follows id) ?_ ?_
  · rintro _ _ (⟨c, rfl, rfl, -⟩ | ⟨_, _, ended⟩)
    · refine follows_op rfl ?_
      rintro (err | _)
      · exact follows_ret rfl
      refine follows_op rfl fun eventID => follows_op rfl ?_
      rintro (err | _)
      · exact follows_ret rfl
      refine follows_op rfl ?_
      rintro (err | _)
      · exact follows_ret rfl
      refine follows_op rfl ?_
      rintro (err | rows)
      · exact follows_ret rfl
      rcases rows with _ | _ | rows
      · exact follows_ret rfl
      · exact follows_ret rfl
      · exact follows_ret rfl
    · nomatch ended
  · rintro _ err (⟨_, _, _, ended⟩ | ⟨_, rfl, ended⟩)
    · nomatch ended
    · cases ended
      rfl

/-- The closure of either executor goes through the phases, from the claim of
its key on, whatever `result` held before. -/
theorem transferProg_follows (result : TransferResult) :
    Phase.Follows x cmd (transferProg x cmd amount result) (.claim : Phase amount) := by
  refine follows_op rfl ?_
  rintro (err | rows)
  · exact follows_ret rfl
  rcases rows with _ | _ | rows
  · exact replayPart_follows
  · exact executePart_follows
  · exact replayPart_follows

end Follows

end WalletGo
