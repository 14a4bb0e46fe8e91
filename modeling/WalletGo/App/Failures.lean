import WalletGo.App.Phases
import WalletGo.Postgres.InTx

/-!
The errors the transfer closure returns.

An error of the closure is one that an operation replied, with a text in front, or
one the code makes itself. What holds of all the latter but those of `replay`, and is
not changed by a text in front, holds of every error the closure returns if it holds
of the replies and of what `replay` makes of the stored key (`Phase.next_meets`).
-/

namespace WalletGo

def Op.replyError : (o : Op) → o.Reply → Option GoError
  | .claimKey .., .error err | .loadKey .., .error err | .selectKind .., .error err
  | .sumEntries .., .error err | .completeKey .., .error err | .closeBatch, .error err
  | .insertTransfer .., .error err | .insertEntry .., .error err | .insertEvent .., .error err
  | .marshal, .error err => some err
  | _, _ => none

def IsViolation (code : String) : Prop := code = "23514" ∨ code = "23505" ∨ code = "23503"

section Replies

variable {s err : GoError} {c : Choice} {visible latest : Db}

/-- A statement fails with its fault, or as it would without one. -/
theorem Choice.guard_error {β : Type} {outcome : Except GoError β × List Write}
    (failed : (c.guard outcome).1 = .error err) : c.fault = some err ∨ outcome.1 = .error err := by
  unfold Choice.guard at failed
  split at failed
  · next fault =>
    cases failed
    exact .inl fault
  · exact .inr failed

theorem insertUnless_error {violation : Option GoError} {row : Write}
    (failed : (insertUnless violation row).1 = .error err) : violation = some err := by
  unfold insertUnless at failed
  split at failed
  · cases failed
    rfl
  · cases failed

/-- Claiming a key fails on its own only by a conflict with a row that the snapshot does not have.
-/
theorem claimOutcome_error {key : IdempotencyKey} {fingerprint : String}
    (failed : (claimOutcome visible latest key fingerprint).1 = .error err) :
    (∃ message, err = .pgError "40001" message) ∧ visible ≠ latest := by
  unfold claimOutcome at failed
  split at failed
  · cases failed
  · next unseen =>
    split at failed
    · next seen =>
      cases failed
      refine ⟨⟨_, rfl⟩, ?_⟩
      rintro rfl
      exact unseen seen
    · cases failed

/-- Completing a key fails on its own only by a constraint of the table. -/
theorem completeOutcome_error {key : IdempotencyKey} {statusCode : Int} {body : Option ResponseBody}
    {transferID : UUID}
    (failed : (completeOutcome visible latest key statusCode body transferID).1 = .error err) :
    ∃ code message, err = .pgError code message ∧ IsViolation code := by
  unfold completeOutcome at failed
  split at failed
  · cases failed
  · split at failed
    · cases failed
      exact ⟨_, _, rfl, .inr (.inr rfl)⟩
    · cases failed

theorem transferViolation_pgError {id fromAccountID toAccountID : UUID} {amountCents : Int64}
    (violated : latest.transferViolation id fromAccountID toAccountID amountCents = some err) :
    ∃ code message, err = .pgError code message ∧ IsViolation code := by
  unfold Db.transferViolation at violated
  repeat' split at violated
  all_goals cases violated
  all_goals exact ⟨_, _, rfl, by simp [IsViolation]⟩

theorem entryViolation_pgError {transferID accountID : UUID} {amountCents : Int64}
    (violated : latest.entryViolation transferID accountID amountCents = some err) :
    ∃ code message, err = .pgError code message ∧ IsViolation code := by
  unfold Db.entryViolation at violated
  repeat' split at violated
  all_goals cases violated
  all_goals exact ⟨_, _, rfl, by simp [IsViolation]⟩

/-- A statement fails with an injected fault or with an SQLSTATE of its own, which is
that of a violated constraint unless the snapshot is out of date. -/
theorem exec_replyError {o : Op} (failed : o.replyError (exec c visible latest o).1 = some err) :
    c.fault = some err ∨ ∃ code message, err = .pgError code message ∧
      (IsViolation code ∨ visible ≠ latest) := by
  -- what `replyError` finds in a reply that may be an error
  have inverts : ∀ {β : Type} {read : Except GoError β → Option GoError},
      (∀ value, read (.ok value) = none) → (∀ e, read (.error e) = some e) →
      ∀ {outcome}, read (c.guard outcome).1 = some err → c.fault = some err ∨
      outcome.1 = .error err := by
    intro β read onOk onError outcome found
    refine Choice.guard_error ?_
    cases reply : (c.guard outcome).1 with
    | ok value => rw [reply, onOk] at found; cases found
    | error e => rw [reply, onError] at found; cases found; rfl
  cases o with
  | claimKey key fingerprint =>
    refine (inverts (fun _ => rfl) (fun _ => rfl) failed).imp_right fun own => ?_
    obtain ⟨⟨message, rfl⟩, outdated⟩ := claimOutcome_error own
    exact ⟨_, message, rfl, .inr outdated⟩
  | completeKey key statusCode body transferID =>
    refine (inverts (fun _ => rfl) (fun _ => rfl) failed).imp_right fun own => ?_
    obtain ⟨code, message, same, violation⟩ := completeOutcome_error own
    exact ⟨code, message, same, .inl violation⟩
  | insertTransfer id fromAccountID toAccountID amountCents =>
    refine (inverts (fun _ => rfl) (fun _ => rfl) failed).imp_right fun own => ?_
    obtain ⟨code, message, same, violation⟩ := transferViolation_pgError (insertUnless_error own)
    exact ⟨code, message, same, .inl violation⟩
  | insertEntry transferID accountID amountCents =>
    refine (inverts (fun _ => rfl) (fun _ => rfl) failed).imp_right fun own => ?_
    obtain ⟨code, message, same, violation⟩ := entryViolation_pgError (insertUnless_error own)
    exact ⟨code, message, same, .inl violation⟩
  | insertEvent eventID eventType payload =>
    refine (inverts (fun _ => rfl) (fun _ => rfl) failed).imp_right fun own => ?_
    have violated := insertUnless_error own
    split at violated
    · cases violated
      exact ⟨_, _, rfl, .inl (.inr (.inl rfl))⟩
    · cases violated
  | newUUID => cases failed
  | _ => exact (inverts (fun _ => rfl) (fun _ => rfl) failed).imp_right nofun

end Replies

/-! ### Errors of the closure -/

/-- A property of errors that texts do not change and that the errors made by
`Execute` and `CompleteKey` have. -/
structure Benign (P : GoError → Prop) : Prop where
  wrap : ∀ text err, P err → P (.wrap text err)
  notFound : P .errAccountNotFound
  overflow : P .errMoneyOverflow
  funds : P .errInsufficientFunds
  range : ∀ n, P (.scanRange n)
  other : ∀ text, P (.other text)

namespace Phase

variable {x : Strategy} {cmd : TransferCommand} {amount : Money} {P : GoError → Prop}

/-- If the closure has failed, it is with such an error. -/
def Meets (P : GoError → Prop) : Phase amount → Prop
  | .failed err => P err
  | _ => True

theorem scanKind_meets (benign : Benign P) {text : String}
    {reply : Except GoError (Option AccountKind)} (replied : ∀ err, reply = .error err → P err)
    {err : GoError} (failed : scanKind text reply = .error err) : P err := by
  unfold scanKind at failed
  split at failed
  · cases failed
  · cases failed
    exact benign.notFound
  · next e =>
    cases failed
    split
    · exact benign.notFound
    · exact benign.wrap _ _ (replied e rfl)

theorem scanInt64_meets (benign : Benign P) {text : String} {reply : Except GoError Int}
    (replied : ∀ err, reply = .error err → P err) {err : GoError}
    (failed : scanInt64 text reply = .error err) : P err := by
  unfold scanInt64 at failed
  split at failed
  · split at failed
    · cases failed
    · cases failed
      exact benign.wrap _ _ (benign.range _)
  · next e =>
    cases failed
    exact benign.wrap _ _ (replied e rfl)

/-- Where the reads of `Execute` lead, when each of them failed only as it may. -/
theorem afterRead_meets (benign : Benign P) {id : UUID} {replies : ReadReplies}
    (first : ∀ err, replies.first = .error err → P err)
    (second : ∀ err, replies.second = .error err → P err)
    (balance : ∀ err, replies.balance = .error err → P err) :
    (afterRead x cmd id replies : Phase amount).Meets P := by
  unfold afterRead scanReplies
  cases kind : scanKind x.accountText replies.first with
  | error err => exact scanKind_meets benign first kind
  | ok k₁ =>
    cases kind' : scanKind x.accountText replies.second with
    | error err => exact scanKind_meets benign second kind'
    | ok k₂ =>
      cases sum : scanInt64 "postgres: read source balance" replies.balance with
      | error err => exact scanInt64_meets benign balance sum
      | ok n => trivial

theorem afterCheck_meets (benign : Benign P) (id : UUID) (kind : AccountKind) (balance : Int64) :
    (afterCheck id kind balance : Phase amount).Meets P := by
  cases check : canDebit (newMoney balance) amount kind with
  | some err =>
    rw [afterCheck_refused id check]
    rcases canDebit_error check with rfl | rfl
    · exact benign.overflow
    · exact benign.funds
  | none =>
    rw [afterCheck_allowed id check]
    trivial

theorem orFail_meets (benign : Benign P) {text : String} {phase : Phase amount}
    {reply : Except GoError Unit} (replied : ∀ err, reply = .error err → P err)
    (going : phase.Meets P) : (orFail text phase reply).Meets P := by
  cases reply with
  | ok value => exact going
  | error err => exact benign.wrap _ _ (replied err rfl)

/-- Every error of the closure is one that an operation replied, one that `replay`
found reason for, or benign. -/
theorem next_meets (benign : Benign P) {phase : Phase amount} {o : Op}
    (here : phase.op x cmd = some o) (reply : o.Reply)
    (replied : ∀ err, o.replyError reply = some err → P err)
    (loads : phase = .load → (phase.next x cmd o reply).Meets P) :
    (phase.next x cmd o reply).Meets P := by
  cases phase with
  | load => exact loads rfl
  | claim =>
    cases here
    cases reply with
    | error err => exact benign.wrap _ _ (replied err rfl)
    | ok rows =>
      simp only [next]
      split <;> trivial
  | newTransferID => cases here; trivial
  | readFirst id =>
    cases here
    cases reply with
    | error err =>
      have foreign := replied err rfl
      change (afterRead x cmd id ⟨.error err, .error err, .error err⟩ : Phase amount).Meets P
      refine afterRead_meets benign ?_ ?_ ?_
      · rintro e ⟨⟩
        exact foreign
      · rintro e ⟨⟩
        exact foreign
      · rintro e ⟨⟩
        exact foreign
    | ok k₁ => trivial
  | readSecond id k₁ =>
    cases here
    cases reply with
    | error err =>
      have foreign := replied err rfl
      change (afterRead x cmd id ⟨.ok k₁, .error err, .error err⟩ : Phase amount).Meets P
      refine afterRead_meets benign nofun ?_ ?_
      · rintro e ⟨⟩
        exact foreign
      · rintro e ⟨⟩
        exact foreign
    | ok k₂ => trivial
  | readBalance id k₁ k₂ =>
    cases here
    refine afterRead_meets benign nofun nofun ?_
    rintro e rfl
    exact replied e rfl
  | closeBatch id kind balance =>
    cases here
    exact orFail_meets benign (fun err failed => replied err (by rw [failed]; rfl))
      (afterCheck_meets benign id kind balance)
  | newEventID k => cases here; trivial
  | completeKey k eventID =>
    cases here
    cases reply with
    | error err => exact benign.wrap _ _ (replied err rfl)
    | ok rows =>
      simp only [next]
      split
      · exact benign.other _
      · trivial
  | executed k eventID => cases here
  | replayed row => cases here
  | failed err => cases here
  | _ =>
    cases here
    exact orFail_meets benign (fun err failed => replied err (by rw [failed]; rfl)) trivial

/-- What `replay` finds reason for. -/
theorem load_meets (benign : Benign P) {o : Op} (here : (.load : Phase amount).op x cmd = some o)
    (reply : o.Reply) (replied : ∀ err, o.replyError reply = some err → P err) (missing : P .noRows)
    (reuse : P .errIdempotencyKeyReuse) (inFlight : P .errRequestInFlight) :
    ((.load : Phase amount).next x cmd o reply).Meets P := by
  cases here
  match reply with
  | .error err => exact benign.wrap _ _ (replied err rfl)
  | .ok none => exact benign.wrap _ _ missing
  | .ok (some row) =>
    simp only [next, afterLoad]
    split
    · exact reuse
    · split
      · exact inFlight
      · trivial

theorem outcome_error {phase : Phase amount} {err : GoError} {result : TransferResult}
    (ended : phase.outcome = some (.error err, result)) : phase = .failed err := by
  cases phase with
  | failed err' =>
    cases ended
    rfl
  | executed k eventID => cases ended
  | replayed row => cases ended
  | _ => cases ended

end Phase

/-! ### Errors of a call -/

section Calls

variable {P : GoError → Prop} {db : Db} {err : GoError}

/-- What holds of the replies holds of the error the closure returns. -/
theorem transferProg_meets {x : Strategy} {cmd : TransferCommand} {amount : Money}
    (benign : Benign P) (missing : P .noRows) (reuse : P .errIdempotencyKeyReuse)
    (inFlight : P .errRequestInFlight) {choice : Nat → Choice} {result result' : TransferResult}
    {writes : List Write}
    (replied : ∀ n writes (o : Op) err, o.replyError (alone db choice n writes o).1 = some err →
      P err) (ran : (transferProg x cmd amount result).run (alone db choice) [] 0 =
        ((.error err, result'), writes)) : P err := by
  have follows : Phase.Follows x cmd (transferProg x cmd amount result) (.claim : Phase amount) :=
    transferProg_follows result
  obtain ⟨phase, ended, meets⟩ :=
    follows.run (alone db choice) (fun phase _ => phase.Meets P) trivial
    fun n phase writes o here _ => by
      refine ⟨_, rfl, Phase.next_meets benign here _ (replied n writes o) ?_⟩
      rintro rfl
      exact Phase.load_meets benign here _ (replied n writes o) missing reuse inFlight
  rw [ran] at ended
  rw [Phase.outcome_error ended] at meets
  exact meets

/-- Every error the environment makes an attempt meet has a property. -/
structure Attempt.Faults (P : GoError → Prop) (a : Attempt) : Prop where
  begins : ∀ err, a.beginFault = some err → P err
  operations : ∀ n err, (a.choice n).fault = some err → P err
  commits : ∀ err, a.commit = .failed err ∨ a.commit = .lost err → P err
  cancels : ∀ err, a.cancelled = some err → P err

/-- The error of an attempt is one of the closure, or of `Begin` or `Commit`. -/
theorem attempt_meets {fn : Fn} {a : Attempt} {beginText commitText : String}
    {result : TransferResult} (wrap : ∀ text err, P err → P (.wrap text err)) (faults : a.Faults P)
    (ran : ∀ err result' writes,
      (fn result).run (alone db a.choice) [] 0 = ((.error err, result'), writes) → P err)
    (failed : (attempt beginText commitText fn a result db).err = some err) : P err := by
  unfold attempt at failed
  cases began : a.beginFault with
  | some fault =>
    simp only [began, Option.some.injEq] at failed
    subst failed
    exact wrap _ _ (faults.begins fault began)
  | none =>
    cases finished : (fn result).run (alone db a.choice) [] 0 with
    | mk finish writes =>
      obtain ⟨reply, result'⟩ := finish
      cases reply with
      | error e =>
        simp only [began, finished, Option.some.injEq] at failed
        subst failed
        exact ran e result' writes finished
      | ok _ =>
        cases committed : a.commit with
        | acknowledged => simp [began, finished, committed] at failed
        | failed e =>
          simp only [began, finished, committed, Option.some.injEq] at failed
          subst failed
          exact wrap _ _ (faults.commits e (.inl committed))
        | lost e =>
          simp only [began, finished, committed, Option.some.injEq] at failed
          subst failed
          exact wrap _ _ (faults.commits e (.inr committed))

end Calls

/-- What a command is refused for before anything is read. -/
theorem validate_error {cmd : TransferCommand} {err : GoError}
    (invalid : validate cmd = .error err) : err = .errInvalidAmount ∨ err = .errSameAccount := by
  unfold validate at invalid
  cases accepted : newTransferAmount cmd.amountCents with
  | error err' =>
    rw [accepted] at invalid
    cases invalid
    unfold newTransferAmount at accepted
    split at accepted
    · cases accepted
      exact .inl rfl
    · cases accepted
  | ok money =>
    rw [accepted] at invalid
    by_cases same : cmd.fromAccountID = cmd.toAccountID
    · simp [same, bind, Except.bind, throw, throwThe, MonadExceptOf.throw] at invalid
      exact .inr invalid.symm
    · simp [same, bind, Except.bind, pure, Except.pure] at invalid

/-! ### Sentinels -/

/-- Errors that callers tell apart by `errors.Is` and that `Execute` does not make. -/
inductive Sentinel : GoError → Prop where
  | requestInFlight : Sentinel .errRequestInFlight
  | noRows : Sentinel .noRows
  | concurrencyConflict : Sentinel .errConcurrencyConflict

/-- The errors of `Execute` are none of those that callers tell apart. -/
theorem Sentinel.benign {s : GoError} (sentinel : Sentinel s) : Benign (·.is s = false) := by
  cases sentinel with
  | requestInFlight => exact ⟨fun _ _ same => same, rfl, rfl, rfl, fun _ => rfl, fun _ => rfl⟩
  | noRows => exact ⟨fun _ _ same => same, rfl, rfl, rfl, fun _ => rfl, fun _ => rfl⟩
  | concurrencyConflict => exact ⟨fun _ _ same => same, rfl, rfl, rfl, fun _ => rfl, fun _ => rfl⟩

/-- Replies carry no sentinel that the environment does not inject. -/
theorem Sentinel.replied {s : GoError} (sentinel : Sentinel s) {c : Choice} {visible latest : Db}
    (foreign : ∀ err, c.fault = some err → err.is s = false) {o : Op} :
    ∀ err, o.replyError (exec c visible latest o).1 = some err → err.is s = false := by
  intro err failed
  rcases exec_replyError failed with fault | ⟨code, message, rfl, -⟩
  · exact foreign err fault
  · cases sentinel <;> rfl

/-- The errors that are not retried. -/
theorem benign_definite : Benign (isSerializationFailure · = false) :=
  ⟨fun _ _ same => same, rfl, rfl, rfl, fun _ => rfl, fun _ => rfl⟩

end WalletGo
