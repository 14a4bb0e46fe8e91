import WalletGo.App.Statement
import WalletGo.Ledger.Retry

/-!
Every error the services, the executors and the repositories return.

What comes from outside (the driver, the context, `encoding/json`) is `foreign`: it holds
none of the wallet's own errors. `Returned` lists the functions that return errors, each
with every fault a foreign one; what other sessions do to a statement reaches it as such
a fault. `Returned.meets` is the one case analysis over these functions: a property that
texts in front do not change holds of every error returned, unless the retry loop gave up
and put its own sentinel beside the driver's error.
-/

namespace WalletGo

/-- Made outside the wallet's own packages. -/
def GoError.foreign : GoError → Bool
  | .deadlineExceeded | .canceled | .noRows | .pgError .. | .scanRange _ | .json _ | .other _ =>
    true
  | .wrap _ err => err.foreign
  | .wrap2 _ first second => first.foreign && second.foreign
  | _ => false

/-- `Execute` of either executor: a transfer without idempotency handling. -/
def executeProg (x : Strategy) (req : TransferRequest) : Fn := fun result =>
  (execute x req).run.bind fun reply => .ret (reply, result)

@[inherit_doc executeProg]
def Executor.execute (e : Executor) (attempts : Nat → Attempt) (req : TransferRequest) (db : Db) :
    Outcome :=
  e.inTx (executeProg e.strategy req) attempts .empty db

/-- `EntryRepository.InsertBatch`: what it makes of the first error of its batch. -/
def insertBatch (faults : List (Option GoError)) : Option GoError :=
  (faults.findSome? id).map (.wrap "postgres: insert entry")

/-- Every error with which a single statement is refused or its reply lost has a
property. -/
def CommitOutcome.Faults (P : GoError → Prop) (outcome : CommitOutcome) : Prop :=
  ∀ err, outcome = .failed err ∨ outcome = .lost err → P err

/-- The errors the services, the executors and the repositories return. -/
inductive Returned (err : GoError) : Prop where
  -- TransferService.Transfer, and with it CashService.Deposit and CashService.Withdraw
  | transfer (e : Executor) (attempts : Nat → Attempt) (cmd : TransferCommand) (db : Db)
      (faults : ∀ n, (attempts n).Faults (·.foreign))
      (failed : (transfer e attempts cmd db).1 = .error err)
  | transferAmong (maxAttempts : Nat) (others : Nat → Db → Db) (attempts : Nat → Attempt)
      (cmd : TransferCommand) (db : Db) (faults : ∀ n, (attempts n).Faults (·.foreign))
      (failed : (transferAmong maxAttempts others attempts cmd db).1 = .error err)
  | execute (e : Executor) (attempts : Nat → Attempt) (req : TransferRequest) (db : Db)
      (faults : ∀ n, (attempts n).Faults (·.foreign))
      (failed : (e.execute attempts req db).err = some err)
  -- AccountService
  | createAccount (ownerID : String) (id : UUID) (insert : CommitOutcome)
      (find : Option GoError) (db : Db)
      (inserts : insert.Faults (·.foreign)) (finds : ∀ fault, find = some fault → fault.foreign)
      (failed : (createAccount ownerID id insert find db).1 = .error err)
  | balance (find sum : Option GoError) (accountID : UUID) (db : Db)
      (finds : ∀ fault, find = some fault → fault.foreign)
      (sums : ∀ fault, sum = some fault → fault.foreign)
      (failed : balance find sum accountID db = .error err)
  | entries (find : Option GoError) (list : Option ListFault) (accountID : UUID)
      (afterID limit : Nat)
      (before db : Db) (finds : ∀ fault, find = some fault → fault.foreign)
      (lists : ∀ fault, list = some (.query fault) ∨ list = some (.scan fault) → fault.foreign)
      (failed : entries find list accountID afterID limit before db = .error err)
  -- AccountRepository and EntryRepository
  | create (outcome : CommitOutcome) (a : Account) (db : Db) (inserts : outcome.Faults (·.foreign))
      (failed : (AccountRepository.create outcome a db).1 = .error err)
  | findByID (fault : Option GoError) (id : UUID) (db : Db)
      (finds : ∀ e, fault = some e → e.foreign)
      (failed : AccountRepository.findByID fault id db = .error err)
  | ensureSystem (id : UUID) (insert : CommitOutcome) (select : Option GoError) (db : Db)
      (inserts : insert.Faults (·.foreign)) (selects : ∀ fault, select = some fault → fault.foreign)
      (failed : (AccountRepository.ensureSystem id insert select db).1 = .error err)
  | sumByAccount (fault : Option GoError) (accountID : UUID) (db : Db)
      (sums : ∀ e, fault = some e → e.foreign)
      (failed : sumByAccount fault accountID db = .error err)
  | listByAccount (fault : Option ListFault) (accountID : UUID) (afterID limit : Nat) (db : Db)
      (lists : ∀ e, fault = some (.query e) ∨ fault = some (.scan e) → e.foreign)
      (failed : listByAccount fault accountID afterID limit db = .error err)
  | insertBatch (faults : List (Option GoError)) (foreign : ∀ e, some e ∈ faults → e.foreign)
      (failed : insertBatch faults = some err)

/-- A property of errors that texts do not change, and that every error from outside and
every error the wallet makes by itself has. -/
structure Harmless (P : GoError → Prop) : Prop extends Benign P where
  foreign : ∀ err, err.foreign → P err
  invalidAmount : P .errInvalidAmount
  sameAccount : P .errSameAccount
  alreadyExists : P .errAccountAlreadyExists
  invalidOwner : P .errInvalidOwner
  keyReuse : P .errIdempotencyKeyReuse
  inFlight : P .errRequestInFlight

section Meets

variable {P : GoError → Prop} {err : GoError} {db : Db}

theorem Attempt.Faults.imp {Q : GoError → Prop} {a : Attempt} (faults : a.Faults P)
    (weaker : ∀ err, P err → Q err) : a.Faults Q where
  begins err at_begin := weaker err (faults.begins err at_begin)
  operations n err at_n := weaker err (faults.operations n err at_n)
  commits err at_commit := weaker err (faults.commits err at_commit)
  cancels err at_wait := weaker err (faults.cancels err at_wait)

/-- A statement replies with a fault or with an SQLSTATE. -/
theorem Harmless.replied (harmless : Harmless P) {choice : Nat → Choice}
    (faults : ∀ n err, (choice n).fault = some err → P err) (n : Nat) (writes : List Write) (o : Op)
    (err : GoError) (failed : o.replyError (alone db choice n writes o).1 = some err) : P err := by
  rcases exec_replyError failed with fault | ⟨code, message, rfl, -⟩
  · exact faults n err fault
  · exact harmless.foreign _ rfl

/-- `Execute` goes through the phases of the closure from its first read on. -/
theorem executeProg_meets (harmless : Harmless P) {x : Strategy} {req : TransferRequest}
    {choice : Nat → Choice} (faults : ∀ n err, (choice n).fault = some err → P err)
    {result result' : TransferResult} {writes : List Write}
    (ran : (executeProg x req result).run (alone db choice) [] 0 =
      ((.error err, result'), writes)) : P err := by
  let cmd : TransferCommand :=
    ⟨⟨"", "", ""⟩, "", req.fromAccountID, req.toAccountID, req.amount.cents⟩
  have body : (execute x (cmd.request req.amount req.id)).run.Always (Phase.discipline x cmd)
      (ExecuteEnds req.id) (.readFirst req.id : Phase req.amount) := execute_follows req.id
  have follows : (executeProg x req result).Always (Phase.discipline x cmd)
      (fun phase finish => ExecuteEnds req.id phase finish.1)
      (.readFirst req.id : Phase req.amount) :=
    Txn.Prog.Always.bind body fun _ _ ended => ended
  obtain ⟨phase, ended, meets⟩ :=
    follows.run (alone db choice) (fun phase _ => phase.Meets P) trivial
    fun n phase writes o here _ => by
      refine ⟨_, rfl, Phase.next_meets harmless.toBenign here _
        (harmless.replied faults n writes o) ?_⟩
      rintro rfl
      exact Phase.load_meets harmless.toBenign here _ (harmless.replied faults n writes o)
        (harmless.foreign _ rfl) harmless.keyReuse harmless.inFlight
  rw [ran] at ended
  rcases ended with ⟨_, _, _, succeeded⟩ | ⟨_, rfl, failed⟩
  · cases succeeded
  · cases failed
    exact meets

/-- A property of the errors of a closure, whatever it meets. -/
def Fn.Meets (P : GoError → Prop) (fn : Fn) : Prop :=
  ∀ db choice result err result' writes, (∀ n err, (choice n).fault = some err → P err) →
    (fn result).run (alone db choice) [] 0 = ((.error err, result'), writes) → P err

/-- What the retry loop returns: the error of an attempt, that of the context, or its own
with the last attempt's beside it. -/
theorem retryLoop_meets (harmless : Harmless P) {fn : Fn} (meets : fn.Meets P)
    {others : Nat → Db → Db} {attempts : Nat → Attempt} (faults : ∀ n, (attempts n).Faults P)
    (left : Nat) : ∀ n result db, (retryLoop fn others attempts left n result db).err = some err →
      P err ∨ ∃ m cause, err = gaveUp m cause := by
  have attempted :
      ∀ n result db err, (serializableAttempt fn (attempts n) result db).err = some err →
      P err := by
    intro n result db err failed
    refine attempt_meets harmless.wrap (faults n) ?_ failed
    exact fun err result' writes => meets _ _ _ _ _ _ (faults n).operations
  induction left with
  | zero =>
    intro n result db failed
    rw [retryLoop] at failed
    simp only at failed
    split at failed
    · next none => cases none.symm.trans failed
    · next e raised =>
      split at failed
      · exact .inl (attempted _ _ _ _ failed)
      · cases failed
        exact .inr ⟨n, e, rfl⟩
  | succ left ih =>
    intro n result db failed
    rw [retryLoop] at failed
    simp only at failed
    split at failed
    · next none => cases none.symm.trans failed
    · next e raised =>
      split at failed
      · exact .inl (attempted _ _ _ _ failed)
      · split at failed
        · next cancelled =>
          cases failed
          exact .inl ((faults n).cancels _ cancelled)
        · exact ih _ _ _ failed

/-- What an executor returns, when the function and the faults of its attempts fail only as they
may. -/
theorem inTx_meets (harmless : Harmless P) {e : Executor} {fn : Fn} (meets : fn.Meets P)
    {attempts : Nat → Attempt} (faults : ∀ n, (attempts n).Faults P) {result : TransferResult}
    (failed : (e.inTx fn attempts result db).err = some err) :
    P err ∨ ∃ m cause, err = gaveUp m cause := by
  cases e with
  | locking =>
    refine .inl (attempt_meets harmless.wrap (faults 1) ?_ failed)
    exact fun err result' writes => meets _ _ _ _ _ _ (faults 1).operations
  | serializable maxAttempts => exact retryLoop_meets harmless meets faults _ _ _ _ failed

theorem transferProg_fnMeets (harmless : Harmless P) {x : Strategy} {cmd : TransferCommand}
    {amount : Money} : Fn.Meets P (transferProg x cmd amount) := by
  intro db choice result err result' writes faults ran
  exact transferProg_meets harmless.toBenign (harmless.foreign _ rfl) harmless.keyReuse
    harmless.inFlight
    (harmless.replied faults) ran

theorem validate_meets (harmless : Harmless P) {cmd : TransferCommand}
    (invalid : validate cmd = .error err) : P err := by
  rcases validate_error invalid with rfl | rfl
  · exact harmless.invalidAmount
  · exact harmless.sameAccount

/-! ### The repositories -/

theorem findByID_meets (harmless : Harmless P) {fault : Option GoError} {id : UUID}
    (finds : ∀ e, fault = some e → P e)
    (failed : AccountRepository.findByID fault id db = .error err) : P err := by
  unfold AccountRepository.findByID at failed
  split at failed
  · next e =>
    cases failed
    split
    · exact harmless.notFound
    · exact harmless.wrap _ _ (finds e rfl)
  · split at failed
    · cases failed
    · cases failed
      exact harmless.notFound

theorem insertAccount_meets (harmless : Harmless P) {a : Account}
    (failed : (db.insertAccount a).1 = .error err) : P err := by
  unfold Db.insertAccount at failed
  split at failed
  · next violated =>
    cases failed
    unfold Db.accountViolation at violated
    repeat' split at violated
    all_goals cases violated
    all_goals exact harmless.foreign _ rfl
  · cases failed

theorem autocommit_meets {outcome : CommitOutcome} {statement : Db → Except GoError Unit × Db}
    (faults : outcome.Faults P) (own : ∀ err, (statement db).1 = .error err → P err)
    (failed : (autocommit outcome statement db).1 = .error err) : P err := by
  cases outcome with
  | acknowledged => exact own err failed
  | failed e =>
    cases failed
    exact faults _ (.inl rfl)
  | lost e =>
    cases failed
    exact faults _ (.inr rfl)

theorem create_meets (harmless : Harmless P) {outcome : CommitOutcome} {a : Account}
    (faults : outcome.Faults P) (failed : (AccountRepository.create outcome a db).1 = .error err) :
    P err := by
  unfold AccountRepository.create at failed
  split at failed
  · next e db' inserted =>
    cases failed
    have raised : P e := autocommit_meets faults (fun _ => insertAccount_meets harmless)
      (congrArg Prod.fst inserted)
    unfold AccountRepository.createError
    split
    · split
      · exact harmless.alreadyExists
      · exact harmless.wrap _ _ raised
    · exact harmless.wrap _ _ raised
  · cases failed

theorem ensureSelect_meets (harmless : Harmless P) {select : Option GoError}
    (selects : ∀ e, select = some e → P e)
    (failed : AccountRepository.ensureSelect select db = .error err) : P err := by
  unfold AccountRepository.ensureSelect at failed
  split at failed
  · next e =>
    cases failed
    exact harmless.wrap _ _ (selects e rfl)
  · split at failed
    · cases failed
    · cases failed
      exact harmless.wrap _ _ (harmless.foreign _ rfl)

theorem ensureSystem_meets (harmless : Harmless P) {id : UUID} {insert : CommitOutcome}
    {select : Option GoError} (inserts : insert.Faults P) (selects : ∀ e, select = some e → P e)
    (failed : (AccountRepository.ensureSystem id insert select db).1 = .error err) : P err := by
  unfold AccountRepository.ensureSystem AccountRepository.ensureInsert at failed
  cases inserted : autocommit insert (AccountRepository.insertSystem id) db with
  | mk reply db' =>
    rw [inserted] at failed
    cases reply with
    | error e =>
      cases failed
      refine harmless.wrap _ _ (autocommit_meets inserts (fun err own => ?_)
        (congrArg Prod.fst inserted))
      unfold AccountRepository.insertSystem at own
      split at own
      · cases own
      · exact insertAccount_meets harmless own
    | ok done => exact ensureSelect_meets harmless selects failed

theorem sumByAccount_meets (harmless : Harmless P) {fault : Option GoError} {accountID : UUID}
    (sums : ∀ e, fault = some e → P e) (failed : sumByAccount fault accountID db = .error err) :
    P err := by
  unfold sumByAccount at failed
  split at failed
  · next e =>
    cases failed
    exact harmless.wrap _ _ (sums e rfl)
  · cases scanned : scanInt64 "postgres: sum entries" (.ok (db.sum accountID)) with
    | ok n =>
      rw [scanned] at failed
      cases failed
    | error e =>
      rw [scanned] at failed
      cases failed
      exact Phase.scanInt64_meets harmless.toBenign (by rintro e ⟨⟩) scanned

theorem listByAccount_meets (harmless : Harmless P) {fault : Option ListFault} {accountID : UUID}
    {afterID limit : Nat} (lists : ∀ e, fault = some (.query e) ∨ fault = some (.scan e) → P e)
    (failed : listByAccount fault accountID afterID limit db = .error err) : P err := by
  unfold listByAccount at failed
  split at failed
  · next e =>
    cases failed
    exact harmless.wrap _ _ (lists e (.inl rfl))
  · next e =>
    cases failed
    exact harmless.wrap _ _ (lists e (.inr rfl))
  · cases failed

theorem createAccount_meets (harmless : Harmless P) {ownerID : String} {id : UUID}
    {insert : CommitOutcome} {find : Option GoError} (inserts : insert.Faults P)
    (finds : ∀ e, find = some e → P e)
    (failed : (createAccount ownerID id insert find db).1 = .error err) : P err := by
  unfold createAccount at failed
  cases inserted : createInsert ownerID id insert db with
  | mk reply db' =>
    rw [inserted] at failed
    cases reply with
    | error e =>
      cases failed
      unfold createInsert at inserted
      dsimp only at inserted
      split at inserted
      · cases inserted
        exact harmless.invalidOwner
      · exact create_meets harmless inserts (congrArg Prod.fst inserted)
    | ok done => exact findByID_meets harmless finds failed

theorem balance_meets (harmless : Harmless P) {find sum : Option GoError} {accountID : UUID}
    (finds : ∀ e, find = some e → P e) (sums : ∀ e, sum = some e → P e)
    (failed : balance find sum accountID db = .error err) : P err := by
  unfold balance at failed
  cases found : AccountRepository.findByID find accountID db with
  | error e =>
    rw [found] at failed
    cases failed
    exact findByID_meets harmless finds found
  | ok account =>
    rw [found] at failed
    exact sumByAccount_meets harmless sums failed

theorem entries_meets (harmless : Harmless P) {find : Option GoError} {list : Option ListFault}
    {accountID : UUID} {afterID limit : Nat} {before : Db} (finds : ∀ e, find = some e → P e)
    (lists : ∀ e, list = some (.query e) ∨ list = some (.scan e) → P e)
    (failed : entries find list accountID afterID limit before db = .error err) : P err := by
  simp only [entries, bind, Except.bind] at failed
  split at failed
  · next e found =>
    cases failed
    exact findByID_meets harmless finds found
  · split at failed
    · next e listed =>
      cases failed
      exact listByAccount_meets harmless lists listed
    · cases failed

/-- `Transfer` fails only as its statements do, or because it has given up. -/
theorem transfer_meets (harmless : Harmless P) {e : Executor} {attempts : Nat → Attempt}
    {cmd : TransferCommand} (faults : ∀ n, (attempts n).Faults P)
    (failed : (transfer e attempts cmd db).1 = .error err) :
    P err ∨ ∃ m cause, err = gaveUp m cause := by
  unfold transfer at failed
  split at failed
  · next invalid =>
    cases failed
    exact .inl (validate_meets harmless invalid)
  · simp only at failed
    split at failed
    · next raised =>
      cases failed
      exact inTx_meets harmless (transferProg_fnMeets harmless) faults raised
    · cases failed

theorem transferAmong_meets (harmless : Harmless P) {maxAttempts : Nat} {others : Nat → Db → Db}
    {attempts : Nat → Attempt} {cmd : TransferCommand} (faults : ∀ n, (attempts n).Faults P)
    (failed : (transferAmong maxAttempts others attempts cmd db).1 = .error err) :
    P err ∨ ∃ m cause, err = gaveUp m cause := by
  unfold transferAmong at failed
  split at failed
  · next invalid =>
    cases failed
    exact .inl (validate_meets harmless invalid)
  · simp only at failed
    split at failed
    · next raised =>
      cases failed
      exact retryLoop_meets harmless (transferProg_fnMeets harmless) faults _ _ _ _ raised
    · cases failed

/-- Every error returned has such a property, or is the retry loop's. -/
theorem Returned.meets (harmless : Harmless P) (returned : Returned err) :
    P err ∨ ∃ m cause, err = gaveUp m cause := by
  have known : ∀ e, GoError.foreign e = true → P e := harmless.foreign
  cases returned with
  | transfer e attempts cmd db faults failed =>
    exact transfer_meets harmless (fun n => (faults n).imp known) failed
  | transferAmong maxAttempts others attempts cmd db faults failed =>
    exact transferAmong_meets harmless (fun n => (faults n).imp known) failed
  | execute e attempts req db faults failed =>
    have meets : Fn.Meets P (executeProg e.strategy req) :=
      fun _ _ _ _ _ _ faults ran => executeProg_meets harmless faults ran
    exact inTx_meets harmless meets (fun n => (faults n).imp known) failed
  | createAccount ownerID id insert find db inserts finds failed =>
    exact .inl (createAccount_meets harmless (fun e at_e => known e (inserts e at_e))
      (fun e at_e => known e (finds e at_e)) failed)
  | balance find sum accountID db finds sums failed =>
    exact .inl (balance_meets harmless (fun e at_e => known e (finds e at_e))
      (fun e at_e => known e (sums e at_e)) failed)
  | entries find list accountID afterID limit before db finds lists failed =>
    exact .inl (entries_meets harmless (fun e at_e => known e (finds e at_e))
      (fun e at_e => known e (lists e at_e)) failed)
  | create outcome a db inserts failed =>
    exact .inl (create_meets harmless (fun e at_e => known e (inserts e at_e)) failed)
  | findByID fault id db finds failed =>
    exact .inl (findByID_meets harmless (fun e at_e => known e (finds e at_e)) failed)
  | ensureSystem id insert select db inserts selects failed =>
    exact .inl (ensureSystem_meets harmless (fun e at_e => known e (inserts e at_e))
      (fun e at_e => known e (selects e at_e)) failed)
  | sumByAccount fault accountID db sums failed =>
    exact .inl (sumByAccount_meets harmless (fun e at_e => known e (sums e at_e)) failed)
  | listByAccount fault accountID afterID limit db lists failed =>
    exact .inl (listByAccount_meets harmless (fun e at_e => known e (lists e at_e)) failed)
  | insertBatch faults foreign failed =>
    obtain ⟨e, first, rfl⟩ := Option.map_eq_some_iff.mp failed
    obtain ⟨fault, mem, same⟩ := List.exists_of_findSome?_eq_some first
    cases same
    exact .inl (harmless.wrap _ _ (known e (foreign e mem)))

end Meets

end WalletGo
