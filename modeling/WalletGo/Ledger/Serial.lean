import WalletGo.App.Service
import WalletGo.Ledger.Facts

/-!
Requests served one after another.

`transfer_served` says all that a transfer request can do, through either
executor and whatever fails: the database is as it was, or it has one more
posting that carries the request's command and that the database accepted.
Account requests add at most one account (`serve_cases`).
-/

namespace WalletGo

open Txn (Prog)

/-- The closure, run alone, ends as its facts say. -/
theorem run_concluded {x : Strategy} {cmd : TransferCommand} {amount : Money}
    (valid : validate cmd = .ok amount) {result result' : TransferResult} {db : Db}
    {choice : Nat → Choice} {writes : List Write}
    (ran : (transferProg x cmd amount result).run (alone db choice) [] 0 =
      ((.ok (), result'), writes)) : Concluded cmd db db writes result' := by
  have start : (.claim : Phase amount).Facts x cmd db db [] := ⟨⟨⟨0, 0, 0⟩, rfl⟩, trivial⟩
  obtain ⟨phase, ended, facts⟩ := (transferProg_follows result).run (alone db choice)
    (fun phase writes => phase.Facts x cmd db db writes) start
    fun n _ _ _ here facts => ⟨_, rfl, facts.step here (choice n)⟩
  rw [ran] at ended facts
  exact facts.concluded valid ended

/-- What a transfer request may do to the database. -/
inductive Served (cmd : TransferCommand) (db : Db) : Db → Prop where
  | unchanged : Served cmd db db
  | posted (p : Posting) (carries : p.Carries cmd) (accepts : db.Accepts db p) :
      Served cmd db (db.post p)

/-- A transaction that is concluded serves its command. -/
theorem Concluded.served {cmd : TransferCommand} {db : Db} {writes : List Write}
    {result : TransferResult} (concluded : Concluded cmd db db writes result) :
    Served cmd db (db.after writes) := by
  cases concluded with
  | posted p carries accepts =>
    rw [Db.after_writes accepts.free]
    exact .posted p carries accepts
  | replayed row stored same completed => exact .unchanged

/-- A command is posted at most once: the posting takes its key. -/
theorem Served.once {cmd : TransferCommand} {p : Posting} {db db' : Db} (carries : p.Carries cmd)
    (served : Served cmd (db.post p) db') : db' = db.post p := by
  cases served with
  | unchanged => rfl
  | posted q carries' accepts =>
    have taken := accepts.free
    rw [Db.keyRow_post, carries.key, carries'.key, if_pos rfl] at taken
    cases held : db.keyRow cmd.key <;> simp [held] at taken

/-- What an attempt that has the database to itself can do. -/
theorem attempt_served {x : Strategy} {cmd : TransferCommand} {amount : Money}
    (valid : validate cmd = .ok amount) (beginText commitText : String) (a : Attempt)
    (result : TransferResult) (db : Db) :
    Served cmd db (attempt beginText commitText (transferProg x cmd amount) a result db).db := by
  unfold attempt
  cases a.beginFault with
  | some err => exact .unchanged
  | none =>
    cases ran : (transferProg x cmd amount result).run (alone db a.choice) [] 0 with
    | mk finish writes =>
      obtain ⟨reply, result'⟩ := finish
      cases reply with
      | error err => exact .unchanged
      | ok _ =>
        have concluded := run_concluded valid ran
        cases a.commit with
        | acknowledged => exact concluded.served
        | failed err => exact .unchanged
        | lost err => exact concluded.served

/-- A retry after an attempt that was applied all the same finds the key taken. -/
theorem retryLoop_served {cmd : TransferCommand} {amount : Money}
    (valid : validate cmd = .ok amount) (attempts : Nat → Attempt) (left n : Nat)
    (result : TransferResult) (db : Db) :
    Served cmd db (retryLoop (transferProg .serializable cmd amount) (fun _ db => db)
      attempts left n result db).db := by
  induction left generalizing n result db with
  | zero =>
    have first := attempt_served (x := .serializable) valid Strategy.serializable.beginText
      Strategy.serializable.commitText (attempts n) result db
    unfold retryLoop
    simp only [serializableAttempt]
    split
    · exact first
    · split <;> exact first
  | succ left ih =>
    have first := attempt_served (x := .serializable) valid Strategy.serializable.beginText
      Strategy.serializable.commitText (attempts n) result db
    unfold retryLoop
    simp only [serializableAttempt]
    split
    · exact first
    · split
      · exact first
      · split
        · exact first
        · generalize attempt _ _ _ _ _ _ = ended at first ⊢
          obtain ⟨_, result', mid⟩ := ended
          have rest := ih (n + 1) result' mid
          cases first with
          | unchanged => exact rest
          | posted p carries accepts =>
            rw [Served.once carries rest]
            exact .posted p carries accepts

/-- `Transfer` books its command once, or changes nothing. -/
theorem transfer_served (e : Executor) (attempts : Nat → Attempt)
    (cmd : TransferCommand) (db : Db) : Served cmd db (transfer e attempts cmd db).2 := by
  unfold transfer
  cases valid : validate cmd with
  | error err => exact .unchanged
  | ok amount =>
    have served :
        Served cmd db (e.inTx (transferProg e.strategy cmd amount) attempts .empty db).db := by
      cases e with
      | locking => exact attempt_served valid _ _ _ _ _
      | serializable maxAttempts => exact retryLoop_served valid _ _ _ _ _
    dsimp only
    split <;> exact served

/-! ### Attempts whose outcome is known -/

/-- With a free key the transfer is executed and not replayed. -/
theorem Concluded.executes {cmd : TransferCommand} {base db : Db} {writes : List Write}
    {result : TransferResult} (concluded : Concluded cmd base db writes result)
    (free : base.keyRow cmd.key = none) : result.replayed = false := by
  cases concluded with
  | posted p carries accepts => rfl
  | replayed row stored same completed =>
    rw [free] at stored
    cases stored

/-- Where the key is free, an attempt that succeeds executes; one that fails, and
not by losing its acknowledgement, changes nothing. -/
theorem attempt_definite {x : Strategy} {cmd : TransferCommand} {amount : Money}
    (valid : validate cmd = .ok amount) (beginText commitText : String) {a : Attempt}
    (definite : ∀ err, a.commit ≠ .lost err) (result : TransferResult) {db : Db}
    (free : db.keyRow cmd.key = none) {ended : Outcome}
    (attempted : attempt beginText commitText (transferProg x cmd amount) a result db = ended) :
    (ended.err = none → ended.result.replayed = false) ∧
    ∀ err, ended.err = some err → ended.db = db := by
  subst attempted
  unfold attempt
  cases a.beginFault with
  | some err => exact ⟨nofun, fun _ _ => rfl⟩
  | none =>
    cases ran : (transferProg x cmd amount result).run (alone db a.choice) [] 0 with
    | mk finish writes =>
      obtain ⟨reply, result'⟩ := finish
      cases reply with
      | error err => exact ⟨nofun, fun _ _ => rfl⟩
      | ok _ =>
        cases ended : a.commit with
        | acknowledged => exact ⟨fun _ => (run_concluded valid ran).executes free, nofun⟩
        | failed err => exact ⟨nofun, fun _ _ => rfl⟩
        | lost err => exact absurd ended (definite err)

/-- A loop that succeeds on a free key, with no commit lost, has executed. -/
theorem retryLoop_executes {cmd : TransferCommand} {amount : Money}
    (valid : validate cmd = .ok amount) {attempts : Nat → Attempt}
    (definite : ∀ n err, (attempts n).commit ≠ .lost err) {db : Db}
    (free : db.keyRow cmd.key = none) (left n : Nat) (result : TransferResult) {ended : Outcome}
    (looped : retryLoop (transferProg .serializable cmd amount) (fun _ db => db) attempts left n
      result db = ended) (succeeded : ended.err = none) : ended.result.replayed = false := by
  induction left generalizing n result with
  | zero =>
    unfold retryLoop at looped
    simp only [serializableAttempt] at looped
    generalize attempted : attempt _ _ _ _ _ _ = first at looped
    obtain ⟨executes, -⟩ := attempt_definite valid _ _ (definite n) result free attempted
    split at looped
    · next fine =>
      subst looped
      exact executes fine
    · next err failed =>
      split at looped
      · subst looped
        exact executes succeeded
      · subst looped
        cases succeeded
  | succ left ih =>
    unfold retryLoop at looped
    simp only [serializableAttempt] at looped
    generalize attempted : attempt _ _ _ _ _ _ = first at looped
    obtain ⟨executes, unchanged⟩ := attempt_definite valid _ _ (definite n) result free attempted
    split at looped
    · next fine =>
      subst looped
      exact executes fine
    · next err failed =>
      split at looped
      · subst looped
        exact executes succeeded
      · split at looped
        · subst looped
          cases succeeded
        · rw [unchanged err failed] at looped
          exact ih (n + 1) first.result looped

/-- Where its key is free, a transfer that succeeds executes. -/
theorem transfer_not_replayed {e : Executor} {attempts : Nat → Attempt}
    {cmd : TransferCommand} {db db' : Db} {r : TransferResult}
    (definite : ∀ n err, (attempts n).commit ≠ .lost err) (free : db.keyRow cmd.key = none)
    (succeeded : transfer e attempts cmd db = (.ok r, db')) : r.replayed = false := by
  unfold transfer at succeeded
  cases valid : validate cmd with
  | error err => simp [valid] at succeeded
  | ok amount =>
    simp only [valid] at succeeded
    split at succeeded
    · cases succeeded
    · next fine =>
      cases succeeded
      cases e with
      | locking => exact (attempt_definite valid _ _ (definite 1) .empty free rfl).1 fine
      | serializable maxAttempts => exact retryLoop_executes valid definite free _ 1 .empty rfl fine

/-! ### One request -/

def Request.command : Request → Option TransferCommand
  | .ensureSystem .. | .create .. => none
  | .deposit _ _ systemAccountID cmd => some (depositCommand systemAccountID cmd)
  | .withdraw _ _ systemAccountID cmd => some (withdrawCommand systemAccountID cmd)
  | .transfer _ _ cmd => some cmd

/-- What one request may do to the database. -/
inductive Effect (r : Request) (db : Db) : Db → Prop where
  | unchanged : Effect r db db
  | opened (a : Account) (valid : db.accountViolation a = none) : Effect r db (db.addAccount a)
  | posted (cmd : TransferCommand) (asked : r.command = some cmd) (p : Posting)
      (carries : p.Carries cmd) (accepts : db.Accepts db p) : Effect r db (db.post p)

theorem Served.effect {r : Request} {cmd : TransferCommand} {db db' : Db}
    (asked : r.command = some cmd) (served : Served cmd db db') : Effect r db db' := by
  cases served with
  | unchanged => exact .unchanged
  | posted p carries accepts => exact .posted cmd asked p carries accepts

theorem insertAccount_effect (r : Request) (db : Db) (a : Account) :
    Effect r db (db.insertAccount a).2 := by
  unfold Db.insertAccount
  cases valid : db.accountViolation a with
  | some err => exact .unchanged
  | none => exact .opened a valid

theorem autocommit_effect {r : Request} {db : Db} {statement : Db → Except GoError Unit × Db}
    (effect : Effect r db (statement db).2) (outcome : CommitOutcome) :
    Effect r db (autocommit outcome statement db).2 := by
  cases outcome with
  | acknowledged => exact effect
  | failed err => exact .unchanged
  | lost err => exact effect

theorem insertSystem_effect (r : Request) (id : UUID) (db : Db) :
    Effect r db (AccountRepository.insertSystem id db).2 := by
  unfold AccountRepository.insertSystem
  split
  · exact .unchanged
  · exact insertAccount_effect r db _

theorem ensureSystem_effect (r : Request) (id : UUID) (insert : CommitOutcome)
    (select : Option GoError) (db : Db) :
    Effect r db (AccountRepository.ensureSystem id insert select db).2 := by
  have inserted := autocommit_effect (insertSystem_effect r id db) insert
  unfold AccountRepository.ensureSystem AccountRepository.ensureInsert
  generalize autocommit insert (AccountRepository.insertSystem id) db = ended at inserted
  obtain ⟨_ | _, db'⟩ := ended
  · exact inserted
  · exact inserted

theorem create_effect (r : Request) (outcome : CommitOutcome) (a : Account) (db : Db) :
    Effect r db (AccountRepository.create outcome a db).2 := by
  have inserted : Effect r db (autocommit outcome (·.insertAccount a) db).2 :=
    autocommit_effect (insertAccount_effect r db a) outcome
  unfold AccountRepository.create
  split
  · next ended => simpa [ended] using inserted
  · next ended => simpa [ended] using inserted

theorem createAccount_effect (r : Request) (ownerID : String) (id : UUID) (insert : CommitOutcome)
    (find : Option GoError) (db : Db) :
    Effect r db (createAccount ownerID id insert find db).2 := by
  have inserted : Effect r db (createInsert ownerID id insert db).2 := by
    unfold createInsert
    extract_lets owner
    split
    · exact .unchanged
    · exact create_effect r insert ⟨id, owner, .customer, defaultCurrency⟩ db
  unfold createAccount
  generalize createInsert ownerID id insert db = ended at inserted
  obtain ⟨_ | _, db'⟩ := ended
  · exact inserted
  · exact inserted

/-- Every request leaves the database as it was, opens one account or makes one
posting. -/
theorem serve_effect (db : Db) (r : Request) : Effect r db (serve db r) := by
  cases r with
  | ensureSystem id insert select => exact ensureSystem_effect _ id insert select db
  | create ownerID id insert find => exact createAccount_effect _ ownerID id insert find db
  | deposit e attempts systemAccountID cmd => exact (transfer_served e attempts _ db).effect rfl
  | withdraw e attempts systemAccountID cmd => exact (transfer_served e attempts _ db).effect rfl
  | transfer e attempts cmd => exact (transfer_served e attempts cmd db).effect rfl

end WalletGo
