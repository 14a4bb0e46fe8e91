import WalletGo.App.Failures
import WalletGo.Ledger.Serial

/-!
The retry loop of `SerializableTransferExecutor.InTx`, attempt by attempt.

`tried` lists the attempts a call makes, each with the committed rows it began from;
other calls commit what they like in between. `retryLoop_stops` says how the loop
ends: with the last attempt's outcome, unless that was a serialization failure and
the loop gave up or was cancelled. All attempts before it failed with 40001 or 40P01,
so they wrote nothing.
-/

namespace WalletGo

open Txn (Prog)

structure Tried where
  /-- The committed rows when it began. -/
  start : Db
  /-- The captured variable when it began. -/
  captured : TransferResult
  env : Attempt
  ended : Outcome

/-- It ended in an error that is retried. -/
def Tried.conflict (t : Tried) : Bool := t.ended.err.any isSerializationFailure

/-- `fn` returned nil with these writes and `Commit` returned nil. -/
structure Tried.Commits (fn : Fn) (t : Tried) (result : TransferResult) (writes : List Write) :
    Prop where
  began : t.env.beginFault = none
  ran : (fn t.captured).run (alone t.start t.env.choice) [] 0 = ((.ok (), result), writes)
  acknowledged : t.env.commit = .acknowledged

section Loop

variable (fn : Fn) (others : Nat → Db → Db) (attempts : Nat → Attempt)

/-- The `n`-th attempt, when the calls before it have left `db`. -/
def nthAttempt (n : Nat) (result : TransferResult) (db : Db) : Tried :=
  ⟨others n db, result, attempts n, serializableAttempt fn (attempts n) result (others n db)⟩

def tried : (left n : Nat) → TransferResult → Db → List Tried
  | left, n, result, db =>
    let this := nthAttempt fn others attempts n result db
    if this.conflict then
      match left with
      | 0 => [this]
      | left + 1 =>
        match this.env.cancelled with
        | some _ => [this]
        | none => this :: tried left (n + 1) this.ended.result this.ended.db
    else [this]

end Loop

/-- How the loop ends after its last attempt, when `tries` have been made of `limit`. -/
inductive Stops (limit tries : Nat) (last : Tried) : Outcome → Prop where
  | decided (definite : last.conflict = false) : Stops limit tries last last.ended
  | exhausted (err : GoError) (failed : last.ended.err = some err) (conflict : last.conflict)
      (all : tries = limit) (n : Nat) :
      Stops limit tries last { last.ended with err := some (gaveUp n err) }
  | cancelled (ctxErr : GoError) (conflict : last.conflict) (early : tries < limit)
      (done : last.env.cancelled = some ctxErr) :
      Stops limit tries last { last.ended with err := some ctxErr }

/-- A call that goes round once more may make one attempt more. -/
theorem Stops.succ {limit tries : Nat} {last : Tried} {ended : Outcome}
    (stops : Stops limit tries last ended) : Stops (limit + 1) (tries + 1) last ended := by
  cases stops with
  | decided definite => exact .decided definite
  | exhausted err failed conflict all n => exact .exhausted err failed conflict (congrArg _ all) n
  | cancelled ctxErr conflict early done =>
    exact .cancelled ctxErr conflict (Nat.succ_lt_succ early) done

/-! ### One attempt -/

section Attempts

variable {fn : Fn} {a : Attempt} {result : TransferResult} {db : Db} {beginText commitText : String}

theorem isSerializationFailure_wrap (text : String) (err : GoError) :
    isSerializationFailure (.wrap text err) = isSerializationFailure err := rfl

/-- An attempt that fails has written nothing, unless its commit was applied and the
acknowledgement lost. -/
theorem attempt_failed {err : GoError}
    (failed : (attempt beginText commitText fn a result db).err = some err) :
    (attempt beginText commitText fn a result db).db = db ∨
      ∃ lost, a.commit = .lost lost ∧ err = .wrap commitText lost := by
  unfold attempt at failed ⊢
  cases began : a.beginFault with
  | some fault => exact .inl rfl
  | none =>
    cases ran : (fn result).run (alone db a.choice) [] 0 with
    | mk finish writes =>
      obtain ⟨reply, result'⟩ := finish
      cases reply with
      | error err => exact .inl rfl
      | ok _ =>
        cases committed : a.commit with
        | acknowledged => simp [began, ran, committed] at failed
        | failed err => exact .inl rfl
        | lost lost =>
          simp only [began, ran, committed, Option.some.injEq] at failed
          exact .inr ⟨lost, rfl, failed.symm⟩

/-- An attempt returns nil when `Begin`, `fn` and `Commit` all do. -/
theorem attempt_eq_none_iff :
    (attempt beginText commitText fn a result db).err = none ↔
      a.beginFault = none ∧ (∃ result' writes,
        (fn result).run (alone db a.choice) [] 0 = ((.ok (), result'), writes)) ∧
        a.commit = .acknowledged := by
  unfold attempt
  cases a.beginFault with
  | some fault => simp
  | none =>
    cases ran : (fn result).run (alone db a.choice) [] 0 with
    | mk finish writes =>
      obtain ⟨reply, result'⟩ := finish
      cases reply with
      | error err => simp
      | ok _ => cases a.commit <;> simp

/-- An attempt whose commit is acknowledged has written what the function wrote. -/
theorem attempt_committed {result' : TransferResult} {writes : List Write}
    (began : a.beginFault = none)
    (ran : (fn result).run (alone db a.choice) [] 0 = ((.ok (), result'), writes))
    (acknowledged : a.commit = .acknowledged) :
    attempt beginText commitText fn a result db = ⟨none, result', db.after writes⟩ := by
  simp [attempt, began, ran, acknowledged]

end Attempts

/-! ### The loop -/

section Loop

variable {fn : Fn} {others : Nat → Db → Db} {attempts : Nat → Attempt} {left n : Nat}
  {result : TransferResult} {db : Db}

theorem Tried.conflict_iff {t : Tried} :
    t.conflict ↔ ∃ err, t.ended.err = some err ∧ isSerializationFailure err := by
  simp [Tried.conflict, Option.any_eq_true]

/-- What the attempts in the list are. -/
theorem tried_mem {t : Tried} (mem : t ∈ tried fn others attempts left n result db) :
    (∃ m, t.env = attempts m) ∧ t.ended = serializableAttempt fn t.env t.captured t.start := by
  induction left generalizing n result db with
  | zero =>
    unfold tried at mem
    simp only [ite_self, List.mem_singleton] at mem
    subst mem
    exact ⟨⟨n, rfl⟩, rfl⟩
  | succ left ih =>
    unfold tried at mem
    simp only at mem
    split at mem
    · split at mem
      · cases List.mem_singleton.mp mem
        exact ⟨⟨n, rfl⟩, rfl⟩
      · rcases List.mem_cons.mp mem with rfl | later
        · exact ⟨⟨n, rfl⟩, rfl⟩
        · exact ih later
    · cases List.mem_singleton.mp mem
      exact ⟨⟨n, rfl⟩, rfl⟩

section Round

variable {this : Tried} (here : nthAttempt fn others attempts n result db = this)

include here

/-- The first attempt settles the call. -/
theorem loop_decided (definite : this.conflict = false) :
    tried fn others attempts left n result db = [this] ∧
      retryLoop fn others attempts left n result db = this.ended := by
  subst here
  constructor
  · unfold tried
    simp [definite]
  · unfold retryLoop
    simp only [Tried.conflict, nthAttempt] at definite ⊢
    split
    · rfl
    · next err failed =>
      rw [failed, Option.any_some] at definite
      simp [definite]

variable {err : GoError} (failed : this.ended.err = some err)
  (conflict : isSerializationFailure err)

include failed conflict

/-- It was the last one left. -/
theorem loop_exhausted :
    tried fn others attempts 0 n result db = [this] ∧
      retryLoop fn others attempts 0 n result db =
        { this.ended with err := some (gaveUp n err) } := by
  subst here
  constructor
  · unfold tried
    simp
  · unfold retryLoop
    simp only [nthAttempt] at failed ⊢
    simp [failed, conflict]

/-- The context was done during the backoff. -/
theorem loop_cancelled {ctxErr : GoError} (cancelled : this.env.cancelled = some ctxErr) :
    tried fn others attempts (left + 1) n result db = [this] ∧
      retryLoop fn others attempts (left + 1) n result db =
        { this.ended with err := some ctxErr } := by
  have retried := Tried.conflict_iff.mpr ⟨err, failed, conflict⟩
  subst here
  constructor
  · unfold tried
    simp only [retried, if_true, cancelled]
  · unfold retryLoop
    simp only [nthAttempt] at failed cancelled ⊢
    simp [failed, conflict, cancelled]

/-- The loop goes round. -/
theorem loop_again (waited : this.env.cancelled = none) :
    tried fn others attempts (left + 1) n result db =
        this :: tried fn others attempts left (n + 1) this.ended.result this.ended.db ∧
      retryLoop fn others attempts (left + 1) n result db =
        retryLoop fn others attempts left (n + 1) this.ended.result this.ended.db := by
  have retried := Tried.conflict_iff.mpr ⟨err, failed, conflict⟩
  subst here
  constructor
  · rw [tried]
    simp only [retried, if_true, waited]
  · rw [retryLoop]
    simp only [nthAttempt] at failed waited ⊢
    simp [failed, conflict, waited]

end Round

variable (fn others attempts) in
/-- The loop makes at most one attempt more than it has left, retries only after a
serialization failure, and stops after the last attempt for one of three reasons. -/
theorem retryLoop_stops (left n : Nat) (result : TransferResult) (db : Db) :
    ∃ before last, tried fn others attempts left n result db = before ++ [last] ∧
      before.length ≤ left ∧ (∀ t ∈ before, t.conflict) ∧
      Stops (left + 1) (before.length + 1) last
        (retryLoop fn others attempts left n result db) := by
  induction left generalizing n result db with
  | zero =>
    generalize here : nthAttempt fn others attempts n result db = this
    cases decided : this.conflict with
    | false =>
      obtain ⟨made, looped⟩ := loop_decided here decided
      rw [made, looped]
      exact ⟨[], this, rfl, Nat.le_refl _, List.forall_mem_nil _, .decided decided⟩
    | true =>
      obtain ⟨err, failed, conflict⟩ := Tried.conflict_iff.mp decided
      obtain ⟨made, looped⟩ := loop_exhausted here failed conflict
      rw [made, looped]
      exact ⟨[], this, rfl, Nat.le_refl _, List.forall_mem_nil _,
        .exhausted err failed decided rfl n⟩
  | succ left ih =>
    generalize here : nthAttempt fn others attempts n result db = this
    cases decided : this.conflict with
    | false =>
      obtain ⟨made, looped⟩ := loop_decided here decided
      rw [made, looped]
      exact ⟨[], this, rfl, Nat.zero_le _, List.forall_mem_nil _, .decided decided⟩
    | true =>
      obtain ⟨err, failed, conflict⟩ := Tried.conflict_iff.mp decided
      cases waited : this.env.cancelled with
      | some ctxErr =>
        obtain ⟨made, looped⟩ := loop_cancelled here failed conflict waited
        rw [made, looped]
        exact ⟨[], this, rfl, Nat.zero_le _, List.forall_mem_nil _,
          .cancelled ctxErr decided (Nat.succ_lt_succ (Nat.succ_pos left)) waited⟩
      | none =>
        obtain ⟨made, looped⟩ := loop_again here failed conflict waited
        obtain ⟨before, last, rest, few, conflicts, stops⟩ :=
          ih (n + 1) this.ended.result this.ended.db
        rw [made, looped, rest]
        refine ⟨this :: before, last, rfl, Nat.succ_le_succ few, ?_, stops.succ⟩
        intro t mem
        rcases List.mem_cons.mp mem with rfl | later
        · exact decided
        · exact conflicts t later

end Loop

/-! ### All or last -/

/-- What a call of `InTx` returns and commits when it has made the attempts `before`
and then `last`. -/
structure AllOrLast (fn : Fn) (maxAttempts : Nat) (before : List Tried) (last : Tried)
    (ended : Outcome) : Prop where
  few : before.length + 1 ≤ maxAttempts
  /-- It goes on only after 40001 or 40P01, when nothing was committed. -/
  retried : ∀ t ∈ before, t.conflict ∧ t.ended.db = t.start
  /-- After these it stops only when the attempts are used up or the context is done. -/
  stopped : last.conflict → before.length + 1 = maxAttempts ∨ last.env.cancelled.isSome
  committed : ended.db = last.ended.db
  succeeds : ended.err = none ↔ ∃ result writes, last.Commits fn result writes
  computed : ∀ result writes, last.Commits fn result writes →
    ended.result = result ∧ ended.db = last.start.after writes
  /-- The sentinel is the loop's own, unless the last attempt or the context brought it. -/
  conflicts : (∀ err, last.ended.err = some err ∨ last.env.cancelled = some err →
      err.is .errConcurrencyConflict = false) →
    (ended.err.any (·.is .errConcurrencyConflict) ↔
      before.length + 1 = maxAttempts ∧ ∀ t ∈ before ++ [last], t.conflict)
  rolledBack : (∀ t ∈ before ++ [last], t.conflict) → ended.db = last.start

section Stops

variable {fn : Fn} {limit tries : Nat} {last : Tried} {ended : Outcome}

theorem Stops.db (stops : Stops limit tries last ended) : ended.db = last.ended.db := by
  cases stops <;> rfl

theorem Stops.result (stops : Stops limit tries last ended) : ended.result = last.ended.result := by
  cases stops <;> rfl

theorem Stops.err (stops : Stops limit tries last ended) :
    ended.err = none ↔ last.ended.err = none := by
  cases stops with
  | decided definite => exact Iff.rfl
  | exhausted err failed conflict all n => simp [failed]
  | cancelled ctxErr conflict early done =>
    obtain ⟨err, failed, -⟩ := Tried.conflict_iff.mp conflict
    simp [failed]

/-- The loop stops on a conflict when its attempts are used up or its context is cancelled. -/
theorem Stops.reason (stops : Stops limit tries last ended) (conflict : last.conflict) :
    tries = limit ∨ last.env.cancelled.isSome := by
  cases stops with
  | decided definite =>
    rw [definite] at conflict
    cases conflict
  | exhausted err failed _ all n => exact .inl all
  | cancelled ctxErr _ early done => exact .inr (by rw [done]; rfl)

/-- The conflict is reported exactly when the attempts are used up on one. -/
theorem Stops.conflict (stops : Stops limit tries last ended)
    (own : ∀ err, last.ended.err = some err ∨ last.env.cancelled = some err →
      err.is .errConcurrencyConflict = false) :
    ended.err.any (·.is .errConcurrencyConflict) ↔ tries = limit ∧ last.conflict := by
  cases stops with
  | decided definite =>
    cases failed : last.ended.err with
    | none => simp [definite]
    | some err => simp [definite, own err (.inl failed)]
  | exhausted err failed conflict all n => simp [gaveUp, GoError.is, conflict, all]
  | cancelled ctxErr conflict early done => simp [own ctxErr (.inr done), Nat.ne_of_lt early]

/-- The last attempt has committed when it returned nil. -/
theorem Tried.succeeded_iff (ran : last.ended =
      serializableAttempt fn last.env last.captured last.start) :
    last.ended.err = none ↔ ∃ result writes, last.Commits fn result writes := by
  rw [ran, serializableAttempt, attempt_eq_none_iff]
  constructor
  · rintro ⟨began, ⟨result, writes, ran⟩, acknowledged⟩
    exact ⟨result, writes, began, ran, acknowledged⟩
  · rintro ⟨result, writes, began, ran, acknowledged⟩
    exact ⟨began, ⟨result, writes, ran⟩, acknowledged⟩

/-- 40001 and 40P01 say that nothing was committed. -/
theorem Tried.rolledBack (ran : last.ended = serializableAttempt fn last.env
      last.captured last.start)
    (aborts : ∀ err, last.env.commit = .lost err → isSerializationFailure err = false)
    (conflict : last.conflict) : last.ended.db = last.start := by
  obtain ⟨err, failed, retryable⟩ := Tried.conflict_iff.mp conflict
  rw [ran] at failed ⊢
  rcases attempt_failed failed with same | ⟨lost, how, rfl⟩
  · exact same
  · rw [isSerializationFailure_wrap, aborts lost how] at retryable
    cases retryable

end Stops

def attemptsMade (maxAttempts : Nat) (fn : Fn) (others : Nat → Db → Db) (attempts : Nat → Attempt)
    (result : TransferResult) (db : Db) : List Tried :=
  tried fn others attempts (maxAttempts - 1) 1 result db

section InTx

variable {attempts : Nat → Attempt}

/-- Every attempt but the last was in conflict, and the last decides. -/
theorem serializableInTx_allOrLast {maxAttempts : Nat} (positive : 1 ≤ maxAttempts)
    (aborts : ∀ n err, (attempts n).commit = .lost err → isSerializationFailure err = false)
    (others : Nat → Db → Db) (fn : Fn) (result : TransferResult) (db : Db) :
    ∃ before last, attemptsMade maxAttempts fn others attempts result db = before ++ [last] ∧
      AllOrLast fn maxAttempts before last (serializableInTx maxAttempts fn others attempts
        result db) := by
  obtain ⟨before, last, made, few, conflicts, stops⟩ :=
    retryLoop_stops fn others attempts (maxAttempts - 1) 1 result db
  rw [Nat.sub_add_cancel positive] at stops
  generalize ends : retryLoop fn others attempts (maxAttempts - 1) 1 result db = ended at stops
  have ran : ∀ t ∈ before ++ [last], t.ended = serializableAttempt fn t.env t.captured t.start ∧
      ∀ err, t.env.commit = .lost err → isSerializationFailure err = false := by
    intro t mem
    rw [← made] at mem
    obtain ⟨⟨m, env⟩, ran⟩ := tried_mem mem
    exact ⟨ran, fun err lost => aborts m err (env ▸ lost)⟩
  obtain ⟨lastRan, lastAborts⟩ := ran last (List.mem_append_right _ List.mem_cons_self)
  refine ⟨before, last, made, ?_⟩
  rw [serializableInTx, ends]
  constructor
  case few => omega
  case retried =>
    intro t mem
    obtain ⟨ran, aborts⟩ := ran t (List.mem_append_left _ mem)
    exact ⟨conflicts t mem, Tried.rolledBack ran aborts (conflicts t mem)⟩
  case stopped =>
    intro conflict
    exact stops.reason conflict
  case committed => exact stops.db
  case succeeds => exact stops.err.trans (Tried.succeeded_iff lastRan)
  case computed =>
    intro result' writes commits
    have ended : last.ended = ⟨none, result', last.start.after writes⟩ :=
      lastRan.trans (attempt_committed commits.began commits.ran commits.acknowledged)
    rw [stops.result, stops.db, ended]
    exact ⟨rfl, rfl⟩
  case conflicts =>
    intro own
    rw [stops.conflict own]
    refine and_congr_right fun _ => ⟨fun conflict t mem => ?_, fun all => ?_⟩
    · rcases List.mem_append.mp mem with earlier | here
      · exact conflicts t earlier
      · cases List.mem_singleton.mp here
        exact conflict
    · exact all last (List.mem_append_right _ List.mem_cons_self)
  case rolledBack =>
    intro all
    rw [stops.db]
    exact Tried.rolledBack lastRan lastAborts
      (all last (List.mem_append_right _ List.mem_cons_self))

end InTx

/-! ### `Transfer` on the retry loop -/

/-- No error of the driver or the context is the application's own sentinel. -/
def Attempt.Foreign (a : Attempt) : Prop := a.Faults (·.is .errConcurrencyConflict = false)

/-- `TransferService.Transfer` on a `SerializableTransferExecutor`, while other calls
commit between its attempts. -/
def transferAmong (maxAttempts : Nat) (others : Nat → Db → Db) (attempts : Nat → Attempt)
    (cmd : TransferCommand) (db : Db) : Except GoError TransferResult × Db :=
  match validate cmd with
  | .error err => (.error err, db)
  | .ok amount =>
    let ended :=
      serializableInTx maxAttempts (transferProg .serializable cmd amount) others attempts .empty db
    match ended.err with
    | some err => (.error err, ended.db)
    | none => (.ok ended.result, ended.db)

/-- With nobody else about it is `transfer`. -/
theorem transferAmong_alone (maxAttempts : Nat) (attempts : Nat → Attempt)
    (cmd : TransferCommand) (db : Db) : transferAmong maxAttempts (fun _ db => db) attempts cmd db =
      transfer (.serializable maxAttempts) attempts cmd db := rfl

section Transfer

variable {cmd : TransferCommand} {amount : Money} {db : Db}

/-- Neither the closure nor an attempt returns the loop's sentinel by itself. -/
theorem attempt_avoids_conflict {x : Strategy} {a : Attempt} (foreign : a.Foreign)
    {beginText commitText : String} {result : TransferResult} {err : GoError}
    (failed : (attempt beginText commitText (transferProg x cmd amount) a result db).err =
      some err) : err.is .errConcurrencyConflict = false := by
  have sentinel := Sentinel.concurrencyConflict
  refine attempt_meets (fun _ _ same => same) foreign ?_ failed
  intro err result' writes ran
  refine transferProg_meets sentinel.benign rfl rfl rfl (fun n writes o err replied => ?_) ran
  exact sentinel.replied (foreign.operations n) err replied

/-- What is stored under the key of a request that has succeeded. -/
theorem Concluded.stored {writes : List Write} {result : TransferResult}
    (concluded : Concluded cmd db db writes result) :
    ∃ row, (db.after writes).keyRow cmd.key = some row ∧ row.fingerprint = cmd.fingerprint ∧
      row.state = .completed ∧ row.transferID.getD UUID.zero = result.transferID := by
  cases concluded with
  | posted p carries accepts =>
    refine ⟨p.keyRow, ?_, carries.fingerprint, rfl, rfl⟩
    have free := accepts.free
    rw [carries.key] at free
    rw [Db.after_writes accepts.free, Db.keyRow_post, carries.key, free, if_pos rfl]
    rfl
  | replayed row stored same completed => exact ⟨row, stored, same, completed, rfl⟩

variable {maxAttempts : Nat} {others : Nat → Db → Db} {attempts : Nat → Attempt}

theorem transferAmong_valid (valid : validate cmd = .ok amount) {ended : Outcome}
    (ends : serializableInTx maxAttempts (transferProg .serializable cmd amount) others
      attempts .empty db = ended) :
    transferAmong maxAttempts others attempts cmd db =
      (match ended.err with
        | some err => .error err
        | none => .ok ended.result, ended.db) := by
  subst ends
  simp only [transferAmong, valid]
  split <;> rfl

/-- A transfer that succeeds returns what the attempt computed that committed. -/
theorem transferAmong_ok (positive : 1 ≤ maxAttempts)
    (aborts : ∀ n err, (attempts n).commit = .lost err → isSerializationFailure err = false)
    {db' : Db} {r : TransferResult}
    (succeeded : transferAmong maxAttempts others attempts cmd db = (.ok r, db')) :
    ∃ amount before last writes row, validate cmd = .ok amount ∧
      attemptsMade maxAttempts (transferProg .serializable cmd amount) others attempts .empty db =
        before ++ [last] ∧
      last.Commits (transferProg .serializable cmd amount) r writes ∧
        db' = last.start.after writes ∧
      db'.keyRow cmd.key = some row ∧ row.state = .completed ∧
      row.transferID.getD UUID.zero = r.transferID := by
  cases valid : validate cmd with
  | error err => simp [transferAmong, valid] at succeeded
  | ok amount =>
    obtain ⟨before, last, made, all⟩ :=
      serializableInTx_allOrLast positive aborts others
        (transferProg .serializable cmd amount) .empty db
    rw [transferAmong_valid valid rfl] at succeeded
    obtain ⟨replied, rfl⟩ := Prod.mk.inj succeeded
    split at replied
    · cases replied
    · next fine =>
      cases replied
      obtain ⟨result, writes, commits⟩ := all.succeeds.mp fine
      obtain ⟨rfl, left⟩ := all.computed result writes commits
      obtain ⟨row, stored, -, completed, id⟩ := (run_concluded valid commits.ran).stored
      rw [left]
      exact ⟨amount, before, last, writes, row, rfl, made, commits, rfl, stored, completed, id⟩

/-- A transfer reports a concurrency conflict when every attempt it had met one. -/
theorem transferAmong_conflict (positive : 1 ≤ maxAttempts)
    (aborts : ∀ n err, (attempts n).commit = .lost err → isSerializationFailure err = false)
    (foreign : ∀ n, (attempts n).Foreign) (valid : validate cmd = .ok amount) :
    (∃ err db', transferAmong maxAttempts others attempts cmd db = (.error err, db') ∧
        err.is .errConcurrencyConflict) ↔
      (attemptsMade maxAttempts (transferProg .serializable cmd amount) others attempts
        .empty db).length =
          maxAttempts ∧
        ∀ t ∈ attemptsMade maxAttempts (transferProg .serializable cmd amount) others
          attempts .empty db, t.conflict := by
  generalize ends :
    serializableInTx maxAttempts (transferProg .serializable cmd amount) others attempts
    .empty db = ended
  obtain ⟨before, last, made, all⟩ :=
    serializableInTx_allOrLast positive aborts others
      (transferProg .serializable cmd amount) .empty db
  have mem : last ∈ attemptsMade maxAttempts (transferProg .serializable cmd amount) others attempts
      .empty db := by
    rw [made]
    exact List.mem_append_right _ List.mem_cons_self
  obtain ⟨⟨m, env⟩, ran⟩ := tried_mem mem
  have own : ∀ err, last.ended.err = some err ∨ last.env.cancelled = some err →
      err.is .errConcurrencyConflict = false := by
    rintro err (failed | cancelled)
    · rw [ran] at failed
      exact attempt_avoids_conflict (env ▸ foreign m) failed
    · exact (foreign m).cancels err (env ▸ cancelled)
  have conflicts := all.conflicts own
  rw [ends] at conflicts
  rw [transferAmong_valid valid ends, made, List.length_append, List.length_singleton, ← conflicts]
  cases ended.err with
  | none => simp
  | some err => simp

end Transfer

/-- For every sequence of attempt outcomes, with others committing in between: `InTx`
keeps to `AllOrLast`; a transfer that succeeds returns what the committed attempt
computed, and that is what is stored under its key; one that reports a concurrency
conflict has used all its attempts on conflicts. Postgres reports 40001 and 40P01 only
for transactions it has rolled back. -/
theorem retry_all_or_last {maxAttempts : Nat} (positive : 1 ≤ maxAttempts) (others : Nat → Db → Db)
    {attempts : Nat → Attempt}
    (aborts : ∀ n err, (attempts n).commit = .lost err → isSerializationFailure err = false) :
    (∀ fn result db, ∃ before last, attemptsMade maxAttempts fn others attempts result db =
      before ++ [last] ∧
      AllOrLast fn maxAttempts before last (serializableInTx maxAttempts fn others
        attempts result db)) ∧
    (∀ cmd db db' r, transferAmong maxAttempts others attempts cmd db = (.ok r, db') →
      ∃ amount before last writes row, validate cmd = .ok amount ∧
        attemptsMade maxAttempts (transferProg .serializable cmd amount) others attempts .empty db =
          before ++ [last] ∧
        last.Commits (transferProg .serializable cmd amount) r writes ∧
          db' = last.start.after writes ∧
        db'.keyRow cmd.key = some row ∧ row.state = .completed ∧
        row.transferID.getD UUID.zero = r.transferID) ∧
    ((∀ n, (attempts n).Foreign) → ∀ cmd db amount, validate cmd = .ok amount →
      ((∃ err db', transferAmong maxAttempts others attempts cmd db = (.error err, db') ∧
          err.is .errConcurrencyConflict) ↔
        (attemptsMade maxAttempts (transferProg .serializable cmd amount) others attempts
          .empty db).length =
            maxAttempts ∧
          ∀ t ∈ attemptsMade maxAttempts (transferProg .serializable cmd amount) others
            attempts .empty db, t.conflict)) := by
  refine ⟨serializableInTx_allOrLast positive aborts others, ?_, ?_⟩
  · intro cmd db db' r succeeded
    exact transferAmong_ok positive aborts succeeded
  · intro foreign cmd db amount valid
    exact transferAmong_conflict positive aborts foreign valid

namespace OneConflict

/-- The first commit is refused with 40001. -/
def attempts (n : Nat) : Attempt :=
  ⟨none, fun k => ⟨none, .ofByte (if n = 1 then 13 else 23), k, 0⟩,
    if n = 1 then .failed (.pgError "40001" "could not serialize access") else .acknowledged, none⟩

def db : Db := { Db.empty with
  accounts := [⟨.ofByte 1, "system", .system, "BRL"⟩, ⟨.ofByte 2, "alice", .customer, "BRL"⟩] }

def cmd : TransferCommand :=
  ⟨⟨"alice", "POST /deposits", "first"⟩, "fingerprint", .ofByte 1, .ofByte 2, 100⟩

end OneConflict

open OneConflict in
/-- The first attempt generated the id 13 and was rolled back; the second generated 23,
which is what is returned and stored. -/
theorem retry_all_or_last_conflict :
    ∃ r db', transferAmong 2 (fun _ db => db) attempts cmd db = (.ok r, db') ∧
      r.transferID = .ofByte 23 ∧ ∃ row, db'.keyRow cmd.key = some row ∧
        row.transferID.getD UUID.zero = .ofByte 23 := by
  have aborts : ∀ n err, (attempts n).commit = .lost err → isSerializationFailure err = false := by
    intro n err lost
    unfold attempts at lost
    split at lost <;> cases lost
  have returned : (transferAmong 2 (fun _ db => db) attempts cmd db).1 =
      .ok ⟨.ofByte 23, createdResponse (.ofByte 23), false⟩ := by decide +kernel
  have ran : transferAmong 2 (fun _ db => db) attempts cmd db =
      (_, (transferAmong 2 (fun _ db => db) attempts cmd db).2) := Prod.ext returned rfl
  obtain ⟨-, -, -, -, row, -, -, -, -, stored, -, same⟩ :=
    (retry_all_or_last (by decide) (fun _ db => db) aborts).2.1 _ _ _ _ ran
  exact ⟨_, _, ran, rfl, row, stored, same⟩

end WalletGo
