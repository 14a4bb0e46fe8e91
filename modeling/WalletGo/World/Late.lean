import WalletGo.World.ExactlyOnce

/-!
Calls that carry a key which is already stored.

Whoever holds the lock of a key has found it free, so a stored key is locked by
nobody (`World.Guarded`) and the claim of a later call never waits. `Late n` lists
the points such a call goes through when it meets no fault, with the number of
its own acts left: each healthy act takes it one point further (`Late.own`), at
each point one is enabled (`Late.enabled`), and what the others do meanwhile does
not matter (`Late.mono`).
-/

namespace WalletGo

open Txn (Prog)

/-! ### The locks of keys -/

/-- A locked key is not stored. -/
def World.Guarded (w : World) : Prop :=
  ∀ i key mode, (.key key, mode) ∈ w.heldBy i → mode = .exclusive ∧ w.db.keyRow key = none

/-- Only the claim and the completion of a free key lock it. -/
theorem Phase.acquires_key {x : Strategy} {cmd : TransferCommand} {amount : Money} {base db : Db}
    {phase : Phase amount} {made : List Write} {o : Op} (here : phase.op x cmd = some o)
    (facts : phase.Facts x cmd base db made) (c : Choice) {key : IdempotencyKey} {mode : LockMode}
    (acquired : (.key key, mode) ∈ o.acquires (exec c (base.after made) (db.after made) o).1) :
    mode = .exclusive ∧ db.keyRow key = none := by
  have needed := o.acquires_subset _ acquired
  cases phase with
  | claim =>
    cases here
    obtain ⟨⟨st, rfl⟩, -⟩ := facts
    obtain ⟨rfl, rfl⟩ : key = cmd.key ∧ mode = .exclusive := by simpa [Op.locks] using needed
    change _ ∈ Op.acquires _ (exec c base db _).1 at acquired
    rcases exec_claimKey c base db cmd.key cmd.fingerprint with
      ⟨err, replied⟩ | ⟨-, replied⟩ | ⟨-, absent, -⟩
    · rw [replied] at acquired
      cases acquired
    · rw [replied] at acquired
      cases acquired
    · exact ⟨rfl, absent⟩
  | completeKey k eventID =>
    cases here
    obtain ⟨rfl, rfl⟩ : key = cmd.key ∧ mode = .exclusive := by simpa [Op.locks] using needed
    exact ⟨rfl, facts.2.1⟩
  | readFirst id =>
    cases here
    cases x <;> simp [Op.locks, Strategy.forUpdate] at needed
  | readSecond id k₁ =>
    cases here
    cases x <;> simp [Op.locks, Strategy.forUpdate] at needed
  | executed k eventID => cases here
  | replayed row => cases here
  | failed err => cases here
  | _ =>
    cases here
    simp [Op.locks] at needed

/-- A key is stored when its lock is given up, not before. -/
theorem World.Move.guarded {w w' : World} {a : Act} (move : w.Move a w') (inv : w.Inv)
    (guarded : w.Guarded) : w'.Guarded := by
  intro j key mode locked
  by_cases mine : a.session = some j
  · cases move with
    | outside i s own was now kept => exact guarded j key mode locked
    | begins i call attempt result was => exact guarded j key mode locked
    | performs i c call attempt tx o next was prog free drawn =>
      cases mine
      rw [show (w.performed j call attempt tx o next c).heldBy j = _ from heldBy_append_self _,
        List.mem_append] at locked
      rcases locked with locked | acquired
      · exact guarded j key mode locked
      · obtain ⟨phase, txInv⟩ := inv.running was
        have follows := txInv.follows
        rw [prog] at follows
        exact Phase.acquires_key follows.1 txInv.facts c acquired
    | aborts i s own call attempt tx was now kept =>
      cases mine.symm.trans own
      rw [heldBy_set, heldBy_release_self] at locked
      cases locked
    | commits i outcome call attempt tx result s was prog allowed now =>
      cases mine
      rw [show ((w.apply j call tx result).set j s).heldBy j = [] from heldBy_release_self (w := w)]
        at locked
      cases locked
    | opens a valid => cases mine
  · obtain ⟨same, agrees⟩ := move.undisturbed inv mine
    rw [same] at locked
    obtain ⟨rfl, absent⟩ := guarded j key mode locked
    exact ⟨rfl, agrees.keyRow_eq locked ▸ absent⟩

/-- The claim of a stored key waits for nobody. -/
theorem World.Guarded.claim_free {w : World} (guarded : w.Guarded) {key : IdempotencyKey}
    {row : KeyRow} (stored : w.db.keyRow key = some row) (i : Nat) (fingerprint : String) :
    w.blocked i (.claimKey key fingerprint) = false := by
  rw [Bool.eq_false_iff]
  intro waits
  simp only [blocked, List.any_eq_true, Bool.and_eq_true, beq_iff_eq, Op.locks, List.mem_singleton]
    at waits
  obtain ⟨⟨j, resource, mode⟩, mem, -, _, rfl, rfl, -⟩ := waits
  obtain ⟨-, absent⟩ := guarded j key mode (mem_heldBy.mpr mem)
  rw [stored] at absent
  cases absent

/-! ### The course of a late call -/

/-- The database does its part in this act, and the session lives. -/
def Act.Healthy : Act → Prop
  | .start .. | .rollback _ | .openAccount _ => True
  | .begin _ fault => fault = none
  | .perform _ c => c.fault = none
  | .commit _ outcome => outcome = .acknowledged
  | .wake _ cancelled => cancelled = none
  | .crash _ => False

def KeyRow.answer (row : KeyRow) (cmd : TransferCommand) : Except GoError TransferResult :=
  if row.fingerprint = cmd.fingerprint then .ok row.replayResult else .error .errIdempotencyKeyReuse

/-- A session on its way to the answer for a stored key, and how many of its acts
are left. -/
inductive Late (db : Db) (cmd : TransferCommand) (row : KeyRow) : Nat → Session → Prop where
  | idle : Late db cmd row 5 .idle
  | ready {call attempt result} (same : call.cmd = cmd) :
      Late db cmd row 4 (.ready call attempt result)
  | claiming {call attempt result} (same : call.cmd = cmd) :
      Late db cmd row 3 (.running call attempt (.begun call result))
  | loading {call attempt tx} (same : call.cmd = cmd)
      (follows : Phase.Follows call.strategy cmd tx.prog (.load : Phase call.amount))
      (calm : tx.writes = [] ∧ tx.reads = [])
      (seen : (tx.base call.strategy db).keyRow cmd.key = some row) :
      Late db cmd row 2 (.running call attempt tx)
  | answered {call attempt tx} (same : call.cmd = cmd)
      (follows : Phase.Follows call.strategy cmd tx.prog
        (Phase.afterLoad cmd row : Phase call.amount))
      (calm : tx.reads = []) : Late db cmd row 1 (.running call attempt tx)
  | returned : Late db cmd row 0 (.returned cmd (row.answer cmd))

theorem OpenTx.base_keyRow {tx : OpenTx} {x : Strategy} {db db' : Db} (grown : db.Extends db')
    {key : IdempotencyKey} {row : KeyRow} (seen : (tx.base x db).keyRow key = some row) :
    (tx.base x db').keyRow key = some row := by
  rcases tx.sees x db db' with ⟨-, unpinned⟩ | sees
  · rw [base_unpinned unpinned] at seen ⊢
    exact grown.keyRow seen
  · generalize tx.base x db' = base' at sees ⊢
    cases sees with
    | snapshot => exact seen
    | latest locking same =>
      rw [same] at seen
      exact grown.keyRow seen

namespace Late

variable {db db' : Db} {cmd : TransferCommand} {row : KeyRow} {n : Nat} {s : Session}

theorem mono (late : Late db cmd row n s) (grown : db.Extends db') : Late db' cmd row n s := by
  cases late with
  | idle => exact .idle
  | ready same => exact .ready same
  | claiming same => exact .claiming same
  | loading same follows calm seen =>
    exact .loading same follows calm (OpenTx.base_keyRow grown seen)
  | answered same follows calm => exact .answered same follows calm
  | returned => exact .returned

variable {w w' : World} {i : Nat} {a : Act}

/-- What a healthy act does to a running session. -/
theorem step_running {call : Call} {attempt : Nat} {tx : OpenTx}
    (was : w.sessions i = .running call attempt tx) (mine : a.session = some i)
    (healthy : a.Healthy) (stepped : w.step a = some w') :
    (∃ o next c, tx.prog = .op o next ∧ c.fault = none ∧
      w' = w.performed i call attempt tx o next c) ∨
    (∃ result, tx.prog = .ret (.ok (), result) ∧
      w' = (w.apply i call tx result).set i (.returned call.cmd (.ok result))) ∨
    ∃ err result, tx.prog = .ret (.error err, result) ∧
      w' = (w.release i).set i (call.afterError attempt result err) := by
  cases a with
  | perform j c =>
    cases mine
    simp only [World.step, was, World.perform] at stepped
    split at stepped
    · cases stepped
    · next o next prog =>
      split at stepped
      · cases stepped
      · cases stepped
        exact .inl ⟨o, next, c, prog, healthy, rfl⟩
  | rollback j =>
    cases mine
    simp only [World.step, was] at stepped
    split at stepped
    · next err result prog =>
      cases stepped
      exact .inr (.inr ⟨err, result, prog, rfl⟩)
    · cases stepped
  | commit j outcome =>
    cases mine
    cases healthy
    simp only [World.step, was, World.commit] at stepped
    split at stepped
    · next result prog =>
      split at stepped
      · cases stepped
      · cases stepped
        exact .inr (.inl ⟨result, prog, rfl⟩)
    · cases stepped
  | crash j => exact healthy.elim
  | start j executor cmd => cases mine; simp [World.step, was] at stepped
  | begin j fault => cases mine; simp [World.step, was] at stepped
  | wake j cancelled => cases mine; simp [World.step, was] at stepped
  | openAccount a => cases mine

/-- The claim of a stored key finds it and leads to its loading. -/
theorem claimed (call : Call) (attempt : Nat) (result : TransferResult) {o : Op}
    {next : o.Reply → Prog sql (Except GoError Unit × TransferResult)} {c : Choice}
    (stored : w.db.keyRow call.cmd.key = some row)
    (prog : (OpenTx.begun call result).prog = .op o next) (healthy : c.fault = none) :
    Late w.db call.cmd row 2 (.running call attempt
      ((OpenTx.begun call result).advance call.strategy w.db w.log.length o next c)) := by
  have follows := OpenTx.begun_follows call result
  rw [prog] at follows
  obtain ⟨here, later⟩ := follows
  cases here
  have base : (OpenTx.begun call result).base call.strategy w.db = w.db :=
    OpenTx.base_unpinned rfl _ _
  have replied : (OpenTx.begun call result).answer call.strategy w.db c
      (.claimKey call.cmd.key call.cmd.fingerprint) = (.ok 0, []) := by
    rw [OpenTx.answer, base]
    simp [exec, Choice.guard_healthy healthy, claimOutcome, OpenTx.begun, stored]
  refine .loading rfl ?_ ⟨?_, rfl⟩ ?_
  · exact later _ _ (by rw [replied]; rfl)
  · rw [OpenTx.advance, replied]
    rfl
  · rw [OpenTx.base_advance, base]
    exact stored

/-- A key that is loaded decides between a replay and a refusal. -/
theorem loaded {call : Call} (attempt : Nat) {tx : OpenTx} {o : Op}
    {next : o.Reply → Prog sql (Except GoError Unit × TransferResult)} {c : Choice}
    (follows : Phase.Follows call.strategy call.cmd tx.prog (.load : Phase call.amount))
    (calm : tx.writes = [] ∧ tx.reads = [])
    (seen : (tx.base call.strategy w.db).keyRow call.cmd.key = some row)
    (prog : tx.prog = .op o next) (healthy : c.fault = none) :
    Late w.db call.cmd row 1 (.running call attempt
      (tx.advance call.strategy w.db w.log.length o next c)) := by
  rw [prog] at follows
  obtain ⟨here, later⟩ := follows
  cases here
  have replied : tx.answer call.strategy w.db c (.loadKey call.cmd.key) = (.ok (some row), []) := by
    simp [OpenTx.answer, exec, Choice.guard_healthy healthy, calm.1, seen]
  refine .answered rfl ?_ ?_
  · exact later _ _ (by rw [replied]; rfl)
  · simp [OpenTx.advance, calm.2, Op.reads]

/-- Where the stored row leads, the closure ends. -/
theorem afterLoad_ends {call : Call} {tx : OpenTx} (completed : row.state = .completed)
    (follows : Phase.Follows call.strategy call.cmd tx.prog
      (Phase.afterLoad call.cmd row : Phase call.amount)) :
    row.fingerprint = call.cmd.fingerprint ∧ tx.prog = .ret (.ok (), row.replayResult) ∨
      row.fingerprint ≠ call.cmd.fingerprint ∧
        tx.prog = .ret (.error .errIdempotencyKeyReuse, .empty) := by
  by_cases same : row.fingerprint = call.cmd.fingerprint
  · exact .inl ⟨same, follows.ends (by simp [Phase.afterLoad, same, completed, Phase.outcome])⟩
  · exact .inr ⟨same, follows.ends (by simp [Phase.afterLoad, same, Phase.outcome])⟩

theorem afterError_keyReuse (call : Call) (attempt : Nat) (result : TransferResult) :
    call.afterError attempt result .errIdempotencyKeyReuse =
      .returned call.cmd (.error .errIdempotencyKeyReuse) := by
  unfold Call.afterError
  split
  · rfl
  · exact if_pos (by decide)

/-- Each healthy act of the session takes it one point further. -/
theorem own (late : Late w.db cmd row n (w.sessions i)) (stored : w.db.keyRow cmd.key = some row)
    (completed : row.state = .completed) {amount : Money} (valid : validate cmd = .ok amount)
    (mine : a.session = some i) (healthy : a.Healthy) (only : ∀ e c, a = .start i e c → c = cmd)
    (stepped : w.step a = some w') : ∃ m, n = m + 1 ∧ Late w'.db cmd row m (w'.sessions i) := by
  generalize was : w.sessions i = s at late
  cases late with
  | idle =>
    cases a with
    | start j e c =>
      cases mine
      obtain rfl := only e c rfl
      simp only [World.step, was] at stepped
      split at stepped
      · next err invalid =>
        rw [valid] at invalid
        cases invalid
      · cases stepped
        refine ⟨4, rfl, ?_⟩
        rw [World.sessions_set_self]
        exact .ready rfl
    | openAccount a => cases mine
    | _ => cases mine; simp [World.step, was] at stepped
  | ready same =>
    cases a with
    | begin j fault =>
      cases mine
      cases healthy
      simp only [World.step, was] at stepped
      cases stepped
      refine ⟨3, rfl, ?_⟩
      rw [World.sessions_set_self]
      exact .claiming same
    | crash j => exact healthy.elim
    | openAccount a => cases mine
    | _ => cases mine; simp [World.step, was] at stepped
  | @claiming call attempt result same =>
    subst same
    obtain ⟨rest, claims⟩ := (OpenTx.begun_follows call result).performs rfl
    rcases step_running was mine healthy stepped with
      ⟨o, next, c, prog, healthy, rfl⟩ | ⟨_, prog, -⟩ | ⟨_, _, prog, -⟩
    · refine ⟨2, rfl, ?_⟩
      rw [show (w.performed i call attempt _ o next c).sessions i =
        _ from World.sessions_set_self _]
      exact claimed call attempt result stored prog healthy
    · cases claims.symm.trans prog
    · cases claims.symm.trans prog
  | @loading call attempt tx same follows calm seen =>
    subst same
    obtain ⟨rest, loads⟩ := follows.performs rfl
    rcases step_running was mine healthy stepped with
      ⟨o, next, c, prog, healthy, rfl⟩ | ⟨_, prog, -⟩ | ⟨_, _, prog, -⟩
    · refine ⟨1, rfl, ?_⟩
      rw [show (w.performed i call attempt tx o next c).sessions i =
        _ from World.sessions_set_self _]
      exact loaded attempt follows calm seen prog healthy
    · cases loads.symm.trans prog
    · cases loads.symm.trans prog
  | @answered call attempt tx same follows calm =>
    subst same
    suffices returned : w'.sessions i = .returned call.cmd (row.answer call.cmd) by
      rw [returned]
      exact ⟨0, rfl, .returned⟩
    rcases afterLoad_ends completed follows with ⟨same, ends⟩ | ⟨differs, ends⟩
    · rcases step_running was mine healthy stepped with
        ⟨_, _, _, prog, -⟩ | ⟨_, prog, rfl⟩ | ⟨_, _, prog, -⟩
      · cases ends.symm.trans prog
      · cases ends.symm.trans prog
        rw [World.sessions_set_self, KeyRow.answer, if_pos same]
      · cases ends.symm.trans prog
    · rcases step_running was mine healthy stepped with
        ⟨_, _, _, prog, -⟩ | ⟨_, prog, -⟩ | ⟨_, _, prog, rfl⟩
      · cases ends.symm.trans prog
      · cases ends.symm.trans prog
      · cases ends.symm.trans prog
        rw [World.sessions_set_self, KeyRow.answer, if_neg differs, afterError_keyReuse]
  | returned => exact absurd (by rw [was]; trivial) (World.step_live mine stepped)

theorem performable {call : Call} {attempt : Nat} {tx : OpenTx} {o : Op}
    {next : o.Reply → Prog sql (Except GoError Unit × TransferResult)}
    (was : w.sessions i = .running call attempt tx) (prog : tx.prog = .op o next)
    (free : w.blocked i o = false) (draws : o.drawsSequence = false) :
    w.step (.perform i default) = some (w.performed i call attempt tx o next default) := by
  simp only [World.step, was, World.perform, prog, free, draws]
  rfl

theorem committable {call : Call} {attempt : Nat} {tx : OpenTx} {result : TransferResult}
    (was : w.sessions i = .running call attempt tx) (prog : tx.prog = .ret (.ok (), result))
    (calm : tx.reads = []) :
    w.step (.commit i .acknowledged) =
      some ((w.apply i call tx result).set i (.returned call.cmd (.ok result))) := by
  have allowed : w.refused call tx = false := by
    simp [World.refused, OpenTx.cycle, calm]
  simp only [World.step, was, World.commit, prog, allowed]
  rfl

theorem revocable {call : Call} {attempt : Nat} {tx : OpenTx} {err : GoError}
    {result : TransferResult} (was : w.sessions i = .running call attempt tx)
    (prog : tx.prog = .ret (.error err, result)) :
    w.step (.rollback i) = some ((w.release i).set i (call.afterError attempt result err)) := by
  simp only [World.step, was, prog]

/-- Until the call has returned, a healthy act of it is enabled. -/
theorem enabled (late : Late w.db cmd row (n + 1) (w.sessions i)) (guarded : w.Guarded)
    (stored : w.db.keyRow cmd.key = some row) (completed : row.state = .completed)
    (executor : Executor) :
    ∃ a w', a.session = some i ∧ a.Healthy ∧
      (∀ e c, a = .start i e c → e = executor ∧ c = cmd) ∧ w.step a = some w' := by
  generalize was : w.sessions i = s at late
  cases late with
  | idle =>
    have starts : ∃ w', w.step (.start i executor cmd) = some w' := by
      simp only [World.step, was]
      split
      · exact ⟨_, rfl⟩
      · exact ⟨_, rfl⟩
    obtain ⟨w', starts⟩ := starts
    refine ⟨.start i executor cmd, w', rfl, trivial, ?_, starts⟩
    rintro e c ⟨⟩
    exact ⟨rfl, rfl⟩
  | @ready call attempt result same =>
    refine ⟨.begin i none, w.set i (.running call attempt (.begun call result)), rfl,
      rfl, by rintro e c ⟨⟩, ?_⟩
    simp only [World.step, was]
  | @claiming call attempt result same =>
    subst same
    obtain ⟨rest, claims⟩ := (OpenTx.begun_follows call result).performs rfl
    exact ⟨.perform i default, _, rfl, rfl, by rintro e c ⟨⟩,
      performable was claims (guarded.claim_free stored i _) rfl⟩
  | @loading call attempt tx same follows calm seen =>
    obtain ⟨rest, loads⟩ := follows.performs rfl
    exact ⟨.perform i default, _, rfl, rfl, by rintro e c ⟨⟩,
      performable was loads (by simp [World.blocked, Op.locks]) rfl⟩
  | @answered call attempt tx same follows calm =>
    subst same
    rcases afterLoad_ends completed follows with ⟨same, ends⟩ | ⟨differs, ends⟩
    · exact ⟨.commit i .acknowledged, _, rfl, rfl, by rintro e c ⟨⟩, committable was ends calm⟩
    · exact ⟨.rollback i, _, rfl, trivial, by rintro e c ⟨⟩, revocable was ends⟩

end Late

/-- Session `i` is on its way to the answer for a stored key. -/
structure World.Awaits (w : World) (i : Nat) (cmd : TransferCommand) (row : KeyRow) (n : Nat) :
    Prop where
  inv : w.Inv
  guarded : w.Guarded
  stored : w.db.keyRow cmd.key = some row
  late : Late w.db cmd row n (w.sessions i)

/-- The acts of session `i` make one call of `cmd` and meet no fault. -/
def Act.Serves (i : Nat) (executor : Executor) (cmd : TransferCommand) (a : Act) : Prop :=
  a.session = some i → a.Healthy ∧ ∀ e c, a = .start i e c → e = executor ∧ c = cmd

namespace World.Awaits

variable {w w' : World} {i : Nat} {a : Act} {cmd : TransferCommand} {row : KeyRow} {n : Nat}
  {executor : Executor} {amount : Money}

/-- One act of the session itself brings it nearer to its answer. -/
theorem own (awaits : w.Awaits i cmd row n) (completed : row.state = .completed)
    (valid : validate cmd = .ok amount) (mine : a.session = some i) (healthy : a.Healthy)
    (only : ∀ e c, a = .start i e c → e = executor ∧ c = cmd) (stepped : w.step a = some w') :
    ∃ m, n = m + 1 ∧ w'.Awaits i cmd row m := by
  have move := step_move stepped
  obtain ⟨m, same, late⟩ := awaits.late.own awaits.stored completed valid mine healthy
    (fun e c starts => (only e c starts).2) stepped
  exact ⟨m, same, move.inv awaits.inv, move.guarded awaits.inv awaits.guarded,
    (move.extends' awaits.inv).keyRow awaits.stored, late⟩

/-- So the session stays on its way whatever is done. -/
theorem step (awaits : w.Awaits i cmd row n) (completed : row.state = .completed)
    (valid : validate cmd = .ok amount) (serves : a.Serves i executor cmd)
    (stepped : w.step a = some w') : ∃ m, w'.Awaits i cmd row m := by
  by_cases mine : a.session = some i
  · obtain ⟨healthy, only⟩ := serves mine
    obtain ⟨m, -, later⟩ := awaits.own completed valid mine healthy only stepped
    exact ⟨m, later⟩
  · have move := step_move stepped
    have grown := move.extends' awaits.inv
    refine ⟨n, move.inv awaits.inv, move.guarded awaits.inv awaits.guarded,
      grown.keyRow awaits.stored, ?_⟩
    rw [move.sessions_other mine]
    exact awaits.late.mono grown

/-- Left to itself, the call returns the answer. -/
theorem finishes (awaits : w.Awaits i cmd row n) (completed : row.state = .completed)
    (valid : validate cmd = .ok amount) (executor : Executor) :
    ∃ own w', own.length = n ∧ (∀ a ∈ own, a.session = some i ∧ a.Serves i executor cmd) ∧
      Txn.runs World.step w own = some w' ∧ w'.sessions i = .returned cmd (row.answer cmd) := by
  induction n generalizing w with
  | zero =>
    refine ⟨[], w, rfl, nofun, rfl, ?_⟩
    have late := awaits.late
    generalize w.sessions i = s at late
    cases late
    rfl
  | succ n ih =>
    obtain ⟨a, w₁, mine, healthy, only, stepped⟩ :=
      awaits.late.enabled awaits.guarded awaits.stored completed executor
    obtain ⟨m, same, later⟩ := awaits.own completed valid mine healthy only stepped
    cases same
    obtain ⟨own, w', length, serve, ran, returned⟩ := ih later
    refine ⟨a :: own, w', by simp [length], ?_, Txn.runs_cons_iff.mpr ⟨w₁, stepped, ran⟩, returned⟩
    intro b mem
    rcases List.mem_cons.mp mem with rfl | mem
    · exact ⟨mine, fun _ => ⟨healthy, only⟩⟩
    · exact serve b mem

end World.Awaits

/-! ### Exactly once -/

/-- The posting `p` is all there is to a key: what has been committed on its
behalf, what its callers were told and what any later caller will be told. -/
structure World.Settled (w : World) (key : IdempotencyKey) (p : Posting) : Prop where
  writes : w.writesFor key = p.writes
  stored : w.db.keyRow key = some p.keyRow
  succeeded : ∀ i cmd r, w.sessions i = .returned cmd (.ok r) → cmd.key = key →
    r.transferID = p.id ∧ r.response = ⟨201, some ⟨p.id⟩⟩
  author : ∀ i j cmd cmd' r r', w.sessions i = .returned cmd (.ok r) →
    w.sessions j = .returned cmd' (.ok r') → cmd.key = key → cmd'.key = key →
    r.replayed = false → r'.replayed = false → i = j
  /-- No later call commits anything on behalf of the key, faulty or not. -/
  kept : ∀ more w', Txn.runs World.step w more = some w' →
    w'.writesFor key = p.writes ∧ w'.db.keyRow key = some p.keyRow
  /-- A later call that meets no fault can only return the stored answer, and does
  so by its own acts whatever the others are doing. -/
  answered : ∀ i executor cmd amount, w.sessions i = .idle → cmd.key = key →
    validate cmd = .ok amount → ∀ more w', Txn.runs World.step w more = some w' →
    (∀ a ∈ more, a.Serves i executor cmd) →
    (∀ cmd' reply, w'.sessions i = .returned cmd' reply → cmd' = cmd ∧
      reply = p.keyRow.answer cmd) ∧
    ∃ own w'', (∀ a ∈ own, a.session = some i ∧ a.Serves i executor cmd) ∧
      Txn.runs World.step w' own = some w'' ∧ w''.sessions i = .returned cmd (p.keyRow.answer cmd)

namespace World

variable {w w' : World} {acts : List Act} {ps : List Posting}

theorem runs_guarded (inv : w.Inv) (guarded : w.Guarded) (ran : Txn.runs step w acts = some w') :
    w'.Inv ∧ w'.Guarded :=
  Txn.runs_invariant (fun w : World => w.Inv ∧ w.Guarded)
    (fun known stepped => ⟨(step_move stepped).inv known.1,
      (step_move stepped).guarded known.1 known.2⟩)
    ⟨inv, guarded⟩ ran

/-- Postings are only added. -/
theorem runs_keyInv (inv : w.Inv) (keyInv : KeyInv w ps) (ran : Txn.runs step w acts = some w') :
    ∃ more, KeyInv w' (ps ++ more) := by
  refine (Txn.runs_invariant (fun w : World => w.Inv ∧ ∃ more, KeyInv w (ps ++ more)) ?_
    ⟨inv, [], ?_⟩ ran).2
  · rintro w w' a ⟨inv, more, keyInv⟩ stepped
    have move := step_move stepped
    obtain ⟨added, keyInv⟩ := move.keyInv inv keyInv
    exact ⟨move.inv inv, more ++ added, by rwa [← List.append_assoc]⟩
  · rwa [List.append_nil]

/-- In every run the session stays on its way. -/
theorem runs_awaits {i : Nat} {executor : Executor} {cmd : TransferCommand} {amount : Money}
    {row : KeyRow} {n : Nat} (awaits : w.Awaits i cmd row n) (completed : row.state = .completed)
    (valid : validate cmd = .ok amount) (serve : ∀ a ∈ acts, a.Serves i executor cmd)
    (ran : Txn.runs step w acts = some w') : ∃ m, w'.Awaits i cmd row m :=
  Txn.runs_admissible (Act.Serves i executor cmd) (fun w : World => ∃ m, w.Awaits i cmd row m)
    (fun serves ⟨_, awaits⟩ stepped => awaits.step completed valid serves stepped) serve
    ⟨n, awaits⟩ ran

/-- A posting of the journal settles its key. -/
theorem settled (inv : w.Inv) (guarded : w.Guarded) (keyInv : KeyInv w ps) {p : Posting}
    (mem : p ∈ ps) : w.Settled p.key p := by
  obtain ⟨writes, author, executed⟩ := keyInv.posted p mem
  have stored := keyInv.journal.keyRow_of_mem mem
  refine ⟨writes, stored, ?_, ?_, ?_, ?_⟩
  · intro i cmd r was same
    obtain ⟨q, posted, key, id, response, -⟩ := keyInv.succeeded was
    obtain rfl := List.inj_on_of_nodup_map keyInv.journal.distinctKeys posted mem (key.trans same)
    exact ⟨id, response⟩
  · intro i j cmd cmd' r r' was was' same same' fresh fresh'
    obtain ⟨-, -, -, -, -, mine⟩ := keyInv.succeeded was
    obtain ⟨-, -, -, -, -, mine'⟩ := keyInv.succeeded was'
    have first := mine fresh
    have second := mine' fresh'
    rw [same, executed, List.mem_singleton] at first
    rw [same', executed, List.mem_singleton] at second
    exact first.trans second.symm
  · intro more w' ran
    obtain ⟨added, later⟩ := runs_keyInv inv keyInv ran
    have still : p ∈ ps ++ added := List.mem_append_left _ mem
    exact ⟨(later.posted p still).1, later.journal.keyRow_of_mem still⟩
  · intro i executor cmd amount idle same valid more w' ran serve
    have awaits : w.Awaits i cmd p.keyRow 5 := by
      refine ⟨inv, guarded, ?_, ?_⟩
      · rw [same]
        exact stored
      · rw [idle]
        exact .idle
    obtain ⟨n, later⟩ := runs_awaits awaits rfl valid serve ran
    obtain ⟨own, w'', -, served, finished, returned⟩ := later.finishes rfl valid executor
    refine ⟨?_, own, w'', served, finished, returned⟩
    intro cmd' reply was
    have late := later.late
    rw [was] at late
    cases late
    exact ⟨rfl, rfl⟩

end World

/-- Exactly once per key, for calls through either executor in any interleaving
and with any faults: nothing has been committed on behalf of the key and nobody
has been told of a success, or one posting settles it. -/
theorem exactly_once {w : World} {acts : List Act}
    (ran : Txn.runs World.step (.init .empty) acts = some w) (key : IdempotencyKey) :
    (w.writesFor key = [] ∧ w.db.keyRow key = none ∧
      ∀ i cmd r, w.sessions i = .returned cmd (.ok r) → cmd.key ≠ key) ∨
    ∃ p : Posting, p.key = key ∧ w.Settled key p := by
  obtain ⟨inv, guarded⟩ := World.runs_guarded (World.Inv.init .empty) (by rintro i key mode ⟨⟩) ran
  obtain ⟨ps, keyInv⟩ := World.runs_keyInv (World.Inv.init .empty) KeyInv.init ran
  by_cases executed : key ∈ ps.map (·.key)
  · obtain ⟨p, mem, rfl⟩ := List.mem_map.mp executed
    exact .inr ⟨p, rfl, World.settled inv guarded keyInv mem⟩
  · refine .inl ⟨(keyInv.untouched key executed).1, keyInv.journal.key_free.mpr executed, ?_⟩
    rintro i cmd r was rfl
    obtain ⟨p, mem, same, -⟩ := keyInv.succeeded was
    exact executed (same ▸ List.mem_map_of_mem mem)

namespace LostReply

open Scenario

/-- A deposit whose commit is applied but not acknowledged, and the client's
retry, which another instance serves with the other executor. -/
def acts : List Act :=
  opened ++ (Act.execution 0 .locking payIn (.ofByte 3) 0).dropLast ++
    [.commit 0 (.lost (.other "reset"))] ++
    [.start 1 (.serializable 10) payIn, .begin 1 none, .perform 1 default, .perform 1 default,
      .commit 1 .acknowledged]

def success : Session → Option TransferResult
  | .returned _ (.ok result) => some result
  | _ => none

end LostReply

open Scenario LostReply in
/-- The first call is booked and its reply is lost; the second is told of the same transfer. -/
theorem exactly_once_lost_reply :
    ∃ w, Txn.runs World.step (.init .empty) acts = some w ∧
      success (w.sessions 1) = some ⟨.ofByte 3, ⟨201, some ⟨.ofByte 3⟩⟩, true⟩ ∧
      ∃ p : Posting, p.key = payIn.key ∧ w.Settled payIn.key p := by
  have replayed : ((Txn.runs World.step (.init .empty) acts).map fun w =>
      ((w.writesFor payIn.key).length, success (w.sessions 1))) =
        some (6, some ⟨.ofByte 3, ⟨201, some ⟨.ofByte 3⟩⟩, true⟩) := by
    decide +kernel
  obtain ⟨w, ran, observed⟩ := Option.map_eq_some_iff.mp replayed
  obtain ⟨written, told⟩ := Prod.mk.inj observed
  refine ⟨w, ran, told, ?_⟩
  rcases exactly_once ran payIn.key with ⟨untouched, -⟩ | settled
  · rw [untouched] at written
    cases written
  · exact settled

end WalletGo
