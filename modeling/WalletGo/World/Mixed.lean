import WalletGo.World.Keys

/-!
Both strategies on one database.

A call through the locking executor is safe whoever else is about: the exclusive
lock on the source row keeps every debit of the account out from the read of its
balance to the commit. A call through the serializable executor relies on its
snapshot, and the conflict check of SERIALIZABLE only knows the other serializable
transactions. A locking call that debits the account between the snapshot and the
commit goes unnoticed (`mixed_overdraft`); without such a debit no customer is ever
overdrawn (`solvent_of_not_overtaken`).
-/

namespace WalletGo

open Txn (Prog)

def Committed.Debits (id : UUID) : Committed → Prop
  | .call _ c tx _ => tx.writes ≠ [] ∧ c.cmd.fromAccountID = id
  | .account _ => False

def Committed.Locking : Committed → Prop
  | .call _ c _ _ => c.strategy = .locking
  | .account _ => False

instance (id : UUID) (e : Committed) : Decidable (e.Debits id) := by
  cases e <;> unfold Committed.Debits <;> infer_instance

instance (e : Committed) : Decidable e.Locking := by
  cases e <;> unfold Committed.Locking <;> infer_instance

/-- A commit of a serializable transaction comes before any locking call has
committed a debit of its source, a customer, since its snapshot. -/
def World.NotOvertaken (w : World) : Act → Prop
  | .commit i _ =>
    match w.sessions i with
    | .running call _ tx =>
      match tx.snapshot with
      | some (_, n) => w.db.kindOf call.cmd.fromAccountID = some .customer →
          ∀ e ∈ w.log.drop n, e.Locking → ¬ e.Debits call.cmd.fromAccountID
      | none => True
    | _ => True
  | _ => True

instance (w : World) (a : Act) : Decidable (w.NotOvertaken a) := by
  unfold World.NotOvertaken
  split
  · split
    · split <;> infer_instance
    · infer_instance
  · infer_instance

namespace Overtaken

open Scenario

/-- Alice has 100. A serializable transfer of 100 has read her balance when a
locking transfer of 100 begins, executes and commits; then the first goes on. -/
def acts : List Act :=
  opened ++ Act.execution 0 .locking payIn (.ofByte 4) 0 ++
  [.start 1 (newTransferExecutor .serializable) (command "first" alice bob), .begin 1 none] ++
  performs 1 5 20 5 ++
  Act.execution 2 (newTransferExecutor .locking) (command "second" alice bob) (.ofByte 6) 40 ++
  performs 1 5 60 9 ++ [.commit 1 .acknowledged]

end Overtaken

namespace Phase

variable {x : Strategy} {cmd : TransferCommand} {amount : Money}

def HasRead : Phase amount → Prop
  | .claim | .load | .newTransferID | .readFirst _ | .readSecond .. | .readBalance .. | .replayed _
  | .failed _ => False
  | _ => True

theorem Failed.not_hasRead {phase : Phase amount} (failed : phase.Failed) : ¬ phase.HasRead := by
  obtain ⟨err, rfl⟩ := failed
  exact id

/-- The balance of the source is read once, by the sum over its entries. -/
theorem hasRead_step {phase : Phase amount} {o : Op} (here : phase.op x cmd = some o)
    {reply : o.Reply} (now : (phase.next x cmd o reply).HasRead) :
    phase.HasRead ∨ o = .sumEntries cmd.fromAccountID := by
  cases phase with
  | readBalance id k₁ k₂ => cases here; exact .inr rfl
  | claim =>
    cases here
    rcases reply with err | rows
    · exact now.elim
    · simp only [next] at now
      split at now
      · exact now.elim
      · exact now.elim
  | load =>
    cases here
    rcases reply with err | _ | row
    · exact now.elim
    · exact now.elim
    · simp only [next, afterLoad] at now
      split at now
      · exact now.elim
      · split at now
        · exact now.elim
        · exact now.elim
  | newTransferID => cases here; exact now.elim
  | readFirst id =>
    cases here
    rcases reply with err | k₁
    · have failed :
          (afterRead x cmd id ⟨.error err, .error err, .error err⟩ : Phase amount).Failed :=
        afterRead_failed (by simp)
      exact absurd now failed.not_hasRead
    · exact now.elim
  | readSecond id k₁ =>
    cases here
    rcases reply with err | k₂
    · have failed : (afterRead x cmd id ⟨.ok k₁, .error err, .error err⟩ : Phase amount).Failed :=
        afterRead_failed (by simp)
      exact absurd now failed.not_hasRead
    · exact now.elim
  | executed k eventID => cases here
  | replayed row => cases here
  | failed err => cases here
  | _ => exact .inl trivial

end Phase

/-! ### What has happened since a snapshot -/

theorem Posting.effect_nonneg {p : Posting} {id : UUID} (other : p.source ≠ id) :
    0 ≤ p.effect id := by
  have positive := p.positive
  rw [Posting.effect, if_neg (Ne.symm other)]
  split
  · omega
  · exact Int.le_refl 0

namespace World

variable {w w' : World} {a : Act}

/-- A step commits nothing, or one entry of the log; and who is not debited by it
has no less afterwards. -/
theorem Move.sum_le (move : w.Move a w') (inv : w.Inv) (id : UUID) :
    (w'.log = w.log ∧ w'.db = w.db) ∨
      ∃ e, w'.log = w.log ++ [e] ∧ (¬ e.Debits id → w.db.sum id ≤ w'.db.sum id) := by
  cases move with
  | commits i outcome call attempt tx result s was prog allowed now =>
    obtain ⟨phase, txInv⟩ := inv.running was
    refine .inr ⟨_, rfl, fun harmless => ?_⟩
    change w.db.sum id ≤ (w.db.after tx.writes).sum id
    cases txInv.commits prog with
    | replayed row stored same completed writes =>
      rw [writes]
      exact Int.le_refl _
    | posted p carries writes accepts locked =>
      have other : p.source ≠ id := by
        intro same
        refine harmless ⟨?_, carries.source ▸ same⟩
        rw [writes]
        simp [Posting.writes]
      have grows := Posting.effect_nonneg other
      rw [writes, Db.after_writes accepts.free, Db.sum_post]
      omega
  | opens b valid => exact .inr ⟨_, rfl, fun _ => Int.le_refl _⟩
  | _ => exact .inl ⟨rfl, rfl⟩

/-- A snapshot taken at the `n`-th commit: who has not been debited since has no
less now. -/
def Since (w : World) (snapshot : Db) (n : Nat) : Prop :=
  n ≤ w.log.length ∧ ∀ id, (∀ e ∈ w.log.drop n, ¬ e.Debits id) → snapshot.sum id ≤ w.db.sum id

theorem Since.now (w : World) : w.Since w.db w.log.length :=
  ⟨Nat.le_refl _, fun _ _ => Int.le_refl _⟩

/-- Every act keeps what a snapshot can rely on. -/
theorem Since.step {snapshot : Db} {n : Nat} (since : w.Since snapshot n) (move : w.Move a w')
    (inv : w.Inv) : w'.Since snapshot n := by
  refine ⟨Nat.le_trans since.1 move.log_prefix.length_le, fun id harmless => ?_⟩
  rcases move.sum_le inv id with ⟨log, db⟩ | ⟨e, log, grows⟩
  · rw [log] at harmless
    rw [db]
    exact since.2 id harmless
  · rw [log, List.drop_append_of_le_length since.1] at harmless
    refine Int.le_trans (since.2 id fun e mem => harmless e (List.mem_append_left _ mem)) (grows ?_)
    exact harmless e (List.mem_append_right _ (List.mem_singleton_self e))

end World

/-- What the conflict check of SERIALIZABLE can rely on: an open transaction has
recorded the balance it read, and no snapshot is ahead of the rows. -/
structure Recorded (w : World) (i : Nat) (call : Call) (tx : OpenTx) (phase : Phase call.amount) :
    Prop where
  inv : TxInv w i call tx phase
  read : phase.HasRead → call.cmd.fromAccountID ∈ tx.reads
  since : ∀ snapshot n, tx.snapshot = some (snapshot, n) → w.Since snapshot n

namespace Recorded

variable {w w' : World} {i : Nat} {call : Call} {tx : OpenTx} {phase : Phase call.amount} {a : Act}

theorem begun (result : TransferResult) (none : w.heldBy i = []) :
    Recorded w i call (.begun call result) .claim where
  inv := World.begun_inv result none
  read impossible := impossible.elim
  since _ _ impossible := nomatch impossible

/-- The acts of others leave a transaction's record as it is. -/
theorem stable (recorded : Recorded w i call tx phase) (move : w.Move a w') (inv : w.Inv)
    (other : a.session ≠ some i) : Recorded w' i call tx phase where
  inv := by
    obtain ⟨kept, agrees⟩ := move.undisturbed inv other
    exact recorded.inv.stable kept (move.extends' inv) agrees
  read := recorded.read
  since snapshot n pinned := (recorded.since snapshot n pinned).step move inv

/-- Each operation records what it reads. -/
theorem performed (recorded : Recorded w i call tx phase) (attempt : Nat) {o : Op}
    {next : o.Reply → Prog sql (Except GoError Unit × TransferResult)} (prog : tx.prog = .op o next)
    (c : Choice) :
    Recorded (w.performed i call attempt tx o next c) i call
      (tx.advance call.strategy w.db w.log.length o next c)
      (phase.next call.strategy call.cmd o (tx.answer call.strategy w.db c o).1) where
  inv := recorded.inv.performed attempt prog c
  read now := by
    have follows := recorded.inv.follows
    rw [prog] at follows
    rcases Phase.hasRead_step follows.1 now with before | rfl
    · exact List.mem_append_left _ (recorded.read before)
    · exact List.mem_append_right _ (List.mem_singleton_self _)
  since snapshot n pinned := by
    cases taken : tx.snapshot with
    | some earlier =>
      refine recorded.since snapshot n ?_
      simp only [OpenTx.advance, OpenTx.pinned, taken, Option.getD_some] at pinned
      split at pinned
      · cases pinned
      · rw [taken, pinned]
    | none =>
      simp only [OpenTx.advance, OpenTx.pinned, taken, Option.getD_none] at pinned
      split at pinned
      · cases pinned
      · cases pinned
        exact World.Since.now w

end Recorded

theorem Posting.touched {p : Posting} {tx : OpenTx} (writes : tx.writes = p.writes) :
    p.source ∈ tx.touched := by
  simp [OpenTx.touched, writes, Posting.writes, Posting.debit]

/-- No customer is overdrawn, and every transaction has left the conflict check
what it needs. -/
structure World.Watched (w : World) : Prop where
  inv : w.Inv
  journal : ∃ ps, Journal w.db ps
  solvent : w.db.Solvent
  running : ∀ {i call attempt tx}, w.sessions i = .running call attempt tx →
    ∃ phase, Recorded w i call tx phase
  logged : ∀ i call tx r, .call i call tx r ∈ w.log → tx.writes ≠ [] →
    call.cmd.fromAccountID ∈ tx.reads ∧ call.cmd.fromAccountID ∈ tx.touched

namespace World

variable {w w' : World} {a : Act}

theorem Watched.init : (World.init .empty).Watched where
  inv := .init _
  journal := ⟨[], .empty⟩
  solvent _ mem := nomatch mem
  running was := nomatch was
  logged _ _ _ _ mem := nomatch mem

/-- A transaction that has executed has read its source's balance and written an
entry for it. -/
theorem Watched.reads (watched : w.Watched) {i : Nat} {call : Call} {attempt : Nat} {tx : OpenTx}
    {result : TransferResult} (was : w.sessions i = .running call attempt tx)
    (prog : tx.prog = .ret (.ok (), result)) (executed : tx.writes ≠ []) :
    call.cmd.fromAccountID ∈ tx.reads ∧ call.cmd.fromAccountID ∈ tx.touched := by
  obtain ⟨phase, recorded⟩ := watched.running was
  have ended := recorded.inv.follows
  rw [prog] at ended
  have facts := recorded.inv.facts
  have commits := recorded.inv.commits prog
  rcases Phase.outcome_ok ended with ⟨k, eventID, rfl, -⟩ | ⟨row, rfl, -⟩
  · refine ⟨recorded.read trivial, ?_⟩
    cases commits with
    | replayed row stored same completed writes => exact absurd writes executed
    | posted p carries writes accepts locked => exact carries.source ▸ Posting.touched writes
  · obtain ⟨⟨st, empty⟩, -⟩ := facts
    exact absurd empty executed

/-- The conflict check refuses a transaction whose source another serializable
transaction has debited since its snapshot. -/
theorem Watched.not_debited (watched : w.Watched) {call : Call} {tx : OpenTx}
    {snapshot : Db} {n : Nat} (serializable : call.strategy = .serializable)
    (pinned : tx.snapshot = some (snapshot, n)) (allowed : w.refused call tx = false)
    (read : call.cmd.fromAccountID ∈ tx.reads) (touched : call.cmd.fromAccountID ∈ tx.touched)
    {e : Committed} (mem : e ∈ w.log.drop n) (other : ¬ e.Locking) :
    ¬ e.Debits call.cmd.fromAccountID := by
  cases e with
  | account a => exact id
  | call j c tx' r =>
    rintro ⟨executed, same⟩
    obtain ⟨read', touched'⟩ := watched.logged j c tx' r (List.mem_of_mem_drop mem) executed
    rw [same] at read' touched'
    have concurrent : c.strategy = .serializable := by
      cases strategy : c.strategy with
      | locking => exact absurd strategy other
      | serializable => rfl
    have listed : tx' ∈ serializableSince w.log n :=
      List.mem_filterMap.mpr ⟨_, mem, if_pos concurrent⟩
    have cycle : tx.cycle tx' = true := by
      simp only [OpenTx.cycle, Bool.and_eq_true, List.any_eq_true, List.contains_iff_mem]
      exact ⟨⟨_, read, touched'⟩, _, read', touched⟩
    have refused : w.refused call tx = true := by
      simp only [refused, serializable, OpenTx.pinned, pinned, Option.getD_some, Option.elim_some,
        beq_self_eq_true, Bool.true_and, List.any_eq_true]
      exact ⟨tx', listed, cycle⟩
    rw [allowed] at refused
    cases refused

/-- The source of a transaction that may commit holds the amount. -/
theorem Watched.enough (watched : w.Watched) {i : Nat} {outcome : CommitOutcome} {call : Call}
    {attempt : Nat} {tx : OpenTx} {result : TransferResult}
    (was : w.sessions i = .running call attempt tx) (prog : tx.prog = .ret (.ok (), result))
    (allowed : w.refused call tx = false) (notOvertaken : w.NotOvertaken (.commit i outcome))
    {p : Posting} (carries : p.Carries call.cmd) (writes : tx.writes = p.writes)
    (accepts : (tx.base call.strategy w.db).Accepts w.db p)
    (customer : w.db.kindOf p.source = some .customer) : p.amount.toInt ≤ w.db.sum p.source := by
  obtain ⟨phase, recorded⟩ := watched.running was
  have executed : tx.writes ≠ [] := by
    rw [writes]
    simp [Posting.writes]
  obtain ⟨kind, balance, known, -, -⟩ := accepts.funded
  have same := recorded.inv.older.kindOf known
  rw [customer] at same
  cases same
  have enough := accepts.customer known
  cases strategy : call.strategy with
  | locking => rwa [strategy, OpenTx.base_locking] at enough
  | serializable =>
    cases pinned : tx.snapshot with
    | none => rwa [OpenTx.base_unpinned pinned] at enough
    | some taken =>
      obtain ⟨snapshot, n⟩ := taken
      rw [strategy, OpenTx.base_pinned pinned] at enough
      obtain ⟨read, touched⟩ := watched.reads was prog executed
      refine Int.le_trans enough ((recorded.since snapshot n pinned).2 p.source fun e mem => ?_)
      rw [carries.source] at customer ⊢
      by_cases locking : e.Locking
      · simp only [NotOvertaken, was, pinned] at notOvertaken
        exact notOvertaken customer e mem locking
      · exact watched.not_debited strategy pinned allowed read touched mem locking

/-- A commit that overtakes no snapshot overdraws nobody. -/
theorem Move.solvent (move : w.Move a w') (watched : w.Watched) (notOvertaken : w.NotOvertaken a) :
    w'.db.Solvent := by
  obtain ⟨ps, journal⟩ := watched.journal
  cases move with
  | commits i outcome call attempt tx result s was prog allowed now =>
    obtain ⟨phase, recorded⟩ := watched.running was
    change (w.db.after tx.writes).Solvent
    cases recorded.inv.commits prog with
    | replayed row stored same completed writes =>
      rw [writes]
      exact watched.solvent
    | posted p carries writes accepts locked =>
      have enough := watched.enough was prog allowed notOvertaken carries writes accepts
      rw [writes, Db.after_writes accepts.free]
      exact journal.solvent_post watched.solvent enough
  | opens b valid => exact journal.solvent_addAccount watched.solvent valid
  | _ => exact watched.solvent

/-- Who has committed a transfer had read its source. -/
theorem Move.logged_reads (move : w.Move a w') (watched : w.Watched) {i : Nat}
    {call : Call} {tx : OpenTx} {r : TransferResult} (mem : .call i call tx r ∈ w'.log)
    (executed : tx.writes ≠ []) :
    call.cmd.fromAccountID ∈ tx.reads ∧ call.cmd.fromAccountID ∈ tx.touched := by
  rcases move.logged mem with old | ⟨attempt, was, prog, -⟩
  · exact watched.logged i call tx r old executed
  · exact watched.reads was prog executed

/-- One act that overtakes no snapshot. -/
theorem Move.watched (move : w.Move a w') (notOvertaken : w.NotOvertaken a) (watched : w.Watched) :
    w'.Watched where
  inv := move.inv watched.inv
  journal := move.journal watched.inv watched.journal
  solvent := move.solvent watched notOvertaken
  running now := by
    refine move.running Recorded watched.inv watched.running (fun none => .begun _ none) ?_ ?_ now
    · rintro i c call attempt tx phase o next - was prog - rfl recorded
      exact recorded.performed attempt prog c
    · intro j call tx phase other recorded
      exact recorded.stable move watched.inv other
  logged _ _ _ _ mem executed := move.logged_reads watched mem executed

end World

namespace Overtaken

open Scenario

/-- Alice's transfer through the serializable executor begins after the deposit. -/
def inOrder : List Act :=
  acts.take 20 ++
    Act.execution 1 (newTransferExecutor .serializable) (command "first" alice bob) (.ofByte 5) 20

end Overtaken

end WalletGo
