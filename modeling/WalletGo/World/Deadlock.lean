import WalletGo.Txn.Waiting
import WalletGo.World.Invariant

/-!
The locking strategy does not deadlock.

Resources are ranked: keys, then accounts in the byte order of their ids, then
transfer and event ids. At every phase of the locking closure, the operation to
come asks only for what the transaction has locked exclusively already or for
something above all it holds (`Phase.ascending`); `lockOrder` is what makes this
true of the two accounts. The rest is the general argument of `Txn.Waiting`.
-/

namespace WalletGo

open Txn (Prog)

/-- Where a resource stands in the order in which locks are taken. -/
def Resource.rank : Resource → Nat
  | .key _ => 0
  | .account id => 1 + id.rank
  | .transfer _ => 1 + 256 ^ 16
  | .event _ => 2 + 256 ^ 16

/-- Ranks are bounded, so that a chain of waits is finite. -/
theorem Resource.rank_lt (r : Resource) : r.rank < 3 + 256 ^ 16 := by
  cases r with
  | account id =>
    have := id.rank_lt
    simp only [rank]
    omega
  | _ => simp only [rank]; omega

namespace Phase

variable {cmd : TransferCommand} {amount : Money}

theorem account_mem_accountLocks {id : UUID} (own : id = cmd.fromAccountID ∨ id = cmd.toAccountID) :
    (.account id, .exclusive) ∈ accountLocks .locking cmd := by
  rcases readOrder_cases .locking cmd with order | order <;>
    rcases own with rfl | rfl <;> simp [accountLocks, order, Op.locks, Strategy.forUpdate]

theorem rank_accountLocks {l : Lock} (mem : l ∈ accountLocks .locking cmd) :
    l.1.rank < 1 + 256 ^ 16 := by
  simp only [accountLocks, Op.locks, Strategy.forUpdate, List.mem_append, List.mem_singleton] at mem
  rcases mem with (rfl | rfl) | rfl
  · simp only [Resource.rank]
    omega
  · have := (readOrder .locking cmd).1.rank_lt
    simp only [Resource.rank]
    omega
  · have := (readOrder .locking cmd).2.rank_lt
    simp only [Resource.rank]
    omega

theorem rank_entryLocks {id : UUID} {l : Lock} (mem : l ∈ entryLocks .locking cmd amount id) :
    l.1.rank < 2 + 256 ^ 16 := by
  have source := cmd.fromAccountID.rank_lt
  have target := cmd.toAccountID.rank_lt
  simp only [entryLocks, transferLocks, Op.locks, List.mem_append, List.mem_cons, List.not_mem_nil,
    or_false] at mem
  rcases mem with ((mem | rfl | rfl | rfl) | rfl | rfl) | rfl | rfl
  · exact Nat.lt_trans (rank_accountLocks mem) (by omega)
  all_goals
    simp only [Resource.rank]
    omega

/-- An operation of the locking closure asks for locks in ascending order. -/
theorem ascending {phase : Phase amount} {o : Op}
    (distinct : cmd.fromAccountID ≠ cmd.toAccountID) (here : phase.op .locking cmd = some o)
    {lock : Lock} (asked : lock ∈ o.locks) :
    (lock.1, .exclusive) ∈ phase.held .locking cmd ∨
      ∀ l ∈ phase.held .locking cmd, l.1.rank < lock.1.rank := by
  have order := lockOrder_ascending distinct
  cases phase with
  | claim => cases here; exact .inr nofun
  | readFirst id =>
    cases here
    obtain rfl := List.mem_singleton.mp asked
    right
    simp [held, Op.locks, Resource.rank]
  | readSecond id k₁ =>
    cases here
    obtain rfl := List.mem_singleton.mp asked
    right
    cases k₁ with
    | none => simp [held, readLocks, Op.acquires, Op.locks, Resource.rank]
    | some kind =>
      simp [held, readLocks, Op.acquires, Op.locks, Resource.rank, Strategy.forUpdate]
      exact order
  | insertTransfer k =>
    cases here
    simp only [Op.locks, List.mem_cons, List.not_mem_nil, or_false] at asked
    rcases asked with rfl | rfl | rfl
    · exact .inr fun l mem => rank_accountLocks mem
    · exact .inl (account_mem_accountLocks (.inl rfl))
    · exact .inl (account_mem_accountLocks (.inr rfl))
  | insertDebit k =>
    cases here
    simp only [Op.locks, List.mem_cons, List.not_mem_nil, or_false] at asked
    rcases asked with rfl | rfl
    · exact .inl (transfer_mem_transferLocks k.id)
    · exact .inl (List.mem_append_left _ (account_mem_accountLocks (.inl rfl)))
  | insertCredit k =>
    cases here
    simp only [Op.locks, List.mem_cons, List.not_mem_nil, or_false] at asked
    rcases asked with rfl | rfl
    · exact .inl (List.mem_append_left _ (transfer_mem_transferLocks k.id))
    · exact .inl (List.mem_append_left _
        (List.mem_append_left _ (account_mem_accountLocks (.inr rfl))))
  | insertEvent k eventID =>
    cases here
    obtain rfl := List.mem_singleton.mp asked
    exact .inr fun l mem => rank_entryLocks mem
  | completeKey k eventID =>
    cases here
    have locked : transferLocks .locking cmd amount k.id ⊆ entryLocks .locking cmd amount k.id :=
      transferLocks_subset_entryLocks amount k.id
    simp only [Op.locks, List.mem_cons, List.not_mem_nil, or_false] at asked
    rcases asked with rfl | rfl
    · exact .inl (List.mem_append_left _ (locked (List.mem_append_left _ key_mem_accountLocks)))
    · exact .inl (List.mem_append_left _ (locked (transfer_mem_transferLocks k.id)))
  | _ => cases here <;> cases asked

end Phase

namespace World

/-- Session `i` waits for `j`: its next operation needs a lock that conflicts with
one `j` holds. -/
def Waits (w : World) (i j : Nat) : Prop :=
  ∃ call attempt tx o next, w.sessions i = .running call attempt tx ∧ tx.prog = .op o next ∧ i ≠ j ∧
    ∃ lock ∈ o.locks, ∃ lock' ∈ w.heldBy j, lock.1 = lock'.1 ∧ lock.2.conflicts lock'.2 = true

def Holds (w : World) (i : Nat) (r : Resource) : Prop := ∃ mode, (r, mode) ∈ w.heldBy i

/-- A session's next operation needs a resource it does not have to itself. -/
def Asks (w : World) (i : Nat) (r : Resource) : Prop :=
  ∃ call attempt tx o next mode, w.sessions i = .running call attempt tx ∧ tx.prog = .op o next ∧
    (r, mode) ∈ o.locks ∧ (r, .exclusive) ∉ w.heldBy i

variable {w : World} {i j : Nat}

/-- Who waits asks for what the other holds. -/
theorem Waits.waitsFor (inv : w.Inv) (waits : w.Waits i j) : Txn.WaitsFor w.Holds w.Asks i j := by
  obtain ⟨call, attempt, tx, o, next, was, prog, other, ⟨r, mode⟩, asked, ⟨r', mode'⟩, theirs, same,
    conflict⟩ := waits
  obtain rfl : r = r' := same
  refine ⟨r, ⟨call, attempt, tx, o, next, mode, was, prog, asked, fun mine => ?_⟩, mode', theirs⟩
  have free := inv.compatible i j _ _ other mine theirs rfl
  cases mode' <;> cases free

/-- Under the locking strategy a session asks for nothing below what it holds. -/
theorem ascending (inv : w.Inv) (locking : w.Uses (· = .locking)) :
    Txn.Ascending w.Holds w.Asks Resource.rank := by
  rintro i r h ⟨call, attempt, tx, o, next, mode, was, prog, asked, notMine⟩ ⟨mode', holds⟩
  obtain ⟨phase, txInv⟩ := inv.running was
  have follows := txInv.follows
  have held := txInv.held
  have strategy : call.strategy = .locking := by
    simp [Call.strategy, locking i call (by rw [was]; rfl), Executor.strategy]
  rw [prog, strategy] at follows
  rw [strategy] at held
  rcases held with ⟨err, rfl⟩ | held
  · cases follows.1
  rw [held] at holds notMine
  rcases Phase.ascending (validate_ok call.valid).2.2 follows.1 asked with mine | above
  · exact absurd mine notMine
  · exact above (h, mode') holds

/-- Who waits for nobody is not blocked. -/
theorem not_blocked {call : Call} {attempt : Nat} {tx : OpenTx} {o : Op}
    {next : o.Reply → Prog sql (Except GoError Unit × TransferResult)}
    (was : w.sessions i = .running call attempt tx) (prog : tx.prog = .op o next)
    (unblocked : ∀ j, ¬ w.Waits i j) : w.blocked i o = false := by
  simp only [blocked, List.any_eq_false, Bool.and_eq_true, bne_iff_ne, ne_eq, List.any_eq_true,
    beq_iff_eq, not_and, not_exists]
  rintro ⟨j, lock'⟩ mem other lock asked same conflict
  exact unblocked j ⟨call, attempt, tx, o, next, was, prog, Ne.symm other, lock, asked, lock',
    mem_heldBy.mpr mem, same, conflict⟩

/-- A transaction that waits for nobody can go on. -/
theorem proceeds {call : Call} {attempt : Nat} {tx : OpenTx}
    (was : w.sessions i = .running call attempt tx) (locking : call.strategy = .locking)
    (unblocked : ∀ j, ¬ w.Waits i j) :
    (∃ c : Choice, c.fault = none ∧ (w.step (.perform i c)).isSome) ∨
      (w.step (.commit i .acknowledged)).isSome ∨ (w.step (.rollback i)).isSome := by
  cases prog : tx.prog with
  | op o next =>
    have free := not_blocked was prog unblocked
    refine .inl ⟨⟨none, UUID.zero, w.sequence + 1, 0⟩, rfl, ?_⟩
    simp [step, was, perform, prog, free]
  | ret finish =>
    obtain ⟨reply, result⟩ := finish
    cases reply with
    | ok _ =>
      refine .inr (.inl ?_)
      simp [step, was, commit, prog, refused, locking]
    | error err =>
      refine .inr (.inr ?_)
      simp [step, was, prog]

end World

/-- In every state that calls through the locking executor reach, whatever their
keys and accounts and however their statements interleave: nobody waits, directly
or through others, for itself; and if a transaction is open, some open transaction
waits for nobody and can go on. -/
theorem locking_deadlock_free {db : Db} {acts : List Act} {w : World}
    (locking : ∀ a ∈ acts, a.Uses (· = .locking))
    (ran : Txn.runs World.step (.init db) acts = some w) :
    (∀ i, ¬ Relation.TransGen w.Waits i i) ∧
      ∀ i call attempt tx, w.sessions i = .running call attempt tx →
        ∃ j call' attempt' tx', w.sessions j = .running call' attempt' tx' ∧ (∀ k, ¬ w.Waits j k) ∧
          ((∃ c : Choice, c.fault = none ∧ (w.step (.perform j c)).isSome) ∨
            (w.step (.commit j .acknowledged)).isSome ∨ (w.step (.rollback j)).isSome) := by
  have inv := World.runs_inv ran
  have uses := World.runs_uses locking ran
  have ascending := World.ascending inv uses
  refine ⟨fun i cycle => ?_, fun i call attempt tx was => ?_⟩
  · exact Txn.WaitsFor.acyclic ascending i
      (Relation.TransGen.mono (fun _ _ waits => waits.waitsFor inv) _ _ cycle)
  · have holderLive :
        ∀ j r, w.Holds j r → ∃ call attempt tx, w.sessions j = .running call attempt tx := by
      rintro j r ⟨mode, mem⟩
      by_contra calm
      push Not at calm
      rw [inv.outside calm] at mem
      cases mem
    obtain ⟨j, ⟨call', attempt', tx', was'⟩, unblocked⟩ :=
      Txn.exists_not_waiting ascending Resource.rank_lt holderLive ⟨call, attempt, tx, was⟩
    have free : ∀ k, ¬ w.Waits j k := fun k waits => unblocked ⟨k, waits.waitsFor inv⟩
    have strategy : call'.strategy = .locking := by
      simp [Call.strategy, uses j call' (by rw [was']; rfl), Executor.strategy]
    exact ⟨j, call', attempt', tx', was', free, World.proceeds was' strategy free⟩

namespace Crossing

open Scenario

def choice (id : UInt8) : Choice := ⟨none, .ofByte id, 0, 0⟩

/-- Two transfers between the same accounts in opposite directions, up to the point
where the first has locked one account and the second asks for it. -/
def acts : List Act :=
  opened ++
  [.start 0 .locking (command "first" alice bob), .start 1 .locking (command "second" bob alice),
    .begin 0 none, .begin 1 none, .perform 0 (choice 3), .perform 1 (choice 4),
    .perform 0 (choice 5), .perform 1 (choice 6), .perform 0 (choice 7)]

end Crossing

open Scenario Crossing in
/-- Two transfers in opposite directions: one waits, and not in a circle. -/
theorem locking_deadlock_free_opposite :
    ∃ w, Txn.runs World.step (.init .empty) acts = some w ∧
      (w.step (.perform 1 (choice 8))).isNone ∧ ∀ i, ¬ Relation.TransGen w.Waits i i := by
  have blocked : ((Txn.runs World.step (.init .empty) acts).map fun w =>
      (w.step (.perform 1 (choice 8))).isNone) = some true := by decide +kernel
  obtain ⟨w, ran, isNone⟩ := Option.map_eq_some_iff.mp blocked
  exact ⟨w, ran, isNone, (locking_deadlock_free (by simp [acts, opened, Act.Uses]) ran).1⟩

end WalletGo
