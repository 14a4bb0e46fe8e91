import WalletGo.World.Stability

/-!
The invariant of concurrent runs.

Every open transaction is at a phase of the closure, holds the locks of that
phase and knows what the phase says; no two transactions hold conflicting locks
(`World.Inv`). `World.step_inv` shows that every act keeps it, whatever the
environment decides. `TxInv.commits` is what it says about a transaction that is
about to commit: it makes a posting that the database accepts and whose rows it
has locked, or it has replayed a stored response and writes nothing.
-/

namespace WalletGo

open Txn (Prog)

namespace World

def heldBy (w : World) (i : Nat) : List Lock :=
  w.locks.filterMap fun entry => if entry.1 = i then some entry.2 else none

variable {w w' : World} {i j : Nat}

theorem mem_heldBy {lock : Lock} : lock ∈ w.heldBy i ↔ (i, lock) ∈ w.locks := by
  simp only [heldBy, List.mem_filterMap, Option.ite_none_right_eq_some, Option.some.injEq]
  constructor
  · rintro ⟨⟨j, lock'⟩, mem, rfl, rfl⟩
    exact mem
  · intro mem
    exact ⟨(i, lock), mem, rfl, rfl⟩

@[simp] theorem heldBy_set (s : Session) : (w.set j s).heldBy i = w.heldBy i := rfl

theorem heldBy_release_self : (w.release i).heldBy i = [] := by
  simp only [heldBy, release, List.filterMap_eq_nil_iff]
  intro entry mem
  have other := (List.mem_filter.mp mem).2
  exact if_neg (by simpa using other)

theorem heldBy_release (other : j ≠ i) : (w.release i).heldBy j = w.heldBy j := by
  simp only [heldBy, release, List.filterMap_filter]
  congr 1
  funext entry
  by_cases own : entry.1 = j
  · simp [own, other]
  · simp [own]

theorem heldBy_append_self (locks : List Lock) :
    ({ w with locks := w.locks ++ locks.map fun lock => (i, lock) } : World).heldBy i =
      w.heldBy i ++ locks := by
  simp [heldBy, List.filterMap_append, List.filterMap_map]

theorem heldBy_append (other : j ≠ i) (locks : List Lock) :
    ({ w with locks := w.locks ++ locks.map fun lock => (i, lock) } : World).heldBy j =
      w.heldBy j := by
  simp [heldBy, List.filterMap_append, List.filterMap_map, other.symm]

end World

/-- What holds of the open transaction of session `i`, at a phase of its closure. -/
structure TxInv (w : World) (i : Nat) (call : Call) (tx : OpenTx) (phase : Phase call.amount) :
    Prop where
  follows : Phase.Follows call.strategy call.cmd tx.prog phase
  facts : phase.Facts call.strategy call.cmd (tx.base call.strategy w.db) w.db tx.writes
  held : phase.Failed ∨ w.heldBy i = phase.held call.strategy call.cmd
  older : (tx.base call.strategy w.db).Extends w.db
  unpinned : call.strategy = .serializable → tx.snapshot = none → phase = .claim ∧ tx.writes = []

/-- No two sessions hold conflicting locks. -/
def World.Compatible (w : World) : Prop :=
  ∀ i j l l', i ≠ j → l ∈ w.heldBy i → l' ∈ w.heldBy j → l.1 = l'.1 → l.2.conflicts l'.2 = false

structure World.Inv (w : World) : Prop where
  running : ∀ {i call attempt tx}, w.sessions i = .running call attempt tx →
    ∃ phase, TxInv w i call tx phase
  outside : ∀ {i}, (∀ call attempt tx, w.sessions i ≠ .running call attempt tx) → w.heldBy i = []
  compatible : w.Compatible

theorem World.Inv.init (db : Db) : (World.init db).Inv where
  running was := nomatch was
  outside _ := rfl
  compatible _ _ _ _ _ mem := nomatch mem

/-! ### Transactions under the changes of others -/

namespace OpenTx

/-- A transaction begins with the claim of its key. -/
theorem begun_follows (call : Call) (result : TransferResult) :
    Phase.Follows call.strategy call.cmd (begun call result).prog (.claim : Phase call.amount) :=
  transferProg_follows result

theorem base_locking (tx : OpenTx) (db : Db) : tx.base .locking db = db := rfl

theorem base_unpinned {tx : OpenTx} (unpinned : tx.snapshot = none) (x : Strategy) (db : Db) :
    tx.base x db = db := by
  unfold base
  split
  · next pinned => rw [unpinned] at pinned; cases pinned
  · rfl

theorem base_pinned {tx : OpenTx} {snapshot : Db} {n : Nat}
    (pinned : tx.snapshot = some (snapshot, n)) (db : Db) :
    tx.base .serializable db = snapshot := by
  simp [base, pinned]

/-- The rows a transaction reads after others have changed `db` to `db'`. -/
theorem sees (tx : OpenTx) (x : Strategy) (db db' : Db) :
    (x = .serializable ∧ tx.snapshot = none) ∨
      Phase.Sees x (tx.base x db) db db' (tx.base x db') := by
  cases x with
  | locking => exact .inr (.latest rfl rfl)
  | serializable =>
    cases pinned : tx.snapshot with
    | none => exact .inl ⟨rfl, rfl⟩
    | some taken =>
      obtain ⟨snapshot, n⟩ := taken
      rw [base_pinned pinned, base_pinned pinned]
      exact .inr .snapshot

/-- Fixing the snapshot does not change what is seen at that moment. -/
theorem base_advance (tx : OpenTx) (x : Strategy) (db : Db) (now : Nat) (o : Op)
    (next : o.Reply → Prog sql (Except GoError Unit × TransferResult)) (c : Choice) :
    (tx.advance x db now o next c).base x db = tx.base x db := by
  cases x with
  | locking => rfl
  | serializable =>
    cases pinned : tx.snapshot with
    | none =>
      rw [base_unpinned pinned]
      exact base_pinned (n := now) (by simp [advance, OpenTx.pinned, pinned]) db
    | some taken =>
      obtain ⟨snapshot, n⟩ := taken
      rw [base_pinned pinned]
      exact base_pinned (n := n) (by simp [advance, OpenTx.pinned, pinned]) db

/-- What a transaction sees is part of what there is. -/
theorem base_older {tx : OpenTx} {x : Strategy} {db db' : Db} (older : (tx.base x db).Extends db)
    (grown : db.Extends db') : (tx.base x db').Extends db' := by
  unfold base at older ⊢
  split
  · next pinned =>
    simp only [pinned] at older
    exact older.trans grown
  · exact .refl db'

end OpenTx

namespace TxInv

variable {w w' : World} {i : Nat} {call : Call} {tx : OpenTx} {phase : Phase call.amount}

/-- An open transaction does not notice changes that its locks allow. -/
theorem stable (inv : TxInv w i call tx phase) (kept : w'.heldBy i = w.heldBy i)
    (grown : w.db.Extends w'.db) (agrees : Db.Agrees (w.heldBy i) w.db w'.db) :
    TxInv w' i call tx phase where
  follows := inv.follows
  facts := by
    rcases inv.held with ⟨err, rfl⟩ | held
    · trivial
    rw [held] at agrees
    rcases tx.sees call.strategy w.db w'.db with ⟨serializable, unpinned⟩ | sees
    · obtain ⟨rfl, empty⟩ := inv.unpinned serializable unpinned
      exact ⟨⟨⟨0, 0, 0⟩, empty⟩, trivial⟩
    · exact inv.facts.stable sees agrees
  held := kept ▸ inv.held
  older := OpenTx.base_older inv.older grown
  unpinned := inv.unpinned

/-- One operation takes the transaction to the next phase. -/
theorem performed (inv : TxInv w i call tx phase) (attempt : Nat) {o : Op}
    {next : o.Reply → Prog sql (Except GoError Unit × TransferResult)} (prog : tx.prog = .op o next)
    (c : Choice) :
    TxInv (w.performed i call attempt tx o next c) i call
      (tx.advance call.strategy w.db w.log.length o next c)
      (phase.next call.strategy call.cmd o (tx.answer call.strategy w.db c o).1) := by
  have follows := inv.follows
  rw [prog] at follows
  have base : (tx.advance call.strategy w.db w.log.length o next c).base call.strategy w.db =
      tx.base call.strategy w.db := OpenTx.base_advance ..
  refine ⟨follows.2 _ _ rfl, ?_, ?_, ?_, ?_⟩
  · change Phase.Facts _ _ (OpenTx.base _ _ w.db) w.db _ _
    rw [base]
    exact inv.facts.step follows.1 c
  · rcases inv.held with ⟨err, rfl⟩ | held
    · cases follows.1
    · rcases Phase.held_step follows.1 (tx.answer call.strategy w.db c o).1 with failed | same
      · exact .inl failed
      · refine .inr ?_
        rw [← same, ← held]
        exact World.heldBy_append_self _
  · change (OpenTx.base _ _ w.db).Extends w.db
    rw [base]
    exact inv.older
  · intro serializable unpinned
    simp [OpenTx.advance, OpenTx.pinned, serializable] at unpinned

end TxInv

def Posting.locks (p : Posting) : List Lock :=
  [(.key p.key, .exclusive), (.account p.source, .share), (.account p.target, .share),
    (.transfer p.id, .exclusive), (.event p.eventID, .exclusive)]

/-- What a transaction whose closure returned nil is about to commit. -/
inductive Commits (w : World) (i : Nat) (call : Call) (tx : OpenTx) : TransferResult → Prop where
  | posted (p : Posting) (carries : p.Carries call.cmd) (writes : tx.writes = p.writes)
      (accepts : (tx.base call.strategy w.db).Accepts w.db p) (locked : p.locks ⊆ w.heldBy i) :
      Commits w i call tx ⟨p.id, createdResponse p.id, false⟩
  | replayed (row : KeyRow) (stored : (tx.base call.strategy w.db).keyRow call.cmd.key = some row)
      (same : row.fingerprint = call.cmd.fingerprint) (completed : row.state = .completed)
      (writes : tx.writes = []) : Commits w i call tx row.replayResult

namespace TxInv

variable {w w' : World} {i : Nat} {call : Call} {tx : OpenTx} {phase : Phase call.amount}

/-- A transaction that has returned without an error is fit to commit. -/
theorem commits (inv : TxInv w i call tx phase) {result : TransferResult}
    (prog : tx.prog = .ret (.ok (), result)) : Commits w i call tx result := by
  have ended := inv.follows
  rw [prog] at ended
  have facts := inv.facts
  have held := inv.held
  rcases Phase.outcome_ok ended with ⟨k, eventID, rfl, rfl⟩ | ⟨row, rfl, rfl⟩
  · obtain ⟨p, carries, sameID, sameEvent, writes, accepts⟩ := facts.posting call.valid
    rcases held with ⟨err, impossible⟩ | held
    · cases impossible
    rw [← sameID]
    refine .posted p carries writes accepts ?_
    rw [held]
    simp [Posting.locks, Phase.held, Phase.entryLocks, Phase.transferLocks, Op.locks, carries.key,
      carries.source, carries.target, sameID, sameEvent]
  · obtain ⟨⟨st, empty⟩, stored, same, completed⟩ := facts
    exact .replayed row stored same completed empty

end TxInv

namespace Commits

variable {w : World} {i j : Nat} {call : Call} {tx : OpenTx} {result : TransferResult}

/-- The database after the commit. -/
theorem after (commits : Commits w i call tx result) :
    w.db.after tx.writes = w.db ∨
      ∃ p : Posting, p.Carries call.cmd ∧ (tx.base call.strategy w.db).Accepts w.db p ∧
        w.db.after tx.writes = w.db.post p := by
  cases commits with
  | posted p carries writes accepts locked =>
    exact .inr ⟨p, carries, accepts, by rw [writes, Db.after_writes accepts.free]⟩
  | replayed row stored same completed writes => exact .inl (by rw [writes, Db.after_nil])

theorem extends' (commits : Commits w i call tx result) : w.db.Extends (w.db.after tx.writes) := by
  rcases commits.after with same | ⟨p, -, -, posted⟩
  · rw [same]
    exact .refl _
  · rw [posted]
    exact .post _ p

/-- Nobody else holds an exclusive lock on what a transaction has locked for its posting. -/
theorem unlocked {p : Posting} (locked : p.locks ⊆ w.heldBy i) (compatible : w.Compatible)
    (other : j ≠ i) (r : Resource) (mode : LockMode) (mine : (r, mode) ∈ p.locks) :
    (r, .exclusive) ∉ w.heldBy j := by
  intro theirs
  have free := compatible i j _ _ other.symm (locked mine) theirs rfl
  cases mode <;> cases free

/-- A commit does not disturb the other transactions. -/
theorem agrees (commits : Commits w i call tx result) (compatible : w.Compatible) (other : j ≠ i) :
    Db.Agrees (w.heldBy j) w.db (w.db.after tx.writes) := by
  cases commits with
  | replayed row stored same completed writes =>
    rw [writes]
    exact .refl _ _
  | posted p carries writes accepts locked =>
    have free := unlocked locked compatible other
    rw [writes, Db.after_writes accepts.free]
    refine .post (free _ .exclusive ?_) (free _ .share ?_) (free _ .share ?_)
      (free _ .exclusive ?_) (free _ .exclusive ?_) <;> simp [Posting.locks]

end Commits

/-! ### Every act keeps the invariant -/

namespace World

variable {w w' : World} {i : Nat}

/-- A change that session `i` makes, while it and its locks are all that changes
besides rows nobody else has locked. -/
theorem Inv.change (inv : w.Inv) (i : Nat) (sessions : ∀ j ≠ i, w'.sessions j = w.sessions j)
    (locks : ∀ j ≠ i, w'.heldBy j = w.heldBy j) (grown : w.db.Extends w'.db)
    (agrees : ∀ j ≠ i, Db.Agrees (w.heldBy j) w.db w'.db)
    (running : ∀ {call attempt tx}, w'.sessions i = .running call attempt tx →
      ∃ phase, TxInv w' i call tx phase)
    (outside : (∀ call attempt tx, w'.sessions i ≠ .running call attempt tx) → w'.heldBy i = [])
    (compatible : ∀ j ≠ i, ∀ l ∈ w'.heldBy i, ∀ l' ∈ w.heldBy j, l.1 = l'.1 →
      l.2.conflicts l'.2 = false) : w'.Inv where
  running {j call attempt tx} was := by
    by_cases mine : j = i
    · subst mine
      exact running was
    · rw [sessions j mine] at was
      obtain ⟨phase, txInv⟩ := inv.running was
      exact ⟨phase, txInv.stable (locks j mine) grown (agrees j mine)⟩
  outside {j} calm := by
    by_cases mine : j = i
    · subst mine
      exact outside calm
    · rw [locks j mine]
      rw [sessions j mine] at calm
      exact inv.outside calm
  compatible j k l l' distinct memJ memK same := by
    by_cases mineJ : j = i
    · subst mineJ
      rw [locks k (Ne.symm distinct)] at memK
      exact compatible k (Ne.symm distinct) l memJ l' memK same
    · rw [locks j mineJ] at memJ
      by_cases mineK : k = i
      · subst mineK
        rw [LockMode.conflicts_comm]
        exact compatible j mineJ l' memK l memJ same.symm
      · rw [locks k mineK] at memK
        exact inv.compatible j k l l' distinct memJ memK same

/-- An operation that is not blocked, or fails, acquires only locks that go together with
those of the others. -/
theorem acquires_compatible {c : Choice} {o : Op} (free : c.fault = none → w.blocked i o = false)
    {visible latest : Db} {j : Nat} (other : j ≠ i) {l l' : Lock}
    (mine : l ∈ o.acquires (exec c visible latest o).1) (theirs : l' ∈ w.heldBy j)
    (same : l.1 = l'.1) : l.2.conflicts l'.2 = false := by
  by_cases healthy : c.fault = none
  · have free := free healthy
    simp only [blocked, List.any_eq_false, Bool.and_eq_true, bne_iff_ne, ne_eq, List.any_eq_true,
      beq_iff_eq, not_and, not_exists, Bool.not_eq_true] at free
    exact free (j, l') (mem_heldBy.mp theirs) other l (o.acquires_subset _ mine) same
  · rw [Op.acquires_faulted healthy] at mine
    cases mine

theorem begun_inv {call : Call} (result : TransferResult) (none : w.heldBy i = []) :
    TxInv w i call (.begun call result) .claim where
  follows := OpenTx.begun_follows call result
  facts := ⟨⟨⟨0, 0, 0⟩, rfl⟩, trivial⟩
  held := .inr none
  older := by
    rw [OpenTx.base_unpinned rfl]
    exact .refl _
  unpinned _ _ := ⟨rfl, rfl⟩

/-- Every move keeps the invariant. -/
theorem Move.inv {a : Act} (move : w.Move a w') (inv : w.Inv) : w'.Inv := by
  cases move with
  | outside i s mine was now kept =>
    have none := inv.outside was.not_running
    refine inv.change i (fun j other => sessions_set other s) (fun _ _ => rfl) (.refl _)
      (fun _ _ => .refl _ _) ?_ (fun _ => none) ?_
    · intro call attempt tx running
      rw [sessions_set_self] at running
      exact absurd running (now.not_running call attempt tx)
    · intro j other l mem
      rw [heldBy_set, none] at mem
      cases mem
  | begins i call attempt result was =>
    have none : w.heldBy i = [] := inv.outside (by rw [was]; simp)
    refine inv.change i (fun j other => sessions_set other _) (fun _ _ => rfl) (.refl _)
      (fun _ _ => .refl _ _) ?_ (fun _ => none) ?_
    · intro call' attempt' tx' running
      rw [sessions_set_self] at running
      cases running
      exact ⟨.claim, begun_inv result none⟩
    · intro j other l mem
      rw [heldBy_set, none] at mem
      cases mem
  | performs i c call attempt tx o next was prog free drawn =>
    obtain ⟨phase, txInv⟩ := inv.running was
    refine inv.change i (fun j other => sessions_set other _) (fun j other => heldBy_append other _)
      (.refl _) (fun _ _ => .refl _ _) ?_ ?_ ?_
    · intro call' attempt' tx' running
      have here : (w.performed i call attempt tx o next c).sessions i = .running call attempt
          (tx.advance call.strategy w.db w.log.length o next c) := sessions_set_self _
      rw [here] at running
      cases running
      exact ⟨_, txInv.performed attempt prog c⟩
    · intro calm
      exact absurd (sessions_set_self _) (calm call attempt _)
    · intro j other l mem l' theirs same
      rw [show (w.performed i call attempt tx o next c).heldBy i = _ from heldBy_append_self _,
        List.mem_append] at mem
      rcases mem with mem | mem
      · exact inv.compatible i j l l' (Ne.symm other) mem theirs same
      · exact acquires_compatible free other mem theirs same
  | aborts i s mine call attempt tx was now kept =>
    refine inv.change i (fun j other => sessions_set other s)
      (fun j other => heldBy_release other) (.refl _) (fun _ _ => .refl _ _) ?_
      (fun _ => heldBy_release_self) ?_
    · intro call' attempt' tx' running
      rw [sessions_set_self] at running
      exact absurd running (now.not_running call' attempt' tx')
    · intro j other l mem
      rw [heldBy_set, heldBy_release_self] at mem
      cases mem
  | commits i outcome call attempt tx result s was prog allowed now =>
    obtain ⟨phase, txInv⟩ := inv.running was
    have commits := txInv.commits prog
    have none : ((w.apply i call tx result).set i s).heldBy i = [] := heldBy_release_self (w := w)
    refine inv.change i (fun j other => sessions_set other s)
      (fun j other => heldBy_release (w := w) other)
      commits.extends' (fun j other => commits.agrees inv.compatible other) ?_ (fun _ => none) ?_
    · intro call' attempt' tx' running
      rw [sessions_set_self] at running
      rcases now with ⟨-, rfl⟩ | ⟨err, -, rfl⟩
      · cases running
      · exact absurd running ((call.afterError_unsuccessful _ _ _).not_running call' attempt' tx')
    · intro j other l mem
      rw [none] at mem
      cases mem
  | opens a valid =>
    refine ⟨fun was => ?_, inv.outside, inv.compatible⟩
    obtain ⟨phase, txInv⟩ := inv.running was
    exact ⟨phase, txInv.stable rfl (.addAccount _ a) (.addAccount _ _ a)⟩

/-- What a step leaves to a session it does not belong to: its locks, and the rows
it has locked. -/
theorem Move.undisturbed {a : Act} (move : w.Move a w') (inv : w.Inv) {j : Nat}
    (other : a.session ≠ some j) :
    w'.heldBy j = w.heldBy j ∧ Db.Agrees (w.heldBy j) w.db w'.db := by
  have distinct : ∀ {i}, a.session = some i → j ≠ i := by
    rintro i mine rfl
    exact other mine
  cases move with
  | outside i s mine was now kept => exact ⟨rfl, .refl _ _⟩
  | begins i call attempt result was => exact ⟨rfl, .refl _ _⟩
  | performs i c call attempt tx o next was prog free drawn =>
    exact ⟨heldBy_append (distinct rfl) _, .refl _ _⟩
  | aborts i s mine call attempt tx was now kept =>
    exact ⟨heldBy_release (distinct mine), .refl _ _⟩
  | commits i outcome call attempt tx result s was prog allowed now =>
    obtain ⟨phase, txInv⟩ := inv.running was
    exact ⟨heldBy_release (w := w) (distinct rfl),
      (txInv.commits prog).agrees inv.compatible (distinct rfl)⟩
  | opens a valid => exact ⟨rfl, .addAccount _ _ a⟩

/-- Committed rows stay. -/
theorem Move.extends' {a : Act} (move : w.Move a w') (inv : w.Inv) : w.db.Extends w'.db := by
  cases move with
  | commits i outcome call attempt tx result s was prog allowed now =>
    obtain ⟨phase, txInv⟩ := inv.running was
    exact (txInv.commits prog).extends'
  | opens a valid => exact .addAccount _ a
  | _ => exact .refl _

/-- What holds of every open transaction when it begins, and is kept by its own
operations and by what the others do, holds after every step. -/
theorem Move.running {a : Act} (P : World → (i : Nat) → (call : Call) → OpenTx →
      Phase call.amount → Prop)
    (move : w.Move a w') (inv : w.Inv)
    (held : ∀ {i call attempt tx}, w.sessions i = .running call attempt tx →
      ∃ phase, P w i call tx phase)
    (begins : ∀ {i call result}, w'.heldBy i = [] → P w' i call (.begun call result) .claim)
    (performs : ∀ {i c call attempt tx phase o next}, a = .perform i c →
      w.sessions i = .running call attempt tx → tx.prog = .op o next →
      (o.drawsSequence → w.sequence < c.entryID) → w' = w.performed i call attempt tx o next c →
      P w i call tx phase → P w' i call (tx.advance call.strategy w.db w.log.length o next c)
        (phase.next call.strategy call.cmd o (tx.answer call.strategy w.db c o).1))
    (others : ∀ {i call tx phase}, a.session ≠ some i → P w i call tx phase → P w' i call tx phase)
    {i : Nat} {call : Call} {attempt : Nat} {tx : OpenTx}
    (now : w'.sessions i = .running call attempt tx) : ∃ phase, P w' i call tx phase := by
  by_cases mine : a.session = some i
  · cases move with
    | outside j s mine' was calm kept =>
      cases mine.symm.trans mine'
      rw [sessions_set_self] at now
      exact absurd now (calm.not_running call attempt tx)
    | begins j call' attempt' result was =>
      cases mine
      rw [sessions_set_self] at now
      cases now
      exact ⟨.claim, begins (inv.outside (by rw [was]; simp))⟩
    | performs j c call' attempt' tx' o next was prog free drawn =>
      cases mine
      rw [show (w.performed i call' attempt' tx' o next c).sessions i = _ from sessions_set_self _]
        at now
      cases now
      obtain ⟨phase, known⟩ := held was
      exact ⟨_, performs rfl was prog drawn rfl known⟩
    | aborts j s mine' call' attempt' tx' was calm kept =>
      cases mine.symm.trans mine'
      rw [sessions_set_self] at now
      exact absurd now (calm.not_running call attempt tx)
    | commits j outcome call' attempt' tx' result s was prog allowed ends =>
      cases mine
      rw [sessions_set_self] at now
      subst now
      rcases ends with ⟨-, same⟩ | ⟨err, -, same⟩
      · cases same
      · exact absurd same.symm ((call'.afterError_unsuccessful _ _ _).not_running call attempt tx)
    | opens b valid => cases mine
  · rw [move.sessions_other mine] at now
    obtain ⟨phase, known⟩ := held now
    exact ⟨phase, others mine known⟩

theorem step_inv {a : Act} (inv : w.Inv) (stepped : w.step a = some w') : w'.Inv :=
  (step_move stepped).inv inv

/-- The invariant holds in every state that is reached from a state without calls. -/
theorem runs_inv {db : Db} {acts : List Act} (ran : Txn.runs step (.init db) acts = some w) :
    w.Inv :=
  Txn.runs_invariant Inv step_inv (Inv.init db) ran

end World

/-! ### Runs of one kind of executor -/

/-- Every call of the run is made through an executor of the given kind. -/
def Act.Uses (kind : Executor → Prop) : Act → Prop
  | .start _ executor _ => kind executor
  | _ => True

instance (kind : Executor → Prop) [DecidablePred kind] : (a : Act) → Decidable (a.Uses kind)
  | .start _ executor _ => inferInstanceAs (Decidable (kind executor))
  | .begin .. | .perform .. | .rollback _ | .commit .. | .wake .. | .crash _ | .openAccount _ =>
    .isTrue trivial

def World.Uses (kind : Executor → Prop) (w : World) : Prop :=
  ∀ i call, (w.sessions i).call = some call → kind call.executor

/-- The executors of a run are those that were started. -/
theorem World.Move.uses {w w' : World} {a : Act} {kind : Executor → Prop} (move : w.Move a w')
    (allowed : a.Uses kind) (uses : w.Uses kind) : w'.Uses kind := by
  have update : ∀ (w'' : World) (i : Nat) (s : Session), w''.sessions = w.sessions →
      (∀ call, s.call = some call → kind call.executor) → (w''.set i s).Uses kind := by
    intro w'' i s same own j call working
    by_cases mine : j = i
    · subst mine
      rw [sessions_set_self] at working
      exact own call working
    · rw [sessions_set mine, same] at working
      exact uses j call working
  cases move with
  | outside i s mine was now kept =>
    refine update w i s rfl fun call working => ?_
    rcases kept with continues | ⟨executor, cmd, rfl, -, same⟩
    · exact uses i call (continues.call call working)
    · rw [same call working]
      exact allowed
  | begins i call attempt result was =>
    refine update w i _ rfl fun call' working => ?_
    cases working
    exact uses i call (by rw [was]; rfl)
  | performs i c call attempt tx o next was prog free drawn =>
    refine update w i _ rfl fun call' working => ?_
    cases working
    exact uses i call (by rw [was]; rfl)
  | aborts i s mine call attempt tx was now kept =>
    refine update (w.release i) i s rfl fun call' working => ?_
    exact uses i call' (kept.call call' working)
  | commits i outcome call attempt tx result s was prog allowed now =>
    refine update (w.apply i call tx result) i s rfl fun call' working => ?_
    rcases now with ⟨-, rfl⟩ | ⟨err, -, rfl⟩
    · cases working
    · rw [Call.afterError_call working]
      exact uses i call (by rw [was]; rfl)
  | opens a valid => exact uses

theorem World.runs_uses {w : World} {kind : Executor → Prop} {db : Db} {acts : List Act}
    (allowed : ∀ a ∈ acts, a.Uses kind) (ran : Txn.runs step (.init db) acts = some w) :
    w.Uses kind :=
  Txn.runs_admissible (Act.Uses kind) (World.Uses kind)
    (fun allowed uses stepped => (step_move stepped).uses allowed uses) allowed
    (by rintro i call ⟨⟩) ran

end WalletGo
