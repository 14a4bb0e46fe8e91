import WalletGo.App.Statement
import WalletGo.World.Keys

/-!
Entry ids and the order in which entries become visible.

Ids are drawn from the sequence when an entry is inserted, long before the commit
that makes it visible. A commit is in order for an account when what it adds to the
account's entries has larger ids than all of them (`World.InOrder`); then the
account's ids ascend in the order of visibility (`Move.ascending`). A transaction of
the locking strategy has had both accounts locked since before it drew its ids, so
all its commits are in order (`Orderly.inOrder`).
-/

namespace WalletGo

open Txn (Prog)

def writtenEntries (writes : List Write) : List EntryRow :=
  writes.filterMap fun
    | .insertEntry row => some row
    | _ => none

theorem writtenEntries_append (first second : List Write) :
    writtenEntries (first ++ second) = writtenEntries first ++ writtenEntries second :=
  List.filterMap_append

theorem mem_writtenEntries {writes : List Write} {row : EntryRow} :
    row ∈ writtenEntries writes ↔ .insertEntry row ∈ writes := by
  simp only [writtenEntries, List.mem_filterMap]
  constructor
  · rintro ⟨write, mem, found⟩
    cases write with
    | insertEntry row' =>
      cases found
      exact mem
    | _ => cases found
  · intro mem
    exact ⟨.insertEntry row, mem, rfl⟩

/-- A commit appends its entries. -/
theorem Db.after_entries (db : Db) (writes : List Write) :
    (db.after writes).entries = db.entries ++ writtenEntries writes := by
  induction writes generalizing db with
  | nil => exact (List.append_nil _).symm
  | cons write rest ih =>
    rw [Db.after_cons, ih]
    cases write with
    | insertEntry row => exact List.append_assoc db.entries [row] _
    | _ => rfl

def Session.entries : Session → List EntryRow
  | .running _ _ tx => writtenEntries tx.writes
  | _ => []

theorem Session.Unsuccessful.no_entries {s : Session} (unsuccessful : s.Unsuccessful) :
    s.entries = [] := by
  cases s with
  | running call attempt tx => exact unsuccessful.elim
  | _ => rfl

/-- An operation writes an entry with the value it draws. -/
theorem exec_entry {c : Choice} {visible latest : Db} {o : Op} {row : EntryRow}
    (mem : .insertEntry row ∈ (exec c visible latest o).2) :
    o.drawsSequence ∧ row.id = c.entryID := by
  have unguarded : ∀ {β : Type} {outcome : Except GoError β × List Write},
      Write.insertEntry row ∈ (c.guard outcome).2 → .insertEntry row ∈ outcome.2 := by
    intro β outcome mem
    rcases c.guard_cases outcome with ⟨err, same⟩ | same
    · rw [same] at mem
      cases mem
    · rwa [same] at mem
  -- an insert that is not refused writes its row and nothing else
  have inserted : ∀ {violation : Option GoError} {write : Write},
      .insertEntry row ∈ (insertUnless violation write).2 → .insertEntry row = write := by
    intro violation write mem
    cases violation with
    | some err => cases mem
    | none => exact List.mem_singleton.mp mem
  cases o with
  | insertEntry transferID accountID amountCents =>
    cases inserted (unguarded mem)
    exact ⟨rfl, rfl⟩
  | insertTransfer id fromAccountID toAccountID amountCents => cases inserted (unguarded mem)
  | insertEvent eventID eventType payload => cases inserted (unguarded mem)
  | claimKey key fingerprint =>
    have mem := unguarded mem
    unfold claimOutcome at mem
    split at mem
    · cases mem
    · split at mem
      · cases mem
      · cases List.mem_singleton.mp mem
  | completeKey key statusCode body transferID =>
    have mem := unguarded mem
    unfold completeOutcome at mem
    split at mem
    · cases mem
    · split at mem
      · cases mem
      · cases List.mem_singleton.mp mem
  | newUUID => cases mem
  | _ => cases unguarded mem

namespace World

variable {w w' : World} {a : Act}

/-! ### Ids are drawn once -/

/-- What a step adds to the entries a session has written. -/
theorem Move.entries_drawn (move : w.Move a w') {i : Nat} {row : EntryRow}
    (mem : row ∈ (w'.sessions i).entries) :
    row ∈ (w.sessions i).entries ∨ w.sequence < row.id ∧ row.id = w'.sequence := by
  by_cases mine : a.session = some i
  · cases move with
    | outside j s mine' was now kept =>
      cases mine.symm.trans mine'
      rw [sessions_set_self, now.no_entries] at mem
      cases mem
    | begins j call attempt result was =>
      cases mine
      rw [sessions_set_self] at mem
      cases mem
    | performs j c call attempt tx o next was prog free drawn =>
      cases mine
      rw [show (w.performed i call attempt tx o next c).sessions i = _ from sessions_set_self _,
        Session.entries, OpenTx.advance, writtenEntries_append] at mem
      rcases List.mem_append.mp mem with old | new
      · refine .inl ?_
        rw [was]
        exact old
      · obtain ⟨draws, same⟩ := exec_entry (mem_writtenEntries.mp new)
        refine .inr ⟨same ▸ drawn draws, ?_⟩
        rw [performed, if_pos draws, same]
    | aborts j s mine' call attempt tx was now kept =>
      cases mine.symm.trans mine'
      rw [sessions_set_self, now.no_entries] at mem
      cases mem
    | commits j outcome call attempt tx result s was prog allowed now =>
      cases mine
      rw [sessions_set_self] at mem
      rcases now with ⟨-, rfl⟩ | ⟨err, -, rfl⟩
      · cases mem
      · rw [(call.afterError_unsuccessful _ _ _).no_entries] at mem
        cases mem
    | opens b valid => cases mine
  · rw [move.sessions_other mine] at mem
    exact .inl mem

/-- What a transaction that is about to commit has written: nothing, or the entries of
a posting with a new transfer. -/
theorem Inv.committing (inv : w.Inv) {i : Nat} {call : Call} {attempt : Nat} {tx : OpenTx}
    (was : w.sessions i = .running call attempt tx) {result : TransferResult}
    (prog : tx.prog = .ret (.ok (), result)) :
    (w.sessions i).entries = [] ∨
      ∃ p : Posting, p.id ∉ w.db.transfers.map (·.id) ∧ (w.sessions i).entries = p.entries := by
  obtain ⟨phase, txInv⟩ := inv.running was
  rw [was, Session.entries]
  cases txInv.commits prog with
  | posted p carries writes accepts locked =>
    rw [writes]
    exact .inr ⟨p, accepts.freshID, rfl⟩
  | replayed row stored same completed writes =>
    rw [writes]
    exact .inl rfl

/-- The entries that a step makes visible were written by the session that commits. -/
theorem Move.entries_committed (move : w.Move a w') (inv : w.Inv) :
    w'.db.entries = w.db.entries ∨ ∃ (i : Nat) (outcome : CommitOutcome) (p : Posting),
      a = .commit i outcome ∧ (∀ err, outcome ≠ .failed err) ∧ p.id ∉ w.db.transfers.map (·.id) ∧
        (w.sessions i).entries = p.entries ∧
      w'.db.entries = w.db.entries ++ p.entries := by
  cases move with
  | commits i outcome call attempt tx result s was prog allowed now =>
    have applied : ∀ err, outcome ≠ .failed err := by
      rintro err rfl
      rcases now with ⟨same, -⟩ | ⟨err', same, -⟩ <;> cases same
    have added : (w.db.after tx.writes).entries = w.db.entries ++ (w.sessions i).entries := by
      rw [was]
      exact Db.after_entries _ _
    rcases inv.committing was prog with none | ⟨p, fresh, same⟩
    · rw [none, List.append_nil] at added
      exact .inl added
    · rw [same] at added
      exact .inr ⟨i, outcome, p, rfl, applied, fresh, same, added⟩
  | _ => exact .inl rfl

/-- Every id has been drawn from the sequence, whose values are positive. -/
structure Numbered (w : World) : Prop where
  committed : ∀ e ∈ w.db.entries, 0 < e.id ∧ e.id ≤ w.sequence
  written : ∀ i, ∀ e ∈ (w.sessions i).entries, 0 < e.id ∧ e.id ≤ w.sequence

theorem Numbered.init : (World.init .empty).Numbered where
  committed _ mem := nomatch mem
  written _ _ mem := nomatch mem

/-- Identifiers are drawn from the sequence and nowhere else. -/
theorem Move.numbered (move : w.Move a w') (inv : w.Inv) (numbered : w.Numbered) : w'.Numbered where
  committed e mem := by
    have grown := move.sequence_le
    rcases move.entries_committed inv with same | ⟨i, outcome, p, -, -, -, written, same⟩
    · rw [same] at mem
      obtain ⟨positive, drawn⟩ := numbered.committed e mem
      exact ⟨positive, Nat.le_trans drawn grown⟩
    · rw [same] at mem
      rcases List.mem_append.mp mem with old | new
      · obtain ⟨positive, drawn⟩ := numbered.committed e old
        exact ⟨positive, Nat.le_trans drawn grown⟩
      · obtain ⟨positive, drawn⟩ := numbered.written i e (written ▸ new)
        exact ⟨positive, Nat.le_trans drawn grown⟩
  written i e mem := by
    rcases move.entries_drawn mem with old | ⟨above, last⟩
    · obtain ⟨positive, drawn⟩ := numbered.written i e old
      exact ⟨positive, Nat.le_trans drawn move.sequence_le⟩
    · exact ⟨Nat.lt_of_le_of_lt (Nat.zero_le _) above, Nat.le_of_eq last⟩

/-! ### Commits in order -/

/-- A commit that makes entries visible adds to the account's entries only above
those that are visible already. -/
def InOrder (accountID : UUID) (w : World) : Act → Prop
  | .commit _ (.failed _) => True
  | .commit i _ => ∀ row ∈ (w.sessions i).entries, row.accountID = accountID →
      ∀ e ∈ w.db.entriesOf accountID, e.id < row.id
  | _ => True

instance (accountID : UUID) (w : World) : (a : Act) → Decidable (w.InOrder accountID a)
  | .commit _ (.failed _) => .isTrue trivial
  | .commit i .acknowledged | .commit i (.lost _) =>
    inferInstanceAs (Decidable (∀ row ∈ (w.sessions i).entries, row.accountID = accountID →
      ∀ e ∈ w.db.entriesOf accountID, e.id < row.id))
  | .start .. | .begin .. | .perform .. | .rollback _ | .wake .. | .crash _ | .openAccount _ =>
    .isTrue trivial

variable {accountID : UUID}

/-- A commit that is in order puts its entries above those of the account. -/
theorem InOrder.above {i : Nat} {outcome : CommitOutcome}
    (inOrder : w.InOrder accountID (.commit i outcome)) (applied : ∀ err, outcome ≠ .failed err)
    {row e : EntryRow} (mem : row ∈ (w.sessions i).entries) (own : row.accountID = accountID)
    (visible : e ∈ w.db.entriesOf accountID) : e.id < row.id := by
  cases outcome with
  | failed err => exact absurd rfl (applied err)
  | acknowledged => exact inOrder row mem own e visible
  | lost err => exact inOrder row mem own e visible

theorem InOrder.of_applied {i : Nat} {outcome : CommitOutcome}
    (above : (∀ err, outcome ≠ .failed err) →
      ∀ row ∈ (w.sessions i).entries, row.accountID = accountID →
      ∀ e ∈ w.db.entriesOf accountID, e.id < row.id) : w.InOrder accountID (.commit i outcome) := by
  cases outcome with
  | failed err => trivial
  | acknowledged => exact above nofun
  | lost err => exact above nofun

/-- A commit that is applied makes visible what its session has written. -/
theorem step_commit {i : Nat} {outcome : CommitOutcome} (applied : ∀ err, outcome ≠ .failed err)
    (stepped : w.step (.commit i outcome) = some w') :
    ∃ call attempt tx result, w.sessions i = .running call attempt tx ∧
      tx.prog = .ret (.ok (), result) ∧ w'.db.entries = w.db.entries ++ (w.sessions i).entries := by
  simp only [step] at stepped
  split at stepped
  · next call attempt tx was =>
    unfold commit at stepped
    split at stepped
    · next result prog =>
      refine ⟨call, attempt, tx, result, was, prog, ?_⟩
      rw [was]
      have added : (w.db.after tx.writes).entries = w.db.entries ++ writtenEntries tx.writes :=
        Db.after_entries _ _
      split at stepped
      · next err => exact absurd rfl (applied err)
      · split at stepped
        · cases stepped
        · cases stepped
          exact added
      · split at stepped
        · cases stepped
        · cases stepped
          exact added
    · cases stepped
  · cases stepped

/-- A posting has at most one entry for an account. -/
theorem entriesOf_posting (p : Posting) (accountID : UUID) :
    p.entries.filter (·.accountID == accountID) = [] ∨
      ∃ row ∈ p.entries, row.accountID = accountID ∧
        p.entries.filter (·.accountID == accountID) = [row] := by
  by_cases source : p.source = accountID
  · have other : p.target ≠ accountID := fun same => p.distinct (source.trans same.symm)
    exact .inr ⟨p.debit, by simp [Posting.entries], source, by
      simp [Posting.entries, Posting.debit, Posting.credit, source, other]⟩
  · by_cases target : p.target = accountID
    · exact .inr ⟨p.credit, by simp [Posting.entries], target, by
        simp [Posting.entries, Posting.debit, Posting.credit, source, target]⟩
    · exact .inl (by simp [Posting.entries, Posting.debit, Posting.credit, source, target])

/-- Commits in order keep the account's ids ascending. -/
theorem Move.ascending (move : w.Move a w') (inv : w.Inv) (numbered : w.Numbered)
    (inOrder : w.InOrder accountID a) (ascending : w.db.Ascending accountID) :
    w'.db.Ascending accountID := by
  have positive : ∀ e ∈ w'.db.entriesOf accountID, 0 < e.id := fun e mem =>
    ((move.numbered inv numbered).committed e (List.mem_filter.mp mem).1).1
  refine ⟨?_, positive⟩
  rcases move.entries_committed inv with same | ⟨i, outcome, p, rfl, applied, -, written, same⟩
  · rw [Db.entriesOf, same]
    exact ascending.ascending
  · rw [Db.entriesOf, same, List.filter_append]
    rcases entriesOf_posting p accountID with none | ⟨row, mem, own, one⟩
    · rw [none, List.append_nil]
      exact ascending.ascending
    · rw [one]
      refine List.pairwise_append.mpr ⟨ascending.ascending, List.pairwise_singleton _ _, ?_⟩
      intro e visible last final
      cases List.mem_singleton.mp final
      exact inOrder.above applied (written ▸ mem) own visible

end World

/-! ### The locking strategy commits in order -/

/-- Who has written an entry has its account locked. -/
theorem Phase.entry_locked {cmd : TransferCommand} {amount : Money} {phase : Phase amount}
    {base db : Db} {made : List Write} (facts : phase.Facts .locking cmd base db made)
    (going : ¬ phase.Failed) {row : EntryRow} (mem : row ∈ writtenEntries made) :
    (.account row.accountID, .exclusive) ∈ phase.held .locking cmd := by
  -- from the credit on, both entries have been written
  have both : ∀ {debit credit : EntryRow}, debit.accountID = cmd.fromAccountID →
      credit.accountID = cmd.toAccountID → row ∈ [debit, credit] → ∀ id,
      (.account row.accountID, .exclusive) ∈ entryLocks .locking cmd amount id := by
    intro debit credit source target mem id
    refine transferLocks_subset_entryLocks amount id (List.mem_append_left _ ?_)
    rcases List.mem_cons.mp mem with rfl | mem
    · rw [source]
      exact source_mem_accountLocks
    · cases List.mem_singleton.mp mem
      rw [target]
      exact target_mem_accountLocks
  cases phase with
  | failed err => exact absurd ⟨err, rfl⟩ going
  | insertCredit k =>
    obtain ⟨⟨st, rfl⟩, -⟩ := facts
    cases List.mem_singleton.mp mem
    exact List.mem_append_left _ (List.mem_append_left _ source_mem_accountLocks)
  | marshalEvent k =>
    obtain ⟨⟨st, rfl⟩, -⟩ := facts
    exact both rfl rfl mem k.id
  | newEventID k =>
    obtain ⟨⟨st, rfl⟩, -⟩ := facts
    exact both rfl rfl mem k.id
  | insertEvent k eventID =>
    obtain ⟨⟨st, rfl⟩, -⟩ := facts
    exact both rfl rfl mem k.id
  | marshalResponse k eventID =>
    obtain ⟨⟨st, rfl⟩, -⟩ := facts
    exact List.mem_append_left _ (both rfl rfl mem k.id)
  | completeKey k eventID =>
    obtain ⟨⟨st, rfl⟩, -⟩ := facts
    exact List.mem_append_left _ (both rfl rfl mem k.id)
  | executed k eventID =>
    obtain ⟨⟨st, rfl⟩, -⟩ := facts
    exact List.mem_append_left _ (List.mem_append_left _ (both rfl rfl mem k.id))
  | _ =>
    obtain ⟨⟨st, rfl⟩, -⟩ := facts
    cases mem

namespace World

variable {w w' : World} {a : Act}

/-- Others make no entry visible for an account that a session has locked. -/
theorem Move.entries_locked (move : w.Move a w') (inv : w.Inv) {j : Nat}
    (other : a.session ≠ some j) {id : UUID} (locked : (.account id, .exclusive) ∈ w.heldBy j) :
    w'.db.entriesOf id = w.db.entriesOf id := by
  cases move with
  | commits i outcome call attempt tx result s was prog allowed now =>
    have distinct : j ≠ i := by
      rintro rfl
      exact other rfl
    obtain ⟨phase, txInv⟩ := inv.running was
    change (w.db.after tx.writes).entriesOf id = _
    cases txInv.commits prog with
    | replayed row stored same completed writes => rw [writes, Db.after_nil]
    | posted p carries writes accepts mine =>
      have free := Commits.unlocked mine inv.compatible distinct
      have notSource : p.source ≠ id := by
        rintro rfl
        exact free _ .share (by simp [Posting.locks]) locked
      have notTarget : p.target ≠ id := by
        rintro rfl
        exact free _ .share (by simp [Posting.locks]) locked
      rw [writes, Db.after_writes accepts.free]
      simp [Db.entriesOf, Db.post, Posting.entries, Posting.debit, Posting.credit,
        notSource, notTarget]
  | _ => rfl

end World

/-- A transaction of the locking strategy has only drawn ids above those of the
accounts it writes to. -/
structure Ahead (w : World) (i : Nat) (call : Call) (tx : OpenTx) (phase : Phase call.amount) :
    Prop where
  inv : TxInv w i call tx phase
  above : call.strategy = .locking → phase.Failed ∨
    ∀ row ∈ writtenEntries tx.writes, ∀ e ∈ w.db.entriesOf row.accountID, e.id < row.id

structure World.Orderly (w : World) : Prop where
  inv : w.Inv
  numbered : w.Numbered
  running : ∀ {i call attempt tx}, w.sessions i = .running call attempt tx →
    ∃ phase, Ahead w i call tx phase

namespace World

variable {w w' : World} {a : Act}

theorem Orderly.init : (World.init .empty).Orderly := ⟨.init _, .init, nofun⟩

/-- One act keeps what the order of the entries rests on. -/
theorem Move.orderly (move : w.Move a w') (orderly : w.Orderly) : w'.Orderly where
  inv := move.inv orderly.inv
  numbered := move.numbered orderly.inv orderly.numbered
  running now := by
    refine move.running Ahead orderly.inv orderly.running ?_ ?_ ?_ now
    · intro i call result none
      exact ⟨begun_inv _ none, fun _ => .inr fun row mem => nomatch mem⟩
    · rintro i c call attempt tx phase o next - was prog drawn rfl ⟨txInv, above⟩
      refine ⟨txInv.performed attempt prog c, fun locking => .inr fun row mem e visible => ?_⟩
      rw [OpenTx.advance, writtenEntries_append] at mem
      rcases List.mem_append.mp mem with old | new
      · rcases above locking with ⟨err, rfl⟩ | above
        · have here := txInv.follows
          rw [prog] at here
          cases here.1
        · exact above row old e visible
      · obtain ⟨draws, same⟩ := exec_entry (mem_writtenEntries.mp new)
        have bounded := (orderly.numbered.committed e (List.mem_filter.mp visible).1).2
        rw [same]
        exact Nat.lt_of_le_of_lt bounded (drawn draws)
    · rintro i call tx phase other ⟨txInv, above⟩
      obtain ⟨kept, agrees⟩ := move.undisturbed orderly.inv other
      refine ⟨txInv.stable kept (move.extends' orderly.inv) agrees, fun locking => ?_⟩
      by_cases failed : phase.Failed
      · exact .inl failed
      · refine .inr fun row mem e visible => ?_
        have held := txInv.held.resolve_left failed
        have facts := txInv.facts
        rw [locking] at held facts
        have locked := Phase.entry_locked facts failed mem
        rw [← held] at locked
        rw [move.entries_locked orderly.inv other locked] at visible
        exact (above locking).resolve_left failed row mem e visible

/-- In runs of the locking strategy every commit is in order, for every account. -/
theorem Orderly.inOrder (orderly : w.Orderly) (locking : w.Uses (· = .locking))
    (stepped : w.step a = some w') (accountID : UUID) : w.InOrder accountID a := by
  cases a with
  | commit i outcome =>
    refine .of_applied fun applied row mem own e visible => ?_
    obtain ⟨call, attempt, tx, result, was, prog, -⟩ := step_commit applied stepped
    obtain ⟨phase, txInv, above⟩ := orderly.running was
    have strategy : call.strategy = .locking := by
      rw [Call.strategy, locking i call (by rw [was]; rfl)]
      rfl
    rw [was] at mem
    rcases above strategy with ⟨err, rfl⟩ | above
    · have ended := txInv.follows
      rw [prog] at ended
      cases ended
    · exact above row mem e (own ▸ visible)
  | _ => trivial

end World

end WalletGo
