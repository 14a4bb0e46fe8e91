import WalletGo.App.Returned
import WalletGo.World.ExactlyOnce
import WalletGo.World.Trace

/-!
What a call's reply says about what it has committed.

A commit whose outcome is in doubt is reported by an error from outside, which is not an
SQLSTATE of a serialization failure: a server that reports one has rolled back. Then a
call commits at most once, and its reply tells how (`World.Reports`): one that executes
has committed the posting of its command, one that replays has committed nothing, and one
that fails has committed nothing unless its error is one from outside.
-/

namespace WalletGo

/-- The rows of every posting of the journal are there. -/
theorem Journal.holds {db : Db} {ps : List Posting} (journal : Journal db ps) {p : Posting}
    (mem : p ∈ ps) : db.Holds p := by
  obtain ⟨-, transfer, event⟩ := journal.rows_mem mem
  refine ⟨journal.keyRow_of_mem mem, transfer, ?_, ?_, event⟩
  · rw [journal.entries]
    exact List.mem_flatMap.mpr ⟨p, mem, by simp [Posting.entries]⟩
  · rw [journal.entries]
    exact List.mem_flatMap.mpr ⟨p, mem, by simp [Posting.entries]⟩

/-- A commit in doubt is not reported as a rollback. -/
def Act.Definite : Act → Prop
  | .commit _ (.lost err) => err.foreign = true ∧ isSerializationFailure err = false
  | _ => True

/-- A commit in doubt is not tried again. -/
theorem Act.Definite.ended {i : Nat} {outcome : CommitOutcome}
    (definite : (Act.commit i outcome).Definite) {call : Call} {attempt : Nat}
    {result : TransferResult} {s : Session} (now : outcome = .acknowledged ∧
      s = .returned call.cmd (.ok result) ∨
      ∃ err, outcome = .lost err ∧ s = call.afterError attempt result
        (.wrap call.strategy.commitText err)) :
    s = .returned call.cmd (.ok result) ∨ ∃ err, err.foreign = true ∧
      s = .returned call.cmd (.error err) := by
  rcases now with ⟨-, rfl⟩ | ⟨err, rfl, rfl⟩
  · exact .inl rfl
  · obtain ⟨foreign, kept⟩ := definite
    refine .inr ⟨.wrap call.strategy.commitText err, foreign, ?_⟩
    unfold Call.afterError
    rw [isSerializationFailure_wrap, kept]
    split <;> rfl

namespace World

/-- What session `i` has committed, by what it has come to. -/
inductive Reports (w : World) (i : Nat) : Session → Prop where
  | nothing {s : Session} (none : w.writesBy i = [])
      (honest : ∀ cmd r, s = .returned cmd (.ok r) → r.replayed = true) :
      Reports w i s
  | posted {cmd : TransferCommand} {r : TransferResult} (p : Posting) (carries : p.Carries cmd)
      (sameID : r.transferID = p.id) (fresh : r.replayed = false) (writes : w.writesBy i = p.writes)
      (holds : w.db.Holds p) : Reports w i (.returned cmd (.ok r))
  | doubtful {cmd : TransferCommand} {err : GoError} (p : Posting) (carries : p.Carries cmd)
      (foreign : err.foreign = true) (writes : w.writesBy i = p.writes) (holds : w.db.Holds p) :
      Reports w i (.returned cmd (.error err))

namespace Reports

variable {w w' : World} {i : Nat} {s : Session}

theorem of_unsuccessful (none : w.writesBy i = []) (unsuccessful : s.Unsuccessful) :
    w.Reports i s :=
  .nothing none fun cmd r same => absurd same (unsuccessful.not_ok cmd r)

/-- Only a call that is over has committed anything. -/
theorem unspent (reports : w.Reports i s) (live : ¬ s.Over) : w.writesBy i = [] := by
  cases reports with
  | nothing none honest => exact none
  | posted p carries sameID fresh writes holds => exact absurd trivial live
  | doubtful p carries foreign writes holds => exact absurd trivial live

theorem mono (reports : w.Reports i s) (writes : w'.writesBy i = w.writesBy i)
    (grown : w.db.Extends w'.db) : w'.Reports i s := by
  cases reports with
  | nothing none honest => exact .nothing (writes.trans none) honest
  | posted p carries sameID fresh all holds =>
    exact .posted p carries sameID fresh (writes.trans all) (holds.mono grown)
  | doubtful p carries foreign all holds =>
    exact .doubtful p carries foreign (writes.trans all) (holds.mono grown)

end Reports

variable {w w' : World} {i : Nat} {a : Act}

/-- Where a commit leaves its own session. -/
theorem Reports.commits {call : Call} {attempt : Nat} {tx : OpenTx}
    {result : TransferResult} {s : Session} {outcome : CommitOutcome} (inv : w.Inv)
    (none : w.writesBy i = []) (was : w.sessions i = .running call attempt tx)
    (prog : tx.prog = .ret (.ok (), result)) (definite : (Act.commit i outcome).Definite)
    (now : outcome = .acknowledged ∧ s = .returned call.cmd (.ok result) ∨
      ∃ err, outcome = .lost err ∧ s = call.afterError attempt result
        (.wrap call.strategy.commitText err)) :
    ((w.apply i call tx result).set i s).Reports i s := by
  have writes : ((w.apply i call tx result).set i s).writesBy i = tx.writes := by
    have added : ((w.apply i call tx result).set i s).writesBy i = w.writesBy i ++ tx.writes := by
      simp [World.writesBy, apply, set, Committed.writesBy]
    rw [added, none, List.nil_append]
  have ended := definite.ended now
  obtain ⟨phase, txInv⟩ := inv.running was
  cases txInv.commits prog with
  | posted p carries all accepts locked =>
    have holds : ((w.apply i call tx ⟨p.id, createdResponse p.id, false⟩).set i s).db.Holds p := by
      change (w.db.after tx.writes).Holds p
      rw [all, Db.after_writes accepts.free]
      exact Db.holds_post accepts.free
    rcases ended with rfl | ⟨err, foreign, rfl⟩
    · exact .posted p carries rfl rfl (writes.trans all) holds
    · exact .doubtful p carries foreign (writes.trans all) holds
  | replayed row stored same completed empty =>
    refine .nothing (writes.trans empty) ?_
    rintro cmd r rfl
    rcases ended with same | ⟨err, -, same⟩
    · cases same
      rfl
    · cases same

/-- One act, when no commit in doubt is reported as a rollback. -/
theorem Move.reports (move : w.Move a w') (inv : w.Inv) (definite : a.Definite)
    (stepped : w.step a = some w') (reports : w.Reports i (w.sessions i)) :
    w'.Reports i (w'.sessions i) := by
  by_cases mine : a.session = some i
  · have none := reports.unspent (step_live mine stepped)
    cases move with
    | outside j s mine' was now kept =>
      cases mine.symm.trans mine'
      rw [sessions_set_self]
      exact .of_unsuccessful none now
    | begins j call attempt result was =>
      cases mine
      rw [sessions_set_self]
      exact .nothing none (by rintro cmd r ⟨⟩)
    | performs j c call attempt tx o next was prog free drawn =>
      cases mine
      rw [show (w.performed i call attempt tx o next c).sessions i = _ from sessions_set_self _]
      exact .nothing none (by rintro cmd r ⟨⟩)
    | aborts j s mine' call attempt tx was now kept =>
      cases mine.symm.trans mine'
      rw [sessions_set_self]
      exact .of_unsuccessful none now
    | commits j outcome call attempt tx result s was prog allowed now =>
      cases mine
      rw [sessions_set_self]
      exact Reports.commits inv none was prog definite now
    | opens b valid => cases mine
  · have same : w'.writesBy i = w.writesBy i := by
      cases move with
      | commits j outcome call attempt tx result s was prog allowed now =>
        have other : j ≠ i := by
          rintro rfl
          exact mine rfl
        simp [World.writesBy, apply, set, Committed.writesBy, other]
      | opens b valid => simp [World.writesBy, Committed.writesBy]
      | _ => rfl
    rw [move.sessions_other mine]
    exact reports.mono same (move.extends' inv)

/-- In every such run the end of a session tells what it has committed. -/
theorem runs_reports {acts : List Act} (inv : w.Inv) (definite : ∀ a ∈ acts, a.Definite)
    (ran : Txn.runs step w acts = some w') (reports : w.Reports i (w.sessions i)) :
    w'.Reports i (w'.sessions i) :=
  (Txn.runs_admissible Act.Definite (fun w : World => w.Inv ∧ w.Reports i (w.sessions i))
    (fun definite known stepped => ⟨step_inv known.1 stepped,
      (step_move stepped).reports known.1 definite stepped known.2⟩) definite ⟨inv, reports⟩ ran).2

end World

end WalletGo
