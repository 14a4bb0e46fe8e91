import WalletGo.Ledger.Executes
import WalletGo.World.Invariant

/-!
Failed calls leave no trace.

`World.without i` is the world as it would be without session `i`. The acts of a
session that never commits do not change it (`World.without_own`), and every act of
the others is enabled there and does the same (`World.without_step`); so a run
with the acts of such a session left out arrives at the same tables.
-/

namespace WalletGo

open Txn (Prog)

namespace World

/-- The world without session `i`, whose sequence values it has not drawn. -/
def without (w : World) (i sequence : Nat) : World where
  db := w.db
  sequence := sequence
  locks := w.locks.filter fun entry => entry.1 != i
  sessions j := if j = i then .idle else w.sessions j
  log := w.log

variable {w w' : World} {i j sequence : Nat} {a : Act}

theorem without_sessions (other : j ≠ i) : (w.without i sequence).sessions j = w.sessions j :=
  if_neg other

/-- Sessions apart from `i` go on as before without it. -/
theorem without_set (w : World) (sequence : Nat) (other : j ≠ i) (s : Session) :
    (w.set j s).without i sequence = (w.without i sequence).set j s := by
  simp only [without, set, World.mk.injEq, true_and, and_true]
  funext k
  by_cases own : k = i
  · simp [own, other.symm]
  · simp [own]

theorem without_set_self (w : World) (i sequence : Nat) (s : Session) :
    (w.set i s).without i sequence = w.without i sequence := by
  simp only [without, set, World.mk.injEq, true_and, and_true]
  funext k
  by_cases own : k = i
  · simp [own]
  · simp [own]

theorem without_release : (w.release j).without i sequence = (w.without i sequence).release j := by
  simp only [without, release, List.filter_filter, Bool.and_comm]

theorem without_release_self : (w.release i).without i sequence = w.without i sequence := by
  simp only [without, release, List.filter_filter, Bool.and_self]

theorem without_apply (call : Call) (tx : OpenTx) (result : TransferResult) :
    (w.apply j call tx result).without i sequence = (w.without i sequence).apply j call
    tx result := by
  simp only [without, apply, release, List.filter_filter, Bool.and_comm]

/-- An operation of another session is the same without `i`. -/
theorem without_performed (other : j ≠ i) (call : Call) (attempt : Nat) (tx : OpenTx) (o : Op)
    (next : o.Reply → Prog sql (Except GoError Unit × TransferResult)) (c : Choice) :
    (w.performed j call attempt tx o next c).without i (if o.drawsSequence then
      c.entryID else sequence) =
      (w.without i sequence).performed j call attempt tx o next c := by
  have kept : (List.map (fun lock => (j, lock))
      (o.acquires (tx.answer call.strategy w.db c o).1)).filter (fun entry => entry.1 != i) =
        List.map (fun lock => (j, lock)) (o.acquires (tx.answer call.strategy w.db c o).1) := by
    rw [List.filter_eq_self]
    intro entry mem
    obtain ⟨lock, -, rfl⟩ := List.mem_map.mp mem
    simpa using other
  have sessions := congrArg World.sessions (without_set w sequence other
    (.running call attempt (tx.advance call.strategy w.db w.log.length o next c)))
  simp only [without, performed, List.filter_append, kept]
  congr 1

theorem without_performed_self (call : Call) (attempt : Nat) (tx : OpenTx) (o : Op)
    (next : o.Reply → Prog sql (Except GoError Unit × TransferResult)) (c : Choice) :
    (w.performed i call attempt tx o next c).without i sequence = w.without i sequence := by
  have sessions := congrArg World.sessions (without_set_self w i sequence
    (.running call attempt (tx.advance call.strategy w.db w.log.length o next c)))
  have dropped : (List.map (fun lock => (i, lock))
      (o.acquires (tx.answer call.strategy w.db c o).1)).filter (fun entry =>
      entry.1 != i) = [] := by
    rw [List.filter_eq_nil_iff]
    intro entry mem
    obtain ⟨lock, -, rfl⟩ := List.mem_map.mp mem
    simp
  simp only [without, performed, List.filter_append, dropped, List.append_nil]
  congr 1

theorem without_blocked {o : Op} (free : w.blocked j o = false) :
    (w.without i sequence).blocked j o = false := by
  rw [Bool.eq_false_iff] at free ⊢
  intro waits
  refine free ?_
  simp only [blocked, List.any_eq_true] at waits ⊢
  obtain ⟨entry, mem, waits⟩ := waits
  exact ⟨entry, (List.mem_filter.mp mem).1, waits⟩

/-- An operation that can be performed can be without `i`, with other sequence values. -/
theorem without_perform {call : Call} {attempt : Nat} {tx : OpenTx} {c : Choice} (other : j ≠ i)
    (drawn : sequence ≤ w.sequence) (stepped : w.perform j call attempt tx c = some w') :
    ∃ sequence', sequence' ≤ w'.sequence ∧
      (w.without i sequence).perform j call attempt tx c = some (w'.without i sequence') := by
  unfold perform at stepped ⊢
  split at stepped
  · cases stepped
  · next o next prog =>
    split at stepped
    · cases stepped
    · next enabled =>
      cases stepped
      simp only [Bool.or_eq_true, not_or, Bool.and_eq_true, decide_eq_true_eq, not_and, Nat.not_le,
        Bool.not_eq_true] at enabled
      refine ⟨if o.drawsSequence then c.entryID else sequence, ?_, ?_⟩
      · simp only [performed]
        split
        · exact Nat.le_refl _
        · exact drawn
      · have later : ¬ (((c.fault.isNone && (w.without i sequence).blocked j o) ||
            (o.drawsSequence && decide (c.entryID ≤ sequence))) = true) := by
          simp only [Bool.or_eq_true, not_or, Bool.and_eq_true, decide_eq_true_eq,
            not_and, Nat.not_le, Bool.not_eq_true]
          exact ⟨fun healthy => without_blocked (enabled.1 healthy),
            fun draws => Nat.lt_of_le_of_lt drawn (enabled.2 draws)⟩
        rw [without_performed other]
        exact if_neg later

theorem without_commit {call : Call} {attempt : Nat} {tx : OpenTx} {outcome : CommitOutcome}
    (other : j ≠ i) (stepped : w.commit j call attempt tx outcome = some w') :
    (w.without i sequence).commit j call attempt tx outcome = some (w'.without i sequence) := by
  have same : (w.without i sequence).refused call tx = w.refused call tx := rfl
  unfold commit at stepped ⊢
  split at stepped
  · split at stepped
    · cases stepped
      rw [without_set _ _ other, without_release]
    · rw [same]
      split at stepped
      · cases stepped
      · next allowed =>
        cases stepped
        rw [if_neg allowed, without_set _ _ other, without_apply]
    · rw [same]
      split at stepped
      · cases stepped
      · next allowed =>
        cases stepped
        rw [if_neg allowed, without_set _ _ other, without_apply]
  · cases stepped

/-- What the others do, they can do without session `i`, to the same effect. -/
theorem without_step (other : a.session ≠ some i) (drawn : sequence ≤ w.sequence)
    (stepped : w.step a = some w') :
    ∃ sequence', sequence' ≤ w'.sequence ∧
      (w.without i sequence).step a = some (w'.without i sequence') := by
  have distinct : ∀ {j}, a.session = some j → j ≠ i := by
    rintro j mine rfl
    exact other mine
  have drawn' : sequence ≤ w'.sequence := drawn.trans (step_move stepped).sequence_le
  cases a with
  | start j executor cmd =>
    have apart := distinct rfl
    refine ⟨sequence, drawn', ?_⟩
    simp only [step, without_sessions apart] at stepped ⊢
    split at stepped
    · split at stepped
      · cases stepped
        rw [without_set _ _ apart]
      · cases stepped
        rw [without_set _ _ apart]
    · cases stepped
  | begin j fault =>
    have apart := distinct rfl
    refine ⟨sequence, drawn', ?_⟩
    simp only [step, without_sessions apart] at stepped ⊢
    split at stepped
    · cases stepped
      rw [without_set _ _ apart]
    · cases stepped
      rw [without_set _ _ apart]
    · cases stepped
  | perform j c =>
    have apart := distinct rfl
    simp only [step, without_sessions apart] at stepped ⊢
    split at stepped
    · exact without_perform apart drawn stepped
    · cases stepped
  | rollback j =>
    have apart := distinct rfl
    refine ⟨sequence, drawn', ?_⟩
    simp only [step, without_sessions apart] at stepped ⊢
    split at stepped
    · split at stepped
      · cases stepped
        rw [without_set _ _ apart, without_release]
      · cases stepped
    · cases stepped
  | commit j outcome =>
    have apart := distinct rfl
    refine ⟨sequence, drawn', ?_⟩
    simp only [step, without_sessions apart] at stepped ⊢
    split at stepped
    · exact without_commit apart stepped
    · cases stepped
  | wake j cancelled =>
    have apart := distinct rfl
    refine ⟨sequence, drawn', ?_⟩
    simp only [step, without_sessions apart] at stepped ⊢
    split at stepped
    · cases stepped
      rw [without_set _ _ apart]
    · cases stepped
      rw [without_set _ _ apart]
    · cases stepped
  | crash j =>
    have apart := distinct rfl
    refine ⟨sequence, drawn', ?_⟩
    simp only [step, without_sessions apart] at stepped ⊢
    split at stepped
    · cases stepped
      rw [without_set _ _ apart]
    · cases stepped
      rw [without_set _ _ apart]
    · cases stepped
      rw [without_set _ _ apart, without_release]
    · cases stepped
  | openAccount b =>
    refine ⟨sequence, drawn', ?_⟩
    simp only [step] at stepped ⊢
    split at stepped
    · cases stepped
    · next valid =>
      cases stepped
      exact if_neg valid

end World

/-- The act makes no commit of session `i` take effect. -/
def Act.Quiet (i : Nat) (a : Act) : Prop :=
  a ≠ .commit i .acknowledged ∧ ∀ err, a ≠ .commit i (.lost err)

namespace World

variable {w w' : World} {i sequence : Nat} {a : Act} {acts : List Act} {origin : Db}

/-- What session `i` does short of a commit is not seen without it. -/
theorem without_own (move : w.Move a w') (mine : a.session = some i) (quiet : a.Quiet i) :
    w'.without i sequence = w.without i sequence := by
  cases move with
  | outside j s mine' was now kept =>
    cases mine.symm.trans mine'
    exact without_set_self w i sequence s
  | begins j call attempt result was =>
    cases mine
    exact without_set_self w i sequence _
  | performs j c call attempt tx o next was prog free drawn =>
    cases mine
    exact without_performed_self call attempt tx o next c
  | aborts j s mine' call attempt tx was now kept =>
    cases mine.symm.trans mine'
    rw [without_set_self, without_release_self]
  | commits j outcome call attempt tx result s was prog allowed now =>
    cases mine
    rcases now with ⟨rfl, -⟩ | ⟨err, rfl, -⟩
    · exact absurd rfl quiet.1
    · exact absurd rfl (quiet.2 err)
  | opens b valid => cases mine

/-- A session that never commits can be left out of the run. -/
theorem runs_without (quiet : ∀ a ∈ acts, a.Quiet i)
    (ran : Txn.runs step (.init origin) acts = some w) :
    ∃ sequence, Txn.runs step (.init origin) (acts.filter fun a => a.session ≠ some i) =
      some (w.without i sequence) := by
  have initially : (World.init origin).without i 0 = .init origin := by
    simp [without, World.init]
  suffices erased :
      ∃ w', Txn.runs step (.init origin) (acts.filter fun a => a.session ≠ some i) = some w' ∧
      ∃ sequence, sequence ≤ w.sequence ∧ w' = w.without i sequence by
    obtain ⟨_, ran', sequence, -, rfl⟩ := erased
    exact ⟨sequence, ran'⟩
  refine Txn.runs_erase (Act.Quiet i) (fun a => a.session ≠ some i)
    (fun w w' => ∃ sequence, sequence ≤ w.sequence ∧ w' = w.without i sequence) ?_ ?_ quiet
    ⟨0, Nat.le_refl _, initially.symm⟩ ran
  · rintro w _ w' a quiet own ⟨sequence, drawn, rfl⟩ stepped
    have move := step_move stepped
    have mine : a.session = some i := by simpa using own
    exact ⟨sequence, drawn.trans move.sequence_le, (without_own move mine quiet).symm⟩
  · rintro w _ w' a visible ⟨sequence, drawn, rfl⟩ stepped
    have other : a.session ≠ some i := by simpa using visible
    obtain ⟨sequence', drawn', stepped'⟩ := without_step other drawn stepped
    exact ⟨_, stepped', sequence', drawn', rfl⟩

/-- A call that has returned stays so. -/
theorem runs_returned {cmd : TransferCommand} {reply : Except GoError TransferResult}
    (was : w.sessions i = .returned cmd reply) (ran : Txn.runs step w acts = some w') :
    w'.sessions i = .returned cmd reply := by
  refine Txn.runs_invariant (fun w : World => w.sessions i = .returned cmd reply) ?_ was ran
  intro w w' a was stepped
  have other : a.session ≠ some i := fun mine => step_live mine stepped (by rw [was]; trivial)
  rw [(step_move stepped).sessions_other other]
  exact was

/-- A call whose commit was acknowledged has returned success. -/
theorem acknowledged_returns (mem : .commit i .acknowledged ∈ acts)
    (ran : Txn.runs step w acts = some w') : ∃ cmd r, w'.sessions i = .returned cmd (.ok r) := by
  obtain ⟨before, after, rfl⟩ := List.append_of_mem mem
  obtain ⟨m, -, ran⟩ := Txn.runs_append_iff.mp ran
  obtain ⟨m', stepped, ran⟩ := Txn.runs_cons_iff.mp ran
  have returned : ∃ cmd r, m'.sessions i = .returned cmd (.ok r) := by
    simp only [step, commit] at stepped
    split at stepped
    · split at stepped
      · split at stepped
        · cases stepped
        · cases stepped
          exact ⟨_, _, sessions_set_self _⟩
      · cases stepped
    · cases stepped
  obtain ⟨cmd, r, returned⟩ := returned
  exact ⟨cmd, r, runs_returned returned ran⟩

end World

/-! ### All or nothing -/

def Committed.writesBy (i : Nat) : Committed → List Write
  | .call j _ tx _ => if j = i then tx.writes else []
  | .account _ => []

def World.writesBy (w : World) (i : Nat) : List Write := w.log.flatMap (·.writesBy i)

/-- Every row of the posting is in the tables. -/
structure Db.Holds (db : Db) (p : Posting) : Prop where
  key : db.keyRow p.key = some p.keyRow
  transfer : p.transferRow ∈ db.transfers
  debit : p.debit ∈ db.entries
  credit : p.credit ∈ db.entries
  event : p.event ∈ db.outbox

theorem Db.Holds.mono {db db' : Db} {p : Posting} (holds : db.Holds p) (grown : db.Extends db') :
    db'.Holds p where
  key := grown.keyRow holds.key
  transfer := grown.transfers.subset holds.transfer
  debit := grown.entries.subset holds.debit
  credit := grown.entries.subset holds.credit
  event := grown.outbox.subset holds.event

/-- A posting that has been made is there. -/
theorem Db.holds_post {db : Db} {p : Posting} (free : db.keyRow p.key = none) :
    (db.post p).Holds p where
  key := by rw [Db.keyRow_post, free, if_pos rfl]; rfl
  transfer := List.mem_append_right _ (List.mem_singleton_self _)
  debit := by simp [Db.post, Posting.entries]
  credit := by simp [Db.post, Posting.entries]
  event := List.mem_append_right _ (List.mem_singleton_self _)

namespace World

variable {w w' : World} {i : Nat} {a : Act}

/-- A session keeps to the command it was called with, unless it crashes. -/
theorem Move.command (move : w.Move a w') {cmd : TransferCommand}
    (was : (w.sessions i).command = some cmd) :
    w'.sessions i = .crashed ∨ (w'.sessions i).command = some cmd := by
  by_cases mine : a.session = some i
  · cases move with
    | outside j s mine' calm now kept =>
      cases mine.symm.trans mine'
      rw [sessions_set_self]
      rcases kept with continues | ⟨-, -, -, idle, -⟩
      · exact continues.command cmd was
      · rw [idle] at was
        cases was
    | begins j call attempt result ready =>
      cases mine
      rw [ready] at was
      rw [sessions_set_self]
      exact .inr was
    | performs j c call attempt tx o next running prog free drawn =>
      cases mine
      rw [running] at was
      rw [show (w.performed i call attempt tx o next c).sessions i = _ from sessions_set_self _]
      exact .inr was
    | aborts j s mine' call attempt tx running now kept =>
      cases mine.symm.trans mine'
      rw [sessions_set_self]
      exact kept.command cmd was
    | commits j outcome call attempt tx result s running prog allowed now =>
      cases mine
      rw [running] at was
      rw [sessions_set_self]
      rcases now with ⟨-, rfl⟩ | ⟨err, -, rfl⟩
      · exact .inr was
      · rw [Call.afterError_command]
        exact .inr was
    | opens b valid => cases mine
  · rw [move.sessions_other mine]
    exact .inr was

/-- What a step adds to what session `i` has committed: nothing, or the writes of
its transaction. -/
theorem Move.writesBy (move : w.Move a w') (i : Nat) :
    w'.writesBy i = w.writesBy i ∨ ∃ call attempt tx result,
      w.sessions i = .running call attempt tx ∧ tx.prog = .ret (.ok (), result) ∧
        w'.writesBy i = w.writesBy i ++ tx.writes ∧ w'.db = w.db.after tx.writes := by
  cases move with
  | commits j outcome call attempt tx result s was prog allowed now =>
    by_cases mine : j = i
    · subst mine
      refine .inr ⟨call, attempt, tx, result, was, prog, ?_, rfl⟩
      simp [World.writesBy, apply, set, Committed.writesBy]
    · exact .inl (by simp [World.writesBy, apply, set, Committed.writesBy, mine])
  | opens b valid => exact .inl (by simp [World.writesBy, Committed.writesBy])
  | _ => exact .inl rfl

/-- Session `i` has committed nothing, or the whole posting of its command. -/
def Whole (w : World) (i : Nat) : Prop :=
  w.writesBy i = [] ∨ ∃ p : Posting, w.writesBy i = p.writes ∧ w.db.Holds p ∧
    (w.sessions i = .crashed ∨ ∃ cmd, (w.sessions i).command = some cmd ∧ p.Carries cmd)

/-- An act that commits nothing for the session leaves it whole. -/
theorem Whole.kept (whole : w.Whole i) (inv : w.Inv) (stepped : w.step a = some w')
    (same : w'.writesBy i = w.writesBy i) : w'.Whole i := by
  have move := step_move stepped
  rcases whole with none | ⟨p, all, holds, course⟩
  · exact .inl (same.trans none)
  · refine .inr ⟨p, same.trans all, holds.mono (move.extends' inv), ?_⟩
    rcases course with crashed | ⟨cmd, called, carries⟩
    · have other : a.session ≠ some i := fun mine =>
        step_live mine stepped (by rw [crashed]; trivial)
      exact .inl ((move.sessions_other other).trans crashed)
    · rcases move.command called with crashed | called
      · exact .inl crashed
      · exact .inr ⟨cmd, called, carries⟩

/-- Every act commits the whole posting or nothing. -/
theorem Whole.step (whole : w.Whole i) (inv : w.Inv) (stepped : w.step a = some w') :
    w'.Whole i := by
  have move := step_move stepped
  rcases move.writesBy i with same | ⟨call, attempt, tx, result, was, prog, more, db⟩
  · exact whole.kept inv stepped same
  obtain ⟨phase, txInv⟩ := inv.running was
  have called : (w.sessions i).command = some call.cmd := by rw [was]; rfl
  cases txInv.commits prog with
  | replayed row stored same completed writes =>
    exact whole.kept inv stepped (by rw [more, writes, List.append_nil])
  | posted p carries writes accepts locked =>
    rw [writes] at more
    rw [writes, Db.after_writes accepts.free] at db
    rcases whole with none | ⟨q, -, holds, course⟩
    · rw [none, List.nil_append] at more
      refine .inr ⟨p, more, ?_, ?_⟩
      · rw [db]
        exact Db.holds_post accepts.free
      · rcases move.command called with crashed | still
        · exact .inl crashed
        · exact .inr ⟨call.cmd, still, carries⟩
    · -- a session that has executed its command finds its own key
      rcases course with crashed | ⟨cmd, same, carries'⟩
      · rw [was] at crashed
        cases crashed
      · cases called.symm.trans same
        have taken := holds.key
        rw [carries'.key, ← carries.key, accepts.free] at taken
        cases taken

/-- In every run a session has committed its whole posting or nothing. -/
theorem runs_whole {origin : Db} {acts : List Act}
    (ran : Txn.runs step (.init origin) acts = some w) (i : Nat) : w.Whole i :=
  (Txn.runs_invariant (fun w : World => w.Inv ∧ w.Whole i)
    (fun known stepped => ⟨step_inv known.1 stepped, known.2.step known.1 stepped⟩)
    ⟨Inv.init origin, .inl rfl⟩ ran).2

end World

/-- Failed requests leave no trace. Take any run, from any tables, with any faults,
in which a call returns an error and none of its commits is left in doubt: the run
without that call arrives at the same tables and the same answers to everybody
else; the call's locks are gone; and the same command tried again, where its key is
free, executes rather than replays if it succeeds, and does succeed where nothing
stands in its way. If a commit is left in doubt, the call has committed nothing
or its whole posting. -/
theorem failed_leaves_no_trace {origin : Db} {acts : List Act} {w : World}
    (ran : Txn.runs World.step (.init origin) acts = some w) {i : Nat} {cmd : TransferCommand}
    {err : GoError} (failed : w.sessions i = .returned cmd (.error err)) :
    ((∀ lost, .commit i (.lost lost) ∉ acts) →
      (∃ w', Txn.runs World.step (.init origin) (acts.filter fun a => a.session ≠ some i) =
        some w' ∧ w'.db = w.db ∧ ∀ j ≠ i, w'.sessions j = w.sessions j) ∧
      w.heldBy i = [] ∧
      (w.db.keyRow cmd.key = none → ∀ e attempts r db',
        (∀ n lost, (attempts n).commit ≠ .lost lost) →
        transfer e attempts cmd w.db = (.ok r, db') → r.replayed = false) ∧
      (w.db.Admits cmd → Int64Range (w.db.sum cmd.fromAccountID) →
        ∀ e attempts, (attempts 1).Healthy w.db → ∃ p : Posting, p.Carries cmd ∧
          transfer e attempts cmd w.db = (.ok ⟨p.id, createdResponse p.id, false⟩, w.db.post p))) ∧
    (w.writesBy i = [] ∨ ∃ p : Posting, p.Carries cmd ∧ w.writesBy i = p.writes ∧
      w.db.Holds p) := by
  constructor
  · intro definite
    have quiet : ∀ a ∈ acts, a.Quiet i := by
      intro a mem
      constructor
      · rintro rfl
        obtain ⟨_, _, succeeded⟩ := World.acknowledged_returns mem ran
        rw [failed] at succeeded
        cases succeeded
      · rintro lost rfl
        exact definite lost mem
    obtain ⟨sequence, erased⟩ := World.runs_without quiet ran
    refine ⟨⟨_, erased, rfl, fun j other => World.without_sessions other⟩, ?_, ?_, ?_⟩
    · exact (World.runs_inv ran).outside (by rw [failed]; simp)
    · intro free e attempts r db' definite succeeded
      exact transfer_not_replayed definite free succeeded
    · intro admits fits e attempts healthy
      obtain ⟨p, carries, -, executes⟩ := transfer_executes e admits fits healthy
      exact ⟨p, carries, executes⟩
  · rcases World.runs_whole ran i with none | ⟨p, all, holds, course⟩
    · exact .inl none
    · refine .inr ⟨p, ?_, all, holds⟩
      rw [failed] at course
      rcases course with impossible | ⟨_, same, carries⟩
      · cases impossible
      · cases same
        exact carries

namespace DiskFull

open Scenario

/-- A deposit that fails at the last of its three inserts. -/
def acts : List Act :=
  opened ++ [.start 0 (.serializable 10) payIn, .begin 0 none] ++ performs 0 3 0 8 ++
  [.perform 0 ⟨some (.pgError "53100" "disk full"), .ofByte 3, 9, 0⟩, .rollback 0]

def failure : Session → Option (TransferCommand × GoError)
  | .returned cmd (.error err) => some (cmd, err)
  | _ => none

theorem returned_of_failure {s : Session} {cmd : TransferCommand} {err : GoError}
    (failed : failure s = some (cmd, err)) : s = .returned cmd (.error err) := by
  unfold failure at failed
  split at failed
  · cases failed
    rfl
  · cases failed

end DiskFull

open Scenario DiskFull in
/-- A deposit fails half way through its inserts, and the run without it goes the same. -/
theorem failed_leaves_no_trace_disk_full :
    ∃ w w', Txn.runs World.step (.init .empty) acts = some w ∧
      w.sessions 0 = .returned payIn (.error
        (.wrap "postgres: insert credit entry" (.pgError "53100" "disk full"))) ∧
      Txn.runs World.step (.init .empty) (acts.filter fun a => a.session ≠ some 0) = some w' ∧
      w'.db = w.db := by
  have observed : ((Txn.runs World.step (.init .empty) acts).map fun w => failure (w.sessions 0)) =
      some (some (payIn, .wrap "postgres: insert credit entry"
        (.pgError "53100" "disk full"))) := by
    decide +kernel
  obtain ⟨w, ran, failed⟩ := Option.map_eq_some_iff.mp observed
  have failed := returned_of_failure failed
  obtain ⟨⟨w', erased, same, -⟩, -⟩ :=
    (failed_leaves_no_trace ran failed).1 (by simp [acts, opened, performs])
  exact ⟨w, w', ran, failed, erased, same⟩

end WalletGo
