import WalletGo.World.EntryOrder

/-!
Commits in the order of the inserts.

The open transactions that have inserted an entry of an account stand in line, in the order
of their inserts. When every transaction that commits is the first in line, commits are in
order for the account (`World.KeepsLine.inOrder`): ids are drawn from the sequence in the
order of the inserts, so whoever stands behind has the larger id, and what is visible has
been inserted before all that stand in line (`World.Lined`).
-/

namespace WalletGo

def Session.entriesOf (s : Session) (accountID : UUID) : List EntryRow :=
  s.entries.filter (·.accountID == accountID)

/-- The line after an act that has led to `w`: a transaction leaves it when it ends and joins
it with its first insert. -/
def World.line (accountID : UUID) (line : List Nat) (a : Act) (w : World) : List Nat :=
  let stands i := !((w.sessions i).entriesOf accountID).isEmpty
  line.filter stands ++ a.session.toList.filter fun i => stands i && !line.contains i

/-- A commit that is applied is not that of somebody with others before it in line. -/
def Act.First (line : List Nat) : Act → Prop
  | .commit _ (.failed _) => True
  | .commit i _ => i ∈ line → line.head? = some i
  | _ => True

instance (line : List Nat) : (a : Act) → Decidable (a.First line)
  | .commit _ (.failed _) => .isTrue trivial
  | .commit i .acknowledged | .commit i (.lost _) =>
    inferInstanceAs (Decidable (i ∈ line → line.head? = some i))
  | .start .. | .begin .. | .perform .. | .rollback _ | .wake .. | .crash _ | .openAccount _ =>
    .isTrue trivial

def World.stepInLine (accountID : UUID) (s : World × List Nat) (a : Act) :
    Option (World × List Nat) :=
  (s.1.step a).map fun w => (w, w.line accountID s.2 a)

/-- Along a schedule of the transfers, from the start, the transactions with entries of the
account commit in the order of their inserts. -/
def World.KeepsLine (accountID : UUID) (acts : List Act) : Prop :=
  Txn.Respects (World.stepInLine accountID) (fun s a => a.First s.2) (.init .empty, []) acts

instance (accountID : UUID) (acts : List Act) : Decidable (World.KeepsLine accountID acts) :=
  inferInstanceAs (Decidable (Txn.Respects ..))

theorem Act.First.head {line : List Nat} {i : Nat} {outcome : CommitOutcome}
    (first : (Act.commit i outcome).First line) (applied : ∀ err, outcome ≠ .failed err)
    (mem : i ∈ line) : line.head? = some i := by
  cases outcome with
  | failed err => exact absurd rfl (applied err)
  | acknowledged => exact first mem
  | lost err => exact first mem

/-! ### One entry for an account -/

/-- An operation writes one entry or none. -/
theorem exec_entries (c : Choice) (visible latest : Db) (o : Op) :
    writtenEntries (exec c visible latest o).2 = [] ∨ ∃ transferID accountID amountCents,
      o = .insertEntry transferID accountID amountCents ∧
        writtenEntries (exec c visible latest o).2 =
          [⟨c.entryID, transferID, accountID, amountCents⟩] := by
  by_cases draws : o.drawsSequence
  · cases o with
    | insertEntry transferID accountID amountCents =>
      rcases insertUnless_cases (c := c) (latest.entryViolation transferID accountID amountCents)
        (.insertEntry ⟨c.entryID, transferID, accountID, amountCents⟩) with
        ⟨err, failed⟩ | ⟨-, inserted⟩
      · exact .inl (by rw [exec, failed]; rfl)
      · exact .inr ⟨_, _, _, rfl, by rw [exec, inserted]; rfl⟩
    | _ => cases draws
  · refine .inl (List.eq_nil_iff_forall_not_mem.mpr fun row mem => draws ?_)
    exact (exec_entry (mem_writtenEntries.mp mem)).1

/-- A transaction that is about to insert an entry has none for its account. -/
theorem TxInv.entry_first {w : World} {i : Nat} {call : Call} {tx : OpenTx}
    {phase : Phase call.amount} (txInv : TxInv w i call tx phase) {transferID accountID : UUID}
    {amountCents : Int64} {next : (Op.insertEntry transferID accountID amountCents).Reply →
      Txn.Prog sql (Except GoError Unit × TransferResult)}
    (prog : tx.prog = .op (.insertEntry transferID accountID amountCents) next) {row : EntryRow}
    (mem : row ∈ writtenEntries tx.writes) : row.accountID ≠ accountID := by
  have here := txInv.follows
  rw [prog] at here
  have performs := here.1
  have facts := txInv.facts
  cases phase with
  | insertDebit k =>
    obtain ⟨⟨st, same⟩, -⟩ := facts
    rw [same] at mem
    cases mem
  | insertCredit k =>
    obtain ⟨⟨st, same⟩, -⟩ := facts
    rw [same] at mem
    cases List.mem_singleton.mp mem
    cases performs
    exact (validate_ok call.valid).2.2
  | _ => cases performs

/-! ### The line -/

namespace World

variable {accountID : UUID} {w w' : World} {a : Act} {line : List Nat}

/-- What a session has written for the account after a step it had written before, or it is
the first it writes and has just been drawn. -/
theorem Move.entriesOf_session (move : w.Move a w') (inv : w.Inv) (accountID : UUID) (j : Nat) :
    (w'.sessions j).entriesOf accountID ⊆ (w.sessions j).entriesOf accountID ∨
      a.session = some j ∧ (w.sessions j).entriesOf accountID = [] ∧
        ∀ row ∈ (w'.sessions j).entriesOf accountID, w.sequence < row.id := by
  have left {s : Session} (none : s.entries = []) :
      s.entriesOf accountID ⊆ (w.sessions j).entriesOf accountID := by
    rw [Session.entriesOf, none]
    exact List.nil_subset _
  by_cases mine : a.session = some j
  · cases move with
    | outside i s mine' was now kept =>
      cases mine.symm.trans mine'
      rw [sessions_set_self]
      exact .inl (left now.no_entries)
    | begins i call attempt result was =>
      cases mine
      rw [sessions_set_self]
      exact .inl (left rfl)
    | performs i c call attempt tx o next was prog free drawn =>
      cases mine
      obtain ⟨phase, txInv⟩ := inv.running was
      have now : ((w.performed j call attempt tx o next c).sessions j).entriesOf accountID =
          (w.sessions j).entriesOf accountID ++
            (writtenEntries (tx.answer call.strategy w.db c o).2).filter
            (·.accountID == accountID) := by
        rw [show (w.performed j call attempt tx o next c).sessions j = _ from sessions_set_self _,
          was,
          Session.entriesOf, Session.entriesOf, Session.entries, Session.entries, OpenTx.advance,
          writtenEntries_append, List.filter_append]
      rcases exec_entries c ((tx.base call.strategy w.db).after tx.writes)
        (w.db.after tx.writes) o with
        none | ⟨transferID, other, amountCents, rfl, one⟩
      · rw [now, OpenTx.answer, none]
        exact .inl (List.append_nil _ ▸ List.Subset.refl _)
      · by_cases own : other = accountID
        · subst own
          have before : (w.sessions j).entriesOf other = [] := by
            refine List.eq_nil_iff_forall_not_mem.mpr fun row mem => ?_
            rw [was] at mem
            obtain ⟨written, same⟩ := List.mem_filter.mp mem
            exact txInv.entry_first prog written (by simpa using same)
          refine .inr ⟨rfl, before, fun row mem => ?_⟩
          rw [now, before, OpenTx.answer, one, List.nil_append] at mem
          cases List.mem_singleton.mp (List.mem_filter.mp mem).1
          exact drawn rfl
        · rw [now, OpenTx.answer, one, List.filter_cons_of_neg (by simpa using own)]
          exact .inl (List.append_nil _ ▸ List.Subset.refl _)
    | aborts i s mine' call attempt tx was now kept =>
      cases mine.symm.trans mine'
      rw [sessions_set_self]
      exact .inl (left now.no_entries)
    | commits i outcome call attempt tx result s was prog allowed now =>
      cases mine
      rw [sessions_set_self]
      rcases now with ⟨-, rfl⟩ | ⟨err, -, rfl⟩
      · exact .inl (left rfl)
      · exact .inl (left (call.afterError_unsuccessful _ _ _).no_entries)
    | opens b valid => cases mine
  · rw [move.sessions_other mine]
    exact .inl (List.Subset.refl _)

/-- A step makes nothing of the account visible but what the session has written that it
commits, and leaves. -/
theorem Move.entriesOf_visible (move : w.Move a w') (accountID : UUID) :
    w'.db.entriesOf accountID = w.db.entriesOf accountID ∨
      ∃ (i : Nat) (outcome : CommitOutcome), a = .commit i outcome ∧
        (∀ err, outcome ≠ .failed err) ∧ (w'.sessions i).entriesOf accountID = [] ∧
        w'.db.entriesOf accountID = w.db.entriesOf accountID ++
          (w.sessions i).entriesOf accountID := by
  cases move with
  | commits i outcome call attempt tx result s was prog allowed now =>
    refine .inr ⟨i, outcome, rfl, ?_, ?_, ?_⟩
    · rintro err rfl
      rcases now with ⟨same, -⟩ | ⟨err', same, -⟩ <;> cases same
    · rw [sessions_set_self]
      rcases now with ⟨-, rfl⟩ | ⟨err, -, rfl⟩
      · rfl
      · rw [Session.entriesOf, (call.afterError_unsuccessful _ _ _).no_entries]
        rfl
    · change (w.db.after tx.writes).entriesOf accountID = _
      rw [Db.entriesOf, Db.after_entries, List.filter_append, was]
      rfl
  | _ => exact .inl rfl

/-- Who stands behind in line has the larger ids, and nobody in line one below what is
visible. -/
structure Lined (accountID : UUID) (w : World) (line : List Nat) : Prop where
  inv : w.Inv
  numbered : w.Numbered
  stands : ∀ i, i ∈ line ↔ (w.sessions i).entriesOf accountID ≠ []
  ordered : line.Pairwise fun i j => ∀ row ∈ (w.sessions i).entriesOf accountID,
    ∀ row' ∈ (w.sessions j).entriesOf accountID, row.id < row'.id
  above : ∀ i, ∀ row ∈ (w.sessions i).entriesOf accountID,
    ∀ e ∈ w.db.entriesOf accountID, e.id < row.id

theorem Lined.init : Lined accountID (.init .empty) [] where
  inv := .init _
  numbered := .init
  stands _ := ⟨nofun, fun some => absurd rfl some⟩
  ordered := .nil
  above _ _ mem := nomatch mem

theorem Lined.drawn (lined : w.Lined accountID line) {i : Nat} {row : EntryRow}
    (mem : row ∈ (w.sessions i).entriesOf accountID) : row.id ≤ w.sequence :=
  (lined.numbered.written i row (List.mem_filter.mp mem).1).2

theorem mem_line {i : Nat} : i ∈ w.line accountID line a ↔
    (w.sessions i).entriesOf accountID ≠ [] ∧ (i ∈ line ∨ a.session = some i) := by
  simp only [World.line, List.mem_append, List.mem_filter, Option.mem_toList, Bool.and_eq_true,
    Bool.not_eq_true', List.isEmpty_eq_false_iff, List.contains_eq_mem, decide_eq_false_iff_not]
  constructor
  · rintro (⟨old, some⟩ | ⟨mine, some, -⟩)
    · exact ⟨some, .inl old⟩
    · exact ⟨some, .inr mine⟩
  · rintro ⟨some, old⟩
    by_cases stood : i ∈ line
    · exact .inl ⟨stood, some⟩
    · exact .inr ⟨old.resolve_left stood, some, stood⟩

/-- Who gets into the line stands behind with the larger identifiers. -/
theorem Lined.ordered_step (lined : w.Lined accountID line) (move : w.Move a w') :
    (w'.line accountID line a).Pairwise fun i j => ∀ row ∈ (w'.sessions i).entriesOf accountID,
      ∀ row' ∈ (w'.sessions j).entriesOf accountID, row.id < row'.id := by
  -- who stands in line has written nothing new
  have kept :
      ∀ i ∈ line, (w'.sessions i).entriesOf accountID ⊆ (w.sessions i).entriesOf accountID := by
    intro i mem
    refine (move.entriesOf_session lined.inv accountID i).resolve_right ?_
    rintro ⟨-, none, -⟩
    exact (lined.stands i).mp mem none
  refine List.pairwise_append.mpr ⟨?_, ?_, ?_⟩
  · refine (lined.ordered.imp_of_mem fun {i j} memi memj ordered row mem row' mem' => ?_).filter _
    exact ordered row (kept i memi mem) row' (kept j memj mem')
  · refine List.Pairwise.filter _ ?_
    cases a.session with
    | none => exact .nil
    | some i => exact List.pairwise_singleton _ _
  · intro i old j new row mem row' mem'
    obtain ⟨stood, -⟩ := List.mem_filter.mp old
    have joins : j ∉ line := by
      have joins := (List.mem_filter.mp new).2
      simp only [Bool.and_eq_true, Bool.not_eq_true', List.contains_eq_mem,
        decide_eq_false_iff_not] at joins
      exact joins.2
    have drawn := lined.drawn (kept i stood mem)
    rcases move.entriesOf_session lined.inv accountID j with sub | ⟨-, -, fresh⟩
    · exact absurd ((lined.stands j).mpr (List.ne_nil_of_mem (sub mem'))) joins
    · exact Nat.lt_of_le_of_lt drawn (fresh row' mem')

/-- Who commits first leaves everybody else above what is committed. -/
theorem Lined.above_step (lined : w.Lined accountID line) (move : w.Move a w')
    (first : a.First line) :
    ∀ j, ∀ row ∈ (w'.sessions j).entriesOf accountID,
      ∀ e ∈ w'.db.entriesOf accountID, e.id < row.id := by
  intro j row mem e visible
  -- against what was visible before
  have old : e ∈ w.db.entriesOf accountID → e.id < row.id := by
    intro before
    rcases move.entriesOf_session lined.inv accountID j with sub | ⟨-, -, fresh⟩
    · exact lined.above j row (sub mem) e before
    · have drawn := (lined.numbered.committed e (List.mem_filter.mp before).1).2
      exact Nat.lt_of_le_of_lt drawn (fresh row mem)
  rcases move.entriesOf_visible accountID with same | ⟨i, outcome, rfl, applied, left, added⟩
  · exact old (same ▸ visible)
  · rw [added] at visible
    rcases List.mem_append.mp visible with before | new
    · exact old before
    · -- the first in line commits, and `j` stands behind it
      have others : j ≠ i := by
        rintro rfl
        rw [left] at mem
        cases mem
      have sub := (move.entriesOf_session lined.inv accountID j).resolve_right
        fun own => others (Option.some.inj own.1).symm
      have head := first.head applied ((lined.stands i).mpr (List.ne_nil_of_mem new))
      obtain ⟨rest, rfl⟩ := List.head?_eq_some_iff.mp head
      have behind :=
        (List.mem_cons.mp ((lined.stands j).mpr (List.ne_nil_of_mem (sub mem)))).resolve_left others
      exact (List.pairwise_cons.mp lined.ordered).1 j behind e new row (sub mem)

/-- One act of a run that keeps the line. -/
theorem Lined.step (lined : w.Lined accountID line) (first : a.First line)
    (stepped : w.step a = some w') : w'.Lined accountID (w'.line accountID line a) := by
  have move := step_move stepped
  refine ⟨move.inv lined.inv, move.numbered lined.inv lined.numbered, fun i => ?_,
    lined.ordered_step move, lined.above_step move first⟩
  rw [mem_line, and_iff_left_iff_imp]
  intro some
  rcases move.entriesOf_session lined.inv accountID i with sub | ⟨mine, -, -⟩
  · refine .inl ((lined.stands i).mpr fun none => some ?_)
    exact List.subset_nil.mp (none ▸ sub)
  · exact .inr mine

/-- In line every commit is in order. -/
theorem Lined.inOrder (lined : w.Lined accountID line) (a : Act) : w.InOrder accountID a := by
  cases a with
  | commit i outcome =>
    refine .of_applied fun _ row mem own e visible => ?_
    exact lined.above i row (List.mem_filter.mpr ⟨mem, by simpa using own⟩) e visible
  | _ => trivial

/-- A run that keeps the line has its commits in order. -/
theorem Lined.respects (lined : w.Lined accountID line) {acts : List Act}
    (keeps : Txn.Respects (stepInLine accountID) (fun s a => a.First s.2) (w, line) acts) :
    Txn.Respects World.step (World.InOrder accountID) w acts := by
  induction acts generalizing w line with
  | nil => trivial
  | cons a rest ih =>
    refine ⟨lined.inOrder a, fun w' stepped => ih (lined.step keeps.1 stepped) (keeps.2 _ ?_)⟩
    rw [stepInLine, stepped]
    rfl

/-- Commits in the order of the inserts are in the order of the ids. -/
theorem KeepsLine.inOrder {acts : List Act} (keeps : KeepsLine accountID acts) :
    Txn.Respects World.step (World.InOrder accountID) (.init .empty) acts :=
  Lined.init.respects keeps

end World

end WalletGo
