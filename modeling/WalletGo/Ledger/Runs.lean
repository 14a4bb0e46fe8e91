import WalletGo.Ledger.Journal
import WalletGo.Ledger.Serial

/-!
Whole runs of requests, from the empty database.

Whatever is asked and whatever fails, the database stays a journal of postings
in which every customer is solvent (`Sound`), and rows once written stay
(`serveAll_extends`).
-/

namespace WalletGo

/-- The invariant of runs: a journal, with every customer solvent. -/
structure Sound (db : Db) : Prop where
  journal : ∃ ps, Journal db ps
  solvent : db.Solvent

theorem Sound.empty : Sound .empty :=
  ⟨⟨[], Journal.empty⟩, fun _ mem => nomatch mem⟩

/-- One request keeps the ledger sound. -/
theorem Effect.sound {r : Request} {db db' : Db} (effect : Effect r db db') (sound : Sound db) :
    Sound db' := by
  obtain ⟨⟨ps, journal⟩, solvent⟩ := sound
  cases effect with
  | unchanged => exact ⟨⟨ps, journal⟩, solvent⟩
  | opened a valid =>
    exact ⟨⟨ps, journal.addAccount valid⟩, journal.solvent_addAccount solvent valid⟩
  | posted cmd asked p carries accepts =>
    exact ⟨⟨ps ++ [p], journal.post (.refl db) accepts⟩,
      journal.solvent_post solvent accepts.customer⟩

/-- So does any number of them. -/
theorem serveAll_sound {db : Db} (sound : Sound db) (requests : List Request) :
    Sound (serveAll db requests) := by
  induction requests generalizing db with
  | nil => exact sound
  | cons r rest ih => exact ih ((serve_effect db r).sound sound)

/-- One request keeps every row. -/
theorem Effect.extends {r : Request} {db db' : Db} (effect : Effect r db db') : db.Extends db' := by
  cases effect with
  | unchanged => exact .refl db
  | opened a valid => exact .addAccount db a
  | posted cmd asked p carries accepts => exact .post db p

theorem serveAll_extends (db : Db) (requests : List Request) :
    db.Extends (serveAll db requests) := by
  induction requests generalizing db with
  | nil => exact .refl db
  | cons r rest ih => exact (serve_effect db r).extends.trans (ih _)

/-- In every state a run reaches: each transfer has its two entries, of minus and
plus its positive amount on two different accounts; all entries sum to zero, so
the system's balances are minus the customers'; no customer is below zero; and
the transfers and entries of the state are there, unchanged, in every later one. -/
theorem ledger_invariants (requests later : List Request) :
    let db := serveAll .empty requests
    let db' := serveAll .empty (requests ++ later)
    (∀ t ∈ db.transfers, 0 < t.amountCents.toInt ∧ t.fromAccountID ≠ t.toAccountID ∧
      ∃ debit credit : EntryRow, db.entries.filter (·.transferID == t.id) = [debit, credit] ∧
        debit.accountID = t.fromAccountID ∧ debit.amountCents.toInt = -t.amountCents.toInt ∧
        credit.accountID = t.toAccountID ∧ credit.amountCents.toInt = t.amountCents.toInt) ∧
    db.total = 0 ∧ db.totalOf .system = -db.totalOf .customer ∧
    (∀ a ∈ db.accounts, a.kind = .customer → 0 ≤ db.sum a.id) ∧
    db.transfers <+: db'.transfers ∧ db.entries <+: db'.entries := by
  intro db db'
  obtain ⟨⟨ps, journal⟩, solvent⟩ := serveAll_sound Sound.empty requests
  have extended : db.Extends db' := by
    simp only [db', serveAll, List.foldl_append]
    exact serveAll_extends db later
  refine ⟨?_, journal.total_eq_zero, journal.totalOf_system, solvent, extended.transfers,
    extended.entries⟩
  intro t mem
  obtain ⟨p, posted, rfl, own⟩ := journal.entriesOf mem
  exact ⟨p.positive, p.distinct, p.debit, p.credit, own, rfl, toInt_neg_of_pos p.positive, rfl, rfl⟩

end WalletGo
