import Mathlib.Algebra.BigOperators.Group.List.Lemmas
import WalletGo.Ledger.Facts

/-!
The database as a journal: a list of postings and nothing else.

`Journal db ps` says that the rows of `transfers`, `entries`, `idempotency_keys`
and `outbox` are those of the postings `ps`, in order. It holds of the empty
database and is kept by account creations and accepted postings, at either
isolation level. What the ledger promises about its rows is read off the list of
postings: each transfer has its two entries (`Journal.entriesOf`), all entries
sum to zero (`Journal.total_eq_zero`), the system's balance mirrors the customers'
(`Journal.totalOf_system`).
-/

namespace WalletGo

structure Journal (db : Db) (ps : List Posting) : Prop where
  transfers : db.transfers = ps.map (·.transferRow)
  entries : db.entries = ps.flatMap (·.entries)
  keys : db.keys = ps.map (·.keyRow)
  outbox : db.outbox = ps.map (·.event)
  distinctKeys : (ps.map (·.key)).Nodup
  distinctIDs : (ps.map (·.id)).Nodup
  distinctEvents : (ps.map (·.eventID)).Nodup
  distinctAccounts : (db.accounts.map (·.id)).Nodup
  known : ∀ p ∈ ps, (db.kindOf p.source).isSome ∧ (db.kindOf p.target).isSome

namespace Db

theorem kindOf_of_mem {db : Db} (distinct : (db.accounts.map (·.id)).Nodup) {a : Account}
    (mem : a ∈ db.accounts) : db.kindOf a.id = some a.kind := by
  unfold kindOf
  generalize db.accounts = accounts at distinct mem
  induction accounts with
  | nil => cases mem
  | cons b rest ih =>
    rw [List.map_cons, List.nodup_cons] at distinct
    rcases List.mem_cons.mp mem with rfl | mem
    · simp
    · have other : b.id ≠ a.id := fun same => distinct.1 (same ▸ List.mem_map_of_mem mem)
      simpa [List.find?_cons, other] using ih distinct.2 mem

theorem mem_of_kindOf {db : Db} {id : UUID} {kind : AccountKind}
    (known : db.kindOf id = some kind) : ∃ a ∈ db.accounts, a.id = id ∧ a.kind = kind := by
  obtain ⟨a, found, rfl⟩ := Option.map_eq_some_iff.mp known
  exact ⟨a, List.mem_of_find?_eq_some found, by simpa using List.find?_some found, rfl⟩

theorem kindOf_isSome {db : Db} {id : UUID} :
    (db.kindOf id).isSome ↔ id ∈ db.accounts.map (·.id) := by
  simp [kindOf, List.mem_map]

end Db

namespace Journal

variable {db : Db} {ps : List Posting}

theorem empty : Journal .empty [] := by
  constructor <;> simp [Db.empty]

theorem key_free (journal : Journal db ps) {key : IdempotencyKey} :
    db.keyRow key = none ↔ key ∉ ps.map (·.key) := by
  rw [Db.keyRow_eq_none, journal.keys]
  simp [List.mem_map]

/-- A posting that the database accepts goes to the end of the journal. -/
theorem post (journal : Journal db ps) {base : Db} {p : Posting} (extends' : base.Extends db)
    (accepts : base.Accepts db p) : Journal (db.post p) (ps ++ [p]) where
  transfers := by simp [Db.post, journal.transfers]
  entries := by simp [Db.post, journal.entries]
  keys := by simp [Db.post, journal.keys]
  outbox := by simp [Db.post, journal.outbox]
  distinctKeys := by
    have unused := journal.key_free.mp accepts.free
    rw [List.map_append, List.nodup_append]
    exact ⟨journal.distinctKeys, by simp, by simpa [List.mem_map] using unused⟩
  distinctIDs := by
    have unused := accepts.freshID
    rw [journal.transfers] at unused
    rw [List.map_append, List.nodup_append]
    exact ⟨journal.distinctIDs, by simp, by simpa [Posting.transferRow] using unused⟩
  distinctEvents := by
    have unused := accepts.freshEvent
    rw [journal.outbox] at unused
    rw [List.map_append, List.nodup_append]
    exact ⟨journal.distinctEvents, by simp, by simpa [Posting.event] using unused⟩
  distinctAccounts := journal.distinctAccounts
  known := by
    intro q mem
    rcases List.mem_append.mp mem with mem | mem
    · exact journal.known q mem
    · obtain rfl := List.mem_singleton.mp mem
      obtain ⟨kind, _, source, _⟩ := accepts.funded
      obtain ⟨kind', target⟩ := Option.isSome_iff_exists.mp accepts.target
      exact ⟨by simp [extends'.kindOf source], by simp [extends'.kindOf target]⟩

/-- A new account leaves the journal as it is. -/
theorem addAccount (journal : Journal db ps) {a : Account} (valid : db.accountViolation a = none) :
    Journal (db.addAccount a) ps where
  transfers := journal.transfers
  entries := journal.entries
  keys := journal.keys
  outbox := journal.outbox
  distinctKeys := journal.distinctKeys
  distinctIDs := journal.distinctIDs
  distinctEvents := journal.distinctEvents
  distinctAccounts := by
    have unused := (Db.accountViolation_free valid).1
    simp only [Db.addAccount, List.map_append, List.nodup_append]
    exact ⟨journal.distinctAccounts, by simp, by simpa using unused⟩
  known := by
    intro p mem
    obtain ⟨source, target⟩ := journal.known p mem
    rw [Db.kindOf_isSome] at source target
    simp only [Db.kindOf_isSome, Db.addAccount, List.map_append]
    exact ⟨List.mem_append_left _ source, List.mem_append_left _ target⟩

/-! ### Reading the ledger off the postings -/

/-- The entries that belong to a posting are its debit and its credit. -/
theorem entries_filter {ps : List Posting} (distinct : (ps.map (·.id)).Nodup) {p : Posting}
    (mem : p ∈ ps) : (ps.flatMap (·.entries)).filter (·.transferID == p.id) = p.entries := by
  have own : ∀ q : Posting, q.id = p.id → q.entries.filter (·.transferID == p.id) = q.entries := by
    intro q same
    simp [Posting.entries, Posting.debit, Posting.credit, same]
  have foreign : ∀ q : Posting, q.id ≠ p.id → q.entries.filter (·.transferID == p.id) = [] := by
    intro q other
    simp [Posting.entries, Posting.debit, Posting.credit, other]
  induction ps with
  | nil => cases mem
  | cons q rest ih =>
    rw [List.map_cons, List.nodup_cons] at distinct
    rw [List.flatMap_cons, List.filter_append]
    rcases List.mem_cons.mp mem with rfl | mem
    · have none : (rest.flatMap (·.entries)).filter (·.transferID == p.id) = [] := by
        rw [List.filter_flatMap, List.flatMap_eq_nil_iff]
        intro r memRest
        exact foreign r fun same => distinct.1 (same ▸ List.mem_map_of_mem memRest)
      rw [own p rfl, none, List.append_nil]
    · have other : q.id ≠ p.id := fun same => distinct.1 (same ▸ List.mem_map_of_mem mem)
      rw [foreign q other, ih distinct.2 mem, List.nil_append]

/-- The entries of a transfer are those of its posting. -/
theorem entriesOf (journal : Journal db ps) {t : TransferRow} (mem : t ∈ db.transfers) :
    ∃ p ∈ ps, t = p.transferRow ∧ db.entries.filter (·.transferID == t.id) = p.entries := by
  rw [journal.transfers] at mem
  obtain ⟨p, posted, rfl⟩ := List.mem_map.mp mem
  refine ⟨p, posted, rfl, ?_⟩
  rw [journal.entries]
  exact entries_filter journal.distinctIDs posted

end Journal

namespace Db

def total (db : Db) : Int := (db.entries.map fun e => e.amountCents.toInt).sum

def totalOf (db : Db) (kind : AccountKind) : Int :=
  ((db.accounts.filter fun a => a.kind == kind).map fun a => db.sum a.id).sum

/-- Every customer's balance is non-negative. -/
def Solvent (db : Db) : Prop := ∀ a ∈ db.accounts, a.kind = .customer → 0 ≤ db.sum a.id

end Db

/-- A posting takes from its source and adds to its target. -/
theorem Posting.effect_eq (p : Posting) (id : UUID) :
    p.effect id = (if id = p.source then -p.amount.toInt else 0) +
      (if id = p.target then p.amount.toInt else 0) := by
  unfold Posting.effect
  by_cases fromSource : id = p.source
  · have notTarget : id ≠ p.target := fun same => p.distinct (fromSource ▸ same)
    rw [if_pos fromSource, if_pos fromSource, if_neg notTarget, Int.add_zero]
  · rw [if_neg fromSource, if_neg fromSource, Int.zero_add]

theorem sum_map_single {ids : List UUID} (distinct : ids.Nodup) {id : UUID} (mem : id ∈ ids)
    (value : Int) : (ids.map fun i => if i = id then value else 0).sum = value := by
  induction ids with
  | nil => cases mem
  | cons i rest ih =>
    rw [List.nodup_cons] at distinct
    rw [List.map_cons, List.sum_cons]
    rcases List.mem_cons.mp mem with rfl | mem
    · have none : (rest.map fun i => if i = id then value else 0).sum = 0 := by
        apply List.sum_eq_zero
        intro n memMap
        obtain ⟨j, memRest, rfl⟩ := List.mem_map.mp memMap
        have other : j ≠ id := fun same => distinct.1 (same ▸ memRest)
        exact if_neg other
      rw [if_pos rfl, none, Int.add_zero]
    · have other : i ≠ id := fun same => distinct.1 (same ▸ mem)
      rw [if_neg other, ih distinct.2 mem, Int.zero_add]

namespace Journal

variable {db : Db} {ps : List Posting}

/-- All balances add up to zero. -/
theorem total_eq_zero (journal : Journal db ps) : db.total = 0 := by
  unfold Db.total
  rw [journal.entries]
  clear journal
  induction ps with
  | nil => rfl
  | cons p rest ih =>
    rw [List.flatMap_cons, List.map_append, List.sum_append, ih]
    simp [Posting.entries, Posting.debit, Posting.credit, toInt_neg_of_pos p.positive]

/-- A balance is what the postings have added to the account. -/
theorem sum_eq (journal : Journal db ps) (id : UUID) : db.sum id = (ps.map (·.effect id)).sum := by
  unfold Db.sum
  rw [journal.entries]
  clear journal
  induction ps with
  | nil => rfl
  | cons p rest ih =>
    rw [List.flatMap_cons, Db.sumOf_append, Db.sumOf_entries, ih, List.map_cons, List.sum_cons]

/-- Over all accounts, the balances add up to zero. -/
theorem sum_balances (journal : Journal db ps) :
    (db.accounts.map fun a => db.sum a.id).sum = 0 := by
  have accounts : (db.accounts.map fun a => db.sum a.id) =
      (db.accounts.map (·.id)).map fun id => Db.sumOf (ps.flatMap (·.entries)) id := by
    simp [Db.sum, journal.entries]
  have known := journal.known
  simp only [Db.kindOf_isSome] at known
  have distinct := journal.distinctAccounts
  rw [accounts]
  generalize db.accounts.map (·.id) = ids at known distinct
  clear accounts journal
  induction ps with
  | nil => simp [Db.sumOf]
  | cons p rest ih =>
    obtain ⟨source, target⟩ := known p List.mem_cons_self
    simp only [List.flatMap_cons, Db.sumOf_append, Db.sumOf_entries, Posting.effect_eq,
      List.sum_map_add, sum_map_single distinct source, sum_map_single distinct target,
      ih fun q mem => known q (List.mem_cons_of_mem _ mem)]
    omega

/-- What the customers have is what the system account is short of. -/
theorem totalOf_system (journal : Journal db ps) : db.totalOf .system = -db.totalOf .customer := by
  have split : db.totalOf .customer + db.totalOf .system =
      (db.accounts.map fun a => db.sum a.id).sum := by
    unfold Db.totalOf
    generalize (fun a : Account => db.sum a.id) = balance
    induction db.accounts with
    | nil => rfl
    | cons a rest ih =>
      rw [List.map_cons, List.sum_cons, ← ih]
      cases kind : a.kind <;> simp [kind] <;> omega
  rw [journal.sum_balances] at split
  omega

theorem sum_unknown (journal : Journal db ps) {id : UUID} (unknown : id ∉ db.accounts.map (·.id)) :
    db.sum id = 0 := by
  have absent : ∀ e ∈ db.entries, e.accountID ≠ id := by
    rintro e mem rfl
    rw [journal.entries] at mem
    obtain ⟨p, posted, mem⟩ := List.mem_flatMap.mp mem
    obtain ⟨source, target⟩ := journal.known p posted
    rw [Db.kindOf_isSome] at source target
    rcases List.mem_cons.mp mem with rfl | mem
    · exact unknown source
    · obtain rfl := List.mem_singleton.mp mem
      exact unknown target
  have none : db.entries.filter (·.accountID == id) = [] := by
    simpa [List.filter_eq_nil_iff] using absent
  simp [Db.sum, Db.sumOf, none]

/-- A posting that takes no more than a customer has leaves every customer
solvent. -/
theorem solvent_post (journal : Journal db ps) (solvent : db.Solvent) {p : Posting}
    (enough : db.kindOf p.source = some .customer → p.amount.toInt ≤ db.sum p.source) :
    (db.post p).Solvent := by
  intro a mem customer
  have before := solvent a mem customer
  have positive := p.positive
  rw [Db.sum_post]
  unfold Posting.effect
  split
  · next same =>
    have known := Db.kindOf_of_mem journal.distinctAccounts mem
    rw [same, customer] at known
    have := enough known
    rw [same]
    omega
  · split <;> omega

theorem solvent_addAccount (journal : Journal db ps) (solvent : db.Solvent) {a : Account}
    (valid : db.accountViolation a = none) : (db.addAccount a).Solvent := by
  intro b mem customer
  rw [Db.sum_addAccount]
  rcases List.mem_append.mp mem with mem | mem
  · exact solvent b mem customer
  · obtain rfl := List.mem_singleton.mp mem
    rw [journal.sum_unknown (Db.accountViolation_free valid).1]

end Journal

end WalletGo
