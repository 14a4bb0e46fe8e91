import Mathlib.Data.List.Sort
import WalletGo.App.Service
import WalletGo.Txn.Cursor

/-!
The statement of an account, page by page.

`EntryRepository.listByAccount` is one `SELECT`; `entries` is
`AccountService.Entries`, whose two statements may see different rows. When the ids
of the account's entries are distinct and positive, a page read with the id last
received as the cursor continues the statement where the client stands
(`entries_served`).
-/

namespace WalletGo

structure LedgerEntry where
  id : Nat
  transferID : UUID
  amountCents : Int64
deriving DecidableEq, Repr

def EntryRow.ledgerEntry (e : EntryRow) : LedgerEntry := ⟨e.id, e.transferID, e.amountCents⟩

structure EntriesPage where
  entries : List LedgerEntry
  nextAfter : Option Nat
deriving DecidableEq, Repr

/-- Where reading a page fails: in `Query` or at the end of the rows, or in `Scan`. -/
inductive ListFault where
  | query (err : GoError)
  | scan (err : GoError)
deriving DecidableEq, Repr

/-- `EntryRepository.ListByAccount`: `WHERE account_id = $1 AND id > $2 ORDER BY id LIMIT $3` -/
def listByAccount (fault : Option ListFault) (accountID : UUID) (afterID limit : Nat) (db : Db) :
    Except GoError (List LedgerEntry) :=
  match fault with
  | some (.query err) => .error (.wrap "postgres: list entries" err)
  | some (.scan err) => .error (.wrap "postgres: scan entry" err)
  | none =>
    let rows := db.entries.filter fun e => e.accountID == accountID && decide (afterID < e.id)
    .ok (((rows.insertionSort (·.id ≤ ·.id)).take limit).map (·.ledgerEntry))

def pageOf (limit : Nat) (rows : List LedgerEntry) : EntriesPage :=
  if limit < rows.length then ⟨rows.take limit, (rows[limit - 1]?).map (·.id)⟩
  else ⟨rows, none⟩

/-- `AccountService.Entries`, for a positive `limit`: `FindByID` sees `before` and
`ListByAccount` sees `db`. -/
def entries (find : Option GoError) (list : Option ListFault) (accountID : UUID)
    (afterID limit : Nat) (before db : Db) : Except GoError EntriesPage := do
  let _ ← AccountRepository.findByID find accountID before
  let rows ← listByAccount list accountID afterID (limit + 1) db
  return pageOf limit rows

/-! ### The whole statement -/

/-- The entries of an account, in the order they became visible. -/
def Db.entriesOf (db : Db) (accountID : UUID) : List EntryRow :=
  db.entries.filter (·.accountID == accountID)

/-- Every entry of the account, oldest id first. -/
def statement (accountID : UUID) (db : Db) : List LedgerEntry :=
  ((db.entriesOf accountID).insertionSort (·.id ≤ ·.id)).map (·.ledgerEntry)

/-- The ids of the account's entries are distinct and positive. -/
structure Db.Identified (db : Db) (accountID : UUID) : Prop where
  distinct : ((db.entriesOf accountID).map (·.id)).Nodup
  positive : ∀ e ∈ db.entriesOf accountID, 0 < e.id

namespace Db.Identified

variable {db : Db} {accountID : UUID} {received : List LedgerEntry}

/-- A statement lists the entries by ascending identifiers. -/
theorem statement_ascending (identified : db.Identified accountID) :
    Txn.Log.Ascending (·.id) (statement accountID db) :=
  List.pairwise_map.mpr (Txn.Log.ascending_insertionSort identified.distinct)

theorem statement_positive (identified : db.Identified accountID) :
    ∀ e ∈ statement accountID db, 0 < e.id := by
  intro e mem
  obtain ⟨row, present, rfl⟩ := List.mem_map.mp mem
  exact identified.positive row ((List.mem_insertionSort _).mp present)

/-- A page continues the statement behind what has been received. -/
theorem listByAccount_eq (identified : db.Identified accountID)
    (taken : received <+: statement accountID db) (limit : Nat) :
    listByAccount none accountID (Txn.Log.cursor (·.id) received) limit db =
      .ok (((statement accountID db).drop received.length).take limit) := by
  have above := identified.statement_ascending.filter_cursor identified.statement_positive taken
  rw [statement, List.filter_map] at above
  have rows : (db.entries.filter fun e => e.accountID == accountID &&
      decide (Txn.Log.cursor (·.id) received < e.id)) =
      (db.entriesOf accountID).filter fun e => decide (Txn.Log.cursor (·.id) received < e.id) := by
    rw [Db.entriesOf, List.filter_filter]
    congr 1
    funext e
    exact Bool.and_comm _ _
  simp only [listByAccount]
  rw [rows, Txn.Log.insertionSort_filter identified.distinct, List.map_take, statement, ← above]
  rfl

end Db.Identified

/-- The account's entries became visible in the order of their ids, which are positive. -/
structure Db.Ascending (db : Db) (accountID : UUID) : Prop where
  ascending : Txn.Log.Ascending (·.id) (db.entriesOf accountID)
  positive : ∀ e ∈ db.entriesOf accountID, 0 < e.id

namespace Db.Ascending

variable {db : Db} {accountID : UUID}

theorem identified (ascending : db.Ascending accountID) : db.Identified accountID where
  distinct := List.pairwise_map.mpr (ascending.ascending.imp Nat.ne_of_lt)
  positive := ascending.positive

/-- Where the rows are in order the statement is the table's own order. -/
theorem statement_eq (ascending : db.Ascending accountID) :
    statement accountID db = (db.entriesOf accountID).map (·.ledgerEntry) := by
  have sorted : (db.entriesOf accountID).insertionSort (·.id ≤ ·.id) = db.entriesOf accountID :=
    List.Pairwise.insertionSort_eq (ascending.ascending.imp Nat.le_of_lt)
  rw [statement, sorted]

end Db.Ascending

/-- What a page of at most `limit` entries says about a list of which it was made. -/
theorem pageOf_take {limit : Nat} (positive : 0 < limit) (rest : List LedgerEntry) :
    (pageOf limit (rest.take (limit + 1))).entries = rest.take limit ∧
      ((pageOf limit (rest.take (limit + 1))).nextAfter = none → rest.length ≤ limit) ∧
      ∀ id, (pageOf limit (rest.take (limit + 1))).nextAfter = some id →
        limit < rest.length ∧ (rest.take limit).getLast?.map (·.id) = some id := by
  unfold pageOf
  split
  · next more =>
    have long : limit < rest.length := by
      rw [List.length_take] at more
      omega
    refine ⟨by rw [List.take_take, Nat.min_eq_left (Nat.le_succ limit)], ?_, ?_⟩
    · intro ended
      have bound : limit - 1 < (rest.take (limit + 1)).length := by omega
      rw [List.getElem?_eq_getElem bound] at ended
      cases ended
    · intro id same
      refine ⟨long, ?_⟩
      rw [List.getLast?_eq_getElem?, List.length_take, Nat.min_eq_left (Nat.le_of_lt long),
        List.getElem?_take_of_lt (by omega), ← same, List.getElem?_take_of_lt (by omega)]
  · next last =>
    have short : rest.length ≤ limit := by
      rw [List.length_take] at last
      omega
    rw [List.take_of_length_le (by omega), List.take_of_length_le short]
    exact ⟨rfl, fun _ => short, nofun⟩

/-- The page is the last one, or goes on behind this id. -/
def EntriesPage.Reaches (page : EntriesPage) (id : Nat) : Prop :=
  page.nextAfter = none ∨ ∃ shown ∈ page.entries, id < shown.id

/-- A page shows every entry between its cursor and the end of what it reaches, whatever the
ids of the others are. -/
theorem entries_reached {find : Option GoError} {accountID : UUID} {afterID limit : Nat}
    {before db : Db} {page : EntriesPage}
    (read : entries find none accountID afterID limit before db = .ok page) (positive : 0 < limit)
    {e : EntryRow} (mem : e ∈ db.entriesOf accountID) (behind : afterID < e.id)
    (reaches : page.Reaches e.id) : e.ledgerEntry ∈ page.entries := by
  unfold entries at read
  cases found : AccountRepository.findByID find accountID before with
  | error err =>
    rw [found] at read
    cases read
  | ok account =>
    rw [found] at read
    cases read
    rw [List.map_take] at reaches ⊢
    set rows := db.entries.filter fun e => e.accountID == accountID && decide (afterID < e.id)
    set rest := (rows.insertionSort (·.id ≤ ·.id)).map (·.ledgerEntry)
    have total : Std.Total fun x y : EntryRow => x.id ≤ y.id := ⟨fun x y => Nat.le_total _ _⟩
    have trans : IsTrans EntryRow fun x y => x.id ≤ y.id := ⟨fun _ _ _ => Nat.le_trans⟩
    have sorted : rest.Pairwise (·.id ≤ ·.id) :=
      List.pairwise_map.mpr (List.pairwise_insertionSort _ rows)
    have present : e.ledgerEntry ∈ rest := by
      obtain ⟨mem, own⟩ := List.mem_filter.mp mem
      have selected : e ∈ rows := List.mem_filter.mpr ⟨mem, by simp [own, behind]⟩
      exact List.mem_map_of_mem ((List.mem_insertionSort _).mpr selected)
    obtain ⟨contents, last, -⟩ := pageOf_take positive rest
    rw [contents]
    rcases reaches with ended | ⟨shown, here, below⟩
    · rw [List.take_of_length_le (last ended)]
      exact present
    · rw [contents] at here
      exact Txn.Log.mem_take_of_lt sorted present here below

/-- `AccountService.Entries` with the id last received as the cursor, when the
list is read: the page is made of what follows in the statement. -/
theorem entries_eq_pageOf {db before : Db} {accountID : UUID} {had rest : List LedgerEntry}
    (identified : db.Identified accountID) (whole : had ++ rest = statement accountID db)
    (find : Option GoError) (limit : Nat) :
    entries find none accountID (Txn.Log.cursor (·.id) had) limit before db =
      (AccountRepository.findByID find accountID before).map
        fun _ => pageOf limit (rest.take (limit + 1)) := by
  have behind : (statement accountID db).drop had.length = rest := by rw [← whole, List.drop_left]
  unfold entries
  cases AccountRepository.findByID find accountID before with
  | error err => rfl
  | ok account =>
    rw [identified.listByAccount_eq ⟨rest, whole⟩, behind]
    rfl

/-- What a client has received after a page, when it had `had` before. -/
structure PageServed (accountID : UUID) (db : Db) (limit : Nat) (page : EntriesPage)
    (had received : List LedgerEntry) : Prop where
  advanced : received = (statement accountID db).take (had.length + limit)
  complete : page.nextAfter = none → received = statement accountID db
  continues : ∀ id, page.nextAfter = some id →
    page.entries.length = limit ∧ received.getLast?.map (·.id) = some id

/-- The page made of what follows `had` in the statement. -/
theorem pageOf_served {db : Db} {accountID : UUID} {had rest : List LedgerEntry}
    (whole : had ++ rest = statement accountID db) {limit : Nat} (positive : 0 < limit) :
    PageServed accountID db limit (pageOf limit (rest.take (limit + 1))) had
      (had ++ (pageOf limit (rest.take (limit + 1))).entries) := by
  obtain ⟨contents, last, more⟩ := pageOf_take positive rest
  refine ⟨?_, fun ended => ?_, fun id same => ?_⟩
  · rw [contents, ← whole, List.take_append, List.take_of_length_le (Nat.le_add_right _ _),
      Nat.add_sub_cancel_left]
  · rw [contents, List.take_of_length_le (last ended)]
    exact whole
  · obtain ⟨long, lastID⟩ := more id same
    rw [contents]
    refine ⟨by rw [List.length_take, Nat.min_eq_left (Nat.le_of_lt long)], ?_⟩
    have nonempty : rest.take limit ≠ [] := by
      rw [Ne, List.take_eq_nil_iff]
      rintro (none | none)
      · omega
      · rw [none] at long
        cases long
    rw [List.getLast?_append_of_ne_nil _ nonempty]
    exact lastID

/-- A page read with the id last received as the cursor continues the statement. -/
theorem entries_served {db before : Db} {accountID : UUID} (identified : db.Identified accountID)
    {had : List LedgerEntry} (taken : had <+: statement accountID db) {limit : Nat}
    (positive : 0 < limit) {find : Option GoError} {list : Option ListFault} {page : EntriesPage}
    (read : entries find list accountID (Txn.Log.cursor (·.id) had) limit before db = .ok page) :
    PageServed accountID db limit page had (had ++ page.entries) := by
  obtain ⟨rest, whole⟩ := taken
  match list with
  | none =>
    rw [entries_eq_pageOf identified whole] at read
    cases found : AccountRepository.findByID find accountID before with
    | error err =>
      rw [found] at read
      cases read
    | ok account =>
      rw [found] at read
      cases read
      exact pageOf_served whole positive
  | some (.query err) | some (.scan err) =>
    unfold entries at read
    cases found :
      AccountRepository.findByID find accountID before <;> rw [found] at read <;> cases read

/-! ### The walk through all pages -/

/-- A client that asks for page after page, the `n`-th with limit `limits n`, passing
each page's `NextAfter` on, until a page has none. `fuel` bounds the number of pages;
`none` is an error or a walk that has not ended. -/
def walk (accountID : UUID) (limits : Nat → Nat) (db : Db) : (fuel n afterID : Nat) →
    Option (List EntriesPage)
  | 0, _, _ => none
  | fuel + 1, n, afterID =>
    match entries none none accountID afterID (limits n) db db with
    | .error _ => none
    | .ok page =>
      match page.nextAfter with
      | none => some [page]
      | some next => (walk accountID limits db fuel (n + 1) next).map (page :: ·)

/-- The pages of a walk from the `n`-th on, when `rest` is still to be read. -/
structure Paged (limits : Nat → Nat) (n : Nat) (rest : List LedgerEntry)
    (pages : List EntriesPage) : Prop where
  contents : pages.flatMap (·.entries) = rest
  last : ∀ i page, pages[i]? = some page → (page.nextAfter = none ↔ i + 1 = pages.length)
  full : ∀ i page, pages[i]? = some page → i + 1 < pages.length →
    page.entries.length = limits (n + i)
  bounded : ∀ i page, pages[i]? = some page → page.entries.length ≤ limits (n + i)
  nonempty : ∀ page ∈ pages, page.entries = [] → rest = []

/-- The last page. -/
theorem Paged.single {limits : Nat → Nat} {n : Nat} {page : EntriesPage}
    (ended : page.nextAfter = none) (short : page.entries.length ≤ limits n) :
    Paged limits n page.entries [page] := by
  have only : ∀ i page', [page][i]? = some page' → i = 0 ∧ page' = page := by
    intro i page' at_i
    cases i with
    | zero => exact ⟨rfl, (Option.some.inj at_i).symm⟩
    | succ i => cases at_i
  refine ⟨by simp, ?_, ?_, ?_, ?_⟩
  · intro i page' at_i
    obtain ⟨rfl, rfl⟩ := only i page' at_i
    exact ⟨fun _ => rfl, fun _ => ended⟩
  · intro i page' at_i before
    obtain ⟨rfl, rfl⟩ := only i page' at_i
    exact absurd before (Nat.lt_irrefl _)
  · intro i page' at_i
    obtain ⟨rfl, rfl⟩ := only i page' at_i
    exact short
  · intro page' mem empty
    rw [List.mem_singleton.mp mem] at empty
    exact empty

/-- A full page in front of the pages that follow it. -/
theorem Paged.cons {limits : Nat → Nat} {n : Nat} {rest : List LedgerEntry} {page : EntriesPage}
    {pages : List EntriesPage} (more : page.nextAfter ≠ none)
    (full : page.entries.length = limits n) (positive : 0 < limits n) (remains : rest ≠ [])
    (paged : Paged limits (n + 1) rest pages) :
    Paged limits n (page.entries ++ rest) (page :: pages) := by
  have follows : pages ≠ [] := by
    rintro rfl
    exact remains paged.contents.symm
  have count : 0 < pages.length := List.length_pos_iff.mpr follows
  have shifted : ∀ i, n + 1 + i = n + (i + 1) := fun i => by omega
  refine ⟨by simp [paged.contents], ?_, ?_, ?_, ?_⟩
  · intro i page' at_i
    cases i with
    | zero =>
      cases at_i
      refine ⟨fun ended => absurd ended more, fun alone => ?_⟩
      rw [List.length_cons] at alone
      omega
    | succ i =>
      rw [List.length_cons, Nat.succ_inj]
      exact paged.last i page' at_i
  · intro i page' at_i before
    cases i with
    | zero =>
      cases at_i
      exact full
    | succ i =>
      rw [← shifted]
      exact paged.full i page' at_i (Nat.lt_of_succ_lt_succ before)
  · intro i page' at_i
    cases i with
    | zero =>
      cases at_i
      exact Nat.le_of_eq full
    | succ i =>
      rw [← shifted]
      exact paged.bounded i page' at_i
  · intro page' mem empty
    rcases List.mem_cons.mp mem with rfl | later
    · rw [empty] at full
      exact absurd full (Nat.ne_of_lt positive)
    · exact absurd (paged.nonempty page' later empty) remains

section Walk

variable {db : Db} {accountID : UUID} {limits : Nat → Nat}

/-- From anywhere in the statement the walk reads the rest of it. Every page takes
away at least one entry, so the number of entries left bounds the pages. -/
theorem walk_rest (identified : db.Identified accountID) {account : Account}
    (found : AccountRepository.findByID none accountID db = .ok account)
    (positive : ∀ n, 0 < limits n) (bound : Nat) :
    ∀ n had rest, had ++ rest = statement accountID db → rest.length < bound →
      ∃ pages, (∀ fuel, rest.length < fuel →
          walk accountID limits db fuel n (Txn.Log.cursor (·.id) had) = some pages) ∧
        Paged limits n rest pages := by
  induction bound with
  | zero =>
    intro n had rest _ short
    exact absurd short (Nat.not_lt_zero _)
  | succ bound ih =>
    intro n had rest whole bounded
    have read : entries none none accountID (Txn.Log.cursor (·.id) had) (limits n) db db = _ :=
      entries_eq_pageOf identified whole none (limits n)
    rw [found] at read
    have served := pageOf_served whole (positive n)
    obtain ⟨contents, last, more⟩ := pageOf_take (positive n) rest
    generalize pageOf (limits n) (rest.take (limits n + 1)) = page at read served contents last more
    cases next : page.nextAfter with
    | none =>
      have short := last next
      rw [List.take_of_length_le short] at contents
      refine ⟨[page], ?_, contents ▸ Paged.single next (contents ▸ short)⟩
      intro fuel enough
      cases fuel with
      | zero => exact absurd enough (Nat.not_lt_zero _)
      | succ fuel => simp only [walk, read, Except.map, next]
    | some id =>
      obtain ⟨full, lastID⟩ := served.continues id next
      obtain ⟨long, -⟩ := more id next
      have takes := positive n
      have cursor : Txn.Log.cursor (·.id) (had ++ page.entries) = id := by
        obtain ⟨e, at_end, rfl⟩ := Option.map_eq_some_iff.mp lastID
        rw [Txn.Log.cursor, at_end]
        rfl
      have split : page.entries ++ rest.drop (limits n) = rest := by
        rw [contents, List.take_append_drop]
      have fewer : (rest.drop (limits n)).length = rest.length - limits n := List.length_drop
      have remains : rest.drop (limits n) ≠ [] := by
        rw [Ne, List.drop_eq_nil_iff]
        omega
      obtain ⟨pages, walked, paged⟩ := ih (n + 1) (had ++ page.entries) (rest.drop (limits n))
        (by rw [List.append_assoc, split, whole]) (by omega)
      rw [cursor] at walked
      refine ⟨page :: pages, ?_, ?_⟩
      · intro fuel enough
        cases fuel with
        | zero => exact absurd enough (Nat.not_lt_zero _)
        | succ fuel =>
          have rest_walked := walked fuel (by omega)
          simp only [walk, read, Except.map, next, rest_walked, Option.map_some]
      · have front := paged.cons (by rw [next]; exact Option.some_ne_none id) full takes remains
        rw [split] at front
        exact front

/-- Paging reproduces the statement, whatever the limits: the walk ends, its pages
put together are the account's entries in ascending order of their ids and nothing
else, every page but the last is full, only the page of an empty statement is empty,
and `NextAfter` is missing exactly on the last page. -/
theorem walk_statement (identified : db.Identified accountID)
    (opened : ∃ a ∈ db.accounts, a.id = accountID) (positive : ∀ n, 1 ≤ limits n) :
    Txn.Log.Ascending (·.id) (statement accountID db) ∧
      (statement accountID db).Perm ((db.entriesOf accountID).map (·.ledgerEntry)) ∧
      ∃ pages, (∀ fuel, (statement accountID db).length < fuel →
          walk accountID limits db fuel 0 0 = some pages) ∧
        Paged limits 0 (statement accountID db) pages := by
  refine ⟨identified.statement_ascending, (List.perm_insertionSort _ _).map _, ?_⟩
  have found : ∃ a, AccountRepository.findByID none accountID db = .ok a := by
    obtain ⟨a, mem, same⟩ := opened
    cases row : db.accounts.find? (·.id == accountID) with
    | none =>
      have other := List.find?_eq_none.mp row a mem
      exact absurd (beq_iff_eq.mpr same) other
    | some a => exact ⟨a, by simp only [AccountRepository.findByID, row]⟩
  obtain ⟨account, found⟩ := found
  exact walk_rest identified found positive _ 0 [] (statement accountID db) rfl (Nat.lt_succ_self _)

end Walk

/-- Three entries of one account, stored out of order around an entry of another. -/
def Db.shuffled : Db :=
  { Db.empty with
    accounts := [⟨.ofByte 1, "alice", .customer, "BRL"⟩]
    entries := [⟨7, .zero, .ofByte 1, 30⟩, ⟨3, .zero, .ofByte 2, -30⟩, ⟨2, .zero, .ofByte 1, 10⟩,
      ⟨9, .zero, .ofByte 1, -5⟩] }

/-- The statement of an account whose rows stand out of order in the table. -/
theorem walk_statement_shuffled :
    (statement (.ofByte 1) Db.shuffled).map (·.id) = [2, 7, 9] ∧
      ∃ pages, (∀ fuel, (statement (.ofByte 1) Db.shuffled).length < fuel →
          walk (.ofByte 1) (fun n => if n = 0 then 2 else 1) Db.shuffled fuel 0 0 = some pages) ∧
        Paged (fun n => if n = 0 then 2 else 1) 0 (statement (.ofByte 1) Db.shuffled) pages := by
  have identified : Db.shuffled.Identified (.ofByte 1) := ⟨by decide, by decide⟩
  have opened : ∃ a ∈ Db.shuffled.accounts, a.id = .ofByte 1 := ⟨_, List.mem_singleton.mpr rfl, rfl⟩
  have positive : ∀ n, 1 ≤ if n = 0 then 2 else 1 := by
    intro n
    split <;> decide
  exact ⟨by decide, (walk_statement identified opened positive).2.2⟩

end WalletGo
