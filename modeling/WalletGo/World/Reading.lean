import WalletGo.World.Line

/-!
A client that pages through an account's statement while transfers go on.

`Reading` is the world together with one client of `AccountService.Entries`, which
asks for the entries behind the last id it has received. Reads change nothing for
the transfers, so one client stands for any number. As long as commits are in order
for the account, the client has received an initial part of the account's statement
(`Reading.Stable`), and a page without `NextAfter` leaves it with all of it. The
locking strategy commits in order (`locking_cursor_stable`); the serializable one does
when transactions commit in the order of their inserts (`cursor_stable_in_line`), which
nothing makes them do (`entry_missed`).
-/

namespace WalletGo

/-- A call of `Entries` between its two statements. -/
structure PageRead where
  limit : Nat
  positive : 0 < limit
  find : Option GoError
  /-- The rows `FindByID` has seen. -/
  before : Db

structure Reading where
  world : World
  call : Option PageRead
  /-- What the last call of `Entries` returned. -/
  answer : Option (Except GoError EntriesPage)
  received : List LedgerEntry

inductive ReadAct where
  | turn (a : Act)
  | ask (limit : Nat) (find : Option GoError)
  | list (fault : Option ListFault)

def EntriesPage.contents : Except GoError EntriesPage → List LedgerEntry
  | .ok page => page.entries
  | .error _ => []

namespace Reading

def init : Reading := ⟨.init .empty, none, none, []⟩

/-- One act of the transfers or of the client, which asks for pages of positive size
only, one at a time. -/
def step (accountID : UUID) (r : Reading) : ReadAct → Option Reading
  | .turn a => (r.world.step a).map fun w => { r with world := w }
  | .ask limit find =>
    if asks : 0 < limit ∧ r.call.isNone then
      some { r with call := some ⟨limit, asks.1, find, r.world.db⟩ }
    else none
  | .list fault =>
    r.call.map fun call =>
      let answer := entries call.find fault accountID (Txn.Log.cursor (·.id) r.received) call.limit
        call.before r.world.db
      { r with
        call := none
        answer := some answer
        received := r.received ++ EntriesPage.contents answer }

/-- The transfers' next commit is in order for the account. -/
def InOrder (accountID : UUID) (r : Reading) : ReadAct → Prop
  | .turn a => r.world.InOrder accountID a
  | .ask .. | .list _ => True

end Reading

def ReadAct.transfer : ReadAct → Option Act
  | .turn a => some a
  | .ask .. | .list _ => none

def ReadAct.Uses (kind : Executor → Prop) : ReadAct → Prop
  | .turn a => a.Uses kind
  | .ask .. | .list _ => True

instance (kind : Executor → Prop) [DecidablePred kind] : (a : ReadAct) → Decidable (a.Uses kind)
  | .turn a => inferInstanceAs (Decidable (a.Uses kind))
  | .ask .. | .list _ => .isTrue trivial

/-! ### What a client has received -/

/-- No entry of the account that is visible later has an id below one that is visible now. -/
def NoneBelow (accountID : UUID) (now later : Db) : Prop :=
  ∀ e ∈ now.entriesOf accountID, ∀ e' ∈ later.entriesOf accountID, e' ∉ now.entriesOf accountID →
    e.id < e'.id

/-- The client has received the beginning of the statement, each entry once and in
order, and its next page will continue it. -/
structure Reading.Complete (accountID : UUID) (r : Reading) : Prop where
  ascending : Txn.Log.Ascending (·.id) (statement accountID r.world.db)
  taken : r.received <+: statement accountID r.world.db
  served : ∀ call fault r' page, r.call = some call → r.step accountID (.list fault) = some r' →
    r'.answer = some (.ok page) → PageServed accountID r.world.db call.limit page
    r.received r'.received

structure Reading.Stable (accountID : UUID) (r : Reading) : Prop where
  orderly : r.world.Orderly
  ascending : r.world.db.Ascending accountID
  taken : r.received <+: statement accountID r.world.db

namespace Reading

variable {accountID : UUID} {r r' : Reading} {a : ReadAct}

theorem Stable.init : Stable accountID .init where
  orderly := .init
  ascending := ⟨.nil, nofun⟩
  taken := List.prefix_refl _

/-- A read leaves the world as it is. -/
theorem step_world (stepped : r.step accountID a = some r') :
    (∃ b, a = .turn b ∧ r.world.step b = some r'.world ∧ r'.received = r.received) ∨
      (∀ b, a ≠ .turn b) ∧ r'.world = r.world := by
  cases a with
  | turn b =>
    obtain ⟨w, moved, rfl⟩ := Option.map_eq_some_iff.mp stepped
    exact .inl ⟨b, rfl, moved, rfl⟩
  | ask limit find =>
    refine .inr ⟨nofun, ?_⟩
    simp only [step] at stepped
    split at stepped
    · cases stepped
      rfl
    · cases stepped
  | list fault =>
    obtain ⟨call, pending, rfl⟩ := Option.map_eq_some_iff.mp stepped
    exact .inr ⟨nofun, rfl⟩

/-- Between two states of the transfers the account's entries grow at the end. -/
theorem Stable.grown (stable : r.Stable accountID) {b : Act} {w : World}
    (moved : r.world.step b = some w) :
    r.world.db.entriesOf accountID <+: w.db.entriesOf accountID :=
  ((World.step_move moved).extends' stable.orderly.inv).entries.filter _

/-- A page continues what has been received. -/
theorem Stable.page (stable : r.Stable accountID) {call : PageRead} {fault : Option ListFault}
    {page : EntriesPage}
    (read : entries call.find fault accountID (Txn.Log.cursor (·.id) r.received)
      call.limit call.before r.world.db = .ok page) :
    PageServed accountID r.world.db call.limit page r.received (r.received ++ page.entries) :=
  entries_served stable.ascending.identified stable.taken call.positive read

/-- What has been received is the beginning of the statement. -/
theorem Stable.complete (stable : r.Stable accountID) : r.Complete accountID where
  ascending := stable.ascending.identified.statement_ascending
  taken := stable.taken
  served call fault r' page pending stepped answered := by
    simp only [step, pending, Option.map_some, Option.some.injEq] at stepped
    subst stepped
    have read := Option.some.inj answered
    rw [read]
    exact stable.page read

/-- What the client has after a step is the beginning of the statement if it was. -/
theorem Stable.taken_step (stable : r.Stable accountID) (read : ∀ b, a ≠ .turn b)
    (stepped : r.step accountID a = some r') : r'.received <+: statement accountID r.world.db := by
  cases a with
  | turn b => exact absurd rfl (read b)
  | ask limit find =>
    simp only [Reading.step] at stepped
    split at stepped
    · cases stepped
      exact stable.taken
    · cases stepped
  | list fault =>
    obtain ⟨call, pending, rfl⟩ := Option.map_eq_some_iff.mp stepped
    generalize answer :
      entries call.find fault accountID (Txn.Log.cursor (·.id) r.received) call.limit
      call.before r.world.db = reply
    cases reply with
    | error err =>
      simp only [EntriesPage.contents, List.append_nil]
      exact stable.taken
    | ok page =>
      simp only [EntriesPage.contents]
      rw [(stable.page answer).advanced]
      exact List.take_prefix _ _

/-- One act of a run whose commits are in order. -/
theorem Stable.step (stable : r.Stable accountID) (inOrder : r.InOrder accountID a)
    (stepped : r.step accountID a = some r') : r'.Stable accountID := by
  rcases step_world stepped with ⟨b, rfl, moved, same⟩ | ⟨read, world⟩
  · have move := World.step_move moved
    have ascending :=
      move.ascending stable.orderly.inv stable.orderly.numbered inOrder stable.ascending
    refine ⟨move.orderly stable.orderly, ascending, ?_⟩
    rw [same, ascending.statement_eq]
    refine stable.taken.trans ?_
    rw [stable.ascending.statement_eq]
    exact (stable.grown moved).map _
  · have taken := stable.taken_step read stepped
    rw [← world] at taken
    exact ⟨world ▸ stable.orderly, world ▸ stable.ascending, taken⟩

/-- The account's entries only grow at the end, also over reads. -/
theorem Stable.grows (stable : r.Stable accountID) (stepped : r.step accountID a = some r') :
    r.world.db.entriesOf accountID <+: r'.world.db.entriesOf accountID := by
  rcases step_world stepped with ⟨b, -, moved, -⟩ | ⟨-, world⟩
  · exact stable.grown moved
  · exact world ▸ List.prefix_refl _

/-- A later state shows nothing below what this one shows. -/
theorem Stable.noneBelow (later : r'.Stable accountID)
    (grown : r.world.db.entriesOf accountID <+: r'.world.db.entriesOf accountID) :
    NoneBelow accountID r.world.db r'.world.db := by
  intro e visible e' mem new
  exact later.ascending.ascending.later grown visible mem new

/-- What runs of commits in order keep. -/
theorem Stable.runs (stable : r.Stable accountID) {acts : List ReadAct}
    (inOrder : Txn.Respects (Reading.step accountID) (InOrder accountID) r acts)
    (ran : Txn.runs (Reading.step accountID) r acts = some r') :
    r'.Stable accountID ∧ NoneBelow accountID r.world.db r'.world.db := by
  obtain ⟨later, grown⟩ := Txn.runs_respecting
    (fun inOrder (known : Stable accountID _ ∧ r.world.db.entriesOf accountID <+: _) stepped =>
      ⟨known.1.step inOrder stepped, known.2.trans (known.1.grows stepped)⟩)
    inOrder ⟨stable, List.prefix_refl _⟩ ran
  exact ⟨later, later.noneBelow grown⟩

theorem inOrder_of_read (read : ∀ b, a ≠ .turn b) : r.InOrder accountID a := by
  cases a with
  | turn b => exact absurd rfl (read b)
  | ask limit find => trivial
  | list fault => trivial

/-- What is asked of the transfers' schedule is met along the whole. -/
theorem respects_transfers {acts : List ReadAct}
    (inOrder : Txn.Respects World.step (World.InOrder accountID) r.world
      (acts.filterMap ReadAct.transfer)) :
    Txn.Respects (Reading.step accountID) (InOrder accountID) r acts := by
  induction acts generalizing r with
  | nil => trivial
  | cons a rest ih =>
    cases a with
    | turn b =>
      refine ⟨inOrder.1, fun r' stepped => ih ?_⟩
      obtain ⟨w, moved, rfl⟩ := Option.map_eq_some_iff.mp stepped
      exact inOrder.2 w moved
    | ask limit find =>
      refine ⟨trivial, fun r' stepped => ih ?_⟩
      obtain ⟨-, world⟩ := (step_world stepped).resolve_left (by rintro ⟨b, ⟨⟩, -⟩)
      rw [world]
      exact inOrder
    | list fault =>
      refine ⟨trivial, fun r' stepped => ih ?_⟩
      obtain ⟨-, world⟩ := (step_world stepped).resolve_left (by rintro ⟨b, ⟨⟩, -⟩)
      rw [world]
      exact inOrder

/-- A run so far has used the locking strategy only. -/
structure Locking (accountID : UUID) (r : Reading) : Prop where
  stable : r.Stable accountID
  uses : r.world.Uses (· = .locking)

/-- Under the locking strategy every commit is in order. -/
theorem Locking.inOrder (known : r.Locking accountID) (stepped : r.step accountID a = some r') :
    r.InOrder accountID a := by
  rcases step_world stepped with ⟨b, rfl, moved, -⟩ | ⟨read, -⟩
  · exact known.stable.orderly.inOrder known.uses moved accountID
  · exact inOrder_of_read read

/-- One act of a run that uses the locking strategy only. -/
theorem Locking.step (known : r.Locking accountID) (locking : a.Uses (· = .locking))
    (stepped : r.step accountID a = some r') : r'.Locking accountID := by
  refine ⟨known.stable.step (known.inOrder stepped) stepped, ?_⟩
  rcases step_world stepped with ⟨b, rfl, moved, -⟩ | ⟨-, world⟩
  · exact (World.step_move moved).uses locking known.uses
  · exact world ▸ known.uses

/-- A run of the locking strategy only. -/
theorem Locking.runs (known : r.Locking accountID) {acts : List ReadAct}
    (locking : ∀ a ∈ acts, a.Uses (· = .locking))
    (ran : Txn.runs (Reading.step accountID) r acts = some r') :
    r'.Locking accountID ∧ NoneBelow accountID r.world.db r'.world.db := by
  obtain ⟨later, grown⟩ := Txn.runs_admissible (ReadAct.Uses (· = .locking))
    (fun r' => Locking accountID r' ∧
      r.world.db.entriesOf accountID <+: r'.world.db.entriesOf accountID)
    (fun locking known stepped =>
      ⟨known.1.step locking stepped, known.2.trans (known.1.stable.grows stepped)⟩)
    locking ⟨known, List.prefix_refl _⟩ ran
  exact ⟨later, later.stable.noneBelow grown⟩

end Reading

/-- The statement cursor is stable under the locking strategy. In every run of the
locking executor and the client's page reads, no entry of the account becomes visible
with an id below one that has been visible; the client has received the beginning of
the account's statement, each entry once and in ascending order; and every page it
reads continues the statement, up to its end when `NextAfter` is nil. -/
theorem locking_cursor_stable (accountID : UUID) {first second : List ReadAct} {r r' : Reading}
    (locking : ∀ a ∈ first ++ second, a.Uses (· = .locking))
    (ran : Txn.runs (Reading.step accountID) .init first = some r)
    (later : Txn.runs (Reading.step accountID) r second = some r') :
    NoneBelow accountID r.world.db r'.world.db ∧ r'.Complete accountID := by
  have initially : Reading.init.Locking accountID := ⟨.init, by rintro i call ⟨⟩⟩
  obtain ⟨known, -⟩ := initially.runs (fun a mem => locking a (List.mem_append_left _ mem)) ran
  obtain ⟨known', noneBelow⟩ :=
    known.runs (fun a mem => locking a (List.mem_append_right _ mem)) later
  exact ⟨noneBelow, known'.stable.complete⟩

namespace Paging

open Scenario

def carol : UUID := .ofByte 4

def accounts : List Act := opened ++ [.openAccount ⟨carol, "carol", .customer, "BRL"⟩]

def serializable : Executor := newTransferExecutor .serializable

/-- Two deposits for Alice through one executor, each followed by a page of one entry. -/
def deposits (executor : Executor) : List ReadAct × List ReadAct :=
  ((accounts ++ Act.execution 0 executor (command "first" systemID alice) (.ofByte 5) 0).map
      .turn ++ [.ask 1 none, .list none],
    (Act.execution 1 executor (command "second" systemID alice) (.ofByte 6) 20).map .turn ++
    [.ask 1 none, .list none])

end Paging

open Scenario Paging in
/-- Two deposits, each followed by a page. -/
theorem locking_cursor_stable_deposits :
    ∃ r r', Txn.runs (Reading.step alice) .init (deposits .locking).1 = some r ∧
      Txn.runs (Reading.step alice) r (deposits .locking).2 = some r' ∧
      r.received.length = 1 ∧ r'.received.length = 2 ∧
      NoneBelow alice r.world.db r'.world.db ∧ r'.Complete alice := by
  have reached : ((Txn.runs (Reading.step alice) .init (deposits .locking).1).bind fun r =>
      (Txn.runs (Reading.step alice) r (deposits .locking).2).map fun r' =>
        (r.received.length, r'.received.length)) = some (1, 2) := by decide +kernel
  obtain ⟨r, ran, rest⟩ := Option.bind_eq_some_iff.mp reached
  obtain ⟨r', later, lengths⟩ := Option.map_eq_some_iff.mp rest
  obtain ⟨one, two⟩ := Prod.mk.inj lengths
  have locking : ∀ a ∈ (deposits .locking).1 ++ (deposits .locking).2, a.Uses (· = .locking) := by
    decide +kernel
  exact ⟨r, r', ran, later, one, two, locking_cursor_stable alice locking ran later⟩

/-! ### Commits out of order -/

/-- Whatever the executors, when the transactions with entries of the account commit in the
order in which they have inserted them, the cursor is stable and the client receives
everything. -/
theorem cursor_stable_in_line (accountID : UUID) {first second : List ReadAct} {r r' : Reading}
    (inLine : World.KeepsLine accountID ((first ++ second).filterMap ReadAct.transfer))
    (ran : Txn.runs (Reading.step accountID) .init first = some r)
    (later : Txn.runs (Reading.step accountID) r second = some r') :
    NoneBelow accountID r.world.db r'.world.db ∧ r'.Complete accountID := by
  have inOrder := Reading.respects_transfers (r := .init) inLine.inOrder
  obtain ⟨before, after⟩ := inOrder.of_append ran
  obtain ⟨stable, -⟩ := Reading.Stable.init.runs before ran
  obtain ⟨stable', noneBelow⟩ := stable.runs after later
  exact ⟨noneBelow, stable'.complete⟩

namespace Paging

open Scenario

/-- The acts of a transfer up to its commit. -/
def uncommitted (i : Nat) (cmd : TransferCommand) (id : UUID) (last : Nat) : List Act :=
  (Act.execution i serializable cmd id last).dropLast

/-- Bob and Carol pay Alice at the same time, and Bob's entries get the smaller ids. -/
def together : List ReadAct :=
  (accounts ++ Act.execution 0 serializable (command "bob" systemID bob) (.ofByte 5) 0 ++
      Act.execution 1 serializable (command "carol" systemID carol) (.ofByte 6) 20 ++
      uncommitted 2 (command "from bob" bob alice) (.ofByte 7) 40 ++
      uncommitted 3 (command "from carol" carol alice) (.ofByte 8) 60).map .turn

/-- A transfer commits and Alice reads on. -/
def settles (i : Nat) : List ReadAct := [.turn (.commit i .acknowledged), .ask 10 none, .list none]

def overtaking : List ReadAct := together ++ settles 3 ++ settles 2

end Paging

open Scenario Paging in
/-- Two transfers at once that commit in the order of their inserts, read in two pages. -/
theorem cursor_stable_in_line_together :
    ∃ r r', Txn.runs (Reading.step alice) .init (together ++ settles 2) = some r ∧
      Txn.runs (Reading.step alice) r (settles 3) = some r' ∧ r.received.length = 1 ∧
      r'.received.length = 2 ∧ NoneBelow alice r.world.db r'.world.db ∧ r'.Complete alice := by
  have reached : ((Txn.runs (Reading.step alice) .init (together ++ settles 2)).bind fun r =>
      (Txn.runs (Reading.step alice) r (settles 3)).map fun r' =>
        (r.received.length, r'.received.length)) = some (1, 2) := by decide +kernel
  obtain ⟨r, ran, rest⟩ := Option.bind_eq_some_iff.mp reached
  obtain ⟨r', later, lengths⟩ := Option.map_eq_some_iff.mp rest
  obtain ⟨one, two⟩ := Prod.mk.inj lengths
  have inLine :
      World.KeepsLine alice ((together ++ settles 2 ++ settles 3).filterMap ReadAct.transfer) := by
    decide +kernel
  exact ⟨r, r', ran, later, one, two, cursor_stable_in_line alice inLine ran later⟩

open Scenario Paging in
/-- Bob's payment is in the statement, below Carol's, and Alice, who has been told that
there is nothing more, has not received it. -/
theorem entry_missed :
    (∀ a ∈ overtaking, a.Uses (· = serializable)) ∧
      ∃ r page e, Txn.runs (Reading.step alice) .init overtaking = some r ∧
        r.answer = some (.ok page) ∧ page.nextAfter = none ∧ e ∈ statement alice r.world.db ∧
        (∃ e' ∈ r.received, e.id < e'.id) ∧ e ∉ r.received := by
  refine ⟨by decide +kernel, ?_⟩
  have reached : ((Txn.runs (Reading.step alice) .init overtaking).map fun r =>
      (r.answer, r.received, statement alice r.world.db)) =
      some (some (.ok ⟨[], none⟩), [⟨69, .ofByte 8, 100⟩],
        [⟨49, .ofByte 7, 100⟩, ⟨69, .ofByte 8, 100⟩]) := by
    decide +kernel
  obtain ⟨r, ran, same⟩ := Option.map_eq_some_iff.mp reached
  injection same with answer rest
  injection rest with received whole
  refine ⟨r, _, ⟨49, .ofByte 7, 100⟩, ran, answer, rfl, ?_, ?_, ?_⟩
  · rw [whole]
    exact List.mem_cons_self
  · rw [received]
    exact ⟨_, List.mem_cons_self, by decide⟩
  · rw [received]
    decide

end WalletGo
