import Mathlib.Data.List.Nodup
import WalletGo.App.Service
import WalletGo.Txn.System

/-!
Instances that start together, and customers who register meanwhile.

`EnsureSystem` and `Create` are two statements each, committed one by one. The
statements of any number of callers interleave, and a caller may fail or crash
between its two. An insert adds nothing, a customer, or the row
`('system', 'system', 'BRL')` where there is none (`Adds`); so the table holds at most
one row of kind system (`Registry`), which is what every `EnsureSystem` returns.
-/

namespace WalletGo

/-- Where a call of `EnsureSystem` or `Create` stands. -/
inductive Caller where
  | idle
  | inserted
  | ensured (id : UUID)
  | registered (id : UUID)
  | created (a : Account)
  | failed (err : GoError)
  | crashed
deriving DecidableEq, Repr

structure Startup where
  db : Db
  callers : Nat → Caller

inductive StartupAct where
  | ensure (i : Nat) (id : UUID) (insert : CommitOutcome)
  | select (i : Nat) (fault : Option GoError)
  | create (i : Nat) (ownerID : String) (id : UUID) (insert : CommitOutcome)
  | find (i : Nat) (fault : Option GoError)
  | crash (i : Nat)

/-- Go on to the next statement, or return the error. -/
def Caller.after (next : Caller) : Except GoError Unit → Caller
  | .ok () => next
  | .error err => .failed err

namespace Startup

def init : Startup := ⟨.empty, fun _ => .idle⟩

def set (s : Startup) (i : Nat) (caller : Caller) (db : Db) : Startup :=
  ⟨db, fun j => if j = i then caller else s.callers j⟩

def step (s : Startup) : StartupAct → Option Startup
  | .ensure i id insert =>
    match s.callers i with
    | .idle =>
      let outcome := AccountRepository.ensureInsert id insert s.db
      some (s.set i (Caller.inserted.after outcome.1) outcome.2)
    | _ => none
  | .select i fault =>
    match s.callers i with
    | .inserted =>
      match AccountRepository.ensureSelect fault s.db with
      | .ok id => some (s.set i (.ensured id) s.db)
      | .error err => some (s.set i (.failed err) s.db)
    | _ => none
  | .create i ownerID id insert =>
    match s.callers i with
    | .idle =>
      let outcome := createInsert ownerID id insert s.db
      some (s.set i ((Caller.registered id).after outcome.1) outcome.2)
    | _ => none
  | .find i fault =>
    match s.callers i with
    | .registered id =>
      match AccountRepository.findByID fault id s.db with
      | .ok a => some (s.set i (.created a) s.db)
      | .error err => some (s.set i (.failed err) s.db)
    | _ => none
  | .crash i =>
    match s.callers i with
    | .inserted | .registered _ => some (s.set i .crashed s.db)
    | _ => none

end Startup

/-! ### The accounts table -/

/-- What the constraints and the callers make of the accounts table. -/
structure Registry (accounts : List Account) : Prop where
  ids : (accounts.map (·.id)).Nodup
  owners : (accounts.map fun a => (a.ownerID, a.kind, a.currency)).Nodup
  system : ∀ a ∈ accounts, a.kind = .system → a = AccountRepository.systemAccount a.id

namespace Registry

variable {accounts : List Account} {a b : Account}

theorem empty : Registry [] := ⟨.nil, .nil, nofun⟩

/-- There is one system account. -/
theorem unique (registry : Registry accounts) (memA : a ∈ accounts) (memB : b ∈ accounts)
    (systemA : a.kind = .system) (systemB : b.kind = .system) : a = b := by
  refine List.inj_on_of_nodup_map registry.owners memA memB ?_
  rw [registry.system a memA systemA, registry.system b memB systemB]
  simp only [AccountRepository.systemAccount]

/-- There is at most one system account. -/
theorem filter_system (registry : Registry accounts) :
    (accounts.filter (·.kind == .system)).length ≤ 1 := by
  have nodup : (accounts.filter (·.kind == .system)).Nodup :=
    (List.Nodup.of_map _ registry.ids).filter _
  have same :
      ∀ a ∈ accounts.filter (·.kind == .system),
      ∀ b ∈ accounts.filter (·.kind == .system), a = b := by
    intro a memA b memB
    obtain ⟨memA, systemA⟩ := List.mem_filter.mp memA
    obtain ⟨memB, systemB⟩ := List.mem_filter.mp memB
    exact registry.unique memA memB (by simpa using systemA) (by simpa using systemB)
  generalize accounts.filter (·.kind == .system) = rows at nodup same
  match rows with
  | [] => exact Nat.zero_le 1
  | [a] => exact Nat.le_refl 1
  | a :: b :: rest =>
    have distinct : a ≠ b := by
      rintro rfl
      exact (List.nodup_cons.mp nodup).1 List.mem_cons_self
    exact absurd (same a List.mem_cons_self b (List.mem_cons_of_mem _ List.mem_cons_self)) distinct

/-- An account is known by its id. -/
theorem eq_of_id (registry : Registry accounts) (memA : a ∈ accounts) (memB : b ∈ accounts)
    (same : a.id = b.id) : a = b :=
  List.inj_on_of_nodup_map registry.ids memA memB same

end Registry

inductive Registers : Account → Prop where
  | customer (id : UUID) (ownerID : String) : Registers ⟨id, ownerID, .customer, defaultCurrency⟩
  | system (id : UUID) : Registers (AccountRepository.systemAccount id)

/-- What a statement does to the accounts. -/
inductive Adds (db : Db) : Db → Prop where
  | nothing : Adds db db
  | account (a : Account) (registers : Registers a) (valid : db.accountViolation a = none) :
      Adds db (db.addAccount a)

namespace Adds

variable {db db' : Db}

/-- Every statement keeps the constraints. -/
theorem registry (adds : Adds db db') (registry : Registry db.accounts) :
    Registry db'.accounts := by
  cases adds with
  | nothing => exact registry
  | account a registers valid =>
    obtain ⟨unused, free⟩ := Db.accountViolation_free valid
    refine ⟨?_, ?_, ?_⟩
    · rw [Db.addAccount, List.map_append, List.map_singleton, ← List.concat_eq_append]
      exact registry.ids.concat unused
    · rw [Db.addAccount, List.map_append, List.map_singleton, ← List.concat_eq_append]
      exact registry.owners.concat free
    · intro b mem system
      rcases List.mem_append.mp mem with old | new
      · exact registry.system b old system
      · cases List.mem_singleton.mp new
        cases registers with
        | customer id ownerID => cases system
        | system id => rfl

/-- No account is removed. -/
theorem kept (adds : Adds db db') : db.accounts ⊆ db'.accounts := by
  cases adds with
  | nothing => exact List.Subset.refl _
  | account a registers valid => exact List.subset_append_left _ _

theorem insertAccount {a : Account} (registers : Registers a) (db : Db) :
    Adds db (db.insertAccount a).2 := by
  unfold Db.insertAccount
  split
  · exact .nothing
  · next valid => exact .account a registers valid

theorem autocommit {statement : Db → Except GoError Unit × Db}
    (adds : ∀ db, Adds db (statement db).2) (outcome : CommitOutcome) (db : Db) :
    Adds db (WalletGo.autocommit outcome statement db).2 := by
  cases outcome with
  | acknowledged => exact adds db
  | failed err => exact .nothing
  | lost err => exact adds db

theorem insertSystem (id : UUID) (db : Db) : Adds db (AccountRepository.insertSystem id db).2 := by
  unfold AccountRepository.insertSystem
  split
  · exact .nothing
  · exact .insertAccount (.system id) db

theorem ensureInsert (id : UUID) (insert : CommitOutcome) (db : Db) :
    Adds db (AccountRepository.ensureInsert id insert db).2 := by
  have adds := Adds.autocommit (insertSystem id) insert db
  unfold AccountRepository.ensureInsert
  split
  · next err db' same => rwa [same] at adds
  · next db' same => rwa [same] at adds

theorem createInsert (ownerID : String) (id : UUID) (insert : CommitOutcome) (db : Db) :
    Adds db (WalletGo.createInsert ownerID id insert db).2 := by
  unfold WalletGo.createInsert AccountRepository.create
  dsimp only
  split
  · exact .nothing
  · have adds := Adds.autocommit (.insertAccount (.customer id (trimSpace ownerID))) insert db
    split
    · next err db' same => rwa [same] at adds
    · next db' same => rwa [same] at adds

end Adds

/-! ### What `EnsureSystem` returns -/

def Db.HasSystem (db : Db) (id : UUID) : Prop := ∃ a ∈ db.accounts, a.kind = .system ∧ a.id = id

namespace AccountRepository

variable {db : Db} {id : UUID}

theorem ownerTaken_system (taken : db.ownerTaken (systemAccount id)) : ∃ id', db.HasSystem id' := by
  obtain ⟨a, mem, same⟩ := List.any_eq_true.mp taken
  simp only [systemAccount, Bool.and_eq_true, beq_iff_eq] at same
  exact ⟨a.id, a, mem, same.1.2, rfl⟩

/-- An insert that succeeds leaves a system account. -/
theorem ensureInsert_ok {insert : CommitOutcome}
    (succeeded : (ensureInsert id insert db).1 = .ok ()) :
    ∃ id', (ensureInsert id insert db).2.HasSystem id' := by
  unfold ensureInsert at succeeded ⊢
  cases insert with
  | failed err => cases succeeded
  | lost err => cases succeeded
  | acknowledged =>
    simp only [autocommit, insertSystem] at succeeded ⊢
    by_cases taken : db.ownerTaken (systemAccount id)
    · rw [if_pos taken]
      exact ownerTaken_system taken
    · rw [if_neg taken] at succeeded ⊢
      cases violation : db.accountViolation (systemAccount id) with
      | some err =>
        simp only [Db.insertAccount, violation] at succeeded
        cases succeeded
      | none =>
        simp only [Db.insertAccount, violation]
        exact ⟨id, systemAccount id, List.mem_append_right _ List.mem_cons_self, rfl, rfl⟩

/-- What is selected is the system account. -/
theorem ensureSelect_ok {fault : Option GoError} (selected : ensureSelect fault db = .ok id) :
    db.HasSystem id := by
  unfold ensureSelect at selected
  split at selected
  · cases selected
  · split at selected
    · next a found =>
      cases selected
      have same := List.find?_some found
      simp only [Bool.and_eq_true, beq_iff_eq] at same
      exact ⟨a, List.mem_of_find?_eq_some found, same.1.2, rfl⟩
    · cases selected

end AccountRepository

def Caller.Known (db : Db) : Caller → Prop
  | .inserted => ∃ id, db.HasSystem id
  | .ensured id => db.HasSystem id
  | _ => True

/-- What a caller knows of the accounts stays true. -/
theorem Caller.Known.mono {db db' : Db} {caller : Caller} (known : caller.Known db)
    (adds : Adds db db') : caller.Known db' := by
  cases caller with
  | inserted =>
    obtain ⟨id, a, mem, system⟩ := known
    exact ⟨id, a, adds.kept mem, system⟩
  | ensured id =>
    obtain ⟨a, mem, system⟩ := known
    exact ⟨a, adds.kept mem, system⟩
  | _ => trivial

namespace Startup

variable {s s' : Startup} {a : StartupAct}

/-- One caller takes one statement. -/
theorem step_set (stepped : s.step a = some s') :
    ∃ i caller db', s' = s.set i caller db' ∧ Adds s.db db' ∧ caller.Known db' := by
  cases a with
  | ensure i id insert =>
    simp only [step] at stepped
    split at stepped
    · cases stepped
      refine ⟨i, _, _, rfl, .ensureInsert id insert s.db, ?_⟩
      cases reply : (AccountRepository.ensureInsert id insert s.db).1 with
      | ok _ => exact AccountRepository.ensureInsert_ok reply
      | error err => trivial
    · cases stepped
  | select i fault =>
    simp only [step] at stepped
    split at stepped
    · split at stepped
      · next id selected =>
        cases stepped
        exact ⟨i, _, _, rfl, .nothing, AccountRepository.ensureSelect_ok selected⟩
      · cases stepped
        exact ⟨i, _, _, rfl, .nothing, trivial⟩
    · cases stepped
  | create i ownerID id insert =>
    simp only [step] at stepped
    split at stepped
    · cases stepped
      refine ⟨i, _, _, rfl, .createInsert ownerID id insert s.db, ?_⟩
      cases (createInsert ownerID id insert s.db).1 with
      | ok _ => trivial
      | error err => trivial
    · cases stepped
  | find i fault =>
    simp only [step] at stepped
    split at stepped
    · split at stepped
      · cases stepped
        exact ⟨i, _, _, rfl, .nothing, trivial⟩
      · cases stepped
        exact ⟨i, _, _, rfl, .nothing, trivial⟩
    · cases stepped
  | crash i =>
    simp only [step] at stepped
    split at stepped
    · cases stepped
      exact ⟨i, _, _, rfl, .nothing, trivial⟩
    · cases stepped
      exact ⟨i, _, _, rfl, .nothing, trivial⟩
    · cases stepped

structure Inv (s : Startup) : Prop where
  registry : Registry s.db.accounts
  known : ∀ i, (s.callers i).Known s.db

/-- One act of any caller. -/
theorem step_inv (inv : s.Inv) (stepped : s.step a = some s') : s'.Inv := by
  obtain ⟨i, caller, db', rfl, adds, known⟩ := step_set stepped
  refine ⟨adds.registry inv.registry, fun j => ?_⟩
  by_cases mine : j = i
  · simp only [set, if_pos mine]
    exact known
  · simp only [set, if_neg mine]
    exact (inv.known j).mono adds

theorem Inv.init : Startup.init.Inv := ⟨.empty, fun _ => trivial⟩

/-- However the callers are interleaved. -/
theorem runs_inv {acts : List StartupAct} (ran : Txn.runs step init acts = some s) : s.Inv :=
  Txn.runs_invariant Inv step_inv .init ran

end Startup

/-- There is one system account. However the statements of any number of
`EnsureSystem` and `Create` calls interleave, with whatever owners, failures and
crashes, all successful `EnsureSystem` calls have returned the same id, so that the
cash services built from them ask for the same transfers; the table holds at most one
row of kind system, and no customer has its id. -/
theorem one_system_account {acts : List StartupAct} {s : Startup}
    (ran : Txn.runs Startup.step .init acts = some s) :
    (∀ i j id id', s.callers i = .ensured id → s.callers j = .ensured id' → id = id' ∧
      ∀ cmd, depositCommand id cmd = depositCommand id' cmd ∧
        withdrawCommand id cmd = withdrawCommand id' cmd) ∧
    (s.db.accounts.filter (·.kind == .system)).length ≤ 1 ∧
    (∀ a ∈ s.db.accounts, ∀ b ∈ s.db.accounts, a.kind = .system → b.kind = .customer →
      a.id ≠ b.id) ∧
    ∀ i id, s.callers i = .ensured id → ∀ b ∈ s.db.accounts, b.kind = .customer → b.id ≠ id := by
  have inv := Startup.runs_inv ran
  have distinct : ∀ a ∈ s.db.accounts, ∀ b ∈ s.db.accounts, a.kind = .system → b.kind = .customer →
      a.id ≠ b.id := by
    intro a memA b memB system customer same
    rw [inv.registry.eq_of_id memA memB same, customer] at system
    cases system
  have returned : ∀ i id, s.callers i = .ensured id → s.db.HasSystem id := by
    intro i id ensured
    have known := inv.known i
    rw [ensured] at known
    exact known
  refine ⟨?_, inv.registry.filter_system, distinct, ?_⟩
  · intro i j id id' ensured ensured'
    obtain ⟨a, memA, systemA, rfl⟩ := returned i id ensured
    obtain ⟨b, memB, systemB, rfl⟩ := returned j id' ensured'
    rw [inv.registry.unique memA memB systemA systemB]
    exact ⟨rfl, fun cmd => ⟨rfl, rfl⟩⟩
  · intro i id ensured b memB customer same
    obtain ⟨a, memA, systemA, rfl⟩ := returned i id ensured
    exact distinct a memA b memB systemA customer same.symm

namespace Together

/-- Two instances start while a customer registers as "system". -/
def acts : List StartupAct :=
  [.ensure 0 (.ofByte 1) .acknowledged, .ensure 1 (.ofByte 2) .acknowledged,
    .create 2 "  system " (.ofByte 3) .acknowledged, .ensure 3 (.ofByte 4) .acknowledged, .crash 3,
    .select 1 none, .select 0 none, .find 2 none]

end Together

open Together in
/-- Two servers start together with one customer in between, who is called "system". -/
theorem one_system_account_together :
    ∃ s, Txn.runs Startup.step .init acts = some s ∧ s.callers 0 = .ensured (.ofByte 1) ∧
      s.callers 1 = .ensured (.ofByte 1) ∧ s.callers 2 = .created ⟨.ofByte 3, "system",
        .customer, "BRL"⟩ ∧
      (s.db.accounts.filter (·.kind == .system)).length ≤ 1 := by
  have reached :
      ((Txn.runs Startup.step .init acts).map fun s => (s.callers 0, s.callers 1, s.callers 2)) =
      some (.ensured (.ofByte 1), .ensured (.ofByte 1),
        .created ⟨.ofByte 3, "system", .customer, "BRL"⟩) := by decide +kernel
  obtain ⟨s, ran, same⟩ := Option.map_eq_some_iff.mp reached
  injection same with first rest
  injection rest with second third
  exact ⟨s, ran, first, second, third, (one_system_account ran).2.1⟩

end WalletGo
