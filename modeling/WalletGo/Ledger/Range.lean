import WalletGo.Ledger.Executes
import WalletGo.Ledger.Runs
import WalletGo.Txn.System

/-!
Balances and the range of int64.

A balance is an exact sum, read into an int64 by `SumByAccount` and by both
`Execute` bodies. The debit of a customer is checked by `CanDebit`; the credit
side and the debit of the system account are not, so a run can drive a balance
out of range (`deposits_overflow`), after which reading it fails for good. As long
as every transfer that would go through leaves room on those two sides, no
balance ever leaves the range (`representable_of_room`).
-/

namespace WalletGo

namespace Db

def Representable (db : Db) : Prop := ∀ a ∈ db.accounts, Int64Range (db.sum a.id)

/-- The credited account, and a debited system account, stay in range. -/
structure HasRoom (db : Db) (cmd : TransferCommand) : Prop where
  credit : db.sum cmd.toAccountID + cmd.amountCents.toInt ≤ 2 ^ 63 - 1
  debit : db.kindOf cmd.fromAccountID = some .system →
    -2 ^ 63 ≤ db.sum cmd.fromAccountID - cmd.amountCents.toInt

end Db

/-- A request that would go through has room. -/
def Request.Roomy (db : Db) (r : Request) : Prop :=
  ∀ cmd, r.command = some cmd → db.Admits cmd → db.HasRoom cmd

/-- Serving requests, as a transition system in which every request is enabled. -/
def serialStep (db : Db) (r : Request) : Option Db := some (serve db r)

theorem validate_of {cmd : TransferCommand} (positive : 0 < cmd.amountCents.toInt)
    (distinct : cmd.fromAccountID ≠ cmd.toAccountID) : validate cmd = .ok ⟨cmd.amountCents⟩ := by
  have accepted : ¬ cmd.amountCents ≤ 0 := by
    rw [Int64.le_iff_toInt_le, Int64.toInt_zero]
    omega
  simp [validate, newTransferAmount, accepted, distinct, bind, Except.bind, pure, Except.pure]

theorem Db.Accepts.admits {db : Db} {p : Posting} {cmd : TransferCommand}
    (accepts : db.Accepts db p) (carries : p.Carries cmd) : db.Admits cmd := by
  obtain ⟨kind, balance, known, -⟩ := accepts.funded
  have positive := p.positive
  have distinct := p.distinct
  have free := accepts.free
  have target := accepts.target
  have funds := accepts.customer
  rw [carries.source] at known funds distinct
  rw [carries.target] at target distinct
  rw [carries.amount] at positive funds
  rw [carries.key] at free
  exact ⟨validate_of positive distinct, free, target, by simp [known], funds⟩

/-- A posting keeps every balance in range exactly when the command has room. -/
theorem representable_post {db : Db} {p : Posting} {cmd : TransferCommand} (sound : Sound db)
    (range : db.Representable) (accepts : db.Accepts db p) (carries : p.Carries cmd) :
    (db.post p).Representable ↔ db.HasRoom cmd := by
  obtain ⟨⟨ps, journal⟩, solvent⟩ := sound
  obtain ⟨kind, balance, known, -⟩ := accepts.funded
  obtain ⟨kind', target⟩ := Option.isSome_iff_exists.mp accepts.target
  obtain ⟨a, memA, idA, kindA⟩ := Db.mem_of_kindOf known
  obtain ⟨b, memB, idB, -⟩ := Db.mem_of_kindOf target
  have positive := p.positive
  have effectA : p.effect a.id = -p.amount.toInt := by simp [Posting.effect, idA]
  have effectB : p.effect b.id = p.amount.toInt := by simp [Posting.effect, idB, p.distinct.symm]
  constructor
  · intro after
    have debited := (after a memA).1
    have credited := (after b memB).2
    rw [Db.sum_post, effectA, idA, carries.source, carries.amount] at debited
    rw [Db.sum_post, effectB, idB, carries.target, carries.amount] at credited
    exact ⟨credited, fun _ => by omega⟩
  · rintro ⟨credit, debit⟩ c memC
    obtain ⟨lower, upper⟩ := range c memC
    rw [Db.sum_post]
    unfold Posting.effect
    split
    · next same =>
      have kindC := Db.kindOf_of_mem journal.distinctAccounts memC
      rw [← carries.source, ← carries.amount] at debit
      rw [same] at lower upper kindC ⊢
      cases own : c.kind with
      | customer =>
        rw [own] at kindC
        have enough := accepts.customer kindC
        exact ⟨by omega, by omega⟩
      | system =>
        rw [own] at kindC
        have room := debit kindC
        exact ⟨by omega, by omega⟩
    · split
      · next same =>
        rw [← carries.target, ← carries.amount, ← same] at credit
        exact ⟨by omega, by omega⟩
      · exact ⟨by omega, by omega⟩

/-- One request, when there is room for what it may add. -/
theorem serve_representable {db : Db} {r : Request} (sound : Sound db) (range : db.Representable)
    (roomy : r.Roomy db) : (serve db r).Representable := by
  have effect := serve_effect db r
  generalize serve db r = db' at effect
  cases effect with
  | unchanged => exact range
  | opened a valid =>
    obtain ⟨⟨ps, journal⟩, -⟩ := sound
    intro b mem
    rw [Db.sum_addAccount]
    rcases List.mem_append.mp mem with mem | mem
    · exact range b mem
    · obtain rfl := List.mem_singleton.mp mem
      rw [journal.sum_unknown (Db.accountViolation_free valid).1]
      decide
  | posted cmd asked p carries accepts =>
    exact (representable_post sound range accepts carries).mpr
      (roomy cmd asked (accepts.admits carries))

theorem runs_serialStep (db : Db) (requests : List Request) :
    Txn.runs serialStep db requests = some (serveAll db requests) := by
  induction requests generalizing db with
  | nil => rfl
  | cons r rest ih => exact ih (serve db r)

theorem scanInt64_of_range {n : Int} (fits : Int64Range n) (text : String) :
    scanInt64 text (.ok n) = .ok (Int64.ofInt n) := by
  simp [scanInt64, fits]

/-- In every run whose requests have room, every balance is an int64 in every
state, so `SumByAccount` and the scan of the source balance succeed on every
account. There a transfer that would go through keeps the balances in range
exactly if it has room. -/
theorem representable_of_room (requests : List Request)
    (room : Txn.Respects serialStep Request.Roomy .empty requests) :
    let db := serveAll .empty requests
    (∀ a ∈ db.accounts, Int64Range (db.sum a.id) ∧
      sumByAccount none a.id db = .ok (newMoney (Int64.ofInt (db.sum a.id))) ∧
      scanInt64 "postgres: read source balance" (.ok (db.sum a.id)) =
      .ok (Int64.ofInt (db.sum a.id))) ∧
    ∀ e attempts cmd, db.Admits cmd → (attempts 1).Healthy db →
      ((serve db (.transfer e attempts cmd)).Representable ↔ db.HasRoom cmd) := by
  intro db
  have kept : ∀ {db db' : Db} {r : Request}, r.Roomy db → Sound db ∧ db.Representable →
      serialStep db r = some db' → Sound db' ∧ db'.Representable := by
    rintro db db' r roomy ⟨sound, range⟩ stepped
    cases stepped
    exact ⟨(serve_effect db r).sound sound, serve_representable sound range roomy⟩
  obtain ⟨sound, range⟩ := Txn.runs_respecting kept room ⟨Sound.empty, fun _ mem => nomatch mem⟩
    (runs_serialStep .empty requests)
  refine ⟨fun a mem => ?_, fun e attempts cmd admits healthy => ?_⟩
  · have fits := range a mem
    exact ⟨fits, by simp [sumByAccount, scanInt64_of_range fits, Except.map, db],
      scanInt64_of_range fits _⟩
  · obtain ⟨a, mem, idA, -⟩ :=
      Db.mem_of_kindOf (Option.isSome_iff_exists.mp admits.source).choose_spec
    obtain ⟨p, carries, accepts, served⟩ := transfer_executes e admits (idA ▸ range a mem) healthy
    simp only [serve, served]
    exact representable_post sound range accepts carries

namespace Overflow

/-- An attempt without faults, with `id` for its generated ids. -/
def attempts (id : UUID) (sequence : Nat) (_ : Nat) : Attempt :=
  ⟨none, fun n => ⟨none, id, sequence + n, 0⟩, .acknowledged, none⟩

def systemID : UUID := .ofByte 1

def customerID : UUID := .ofByte 2

def depositOf (key : String) (amountCents : Int64) : CashCommand :=
  ⟨⟨"alice", "POST /deposits", key⟩, "fingerprint", customerID, amountCents⟩

def oneDeposit (amountCents : Int64) : List Request :=
  [.ensureSystem systemID .acknowledged none, .create "alice" customerID .acknowledged none,
    .deposit .locking (attempts (.ofByte 3) 0) systemID (depositOf "first" amountCents)]

def twoDeposits : List Request :=
  oneDeposit Int64.maxValue ++
    [.deposit .locking (attempts (.ofByte 4) 20) systemID (depositOf "second" Int64.maxValue)]

end Overflow

open Overflow in
/-- A deposit of a hundred cents stays in range. -/
theorem representable_of_room_deposit :
    (serveAll .empty (oneDeposit 100)).sum customerID = 100 ∧
      Int64Range ((serveAll .empty (oneDeposit 100)).sum customerID) := by
  have room : Txn.Respects serialStep Request.Roomy .empty (oneDeposit 100) := by
    refine ⟨fun _ asked => (nomatch asked), ?_⟩
    rintro _ ⟨⟩
    refine ⟨fun _ asked => (nomatch asked), ?_⟩
    rintro _ ⟨⟩
    refine ⟨?_, fun _ _ => trivial⟩
    rintro _ ⟨⟩ -
    exact ⟨by decide +kernel, fun _ => by decide +kernel⟩
  have customer : (⟨customerID, "alice", .customer, "BRL"⟩ : Account) ∈
      (serveAll .empty (oneDeposit 100)).accounts := by decide +kernel
  exact ⟨by decide +kernel, ((representable_of_room _ room).1 _ customer).1⟩

open Overflow in
/-- Two deposits of 2^63 - 1 cents, both accepted, leave a customer with a balance
that is not an int64: reading it fails, and so does every withdrawal. -/
theorem deposits_overflow :
    let db := serveAll .empty twoDeposits
    db.kindOf customerID = some .customer ∧ db.transfers.length = 2 ∧
      db.sum customerID = 2 ^ 64 - 2 ∧ ¬ Int64Range (db.sum customerID) ∧
      sumByAccount none customerID db =
        .error (.wrap "postgres: sum entries" (.scanRange (2 ^ 64 - 2))) ∧
      (withdraw .locking (attempts (.ofByte 5) 40) systemID (depositOf "third" 1) db).1 =
        .error (.wrap "postgres: read source balance" (.scanRange (2 ^ 64 - 2))) := by
  decide +kernel

end WalletGo
