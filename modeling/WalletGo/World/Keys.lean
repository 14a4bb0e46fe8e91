import Mathlib.Logic.Function.Basic
import WalletGo.Ledger.Journal
import WalletGo.World.Invariant

/-!
Keys, transfers and events in concurrent runs.

From the empty database on, every committed state is a journal of postings, for
any mixture of the two executors and whatever fails (`World.runs_journal`). The
rows of `idempotency_keys`, `transfers` and `outbox` therefore correspond one to
one (`keys_transfers_events`).
-/

namespace WalletGo

/-- Every act keeps a journal. -/
theorem World.Move.journal {w w' : World} {a : Act} (move : w.Move a w') (inv : w.Inv)
    (journal : ∃ ps, Journal w.db ps) : ∃ ps, Journal w'.db ps := by
  obtain ⟨ps, journal⟩ := journal
  cases move with
  | outside i s mine was now kept => exact ⟨ps, journal⟩
  | begins i call attempt result was => exact ⟨ps, journal⟩
  | performs i c call attempt tx o next was prog free drawn => exact ⟨ps, journal⟩
  | aborts i s mine call attempt tx was now kept => exact ⟨ps, journal⟩
  | commits i outcome call attempt tx result s was prog allowed now =>
    obtain ⟨phase, txInv⟩ := inv.running was
    change ∃ ps, Journal (w.db.after tx.writes) ps
    rcases (txInv.commits prog).after with same | ⟨p, -, accepts, posted⟩
    · rw [same]
      exact ⟨ps, journal⟩
    · rw [posted]
      exact ⟨ps ++ [p], journal.post txInv.older accepts⟩
  | opens a valid => exact ⟨ps, journal.addAccount valid⟩

/-- In every run the tables are those of some journal. -/
theorem World.runs_journal {w : World} {acts : List Act}
    (ran : Txn.runs World.step (.init .empty) acts = some w) : ∃ ps, Journal w.db ps := by
  refine (Txn.runs_invariant (fun w : World => w.Inv ∧ ∃ ps, Journal w.db ps) ?_
    ⟨Inv.init _, [], Journal.empty⟩ ran).2
  rintro s t a ⟨inv, journal⟩ stepped
  exact ⟨World.step_inv inv stepped, (World.step_move stepped).journal inv journal⟩

/-- Two types related one to one are in bijection. -/
theorem exists_bijective {α β : Type} {related : α → β → Prop} (right : ∀ a, ∃! b, related a b)
    (left : ∀ b, ∃! a, related a b) :
    ∃ f : α → β, Function.Bijective f ∧ ∀ a, related a (f a) ∧ ∀ b, related a b → b = f a := by
  choose f holds only using right
  refine ⟨f, ⟨fun a a' same => ?_, fun b => ?_⟩, fun a => ⟨holds a, only a⟩⟩
  · exact (left (f a)).unique (holds a) (same ▸ holds a')
  · obtain ⟨a, here, -⟩ := left b
    exact ⟨a, (only a b here).symm⟩

/-- A posting is known by its id. -/
theorem Journal.eq_of_id {db : Db} {ps : List Posting} (journal : Journal db ps) {p q : Posting}
    (memP : p ∈ ps) (memQ : q ∈ ps) (same : p.id = q.id) : p = q :=
  List.inj_on_of_nodup_map journal.distinctIDs memP memQ same

namespace Journal

variable {db : Db} {ps : List Posting}

theorem mem_keys (journal : Journal db ps) {k : KeyRow} (mem : k ∈ db.keys) :
    ∃ p ∈ ps, k = p.keyRow := by
  rw [journal.keys] at mem
  obtain ⟨p, posted, rfl⟩ := List.mem_map.mp mem
  exact ⟨p, posted, rfl⟩

theorem mem_transfers (journal : Journal db ps) {t : TransferRow} (mem : t ∈ db.transfers) :
    ∃ p ∈ ps, t = p.transferRow := by
  rw [journal.transfers] at mem
  obtain ⟨p, posted, rfl⟩ := List.mem_map.mp mem
  exact ⟨p, posted, rfl⟩

theorem mem_outbox (journal : Journal db ps) {e : OutboxRow} (mem : e ∈ db.outbox) :
    ∃ p ∈ ps, e = p.event := by
  rw [journal.outbox] at mem
  obtain ⟨p, posted, rfl⟩ := List.mem_map.mp mem
  exact ⟨p, posted, rfl⟩

theorem rows_mem (journal : Journal db ps) {p : Posting} (posted : p ∈ ps) :
    p.keyRow ∈ db.keys ∧ p.transferRow ∈ db.transfers ∧ p.event ∈ db.outbox := by
  rw [journal.keys, journal.transfers, journal.outbox]
  exact ⟨List.mem_map_of_mem posted, List.mem_map_of_mem posted, List.mem_map_of_mem posted⟩

theorem rows_nodup (journal : Journal db ps) :
    db.keys.Nodup ∧ db.transfers.Nodup ∧ db.outbox.Nodup := by
  refine ⟨.of_map (·.key) ?_, .of_map (·.id) ?_, .of_map (·.eventID) ?_⟩
  · rw [journal.keys, List.map_map]
    exact journal.distinctKeys
  · rw [journal.transfers, List.map_map]
    exact journal.distinctIDs
  · rw [journal.outbox, List.map_map]
    exact journal.distinctEvents

/-- Key rows and transfers are related one to one by the transfer id. -/
theorem keys_transfers (journal : Journal db ps) :
    (∀ k : {k // k ∈ db.keys}, ∃! t : {t // t ∈ db.transfers}, k.1.transferID = some t.1.id) ∧
      ∀ t : {t // t ∈ db.transfers}, ∃! k : {k // k ∈ db.keys}, k.1.transferID = some t.1.id := by
  constructor
  · rintro ⟨k, mem⟩
    obtain ⟨p, posted, rfl⟩ := journal.mem_keys mem
    refine ⟨⟨p.transferRow, (journal.rows_mem posted).2.1⟩, rfl, ?_⟩
    rintro ⟨t, mem'⟩ related
    obtain ⟨q, posted', rfl⟩ := journal.mem_transfers mem'
    obtain rfl := journal.eq_of_id posted posted' (Option.some.inj related)
    rfl
  · rintro ⟨t, mem⟩
    obtain ⟨p, posted, rfl⟩ := journal.mem_transfers mem
    refine ⟨⟨p.keyRow, (journal.rows_mem posted).1⟩, rfl, ?_⟩
    rintro ⟨k, mem'⟩ related
    obtain ⟨q, posted', rfl⟩ := journal.mem_keys mem'
    obtain rfl := journal.eq_of_id posted' posted (Option.some.inj related)
    rfl

/-- Transfers and events are related one to one by the transfer id. -/
theorem transfers_outbox (journal : Journal db ps) :
    (∀ t : {t // t ∈ db.transfers}, ∃! e : {e // e ∈ db.outbox}, e.1.payload.transferID = t.1.id) ∧
      ∀ e : {e // e ∈ db.outbox}, ∃! t :
        {t // t ∈ db.transfers}, e.1.payload.transferID = t.1.id := by
  constructor
  · rintro ⟨t, mem⟩
    obtain ⟨p, posted, rfl⟩ := journal.mem_transfers mem
    refine ⟨⟨p.event, (journal.rows_mem posted).2.2⟩, rfl, ?_⟩
    rintro ⟨e, mem'⟩ related
    obtain ⟨q, posted', rfl⟩ := journal.mem_outbox mem'
    obtain rfl := journal.eq_of_id posted' posted related
    rfl
  · rintro ⟨e, mem⟩
    obtain ⟨p, posted, rfl⟩ := journal.mem_outbox mem
    refine ⟨⟨p.transferRow, (journal.rows_mem posted).2.1⟩, rfl, ?_⟩
    rintro ⟨t, mem'⟩ related
    obtain ⟨q, posted', rfl⟩ := journal.mem_transfers mem'
    obtain rfl := journal.eq_of_id posted posted' related
    rfl

end Journal

/-- In every committed state: the key rows, the transfers and the events are in
bijection. Each key row is completed with status 201 and carries, in its column
and in its stored response, the id of its transfer and of no other; each transfer
has its `transfer.completed` event, with its own data, and no other event. -/
theorem keys_transfers_events {w : World} {acts : List Act}
    (ran : Txn.runs World.step (.init .empty) acts = some w) :
    w.db.keys.Nodup ∧ w.db.transfers.Nodup ∧ w.db.outbox.Nodup ∧
    ∃ (transferOf : {k // k ∈ w.db.keys} → {t // t ∈ w.db.transfers})
      (eventOf : {t // t ∈ w.db.transfers} → {e // e ∈ w.db.outbox}),
      Function.Bijective transferOf ∧ Function.Bijective eventOf ∧
      (∀ k, k.1.state = .completed ∧ k.1.statusCode = some 201 ∧
        k.1.transferID = some (transferOf k).1.id ∧
        k.1.responseBody = some ⟨(transferOf k).1.id⟩ ∧
        ∀ t : {t // t ∈ w.db.transfers}, k.1.transferID = some t.1.id → t = transferOf k) ∧
      ∀ t, (eventOf t).1.eventType = "transfer.completed" ∧
        (eventOf t).1.payload = ⟨t.1.id, t.1.fromAccountID, t.1.toAccountID, t.1.amountCents⟩ ∧
        ∀ e : {e // e ∈ w.db.outbox}, e.1.payload.transferID = t.1.id → e = eventOf t := by
  obtain ⟨ps, journal⟩ := World.runs_journal ran
  obtain ⟨distinctKeys, distinctTransfers, distinctEvents⟩ := journal.rows_nodup
  obtain ⟨transferOf, bijective, transferOf_spec⟩ :=
    exists_bijective journal.keys_transfers.1 journal.keys_transfers.2
  obtain ⟨eventOf, bijective', eventOf_spec⟩ :=
    exists_bijective journal.transfers_outbox.1 journal.transfers_outbox.2
  refine ⟨distinctKeys, distinctTransfers, distinctEvents, transferOf, eventOf, bijective,
    bijective', fun k => ?_, fun t => ?_⟩
  · obtain ⟨related, only⟩ := transferOf_spec k
    obtain ⟨p, -, same⟩ := journal.mem_keys k.2
    rw [same] at related only ⊢
    refine ⟨rfl, rfl, related, ?_, only⟩
    rw [← Option.some.inj related]
    rfl
  · obtain ⟨related, only⟩ := eventOf_spec t
    obtain ⟨p, posted, same⟩ := journal.mem_transfers t.2
    obtain ⟨q, posted', event⟩ := journal.mem_outbox (eventOf t).2
    rw [event, same] at related
    obtain rfl := journal.eq_of_id posted' posted related
    rw [event, same]
    exact ⟨rfl, rfl, fun e related => only e (same ▸ related)⟩

namespace TwoCalls

open Scenario

/-- A deposit through one executor and a withdrawal through the other. -/
def acts : List Act :=
  opened ++ Act.execution 0 .locking payIn (.ofByte 4) 0 ++
    Act.execution 1 (.serializable 10) (command "withdrawal" alice systemID) (.ofByte 5) 20

end TwoCalls

open TwoCalls in
/-- A deposit and a withdrawal leave two keys, two transfers and two events. -/
theorem keys_transfers_events_two :
    ∃ w, Txn.runs World.step (.init .empty) acts = some w ∧ w.db.keys.length = 2 ∧
      ∃ transferOf :
        {k // k ∈ w.db.keys} → {t // t ∈ w.db.transfers}, Function.Bijective transferOf := by
  have two :
      ((Txn.runs World.step (.init .empty) acts).map fun w => w.db.keys.length) = some 2 := by
    decide +kernel
  obtain ⟨w, ran, length⟩ := Option.map_eq_some_iff.mp two
  obtain ⟨-, -, -, transferOf, -, bijective, -⟩ := keys_transfers_events ran
  exact ⟨w, ran, length, transferOf, bijective⟩

end WalletGo
