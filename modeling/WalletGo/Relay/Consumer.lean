import Mathlib.Algebra.BigOperators.Pi
import WalletGo.Relay.Wallet
import WalletGo.Txn.Dedup
import WalletGo.World.Reported

/-!
What a consumer of the events can know.

The relays deliver at least once, in no particular order, so a consumer keeps balances by
adding up the payloads and dropping what it has seen, by event id. It is behind the ledger
by transfers whose events are still pending, and by no others; once the outbox is drained it
has the balance of every account (`consumer_balances`).
-/

namespace WalletGo.Relay

open Txn (Receiver runs runs_append_iff runs_invariant)

/-- What a transfer does to an account, read off the payload of its event. -/
def effect (payload : EventPayload) (account : UUID) : Int :=
  if account = payload.fromAccountID then -payload.amountCents.toInt
  else if account = payload.toAccountID then payload.amountCents.toInt else 0

/-- The balances a consumer has come to that has heard of these events. -/
def balances (heard : List Event) : UUID → Int :=
  (heard.foldl (Receiver.receive Event.id fun e => effect e.payload) .init).total

namespace Joint

/-- A relay was in a call of `Publish` with the event at some moment of the run, whatever
became of the call. -/
def Sent (acts : List Joint.Act) (e : Event) : Prop :=
  ∃ before after j i, acts = before ++ after ∧ runs step init before = some j ∧
    j.relays.Publishing i e

variable {acts : List Joint.Act} {j j' : Joint}

/-- Events stay in the order of the outbox. -/
theorem step_identities (fed : j.Fed) {a : Joint.Act} (stepped : j.step a = some j') :
    j.relays.outbox.map identity <+: j'.relays.outbox.map identity := by
  have onward : ∀ {s : State} {b : Relay.Act}, j.relays.step b = some s →
      j.relays.outbox.map identity <+: s.outbox.map identity := by
    intro s b relayStep
    obtain ⟨acts, reached⟩ := fed.reached
    exact (step_inv (reached_inv reached) relayStep).2.identities
  cases a with
  | wallet a =>
    obtain ⟨w, -, rfl⟩ := Option.map_eq_some_iff.mp stepped
    rw [List.map_append]
    exact List.prefix_append _ _
  | poll i batchSize =>
    obtain ⟨s, relayStep, rfl⟩ := Option.map_eq_some_iff.mp stepped
    exact onward relayStep
  | perform i c =>
    obtain ⟨s, relayStep, rfl⟩ := Option.map_eq_some_iff.mp stepped
    exact onward relayStep
  | sever i =>
    obtain ⟨s, relayStep, rfl⟩ := Option.map_eq_some_iff.mp stepped
    exact onward relayStep
  | crash i =>
    cases stepped
    exact onward (b := .crash i) rfl

/-- What was sent once is in the outbox for good. -/
theorem Sent.mem {e : Event} (sent : Sent acts e) (ran : runs step init acts = some j) :
    e.identity ∈ j.relays.outbox.map identity := by
  obtain ⟨before, after, m, i, rfl, reached, publishing⟩ := sent
  obtain ⟨m', reached', rest⟩ := runs_append_iff.mp ran
  cases reached.symm.trans reached'
  obtain ⟨relayActs, relayRan⟩ := relays_run reached
  have there : e.identity ∈ m.relays.outbox.map identity := by
    rcases (reached_inv relayRan).publishing publishing with at' | adrift
    · obtain ⟨row, mem, -, rfl⟩ := at'.pending e rfl
      exact List.mem_map.mpr ⟨row, mem, rfl⟩
    · exact adrift.read e rfl
  have grown : m.relays.outbox.map identity <+: j.relays.outbox.map identity :=
    (runs_invariant (fun u => Fed u ∧ m.relays.outbox.map identity <+: u.relays.outbox.map identity)
      (fun known stepped => ⟨step_fed known.1 stepped,
        known.2.trans (step_identities known.1 stepped)⟩)
      ⟨runs_fed reached, List.prefix_rfl⟩ rest).2
  exact grown.subset there

/-- The events of the postings are what a consumer may hear of. -/
theorem balances_eq {ps : List Posting} (distinct : (ps.map (·.eventID)).Nodup) {heard : List Event}
    (genuine : ∀ e ∈ heard, ∃ p ∈ ps, e.identity = identity p.event) (account : UUID) :
    balances heard account =
      (ps.map fun p => if p.eventID ∈ heard.map Event.id then p.effect account else 0).sum := by
  have total : balances heard = ((ps.map fun p => (p.eventID, p.effect)).map fun s =>
      if s.1 ∈ heard.map Event.id then s.2 else 0).sum := by
    refine Receiver.total_eq ?_ ?_
    · rw [List.map_map]
      exact distinct
    · intro e mem
      obtain ⟨p, posted, same⟩ := genuine e mem
      refine List.mem_map.mpr ⟨p, posted, ?_⟩
      obtain ⟨id, rest⟩ := Prod.mk.inj same
      obtain ⟨-, payload⟩ := Prod.mk.inj rest
      rw [id, payload]
      rfl
  rw [total, Pi.list_sum_apply, List.map_map, List.map_map]
  refine congrArg List.sum (List.map_congr_left fun p _ => ?_)
  simp only [Function.comp_apply]
  split <;> rfl

/-- What is left out of a sum is what the rest of it adds. -/
theorem sum_split {ps : List Posting} (heard : Posting → Prop) [DecidablePred heard]
    (f : Posting → Int) :
    (ps.map fun p => if heard p then f p else 0).sum + ((ps.filter fun p => ¬ heard p).map f).sum =
      (ps.map f).sum := by
  induction ps with
  | nil => rfl
  | cons p rest ih =>
    rw [List.map_cons, List.sum_cons, List.map_cons, List.sum_cons, ← ih]
    by_cases known : heard p
    · rw [if_pos known, List.filter_cons_of_neg (by simpa using known)]
      omega
    · rw [if_neg known, List.filter_cons_of_pos (by simpa using known), List.map_cons,
        List.sum_cons]
      omega

/-- An event that nobody has heard of is pending. -/
theorem pending_of_unheard {p : Posting} {heard : List Event} (ran : runs step init acts = some j)
    (complete : ∀ e, (e, true) ∈ j.relays.calls → e ∈ heard)
    (mem : identity p.event ∈ j.relays.outbox.map identity)
    (unheard : p.eventID ∉ heard.map Event.id) :
    ∃ row ∈ j.relays.outbox, row.eventID = p.eventID ∧ row.publishedAt = none := by
  obtain ⟨row, there, same⟩ := List.mem_map.mp mem
  have sameID : row.eventID = p.eventID := (Prod.mk.inj same).1
  refine ⟨row, there, sameID, ?_⟩
  cases published : row.publishedAt with
  | none => rfl
  | some time =>
    obtain ⟨relayActs, relayRan⟩ := relays_run ran
    obtain ⟨e, called, id, -⟩ :=
      ((reached_inv relayRan).core.rows row there).published (by rw [published]; rfl)
    exact absurd (List.mem_map.mpr ⟨e, complete e called, id.trans sameID⟩) unheard

end Joint

/-- A consumer that has heard of every event a call of `Publish` was successful with, and of
none that was not sent, in whatever order and however often, is behind the ledger by
transfers whose events are pending, each once. When nothing is pending it has the balance of
every account. -/
theorem consumer_balances {acts : List Joint.Act} {j : Joint}
    (ran : runs Joint.step .init acts = some j) {heard : List Event}
    (genuine : ∀ e ∈ heard, Joint.Sent acts e)
    (complete : ∀ e, (e, true) ∈ j.relays.calls → e ∈ heard) :
    (∃ behind : List Posting, (behind.map (·.id)).Nodup ∧
      (∀ p ∈ behind, j.wallet.db.Holds p ∧
        ∃ row ∈ j.relays.outbox, row.eventID = p.eventID ∧ row.publishedAt = none) ∧
      ∀ account, balances heard account + (behind.map (·.effect account)).sum =
        j.wallet.db.sum account) ∧
    ((∀ row ∈ j.relays.outbox, row.publishedAt.isSome) →
      ∀ account, balances heard account = j.wallet.db.sum account) := by
  obtain ⟨ps, journal, events⟩ := Joint.events_posted ran
  have genuine' : ∀ e ∈ heard, ∃ p ∈ ps, e.identity = identity p.event := by
    intro e mem
    have there := (genuine e mem).mem ran
    rw [events] at there
    obtain ⟨p, posted, same⟩ := List.mem_map.mp there
    exact ⟨p, posted, same.symm⟩
  let behind := ps.filter fun p => ¬ p.eventID ∈ heard.map Event.id
  have known : ∀ p ∈ behind, p ∈ ps ∧ p.eventID ∉ heard.map Event.id := by
    intro p mem
    simpa [behind] using mem
  have pending :
      ∀ p ∈ behind, ∃ row ∈ j.relays.outbox, row.eventID = p.eventID ∧ row.publishedAt = none := by
    intro p mem
    obtain ⟨posted, unheard⟩ := known p mem
    refine Joint.pending_of_unheard ran complete ?_ unheard
    rw [events]
    exact List.mem_map.mpr ⟨p, posted, rfl⟩
  have split : ∀ account, balances heard account + (behind.map (·.effect account)).sum =
      j.wallet.db.sum account := by
    intro account
    rw [journal.sum_eq, Joint.balances_eq journal.distinctEvents genuine' account]
    exact Joint.sum_split (fun p => p.eventID ∈ heard.map Event.id) (·.effect account)
  refine ⟨⟨behind, ?_, fun p mem => ⟨journal.holds (known p mem).1, pending p mem⟩, split⟩, ?_⟩
  · exact journal.distinctIDs.sublist (List.filter_sublist.map _)
  · intro drained account
    have none : behind = [] := by
      refine List.eq_nil_iff_forall_not_mem.mpr fun p mem => ?_
      obtain ⟨row, there, -, unpublished⟩ := pending p mem
      have published := drained row there
      rw [unpublished] at published
      cases published
    have all := split account
    rw [none] at all
    simpa using all

namespace TwoDeposits

open Scenario

def deposit (i : Nat) (key : String) (id : UInt8) (last : Nat) : List Joint.Act :=
  (WalletGo.Act.execution i .locking (command key systemID alice) (.ofByte id) last).map .wallet

def event : Event := ⟨.ofByte 3, "transfer.completed", ⟨.ofByte 3, systemID, alice, 100⟩, 0⟩

def fine : Choice := ⟨none, some event.id, 1, 1, 0, .acknowledged⟩

def delivering : List Joint.Act :=
  opened.map .wallet ++ deposit 0 "first" 3 0 ++
  [.poll 0 1, .perform 0 fine, .perform 0 fine]

/-- The first deposit is published twice, because relay 0 dies before it has marked it. The
second is still pending. -/
def rest : List Joint.Act :=
  [.perform 0 fine, .crash 0] ++ deposit 1 "second" 4 20 ++
    .poll 1 1 :: List.replicate 6 (.perform 1 fine)

theorem sent : Joint.Sent (delivering ++ rest) event := by
  have now : ((runs Joint.step .init delivering).map fun j => publishing (j.relays.relays 0).prog) =
      some (some event) := by decide +kernel
  obtain ⟨j, reached, publishes⟩ := Option.map_eq_some_iff.mp now
  exact ⟨delivering, rest, j, 0, rfl, reached, .of_eq publishes⟩

end TwoDeposits

open Scenario TwoDeposits in
/-- An event that is delivered twice is counted once. -/
theorem consumer_balances_redelivered :
    ∃ j, runs Joint.step .init (delivering ++ rest) = some j ∧ j.wallet.db.sum alice = 200 ∧
      balances [event, event] alice = 100 ∧
      ∃ behind : List Posting, (behind.map (·.effect alice)).sum = 100 ∧
        ∀ p ∈ behind, ∃ row ∈ j.relays.outbox, row.eventID = p.eventID ∧
          row.publishedAt = none := by
  have observed : ((runs Joint.step .init (delivering ++ rest)).map fun j =>
      (j.wallet.db.sum alice, j.relays.calls)) = some (200, [(event, true), (event, true)]) := by
    decide +kernel
  obtain ⟨j, ran, same⟩ := Option.map_eq_some_iff.mp observed
  obtain ⟨sum, calls⟩ := Prod.mk.inj same
  have genuine : ∀ e ∈ [event, event], Joint.Sent (delivering ++ rest) e := by
    intro e mem
    have known : e = event := by simpa using mem
    rw [known]
    exact sent
  have complete : ∀ e, (e, true) ∈ j.relays.calls → e ∈ [event, event] := by
    intro e called
    simpa [calls] using called
  obtain ⟨⟨behind, -, pending, all⟩, -⟩ := consumer_balances ran genuine complete
  have heard : balances [event, event] alice = 100 := by decide +kernel
  have left := all alice
  rw [sum, heard] at left
  exact ⟨j, ran, sum, heard, behind, by omega, fun p mem => (pending p mem).2⟩

end WalletGo.Relay
