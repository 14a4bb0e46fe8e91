import WalletGo.Relay.Delivery
import WalletGo.World.Keys

/-!
The wallet and the relays over one outbox.

Transfers commit events in `WalletGo.World.State`, relays deliver them in
`WalletGo.Relay.System`; here the rows a commit adds to the outbox reach the
relays. A run of both is, for the relays, one of their own runs
(`Joint.relays_run`), and the events they see are those of the executed transfers
(`Joint.events_posted`).
-/

namespace WalletGo.Relay

open Txn (runs runs_append_iff runs_invariant)

structure Joint where
  wallet : World
  relays : State

inductive Joint.Act where
  | wallet (a : WalletGo.Act)
  | poll (i batchSize : Nat)
  | perform (i : Nat) (c : Choice)
  | sever (i : Nat)
  | crash (i : Nat)

namespace Joint

def init : Joint := ⟨.init .empty, .init⟩

/-- The rows the outbox gained when the wallet went from `w` to `w'`. -/
def appended (w w' : World) : List OutboxRow := w'.db.outbox.drop w.db.outbox.length

def step (j : Joint) : Joint.Act → Option Joint
  | .wallet a => (j.wallet.step a).map fun w =>
    ⟨w, { j.relays with outbox := j.relays.outbox ++ appended j.wallet w }⟩
  | .poll i batchSize => (j.relays.step (.poll i batchSize)).map fun s => ⟨j.wallet, s⟩
  | .perform i c => (j.relays.step (.perform i c)).map fun s => ⟨j.wallet, s⟩
  | .sever i => (j.relays.step (.sever i)).map fun s => ⟨j.wallet, s⟩
  | .crash i => (j.relays.step (.crash i)).map fun s => ⟨j.wallet, s⟩

end Joint

/-- Pristine rows with new ids can be appended one after the other. -/
theorem runs_appends {rows : List OutboxRow} {s : State}
    (pristine : ∀ row ∈ rows, row.publishedAt = none ∧ row.attempts = 0)
    (distinct : ((s.outbox ++ rows).map (·.eventID)).Nodup) :
    runs State.step s (rows.map .append) = some { s with outbox := s.outbox ++ rows } := by
  induction rows generalizing s with
  | nil => simp
  | cons row rest ih =>
    obtain ⟨unpublished, untried⟩ := pristine row List.mem_cons_self
    have new : ∀ other ∈ s.outbox, other.eventID ≠ row.eventID := by
      intro other mem
      rw [List.map_append, List.nodup_append] at distinct
      exact distinct.2.2 _ (List.mem_map_of_mem mem) _ (List.mem_map_of_mem List.mem_cons_self)
    have fresh : s.fresh row := by
      simpa [State.fresh, unpublished, untried] using new
    rw [List.map_cons, Txn.runs, State.step, if_pos fresh, Option.bind_some, ih]
    · simp
    · exact fun other mem => pristine other (List.mem_cons_of_mem _ mem)
    · simpa using distinct

namespace Joint

/-- The relays have come by a run of their own to the wallet's events. -/
structure Fed (j : Joint) : Prop where
  inv : j.wallet.Inv
  journal : ∃ ps, Journal j.wallet.db ps
  reached : ∃ acts, runs State.step State.init acts = some j.relays
  events : j.relays.outbox.map identity = j.wallet.db.outbox.map identity

theorem eventIDs_eq {first second : List OutboxRow}
    (events : first.map identity = second.map identity) :
    first.map (·.eventID) = second.map (·.eventID) := by
  have ids := congrArg (List.map Prod.fst) events
  rwa [List.map_map, List.map_map] at ids

/-- Appending what a step of the wallet added. -/
theorem Fed.wallet {j : Joint} {w : World} {a : WalletGo.Act} (fed : j.Fed)
    (stepped : j.wallet.step a = some w) :
    Fed ⟨w, { j.relays with outbox := j.relays.outbox ++ appended j.wallet w }⟩ := by
  have move := World.step_move stepped
  have grown : j.wallet.db.outbox ++ appended j.wallet w = w.db.outbox :=
    List.prefix_iff_eq_append.mp (move.extends' fed.inv).outbox
  have events :
      (j.relays.outbox ++ appended j.wallet w).map identity = w.db.outbox.map identity := by
    rw [List.map_append, fed.events, ← List.map_append, grown]
  obtain ⟨ps, journal⟩ := move.journal fed.inv fed.journal
  refine ⟨World.step_inv fed.inv stepped, ⟨ps, journal⟩, ?_, events⟩
  obtain ⟨acts, reached⟩ := fed.reached
  refine ⟨acts ++ (appended j.wallet w).map .append,
    runs_append_iff.mpr ⟨_, reached, runs_appends ?_ ?_⟩⟩
  · intro row mem
    have inOutbox : row ∈ w.db.outbox := grown ▸ List.mem_append_right _ mem
    rw [journal.outbox] at inOutbox
    obtain ⟨p, _, rfl⟩ := List.mem_map.mp inOutbox
    exact ⟨rfl, rfl⟩
  · rw [eventIDs_eq events, journal.outbox, List.map_map]
    exact journal.distinctEvents

/-- A step of a relay neither adds nor alters events. -/
theorem Fed.relay {j : Joint} {s : State} {a : Relay.Act} (fed : j.Fed)
    (stepped : j.relays.step a = some s) (length : s.outbox.length = j.relays.outbox.length) :
    Fed ⟨j.wallet, s⟩ := by
  obtain ⟨acts, reached⟩ := fed.reached
  have onward := (step_inv (reached_inv reached) stepped).2
  have same : j.relays.outbox.map identity = s.outbox.map identity :=
    onward.identities.eq_of_length (by rw [List.length_map, List.length_map, length])
  refine ⟨fed.inv, fed.journal, ⟨acts ++ [a], ?_⟩, same.symm.trans fed.events⟩
  exact runs_append_iff.mpr ⟨_, reached, by rw [Txn.runs, stepped]; rfl⟩

/-- One act keeps the relays' outbox that of the transfers. -/
theorem step_fed {j j' : Joint} {a : Joint.Act} (fed : j.Fed) (stepped : j.step a = some j') :
    j'.Fed := by
  cases a with
  | wallet a =>
    obtain ⟨w, walletStep, rfl⟩ := Option.map_eq_some_iff.mp stepped
    exact fed.wallet walletStep
  | poll i batchSize =>
    obtain ⟨s, relayStep, rfl⟩ := Option.map_eq_some_iff.mp stepped
    refine fed.relay relayStep ?_
    simp only [State.step] at relayStep
    split at relayStep
    · cases relayStep
      rfl
    · cases relayStep
  | perform i c =>
    obtain ⟨s, relayStep, rfl⟩ := Option.map_eq_some_iff.mp stepped
    obtain ⟨acts, reached⟩ := fed.reached
    obtain ⟨_, _, _, _, _, _, moved, _, rfl⟩ := perform_moved (reached_inv reached) relayStep
    exact fed.relay relayStep moved.length
  | sever i =>
    obtain ⟨s, relayStep, rfl⟩ := Option.map_eq_some_iff.mp stepped
    refine fed.relay relayStep ?_
    simp only [State.step] at relayStep
    split at relayStep
    · cases relayStep
    · split at relayStep <;> cases relayStep
      rfl
  | crash i =>
    cases stepped
    exact fed.relay (a := .crash i) rfl rfl

/-- In every run the relays work on the outbox of the transfers. -/
theorem runs_fed {acts : List Joint.Act} {j : Joint} (ran : runs step init acts = some j) : j.Fed :=
  runs_invariant Fed step_fed ⟨World.Inv.init _, ⟨[], Journal.empty⟩, ⟨[], rfl⟩, rfl⟩ ran

/-- For the relays, a run with the wallet is one of their own. -/
theorem relays_run {acts : List Joint.Act} {j : Joint} (ran : runs step init acts = some j) :
    ∃ relayActs, runs State.step State.init relayActs = some j.relays :=
  (runs_fed ran).reached

/-- Every event the relays see, published or not, is that of one executed transfer. -/
theorem events_posted {acts : List Joint.Act} {j : Joint} (ran : runs step init acts = some j) :
    ∃ ps, Journal j.wallet.db ps ∧ j.relays.outbox.map identity = ps.map fun p =>
      identity p.event := by
  have fed := runs_fed ran
  obtain ⟨ps, journal⟩ := fed.journal
  refine ⟨ps, journal, ?_⟩
  rw [fed.events, journal.outbox, List.map_map]
  rfl

end Joint

end WalletGo.Relay
