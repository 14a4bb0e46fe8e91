import WalletGo.Relay.Batch

/-!
How fast the relay empties the outbox.

While the database, the connection and the publisher work, a `PollOnce` publishes
the oldest pending events, as many as the batch allows, and returns their number.
`Swept` is what such a poll does. Over the loop of `cmd/relay`, with transfers
committing new events between the polls, the number of pending events is then that
of a queue served `batchSize` at a time.
-/

namespace WalletGo.Relay

open Txn (Prog)

def pending (outbox : List OutboxRow) : Nat := outbox.countP fun row => row.publishedAt.isNone

/-- The events that wait may be attempted from `since` on, and an attempt of theirs
can still be counted. -/
def Attemptable (since : Time) (outbox : List OutboxRow) : Prop :=
  ∀ row ∈ outbox, row.publishedAt = none → row.nextAttemptAt ≤ since ∧ row.attempts + 1 < 2 ^ 31

theorem Attemptable.of_kept {since : Time} {before after : List OutboxRow}
    (attemptable : Attemptable since before)
    (kept : ∀ row ∈ after, row.publishedAt = none → row ∈ before) : Attemptable since after :=
  fun row mem unpublished => attemptable row (kept row mem unpublished) unpublished

theorem Attemptable.later {since now : Time} {outbox : List OutboxRow}
    (attemptable : Attemptable since outbox) (later : since ≤ now) : Attemptable now outbox :=
  fun row mem unpublished =>
    ⟨(attemptable row mem unpublished).1.trans later, (attemptable row mem unpublished).2⟩

/-- Nothing fails, and a transaction begins at `since` or later. -/
structure Choice.Healthy (since : Time) (c : Choice) : Prop where
  works : c.fault = none
  told : c.commit = .acknowledged
  later : since ≤ c.now

/-- The replies of a server and a publisher that work. -/
def Polling.healthy (since : Time) : Prog.Discipline sig Polling where
  allows _ _ := True
  moves p o reply p' := ∃ c : Choice, c.Healthy since ∧ p.answer c o = (reply, p')

/-! ### Publishing one event -/

section Table

variable {rows : List OutboxRow} {row : OutboxRow} {now : Time}

theorem pending_append (more : List OutboxRow) :
    pending (rows ++ more) = pending rows + pending more :=
  List.countP_append

theorem pending_eq_length (unpublished : ∀ row ∈ rows, row.publishedAt = none) :
    pending rows = rows.length := by
  refine List.countP_eq_length.mpr fun row mem => ?_
  rw [unpublished row mem]
  rfl

theorem pending_eq_zero (published : ∀ row ∈ rows, row.publishedAt ≠ none) : pending rows = 0 := by
  refine List.countP_eq_zero.mpr fun row mem unpublished => ?_
  exact published row mem (Option.isNone_iff_eq_none.mp unpublished)

theorem updated_of_apart {write : UUID × Update} (apart : write.1 ∉ rows.map (·.eventID)) :
    State.updated rows write = rows := by
  refine (List.map_congr_left fun row mem => ?_).trans (List.map_id rows)
  refine if_neg fun same => apart ?_
  exact List.mem_map.mpr ⟨row, mem, same⟩

theorem pending_updated (now : Time) (distinct : (rows.map (·.eventID)).Nodup) (mem : row ∈ rows)
    (unpublished : row.publishedAt = none) :
    pending (State.updated rows (row.eventID, .published now)) + 1 = pending rows := by
  induction rows with
  | nil => cases mem
  | cons first rest ih =>
    obtain ⟨apart, distinct⟩ := List.nodup_cons.mp distinct
    have split : State.updated (first :: rest) (row.eventID, .published now) =
        (if first.eventID = row.eventID then Update.apply first (.published now) else first) ::
          State.updated rest (row.eventID, .published now) := rfl
    rw [split]
    rcases List.mem_cons.mp mem with rfl | mem
    · rw [updated_of_apart apart, if_pos rfl]
      simp [pending, Update.apply, unpublished]
    · have other : first.eventID ≠ row.eventID := fun same =>
        apart (List.mem_map.mpr ⟨row, mem, same.symm⟩)
      have fewer := ih distinct mem
      rw [if_neg other]
      simp only [pending, List.countP_cons] at fewer ⊢
      omega

/-- The update leaves no new event waiting. -/
theorem mem_of_updated {eventID : UUID} (mem : row ∈ State.updated rows (eventID, .published now))
    (unpublished : row.publishedAt = none) : row ∈ rows := by
  obtain ⟨earlier, present, rfl⟩ := List.mem_map.mp mem
  split at unpublished
  · cases unpublished
  · rename_i apart
    rwa [if_neg apart]

end Table

/-! ### One transaction -/

/-- What one `processOne` does while everything works. -/
inductive Delivered (p p' : Polling) : Except GoError (Bool × Bool) → Prop where
  | nothing (same : p'.state.outbox = p.state.outbox)
      (published : ∀ row ∈ p.state.outbox, row.publishedAt ≠ none) :
      Delivered p p' (.ok (false, false))
  | oldest (row : OutboxRow) (now : Time) (mem : row ∈ p.state.outbox)
      (unpublished : row.publishedAt = none)
      (least : ∀ other ∈ p.state.outbox, other.publishedAt = none →
        row.createdAt ≤ other.createdAt)
      (after : p'.state.outbox = State.updated p.state.outbox (row.eventID, .published now)) :
      Delivered p p' (.ok (true, true))

section Transaction

variable {p q : Polling} {c : Choice} {row : OutboxRow} {since : Time}

/-- The row that is picked is the oldest that waits. -/
theorem pick_least (picked : p.pick c = some row) :
    ∀ other ∈ p.candidates, row.createdAt ≤ other.createdAt := by
  unfold Polling.pick at picked
  have least : row ∈ p.candidates.filter fun row => p.candidates.all fun other =>
      decide (row.createdAt ≤ other.createdAt) := by
    rcases Option.or_eq_some_iff.mp picked with found | ⟨-, first⟩
    · exact List.mem_of_find?_eq_some found
    · exact List.mem_of_head? first
  intro other mem
  exact of_decide_eq_true (List.all_eq_true.mp (List.mem_filter.mp least).2 other mem)

theorem update_healthy {eventID : UUID} {u : Update} (works : c.fault = none)
    (intact : ¬ q.state.Severed 0) (countable : q.state.exhausted eventID = false) :
    q.through (q.state.update 0 c eventID u) =
      (.ok (), { q with state := q.state.stage 0 eventID u }) := by
  have fault : q.state.fault 0 c = none := (if_neg intact).trans works
  unfold State.update
  rw [fault, countable]
  rfl

/-- From the call of `Publish` on. -/
theorem deliver_healthy (mem : row ∈ p.state.outbox) (unpublished : row.publishedAt = none)
    (least : ∀ other ∈ p.state.outbox, other.publishedAt = none → row.createdAt ≤ other.createdAt)
    (outbox : q.state.outbox = p.state.outbox) (unwritten : (q.state.relays 0).writes = [])
    (intact : ¬ q.state.Severed 0) (countable : q.state.exhausted row.eventID = false) :
    (deliver (.of row)).Always (Polling.healthy since)
      (fun p' result => Delivered p p' result) q := by
  refine ⟨trivial, ?_⟩
  rintro answer q₁ ⟨c, healthy, called⟩
  simp only [Polling.answer, Choice.reply, healthy.works] at called
  cases called
  refine ⟨trivial, ?_⟩
  rintro reply q₂ ⟨c, healthy, marked⟩
  have staged := update_healthy (u := .published q.now)
    (q := { q with state := q.state.record (.of row) true }) healthy.works intact countable
  cases staged.symm.trans marked
  refine ⟨trivial, ?_⟩
  rintro reply q₃ ⟨c, healthy, committed⟩
  simp only [Polling.answer, healthy.told] at committed
  cases committed
  refine .oldest row q.now mem unpublished least ?_
  simp [Polling.settle, State.commit, State.stage, State.set, State.record, unwritten, outbox]

/-- Without faults a row that was found is published. -/
theorem processRow_healthy (since : Time) (idle : q.Idle)
    (distinct : (q.state.outbox.map (·.eventID)).Nodup)
    (attemptable : Attemptable q.now q.state.outbox) :
    processRow.Always (Polling.healthy since) (fun p' result => Delivered q p' result) q := by
  refine ⟨trivial, ?_⟩
  rintro reply q' ⟨c, healthy, moved⟩
  replace moved : q.select c = (reply, q') := moved
  have succeeds : c.failure = none := by rw [Choice.failure, healthy.works]; rfl
  have due {row : OutboxRow} (mem : row ∈ q.state.outbox) (unpublished : row.publishedAt = none) :
      row ∈ q.candidates :=
    (mem_candidates idle.unlocked).mpr ⟨mem, unpublished, (attemptable row mem unpublished).1⟩
  unfold Polling.select at moved
  rw [succeeds] at moved
  cases picked : q.pick c with
  | none =>
    rw [picked] at moved
    cases moved
    refine .nothing rfl fun row mem unpublished => ?_
    have candidate := due mem unpublished
    rw [candidates_nil_of_pick picked] at candidate
    cases candidate
  | some row =>
    rw [picked] at moved
    cases moved
    obtain ⟨mem, unpublished, -⟩ := (mem_candidates idle.unlocked).mp (pick_mem picked)
    have countable : q.state.exhausted row.eventID = false := by
      refine List.any_eq_false.mpr fun other present => ?_
      rw [Bool.and_eq_true, beq_iff_eq, decide_eq_true_iff]
      rintro ⟨same, spent⟩
      obtain rfl := List.inj_on_of_nodup_map distinct present mem same
      exact Nat.not_le.mpr (attemptable other mem unpublished).2 spent
    refine deliver_healthy mem unpublished ?_ rfl idle.unwritten idle.intact countable
    intro other present waits
    exact pick_least picked other (due present waits)

/-- Without faults `processOne` publishes the oldest row, if there is one. -/
theorem processOne_healthy (idle : p.Idle) (distinct : (p.state.outbox.map (·.eventID)).Nodup)
    (attemptable : Attemptable since p.state.outbox) :
    processOne.Always (Polling.healthy since)
      (fun p' result => Delivered p p' result ∧ p'.Idle) p := by
  refine ⟨trivial, ?_⟩
  rintro reply q ⟨c, healthy, moved⟩
  simp only [Polling.answer, healthy.works] at moved
  cases moved
  have due := attemptable.later healthy.later
  have row :=
      (processRow_healthy since (idle.begin c.now) distinct due).keep (I := Polling.Alone) (by
    rintro s o reply s' alone ⟨c, -, moved⟩
    exact alone.moved moved) (idle.begin c.now).alone
  refine Prog.Always.bind row ?_
  rintro q result ⟨delivered, alone⟩
  refine ⟨trivial, ?_⟩
  rintro _ _ ⟨c, -, moved⟩
  cases moved
  refine ⟨?_, alone.release⟩
  cases delivered with
  | nothing same published => exact .nothing same published
  | oldest row now mem unpublished least after =>
    exact .oldest row now mem unpublished least after

end Transaction

/-! ### One poll -/

/-- What a poll of at most `batchSize` events does while everything works, by the
number it publishes. -/
structure Swept (batchSize : Nat) (before : List OutboxRow) (published : Nat)
    (after : List OutboxRow) : Prop where
  count : published = min batchSize (pending before)
  left : pending after = pending before - batchSize
  eventIDs : after.map (·.eventID) = before.map (·.eventID)
  /-- An event that still waits has not been touched. -/
  kept : ∀ row ∈ after, row.publishedAt = none → row ∈ before
  /-- No event has been passed over for a newer one. -/
  oldest : ∀ row ∈ before, row.publishedAt = none → row ∉ after →
    ∀ other ∈ after, other.publishedAt = none → row.createdAt ≤ other.createdAt

section Poll

variable {before after : List OutboxRow} {row : OutboxRow} {since now : Time} {left n : Nat}

theorem Swept.unchanged (done : min left (pending before) = 0) : Swept left before 0 before where
  count := done.symm
  left := by omega
  eventIDs := rfl
  kept _ mem _ := mem
  oldest _ mem _ gone := absurd mem gone

/-- One event more, published first. -/
theorem Swept.cons (distinct : (before.map (·.eventID)).Nodup) (mem : row ∈ before)
    (unpublished : row.publishedAt = none)
    (least : ∀ other ∈ before, other.publishedAt = none → row.createdAt ≤ other.createdAt)
    (rest : Swept left (State.updated before (row.eventID, .published now)) n after) :
    Swept (left + 1) before (n + 1) after where
  count := by
    rw [rest.count, ← pending_updated now distinct mem unpublished]
    omega
  left := by
    rw [rest.left, ← pending_updated now distinct mem unpublished]
    omega
  eventIDs := rest.eventIDs.trans (map_updated _ apply_eventID _ _)
  kept other present waits := mem_of_updated (rest.kept other present waits) waits
  oldest first present waits gone other still pending := by
    by_cases same : first.eventID = row.eventID
    · obtain rfl := List.inj_on_of_nodup_map distinct present mem same
      exact least other (mem_of_updated (rest.kept other still pending) pending) pending
    · exact rest.oldest first (mem_updated_of_ne present same) waits gone other still pending

/-- Without faults a poll publishes the oldest rows, up to its batch. -/
theorem pollLoop_healthy {p : Polling} (left published : Nat) (idle : p.Idle)
    (distinct : (p.state.outbox.map (·.eventID)).Nodup)
    (attemptable : Attemptable since p.state.outbox) :
    (pollLoop left published).Always (Polling.healthy since) (fun p' result => ∃ count,
      result = (published + count, none) ∧ Swept left p.state.outbox count p'.state.outbox) p := by
  induction left generalizing published p with
  | zero => exact ⟨0, rfl, .unchanged (Nat.zero_min _)⟩
  | succ left ih =>
    refine Prog.Always.bind (processOne_healthy idle distinct attemptable) ?_
    rintro q result ⟨delivered, idle⟩
    cases delivered with
    | nothing same done =>
      refine ⟨0, rfl, ?_⟩
      rw [same]
      refine .unchanged ?_
      rw [pending_eq_zero done, Nat.min_zero]
    | oldest row now mem unpublished least after =>
      have others : (q.state.outbox.map (·.eventID)).Nodup := by
        rw [after, map_updated _ apply_eventID]
        exact distinct
      have waiting : Attemptable since q.state.outbox := by
        refine attemptable.of_kept fun row mem unpublished => ?_
        rw [after] at mem
        exact mem_of_updated mem unpublished
      refine (ih (published + 1) idle others waiting).mono ?_
      rintro p' _ ⟨count, rfl, rest⟩
      rw [after] at rest
      refine ⟨count + 1, ?_, rest.cons distinct mem unpublished least⟩
      rw [Nat.add_assoc, Nat.add_comm 1]

/-- A poll while everything works. -/
theorem run_swept (batchSize : Nat) {outbox : List OutboxRow} {choice : Nat → Choice}
    (healthy : ∀ n, (choice n).Healthy since) (distinct : (outbox.map (·.eventID)).Nodup)
    (attemptable : Attemptable since outbox) :
    ∃ count, (Polling.run choice outbox batchSize).1 = (count, none) ∧
      Swept batchSize outbox count (Polling.run choice outbox batchSize).2.state.outbox := by
  have always :=
    pollLoop_healthy (p := .start outbox) batchSize 0 (Polling.start_idle outbox) distinct
    attemptable
  obtain ⟨_, ⟨count, returned, swept⟩, rfl⟩ := always.run (fun n p => p.answer (choice n))
    (fun q p => q = p) rfl (n := 0) (by
      rintro n _ p o - rfl
      exact ⟨_, ⟨choice n, healthy n, rfl⟩, rfl⟩)
  rw [Nat.zero_add] at returned
  exact ⟨count, returned, swept⟩

end Poll

/-! ### The loop of `cmd/relay` -/

/-- What happens until the ticker's next poll has returned. -/
structure Tick where
  /-- The events that transfers have committed since the last poll. -/
  arrivals : List OutboxRow
  /-- When the poll begins. -/
  since : Time
  choice : Nat → Choice

structure Poll where
  before : List OutboxRow
  returned : Nat × Option GoError
  after : List OutboxRow

/-- The loop of `run`, tick by tick: its polls, and the outbox it leaves. An error is
logged and the loop goes on. -/
def ticks (batchSize : Nat) : List OutboxRow → List Tick → List Poll × List OutboxRow
  | outbox, [] => ([], outbox)
  | outbox, t :: rest =>
    let before := outbox ++ t.arrivals
    let poll := Polling.run t.choice before batchSize
    let later := ticks batchSize poll.2.state.outbox rest
    (⟨before, poll.1, poll.2.state.outbox⟩ :: later.1, later.2)

/-- The length of a queue that is served `batchSize` at a time, after these many
arrivals before each service. -/
def backlog (batchSize waiting : Nat) (arrived : List Nat) : Nat :=
  arrived.foldl (fun waiting new => waiting + new - batchSize) waiting

/-- While everything works, every poll publishes the oldest events that wait, up to
the batch size, and the outbox is a queue with batch service. An event has to be due
only when the first poll after it begins. -/
theorem relay_keeps_up (batchSize : Nat) (outbox : List OutboxRow) (schedule : List Tick)
    (distinct : ((outbox ++ schedule.flatMap (·.arrivals)).map (·.eventID)).Nodup)
    (unpublished : ∀ t ∈ schedule, ∀ row ∈ t.arrivals, row.publishedAt = none)
    (ordered : schedule.Pairwise (·.since ≤ ·.since))
    (due : ∀ t ∈ schedule, Attemptable t.since (outbox ++ t.arrivals))
    (healthy : ∀ t ∈ schedule, ∀ n, (t.choice n).Healthy t.since) :
    (∀ poll ∈ (ticks batchSize outbox schedule).1, poll.returned.2 = none ∧
        Swept batchSize poll.before poll.returned.1 poll.after) ∧
      pending (ticks batchSize outbox schedule).2 =
        backlog batchSize (pending outbox) (schedule.map (·.arrivals.length)) := by
  induction schedule generalizing outbox with
  | nil => exact ⟨nofun, rfl⟩
  | cons t rest ih =>
    rw [List.flatMap_cons, ← List.append_assoc] at distinct
    obtain ⟨later, ordered⟩ := List.pairwise_cons.mp ordered
    have now : ((outbox ++ t.arrivals).map (·.eventID)).Nodup :=
      distinct.sublist ((List.sublist_append_left _ _).map _)
    have attemptable := due t List.mem_cons_self
    obtain ⟨count, returned, swept⟩ := run_swept batchSize (healthy t List.mem_cons_self) now
      attemptable
    have rest := ih (Polling.run t.choice (outbox ++ t.arrivals) batchSize).2.state.outbox
      (by rwa [List.map_append, swept.eventIDs, ← List.map_append])
      (fun t mem => unpublished t (List.mem_cons_of_mem _ mem)) ordered
      (fun t' mem row present waits => by
        -- what the poll has left is still due, the rest comes with the next tick
        rcases List.mem_append.mp present with earlier | new
        · exact attemptable.later (later t' mem) row (swept.kept row earlier waits) waits
        · exact due t' (List.mem_cons_of_mem _ mem) row (List.mem_append_right _ new) waits)
      (fun t mem => healthy t (List.mem_cons_of_mem _ mem))
    refine ⟨?_, ?_⟩
    · rintro poll mem
      rcases List.mem_cons.mp mem with rfl | mem
      · refine ⟨congrArg Prod.snd returned, ?_⟩
        rw [returned]
        exact swept
      · exact rest.1 poll mem
    · have length := pending_eq_length (unpublished t List.mem_cons_self)
      rw [swept.left, pending_append, length] at rest
      exact rest.2

namespace Busy

def third : OutboxRow :=
  ⟨.ofByte 3, "transfer.completed", ⟨.zero, .zero, .zero, 9⟩, 12, none, 0, 12⟩

def working (now : Time) (_ : Nat) : Choice := ⟨none, none, now, now, 0, .acknowledged⟩

def schedule : List Tick := [⟨[], 10, working 10⟩, ⟨[third], 20, working 20⟩]

theorem schedule_healthy : ∀ t ∈ schedule, ∀ n, (t.choice n).Healthy t.since := by
  intro t mem n
  rcases List.mem_pair.mp mem with rfl | rfl
  · exact ⟨rfl, rfl, Nat.le_refl 10⟩
  · exact ⟨rfl, rfl, Nat.le_refl 20⟩

end Busy

open Retried Busy in
/-- Rows come in between the polls, and each poll publishes the oldest. -/
theorem relay_keeps_up_busy :
    (ticks 1 [newer, older] schedule).2.map (·.publishedAt) = [some 20, some 10, none] ∧
      (∀ poll ∈ (ticks 1 [newer, older] schedule).1, poll.returned.2 = none ∧
        Swept 1 poll.before poll.returned.1 poll.after) ∧
      pending (ticks 1 [newer, older] schedule).2 = backlog 1 2 [0, 1] :=
  ⟨by decide +kernel, relay_keeps_up 1 [newer, older] schedule (by decide +kernel)
    (by decide +kernel) (by decide +kernel) (by unfold Attemptable; decide +kernel)
    schedule_healthy⟩

end WalletGo.Relay
