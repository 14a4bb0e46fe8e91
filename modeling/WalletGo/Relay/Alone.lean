import Mathlib.Order.WellFounded
import WalletGo.Relay.Delivery

/-!
One relay with the outbox to itself, served exactly.

Where the interleaved system lets the query return any available row or none, the
server here returns the oldest row that is pending and due at the transaction's
`now()`, ties broken by the environment, and no row only when there is none. Every
statement may fail, a commit may fail or lose its acknowledgement, and the answers
of `Publish` and the retry times are the environment's.

`Round` is what one `processOne` can do. `Polling.run_interleaved` says that such a
poll is one of the interleaved system's.
-/

namespace WalletGo.Relay

open Txn (Prog runs)

/-- A transaction that has committed. -/
structure Settled where
  eventID : UUID
  update : Update
  /-- The relay was told so. -/
  acknowledged : Bool
deriving DecidableEq, Repr

def Settled.write (d : Settled) : UUID × Update := (d.eventID, d.update)

/-- A poll of relay 0, which is alone. -/
structure Polling where
  state : State
  /-- The outbox when the last transaction began, and the transaction's `now()`. -/
  began : List OutboxRow
  now : Time
  settled : List Settled

/-- How the query can fail: `pgx.ErrNoRows` is what `Scan` makes of no row. -/
def Choice.failure (c : Choice) : Option GoError := c.fault.filter fun err => !err.is .noRows

namespace Polling

def start (outbox : List OutboxRow) : Polling := ⟨{ State.init with outbox := outbox }, [], 0, []⟩

/-- `WHERE published_at IS NULL AND next_attempt_at <= now() … SKIP LOCKED` -/
def candidates (p : Polling) : List OutboxRow := p.state.outbox.filter (p.state.available p.now)

/-- `ORDER BY created_at LIMIT 1`; among equals the environment decides. -/
def pick (p : Polling) (c : Choice) : Option OutboxRow :=
  let oldest := p.candidates.filter fun row => p.candidates.all fun other =>
    decide (row.createdAt ≤ other.createdAt)
  (oldest.find? fun row => c.pick == some row.eventID).or oldest.head?

def through (p : Polling) (outcome : Except GoError Unit × State) : Except GoError Unit × Polling :=
  (outcome.1, { p with state := outcome.2 })

def settle (p : Polling) (acknowledged : Bool) : Polling :=
  { p with
    state := p.state.commit 0
    settled := p.settled ++ (p.state.relays 0).writes.map fun write =>
      ⟨write.1, write.2, acknowledged⟩ }

def release (p : Polling) : Polling := { p with state := p.state.release 0 }

def select (p : Polling) (c : Choice) : Except GoError (Option Event) × Polling :=
  match c.failure, p.pick c with
  | some err, _ => (.error err, p.release)
  | none, none => (.ok none, p)
  | none, some row => (.ok (some (.of row)), { p with state := p.state.claim 0 row.eventID })

def answer (p : Polling) (c : Choice) : (o : Op) → o.Reply × Polling
  | .begin =>
    match c.fault with
    | some err => (.error err, p)
    | none => (.ok (), { p with began := p.state.outbox, now := c.now })
  | .select => p.select c
  | .publish e => (c.reply, { p with state := p.state.record e c.fault.isNone })
  | .nextAttempt attempts => (nextAttempt c.clock c.draw attempts, p)
  | .recordFailure eventID nextAttemptAt =>
    p.through (p.state.update 0 c eventID (.failed nextAttemptAt))
  | .markPublished eventID => p.through (p.state.update 0 c eventID (.published p.now))
  | .commit =>
    match c.commit with
    | .acknowledged => (.ok (), p.settle true)
    | .lost err => (.error err, p.settle false)
    | .failed err => (.error err, p.release)
  | .rollback => ((), p.release)

/-- `PollOnce` over an outbox, answered by the choices in turn: what it returns and
what it leaves. -/
def run (choice : Nat → Choice) (outbox : List OutboxRow) (batchSize : Nat) :
    (Nat × Option GoError) × Polling :=
  (pollOnce batchSize).run (fun n p => p.answer (choice n)) (start outbox) 0

structure Idle (p : Polling) : Prop where
  unlocked : p.state.locks = []
  unwritten : (p.state.relays 0).writes = []
  intact : ¬ p.state.Severed 0

/-- The table and the records of what happened to it. -/
def view (p : Polling) : List OutboxRow × List (Event × Bool) × List Settled :=
  (p.state.outbox, p.state.calls, p.settled)

theorem view_eq {p : Polling} {table : List OutboxRow} {calls : List (Event × Bool)}
    {log : List Settled} : p.view = (table, calls, log) ↔
      p.state.outbox = table ∧ p.state.calls = calls ∧ p.settled = log := by
  simp [view]

theorem start_idle (outbox : List OutboxRow) : (start outbox).Idle := ⟨rfl, rfl, nofun⟩

/-- Every reply the server may give. -/
def served : Prog.Discipline sig Polling where
  allows _ _ := True
  moves p o reply p' := ∃ c, p.answer c o = (reply, p')

end Polling

/-! ### The query -/

section Query

variable {p : Polling} {c : Choice} {row : OutboxRow}

theorem pick_mem (picked : p.pick c = some row) : row ∈ p.candidates := by
  unfold Polling.pick at picked
  rcases Option.or_eq_some_iff.mp picked with found | ⟨-, first⟩
  · exact (List.mem_filter.mp (List.mem_of_find?_eq_some found)).1
  · exact (List.mem_filter.mp (List.mem_of_head? first)).1

theorem candidates_nil_of_pick (picked : p.pick c = none) : p.candidates = [] := by
  unfold Polling.pick at picked
  by_contra some'
  obtain ⟨row, mem⟩ := List.exists_mem_of_ne_nil _ some'
  -- some candidate is oldest, so the filter is not empty
  obtain ⟨oldest, isMember, least⟩ := WellFounded.has_min (measure OutboxRow.createdAt).wf
    { row | row ∈ p.candidates } ⟨row, mem⟩
  have empty := List.head?_eq_none_iff.mp (Option.or_eq_none_iff.mp picked).2
  have kept : oldest ∈ p.candidates.filter fun row => p.candidates.all fun other =>
      decide (row.createdAt ≤ other.createdAt) := by
    refine List.mem_filter.mpr ⟨isMember, List.all_eq_true.mpr fun other present => ?_⟩
    exact decide_eq_true (Nat.le_of_not_lt (least other present))
  rw [empty] at kept
  cases kept

/-- With no locks the candidates are the due rows that are not published. -/
theorem mem_candidates (unlocked : p.state.locks = []) :
    row ∈ p.candidates ↔
      row ∈ p.state.outbox ∧ row.publishedAt = none ∧ row.nextAttemptAt ≤ p.now := by
  simp [Polling.candidates, State.available, unlocked]

end Query

/-! ### One transaction -/

/-- What one `processOne` can do, by what it returns. -/
inductive Round (p p' : Polling) : Except GoError (Bool × Bool) → Prop where
  /-- The transaction did not get to a row. -/
  | refused (err : GoError) (same : p'.view = p.view) : Round p p' (.error err)
  /-- No row was due. -/
  | drained (same : p'.view = p.view) (start : p'.began = p.state.outbox)
      (later : ∀ row ∈ p.state.outbox, row.publishedAt = none → p'.now < row.nextAttemptAt) :
      Round p p' (.ok (false, false))
  /-- `Publish` was called and the transaction left nothing else behind. -/
  | undone (err : GoError) (row : OutboxRow) (success : Bool)
      (view : p'.view = (p.state.outbox, p.state.calls ++ [(Event.of row, success)], p.settled)) :
      Round p p' (.error err)
  /-- The transaction committed and the relay was told. -/
  | settled (row : OutboxRow) (u : Update) (mem : row ∈ p.state.outbox)
      (pending : row.publishedAt = none)
      (view : p'.view = (State.updated p.state.outbox (row.eventID, u),
        p.state.calls ++ [(Event.of row, u.publishes)], p.settled ++ [⟨row.eventID, u, true⟩])) :
      Round p p' (.ok (true, u.publishes))
  /-- The transaction committed and the relay got an error. -/
  | lost (err : GoError) (row : OutboxRow) (u : Update) (mem : row ∈ p.state.outbox)
      (pending : row.publishedAt = none)
      (view : p'.view = (State.updated p.state.outbox (row.eventID, u),
        p.state.calls ++ [(Event.of row, u.publishes)], p.settled ++ [⟨row.eventID, u, false⟩])) :
      Round p p' (.error err)

section Transaction

variable {p q q' : Polling} {c : Choice} {row : OutboxRow} {u : Update}

/-- An update inside the transaction changes nothing that others see. -/
theorem update_view {eventID : UUID} {reply : Except GoError Unit}
    (moved : q.through (q.state.update 0 c eventID u) = (reply, q')) :
    q'.view = q.view ∧ (reply = .ok () →
      (q'.state.relays 0).writes = (q.state.relays 0).writes ++ [(eventID, u)]) := by
  unfold State.update at moved
  split at moved
  · cases moved
    exact ⟨rfl, by rintro ⟨⟩⟩
  · split at moved
    · cases moved
      exact ⟨rfl, by rintro ⟨⟩⟩
    · cases moved
      exact ⟨rfl, fun _ => rfl⟩

/-- A commit applies the update. -/
theorem settle_view {eventID : UUID} (writes : (q.state.relays 0).writes = [(eventID, u)])
    (acknowledged : Bool) :
    (q.settle acknowledged).view = (State.updated q.state.outbox (eventID, u), q.state.calls,
      q.settled ++ [⟨eventID, u, acknowledged⟩]) := by
  simp [Polling.view, Polling.settle, State.commit, State.release, State.set, writes]

/-- From the commit on. -/
theorem commit_round (mem : row ∈ p.state.outbox) (pending : row.publishedAt = none)
    (view : q.view = (p.state.outbox, p.state.calls ++ [(Event.of row, u.publishes)], p.settled))
    (writes : (q.state.relays 0).writes = [(row.eventID, u)]) :
    (Prog.op (S := sig) .commit fun reply =>
      orReturn "postgres: commit relay tx" reply fun () => .ret (.ok (true, u.publishes))).Always
      Polling.served (fun p' result => Round p p' result) q := by
  have settled (acknowledged : Bool) :
      (q.settle acknowledged).view = (State.updated p.state.outbox (row.eventID, u),
        p.state.calls ++ [(Event.of row, u.publishes)],
        p.settled ++ [⟨row.eventID, u, acknowledged⟩]) := by
    obtain ⟨outbox, calls, log⟩ := Polling.view_eq.mp view
    rw [settle_view writes, outbox, calls, log]
  refine ⟨trivial, ?_⟩
  rintro reply q' ⟨c, moved⟩
  unfold Polling.answer at moved
  cases outcome : c.commit with
  | acknowledged =>
    rw [outcome] at moved
    cases moved
    exact .settled row u mem pending (settled true)
  | lost err =>
    rw [outcome] at moved
    cases moved
    exact .lost _ row u mem pending (settled false)
  | failed err =>
    rw [outcome] at moved
    cases moved
    exact .undone _ row u.publishes view

/-- From the reply to the update on. -/
theorem update_round {reply : Except GoError Unit} (text : String) (mem : row ∈ p.state.outbox)
    (pending : row.publishedAt = none)
    (view : q.view = (p.state.outbox, p.state.calls ++ [(Event.of row, u.publishes)], p.settled))
    (unwritten : (q.state.relays 0).writes = [])
    (moved : q.through (q.state.update 0 c row.eventID u) = (reply, q')) :
    (orReturn text reply fun () => .op .commit fun reply =>
      orReturn "postgres: commit relay tx" reply fun () => .ret (.ok (true, u.publishes))).Always
      Polling.served (fun p' result => Round p p' result) q' := by
  obtain ⟨same, wrote⟩ := update_view moved
  cases reply with
  | error err => exact .undone _ row u.publishes (same.trans view)
  | ok _ =>
    refine commit_round mem pending (same.trans view) ?_
    rw [wrote rfl, unwritten]
    rfl

theorem publish_view {e : Event} {reply : Except GoError Unit}
    (moved : q.answer c (.publish e) = (reply, q')) :
    q'.view = (q.state.outbox, q.state.calls ++ [(e, reply.isOk)], q.settled) ∧
      (q'.state.relays 0).writes = (q.state.relays 0).writes := by
  cases moved
  refine ⟨?_, rfl⟩
  unfold Choice.reply
  cases c.fault with
  | none => rfl
  | some err => rfl

/-- From the call of `Publish` on. -/
theorem deliver_round (mem : row ∈ p.state.outbox) (pending : row.publishedAt = none)
    (view : q.view = p.view) (unwritten : (q.state.relays 0).writes = []) :
    (deliver (.of row)).Always Polling.served (fun p' result => Round p p' result) q := by
  obtain ⟨outbox, calls, log⟩ := Polling.view_eq.mp view
  refine ⟨trivial, ?_⟩
  rintro answer q₁ ⟨c, called⟩
  obtain ⟨recorded, still⟩ := publish_view called
  rw [outbox, calls, log] at recorded
  cases answer with
  | error err =>
    refine ⟨trivial, ?_⟩
    rintro nextAttemptAt q₂ ⟨c, scheduled⟩
    obtain rfl : q₁ = q₂ := congrArg Prod.snd scheduled
    refine ⟨trivial, ?_⟩
    rintro reply q₂ ⟨c, moved⟩
    exact update_round _ mem pending recorded (still.trans unwritten) moved
  | ok _ =>
    refine ⟨trivial, ?_⟩
    rintro reply q₂ ⟨c, moved⟩
    exact update_round _ mem pending recorded (still.trans unwritten) moved

/-- From the query on, in the transaction that has just begun. -/
theorem processRow_round (idle : q.Idle) (view : q.view = p.view)
    (start : q.began = p.state.outbox) :
    processRow.Always Polling.served (fun p' result => Round p p' result) q := by
  have outbox : q.state.outbox = p.state.outbox := congrArg Prod.fst view
  refine ⟨trivial, ?_⟩
  rintro reply q' ⟨c, moved⟩
  replace moved : q.select c = (reply, q') := moved
  unfold Polling.select at moved
  split at moved
  · rename_i err failure
    cases moved
    have other : err.is .noRows = false := by
      simpa using (Option.filter_eq_some_iff.mp failure).2
    simp only [other]
    exact .refused _ view
  · rename_i failure picked
    cases moved
    refine .drained view start fun row mem pending => ?_
    have none_due := candidates_nil_of_pick picked
    by_contra due
    have candidate := (mem_candidates idle.unlocked).mpr
      ⟨outbox ▸ mem, pending, Nat.le_of_not_lt due⟩
    rw [none_due] at candidate
    cases candidate
  · rename_i row failure picked
    cases moved
    obtain ⟨mem, pending, -⟩ := (mem_candidates idle.unlocked).mp (pick_mem picked)
    exact deliver_round (outbox ▸ mem) pending view idle.unwritten

theorem Round.release {result : Except GoError (Bool × Bool)} (round : Round p q result) :
    Round p q.release result := by
  cases round with
  | refused err same => exact .refused err same
  | drained same start later => exact .drained same start later
  | undone err row success view => exact .undone err row success view
  | settled row u mem pending view => exact .settled row u mem pending view
  | lost err row u mem pending view => exact .lost err row u mem pending view

/-- Every lock is the relay's own, and the server has not ended its transaction. -/
structure Polling.Alone (p : Polling) : Prop where
  own : ∀ lock ∈ p.state.locks, lock.1 = 0
  intact : ¬ p.state.Severed 0

theorem release_intact (s : State) : ¬ (s.release 0).Severed 0 := by
  simp [State.Severed, State.release, State.set]

theorem Polling.Alone.release (alone : q.Alone) : q.release.Idle where
  unlocked := by
    refine List.filter_eq_nil_iff.mpr fun lock mem => ?_
    simp [alone.own lock mem]
  unwritten := rfl
  intact := release_intact q.state

theorem Polling.Alone.answer {o : Op} (alone : q.Alone) : (q.answer c o).2.Alone := by
  have released : q.release.Alone :=
    ⟨fun lock mem => alone.own lock (List.mem_filter.mp mem).1, release_intact q.state⟩
  have updated (eventID : UUID) (u : Update) :
      (q.through (q.state.update 0 c eventID u)).2.Alone := by
    unfold State.update
    split
    · exact released
    · split
      · exact released
      · exact ⟨alone.own, alone.intact⟩
  cases o with
  | begin =>
    unfold Polling.answer
    cases c.fault with
    | none => exact ⟨alone.own, alone.intact⟩
    | some err => exact alone
  | select =>
    show (q.select c).2.Alone
    unfold Polling.select
    split
    · exact released
    · exact alone
    · refine ⟨?_, alone.intact⟩
      rintro lock mem
      rcases List.mem_append.mp mem with earlier | new
      · exact alone.own lock earlier
      · rw [List.mem_singleton.mp new]
  | publish e => exact ⟨alone.own, alone.intact⟩
  | nextAttempt attempts => exact alone
  | recordFailure eventID nextAttemptAt => exact updated eventID _
  | markPublished eventID => exact updated eventID _
  | commit =>
    have settled (acknowledged : Bool) : (q.settle acknowledged).Alone :=
      ⟨released.own, release_intact q.state⟩
    unfold Polling.answer
    cases c.commit with
    | acknowledged => exact settled true
    | lost err => exact settled false
    | failed err => exact released
  | rollback => exact released

theorem Polling.Alone.moved {o : Op} {reply : o.Reply} (alone : q.Alone)
    (moved : q.answer c o = (reply, q')) : q'.Alone := by
  have kept := alone.answer (c := c) (o := o)
  rwa [moved] at kept

theorem Polling.Idle.alone (idle : q.Idle) : q.Alone :=
  ⟨by simp [idle.unlocked], idle.intact⟩

theorem Polling.Idle.begin (idle : p.Idle) (now : Time) :
    ({ p with began := p.state.outbox, now := now } : Polling).Idle :=
  ⟨idle.unlocked, idle.unwritten, idle.intact⟩

/-- One call of `processOne`: the row it took, the call it made and how it was settled. -/
theorem processOne_round (idle : p.Idle) :
    processOne.Always Polling.served (fun p' result => Round p p' result ∧ p'.Idle) p := by
  refine ⟨trivial, ?_⟩
  rintro reply q ⟨c, moved⟩
  cases fault : c.fault with
  | some err =>
    simp only [Polling.answer, fault] at moved
    cases moved
    exact ⟨.refused _ rfl, idle⟩
  | none =>
    simp only [Polling.answer, fault] at moved
    cases moved
    have row := (processRow_round (p := p) (idle.begin c.now) rfl rfl).keep (I := Polling.Alone) (by
      rintro s o reply s' alone ⟨c, moved⟩
      exact alone.moved moved) (idle.begin c.now).alone
    refine Prog.Always.bind row ?_
    rintro q result ⟨round, alone⟩
    refine ⟨trivial, ?_⟩
    rintro _ _ ⟨c, moved⟩
    cases moved
    exact ⟨round.release, alone.release⟩

end Transaction

/-! ### Among the interleaved runs -/

section Interleaved

variable {s : State} {p : Polling} {c : Choice} {o : Op} {prog : Prog sig (Nat × Option GoError)}

theorem resume_release : (s.resume 0 prog).release 0 = (s.release 0).resume 0 prog := by
  simp only [State.release, State.resume, State.set, State.mk.injEq, true_and, and_true]
  funext j
  split <;> simp

theorem resume_stage (eventID : UUID) (u : Update) :
    (s.resume 0 prog).stage 0 eventID u = (s.stage 0 eventID u).resume 0 prog := by
  simp only [State.stage, State.resume, State.set, State.mk.injEq, true_and, and_true]
  funext j
  split <;> simp

theorem resume_resume (prog' : Prog sig (Nat × Option GoError)) :
    (s.resume 0 prog).resume 0 prog' = s.resume 0 prog' := by
  simp only [State.resume, State.set, State.mk.injEq, true_and, and_true]
  funext j
  split <;> simp

theorem resume_commit : (s.resume 0 prog).commit 0 = (s.commit 0).resume 0 prog := by
  rw [State.commit, resume_release]
  rfl

theorem resume_update (eventID : UUID) (u : Update) :
    (s.resume 0 prog).update 0 c eventID u =
      ((s.update 0 c eventID u).1, (s.update 0 c eventID u).2.resume 0 prog) := by
  have exhausted : (s.resume 0 prog).exhausted eventID = s.exhausted eventID := rfl
  have fault : (s.resume 0 prog).fault 0 c = s.fault 0 c := rfl
  unfold State.update
  rw [exhausted, fault]
  split
  · rw [resume_release]
  · split
    · rw [resume_release]
    · rw [resume_stage]

/-- An operation's answer does not depend on what the relay does next. -/
theorem resume_answer : (s.resume 0 prog).answer 0 c o =
    (s.answer 0 c o).map fun outcome => (outcome.1, outcome.2.resume 0 prog) := by
  cases o with
  | begin | publish | nextAttempt => rfl
  | select =>
    show (s.resume 0 prog).select 0 c = (s.select 0 c).map _
    have outbox : (s.resume 0 prog).outbox = s.outbox := rfl
    have fault : (s.resume 0 prog).fault 0 c = s.fault 0 c := rfl
    unfold State.select
    rw [outbox, fault]
    split
    · exact congrArg (fun t => some (_, t)) resume_release
    · rfl
    · split
      · rfl
      · rename_i row _
        have available : (s.resume 0 prog).available c.now row = s.available c.now row := rfl
        rw [available]
        split
        · rfl
        · rfl
  | recordFailure eventID nextAttemptAt => exact congrArg some (resume_update eventID _)
  | markPublished eventID => exact congrArg some (resume_update eventID _)
  | commit =>
    have outcome : (s.resume 0 prog).outcome 0 c = s.outcome 0 c := rfl
    unfold State.answer
    rw [outcome]
    cases s.outcome 0 c with
    | acknowledged => exact congrArg (fun t => some (_, t)) resume_commit
    | lost err => exact congrArg (fun t => some (_, t)) resume_commit
    | failed err => exact congrArg (fun t => some (_, t)) resume_release
  | rollback => exact congrArg (fun t => some (_, t)) resume_release

theorem find?_eventID {outbox : List OutboxRow} (distinct : (outbox.map (·.eventID)).Nodup)
    {row : OutboxRow} (mem : row ∈ outbox) :
    outbox.find? (fun other => other.eventID == row.eventID) = some row := by
  cases found : outbox.find? fun other => other.eventID == row.eventID with
  | none => simpa using List.find?_eq_none.mp found row mem
  | some other =>
    have same : other.eventID = row.eventID := by simpa using List.find?_some found
    rw [List.inj_on_of_nodup_map distinct (List.mem_of_find?_eq_some found) mem same]

/-- The answer is one that the interleaved system may give. -/
theorem answer_interleaved (distinct : (p.state.outbox.map (·.eventID)).Nodup)
    (intact : ¬ p.state.Severed 0) :
    ∃ c', p.state.answer 0 c' o = some ((p.answer c o).1, (p.answer c o).2.state) := by
  have fault (c' : Choice) : p.state.fault 0 c' = c'.fault := if_neg intact
  have outcome (c' : Choice) : p.state.outcome 0 c' = c'.commit := if_neg intact
  cases o with
  | begin =>
    refine ⟨c, ?_⟩
    cases fault : c.fault <;> simp [State.answer, Polling.answer, Choice.reply, fault]
  | select =>
    show ∃ c', p.state.select 0 c' = some ((p.select c).1, (p.select c).2.state)
    unfold Polling.select State.select
    split
    · rename_i err _
      exact ⟨{ c with fault := some err }, by rw [fault]; rfl⟩
    · exact ⟨{ c with fault := none, pick := none }, by rw [fault]⟩
    · rename_i row _ picked
      obtain ⟨mem, available⟩ := List.mem_filter.mp (pick_mem picked)
      refine ⟨{ c with fault := none, pick := some row.eventID, now := p.now }, ?_⟩
      simp [fault, find?_eventID distinct mem, available]
  | publish | nextAttempt | recordFailure | rollback => exact ⟨c, rfl⟩
  | markPublished eventID =>
    refine ⟨{ c with now := p.now }, ?_⟩
    simp only [State.answer, Polling.answer, State.update, fault]
    rfl
  | commit =>
    refine ⟨c, ?_⟩
    cases told : c.commit <;> simp [State.answer, Polling.answer, outcome, told] <;> rfl

theorem foldl_updated_eventIDs (outbox : List OutboxRow) (writes : List (UUID × Update)) :
    (writes.foldl State.updated outbox).map (·.eventID) = outbox.map (·.eventID) := by
  induction writes generalizing outbox with
  | nil => rfl
  | cons write rest ih => rw [List.foldl_cons, ih, map_updated _ apply_eventID]

theorem answer_eventIDs : (p.answer c o).2.state.outbox.map (·.eventID) =
    p.state.outbox.map (·.eventID) := by
  have updated (eventID : UUID) (u : Update) :
      (p.state.update 0 c eventID u).2.outbox = p.state.outbox := by
    unfold State.update
    split
    · rfl
    · split <;> rfl
  cases o with
  | begin => unfold Polling.answer; cases c.fault <;> rfl
  | select =>
    show (p.select c).2.state.outbox.map _ = _
    unfold Polling.select
    split <;> rfl
  | publish | nextAttempt | rollback => rfl
  | recordFailure eventID nextAttemptAt => exact congrArg _ (updated eventID _)
  | markPublished eventID => exact congrArg _ (updated eventID _)
  | commit =>
    unfold Polling.answer
    cases c.commit with
    | acknowledged | lost => exact foldl_updated_eventIDs _ _
    | failed => rfl

/-- The run of a lone relay, from any point on, is one of the relay system. -/
theorem run_interleaved_from (prog : Prog sig (Nat × Option GoError)) (p : Polling)
    (choice : Nat → Choice) (n : Nat)
    (distinct : (p.state.outbox.map (·.eventID)).Nodup) (alone : p.Alone) :
    ∃ acts, (∀ a ∈ acts, ∃ c, a = .perform 0 c) ∧
      runs State.step (p.state.resume 0 prog) acts =
        some ((prog.run (fun n p => p.answer (choice n)) p n).2.state.resume 0
          (.ret (prog.run (fun n p => p.answer (choice n)) p n).1)) := by
  induction prog generalizing p n with
  | ret value => exact ⟨[], nofun, rfl⟩
  | op o next ih =>
    obtain ⟨c, answered⟩ := answer_interleaved (c := choice n) (o := o) distinct alone.intact
    obtain ⟨acts, own, ran⟩ := ih (p.answer (choice n) o).1 (p.answer (choice n) o).2 (n + 1)
      (by rwa [answer_eventIDs]) alone.answer
    refine ⟨.perform 0 c :: acts, ?_, ?_⟩
    · rintro a mem
      rcases List.mem_cons.mp mem with rfl | later
      · exact ⟨c, rfl⟩
      · exact own a later
    · refine Txn.runs_cons_iff.mpr ⟨_, ?_, ran⟩
      show (p.state.resume 0 (.op o next)).perform 0 c = _
      have pending : ((p.state.resume 0 (.op o next)).relays 0).prog = .op o next := rfl
      rw [State.perform, pending]
      simp only [resume_answer, answered, Option.map_some, resume_resume]

end Interleaved

/-- A poll that is served exactly is one of the interleaved system's, in which no
other relay acts. -/
theorem Polling.run_interleaved (batchSize : Nat) (outbox : List OutboxRow) (choice : Nat → Choice)
    (distinct : (outbox.map (·.eventID)).Nodup) :
    ∃ acts, (∀ a ∈ acts, ∃ c, a = .perform 0 c) ∧
      runs State.step (start outbox).state (.poll 0 batchSize :: acts) =
        some ((run choice outbox batchSize).2.state.resume 0
          (.ret (run choice outbox batchSize).1)) := by
  obtain ⟨acts, own, ran⟩ := run_interleaved_from (pollOnce batchSize) (start outbox) choice 0
    distinct (start_idle outbox).alone
  exact ⟨acts, own, Txn.runs_cons_iff.mpr ⟨_, rfl, ran⟩⟩

end WalletGo.Relay
