import Mathlib.Data.List.Nodup
import WalletGo.Relay.System

/-!
At-least-once delivery, one transaction at a time per event.

`At` is what a relay's transaction knows at each phase of `processOne`: the row it
holds is the pending row it read, and the answer of `Publish` is on record before
the update is. A relay whose transaction the server has ended knows only that it
once read the row (`Adrift`), and calls `Publish` all the same. `Inv` joins these
facts for every relay with what the rows say about the calls and commits so far. A
relay's operation changes the facts of other relays only through the rows it holds,
and those nobody else holds (`Kept`).
-/

namespace WalletGo.Relay

open Txn (Prog runs runs_cons_iff runs_append_iff runs_invariant)

def Update.publishes : Update → Bool
  | .failed _ => false
  | .published _ => true

namespace Phase

def row : Phase → Option Event
  | .publishing e | .scheduling e | .recording e _ | .marking e | .committing e _ => some e
  | .outside | .selecting | .closing => none

def call : Phase → Option (Event × Bool)
  | .scheduling e | .recording e _ => some (e, false)
  | .marking e => some (e, true)
  | .committing e published => some (e, published)
  | .outside | .selecting | .publishing _ | .closing => none

def Wrote : Phase → List (UUID × Update) → Prop
  | .committing e published, writes => ∃ u : Update, writes = [(e.id, u)] ∧ u.publishes = published
  | _, writes => writes = []

theorem call_row {phase : Phase} {e : Event} {success : Bool}
    (called : phase.call = some (e, success)) : phase.row = some e := by
  cases phase with
  | outside | selecting | publishing | closing => cases called
  | scheduling | recording | marking | committing => cases called; rfl

end Phase

/-- What the transaction of relay `i` knows at a phase. -/
structure At (s : State) (i : Nat) (phase : Phase) : Prop where
  alive : ¬ s.Severed i
  held : ∀ eventID, s.Holds i eventID ↔ ∃ e, phase.row = some e ∧ e.id = eventID
  pending : ∀ e, phase.row = some e → ∃ row ∈ s.outbox, row.publishedAt = none ∧ Event.of row = e
  called : ∀ e success, phase.call = some (e, success) →
    (e, success) ∈ s.calls ∧ s.commits.count e.id < s.callsFor e.id
  wrote : phase.Wrote (s.relays i).writes

/-- What of a row never changes, -/
def identity (row : OutboxRow) : UUID × String × EventPayload :=
  (row.eventID, row.eventType, row.payload)

/-- and what of an event is the same in every delivery. -/
def Event.identity (e : Event) : UUID × String × EventPayload := (e.id, e.type, e.payload)

/-- What a relay knows whose transaction the server has ended: that it once read the row. -/
structure Adrift (s : State) (i : Nat) (phase : Phase) : Prop where
  severed : s.Severed i
  inside : phase ≠ .outside
  free : ∀ eventID, ¬ s.Holds i eventID
  read : ∀ e, phase.row = some e → e.identity ∈ s.outbox.map identity
  unwritten : (s.relays i).writes = []

/-- What a row says about the past. -/
structure Accounted (s : State) (row : OutboxRow) : Prop where
  attempts : row.attempts = s.commits.count row.eventID
  calls : s.commits.count row.eventID ≤ s.callsFor row.eventID
  published : row.publishedAt.isSome → ∃ e, (e, true) ∈ s.calls ∧ e.id = row.eventID ∧
    e.type = row.eventType ∧ e.payload = row.payload

/-- What holds of the tables and the records in every reachable state. -/
structure Core (s : State) : Prop where
  distinct : (s.outbox.map (·.eventID)).Nodup
  exclusive : ∀ i j eventID, s.Holds i eventID → s.Holds j eventID → i = j
  known : ∀ eventID ∈ s.commits, eventID ∈ s.outbox.map (·.eventID)
  rows : ∀ row ∈ s.outbox, Accounted s row

structure Inv (s : State) : Prop where
  core : Core s
  relays : ∀ i, ∃ phase, Phase.Follows (s.relays i).prog phase ∧ (At s i phase ∨ Adrift s i phase)

/-! ### What other relays do not notice -/

/-- Nothing that relay `j` knows has changed from `s` to `t`. -/
structure Kept (s t : State) (j : Nat) : Prop where
  session : t.relays j = s.relays j
  held : ∀ eventID, t.Holds j eventID ↔ s.Holds j eventID
  rows : ∀ row ∈ s.outbox, s.Holds j row.eventID → row ∈ t.outbox
  identities : s.outbox.map identity <+: t.outbox.map identity
  calls : s.calls <+: t.calls
  commits : ∀ eventID, s.Holds j eventID → t.commits.count eventID = s.commits.count eventID

theorem callsFor_mono {s t : State} (calls : s.calls <+: t.calls) (eventID : UUID) :
    s.callsFor eventID ≤ t.callsFor eventID :=
  calls.sublist.countP_le

/-- What other relays do leaves a relay at its phase. -/
theorem At.kept {s t : State} {j : Nat} {phase : Phase} (at' : At s j phase) (kept : Kept s t j) :
    At t j phase where
  alive := by
    rw [State.Severed, kept.session]
    exact at'.alive
  held eventID := (kept.held eventID).trans (at'.held eventID)
  pending e holds := by
    obtain ⟨row, mem, unpublished, event⟩ := at'.pending e holds
    have locked : s.Holds j row.eventID := (at'.held _).mpr ⟨e, holds, by rw [← event]; rfl⟩
    exact ⟨row, kept.rows row mem locked, unpublished, event⟩
  called e success called := by
    obtain ⟨mem, fewer⟩ := at'.called e success called
    have locked : s.Holds j e.id := (at'.held _).mpr ⟨e, Phase.call_row called, rfl⟩
    refine ⟨kept.calls.subset mem, ?_⟩
    rw [kept.commits _ locked]
    exact fewer.trans_le (callsFor_mono kept.calls _)
  wrote := by
    rw [kept.session]
    exact at'.wrote

theorem Adrift.kept {s t : State} {j : Nat} {phase : Phase} (adrift : Adrift s j phase)
    (kept : Kept s t j) : Adrift t j phase where
  severed := by
    rw [State.Severed, kept.session]
    exact adrift.severed
  inside := adrift.inside
  free eventID holds := adrift.free eventID ((kept.held eventID).mp holds)
  read e reads := kept.identities.subset (adrift.read e reads)
  unwritten := by
    rw [kept.session]
    exact adrift.unwritten

section Effects

variable {s : State} {i j : Nat}

theorem kept_resume (apart : j ≠ i) (prog : Prog sig (Nat × Option GoError)) :
    Kept s (s.resume i prog) j where
  session := if_neg apart
  held _ := .rfl
  rows _ mem _ := mem
  identities := List.prefix_rfl
  calls := List.prefix_rfl
  commits _ _ := rfl

theorem kept_stage (apart : j ≠ i) (eventID : UUID) (u : Update) :
    Kept s (s.stage i eventID u) j where
  session := if_neg apart
  held _ := .rfl
  rows _ mem _ := mem
  identities := List.prefix_rfl
  calls := List.prefix_rfl
  commits _ _ := rfl

theorem kept_record (e : Event) (success : Bool) : Kept s (s.record e success) j where
  session := rfl
  held _ := .rfl
  rows _ mem _ := mem
  identities := List.prefix_rfl
  calls := List.prefix_append ..
  commits _ _ := rfl

/-- A relay that lets go holds nothing, and the others what they held. -/
theorem holds_release {eventID : UUID} :
    (s.release i).Holds j eventID ↔ s.Holds j eventID ∧ j ≠ i := by
  simp [State.Holds, State.release]

theorem holds_claim {eventID other : UUID} :
    (s.claim i eventID).Holds j other ↔ s.Holds j other ∨ (j = i ∧ other = eventID) := by
  simp [State.Holds, State.claim]

theorem kept_release (apart : j ≠ i) : Kept s (s.release i) j where
  session := if_neg apart
  held _ := holds_release.trans (and_iff_left apart)
  rows _ mem _ := mem
  identities := List.prefix_rfl
  calls := List.prefix_rfl
  commits _ _ := rfl

/-- A connection that is lost takes its locks with it. -/
theorem holds_sever {eventID : UUID} : (s.sever i).Holds j eventID ↔ s.Holds j eventID ∧ j ≠ i :=
  holds_release (s := s)

theorem kept_sever (apart : j ≠ i) : Kept s (s.sever i) j where
  session := by simp [State.sever, State.release, State.set, apart]
  held _ := holds_sever.trans (and_iff_left apart)
  rows _ mem _ := mem
  identities := List.prefix_rfl
  calls := List.prefix_rfl
  commits _ _ := rfl

theorem kept_claim (apart : j ≠ i) (eventID : UUID) : Kept s (s.claim i eventID) j where
  session := rfl
  held _ := holds_claim.trans (or_iff_left fun h => apart h.1)
  rows _ mem _ := mem
  identities := List.prefix_rfl
  calls := List.prefix_rfl
  commits _ _ := rfl

/-- The relay's own phase does not depend on what is left of its program. -/
theorem At.resume {phase : Phase} (at' : At s i phase) (prog : Prog sig (Nat × Option GoError)) :
    At (s.resume i prog) i phase where
  alive := by
    have same : ((s.resume i prog).relays i).severed = (s.relays i).severed := by
      simp [State.resume, State.set]
    rw [State.Severed, same]
    exact at'.alive
  held := at'.held
  pending := at'.pending
  called := at'.called
  wrote := by
    have same : ((s.resume i prog).relays i).writes = (s.relays i).writes := by
      simp [State.resume, State.set]
    rw [same]
    exact at'.wrote

theorem Adrift.resume {phase : Phase} (adrift : Adrift s i phase)
    (prog : Prog sig (Nat × Option GoError)) : Adrift (s.resume i prog) i phase where
  severed := by simpa [State.Severed, State.resume, State.set] using adrift.severed
  inside := adrift.inside
  free := adrift.free
  read := adrift.read
  unwritten := by simpa [State.resume, State.set] using adrift.unwritten

end Effects

/-! ### What one operation does -/

theorem Phase.wrote_nil {phase : Phase} (closed : phase.row = none) : phase.Wrote [] := by
  cases phase with
  | outside | selecting | closing => rfl
  | publishing | scheduling | recording | marking | committing => cases closed

/-- Outside a row's processing there is nothing to know. -/
theorem At.of_closed {s : State} {i : Nat} {phase : Phase} (closed : phase.row = none)
    (alive : ¬ s.Severed i) (free : ∀ eventID, ¬ s.Holds i eventID)
    (writes : (s.relays i).writes = []) : At s i phase where
  alive := alive
  held eventID := by simp [closed, free eventID]
  pending e holds := by simp [closed] at holds
  called e success called := by simp [Phase.call_row called] at closed
  wrote := writes ▸ Phase.wrote_nil closed

theorem At.free {s : State} {i : Nat} {phase : Phase} (at' : At s i phase)
    (closed : phase.row = none) (eventID : UUID) : ¬ s.Holds i eventID := by
  rw [at'.held]
  simp [closed]

theorem Accounted.mono {s t : State} {row : OutboxRow} (accounted : Accounted s row)
    (commits : t.commits.count row.eventID = s.commits.count row.eventID)
    (calls : s.calls <+: t.calls) : Accounted t row where
  attempts := accounted.attempts.trans commits.symm
  calls := commits ▸ accounted.calls.trans (callsFor_mono calls _)
  published done := by
    obtain ⟨e, mem, event⟩ := accounted.published done
    exact ⟨e, calls.subset mem, event⟩

/-- Without a commit the rows stay accounted for. -/
theorem Core.of_uncommitted {s t : State} (core : Core s) (outbox : t.outbox = s.outbox)
    (commits : t.commits = s.commits) (calls : s.calls <+: t.calls)
    (exclusive : ∀ i j eventID, t.Holds i eventID → t.Holds j eventID → i = j) : Core t where
  distinct := outbox ▸ core.distinct
  exclusive := exclusive
  known := by
    rw [outbox, commits]
    exact core.known
  rows row mem := (core.rows row (outbox ▸ mem)).mono (by rw [commits]) calls

/-- No event of `s` is lost or altered in `t`, and the rows of those already published are
left alone. -/
structure Lasting (s t : State) : Prop where
  identities : s.outbox.map identity <+: t.outbox.map identity
  published : ∀ row ∈ s.outbox, row.publishedAt.isSome → row ∈ t.outbox

theorem Lasting.of_eq {s t : State} (outbox : t.outbox = s.outbox) : Lasting s t where
  identities := outbox ▸ List.prefix_rfl
  published _ mem _ := outbox ▸ mem

theorem Lasting.trans {s t u : State} (first : Lasting s t) (second : Lasting t u) :
    Lasting s u where
  identities := first.identities.trans second.identities
  published row mem done := second.published row (first.published row mem done) done

/-- A published row is not the one a transaction holds. -/
theorem At.ne_of_published {s : State} {i : Nat} {phase : Phase} {e : Event} {row : OutboxRow}
    (core : Core s) (at' : At s i phase) (held : phase.row = some e) (mem : row ∈ s.outbox)
    (done : row.publishedAt.isSome) : row.eventID ≠ e.id := by
  intro same
  obtain ⟨other, otherMem, unpublished, event⟩ := at'.pending e held
  have otherID : other.eventID = e.id := congrArg Event.id event
  obtain rfl := List.inj_on_of_nodup_map core.distinct mem otherMem (same.trans otherID.symm)
  simp [unpublished] at done

/-- The operation of relay `i` leads from `s` to `t` and into `phase`. Without its
transaction a relay does not get into a call of `Publish`. -/
structure Moved (s t : State) (i : Nat) (phase : Phase) : Prop where
  core : Core t
  self : At t i phase ∨ Adrift t i phase ∧ ∀ e, phase ≠ .publishing e
  others : ∀ j, j ≠ i → Kept s t j
  lasting : Lasting s t
  length : t.outbox.length = s.outbox.length

section Operations

variable {s : State} {i : Nat} {phase : Phase} (core : Core s)

theorem kept_refl (j : Nat) : Kept s s j :=
  ⟨rfl, fun _ => .rfl, fun _ mem _ => mem, List.prefix_rfl, List.prefix_rfl, fun _ _ => rfl⟩

include core

theorem moved_refl (self : At s i phase ∨ Adrift s i phase ∧ ∀ e, phase ≠ .publishing e) :
    Moved s s i phase :=
  ⟨core, self, fun j _ => kept_refl j, .of_eq rfl, rfl⟩

theorem moved_release (closed : phase.row = none) : Moved s (s.release i) i phase where
  core := core.of_uncommitted rfl rfl List.prefix_rfl fun j k eventID hj hk =>
    core.exclusive j k eventID (holds_release.mp hj).1 (holds_release.mp hk).1
  self := by
    refine .inl (At.of_closed closed ?_ (fun eventID holds => (holds_release.mp holds).2 rfl) ?_)
    · simp [State.Severed, State.release, State.set]
    · simp [State.release, State.set]
  others _ apart := kept_release apart
  lasting := .of_eq rfl
  length := rfl

/-- A call of the publisher, by the relay that holds the row. -/
theorem moved_record {e : Event} (at' : At s i (.publishing e)) (success : Bool)
    (row : phase.row = some e) (call : phase.call = some (e, success)) (wrote : phase.Wrote []) :
    Moved s (s.record e success) i phase where
  core := core.of_uncommitted rfl rfl (List.prefix_append ..) core.exclusive
  self := by
    refine .inl ⟨at'.alive, fun eventID => ?_, fun e' holds => ?_, fun e' success' called => ?_, ?_⟩
    · rw [row]
      exact at'.held eventID
    · exact at'.pending e' (row.symm.trans holds)
    · obtain ⟨rfl, rfl⟩ := Prod.mk.inj (Option.some.inj (call.symm.trans called))
      obtain ⟨r, mem, _, event⟩ := at'.pending e rfl
      have earlier : s.commits.count e.id ≤ s.callsFor e.id := event ▸ (core.rows r mem).calls
      have counted : (s.record e success).callsFor e.id = s.callsFor e.id + 1 := by
        simp [State.callsFor, State.record]
      refine ⟨by simp [State.record], ?_⟩
      rw [counted]
      exact Nat.lt_succ_of_le earlier
    · rw [show ((s.record e success).relays i).writes = [] from at'.wrote]
      exact wrote
  others _ _ := kept_record e success
  lasting := .of_eq rfl
  length := rfl

/-- A relay whose transaction is gone hears of its call as any other. -/
theorem moved_record_adrift {e : Event} (adrift : Adrift s i (.publishing e)) (success : Bool)
    (row : phase.row = some e) (inside : phase ≠ .outside) (called : ∀ e, phase ≠ .publishing e) :
    Moved s (s.record e success) i phase where
  core := core.of_uncommitted rfl rfl (List.prefix_append ..) core.exclusive
  self := .inr ⟨⟨adrift.severed, inside, adrift.free, fun e' reads =>
    adrift.read e' (row.symm.trans reads), adrift.unwritten⟩, called⟩
  others _ _ := kept_record e success
  lasting := .of_eq rfl
  length := rfl

/-- An update inside the transaction, after the call it is for. -/
theorem moved_stage {e : Event} {published : Bool} (held : phase.row = some e)
    (called : phase.call = some (e, published)) (at' : At s i phase)
    (writes : (s.relays i).writes = []) (u : Update) (publishes : u.publishes = published) :
    Moved s (s.stage i e.id u) i (.committing e published) where
  core := core.of_uncommitted rfl rfl List.prefix_rfl core.exclusive
  self := by
    refine .inl ⟨?_, fun eventID => ?_, fun e' holds => ?_, fun e' success' called' => ?_, u, ?_,
      publishes⟩
    · simpa [State.Severed, State.stage, State.set] using at'.alive
    · rw [show (Phase.committing e published).row = phase.row from held.symm]
      exact at'.held eventID
    · exact at'.pending e' (held.trans holds)
    · exact at'.called e' success' (called.trans called')
    · simp [State.stage, State.set, writes]
  others _ apart := kept_stage apart e.id u
  lasting := .of_eq rfl
  length := rfl

/-- The row that is claimed was nobody's. -/
theorem moved_claim {row : OutboxRow} {now : Time} (at' : At s i .selecting) (mem : row ∈ s.outbox)
    (available : s.available now row) :
    Moved s (s.claim i row.eventID) i (.publishing (.of row)) := by
  simp only [State.available, Bool.and_eq_true, Option.isNone_iff_eq_none, List.all_eq_true,
    bne_iff_ne] at available
  obtain ⟨⟨unpublished, _⟩, unlocked⟩ := available
  have nobody : ∀ j, ¬ s.Holds j row.eventID := fun j holds => unlocked _ holds rfl
  refine ⟨?_, .inl ?_, fun j apart => kept_claim apart _, .of_eq rfl, rfl⟩
  · refine core.of_uncommitted rfl rfl List.prefix_rfl fun j k eventID hj hk => ?_
    rcases holds_claim.mp hj with oldj | ⟨rfl, rfl⟩
    · rcases holds_claim.mp hk with oldk | ⟨rfl, rfl⟩
      · exact core.exclusive j k eventID oldj oldk
      · exact absurd oldj (nobody j)
    · rcases holds_claim.mp hk with oldk | ⟨rfl, _⟩
      · exact absurd oldk (nobody k)
      · rfl
  · refine ⟨at'.alive, fun eventID => ?_, fun e holds => ?_, fun e success called => ?_, at'.wrote⟩
    · rw [holds_claim, or_iff_right (at'.free rfl eventID)]
      constructor
      · rintro ⟨_, rfl⟩
        exact ⟨_, rfl, rfl⟩
      · rintro ⟨_, ⟨⟩, rfl⟩
        exact ⟨rfl, rfl⟩
    · cases holds
      exact ⟨row, mem, unpublished, rfl⟩
    · cases called

end Operations

/-! ### The commit -/

@[simp] theorem apply_eventID (row : OutboxRow) (u : Update) :
    (u.apply row).eventID = row.eventID := by
  cases u <;> rfl

theorem apply_identity (row : OutboxRow) (u : Update) : identity (u.apply row) = identity row := by
  cases u <;> rfl

theorem apply_event (row : OutboxRow) (u : Update) :
    Event.of (u.apply row) = { Event.of row with attempts := row.attempts + 1 } := by
  cases u <;> rfl

theorem map_updated {β : Type} (f : OutboxRow → β)
    (keeps : ∀ row (u : Update), f (u.apply row) = f row) (outbox : List OutboxRow)
    (write : UUID × Update) : (State.updated outbox write).map f = outbox.map f := by
  rw [State.updated, List.map_map]
  refine List.map_congr_left fun row _ => ?_
  rw [Function.comp_apply]
  split
  · exact keeps row write.2
  · rfl

theorem mem_updated_of_ne {outbox : List OutboxRow} {write : UUID × Update} {row : OutboxRow}
    (mem : row ∈ outbox) (apart : row.eventID ≠ write.1) : row ∈ State.updated outbox write :=
  List.mem_map.mpr ⟨row, mem, if_neg apart⟩

section Commit

variable {s : State} {i : Nat} {e : Event} {published : Bool} {u : Update}

theorem commit_outbox (writes : (s.relays i).writes = [(e.id, u)]) :
    (s.commit i).outbox = State.updated s.outbox (e.id, u) := by
  rw [State.commit, writes]
  rfl

theorem commit_commits (writes : (s.relays i).writes = [(e.id, u)]) :
    (s.commit i).commits = s.commits ++ [e.id] := by
  rw [State.commit, writes]
  rfl

theorem commit_count (writes : (s.relays i).writes = [(e.id, u)]) {eventID : UUID}
    (apart : eventID ≠ e.id) : (s.commit i).commits.count eventID = s.commits.count eventID := by
  rw [commit_commits writes, List.count_append, List.count_singleton,
    if_neg (by simpa using apart.symm)]
  rfl

/-- The row that is committed was pending, and the answer of its `Publish` is on
record. -/
theorem Core.accounted_commit (core : Core s) (at' : At s i (.committing e published))
    (writes : (s.relays i).writes = [(e.id, u)]) (publishes : u.publishes = published)
    {row : OutboxRow} (mem : row ∈ s.outbox) (same : row.eventID = e.id) :
    Accounted (s.commit i) (u.apply row) := by
  obtain ⟨held, heldMem, unpublished, event⟩ := at'.pending e rfl
  obtain ⟨called, fewer⟩ := at'.called e published rfl
  have heldID : held.eventID = e.id := congrArg Event.id event
  obtain rfl : row = held :=
    List.inj_on_of_nodup_map core.distinct mem heldMem (same.trans heldID.symm)
  have counted : (s.commit i).commits.count e.id = s.commits.count e.id + 1 := by
    rw [commit_commits writes, List.count_append, List.count_singleton_self]
  refine ⟨?_, ?_, fun done => ?_⟩
  · have attempts : (u.apply row).attempts = row.attempts + 1 :=
      congrArg Event.attempts (apply_event row u)
    rw [attempts, apply_eventID, same, counted, (core.rows row mem).attempts, same]
  · rw [apply_eventID, same, counted]
    exact fewer
  · cases u with
    | failed nextAttemptAt => simp [Update.apply, unpublished] at done
    | published now =>
        cases publishes
        exact ⟨e, called, event ▸ rfl, event ▸ rfl, event ▸ rfl⟩

/-- A commit settles the row that the relay holds. -/
theorem moved_commit (core : Core s) (at' : At s i (.committing e published)) :
    Moved s (s.commit i) i .closing := by
  obtain ⟨u, writes, publishes⟩ := at'.wrote
  have holds : ∀ j eventID, (s.commit i).Holds j eventID ↔ s.Holds j eventID ∧ j ≠ i :=
    fun j eventID => holds_release
  have ids : (s.commit i).outbox.map (·.eventID) = s.outbox.map (·.eventID) := by
    rw [commit_outbox writes, map_updated _ apply_eventID]
  have mine : s.Holds i e.id := (at'.held _).mpr ⟨e, rfl, rfl⟩
  have same : (s.commit i).outbox.map identity = s.outbox.map identity := by
    rw [commit_outbox writes, map_updated _ apply_identity]
  have identities : s.outbox.map identity <+: (s.commit i).outbox.map identity :=
    same ▸ List.prefix_rfl
  refine ⟨⟨?_, ?_, ?_, ?_⟩, .inl ?_, ?_, ⟨identities, ?_⟩, ?_⟩
  · rw [ids]
    exact core.distinct
  · intro j k eventID hj hk
    exact core.exclusive j k eventID ((holds _ _).mp hj).1 ((holds _ _).mp hk).1
  · intro eventID mem
    rw [ids]
    rw [commit_commits writes, List.mem_append, List.mem_singleton] at mem
    rcases mem with mem | rfl
    · exact core.known eventID mem
    · obtain ⟨row, rowMem, _, event⟩ := at'.pending e rfl
      exact List.mem_map.mpr ⟨row, rowMem, congrArg Event.id event⟩
  · intro row mem
    rw [commit_outbox writes] at mem
    obtain ⟨old, oldMem, rfl⟩ := List.mem_map.mp mem
    split
    case isTrue same => exact core.accounted_commit at' writes publishes oldMem same
    case isFalse apart =>
      exact (core.rows old oldMem).mono (commit_count writes apart) List.prefix_rfl
  · refine At.of_closed rfl ?_ (fun eventID h => ((holds _ _).mp h).2 rfl) ?_
    · simp [State.Severed, State.commit, State.release, State.set]
    · simp [State.commit, State.release, State.set]
  · intro j apart
    -- exclusion: what relay `j` holds is not the row committed here
    have other : ∀ eventID, s.Holds j eventID → eventID ≠ e.id := by
      rintro _ hj rfl
      exact apart (core.exclusive j i _ hj mine)
    refine ⟨if_neg apart, fun eventID => (holds j eventID).trans (and_iff_left apart), ?_,
      identities, List.prefix_rfl, fun eventID hj => commit_count writes (other _ hj)⟩
    intro row mem hj
    rw [commit_outbox writes]
    exact mem_updated_of_ne mem (other _ hj)
  · intro row mem done
    rw [commit_outbox writes]
    exact mem_updated_of_ne mem (at'.ne_of_published core rfl mem done)
  · rw [commit_outbox writes, State.updated, List.length_map]

end Commit

/-! ### Every step -/

theorem moved_update {s t : State} {i : Nat} {c : Choice} {phase : Phase} {e : Event}
    {published : Bool} {u : Update} {reply : Except GoError Unit} (core : Core s)
    (at' : At s i phase) (held : phase.row = some e) (called : phase.call = some (e, published))
    (writes : (s.relays i).writes = []) (publishes : u.publishes = published)
    (updated : s.update i c e.id u = (reply, t)) :
    Moved s t i (match reply with | .ok () => .committing e published | .error _ => .closing) := by
  unfold State.update at updated
  split at updated
  · cases updated
    exact moved_release core rfl
  · split at updated
    · cases updated
      exact moved_release core rfl
    · cases updated
      exact moved_stage core held called at' writes u publishes

/-- One operation, phase by phase. -/
theorem moved_answer {s t : State} {i : Nat} {c : Choice} {phase : Phase} {reply : phase.op.Reply}
    (core : Core s) (at' : At s i phase) (answered : s.answer i c phase.op = some (reply, t)) :
    Moved s t i (phase.next phase.op reply) := by
  cases phase with
  | outside =>
      cases answered
      change Moved s s i (Phase.outside.next .begin c.reply)
      cases c.reply with
      | ok => exact moved_refl core (.inl (.of_closed rfl at'.alive (at'.free rfl) at'.wrote))
      | error err => exact moved_refl core (.inl at')
  | selecting =>
      change s.select i c = some (reply, t) at answered
      unfold State.select at answered
      split at answered
      · cases answered
        exact moved_release core rfl
      · cases answered
        exact moved_refl core (.inl (.of_closed rfl at'.alive (at'.free rfl) at'.wrote))
      · split at answered
        · cases answered
        case h_2 row found =>
          split at answered
          case isFalse => cases answered
          case isTrue available =>
            cases answered
            exact moved_claim core at' (List.mem_of_find?_eq_some found) available
  | publishing e =>
      cases answered
      change Moved s (s.record e c.fault.isNone) i ((Phase.publishing e).next (.publish e) c.reply)
      unfold Choice.reply
      cases c.fault with
      | none => exact moved_record core at' true rfl rfl rfl
      | some err => exact moved_record core at' false rfl rfl rfl
  | scheduling e =>
      cases answered
      exact moved_refl core (.inl ⟨at'.alive, at'.held, at'.pending, at'.called, at'.wrote⟩)
  | recording e nextAttemptAt =>
      have moved := moved_update core at' rfl rfl at'.wrote rfl (Option.some.inj answered)
      match reply with
      | .ok () => exact moved
      | .error _ => exact moved
  | marking e =>
      have moved := moved_update core at' rfl rfl at'.wrote rfl (Option.some.inj answered)
      match reply with
      | .ok () => exact moved
      | .error _ => exact moved
  | committing e published =>
      simp only [Phase.op, State.answer] at answered
      split at answered
      · cases answered
        exact moved_commit core at'
      · cases answered
        exact moved_commit core at'
      · cases answered
        exact moved_release core rfl
  | closing =>
      cases answered
      exact moved_release core rfl

/-- Without its transaction a relay can publish and schedule, and no statement of its
succeeds. -/
theorem moved_answer_adrift {s t : State} {i : Nat} {c : Choice} {phase : Phase}
    {reply : phase.op.Reply} (core : Core s) (adrift : Adrift s i phase)
    (answered : s.answer i c phase.op = some (reply, t)) :
    Moved s t i (phase.next phase.op reply) := by
  have fails : s.fault i c = some c.broken := if_pos adrift.severed
  have undone : s.outcome i c = .failed c.broken := if_pos adrift.severed
  cases phase with
  | outside => exact absurd rfl adrift.inside
  | selecting =>
      change s.select i c = some (reply, t) at answered
      rw [State.select, fails] at answered
      cases answered
      exact moved_release core rfl
  | publishing e =>
      cases answered
      change Moved s (s.record e c.fault.isNone) i ((Phase.publishing e).next (.publish e) c.reply)
      unfold Choice.reply
      cases c.fault with
      | none => exact moved_record_adrift core adrift true rfl nofun nofun
      | some err => exact moved_record_adrift core adrift false rfl nofun nofun
  | scheduling e =>
      cases answered
      exact moved_refl core
        (.inr ⟨⟨adrift.severed, nofun, adrift.free, adrift.read, adrift.unwritten⟩, nofun⟩)
  | recording e nextAttemptAt =>
      simp only [Phase.op, State.answer, State.update, fails] at answered
      cases answered
      exact moved_release core rfl
  | marking e =>
      simp only [Phase.op, State.answer, State.update, fails] at answered
      cases answered
      exact moved_release core rfl
  | committing e published =>
      simp only [Phase.op, State.answer, undone] at answered
      cases answered
      exact moved_release core rfl
  | closing =>
      cases answered
      exact moved_release core rfl

/-- A step of relay `i` that ends in a phase of its program. -/
theorem Inv.of_moved {s t : State} {i : Nat} {phase : Phase}
    {prog : Prog sig (Nat × Option GoError)} (inv : Inv s) (moved : Moved s t i phase)
    (follows : Phase.Follows prog phase) : Inv (t.resume i prog) := by
  refine ⟨moved.core.of_uncommitted rfl rfl List.prefix_rfl moved.core.exclusive, fun j => ?_⟩
  by_cases same : j = i
  · subst same
    refine ⟨phase, by simpa [State.resume, State.set] using follows, ?_⟩
    rcases moved.self with at' | ⟨adrift, -⟩
    · exact .inl (at'.resume prog)
    · exact .inr (adrift.resume prog)
  · obtain ⟨other, otherFollows, knows⟩ := inv.relays j
    have kept := moved.others j same
    refine ⟨other, ?_, ?_⟩
    · rw [(kept_resume same prog).session, kept.session]
      exact otherFollows
    · rcases knows with at' | adrift
      · exact .inl ((at'.kept kept).kept (kept_resume same prog))
      · exact .inr ((adrift.kept kept).kept (kept_resume same prog))

/-- What a step of a relay is: one operation of the phase it is in. -/
theorem perform_moved {s t : State} {i : Nat} {c : Choice} (inv : Inv s)
    (performed : s.perform i c = some t) :
    ∃ (phase : Phase) (u : State) (reply : phase.op.Reply) (prog : _),
      s.answer i c phase.op = some (reply, u) ∧
      (∃ next, (s.relays i).prog = .op phase.op next) ∧ Moved s u i (phase.next phase.op reply) ∧
      Phase.Follows prog (phase.next phase.op reply) ∧ t = u.resume i prog := by
  obtain ⟨phase, follows, knows⟩ := inv.relays i
  unfold State.perform at performed
  split at performed
  · cases performed
  case h_2 o next residual =>
    rw [residual] at follows
    obtain ⟨rfl, later⟩ := follows
    obtain ⟨⟨reply, u⟩, answered, rfl⟩ := Option.map_eq_some_iff.mp performed
    refine ⟨phase, u, reply, next reply, answered, ⟨next, residual⟩, ?_, later reply _ rfl, rfl⟩
    rcases knows with at' | adrift
    · exact moved_answer inv.core at' answered
    · exact moved_answer_adrift inv.core adrift answered

/-- A new row has been attempted by nobody. -/
theorem Inv.append {s : State} {row : OutboxRow} (inv : Inv s) (fresh : s.fresh row) :
    Inv { s with outbox := s.outbox ++ [row] } := by
  simp only [State.fresh, Bool.and_eq_true, Option.isNone_iff_eq_none, beq_iff_eq, List.all_eq_true,
    bne_iff_ne] at fresh
  obtain ⟨⟨unpublished, untried⟩, new⟩ := fresh
  have unknown : row.eventID ∉ s.commits := by
    intro mem
    obtain ⟨other, otherMem, same⟩ := List.mem_map.mp (inv.core.known _ mem)
    exact new other otherMem same
  refine ⟨⟨?_, inv.core.exclusive, ?_, ?_⟩, fun j => ?_⟩
  · rw [List.map_append, List.map_singleton, List.nodup_append]
    refine ⟨inv.core.distinct, List.nodup_singleton _, ?_⟩
    intro id mem _ single
    obtain ⟨other, otherMem, rfl⟩ := List.mem_map.mp mem
    rw [List.mem_singleton.mp single]
    exact new other otherMem
  · intro eventID mem
    rw [List.map_append, List.mem_append]
    exact .inl (inv.core.known eventID mem)
  · intro other mem
    rcases List.mem_append.mp mem with mem | mem
    · exact (inv.core.rows other mem).mono rfl List.prefix_rfl
    · rw [List.mem_singleton.mp mem]
      have none' := List.count_eq_zero_of_not_mem unknown
      exact ⟨untried.trans none'.symm, none'.trans_le (Nat.zero_le _),
        fun done => by simp [unpublished] at done⟩
  · obtain ⟨phase, follows, knows⟩ := inv.relays j
    have kept : Kept s { s with outbox := s.outbox ++ [row] } j := by
      refine ⟨rfl, fun _ => .rfl, fun _ mem _ => List.mem_append_left _ mem, ?_, List.prefix_rfl,
        fun _ _ => rfl⟩
      rw [List.map_append]
      exact List.prefix_append ..
    exact ⟨phase, follows, knows.imp (·.kept kept) (·.kept kept)⟩

/-- The server ends the transaction of relay `i`. -/
theorem Inv.sever {s : State} {i : Nat} (inv : Inv s) {o : Op}
    {next : o.Reply → Prog sig (Nat × Option GoError)} (residual : (s.relays i).prog = .op o next)
    (opened : o ≠ .begin) : Inv (s.sever i) := by
  refine ⟨inv.core.of_uncommitted rfl rfl List.prefix_rfl fun j k eventID hj hk =>
    inv.core.exclusive j k eventID (holds_sever.mp hj).1 (holds_sever.mp hk).1, fun j => ?_⟩
  obtain ⟨phase, follows, knows⟩ := inv.relays j
  by_cases same : j = i
  · subst same
    refine ⟨phase, ?_, .inr ⟨?_, ?_, fun eventID holds => (holds_sever.mp holds).2 rfl, ?_, ?_⟩⟩
    · simpa [State.sever, State.release, State.set] using follows
    · simp [State.Severed, State.sever, State.set]
    · rintro rfl
      rw [residual] at follows
      exact opened follows.1
    · intro e reads
      rcases knows with at' | adrift
      · obtain ⟨row, mem, -, rfl⟩ := at'.pending e reads
        exact List.mem_map.mpr ⟨row, mem, rfl⟩
      · exact adrift.read e reads
    · simp [State.sever, State.set]
  · have kept : Kept s (s.sever i) j := kept_sever same
    exact ⟨phase, kept.session ▸ follows, knows.imp (·.kept kept) (·.kept kept)⟩

/-! ### What a run leaves of a published event -/

/-- Besides what lasts: of an event that is published in `s` nobody gets into a call of
`Publish`, so that calls are added only by who was in one already. -/
structure Onward (s t : State) : Prop extends Lasting s t where
  begun : ∀ row ∈ s.outbox, row.publishedAt.isSome → ∀ i e, t.Publishing i e →
    e.id = row.eventID → s.Publishing i e
  calls : ∀ row ∈ s.outbox, row.publishedAt.isSome →
    (∀ i e, s.Publishing i e → e.id ≠ row.eventID) → t.callsFor row.eventID = s.callsFor row.eventID

theorem Onward.of_eq {s t : State} (outbox : t.outbox = s.outbox) (calls : t.calls = s.calls)
    (progs : ∀ i, (t.relays i).prog = (s.relays i).prog) : Onward s t where
  toLasting := .of_eq outbox
  begun _ _ _ i e publishing _ := by
    unfold State.Publishing at publishing
    rwa [progs i] at publishing
  calls _ _ _ _ := by rw [State.callsFor, State.callsFor, calls]

theorem Onward.trans {s t u : State} (first : Onward s t) (second : Onward t u) : Onward s u where
  toLasting := first.toLasting.trans second.toLasting
  begun row mem done i e publishing same :=
    first.begun row mem done i e
      (second.begun row (first.published row mem done) done i e publishing same) same
  calls row mem done nobody := by
    refine (second.calls row (first.published row mem done) done ?_).trans
      (first.calls row mem done nobody)
    intro i e publishing same
    exact nobody i e (first.begun row mem done i e publishing same) same

theorem State.Publishing.of_op {s : State} {i : Nat} {e : Event} {o : Op}
    {next : o.Reply → Prog sig (Nat × Option GoError)} (residual : (s.relays i).prog = .op o next)
    (called : o = .publish e) : s.Publishing i e := by
  subst called
  exact ⟨next, residual⟩

theorem Phase.Follows.publishing {e : Event} {phase : Phase}
    {next : sig.Reply (.publish e) → Prog sig (Nat × Option GoError)}
    (follows : Phase.Follows (.op (.publish e) next) phase) : phase = .publishing e := by
  have performs : Op.publish e = phase.op := follows.1
  cases phase with
  | publishing e' => cases performs; rfl
  | outside | selecting | scheduling | recording | marking | committing | closing => cases performs

/-- A call of `Publish` is recorded by who was in it. -/
theorem answer_calls {s t : State} {i : Nat} {c : Choice} {o : Op} {reply : o.Reply}
    (answered : s.answer i c o = some (reply, t)) :
    t.calls = s.calls ∨ ∃ e success, o = .publish e ∧ t.calls = s.calls ++ [(e, success)] := by
  have updated {eventID : UUID} {u : Update} {reply : Except GoError Unit}
      (updated : s.update i c eventID u = (reply, t)) : t.calls = s.calls := by
    unfold State.update at updated
    split at updated
    · cases updated
      rfl
    · split at updated <;> cases updated <;> rfl
  cases o with
  | publish e =>
      cases answered
      exact .inr ⟨e, _, rfl, rfl⟩
  | begin | nextAttempt | rollback =>
      cases answered
      exact .inl rfl
  | select =>
      change s.select i c = some (reply, t) at answered
      unfold State.select at answered
      split at answered
      · cases answered
        exact .inl rfl
      · cases answered
        exact .inl rfl
      · split at answered
        · cases answered
        · split at answered <;> cases answered
          exact .inl rfl
  | recordFailure => exact .inl (updated (Option.some.inj answered))
  | markPublished => exact .inl (updated (Option.some.inj answered))
  | commit =>
      simp only [State.answer] at answered
      split at answered <;> cases answered <;> exact .inl rfl

/-- A move that follows its program leads onward. -/
theorem Onward.of_moved {s t : State} {i : Nat} {phase : Phase}
    {prog : Prog sig (Nat × Option GoError)} (moved : Moved s t i phase)
    (follows : Phase.Follows prog phase)
    (calls : ∀ eventID, (∀ e, s.Publishing i e → e.id ≠ eventID) →
      t.callsFor eventID = s.callsFor eventID) : Onward s (t.resume i prog) where
  toLasting := moved.lasting.trans (.of_eq rfl)
  begun row mem done j e publishing same := by
    by_cases mine : j = i
    · subst mine
      obtain ⟨next, residual⟩ := publishing
      rw [show ((t.resume j prog).relays j).prog = prog by simp [State.resume, State.set]]
        at residual
      rw [residual] at follows
      obtain rfl := follows.publishing
      rcases moved.self with at' | ⟨-, elsewhere⟩
      · have still := moved.lasting.published row mem done
        exact absurd same.symm (at'.ne_of_published moved.core rfl still done)
      · exact absurd rfl (elsewhere e)
    · unfold State.Publishing at publishing
      rwa [(kept_resume mine prog).session, (moved.others j mine).session] at publishing
  calls row mem done nobody := calls row.eventID fun e publishing => nobody i e publishing

/-- One step keeps the invariant and loses nothing. -/
theorem step_inv {s t : State} {a : Act} (inv : Inv s) (stepped : s.step a = some t) :
    Inv t ∧ Onward s t := by
  cases a with
  | append row =>
      simp only [State.step, Option.ite_none_right_eq_some, Option.some.injEq] at stepped
      obtain ⟨fresh, rfl⟩ := stepped
      refine ⟨inv.append fresh, ⟨?_, fun other mem _ => List.mem_append_left _ mem⟩,
        fun _ _ _ _ _ publishing _ => publishing, fun _ _ _ _ => rfl⟩
      rw [List.map_append]
      exact List.prefix_append ..
  | poll i batchSize =>
      obtain ⟨phase, follows, knows⟩ := inv.relays i
      simp only [State.step] at stepped
      split at stepped
      case h_1 value residual =>
        cases stepped
        rw [residual] at follows
        obtain rfl : phase = .outside := follows
        have moved : Moved s s i .outside := by
          refine moved_refl inv.core (.inl ?_)
          exact knows.resolve_right fun adrift => adrift.inside rfl
        exact ⟨inv.of_moved moved (pollOnce_follows batchSize),
          .of_moved moved (pollOnce_follows batchSize) fun _ _ => rfl⟩
      · cases stepped
  | perform i c =>
      obtain ⟨phase, u, reply, prog, answered, ⟨next, residual⟩, moved, follows, rfl⟩ :=
        perform_moved inv stepped
      refine ⟨inv.of_moved moved follows, .of_moved moved follows fun eventID nobody => ?_⟩
      rcases answer_calls answered with same | ⟨e, success, called, recorded⟩
      · rw [State.callsFor, State.callsFor, same]
      · have apart : e.id ≠ eventID := nobody e (.of_op residual called)
        simp [State.callsFor, recorded, apart]
  | sever i =>
      simp only [State.step] at stepped
      split at stepped
      · cases stepped
      case h_2 o next residual =>
        simp only [Option.ite_none_left_eq_some, Option.some.injEq] at stepped
        obtain ⟨opened, rfl⟩ := stepped
        refine ⟨inv.sever residual opened, .of_eq rfl rfl fun j => ?_⟩
        by_cases same : j = i <;> simp [State.sever, State.release, State.set, same]
  | crash i =>
      cases stepped
      have released : Moved s (s.release i) i .outside := moved_release inv.core rfl
      exact ⟨inv.of_moved released rfl, .of_moved released rfl fun _ _ => rfl⟩

theorem init_inv : Inv State.init := by
  refine ⟨⟨List.nodup_nil, ?_, ?_, ?_⟩, fun i => ⟨.outside, rfl, ?_⟩⟩
  · intro i j eventID holds
    cases holds
  · intro eventID mem
    cases mem
  · intro row mem
    cases mem
  · refine .inl (At.of_closed rfl nofun (fun eventID holds => ?_) rfl)
    cases holds

/-- The invariant holds after every run. -/
theorem reached_inv {acts : List Act} {s : State} (ran : runs State.step State.init acts = some s) :
    Inv s :=
  runs_invariant Inv (fun inv stepped => (step_inv inv stepped).1) init_inv ran

/-- What a step keeps of the events, a run keeps. -/
theorem runs_onward {acts : List Act} {s t : State} (inv : Inv s)
    (ran : runs State.step s acts = some t) : Onward s t := by
  have both : Inv t ∧ Onward s t :=
    runs_invariant (fun u => Inv u ∧ Onward s u) (fun holds stepped => by
      obtain ⟨inv', onward⟩ := step_inv holds.1 stepped
      exact ⟨inv', holds.2.trans onward⟩) ⟨inv, .of_eq rfl rfl fun _ => rfl⟩ ran
  exact both.2

/-! ### Delivery -/

/-- A relay in a call of `Publish` has read the event's row, and holds it, still pending, as
long as its transaction lasts. -/
theorem Inv.publishing {s : State} {i : Nat} {e : Event} (inv : Inv s)
    (publishing : s.Publishing i e) : At s i (.publishing e) ∨ Adrift s i (.publishing e) := by
  obtain ⟨next, residual⟩ := publishing
  obtain ⟨phase, follows, knows⟩ := inv.relays i
  rw [residual] at follows
  rwa [follows.publishing] at knows

/-- Delivery is at least once, and never concurrent between transactions that last. In
every reachable state a row is marked published only after a successful call for it, no two
transactions hold one row, of two calls of `Publish` in progress for one event at least one
is of a relay whose transaction the server has ended, and `attempts` counts the commits for
the row. Whatever happens from there on, every row stays with its id, type and payload, and
one that is published is never changed again; who calls `Publish` for it later had read the
row before, in a transaction that the server has ended. -/
theorem delivered_at_least_once {before after : List Act} {s t : State}
    (reached : runs State.step State.init before = some s)
    (continued : runs State.step s after = some t) :
    s.outbox.map identity <+: t.outbox.map identity ∧
    (∀ row ∈ s.outbox, row.publishedAt.isSome →
      ∃ e, (e, true) ∈ s.calls ∧ e.id = row.eventID ∧ e.payload = row.payload) ∧
    (∀ i j eventID, s.Holds i eventID → s.Holds j eventID → i = j) ∧
    (∀ i j e e', s.Publishing i e → s.Publishing j e' → e.id = e'.id →
      ¬ s.Severed i → ¬ s.Severed j → i = j) ∧
    (∀ row ∈ s.outbox, row.publishedAt.isSome → row ∈ t.outbox ∧
      (∀ i e, t.Publishing i e → e.id = row.eventID → s.Publishing i e ∧ s.Severed i) ∧
      ((∀ i e, s.Publishing i e → e.id ≠ row.eventID) →
        t.callsFor row.eventID = s.callsFor row.eventID)) ∧
    ∀ row ∈ s.outbox, row.attempts = s.commits.count row.eventID ∧
      row.attempts ≤ s.callsFor row.eventID := by
  have inv := reached_inv reached
  have onward := runs_onward inv continued
  refine ⟨onward.identities, ?_, inv.core.exclusive, ?_, ?_, ?_⟩
  · intro row mem done
    obtain ⟨e, called, id, _, payload⟩ := (inv.core.rows row mem).published done
    exact ⟨e, called, id, payload⟩
  · intro i j e e' publishing publishing' same alive alive'
    have mine := (inv.publishing publishing).resolve_right fun adrift => alive adrift.severed
    have yours := (inv.publishing publishing').resolve_right fun adrift => alive' adrift.severed
    exact inv.core.exclusive i j e.id ((mine.held _).mpr ⟨e, rfl, rfl⟩)
      ((yours.held _).mpr ⟨e', rfl, same.symm⟩)
  · intro row mem done
    refine ⟨onward.published row mem done, fun i e publishing same => ?_, onward.calls row mem done⟩
    have earlier := onward.begun row mem done i e publishing same
    refine ⟨earlier, ?_⟩
    rcases inv.publishing earlier with at' | adrift
    · exact absurd same.symm (at'.ne_of_published inv.core rfl mem done)
    · exact adrift.severed
  · intro row mem
    have accounted := inv.core.rows row mem
    exact ⟨accounted.attempts, accounted.attempts.trans_le accounted.calls⟩

namespace Redelivery

def row : OutboxRow := ⟨.zero, "transfer.completed", ⟨.zero, .zero, .zero, 5⟩, 0, none, 0, 0⟩

def fine : Choice := ⟨none, some row.eventID, 1, 1, 0, .acknowledged⟩

/-- Relay 0 dies after a successful call of `Publish`; relay 1 fails to publish
the row, and relay 0, started again, publishes it. -/
def before : List Act :=
  [.append row, .poll 0 1, .perform 0 fine, .perform 0 fine, .perform 0 fine, .crash 0,
    .poll 1 1, .perform 1 fine, .perform 1 fine,
    .perform 1 { fine with fault := some .canceled }] ++
    List.replicate 4 (.perform 1 fine) ++ [.poll 0 1, .perform 0 { fine with now := 2 },
      .perform 0 { fine with now := 2 }] ++ List.replicate 4 (.perform 0 fine)

def after : List Act :=
  [.poll 1 1, .perform 1 fine, .perform 1 { fine with pick := none }, .perform 1 fine]

def delivered : OutboxRow := { row with publishedAt := some 1, attempts := 2, nextAttemptAt := 1 }

end Redelivery

open Redelivery in
/-- A relay that dies after its call leaves the row to another, which calls again. -/
theorem delivered_at_least_once_redelivery :
    ∃ s t, runs State.step State.init before = some s ∧ runs State.step s after = some t ∧
      delivered ∈ s.outbox ∧ delivered ∈ t.outbox ∧
      (∃ e, (e, true) ∈ s.calls ∧ e.id = delivered.eventID ∧ e.payload = delivered.payload) ∧
      delivered.attempts = s.commits.count delivered.eventID ∧
      delivered.attempts ≤ s.callsFor delivered.eventID := by
  have reaches : ((runs State.step State.init before).bind fun s =>
      (runs State.step s after).map fun _ => s.outbox) = some [delivered] := by decide +kernel
  obtain ⟨s, reached, rest⟩ := Option.bind_eq_some_iff.mp reaches
  obtain ⟨t, continued, outbox⟩ := Option.map_eq_some_iff.mp rest
  have mem : delivered ∈ s.outbox := by simp [outbox]
  obtain ⟨_, called, _, _, settled, counted⟩ := delivered_at_least_once reached continued
  exact ⟨s, t, reached, continued, mem, (settled _ mem rfl).1, called _ mem rfl, counted _ mem⟩

/-- The event that a program is about to publish. -/
def publishing : Prog sig (Nat × Option GoError) → Option Event
  | .op (.publish e) _ => some e
  | _ => none

theorem State.Publishing.of_eq {s : State} {i : Nat} {e : Event}
    (now : Relay.publishing (s.relays i).prog = some e) : s.Publishing i e := by
  unfold Relay.publishing at now
  split at now
  case h_1 e' next residual =>
    cases now
    exact ⟨next, residual⟩
  · cases now

namespace Redelivery

/-- The server drops the connection of relay 0 before its call of `Publish`; relay 1 takes
the row. -/
def severed : List Act :=
  [.append row, .poll 0 1, .perform 0 fine, .perform 0 fine, .sever 0,
    .poll 1 1, .perform 1 fine, .perform 1 fine]

def published : List Act := List.replicate 3 (.perform 1 fine)

end Redelivery

open Redelivery in
/-- While a lost connection goes unnoticed an event is published by two relays at once, and
by the second of them after its row has been marked. -/
theorem published_after_sever :
    ∃ s t u, runs State.step State.init severed = some s ∧ s.Publishing 0 (.of row) ∧
      s.Publishing 1 (.of row) ∧ runs State.step s published = some t ∧
      { row with publishedAt := some 1, attempts := 1 } ∈ t.outbox ∧
      t.step (.perform 0 fine) = some u ∧ t.callsFor row.eventID = 1 ∧
      u.callsFor row.eventID = 2 := by
  have observed : ((runs State.step State.init severed).bind fun s =>
      (runs State.step s published).bind fun t => (t.step (.perform 0 fine)).map fun u =>
        (publishing (s.relays 0).prog, publishing (s.relays 1).prog, t.outbox,
          t.callsFor row.eventID, u.callsFor row.eventID)) =
      some (some (.of row), some (.of row), [{ row with publishedAt := some 1, attempts := 1 }], 1,
        2) := by
    decide +kernel
  obtain ⟨s, reached, rest⟩ := Option.bind_eq_some_iff.mp observed
  obtain ⟨t, continued, rest⟩ := Option.bind_eq_some_iff.mp rest
  obtain ⟨u, returned, same⟩ := Option.map_eq_some_iff.mp rest
  simp only [Prod.mk.injEq] at same
  obtain ⟨first, second, outbox, before, after⟩ := same
  exact ⟨s, t, u, reached, .of_eq first, .of_eq second,
    continued, by simp [outbox], returned, before, after⟩

end WalletGo.Relay
