import Mathlib.Combinatorics.Enumerative.DoubleCounting
import WalletGo.Http.Answers

/-!
The counters of a process against the tables.

`wallet_transfers_total` is incremented after `Transfer` has returned, by the handler, and
it is the rows of `transfers` that it is meant to show. Each execution it counts is one
posting of this process (`Server.executors`), so it never shows more than the table has
gained. It shows less for as long as a request is under way, and for good when a commit
has gone through unacknowledged, when a handler has panicked or when another process has
posted; `transfers_counted` says that nothing else makes it differ.
-/

namespace WalletGo.World

variable {w w' : World} {a : Act} {i : Nat}

/-- A session that has been started is never unused again. -/
theorem step_unused (stepped : w.step a = some w') (idle : w'.sessions i = .idle) :
    w.sessions i = .idle := by
  have move := step_move stepped
  by_cases mine : a.session = some i
  · cases was : w.sessions i with
    | idle => rfl
    | crashed => exact absurd (by rw [was]; trivial) (step_live mine stepped)
    | _ =>
      obtain ⟨cmd, command⟩ : ∃ cmd, (w.sessions i).command = some cmd := by
        rw [was]
        exact ⟨_, rfl⟩
      rcases move.command command with crashed | same
      · cases idle.symm.trans crashed
      · rw [idle] at same
        cases same
  · exact (move.sessions_other mine).symm.trans idle

theorem runs_unused {acts : List Act} (ran : Txn.runs step w acts = some w')
    (idle : w'.sessions i = .idle) : w.sessions i = .idle := by
  by_contra used
  exact Txn.runs_invariant (fun w : World => w.sessions i ≠ .idle)
    (fun used stepped idle => used (step_unused stepped idle)) used ran idle

/-- What has been committed was committed by a session that has been started. -/
theorem runs_committed {db : Db} {acts : List Act}
    (ran : Txn.runs step (.init db) acts = some w) {call : Call} {tx : OpenTx} {r : TransferResult}
    (mem : .call i call tx r ∈ w.log) : w.sessions i ≠ .idle := by
  refine Txn.runs_invariant (fun w : World => ∀ i call tx r, .call i call tx r ∈ w.log →
    w.sessions i ≠ .idle)
    ?_ (by rintro i call tx r ⟨⟩) ran i call tx r mem
  intro w w' a known stepped i call tx r mem idle
  have unused := step_unused stepped idle
  rcases (step_move stepped).logged mem with old | ⟨attempt, was, -⟩
  · exact known i call tx r old unused
  · cases unused.symm.trans was

theorem mem_executedBy {key : IdempotencyKey} :
    i ∈ w.executedBy key ↔ ∃ call tx r, .call i call tx r ∈ w.log ∧ call.cmd.key = key ∧
      r.replayed = false := by
  constructor
  · intro mem
    obtain ⟨entry, logged, executed⟩ := List.mem_filterMap.mp mem
    cases entry with
    | account a => cases executed
    | call j call tx r =>
      simp only [Committed.executedBy] at executed
      split at executed
      · next own =>
        cases executed
        exact ⟨call, tx, r, logged, own⟩
      · cases executed
  · rintro ⟨call, tx, r, logged, own⟩
    exact List.mem_filterMap.mpr ⟨_, logged, if_pos own⟩

end WalletGo.World

namespace WalletGo.Http

open Txn (Prog Event runs)

/-- `wallet_transfers_total` with `replayed="false"`. -/
def Series.isExecution : Series → Bool
  | .transfer _ false => true
  | _ => false

theorem Series.isExecution_isTransfer {series : Series} (executes : series.isExecution = true) :
    series.isTransfer = true := by
  cases series with
  | transfer endpoint replayed => rfl
  | _ => cases executes

namespace Server

/-- What the counters of executed transfers add up to. -/
def executions (s : Server) : Nat := (s.counters.map (·.2)).countP Series.isExecution

def executors (s : Server) : List Nat := (s.counters.filter (·.2.isExecution)).map (·.1)

/-- The counter is the number of those that executed. -/
theorem executions_eq (s : Server) : s.executions = s.executors.length := by
  rw [executions, executors, List.countP_map, List.countP_eq_length_filter, List.length_map]
  rfl

theorem count_executors (s : Server) (i : Nat) :
    s.executors.count i = ((s.counters.filter (·.1 = i)).filter (·.2.isExecution)).length := by
  rw [executors, List.count, List.countP_map, List.countP_eq_length_filter, List.filter_filter,
    List.filter_filter]
  congr 1
  refine List.filter_congr fun entry _ => ?_
  simp only [Function.comp_apply, Bool.and_comm]
  rfl

end Server

/-! ### One connection -/

/-- At any time a handler has counted one transfer at most, and not before `Transfer` has
come back with it. -/
theorem Server.Tended.transfers {d : Deps} {s : Server} {i : Nat} {r : Request}
    {prog : Prog sig (Except Panic Unit)} {events : List (Event sig)}
    (tended : s.Tended d i r prog events) (sounds : ∀ e ∈ events, Stored e.1 e.2) :
    (increments events).filter Series.isTransfer = [] ∨
      ∃ op cmd res, ⟨.transfer cmd, .ok (.ok res)⟩ ∈ events ∧
        (increments events).filter Series.isTransfer = [.transfer op res.replayed] := by
  -- what a whole request counts is known, so the request is completed
  have replies : ∀ o, ∃ reply, Stored o reply := by
    intro o
    cases o with
    | transfer cmd => exact ⟨.error .abortHandler, trivial⟩
    | create ownerID => exact ⟨.error .abortHandler, trivial⟩
    | balance accountID => exact ⟨.error .abortHandler, trivial⟩
    | entries accountID afterID limit => exact ⟨.error .abortHandler, trivial⟩
    | newUUID => exact ⟨.ofByte 0, trivial⟩
    | ping => exact ⟨true, trivial⟩
    | gather => exact ⟨[], trivial⟩
    | reserve scope => exact ⟨⟨false, 0⟩, trivial⟩
    | delay res => exact ⟨0, trivial⟩
    | _ => exact ⟨(), trivial⟩
  obtain ⟨more, outcome, returned, sounds'⟩ := tended.reached.completes replies
  have all : ∀ e ∈ events ++ more, Stored e.1 e.2 := by
    intro e mem
    rcases List.mem_append.mp mem with mem | mem
    · exact sounds e mem
    · exact sounds' e mem
  rcases newRouter_moved all returned with
    still | ⟨op, cmd, reply, -, -, answers, earlier, later, split, none⟩
  · exact .inl (increments_still fun e mem => still e (List.mem_append_left _ mem))
  · cases answers with
    | moved res status body header counted =>
      rw [increments_append, List.filter_append] at counted
      rcases List.append_eq_singleton_iff.mp counted with ⟨before, -⟩ | ⟨now, -⟩
      · exact .inl before
      · have early : ∀ rest, earlier ≠ events ++ rest := by
          rintro rest rfl
          rw [increments_append, List.append_eq_nil_iff] at none
          rw [none.1] at now
          cases now
        refine .inr ⟨op, cmd, res, ?_, now⟩
        rcases List.append_eq_append_iff.mp split with ⟨rest, same, -⟩ | ⟨rest, same, tail⟩
        · exact absurd same (early rest)
        · cases rest with
          | nil => exact absurd (by simpa using same.symm) (early [])
          | cons e rest =>
            rw [List.cons_append, List.cons.injEq] at tail
            rw [same, tail.1]
            exact List.mem_append_right _ List.mem_cons_self
    | failed err status counted =>
      rw [increments_append, List.filter_append] at counted
      exact .inl (List.append_eq_nil_iff.mp counted).1
    | panicked value status counted =>
      rw [increments_append, List.filter_append] at counted
      exact .inl (List.append_eq_nil_iff.mp counted).1
    | aborted unsent body counted =>
      rw [increments_append, List.filter_append] at counted
      exact .inl (List.append_eq_nil_iff.mp counted).1

namespace Server

variable {d : Deps} {s s' : Server} {a : Act} {i : Nat} {ps : List Posting}

/-- The executions among what a handler has counted. -/
theorem Tended.executes {r : Request} {prog : Prog sig (Except Panic Unit)}
    {events : List (Event sig)} (tended : s.Tended d i r prog events) (keyInv : KeyInv s.world ps) :
    (increments events).filter Series.isExecution = [] ∨
      ((increments events).filter Series.isExecution).length = 1 ∧
        ∃ cmd res, s.world.sessions i = .returned cmd (.ok res) ∧ res.replayed = false := by
  have narrowed : (increments events).filter Series.isExecution =
      ((increments events).filter Series.isTransfer).filter Series.isExecution := by
    rw [List.filter_filter]
    refine List.filter_congr fun series _ => ?_
    cases executes : series.isExecution with
    | false => rfl
    | true => rw [Series.isExecution_isTransfer executes]; rfl
  rcases tended.transfers (tended.sounds keyInv) with none | ⟨op, cmd, res, made, one⟩
  · exact .inl (by rw [narrowed, none]; rfl)
  · rw [narrowed, one]
    obtain ⟨cmd', returned⟩ := tended.told cmd _ made
    cases replayed : res.replayed with
    | true => exact .inl rfl
    | false => exact .inr ⟨rfl, cmd', res, returned, replayed⟩

theorem count_serving (inv : s.Inv d) {r : Request} {prog : Prog sig (Except Panic Unit)}
    {events : List (Event sig)} (was : s.connections i = .serving r prog events) :
    s.executors.count i = ((increments events).filter Series.isExecution).length := by
  rw [count_executors, (inv.tended was).counted, List.filter_map, List.length_map]
  rfl

theorem count_idle (inv : s.Inv d) (was : s.connections i = .idle) : s.executors.count i = 0 := by
  have none := inv i
  rw [was] at none
  rw [count_executors, none]
  rfl

/-- No connection counts more than one execution. -/
theorem executors_nodup (inv : s.Inv d) (keyInv : KeyInv s.world ps) : s.executors.Nodup := by
  rw [List.nodup_iff_count_le_one]
  intro i
  cases was : s.connections i with
  | idle => rw [count_idle inv was]; exact Nat.zero_le 1
  | serving r prog events =>
    rw [count_serving inv was]
    rcases (inv.tended was).executes keyInv with none | ⟨one, -⟩
    · rw [none]; exact Nat.zero_le 1
    · exact one.le

/-- A connection that has counted an execution has made one. -/
theorem executors_returned (inv : s.Inv d) (keyInv : KeyInv s.world ps) (mem : i ∈ s.executors) :
    s.connections i ≠ .idle ∧ ∃ cmd res, s.world.sessions i = .returned cmd (.ok res) ∧
      res.replayed = false := by
  have counted := List.count_pos_iff.mpr mem
  cases was : s.connections i with
  | idle => rw [count_idle inv was] at counted; cases counted
  | serving r prog events =>
    rw [count_serving inv was] at counted
    refine ⟨by rintro ⟨⟩, ?_⟩
    rcases (inv.tended was).executes keyInv with none | ⟨-, returned⟩
    · rw [none] at counted; cases counted
    · exact returned

/-- A request that has been answered, and whose call has executed, has been counted. -/
theorem mem_executors (inv : s.Inv d) (keyInv : KeyInv s.world ps) {r : Request}
    {outcome : Except Panic Unit} {events : List (Event sig)}
    (was : s.connections i = .serving r (.ret outcome) events) {cmd : TransferCommand}
    {res : TransferResult} (returned : s.world.sessions i = .returned cmd (.ok res))
    (fresh : res.replayed = false) : i ∈ s.executors := by
  rw [← List.count_pos_iff, count_serving inv was]
  have tended := inv.tended was
  rcases tended.finished (tended.sounds keyInv) with
    ⟨-, idle⟩ | ⟨op, cmd', reply, -, ended, answers⟩
  · cases idle.symm.trans returned
  · cases answers with
    | moved res' status body header counted =>
      cases returned.symm.trans ended
      have found : .transfer op false ∈ (increments events).filter Series.isTransfer := by
        rw [counted, fresh]
        exact List.mem_singleton_self _
      exact List.length_pos_of_mem (List.mem_filter.mpr ⟨(List.mem_filter.mp found).1, rfl⟩)
    | failed err status counted => cases returned.symm.trans ended
    | panicked value status counted => cases returned.symm.trans ended
    | aborted unsent body counted => cases returned.symm.trans ended

/-! ### Since the process has started -/

theorem Move.serving (move : s.Move d a s') (serving : s.connections i ≠ .idle) :
    s'.connections i ≠ .idle := by
  cases was : s.connections i with
  | idle => exact absurd was serving
  | serving r prog events =>
    obtain ⟨prog', events', now⟩ := move.request was
    rw [now]
    rintro ⟨⟩

/-- A request has arrived before it is served. -/
theorem runs_served {w : World} {acts : List Act}
    (ran : runs (step d) (.start d w) acts = some s) {r : Request}
    {prog : Prog sig (Except Panic Unit)} {events : List (Event sig)}
    (was : s.connections i = .serving r prog events) : .arrive i r ∈ acts := by
  refine Txn.runs_admissible (· ∈ acts) (fun s : Server => ∀ i r prog events,
    s.connections i = .serving r prog events → .arrive i r ∈ acts) ?_ (fun a mem => mem)
    (by rintro i r prog events ⟨⟩) ran i r prog events was
  intro s s' a mem known stepped i r prog events now
  cases step_move stepped with
  | arrives j r' was unused =>
    by_cases mine : i = j
    · subst mine
      rw [connections_set_self] at now
      cases now
      exact mem
    · exact known i r prog events ((connections_set mine _).symm.trans now)
  | calls j r' cmd next events' w was moved => exact known i r prog events now
  | world b w foreign moved => exact known i r prog events now
  | turns j c r' o next events' reply after was answered =>
    by_cases mine : i = j
    · subst mine
      rw [connections_set_self] at now
      cases now
      exact known i r _ _ was
    · rw [connections_set mine, (answer_cases answered).connections] at now
      exact known i r prog events now

/-- A request is served by a session nobody has used. -/
theorem runs_unused {w : World} {acts : List Act} (ran : runs (step d) (.start d w) acts = some s)
    (serving : s.connections i ≠ .idle) : w.sessions i = .idle := by
  cases was : s.connections i with
  | idle => exact absurd was serving
  | serving r prog events =>
    obtain ⟨earlier, later, rfl⟩ := List.append_of_mem (runs_served ran was)
    obtain ⟨m, ran, rest⟩ := Txn.runs_append_iff.mp ran
    obtain ⟨m', stepped, -⟩ := Txn.runs_cons_iff.mp rest
    obtain ⟨below, reached, -⟩ := world_runs ran
    cases step_move stepped with
    | arrives _ _ was unused => exact World.runs_unused reached unused

/-- What has changed since `w`, if all that happens goes through this process and no
acknowledgement is lost. -/
structure Since (w : World) (s : Server) : Prop where
  sessions : ∀ i, s.world.sessions i = w.sessions i ∨ s.connections i ≠ .idle
  committed : ∃ new, s.world.log = w.log ++ new ∧ ∀ i call tx r, .call i call tx r ∈ new →
    s.world.sessions i = .returned call.cmd (.ok r) ∧ s.connections i ≠ .idle

variable {w : World}

/-- An act of the world on behalf of a connection. -/
theorem Since.world (since : Since w s) {b : WalletGo.Act} {w' : World}
    (stepped : s.world.step b = some w')
    (serving : ∀ j, b.session = some j → s.connections j ≠ .idle)
    (kept : ∀ j err, b ≠ .commit j (.lost err)) : Since w { s with world := w' } := by
  have move := World.step_move stepped
  obtain ⟨new, log, known⟩ := since.committed
  have old : ∀ i call tx r, .call i call tx r ∈ new →
      w'.sessions i = .returned call.cmd (.ok r) ∧ s.connections i ≠ .idle := by
    intro i call tx r mem
    obtain ⟨returned, own⟩ := known i call tx r mem
    have other : b.session ≠ some i := fun mine =>
      World.step_live mine stepped (by rw [returned]; trivial)
    exact ⟨(move.sessions_other other).trans returned, own⟩
  constructor
  · intro j
    by_cases mine : b.session = some j
    · exact .inr (serving j mine)
    · exact (since.sessions j).imp_left (move.sessions_other mine).trans
  · cases move with
    | commits j outcome call attempt tx result t was prog allowed now =>
      refine ⟨new ++ [.call j call tx result], ?_, ?_⟩
      · change s.world.log ++ [.call j call tx result] = _
        rw [log, List.append_assoc]
      · intro i call' tx' r mem
        rcases List.mem_append.mp mem with mem | mem
        · exact old i call' tx' r mem
        · cases List.mem_singleton.mp mem
          refine ⟨?_, serving j rfl⟩
          rcases now with ⟨-, rfl⟩ | ⟨err, rfl, -⟩
          · exact World.sessions_set_self _
          · exact absurd rfl (kept j err)
    | opens a valid =>
      refine ⟨new ++ [.account a], ?_, ?_⟩
      · change s.world.log ++ [.account a] = _
        rw [log, List.append_assoc]
      · intro i call tx r mem
        rcases List.mem_append.mp mem with mem | mem
        · exact old i call tx r mem
        · cases List.mem_singleton.mp mem
    | _ => exact ⟨new, log, old⟩

theorem Since.mono (since : Since w s) (world : s'.world = s.world)
    (serving : ∀ i, s.connections i ≠ .idle → s'.connections i ≠ .idle) : Since w s' := by
  obtain ⟨new, log, known⟩ := since.committed
  refine ⟨fun i => ?_, new, by rw [world, log], fun i call tx r mem => ?_⟩
  · rw [world]
    exact (since.sessions i).imp_right (serving i)
  · rw [world]
    exact (known i call tx r mem).imp_right (serving i)

end Server

/-- What an act must not be for the counters to keep up: the start of another process's
session, or a commit whose acknowledgement is lost. -/
def Act.kept : Act → Bool
  | .world (.start ..) | .world (.commit _ (.lost _)) => false
  | _ => true

namespace Server

variable {d : Deps} {s s' : Server} {a : Act} {w : World}

/-- One act that goes through this process and loses no acknowledgement. -/
theorem Move.since (move : s.Move d a s') (rested : ∀ i, w.sessions i = .idle ∨ (w.sessions i).Over)
    (kept : a.kept = true) (since : Since w s) : Since w s' := by
  have serving : ∀ i, s.connections i ≠ .idle → s'.connections i ≠ .idle := fun _ => move.serving
  cases move with
  | arrives i r was unused => exact since.mono rfl serving
  | calls i r cmd next events w' was stepped =>
    refine since.world stepped ?_ (by rintro j err ⟨⟩)
    rintro j ⟨⟩
    rw [was]
    rintro ⟨⟩
  | world b w' foreign stepped =>
    refine since.world stepped ?_ (by rintro j err rfl; cases kept)
    intro j mine
    -- it is neither unused nor over, so it is not as it was at the start
    refine (since.sessions j).resolve_left fun same => ?_
    rcases rested j with idle | ended
    · obtain ⟨e, cmd, rfl⟩ := World.step_idle (same.trans idle) mine stepped
      cases kept
    · exact World.step_live mine stepped (same ▸ ended)
  | turns i c r o next events reply after was answered =>
    cases answer_cases answered with
    | creates ownerID _ =>
      rcases created_step s.world ownerID c.uuid c.insert with same | ⟨b, stepped⟩
      · exact since.mono same serving
      · exact (since.world stepped (by rintro j ⟨⟩) (by rintro j err ⟨⟩)).mono rfl serving
    | _ => exact since.mono rfl serving

/-- A run of such acts. -/
theorem runs_since {acts : List Act} (rested : ∀ i, w.sessions i = .idle ∨ (w.sessions i).Over)
    (kept : ∀ a ∈ acts, a.kept = true) (ran : runs (step d) (.start d w) acts = some s) :
    Since w s := by
  refine Txn.runs_admissible (·.kept = true) (Since w)
    (fun kept since stepped => (step_move stepped).since rested kept since)
    kept ⟨fun i => .inl rfl, [], (List.append_nil _).symm, ?_⟩ ran
  rintro i call tx r ⟨⟩

/-- The log of the transfers grows under the server. -/
theorem runs_log {acts : List Act} (ran : runs (step d) (.start d w) acts = some s) :
    w.log <+: s.world.log := by
  obtain ⟨below, reached, -⟩ := world_runs ran
  refine Txn.runs_invariant (fun v : World => w.log <+: v.log) ?_ (List.prefix_refl _) reached
  intro v v' a since stepped
  have move := World.step_move stepped
  exact since.trans move.log_prefix

end Server

/-! ### The ledger -/

section Runs

variable {d : Deps} {w : World} {before : List WalletGo.Act} {acts : List Act} {s : Server}
  {ps more : List Posting}

/-- The posting of a counted execution has been added since the process started. -/
theorem Server.executors_posted (origin : runs World.step (.init .empty) before = some w)
    (ran : runs (Server.step d) (.start d w) acts = some s) (keyInv : KeyInv w ps)
    (keyInv' : KeyInv s.world (ps ++ more)) {i : Nat} (mem : i ∈ s.executors) :
    ∃ p ∈ more, s.world.executedBy p.key = [i] := by
  obtain ⟨serving, cmd, res, returned, fresh⟩ := executors_returned (runs_inv ran) keyInv' mem
  obtain ⟨p, posted, key, -, -, author⟩ := keyInv'.succeeded returned
  obtain ⟨-, j, executed⟩ := keyInv'.posted p posted
  have own : i = j := by
    have mine := author fresh
    rw [← key, executed] at mine
    exact List.mem_singleton.mp mine
  subst own
  refine ⟨p, (List.mem_append.mp posted).resolve_left fun old => ?_, executed⟩
  -- an older posting is the work of a session that was in use
  obtain ⟨-, k, executed'⟩ := keyInv.posted p old
  have same : k = i := by
    have mem : k ∈ s.world.executedBy p.key :=
      ((runs_log ran).filterMap _).subset (executed' ▸ List.mem_singleton_self k : k ∈
        w.executedBy p.key)
    rw [executed] at mem
    exact List.mem_singleton.mp mem
  subst same
  obtain ⟨call, tx, r, logged, -⟩ :=
    World.mem_executedBy.mp (executed' ▸ List.mem_singleton_self k : k ∈ w.executedBy p.key)
  exact World.runs_committed origin logged (runs_unused ran serving)

/-- Who has executed a posting that was added since. -/
theorem Server.Since.executed (since : Server.Since w s) (keyInv : KeyInv w ps)
    (keyInv' : KeyInv s.world (ps ++ more)) {p : Posting} (mem : p ∈ more) :
    ∃ i cmd res, s.world.executedBy p.key = [i] ∧ s.world.sessions i = .returned cmd (.ok res) ∧
      cmd.key = p.key ∧ res.replayed = false ∧ s.connections i ≠ .idle := by
  obtain ⟨new, log, known⟩ := since.committed
  obtain ⟨-, i, executed⟩ := keyInv'.posted p (List.mem_append_right _ mem)
  have unused : p.key ∉ ps.map (·.key) := by
    have distinct := keyInv'.journal.distinctKeys
    rw [List.map_append] at distinct
    exact fun old => (List.nodup_append.mp distinct).2.2 _ old _ (List.mem_map_of_mem mem) rfl
  obtain ⟨call, tx, r, logged, key, fresh⟩ :=
    World.mem_executedBy.mp (executed ▸ List.mem_singleton_self i : i ∈ s.world.executedBy p.key)
  rw [log] at logged
  rcases List.mem_append.mp logged with old | added
  · have earlier : i ∈ w.executedBy p.key := World.mem_executedBy.mpr ⟨call, tx, r, old, key, fresh⟩
    rw [(keyInv.untouched p.key unused).2] at earlier
    cases earlier
  · obtain ⟨returned, serving⟩ := known i call tx r added
    exact ⟨i, call.cmd, r, executed, returned, key, fresh, serving⟩

/-- The counters of executed transfers never show more than `transfers` has gained since
the process started. Once every request has been answered they show exactly that, if
every transfer since then went through this process and was acknowledged to it. -/
theorem transfers_counted (origin : runs World.step (.init .empty) before = some w)
    (ran : runs (Server.step d) (.start d w) acts = some s) :
    w.db.transfers.length + s.executions ≤ s.world.db.transfers.length ∧
    ((∀ i, w.sessions i = .idle ∨ (w.sessions i).Over) → (∀ a ∈ acts, a.kept = true) →
      (∀ i r, .arrive i r ∈ acts → (s.connections i).response.isSome) →
      w.db.transfers.length + s.executions = s.world.db.transfers.length) := by
  obtain ⟨ps, keyInv⟩ := World.runs_keyInv (.init .empty) .init origin
  rw [List.nil_append] at keyInv
  obtain ⟨below, reached, -⟩ := Server.world_runs ran
  obtain ⟨more, keyInv'⟩ := World.runs_keyInv (World.runs_inv origin) keyInv reached
  have inv := Server.runs_inv ran
  have gained : s.world.db.transfers.length = w.db.transfers.length + more.length := by
    rw [keyInv.journal.transfers, keyInv'.journal.transfers]
    simp
  have distinct : more.Nodup :=
    (List.nodup_append.mp keyInv'.journal.distinctKeys.of_map).2.1
  -- the connections that have counted, against the postings added since
  let counted : Finset Nat := ⟨s.executors, Server.executors_nodup inv keyInv'⟩
  let posted : Finset Posting := ⟨more, distinct⟩
  have atMost : counted.card ≤ posted.card := by
    refine Finset.card_le_card_of_forall_subsingleton
      (fun i p => s.world.executedBy p.key = [i]) ?_ ?_
    · intro i mem
      exact Server.executors_posted origin ran keyInv keyInv' mem
    · rintro p - i ⟨-, mine⟩ j ⟨-, mine'⟩
      exact List.singleton_inj.mp (mine.symm.trans mine')
  rw [gained, Server.executions_eq]
  refine ⟨Nat.add_le_add_left atMost _, fun rested kept answered => ?_⟩
  have since := Server.runs_since rested kept ran
  have atLeast : posted.card ≤ counted.card := by
    refine Finset.card_le_card_of_forall_subsingleton
      (fun p i => s.world.executedBy p.key = [i]) ?_ ?_
    · intro p mem
      obtain ⟨i, cmd, res, executed, returned, -, fresh, serving⟩ :=
        since.executed keyInv keyInv' mem
      refine ⟨i, ?_, executed⟩
      cases was : s.connections i with
      | idle => exact absurd was serving
      | serving r prog events =>
        have finished := answered i r (Server.runs_served ran was)
        rw [was] at finished
        cases prog with
        | ret outcome => exact Server.mem_executors inv keyInv' was returned fresh
        | op o next => cases finished
    · rintro i - p ⟨mem, mine⟩ q ⟨mem', mine'⟩
      obtain ⟨j, cmd, res, executed, returned, key, -, -⟩ := since.executed keyInv keyInv' mem
      obtain ⟨k, cmd', res', executed', returned', key', -, -⟩ := since.executed keyInv keyInv' mem'
      obtain rfl := List.singleton_inj.mp (executed.symm.trans mine)
      obtain rfl := List.singleton_inj.mp (executed'.symm.trans mine')
      cases returned.symm.trans returned'
      exact List.inj_on_of_nodup_map keyInv'.journal.distinctKeys (List.mem_append_right _ mem)
        (List.mem_append_right _ mem') (key.symm.trans key')
  exact congrArg _ (Nat.le_antisymm atMost atLeast)

open Resent in
/-- Two requests with one key count one execution and book one transfer. -/
theorem transfers_counted_repeated :
    ∃ w s, runs World.step (.init .empty) Scenario.opened = some w ∧
      runs (Server.step deps) (.start deps w) (first ++ second) = some s ∧ s.executions = 1 ∧
      w.db.transfers.length + s.executions = s.world.db.transfers.length := by
  have reached : ((runs World.step (.init .empty) Scenario.opened).bind fun w =>
      (runs (Server.step deps) (.start deps w) (first ++ second)).map fun s =>
        ((s.connections 0).response.isSome, (s.connections 1).response.isSome, s.executions)) =
      some (true, true, 1) := by decide +kernel
  obtain ⟨w, origin, reached⟩ := Option.bind_eq_some_iff.mp reached
  obtain ⟨s, ran, observed⟩ := Option.map_eq_some_iff.mp reached
  injection observed with zero observed
  injection observed with one count
  refine ⟨w, s, origin, ran, count, (transfers_counted origin ran).2 ?_ ?_ ?_⟩
  · intro i
    refine .inl (Txn.runs_admissible (fun a => a.session = none)
      (fun w : World => w.sessions i = .idle) ?_ ?_ rfl origin)
    · intro w w' a outside idle stepped
      exact ((World.step_move stepped).sessions_other (by rw [outside]; rintro ⟨⟩)).trans idle
    · simp [Scenario.opened, WalletGo.Act.session]
  · decide +kernel
  · intro i r arrived
    simp only [first, second, List.mem_append, List.mem_cons, List.mem_map, List.mem_replicate,
      List.not_mem_nil,
      Act.arrive.injEq, reduceCtorEq, and_false, or_false, exists_false] at arrived
    rcases arrived with ⟨rfl, -⟩ | ⟨rfl, -⟩
    · exact zero
    · exact one

end Runs

end WalletGo.Http
