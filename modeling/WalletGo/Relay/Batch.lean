import Mathlib.Data.List.Nodup
import WalletGo.Relay.Alone

/-!
What a whole `PollOnce` does to the outbox.

The transactions that commit form a `History` of the table: each is for a row that
was pending when it committed, so one that has been published is never taken up
again, while one whose call failed may be, in the same batch. What is said about
rows is read from the history; `Progress` carries it through the rounds of the loop,
and its three exits end in `Ended`.
-/

namespace WalletGo.Relay

open Txn (Prog)

/-! ### The history of the table -/

def replay (outbox : List OutboxRow) (log : List Settled) : List OutboxRow :=
  log.foldl (fun rows d => State.updated rows d.write) outbox

/-- Each transaction was for a row that was pending when it committed. -/
inductive History (outbox : List OutboxRow) : List Settled → Prop where
  | nil : History outbox []
  | settle {log : List Settled} {row : OutboxRow} (earlier : History outbox log)
      (mem : row ∈ replay outbox log) (pending : row.publishedAt = none) (u : Update)
      (acknowledged : Bool) : History outbox (log ++ [⟨row.eventID, u, acknowledged⟩])

section Table

variable {outbox : List OutboxRow} {log : List Settled}

theorem replay_snoc (d : Settled) :
    replay outbox (log ++ [d]) = State.updated (replay outbox log) d.write :=
  List.foldl_append

theorem replay_eventIDs : (replay outbox log).map (·.eventID) = outbox.map (·.eventID) := by
  have writes : replay outbox log = (log.map Settled.write).foldl State.updated outbox :=
    List.foldl_map.symm
  rw [writes, foldl_updated_eventIDs]

/-- A row that was not selected is unchanged. -/
theorem replay_unselected {row : OutboxRow} (mem : row ∈ outbox)
    (apart : ∀ d ∈ log, d.eventID ≠ row.eventID) : row ∈ replay outbox log := by
  induction log using List.reverseRecOn with
  | nil => exact mem
  | append_singleton log d ih =>
    rw [replay_snoc]
    refine mem_updated_of_ne (ih fun d mem => apart d (List.mem_append_left _ mem)) ?_
    exact (apart d (by simp)).symm

/-- A row that is pending was pending all along. -/
theorem pending_of_replay {row : OutboxRow} (mem : row ∈ replay outbox log)
    (pending : row.publishedAt = none) :
    ∃ first ∈ outbox, first.eventID = row.eventID ∧ first.publishedAt = none := by
  induction log using List.reverseRecOn generalizing row with
  | nil => exact ⟨row, mem, rfl, pending⟩
  | append_singleton log d ih =>
    rw [replay_snoc] at mem
    obtain ⟨earlier, present, rfl⟩ := List.mem_map.mp mem
    split at pending
    · have before : earlier.publishedAt = none := by
        cases update : d.update with
        | failed nextAttemptAt => simpa [Settled.write, update, Update.apply] using pending
        | published now => simp [Settled.write, update, Update.apply] at pending
      obtain ⟨first, known, same, first_pending⟩ := ih present before
      refine ⟨first, known, ?_, first_pending⟩
      split <;> simp [same]
    · rename_i apart
      rw [if_neg apart]
      exact ih present pending

theorem History.pending (history : History outbox log) {d : Settled} (mem : d ∈ log) :
    ∃ row ∈ outbox, row.eventID = d.eventID ∧ row.publishedAt = none := by
  induction history with
  | nil => cases mem
  | settle _ known pending _ _ ih =>
    rcases List.mem_append.mp mem with before | new
    · exact ih before
    · cases List.mem_singleton.mp new
      exact pending_of_replay known pending

theorem History.of_append {later : List Settled} (history : History outbox (log ++ later)) :
    History outbox log := by
  induction later using List.reverseRecOn with
  | nil => rwa [List.append_nil] at history
  | append_singleton later d ih =>
    rw [← List.append_assoc] at history
    generalize whole : log ++ later ++ [d] = all at history
    cases history with
    | nil => simp at whole
    | settle earlier =>
      refine ih ?_
      rw [(List.append_inj' whole rfl).1]
      exact earlier

/-- The row a transaction was for, as the transaction found it. -/
theorem History.found {later : List Settled} {d : Settled}
    (history : History outbox (log ++ d :: later)) :
    ∃ row ∈ replay outbox log, row.eventID = d.eventID ∧ row.publishedAt = none := by
  have upto : History outbox (log ++ [d]) := by
    rw [← List.singleton_append, ← List.append_assoc] at history
    exact history.of_append
  generalize whole : log ++ [d] = all at upto
  cases upto with
  | nil => simp at whole
  | @settle _ row _ mem pending =>
    obtain ⟨rfl, last⟩ := List.append_inj' whole rfl
    cases last
    exact ⟨row, mem, rfl, pending⟩

variable (distinct : (outbox.map (·.eventID)).Nodup)
include distinct

theorem replay_row_unique {row other : OutboxRow} (mem : row ∈ replay outbox log)
    (present : other ∈ replay outbox log) (same : row.eventID = other.eventID) : row = other := by
  have eventIDs : ((replay outbox log).map (·.eventID)).Nodup := by rwa [replay_eventIDs]
  exact List.inj_on_of_nodup_map eventIDs mem present same

/-- The update changes the one row it is for. -/
theorem updated_replay {row : OutboxRow} (mem : row ∈ replay outbox log) (u : Update) :
    State.updated (replay outbox log) (row.eventID, u) =
      (replay outbox log).map fun other => if other = row then u.apply row else other := by
  refine List.map_congr_left fun other present => ?_
  by_cases same : other = row
  · rw [if_pos same, if_pos (congrArg OutboxRow.eventID same), same]
  · rw [if_neg same, if_neg fun eventID => same (replay_row_unique distinct present mem eventID)]

/-- A row that has been published is never taken up again. -/
theorem History.published (history : History outbox log) {d : Settled} (mem : d ∈ log) {now : Time}
    (published : d.update = .published now) :
    ∃ row ∈ replay outbox log, row.eventID = d.eventID ∧ row.publishedAt = some now := by
  induction history with
  | nil => cases mem
  | @settle log row earlier known pending u acknowledged ih =>
    rw [replay_snoc]
    rcases List.mem_append.mp mem with before | new
    · obtain ⟨done, present, same, at'⟩ := ih before
      refine ⟨done, mem_updated_of_ne present fun eventID => ?_, same, at'⟩
      have eq : done = row := replay_row_unique distinct present known eventID
      rw [eq, pending] at at'
      cases at'
    · cases List.mem_singleton.mp new
      refine ⟨u.apply row, ?_, apply_eventID row u, ?_⟩
      · exact List.mem_map.mpr ⟨row, known, if_pos rfl⟩
      · rw [show u = .published now from published]
        rfl

/-- No row is published twice in one poll. -/
theorem History.once (history : History outbox log) :
    ((log.filter (·.update.publishes)).map (·.eventID)).Nodup := by
  induction history with
  | nil => exact List.nodup_nil
  | @settle log row earlier known pending u acknowledged ih =>
    rw [List.filter_append, List.map_append]
    refine List.Nodup.append ih ((List.nodup_singleton row.eventID).sublist ?_) ?_
    · exact (List.filter_sublist).map _
    · rintro eventID before new
      obtain ⟨d, kept, rfl⟩ := List.mem_map.mp before
      obtain ⟨mem, publishes⟩ := List.mem_filter.mp kept
      obtain ⟨_, last, same⟩ := List.mem_map.mp new
      cases List.mem_singleton.mp (List.mem_filter.mp last).1
      cases update : d.update with
      | failed nextAttemptAt =>
        rw [update] at publishes
        cases publishes
      | published now =>
        obtain ⟨done, present, eventID, at'⟩ := earlier.published distinct mem update
        have eq : done = row := replay_row_unique distinct present known (eventID.trans same.symm)
        rw [eq, pending] at at'
        cases at'

/-- Counting the transactions that published is counting their rows. -/
theorem History.count (history : History outbox log) :
    (log.filter fun d => d.acknowledged && d.update.publishes).length =
      outbox.countP fun row =>
        log.any fun d => d.eventID == row.eventID && (d.acknowledged && d.update.publishes) := by
  have transactions : ((log.filter fun d => d.acknowledged && d.update.publishes).map
      (·.eventID)).Nodup := by
    rw [← List.filter_filter]
    exact (history.once distinct).sublist (List.filter_sublist.map _)
  have rows : ((outbox.filter fun row => log.any fun d =>
      d.eventID == row.eventID && (d.acknowledged && d.update.publishes)).map (·.eventID)).Nodup :=
    distinct.sublist (List.filter_sublist.map _)
  have same := (List.perm_ext_iff_of_nodup transactions rows).mpr fun eventID => by
    simp only [List.mem_map, List.mem_filter, List.any_eq_true, Bool.and_eq_true, beq_iff_eq]
    constructor
    · rintro ⟨d, ⟨mem, told⟩, rfl⟩
      obtain ⟨row, present, eventID, -⟩ := history.pending mem
      exact ⟨row, ⟨present, d, mem, eventID.symm, told⟩, eventID⟩
    · rintro ⟨row, ⟨-, d, mem, eventID, told⟩, rfl⟩
      exact ⟨d, ⟨mem, told⟩, eventID⟩
  have lengths := same.length_eq
  rw [List.length_map, List.length_map] at lengths
  rw [lengths, List.countP_eq_length_filter]

end Table

/-! ### The whole batch -/

def Settled.call (d : Settled) : UUID × Bool := (d.eventID, d.update.publishes)

/-- What `PollOnce` returns and leaves of an outbox. -/
structure BatchAccounts (batchSize : Nat) (outbox : List OutboxRow)
    (result : Nat × Option GoError) (p : Polling) : Prop where
  /-- `Publish` is called at most `batchSize` times. -/
  calls : p.state.calls.length ≤ batchSize
  /-- The count is that of the rows that an acknowledged commit has published, -/
  count : result.1 = outbox.countP fun row =>
    p.settled.any fun d => d.eventID == row.eventID && (d.acknowledged && d.update.publishes)
  /-- and a commit that publishes sets `published_at`, which was null. -/
  published : ∀ d ∈ p.settled, ∀ now, d.update = .published now →
    (∃ row ∈ outbox, row.eventID = d.eventID ∧ row.publishedAt = none) ∧
      ∃ row ∈ p.state.outbox, row.eventID = d.eventID ∧ row.publishedAt = some now
  /-- The transactions that commit are those of the first calls of `Publish`, in turn; -/
  matched : p.settled.map Settled.call <+: p.state.calls.map fun call => (call.1.id, call.2)
  /-- the table is what they make of it, one after the other; -/
  table : p.state.outbox = replay outbox p.settled
  /-- after a failed call that is an attempt more and another `next_attempt_at`. -/
  failed : ∀ earlier d later nextAttemptAt, p.settled = earlier ++ d :: later →
    d.update = .failed nextAttemptAt →
      ∃ row ∈ replay outbox earlier, row.eventID = d.eventID ∧ row.publishedAt = none ∧
        replay outbox (earlier ++ [d]) = (replay outbox earlier).map fun other =>
          if other = row then
            { row with attempts := row.attempts + 1, nextAttemptAt := nextAttemptAt }
          else other
  /-- Rows are neither added nor removed, and one that is never selected is unchanged. -/
  eventIDs : p.state.outbox.map (·.eventID) = outbox.map (·.eventID)
  unselected : ∀ row ∈ outbox, (∀ call ∈ p.state.calls, call.1.id ≠ row.eventID) →
    row ∈ p.state.outbox
  /-- No row is published twice. -/
  once : ((p.settled.filter (·.update.publishes)).map (·.eventID)).Nodup
  /-- Without an error every call's transaction has committed and the relay was told. -/
  completed : result.2 = none → p.state.calls.length = p.settled.length ∧
    ∀ d ∈ p.settled, d.acknowledged = true
  /-- With an error so have all transactions before it. The one it struck has left the
  table as it was, or has committed with the acknowledgement lost. -/
  stopped : ∀ err, result.2 = some err → ∃ done, (∀ d ∈ done, d.acknowledged = true) ∧
    (p.settled = done ∧ p.state.calls.length ≤ done.length + 1 ∧
        p.state.outbox = replay outbox done ∨
      ∃ d, d.acknowledged = false ∧ p.settled = done ++ [d] ∧
        p.state.calls.length = done.length + 1 ∧
        p.state.outbox = State.updated (replay outbox done) (d.eventID, d.update))
  /-- A batch that ends early without an error ends with a transaction that began on the
  table as it is now, when nothing was due. -/
  drained : result.2 = none → p.state.calls.length < batchSize → p.began = p.state.outbox ∧
    ∀ row ∈ p.began, row.publishedAt = none → p.now < row.nextAttemptAt

/-- Between two rounds, with `left` of them left. -/
structure Progress (batchSize : Nat) (outbox : List OutboxRow) (left published : Nat)
    (p : Polling) : Prop where
  idle : p.Idle
  history : History outbox p.settled
  table : p.state.outbox = replay outbox p.settled
  matched : p.state.calls.map (fun call => (call.1.id, call.2)) = p.settled.map Settled.call
  told : ∀ d ∈ p.settled, d.acknowledged = true
  count : published = (p.settled.filter fun d => d.acknowledged && d.update.publishes).length
  size : p.settled.length + left = batchSize

/-- How the loop ends: what is left to say about the last transaction. -/
structure Ended (batchSize : Nat) (outbox : List OutboxRow) (result : Nat × Option GoError)
    (p : Polling) : Prop where
  history : History outbox p.settled
  table : p.state.outbox = replay outbox p.settled
  matched : p.settled.map Settled.call <+: p.state.calls.map fun call => (call.1.id, call.2)
  calls : p.state.calls.length ≤ batchSize
  count : result.1 = (p.settled.filter fun d => d.acknowledged && d.update.publishes).length
  completed : result.2 = none → p.state.calls.length = p.settled.length ∧
    ∀ d ∈ p.settled, d.acknowledged = true
  stopped : ∀ err, result.2 = some err → ∃ done, (∀ d ∈ done, d.acknowledged = true) ∧
    (p.settled = done ∧ p.state.calls.length ≤ done.length + 1 ∨
      ∃ d, d.acknowledged = false ∧ p.settled = done ++ [d] ∧
        p.state.calls.length = done.length + 1)
  drained : result.2 = none → p.state.calls.length < batchSize → p.began = p.state.outbox ∧
    ∀ row ∈ p.began, row.publishedAt = none → p.now < row.nextAttemptAt

/-- A poll that has ended has accounted for its batch. -/
theorem Ended.accounts {batchSize : Nat} {outbox : List OutboxRow} {result : Nat × Option GoError}
    {p : Polling} (ended : Ended batchSize outbox result p)
    (distinct : (outbox.map (·.eventID)).Nodup) : BatchAccounts batchSize outbox result p where
  calls := ended.calls
  count := ended.count.trans (ended.history.count distinct)
  published := by
    intro d mem now published
    refine ⟨ended.history.pending mem, ?_⟩
    rw [ended.table]
    exact ended.history.published distinct mem published
  matched := ended.matched
  table := ended.table
  failed := by
    intro earlier d later nextAttemptAt log failed
    obtain ⟨row, mem, eventID, pending⟩ := (log ▸ ended.history).found
    refine ⟨row, mem, eventID, pending, ?_⟩
    rw [replay_snoc, Settled.write, ← eventID, failed, updated_replay distinct mem]
    rfl
  eventIDs := by rw [ended.table, replay_eventIDs]
  unselected := by
    intro row mem unselected
    rw [ended.table]
    refine replay_unselected mem fun d settled same => ?_
    obtain ⟨call, called, eq⟩ := List.mem_map.mp
      (ended.matched.subset (List.mem_map.mpr ⟨d, settled, rfl⟩))
    exact unselected call called ((congrArg Prod.fst eq).trans same)
  once := ended.history.once distinct
  completed := ended.completed
  stopped := by
    intro err error
    obtain ⟨done, told, ⟨log, calls⟩ | ⟨d, lost, log, calls⟩⟩ := ended.stopped err error
    · exact ⟨done, told, .inl ⟨log, calls, log ▸ ended.table⟩⟩
    · refine ⟨done, told, .inr ⟨d, lost, log, calls, ?_⟩⟩
      rw [ended.table, log, replay_snoc]
      rfl
  drained := ended.drained

section Rounds

variable {batchSize left published : Nat} {outbox : List OutboxRow} {p p' : Polling}

theorem Progress.length (progress : Progress batchSize outbox left published p) :
    p.state.calls.length = p.settled.length := by
  simpa using congrArg List.length progress.matched

theorem Progress.full (progress : Progress batchSize outbox 0 published p) :
    Ended batchSize outbox (published, none) p where
  history := progress.history
  table := progress.table
  matched := progress.matched ▸ List.prefix_rfl
  calls := by
    have size := progress.size
    have length := progress.length
    omega
  count := progress.count
  completed _ := ⟨progress.length, progress.told⟩
  stopped := nofun
  drained := by
    have size := progress.size
    have length := progress.length
    omega

/-- An error before the transaction has committed. -/
theorem Progress.stopped (progress : Progress batchSize outbox (left + 1) published p)
    (extra : List (Event × Bool)) (single : extra.length ≤ 1)
    (view : p'.view = (p.state.outbox, p.state.calls ++ extra, p.settled)) (err : GoError) :
    Ended batchSize outbox (published, some err) p' := by
  obtain ⟨table, calls, log⟩ := Polling.view_eq.mp view
  have length : p'.state.calls.length ≤ p.settled.length + 1 := by
    rw [calls, List.length_append, progress.length]
    omega
  exact {
    history := log ▸ progress.history
    table := by rw [table, log, progress.table]
    matched := by
      rw [log, calls, List.map_append, progress.matched]
      exact List.prefix_append _ _
    calls := by
      have size := progress.size
      omega
    count := log ▸ progress.count
    completed := by rintro ⟨⟩
    stopped := fun _ _ => ⟨p.settled, progress.told, .inl ⟨log, length⟩⟩
    drained := by rintro ⟨⟩ }

theorem Progress.drained (progress : Progress batchSize outbox (left + 1) published p)
    (same : p'.view = p.view) (start : p'.began = p.state.outbox)
    (later : ∀ row ∈ p.state.outbox, row.publishedAt = none → p'.now < row.nextAttemptAt) :
    Ended batchSize outbox (published, none) p' := by
  obtain ⟨table, calls, log⟩ := Polling.view_eq.mp same
  have length : p'.state.calls.length = p'.settled.length := by rw [calls, log, progress.length]
  have matched : p'.state.calls.map (fun call => (call.1.id, call.2)) =
      p'.settled.map Settled.call := by
    rw [calls, log, progress.matched]
  exact {
    history := log ▸ progress.history
    table := by rw [table, log, progress.table]
    matched := matched ▸ List.prefix_rfl
    calls := by
      have size := progress.size
      rw [length, log]
      omega
    count := log ▸ progress.count
    completed := fun _ => ⟨length, log ▸ progress.told⟩
    stopped := nofun
    drained := fun _ _ => ⟨start.trans table.symm, start ▸ later⟩ }

variable {row : OutboxRow} {u : Update} {acknowledged : Bool}

/-- What a commit adds, whether or not the relay is told. -/
theorem Progress.commit (progress : Progress batchSize outbox (left + 1) published p)
    (mem : row ∈ p.state.outbox) (pending : row.publishedAt = none)
    (view : p'.view = (State.updated p.state.outbox (row.eventID, u),
      p.state.calls ++ [(Event.of row, u.publishes)],
        p.settled ++ [⟨row.eventID, u, acknowledged⟩])) :
    History outbox p'.settled ∧ p'.state.outbox = replay outbox p'.settled ∧
      p'.state.calls.map (fun call => (call.1.id, call.2)) = p'.settled.map Settled.call := by
  obtain ⟨table, calls, log⟩ := Polling.view_eq.mp view
  refine ⟨?_, ?_, ?_⟩
  · rw [log]
    exact progress.history.settle (progress.table ▸ mem) pending u acknowledged
  · rw [table, log, replay_snoc, progress.table]
    rfl
  · rw [calls, log, List.map_append, List.map_append, progress.matched]
    rfl

/-- One more row has been settled and the poll goes on. -/
theorem Progress.settled (progress : Progress batchSize outbox (left + 1) published p)
    (mem : row ∈ p.state.outbox) (pending : row.publishedAt = none)
    (view : p'.view = (State.updated p.state.outbox (row.eventID, u),
      p.state.calls ++ [(Event.of row, u.publishes)], p.settled ++ [⟨row.eventID, u, true⟩]))
    (idle : p'.Idle) :
    Progress batchSize outbox left (if u.publishes then published + 1 else published) p' := by
  obtain ⟨history, table, matched⟩ := progress.commit mem pending view
  obtain ⟨-, -, log⟩ := Polling.view_eq.mp view
  exact {
    idle, history, table, matched
    told := by
      rw [log]
      rintro d mem
      rcases List.mem_append.mp mem with before | new
      · exact progress.told d before
      · cases List.mem_singleton.mp new
        rfl
    count := by
      rw [log, List.filter_append, List.length_append, ← progress.count]
      cases publishes : u.publishes <;> simp [publishes]
    size := by
      have size := progress.size
      rw [log, List.length_append, List.length_singleton]
      omega }

/-- One more row has been settled, but the commit's answer was lost and the poll ends. -/
theorem Progress.lost (progress : Progress batchSize outbox (left + 1) published p)
    (mem : row ∈ p.state.outbox) (pending : row.publishedAt = none)
    (view : p'.view = (State.updated p.state.outbox (row.eventID, u),
      p.state.calls ++ [(Event.of row, u.publishes)], p.settled ++ [⟨row.eventID, u, false⟩]))
    (err : GoError) : Ended batchSize outbox (published, some err) p' := by
  obtain ⟨history, table, matched⟩ := progress.commit mem pending view
  obtain ⟨-, calls, log⟩ := Polling.view_eq.mp view
  have length : p'.state.calls.length = p.settled.length + 1 := by
    rw [calls, List.length_append, progress.length]
    rfl
  exact {
    history, table
    matched := matched ▸ List.prefix_rfl
    calls := by
      have size := progress.size
      omega
    count := by
      rw [log, List.filter_append, progress.count]
      simp
    completed := by rintro ⟨⟩
    stopped := fun _ _ => ⟨p.settled, progress.told, .inr ⟨_, rfl, log, length⟩⟩
    drained := by rintro ⟨⟩ }

end Rounds

/-- The loop of a poll, from any point on. -/
theorem pollLoop_ended {batchSize left published : Nat} {outbox : List OutboxRow} {p : Polling}
    (progress : Progress batchSize outbox left published p) :
    (pollLoop left published).Always Polling.served
      (fun p' result => Ended batchSize outbox result p') p := by
  induction left generalizing published p with
  | zero => exact progress.full
  | succ left ih =>
    refine Prog.Always.bind (processOne_round progress.idle) ?_
    rintro p' result ⟨round, idle⟩
    cases round with
    | refused err same =>
      exact progress.stopped [] (Nat.zero_le 1) (by rw [same, List.append_nil]; rfl) err
    | drained same start later => exact progress.drained same start later
    | undone err row success view => exact progress.stopped [_] (Nat.le_refl 1) view err
    | settled row u mem pending view => exact ih (progress.settled mem pending view idle)
    | lost err row u mem pending view => exact progress.lost mem pending view err

/-- For every outbox, batch size and behaviour of the server, the publisher and the
clock. -/
theorem pollOnce_accounts (batchSize : Nat) (outbox : List OutboxRow) (choice : Nat → Choice)
    (distinct : (outbox.map (·.eventID)).Nodup) :
    BatchAccounts batchSize outbox (Polling.run choice outbox batchSize).1
      (Polling.run choice outbox batchSize).2 := by
  have start : Progress batchSize outbox batchSize 0 (.start outbox) :=
    ⟨Polling.start_idle outbox, .nil, rfl, rfl, nofun, rfl, Nat.zero_add batchSize⟩
  obtain ⟨_, ended, rfl⟩ := (pollLoop_ended start).run (fun n p => p.answer (choice n))
    (fun q p => q = p) rfl (n := 0) (by
      rintro n _ p o - rfl
      exact ⟨_, ⟨choice n, rfl⟩, rfl⟩)
  exact ended.accounts distinct

namespace Retried

def older : OutboxRow :=
  ⟨.ofByte 1, "transfer.completed", ⟨.zero, .zero, .zero, 5⟩, 1, none, 0, 1⟩

def newer : OutboxRow :=
  ⟨.ofByte 2, "transfer.completed", ⟨.zero, .zero, .zero, 7⟩, 2, none, 0, 2⟩

/-- The first call of `Publish` fails and its retry time has passed already; the
third transaction's commit is not acknowledged. -/
def choice (n : Nat) : Choice where
  fault := if n = 2 then some .canceled else none
  pick := none
  now := 10
  clock := 3
  draw := 0
  commit := if n = 17 then .lost .canceled else .acknowledged

end Retried

open Retried in
/-- The commit of a published row is cut off on its way back: the row is settled all the same. -/
theorem pollOnce_accounts_retried :
    (Polling.run choice [newer, older] 5).1 =
        (1, some (.wrap "postgres: commit relay tx" .canceled)) ∧
      (Polling.run choice [newer, older] 5).2.state.outbox =
        [{ newer with publishedAt := some 10, attempts := 1 },
          { older with publishedAt := some 10, attempts := 2, nextAttemptAt := 3 }] ∧
      BatchAccounts 5 [newer, older] (Polling.run choice [newer, older] 5).1
        (Polling.run choice [newer, older] 5).2 :=
  ⟨by decide +kernel, by decide +kernel, pollOnce_accounts 5 [newer, older] choice (by
    decide +kernel)⟩

end WalletGo.Relay
