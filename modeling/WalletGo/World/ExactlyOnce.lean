import WalletGo.World.Keys

/-!
Exactly once per idempotency key.

`KeyInv` ties the log of commits and the results of calls to the journal: what has
been committed on behalf of a key is nothing, or the writes of the one posting
that carries it, made by one session; and every success returned for the key is
that posting's. It is kept by every act of either executor, including crashes,
lost acknowledgements and retries.
-/

namespace WalletGo

open Txn (Prog)

def Committed.writesFor (key : IdempotencyKey) : Committed → List Write
  | .call _ c tx _ => if c.cmd.key = key then tx.writes else []
  | .account _ => []

def Committed.executedBy (key : IdempotencyKey) : Committed → Option Nat
  | .call i c _ result => if c.cmd.key = key ∧ result.replayed = false then some i else none
  | .account _ => none

namespace World

/-- All that has ever been committed on behalf of a key. -/
def writesFor (w : World) (key : IdempotencyKey) : List Write := w.log.flatMap (·.writesFor key)

/-- The sessions that have committed an execution of a command with this key. -/
def executedBy (w : World) (key : IdempotencyKey) : List Nat := w.log.filterMap (·.executedBy key)

end World

structure KeyInv (w : World) (ps : List Posting) : Prop where
  journal : Journal w.db ps
  untouched : ∀ key, key ∉ ps.map (·.key) → w.writesFor key = [] ∧ w.executedBy key = []
  posted : ∀ p ∈ ps, w.writesFor p.key = p.writes ∧ ∃ i, w.executedBy p.key = [i]
  succeeded : ∀ {i cmd r}, w.sessions i = .returned cmd (.ok r) →
    ∃ p ∈ ps, p.key = cmd.key ∧ r.transferID = p.id ∧ r.response = createdResponse p.id ∧
      (r.replayed = false → i ∈ w.executedBy cmd.key)

/-- The stored row of a key is that of its posting. -/
theorem Journal.keyRow {db : Db} {ps : List Posting} (journal : Journal db ps)
    {key : IdempotencyKey} {row : KeyRow} (stored : db.keyRow key = some row) :
    ∃ p ∈ ps, p.key = key ∧ row = p.keyRow := by
  obtain ⟨p, posted, rfl⟩ := journal.mem_keys (List.mem_of_find?_eq_some stored)
  exact ⟨p, posted, by simpa using List.find?_some stored, rfl⟩

theorem Journal.keyRow_of_mem {db : Db} {ps : List Posting} (journal : Journal db ps) {p : Posting}
    (mem : p ∈ ps) : db.keyRow p.key = some p.keyRow := by
  cases stored : db.keyRow p.key with
  | none => exact absurd (List.mem_map_of_mem mem) (journal.key_free.mp stored)
  | some row =>
    obtain ⟨q, posted, same, rfl⟩ := journal.keyRow stored
    rw [List.inj_on_of_nodup_map journal.distinctKeys posted mem same]

namespace KeyInv

variable {w w' : World} {ps : List Posting}

theorem init : KeyInv (.init .empty) [] where
  journal := Journal.empty
  untouched _ _ := ⟨rfl, rfl⟩
  posted _ mem := nomatch mem
  succeeded was := nomatch was

/-- A change that commits nothing and returns no success. -/
theorem quiet (inv : KeyInv w ps) (journal : Journal w'.db ps)
    (writes : ∀ key, w'.writesFor key = w.writesFor key)
    (executed : ∀ key, w'.executedBy key = w.executedBy key)
    (sessions : ∀ {i cmd r}, w'.sessions i = .returned cmd (.ok r) →
      w.sessions i = .returned cmd (.ok r)) : KeyInv w' ps where
  journal := journal
  untouched key absent := by
    rw [writes, executed]
    exact inv.untouched key absent
  posted p mem := by
    rw [writes, executed]
    exact inv.posted p mem
  succeeded {i cmd r} was := by
    rw [executed]
    exact inv.succeeded (sessions was)

/-- A session that goes on without success leaves the keys as they are. -/
theorem update {i : Nat} {s : Session} (inv : KeyInv w ps) (w' : World)
    (sessions : w'.sessions = w.sessions) (db : w'.db = w.db) (log : w'.log = w.log)
    (unsuccessful : ∀ cmd r, s ≠ .returned cmd (.ok r)) : KeyInv (w'.set i s) ps := by
  refine inv.quiet (show Journal w'.db ps by rw [db]; exact inv.journal) ?_ ?_ ?_
  · intro key
    change w'.log.flatMap _ = _
    rw [log]
    rfl
  · intro key
    change w'.log.filterMap _ = _
    rw [log]
    rfl
  · intro j cmd r was
    by_cases mine : j = i
    · subst mine
      rw [World.sessions_set_self] at was
      exact absurd was (unsuccessful cmd r)
    · rw [World.sessions_set mine, sessions] at was
      exact was

end KeyInv

namespace World

variable (w : World) (i : Nat) (call : Call) (tx : OpenTx) (result : TransferResult) (s : Session)
  (key : IdempotencyKey)

theorem writesFor_apply :
    ((w.apply i call tx result).set i s).writesFor key =
      w.writesFor key ++ if call.cmd.key = key then tx.writes else [] := by
  simp [writesFor, apply, set, Committed.writesFor]

theorem executedBy_apply :
    ((w.apply i call tx result).set i s).executedBy key =
      w.executedBy key ++ if call.cmd.key = key ∧ result.replayed = false then [i] else [] := by
  have last : [Committed.call i call tx result].filterMap (·.executedBy key) =
      if call.cmd.key = key ∧ result.replayed = false then [i] else [] := by
    by_cases executes : call.cmd.key = key ∧ result.replayed = false
    · simp [Committed.executedBy, executes]
    · simp [Committed.executedBy, executes]
  rw [← last]
  exact List.filterMap_append

end World

namespace KeyInv

variable {w : World} {ps : List Posting} {i : Nat} {call : Call} {tx : OpenTx}
  {result : TransferResult} {s : Session}

/-- A replay commits nothing on behalf of its key, and its result is that of the
key's posting. -/
theorem replayed (inv : KeyInv w ps) (older : (tx.base call.strategy w.db).Extends w.db)
    {row : KeyRow} (stored : (tx.base call.strategy w.db).keyRow call.cmd.key = some row)
    (writes : tx.writes = []) (now : ∀ cmd r, s = .returned cmd (.ok r) → cmd = call.cmd ∧
      r = row.replayResult) : KeyInv ((w.apply i call tx row.replayResult).set i s) ps := by
  have sameWrites : ∀ key, ((w.apply i call tx row.replayResult).set i s).writesFor key =
      w.writesFor key := by
    intro key
    rw [World.writesFor_apply, writes, ite_self, List.append_nil]
  have sameExecuted : ∀ key, ((w.apply i call tx row.replayResult).set i s).executedBy key =
      w.executedBy key := by
    intro key
    rw [World.executedBy_apply, if_neg (by simp [KeyRow.replayResult]), List.append_nil]
  have sameDb : ((w.apply i call tx row.replayResult).set i s).db = w.db := by
    change w.db.after tx.writes = w.db
    rw [writes, Db.after_nil]
  refine ⟨by rw [sameDb]; exact inv.journal, ?_, ?_, ?_⟩
  · intro key absent
    rw [sameWrites, sameExecuted]
    exact inv.untouched key absent
  · intro p mem
    rw [sameWrites, sameExecuted]
    exact inv.posted p mem
  · intro j cmd r was
    rw [sameExecuted]
    by_cases mine : j = i
    · subst mine
      rw [World.sessions_set_self] at was
      obtain ⟨rfl, rfl⟩ := now cmd r was
      obtain ⟨p, posted, same, rfl⟩ := inv.journal.keyRow (older.keyRow stored)
      exact ⟨p, posted, same, rfl, rfl, nofun⟩
    · rw [World.sessions_set mine] at was
      exact inv.succeeded was

/-- An execution is the first commit on behalf of its key. -/
theorem executed (inv : KeyInv w ps) (older : (tx.base call.strategy w.db).Extends w.db)
    {p : Posting} (carries : p.Carries call.cmd) (writes : tx.writes = p.writes)
    (accepts : (tx.base call.strategy w.db).Accepts w.db p)
    (now : ∀ cmd r, s = .returned cmd (.ok r) →
      cmd = call.cmd ∧ r = ⟨p.id, createdResponse p.id, false⟩) :
    KeyInv ((w.apply i call tx ⟨p.id, createdResponse p.id, false⟩).set i s) (ps ++ [p]) := by
  have unused := inv.journal.key_free.mp accepts.free
  obtain ⟨noWrites, notExecuted⟩ := inv.untouched p.key unused
  have journal : Journal (w.db.after tx.writes) (ps ++ [p]) := by
    rw [writes, Db.after_writes accepts.free]
    exact inv.journal.post older accepts
  refine ⟨journal, ?_, ?_, ?_⟩
  · intro key absent
    rw [List.map_append, List.mem_append, not_or] at absent
    have other : call.cmd.key ≠ key := by
      rw [← carries.key]
      simpa [eq_comm] using absent.2
    rw [World.writesFor_apply, World.executedBy_apply, if_neg other, if_neg (other ·.1),
      List.append_nil, List.append_nil]
    exact inv.untouched key absent.1
  · intro q mem
    rw [World.writesFor_apply, World.executedBy_apply]
    rcases List.mem_append.mp mem with mem | mem
    · have other : call.cmd.key ≠ q.key := by
        rw [← carries.key]
        exact fun same => unused (same ▸ List.mem_map_of_mem mem)
      rw [if_neg other, if_neg (other ·.1), List.append_nil, List.append_nil]
      exact inv.posted q mem
    · obtain rfl := List.mem_singleton.mp mem
      rw [if_pos carries.key.symm, if_pos ⟨carries.key.symm, rfl⟩, noWrites, notExecuted, writes]
      exact ⟨rfl, i, rfl⟩
  · intro j cmd r was
    rw [World.executedBy_apply]
    by_cases mine : j = i
    · subst mine
      rw [World.sessions_set_self] at was
      obtain ⟨rfl, rfl⟩ := now cmd r was
      refine ⟨p, List.mem_append_right _ (List.mem_singleton_self p), carries.key, rfl,
        rfl, fun _ => ?_⟩
      rw [if_pos ⟨rfl, rfl⟩]
      exact List.mem_append_right _ (List.mem_singleton_self _)
    · rw [World.sessions_set mine] at was
      obtain ⟨q, mem, key, id, response, author⟩ := inv.succeeded was
      exact ⟨q, List.mem_append_left _ mem, key, id, response, fun own =>
        List.mem_append_left _ (author own)⟩

end KeyInv

/-- Every act keeps the account of the keys, with the postings that it has added. -/
theorem World.Move.keyInv {w w' : World} {a : Act} {ps : List Posting}
    (move : w.Move a w') (inv : w.Inv) (keyInv : KeyInv w ps) : ∃ more, KeyInv w' (ps ++ more) := by
  have same : ∀ {w'' : World}, KeyInv w'' ps → ∃ more, KeyInv w'' (ps ++ more) := by
    intro w'' kept
    exact ⟨[], by rwa [List.append_nil]⟩
  cases move with
  | outside i s mine was now kept => exact same (keyInv.update w rfl rfl rfl now.not_ok)
  | begins i call attempt result was => exact same (keyInv.update w rfl rfl rfl nofun)
  | performs i c call attempt tx o next was prog free drawn =>
    exact same (keyInv.update { w with sequence := _, locks := _ } rfl rfl rfl nofun)
  | aborts i s mine call attempt tx was now kept =>
    exact same (keyInv.update (w.release i) rfl rfl rfl now.not_ok)
  | commits i outcome call attempt tx result s was prog allowed now =>
    obtain ⟨phase, txInv⟩ := inv.running was
    have returned : ∀ cmd r, s = .returned cmd (.ok r) → cmd = call.cmd ∧ r = result := by
      rintro cmd r rfl
      rcases now with ⟨-, same⟩ | ⟨err, -, same⟩
      · cases same
        exact ⟨rfl, rfl⟩
      · exact absurd same.symm ((call.afterError_unsuccessful _ _ _).not_ok cmd r)
    cases txInv.commits prog with
    | posted p carries writes accepts locked =>
      exact ⟨[p], keyInv.executed txInv.older carries writes accepts returned⟩
    | replayed row stored sameFingerprint completed writes =>
      exact same (keyInv.replayed txInv.older stored writes returned)
  | opens a valid =>
    refine same (keyInv.quiet (keyInv.journal.addAccount valid) ?_ ?_ id)
    · intro key
      simp [World.writesFor, Committed.writesFor]
    · intro key
      simp [World.executedBy, Committed.executedBy]

end WalletGo
