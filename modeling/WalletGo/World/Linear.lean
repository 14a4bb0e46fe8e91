import WalletGo.World.Refusals

/-!
Every reply is the one a wallet would give that serves one command at a time.

A refusal changes nothing, so it can be placed at the act at which it was due
(`World.Judges`); a transfer is made where it is committed. Placed like this, the calls of a
run are served one after the other by the wallet that the tables stand for
(`linearisable`), as long as no locking debit overtakes a serializable transaction.
-/

namespace WalletGo

open Txn (Linear)

/-- What a wallet does at one moment: open an account, or serve a session's command. -/
inductive Wallet.Event where
  | account (a : Account)
  | call (i : Nat) (cmd : TransferCommand) (reply : Except GoError TransferResult)

def Wallet.Event.session : Wallet.Event → Option Nat
  | .account _ => none
  | .call i _ _ => some i

inductive Wallet.Takes (v : Wallet) : Event → Wallet → Prop where
  | opens {a : Account} (unused : v.kind a.id = none) : Takes v (.account a) (v.opened a)
  | serves {i : Nat} {cmd : TransferCommand} {reply : Except GoError TransferResult} {v' : Wallet}
      (served : v.Serves cmd reply v') : Takes v (.call i cmd reply) v'

/-- The reply tells what the wallet has decided; any other error leaves it open. -/
def decisive : Except GoError TransferResult → Bool
  | .ok _ => true
  | .error err => err.refusal

/-- The events are those of the calls that have been told, and of those that have lost the
acknowledgement. -/
structure World.Tells (w : World) (events : List Wallet.Event) : Prop where
  once : (events.filterMap Wallet.Event.session).Nodup
  told : ∀ {i cmd reply}, w.sessions i = .returned cmd reply → decisive reply = true →
    .call i cmd reply ∈ events
  kept : ∀ {i cmd reply}, .call i cmd reply ∈ events → w.sessions i = .returned cmd reply ∨
    ∃ err, err.foreign = true ∧ w.sessions i = .returned cmd (.error err)

namespace World.Tells

variable {w w' : World} {events events' : List Wallet.Event} {i : Nat}

theorem init (db : Db) : (World.init db).Tells [] where
  once := .nil
  told was := nomatch was
  kept mem := nomatch mem

/-- A call that goes on has not been served. -/
theorem unserved (tells : w.Tells events) (live : ¬ (w.sessions i).Over) {cmd : TransferCommand}
    {reply : Except GoError TransferResult} : .call i cmd reply ∉ events := by
  intro mem
  rcases tells.kept mem with was | ⟨err, -, was⟩
  · exact live (by rw [was]; trivial)
  · exact live (by rw [was]; trivial)

/-- A session that goes on, or is told nothing decisive, adds no event. -/
theorem quiet (tells : w.Tells events) (live : ¬ (w.sessions i).Over)
    (others : ∀ j ≠ i, w'.sessions j = w.sessions j)
    (silent : ∀ cmd reply, w'.sessions i = .returned cmd reply → decisive reply = false) :
    w'.Tells events where
  once := tells.once
  told {j cmd reply} now decisive := by
    by_cases mine : j = i
    · subst mine
      rw [silent cmd reply now] at decisive
      cases decisive
    · rw [others j mine] at now
      exact tells.told now decisive
  kept {j cmd reply} mem := by
    have other : j ≠ i := by
      rintro rfl
      exact tells.unserved live mem
    rw [others j other]
    exact tells.kept mem

/-- A session that is told adds the event of its call. -/
theorem adds (tells : w.Tells events) (live : ¬ (w.sessions i).Over)
    (others : ∀ j ≠ i, w'.sessions j = w.sessions j) {cmd : TransferCommand}
    {reply : Except GoError TransferResult} (now : w'.sessions i = .returned cmd reply ∨
      ∃ err, err.foreign = true ∧ w'.sessions i = .returned cmd (.error err))
    (perm : events'.Perm (.call i cmd reply :: events)) : w'.Tells events' where
  once := by
    refine ((perm.filterMap Wallet.Event.session).nodup_iff).mpr
      (List.nodup_cons.mpr ⟨?_, tells.once⟩)
    intro mem
    obtain ⟨e, mem, same⟩ := List.mem_filterMap.mp mem
    cases e with
    | account a => cases same
    | call j cmd' reply' =>
      cases same
      exact tells.unserved live mem
  told {j cmd' reply'} returned decisive := by
    refine perm.mem_iff.mpr ?_
    by_cases mine : j = i
    · subst mine
      rcases now with same | ⟨err, foreign, same⟩
      · cases same.symm.trans returned
        exact List.mem_cons_self
      · cases same.symm.trans returned
        rw [WalletGo.decisive, GoError.not_refusal_of_foreign foreign] at decisive
        cases decisive
    · rw [others j mine] at returned
      exact List.mem_cons_of_mem _ (tells.told returned decisive)
  kept {j cmd' reply'} mem := by
    rcases List.mem_cons.mp (perm.mem_iff.mp mem) with same | mem
    · cases same
      exact now
    · have other : j ≠ i := by
        rintro rfl
        exact tells.unserved live mem
      rw [others j other]
      exact tells.kept mem

theorem opens (tells : w.Tells events) (same : w'.sessions = w.sessions) (a : Account) :
    w'.Tells (events ++ [.account a]) where
  once := by
    have account : [Wallet.Event.account a].filterMap Wallet.Event.session = [] := rfl
    rw [List.filterMap_append, account, List.append_nil]
    exact tells.once
  told now decisive := by
    rw [same] at now
    exact List.mem_append_left _ (tells.told now decisive)
  kept {i cmd reply} mem := by
    rw [same]
    rcases List.mem_append.mp mem with mem | mem
    · exact tells.kept mem
    · cases List.mem_singleton.mp mem

end World.Tells

section Commits

variable {base db : Db} {cmd : TransferCommand} {amount : Money} {ps : List Posting} {p : Posting}

/-- A posting that the database accepts, of a command whose source holds the amount. -/
theorem Journal.serves_posted (journal : Journal db ps) (older : base.Extends db)
    (valid : validate cmd = .ok amount) (carries : p.Carries cmd) (accepts : base.Accepts db p)
    (enough : db.kindOf p.source = some .customer → p.amount.toInt ≤ db.sum p.source) :
    db.wallet.Serves cmd (.ok ⟨p.id, createdResponse p.id, false⟩) (db.post p).wallet := by
  have free : db.keyRow cmd.key = none := carries.key ▸ accepts.free
  obtain ⟨kind, balance, source, -, -⟩ := accepts.funded
  obtain ⟨kind', target⟩ := Option.isSome_iff_exists.mp accepts.target
  rw [carries.source] at source enough
  rw [carries.target] at target
  rw [carries.amount] at enough
  rw [Db.wallet_post carries free]
  have funded : db.wallet.funds cmd = .ok () := by
    refine if_neg ?_
    rintro ⟨customer, short⟩
    have held := enough customer
    exact absurd short (not_lt.mpr held)
  refine .moves ?_ ?_
  · rw [verdict_known valid free (by rw [older.kindOf source]; rfl)
      (by rw [older.kindOf target]; rfl), funded]
    rfl
  · intro key fingerprint answered
    obtain ⟨row, stored, same⟩ := Option.map_eq_some_iff.mp answered
    obtain ⟨q, posted, -, rfl⟩ := journal.keyRow stored
    obtain ⟨-, transfers, -⟩ := journal.rows_mem posted
    have sameID : q.id = p.id := (Prod.mk.inj same).2
    exact accepts.freshID (sameID ▸ List.mem_map_of_mem transfers)

/-- What is stored under the command's key. -/
theorem Journal.serves_replayed (journal : Journal db ps) (valid : validate cmd = .ok amount)
    {row : KeyRow} (stored : db.keyRow cmd.key = some row)
    (same : row.fingerprint = cmd.fingerprint) :
    db.wallet.Serves cmd (.ok row.replayResult) db.wallet := by
  obtain ⟨p, -, -, rfl⟩ := journal.keyRow stored
  refine .replays ?_
  rw [verdict_taken valid stored, if_pos same, Posting.keyRow, Option.getD_some]

end Commits

namespace World

variable {w w' : World} {acts : List Act} {a : Act} {i : Nat}

/-- The calls of a run, placed at its acts. -/
def Linearised (acts : List Act) (w : World) : Prop :=
  ∃ points, Linear step (fun w : World => w.db.wallet) Wallet.Takes
    (fun a e => e.session = a.session) (.init .empty)
    acts points w ∧ w.Tells points.flatten

theorem Linearised.init : Linearised [] (.init .empty) := ⟨[], .nil _, .init _⟩

/-- A commit serves its command where it is made. -/
theorem Watched.serves (watched : w.Watched) {outcome : CommitOutcome} {call : Call}
    {attempt : Nat} {tx : OpenTx} {result : TransferResult}
    (was : w.sessions i = .running call attempt tx) (prog : tx.prog = .ret (.ok (), result))
    (allowed : w.refused call tx = false) (notOvertaken : w.NotOvertaken (.commit i outcome)) :
    w.db.wallet.Serves call.cmd (.ok result) (w.db.after tx.writes).wallet := by
  obtain ⟨ps, journal⟩ := watched.journal
  obtain ⟨phase, recorded⟩ := watched.running was
  cases recorded.inv.commits prog with
  | replayed row stored same completed writes =>
    rw [writes, Db.after_nil]
    exact journal.serves_replayed call.valid (recorded.inv.older.keyRow stored) same
  | posted p carries writes accepts locked =>
    have enough := watched.enough was prog allowed notOvertaken carries writes accepts
    rw [writes, Db.after_writes accepts.free]
    exact journal.serves_posted recorded.inv.older call.valid carries accepts enough

/-- A step that commits nothing may be the one that refuses its call. -/
theorem Linearised.still (linearised : Linearised acts w) (stepped : w.step a = some w')
    (mine : a.session = some i) (judges : Judges (.init .empty) (acts ++ [a]) w')
    (same : w'.db = w.db) (unsuccessful : ∀ cmd r, w'.sessions i ≠ .returned cmd (.ok r)) :
    Linearised (acts ++ [a]) w' := by
  obtain ⟨points, linear, tells⟩ := linearised
  have live := step_live mine stepped
  have others : ∀ j ≠ i, w'.sessions j = w.sessions j := fun j other =>
    (step_move stepped).sessions_other (by rw [mine]; simpa using Ne.symm other)
  have unmoved : Txn.Atomic Wallet.Takes w.db.wallet [] w'.db.wallet := by
    rw [same]
    exact .nil _
  have longer := linear.snoc stepped (by simp) unmoved
  have flat : (points ++ [[]]).flatten = points.flatten := by simp
  by_cases refused : ∃ cmd err, w'.sessions i = .returned cmd (.error err) ∧ err.refusal = true
  · obtain ⟨cmd, err, now, refusal⟩ := refused
    obtain ⟨_, ⟨v, b, passes, own, rfl⟩, verdict⟩ := judges.refused now refusal
    have owned : (Wallet.Event.call i cmd (.error err)).session = b.session := own.symm
    obtain ⟨points', inserted, perm⟩ := longer.insert passes owned (.serves (.refuses verdict))
    rw [flat] at perm
    exact ⟨points', inserted, tells.adds live others (.inl now) perm⟩
  · refine ⟨points ++ [[]], longer, ?_⟩
    rw [flat]
    refine tells.quiet live others fun cmd reply now => ?_
    rcases reply with err | r
    · cases refusal : err.refusal with
      | false => exact refusal
      | true => exact absurd ⟨cmd, err, now, refusal⟩ refused
    · exact absurd now (unsuccessful cmd r)

/-- One act takes effect in one go, on behalf of its own session. -/
theorem Linearised.step (linearised : Linearised acts w) (watched : w.Watched)
    (judges : Judges (.init .empty) (acts ++ [a]) w') (notOvertaken : w.NotOvertaken a)
    (definite : a.Definite) (stepped : w.step a = some w') : Linearised (acts ++ [a]) w' := by
  have move := step_move stepped
  cases move with
  | outside i s mine was now kept =>
    refine linearised.still stepped mine judges rfl fun cmd r => ?_
    rw [sessions_set_self]
    exact now.not_ok cmd r
  | begins i call attempt result was =>
    refine linearised.still stepped rfl judges rfl fun cmd r => ?_
    rw [sessions_set_self]
    rintro ⟨⟩
  | performs i c call attempt tx o next was prog free drawn =>
    refine linearised.still stepped rfl judges rfl fun cmd r => ?_
    rw [show (w.performed i call attempt tx o next c).sessions i = _ from sessions_set_self _]
    rintro ⟨⟩
  | aborts i s mine call attempt tx was now kept =>
    refine linearised.still stepped mine judges rfl fun cmd r => ?_
    rw [sessions_set_self]
    exact now.not_ok cmd r
  | commits i outcome call attempt tx result s was prog allowed now =>
    obtain ⟨points, linear, tells⟩ := linearised
    have serves := watched.serves was prog allowed notOvertaken
    have live : ¬ (w.sessions i).Over := step_live rfl stepped
    have last : (points ++ [[Wallet.Event.call i call.cmd (.ok result)]]).flatten.Perm
        (.call i call.cmd (.ok result) :: points.flatten) := by
      simp
    refine ⟨_, linear.snoc stepped ?_ (.cons (.serves serves) (.nil _)),
      tells.adds live (fun j other => sessions_set other s) ?_ last⟩
    · rintro e mem
      cases List.mem_singleton.mp mem
      rfl
    · rw [sessions_set_self]
      exact definite.ended now
  | opens b valid =>
    obtain ⟨points, linear, tells⟩ := linearised
    refine ⟨points ++ [[.account b]], linear.snoc stepped ?_ ?_, ?_⟩
    · rintro e mem
      cases List.mem_singleton.mp mem
      rfl
    · refine .cons ?_ (.nil _)
      rw [Db.wallet_addAccount valid]
      have unknown := (Db.accountViolation_free valid).1
      exact .opens (by simpa [Db.wallet, Db.kindOf, List.find?_eq_none] using unknown)
    · rw [List.flatten_append]
      refine tells.opens ?_ b
      rfl

end World

end WalletGo
