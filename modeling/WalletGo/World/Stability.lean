import WalletGo.Ledger.Facts
import WalletGo.World.State

/-!
What a transaction's locks protect.

`Phase.held` lists the locks a transaction holds at each phase of the closure.
`Db.Agrees held db db'` is what those locks guarantee about the changes other
transactions may commit meanwhile: rows are only added, and none that belongs to
a key, an account's entries, a transfer id or an event id locked exclusively.
Whatever a transaction knows is stable under such changes (`Phase.Facts.stable`).
-/

namespace WalletGo

/-! ### The locks of each phase -/

namespace Phase

variable (x : Strategy) (cmd : TransferCommand) {amount : Money}

/-- The lock of an account read, if it found its row. -/
def readLocks (id : UUID) (found : Option AccountKind) : List Lock :=
  (Op.selectKind id x.forUpdate).acquires (.ok found)

def accountLocks : List Lock :=
  (Op.claimKey cmd.key cmd.fingerprint).locks ++
    (Op.selectKind (readOrder x cmd).1 x.forUpdate).locks ++
    (Op.selectKind (readOrder x cmd).2 x.forUpdate).locks

def transferLocks (amount : Money) (id : UUID) : List Lock :=
  accountLocks x cmd ++ (Op.insertTransfer id cmd.fromAccountID cmd.toAccountID amount.cents).locks

def entryLocks (amount : Money) (id : UUID) : List Lock :=
  transferLocks x cmd amount id ++ (Op.insertEntry id cmd.fromAccountID (-amount.cents)).locks ++
    (Op.insertEntry id cmd.toAccountID amount.cents).locks

def held : Phase amount → List Lock
  | .claim | .load | .replayed _ | .failed _ => []
  | .newTransferID | .readFirst _ => (Op.claimKey cmd.key cmd.fingerprint).locks
  | .readSecond _ k₁ =>
      (Op.claimKey cmd.key cmd.fingerprint).locks ++ readLocks x (readOrder x cmd).1 k₁
  | .readBalance _ k₁ k₂ =>
      (Op.claimKey cmd.key cmd.fingerprint).locks ++ readLocks x (readOrder x cmd).1 k₁ ++
        readLocks x (readOrder x cmd).2 k₂
  | .closeBatch _ _ _ | .insertTransfer _ => accountLocks x cmd
  | .insertDebit c => transferLocks x cmd amount c.id
  | .insertCredit c =>
      transferLocks x cmd amount c.id ++
        (Op.insertEntry c.id cmd.fromAccountID (-amount.cents)).locks
  | .marshalEvent c | .newEventID c | .insertEvent c _ => entryLocks x cmd amount c.id
  | .marshalResponse c eventID | .completeKey c eventID =>
      entryLocks x cmd amount c.id ++ [(.event eventID, .exclusive)]
  | .executed c eventID =>
      entryLocks x cmd amount c.id ++ [(.event eventID, .exclusive)] ++
        [(.key cmd.key, .exclusive), (.transfer c.id, .share)]

variable {x cmd}

/-- An operation leaves the transaction with the locks of the next phase. -/
theorem held_step {phase : Phase amount} {o : Op} (here : phase.op x cmd = some o)
    (reply : o.Reply) : (phase.next x cmd o reply).Failed ∨
      phase.held x cmd ++ o.acquires reply = (phase.next x cmd o reply).held x cmd := by
  cases phase with
  | claim =>
    cases here
    rcases reply with err | rows
    · exact .inl ⟨_, rfl⟩
    · by_cases one : rows = 1
      · subst one
        exact .inr rfl
      · simp [next, one, held, Op.acquires]
  | load =>
    cases here
    rcases reply with err | _ | row
    · exact .inl ⟨_, rfl⟩
    · exact .inl ⟨_, rfl⟩
    · simp only [next, afterLoad]
      split
      · exact .inl ⟨_, rfl⟩
      · split
        · exact .inl ⟨_, rfl⟩
        · exact .inr rfl
  | newTransferID => cases here; exact .inr rfl
  | readFirst id =>
    cases here
    rcases reply with err | k₁
    · have failed :
          (afterRead x cmd id ⟨.error err, .error err, .error err⟩ : Phase amount).Failed :=
        afterRead_failed (by simp)
      exact .inl failed
    · exact .inr rfl
  | readSecond id k₁ =>
    cases here
    rcases reply with err | k₂
    · exact .inl (afterRead_failed (by simp))
    · exact .inr rfl
  | readBalance id k₁ k₂ =>
    cases here
    rcases afterRead_cases x cmd amount id ⟨.ok k₁, .ok k₂, reply⟩ with
      failed | ⟨kind₁, kind₂, n, replies, fits⟩
    · exact .inl failed
    · injection replies with found₁ found₂ summed
      cases found₁
      cases found₂
      subst summed
      refine .inr ?_
      simp only [next, afterRead_ok x cmd amount id kind₁ kind₂ fits]
      exact List.append_nil _
  | closeBatch id kind balance =>
    cases here
    rcases reply with err | _
    · exact .inl ⟨_, rfl⟩
    · simp only [next, orFail]
      cases check : canDebit (newMoney balance) amount kind with
      | some err => exact .inl ⟨err, afterCheck_refused id check⟩
      | none =>
        rw [afterCheck_allowed id check]
        exact .inr (List.append_nil _)
  | insertTransfer k => cases here; rcases reply with err | _; exacts [.inl ⟨_, rfl⟩, .inr rfl]
  | insertDebit k => cases here; rcases reply with err | _; exacts [.inl ⟨_, rfl⟩, .inr rfl]
  | insertCredit k => cases here; rcases reply with err | _; exacts [.inl ⟨_, rfl⟩, .inr rfl]
  | marshalEvent k =>
    cases here; rcases reply with err | _; exacts [.inl ⟨_, rfl⟩, .inr (List.append_nil _)]
  | newEventID k => cases here; exact .inr (List.append_nil _)
  | insertEvent k eventID => cases here; rcases reply with err | _; exacts [.inl ⟨_, rfl⟩, .inr rfl]
  | marshalResponse k eventID =>
    cases here; rcases reply with err | _; exacts [.inl ⟨_, rfl⟩, .inr (List.append_nil _)]
  | completeKey k eventID =>
    cases here
    rcases reply with err | rows
    · exact .inl ⟨_, rfl⟩
    · rcases rows with _ | _ | rows
      · exact .inl ⟨_, rfl⟩
      · exact .inr rfl
      · exact .inl ⟨_, rfl⟩
  | executed k eventID => cases here
  | replayed row => cases here
  | failed err => cases here

end Phase

/-! ### What others may commit -/

/-- Rows have been added, none of them where `held` holds an exclusive lock. -/
structure Db.Agrees (held : List Lock) (db db' : Db) : Prop where
  kindOf : ∀ {id kind}, db.kindOf id = some kind → db'.kindOf id = some kind
  keyRow : ∀ {key row}, db.keyRow key = some row → db'.keyRow key = some row
  transfers : ∀ {id}, id ∈ db.transfers.map (·.id) → id ∈ db'.transfers.map (·.id)
  key : ∀ {key}, (.key key, .exclusive) ∈ held →
    db'.keys.filter (·.key == key) = db.keys.filter (·.key == key)
  sum : ∀ {id}, (.account id, .exclusive) ∈ held → db'.sum id = db.sum id
  transfer : ∀ {id}, (.transfer id, .exclusive) ∈ held →
    id ∈ db'.transfers.map (·.id) → id ∈ db.transfers.map (·.id)
  event : ∀ {id}, (.event id, .exclusive) ∈ held →
    id ∈ db'.outbox.map (·.eventID) → id ∈ db.outbox.map (·.eventID)

namespace Db.Agrees

variable {held held' : List Lock} {db db' db'' : Db}

theorem refl (held : List Lock) (db : Db) : Agrees held db db := by
  constructor <;> intros <;> first | rfl | assumption

theorem trans (first : Agrees held db db') (second : Agrees held db' db'') :
    Agrees held db db'' where
  kindOf known := second.kindOf (first.kindOf known)
  keyRow known := second.keyRow (first.keyRow known)
  transfers known := second.transfers (first.transfers known)
  key locked := (second.key locked).trans (first.key locked)
  sum locked := (second.sum locked).trans (first.sum locked)
  transfer locked present := first.transfer locked (second.transfer locked present)
  event locked present := first.event locked (second.event locked present)

/-- Fewer locks guarantee less. -/
theorem mono (agrees : Agrees held' db db') (fewer : held ⊆ held') : Agrees held db db' where
  kindOf := agrees.kindOf
  keyRow := agrees.keyRow
  transfers := agrees.transfers
  key locked := agrees.key (fewer locked)
  sum locked := agrees.sum (fewer locked)
  transfer locked := agrees.transfer (fewer locked)
  event locked := agrees.event (fewer locked)

theorem known (agrees : Agrees held db db') {id : UUID} (known : (db.kindOf id).isSome) :
    (db'.kindOf id).isSome := by
  obtain ⟨kind, found⟩ := Option.isSome_iff_exists.mp known
  exact Option.isSome_iff_exists.mpr ⟨kind, agrees.kindOf found⟩

/-- A locked key is not written by others. -/
theorem keyRow_eq (agrees : Agrees held db db') {key : IdempotencyKey}
    (locked : (.key key, .exclusive) ∈ held) : db'.keyRow key = db.keyRow key := by
  unfold Db.keyRow
  rw [← List.head?_filter, ← List.head?_filter, agrees.key locked]

theorem countP_eq (agrees : Agrees held db db') {key : IdempotencyKey}
    (locked : (.key key, .exclusive) ∈ held) :
    db'.keys.countP (·.key == key) = db.keys.countP (·.key == key) := by
  rw [List.countP_eq_length_filter, List.countP_eq_length_filter, agrees.key locked]

/-- Opening an account disturbs nobody. -/
theorem addAccount (held : List Lock) (db : Db) (a : Account) :
    Agrees held db (db.addAccount a) where
  kindOf := (Db.Extends.addAccount db a).kindOf
  keyRow := id
  transfers := id
  key _ := rfl
  sum _ := rfl
  transfer _ := id
  event _ := id

/-- A posting disturbs only those who have locked what it adds rows to. -/
theorem post {p : Posting} (key : (.key p.key, .exclusive) ∉ held)
    (source : (.account p.source, .exclusive) ∉ held)
    (target : (.account p.target, .exclusive) ∉ held)
    (transfer : (.transfer p.id, .exclusive) ∉ held)
    (event : (.event p.eventID, .exclusive) ∉ held) : Agrees held db (db.post p) where
  kindOf := id
  keyRow := (Db.Extends.post db p).keyRow
  transfers present := by
    rw [Db.post, List.map_append]
    exact List.mem_append_left _ present
  key {k} locked := by
    have other : p.key ≠ k := fun same => key (same ▸ locked)
    simp [Db.post, other]
  sum {id} locked := by
    have notSource : id ≠ p.source := fun same => source (same ▸ locked)
    have notTarget : id ≠ p.target := fun same => target (same ▸ locked)
    rw [Db.sum_post, Posting.effect, if_neg notSource, if_neg notTarget, Int.add_zero]
  transfer {id} locked present := by
    have other : id ≠ p.id := fun same => transfer (same ▸ locked)
    simpa [Db.post, Posting.transferRow, other] using present
  event {id} locked present := by
    have other : id ≠ p.eventID := fun same => event (same ▸ locked)
    simpa [Db.post, Posting.event, other] using present

end Db.Agrees

/-! ### What a transaction knows stays true -/

namespace Phase

variable {x : Strategy} {cmd : TransferCommand} {amount : Money} {base base' db db' : Db}
  {phase : Phase amount} {made : List Write}

theorem key_mem_accountLocks : (.key cmd.key, .exclusive) ∈ accountLocks x cmd := by
  simp [accountLocks, Op.locks]

/-- At READ COMMITTED the source row stays locked from the batch on. -/
theorem source_mem_accountLocks :
    (.account cmd.fromAccountID, .exclusive) ∈ accountLocks .locking cmd := by
  rcases readOrder_cases .locking cmd with order | order
  · simp [accountLocks, order, Op.locks, Strategy.forUpdate]
  · simp [accountLocks, order, Op.locks, Strategy.forUpdate]

theorem target_mem_accountLocks :
    (.account cmd.toAccountID, .exclusive) ∈ accountLocks .locking cmd := by
  rcases readOrder_cases .locking cmd with order | order
  · simp [accountLocks, order, Op.locks, Strategy.forUpdate]
  · simp [accountLocks, order, Op.locks, Strategy.forUpdate]

theorem transferLocks_subset_entryLocks (amount : Money) (id : UUID) :
    transferLocks x cmd amount id ⊆ entryLocks x cmd amount id := by
  intro lock mem
  simp only [entryLocks, List.mem_append]
  exact .inl (.inl mem)

theorem transfer_mem_transferLocks (id : UUID) :
    (.transfer id, .exclusive) ∈ transferLocks x cmd amount id := by
  simp [transferLocks, Op.locks]

/-- The rows a transaction reads after others have changed `db` to `db'`: those
of its snapshot, or the new ones. -/
inductive Sees (x : Strategy) (base db db' : Db) : Db → Prop where
  | snapshot : Sees x base db db' base
  | latest (locking : x = .locking) (same : base = db) : Sees x base db db' db'

/-- What was read of locked accounts is still there. -/
theorem Read.stable {kind : AccountKind} {balance : Int64} (read : Read cmd base kind balance)
    (sees : Sees x base db db' base') {held : List Lock} (locked : accountLocks x cmd ⊆ held)
    (agrees : Db.Agrees held db db') : Read cmd base' kind balance := by
  cases sees with
  | snapshot => exact read
  | latest locking same =>
    subst locking same
    exact ⟨agrees.kindOf read.source, agrees.known read.target,
      (agrees.sum (locked source_mem_accountLocks)).trans read.sum⟩

theorem kindOf_stable {id : UUID} {found : Option AccountKind} {held : List Lock}
    (known : ∀ kind ∈ found, base.kindOf id = some kind) (sees : Sees x base db db' base')
    (agrees : Db.Agrees held db db') : ∀ kind ∈ found, base'.kindOf id = some kind := by
  cases sees with
  | snapshot => exact known
  | latest locking same =>
    subst same
    exact fun kind mem => agrees.kindOf (known kind mem)

theorem keyRow_stable {row : KeyRow} {held : List Lock} (known : base.keyRow cmd.key = some row)
    (sees : Sees x base db db' base') (agrees : Db.Agrees held db db') :
    base'.keyRow cmd.key = some row := by
  cases sees with
  | snapshot => exact known
  | latest locking same =>
    subst same
    exact agrees.keyRow known

/-- A key that is locked is committed by nobody else. -/
theorem free_stable {held : List Lock} (free : db.keyRow cmd.key = none)
    (locked : (.key cmd.key, .exclusive) ∈ held) (agrees : Db.Agrees held db db') :
    db'.keyRow cmd.key = none := by
  rw [agrees.keyRow_eq locked, free]

/-- What the check of the funds rested on still holds. -/
theorem checked_stable {kind : AccountKind} {balance : Int64} {held : List Lock}
    (checked : db.keyRow cmd.key = none ∧ Read cmd base kind balance)
    (sees : Sees x base db db' base') (locked : accountLocks x cmd ⊆ held)
    (agrees : Db.Agrees held db db') : db'.keyRow cmd.key = none ∧ Read cmd base' kind balance :=
  ⟨free_stable checked.1 (locked key_mem_accountLocks) agrees, checked.2.stable sees locked agrees⟩

/-- So does what the insert of the transfer rested on. -/
theorem inserted_stable {kind : AccountKind} {balance : Int64} {id : UUID} {held : List Lock}
    (inserted : db.keyRow cmd.key = none ∧ Read cmd base kind balance ∧
      id ∉ db.transfers.map (·.id))
    (sees : Sees x base db db' base') (locked : transferLocks x cmd amount id ⊆ held)
    (agrees : Db.Agrees held db db') :
    db'.keyRow cmd.key = none ∧ Read cmd base' kind balance ∧ id ∉ db'.transfers.map (·.id) := by
  obtain ⟨free, read, fresh⟩ := inserted
  obtain ⟨free', read'⟩ := checked_stable ⟨free, read⟩ sees
    (fun _ mem => locked (List.mem_append_left _ mem)) agrees
  exact ⟨free', read', fun present =>
    fresh (agrees.transfer (locked (transfer_mem_transferLocks id)) present)⟩

theorem appended_stable {kind : AccountKind} {balance : Int64} {id eventID : UUID}
    {held : List Lock} (appended : db.keyRow cmd.key = none ∧ Read cmd base kind balance ∧
      id ∉ db.transfers.map (·.id) ∧ eventID ∉ db.outbox.map (·.eventID))
    (sees : Sees x base db db' base')
    (locked : entryLocks x cmd amount id ++ [(.event eventID, .exclusive)] ⊆ held)
    (agrees : Db.Agrees held db db') :
    db'.keyRow cmd.key = none ∧ Read cmd base' kind balance ∧ id ∉ db'.transfers.map (·.id) ∧
      eventID ∉ db'.outbox.map (·.eventID) := by
  obtain ⟨free, read, fresh, unused⟩ := appended
  obtain ⟨free', read', fresh'⟩ := inserted_stable ⟨free, read, fresh⟩ sees
    (fun _ mem => locked (List.mem_append_left _ (transferLocks_subset_entryLocks amount id mem)))
    agrees
  exact ⟨free', read', fresh', fun present => unused (agrees.event (locked (by simp)) present)⟩

/-- What a transaction knows at its phase survives what others do. -/
theorem Knows.stable (knows : phase.Knows x cmd base db) (sees : Sees x base db db' base')
    (agrees : Db.Agrees (phase.held x cmd) db db') : phase.Knows x cmd base' db' := by
  cases phase with
  | claim => trivial
  | failed err => trivial
  | load =>
    obtain ⟨row, found⟩ := Option.isSome_iff_exists.mp knows
    exact Option.isSome_iff_exists.mpr ⟨row, keyRow_stable found sees agrees⟩
  | replayed row => exact ⟨keyRow_stable knows.1 sees agrees, knows.2⟩
  | newTransferID => exact free_stable knows (by simp [held, Op.locks]) agrees
  | readFirst id => exact free_stable knows (by simp [held, Op.locks]) agrees
  | readSecond id k₁ =>
    exact ⟨free_stable knows.1 (by simp [held, Op.locks]) agrees, kindOf_stable knows.2 sees agrees⟩
  | readBalance id k₁ k₂ =>
    exact ⟨free_stable knows.1 (by simp [held, Op.locks]) agrees,
      kindOf_stable knows.2.1 sees agrees, kindOf_stable knows.2.2 sees agrees⟩
  | closeBatch id kind balance => exact checked_stable knows sees (List.Subset.refl _) agrees
  | insertTransfer k => exact checked_stable knows sees (List.Subset.refl _) agrees
  | insertDebit k => exact inserted_stable knows sees (List.Subset.refl _) agrees
  | insertCredit k => exact inserted_stable knows sees (List.subset_append_left _ _) agrees
  | marshalEvent k =>
    exact inserted_stable knows sees (transferLocks_subset_entryLocks amount k.id) agrees
  | newEventID k =>
    exact inserted_stable knows sees (transferLocks_subset_entryLocks amount k.id) agrees
  | insertEvent k eventID =>
    exact inserted_stable knows sees (transferLocks_subset_entryLocks amount k.id) agrees
  | marshalResponse k eventID => exact appended_stable knows sees (List.Subset.refl _) agrees
  | completeKey k eventID => exact appended_stable knows sees (List.Subset.refl _) agrees
  | executed k eventID => exact appended_stable knows sees (List.subset_append_left _ _) agrees

/-- The facts of a transaction survive whatever its locks let others commit. -/
theorem Facts.stable (facts : phase.Facts x cmd base db made) (sees : Sees x base db db' base')
    (agrees : Db.Agrees (phase.held x cmd) db db') : phase.Facts x cmd base' db' made := by
  cases phase with
  | failed err => trivial
  | _ => exact ⟨facts.1, Knows.stable facts.2 sees agrees⟩

end Phase

end WalletGo
