import WalletGo.App.Phases
import WalletGo.Ledger.Posting

/-!
What a transaction knows about the database at each phase of the closure.

`Facts x cmd base db phase writes` relates the phase to the writes made so far,
to the rows the transaction reads (`base`) and to the committed rows (`db`). With
nobody else about, and at READ COMMITTED, the two are the same; at SERIALIZABLE
`base` is the snapshot. `Facts.step` carries it over one operation of the closure
and `Facts.posting` reads it off at the end: the writes are a posting the
database accepts, or there are none.
-/

namespace WalletGo

/-- Every row of the first database is a row of the second, in the same place. -/
structure Db.Extends (base db : Db) : Prop where
  accounts : base.accounts <+: db.accounts
  transfers : base.transfers <+: db.transfers
  entries : base.entries <+: db.entries
  keys : base.keys <+: db.keys
  outbox : base.outbox <+: db.outbox

namespace Db.Extends

theorem refl (db : Db) : Extends db db := by
  constructor <;> exact List.prefix_refl _

theorem trans {first second third : Db} (h : Extends first second) (k : Extends second third) :
    Extends first third where
  accounts := h.accounts.trans k.accounts
  transfers := h.transfers.trans k.transfers
  entries := h.entries.trans k.entries
  keys := h.keys.trans k.keys
  outbox := h.outbox.trans k.outbox

theorem post (db : Db) (p : Posting) : Extends db (db.post p) := by
  constructor <;> first | exact List.prefix_append _ _ | exact List.prefix_refl _

theorem addAccount (db : Db) (a : Account) : Extends db (db.addAccount a) := by
  constructor <;> first | exact List.prefix_append _ _ | exact List.prefix_refl _

theorem find?_of_prefix {α : Type} {test : α → Bool} {first second : List α} {found : α}
    (extended : first <+: second) (here : first.find? test = some found) :
    second.find? test = some found := by
  obtain ⟨rest, rfl⟩ := extended
  rw [List.find?_append, here]
  rfl

theorem kindOf {base db : Db} (h : Extends base db) {id : UUID} {kind : AccountKind}
    (known : base.kindOf id = some kind) : db.kindOf id = some kind := by
  obtain ⟨a, found, rfl⟩ := Option.map_eq_some_iff.mp known
  exact Option.map_eq_some_iff.mpr ⟨a, find?_of_prefix h.accounts found, rfl⟩

theorem keyRow {base db : Db} (h : Extends base db) {key : IdempotencyKey} {row : KeyRow}
    (known : base.keyRow key = some row) : db.keyRow key = some row :=
  find?_of_prefix h.keys known

end Db.Extends

/-- What the database has to say for a posting to be made: the key and the two
generated ids are unused, the accounts exist, and the balance read in `base`
passes the check. -/
structure Db.Accepts (base db : Db) (p : Posting) : Prop where
  free : db.keyRow p.key = none
  freshID : p.id ∉ db.transfers.map (·.id)
  freshEvent : p.eventID ∉ db.outbox.map (·.eventID)
  target : (base.kindOf p.target).isSome
  funded : ∃ kind balance, base.kindOf p.source = some kind ∧ base.sum p.source = balance.toInt ∧
    canDebit (newMoney balance) ⟨p.amount⟩ kind = none

/-- A customer's balance covers what a posting takes. -/
theorem Db.Accepts.customer {base db : Db} {p : Posting} (accepts : base.Accepts db p)
    (customer : base.kindOf p.source = some .customer) : p.amount.toInt ≤ base.sum p.source := by
  obtain ⟨kind, balance, known, exact, allowed⟩ := accepts.funded
  rw [customer] at known
  cases known
  rw [exact]
  have covered : (Money.mk p.amount).cents.toInt ≤ (newMoney balance).cents.toInt :=
    canDebit_customer p.positive allowed
  exact covered

namespace Phase

/-- What the closure draws from the sequence and the clock. -/
structure Stamps where
  debitID : Nat
  creditID : Nat
  now : Time

variable (x : Strategy) (cmd : TransferCommand) {amount : Money}

/-- The posting a checked command makes, as far as its rows are concerned. -/
def rowsOf (amount : Money) (id eventID : UUID) (st : Stamps) : List Write :=
  [.insertKey ⟨cmd.key, cmd.fingerprint, .inFlight, none, none, none⟩,
    .insertTransfer ⟨id, cmd.fromAccountID, cmd.toAccountID, amount.cents, "completed"⟩,
    .insertEntry ⟨st.debitID, id, cmd.fromAccountID, -amount.cents⟩,
    .insertEntry ⟨st.creditID, id, cmd.toAccountID, amount.cents⟩,
    .insertEvent ⟨eventID, "transfer.completed", cmd.payload amount id, st.now, none, 0, st.now⟩,
    .completeKey cmd.key statusTransferCreated (some ⟨id⟩) id]

/-- The writes made by the time a phase is reached. -/
def writes (st : Stamps) : Phase amount → List Write
  | .claim | .load | .replayed _ | .failed _ => []
  | .newTransferID | .readFirst _ | .readSecond _ _ | .readBalance _ _ _ | .closeBatch _ _ _
  | .insertTransfer _ => (rowsOf cmd amount UUID.zero UUID.zero st).take 1
  | .insertDebit c => (rowsOf cmd amount c.id UUID.zero st).take 2
  | .insertCredit c => (rowsOf cmd amount c.id UUID.zero st).take 3
  | .marshalEvent c | .newEventID c | .insertEvent c _ =>
    (rowsOf cmd amount c.id UUID.zero st).take 4
  | .marshalResponse c eventID | .completeKey c eventID =>
    (rowsOf cmd amount c.id eventID st).take 5
  | .executed c eventID => rowsOf cmd amount c.id eventID st

/-- The two account rows and the balance have been read. -/
structure Read (base : Db) (kind : AccountKind) (balance : Int64) : Prop where
  source : base.kindOf cmd.fromAccountID = some kind
  target : (base.kindOf cmd.toAccountID).isSome
  sum : base.sum cmd.fromAccountID = balance.toInt

/-- What is known about the database at a phase. -/
def Knows (base db : Db) : Phase amount → Prop
  | .claim | .failed _ => True
  | .load => (base.keyRow cmd.key).isSome
  | .newTransferID | .readFirst _ => db.keyRow cmd.key = none
  | .readSecond _ k₁ =>
      db.keyRow cmd.key = none ∧ ∀ kind ∈ k₁, base.kindOf (readOrder x cmd).1 = some kind
  | .readBalance _ k₁ k₂ =>
      db.keyRow cmd.key = none ∧ (∀ kind ∈ k₁, base.kindOf (readOrder x cmd).1 = some kind) ∧
        ∀ kind ∈ k₂, base.kindOf (readOrder x cmd).2 = some kind
  | .closeBatch _ kind balance => db.keyRow cmd.key = none ∧ Read cmd base kind balance
  | .insertTransfer c => db.keyRow cmd.key = none ∧ Read cmd base c.kind c.balance
  | .insertDebit c | .insertCredit c | .marshalEvent c | .newEventID c | .insertEvent c _ =>
      db.keyRow cmd.key = none ∧ Read cmd base c.kind c.balance ∧ c.id ∉ db.transfers.map (·.id)
  | .marshalResponse c eventID | .completeKey c eventID | .executed c eventID =>
      db.keyRow cmd.key = none ∧ Read cmd base c.kind c.balance ∧ c.id ∉ db.transfers.map (·.id) ∧
        eventID ∉ db.outbox.map (·.eventID)
  | .replayed row =>
      base.keyRow cmd.key = some row ∧ row.fingerprint = cmd.fingerprint ∧ row.state = .completed

/-- A phase, the writes made and what is known agree; a failed transaction is
going to be rolled back, so nothing is asked of it. -/
def Facts (base db : Db) : Phase amount → List Write → Prop
  | .failed _, _ => True
  | phase, made => (∃ st, made = phase.writes cmd st) ∧ phase.Knows x cmd base db

def Failed (phase : Phase amount) : Prop := ∃ err, phase = .failed err

/-! ### One operation -/

section Steps

variable {x : Strategy} {cmd : TransferCommand} {amount : Money} {base db : Db} {made : List Write}
  {c : Choice}

/-- The facts hold after performing `o` at `phase`. -/
def StepFacts (x : Strategy) (cmd : TransferCommand) (base db : Db) (c : Choice)
    (phase : Phase amount) (made : List Write) (o : Op) : Prop :=
  let outcome := exec c (base.after made) (db.after made) o
  (phase.next x cmd o outcome.1).Facts x cmd base db (made ++ outcome.2)

theorem Failed.facts {phase : Phase amount} (failed : phase.Failed) :
    phase.Facts x cmd base db made := by
  obtain ⟨err, rfl⟩ := failed
  trivial

/-- The key is claimed, or it is there already and is loaded next. -/
theorem facts_claim (facts : Facts x cmd base db (.claim : Phase amount) made) :
    StepFacts x cmd base db c (.claim : Phase amount) made (.claimKey cmd.key cmd.fingerprint) := by
  obtain ⟨⟨st, rfl⟩, -⟩ := facts
  unfold StepFacts
  rcases exec_claimKey c base db cmd.key cmd.fingerprint with
    ⟨err, same⟩ | ⟨seen, same⟩ | ⟨-, free, same⟩
  · simp only [writes, Db.after_nil, same]
    trivial
  · simp only [writes, Db.after_nil, same]
    exact ⟨⟨st, rfl⟩, seen⟩
  · simp only [writes, Db.after_nil, same]
    exact ⟨⟨st, rfl⟩, free⟩

theorem facts_load (facts : Facts x cmd base db (.load : Phase amount) made) :
    StepFacts x cmd base db c (.load : Phase amount) made (.loadKey cmd.key) := by
  obtain ⟨⟨st, rfl⟩, present⟩ := facts
  obtain ⟨row, found⟩ := Option.isSome_iff_exists.mp present
  unfold StepFacts
  rcases exec_loadKey c base db cmd.key with ⟨err, same⟩ | same
  · simp only [writes, Db.after_nil, same]
    trivial
  · simp only [writes, Db.after_nil, same, found, next, afterLoad]
    split
    · trivial
    · next fingerprint =>
      split
      · trivial
      · next state => exact ⟨⟨st, rfl⟩, found, by simpa using fingerprint, by simpa using state⟩

/-- The transfer is inserted under an identifier that was free. -/
theorem facts_insertTransfer {k : Checked amount}
    (facts : Facts x cmd base db (.insertTransfer k) made) :
    StepFacts x cmd base db c (.insertTransfer k) made
      (.insertTransfer k.id cmd.fromAccountID cmd.toAccountID amount.cents) := by
  obtain ⟨⟨st, rfl⟩, free, read⟩ := facts
  unfold StepFacts
  rcases exec_insertTransfer c _ _ k.id cmd.fromAccountID cmd.toAccountID amount.cents with
    ⟨err, same⟩ | ⟨valid, same⟩
  · rw [same]
    trivial
  · rw [same]
    exact ⟨⟨st, rfl⟩, free, read, (Db.transferViolation_eq_none.mp valid).2.2.1⟩

theorem facts_newTransferID (facts : Facts x cmd base db (.newTransferID : Phase amount) made) :
    StepFacts x cmd base db c (.newTransferID : Phase amount) made .newUUID := by
  obtain ⟨⟨st, rfl⟩, free⟩ := facts
  exact ⟨⟨st, rfl⟩, free⟩

/-- Two accounts and a balance in range lead to the check of the funds. -/
theorem afterRead_ok (x : Strategy) (cmd : TransferCommand) (amount : Money) (id : UUID)
    (k₁ k₂ : AccountKind) {n : Int} (fits : Int64Range n) :
    (afterRead x cmd id ⟨.ok (some k₁), .ok (some k₂), .ok n⟩ : Phase amount) =
      .closeBatch id (if cmd.fromAccountID = (readOrder x cmd).2 then k₂ else k₁)
        (Int64.ofInt n) := by
  simp [afterRead, scanReplies, scanKind, scanInt64, fits, bind, Except.bind, pure, Except.pure]

/-- The batch goes on to the balance check only when both accounts were found and
the balance fits. -/
theorem afterRead_cases (x : Strategy) (cmd : TransferCommand) (amount : Money) (id : UUID)
    (replies : ReadReplies) :
    (afterRead x cmd id replies : Phase amount).Failed ∨
      ∃ k₁ k₂ n, replies = ⟨.ok (some k₁), .ok (some k₂), .ok n⟩ ∧ Int64Range n := by
  obtain ⟨first, second, balance⟩ := replies
  rcases first with err | _ | k₁
  · exact .inl ⟨_, rfl⟩
  · exact .inl ⟨_, rfl⟩
  rcases second with err | _ | k₂
  · exact .inl ⟨_, rfl⟩
  · exact .inl ⟨_, rfl⟩
  rcases balance with err | n
  · exact .inl ⟨_, rfl⟩
  by_cases fits : Int64Range n
  · exact .inr ⟨k₁, k₂, n, rfl, fits⟩
  · refine .inl ⟨.wrap "postgres: read source balance" (.scanRange n), ?_⟩
    simp [afterRead, scanReplies, scanKind, scanInt64, fits, bind, Except.bind]

theorem readOrder_cases (x : Strategy) (cmd : TransferCommand) :
    readOrder x cmd = (cmd.fromAccountID, cmd.toAccountID) ∨
      readOrder x cmd = (cmd.toAccountID, cmd.fromAccountID) := by
  cases x with
  | locking => exact lockOrder_cases _ _
  | serializable => exact .inl rfl

theorem afterRead_failed {id : UUID} {replies : ReadReplies}
    (missing : ∀ k₁ k₂ n, replies ≠ ⟨.ok (some k₁), .ok (some k₂), .ok n⟩) :
    (afterRead x cmd id replies : Phase amount).Failed := by
  rcases afterRead_cases x cmd amount id replies with failed | ⟨k₁, k₂, n, same, -⟩
  · exact failed
  · exact absurd same (missing k₁ k₂ n)

theorem facts_readFirst {id : UUID}
    (facts : Facts x cmd base db (.readFirst id : Phase amount) made) :
    StepFacts x cmd base db c (.readFirst id : Phase amount) made
      (.selectKind (readOrder x cmd).1 x.forUpdate) := by
  obtain ⟨⟨st, rfl⟩, free⟩ := facts
  unfold StepFacts
  rcases exec_selectKind c _ _ (readOrder x cmd).1 x.forUpdate with ⟨err, same⟩ | same
  · rw [same]
    change (afterRead x cmd id ⟨.error err, .error err, .error err⟩ : Phase amount).Facts
      x cmd base db _
    exact (afterRead_failed (by simp)).facts
  · rw [same]
    exact ⟨⟨st, rfl⟩, free, fun kind found => found⟩

theorem facts_readSecond {id : UUID} {k₁ : Option AccountKind}
    (facts : Facts x cmd base db (.readSecond id k₁ : Phase amount) made) :
    StepFacts x cmd base db c (.readSecond id k₁ : Phase amount) made
      (.selectKind (readOrder x cmd).2 x.forUpdate) := by
  obtain ⟨⟨st, rfl⟩, free, first⟩ := facts
  unfold StepFacts
  rcases exec_selectKind c _ _ (readOrder x cmd).2 x.forUpdate with ⟨err, same⟩ | same
  · rw [same]
    exact (afterRead_failed (by simp)).facts
  · rw [same]
    exact ⟨⟨st, rfl⟩, free, first, fun kind found => found⟩

theorem facts_readBalance {id : UUID} {k₁ k₂ : Option AccountKind}
    (facts : Facts x cmd base db (.readBalance id k₁ k₂ : Phase amount) made) :
    StepFacts x cmd base db c (.readBalance id k₁ k₂ : Phase amount) made
      (.sumEntries cmd.fromAccountID) := by
  obtain ⟨⟨st, rfl⟩, free, first, second⟩ := facts
  unfold StepFacts
  rcases exec_sumEntries c _ _ cmd.fromAccountID with ⟨err, same⟩ | same
  · rw [same]
    exact (afterRead_failed (by simp)).facts
  rw [same]
  change (afterRead x cmd id ⟨.ok k₁, .ok k₂, .ok (base.sum cmd.fromAccountID)⟩ :
    Phase amount).Facts x cmd base db _
  rcases afterRead_cases x cmd amount id ⟨.ok k₁, .ok k₂, .ok (base.sum cmd.fromAccountID)⟩ with
    failed | ⟨kind₁, kind₂, n, replies, fits⟩
  · exact failed.facts
  injection replies with found₁ found₂ summed
  cases found₁
  cases found₂
  cases summed
  rw [afterRead_ok x cmd amount id kind₁ kind₂ fits]
  refine ⟨⟨st, rfl⟩, free, ?_⟩
  have known₁ := first kind₁ rfl
  have known₂ := second kind₂ rfl
  have exact : base.sum cmd.fromAccountID = (Int64.ofInt (base.sum cmd.fromAccountID)).toInt :=
    (toInt_ofInt_of_range fits).symm
  rcases readOrder_cases x cmd with order | order
  · rw [order] at known₁ known₂ ⊢
    refine ⟨?_, by simp [known₂], exact⟩
    split
    · next same => rw [same, known₂]
    · exact known₁
  · rw [order] at known₁ known₂ ⊢
    exact ⟨by simp [known₂], by simp [known₁], exact⟩

/-- The funds are checked against what was read. -/
theorem facts_closeBatch {id : UUID} {kind : AccountKind} {balance : Int64}
    (facts : Facts x cmd base db (.closeBatch id kind balance : Phase amount) made) :
    StepFacts x cmd base db c (.closeBatch id kind balance : Phase amount) made .closeBatch := by
  obtain ⟨⟨st, rfl⟩, free, read⟩ := facts
  unfold StepFacts
  rcases exec_closeBatch c _ _ with ⟨err, same⟩ | same
  · rw [same]
    trivial
  rw [same]
  change (afterCheck id kind balance : Phase amount).Facts x cmd base db _
  cases check : canDebit (newMoney balance) amount kind with
  | some err =>
    rw [afterCheck_refused id check]
    trivial
  | none =>
    rw [afterCheck_allowed id check]
    exact ⟨⟨st, rfl⟩, free, read⟩

theorem facts_insertDebit {k : Checked amount}
    (facts : Facts x cmd base db (.insertDebit k) made) :
    StepFacts x cmd base db c (.insertDebit k) made
      (.insertEntry k.id cmd.fromAccountID (-amount.cents)) := by
  obtain ⟨⟨st, rfl⟩, known⟩ := facts
  unfold StepFacts
  rcases exec_insertEntry c _ _ k.id cmd.fromAccountID (-amount.cents) with
    ⟨err, same⟩ | ⟨-, same⟩
  · rw [same]
    trivial
  · rw [same]
    exact ⟨⟨⟨c.entryID, st.creditID, st.now⟩, rfl⟩, known⟩

theorem facts_insertCredit {k : Checked amount}
    (facts : Facts x cmd base db (.insertCredit k) made) :
    StepFacts x cmd base db c (.insertCredit k) made
      (.insertEntry k.id cmd.toAccountID amount.cents) := by
  obtain ⟨⟨st, rfl⟩, known⟩ := facts
  unfold StepFacts
  rcases exec_insertEntry c _ _ k.id cmd.toAccountID amount.cents with
    ⟨err, same⟩ | ⟨-, same⟩
  · rw [same]
    trivial
  · rw [same]
    exact ⟨⟨⟨st.debitID, c.entryID, st.now⟩, rfl⟩, known⟩

theorem facts_marshalEvent {k : Checked amount}
    (facts : Facts x cmd base db (.marshalEvent k) made) :
    StepFacts x cmd base db c (.marshalEvent k) made .marshal := by
  obtain ⟨⟨st, rfl⟩, known⟩ := facts
  unfold StepFacts
  rcases exec_marshal c _ _ with ⟨err, same⟩ | same
  · rw [same]
    trivial
  · rw [same]
    exact ⟨⟨st, rfl⟩, known⟩

theorem facts_insertEvent {k : Checked amount} {eventID : UUID}
    (facts : Facts x cmd base db (.insertEvent k eventID) made) :
    StepFacts x cmd base db c (.insertEvent k eventID) made
      (.insertEvent eventID "transfer.completed" (cmd.payload amount k.id)) := by
  obtain ⟨⟨st, rfl⟩, free, read, freshID⟩ := facts
  unfold StepFacts
  rcases exec_insertEvent c _ _ eventID "transfer.completed" (cmd.payload amount k.id) with
    ⟨err, same⟩ | ⟨unused, same⟩
  · rw [same]
    trivial
  · rw [same]
    exact ⟨⟨⟨st.debitID, st.creditID, c.now⟩, rfl⟩, free, read, freshID, unused⟩

theorem facts_marshalResponse {k : Checked amount} {eventID : UUID}
    (facts : Facts x cmd base db (.marshalResponse k eventID) made) :
    StepFacts x cmd base db c (.marshalResponse k eventID) made .marshal := by
  obtain ⟨⟨st, rfl⟩, known⟩ := facts
  unfold StepFacts
  rcases exec_marshal c _ _ with ⟨err, same⟩ | same
  · rw [same]
    trivial
  · rw [same]
    exact ⟨⟨st, rfl⟩, known⟩

/-- The response is stored with the key, and the posting is whole. -/
theorem facts_completeKey {k : Checked amount} {eventID : UUID}
    (facts : Facts x cmd base db (.completeKey k eventID) made) :
    StepFacts x cmd base db c (.completeKey k eventID) made
      (.completeKey cmd.key statusTransferCreated (some ⟨k.id⟩) k.id) := by
  obtain ⟨⟨st, rfl⟩, known⟩ := facts
  unfold StepFacts
  rcases exec_completeKey c _ _ cmd.key statusTransferCreated (some ⟨k.id⟩) k.id with
    ⟨err, same⟩ | ⟨-, same⟩ | ⟨-, same⟩
  · rw [same]
    trivial
  · rw [same]
    trivial
  · rw [same]
    simp only [next]
    split
    · trivial
    · exact ⟨⟨st, rfl⟩, known⟩

/-- One operation of the closure carries the facts over to the next phase. -/
theorem Facts.step {phase : Phase amount} {o : Op} (facts : Facts x cmd base db phase made)
    (here : phase.op x cmd = some o) (c : Choice) : StepFacts x cmd base db c phase made o := by
  cases phase with
  | claim => cases here; exact facts_claim facts
  | load => cases here; exact facts_load facts
  | newTransferID => cases here; exact facts_newTransferID facts
  | readFirst id => cases here; exact facts_readFirst facts
  | readSecond id k₁ => cases here; exact facts_readSecond facts
  | readBalance id k₁ k₂ => cases here; exact facts_readBalance facts
  | closeBatch id kind balance => cases here; exact facts_closeBatch facts
  | insertTransfer k => cases here; exact facts_insertTransfer facts
  | insertDebit k => cases here; exact facts_insertDebit facts
  | insertCredit k => cases here; exact facts_insertCredit facts
  | marshalEvent k => cases here; exact facts_marshalEvent facts
  | newEventID k =>
    cases here
    obtain ⟨⟨st, rfl⟩, known⟩ := facts
    exact ⟨⟨st, rfl⟩, known⟩
  | insertEvent k eventID => cases here; exact facts_insertEvent facts
  | marshalResponse k eventID => cases here; exact facts_marshalResponse facts
  | completeKey k eventID => cases here; exact facts_completeKey facts
  | executed k eventID => cases here
  | replayed row => cases here
  | failed err => cases here

end Steps

end Phase

/-! ### The end of the closure -/

/-- A command that is accepted has a positive amount and two accounts. -/
theorem validate_ok {cmd : TransferCommand} {amount : Money} (valid : validate cmd = .ok amount) :
    amount = ⟨cmd.amountCents⟩ ∧ 0 < cmd.amountCents.toInt ∧
      cmd.fromAccountID ≠ cmd.toAccountID := by
  unfold validate at valid
  cases accepted : newTransferAmount cmd.amountCents with
  | error err =>
    rw [accepted] at valid
    cases valid
  | ok money =>
    rw [accepted] at valid
    obtain ⟨rfl, positive⟩ := newTransferAmount_ok accepted
    by_cases same : cmd.fromAccountID = cmd.toAccountID
    · simp [same, bind, Except.bind, throw, throwThe, MonadExceptOf.throw] at valid
    · simp [same, bind, Except.bind, pure, Except.pure] at valid
      exact ⟨valid.symm, positive, same⟩

/-- The posting is one that the command asks for. -/
structure Posting.Carries (p : Posting) (cmd : TransferCommand) : Prop where
  key : p.key = cmd.key
  fingerprint : p.fingerprint = cmd.fingerprint
  source : p.source = cmd.fromAccountID
  target : p.target = cmd.toAccountID
  amount : p.amount = cmd.amountCents

/-- How a closure that returns nil has ended: with the writes of a posting that
the database accepts, or with none and the response stored under its key. -/
inductive Concluded (cmd : TransferCommand) (base db : Db) :
    List Write → TransferResult → Prop where
  | posted (p : Posting) (carries : p.Carries cmd) (accepts : base.Accepts db p) :
      Concluded cmd base db p.writes ⟨p.id, createdResponse p.id, false⟩
  | replayed (row : KeyRow) (stored : base.keyRow cmd.key = some row)
      (same : row.fingerprint = cmd.fingerprint) (completed : row.state = .completed) :
      Concluded cmd base db [] row.replayResult

namespace Phase

variable {x : Strategy} {cmd : TransferCommand} {amount : Money} {base db : Db} {made : List Write}

/-- A transaction that has executed its command has made the writes of a posting
that the database accepts. -/
theorem Facts.posting {k : Checked amount} {eventID : UUID}
    (facts : Facts x cmd base db (.executed k eventID) made) (valid : validate cmd = .ok amount) :
    ∃ p : Posting, p.Carries cmd ∧ p.id = k.id ∧ p.eventID = eventID ∧ made = p.writes ∧
      base.Accepts db p := by
  obtain ⟨rfl, positive, distinct⟩ := validate_ok valid
  obtain ⟨⟨st, rfl⟩, free, read, freshID, freshEvent⟩ := facts
  exact ⟨⟨cmd.key, cmd.fingerprint, k.id, cmd.fromAccountID, cmd.toAccountID, cmd.amountCents,
      st.debitID, st.creditID, eventID, st.now, positive, distinct⟩,
    ⟨rfl, rfl, rfl, rfl, rfl⟩, rfl, rfl, rfl,
    ⟨free, freshID, freshEvent, read.target, k.kind, k.balance, read.source, read.sum, k.allowed⟩⟩

/-- The closure returns nil at two of its end points. -/
theorem outcome_ok {phase : Phase amount} {result : TransferResult}
    (ended : phase.outcome = some (.ok (), result)) :
    (∃ k eventID, phase = .executed k eventID ∧ result = ⟨k.id, createdResponse k.id, false⟩) ∨
      ∃ row, phase = .replayed row ∧ result = row.replayResult := by
  cases phase with
  | executed k eventID => cases ended; exact .inl ⟨k, eventID, rfl, rfl⟩
  | replayed row => cases ended; exact .inr ⟨row, rfl, rfl⟩
  | _ => cases ended

/-- A run that has returned without an error is concluded. -/
theorem Facts.concluded {phase : Phase amount} (facts : phase.Facts x cmd base db made)
    (valid : validate cmd = .ok amount) {result : TransferResult}
    (ended : phase.outcome = some (.ok (), result)) : Concluded cmd base db made result := by
  rcases outcome_ok ended with ⟨k, eventID, rfl, rfl⟩ | ⟨row, rfl, rfl⟩
  · obtain ⟨p, carries, same, -, rfl, accepts⟩ := facts.posting valid
    rw [← same]
    exact .posted p carries accepts
  · obtain ⟨⟨st, rfl⟩, stored, same, completed⟩ := facts
    exact .replayed row stored same completed

end Phase

end WalletGo
