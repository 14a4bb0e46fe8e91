import WalletGo.Http.Calls
import WalletGo.Http.Server

/-!
What a request may cause, by the key it carries.

Without a valid key a handler touches no service and no limiter; with the read-only key it
reads; only with the write key does it create accounts or move money (`authorised`). So the
requests that do not carry the write key can be erased from any run, however they
interleave with the others: the database, the write key's limiter and everything its
holders are told stay the same (`unprivileged_invisible`). Only `GET /metrics` shows
what others have asked for.
-/

namespace WalletGo.Http

open Txn (Prog Event runs)

/-! ### Kinds of calls -/

/-- What a request without a valid key may cause. -/
def Op.Open : Op → Prop
  | .ping | .gather => True
  | o => o.Chained

/-- What a request with the read-only key may cause. -/
def Op.Reading : Op → Prop
  | .reserve scope | .cancel scope _ => scope = .read
  | .delay _ | .balance _ | .entries .. => True
  | o => o.Open

/-- What a request with the write key may cause, `GET /metrics` apart: it does not look at
the counters and stays away from the other key's limiter. -/
def Op.Private : Op → Prop
  | .reserve scope | .cancel scope _ => scope = .write
  | .gather => False
  | _ => True

theorem Op.Chained.open' {o : Op} (chained : o.Chained) : o.Open := by
  cases o <;> first | exact chained | trivial

theorem Op.Open.reading {o : Op} (open' : o.Open) : o.Reading := by
  cases o <;> first | exact open' | exact open'.elim

theorem Op.Chained.private' {o : Op} (chained : o.Chained) : o.Private := by
  cases o <;> trivial

/-! ### By the key -/

section Keys

variable {d : Deps} {r : Request}

def Request.HasWriteKey (d : Deps) (r : Request) : Prop := r.apiKey = d.apiKey

/-- The request carries a key that `apiKeyAuth` accepts. -/
def Request.HasKey (d : Deps) (r : Request) : Prop :=
  r.apiKey = d.apiKey ∨ d.readOnlyAPIKey ≠ "" ∧ r.apiKey = d.readOnlyAPIKey

def Request.IsMetrics (r : Request) : Prop := r.method = "GET" ∧ r.path = ["metrics"]

instance (d : Deps) (r : Request) : Decidable (r.HasWriteKey d) :=
  inferInstanceAs (Decidable (_ = _))

instance (r : Request) : Decidable r.IsMetrics := inferInstanceAs (Decidable (_ ∧ _))

/-- Without a key a secured route answers 401 and does nothing else. -/
theorem secured_refused (none : ¬ r.HasKey d) (next : HandlerFunc) (context : Context) :
    secured d next { r with context } = writeJSON 401
      (.error "unauthorized" "missing or invalid API key") := by
  obtain ⟨notWrite, notRead⟩ := not_or.mp none
  unfold secured apiKeyAuth
  rw [if_neg notWrite, if_neg notRead]

/-- Behind `apiKeyAuth`, with the scope of the key. -/
theorem makes_scoped {kind : Op → Prop} (plain : ∀ id, ∀ o : Op, o.Plain id → kind o)
    (delay : ∀ res, kind (.delay res)) (scope : ApiKeyScope) (reserve : kind (.reserve scope))
    (cancel : ∀ res, kind (.cancel scope res)) (matching : r.HasWriteKey d ↔ scope = .write)
    {next : HandlerFunc} {context : Context}
    (rest : ∀ context, context.scope = some scope → Makes AnyReply kind (next { r with context })) :
    Makes AnyReply kind (secured d next { r with context }) := by
  have limited : Makes AnyReply kind ((if d.limiter.isSome then rateLimit next else next)
      { r with context := { context with scope := some scope } }) := by
    split
    · exact makes_rateLimit (plain _) reserve delay cancel (rest _ rfl)
    · exact rest _ rfl
  unfold secured apiKeyAuth
  by_cases write : r.apiKey = d.apiKey
  · rw [if_pos write]
    rwa [matching.mp write] at limited
  · rw [if_neg write]
    split
    · cases scope with
      | write => exact absurd (matching.mpr rfl) write
      | read => exact limited
    · exact makes_writeJSON (plain "") (by decide) rfl

/-- A request without a key causes no call of a service. -/
theorem makes_unkeyed (none : ¬ r.HasKey d) : Makes AnyReply Op.Open (newRouter d r) := by
  have plain : ∀ id, ∀ o : Op, o.Plain id → o.Open := fun _ _ plain => plain.chained.open'
  refine makes_newRouter (fun _ => Op.Chained.open') fun context =>
    makes_routeHTTP (plain _) fun route mem _ _ context _ => ?_
  have refused : ∀ next, Makes AnyReply Op.Open (secured d next { r with context }) := by
    intro next
    rw [secured_refused none]
    exact makes_writeJSON (plain "") (by decide) rfl
  simp only [routes, List.mem_cons, List.not_mem_nil, or_false] at mem
  rcases mem with rfl | rfl | rfl | rfl | rfl | rfl | rfl | rfl | rfl
  · exact makes_healthz (plain "") r
  · exact makes_readyz (plain "") r trivial
  · exact makes_metricsHandler (plain "") d r trivial
  all_goals exact refused _

/-- A request without a write key causes reads at most. -/
theorem makes_unprivileged (notWrite : ¬ r.HasWriteKey d) :
    Makes AnyReply Op.Reading (newRouter d r) := by
  have plain :
    ∀ id, ∀ o : Op, o.Plain id → o.Reading := fun _ _ plain => plain.chained.open'.reading
  have matching : r.HasWriteKey d ↔ ApiKeyScope.read = .write :=
    iff_of_false notWrite (by rintro ⟨⟩)
  refine makes_newRouter (fun _ chained => chained.open'.reading) fun context =>
    makes_routeHTTP (plain _) fun route mem _ _ context _ => ?_
  have read : ∀ {next : HandlerFunc},
      (∀ context, context.scope = some .read →
        Makes AnyReply Op.Reading (next { r with context })) →
      Makes AnyReply Op.Reading (secured d next { r with context }) :=
    makes_scoped plain (fun _ => trivial) .read rfl (fun _ => rfl) matching
  have refused :
      ∀ next, Makes AnyReply Op.Reading (secured d (requireWriteScope next)
        { r with context }) := by
    refine fun next => read fun context scope => ?_
    have readOnly : Request.scope { r with context } ≠ .write := by simp [Request.scope, scope]
    unfold requireWriteScope
    rw [if_neg readOnly]
    exact makes_writeJSON (plain "") (by decide) rfl
  simp only [routes, List.mem_cons, List.not_mem_nil, or_false] at mem
  rcases mem with rfl | rfl | rfl | rfl | rfl | rfl | rfl | rfl | rfl
  · exact makes_healthz (plain "") r
  · exact makes_readyz (plain "") r trivial
  · exact makes_metricsHandler (plain "") d r trivial
  · exact read fun _ _ => makes_balance (plain _) fun _ => trivial
  · exact read fun _ _ => makes_entries (plain _) fun _ _ _ => trivial
  all_goals exact refused _

/-- The metrics are for everybody. -/
theorem makes_metrics (metrics : r.IsMetrics) : Makes AnyReply Op.Open (newRouter d r) := by
  have plain : ∀ id, ∀ o : Op, o.Plain id → o.Open := fun _ _ plain => plain.chained.open'
  obtain ⟨get, path⟩ := metrics
  refine makes_newRouter (fun _ => Op.Chained.open') fun context =>
    makes_routeHTTP (plain _) fun route mem method fits context _ => ?_
  rw [path] at fits
  simp only [routes, List.mem_cons, List.not_mem_nil, or_false] at mem
  rcases mem with rfl | rfl | rfl | rfl | rfl | rfl | rfl | rfl | rfl
  case inr.inr.inl => exact makes_metricsHandler (plain "") d r trivial
  all_goals simp [capture, account] at fits

/-- A request with the write key, `GET /metrics` apart, keeps to its own limiter and asks for no
counters. -/
theorem makes_privileged (write : r.HasWriteKey d) (other : ¬ r.IsMetrics) :
    Makes AnyReply Op.Private (newRouter d r) := by
  have plain : ∀ id, ∀ o : Op, o.Plain id → o.Private := fun _ _ plain => plain.chained.private'
  have matching : r.HasWriteKey d ↔ ApiKeyScope.write = .write := iff_of_true write rfl
  refine makes_newRouter (fun _ => Op.Chained.private') fun context =>
    makes_routeHTTP (plain _) fun route mem method fits context _ => ?_
  have allowed :
      ∀ {next : HandlerFunc}, (∀ context, Makes AnyReply Op.Private (next { r with context })) →
      Makes AnyReply Op.Private (secured d next { r with context }) := fun rest =>
    makes_scoped plain (fun _ => trivial) .write rfl (fun _ => rfl) matching fun context _ =>
      rest context
  have written :
      ∀ {next : HandlerFunc}, (∀ context, Makes AnyReply Op.Private (next { r with context })) →
      Makes AnyReply Op.Private (secured d (requireWriteScope next) { r with context }) := by
    exact fun rest => allowed fun context => makes_requireWriteScope (plain _) (rest context)
  simp only [routes, List.mem_cons, List.not_mem_nil, or_false] at mem
  rcases mem with rfl | rfl | rfl | rfl | rfl | rfl | rfl | rfl | rfl
  · exact makes_healthz (plain "") r
  · exact makes_readyz (plain "") r trivial
  · exact absurd ⟨method.symm, capture_literal.mp fits⟩ other
  · exact allowed fun _ => makes_balance (plain _) fun _ => trivial
  · exact allowed fun _ => makes_entries (plain _) fun _ _ _ => trivial
  · exact written fun _ => makes_createAccount (plain _) (fun _ => trivial) trivial
  · exact written fun _ => makes_deposit (plain _) (fun _ _ => trivial) (fun _ => trivial)
      (fun _ _ _ => trivial) fun _ => trivial
  · exact written fun _ => makes_withdraw (plain _) (fun _ _ => trivial) (fun _ => trivial)
      (fun _ _ _ => trivial) fun _ => trivial
  · exact written fun _ => makes_transfer (plain _) (fun _ _ => trivial) (fun _ => trivial)
      (fun _ _ _ => trivial) fun _ => trivial

end Keys

/-- A request that may change something or see what others have changed. -/
def Request.Privileged (d : Deps) (r : Request) : Prop := r.HasWriteKey d ∧ ¬ r.IsMetrics

instance (d : Deps) (r : Request) : Decidable (r.Privileged d) :=
  inferInstanceAs (Decidable (_ ∧ _))

theorem makes_reading {d : Deps} {r : Request} (unprivileged : ¬ r.Privileged d) :
    Makes AnyReply Op.Reading (newRouter d r) := by
  by_cases write : r.HasWriteKey d
  · have metrics : r.IsMetrics := by
      by_contra other
      exact unprivileged ⟨write, other⟩
    exact (makes_metrics metrics).mono fun _ => Op.Open.reading
  · exact makes_unprivileged write

/-- Whatever else goes on, a handler has made only the calls its key allows. -/
theorem authorised {d : Deps} {w : World} {acts : List Act} {s : Server}
    (ran : runs (Server.step d) (.start d w) acts = some s) {i : Nat} {r : Request}
    {prog : Prog sig (Except Panic Unit)} {events : List (Event sig)}
    (was : s.connections i = .serving r prog events) :
    (¬ r.HasKey d → ∀ e ∈ events, e.1.Open) ∧ (¬ r.HasWriteKey d → ∀ e ∈ events, e.1.Reading) := by
  have reached := ((Server.runs_inv ran).tended was).reached
  exact ⟨fun none => (reached.only (fun _ _ => trivial) (makes_unkeyed (r := r.incoming) none)).1,
    fun notWrite =>
    (reached.only (fun _ _ => trivial) (makes_unprivileged (r := r.incoming) notWrite)).1⟩

namespace ReadOnlyKey

open Local

def deps : Deps := depsWith (some ⟨1, 1, by decide⟩)

def openAccount (apiKey : String) : Request where
  method := "POST"
  path := ["accounts"]
  apiKey := apiKey
  requestID := "x"
  idempotencyKey := ""
  after := ""
  limit := ""
  body := Json.encodeUtf8 "\x7b\"owner_id\": \"alice\"\x7d".toList
  context := .background

/-- Two requests for an account, one with each key, in turns. -/
def acts : List Act :=
  [.arrive 0 (openAccount "reader"), .arrive 1 (openAccount "secret")] ++
    (List.replicate 8 [Act.turn 0 choice, .turn 1 choice]).flatten ++ [.turn 1 choice]

end ReadOnlyKey

open Local ReadOnlyKey in
/-- A read key that asks for an account to be opened gets a 403. -/
theorem authorised_read_only :
    ∃ s outcome events, runs (Server.step deps) (.start deps (.init .empty)) acts = some s ∧
      s.connections 0 = .serving (openAccount "reader") (.ret outcome) events ∧
        (responseOf events).status = 403 ∧
      ∀ e ∈ events, e.1.Reading := by
  have reached : ((runs (Server.step deps) (.start deps (.init .empty)) acts).bind fun s =>
      (s.connections 0).response).map Response.status = some 403 := by decide +kernel
  obtain ⟨response, reached, status⟩ := Option.map_eq_some_iff.mp reached
  obtain ⟨s, ran, answered⟩ := Option.bind_eq_some_iff.mp reached
  obtain ⟨outcome, events, was, rfl⟩ :=
    Server.runs_answered ran (r := openAccount "reader") (by simp [acts]) answered
  exact ⟨s, outcome, events, ran, was, status, (authorised ran was).2 (by decide)⟩

/-! ### Erasing the others -/

def Server.privileged (d : Deps) (s : Server) (i : Nat) : Bool :=
  match s.connections i with
  | .idle => false
  | .serving r _ _ => decide (r.Privileged d)

/-- The acts of the marked connections, and those of the database. -/
def Act.of (marked : Nat → Bool) : Act → Bool
  | .arrive i _ | .call i | .turn i _ => marked i
  | .world _ => true

/-- The marks tell the privileged requests from the others. -/
def Act.Marks (d : Deps) (marked : Nat → Bool) : Act → Prop
  | .arrive i r => marked i = decide (r.Privileged d)
  | _ => True

instance (d : Deps) (marked : Nat → Bool) : (a : Act) → Decidable (a.Marks d marked)
  | .arrive i r => inferInstanceAs (Decidable (marked i = decide (r.Privileged d)))
  | .call _ | .turn .. | .world _ => .isTrue trivial

/-- Two servers that differ in unprivileged connections only, of which the second has none. -/
structure Server.Erased (d : Deps) (marked : Nat → Bool) (s s' : Server) : Prop where
  inv : s.Inv d
  marks : ∀ {i r prog events}, s.connections i = .serving r prog events →
    marked i = decide (r.Privileged d)
  world : s'.world = s.world
  bucket : s'.buckets .write = s.buckets .write
  kept : ∀ {i}, marked i = true → s'.connections i = s.connections i
  erased : ∀ {i}, marked i = false → s'.connections i = .idle

namespace Server

variable {d : Deps} {marked : Nat → Bool} {s s' t : Server} {a : Act} {i : Nat}

theorem Erased.next (erased : Erased d marked s s') {r : Request} {o : Op}
    {next : o.Reply → Prog sig (Except Panic Unit)} {events : List (Event sig)}
    (was : s.connections i = .serving r (.op o next) events) :
    (marked i = true → o.Private) ∧ (marked i = false → o.Reading) := by
  have reached := (erased.inv.tended was).reached
  have mark := erased.marks was
  constructor
  · intro own
    obtain ⟨write, other⟩ := of_decide_eq_true (mark.symm.trans own)
    exact (reached.only (fun _ _ => trivial) (makes_privileged (r := r.incoming) write other)).2.1
  · intro foreign
    have unprivileged := of_decide_eq_false (mark.symm.trans foreign)
    exact (reached.only (fun _ _ => trivial) (makes_reading (r := r.incoming) unprivileged)).2.1

/-- A call that only reads leaves the world and the write key's limiter alone. -/
theorem Answer.reading {c : Choice} {o : Op} {reply : o.Reply} {after : Server}
    (answered : Answer d s i c o reply after) (reading : o.Reading) :
    after.world = s.world ∧ after.buckets .write = s.buckets .write := by
  cases answered with
  | limits _ _ scope bucket limiter =>
    have read : scope = .read := by
      rcases limiter with rfl | ⟨res, rfl⟩ <;> exact reading
    subst read
    exact ⟨rfl, rfl⟩
  | creates ownerID _ => exact reading.elim
  | _ => exact ⟨rfl, rfl⟩

/-- A private call gets the same reply from two servers with one world and one limiter for
the write key. -/
theorem answer_congr {c : Choice} {o : Op} {reply : o.Reply} {after : Server}
    (world : s'.world = s.world) (bucket : s'.buckets .write = s.buckets .write) (own : o.Private)
    (answered : s.answer d i c o = some (reply, after)) :
    ∃ after', s'.answer d i c o = some (reply, after') ∧ after'.world = after.world ∧
      after'.buckets .write = after.buckets .write := by
  cases o with
  | gather => exact own.elim
  | reserve scope =>
    obtain rfl : scope = .write := own
    obtain ⟨lim, limited, same⟩ := Option.map_eq_some_iff.mp answered
    cases same
    refine ⟨s'.setBucket .write (lim.reserve (s.buckets .write) c.now).2, ?_, world, rfl⟩
    rw [answer, limited, bucket]
    rfl
  | cancel scope res =>
    obtain rfl : scope = .write := own
    obtain ⟨lim, limited, same⟩ := Option.map_eq_some_iff.mp answered
    cases same
    refine ⟨s'.setBucket .write (lim.cancelAt (s.buckets .write) res c.now), ?_, world, rfl⟩
    rw [answer, limited, bucket]
    rfl
  | create ownerID =>
    cases answered
    refine ⟨{ s' with world := created s.world ownerID c.uuid c.insert }, ?_, rfl, bucket⟩
    rw [answer, world]
  | balance id =>
    cases answered
    exact ⟨s', by rw [answer, world], world, bucket⟩
  | entries id afterID limit =>
    cases answered
    exact ⟨s', by rw [answer, world], world, bucket⟩
  | transfer cmd =>
    obtain ⟨reply', ended, same⟩ := Option.map_eq_some_iff.mp answered
    cases same
    refine ⟨s', ?_, world, bucket⟩
    have ended' : s'.reply i c = some reply := by rw [← ended, Server.reply, Server.reply, world]
    rw [answer, ended']
    rfl
  | inc series =>
    cases answered
    exact ⟨_, rfl, world, bucket⟩
  | _ =>
    cases answered
    exact ⟨s', rfl, world, bucket⟩

/-- An act of an unprivileged connection does not show. -/
theorem Erased.invisible (erased : Erased d marked s s') (marks : a.Marks d marked)
    (invisible : a.of marked = false) (stepped : s.step d a = some t) : Erased d marked t s' := by
  have move := step_move stepped
  have inv := move.inv erased.inv
  cases move with
  | arrives i r was unused =>
    refine ⟨inv, ?_, erased.world, erased.bucket, ?_, erased.erased⟩
    · intro j r' prog events found
      by_cases mine : j = i
      · subst mine
        rw [connections_set_self] at found
        cases found
        exact marks
      · rw [connections_set mine] at found
        exact erased.marks found
    · intro j own
      rw [connections_set (by rintro rfl; exact absurd own (by simpa [Act.of] using invisible))]
      exact erased.kept own
  | calls i r cmd next events w was moved => exact ((erased.next was).2 invisible).elim
  | turns i c r o next events reply after was answered =>
    have answered := answer_cases answered
    obtain ⟨world, bucket⟩ := answered.reading ((erased.next was).2 invisible)
    refine ⟨inv, ?_, erased.world.trans world.symm, erased.bucket.trans bucket.symm, ?_,
      erased.erased⟩
    · intro j r' prog events' found
      by_cases mine : j = i
      · subst mine
        rw [connections_set_self] at found
        cases found
        exact erased.marks was
      · rw [connections_set mine, answered.connections] at found
        exact erased.marks found
    · intro j own
      rw [connections_set (by rintro rfl; exact absurd own (by simpa [Act.of] using invisible)),
        answered.connections]
      exact erased.kept own
  | world b w foreign moved => cases invisible

/-- The connections after a step of connection `i`, on both sides. -/
theorem Erased.update (erased : Erased d marked s s') {after after' : Server}
    {connection : Connection} (inv : (after.set i connection).Inv d) (own : marked i = true)
    (marks : ∀ {r prog events}, connection = .serving r prog events →
      marked i = decide (r.Privileged d))
    (connections : after.connections = s.connections)
    (connections' : after'.connections = s'.connections) (world : after'.world = after.world)
    (bucket : after'.buckets .write = after.buckets .write) :
    Erased d marked (after.set i connection) (after'.set i connection) := by
  refine ⟨inv, ?_, world, bucket, ?_, ?_⟩
  · intro j r prog events found
    by_cases mine : j = i
    · subst mine
      rw [connections_set_self] at found
      exact marks found
    · rw [connections_set mine, connections] at found
      exact erased.marks found
  · intro j marked
    by_cases mine : j = i
    · subst mine
      rw [connections_set_self, connections_set_self]
    · rw [connections_set mine, connections_set mine, connections, connections']
      exact erased.kept marked
  · intro j unmarked
    have mine : j ≠ i := by
      rintro rfl
      rw [own] at unmarked
      cases unmarked
    rw [connections_set mine, connections']
    exact erased.erased unmarked

/-- An act of a privileged connection, or of the database, is possible on both sides. -/
theorem Erased.matched (erased : Erased d marked s s') (marks : a.Marks d marked)
    (visible : a.of marked = true) (stepped : s.step d a = some t) :
    ∃ t', s'.step d a = some t' ∧ Erased d marked t t' := by
  have move := step_move stepped
  have inv := move.inv erased.inv
  cases move with
  | arrives i r was unused =>
    refine ⟨s'.set i (.serving r (newRouter d r.incoming).run []), ?_, ?_⟩
    · simp only [step, erased.kept visible, was, erased.world, unused]
    · exact erased.update inv visible (by rintro _ _ _ ⟨⟩; exact marks) rfl rfl
        erased.world erased.bucket
  | calls i r cmd next events w was moved =>
    refine ⟨{ s' with world := w }, ?_, ?_⟩
    · simp only [step, erased.kept visible, was, erased.world, moved, Option.map_some]
    · exact ⟨inv, erased.marks, rfl, erased.bucket, erased.kept, erased.erased⟩
  | turns i c r o next events reply after was answered =>
    obtain ⟨after', answered', world, bucket⟩ :=
      answer_congr erased.world erased.bucket ((erased.next was).1 visible) answered
    refine ⟨after'.set i (.serving r (next reply) (events ++ [⟨o, reply⟩])), ?_, ?_⟩
    · simp only [step, erased.kept visible, was, answered', Option.map_some]
    · exact erased.update inv visible (by rintro _ _ _ ⟨⟩; exact erased.marks was)
        (answer_cases answered).connections (answer_cases answered').connections world bucket
  | world b w foreign moved =>
    have foreign' : s'.foreign b = true := by
      cases b with
      | start j e cmd =>
        cases own : marked j with
        | true =>
          simp only [Server.foreign, erased.kept own]
          exact foreign
        | false => simp [Server.foreign, erased.erased own, Connection.isIdle]
      | _ => rfl
    refine ⟨{ s' with world := w }, ?_, ⟨inv, erased.marks, rfl, erased.bucket, erased.kept,
      erased.erased⟩⟩
    simp only [step, foreign', erased.world, moved, if_true, Option.map_some]

/-- At the end of a run the marks tell the privileged requests from the others. -/
theorem runs_marks {acts : List Act} (ran : runs (step d) s acts = some t) :
    ∀ a ∈ acts, a.Marks d (t.privileged d) := by
  intro a mem
  cases a with
  | arrive i r =>
    obtain ⟨prog, events, was⟩ := runs_arrived ran mem
    simp [Act.Marks, privileged, was]
  | _ => trivial

end Server

/-- Requests without the write key, and those for the metrics, leave no trace: the run
without them, in the same order otherwise, is possible too and comes to the same world and
the same limiter for the write key, with every other connection having made the same calls
and got the same replies. -/
theorem unprivileged_invisible {d : Deps} {w : World} {acts : List Act} {s : Server}
    (ran : runs (Server.step d) (.start d w) acts = some s) :
    ∃ s', runs (Server.step d) (.start d w) (acts.filter (Act.of (s.privileged d))) = some s' ∧
      s'.world = s.world ∧ s'.buckets .write = s.buckets .write ∧
      ∀ i, s.privileged d i = true → s'.connections i = s.connections i := by
  have start : (Server.start d w).Erased d (s.privileged d) (.start d w) :=
    ⟨.start d w, by rintro _ _ _ _ ⟨⟩, rfl, rfl, fun _ => rfl, fun _ => rfl⟩
  -- an arrival that is marked is that of a privileged request
  have marked : acts.filter (Act.of (s.privileged d)) =
      acts.filter fun a => a.of (s.privileged d) && decide (a.Marks d (s.privileged d)) :=
    List.filter_congr fun a mem => by simp [Server.runs_marks ran a mem]
  rw [marked]
  obtain ⟨s', ran', erased⟩ := Txn.runs_erase (Act.Marks d (s.privileged d))
    (fun a => a.of (s.privileged d) && decide (a.Marks d (s.privileged d)))
    (Server.Erased d (s.privileged d))
    (fun s s' t a marks invisible erased => erased.invisible marks
      (by simpa [marks] using invisible))
    (fun s s' t a visible erased => by
      obtain ⟨own, marks⟩ := Bool.and_eq_true_iff.mp visible
      exact erased.matched (of_decide_eq_true marks) own)
    (Server.runs_marks ran) start ran
  exact ⟨s', ran', erased.world, erased.bucket, fun i => erased.kept⟩

open Local ReadOnlyKey in
/-- An account is opened all the same when the refused requests around it are left out. -/
theorem unprivileged_invisible_read_only :
    ∃ s s', runs (Server.step deps) (.start deps (.init .empty)) acts = some s ∧
      runs (Server.step deps) (.start deps (.init .empty))
        (acts.filter (Act.of (s.privileged deps))) = some s' ∧
      s'.world.db.accounts = [⟨.ofByte 9, "alice", .customer, "BRL"⟩] ∧
      ((s'.connections 1).response.map Response.status) = some 201 := by
  have reached : ((runs (Server.step deps) (.start deps (.init .empty)) acts).map fun s =>
      (s.world.db.accounts, (s.connections 1).response.map Response.status, s.privileged deps 1)) =
        some ([⟨.ofByte 9, "alice", .customer, "BRL"⟩], some 201, true) := by decide +kernel
  obtain ⟨s, ran, observed⟩ := Option.map_eq_some_iff.mp reached
  injection observed with accounts rest
  injection rest with status privileged
  obtain ⟨s', ran', world, -, kept⟩ := unprivileged_invisible ran
  exact ⟨s, s', ran, ran', by rw [world, accounts], by rw [kept 1 privileged, status]⟩

end WalletGo.Http
