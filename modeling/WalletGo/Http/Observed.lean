import WalletGo.Http.Server
import WalletGo.Http.Trace
import WalletGo.World.Late

/-!
What the log and the counters say about a request.

`accessLog` and `httpMetrics` each watch the response through a `statusRecorder` of their
own, at different places of the chain. Whatever the handlers do, the status either of them
reports is the one on the wire (`recorded_eq`), and every line about a request carries the
id its client was given. A panic comes from a service, before anything has been written
(`Polite`), so that `recoverer` can still answer 500; but it passes `httpMetrics` by, and
the request is not counted (`Accounted.recovered`).
-/

namespace WalletGo.Http

open Txn (Prog Event runs)

/-! ### Status and headers on the wire -/

/-- The recorder and the response agree after any operations with final statuses. -/
theorem agree_foldl {rec : StatusRecorder} {r : Response} (agree : Agree rec r) {ops : List Op}
    (final : ∀ o ∈ ops, o.Final) :
    Agree (ops.foldl StatusRecorder.see rec) (ops.foldl Response.see r) := by
  induction ops generalizing rec r with
  | nil => exact agree
  | cons o ops ih =>
    exact ih (agree.see (final o List.mem_cons_self)) fun o mem =>
      final o (List.mem_cons_of_mem _ mem)

theorem responseOf_append (first last : List (Event sig)) :
    responseOf (first ++ last) = (last.map (·.1)).foldl Response.see (responseOf first) := by
  simp [responseOf, Response.of]

/-- A recorder that starts before anything is sent holds the status of the response. -/
theorem recorded_eq {first events : List (Event sig)} (unsent : (responseOf first).sent = none)
    (final : ∀ e ∈ events, e.1.Final) :
    recorded events = (responseOf (first ++ events)).status := by
  rw [responseOf_append]
  refine (agree_foldl (.new unsent) ?_).status
  intro o mem
  obtain ⟨e, made, rfl⟩ := List.mem_map.mp mem
  exact final e made

/-- The client gets the id. -/
structure Echoes (id : String) (r : Response) : Prop where
  header : ("X-Request-ID", id) ∈ r.header
  sent : ∀ line ∈ r.sent, ("X-Request-ID", id) ∈ line.2

def Op.Unmarked : Op → Prop
  | .setHeader name _ => name ≠ "X-Request-ID"
  | _ => True

theorem Echoes.writeHeader {id : String} {r : Response} (echoes : Echoes id r) (status : Int) :
    Echoes id (r.writeHeader status) := by
  unfold Response.writeHeader
  split
  · exact echoes
  · split
    · exact echoes
    · refine ⟨echoes.header, ?_⟩
      rintro _ ⟨⟩
      exact echoes.header

/-- Operations that set no other request identifier leave it on the response. -/
theorem Echoes.see {id : String} {r : Response} (echoes : Echoes id r) {o : Op}
    (unmarked : o.Unmarked) : Echoes id (r.see o) := by
  cases o with
  | setHeader name value =>
    refine ⟨List.mem_append_left _ (List.mem_filter.mpr ⟨echoes.header, ?_⟩), echoes.sent⟩
    simpa using Ne.symm unmarked
  | writeHeader status => exact echoes.writeHeader status
  | write body => exact ⟨(echoes.writeHeader 200).header, (echoes.writeHeader 200).sent⟩
  | _ => exact echoes

theorem Echoes.foldl {id : String} {r : Response} (echoes : Echoes id r) {ops : List Op}
    (unmarked : ∀ o ∈ ops, o.Unmarked) : Echoes id (ops.foldl Response.see r) := by
  induction ops generalizing r with
  | nil => exact echoes
  | cons o ops ih =>
    exact ih (echoes.see (unmarked o List.mem_cons_self)) fun o mem =>
      unmarked o (List.mem_cons_of_mem _ mem)

theorem Echoes.headers {id : String} {r : Response} (echoes : Echoes id r) :
    ("X-Request-ID", id) ∈ r.headers := by
  cases sent : r.sent with
  | none =>
    simp only [Response.headers, sent]
    exact echoes.header
  | some line =>
    simp only [Response.headers, sent]
    exact echoes.sent line sent

/-! ### What the handlers do -/

/-- What a handler of the request with this id may do. -/
def Op.Inner (id : String) : Op → Prop
  | .setHeader name _ => name ≠ "X-Request-ID"
  | .writeHeader status => 200 ≤ status ∧ status ≤ 999
  | .log line => ∃ err, line = .requestFailed id err
  | .inc series => ∀ method route status, series ≠ .request method route status
  | _ => True

theorem Op.Plain.inner {id : String} {o : Op} (plain : o.Plain id) : o.Inner id := by
  cases o with
  | log line =>
    cases line with
    | requestFailed requestID err =>
      obtain rfl : requestID = id := plain
      exact ⟨err, rfl⟩
    | _ => exact plain.elim
  | inc series =>
    cases series with
    | request method route status => exact plain.elim
    | _ =>
      rintro method route status ⟨⟩
  | writeHeader status => exact ⟨plain.1, plain.2.1⟩
  | _ => first | exact plain | trivial

theorem Op.Inner.final {id : String} {o : Op} (inner : o.Inner id) : o.Final := by
  cases o <;> first | exact inner | trivial

theorem Op.Inner.unmarked {id : String} {o : Op} (inner : o.Inner id) : o.Unmarked := by
  cases o <;> first | exact inner | trivial

theorem stored_final {cmd : TransferCommand} {res : TransferResult}
    (stored : Stored (.transfer cmd) (.ok (.ok res))) :
    200 ≤ res.response.statusCode ∧ res.response.statusCode ≤ 999 := by
  obtain ⟨id, created⟩ := stored
  rw [created]
  change (200 : Int) ≤ 201 ∧ (201 : Int) ≤ 999
  decide

/-- What the routes do stays inside the chain, and logs no line of the chain's own. -/
theorem makes_inner (d : Deps) (r : Request) :
    Makes Stored (Op.Inner r.context.requestID) (routeHTTP d r) := by
  refine makes_routeHTTP (fun _ => Op.Plain.inner) fun route mem _ _ context same => ?_
  have plain : ∀ {id : String}, id = r.context.requestID → ∀ o :
      Op, o.Plain id → o.Inner r.context.requestID := by
    rintro _ rfl o
    exact Op.Plain.inner
  have counts :
      ∀ endpoint replayed, (Op.inc (.transfer endpoint replayed)).Inner r.context.requestID := by
    rintro endpoint replayed method route status ⟨⟩
  have behind : ∀ {next : HandlerFunc}, (∀ context, context.requestID = r.context.requestID →
      Makes Stored (Op.Inner r.context.requestID) (next { r with context })) →
      Makes Stored (Op.Inner r.context.requestID) (secured d next { r with context }) :=
    fun rest =>
      makes_secured (r := { r with context }) (plain same) (fun _ => trivial) (fun _ => trivial)
      (fun _ _ => trivial) fun context' same' => rest context' (same'.trans same)
  simp only [routes, List.mem_cons, List.not_mem_nil, or_false] at mem
  rcases mem with rfl | rfl | rfl | rfl | rfl | rfl | rfl | rfl | rfl
  · exact makes_healthz (plain rfl) r
  · exact makes_readyz (plain rfl) r trivial
  · exact makes_metricsHandler (plain rfl) d r trivial
  · exact behind fun _ same => makes_balance (plain same) fun _ => trivial
  · exact behind fun _ same => makes_entries (plain same) fun _ _ _ => trivial
  · exact behind fun _ same =>
      makes_requireWriteScope (plain same) (makes_createAccount (plain same) (fun _ => trivial)
        ⟨by decide, by decide⟩)
  · exact behind fun _ same => makes_requireWriteScope (plain same)
      (makes_deposit (plain same) counts (fun _ => trivial) (fun _ _ => stored_final)
        fun _ => trivial)
  · exact behind fun _ same => makes_requireWriteScope (plain same)
      (makes_withdraw (plain same) counts (fun _ => trivial) (fun _ _ => stored_final)
        fun _ => trivial)
  · exact behind fun _ same => makes_requireWriteScope (plain same)
      (makes_transfer (plain same) counts (fun _ => trivial) (fun _ _ => stored_final)
        fun _ => trivial)

/-- Neither a response nor a line nor a count. -/
def Op.Asking : Op → Prop
  | .setHeader .. | .writeHeader _ | .write _ | .inc _ | .log _ => False
  | _ => True

/-- A panic leaves the handler before it has written, logged or counted anything. -/
def Polite {α : Type} (handler : Web α) : Prop :=
  ∀ events panic, (∀ e ∈ events, Stored e.1 e.2) → Ends handler events (.error panic) →
    ∀ e ∈ events, e.1.Asking

section Polite

variable {α β : Type} {d : Deps} {r : Request}

theorem Emits.polite {handler : Web Unit} {emitted : List (Event sig)}
    (emits : Emits handler emitted) : Polite handler := by
  intro events panic _ ends
  cases (emits.ends ends).2

theorem Polite.call (o : Op) (outcome : o.Reply → Except Panic α) {next : α → Web β}
    (asking : o.Asking) (rest : ∀ reply value, Stored o reply → outcome reply = .ok value →
      Polite (next value)) :
    Polite (ExceptT.mk (.op o fun reply => .ret (outcome reply)) >>= next) := by
  intro events panic sounds ends
  rcases ends_bind.mp ends with ⟨value, _, tail, rfl, called, ended⟩ | ⟨_, -, called⟩
  · obtain ⟨reply, rfl, same⟩ := ends_call.mp called
    intro e mem
    rcases List.mem_cons.mp mem with rfl | mem
    · exact asking
    · exact rest reply value (sounds _ List.mem_cons_self) same.symm tail panic
        (fun e mem => sounds e (List.mem_cons_of_mem _ mem)) ended e mem
  · obtain ⟨reply, rfl, -⟩ := ends_call.mp called
    intro e mem
    cases List.mem_singleton.mp mem
    exact asking

theorem Polite.ask (o : Op) {next : o.Reply → Web β} (asking : o.Asking)
    (rest : ∀ reply, Polite (next reply)) : Polite (Http.ask o >>= next) :=
  Polite.call o .ok asking fun _ value _ _ => rest value

theorem polite_writeJSON {status : Int} (valid : 100 ≤ status ∧ status ≤ 999) (body : Document) :
    Polite (writeJSON status body) := (emits_writeRaw valid body).polite

theorem polite_orFail {result : Except GoError α} {next : α → Web Unit}
    (rest : ∀ value, Polite (next value)) : Polite (Handler.orFail d r result next) := by
  cases result with
  | error err => exact (emits_writeError d r err).polite
  | ok value => exact rest value

theorem polite_moved (op : String) (cmd : TransferCommand) :
    Polite (transfer cmd >>= Handler.writeMoved d r op) := by
  refine Polite.call (.transfer cmd) id trivial fun reply res stored same => ?_
  cases res with
  | error err => exact (emits_writeError d r err).polite
  | ok res =>
    obtain rfl : reply = .ok (.ok res) := same
    obtain ⟨lower, upper⟩ := stored_final stored
    exact (emits_moves op ⟨by omega, upper⟩).polite

theorem polite_rateLimit {next : HandlerFunc} (rest : Polite (next r)) :
    Polite (rateLimit next r) := by
  refine Polite.ask (.reserve r.scope) trivial fun res => ?_
  split
  · exact rest
  · refine Polite.ask (.delay res) trivial fun delay => ?_
    split
    · exact Polite.ask (.cancel r.scope res) trivial fun _ =>
        ((emits_setHeader _ _).bind (emits_writeRaw (by decide) _)).polite
    · exact rest

theorem polite_secured {next : HandlerFunc} (rest : ∀ context, Polite (next { r with context })) :
    Polite (secured d next r) := by
  have limited : ∀ scope, Polite ((if d.limiter.isSome then rateLimit next else next)
      { r with context.scope := some scope }) := by
    intro scope
    split
    · exact polite_rateLimit (rest _)
    · exact rest _
  unfold secured apiKeyAuth
  split
  · exact limited .write
  · split
    · exact limited .read
    · exact polite_writeJSON (by decide) _

theorem polite_writing {next : HandlerFunc} (rest : ∀ context, Polite (next { r with context })) :
    Polite (secured d (requireWriteScope next) r) := by
  refine polite_secured fun context => ?_
  unfold requireWriteScope
  split
  · exact rest context
  · exact polite_writeJSON (by decide) _

/-- A route that panics has written, logged and counted nothing. -/
theorem polite_routeHTTP (d : Deps) (r : Request) : Polite (routeHTTP d r) := by
  unfold routeHTTP
  split
  · next route id found =>
    obtain ⟨mem, -, -⟩ := d.mux.found found
    simp only [routes, List.mem_cons, List.not_mem_nil, or_false] at mem
    rcases mem with rfl | rfl | rfl | rfl | rfl | rfl | rfl | rfl | rfl
    · exact polite_writeJSON (by decide) _
    · refine Polite.ask .ping trivial fun alive => ?_
      split <;> exact polite_writeJSON (by decide) _
    · exact Polite.ask .gather trivial fun _ => ((emits_setHeader _ _).bind (emits_write _)).polite
    · exact polite_secured fun context => polite_orFail fun id =>
        Polite.call (.balance id) (fun reply => reply) trivial fun _ _ _ _ =>
          polite_orFail fun _ => polite_writeJSON (by decide) _
    · exact polite_secured fun context => polite_orFail fun id => polite_orFail fun afterID =>
          polite_orFail fun limit =>
        Polite.call (.entries id afterID limit) (fun reply => reply) trivial fun _ _ _ _ =>
          polite_orFail fun _ => polite_writeJSON (by decide) _
    · exact polite_writing fun context => polite_orFail fun ownerID =>
        Polite.call (.create ownerID) (fun reply => reply) trivial fun _ _ _ _ =>
          polite_orFail fun _ => polite_writeJSON (by decide) _
    · exact polite_writing fun context => polite_orFail fun cmd => polite_moved _ _
    · exact polite_writing fun context => polite_orFail fun cmd => polite_moved _ _
    · exact polite_writing fun context => polite_orFail fun cmd => polite_moved _ _
  · exact (emits_unrouted _ _ _ _).polite

end Polite

/-! ### One request -/

def logged (events : List (Event sig)) : List Line :=
  events.filterMap fun e =>
    match e.1 with
    | .log line => some line
    | _ => none

/-- The increments of `wallet_http_requests_total`. -/
def Series.isRequest : Series → Bool
  | .request .. => true
  | _ => false

@[simp] theorem logged_append (first last : List (Event sig)) :
    logged (first ++ last) = logged first ++ logged last :=
  List.filterMap_append

@[simp] theorem increments_append (first last : List (Event sig)) :
    increments (first ++ last) = increments first ++ increments last := List.filterMap_append

section Inner

variable {id : String} {events : List (Event sig)}

/-- The lines that the routes log are failures of their own request. -/
theorem logged_inner (inner : ∀ e ∈ events, e.1.Inner id) :
    ∀ line ∈ logged events, ∃ err, line = .requestFailed id err := by
  intro line mem
  obtain ⟨⟨o, reply⟩, made, found⟩ := List.mem_filterMap.mp mem
  cases o with
  | log line' =>
    cases found
    exact inner _ made
  | _ => cases found

theorem increments_inner (inner : ∀ e ∈ events, e.1.Inner id) :
    (increments events).filter Series.isRequest = [] := by
  rw [List.filter_eq_nil_iff]
  intro series mem
  obtain ⟨⟨o, reply⟩, made, found⟩ := List.mem_filterMap.mp mem
  cases o with
  | inc series' =>
    cases found
    cases series with
    | request method route status => exact absurd rfl (inner _ made method route status)
    | _ => simp [Series.isRequest]
  | _ => cases found

variable (asking : ∀ e ∈ events, e.1.Asking)
include asking

theorem logged_asking : logged events = [] := by
  refine List.filterMap_eq_nil_iff.mpr fun ⟨o, reply⟩ mem => ?_
  cases o with
  | log line => exact (asking _ mem).elim
  | _ => rfl

theorem increments_asking : increments events = [] := by
  refine List.filterMap_eq_nil_iff.mpr fun ⟨o, reply⟩ mem => ?_
  cases o with
  | inc series => exact (asking _ mem).elim
  | _ => rfl

theorem responseOf_asking (first : List (Event sig)) :
    responseOf (first ++ events) = responseOf first := by
  rw [responseOf_append]
  generalize responseOf first = r
  induction events with
  | nil => rfl
  | cons e events ih =>
    have same : r.see e.1 = r := by
      have quiet := asking e List.mem_cons_self
      obtain ⟨o, reply⟩ := e
      cases o <;> first | rfl | exact quiet.elim
    rw [List.map_cons, List.foldl_cons, same]
    exact ih fun e mem => asking e (List.mem_cons_of_mem _ mem)

end Inner

/-- What the log and `wallet_http_requests_total` say of a request, and what its client got. -/
inductive Accounted (d : Deps) (r : Request) (id : String) (events : List (Event sig)) :
    Except Panic Unit → Prop where
  | served (failures : List Line) (own : ∀ line ∈ failures, ∃ err, line = .requestFailed id err)
      (lines : logged events = failures ++
        [.request id r.method r.pathText (responseOf events).status])
      (counted : (increments events).filter Series.isRequest =
        [.request r.method (routeLabel d r) (responseOf events).status]) :
      Accounted d r id events (.ok ())
  /-- A panic that is recovered is answered and logged, but not counted. -/
  | recovered (value : String) (status : (responseOf events).status = 500)
      (lines : logged events = [.panicRecovered id (.other value),
        .request id r.method r.pathText 500])
      (counted : (increments events).filter Series.isRequest = []) :
      Accounted d r id events (.ok ())
  | aborted (lines : logged events = []) (counted : increments events = []) :
      Accounted d r id events (.error .abortHandler)

section Chain

variable {d : Deps} {r : Request} {id : String} {first inner : List (Event sig)}

theorem Opens.silent (opens : Opens d r id first) : logged first = [] ∧ increments first = [] := by
  cases opens <;> exact ⟨rfl, rfl⟩

theorem Opens.response (opens : Opens d r id first) :
    responseOf first = ⟨[("X-Request-ID", id)], none, []⟩ := by
  cases opens <;> rfl

theorem Opens.unsent (opens : Opens d r id first) : (responseOf first).sent = none := by
  rw [opens.response]

/-- What the chain adds when the route has returned: the counter, then the line. -/
theorem closing_ok : closing d r id inner (.ok ()) =
    inner ++ [⟨.inc (.request r.method (routeLabel d r) (recorded inner)), ()⟩,
      ⟨.log (.request id r.method r.pathText (recorded inner)), ()⟩] := by
  simp [closing, counts, rescues, surfaced, closes, recorded, StatusRecorder.see]

theorem closing_abort : closing d r id inner (.error .abortHandler) = inner := by
  simp [closing, counts, rescues, surfaced, closes]

/-- What the chain adds after a panic: the answer and the line, but no counter. -/
theorem closing_panic (value : String) : closing d r id inner (.error (.other value)) =
    inner ++ rescues id (.error (.other value)) ++
      [⟨.log (.request id r.method r.pathText
        (recorded (inner ++ rescues id (.error (.other value))))), ()⟩] := by
  simp [closing, counts, surfaced, closes]

theorem rescues_inner (value : String) :
    ∀ e ∈ rescues id (.error (.other value)), e.1.Final ∧ e.1.Unmarked := by
  simp [rescues, sends, Op.Final, Op.Unmarked]

theorem closing_unmarked (own : ∀ e ∈ inner, e.1.Inner id) (result : Except Panic Unit) :
    ∀ e ∈ closing d r id inner result, e.1.Unmarked := by
  have unmarked : ∀ e ∈ inner, e.1.Unmarked := fun e mem => (own e mem).unmarked
  match result with
  | .ok () =>
    rw [closing_ok]
    simpa [Op.Unmarked, or_imp, forall_and] using unmarked
  | .error .abortHandler =>
    rw [closing_abort]
    exact unmarked
  | .error (.other value) =>
    rw [closing_panic]
    intro e mem
    rcases List.mem_append.mp mem with mem | mem
    · rcases List.mem_append.mp mem with mem | mem
      · exact unmarked e mem
      · exact (rescues_inner value e mem).2
    · cases List.mem_singleton.mp mem
      trivial

/-- A request that is served is counted and logged with the status that was sent. -/
theorem Opens.served (opens : Opens d r id first) (own : ∀ e ∈ inner, e.1.Inner id) :
    Accounted d r id (first ++ closing d r id inner (.ok ())) (.ok ()) := by
  obtain ⟨unlogged, uncounted⟩ := opens.silent
  have status : recorded inner = (responseOf (first ++ closing d r id inner (.ok ()))).status := by
    rw [recorded_eq opens.unsent fun e mem => (own e mem).final, closing_ok, ← List.append_assoc,
      responseOf_append (first ++ inner)]
    rfl
  refine .served (logged inner) (logged_inner own) ?_ ?_
  · rw [← status, closing_ok]
    simp only [logged_append, unlogged, List.nil_append]
    rfl
  · rw [← status, closing_ok]
    simp only [increments_append, uncounted, List.nil_append, List.filter_append,
      increments_inner own]
    rfl

/-- A request that panicked is answered 500 and logged so. -/
theorem Opens.recovered (opens : Opens d r id first) (own : ∀ e ∈ inner, e.1.Inner id)
    (asking : ∀ e ∈ inner, e.1.Asking) (value : String) :
    Accounted d r id (first ++ closing d r id inner (.error (.other value))) (.ok ()) := by
  obtain ⟨unlogged, uncounted⟩ := opens.silent
  have final : ∀ e ∈ inner ++ rescues id (.error (.other value)), e.1.Final := by
    intro e mem
    rcases List.mem_append.mp mem with mem | mem
    · exact (own e mem).final
    · exact (rescues_inner value e mem).1
  have answered :
      (responseOf (first ++ (inner ++ rescues id (.error (.other value))))).status = 500 := by
    rw [← List.append_assoc, responseOf_append, responseOf_asking asking, opens.response]
    rfl
  have noted : recorded (inner ++ rescues id (.error (.other value))) = 500 := by
    rw [recorded_eq opens.unsent final, answered]
  have status :
      (responseOf (first ++ closing d r id inner (.error (.other value)))).status = 500 := by
    rw [closing_panic, ← List.append_assoc, responseOf_append]
    exact answered
  refine .recovered value status ?_ ?_
  · rw [closing_panic, noted]
    simp only [logged_append, unlogged, logged_asking asking, List.nil_append]
    rfl
  · rw [closing_panic]
    simp only [increments_append, uncounted, increments_asking asking, List.nil_append]
    rfl

/-- A request that aborted is neither counted nor logged. -/
theorem Opens.aborted (opens : Opens d r id first) (asking : ∀ e ∈ inner, e.1.Asking) :
    Accounted d r id (first ++ closing d r id inner (.error .abortHandler))
      (.error .abortHandler) := by
  obtain ⟨unlogged, uncounted⟩ := opens.silent
  rw [closing_abort]
  exact .aborted (by rw [logged_append, unlogged, logged_asking asking]; rfl)
    (by rw [increments_append, uncounted, increments_asking asking]; rfl)

end Chain

/-- Every request that has ended is accounted for. -/
theorem newRouter_accounted {d : Deps} {r : Request} {events : List (Event sig)}
    {outcome : Except Panic Unit} (sounds : ∀ e ∈ events, Stored e.1 e.2)
    (ends : Ends (newRouter d r) events outcome) :
    ∃ id first, Opens d r id first ∧ first <+: events ∧
      ("X-Request-ID", id) ∈ (responseOf events).headers ∧ Accounted d r id events outcome := by
  obtain ⟨id, first, inner, result, opens, routed, rfl, rfl⟩ := newRouter_ends ends
  have sounds' : ∀ e ∈ inner, Stored e.1 e.2 := fun e mem => sounds e (by simp [closing, mem])
  have own : ∀ e ∈ inner, e.1.Inner id := (makes_inner d _).ends routed sounds'
  refine ⟨id, first, opens, List.prefix_append _ _, ?_, ?_⟩
  · have echoes : Echoes id (responseOf first) := by
      rw [opens.response]
      exact ⟨List.mem_singleton_self _, by rintro line ⟨⟩⟩
    rw [responseOf_append]
    refine (echoes.foldl fun o mem => ?_).headers
    obtain ⟨e, made, rfl⟩ := List.mem_map.mp mem
    exact closing_unmarked own result e made
  · match result with
    | .ok () => exact opens.served own
    | .error .abortHandler => exact opens.aborted (polite_routeHTTP d _ inner _ sounds' routed)
    | .error (.other value) =>
      exact opens.recovered own (polite_routeHTTP d _ inner _ sounds' routed) value

/-! ### In any run of the server -/

namespace Server

variable {d : Deps} {w : World} {before : List WalletGo.Act} {acts : List Act} {s : Server}

/-- The world below has been reached from empty tables. -/
theorem reaches (origin : runs World.step (.init .empty) before = some w)
    (ran : runs (step d) (.start d w) acts = some s) :
    ∃ below, runs World.step (.init .empty) (before ++ below) = some s.world ∧
      ∀ b ∈ below, Below d acts b := by
  obtain ⟨below, reached, allowed⟩ := world_runs ran
  exact ⟨below, Txn.runs_append_iff.mpr ⟨w, origin, reached⟩, allowed⟩

theorem keyInv (origin : runs World.step (.init .empty) before = some w)
    (ran : runs (step d) (.start d w) acts = some s) : ∃ ps, KeyInv s.world ps := by
  obtain ⟨below, reached, -⟩ := reaches origin ran
  exact World.runs_keyInv (.init .empty) .init reached

/-- What a connection has been told by `Transfer` is what is stored. -/
theorem Tended.sounds {ps : List Posting} (keyInv : KeyInv s.world ps) {i : Nat} {r : Request}
    {prog : Prog sig (Except Panic Unit)} {events : List (Event sig)}
    (tended : s.Tended d i r prog events) : ∀ e ∈ events, Stored e.1 e.2 := by
  rintro ⟨o, reply⟩ mem
  cases o with
  | transfer cmd =>
    match reply with
    | .ok (.ok res) =>
      obtain ⟨_, was⟩ := tended.told cmd _ mem
      obtain ⟨p, -, -, -, created, -⟩ := keyInv.succeeded was
      exact ⟨p.id, created⟩
    | .ok (.error err) => trivial
    | .error panic => trivial
  | _ => trivial

end Server

/-- Once a handler has returned, whatever it and the others have been through, the log has
one line about its request, its last, with the status the client got, and every other line
about it carries the id the client got; `wallet_http_requests_total` has counted it once,
with that status, unless its handler panicked. -/
theorem requests_accounted {d : Deps} {w : World} {before : List WalletGo.Act}
    (origin : runs World.step (.init .empty) before = some w) {acts : List Act} {s : Server}
    (ran : runs (Server.step d) (.start d w) acts = some s) {i : Nat} {r : Request}
    {outcome : Except Panic Unit} {events : List (Event sig)}
    (was : s.connections i = .serving r (.ret outcome) events) :
    ∃ id first, Opens d r.incoming id first ∧ first <+: events ∧
      ("X-Request-ID", id) ∈ (responseOf events).headers ∧
      Accounted d r.incoming id events outcome ∧
      s.counters.filter (·.1 = i) = (increments events).map fun series => (i, series) := by
  have tended := (Server.runs_inv ran).tended was
  obtain ⟨ps, keyInv⟩ := Server.keyInv origin ran
  obtain ⟨id, first, opens, begun, echoed, accounted⟩ :=
    newRouter_accounted (tended.sounds keyInv) tended.reached.returned
  exact ⟨id, first, opens, begun, echoed, accounted, tended.counted⟩

namespace Panicking

open Local

def deps : Deps := depsWith none

def acts : List Act :=
  .arrive 0 query :: List.replicate 7 (.turn 0 { choice with panic := some (.other "boom") })

end Panicking

open Local Panicking in
/-- A query whose service panics is answered 500 and not counted. -/
theorem requests_accounted_panicking :
    ∃ s outcome events id, runs (Server.step deps) (.start deps (.init .empty)) acts = some s ∧
      s.connections 0 = .serving query (.ret outcome) events ∧ (responseOf events).status = 500 ∧
        s.counters = [] ∧
      Accounted deps query.incoming id events outcome := by
  have reached : ((runs (Server.step deps) (.start deps (.init .empty)) acts).map fun s =>
      ((s.connections 0).response.map Response.status, s.counters)) = some (some 500, []) := by
    decide +kernel
  obtain ⟨s, ran, observed⟩ := Option.map_eq_some_iff.mp reached
  injection observed with answered counters
  obtain ⟨response, answered, status⟩ := Option.map_eq_some_iff.mp answered
  obtain ⟨outcome, events, was, rfl⟩ :=
    Server.runs_answered ran (r := query) (by simp [acts]) answered
  have origin : runs World.step (.init .empty) [] = some (.init .empty) := rfl
  obtain ⟨id, -, -, -, -, accounted, -⟩ := requests_accounted origin ran was
  exact ⟨s, outcome, events, id, ran, was, status, counters, accounted⟩

end WalletGo.Http
