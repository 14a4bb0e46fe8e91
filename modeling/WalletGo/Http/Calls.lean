import WalletGo.Http.Router
import WalletGo.Txn.Calls

/-!
The calls the handlers make.

`Makes sound kind handler`: as long as the replies are sound, the handler makes calls of
one kind only. There is one lemma for each handler and each middleware, about any kind
that holds of what they all do (`Op.Plain`) and of the services they are for;
`makes_newRouter` is about the chain around the router, and leaves one case for each route.
-/

namespace WalletGo.Http

open Txn (Prog)

/-- Calls that a handler makes, whatever it is told. -/
def Makes {α : Type} (sound : (o : Op) → o.Reply → Prop) (kind : Op → Prop) (handler : Web α) :
    Prop :=
  Prog.Only (S := sig) sound kind handler.run

def AnyReply (o : Op) (_ : o.Reply) : Prop := True

section Makes

variable {α β : Type} {sound : (o : Op) → o.Reply → Prop} {kind : Op → Prop}

theorem Makes.pure (value : α) : Makes sound kind (Pure.pure value) := trivial

theorem Makes.bind {first : Web α} {next : α → Web β} (head : Makes sound kind first)
    (rest : ∀ value, Makes sound kind (next value)) : Makes sound kind (first >>= next) := by
  refine Prog.Only.bind head fun outcome => ?_
  cases outcome with
  | ok value => exact rest value
  | error value => trivial

theorem Makes.map {handler : Web α} (own : Makes sound kind handler) (f : α → β) :
    Makes sound kind (f <$> handler) :=
  own.bind fun _ => .pure _

theorem Makes.call {o : Op} {outcome : o.Reply → Except Panic α} (own : kind o) :
    Makes sound kind (ExceptT.mk (.op o fun reply => .ret (outcome reply))) :=
  ⟨own, fun _ _ => trivial⟩

/-- A recorder makes no calls of its own. -/
theorem only_observed {program : Prog sig α} (own : Prog.Only sound kind program)
    (rec : StatusRecorder) : Prog.Only sound kind (observed program rec) := by
  induction program generalizing rec with
  | ret value => trivial
  | op o next ih => exact ⟨own.1, fun reply fits => ih reply (own.2 reply fits) _⟩

/-- Recording the status adds no operation. -/
theorem Makes.recording {handler : Web Unit} (own : Makes sound kind handler) :
    Makes sound kind (Http.recording handler) :=
  Prog.Only.bind (only_observed own .new) fun _ => trivial

end Makes

theorem capture_literal {text : String} {path : List String} :
    (capture [.literal text] path).isSome ↔ path = [text] := by
  rcases path with _ | ⟨first, _ | ⟨second, rest⟩⟩
  · simp [capture]
  · by_cases same : text = first
    · simp [capture, same]
    · simp [capture, same, Ne.symm same]
  · simp [capture]

/-- A request is handled by the route it fits, or by the router itself. -/
theorem routeHTTP_cases (d : Deps) (r : Request) :
    (∃ route ∈ routes d, ∃ id, route.method = r.method ∧ capture route.segments r.path = some id ∧
      routeHTTP d r = route.handler { r with context.pattern := route.pattern, context.id := id }) ∨
    routeHTTP d r = (d.mux.unrouted (routes d) r.method r.path).write := by
  unfold routeHTTP
  split
  · next route id found =>
    obtain ⟨mem, method, captured⟩ := d.mux.found found
    exact .inl ⟨route, mem, id, method, captured, rfl⟩
  · exact .inr rfl

/-! ### Handlers -/

/-- What every handler of the request with this id does besides calling its service and
answering that something was created. -/
def Op.Plain (requestID : String) : Op → Prop
  | .setHeader name _ => name ≠ "X-Request-ID"
  | .writeHeader status => 200 ≤ status ∧ status ≤ 999 ∧ status ≠ 201
  | .log (.requestFailed id _) => id = requestID
  | .write body => body.isStored = false
  | .inc (.error ..) => True
  | _ => False

/-- What the chain around the router does, and every handler in it. -/
def Op.Chained : Op → Prop
  | .setHeader .. | .log _ | .newUUID | .inc (.request ..) | .inc (.error ..) | .write _ => True
  | .writeHeader status => 200 ≤ status ∧ status ≤ 999 ∧ status ≠ 201
  | _ => False

theorem Op.Plain.chained {requestID : String} {o : Op} (plain : o.Plain requestID) : o.Chained := by
  cases o with
  | inc series => cases series <;> first | exact plain | trivial
  | _ => first | exact plain | trivial

theorem statusFor_range (err : GoError) : 400 ≤ (statusFor err).1 ∧ (statusFor err).1 ≤ 999 := by
  have listed : ∀ entry ∈ clientStatuses, 400 ≤ entry.2.1 ∧ entry.2.1 ≤ 999 := by decide
  unfold statusFor
  split
  · decide
  · split
    · next entry found => exact listed _ (List.mem_of_find?_eq_some found)
    · split <;> decide

section Writers

variable {sound : (o : Op) → o.Reply → Prop} {kind : Op → Prop} {requestID : String}
  (plain : ∀ o : Op, o.Plain requestID → kind o)
include plain

theorem makes_setHeader {name : String} (other : name ≠ "X-Request-ID") (value : String) :
    Makes sound kind (setHeader name value) := .call (plain (.setHeader name value) other)

theorem makes_write {body : Document} (own : body.isStored = false) :
    Makes sound kind (write body) :=
  .call (plain (.write body) own)

theorem makes_writeRaw {status : Int} (fits : kind (.writeHeader status)) {body : Document}
    (own : kind (.write body)) : Makes sound kind (writeRaw status body) :=
  (makes_setHeader plain (by decide) _).bind fun _ => (Makes.call fits).bind fun _ => .call own

theorem makes_writeJSON {status : Int} (final : 200 ≤ status ∧ status ≤ 999 ∧ status ≠ 201)
    {body : Document} (own : body.isStored = false) : Makes sound kind (writeJSON status body) :=
  makes_writeRaw plain (plain (.writeHeader status) final) (plain (.write body) own)

theorem makes_healthz (r : Request) : Makes sound kind (healthz r) :=
  makes_writeJSON plain (by decide) rfl

theorem makes_readyz (r : Request) (own : kind .ping) : Makes sound kind (readyz r) := by
  refine (Makes.call own).bind fun alive => ?_
  split <;> exact makes_writeJSON plain (by decide) rfl

theorem makes_metricsHandler (d : Deps) (r : Request) (own : kind .gather) :
    Makes sound kind (metricsHandler d r) :=
  (Makes.call own).bind fun _ => (makes_setHeader plain (by decide) _).bind fun _ =>
    makes_write plain rfl

theorem makes_setHeaders {headers : List (String × String)}
    (others : ∀ header ∈ headers, header.1 ≠ "X-Request-ID") :
    Makes sound kind (setHeaders headers) := by
  induction headers with
  | nil => exact .pure ()
  | cons header rest ih =>
    refine (makes_setHeader plain (others header List.mem_cons_self) _).bind fun _ => ?_
    exact ih fun header mem => others header (List.mem_cons_of_mem _ mem)

theorem makes_unrouted (mux : Mux) (routes : List Route) (method : String) (path : List String) :
    Makes sound kind (mux.unrouted routes method path).write := by
  have final : 200 ≤ (mux.unrouted routes method path).status ∧
      (mux.unrouted routes method path).status ≤ 999 ∧
      (mux.unrouted routes method path).status ≠ 201 := by
    have status := mux.status routes method path
    omega
  refine (makes_setHeaders plain (mux.headers routes method path)).bind fun _ => ?_
  exact (Makes.call (plain (.writeHeader _) final)).bind fun _ => makes_write plain rfl

end Writers

section Handlers

variable {sound : (o : Op) → o.Reply → Prop} {kind : Op → Prop} {d : Deps} {r : Request}
  (plain : ∀ o : Op, o.Plain r.context.requestID → kind o)
include plain

theorem makes_writeError (err : GoError) : Makes sound kind (Handler.writeError d r err) := by
  obtain ⟨lower, upper⟩ := statusFor_range err
  refine (Makes.call (plain (.inc (.error _ _)) trivial)).bind fun _ => ?_
  have answered : Makes sound kind (writeJSON (statusFor err).1
      (.error (statusFor err).2 (WalletGo.writeError d.texts err).message)) :=
    makes_writeJSON plain (by omega) rfl
  split
  · exact (Makes.call (plain (.log (.requestFailed _ _)) rfl)).bind fun _ => answered
  · exact answered

theorem makes_orFail {α : Type} {result : Except GoError α} {next : α → Web Unit}
    (rest : ∀ value, result = .ok value → Makes sound kind (next value)) :
    Makes sound kind (Handler.orFail d r result next) := by
  cases result with
  | error err => exact makes_writeError plain err
  | ok value => exact rest value rfl

theorem makes_balance (own : ∀ id, kind (.balance id)) : Makes sound kind (Handler.balance d r) :=
  makes_orFail plain fun id _ => Makes.bind ⟨own id, fun _ _ => trivial⟩ fun _ =>
    makes_orFail plain fun _ _ => makes_writeJSON plain (by decide) rfl

theorem makes_entries (own : ∀ id afterID limit, kind (.entries id afterID limit)) :
    Makes sound kind (Handler.entries d r) :=
  makes_orFail plain fun id _ => makes_orFail plain fun afterID _ =>
      makes_orFail plain fun limit _ =>
    Makes.bind ⟨own id afterID limit, fun _ _ => trivial⟩ fun _ =>
      makes_orFail plain fun _ _ => makes_writeJSON plain (by decide) rfl

/-- Opening an account calls one service, and alone writes a status of 201 itself. -/
theorem makes_createAccount (own : ∀ ownerID, kind (.create ownerID))
    (created : kind (.writeHeader 201)) : Makes sound kind (Handler.createAccount d r) :=
  makes_orFail plain fun ownerID _ => Makes.bind ⟨own ownerID, fun _ _ => trivial⟩ fun _ =>
    makes_orFail plain fun _ _ => makes_writeRaw plain created (plain (.write (.account _)) rfl)

section Moved

variable (counts : ∀ endpoint replayed, kind (.inc (.transfer endpoint replayed)))
  (own : ∀ cmd, kind (.transfer cmd))
  (fits : ∀ cmd res, sound (.transfer cmd) (.ok (.ok res)) →
    kind (.writeHeader res.response.statusCode))
  (stores : ∀ body, kind (.write (.stored body)))
include counts own fits stores

/-- From the call of the service on. -/
theorem makes_moved (op : String) (cmd : TransferCommand) :
    Makes sound kind (transfer cmd >>= Handler.writeMoved d r op) := by
  refine ⟨own cmd, fun reply good => ?_⟩
  cases reply with
  | error value => trivial
  | ok res =>
    refine makes_orFail plain fun res same => (Makes.call (counts op res.replayed)).bind fun _ => ?_
    subst same
    have answered :
        Makes sound kind (writeRaw res.response.statusCode (.stored res.response.body)) :=
      makes_writeRaw plain (fits cmd res good) (stores _)
    unfold writeResult
    split
    · exact (makes_setHeader plain (by decide) _).bind fun _ => answered
    · exact answered

theorem makes_deposit : Makes sound kind (Handler.deposit d r) :=
  makes_orFail plain fun _ _ => makes_moved plain counts own fits stores _ _

theorem makes_withdraw : Makes sound kind (Handler.withdraw d r) :=
  makes_orFail plain fun _ _ => makes_moved plain counts own fits stores _ _

theorem makes_transfer : Makes sound kind (Handler.transfer d r) :=
  makes_orFail plain fun _ _ => makes_moved plain counts own fits stores _ _

end Moved

/-! ### Middleware and router -/

/-- The limiter reserves, asks for the delay and cancels; the rest is what it guards. -/
theorem makes_rateLimit {next : HandlerFunc} (reserve : kind (.reserve r.scope))
    (delay : ∀ res, kind (.delay res)) (cancel : ∀ res, kind (.cancel r.scope res))
    (rest : Makes sound kind (next r)) : Makes sound kind (rateLimit next r) := by
  refine (Makes.call reserve).bind fun res => ?_
  split
  · exact rest
  · refine (Makes.call (delay res)).bind fun wait => ?_
    split
    · exact (Makes.call (cancel res)).bind fun _ =>
          (makes_setHeader plain (by decide) _).bind fun _ =>
        makes_writeJSON plain (by decide) rfl
    · exact rest

/-- The secured routes: who it is, then the limiter, then the route. -/
theorem makes_secured {next : HandlerFunc} (reserve : ∀ scope, kind (.reserve scope))
    (delay : ∀ res, kind (.delay res)) (cancel : ∀ scope res, kind (.cancel scope res))
    (rest : ∀ context, context.requestID = r.context.requestID →
      Makes sound kind (next { r with context })) : Makes sound kind (secured d next r) := by
  have limited : ∀ scope, Makes sound kind ((if d.limiter.isSome then rateLimit next else next)
      { r with context := { r.context with scope := some scope } }) := by
    intro scope
    split
    · exact makes_rateLimit (r := { r with context.scope := some scope }) plain (reserve _) delay
        (cancel _) (rest _ rfl)
    · exact rest _ rfl
  unfold secured apiKeyAuth
  split
  · exact limited .write
  · split
    · exact limited .read
    · exact makes_writeJSON plain (by decide) rfl

theorem makes_requireWriteScope {next : HandlerFunc} (rest : Makes sound kind (next r)) :
    Makes sound kind (requireWriteScope next r) := by
  unfold requireWriteScope
  split
  · exact rest
  · exact makes_writeJSON plain (by decide) rfl

/-- What is left is one case for each route. -/
theorem makes_routeHTTP (routed : ∀ route ∈ routes d, route.method = r.method →
      (capture route.segments r.path).isSome → ∀ context, context.requestID = r.context.requestID →
        Makes sound kind (route.handler { r with context })) :
    Makes sound kind (routeHTTP d r) := by
  rcases routeHTTP_cases d r with ⟨route, mem, id, method, captured, eq⟩ | eq
  · rw [eq]
    exact routed route mem method (Option.isSome_of_eq_some captured) _ rfl
  · rw [eq]
    exact makes_unrouted plain _ _ _ _

end Handlers

/-- The chain around the router. -/
theorem makes_newRouter {sound : (o : Op) → o.Reply → Prop} {kind : Op → Prop}
    (chained : ∀ o : Op, o.Chained → kind o) {d : Deps} {r : Request}
    (inner : ∀ context, Makes sound kind (routeHTTP d { r with context })) :
    Makes sound kind (newRouter d r) := by
  have plain : ∀ o : Op, o.Plain "" → kind o := fun o plain => chained o plain.chained
  have metered :
      ∀ context, Makes sound kind (httpMetrics (routePattern d) (routeHTTP d) { r with context }) :=
    fun context => (inner context).recording.bind fun _ =>
      .call (chained (.inc (.request _ _ _)) trivial)
  have recovered : ∀ context,
      Makes sound kind (recoverer (httpMetrics (routePattern d) (routeHTTP d))
        { r with context }) := by
    intro context
    refine Prog.Only.bind (metered context) fun outcome => ?_
    split
    · trivial
    · trivial
    · exact (Makes.call (chained (.log _) trivial)).bind fun _ =>
        makes_writeJSON plain (by decide) rfl
  refine Makes.bind ?_ fun id => (Makes.call (chained (.setHeader _ _) trivial)).bind fun _ => ?_
  · unfold correlationID
    split
    · exact (Makes.call (chained .newUUID trivial)).map _
    · exact .pure _
  · exact (recovered _).recording.bind fun _ => .call (chained (.log _) trivial)

end WalletGo.Http
