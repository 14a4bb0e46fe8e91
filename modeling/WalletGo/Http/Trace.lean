import WalletGo.Http.Calls

/-!
The calls of a handler that has come to its end.

`Ends handler events outcome` says which calls a handler made, with which replies, until it
returned or panicked. A piece without a choice makes the same calls whatever it is told
(`Emits`); the rest is taken apart by inversion, from the outside in:

* `newRouter_ends`: the correlation id, then what the router did, then the lines and the
  increments that close the request (`closing`);
* `routeHTTP_ends`: a handler that moves money calls `Transfer` once, with the command its
  request spells out, and then answers; no other handler calls it or counts a transfer.
-/

namespace WalletGo.Http

open Txn (Prog Event)

def Ends {α : Type} (handler : Web α) (events : List (Event sig)) (outcome : Except Panic α) :
    Prop :=
  Prog.Returns (S := sig) handler.run events outcome

section Ends

variable {α β : Type} {events : List (Event sig)}

/-- A handler in two parts ends in the second, or panics in the first. -/
theorem ends_bind {first : Web α} {next : α → Web β} {outcome : Except Panic β} :
    Ends (first >>= next) events outcome ↔
      (∃ value before rest, events = before ++ rest ∧ Ends first before (.ok value) ∧
        Ends (next value) rest outcome) ∨
      ∃ panic, outcome = .error panic ∧ Ends first events (.error panic) := by
  refine Prog.returns_bind.trans ?_
  constructor
  · rintro ⟨value, before, rest, rfl, head, tail⟩
    cases value with
    | ok value => exact .inl ⟨value, before, rest, rfl, head, tail⟩
    | error panic =>
      obtain ⟨rfl, rfl⟩ := tail
      exact .inr ⟨panic, rfl, by rwa [List.append_nil]⟩
  · rintro (⟨value, before, rest, rfl, head, tail⟩ | ⟨panic, rfl, head⟩)
    · exact ⟨.ok value, before, rest, rfl, head, tail⟩
    · exact ⟨.error panic, events, [], (List.append_nil _).symm, head, rfl, rfl⟩

theorem ends_call {o : Op} {reply : o.Reply → Except Panic α} {outcome : Except Panic α} :
    Ends (ExceptT.mk (.op o fun answer => .ret (reply answer))) events outcome ↔
      ∃ answer, events = [⟨o, answer⟩] ∧ outcome = reply answer := by
  constructor
  · rintro ⟨answer, _, rfl, rfl, rfl⟩
    exact ⟨answer, rfl, rfl⟩
  · rintro ⟨answer, rfl, rfl⟩
    exact ⟨answer, [], rfl, rfl, rfl⟩

theorem ends_ask {o : Op} {next : o.Reply → Web α} {outcome : Except Panic α} :
    Ends (ask o >>= next) events outcome ↔
      ∃ reply rest, events = ⟨o, reply⟩ :: rest ∧ Ends (next reply) rest outcome := Iff.rfl

/-- The calls made are of the kind the handler makes. -/
theorem Makes.ends {sound : (o : Op) → o.Reply → Prop} {kind : Op → Prop} {handler : Web α}
    {outcome : Except Panic α} (makes : Makes sound kind handler)
    (ends : Ends handler events outcome) (sounds : ∀ e ∈ events, sound e.1 e.2) :
    ∀ e ∈ events, kind e.1 := by
  have returned : ∀ {program : Prog sig (Except Panic α)} {events : List (Event sig)},
      program.Only sound kind → program.Returns events outcome → (∀ e ∈ events, sound e.1 e.2) →
        ∀ e ∈ events, kind e.1 := by
    intro program
    induction program with
    | ret value =>
      rintro events - ⟨rfl, -⟩ - e ⟨⟩
    | op o next ih =>
      rintro _ ⟨own, rest⟩ ⟨reply, events, rfl, returned⟩ sounds e mem
      have fits := sounds _ List.mem_cons_self
      rcases List.mem_cons.mp mem with rfl | mem
      · exact own
      · exact ih reply (rest reply fits) returned
          (fun e mem => sounds e (List.mem_cons_of_mem _ mem)) e mem
  exact returned makes ends sounds

end Ends

/-! ### Pieces without a choice -/

/-- Whatever it is told, the piece makes these calls and returns. -/
def Emits (handler : Web Unit) (emitted : List (Event sig)) : Prop :=
  ∀ events outcome, Ends handler events outcome ↔ events = emitted ∧ outcome = .ok ()

theorem Emits.ends {handler : Web Unit} {emitted events : List (Event sig)}
    {outcome : Except Panic Unit} (emits : Emits handler emitted)
    (ended : Ends handler events outcome) : events = emitted ∧ outcome = .ok () :=
  (emits events outcome).mp ended

theorem Emits.bind {first : Web Unit} {next : Unit → Web Unit} {before rest : List (Event sig)}
    (head : Emits first before) (tail : Emits (next ()) rest) :
    Emits (first >>= next) (before ++ rest) := by
  intro events outcome
  rw [ends_bind]
  constructor
  · rintro (⟨_, _, _, rfl, ends, ends'⟩ | ⟨panic, rfl, ends⟩)
    · obtain ⟨rfl, -⟩ := head.ends ends
      obtain ⟨rfl, rfl⟩ := tail.ends ends'
      exact ⟨rfl, rfl⟩
    · cases (head.ends ends).2
  · rintro ⟨rfl, rfl⟩
    exact .inl ⟨(), before, rest, rfl, (head _ _).mpr ⟨rfl, rfl⟩, (tail _ _).mpr ⟨rfl, rfl⟩⟩

theorem emits_setHeader (name value : String) :
    Emits (setHeader name value) [⟨.setHeader name value, ()⟩] := by
  intro events outcome
  exact ends_call.trans ⟨fun ⟨_, made, ended⟩ => ⟨made, ended⟩,
    fun ⟨made, ended⟩ => ⟨(), made, ended⟩⟩

theorem emits_writeHeader {status : Int} (valid : 100 ≤ status ∧ status ≤ 999) :
    Emits (writeHeader status) [⟨.writeHeader status, ()⟩] := by
  intro events outcome
  refine ends_call.trans ⟨fun ⟨_, made, ended⟩ => ⟨made, ?_⟩, fun ⟨made, ended⟩ => ⟨(), made, ?_⟩⟩
  · rwa [if_pos valid] at ended
  · rwa [if_pos valid]

theorem emits_write (body : Document) : Emits (write body) [⟨.write body, ()⟩] := by
  intro events outcome
  exact ends_call.trans ⟨fun ⟨_, made, ended⟩ => ⟨made, ended⟩,
    fun ⟨made, ended⟩ => ⟨(), made, ended⟩⟩

theorem emits_inc (series : Series) : Emits (inc series) [⟨.inc series, ()⟩] := by
  intro events outcome
  exact ends_call.trans ⟨fun ⟨_, made, ended⟩ => ⟨made, ended⟩,
    fun ⟨made, ended⟩ => ⟨(), made, ended⟩⟩

theorem emits_log (line : Line) : Emits (log line) [⟨.log line, ()⟩] := by
  intro events outcome
  exact ends_call.trans ⟨fun ⟨_, made, ended⟩ => ⟨made, ended⟩,
    fun ⟨made, ended⟩ => ⟨(), made, ended⟩⟩

def sends (status : Int) (body : Document) : List (Event sig) :=
  [⟨.setHeader "Content-Type" "application/json", ()⟩, ⟨.writeHeader status, ()⟩, ⟨.write body, ()⟩]

theorem emits_writeRaw {status : Int} (valid : 100 ≤ status ∧ status ≤ 999) (body : Document) :
    Emits (writeRaw status body) (sends status body) :=
  (emits_setHeader _ _).bind ((emits_writeHeader valid).bind (emits_write body))

theorem emits_setHeaders (headers : List (String × String)) :
    Emits (setHeaders headers) (headers.map fun header => ⟨.setHeader header.1 header.2, ()⟩) := by
  induction headers with
  | nil =>
    intro events outcome
    exact Iff.rfl
  | cons header rest ih => exact (emits_setHeader _ _).bind ih

theorem emits_unrouted (mux : Mux) (routes : List Route) (method : String) (path : List String) :
    Emits (mux.unrouted routes method path).write
      ((mux.unrouted routes method path).headers.map
        (fun header => ⟨.setHeader header.1 header.2, ()⟩) ++
        [⟨.writeHeader (mux.unrouted routes method path).status, ()⟩,
          ⟨.write (.text (mux.unrouted routes method path).text), ()⟩]) := by
  have valid : 100 ≤ (mux.unrouted routes method path).status ∧
      (mux.unrouted routes method path).status ≤ 999 := by
    have status := mux.status routes method path
    omega
  exact (emits_setHeaders _).bind ((emits_writeHeader valid).bind (emits_write _))

def fails (d : Deps) (context : Context) (err : GoError) : List (Event sig) :=
  let response := WalletGo.writeError d.texts err
  ⟨.inc (.error context.pattern response.code), ()⟩ ::
    ((if 500 ≤ response.status then [⟨.log (.requestFailed context.requestID err), ()⟩] else []) ++
      sends response.status (.error response.code response.message))

/-- An error is counted, logged when it is the server's, and answered. -/
theorem emits_writeError (d : Deps) (r : Request) (err : GoError) :
    Emits (Handler.writeError d r err) (fails d r.context err) := by
  obtain ⟨lower, upper⟩ := statusFor_range err
  have valid : (100 : Int) ≤ (WalletGo.writeError d.texts err).status ∧
      ((WalletGo.writeError d.texts err).status : Int) ≤ 999 := by
    change (100 : Int) ≤ (statusFor err).1 ∧ ((statusFor err).1 : Int) ≤ 999
    omega
  refine Emits.bind (emits_inc _) ?_
  split
  · exact (emits_log _).bind (emits_writeRaw valid _)
  · exact emits_writeRaw valid _

def moves (op : String) (res : TransferResult) : List (Event sig) :=
  ⟨.inc (.transfer op res.replayed), ()⟩ ::
    ((if res.replayed then [⟨.setHeader "Idempotent-Replayed" "true", ()⟩] else []) ++
      sends res.response.statusCode (.stored res.response.body))

/-- A result is counted and answered as it is stored. -/
theorem emits_moves (op : String) {res : TransferResult}
    (valid : 100 ≤ res.response.statusCode ∧ res.response.statusCode ≤ 999) :
    Emits (do inc (.transfer op res.replayed); writeResult res) (moves op res) := by
  refine Emits.bind (emits_inc _) ?_
  unfold writeResult
  split
  · exact (emits_setHeader _ _).bind (emits_writeRaw valid _)
  · exact emits_writeRaw valid _

/-! ### Recorders -/

def recorded (events : List (Event sig)) : Int :=
  ((events.map (·.1)).foldl StatusRecorder.see .new).status

/-- The recorder sees the operations of the program and changes none. -/
theorem returns_observed {α : Type} {program : Prog sig α} {rec : StatusRecorder}
    {events : List (Event sig)} {outcome : α × StatusRecorder} :
    (observed program rec).Returns events outcome ↔
      program.Returns events outcome.1 ∧ outcome.2 = (events.map (·.1)).foldl
        StatusRecorder.see rec := by
  induction program generalizing rec events with
  | ret value =>
    constructor
    · rintro ⟨rfl, rfl⟩
      exact ⟨⟨rfl, rfl⟩, rfl⟩
    · rintro ⟨⟨rfl, same⟩, same'⟩
      exact ⟨rfl, Prod.ext same same'⟩
  | op o next ih =>
    constructor
    · rintro ⟨reply, rest, rfl, returned⟩
      obtain ⟨returned, same⟩ := (ih reply).mp returned
      exact ⟨⟨reply, rest, rfl, returned⟩, same⟩
    · rintro ⟨⟨reply, rest, rfl, returned⟩, same⟩
      exact ⟨reply, rest, rfl, (ih reply).mpr ⟨returned, same⟩⟩

theorem ends_recording {handler : Web Unit} {events : List (Event sig)}
    {outcome : Except Panic Int} : Ends (recording handler) events outcome ↔
      ∃ inner, Ends handler events inner ∧ outcome = inner.map fun () => recorded events := by
  refine Prog.returns_bind.trans ?_
  constructor
  · rintro ⟨value, before, rest, rfl, head, rfl, rfl⟩
    obtain ⟨returned, same⟩ := returns_observed.mp head
    rw [List.append_nil]
    exact ⟨value.1, returned, by rw [same]; rfl⟩
  · rintro ⟨inner, ends, rfl⟩
    exact ⟨(inner, _), events, [], (List.append_nil _).symm,
      returns_observed.mpr ⟨ends, rfl⟩, rfl, rfl⟩

/-! ### The chain around the router -/

/-- The calls that give a request its id and tell the client. -/
inductive Opens (d : Deps) (r : Request) : String → List (Event sig) → Prop where
  | kept (sane : r.requestID ≠ "" ∧ r.requestID.utf8ByteSize ≤ maxRequestIDLength) :
      Opens d r r.requestID [⟨.setHeader "X-Request-ID" r.requestID, ()⟩]
  | generated (insane : r.requestID = "" ∨ maxRequestIDLength < r.requestID.utf8ByteSize)
      (id : UUID) :
      Opens d r (d.uuids.format id) [⟨.newUUID, id⟩,
        ⟨.setHeader "X-Request-ID" (d.uuids.format id), ()⟩]

def routeLabel (d : Deps) (r : Request) : String :=
  if routePattern d r = "" then "unmatched" else routePattern d r

def counts (d : Deps) (r : Request) (inner : List (Event sig)) :
    Except Panic Unit → List (Event sig)
  | .ok () => [⟨.inc (.request r.method (routeLabel d r) (recorded inner)), ()⟩]
  | .error _ => []

def rescues (id : String) : Except Panic Unit → List (Event sig)
  | .error (.other value) =>
    ⟨.log (.panicRecovered id (.other value)), ()⟩ :: sends 500
      (.error "internal_error" (statusText 500))
  | _ => []

/-- What is left of a panic at the end of the chain. -/
def surfaced : Except Panic Unit → Except Panic Unit
  | .error .abortHandler => .error .abortHandler
  | _ => .ok ()

def closes (r : Request) (id : String) (inner : List (Event sig)) :
    Except Panic Unit → List (Event sig)
  | .ok () => [⟨.log (.request id r.method r.pathText (recorded inner)), ()⟩]
  | .error _ => []

/-- `httpMetrics` counts the requests that return. -/
theorem ends_httpMetrics {d : Deps} {r : Request} {events : List (Event sig)}
    {outcome : Except Panic Unit}
    (ends : Ends (httpMetrics (routePattern d) (routeHTTP d) r) events outcome) :
    ∃ inner, Ends (routeHTTP d r) inner outcome ∧ events = inner ++ counts d r inner outcome := by
  rcases ends_bind.mp ends with ⟨status, inner, rest, rfl, watched, counted⟩ | ⟨panic, rfl, watched⟩
  · obtain ⟨_ | _, ended, same⟩ := ends_recording.mp watched
    · cases same
    · cases same
      obtain ⟨rfl, rfl⟩ := (emits_inc _).ends counted
      exact ⟨inner, ended, rfl⟩
  · obtain ⟨_ | _, ended, same⟩ := ends_recording.mp watched
    · cases same
      exact ⟨events, ended, (List.append_nil _).symm⟩
    · cases same

/-- `recoverer` answers for a panic. -/
theorem ends_recoverer {next : HandlerFunc} {r : Request} {events : List (Event sig)}
    {outcome : Except Panic Unit} (ends : Ends (recoverer next r) events outcome) :
    ∃ inner result, Ends (next r) inner result ∧ outcome = surfaced result ∧
      events = inner ++ rescues r.context.requestID result := by
  obtain ⟨result, inner, rest, rfl, ended, after⟩ := Prog.returns_bind.mp ends
  refine ⟨inner, result, ended, ?_⟩
  match result with
  | .ok () =>
    obtain ⟨rfl, rfl⟩ := after
    exact ⟨rfl, rfl⟩
  | .error .abortHandler =>
    obtain ⟨rfl, rfl⟩ := after
    exact ⟨rfl, rfl⟩
  | .error (.other value) =>
    obtain ⟨rfl, rfl⟩ := ((emits_log _).bind (emits_writeRaw (by decide) _)).ends after
    exact ⟨rfl, rfl⟩

/-- `accessLog` logs the requests that return. -/
theorem ends_accessLog {next : HandlerFunc} {r : Request} {events : List (Event sig)}
    {outcome : Except Panic Unit} (ends : Ends (accessLog next r) events outcome) :
    ∃ inner, Ends (next r) inner outcome ∧ events = inner ++
      closes r r.context.requestID inner outcome := by
  rcases ends_bind.mp ends with ⟨status, inner, rest, rfl, watched, logged⟩ | ⟨panic, rfl, watched⟩
  · obtain ⟨_ | _, ended, same⟩ := ends_recording.mp watched
    · cases same
    · cases same
      obtain ⟨rfl, rfl⟩ := (emits_log _).ends logged
      exact ⟨inner, ended, rfl⟩
  · obtain ⟨_ | _, ended, same⟩ := ends_recording.mp watched
    · cases same
      exact ⟨events, ended, (List.append_nil _).symm⟩
    · cases same

/-- `requestID` comes first and sets the identifier. -/
theorem ends_requestID {d : Deps} {next : HandlerFunc} {r : Request} {events : List (Event sig)}
    {outcome : Except Panic Unit} (ends : Ends (requestID d next r) events outcome) :
    ∃ id first rest, Opens d r id first ∧ Ends (next { r with context.requestID := id })
      rest outcome ∧ events = first ++ rest := by
  unfold requestID correlationID at ends
  split at ends
  · next insane =>
    obtain ⟨id, _, rfl, _, rest, rfl, ended⟩ := ends
    exact ⟨d.uuids.format id, _, rest, .generated insane id, ended, rfl⟩
  · next sane =>
    obtain ⟨_, rest, rfl, ended⟩ := ends
    rw [not_or, Nat.not_lt] at sane
    exact ⟨r.requestID, _, rest, .kept sane, ended, rfl⟩

/-- The calls of the router, and of the chain after them. -/
def closing (d : Deps) (r : Request) (id : String) (inner : List (Event sig))
    (result : Except Panic Unit) : List (Event sig) :=
  let handled := inner ++ counts d r inner result ++ rescues id result
  handled ++ closes r id handled (surfaced result)

/-- A request as its route and what the chain adds around it. -/
theorem newRouter_ends {d : Deps} {r : Request} {events : List (Event sig)}
    {outcome : Except Panic Unit} (ends : Ends (newRouter d r) events outcome) :
    ∃ id first inner result, Opens d r id first ∧
      Ends (routeHTTP d { r with context.requestID := id }) inner result ∧
        outcome = surfaced result ∧
      events = first ++ closing d r id inner result := by
  obtain ⟨id, first, _, opens, accessed, rfl⟩ := ends_requestID ends
  obtain ⟨_, recovered, rfl⟩ := ends_accessLog accessed
  obtain ⟨_, result, metered, rfl, rfl⟩ := ends_recoverer recovered
  obtain ⟨inner, routed, rfl⟩ := ends_httpMetrics metered
  exact ⟨id, first, inner, result, opens, routed, rfl, rfl⟩

/-! ### The router -/

/-- No money is moved, and neither the counters nor the client are told so. -/
def Op.Still : Op → Prop
  | .transfer _ | .inc (.transfer ..) => False
  | .write body => body.isStored = false
  | _ => True

/-- The calls of a rate limiter that lets a request pass. -/
def Op.Limiting : Op → Prop
  | .reserve _ | .delay _ => True
  | _ => False

theorem Op.Limiting.still {o : Op} (limiting : o.Limiting) : o.Still := by
  cases o <;> trivial

theorem Op.Plain.still {requestID : String} {o : Op} (plain : o.Plain requestID) : o.Still := by
  cases o with
  | inc series => cases series <;> trivial
  | _ => first | exact plain | trivial

theorem Makes.silent {handler : Web Unit} {events : List (Event sig)} {outcome : Except Panic Unit}
    (makes : Makes AnyReply Op.Still handler) (ends : Ends handler events outcome) :
    ∀ e ∈ events, e.1.Still :=
  makes.ends ends fun _ _ => trivial

/-- What `Transfer` returns carries a response that was stored with a transfer. -/
def Stored : (o : Op) → o.Reply → Prop
  | .transfer _, .ok (.ok res) => ∃ id, res.response = createdResponse id
  | _, _ => True

/-- The movement of money a request asks for, with the endpoint it is counted under. -/
def Request.movement (d : Deps) (r : Request) : Option (String × TransferCommand) :=
  if r.method = "POST" ∧ r.apiKey = d.apiKey then
    let scope := scopeFor d.sha256 d.apiKey
    match r.path with
    | ["transfers"] =>
      (handleTransfer d.uuids d.sha256 scope r.idempotencyKey r.body).toOption.map fun cmd =>
        ("transfers", cmd)
    | ["accounts", id, "deposits"] =>
      (handleCashOp d.uuids d.sha256 scope r.idempotencyKey "deposits" id.toList
          r.body).toOption.map fun cmd =>
        ("deposits", depositCommand d.systemAccountID cmd)
    | ["accounts", id, "withdrawals"] =>
      (handleCashOp d.uuids d.sha256 scope r.idempotencyKey "withdrawals" id.toList
          r.body).toOption.map fun cmd =>
        ("withdrawals", withdrawCommand d.systemAccountID cmd)
    | _ => none
  else none

def answers (d : Deps) (context : Context) (op : String) :
    Except Panic (Except GoError TransferResult) → List (Event sig)
  | .error _ => []
  | .ok (.error err) => fails d context err
  | .ok (.ok res) => moves op res

/-- What a request has the router do, as far as money goes. -/
inductive Routed (d : Deps) (r : Request) : List (Event sig) → Except Panic Unit → Prop where
  | still {events : List (Event sig)} {outcome : Except Panic Unit}
      (still : ∀ e ∈ events, e.1.Still) :
      Routed d r events outcome
  | moved {before : List (Event sig)} {op : String} {cmd : TransferCommand}
      (asked : r.movement d = some (op, cmd)) (limited : ∀ e ∈ before, e.1.Limiting)
      (reply : (Op.transfer cmd).Reply) {context : Context}
      (same : context.requestID = r.context.requestID) :
      Routed d r (before ++ ⟨.transfer cmd, reply⟩ :: answers d context op reply)
      (reply.map fun _ => ())

theorem ends_orFail {α : Type} {d : Deps} {r : Request} {result : Except GoError α}
    {next : α → Web Unit} {events : List (Event sig)} {outcome : Except Panic Unit}
    (ends : Ends (Handler.orFail d r result next) events outcome) :
    (∃ err, result = .error err ∧ events = fails d r.context err ∧ outcome = .ok ()) ∨
      ∃ value, result = .ok value ∧ Ends (next value) events outcome := by
  cases result with
  | error err => exact .inl ⟨err, rfl, (emits_writeError d r err).ends ends⟩
  | ok value => exact .inr ⟨value, rfl, ends⟩

theorem fails_still (d : Deps) (context : Context) (err : GoError) :
    ∀ e ∈ fails d context err, e.1.Still := by
  have plain :
      Makes AnyReply Op.Still (Handler.writeError d ⟨"", [], "", "", "", "", "", [],
        context⟩ err) :=
    makes_writeError (fun _ => Op.Plain.still) err
  exact plain.silent ((emits_writeError _ _ err _ _).mpr ⟨rfl, rfl⟩)

/-- From the call of the service on. -/
theorem ends_moved {d : Deps} {r : Request} {op : String} {cmd : TransferCommand}
    {events : List (Event sig)} {outcome : Except Panic Unit}
    (sounds : ∀ e ∈ events, Stored e.1 e.2)
    (ends : Ends (transfer cmd >>= Handler.writeMoved d r op) events outcome) :
    ∃ reply, events = ⟨.transfer cmd, reply⟩ :: answers d r.context op reply ∧
      outcome = reply.map fun _ => () := by
  rcases ends_bind.mp ends with ⟨res, _, rest, rfl, called, answered⟩ | ⟨panic, rfl, called⟩
  · obtain ⟨_, rfl, rfl⟩ := ends_call.mp called
    rcases ends_orFail answered with ⟨err, rfl, rfl, rfl⟩ | ⟨res, rfl, answered⟩
    · exact ⟨_, rfl, rfl⟩
    · obtain ⟨id, created⟩ := sounds _ List.mem_cons_self
      have valid : 100 ≤ res.response.statusCode ∧ res.response.statusCode ≤ 999 := by
        rw [created]
        change (100 : Int) ≤ 201 ∧ (201 : Int) ≤ 999
        decide
      obtain ⟨rfl, rfl⟩ := (emits_moves op valid).ends answered
      exact ⟨_, rfl, rfl⟩
  · obtain ⟨_, rfl, rfl⟩ := ends_call.mp called
    exact ⟨_, rfl, rfl⟩

/-- A handler behind the limiter. -/
theorem ends_rateLimit {next : HandlerFunc} {r : Request} {events : List (Event sig)}
    {outcome : Except Panic Unit} (ends : Ends (rateLimit next r) events outcome) :
    (∀ e ∈ events, e.1.Still) ∨
      ∃ before rest, events = before ++ rest ∧ (∀ e ∈ before, e.1.Limiting) ∧
        Ends (next r) rest outcome := by
  obtain ⟨res, rest, rfl, passed⟩ := ends_ask.mp ends
  split at passed
  · refine .inr ⟨[⟨.reserve r.scope, res⟩], rest, rfl, ?_, passed⟩
    simp [Op.Limiting]
  obtain ⟨delay, rest, rfl, delayed⟩ := ends_ask.mp passed
  split at delayed
  · refine .inl ?_
    have plain : ∀ o : Op, o.Plain "" → o.Still := fun _ => Op.Plain.still
    have refused : Makes AnyReply Op.Still (do
        let () ← ask (.cancel r.scope res)
        setHeader "Retry-After" (toString (delay.floor + 1))
        writeJSON 429 (.error "rate_limited" "rate limit exceeded, retry later")) :=
      (Makes.call trivial).bind fun _ => (makes_setHeader plain (by decide) _).bind fun _ =>
        makes_writeJSON plain (by decide) rfl
    have rest := refused.silent delayed
    simpa [Op.Still] using rest
  · refine .inr ⟨[⟨.reserve r.scope, res⟩, ⟨.delay res, delay⟩], rest, rfl, ?_, delayed⟩
    simp [Op.Limiting]

/-- A handler behind `apiKeyAuth`. -/
theorem ends_secured {d : Deps} {next : HandlerFunc} {r : Request} {events : List (Event sig)}
    {outcome : Except Panic Unit} (ends : Ends (secured d next r) events outcome) :
    (∀ e ∈ events, e.1.Still) ∨ ∃ before rest scope, events = before ++ rest ∧
    (∀ e ∈ before, e.1.Limiting) ∧
      (scope = .write → r.apiKey = d.apiKey) ∧
      Ends (next { r with context.scope := some scope }) rest outcome := by
  have limited : ∀ {scope : ApiKeyScope}, (scope = .write → r.apiKey = d.apiKey) →
      Ends ((if d.limiter.isSome then rateLimit next else next)
        { r with context.scope := some scope }) events outcome →
      (∀ e ∈ events, e.1.Still) ∨ ∃ before rest scope, events = before ++ rest ∧
        (∀ e ∈ before, e.1.Limiting) ∧ (scope = .write → r.apiKey = d.apiKey) ∧
          Ends (next { r with context.scope := some scope }) rest outcome := by
    intro scope key passed
    split at passed
    · rcases ends_rateLimit passed with still | ⟨before, rest, made, limiting, ended⟩
      · exact .inl still
      · exact .inr ⟨before, rest, scope, made, limiting, key, ended⟩
    · exact .inr ⟨[], events, scope, rfl, by rintro e ⟨⟩, key, passed⟩
  unfold secured apiKeyAuth at ends
  split at ends
  · next write => exact limited (fun _ => write) ends
  · split at ends
    · exact limited (by rintro ⟨⟩) ends
    · have plain : ∀ o : Op, o.Plain "" → o.Still := fun _ => Op.Plain.still
      exact .inl ((makes_writeJSON plain (by decide) rfl).silent ends)

/-- A handler that moves no money, behind `apiKeyAuth`. -/
theorem Makes.secured {d : Deps} {next : HandlerFunc} {r : Request} {events : List (Event sig)}
    {outcome : Except Panic Unit} (ends : Ends (secured d next r) events outcome)
    (still : ∀ context, Makes AnyReply Op.Still (next { r with context })) :
    ∀ e ∈ events, e.1.Still := by
  rcases ends_secured ends with silent | ⟨before, rest, scope, rfl, limiting, -, ended⟩
  · exact silent
  · have silent := (still _).silent ended
    intro e mem
    rcases List.mem_append.mp mem with first | last
    · exact (limiting e first).still
    · exact silent e last

/-- A handler behind `requireWriteScope`, once it has been let through. -/
theorem ends_writing {d : Deps} {next : HandlerFunc} {r : Request} {events : List (Event sig)}
    {outcome : Except Panic Unit}
    (ends : Ends (secured d (requireWriteScope next) r) events outcome) :
    (∀ e ∈ events, e.1.Still) ∨ ∃ before rest, events = before ++ rest ∧
    (∀ e ∈ before, e.1.Limiting) ∧
      r.apiKey = d.apiKey ∧ Ends (next { r with context.scope := some .write }) rest outcome := by
  rcases ends_secured ends with still | ⟨before, rest, scope, rfl, limiting, key, ended⟩
  · exact .inl still
  · unfold requireWriteScope at ended
    split at ended
    · next write =>
      obtain rfl : scope = .write := write
      exact .inr ⟨before, rest, rfl, limiting, key rfl, ended⟩
    · have plain : ∀ o : Op, o.Plain "" → o.Still := fun _ => Op.Plain.still
      have refused := (makes_writeJSON plain (by decide) rfl).silent ended
      refine .inl fun e mem => ?_
      rcases List.mem_append.mp mem with first | last
      · exact (limiting e first).still
      · exact refused e last

/-- A handler that reads a command and has it executed, behind `requireWriteScope`. -/
theorem Routed.moving {d : Deps} {r : Request} {α : Type} {handler : HandlerFunc}
    {context : Context} {events : List (Event sig)} {outcome : Except Panic Unit}
    (ends : Ends (secured d (requireWriteScope handler) { r with context }) events outcome)
    (sounds : ∀ e ∈ events, Stored e.1 e.2) (same : context.requestID = r.context.requestID)
    (op : String) (read : Request → Except GoError α) (command : α → TransferCommand)
    (shape : ∀ r', handler r' = Handler.orFail d r' (read r') fun value =>
      transfer (command value) >>= Handler.writeMoved d r' op)
    (asked : r.apiKey = d.apiKey → ∀ value,
      read { r with context := { context with scope := some .write } } = .ok value →
        r.movement d = some (op, command value)) :
    Routed d r events outcome := by
  rcases ends_writing ends with still | ⟨before, rest, rfl, limiting, key, ended⟩
  · exact .still still
  · rw [shape] at ended
    rcases ends_orFail ended with ⟨err, -, rfl, rfl⟩ | ⟨value, got, moved⟩
    · refine .still fun e mem => ?_
      rcases List.mem_append.mp mem with first | last
      · exact (limiting e first).still
      · exact fails_still _ _ _ e last
    · obtain ⟨reply, rfl, rfl⟩ :=
        ends_moved (fun e mem => sounds e (List.mem_append_right _ mem)) moved
      exact .moved (asked key value got) limiting reply same

theorem capture_action {action : String} {path : List String} {id : String}
    (fits : capture (account action) path = some id) : path = ["accounts", id, action] := by
  rcases path with _ | ⟨first, _ | ⟨second, _ | ⟨third, rest⟩⟩⟩
  · cases fits
  · simp [capture, account] at fits
  · simp [capture, account] at fits
  · simp only [capture, account] at fits
    split at fits
    · next accounts =>
      split at fits
      · next act =>
        cases rest with
        | nil =>
          cases fits
          rw [accounts, act]
        | cons _ _ => cases fits
      · cases fits
    · cases fits

/-- What the routes do as far as money goes. -/
theorem routeHTTP_ends {d : Deps} {r : Request} {events : List (Event sig)}
    {outcome : Except Panic Unit} (sounds : ∀ e ∈ events, Stored e.1 e.2)
    (ends : Ends (routeHTTP d r) events outcome) : Routed d r events outcome := by
  have plain : ∀ id, ∀ o : Op, o.Plain id → o.Still := fun _ _ => Op.Plain.still
  unfold routeHTTP at ends
  split at ends
  · next route id found =>
    obtain ⟨mem, method, captured⟩ := d.mux.found found
    simp only [routes, List.mem_cons, List.not_mem_nil, or_false] at mem
    rcases mem with rfl | rfl | rfl | rfl | rfl | rfl | rfl | rfl | rfl
    · exact .still ((makes_healthz (plain "") r).silent ends)
    · exact .still ((makes_readyz (plain "") r trivial).silent ends)
    · exact .still ((makes_metricsHandler (plain "") d r trivial).silent ends)
    · exact .still (Makes.secured ends fun _ => makes_balance (plain _) fun _ => trivial)
    · exact .still (Makes.secured ends fun _ => makes_entries (plain _) fun _ _ _ => trivial)
    · exact .still (Makes.secured ends fun context => makes_requireWriteScope (plain _)
        (makes_createAccount (plain _) (fun _ => trivial) trivial))
    · refine Routed.moving ends sounds rfl "deposits"
        (fun r' => handleCashOp d.uuids d.sha256 (scopeFor d.sha256 d.apiKey)
        r'.idempotencyKey "deposits" r'.context.id.toList r'.body)
        (depositCommand d.systemAccountID) (fun _ => rfl) ?_
      intro key cmd got
      simp only at got
      simp [Request.movement, ← method, key, capture_action captured, got, Except.toOption]
    · refine Routed.moving ends sounds rfl "withdrawals"
        (fun r' => handleCashOp d.uuids d.sha256 (scopeFor d.sha256 d.apiKey)
        r'.idempotencyKey "withdrawals" r'.context.id.toList r'.body)
        (withdrawCommand d.systemAccountID) (fun _ => rfl) ?_
      intro key cmd got
      simp only at got
      simp [Request.movement, ← method, key, capture_action captured, got, Except.toOption]
    · refine Routed.moving ends sounds rfl "transfers"
        (fun r' => handleTransfer d.uuids d.sha256 (scopeFor d.sha256 d.apiKey)
        r'.idempotencyKey r'.body) (fun cmd => cmd) (fun _ => rfl) ?_
      intro key cmd got
      simp only at got
      simp [Request.movement, ← method, key, capture_literal.mp (Option.isSome_of_eq_some captured),
        got, Except.toOption]
  · exact .still ((makes_unrouted (plain "") _ _ _ _).silent ends)

end WalletGo.Http
