import WalletGo.Http.Observed
import WalletGo.World.Reported

/-!
What a client may conclude from the answer to a request that moves money.

A handler calls `Transfer` at most once and answers what comes back (`newRouter_moved`).
With what the session of the call has committed this gives:

* `answer_tells_effect`: below 500, the answer tells. Status 201 without the replay header
  is the answer to a request whose own posting is in the tables; any other has posted
  nothing. From 500 on, the request has posted nothing or all of it.
* `answers_agree`: all requests with one key that are answered 201 get one body, and at
  most one of them without the replay header.
* `retry_answered`: a request whose key has been used finds the stored answer, once no
  fault gets in its way.
-/

namespace WalletGo.Http

open Txn (Prog Event runs)

/-! ### One request -/

/-- `wallet_transfers_total` -/
def Series.isTransfer : Series → Bool
  | .transfer .. => true
  | _ => false

/-- What the client gets for what `Transfer` has come back with. -/
inductive Answers (op : String) (events : List (Event sig)) :
    Except Panic (Except GoError TransferResult) → Except Panic Unit → Prop where
  | moved (res : TransferResult) (status : (responseOf events).status = res.response.statusCode)
      (body : (responseOf events).body = [.stored res.response.body])
      (header : ("Idempotent-Replayed", "true") ∈ (responseOf events).headers ↔ res.replayed = true)
      (counted : (increments events).filter Series.isTransfer = [.transfer op res.replayed]) :
      Answers op events (.ok (.ok res)) (.ok ())
  | failed (err : GoError) (status : (responseOf events).status = (statusFor err).1)
      (counted : (increments events).filter Series.isTransfer = []) :
      Answers op events (.ok (.error err)) (.ok ())
  | panicked (value : String) (status : (responseOf events).status = 500)
      (counted : (increments events).filter Series.isTransfer = []) :
      Answers op events (.error (.other value)) (.ok ())
  | aborted (unsent : (responseOf events).sent = none) (body : (responseOf events).body = [])
      (counted : (increments events).filter Series.isTransfer = []) :
      Answers op events (.error .abortHandler) (.error .abortHandler)

/-- The calls of `Transfer`, with what they came back with. -/
def asked (events : List (Event sig)) :
    List (TransferCommand × Except Panic (Except GoError TransferResult)) :=
  events.filterMap fun
    | ⟨.transfer cmd, reply⟩ => some (cmd, reply)
    | _ => none

theorem mem_asked {events : List (Event sig)} {cmd : TransferCommand}
    {reply : (Op.transfer cmd).Reply} :
    (cmd, reply) ∈ asked events ↔ ⟨.transfer cmd, reply⟩ ∈ events := by
  constructor
  · intro mem
    obtain ⟨⟨o, answer⟩, made, same⟩ := List.mem_filterMap.mp mem
    cases o with
    | transfer cmd' =>
      cases same
      exact made
    | _ => cases same
  · intro made
    exact List.mem_filterMap.mpr ⟨_, made, rfl⟩

@[simp] theorem asked_append (first last : List (Event sig)) :
    asked (first ++ last) = asked first ++ asked last :=
  List.filterMap_append

section Still

variable {events : List (Event sig)} (still : ∀ e ∈ events, e.1.Still)
include still

theorem asked_still : asked events = [] := by
  refine List.filterMap_eq_nil_iff.mpr fun ⟨o, reply⟩ mem => ?_
  cases o with
  | transfer cmd => exact (still _ mem).elim
  | _ => rfl

theorem increments_still : (increments events).filter Series.isTransfer = [] := by
  rw [List.filter_eq_nil_iff]
  intro series mem
  obtain ⟨⟨o, reply⟩, made, found⟩ := List.mem_filterMap.mp mem
  cases o with
  | inc series' =>
    cases found
    cases series with
    | transfer endpoint replayed => exact (still _ made).elim
    | _ => simp [Series.isTransfer]
  | _ => cases found

end Still

section Moved

variable {d : Deps} {r : Request} {id op : String} {first before : List (Event sig)}
  {cmd : TransferCommand}

theorem Opens.still (opens : Opens d r id first) : ∀ e ∈ first, e.1.Still := by
  cases opens <;> simp [Op.Still]

/-- After the router, the chain moves nothing. -/
theorem closing_eq (id : String) (inner : List (Event sig)) (result : Except Panic Unit) :
    ∃ last, closing d r id inner result = inner ++ last ∧ ∀ e ∈ last, e.1.Still := by
  match result with
  | .ok () =>
    rw [closing_ok]
    exact ⟨_, rfl, by simp [Op.Still]⟩
  | .error .abortHandler =>
    rw [closing_abort]
    exact ⟨[], (List.append_nil _).symm, by rintro e ⟨⟩⟩
  | .error (.other value) =>
    rw [closing_panic, List.append_assoc]
    exact ⟨_, rfl, by simp [Op.Still, rescues, sends, Document.isStored]⟩

/-- Up to the call of the service nothing has been sent or counted. -/
theorem Opens.asked (opens : Opens d r id first) (limited : ∀ e ∈ before, e.1.Limiting)
    (reply : (Op.transfer cmd).Reply) :
    responseOf (first ++ (before ++ [⟨.transfer cmd, reply⟩])) =
      ⟨[("X-Request-ID", id)], none, []⟩ ∧
      increments (first ++ (before ++ [⟨.transfer cmd, reply⟩])) = [] := by
  have asking : ∀ e ∈ before ++ [⟨.transfer cmd, reply⟩], e.1.Asking := by
    intro e mem
    rcases List.mem_append.mp mem with mem | mem
    · have limiting := limited e mem
      obtain ⟨o, answer⟩ := e
      cases o <;> trivial
    · cases List.mem_singleton.mp mem
      trivial
  rw [responseOf_asking asking, opens.response, increments_append, opens.silent.2,
    increments_asking asking]
  exact ⟨rfl, rfl⟩

/-- What `writeRaw` makes of a response of which nothing has been sent. -/
theorem sends_response (response : Response) (unsent : response.sent = none) (status : Int)
    (final : 200 ≤ status ∧ status ≤ 999) (body : Document) :
    ((sends status body).map (·.1)).foldl Response.see response =
      ⟨(response.setHeader "Content-Type" "application/json").header,
        some (status, (response.setHeader "Content-Type" "application/json").header),
          response.body ++ [body]⟩ := by
  have sent : ¬ ((status < 200 ∧ status ≠ 101) ∨ 999 < status) := by omega
  simp [sends, Response.see, Response.setHeader, Response.writeHeader, Response.write, unsent, sent]

/-- The response to a movement that has been made: the stored status and body. -/
theorem moves_response (id op : String) {res : TransferResult}
    (stored : ∃ id, res.response = createdResponse id) :
    let response := ((moves op res).map (·.1)).foldl Response.see ⟨[("X-Request-ID", id)], none, []⟩
    response.status = res.response.statusCode ∧ response.body = [.stored res.response.body] ∧
      (("Idempotent-Replayed", "true") ∈ response.headers ↔ res.replayed = true) := by
  obtain ⟨transferID, response, replayed⟩ := res
  obtain ⟨id', rfl⟩ : ∃ id, response = createdResponse id := stored
  have final : 200 ≤ (createdResponse id').statusCode ∧ (createdResponse id').statusCode ≤ 999 := by
    change (200 : Int) ≤ 201 ∧ (201 : Int) ≤ 999
    decide
  intro response
  cases replayed with
  | true =>
    have sent : response = _ :=
      sends_response ⟨[("X-Request-ID", id), ("Idempotent-Replayed", "true")], none,
        []⟩ rfl _ final _
    rw [sent]
    simp [Response.status, Response.headers, Response.setHeader]
  | false =>
    have sent : response = _ := sends_response ⟨[("X-Request-ID", id)], none, []⟩ rfl _ final _
    rw [sent]
    simp [Response.status, Response.headers, Response.setHeader]

theorem fails_response (context : Context) (err : GoError) :
    (((fails d context err).map (·.1)).foldl Response.see ⟨[("X-Request-ID", id)],
      none, []⟩).status =
      (statusFor err).1 := by
  obtain ⟨lower, upper⟩ := statusFor_range err
  have sent := fun body => sends_response ⟨[("X-Request-ID", id)], none, []⟩ rfl (statusFor err).1
    ⟨by omega, by omega⟩ body
  by_cases high : 500 ≤ (statusFor err).1 <;>
    simp only [fails, WalletGo.writeError, high, if_true, if_false, List.cons_append,
      List.nil_append, List.map_cons, List.foldl_cons, Response.see, sent] <;> rfl

theorem asked_answers (d : Deps) (context : Context) (op : String)
    (reply : Except Panic (Except GoError TransferResult)) :
    Http.asked (answers d context op reply) = [] := by
  match reply with
  | .error panic => rfl
  | .ok (.error err) => exact asked_still (fails_still d context err)
  | .ok (.ok ⟨_, _, true⟩) => rfl
  | .ok (.ok ⟨_, _, false⟩) => rfl

/-- The whole request, when the router has called `Transfer` and `last` is what the chain does after
it. -/
theorem Opens.moved (d : Deps) (op : String) (cmd : TransferCommand) (opens : Opens d r id first)
    (limited : ∀ e ∈ before, e.1.Limiting) (reply : (Op.transfer cmd).Reply) (context : Context)
    {last : List (Event sig)} (still : ∀ e ∈ last, e.1.Still) {events : List (Event sig)}
    (made : events = first ++
      (before ++ ⟨.transfer cmd, reply⟩ :: answers d context op reply ++ last)) :
    Http.asked events = [(cmd, reply)] ∧
      (increments events).filter Series.isTransfer =
        (increments (answers d context op reply)).filter Series.isTransfer ∧
      responseOf events = ((answers d context op reply ++ last).map (·.1)).foldl Response.see
        ⟨[("X-Request-ID", id)], none, []⟩ := by
  obtain ⟨unsent, uncounted⟩ := opens.asked limited reply
  have split : events = first ++ (before ++ [⟨.transfer cmd, reply⟩]) ++
      (answers d context op reply ++ last) := by
    simp [made]
  rw [split, responseOf_append, unsent, increments_append, uncounted]
  refine ⟨?_, ?_, rfl⟩
  · simp only [asked_append, asked_still opens.still,
      asked_still fun e mem => (limited e mem).still, asked_answers, asked_still still]
    rfl
  · simp only [increments_append, List.nil_append, List.filter_append, increments_still still,
      List.append_nil]

/-- The calls of a request that reaches `Transfer`. -/
abbrev movedEvents (d : Deps) (r : Request) (id op : String) (first before : List (Event sig))
    (cmd : TransferCommand) (context : Context) (reply : (Op.transfer cmd).Reply) :
    List (Event sig) :=
  first ++ closing d r id (before ++ ⟨.transfer cmd, reply⟩ :: answers d context op reply)
    (reply.map fun _ => ())

section Replies

variable (opens : Opens d r id first) (limited : ∀ e ∈ before, e.1.Limiting) (context : Context)
include opens limited

/-- A call that returned a result is answered with it. -/
theorem answers_moved (res : TransferResult) (stored : ∃ id, res.response = createdResponse id) :
    Http.asked (movedEvents d r id op first before cmd context (.ok (.ok res))) =
      [(cmd, .ok (.ok res))] ∧
      Answers op (movedEvents d r id op first before cmd context (.ok (.ok res))) (.ok (.ok res))
        (.ok ()) := by
  obtain ⟨unique, counted, response⟩ := opens.moved d op cmd limited (.ok (.ok res)) context
    (by simp [Op.Still]) (congrArg (first ++ ·) closing_ok)
  obtain ⟨status, body, header⟩ := moves_response id op stored
  rw [List.map_append, List.foldl_append] at response
  refine ⟨unique, .moved res ?_ ?_ ?_ ?_⟩
  · exact (congrArg Response.status response).trans status
  · exact (congrArg Response.body response).trans body
  · rw [show (responseOf (movedEvents d r id op first before cmd context (.ok (.ok res)))).headers =
      _ from congrArg Response.headers response]
    exact header
  · refine counted.trans ?_
    obtain ⟨_, _, _ | _⟩ := res <;> rfl

/-- A call that returned an error is answered with the error's status. -/
theorem answers_failed (err : GoError) :
    Http.asked (movedEvents d r id op first before cmd context (.ok (.error err))) =
      [(cmd, .ok (.error err))] ∧
      Answers op (movedEvents d r id op first before cmd context (.ok (.error err)))
        (.ok (.error err)) (.ok ()) := by
  obtain ⟨unique, counted, response⟩ := opens.moved d op cmd limited (.ok (.error err)) context
    (by simp [Op.Still]) (congrArg (first ++ ·) closing_ok)
  rw [List.map_append, List.foldl_append] at response
  refine ⟨unique, .failed err ?_ ?_⟩
  · exact (congrArg Response.status response).trans (fails_response context err)
  · exact counted.trans (increments_still (fails_still d context err))

/-- A call that panicked is answered 500 by the recoverer. -/
theorem answers_panicked (value : String) :
    Http.asked (movedEvents d r id op first before cmd context (.error (.other value))) =
      [(cmd, .error (.other value))] ∧
      Answers op (movedEvents d r id op first before cmd context (.error (.other value)))
        (.error (.other value)) (.ok ()) := by
  obtain ⟨unique, counted, response⟩ := opens.moved d op cmd limited (.error (.other value)) context
    (by simp [Op.Still, rescues, sends, Document.isStored])
    (congrArg (first ++ ·) ((closing_panic value).trans (List.append_assoc _ _ _)))
  refine ⟨unique, .panicked value ?_ counted⟩
  exact (congrArg Response.status response).trans rfl

/-- A call that aborted the handler is not answered. -/
theorem answers_aborted :
    Http.asked (movedEvents d r id op first before cmd context (.error .abortHandler)) =
      [(cmd, .error .abortHandler)] ∧
      Answers op (movedEvents d r id op first before cmd context (.error .abortHandler))
        (.error .abortHandler) (.error .abortHandler) := by
  obtain ⟨unique, counted, response⟩ := opens.moved d op cmd limited (.error .abortHandler) context
    (by rintro e ⟨⟩) (congrArg (first ++ ·) (closing_abort.trans (List.append_nil _).symm))
  exact ⟨unique, .aborted (congrArg Response.sent response)
    (congrArg Response.body response) counted⟩

end Replies

/-- A request leaves the money alone, or calls `Transfer` once and answers with what it returned. -/
theorem newRouter_moved {events : List (Event sig)} {outcome : Except Panic Unit}
    (sounds : ∀ e ∈ events, Stored e.1 e.2) (ends : Ends (newRouter d r) events outcome) :
    (∀ e ∈ events, e.1.Still) ∨
      ∃ op cmd reply, r.movement d = some (op, cmd) ∧ Http.asked events = [(cmd, reply)] ∧
        Answers op events reply outcome ∧
        ∃ earlier later, events = earlier ++ ⟨.transfer cmd, reply⟩ :: later ∧
          increments earlier = [] := by
  obtain ⟨id, first, inner, result, opens, routed, rfl, rfl⟩ := newRouter_ends ends
  have sounds' : ∀ e ∈ inner, Stored e.1 e.2 := fun e mem => sounds e (by simp [closing, mem])
  cases routeHTTP_ends sounds' routed with
  | still still =>
    obtain ⟨last, closed, quiet⟩ := closing_eq (d := d) (r := r) id inner result
    refine .inl ?_
    rw [closed]
    intro e mem
    rcases List.mem_append.mp mem with mem | mem
    · exact opens.still e mem
    · rcases List.mem_append.mp mem with mem | mem
      · exact still e mem
      · exact quiet e mem
  | @moved before op cmd movement limited reply context same =>
    have answered :
        Http.asked (movedEvents d r id op first before cmd context reply) = [(cmd, reply)] ∧
        Answers op (movedEvents d r id op first before cmd context reply) reply
          (surfaced (reply.map fun _ => ())) := by
      rcases reply with (_ | value) | (err | res)
      · exact answers_aborted opens limited _
      · exact answers_panicked opens limited _ value
      · exact answers_failed opens limited _ err
      · have stored :=
          sounds' ⟨.transfer _, .ok (.ok res)⟩ (List.mem_append_right _ List.mem_cons_self)
        exact answers_moved opens limited _ res stored
    refine .inr ⟨op, cmd, reply, movement, answered.1, answered.2, ?_⟩
    obtain ⟨last, closed, -⟩ := closing_eq (d := d) (r := r) id
      (before ++ ⟨.transfer cmd, reply⟩ :: answers d context op reply) (reply.map fun _ => ())
    obtain ⟨-, uncounted⟩ := opens.asked limited reply
    refine ⟨first ++ before, answers d context op reply ++ last, by rw [closed]; simp, ?_⟩
    rw [← List.append_assoc, increments_append] at uncounted
    exact (List.append_eq_nil_iff.mp uncounted).1

end Moved

def written (events : List (Event sig)) : List Document :=
  events.filterMap fun e =>
    match e.1 with
    | .write body => some body
    | _ => none

theorem body_eq (events : List (Event sig)) : (responseOf events).body = written events := by
  induction events using List.reverseRecOn with
  | nil => rfl
  | append_singleton events e ih =>
    have last : written (events ++ [e]) = written events ++ written [e] := List.filterMap_append
    rw [responseOf_append, last, ← ih]
    generalize responseOf events = response
    obtain ⟨o, reply⟩ := e
    have kept : ∀ status, (response.writeHeader status).body = response.body := by
      intro status
      unfold Response.writeHeader
      split
      · rfl
      · split <;> rfl
    cases o with
    | writeHeader status => exact (kept status).trans (List.append_nil _).symm
    | write body => rfl
    | _ => exact (List.append_nil _).symm

/-- The client has been sent a transfer. -/
structure Transferred (events : List (Event sig)) : Prop where
  status : (responseOf events).status = 201
  body : ∃ stored, .stored stored ∈ (responseOf events).body

/-- The client has been sent the transfer that was executed for it. -/
structure Confirms (events : List (Event sig)) (id : UUID) : Prop where
  status : (responseOf events).status = 201
  body : (responseOf events).body = [.stored (createdResponse id).body]
  fresh : ("Idempotent-Replayed", "true") ∉ (responseOf events).headers

/-- No stored response is sent without a call of `Transfer`. -/
theorem not_stored_of_still {events : List (Event sig)} (still : ∀ e ∈ events, e.1.Still)
    (stored : Option ResponseBody) : .stored stored ∉ (responseOf events).body := by
  rw [body_eq]
  intro mem
  obtain ⟨⟨o, reply⟩, made, same⟩ := List.mem_filterMap.mp mem
  cases o with
  | write body =>
    cases same
    exact absurd (still _ made) (by rintro ⟨⟩)
  | _ => cases same

theorem Confirms.transferred {events : List (Event sig)} {id : UUID}
    (confirms : Confirms events id) : Transferred events :=
  ⟨confirms.status, _, by rw [confirms.body]; exact List.mem_singleton_self _⟩

theorem not_transferred_of_still {events : List (Event sig)} (still : ∀ e ∈ events, e.1.Still) :
    ¬ Transferred events := by
  rintro ⟨-, stored, mem⟩
  exact not_stored_of_still still stored mem

/-! ### Created -/

/-- Anything but the status that says that something was created. -/
def Op.Uncreating : Op → Prop
  | .writeHeader status => status ≠ 201
  | _ => True

/-- A status of 201 is written by those that create. -/
theorem status_uncreating {events : List (Event sig)} (uncreating : ∀ e ∈ events, e.1.Uncreating) :
    (responseOf events).status ≠ 201 := by
  induction events using List.reverseRecOn with
  | nil => decide
  | append_singleton events e ih =>
    have before := ih fun e mem => uncreating e (List.mem_append_left _ mem)
    have last := uncreating e (List.mem_append_right _ List.mem_cons_self)
    rw [responseOf_append]
    generalize responseOf events = response at before
    have announced : ∀ status, status ≠ 201 → (response.writeHeader status).status ≠ 201 := by
      intro status other
      unfold Response.writeHeader
      split
      · exact before
      · split
        · exact before
        · exact other
    obtain ⟨o, reply⟩ := e
    cases o with
    | writeHeader status => exact announced status last
    | write body => exact announced 200 (by decide)
    | _ => exact before

/-- Without a transfer only the creation of an account is answered with 201. -/
theorem makes_uncreating {d : Deps} {r : Request} (other : r.path ≠ ["accounts"]) :
    Makes (fun o _ => ∀ cmd, o ≠ .transfer cmd) Op.Uncreating (routeHTTP d r) := by
  have plain : ∀ id, ∀ o : Op, o.Plain id → o.Uncreating := by
    intro id o plain
    cases o with
    | writeHeader status => exact plain.2.2
    | _ => trivial
  have behind : ∀ {next : HandlerFunc} {context : Context}, (∀ context,
      Makes (fun o _ => ∀ cmd, o ≠ .transfer cmd) Op.Uncreating (next { r with context })) →
      Makes (fun o _ => ∀ cmd, o ≠ .transfer cmd) Op.Uncreating
      (secured d next { r with context }) :=
    fun rest => makes_secured (plain _) (fun _ => trivial) (fun _ => trivial) (fun _ _ => trivial)
      fun context _ => rest context
  refine makes_routeHTTP (plain _) fun route mem _ captured context _ => ?_
  simp only [routes, List.mem_cons, List.not_mem_nil, or_false] at mem
  rcases mem with rfl | rfl | rfl | rfl | rfl | rfl | rfl | rfl | rfl
  · exact makes_healthz (plain "") r
  · exact makes_readyz (plain "") r trivial
  · exact makes_metricsHandler (plain "") d r trivial
  · exact behind fun _ => makes_balance (plain _) fun _ => trivial
  · exact behind fun _ => makes_entries (plain _) fun _ _ _ => trivial
  · exact absurd (capture_literal.mp captured) other
  · exact behind fun _ =>
      makes_requireWriteScope (plain _) (makes_deposit (plain _) (fun _ _ => trivial)
      (fun _ => trivial) (fun cmd _ unasked => absurd rfl (unasked cmd)) fun _ => trivial)
  · exact behind fun _ =>
      makes_requireWriteScope (plain _) (makes_withdraw (plain _) (fun _ _ => trivial)
      (fun _ => trivial) (fun cmd _ unasked => absurd rfl (unasked cmd)) fun _ => trivial)
  · exact behind fun _ =>
      makes_requireWriteScope (plain _) (makes_transfer (plain _) (fun _ _ => trivial)
      (fun _ => trivial) (fun cmd _ unasked => absurd rfl (unasked cmd)) fun _ => trivial)

/-- Among the requests that leave the money alone, only the opening of an account is answered 201.
-/
theorem status_of_still {d : Deps} {r : Request} {events : List (Event sig)}
    {outcome : Except Panic Unit} (ends : Ends (newRouter d r) events outcome)
    (still : ∀ e ∈ events, e.1.Still) (created : (responseOf events).status = 201) :
    r.path = ["accounts"] := by
  by_contra other
  have chained : ∀ o : Op, o.Chained → o.Uncreating := by
    intro o chained
    cases o with
    | writeHeader status => exact chained.2.2
    | _ => trivial
  have unasked : ∀ e ∈ events, ∀ cmd, e.1 ≠ .transfer cmd := by
    rintro ⟨_, reply⟩ mem cmd rfl
    exact still _ mem
  have makes := makes_newRouter chained fun context =>
    makes_uncreating (d := d) (r := { r with context }) other
  exact status_uncreating (makes.ends ends unasked) created

/-! ### A connection and its session -/

/-- How the session of a call has ended, by what its connection was told. -/
def Ended (session : Session) (cmd : TransferCommand) :
    Except Panic (Except GoError TransferResult) → Prop
  | .ok result => session = .returned cmd result
  | .error _ => session = .crashed

/-- A connection that has been answered, with its session. -/
theorem Server.Tended.finished {d : Deps} {s : Server} {i : Nat} {r : Request}
    {outcome : Except Panic Unit} {events : List (Event sig)}
    (tended : s.Tended d i r (.ret outcome) events) (sounds : ∀ e ∈ events, Stored e.1 e.2) :
    ((∀ e ∈ events, e.1.Still) ∧ s.world.sessions i = .idle) ∨
      ∃ op cmd reply, r.movement d = some (op, cmd) ∧ Ended (s.world.sessions i) cmd reply ∧
        Answers op events reply outcome := by
  rcases newRouter_moved sounds tended.reached.returned with
    still | ⟨op, cmd, reply, movement, unique, answers, -⟩
  · refine .inl ⟨still, ?_⟩
    rcases tended.called with idle | ⟨cmd, -, ⟨_, impossible⟩ | ⟨reply, mem⟩⟩
    · exact idle
    · cases impossible
    · exact (still _ mem).elim
  · refine .inr ⟨op, cmd, reply, movement, ?_, answers⟩
    have made : (⟨.transfer cmd, reply⟩ : Event sig) ∈ events := by
      rw [← mem_asked, unique]
      exact List.mem_singleton_self _
    have told := tended.told cmd reply made
    cases reply with
    | error panic => exact told
    | ok result =>
      obtain ⟨cmd', was⟩ := told
      rcases tended.called with idle | ⟨cmd'', course, ⟨_, impossible⟩ | ⟨reply', mem⟩⟩
      · rw [was] at idle
        cases idle
      · cases impossible
      · rw [← mem_asked, unique, List.mem_singleton] at mem
        cases mem
        rcases course with crashed | command
        · rw [was] at crashed
          cases crashed
        · rw [was] at command
          cases command
          exact was

/-- Errors made outside the wallet are answered by a 5xx. -/
theorem statusFor_foreign {err : GoError} (foreign : err.foreign = true) :
    500 ≤ (statusFor err).1 := by
  refine Nat.le_of_not_lt fun low => ?_
  rcases (statusFor_lt_iff err).mp low with bad | ⟨entry, mem, holds⟩
  · rw [isBadRequest_of_foreign err foreign] at bad
    cases bad
  · rw [is_of_foreign err foreign (clientStatuses_own entry mem)] at holds
    cases holds

/-! ### A deposit and its repetition -/

namespace Resent

open Scenario Local

def deps : Deps := depsWith none

def topUp : Request where
  method := "POST"
  path := ["accounts", "00000000-0000-0000-0000-000000000002", "deposits"]
  apiKey := "secret"
  requestID := "x"
  idempotencyKey := "k"
  after := ""
  limit := ""
  body := Json.encodeUtf8 "\x7b\"amount_cents\": 100\x7d".toList
  context := .background

def first : List Act :=
  [.arrive 0 topUp, .turn 0 choice, .call 0, .world (.begin 0 none)] ++
    (List.range 14).map (fun n => .world (.perform 0 ⟨none, .ofByte 3, n + 1, 0⟩)) ++
    [.world (.commit 0 .acknowledged)] ++ List.replicate 7 (.turn 0 choice)

def second : List Act :=
  [.arrive 1 topUp, .turn 1 choice, .call 1, .world (.begin 1 none), .world (.perform 1 default),
    .world (.perform 1 default), .world (.commit 1 .acknowledged)] ++
    List.replicate 8 (.turn 1 choice)

def response (replayed : Bool) : Response :=
  let header :=
    [("X-Request-ID", "x")] ++ (if replayed then [("Idempotent-Replayed", "true")] else []) ++
    [("Content-Type", "application/json")]
  ⟨header, some (201, header), [.stored (createdResponse (.ofByte 3)).body]⟩

def isIdle : Session → Bool
  | .idle => true
  | _ => false

/-- The two requests are served one after the other, and the second is a replay. -/
theorem ran : ∃ w s s', runs World.step (.init .empty) opened = some w ∧
    runs (Server.step deps) (.start deps w) first = some s ∧
      runs (Server.step deps) s second = some s' ∧
    s.world.sessions 1 = .idle ∧ (s.connections 0).response = some (response false) ∧
      (s'.connections 0).response = some (response false) ∧
    (s'.connections 1).response = some (response true) := by
  have reached : ((runs World.step (.init .empty) opened).bind fun w =>
      (runs (Server.step deps) (.start deps w) first).bind fun s =>
          (runs (Server.step deps) s second).map fun s' =>
        (isIdle (s.world.sessions 1), (s.connections 0).response, (s'.connections 0).response,
          (s'.connections 1).response)) =
      some (true, some (response false), some (response false), some (response true)) := by
    decide +kernel
  obtain ⟨w, origin, reached⟩ := Option.bind_eq_some_iff.mp reached
  obtain ⟨s, ran, reached⟩ := Option.bind_eq_some_iff.mp reached
  obtain ⟨s', ran', observed⟩ := Option.map_eq_some_iff.mp reached
  injection observed with idle rest
  injection rest with first rest
  injection rest with second third
  have idle : s.world.sessions 1 = .idle := by
    unfold isIdle at idle
    split at idle
    · assumption
    · cases idle
  exact ⟨w, s, s', origin, ran, ran', idle, first, second, third⟩

theorem transferred {events : List (Event sig)} {replayed : Bool}
    (same : responseOf events = response replayed) : Transferred events := by
  refine ⟨?_, (createdResponse (.ofByte 3)).body, ?_⟩
  · rw [same]
    rfl
  · rw [same]
    exact List.mem_singleton_self _

theorem confirmed {events : List (Event sig)} (same : responseOf events = response false) :
    Confirms events (.ofByte 3) := by
  refine ⟨(transferred same).status, ?_, ?_⟩
  · rw [same]
    rfl
  · rw [same]
    decide

end Resent

/-! ### In any run of the server -/

section Runs

variable {d : Deps} {w : World} {before : List WalletGo.Act} {acts : List Act} {s : Server}

/-- Below a run whose commits are definite the commits are definite. -/
theorem Below.definite {b : WalletGo.Act} (below : Below d acts b)
    (definite : ∀ a, .world a ∈ acts → a.Definite) : b.Definite := by
  cases below with
  | world mem => exact definite b mem
  | call mem cmd => trivial
  | opens a => trivial

/-- Whatever the requests go through: a request has posted all it asked for, and its client
was told so or got an answer that leaves it open; or it has posted nothing, and its client
was told of no transfer of its own. What it was told of then, other than a new account, is
the posting stored for its key, as a replay. -/
theorem answer_tells_effect (origin : runs World.step (.init .empty) before = some w)
    (definite : ∀ a ∈ before, a.Definite) (ran : runs (Server.step d) (.start d w) acts = some s)
    (definite' : ∀ a, .world a ∈ acts → a.Definite) {i : Nat} {r : Request}
    {outcome : Except Panic Unit} {events : List (Event sig)}
    (was : s.connections i = .serving r (.ret outcome) events) :
    (∃ op cmd p, r.movement d = some (op, cmd) ∧ p.Carries cmd ∧ s.world.writesBy i = p.writes ∧
      s.world.db.Holds p ∧
      (Confirms events p.id ∨ 500 ≤ (responseOf events).status ∨ outcome = .error .abortHandler)) ∨
    (s.world.writesBy i = [] ∧ (∀ id, ¬ Confirms events id) ∧
      ((responseOf events).status = 201 → r.path = ["accounts"] ∨
        ("Idempotent-Replayed", "true") ∈ (responseOf events).headers ∧
        ∃ op cmd p, r.movement d = some (op, cmd) ∧ p.key = cmd.key ∧ s.world.db.Holds p ∧
          (responseOf events).body = [.stored (createdResponse p.id).body])) := by
  have tended := (Server.runs_inv ran).tended was
  obtain ⟨ps, keyInv⟩ := Server.keyInv origin ran
  obtain ⟨below, reached, allowed⟩ := Server.reaches origin ran
  have reports : s.world.Reports i (s.world.sessions i) := by
    refine World.runs_reports (.init .empty) ?_ reached (.nothing rfl (by rintro cmd r ⟨⟩))
    intro a mem
    rcases List.mem_append.mp mem with old | new
    · exact definite a old
    · exact (allowed a new).definite definite'
  rcases tended.finished (tended.sounds keyInv) with
    ⟨still, idle⟩ | ⟨op, cmd, reply, movement, ended, answers⟩
  · rw [idle] at reports
    refine .inr ⟨reports.unspent (by rintro ⟨⟩), fun _ confirms => ?_, fun created => .inl ?_⟩
    · exact not_transferred_of_still still confirms.transferred
    · have routed : Ends (newRouter d r.incoming) events outcome := tended.reached.returned
      have path := status_of_still routed still created
      exact path
  · cases answers with
    | moved res status body header counted =>
      have returned : s.world.sessions i = .returned cmd (.ok res) := ended
      obtain ⟨q, mem, key, sameID, created, -⟩ := keyInv.succeeded returned
      rw [returned] at reports
      cases reports with
      | nothing none honest =>
        have replayed := header.mpr (honest cmd res rfl)
        refine .inr ⟨none, fun id confirms => confirms.fresh replayed, fun _ => .inr ⟨replayed, ?_⟩⟩
        exact ⟨op, cmd, q, movement, key, keyInv.journal.holds mem, by rw [body, created]⟩
      | posted p carries sameID' fresh writes holds =>
        have same : q.id = p.id := sameID.symm.trans sameID'
        refine .inl ⟨op, cmd, p, movement, carries, writes, holds, .inl ⟨?_, ?_, ?_⟩⟩
        · rw [status, created]
          rfl
        · rw [body, created, same]
        · rw [header, fresh]
          exact Bool.false_ne_true
    | failed err status counted =>
      have returned : s.world.sessions i = .returned cmd (.error err) := ended
      rw [returned] at reports
      cases reports with
      | nothing none honest =>
        have refused : (responseOf events).status ≠ 201 := by
          have range := statusFor_range err
          omega
        exact .inr ⟨none, fun id confirms => refused confirms.status,
          fun created => absurd created refused⟩
      | doubtful p carries foreign writes holds =>
        refine .inl ⟨op, cmd, p, movement, carries, writes, holds, .inr (.inl ?_)⟩
        have high := statusFor_foreign foreign
        omega
    | panicked value status counted =>
      have crashed : s.world.sessions i = .crashed := ended
      rw [crashed] at reports
      cases reports with
      | nothing none honest =>
        have refused : (responseOf events).status ≠ 201 := by
          rw [status]
          decide
        exact .inr ⟨none, fun id confirms => refused confirms.status,
          fun created => absurd created refused⟩
    | aborted unsent body counted =>
      have crashed : s.world.sessions i = .crashed := ended
      rw [crashed] at reports
      cases reports with
      | nothing none honest =>
        have refused : (responseOf events).status ≠ 201 := by
          rw [Response.status, unsent]
          decide
        exact .inr ⟨none, fun id confirms => refused confirms.status,
          fun created => absurd created refused⟩

open Resent in
/-- A deposit that is answered 201 has been booked. -/
theorem answer_tells_effect_deposit :
    ∃ w s outcome events op cmd p, runs World.step (.init .empty) Scenario.opened = some w ∧
      runs (Server.step deps) (.start deps w) first = some s ∧
      s.connections 0 = .serving topUp (.ret outcome) events ∧
        topUp.movement deps = some (op, cmd) ∧
      p.Carries cmd ∧ s.world.writesBy 0 = p.writes ∧ s.world.db.Holds p := by
  obtain ⟨w, s, -, origin, ran, -, -, answered, -, -⟩ := Resent.ran
  obtain ⟨outcome, events, was, response⟩ :=
    Server.runs_answered ran (r := topUp) (by simp [first]) answered
  have definite : ∀ a ∈ Scenario.opened, a.Definite := by simp [Scenario.opened, Act.Definite]
  have definite' : ∀ a, .world a ∈ first → a.Definite := by
    intro a mem
    simp only [first, List.mem_append, List.mem_cons, List.mem_map, List.mem_replicate,
      List.not_mem_nil] at mem
    rcases mem with ((mem | ⟨n, -, same⟩) | mem) | ⟨-, same⟩
    · simp only [reduceCtorEq, or_false, false_or, Act.world.injEq] at mem
      subst mem
      trivial
    · cases same
      trivial
    · simp only [or_false, Act.world.injEq] at mem
      subst mem
      trivial
    · cases same
  rcases answer_tells_effect origin definite ran definite' was with
    ⟨op, cmd, p, movement, carries, writes, holds, -⟩ | ⟨-, not, -⟩
  · exact ⟨w, s, outcome, events, op, cmd, p, origin, ran, was, movement, carries, writes, holds⟩
  · exact absurd (confirmed response) (not _)

/-- A request that was sent a transfer, with the session that made it. -/
theorem Server.Tended.transferred {ps : List Posting} (keyInv : KeyInv s.world ps)
    {i : Nat} {r : Request} {outcome : Except Panic Unit} {events : List (Event sig)}
    (tended : s.Tended d i r (.ret outcome) events) (transferred : Transferred events) {op : String}
    {cmd : TransferCommand} (movement : r.movement d = some (op, cmd)) :
    ∃ p ∈ ps, p.key = cmd.key ∧ (responseOf events).body = [.stored (createdResponse p.id).body] ∧
      (("Idempotent-Replayed", "true") ∉ (responseOf events).headers →
        i ∈ s.world.executedBy cmd.key) := by
  rcases tended.finished (tended.sounds keyInv) with
    ⟨still, -⟩ | ⟨op', cmd', reply, movement', ended, answers⟩
  · exact absurd transferred (not_transferred_of_still still)
  · cases movement.symm.trans movement'
    cases answers with
    | moved res status body header counted =>
      obtain ⟨p, mem, key, -, created, mine⟩ := keyInv.succeeded ended
      refine ⟨p, mem, key, by rw [body, created], fun fresh => mine ?_⟩
      rw [header] at fresh
      exact Bool.eq_false_iff.mpr fresh
    | failed err status counted =>
      have code := status.symm.trans transferred.status
      have range := statusFor_range err
      omega
    | panicked value status counted => cases status.symm.trans transferred.status
    | aborted unsent body counted =>
      obtain ⟨stored, mem⟩ := transferred.body
      rw [body] at mem
      cases mem

/-- Two requests with one key that are answered with a transfer get the same one, which is
all that was ever committed for the key; and only one of them can lack the replay header. -/
theorem answers_agree (origin : runs World.step (.init .empty) before = some w)
    (ran : runs (Server.step d) (.start d w) acts = some s) {i j : Nat} {r r' : Request}
    {outcome outcome' : Except Panic Unit} {events events' : List (Event sig)}
    (was : s.connections i = .serving r (.ret outcome) events)
    (was' : s.connections j = .serving r' (.ret outcome') events') {op op' : String}
    {cmd cmd' : TransferCommand} (movement : r.movement d = some (op, cmd))
    (movement' : r'.movement d = some (op', cmd')) (sameKey : cmd.key = cmd'.key)
    (transferred : Transferred events) (transferred' : Transferred events') :
    (∃ p : Posting, p.key = cmd.key ∧ s.world.db.Holds p ∧ s.world.writesFor cmd.key = p.writes ∧
      (responseOf events).body = [.stored (createdResponse p.id).body] ∧
      (responseOf events').body = [.stored (createdResponse p.id).body]) ∧
    (("Idempotent-Replayed", "true") ∉ (responseOf events).headers →
      ("Idempotent-Replayed", "true") ∉ (responseOf events').headers → i = j) := by
  have inv := Server.runs_inv ran
  obtain ⟨ps, keyInv⟩ := Server.keyInv origin ran
  obtain ⟨p, mem, key, body, mine⟩ := (inv.tended was).transferred keyInv transferred movement
  obtain ⟨q, mem', key', body', mine'⟩ :=
    (inv.tended was').transferred keyInv transferred' movement'
  obtain rfl : p = q := List.inj_on_of_nodup_map keyInv.journal.distinctKeys mem mem'
    (key.trans (sameKey.trans key'.symm))
  obtain ⟨writes, author, executed⟩ := keyInv.posted p mem
  refine ⟨⟨p, key, keyInv.journal.holds mem, key ▸ writes, body, body'⟩, fun fresh fresh' => ?_⟩
  have first := mine fresh
  have second := mine' fresh'
  rw [← key, executed, List.mem_singleton] at first
  rw [← key', executed, List.mem_singleton] at second
  exact first.trans second.symm

open Resent in
/-- A deposit sent twice is answered with one transfer. -/
theorem answers_agree_repeated :
    ∃ w s outcome outcome' events events', runs World.step (.init .empty) Scenario.opened = some w ∧
      runs (Server.step deps) (.start deps w) (first ++ second) = some s ∧
      s.connections 0 = .serving topUp (.ret outcome) events ∧
      s.connections 1 = .serving topUp (.ret outcome') events' ∧ Transferred events ∧
        Transferred events' ∧
      (responseOf events).body = (responseOf events').body := by
  obtain ⟨w, s, s', origin, ran, ran', -, -, answered, answered'⟩ := Resent.ran
  have whole : runs (Server.step deps) (.start deps w) (first ++ second) = some s' :=
    Txn.runs_append_iff.mpr ⟨s, ran, ran'⟩
  obtain ⟨outcome, events, was, response⟩ :=
    Server.runs_answered whole (r := topUp) (by simp [first]) answered
  obtain ⟨outcome', events', was', response'⟩ :=
    Server.runs_answered whole (r := topUp) (by simp [second]) answered'
  have first := transferred response
  have second := transferred response'
  obtain ⟨⟨op, cmd⟩, movement⟩ := Option.isSome_iff_exists.mp
    (show (topUp.movement deps).isSome = true by decide +kernel)
  obtain ⟨⟨p, -, -, -, body, body'⟩, -⟩ :=
    answers_agree origin whole was was' movement movement rfl first second
  exact ⟨w, s', outcome, outcome', events, events', origin, whole, was, was', first, second,
    body.trans body'.symm⟩

/-- A call that meets no fault, of a key that is stored, keeps on its way to the answer. -/
theorem runs_serving {v v' : World} {j : Nat} {cmd : TransferCommand} {amount : Money}
    {row : KeyRow} {n : Nat} {below : List WalletGo.Act} (awaits : v.Awaits j cmd row n)
    (completed : row.state = .completed) (valid : validate cmd = .ok amount)
    (ran : runs World.step v below = some v')
    (served : ∀ a ∈ below, a.session = some j → a.Healthy ∧ ∀ e c, a = .start j e c → c = cmd) :
    ∃ m, v'.Awaits j cmd row m := by
  refine Txn.runs_admissible (fun a => a.session = some j → a.Healthy ∧
    ∀ e c, a = .start j e c → c = cmd)
    (fun v : World => ∃ m, v.Awaits j cmd row m) ?_ served ⟨n, awaits⟩ ran
  rintro v v' a serves ⟨m, awaits⟩ stepped
  have step :
      ∀ executor, (∀ e c, a = .start j e c → e = executor) → ∃ m, v'.Awaits j cmd row m := by
    intro executor same
    have own : a.Serves j executor cmd := fun mine =>
      ⟨(serves mine).1, fun e c starts => ⟨same e c starts, (serves mine).2 e c starts⟩⟩
    exact awaits.step completed valid own stepped
  cases a with
  | start k e c => exact step e (by rintro _ _ ⟨⟩; rfl)
  | _ => exact step .locking (by rintro e c ⟨⟩)

/-- A valid request whose key is stored, and which has reached `Transfer` without a fault
on its way, is answered with what is stored; or told that the key is another request's. -/
theorem retry_answered (origin : runs World.step (.init .empty) before = some w)
    (ran : runs (Server.step d) (.start d w) acts = some s) {p : Posting}
    (posted : s.world.db.Holds p) {j : Nat} (idle : s.world.sessions j = .idle) {more : List Act}
    {s' : Server} (later : runs (Server.step d) s more = some s')
    (healthy : ∀ a, .world a ∈ more → a.session = some j → a.Healthy) {r : Request}
    {outcome : Except Panic Unit} {events : List (Event sig)}
    (was : s'.connections j = .serving r (.ret outcome) events) {op : String}
    {cmd : TransferCommand} (movement : r.movement d = some (op, cmd)) (sameKey : cmd.key = p.key)
    {amount : Money} (valid : validate cmd = .ok amount) (called : asked events ≠ []) :
    (cmd.fingerprint = p.fingerprint → (responseOf events).status = 201 ∧
      (responseOf events).body = [.stored (createdResponse p.id).body] ∧
      ("Idempotent-Replayed", "true") ∈ (responseOf events).headers) ∧
    (cmd.fingerprint ≠ p.fingerprint → (responseOf events).status = 422) := by
  have whole : runs (Server.step d) (.start d w) (acts ++ more) = some s' :=
    Txn.runs_append_iff.mpr ⟨s, ran, later⟩
  have tended := (Server.runs_inv whole).tended was
  obtain ⟨ps, keyInv⟩ := Server.keyInv origin whole
  obtain ⟨below, reached, -⟩ := Server.reaches origin ran
  obtain ⟨inv, guarded⟩ :=
    World.runs_guarded (World.Inv.init .empty) (by rintro i key mode ⟨⟩) reached
  obtain ⟨since, ranBelow, allowed⟩ := Server.world_runs later
  have own : ∀ a ∈ since, a.session = some j → a.Healthy := by
    intro a mem mine
    cases allowed a mem with
    | world mem => exact healthy a mem mine
    | call mem cmd => trivial
    | opens b => cases mine
  have uncrashed : s'.world.sessions j ≠ .crashed := by
    refine World.runs_uncrashed (by rw [idle]; rintro ⟨⟩) ?_ ranBelow
    rintro _ mem rfl
    exact own _ mem rfl
  rcases tended.finished (tended.sounds keyInv) with
    ⟨still, -⟩ | ⟨op', cmd', reply, movement', ended, answers⟩
  · exact absurd (asked_still still) called
  cases movement.symm.trans movement'
  have awaits : s.world.Awaits j cmd p.keyRow 5 := by
    refine ⟨inv, guarded, ?_, ?_⟩
    · rw [sameKey]
      exact posted.key
    · rw [idle]
      exact .idle
  match reply with
  | .error panic => exact absurd ended uncrashed
  | .ok result =>
    have returned : s'.world.sessions j = .returned cmd result := ended
    obtain ⟨m, later⟩ := runs_serving awaits rfl valid ranBelow fun a mem mine =>
        ⟨own a mem mine, by
      rintro e c rfl
      rcases World.runs_started ranBelow mem with crashed | command
      · exact absurd crashed uncrashed
      · rw [returned] at command
        cases command
        rfl⟩
    have late := later.late
    rw [returned] at late
    have answer : result = p.keyRow.answer cmd := by
      cases late
      rfl
    constructor
    · intro same
      have replay : p.keyRow.answer cmd = .ok p.keyRow.replayResult := if_pos same.symm
      rw [answer, replay] at answers
      cases answers with
      | moved res status body header counted => exact ⟨status, body, header.mpr rfl⟩
    · intro differ
      have reuse : p.keyRow.answer cmd = .error .errIdempotencyKeyReuse := if_neg (Ne.symm differ)
      rw [answer, reuse] at answers
      cases answers with
      | failed err status counted => exact status

open Resent in
/-- A deposit sent again is answered 201 from what is stored. -/
theorem retry_answered_repeated :
    ∃ w s s' outcome events, runs World.step (.init .empty) Scenario.opened = some w ∧
      runs (Server.step deps) (.start deps w) first = some s ∧
        runs (Server.step deps) s second = some s' ∧
      s'.connections 1 = .serving topUp (.ret outcome) events ∧ ∃ p, s.world.db.Holds p ∧
      (responseOf events).body = [.stored (createdResponse p.id).body] := by
  obtain ⟨w, s, s', origin, ran, ran', idle, answered, -, answered'⟩ := Resent.ran
  have whole : runs (Server.step deps) (.start deps w) (first ++ second) = some s' :=
    Txn.runs_append_iff.mpr ⟨s, ran, ran'⟩
  obtain ⟨outcome, events, was, response⟩ :=
    Server.runs_answered ran (r := topUp) (by simp [first]) answered
  obtain ⟨outcome', events', was', response'⟩ :=
    Server.runs_answered whole (r := topUp) (by simp [second]) answered'
  have valid : ((topUp.movement deps).bind fun asked => (validate asked.2).toOption).isSome =
    true := by decide +kernel
  obtain ⟨amount, valid⟩ := Option.isSome_iff_exists.mp valid
  obtain ⟨⟨op, cmd⟩, movement, valid⟩ := Option.bind_eq_some_iff.mp valid
  have valid : validate cmd = .ok amount := by
    cases checked : validate cmd with
    | error err => simp [checked, Except.toOption] at valid
    | ok value => simpa [checked, Except.toOption] using valid
  obtain ⟨ps, keyInv⟩ := Server.keyInv origin ran
  obtain ⟨p, mem, key, -⟩ :=
    ((Server.runs_inv ran).tended was).transferred keyInv (transferred response) movement
  have holds := keyInv.journal.holds mem
  have healthy : ∀ a, .world a ∈ second → a.session = some 1 → a.Healthy := by
    intro a mem _
    simp only [second, List.mem_append, List.mem_cons, List.mem_replicate,
      List.not_mem_nil, reduceCtorEq, Act.world.injEq, or_false, false_or, and_false] at mem
    rcases mem with rfl | rfl | rfl | rfl <;> rfl
  have called : asked events' ≠ [] := by
    intro none
    have tended := (Server.runs_inv whole).tended was'
    obtain ⟨ps, keyInv⟩ := Server.keyInv origin whole
    rcases newRouter_moved (tended.sounds keyInv) tended.reached.returned with
      still | ⟨_, _, _, -, unique, -⟩
    · exact not_transferred_of_still still (transferred response')
    · cases none.symm.trans unique
  have told := retry_answered origin ran holds idle ran' healthy was' movement key.symm valid called
  refine ⟨w, s, s', outcome', events', origin, ran, ran', was', p, holds, (told.1 ?_).2.1⟩
  by_contra differ
  cases (told.2 differ).symm.trans (transferred response').status

end Runs

end WalletGo.Http
