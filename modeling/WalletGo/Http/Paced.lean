import WalletGo.Http.Server
import WalletGo.Http.Calls
import WalletGo.Http.Throttled

/-!
The rate limiter in the server.

With its calls, a handler takes its connection through `rateLimit` (`Admission.see`), and
what it may call depends on where it stands (`Admission.Allows`): the services are for
those who have been let through. Hence the connections with one key and their bucket are,
whatever else happens, a `Throttle` (`Server.runs_paces`), and what holds of every run of
that holds of the server (`services_paced`).
-/

namespace WalletGo.Admission

open Txn (Event)
open Http (ApiKeyScope)

/-- Where a request stands after one more call. -/
def see : Admission → Event Http.sig → Admission
  | .idle, ⟨.reserve _, res⟩ => if res.ok = false then .admitted else .reserved res
  | .reserved res, ⟨.delay _, delay⟩ => if 0 < delay then .rejecting res delay else .admitted
  | .rejecting _ delay, ⟨.cancel .., _⟩ => .rejected (delay.floor + 1)
  | admission, _ => admission

/-- The calls a request with a key of this scope may make. -/
def Allows (scope : ApiKeyScope) (admission : Admission) : Http.Op → Prop
  | .reserve scope' => scope' = scope ∧ admission = .idle
  | .delay res => admission = .reserved res
  | .cancel scope' res => scope' = scope ∧ ∃ delay, admission = .rejecting res delay
  | .create _ | .balance _ | .entries .. | .transfer _ => admission = .admitted
  | _ => True

end WalletGo.Admission

namespace WalletGo.Http

open Txn (Event Prog runs)
open Rate (Limiter)

/-- It calls neither the limiter nor a service. -/
def Op.Free : Op → Prop
  | .reserve _ | .delay _ | .cancel .. | .create _ | .balance _ | .entries .. | .transfer _ => False
  | _ => True

def Op.Unlimited : Op → Prop
  | .reserve _ | .delay _ | .cancel .. => False
  | _ => True

def Op.serves : Op → Bool
  | .create _ | .balance _ | .entries .. | .transfer _ => true
  | _ => false

theorem Op.Chained.free {o : Op} (chained : o.Chained) : o.Free := by
  cases o <;> first | exact chained | trivial

theorem Op.Plain.free {requestID : String} {o : Op} (plain : o.Plain requestID) : o.Free :=
  plain.chained.free

theorem Op.Free.unlimited {o : Op} (free : o.Free) : o.Unlimited := by
  cases o <;> first | exact free | trivial

theorem Op.Free.allowed {o : Op} (free : o.Free) (scope : ApiKeyScope) (admission : Admission) :
    admission.Allows scope o ∧ ∀ reply, admission.see ⟨o, reply⟩ = admission := by
  cases o with
  | reserve _ | delay _ | cancel _ _ | create _ | balance _ | entries _ _ _ | transfer _ =>
    exact free.elim
  | _ => exact ⟨trivial, fun _ => by cases admission <;> rfl⟩

theorem Op.Unlimited.allowed {o : Op} (unlimited : o.Unlimited) (scope : ApiKeyScope) :
    Admission.admitted.Allows scope o ∧ ∀ reply, Admission.admitted.see ⟨o, reply⟩ = .admitted := by
  cases o with
  | reserve _ | delay _ | cancel _ _ => exact unlimited.elim
  | create _ | balance _ | entries _ _ _ | transfer _ => exact ⟨rfl, fun _ => rfl⟩
  | _ => exact ⟨trivial, fun _ => rfl⟩

/-! ### Handlers -/

/-- From where it stands, the handler calls what it may. -/
def Paced {α : Type} (scope : ApiKeyScope) (admission : Admission) (handler : Web α) : Prop :=
  handler.run.Always (.tracking (Admission.Allows scope) Admission.see) (fun _ _ => True) admission

section Paced

variable {α β : Type} {scope : ApiKeyScope} {admission : Admission}

theorem always_weaken {program : Prog sig α} {D : Prog.Discipline sig Admission}
    {post : Admission → α → Prop} (always : program.Always D post admission) :
    program.Always D (fun _ _ => True) admission := by
  induction program generalizing admission with
  | ret value => trivial
  | op o next ih =>
    exact ⟨always.1, fun reply state' moved => ih reply (always.2 reply state' moved)⟩

theorem Makes.keeps {handler : Web α} (makes : Makes AnyReply Op.Free handler) (scope : ApiKeyScope)
    (admission : Admission) :
    handler.run.Always (.tracking (Admission.Allows scope) Admission.see)
      (fun state _ => state = admission) admission :=
  Prog.Only.tracking makes (fun _ _ => trivial) fun _ free => free.allowed scope admission

theorem Makes.paced {handler : Web α} (makes : Makes AnyReply Op.Free handler) :
    Paced scope admission handler :=
  always_weaken (makes.keeps scope admission)

/-- Once it has been let through, a handler may call any service. -/
theorem Makes.served {handler : Web α} (makes : Makes AnyReply Op.Unlimited handler) :
    Paced scope .admitted handler :=
  always_weaken (Prog.Only.tracking makes (fun _ _ => trivial) fun _ unlimited =>
    unlimited.allowed scope)

theorem Paced.bind {first : Web α} {next : α → Web β} (head : Paced scope admission first)
    (rest : ∀ value, Makes AnyReply Op.Free (next value)) :
    Paced scope admission (first >>= next) := by
  refine Prog.Always.bind head fun state outcome _ => ?_
  cases outcome with
  | ok value => exact (rest value).paced
  | error panic => trivial

theorem Makes.bind_paced {first : Web α} {next : α → Web β} (head : Makes AnyReply Op.Free first)
    (rest : ∀ value, Paced scope admission (next value)) :
    Paced scope admission (first >>= next) := by
  refine Prog.Always.bind (head.keeps scope admission) fun state outcome same => ?_
  subst same
  cases outcome with
  | ok value => exact rest value
  | error panic => trivial

/-- A call that is allowed here, and what may follow each reply. -/
theorem Paced.ask {o : Op} {next : o.Reply → Web α} (allowed : admission.Allows scope o)
    (rest : ∀ reply, Paced scope (admission.see ⟨o, reply⟩) (next reply)) :
    Paced scope admission (ask o >>= next) := by
  refine ⟨allowed, ?_⟩
  rintro reply _ rfl
  exact rest reply

theorem Paced.recording {handler : Web Unit} (paced : Paced scope admission handler) :
    Paced scope admission (Http.recording handler) := by
  have watched :
      ∀ (program : Prog sig (Except Panic Unit)) (rec : StatusRecorder) (admission : Admission),
      program.Always (.tracking (Admission.Allows scope) Admission.see)
      (fun _ _ => True) admission →
      (observed program rec).Always (.tracking (Admission.Allows scope) Admission.see)
        (fun _ _ => True)
        admission := by
    intro program
    induction program with
    | ret value => exact fun _ _ _ => trivial
    | op o next ih => exact fun rec _ always => ⟨always.1, fun reply state' moved =>
        ih reply (rec.see o) state' (always.2 reply state' moved)⟩
  exact Prog.Always.bind (watched _ _ _ paced) fun _ _ _ => trivial

end Paced

def Request.keyScope (d : Deps) (r : Request) : ApiKeyScope :=
  if r.apiKey = d.apiKey then .write else .read

section Router

variable {d : Deps} {r : Request}

/-- `rateLimit` asks for a reservation, and calls what it guards only when there is no delay. -/
theorem paced_rateLimit {next : HandlerFunc} (rest : Makes AnyReply Op.Unlimited (next r)) :
    Paced r.scope .idle (rateLimit next r) := by
  have plain : ∀ o : Op, o.Plain "" → o.Free := fun _ => Op.Plain.free
  refine Paced.ask ⟨rfl, rfl⟩ fun res => ?_
  by_cases open' : res.ok = false
  · simp only [open', if_true]
    rw [show Admission.idle.see ⟨.reserve r.scope, res⟩ = .admitted from if_pos open']
    exact rest.served
  · simp only [open']
    rw [show Admission.idle.see ⟨.reserve r.scope, res⟩ = .reserved res from if_neg open']
    refine Paced.ask rfl fun delay => ?_
    by_cases waits : 0 < (delay : ℚ)
    · simp only [waits, if_true]
      rw [show (Admission.reserved res).see ⟨.delay res, delay⟩ =
        .rejecting res delay from if_pos waits]
      refine Paced.ask ⟨rfl, delay, rfl⟩ fun _ => Makes.paced ?_
      exact (makes_setHeader plain (by decide) _).bind fun _ =>
        makes_writeJSON plain (by decide) rfl
    · simp only [waits, if_false]
      rw [show (Admission.reserved res).see ⟨.delay res, delay⟩ = .admitted from if_neg waits]
      exact rest.served

/-- A secured route is behind the limiter of its key's scope. -/
theorem paced_secured {next : HandlerFunc} (limited : d.limiter.isSome)
    (rest : ∀ context, Makes AnyReply Op.Unlimited (next { r with context })) :
    Paced (r.keyScope d) .idle (secured d next r) := by
  have plain : ∀ o : Op, o.Plain "" → o.Free := fun _ => Op.Plain.free
  unfold secured apiKeyAuth
  rw [if_pos limited]
  split
  · next write =>
    rw [show r.keyScope d = .write from if_pos write]
    exact paced_rateLimit (r := { r with context.scope := some .write }) (rest _)
  · next other =>
    rw [show r.keyScope d = .read from if_neg other]
    split
    · exact paced_rateLimit (r := { r with context.scope := some .read }) (rest _)
    · exact (makes_writeJSON plain (by decide) rfl).paced

/-- Every route that calls a service is behind the limiter. -/
theorem paced_routeHTTP (limited : d.limiter.isSome) :
    Paced (r.keyScope d) .idle (routeHTTP d r) := by
  have free : ∀ id, ∀ o : Op, o.Plain id → o.Free := fun _ _ => Op.Plain.free
  have plain : ∀ id, ∀ o : Op, o.Plain id → o.Unlimited := fun _ _ plain => plain.free.unlimited
  rcases routeHTTP_cases d r with ⟨route, mem, id, -, -, eq⟩ | eq
  · rw [eq]
    have secure {next : HandlerFunc}
        (rest : ∀ context, Makes AnyReply Op.Unlimited (next { r with context })) :
        Paced (r.keyScope d) .idle
          (secured d next { r with context.pattern := route.pattern, context.id := id }) :=
      paced_secured (r := { r with context.pattern := route.pattern, context.id := id })
        limited rest
    simp only [routes, List.mem_cons, List.not_mem_nil, or_false] at mem
    rcases mem with rfl | rfl | rfl | rfl | rfl | rfl | rfl | rfl | rfl
    · exact (makes_healthz (free "") r).paced
    · exact (makes_readyz (free "") r trivial).paced
    · exact (makes_metricsHandler (free "") d r trivial).paced
    · exact secure fun _ => makes_balance (plain _) fun _ => trivial
    · exact secure fun _ => makes_entries (plain _) fun _ _ _ => trivial
    · exact secure fun _ =>
        makes_requireWriteScope (plain _) (makes_createAccount (plain _) (fun _ => trivial) trivial)
    · exact secure fun _ => makes_requireWriteScope (plain _)
        (makes_deposit (plain _) (fun _ _ => trivial) (fun _ => trivial) (fun _ _ _ => trivial)
          fun _ => trivial)
    · exact secure fun _ => makes_requireWriteScope (plain _)
        (makes_withdraw (plain _) (fun _ _ => trivial) (fun _ => trivial) (fun _ _ _ => trivial)
          fun _ => trivial)
    · exact secure fun _ => makes_requireWriteScope (plain _)
        (makes_transfer (plain _) (fun _ _ => trivial) (fun _ => trivial) (fun _ _ _ => trivial)
          fun _ => trivial)
  · rw [eq]
    exact (makes_unrouted (free "") _ _ _ _).paced

theorem paced_newRouter (limited : d.limiter.isSome) :
    Paced (r.keyScope d) .idle (newRouter d r) := by
  have free : ∀ o : Op, o.Plain "" → o.Free := fun _ => Op.Plain.free
  have metered : ∀ context,
      Paced (r.keyScope d) .idle (httpMetrics (routePattern d) (routeHTTP d) { r with context }) :=
    fun context => (paced_routeHTTP (r := { r with context }) limited).recording.bind fun _ =>
      .call trivial
  have recovered : ∀ context,
      Paced (r.keyScope d) .idle (recoverer (httpMetrics (routePattern d) (routeHTTP d))
        { r with context }) := by
    intro context
    refine Prog.Always.bind (metered context) fun state outcome _ => ?_
    split
    · trivial
    · trivial
    · exact Makes.paced ((Makes.call trivial).bind fun _ => makes_writeJSON free (by decide) rfl)
  refine Makes.bind_paced ?_ fun id => Makes.bind_paced (.call trivial) fun _ => ?_
  · unfold correlationID
    split
    · exact (Makes.call trivial).map _
    · exact .pure _
  · exact (recovered _).recording.bind fun _ => .call trivial

end Router

/-! ### Connections -/

/-- Where a connection stands with the limiter of a scope. -/
def Server.admission (d : Deps) (s : Server) (scope : ApiKeyScope) (i : Nat) : Admission :=
  match s.connections i with
  | .serving r _ events => if r.keyScope d = scope then events.foldl Admission.see .idle else .idle
  | .idle => .idle

/-- It carries a key of this scope and has called a service. -/
def Connection.served (d : Deps) (scope : ApiKeyScope) : Connection → Bool
  | .serving r _ events => r.keyScope d = scope && events.any (·.1.serves)
  | .idle => false

/-- The connections with a key of this scope, and their bucket, as a `Throttle`. -/
structure Server.Paces (d : Deps) (scope : ApiKeyScope) (s : Server) (t : Throttle) : Prop where
  bucket : t.bucket = s.buckets scope
  requests : ∀ i, t.requests i = s.admission d scope i

def Act.time : Act → Option ℚ
  | .turn _ c => some c.now
  | _ => none

namespace Server

variable {d : Deps} {s s' : Server} {a : Act} {i : Nat} {scope : ApiKeyScope} {lim : Limiter}
  {t : Throttle}

/-- Where a connection of this scope stands is told by its events. -/
theorem admission_serving {r : Request} {prog : Prog sig (Except Panic Unit)}
    {events : List (Event sig)} (was : s.connections i = .serving r prog events)
    (own : r.keyScope d = scope) : s.admission d scope i = events.foldl Admission.see .idle := by
  rw [admission, was]
  exact if_pos own

theorem admission_other {r : Request} {prog : Prog sig (Except Panic Unit)}
    {events : List (Event sig)} (was : s.connections i = .serving r prog events)
    (other : r.keyScope d ≠ scope) : s.admission d scope i = .idle := by
  rw [admission, was]
  exact if_neg other

theorem admission_congr {s' : Server} (same : s'.connections i = s.connections i) :
    s'.admission d scope i = s.admission d scope i := by
  rw [admission, same]
  rfl

/-- What a connection is about to call is what it may. -/
theorem Tended.allowed {r : Request} {o : Op} {next : o.Reply → Prog sig (Except Panic Unit)}
    {events : List (Event sig)} (tended : s.Tended d i r (.op o next) events)
    (limited : d.limiter = some lim) : (events.foldl Admission.see .idle).Allows (r.keyScope d) o :=
  (tended.reached.always (paced_newRouter (r := r.incoming) (by rw [limited]; rfl))).1

/-- A connection that has called a service had been let through. -/
theorem Tended.admitted {r : Request} {prog : Prog sig (Except Panic Unit)}
    {events : List (Event sig)} (tended : s.Tended d i r prog events)
    (limited : d.limiter = some lim) {e : Event sig} (mem : e ∈ events)
    (serves : e.1.serves = true) : events.foldl Admission.see .idle = .admitted := by
  have paced := paced_newRouter (d := d) (r := r.incoming) (by rw [limited]; rfl)
  have reached := tended.reached
  clear tended
  induction reached with
  | refl => cases mem
  | @next events o rest reply before ih =>
    have allowed := (before.always paced).1
    rw [List.foldl_append]
    have stays : events.foldl Admission.see .idle = .admitted →
        ([⟨o, reply⟩] : List (Event sig)).foldl Admission.see (events.foldl Admission.see .idle) =
        .admitted := by
      intro admitted
      rw [admitted]
      rfl
    rcases List.mem_append.mp mem with old | new
    · exact stays (ih old)
    · cases List.mem_singleton.mp new
      refine stays ?_
      cases o with
      | create _ | balance _ | entries _ _ _ | transfer _ => exact allowed
      | _ => cases serves

/-- A step that leaves the bucket and the standing of every connection alone. -/
theorem Paces.congr (paces : s.Paces d scope t) (bucket : s'.buckets scope = s.buckets scope)
    (same : ∀ i, s'.admission d scope i = s.admission d scope i) : s'.Paces d scope t :=
  ⟨paces.bucket.trans bucket.symm, fun i => (paces.requests i).trans (same i).symm⟩

/-- A call of a connection that the throttle makes as well. -/
theorem Paces.takes (paces : s.Paces d scope t) (after : Server)
    (connections : after.connections = s.connections) {r : Request}
    {prog : Prog sig (Except Panic Unit)} {events : List (Event sig)} {e : Event sig}
    (own : r.keyScope d = scope) {now : ℚ} {admission : Admission} {bucket : Rate.Bucket}
    {log : List (Nat × ℚ)} (filled : after.buckets scope = bucket)
    (seen : (events.foldl Admission.see .idle).see e = admission) :
    (after.set i (.serving r prog (events ++ [e]))).Paces d scope
    { t.set now i admission bucket with log } := by
  refine ⟨filled.symm, fun j => ?_⟩
  by_cases mine : j = i
  · subst mine
    rw [admission_serving (connections_set_self _) own, List.foldl_append]
    exact (if_pos rfl).trans seen.symm
  · rw [admission_congr ((connections_set mine _).trans (congrFun connections j)),
      ← paces.requests j]
    exact if_neg mine

/-- Only the two calls of a limiter change its bucket. -/
theorem Answer.buckets {c : Choice} {o : Op} {reply : o.Reply} {after : Server}
    (answered : Answer d s i c o reply after)
    (other : o ≠ .reserve scope ∧ ∀ res, o ≠ .cancel scope res) :
    after.buckets scope = s.buckets scope := by
  cases answered with
  | limits o reply scope' bucket limiter =>
    have different : scope ≠ scope' := by
      rintro rfl
      rcases limiter with rfl | ⟨res, rfl⟩
      · exact other.1 rfl
      · exact other.2 res rfl
    exact if_neg different
  | _ => rfl

/-- A call of a connection that changes neither the bucket nor where it stands. -/
theorem Paces.turns (paces : s.Paces d scope t) {after : Server} {r : Request} {o : Op}
    {next : o.Reply → Prog sig (Except Panic Unit)} {events : List (Event sig)} {reply : o.Reply}
    (was : s.connections i = .serving r (.op o next) events)
    (connections : after.connections = s.connections)
    (bucket : after.buckets scope = s.buckets scope)
    (stays : r.keyScope d = scope → (events.foldl Admission.see .idle).see ⟨o, reply⟩ =
      events.foldl Admission.see .idle) :
    (after.set i (.serving r (next reply) (events ++ [⟨o, reply⟩]))).Paces d scope t := by
  refine paces.congr bucket fun j => ?_
  by_cases mine : j = i
  · subst mine
    by_cases own : r.keyScope d = scope
    · rw [admission_serving (connections_set_self _) own, admission_serving was own,
        List.foldl_append]
      exact stays own
    · rw [admission_other (connections_set_self _) own, admission_other was own]
  · exact admission_congr ((connections_set mine _).trans (congrFun connections j))

section Calls

variable {r : Request} {events : List (Event sig)} {now : ℚ}

/-- A reservation of the server is one of the throttle. -/
theorem Paces.reserves (paces : s.Paces d scope t) (lim : Limiter)
    {next : Rate.Reservation → Prog sig (Except Panic Unit)}
    (was : s.connections i = .serving r (.op (.reserve scope) next) events)
    (own : r.keyScope d = scope) (idle : events.foldl Admission.see .idle = .idle)
    (inTime : t.clock ≤ now) {outcome : Rate.Reservation × Rate.Bucket}
    (made : lim.reserve (s.buckets scope) now = outcome) :
    ∃ t', t.step lim (.reserve i now) = some t' ∧
      ((s.setBucket scope outcome.2).set i
        (.serving r (next outcome.1) (events ++ [⟨.reserve scope, outcome.1⟩]))).Paces d
        scope t' := by
  have unused : t.requests i = .idle := by
    rw [paces.requests, admission_serving was own, idle]
  have due : ¬ (ThrottleAct.reserve i now).time < t.clock := not_lt.mpr inTime
  rw [Throttle.step, if_neg due]
  simp only [Throttle.act, unused, paces.bucket, made]
  by_cases open' : outcome.1.ok = false
  · exact ⟨_, if_pos open', paces.takes (s.setBucket scope outcome.2) rfl own (if_pos rfl)
      (by rw [idle]; exact if_pos open')⟩
  · exact ⟨_, if_neg open', paces.takes (s.setBucket scope outcome.2) rfl own (if_pos rfl)
      (by rw [idle]; exact if_neg open')⟩

/-- The delay that the server asks for is the one the throttle decides by. -/
theorem Paces.delays (paces : s.Paces d scope t) (lim : Limiter) {res : Rate.Reservation}
    {next : ℚ → Prog sig (Except Panic Unit)}
    (was : s.connections i = .serving r (.op (.delay res) next) events) (own : r.keyScope d = scope)
    (reserved : events.foldl Admission.see .idle = .reserved res) (inTime : t.clock ≤ now)
    {delay : ℚ} (told : res.delayFrom now = delay) : ∃ t', t.step lim (.delay i now) = some t' ∧
      (s.set i (.serving r (next delay) (events ++ [⟨.delay res, delay⟩]))).Paces d scope t' := by
  have waiting : t.requests i = .reserved res := by
    rw [paces.requests, admission_serving was own, reserved]
  have due : ¬ (ThrottleAct.delay i now).time < t.clock := not_lt.mpr inTime
  rw [Throttle.step, if_neg due]
  simp only [Throttle.act, waiting, told]
  by_cases waits : 0 < delay
  · exact ⟨_, if_pos waits, paces.takes s rfl own paces.bucket.symm
      (by rw [reserved]; exact if_pos waits)⟩
  · exact ⟨_, if_neg waits, paces.takes s rfl own paces.bucket.symm
      (by rw [reserved]; exact if_neg waits)⟩

/-- A cancellation of the server is one of the throttle. -/
theorem Paces.cancels (paces : s.Paces d scope t) (lim : Limiter) {res : Rate.Reservation}
    {next : Unit → Prog sig (Except Panic Unit)}
    (was : s.connections i = .serving r (.op (.cancel scope res) next) events)
    (own : r.keyScope d = scope) {delay : ℚ}
    (rejecting : events.foldl Admission.see .idle = .rejecting res delay) (inTime : t.clock ≤ now) :
    ∃ t', t.step lim (.cancel i now) = some t' ∧
      ((s.setBucket scope (lim.cancelAt (s.buckets scope) res now)).set i
        (.serving r (next ()) (events ++ [⟨.cancel scope res, ()⟩]))).Paces d scope t' := by
  have waiting : t.requests i = .rejecting res delay := by
    rw [paces.requests, admission_serving was own, rejecting]
  have due : ¬ (ThrottleAct.cancel i now).time < t.clock := not_lt.mpr inTime
  rw [Throttle.step, if_neg due]
  simp only [Throttle.act, waiting, paces.bucket]
  exact ⟨_, rfl, paces.takes (s.setBucket scope _) rfl own (if_pos rfl) (by rw [rejecting]; rfl)⟩

end Calls

theorem see_unlimited {o : Op} (unlimited : o.Unlimited) (admission : Admission) (reply : o.Reply) :
    admission.see ⟨o, reply⟩ = admission := by
  cases o with
  | reserve _ | delay _ | cancel _ _ => exact unlimited.elim
  | _ => cases admission <;> rfl

/-- To the throttle of a scope, a step of the server is one of its own or none. -/
theorem Move.paces (move : s.Move d a s') (inv : s.Inv d) (limited : d.limiter = some lim)
    (paces : s.Paces d scope t) (inTime : ∀ now ∈ a.time, t.clock ≤ now) :
    s'.Paces d scope t ∨ ∃ b t', t.step lim b = some t' ∧ s'.Paces d scope t' ∧
      a.time = some b.time := by
  cases move with
  | arrives i r was unused =>
    refine .inl (paces.congr rfl fun j => ?_)
    by_cases mine : j = i
    · subst mine
      rw [admission, admission, was, connections_set_self]
      exact ite_self _
    · exact admission_congr (connections_set mine _)
  | calls i r cmd next events w was stepped => exact .inl (paces.congr rfl fun _ => rfl)
  | world b w foreign stepped => exact .inl (paces.congr rfl fun _ => rfl)
  | turns i c r o next events reply after was answered =>
    have cases' := answer_cases answered
    have allowed := (inv.tended was).allowed limited
    have inTime : t.clock ≤ c.now := inTime c.now rfl
    by_cases own : r.keyScope d = scope
    · subst own
      have quiet :
          o.Unlimited → (o ≠ .reserve (r.keyScope d) ∧ ∀ res, o ≠ .cancel (r.keyScope d) res) →
          (after.set i (.serving r (next reply) (events ++ [⟨o, reply⟩]))).Paces d
          (r.keyScope d) t :=
        fun unlimited other => paces.turns was cases'.connections (cases'.buckets other) fun _ =>
          see_unlimited unlimited _ reply
      cases o with
      | reserve scope' =>
        obtain ⟨rfl, idle⟩ := allowed
        simp only [answer, limited, Option.map_some, Option.some.injEq, Prod.mk.injEq] at answered
        obtain ⟨rfl, rfl⟩ := answered
        obtain ⟨t', stepped, paced⟩ := paces.reserves lim was rfl idle inTime rfl
        exact .inr ⟨_, t', stepped, paced, rfl⟩
      | delay res =>
        cases answered
        obtain ⟨t', stepped, paced⟩ := paces.delays lim was rfl allowed inTime rfl
        exact .inr ⟨_, t', stepped, paced, rfl⟩
      | cancel scope' res =>
        obtain ⟨rfl, delay, rejecting⟩ := allowed
        simp only [answer, limited, Option.map_some, Option.some.injEq, Prod.mk.injEq] at answered
        obtain ⟨-, rfl⟩ := answered
        obtain ⟨t', stepped, paced⟩ := paces.cancels lim was rfl rejecting inTime
        exact .inr ⟨_, t', stepped, paced, rfl⟩
      | _ => exact .inl (quiet trivial ⟨by rintro ⟨⟩, by rintro res ⟨⟩⟩)
    · refine .inl (paces.turns was cases'.connections (cases'.buckets ⟨?_, ?_⟩) fun same =>
        absurd same own)
      · rintro rfl
        exact own allowed.1.symm
      · rintro res rfl
        exact own allowed.1.symm

def times (acts : List Act) : List ℚ := acts.filterMap Act.time

/-- A connection whose service has been called had been let through. -/
theorem Inv.served (inv : s.Inv d) (limited : d.limiter = some lim)
    (served : (s.connections i).served d scope = true) : s.admission d scope i = .admitted := by
  cases was : s.connections i with
  | idle =>
    rw [was] at served
    cases served
  | serving r prog events =>
    rw [was] at served
    obtain ⟨own, called⟩ := (Bool.and_eq_true _ _).mp served
    obtain ⟨e, mem, serves⟩ := List.any_eq_true.mp called
    rw [admission_serving was (of_decide_eq_true own)]
    exact (inv.tended was).admitted limited mem serves

theorem Paces.start (limited : d.limiter = some lim) (w : World) :
    (start d w).Paces d scope (.init lim) := by
  refine ⟨?_, fun _ => rfl⟩
  change lim.full = d.limiter.elim ⟨0, 0, 0⟩ (·.full)
  rw [limited]
  rfl

end Server

namespace Crowded

open Local

def deps : Deps := depsWith (some Overlapping.lim)

/-- Two requests at one instant. -/
def acts : List Act :=
  [.arrive 0 query, .arrive 1 query] ++ List.replicate 4 (.turn 0 choice) ++
    List.replicate 10 (.turn 1 choice)

end Crowded

end WalletGo.Http
