import WalletGo.App.Creation
import WalletGo.Http.Router
import WalletGo.Txn.Calls
import WalletGo.World.Startup
import WalletGo.World.Trace

/-!
The wallet as its clients see it: connections over one database.

Each connection carries one request. Its handler is the residual program of `newRouter`
with the calls it has made; the calls of all handlers and the statements of the
transactions they have open interleave. A handler that calls `Transfer` opens a session of
`WalletGo.World.State` and waits until it has returned or a panic has ended it. Other
processes on the same database are sessions without a connection. Whatever the environment
decides about a call is part of the act.

* `Server.world_runs`: to the database, a run of the server is a run of the world.
* `Server.Tended`: what a connection has been told of its session, and what it has counted.
-/

namespace WalletGo.World

/-- Only a start gets a session going. -/
theorem step_idle {w w' : World} {a : Act} {i : Nat} (idle : w.sessions i = .idle)
    (mine : a.session = some i) (stepped : w.step a = some w') : ∃ e cmd, a = .start i e cmd := by
  cases a with
  | start j e cmd =>
    cases mine
    exact ⟨e, cmd, rfl⟩
  | openAccount a => cases mine
  | _ => cases mine; simp [step, idle] at stepped

/-- A session that has been started keeps to its command, unless it crashes. -/
theorem runs_started {w w' : World} {acts : List Act} {i : Nat} {e : Executor}
    {cmd : TransferCommand} (ran : Txn.runs step w acts = some w') (mem : .start i e cmd ∈ acts) :
    w'.sessions i = .crashed ∨ (w'.sessions i).command = some cmd := by
  obtain ⟨before, after, rfl⟩ := List.append_of_mem mem
  obtain ⟨m, -, ran⟩ := Txn.runs_append_iff.mp ran
  obtain ⟨m', stepped, ran⟩ := Txn.runs_cons_iff.mp ran
  refine Txn.runs_invariant (fun w : World => w.sessions i = .crashed ∨
    (w.sessions i).command = some cmd) ?_
    (.inr (step_start stepped).2) ran
  rintro w w' a (crashed | command) stepped
  · have other : a.session ≠ some i := fun mine => step_live mine stepped (by rw [crashed]; trivial)
    exact .inl (((step_move stepped).sessions_other other).trans crashed)
  · exact (step_move stepped).command command

/-- Only a crash leaves a session crashed. -/
theorem step_uncrashed {w w' : World} {a : Act} {i : Nat} (running : w.sessions i ≠ .crashed)
    (other : a ≠ .crash i) (stepped : w.step a = some w') : w'.sessions i ≠ .crashed := by
  have failed :
      ∀ (call : Call) attempt result err, call.afterError attempt result err ≠ .crashed := by
    intro call attempt result err crashed
    have command := call.afterError_command attempt result err
    rw [crashed] at command
    cases command
  by_cases mine : a.session = some i
  · cases a with
    | openAccount a => cases mine
    | crash j =>
      cases mine
      exact absurd rfl other
    | start j e cmd =>
      cases mine
      obtain ⟨-, command⟩ := step_start stepped
      intro crashed
      rw [crashed] at command
      cases command
    | begin j fault =>
      cases mine
      simp only [step] at stepped
      split at stepped
      · cases stepped
        rw [sessions_set_self]
        exact failed _ _ _ _
      · cases stepped
        rw [sessions_set_self]
        rintro ⟨⟩
      · cases stepped
    | perform j c =>
      cases mine
      simp only [step] at stepped
      split at stepped
      · simp only [perform] at stepped
        split at stepped
        · cases stepped
        · split at stepped
          · cases stepped
          · cases stepped
            rw [show (w.performed i _ _ _ _ _ c).sessions i = _ from sessions_set_self _]
            rintro ⟨⟩
      · cases stepped
    | rollback j =>
      cases mine
      simp only [step] at stepped
      split at stepped
      · split at stepped
        · cases stepped
          rw [sessions_set_self]
          exact failed _ _ _ _
        · cases stepped
      · cases stepped
    | commit j outcome =>
      cases mine
      simp only [step, commit] at stepped
      split at stepped
      · split at stepped
        · split at stepped
          · cases stepped
            rw [sessions_set_self]
            exact failed _ _ _ _
          · split at stepped
            · cases stepped
            · cases stepped
              rw [sessions_set_self]
              rintro ⟨⟩
          · split at stepped
            · cases stepped
            · cases stepped
              rw [sessions_set_self]
              exact failed _ _ _ _
        · cases stepped
      · cases stepped
    | wake j cancelled =>
      cases mine
      simp only [step] at stepped
      split at stepped
      · cases stepped
        rw [sessions_set_self]
        rintro ⟨⟩
      · cases stepped
        rw [sessions_set_self]
        rintro ⟨⟩
      · cases stepped
  · rw [(step_move stepped).sessions_other mine]
    exact running

/-- A session that no act crashes does not crash. -/
theorem runs_uncrashed {w w' : World} {acts : List Act} {i : Nat}
    (running : w.sessions i ≠ .crashed) (spared : ∀ a ∈ acts, a ≠ .crash i)
    (ran : Txn.runs step w acts = some w') : w'.sessions i ≠ .crashed :=
  Txn.runs_admissible (· ≠ .crash i) (fun w : World => w.sessions i ≠ .crashed)
    (fun spared running stepped => step_uncrashed running spared stepped) spared running ran

end WalletGo.World

namespace WalletGo.Http

open Txn (Prog Event runs)

/-- What the environment decides about one call. -/
structure Choice where
  find : Option GoError
  sum : Option GoError
  list : Option ListFault
  insert : CommitOutcome
  panic : Option Panic
  uuid : UUID
  now : ℚ

/-- A service returns, or panics once its work is done. -/
def Choice.raise {β : Type} (c : Choice) (reply : Except GoError β) :
    Except Panic (Except GoError β) :=
  match c.panic with
  | some value => .error value
  | none => .ok reply

inductive Connection where
  | idle
  /-- `prog` is what is left of the handler. -/
  | serving (r : Request) (prog : Prog sig (Except Panic Unit)) (events : List (Event sig))

/-- What the client gets of a handler that made these calls. -/
def responseOf (events : List (Event sig)) : Response := Response.of (events.map (·.1))

/-- What a connection was answered with, once its handler has returned. -/
def Connection.response : Connection → Option Response
  | .serving _ (.ret _) events => some (responseOf events)
  | _ => none

def Connection.isIdle : Connection → Bool
  | .idle => true
  | .serving .. => false

structure Server where
  world : World
  buckets : ApiKeyScope → Rate.Bucket
  connections : Nat → Connection
  /-- The increments of the counters, each with the connection that made it. -/
  counters : List (Nat × Series)

inductive Act where
  | arrive (i : Nat) (r : Request)
  /-- The handler calls `Transfer`. -/
  | call (i : Nat)
  | turn (i : Nat) (c : Choice)
  /-- A session goes on, or another process does something. -/
  | world (a : WalletGo.Act)

/-- `context.Background()` -/
def Context.background : Context := ⟨"", none, "", ""⟩

def Request.incoming (r : Request) : Request := { r with context := .background }

/-- The world after `AccountService.Create`, whose insert is committed by itself. -/
def created (w : World) (ownerID : String) (id : UUID) (insert : CommitOutcome) : World :=
  let db := (createInsert ownerID id insert w.db).2
  { w with db, log := w.log ++ (db.accounts.drop w.db.accounts.length).map .account }

namespace Server

/-- A process starts on what it finds: `NewRouter` with new limiters and counters. -/
def start (d : Deps) (w : World) : Server where
  world := w
  buckets _ := d.limiter.elim ⟨0, 0, 0⟩ (·.full)
  connections _ := .idle
  counters := []

def set (s : Server) (i : Nat) (connection : Connection) : Server :=
  { s with connections := fun j => if j = i then connection else s.connections j }

def setBucket (s : Server) (scope : ApiKeyScope) (bucket : Rate.Bucket) : Server :=
  { s with buckets := fun other => if other = scope then bucket else s.buckets other }

/-- What `Transfer` comes back with, once its session has ended. -/
def reply (s : Server) (i : Nat) (c : Choice) :
    Option (Except Panic (Except GoError TransferResult)) :=
  match s.world.sessions i with
  | .returned _ result => some (.ok result)
  | .crashed => some (.error (c.panic.getD (.other "")))
  | _ => none

/-- The reply to a call of connection `i`, and the server after it. -/
def answer (d : Deps) (s : Server) (i : Nat) (c : Choice) : (o : Op) → Option (o.Reply × Server)
  | .setHeader .. | .writeHeader _ | .write _ | .log _ => some ((), s)
  | .inc series => some ((), { s with counters := s.counters ++ [(i, series)] })
  | .newUUID => some (c.uuid, s)
  | .ping => some (c.find.isNone, s)
  | .gather => some (s.counters.map (·.2), s)
  | .reserve scope => d.limiter.map fun lim =>
      let outcome := lim.reserve (s.buckets scope) c.now
      (outcome.1, s.setBucket scope outcome.2)
  | .delay res => some (res.delayFrom c.now, s)
  | .cancel scope res => d.limiter.map fun lim =>
      ((), s.setBucket scope (lim.cancelAt (s.buckets scope) res c.now))
  | .create ownerID =>
      some (c.raise (createAccount ownerID c.uuid c.insert c.find s.world.db).1,
        { s with world := created s.world ownerID c.uuid c.insert })
  | .balance accountID => some (c.raise (WalletGo.balance c.find c.sum accountID s.world.db), s)
  | .entries accountID afterID limit =>
      some (c.raise (WalletGo.entries c.find c.list accountID afterID limit s.world.db s.world.db),
        s)
  | .transfer _ => (s.reply i c).map fun reply => (reply, s)

/-- A session is started by its connection, or by another process. -/
def foreign (s : Server) : WalletGo.Act → Bool
  | .start i _ _ => (s.connections i).isIdle
  | _ => true

def step (d : Deps) (s : Server) : Act → Option Server
  | .arrive i r =>
    match s.connections i, s.world.sessions i with
    | .idle, .idle => some (s.set i (.serving r (newRouter d r.incoming).run []))
    | _, _ => none
  | .call i =>
    match s.connections i with
    | .serving _ (.op (.transfer cmd) _) _ =>
      (s.world.step (.start i d.executor cmd)).map fun w => { s with world := w }
    | _ => none
  | .turn i c =>
    match s.connections i with
    | .serving r (.op o next) events =>
      (s.answer d i c o).map fun outcome =>
        outcome.2.set i (.serving r (next outcome.1) (events ++ [⟨o, outcome.1⟩]))
    | _ => none
  | .world a =>
    if s.foreign a then (s.world.step a).map fun w => { s with world := w } else none

end Server

/-! ### A small server -/

namespace Local

def depsWith (limiter : Option Rate.Limiter) : Deps where
  apiKey := "secret"
  readOnlyAPIKey := "reader"
  limiter := limiter
  executor := .locking
  systemAccountID := Scenario.systemID
  sha256 := id
  texts := pgxTexts
  uuids := .google
  mux := .chi
  metricsContentType := "text/plain; version=0.0.4; charset=utf-8; escaping=underscores"

def query : Request where
  method := "GET"
  path := ["accounts", "00000000-0000-0000-0000-000000000002", "balance"]
  apiKey := "secret"
  requestID := "x"
  idempotencyKey := ""
  after := ""
  limit := ""
  body := []
  context := .background

def choice : Choice := ⟨none, none, none, .acknowledged, none, .ofByte 9, 0⟩

end Local

/-! ### What a step can do -/

inductive Server.Move (d : Deps) (s : Server) : Act → Server → Prop where
  | arrives (i : Nat) (r : Request) (was : s.connections i = .idle)
      (unused : s.world.sessions i = .idle) :
      Move d s (.arrive i r) (s.set i (.serving r (newRouter d r.incoming).run []))
  | calls (i : Nat) (r : Request) (cmd : TransferCommand)
      (next : (Op.transfer cmd).Reply → Prog sig (Except Panic Unit))
      (events : List (Event sig)) (w : World)
      (was : s.connections i = .serving r (.op (.transfer cmd) next) events)
      (stepped : s.world.step (.start i d.executor cmd) = some w) :
      Move d s (.call i) { s with world := w }
  | turns (i : Nat) (c : Choice) (r : Request) (o : Op)
      (next : o.Reply → Prog sig (Except Panic Unit))
      (events : List (Event sig)) (reply : o.Reply) (after : Server)
      (was : s.connections i = .serving r (.op o next) events)
      (answered : s.answer d i c o = some (reply, after)) :
      Move d s (.turn i c) (after.set i (.serving r (next reply) (events ++ [⟨o, reply⟩])))
  | world (a : WalletGo.Act) (w : World) (foreign : s.foreign a = true)
      (stepped : s.world.step a = some w) :
      Move d s (.world a) { s with world := w }

namespace Server

variable {d : Deps} {s s' : Server} {a : Act} {i j : Nat}

/-- A step is one of the moves. -/
theorem step_move (stepped : s.step d a = some s') : s.Move d a s' := by
  cases a with
  | arrive i r =>
    simp only [step] at stepped
    split at stepped
    · next was unused =>
      cases stepped
      exact .arrives i r was unused
    · cases stepped
  | call i =>
    simp only [step] at stepped
    split at stepped
    · next r cmd next events was =>
      obtain ⟨w, moved, rfl⟩ := Option.map_eq_some_iff.mp stepped
      exact .calls i r cmd next events w was moved
    · cases stepped
  | turn i c =>
    simp only [step] at stepped
    split at stepped
    · next r o next events was =>
      obtain ⟨outcome, answered, rfl⟩ := Option.map_eq_some_iff.mp stepped
      exact .turns i c r o next events outcome.1 outcome.2 was answered
    · cases stepped
  | world a =>
    simp only [step] at stepped
    split at stepped
    · next foreign =>
      obtain ⟨w, moved, rfl⟩ := Option.map_eq_some_iff.mp stepped
      exact .world a w foreign moved
    · cases stepped

@[simp] theorem connections_set_self (connection : Connection) :
    (s.set i connection).connections i = connection :=
  if_pos rfl

@[simp] theorem world_set (connection : Connection) : (s.set i connection).world = s.world := rfl

@[simp] theorem buckets_set (connection : Connection) :
    (s.set i connection).buckets = s.buckets := rfl

@[simp] theorem counters_set (connection : Connection) :
    (s.set i connection).counters = s.counters := rfl

theorem connections_set (other : j ≠ i) (connection : Connection) :
    (s.set i connection).connections j = s.connections j := if_neg other

/-- What the reply to a call can be. -/
inductive Answer (d : Deps) (s : Server) (i : Nat) (c : Choice) :
    (o : Op) → o.Reply → Server → Prop where
  | writes (o : Op) (reply : o.Reply) (silent : ∀ series, o ≠ .inc series)
      (local' : ∀ cmd, o ≠ .transfer cmd) :
      Answer d s i c o reply s
  | counts (series : Series) :
      Answer d s i c (.inc series) () { s with counters := s.counters ++ [(i, series)] }
  | limits (o : Op) (reply : o.Reply) (scope : ApiKeyScope) (bucket : Rate.Bucket)
      (limiter : (o = .reserve scope) ∨ ∃ res, o = .cancel scope res) :
      Answer d s i c o reply (s.setBucket scope bucket)
  | creates (ownerID : String) (reply : (Op.create ownerID).Reply) :
      Answer d s i c (.create ownerID) reply
      { s with world := created s.world ownerID c.uuid c.insert }
  | replies (cmd : TransferCommand) (reply : (Op.transfer cmd).Reply)
      (ended : s.reply i c = some reply) :
      Answer d s i c (.transfer cmd) reply s

theorem answer_cases {c : Choice} {o : Op} {reply : o.Reply} {after : Server}
    (answered : s.answer d i c o = some (reply, after)) : Answer d s i c o reply after := by
  cases o with
  | inc series =>
    cases answered
    exact .counts series
  | reserve scope =>
    obtain ⟨lim, -, same⟩ := Option.map_eq_some_iff.mp answered
    cases same
    exact .limits _ _ scope _ (.inl rfl)
  | cancel scope res =>
    obtain ⟨lim, -, same⟩ := Option.map_eq_some_iff.mp answered
    cases same
    exact .limits _ _ scope _ (.inr ⟨res, rfl⟩)
  | create ownerID =>
    cases answered
    exact .creates ownerID _
  | transfer cmd =>
    obtain ⟨reply, ended, same⟩ := Option.map_eq_some_iff.mp answered
    cases same
    exact .replies cmd _ ended
  | _ =>
    cases answered
    exact .writes _ _ (by rintro series ⟨⟩) (by rintro cmd ⟨⟩)

theorem Answer.connections {c : Choice} {o : Op} {reply : o.Reply} {after : Server}
    (answered : Answer d s i c o reply after) : after.connections = s.connections := by
  cases answered <;> rfl

end Server

/-! ### The world below -/

/-- A creation is one act of the world, or none. -/
theorem created_step (w : World) (ownerID : String) (id : UUID) (insert : CommitOutcome) :
    created w ownerID id insert = w ∨
      ∃ a, w.step (.openAccount a) = some (created w ownerID id insert) := by
  have adds := Adds.createInsert ownerID id insert w.db
  unfold created
  generalize (createInsert ownerID id insert w.db).2 = db at adds
  cases adds with
  | nothing => exact .inl (by simp)
  | account a registers valid => exact .inr ⟨a, by simp [World.step, valid, Db.addAccount]⟩

/-- The acts of the world a run of the server may consist of. -/
inductive Below (d : Deps) (acts : List Act) : WalletGo.Act → Prop where
  | world {b : WalletGo.Act} (mem : .world b ∈ acts) : Below d acts b
  | call {i : Nat} (mem : .call i ∈ acts) (cmd : TransferCommand) :
      Below d acts (.start i d.executor cmd)
  | opens (a : Account) : Below d acts (.openAccount a)

theorem Below.mono {d : Deps} {acts more : List Act} {b : WalletGo.Act} (below : Below d acts b)
    (sub : acts ⊆ more) : Below d more b := by
  cases below with
  | world mem => exact .world (sub mem)
  | call mem cmd => exact .call (sub mem) cmd
  | opens a => exact .opens a

namespace Server

variable {d : Deps} {s s' : Server} {a : Act} {i j : Nat}

/-- To the world, a step of the server is an act or nothing. -/
theorem Move.below (move : s.Move d a s') :
    s'.world = s.world ∨ ∃ b, s.world.step b = some s'.world ∧ Below d [a] b := by
  cases move with
  | arrives i r was unused => exact .inl (world_set _)
  | calls i r cmd next events w was stepped =>
    exact .inr ⟨_, stepped, .call (List.mem_singleton_self _) cmd⟩
  | world b w foreign stepped => exact .inr ⟨b, stepped, .world (List.mem_singleton_self _)⟩
  | turns i c r o next events reply after was answered =>
    rw [world_set]
    cases answer_cases answered with
    | creates ownerID _ =>
      dsimp only
      rcases created_step s.world ownerID c.uuid c.insert with same | ⟨b, stepped⟩
      · exact .inl same
      · exact .inr ⟨_, stepped, .opens b⟩
    | _ => exact .inl rfl

/-- Below every run of the server there is a run of the transfers. -/
theorem world_runs {acts : List Act} (ran : runs (step d) s acts = some s') :
    ∃ below, runs World.step s.world below = some s'.world ∧ ∀ b ∈ below, Below d acts b := by
  induction acts generalizing s with
  | nil =>
    cases ran
    exact ⟨[], rfl, by rintro b ⟨⟩⟩
  | cons a rest ih =>
    obtain ⟨m, stepped, ran⟩ := Txn.runs_cons_iff.mp ran
    obtain ⟨below, reached, allowed⟩ := ih ran
    have later : ∀ b ∈ below, Below d (a :: rest) b :=
      fun b mem => (allowed b mem).mono (List.subset_cons_self a rest)
    rcases (step_move stepped).below with same | ⟨b, moved, own⟩
    · exact ⟨below, same ▸ reached, later⟩
    · refine ⟨b :: below, Txn.runs_cons_iff.mpr ⟨m.world, moved, reached⟩, ?_⟩
      intro b' mem
      rcases List.mem_cons.mp mem with rfl | mem
      · exact own.mono (List.cons_subset_cons a (List.nil_subset rest))
      · exact later b' mem

end Server

/-! ### Connections and their sessions -/

def increments (events : List (Event sig)) : List Series :=
  events.filterMap fun e =>
    match e.1 with
    | .inc series => some series
    | _ => none

/-- The session has ended in what its connection was told. -/
def Told (session : Session) : Except Panic (Except GoError TransferResult) → Prop
  | .ok result => ∃ cmd, session = .returned cmd result
  | .error _ => session = .crashed

theorem Told.over {session : Session} {reply : Except Panic (Except GoError TransferResult)}
    (told : Told session reply) : session.Over := by
  cases reply with
  | ok result =>
    obtain ⟨cmd, rfl⟩ := told
    trivial
  | error value =>
    rw [show session = .crashed from told]
    trivial

structure Server.Tended (d : Deps) (s : Server) (i : Nat) (r : Request)
    (prog : Prog sig (Except Panic Unit)) (events : List (Event sig)) : Prop where
  reached : (newRouter d r.incoming).run.Reaches events prog
  told : ∀ cmd reply, ⟨.transfer cmd, reply⟩ ∈ events → Told (s.world.sessions i) reply
  /-- The session was started by a call of the handler. -/
  called : s.world.sessions i = .idle ∨ ∃ cmd,
    (s.world.sessions i = .crashed ∨ (s.world.sessions i).command = some cmd) ∧
      ((∃ next, prog = .op (.transfer cmd) next) ∨ ∃ reply, ⟨.transfer cmd, reply⟩ ∈ events)
  counted : s.counters.filter (·.1 = i) = (increments events).map fun series => (i, series)

/-- Every connection is tended; one that is not in use has counted nothing. -/
def Server.Inv (d : Deps) (s : Server) : Prop :=
  ∀ i, match s.connections i with
    | .idle => s.counters.filter (·.1 = i) = []
    | .serving r prog events => s.Tended d i r prog events

namespace Server

variable {d : Deps} {s s' : Server} {a : Act} {i j : Nat} {r : Request}
  {prog : Prog sig (Except Panic Unit)}
  {events : List (Event sig)}

/-- An act of the world that does not start the connection's session. -/
theorem Tended.world (tended : s.Tended d i r prog events) {b : WalletGo.Act} {w : World}
    (stepped : s.world.step b = some w) (other : ∀ e cmd, b ≠ .start i e cmd) :
    Tended d { s with world := w } i r prog events := by
  have move := World.step_move stepped
  refine ⟨tended.reached, ?_, ?_, tended.counted⟩
  · intro cmd reply mem
    have told := tended.told cmd reply mem
    have elsewhere : b.session ≠ some i := fun mine => World.step_live mine stepped told.over
    rw [show ({ s with world := w } : Server).world.sessions i = s.world.sessions i from
      move.sessions_other elsewhere]
    exact told
  · by_cases mine : b.session = some i
    · rcases tended.called with idle | ⟨cmd, course, asked⟩
      · obtain ⟨e, cmd, rfl⟩ := World.step_idle idle mine stepped
        exact absurd rfl (other e cmd)
      · refine .inr ⟨cmd, ?_, asked⟩
        rcases course with crashed | command
        · exact absurd (by rw [crashed]; trivial) (World.step_live mine stepped)
        · exact move.command command
    · rw [show ({ s with world := w } : Server).world.sessions i = s.world.sessions i from
        move.sessions_other mine]
      exact tended.called

/-- The call starts the connection's own session. -/
theorem Tended.calls {cmd : TransferCommand} {next : (Op.transfer cmd).Reply →
      Prog sig (Except Panic Unit)}
    (tended : s.Tended d i r (.op (.transfer cmd) next) events) {e : Executor} {w : World}
    (stepped : s.world.step (.start i e cmd) = some w) :
    Tended d { s with world := w } i r (.op (.transfer cmd) next) events := by
  obtain ⟨idle, command⟩ := World.step_start stepped
  refine ⟨tended.reached, ?_, .inr ⟨cmd, .inr command, .inl ⟨next, rfl⟩⟩, tended.counted⟩
  intro cmd' reply mem
  have ended := (tended.told cmd' reply mem).over
  rw [idle] at ended
  exact ended.elim

/-- What another connection does. -/
theorem Tended.congr (tended : s.Tended d i r prog events)
    (sessions : s'.world.sessions i = s.world.sessions i)
    (counters : s'.counters.filter (·.1 = i) = s.counters.filter (·.1 = i)) :
    s'.Tended d i r prog events where
  reached := tended.reached
  told := by rw [sessions]; exact tended.told
  called := by rw [sessions]; exact tended.called
  counted := counters.trans tended.counted

theorem created_sessions (w : World) (ownerID : String) (id : UUID) (insert : CommitOutcome) :
    (created w ownerID id insert).sessions = w.sessions := by
  rcases created_step w ownerID id insert with same | ⟨b, stepped⟩
  · rw [same]
  · funext i
    exact (World.step_move stepped).sessions_other (by rintro ⟨⟩)

theorem Answer.sessions {c : Choice} {o : Op} {reply : o.Reply} {after : Server}
    (answered : Answer d s i c o reply after) : after.world.sessions = s.world.sessions := by
  cases answered with
  | creates ownerID _ => exact created_sessions _ _ _ _
  | _ => rfl

/-- A call adds to the connection's own counts what it increments. -/
theorem Answer.counters {c : Choice} {o : Op} {reply : o.Reply} {after : Server}
    (answered : Answer d s i c o reply after) :
    after.counters = s.counters ++ (increments [⟨o, reply⟩]).map fun series => (i, series) := by
  cases answered with
  | counts series => rfl
  | writes o reply silent local' =>
    cases o with
    | inc series => exact absurd rfl (silent series)
    | _ => simp [increments]
  | limits o reply scope bucket limiter =>
    rcases limiter with rfl | ⟨res, rfl⟩ <;> simp [increments, setBucket]
  | creates ownerID reply => simp [increments]
  | replies cmd reply ended => simp [increments]

/-- The connection goes on with the reply. -/
theorem Tended.turns {c : Choice} {o : Op} {next : o.Reply → Prog sig (Except Panic Unit)}
    {reply : o.Reply} {after : Server} (tended : s.Tended d i r (.op o next) events)
    (answered : Answer d s i c o reply after) :
    after.Tended d i r (next reply) (events ++ [⟨o, reply⟩]) := by
  have sessions : after.world.sessions i = s.world.sessions i := congrFun answered.sessions i
  refine ⟨.next reply tended.reached, ?_, ?_, ?_⟩
  · rw [sessions]
    intro cmd reply' mem
    rcases List.mem_append.mp mem with old | new
    · exact tended.told cmd reply' old
    · cases List.mem_singleton.mp new
      cases answered with
      | writes _ _ _ local' => exact absurd rfl (local' cmd)
      | limits _ _ _ _ limiter =>
        rcases limiter with impossible | ⟨_, impossible⟩ <;> cases impossible
      | replies _ _ ended =>
        unfold Server.reply at ended
        split at ended
        · next cmd' result was =>
          cases ended
          exact ⟨cmd', was⟩
        · next was =>
          cases ended
          exact was
        · cases ended
  · rw [sessions]
    rcases tended.called with idle | ⟨cmd, course, asked⟩
    · exact .inl idle
    · refine .inr ⟨cmd, course, .inr ?_⟩
      rcases asked with ⟨_, same⟩ | ⟨reply', mem⟩
      · cases same
        exact ⟨reply, List.mem_append_right _ (List.mem_singleton_self _)⟩
      · exact ⟨reply', List.mem_append_left _ mem⟩
  · rw [answered.counters, List.filter_append, tended.counted]
    simp [increments]

theorem Inv.start (d : Deps) (w : World) : (start d w).Inv d := fun _ => rfl

theorem Inv.tended (inv : s.Inv d) (was : s.connections i = .serving r prog events) :
    s.Tended d i r prog events := by
  have here := inv i
  rw [was] at here
  exact here

/-- Every move keeps the counters and the connections in step. -/
theorem Move.inv (move : s.Move d a s') (inv : s.Inv d) : s'.Inv d := by
  cases move with
  | arrives i r was unused =>
    intro j
    by_cases mine : j = i
    · subst mine
      have none := inv j
      rw [was] at none
      rw [connections_set_self]
      exact ⟨.refl, by rintro cmd reply ⟨⟩, .inl unused, none⟩
    · have here := inv j
      rw [connections_set mine]
      split at here
      · exact here
      · exact here.congr rfl rfl
  | calls i r cmd next events w was stepped =>
    intro j
    by_cases mine : j = i
    · subst mine
      have tended := (inv.tended was).calls stepped
      simp only [was]
      exact tended
    · have here := inv j
      dsimp only
      split at here
      · exact here
      · refine here.world stepped ?_
        rintro e cmd' ⟨⟩
        exact mine rfl
  | world b w foreign stepped =>
    intro j
    have here := inv j
    dsimp only
    split at here
    · exact here
    · next was =>
      refine here.world stepped ?_
      rintro e cmd rfl
      simp [Server.foreign, was, Connection.isIdle] at foreign
  | turns i c r o next events reply after was answered =>
    have answered := answer_cases answered
    intro j
    by_cases mine : j = i
    · subst mine
      rw [connections_set_self]
      exact ((inv.tended was).turns answered).congr rfl rfl
    · have sessions : after.world.sessions j = s.world.sessions j := congrFun answered.sessions j
      have counters : after.counters.filter (·.1 = j) = s.counters.filter (·.1 = j) := by
        rw [answered.counters, List.filter_append]
        simp [Ne.symm mine]
      have here := inv j
      rw [connections_set mine, answered.connections]
      split at here
      · exact counters.trans here
      · exact here.congr sessions counters

/-- So does every run from a new server. -/
theorem runs_inv {acts : List Act} {w : World} (ran : runs (step d) (.start d w) acts = some s) :
    s.Inv d :=
  Txn.runs_invariant (Inv d) (fun inv stepped => (step_move stepped).inv inv) (.start d w) ran

/-- A connection keeps its request. -/
theorem Move.request (move : s.Move d a s') {r : Request} {prog : Prog sig (Except Panic Unit)}
    {events : List (Event sig)} (was : s.connections i = .serving r prog events) :
    ∃ prog' events', s'.connections i = .serving r prog' events' := by
  cases move with
  | arrives j r' idle unused =>
    have other : i ≠ j := by
      rintro rfl
      rw [idle] at was
      cases was
    exact ⟨prog, events, (connections_set other _).trans was⟩
  | calls j r' cmd next events' w was' moved => exact ⟨prog, events, was⟩
  | turns j c r' o next events' reply after was' answered =>
    by_cases mine : i = j
    · subst mine
      cases was.symm.trans was'
      exact ⟨_, _, connections_set_self _⟩
    · refine ⟨prog, events, (connections_set mine _).trans ?_⟩
      rw [(answer_cases answered).connections]
      exact was
  | world b w foreign moved => exact ⟨prog, events, was⟩

/-- A request that has arrived is the connection's to the end. -/
theorem runs_arrived {acts : List Act} (ran : runs (step d) s acts = some s') {r : Request}
    (arrived : .arrive i r ∈ acts) : ∃ prog events, s'.connections i = .serving r prog events := by
  obtain ⟨before, after, rfl⟩ := List.append_of_mem arrived
  obtain ⟨m, -, ran⟩ := Txn.runs_append_iff.mp ran
  obtain ⟨m', stepped, ran⟩ := Txn.runs_cons_iff.mp ran
  refine Txn.runs_invariant (fun s : Server => ∃ prog events, s.connections i =
    .serving r prog events) ?_ ?_ ran
  · rintro s s' a ⟨prog, events, was⟩ stepped
    exact (step_move stepped).request was
  · cases step_move stepped with
    | arrives _ _ was unused => exact ⟨_, _, connections_set_self _⟩

/-- A response belongs to the request that arrived on its connection. -/
theorem runs_answered {acts : List Act} (ran : runs (step d) s acts = some s') {r : Request}
    (arrived : .arrive i r ∈ acts) {response : Response}
    (answered : (s'.connections i).response = some response) :
    ∃ outcome events, s'.connections i = .serving r (.ret outcome) events ∧
      responseOf events = response := by
  obtain ⟨prog, events, was⟩ := runs_arrived ran arrived
  rw [was] at answered
  cases prog with
  | ret outcome => exact ⟨outcome, events, was, Option.some.inj answered⟩
  | op o next => cases answered

end Server

end WalletGo.Http
