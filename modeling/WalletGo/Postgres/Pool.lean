import WalletGo.Sync.RWMutex
import WalletGo.Txn.System

/-!
The swappable connection pool: forwarding calls, the resizer and `Pool.Close`,
interleaved.

A forwarding method holds the read lock from before it reads `p.pool` until its call on
the pool has returned; the resizer swaps `p.pool` under the write lock and then closes
the old pool on a goroutine of its own. `Pool.Close` joins the resizer before it closes
the pool it finds. What the resizer decides, and whether a pool can be created and
pinged, is up to the environment. A `Close` of a `pgxpool.Pool` counts from when it
starts, since from then on the pool refuses calls.

Pools are numbered as they are created, and every `Close` that has started is recorded.
-/

namespace WalletGo.Pool

open Sync (RWMutex)

abbrev PoolID := Nat

/-- The methods `Pool` forwards. -/
inductive Method where
  | exec
  | query
  | queryRow
  | begin
  | beginTx
  | sendBatch
  | stat
  | ping
deriving DecidableEq

inductive Goroutine where
  | caller (i : Nat)
  | resizer
  | closer
deriving DecidableEq

inductive Call where
  | idle
  | locked (method : Method)
  | running (method : Method) (pool : PoolID)
deriving DecidableEq

/-- Where the resizer stands in `loop`, `tick` and `resize`. -/
inductive Resizer where
  /-- There is none: `p.resizer` is nil. -/
  | absent
  | waiting
  /-- In `tick`, from its call of `Stat` on. -/
  | deciding
  | created (new : PoolID)
  | pinged (new : PoolID)
  /-- The ping failed. -/
  | failed (new : PoolID)
  | locked (new : PoolID)
  | swapped (old : PoolID)
  | unlocked (old : PoolID)
  | returned
deriving DecidableEq

/-- Where the call of `Pool.Close` stands. -/
inductive Closer where
  | notCalled
  /-- Waiting for the resizer. -/
  | stopping
  | stopped
  | locked
  | loaded (pool : PoolID)
  | unlocked (pool : PoolID)
  | returned (pool : PoolID)
deriving DecidableEq

structure State where
  mu : RWMutex Goroutine
  /-- `p.pool` -/
  pool : PoolID
  calls : Goroutine → Call
  resizer : Resizer
  /-- The channel that tells the resizer to stop is closed. -/
  done : Bool
  closer : Closer
  /-- What the goroutines that `resize` detached are still to close. -/
  detached : List PoolID
  /-- Every `Close` that has started. -/
  closed : List PoolID
  /-- How many pools have been created. -/
  created : Nat

inductive ResizerAct where
  /-- The ticker fires, and `Stat` is called. -/
  | tick
  /-- There is nothing to resize. -/
  | hold
  /-- `pgxpool.NewWithConfig` -/
  | create (ok : Bool)
  | ping (ok : Bool)
  /-- `newPool.Close()` -/
  | discard
  | lock
  | swap
  | unlock
  /-- `go old.Close()` -/
  | detach
  /-- `done` is seen, and the loop returns. -/
  | leave
deriving DecidableEq

inductive CloserAct where
  | call
  | join
  | rLock
  | load
  | rUnlock
  /-- `pool.Close()` -/
  | closePool
deriving DecidableEq

inductive Act where
  /-- `RLock`, in a forwarding method. -/
  | call (i : Nat) (method : Method)
  /-- Read `p.pool`, and call the method on it. -/
  | load (g : Goroutine)
  /-- The call returns, and `RUnlock`. -/
  | finish (g : Goroutine)
  | resizer (a : ResizerAct)
  /-- A detached goroutine runs. -/
  | drain (pool : PoolID)
  | closer (a : CloserAct)
deriving DecidableEq

namespace State

/-- `NewPool`, once it has created and pinged the first pool; `elastic` when
`MinConns` is positive. -/
def newPool (elastic : Bool) : State where
  mu := .unlocked
  pool := 0
  calls _ := .idle
  resizer := if elastic then .waiting else .absent
  done := false
  closer := .notCalled
  detached := []
  closed := []
  created := 1

def set (s : State) (g : Goroutine) (call : Call) : State :=
  { s with calls := fun h => if h = g then call else s.calls h }

/-- The forwarding methods, up to `RLock`. -/
def forward (s : State) (g : Goroutine) (method : Method) : Option State :=
  match s.calls g with
  | .idle => (s.mu.rLock g).map fun mu => { s.set g (.locked method) with mu }
  | _ => none

/-- `poolResizer.loop`, with `tick` and `resize`. -/
def resizerStep (s : State) : ResizerAct → Option State
  -- `select` may pick the ticker although `done` is closed
  | .tick =>
    match s.resizer with
    | .waiting => (s.forward .resizer .stat).map fun s => { s with resizer := .deciding }
    | _ => none
  | .hold =>
    match s.resizer, s.calls .resizer with
    | .deciding, .idle => some { s with resizer := .waiting }
    | _, _ => none
  | .create ok =>
    match s.resizer, s.calls .resizer with
    | .deciding, .idle =>
      if ok then some { s with resizer := .created s.created, created := s.created + 1 }
      else some { s with resizer := .waiting }
    | _, _ => none
  | .ping ok =>
    match s.resizer with
    | .created new => some { s with resizer := if ok then .pinged new else .failed new }
    | _ => none
  | .discard =>
    match s.resizer with
    | .failed new => some { s with resizer := .waiting, closed := s.closed ++ [new] }
    | _ => none
  | .lock =>
    match s.resizer with
    | .pinged new => (s.mu.lock .resizer).map fun mu => { s with mu, resizer := .locked new }
    | _ => none
  | .swap =>
    match s.resizer with
    | .locked new => some { s with resizer := .swapped s.pool, pool := new }
    | _ => none
  | .unlock =>
    match s.resizer with
    | .swapped old => (s.mu.unlock .resizer).map fun mu => { s with mu, resizer := .unlocked old }
    | _ => none
  | .detach =>
    match s.resizer with
    | .unlocked old => some { s with resizer := .waiting, detached := s.detached ++ [old] }
    | _ => none
  | .leave =>
    match s.resizer with
    | .waiting => if s.done then some { s with resizer := .returned } else none
    | _ => none

/-- `Pool.Close`, with `poolResizer.stop`. -/
def closerStep (s : State) : CloserAct → Option State
  | .call =>
    match s.closer with
    | .notCalled =>
      if s.resizer = .absent then some { s with closer := .stopped }
      else some { s with closer := .stopping, done := true }
    | _ => none
  | .join =>
    match s.closer, s.resizer with
    | .stopping, .returned => some { s with closer := .stopped }
    | _, _ => none
  | .rLock =>
    match s.closer with
    | .stopped => (s.mu.rLock .closer).map fun mu => { s with mu, closer := .locked }
    | _ => none
  | .load =>
    match s.closer with
    | .locked => some { s with closer := .loaded s.pool }
    | _ => none
  | .rUnlock =>
    match s.closer with
    | .loaded pool => (s.mu.rUnlock .closer).map fun mu => { s with mu, closer := .unlocked pool }
    | _ => none
  | .closePool =>
    match s.closer with
    | .unlocked pool => some { s with closer := .returned pool, closed := s.closed ++ [pool] }
    | _ => none

def step (s : State) : Act → Option State
  | .call i method => s.forward (.caller i) method
  | .load g =>
    match s.calls g with
    | .locked method => some (s.set g (.running method s.pool))
    | _ => none
  | .finish g =>
    match s.calls g with
    | .running _ _ => (s.mu.rUnlock g).map fun mu => { s.set g .idle with mu }
    | _ => none
  | .resizer a => s.resizerStep a
  | .drain pool =>
    if pool ∈ s.detached then
      some { s with detached := s.detached.erase pool, closed := s.closed ++ [pool] }
    else none
  | .closer a => s.closerStep a

end State

/-! ### What a step can do -/

inductive Move (s : State) : Act → State → Prop where
  | calls (i : Nat) (method : Method) (mu : RWMutex Goroutine) (was : s.calls (.caller i) = .idle)
      (locks : s.mu.rLock (.caller i) = some mu) :
      Move s (.call i method) { s.set (.caller i) (.locked method) with mu }
  | loads (g : Goroutine) (method : Method) (was : s.calls g = .locked method) :
      Move s (.load g) (s.set g (.running method s.pool))
  | finishes (g : Goroutine) (mu : RWMutex Goroutine) (unlocks : s.mu.rUnlock g = some mu) :
      Move s (.finish g) { s.set g .idle with mu }
  | ticks (mu : RWMutex Goroutine) (waits : s.resizer = .waiting) (was : s.calls .resizer = .idle)
      (locks : s.mu.rLock .resizer = some mu) :
      Move s (.resizer .tick) { s.set .resizer (.locked .stat) with mu, resizer := .deciding }
  | holds (decides : s.resizer = .deciding) : Move s (.resizer .hold) { s with resizer := .waiting }
  | creates (decides : s.resizer = .deciding) :
      Move s (.resizer (.create true))
      { s with resizer := .created s.created, created := s.created + 1 }
  | createFails (decides : s.resizer = .deciding) :
      Move s (.resizer (.create false)) { s with resizer := .waiting }
  | pings (new : PoolID) (created : s.resizer = .created new) :
      Move s (.resizer (.ping true)) { s with resizer := .pinged new }
  | pingFails (new : PoolID) (created : s.resizer = .created new) :
      Move s (.resizer (.ping false)) { s with resizer := .failed new }
  | discards (new : PoolID) (failed : s.resizer = .failed new) :
      Move s (.resizer .discard) { s with resizer := .waiting, closed := s.closed ++ [new] }
  | locks (new : PoolID) (mu : RWMutex Goroutine) (pinged : s.resizer = .pinged new)
      (locks : s.mu.lock .resizer = some mu) :
      Move s (.resizer .lock) { s with mu, resizer := .locked new }
  | swaps (new : PoolID) (locked : s.resizer = .locked new) :
      Move s (.resizer .swap) { s with resizer := .swapped s.pool, pool := new }
  | unlocks (old : PoolID) (mu : RWMutex Goroutine) (swapped : s.resizer = .swapped old)
      (unlocks : s.mu.unlock .resizer = some mu) :
      Move s (.resizer .unlock) { s with mu, resizer := .unlocked old }
  | detaches (old : PoolID) (unlocked : s.resizer = .unlocked old) :
      Move s (.resizer .detach) { s with resizer := .waiting, detached := s.detached ++ [old] }
  | leaves (waits : s.resizer = .waiting) : Move s (.resizer .leave) { s with resizer := .returned }
  | drains (pool : PoolID) (scheduled : pool ∈ s.detached) :
      Move s (.drain pool)
      { s with detached := s.detached.erase pool, closed := s.closed ++ [pool] }
  | closesRigid (was : s.closer = .notCalled) (absent : s.resizer = .absent) :
      Move s (.closer .call) { s with closer := .stopped }
  | closes (was : s.closer = .notCalled) :
      Move s (.closer .call) { s with closer := .stopping, done := true }
  | joins (was : s.closer = .stopping) (returned : s.resizer = .returned) :
      Move s (.closer .join) { s with closer := .stopped }
  | closeRLocks (mu : RWMutex Goroutine) (was : s.closer = .stopped)
      (locks : s.mu.rLock .closer = some mu) :
      Move s (.closer .rLock) { s with mu, closer := .locked }
  | closeLoads (was : s.closer = .locked) :
      Move s (.closer .load) { s with closer := .loaded s.pool }
  | closeRUnlocks (pool : PoolID) (mu : RWMutex Goroutine) (was : s.closer = .loaded pool)
      (unlocks : s.mu.rUnlock .closer = some mu) :
      Move s (.closer .rUnlock) { s with mu, closer := .unlocked pool }
  | closesPool (pool : PoolID) (was : s.closer = .unlocked pool) :
      Move s (.closer .closePool) { s with closer := .returned pool, closed := s.closed ++ [pool] }

variable {s s' : State} {a : Act}

/-- A call takes the read lock before it looks at the pool. -/
theorem forward_eq_some {g : Goroutine} {method : Method}
    (forwards : s.forward g method = some s') :
    s.calls g = .idle ∧ ∃ mu, s.mu.rLock g = some mu ∧
      s' = { s.set g (.locked method) with mu } := by
  unfold State.forward at forwards
  split at forwards
  · next was =>
    obtain ⟨mu, locks, rfl⟩ := Option.map_eq_some_iff.mp forwards
    exact ⟨was, mu, locks, rfl⟩
  · cases forwards

theorem resizerStep_move {a : ResizerAct} (stepped : s.resizerStep a = some s') :
    Move s (.resizer a) s' := by
  cases a with
  | tick =>
    simp only [State.resizerStep] at stepped
    split at stepped
    · next waits =>
      obtain ⟨t, forwards, rfl⟩ := Option.map_eq_some_iff.mp stepped
      obtain ⟨was, mu, locks, rfl⟩ := forward_eq_some forwards
      exact .ticks mu waits was locks
    · cases stepped
  | hold =>
    simp only [State.resizerStep] at stepped
    split at stepped
    · next decides _ =>
      cases stepped
      exact .holds decides
    · cases stepped
  | create ok =>
    simp only [State.resizerStep] at stepped
    split at stepped
    · next decides _ =>
      cases ok <;> cases stepped
      · exact .createFails decides
      · exact .creates decides
    · cases stepped
  | ping ok =>
    simp only [State.resizerStep] at stepped
    split at stepped
    · next new created =>
      cases ok <;> cases stepped
      · exact .pingFails new created
      · exact .pings new created
    · cases stepped
  | discard =>
    simp only [State.resizerStep] at stepped
    split at stepped
    · next new failed =>
      cases stepped
      exact .discards new failed
    · cases stepped
  | lock =>
    simp only [State.resizerStep] at stepped
    split at stepped
    · next new pinged =>
      obtain ⟨mu, locks, rfl⟩ := Option.map_eq_some_iff.mp stepped
      exact .locks new mu pinged locks
    · cases stepped
  | swap =>
    simp only [State.resizerStep] at stepped
    split at stepped
    · next new locked =>
      cases stepped
      exact .swaps new locked
    · cases stepped
  | unlock =>
    simp only [State.resizerStep] at stepped
    split at stepped
    · next old swapped =>
      obtain ⟨mu, unlocks, rfl⟩ := Option.map_eq_some_iff.mp stepped
      exact .unlocks old mu swapped unlocks
    · cases stepped
  | detach =>
    simp only [State.resizerStep] at stepped
    split at stepped
    · next old unlocked =>
      cases stepped
      exact .detaches old unlocked
    · cases stepped
  | leave =>
    simp only [State.resizerStep] at stepped
    split at stepped
    · next waits =>
      split at stepped
      · cases stepped
        exact .leaves waits
      · cases stepped
    · cases stepped

theorem closerStep_move {a : CloserAct} (stepped : s.closerStep a = some s') :
    Move s (.closer a) s' := by
  cases a with
  | call =>
    simp only [State.closerStep] at stepped
    split at stepped
    · next was =>
      split at stepped
      · next absent =>
        cases stepped
        exact .closesRigid was absent
      · cases stepped
        exact .closes was
    · cases stepped
  | join =>
    simp only [State.closerStep] at stepped
    split at stepped
    · next was returned =>
      cases stepped
      exact .joins was returned
    · cases stepped
  | rLock =>
    simp only [State.closerStep] at stepped
    split at stepped
    · next was =>
      obtain ⟨mu, locks, rfl⟩ := Option.map_eq_some_iff.mp stepped
      exact .closeRLocks mu was locks
    · cases stepped
  | load =>
    simp only [State.closerStep] at stepped
    split at stepped
    · next was =>
      cases stepped
      exact .closeLoads was
    · cases stepped
  | rUnlock =>
    simp only [State.closerStep] at stepped
    split at stepped
    · next pool was =>
      obtain ⟨mu, unlocks, rfl⟩ := Option.map_eq_some_iff.mp stepped
      exact .closeRUnlocks pool mu was unlocks
    · cases stepped
  | closePool =>
    simp only [State.closerStep] at stepped
    split at stepped
    · next pool was =>
      cases stepped
      exact .closesPool pool was
    · cases stepped

/-- Every step is one of the moves. -/
theorem step_move (stepped : s.step a = some s') : Move s a s' := by
  cases a with
  | call i method =>
    obtain ⟨was, mu, locks, rfl⟩ := forward_eq_some stepped
    exact .calls i method mu was locks
  | load g =>
    simp only [State.step] at stepped
    split at stepped
    · next method was =>
      cases stepped
      exact .loads g method was
    · cases stepped
  | finish g =>
    simp only [State.step] at stepped
    split at stepped
    · obtain ⟨mu, unlocks, rfl⟩ := Option.map_eq_some_iff.mp stepped
      exact .finishes g mu unlocks
    · cases stepped
  | resizer a => exact resizerStep_move stepped
  | drain pool =>
    simp only [State.step] at stepped
    split at stepped
    · next scheduled =>
      cases stepped
      exact .drains pool scheduled
    · cases stepped
  | closer a => exact closerStep_move stepped

end WalletGo.Pool
