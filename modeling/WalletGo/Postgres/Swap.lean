import WalletGo.Postgres.Pool

/-!
What the swap of the connection pool keeps.

Three invariants of `State.step`: a forwarding call holds the read lock and runs on the
current pool (`Guarded`), once the resizer has been joined nothing moves `p.pool`
(`Shutdown`), and every pool ever created is in exactly one place (`Inventoried`).
-/

namespace WalletGo.Pool

open Sync (RWMutex)

variable {s s' : State} {a : Act}

/-! ### Calls and the lock -/

def Resizer.Writing : Resizer → Prop
  | .locked _ | .swapped _ => True
  | _ => False

/-- Whoever is in a forwarding method holds the read lock, and runs on the current
pool. -/
structure Guarded (s : State) : Prop where
  reading : ∀ g, s.calls g ≠ .idle → g ∈ s.mu.readers
  closer : s.calls .closer = .idle
  writing : s.resizer.Writing → s.mu.writer = some .resizer
  current : ∀ g method pool, s.calls g = .running method pool → pool = s.pool

theorem Guarded.newPool (elastic : Bool) : Guarded (.newPool elastic) where
  reading _ busy := absurd rfl busy
  closer := rfl
  writing impossible := by cases elastic <;> cases impossible
  current _ _ _ impossible := nomatch impossible

@[simp] theorem calls_set_self (g : Goroutine) (call : Call) :
    (s.set g call).calls g = call := if_pos rfl

theorem calls_set {g h : Goroutine} {call : Call} (other : h ≠ g) :
    (s.set g call).calls h = s.calls h :=
  if_neg other

namespace Guarded

/-- Steps that touch neither the lock nor the calls. -/
theorem frame (guarded : Guarded s) (mu : s'.mu = s.mu) (calls : s'.calls = s.calls)
    (pool : s'.pool = s.pool) (writing : s'.resizer.Writing → s.resizer.Writing) : Guarded s' where
  reading := by
    rw [mu, calls]
    exact guarded.reading
  closer := by
    rw [calls]
    exact guarded.closer
  writing writes := by
    rw [mu]
    exact guarded.writing (writing writes)
  current := by
    rw [calls, pool]
    exact guarded.current

/-- A goroutine takes the read lock. -/
theorem forwards (guarded : Guarded s) {g : Goroutine} {method : Method} {mu : RWMutex Goroutine}
    (caller : g ≠ .closer) (locks : s.mu.rLock g = some mu) (resizer : Resizer)
    (writing : resizer.Writing → s.resizer.Writing) :
    Guarded { s.set g (.locked method) with mu, resizer } := by
  obtain ⟨unwritten, -, readers⟩ := RWMutex.rLock_eq_some locks
  refine ⟨?_, ?_, ?_, ?_⟩
  · intro h busy
    rw [readers]
    by_cases mine : h = g
    · exact mine ▸ Finset.mem_insert_self ..
    · rw [calls_set mine] at busy
      exact Finset.mem_insert_of_mem (guarded.reading h busy)
  · exact (calls_set caller.symm).trans guarded.closer
  · intro writes
    have written := guarded.writing (writing writes)
    rw [unwritten] at written
    cases written
  · intro h method' pool runs
    by_cases mine : h = g
    · subst mine
      rw [calls_set_self] at runs
      cases runs
    · rw [calls_set mine] at runs
      exact guarded.current h method' pool runs

theorem loads (guarded : Guarded s) {g : Goroutine} {method : Method}
    (was : s.calls g = .locked method) : Guarded (s.set g (.running method s.pool)) where
  reading h busy := by
    by_cases mine : h = g
    · subst mine
      exact guarded.reading h (by simp [was])
    · rw [calls_set mine] at busy
      exact guarded.reading h busy
  closer := by
    have caller : Goroutine.closer ≠ g := by
      rintro rfl
      rw [guarded.closer] at was
      cases was
    exact (calls_set caller).trans guarded.closer
  writing := guarded.writing
  current h method' pool runs := by
    by_cases mine : h = g
    · subst mine
      rw [calls_set_self] at runs
      cases runs
      rfl
    · rw [calls_set mine] at runs
      exact guarded.current h method' pool runs

theorem finishes (guarded : Guarded s) {g : Goroutine} {mu : RWMutex Goroutine}
    (unlocks : s.mu.rUnlock g = some mu) : Guarded { s.set g .idle with mu } := by
  obtain ⟨writer, readers⟩ := RWMutex.rUnlock_eq_some unlocks
  refine ⟨?_, ?_, ?_, ?_⟩
  · intro h busy
    rw [readers]
    by_cases mine : h = g
    · subst mine
      exact absurd (calls_set_self ..) busy
    · rw [calls_set mine] at busy
      exact Finset.mem_erase_of_ne_of_mem mine (guarded.reading h busy)
  · by_cases mine : Goroutine.closer = g
    · rw [mine]
      exact calls_set_self ..
    · exact (calls_set mine).trans guarded.closer
  · intro writes
    exact writer.trans (guarded.writing writes)
  · intro h method pool runs
    by_cases mine : h = g
    · subst mine
      rw [calls_set_self] at runs
      cases runs
    · rw [calls_set mine] at runs
      exact guarded.current h method pool runs

/-- Nobody is in a forwarding method while the resizer writes. -/
theorem quiet (guarded : Guarded s) (writes : s.resizer.Writing) (g : Goroutine) :
    s.calls g = .idle := by
  by_contra busy
  exact RWMutex.not_reading (guarded.writing writes) g (guarded.reading g busy)

/-- The pool is swapped while nobody else holds the lock. -/
theorem swaps (guarded : Guarded s) {new : PoolID} (locked : s.resizer = .locked new) :
    Guarded { s with resizer := .swapped s.pool, pool := new } := by
  have writes : s.resizer.Writing := by
    rw [locked]
    trivial
  refine ⟨guarded.reading, guarded.closer, fun _ => guarded.writing writes, ?_⟩
  intro g method pool runs
  have idle : s.calls g = .idle := guarded.quiet writes g
  rw [idle] at runs
  cases runs

/-- Every step keeps the lock in step with the calls. -/
theorem step (guarded : Guarded s) (stepped : s.step a = some s') : Guarded s' := by
  cases step_move stepped with
  | calls i method mu was locks => exact guarded.forwards (g := .caller i) nofun locks s.resizer id
  | loads g method was => exact guarded.loads was
  | finishes g mu unlocks => exact guarded.finishes unlocks
  | ticks mu waits was locks => exact guarded.forwards (g := .resizer) nofun locks .deciding nofun
  | locks new mu pinged locks =>
    obtain ⟨-, writer, readers⟩ := RWMutex.lock_eq_some locks
    exact ⟨fun g busy => readers ▸ guarded.reading g busy, guarded.closer, fun _ => writer,
      guarded.current⟩
  | swaps new locked => exact guarded.swaps locked
  | unlocks old mu swapped unlocks =>
    obtain ⟨-, readers⟩ := RWMutex.unlock_eq_some unlocks
    exact ⟨fun g busy => readers ▸ guarded.reading g busy, guarded.closer, nofun, guarded.current⟩
  | closeRLocks mu was locks =>
    obtain ⟨unwritten, -, readers⟩ := RWMutex.rLock_eq_some locks
    refine ⟨?_, guarded.closer, ?_, guarded.current⟩
    · intro g busy
      rw [readers]
      exact Finset.mem_insert_of_mem (guarded.reading g busy)
    · intro writes
      have written := guarded.writing writes
      rw [unwritten] at written
      cases written
  | closeRUnlocks pool mu was unlocks =>
    obtain ⟨writer, readers⟩ := RWMutex.rUnlock_eq_some unlocks
    refine ⟨?_, guarded.closer, fun writes => writer.trans (guarded.writing writes),
      guarded.current⟩
    intro g busy
    have caller : g ≠ .closer := by
      rintro rfl
      exact busy guarded.closer
    rw [readers]
    exact Finset.mem_erase_of_ne_of_mem caller (guarded.reading g busy)
  | holds | creates | createFails | pings | pingFails | discards | detaches | leaves =>
    exact guarded.frame rfl rfl rfl nofun
  | drains | closesRigid | closes | joins | closeLoads | closesPool =>
    exact guarded.frame rfl rfl rfl id

end Guarded

/-! ### Shutting down -/

/-- The resizer has returned, or there is none. -/
def Resizer.Stopped : Resizer → Prop
  | .absent | .returned => True
  | _ => False

/-- `Pool.Close` has joined the resizer, if there is one. -/
def Closer.Joined : Closer → Prop
  | .notCalled | .stopping => False
  | _ => True

def Closer.found : Closer → Option PoolID
  | .loaded pool | .unlocked pool | .returned pool => some pool
  | _ => none

theorem Closer.joined_of_found {closer : Closer} {pool : PoolID}
    (found : closer.found = some pool) : closer.Joined := by
  cases closer with
  | notCalled | stopping => cases found
  | _ => trivial

structure Shutdown (s : State) : Prop where
  stopped : s.closer.Joined → s.resizer.Stopped
  found : ∀ pool, s.closer.found = some pool → s.pool = pool
  returned : ∀ pool, s.closer = .returned pool → pool ∈ s.closed

namespace Shutdown

theorem newPool (elastic : Bool) : Shutdown (.newPool elastic) := ⟨nofun, nofun, nofun⟩

/-- Steps of nobody but the callers and the detached goroutines. -/
theorem frame (shutdown : Shutdown s) (closer : s'.closer = s.closer)
    (resizer : s'.resizer = s.resizer) (pool : s'.pool = s.pool)
    (closed : ∀ p ∈ s.closed, p ∈ s'.closed) : Shutdown s' where
  stopped := by
    rw [closer, resizer]
    exact shutdown.stopped
  found := by
    rw [closer, pool]
    exact shutdown.found
  returned p returned := by
    rw [closer] at returned
    exact closed p (shutdown.returned p returned)

/-- Steps of the resizer: `Pool.Close` has not joined it. -/
theorem busy (shutdown : Shutdown s) {resizer : Resizer} (phase : s.resizer = resizer)
    (moves : ¬ resizer.Stopped) (closer : s'.closer = s.closer) : Shutdown s' := by
  have early : ¬ s'.closer.Joined := by
    rw [closer]
    exact fun joined => moves (phase ▸ shutdown.stopped joined)
  refine ⟨fun joined => absurd joined early, ?_, ?_⟩
  · intro pool found
    exact absurd (Closer.joined_of_found found) early
  · intro pool returned
    exact absurd (returned ▸ trivial) early

/-- As long as the resizer moves, `Pool.Close` has not found a pool. -/
theorem unfound (shutdown : Shutdown s) {resizer : Resizer} (phase : s.resizer = resizer)
    (moves : ¬ resizer.Stopped) : s.closer.found = none := by
  cases found : s.closer.found with
  | none => rfl
  | some pool => exact absurd (phase ▸ shutdown.stopped (Closer.joined_of_found found)) moves

/-- Every step keeps the order of a shutdown. -/
theorem step (shutdown : Shutdown s) (stepped : s.step a = some s') : Shutdown s' := by
  cases step_move stepped with
  | calls | loads | finishes => exact shutdown.frame rfl rfl rfl fun _ mem => mem
  | drains => exact shutdown.frame rfl rfl rfl fun _ => List.mem_append_left _
  | ticks | holds | creates | createFails | pings | pingFails | discards | locks | swaps | unlocks |
    detaches | leaves => exact shutdown.busy ‹s.resizer = _› id rfl
  | closesRigid was absent => exact ⟨fun _ => absent ▸ trivial, nofun, nofun⟩
  | closes was => exact ⟨nofun, nofun, nofun⟩
  | joins was returned => exact ⟨fun _ => returned ▸ trivial, nofun, nofun⟩
  | closeRLocks mu was locks => exact ⟨fun _ => shutdown.stopped (was ▸ trivial), nofun, nofun⟩
  | closeLoads was =>
    refine ⟨fun _ => shutdown.stopped (was ▸ trivial), ?_, nofun⟩
    rintro pool ⟨⟩
    rfl
  | closeRUnlocks pool mu was unlocks =>
    refine ⟨fun _ => shutdown.stopped (was ▸ trivial), ?_, nofun⟩
    rintro pool ⟨⟩
    exact shutdown.found pool (was ▸ rfl)
  | closesPool pool was =>
    refine ⟨fun _ => shutdown.stopped (was ▸ trivial), ?_, ?_⟩
    · rintro pool ⟨⟩
      exact shutdown.found pool (was ▸ rfl)
    · rintro pool ⟨⟩
      exact List.mem_append_right _ List.mem_cons_self

end Shutdown

/-! ### Where the pools are -/

def Resizer.building : Resizer → List PoolID
  | .created new | .pinged new | .locked new => [new]
  | _ => []

/-- What the resizer is to close, or to have closed. -/
def Resizer.retiring : Resizer → List PoolID
  | .failed pool | .swapped pool | .unlocked pool => [pool]
  | _ => []

def Closer.closing : Closer → List PoolID
  | .loaded pool | .unlocked pool => [pool]
  | _ => []

namespace State

/-- `p.pool`, until `Pool.Close` has found it to close. -/
def current (s : State) : List PoolID := if s.closer.found = none then [s.pool] else []

def building (s : State) : List PoolID := s.resizer.building

/-- Every `Close` that has started or is scheduled. -/
def closings (s : State) : List PoolID :=
  s.resizer.retiring ++ s.closer.closing ++ s.detached ++ s.closed

def inventory (s : State) : List PoolID := s.current ++ s.building ++ s.closings

end State

theorem count_inventory (s : State) (p : PoolID) :
    s.inventory.count p = s.current.count p + s.resizer.building.count p +
      (s.resizer.retiring.count p + s.closer.closing.count p + s.detached.count
        p + s.closed.count p) := by
  simp only [State.inventory, State.building, State.closings, List.count_append]

/-- The inventory has every pool that was ever created, once. -/
def Inventoried (s : State) : Prop := s.inventory.Perm (List.range s.created)

namespace Inventoried

theorem newPool (elastic : Bool) : Inventoried (.newPool elastic) := by
  cases elastic <;> exact .refl _

/-- Pools change places. -/
theorem moves (inventoried : Inventoried s) (created : s'.created = s.created)
    (same : ∀ p, s'.inventory.count p = s.inventory.count p) : Inventoried s' := by
  rw [Inventoried, created]
  exact (List.perm_iff_count.mpr same).trans inventoried

theorem creates (inventoried : Inventoried s) (decides : s.resizer = .deciding) :
    Inventoried { s with resizer := .created s.created, created := s.created + 1 } := by
  have added : State.inventory { s with resizer := .created s.created, created := s.created + 1 } =
      s.current ++ [s.created] ++ s.closings := by
    simp [State.inventory, State.current, State.building, State.closings, Resizer.building,
      Resizer.retiring, decides]
  have before : s.inventory = s.current ++ s.closings := by
    simp [State.inventory, State.building, Resizer.building, decides]
  rw [Inventoried, added, List.range_succ, List.append_assoc]
  refine (List.perm_append_comm_assoc ..).trans ?_
  refine List.perm_append_comm.trans (List.Perm.append_right _ ?_)
  exact before ▸ inventoried

/-- Every step keeps each pool in one place. -/
theorem step (inventoried : Inventoried s) (shutdown : Shutdown s) (stepped : s.step a = some s') :
    Inventoried s' := by
  cases step_move stepped with
  | creates decides => exact inventoried.creates decides
  | calls | loads | finishes => exact inventoried.moves rfl fun p => rfl
  | ticks mu phase | holds phase | createFails phase | pings new phase | locks new mu phase
  | unlocks old mu phase | leaves phase =>
    refine inventoried.moves rfl fun p => ?_
    simp [count_inventory, State.current, State.set, Resizer.building, Resizer.retiring, phase]
  | pingFails new phase | discards new phase | detaches old phase =>
    refine inventoried.moves rfl fun p => ?_
    simp [count_inventory, State.current, Resizer.building, Resizer.retiring, phase]
    omega
  | swaps new locked =>
    -- the current pool and the new one change places
    have unfound : s.closer.found = none := shutdown.unfound locked id
    refine inventoried.moves rfl fun p => ?_
    simp [count_inventory, State.current, Resizer.building, Resizer.retiring, locked, unfound]
    omega
  | drains pool scheduled =>
    refine inventoried.moves rfl fun p => ?_
    have moved := (List.perm_cons_erase scheduled).count_eq p
    simp only [count_inventory, State.current, List.count_append, List.count_cons,
      List.count_nil] at moved ⊢
    omega
  | closesRigid was | closes was | joins was | closeRLocks mu was | closeRUnlocks pool mu was =>
    refine inventoried.moves rfl fun p => ?_
    simp [count_inventory, State.current, Closer.closing, Closer.found, was]
  | closeLoads was | closesPool pool was =>
    refine inventoried.moves rfl fun p => ?_
    simp [count_inventory, State.current, Closer.closing, Closer.found, was]
    omega

theorem nodup (inventoried : Inventoried s) : s.inventory.Nodup :=
  inventoried.nodup_iff.mpr List.nodup_range

theorem count_le_one (inventoried : Inventoried s) (p : PoolID) : s.inventory.count p ≤ 1 :=
  List.nodup_iff_count_le_one.mp inventoried.nodup p

/-- A pool that was created is in one place. -/
theorem count_eq_one (inventoried : Inventoried s) {p : PoolID} (created : p < s.created) :
    s.inventory.count p = 1 :=
  List.count_eq_one_of_mem inventoried.nodup (inventoried.mem_iff.mpr (List.mem_range.mpr created))

end Inventoried

/-! ### Every run -/

structure Inv (s : State) : Prop where
  guarded : Guarded s
  shutdown : Shutdown s
  inventoried : Inventoried s

theorem Inv.newPool (elastic : Bool) : Inv (.newPool elastic) :=
  ⟨.newPool elastic, .newPool elastic, .newPool elastic⟩

/-- One step keeps the three invariants. -/
theorem Inv.step (inv : Inv s) (stepped : s.step a = some s') : Inv s' :=
  ⟨inv.guarded.step stepped, inv.shutdown.step stepped, inv.inventoried.step inv.shutdown stepped⟩

/-- They hold after every run. -/
theorem runs_inv {elastic : Bool} {acts : List Act}
    (ran : Txn.runs State.step (.newPool elastic) acts = some s) : Inv s :=
  Txn.runs_invariant Inv Inv.step (.newPool elastic) ran

namespace Inv

/-- Where `p.pool` is. -/
theorem settled (inv : Inv s) :
    s.pool ∈ s.current ∨ s.pool ∈ s.closer.closing ∨ s.closer = .returned s.pool := by
  cases closer : s.closer with
  | loaded pool | unlocked pool =>
    rw [inv.shutdown.found pool (closer ▸ rfl)]
    exact .inr (.inl List.mem_cons_self)
  | returned pool =>
    rw [inv.shutdown.found pool (closer ▸ rfl)]
    exact .inr (.inr rfl)
  | _ =>
    left
    rw [State.current, closer]
    exact List.mem_cons_self

/-- The current pool is closed by `Pool.Close` only. -/
theorem returned_of_closed (inv : Inv s) (closed : s.pool ∈ s.closed) :
    s.closer = .returned s.pool := by
  have once := inv.inventoried.count_le_one s.pool
  rw [count_inventory] at once
  have positive := List.count_pos_iff.mpr closed
  rcases inv.settled with here | here | here
  · have := List.count_pos_iff.mpr here
    omega
  · have := List.count_pos_iff.mpr here
    omega
  · exact here

/-- What the resizer retires, or has retired, is not the current pool. -/
theorem not_retired (inv : Inv s) {p : PoolID} (retired : p ∈ s.resizer.retiring ∨ p ∈ s.detached) :
    p ≠ s.pool := by
  rintro rfl
  have once := inv.inventoried.count_le_one s.pool
  rw [count_inventory] at once
  have positive : 0 < s.resizer.retiring.count s.pool + s.detached.count s.pool := by
    rcases retired with mem | mem
    · exact Nat.add_pos_left (List.count_pos_iff.mpr mem) _
    · exact Nat.add_pos_right _ (List.count_pos_iff.mpr mem)
  rcases inv.settled with here | here | here
  · have := List.count_pos_iff.mpr here
    omega
  · have := List.count_pos_iff.mpr here
    omega
  · have := List.count_pos_iff.mpr (inv.shutdown.returned _ here)
    omega

/-- A pool that is not the current one is idle. -/
theorem idle (inv : Inv s) {p : PoolID} (other : p ≠ s.pool) (g : Goroutine) (method : Method) :
    s.calls g ≠ .running method p :=
  fun runs => other (inv.guarded.current g method p runs)

/-- A pool is closed by `Close`, or when no call uses it any more. -/
theorem closes_idle (inv : Inv s) (stepped : s.step a = some s') {p : PoolID}
    (closes : s.closed.count p < s'.closed.count p) :
    (a = .closer .closePool ∧ s.closer = .unlocked p) ∨
    ∀ g method, s.calls g ≠ .running method p := by
  cases step_move stepped with
  | discards new failed =>
    obtain rfl : new = p := by
      by_contra other
      simp [List.count_append, other] at closes
    exact .inr (inv.idle (inv.not_retired (.inl (by simp [failed, Resizer.retiring]))))
  | drains pool scheduled =>
    obtain rfl : pool = p := by
      by_contra other
      simp [List.count_append, other] at closes
    exact .inr (inv.idle (inv.not_retired (.inr scheduled)))
  | closesPool pool was =>
    obtain rfl : pool = p := by
      by_contra other
      simp [List.count_append, other] at closes
    exact .inl ⟨rfl, was⟩
  | _ => exact absurd closes (Nat.lt_irrefl _)

end Inv

/-- Once the resizer has been joined nothing moves `p.pool`. -/
theorem Shutdown.pool_kept (shutdown : Shutdown s) (joined : s.closer.Joined)
    (stepped : s.step a = some s') : s'.closer.Joined ∧ s'.pool = s.pool := by
  have stopped := shutdown.stopped joined
  cases step_move stepped with
  | swaps new locked =>
    rw [locked] at stopped
    cases stopped
  | closes was | closesRigid was =>
    rw [was] at joined
    cases joined
  | joins | closeRLocks | closeLoads | closeRUnlocks | closesPool => exact ⟨trivial, rfl⟩
  | _ => exact ⟨joined, rfl⟩

/-- Once the resizer has been stopped the pool is not swapped. -/
theorem runs_pool_kept (shutdown : Shutdown s) (joined : s.closer.Joined)
    {acts : List Act} {t : State} (ran : Txn.runs State.step s acts = some t) : t.pool = s.pool :=
  (Txn.runs_invariant (fun t => Shutdown t ∧ t.closer.Joined ∧ t.pool = s.pool)
    (fun ⟨shutdown, joined, same⟩ stepped =>
      have ⟨joined', kept⟩ := shutdown.pool_kept joined stepped
      ⟨shutdown.step stepped, joined', kept.trans same⟩)
    ⟨shutdown, joined, rfl⟩ ran).2.2

/-- The pool is current, or being built, or somebody closes it or is to close it, once;
and only one of these. -/
def State.Accounted (s : State) (p : PoolID) : Prop :=
  (p ∈ s.current ∧ p ∉ s.building ∧ s.closings.count p = 0) ∨
  (p ∉ s.current ∧ p ∈ s.building ∧ s.closings.count p = 0) ∨
  (p ∉ s.current ∧ p ∉ s.building ∧ s.closings.count p = 1)

/-- A pool that was created is accounted for. -/
theorem Inventoried.accounted (inventoried : Inventoried s) {p : PoolID} (created : p < s.created) :
    s.Accounted p := by
  have once := inventoried.count_eq_one created
  rw [State.inventory, List.count_append, List.count_append] at once
  simp only [State.Accounted, ← List.count_pos_iff]
  omega

/-- When `Pool.Close` has returned and the detached goroutines have run, every pool has
been closed, once. -/
theorem Inv.all_closed (inv : Inv s) {pool : PoolID} (returned : s.closer = .returned pool)
    (drained : s.detached = []) {p : PoolID} (created : p < s.created) : s.closed.count p = 1 := by
  have once := inv.inventoried.count_eq_one created
  have stopped := inv.shutdown.stopped (returned ▸ trivial)
  rw [count_inventory, State.current, returned, drained] at once
  cases resizer : s.resizer with
  | absent | returned =>
    simpa [resizer, Closer.found, Closer.closing, Resizer.building, Resizer.retiring] using once
  | _ =>
    rw [resizer] at stopped
    cases stopped

/-- A swap never hits a closed pool and never leaks one. However calls, resizes and
`Pool.Close` interleave, the current pool is open before `Pool.Close` is called, a call
only ever finds its pool closed by `Pool.Close`, and a pool is closed by anybody else
only when no call is running on it. Once the resizer has been joined there is no swap;
every pool ever created is current, being built, or closed or to be closed once; and when
`Pool.Close` has returned and the detached goroutines have run, all of them are closed. -/
theorem swap_safe {elastic : Bool} {acts : List Act} {s : State}
    (ran : Txn.runs State.step (.newPool elastic) acts = some s) :
    (s.closer = .notCalled → s.pool ∉ s.closed) ∧
    (∀ g method p, s.calls g = .running method p → p ∈ s.closed → s.closer = .returned p) ∧
    (∀ a s' p, s.step a = some s' → s.closed.count p < s'.closed.count p →
      (a = .closer .closePool ∧ s.closer = .unlocked p) ∨
      ∀ g method, s.calls g ≠ .running method p) ∧
    (s.closer.Joined → ∀ later t, Txn.runs State.step s later = some t → t.pool = s.pool) ∧
    (∀ p, s.closer.found = some p → s.pool = p) ∧
    (∀ p < s.created, s.Accounted p) ∧
    (∀ pool, s.closer = .returned pool → s.detached = [] →
      ∀ p < s.created, s.closed.count p = 1) := by
  have inv := runs_inv ran
  refine ⟨?_, ?_, fun a s' p stepped => inv.closes_idle stepped, ?_, inv.shutdown.found, ?_, ?_⟩
  · intro early closed
    have returned := inv.returned_of_closed closed
    rw [early] at returned
    cases returned
  · intro g method p runs closed
    obtain rfl := inv.guarded.current g method p runs
    exact inv.returned_of_closed closed
  · intro joined later t ran
    exact runs_pool_kept inv.shutdown joined ran
  · intro p created
    exact inv.inventoried.accounted created
  · intro pool returned drained p created
    exact inv.all_closed returned drained created

namespace Resized

/-- A resize waits for a call on the old pool, another one is given up, and `Pool.Close`
comes while a call runs on the new pool. -/
def acts : List Act :=
  [.call 0 .exec, .load (.caller 0), .resizer .tick, .load .resizer, .finish .resizer,
    .resizer (.create true), .resizer (.ping true), .finish (.caller 0), .resizer .lock,
    .resizer .swap,
    .resizer .unlock, .call 1 .begin, .load (.caller 1), .resizer .detach, .resizer .tick,
    .load .resizer,
    .finish .resizer, .closer .call, .resizer (.create true), .resizer (.ping false),
    .resizer .discard,
    .resizer .leave, .closer .join, .closer .rLock, .closer .load, .closer .rUnlock,
    .closer .closePool, .drain 0]

end Resized

open Resized in
/-- A resize, another one that is given up, and a shutdown. -/
theorem swap_safe_resized :
    ∃ s, Txn.runs State.step (.newPool true) acts = some s ∧
      s.calls (.caller 1) = .running .begin 1 ∧
      s.created = 3 ∧ s.closed = [2, 1, 0] ∧ ∀ p < s.created, s.closed.count p = 1 := by
  have reached : ((Txn.runs State.step (.newPool true) acts).map fun s =>
      (s.calls (.caller 1), s.created, s.closed, s.closer, s.detached)) =
      some (.running .begin 1, 3, [2, 1, 0], .returned 1, []) := by decide +kernel
  obtain ⟨s, ran, same⟩ := Option.map_eq_some_iff.mp reached
  injection same with runs rest
  injection rest with created rest
  injection rest with closed rest
  injection rest with returned drained
  exact ⟨s, ran, runs, created, closed, (swap_safe ran).2.2.2.2.2.2 1 returned drained⟩

end WalletGo.Pool
