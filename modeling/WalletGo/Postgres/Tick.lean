import WalletGo.Postgres.Resize

/-!
`poolResizer.tick`: the sizes a pool goes through.

A tick reads the pool's size and how much of it is in use, asks the policy, and calls
`resize` when the target differs from the size. Whether the new pool can be created
and pinged is up to the environment.

From the floor the pool grows along the sizes `minConns + 8 k` and from the ceiling it
shrinks along `maxConns - 8 k` (`OnPath`). The addition in `nextMaxConns` is made in
int32 before the clamp, so what matters is the last of the former sizes below the
ceiling: the pool stays within its bounds exactly when eight more than that is an
int32 (`bounded_iff`).
-/

namespace WalletGo.Resize

structure Sample (R : Type) where
  /-- `AcquiredConns` over `MaxConns`, for the size the pool has. -/
  ratio : Int32 → Option R
  now : Instant
  /-- `resize` can create and ping the new pool. -/
  resizes : Bool

/-- The size of the current pool, `stat.MaxConns()`, and the state `loop` keeps. -/
structure Resizer where
  size : Int32
  state : State

structure Ticked where
  decision : Decision
  /-- The target passed to `resize`. -/
  call : Option Int32
  next : Resizer

section Tick

variable {R : Type} [LinearOrder R]

/-- `poolResizer.tick` -/
def Policy.tick (p : Policy R) (sample : Sample R) (r : Resizer) : Ticked :=
  let maxConns := r.size
  if maxConns ≤ 0 then ⟨.hold, none, r⟩
  else
    let (decision, newState) := p.decide (sample.ratio maxConns) maxConns r.state sample.now
    if decision = .hold then ⟨decision, none, maxConns, newState⟩
    else
      let target := p.nextMaxConns maxConns decision
      if target = maxConns then ⟨decision, none, maxConns, newState⟩
      else ⟨decision, some target, if sample.resizes then target else maxConns, newState⟩

/-- `poolResizer.loop`, up to the `n`-th tick: `NewPool` starts an elastic pool at
`minConns`. -/
def Policy.resizerAt (p : Policy R) (samples : Nat → Sample R) : Nat → Resizer
  | 0 => ⟨p.minConns, .zero⟩
  | n + 1 => (p.tick (samples n) (p.resizerAt samples n)).next

def Policy.tickAt (p : Policy R) (samples : Nat → Sample R) (n : Nat) : Ticked :=
  p.tick (samples n) (p.resizerAt samples n)

/-- Every target passed to `resize` lies within the bounds and on the right side of the
size, and so does the size of the pool. -/
structure Policy.Bounded (p : Policy R) (samples : Nat → Sample R) : Prop where
  targets : ∀ n target, (p.tickAt samples n).call = some target →
    p.minConns ≤ target ∧ target ≤ p.maxConns ∧
      ((p.tickAt samples n).decision = .grow → (p.resizerAt samples n).size < target) ∧
      ((p.tickAt samples n).decision = .shrink → target < (p.resizerAt samples n).size)
  sizes : ∀ n, p.minConns ≤ (p.resizerAt samples n).size ∧ (p.resizerAt samples n).size ≤ p.maxConns

/-! ### What one tick does -/

variable {p : Policy R}

/-- A tick calls `resize` with the target of its decision, unless that is the size the
pool has. -/
theorem Policy.tick_cases (p : Policy R) (sample : Sample R) (r : Resizer) (positive : 0 < r.size) :
    ∃ decision state,
      p.decide (sample.ratio r.size) r.size r.state sample.now = (decision, state) ∧
      (p.nextMaxConns r.size decision = r.size ∧
          p.tick sample r = ⟨decision, none, r.size, state⟩ ∨
        p.nextMaxConns r.size decision ≠ r.size ∧
          p.tick sample r = ⟨decision, some (p.nextMaxConns r.size decision),
            if sample.resizes then p.nextMaxConns r.size decision else r.size, state⟩) := by
  have alive : ¬ r.size ≤ 0 := Int32.not_le.mpr positive
  cases answer : p.decide (sample.ratio r.size) r.size r.state sample.now with
  | mk decision state =>
    refine ⟨decision, state, rfl, ?_⟩
    simp only [Policy.tick, alive, if_false, answer]
    cases decision with
    | hold => exact .inl ⟨rfl, rfl⟩
    | grow | shrink =>
      simp only [reduceCtorEq, if_false]
      split
      · next same => exact .inl ⟨same, rfl⟩
      · next other => exact .inr ⟨other, rfl⟩

/-- A tick that grows was high, and had room. -/
theorem Policy.decide_grow {ratio : Option R} {size : Int32} {s state : State} {now : Instant}
    (hysteresis : 1 ≤ p.hysteresisTicks) (grew : p.decide ratio size s now = (.grow, state)) :
    p.High ratio ∧ size < p.maxConns := by
  rcases p.decide_cases ratio size s now with ⟨held, -⟩ | ⟨-, -, streak, room⟩ | ⟨shrank, -⟩
  · rw [held] at grew
    cases grew
  · refine ⟨?_, room⟩
    by_contra other
    rw [Policy.count_highStreak, if_neg other] at streak
    omega
  · rw [shrank] at grew
    cases grew

/-- A tick that shrinks was low, and had room. -/
theorem Policy.decide_shrink {ratio : Option R} {size : Int32} {s state : State} {now : Instant}
    (hysteresis : 1 ≤ p.hysteresisTicks) (shrank : p.decide ratio size s now = (.shrink, state)) :
    p.Low ratio ∧ p.minConns < size := by
  rcases p.decide_cases ratio size s now with ⟨held, -⟩ | ⟨grew, -⟩ | ⟨-, -, -, streak, room⟩
  · rw [held] at shrank
    cases shrank
  · rw [grew] at shrank
    cases shrank
  · refine ⟨?_, room⟩
    by_contra other
    have none : (p.count ratio s).lowStreak = 0 := by
      unfold Policy.count
      rw [if_neg other]
      split <;> rfl
    omega

end Tick

/-! ### Sizes as integers -/

theorem toInt_min (a b : Int32) : (min a b).toInt = min a.toInt b.toInt := by
  show (if a ≤ b then a else b).toInt = _
  simp only [Int32.le_iff_toInt_le]
  split <;> omega

theorem toInt_max (a b : Int32) : (max a b).toInt = max a.toInt b.toInt := by
  show (if a ≤ b then b else a).toInt = _
  simp only [Int32.le_iff_toInt_le]
  split <;> omega

theorem toInt_resizeStep : resizeStep.toInt = 8 := rfl

/-- Eight more, if that is an int32. -/
theorem toInt_add_step {size : Int32} (fits : size.toInt + 8 ≤ 2 ^ 31 - 1) :
    (size + resizeStep).toInt = size.toInt + 8 := by
  have lower := size.le_toInt
  rw [Int32.toInt_add, toInt_resizeStep]
  apply Int.bmod_eq_of_le <;> omega

/-- Eight more, otherwise. -/
theorem toInt_add_step_wraps {size : Int32} (wraps : 2 ^ 31 - 1 < size.toInt + 8) :
    (size + resizeStep).toInt < 0 := by
  have upper := size.toInt_lt
  rw [Int32.toInt_add, toInt_resizeStep, Int.bmod_def]
  split <;> omega

theorem toInt_sub_step {size : Int32} (positive : 0 < size.toInt) :
    (size - resizeStep).toInt = size.toInt - 8 := by
  have upper := size.toInt_lt
  rw [Int32.toInt_sub, toInt_resizeStep]
  apply Int.bmod_eq_of_le <;> omega

/-! ### The sizes on the way -/

section Bounds

variable {R : Type} {high low : R} {minConns maxConns size : Int32}

theorem one_le_hysteresisTicks : 1 ≤ (shipped high low minConns maxConns).hysteresisTicks :=
  show 1 ≤ 3 by decide

/-- Growing from the floor, the last size below the ceiling has room for a step. -/
def Room (minConns maxConns : Int32) : Prop :=
  minConns.toInt + 8 * ((maxConns.toInt - minConns.toInt + 7) / 8) ≤ 2 ^ 31 - 1

instance (minConns maxConns : Int32) : Decidable (Room minConns maxConns) :=
  inferInstanceAs (Decidable (_ ≤ _))

/-- The sizes a pool goes through: whole steps from the floor or from the ceiling. -/
structure OnPath (minConns maxConns size : Int32) : Prop where
  lower : minConns.toInt ≤ size.toInt
  upper : size.toInt ≤ maxConns.toInt
  steps : 8 ∣ size.toInt - minConns.toInt ∨ 8 ∣ maxConns.toInt - size.toInt

/-- A step up from a size on the path. -/
theorem OnPath.grow (path : OnPath minConns maxConns size) (positive : 1 ≤ minConns.toInt)
    (room : Room minConns maxConns) (below : size.toInt < maxConns.toInt) :
    OnPath minConns maxConns (min (size + resizeStep) maxConns) ∧
      size.toInt < (min (size + resizeStep) maxConns).toInt := by
  obtain ⟨lower, upper, steps⟩ := path
  have ceiling := maxConns.toInt_lt
  have fits : size.toInt + 8 ≤ 2 ^ 31 - 1 := by
    unfold Room at room
    omega
  have next : (min (size + resizeStep) maxConns).toInt = min (size.toInt + 8) maxConns.toInt := by
    rw [toInt_min, toInt_add_step fits]
  refine ⟨⟨?_, ?_, ?_⟩, ?_⟩
  · omega
  · omega
  · rw [next]
    omega
  · omega

/-- A step down from a size on the path. -/
theorem OnPath.shrink (path : OnPath minConns maxConns size) (positive : 1 ≤ minConns.toInt)
    (above : minConns.toInt < size.toInt) :
    OnPath minConns maxConns (max (size - resizeStep) minConns) ∧
      (max (size - resizeStep) minConns).toInt < size.toInt := by
  obtain ⟨lower, upper, steps⟩ := path
  have next : (max (size - resizeStep) minConns).toInt = max (size.toInt - 8) minConns.toInt := by
    rw [toInt_max, toInt_sub_step (by omega)]
  refine ⟨⟨?_, ?_, ?_⟩, ?_⟩
  · omega
  · omega
  · rw [next]
    omega
  · omega

variable [LinearOrder R]

/-- What a tick does to a pool on the path. -/
structure StaysOn (minConns maxConns : Int32) (r : Resizer) (t : Ticked) : Prop where
  next : OnPath minConns maxConns t.next.size
  target : ∀ target, t.call = some target → OnPath minConns maxConns target ∧
    (t.decision = .grow → r.size.toInt < target.toInt) ∧
    (t.decision = .shrink → target.toInt < r.size.toInt)

/-- One tick keeps the pool on the path. -/
theorem tick_onPath (positive : 1 ≤ minConns.toInt) (room : Room minConns maxConns) {r : Resizer}
    (path : OnPath minConns maxConns r.size) (sample : Sample R) :
    StaysOn minConns maxConns r ((shipped high low minConns maxConns).tick sample r) := by
  have alive : 0 < r.size := by
    rw [Int32.lt_iff_toInt_lt, Int32.toInt_zero]
    have := path.lower
    omega
  obtain ⟨decision, state, answer, ⟨same, ticked⟩ | ⟨other, ticked⟩⟩ :=
    (shipped high low minConns maxConns).tick_cases sample r alive
  · rw [ticked]
    exact ⟨path, nofun⟩
  · rw [ticked]
    cases decision with
    | hold => exact absurd rfl other
    | grow =>
      have below := Int32.lt_iff_toInt_lt.mp (Policy.decide_grow one_le_hysteresisTicks answer).2
      obtain ⟨reached, larger⟩ := path.grow positive room below
      constructor
      · show OnPath _ _ (if sample.resizes then _ else _)
        split
        · exact reached
        · exact path
      · rintro target ⟨⟩
        exact ⟨reached, fun _ => larger, nofun⟩
    | shrink =>
      have above := Int32.lt_iff_toInt_lt.mp (Policy.decide_shrink one_le_hysteresisTicks answer).2
      obtain ⟨reached, smaller⟩ := path.shrink positive above
      constructor
      · show OnPath _ _ (if sample.resizes then _ else _)
        split
        · exact reached
        · exact path
      · rintro target ⟨⟩
        exact ⟨reached, nofun, fun _ => smaller⟩

theorem resizerAt_onPath (high low : R) (positive : 1 ≤ minConns.toInt)
    (ordered : minConns.toInt ≤ maxConns.toInt) (room : Room minConns maxConns)
    (samples : Nat → Sample R) (n : Nat) :
    OnPath minConns maxConns ((shipped high low minConns maxConns).resizerAt samples n).size := by
  induction n with
  | zero => exact ⟨Int.le_refl _, ordered, .inl ⟨0, by simp [Policy.resizerAt, shipped]⟩⟩
  | succ n ih => exact (tick_onPath positive room ih (samples n)).next

/-- Where the last step up has room, every target is within its bounds. -/
theorem bounded_of_room (positive : 1 ≤ minConns.toInt) (ordered : minConns.toInt ≤ maxConns.toInt)
    (room : Room minConns maxConns) (samples : Nat → Sample R) :
    (shipped high low minConns maxConns).Bounded samples := by
  have path := resizerAt_onPath high low positive ordered room samples
  constructor
  · intro n target called
    obtain ⟨reached, larger, smaller⟩ :=
      (tick_onPath positive room (path n) (samples n)).target target called
    refine ⟨Int32.le_iff_toInt_le.mpr reached.lower,
      Int32.le_iff_toInt_le.mpr reached.upper, ?_, ?_⟩
    · exact fun grew => Int32.lt_iff_toInt_lt.mpr (larger grew)
    · exact fun shrank => Int32.lt_iff_toInt_lt.mpr (smaller shrank)
  · intro n
    exact ⟨Int32.le_iff_toInt_le.mpr (path n).lower, Int32.le_iff_toInt_le.mpr (path n).upper⟩

end Bounds

/-! ### Three ticks in one direction

Samples 45 seconds apart never meet the cooldown, so three ticks in a row that ask for
the same thing get it.
-/

section Pushed

variable {R : Type} {p : Policy R} {last now : Int} {k n : Nat}

def beat (n : Nat) : Int := 45000000000 * (n + 1)

theorem beat_lt_succ (n : Nat) : beat n < beat (n + 1) := by
  unfold beat
  omega

theorem not_cooling_beat (cooldown : p.cooldown = resizeCooldown) (i : Nat)
    (earlier : last ≤ 45000000000 * n) : ¬ p.Cooling ⟨0, 0, last⟩ (beat (n + i)) := by
  rintro ⟨-, early⟩
  rw [cooldown, Int64.lt_iff_toInt_lt] at early
  have clamped : (sub (beat (n + i)) last).toInt =
      max (-2 ^ 63) (min (beat (n + i) - last) (2 ^ 63 - 1)) :=
    toInt_ofInt_of_range ⟨by omega, by omega⟩
  have cooldown : resizeCooldown.toInt = 45000000000 := rfl
  have apart : beat (n + i) = 45000000000 * (n + i + 1) := rfl
  simp only at clamped early
  omega

variable [LinearOrder R] {d : Decision} {ratio : Option R} {size : Int32}

/-- The ratio at a size asks for a decision, and there is room for it. -/
def Policy.Pushes (p : Policy R) (d : Decision) (ratio : Option R) (size : Int32) : Prop :=
  match d with
  | .grow => p.High ratio ∧ size < p.maxConns
  | .shrink => p.Low ratio ∧ ¬ p.High ratio ∧ p.minConns < size
  | .hold => False

/-- The state after `k` ticks that asked for a decision. -/
def State.pushed (d : Decision) (k : Nat) (last : Instant) : State :=
  match d with
  | .grow => ⟨k, 0, last⟩
  | .shrink => ⟨0, k, last⟩
  | .hold => ⟨0, 0, last⟩

theorem State.pushed_zero (d : Decision) (last : Instant) :
    State.pushed d 0 last = ⟨0, 0, last⟩ := by
  cases d <;> rfl

/-- A load that pushes one way is answered when it has lasted. -/
theorem Policy.decide_pushed (pushes : p.Pushes d ratio size) (hysteresis : 1 ≤ p.hysteresisTicks)
    (free : ¬ p.Cooling ⟨0, 0, last⟩ now) :
    p.decide ratio size (State.pushed d k last) now =
      if p.hysteresisTicks ≤ k + 1 then
        (d, ⟨0, 0, now⟩) else (.hold, State.pushed d (k + 1) last) := by
  have none : ¬ p.hysteresisTicks ≤ 0 := Nat.not_le.mpr hysteresis
  simp only [Policy.Cooling] at free
  cases d with
  | hold => exact pushes.elim
  | grow =>
    obtain ⟨high, room⟩ := pushes
    simp only [Policy.decide, State.pushed, Policy.count, high, if_true, Policy.Cooling,
      free, if_false, room, and_true, none, false_and]
  | shrink =>
    obtain ⟨low, other, room⟩ := pushes
    simp only [Policy.decide, State.pushed, Policy.count, other, low, if_true, Policy.Cooling, free,
      if_false, gt_iff_lt, room, and_true, none, false_and]

/-- Three ticks that ask for the same thing, from a pool that has none counted. -/
theorem tickAt_pushed (p : Policy R) (samples : Nat → Sample R) (hysteresis : p.hysteresisTicks = 3)
    (cooldown : p.cooldown = resizeCooldown) (times : ∀ n, (samples n).now = beat n)
    (resizes : ∀ n, (samples n).resizes = true) (alive : 0 < size)
    (earlier : last ≤ 45000000000 * n) (start : p.resizerAt samples n = ⟨size, 0, 0, last⟩)
    (pushes : ∀ i < 3, p.Pushes d ((samples (n + i)).ratio size) size)
    (moves : p.nextMaxConns size d ≠ size) :
    p.tickAt samples (n + 2) =
      ⟨d, some (p.nextMaxConns size d), p.nextMaxConns size d, 0, 0, beat (n + 2)⟩ := by
  have ticked : ∀ i < 3, p.resizerAt samples (n + i) = ⟨size, State.pushed d i last⟩ →
      p.decide ((samples (n + i)).ratio size) size (State.pushed d i last) (samples (n + i)).now =
        if 3 ≤ i + 1 then (d, ⟨0, 0, beat (n + i)⟩) else (.hold, State.pushed d (i + 1) last) := by
    intro i below at_i
    have answer := Policy.decide_pushed (k := i) (pushes i below) (by omega)
      (not_cooling_beat cooldown i earlier)
    rw [hysteresis] at answer
    rw [times, answer]
  have counted : ∀ i < 3, p.resizerAt samples (n + i) = ⟨size, State.pushed d i last⟩ := by
    intro i
    induction i with
    | zero =>
      intro _
      rw [Nat.add_zero, start, State.pushed_zero]
    | succ i ih =>
      intro below
      have at_i := ih (by omega)
      obtain ⟨decision, state, answer, same | moved⟩ :=
        p.tick_cases (samples (n + i)) ⟨size, State.pushed d i last⟩ alive
      all_goals
        rw [ticked i (by omega) at_i, if_neg (by omega)] at answer
        cases answer
      · rw [← Nat.add_assoc, Policy.resizerAt, at_i, same.2]
      · exact absurd rfl moved.1
  obtain ⟨decision, state, answer, same | moved⟩ :=
    p.tick_cases (samples (n + 2)) ⟨size, State.pushed d 2 last⟩ alive
  all_goals
    rw [ticked 2 (by omega) (counted 2 (by omega)), if_pos (by omega)] at answer
    cases answer
  · exact absurd same.1 moves
  · rw [Policy.tickAt, counted 2 (by omega), moved.2, resizes]
    rfl

/-! ### The last step up -/

variable {high low : R} {minConns maxConns : Int32}

def busy (high : R) (n : Nat) : Sample R := ⟨fun _ => some high, beat n, true⟩

/-- From a size below the ceiling, the third tick under a high ratio steps up. -/
theorem tickAt_busy (alive : 0 < size.toInt) (below : size.toInt < maxConns.toInt)
    (earlier : last ≤ 45000000000 * n)
    (start : (shipped high low minConns maxConns).resizerAt (busy high) n = ⟨size, 0, 0, last⟩)
    (moves : (min (size + resizeStep) maxConns).toInt ≠ size.toInt) :
    (shipped high low minConns maxConns).tickAt (busy high) (n + 2) =
      ⟨.grow, some (min (size + resizeStep) maxConns), min (size + resizeStep) maxConns, 0, 0,
        beat (n + 2)⟩ := by
  have room : size < maxConns := Int32.lt_iff_toInt_lt.mpr below
  have positive : 0 < size := by
    rw [Int32.lt_iff_toInt_lt, Int32.toInt_zero]
    exact alive
  refine tickAt_pushed _ _ rfl rfl (fun _ => rfl) (fun _ => rfl) positive earlier start
    (fun i _ => ⟨le_refl high, room⟩) ?_
  intro same
  exact moves (congrArg Int32.toInt same)

/-- Under a ratio that stays high the pool takes a step every third tick, up to the last
size below the ceiling. -/
theorem resizerAt_busy (high low : R) (positive : 1 ≤ minConns.toInt) (k : Nat)
    (below : minConns.toInt + 8 * k < maxConns.toInt) :
    ∃ (size : Int32) (last : Int), size.toInt = minConns.toInt + 8 * k ∧
      last ≤ 45000000000 * (3 * k : Nat) ∧
      (shipped high low minConns maxConns).resizerAt (busy high) (3 * k) = ⟨size, 0, 0, last⟩ := by
  have ceiling := maxConns.toInt_lt
  induction k with
  | zero => exact ⟨minConns, 0, by omega, by omega, rfl⟩
  | succ k ih =>
    obtain ⟨size, last, value, earlier, start⟩ := ih (by omega)
    have next : (min (size + resizeStep) maxConns).toInt = minConns.toInt + 8 * (k + 1 : Nat) := by
      rw [toInt_min, toInt_add_step (by omega)]
      omega
    have grown := tickAt_busy (by omega) (by omega) earlier start (by omega)
    refine ⟨min (size + resizeStep) maxConns, beat (3 * k + 2), next, ?_,
      congrArg Ticked.next grown⟩
    unfold beat
    omega

/-- The pool stays within its bounds, whatever the ratios, the clock and the failures of
`resize`, exactly when there is room for the last step up from the floor: otherwise
`current + 8` wraps there, and the clamp lets a negative target through. -/
theorem bounded_iff (high low : R) (minConns maxConns : Int32) (positive : 1 ≤ minConns)
    (ordered : minConns ≤ maxConns) :
    (∀ samples : Nat → Sample R, (shipped high low minConns maxConns).Bounded samples) ↔
      Room minConns maxConns := by
  have positive := Int32.le_iff_toInt_le.mp positive
  have ordered := Int32.le_iff_toInt_le.mp ordered
  rw [Int32.toInt_one] at positive
  constructor
  · intro bounded
    by_contra full
    have ceiling := maxConns.toInt_lt
    unfold Room at full
    -- the number of steps that stay below the ceiling
    obtain ⟨k, steps⟩ : ∃ k : Nat, (maxConns.toInt - minConns.toInt + 7) / 8 = k + 1 :=
      ⟨((maxConns.toInt - minConns.toInt + 7) / 8 - 1).toNat, by omega⟩
    have below : minConns.toInt + 8 * k < maxConns.toInt := by omega
    obtain ⟨size, last, value, earlier, start⟩ := resizerAt_busy high low positive k below
    have negative : (min (size + resizeStep) maxConns).toInt < 0 := by
      have wrapped : (size + resizeStep).toInt < 0 := toInt_add_step_wraps (by omega)
      rw [toInt_min]
      omega
    have grown := tickAt_busy (by omega) (by omega) earlier start (by omega)
    have called := (bounded (busy high)).targets (3 * k + 2) _ (congrArg Ticked.call grown)
    have lower : minConns ≤ min (size + resizeStep) maxConns := called.1
    have := Int32.le_iff_toInt_le.mp lower
    omega
  · intro room samples
    exact bounded_of_room positive ordered room samples

end Pushed

/-- The floor and the ceiling the pool was measured with. -/
theorem bounded_iff_five_thirty :
    ((∀ samples : Nat → Sample Nat, (shipped 85 30 5 30).Bounded samples) ↔ Room 5 30) ∧
    Room 5 30 :=
  ⟨bounded_iff 85 30 5 30 (by decide) (by decide), by decide⟩

/-- A floor and a ceiling at the top of int32: the third tick under a high ratio passes
a negative size to `resize`. -/
theorem target_wraps :
    ((shipped 85 30 2147483646 2147483647).tickAt (busy 85) 2).call = some (-2147483642) ∧
      ¬ (shipped 85 30 2147483646 2147483647).Bounded (busy (85 : Nat)) := by
  have called :
      ((shipped 85 30 2147483646 2147483647).tickAt (busy 85) 2).call = some (-2147483642) := by
    decide +kernel
  refine ⟨called, fun bounded => ?_⟩
  have lower := (bounded.targets 2 _ called).1
  exact absurd lower (by decide)

end WalletGo.Resize
