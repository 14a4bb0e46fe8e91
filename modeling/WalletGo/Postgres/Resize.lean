import Mathlib.Order.Lattice
import Mathlib.Tactic.Common
import WalletGo.Domain

/-!
`resizePolicy` and `poolResizer.tick`: when the connection pool is resized.

Ratios are only ever compared, so they are the elements of any linear order, with
`none` for NaN. An `Instant` is a clock reading, counted from Go's zero time, and the
streaks count ticks.

A run feeds every state `decide` returns back to it. `decisionAt_grow_iff` and
`decisionAt_shrink_iff` say what a decision amounts to in terms of the samples and
the earlier decisions alone: a streak is the number of ticks in a row that were high
(or low) and held, and `lastResizeAt` is the time of the last decision that was not to
hold.
-/

namespace WalletGo.Resize

/-- `time.Time`, in nanoseconds since the zero time. -/
abbrev Instant := Int

/-- `time.Time.Sub`: the difference, held at the ends of `time.Duration`. -/
def sub (t u : Instant) : Int64 := Int64.ofInt (max (-2 ^ 63) (min (t - u) (2 ^ 63 - 1)))

inductive Decision where
  | hold
  | grow
  | shrink
deriving DecidableEq, Repr

structure Policy (R : Type) where
  highWatermark : R
  lowWatermark : R
  hysteresisTicks : Nat
  cooldown : Int64
  step : Int32
  minConns : Int32
  maxConns : Int32

structure State where
  highStreak : Nat
  lowStreak : Nat
  lastResizeAt : Instant
deriving DecidableEq, Repr

def State.zero : State := ⟨0, 0, 0⟩

section Policy

variable {R : Type} [LinearOrder R]

/-- `ratio >= p.highWatermark`, which is false of NaN. -/
def Policy.High (p : Policy R) : Option R → Prop
  | some r => p.highWatermark ≤ r
  | none => False

/-- `ratio <= p.lowWatermark`, which is false of NaN. -/
def Policy.Low (p : Policy R) : Option R → Prop
  | some r => r ≤ p.lowWatermark
  | none => False

instance (p : Policy R) : (ratio : Option R) → Decidable (p.High ratio)
  | some r => inferInstanceAs (Decidable (p.highWatermark ≤ r))
  | none => inferInstanceAs (Decidable False)

instance (p : Policy R) : (ratio : Option R) → Decidable (p.Low ratio)
  | some r => inferInstanceAs (Decidable (r ≤ p.lowWatermark))
  | none => inferInstanceAs (Decidable False)

/-- The `switch` of `decide`. -/
def Policy.count (p : Policy R) (ratio : Option R) (s : State) : State :=
  if p.High ratio then { s with highStreak := s.highStreak + 1, lowStreak := 0 }
  else if p.Low ratio then { s with lowStreak := s.lowStreak + 1, highStreak := 0 }
  else { s with highStreak := 0, lowStreak := 0 }

def Policy.Cooling (p : Policy R) (s : State) (now : Instant) : Prop :=
  s.lastResizeAt ≠ 0 ∧ sub now s.lastResizeAt < p.cooldown

instance (p : Policy R) (s : State) (now : Instant) : Decidable (p.Cooling s now) :=
  inferInstanceAs (Decidable (_ ∧ _))

/-- `resizePolicy.decide` -/
def Policy.decide (p : Policy R) (ratio : Option R) (currentMaxConns : Int32) (state : State)
    (now : Instant) : Decision × State :=
  let state := p.count ratio state
  if p.Cooling state now then (.hold, state)
  else if p.hysteresisTicks ≤ state.highStreak ∧ currentMaxConns < p.maxConns then
    (.grow, { state with lastResizeAt := now, highStreak := 0 })
  else if p.hysteresisTicks ≤ state.lowStreak ∧ currentMaxConns > p.minConns then
    (.shrink, { state with lastResizeAt := now, lowStreak := 0 })
  else (.hold, state)

/-- `resizePolicy.nextMaxConns`: int32 addition wraps before the clamp. -/
def Policy.nextMaxConns (p : Policy R) (current : Int32) : Decision → Int32
  | .grow => min (current + p.step) p.maxConns
  | .shrink => max (current - p.step) p.minConns
  | .hold => current

-- the constants of `pool_resize.go`; durations are nanoseconds
def resizeHysteresisTicks : Nat := 3

def resizeCooldown : Int64 := 45000000000

def resizeStep : Int32 := 8

/-- The policy of `newPoolResizer`, with its two watermarks. -/
def shipped (high low : R) (minConns maxConns : Int32) : Policy R where
  highWatermark := high
  lowWatermark := low
  hysteresisTicks := resizeHysteresisTicks
  cooldown := resizeCooldown
  step := resizeStep
  minConns := minConns
  maxConns := maxConns

/-! ### What one call of `decide` does -/

variable {p : Policy R} {ratio : Option R} {size : Int32} {s : State} {now : Instant}

@[simp] theorem Policy.count_lastResizeAt : (p.count ratio s).lastResizeAt = s.lastResizeAt := by
  unfold Policy.count
  split
  · rfl
  · split <;> rfl

theorem Policy.count_highStreak :
    (p.count ratio s).highStreak = if p.High ratio then s.highStreak + 1 else 0 := by
  unfold Policy.count
  split
  · rfl
  · split <;> rfl

/-- A ratio is not both high and low. -/
theorem Policy.not_high_of_low (apart : p.lowWatermark < p.highWatermark) (low : p.Low ratio) :
    ¬ p.High ratio := by
  intro high
  cases ratio with
  | none => exact low
  | some r => exact absurd (high.trans low) (not_le.mpr apart)

theorem Policy.count_lowStreak (apart : p.lowWatermark < p.highWatermark) :
    (p.count ratio s).lowStreak = if p.Low ratio then s.lowStreak + 1 else 0 := by
  unfold Policy.count
  split
  · next high => rw [if_neg fun low => Policy.not_high_of_low apart low high]
  · split <;> rfl

/-- The three outcomes of `decide`, with what was tested for each. -/
theorem Policy.decide_cases (p : Policy R) (ratio : Option R) (size : Int32) (s : State)
    (now : Instant) : (p.decide ratio size s now = (.hold, p.count ratio s) ∧
      (p.Cooling s now ∨
        ¬ (p.hysteresisTicks ≤ (p.count ratio s).highStreak ∧ size < p.maxConns) ∧
        ¬ (p.hysteresisTicks ≤ (p.count ratio s).lowStreak ∧ p.minConns < size))) ∨
    (p.decide ratio size s now =
        (.grow, { p.count ratio s with lastResizeAt := now, highStreak := 0 }) ∧
      ¬ p.Cooling s now ∧ p.hysteresisTicks ≤ (p.count ratio s).highStreak ∧ size < p.maxConns) ∨
    (p.decide ratio size s now =
        (.shrink, { p.count ratio s with lastResizeAt := now, lowStreak := 0 }) ∧
      ¬ p.Cooling s now ∧
      ¬ (p.hysteresisTicks ≤ (p.count ratio s).highStreak ∧ size < p.maxConns) ∧
      p.hysteresisTicks ≤ (p.count ratio s).lowStreak ∧ p.minConns < size) := by
  have cooling : p.Cooling (p.count ratio s) now ↔ p.Cooling s now := by
    simp only [Policy.Cooling, Policy.count_lastResizeAt]
  simp only [Policy.decide, cooling]
  split
  · next blocked => exact .inl ⟨rfl, .inl blocked⟩
  · next free =>
    split
    · next grows => exact .inr (.inl ⟨rfl, free, grows⟩)
    · next full =>
      split
      · next shrinks => exact .inr (.inr ⟨rfl, free, full, shrinks⟩)
      · next empty => exact .inl ⟨rfl, .inr ⟨full, empty⟩⟩

/-! ### Runs of `decide` -/

/-- What `decide` is given at one tick, the state apart. -/
structure Reading (R : Type) where
  ratio : Option R
  size : Int32
  now : Instant

def Policy.decideAt (p : Policy R) (r : Reading R) (s : State) : Decision × State :=
  p.decide r.ratio r.size s r.now

def Policy.stateAt (p : Policy R) (readings : Nat → Reading R) : Nat → State
  | 0 => .zero
  | n + 1 => (p.decideAt (readings n) (p.stateAt readings n)).2

def Policy.decisionAt (p : Policy R) (readings : Nat → Reading R) (n : Nat) : Decision :=
  (p.decideAt (readings n) (p.stateAt readings n)).1

/-- `m` is the last tick before the `n`-th that did not hold. -/
structure Policy.LastResize (p : Policy R) (readings : Nat → Reading R) (m n : Nat) : Prop where
  before : m < n
  resized : p.decisionAt readings m ≠ .hold
  held : ∀ i, m < i → i < n → p.decisionAt readings i = .hold

/-- The `n`-th tick and those before it, `hysteresisTicks` in all, have ratios with
property `q`, and come after the last tick that did not hold. -/
structure Policy.Sustained (p : Policy R) (readings : Nat → Reading R)
    (q : Option R → Prop) (n : Nat) : Prop where
  enough : p.hysteresisTicks ≤ n + 1
  all : ∀ i, i ≤ n → n < i + p.hysteresisTicks → q (readings i).ratio
  later : ∀ m, p.LastResize readings m n → m + p.hysteresisTicks ≤ n

/-- The cooldown since the last tick that did not hold has passed. -/
def Policy.Cooled (p : Policy R) (readings : Nat → Reading R) (n : Nat) : Prop :=
  ∀ m, p.LastResize readings m n → p.cooldown ≤ sub (readings n).now (readings m).now

/-! ### Streaks are counted ticks -/

/-- How many numbers in a row below `n` are good, counted down from `n`. -/
def streak (good : Nat → Prop) [DecidablePred good] : Nat → Nat
  | 0 => 0
  | n + 1 => if good n then streak good n + 1 else 0

/-- A streak is at least this long when the ticks just before were all good. -/
theorem le_streak_iff (good : Nat → Prop) [DecidablePred good] (h n : Nat) :
    h ≤ streak good n ↔ h ≤ n ∧ ∀ i, i < n → n ≤ i + h → good i := by
  induction n generalizing h with
  | zero =>
    rw [streak]
    exact ⟨fun le => ⟨le, nofun⟩, fun both => both.1⟩
  | succ n ih =>
    rw [streak]
    split
    · next this =>
      cases h with
      | zero =>
        refine ⟨fun _ => ⟨Nat.zero_le _, fun i below above => ?_⟩, fun _ => Nat.zero_le _⟩
        omega
      | succ h =>
        rw [Nat.succ_le_succ_iff, ih, Nat.succ_le_succ_iff]
        refine and_congr_right fun _ => ⟨fun all i below above => ?_, fun all i below above => ?_⟩
        · rcases Nat.lt_succ_iff_lt_or_eq.mp below with earlier | rfl
          · exact all i earlier (by omega)
          · exact this
        · exact all i (by omega) (by omega)
    · next bad =>
      constructor
      · intro none
        exact ⟨by omega, fun i below above => by omega⟩
      · rintro ⟨-, all⟩
        by_contra some
        exact bad (all n (Nat.lt_succ_self n) (by omega))

variable {readings : Nat → Reading R} {n : Nat}

/-- The conditions under which a run is considered. -/
structure Policy.Proper (p : Policy R) (readings : Nat → Reading R) : Prop where
  hysteresis : 1 ≤ p.hysteresisTicks
  apart : p.lowWatermark < p.highWatermark
  clock : ∀ n, (readings n).now ≠ 0

namespace Policy.Proper

variable (proper : p.Proper readings)

include proper

/-- After a tick a streak has grown by one, or it is over: because the ratio is not
high, or because the tick did not hold. A tick that shrinks was low. -/
theorem highStreak_succ :
    (p.stateAt readings (n + 1)).highStreak =
      if p.High (readings n).ratio ∧ p.decisionAt readings n = .hold
      then (p.stateAt readings n).highStreak + 1 else 0 := by
  simp only [Policy.stateAt, Policy.decisionAt, Policy.decideAt]
  rcases p.decide_cases (readings n).ratio (readings n).size (p.stateAt readings n)
    (readings n).now with
    ⟨held, -⟩ | ⟨grew, -⟩ | ⟨shrank, -, -, low, -⟩
  · simp only [held, Policy.count_highStreak, and_true]
  · simp [grew]
  · have hysteresis := proper.hysteresis
    have tick : p.Low (readings n).ratio := by
      by_contra other
      rw [Policy.count_lowStreak proper.apart, if_neg other] at low
      omega
    simp [shrank, Policy.count_highStreak, Policy.not_high_of_low proper.apart tick]

@[inherit_doc highStreak_succ]
theorem lowStreak_succ :
    (p.stateAt readings (n + 1)).lowStreak =
      if p.Low (readings n).ratio ∧ p.decisionAt readings n = .hold
      then (p.stateAt readings n).lowStreak + 1 else 0 := by
  simp only [Policy.stateAt, Policy.decisionAt, Policy.decideAt]
  rcases p.decide_cases (readings n).ratio (readings n).size (p.stateAt readings n)
    (readings n).now with
    ⟨held, -⟩ | ⟨grew, -, high, -⟩ | ⟨shrank, -⟩
  · simp only [held, Policy.count_lowStreak proper.apart, and_true]
  · have hysteresis := proper.hysteresis
    have tick : p.High (readings n).ratio := by
      by_contra other
      rw [Policy.count_highStreak, if_neg other] at high
      omega
    have notLow : ¬ p.Low (readings n).ratio := fun low =>
      Policy.not_high_of_low proper.apart low tick
    simp [grew, Policy.count_lowStreak proper.apart, notLow]
  · simp [shrank]

/-- The counter is the length of the streak of high ticks that held. -/
theorem highStreak_eq :
    (p.stateAt readings n).highStreak =
      streak (fun i => p.High (readings i).ratio ∧ p.decisionAt readings i = .hold) n := by
  induction n with
  | zero => rfl
  | succ n ih => rw [proper.highStreak_succ, ih, streak]

/-- The counter is the length of the streak of low ticks that held. -/
theorem lowStreak_eq :
    (p.stateAt readings n).lowStreak =
      streak (fun i => p.Low (readings i).ratio ∧ p.decisionAt readings i = .hold) n := by
  induction n with
  | zero => rfl
  | succ n ih => rw [proper.lowStreak_succ, ih, streak]

end Policy.Proper

/-! ### The last resize -/

namespace Policy.LastResize

variable {m m' : Nat}

theorem of_resized (resized : p.decisionAt readings n ≠ .hold) : p.LastResize readings n (n + 1) :=
  ⟨Nat.lt_succ_self n, resized, fun i after below => by omega⟩

theorem succ (last : p.LastResize readings m n) (held : p.decisionAt readings n = .hold) :
    p.LastResize readings m (n + 1) := by
  refine ⟨Nat.lt_succ_of_lt last.before, last.resized, fun i after below => ?_⟩
  rcases Nat.lt_succ_iff_lt_or_eq.mp below with inside | rfl
  · exact last.held i after inside
  · exact held

theorem unique (last : p.LastResize readings m n) (last' : p.LastResize readings m' n) :
    m = m' := by
  rcases Nat.lt_trichotomy m m' with below | same | above
  · exact absurd (last.held m' below last'.before) last'.resized
  · exact same
  · exact absurd (last'.held m above last.before) last.resized

end Policy.LastResize

/-- A tick that did not hold is the last such tick, or another one after it is. -/
theorem Policy.exists_lastResize {i : Nat} (before : i < n)
    (resized : p.decisionAt readings i ≠ .hold) : ∃ m, i ≤ m ∧ p.LastResize readings m n := by
  induction n with
  | zero => exact absurd before (Nat.not_lt_zero _)
  | succ n ih =>
    by_cases held : p.decisionAt readings n = .hold
    · rcases Nat.lt_succ_iff_lt_or_eq.mp before with earlier | rfl
      · obtain ⟨m, le, last⟩ := ih earlier
        exact ⟨m, le, last.succ held⟩
      · exact absurd held resized
    · exact ⟨n, Nat.le_of_lt_succ before, .of_resized held⟩

theorem Policy.lastResizeAt_succ :
    (p.stateAt readings (n + 1)).lastResizeAt =
      if p.decisionAt readings n = .hold then (p.stateAt readings n).lastResizeAt
      else (readings n).now := by
  simp only [Policy.stateAt, Policy.decisionAt, Policy.decideAt]
  rcases p.decide_cases (readings n).ratio (readings n).size (p.stateAt readings n)
    (readings n).now with
    ⟨held, -⟩ | ⟨grew, -⟩ | ⟨shrank, -⟩
  · simp [held]
  · simp [grew]
  · simp [shrank]

/-- `lastResizeAt` is the time of the last resize, or zero when there is none. -/
theorem Policy.lastResizeAt_eq (p : Policy R) (readings : Nat → Reading R) (n : Nat) :
    (∃ m, p.LastResize readings m n ∧ (p.stateAt readings n).lastResizeAt = (readings m).now) ∨
      (∀ i < n, p.decisionAt readings i = .hold) ∧ (p.stateAt readings n).lastResizeAt = 0 := by
  induction n with
  | zero => exact .inr ⟨nofun, rfl⟩
  | succ n ih =>
    rw [Policy.lastResizeAt_succ]
    by_cases held : p.decisionAt readings n = .hold
    · rw [if_pos held]
      rcases ih with ⟨m, last, time⟩ | ⟨none, zero⟩
      · exact .inl ⟨m, last.succ held, time⟩
      · refine .inr ⟨fun i below => ?_, zero⟩
        rcases Nat.lt_succ_iff_lt_or_eq.mp below with inside | rfl
        · exact none i inside
        · exact held
    · rw [if_neg held]
      exact .inl ⟨n, .of_resized held, rfl⟩

/-! ### Decisions in terms of the samples -/

/-- Ticks in a row that held are ticks after the last resize. -/
theorem Policy.sustained_iff {q : Option R → Prop} [DecidablePred q]
    (hysteresis : 1 ≤ p.hysteresisTicks) : (q (readings n).ratio ∧ p.hysteresisTicks ≤
      streak (fun i => q (readings i).ratio ∧ p.decisionAt readings i = .hold) n + 1) ↔
      p.Sustained readings q n := by
  have window := le_streak_iff (fun i => q (readings i).ratio ∧ p.decisionAt readings i = .hold)
    (p.hysteresisTicks - 1) n
  rw [Nat.sub_le_iff_le_add, Nat.sub_le_iff_le_add] at window
  rw [window]
  constructor
  · rintro ⟨this, enough, all⟩
    refine ⟨enough, fun i le inside => ?_, fun m last => ?_⟩
    · rcases Nat.lt_or_eq_of_le le with earlier | rfl
      · exact (all i earlier (by omega)).1
      · exact this
    · by_contra inside
      exact last.resized (all m last.before (by omega)).2
  · intro sustained
    refine ⟨sustained.all n (Nat.le_refl n) (by omega), sustained.enough, fun i below inside => ?_⟩
    refine ⟨sustained.all i (Nat.le_of_lt below) (by omega), ?_⟩
    by_contra resized
    obtain ⟨m, le, last⟩ := Policy.exists_lastResize below resized
    have outside := sustained.later m last
    omega

namespace Policy.Proper

variable (proper : p.Proper readings)

include proper

/-- The counter reaches the hysteresis when the load has been high for that long. -/
theorem sustained_high :
    p.hysteresisTicks ≤ (p.count (readings n).ratio (p.stateAt readings n)).highStreak ↔
      p.Sustained readings p.High n := by
  have hysteresis := proper.hysteresis
  rw [← Policy.sustained_iff hysteresis, ← proper.highStreak_eq, Policy.count_highStreak]
  split
  · next high => exact ⟨fun le => ⟨high, le⟩, fun both => both.2⟩
  · next other => exact ⟨fun le => by omega, fun both => absurd both.1 other⟩

theorem sustained_low :
    p.hysteresisTicks ≤ (p.count (readings n).ratio (p.stateAt readings n)).lowStreak ↔
      p.Sustained readings p.Low n := by
  have hysteresis := proper.hysteresis
  rw [← Policy.sustained_iff hysteresis, ← proper.lowStreak_eq, Policy.count_lowStreak proper.apart]
  split
  · next low => exact ⟨fun le => ⟨low, le⟩, fun both => both.2⟩
  · next other => exact ⟨fun le => by omega, fun both => absurd both.1 other⟩

/-- The cooldown is over when it has passed since the last resize. -/
theorem not_cooling_iff :
    ¬ p.Cooling (p.stateAt readings n) (readings n).now ↔ p.Cooled readings n := by
  rcases p.lastResizeAt_eq readings n with ⟨m, last, time⟩ | ⟨none, zero⟩
  · simp only [Policy.Cooling, time, ne_eq, proper.clock m, not_false_eq_true,
      true_and, Int64.not_lt]
    constructor
    · intro passed m' last'
      rw [last'.unique last]
      exact passed
    · intro cooled
      exact cooled m last
  · simp only [Policy.Cooling, zero, ne_eq, not_true_eq_false, false_and,
      not_false_eq_true, true_iff]
    intro m last
    exact absurd (none m last.before) last.resized

/-- Growing is what a tick decides when the last ticks were high, there is room and
the cooldown is over. -/
theorem decisionAt_grow_iff :
    p.decisionAt readings n = .grow ↔
      p.Sustained readings p.High n ∧ (readings n).size < p.maxConns ∧ p.Cooled readings n := by
  rw [← proper.sustained_high, ← proper.not_cooling_iff]
  simp only [Policy.decisionAt, Policy.decideAt]
  rcases p.decide_cases (readings n).ratio (readings n).size (p.stateAt readings n)
    (readings n).now with
    ⟨held, blocked | ⟨full, -⟩⟩ | ⟨grew, free, high, room⟩ | ⟨shrank, -, full, -⟩
  · simp [held, blocked]
  · simp only [held, reduceCtorEq, false_iff]
    exact fun all => full ⟨all.1, all.2.1⟩
  · simp [grew, free, high, room]
  · simp only [shrank, reduceCtorEq, false_iff]
    exact fun all => full ⟨all.1, all.2.1⟩

/-- Shrinking likewise; a tick with a sustained low ratio is not a high one. -/
theorem decisionAt_shrink_iff :
    p.decisionAt readings n = .shrink ↔
      p.Sustained readings p.Low n ∧ p.minConns < (readings n).size ∧ p.Cooled readings n := by
  have hysteresis := proper.hysteresis
  have notHigh : p.Sustained readings p.Low n → ¬ p.Sustained readings p.High n := by
    intro low high
    exact Policy.not_high_of_low proper.apart (low.all n (Nat.le_refl n) (by omega))
      (high.all n (Nat.le_refl n) (by omega))
  rw [← proper.not_cooling_iff]
  simp only [Policy.decisionAt, Policy.decideAt]
  rcases p.decide_cases (readings n).ratio (readings n).size (p.stateAt readings n)
    (readings n).now with
    ⟨held, blocked | ⟨-, empty⟩⟩ | ⟨grew, -, high, -⟩ | ⟨shrank, free, -, low, room⟩
  · simp [held, blocked]
  · rw [proper.sustained_low] at empty
    simp only [held, reduceCtorEq, false_iff]
    exact fun all => empty ⟨all.1, all.2.1⟩
  · simp only [grew, reduceCtorEq, false_iff]
    exact fun all => notHigh all.1 (proper.sustained_high.mp high)
  · simp [shrank, free, proper.sustained_low.mp low, room]

/-- A streak that is not zero has just counted a tick, which was high or low and not
both. -/
theorem streaks_exclusive :
    (p.stateAt readings n).highStreak = 0 ∨ (p.stateAt readings n).lowStreak = 0 := by
  cases n with
  | zero => exact .inl rfl
  | succ n =>
    rw [proper.highStreak_succ, proper.lowStreak_succ]
    by_cases high : p.High (readings n).ratio
    · exact .inr (if_neg fun both => Policy.not_high_of_low proper.apart both.1 high)
    · exact .inl (if_neg fun both => high both.1)

end Policy.Proper

/-- `time.Time.Sub` is exact but at the ends of `time.Duration`. -/
theorem le_sub_of_le {d : Int64} {t u : Instant} (least : Int64.minValue < d) (le : d ≤ sub t u) :
    d.toInt ≤ t - u := by
  have above : -2 ^ 63 < d.toInt := Int64.lt_iff_toInt_lt.mp least
  have upper := d.toInt_lt
  have clamped : (sub t u).toInt = max (-2 ^ 63) (min (t - u) (2 ^ 63 - 1)) :=
    toInt_ofInt_of_range ⟨by omega, by omega⟩
  have := Int64.le_iff_toInt_le.mp le
  omega

/-- Decisions over whole runs. A tick grows exactly when it and the ticks before it,
`hysteresisTicks` in all, were high and come after the last tick that did not hold,
the size is below `maxConns` and the cooldown has passed; it shrinks in the symmetric
case. Two consecutive ticks that do not hold are `cooldown` apart, and at most one
streak is positive. -/
theorem Policy.decisions_exact (p : Policy R) (readings : Nat → Reading R)
    (hysteresis : 1 ≤ p.hysteresisTicks) (apart : p.lowWatermark < p.highWatermark)
    (clock : ∀ n, (readings n).now ≠ 0) :
    (∀ n, p.decisionAt readings n = .grow ↔
      p.Sustained readings p.High n ∧ (readings n).size < p.maxConns ∧ p.Cooled readings n) ∧
    (∀ n, p.decisionAt readings n = .shrink ↔
      p.Sustained readings p.Low n ∧ p.minConns < (readings n).size ∧ p.Cooled readings n) ∧
    (∀ m n, p.LastResize readings m n → p.decisionAt readings n ≠ .hold →
      p.cooldown ≤ sub (readings n).now (readings m).now ∧
      (Int64.minValue < p.cooldown → p.cooldown.toInt ≤ (readings n).now - (readings m).now)) ∧
    ∀ n, (p.stateAt readings n).highStreak = 0 ∨ (p.stateAt readings n).lowStreak = 0 := by
  have proper : p.Proper readings := ⟨hysteresis, apart, clock⟩
  refine ⟨fun n => proper.decisionAt_grow_iff, fun n => proper.decisionAt_shrink_iff, ?_,
    fun n => proper.streaks_exclusive⟩
  intro m n last resized
  have cooled : p.Cooled readings n := by
    cases decision : p.decisionAt readings n with
    | hold => exact absurd decision resized
    | grow => exact (proper.decisionAt_grow_iff.mp decision).2.2
    | shrink => exact (proper.decisionAt_shrink_iff.mp decision).2.2
  exact ⟨cooled m last, fun least => le_sub_of_le least (cooled m last)⟩

end Policy

/-- A pool of five under a steady high ratio, sampled once a minute: the third tick
grows, and so does the sixth. -/
theorem Policy.decisions_exact_busy :
    let p := shipped 85 30 5 30
    let readings (n : Nat) : Reading Nat := ⟨some 90, 5, 60000000000 * (n + 1)⟩
    p.decisionAt readings 2 = .grow ∧ p.decisionAt readings 5 = .grow ∧
      (p.decisionAt readings 5 = .grow ↔ p.Sustained readings p.High 5 ∧
        (readings 5).size < p.maxConns ∧ p.Cooled readings 5) := by
  intro p readings
  have clock : ∀ n, (readings n).now ≠ 0 := by
    intro n
    show (60000000000 * (n + 1) : Int) ≠ 0
    omega
  exact ⟨by decide +kernel, by decide +kernel,
    (Policy.decisions_exact p readings (by decide) (by decide) clock).1 5⟩

end WalletGo.Resize
