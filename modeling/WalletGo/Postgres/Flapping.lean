import Mathlib.Algebra.Order.Field.Basic
import Mathlib.Algebra.Order.Ring.Rat
import Mathlib.Data.Int.LeastGreatest
import WalletGo.Postgres.Tick

/-!
An elastic pool under a constant demand.

At every tick the pool has as many connections in use as are asked for, or as it has.
A step up from a small floor can leave so much of the pool idle that the ratio falls
below the low watermark, and then the pool shrinks back and starts over. This takes a
floor of at most four; from nine connections on, a step up never does it. `steady_iff`
says exactly for which floors, ceilings and demands the pool settles.
-/

namespace WalletGo.Resize

/-- The policy of `newPoolResizer`, with watermarks 0.85 and 0.30. -/
def newPoolResizer (minConns maxConns : Int32) : Policy ℚ :=
  shipped (17 / 20) (3 / 10) minConns maxConns

def load (demand : Nat) (size : Int32) : ℚ :=
  (min (demand : Int) size.toInt : Int) / (size.toInt : Int)

/-- Samples under a constant demand, with every resize succeeding. -/
def constant (demand : Nat) (times : Nat → Instant) (n : Nat) : Sample ℚ :=
  ⟨fun size => some (load demand size), times n, true⟩

/-- No decision to shrink comes after one to grow, and the size settles. -/
structure Policy.Steady (p : Policy ℚ) (samples : Nat → Sample ℚ) : Prop where
  noFlap : ∀ i j, i < j → (p.tickAt samples i).decision = .grow →
    (p.tickAt samples j).decision ≠ .shrink
  settles : ∃ n size, ∀ m, n ≤ m → (p.resizerAt samples m).size = size

/-- At the floor the demand asks for more, and one step up it asks for less. -/
def Overshoots (demand : Nat) (minConns maxConns : Int32) : Prop :=
  minConns.toInt < maxConns.toInt ∧ 17 * minConns.toInt ≤ 20 * min (demand : Int) minConns.toInt ∧
    10 * (demand : Int) ≤ 3 * min (minConns.toInt + 8) maxConns.toInt

instance (demand : Nat) (minConns maxConns : Int32) :
    Decidable (Overshoots demand minConns maxConns) :=
  inferInstanceAs (Decidable (_ ∧ _ ∧ _))

variable {demand : Nat} {minConns maxConns size : Int32}

/-! ### The watermarks as integer comparisons -/

/-- When a load counts as high for a pool of this size. -/
theorem high_iff (positive : 0 < size.toInt) :
    (newPoolResizer minConns maxConns).High (some (load demand size)) ↔
      17 * size.toInt ≤ 20 * min (demand : Int) size.toInt := by
  have size_pos : (0 : ℚ) < size.toInt := by exact_mod_cast positive
  show (17 / 20 : ℚ) ≤ load demand size ↔ _
  rw [load, div_le_div_iff₀ (by norm_num) size_pos]
  norm_cast
  rw [Int.mul_comm 20]

/-- When a load counts as low for a pool of this size. -/
theorem low_iff (positive : 0 < size.toInt) :
    (newPoolResizer minConns maxConns).Low (some (load demand size)) ↔
    10 * (demand : Int) ≤ 3 * size.toInt := by
  have size_pos : (0 : ℚ) < size.toInt := by exact_mod_cast positive
  show load demand size ≤ (3 / 10 : ℚ) ↔ _
  rw [load, div_le_div_iff₀ size_pos (by norm_num)]
  norm_cast
  omega

/-! ### Pools that only grow -/

/-- The sizes of a pool that has not overshot: the floor, or a size at which the ratio is
above the low watermark. -/
structure Calm (demand : Nat) (minConns maxConns size : Int32) : Prop where
  lower : minConns.toInt ≤ size.toInt
  upper : size.toInt ≤ maxConns.toInt
  settled : size.toInt = minConns.toInt ∨
    (size.toInt = maxConns.toInt ∨ minConns.toInt + 8 ≤ size.toInt) ∧
    3 * size.toInt < 10 * (demand : Int)

/-- A step up keeps the pool calm. Away from the floor the size is nine or more, and then
17/20 of it is more than 3/10 of eight more. -/
theorem Calm.grow (calm : Calm demand minConns maxConns size) (positive : 1 ≤ minConns.toInt)
    (far : maxConns.toInt + 8 ≤ 2 ^ 31 - 1) (fits : ¬ Overshoots demand minConns maxConns)
    (high : 17 * size.toInt ≤ 20 * min (demand : Int) size.toInt)
    (below : size.toInt < maxConns.toInt) :
    Calm demand minConns maxConns (min (size + resizeStep) maxConns) ∧
      size.toInt ≤ (min (size + resizeStep) maxConns).toInt := by
  obtain ⟨lower, upper, settled⟩ := calm
  have next : (min (size + resizeStep) maxConns).toInt = min (size.toInt + 8) maxConns.toInt := by
    rw [toInt_min, toInt_add_step (by omega)]
  have idle : 3 * (min (size.toInt + 8) maxConns.toInt) < 10 * (demand : Int) := by
    rcases settled with floor | ⟨top | above, -⟩
    · rw [floor] at high below ⊢
      by_contra low
      exact fits ⟨below, high, by omega⟩
    · omega
    · omega
  refine ⟨⟨?_, ?_, ?_⟩, ?_⟩
  · omega
  · omega
  · rw [next]
    omega
  · omega

section Run

variable {times : Nat → Instant}

/-- What a tick does to a calm pool: it does not shrink it. -/
theorem Calm.tick {r : Resizer} (calm : Calm demand minConns maxConns r.size)
    (positive : 1 ≤ minConns.toInt) (far : maxConns.toInt + 8 ≤ 2 ^ 31 - 1)
    (fits : ¬ Overshoots demand minConns maxConns) (n : Nat) :
    let ticked := (newPoolResizer minConns maxConns).tick (constant demand times n) r
    ticked.decision ≠ .shrink ∧ Calm demand minConns maxConns ticked.next.size ∧
      r.size.toInt ≤ ticked.next.size.toInt := by
  intro ticked
  have alive : 0 < r.size.toInt := Int.lt_of_lt_of_le positive calm.lower
  have positive' : 0 < r.size := Int32.lt_iff_toInt_lt.mpr alive
  obtain ⟨decision, state, answer, outcome⟩ :=
    (newPoolResizer minConns maxConns).tick_cases (constant demand times n) r positive'
  have kept : decision ≠ .shrink := by
    rintro rfl
    obtain ⟨low, above⟩ := Policy.decide_shrink one_le_hysteresisTicks answer
    have low := (low_iff alive).mp low
    have above : minConns.toInt < r.size.toInt := Int32.lt_iff_toInt_lt.mp above
    rcases calm.settled with same | ⟨-, busy⟩ <;> omega
  rcases outcome with ⟨-, same⟩ | ⟨moves, moved⟩
  · rw [show ticked = _ from same]
    exact ⟨kept, calm, Int.le_refl _⟩
  · rw [show ticked = _ from moved]
    cases decision with
    | hold => exact absurd rfl moves
    | shrink => exact absurd rfl kept
    | grow =>
      obtain ⟨high, below⟩ := Policy.decide_grow one_le_hysteresisTicks answer
      exact ⟨kept, calm.grow positive far fits ((high_iff alive).mp high)
        (Int32.lt_iff_toInt_lt.mp below)⟩

theorem calm_resizerAt (times : Nat → Instant) (positive : 1 ≤ minConns.toInt)
    (ordered : minConns.toInt ≤ maxConns.toInt) (far : maxConns.toInt + 8 ≤ 2 ^ 31 - 1)
    (fits : ¬ Overshoots demand minConns maxConns) (n : Nat) :
    Calm demand minConns maxConns ((newPoolResizer minConns maxConns).resizerAt
      (constant demand times) n).size := by
  induction n with
  | zero => exact ⟨Int.le_refl _, ordered, .inl rfl⟩
  | succ n ih => exact (ih.tick positive far fits n).2.1

/-- A bounded size that never falls settles. -/
theorem exists_settled {f : Nat → Int} {bound : Int} (grows : ∀ n, f n ≤ f (n + 1))
    (bounded : ∀ n, f n ≤ bound) : ∃ n, ∀ m, n ≤ m → f m = f n := by
  obtain ⟨top, ⟨n, rfl⟩, greatest⟩ := Int.exists_greatest_of_bdd (P := fun z => ∃ n, f n = z)
    ⟨bound, by rintro z ⟨n, rfl⟩; exact bounded n⟩ ⟨f 0, 0, rfl⟩
  refine ⟨n, fun m le => Int.le_antisymm (greatest _ ⟨m, rfl⟩) ?_⟩
  exact monotone_nat_of_le_succ grows le

/-- With a demand that does not overshoot, the size settles. -/
theorem steady_of_fits (positive : 1 ≤ minConns.toInt) (ordered : minConns.toInt ≤ maxConns.toInt)
    (far : maxConns.toInt + 8 ≤ 2 ^ 31 - 1) (fits : ¬ Overshoots demand minConns maxConns) :
    (newPoolResizer minConns maxConns).Steady (constant demand times) := by
  have calm := calm_resizerAt times positive ordered far fits
  constructor
  · intro i j _ _
    exact ((calm j).tick positive far fits j).1
  · obtain ⟨n, settled⟩ := exists_settled
      (f := fun n => ((newPoolResizer minConns maxConns).resizerAt (constant demand times)
        n).size.toInt)
      (fun n => ((calm n).tick positive far fits n).2.2) (fun n => (calm n).upper)
    exact ⟨n, _, fun m le => Int32.toInt_inj.mp (settled m le)⟩

end Run

/-! ### Pools that overshoot -/

/-- With a tick every 45 seconds, the third grows the pool and the sixth shrinks it. -/
theorem overshoots_flaps (positive : 1 ≤ minConns.toInt) (far : maxConns.toInt + 8 ≤ 2 ^ 31 - 1)
    (overshoots : Overshoots demand minConns maxConns) :
    ((newPoolResizer minConns maxConns).tickAt (constant demand beat) 2).decision = .grow ∧
      ((newPoolResizer minConns maxConns).tickAt (constant demand beat) 5).decision = .shrink := by
  obtain ⟨below, wanted, idle⟩ := overshoots
  have next :
      (min (minConns + resizeStep) maxConns).toInt = min (minConns.toInt + 8) maxConns.toInt := by
    rw [toInt_min, toInt_add_step (by omega)]
  have up : (newPoolResizer minConns maxConns).nextMaxConns minConns .grow =
      min (minConns + resizeStep) maxConns := rfl
  generalize min (minConns + resizeStep) maxConns = size at next up
  have alive : 0 < minConns := Int32.lt_iff_toInt_lt.mpr positive
  have alive' : 0 < size := Int32.lt_iff_toInt_lt.mpr (show 0 < size.toInt by omega)
  have ceiling : minConns < maxConns := Int32.lt_iff_toInt_lt.mpr below
  have floor : minConns < size := Int32.lt_iff_toInt_lt.mpr (by omega)
  have high : (newPoolResizer minConns maxConns).High (some (load demand minConns)) :=
    (high_iff (by omega)).mpr wanted
  have low : (newPoolResizer minConns maxConns).Low (some (load demand size)) :=
    (low_iff (by omega)).mpr (by omega)
  have notHigh : ¬ (newPoolResizer minConns maxConns).High (some (load demand size)) := by
    rw [high_iff (by omega)]
    omega
  have grown := tickAt_pushed (d := .grow) (n := 0) (newPoolResizer minConns maxConns)
    (constant demand beat) rfl rfl (fun _ => rfl) (fun _ => rfl) alive (Int.le_refl 0) rfl
    (fun i _ => ⟨high, ceiling⟩) (by rw [up]; exact (Int32.ne_of_lt floor).symm)
  rw [up] at grown
  have smaller : (max (size - resizeStep) minConns).toInt < size.toInt := by
    rw [toInt_max, toInt_sub_step (by omega)]
    omega
  have shrunk := tickAt_pushed (d := .shrink) (n := 3) (newPoolResizer minConns maxConns)
    (constant demand beat) rfl rfl (fun _ => rfl) (fun _ => rfl) alive' (Int.le_refl _)
    (congrArg Ticked.next grown) (fun i _ => ⟨low, notHigh, floor⟩)
    (Int32.ne_of_lt (Int32.lt_iff_toInt_lt.mpr smaller))
  exact ⟨congrArg Ticked.decision grown, congrArg Ticked.decision shrunk⟩

/-- Under a constant demand the pool does not flap, whenever its ticks come, exactly when
a step up from the floor does not overshoot. -/
theorem steady_iff (demand : Nat) (minConns maxConns : Int32) (positive : 1 ≤ minConns)
    (ordered : minConns ≤ maxConns) (far : maxConns.toInt + 8 ≤ 2 ^ 31 - 1) :
    (∀ times : Nat → Instant, (∀ n, times n < times (n + 1)) →
      (newPoolResizer minConns maxConns).Steady (constant demand times)) ↔
      ¬ Overshoots demand minConns maxConns := by
  have positive := Int32.le_iff_toInt_le.mp positive
  have ordered := Int32.le_iff_toInt_le.mp ordered
  rw [Int32.toInt_one] at positive
  constructor
  · intro steady overshoots
    obtain ⟨grown, shrunk⟩ := overshoots_flaps positive far overshoots
    exact (steady beat beat_lt_succ).noFlap 2 5 (by decide) grown shrunk
  · intro fits times _
    exact steady_of_fits positive ordered far fits

/-- Twelve connections wanted of a pool of five to thirty. -/
theorem steady_iff_five_thirty :
    ((∀ times : Nat → Instant, (∀ n, times n < times (n + 1)) →
      (newPoolResizer 5 30).Steady (constant 12 times)) ↔ ¬ Overshoots 12 5 30) ∧
      ¬ Overshoots 12 5 30 :=
  ⟨steady_iff 12 5 30 (by decide) (by decide) (by decide), by decide⟩

/-- One connection wanted of a pool of one to nine: it grows to nine, of which one is
less than three tenths, and shrinks back. -/
theorem pool_flaps :
    (∀ n, beat n < beat (n + 1)) ∧
      ((newPoolResizer 1 9).tickAt (constant 1 beat) 2).decision = .grow ∧
      ((newPoolResizer 1 9).tickAt (constant 1 beat) 5).decision = .shrink ∧
      ¬ (newPoolResizer 1 9).Steady (constant 1 beat) := by
  have overshoots : Overshoots 1 1 9 := by decide
  obtain ⟨grown, shrunk⟩ := overshoots_flaps (by decide) (by decide) overshoots
  exact ⟨beat_lt_succ, grown, shrunk, fun steady => steady.noFlap 2 5 (by decide) grown shrunk⟩

end WalletGo.Resize
