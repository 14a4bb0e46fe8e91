import Mathlib.Algebra.Order.Field.Rat
import Mathlib.Tactic.FieldSimp
import Mathlib.Tactic.Linarith
import Mathlib.Tactic.Ring

/-!
The token bucket of `golang.org/x/time/rate`, with exact rational tokens and times.

A bucket fills at a constant rate up to its burst. `reserve` takes a token, if need be
one that will only be there later, and `cancelAt` gives it back as far as no later
reservation has been made. Reservations that have not been cancelled form a stack
(`Stacked`). A cancellation of the top of the stack, in time, undoes the reservation
(`Tracks.cancel`): from then on the bucket is at the level it would have without it.
Any other cancellation gives nothing back (`Tracks.cancel_ineffective`).
-/

namespace Rate

/-- Tokens per unit of time, and the capacity. -/
structure Limiter where
  rate : ℚ
  burst : Nat
  positive : 0 < rate

structure Bucket where
  tokens : ℚ
  last : ℚ
  lastEvent : ℚ
deriving DecidableEq

structure Reservation where
  ok : Bool
  timeToAct : ℚ
deriving DecidableEq

/-- How long the holder has to wait. -/
def Reservation.delayFrom (r : Reservation) (now : ℚ) : ℚ := max 0 (r.timeToAct - now)

namespace Limiter

variable (lim : Limiter)

def full : Bucket := ⟨lim.burst, 0, 0⟩

def advance (b : Bucket) (now : ℚ) : ℚ :=
  let last := if now < b.last then now else b.last
  min (b.tokens + lim.rate * (now - last)) lim.burst

/-- `Limiter.ReserveN` for one token and any waiting time. -/
def reserve (b : Bucket) (now : ℚ) : Reservation × Bucket :=
  let tokens := lim.advance b now - 1
  let wait := if tokens < 0 then -tokens / lim.rate else 0
  if 1 ≤ lim.burst then (⟨true, now + wait⟩, ⟨tokens, now, now + wait⟩)
  else (⟨false, 0⟩, b)

/-- `Reservation.CancelAt` -/
def cancelAt (b : Bucket) (r : Reservation) (now : ℚ) : Bucket :=
  if r.ok = false ∨ r.timeToAct < now then b
  else
    let restore := 1 - lim.rate * (b.lastEvent - r.timeToAct)
    if restore ≤ 0 then b
    else
      let prevEvent := r.timeToAct - 1 / lim.rate
      ⟨min (lim.advance b now + restore) lim.burst, now,
        if r.timeToAct = b.lastEvent ∧ ¬ prevEvent < now then prevEvent else b.lastEvent⟩

/-- The bucket after reservations at the given times. -/
def replay (times : List ℚ) : Bucket := times.foldl (fun b now => (lim.reserve b now).2) lim.full

variable {lim} {b : Bucket} {now t : ℚ}

/-! ### Levels -/

/-- Tokens come in at the rate, up to the burst. -/
theorem advance_eq (later : b.last ≤ now) :
    lim.advance b now = min (b.tokens + lim.rate * (now - b.last)) lim.burst := by
  rw [advance, if_neg (not_lt.mpr later)]

/-- A bucket left alone fills along a line up to the burst. -/
theorem advance_advance (later : b.last ≤ now) (after : now ≤ t) :
    min (lim.advance b now + lim.rate * (t - now)) lim.burst = lim.advance b t := by
  have gained : 0 ≤ lim.rate * (t - now) := mul_nonneg lim.positive.le (sub_nonneg.mpr after)
  rw [advance_eq later, advance_eq (later.trans after), ← min_add_add_right, min_assoc,
    min_eq_right (le_add_of_nonneg_right gained)]
  congr 1
  ring

theorem reserve_ok (ample : 1 ≤ lim.burst) : (lim.reserve b now).1.ok = true := by
  simp [reserve, ample]

/-- A reservation takes one token and remembers when it is due. -/
theorem reserve_snd (ample : 1 ≤ lim.burst) :
    (lim.reserve b now).2 = ⟨lim.advance b now - 1, now, (lim.reserve b now).1.timeToAct⟩ := by
  simp [reserve, ample]

theorem advance_reserve (ample : 1 ≤ lim.burst) (after : now ≤ t) :
    lim.advance (lim.reserve b now).2 t = min (lim.advance b now - 1 + lim.rate * (t - now))
      lim.burst := by
  rw [reserve_snd ample]
  exact advance_eq after

/-- A reservation depends on the level only. -/
theorem reserve_fst_congr {b' : Bucket} (same : lim.advance b now = lim.advance b' now) :
    (lim.reserve b now).1 = (lim.reserve b' now).1 := by
  unfold reserve
  rw [same]
  split <;> rfl

/-- A reservation has to wait if there is no whole token. -/
theorem timeToAct_delayed (ample : 1 ≤ lim.burst) :
    now < (lim.reserve b now).1.timeToAct ↔ lim.advance b now < 1 := by
  have positive := lim.positive
  simp only [reserve, if_pos ample]
  split
  · next short =>
    have wait : 0 < -(lim.advance b now - 1) / lim.rate := div_pos (by linarith) positive
    exact ⟨fun _ => by linarith, fun _ => by linarith⟩
  · next enough => exact ⟨fun h => by linarith, fun h => absurd (by linarith) enough⟩

/-- It waits for the missing part of a token. -/
theorem timeToAct_eq (ample : 1 ≤ lim.burst) (short : lim.advance b now < 1) :
    lim.rate * ((lim.reserve b now).1.timeToAct - now) = 1 - lim.advance b now := by
  have positive := lim.positive
  simp only [reserve, if_pos ample, if_pos (show lim.advance b now - 1 < 0 by linarith)]
  field_simp
  ring

/-- The last event is given back in full. -/
theorem cancelAt_last {timeToAct : ℚ} (due : now ≤ timeToAct)
    (lastEvent : b.lastEvent = timeToAct) : lim.cancelAt b ⟨true, timeToAct⟩ now =
      ⟨min (lim.advance b now + 1) lim.burst, now,
        if timeToAct - 1 / lim.rate < now then timeToAct else timeToAct - 1 / lim.rate⟩ := by
  unfold cancelAt
  have inTime : ¬ (true = false ∨ timeToAct < now) := by simpa using due
  rw [if_neg inTime, lastEvent, sub_self, mul_zero, sub_zero]
  rw [if_neg (not_le.mpr one_pos)]
  dsimp only
  by_cases past : timeToAct - 1 / lim.rate < now
  · rw [if_pos past, if_neg (fun both => both.2 past)]
  · rw [if_neg past, if_pos ⟨rfl, past⟩]

end Limiter

/-! ### The reservations that stand -/

universe u

/-- A reservation that has not been cancelled, with the time it was made. -/
structure Held (ι : Type u) where
  id : ι
  time : ℚ
  timeToAct : ℚ

def Held.Delayed {ι : Type u} (h : Held ι) : Prop := h.time < h.timeToAct

/-- The bucket in which exactly these reservations have been made, the latest first. -/
inductive Stacked {ι : Type u} (lim : Limiter) : List (Held ι) → Bucket → Prop where
  | nil : Stacked lim [] lim.full
  | push {held : List (Held ι)} {b : Bucket} (id : ι) {now : ℚ} (later : b.last ≤ now)
      (stacked : Stacked lim held b) :
      Stacked lim (⟨id, now, (lim.reserve b now).1.timeToAct⟩ :: held) (lim.reserve b now).2

variable {ι : Type u} {lim : Limiter} {held : List (Held ι)} {b : Bucket}

/-- Reservations on top of one another are what replaying their times gives. -/
theorem Stacked.replay (stacked : Stacked lim held b) :
    lim.replay (held.map (·.time)).reverse = b := by
  induction stacked with
  | nil => rfl
  | push id later stacked ih =>
    rw [List.map_cons, List.reverse_cons, Limiter.replay, List.foldl_append]
    exact congrArg (fun b => (lim.reserve b _).2) ih

/-- While a delayed reservation has not come due, the bucket lacks at least the tokens
it waits for. -/
theorem Stacked.lacks (ample : 1 ≤ lim.burst) (stacked : Stacked lim held b) :
    ∀ h ∈ held, h.Delayed → b.last ≤ h.timeToAct →
      b.tokens ≤ lim.rate * (b.last - h.timeToAct) := by
  have positive := lim.positive
  induction stacked with
  | nil => exact fun h mem => nomatch mem
  | @push held b id now later stacked ih =>
    intro h mem delayed due
    rw [Limiter.reserve_snd ample] at due ⊢
    rcases List.mem_cons.mp mem with rfl | mem
    · have missing := Limiter.timeToAct_eq ample ((Limiter.timeToAct_delayed ample).mp delayed)
      linarith
    · have before := ih h mem delayed (later.trans due)
      have level : lim.advance b now ≤ b.tokens + lim.rate * (now - b.last) := by
        rw [Limiter.advance_eq later]
        exact min_le_left _ _
      linarith

/-- Before a delayed reservation is due the bucket is in debt. -/
theorem Stacked.advance_le (ample : 1 ≤ lim.burst) (stacked : Stacked lim held b) {now : ℚ}
    (later : b.last ≤ now) {h : Held ι} (mem : h ∈ held) (delayed : h.Delayed)
    (due : now ≤ h.timeToAct) :
    lim.advance b now ≤ lim.rate * (now - h.timeToAct) ∧ lim.advance b now ≤ 0 := by
  have before := stacked.lacks ample h mem delayed (later.trans due)
  have level : lim.advance b now ≤ b.tokens + lim.rate * (now - b.last) := by
    rw [Limiter.advance_eq later]
    exact min_le_left _ _
  have nonpositive : lim.rate * (now - h.timeToAct) ≤ 0 :=
    mul_nonpos_of_nonneg_of_nonpos lim.positive.le (sub_nonpos.mpr due)
  constructor <;> linarith

/-- What a reservation on top of one that has not come due gets. -/
theorem Stacked.timeToAct_ge (ample : 1 ≤ lim.burst) (stacked : Stacked lim held b) {now : ℚ}
    (later : b.last ≤ now) {h : Held ι} (mem : h ∈ held) (delayed : h.Delayed)
    (due : now ≤ h.timeToAct) :
    now < (lim.reserve b now).1.timeToAct ∧ h.timeToAct + 1 / lim.rate ≤
      (lim.reserve b now).1.timeToAct := by
  have positive := lim.positive
  obtain ⟨lacking, nonpositive⟩ := stacked.advance_le ample later mem delayed due
  have short : lim.advance b now < 1 := by linarith
  refine ⟨(Limiter.timeToAct_delayed ample).mpr short, ?_⟩
  have waits := Limiter.timeToAct_eq ample short
  have scaled :
      lim.rate * (h.timeToAct + 1 / lim.rate) ≤ lim.rate * (lim.reserve b now).1.timeToAct := by
    have one : lim.rate * (1 / lim.rate) = 1 := by field_simp
    linarith
  exact le_of_mul_le_mul_left scaled positive

/-- The level under a delayed reservation that has not come due. -/
theorem Stacked.advance_top (ample : 1 ≤ lim.burst) {top : Held ι}
    (stacked : Stacked lim (top :: held) b) (delayed : top.Delayed) {now : ℚ}
    (later : top.time ≤ now) (due : now ≤ top.timeToAct) :
    lim.advance b now = lim.rate * (now - top.timeToAct) := by
  have positive := lim.positive
  cases stacked with
  | @push _ p id time before stacked =>
    have missing := Limiter.timeToAct_eq ample ((Limiter.timeToAct_delayed ample).mp delayed)
    have nonpositive : lim.rate * (now - (lim.reserve p time).1.timeToAct) ≤ 0 :=
      mul_nonpos_of_nonneg_of_nonpos positive.le (sub_nonpos.mpr due)
    have bounded : (0 : ℚ) ≤ lim.burst := Nat.cast_nonneg _
    have line : lim.advance p time - 1 + lim.rate * (now - time) =
        lim.rate * (now - (lim.reserve p time).1.timeToAct) := by linarith
    rw [Limiter.advance_reserve ample later, line]
    exact min_eq_left (nonpositive.trans bounded)

/-- Reservations on top of each other come due one token apart. -/
theorem Stacked.timeToAct_top (ample : 1 ≤ lim.burst) {top : Held ι}
    (stacked : Stacked lim (top :: held) b) (delayed : top.Delayed) {now : ℚ}
    (later : top.time ≤ now) (due : now ≤ top.timeToAct) :
    (lim.reserve b now).1.timeToAct = top.timeToAct + 1 / lim.rate := by
  have positive := lim.positive
  have level := stacked.advance_top ample delayed later due
  have nonpositive : lim.rate * (now - top.timeToAct) ≤ 0 :=
    mul_nonpos_of_nonneg_of_nonpos positive.le (sub_nonpos.mpr due)
  have short : lim.advance b now < 1 := by linarith
  have waits := Limiter.timeToAct_eq ample short
  have scaled :
      lim.rate * (lim.reserve b now).1.timeToAct = lim.rate * (top.timeToAct + 1 / lim.rate) := by
    have one : lim.rate * (1 / lim.rate) = 1 := by field_simp
    linarith
  exact mul_left_cancel₀ positive.ne' scaled

/-! ### Buckets in use -/

/-- The bucket is, at any time from `clock` on, at the level of one in which exactly
the given reservations have been made; and if the latest of them still has to wait,
it is the last event. -/
structure Tracks (lim : Limiter) (b : Bucket) (clock : ℚ) (held : List (Held ι)) : Prop where
  stacked :
    ∃ p, Stacked lim held p ∧ p.last ≤ clock ∧ ∀ t, clock ≤ t → lim.advance b t = lim.advance p t
  last : b.last ≤ clock
  top : ∀ h ∈ held.head?, h.Delayed → clock ≤ h.timeToAct → b.lastEvent = h.timeToAct

namespace Tracks

variable {clock now : ℚ}

theorem full : Tracks lim lim.full 0 ([] : List (Held ι)) where
  stacked := ⟨lim.full, .nil, le_refl _, fun _ _ => rfl⟩
  last := le_refl _
  top _ mem := nomatch mem

theorem later (tracks : Tracks lim b clock held) (after : clock ≤ now) : Tracks lim b now held where
  stacked := by
    obtain ⟨p, stacked, last, level⟩ := tracks.stacked
    exact ⟨p, stacked, last.trans after, fun t since => level t (after.trans since)⟩
  last := tracks.last.trans after
  top h mem delayed due := tracks.top h mem delayed (after.trans due)

theorem reserve (ample : 1 ≤ lim.burst) (tracks : Tracks lim b clock held) (id : ι)
    (after : clock ≤ now) :
    Tracks lim (lim.reserve b now).2 now (⟨id, now, (lim.reserve b now).1.timeToAct⟩ :: held) := by
  obtain ⟨p, stacked, last, level⟩ := tracks.stacked
  have same : lim.advance b now = lim.advance p now := level now after
  have res : (lim.reserve b now).1 = (lim.reserve p now).1 := Limiter.reserve_fst_congr same
  refine ⟨⟨(lim.reserve p now).2, ?_, ?_, ?_⟩, ?_, ?_⟩
  · rw [res]
    exact .push id (last.trans after) stacked
  · rw [Limiter.reserve_snd ample]
  · intro t since
    rw [Limiter.advance_reserve ample since, Limiter.advance_reserve ample since, same]
  · rw [Limiter.reserve_snd ample]
  · rintro h ⟨⟩ delayed due
    rw [Limiter.reserve_snd ample]

/-- Only the latest reservation can be the last event and still have to wait. -/
theorem eq_top (ample : 1 ≤ lim.burst) (tracks : Tracks lim b clock held) {h : Held ι}
    (mem : h ∈ held) (delayed : h.Delayed) (due : clock ≤ h.timeToAct) :
    (∃ rest, held = h :: rest) ∨ h.timeToAct + 1 / lim.rate ≤ b.lastEvent := by
  obtain ⟨p, stacked, last, -⟩ := tracks.stacked
  cases stacked with
  | nil => cases mem
  | @push rest p id time before stacked =>
    rcases List.mem_cons.mp mem with rfl | mem
    · exact .inl ⟨rest, rfl⟩
    · rw [Limiter.reserve_snd ample] at last
      obtain ⟨waits, apart⟩ := stacked.timeToAct_ge ample before mem delayed (le_trans last due)
      have spacing : 0 < 1 / lim.rate := one_div_pos.mpr lim.positive
      rw [tracks.top _ rfl waits (by linarith)]
      exact .inr apart

/-- A cancellation that is not the last event's, or comes too late, gives nothing back. -/
theorem cancel_ineffective (ample : 1 ≤ lim.burst) (tracks : Tracks lim b clock held) {h : Held ι}
    (mem : h ∈ held) (delayed : h.Delayed) (after : clock ≤ now)
    (off : ¬ (now ≤ h.timeToAct ∧ b.lastEvent = h.timeToAct)) :
    lim.cancelAt b ⟨true, h.timeToAct⟩ now = b := by
  unfold Limiter.cancelAt
  by_cases late : h.timeToAct < now
  · exact if_pos (.inr late)
  · have due : now ≤ h.timeToAct := not_lt.mp late
    have other : b.lastEvent ≠ h.timeToAct := fun same => off ⟨due, same⟩
    rw [if_neg (by simp [late])]
    rcases tracks.eq_top ample mem delayed (after.trans due) with ⟨rest, rfl⟩ | apart
    · exact absurd (tracks.top h rfl delayed (after.trans due)) other
    · -- a later reservation stands, so all of the token is spoken for
      have spent : 1 - lim.rate * (b.lastEvent - h.timeToAct) ≤ 0 := by
        have one : lim.rate * (1 / lim.rate) = 1 := by
          have positive := lim.positive
          field_simp
        have scaled := mul_le_mul_of_nonneg_left apart lim.positive.le
        linarith
      exact if_pos spent

/-- A cancellation of the last event, in time, gives one token back. -/
theorem cancel_effective (ample : 1 ≤ lim.burst) (tracks : Tracks lim b clock held) {h : Held ι}
    (mem : h ∈ held) (delayed : h.Delayed) (after : clock ≤ now) (due : now ≤ h.timeToAct)
    (lastEvent : b.lastEvent = h.timeToAct) :
    lim.advance (lim.cancelAt b ⟨true, h.timeToAct⟩ now) now = lim.advance b now + 1 := by
  obtain ⟨p, stacked, last, level⟩ := tracks.stacked
  have nonpositive : lim.advance b now ≤ 0 := by
    rw [level now after]
    exact (stacked.advance_le ample (last.trans after) mem delayed due).2
  have room : lim.advance b now + 1 ≤ lim.burst := by
    have one : (1 : ℚ) ≤ lim.burst := by exact_mod_cast ample
    linarith
  rw [Limiter.cancelAt_last due lastEvent, min_eq_left room,
    Limiter.advance_eq (le_refl now), sub_self, mul_zero, add_zero]
  exact min_eq_left room

/-- A cancellation of the last event, in time, undoes the reservation. -/
theorem cancel (ample : 1 ≤ lim.burst) (tracks : Tracks lim b clock held) {h : Held ι}
    (mem : h ∈ held) (delayed : h.Delayed) (after : clock ≤ now) (due : now ≤ h.timeToAct)
    (lastEvent : b.lastEvent = h.timeToAct) :
    ∃ rest, held = h :: rest ∧ Tracks lim (lim.cancelAt b ⟨true, h.timeToAct⟩ now) now rest := by
  have spacing : 0 < 1 / lim.rate := one_div_pos.mpr lim.positive
  rcases tracks.eq_top ample mem delayed (after.trans due) with ⟨rest, rfl⟩ | apart
  · refine ⟨rest, rfl, ?_⟩
    obtain ⟨top, stacked, last, level⟩ := tracks.stacked
    have here : lim.advance b now = lim.rate * (now - h.timeToAct) := by
      rw [level now after]
      cases stacked with
      | push id before stacked' =>
        rw [Limiter.reserve_snd ample] at last
        exact (Stacked.push id before stacked').advance_top ample delayed (le_trans last after) due
    cases stacked with
    | @push rest p id time before stacked =>
      rw [Limiter.reserve_snd ample] at last
      have since : time ≤ now := le_trans last after
      -- with the token back, the level is what it would have been without the reservation
      have restored : min (lim.advance b now + 1) lim.burst = lim.advance p now := by
        have missing := Limiter.timeToAct_eq ample ((Limiter.timeToAct_delayed ample).mp delayed)
        rw [← Limiter.advance_advance before since, here]
        congr 1
        linarith
      rw [Limiter.cancelAt_last due lastEvent, restored]
      refine ⟨⟨p, stacked, before.trans since, ?_⟩, le_refl _, ?_⟩
      · intro t afterNow
        rw [Limiter.advance_eq afterNow]
        exact Limiter.advance_advance (before.trans since) afterNow
      · intro next isNext waiting dueNext
        cases stacked with
        | nil => cases isNext
        | @push held q id' time' before' stacked' =>
          cases isNext
          rw [Limiter.reserve_snd ample] at before
          have apart :=
            (Stacked.push id' before' stacked').timeToAct_top ample waiting before
              (since.trans dueNext)
          have previous : (lim.reserve (lim.reserve q time').2 time).1.timeToAct - 1 / lim.rate =
              (lim.reserve q time').1.timeToAct := by linarith
          rw [previous]
          exact if_neg (not_lt.mpr dueNext)
  · linarith

end Tracks

theorem Stacked.time_le (ample : 1 ≤ lim.burst) (stacked : Stacked lim held b) :
    ∀ h ∈ held, h.time ≤ b.last := by
  induction stacked with
  | nil => exact fun h mem => nomatch mem
  | push id later stacked ih =>
    intro h mem
    rw [Limiter.reserve_snd ample]
    rcases List.mem_cons.mp mem with rfl | mem
    · exact le_refl _
    · exact (ih h mem).trans later

/-- The level while the last event has not come due. -/
theorem Tracks.level_top (ample : 1 ≤ lim.burst) {clock now : ℚ}
    (tracks : Tracks lim b clock held) {h : Held ι} (mem : h ∈ held) (delayed : h.Delayed)
    (after : clock ≤ now) (due : now ≤ h.timeToAct) (lastEvent : b.lastEvent = h.timeToAct) :
    lim.advance b now = lim.rate * (now - h.timeToAct) := by
  have spacing : 0 < 1 / lim.rate := one_div_pos.mpr lim.positive
  rcases tracks.eq_top ample mem delayed (after.trans due) with ⟨rest, rfl⟩ | apart
  · obtain ⟨p, stacked, last, level⟩ := tracks.stacked
    rw [level now after]
    have made := stacked.time_le ample h List.mem_cons_self
    exact stacked.advance_top ample delayed (made.trans (last.trans after)) due
  · linarith

/-! ### Windows -/

namespace Limiter

variable {now t : ℚ}

/-- A cancellation never takes anything. -/
theorem advance_le_cancelAt (res : Reservation) (later : b.last ≤ now) (after : now ≤ t) :
    lim.advance b t ≤ lim.advance (lim.cancelAt b res now) t := by
  unfold cancelAt
  split
  · exact le_refl _
  · extract_lets restore
    split
    · exact le_refl _
    · next given =>
      rw [← advance_advance later after]
      refine le_of_le_of_eq ?_ (advance_eq after).symm
      have more : lim.advance b now ≤ min (lim.advance b now + restore) lim.burst := by
        refine le_min (le_add_of_nonneg_right (not_le.mp given).le) ?_
        rw [advance_eq later]
        exact min_le_right _ _
      exact min_le_min_right _ (add_le_add_left more _)

end Limiter

end Rate
