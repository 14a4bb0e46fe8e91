import Mathlib.Data.List.Nodup
import WalletGo.Rate.Bucket
import WalletGo.Txn.System

/-!
The rate limiting middleware, request by request.

A request reserves a token, asks how long it would have to wait, and proceeds or
cancels; the three steps are separate critical sections of the limiter, and those of
different requests interleave. A cancellation is in turn when the reservation is the
limiter's last event and has not come due (`Throttle.InTurn`). If all are, rejected
requests leave no trace in the bucket (`rejected_leave_no_trace`); if two rejected
requests cancel in the order they reserved, a token is lost (`token_lost`).
-/

namespace WalletGo

open Rate

/-- Where a request stands in `rateLimit`. -/
inductive Admission where
  | idle
  | reserved (res : Reservation)
  | rejecting (res : Reservation) (delay : ℚ)
  | admitted
  /-- Answered 429, with the value of `Retry-After`. -/
  | rejected (retryAfter : Int)
deriving DecidableEq

/-- One scope's bucket and its requests; times count from the limiter's creation. -/
structure Throttle where
  clock : ℚ
  bucket : Bucket
  requests : Nat → Admission
  /-- Every reservation made, with its request. -/
  log : List (Nat × ℚ)

inductive ThrottleAct where
  | reserve (i : Nat) (now : ℚ)
  | delay (i : Nat) (now : ℚ)
  | cancel (i : Nat) (now : ℚ)

def ThrottleAct.time : ThrottleAct → ℚ
  | .reserve _ now | .delay _ now | .cancel _ now => now

def Admission.isRejected : Admission → Bool
  | .rejected _ => true
  | _ => false

namespace Throttle

/-- `newPerScopeLimiters`, for one scope. -/
def init (lim : Limiter) : Throttle := ⟨0, lim.full, fun _ => .idle, []⟩

/-- Request `i` goes on at time `now`. -/
def set (s : Throttle) (now : ℚ) (i : Nat) (admission : Admission) (bucket : Bucket) : Throttle :=
  { s with clock := now, bucket, requests := fun j => if j = i then admission else s.requests j }

/-- `rateLimit`, one call of the limiter at a time. -/
def act (lim : Limiter) (s : Throttle) : ThrottleAct → Option Throttle
  | .reserve i now =>
    match s.requests i with
    | .idle =>
      let outcome := lim.reserve s.bucket now
      -- a burst below one: fail open
      if outcome.1.ok = false then some (s.set now i .admitted outcome.2)
      else some { s.set now i (.reserved outcome.1) outcome.2 with log := s.log ++ [(i, now)] }
    | _ => none
  | .delay i now =>
    match s.requests i with
    | .reserved res =>
      if 0 < res.delayFrom now then some (s.set now i (.rejecting res (res.delayFrom now)) s.bucket)
      else some (s.set now i .admitted s.bucket)
    | _ => none
  | .cancel i now =>
    match s.requests i with
    | .rejecting res delay =>
      some (s.set now i (.rejected (delay.floor + 1)) (lim.cancelAt s.bucket res now))
    | _ => none

/-- Steps are taken in the order of their times. -/
def step (lim : Limiter) (s : Throttle) (a : ThrottleAct) : Option Throttle :=
  if a.time < s.clock then none else s.act lim a

def standing (s : Throttle) : List (Nat × ℚ) := s.log.filter fun entry =>
    !(s.requests entry.1).isRejected

/-- The reservations of the requests that were let through. -/
def admissions (s : Throttle) : List ℚ :=
  (s.log.filter fun entry => s.requests entry.1 = .admitted).map (·.2)

/-- Everybody who has reserved has been let through or told to retry. -/
def AllAnswered (s : Throttle) : Prop :=
  ∀ entry ∈ s.log, s.requests entry.1 = .admitted ∨ (s.requests entry.1).isRejected

/-- A cancellation is that of the limiter's last event, which has not come due. -/
def InTurn (s : Throttle) : ThrottleAct → Prop
  | .cancel i now =>
    match s.requests i with
    | .rejecting res _ => now ≤ res.timeToAct ∧ s.bucket.lastEvent = res.timeToAct
    | _ => True
  | _ => True

instance (s : Throttle) : (a : ThrottleAct) → Decidable (s.InTurn a)
  | .cancel i now =>
    match requests : s.requests i with
    | .rejecting res _ =>
      decidable_of_iff (now ≤ res.timeToAct ∧ s.bucket.lastEvent = res.timeToAct)
        (by simp [InTurn, requests])
    | .idle | .reserved _ | .admitted | .rejected _ => .isTrue (by simp [InTurn, requests])
  | .reserve .. | .delay .. => .isTrue trivial

end Throttle

/-! ### What a step can do -/

inductive Throttle.Move (lim : Limiter) (s : Throttle) : ThrottleAct → Throttle → Prop where
  | failsOpen (i : Nat) (now : ℚ) (was : s.requests i = .idle)
      (refused : (lim.reserve s.bucket now).1.ok = false) :
      Move lim s (.reserve i now) (s.set now i .admitted (lim.reserve s.bucket now).2)
  | reserves (i : Nat) (now : ℚ) (was : s.requests i = .idle) :
      Move lim s (.reserve i now)
        { s.set now i (.reserved (lim.reserve s.bucket now).1) (lim.reserve s.bucket now).2 with
          log := s.log ++ [(i, now)] }
  | rejects (i : Nat) (now : ℚ) (res : Reservation) (was : s.requests i = .reserved res)
      (waits : now < res.timeToAct) :
      Move lim s (.delay i now) (s.set now i (.rejecting res (res.delayFrom now)) s.bucket)
  | admits (i : Nat) (now : ℚ) (res : Reservation) (was : s.requests i = .reserved res) :
      Move lim s (.delay i now) (s.set now i .admitted s.bucket)
  | cancels (i : Nat) (now : ℚ) (res : Reservation) (delay : ℚ)
      (was : s.requests i = .rejecting res delay) :
      Move lim s (.cancel i now)
        (s.set now i (.rejected (delay.floor + 1)) (lim.cancelAt s.bucket res now))

namespace Throttle

variable {lim : Limiter} {s s' : Throttle} {a : ThrottleAct}

/-- A step does not go back in time and is one of the moves. -/
theorem step_move (stepped : s.step lim a = some s') : s.clock ≤ a.time ∧ s.Move lim a s' := by
  unfold step at stepped
  split at stepped
  · cases stepped
  · next early =>
    refine ⟨not_lt.mp early, ?_⟩
    cases a with
    | reserve i now =>
      simp only [act] at stepped
      split at stepped
      · next was =>
        split at stepped
        · next refused =>
          cases stepped
          exact .failsOpen i now was refused
        · cases stepped
          exact .reserves i now was
      · cases stepped
    | delay i now =>
      simp only [act] at stepped
      split at stepped
      · next res was =>
        split at stepped
        · next waits =>
          cases stepped
          refine .rejects i now res was ?_
          rcases lt_max_iff.mp waits with none | waits
          · exact absurd none (lt_irrefl 0)
          · exact sub_pos.mp waits
        · cases stepped
          exact .admits i now res was
      · cases stepped
    | cancel i now =>
      simp only [act] at stepped
      split at stepped
      · next res delay was =>
        cases stepped
        exact .cancels i now res delay was
      · cases stepped

@[simp] theorem requests_set_self (now : ℚ) (i : Nat) (admission : Admission) (bucket : Bucket) :
    (s.set now i admission bucket).requests i = admission := if_pos rfl

theorem requests_set {now : ℚ} {i j : Nat} {admission : Admission} {bucket : Bucket}
    (other : j ≠ i) : (s.set now i admission bucket).requests j = s.requests j := if_neg other

end Throttle

/-! ### Reservations that stand -/

/-- The bucket is that of the standing reservations, among which is that of every
request that has not been answered. -/
structure Throttle.Balanced (lim : Limiter) (s : Throttle) (held : List (Held Nat)) : Prop where
  tracks : Tracks lim s.bucket s.clock held
  standing : (held.map fun h => (h.id, h.time)).reverse = s.standing
  past : ∀ h ∈ held, h.time ≤ s.clock
  reserved : ∀ i res, s.requests i = .reserved res →
    res.ok = true ∧ ∃ h ∈ held, h.id = i ∧ h.timeToAct = res.timeToAct
  rejecting : ∀ i res delay, s.requests i = .rejecting res delay →
    res.ok = true ∧ ∃ h ∈ held, h.id = i ∧ h.timeToAct = res.timeToAct ∧ h.Delayed
  logged : ∀ entry ∈ s.log, s.requests entry.1 ≠ .idle
  distinct : (s.log.map (·.1)).Nodup

namespace Throttle

variable {lim : Limiter} {s s' : Throttle} {a : ThrottleAct} {held : List (Held Nat)}
  {i : Nat} {now : ℚ}

theorem Balanced.init : (init lim).Balanced lim [] where
  tracks := .full
  standing := rfl
  past _ mem := nomatch mem
  reserved _ _ none := nomatch none
  rejecting _ _ _ none := nomatch none
  logged _ mem := nomatch mem
  distinct := .nil

/-- A request that is not rejected leaves the standing reservations as they are. -/
theorem standing_set {admission : Admission} {bucket : Bucket}
    (accepted : admission.isRejected = false) (was : (s.requests i).isRejected = false) :
    (s.set now i admission bucket).standing = s.standing := by
  refine List.filter_congr fun entry _ => ?_
  by_cases mine : entry.1 = i
  · rw [mine, requests_set_self, accepted, was]
  · rw [requests_set mine]

/-- A rejected request takes its reservation with it. -/
theorem standing_rejected {retryAfter : Int} {bucket : Bucket} :
    (s.set now i (.rejected retryAfter) bucket).standing = s.standing.filter (·.1 ≠ i) := by
  rw [standing, standing, List.filter_filter]
  refine List.filter_congr fun entry _ => ?_
  by_cases mine : entry.1 = i
  · rw [mine, requests_set_self]
    simp [Admission.isRejected]
  · rw [requests_set mine]
    simp [mine]

/-- What is left to show when request `i` takes a step. -/
theorem Balanced.update (balanced : s.Balanced lim held) {admission : Admission} {bucket : Bucket}
    {log : List (Nat × ℚ)} {held' : List (Held Nat)} (tracks : Tracks lim bucket now held')
    (standing : (held'.map fun h => (h.id, h.time)).reverse =
      ({ s.set now i admission bucket with log } : Throttle).standing)
    (past : ∀ h ∈ held', h.time ≤ now) (kept : ∀ h ∈ held, h.id ≠ i → h ∈ held')
    (reserved : ∀ res, admission = .reserved res →
      res.ok = true ∧ ∃ h ∈ held', h.id = i ∧ h.timeToAct = res.timeToAct)
    (rejecting : ∀ res delay, admission = .rejecting res delay →
      res.ok = true ∧ ∃ h ∈ held', h.id = i ∧ h.timeToAct = res.timeToAct ∧ h.Delayed)
    (busy : admission ≠ .idle) (logged : ∀ entry ∈ log, entry.1 = i ∨ entry ∈ s.log)
    (distinct : (log.map (·.1)).Nodup) :
    Balanced lim { s.set now i admission bucket with log } held' := by
  refine ⟨tracks, standing, past, ?_, ?_, ?_, distinct⟩
  · intro j res found
    by_cases mine : j = i
    · subst mine
      rw [requests_set_self] at found
      exact reserved res found
    · rw [requests_set mine] at found
      obtain ⟨ok, h, mem, rfl, same⟩ := balanced.reserved j res found
      exact ⟨ok, h, kept h mem mine, rfl, same⟩
  · intro j res delay found
    by_cases mine : j = i
    · subst mine
      rw [requests_set_self] at found
      exact rejecting res delay found
    · rw [requests_set mine] at found
      obtain ⟨ok, h, mem, rfl, same⟩ := balanced.rejecting j res delay found
      exact ⟨ok, h, kept h mem mine, rfl, same⟩
  · intro entry mem
    by_cases mine : entry.1 = i
    · rw [mine, requests_set_self]
      exact busy
    · rw [requests_set mine]
      exact balanced.logged entry ((logged entry mem).resolve_left mine)

/-- A reservation is added to those that stand. -/
theorem Balanced.reserves (balanced : s.Balanced lim held) (ample : 1 ≤ lim.burst)
    (after : s.clock ≤ now) (was : s.requests i = .idle) :
    Balanced lim { s.set now i (.reserved (lim.reserve s.bucket now).1)
      (lim.reserve s.bucket now).2 with
      log := s.log ++ [(i, now)] } (⟨i, now, (lim.reserve s.bucket now).1.timeToAct⟩ :: held) := by
  have unlogged : i ∉ s.log.map (·.1) := by
    intro mem
    obtain ⟨entry, logged, rfl⟩ := List.mem_map.mp mem
    exact balanced.logged entry logged was
  have others :
      (s.set now i (.reserved (lim.reserve s.bucket now).1) (lim.reserve s.bucket now).2).standing =
      s.standing := standing_set rfl (by rw [was]; rfl)
  refine balanced.update (balanced.tracks.reserve ample i after) ?_ ?_ ?_ ?_ nofun nofun ?_ ?_
  · rw [List.map_cons, List.reverse_cons, balanced.standing, ← others]
    simp [Throttle.standing, set, Admission.isRejected]
  · intro h mem
    rcases List.mem_cons.mp mem with rfl | mem
    · exact le_refl now
    · exact (balanced.past h mem).trans after
  · intro h mem other
    exact List.mem_cons_of_mem _ mem
  · rintro res ⟨⟩
    exact ⟨Limiter.reserve_ok ample, _, List.mem_cons_self, rfl, rfl⟩
  · intro entry mem
    rcases List.mem_append.mp mem with old | new
    · exact .inr old
    · exact .inl (List.mem_singleton.mp new ▸ rfl)
  · rw [List.map_append, List.map_singleton, ← List.concat_eq_append]
    exact balanced.distinct.concat unlogged

/-- Asking for the delay changes nothing but the request. -/
theorem Balanced.asks (balanced : s.Balanced lim held) (after : s.clock ≤ now) {res : Reservation}
    (was : s.requests i = .reserved res) {admission : Admission}
    (asked : admission = .admitted ∨ now < res.timeToAct ∧
      ∃ delay, admission = .rejecting res delay) :
    Balanced lim (s.set now i admission s.bucket) held := by
  have standing : (s.set now i admission s.bucket).standing = s.standing := by
    refine standing_set ?_ (by rw [was]; rfl)
    rcases asked with rfl | ⟨-, delay, rfl⟩ <;> rfl
  refine balanced.update (balanced.tracks.later after) (balanced.standing.trans standing.symm)
    (fun h mem => (balanced.past h mem).trans after) (fun h mem _ => mem) ?_ ?_ ?_ (fun _ => .inr)
    balanced.distinct
  · rintro res' rfl
    rcases asked with impossible | ⟨-, delay, impossible⟩ <;> cases impossible
  · rintro res' delay rfl
    rcases asked with impossible | ⟨waits, delay', same⟩
    · cases impossible
    · cases same
      obtain ⟨ok, h, mem, own, due⟩ := balanced.reserved i res was
      refine ⟨ok, h, mem, own, due, ?_⟩
      rw [Held.Delayed, due]
      exact lt_of_le_of_lt ((balanced.past h mem).trans after) waits
  · rintro rfl
    rcases asked with impossible | ⟨-, delay, impossible⟩ <;> cases impossible

/-- A reservation that is given back in turn leaves the others as they would be without it. -/
theorem Balanced.cancels (balanced : s.Balanced lim held) (ample : 1 ≤ lim.burst)
    (after : s.clock ≤ now) {res : Reservation} {delay : ℚ}
    (was : s.requests i = .rejecting res delay)
    (inTurn : now ≤ res.timeToAct ∧ s.bucket.lastEvent = res.timeToAct) (retryAfter : Int) :
    ∃ held', Balanced lim (s.set now i (.rejected retryAfter) (lim.cancelAt s.bucket res now))
      held' := by
  obtain ⟨ok, h, mem, own, due, delayed⟩ := balanced.rejecting i res delay was
  have same : res = ⟨true, h.timeToAct⟩ := by rw [due, ← ok]
  rw [← due] at inTurn
  obtain ⟨rest, rfl, tracks⟩ := balanced.tracks.cancel ample mem delayed after inTurn.1 inTurn.2
  rw [← same] at tracks
  -- nobody else has the id, so what is left standing is the rest of the stack
  have alone : ∀ entry ∈ (rest.map fun h => (h.id, h.time)).reverse, entry.1 ≠ i := by
    have nodup : (s.standing.map (·.1)).Nodup :=
      balanced.distinct.sublist ((List.filter_sublist (l := s.log)).map _)
    rw [← balanced.standing, List.map_cons, List.reverse_cons, List.map_append] at nodup
    intro entry mem same
    refine (List.nodup_append.mp nodup).2.2 entry.1 (List.mem_map_of_mem mem) h.id ?_
      (same.trans own.symm)
    exact List.mem_cons_self
  refine ⟨rest, balanced.update tracks ?_ ?_ ?_ nofun nofun nofun (fun _ => .inr) balanced.distinct⟩
  · have left : (s.set now i (.rejected retryAfter) (lim.cancelAt s.bucket res now)).standing =
        s.standing.filter (·.1 ≠ i) := standing_rejected
    have others : (rest.map fun h => (h.id, h.time)).reverse.filter (·.1 ≠ i) =
        (rest.map fun h => (h.id, h.time)).reverse :=
      List.filter_eq_self.mpr fun entry mem => decide_eq_true (alone entry mem)
    refine Eq.trans ?_ left.symm
    rw [← balanced.standing, List.map_cons, List.reverse_cons, List.filter_append, others]
    simp [own]
  · intro h' mem'
    exact (balanced.past h' (List.mem_cons_of_mem _ mem')).trans after
  · intro h' mem' other
    rcases List.mem_cons.mp mem' with rfl | mem'
    · exact absurd own other
    · exact mem'

/-- One step in turn. -/
theorem Balanced.step (balanced : s.Balanced lim held) (ample : 1 ≤ lim.burst) (inTurn : s.InTurn a)
    (stepped : s.step lim a = some s') : ∃ held', s'.Balanced lim held' := by
  obtain ⟨after, move⟩ := step_move stepped
  cases move with
  | failsOpen i now was refused =>
    rw [Limiter.reserve_ok ample] at refused
    cases refused
  | reserves i now was => exact ⟨_, balanced.reserves ample after was⟩
  | rejects i now res was waits => exact ⟨held, balanced.asks after was (.inr ⟨waits, _, rfl⟩)⟩
  | admits i now res was => exact ⟨held, balanced.asks after was (.inl rfl)⟩
  | cancels i now res delay was =>
    simp only [InTurn, was] at inTurn
    exact balanced.cancels ample after was inTurn _

/-- The bucket is that of the standing reservations, whatever they are. -/
def Even (lim : Limiter) (s : Throttle) : Prop := ∃ held, s.Balanced lim held

theorem Even.init : (init lim).Even lim := ⟨[], .init⟩

theorem Even.step (even : s.Even lim) (ample : 1 ≤ lim.burst) (inTurn : s.InTurn a)
    (stepped : s.step lim a = some s') : s'.Even lim := by
  obtain ⟨held, balanced⟩ := even
  exact balanced.step ample inTurn stepped

/-- In a run where every cancellation is in turn, the bucket is that of the standing reservations.
-/
theorem runs_even (ample : 1 ≤ lim.burst) {acts : List ThrottleAct}
    (inTurn : Txn.Respects (step lim) InTurn (init lim) acts)
    (ran : Txn.runs (step lim) (init lim) acts = some s) : s.Even lim :=
  Txn.runs_respecting (fun inTurn (even : Even lim _) stepped => even.step ample inTurn stepped)
    inTurn
    Even.init ran

/-- When everybody has been answered, the standing reservations are those of the
requests that were let through. -/
theorem AllAnswered.standing (answered : s.AllAnswered) : s.standing.map (·.2) = s.admissions := by
  refine congrArg (List.map _) (List.filter_congr fun entry mem => ?_)
  rcases answered entry mem with admitted | rejected
  · simp [admitted, Admission.isRejected]
  · cases status : s.requests entry.1 with
    | rejected retryAfter => rfl
    | _ =>
      rw [status] at rejected
      cases rejected

/-- The bucket is that of the standing reservations. -/
theorem Balanced.level (balanced : s.Balanced lim held) {now : ℚ} (after : s.clock ≤ now) :
    lim.advance s.bucket now = lim.advance (lim.replay (s.standing.map (·.2))) now := by
  obtain ⟨p, stacked, -, level⟩ := balanced.tracks.stacked
  rw [level now after, ← balanced.standing, List.map_reverse, List.map_map]
  exact congrArg (lim.advance · now) stacked.replay.symm

/-- A cancellation gives its token back exactly when it is in turn. -/
theorem Balanced.inTurn_iff (balanced : s.Balanced lim held) (ample : 1 ≤ lim.burst)
    {i : Nat} {now : ℚ} (stepped : s.step lim (.cancel i now) = some s') :
    s.InTurn (.cancel i now) ↔ lim.advance s'.bucket now = lim.advance s.bucket now + 1 := by
  obtain ⟨after, move⟩ := step_move stepped
  cases move with
  | cancels _ _ res delay was =>
    obtain ⟨ok, h, mem, own, due, delayed⟩ := balanced.rejecting i res delay was
    have same : res = ⟨true, h.timeToAct⟩ := by rw [due, ← ok]
    simp only [InTurn, was]
    rw [same]
    constructor
    · rintro ⟨inTime, lastEvent⟩
      exact balanced.tracks.cancel_effective ample mem delayed after inTime lastEvent
    · intro restored
      by_contra off
      have nothing : lim.cancelAt s.bucket ⟨true, h.timeToAct⟩ now = s.bucket :=
        balanced.tracks.cancel_ineffective ample mem delayed after off
      change lim.advance (lim.cancelAt s.bucket _ now) now = _ at restored
      rw [nothing] at restored
      linarith

end Throttle

/-- As long as every cancellation is in turn, rejected requests leave no trace: when all
requests that have reserved have been answered, the bucket is at every later time at the
level it would be at if only those that were let through had reserved, and the next
request gets the same reservation. A cancellation that is in turn gives one token
back, and one that is not gives nothing. -/
theorem rejected_leave_no_trace (lim : Limiter) (ample : 1 ≤ lim.burst) {acts : List ThrottleAct}
    {s : Throttle} (inTurn : Txn.Respects (Throttle.step lim) Throttle.InTurn (.init lim) acts)
    (ran : Txn.runs (Throttle.step lim) (.init lim) acts = some s) :
    (∀ i now s', s.step lim (.cancel i now) = some s' →
      (s.InTurn (.cancel i now) ↔ lim.advance s'.bucket now = lim.advance s.bucket now + 1)) ∧
    (s.AllAnswered → ∀ now ≥ s.clock,
      lim.advance s.bucket now = lim.advance (lim.replay s.admissions) now ∧
      (lim.reserve s.bucket now).1 = (lim.reserve (lim.replay s.admissions) now).1) := by
  obtain ⟨held, balanced⟩ := Throttle.runs_even ample inTurn ran
  refine ⟨fun i now s' stepped => balanced.inTurn_iff ample stepped, fun answered now after => ?_⟩
  have level := balanced.level after
  rw [answered.standing] at level
  exact ⟨level, Limiter.reserve_fst_congr level⟩

namespace Overlapping

def lim : Limiter := ⟨1, 1, one_pos⟩

/-- Three requests at one instant. The first takes the token and the others are told to
wait; they cancel in the given order. -/
def acts (first second : Nat) : List ThrottleAct :=
  [.reserve 0 0, .delay 0 0, .reserve 1 0, .reserve 2 0, .delay 1 0, .delay 2 0,
    .cancel first 0, .cancel second 0]

end Overlapping

open Overlapping in
/-- Two requests are rejected and give back in reverse order, and the bucket forgets them. -/
theorem rejected_leave_no_trace_reversed :
    ∃ s, Txn.runs (Throttle.step lim) (.init lim) (acts 2 1) = some s ∧
      (s.requests 0, s.requests 1, s.requests 2) = (.admitted, .rejected 2, .rejected 3) ∧
      (lim.reserve s.bucket 1).1 = (lim.reserve (lim.replay s.admissions) 1).1 := by
  have reached : ((Txn.runs (Throttle.step lim) (.init lim) (acts 2 1)).map fun s =>
      ((s.requests 0, s.requests 1, s.requests 2), s.clock, s.log)) =
      some ((.admitted, .rejected 2, .rejected 3), 0, [(0, 0), (1, 0), (2, 0)]) := by decide +kernel
  obtain ⟨s, ran, same⟩ := Option.map_eq_some_iff.mp reached
  injection same with requests rest
  injection rest with clock log
  have answered : s.AllAnswered := by
    injection requests with first rest
    injection rest with second third
    simp [Throttle.AllAnswered, log, first, second, third, Admission.isRejected]
  have inTurn : Txn.Respects (Throttle.step lim) Throttle.InTurn (.init lim) (acts 2 1) := by
    decide +kernel
  have later : (1 : ℚ) ≥ s.clock := by
    rw [clock]
    exact zero_le_one
  exact ⟨s, ran, requests,
    ((rejected_leave_no_trace lim (Nat.le_refl 1) inTurn ran).2 answered 1 later).2⟩

open Overlapping in
/-- If the two rejected requests cancel in the order they reserved, a token is lost: a
second later a request is told to wait that would be let through without them. -/
theorem token_lost :
    ∃ s, Txn.runs (Throttle.step lim) (.init lim) (acts 1 2) = some s ∧
      (s.requests 0, s.requests 1, s.requests 2) = (.admitted, .rejected 2, .rejected 3) ∧
      (lim.reserve s.bucket 1).1.delayFrom 1 = 1 ∧
      (lim.reserve (lim.replay s.admissions) 1).1.delayFrom 1 = 0 := by
  have reached : ((Txn.runs (Throttle.step lim) (.init lim) (acts 1 2)).map fun s =>
      ((s.requests 0, s.requests 1, s.requests 2), (lim.reserve s.bucket 1).1.delayFrom 1,
        (lim.reserve (lim.replay s.admissions) 1).1.delayFrom 1)) =
      some ((.admitted, .rejected 2, .rejected 3), 1, 0) := by decide +kernel
  obtain ⟨s, ran, same⟩ := Option.map_eq_some_iff.mp reached
  injection same with requests rest
  injection rest with delayed admitted
  exact ⟨s, ran, requests, delayed, admitted⟩

end WalletGo
