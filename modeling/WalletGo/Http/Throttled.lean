import WalletGo.Http.RateLimit

/-!
What the rate limiter lets through, whatever order its calls come in.

The reservations that have not been given back form a stack (`Throttle.Backed`): those of
the requests that were let through, of those that are still waiting for their answer, and
of those whose cancellation came too late or out of turn. Hence

* `Throttle.runs_admitted`: of the requests that reserved since a moment, a burst and what
  has flowed in since are let through at most;
* `retry_after_honoured`: a rejected client whose cancellation was in turn, and that is the
  next to come, is let through after the time it was told.
-/

namespace WalletGo

open Rate

/-- The bucket is that of reservations among which are those of every request that was not
rejected. -/
structure Throttle.Backed (lim : Limiter) (s : Throttle) (held : List (Held Nat)) : Prop where
  tracks : Tracks lim s.bucket s.clock held
  recorded : (held.map fun h => (h.id, h.time)).Sublist s.log.reverse
  past : ∀ h ∈ held, h.time ≤ s.clock
  standing : ∀ entry ∈ s.log, (s.requests entry.1).isRejected = false →
    ∃ h ∈ held, h.id = entry.1 ∧ h.time = entry.2
  reserved : ∀ i res, s.requests i = .reserved res →
    res.ok = true ∧ ∃ h ∈ held, h.id = i ∧ h.timeToAct = res.timeToAct
  rejecting : ∀ i res delay, s.requests i = .rejecting res delay →
    res.ok = true ∧ ∃ h ∈ held, h.id = i ∧ h.timeToAct = res.timeToAct ∧ h.Delayed
  admitted : ∀ h ∈ held, s.requests h.id = .admitted → h.timeToAct ≤ s.clock
  logged : ∀ entry ∈ s.log, s.requests entry.1 ≠ .idle
  distinct : (s.log.map (·.1)).Nodup

namespace Throttle

variable {lim : Limiter} {s s' : Throttle} {a : ThrottleAct} {held : List (Held Nat)}
  {i : Nat} {now : ℚ}

theorem Backed.init : (init lim).Backed lim [] where
  tracks := .full
  recorded := .slnil
  past _ mem := nomatch mem
  standing _ mem := nomatch mem
  reserved _ _ none := nomatch none
  rejecting _ _ _ none := nomatch none
  admitted _ mem := nomatch mem
  logged _ mem := nomatch mem
  distinct := .nil

/-- Nobody has reserved twice. -/
theorem Backed.same (backed : s.Backed lim held) {h k : Held Nat} (mem : h ∈ held) (mem' : k ∈ held)
    (sameID : h.id = k.id) : h = k := by
  have ids : (held.map (·.id)).Nodup := by
    have distinct : (s.log.reverse.map (·.1)).Nodup := by
      rw [List.map_reverse]
      exact List.nodup_reverse.mpr backed.distinct
    have whole := distinct.sublist (backed.recorded.map (·.1))
    rwa [List.map_map] at whole
  exact List.inj_on_of_nodup_map ids mem mem' sameID

/-- What is left to show when request `i` takes a step. -/
theorem Backed.update (backed : s.Backed lim held) (after : s.clock ≤ now) {admission : Admission}
    {bucket : Bucket} {log : List (Nat × ℚ)} {held' : List (Held Nat)}
    (tracks : Tracks lim bucket now held')
    (recorded : (held'.map fun h => (h.id, h.time)).Sublist log.reverse)
    (past : ∀ h ∈ held', h.time ≤ now) (others : ∀ h, h.id ≠ i → (h ∈ held' ↔ h ∈ held))
    (standing : ∀ time, (i, time) ∈ log → admission.isRejected = false →
      ∃ h ∈ held', h.id = i ∧ h.time = time) (reserved : ∀ res, admission = .reserved res →
      res.ok = true ∧ ∃ h ∈ held', h.id = i ∧ h.timeToAct = res.timeToAct)
    (rejecting : ∀ res delay, admission = .rejecting res delay →
      res.ok = true ∧ ∃ h ∈ held', h.id = i ∧ h.timeToAct = res.timeToAct ∧ h.Delayed)
    (admitted : admission = .admitted → ∀ h ∈ held', h.id = i → h.timeToAct ≤ now)
    (busy : admission ≠ .idle) (logged : ∀ entry ∈ log, entry.1 = i ∨ entry ∈ s.log)
    (distinct : (log.map (·.1)).Nodup) :
    Backed lim { s.set now i admission bucket with log } held' := by
  refine ⟨tracks, recorded, past, ?_, ?_, ?_, ?_, ?_, distinct⟩
  · rintro ⟨j, time⟩ mem open'
    by_cases mine : j = i
    · subst mine
      rw [requests_set_self] at open'
      exact standing time mem open'
    · rw [requests_set mine] at open'
      obtain ⟨h, found, rfl, made⟩ :=
        backed.standing (j, time) ((logged _ mem).resolve_left mine) open'
      exact ⟨h, (others h mine).mpr found, rfl, made⟩
  · intro j res found
    by_cases mine : j = i
    · subst mine
      rw [requests_set_self] at found
      exact reserved res found
    · rw [requests_set mine] at found
      obtain ⟨ok, h, mem, rfl, same⟩ := backed.reserved j res found
      exact ⟨ok, h, (others h mine).mpr mem, rfl, same⟩
  · intro j res delay found
    by_cases mine : j = i
    · subst mine
      rw [requests_set_self] at found
      exact rejecting res delay found
    · rw [requests_set mine] at found
      obtain ⟨ok, h, mem, rfl, same⟩ := backed.rejecting j res delay found
      exact ⟨ok, h, (others h mine).mpr mem, rfl, same⟩
  · intro h mem found
    by_cases mine : h.id = i
    · rw [mine, requests_set_self] at found
      exact admitted found h mem mine
    · rw [requests_set mine] at found
      exact (backed.admitted h ((others h mine).mp mem) found).trans after
  · intro entry mem
    by_cases mine : entry.1 = i
    · rw [mine, requests_set_self]
      exact busy
    · rw [requests_set mine]
      exact backed.logged entry ((logged entry mem).resolve_left mine)

/-- A reservation is added to those behind the bucket. -/
theorem Backed.reserves (backed : s.Backed lim held) (ample : 1 ≤ lim.burst) (after : s.clock ≤ now)
    (was : s.requests i = .idle) :
    Backed lim { s.set now i (.reserved (lim.reserve s.bucket now).1)
      (lim.reserve s.bucket now).2 with
      log := s.log ++ [(i, now)] } (⟨i, now, (lim.reserve s.bucket now).1.timeToAct⟩ :: held) := by
  have unlogged : ∀ time, (i, time) ∉ s.log := fun time mem => backed.logged _ mem was
  refine backed.update after (backed.tracks.reserve ample i after) ?_ ?_ ?_ ?_ ?_ nofun
    nofun nofun ?_ ?_
  · rw [List.reverse_append]
    exact backed.recorded.cons_cons _
  · intro h mem
    rcases List.mem_cons.mp mem with rfl | mem
    · exact le_refl now
    · exact (backed.past h mem).trans after
  · intro h other
    refine ⟨fun mem => (List.mem_cons.mp mem).resolve_left ?_, List.mem_cons_of_mem _⟩
    rintro rfl
    exact other rfl
  · intro time mem _
    rcases List.mem_append.mp mem with old | new
    · exact absurd old (unlogged time)
    · cases List.mem_singleton.mp new
      exact ⟨_, List.mem_cons_self, rfl, rfl⟩
  · rintro res ⟨⟩
    exact ⟨Limiter.reserve_ok ample, _, List.mem_cons_self, rfl, rfl⟩
  · intro entry mem
    rcases List.mem_append.mp mem with old | new
    · exact .inr old
    · exact .inl (List.mem_singleton.mp new ▸ rfl)
  · rw [List.map_append, List.map_singleton, ← List.concat_eq_append]
    refine backed.distinct.concat fun mem => ?_
    obtain ⟨⟨_, time⟩, logged, rfl⟩ := List.mem_map.mp mem
    exact unlogged time logged

/-- Asking for the delay changes nothing but the request. -/
theorem Backed.asks (backed : s.Backed lim held) (after : s.clock ≤ now) {res : Reservation}
    (was : s.requests i = .reserved res) {admission : Admission}
    (asked : admission = .admitted ∧ res.timeToAct ≤ now ∨
      now < res.timeToAct ∧ ∃ delay, admission = .rejecting res delay) :
    Backed lim (s.set now i admission s.bucket) held := by
  obtain ⟨ok, h, mem, own, due⟩ := backed.reserved i res was
  refine backed.update after (backed.tracks.later after) backed.recorded
    (fun h mem => (backed.past h mem).trans after) (fun _ _ => Iff.rfl) ?_ ?_ ?_ ?_ ?_
    (fun _ => .inr) backed.distinct
  · intro time logged _
    exact backed.standing (i, time) logged (by rw [was]; rfl)
  · rintro res' rfl
    rcases asked with ⟨impossible, -⟩ | ⟨-, delay, impossible⟩ <;> cases impossible
  · rintro res' delay rfl
    rcases asked with ⟨impossible, -⟩ | ⟨waits, delay', same⟩
    · cases impossible
    · cases same
      refine ⟨ok, h, mem, own, due, ?_⟩
      rw [Held.Delayed, due]
      exact lt_of_le_of_lt ((backed.past h mem).trans after) waits
  · rintro rfl k mem' own'
    rcases asked with ⟨-, inTime⟩ | ⟨-, delay, impossible⟩
    · rw [backed.same mem' mem (own'.trans own.symm), due]
      exact inTime
    · cases impossible
  · rintro rfl
    rcases asked with ⟨impossible, -⟩ | ⟨-, delay, impossible⟩ <;> cases impossible

/-- A cancellation takes the top off the stack, or leaves it as it is. -/
theorem Backed.cancels (backed : s.Backed lim held) (ample : 1 ≤ lim.burst) (after : s.clock ≤ now)
    {res : Reservation} {delay : ℚ} (was : s.requests i = .rejecting res delay) (retryAfter : Int) :
    ∃ held', Backed lim (s.set now i (.rejected retryAfter) (lim.cancelAt s.bucket res now))
      held' := by
  obtain ⟨ok, h, mem, own, due, delayed⟩ := backed.rejecting i res delay was
  have same : res = ⟨true, h.timeToAct⟩ := by rw [due, ← ok]
  by_cases inTurn : now ≤ h.timeToAct ∧ s.bucket.lastEvent = h.timeToAct
  · obtain ⟨rest, rfl, tracks⟩ := backed.tracks.cancel ample mem delayed after inTurn.1 inTurn.2
    rw [← same] at tracks
    refine ⟨rest, backed.update after tracks ?_ ?_ ?_ nofun nofun nofun nofun nofun (fun _ => .inr)
      backed.distinct⟩
    · exact (List.sublist_cons_self _ _).trans backed.recorded
    · exact fun k mem' => (backed.past k (List.mem_cons_of_mem _ mem')).trans after
    · intro k other
      refine ⟨List.mem_cons_of_mem _, fun mem' => (List.mem_cons.mp mem').resolve_left ?_⟩
      rintro rfl
      exact other own
  · have nothing : lim.cancelAt s.bucket res now = s.bucket := by
      rw [same]
      exact backed.tracks.cancel_ineffective ample mem delayed after inTurn
    rw [nothing]
    exact ⟨held, backed.update after (backed.tracks.later after) backed.recorded
      (fun h mem => (backed.past h mem).trans after) (fun _ _ => Iff.rfl) nofun nofun
      nofun nofun nofun
      (fun _ => .inr) backed.distinct⟩

/-- A request is let through when its reservation has come due. -/
theorem step_admitted {res : Reservation} (was : s.requests i = .reserved res)
    (stepped : s.step lim (.delay i now) = some s') (admitted : s'.requests i = .admitted) :
    res.timeToAct ≤ now := by
  unfold step at stepped
  split at stepped
  · cases stepped
  · simp only [act, was] at stepped
    split at stepped
    · cases stepped
      rw [requests_set_self] at admitted
      cases admitted
    · next immediate =>
      exact sub_nonpos.mp ((le_max_right _ _).trans (not_lt.mp immediate))

/-- One step, in any order of the cancellations. -/
theorem Backed.step (backed : s.Backed lim held) (ample : 1 ≤ lim.burst)
    (stepped : s.step lim a = some s') : ∃ held', s'.Backed lim held' := by
  obtain ⟨after, move⟩ := step_move stepped
  cases move with
  | failsOpen i now was refused =>
    rw [Limiter.reserve_ok ample] at refused
    cases refused
  | reserves i now was => exact ⟨_, backed.reserves ample after was⟩
  | rejects i now res was waits => exact ⟨held, backed.asks after was (.inr ⟨waits, _, rfl⟩)⟩
  | admits i now res was =>
    exact ⟨held,
      backed.asks after was (.inl ⟨rfl, step_admitted was stepped (requests_set_self ..)⟩)⟩
  | cancels i now res delay was => exact backed.cancels ample after was _

/-- After any run the bucket is that of reservations among which are all that were not rejected. -/
theorem runs_backed (ample : 1 ≤ lim.burst) {acts : List ThrottleAct}
    (ran : Txn.runs (step lim) (init lim) acts = some s) : ∃ held, s.Backed lim held :=
  Txn.runs_invariant (fun s : Throttle => ∃ held, s.Backed lim held)
    (fun ⟨_, backed⟩ stepped => backed.step ample stepped) ⟨[], .init⟩ ran

/-- The delay a request was told was not too short when it asked. -/
theorem runs_told {acts : List ThrottleAct} (ran : Txn.runs (step lim) (init lim) acts = some s)
    {res : Reservation} {delay : ℚ} (was : s.requests i = .rejecting res delay) :
    res.timeToAct ≤ s.clock + delay := by
  refine Txn.runs_invariant (fun s : Throttle => ∀ i res delay, s.requests i =
    .rejecting res delay →
    res.timeToAct ≤ s.clock + delay) ?_ (by rintro i res delay ⟨⟩) ran i res delay was
  intro s s' a known stepped i res delay was
  obtain ⟨after, move⟩ := step_move stepped
  have others : ∀ {j : Nat}, i ≠ j → s.requests i = .rejecting res delay →
      res.timeToAct ≤ a.time + delay := by
    intro j other same
    have before := known i res delay same
    linarith
  cases move with
  | rejects j now res' was' waits =>
    by_cases mine : i = j
    · subst mine
      rw [requests_set_self] at was
      cases was
      have delayed := le_max_right 0 (res.timeToAct - now)
      change res.timeToAct ≤ now + max 0 (res.timeToAct - now)
      linarith
    · exact others mine ((requests_set mine).symm.trans was)
  | failsOpen j now was' refused =>
    by_cases mine : i = j
    · subst mine
      rw [requests_set_self] at was
      cases was
    · exact others mine ((requests_set mine).symm.trans was)
  | reserves j now was' =>
    by_cases mine : i = j
    · subst mine
      cases (if_pos rfl).symm.trans was
    · exact others mine ((if_neg mine).symm.trans was)
  | admits j now res' was' =>
    by_cases mine : i = j
    · subst mine
      rw [requests_set_self] at was
      cases was
    · exact others mine ((requests_set mine).symm.trans was)
  | cancels j now res' delay' was' =>
    by_cases mine : i = j
    · subst mine
      rw [requests_set_self] at was
      cases was
    · exact others mine ((requests_set mine).symm.trans was)

end Throttle

/-- Asking and giving back, but no reservation. -/
def ThrottleAct.isReserve : ThrottleAct → Bool
  | .reserve .. => true
  | _ => false

namespace Throttle

variable {lim : Limiter} {s s' : Throttle} {i : Nat} {now : ℚ}

/-- Once a token is there, it stays until somebody reserves. -/
theorem runs_kept (ample : 1 ≤ lim.burst) {acts more : List ThrottleAct} {due : ℚ}
    (ran : Txn.runs (step lim) (init lim) acts = some s)
    (enough : ∀ t, s.clock ≤ t → due ≤ t → 1 ≤ lim.advance s.bucket t)
    (ran' : Txn.runs (step lim) s more = some s') (alone : ∀ a ∈ more, a.isReserve = false) :
    ∀ t, s'.clock ≤ t → due ≤ t → 1 ≤ lim.advance s'.bucket t := by
  refine (Txn.runs_admissible (fun a => ThrottleAct.isReserve a = false)
    (fun s : Throttle => (∃ held, s.Backed lim held) ∧
      ∀ t, s.clock ≤ t → due ≤ t → 1 ≤ lim.advance s.bucket t) ?_
    alone ⟨runs_backed ample ran, enough⟩ ran').2
  rintro s s' a other ⟨⟨held, backed⟩, enough⟩ stepped
  refine ⟨backed.step ample stepped, fun t later reached => ?_⟩
  obtain ⟨after, move⟩ := step_move stepped
  cases move with
  | failsOpen j now was refused => cases other
  | reserves j now was => cases other
  | rejects j now res was waits => exact enough t (after.trans later) reached
  | admits j now res was => exact enough t (after.trans later) reached
  | cancels j now res delay was =>
    have before := enough t (after.trans later) reached
    exact before.trans (Limiter.advance_le_cancelAt res (backed.tracks.last.trans after) later)

/-- A request is let through where there is a token. -/
theorem admitted_of_token (ample : 1 ≤ lim.burst) (idle : s.requests i = .idle)
    (after : s.clock ≤ now) (enough : 1 ≤ lim.advance s.bucket now) :
    ∃ s', Txn.runs (step lim) s [.reserve i now, .delay i now] = some s' ∧
      s'.requests i = .admitted := by
  have immediate : (lim.reserve s.bucket now).1.delayFrom now = 0 := by
    have due : ¬ now < (lim.reserve s.bucket now).1.timeToAct := by
      rw [Limiter.timeToAct_delayed ample]
      exact not_lt.mpr enough
    exact max_eq_left (sub_nonpos.mpr (not_lt.mp due))
  let m : Throttle :=
    { s.set now i (.reserved (lim.reserve s.bucket now).1) (lim.reserve s.bucket now).2 with
    log := s.log ++ [(i, now)] }
  have reserved : s.step lim (.reserve i now) = some m := by
    have inTime : ¬ (ThrottleAct.reserve i now).time < s.clock := not_lt.mpr after
    rw [step, if_neg inTime]
    simp [act, idle, Limiter.reserve_ok ample, m]
  have asked : m.step lim (.delay i now) = some (m.set now i .admitted m.bucket) := by
    have inTime : ¬ (ThrottleAct.delay i now).time < m.clock := lt_irrefl now
    rw [step, if_neg inTime]
    simp only [act, show m.requests i = .reserved (lim.reserve s.bucket now).1 from if_pos rfl,
      immediate, lt_irrefl, if_false]
  exact ⟨_, Txn.runs_cons_iff.mpr ⟨m, reserved, Txn.runs_cons_iff.mpr ⟨_, asked, rfl⟩⟩,
    requests_set_self ..⟩

end Throttle

/-- A request that was told to wait, and whose cancellation was in turn, did not have to
wait longer than it was told: from then on a request is let through, whoever else gives
back a reservation meanwhile, as long as nobody makes one. -/
theorem retry_after_honoured (lim : Limiter) (ample : 1 ≤ lim.burst) {acts more : List ThrottleAct}
    {s s' s'' : Throttle} {i j n : Nat} {now t : ℚ}
    (ran : Txn.runs (Throttle.step lim) (.init lim) acts = some s)
    (inTurn : s.InTurn (.cancel i now)) (stepped : s.step lim (.cancel i now) = some s')
    (told : s'.requests i = .rejected n) (ran' : Txn.runs (Throttle.step lim) s' more = some s'')
    (alone : ∀ a ∈ more, a.isReserve = false) (idle : s''.requests j = .idle)
    (later : s''.clock ≤ t) (waited : now + n ≤ t) :
    ∃ last, Txn.runs (Throttle.step lim) s'' [.reserve j t, .delay j t] = some last ∧
      last.requests j = .admitted := by
  obtain ⟨held, backed⟩ := Throttle.runs_backed ample ran
  have positive := lim.positive
  obtain ⟨after, move⟩ := Throttle.step_move stepped
  have after : s.clock ≤ now := after
  cases move with
  | cancels _ _ res delay was =>
    obtain ⟨ok, h, mem, own, due, delayed⟩ := backed.rejecting i res delay was
    have same : res = ⟨true, h.timeToAct⟩ := by rw [due, ← ok]
    simp only [Throttle.InTurn, was, ← due] at inTurn
    -- what the cancellation leaves is a token at the time that was reserved for
    have back :
        ∀ t, now ≤ t → h.timeToAct ≤ t → 1 ≤ lim.advance (lim.cancelAt s.bucket res now) t := by
      intro t sinceNow reached
      have level := backed.tracks.level_top ample mem delayed after inTurn.1 inTurn.2
      have restored := backed.tracks.cancel_effective ample mem delayed after inTurn.1 inTurn.2
      rw [← same, level] at restored
      have last : (lim.cancelAt s.bucket res now).last ≤ now := by
        rw [same, Limiter.cancelAt_last inTurn.1 inTurn.2]
      have one : (1 : ℚ) ≤ lim.burst := by exact_mod_cast ample
      have gained := mul_nonneg positive.le (sub_nonneg.mpr reached)
      rw [← Limiter.advance_advance last sinceNow, restored]
      exact le_min (by linarith) one
    have whole : Txn.runs (Throttle.step lim) (.init lim) (acts ++ [.cancel i now]) =
        some (s.set now i (.rejected (delay.floor + 1)) (lim.cancelAt s.bucket res now)) :=
      Txn.runs_append_iff.mpr ⟨s, ran, Txn.runs_cons_iff.mpr ⟨_, stepped, rfl⟩⟩
    have enough := Throttle.runs_kept ample whole back ran' alone
    refine Throttle.admitted_of_token ample idle later (enough t later ?_)
    rw [Throttle.requests_set_self] at told
    injection told with seconds
    have short : delay < ((delay.floor + 1 : Int) : ℚ) := Rat.lt_floor_add_one delay
    rw [seconds, Int.cast_natCast] at short
    have asked := Throttle.runs_told ran was
    rw [← due] at asked
    linarith

open Overlapping in
/-- The request comes back after its two seconds and is let through. -/
theorem retry_after_honoured_reversed :
    ∃ s last, Txn.runs (Throttle.step lim) (.init lim) (acts 2 1) = some s ∧
      s.requests 1 = .rejected 2 ∧
      Txn.runs (Throttle.step lim) s [.reserve 3 2, .delay 3 2] = some last ∧
        last.requests 3 = .admitted := by
  have reached : ((Txn.runs (Throttle.step lim) (.init lim) ((acts 2 1).take 7)).bind fun s =>
      (s.step lim (.cancel 1 0)).map fun s' =>
        (decide (s.InTurn (.cancel 1 0)), s'.requests 1, s'.requests 3, s'.clock)) =
      some (true, .rejected 2, .idle, 0) := by decide +kernel
  obtain ⟨s, ran, reached⟩ := Option.bind_eq_some_iff.mp reached
  obtain ⟨s', stepped, observed⟩ := Option.map_eq_some_iff.mp reached
  injection observed with inTurn observed
  injection observed with told observed
  injection observed with idle clock
  have later : s'.clock ≤ 2 := by
    rw [clock]
    exact zero_le_two
  have still : Txn.runs (Throttle.step lim) s' [] = some s' := rfl
  obtain ⟨last, through, admitted⟩ := retry_after_honoured lim (Nat.le_refl 1) (n := 2) ran
    (of_decide_eq_true inTurn) stepped told still (by rintro a ⟨⟩) idle later (by norm_num)
  exact ⟨s', last, Txn.runs_append_iff.mpr ⟨s, ran, Txn.runs_cons_iff.mpr ⟨s', stepped, rfl⟩⟩, told,
    through, admitted⟩

end WalletGo
