import Mathlib.Data.List.Induction
import WalletGo.Txn.System

/-!
Runs in which every operation takes effect at one moment.

A run of a concurrent system is linear when the operations it serves can be placed at its
acts, each at an act of its own, so that what is seen of the state changes as if they were
served there one after the other (`Linear`). An operation that changes nothing may be
placed at any earlier act at which it could have been served (`Linear.insert`).
-/

namespace Txn

universe u v

variable {State : Type u} {Act : Type v} {View Event : Type*} (step : State → Act → Option State)

/-- The run of `acts` from `s` makes `a` in state `v`. -/
def Passes (s : State) (acts : List Act) (v : State) (a : Act) : Prop :=
  ∃ before after, acts = before ++ a :: after ∧ runs step s before = some v

/-- The events happen one after the other. -/
inductive Atomic (takes : View → Event → View → Prop) : View → List Event → View → Prop where
  | nil (v : View) : Atomic takes v [] v
  | cons {v m v' : View} {e : Event} {events : List Event} (first : takes v e m)
      (rest : Atomic takes m events v') :
      Atomic takes v (e :: events) v'

/-- The run of `acts` from `s` to `t`, with the events that happen at each act. -/
inductive Linear (view : State → View) (takes : View → Event → View → Prop)
    (owns : Act → Event → Prop) : State → List Act → List (List Event) → State → Prop where
  | nil (s : State) : Linear view takes owns s [] [] s
  | cons {s m t : State} {a : Act} {acts : List Act} {events : List Event}
      {points : List (List Event)}
      (stepped : step s a = some m) (own : ∀ e ∈ events, owns a e)
      (atomic : Atomic takes (view s) events (view m))
      (rest : Linear view takes owns m acts points t) :
      Linear view takes owns s (a :: acts) (events :: points) t

variable {step} {s t m v : State} {a : Act} {acts : List Act}

theorem Passes.append (passes : Passes step s acts v a) (more : List Act) :
    Passes step s (acts ++ more) v a := by
  obtain ⟨before, after, rfl, ran⟩ := passes
  exact ⟨before, after ++ more, by simp, ran⟩

/-- A run passes where the rest of it does. -/
theorem Passes.cons {b : Act} (stepped : step s b = some m) (passes : Passes step m acts v a) :
    Passes step s (b :: acts) v a := by
  obtain ⟨before, after, rfl, ran⟩ := passes
  exact ⟨b :: before, after, rfl, runs_cons_iff.mpr ⟨m, stepped, ran⟩⟩

theorem passes_last (ran : runs step s acts = some v) (a : Act) : Passes step s (acts ++ [a]) v a :=
  ⟨acts, [], rfl, ran⟩

/-- A side condition that is respected holds wherever the run passes. -/
theorem Respects.passes {cond : State → Act → Prop} (respects : Respects step cond s acts)
    (passes : Passes step s acts v a) : cond v a := by
  obtain ⟨before, after, rfl, ran⟩ := passes
  induction before generalizing s with
  | nil =>
    cases ran
    exact respects.1
  | cons b before ih =>
    obtain ⟨m, stepped, ran⟩ := runs_cons_iff.mp ran
    exact ih ran (respects.2 m stepped)

/-- What holds of the empty run, and is kept by one more act that meets a condition, holds
of every run whose acts all meet it. -/
theorem runs_growing (cond : State → Act → Prop) {P : List Act → State → Prop} (initially : P [] s)
    (preserved : ∀ {before v a m}, cond v a → runs step s before = some v → P before v →
      step v a = some m → P (before ++ [a]) m)
    (met : ∀ {v a}, Passes step s acts v a → cond v a) (ran : runs step s acts = some t) :
    P acts t := by
  induction acts using List.reverseRecOn generalizing t with
  | nil =>
    cases ran
    exact initially
  | append_singleton before a ih =>
    obtain ⟨v, ranBefore, last⟩ := runs_append_iff.mp ran
    obtain ⟨m, stepped, done⟩ := runs_cons_iff.mp last
    cases done
    exact preserved (met (passes_last ranBefore a)) ranBefore
      (ih (fun passes => met (passes.append [a])) ranBefore) stepped

namespace Linear

variable {view : State → View} {takes : View → Event → View → Prop} {owns : Act → Event → Prop}
  {points : List (List Event)}

/-- One step on: the events it owns take effect in one go. -/
theorem snoc (linear : Linear step view takes owns s acts points m) (stepped : step m a = some t)
    {events : List Event} (own : ∀ e ∈ events, owns a e)
    (atomic : Atomic takes (view m) events (view t)) :
    Linear step view takes owns s (acts ++ [a]) (points ++ [events]) t := by
  induction linear with
  | nil s => exact .cons stepped own atomic (.nil t)
  | cons first own' atomic' rest ih => exact .cons first own' atomic' (ih stepped atomic)

/-- An event that would change nothing can be put at an earlier act. -/
theorem insert {e : Event} (linear : Linear step view takes owns s acts points t)
    (passes : Passes step s acts v a) (own : owns a e) (idle : takes (view v) e (view v)) :
    ∃ points', Linear step view takes owns s acts points' t ∧
      points'.flatten.Perm (e :: points.flatten) := by
  obtain ⟨before, after, rfl, ran⟩ := passes
  induction before generalizing s points with
  | nil =>
    cases ran
    cases linear with
    | @cons _ _ _ _ _ events points stepped owned atomic rest =>
      refine ⟨(e :: events) :: points, .cons stepped ?_ (.cons idle atomic) rest, .refl _⟩
      intro e' mem
      rcases List.mem_cons.mp mem with rfl | mem
      · exact own
      · exact owned e' mem
  | cons b before ih =>
    cases linear with
    | @cons _ _ _ _ _ events points stepped owned atomic rest =>
      obtain ⟨m, stepped', ran⟩ := runs_cons_iff.mp ran
      cases stepped.symm.trans stepped'
      obtain ⟨points', linear', same⟩ := ih ran rest
      refine ⟨events :: points', .cons stepped owned atomic linear', ?_⟩
      simp only [List.flatten_cons]
      exact (same.append_left events).trans List.perm_middle

end Linear

end Txn
