import Mathlib.Tactic.Common

/-!
Programs that talk to an environment one operation at a time.

A program is a tree: it either returns, or asks the environment to perform one
operation and continues with the reply. Nothing here fixes what an operation
does; the same tree is run alone (`Prog.run`), run one operation at a time
between other programs (`Prog.Steps`), and reasoned about over every reply the
environment may give (`Prog.Always`).

* `Prog.Steps.run_eq`: running a program alone from the start, or from any point
  reached one operation at a time, is the same run.
* `Prog.Always.bind`: the composition rule of the assertion logic,
  `Prog.Always.keep`: invariants of the replies, and `Prog.Always.run`: what it says
  about a program that is run alone.
* `Prog.Always.run_lockstep`: two programs kept in step by a relation between their
  states give one result.
-/

namespace Txn

universe u

/-- What a program may ask of its environment, and the type of each reply. -/
structure Signature where
  Op : Type
  Reply : Op → Type

/-- A program over a signature: a result, or one operation and a continuation
for every reply. -/
inductive Prog (S : Signature) (α : Type) where
  | ret : α → Prog S α
  | op (o : S.Op) (next : S.Reply o → Prog S α) : Prog S α

namespace Prog

variable {S : Signature} {α β : Type}

/-- Sequential composition grafts the continuation onto every leaf. -/
def bind : Prog S α → (α → Prog S β) → Prog S β
  | .ret value, next => next value
  | .op o rest, next => .op o fun reply => (rest reply).bind next

instance : Monad (Prog S) where
  pure := .ret
  bind := bind

@[simp] theorem pure_eq_ret (value : α) : (pure value : Prog S α) = .ret value := rfl

@[simp] theorem bind_eq (program : Prog S α) (next : α → Prog S β) :
    program >>= next = program.bind next := rfl

@[simp] theorem ret_bind (value : α) (next : α → Prog S β) :
    (Prog.ret value).bind next = next value := rfl

@[simp] theorem op_bind (o : S.Op) (rest : S.Reply o → Prog S α) (next : α → Prog S β) :
    (Prog.op o rest).bind next = .op o fun reply => (rest reply).bind next := rfl

/-! ### Execution -/

section Execution

variable {σ : Type u}

/-- Run a program to the end. `answer n` is what the environment replies to the
`n`-th operation, and what that operation does to the local state. -/
def run (answer : Nat → σ → (o : S.Op) → S.Reply o × σ) : Prog S α → σ → Nat → α × σ
  | .ret value, state, _ => (value, state)
  | .op o next, state, n =>
      let outcome := answer n state o
      (next outcome.1).run answer outcome.2 (n + 1)

@[simp] theorem run_ret (answer : Nat → σ → (o : S.Op) → S.Reply o × σ) (value : α) (state : σ)
    (n : Nat) : (Prog.ret value : Prog S α).run answer state n = (value, state) := rfl

theorem run_op (answer : Nat → σ → (o : S.Op) → S.Reply o × σ) (o : S.Op)
    (next : S.Reply o → Prog S α) (state : σ) (n : Nat) :
    (Prog.op o next).run answer state n =
      (next (answer n state o).1).run answer (answer n state o).2 (n + 1) := rfl

/-- `Steps answer p s n q t`: performing the first `n` operations of `p` from
local state `s` leaves the residual program `q` in local state `t`. -/
inductive Steps (answer : Nat → σ → (o : S.Op) → S.Reply o × σ) (start : Prog S α) (initial : σ) :
    Nat → Prog S α → σ → Prop where
  | refl : Steps answer start initial 0 start initial
  | next {n : Nat} {o : S.Op} {rest : S.Reply o → Prog S α} {state : σ} :
      Steps answer start initial n (.op o rest) state →
        Steps answer start initial (n + 1) (rest (answer n state o).1) (answer n state o).2

/-- The whole run does not depend on how far it has been taken already. -/
theorem Steps.run_eq {answer : Nat → σ → (o : S.Op) → S.Reply o × σ} {start residual : Prog S α}
    {initial state : σ} {n : Nat} (steps : Steps answer start initial n residual state) :
    start.run answer initial 0 = residual.run answer state n := by
  induction steps with
  | refl => rfl
  | next _ ih => rw [ih, run_op]

/-- A run that has reached a leaf has computed the result of the whole run. -/
theorem Steps.run_eq_ret {answer : Nat → σ → (o : S.Op) → S.Reply o × σ} {start : Prog S α}
    {initial state : σ} {n : Nat} {value : α}
    (steps : Steps answer start initial n (.ret value) state) :
    start.run answer initial 0 = (value, state) := by
  rw [steps.run_eq, run_ret]

/-- Two environments that have replied alike so far have brought the program to
the same point. -/
theorem Steps.congr {answer answer' : Nat → σ → (o : S.Op) → S.Reply o × σ}
    {start residual : Prog S α} {initial state : σ} {n : Nat}
    (steps : Steps answer start initial n residual state)
    (agree : ∀ m < n, ∀ t o, answer m t o = answer' m t o) :
    Steps answer' start initial n residual state := by
  induction steps with
  | refl => exact .refl
  | @next m o rest t _ ih =>
      rw [agree m (Nat.lt_succ_self m) t o]
      exact .next (ih fun k hk => agree k (Nat.lt_succ_of_lt hk))

end Execution

/-! ### Assertions over every reply -/

section Assertions

variable {σ : Type u}

/-- What is tracked about a program while the environment answers it: which
replies take which local state where, and what must hold before an operation is
performed. -/
structure Discipline (S : Signature) (σ : Type u) where
  /-- The operation may be performed in this state. -/
  allows : σ → S.Op → Prop
  /-- The reply takes the first state to the second. -/
  moves : σ → (o : S.Op) → S.Reply o → σ → Prop

/-- `p.Always D post s`: from `s`, whatever the environment replies, every
operation `p` performs is one that `D` allows, and `post` holds of the state and
result at every leaf. -/
def Always (D : Discipline S σ) (post : σ → α → Prop) : Prog S α → σ → Prop
  | .ret value, state => post state value
  | .op o next, state =>
      D.allows state o ∧
        ∀ reply state', D.moves state o reply state' → (next reply).Always D post state'

/-- Composition: the continuation is proved from what the first part ends in. -/
theorem Always.bind {D : Discipline S σ} {mid : σ → α → Prop} {post : σ → β → Prop}
    {program : Prog S α} {next : α → Prog S β} {state : σ}
    (first : program.Always D mid state)
    (rest : ∀ s a, mid s a → (next a).Always D post s) :
    (program.bind next).Always D post state := by
  induction program generalizing state with
  | ret value => exact rest _ _ first
  | op o tail ih =>
      exact ⟨first.1, fun reply state' moved => ih reply (first.2 reply state' moved)⟩

/-- A weaker assertion holds too. -/
theorem Always.mono {D : Discipline S σ} {post weaker : σ → α → Prop}
    (implies : ∀ s a, post s a → weaker s a) {program : Prog S α} {state : σ}
    (always : program.Always D post state) : program.Always D weaker state := by
  induction program generalizing state with
  | ret value => exact implies _ _ always
  | op o next ih =>
      exact ⟨always.1, fun reply state' moved => ih reply (always.2 reply state' moved)⟩

/-- What every reply preserves holds at the leaves too. -/
theorem Always.keep {D : Discipline S σ} {post : σ → α → Prop} {I : σ → Prop}
    (keeps : ∀ s o reply s', I s → D.moves s o reply s' → I s') {program : Prog S α} {state : σ}
    (always : program.Always D post state) (init : I state) :
    program.Always D (fun s a => post s a ∧ I s) state := by
  induction program generalizing state with
  | ret value => exact ⟨always, init⟩
  | op o next ih =>
      refine ⟨always.1, fun reply state' moved => ?_⟩
      exact ih reply (always.2 reply state' moved) (keeps _ _ _ _ init moved)

/-- A program run alone ends where its discipline lets it, with whatever relation
between the two local states every allowed operation keeps. -/
theorem Always.run {τ : Type u} {D : Discipline S σ} {post : σ → α → Prop} {program : Prog S α}
    {state : σ} {local' : τ} {n : Nat} (always : program.Always D post state)
    (answer : Nat → τ → (o : S.Op) → S.Reply o × τ) (I : σ → τ → Prop) (init : I state local')
    (keep : ∀ n s t o, D.allows s o → I s t →
      ∃ s', D.moves s o (answer n t o).1 s' ∧ I s' (answer n t o).2) :
    ∃ s', post s' (program.run answer local' n).1 ∧ I s' (program.run answer local' n).2 := by
  induction program generalizing state local' n with
  | ret value => exact ⟨state, always, init⟩
  | op o next ih =>
      obtain ⟨s', moved, kept⟩ := keep n state local' o always.1 init
      exact ih _ (always.2 _ s' moved) kept

/-- Two programs whose operations are answered alike, step for step, end alike. -/
theorem Always.run_lockstep {σ' τ : Type u} {D : Discipline S σ} {D' : Discipline S σ'}
    {post : σ → α → Prop} {post' : σ' → α → Prop} (answer : Nat → τ → (o : S.Op) → S.Reply o × τ)
    (R : σ → σ' → Prop)
    (ends : ∀ s s' value value', R s s' → post s value → post' s' value' → value = value')
    (first : ∀ s s' value o, R s s' → post s value → ¬ D'.allows s' o)
    (second : ∀ s s' value o, R s s' → D.allows s o → ¬ post' s' value)
    (steps : ∀ n t s s' o o', R s s' → D.allows s o → D'.allows s' o' →
      (answer n t o).2 = (answer n t o').2 ∧
        ∃ r r', D.moves s o (answer n t o).1 r ∧ D'.moves s' o' (answer n t o').1 r' ∧ R r r')
    {program program' : Prog S α} {state : σ} {state' : σ'} {local' : τ} {n : Nat}
    (always : program.Always D post state) (always' : program'.Always D' post' state')
    (related : R state state') : program.run answer local' n = program'.run answer local' n := by
  induction program generalizing program' state state' local' n with
  | ret value =>
      cases program' with
      | ret value' => rw [run_ret, run_ret, ends _ _ _ _ related always always']
      | op o' next' => exact absurd always'.1 (first _ _ _ _ related always)
  | op o next ih =>
      cases program' with
      | ret value' => exact absurd always' (second _ _ _ _ related always.1)
      | op o' next' =>
          obtain ⟨same, r, r', moved, moved', stepped⟩ :=
            steps n local' state state' o o' related always.1 always'.1
          rw [run_op, run_op, ← same]
          exact ih _ (always.2 _ r moved) (always'.2 _ r' moved') stepped

end Assertions

end Prog

end Txn
