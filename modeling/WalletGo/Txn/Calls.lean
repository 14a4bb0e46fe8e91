import WalletGo.Txn.Program

/-!
Programs known by the operations they perform and the replies they get.

* `Prog.Returns p events value`: performing the operations of `events` in order, with
  those replies, brings `p` to return `value`. It splits at a composition
  (`Prog.returns_bind`), so that what a program has done is found by inversion.
* `Prog.Reaches p events q`: the same, up to a residual program. What has been reached
  can be completed (`Prog.Reaches.completes`), so that a fact about the events of a
  whole run is one about every part of it.
* `Prog.Only`: as long as the replies are sound, every operation performed is of one kind.
* `Prog.Discipline.tracking`: a discipline whose state is a function of the past, so that
  a program in the middle of its run keeps it from a known state (`Prog.Reaches.always`).
-/

namespace Txn

abbrev Event (S : Signature) := (o : S.Op) × S.Reply o

namespace Prog

variable {S : Signature} {α β : Type}

def Returns : Prog S α → List (Event S) → α → Prop
  | .ret value, events, result => events = [] ∧ result = value
  | .op o next, events, result =>
      ∃ reply rest, events = ⟨o, reply⟩ :: rest ∧ (next reply).Returns rest result

@[simp] theorem returns_ret {value result : α} {events : List (Event S)} :
    (Prog.ret value : Prog S α).Returns events result ↔ events = [] ∧ result = value := Iff.rfl

@[simp] theorem returns_op {o : S.Op} {next : S.Reply o → Prog S α} {events : List (Event S)}
    {result : α} : (Prog.op o next).Returns events result ↔
      ∃ reply rest, events = ⟨o, reply⟩ :: rest ∧ (next reply).Returns rest result := Iff.rfl

theorem returns_bind {program : Prog S α} {next : α → Prog S β} {events : List (Event S)}
    {result : β} : (program.bind next).Returns events result ↔
      ∃ value first rest, events = first ++ rest ∧ program.Returns first value ∧
        (next value).Returns rest result := by
  induction program generalizing events with
  | ret value =>
    constructor
    · intro returned
      exact ⟨value, [], events, rfl, ⟨rfl, rfl⟩, returned⟩
    · rintro ⟨_, _, rest, rfl, ⟨rfl, rfl⟩, returned⟩
      exact returned
  | op o tail ih =>
    constructor
    · rintro ⟨reply, _, rfl, returned⟩
      obtain ⟨value, first, rest, rfl, head, last⟩ := (ih reply).mp returned
      exact ⟨value, ⟨o, reply⟩ :: first, rest, rfl, ⟨reply, first, rfl, head⟩, last⟩
    · rintro ⟨value, _, rest, rfl, ⟨reply, first, rfl, head⟩, last⟩
      exact ⟨reply, first ++ rest, rfl, (ih reply).mpr ⟨value, first, rest, rfl, head, last⟩⟩

/-- Sound replies can be found that bring a program to its end. -/
theorem exists_returns {sound : (o : S.Op) → S.Reply o → Prop}
    (replies : ∀ o, ∃ reply, sound o reply) (program : Prog S α) :
    ∃ events result, program.Returns events result ∧ ∀ e ∈ events, sound e.1 e.2 := by
  induction program with
  | ret value => exact ⟨[], value, ⟨rfl, rfl⟩, by rintro e ⟨⟩⟩
  | op o next ih =>
    obtain ⟨reply, fits⟩ := replies o
    obtain ⟨events, result, returned, sounds⟩ := ih reply
    exact ⟨⟨o, reply⟩ :: events, result, ⟨reply, events, rfl, returned⟩,
      List.forall_mem_cons.mpr ⟨fits, sounds⟩⟩

/-- `start` has performed `events` and is now the residual program. -/
inductive Reaches (start : Prog S α) : List (Event S) → Prog S α → Prop where
  | refl : Reaches start [] start
  | next {events : List (Event S)} {o : S.Op} {rest : S.Reply o → Prog S α} (reply : S.Reply o)
      (before : Reaches start events (.op o rest)) :
      Reaches start (events ++ [⟨o, reply⟩]) (rest reply)

namespace Reaches

variable {start program : Prog S α} {events : List (Event S)}

theorem returns (reaches : start.Reaches events program) {more : List (Event S)} {result : α}
    (rest : program.Returns more result) : start.Returns (events ++ more) result := by
  induction reaches generalizing more with
  | refl => exact rest
  | next reply before ih =>
    rw [List.append_assoc]
    exact ih ⟨reply, more, rfl, rest⟩

theorem returned {result : α} (reaches : start.Reaches events (.ret result)) :
    start.Returns events result := by
  have whole := reaches.returns (returns_ret.mpr ⟨rfl, rfl⟩)
  rwa [List.append_nil] at whole

/-- A program that was reached can be brought to its end. -/
theorem completes (reaches : start.Reaches events program) {sound : (o : S.Op) → S.Reply o → Prop}
    (replies : ∀ o, ∃ reply, sound o reply) :
    ∃ more result, start.Returns (events ++ more) result ∧ ∀ e ∈ more, sound e.1 e.2 := by
  obtain ⟨more, result, rest, sounds⟩ := program.exists_returns replies
  exact ⟨more, result, reaches.returns rest, sounds⟩

end Reaches

/-- Whatever sound replies there are, only operations of one kind are performed. -/
def Only (sound : (o : S.Op) → S.Reply o → Prop) (kind : S.Op → Prop) : Prog S α → Prop
  | .ret _ => True
  | .op o next => kind o ∧ ∀ reply, sound o reply → (next reply).Only sound kind

section Only

variable {sound : (o : S.Op) → S.Reply o → Prop} {kind kind' : S.Op → Prop}

theorem Only.bind {program : Prog S α} {next : α → Prog S β} (first : program.Only sound kind)
    (rest : ∀ value, (next value).Only sound kind) : (program.bind next).Only sound kind := by
  induction program with
  | ret value => exact rest value
  | op o tail ih => exact ⟨first.1, fun reply fits => ih reply (first.2 reply fits)⟩

theorem Only.mono {program : Prog S α} (only : program.Only sound kind)
    (weaker : ∀ o, kind o → kind' o) : program.Only sound kind' := by
  induction program with
  | ret value => trivial
  | op o next ih => exact ⟨weaker o only.1, fun reply fits => ih reply (only.2 reply fits)⟩

/-- What has been performed so far, and what is yet to be performed, is of that kind. -/
theorem Reaches.only {start program : Prog S α} {events : List (Event S)}
    (reaches : start.Reaches events program) (sounds : ∀ e ∈ events, sound e.1 e.2)
    (only : start.Only sound kind) : (∀ e ∈ events, kind e.1) ∧ program.Only sound kind := by
  induction reaches with
  | refl => exact ⟨by rintro e ⟨⟩, only⟩
  | next reply before ih =>
    obtain ⟨soFar, own, rest⟩ := ih fun e mem => sounds e (List.mem_append_left _ mem)
    have fits := sounds _ (List.mem_append_right _ (List.mem_singleton_self _))
    refine ⟨fun e mem => ?_, rest reply fits⟩
    rcases List.mem_append.mp mem with old | new
    · exact soFar e old
    · cases List.mem_singleton.mp new
      exact own

end Only

/-- The discipline of a state that is a function of the operations and replies so far. -/
def Discipline.tracking {σ : Type} (allows : σ → S.Op → Prop) (next : σ → Event S → σ) :
    Discipline S σ where
  allows := allows
  moves state o reply state' := state' = next state ⟨o, reply⟩

section Tracking

variable {σ : Type} {allows : σ → S.Op → Prop} {next : σ → Event S → σ}
  {post : σ → α → Prop} {state : σ}

/-- What is left of a program keeps the discipline from where its past has brought it. -/
theorem Reaches.always {start program : Prog S α} {events : List (Event S)}
    (reaches : start.Reaches events program)
    (always : start.Always (.tracking allows next) post state) :
    program.Always (.tracking allows next) post (events.foldl next state) := by
  induction reaches with
  | refl => exact always
  | next reply before ih =>
    rw [List.foldl_append]
    exact ih.2 reply _ rfl

/-- A program that performs only what leaves the state alone. -/
theorem Only.tracking {sound : (o : S.Op) → S.Reply o → Prop} {kind : S.Op → Prop}
    {program : Prog S α} (only : program.Only sound kind) (all : ∀ o reply, sound o reply)
    (still : ∀ o, kind o → allows state o ∧ ∀ reply, next state ⟨o, reply⟩ = state) :
    program.Always (.tracking allows next) (fun state' _ => state' = state) state := by
  induction program with
  | ret value => rfl
  | op o tail ih =>
    obtain ⟨own, same⟩ := still o only.1
    refine ⟨own, ?_⟩
    rintro reply _ rfl
    rw [same reply]
    exact ih reply (only.2 reply (all o reply))

end Tracking

end Prog

end Txn
