import Mathlib.Logic.Relation
import Mathlib.Tactic.Common

/-!
Waiting without deadlock.

Agents hold resources and ask for resources; an agent waits for another when it
asks for a resource the other holds. If resources are ranked and every agent
asks only for resources ranked above everything it holds, then no chain of
waiting agents closes up (`WaitsFor.acyclic`), and among live agents some agent
is not waiting (`exists_not_waiting`). Chains may be of any length and agents
may be infinitely many; only the ranks are bounded.
-/

namespace Txn

variable {Agent Res : Type} (holds asks : Agent → Res → Prop)

/-- `a` asks for a resource that `b` holds. -/
def WaitsFor (a b : Agent) : Prop := ∃ r, asks a r ∧ holds b r

/-- Every agent asks only for resources above all it holds. -/
def Ascending (rank : Res → Nat) : Prop :=
  ∀ a r h, asks a r → holds a h → rank h < rank r

variable {holds asks}

/-- Along a chain of waits the rank of what is asked for does not decrease: the
end of the chain holds something at least as high as what the start asks for. -/
theorem WaitsFor.chain_rank {rank : Res → Nat} (ascending : Ascending holds asks rank)
    {a b : Agent} (chain : Relation.TransGen (WaitsFor holds asks) a b) :
    ∃ r h, asks a r ∧ holds b h ∧ rank r ≤ rank h := by
  induction chain with
  | single wait =>
      obtain ⟨r, asked, held⟩ := wait
      exact ⟨r, r, asked, held, Nat.le_refl _⟩
  | tail _ wait ih =>
      obtain ⟨r, h, asked, held, le⟩ := ih
      obtain ⟨r', asked', held'⟩ := wait
      exact ⟨r, r', asked, held', Nat.le_trans le (Nat.le_of_lt (ascending _ _ _ asked' held))⟩

/-- No chain of waits, of any length, leads back to where it started. -/
theorem WaitsFor.acyclic {rank : Res → Nat} (ascending : Ascending holds asks rank) (a : Agent) :
    ¬ Relation.TransGen (WaitsFor holds asks) a a := by
  intro cycle
  obtain ⟨r, h, asked, held, le⟩ := WaitsFor.chain_rank ascending cycle
  exact absurd (ascending _ _ _ asked held) (Nat.not_lt.mpr le)

/-- If whoever holds something is live, then not every live agent waits: chains
of waits climb in rank, and ranks are bounded. -/
theorem exists_not_waiting {rank : Res → Nat} (ascending : Ascending holds asks rank)
    {bound : Nat} (bounded : ∀ r, rank r < bound) {live : Agent → Prop}
    (holderLive : ∀ a r, holds a r → live a) {a : Agent} (alive : live a) :
    ∃ b, live b ∧ ¬ ∃ c, WaitsFor holds asks b c := by
  by_contra none
  have allWait : ∀ b, live b → ∃ c, WaitsFor holds asks b c := fun b hb =>
    Classical.not_not.mp fun not => none ⟨b, hb, not⟩
  -- Following the waits from `a` climbs past every rank.
  have climb : ∀ n : Nat, ∃ b c r, live c ∧ asks b r ∧ holds c r ∧ n ≤ rank r := by
    intro n
    induction n with
    | zero =>
        obtain ⟨c, r, asked, held⟩ := allWait a alive
        exact ⟨a, c, r, holderLive c r held, asked, held, Nat.zero_le _⟩
    | succ n ih =>
        obtain ⟨_, c, r, liveC, _, held, le⟩ := ih
        obtain ⟨d, r', asked', held'⟩ := allWait c liveC
        exact ⟨c, d, r', holderLive d r' held', asked', held',
          Nat.lt_of_le_of_lt le (ascending c r' r asked' held)⟩
  obtain ⟨_, _, r, _, _, _, le⟩ := climb bound
  exact absurd (bounded r) (Nat.not_lt.mpr le)

end Txn
