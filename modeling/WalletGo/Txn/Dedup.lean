import Mathlib.Algebra.BigOperators.Group.Finset.Piecewise
import Mathlib.Data.List.Induction
import Mathlib.Data.List.Nodup

/-!
A receiver that adds up what it gets and drops what it has got before.

Deliveries may come in any order and any number of times. As long as each is one of the
items sent, and no two of those share a key, the total is that of the items that have come
at all (`Receiver.total_eq`).
-/

namespace Txn

variable {Item Key Value : Type*} [DecidableEq Key] [AddCommMonoid Value]

structure Receiver (Key Value : Type*) where
  seen : List Key
  total : Value

namespace Receiver

def init : Receiver Key Value := ⟨[], 0⟩

variable (key : Item → Key) (worth : Item → Value)

def receive (r : Receiver Key Value) (item : Item) : Receiver Key Value :=
  if key item ∈ r.seen then r else ⟨key item :: r.seen, r.total + worth item⟩

variable {key worth} {heard : List Item} {r : Receiver Key Value} {item : Item}

theorem receive_known (known : key item ∈ r.seen) : r.receive key worth item = r := if_pos known

theorem receive_new (unknown : key item ∉ r.seen) :
    r.receive key worth item = ⟨key item :: r.seen, r.total + worth item⟩ := if_neg unknown

/-- What has been seen is what has been heard. -/
theorem mem_seen (k : Key) :
    k ∈ (heard.foldl (receive key worth) init).seen ↔ k ∈ heard.map key := by
  induction heard using List.reverseRecOn with
  | nil => simp [init]
  | append_singleton heard item ih =>
    rw [List.foldl_append, List.map_append, List.mem_append, ← ih]
    simp only [List.foldl_cons, List.foldl_nil, List.map_cons, List.map_nil, List.mem_singleton]
    by_cases known : key item ∈ (heard.foldl (receive key worth) init).seen
    · rw [receive_known known]
      constructor
      · exact .inl
      · rintro (mem | rfl)
        · exact mem
        · exact known
    · rw [receive_new known, List.mem_cons, or_comm]

/-- Each item that has come at least once counts once. -/
theorem total_eq {sent : List (Key × Value)} (distinct : (sent.map (·.1)).Nodup)
    (genuine : ∀ item ∈ heard, (key item, worth item) ∈ sent) :
    (heard.foldl (receive key worth) init).total =
      (sent.map fun s => if s.1 ∈ heard.map key then s.2 else 0).sum := by
  classical
  induction heard using List.reverseRecOn with
  | nil => simp [init]
  | append_singleton heard item ih =>
    have ih := ih fun other mem => genuine other (List.mem_append_left _ mem)
    have mine : (key item, worth item) ∈ sent := genuine item (by simp)
    rw [List.foldl_append, List.foldl_cons, List.foldl_nil]
    by_cases known : key item ∈ (heard.foldl (receive key worth) init).seen
    · rw [receive_known known, ih]
      rw [mem_seen] at known
      refine congrArg List.sum (List.map_congr_left fun s _ => if_congr ?_ rfl rfl)
      rw [List.map_append, List.mem_append, List.map_singleton, List.mem_singleton]
      constructor
      · exact .inl
      · rintro (mem | same)
        · exact mem
        · rwa [same]
    · rw [receive_new known]
      rw [mem_seen] at known
      -- among the items sent, the new one is told from the others by its key
      have split : ∀ s ∈ sent, (if s.1 ∈ (heard ++ [item]).map key then s.2 else 0) =
          (if s.1 ∈ heard.map key then s.2 else 0) +
            if s = (key item, worth item) then worth item else 0 := by
        intro s mem
        rw [List.map_append, List.map_singleton]
        by_cases same : s.1 = key item
        · obtain rfl : s = (key item, worth item) := List.inj_on_of_nodup_map distinct mem mine same
          rw [if_pos (by simp), if_neg known, if_pos rfl, zero_add]
        · rw [if_neg fun eq => same (congrArg Prod.fst eq), add_zero]
          exact if_congr (by simp [same]) rfl rfl
      have once : (sent.map fun s => if s = (key item, worth item) then worth item else 0).sum =
          worth item := by
        rw [← List.sum_toFinset _ (.of_map _ distinct), Finset.sum_ite_eq',
          if_pos (List.mem_toFinset.mpr mine)]
      rw [ih, List.map_congr_left split, List.sum_map_add, once]

end Receiver

end Txn
