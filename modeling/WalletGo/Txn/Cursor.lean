import Mathlib.Data.List.Sort

/-!
Reading a log by cursor.

A log is a list that only grows at its end and whose elements carry a positive key.
A reader remembers what it has received and asks for the elements with a key above
that of the last one. As long as keys ascend along the log, these are the elements
behind what it has received (`Ascending.filter_cursor`), so it misses nothing and
sees nothing twice. A log with distinct keys has one ascending arrangement
(`Ascending.eq_of_perm`), the one sorting gives.
-/

namespace Txn.Log

universe u

variable {α : Type u} (key : α → Nat)

def Ascending (log : List α) : Prop := log.Pairwise (key · < key ·)

def cursor (received : List α) : Nat := received.getLast?.elim 0 key

variable {key} {log log' received : List α}

/-- What has been added since has a larger key than anything that was there. -/
theorem Ascending.later (ascending : Ascending key log') (grown : log <+: log') {x y : α}
    (old : x ∈ log) (mem : y ∈ log') (new : y ∉ log) : key x < key y := by
  obtain ⟨rest, rfl⟩ := grown
  rcases List.mem_append.mp mem with present | added
  · exact absurd present new
  · exact (List.pairwise_append.mp ascending).2.2 x old y added

/-- Two ascending arrangements of one log are the same. -/
theorem Ascending.eq_of_perm (ascending : Ascending key log) (ascending' : Ascending key log')
    (same : log.Perm log') : log = log' :=
  same.eq_of_pairwise (fun _ _ _ _ below above => absurd below (Nat.lt_asymm above))
    ascending ascending'

theorem ascending_insertionSort (distinct : (log.map key).Nodup) :
    Ascending key (log.insertionSort (key · ≤ key ·)) := by
  have total : Std.Total fun x y : α => key x ≤ key y := ⟨fun x y => Nat.le_total _ _⟩
  have trans : IsTrans α fun x y => key x ≤ key y := ⟨fun _ _ _ => Nat.le_trans⟩
  have sorted := List.pairwise_insertionSort (fun x y : α => key x ≤ key y) log
  have apart : (log.insertionSort (key · ≤ key ·)).Pairwise (key · ≠ key ·) := by
    have perm := (List.perm_insertionSort (fun x y : α => key x ≤ key y) log).map key
    exact List.pairwise_map.mp (perm.nodup_iff.mpr distinct)
  exact (sorted.and apart).imp fun both => Nat.lt_of_le_of_ne both.1 both.2

/-- The front of a log that is sorted by its keys has everything below what it has. -/
theorem mem_take_of_lt (sorted : log.Pairwise (key · ≤ key ·)) {n : Nat} {x y : α} (mem : x ∈ log)
    (shown : y ∈ log.take n) (below : key x < key y) : x ∈ log.take n := by
  rw [← List.take_append_drop n log] at mem sorted
  rcases List.mem_append.mp mem with front | back
  · exact front
  · have above := (List.pairwise_append.mp sorted).2.2 y shown x back
    omega

/-- Sorting what passes a test leaves out of the sorted log what does not. -/
theorem insertionSort_filter (distinct : (log.map key).Nodup) (p : α → Bool) :
    (log.filter p).insertionSort (key · ≤ key ·) =
    (log.insertionSort (key · ≤ key ·)).filter p := by
  have kept : ((log.filter p).map key).Nodup := distinct.sublist (List.filter_sublist.map key)
  apply (ascending_insertionSort kept).eq_of_perm ((ascending_insertionSort distinct).filter p)
  exact (List.perm_insertionSort _ _).trans ((List.perm_insertionSort _ _).filter p).symm

/-- The cursor is past everything received. -/
theorem le_cursor (ascending : Ascending key received) {x : α} (mem : x ∈ received) :
    key x ≤ cursor key received := by
  cases last : received.getLast? with
  | none =>
    rw [List.getLast?_eq_none_iff.mp last] at mem
    cases mem
  | some y =>
    obtain ⟨front, rfl⟩ := List.getLast?_eq_some_iff.mp last
    rw [cursor, last]
    rcases List.mem_append.mp mem with earlier | same
    · exact Nat.le_of_lt ((List.pairwise_append.mp ascending).2.2 x earlier y List.mem_cons_self)
    · cases List.mem_singleton.mp same
      exact Nat.le_refl _

/-- The elements above the cursor are those behind what has been received. -/
theorem Ascending.filter_cursor (ascending : Ascending key log) (positive : ∀ x ∈ log, 0 < key x)
    (taken : received <+: log) :
    log.filter (fun x => decide (cursor key received < key x)) = log.drop received.length := by
  obtain ⟨rest, rfl⟩ := taken
  obtain ⟨front, -, across⟩ := List.pairwise_append.mp ascending
  have below : received.filter (fun x => decide (cursor key received < key x)) = [] := by
    refine List.filter_eq_nil_iff.mpr fun x mem => ?_
    have bounded := le_cursor front mem
    simpa using bounded
  have above : rest.filter (fun x => decide (cursor key received < key x)) = rest := by
    refine List.filter_eq_self.mpr fun x mem => decide_eq_true ?_
    cases last : received.getLast? with
    | none =>
      rw [cursor, last]
      exact positive x (List.mem_append_right _ mem)
    | some y =>
      rw [cursor, last]
      exact across y (List.mem_of_getLast? last) x mem
  rw [List.filter_append, below, above, List.drop_left, List.nil_append]

end Txn.Log
