import Mathlib.Data.Finset.Basic
import Mathlib.Data.Finset.Erase

/-!
A readers-writer lock that knows its holders.

It is held by any number of readers or by one writer, which the type keeps. An
operation that has to wait is not enabled (`none`); nothing is said about who is
served first, so every order of waiting holders is a possible one.
-/

namespace Sync

universe u

structure RWMutex (κ : Type u) where
  readers : Finset κ
  writer : Option κ
  exclusive : writer ≠ none → readers = ∅

namespace RWMutex

variable {κ : Type u} {m m' : RWMutex κ} {k : κ}

def unlocked : RWMutex κ := ⟨∅, none, fun _ => rfl⟩

/-- While somebody writes, nobody reads. -/
theorem not_reading (writes : m.writer = some k) (g : κ) : g ∉ m.readers := by
  have held : m.writer ≠ none := by simp [writes]
  simp [m.exclusive held]

variable [DecidableEq κ]

def rLock (m : RWMutex κ) (k : κ) : Option (RWMutex κ) :=
  if m.writer = none ∧ k ∉ m.readers then
    some ⟨insert k m.readers, none, fun held => absurd rfl held⟩
  else none

def rUnlock (m : RWMutex κ) (k : κ) : Option (RWMutex κ) :=
  if k ∈ m.readers then
    some ⟨m.readers.erase k, m.writer, fun held => by rw [m.exclusive held, Finset.erase_empty]⟩
  else none

def lock (m : RWMutex κ) (k : κ) : Option (RWMutex κ) :=
  if m.writer = none ∧ m.readers = ∅ then some ⟨∅, some k, fun _ => rfl⟩ else none

def unlock (m : RWMutex κ) (k : κ) : Option (RWMutex κ) :=
  if m.writer = some k then some ⟨m.readers, none, fun held => absurd rfl held⟩ else none

/-- Readers wait for the writer. -/
theorem rLock_eq_some (locked : m.rLock k = some m') :
    m.writer = none ∧ m'.writer = none ∧ m'.readers = insert k m.readers := by
  unfold rLock at locked
  split at locked
  · next free =>
    cases locked
    exact ⟨free.1, rfl, rfl⟩
  · cases locked

theorem rUnlock_eq_some (unlocked : m.rUnlock k = some m') :
    m'.writer = m.writer ∧ m'.readers = m.readers.erase k := by
  unfold rUnlock at unlocked
  split at unlocked
  · cases unlocked
    exact ⟨rfl, rfl⟩
  · cases unlocked

/-- The writer waits for the readers. -/
theorem lock_eq_some (locked : m.lock k = some m') :
    m.readers = ∅ ∧ m'.writer = some k ∧ m'.readers = m.readers := by
  unfold lock at locked
  split at locked
  · next free =>
    cases locked
    exact ⟨free.2, rfl, free.2.symm⟩
  · cases locked

theorem unlock_eq_some (unlocked : m.unlock k = some m') :
    m'.writer = none ∧ m'.readers = m.readers := by
  unfold unlock at unlocked
  split at unlocked
  · cases unlocked
    exact ⟨rfl, rfl⟩
  · cases unlocked

end RWMutex

end Sync
