import Mathlib.Data.Nat.Notation
import Mathlib.Logic.Function.Basic

/-! # A counter without a lock

A thread that counts reads the counter and then writes one more than it has read. A value that was
read before another thread wrote is stale, and the write of its successor loses what was counted in
between. The counter is exact if and only if no stale value was written.
-/

/-- The counter, and what the threads have read that are about to write. -/
@[ext] structure SharedCounter (ι : Type*) where
  value : ℕ
  read : ι → Option ℕ

namespace SharedCounter

variable {ι : Type*} {counter : SharedCounter ι} {i : ι} {n completed : ℕ} {overlapped : Bool}

/-- A write of another value than the successor of the present one. -/
def isStale (counter : SharedCounter ι) (n : ℕ) : Bool := n ≠ counter.value

/-- What the counter says of the number of completed writes, some of them stale or not. -/
structure Counts (counter : SharedCounter ι) (completed : ℕ) (overlapped : Bool) : Prop where
  value_le : counter.value ≤ completed
  exact_iff : counter.value = completed ↔ overlapped = false
  read : ∀ i n, counter.read i = some n → n < completed ∨ n = counter.value

theorem counts_zero : Counts (⟨0, fun _ : ι => none⟩) 0 false where
  value_le := Nat.le_refl 0
  exact_iff := ⟨fun _ => rfl, fun _ => rfl⟩
  read := fun _ _ h => by cases h

section

variable [DecidableEq ι]

def load (counter : SharedCounter ι) (i : ι) : SharedCounter ι :=
  { counter with read := Function.update counter.read i (some counter.value) }

/-- The write of a thread that has read `n`. -/
def store (counter : SharedCounter ι) (i : ι) (n : ℕ) : SharedCounter ι where
  value := n + 1
  read := Function.update counter.read i none

theorem Counts.load (h : counter.Counts completed overlapped) (i : ι) :
    (counter.load i).Counts completed overlapped where
  value_le := h.value_le
  exact_iff := h.exact_iff
  read j n hread := by
    by_cases hj : j = i
    · subst hj
      simp only [SharedCounter.load, Function.update_self] at hread
      exact Or.inr (Option.some.inj hread).symm
    · simp only [SharedCounter.load, Function.update_of_ne hj] at hread
      exact h.read j n hread

/-- What the other threads have read is behind the number of writes from now on. -/
theorem Counts.store (h : counter.Counts completed overlapped) (hread : counter.read i = some n) :
    (counter.store i n).Counts (completed + 1) (overlapped || counter.isStale n) := by
  have hle := h.value_le
  have hread := h.read i n hread
  refine ⟨?_, ?_, fun j m hm => ?_⟩
  · simp only [SharedCounter.store]
    omega
  · simp only [SharedCounter.store, Nat.add_right_cancel_iff, Bool.or_eq_false_iff, isStale,
      decide_eq_false_iff_not, not_not, ← h.exact_iff]
    omega
  · by_cases hj : j = i
    · subst hj
      simp [SharedCounter.store] at hm
    · simp only [SharedCounter.store, Function.update_of_ne hj] at hm
      have hbefore := h.read j m hm
      omega

end

end SharedCounter
