import Mathlib.Data.Int.ModEq
import Mathlib.Logic.Function.Basic
import Mathlib.Tactic.Ring

/-! # Circular buffers

A queue of bounded length in an array whose two indices wrap around. An empty and a full buffer
have equal indices, so a counter tells them apart. As a list the buffer is what stands from its
first index on; a push appends to the list and a pop takes its head.
-/

/-- The fields of a circular buffer; the indices of the slots are those from zero up to the
capacity. -/
structure CircularBuffer (α : Type*) where
  slots : ℤ → α
  start : ℤ
  stop : ℤ
  count : ℤ

namespace CircularBuffer

variable {α : Type*}

/-- No entries, over whatever the slots hold. -/
def empty (slots : ℤ → α) : CircularBuffer α := ⟨slots, 0, 0, 0⟩

/-- Write the slot at the end and advance. -/
def push (capacity : ℤ) (buffer : CircularBuffer α) (x : α) : CircularBuffer α where
  slots := Function.update buffer.slots buffer.stop x
  start := buffer.start
  stop := (buffer.stop + 1) % capacity
  count := buffer.count + 1

/-- The oldest entry. -/
def front (buffer : CircularBuffer α) : α := buffer.slots buffer.start

/-- Advance past the oldest entry, which stays in its slot. -/
def pop (capacity : ℤ) (buffer : CircularBuffer α) : CircularBuffer α where
  slots := buffer.slots
  start := (buffer.start + 1) % capacity
  stop := buffer.stop
  count := buffer.count - 1

/-- The slot of the entry that `i` others precede. -/
def slot (capacity : ℤ) (buffer : CircularBuffer α) (i : ℕ) : ℤ := (buffer.start + i) % capacity

/-- The entries, the oldest first. -/
def contents (capacity : ℤ) (buffer : CircularBuffer α) : List α :=
  (List.range buffer.count.toNat).map fun i => buffer.slots (buffer.slot capacity i)

/-- The counter is within its bounds and relates the indices. -/
structure WellFormed (capacity : ℤ) (buffer : CircularBuffer α) : Prop where
  start_nonneg : 0 ≤ buffer.start
  start_lt : buffer.start < capacity
  count_nonneg : 0 ≤ buffer.count
  count_le : buffer.count ≤ capacity
  stop_eq : buffer.stop = (buffer.start + buffer.count) % capacity

variable {capacity : ℤ} {buffer : CircularBuffer α}

/-! ## The empty buffer -/

theorem wellFormed_empty (h : 0 < capacity) (slots : ℤ → α) : (empty slots).WellFormed capacity :=
  ⟨le_rfl, h, le_rfl, h.le, by simp [empty]⟩

theorem length_contents (capacity : ℤ) (buffer : CircularBuffer α) :
    (buffer.contents capacity).length = buffer.count.toNat := by
  simp [contents]

/-! ## Appending -/

/-- Fewer than `capacity` steps from `start` on, no two slots coincide. -/
theorem slot_ne_stop (h : buffer.WellFormed capacity) (hroom : buffer.count ≠ capacity) {i : ℕ}
    (hi : i < buffer.count.toNat) : buffer.slot capacity i ≠ buffer.stop := by
  have hcount := h.count_nonneg
  have hle := h.count_le
  rw [h.stop_eq, slot]
  intro heq
  have hdvd : capacity ∣ (buffer.start + buffer.count) - (buffer.start + i) :=
    Int.ModEq.dvd heq
  have hpos : 0 < (buffer.start + buffer.count) - (buffer.start + i) := by omega
  have hcap := Int.le_of_dvd hpos hdvd
  omega

theorem WellFormed.push (h : buffer.WellFormed capacity) (hroom : buffer.count ≠ capacity)
    (x : α) : (buffer.push capacity x).WellFormed capacity where
  start_nonneg := h.start_nonneg
  start_lt := h.start_lt
  count_nonneg := by
    have := h.count_nonneg
    simp only [CircularBuffer.push]
    omega
  count_le := by
    have := h.count_le
    simp only [CircularBuffer.push]
    omega
  stop_eq := by
    simp only [CircularBuffer.push, h.stop_eq, Int.emod_add_emod, add_assoc]

/-- A push into a buffer with room appends to the list. -/
theorem contents_push (h : buffer.WellFormed capacity) (hroom : buffer.count ≠ capacity)
    (x : α) : (buffer.push capacity x).contents capacity = buffer.contents capacity ++ [x] := by
  have hcount : (buffer.count + 1).toNat = buffer.count.toNat + 1 := by
    have := h.count_nonneg
    omega
  have hlast : (buffer.push capacity x).slot capacity buffer.count.toNat = buffer.stop := by
    simp only [slot, CircularBuffer.push, h.stop_eq, Int.toNat_of_nonneg h.count_nonneg]
  have hold : ∀ i ∈ List.range buffer.count.toNat,
      (buffer.push capacity x).slots ((buffer.push capacity x).slot capacity i) =
        buffer.slots (buffer.slot capacity i) := by
    intro i hi
    exact Function.update_of_ne (slot_ne_stop h hroom (List.mem_range.mp hi)) x buffer.slots
  have hnew : (buffer.push capacity x).slots buffer.stop = x := Function.update_self ..
  calc
    (buffer.push capacity x).contents capacity =
        (List.range (buffer.count.toNat + 1)).map fun i =>
          (buffer.push capacity x).slots ((buffer.push capacity x).slot capacity i) := by
      rw [← hcount]
      rfl
    _ = buffer.contents capacity ++ [x] := by
      rw [List.range_succ, List.map_append, List.map_congr_left hold, List.map_singleton, hlast,
        hnew]
      rfl

/-! ## Taking the oldest entry -/

theorem WellFormed.pop (h : buffer.WellFormed capacity) (hne : buffer.count ≠ 0) :
    (buffer.pop capacity).WellFormed capacity where
  start_nonneg := by
    have := h.start_nonneg
    have := h.start_lt
    exact Int.emod_nonneg _ (by omega)
  start_lt := by
    have := h.start_nonneg
    have := h.start_lt
    exact Int.emod_lt_of_pos _ (by omega)
  count_nonneg := by
    have := h.count_nonneg
    simp only [CircularBuffer.pop]
    omega
  count_le := by
    have := h.count_le
    simp only [CircularBuffer.pop]
    omega
  stop_eq := by
    simp only [CircularBuffer.pop, h.stop_eq, Int.emod_add_emod]
    congr 1
    ring

/-- A pop from a buffer with entries takes the head of the list. -/
theorem contents_eq_front_cons (h : buffer.WellFormed capacity) (hne : buffer.count ≠ 0) :
    buffer.contents capacity = buffer.front :: (buffer.pop capacity).contents capacity := by
  have hcount : buffer.count.toNat = (buffer.count - 1).toNat + 1 := by
    have := h.count_nonneg
    omega
  have hfirst : buffer.slot capacity 0 = buffer.start := by
    simp only [slot, Nat.cast_zero, add_zero]
    exact Int.emod_eq_of_lt h.start_nonneg h.start_lt
  have hnext : ∀ i : ℕ, buffer.slot capacity (i + 1) = (buffer.pop capacity).slot capacity i := by
    intro i
    simp only [slot, CircularBuffer.pop, Int.emod_add_emod]
    congr 1
    push_cast
    ring
  simp only [contents, hcount, List.range_succ_eq_map, List.map_cons, List.map_map, hfirst]
  congr 1
  exact List.map_congr_left fun i _ => congrArg buffer.slots (hnext i)

end CircularBuffer
