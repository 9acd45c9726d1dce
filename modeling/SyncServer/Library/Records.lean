import Mathlib.Data.Nat.Notation
import SyncServer.Library.Ending

/-! # Records one after the other

A buffer holds records of different sizes without a gap, and after them whatever was there before. A
reader is given an offset, and returns what it makes of the record there and the offset of the next
one.
-/

namespace Records

open Ending

variable {β ρ γ ε : Type*}

/-- The bytes of all records. -/
def layout (encode : ρ → List β) (records : List ρ) : List β := records.flatMap encode

/-- What is made of each record at its offset. -/
def atOffsets (encode : ρ → List β) (f : ℕ → ρ → γ) : ℕ → List ρ → List γ
  | _, [] => []
  | i, r :: records => f i r :: atOffsets encode f (i + (encode r).length) records

/-- The loop over the records of a buffer. -/
def loop (readAt : List β → ℕ → Ending ε (γ × ℕ)) (buffer : List β) (length : ℕ) :
    ℕ → ℕ → Ending ε (List γ)
  | 0, i => if i < length then waits else done []
  | fuel + 1, i =>
      if i < length then do
        let (made, i) ← readAt buffer i
        let later ← loop readAt buffer length fuel i
        done (made :: later)
      else done []

/-- A reader that makes `f i r` of a record `r` at the offset `i`, whatever is around it. -/
structure Reads (encode : ρ → List β) (f : ℕ → ρ → γ)
    (readAt : List β → ℕ → Ending ε (γ × ℕ)) : Prop where
  length_pos : ∀ r, 0 < (encode r).length
  read : ∀ front r rest, readAt (front ++ (encode r ++ rest)) front.length =
    done (f front.length r, front.length + (encode r).length)

variable {encode : ρ → List β} {f : ℕ → ρ → γ} {readAt : List β → ℕ → Ending ε (γ × ℕ)}

@[simp] theorem layout_nil : layout encode [] = [] := rfl

@[simp] theorem layout_cons (r : ρ) (records : List ρ) :
    layout encode (r :: records) = encode r ++ layout encode records := rfl

theorem length_atOffsets (i : ℕ) (records : List ρ) :
    (atOffsets encode f i records).length = records.length := by
  induction records generalizing i with
  | nil => rfl
  | cons r records ih => exact congrArg Nat.succ (ih _)

/-- A record is found as far from the start as the ones before it are long. -/
theorem atOffsets_append (i : ℕ) (before after : List ρ) :
    atOffsets encode f i (before ++ after) = atOffsets encode f i before ++
      atOffsets encode f (i + (layout encode before).length) after := by
  induction before generalizing i with
  | nil => rfl
  | cons r before ih =>
      rw [List.cons_append, atOffsets, ih, atOffsets, layout_cons, List.length_append,
        Nat.add_assoc, List.cons_append]

theorem exists_cons_of_length {records : List ρ}
    (hlength : 0 < (layout encode records).length) : ∃ r later, records = r :: later := by
  cases records with
  | nil => cases hlength
  | cons r later => exact ⟨r, later, rfl⟩

/-- The loop takes the records in order and ends behind the last of them. -/
theorem Reads.loop_eq (h : Reads encode f readAt) {fuel : ℕ} {records : List ρ}
    (hfuel : records.length ≤ fuel) (front rest : List β) :
    loop readAt (front ++ (layout encode records ++ rest))
        (front.length + (layout encode records).length) fuel front.length =
      done (atOffsets encode f front.length records) := by
  induction records generalizing fuel front with
  | nil =>
      cases fuel with
      | zero => simp [loop, atOffsets]
      | succ fuel => simp [loop, atOffsets]
  | cons r records ih =>
      cases fuel with
      | zero => simp at hfuel
      | succ fuel =>
          have hpos := h.length_pos r
          have hread := h.read front r (layout encode records ++ rest)
          have hrest := ih (by simpa using hfuel) (front ++ encode r)
          simp only [List.append_assoc, List.length_append, Nat.add_assoc] at hrest
          rw [loop, layout_cons, List.length_append, if_pos (by omega), List.append_assoc, hread,
            bind_done]
          simp only [hrest, bind_done, atOffsets]

end Records
