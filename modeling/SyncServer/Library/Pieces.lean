import Mathlib.Data.List.Basic

/-! # Cutting a stream into pieces

A stream is cut as soon as what was taken since the last cut is a piece. Where it is cut depends on
what came before, and not on how much of it is there.
-/

namespace Pieces

variable {β : Type*} (ends : List β → Bool)

/-- The pieces of a stream, and what is left, after a piece was begun. -/
def cut (begun : List β) : List β → List (List β) × List β
  | [] => ([], begun)
  | c :: s =>
      if ends (begun ++ [c]) then
        ((begun ++ [c]) :: (cut [] s).1, (cut [] s).2)
      else cut (begun ++ [c]) s

/-- A piece that is not cut before its end. -/
structure IsPiece (piece : List β) : Prop where
  ne_nil : piece ≠ []
  ends_self : ends piece = true
  before : ∀ front rest, piece = front ++ rest → front ≠ [] → rest ≠ [] → ends front = false

variable {ends}

/-- The rest of a stream is cut after what is left of its front. -/
theorem cut_append (begun s t : List β) :
    cut ends begun (s ++ t) =
      ((cut ends begun s).1 ++ (cut ends (cut ends begun s).2 t).1,
        (cut ends (cut ends begun s).2 t).2) := by
  induction s generalizing begun with
  | nil => rfl
  | cons c s ih =>
      rw [List.cons_append, cut, cut]
      split
      · rw [ih]
        rfl
      · exact ih _

/-- Nothing is lost. -/
theorem flatten_cut (begun s : List β) :
    (cut ends begun s).1.flatten ++ (cut ends begun s).2 = begun ++ s := by
  induction s generalizing begun with
  | nil => simp [cut]
  | cons c s ih =>
      rw [cut]
      split
      · rw [List.flatten_cons, List.append_assoc, ih, List.nil_append, List.append_assoc,
          List.singleton_append]
      · rw [ih, List.append_assoc, List.singleton_append]

theorem cut_of_isPiece {begun piece : List β} (hne : piece ≠ [])
    (h : IsPiece ends (begun ++ piece)) (t : List β) :
    cut ends begun (piece ++ t) = ((begun ++ piece) :: (cut ends [] t).1, (cut ends [] t).2) := by
  induction piece generalizing begun with
  | nil => exact absurd rfl hne
  | cons c piece ih =>
      rw [List.cons_append, cut]
      cases piece with
      | nil => rw [if_pos h.ends_self, List.nil_append]
      | cons d piece =>
          have hlist : begun ++ c :: d :: piece = (begun ++ [c]) ++ d :: piece := by simp
          have hbefore : ends (begun ++ [c]) = false := h.before _ _ hlist (by simp) (by simp)
          rw [hlist] at h ⊢
          rw [hbefore, if_neg (by simp), ih (by simp) h]

/-- A stream of pieces is cut into them. -/
theorem cut_flatten {pieces : List (List β)} (h : ∀ piece ∈ pieces, IsPiece ends piece) :
    cut ends [] pieces.flatten = (pieces, []) := by
  induction pieces with
  | nil => rfl
  | cons piece pieces ih =>
      obtain ⟨hpiece, hpieces⟩ := List.forall_mem_cons.mp h
      rw [List.flatten_cons, cut_of_isPiece hpiece.ne_nil hpiece, ih hpieces, List.nil_append]

/-- Every piece was cut when it ended. -/
theorem ends_of_mem_cut {begun s piece : List β} (h : piece ∈ (cut ends begun s).1) :
    ends piece = true := by
  induction s generalizing begun with
  | nil => cases h
  | cons c s ih =>
      rw [cut] at h
      split at h
      · rcases List.mem_cons.mp h with rfl | h
        · assumption
        · exact ih h
      · exact ih h

end Pieces
