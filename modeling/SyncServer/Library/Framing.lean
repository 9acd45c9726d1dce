import Mathlib.Data.List.Basic

/-! # Streams of frames

A frame is a list of items that belong together. A stream is whole when it is a concatenation
of frames, and begun when it can be gone on with to a whole one.
-/

namespace Framing

variable {α : Type*} {Frame : List α → Prop}

def Whole (Frame : List α → Prop) (s : List α) : Prop :=
  ∃ frames : List (List α), (∀ f ∈ frames, Frame f) ∧ frames.flatten = s

def Begun (Frame : List α → Prop) (s : List α) : Prop := ∃ rest, Whole Frame (s ++ rest)

theorem whole_nil : Whole Frame [] := ⟨[], by simp, rfl⟩

theorem whole_of_frame {f : List α} (hf : Frame f) : Whole Frame f := ⟨[f], by simpa, by simp⟩

theorem Whole.append {s t : List α} (hs : Whole Frame s) (ht : Whole Frame t) :
    Whole Frame (s ++ t) := by
  obtain ⟨fs, hfs, rfl⟩ := hs
  obtain ⟨gs, hgs, rfl⟩ := ht
  refine ⟨fs ++ gs, fun f hf => ?_, by simp⟩
  rcases List.mem_append.mp hf with hf | hf
  · exact hfs f hf
  · exact hgs f hf

theorem Whole.begun {s : List α} (hs : Whole Frame s) : Begun Frame s := ⟨[], by simpa⟩

/-- A whole stream with the beginning of a frame. -/
theorem Whole.begun_append {s part rest : List α} (hs : Whole Frame s)
    (h : Frame (part ++ rest)) : Begun Frame (s ++ part) :=
  ⟨rest, by rw [List.append_assoc]; exact hs.append (whole_of_frame h)⟩

/-- If no frame begins another, a stream that starts with a frame goes on with frames. -/
theorem Whole.of_append (hfree : ∀ f g, Frame f → Frame g → f <+: g → f = g)
    (hne : ¬Frame []) {f s : List α} (hf : Frame f) (h : Whole Frame (f ++ s)) :
    Whole Frame s := by
  obtain ⟨frames, hframes, heq⟩ := h
  induction frames with
  | nil =>
      obtain rfl : f = [] := (List.append_eq_nil_iff.mp heq.symm).1
      exact absurd hf hne
  | cons g frames _ =>
      have hg := hframes g List.mem_cons_self
      rw [List.flatten_cons] at heq
      have hfg : f = g := by
        rcases List.prefix_or_prefix_of_prefix ⟨s, rfl⟩ ⟨frames.flatten, heq⟩ with h | h
        · exact hfree f g hf hg h
        · exact (hfree g f hg hf h).symm
      subst hfg
      exact ⟨frames, fun g hg => hframes g (List.mem_cons_of_mem _ hg),
        List.append_cancel_left heq⟩

/-- A whole stream with a first item starts with a frame. -/
theorem Whole.exists_frame (hne : ¬Frame []) {x : α} {s : List α} (h : Whole Frame (x :: s)) :
    ∃ f, Frame (x :: f) ∧ f <+: s := by
  obtain ⟨frames, hframes, heq⟩ := h
  cases frames with
  | nil => cases heq
  | cons g frames =>
      have hg := hframes g List.mem_cons_self
      cases g with
      | nil => exact absurd hg hne
      | cons y f =>
          rw [List.flatten_cons, List.cons_append] at heq
          obtain ⟨rfl, hs⟩ := List.cons.inj heq
          exact ⟨f, hg, frames.flatten, hs⟩

end Framing
