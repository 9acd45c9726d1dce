import Mathlib.Data.List.Nodup
import Mathlib.Logic.Function.Basic

/-! # Singly linked lists in a heap

Cells lie at addresses, and each has the address of the next one or a null pointer. What a walk
visits is a list of addresses with their values. A cell is taken out by writing the link before it,
which is the head of the list or a field of the cell before.
-/

namespace LinkedList

variable {α : Type*}

structure Cell (α : Type*) where
  value : α
  next : Option ℕ
  deriving DecidableEq, Repr

/-- The cells that are allocated. -/
abbrev Heap (α : Type*) := ℕ → Option (Cell α)

/-- `malloc` gives an address that is not in use, or none. -/
structure Allocator (α : Type*) where
  malloc : Heap α → Option ℕ
  fresh : ∀ (heap : Heap α) (a : ℕ), malloc heap = some a → heap a = none

/-- An allocator of a single cell. -/
def Allocator.single (a : ℕ) : Allocator α where
  malloc heap := if (heap a).isNone then some a else none
  fresh heap b h := by
    split at h
    · cases h
      simpa using ‹(heap a).isNone = true›
    · cases h

namespace Heap

def store (heap : Heap α) (a : ℕ) (cell : Cell α) : Heap α := Function.update heap a (some cell)

def free (heap : Heap α) (a : ℕ) : Heap α := Function.update heap a none

@[simp] theorem store_self (heap : Heap α) (a : ℕ) (cell : Cell α) :
    heap.store a cell a = some cell := Function.update_self ..

@[simp] theorem store_of_ne {heap : Heap α} {a b : ℕ} {cell : Cell α} (h : b ≠ a) :
    heap.store a cell b = heap b := Function.update_of_ne h ..

@[simp] theorem free_self (heap : Heap α) (a : ℕ) : heap.free a a = none :=
  Function.update_self ..

@[simp] theorem free_of_ne {heap : Heap α} {a b : ℕ} (h : b ≠ a) : heap.free a b = heap b :=
  Function.update_of_ne h ..

end Heap

/-! ## Segments -/

/-- A walk from `start` visits the entries and arrives at `stop`. -/
inductive Segment (heap : Heap α) : Option ℕ → List (ℕ × α) → Option ℕ → Prop where
  | nil (a : Option ℕ) : Segment heap a [] a
  | cons {a : ℕ} {x : α} {next stop : Option ℕ} {entries : List (ℕ × α)} :
      heap a = some ⟨x, next⟩ → Segment heap next entries stop →
      Segment heap (some a) ((a, x) :: entries) stop

namespace Segment

variable {heap heap' : Heap α} {start middle stop : Option ℕ} {entries : List (ℕ × α)}

theorem append {first second : List (ℕ × α)} (h₁ : Segment heap start first middle)
    (h₂ : Segment heap middle second stop) : Segment heap start (first ++ second) stop := by
  induction h₁ with
  | nil a => exact h₂
  | cons hcell _ ih => exact .cons hcell (ih h₂)

theorem split {first second : List (ℕ × α)} (h : Segment heap start (first ++ second) stop) :
    ∃ middle, Segment heap start first middle ∧ Segment heap middle second stop := by
  induction first generalizing start with
  | nil => exact ⟨start, .nil start, h⟩
  | cons entry first ih =>
      cases h with
      | cons hcell hrest =>
          obtain ⟨middle, hfirst, hsecond⟩ := ih hrest
          exact ⟨middle, .cons hcell hfirst, hsecond⟩

/-- A walk depends only on the cells that it visits. -/
theorem congr (h : Segment heap start entries stop)
    (hsame : ∀ a ∈ entries.map Prod.fst, heap' a = heap a) :
    Segment heap' start entries stop := by
  induction h with
  | nil a => exact .nil a
  | cons hcell _ ih =>
      refine .cons ((hsame _ (by simp)).trans hcell) (ih fun a ha => hsame a ?_)
      exact List.mem_cons_of_mem _ ha

theorem allocated (h : Segment heap start entries stop) {a : ℕ}
    (ha : a ∈ entries.map Prod.fst) : heap a ≠ none := by
  induction h with
  | nil _ => simp at ha
  | cons hcell _ ih =>
      rcases List.mem_cons.mp ha with rfl | ha
      · simp [hcell]
      · exact ih ha

end Segment

/-! ## Lists -/

/-- The address of the first entry. -/
def first (entries : List (ℕ × α)) : Option ℕ := entries.head?.map Prod.fst

/-- The address of the last entry. -/
def last (entries : List (ℕ × α)) : Option ℕ := entries.getLast?.map Prod.fst

@[simp] theorem first_nil : first ([] : List (ℕ × α)) = none := rfl

@[simp] theorem first_cons (a : ℕ) (x : α) (entries : List (ℕ × α)) :
    first ((a, x) :: entries) = some a := rfl

@[simp] theorem last_nil : last ([] : List (ℕ × α)) = none := rfl

@[simp] theorem last_concat (entries : List (ℕ × α)) (a : ℕ) (x : α) :
    last (entries ++ [(a, x)]) = some a := by simp [last]

theorem Segment.start_eq {heap : Heap α} {start : Option ℕ} {entries : List (ℕ × α)}
    (h : Segment heap start entries none) : start = first entries := by
  cases h with
  | nil => rfl
  | cons _ _ => rfl

/-- The list behind a head. -/
structure IsList (heap : Heap α) (head : Option ℕ) (entries : List (ℕ × α)) : Prop where
  segment : Segment heap head entries none
  nodup : (entries.map Prod.fst).Nodup

namespace IsList

variable {heap : Heap α} {head : Option ℕ}

theorem empty (heap : Heap α) : IsList heap none [] := ⟨.nil none, List.nodup_nil⟩

theorem head_eq {entries : List (ℕ × α)} (h : IsList heap head entries) : head = first entries :=
  h.segment.start_eq

/-- What lies at the address of an entry. -/
theorem cell {before rest : List (ℕ × α)} {a : ℕ} {x : α}
    (h : IsList heap head (before ++ (a, x) :: rest)) : heap a = some ⟨x, first rest⟩ := by
  obtain ⟨middle, -, hlater⟩ := h.segment.split
  cases hlater with
  | cons hcell hrest => rw [hcell, hrest.start_eq]

/-- A new cell goes before the list. -/
theorem push {entries : List (ℕ × α)} (h : IsList heap head entries) {a : ℕ}
    (hfresh : heap a = none) (x : α) :
    IsList (heap.store a ⟨x, head⟩) (some a) ((a, x) :: entries) := by
  have hnew : a ∉ entries.map Prod.fst := fun ha => h.segment.allocated ha hfresh
  refine ⟨.cons (Heap.store_self ..) (h.segment.congr fun b hb => ?_),
    List.nodup_cons.mpr ⟨hnew, h.nodup⟩⟩
  exact Heap.store_of_ne (ne_of_mem_of_not_mem hb hnew)

/-- The first cell is taken out by moving the head on. -/
theorem unlink_head {a : ℕ} {x : α} {rest : List (ℕ × α)} (h : IsList heap head ((a, x) :: rest)) :
    IsList (heap.free a) (first rest) rest := by
  obtain ⟨hsegment, hnodup⟩ := h
  obtain ⟨hnew, hrest⟩ := List.nodup_cons.mp hnodup
  cases hsegment with
  | cons hcell hsegment =>
      rw [← hsegment.start_eq]
      refine ⟨hsegment.congr fun b hb => ?_, hrest⟩
      exact Heap.free_of_ne (ne_of_mem_of_not_mem hb hnew)

/-- Any other cell is taken out by linking the one before it to the one after it. -/
theorem unlink_after {before rest : List (ℕ × α)} {p a : ℕ} {y x : α}
    (h : IsList heap head (before ++ (p, y) :: (a, x) :: rest)) :
    p ≠ a ∧
      IsList ((heap.store p ⟨y, first rest⟩).free a) head (before ++ (p, y) :: rest) := by
  obtain ⟨hsegment, hnodup⟩ := h
  have hsublist : (before ++ (p, y) :: rest).Sublist (before ++ (p, y) :: (a, x) :: rest) :=
    (List.Sublist.refl before).append ((List.sublist_cons_self (a, x) rest).cons_cons (p, y))
  have hnodup' := hnodup.sublist (hsublist.map Prod.fst)
  simp only [List.map_append, List.map_cons, List.nodup_append, List.nodup_cons,
    List.mem_cons] at hnodup
  obtain ⟨-, ⟨hp, ha, -⟩, hdisjoint⟩ := hnodup
  have hpa : p ≠ a := fun heq => hp (Or.inl heq)
  refine ⟨hpa, ?_, hnodup'⟩
  obtain ⟨middle, hbefore, hlater⟩ := hsegment.split
  cases hlater with
  | cons hpcell hlater =>
      cases hlater with
      | cons hacell hrest =>
          rw [← hrest.start_eq]
          refine Segment.append (hbefore.congr fun b hb => ?_)
            (.cons ?_ (hrest.congr fun b hb => ?_))
          · rw [Heap.free_of_ne (hdisjoint b hb a (Or.inr (Or.inl rfl))),
              Heap.store_of_ne (hdisjoint b hb p (Or.inl rfl))]
          · rw [Heap.free_of_ne hpa, Heap.store_self]
          · have hbp : b ≠ p := fun heq => hp (Or.inr (heq ▸ hb))
            have hba : b ≠ a := fun heq => ha (heq ▸ hb)
            rw [Heap.free_of_ne hba, Heap.store_of_ne hbp]

/-- A cell gets another value and keeps its link. -/
theorem store_value {before rest : List (ℕ × α)} {a : ℕ} {x y : α} {next : Option ℕ}
    (h : IsList heap head (before ++ (a, x) :: rest)) (hcell : heap a = some ⟨x, next⟩) :
    IsList (heap.store a ⟨y, next⟩) head (before ++ (a, y) :: rest) := by
  obtain ⟨hsegment, hnodup⟩ := h
  have haddresses : (before ++ (a, y) :: rest).map Prod.fst =
      (before ++ (a, x) :: rest).map Prod.fst := by simp
  refine ⟨?_, haddresses ▸ hnodup⟩
  simp only [List.map_append, List.map_cons, List.nodup_append, List.nodup_cons,
    List.mem_cons] at hnodup
  obtain ⟨-, ⟨ha, -⟩, hdisjoint⟩ := hnodup
  obtain ⟨middle, hbefore, hlater⟩ := hsegment.split
  cases hlater with
  | cons hacell hrest =>
      cases Option.some.inj (hacell.symm.trans hcell)
      refine Segment.append (hbefore.congr fun b hb => ?_)
        (.cons (Heap.store_self ..) (hrest.congr fun b hb => ?_))
      · exact Heap.store_of_ne (hdisjoint b hb a (Or.inl rfl))
      · exact Heap.store_of_ne (ne_of_mem_of_not_mem hb ha)

end IsList

/-! ## Lists that share a heap -/

def addresses (entries : List (ℕ × α)) : List ℕ := entries.map Prod.fst

/-- The heap consists of the cells of the lists, and no cell is in two of them. -/
structure Shares {ι : Type*} (heap : Heap α) (head : ι → Option ℕ)
    (entries : ι → List (ℕ × α)) : Prop where
  isList : ∀ i, IsList heap (head i) (entries i)
  disjoint : ∀ i j a, a ∈ addresses (entries i) → a ∈ addresses (entries j) → i = j
  covered : ∀ a, heap a ≠ none → ∃ i, a ∈ addresses (entries i)

namespace Shares

variable {ι : Type*} {heap : Heap α} {head : ι → Option ℕ} {entries : ι → List (ℕ × α)}

theorem empty : Shares (fun _ => none : Heap α) (fun _ : ι => none) (fun _ => []) where
  isList := fun _ => IsList.empty _
  disjoint := fun _ _ _ h => absurd h List.not_mem_nil
  covered := fun _ h => absurd rfl h

variable [DecidableEq ι]

/-- One of the lists changes. Its new cells were free, the cells that it gives up are freed, and
no other cell is touched. -/
theorem replace (h : Shares heap head entries) (i : ι) {heap' : Heap α} {head' : Option ℕ}
    {entries' : List (ℕ × α)} (hlist : IsList heap' head' entries')
    (hframe : ∀ a, a ∉ addresses (entries i) → a ∉ addresses entries' → heap' a = heap a)
    (hfresh : ∀ a ∈ addresses entries', a ∈ addresses (entries i) ∨ heap a = none)
    (hfreed : ∀ a ∈ addresses (entries i), a ∉ addresses entries' → heap' a = none) :
    Shares heap' (Function.update head i head') (Function.update entries i entries') := by
  -- a cell of another list is in neither version of this one
  have hother : ∀ j a, j ≠ i → a ∈ addresses (entries j) →
      a ∉ addresses (entries i) ∧ a ∉ addresses entries' := by
    intro j a hj ha
    have hold : a ∉ addresses (entries i) := fun hmem => hj (h.disjoint j i a ha hmem)
    refine ⟨hold, fun hmem => ?_⟩
    rcases hfresh a hmem with hmem | hnone
    · exact hold hmem
    · exact (h.isList j).segment.allocated ha hnone
  refine ⟨fun j => ?_, fun j k a hj hk => ?_, fun a ha => ?_⟩
  · by_cases hj : j = i
    · subst hj
      simpa using hlist
    · rw [Function.update_of_ne hj, Function.update_of_ne hj]
      refine ⟨(h.isList j).segment.congr fun a ha => ?_, (h.isList j).nodup⟩
      obtain ⟨hold, hnew⟩ := hother j a hj ha
      exact hframe a hold hnew
  · by_cases hji : j = i
    · by_cases hki : k = i
      · exact hji.trans hki.symm
      · subst hji
        rw [Function.update_self] at hj
        rw [Function.update_of_ne hki] at hk
        exact absurd hj (hother k a hki hk).2
    · rw [Function.update_of_ne hji] at hj
      by_cases hki : k = i
      · subst hki
        rw [Function.update_self] at hk
        exact absurd hk (hother j a hji hj).2
      · rw [Function.update_of_ne hki] at hk
        exact h.disjoint j k a hj hk
  · by_cases hnew : a ∈ addresses entries'
    · exact ⟨i, by simpa using hnew⟩
    · by_cases hold : a ∈ addresses (entries i)
      · exact absurd (hfreed a hold hnew) ha
      · rw [hframe a hold hnew] at ha
        obtain ⟨j, hj⟩ := h.covered a ha
        have hji : j ≠ i := fun heq => hold (heq ▸ hj)
        exact ⟨j, by simpa [Function.update_of_ne hji] using hj⟩

/-- A new cell goes before one of the lists. -/
theorem push (h : Shares heap head entries) (i : ι) {a : ℕ} (hnone : heap a = none) (x : α) :
    Shares (heap.store a ⟨x, head i⟩) (Function.update head i (some a))
      (Function.update entries i ((a, x) :: entries i)) := by
  refine h.replace i ((h.isList i).push hnone x) (fun b _ hb => ?_) (fun b hb => ?_)
    fun b hb hb' => absurd (List.mem_cons_of_mem _ hb) hb'
  · exact Heap.store_of_ne fun heq => hb (heq ▸ List.mem_cons_self)
  · rcases List.mem_cons.mp hb with rfl | hb
    · exact Or.inr hnone
    · exact Or.inl hb

/-- A cell of one of the lists gets another value. -/
theorem store_value (h : Shares heap head entries) (i : ι) {before rest : List (ℕ × α)} {a : ℕ}
    {x y : α} {next : Option ℕ} (hentries : entries i = before ++ (a, x) :: rest)
    (hcell : heap a = some ⟨x, next⟩) :
    Shares (heap.store a ⟨y, next⟩) head
      (Function.update entries i (before ++ (a, y) :: rest)) := by
  have haddresses : addresses (before ++ (a, y) :: rest) = addresses (entries i) := by
    simp [addresses, hentries]
  have hlist := hentries ▸ h.isList i
  rw [← Function.update_eq_self i head]
  refine h.replace i (hlist.store_value hcell) (fun b _ hb => ?_) (fun b hb => ?_)
    fun b hb hb' => absurd (haddresses ▸ hb) hb'
  · exact Heap.store_of_ne fun heq => hb (by simp [addresses, heq])
  · exact Or.inl (haddresses ▸ hb)

/-- The first cell of one of the lists is taken out. -/
theorem unlink_head (h : Shares heap head entries) (i : ι) {a : ℕ} {x : α}
    {rest : List (ℕ × α)} (hentries : entries i = (a, x) :: rest) :
    Shares (heap.free a) (Function.update head i (first rest))
      (Function.update entries i rest) := by
  have hlist := hentries ▸ h.isList i
  have haddresses : addresses (entries i) = a :: addresses rest := by rw [hentries]; rfl
  refine h.replace i hlist.unlink_head (fun b hb _ => ?_) (fun b hb => ?_) fun b hb hb' => ?_
  · exact Heap.free_of_ne fun heq => hb (by simp [haddresses, heq])
  · exact Or.inl (haddresses ▸ List.mem_cons_of_mem _ hb)
  · rcases List.mem_cons.mp (haddresses ▸ hb) with rfl | hb
    · exact Heap.free_self ..
    · exact absurd hb hb'

/-- Any other cell is taken out by writing the link of the one before it. -/
theorem unlink_after (h : Shares heap head entries) (i : ι) {before rest : List (ℕ × α)}
    {p a : ℕ} {y x : α} (hentries : entries i = before ++ (p, y) :: (a, x) :: rest) :
    Shares ((heap.store p ⟨y, first rest⟩).free a) head
      (Function.update entries i (before ++ (p, y) :: rest)) := by
  have hlist := hentries ▸ h.isList i
  obtain ⟨-, hlist'⟩ := hlist.unlink_after
  have haddresses : ∀ b, b ∈ addresses (entries i) ↔
      b ∈ addresses (before ++ (p, y) :: rest) ∨ b = a := by
    intro b
    simp only [hentries, addresses, List.map_append, List.map_cons, List.mem_append,
      List.mem_cons]
    grind
  rw [← Function.update_eq_self i head]
  refine h.replace i hlist' (fun b hb hb' => ?_) (fun b hb => ?_) fun b hb hb' => ?_
  · have hba : b ≠ a := fun heq => hb ((haddresses b).mpr (Or.inr heq))
    have hbp : b ≠ p := fun heq => hb' (by simp [addresses, heq])
    rw [Heap.free_of_ne hba, Heap.store_of_ne hbp]
  · exact Or.inl ((haddresses b).mpr (Or.inl hb))
  · rcases (haddresses b).mp hb with hb | rfl
    · exact absurd hb hb'
    · exact Heap.free_self ..

end Shares

end LinkedList
