import Mathlib.Data.Option.Basic

/-! # Runs of a partial step function

A system is given by `step s a`, which is `none` when the action `a` is not enabled in the
state `s`. The rules below carry a fact about one step to every run.
-/

namespace Transition

variable {σ α β : Type*} (step : σ → α → Option σ)

/-- The state reached by a list of actions, if every one of them is enabled in turn. -/
def run : σ → List α → Option σ
  | s, [] => some s
  | s, a :: as => (step s a).bind fun t => run t as

@[simp] theorem run_nil (s : σ) : run step s [] = some s := rfl

theorem run_cons (s : σ) (a : α) (as : List α) :
    run step s (a :: as) = (step s a).bind fun t => run step t as := rfl

theorem run_append (s : σ) (as bs : List α) :
    run step s (as ++ bs) = (run step s as).bind fun t => run step t bs := by
  induction as generalizing s with
  | nil => rfl
  | cons a as ih => simp only [List.cons_append, run_cons, ih, Option.bind_assoc]

variable {step}

theorem run_cons_eq_some {s t : σ} {a : α} {as : List α} :
    run step s (a :: as) = some t ↔ ∃ u, step s a = some u ∧ run step u as = some t := by
  rw [run_cons, Option.bind_eq_some_iff]

theorem run_append_eq_some {s t : σ} {as bs : List α} :
    run step s (as ++ bs) = some t ↔ ∃ u, run step s as = some u ∧ run step u bs = some t := by
  rw [run_append, Option.bind_eq_some_iff]

theorem run_concat_eq_some {s t : σ} {as : List α} {a : α} :
    run step s (as ++ [a]) = some t ↔ ∃ u, run step s as = some u ∧ step u a = some t := by
  simp only [run_append_eq_some, run_cons_eq_some, run_nil, Option.some.injEq, exists_eq_right]

/-- What holds at the start and survives every step holds at the end of every run. -/
theorem run_invariant {I : σ → Prop} (hstep : ∀ s a t, I s → step s a = some t → I t)
    {s t : σ} {as : List α} (hs : I s) (h : run step s as = some t) : I t := by
  induction as generalizing s with
  | nil =>
      obtain rfl := Option.some.inj h
      exact hs
  | cons a as ih =>
      obtain ⟨u, hu, h⟩ := run_cons_eq_some.mp h
      exact ih (hstep s a u hs hu) h

/-! ## Runs whose steps meet a condition -/

variable (step) in
/-- Every step of the run from `s` is taken in a state that meets `ok`. -/
def Along (ok : σ → α → Prop) : σ → List α → Prop
  | _, [] => True
  | s, a :: as => ∀ t ∈ step s a, ok s a ∧ Along ok t as

@[simp] theorem along_nil (ok : σ → α → Prop) (s : σ) : Along step ok s [] := trivial

theorem along_cons {ok : σ → α → Prop} {s : σ} {a : α} {as : List α} :
    Along step ok s (a :: as) ↔ ∀ t ∈ step s a, ok s a ∧ Along step ok t as := Iff.rfl

instance Along.decidable (ok : σ → α → Prop) [∀ s a, Decidable (ok s a)] :
    ∀ s as, Decidable (Along step ok s as)
  | _, [] => .isTrue trivial
  | s, a :: as =>
      have : ∀ t, Decidable (Along step ok t as) := fun t => Along.decidable ok t as
      match h : step s a with
      | none => .isTrue (by simp [along_cons, h])
      | some t => decidable_of_iff (ok s a ∧ Along step ok t as) (by simp [along_cons, h])

theorem Along.mono {ok ok' : σ → α → Prop} (h : ∀ s a, ok s a → ok' s a) {s : σ}
    {as : List α} (hs : Along step ok s as) : Along step ok' s as := by
  induction as generalizing s with
  | nil => trivial
  | cons a as ih => exact fun t ht => ⟨h s a (hs t ht).1, ih (hs t ht).2⟩

theorem Along.and {ok ok' : σ → α → Prop} {s : σ} {as : List α} (h : Along step ok s as)
    (h' : Along step ok' s as) : Along step (fun s a => ok s a ∧ ok' s a) s as := by
  induction as generalizing s with
  | nil => trivial
  | cons a as ih => exact fun t ht => ⟨⟨(h t ht).1, (h' t ht).1⟩, ih (h t ht).2 (h' t ht).2⟩

/-- An invariant that only the steps meeting `ok` have to preserve. -/
theorem Along.invariant {ok : σ → α → Prop} {I : σ → Prop}
    (hstep : ∀ s a t, I s → ok s a → step s a = some t → I t)
    {s t : σ} {as : List α} (hs : I s) (hok : Along step ok s as)
    (h : run step s as = some t) : I t := by
  induction as generalizing s with
  | nil =>
      obtain rfl := Option.some.inj h
      exact hs
  | cons a as ih =>
      obtain ⟨u, hu, h⟩ := run_cons_eq_some.mp h
      obtain ⟨ha, hok⟩ := hok u hu
      exact ih (hstep s a u hs ha hu) hok h

/-- A fact about the enabled steps that the invariant gives is met along the whole run. -/
theorem Along.of_invariant {ok good : σ → α → Prop} {I : σ → Prop}
    (hstep : ∀ s a t, I s → ok s a → step s a = some t → I t)
    (hgood : ∀ s a, I s → ok s a → good s a)
    {s : σ} {as : List α} (hs : I s) (hok : Along step ok s as) : Along step good s as := by
  induction as generalizing s with
  | nil => trivial
  | cons a as ih =>
      intro t ht
      obtain ⟨ha, hok⟩ := hok t ht
      exact ⟨hgood s a hs ha, ih (hstep s a t hs ha ht) hok⟩

/-! ## Runs whose actions are tried under a condition -/

variable (step) in
/-- Every action of the list, up to the first that is not enabled, is tried in a state that meets
`ok`. -/
def Tried (ok : σ → α → Prop) : σ → List α → Prop
  | _, [] => True
  | s, a :: as => ok s a ∧ ∀ t ∈ step s a, Tried ok t as

instance Tried.decidable (ok : σ → α → Prop) [∀ s a, Decidable (ok s a)] :
    ∀ s as, Decidable (Tried step ok s as)
  | _, [] => .isTrue trivial
  | s, a :: as =>
      have : ∀ t, Decidable (Tried step ok t as) := fun t => Tried.decidable ok t as
      match h : step s a with
      | none => decidable_of_iff (ok s a) (by simp [Tried, h])
      | some t => decidable_of_iff (ok s a ∧ Tried step ok t as) (by simp [Tried, h])

theorem tried_congr {ok ok' : σ → α → Prop} (h : ∀ s a, ok s a ↔ ok' s a) {s : σ}
    {as : List α} : Tried step ok s as ↔ Tried step ok' s as := by
  induction as generalizing s with
  | nil => exact Iff.rfl
  | cons a as ih => exact and_congr (h s a) (forall₂_congr fun _ _ => ih)

theorem Tried.along {ok : σ → α → Prop} {s : σ} {as : List α} (h : Tried step ok s as) :
    Along step ok s as := by
  induction as generalizing s with
  | nil => trivial
  | cons a as ih => exact fun t ht => ⟨h.1, ih (h.2 t ht)⟩

/-- A relation between two systems that every action tried under the condition preserves. -/
theorem Tried.simulate {τ : Type*} {step' : τ → α → Option τ} {ok : σ → α → Prop}
    {R : σ → τ → Prop}
    (hstep : ∀ s s' a t, R s s' → ok s a → step s a = some t → ∃ t', step' s' a = some t' ∧ R t t')
    {s t : σ} {s' : τ} {as : List α} (hs : R s s') (hok : Tried step ok s as)
    (h : run step s as = some t) : ∃ t', run step' s' as = some t' ∧ R t t' := by
  induction as generalizing s s' with
  | nil =>
      obtain rfl := Option.some.inj h
      exact ⟨s', rfl, hs⟩
  | cons a as ih =>
      obtain ⟨u, hu, h⟩ := run_cons_eq_some.mp h
      obtain ⟨u', hu', hrel⟩ := hstep s s' a u hs hok.1 hu
      obtain ⟨t', ht', hrel'⟩ := ih hrel (hok.2 u hu) h
      exact ⟨t', run_cons_eq_some.mpr ⟨u', hu', ht'⟩, hrel'⟩

/-! ## Runs whose states meet a condition -/

variable (step) in
/-- Every state that the run from `s` reaches meets `P`. -/
def Always (P : σ → Prop) : σ → List α → Prop
  | s, [] => P s
  | s, a :: as => P s ∧ ∀ t ∈ step s a, Always P t as

theorem Always.head {P : σ → Prop} {s : σ} {as : List α} (h : Always step P s as) : P s := by
  cases as with
  | nil => exact h
  | cons a as => exact h.1

/-- The last state of the run is one of them. -/
theorem Always.last {P : σ → Prop} {s t : σ} {as : List α} (h : Always step P s as)
    (hrun : run step s as = some t) : P t := by
  induction as generalizing s with
  | nil =>
      obtain rfl := Option.some.inj hrun
      exact h
  | cons a as ih =>
      obtain ⟨u, hu, hrun⟩ := run_cons_eq_some.mp hrun
      exact ih (h.2 u hu) hrun

instance Always.decidable (P : σ → Prop) [DecidablePred P] :
    ∀ s as, Decidable (Always step P s as)
  | s, [] => inferInstanceAs (Decidable (P s))
  | s, a :: as =>
      have : ∀ t, Decidable (Always step P t as) := fun t => Always.decidable P t as
      match h : step s a with
      | none => decidable_of_iff (P s) (by simp [Always, h])
      | some t => decidable_of_iff (P s ∧ Always step P t as) (by simp [Always, h])

theorem Always.mono {P Q : σ → Prop} (h : ∀ s, P s → Q s) {s : σ} {as : List α}
    (hs : Always step P s as) : Always step Q s as := by
  induction as generalizing s with
  | nil => exact h s hs
  | cons a as ih => exact ⟨h s hs.1, fun t ht => ih (hs.2 t ht)⟩

/-- An invariant that the steps meeting `ok` preserve holds in every state reached. -/
theorem Along.always {ok : σ → α → Prop} {I : σ → Prop}
    (hstep : ∀ s a t, I s → ok s a → step s a = some t → I t)
    {s : σ} {as : List α} (hs : I s) (hok : Along step ok s as) : Always step I s as := by
  induction as generalizing s with
  | nil => exact hs
  | cons a as ih => exact ⟨hs, fun t ht => ih (hstep s a t hs (hok t ht).1 ht) (hok t ht).2⟩

/-- An invariant that every step preserves holds in every state reached. -/
theorem Always.of_invariant {I : σ → Prop} (hstep : ∀ s a t, I s → step s a = some t → I t)
    {s : σ} (hs : I s) (as : List α) : Always step I s as := by
  induction as generalizing s with
  | nil => exact hs
  | cons a as ih => exact ⟨hs, fun t ht => ih (hstep s a t hs ht)⟩

/-- If a step between two good states meets `ok`, so does every step of a run through them. -/
theorem Always.along {ok : σ → α → Prop} {P : σ → Prop}
    (hstep : ∀ s a t, step s a = some t → P s → P t → ok s a)
    {s : σ} {as : List α} (h : Always step P s as) : Along step ok s as := by
  induction as generalizing s with
  | nil => trivial
  | cons a as ih =>
      exact fun t ht => ⟨hstep s a t ht h.1 (h.2 t ht).head, ih (h.2 t ht)⟩

/-- A fact about the last state that goes back through every step from a good state: it holds at
the start, and every step meets what the fact says of the step before it. -/
theorem Always.along_of_last {ok : σ → α → Prop} {P J : σ → Prop}
    (hback : ∀ s a t, step s a = some t → P s → J t → J s ∧ ok s a)
    {s t : σ} {as : List α} (h : Always step P s as) (hrun : run step s as = some t) (ht : J t) :
    J s ∧ Along step ok s as := by
  induction as generalizing s with
  | nil =>
      obtain rfl := Option.some.inj hrun
      exact ⟨ht, trivial⟩
  | cons a as ih =>
      obtain ⟨u, hu, hrun⟩ := run_cons_eq_some.mp hrun
      obtain ⟨hJ, hok⟩ := ih (h.2 u hu) hrun
      obtain ⟨hs, ha⟩ := hback s a u hu h.head hJ
      refine ⟨hs, fun v hv => ?_⟩
      obtain rfl := Option.some.inj (hu.symm.trans hv)
      exact ⟨ha, hok⟩

/-! ## Two processes that share a state

Each has steps of its own. An action of the pair is a step of one of them.
-/

section Interleave

variable (left : σ → α → Option σ) (right : σ → β → Option σ)

/-- The steps of both processes, in any order. -/
def interleave : σ → α ⊕ β → Option σ
  | s, .inl a => left s a
  | s, .inr b => right s b

/-- What the first process does in an interleaving. -/
def lefts (as : List (α ⊕ β)) : List α := as.filterMap Sum.getLeft?

/-- What the second process does in an interleaving. -/
def rights (as : List (α ⊕ β)) : List β := as.filterMap Sum.getRight?

variable {left right}

/-- An invariant that speaks of what the first process has still to do. -/
theorem interleave_invariant {I : List α → σ → Prop}
    (hleft : ∀ a as s t, I (a :: as) s → left s a = some t → I as t)
    (hright : ∀ as b s t, I as s → right s b = some t → I as t)
    {s t : σ} {as : List (α ⊕ β)} (hs : I (lefts as) s)
    (h : run (interleave left right) s as = some t) : I [] t := by
  induction as generalizing s with
  | nil =>
      obtain rfl := Option.some.inj h
      exact hs
  | cons action as ih =>
      obtain ⟨u, hu, hrun⟩ := run_cons_eq_some.mp h
      cases action with
      | inl a => exact ih (hleft a _ s u hs hu) hrun
      | inr b => exact ih (hright _ b s u hs hu) hrun

/-- The steps of the first process can be put between those of a run of the second, if they are
always possible and leave the relation to that run. -/
theorem interleave_simulate {R : List α → σ → σ → Prop}
    (hleft : ∀ a as s s', R (a :: as) s s' → ∃ t, left s a = some t ∧ R as t s')
    (hright : ∀ as b s s' t', R as s s' → right s' b = some t' →
      ∃ t, right s b = some t ∧ R as t t')
    {s s' t' : σ} {as : List (α ⊕ β)} (hs : R (lefts as) s s')
    (h : run right s' (rights as) = some t') :
    ∃ t, run (interleave left right) s as = some t ∧ R [] t t' := by
  induction as generalizing s s' with
  | nil =>
      obtain rfl := Option.some.inj h
      exact ⟨s, rfl, hs⟩
  | cons action as ih =>
      cases action with
      | inl a =>
          obtain ⟨u, hu, hrel⟩ := hleft a _ s s' hs
          obtain ⟨t, ht, hrel'⟩ := ih hrel h
          exact ⟨t, run_cons_eq_some.mpr ⟨u, hu, ht⟩, hrel'⟩
      | inr b =>
          obtain ⟨u', hu', h⟩ := run_cons_eq_some.mp h
          obtain ⟨u, hu, hrel⟩ := hright _ b s s' u' hs hu'
          obtain ⟨t, ht, hrel'⟩ := ih hrel h
          exact ⟨t, run_cons_eq_some.mpr ⟨u, hu, ht⟩, hrel'⟩

end Interleave

/-! ## Observers

An observer keeps a value of its own beside the state and folds the steps of the run into it.
It neither enables nor disables a step.
-/

/-- The system with an observer: `f b s a` is the new observation after the step `a` from `s`. -/
def watch (f : β → σ → α → β) (step : σ → α → Option σ) : β × σ → α → Option (β × σ)
  | (b, s), a => (step s a).map fun t => (f b s a, t)

theorem watch_eq_some {f : β → σ → α → β} {b c : β} {s t : σ} {a : α} :
    watch f step (b, s) a = some (c, t) ↔ step s a = some t ∧ f b s a = c := by
  simp [watch]

/-- Without its observations a watched run is the run itself. -/
theorem run_watch (f : β → σ → α → β) (b : β) (s : σ) (as : List α) :
    (run (watch f step) (b, s) as).map Prod.snd = run step s as := by
  induction as generalizing b s with
  | nil => rfl
  | cons a as ih =>
      simp only [run_cons, watch]
      cases step s a with
      | none => rfl
      | some t => exact ih (f b s a) t

end Transition
