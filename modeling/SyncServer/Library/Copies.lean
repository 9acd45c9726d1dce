import Mathlib.Data.Option.Basic
import Mathlib.Logic.Function.Basic

/-! # Copies of a value that are brought up to date

An original and the copies of several holders. A holder reports the changes of its copy, the
original takes what is reported, and the other holders get a notice when its digest has changed.
A notice is answered with what the original is by then, and the holder takes that and reports it
again. All of this is under way in queues.
-/

/-- The original and the copies, and for each holder the changes that it has not reported, its
reports, the notices for it and the values that are sent to it. A change or a notice says whether
there was a value. -/
@[ext] structure Copies (ι α : Type*) where
  original : Option α
  copy : ι → Option α
  changes : ι → List Bool
  reports : ι → List (Option α)
  notices : ι → List Bool
  updates : ι → List (Option α)

namespace Copies

/-- A holder changes its copy, reports a change, has a report taken, has a notice answered, or
takes a value. -/
inductive Action (ι α : Type*) where
  | change (i : ι) (value : Option α) (events : List Bool)
  | report (i : ι)
  | accept (i : ι)
  | answer (i : ι)
  | receive (i : ι) (events : List Bool)

variable {ι α κ : Type*}

/-- What is sent of a value for a change or a notice: that it is gone, or the value itself. -/
def reading (present : Bool) (value : Option α) : List (Option α) :=
  if present then value.toList.map some else [none]

section

variable [DecidableEq ι]

/-- The copy of a holder is now `value`; the last of the events says so. -/
def assign (s : Copies ι α) (i : ι) (value : Option α) (events : List Bool) :
    Option (Copies ι α) :=
  if events.getLast? = some value.isSome then
    some { s with
      copy := Function.update s.copy i value
      changes := Function.update s.changes i (s.changes i ++ events) }
  else none

variable [DecidableEq κ] (digest : α → κ)

def step (s : Copies ι α) : Action ι α → Option (Copies ι α)
  | .change i value events => s.assign i value events
  | .report i =>
      match s.changes i with
      | [] => none
      | present :: rest =>
          some { s with
            changes := Function.update s.changes i rest
            reports := Function.update s.reports i (s.reports i ++ reading present (s.copy i)) }
  | .accept i =>
      match s.reports i with
      | [] => none
      | value :: rest =>
          some { s with
            original := value
            reports := Function.update s.reports i rest
            notices := fun j => s.notices j ++
              if j ≠ i ∧ value.map digest ≠ s.original.map digest then [value.isSome] else [] }
  | .answer i =>
      match s.notices i with
      | [] => none
      | present :: rest =>
          some { s with
            notices := Function.update s.notices i rest
            updates := Function.update s.updates i (s.updates i ++ reading present s.original) }
  | .receive i events =>
      match s.updates i with
      | [] => none
      | value :: rest =>
          let s := { s with updates := Function.update s.updates i rest }
          -- a value that is gone on both sides changes nothing
          if value = none ∧ s.copy i = none then some s else s.assign i value events

end

/-! ## Values that are only passed on -/

/-- Every value that is there or under way has a property. -/
structure All (P : α → Prop) (s : Copies ι α) : Prop where
  original : ∀ a ∈ s.original, P a
  copy : ∀ i, ∀ a ∈ s.copy i, P a
  reports : ∀ i, ∀ value ∈ s.reports i, ∀ a ∈ value, P a
  updates : ∀ i, ∀ value ∈ s.updates i, ∀ a ∈ value, P a

/-- A change that brings a new value brings one with the property. -/
def Action.Brings (P : α → Prop) : Action ι α → Prop
  | .change _ value _ => ∀ a ∈ value, P a
  | _ => True

section

variable {P : α → Prop} {s t : Copies ι α}

theorem mem_reading {present : Bool} {value : Option α} {a : α}
    (h : some a ∈ reading present value) : a ∈ value := by
  unfold reading at h
  split at h
  · obtain ⟨b, hb, hba⟩ := List.mem_map.mp h
    obtain rfl := Option.some.inj hba
    exact Option.mem_toList.mp hb
  · simp at h

theorem all_append_reading {values : List (Option α)} {present : Bool} {value : Option α}
    (h : ∀ v ∈ values, ∀ a ∈ v, P a) (hvalue : ∀ a ∈ value, P a) :
    ∀ v ∈ values ++ reading present value, ∀ a ∈ v, P a := by
  intro v hv a ha
  rcases List.mem_append.mp hv with hv | hv
  · exact h v hv a ha
  · obtain rfl := Option.mem_def.mp ha
    exact hvalue a (mem_reading hv)

variable [DecidableEq ι]

theorem forall_update {β : Type*} {Q : β → Prop} {f : ι → β} {i : ι} {b : β}
    (h : ∀ j, Q (f j)) (hb : Q b) (j : ι) : Q (Function.update f i b j) := by
  by_cases hj : j = i
  · rw [hj, Function.update_self]
    exact hb
  · rw [Function.update_of_ne hj]
    exact h j

theorem assign_eq_some {i : ι} {value : Option α} {events : List Bool} :
    s.assign i value events = some t ↔ events.getLast? = some value.isSome ∧
      t = { s with
        copy := Function.update s.copy i value
        changes := Function.update s.changes i (s.changes i ++ events) } := by
  rw [assign, Option.ite_none_right_eq_some, Option.some.injEq, eq_comm (a := t)]

theorem All.assign {i : ι} {value : Option α} {events : List Bool} (h : s.All P)
    (hvalue : ∀ a ∈ value, P a) (ht : s.assign i value events = some t) : t.All P := by
  obtain ⟨-, rfl⟩ := assign_eq_some.mp ht
  exact ⟨h.original, forall_update (Q := fun v : Option α => ∀ a ∈ v, P a) h.copy hvalue,
    h.reports, h.updates⟩

variable [DecidableEq κ] {digest : α → κ}

theorem All.step {a : Action ι α} (h : s.All P) (ha : a.Brings P)
    (hstep : step digest s a = some t) : t.All P := by
  cases a with
  | change i value events => exact h.assign ha hstep
  | report i =>
      simp only [Copies.step] at hstep
      split at hstep
      · cases hstep
      · obtain rfl := Option.some.inj hstep
        refine ⟨h.original, h.copy, ?_, h.updates⟩
        exact forall_update (Q := fun vs : List (Option α) => ∀ v ∈ vs, ∀ a ∈ v, P a) h.reports
          (all_append_reading (h.reports i) (h.copy i))
  | accept i =>
      simp only [Copies.step] at hstep
      split at hstep
      · cases hstep
      · rename_i value rest hreports
        obtain rfl := Option.some.inj hstep
        have hall := h.reports i
        rw [hreports] at hall
        refine ⟨hall value List.mem_cons_self, h.copy, ?_, h.updates⟩
        exact forall_update (Q := fun vs : List (Option α) => ∀ v ∈ vs, ∀ a ∈ v, P a) h.reports
          fun v hv => hall v (List.mem_cons_of_mem _ hv)
  | answer i =>
      simp only [Copies.step] at hstep
      split at hstep
      · cases hstep
      · obtain rfl := Option.some.inj hstep
        refine ⟨h.original, h.copy, h.reports, ?_⟩
        exact forall_update (Q := fun vs : List (Option α) => ∀ v ∈ vs, ∀ a ∈ v, P a) h.updates
          (all_append_reading (h.updates i) h.original)
  | receive i events =>
      simp only [Copies.step] at hstep
      split at hstep
      · cases hstep
      · rename_i value rest hupdates
        have hall := h.updates i
        rw [hupdates] at hall
        have hrest : All P { s with updates := Function.update s.updates i rest } := by
          refine ⟨h.original, h.copy, h.reports, ?_⟩
          exact forall_update (Q := fun vs : List (Option α) => ∀ v ∈ vs, ∀ a ∈ v, P a) h.updates
            fun v hv => hall v (List.mem_cons_of_mem _ hv)
        split at hstep
        · obtain rfl := Option.some.inj hstep
          exact hrest
        · exact hrest.assign (hall value List.mem_cons_self) hstep

end

/-! ## What is under way brings a copy up to date -/

section

variable (digest : α → κ)

/-- What is sent to the holder last has the digest that the original has now. -/
def Catches (s : Copies ι α) (i : ι) : Prop :=
  (∃ present ∈ (s.notices i).getLast?, s.original.isSome = present) ∨
    s.notices i = [] ∧ ∃ value ∈ (s.updates i).getLast?, value.map digest = s.original.map digest

/-- The copy has the digest of the original or will get a value that has, or the original is gone
and the holder is not told of that. -/
def Keeps (s : Copies ι α) (untold : Prop) (i : ι) : Prop :=
  (s.copy i).map digest = s.original.map digest ∨ s.Catches digest i ∨
    (s.original = none ∧ untold)

/-- The last change says whether the copy is there; without one, the last report is the copy;
without a report as well, the copy keeps up with the original. -/
structure Settling (s : Copies ι α) (untold : Prop) (i : ι) : Prop where
  changed : ∀ present ∈ (s.changes i).getLast?, (s.copy i).isSome = present
  reported : s.changes i = [] → ∀ value ∈ (s.reports i).getLast?, s.copy i = value
  settled : s.changes i = [] → s.reports i = [] → s.Keeps digest untold i

end

section

variable {digest : α → κ} {s t : Copies ι α} {untold : Prop} {i j : ι}

theorem reading_of_isSome {present : Bool} {value : Option α} (h : value.isSome = present) :
    reading present value = [value] := by
  subst h
  cases value with
  | none => rfl
  | some a => rfl

theorem isSome_eq_of_digest {value value' : Option α} (h : value.map digest = value'.map digest) :
    value.isSome = value'.isSome := by
  rw [← Option.isSome_map (f := digest), h, Option.isSome_map]

theorem mem_getLast?_cons {β : Type*} {a b : β} {bs : List β} (h : a ∈ bs.getLast?) :
    a ∈ (b :: bs).getLast? := by
  cases bs with
  | nil => cases h
  | cons c bs => rwa [List.getLast?_cons_cons]

theorem getLast?_append_ne_nil {β : Type*} {bs cs : List β} {c : β} (h : cs.getLast? = some c) :
    (bs ++ cs).getLast? = some c ∧ bs ++ cs ≠ [] := by
  rw [List.getLast?_append, h]
  refine ⟨rfl, fun hnil => ?_⟩
  rw [(List.append_eq_nil_iff.mp hnil).2] at h
  cases h

/-- The queues and the copy of another holder do not matter. -/
theorem Settling.congr {untold' : Prop} (h : s.Settling digest untold i)
    (hcopy : t.copy i = s.copy i) (hchanges : t.changes i = s.changes i)
    (hreports : t.reports i = s.reports i)
    (hsettled : s.Keeps digest untold i → t.Keeps digest untold' i) :
    t.Settling digest untold' i where
  changed := by rw [hchanges, hcopy]; exact h.changed
  reported := by rw [hchanges, hreports, hcopy]; exact h.reported
  settled := by
    rw [hchanges, hreports]
    exact fun h₁ h₂ => hsettled (h.settled h₁ h₂)

theorem Catches.congr (h : s.Catches digest i) (horiginal : t.original = s.original)
    (hnotices : t.notices i = s.notices i) (hupdates : t.updates i = s.updates i) :
    t.Catches digest i := by
  rw [Catches, horiginal, hnotices, hupdates]
  exact h

theorem Keeps.congr (h : s.Keeps digest untold i) (hcopy : t.copy i = s.copy i)
    (horiginal : t.original = s.original) (hnotices : t.notices i = s.notices i)
    (hupdates : t.updates i = s.updates i) : t.Keeps digest untold i := by
  rw [Keeps, hcopy, horiginal]
  exact h.imp_right (Or.imp_left fun hcatches => hcatches.congr horiginal hnotices hupdates)

/-- The original takes a value, and the holder is told of it if it has another digest. -/
theorem Keeps.told [DecidableEq κ] (h : s.Keeps digest untold j) {value : Option α}
    (hcopy : t.copy j = s.copy j) (horiginal : t.original = value)
    (hupdates : t.updates j = s.updates j)
    (hnotices : t.notices j = s.notices j ++
      if value.map digest ≠ s.original.map digest then [value.isSome] else []) :
    t.Keeps digest untold j := by
  subst horiginal
  by_cases hdigest : t.original.map digest = s.original.map digest
  · rw [if_neg (not_not.mpr hdigest), List.append_nil] at hnotices
    rcases h with hsame | (⟨present, hlast, hsome⟩ | ⟨hnil, last, hlast, hsame⟩) | ⟨hgone, huntold⟩
    · exact .inl (hcopy ▸ hsame.trans hdigest.symm)
    · refine .inr (.inl (.inl ⟨present, hnotices ▸ hlast, ?_⟩))
      exact (isSome_eq_of_digest hdigest).trans hsome
    · refine .inr (.inl (.inr ⟨hnotices.trans hnil, last, hupdates ▸ hlast, ?_⟩))
      exact hsame.trans hdigest.symm
    · refine .inr (.inr ⟨?_, huntold⟩)
      rw [hgone] at hdigest
      exact Option.map_eq_none_iff.mp hdigest
  · rw [if_pos hdigest] at hnotices
    exact .inr (.inl (.inl ⟨t.original.isSome, by simp [hnotices], rfl⟩))

/-- Only of a gone original a holder may not have been told. -/
theorem Settling.untold_of (h : s.Settling digest untold i) {untold' : Prop}
    (huntold : s.original = none → untold → untold') : s.Settling digest untold' i := by
  refine h.congr rfl rfl rfl (Or.imp_right (Or.imp_right ?_))
  exact fun ⟨hgone, hold⟩ => ⟨hgone, huntold hgone hold⟩

/-- Where nothing is under way to or from a holder, its copy has the digest of the original, unless
it was not told that the original is gone. -/
theorem Settling.digest_eq (h : s.Settling digest untold i) (hchanges : s.changes i = [])
    (hreports : s.reports i = []) (hnotices : s.notices i = []) (hupdates : s.updates i = []) :
    (s.copy i).map digest = s.original.map digest ∨ s.original = none ∧ untold := by
  rcases h.settled hchanges hreports with
    hsame | (⟨_, hlast, -⟩ | ⟨-, _, hlast, -⟩) | hgone
  · exact .inl hsame
  · rw [hnotices] at hlast
    cases hlast
  · rw [hupdates] at hlast
    cases hlast
  · exact .inr hgone

variable [DecidableEq ι]

/-- A holder with a change to report, whatever is sent to it. -/
theorem settling_assign_self {value : Option α} {events : List Bool}
    (ht : s.assign i value events = some t) : t.Settling digest untold i := by
  obtain ⟨hlast, rfl⟩ := assign_eq_some.mp ht
  obtain ⟨hlast', hne⟩ : (s.changes i ++ events).getLast? = some value.isSome ∧
      s.changes i ++ events ≠ [] := getLast?_append_ne_nil hlast
  refine ⟨?_, ?_, ?_⟩
  · simp only [Function.update_self, hlast']
    rintro present hpresent
    exact Option.some.inj hpresent
  · simp only [Function.update_self]
    exact fun hnil => absurd hnil hne
  · simp only [Function.update_self]
    exact fun hnil => absurd hnil hne

theorem Settling.assign_of_ne {value : Option α} {events : List Bool}
    (h : s.Settling digest untold j) (hj : j ≠ i) (ht : s.assign i value events = some t) :
    t.Settling digest untold j := by
  obtain ⟨-, rfl⟩ := assign_eq_some.mp ht
  have hcopy := Function.update_of_ne hj value s.copy
  exact h.congr hcopy (Function.update_of_ne hj ..) rfl
    fun hkeeps => hkeeps.congr hcopy rfl rfl rfl

/-- A value that is taken and is gone on both sides. -/
theorem Settling.drop {value : Option α} {rest : List (Option α)}
    (h : s.Settling digest untold i) (hupdates : s.updates i = value :: rest)
    (hvalue : value = none) (hcopy : s.copy i = none) :
    Settling digest { s with updates := Function.update s.updates i rest } untold i := by
  refine h.congr rfl rfl rfl ?_
  rintro (hsame | (hnotice | ⟨hnil, last, hlast, hsame⟩) | hgone)
  · exact .inl hsame
  · exact .inr (.inl (.inl hnotice))
  · rw [hupdates] at hlast
    cases rest with
    | nil =>
        obtain rfl : value = last := Option.some.inj hlast
        rw [hvalue] at hsame
        exact .inl ((congrArg _ hcopy).trans hsame)
    | cons next rest =>
        rw [List.getLast?_cons_cons] at hlast
        exact .inr (.inl (.inr ⟨hnil, last, by simpa using hlast, hsame⟩))
  · exact .inr (.inr hgone)

theorem Settling.updates_of_ne (h : s.Settling digest untold j) (hj : j ≠ i)
    (rest : List (Option α)) :
    Settling digest { s with updates := Function.update s.updates i rest } untold j :=
  h.congr rfl rfl rfl fun hkeeps => hkeeps.congr rfl rfl rfl (Function.update_of_ne hj ..)

variable [DecidableEq κ]

theorem Settling.report (h : s.Settling digest untold j)
    (hstep : step digest s (.report i) = some t) : t.Settling digest untold j := by
  simp only [Copies.step] at hstep
  split at hstep
  · cases hstep
  · rename_i present rest hchanges
    obtain rfl := Option.some.inj hstep
    by_cases hj : j = i
    · subst hj
      refine ⟨?_, ?_, ?_⟩
      · simp only [Function.update_self]
        intro last hlast
        exact h.changed last (hchanges ▸ mem_getLast?_cons hlast)
      · simp only [Function.update_self]
        rintro rfl value hvalue
        -- the change was the last one, so the report is the copy
        have hsome := h.changed present (by rw [hchanges]; rfl)
        rw [reading_of_isSome hsome, List.getLast?_append] at hvalue
        exact Option.some.inj hvalue
      · simp only [Function.update_self]
        rintro rfl hnil
        have hsome := h.changed present (by rw [hchanges]; rfl)
        rw [reading_of_isSome hsome] at hnil
        simp at hnil
    · exact h.congr rfl (Function.update_of_ne hj ..) (Function.update_of_ne hj ..)
        fun hkeeps => hkeeps.congr rfl rfl rfl rfl

theorem Settling.accept (h : s.Settling digest untold j)
    (hstep : step digest s (.accept i) = some t) : t.Settling digest untold j := by
  simp only [Copies.step] at hstep
  split at hstep
  · cases hstep
  · rename_i value rest hreports
    obtain rfl := Option.some.inj hstep
    by_cases hj : j = i
    · subst hj
      refine ⟨h.changed, ?_, ?_⟩
      · simp only [Function.update_self]
        intro hnil last hlast
        exact h.reported hnil last (hreports ▸ mem_getLast?_cons hlast)
      · simp only [Function.update_self]
        rintro hnil rfl
        -- the report was the last one, so it is the copy
        have hcopy := h.reported hnil value (by rw [hreports]; rfl)
        exact .inl (congrArg _ hcopy)
    · refine h.congr rfl rfl (Function.update_of_ne hj ..) fun hkeeps => ?_
      refine hkeeps.told rfl rfl rfl ?_
      simp only [ne_eq, hj, not_false_eq_true, true_and]

theorem Settling.answer (h : s.Settling digest untold j)
    (hstep : step digest s (.answer i) = some t) : t.Settling digest untold j := by
  simp only [Copies.step] at hstep
  split at hstep
  · cases hstep
  · rename_i present rest hnotices
    obtain rfl := Option.some.inj hstep
    by_cases hj : j = i
    · subst hj
      refine h.congr rfl rfl rfl ?_
      rintro (hsame | (⟨last, hlast, hsome⟩ | ⟨hnil, -⟩) | hgone)
      · exact .inl hsame
      · refine .inr (.inl ?_)
        rw [hnotices] at hlast
        cases rest with
        | nil =>
            -- the last notice is answered with the original
            obtain rfl : present = last := Option.some.inj hlast
            refine .inr ⟨Function.update_self .., s.original, ?_, rfl⟩
            simp [reading_of_isSome hsome]
        | cons next rest =>
            refine .inl ⟨last, ?_, hsome⟩
            rw [List.getLast?_cons_cons] at hlast
            simpa using hlast
      · rw [hnotices] at hnil
        cases hnil
      · exact .inr (.inr hgone)
    · exact h.congr rfl rfl rfl fun hkeeps =>
        hkeeps.congr rfl rfl (Function.update_of_ne hj ..) (Function.update_of_ne hj ..)

theorem Settling.receive {events : List Bool} (h : s.Settling digest untold j)
    (hstep : step digest s (.receive i events) = some t) : t.Settling digest untold j := by
  simp only [Copies.step] at hstep
  split at hstep
  · cases hstep
  · rename_i value rest hupdates
    by_cases hj : j = i
    · subst hj
      split at hstep
      · rename_i hgone
        obtain rfl := Option.some.inj hstep
        exact h.drop hupdates hgone.1 hgone.2
      · exact settling_assign_self hstep
    · have hother := h.updates_of_ne hj rest
      split at hstep
      · obtain rfl := Option.some.inj hstep
        exact hother
      · exact hother.assign_of_ne hj hstep

/-- Every step keeps a holder settling. -/
theorem Settling.step {a : Action ι α} (h : s.Settling digest untold j)
    (hstep : step digest s a = some t) : t.Settling digest untold j := by
  cases a with
  | change i value events =>
      by_cases hj : j = i
      · subst hj
        exact settling_assign_self hstep
      · exact h.assign_of_ne hj hstep
  | report i => exact h.report hstep
  | accept i => exact h.accept hstep
  | answer i => exact h.answer hstep
  | receive i events => exact h.receive hstep

/-! ## A holder takes the original away -/

variable (digest) in
/-- The holder has the original taken away, and the others get a notice of that. -/
def remove (s : Copies ι α) (i : ι) : Copies ι α :=
  { s with
    original := none
    notices := fun j => s.notices j ++
      if j ≠ i ∧ none ≠ s.original.map digest then [false] else [] }

omit [DecidableEq κ] in
theorem remove_of_none (h : s.original = none) : s.remove digest i = s := by
  refine Copies.ext h.symm rfl rfl rfl (funext fun j => ?_) rfl
  simp [Copies.remove, h]

omit [DecidableEq ι] [DecidableEq κ] in
theorem All.take {P : α → Prop} (h : s.All P) (notices : ι → List Bool) :
    All P { s with original := none, notices := notices } :=
  ⟨fun _ hnone => (Option.not_mem_none _ hnone).elim, h.copy, h.reports, h.updates⟩

/-- The holder itself is not told. -/
theorem Settling.remove (h : s.Settling digest untold j) :
    (s.remove digest i).Settling digest (untold ∨ j = i) j := by
  by_cases hj : j = i
  · exact h.congr rfl rfl rfl fun _ => .inr (.inr ⟨rfl, .inr hj⟩)
  · refine (h.congr (t := s.remove digest i) rfl rfl rfl fun hkeeps => ?_).untold_of
      fun _ => Or.inl
    exact hkeeps.told rfl rfl rfl (by simp [Copies.remove, hj])

end

end Copies
