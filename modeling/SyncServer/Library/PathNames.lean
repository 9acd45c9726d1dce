import Mathlib.Data.List.TakeDrop
import SyncServer.Library.CText

/-! # Path names

A path name is a text of components between slashes. An empty component and `.` stay where they
are, `..` goes up, and every other name goes down. A place is the list of names from the root.
-/

namespace PathNames

open CText

def slash : UInt8 := 47

/-- `.` -/
def self : Bytes := [46]

/-- `..` -/
def parent : Bytes := [46, 46]

/-- The texts between the slashes. -/
def components : Bytes → List Bytes
  | [] => [[]]
  | c :: path =>
      if c = slash then [] :: components path
      else
        match components path with
        | [] => [[c]]
        | name :: names => (c :: name) :: names

/-- The place that one component leads to. -/
def enter (place : List Bytes) (name : Bytes) : List Bytes :=
  if name = [] ∨ name = self then place
  else if name = parent then place.dropLast
  else place ++ [name]

/-- The place that a path name means in a working directory. -/
def resolve (cwd : List Bytes) (path : Bytes) : List Bytes :=
  (components path).foldl enter (if path.head? = some slash then [] else cwd)

/-- A name that leads one step down. -/
def IsComponent (name : Bytes) : Prop :=
  name ≠ [] ∧ slash ∉ name ∧ name ≠ self ∧ name ≠ parent

instance (name : Bytes) : Decidable (IsComponent name) := inferInstanceAs (Decidable (_ ∧ _))

theorem components_ne_nil (path : Bytes) : components path ≠ [] := by
  cases path with
  | nil => simp [components]
  | cons c path =>
      rw [components]
      split
      · simp
      · split <;> simp

/-- A slash separates the components on its two sides. -/
theorem components_append (front back : Bytes) :
    components (front ++ slash :: back) = components front ++ components back := by
  induction front with
  | nil => simp [components]
  | cons c front ih =>
      rw [List.cons_append, components, components, ih]
      split
      · simp
      · cases hfront : components front with
        | nil => exact absurd hfront (components_ne_nil front)
        | cons name names => rfl

theorem components_of_no_slash {name : Bytes} (h : slash ∉ name) : components name = [name] := by
  induction name with
  | nil => rfl
  | cons c name ih =>
      have hc : c ≠ slash := fun hc => h (hc ▸ List.mem_cons_self)
      rw [components, if_neg hc, ih fun hname => h (List.mem_cons_of_mem _ hname)]

theorem IsComponent.components {name : Bytes} (h : IsComponent name) :
    PathNames.components name = [name] :=
  components_of_no_slash h.2.1

theorem IsComponent.enter {name : Bytes} (h : IsComponent name) (place : List Bytes) :
    PathNames.enter place name = place ++ [name] := by
  obtain ⟨hne, -, hself, hparent⟩ := h
  simp [PathNames.enter, hne, hself, hparent]

/-- A path below a base is walked from the place of the base. -/
theorem resolve_append {base : Bytes} (hbase : base ≠ []) (cwd : List Bytes) (path : Bytes) :
    resolve cwd (base ++ slash :: path) =
      (components path).foldl enter (resolve cwd base) := by
  obtain ⟨c, base, rfl⟩ := List.exists_cons_of_ne_nil hbase
  rw [resolve, components_append, List.foldl_append]
  rfl

theorem resolve_append_component {base name : Bytes} (hbase : base ≠ []) (h : IsComponent name)
    (cwd : List Bytes) : resolve cwd (base ++ slash :: name) = resolve cwd base ++ [name] := by
  rw [resolve_append hbase, h.components]
  exact h.enter _

/-! ## The last name of a path -/

/-- `basename`: the last name before the slashes at the end. -/
def basename (path : Bytes) : Bytes :=
  if path = [] then self else ((components path).filter (· ≠ [])).getLast?.getD [slash]

theorem slash_not_mem_of_mem_components {path name : Bytes} (h : name ∈ components path) :
    slash ∉ name := by
  induction path generalizing name with
  | nil =>
      obtain rfl := List.mem_singleton.mp h
      exact List.not_mem_nil
  | cons c path ih =>
      rw [components] at h
      split at h
      · rcases List.mem_cons.mp h with rfl | h
        · exact List.not_mem_nil
        · exact ih h
      · rename_i hc
        cases hpath : components path with
        | nil => exact absurd hpath (components_ne_nil path)
        | cons first names =>
            rw [hpath] at h ih
            rcases List.mem_cons.mp h with rfl | h
            · intro hmem
              rcases List.mem_cons.mp hmem with heq | hmem
              · exact hc heq.symm
              · exact ih List.mem_cons_self hmem
            · exact ih (List.mem_cons_of_mem _ h)

/-- A last name that leads one step down, or one that does not. -/
theorem basename_cases (path : Bytes) :
    IsComponent (basename path) ∨ basename path = self ∨ basename path = parent ∨
      basename path = [slash] := by
  unfold basename
  split
  · exact Or.inr (Or.inl rfl)
  · cases hlast : ((components path).filter (· ≠ [])).getLast? with
    | none => exact Or.inr (Or.inr (Or.inr rfl))
    | some name =>
        obtain ⟨hmem, hne⟩ := List.mem_filter.mp (List.mem_of_getLast? hlast)
        have hslash := slash_not_mem_of_mem_components hmem
        rw [Option.getD_some]
        by_cases hself : name = self
        · exact Or.inr (Or.inl hself)
        · by_cases hparent : name = parent
          · exact Or.inr (Or.inr (Or.inl hparent))
          · exact Or.inl ⟨by simpa using hne, hslash, hself, hparent⟩

/-- Where the last name of a path leads in another folder. -/
theorem resolve_append_basename {base : Bytes} (hbase : base ≠ []) (cwd : List Bytes)
    (path : Bytes) :
    (IsComponent (basename path) ∧
      resolve cwd (base ++ slash :: basename path) = resolve cwd base ++ [basename path]) ∨
    (¬IsComponent (basename path) ∧
      (resolve cwd (base ++ slash :: basename path) = resolve cwd base ∨
        resolve cwd (base ++ slash :: basename path) = (resolve cwd base).dropLast)) := by
  rcases basename_cases path with hcomponent | hself | hparent | hslash
  · exact Or.inl ⟨hcomponent, resolve_append_component hbase hcomponent cwd⟩
  · rw [hself, resolve_append hbase]
    exact Or.inr ⟨by decide, Or.inl rfl⟩
  · rw [hparent, resolve_append hbase]
    exact Or.inr ⟨by decide, Or.inr rfl⟩
  · rw [hslash, resolve_append hbase]
    exact Or.inr ⟨by decide, Or.inl rfl⟩

/-! ## Relative places

The components of a relative path come down to a number of steps up and then names down.
-/

/-- One component after `up` steps up and the names `down`. -/
def advance (spot : ℕ × List Bytes) (name : Bytes) : ℕ × List Bytes :=
  if name = [] ∨ name = self then spot
  else if name = parent then
    if spot.2 = [] then (spot.1 + 1, []) else (spot.1, spot.2.dropLast)
  else (spot.1, spot.2 ++ [name])

/-- The steps up that nothing cancels, and the names below. -/
def relative (names : List Bytes) : ℕ × List Bytes := names.foldl advance (0, [])

theorem enter_advance (place : List Bytes) (spot : ℕ × List Bytes) (name : Bytes) :
    enter (place.take (place.length - spot.1) ++ spot.2) name =
      place.take (place.length - (advance spot name).1) ++ (advance spot name).2 := by
  obtain ⟨up, down⟩ := spot
  unfold enter advance
  split
  · rfl
  · split
    · split
      · rename_i hdown
        obtain rfl : down = [] := hdown
        rw [List.append_nil, List.append_nil, List.dropLast_eq_take, List.take_take,
          List.length_take]
        congr 1
        omega
      · rename_i hdown
        rw [List.dropLast_append_of_ne_nil hdown]
    · rw [List.append_assoc]

theorem foldl_enter (place : List Bytes) (names : List Bytes) :
    names.foldl enter place =
      place.take (place.length - (relative names).1) ++ (relative names).2 := by
  have hloop : ∀ spot : ℕ × List Bytes,
      names.foldl enter (place.take (place.length - spot.1) ++ spot.2) =
        place.take (place.length - (names.foldl advance spot).1) ++
          (names.foldl advance spot).2 := by
    induction names with
    | nil => exact fun _ => rfl
    | cons name names ih =>
        intro spot
        rw [List.foldl_cons, enter_advance, ih, List.foldl_cons]
  simpa [relative] using hloop (0, [])

/-- A place strictly below another one. -/
def StrictlyInside (folder place : List Bytes) : Prop := folder <+: place ∧ place ≠ folder

instance (folder place : List Bytes) : Decidable (StrictlyInside folder place) :=
  inferInstanceAs (Decidable (_ ∧ _))

/-- A path that goes up `up` steps stays inside if and only if it comes down through the folders
it has left, and further. -/
theorem strictlyInside_foldl_iff (folder : List Bytes) (names : List Bytes) :
    StrictlyInside folder (names.foldl enter folder) ↔
      StrictlyInside (folder.drop (folder.length - (relative names).1)) (relative names).2 := by
  rw [foldl_enter]
  generalize (relative names).1 = up
  generalize (relative names).2 = down
  have hsplit := List.take_append_drop (folder.length - up) folder
  unfold StrictlyInside
  constructor
  · rintro ⟨hstart, hne⟩
    nth_rewrite 1 [← hsplit] at hstart
    refine ⟨(List.prefix_append_right_inj _).mp hstart, fun heq => hne ?_⟩
    rw [heq, hsplit]
  · rintro ⟨hstart, hne⟩
    refine ⟨?_, fun heq => hne ?_⟩
    · nth_rewrite 1 [← hsplit]
      exact (List.prefix_append_right_inj _).mpr hstart
    · nth_rewrite 3 [← hsplit] at heq
      exact List.append_cancel_left heq

end PathNames
