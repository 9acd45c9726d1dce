import Mathlib.Data.Nat.Notation
import Mathlib.Logic.Function.Basic
import Mathlib.Logic.Relation
import Mathlib.Order.Basic
import SyncServer.Library.Transition

/-! # Threads that wait for locks and for each other

A program keeps of a thread what it locks, which threads it creates and which it joins. What
decides a branch or ends a loop is left open, so that a program has every run that the code has.
The mutexes do not check who unlocks them. When every program takes what it waits for in rising
rank, no threads wait for each other in a circle.
-/

namespace LockPrograms

/-- Programs over mutexes `M` and kinds of threads `K`. `wait` is a wait on a condition variable
of the mutex, `create` hands the rest of the block the new thread, and `exit` ends the thread. -/
inductive Program (M K : Type*) where
  | skip
  | exit
  | lock (m : M)
  | unlock (m : M)
  | wait (m : M)
  | create (kind : K) (rest : ℕ → Program M K)
  | join (kind : K) (tid : ℕ)
  | seq (p q : Program M K)
  | either (p q : Program M K)
  | choose (p : ℕ → Program M K)
  | loop (p : Program M K)

/-- What a thread can wait for: that a mutex is unlocked, or that a thread has ended. -/
inductive Resource (M K : Type*) where
  | mutex (m : M)
  | completion (kind : K)
  deriving DecidableEq

variable {M K : Type*}

/-- A block of statements. -/
def block : List (Program M K) → Program M K
  | [] => .skip
  | p :: ps => .seq p (block ps)

/-! ## The runs of many threads -/

/-- What is still to be executed, and what the thread has taken and not given back. A thread
holds its own completion until it ends. -/
structure Thread (M K : Type*) where
  kind : K
  stack : List (Program M K)
  held : List (Resource M K)

structure System (M K : Type*) where
  threads : ℕ → Option (Thread M K)
  owner : M → Option ℕ

/-- The thread `tid` takes its next step; `choice` decides what the program leaves open. -/
structure Action where
  tid : ℕ
  choice : ℕ
  deriving DecidableEq, Repr

/-- The thread is of the kind and has not ended. -/
def System.isRunning [DecidableEq K] (s : System M K) (kind : K) (tid : ℕ) : Bool :=
  match s.threads tid with
  | some thread => thread.kind = kind && !thread.stack.isEmpty
  | none => false

/-- What the statement waits for. -/
def Program.awaits : Program M K → Option (Resource M K)
  | lock m => some (.mutex m)
  | join kind _ => some (.completion kind)
  | _ => none

/-- `t` stands before a mutex that `u` has locked, or joins `u`, which has not ended. -/
def System.WaitsFor [DecidableEq K] (s : System M K) (t u : ℕ) : Prop :=
  ∃ thread p rest, s.threads t = some thread ∧ thread.stack = p :: rest ∧
    match p with
    | .lock m => s.owner m = some u
    | .join kind tid => tid = u ∧ s.isRunning kind tid = true
    | _ => False

def System.setThread (s : System M K) (tid : ℕ) (thread : Thread M K) : System M K :=
  { s with threads := Function.update s.threads tid (some thread) }

theorem System.threads_setThread_eq_some {s : System M K} {tid u : ℕ} {thread other : Thread M K} :
    (s.setThread tid thread).threads u = some other ↔
      u = tid ∧ thread = other ∨ u ≠ tid ∧ s.threads u = some other := by
  by_cases hu : u = tid
  · subst hu
    simp [System.setThread]
  · simp [System.setThread, hu]

section Steps

variable [DecidableEq M]

def System.setOwner (s : System M K) (m : M) (owner : Option ℕ) : System M K :=
  { s with owner := Function.update s.owner m owner }

theorem System.owner_setOwner_eq_some {s : System M K} {m m' : M} {owner : Option ℕ} {u : ℕ} :
    (s.setOwner m owner).owner m' = some u ↔
      m' = m ∧ owner = some u ∨ m' ≠ m ∧ s.owner m' = some u := by
  by_cases hm : m' = m
  · subst hm
    simp [System.setOwner]
  · simp [System.setOwner, hm]

variable [DecidableEq K]

variable (body : K → Program M K)

/-- A thread that has just been created. -/
def Thread.start (kind : K) : Thread M K := ⟨kind, [body kind], [.completion kind]⟩

/-- One step of a thread whose next statement is `p`. -/
def System.advance (s : System M K) (tid choice : ℕ) (thread : Thread M K)
    (rest : List (Program M K)) (p : Program M K) : Option (System M K) :=
  let goOn (stack : List (Program M K)) := s.setThread tid { thread with stack := stack }
  match p with
  | .skip => some (goOn rest)
  | .exit => some (goOn [])
  | .seq p q => some (goOn (p :: q :: rest))
  | .either p q => some (goOn ((if choice = 0 then p else q) :: rest))
  | .choose p => some (goOn (p choice :: rest))
  | .loop p => some (goOn (if choice = 0 then rest else p :: .loop p :: rest))
  | .lock m =>
      if s.owner m = none then
        some ((s.setOwner m (some tid)).setThread tid
          { thread with stack := rest, held := .mutex m :: thread.held })
      else none
  | .unlock m =>
      some ((s.setOwner m none).setThread tid
        { thread with stack := rest, held := thread.held.erase (.mutex m) })
  | .wait m =>
      some ((s.setOwner m none).setThread tid
        { thread with stack := .skip :: .lock m :: rest, held := thread.held.erase (.mutex m) })
  | .create kind p =>
      if s.threads choice = none then
        some ((s.setThread choice (.start body kind)).setThread tid
          { thread with stack := p choice :: rest })
      else none
  | .join kind target => if s.isRunning kind target then none else some (goOn rest)

def System.step (s : System M K) (a : Action) : Option (System M K) :=
  (s.threads a.tid).bind fun thread =>
    match thread.stack with
    | [] => none
    | p :: rest => s.advance body a.tid a.choice thread rest p

/-- One thread, and no mutex is locked. -/
def System.start (kind : K) : System M K :=
  ⟨Function.update (fun _ => none) 0 (some (.start body kind)), fun _ => none⟩

end Steps

/-! ## Taking in rising rank -/

section Rank

variable {ρ : Type*} [Preorder ρ] (rank : Resource M K → ρ)

/-- All that is held ranks below `b`. -/
def Under (held : List (Resource M K)) (b : ρ) : Prop := ∀ r ∈ held, rank r < b

section Under

variable {rank} {held : List (Resource M K)} {b c : ρ}

theorem Under.nil (b : ρ) : Under rank [] b := fun _ h => absurd h List.not_mem_nil

theorem Under.cons {r : Resource M K} (hr : rank r < b) (h : Under rank held b) :
    Under rank (r :: held) b :=
  List.forall_mem_cons.mpr ⟨hr, h⟩

theorem Under.mono (h : Under rank held b) (hb : b ≤ c) : Under rank held c :=
  fun r hr => (h r hr).trans_le hb

end Under

variable [DecidableEq M] [DecidableEq K]

/-- The program, begun with the first list of resources held, waits only for what ranks above all
it holds, and holds the second list where it comes to its end. -/
inductive Follows : List (Resource M K) → Program M K → List (Resource M K) → Prop
  | skip (held) : Follows held .skip held
  | exit (held after) : Follows held .exit after
  | lock {held m} (h : Under rank held (rank (.mutex m))) :
      Follows held (.lock m) (.mutex m :: held)
  | unlock (held m) : Follows held (.unlock m) (held.erase (.mutex m))
  | wait {held m} (h : Under rank (held.erase (.mutex m)) (rank (.mutex m))) :
      Follows held (.wait m) (.mutex m :: held.erase (.mutex m))
  | create {held kind p after} (h : ∀ tid, Follows held (p tid) after) :
      Follows held (.create kind p) after
  | join {held kind} (tid) (h : Under rank held (rank (.completion kind))) :
      Follows held (.join kind tid) held
  | seq {held p between q after} (hp : Follows held p between) (hq : Follows between q after) :
      Follows held (.seq p q) after
  | either {held p q after} (hp : Follows held p after) (hq : Follows held q after) :
      Follows held (.either p q) after
  | choose {held p after} (h : ∀ n, Follows held (p n) after) : Follows held (.choose p) after
  | loop {held p} (h : Follows held p held) : Follows held (.loop p) held

/-- The program gives back what it takes. -/
abbrev Keeps (held : List (Resource M K)) (p : Program M K) : Prop := Follows rank held p held

variable {rank} {held : List (Resource M K)} {m : M} {p : Program M K}

theorem Follows.unlock_head : Follows rank (.mutex m :: held) (.unlock m) held := by
  have h : Follows rank (.mutex m :: held) (.unlock m)
      ((Resource.mutex m :: held).erase (.mutex m)) := .unlock _ m
  rwa [List.erase_cons_head] at h

theorem Keeps.wait (h : Under rank held (rank (.mutex m))) :
    Keeps rank (.mutex m :: held) (.wait m) := by
  have hwait : Follows rank (.mutex m :: held) (.wait m)
      (.mutex m :: (Resource.mutex m :: held).erase (.mutex m)) :=
    .wait (by rwa [List.erase_cons_head])
  rwa [List.erase_cons_head] at hwait

/-- A section that begins with a lock. -/
theorem Keeps.lock (h : Under rank held (rank (.mutex m)))
    (hp : Follows rank (.mutex m :: held) p held) :
    Keeps rank held (.seq (.lock m) p) :=
  .seq (.lock h) hp

theorem Keeps.block {ps : List (Program M K)} (h : ∀ p ∈ ps, Keeps rank held p) :
    Keeps rank held (block ps) := by
  induction ps with
  | nil => exact .skip held
  | cons p ps ih =>
      obtain ⟨hp, hps⟩ := List.forall_mem_cons.mp h
      exact .seq hp (ih hps)

/-! ## No circle of waits -/

variable (rank) in
/-- The programs of a stack follow the rank, one after the other. -/
def FollowsAll : List (Resource M K) → List (Program M K) → Prop
  | _, [] => True
  | held, p :: ps => ∃ after, Follows rank held p after ∧ FollowsAll after ps

variable (rank) in
/-- What the steps preserve: an owner of a mutex holds it, as far as it knows itself. -/
structure Ordered (s : System M K) : Prop where
  follows : ∀ tid thread, s.threads tid = some thread → FollowsAll rank thread.held thread.stack
  owner : ∀ m tid, s.owner m = some tid →
    ∃ thread, s.threads tid = some thread ∧ .mutex m ∈ thread.held
  completion : ∀ tid thread, s.threads tid = some thread →
    .completion thread.kind ∈ thread.held

variable {s t : System M K} {tid : ℕ} {thread thread' : Thread M K}

/-- A thread goes on; the mutexes that it owns afterwards are among those it holds. -/
theorem Ordered.move {owner : M → Option ℕ} (h : Ordered rank s)
    (hfollows : FollowsAll rank thread'.held thread'.stack)
    (hcompletion : .completion thread'.kind ∈ thread'.held)
    (howner : ∀ m u, owner m = some u →
      u = tid ∧ .mutex m ∈ thread'.held ∨ u ≠ tid ∧ s.owner m = some u) :
    Ordered rank (System.setThread { s with owner := owner } tid thread') where
  follows u other hu := by
    rcases System.threads_setThread_eq_some.mp hu with ⟨-, rfl⟩ | ⟨-, hu⟩
    · exact hfollows
    · exact h.follows u other hu
  owner m u hm := by
    rcases howner m u hm with ⟨rfl, hheld⟩ | ⟨hut, hm⟩
    · exact ⟨thread', System.threads_setThread_eq_some.mpr (.inl ⟨rfl, rfl⟩), hheld⟩
    · obtain ⟨other, hu, hheld⟩ := h.owner m u hm
      exact ⟨other, System.threads_setThread_eq_some.mpr (.inr ⟨hut, hu⟩), hheld⟩
  completion u other hu := by
    rcases System.threads_setThread_eq_some.mp hu with ⟨-, rfl⟩ | ⟨-, hu⟩
    · exact hcompletion
    · exact h.completion u other hu

/-- What an owner holds, seen from the thread that is about to take a step. -/
theorem Ordered.mem_held (h : Ordered rank s) (hthread : s.threads tid = some thread) {m : M}
    {u : ℕ} (hm : s.owner m = some u) :
    u = tid ∧ .mutex m ∈ thread.held ∨ u ≠ tid ∧ s.owner m = some u := by
  by_cases hut : u = tid
  · subst hut
    obtain ⟨other, hu, hheld⟩ := h.owner m u hm
    obtain rfl := Option.some.inj (hthread.symm.trans hu)
    exact .inl ⟨rfl, hheld⟩
  · exact .inr ⟨hut, hm⟩

/-- A step that takes and gives back nothing. -/
theorem Ordered.goOn {stack : List (Program M K)} (h : Ordered rank s)
    (hthread : s.threads tid = some thread) (hfollows : FollowsAll rank thread.held stack) :
    Ordered rank (s.setThread tid { thread with stack := stack }) :=
  h.move hfollows (h.completion tid thread hthread) fun _ _ hm => h.mem_held hthread hm

/-- A step that gives a mutex back, whoever owns it. -/
theorem Ordered.release {stack : List (Program M K)} {m : M} (h : Ordered rank s)
    (hthread : s.threads tid = some thread)
    (hfollows : FollowsAll rank (thread.held.erase (.mutex m)) stack) :
    Ordered rank ((s.setOwner m none).setThread tid
      { thread with stack := stack, held := thread.held.erase (.mutex m) }) := by
  refine h.move hfollows ?_ fun m' u hm => ?_
  · exact (List.mem_erase_of_ne (fun heq => by cases heq)).mpr (h.completion tid thread hthread)
  · rcases System.owner_setOwner_eq_some.mp hm with ⟨-, hm⟩ | ⟨hmm, hm⟩
    · cases hm
    · refine (h.mem_held hthread hm).imp_left (And.imp_right fun hheld => ?_)
      exact (List.mem_erase_of_ne fun heq => hmm (Resource.mutex.inj heq)).mpr hheld

/-- A step that locks a mutex. -/
theorem Ordered.take {stack : List (Program M K)} {m : M} (h : Ordered rank s)
    (hthread : s.threads tid = some thread)
    (hfollows : FollowsAll rank (.mutex m :: thread.held) stack) :
    Ordered rank ((s.setOwner m (some tid)).setThread tid
      { thread with stack := stack, held := .mutex m :: thread.held }) := by
  refine h.move hfollows (List.mem_cons_of_mem _ (h.completion tid thread hthread))
    fun m' u hm => ?_
  rcases System.owner_setOwner_eq_some.mp hm with ⟨rfl, htid⟩ | ⟨-, hm⟩
  · obtain rfl := Option.some.inj htid
    exact .inl ⟨rfl, List.mem_cons_self⟩
  · exact (h.mem_held hthread hm).imp_left (And.imp_right (List.mem_cons_of_mem _))

variable {body : K → Program M K}

/-- A new thread. -/
theorem Ordered.create {kind : K} (h : Ordered rank s) (hfree : s.threads tid = none)
    (hbody : ∃ after, Follows rank [.completion kind] (body kind) after) :
    Ordered rank (s.setThread tid (.start body kind)) := by
  obtain ⟨after, hbody⟩ := hbody
  refine h.move ⟨after, hbody, trivial⟩ List.mem_cons_self fun m u hm => .inr ⟨?_, hm⟩
  rintro rfl
  obtain ⟨other, hu, -⟩ := h.owner m u hm
  cases hfree.symm.trans hu

theorem Ordered.step {a : Action} (h : Ordered rank s)
    (hbody : ∀ kind, ∃ after, Follows rank [.completion kind] (body kind) after)
    (hstep : s.step body a = some t) : Ordered rank t := by
  obtain ⟨thread, hthread, hstep⟩ := Option.bind_eq_some_iff.mp hstep
  have hall := h.follows a.tid thread hthread
  cases hstack : thread.stack with
  | nil => simp [hstack] at hstep
  | cons p rest =>
      simp only [hstack] at hstep
      rw [hstack] at hall
      obtain ⟨after, hp, hrest⟩ := hall
      cases p with
      | skip =>
          obtain rfl := Option.some.inj hstep
          cases hp
          exact h.goOn hthread hrest
      | exit =>
          obtain rfl := Option.some.inj hstep
          exact h.goOn hthread trivial
      | seq p q =>
          obtain rfl := Option.some.inj hstep
          cases hp with
          | seq hp hq => exact h.goOn hthread ⟨_, hp, _, hq, hrest⟩
      | either p q =>
          obtain rfl := Option.some.inj hstep
          cases hp with
          | either hp hq =>
              refine h.goOn hthread ⟨after, ?_, hrest⟩
              split
              · exact hp
              · exact hq
      | choose p =>
          obtain rfl := Option.some.inj hstep
          cases hp with
          | choose hp => exact h.goOn hthread ⟨after, hp a.choice, hrest⟩
      | loop p =>
          obtain rfl := Option.some.inj hstep
          cases hp with
          | loop hp =>
              refine h.goOn hthread ?_
              split
              · exact hrest
              · exact ⟨_, hp, _, .loop hp, hrest⟩
      | lock m =>
          simp only [System.advance] at hstep
          split at hstep
          · obtain rfl := Option.some.inj hstep
            cases hp
            exact h.take hthread hrest
          · cases hstep
      | unlock m =>
          obtain rfl := Option.some.inj hstep
          cases hp
          exact h.release hthread hrest
      | wait m =>
          obtain rfl := Option.some.inj hstep
          cases hp with
          | wait hunder => exact h.release hthread ⟨_, .skip _, _, .lock hunder, hrest⟩
      | create kind p =>
          simp only [System.advance] at hstep
          split at hstep
          · rename_i hfree
            obtain rfl := Option.some.inj hstep
            have hne : a.tid ≠ a.choice := by
              intro heq
              rw [← heq, hthread] at hfree
              cases hfree
            cases hp with
            | create hp =>
                refine (h.create hfree (hbody kind)).goOn ?_ ⟨after, hp a.choice, hrest⟩
                exact System.threads_setThread_eq_some.mpr (.inr ⟨hne, hthread⟩)
          · cases hstep
      | join kind target =>
          simp only [System.advance] at hstep
          split at hstep
          · cases hstep
          · obtain rfl := Option.some.inj hstep
            cases hp
            exact h.goOn hthread hrest

theorem ordered_start (kind : K)
    (hbody : ∃ after, Follows rank [.completion kind] (body kind) after) :
    Ordered rank (System.start body kind) := by
  have hempty : Ordered rank (⟨fun _ => none, fun _ => none⟩ : System M K) := by
    refine ⟨?_, ?_, ?_⟩ <;> intro _ _ h <;> cases h
  exact hempty.create rfl hbody

/-- What a thread waits for ranks above all that it holds. -/
theorem Ordered.under {r : Resource M K} {rest : List (Program M K)} (h : Ordered rank s)
    (hthread : s.threads tid = some thread) (hstack : thread.stack = p :: rest)
    (hp : p.awaits = some r) : Under rank thread.held (rank r) := by
  have hall := h.follows tid thread hthread
  rw [hstack] at hall
  obtain ⟨after, hfollows, -⟩ := hall
  cases hfollows with
  | lock hunder =>
      obtain rfl := Option.some.inj hp
      exact hunder
  | join target hunder =>
      obtain rfl := Option.some.inj hp
      exact hunder
  | _ => cases hp

/-- Who is waited for holds the resource. -/
theorem Ordered.held_of_waitsFor {u : ℕ} (h : Ordered rank s) (hwaits : s.WaitsFor tid u) :
    ∃ thread p rest r other, s.threads tid = some thread ∧ thread.stack = p :: rest ∧
      p.awaits = some r ∧ s.threads u = some other ∧ r ∈ other.held := by
  obtain ⟨thread, p, rest, hthread, hstack, hp⟩ := hwaits
  cases p with
  | lock m =>
      obtain ⟨other, hother, hheld⟩ := h.owner m u hp
      exact ⟨thread, _, rest, _, other, hthread, hstack, rfl, hother, hheld⟩
  | join kind target =>
      obtain ⟨rfl, hrunning⟩ := hp
      unfold System.isRunning at hrunning
      split at hrunning
      · rename_i other hother
        obtain ⟨rfl, -⟩ : other.kind = kind ∧ _ := by simpa using hrunning
        exact ⟨thread, _, rest, _, other, hthread, hstack, rfl, hother,
          h.completion target other hother⟩
      · cases hrunning
  | _ => exact hp.elim

/-- Along a chain of waits the awaited resources rise in rank. -/
theorem Ordered.rank_lt {u : ℕ} {q : Program M K} {rest : List (Program M K)} {r : Resource M K}
    (h : Ordered rank s) (hchain : Relation.TransGen s.WaitsFor tid u)
    (hu : s.threads u = some thread) (hstack : thread.stack = q :: rest)
    (hq : q.awaits = some r) :
    ∃ thread' p rest' r', s.threads tid = some thread' ∧ thread'.stack = p :: rest' ∧
      p.awaits = some r' ∧ rank r' < rank r := by
  induction hchain using Relation.TransGen.head_induction_on with
  | single hwaits =>
      obtain ⟨thread', p, rest', r', other, hthread', hstack', hp, hother, hheld⟩ :=
        h.held_of_waitsFor hwaits
      obtain rfl := Option.some.inj (hu.symm.trans hother)
      exact ⟨thread', p, rest', r', hthread', hstack', hp, h.under hu hstack hq r' hheld⟩
  | head hwaits _ ih =>
      obtain ⟨next, p', rest'', r'', hnext, hstack'', hp', hlt⟩ := ih
      obtain ⟨thread', p, rest', r', other, hthread', hstack', hp, hother, hheld⟩ :=
        h.held_of_waitsFor hwaits
      obtain rfl := Option.some.inj (hnext.symm.trans hother)
      exact ⟨thread', p, rest', r', hthread', hstack', hp,
        (h.under hnext hstack'' hp' r' hheld).trans hlt⟩

theorem Ordered.acyclic (h : Ordered rank s) (tid : ℕ) :
    ¬Relation.TransGen s.WaitsFor tid tid := by
  intro hcycle
  obtain ⟨u, hwaits, -⟩ := Relation.TransGen.head'_iff.mp hcycle
  obtain ⟨thread, p, rest, r, -, hthread, hstack, hp, -, -⟩ := h.held_of_waitsFor hwaits
  obtain ⟨thread', p', rest', r', hthread', hstack', hp', hlt⟩ :=
    h.rank_lt hcycle hthread hstack hp
  obtain rfl := Option.some.inj (hthread.symm.trans hthread')
  obtain ⟨rfl, rfl⟩ := List.cons.inj (hstack.symm.trans hstack')
  obtain rfl := Option.some.inj (hp.symm.trans hp')
  exact lt_irrefl _ hlt

/-- No threads wait in a circle in any state that a run of programs in rising rank reaches. -/
theorem always_acyclic (kind : K) (actions : List Action)
    (hbody : ∀ kind, ∃ after, Follows rank [.completion kind] (body kind) after) :
    Transition.Always (System.step body)
      (fun s => ∀ tid, ¬Relation.TransGen s.WaitsFor tid tid) (System.start body kind) actions :=
  (Transition.Always.of_invariant (fun _ _ _ h hstep => Ordered.step h hbody hstep)
    (ordered_start kind (hbody kind)) actions).mono fun _ h => Ordered.acyclic h

end Rank

end LockPrograms
