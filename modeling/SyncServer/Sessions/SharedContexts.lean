import SyncServer.Library.Transition
import SyncServer.Sessions.Context

/-! # Does every user have one context?

`get_or_create_context` searches under the lock of a bucket, gives it back, and takes it again
to insert. The contexts are told apart by their pointers here, so that two contexts of one user
are seen.
-/

namespace SyncServer

open CText Transition

/-! ## The table of pointers -/

/-- `LinkedList_get` over any kind of value, as `linkedListGet` is over contexts. -/
def nodesGet {β : Type*} (list : List (Bytes × β)) (key : Bytes) : Option (Option β) :=
  if list.isEmpty then some none else (list.find? (·.1 = key)).map fun node => some node.2

theorem linkedListGet_eq_nodesGet (list : List (Bytes × UserContext)) (key : Bytes) :
    linkedListGet list key = nodesGet list key := by
  cases list <;> simp [linkedListGet, nodesGet]

/-- A caller of `get_or_create_context`: outside of it, or between a search that found nothing
and its insertion. -/
inductive ContextCaller where
  | outside
  | missed (username : Bytes)
  deriving DecidableEq, Repr

/-- The lists of nodes with the pointers in them, the threads, and the blocks that `malloc` has
given out. -/
structure SharedContexts where
  array : ℕ → List (Bytes × ℕ)
  callers : ℕ → ContextCaller
  allocated : List ℕ

/-- The pointers that calls have returned, with the names they were called with. -/
abbrev Returns := List (Bytes × ℕ)

namespace SharedContexts

/-- `HashTable_search` begins a call of the thread; `HashTable_insert` with the block `fresh`,
which `create_context` has filled, ends it. -/
inductive Action where
  | search (tid : ℕ) (username : Bytes)
  | insert (tid fresh : ℕ)
  deriving DecidableEq, Repr

/-- The bucket of a name. -/
def bucket (s : SharedContexts) (username : Bytes) : List (Bytes × ℕ) :=
  s.array (keyHash username tableSize)

/-- The call has returned from `HashTable_search`, which crashes where `LinkedList_get` does. -/
def searchStep (s : SharedContexts) (tid : ℕ) (username : Bytes) : Option SharedContexts :=
  (nodesGet (s.bucket username) username).map fun found =>
    match found with
    | some _ => s
    | none => { s with callers := Function.update s.callers tid (.missed username) }

def insertStep (s : SharedContexts) (tid fresh : ℕ) (username : Bytes) : SharedContexts where
  array := Function.update s.array (keyHash username tableSize)
    ((username, fresh) :: s.bucket username)
  callers := Function.update s.callers tid .outside
  allocated := fresh :: s.allocated

def step (s : SharedContexts) : Action → Option SharedContexts
  | .search tid username =>
      if s.callers tid = .outside then s.searchStep tid username else none
  | .insert tid fresh =>
      match s.callers tid with
      | .missed username =>
          if fresh ∈ s.allocated then none else some (s.insertStep tid fresh username)
      | .outside => none

/-- `HashTable_create`, and no calls. -/
def create : SharedContexts := ⟨fun _ => [], fun _ => .outside, []⟩

/-- The observer of what the calls return. -/
def returnsAfter (returns : Returns) (s : SharedContexts) : Action → Returns
  | .search _ username =>
      match nodesGet (s.bucket username) username with
      | some (some pointer) => (username, pointer) :: returns
      | _ => returns
  | .insert tid fresh =>
      match s.callers tid with
      | .missed username => (username, fresh) :: returns
      | .outside => returns

abbrev stepWithReturns : Returns × SharedContexts → Action → Option (Returns × SharedContexts) :=
  watch returnsAfter step

/-- Calls with equal names have returned equal pointers, and no two nodes have equal keys. -/
def OneContext : Returns × SharedContexts → Prop
  | (returns, s) =>
      (∀ username p q, (username, p) ∈ returns → (username, q) ∈ returns → p = q) ∧
      ∀ (index i index' i' : ℕ) (node node' : Bytes × ℕ), (s.array index)[i]? = some node →
        (s.array index')[i']? = some node' → node.1 = node'.1 → index = index' ∧ i = i'

/-- A search for a name runs while no other thread is between its search for that name and its
insertion. -/
def SearchesAlone (s : SharedContexts) : Action → Prop
  | .search _ username => ∀ tid, s.callers tid ≠ .missed username
  | .insert _ _ => True

/-! ## What the steps do to the names -/

/-- The pointer that a search for the name finds. -/
def find (s : SharedContexts) (username : Bytes) : Option ℕ :=
  ((s.bucket username).find? (·.1 = username)).map Prod.snd

theorem find_of_hit {s : SharedContexts} {username : Bytes} {pointer : ℕ}
    (h : nodesGet (s.bucket username) username = some (some pointer)) :
    s.find username = some pointer := by
  unfold nodesGet at h
  split at h
  · cases h
  · simpa [find, Option.map_eq_some_iff] using h

theorem find_of_miss {s : SharedContexts} {username : Bytes}
    (h : nodesGet (s.bucket username) username = some none) : s.find username = none := by
  unfold nodesGet at h
  split at h
  · rename_i hempty
    simp [find, List.isEmpty_iff.mp hempty]
  · simp at h

theorem find_insertStep (s : SharedContexts) (tid fresh : ℕ) (username other : Bytes) :
    (s.insertStep tid fresh username).find other =
      if other = username then some fresh else s.find other := by
  by_cases ho : other = username
  · subst ho
    simp [find, bucket, insertStep]
  · rw [if_neg ho]
    by_cases hh : keyHash other tableSize = keyHash username tableSize
    · simp [find, bucket, insertStep, hh, Ne.symm ho]
    · simp [find, bucket, insertStep, hh]

/-- A name without a pointer has no node in its bucket. -/
theorem not_mem_of_find_none {s : SharedContexts} {username : Bytes}
    (h : s.find username = none) : username ∉ (s.bucket username).map Prod.fst := by
  simp only [find, Option.map_eq_none_iff, List.find?_eq_none, decide_eq_true_eq] at h
  intro hmem
  obtain ⟨node, hnode, rfl⟩ := List.mem_map.mp hmem
  exact h node hnode rfl

/-! ## Calls that do not overlap -/

/-- The table and the calls agree: the nodes lie in their buckets with distinct keys, what was
returned is what a search finds, and a name that is about to be inserted has no node and is
about to be inserted by one thread only. -/
structure Unshared (returns : Returns) (s : SharedContexts) : Prop where
  hashed : ∀ index, ∀ node ∈ s.array index, keyHash node.1 tableSize = index
  nodup : ∀ index, ((s.array index).map Prod.fst).Nodup
  returned : ∀ username p, (username, p) ∈ returns → s.find username = some p
  missed : ∀ tid username, s.callers tid = .missed username → s.find username = none
  alone : ∀ tid tid' username, s.callers tid = .missed username →
    s.callers tid' = .missed username → tid = tid'

variable {returns : Returns} {s : SharedContexts}

theorem Unshared.oneContext (h : Unshared returns s) : OneContext (returns, s) := by
  constructor
  · intro username p q hp hq
    exact Option.some.inj ((h.returned username p hp).symm.trans (h.returned username q hq))
  · intro index i index' i' node node' hi hi' hkey
    have hindex : index = index' := by
      rw [← h.hashed index node (List.mem_of_getElem? hi), hkey,
        h.hashed index' node' (List.mem_of_getElem? hi')]
    subst hindex
    refine ⟨rfl, ?_⟩
    have hget : ((s.array index).map Prod.fst)[i]? = ((s.array index).map Prod.fst)[i']? := by
      simp [hi, hi', hkey]
    obtain ⟨hlt, -⟩ := List.getElem?_eq_some_iff.mp hi
    exact List.getElem?_inj (by simpa using hlt) (h.nodup index) |>.mp hget

theorem Unshared.search {tid : ℕ} {username : Bytes} {t : SharedContexts} (h : Unshared returns s)
    (hok : ∀ tid, s.callers tid ≠ .missed username) (hstep : s.searchStep tid username = some t) :
    Unshared (returnsAfter returns s (.search tid username)) t := by
  obtain ⟨found, hfound, rfl⟩ := Option.map_eq_some_iff.mp hstep
  cases found with
  | some pointer =>
      simp only [returnsAfter, hfound]
      refine ⟨h.hashed, h.nodup, ?_, h.missed, h.alone⟩
      intro name p hp
      rcases List.mem_cons.mp hp with heq | hp
      · obtain ⟨rfl, rfl⟩ := Prod.mk.inj heq
        exact find_of_hit hfound
      · exact h.returned name p hp
  | none =>
      simp only [returnsAfter, hfound]
      have hcaller : ∀ t name, Function.update s.callers tid (.missed username) t = .missed name →
          t = tid ∧ name = username ∨ t ≠ tid ∧ s.callers t = .missed name := by
        intro t name ht
        by_cases heq : t = tid
        · subst heq
          rw [Function.update_self] at ht
          exact .inl ⟨rfl, (ContextCaller.missed.inj ht).symm⟩
        · rw [Function.update_of_ne heq] at ht
          exact .inr ⟨heq, ht⟩
      refine ⟨h.hashed, h.nodup, h.returned, ?_, ?_⟩
      · intro t name ht
        rcases hcaller t name ht with ⟨-, rfl⟩ | ⟨-, hmissed⟩
        · exact find_of_miss hfound
        · exact h.missed t name hmissed
      · intro t t' name ht ht'
        rcases hcaller t name ht with ⟨rfl, rfl⟩ | ⟨-, hmissed⟩
        · rcases hcaller t' name ht' with ⟨rfl, -⟩ | ⟨-, hmissed⟩
          · rfl
          · exact absurd hmissed (hok t')
        · rcases hcaller t' name ht' with ⟨-, rfl⟩ | ⟨-, hmissed'⟩
          · exact absurd hmissed (hok t)
          · exact h.alone t t' name hmissed hmissed'

theorem Unshared.insert {tid fresh : ℕ} {username : Bytes} (h : Unshared returns s)
    (hmissed : s.callers tid = .missed username) :
    Unshared ((username, fresh) :: returns) (s.insertStep tid fresh username) := by
  have hnone := h.missed tid username hmissed
  have hcaller : ∀ t name, (s.insertStep tid fresh username).callers t = .missed name →
      t ≠ tid ∧ s.callers t = .missed name := by
    intro t name ht
    by_cases heq : t = tid
    · subst heq
      simp [insertStep] at ht
    · simp only [insertStep, Function.update_of_ne heq] at ht
      exact ⟨heq, ht⟩
  constructor
  · intro index node hnode
    by_cases hi : index = keyHash username tableSize
    · subst hi
      simp only [insertStep, Function.update_self] at hnode
      rcases List.mem_cons.mp hnode with rfl | hnode
      · rfl
      · exact h.hashed _ node hnode
    · simp only [insertStep, Function.update_of_ne hi] at hnode
      exact h.hashed index node hnode
  · intro index
    by_cases hi : index = keyHash username tableSize
    · subst hi
      simp only [insertStep, Function.update_self, List.map_cons, List.nodup_cons]
      exact ⟨not_mem_of_find_none hnone, h.nodup _⟩
    · simp only [insertStep, Function.update_of_ne hi]
      exact h.nodup index
  · intro name p hp
    rw [find_insertStep]
    rcases List.mem_cons.mp hp with heq | hp
    · obtain ⟨rfl, rfl⟩ := Prod.mk.inj heq
      simp
    · have hfind := h.returned name p hp
      rw [if_neg, hfind]
      rintro rfl
      rw [hnone] at hfind
      cases hfind
  · intro t name ht
    obtain ⟨hne, hcall⟩ := hcaller t name ht
    rw [find_insertStep, if_neg, h.missed t name hcall]
    rintro rfl
    exact hne (h.alone t tid name hcall hmissed)
  · intro t t' name ht ht'
    exact h.alone t t' name (hcaller t name ht).2 (hcaller t' name ht').2

theorem Unshared.step {p p' : Returns × SharedContexts} {a : Action} (h : Unshared p.1 p.2)
    (hok : p.2.SearchesAlone a) (hwatch : stepWithReturns p a = some p') :
    Unshared p'.1 p'.2 := by
  obtain ⟨returns, s⟩ := p
  obtain ⟨returns', t⟩ := p'
  obtain ⟨hstep, rfl⟩ := watch_eq_some.mp hwatch
  cases a with
  | search tid username =>
      simp only [SharedContexts.step] at hstep
      split at hstep
      · exact Unshared.search h hok hstep
      · cases hstep
  | insert tid fresh =>
      cases hcaller : s.callers tid with
      | outside => simp [SharedContexts.step, hcaller] at hstep
      | missed username =>
          simp only [SharedContexts.step, hcaller] at hstep
          split at hstep
          · cases hstep
          · obtain rfl := Option.some.inj hstep
            simp only [returnsAfter, hcaller]
            exact Unshared.insert h hcaller

/-- **One context per user** in every run in which no search for a name falls between another
thread's search for it and its insertion. -/
theorem one_context_per_user (actions : List Action)
    (hok : Along stepWithReturns (fun p a => p.2.SearchesAlone a) ([], create) actions) :
    Always stepWithReturns OneContext ([], create) actions := by
  have hstart : Unshared [] create := by
    refine ⟨?_, fun _ => List.nodup_nil, ?_, ?_, ?_⟩ <;> simp [create]
  exact (hok.always (I := fun p => Unshared p.1 p.2) (fun p a p' hp ha h => hp.step ha h)
    hstart).mono fun p hp => hp.oneContext

/-! ## Calls that overlap -/

/-- Two threads that have both missed a name give its user two contexts. -/
theorem two_contexts_of_overlap {tid tid' fresh fresh' : ℕ} {username : Bytes} {returns : Returns}
    {s : SharedContexts} (hne : tid ≠ tid') (hmissed : s.callers tid = .missed username)
    (hmissed' : s.callers tid' = .missed username) (hfresh : fresh ∉ s.allocated)
    (hfresh' : fresh' ∉ fresh :: s.allocated) :
    ∃ p ∈ run stepWithReturns (returns, s) [.insert tid fresh, .insert tid' fresh'],
      ¬ OneContext p := by
  have hfirst : s.step (.insert tid fresh) = some (s.insertStep tid fresh username) := by
    simp [SharedContexts.step, hmissed, hfresh]
  have hcaller : (s.insertStep tid fresh username).callers tid' = .missed username := by
    simp [insertStep, hne.symm, hmissed']
  have hsecond : (s.insertStep tid fresh username).step (.insert tid' fresh') =
      some ((s.insertStep tid fresh username).insertStep tid' fresh' username) := by
    simp only [SharedContexts.step, hcaller]
    exact if_neg hfresh'
  refine ⟨_, run_cons_eq_some.mpr ⟨_, watch_eq_some.mpr ⟨hfirst, rfl⟩,
    run_cons_eq_some.mpr ⟨_, watch_eq_some.mpr ⟨hsecond, rfl⟩, rfl⟩⟩, ?_⟩
  intro hone
  have hreturns : returnsAfter (returnsAfter returns s (.insert tid fresh))
      (s.insertStep tid fresh username) (.insert tid' fresh') =
      (username, fresh') :: (username, fresh) :: returns := by
    simp only [returnsAfter, hmissed, hcaller]
  have heq := hone.1 username fresh fresh' (by simp [hreturns]) (by simp [hreturns])
  exact hfresh' (heq ▸ List.mem_cons_self)

/-- The main thread creates the context of `a` and the connect thread finds it. -/
theorem one_context_found :
    (∃ p ∈ run stepWithReturns ([], create) [.search 0 [97], .insert 0 5, .search 1 [97]],
      p.1 = [([97], 5), ([97], 5)]) ∧
    Always stepWithReturns OneContext ([], create)
      [.search 0 [97], .insert 0 5, .search 1 [97]] := by
  refine ⟨by decide +kernel, one_context_per_user _ ?_⟩
  have houtside : ∀ tid, (Function.update (Function.update (fun _ => ContextCaller.outside) 0
      (.missed [97])) 0 .outside : ℕ → ContextCaller) tid = .outside := by
    intro tid
    by_cases h : tid = 0 <;> simp [h]
  intro p hp
  obtain rfl := Option.some.inj hp
  refine ⟨fun tid h => ?_, fun q hq => ?_⟩
  · cases h
  · obtain rfl := Option.some.inj hq
    refine ⟨trivial, fun r hr => ⟨fun tid h => ?_, trivial⟩⟩
    cases (houtside tid).symm.trans h

/-- Both threads search before either inserts. -/
theorem two_contexts :
    ∃ p ∈ run stepWithReturns ([], create)
        [.search 0 [97], .search 1 [97], .insert 0 5, .insert 1 6],
      p.1 = [([97], 6), ([97], 5)] ∧ ¬ OneContext p := by
  have hcheck : ∃ p ∈ run stepWithReturns ([], create) [.search 0 [97], .search 1 [97],
      .insert 0 5, .insert 1 6], p.1 = [([97], 6), ([97], 5)] := by
    decide +kernel
  obtain ⟨⟨returns, s⟩, hrun, rfl⟩ := hcheck
  refine ⟨_, hrun, rfl, fun hone => ?_⟩
  have heq := hone.1 [97] 5 6 (by simp) (by simp)
  cases heq

end SharedContexts

end SyncServer
