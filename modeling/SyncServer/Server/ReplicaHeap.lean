import SyncServer.Library.LinkedList
import SyncServer.Replication.Senders

/-! # The replica list in memory

The nodes of the replica list lie in the heap, and `replica_count` is kept apart from them. The
functions walk along the nodes with a pointer to the one before, so that a node can be unlinked
during the walk. What they do to the list is what the functions on lists do.
-/

namespace SyncServer

open LinkedList

/-- `head`, the allocated nodes, `replica_count`, and the descriptors that were closed. -/
structure ReplicaHeap where
  head : Option ℕ
  nodes : Heap ReplicaNode
  replicaCount : ℤ
  closed : List ℕ

/-- A call of `notify_replicas` under way: the nodes it has sent to, and its counter. -/
structure Notifying where
  heap : ReplicaHeap
  attempted : List ReplicaNode
  notifiedReplicas : ℕ

namespace ReplicaHeap

/-! ## The functions

A loop is undefined when it reads a node that is not allocated, and when its fuel is used up before
it has come to the end.
-/

def initial : ReplicaHeap := ⟨none, fun _ => none, 0, []⟩

/-- `find_node` from `current` on. -/
def findNode (nodes : Heap ReplicaNode) (socketfd : ℕ) : ℕ → Option ℕ → Option (Option ℕ)
  | _, none => some none
  | 0, some _ => none
  | fuel + 1, some current =>
      (nodes current).bind fun node =>
        if node.value.socketfd = socketfd then some (some current)
        else findNode nodes socketfd fuel node.next

/-- `add_replica`, with the allocator that `create_new_node` calls. -/
def addReplica (fuel : ℕ) (allocator : Allocator ReplicaNode) (node : ReplicaNode)
    (s : ReplicaHeap) : Option (ReplicaHeap × Bool) :=
  (findNode s.nodes node.socketfd fuel s.head).map fun found =>
    if found.isSome then (s, false)
    else match allocator.malloc s.nodes with
      | none => (s, false)
      | some newNode =>
          ({ s with
              nodes := s.nodes.store newNode ⟨node, s.head⟩
              head := some newNode
              replicaCount := s.replicaCount + 1 }, true)

/-- `replica_list_remove_node`, with the node that follows. -/
def removeNode (prev nodeToRemove : Option ℕ) (s : ReplicaHeap) :
    Option (ReplicaHeap × Option ℕ) :=
  match nodeToRemove with
  | none => some (s, none)
  | some a =>
      (s.nodes a).bind fun node =>
        match prev with
        | none =>
            some ({ head := node.next
                    nodes := s.nodes.free a
                    replicaCount := s.replicaCount - 1
                    closed := s.closed ++ [node.value.socketfd] }, node.next)
        | some p =>
            (s.nodes p).bind fun before =>
              let nodes := (s.nodes.store p { before with next := node.next }).free a
              (nodes p).map fun before =>
                ({ head := s.head
                   nodes := nodes
                   replicaCount := s.replicaCount - 1
                   closed := s.closed ++ [node.value.socketfd] }, before.next)

/-- The loop of `remove_replica_by_id`. -/
def removeLoop (id : ℤ) (s : ReplicaHeap) :
    ℕ → Option ℕ → Option ℕ → Option (ReplicaHeap × Bool)
  | _, _, none => some (s, false)
  | 0, _, some _ => none
  | fuel + 1, prev, some current =>
      (s.nodes current).bind fun node =>
        if node.value.id = id then
          (s.removeNode prev (some current)).map fun removed => (removed.1, true)
        else removeLoop id s fuel (some current) node.next

def removeReplicaById (fuel : ℕ) (id : ℤ) (s : ReplicaHeap) : Option (ReplicaHeap × Bool) :=
  removeLoop id s fuel none s.head

/-- The loop of `notify_replicas`; `send` is what `send_event` returns for a node. -/
def notifyLoop (send : ReplicaNode → SendResult) :
    ℕ → Option ℕ → Option ℕ → Notifying → Option Notifying
  | _, _, none, w => some w
  | 0, _, some _, _ => none
  | fuel + 1, prev, some current, w =>
      (w.heap.nodes current).bind fun node =>
        let attempted := w.attempted ++ [node.value]
        match send node.value with
        | .ok => notifyLoop send fuel (some current) node.next
            ⟨w.heap, attempted, w.notifiedReplicas + 1⟩
        | .socketClosed =>
            (w.heap.removeNode prev (some current)).bind fun removed =>
              notifyLoop send fuel prev removed.2 ⟨removed.1, attempted, w.notifiedReplicas⟩
        | .failed => notifyLoop send fuel (some current) node.next
            ⟨w.heap, attempted, w.notifiedReplicas⟩

def notifyReplicas (fuel : ℕ) (send : ReplicaNode → SendResult) (s : ReplicaHeap) :
    Option Notifying :=
  notifyLoop send fuel none s.head ⟨s, [], 0⟩

/-- The loop of `replica_list_destroy`. -/
def destroyLoop : ℕ → Option ℕ → ReplicaHeap → Option ReplicaHeap
  | _, none, s => some s
  | 0, some _, _ => none
  | fuel + 1, some current, s =>
      (s.nodes current).bind fun node =>
        destroyLoop fuel node.next { s with
          nodes := s.nodes.free current
          closed := if 0 < node.value.socketfd then s.closed ++ [node.value.socketfd]
            else s.closed }

def replicaListDestroy (fuel : ℕ) (s : ReplicaHeap) : Option ReplicaHeap :=
  (destroyLoop fuel s.head s).map fun s => { s with head := none, replicaCount := 0 }

/-! ## Runs -/

inductive Call where
  | addReplica (allocator : Allocator ReplicaNode) (node : ReplicaNode)
  | removeReplicaById (id : ℤ)
  | notifyReplicas (send : ReplicaNode → SendResult)
  | replicaListDestroy

def call (fuel : ℕ) (s : ReplicaHeap) : Call → Option ReplicaHeap
  | .addReplica allocator node => (s.addReplica fuel allocator node).map Prod.fst
  | .removeReplicaById id => (s.removeReplicaById fuel id).map Prod.fst
  | .notifyReplicas send => (s.notifyReplicas fuel send).map Notifying.heap
  | .replicaListDestroy => s.replicaListDestroy fuel

/-! ## What is kept -/

/-- The entries of the list, as many as were counted. -/
structure Holds (s : ReplicaHeap) (entries : List (ℕ × ReplicaNode)) : Prop where
  isList : IsList s.nodes s.head entries
  count : s.replicaCount = entries.length

/-- The nodes without their addresses. -/
def nodesOf (entries : List (ℕ × ReplicaNode)) : List ReplicaNode := entries.map Prod.snd

variable {s : ReplicaHeap}

theorem holds_initial : Holds initial [] := ⟨IsList.empty _, rfl⟩

/-! ### Adding -/

/-- The loop of `find_node` tells whether the rest of the list has the socket. -/
theorem findNode_spec {nodes : Heap ReplicaNode} (socketfd : ℕ)
    {entries : List (ℕ × ReplicaNode)} {start : Option ℕ} {fuel : ℕ}
    (h : Segment nodes start entries none) (hfuel : entries.length ≤ fuel) :
    ∃ found, findNode nodes socketfd fuel start = some found ∧
      found.isSome = hasNode (nodesOf entries) socketfd := by
  induction entries generalizing start fuel with
  | nil =>
      obtain rfl := h.start_eq
      exact ⟨none, by simp [findNode], rfl⟩
  | cons entry entries ih =>
      cases h with
      | @cons a node next _ _ hcell hrest =>
          cases fuel with
          | zero => simp at hfuel
          | succ fuel =>
              rw [findNode, hcell, Option.bind_some]
              by_cases hsocket : node.socketfd = socketfd
              · exact ⟨some a, by simp [hsocket], by simp [nodesOf, hasNode, hsocket]⟩
              · obtain ⟨found, hfind, hfound⟩ := ih hrest (by simpa using hfuel)
                refine ⟨found, by simp [hsocket, hfind], ?_⟩
                rw [hfound]
                simp [nodesOf, hasNode, hsocket]

/-- `add_replica` does what the function on lists does, unless there is no memory. -/
theorem addReplica_spec {entries : List (ℕ × ReplicaNode)} (h : Holds s entries) {fuel : ℕ}
    (hfuel : entries.length ≤ fuel) (allocator : Allocator ReplicaNode) (node : ReplicaNode) :
    (s.addReplica fuel allocator node = some (s, false)) ∨
      ∃ s' a, s.addReplica fuel allocator node = some (s', true) ∧
        Holds s' ((a, node) :: entries) ∧
        SyncServer.addReplica (nodesOf entries) node = some (node :: nodesOf entries) := by
  obtain ⟨found, hfind, hfound⟩ := findNode_spec node.socketfd h.isList.segment hfuel
  rw [addReplica, hfind, Option.map_some]
  by_cases hnode : found.isSome = true
  · exact Or.inl (by rw [if_pos hnode])
  · rw [if_neg hnode]
    cases hmalloc : allocator.malloc s.nodes with
    | none => exact Or.inl rfl
    | some a =>
        refine Or.inr ⟨_, a, rfl, ⟨h.isList.push (allocator.fresh _ _ hmalloc) node, ?_⟩, ?_⟩
        · simp [h.count]
        · rw [SyncServer.addReplica, ← hfound, if_neg hnode]

/-! ### Unlinking -/

/-- `replica_list_remove_node` takes out the entry that the walk stands at. -/
theorem removeNode_spec {before rest : List (ℕ × ReplicaNode)} {a : ℕ} {node : ReplicaNode}
    (h : Holds s (before ++ (a, node) :: rest)) :
    ∃ s', s.removeNode (last before) (some a) = some (s', first rest) ∧
      Holds s' (before ++ rest) ∧ s'.closed = s.closed ++ [node.socketfd] := by
  obtain ⟨hlist, hcount⟩ := h
  have hcell := hlist.cell
  have hcount' : s.replicaCount - 1 = (before ++ rest).length := by
    rw [hcount]
    simp only [List.length_append, List.length_cons]
    omega
  rcases List.eq_nil_or_concat before with rfl | ⟨front, ⟨p, y⟩, rfl⟩
  · refine ⟨⟨first rest, s.nodes.free a, s.replicaCount - 1, s.closed ++ [node.socketfd]⟩, ?_,
      ⟨hlist.unlink_head, hcount'⟩, rfl⟩
    simp [removeNode, hcell]
  · simp only [List.concat_eq_append, List.append_assoc, List.singleton_append] at hlist hcount'
    obtain ⟨hne, hlist'⟩ := hlist.unlink_after
    refine ⟨⟨s.head, (s.nodes.store p ⟨y, first rest⟩).free a, s.replicaCount - 1,
      s.closed ++ [node.socketfd]⟩, ?_, ⟨by simpa using hlist', by simpa using hcount'⟩, rfl⟩
    simp [removeNode, hcell, hlist.cell, hne]

/-- The loop of `remove_replica_by_id`, with the entries before the place of the walk. -/
theorem removeLoop_spec (id : ℤ) (before : List (ℕ × ReplicaNode))
    {rest : List (ℕ × ReplicaNode)} (h : Holds s (before ++ rest)) {fuel : ℕ}
    (hfuel : rest.length ≤ fuel) :
    ∃ s', removeLoop id s fuel (last before) (first rest) =
        some (s', (nodesOf rest).any (·.id = id)) ∧
      Holds s' (before ++ rest.eraseP (·.2.id = id)) := by
  induction rest generalizing before fuel with
  | nil => exact ⟨s, by simp [removeLoop, nodesOf], h⟩
  | cons entry rest ih =>
      obtain ⟨a, node⟩ := entry
      cases fuel with
      | zero => simp at hfuel
      | succ fuel =>
          rw [first_cons, removeLoop, h.isList.cell, Option.bind_some]
          by_cases hid : node.id = id
          · obtain ⟨s', hremove, hholds, -⟩ := removeNode_spec h
            exact ⟨s', by simp [hid, hremove, nodesOf], by simpa [hid] using hholds⟩
          · have hnext : Holds s ((before ++ [(a, node)]) ++ rest) := by simpa using h
            obtain ⟨s', hloop, hholds⟩ := ih _ hnext (by simpa using hfuel)
            rw [last_concat] at hloop
            exact ⟨s', by simp [hid, hloop, nodesOf], by simpa [hid] using hholds⟩

/-- `remove_replica_by_id` does what the function on lists does. -/
theorem removeReplicaById_spec {entries : List (ℕ × ReplicaNode)} (h : Holds s entries)
    {fuel : ℕ} (hfuel : entries.length ≤ fuel) (id : ℤ) :
    ∃ s', s.removeReplicaById fuel id = some (s', (nodesOf entries).any (·.id = id)) ∧
      Holds s' (entries.eraseP (·.2.id = id)) ∧
      nodesOf (entries.eraseP (·.2.id = id)) =
        SyncServer.removeReplicaById (nodesOf entries) id := by
  obtain ⟨s', hloop, hholds⟩ := removeLoop_spec id [] h hfuel
  refine ⟨s', ?_, hholds, ?_⟩
  · rw [removeReplicaById, h.isList.head_eq]
    exact hloop
  · rw [nodesOf, SyncServer.removeReplicaById, nodesOf, List.eraseP_map]
    rfl

/-! ### Notifying -/

/-- The loop of `notify_replicas`, with the entries before the place of the walk: the rest of the
list is sent to in order, and those that were found closed are gone. -/
theorem notifyLoop_spec (send : ReplicaNode → SendResult) (before : List (ℕ × ReplicaNode))
    {rest : List (ℕ × ReplicaNode)} (h : Holds s (before ++ rest))
    (attempted : List ReplicaNode) (notified : ℕ) {fuel : ℕ}
    (hfuel : rest.length ≤ fuel) :
    ∃ s', notifyLoop send fuel (last before) (first rest) ⟨s, attempted, notified⟩ =
        some ⟨s', attempted ++ nodesOf rest, notified + (nodesOf rest).countP (send · = .ok)⟩ ∧
      Holds s' (before ++ rest.filter (send ·.2 ≠ .socketClosed)) := by
  induction rest generalizing s before attempted notified fuel with
  | nil => exact ⟨s, by simp [notifyLoop, nodesOf], by simpa using h⟩
  | cons entry rest ih =>
      obtain ⟨a, node⟩ := entry
      have hnext : Holds s ((before ++ [(a, node)]) ++ rest) := by simpa using h
      cases fuel with
      | zero => simp at hfuel
      | succ fuel =>
          have hfuel' : rest.length ≤ fuel := by simpa using hfuel
          rw [first_cons, notifyLoop, h.isList.cell, Option.bind_some]
          cases hsend : send node with
          | ok =>
              obtain ⟨s', hloop, hholds⟩ :=
                ih _ hnext (attempted ++ [node]) (notified + 1) hfuel'
              rw [last_concat] at hloop
              refine ⟨s', ?_, by simpa [hsend] using hholds⟩
              simp [hloop, nodesOf, hsend, Nat.add_assoc, Nat.add_comm 1]
          | socketClosed =>
              obtain ⟨s₁, hremove, hholds₁, -⟩ := removeNode_spec h
              obtain ⟨s', hloop, hholds⟩ := ih _ hholds₁ (attempted ++ [node]) notified hfuel'
              refine ⟨s', ?_, by simpa [hsend] using hholds⟩
              simp [hremove, hloop, nodesOf, hsend]
          | failed =>
              obtain ⟨s', hloop, hholds⟩ := ih _ hnext (attempted ++ [node]) notified hfuel'
              rw [last_concat] at hloop
              refine ⟨s', ?_, by simpa [hsend] using hholds⟩
              simp [hloop, nodesOf, hsend]

theorem notifyReplicas_spec {entries : List (ℕ × ReplicaNode)} (h : Holds s entries) {fuel : ℕ}
    (hfuel : entries.length ≤ fuel) (send : ReplicaNode → SendResult) :
    ∃ s', s.notifyReplicas fuel send =
        some ⟨s', nodesOf entries, (nodesOf entries).countP (send · = .ok)⟩ ∧
      Holds s' (entries.filter (send ·.2 ≠ .socketClosed)) := by
  obtain ⟨s', hloop, hholds⟩ := notifyLoop_spec send [] h [] 0 hfuel
  refine ⟨s', ?_, hholds⟩
  rw [notifyReplicas, h.isList.head_eq]
  simpa using hloop

/-- `notify_replicas` keeps what the function on lists keeps. -/
theorem nodesOf_filter_send {entries : List (ℕ × ReplicaNode)}
    (hsockets : ((nodesOf entries).map (·.socketfd)).Nodup) (send : ReplicaNode → SendResult) :
    nodesOf (entries.filter (send ·.2 ≠ .socketClosed)) =
      keepOpen (nodesOf entries)
        (((nodesOf entries).filter (send · = .socketClosed)).map (·.socketfd)) := by
  have hmap : nodesOf (entries.filter (send ·.2 ≠ .socketClosed)) =
      (nodesOf entries).filter (send · ≠ .socketClosed) := by
    rw [nodesOf, nodesOf, List.filter_map]
    rfl
  rw [hmap, keepOpen]
  apply List.filter_congr
  intro node hnode
  simp only [decide_eq_decide, List.mem_map, List.mem_filter, decide_eq_true_eq]
  constructor
  · rintro hopen ⟨other, ⟨hother, hclosed⟩, hsocket⟩
    obtain rfl := List.inj_on_of_nodup_map hsockets hother hnode hsocket
    exact hopen hclosed
  · intro h hclosed
    exact h ⟨node, ⟨hnode, hclosed⟩, rfl⟩

/-! ### Destroying -/

theorem destroyLoop_spec {current : Option ℕ} {entries : List (ℕ × ReplicaNode)}
    (h : IsList s.nodes current entries) {fuel : ℕ} (hfuel : entries.length ≤ fuel) :
    ∃ s', destroyLoop fuel current s = some s' := by
  induction entries generalizing s current fuel with
  | nil =>
      obtain rfl := h.head_eq
      exact ⟨s, by simp [destroyLoop]⟩
  | cons entry entries ih =>
      obtain ⟨a, node⟩ := entry
      obtain rfl := h.head_eq
      cases fuel with
      | zero => simp at hfuel
      | succ fuel =>
          have hlist : IsList s.nodes (some a) ([] ++ (a, node) :: entries) := h
          rw [first_cons, destroyLoop, hlist.cell, Option.bind_some]
          exact ih h.unlink_head (by simpa using hfuel)

theorem replicaListDestroy_spec {entries : List (ℕ × ReplicaNode)} (h : Holds s entries)
    {fuel : ℕ} (hfuel : entries.length ≤ fuel) :
    ∃ s', s.replicaListDestroy fuel = some s' ∧ Holds s' [] := by
  obtain ⟨s', hloop⟩ := destroyLoop_spec h.isList hfuel
  exact ⟨_, by rw [replicaListDestroy, hloop]; rfl, IsList.empty _, rfl⟩

/-! ## Every run -/

/-- The sockets in the list are different. -/
def Distinct (entries : List (ℕ × ReplicaNode)) : Prop :=
  ((nodesOf entries).map (·.socketfd)).Nodup

theorem Distinct.sublist {entries entries' : List (ℕ × ReplicaNode)} (h : Distinct entries)
    (hsublist : entries'.Sublist entries) : Distinct entries' :=
  List.Nodup.sublist ((hsublist.map _).map _) h

theorem distinct_cons {entries : List (ℕ × ReplicaNode)} (h : Distinct entries) {a : ℕ}
    {node : ReplicaNode} (hnew : hasNode (nodesOf entries) node.socketfd = false) :
    Distinct ((a, node) :: entries) := by
  refine List.nodup_cons.mpr ⟨fun hmem => ?_, h⟩
  obtain ⟨other, hother, hsocket⟩ := List.mem_map.mp hmem
  exact List.any_eq_false.mp hnew other hother (by simpa using hsocket)

/-- Every call comes to its end and keeps the counter and the sockets right. -/
theorem call_spec {entries : List (ℕ × ReplicaNode)} (h : Holds s entries)
    (hdistinct : Distinct entries) {fuel : ℕ} (hfuel : entries.length ≤ fuel) (c : Call) :
    ∃ s' entries', s.call fuel c = some s' ∧ Holds s' entries' ∧ Distinct entries' ∧
      entries'.length ≤ entries.length + 1 := by
  cases c with
  | addReplica allocator node =>
      rcases addReplica_spec h hfuel allocator node with hadd | ⟨s', a, hadd, hholds, hlist⟩
      · exact ⟨s, entries, by rw [call, hadd]; rfl, h, hdistinct, by omega⟩
      · obtain ⟨hnew, -⟩ := addReplica_eq_some hlist
        exact ⟨s', _, by rw [call, hadd]; rfl, hholds, distinct_cons hdistinct hnew, by simp⟩
  | removeReplicaById id =>
      obtain ⟨s', hremove, hholds, -⟩ := removeReplicaById_spec h hfuel id
      have hsublist := List.eraseP_sublist (p := fun entry => entry.2.id = id) (l := entries)
      refine ⟨s', _, by rw [call, hremove]; rfl, hholds, hdistinct.sublist hsublist, ?_⟩
      exact Nat.le_succ_of_le hsublist.length_le
  | notifyReplicas send =>
      obtain ⟨s', hnotify, hholds⟩ := notifyReplicas_spec h hfuel send
      have hsublist := List.filter_sublist (p := fun entry => send entry.2 ≠ .socketClosed)
        (l := entries)
      refine ⟨s', _, by rw [call, hnotify]; rfl, hholds, hdistinct.sublist hsublist, ?_⟩
      exact Nat.le_succ_of_le hsublist.length_le
  | replicaListDestroy =>
      obtain ⟨s', hdestroy, hholds⟩ := replicaListDestroy_spec h hfuel
      exact ⟨s', [], hdestroy, hholds, List.nodup_nil, Nat.zero_le _⟩

theorem run_spec (calls : List Call) {entries : List (ℕ × ReplicaNode)} (h : Holds s entries)
    (hdistinct : Distinct entries) {fuel : ℕ} (hfuel : entries.length + calls.length ≤ fuel) :
    ∃ s' entries', Transition.run (call fuel) s calls = some s' ∧ Holds s' entries' ∧
      Distinct entries' ∧ entries'.length ≤ entries.length + calls.length := by
  induction calls generalizing s entries with
  | nil => exact ⟨s, entries, rfl, h, hdistinct, by simp⟩
  | cons c calls ih =>
      rw [List.length_cons] at hfuel ⊢
      obtain ⟨s₁, entries₁, hcall, hholds₁, hdistinct₁, hle₁⟩ :=
        call_spec h hdistinct (by omega : entries.length ≤ fuel) c
      obtain ⟨s', entries', hrun, hholds, hdistinct', hle⟩ := ih hholds₁ hdistinct₁ (by omega)
      refine ⟨s', entries', ?_, hholds, hdistinct', by omega⟩
      exact Transition.run_cons_eq_some.mpr ⟨s₁, hcall, hrun⟩

/-- After any calls the counter is the length of the list and its sockets are different; and a
call of `notify_replicas` then sends to every node in order, counts those that it reached, and
takes out the closed ones without touching the others. -/
theorem notifyReplicas_of_run (calls : List Call) {fuel : ℕ} (hfuel : calls.length ≤ fuel) :
    ∃ s entries, Transition.run (call fuel) initial calls = some s ∧
      IsList s.nodes s.head entries ∧ s.replicaCount = entries.length ∧
      ((nodesOf entries).map (·.socketfd)).Nodup ∧
      ∀ send : ReplicaNode → SendResult, ∃ s',
        s.notifyReplicas fuel send =
          some ⟨s', nodesOf entries, (nodesOf entries).countP (send · = .ok)⟩ ∧
        IsList s'.nodes s'.head (entries.filter (send ·.2 ≠ .socketClosed)) ∧
        s'.replicaCount = (entries.filter (send ·.2 ≠ .socketClosed)).length := by
  obtain ⟨s, entries, hrun, hholds, hdistinct, hle⟩ :=
    run_spec calls holds_initial List.nodup_nil (by simpa using hfuel)
  refine ⟨s, entries, hrun, hholds.isList, hholds.count, hdistinct, fun send => ?_⟩
  have hlength : entries.length ≤ fuel := hle.trans (by simpa using hfuel)
  obtain ⟨s', hnotify, hholds'⟩ := notifyReplicas_spec hholds hlength send
  exact ⟨s', hnotify, hholds'.isList, hholds'.count⟩

/-- Two replicas are added, and the second one is found closed. -/
def closedCalls : List Call :=
  [.addReplica (.single 8) ⟨1, 5, 4000, .zero⟩, .addReplica (.single 16) ⟨2, 6, 4000, .zero⟩,
    .notifyReplicas fun node => if node.id = 2 then .socketClosed else .ok]

theorem notifyReplicas_of_run_closedCalls :
    ∃ s entries, Transition.run (call 3) initial closedCalls = some s ∧
      s.replicaCount = entries.length ∧ ((nodesOf entries).map (·.socketfd)).Nodup := by
  obtain ⟨s, entries, hrun, -, hcount, hnodup, -⟩ :=
    notifyReplicas_of_run closedCalls (by decide : closedCalls.length ≤ 3)
  exact ⟨s, entries, hrun, hcount, hnodup⟩

example : (Transition.run (call 3) initial closedCalls).map
    (fun s => (s.head, s.replicaCount, s.closed)) = some (some 8, 1, [6]) := by decide

end ReplicaHeap

end SyncServer
