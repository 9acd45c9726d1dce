import SyncServer.Wire.ReplicaEvent

/-! # The replica list

The list behind `head`, without its counter. Every function below is one section under
`replica_list_mutex`.
-/

namespace SyncServer

open CText

/-- `struct ReplicaNode`; the rest of the list is its `next`. -/
structure ReplicaNode where
  id : ℤ
  socketfd : ℕ
  listenerPort : ℤ
  deviceAddress : SockAddrIn
  deriving DecidableEq, Repr

/-- `find_node(socketfd) != NULL`. -/
def hasNode (list : List ReplicaNode) (socketfd : ℕ) : Bool :=
  list.any (·.socketfd = socketfd)

/-- The locked section of `add_replica`: a new node goes to the front unless its socket is
already there. The counter is raised after the section. -/
def addReplica (list : List ReplicaNode) (node : ReplicaNode) : Option (List ReplicaNode) :=
  if hasNode list node.socketfd then none else some (node :: list)

/-- `remove_replica_by_id` unlinks the first node with the id. -/
def removeReplicaById (list : List ReplicaNode) (id : ℤ) : List ReplicaNode :=
  list.eraseP (·.id = id)

/-- The nodes that a walk from a stored pointer visits. The pointer is the socket of the node
it was taken to, `none` for a null pointer; the walk is undefined when that node is gone. -/
def chainFrom (list : List ReplicaNode) : Option ℕ → Option (List ReplicaNode)
  | none => some []
  | some socketfd =>
      if hasNode list socketfd then some (list.dropWhile (·.socketfd ≠ socketfd)) else none

/-- The pointer that `get_replica_list_head` returns. -/
def listHead (list : List ReplicaNode) : Option ℕ := list.head?.map (·.socketfd)

/-- The walk of `notify_replicas` keeps the nodes whose connection was not found closed. -/
def keepOpen (list : List ReplicaNode) (closed : List ℕ) : List ReplicaNode :=
  list.filter (·.socketfd ∉ closed)

/-- `send_event` to every node of the list. -/
def sendToAll (list : List ReplicaNode) (payload : Bytes) : List (ℕ × Bytes) :=
  list.map fun node => (node.socketfd, payload)

theorem mem_chainFrom {list nodes : List ReplicaNode} {head : Option ℕ} {node : ReplicaNode}
    (h : chainFrom list head = some nodes) (hn : node ∈ nodes) : node ∈ list := by
  cases head with
  | none =>
      obtain rfl := Option.some.inj h
      simp at hn
  | some socketfd =>
      simp only [chainFrom] at h
      split at h
      · obtain rfl := Option.some.inj h
        exact (List.dropWhile_sublist _).subset hn
      · cases h

/-- A walk from the head visits every node. -/
theorem chainFrom_listHead (list : List ReplicaNode) :
    chainFrom list (listHead list) = some list := by
  cases list with
  | nil => rfl
  | cons node list => simp [chainFrom, listHead, hasNode]

theorem mem_of_mem_removeReplicaById {list : List ReplicaNode} {id : ℤ} {node : ReplicaNode}
    (h : node ∈ removeReplicaById list id) : node ∈ list :=
  List.mem_of_mem_eraseP h

theorem addReplica_eq_some {list list' : List ReplicaNode} {node : ReplicaNode}
    (h : addReplica list node = some list') :
    hasNode list node.socketfd = false ∧ list' = node :: list := by
  unfold addReplica at h
  split at h
  · cases h
  · rename_i hf
    exact ⟨by simpa using hf, (Option.some.inj h).symm⟩

end SyncServer
