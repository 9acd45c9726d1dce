import SyncServer.Replication.Simulation

/-! # The buckets of a server

`LinkedList_get` runs off a list that has nodes but not the key, so a context is inserted only into
an empty list: what a server does to its table never leaves two contexts in one list.
-/

namespace SyncServer

open CText Ending Transition

namespace HashTable

/-- No list has a second node. -/
def OneEach (table : HashTable) : Prop := ∀ index, (table.array index).length ≤ 1

theorem oneEach_create : create.OneEach := fun _ => Nat.zero_le 1

theorem length_linkedListModify (key : Bytes) (f : UserContext → UserContext)
    (list : List (Bytes × UserContext)) : (linkedListModify key f list).length = list.length := by
  induction list with
  | nil => rfl
  | cons node list ih =>
      simp only [linkedListModify]
      split
      · rfl
      · rw [List.length_cons, List.length_cons, ih]

variable {table : HashTable}

theorem OneEach.modify (h : table.OneEach) (key : Bytes) (f : UserContext → UserContext) :
    (table.modify key f).OneEach := by
  intro index
  by_cases hindex : index = keyHash key tableSize
  · subst hindex
    simp only [HashTable.modify, Function.update_self, length_linkedListModify]
    exact h _
  · simp only [HashTable.modify, Function.update_of_ne hindex]
    exact h index

theorem OneEach.getOrCreateContext (h : table.OneEach) {username : Bytes} {table' : HashTable}
    {context : UserContext}
    (hcreate : table.getOrCreateContext username = some (table', context)) : table'.OneEach := by
  obtain ⟨found, hfound, hcreate⟩ := Option.map_eq_some_iff.mp hcreate
  cases found with
  | some old =>
      obtain rfl := congrArg Prod.fst hcreate
      exact h
  | none =>
      obtain rfl := congrArg Prod.fst hcreate
      have hnil : table.array (keyHash username tableSize) = [] := by
        simp only [search, linkedListGet] at hfound
        split at hfound
        · assumption
        · simp at hfound
      intro index
      by_cases hindex : index = keyHash username tableSize
      · subst hindex
        simp only [insert, Function.update_self, hnil, List.length_singleton, le_refl]
      · simp only [insert, Function.update_of_ne hindex]
        exact h index

/-! ## The files -/

theorem OneEach.sendFileToOthers (h : table.OneEach) (manager : Bool) (username : Bytes)
    (sender : ℕ) (entry : FileEntry) :
    (table.sendFileToOthers manager username sender entry).Gives OneEach := by
  unfold HashTable.sendFileToOthers
  split
  · split
    · exact gives_done h
    · exact gives_bind fun _ _ => gives_done (h.modify _ _)
  · exact gives_done h

theorem OneEach.addFileToContext (h : table.OneEach) (filename username : Bytes)
    (content : Option Bytes) :
    (table.addFileToContext filename username content).Gives OneEach := by
  refine gives_bind fun found _ => ?_
  cases found with
  | none => exact gives_done h
  | some context => exact gives_done (h.modify _ _)

theorem OneEach.removeFileFromContext (h : table.OneEach) (filename username : Bytes) :
    (table.removeFileFromContext filename username).Gives OneEach := by
  refine gives_bind fun found _ => ?_
  cases found with
  | none => exact gives_done h
  | some context => exact gives_done (h.modify _ _)

theorem OneEach.removeFileFromUserList (h : table.OneEach) (manager : Bool) (username : Bytes)
    (sender : ℕ) (filename : Bytes) (content : Option Bytes) :
    (table.removeFileFromUserList manager username sender filename content).Gives OneEach := by
  unfold HashTable.removeFileFromUserList
  split
  · exact gives_done h
  · exact (h.removeFileFromContext _ _).bind fun _ h => h.sendFileToOthers _ _ _ _

theorem OneEach.fileReceived (h : table.OneEach) (manager : Bool) (username : Bytes)
    (sender : ℕ) (filename : Bytes) (content : Option Bytes) :
    (table.fileReceived manager username sender filename content).Gives OneEach := by
  unfold HashTable.fileReceived
  split
  · exact (h.addFileToContext _ _ _).bind fun _ h => h.sendFileToOthers _ _ _ _
  · refine Gives.bind (P := OneEach) ?_ fun _ h => h.sendFileToOthers _ _ _ _
    exact gives_bind fun _ _ => gives_done (h.modify _ _)
  · exact gives_done h

/-! ## The sessions -/

theorem OneEach.initializeUserSessionAndThreads (h : table.OneEach) (deviceAddress : SockAddrIn)
    (username : Bytes) :
    (SyncServer.initializeUserSessionAndThreads table deviceAddress username).Gives
      (·.1.OneEach) := by
  refine gives_bind fun found hfound => ?_
  have hcreated := h.getOrCreateContext (deref_eq_done.mp hfound)
  obtain ⟨table', context⟩ := found
  simp only
  split
  · exact gives_done hcreated
  · exact gives_done (hcreated.modify _ _)

theorem OneEach.handleNewConnection (h : table.OneEach) (request : Option Bytes)
    (answered accepted : Bool) (deviceAddress : SockAddrIn) :
    (SyncServer.handleNewConnection table request answered accepted deviceAddress).Gives
      (·.2.1.OneEach) := by
  refine gives_bind fun request _ => ?_
  simp only
  split
  · exact (h.initializeUserSessionAndThreads _ _).bind fun _ h => gives_done h
  · exact gives_faults _ _

theorem OneEach.initializeUserSession (h : table.OneEach) {deviceAddress : SockAddrIn}
    {username : Bytes} {table' : HashTable}
    (hinit : table.initializeUserSession deviceAddress username = some table') :
    table'.OneEach := by
  obtain ⟨⟨table₁, context⟩, hcreate, rfl⟩ := Option.map_eq_some_iff.mp hinit
  have hcreated := h.getOrCreateContext hcreate
  simp only
  split
  · exact hcreated
  · exact hcreated.modify _ _

theorem OneEach.eventSession (h : table.OneEach) {event : ReplicaEvent} {table' : HashTable}
    {session : Option Session} (hsession : table.eventSession event = some (table', session)) :
    table'.OneEach := by
  obtain ⟨username, -, hsession⟩ := Option.bind_eq_some_iff.mp hsession
  obtain ⟨found, hcreate, hsession⟩ := Option.map_eq_some_iff.mp hsession
  obtain rfl := congrArg Prod.fst hsession
  exact h.getOrCreateContext hcreate

theorem OneEach.clientDisconnected (h : table.OneEach) {event : ReplicaEvent}
    {table' : HashTable} (hleft : table.clientDisconnected event = some table') :
    table'.OneEach := by
  obtain ⟨username, -, hleft⟩ := Option.bind_eq_some_iff.mp hleft
  obtain ⟨found, hfound, hleft⟩ := Option.bind_eq_some_iff.mp hleft
  obtain ⟨session, -, rfl⟩ := Option.map_eq_some_iff.mp hleft
  exact (h.eventSession hfound).modify _ _

end HashTable

/-! ## The handlers -/

section

open HashTable

variable {σ Path : Type} [DecidableEq Path] {readPacket : σ → Ending Fault (Option Packet × σ)}
  {resolve : Bytes → Path} {access : FileAccess Path} {manager : Bool} {username : Bytes}
  {session : Session} {store : Store Path}

theorem oneEach_incomingList {table : HashTable} (h : table.OneEach) (type : PacketType)
    (filename : Bytes) (content : Option Bytes) :
    (incomingList manager username session table type filename content).Gives OneEach := by
  unfold incomingList
  split
  · split
    · exact h.fileReceived _ _ _ _ _
    · exact h.removeFileFromUserList _ _ _ _ _
    · exact gives_done h
  · exact gives_done h

theorem oneEach_handleIncomingFile (h : store.table.OneEach) (s : σ) :
    (handleIncomingFile readPacket resolve access manager username session store s).Gives
      (·.store.table.OneEach) := by
  refine gives_bind fun read _ => gives_bind fun packet _ => gives_bind fun transfer _ => ?_
  simp only
  split
  · exact gives_done h
  · exact gives_bind fun filename _ =>
      (oneEach_incomingList h packet.type filename _).bind fun _ h => gives_done h

theorem oneEach_applyReplicaEvent (h : store.table.OneEach) (event : ReplicaEvent) (s : σ) :
    (applyReplicaEvent readPacket resolve access event store s).Gives (·.1.table.OneEach) := by
  unfold applyReplicaEvent
  split
  · exact gives_bind fun _ _ => gives_bind fun _ htable =>
      gives_done (h.initializeUserSession (deref_eq_done.mp htable))
  · exact gives_bind fun _ htable =>
      gives_done (h.clientDisconnected (deref_eq_done.mp htable))
  · exact gives_bind fun _ _ => gives_bind fun found hfound => gives_bind fun session _ =>
      (oneEach_handleIncomingFile (h.eventSession (deref_eq_done.mp hfound)) s).bind
        fun _ h => gives_done h
  · exact gives_bind fun _ _ => gives_bind fun found hfound => gives_bind fun session _ =>
      (oneEach_handleIncomingFile (h.eventSession (deref_eq_done.mp hfound)) s).bind
        fun _ h => gives_done h
  · exact gives_done h

theorem oneEach_readReplicaPacket (h : store.table.OneEach) (s : σ) :
    (readReplicaPacket readPacket resolve access store s).Gives (·.1.table.OneEach) := by
  refine gives_bind fun read _ => gives_bind fun packet _ => ?_
  split
  · exact oneEach_applyReplicaEvent h _ _
  · exact gives_done h

/-! ## The runs -/

variable {backupAccess : FileAccess Path}

/-- In every state of a replication the replica has at most one user in each bucket. -/
theorem Replication.oneEach_backup {disk : Disk Path} {s : Replication Path} {as : List Action}
    (hrun : run (step resolve access backupAccess) (initial disk) as = some s) :
    s.backup.table.OneEach := by
  refine run_invariant (I := fun s => s.backup.table.OneEach) (fun s a t h hstep => ?_)
    oneEach_create hrun
  cases a with
  | operate operation =>
      obtain ⟨_, -, rfl⟩ := Option.map_eq_some_iff.mp hstep
      exact h
  | heartbeat =>
      obtain rfl := Option.some.inj hstep
      exact h
  | iterate =>
      obtain ⟨result, hread, rfl⟩ := Option.map_eq_some_iff.mp hstep
      exact oneEach_readReplicaPacket h _ _ (returned_eq_some.mp hread)

end

end SyncServer
