import SyncServer.Library.Transition
import SyncServer.Server.ReplicaList
import SyncServer.Wire.Registration

/-! # Backups that join find each other

The manager tells every replica of a new one, and the new one of every replica. Each of them
connects to what it hears of, unless it hears of itself. A step is one section under the lock of
the manager's list, one load of a pointer or one send of the walk that takes no lock, or the
handling of one packet by a backup. A send reaches the replica, or finds the connection closed.
-/

namespace SyncServer

open CText Transition

/-! ## The manager and the backups -/

/-- A backup at the other end of a connection of the manager: the packets that it has not read, and
its own list. Only the model keeps whose listeners have refused it. -/
structure JoinedBackup where
  id : ℤ
  stream : List Packet
  replicaList : List ReplicaNode
  refused : List ℤ

/-- Where `replica_listener_thread` of the manager stands: a node that it has parsed or added, or
the pointer in the list that it sends to a new replica, before or after the send. -/
inductive JoinPlace where
  | accepting
  | adding (node : ReplicaNode)
  | notifying (node : ReplicaNode)
  | loadingHead (socketfd : ℕ)
  | relaying (socketfd : ℕ) (current : Option ℕ)
  | loadingNext (socketfd current : ℕ)
  deriving DecidableEq

/-- What is told of a node. -/
def ReplicaNode.key (node : ReplicaNode) : (ℤ × ℤ) × InAddr :=
  ((node.id, node.listenerPort), node.deviceAddress.sinAddr)

/-- The list of the manager and its listener, and the backups by the descriptors of the manager's
connections to them. Only the model keeps all that was ever registered. -/
structure Joining where
  replicaList : List ReplicaNode
  listener : JoinPlace
  backups : ℕ → Option JoinedBackup
  registered : List ((ℤ × ℤ) × InAddr)

/-- What `connect_to_server_thread` takes from a packet of a new replica. -/
def heardOf (packet : Packet) : Option ((ℤ × ℤ) × InAddr) :=
  if packet.type = .replicaMsg then extractReplica packet.image else none

/-- A packet is read. The outcome is the socket of the connection, if there is one. -/
def JoinedBackup.process (backup : JoinedBackup) (outcome : Option ℕ) : Option JoinedBackup :=
  match backup.stream with
  | [] => none
  | packet :: stream =>
      match heardOf packet with
      | none => some { backup with stream }
      | some ((id, listenerPort), sinAddr) =>
          if id = backup.id then some { backup with stream }
          else
            match outcome with
            | none => some { backup with stream, refused := id :: backup.refused }
            | some socketfd =>
                (addReplica backup.replicaList
                    ⟨id, socketfd, listenerPort, ⟨sinAddr, htons listenerPort⟩⟩).map
                  fun replicaList => { backup with stream, replicaList }

/-- `send_packet` to the backup. -/
def JoinedBackup.receive (backup : JoinedBackup) (packets : List Packet) : JoinedBackup :=
  { backup with stream := backup.stream ++ packets }

/-- `create_replica_added_event` for a node, in a packet. -/
def addedPacket (node : ReplicaNode) : Packet :=
  eventPacket (createReplicaAddedEvent node.id node.listenerPort node.deviceAddress)

namespace Joining

/-- A backup that has connected writes its registration, which the listener reads; the listener
takes one of its steps; another thread notifies the replicas; a backup handles a packet. For a
notification, `closed` are the sockets whose connection is found closed. -/
inductive Action where
  | register (socketfd : ℕ) (id listenerPort : ℤ) (cliAddr : SockAddrIn)
  | add
  | notify (closed : List ℕ)
  | loadHead
  | relay
  | loadNext
  | broadcast (packets : List Packet) (closed : List ℕ)
  | process (socketfd : ℕ) (outcome : Option ℕ)

/-- The packets are written to the connection. -/
def write (backups : ℕ → Option JoinedBackup) (socketfd : ℕ) (packets : List Packet) :
    ℕ → Option JoinedBackup :=
  Function.update backups socketfd ((backups socketfd).map (·.receive packets))

/-- The walk of `notify_replicas`. -/
def writeAll (backups : ℕ → Option JoinedBackup) (nodes : List ReplicaNode)
    (packets : List Packet) : ℕ → Option JoinedBackup :=
  nodes.foldl (fun backups node => write backups node.socketfd packets) backups

/-- The descriptor of a new connection is of no open one. A walk from a node that is gone is
undefined, and no step. The walk reads a node in the step that sends it: one that goes in between
has no next. -/
def step (s : Joining) : Action → Option Joining
  | .register socketfd id listenerPort cliAddr =>
      match s.listener, scanPair (payloadText (registrationPacket id listenerPort).image) with
      | .accepting, some replica =>
          if hasNode s.replicaList socketfd then none
          else some { s with
            listener := .adding ⟨replica.1, socketfd, replica.2, cliAddr⟩
            backups := Function.update s.backups socketfd (some ⟨id, [], [], []⟩)
            registered := ((id, listenerPort), cliAddr.sinAddr) :: s.registered }
      | _, _ => none
  | .add =>
      match s.listener with
      | .adding node =>
          match addReplica s.replicaList node with
          | some replicaList => some { s with replicaList, listener := .notifying node }
          | none => some { s with listener := .accepting }
      | _ => none
  | .notify closed =>
      match s.listener with
      | .notifying node =>
          let replicaList := keepOpen s.replicaList closed
          some { s with
            replicaList
            listener := .loadingHead node.socketfd
            backups := writeAll s.backups replicaList [addedPacket node] }
      | _ => none
  | .loadHead =>
      match s.listener with
      | .loadingHead socketfd =>
          some { s with listener := .relaying socketfd (listHead s.replicaList) }
      | _ => none
  | .relay =>
      match s.listener with
      | .relaying _ none => some { s with listener := .accepting }
      | .relaying socketfd (some current) =>
          match chainFrom s.replicaList (some current) with
          | some (node :: _) =>
              some { s with
                listener := .loadingNext socketfd current
                backups := write s.backups socketfd [addedPacket node] }
          | _ => none
      | _ => none
  | .loadNext =>
      match s.listener with
      | .loadingNext socketfd current =>
          (chainFrom s.replicaList (some current)).map fun nodes =>
            { s with listener := .relaying socketfd (listHead nodes.tail) }
      | _ => none
  | .broadcast packets closed =>
      if packets.filterMap heardOf = [] then
        let replicaList := keepOpen s.replicaList closed
        some { s with replicaList, backups := writeAll s.backups replicaList packets }
      else none
  | .process socketfd outcome =>
      (s.backups socketfd).bind fun backup => (backup.process outcome).map fun backup =>
        { s with backups := Function.update s.backups socketfd (some backup) }

/-- A manager that has started. -/
def initial : Joining := ⟨[], .accepting, fun _ => none, []⟩

/-- The id and the port are `int`s, and no backup has registered with the id before. -/
def RegistersNew (s : Joining) : Action → Prop
  | .register _ id listenerPort _ =>
      IsInt id ∧ IsInt listenerPort ∧ id ∉ s.registered.map (·.1.1)
  | _ => True

instance (s : Joining) : ∀ a, Decidable (s.RegistersNew a)
  | .register .. => inferInstanceAs (Decidable (_ ∧ _ ∧ _))
  | .add | .notify _ | .loadHead | .relay | .loadNext | .broadcast _ _ | .process _ _ =>
      inferInstanceAs (Decidable True)

end Joining

/-! ## What a backup has heard -/

/-- What there is about an id. -/
def about (id : ℤ) (keys : List ((ℤ × ℤ) × InAddr)) : List ((ℤ × ℤ) × InAddr) :=
  keys.filter (·.1.1 = id)

theorem about_append (id : ℤ) (keys keys' : List ((ℤ × ℤ) × InAddr)) :
    about id (keys ++ keys') = about id keys ++ about id keys' := List.filter_append ..

theorem about_cons_of_ne {id : ℤ} {key : (ℤ × ℤ) × InAddr} (h : key.1.1 ≠ id)
    (keys : List ((ℤ × ℤ) × InAddr)) : about id (key :: keys) = about id keys := by
  simp [about, h]

theorem about_eq_nil {id : ℤ} {keys : List ((ℤ × ℤ) × InAddr)} :
    about id keys = [] ↔ ∀ key ∈ keys, key.1.1 ≠ id := by
  simp [about, List.filter_eq_nil_iff]

/-- Of a list with distinct ids there is one node about each. -/
theorem about_keys {list : List ReplicaNode} (hids : (list.map (·.id)).Nodup) {node : ReplicaNode}
    (h : node ∈ list) : about node.id (list.map ReplicaNode.key) = [node.key] := by
  induction list with
  | nil => cases h
  | cons first list ih =>
      obtain ⟨hfirst, hids⟩ := List.nodup_cons.mp hids
      rcases List.mem_cons.mp h with rfl | h
      · have hnone : about node.id (list.map ReplicaNode.key) = [] := by
          rw [about_eq_nil]
          intro key hkey heq
          obtain ⟨other, hother, rfl⟩ := List.mem_map.mp hkey
          exact hfirst (List.mem_map.mpr ⟨other, hother, heq⟩)
        rw [List.map_cons, about, List.filter_cons_of_pos (by simp [ReplicaNode.key])]
        exact congrArg _ hnone
      · have hne : first.id ≠ node.id := fun heq => hfirst (List.mem_map.mpr ⟨node, h, heq.symm⟩)
        rw [List.map_cons, about_cons_of_ne hne, ih hids h]

namespace JoinedBackup

/-- What the backup will read and what is in its list. -/
def heard (backup : JoinedBackup) : List ((ℤ × ℤ) × InAddr) :=
  backup.stream.filterMap heardOf ++ backup.replicaList.map ReplicaNode.key

/-- The connections lead to the listening ports of others. -/
def ConnectedToOthers (backup : JoinedBackup) : Prop :=
  ∀ node ∈ backup.replicaList,
    node.id ≠ backup.id ∧ node.deviceAddress.sinPort = htons node.listenerPort

theorem heard_receive (backup : JoinedBackup) (packets : List Packet) :
    (backup.receive packets).heard.Perm (packets.filterMap heardOf ++ backup.heard) := by
  simp only [heard, receive, List.filterMap_append, ← List.append_assoc]
  exact List.perm_append_comm.append_right _

/-- A packet about another id that does not refuse is not lost, and nothing is made up. -/
structure Processed (backup backup' : JoinedBackup) : Prop where
  id : backup'.id = backup.id
  heard : ∀ key ∈ backup'.heard, key ∈ backup.heard
  others : backup.ConnectedToOthers → backup'.ConnectedToOthers
  about : ∀ id, id ≠ backup.id → id ∉ backup'.refused → id ∉ backup.refused ∧
    (about id backup'.heard).Perm (about id backup.heard)

theorem processed_of_process {backup backup' : JoinedBackup} {outcome : Option ℕ}
    (h : backup.process outcome = some backup') : backup.Processed backup' := by
  obtain ⟨own, stream, list, refused⟩ := backup
  cases stream with
  | nil => cases h
  | cons packet stream =>
      simp only [process] at h
      cases hheard : heardOf packet with
      | none =>
          simp only [hheard, Option.some.injEq] at h
          subst h
          have hsame : heard ⟨own, packet :: stream, list, refused⟩ =
              heard ⟨own, stream, list, refused⟩ := by
            simp [heard, hheard]
          exact ⟨rfl, fun key hkey => hsame ▸ hkey, fun h => h,
            fun id _ hid => ⟨hid, hsame ▸ List.Perm.refl _⟩⟩
      | some key =>
          obtain ⟨⟨id, listenerPort⟩, sinAddr⟩ := key
          have hfirst : heard ⟨own, packet :: stream, list, refused⟩ =
              ((id, listenerPort), sinAddr) :: heard ⟨own, stream, list, refused⟩ := by
            simp [heard, hheard]
          have hrest : ∀ key ∈ heard ⟨own, stream, list, refused⟩,
              key ∈ heard ⟨own, packet :: stream, list, refused⟩ := fun key hkey =>
            hfirst ▸ List.mem_cons_of_mem _ hkey
          simp only [hheard] at h
          split at h
          · rename_i hown
            obtain rfl := Option.some.inj h
            refine ⟨rfl, hrest, fun h => h, fun other hother hid => ⟨hid, ?_⟩⟩
            rw [hfirst, about_cons_of_ne (by rw [hown]; exact hother.symm)]
          · rename_i hown
            cases outcome with
            | none =>
                obtain rfl := Option.some.inj h
                refine ⟨rfl, hrest, fun h => h, fun other hother hid => ?_⟩
                obtain ⟨hne, hid⟩ := not_or.mp (List.mem_cons.not.mp hid)
                refine ⟨hid, ?_⟩
                rw [hfirst, about_cons_of_ne (Ne.symm hne)]
                exact List.Perm.refl _
            | some socketfd =>
                obtain ⟨list', hadd, rfl⟩ := Option.map_eq_some_iff.mp h
                obtain ⟨-, rfl⟩ := addReplica_eq_some hadd
                have hperm : (heard ⟨own, stream, ⟨id, socketfd, listenerPort,
                    ⟨sinAddr, htons listenerPort⟩⟩ :: list, refused⟩).Perm
                    (heard ⟨own, packet :: stream, list, refused⟩) := by
                  rw [hfirst]
                  exact List.perm_middle
                refine ⟨rfl, fun key hkey => hperm.subset hkey, fun h node hnode => ?_,
                  fun other _ hid => ⟨hid, hperm.filter _⟩⟩
                rcases List.mem_cons.mp hnode with rfl | hnode
                · exact ⟨hown, rfl⟩
                · exact h node hnode

end JoinedBackup

theorem heardOf_addedPacket {node : ReplicaNode} (hid : IsInt node.id)
    (hport : IsInt node.listenerPort) : heardOf (addedPacket node) = some node.key := by
  have htype : (addedPacket node).type = .replicaMsg := rfl
  rw [heardOf, if_pos htype]
  exact extractReplica_eventPacket hid hport node.deviceAddress

/-! ## A walk in a list that shrinks -/

theorem mem_keepOpen {list : List ReplicaNode} {closed : List ℕ} {node : ReplicaNode} :
    node ∈ keepOpen list closed ↔ node ∈ list ∧ node.socketfd ∉ closed := by
  simp [keepOpen]

theorem keepOpen_sublist (list : List ReplicaNode) (closed : List ℕ) :
    (keepOpen list closed).Sublist list := List.filter_sublist

theorem keepOpen_dropWhile {socketfd : ℕ} {closed : List ℕ} (h : socketfd ∉ closed)
    (list : List ReplicaNode) :
    (keepOpen list closed).dropWhile (·.socketfd ≠ socketfd) =
      keepOpen (list.dropWhile (·.socketfd ≠ socketfd)) closed := by
  induction list with
  | nil => rfl
  | cons node list ih =>
      by_cases hnode : node.socketfd = socketfd
      · have hopen : node.socketfd ∉ closed := hnode ▸ h
        simp [keepOpen, hnode, h]
      · by_cases hclosed : node.socketfd ∈ closed
        · simpa [keepOpen, hnode, hclosed] using ih
        · simpa [keepOpen, hnode, hclosed] using ih

/-- What is left of a walk, if the node that it stands at is left. -/
theorem chainFrom_keepOpen {list nodes : List ReplicaNode} {closed : List ℕ} {current : Option ℕ}
    (h : chainFrom (keepOpen list closed) current = some nodes) :
    ∃ before, chainFrom list current = some before ∧ nodes = keepOpen before closed := by
  cases current with
  | none => exact ⟨[], rfl, (Option.some.inj h).symm⟩
  | some socketfd =>
      simp only [chainFrom] at h
      split at h
      · rename_i hhas
        obtain rfl := Option.some.inj h
        obtain ⟨node, hnode, rfl⟩ : ∃ node ∈ keepOpen list closed, node.socketfd = socketfd := by
          simpa [hasNode] using hhas
        obtain ⟨hnode, hopen⟩ := mem_keepOpen.mp hnode
        have hlisted : hasNode list node.socketfd = true := by
          simpa [hasNode] using ⟨node, hnode, rfl⟩
        exact ⟨_, if_pos hlisted, keepOpen_dropWhile hopen list⟩
      · cases h

/-- A pointer leads to the node that it points to. -/
theorem chainFrom_some {list nodes : List ReplicaNode} {socketfd : ℕ}
    (h : chainFrom list (some socketfd) = some nodes) :
    ∃ node rest, nodes = node :: rest ∧ node.socketfd = socketfd := by
  simp only [chainFrom] at h
  split at h
  · rename_i hhas
    obtain rfl := Option.some.inj h
    obtain ⟨listed, hlisted, hsocket⟩ : ∃ node ∈ list, node.socketfd = socketfd := by
      simpa [hasNode] using hhas
    cases hdrop : list.dropWhile (·.socketfd ≠ socketfd) with
    | nil =>
        have hall := List.dropWhile_eq_nil_iff.mp hdrop listed hlisted
        simp [hsocket] at hall
    | cons node rest =>
        have hhead := List.head?_dropWhile_not (fun node => decide (node.socketfd ≠ socketfd)) list
        rw [hdrop] at hhead
        exact ⟨node, rest, rfl, by simpa using hhead⟩
  · cases h

/-- The node that a walk stands at is left, if the walk is defined. -/
theorem tail_keepOpen_chainFrom {list before : List ReplicaNode} {closed : List ℕ} {socketfd : ℕ}
    (h : chainFrom (keepOpen list closed) (some socketfd) = some (keepOpen before closed))
    (hbefore : chainFrom list (some socketfd) = some before) :
    (keepOpen before closed).tail = keepOpen before.tail closed := by
  obtain ⟨node, rest, rfl, hsocket⟩ := chainFrom_some hbefore
  obtain ⟨left, later, hleft, hsame⟩ := chainFrom_some h
  have hopen : node.socketfd ∉ closed := by
    have hmem : left ∈ keepOpen (node :: rest) closed := hleft ▸ List.mem_cons_self
    rw [hsocket, ← hsame]
    exact (mem_keepOpen.mp hmem).2
  simp [keepOpen, hopen]

/-- The next pointer of a walk leads to the rest. -/
theorem chainFrom_next {list rest : List ReplicaNode} {node : ReplicaNode} {current : Option ℕ}
    (hsockets : (list.map (·.socketfd)).Nodup)
    (h : chainFrom list current = some (node :: rest)) :
    chainFrom list (listHead rest) = some rest := by
  obtain ⟨before, rfl⟩ : ∃ before, list = before ++ node :: rest := by
    cases current with
    | none => cases h
    | some socketfd =>
        simp only [chainFrom] at h
        split at h
        · have hsuffix : node :: rest <:+ list := Option.some.inj h ▸ List.dropWhile_suffix _
          exact hsuffix.imp fun _ => Eq.symm
        · cases h
  cases rest with
  | nil => rfl
  | cons next rest =>
      have hnext : ∀ other ∈ before ++ [node], decide (other.socketfd ≠ next.socketfd) = true := by
        intro other hother
        rw [List.append_cons, List.map_append, List.nodup_append] at hsockets
        exact decide_eq_true (hsockets.2.2 _ (List.mem_map_of_mem hother) _ (by simp))
      have hlisted : hasNode (before ++ node :: next :: rest) next.socketfd = true := by
        simp [hasNode]
      rw [listHead, List.head?_cons, Option.map_some, chainFrom, if_pos hlisted, List.append_cons,
        List.dropWhile_append_of_pos hnext]
      simp

/-- A node that is left is left of every part of the list. -/
theorem about_keepOpen {list nodes : List ReplicaNode} {closed : List ℕ}
    (hids : (list.map (·.id)).Nodup) (hnodes : nodes ⊆ list) {node : ReplicaNode}
    (hnode : node ∈ keepOpen list closed) :
    about node.id ((keepOpen nodes closed).map ReplicaNode.key) =
      about node.id (nodes.map ReplicaNode.key) := by
  obtain ⟨hnode, hopen⟩ := mem_keepOpen.mp hnode
  simp only [about, keepOpen, List.filter_map, List.filter_filter]
  refine congrArg _ (List.filter_congr fun other hother => ?_)
  by_cases heq : other.id = node.id
  · obtain rfl := List.inj_on_of_nodup_map hids (hnodes hother) hnode heq
    simp [ReplicaNode.key, hopen]
  · simp [ReplicaNode.key, heq]

namespace Joining

variable {s t : Joining}

/-! ## What is written -/

theorem write_apply (backups : ℕ → Option JoinedBackup) (socketfd other : ℕ)
    (packets : List Packet) : write backups socketfd packets other =
      (backups other).map (·.receive (if other = socketfd then packets else [])) := by
  by_cases h : other = socketfd
  · subst h
    rw [write, Function.update_self, if_pos rfl]
  · rw [write, Function.update_of_ne h, if_neg h]
    cases backups other <;> simp [JoinedBackup.receive]

theorem writeAll_apply {nodes : List ReplicaNode} (hsockets : (nodes.map (·.socketfd)).Nodup)
    (backups : ℕ → Option JoinedBackup) (other : ℕ) (packets : List Packet) :
    writeAll backups nodes packets other =
      (backups other).map (·.receive (if hasNode nodes other then packets else [])) := by
  induction nodes generalizing backups with
  | nil => cases h : backups other <;> simp [writeAll, hasNode, JoinedBackup.receive, h]
  | cons node nodes ih =>
      obtain ⟨hfirst, hsockets⟩ := List.nodup_cons.mp hsockets
      rw [writeAll, List.foldl_cons]
      change writeAll (write backups node.socketfd packets) nodes packets other = _
      rw [ih hsockets, write_apply, Option.map_map]
      refine congrArg (fun f => (backups other).map f) (funext fun backup => ?_)
      by_cases h : other = node.socketfd
      · have hrest : hasNode nodes other = false := by
          simp only [hasNode, List.any_eq_false, decide_eq_true_eq]
          exact fun later hlater heq => hfirst (List.mem_map.mpr ⟨later, hlater, heq.trans h⟩)
        have hhas : hasNode (node :: nodes) other = true := by simp [hasNode, h]
        rw [Function.comp_apply, if_pos h, hhas, hrest]
        simp [JoinedBackup.receive]
      · have hne : node.socketfd ≠ other := Ne.symm h
        simp only [Function.comp_apply, if_neg h, JoinedBackup.receive, List.append_nil]
        simp [hasNode, hne]

theorem of_update {backups : ℕ → Option JoinedBackup} {socketfd other : ℕ}
    {new backup : JoinedBackup}
    (h : Function.update backups socketfd (some new) other = some backup) :
    backup = new ∧ other = socketfd ∨ other ≠ socketfd ∧ backups other = some backup := by
  by_cases heq : other = socketfd
  · subst heq
    rw [Function.update_self] at h
    exact Or.inl ⟨(Option.some.inj h).symm, rfl⟩
  · exact Or.inr ⟨heq, (Function.update_of_ne heq _ _).symm.trans h⟩

/-! ## What holds in every state -/

/-- What the listener has still to write to a connection, unless its walk is undefined. -/
def pending (s : Joining) (socketfd : ℕ) : Option (List ((ℤ × ℤ) × InAddr)) :=
  match s.listener with
  | .notifying node =>
      some (node.key ::
        if socketfd = node.socketfd then s.replicaList.map ReplicaNode.key else [])
  | .loadingHead joined =>
      some (if socketfd = joined then s.replicaList.map ReplicaNode.key else [])
  | .relaying joined current =>
      if socketfd = joined then (chainFrom s.replicaList current).map (·.map ReplicaNode.key)
      else some []
  | .loadingNext joined current =>
      if socketfd = joined then
        (chainFrom s.replicaList (some current)).map (·.tail.map ReplicaNode.key)
      else some []
  | _ => some []

/-- What a node is told of, and came from. -/
def Known (s : Joining) (node : ReplicaNode) : Prop :=
  (IsInt node.id ∧ IsInt node.listenerPort) ∧ node.key ∈ s.registered

/-- Nobody has heard of a node that is not added, and its backup has heard of nobody. -/
structure Unheard (s : Joining) (node : ReplicaNode) : Prop where
  known : s.Known node
  socket : node.socketfd ∉ s.replicaList.map (·.socketfd)
  id : node.id ∉ s.replicaList.map (·.id)
  backup : s.backups node.socketfd = some ⟨node.id, [], [], []⟩
  heard : ∀ socketfd backup, s.backups socketfd = some backup → about node.id backup.heard = []

/-- What holds of the node that the listener works at. -/
def PlaceHolds (s : Joining) : Prop :=
  match s.listener with
  | .adding node => s.Unheard node
  | .notifying node => s.Known node
  | _ => True

/-- Of every node a backup has heard once, or will, unless it has refused it. -/
def Heard (s : Joining) (a b : ReplicaNode) : Prop :=
  ∀ backup ∈ s.backups a.socketfd, ∀ told ∈ s.pending a.socketfd, b.id ∉ backup.refused →
    (about b.id (told ++ backup.heard)).Perm [b.key]

structure Meeting (s : Joining) : Prop where
  sockets : (s.replicaList.map (·.socketfd)).Nodup
  ids : (s.replicaList.map (·.id)).Nodup
  known : ∀ node ∈ s.replicaList, s.Known node
  backups : ∀ node ∈ s.replicaList, ∃ backup,
    s.backups node.socketfd = some backup ∧ backup.id = node.id
  registered : ∀ socketfd backup, s.backups socketfd = some backup →
    backup.heard ⊆ s.registered ∧ backup.ConnectedToOthers
  place : s.PlaceHolds
  heard : ∀ a ∈ s.replicaList, ∀ b ∈ s.replicaList, a.id ≠ b.id → s.Heard a b

theorem meeting_initial : Meeting initial where
  sockets := List.nodup_nil
  ids := List.nodup_nil
  known := fun _ h => by cases h
  backups := fun _ h => by cases h
  registered := fun _ _ h => by cases h
  place := trivial
  heard := fun _ h => by cases h

theorem about_registered {backup : JoinedBackup} (h : Meeting s) {socketfd : ℕ}
    (hbackup : s.backups socketfd = some backup) {id : ℤ}
    (hid : id ∉ s.registered.map (·.1.1)) : about id backup.heard = [] :=
  about_eq_nil.mpr fun key hkey heq =>
    hid (List.mem_map.mpr ⟨key, (h.registered socketfd backup hbackup).1 hkey, heq⟩)

/-! ## The steps -/

theorem Meeting.register (h : Meeting s) {socketfd : ℕ} {id listenerPort : ℤ}
    {cliAddr : SockAddrIn} (hok : s.RegistersNew (.register socketfd id listenerPort cliAddr))
    (hstep : step s (.register socketfd id listenerPort cliAddr) = some t) : Meeting t := by
  obtain ⟨hid, hport, hnew⟩ := hok
  simp only [step, scanPair_registrationPacket hid hport] at hstep
  cases hlistener : s.listener with
  | adding | notifying | loadingHead | relaying | loadingNext => simp [hlistener] at hstep
  | accepting =>
      simp only [hlistener] at hstep
      split at hstep
      · cases hstep
      rename_i hfree
      obtain rfl := Option.some.inj hstep
      have hsocket : socketfd ∉ s.replicaList.map (·.socketfd) := by
        simpa [hasNode] using hfree
      have hother : ∀ node ∈ s.replicaList, node.socketfd ≠ socketfd := fun node hnode heq =>
        hsocket (List.mem_map.mpr ⟨node, hnode, heq⟩)
      have hunlisted : id ∉ s.replicaList.map (·.id) := by
        intro hmem
        obtain ⟨node, hnode, heq⟩ := List.mem_map.mp hmem
        exact hnew (List.mem_map.mpr ⟨node.key, (h.known node hnode).2, heq⟩)
      refine ⟨h.sockets, h.ids, fun node hnode => ?_, fun node hnode => ?_,
        fun other backup hbackup => ?_, ?_, fun a ha b hb hne backup hbackup told htold => ?_⟩
      · exact ⟨(h.known node hnode).1, List.mem_cons_of_mem _ (h.known node hnode).2⟩
      · obtain ⟨backup, hbackup, heq⟩ := h.backups node hnode
        exact ⟨backup, (Function.update_of_ne (hother node hnode) _ _).trans hbackup, heq⟩
      · rcases of_update hbackup with ⟨rfl, -⟩ | ⟨-, hbackup⟩
        · exact ⟨List.nil_subset _, fun _ hnode => (List.not_mem_nil hnode).elim⟩
        · obtain ⟨hheard, hconnected⟩ := h.registered other backup hbackup
          exact ⟨fun key hkey => List.mem_cons_of_mem _ (hheard hkey), hconnected⟩
      · refine ⟨⟨⟨hid, hport⟩, List.mem_cons_self ..⟩, hsocket, hunlisted,
          Function.update_self .., fun other backup hbackup => ?_⟩
        rcases of_update hbackup with ⟨rfl, -⟩ | ⟨-, hbackup⟩
        · rfl
        · exact about_registered h hbackup hnew
      · have hbackup := (Function.update_of_ne (hother a ha) _ _).symm.trans hbackup
        obtain rfl := Option.some.inj htold
        exact h.heard a ha b hb hne backup hbackup [] (by simp [pending, hlistener])

theorem Meeting.add (h : Meeting s) (hstep : step s .add = some t) : Meeting t := by
  simp only [step] at hstep
  cases hlistener : s.listener with
  | accepting | notifying | loadingHead | relaying | loadingNext => simp [hlistener] at hstep
  | adding node =>
      have hplace : s.Unheard node := by
        have hplace := h.place
        rwa [PlaceHolds, hlistener] at hplace
      have hfree : hasNode s.replicaList node.socketfd = false := by
        simpa [hasNode] using hplace.socket
      simp only [hlistener, addReplica, hfree, Bool.false_eq_true, if_false,
        Option.some.injEq] at hstep
      subst hstep
      have hids : ((node :: s.replicaList).map (·.id)).Nodup :=
        List.nodup_cons.mpr ⟨hplace.id, h.ids⟩
      refine ⟨List.nodup_cons.mpr ⟨hplace.socket, h.sockets⟩, hids, ?_, ?_, h.registered,
        hplace.known, ?_⟩
      · exact List.forall_mem_cons.mpr ⟨hplace.known, h.known⟩
      · exact List.forall_mem_cons.mpr ⟨⟨_, hplace.backup, rfl⟩, h.backups⟩
      · rintro a ha b hb hne backup hbackup told htold hrefused
        obtain rfl := Option.some.inj htold
        rcases List.mem_cons.mp ha with rfl | ha
        · obtain rfl := Option.some.inj (hplace.backup.symm.trans hbackup)
          change (about b.id (_ ++ [])).Perm [b.key]
          rw [if_pos rfl, List.append_nil, about_cons_of_ne hne, about_keys hids hb]
        · have hsocket : a.socketfd ≠ node.socketfd := fun heq =>
            hplace.socket (List.mem_map.mpr ⟨a, ha, heq⟩)
          rw [if_neg hsocket, List.singleton_append]
          rcases List.mem_cons.mp hb with rfl | hb
          · rw [about, List.filter_cons_of_pos (by simp [ReplicaNode.key])]
            exact List.Perm.of_eq (congrArg _ (hplace.heard _ _ hbackup))
          · have hother : node.key.1.1 ≠ b.id := fun heq =>
              hplace.id (List.mem_map.mpr ⟨b, hb, heq.symm⟩)
            rw [about_cons_of_ne hother]
            exact h.heard a ha b hb hne backup hbackup [] (by simp [pending, hlistener]) hrefused

/-- The nodes whose connection is found closed are dropped. -/
theorem Meeting.drop (h : Meeting s) (closed : List ℕ) :
    Meeting { s with replicaList := keepOpen s.replicaList closed } := by
  have hsublist := keepOpen_sublist s.replicaList closed
  have hplace : PlaceHolds { s with replicaList := keepOpen s.replicaList closed } := by
    have hplace := h.place
    unfold PlaceHolds at hplace ⊢
    cases hlistener : s.listener with
    | accepting | loadingHead | relaying | loadingNext => trivial
    | notifying node =>
        rw [hlistener] at hplace
        exact hplace
    | adding node =>
        rw [hlistener] at hplace
        exact ⟨hplace.known, fun hmem => hplace.socket ((hsublist.map _).subset hmem),
          fun hmem => hplace.id ((hsublist.map _).subset hmem), hplace.backup, hplace.heard⟩
  refine ⟨h.sockets.sublist (hsublist.map _), h.ids.sublist (hsublist.map _),
    fun node hnode => h.known node (hsublist.subset hnode),
    fun node hnode => h.backups node (hsublist.subset hnode), h.registered, hplace, ?_⟩
  intro a ha b hb hne backup hbackup told htold hrefused
  -- what is pending about a node that is left does not change
  obtain ⟨before, hbefore, habout⟩ : ∃ before ∈ s.pending a.socketfd,
      about b.id told = about b.id before := by
    unfold pending at htold ⊢
    cases hlistener : s.listener with
    | accepting | adding =>
        rw [hlistener] at htold
        exact ⟨told, htold, rfl⟩
    | notifying node =>
        rw [hlistener] at htold
        obtain rfl := Option.some.inj htold
        refine ⟨_, rfl, ?_⟩
        split
        · have hleft := about_keepOpen h.ids (List.Subset.refl _) hb
          change about b.id ([node.key] ++ _) = about b.id ([node.key] ++ _)
          rw [about_append, about_append, hleft]
        · rfl
    | loadingHead joined =>
        rw [hlistener] at htold
        obtain rfl := Option.some.inj htold
        refine ⟨_, rfl, ?_⟩
        split
        · exact about_keepOpen h.ids (List.Subset.refl _) hb
        · rfl
    | relaying joined current =>
        rw [hlistener] at htold
        simp only at htold ⊢
        split at htold
        · rename_i hjoined
          obtain ⟨nodes, hnodes, rfl⟩ := Option.map_eq_some_iff.mp htold
          obtain ⟨before, hbefore, rfl⟩ := chainFrom_keepOpen hnodes
          refine ⟨before.map ReplicaNode.key, ?_, ?_⟩
          · rw [if_pos hjoined, hbefore]
            rfl
          · exact about_keepOpen h.ids (fun _ hnode => mem_chainFrom hbefore hnode) hb
        · rename_i hjoined
          exact ⟨told, by rwa [if_neg hjoined], rfl⟩
    | loadingNext joined current =>
        rw [hlistener] at htold
        simp only at htold ⊢
        split at htold
        · rename_i hjoined
          obtain ⟨nodes, hnodes, rfl⟩ := Option.map_eq_some_iff.mp htold
          obtain ⟨before, hbefore, rfl⟩ := chainFrom_keepOpen hnodes
          refine ⟨before.tail.map ReplicaNode.key, ?_, ?_⟩
          · rw [if_pos hjoined, hbefore]
            rfl
          · rw [tail_keepOpen_chainFrom hnodes hbefore]
            exact about_keepOpen h.ids
              (fun _ hnode => mem_chainFrom hbefore (List.mem_of_mem_tail hnode)) hb
        · rename_i hjoined
          exact ⟨told, by rwa [if_neg hjoined], rfl⟩
  have hheard := h.heard a (hsublist.subset ha) b (hsublist.subset hb) hne backup hbackup before
    hbefore hrefused
  rwa [about_append, habout, ← about_append]

/-- Packets are written. What they tell a backup in the list is no longer pending. -/
theorem Meeting.written (h : Meeting s) (packets : ℕ → List Packet)
    (hlist : t.replicaList = s.replicaList) (hregistered : t.registered = s.registered)
    (hbackups : ∀ socketfd, t.backups socketfd =
      (s.backups socketfd).map (·.receive (packets socketfd)))
    (htold : ∀ socketfd, (packets socketfd).filterMap heardOf ⊆ s.registered)
    (hpending : ∀ a ∈ s.replicaList, ∀ told ∈ t.pending a.socketfd,
      ∃ before ∈ s.pending a.socketfd,
        (told ++ (packets a.socketfd).filterMap heardOf).Perm before)
    (hplace : t.PlaceHolds) : Meeting t := by
  refine ⟨hlist ▸ h.sockets, hlist ▸ h.ids, fun node hnode => ?_, fun node hnode => ?_,
    fun socketfd backup hbackup => ?_, hplace, fun a ha b hb hne backup hbackup told ht hid => ?_⟩
  · rw [Known, hregistered]
    exact h.known node (hlist ▸ hnode)
  · obtain ⟨backup, hbackup, hid⟩ := h.backups node (hlist ▸ hnode)
    exact ⟨_, (hbackups _).trans (congrArg _ hbackup), hid⟩
  · rw [hbackups] at hbackup
    obtain ⟨backup, hbefore, rfl⟩ := Option.map_eq_some_iff.mp hbackup
    obtain ⟨hheard, hconnected⟩ := h.registered socketfd backup hbefore
    refine ⟨fun key hkey => hregistered ▸ ?_, hconnected⟩
    rcases List.mem_append.mp ((backup.heard_receive _).subset hkey) with hkey | hkey
    · exact htold socketfd hkey
    · exact hheard hkey
  · rw [hlist] at ha hb
    rw [Option.mem_def, hbackups] at hbackup
    obtain ⟨backup, hbefore, rfl⟩ := Option.map_eq_some_iff.mp hbackup
    obtain ⟨before, hpend, hperm⟩ := hpending a ha told ht
    have hheard := h.heard a ha b hb hne backup hbefore before hpend hid
    have hreceive := (backup.heard_receive (packets a.socketfd)).append_left told
    rw [← List.append_assoc] at hreceive
    exact ((hreceive.trans (hperm.append_right _)).filter _).trans hheard

theorem Meeting.notify (h : Meeting s) {closed : List ℕ}
    (hstep : step s (.notify closed) = some t) : Meeting t := by
  simp only [step] at hstep
  cases hlistener : s.listener with
  | accepting | adding | loadingHead | relaying | loadingNext => simp [hlistener] at hstep
  | notifying node =>
      simp only [hlistener, Option.some.injEq] at hstep
      subst hstep
      have hdrop := h.drop closed
      have hknown : s.Known node := by
        have hplace := h.place
        rwa [PlaceHolds, hlistener] at hplace
      have hadded : [addedPacket node].filterMap heardOf = [node.key] := by
        simp [heardOf_addedPacket hknown.1.1 hknown.1.2]
      refine hdrop.written
        (fun fd => if hasNode (keepOpen s.replicaList closed) fd then [addedPacket node] else [])
        rfl rfl (fun fd => writeAll_apply hdrop.sockets _ fd _) (fun fd => ?_)
        (fun a ha told ht => ?_) trivial
      · simp only
        split
        · rw [hadded]
          exact List.cons_subset.mpr ⟨hknown.2, List.nil_subset _⟩
        · exact List.nil_subset _
      · have hhas : hasNode (keepOpen s.replicaList closed) a.socketfd = true := by
          simpa [hasNode] using ⟨a, ha, rfl⟩
        have hpend : ∀ rest, (rest ++ [node.key]).Perm (node.key :: rest) := fun rest =>
          List.perm_append_comm
        simp only [pending, hlistener, hhas, if_true, hadded] at ht ⊢
        obtain rfl := Option.some.inj ht
        exact ⟨_, rfl, hpend _⟩

/-- A load changes nothing but the place of the listener, where as much is pending. -/
theorem Meeting.load (h : Meeting s) {listener : JoinPlace}
    (hpending : ∀ socketfd, pending { s with listener } socketfd = s.pending socketfd)
    (hplace : PlaceHolds { s with listener }) : Meeting { s with listener } where
  sockets := h.sockets
  ids := h.ids
  known := h.known
  backups := h.backups
  registered := h.registered
  place := hplace
  heard a ha b hb hne backup hbackup told ht :=
    h.heard a ha b hb hne backup hbackup told (hpending a.socketfd ▸ ht)

theorem Meeting.loadHead (h : Meeting s) (hstep : step s .loadHead = some t) : Meeting t := by
  simp only [step] at hstep
  cases hlistener : s.listener with
  | accepting | adding | notifying | relaying | loadingNext => simp [hlistener] at hstep
  | loadingHead joined =>
      simp only [hlistener, Option.some.injEq] at hstep
      subst hstep
      refine h.load (fun socketfd => ?_) trivial
      simp only [pending, hlistener, chainFrom_listHead, Option.map_some]
      split <;> rfl

theorem Meeting.loadNext (h : Meeting s) (hstep : step s .loadNext = some t) : Meeting t := by
  simp only [step] at hstep
  cases hlistener : s.listener with
  | accepting | adding | notifying | loadingHead | relaying => simp [hlistener] at hstep
  | loadingNext joined current =>
      simp only [hlistener] at hstep
      obtain ⟨nodes, hchain, rfl⟩ := Option.map_eq_some_iff.mp hstep
      obtain ⟨node, rest, rfl, -⟩ := chainFrom_some hchain
      refine h.load (fun socketfd => ?_) trivial
      simp only [pending, hlistener, hchain, List.tail_cons, chainFrom_next h.sockets hchain,
        Option.map_some]

theorem Meeting.relay (h : Meeting s) (hstep : step s .relay = some t) : Meeting t := by
  simp only [step] at hstep
  cases hlistener : s.listener with
  | accepting | adding | notifying | loadingHead | loadingNext => simp [hlistener] at hstep
  | relaying joined current =>
      cases current with
      | none =>
          simp only [hlistener, Option.some.injEq] at hstep
          subst hstep
          refine h.load (fun socketfd => ?_) trivial
          simp [pending, hlistener, chainFrom]
      | some current =>
          simp only [hlistener] at hstep
          cases hchain : chainFrom s.replicaList (some current) with
          | none => simp [hchain] at hstep
          | some nodes =>
              obtain ⟨node, rest, rfl, -⟩ := chainFrom_some hchain
              simp only [hchain, Option.some.injEq] at hstep
              subst hstep
              have hknown := h.known node (mem_chainFrom hchain (List.mem_cons_self ..))
              have hadded : [addedPacket node].filterMap heardOf = [node.key] := by
                simp [heardOf_addedPacket hknown.1.1 hknown.1.2]
              refine h.written (fun fd => if fd = joined then [addedPacket node] else []) rfl rfl
                (fun fd => write_apply _ _ fd _) (fun fd => ?_) (fun a ha told ht => ?_) trivial
              · split
                · rw [hadded]
                  exact List.cons_subset.mpr ⟨hknown.2, List.nil_subset _⟩
                · exact List.nil_subset _
              · simp only [pending, hlistener, hchain] at ht ⊢
                by_cases hfd : a.socketfd = joined
                · simp only [if_pos hfd, hadded, Option.map_some] at ht ⊢
                  obtain rfl := Option.some.inj ht
                  exact ⟨_, rfl, List.perm_append_comm⟩
                · simp only [if_neg hfd] at ht ⊢
                  exact ⟨told, ht, by simp⟩

theorem Meeting.broadcast (h : Meeting s) {packets : List Packet} {closed : List ℕ}
    (hstep : step s (.broadcast packets closed) = some t) : Meeting t := by
  simp only [step] at hstep
  split at hstep
  · rename_i hsilent
    obtain rfl := Option.some.inj hstep
    have hdrop := h.drop closed
    have hnothing : ∀ fd, (if hasNode (keepOpen s.replicaList closed) fd then packets
        else []).filterMap heardOf = [] := fun fd => by
      split
      · exact hsilent
      · rfl
    have hwritten : ∀ fd, writeAll s.backups (keepOpen s.replicaList closed) packets fd =
        (s.backups fd).map (·.receive
          (if hasNode (keepOpen s.replicaList closed) fd then packets else [])) := fun fd =>
      writeAll_apply hdrop.sockets _ fd _
    refine hdrop.written
      (fun fd => if hasNode (keepOpen s.replicaList closed) fd then packets else [])
      rfl rfl hwritten
      (fun fd => (hnothing fd).symm ▸ List.nil_subset _)
      (fun a ha told ht => ⟨told, ht, by rw [hnothing, List.append_nil]⟩) ?_
    have hplace := hdrop.place
    unfold PlaceHolds at hplace ⊢
    cases hlistener : s.listener with
    | accepting | loadingHead | relaying | loadingNext => trivial
    | notifying node =>
        simp only [hlistener] at hplace
        exact hplace
    | adding node =>
        simp only [hlistener] at hplace
        have hfree : hasNode (keepOpen s.replicaList closed) node.socketfd = false := by
          simpa [hasNode] using hplace.socket
        refine ⟨hplace.known, hplace.socket, hplace.id, ?_, fun fd backup hbackup => ?_⟩
        · refine (hwritten _).trans ?_
          rw [hfree, hplace.backup]
          rfl
        · obtain ⟨backup, hbefore, rfl⟩ :=
            Option.map_eq_some_iff.mp ((hwritten fd).symm.trans hbackup)
          have hreceive := (backup.heard_receive
            (if hasNode (keepOpen s.replicaList closed) fd then packets else [])).filter
              (·.1.1 = node.id)
          rw [hnothing, List.nil_append] at hreceive
          exact List.Perm.eq_nil (hplace.heard fd backup hbefore ▸ hreceive)
  · cases hstep

theorem Meeting.process (h : Meeting s) {socketfd : ℕ} {outcome : Option ℕ}
    (hstep : step s (.process socketfd outcome) = some t) : Meeting t := by
  obtain ⟨backup, hbackup, hstep⟩ := Option.bind_eq_some_iff.mp hstep
  obtain ⟨backup', hprocess, rfl⟩ := Option.map_eq_some_iff.mp hstep
  have hprocessed := JoinedBackup.processed_of_process hprocess
  have hheard := (h.registered socketfd backup hbackup).1
  refine ⟨h.sockets, h.ids, h.known, fun node hnode => ?_, fun other backup₁ hbackup₁ => ?_, ?_,
    fun a ha b hb hne backup₁ hbackup₁ told ht hid => ?_⟩
  · obtain ⟨before, hbefore, hid⟩ := h.backups node hnode
    by_cases heq : node.socketfd = socketfd
    · subst heq
      obtain rfl := Option.some.inj (hbackup.symm.trans hbefore)
      exact ⟨backup', Function.update_self _ _ _, hprocessed.id.trans hid⟩
    · exact ⟨before, (Function.update_of_ne heq _ _).trans hbefore, hid⟩
  · rcases of_update hbackup₁ with ⟨rfl, -⟩ | ⟨-, hbackup₁⟩
    · exact ⟨fun key hkey => hheard (hprocessed.heard key hkey),
        hprocessed.others (h.registered socketfd backup hbackup).2⟩
    · exact h.registered other backup₁ hbackup₁
  · have hplace := h.place
    unfold PlaceHolds at hplace ⊢
    cases hlistener : s.listener with
    | accepting | loadingHead | relaying | loadingNext => trivial
    | notifying node =>
        simp only [hlistener] at hplace
        exact hplace
    | adding node =>
        simp only [hlistener] at hplace
        -- the new backup has nothing to read
        have hne : node.socketfd ≠ socketfd := by
          rintro rfl
          obtain rfl := Option.some.inj (hplace.backup.symm.trans hbackup)
          cases hprocess
        refine ⟨hplace.known, hplace.socket, hplace.id,
          (Function.update_of_ne hne _ _).trans hplace.backup, fun other backup₁ hbackup₁ => ?_⟩
        rcases of_update hbackup₁ with ⟨rfl, -⟩ | ⟨-, hbackup₁⟩
        · have hbefore := about_eq_nil.mp (hplace.heard socketfd backup hbackup)
          exact about_eq_nil.mpr fun key hkey => hbefore key (hprocessed.heard key hkey)
        · exact hplace.heard other backup₁ hbackup₁
  · rcases of_update hbackup₁ with ⟨rfl, hsocket⟩ | ⟨-, hbackup₁⟩
    · subst hsocket
      obtain ⟨before, hbefore, hown⟩ := h.backups a ha
      obtain rfl := Option.some.inj (hbackup.symm.trans hbefore)
      obtain ⟨hid, hperm⟩ := hprocessed.about b.id (hown ▸ Ne.symm hne) hid
      have hheard := h.heard a ha b hb hne backup hbackup told ht hid
      rw [about_append] at hheard ⊢
      exact (hperm.append_left _).trans hheard
    · exact h.heard a ha b hb hne backup₁ hbackup₁ told ht hid

theorem meeting_step (h : Meeting s) {action : Action} (hok : s.RegistersNew action)
    (hstep : step s action = some t) : Meeting t := by
  cases action with
  | register => exact h.register hok hstep
  | add => exact h.add hstep
  | notify => exact h.notify hstep
  | loadHead => exact h.loadHead hstep
  | relay => exact h.relay hstep
  | loadNext => exact h.loadNext hstep
  | broadcast => exact h.broadcast hstep
  | process => exact h.process hstep

/-! ## The run -/

/-- Backups that join with ids of their own, in any order and however late they handle what they
are told. A backup lists only others that have registered, under the port and the address that they
came with. When the listener accepts again and the backup has no news to read, it lists every other
replica of the manager exactly once, at its listening port, unless it could not connect to it. -/
theorem backup_knows_others {actions : List Action}
    (hok : Along step RegistersNew initial actions) (hrun : run step initial actions = some s)
    {a : ReplicaNode} (ha : a ∈ s.replicaList) :
    ∃ backup, s.backups a.socketfd = some backup ∧ backup.id = a.id ∧
      (∀ node ∈ backup.replicaList, node.id ≠ a.id ∧ node.key ∈ s.registered) ∧
      (s.listener = .accepting → backup.stream.filterMap heardOf = [] →
        ∀ b ∈ s.replicaList, b.id ≠ a.id → b.id ∉ backup.refused →
          ∃ socketfd, backup.replicaList.filter (·.id = b.id) =
            [⟨b.id, socketfd, b.listenerPort,
              ⟨b.deviceAddress.sinAddr, htons b.listenerPort⟩⟩]) := by
  have h : Meeting s := hok.invariant (fun _ _ _ h hok hstep => meeting_step h hok hstep)
    meeting_initial hrun
  obtain ⟨backup, hbackup, hid⟩ := h.backups a ha
  obtain ⟨hheard, hconnected⟩ := h.registered a.socketfd backup hbackup
  refine ⟨backup, hbackup, hid, fun node hnode => ⟨hid ▸ (hconnected node hnode).1, ?_⟩, ?_⟩
  · exact hheard (List.mem_append_right _ (List.mem_map_of_mem hnode))
  · intro hlistener hread b hb hne hrefused
    have hperm := h.heard a ha b hb hne.symm backup hbackup [] (by simp [pending, hlistener])
      hrefused
    rw [List.nil_append, JoinedBackup.heard, hread, List.nil_append, List.perm_singleton, about,
      List.filter_map, List.map_eq_singleton_iff] at hperm
    obtain ⟨node, hnode, hkey⟩ := hperm
    have hmem : node ∈ backup.replicaList :=
      List.mem_of_mem_filter (hnode ▸ List.mem_singleton_self node)
    have hport := (hconnected node hmem).2
    obtain ⟨id, socketfd, listenerPort, sinAddr, sinPort⟩ := node
    simp only [ReplicaNode.key, Prod.mk.injEq] at hkey hport
    obtain ⟨⟨rfl, rfl⟩, rfl⟩ := hkey
    subst hport
    exact ⟨socketfd, hnode⟩

/-- Three backups. The first handles what it is told of itself late, the second before the walk is
over, and a heartbeat finds nobody gone. -/
def threeJoin : List Action :=
  [.register 4 1 6003 ⟨⟨10, 0, 0, 1⟩, 40001⟩, .add, .notify [], .loadHead, .relay, .process 4 none,
    .loadNext, .relay,
    .register 5 2 7003 ⟨⟨10, 0, 0, 2⟩, 40002⟩, .add, .notify [], .loadHead, .relay, .loadNext,
    .process 5 none, .broadcast [eventPacket createHeartbeatEvent] [], .relay, .loadNext, .relay,
    .process 5 none,
    .register 6 3 8003 ⟨⟨10, 0, 0, 3⟩, 40003⟩, .add, .process 4 none, .notify [], .loadHead, .relay,
    .loadNext, .relay, .process 4 (some 8), .process 4 none, .process 4 (some 9), .loadNext, .relay,
    .loadNext, .relay, .process 5 none, .process 5 (some 3), .process 5 (some 9),
    .process 6 none, .process 6 none, .process 6 (some 3), .process 6 (some 4)]

def threeJoined : Joining := (run step initial threeJoin).get (by decide +kernel)

theorem backup_knows_others_of_threeJoin :
    threeJoined.replicaList.map (·.id) = [3, 2, 1] ∧
      ∀ a ∈ threeJoined.replicaList, ∃ backup, threeJoined.backups a.socketfd = some backup ∧
        ∀ b ∈ threeJoined.replicaList, b.id ≠ a.id →
          ∃ socketfd, backup.replicaList.filter (·.id = b.id) =
            [⟨b.id, socketfd, b.listenerPort,
              ⟨b.deviceAddress.sinAddr, htons b.listenerPort⟩⟩] := by
  refine ⟨by decide +kernel, fun a ha => ?_⟩
  have hrun : run step initial threeJoin = some threeJoined := (Option.some_get _).symm
  obtain ⟨backup, hbackup, -, -, hknows⟩ := backup_knows_others (by decide +kernel) hrun ha
  have hread : ∀ a ∈ threeJoined.replicaList, ∀ backup ∈ threeJoined.backups a.socketfd,
      backup.stream.filterMap heardOf = [] ∧ backup.refused = [] := by decide +kernel
  obtain ⟨hdrained, hrefused⟩ := hread a ha backup hbackup
  have hlistener : threeJoined.listener = .accepting := by decide +kernel
  exact ⟨backup, hbackup, fun b hb hne =>
    hknows hlistener hdrained b hb hne (hrefused ▸ List.not_mem_nil)⟩

end Joining

end SyncServer
