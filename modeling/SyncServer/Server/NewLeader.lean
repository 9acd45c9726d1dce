import SyncServer.Library.Transition
import SyncServer.Server.System

/-! # What a COORDINATOR does at a backup

The leader leaves the peer list of the backup, whose list has grown with every
EVENT_REPLICA_ADDED, and a new `BackupArgs` says where the leader is to be dialled.
-/

namespace SyncServer

open CText

/-! ## The address of the leader -/

/-- The buffer with a text of at most fifteen bytes in it. -/
theorem copyHostname_eq (prior : Bytes) {text : Bytes} (htext : text.length ≤ 15) :
    copyHostname prior text =
      cString (text ++ (List.replicate (15 - text.length) 0 ++ (prior.drop 15).set 240 0)) := by
  have htake : (text ++ List.replicate 15 0).take 15 =
      text ++ List.replicate (15 - text.length) (0 : UInt8) := by
    rw [List.take_append, List.take_of_length_le htext, List.take_replicate,
      Nat.min_eq_left (Nat.sub_le ..)]
  have hlength : (text ++ List.replicate (15 - text.length) (0 : UInt8)).length = 15 := by
    simp only [List.length_append, List.length_replicate]
    omega
  rw [copyHostname, strncpy, htake, List.set_append_right _ _ (by omega), hlength,
    List.append_assoc]

/-- A text that is short of fifteen bytes is followed by a zero, one of fifteen bytes by what
was in the buffer. -/
theorem copyHostname_eq_iff {prior text : Bytes} (hprior : prior.length = 256)
    (htext : text.length ≤ 15) (hzero : 0 ∉ text) :
    copyHostname prior text = text ↔ text.length < 15 ∨ prior[15]? = some 0 := by
  rw [copyHostname_eq prior htext]
  rcases Nat.lt_or_eq_of_le htext with hlt | heq
  · obtain ⟨n, hn⟩ : ∃ n, 15 - text.length = n + 1 := ⟨14 - text.length, by omega⟩
    rw [hn, List.replicate_succ, List.cons_append, cString_append_eq_iff hzero]
    simp [hlt]
  · have hdrop : prior.drop 15 = prior[15] :: prior.drop 16 := List.drop_eq_getElem_cons _
    rw [heq, Nat.sub_self, List.replicate_zero, List.nil_append, hdrop, List.set_cons_succ,
      cString_append_eq_iff hzero, List.getElem?_eq_getElem (by omega)]
    simp

theorem createBackup_step (electionSocket : ℕ) (id leaderId : ℤ) (sh : Shared) (fresh : ℕ)
    (leader : SockAddrIn) {prior : Bytes} (hprior : prior.length = 256) :
    ElectionListener.step electionSocket id sh (.memory prior) fresh
      (.createBackup leaderId leader) = some
        { shared := { sh with
            backupArgs := Function.update sh.backupArgs fresh (coordinatorArgs id leader prior) },
          next := .receive, created := some (.runAsBackup fresh .storeMode) } := by
  simp [ElectionListener.step, hprior]

/-- What the new `BackupArgs` says. -/
theorem coordinatorArgs_of_createBackup {electionSocket : ℕ} {id leaderId : ℤ} {sh : Shared}
    {fresh : ℕ} {leader : SockAddrIn} {prior : Bytes} (hprior : prior.length = 256)
    {effect : Effect ElectionListener} {args : BackupArgs}
    (h : ElectionListener.step electionSocket id sh (.memory prior) fresh
      (.createBackup leaderId leader) = some effect)
    (hargs : effect.shared.backupArgs fresh = some args) :
    args = coordinatorArgs id leader prior := by
  rw [createBackup_step electionSocket id leaderId sh fresh leader hprior] at h
  obtain rfl := Option.some.inj h
  exact (Option.some.inj ((Function.update_self fresh _ sh.backupArgs).symm.trans hargs)).symm

/-- The new `BackupArgs` has the text of the leader's address, so that the leader is dialled, when
the text is short of fifteen bytes or the byte after them was zero. -/
theorem createBackup_dials_iff (electionSocket : ℕ) (id leaderId : ℤ) (sh : Shared) (fresh : ℕ)
    (leader : SockAddrIn) {prior : Bytes} (hprior : prior.length = 256) :
    (∃ effect args, ElectionListener.step electionSocket id sh (.memory prior) fresh
        (.createBackup leaderId leader) = some effect ∧
      effect.shared.backupArgs fresh = some args ∧
      args.hostname = inetNtop leader.sinAddr ∧ args.port = leader.sinPort.toNat ∧
      ∀ peer, effect.shared.DialsTo fresh args.port peer → peer = leader) ↔
    (inetNtop leader.sinAddr).length < 15 ∨ prior[15]? = some 0 := by
  rw [← copyHostname_eq_iff hprior (length_inetNtop_le leader.sinAddr)
    (zero_not_mem_inetNtop leader.sinAddr)]
  constructor
  · rintro ⟨effect, args, heffect, hargs, hhostname, -⟩
    obtain rfl := coordinatorArgs_of_createBackup hprior heffect hargs
    exact hhostname
  · intro hhostname
    refine ⟨_, coordinatorArgs id leader prior,
      createBackup_step electionSocket id leaderId sh fresh leader hprior,
      Function.update_self .., hhostname, rfl, ?_⟩
    rintro ⟨address, port⟩ ⟨hport, hresolves⟩
    have haddress : address = leader.sinAddr := by
      refine hresolves _ (Function.update_self ..) _ ?_
      have hname : (coordinatorArgs id leader prior).hostname = inetNtop leader.sinAddr := hhostname
      rw [hname, inetPton_inetNtop]
      rfl
    have hsame : port = leader.sinPort := hport.trans (htons_toNat leader.sinPort)
    rw [haddress, hsame]

/-- A short address goes over whatever the block held. -/
theorem createBackup_dials_iff_short :
    ∃ effect args, ElectionListener.step 0 1 (.initial .backup 0 ⟨10, 0, 0, 1⟩ fun _ => none)
        (.memory (List.replicate 256 49)) 0 (.createBackup 2 ⟨⟨10, 0, 0, 2⟩, 4000⟩) =
          some effect ∧
      effect.shared.backupArgs 0 = some args ∧ args.hostname = inetNtop ⟨10, 0, 0, 2⟩ := by
  obtain ⟨effect, args, heffect, hargs, hhostname, -⟩ :=
    (createBackup_dials_iff 0 1 2 (.initial .backup 0 ⟨10, 0, 0, 1⟩ fun _ => none) 0
      ⟨⟨10, 0, 0, 2⟩, 4000⟩ (List.length_replicate (n := 256) (a := (49 : UInt8)))).mpr
      (by decide)
  exact ⟨effect, args, heffect, hargs, hhostname⟩

/-- 192.168.100.100 in a block that held ones leaves a longer text. -/
theorem not_hostname_of_fifteen_bytes :
    ¬∃ effect args, ElectionListener.step 0 1 (.initial .backup 0 ⟨10, 0, 0, 1⟩ fun _ => none)
        (.memory (List.replicate 256 49)) 0 (.createBackup 2 ⟨⟨192, 168, 100, 100⟩, 4000⟩) =
          some effect ∧
      effect.shared.backupArgs 0 = some args ∧
      args.hostname = inetNtop ⟨192, 168, 100, 100⟩ ∧ args.port = 4000 := by
  rintro ⟨effect, args, heffect, hargs, hhostname, -⟩
  have hprior : (List.replicate 256 (49 : UInt8)).length = 256 := List.length_replicate
  obtain rfl := coordinatorArgs_of_createBackup hprior heffect hargs
  have h := (copyHostname_eq_iff hprior (length_inetNtop_le _) (zero_not_mem_inetNtop _)).mp
    hhostname
  exact absurd h (by decide)

/-! ## The peer list -/

/-- What changes the peer list of a backup: `connect_to_server_thread` has an event in hand, with
what `connect` gives if the event makes it dial; an election listener handles a COORDINATOR. -/
inductive PeerEvent where
  | received (socketfd : ℕ) (peer : SockAddrIn) (closed : Bool) (event : ReplicaEvent)
      (input : Input)
  | coordinator (leader : ℤ) (address : SockAddrIn)
  deriving DecidableEq, Repr

/-- The statements of the threads for an event, as far as the list. -/
def peerStep (args : ℕ) (id port : ℤ) (sh : Shared) : PeerEvent → Option Shared
  | .received socketfd peer closed event input =>
      (ConnectToServer.step args id port sh input (.apply socketfd peer closed event)).bind
        fun effect =>
          match effect.next with
          | .dialReplica .. =>
              (ConnectToServer.step args id port effect.shared input effect.next).map Effect.shared
          | _ => some effect.shared
  | .coordinator leader address =>
      (ElectionListener.step 0 id sh .none 0 (.removeLeader leader address)).map Effect.shared

/-- The event names a replica, not the backup itself, and a socket that is not in the list was
connected to it. -/
structure JoinsList (id : ℤ) (list : List ReplicaNode) (event : ReplicaEvent) (input : Input)
    (node : ReplicaNode) : Prop where
  type_eq : event.type = .replicaAdded
  named : ∃ username ∈ event.username, scanPair username = some (node.id, node.listenerPort)
  ne_self : node.id ≠ id
  connected : input = .connected node.socketfd node.deviceAddress
  address_eq :
    node.deviceAddress = { event.deviceAddress with sinPort := htons node.listenerPort }
  fresh : hasNode list node.socketfd = false

/-- The thread dials where an event names another replica, and goes on otherwise. -/
theorem apply_cases {args : ℕ} {id port : ℤ} {sh : Shared} {input : Input} {socketfd : ℕ}
    {peer : SockAddrIn} {closed : Bool} {event : ReplicaEvent} {effect : Effect ConnectToServer}
    (h : ConnectToServer.step args id port sh input (.apply socketfd peer closed event) =
      some effect) :
    effect.shared.replicaList = sh.replicaList ∧
      (effect.next = .loadRunning socketfd peer closed ∨
        ∃ node, effect.next = .dialReplica socketfd peer closed node ∧
          event.type = .replicaAdded ∧
          (∃ username ∈ event.username, scanPair username = some (node.id, node.listenerPort)) ∧
          node.id ≠ id ∧
          node.deviceAddress =
            { event.deviceAddress with sinPort := htons node.listenerPort }) := by
  unfold ConnectToServer.step at h
  simp only at h
  split at h
  · obtain rfl := Option.some.inj h
    exact ⟨rfl, Or.inl rfl⟩
  · rename_i htype
    obtain ⟨username, husername, heffect⟩ := Option.map_eq_some_iff.mp h
    cases hscan : scanPair username with
    | none =>
        rw [hscan] at heffect
        subst heffect
        exact ⟨rfl, Or.inl rfl⟩
    | some pair =>
        obtain ⟨replicaId, listenerPort⟩ := pair
        rw [hscan] at heffect
        by_cases hid : replicaId ≠ id
        · simp only [hid, ne_eq, not_false_eq_true, if_true] at heffect
          subst heffect
          exact ⟨rfl, Or.inr ⟨_, rfl, htype, ⟨username, husername, hscan⟩, hid, rfl⟩⟩
        · simp only [hid, if_false] at heffect
          subst heffect
          exact ⟨rfl, Or.inl rfl⟩
  · obtain rfl := Option.some.inj h
    exact ⟨rfl, Or.inl rfl⟩

/-- A node that could be dialled goes to the front, unless its socket is in the list. -/
theorem dialReplica_cases {args : ℕ} {id port : ℤ} {sh : Shared} {input : Input} {socketfd : ℕ}
    {peer : SockAddrIn} {closed : Bool} {node : ReplicaNode} {effect : Effect ConnectToServer}
    (h : ConnectToServer.step args id port sh input (.dialReplica socketfd peer closed node) =
      some effect) :
    effect.shared.replicaList = sh.replicaList ∨
      ∃ newSocket, input = .connected newSocket node.deviceAddress ∧
        hasNode sh.replicaList newSocket = false ∧
        effect.shared.replicaList = { node with socketfd := newSocket } :: sh.replicaList := by
  unfold ConnectToServer.step at h
  cases input with
  | connected newSocket address =>
      by_cases haddress : address = node.deviceAddress
      · subst haddress
        simp only [if_true] at h
        cases hadd : addReplica sh.replicaList { node with socketfd := newSocket } with
        | none =>
            rw [hadd] at h
            obtain rfl := Option.some.inj h
            exact Or.inl rfl
        | some list =>
            rw [hadd] at h
            obtain rfl := Option.some.inj h
            obtain ⟨hnew, hlist⟩ := addReplica_eq_some hadd
            exact Or.inr ⟨newSocket, rfl, hnew, hlist⟩
      · simp [haddress] at h
  | refused =>
      obtain rfl := Option.some.inj h
      exact Or.inl rfl
  | _ => cases h

/-- A list changes when a replica joins and when a leader is taken out. -/
theorem peerStep_cases {args : ℕ} {id port : ℤ} {sh sh' : Shared} {e : PeerEvent}
    (h : peerStep args id port sh e = some sh') :
    sh'.replicaList = sh.replicaList ∨
      (∃ socketfd peer closed event input node,
        e = .received socketfd peer closed event input ∧
        JoinsList id sh.replicaList event input node ∧ sh'.replicaList = node :: sh.replicaList) ∨
      ∃ leader address, e = .coordinator leader address ∧
        sh'.replicaList = removeReplicaById sh.replicaList leader := by
  cases e with
  | coordinator leader address =>
      obtain rfl := Option.some.inj h
      exact Or.inr (Or.inr ⟨leader, address, rfl, rfl⟩)
  | received socketfd peer closed event input =>
      obtain ⟨effect, heffect, hnext⟩ := Option.bind_eq_some_iff.mp h
      obtain ⟨hsame, hplace⟩ := apply_cases heffect
      rcases hplace with hplace | ⟨node, hplace, htype, hnamed, hne, haddress⟩
      · simp only [hplace, Option.some.injEq] at hnext
        subst hnext
        exact Or.inl hsame
      · simp only [hplace] at hnext
        obtain ⟨effect', heffect', rfl⟩ := Option.map_eq_some_iff.mp hnext
        rcases dialReplica_cases heffect' with hsame' | ⟨newSocket, hinput, hnew, hlist⟩
        · exact Or.inl (hsame'.trans hsame)
        · rw [hsame] at hnew hlist
          exact Or.inr (Or.inl ⟨socketfd, peer, closed, event, input,
            { node with socketfd := newSocket }, rfl,
            ⟨htype, hnamed, hne, hinput, haddress, hnew⟩, hlist⟩)

/-- A replica that joins is added. -/
theorem peerStep_of_joins {id : ℤ} (sh : Shared) {event : ReplicaEvent} {input : Input}
    {node : ReplicaNode} (h : JoinsList id sh.replicaList event input node) (args : ℕ) (port : ℤ)
    (socketfd : ℕ) (peer : SockAddrIn) (closed : Bool) :
    peerStep args id port sh (.received socketfd peer closed event input) =
      some { sh with replicaList := node :: sh.replicaList } := by
  obtain ⟨htype, ⟨username, husername, hscan⟩, hne, rfl, haddress, hnew⟩ := h
  have hadd : addReplica sh.replicaList node = some (node :: sh.replicaList) := by
    simp [addReplica, hnew]
  have happly : ConnectToServer.step args id port sh (.connected node.socketfd node.deviceAddress)
      (.apply socketfd peer closed event) = some (.goto sh (.dialReplica socketfd peer closed
        ⟨node.id, 0, node.listenerPort, node.deviceAddress⟩)) := by
    simp [ConnectToServer.step, htype, Option.mem_def.mp husername, hscan, hne, haddress]
  have hdial : ConnectToServer.step args id port sh (.connected node.socketfd node.deviceAddress)
      (.dialReplica socketfd peer closed ⟨node.id, 0, node.listenerPort, node.deviceAddress⟩) =
        some (.goto { sh with replicaList := node :: sh.replicaList }
          (.countReplica socketfd peer closed)) := by
    simp [ConnectToServer.step, hadd]
  simp only [peerStep, happly, Option.bind_some, Effect.goto]
  rw [hdial]
  rfl

/-- A replica joins with an id that no node of the list has. -/
def PeerEvent.AddsNew (id : ℤ) (sh : Shared) : PeerEvent → Prop
  | .received _ _ _ event input =>
      ∀ node, JoinsList id sh.replicaList event input node →
        ∀ other ∈ sh.replicaList, other.id ≠ node.id
  | .coordinator _ _ => True

def ids (list : List ReplicaNode) : List ℤ := list.map (·.id)

theorem mem_ids {list : List ReplicaNode} {id : ℤ} :
    id ∈ ids list ↔ ∃ node ∈ list, node.id = id := List.mem_map

/-- Without two nodes of one id nothing is left under the id that is removed. -/
theorem not_mem_ids_removeReplicaById {list : List ReplicaNode} (h : (ids list).Nodup) (id : ℤ) :
    id ∉ ids (removeReplicaById list id) := by
  induction list with
  | nil => simp [ids, removeReplicaById]
  | cons node list ih =>
      obtain ⟨hhead, htail⟩ := List.nodup_cons.mp h
      by_cases hid : node.id = id
      · rw [removeReplicaById, List.eraseP_cons_of_pos (by simpa using hid), ← hid]
        exact hhead
      · rw [removeReplicaById, List.eraseP_cons_of_neg (by simpa using hid)]
        intro hmem
        rcases List.mem_cons.mp hmem with heq | hmem
        · exact hid heq.symm
        · exact ih htail hmem

theorem nodup_ids_of_peerStep {args : ℕ} {id port : ℤ} {sh sh' : Shared} {e : PeerEvent}
    (hnodup : (ids sh.replicaList).Nodup) (hnew : e.AddsNew id sh)
    (h : peerStep args id port sh e = some sh') : (ids sh'.replicaList).Nodup := by
  rcases peerStep_cases h with hsame | ⟨_, _, _, event, input, node, rfl, hjoins, hlist⟩ |
    ⟨leader, _, rfl, hlist⟩
  · rwa [hsame]
  · rw [hlist]
    refine List.nodup_cons.mpr ⟨fun hmem => ?_, hnodup⟩
    obtain ⟨other, hother, hid⟩ := mem_ids.mp hmem
    exact hnew node hjoins other hother hid
  · rw [hlist]
    exact hnodup.sublist (List.eraseP_sublist.map _)

/-- In a run whose replicas all join with new ids no node of the leader is left when its COORDINATOR
was handled. Where a replica joins with an id that is there already, a COORDINATOR from it leaves
one. -/
theorem leader_leaves_of_run (args : ℕ) (id port : ℤ) {sh₀ sh : Shared}
    (hempty : sh₀.replicaList = []) (events : List PeerEvent)
    (hrun : Transition.run (peerStep args id port) sh₀ events = some sh) :
    (Transition.Along (peerStep args id port) (fun sh e => e.AddsNew id sh) sh₀ events →
      ∀ leader address sh',
        peerStep args id port sh (.coordinator leader address) = some sh' →
        ∀ node ∈ sh'.replicaList, node.id ≠ leader) ∧
    ∀ e sh', ¬e.AddsNew id sh → peerStep args id port sh e = some sh' →
      ∃ leader address sh'',
        peerStep args id port sh' (.coordinator leader address) = some sh'' ∧
        ∃ node ∈ sh''.replicaList, node.id = leader := by
  constructor
  · intro hok leader address sh' hstep node hnode hid
    have hnodup : (ids sh.replicaList).Nodup := by
      refine hok.invariant (I := fun sh => (ids sh.replicaList).Nodup)
        (fun s e t hs hnew h => nodup_ids_of_peerStep hs hnew h) ?_ hrun
      rw [hempty]
      exact List.nodup_nil
    obtain rfl := Option.some.inj hstep
    exact not_mem_ids_removeReplicaById hnodup leader (mem_ids.mpr ⟨node, hnode, hid⟩)
  · intro e sh' hold hstep
    cases e with
    | coordinator leader address => exact absurd trivial hold
    | received socketfd peer closed event input =>
        simp only [PeerEvent.AddsNew, not_forall, ne_eq, not_not] at hold
        obtain ⟨node, hjoins, other, hother, hid⟩ := hold
        rw [peerStep_of_joins sh hjoins, Option.some.injEq] at hstep
        subst hstep
        refine ⟨node.id, .zero, _, rfl, other, ?_, hid⟩
        change other ∈ removeReplicaById (node :: sh.replicaList) node.id
        rw [removeReplicaById, List.eraseP_cons_of_pos (by simp)]
        exact hother

/-- What a backup gets about a replica that listens on port 4000. -/
def joined (id : ℤ) (socketfd : ℕ) : PeerEvent :=
  .received 4 .zero false (createReplicaAddedEvent id 4000 .zero)
    (.connected socketfd ⟨⟨0, 0, 0, 0⟩, 4000⟩)

theorem joins_joined {id other : ℤ} (hid : IsInt other) (hne : other ≠ id) (socketfd : ℕ)
    {list : List ReplicaNode} (hnew : hasNode list socketfd = false) :
    JoinsList id list (createReplicaAddedEvent other 4000 .zero)
      (.connected socketfd ⟨⟨0, 0, 0, 0⟩, 4000⟩) ⟨other, socketfd, 4000, ⟨⟨0, 0, 0, 0⟩, 4000⟩⟩ where
  type_eq := rfl
  named := ⟨_, rfl, scanPair_printPair hid (by decide)⟩
  ne_self := hne
  connected := rfl
  address_eq := rfl
  fresh := hnew

def backupWithoutPeers : Shared := .initial .backup 0 ⟨10, 0, 0, 1⟩ fun _ => none

/-- One replica has joined and becomes the leader. -/
theorem leader_leaves_of_run_joined :
    ∃ sh, peerStep 0 1 4000
        { backupWithoutPeers with replicaList := [⟨3, 5, 4000, ⟨⟨0, 0, 0, 0⟩, 4000⟩⟩] }
        (.coordinator 3 .zero) = some sh ∧ ∀ node ∈ sh.replicaList, node.id ≠ 3 := by
  have hstep := peerStep_of_joins backupWithoutPeers
    (joins_joined (by decide : IsInt 3) (by decide : (3 : ℤ) ≠ 1) 5 rfl)
    0 4000 4 .zero false
  have hleaves := (leader_leaves_of_run 0 1 4000 rfl [joined 3 5]
    (Transition.run_cons_eq_some.mpr ⟨_, hstep, rfl⟩)).1
    fun t ht => ⟨fun node hjoins other hother => absurd hother List.not_mem_nil, trivial⟩
  exact ⟨_, rfl, hleaves 3 .zero _ rfl⟩

/-- The replica 3 stops and joins again on a new connection; then it becomes the leader. -/
theorem leader_stays_after_joining_twice :
    ∃ sh, Transition.run (peerStep 0 1 4000) backupWithoutPeers
        [joined 3 5, joined 3 6, .coordinator 3 .zero] = some sh ∧
      ∃ node ∈ sh.replicaList, node.id = 3 := by
  have hfirst := peerStep_of_joins backupWithoutPeers
    (joins_joined (by decide : IsInt 3) (by decide : (3 : ℤ) ≠ 1) 5 rfl)
    0 4000 4 .zero false
  have hsecond := peerStep_of_joins
    { backupWithoutPeers with replicaList := [⟨3, 5, 4000, ⟨⟨0, 0, 0, 0⟩, 4000⟩⟩] }
    (joins_joined (by decide : IsInt 3) (by decide : (3 : ℤ) ≠ 1) 6 (by decide))
    0 4000 4 .zero false
  refine ⟨_, Transition.run_cons_eq_some.mpr ⟨_, hfirst, Transition.run_cons_eq_some.mpr
    ⟨_, hsecond, rfl⟩⟩, ⟨3, 5, 4000, ⟨⟨0, 0, 0, 0⟩, 4000⟩⟩, ?_, rfl⟩
  exact List.mem_singleton.mpr rfl

end SyncServer
