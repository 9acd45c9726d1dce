import SyncServer.Cluster.Answers
import SyncServer.Server.Listener

/-! # The ports that the servers announce

A backup announces the port of its listener to the manager, the manager relays it to the other
backups, and the winner of an election announces its own. All of them read it from the
`BackupArgs` of the announcing server. The threads that serve clients announce no ports and are left
out of these runs.
-/

namespace SyncServer

open CText Transition

/-! ## What a thread knows of other servers -/

/-- The node that a thread is about to put into the list, or to announce. -/
def Thread.node? : Thread → Option ReplicaNode
  | connectToServer _ _ _ (.dialReplica _ _ _ node) => some node
  | replicaListener _ (.addReplica node) => some node
  | replicaListener _ (.countReplica node) => some node
  | replicaListener _ (.notifyAdded node) => some node
  | _ => none

/-- The event that a thread is about to apply. -/
def Thread.event? : Thread → Option ReplicaEvent
  | connectToServer _ _ _ (.apply _ _ _ event) => some event
  | _ => none

/-- The event announces a replica with this id and port. -/
def ReplicaEvent.Adds (event : ReplicaEvent) (id port : ℤ) : Prop :=
  event.type = .replicaAdded ∧ ∃ username ∈ event.username, scanPair username = some (id, port)

/-- Two nodes with the same id and port. -/
def ReplicaNode.SameAs (node other : ReplicaNode) : Prop :=
  node.id = other.id ∧ node.listenerPort = other.listenerPort

section Step

variable {sh : Shared} {isExited : ℕ → Bool} {input : Input} {fresh : ℕ} {thread : Thread}
  {e : Effect Thread}

/-- Where a thread has its node from. -/
inductive Thread.NodeFrom (input : Input) (node : ReplicaNode) (thread : Thread) : Prop where
  | held (h : node ∈ thread.node?)
  | event (event : ReplicaEvent) (h : event ∈ thread.event?)
      (hadds : event.Adds node.id node.listenerPort)
  | registration (args : ManagerArgs) (address : SockAddrIn) (payload : Bytes)
      (hthread : thread = replicaListener args (.readRegistration node.socketfd address))
      (hinput : input = .registration payload node.id node.listenerPort)
      (hpair : ∀ pair ∈ scanPair payload, pair = (node.id, node.listenerPort))

theorem Thread.node?_next {node : ReplicaNode} (h : thread.step sh isExited input fresh = some e)
    (hn : node ∈ e.next.node?) : NodeFrom input node thread := by
  cases hnext : e.next with
  | connectToServer args id port place =>
      obtain ⟨place₀, e₀, rfl, h₀, -, rfl⟩ := next_connectToServer h hnext
      rw [hnext] at hn
      cases place₀
      case apply socketfd peer closed event =>
        refine .event event rfl ?_
        simp only [ConnectToServer.step, Effect.goto] at h₀
        grind [node?.eq_def, ReplicaEvent.Adds, Option.map_eq_some_iff]
      all_goals
        simp only [ConnectToServer.step, Effect.goto] at h₀
        grind [node?.eq_def, Option.map_eq_some_iff]
  | replicaListener args place =>
      obtain ⟨place₀, e₀, rfl, h₀, -, rfl⟩ := next_replicaListener h hnext
      rw [hnext] at hn
      cases place₀
      case readRegistration socketfd address =>
        simp only [ReplicaListener.step, Effect.goto] at h₀
        split at h₀
        · obtain rfl := Option.some.inj h₀
          cases hn
        · split at h₀
          · rename_i payload id listenerPort hpair
            obtain rfl := Option.some.inj h₀
            obtain rfl := Option.some.inj hn
            exact .registration args address payload rfl rfl hpair
          · cases h₀
        · cases h₀
      case addReplica node₀ =>
        refine .held ?_
        simp only [ReplicaListener.step, Effect.goto] at h₀
        grind [node?.eq_def]
      case countReplica node₀ =>
        refine .held ?_
        obtain rfl := Option.some.inj h₀
        exact hn
      all_goals
        simp only [ReplicaListener.step, Effect.goto] at h₀
        grind [node?.eq_def]
  | _ => simp [hnext, node?] at hn

theorem Thread.event?_next {event : ReplicaEvent} (h : thread.step sh isExited input fresh = some e)
    (hn : event ∈ e.next.event?) :
    ∃ socketfd writer payload, thread.reading = some socketfd ∧ input = .packet writer payload ∧
      event = deserializeReplicaEvent payload := by
  cases hnext : e.next with
  | connectToServer args id port place =>
      obtain ⟨place₀, e₀, rfl, h₀, -, rfl⟩ := next_connectToServer h hnext
      rw [hnext] at hn
      cases place₀
      case receive socketfd peer closed =>
        simp only [ConnectToServer.step, Effect.goto] at h₀
        split at h₀
        · obtain rfl := Option.some.inj h₀
          cases hn
        · obtain rfl := Option.some.inj h₀
          cases hn
        · rename_i writer payload
          obtain rfl := Option.some.inj h₀
          obtain rfl := Option.some.inj hn
          exact ⟨socketfd, writer, payload, rfl, rfl, rfl⟩
        · cases h₀
      all_goals
        simp only [ConnectToServer.step, Effect.goto] at h₀
        grind [event?.eq_def, Option.map_eq_some_iff]
  | _ => simp [hnext, event?] at hn

/-- A created thread knows of no other server. -/
theorem Thread.knows_created {created : Thread} (h : thread.step sh isExited input fresh = some e)
    (hc : e.created = some created) : created.node? = none ∧ created.event? = none := by
  cases created_cases h hc <;> exact ⟨rfl, rfl⟩

/-- A node of the list was there before or is the one in the hands of the thread. -/
theorem Thread.step_replicaList {node : ReplicaNode}
    (h : thread.step sh isExited input fresh = some e) (hn : node ∈ e.shared.replicaList) :
    node ∈ sh.replicaList ∨ ∃ held ∈ thread.node?, node.SameAs held := by
  rcases step_frame h with hchange | ⟨-, -, hold⟩
  · cases hchange with
    | createBackup socket id leader address =>
        obtain ⟨e₀, h₀, rfl⟩ := step_electionListener.mp h
        left
        simp only [ElectionListener.step] at h₀
        grind [Effect.map]
    | bindBackup args =>
        obtain ⟨e₀, h₀, rfl⟩ := step_runAsBackup.mp h
        obtain ⟨block, hb, h₁⟩ := Option.bind_eq_some_iff.mp h₀
        left
        simp only [Effect.goto] at h₁
        grind [Effect.map]
    | cleanUp args =>
        obtain ⟨e₀, h₀, rfl⟩ := step_runAsBackup.mp h
        obtain ⟨block, hb, h₁⟩ := Option.bind_eq_some_iff.mp h₀
        obtain rfl := Option.some.inj h₁
        exact .inl hn
    | dialReplica args id port socketfd peer closed held =>
        obtain ⟨e₀, h₀, rfl⟩ := step_connectToServer.mp h
        simp only [ConnectToServer.step, Effect.goto] at h₀
        split at h₀
        · split at h₀
          · split at h₀
            · rename_i list hlist
              obtain rfl := Option.some.inj h₀
              obtain ⟨-, rfl⟩ := addReplica_eq_some hlist
              rcases List.mem_cons.mp hn with rfl | hn
              · exact .inr ⟨held, rfl, rfl, rfl⟩
              · exact .inl hn
            · obtain rfl := Option.some.inj h₀
              exact .inl hn
          · cases h₀
        · obtain rfl := Option.some.inj h₀
          exact .inl hn
        · cases h₀
    | bindManager args =>
        obtain ⟨e₀, h₀, rfl⟩ := step_manageReplicas.mp h
        left
        simp only [ManageReplicas.step, Effect.goto] at h₀
        grind [Effect.map]
    | addReplica args held =>
        obtain ⟨e₀, h₀, rfl⟩ := step_replicaListener.mp h
        simp only [ReplicaListener.step, Effect.goto] at h₀
        split at h₀
        · rename_i list hlist
          obtain rfl := Option.some.inj h₀
          obtain ⟨-, rfl⟩ := addReplica_eq_some hlist
          rcases List.mem_cons.mp hn with rfl | hn
          · exact .inr ⟨node, rfl, rfl, rfl⟩
          · exact .inl hn
        · obtain rfl := Option.some.inj h₀
          exact .inl hn
  · exact .inl (hold node hn)

end Step

/-- A server starts without knowing any other. -/
theorem Server.StartsAs.knows {s : Server} {id : ℤ} (h : s.StartsAs id) :
    s.shared.replicaList = [] ∧ ∀ t, (s.threads t).node? = none ∧ (s.threads t).event? = none := by
  cases h with
  | backup =>
      refine ⟨rfl, fun t => ?_⟩
      by_cases ht : t = 0 <;> simp [startBackup, ht, Thread.node?, Thread.event?]
  | manager =>
      refine ⟨rfl, fun t => ?_⟩
      by_cases ht : t = 0 <;> simp [startManager, ht, Thread.node?, Thread.event?]

/-! ## True announcements -/

namespace Cluster

/-- The port is the one that the listener of the server is bound to. -/
def IsBound (c : Cluster) (id port : ℤ) : Prop :=
  ∃ bound ∈ (c.servers id).shared.listenerSocket, port = bound.toNat

/-- What a text that server `i` writes says about listeners: a registration and a COORDINATOR
name its own, a REPLICA_ADDED that of the server it is about. -/
structure Truthful (c : Cluster) (i : ℤ) (payload : Bytes) : Prop where
  registration : ∀ id port, scanPair payload = some (id, port) → id = i ∧ c.IsBound i port
  coordinator : scanPair payload = none →
    (deserializeElectionEvent payload).type = .coordinator →
      (deserializeElectionEvent payload).id = i ∧
      c.IsBound i (deserializeElectionEvent payload).deviceAddress.sinPort.toNat
  added : ∀ id port, (deserializeReplicaEvent payload).Adds id port → c.IsBound id port

/-- The port in every node of a replica list is that of the server's listener. -/
def NodesBound (c : Cluster) : Prop :=
  ∀ i, ∀ node ∈ (c.servers i).shared.replicaList, c.IsBound node.id node.listenerPort

/-- What a step writes. -/
def sent (c : Cluster) : Action → List (ℕ × Bytes)
  | .run i tid input fresh => (((c.servers i).effect tid input fresh).map (·.sent)).getD []
  | _ => []

/-- The block that the thread announces its port from is there and is the one that `main`
filled. -/
def hasOwnBlock (s : Server) (args : ℕ) : Bool :=
  (s.shared.backupArgs args).any (!·.hasListener)

/-- Registrations and COORDINATORs are written from the block that `main` filled, the listener
is bound to a 16-bit port that was asked for, and a manager reads two numbers from a replica
that it has accepted. -/
def announcesOwnPort (c : Cluster) : Action → Bool
  | .run i tid input _ =>
      match (c.servers i).threads tid, input with
      | .connectToServer args _ _ (.register _ _ _), _ => hasOwnBlock (c.servers i) args
      | .runAsBackup args (.sendCoordinator _), _ => hasOwnBlock (c.servers i) args
      | .runAsBackup _ .bindListener, .bound port _ => 0 < port ∧ port < 65536
      | .replicaListener _ (.readRegistration _ _), .registration payload _ _ =>
          (scanPair payload).isSome
      | _, _ => true
  | _ => true

variable {c c' : Cluster} {i : ℤ} {tid fresh : ℕ} {input : Input}

/-- What the servers know of their own and of each other's listeners. -/
structure PortsKnown (c : Cluster) : Prop where
  identified : ∀ i, (c.servers i).Identified i
  listening : ∀ i, (c.servers i).Listening
  nodes : c.NodesBound
  held : ∀ i t, ∀ node ∈ ((c.servers i).threads t).node?, c.IsBound node.id node.listenerPort
  events : ∀ i t, ∀ event ∈ ((c.servers i).threads t).event?, ∀ id port, event.Adds id port →
    c.IsBound id port
  texts : ∀ p, ∀ m ∈ c.inbox p, ∃ i, c.Truthful i m.2

theorem IsBound.isInt {id port : ℤ} (hc : ∀ i, (c.servers i).Identified i)
    (h : c.IsBound id port) : IsInt id ∧ IsInt port := by
  obtain ⟨bound, hb, rfl⟩ := h
  have hlt := bound.toNat_lt
  refine ⟨(hc id).listens ?_, ?_⟩
  · rw [Option.mem_def.mp hb]
    nofun
  · constructor <;> omega

/-! ### What is written is true -/

theorem truthful_electionEvent {event : ElectionEvent} (hlisted : event.type.Listed)
    (h : event.type = .coordinator →
      (deserializeElectionEvent (serializeElectionEvent event)).id = i ∧ c.IsBound i
        (deserializeElectionEvent (serializeElectionEvent event)).deviceAddress.sinPort.toNat) :
    c.Truthful i (serializeElectionEvent event) where
  registration id port hpair := by simp [scanPair_serializeElectionEvent] at hpair
  coordinator _ htype := by
    rw [type_deserialize_serializeElectionEvent event hlisted] at htype
    exact h htype
  added id port hadds := by
    have htype := hadds.1
    rw [type_deserializeReplicaEvent_election event hlisted] at htype
    cases hevent : event.type with
    | other value => exact absurd hevent (hlisted value)
    | _ => rw [hevent] at htype; cases htype

theorem truthful_replicaAdded {id port : ℤ} {address : SockAddrIn}
    (hc : ∀ i, (c.servers i).Identified i) (h : c.IsBound id port) :
    c.Truthful i (serializeReplicaEvent (createReplicaAddedEvent id port address)) where
  registration id' port' hpair := by simp [scanPair_serializeReplicaEvent] at hpair
  coordinator _ htype := by
    rw [type_deserializeElectionEvent_replica] at htype
    · cases htype
    · nofun
  added id' port' hadds := by
    obtain ⟨-, username, husername, hpair⟩ := hadds
    rw [deserialize_replicaAdded] at husername
    obtain rfl := Option.some.inj husername
    obtain ⟨hid, hport⟩ := h.isInt hc
    rw [scanPair_printPair hid hport] at hpair
    obtain ⟨rfl, rfl⟩ := by simpa using hpair
    exact h

theorem truthful_heartbeat : c.Truthful i (serializeReplicaEvent createHeartbeatEvent) where
  registration id port hpair := by simp [scanPair_serializeReplicaEvent] at hpair
  coordinator _ htype := by
    rw [type_deserializeElectionEvent_replica] at htype
    · cases htype
    · nofun
  added id port hadds := by
    have htype := hadds.1
    rw [type_deserialize_serializeReplicaEvent] at htype
    · cases htype
    · nofun

/-- The block of `main` has the bound port when a thread announces it. -/
theorem PortsKnown.ownBlock (hc : c.PortsKnown) {args : ℕ}
    (hargs : args ∈ ((c.servers i).threads tid).announces)
    (hown : hasOwnBlock (c.servers i) args = true) :
    ∃ block, (c.servers i).shared.backupArgs args = some block ∧ block.id = i ∧
      c.IsBound i block.listenerPort := by
  obtain ⟨block, hb, hl⟩ : ∃ block, (c.servers i).shared.backupArgs args = some block ∧
      block.hasListener = false := by
    simpa [hasOwnBlock, Option.any_eq_true] using hown
  obtain ⟨port, hport⟩ := Option.ne_none_iff_exists'.mp
    ((hc.listening i).announcing tid args hargs block hb hl)
  exact ⟨block, hb, (hc.identified i).blocks args block hb, port, hport,
    (hc.listening i).bound args block hb hl port hport⟩

theorem PortsKnown.truthful (hc : c.PortsKnown)
    (hok : c.announcesOwnPort (.run i tid input fresh) = true) {socketfd : ℕ} {payload : Bytes}
    (hs : ((c.servers i).threads tid).Sends (c.servers i).shared input socketfd payload) :
    c.Truthful i payload := by
  generalize hthread : (c.servers i).threads tid = thread at hs
  cases hs with
  | election id head socketfd => exact truthful_electionEvent nofun nofun
  | answer socketfd id writer => exact truthful_electionEvent nofun nofun
  | heartbeat args socketfd => exact truthful_heartbeat
  | added args node socketfd =>
      exact truthful_replicaAdded hc.identified
        (hc.held i tid node (by rw [hthread]; rfl))
  | relayed args node socketfd hnode =>
      exact truthful_replicaAdded hc.identified (hc.nodes i node hnode)
  | registration args id port socketfd peer closed listenerPort hport =>
      have hown : hasOwnBlock (c.servers i) args = true := by
        simpa [announcesOwnPort, hthread] using hok
      obtain ⟨block, hb, -, hbound⟩ := hc.ownBlock (by rw [hthread]; rfl) hown
      obtain rfl : block.listenerPort = listenerPort := by
        simpa [Shared.registeredPort, hb] using hport
      obtain rfl : id = i := (hc.identified i).threads tid id (by rw [hthread]; rfl)
      obtain ⟨hid, hport⟩ := hbound.isInt hc.identified
      have hpair := scanPair_printPair hid hport
      refine ⟨fun id' port' h => ?_, fun h => ?_, fun id' port' h => ?_⟩
      · rw [hpair] at h
        obtain ⟨rfl, rfl⟩ := by simpa using h
        exact ⟨rfl, hbound⟩
      · simp [hpair] at h
      · obtain ⟨-, username, husername, -⟩ := h
        simp [username_deserialize_printPair] at husername
  | coordinator args head block socketfd hblock =>
      have hown : hasOwnBlock (c.servers i) args = true := by
        simpa [announcesOwnPort, hthread] using hok
      obtain ⟨block', hb, hid, hbound⟩ := hc.ownBlock (by rw [hthread]; rfl) hown
      obtain rfl : block = block' := Option.some.inj (hblock.symm.trans hb)
      refine truthful_electionEvent nofun fun _ => ?_
      have hint : IsInt block.id := hid ▸ (hbound.isInt hc.identified).1
      obtain ⟨port, hport, heq⟩ := hbound
      rw [deserialize_serializeElectionEvent]
      · exact ⟨hid, port, hport, by simp only [createCoordinatorEvent, heq, htons_toNat]⟩
      · nofun
      · exact hint

/-! ### The steps -/

theorem bindsRealPort_of_announces (hok : c.announcesOwnPort (.run i tid input fresh) = true) :
    (c.servers i).bindsRealPort (.run tid input fresh) = true := by
  simp only [announcesOwnPort] at hok
  simp only [Server.bindsRealPort]
  cases hthread : (c.servers i).threads tid with
  | runAsBackup args place =>
      cases place with
      | bindListener => cases input <;> simp_all
      | _ => rfl
  | _ => rfl

theorem IsBound.act {id port : ℤ} (hl : ∀ i, (c.servers i).Listening)
    (h : c.act i tid input fresh = some c') (hb : c.IsBound id port) : c'.IsBound id port := by
  obtain ⟨bound, hb, rfl⟩ := hb
  obtain ⟨e, s, -, -, hs, rfl⟩ := act_eq_some h
  refine ⟨bound, ?_, rfl⟩
  by_cases hid : id = i
  · subst hid
    simpa using (hl id).listenerSocket hs hb
  · simpa [hid] using hb

/-- True announcements stay true. -/
theorem Truthful.mono {payload : Bytes} (hmono : ∀ id port, c.IsBound id port → c'.IsBound id port)
    (h : c.Truthful i payload) : c'.Truthful i payload where
  registration id port hpair := (h.registration id port hpair).imp_right (hmono i port)
  coordinator hpair htype := (h.coordinator hpair htype).imp_right (hmono i _)
  added id port hadds := hmono id port (h.added id port hadds)

theorem PortsKnown.act (hc : c.PortsKnown)
    (hok : c.announcesOwnPort (.run i tid input fresh) = true)
    (h : c.act i tid input fresh = some c') : c'.PortsKnown := by
  have hmono : ∀ id port, c.IsBound id port → c'.IsBound id port :=
    fun id port => IsBound.act hc.listening h
  obtain ⟨e, s, hg, he, hs, hc'⟩ := act_eq_some h
  have hserver : c'.servers i = s := by simp [hc']
  have hothers : ∀ j, j ≠ i → c'.servers j = c.servers j := fun j hj => by simp [hc', hj]
  refine ⟨fun j => ?_, fun j => ?_, fun j => ?_, ?_, ?_, ?_⟩
  · by_cases hj : j = i
    · subst hj
      exact hserver ▸ (hc.identified j).step hs
    · exact hothers j hj ▸ hc.identified j
  · by_cases hj : j = i
    · subst hj
      refine hserver ▸ (hc.listening j).step ?_ hs
      exact bindsRealPort_of_announces hok
    · exact hothers j hj ▸ hc.listening j
  · intro node hn
    by_cases hj : j = i
    · subst hj
      obtain ⟨e', he', -, rfl⟩ := Server.step_run hs
      obtain rfl : e = e' := Option.some.inj (he.symm.trans he')
      rw [hserver] at hn
      rcases Thread.step_replicaList he hn with hold | ⟨held, hheld, hid, hport⟩
      · exact hmono _ _ (hc.nodes j node hold)
      · rw [hid, hport]
        exact hmono _ _ (hc.held j tid held hheld)
    · rw [hothers j hj] at hn
      exact hmono _ _ (hc.nodes j node hn)
  · refine forall_threads (P := fun _ _ thread => ∀ node ∈ thread.node?,
      c'.IsBound node.id node.listenerPort) h ?_ ?_ ?_
    · intro e hg he node hn
      apply hmono
      cases Thread.node?_next he hn with
      | held hheld => exact hc.held i tid node hheld
      | event event hevent hadds => exact hc.events i tid event hevent _ _ hadds
      | registration args address payload hthread hinput hpair =>
          subst hinput
          obtain ⟨m, hm, rfl⟩ := mem_inbox_of_registration hg (by rw [hthread]; rfl)
          obtain ⟨j, htrue⟩ := hc.texts _ m hm
          have hsome : (scanPair m.2).isSome = true := by
            simpa [announcesOwnPort, hthread] using hok
          obtain ⟨pair, hscan⟩ := Option.isSome_iff_exists.mp hsome
          obtain rfl := hpair pair hscan
          obtain ⟨hid, hbound⟩ := htrue.registration _ _ hscan
          rw [hid]
          exact hbound
    · intro e thread he hcr _ node hn
      simp [(Thread.knows_created he hcr).1] at hn
    · exact fun j t _ node hn => hmono _ _ (hc.held j t node hn)
  · refine forall_threads (P := fun _ _ thread => ∀ event ∈ thread.event?, ∀ id port,
      event.Adds id port → c'.IsBound id port) h ?_ ?_ ?_
    · intro e hg he event hevent id port hadds
      obtain ⟨socketfd, writer, payload, hreads, rfl, rfl⟩ := Thread.event?_next he hevent
      obtain ⟨j, htrue⟩ := hc.texts _ _ (mem_inbox_of_packet hg hreads)
      exact hmono _ _ (htrue.added id port hadds)
    · intro e thread he hcr _ event hevent
      simp [(Thread.knows_created he hcr).2] at hevent
    · exact fun j t _ event hevent id port hadds =>
        hmono _ _ (hc.events j t event hevent id port hadds)
  · intro p m hm
    have hinbox : c'.inbox p = c.left i tid input p ++ c.arriving i tid e.sent p := by rw [hc']
    rw [hinbox] at hm
    rcases mem_inbox_act hm with hold | ⟨socketfd, hsent, -⟩
    · obtain ⟨j, htrue⟩ := hc.texts p m hold
      exact ⟨j, htrue.mono hmono⟩
    · exact ⟨i, (hc.truthful hok (Thread.step_sent he hsent)).mono hmono⟩

theorem PortsKnown.connect (hc : c.PortsKnown) (p q : End) : (c.connect p q).PortsKnown where
  identified := hc.identified
  listening := hc.listening
  nodes := hc.nodes
  held := hc.held
  events := hc.events
  texts r m hm := by
    obtain ⟨j, htrue⟩ := hc.texts r m hm
    exact ⟨j, Truthful.mono (by exact fun _ _ h => h) htrue⟩

theorem PortsKnown.crash (hc : c.PortsKnown) (i : ℤ) :
    PortsKnown { c with crashed := Function.update c.crashed i true } where
  identified := hc.identified
  listening := hc.listening
  nodes := hc.nodes
  held := hc.held
  events := hc.events
  texts r m hm := by
    obtain ⟨j, htrue⟩ := hc.texts r m hm
    exact ⟨j, Truthful.mono (by exact fun _ _ h => h) htrue⟩

theorem PortsKnown.tick {s : Server} (hc : c.PortsKnown) (hs : (c.servers i).step .tick = some s) :
    PortsKnown { c with servers := Function.update c.servers i s } := by
  have hmono : ∀ id port, c.IsBound id port →
      IsBound { c with servers := Function.update c.servers i s } id port := by
    rintro id port ⟨bound, hb, rfl⟩
    obtain ⟨time, heq⟩ := tick_servers hs id
    exact ⟨bound, by simpa only [heq] using hb, rfl⟩
  refine ⟨fun j => ?_, fun j => ?_, fun j node hn => ?_, fun j t node hn => ?_,
    fun j t event he id port ha => ?_, fun r m hm => ?_⟩
  · obtain ⟨time, heq⟩ := tick_servers hs j
    obtain ⟨threads, blocks, isInt, listens⟩ := hc.identified j
    simp only [heq]
    exact ⟨threads, blocks, isInt, listens⟩
  · obtain ⟨time, heq⟩ := tick_servers hs j
    obtain ⟨first, unbound, bound, announcing⟩ := hc.listening j
    simp only [heq]
    exact ⟨first, unbound, bound, announcing⟩
  · obtain ⟨time, heq⟩ := tick_servers hs j
    simp only [heq] at hn
    exact hmono _ _ (hc.nodes j node hn)
  · obtain ⟨time, heq⟩ := tick_servers hs j
    simp only [heq] at hn
    exact hmono _ _ (hc.held j t node hn)
  · obtain ⟨time, heq⟩ := tick_servers hs j
    simp only [heq] at he
    exact hmono _ _ (hc.events j t event he id port ha)
  · obtain ⟨j, htrue⟩ := hc.texts r m hm
    exact ⟨j, htrue.mono hmono⟩

theorem announcesOwnPort_of_connects (h : ((c.servers i).threads tid).connects = true) :
    c.announcesOwnPort (.run i tid input fresh) = true := by
  simp only [announcesOwnPort]
  cases hthread : (c.servers i).threads tid with
  | connectToServer args id port place =>
      rw [hthread] at h
      cases place with
      | register => cases h
      | _ => rfl
  | _ => simp [hthread, Thread.connects] at h

theorem PortsKnown.step {a : Action} (hc : c.PortsKnown) (hok : c.announcesOwnPort a = true)
    (h : c.step a = some c') : c'.PortsKnown := by
  cases a with
  | tick i =>
      simp only [Cluster.step] at h
      split at h
      · cases h
      · obtain ⟨s, hs, rfl⟩ := Option.map_eq_some_iff.mp h
        exact hc.tick hs
  | run i tid input fresh =>
      simp only [Cluster.step] at h
      split at h
      · cases h
      · exact hc.act hok h
  | dial i tid fresh socketfd address remote =>
      simp only [Cluster.step] at h
      split at h
      · rename_i hd
        have hconnects : (((c.connect (i, socketfd) remote).servers i).threads tid).connects =
            true := connects_of_canDial hd
        exact (hc.connect _ _).act (announcesOwnPort_of_connects hconnects) h
      · cases h
  | crash i =>
      obtain rfl := Option.some.inj h
      exact hc.crash i

theorem identified_absent (i : ℤ) : absent.Identified i where
  threads _ _ := nofun
  blocks _ _ := nofun
  isInt _ h := absurd rfl h
  listens h := absurd rfl h

theorem listening_absent : absent.Listening where
  first _ _ := nofun
  unbound _ := nofun
  bound _ _ := nofun
  announcing _ _ := nofun

theorem Starts.portsKnown (h : c.Starts) : c.PortsKnown where
  identified i := by
    rcases h.servers i with hs | hs
    · exact hs.identified
    · rw [hs]
      exact identified_absent i
  listening i := by
    rcases h.servers i with hs | hs
    · exact hs.listening
    · rw [hs]
      exact listening_absent
  nodes i := by
    rcases h.servers i with hs | hs
    · simp [hs.knows.1]
    · simp [hs, absent, Shared.initial]
  held i t := by
    rcases h.servers i with hs | hs
    · simp [(hs.knows.2 t).1]
    · simp [hs, absent, Thread.node?]
  events i t := by
    rcases h.servers i with hs | hs
    · simp [(hs.knows.2 t).2]
    · simp [hs, absent, Thread.event?]
  texts p m hm := by simp [h.inbox] at hm

/-! ## The announcements of a run -/

/-- The server that takes the step. -/
def Action.server : Action → ℤ
  | .tick i => i
  | .run i _ _ _ => i
  | .dial i _ _ _ _ _ => i
  | .crash i => i

/-- **Advertised ports are real.** In a run whose announcements come from the blocks that `main`
filled, everything that is written about listeners is true, and every node of a replica list has
the port of its server. -/
theorem ports_are_real {actions : List Action} (hstart : c.Starts)
    (hok : Along Cluster.step (fun c a => c.announcesOwnPort a = true) c actions) :
    Along Cluster.step (fun c a => ∀ m ∈ c.sent a, c.Truthful a.server m.2) c actions ∧
      Always Cluster.step NodesBound c actions := by
  have hknown := hstart.portsKnown
  constructor
  · refine Along.of_invariant (fun c a c' hc hok h => hc.step hok h) ?_ hknown hok
    intro c a hc hok m hm
    cases a with
    | run i tid input fresh =>
        cases he : (c.servers i).effect tid input fresh with
        | none => simp [sent, he] at hm
        | some e =>
            simp only [sent, he, Option.map_some, Option.getD_some] at hm
            exact hc.truthful hok (Thread.step_sent he hm)
    | _ => cases hm
  · exact (Along.always (fun c a c' hc hok h => hc.step hok h) hknown hok).mono fun _ hc => hc.nodes

/-- The registrations and the announcements of two backups that join a manager are true. -/
theorem ports_are_real_meshUp :
    (threeServers.run meshUp).isSome = true ∧
      Along Cluster.step (fun c a => ∀ m ∈ c.sent a, c.Truthful a.server m.2) threeServers meshUp ∧
      Always Cluster.step NodesBound threeServers meshUp :=
  ⟨by decide +kernel, ports_are_real starts_threeServers (by decide +kernel)⟩

/-- After the failover the new `run_as_backup` of server 1 connects to server 2. -/
def rejoins : List Action :=
  steps 1 5 2 ++ steps 1 3 1 ++ steps 1 6 2 ++ [.run 1 6 .none 7] ++ steps 1 7 1 ++
  [.dial 1 7 9 6 ⟨localhost, htons 5000⟩ (2, 6)]

/-- Server 1 registers and server 2 adds it. -/
def registers : List Action :=
  steps 1 7 1 ++ steps 2 1 1 ++ [.run 2 1 (.accepted 6 ⟨localhost, htons 42000⟩) 9] ++
  steps 2 1 1 ++ [.run 2 1 (.registration (printPair 1 (-1)) 1 (-1)) 9] ++ steps 2 1 1

/-- Server 1, whose listener is bound to the port 4004, registers with the new manager under
the port -1. -/
theorem registers_without_port :
    threeServers.Starts ∧
    ∃ c, threeServers.run (meshUp ++ elects ++ leads ++ rejoins) = some c ∧
      (c.servers 1).shared.listenerSocket = some 4004 ∧
      (∃ m ∈ c.sent (.run 1 7 .none 9), scanPair m.2 = some (1, -1) ∧ ¬ c.Truthful 1 m.2) ∧
      ∃ c', c.run registers = some c' ∧ (c'.servers 1).shared.listenerSocket = some 4004 ∧
        (c'.servers 2).shared.replicaList.head?.map (fun node => (node.id, node.listenerPort)) =
          some (1, -1) ∧ ¬ c'.NodesBound := by
  have hcheck : ∃ c ∈ threeServers.run (meshUp ++ elects ++ leads ++ rejoins),
      (c.servers 1).shared.listenerSocket = some 4004 ∧
      (∃ m ∈ c.sent (.run 1 7 .none 9), scanPair m.2 = some (1, -1)) ∧
      ∃ c' ∈ c.run registers, (c'.servers 1).shared.listenerSocket = some 4004 ∧
        (c'.servers 2).shared.replicaList.head?.map (fun node => (node.id, node.listenerPort)) =
          some (1, -1) := by
    decide +kernel
  have hfalse : ∀ c : Cluster, ¬ c.IsBound 1 (-1) := by
    rintro c ⟨bound, -, h⟩
    omega
  obtain ⟨c, hrun, hbound, ⟨m, hm, hpair⟩, c', hrun', hbound', hnode⟩ := hcheck
  refine ⟨starts_threeServers, c, hrun, hbound, ⟨m, hm, hpair, fun h => ?_⟩, c', hrun', hbound',
    hnode, fun h => ?_⟩
  · exact hfalse c (h.registration _ _ hpair).2
  · obtain ⟨node, hhead, hnode⟩ := Option.map_eq_some_iff.mp hnode
    obtain ⟨hid, hport⟩ := by simpa using hnode
    have hb := h 2 node (List.mem_of_head? hhead)
    rw [hid, hport] at hb
    exact hfalse c' hb

end Cluster

end SyncServer
