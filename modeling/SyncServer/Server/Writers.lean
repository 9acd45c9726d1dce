import SyncServer.Server.System

/-! # Who writes what

The mode and the flags are stored at a few places only, and threads are created at a few
places only. The tables list them; `Thread.step_stores` says that a step does exactly what
the tables say.
-/

namespace SyncServer

open CText

/-- The places that store `global_server_mode`. -/
def Thread.storesMode : Thread → Option ServerMode
  | runElection _ .aloneMode => some .backupManager
  | runElection _ .timeoutMode => some .backupManager
  | runAsBackup _ .storeMode => some .backup
  | manageReplicas _ .storeMode => some .backupManager
  | _ => none

/-- The places that store `new_leader_decided`. -/
def Thread.storesDecided : Thread → Option Bool
  | runElection _ .aloneDecided => some true
  | runElection _ .timeoutDecided => some true
  | electionListener _ _ (.storeDecided _ _) => some true
  | runAsBackup _ .clearDecided => some false
  | manageReplicas _ .clearDecided => some false
  | _ => none

/-- The places that store `election_answer_received`. -/
def Thread.storesAnswer : Thread → Option Bool
  | runElection _ .readAnswer => some false
  | electionListener _ _ (.storeAnswer _) => some true
  | electionListener _ _ (.coordinatorAnswer _ _) => some true
  | _ => none

/-- The places that create a thread. -/
def Thread.creates (sh : Shared) (fresh : ℕ) : Thread → Option Thread
  | heartbeatMonitor id .createElection => some (runElection id .getHead)
  | electionListener _ id .createElection => some (runElection id .getHead)
  | electionListener _ _ (.createBackup _ _) => some (runAsBackup fresh .storeMode)
  | runAsBackup args .createListener =>
      (sh.backupArgs args).map fun block =>
        replicaListener ⟨block.id, block.listenerPort, true⟩ .checkShutdown
  | runAsBackup args .createConnection =>
      (sh.backupArgs args).map fun block =>
        connectToServer args block.id block.port (.checkExit false)
  | runAsBackup args .createMonitor =>
      (sh.backupArgs args).map fun block => heartbeatMonitor block.id .checkMode
  | runAsBackup args .createManager =>
      (sh.backupArgs args).map fun block => manageReplicas ⟨block.id, block.port, true⟩ .storeMode
  | manageReplicas args (.createListener port) =>
      some (replicaListener ⟨args.id, port, true⟩ .checkShutdown)
  | replicaListener args (.createElection socket) =>
      some (electionListener socket args.id .receive)
  | _ => none

section Tables

variable {sh : Shared} {isExited : ℕ → Bool} {input : Input} {fresh : ℕ} {thread : Thread}
  {e : Effect Thread}

theorem Thread.step_stores (h : thread.step sh isExited input fresh = some e) :
    e.shared.globalServerMode = thread.storesMode.getD sh.globalServerMode ∧
    e.shared.newLeaderDecided = thread.storesDecided.getD sh.newLeaderDecided ∧
    e.shared.electionAnswerReceived = thread.storesAnswer.getD sh.electionAnswerReceived ∧
    e.created = thread.creates sh fresh := by
  cases thread with
  | unused => cases h
  | runElection id place =>
      obtain ⟨e₀, h₀, rfl⟩ := step_runElection.mp h
      cases place <;> simp only [RunElection.step, Effect.goto] at h₀ <;>
        grind [storesMode, storesDecided, storesAnswer, creates, Effect.map]
  | heartbeatMonitor id place =>
      obtain ⟨e₀, h₀, rfl⟩ := step_heartbeatMonitor.mp h
      cases place <;> simp only [HeartbeatMonitor.step, Effect.goto] at h₀ <;>
        grind [storesMode, storesDecided, storesAnswer, creates, Effect.map]
  | electionListener socket id place =>
      obtain ⟨e₀, h₀, rfl⟩ := step_electionListener.mp h
      cases place <;> simp only [ElectionListener.step, Effect.goto] at h₀ <;>
        grind [storesMode, storesDecided, storesAnswer, creates, Effect.map]
  | runAsBackup args place =>
      obtain ⟨e₀, h₀, rfl⟩ := step_runAsBackup.mp h
      obtain ⟨block, hb, h₁⟩ := Option.bind_eq_some_iff.mp h₀
      cases place <;> simp only [Effect.goto] at h₁ <;>
        grind [storesMode, storesDecided, storesAnswer, creates, Effect.map]
  | connectToServer args id port place =>
      obtain ⟨e₀, h₀, rfl⟩ := step_connectToServer.mp h
      cases place <;> simp only [ConnectToServer.step, Effect.goto] at h₀ <;>
        grind [storesMode, storesDecided, storesAnswer, creates, Effect.map,
          Option.map_eq_some_iff]
  | manageReplicas args place =>
      obtain ⟨e₀, h₀, rfl⟩ := step_manageReplicas.mp h
      cases place <;> simp only [ManageReplicas.step, Effect.goto, Shared.dropClosed] at h₀ <;>
        grind [storesMode, storesDecided, storesAnswer, creates, Effect.map]
  | replicaListener args place =>
      obtain ⟨e₀, h₀, rfl⟩ := step_replicaListener.mp h
      cases place <;> simp only [ReplicaListener.step, Effect.goto, Shared.dropClosed] at h₀ <;>
        grind [storesMode, storesDecided, storesAnswer, creates, Effect.map]

theorem Thread.step_mode (h : thread.step sh isExited input fresh = some e) :
    e.shared.globalServerMode = thread.storesMode.getD sh.globalServerMode :=
  (step_stores h).1

theorem Thread.step_decided (h : thread.step sh isExited input fresh = some e) :
    e.shared.newLeaderDecided = thread.storesDecided.getD sh.newLeaderDecided :=
  (step_stores h).2.1

theorem Thread.step_answer (h : thread.step sh isExited input fresh = some e) :
    e.shared.electionAnswerReceived = thread.storesAnswer.getD sh.electionAnswerReceived :=
  (step_stores h).2.2.1

theorem Thread.step_created (h : thread.step sh isExited input fresh = some e) :
    e.created = thread.creates sh fresh :=
  (step_stores h).2.2.2

/-- The table of the created threads as a relation. -/
inductive Thread.Creates (sh : Shared) (fresh : ℕ) : Thread → Thread → Prop
  | monitorElection (id) :
      Creates sh fresh (heartbeatMonitor id .createElection) (runElection id .getHead)
  | listenerElection (socket id) :
      Creates sh fresh (electionListener socket id .createElection) (runElection id .getHead)
  | backup (socket id leader address) :
      Creates sh fresh (electionListener socket id (.createBackup leader address))
        (runAsBackup fresh .storeMode)
  | backupListener {args block} (hb : sh.backupArgs args = some block) :
      Creates sh fresh (runAsBackup args .createListener)
        (replicaListener ⟨block.id, block.listenerPort, true⟩ .checkShutdown)
  | connection {args block} (hb : sh.backupArgs args = some block) :
      Creates sh fresh (runAsBackup args .createConnection)
        (connectToServer args block.id block.port (.checkExit false))
  | monitor {args block} (hb : sh.backupArgs args = some block) :
      Creates sh fresh (runAsBackup args .createMonitor) (heartbeatMonitor block.id .checkMode)
  | manager {args block} (hb : sh.backupArgs args = some block) :
      Creates sh fresh (runAsBackup args .createManager)
        (manageReplicas ⟨block.id, block.port, true⟩ .storeMode)
  | managerListener (args port) :
      Creates sh fresh (manageReplicas args (.createListener port))
        (replicaListener ⟨args.id, port, true⟩ .checkShutdown)
  | electionListener (args socket) :
      Creates sh fresh (replicaListener args (.createElection socket))
        (electionListener socket args.id .receive)

/-- What a step can create. -/
theorem Thread.created_cases {created : Thread}
    (h : thread.step sh isExited input fresh = some e) (hc : e.created = some created) :
    thread.Creates sh fresh created := by
  rw [step_created h] at hc
  unfold creates at hc
  split at hc
  all_goals first
    | cases hc; constructor
    | obtain ⟨block, hb, rfl⟩ := Option.map_eq_some_iff.mp hc; constructor; exact hb
    | cases hc

/-! ## The tables

The heap of `BackupArgs`, the listener and the replica list.
-/

/-- The places that fill or free a block, bind the listener or add a replica. -/
inductive Thread.ChangesTables : Thread → Prop
  | createBackup (socket id leader address) :
      ChangesTables (electionListener socket id (.createBackup leader address))
  | bindBackup (args) : ChangesTables (runAsBackup args .bindListener)
  | cleanUp (args) : ChangesTables (runAsBackup args .cleanUp)
  | dialReplica (args id port socketfd peer closed held) :
      ChangesTables (connectToServer args id port (.dialReplica socketfd peer closed held))
  | bindManager (args) : ChangesTables (manageReplicas args .bindListener)
  | addReplica (args held) : ChangesTables (replicaListener args (.addReplica held))

/-- Every other place leaves the heap and the listener alone, and at most removes replicas. -/
theorem Thread.step_frame (h : thread.step sh isExited input fresh = some e) :
    thread.ChangesTables ∨
      e.shared.backupArgs = sh.backupArgs ∧ e.shared.listenerSocket = sh.listenerSocket ∧
        ∀ node ∈ e.shared.replicaList, node ∈ sh.replicaList := by
  cases thread with
  | unused => cases h
  | runElection id place =>
      obtain ⟨e₀, h₀, rfl⟩ := step_runElection.mp h
      right
      cases place <;> simp only [RunElection.step, Effect.goto] at h₀ <;> grind [Effect.map]
  | heartbeatMonitor id place =>
      obtain ⟨e₀, h₀, rfl⟩ := step_heartbeatMonitor.mp h
      right
      cases place <;> simp only [HeartbeatMonitor.step, Effect.goto] at h₀ <;> grind [Effect.map]
  | electionListener socket id place =>
      obtain ⟨e₀, h₀, rfl⟩ := step_electionListener.mp h
      cases place
      case createBackup leader address => exact .inl (.createBackup ..)
      case removeLeader leader address =>
        obtain rfl := Option.some.inj h₀
        exact .inr ⟨rfl, rfl, fun node hn => mem_of_mem_removeReplicaById hn⟩
      all_goals
        right
        simp only [ElectionListener.step, Effect.goto] at h₀
        grind [Effect.map]
  | runAsBackup args place =>
      obtain ⟨e₀, h₀, rfl⟩ := step_runAsBackup.mp h
      obtain ⟨block, hb, h₁⟩ := Option.bind_eq_some_iff.mp h₀
      cases place
      case bindListener => exact .inl (.bindBackup _)
      case cleanUp => exact .inl (.cleanUp _)
      all_goals
        right
        simp only [Effect.goto] at h₁
        grind [Effect.map]
  | connectToServer args id port place =>
      obtain ⟨e₀, h₀, rfl⟩ := step_connectToServer.mp h
      cases place
      case dialReplica socketfd peer closed held => exact .inl (.dialReplica ..)
      all_goals
        right
        simp only [ConnectToServer.step, Effect.goto] at h₀
        grind [Effect.map, Option.map_eq_some_iff]
  | manageReplicas args place =>
      obtain ⟨e₀, h₀, rfl⟩ := step_manageReplicas.mp h
      cases place
      case bindListener => exact .inl (.bindManager _)
      all_goals
        right
        simp only [ManageReplicas.step, Effect.goto, Shared.dropClosed, keepOpen] at h₀
        grind [Effect.map]
  | replicaListener args place =>
      obtain ⟨e₀, h₀, rfl⟩ := step_replicaListener.mp h
      cases place
      case addReplica held => exact .inl (.addReplica ..)
      all_goals
        right
        simp only [ReplicaListener.step, Effect.goto, Shared.dropClosed, keepOpen] at h₀
        grind [Effect.map]

/-! ## The heap of `BackupArgs`

A block is filled by the handler of `MSG_COORDINATOR`, gets its `listener_port` when its owner
binds the listener, and is freed when its owner ends.
-/

/-- What a step of a thread may do to the block at `p`. -/
inductive BlockChange (sh : Shared) (fresh : ℕ) (thread : Thread) (p : ℕ) :
    Option BackupArgs → Prop where
  | same : BlockChange sh fresh thread p (sh.backupArgs p)
  | filled (socket : ℕ) (id leader : ℤ) (address : SockAddrIn) (prior : Bytes)
      (hthread : thread = .electionListener socket id (.createBackup leader address))
      (hp : p = fresh) : BlockChange sh fresh thread p (some (coordinatorArgs id address prior))
  | bound (block : BackupArgs) (port : ℤ) (actual : UInt16)
      (hthread : thread = .runAsBackup p .bindListener)
      (hblock : sh.backupArgs p = some block)
      (hport : BindResult (block.port + 1) port actual) :
      BlockChange sh fresh thread p (some { block with listenerPort := port })
  | freed (hthread : thread = .runAsBackup p .cleanUp) : BlockChange sh fresh thread p none

theorem Thread.step_backupArgs (h : thread.step sh isExited input fresh = some e) (p : ℕ) :
    BlockChange sh fresh thread p (e.shared.backupArgs p) := by
  have same : e.shared.backupArgs = sh.backupArgs →
      BlockChange sh fresh thread p (e.shared.backupArgs p) := by
    intro heq
    rw [heq]
    exact .same
  rcases step_frame h with hchange | ⟨hsame, -⟩
  · cases hchange with
    | createBackup socket id leader address =>
        obtain ⟨e₀, h₀, rfl⟩ := step_electionListener.mp h
        simp only [ElectionListener.step] at h₀
        split at h₀
        · split at h₀
          · obtain rfl := Option.some.inj h₀
            by_cases hp : p = fresh
            · subst hp
              simp only [Effect.map, Function.update_self]
              exact .filled socket id leader address _ rfl rfl
            · simp only [Effect.map, Function.update_of_ne hp]
              exact .same
          · cases h₀
        · cases h₀
    | bindBackup args =>
        obtain ⟨e₀, h₀, rfl⟩ := step_runAsBackup.mp h
        obtain ⟨block, hb, h₁⟩ := Option.bind_eq_some_iff.mp h₀
        simp only [Effect.goto] at h₁
        split at h₁
        · split at h₁
          · rename_i port actual hport
            obtain rfl := Option.some.inj h₁
            by_cases hp : p = args
            · subst hp
              simp only [Effect.map, Function.update_self]
              exact .bound block port actual rfl hb hport
            · simp only [Effect.map, Function.update_of_ne hp]
              exact .same
          · cases h₁
        · cases h₁
    | cleanUp args =>
        obtain ⟨e₀, h₀, rfl⟩ := step_runAsBackup.mp h
        obtain ⟨block, hb, h₁⟩ := Option.bind_eq_some_iff.mp h₀
        obtain rfl := Option.some.inj h₁
        by_cases hp : p = args
        · subst hp
          simp only [Effect.map, Effect.goto, Function.update_self]
          exact .freed rfl
        · simp only [Effect.map, Effect.goto, Function.update_of_ne hp]
          exact .same
    | dialReplica args id port socketfd peer closed held =>
        obtain ⟨e₀, h₀, rfl⟩ := step_connectToServer.mp h
        apply same
        simp only [ConnectToServer.step, Effect.goto] at h₀
        grind [Effect.map]
    | bindManager args =>
        obtain ⟨e₀, h₀, rfl⟩ := step_manageReplicas.mp h
        apply same
        simp only [ManageReplicas.step, Effect.goto] at h₀
        grind [Effect.map]
    | addReplica args held =>
        obtain ⟨e₀, h₀, rfl⟩ := step_replicaListener.mp h
        apply same
        simp only [ReplicaListener.step, Effect.goto] at h₀
        grind [Effect.map]
  · exact same hsame

/-! ## The packets -/

/-- Which texts a step of a thread writes to which sockets. The threads that serve clients, which
write through `notify_replicas` as well, are not among these. -/
inductive Thread.Sends (sh : Shared) (input : Input) : Thread → ℕ → Bytes → Prop where
  | election (id : ℤ) (head : Option ℕ) (socketfd : ℕ) :
      Sends sh input (runElection id (.sendElection head)) socketfd
        (serializeElectionEvent (createElectionEvent id))
  | answer (socketfd : ℕ) (id : ℤ) (writer : ℕ) :
      Sends sh input (electionListener socketfd id (.sendAnswer writer)) socketfd
        (serializeElectionEvent (createElectionAnswerEvent id))
  | registration (args : ℕ) (id port : ℤ) (socketfd : ℕ) (peer : SockAddrIn) (closed : Bool)
      (listenerPort : ℤ) (hport : sh.registeredPort args input = some listenerPort) :
      Sends sh input (connectToServer args id port (.register socketfd peer closed)) socketfd
        (printPair id listenerPort)
  | coordinator (args : ℕ) (head : Option ℕ) (block : BackupArgs) (socketfd : ℕ)
      (hblock : sh.backupArgs args = some block) :
      Sends sh input (runAsBackup args (.sendCoordinator head)) socketfd
        (serializeElectionEvent
          (createCoordinatorEvent block.id ⟨sh.serverAddr, htons block.listenerPort⟩))
  | heartbeat (args : ManagerArgs) (socketfd : ℕ) :
      Sends sh input (manageReplicas args .sendHeartbeat) socketfd
        (serializeReplicaEvent createHeartbeatEvent)
  | added (args : ManagerArgs) (node : ReplicaNode) (socketfd : ℕ) :
      Sends sh input (replicaListener args (.notifyAdded node)) socketfd
        (serializeReplicaEvent
          (createReplicaAddedEvent node.id node.listenerPort node.deviceAddress))
  | relayed (args : ManagerArgs) (node : ReplicaNode) (socketfd : ℕ)
      (hnode : node ∈ sh.replicaList) :
      Sends sh input (replicaListener args (.sendReplicas socketfd)) socketfd
        (serializeReplicaEvent
          (createReplicaAddedEvent node.id node.listenerPort node.deviceAddress))

theorem mem_sendToAll {nodes : List ReplicaNode} {payload : Bytes} {m : ℕ × Bytes}
    (h : m ∈ sendToAll nodes payload) : m.2 = payload := by
  obtain ⟨node, -, rfl⟩ := List.mem_map.mp h
  rfl

theorem Thread.step_sent (h : thread.step sh isExited input fresh = some e) {socketfd : ℕ}
    {payload : Bytes} (hm : (socketfd, payload) ∈ e.sent) :
    thread.Sends sh input socketfd payload := by
  cases thread with
  | unused => cases h
  | runElection id place =>
      obtain ⟨e₀, h₀, rfl⟩ := step_runElection.mp h
      cases place
      case sendElection head =>
        simp only [RunElection.step] at h₀
        split at h₀
        · obtain rfl := Option.some.inj h₀
          obtain rfl : payload = _ := mem_sendToAll hm
          exact .election id head socketfd
        · obtain rfl := Option.some.inj h₀
          cases hm
        · cases h₀
      all_goals
        have hnil : e₀.sent = [] := by
          simp only [RunElection.step, Effect.goto] at h₀
          grind
        simp [Effect.map, hnil] at hm
  | heartbeatMonitor id place =>
      obtain ⟨e₀, h₀, rfl⟩ := step_heartbeatMonitor.mp h
      have hnil : e₀.sent = [] := by
        cases place <;> simp only [HeartbeatMonitor.step, Effect.goto] at h₀ <;> grind
      simp [Effect.map, hnil] at hm
  | electionListener socket id place =>
      obtain ⟨e₀, h₀, rfl⟩ := step_electionListener.mp h
      cases place
      case sendAnswer writer =>
        obtain rfl := Option.some.inj h₀
        obtain ⟨rfl, rfl⟩ := by simpa [Effect.map] using hm
        exact .answer socketfd id writer
      all_goals
        have hnil : e₀.sent = [] := by
          simp only [ElectionListener.step, Effect.goto] at h₀
          grind
        simp [Effect.map, hnil] at hm
  | runAsBackup args place =>
      obtain ⟨e₀, h₀, rfl⟩ := step_runAsBackup.mp h
      obtain ⟨block, hb, h₁⟩ := Option.bind_eq_some_iff.mp h₀
      cases place
      case sendCoordinator head =>
        simp only at h₁
        split at h₁
        · obtain rfl := Option.some.inj h₁
          obtain rfl : payload = _ := mem_sendToAll hm
          exact .coordinator args head block socketfd hb
        · obtain rfl := Option.some.inj h₁
          cases hm
      all_goals
        have hnil : e₀.sent = [] := by
          simp only [Effect.goto] at h₁
          grind
        simp [Effect.map, hnil] at hm
  | connectToServer args id port place =>
      obtain ⟨e₀, h₀, rfl⟩ := step_connectToServer.mp h
      cases place
      case register socketfd' peer closed =>
        obtain ⟨listenerPort, hport, rfl⟩ := Option.map_eq_some_iff.mp h₀
        obtain ⟨rfl, rfl⟩ := by simpa [Effect.map] using hm
        exact .registration args id port socketfd peer closed listenerPort hport
      all_goals
        have hnil : e₀.sent = [] := by
          simp only [ConnectToServer.step, Effect.goto] at h₀
          grind [Option.map_eq_some_iff]
        simp [Effect.map, hnil] at hm
  | manageReplicas args place =>
      obtain ⟨e₀, h₀, rfl⟩ := step_manageReplicas.mp h
      cases place
      case sendHeartbeat =>
        simp only [ManageReplicas.step] at h₀
        split at h₀
        · obtain rfl := Option.some.inj h₀
          obtain rfl : payload = _ := mem_sendToAll hm
          exact .heartbeat args socketfd
        · cases h₀
      all_goals
        have hnil : e₀.sent = [] := by
          simp only [ManageReplicas.step, Effect.goto] at h₀
          grind
        simp [Effect.map, hnil] at hm
  | replicaListener args place =>
      obtain ⟨e₀, h₀, rfl⟩ := step_replicaListener.mp h
      cases place
      case notifyAdded node =>
        simp only [ReplicaListener.step] at h₀
        split at h₀
        · obtain rfl := Option.some.inj h₀
          obtain rfl : payload = _ := mem_sendToAll hm
          exact .added args node socketfd
        · cases h₀
      case sendReplicas socketfd' =>
        obtain rfl := Option.some.inj h₀
        obtain ⟨node, hn, heq⟩ := List.mem_map.mp hm
        obtain ⟨rfl, rfl⟩ := by simpa using heq
        exact .relayed args node socketfd' hn
      all_goals
        have hnil : e₀.sent = [] := by
          simp only [ReplicaListener.step, Effect.goto] at h₀
          grind
        simp [Effect.map, hnil] at hm

/-! ## The creation of `run_as_backup` -/

/-- A `run_as_backup` is created by the handler of `MSG_COORDINATOR` only. -/
theorem Thread.created_runAsBackup {args : ℕ} {place : RunAsBackup}
    (h : thread.step sh isExited input fresh = some e)
    (hc : e.created = some (.runAsBackup args place)) :
    ∃ socket id leader address prior,
      thread = .electionListener socket id (.createBackup leader address) ∧
      input = .memory prior ∧ args = fresh ∧ place = .storeMode ∧
      e.next = .electionListener socket id .receive ∧
      e.shared.backupArgs = Function.update sh.backupArgs fresh
        (some (coordinatorArgs id address prior)) := by
  cases created_cases h hc with
  | backup socket id leader address =>
      obtain ⟨e₀, h₀, rfl⟩ := step_electionListener.mp h
      simp only [ElectionListener.step] at h₀
      split at h₀
      · split at h₀
        · obtain rfl := Option.some.inj h₀
          exact ⟨socket, id, leader, address, _, rfl, rfl, rfl, rfl, rfl, rfl⟩
        · cases h₀
      · cases h₀

/-- No thread comes back to the start of `run_as_backup`. -/
theorem Thread.next_ne_storeMode {args : ℕ} (h : thread.step sh isExited input fresh = some e) :
    e.next ≠ .runAsBackup args .storeMode := by
  intro hn
  obtain ⟨place, e₀, rfl, h₀, rfl, hn₀⟩ := next_runAsBackup h hn
  obtain ⟨block, hb, h₁⟩ := Option.bind_eq_some_iff.mp h₀
  cases place <;> simp only [Effect.goto] at h₁ <;> grind

end Tables

/-! ## Facts about every thread -/

/-- A fact about the shared memory and each single thread survives a step if the acting thread
and a created one meet it afterwards and the change of memory does not break it for the
others. -/
theorem Server.forall_threads {P : Shared → Thread → Prop} {s s' : Server} {tid fresh : ℕ}
    {input : Input} (hs : s.step (.run tid input fresh) = some s')
    (hself : ∀ e, s.effect tid input fresh = some e → P e.shared e.next)
    (hnew : ∀ e thread, s.effect tid input fresh = some e → e.created = some thread →
      P e.shared thread)
    (hother : ∀ e t, s.effect tid input fresh = some e → t ≠ tid → P e.shared (s.threads t)) :
    ∀ t, P s'.shared (s'.threads t) := by
  intro t
  obtain ⟨e, he, hf, rfl⟩ := Server.step_run hs
  change P e.shared (s.place tid fresh e t)
  rcases Server.place_cases he hf t with ⟨rfl, ht⟩ | ⟨-, rfl, -, hc⟩ | ⟨hne, ht⟩
  · rw [ht]
    exact hself e he
  · exact hnew e _ he hc
  · rw [ht]
    exact hother e t he hne

end SyncServer
