import SyncServer.Server.Election

/-! # Roles: `run_as_backup`, `manage_replicas` and their helper threads -/

namespace SyncServer

open CText

/-- What `bind_listener_socket` can end with: the port wanted or one of its random choices,
and the port the kernel binds, its own choice where the 16 bits of the port are zero. -/
def BindResult (wanted port : ℤ) (actual : UInt16) : Prop :=
  (port = wanted ∨ 2000 ≤ port ∧ port < 32000) ∧ actual ≠ 0 ∧ (htons port ≠ 0 → actual = htons port)

instance (wanted port : ℤ) (actual : UInt16) : Decidable (BindResult wanted port actual) :=
  inferInstanceAs (Decidable (_ ∧ _ ∧ _))

/-- The sections of `notify_replicas` on the shared memory: nodes with a closed connection
leave the list. -/
def Shared.dropClosed (sh : Shared) (closed : List ℕ) : Shared :=
  let list := keepOpen sh.replicaList closed
  { sh with
    replicaList := list
    replicaCount := sh.replicaCount - (sh.replicaList.length - list.length) }

/-! ## `connect_to_server_thread` -/

/-- `gethostbyname` gives a dotted quad back as its address and looks other names up. -/
def ResolvesTo (hostname : Bytes) (address : InAddr) : Prop :=
  ∀ a ∈ inetPton hostname, address = a

instance (hostname : Bytes) (address : InAddr) : Decidable (ResolvesTo hostname address) :=
  inferInstanceAs (Decidable (∀ a ∈ inetPton hostname, address = a))

/-- The address that `connect` may be called with; the hostname lies in the block, which may
be freed by now. -/
def Shared.DialsTo (sh : Shared) (args : ℕ) (port : ℤ) (peer : SockAddrIn) : Prop :=
  peer.sinPort = htons port ∧ ∀ block ∈ sh.backupArgs args, ResolvesTo block.hostname peer.sinAddr

instance (sh : Shared) (args : ℕ) (port : ℤ) (peer : SockAddrIn) :
    Decidable (sh.DialsTo args port peer) :=
  inferInstanceAs (Decidable (_ ∧ ∀ block ∈ sh.backupArgs args, _))

/-- The `listener_port` that the registration reads from the block. -/
def Shared.registeredPort (sh : Shared) (args : ℕ) (input : Input) : Option ℤ :=
  match sh.backupArgs args, input with
  | some block, _ => some block.listenerPort
  | none, .freedPort port => some port
  | none, _ => none

def ConnectToServer.step (args : ℕ) (id port : ℤ) (sh : Shared) (input : Input) :
    ConnectToServer → Option (Effect ConnectToServer)
  | checkExit closed =>
      if sh.modeChangeMutex then none
      else some (.goto sh
        (if sh.globalServerMode ≠ .backup ∨ closed then exited else connect closed))
  | connect closed =>
      match input with
      | .connected socketfd peer =>
          if sh.DialsTo args port peer then some (.goto sh (register socketfd peer closed))
          else none
      | .refused => some (.goto sh (checkExit closed))
      | _ => none
  | register socketfd peer closed =>
      (sh.registeredPort args input).map fun listenerPort =>
        { shared := sh, next := loadRunning socketfd peer closed,
          sent := [(socketfd, printPair id listenerPort)] }
  | loadRunning socketfd peer closed =>
      some (.goto sh (if sh.isElectionRunning then loadRunning socketfd peer closed
        else checkMode socketfd peer closed))
  | checkMode socketfd peer closed =>
      if sh.modeChangeMutex then none
      else some (.goto sh (if sh.globalServerMode ≠ .backup ∨ closed then checkExit closed
        else receive socketfd peer closed))
  | receive socketfd peer closed =>
      match input with
      | .noData => some (.goto sh (loadRunning socketfd peer closed))
      | .closed => some (.goto sh (loadRunning socketfd peer true))
      | .packet _ payload =>
          some (.goto sh (apply socketfd peer closed (deserializeReplicaEvent payload)))
      | _ => none
  | apply socketfd peer closed event =>
      match event.type with
      | .heartbeat =>
          some (.goto { sh with lastHeartbeat := sh.time } (loadRunning socketfd peer closed))
      | .replicaAdded =>
          -- a null username is a null pointer for `sscanf`
          event.username.map fun username =>
            match scanPair username with
            | none => .goto sh (loadRunning socketfd peer closed)
            | some (replicaId, listenerPort) =>
                if replicaId ≠ id then
                  .goto sh (dialReplica socketfd peer closed
                    ⟨replicaId, 0, listenerPort,
                      { event.deviceAddress with sinPort := htons listenerPort }⟩)
                else .goto sh (loadRunning socketfd peer closed)
      -- the events about users touch nothing that the other threads here read
      | _ => some (.goto sh (loadRunning socketfd peer closed))
  | dialReplica socketfd peer closed node =>
      match input with
      | .connected newSocket address =>
          if address = node.deviceAddress then
            match addReplica sh.replicaList { node with socketfd := newSocket } with
            | some list =>
                some (.goto { sh with replicaList := list } (countReplica socketfd peer closed))
            | none => some (.goto sh (loadRunning socketfd peer closed))
          else none
      | .refused => some (.goto sh (loadRunning socketfd peer closed))
      | _ => none
  | countReplica socketfd peer closed =>
      some (.goto { sh with replicaCount := sh.replicaCount + 1 }
        (loadRunning socketfd peer closed))
  | exited => none

/-! ## `run_as_backup` -/

def RunAsBackup.step (args : ℕ) (sh : Shared) (input : Input) (place : RunAsBackup) :
    Option (Effect RunAsBackup) :=
  (sh.backupArgs args).bind fun block =>
    match place with
    | storeMode => some (.goto { sh with globalServerMode := .backup } storeHeartbeat)
    | storeHeartbeat =>
        some (.goto { sh with lastHeartbeat := sh.time }
          (if block.hasListener then createConnection else bindListener))
    | bindListener =>
        match input with
        | .bound port actual =>
            if BindResult (block.port + 1) port actual then
              some (.goto { sh with
                  listenerSocket := some actual
                  backupArgs := Function.update sh.backupArgs args
                    (some { block with listenerPort := port }) } createListener)
            else none
        | _ => none
    | createListener =>
        some { shared := sh, next := createConnection,
               created := some (.replicaListener ⟨block.id, block.listenerPort, true⟩
                 .checkShutdown) }
    | createConnection =>
        some { shared := sh, next := if block.hasListener then clearDecided else createMonitor,
               created := some (.connectToServer args block.id block.port (.checkExit false)) }
    | createMonitor =>
        some { shared := sh, next := clearDecided,
               created := some (.heartbeatMonitor block.id .checkMode) }
    | clearDecided => some (.goto { sh with newLeaderDecided := false } loadMode)
    | loadMode =>
        if sh.modeChangeMutex then none
        else if sh.globalServerMode ≠ .backup then some (.goto sh checkManager)
        else some (.goto { sh with modeChangeMutex := true } loadDecided)
    | loadDecided =>
        some (.goto { sh with modeChangeMutex := false }
          (if sh.newLeaderDecided then checkManager else loadMode))
    | checkManager =>
        some (.goto sh (if sh.globalServerMode = .backupManager then getHead else cleanUp))
    | getHead => some (.goto sh (sendCoordinator (listHead sh.replicaList)))
    | sendCoordinator head =>
        let event := createCoordinatorEvent block.id ⟨sh.serverAddr, htons block.listenerPort⟩
        match chainFrom sh.replicaList head with
        | some nodes =>
            some { shared := sh, next := loadCount,
                   sent := sendToAll nodes (serializeElectionEvent event) }
        | none => some (.goto sh loadCount)
    | loadCount => some (.goto sh (destroyList sh.replicaCount))
    | destroyList awaited =>
        some (.goto { sh with replicaList := [], replicaCount := 0 } (awaitReplicas awaited))
    | awaitReplicas awaited =>
        some (.goto sh (if awaited ≠ sh.replicaCount then awaitReplicas awaited
          else notifyClients))
    | notifyClients => some (.goto sh createManager)
    | createManager =>
        some { shared := sh, next := cleanUp,
               created := some (.manageReplicas ⟨block.id, block.port, true⟩ .storeMode) }
    | cleanUp =>
        some (.goto { sh with backupArgs := Function.update sh.backupArgs args none } exited)
    | exited => none

/-! ## `manage_replicas` -/

/-- The statement after the flag was looked at. -/
def ManageReplicas.afterDecided (args : ManagerArgs) : ManageReplicas :=
  if args.hasListener then checkMode else bindListener

def ManageReplicas.step (args : ManagerArgs) (sh : Shared) (input : Input) :
    ManageReplicas → Option (Effect ManageReplicas)
  | storeMode => some (.goto { sh with globalServerMode := .backupManager } storeHeartbeat)
  | storeHeartbeat => some (.goto { sh with lastHeartbeat := sh.time } loadDecided)
  | loadDecided =>
      some (.goto sh (if sh.newLeaderDecided then clearDecided else afterDecided args))
  | clearDecided => some (.goto { sh with newLeaderDecided := false } (afterDecided args))
  | bindListener =>
      match input with
      | .bound port actual =>
          if BindResult args.port port actual then
            some (.goto { sh with listenerSocket := some actual } (createListener port))
          else none
      | _ => none
  | createListener port =>
      some { shared := sh, next := checkMode,
             created := some (.replicaListener ⟨args.id, port, true⟩ .checkShutdown) }
  | checkMode =>
      if sh.modeChangeMutex then none
      else some (.goto sh
        (if sh.globalServerMode ≠ .backupManager then exited else sendHeartbeat))
  | sendHeartbeat =>
      match input with
      | .closedSockets closed =>
          some { shared := sh.dropClosed closed, next := checkMode,
                 sent := sendToAll (keepOpen sh.replicaList closed)
                   (serializeReplicaEvent createHeartbeatEvent) }
      | _ => none
  | exited => none

/-! ## `replica_listener_thread` -/

def ReplicaListener.step (args : ManagerArgs) (sh : Shared) (input : Input) :
    ReplicaListener → Option (Effect ReplicaListener)
  | checkShutdown => if sh.modeChangeMutex then none else some (.goto sh accept)
  | accept =>
      match input with
      | .noData => some (.goto sh checkShutdown)
      | .accepted socketfd address => some (.goto sh (loadManager socketfd address))
      | _ => none
  | loadManager socketfd address =>
      some (.goto sh (if sh.globalServerMode = .backupManager
        then readRegistration socketfd address else loadBackup socketfd))
  | loadBackup socketfd =>
      some (.goto sh (if sh.globalServerMode = .backup then createElection socketfd
        else checkShutdown))
  | readRegistration socketfd address =>
      match input with
      | .closed => some (.goto sh checkShutdown)
      | .registration payload id listenerPort =>
          -- without two numbers the variables keep what they held
          if ∀ pair ∈ scanPair payload, pair = (id, listenerPort) then
            some (.goto sh (addReplica ⟨id, socketfd, listenerPort, address⟩))
          else none
      | _ => none
  | addReplica node =>
      match SyncServer.addReplica sh.replicaList node with
      | some list => some (.goto { sh with replicaList := list } (countReplica node))
      | none => some (.goto sh checkShutdown)
  | countReplica node =>
      some (.goto { sh with replicaCount := sh.replicaCount + 1 } (notifyAdded node))
  | notifyAdded node =>
      match input with
      | .closedSockets closed =>
          some { shared := sh.dropClosed closed, next := sendReplicas node.socketfd,
                 sent := sendToAll (keepOpen sh.replicaList closed) (serializeReplicaEvent
                   (createReplicaAddedEvent node.id node.listenerPort node.deviceAddress)) }
      | _ => none
  | sendReplicas socketfd =>
      some { shared := sh, next := checkShutdown,
             sent := sh.replicaList.map fun node => (socketfd, serializeReplicaEvent
               (createReplicaAddedEvent node.id node.listenerPort node.deviceAddress)) }
  | createElection socketfd =>
      some { shared := sh, next := checkShutdown,
             created := some (.electionListener socketfd args.id .receive) }

end SyncServer
