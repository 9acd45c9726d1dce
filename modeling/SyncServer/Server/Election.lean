import SyncServer.Server.Threads

/-! # Elections: `run_election`, the heartbeat monitor and the election listeners -/

namespace SyncServer

open CText

/-! ## `run_election` -/

/-- The packets that `send_election_msg` writes on its walk. -/
def sendElectionMsg (myId : ℤ) (nodes : List ReplicaNode) : List (ℕ × Bytes) :=
  sendToAll (nodes.filter (myId < ·.id)) (serializeElectionEvent (createElectionEvent myId))

def RunElection.step (id : ℤ) (sh : Shared) (input : Input) :
    RunElection → Option (Effect RunElection)
  | getHead => some (.goto sh (sendElection (listHead sh.replicaList)))
  | sendElection head =>
      match chainFrom sh.replicaList head, input with
      | some nodes, _ =>
          let sent := sendElectionMsg id nodes
          some { shared := sh, next := if sent = [] then aloneMode else sleeping, sent }
      -- the head was freed between its load and the lock
      | none, .freed found => some (.goto sh (if found then sleeping else aloneMode))
      | none, _ => none
  | aloneMode => some (.goto { sh with globalServerMode := .backupManager } aloneRunning)
  | aloneRunning => some (.goto { sh with isElectionRunning := false } aloneDecided)
  | aloneDecided => some (.goto { sh with newLeaderDecided := true } exited)
  | sleeping => some (.goto sh readAnswer)
  | readAnswer =>
      some (.goto { sh with electionAnswerReceived := false }
        (if sh.electionAnswerReceived then clearRunning else timeoutMode))
  | timeoutMode => some (.goto { sh with globalServerMode := .backupManager } timeoutDecided)
  | timeoutDecided => some (.goto { sh with newLeaderDecided := true } clearRunning)
  | clearRunning => some (.goto { sh with isElectionRunning := false } exited)
  | exited => none

/-! ## `heartbeat_monitor_thread_main` -/

def heartbeatTimeoutSeconds : ℕ := 5

/-- `difftime(time(NULL), last_heartbeat) > HEARTBEAT_TIMEOUT_SECONDS`. -/
def Shared.heartbeatExpired (sh : Shared) : Bool :=
  heartbeatTimeoutSeconds < sh.time - sh.lastHeartbeat

/-- `isExited` tells whether a thread can be joined, `fresh` is the thread that
`pthread_create` makes. -/
def HeartbeatMonitor.step (id : ℤ) (sh : Shared) (isExited : ℕ → Bool) (fresh : ℕ) :
    HeartbeatMonitor → Option (Effect HeartbeatMonitor)
  | checkMode =>
      if sh.modeChangeMutex then none
      else some (.goto sh (if sh.globalServerMode = .backup then checkHeartbeat else exited))
  -- `is_manager_running`: three tests, the first one that holds returns 0
  | checkHeartbeat => some (.goto sh (if sh.heartbeatExpired then lockMode else loadDecided))
  | loadDecided => some (.goto sh (if sh.newLeaderDecided then lockMode else loadRunning))
  | loadRunning => some (.goto sh (if sh.isElectionRunning then lockMode else sleeping))
  | lockMode =>
      if sh.modeChangeMutex then none
      else some (.goto { sh with modeChangeMutex := true } loadMode)
  | loadMode =>
      if sh.globalServerMode = .backup then some (.goto sh storeRunning)
      else some (.goto { sh with modeChangeMutex := false } sleeping)
  | storeRunning => some (.goto { sh with isElectionRunning := true } createElection)
  | createElection =>
      some { shared := sh, next := joinElection fresh, created := some (.runElection id .getHead) }
  | joinElection tid =>
      if isExited tid then some (.goto { sh with modeChangeMutex := false } sleeping) else none
  | sleeping => some (.goto sh checkMode)
  | exited => none

/-! ## `election_listener_thread` -/

/-- The hostname of the new `BackupArgs`: 15 bytes are copied into the buffer and its last
byte is cleared. -/
def copyHostname (prior leaderIp : Bytes) : Bytes :=
  cString ((strncpy prior leaderIp 15).set 255 0)

/-- The `BackupArgs` that the handler of `MSG_COORDINATOR` fills. -/
def coordinatorArgs (id : ℤ) (leader : SockAddrIn) (prior : Bytes) : BackupArgs where
  id := id
  hostname := copyHostname prior (inetNtop leader.sinAddr)
  port := leader.sinPort.toNat
  hasListener := true
  listenerPort := -1

/-- The `switch` on the type of the event in the packet. -/
def ElectionListener.dispatch (writer : ℕ) (payload : Bytes) : ElectionListener :=
  let event := deserializeElectionEvent payload
  match event.type with
  | .election => sendAnswer writer
  | .electionAnswer => storeAnswer writer
  | .coordinator => coordinatorAnswer event.id event.deviceAddress
  | .other _ => receive

def ElectionListener.step (electionSocket : ℕ) (id : ℤ) (sh : Shared) (input : Input)
    (fresh : ℕ) : ElectionListener → Option (Effect ElectionListener)
  | receive =>
      match input with
      | .noData => some (.goto sh receive)
      | .closed => some (.goto sh exited)
      | .packet writer payload => some (.goto sh (dispatch writer payload))
      | _ => none
  | sendAnswer _ =>
      some { shared := sh, next := loadRunning,
             sent := [(electionSocket, serializeElectionEvent (createElectionAnswerEvent id))] }
  | loadRunning => some (.goto sh (if sh.isElectionRunning then receive else storeRunning))
  | storeRunning => some (.goto { sh with isElectionRunning := true } createElection)
  | createElection =>
      some { shared := sh, next := receive, created := some (.runElection id .getHead) }
  | storeAnswer _ => some (.goto { sh with electionAnswerReceived := true } receive)
  | coordinatorAnswer leader address =>
      some (.goto { sh with electionAnswerReceived := true } (removeLeader leader address))
  | removeLeader leader address =>
      let list := removeReplicaById sh.replicaList leader
      some (.goto { sh with
          replicaList := list
          replicaCount := sh.replicaCount - (sh.replicaList.length - list.length) }
        (storeDecided leader address))
  | storeDecided leader address =>
      some (.goto { sh with newLeaderDecided := true } (createBackup leader address))
  | createBackup _ address =>
      match input with
      | .memory prior =>
          if prior.length = 256 then
            let args := coordinatorArgs id address prior
            some { shared := { sh with
                     backupArgs := Function.update sh.backupArgs fresh (some args) },
                   next := receive,
                   created := some (.runAsBackup fresh .storeMode) }
          else none
      | _ => none
  | exited => none

end SyncServer
