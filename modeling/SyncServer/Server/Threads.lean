import Mathlib.Logic.Function.Basic
import SyncServer.Server.ReplicaList
import SyncServer.Wire.ElectionEvent

/-! # The shared memory and the threads of a server

A thread stands at the statement it executes next. One step is one atomic load or store, one
section under a mutex, or one operation on a socket.
-/

namespace SyncServer

open CText

inductive ServerMode where
  | unknownMode
  | backup
  | backupManager
  deriving DecidableEq, Repr

/-- `BackupArgs`; the hostname is its C string. -/
structure BackupArgs where
  id : ℤ
  hostname : Bytes
  port : ℤ
  hasListener : Bool
  listenerPort : ℤ
  deriving DecidableEq, Repr

/-- `ManagerArgs`, without the descriptor of the listening socket. -/
structure ManagerArgs where
  id : ℤ
  port : ℤ
  hasListener : Bool
  deriving DecidableEq, Repr

/-- The globals that the threads share. `backupArgs` is the heap of `BackupArgs` blocks,
`listenerSocket` the port that the replica listener's socket is bound to, `serverAddr` what
`my_server_ip` resolves to, and `time` is `time(NULL)`. -/
structure Shared where
  globalServerMode : ServerMode
  isElectionRunning : Bool
  newLeaderDecided : Bool
  electionAnswerReceived : Bool
  lastHeartbeat : ℕ
  time : ℕ
  modeChangeMutex : Bool
  replicaList : List ReplicaNode
  replicaCount : ℤ
  backupArgs : ℕ → Option BackupArgs
  listenerSocket : Option UInt16
  serverAddr : InAddr

/-! ## Where the threads stand -/

/-- `run_election`. -/
inductive RunElection where
  | getHead
  | sendElection (head : Option ℕ)
  | aloneMode
  | aloneRunning
  | aloneDecided
  | sleeping
  | readAnswer
  | timeoutMode
  | timeoutDecided
  | clearRunning
  | exited
  deriving DecidableEq, Repr

/-- `heartbeat_monitor_thread_main`. -/
inductive HeartbeatMonitor where
  | checkMode
  | checkHeartbeat
  | loadDecided
  | loadRunning
  | lockMode
  | loadMode
  | storeRunning
  | createElection
  | joinElection (tid : ℕ)
  | sleeping
  | exited
  deriving DecidableEq, Repr

/-- `election_listener_thread`, with what it needs of the packet in hand; `writer` is the thread
that wrote it. -/
inductive ElectionListener where
  | receive
  | sendAnswer (writer : ℕ)
  | loadRunning
  | storeRunning
  | createElection
  | storeAnswer (writer : ℕ)
  | coordinatorAnswer (leader : ℤ) (address : SockAddrIn)
  | removeLeader (leader : ℤ) (address : SockAddrIn)
  | storeDecided (leader : ℤ) (address : SockAddrIn)
  | createBackup (leader : ℤ) (address : SockAddrIn)
  | exited
  deriving DecidableEq, Repr

/-- `run_as_backup`. -/
inductive RunAsBackup where
  | storeMode
  | storeHeartbeat
  | bindListener
  | createListener
  | createConnection
  | createMonitor
  | clearDecided
  | loadMode
  | loadDecided
  | checkManager
  | getHead
  | sendCoordinator (head : Option ℕ)
  | loadCount
  | destroyList (awaited : ℤ)
  | awaitReplicas (awaited : ℤ)
  | notifyClients
  | createManager
  | cleanUp
  | exited
  deriving DecidableEq, Repr

/-- `connect_to_server_thread`; `closed` is `has_connection_closed`, `peer` the address that
the socket was connected to. -/
inductive ConnectToServer where
  | checkExit (closed : Bool)
  | connect (closed : Bool)
  | register (socketfd : ℕ) (peer : SockAddrIn) (closed : Bool)
  | loadRunning (socketfd : ℕ) (peer : SockAddrIn) (closed : Bool)
  | checkMode (socketfd : ℕ) (peer : SockAddrIn) (closed : Bool)
  | receive (socketfd : ℕ) (peer : SockAddrIn) (closed : Bool)
  | apply (socketfd : ℕ) (peer : SockAddrIn) (closed : Bool) (event : ReplicaEvent)
  | dialReplica (socketfd : ℕ) (peer : SockAddrIn) (closed : Bool) (node : ReplicaNode)
  | countReplica (socketfd : ℕ) (peer : SockAddrIn) (closed : Bool)
  | exited
  deriving DecidableEq, Repr

/-- `manage_replicas`. -/
inductive ManageReplicas where
  | storeMode
  | storeHeartbeat
  | loadDecided
  | clearDecided
  | bindListener
  | createListener (port : ℤ)
  | checkMode
  | sendHeartbeat
  | exited
  deriving DecidableEq, Repr

/-- `replica_listener_thread`. -/
inductive ReplicaListener where
  | checkShutdown
  | accept
  | loadManager (socketfd : ℕ) (address : SockAddrIn)
  | loadBackup (socketfd : ℕ)
  | readRegistration (socketfd : ℕ) (address : SockAddrIn)
  | addReplica (node : ReplicaNode)
  | countReplica (node : ReplicaNode)
  | notifyAdded (node : ReplicaNode)
  | sendReplicas (socketfd : ℕ)
  | createElection (socketfd : ℕ)
  deriving DecidableEq, Repr

/-- A thread with the arguments it was created with. The argument of `run_as_backup` and
`connect_to_server_thread` is a pointer into the heap of `BackupArgs`; the latter copies the
id and the port out of the block when it starts. -/
inductive Thread where
  | unused
  | runElection (id : ℤ) (at_ : RunElection)
  | heartbeatMonitor (id : ℤ) (at_ : HeartbeatMonitor)
  | electionListener (electionSocket : ℕ) (id : ℤ) (at_ : ElectionListener)
  | runAsBackup (args : ℕ) (at_ : RunAsBackup)
  | connectToServer (args : ℕ) (id port : ℤ) (at_ : ConnectToServer)
  | manageReplicas (args : ManagerArgs) (at_ : ManageReplicas)
  | replicaListener (args : ManagerArgs) (at_ : ReplicaListener)
  deriving DecidableEq, Repr

/-- What a step finds outside the memory of the server. -/
inductive Input where
  /-- Nothing is asked. -/
  | none
  /-- `read_packet` returned a `PACKET_REPLICA_MSG` that the thread `writer` of the other end
  had sent. -/
  | packet (writer : ℕ) (payload : Bytes)
  /-- `has_data` timed out. -/
  | noData
  /-- `read_packet` returned `PACKET_CONNECTION_CLOSED`. -/
  | closed
  /-- `connect` gave a socket to an address. -/
  | connected (socketfd : ℕ) (peer : SockAddrIn)
  /-- `connect` failed. -/
  | refused
  /-- `accept` gave a socket from an address. -/
  | accepted (socketfd : ℕ) (address : SockAddrIn)
  /-- The text of a registration, with what two uninitialised variables hold. -/
  | registration (payload : Bytes) (id listenerPort : ℤ)
  /-- `bind` succeeded for a requested port; the kernel bound the other. -/
  | bound (port : ℤ) (actual : UInt16)
  /-- The bytes of a freshly allocated hostname buffer. -/
  | memory (prior : Bytes)
  /-- What a read of freed memory makes of a comparison. -/
  | freed (found : Bool)
  /-- What a read of a freed `BackupArgs` returns. -/
  | freedPort (port : ℤ)
  /-- The sockets for which `send` finds the connection closed. -/
  | closedSockets (sockets : List ℕ)
  deriving DecidableEq, Repr

/-- What one step of a thread does: it changes the shared memory, goes on, and may create a
thread and write packets of type `PACKET_REPLICA_MSG` to sockets. -/
structure Effect (φ : Type) where
  shared : Shared
  next : φ
  created : Option Thread := none
  sent : List (ℕ × Bytes) := []

/-- The thread goes on and nothing else happens. -/
def Effect.goto {φ : Type} (sh : Shared) (next : φ) : Effect φ := ⟨sh, next, none, []⟩

/-- The same effect with the place put into a thread. -/
def Effect.map {φ : Type} (thread : φ → Thread) (e : Effect φ) : Effect Thread :=
  ⟨e.shared, thread e.next, e.created, e.sent⟩

end SyncServer
