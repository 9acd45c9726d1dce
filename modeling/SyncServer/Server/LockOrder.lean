import SyncServer.Library.LockPrograms
import SyncServer.Sessions.Context

/-! # In which order does the server take its locks?

Every thread of the server, with what it locks, whom it starts and whom it joins. What the
statements compute is left out: a branch may go either way, a loop may stop after any round, and
a name may hash to any bucket. Sockets answer, so a call that reads or writes one is left out
too, and so is what ends the whole process.
-/

namespace SyncServer.LockOrder

open LockPrograms

inductive Mutex where
  | bucket (index : ℕ)
  | context (context : ℕ)
  | buffer (session : ℕ)
  | replicaList
  | answer
  | heartbeat
  | modeChange
  deriving DecidableEq

/-- The functions that `pthread_create` is given, and `main`. -/
inductive ThreadKind where
  | main
  | interface (session context : ℕ)
  | sendF (session : ℕ)
  | receive (session : ℕ)
  | manageReplicas
  | replicaListener
  | electionListener
  | heartbeatMonitor
  | runElection
  | runAsBackup
  | connectToServer
  deriving DecidableEq

abbrev Code := Program Mutex ThreadKind

/-- `pthread_create` of a thread that nobody joins. -/
def detached (kind : ThreadKind) : Code := .create kind fun _ => .skip

/-- A section that takes no other lock. -/
def alone (m : Mutex) : Code := block [.lock m, .unlock m]

/-! ## The hash table -/

def hashTableInsert (index : ℕ) : Code := alone (.bucket index)

def hashTableSearch (index : ℕ) : Code := alone (.bucket index)

def hashTablePrint : Code := block ((List.range tableSize).map fun i => alone (.bucket i))

def getOrCreateContext (index : ℕ) : Code :=
  block [hashTableSearch index, .either .skip (hashTableInsert index)]

def addFileToContext (index : ℕ) : Code := hashTableSearch index

def removeFileFromContext (index : ℕ) : Code := hashTableSearch index

/-- The loop over the buckets and their users, with what both bulk walks do to the locks. -/
def walkUsers : Code :=
  block ((List.range tableSize).map fun i => block [
    .lock (.bucket i),
    .either (.unlock (.bucket i)) (block [
      .loop (.either .skip (.choose fun context => alone (.context context))),
      .unlock (.bucket i)])])

def disconnectAllUsers : Code := .either .skip walkUsers

def sendPacketAllUsers : Code := .either .skip walkUsers

/-! ## The buffer of a session -/

def addFileToSyncBuffer (session : ℕ) : Code :=
  block [.lock (.buffer session), .loop (.wait (.buffer session)), .unlock (.buffer session)]

/-- Both ways out of `get_next_file_to_sync` unlock. -/
def getNextFileToSync (session : ℕ) : Code :=
  block [.lock (.buffer session), .loop (.wait (.buffer session)), .unlock (.buffer session)]

def signalShutdown (session : ℕ) : Code := alone (.buffer session)

def sendFileToSession (session : ℕ) : Code := .either .skip (addFileToSyncBuffer session)

/-! ## The replica list and the elections -/

def addReplica : Code := alone .replicaList

def removeReplicaById : Code := alone .replicaList

def replicaListDestroy : Code := alone .replicaList

def notifyReplicas : Code := alone .replicaList

/-- It unlocks the list, which it never locks. -/
def sendReplicasDataToNewReplica : Code := .unlock .replicaList

def sendCoordinatorMsg : Code := alone .replicaList

def sendElectionMsg : Code := alone .replicaList

def runElection : Code :=
  block [sendElectionMsg, .either .exit .skip, alone .answer, .exit]

def electionListenerThread : Code :=
  block [
    .loop (.either .skip (.either .exit (
      -- the three types of events, and any other
      .either (.either .skip (detached .runElection))
        (.either (alone .answer)
          (.either (block [alone .answer, removeReplicaById, detached .runAsBackup]) .skip))))),
    .exit]

/-! ## Files -/

/-- `send_file_to_session` for the other sessions of the user. -/
def sendFileToOthers : Code := .loop (.choose sendFileToSession)

def sendFileEventToReplicas : Code := .either .skip notifyReplicas

def removeFileFromUserList (index : ℕ) : Code :=
  .either .skip (block [removeFileFromContext index, .either .skip sendFileToOthers])

def handleIncomingFile : Code :=
  .either .skip (block [
    .choose fun index =>
      .either .skip
        (.either (block [addFileToContext index, .either .skip sendFileToOthers])
          (.either (.either .skip sendFileToOthers) (removeFileFromUserList index))),
    sendFileEventToReplicas])

/-! ## The threads of a session -/

def sendF (session : ℕ) : Code := block [.loop (getNextFileToSync session), .exit]

def receive : Code := block [.loop handleIncomingFile, .exit]

/-- PACKET_EXIT. The session names the threads that are joined. -/
def exitSession (session context : ℕ) : Code :=
  block [
    signalShutdown session,
    .choose fun tid => .join (.receive session) tid,
    .choose fun tid => .join (.sendF session) tid,
    alone (.context context),
    notifyReplicas]

def interface (session context : ℕ) : Code :=
  block [
    .loop (.either .skip
      (.either
        (.choose fun index => .either .skip
          (block [removeFileFromUserList index, sendFileEventToReplicas]))
        (exitSession session context))),
    .exit]

def initializeUserSessionAndThreads : Code :=
  .choose fun index => .choose fun context => .choose fun session => block [
    getOrCreateContext index,
    .lock (.context context),
    .either (.unlock (.context context)) (block [
      .either .skip (block [
        notifyReplicas,
        detached (.interface session context),
        -- the interface thread joins these two
        detached (.sendF session),
        detached (.receive session)]),
      .unlock (.context context),
      hashTablePrint])]

/-! ## The roles -/

def heartbeatReceived : Code := alone .heartbeat

def isManagerRunning : Code := alone .heartbeat

def sendHeartbeatToReplicas : Code := notifyReplicas

def notifyClientsOfServerChange : Code := .either .skip sendPacketAllUsers

def replicaListenerThread : Code :=
  block [
    .either .exit .skip,
    .loop (block [
      alone .modeChange,
      .either .exit (.either .skip (.either .exit
        (.either
          (.either .skip (block [
            addReplica,
            .either .skip (block [notifyReplicas, sendReplicasDataToNewReplica])]))
          (.either (detached .electionListener) .skip))))]),
    .exit]

/-- The monitor holds `mode_change_mutex` until the election that it has started is over. -/
def heartbeatMonitorThreadMain : Code :=
  block [
    .loop (block [
      alone .modeChange,
      .either .exit .skip,
      isManagerRunning,
      .either .skip (block [
        .lock .modeChange,
        .either .skip (.create .runElection fun tid => .join .runElection tid),
        .unlock .modeChange])]),
    .exit]

/-- One event of the manager, by its type. -/
def handleReplicaEvent : Code :=
  .either initializeUserSessionAndThreads
    (.either
      (.choose fun index => .choose fun context =>
        block [getOrCreateContext index, alone (.context context)])
      (.either
        (.choose fun index => .choose fun context =>
          block [getOrCreateContext index, alone (.context context), handleIncomingFile])
        (.either (.either .skip addReplica) heartbeatReceived)))

def connectToServerThread : Code :=
  block [
    .loop (block [
      alone .modeChange,
      .either .exit (.either .skip
        (.loop (.either .skip (block [
          alone .modeChange,
          .either .skip handleReplicaEvent]))))]),
    .exit]

def manageReplicas : Code :=
  block [
    .either .skip (.either .exit (detached .replicaListener)),
    .loop (block [alone .modeChange, .either .exit sendHeartbeatToReplicas]),
    .exit]

def runAsBackup : Code :=
  block [
    .either .skip (.either .exit (detached .replicaListener)),
    detached .connectToServer,
    .either .skip (detached .heartbeatMonitor),
    .loop (alone .modeChange),
    .either .skip (block [
      sendCoordinatorMsg,
      replicaListDestroy,
      notifyClientsOfServerChange,
      disconnectAllUsers,
      detached .manageReplicas]),
    .either .skip disconnectAllUsers,
    .exit]

def handleNewConnection : Code := initializeUserSessionAndThreads

def main : Code :=
  block [
    .either (detached .manageReplicas) (detached .runAsBackup),
    .loop handleNewConnection]

/-- What a thread executes. -/
def body : ThreadKind → Code
  | .main => main
  | .interface session context => interface session context
  | .sendF session => sendF session
  | .receive _ => receive
  | .manageReplicas => manageReplicas
  | .replicaListener => replicaListenerThread
  | .electionListener => electionListenerThread
  | .heartbeatMonitor => heartbeatMonitorThreadMain
  | .runElection => runElection
  | .runAsBackup => runAsBackup
  | .connectToServer => connectToServerThread

/-! ## The order -/

/-- Buckets before contexts, contexts before the replica list, and `mode_change_mutex` before an
election, which comes before what the election locks. -/
def rank : Resource Mutex ThreadKind → ℕ
  | .completion (.sendF _) | .completion (.receive _) => 1
  | .mutex .modeChange => 2
  | .completion .runElection => 3
  | .completion _ => 0
  | .mutex (.bucket _) => 4
  | .mutex (.context _) => 5
  | .mutex .replicaList => 6
  | .mutex _ => 7

variable {held : List (Resource Mutex ThreadKind)}

theorem keeps_alone {m : Mutex} (h : Under rank held (rank (.mutex m))) :
    Keeps rank held (alone m) :=
  .lock h (.seq .unlock_head (.skip held))

theorem keeps_detached (kind : ThreadKind) : Keeps rank held (detached kind) :=
  .create fun _ => .skip held

/-! ### What takes buckets and contexts -/

theorem keeps_getOrCreateContext (h : Under rank held 4) (index : ℕ) :
    Keeps rank held (getOrCreateContext index) := by
  have hbucket : Keeps rank held (alone (.bucket index)) := keeps_alone h
  exact .seq hbucket (.seq (.either (.skip held) hbucket) (.skip held))

theorem keeps_hashTablePrint (h : Under rank held 4) : Keeps rank held hashTablePrint := by
  refine .block fun p hp => ?_
  obtain ⟨i, -, rfl⟩ := List.mem_map.mp hp
  exact keeps_alone h

/-- A bulk walk holds a bucket while it takes the contexts in it. -/
theorem keeps_walkUsers (h : Under rank held 4) : Keeps rank held walkUsers := by
  refine .block fun p hp => ?_
  obtain ⟨i, -, rfl⟩ := List.mem_map.mp hp
  have hunder : Under rank (.mutex (.bucket i) :: held) 5 :=
    .cons (by simp [rank]) (h.mono (Nat.le_succ 4))
  have hcontext : ∀ context, Keeps rank (.mutex (.bucket i) :: held) (alone (.context context)) :=
    fun context => keeps_alone hunder
  refine .lock h (.seq (.either .unlock_head ?_) (.skip held))
  exact .seq (.loop (.either (.skip _) (.choose hcontext))) (.seq .unlock_head (.skip held))

theorem keeps_disconnectAllUsers (h : Under rank held 4) : Keeps rank held disconnectAllUsers :=
  .either (.skip held) (keeps_walkUsers h)

theorem keeps_notifyClientsOfServerChange (h : Under rank held 4) :
    Keeps rank held notifyClientsOfServerChange :=
  .either (.skip held) (.either (.skip held) (keeps_walkUsers h))

/-- The context is held while the replicas are told. -/
theorem keeps_initializeUserSessionAndThreads (h : Under rank held 4) :
    Keeps rank held initializeUserSessionAndThreads := by
  refine .choose fun index => .choose fun context => .choose fun session => ?_
  have hunder : Under rank (.mutex (.context context) :: held) 6 :=
    .cons (by simp [rank]) (h.mono (by decide))
  have hnotify : Keeps rank (.mutex (.context context) :: held) notifyReplicas :=
    keeps_alone hunder
  have hbelow : Under rank held (rank (.mutex (.context context))) := h.mono (by simp [rank])
  refine .seq (keeps_getOrCreateContext h index) (Keeps.lock hbelow ?_)
  refine .seq (.either .unlock_head (.seq (.either (.skip _) ?_) ?_)) (.skip held)
  · exact .seq hnotify (.seq (keeps_detached _) (.seq (keeps_detached _)
      (.seq (keeps_detached _) (.skip _))))
  · exact .seq .unlock_head (.seq (keeps_hashTablePrint h) (.skip held))

/-! ### Files and sessions -/

theorem keeps_addFileToSyncBuffer (h : Under rank held 7) (session : ℕ) :
    Keeps rank held (addFileToSyncBuffer session) := by
  have hbelow : Under rank held (rank (.mutex (.buffer session))) := h
  exact .lock hbelow (.seq (.loop (Keeps.wait hbelow)) (.seq .unlock_head (.skip held)))

theorem keeps_sendFileToOthers (h : Under rank held 7) : Keeps rank held sendFileToOthers :=
  .loop (.choose fun session => .either (.skip held) (keeps_addFileToSyncBuffer h session))

theorem keeps_sendFileEventToReplicas (h : Under rank held 6) :
    Keeps rank held sendFileEventToReplicas :=
  .either (.skip held) (keeps_alone h)

theorem keeps_removeFileFromUserList (h : Under rank held 4) (index : ℕ) :
    Keeps rank held (removeFileFromUserList index) :=
  .either (.skip held) (.seq (keeps_alone h)
    (.seq (.either (.skip held) (keeps_sendFileToOthers (h.mono (by decide)))) (.skip held)))

theorem keeps_handleIncomingFile (h : Under rank held 4) : Keeps rank held handleIncomingFile := by
  have hothers : Keeps rank held (.either .skip sendFileToOthers) :=
    .either (.skip held) (keeps_sendFileToOthers (h.mono (by decide)))
  have hadd : ∀ index, Keeps rank held
      (block [addFileToContext index, .either .skip sendFileToOthers]) :=
    fun index => .seq (keeps_alone h) (.seq hothers (.skip held))
  refine .either (.skip held) (.seq (.choose fun index => .either (.skip held) ?_) ?_)
  · exact .either (hadd index) (.either hothers (keeps_removeFileFromUserList h index))
  · exact .seq (keeps_sendFileEventToReplicas (h.mono (by decide))) (.skip held)

/-! ### The threads -/

/-- No thread is begun with anything that ranks with the buckets or above them. -/
theorem under_completion (kind : ThreadKind) : Under rank [.completion kind] 4 := by
  intro r hr
  obtain rfl := List.mem_singleton.mp hr
  cases kind <;> simp [rank]

theorem keeps_runElection : Keeps rank [.completion .runElection] runElection := by
  have h := under_completion .runElection
  have hlist : Keeps rank [.completion .runElection] sendElectionMsg :=
    keeps_alone (h.mono (by simp [rank]))
  have hanswer : Keeps rank [.completion .runElection] (alone .answer) :=
    keeps_alone (h.mono (by simp [rank]))
  exact .seq hlist (.seq (.either (.exit _ _) (.skip _))
    (.seq hanswer (.seq (.exit _ _) (.skip _))))

theorem keeps_electionListenerThread :
    Keeps rank [.completion .electionListener] electionListenerThread := by
  have h := under_completion .electionListener
  have hanswer : Keeps rank [.completion .electionListener] (alone .answer) :=
    keeps_alone (h.mono (by simp [rank]))
  have hremove : Keeps rank [.completion .electionListener] removeReplicaById :=
    keeps_alone (h.mono (by simp [rank]))
  have hcoordinator : Keeps rank [.completion .electionListener]
      (block [alone .answer, removeReplicaById, detached .runAsBackup]) :=
    .seq hanswer (.seq hremove (.seq (keeps_detached _) (.skip _)))
  refine .seq (.loop (.either (.skip _) (.either (.exit _ _) (.either ?_ ?_))))
    (.seq (.exit _ _) (.skip _))
  · exact .either (.skip _) (keeps_detached _)
  · exact .either hanswer (.either hcoordinator (.skip _))

theorem keeps_sendF (session : ℕ) : Keeps rank [.completion (.sendF session)] (sendF session) := by
  have h : Under rank [.completion (.sendF session)] (rank (.mutex (.buffer session))) :=
    (under_completion _).mono (by simp [rank])
  have hnext : Keeps rank [.completion (.sendF session)] (getNextFileToSync session) :=
    .lock h (.seq (.loop (Keeps.wait h)) (.seq .unlock_head (.skip _)))
  exact .seq (.loop hnext) (.seq (.exit _ _) (.skip _))

theorem keeps_receive (session : ℕ) : Keeps rank [.completion (.receive session)] receive :=
  .seq (.loop (keeps_handleIncomingFile (under_completion _))) (.seq (.exit _ _) (.skip _))

/-- Nobody waits for an interface thread, so it may wait for the two others. -/
theorem keeps_exitSession (session context : ℕ) :
    Keeps rank [.completion (.interface session context)] (exitSession session context) := by
  have h := under_completion (.interface session context)
  have hbuffer : Keeps rank [.completion (.interface session context)] (signalShutdown session) :=
    keeps_alone (h.mono (by simp [rank]))
  have hcontext : Keeps rank [.completion (.interface session context)]
      (alone (.context context)) :=
    keeps_alone (h.mono (by simp [rank]))
  have hnotify : Keeps rank [.completion (.interface session context)] notifyReplicas :=
    keeps_alone (h.mono (by simp [rank]))
  have hunder : Under rank [.completion (.interface session context)] 1 :=
    .cons Nat.zero_lt_one (.nil _)
  have hreceive : Keeps rank [.completion (.interface session context)]
      (.choose fun tid => .join (.receive session) tid) := .choose fun tid => .join tid hunder
  have hsend : Keeps rank [.completion (.interface session context)]
      (.choose fun tid => .join (.sendF session) tid) := .choose fun tid => .join tid hunder
  exact .seq hbuffer (.seq hreceive (.seq hsend (.seq hcontext (.seq hnotify (.skip _)))))

theorem keeps_interface (session context : ℕ) :
    Keeps rank [.completion (.interface session context)] (interface session context) := by
  have h := under_completion (.interface session context)
  have hdelete : ∀ index, Keeps rank [.completion (.interface session context)]
      (block [removeFileFromUserList index, sendFileEventToReplicas]) := fun index =>
    .seq (keeps_removeFileFromUserList h index)
      (.seq (keeps_sendFileEventToReplicas (h.mono (by decide))) (.skip _))
  refine .seq (.loop (.either (.skip _) (.either ?_ ?_))) (.seq (.exit _ _) (.skip _))
  · exact .choose fun index => .either (.skip _) (hdelete index)
  · exact keeps_exitSession session context

section ModeChange

variable {kind : ThreadKind}

/-- The threads other than the elections, whose completion ranks below `mode_change_mutex`. -/
theorem keeps_modeChange (hkind : rank (.completion kind) < 2) :
    Keeps rank [.completion kind] (alone .modeChange) :=
  keeps_alone (.cons hkind (.nil _))

theorem keeps_replicaListenerThread :
    Keeps rank [.completion .replicaListener] replicaListenerThread := by
  have h := under_completion .replicaListener
  have hlist : Keeps rank [.completion .replicaListener] (alone .replicaList) :=
    keeps_alone (h.mono (by simp [rank]))
  -- the stray unlock finds nothing that this thread holds
  have hsend : Keeps rank [.completion .replicaListener] sendReplicasDataToNewReplica :=
    .unlock _ _
  have hadded : Keeps rank [.completion .replicaListener]
      (block [notifyReplicas, sendReplicasDataToNewReplica]) :=
    .seq hlist (.seq hsend (.skip _))
  have hmanager : Keeps rank [.completion .replicaListener] (block [addReplica,
      .either .skip (block [notifyReplicas, sendReplicasDataToNewReplica])]) :=
    .seq hlist (.seq (.either (.skip _) hadded) (.skip _))
  refine .seq (.either (.exit _ _) (.skip _)) (.seq (.loop ?_) (.seq (.exit _ _) (.skip _)))
  refine .seq (keeps_modeChange (by decide)) (.seq (.either (.exit _ _) ?_) (.skip _))
  refine .either (.skip _) (.either (.exit _ _) (.either ?_ ?_))
  · exact .either (.skip _) hmanager
  · exact .either (keeps_detached _) (.skip _)

/-- What an election locks ranks above the election, so that the monitor may wait for it. -/
theorem keeps_heartbeatMonitorThreadMain :
    Keeps rank [.completion .heartbeatMonitor] heartbeatMonitorThreadMain := by
  have h := under_completion .heartbeatMonitor
  have hbelow : Under rank [.completion .heartbeatMonitor] (rank (.mutex .modeChange)) :=
    .cons (by decide) (.nil _)
  have hjoin : Under rank [.mutex .modeChange, .completion .heartbeatMonitor]
      (rank (.completion .runElection)) := .cons (by decide) (.cons (by decide) (.nil _))
  have hrunning : Keeps rank [.completion .heartbeatMonitor] isManagerRunning :=
    keeps_alone (h.mono (by simp [rank]))
  have helection : Keeps rank [.mutex .modeChange, .completion .heartbeatMonitor]
      (.create .runElection fun tid => .join .runElection tid) :=
    .create fun tid => .join tid hjoin
  refine .seq (.loop ?_) (.seq (.exit _ _) (.skip _))
  refine .seq (keeps_modeChange (by decide)) (.seq (.either (.exit _ _) (.skip _)) ?_)
  refine .seq hrunning (.seq (.either (.skip _) (Keeps.lock hbelow ?_)) (.skip _))
  exact .seq (.either (.skip _) helection) (.seq .unlock_head (.skip _))

theorem keeps_handleReplicaEvent (h : Under rank held 4) : Keeps rank held handleReplicaEvent := by
  have hcontext : ∀ context, Keeps rank held (alone (.context context)) :=
    fun context => keeps_alone (h.mono (by simp [rank]))
  refine .either (keeps_initializeUserSessionAndThreads h) (.either ?_ (.either ?_ (.either ?_ ?_)))
  · exact .choose fun index => .choose fun context =>
      .seq (keeps_getOrCreateContext h index) (.seq (hcontext context) (.skip _))
  · exact .choose fun index => .choose fun context =>
      .seq (keeps_getOrCreateContext h index)
        (.seq (hcontext context) (.seq (keeps_handleIncomingFile h) (.skip _)))
  · exact .either (.skip _) (keeps_alone (h.mono (by simp [rank])))
  · exact keeps_alone (h.mono (by simp [rank]))

theorem keeps_connectToServerThread :
    Keeps rank [.completion .connectToServer] connectToServerThread := by
  have hmode : Keeps rank [.completion .connectToServer] (alone .modeChange) :=
    keeps_modeChange (by decide)
  have hevent := keeps_handleReplicaEvent (under_completion .connectToServer)
  refine .seq (.loop ?_) (.seq (.exit _ _) (.skip _))
  refine .seq hmode (.seq (.either (.exit _ _) (.either (.skip _) (.loop ?_))) (.skip _))
  exact .either (.skip _) (.seq hmode (.seq (.either (.skip _) hevent) (.skip _)))

theorem keeps_manageReplicas : Keeps rank [.completion .manageReplicas] manageReplicas := by
  have hheartbeat : Keeps rank [.completion .manageReplicas] sendHeartbeatToReplicas :=
    keeps_alone ((under_completion _).mono (by simp [rank]))
  refine .seq (.either (.skip _) (.either (.exit _ _) (keeps_detached _))) ?_
  refine .seq (.loop ?_) (.seq (.exit _ _) (.skip _))
  exact .seq (keeps_modeChange (by decide)) (.seq (.either (.exit _ _) hheartbeat) (.skip _))

theorem keeps_runAsBackup : Keeps rank [.completion .runAsBackup] runAsBackup := by
  have h := under_completion .runAsBackup
  have hlist : Keeps rank [.completion .runAsBackup] (alone .replicaList) :=
    keeps_alone (h.mono (by simp [rank]))
  have hdisconnect := keeps_disconnectAllUsers h
  refine .seq (.either (.skip _) (.either (.exit _ _) (keeps_detached _))) ?_
  refine .seq (keeps_detached _) (.seq (.either (.skip _) (keeps_detached _)) ?_)
  refine .seq (.loop (keeps_modeChange (by decide))) (.seq (.either (.skip _) ?_) ?_)
  · exact .seq hlist (.seq hlist (.seq (keeps_notifyClientsOfServerChange h)
      (.seq hdisconnect (.seq (keeps_detached _) (.skip _)))))
  · exact .seq (.either (.skip _) hdisconnect) (.seq (.exit _ _) (.skip _))

end ModeChange

theorem keeps_main : Keeps rank [.completion .main] main := by
  have hconnect := keeps_initializeUserSessionAndThreads (under_completion .main)
  exact .seq (.either (keeps_detached _) (keeps_detached _)) (.seq (.loop hconnect) (.skip _))

/-- Every thread takes its locks in rising rank, and gives back what it takes. -/
theorem keeps_body (kind : ThreadKind) : Keeps rank [.completion kind] (body kind) := by
  cases kind with
  | main => exact keeps_main
  | interface session context => exact keeps_interface session context
  | sendF session => exact keeps_sendF session
  | receive session => exact keeps_receive session
  | manageReplicas => exact keeps_manageReplicas
  | replicaListener => exact keeps_replicaListenerThread
  | electionListener => exact keeps_electionListenerThread
  | heartbeatMonitor => exact keeps_heartbeatMonitorThreadMain
  | runElection => exact keeps_runElection
  | runAsBackup => exact keeps_runAsBackup
  | connectToServer => exact keeps_connectToServerThread

/-- In no state that the server reaches do threads wait for each other in a circle. -/
theorem no_wait_cycle (actions : List Action) :
    Transition.Always (System.step body)
      (fun s => ∀ tid, ¬Relation.TransGen s.WaitsFor tid tid) (System.start body .main) actions :=
  always_acyclic .main actions fun kind => ⟨_, keeps_body kind⟩

end SyncServer.LockOrder
