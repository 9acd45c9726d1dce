import SyncServer.Cluster.Wiring
import SyncServer.Wire.Reading

/-! # The threads that serve clients

The threads of a server that serve its clients tell the replicas of every session and of every
change of a file. They write to all sockets of the replica list, also to those at whose other end
an election listener reads, and a listener looks at the payload of every packet. Whoever connects
to the port of a listener is read as well.
-/

namespace SyncServer

open CText Transition

def Thread.isConnection : Thread → Bool
  | connectToServer _ _ _ _ => true
  | _ => false

/-- What a thread serves: `main` the clients that connect, the threads of a session a user's
device. A connection thread runs the same functions for an event about a user. -/
inductive ClientRole where
  | main
  | interface (username : Bytes) (deviceAddress : SockAddrIn)
  | receive (username : Bytes) (deviceAddress : SockAddrIn)
  | connection
  deriving DecidableEq, Repr

/-- Where the thread stands. -/
inductive ClientPlace where
  /-- Before the next client, command, packet or event. -/
  | waiting
  /-- The test of `global_server_mode`. -/
  | loadMode (event : ReplicaEvent)
  /-- `notify_replicas`. -/
  | notify (event : ReplicaEvent)
  | createInterface (username : Bytes) (deviceAddress : SockAddrIn)
  | createReceive (username : Bytes) (deviceAddress : SockAddrIn)
  /-- A connection thread has done what the event asks for. -/
  | told
  | exited
  deriving DecidableEq, Repr

structure ClientThread where
  role : ClientRole
  place : ClientPlace
  deriving DecidableEq, Repr

/-- The place after the mode was not `BACKUP_MANAGER`. -/
def ClientRole.skipped : ClientRole → ClientPlace
  | connection => .told
  | _ => .waiting

/-- The place after `notify_replicas`. A session that was created gets its threads. Those that a
connection thread creates have no sockets and stop the server. -/
def ClientRole.notified (event : ReplicaEvent) : ClientRole → ClientPlace
  | main => .createInterface (event.username.getD []) event.deviceAddress
  | interface _ _ => if event.type = .clientDisconnected then .exited else .waiting
  | receive _ _ => .waiting
  | connection => .told

/-- What `send_event` sends after the event. `found` is what `send_file` finds, nothing if the
file does not open. -/
def transferPackets (event : ReplicaEvent) (found : Option (ℕ × List Bytes)) : List Packet :=
  match event.type, event.filepath, found with
  | .fileUploaded, some filename, some (fileSize, chunks) =>
      sendOpenedFile filename fileSize chunks
  | .fileDeleted, some filename, _ => [createTextPacket .delete filename]
  | _, _, _ => []

/-- The event that a connection thread hands on: `initialize_user_session_and_threads` for a
client, and `handle_incoming_file` for the file or the deletion that comes with an event. -/
def relayedEvent (event : ReplicaEvent) (filename : Bytes) : Option ReplicaEvent :=
  match event.type, event.username with
  | .clientConnected, some username =>
      some (createClientConnectedEvent username event.deviceAddress)
  | .fileUploaded, some username =>
      some (createFileUploadEvent username event.deviceAddress filename)
  | .fileDeleted, some username =>
      some (createFileDeleteEvent username event.deviceAddress filename)
  | _, _ => none

/-- Servers with the threads that serve their clients. These threads have numbers of their own,
but for a connection thread, which has the one it has among the servers' threads. -/
structure Serving where
  cluster : Cluster
  clients : ℤ → ℕ → Option ClientThread

/-- A step of the servers, something that a client does, the next statement of a thread that serves
clients, or something that a process does which is none of the servers. -/
inductive Serving.Action where
  | server (action : Cluster.Action)
  /-- `main` has a slot for a client that has connected. -/
  | connect (i : ℤ) (tid : ℕ) (username : Bytes) (deviceAddress : SockAddrIn)
  /-- `handle_incoming_file` has received a file. -/
  | upload (i : ℤ) (tid : ℕ) (filename : Bytes)
  /-- A file is deleted, by a packet on either socket. -/
  | delete (i : ℤ) (tid : ℕ) (filename : Bytes)
  /-- The client leaves. -/
  | leave (i : ℤ) (tid : ℕ)
  /-- A connection thread handles an event about a user. -/
  | relay (i : ℤ) (tid : ℕ) (filename : Bytes)
  /-- `found` is what `send_file` finds for each socket. -/
  | run (i : ℤ) (tid : ℕ) (closed : List ℕ) (found : ℕ → Option (ℕ × List Bytes)) (fresh : ℕ)
  /-- A process connects to a listener. -/
  | visit (p : End)
  /-- A process that has connected writes. -/
  | utter (p : End) (text : Bytes)

/-- The number that a step of the servers gives to a thread that it creates. -/
def Cluster.Action.creates : Cluster.Action → Option (ℤ × ℕ)
  | .run i _ _ fresh => some (i, fresh)
  | .dial i _ fresh _ _ _ => some (i, fresh)
  | _ => none

namespace Serving

/-! ## The steps -/

def put (s : Serving) (i : ℤ) (tid : ℕ) (thread : ClientThread) : Serving :=
  { s with
    clients := Function.update s.clients i (Function.update (s.clients i) tid (some thread)) }

theorem put_clients_of_ne {s : Serving} {i j : ℤ} {tid t : ℕ} {thread : ClientThread}
    (h : ¬(j = i ∧ t = tid)) : (s.put i tid thread).clients j t = s.clients j t := by
  by_cases hj : j = i
  · subst hj
    have ht : t ≠ tid := fun ht => h ⟨rfl, ht⟩
    simp [put, ht]
  · simp [put, hj]

/-- A thread of a server that is up goes on to another place. -/
def move (s : Serving) (i : ℤ) (tid : ℕ) (next : ClientThread → Option ClientPlace) :
    Option Serving :=
  if s.cluster.crashed i then none
  else (s.clients i tid).bind fun thread =>
    (next thread).map fun place => s.put i tid { thread with place }

/-- The texts that the election listeners and connection threads find at an end. The packets of a
transfer are taken from a dialed end together with their event. -/
def texts (kind : Option EndKind) (event : ReplicaEvent) (found : Option (ℕ × List Bytes)) :
    List Bytes :=
  cString (eventPacket event).payload ::
    if kind = some .dialed then []
    else (transferPackets event found).map fun packet => cString packet.payload

/-- `notify_replicas`, one section under the mutex of the list. -/
def notify (c : Cluster) (i : ℤ) (tid : ℕ) (event : ReplicaEvent) (closed : List ℕ)
    (found : ℕ → Option (ℕ × List Bytes)) : Cluster :=
  let server := c.servers i
  { c with
    servers := Function.update c.servers i { server with shared := server.shared.dropClosed closed }
    inbox := fun p => c.inbox p ++ (keepOpen server.shared.replicaList closed).flatMap fun node =>
      if c.peer (i, node.socketfd) = some p then
        (texts (c.kind p) event (found node.socketfd)).map fun text => (tid, text)
      else [] }

/-- A new end at the port of a listener. Nobody is at the other end. -/
def visit (c : Cluster) (p : End) : Cluster :=
  { c with kind := Function.update c.kind p (some .waiting) }

/-- A text comes to an end. Its writer has no number. -/
def utter (c : Cluster) (p : End) (text : Bytes) : Cluster :=
  { c with inbox := Function.update c.inbox p (c.inbox p ++ [(0, text)]) }

/-- A thread that is created gets a number that no thread has. -/
def create (s : Serving) (i : ℤ) (fresh : ℕ) (role : ClientRole) : Option Serving :=
  if s.clients i fresh = none ∧ (s.cluster.servers i).threads fresh = .unused then
    some (s.put i fresh ⟨role, .waiting⟩)
  else none

/-- The next statement of a thread that serves clients. -/
def advance (s : Serving) (i : ℤ) (tid : ℕ) (closed : List ℕ)
    (found : ℕ → Option (ℕ × List Bytes)) (fresh : ℕ) (thread : ClientThread) : Option Serving :=
  match thread.place with
  | .loadMode event =>
      some (s.put i tid { thread with
        place := if (s.cluster.servers i).shared.globalServerMode = .backupManager
          then .notify event else thread.role.skipped })
  | .notify event =>
      some ({ s with cluster := notify s.cluster i tid event closed found }.put i tid
        { thread with place := thread.role.notified event })
  | .createInterface username address =>
      (s.create i fresh (.interface username address)).map fun s =>
        s.put i tid { thread with place := .createReceive username address }
  | .createReceive username address =>
      (s.create i fresh (.receive username address)).map fun s =>
        s.put i tid { thread with place := .waiting }
  | _ => none

/-- A connection thread that runs a function for a user takes no other step meanwhile. -/
def isBusy (s : Serving) (i : ℤ) (tid : ℕ) : Bool :=
  (s.clients i tid).any fun thread => thread.place ≠ .waiting ∧ thread.place ≠ .told

/-- A thread of the server takes a step. -/
def stepThread (s : Serving) (action : Cluster.Action) (i : ℤ) (tid fresh : ℕ) : Option Serving :=
  if s.isBusy i tid ∨ s.clients i fresh ≠ none then none
  else (s.cluster.step action).map fun cluster =>
    { cluster
      clients := Function.update s.clients i (Function.update (s.clients i) tid
        ((s.clients i tid).map fun thread => { thread with place := .waiting })) }

def step (s : Serving) : Action → Option Serving
  | .server action =>
      match action with
      | .run i tid _ fresh | .dial i tid fresh _ _ _ => s.stepThread action i tid fresh
      | .tick _ | .crash _ => (s.cluster.step action).map fun cluster => { s with cluster }
  | .connect i tid username address => s.move i tid fun thread =>
      if thread = ⟨.main, .waiting⟩ then
        some (.loadMode (createClientConnectedEvent username address))
      else none
  | .upload i tid filename => s.move i tid fun
      | ⟨.receive username address, .waiting⟩ =>
          some (.loadMode (createFileUploadEvent username address filename))
      | _ => none
  | .delete i tid filename => s.move i tid fun
      | ⟨.receive username address, .waiting⟩ | ⟨.interface username address, .waiting⟩ =>
          some (.loadMode (createFileDeleteEvent username address filename))
      | _ => none
  | .leave i tid => s.move i tid fun
      | ⟨.interface username address, .waiting⟩ =>
          some (.notify (createClientDisconnectedEvent username address))
      | ⟨.receive _ _, .waiting⟩ => some .exited
      | _ => none
  | .relay i tid filename =>
      match (s.cluster.servers i).threads tid with
      | .connectToServer _ _ _ (.apply _ _ _ event) =>
          if s.cluster.crashed i ∨ (s.clients i tid).any (·.place ≠ .waiting) then none
          else (relayedEvent event filename).map fun event =>
            s.put i tid ⟨.connection, .loadMode event⟩
      | _ => none
  | .run i tid closed found fresh =>
      if s.cluster.crashed i then none
      else (s.clients i tid).bind fun thread => s.advance i tid closed found fresh thread
  | .visit p =>
      if s.cluster.crashed p.1 = false ∧ s.cluster.kind p = none ∧
          (s.cluster.servers p.1).shared.listenerSocket.isSome then
        some { s with cluster := visit s.cluster p }
      else none
  | .utter p text =>
      if s.cluster.kind p ≠ none ∧ s.cluster.peer p = none then
        some { s with cluster := utter s.cluster p text }
      else none

/-- The state after a list of actions. -/
abbrev run (s : Serving) (actions : List Action) : Option Serving :=
  Transition.run step s actions

/-- Servers at their start, where at most one thread of each is to serve clients: `main`. -/
structure Starts (s : Serving) : Prop where
  cluster : s.cluster.Starts
  main : ∀ i t thread, s.clients i t = some thread →
    thread = ⟨.main, .waiting⟩ ∧ (s.cluster.servers i).threads t = .unused
  unique : ∀ i t t', s.clients i t ≠ none → s.clients i t' ≠ none → t = t'

/-! ## What a step does -/

variable {s s₁ s' : Serving} {i : ℤ} {tid fresh : ℕ}

/-- What comes to the servers but for their own steps: nothing, what a thread that serves clients
tells the replicas, or what a process does that is none of the servers. -/
inductive Touched (s : Serving) : Cluster → Prop where
  | same : s.Touched s.cluster
  | notify (i tid event closed found) (htaken : s.clients i tid ≠ none) :
      s.Touched (notify s.cluster i tid event closed found)
  | visit (p) (hnew : s.cluster.kind p = none) : s.Touched (visit s.cluster p)
  | utter (p text) (hopen : s.cluster.kind p ≠ none) (hpeer : s.cluster.peer p = none) :
      s.Touched (utter s.cluster p text)

/-- A step that none of the servers takes. More threads may serve clients then: new ones, or those
of connections. -/
structure Outside (s s' : Serving) : Prop where
  cluster : s.Touched s'.cluster
  grows : ∀ i t, s.clients i t ≠ none → s'.clients i t ≠ none
  others : ∀ i t, s'.clients i t ≠ none → s.clients i t ≠ none ∨
    (s.cluster.servers i).threads t = .unused ∨
      ((s.cluster.servers i).threads t).isConnection = true

theorem Outside.refl (s : Serving) : s.Outside s :=
  ⟨.same, fun _ _ h => h, fun _ _ h => .inl h⟩

/-- No more threads serve clients. -/
theorem Outside.of_touched {c : Cluster} (h : s.Touched c) : s.Outside { s with cluster := c } :=
  ⟨h, fun _ _ h => h, fun _ _ h => .inl h⟩

theorem Outside.put {thread : ClientThread} (hs : s.Outside s₁)
    (h : s.clients i tid ≠ none ∨ (s.cluster.servers i).threads tid = .unused ∨
      ((s.cluster.servers i).threads tid).isConnection = true) :
    s.Outside (s₁.put i tid thread) := by
  refine ⟨hs.cluster, fun j t hold => ?_, fun j t hnew => ?_⟩
  · by_cases hjt : j = i ∧ t = tid
    · obtain ⟨rfl, rfl⟩ := hjt
      simp [Serving.put]
    · rw [put_clients_of_ne hjt]
      exact hs.grows j t hold
  · by_cases hjt : j = i ∧ t = tid
    · obtain ⟨rfl, rfl⟩ := hjt
      exact h
    · rw [put_clients_of_ne hjt] at hnew
      exact hs.others j t hnew

theorem Outside.create {role : ClientRole} (h : s.create i fresh role = some s') : s.Outside s' := by
  unfold Serving.create at h
  split at h
  · rename_i hfresh
    obtain rfl := Option.some.inj h
    exact (Outside.refl s).put (.inr (.inl hfresh.2))
  · cases h

theorem Outside.move {next : ClientThread → Option ClientPlace} (h : s.move i tid next = some s') :
    s.Outside s' := by
  unfold Serving.move at h
  split at h
  · cases h
  · obtain ⟨thread, hthread, h⟩ := Option.bind_eq_some_iff.mp h
    obtain ⟨place, -, rfl⟩ := Option.map_eq_some_iff.mp h
    exact (Outside.refl s).put (.inl (by simp [hthread]))

theorem Outside.advance {closed : List ℕ} {found : ℕ → Option (ℕ × List Bytes)}
    {thread : ClientThread} (hthread : s.clients i tid = some thread)
    (h : s.advance i tid closed found fresh thread = some s') : s.Outside s' := by
  have hne : s.clients i tid ≠ none := by simp [hthread]
  obtain ⟨role, place⟩ := thread
  cases place <;> simp only [Serving.advance, reduceCtorEq] at h
  case loadMode event =>
    obtain rfl := Option.some.inj h
    exact (Outside.refl s).put (.inl hne)
  case notify event =>
    obtain rfl := Option.some.inj h
    exact (Outside.of_touched (.notify i tid event closed found hne)).put (.inl hne)
  case createInterface username address =>
    obtain ⟨s₁, hs₁, rfl⟩ := Option.map_eq_some_iff.mp h
    exact (Outside.create hs₁).put (.inl hne)
  case createReceive username address =>
    obtain ⟨s₁, hs₁, rfl⟩ := Option.map_eq_some_iff.mp h
    exact (Outside.create hs₁).put (.inl hne)

theorem stepThread_eq_some {action : Cluster.Action}
    (h : s.stepThread action i tid fresh = some s') :
    s.clients i fresh = none ∧ s.cluster.step action = some s'.cluster ∧
      ∀ j t, s'.clients j t = none ↔ s.clients j t = none := by
  unfold stepThread at h
  split at h
  · cases h
  · rename_i hfree
    obtain ⟨cluster, hc, rfl⟩ := Option.map_eq_some_iff.mp h
    refine ⟨by simpa using (not_or.mp hfree).2, hc, fun j t => ?_⟩
    by_cases hj : j = i
    · subst hj
      by_cases ht : t = tid
      · subst ht
        simp
      · simp [ht]
    · simp [hj]

theorem exists_stepThread {action : Cluster.Action} {c : Cluster} (hfree : s.clients i tid = none)
    (hfresh : s.clients i fresh = none) (hc : s.cluster.step action = some c) :
    ∃ s', s.stepThread action i tid fresh = some s' ∧ s'.cluster = c := by
  simp [stepThread, isBusy, hfree, hfresh, hc]

/-- A step is one of the servers, which creates no thread under a number that is taken, or one
beside them. -/
theorem step_cases {a : Action} (h : s.step a = some s') :
    (∃ action, a = .server action ∧ s.cluster.step action = some s'.cluster ∧
      (∀ j t, s'.clients j t = none ↔ s.clients j t = none) ∧
      ∀ i fresh, action.creates = some (i, fresh) → s.clients i fresh = none) ∨
    (∀ action, a ≠ .server action) ∧ s.Outside s' := by
  cases a with
  | server action =>
      refine .inl ⟨action, rfl, ?_⟩
      cases action with
      | tick i =>
          obtain ⟨cluster, hc, rfl⟩ := Option.map_eq_some_iff.mp h
          exact ⟨hc, fun _ _ => Iff.rfl, nofun⟩
      | crash i =>
          simp only [step] at h
          obtain ⟨cluster, hc, rfl⟩ := Option.map_eq_some_iff.mp h
          exact ⟨hc, fun _ _ => Iff.rfl, nofun⟩
      | run i tid input fresh =>
          obtain ⟨hfresh, hc, hclients⟩ := stepThread_eq_some h
          refine ⟨hc, hclients, fun j t hjt => ?_⟩
          obtain ⟨rfl, rfl⟩ := Prod.mk.inj (Option.some.inj hjt)
          exact hfresh
      | dial i tid fresh socketfd address remote =>
          obtain ⟨hfresh, hc, hclients⟩ := stepThread_eq_some h
          refine ⟨hc, hclients, fun j t hjt => ?_⟩
          obtain ⟨rfl, rfl⟩ := Prod.mk.inj (Option.some.inj hjt)
          exact hfresh
  | connect i tid username address => exact .inr ⟨nofun, Outside.move h⟩
  | upload i tid filename => exact .inr ⟨nofun, Outside.move h⟩
  | delete i tid filename => exact .inr ⟨nofun, Outside.move h⟩
  | leave i tid => exact .inr ⟨nofun, Outside.move h⟩
  | relay i tid filename =>
      refine .inr ⟨nofun, ?_⟩
      simp only [step] at h
      split at h
      · rename_i hthread
        split at h
        · cases h
        · obtain ⟨event, -, rfl⟩ := Option.map_eq_some_iff.mp h
          exact (Outside.refl s).put (.inr (.inr (by rw [hthread]; rfl)))
      · cases h
  | run i tid closed found fresh =>
      refine .inr ⟨nofun, ?_⟩
      simp only [step] at h
      split at h
      · cases h
      · obtain ⟨thread, hthread, h⟩ := Option.bind_eq_some_iff.mp h
        exact Outside.advance hthread h
  | visit p =>
      refine .inr ⟨nofun, ?_⟩
      simp only [step] at h
      split at h
      · rename_i hlistens
        obtain rfl := Option.some.inj h
        exact Outside.of_touched (.visit p hlistens.2.1)
      · cases h
  | utter p text =>
      refine .inr ⟨nofun, ?_⟩
      simp only [step] at h
      split at h
      · rename_i hopen
        obtain rfl := Option.some.inj h
        exact Outside.of_touched (.utter p text hopen.1 hopen.2)
      · cases h

/-- `notify_replicas` changes no thread and no flag. -/
theorem notify_servers (c : Cluster) (i : ℤ) (tid : ℕ) (event : ReplicaEvent) (closed : List ℕ)
    (found : ℕ → Option (ℕ × List Bytes)) (j : ℤ) :
    ((notify c i tid event closed found).servers j).threads = (c.servers j).threads ∧
      ((notify c i tid event closed found).servers j).shared.electionAnswerReceived =
        (c.servers j).shared.electionAnswerReceived := by
  by_cases hj : j = i
  · subst hj
    simp [notify, Shared.dropClosed]
  · simp [notify, hj]

theorem Touched.servers {c : Cluster} (h : s.Touched c) (j : ℤ) :
    (c.servers j).threads = (s.cluster.servers j).threads ∧
      (c.servers j).shared.electionAnswerReceived =
        (s.cluster.servers j).shared.electionAnswerReceived := by
  cases h with
  | notify i tid event closed found => exact notify_servers s.cluster i tid event closed found j
  | _ => exact ⟨rfl, rfl⟩

end Serving

end SyncServer
