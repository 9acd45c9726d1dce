import SyncServer.Library.Transition
import SyncServer.Sessions.Events

/-! # The sessions that a replica knows

A manager with its main thread, which lets clients in, with the threads of their sessions, and
with the replicas that read its events. A step is one section under a lock, one
`notify_replicas` or the handling of one event. The packets that follow a file event are read
with the event; they leave the slots alone.
-/

namespace SyncServer

open CText Transition

/-! ## The manager and its replicas -/

/-- A session with the user that it belongs to. -/
structure Client where
  username : Username
  session : Session
  deriving DecidableEq, Repr

/-- `initialize_user_session_and_threads` in the main thread. The lock of the context is held
from `locked` on. -/
inductive MainThread where
  | accepting
  | found (username : Username) (deviceAddress : SockAddrIn)
  | locked (client : Client)
  | announced (client : Client)
  | started (client : Client)
  deriving DecidableEq, Repr

/-- The user whose lock the main thread holds. -/
def MainThread.holds : MainThread → Option Username
  | accepting => none
  | found _ _ => none
  | locked client => some client.username
  | announced client => some client.username
  | started client => some client.username

/-- The client that the replicas know of and that has no threads yet. -/
def MainThread.announcing : MainThread → List Client
  | announced client => [client]
  | _ => []

/-- A replica: its users, the texts it has still to read, and whether the manager's list has
it. -/
structure Replica where
  table : HashTable
  inbox : List Bytes
  listed : Bool

/-- `send_event`. The connection of a replica that is not listed any more was closed. -/
def Replica.send (replica : Replica) (event : ReplicaEvent) : Replica :=
  if replica.listed then { replica with inbox := replica.inbox ++ [(eventPacket event).payload] }
  else replica

/-- `running` are the sessions whose threads live, `released` those that have emptied their slot
and not yet told the replicas. -/
structure Manager where
  table : HashTable
  main : MainThread
  running : List Client
  released : List Client
  replicas : ℕ → Option Replica

inductive Manager.Action where
  | connect (request : Bytes) (deviceAddress : SockAddrIn)
  | lock
  | announce
  | start
  | fill
  | uploaded (i : ℕ) (filename : Bytes)
  | deleted (i : ℕ) (filename : Bytes)
  | release (i : ℕ)
  | disconnect (i : ℕ)
  | heartbeat
  | replicaAdded (id listenerPort : ℤ) (deviceAddress : SockAddrIn)
  | tell (r : ℕ) (id listenerPort : ℤ) (deviceAddress : SockAddrIn)
  | join (r : ℕ) (table : HashTable)
  | drop (r : ℕ)
  | handle (r : ℕ)

/-! ## The events of a client -/

namespace Client

def connectedEvent (client : Client) : ReplicaEvent :=
  createClientConnectedEvent client.username.name client.session.deviceAddress

def disconnectedEvent (client : Client) : ReplicaEvent :=
  createClientDisconnectedEvent client.username.name client.session.deviceAddress

def uploadEvent (client : Client) (filename : Bytes) : ReplicaEvent :=
  createFileUploadEvent client.username.name client.session.deviceAddress (cString filename)

def deleteEvent (client : Client) (filename : Bytes) : ReplicaEvent :=
  createFileDeleteEvent client.username.name client.session.deviceAddress (cString filename)

/-- The name under which a replica has the client. -/
def replicaName (client : Client) : Bytes := nameToken client.username.name

end Client

/-! ## A replica reads an event -/

/-- The events whose handler looks for a session. -/
def ReplicaEventType.NeedsSession (type : ReplicaEventType) : Prop :=
  type = clientDisconnected ∨ type = fileUploaded ∨ type = fileDeleted

instance (type : ReplicaEventType) : Decidable type.NeedsSession :=
  inferInstanceAs (Decidable (_ ∨ _ ∨ _))

/-- The dispatch of `connect_to_server_thread` as far as the users go, `none` for a crash. -/
def HashTable.handleEvent (table : HashTable) (event : ReplicaEvent) : Option HashTable :=
  match event.type with
  | .clientConnected =>
      event.username.bind fun username =>
        table.initializeUserSession event.deviceAddress username
  | .clientDisconnected => table.clientDisconnected event
  | .fileUploaded => (table.eventSession event).bind fun found => found.2.map fun _ => found.1
  | .fileDeleted => (table.eventSession event).bind fun found => found.2.map fun _ => found.1
  | _ => some table

def HashTable.handleText (table : HashTable) (text : Bytes) : Option HashTable :=
  table.handleEvent (deserializeReplicaEvent text)

/-- If the handler of the text looks for a session, it finds one. -/
def HashTable.FindsFor (table : HashTable) (text : Bytes) : Prop :=
  (deserializeReplicaEvent text).type.NeedsSession →
    table.KnowsSession (deserializeReplicaEvent text)

instance (table : HashTable) (text : Bytes) : Decidable (table.FindsFor text) :=
  inferInstanceAs (Decidable (_ → _))

/-! ## The steps -/

namespace Manager

/-- The manager of a fresh run. -/
def initial (table : HashTable) : Manager := ⟨table, .accepting, [], [], fun _ => none⟩

/-- `notify_replicas`. -/
def notify (s : Manager) (event : ReplicaEvent) : Manager :=
  { s with replicas := fun r => (s.replicas r).map (·.send event) }

def step (s : Manager) : Action → Option Manager
  | .connect request deviceAddress =>
      match s.main with
      | .accepting =>
          (s.table.getOrCreateContext (readUsername request).name).map fun found =>
            { s with table := found.1, main := .found (readUsername request) deviceAddress }
      | _ => none
  | .lock =>
      match s.main with
      | .found username deviceAddress =>
          (s.table.find username.name).map fun context =>
            match context.findFreeSessionIndex with
            | none => { s with main := .accepting }
            | some index =>
                { s with main := .locked ⟨username, createSession index deviceAddress⟩ }
      | _ => none
  | .announce =>
      match s.main with
      | .locked client => some { s.notify client.connectedEvent with main := .announced client }
      | _ => none
  | .start =>
      match s.main with
      | .announced client => some { s with main := .started client, running := client :: s.running }
      | _ => none
  | .fill =>
      match s.main with
      | .started client =>
          some { s with
            table := s.table.modify client.username.name (·.addSession client.session)
            main := .accepting }
      | _ => none
  | .uploaded i filename => (s.running[i]?).map fun client => s.notify (client.uploadEvent filename)
  | .deleted i filename => (s.running[i]?).map fun client => s.notify (client.deleteEvent filename)
  | .release i =>
      (s.running[i]?).bind fun client =>
        if s.main.holds = some client.username then none
        else some { s with
          table := s.table.modify client.username.name
            (·.removeSession client.session.sessionIndex)
          running := s.running.eraseIdx i
          released := client :: s.released }
  | .disconnect i =>
      (s.released[i]?).map fun client =>
        { s.notify client.disconnectedEvent with released := s.released.eraseIdx i }
  | .heartbeat => some (s.notify createHeartbeatEvent)
  | .replicaAdded id listenerPort deviceAddress =>
      if IsInt id ∧ IsInt listenerPort then
        some (s.notify (createReplicaAddedEvent id listenerPort deviceAddress))
      else none
  | .tell r id listenerPort deviceAddress =>
      if IsInt id ∧ IsInt listenerPort then
        some { s with
          replicas := Function.update s.replicas r ((s.replicas r).map
            (·.send (createReplicaAddedEvent id listenerPort deviceAddress))) }
      else none
  | .join r table =>
      match s.replicas r with
      | none => some { s with replicas := Function.update s.replicas r (some ⟨table, [], true⟩) }
      | some _ => none
  | .drop r =>
      (s.replicas r).map fun replica =>
        { s with replicas := Function.update s.replicas r (some { replica with listed := false }) }
  | .handle r =>
      (s.replicas r).bind fun replica =>
        match replica.inbox with
        | [] => none
        | text :: inbox =>
            -- a crashed replica is gone
            some { s with
              replicas := Function.update s.replicas r
                ((replica.table.handleText text).map fun table => ⟨table, inbox, replica.listed⟩) }

/-- The clients that were announced and not yet taken back. -/
def live (s : Manager) : List Client := s.main.announcing ++ (s.running ++ s.released)

/-! ## The property and the condition -/

/-- The replica that handles an event in the step. -/
def Action.handled : Action → Option ℕ
  | handle r => some r
  | _ => none

/-- The step handles no event for which it misses the session. -/
def Finds (s : Manager) (a : Action) : Prop :=
  ∀ r ∈ a.handled, ∀ replica ∈ s.replicas r, ∀ text ∈ replica.inbox.head?,
    replica.table.FindsFor text

instance (s : Manager) (a : Action) : Decidable (Finds s a) :=
  inferInstanceAs (Decidable (∀ r ∈ a.handled, ∀ replica ∈ s.replicas r,
    ∀ text ∈ replica.inbox.head?, replica.table.FindsFor text))

/-- The addresses of the clients that a replica has under a name. -/
def addressesOf (clients : List Client) (name : Bytes) : List SockAddrIn :=
  (clients.filter (·.replicaName = name)).map (·.session.deviceAddress)

/-- The slots of the table are those of the clients, which all have a name that can be sent. -/
structure Knows (table : HashTable) (clients : List Client) : Prop where
  named : ∀ client ∈ clients, client.replicaName ≠ []
  addresses : ∀ name, (table.addresses name).Perm (addressesOf clients name)

/-- A replica has a slot for the client beside those that were announced. -/
def HasRoom (s : Manager) (client : Client) : Prop :=
  client.replicaName ≠ [] ∧ (addressesOf s.live client.replicaName).length < maxSessions

instance (s : Manager) (client : Client) : Decidable (s.HasRoom client) :=
  inferInstanceAs (Decidable (_ ∧ _))

/-- Some replica receives what is sent to all. -/
def Notified (s : Manager) : Prop := ∃ r, ∃ replica ∈ s.replicas r, replica.listed = true

/-- The client that is announced in the step. -/
def announced (s : Manager) : Action → Option Client
  | .announce =>
      match s.main with
      | .locked client => some client
      | _ => none
  | _ => none

/-- The file event that is sent in the step, with its client. -/
def fileEvent (s : Manager) : Action → Option (Client × ReplicaEvent)
  | .uploaded i filename => (s.running[i]?).map fun client => (client, client.uploadEvent filename)
  | .deleted i filename => (s.running[i]?).map fun client => (client, client.deleteEvent filename)
  | _ => none

/-- The users that a joining replica brings. -/
def Action.joining : Action → Option HashTable
  | join _ table => some table
  | _ => none

/-- A client is announced while it has room, file events arrive as they were sent, and a
replica joins with the sessions that are announced. -/
structure Meets (s : Manager) (a : Action) : Prop where
  room : s.Notified → ∀ client ∈ s.announced a, s.HasRoom client
  delivered : s.Notified → ∀ file ∈ s.fileEvent a, file.2.Delivered file.1.username.name
  joined : ∀ table ∈ a.joining, Knows table s.live

/-! ## What an event does to the sessions known -/

theorem Knows.perm {table : HashTable} {clients clients' : List Client} (h : Knows table clients)
    (hperm : clients.Perm clients') : Knows table clients' where
  named client hclient := h.named client (hperm.mem_iff.mpr hclient)
  addresses name := (h.addresses name).trans ((hperm.filter _).map _)

theorem addressesOf_cons_self (client : Client) (clients : List Client) :
    addressesOf (client :: clients) client.replicaName =
      client.session.deviceAddress :: addressesOf clients client.replicaName := by
  simp [addressesOf]

theorem addressesOf_cons_of_ne {client : Client} {name : Bytes} (h : name ≠ client.replicaName)
    (clients : List Client) : addressesOf (client :: clients) name = addressesOf clients name := by
  simp [addressesOf, Ne.symm h]

/-- A client that the table knows of has its address there. -/
theorem Knows.mem {table : HashTable} {clients : List Client} (h : Knows table clients)
    {client : Client} (hclient : client ∈ clients) :
    client.session.deviceAddress ∈ table.addresses client.replicaName := by
  apply (h.addresses client.replicaName).mem_iff.mpr
  exact List.mem_map_of_mem (List.mem_filter.mpr ⟨hclient, by simp⟩)

/-- A table that knows the first clients and reads the text finds what its handler looks for,
and knows the second clients afterwards. -/
def Takes (clients clients' : List Client) (text : Bytes) : Prop :=
  ∀ table, Knows table clients →
    table.FindsFor text ∧ ∀ table' ∈ table.handleText text, Knows table' clients'

theorem delivered_connectedEvent {client : Client} (h : client.replicaName ≠ []) :
    client.connectedEvent.Delivered client.username.name := by
  have hlisted : client.connectedEvent.type.Listed := fun _ h => nomatch h
  apply delivered_of_length hlisted rfl h
  have hlength := length_serializeReplicaEvent_le client.connectedEvent hlisted
  have hname := client.username.length_le
  simp only [Client.connectedEvent, createClientConnectedEvent, Option.getD_some,
    Option.getD_none, List.length_nil, maxUsernameLength] at hlength hname ⊢
  omega

theorem delivered_disconnectedEvent {client : Client} (h : client.replicaName ≠ []) :
    client.disconnectedEvent.Delivered client.username.name := by
  have hlisted : client.disconnectedEvent.type.Listed := fun _ h => nomatch h
  apply delivered_of_length hlisted rfl h
  have hlength := length_serializeReplicaEvent_le client.disconnectedEvent hlisted
  have hname := client.username.length_le
  simp only [Client.disconnectedEvent, createClientDisconnectedEvent, Option.getD_some,
    Option.getD_none, List.length_nil, maxUsernameLength] at hlength hname ⊢
  omega

/-- CONNECTED adds the client while there is room for it. -/
theorem takes_connectedEvent {clients : List Client} {client : Client}
    (hname : client.replicaName ≠ [])
    (hroom : (addressesOf clients client.replicaName).length < maxSessions) :
    Takes clients (client :: clients) (eventPacket client.connectedEvent).payload := by
  have hdelivered := delivered_connectedEvent hname
  have htype : client.connectedEvent.received.type = .clientConnected := hdelivered.type
  have haddress : client.connectedEvent.received.deviceAddress = client.session.deviceAddress :=
    hdelivered.deviceAddress
  intro table hknows
  refine ⟨fun hneeds => ?_, fun table' htable' => ?_⟩
  · change (client.connectedEvent.received.type).NeedsSession at hneeds
    simp [ReplicaEventType.NeedsSession, htype] at hneeds
  · have hevent : table.handleEvent client.connectedEvent.received = some table' := htable'
    simp only [HashTable.handleEvent, htype, hdelivered.username, haddress,
      Option.bind_some] at hevent
    have hfree : (table.addresses client.replicaName).length < maxSessions := by
      rw [(hknows.addresses _).length_eq]
      exact hroom
    obtain ⟨hself, hother⟩ := HashTable.addresses_initializeUserSession hevent hfree
    constructor
    · intro other hmem
      rcases List.mem_cons.mp hmem with rfl | hmem
      · exact hname
      · exact hknows.named other hmem
    · intro name
      by_cases hn : name = client.replicaName
      · subst hn
        rw [addressesOf_cons_self]
        exact hself.trans ((hknows.addresses _).cons _)
      · rw [addressesOf_cons_of_ne hn, hother name hn]
        exact hknows.addresses name

/-- DISCONNECTED takes the client away. -/
theorem takes_disconnectedEvent {clients : List Client} {client : Client} :
    Takes (client :: clients) clients (eventPacket client.disconnectedEvent).payload := by
  intro table hknows
  have hdelivered := delivered_disconnectedEvent (hknows.named client List.mem_cons_self)
  have hmem : client.disconnectedEvent.received.deviceAddress ∈
      table.addresses client.replicaName := by
    rw [hdelivered.deviceAddress]
    exact hknows.mem List.mem_cons_self
  refine ⟨fun _ => HashTable.knowsSession_of_mem hdelivered.username hmem,
    fun table' htable' => ?_⟩
  have hevent : table.handleEvent client.disconnectedEvent.received = some table' := htable'
  have htype : client.disconnectedEvent.received.type = .clientDisconnected := hdelivered.type
  simp only [HashTable.handleEvent, htype] at hevent
  obtain ⟨hself, hother⟩ := HashTable.addresses_clientDisconnected hdelivered.username hmem hevent
  constructor
  · exact fun other hother => hknows.named other (List.mem_cons_of_mem _ hother)
  · intro name
    have hperm := hknows.addresses name
    by_cases hn : name = client.replicaName
    · subst hn
      rw [hdelivered.deviceAddress] at hself
      rw [addressesOf_cons_self] at hperm
      exact (hself.symm.trans hperm).cons_inv
    · rw [addressesOf_cons_of_ne hn] at hperm
      rwa [hother name hn]

/-- A file event of a known client finds its session and changes no slot. -/
theorem takes_fileEvent {clients : List Client} {client : Client} {event : ReplicaEvent}
    (hclient : client ∈ clients) (hdelivered : event.Delivered client.username.name)
    (haddress : event.deviceAddress = client.session.deviceAddress)
    (htype : event.type = .fileUploaded ∨ event.type = .fileDeleted) :
    Takes clients clients (eventPacket event).payload := by
  intro table hknows
  have hmem : event.received.deviceAddress ∈ table.addresses client.replicaName := by
    rw [hdelivered.deviceAddress, haddress]
    exact hknows.mem hclient
  refine ⟨fun _ => HashTable.knowsSession_of_mem hdelivered.username hmem,
    fun table' htable' => ?_⟩
  have hevent : table.handleEvent event.received = some table' := htable'
  obtain ⟨_, session, -, -, hsession⟩ :=
    HashTable.eventSession_of_mem hdelivered.username hmem
  rw [← hdelivered.type] at htype
  obtain rfl : table = table' := by
    rcases htype with htype | htype <;> simpa [HashTable.handleEvent, htype, hsession] using hevent
  exact hknows

/-- Any other event leaves the users alone. -/
theorem takes_other {clients : List Client} {event : ReplicaEvent} (h : event.type.Listed)
    (hlength : (serializeReplicaEvent event).length < 2 ^ 16)
    (htype : event.type = .heartbeat ∨ event.type = .replicaAdded) :
    Takes clients clients (eventPacket event).payload := by
  intro table hknows
  rw [← received_type h hlength] at htype
  refine ⟨fun hneeds => ?_, fun table' htable' => ?_⟩
  · change (event.received.type).NeedsSession at hneeds
    rcases htype with htype | htype <;> simp [ReplicaEventType.NeedsSession, htype] at hneeds
  · have hevent : table.handleEvent event.received = some table' := htable'
    obtain rfl : table = table' := by
      rcases htype with htype | htype <;> simpa [HashTable.handleEvent, htype] using hevent
    exact hknows

theorem takes_heartbeatEvent (clients : List Client) :
    Takes clients clients (eventPacket createHeartbeatEvent).payload := by
  have hlisted : createHeartbeatEvent.type.Listed := fun _ h => nomatch h
  apply takes_other hlisted _ (Or.inl rfl)
  have hlength := length_serializeReplicaEvent_le createHeartbeatEvent hlisted
  simp only [createHeartbeatEvent, Option.getD_none, List.length_nil] at hlength ⊢
  omega

theorem takes_replicaAddedEvent (clients : List Client) {id listenerPort : ℤ} (hid : IsInt id)
    (hport : IsInt listenerPort) (deviceAddress : SockAddrIn) :
    Takes clients clients
      (eventPacket (createReplicaAddedEvent id listenerPort deviceAddress)).payload :=
  takes_other (fun _ h => nomatch h) (length_serialize_replicaAdded hid hport deviceAddress)
    (Or.inr rfl)

/-! ## The invariant -/

/-- From the table on, every text finds what its handler looks for. -/
def FindsAll : HashTable → List Bytes → Prop
  | _, [] => True
  | table, text :: inbox =>
      table.FindsFor text ∧ ∀ table' ∈ table.handleText text, FindsAll table' inbox

theorem findsAll_concat {table : HashTable} {inbox : List Bytes} {text : Bytes} :
    FindsAll table (inbox ++ [text]) ↔
      FindsAll table inbox ∧ ∀ table' ∈ run HashTable.handleText table inbox,
        table'.FindsFor text := by
  induction inbox generalizing table with
  | nil => simp [FindsAll]
  | cons first inbox ih =>
      simp only [List.cons_append, FindsAll, ih, Option.mem_def, run_cons_eq_some]
      constructor
      · rintro ⟨hfirst, h⟩
        exact ⟨⟨hfirst, fun table' h' => (h table' h').1⟩,
          fun last ⟨table', h', hlast⟩ => (h table' h').2 last hlast⟩
      · rintro ⟨⟨hfirst, h⟩, hlast⟩
        exact ⟨hfirst, fun table' h' => ⟨h table' h', fun last h'' => hlast last ⟨table', h', h''⟩⟩⟩

/-- The replica finds what it looks for in all that it has still to read. One that the manager
sends to knows the clients once it has read it. -/
structure Follows (replica : Replica) (clients : List Client) : Prop where
  finds : FindsAll replica.table replica.inbox
  knows : replica.listed = true →
    ∀ table ∈ run HashTable.handleText replica.table replica.inbox, Knows table clients

def AllFollow (s : Manager) : Prop := ∀ r, ∀ replica ∈ s.replicas r, Follows replica s.live

theorem Follows.perm {replica : Replica} {clients clients' : List Client}
    (h : Follows replica clients) (hperm : clients.Perm clients') : Follows replica clients' where
  finds := h.finds
  knows hlisted table htable := (h.knows hlisted table htable).perm hperm

/-- One more event for the replica. -/
theorem Follows.send {replica : Replica} {clients clients' : List Client} {event : ReplicaEvent}
    (h : Follows replica clients)
    (hevent : replica.listed = true → Takes clients clients' (eventPacket event).payload) :
    Follows (replica.send event) clients' := by
  unfold Replica.send
  split
  · rename_i hlisted
    have htakes := hevent hlisted
    constructor
    · apply findsAll_concat.mpr
      exact ⟨h.finds, fun table htable => (htakes table (h.knows hlisted table htable)).1⟩
    · intro _ table' htable'
      obtain ⟨table, htable, hlast⟩ := run_concat_eq_some.mp htable'
      exact (htakes table (h.knows hlisted table htable)).2 table' hlast
  · rename_i hlisted
    exact ⟨h.finds, fun h => absurd h hlisted⟩

/-- The replica handles the next event. -/
theorem Follows.handle {replica : Replica} {clients : List Client} (h : Follows replica clients)
    {text : Bytes} {inbox : List Bytes} (hinbox : replica.inbox = text :: inbox)
    {table : HashTable} (htable : replica.table.handleText text = some table) :
    Follows ⟨table, inbox, replica.listed⟩ clients := by
  have hfinds := h.finds
  rw [hinbox] at hfinds
  refine ⟨hfinds.2 table htable, fun hlisted table' htable' => ?_⟩
  apply h.knows hlisted
  rw [hinbox]
  exact run_cons_eq_some.mpr ⟨table, htable, htable'⟩

theorem AllFollow.of_perm {s t : Manager} (h : s.AllFollow) (hreplicas : t.replicas = s.replicas)
    (hlive : s.live.Perm t.live) : t.AllFollow := by
  intro r replica hreplica
  rw [hreplicas] at hreplica
  exact (h r replica hreplica).perm hlive

/-- An event sent to all carries the replicas from one list of clients to the next. -/
theorem AllFollow.notify {s t : Manager} {event : ReplicaEvent} (h : s.AllFollow)
    (hevent : s.Notified → Takes s.live t.live (eventPacket event).payload)
    (hreplicas : t.replicas = (s.notify event).replicas) : t.AllFollow := by
  intro r replica' hreplica'
  rw [hreplicas] at hreplica'
  obtain ⟨replica, hreplica, rfl⟩ := Option.map_eq_some_iff.mp hreplica'
  exact (h r replica hreplica).send fun hlisted => hevent ⟨r, replica, hreplica, hlisted⟩

/-- A change to one replica alone. -/
theorem AllFollow.update {s : Manager} (h : s.AllFollow) {r : ℕ} {changed : Option Replica}
    (hchanged : ∀ replica ∈ changed, Follows replica s.live) :
    ({ s with replicas := Function.update s.replicas r changed } : Manager).AllFollow := by
  intro r' replica hr'
  change replica ∈ Function.update s.replicas r changed r' at hr'
  by_cases hr : r' = r
  · subst hr
    rw [Function.update_self] at hr'
    exact hchanged replica hr'
  · rw [Function.update_of_ne hr] at hr'
    exact h r' replica hr'

/-! ## Steps and runs -/

theorem mem_live_of_running {s : Manager} {i : ℕ} {client : Client}
    (h : s.running[i]? = some client) : client ∈ s.live :=
  List.mem_append_right _ (List.mem_append_left _ (List.mem_of_getElem? h))

theorem perm_eraseIdx {α : Type*} {l : List α} {i : ℕ} {x : α} (h : l[i]? = some x) :
    l.Perm (x :: l.eraseIdx i) := by
  obtain ⟨hi, rfl⟩ := List.getElem?_eq_some_iff.mp h
  exact (List.getElem_cons_eraseIdx_perm hi).symm

theorem live_perm_of_released {s : Manager} {i : ℕ} {client : Client}
    (h : s.released[i]? = some client) : s.live.Perm
      (client :: (s.main.announcing ++ (s.running ++ s.released.eraseIdx i))) := by
  have hlive := (perm_eraseIdx h).append_left (s.main.announcing ++ s.running)
  simp only [List.append_assoc] at hlive
  refine hlive.trans ?_
  rw [← List.append_assoc, ← List.append_assoc]
  exact List.perm_middle

/-- Every step that meets the condition keeps the replicas up with the clients. -/
theorem allFollow_step {s t : Manager} {a : Action} (h : s.AllFollow) (hmeets : s.Meets a)
    (hstep : step s a = some t) : t.AllFollow := by
  cases a with
  | connect request deviceAddress =>
      simp only [step] at hstep
      split at hstep
      · rename_i hmain
        obtain ⟨found, -, rfl⟩ := Option.map_eq_some_iff.mp hstep
        exact h.of_perm rfl (by simp [live, hmain, MainThread.announcing])
      · cases hstep
  | lock =>
      simp only [step] at hstep
      split at hstep
      · rename_i hmain
        obtain ⟨context, -, rfl⟩ := Option.map_eq_some_iff.mp hstep
        split
        · exact h.of_perm rfl (by simp [live, hmain, MainThread.announcing])
        · exact h.of_perm rfl (by simp [live, hmain, MainThread.announcing])
      · cases hstep
  | announce =>
      simp only [step] at hstep
      split at hstep
      · rename_i client hmain
        obtain rfl := Option.some.inj hstep
        refine h.notify (fun hnotified => ?_) rfl
        obtain ⟨hname, hroom⟩ := hmeets.room hnotified client (by simp [announced, hmain])
        have hlive : s.live = s.running ++ s.released := by
          simp [live, hmain, MainThread.announcing]
        rw [hlive] at hroom ⊢
        exact takes_connectedEvent hname hroom
      · cases hstep
  | start =>
      simp only [step] at hstep
      split at hstep
      · rename_i client hmain
        obtain rfl := Option.some.inj hstep
        exact h.of_perm rfl (by simp [live, hmain, MainThread.announcing])
      · cases hstep
  | fill =>
      simp only [step] at hstep
      split at hstep
      · rename_i client hmain
        obtain rfl := Option.some.inj hstep
        exact h.of_perm rfl (by simp [live, hmain, MainThread.announcing])
      · cases hstep
  | uploaded i filename =>
      obtain ⟨client, hclient, rfl⟩ := Option.map_eq_some_iff.mp hstep
      refine h.notify (fun hnotified => ?_) rfl
      have hdelivered := hmeets.delivered hnotified (client, client.uploadEvent filename)
        (Option.map_eq_some_iff.mpr ⟨client, hclient, rfl⟩)
      exact takes_fileEvent (mem_live_of_running hclient) hdelivered rfl (Or.inl rfl)
  | deleted i filename =>
      obtain ⟨client, hclient, rfl⟩ := Option.map_eq_some_iff.mp hstep
      refine h.notify (fun hnotified => ?_) rfl
      have hdelivered := hmeets.delivered hnotified (client, client.deleteEvent filename)
        (Option.map_eq_some_iff.mpr ⟨client, hclient, rfl⟩)
      exact takes_fileEvent (mem_live_of_running hclient) hdelivered rfl (Or.inr rfl)
  | release i =>
      obtain ⟨client, hclient, hstep⟩ := Option.bind_eq_some_iff.mp hstep
      split at hstep
      · cases hstep
      · obtain rfl := Option.some.inj hstep
        refine h.of_perm rfl (List.Perm.append_left _ ?_)
        exact ((perm_eraseIdx hclient).append_right _).trans List.perm_middle.symm
  | disconnect i =>
      obtain ⟨client, hclient, rfl⟩ := Option.map_eq_some_iff.mp hstep
      exact h.notify (fun _ table hknows =>
        takes_disconnectedEvent table (hknows.perm (live_perm_of_released hclient))) rfl
  | heartbeat =>
      obtain rfl := Option.some.inj hstep
      exact h.notify (fun _ => takes_heartbeatEvent _) rfl
  | replicaAdded id listenerPort deviceAddress =>
      simp only [step] at hstep
      split at hstep
      · rename_i hint
        obtain rfl := Option.some.inj hstep
        exact h.notify (fun _ => takes_replicaAddedEvent _ hint.1 hint.2 _) rfl
      · cases hstep
  | tell r id listenerPort deviceAddress =>
      simp only [step] at hstep
      split at hstep
      · rename_i hint
        obtain rfl := Option.some.inj hstep
        refine h.update fun replica' hreplica' => ?_
        obtain ⟨replica, hreplica, rfl⟩ := Option.map_eq_some_iff.mp hreplica'
        exact (h r replica hreplica).send fun _ => takes_replicaAddedEvent _ hint.1 hint.2 _
      · cases hstep
  | join r table =>
      simp only [step] at hstep
      split at hstep
      · obtain rfl := Option.some.inj hstep
        refine h.update fun replica hreplica => ?_
        obtain rfl := Option.some.inj hreplica
        refine ⟨trivial, fun _ table' htable' => ?_⟩
        obtain rfl := Option.some.inj htable'
        exact hmeets.joined table rfl
      · cases hstep
  | drop r =>
      obtain ⟨replica, hreplica, rfl⟩ := Option.map_eq_some_iff.mp hstep
      refine h.update fun replica' hreplica' => ?_
      obtain rfl := Option.some.inj hreplica'
      exact ⟨(h r replica hreplica).finds, nofun⟩
  | handle r =>
      obtain ⟨replica, hreplica, hstep⟩ := Option.bind_eq_some_iff.mp hstep
      cases hinbox : replica.inbox with
      | nil =>
          rw [hinbox] at hstep
          cases hstep
      | cons text inbox =>
          rw [hinbox] at hstep
          obtain rfl := Option.some.inj hstep
          refine h.update fun replica' hreplica' => ?_
          obtain ⟨table, htable, rfl⟩ := Option.map_eq_some_iff.mp hreplica'
          exact (h r replica hreplica).handle hinbox htable

theorem allFollow_initial (table : HashTable) : (initial table).AllFollow := by
  intro r replica hreplica
  cases hreplica

/-- A replica that follows finds the session of the event that it handles. -/
theorem AllFollow.finds {s : Manager} (h : s.AllFollow) (a : Action) : s.Finds a := by
  intro r _ replica hreplica text htext
  have hfinds := (h r replica hreplica).finds
  cases hinbox : replica.inbox with
  | nil =>
      rw [hinbox] at htext
      cases htext
  | cons first inbox =>
      rw [hinbox] at htext hfinds
      obtain rfl := Option.some.inj htext
      exact hfinds.1

/-- While the condition is met, every event that looks for a session finds it. -/
theorem replicated_events_find_session {table : HashTable} {as : List Action}
    (h : Along step Meets (initial table) as) : Along step Finds (initial table) as :=
  h.of_invariant (fun _ _ _ hs hmeets hstep => allFollow_step hs hmeets hstep)
    (fun _ a hs _ => hs.finds a) (allFollow_initial table)

/-! ## Runs of one user -/

/-- A fresh replica knows that nobody is there. -/
theorem knows_create : Knows HashTable.create [] := by
  constructor
  · intro client hclient
    cases hclient
  · intro name
    exact List.Perm.refl _

/-- A client of the user `alice` from a port of the local host. -/
def letIn (port : UInt16) : List Action :=
  [.connect [97, 108, 105, 99, 101] ⟨⟨127, 0, 0, 1⟩, port⟩, .lock, .announce, .start, .fill]

/-- Two clients come, upload, delete and leave before a third takes a slot. -/
def served : List Action :=
  letIn 5001 ++ letIn 5002 ++ [.handle 0, .uploaded 0 [97], .handle 0, .handle 0, .deleted 1 [97],
    .release 1, .disconnect 0, .heartbeat] ++ letIn 5003 ++
    [.handle 0, .handle 0, .handle 0, .handle 0, .uploaded 0 [98], .handle 0]

/-- The manager after a fresh replica has joined. -/
def withReplica : Manager :=
  { initial HashTable.create with
    replicas := Function.update (fun _ => none) 0 (some ⟨HashTable.create, [], true⟩) }

theorem meets_served : Along step Meets (initial HashTable.create)
    (.join 0 HashTable.create :: served) := by
  intro t ht
  obtain rfl := Option.some.inj ht
  refine ⟨⟨fun _ => nofun, fun _ => nofun, fun table htable => ?_⟩, ?_⟩
  · obtain rfl := Option.some.inj htable
    exact knows_create
  · have hchecked : Along step (fun s a => (∀ client ∈ s.announced a, s.HasRoom client) ∧
        (∀ file ∈ s.fileEvent a, file.2.Delivered file.1.username.name) ∧
        a.joining.isNone = true) withReplica served := by decide +kernel
    refine hchecked.mono fun s a h => ⟨fun _ => h.1, fun _ => h.2.1, fun table htable => ?_⟩
    rw [Option.mem_def.mp htable] at h
    cases h.2.2

theorem served_events_find_session : Along step Finds (initial HashTable.create)
    (.join 0 HashTable.create :: served) :=
  replicated_events_find_session meets_served

/-- A replica that joins while a client is there misses its session at the exit. -/
def joinsLate : List Action :=
  letIn 5001 ++ [.join 0 HashTable.create, .release 0, .disconnect 0, .handle 0]

/-- A client is announced between the release of a slot and its DISCONNECTED. The replica has
no slot for it and misses its session at the upload. -/
def overtakes : List Action :=
  .join 0 HashTable.create :: letIn 5001 ++ letIn 5002 ++ [.release 1] ++ letIn 5003 ++
    [.disconnect 0, .handle 0, .handle 0, .handle 0, .handle 0, .uploaded 0 [97], .handle 0]

theorem replicated_event_without_session :
    (¬ Along step Finds (initial HashTable.create) joinsLate) ∧
      ¬ Along step Finds (initial HashTable.create) overtakes := by
  decide +kernel

end Manager

end SyncServer
