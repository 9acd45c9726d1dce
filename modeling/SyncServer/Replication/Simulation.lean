import SyncServer.Files.RoundTrip
import SyncServer.Library.Transition
import SyncServer.Replication.Related

/-! # The replica simulates the manager

A manager handles the operations of its clients one at a time and sends an event for each, with
the packets of the file. A replica reads them and comes to the same users, slots, lists and files.
-/

namespace SyncServer

open CText Ending Transition

/-! ## A replica reads an event -/

section

variable {σ Path : Type} [DecidableEq Path] (readPacket : σ → Ending Fault (Option Packet × σ))
  (resolve : Bytes → Path) (access : FileAccess Path)

/-- The `switch` of `connect_to_server_thread` on the type of the event. -/
def applyReplicaEvent (event : ReplicaEvent) (store : Store Path) (s : σ) :
    Ending Fault (Store Path × σ) :=
  match event.type with
  | .clientConnected => do
      let username ← deref .nullPointer event.username
      let table ← deref .nullPointer
        (store.table.initializeUserSession event.deviceAddress username)
      done ({ store with table }, s)
  | .clientDisconnected => do
      let table ← deref .nullPointer (store.table.clientDisconnected event)
      done ({ store with table }, s)
  | .fileUploaded | .fileDeleted => do
      let username ← deref .nullPointer event.username
      let (table, session) ← deref .nullPointer (store.table.eventSession event)
      let session ← deref .nullPointer session
      let handled ← handleIncomingFile readPacket resolve access false username session
        { store with table } s
      done (handled.store, handled.rest)
  | _ => done (store, s)

/-- One iteration of the communication loop in which the connection has data. -/
def readReplicaPacket (store : Store Path) (s : σ) : Ending Fault (Store Path × σ) := do
  let (packet, s) ← readPacket s
  let packet ← deref .nullPointer packet
  match packet.type with
  | .replicaMsg =>
      applyReplicaEvent readPacket resolve access (deserializeReplicaEvent packet.payload) store s
  | _ => done (store, s)

end

/-! ## The operations of the clients -/

/-- What a client asks of its manager, and the rounds of `send_f`. The packets of an upload are
those that `send_file` writes. -/
inductive ClientOperation where
  | connect (request : Bytes) (deviceAddress : SockAddrIn)
  | upload (username : Bytes) (slot : ℕ) (filename content : Bytes)
  | deletion (username : Bytes) (slot : ℕ) (packet : Packet)
  | command (username : Bytes) (slot : ℕ) (packet : Packet)
  | deliver (username : Bytes) (slot : ℕ)
  deriving DecidableEq, Repr

section

variable {Path : Type} [DecidableEq Path] (resolve : Bytes → Path)
  (access backupAccess : FileAccess Path)

/-- What the manager makes of an operation that it handles to its end: the store, and the event
for the replicas. -/
def Store.operate (store : Store Path) :
    ClientOperation → Option (Store Path × Option ReplicaEvent)
  | .connect request deviceAddress =>
      (handleNewConnection store.table (some request) true true deviceAddress).returned.map
        fun (_, table, session) => ({ store with table }, session.map Prod.snd)
  | .upload username slot filename content =>
      (store.session username slot).bind fun session =>
        (handleIncomingFile Socket.readPacket resolve access true username session store
          ⟨sendFile filename content, .stalled⟩).returned.bind fun handled =>
            if handled.rest.packets = [] then some (handled.store, handled.event) else none
  | .deletion username slot packet =>
      if packet.type = .delete then
        (store.session username slot).bind fun session =>
          (handleIncomingFile Socket.readPacket resolve access true username session store
            ⟨[packet], .stalled⟩).returned.map fun handled => (handled.store, handled.event)
      else none
  | .command username slot packet =>
      (store.session username slot).bind fun session =>
        (interface Socket.readPacket resolve access true username session store
          ⟨[packet], .stalled⟩).returned.map fun handled => (handled.store, handled.event)
  | .deliver username slot =>
      (store.session username slot).bind fun session =>
        (getNextFileToSync session).map fun (_, session) =>
          ({ store with table := store.table.modify username (·.addSession session) }, none)

/-- A manager, what it has sent and the replica has not read, and the replica. -/
structure Replication (Path : Type) where
  manager : Store Path
  stream : List Packet
  backup : Store Path

inductive Replication.Action where
  | operate (operation : ClientOperation)
  | heartbeat
  | iterate
  deriving DecidableEq, Repr

namespace Replication

/-- Nobody is connected, and the folders are alike. -/
def initial (disk : Disk Path) : Replication Path :=
  ⟨⟨HashTable.create, disk⟩, [], ⟨HashTable.create, disk⟩⟩

def step (s : Replication Path) : Action → Option (Replication Path)
  | .operate operation =>
      (s.manager.operate resolve access operation).map fun (manager, event) =>
        { s with
          manager
          stream := s.stream ++ (event.map (sendEvent resolve manager.disk)).getD [] }
  | .heartbeat =>
      some { s with stream := s.stream ++ sendEvent resolve s.manager.disk createHeartbeatEvent }
  | .iterate =>
      (readReplicaPacket Socket.readPacket resolve backupAccess s.backup
        ⟨s.stream, .stalled⟩).returned.map fun (backup, rest) =>
          { s with stream := rest.packets, backup }

/-! ## The promises -/

/-- `remove` succeeds on both servers. -/
def Removed (filepath : Option Bytes) : Prop :=
  (filepath.map resolve).any (fun path => access.removes path && backupAccess.removes path) = true

instance (filepath : Option Bytes) : Decidable (Removed resolve access backupAccess filepath) :=
  inferInstanceAs (Decidable (_ = _))

/-- Names that the events can carry, an address for each live session, and operations on files
that succeed. A name is a C string. -/
def Promised (s : Replication Path) : Action → Prop
  | .operate (.connect request deviceAddress) =>
      Carried (readUsername request).name ∧
        deviceAddress ∉ s.manager.table.addresses (readUsername request).name
  | .operate (.upload username _ filename _) =>
      0 ∉ filename ∧
        (opened resolve access (userFilepath username filename)).isSome = true ∧
        (opened resolve backupAccess (userFilepath username filename)).isSome = true
  | .operate (.deletion username _ packet) =>
      Removed resolve access backupAccess (userFilepath username (cString packet.payload))
  | .operate (.command username _ packet) =>
      packet.type = .delete →
        accessible resolve access (userFilepath username (cString packet.payload))
            s.manager.disk = true →
          Removed resolve access backupAccess (userFilepath username (cString packet.payload))
  | .operate (.deliver ..) | .heartbeat | .iterate => True

instance (s : Replication Path) : ∀ a, Decidable (Promised resolve access backupAccess s a)
  | .operate (.connect ..) => inferInstanceAs (Decidable (_ ∧ _))
  | .operate (.upload ..) => inferInstanceAs (Decidable (_ ∧ _ ∧ _))
  | .operate (.deletion ..) => inferInstanceAs (Decidable (Removed ..))
  | .operate (.command ..) => inferInstanceAs (Decidable (_ → _ → _))
  | .operate (.deliver ..) | .heartbeat | .iterate => inferInstanceAs (Decidable True)

end Replication

end

/-! ## What the replica reads -/

section

variable {Path : Type} [DecidableEq Path] {resolve : Bytes → Path}
  {access backupAccess : FileAccess Path}

/-- The replica reads the packets in one iteration, whatever follows them. -/
def Reading (resolve : Bytes → Path) (access : FileAccess Path) (store : Store Path)
    (packets : List Packet) (store' : Store Path) : Prop :=
  ∀ rest, readReplicaPacket Socket.readPacket resolve access store
    ⟨packets ++ rest, .stalled⟩ = done (store', ⟨rest, .stalled⟩)

theorem reading_event {event : ReplicaEvent} {packets : List Packet} {store store' : Store Path}
    (h : ∀ rest, applyReplicaEvent Socket.readPacket resolve access event.received store
      ⟨packets ++ rest, .stalled⟩ = done (store', ⟨rest, .stalled⟩)) :
    Reading resolve access store (eventPacket event :: packets) store' := h

theorem reading_connected {username : Bytes} {address : SockAddrIn} {store : Store Path}
    {table : HashTable}
    (hdelivered : (createClientConnectedEvent username address).Delivered username)
    (hcarried : Carried username)
    (htable : store.table.initializeUserSession address username = some table) :
    Reading resolve access store [eventPacket (createClientConnectedEvent username address)]
      { store with table } := by
  refine reading_event fun rest => ?_
  have htype : (createClientConnectedEvent username address).received.type = .clientConnected :=
    hdelivered.type
  have haddress : (createClientConnectedEvent username address).received.deviceAddress = address :=
    hdelivered.deviceAddress
  simp only [applyReplicaEvent, htype, haddress, hdelivered.username, nameToken_of_carried hcarried,
    deref_some, bind_done, htable, List.nil_append]

theorem reading_disconnected {username : Bytes} {address : SockAddrIn} {store : Store Path}
    {context : UserContext} {found : Session}
    (hdelivered : (createClientDisconnectedEvent username address).Delivered username)
    (hcarried : Carried username) (hfind : store.table.find username = some context)
    (hfound : context.getUserSessionByAddress address = some found) :
    Reading resolve access store [eventPacket (createClientDisconnectedEvent username address)]
      { store with table := store.table.modify username (·.removeSession found.sessionIndex) } := by
  refine reading_event fun rest => ?_
  have htype : (createClientDisconnectedEvent username address).received.type =
      .clientDisconnected := hdelivered.type
  have haddress : (createClientDisconnectedEvent username address).received.deviceAddress =
      address := hdelivered.deviceAddress
  simp only [applyReplicaEvent, htype, HashTable.clientDisconnected, HashTable.eventSession,
    haddress, hdelivered.username, nameToken_of_carried hcarried, Option.bind_some,
    HashTable.getOrCreateContext_of_find hfind, Option.map_some, hfound, deref_some, bind_done,
    List.nil_append]

/-- The event of a file, with the packets that are read for it. -/
theorem reading_file {event : ReplicaEvent} {username : Bytes}
    (htype : event.type = .fileUploaded ∨ event.type = .fileDeleted)
    (hdelivered : event.Delivered username) (hcarried : Carried username)
    {store store' : Store Path} {context : UserContext} {found : Session}
    (hfind : store.table.find username = some context)
    (hfound : context.getUserSessionByAddress event.deviceAddress = some found)
    {packets : List Packet}
    (hhandled : ∀ rest, ∃ handled, handleIncomingFile Socket.readPacket resolve access false
      username found store ⟨packets ++ rest, .stalled⟩ = done handled ∧ handled.store = store' ∧
        handled.rest = ⟨rest, .stalled⟩) :
    Reading resolve access store (eventPacket event :: packets) store' := by
  refine reading_event fun rest => ?_
  obtain ⟨handled, hdone, rfl, hrest⟩ := hhandled rest
  have hsession : store.table.eventSession event.received = some (store.table, some found) := by
    simp only [HashTable.eventSession, hdelivered.username, nameToken_of_carried hcarried,
      Option.bind_some, HashTable.getOrCreateContext_of_find hfind, Option.map_some,
      hdelivered.deviceAddress, hfound]
  have hfile : event.received.type = .fileUploaded ∨ event.received.type = .fileDeleted := by
    rw [hdelivered.type]
    exact htype
  rcases hfile with hfile | hfile <;>
    simp only [applyReplicaEvent, hfile, hdelivered.username, nameToken_of_carried hcarried,
      deref_some, bind_done, hsession, hdone, hrest]

theorem reading_heartbeat (store : Store Path) :
    Reading resolve access store [eventPacket createHeartbeatEvent] store := by
  refine reading_event fun rest => ?_
  have htype : createHeartbeatEvent.received.type = .heartbeat := by decide +kernel
  simp only [applyReplicaEvent, htype, List.nil_append]

/-! ## What an operation does to both servers -/

/-- The replica catches up with the manager when it reads what is sent for the operation. -/
def Matched (resolve : Bytes → Path) (access : FileAccess Path) (backup manager : Store Path) :
    Option ReplicaEvent → Prop
  | none => CaughtUp manager backup
  | some event => ∃ backup',
      Reading resolve access backup (sendEvent resolve manager.disk event) backup' ∧
        CaughtUp manager backup'

variable {manager manager' backup : Store Path} {event : Option ReplicaEvent}

/-- The texts of these events fit into a packet. -/
theorem delivered_of_lengths {event : ReplicaEvent} {name : Bytes} (h : event.type.Listed)
    (hname : event.username = some name) (hcarried : Carried name)
    (hlength : name.length ≤ maxUsernameLength)
    (hfile : (event.filepath.getD []).length ≤ pathMax) : event.Delivered name := by
  refine delivered_of_length h hname (by rw [nameToken_of_carried hcarried]; exact hcarried.1) ?_
  have htext := length_serializeReplicaEvent_le event h
  rw [hname] at htext
  simp only [Option.getD_some, maxUsernameLength, pathMax] at htext hlength hfile
  omega

/-! ### Connections -/

theorem matched_connect (h : CaughtUp manager backup) {request : Bytes} {address : SockAddrIn}
    (hcarried : Carried (readUsername request).name)
    (hfresh : address ∉ manager.table.addresses (readUsername request).name)
    (hstep : manager.operate resolve access (.connect request address) = some (manager', event)) :
    Matched resolve backupAccess backup manager' event := by
  obtain ⟨⟨username, table, session⟩, hreturned, heq⟩ := Option.map_eq_some_iff.mp hstep
  have hdone := returned_eq_some.mp hreturned
  simp only [handleNewConnection, deref_some, bind_done, Bool.and_self, ite_true] at hdone
  obtain ⟨⟨table₁, session₁⟩, hinit, hresult⟩ := bind_eq_done.mp hdone
  cases hresult
  obtain ⟨⟨table₂, context⟩, hderef, hfill⟩ := bind_eq_done.mp hinit
  have hcreate := deref_eq_done.mp hderef
  obtain ⟨table₃, context', hcreate', hsim, hmanager, hbackup⟩ := h.getOrCreateContext hcreate
  have hname : Carried (readUsername request).name ∧
      (readUsername request).name.length ≤ maxUsernameLength :=
    ⟨hcarried, (readUsername request).length_le⟩
  dsimp only at hfill
  cases hindex : context.findFreeSessionIndex with
  | none =>
      -- all slots are taken, so the user was there before
      simp only [hindex] at hfill
      cases hfill
      cases heq
      cases hfound : manager.table.find (readUsername request).name with
      | none =>
          obtain ⟨-, hcontext, -⟩ := HashTable.find_getOrCreateContext hcreate
          rw [hfound] at hcontext
          rw [hcontext] at hindex
          cases hindex
      | some old =>
          rw [HashTable.getOrCreateContext_of_find hfound] at hcreate
          cases hcreate
          exact h
  | some index =>
      simp only [hindex] at hfill
      cases hfill
      cases heq
      have haddresses :
          context.addresses = manager.table.addresses (readUsername request).name := by
        rw [← HashTable.addresses_of_find hmanager.find,
          HashTable.addresses_getOrCreateContext hcreate]
      have hsim' := hsim.addSession hindex (haddresses ▸ hfresh)
      have hinit' : backup.table.initializeUserSession address (readUsername request).name =
          some (table₃.modify (readUsername request).name
            (·.addSession (createSession index address))) := by
        rw [HashTable.initializeUserSession, hcreate', Option.map_some]
        simp only [hsim.findFreeSessionIndex, hindex]
      have hdelivered : (createClientConnectedEvent (readUsername request).name address).Delivered
          (readUsername request).name :=
        delivered_of_lengths nofun rfl hname.1 hname.2 (by simp [createClientConnectedEvent])
      refine ⟨_, reading_connected hdelivered hcarried hinit', ?_⟩
      exact h.replaces (hmanager.trans (HashTable.replaces_modify hmanager.find _))
        (hbackup.trans (HashTable.replaces_modify hbackup.find _)) hsim' hname h.disk

/-! ### Exits -/

theorem matched_exit (h : CaughtUp manager backup) {username : Bytes} {slot : ℕ}
    {session : Session} (hsession : manager.session username slot = some session) :
    Matched resolve backupAccess backup (handleExit username session manager).1
      (some (handleExit username session manager).2) := by
  obtain ⟨context, context', hfind, hfind', hsim, hslot, hindex, -⟩ := h.session hsession
  obtain ⟨found, hfound, hfoundIndex, -⟩ := hsim.same.getUserSessionByAddress hslot
  obtain ⟨hcarried, hlength⟩ := h.named username context hfind
  have hdelivered :
      (createClientDisconnectedEvent username session.deviceAddress).Delivered username :=
    delivered_of_lengths nofun rfl hcarried hlength (by simp [createClientDisconnectedEvent])
  refine ⟨_, reading_disconnected hdelivered hcarried hfind' hfound, ?_⟩
  have hmanager := HashTable.replaces_modify hfind (·.removeSession session.sessionIndex)
  have hbackup := HashTable.replaces_modify hfind' (·.removeSession found.sessionIndex)
  rw [hindex] at hmanager
  rw [hfoundIndex] at hbackup ⊢
  simp only [handleExit, hindex]
  exact h.replaces hmanager hbackup (hsim.removeSession hslot) ⟨hcarried, hlength⟩ h.disk

/-! ### Uploads -/

section

variable {username filename : Bytes} {path : Path} {n : ℕ} {data : List Packet}
  {isManager : Bool} {session : Session} {store : Store Path}

/-- An upload that was handled to its end had as many packets as were announced. -/
theorem eq_of_handled (hn : n < 2 ^ 64) (hzero : 0 ∉ filename)
    (hopened : opened resolve access (userFilepath username filename) = some path)
    {handled : Handled Path Socket}
    (h : handleIncomingFile Socket.readPacket resolve access isManager username session store
      ⟨announcementPacket filename n :: data, .stalled⟩ = done handled)
    (hrest : handled.rest.packets = []) : n = data.length := by
  have hread : Socket.readPacket ⟨announcementPacket filename n :: data, .stalled⟩ =
      done (some (announcementPacket filename n), ⟨data, .stalled⟩) := rfl
  rcases Nat.lt_or_ge data.length n with hfew | henough
  · have hreads := Socket.reads data [] .stalled
    rw [List.append_nil] at hreads
    have hwrite := hreads.writePackets_waits rfl hfew []
    rw [handleIncomingFile_waits hn hzero hopened hread hwrite] at h
    cases h
  · have hwrite := Socket.writePackets_done henough .stalled
    rw [handleIncomingFile_stored hn hzero hopened hread hwrite] at h
    obtain ⟨table, -, h⟩ := bind_eq_done.mp h
    cases h
    exact Nat.le_antisymm henough (List.drop_eq_nil_iff.mp hrest)

/-- What `send_file` writes is stored if the number of packets fits the announcement. -/
theorem handleIncomingFile_sendFile {content : Bytes} (hzero : 0 ∉ filename)
    (hopened : opened resolve access (userFilepath username filename) = some path)
    (hcount : numPackets content.length = chunkCount content.length) (rest : List Packet) :
    handleIncomingFile Socket.readPacket resolve access isManager username session store
        ⟨sendFile filename content ++ rest, .stalled⟩ =
      (incomingList isManager username session store.table .send filename (some content) >>=
        fun table => done ⟨true, ⟨table, Function.update store.disk path (some content)⟩,
          fileEvent isManager username session .send filename, [], ⟨rest, .stalled⟩⟩) := by
  have hread : Socket.readPacket ⟨sendFile filename content ++ rest, .stalled⟩ =
      done (some (announcementPacket filename (numPackets content.length)),
        ⟨(readFileChunks content).map (createTextPacket .data) ++ rest, .stalled⟩) := rfl
  have hwrite := (Socket.reads ((readFileChunks content).map (createTextPacket .data)) rest
    .stalled).writePackets_done
  rw [length_map_readFileChunks, ← hcount, List.map_map] at hwrite
  have hcontent : (((readFileChunks content).map
      (Packet.payload ∘ createTextPacket .data)).flatten) = content := flatten_data content
  rw [hcontent] at hwrite
  exact handleIncomingFile_stored (numPackets_lt _) hzero hopened hread hwrite

end

theorem matched_upload (h : CaughtUp manager backup) {username : Bytes} {slot : ℕ}
    {filename content : Bytes} (hzero : 0 ∉ filename)
    (hopens : (opened resolve access (userFilepath username filename)).isSome = true)
    (hopens' : (opened resolve backupAccess (userFilepath username filename)).isSome = true)
    (hstep : manager.operate resolve access (.upload username slot filename content) =
      some (manager', event)) : Matched resolve backupAccess backup manager' event := by
  obtain ⟨session, hsession, hhandled⟩ := Option.bind_eq_some_iff.mp hstep
  obtain ⟨handled, hreturned, hempty⟩ := Option.bind_eq_some_iff.mp hhandled
  have hdone := returned_eq_some.mp hreturned
  split at hempty
  swap
  · cases hempty
  · rename_i hrest
    cases hempty
    obtain ⟨context, context', hfind, hfind', hsim, hslot, hindex, hactive⟩ := h.session hsession
    obtain ⟨hcarried, hlength⟩ := h.named username context hfind
    obtain ⟨path, hopened⟩ := Option.isSome_iff_exists.mp hopens
    obtain ⟨path', hopened'⟩ := Option.isSome_iff_exists.mp hopens'
    obtain ⟨hpath, -⟩ := Option.filter_eq_some_iff.mp hopened
    obtain ⟨hpath', -⟩ := Option.filter_eq_some_iff.mp hopened'
    obtain rfl := Option.some.inj (hpath.symm.trans hpath')
    have hcount := eq_of_handled (numPackets_lt content.length) hzero hopened hdone hrest
    rw [length_map_readFileChunks] at hcount
    -- the manager
    have hmanager := @handleIncomingFile_sendFile Path _ resolve access username filename path true
      session manager content hzero hopened hcount []
    rw [List.append_nil, hdone] at hmanager
    obtain ⟨table, htable, hresult⟩ := bind_eq_done.mp hmanager.symm
    cases hresult
    simp only [incomingList, hactive, ite_true] at htable
    obtain ⟨context₁, hreplaces, hhanded⟩ := HashTable.handed_of_fileReceived hfind htable
    -- the replica
    obtain ⟨found, hfound, hfoundIndex, hfoundSlot⟩ := hsim.same.getUserSessionByAddress hslot
    have hfoundActive := hsim.backupActive slot found hfoundSlot
    obtain ⟨table', htable'⟩ := @HashTable.fileReceived_returns backup.table username context'
      hfind' false found.sessionIndex nofun filename (some content)
    obtain ⟨context₂, hreplaces', hhanded'⟩ := HashTable.handed_of_fileReceived hfind' htable'
    rw [← hsim.same.fileList] at hhanded'
    have hdelivered : (createFileUploadEvent username session.deviceAddress filename).Delivered
        username :=
      delivered_of_lengths nofun rfl hcarried hlength (length_of_opened hopened)
    have hreading : Reading resolve backupAccess backup
        (eventPacket (createFileUploadEvent username session.deviceAddress filename) ::
          sendFile filename content)
        ⟨table', Function.update backup.disk path (some content)⟩ := by
      refine reading_file (.inl rfl) hdelivered hcarried hfind' hfound fun rest => ?_
      refine ⟨⟨true, _, none, [], ⟨rest, .stalled⟩⟩, ?_, rfl, rfl⟩
      rw [handleIncomingFile_sendFile hzero hopened' hcount rest]
      simp only [incomingList, hfoundActive, ite_true, htable', bind_done]
      rfl
    have hsent : sendEvent resolve (Function.update manager.disk path (some content))
        (createFileUploadEvent username session.deviceAddress filename) =
        eventPacket (createFileUploadEvent username session.deviceAddress filename) ::
          sendFile filename content := by
      simp [sendEvent, createFileUploadEvent, fileAt, hpath]
    refine ⟨_, hsent ▸ hreading, ?_⟩
    exact h.replaces hreplaces hreplaces' (hsim.handed hhanded hhanded') ⟨hcarried, hlength⟩
      (by rw [h.disk])

/-! ### Deletions -/

omit [DecidableEq Path] in
theorem length_of_removed {username filename : Bytes}
    (h : Replication.Removed resolve access backupAccess (userFilepath username filename)) :
    filename.length ≤ pathMax := by
  cases hfilepath : userFilepath username filename with
  | none =>
      rw [hfilepath] at h
      cases h
  | some filepath =>
      exact (Nat.le_add_right _ 2).trans (length_filename_of_createFilepath hfilepath)

theorem removePath_eq_of_removed {filepath : Option Bytes}
    (h : Replication.Removed resolve access backupAccess filepath) (disk : Disk Path) :
    removePath resolve access filepath disk = removePath resolve backupAccess filepath disk := by
  cases hpath : filepath.map resolve with
  | none => simp [removePath, hpath]
  | some path =>
      simp only [Replication.Removed, hpath, Option.any_some, Bool.and_eq_true] at h
      simp only [removePath, hpath, Option.filter_some, h.1, h.2, ite_true]

/-- The manager has taken the name from the list and removed the file, in whatever order. -/
theorem matched_delete (h : CaughtUp manager backup) {username : Bytes} {slot : ℕ}
    {session : Session} (hsession : manager.session username slot = some session)
    {filename : Bytes} (hzero : 0 ∉ filename)
    (hremoved : Replication.Removed resolve access backupAccess (userFilepath username filename))
    {table : HashTable} {content : Option Bytes}
    (htable : manager.table.removeFileFromUserList true username session.sessionIndex filename
      content = done table) :
    Matched resolve backupAccess backup
      ⟨table, removePath resolve access (userFilepath username filename) manager.disk⟩
      (some (createFileDeleteEvent username session.deviceAddress filename)) := by
  obtain ⟨context, context', hfind, hfind', hsim, hslot, hindex, hactive⟩ := h.session hsession
  obtain ⟨hcarried, hlength⟩ := h.named username context hfind
  obtain ⟨context₁, hreplaces, hhanded⟩ := HashTable.handed_of_removeFileFromUserList hfind htable
  have hfilename := length_of_removed hremoved
  -- the replica
  obtain ⟨found, hfound, hfoundIndex, hfoundSlot⟩ := hsim.same.getUserSessionByAddress hslot
  have hfoundActive := hsim.backupActive slot found hfoundSlot
  obtain ⟨table', htable'⟩ := @HashTable.removeFileFromUserList_returns backup.table username
    context' hfind' false found.sessionIndex nofun filename
    (fileAt resolve (userFilepath username filename)
      (removePath resolve backupAccess (userFilepath username filename) backup.disk))
  obtain ⟨context₂, hreplaces', hhanded'⟩ :=
    HashTable.handed_of_removeFileFromUserList hfind' htable'
  rw [← hsim.same.fileList] at hhanded'
  have hdelivered : (createFileDeleteEvent username session.deviceAddress filename).Delivered
      username :=
    delivered_of_lengths nofun rfl hcarried hlength hfilename
  have hpayload : cString (createTextPacket .delete filename).payload = filename := by
    rw [payload_createTextPacket (by simp only [pathMax] at hfilename; omega),
      cString_of_zero_not_mem hzero]
  have hreading : Reading resolve backupAccess backup
      [eventPacket (createFileDeleteEvent username session.deviceAddress filename),
        createTextPacket .delete filename]
      ⟨table', removePath resolve backupAccess (userFilepath username filename) backup.disk⟩ := by
    refine reading_file (.inr rfl) hdelivered hcarried hfind' hfound fun rest => ?_
    have hread : Socket.readPacket ⟨[createTextPacket .delete filename] ++ rest, .stalled⟩ =
        done (some (createTextPacket .delete filename), ⟨rest, .stalled⟩) := rfl
    refine ⟨⟨true, _, none, [], ⟨rest, .stalled⟩⟩, ?_, rfl, rfl⟩
    rw [handleIncomingFile_delete hread rfl, hpayload]
    simp only [incomingList, hfoundActive, ite_true, htable', bind_done]
    rfl
  refine ⟨_, hreading, ?_⟩
  exact h.replaces hreplaces hreplaces' (hsim.handed hhanded hhanded') ⟨hcarried, hlength⟩
    (by rw [h.disk, removePath_eq_of_removed hremoved])

theorem matched_deletion (h : CaughtUp manager backup) {username : Bytes} {slot : ℕ}
    {packet : Packet}
    (hremoved : Replication.Removed resolve access backupAccess
      (userFilepath username (cString packet.payload)))
    (hstep : manager.operate resolve access (.deletion username slot packet) =
      some (manager', event)) : Matched resolve backupAccess backup manager' event := by
  simp only [Store.operate] at hstep
  split at hstep
  · rename_i htype
    obtain ⟨session, hsession, hhandled⟩ := Option.bind_eq_some_iff.mp hstep
    obtain ⟨handled, hreturned, hresult⟩ := Option.map_eq_some_iff.mp hhandled
    cases hresult
    have hread : Socket.readPacket ⟨[packet], .stalled⟩ =
        done (some packet, ⟨[], .stalled⟩) := rfl
    have hdone := returned_eq_some.mp hreturned
    rw [handleIncomingFile_delete hread htype] at hdone
    obtain ⟨table, htable, hresult⟩ := bind_eq_done.mp hdone
    cases hresult
    obtain ⟨-, -, -, -, -, -, -, hactive⟩ := h.session hsession
    simp only [incomingList, hactive, ite_true] at htable
    exact matched_delete h hsession (zero_not_mem_cString _) hremoved htable
  · cases hstep

theorem matched_command (h : CaughtUp manager backup) {username : Bytes} {slot : ℕ}
    {packet : Packet}
    (hremoved : packet.type = .delete →
      accessible resolve access (userFilepath username (cString packet.payload))
          manager.disk = true →
        Replication.Removed resolve access backupAccess
          (userFilepath username (cString packet.payload)))
    (hstep : manager.operate resolve access (.command username slot packet) =
      some (manager', event)) : Matched resolve backupAccess backup manager' event := by
  obtain ⟨session, hsession, hhandled⟩ := Option.bind_eq_some_iff.mp hstep
  obtain ⟨handled, hreturned, hresult⟩ := Option.map_eq_some_iff.mp hhandled
  cases hresult
  have hread : Socket.readPacket ⟨[packet], .stalled⟩ = done (some packet, ⟨[], .stalled⟩) := rfl
  have hdone := returned_eq_some.mp hreturned
  simp only [interface, hread, bind_done, deref_some] at hdone
  cases htype : packet.type with
  | list =>
      simp only [htype] at hdone
      obtain ⟨sent, -, hresult⟩ := bind_eq_done.mp hdone
      cases hresult
      exact h
  | delete =>
      simp only [htype] at hdone
      obtain ⟨⟨store, event⟩, hdelete, hresult⟩ := bind_eq_done.mp hdone
      cases hresult
      simp only [handleDelete] at hdelete
      split at hdelete
      · rename_i haccess
        obtain ⟨table, htable, hresult⟩ := bind_eq_done.mp hdelete
        cases hresult
        exact matched_delete h hsession (zero_not_mem_cString _) (hremoved htype haccess) htable
      · cases hdelete
        exact h
  | exit | connectionClosed =>
      simp only [htype] at hdone
      cases hdone
      exact matched_exit h hsession
  | download | data | send | replicaMsg | error | reconnect | other =>
      simp only [htype] at hdone
      cases hdone
      exact h

/-- The send threads change nothing that the replica has. -/
theorem matched_deliver (h : CaughtUp manager backup) {username : Bytes} {slot : ℕ}
    (hstep : manager.operate resolve access (.deliver username slot) = some (manager', event)) :
    Matched resolve backupAccess backup manager' event := by
  obtain ⟨session, hsession, htaken⟩ := Option.bind_eq_some_iff.mp hstep
  obtain ⟨⟨entry, session'⟩, hnext, hresult⟩ := Option.map_eq_some_iff.mp htaken
  cases hresult
  obtain ⟨context, context', hfind, hfind', hsim, hslot, -, -⟩ := h.session hsession
  exact h.replaces (HashTable.replaces_modify hfind _) (HashTable.replaces_self hfind')
    (hsim.deliver hslot hnext) (h.named username context hfind) h.disk

end

/-! ## Runs -/

namespace Replication

variable {Path : Type} [DecidableEq Path] {resolve : Bytes → Path}
  {access backupAccess : FileAccess Path}

/-- Every operation that is handled to its end is matched by the replica. -/
theorem matched_operate {s : Replication Path} {store : Store Path}
    (h : CaughtUp s.manager store) {operation : ClientOperation}
    (hpromised : s.Promised resolve access backupAccess (.operate operation))
    {manager' : Store Path} {event : Option ReplicaEvent}
    (hstep : s.manager.operate resolve access operation = some (manager', event)) :
    Matched resolve backupAccess store manager' event := by
  cases operation with
  | connect request deviceAddress => exact matched_connect h hpromised.1 hpromised.2 hstep
  | upload username slot filename content =>
      exact matched_upload h hpromised.1 hpromised.2.1 hpromised.2.2 hstep
  | deletion username slot packet => exact matched_deletion h hpromised hstep
  | command username slot packet => exact matched_command h hpromised hstep
  | deliver username slot => exact matched_deliver h hstep

/-- Reading the stream, iteration by iteration, takes the replica from one store to another. -/
inductive Reaches (resolve : Bytes → Path) (access : FileAccess Path) :
    Store Path → List Packet → Store Path → Prop where
  | nil (store) : Reaches resolve access store [] store
  | cons {store store₁ store₂ packets stream} (h : Reading resolve access store packets store₁)
      (hrest : Reaches resolve access store₁ stream store₂) :
      Reaches resolve access store (packets ++ stream) store₂

theorem Reaches.concat {store store₁ store₂ : Store Path} {stream packets : List Packet}
    (h : Reaches resolve access store stream store₁)
    (h' : Reading resolve access store₁ packets store₂) :
    Reaches resolve access store (stream ++ packets) store₂ := by
  induction h with
  | nil store =>
      rw [List.nil_append, ← List.append_nil packets]
      exact .cons h' (.nil store₂)
  | cons hfirst hrest ih =>
      rw [List.append_assoc]
      exact .cons hfirst (ih h')

/-- An iteration reads the packets that it is for. -/
theorem step_iterate {s : Replication Path} {packets stream : List Packet} {store : Store Path}
    (h : Reading resolve backupAccess s.backup packets store)
    (hstream : s.stream = packets ++ stream) :
    step resolve access backupAccess s .iterate = some { s with stream, backup := store } := by
  simp only [step, hstream, h stream, returned, Option.map_some]

/-- On an empty stream the replica waits. -/
theorem step_iterate_nil {s : Replication Path} (h : s.stream = []) :
    step resolve access backupAccess s .iterate = none := by
  simp only [step, h, readReplicaPacket, Socket.readPacket, bind_waits, returned, Option.map_none]

/-- What is under way takes the replica to where the manager is. -/
def Follows (resolve : Bytes → Path) (access : FileAccess Path) (s : Replication Path) : Prop :=
  ∃ store, Reaches resolve access s.backup s.stream store ∧ CaughtUp s.manager store

theorem follows_initial (disk : Disk Path) : Follows resolve backupAccess (initial disk) := by
  refine ⟨_, .nil _, fun name => ?_, fun name context hfind => ?_, rfl⟩
  · exact .none
  · cases hfind

theorem follows_step {s t : Replication Path} {a : Action}
    (h : s.Follows resolve backupAccess) (hpromised : s.Promised resolve access backupAccess a)
    (hstep : step resolve access backupAccess s a = some t) : t.Follows resolve backupAccess := by
  obtain ⟨store, hreaches, hcaught⟩ := h
  cases a with
  | operate operation =>
      obtain ⟨⟨manager, event⟩, hoperate, rfl⟩ := Option.map_eq_some_iff.mp hstep
      have hmatched := matched_operate hcaught hpromised hoperate
      cases event with
      | none =>
          refine ⟨store, ?_, hmatched⟩
          simpa using hreaches
      | some event =>
          obtain ⟨store', hreading, hcaught'⟩ := hmatched
          exact ⟨store', hreaches.concat hreading, hcaught'⟩
  | heartbeat =>
      obtain rfl := Option.some.inj hstep
      exact ⟨store, hreaches.concat (reading_heartbeat store), hcaught⟩
  | iterate =>
      obtain ⟨manager, stream, backup⟩ := s
      cases hreaches with
      | nil =>
          rw [step_iterate_nil rfl] at hstep
          cases hstep
      | cons hfirst hrest =>
          rw [step_iterate hfirst rfl] at hstep
          obtain rfl := Option.some.inj hstep
          exact ⟨store, hrest, hcaught⟩

/-- The replica can read all that is under way. -/
theorem Reaches.iterate {backup store : Store Path} {stream : List Packet}
    (h : Reaches resolve backupAccess backup stream store) (manager : Store Path) :
    ∃ n, run (step resolve access backupAccess) ⟨manager, stream, backup⟩
      (List.replicate n .iterate) = some ⟨manager, [], store⟩ := by
  induction h with
  | nil store => exact ⟨0, rfl⟩
  | cons hfirst _ ih =>
      obtain ⟨n, hrun⟩ := ih
      refine ⟨n + 1, run_cons_eq_some.mpr ⟨_, step_iterate hfirst rfl, hrun⟩⟩

/-- After any run the replica gets through what the manager has sent, and then the two are
related. -/
theorem replica_simulates_manager {disk : Disk Path} {s : Replication Path} {as : List Action}
    (hpromised : Along (step resolve access backupAccess)
      (Promised resolve access backupAccess) (initial disk) as)
    (hrun : run (step resolve access backupAccess) (initial disk) as = some s) :
    (s.stream = [] → Related s.manager s.backup) ∧
    ∃ n backup, run (step resolve access backupAccess) s (List.replicate n .iterate) =
      some ⟨s.manager, [], backup⟩ ∧ Related s.manager backup := by
  obtain ⟨store, hreaches, hcaught⟩ := hpromised.invariant
    (fun _ _ _ => follows_step) (follows_initial disk) hrun
  obtain ⟨manager, stream, backup⟩ := s
  obtain ⟨n, hread⟩ : ∃ n, run (step resolve access backupAccess) ⟨manager, stream, backup⟩
      (List.replicate n .iterate) = some ⟨manager, [], store⟩ := hreaches.iterate manager
  refine ⟨?_, n, store, hread, hcaught.related⟩
  rintro rfl
  cases n with
  | zero =>
      cases hread
      exact hcaught.related
  | succ n =>
      obtain ⟨_, hstep, -⟩ := run_cons_eq_some.mp hread
      rw [step_iterate_nil rfl] at hstep
      cases hstep

/-! ## A run -/

/-- A client of the user `a` from a port of the local host. -/
def connectA (port : UInt16) : Action :=
  .operate (.connect [97] ⟨⟨127, 0, 0, 1⟩, port⟩)

/-- Two clients are let in and a third one is not. The file `f` is stored, stored again as it is,
changed and deleted, and `g` is deleted by a command. One client leaves. The replica has still
something to read. -/
def busyRun : List Action :=
  [connectA 5001, connectA 5002, connectA 5003, .iterate, .iterate,
    .operate (.upload [97] 0 [102] [1, 2]), .operate (.deliver [97] 1),
    .operate (.upload [97] 1 [102] [1, 2]), .heartbeat, .iterate,
    .operate (.upload [97] 1 [102] [3]),
    .operate (.deletion [97] 0 (createTextPacket .delete [102])),
    .operate (.upload [97] 1 [103] []), .iterate, .iterate,
    .operate (.command [97] 1 (createTextPacket .delete [103])),
    .operate (.command [97] 0 (createPacket .exit 0 []))]

theorem busyRun_simulated : ∃ s,
    run (step id .granted .granted) (initial fun _ => none) busyRun = some s ∧ s.stream ≠ [] ∧
    ∃ n backup, run (step id .granted .granted) s (List.replicate n .iterate) =
      some ⟨s.manager, [], backup⟩ ∧ Related s.manager backup := by
  have hpromised : Along (step id .granted .granted) (Promised id .granted .granted)
      (initial fun _ => none) busyRun := by
    decide +kernel
  obtain ⟨s, hrun, hstream⟩ : ∃ s ∈ run (step id .granted .granted) (initial fun _ => none) busyRun,
      s.stream ≠ [] := by
    decide +kernel
  exact ⟨s, hrun, hstream, (replica_simulates_manager hpromised hrun).2⟩

end Replication

end SyncServer
