import SyncServer.Files.FanOut
import SyncServer.Files.RoundTrip

/-! # Echoes

A client watches its folder and sends every file that changes there, also one that its receiver
thread has just stored from the server. The server tells such an echo from an upload only by
comparing it with what it has.
-/

namespace SyncServer

open CText Ending PathNames Transition

/-! ## The clients -/

/-- The name of an entry of a folder. -/
structure EntryName where
  name : Bytes
  isComponent : IsComponent name
  zero_not_mem : 0 ∉ name
  length_le : name.length ≤ 255

/-- With a username that the server accepts, such a name never makes the path too long. -/
theorem EntryName.storable (filename : EntryName) (username : Username) :
    Storable username.name filename.name := by
  refine ⟨filename.isComponent, filename.zero_not_mem, ?_⟩
  have hname := filename.length_le
  have husername := username.length_le
  rw [userFilepath, createFilepath, if_neg]
  · rfl
  · simp only [getUserFolder, List.length_append, List.length_cons, List.length_nil, pathMax]
    unfold maxUsernameLength at husername
    omega

/-- The events of the folder that the watcher asks for. -/
inductive WatchEvent where
  | create (name : Bytes)
  | closeWrite (name : Bytes)
  | movedTo (name : Bytes)
  | delete (name : Bytes)
  | movedFrom (name : Bytes)
  deriving DecidableEq, Repr

def WatchEvent.name : WatchEvent → Bytes
  | create name | closeWrite name | movedTo name | delete name | movedFrom name => name

/-- What is on its way between a client and the server. Only the model sees whether an upload is
an echo: a file sent as the receiver thread has stored it. -/
inductive Message where
  | upload (name content : Bytes) (echo : Bool)
  | delete (name : Bytes)
  deriving DecidableEq, Repr

namespace Message

def name : Message → Bytes
  | upload name _ _ | delete name => name

def packets : Message → List Packet
  | upload name content _ => sendFile name content
  | delete name => [createTextPacket .delete name]

def socket (message : Message) : Socket := ⟨message.packets, .stalled⟩

end Message

/-- A client: its folder with the path and what the file system answers, the events that the
watcher has not read, and which files are as the receiver thread has stored them. -/
structure SyncClient where
  folder : Bytes
  access : FileAccess Bytes
  disk : Disk Bytes
  queue : List WatchEvent
  received : Bytes → Bool

/-- Somebody puts a file into the folder or takes one away, by writing or by moving. -/
inductive LocalEdit where
  | put (name : EntryName) (content : Bytes) (moved : Bool)
  | take (name : EntryName) (moved : Bool)

namespace SyncClient

/-- The events of a file that is written. -/
def written (name : Bytes) (before : Option Bytes) : List WatchEvent :=
  if before.isNone then [.create name, .closeWrite name] else [.closeWrite name]

def edit (client : SyncClient) : LocalEdit → Option SyncClient
  | .put name content moved =>
      (createFilepath client.folder name.name).map fun path =>
        { client with
          disk := Function.update client.disk path (some content)
          queue := client.queue ++
            if moved then [.movedTo name.name] else written name.name (client.disk path)
          received := Function.update client.received name.name false }
  | .take name moved =>
      (createFilepath client.folder name.name).bind fun path =>
        (client.disk path).map fun _ =>
          { client with
            disk := Function.update client.disk path none
            queue := client.queue ++
              [if moved then .movedFrom name.name else .delete name.name] }

/-- The events of `handle_send_delete` in the receiver thread. -/
def stored (client : SyncClient) : Message → List WatchEvent
  | .upload name _ _ =>
      match opened id client.access (createFilepath client.folder name) with
      | none => []
      | some path => written name (client.disk path)
  | .delete name =>
      match (createFilepath client.folder name).filter client.access.removes with
      | none => []
      | some path => if (client.disk path).isSome then [.delete name] else []

/-- A round of the receiver thread. -/
def receive (client : SyncClient) (message : Message) : Option SyncClient :=
  (receiveTransfer Socket.readPacket id client.access client.folder client.disk
    message.socket).returned.map fun (_, disk, _) =>
      { client with
        disk
        queue := client.queue ++ client.stored message
        received :=
          match message with
          | .upload name _ _ =>
              if (opened id client.access (createFilepath client.folder name)).isSome then
                Function.update client.received name true
              else client.received
          | .delete _ => client.received }

/-- One event of the watcher. A file that does not open is not sent. -/
def watch (client : SyncClient) : Option (List Message × SyncClient) :=
  match client.queue with
  | [] => none
  | event :: queue =>
      let sent : List Message := match event with
        | .create name | .closeWrite name | .movedTo name =>
            match fileAt id (createFilepath client.folder name) client.disk with
            | none => []
            | some content => [.upload name content (client.received name)]
        | .delete name | .movedFrom name => [.delete name]
      some (sent, { client with queue })

end SyncClient

/-! ## What arrives of a file -/

/-- The chunks that the announcement counts. -/
def arrives (content : Bytes) : Bytes :=
  ((readFileChunks content).take (numPackets content.length)).flatten

/-- Below 2^31 chunks that is the whole file. -/
theorem arrives_of_lt {content : Bytes} (h : chunkCount content.length < 2 ^ 31) :
    arrives content = content := by
  rw [arrives, numPackets_eq h, List.take_of_length_le (length_readFileChunks content).le,
    flatten_readFileChunks]

theorem payloads_readFileChunks {content : Bytes} {chunks : List Bytes}
    (h : chunks ⊆ readFileChunks content) :
    (chunks.map (createTextPacket .data)).map Packet.payload = chunks := by
  rw [List.map_map]
  refine (List.map_congr_left fun chunk hchunk => ?_).trans (List.map_id' chunks)
  have hlength := length_chunk_le (h hchunk)
  rw [fileChunkSize] at hlength
  exact payload_createTextPacket (by omega)

/-- The server stores what arrives, if as much comes as was announced. -/
theorem writePackets_sendFile (content : Bytes) (ending : StreamEnd)
    (h : numPackets content.length ≤ chunkCount content.length) :
    writePackets Socket.readPacket (numPackets content.length) []
        ⟨(readFileChunks content).map (createTextPacket .data), ending⟩ =
      done (arrives content,
        ⟨((readFileChunks content).drop (numPackets content.length)).map
          (createTextPacket .data), ending⟩) := by
  have hwrite := (Socket.reads
    (((readFileChunks content).take (numPackets content.length)).map (createTextPacket .data))
    (((readFileChunks content).drop (numPackets content.length)).map (createTextPacket .data))
    ending).writePackets_done
  rw [← List.map_append, List.take_append_drop, List.length_map, List.length_take,
    length_readFileChunks, Nat.min_eq_left h,
    payloads_readFileChunks (List.take_subset _ _)] at hwrite
  exact hwrite

/-! ## The system -/

/-- The server with one user, its clients, and what is on its way between them. -/
structure Echoing where
  store : Store (List Bytes)
  client : Fin maxSessions → SyncClient
  up : Fin maxSessions → List Message
  down : Fin maxSessions → List Message

inductive EchoAction where
  /-- A local edit. -/
  | edit (i : Fin maxSessions) (change : LocalEdit)
  /-- An event of the directory watcher. -/
  | watch (i : Fin maxSessions)
  /-- `handle_incoming_file`. -/
  | serve (i : Fin maxSessions)
  /-- A round of `send_f`. -/
  | deliver (i : Fin maxSessions)
  /-- A round of the file receiver. -/
  | receive (i : Fin maxSessions)

namespace Echoing

section

variable (cwd : List Bytes) (access : FileAccess (List Bytes)) (username : Bytes)

def activeSession (s : Echoing) (i : Fin maxSessions) : Option Session :=
  (s.store.session username i).filter (·.active)

/-- What `send_f` sends for an entry. A file that does not open is not sent. -/
def delivery (disk : Disk (List Bytes)) (entry : FileEntry) : List Message :=
  match entry.type with
  | .send =>
      match fileAt (resolve cwd) (userFilepath username entry.filename) disk with
      | none => []
      | some content => [.upload entry.filename content false]
  | .delete => [.delete entry.filename]

def step (s : Echoing) : EchoAction → Option Echoing
  | .edit i change =>
      ((s.client i).edit change).map fun client =>
        { s with client := Function.update s.client i client }
  | .watch i =>
      (s.client i).watch.map fun (sent, client) =>
        { s with
          client := Function.update s.client i client
          up := Function.update s.up i (s.up i ++ sent) }
  | .serve i =>
      match s.up i with
      | [] => none
      | message :: rest =>
          (s.activeSession username i).bind fun session =>
            (handleIncomingFile Socket.readPacket (resolve cwd) access true username session
              s.store message.socket).returned.map fun handled =>
                { s with store := handled.store, up := Function.update s.up i rest }
  | .deliver i =>
      (s.activeSession username i).bind fun session =>
        (getNextFileToSync session).map fun (entry, session) =>
          { s with
            store :=
              { s.store with table := s.store.table.modify username (·.addSession session) }
            down := Function.update s.down i
              (s.down i ++ delivery cwd username s.store.disk entry) }
  | .receive i =>
      match s.down i with
      | [] => none
      | message :: rest =>
          ((s.client i).receive message).map fun client =>
            { s with
              client := Function.update s.client i client
              down := Function.update s.down i rest }

/-- What the server stores under a name. -/
def content (s : Echoing) (name : Bytes) : Option Bytes :=
  fileAt (resolve cwd) (userFilepath username name) s.store.disk

/-- The files of the server, the list of the user and the buffers of its sessions are the same. -/
structure Harmless (s t : Echoing) : Prop where
  disk : t.store.disk = s.store.disk
  fileList : t.store.table.fileList username = s.store.table.fileList username
  session : ∀ slot, t.store.session username slot = s.store.session username slot

/-- Nothing is on its way, and the list mirrors the folder. -/
structure Fresh (s : Echoing) : Prop where
  known : (s.store.table.find username).isSome = true
  mirrors : Mirrors (userFolder cwd username) (s.store.table.fileList username) s.store.disk
  queue : ∀ i, (s.client i).queue = []
  up : ∀ i, s.up i = []
  down : ∀ i, s.down i = []
  buffer : ∀ slot session, s.store.session username slot = some session → session.syncBuffer = []

end

variable {cwd : List Bytes} {access : FileAccess (List Bytes)} {username : Bytes}

theorem activeSession_eq_some {s : Echoing} {i : Fin maxSessions} {session : Session} :
    s.activeSession username i = some session ↔
      s.store.session username i = some session ∧ session.active = true := by
  simp [activeSession, Option.filter_eq_some_iff]

/-! ## What the server does with a message -/

section

variable {session : Session} {store : Store (List Bytes)} {context : UserContext}
  {handled : Handled (List Bytes) Socket}

theorem uploaded_of_served (hgrants : access.Grants (userFolder cwd username))
    {name content : Bytes} {echo : Bool} (hname : Storable username name)
    (hactive : session.active = true) (hfind : store.table.find username = some context)
    (h : handleIncomingFile Socket.readPacket (resolve cwd) access true username session store
      (Message.upload name content echo).socket = done handled) :
    ∃ context', Uploaded (userFolder cwd username) true username session.sessionIndex name
      (arrives content) store context handled.store context' := by
  by_cases hcount : numPackets content.length ≤ chunkCount content.length
  · exact (uploaded_of_handled hname hgrants (numPackets_lt _) rfl
      (writePackets_sendFile content .stalled hcount) hactive hfind h).2
  · have hread : (Message.upload name content echo).socket.readPacket =
        done (some (announcementPacket name (numPackets content.length)),
          ⟨(readFileChunks content).map (createTextPacket .data), .stalled⟩) := rfl
    have hwrite := writePackets_sendFile_waits content (not_le.mp hcount)
    rw [handleIncomingFile_waits (numPackets_lt _) hname.2.1 (hname.opened hgrants) hread hwrite]
      at h
    cases h

theorem deleted_of_served (hgrants : access.Grants (userFolder cwd username)) {name : Bytes}
    (hname : Storable username name) (hactive : session.active = true)
    (hfind : store.table.find username = some context)
    (h : handleIncomingFile Socket.readPacket (resolve cwd) access true username session store
      (Message.delete name).socket = done handled) :
    ∃ context', Deleted (userFolder cwd username) true username session.sessionIndex name
      store context handled.store context' :=
  (deleted_of_handled hname hgrants rfl hactive hfind h).2

end

/-! ## The names that are on their way -/

/-- Every name that is mentioned anywhere has a property. -/
structure Named (username : Bytes) (P : Bytes → Prop) (s : Echoing) : Prop where
  queue : ∀ i, ∀ event ∈ (s.client i).queue, P event.name
  up : ∀ i, ∀ message ∈ s.up i, P message.name
  down : ∀ i, ∀ message ∈ s.down i, P message.name
  buffer : ∀ slot session, s.store.session username slot = some session →
    ∀ entry ∈ session.syncBuffer, P entry.filename

/-- The list mirrors the folder, and every name on its way is storable. -/
structure Kept (cwd : List Bytes) (username : Bytes) (s : Echoing) : Prop where
  known : (s.store.table.find username).isSome = true
  mirrors : Mirrors (userFolder cwd username) (s.store.table.fileList username) s.store.disk
  named : Named username (Storable username) s

theorem Fresh.kept {s : Echoing} (h : s.Fresh cwd username) : s.Kept cwd username where
  known := h.known
  mirrors := h.mirrors
  named :=
    { queue := fun i event hevent => by rw [h.queue i] at hevent; cases hevent
      up := fun i message hmessage => by rw [h.up i] at hmessage; cases hmessage
      down := fun i message hmessage => by rw [h.down i] at hmessage; cases hmessage
      buffer := fun slot session hsession entry hentry => by
        rw [h.buffer slot session hsession] at hentry
        cases hentry }

end Echoing

namespace SyncClient

theorem name_of_written {name : Bytes} {before : Option Bytes} {event : WatchEvent}
    (h : event ∈ written name before) : event.name = name := by
  unfold written at h
  split at h
  · rcases List.mem_pair.mp h with rfl | rfl <;> rfl
  · rw [List.mem_singleton.mp h]
    rfl

theorem name_of_stored {client : SyncClient} {message : Message} {event : WatchEvent}
    (h : event ∈ client.stored message) : event.name = message.name := by
  cases message with
  | upload name content echo =>
      rw [stored] at h
      split at h
      · cases h
      · exact name_of_written h
  | delete name =>
      rw [stored] at h
      split at h
      · cases h
      · split at h
        · rw [List.mem_singleton.mp h]
          rfl
        · cases h

theorem queue_of_edit {client client' : SyncClient} {change : LocalEdit}
    (h : client.edit change = some client') {event : WatchEvent} (hevent : event ∈ client'.queue) :
    event ∈ client.queue ∨ ∃ name : EntryName, event.name = name.name := by
  cases change with
  | put name content moved =>
      obtain ⟨path, -, rfl⟩ := Option.map_eq_some_iff.mp h
      refine (List.mem_append.mp hevent).imp_right fun hnew => ⟨name, ?_⟩
      split at hnew
      · rw [List.mem_singleton.mp hnew]
        rfl
      · exact name_of_written hnew
  | take name moved =>
      obtain ⟨path, -, h⟩ := Option.bind_eq_some_iff.mp h
      obtain ⟨content, -, rfl⟩ := Option.map_eq_some_iff.mp h
      refine (List.mem_append.mp hevent).imp_right fun hnew => ⟨name, ?_⟩
      rw [List.mem_singleton.mp hnew]
      split <;> rfl

theorem queue_of_receive {client client' : SyncClient} {message : Message}
    (h : client.receive message = some client') {event : WatchEvent}
    (hevent : event ∈ client'.queue) : event ∈ client.queue ∨ event.name = message.name := by
  obtain ⟨⟨name, disk, rest⟩, -, rfl⟩ := Option.map_eq_some_iff.mp h
  exact (List.mem_append.mp hevent).imp_right name_of_stored

/-- The watcher takes one event, and sends under its name. -/
theorem watch_eq_some {client client' : SyncClient} {sent : List Message}
    (h : client.watch = some (sent, client')) : ∃ event,
      client.queue = event :: client'.queue ∧ ∀ message ∈ sent, message.name = event.name := by
  unfold watch at h
  split at h
  · cases h
  · rename_i event queue hqueue
    cases h
    refine ⟨event, hqueue, fun message hmessage => ?_⟩
    cases event with
    | create name | closeWrite name | movedTo name =>
        dsimp only at hmessage
        split at hmessage
        · cases hmessage
        · rw [List.mem_singleton.mp hmessage]
          rfl
    | delete name | movedFrom name =>
        rw [List.mem_singleton.mp hmessage]
        rfl

end SyncClient

namespace Echoing

/-! ## Every step keeps the mirror and the names -/

section

variable {cwd : List Bytes} {access : FileAccess (List Bytes)} {username : Bytes}

/-- The buffers after a change that some sessions are told of. -/
theorem buffer_of_handed {table table' : HashTable} {disk disk' : Disk (List Bytes)}
    {context context' : UserContext} {list : List FileNode} {receives : ℕ → Prop}
    {entry : FileEntry} {P : Bytes → Prop} (hfind : table.find username = some context)
    (hreplaces : table.Replaces username context' table')
    (hhanded : (context.setFileList list).Handed receives entry context')
    (hentry : P entry.filename)
    (hbuffer : ∀ slot session, Store.session ⟨table, disk⟩ username slot = some session →
      ∀ entry ∈ session.syncBuffer, P entry.filename)
    (slot : ℕ) (session : Session)
    (hsession : Store.session ⟨table', disk'⟩ username slot = some session) :
    ∀ entry ∈ session.syncBuffer, P entry.filename := by
  have hold := hbuffer slot
  rw [Store.session_of_find hfind] at hold
  rw [Store.session_of_find hreplaces.find] at hsession
  by_cases hreceives : receives slot
  · rw [hhanded.slot slot hreceives] at hsession
    obtain ⟨found, hfound, hmap⟩ := Option.map_eq_some_iff.mp (Option.join_eq_some_iff.mp hsession)
    obtain ⟨old, rfl, rfl⟩ := Option.map_eq_some_iff.mp hmap
    intro other hother
    rcases List.mem_append.mp hother with hother | hother
    · exact hold old (Option.join_eq_some_iff.mpr hfound) other hother
    · rw [List.mem_singleton.mp hother]
      exact hentry
  · rw [hhanded.slot_of_not slot hreceives] at hsession
    exact hold session hsession

theorem name_of_delivery {disk : Disk (List Bytes)} {entry : FileEntry} {message : Message}
    (h : message ∈ delivery cwd username disk entry) : message.name = entry.filename := by
  unfold delivery at h
  split at h
  · split at h
    · cases h
    · rw [List.mem_singleton.mp h]
      rfl
  · rw [List.mem_singleton.mp h]
    rfl

/-- A property of the values of a function that changes at one place. -/
theorem forall_update {α : Type*} {P : α → Prop} {f : Fin maxSessions → α} {i : Fin maxSessions}
    {a : α} (h : ∀ j, P (f j)) (ha : P a) (j : Fin maxSessions) : P (Function.update f i a j) := by
  by_cases hj : j = i
  · rw [hj, Function.update_self]
    exact ha
  · rw [Function.update_of_ne hj]
    exact h j

theorem events_update {P : Bytes → Prop} {clients : Fin maxSessions → SyncClient}
    {i : Fin maxSessions} {client : SyncClient}
    (h : ∀ j, ∀ event ∈ (clients j).queue, P event.name)
    (hnew : ∀ event ∈ client.queue, P event.name) (j : Fin maxSessions) :
    ∀ event ∈ (Function.update clients i client j).queue, P event.name :=
  forall_update (P := fun client : SyncClient => ∀ event ∈ client.queue, P event.name) h hnew j

theorem messages_update {P : Bytes → Prop} {channels : Fin maxSessions → List Message}
    {i : Fin maxSessions} {messages : List Message}
    (h : ∀ j, ∀ message ∈ channels j, P message.name)
    (hnew : ∀ message ∈ messages, P message.name) (j : Fin maxSessions) :
    ∀ message ∈ Function.update channels i messages j, P message.name :=
  forall_update (P := fun messages : List Message => ∀ message ∈ messages, P message.name) h hnew j

/-- What a change of the list leaves of the sessions and the mirror. -/
theorem Kept.served {s : Echoing} (h : s.Kept cwd username)
    (hgrants : access.Grants (userFolder cwd username)) {message : Message}
    (hname : Storable username message.name) {i : Fin maxSessions} {session : Session}
    (hsession : s.activeSession username i = some session)
    {handled : Handled (List Bytes) Socket}
    (hhandled : handleIncomingFile Socket.readPacket (resolve cwd) access true username session
      s.store message.socket = done handled) :
    (handled.store.table.find username).isSome = true ∧
      Mirrors (userFolder cwd username) (handled.store.table.fileList username)
        handled.store.disk ∧
      ∀ slot session, handled.store.session username slot = some session →
        ∀ entry ∈ session.syncBuffer, Storable username entry.filename := by
  obtain ⟨hfound, hactive⟩ := activeSession_eq_some.mp hsession
  obtain ⟨context, hfind, -⟩ := Store.session_eq_some.mp hfound
  have hlist := HashTable.fileList_of_find hfind
  have hmirrors := hlist ▸ h.mirrors
  cases message with
  | upload name content echo =>
      obtain ⟨context', hdone⟩ :=
        uploaded_of_served hgrants hname hactive hfind hhandled
      refine ⟨Option.isSome_of_eq_some hdone.replaces.find, ?_, ?_⟩
      · rw [HashTable.fileList_of_find hdone.replaces.find, hdone.handed.fileList, hdone.disk]
        exact hmirrors.send hname.1 _
      · exact buffer_of_handed hfind hdone.replaces hdone.handed hname h.named.buffer
  | delete name =>
      obtain ⟨context', hdone⟩ := deleted_of_served hgrants hname hactive hfind hhandled
      refine ⟨Option.isSome_of_eq_some hdone.replaces.find, ?_, ?_⟩
      · rw [HashTable.fileList_of_find hdone.replaces.find, hdone.handed.fileList, hdone.disk]
        exact hmirrors.delete name
      · exact buffer_of_handed hfind hdone.replaces hdone.handed hname h.named.buffer

end

section

variable {cwd : List Bytes} {access : FileAccess (List Bytes)} {username : Username}

theorem kept_of_step (hgrants : access.Grants (userFolder cwd username.name)) {s t : Echoing}
    {action : EchoAction} (h : s.Kept cwd username.name)
    (hstep : step cwd access username.name s action = some t) : t.Kept cwd username.name := by
  obtain ⟨hknown, hmirrors, hqueue, hup, hdown, hbuffer⟩ := h
  cases action with
  | edit i change =>
      obtain ⟨client, hedit, rfl⟩ := Option.map_eq_some_iff.mp hstep
      refine ⟨hknown, hmirrors, events_update hqueue fun event hevent => ?_, hup, hdown, hbuffer⟩
      rcases SyncClient.queue_of_edit hedit hevent with hold | ⟨name, hname⟩
      · exact hqueue i event hold
      · rw [hname]
        exact name.storable username
  | watch i =>
      obtain ⟨⟨sent, client⟩, hwatch, rfl⟩ := Option.map_eq_some_iff.mp hstep
      obtain ⟨event, hevents, hsent⟩ := SyncClient.watch_eq_some hwatch
      refine ⟨hknown, hmirrors, events_update hqueue fun other hother => ?_,
        messages_update hup fun message hmessage => ?_, hdown, hbuffer⟩
      · exact hqueue i other (hevents ▸ List.mem_cons_of_mem _ hother)
      · rcases List.mem_append.mp hmessage with hmessage | hmessage
        · exact hup i message hmessage
        · rw [hsent message hmessage]
          exact hqueue i event (hevents ▸ List.mem_cons_self)
  | serve i =>
      rw [step] at hstep
      split at hstep
      · cases hstep
      · rename_i message rest hhead
        obtain ⟨session, hsession, hstep⟩ := Option.bind_eq_some_iff.mp hstep
        obtain ⟨handled, hhandled, rfl⟩ := Option.map_eq_some_iff.mp hstep
        have hname := hup i message (hhead ▸ List.mem_cons_self)
        have hserved := Kept.served ⟨hknown, hmirrors, hqueue, hup, hdown, hbuffer⟩ hgrants hname
          hsession (returned_eq_some.mp hhandled)
        refine ⟨hserved.1, hserved.2.1, hqueue, messages_update hup fun other hother => ?_, hdown,
          hserved.2.2⟩
        exact hup i other (hhead ▸ List.mem_cons_of_mem _ hother)
  | deliver i =>
      obtain ⟨session, hsession, hstep⟩ := Option.bind_eq_some_iff.mp hstep
      obtain ⟨⟨entry, session'⟩, hnext, rfl⟩ := Option.map_eq_some_iff.mp hstep
      have hfound := (activeSession_eq_some.mp hsession).1
      obtain ⟨context, hfind, hslot⟩ := Store.session_eq_some.mp hfound
      obtain ⟨hentries, hindex, -⟩ := getNextFileToSync_eq_some hnext
      rw [context.indexed i session hslot] at hindex
      have hreplaces := HashTable.replaces_modify hfind (·.addSession session')
      refine ⟨Option.isSome_of_eq_some hreplaces.find, ?_, hqueue, hup,
        messages_update hdown fun message hmessage => ?_, fun slot found hslot other hother => ?_⟩
      · rw [HashTable.fileList_addSession hfind]
        exact hmirrors
      · rcases List.mem_append.mp hmessage with hmessage | hmessage
        · exact hdown i message hmessage
        · rw [name_of_delivery hmessage]
          exact hbuffer i session hfound entry (hentries ▸ List.mem_cons_self)
      · by_cases heq : session'.sessionIndex = slot
        · have hself := Store.session_addSession_self (hindex ▸ hfound) s.store.disk
          rw [← heq, hself] at hslot
          cases hslot
          exact hbuffer i session hfound other (hentries ▸ List.mem_cons_of_mem _ hother)
        · rw [Store.session_addSession_of_ne heq] at hslot
          exact hbuffer slot found hslot other hother
  | receive i =>
      rw [step] at hstep
      split at hstep
      · cases hstep
      · rename_i message rest hhead
        obtain ⟨client, hreceive, rfl⟩ := Option.map_eq_some_iff.mp hstep
        refine ⟨hknown, hmirrors, events_update hqueue fun event hevent => ?_, hup,
          messages_update hdown fun other hother => ?_, hbuffer⟩
        · rcases SyncClient.queue_of_receive hreceive hevent with hold | hname
          · exact hqueue i event hold
          · rw [hname]
            exact hdown i message (hhead ▸ List.mem_cons_self)
        · exact hdown i other (hhead ▸ List.mem_cons_of_mem _ hother)

/-! ## When an echo is harmless -/

/-- A re-send changes nothing if and only if the server still stores what arrives with it. -/
theorem harmless_iff_of_kept (hgrants : access.Grants (userFolder cwd username.name))
    {s t : Echoing} (h : s.Kept cwd username.name) {i : Fin maxSessions} {name content : Bytes}
    {echo : Bool} {rest : List Message} (hhead : s.up i = .upload name content echo :: rest)
    (hstep : step cwd access username.name s (.serve i) = some t) :
    Harmless username.name s t ↔ s.content cwd username.name name = some (arrives content) := by
  have hname : Storable username.name name :=
    h.named.up i (.upload name content echo) (hhead ▸ List.mem_cons_self)
  simp only [step, hhead] at hstep
  obtain ⟨session, hsession, hstep⟩ := Option.bind_eq_some_iff.mp hstep
  obtain ⟨handled, hhandled, rfl⟩ := Option.map_eq_some_iff.mp hstep
  obtain ⟨hfound, hactive⟩ := activeSession_eq_some.mp hsession
  obtain ⟨context, hfind, -⟩ := Store.session_eq_some.mp hfound
  obtain ⟨context', hdone⟩ :=
    uploaded_of_served hgrants hname hactive hfind (returned_eq_some.mp hhandled)
  have hlist := HashTable.fileList_of_find hfind
  have hlisted : listed context.fileList name =
      (s.content cwd username.name name).map fun content => crc32 (some content) := by
    rw [Echoing.content, hname.fileAt, ← hlist]
    exact h.mirrors.listed name hname.1
  constructor
  · intro hharmless
    have hplace := congrFun hharmless.disk (userFolder cwd username.name ++ [name])
    rw [hdone.disk, Function.update_self] at hplace
    rw [Echoing.content, hname.fileAt, ← hplace]
  · intro hcontent
    have hsame : listed context.fileList name = some (crc32 (some (arrives content))) := by
      rw [hlisted, hcontent]
      rfl
    rw [Echoing.content, hname.fileAt] at hcontent
    refine ⟨?_, ?_, fun slot => ?_⟩
    · rw [hdone.disk, ← hcontent, Function.update_eq_self]
    · rw [HashTable.fileList_of_find hdone.replaces.find, hdone.handed.fileList, hlist]
      exact listAfterSend_eq_self_iff.mpr hsame
    · rw [Store.session_of_find hdone.replaces.find, Store.session_of_find hfind,
        hdone.handed.slot_of_not slot fun hreceives => hreceives.2.1 hsame]
      rfl

/-- In every run, whatever the order of its steps, an echo that the server handles is harmless if
and only if the server still stores what arrives with it. -/
theorem echo_harmless_iff (hgrants : access.Grants (userFolder cwd username.name))
    {s u t : Echoing} (hfresh : s.Fresh cwd username.name) {actions : List EchoAction}
    (hrun : run (step cwd access username.name) s actions = some u) {i : Fin maxSessions}
    {name content : Bytes} {rest : List Message}
    (hecho : u.up i = .upload name content true :: rest)
    (hserve : step cwd access username.name u (.serve i) = some t) :
    Harmless username.name u t ↔ u.content cwd username.name name = some (arrives content) :=
  harmless_iff_of_kept hgrants
    (run_invariant (fun _ _ _ hkept hstep => kept_of_step hgrants hkept hstep) hfresh.kept hrun)
    hecho hserve

end

/-- Two clients with empty folders. -/
def twoClients : Echoing where
  store := SharedFiles.twoSessions.store
  client _ := ⟨[100], .granted, fun _ => none, [], fun _ => false⟩
  up _ := []
  down _ := []

def nameA : EntryName := ⟨[102], by decide, by decide, by decide⟩

def userA : Username := ⟨[97], by decide, by decide⟩

theorem twoClients_fresh : twoClients.Fresh [] userA.name where
  known := rfl
  mirrors := mirrors_nil fun _ _ => rfl
  queue _ := rfl
  up _ := rfl
  down _ := rfl
  buffer slot session hsession := by
    obtain ⟨context, hfind, hslot⟩ := Store.session_eq_some.mp hsession
    cases hfind
    match slot with
    | 0 | 1 => cases hslot; rfl
    | slot + 2 => cases hslot

/-- A file goes from one client to the other, whose watcher sends it back. -/
def sentBack : List EchoAction :=
  [.edit 0 (.put nameA [104] false), .watch 0, .serve 0, .deliver 1, .receive 1, .watch 1]

theorem echo_harmless_of_sentBack : ∃ u ∈ run (step [] .granted userA.name) twoClients sentBack,
    ∃ t ∈ step [] .granted userA.name u (.serve 1), Harmless userA.name u t := by
  obtain ⟨u, hu, hecho, hserve, hcontent⟩ :=
    show ∃ u ∈ run (step [] .granted userA.name) twoClients sentBack,
      u.up 1 = [.upload [102] [104] true] ∧
      (step [] .granted userA.name u (.serve 1)).isSome = true ∧
      u.content [] userA.name [102] = some (arrives [104]) by decide +kernel
  obtain ⟨t, ht⟩ := Option.isSome_iff_exists.mp hserve
  exact ⟨u, hu, t, ht, (echo_harmless_iff (FileAccess.granted_grants _) twoClients_fresh hu hecho
    ht).mpr hcontent⟩

/-- Before the second client's watcher sends the file back, the first client changes it. -/
def overtaken : List EchoAction :=
  [.edit 0 (.put nameA [104] false), .watch 0, .serve 0, .deliver 1, .receive 1, .watch 0,
    .serve 0, .edit 0 (.put nameA [105] false), .watch 0, .serve 0, .watch 1]

theorem overtaken_echo_not_harmless :
    ∃ u ∈ run (step [] .granted userA.name) twoClients overtaken,
      u.up 1 = [.upload [102] [104] true] ∧
      ∃ t ∈ step [] .granted userA.name u (.serve 1), ¬Harmless userA.name u t := by
  obtain ⟨u, hu, hecho, t, ht, hcontent⟩ :=
    show ∃ u ∈ run (step [] .granted userA.name) twoClients overtaken,
      u.up 1 = [.upload [102] [104] true] ∧ ∃ t ∈ step [] .granted userA.name u (.serve 1),
        u.content [] userA.name [102] ≠ t.content [] userA.name [102] by decide +kernel
  refine ⟨u, hu, hecho, t, ht, fun hharmless => hcontent ?_⟩
  rw [content, content, hharmless.disk]

end Echoing

end SyncServer
