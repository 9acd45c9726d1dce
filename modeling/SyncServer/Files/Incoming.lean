import SyncServer.Files.Transfer
import SyncServer.Files.UserFiles
import SyncServer.Wire.Reading

/-! # The handlers of the server

`handle_incoming_file` takes a file or a deletion from a socket, `interface` a command. Both
change the list of the user and the disk, and may leave an event for the replicas.
-/

namespace SyncServer

open CText Ending

/-- The contexts and the files of a server. -/
structure Store (Path : Type) where
  table : HashTable
  disk : Disk Path

/-- The session in a slot of a user. -/
def Store.session {Path : Type} (store : Store Path) (username : Bytes) (slot : ℕ) :
    Option Session :=
  (store.table.find username).bind fun context => context.sessions[slot]?.join

theorem Store.session_of_find {Path : Type} {store : Store Path} {username : Bytes}
    {context : UserContext} (h : store.table.find username = some context) (slot : ℕ) :
    store.session username slot = context.sessions[slot]?.join := by
  rw [Store.session, h]
  rfl

theorem Store.session_eq_some {Path : Type} {store : Store Path} {username : Bytes} {slot : ℕ}
    {session : Session} : store.session username slot = some session ↔ ∃ context,
      store.table.find username = some context ∧
      context.sessions[slot]? = some (some session) := by
  simp [Store.session, Option.bind_eq_some_iff, Option.join_eq_some_iff]

/-- A session that is put back into its slot. -/
theorem Store.session_addSession_self {Path : Type} {store : Store Path} {username : Bytes}
    {session old : Session} (h : store.session username session.sessionIndex = some old)
    (disk : Disk Path) :
    Store.session ⟨store.table.modify username (·.addSession session), disk⟩ username
      session.sessionIndex = some session := by
  obtain ⟨context, hfind, hslot⟩ := Store.session_eq_some.mp h
  rw [Store.session_of_find (HashTable.replaces_modify hfind _).find,
    UserContext.getElem?_addSession_self hslot]
  rfl

theorem Store.session_addSession_of_ne {Path : Type} {store : Store Path} {username : Bytes}
    {session : Session} {slot : ℕ} (h : session.sessionIndex ≠ slot) (disk : Disk Path) :
    Store.session ⟨store.table.modify username (·.addSession session), disk⟩ username slot =
      store.session username slot := by
  cases hfind : store.table.find username with
  | none => simp [Store.session, HashTable.find_modify, hfind]
  | some context =>
      rw [Store.session_of_find (HashTable.replaces_modify hfind _).find,
        UserContext.getElem?_addSession_of_ne h, Store.session_of_find hfind]

/-- `get_user_folder`: the folder of a user in `"user files"`. -/
def getUserFolder (username : Bytes) : Bytes :=
  [117, 115, 101, 114, 32, 102, 105, 108, 101, 115] ++ 47 :: username

/-- The path that the handlers form for a file of a user. -/
def userFilepath (username filename : Bytes) : Option Bytes :=
  createFilepath (getUserFolder username) filename

/-- `send_file_event_to_replicas`, up to the event; `none` where none is sent. -/
def fileEvent (manager : Bool) (username : Bytes) (session : Session) (type : PacketType)
    (filename : Bytes) : Option ReplicaEvent :=
  if manager then
    match type with
    | .send => some (createFileUploadEvent username session.deviceAddress filename)
    | .delete => some (createFileDeleteEvent username session.deviceAddress filename)
    | _ => none
  else none

/-- What a handler leaves behind: whether the thread goes on, the store, the event for the
replicas, what it has sent to the client, and the rest of the connection. -/
structure Handled (Path σ : Type) where
  goesOn : Bool
  store : Store Path
  event : Option ReplicaEvent
  sent : List Packet
  rest : σ

section

variable {σ Path : Type} [DecidableEq Path] (readPacket : σ → Ending Fault (Option Packet × σ))
  (resolve : Bytes → Path) (access : FileAccess Path) (manager : Bool) (username : Bytes)
  (session : Session)

/-- The list after the packet, if the session is active. -/
def incomingList (table : HashTable) (type : PacketType) (filename : Bytes)
    (content : Option Bytes) : Ending Fault HashTable :=
  if session.active then
    match type with
    | .send => table.fileReceived manager username session.sessionIndex filename content
    | .delete => table.removeFileFromUserList manager username session.sessionIndex filename content
    | _ => done table
  else done table

def handleIncomingFile (store : Store Path) (s : σ) : Ending Fault (Handled Path σ) := do
  let (packet, s) ← readPacket s
  let packet ← deref .nullPointer packet
  let (filename, disk, s) ←
    handleSendDelete readPacket resolve access (getUserFolder username) packet store.disk s
  if packet.type = .connectionClosed then
    done ⟨false, { store with disk }, none, [], s⟩
  else do
    let filename ← deref .nullPointer filename
    let table ← incomingList manager username session store.table packet.type filename
      (fileAt resolve (userFilepath username filename) disk)
    done ⟨true, ⟨table, disk⟩, fileEvent manager username session packet.type filename, [], s⟩

/-! ## Commands -/

/-- `access(filepath, F_OK)`; a null pointer is an error. -/
def accessible (filepath : Option Bytes) (disk : Disk Path) : Bool :=
  (filepath.map resolve).any fun path => (disk path).isSome || access.isFolder path

/-- `list_files` of the folder of the user, in a packet. A packet that cannot be sent is freed
twice. -/
def handleList : Ending Fault (List Packet) := do
  let files ← deref .nullPointer (access.listing (resolve (getUserFolder username)))
  if access.sends then done [createTextPacket .data files] else faults .doubleFree

/-- The size and the chunks of what a path names, if it opens for reading. -/
def openedForReading (filepath : Option Bytes) (disk : Disk Path) : Option (ℕ × List Bytes) :=
  (filepath.map resolve).bind fun path => access.reads path (fileAt resolve filepath disk)

/-- The answer to `PACKET_DOWNLOAD`. What does not open is not sent, and nothing to a client that
has gone. -/
def handleDownload (filename : Bytes) (disk : Disk Path) : List Packet :=
  let filepath := userFilepath username filename
  if access.sends then
    if accessible resolve access filepath disk then
      match openedForReading resolve access filepath disk with
      | none => []
      | some (fileSize, chunks) => sendOpenedFile filename fileSize chunks
    else [createPacket .error 0 []]
  else []

/-- `PACKET_DELETE`: the entry of the list goes first, and then the file. -/
def handleDelete (filename : Bytes) (store : Store Path) :
    Ending Fault (Store Path × Option ReplicaEvent) :=
  let filepath := userFilepath username filename
  if accessible resolve access filepath store.disk then do
    let table ← store.table.removeFileFromUserList manager username session.sessionIndex filename
      (fileAt resolve filepath store.disk)
    done (⟨table, removePath resolve access filepath store.disk⟩,
      fileEvent manager username session .delete filename)
  else done (store, none)

/-- `PACKET_EXIT`, and a closed connection. -/
def handleExit (store : Store Path) : Store Path × ReplicaEvent :=
  ({ store with
      table := store.table.modify username (·.removeSession session.sessionIndex) },
    createClientDisconnectedEvent username session.deviceAddress)

/-- One round of `interface`. -/
def interface (store : Store Path) (s : σ) : Ending Fault (Handled Path σ) := do
  let (packet, s) ← readPacket s
  let packet ← deref .nullPointer packet
  match packet.type with
  | .list => do
      let sent ← handleList resolve access username
      done ⟨true, store, none, sent, s⟩
  | .download =>
      let sent := handleDownload resolve access username (cString packet.payload) store.disk
      done ⟨true, store, none, sent, s⟩
  | .delete => do
      let (store, event) ←
        handleDelete resolve access manager username session (cString packet.payload) store
      done ⟨true, store, event, [], s⟩
  | .exit | .connectionClosed =>
      let (store, event) := handleExit username session store
      done ⟨false, store, some event, [], s⟩
  | _ => done ⟨true, store, none, [], s⟩

/-! ## New connections -/

/-- `initialize_user_session_and_threads` on a manager: the session, unless all slots are taken,
and the event. -/
def initializeUserSessionAndThreads (table : HashTable) (deviceAddress : SockAddrIn)
    (username : Bytes) : Ending Fault (HashTable × Option (Session × ReplicaEvent)) := do
  let (table, context) ← deref .nullPointer (table.getOrCreateContext username)
  match context.findFreeSessionIndex with
  | none => done (table, none)
  | some index =>
      let session := createSession index deviceAddress
      done (table.modify username (·.addSession session),
        some (session, createClientConnectedEvent username deviceAddress))

/-- `handle_new_connection`: what `read_username` reads, where `none` is -1, and whether the answer
is written and the two other connections are accepted. -/
def handleNewConnection (table : HashTable) (request : Option Bytes) (answered accepted : Bool)
    (deviceAddress : SockAddrIn) :
    Ending Fault (Bytes × HashTable × Option (Session × ReplicaEvent)) := do
  let request ← deref .exit request
  let username := (readUsername request).name
  if answered && accepted then do
    let (table, session) ← initializeUserSessionAndThreads table deviceAddress username
    done (username, table, session)
  else faults .exit

/-! ## Events -/

/-- `send_event`. A file that does not open is not sent. -/
def sendEvent (disk : Disk Path) (event : ReplicaEvent) : List Packet :=
  eventPacket event ::
    match event.type, event.username, event.filepath with
    | .fileUploaded, some username, some filename =>
        match fileAt resolve (userFilepath username filename) disk with
        | none => []
        | some content => sendFile filename content
    | .fileDeleted, _, some filename => [createTextPacket .delete filename]
    | _, _, _ => []

/-- `notify_replicas`, when every replica takes what it is sent. -/
def notifyReplicas (disk : Disk Path) (event : Option ReplicaEvent) (streams : List (List Packet)) :
    List (List Packet) :=
  match event with
  | none => streams
  | some event => streams.map (· ++ sendEvent resolve disk event)

end

/-! ## What the handlers do with a packet -/

section

variable {σ Path : Type} [DecidableEq Path] {readPacket : σ → Ending Fault (Option Packet × σ)}
  {resolve : Bytes → Path} {access : FileAccess Path} {manager : Bool} {username : Bytes}
  {session : Session} {store : Store Path} {s t u : σ} {packet : Packet}

theorem handleIncomingFile_send (hread : readPacket s = done (some packet, t))
    (htype : packet.type = .send) (hne : packet.payload ≠ []) {announcement : FileAnnouncement}
    (hannounced : packet.announcement access.heap = some announcement) {disk : Disk Path}
    (hwrite : writePacketsToFile readPacket resolve access
      (userFilepath username announcement.filename) announcement.numPackets store.disk t =
        done (disk, u)) :
    handleIncomingFile readPacket resolve access manager username session store s =
      (incomingList manager username session store.table .send announcement.filename
        (fileAt resolve (userFilepath username announcement.filename) disk) >>= fun table =>
          done ⟨true, ⟨table, disk⟩,
            fileEvent manager username session .send announcement.filename, [], u⟩) := by
  unfold userFilepath at hwrite
  simp only [handleIncomingFile, hread, bind_done, deref_some, handleSendDelete, htype, hne,
    ite_false, receiveFile, hannounced, hwrite, reduceCtorEq]

omit [DecidableEq Path] in
theorem length_of_opened {filename : Bytes} {path : Path}
    (hopened : opened resolve access (userFilepath username filename) = some path) :
    filename.length ≤ pathMax := by
  obtain ⟨hpath, -⟩ := Option.filter_eq_some_iff.mp hopened
  obtain ⟨filepath, hfilepath, -⟩ := Option.map_eq_some_iff.mp hpath
  exact (Nat.le_add_right _ 2).trans (length_filename_of_createFilepath hfilepath)

omit [DecidableEq Path] in
theorem announced_of_opened {filename : Bytes} {path : Path} {n : ℕ} (hn : n < 2 ^ 64)
    (hzero : 0 ∉ filename)
    (hopened : opened resolve access (userFilepath username filename) = some path) :
    (announcementPacket filename n).payload ≠ [] ∧
      (announcementPacket filename n).announcement access.heap =
        some ⟨n, filename.length, filename⟩ := by
  have hlength := length_of_opened hopened
  unfold pathMax at hlength
  exact ⟨announcementPacket_ne_nil n (by omega),
    announcement_announcementPacket hn (by omega) hzero access.heap⟩

/-- A file whose data packets are there is stored. -/
theorem handleIncomingFile_stored {filename : Bytes} {path : Path} {n : ℕ} (hn : n < 2 ^ 64)
    (hzero : 0 ∉ filename)
    (hopened : opened resolve access (userFilepath username filename) = some path)
    (hread : readPacket s = done (some (announcementPacket filename n), t)) {content : Bytes}
    (hwrite : writePackets readPacket n [] t = done (content, u)) :
    handleIncomingFile readPacket resolve access manager username session store s =
      (incomingList manager username session store.table .send filename (some content) >>=
        fun table => done ⟨true, ⟨table, Function.update store.disk path (some content)⟩,
          fileEvent manager username session .send filename, [], u⟩) := by
  obtain ⟨hpath, -⟩ := Option.filter_eq_some_iff.mp hopened
  have hfile : writePacketsToFile readPacket resolve access (userFilepath username filename) n
      store.disk t = done (Function.update store.disk path (some content), u) := by
    simp only [writePacketsToFile, hopened, hwrite, bind_done]
  obtain ⟨hne, hannounced⟩ := announced_of_opened hn hzero hopened
  rw [handleIncomingFile_send hread rfl hne hannounced hfile]
  simp only [fileAt, hpath, Option.bind_some, Function.update_self]

/-- Data packets that are announced and missing are waited for. -/
theorem handleIncomingFile_waits {filename : Bytes} {path : Path} {n : ℕ} (hn : n < 2 ^ 64)
    (hzero : 0 ∉ filename)
    (hopened : opened resolve access (userFilepath username filename) = some path)
    (hread : readPacket s = done (some (announcementPacket filename n), t))
    (hwrite : writePackets readPacket n [] t = waits) :
    handleIncomingFile readPacket resolve access manager username session store s = waits := by
  obtain ⟨hne, hannounced⟩ := announced_of_opened hn hzero hopened
  have htype : (announcementPacket filename n).type = .send := rfl
  unfold userFilepath at hopened
  simp only [handleIncomingFile, hread, bind_done, deref_some, handleSendDelete, htype, hne,
    ite_false, receiveFile, hannounced, writePacketsToFile, hopened, hwrite, bind_waits]

theorem handleIncomingFile_delete (hread : readPacket s = done (some packet, t))
    (htype : packet.type = .delete) :
    handleIncomingFile readPacket resolve access manager username session store s =
      (incomingList manager username session store.table .delete (cString packet.payload)
        (fileAt resolve (userFilepath username (cString packet.payload))
          (removePath resolve access (userFilepath username (cString packet.payload))
            store.disk)) >>= fun table =>
        done ⟨true, ⟨table, removePath resolve access
            (userFilepath username (cString packet.payload)) store.disk⟩,
          fileEvent manager username session .delete (cString packet.payload), [], t⟩) := by
  simp only [handleIncomingFile, hread, bind_done, deref_some, handleSendDelete, htype,
    deleteFile, ite_false, reduceCtorEq, userFilepath]

theorem interface_delete (hread : readPacket s = done (some packet, t))
    (htype : packet.type = .delete) :
    interface readPacket resolve access manager username session store s =
      (handleDelete resolve access manager username session (cString packet.payload) store >>=
        fun (store, event) => done ⟨true, store, event, [], t⟩) := by
  simp only [interface, hread, bind_done, deref_some, htype]

end

end SyncServer
