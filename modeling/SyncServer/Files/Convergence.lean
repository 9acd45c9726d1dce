import SyncServer.Files.Echo
import SyncServer.Library.Copies

/-! # The clients of a user come to the same files

For each file name the server has an original and every client a copy. The watcher reports the
changes of the copy, echoes among them, and an entry in the buffer of a session is answered with
what the server stores by then. A call of `handle_incoming_file` or a round of `send_f` runs here
from its start to its end with no other call beside it.
-/

namespace SyncServer

open CText Ending PathNames Transition

/-! ## What is under way about a name -/

/-- The file is there after the event. -/
def WatchEvent.present : WatchEvent → Bool
  | create _ | closeWrite _ | movedTo _ => true
  | delete _ | movedFrom _ => false

/-- The file that a message brings, none if it takes the file away. -/
def Message.value : Message → Option Bytes
  | upload _ content _ => some content
  | delete _ => none

/-- What of it reaches the server. -/
def Message.arrival (message : Message) : Option Bytes := message.value.map arrives

def Message.values (name : Bytes) (messages : List Message) : List (Option Bytes) :=
  (messages.filter (·.name = name)).map Message.value

namespace SyncClient

/-- The file of the client under a name. -/
def content (client : SyncClient) (name : Bytes) : Option Bytes :=
  fileAt id (createFilepath client.folder name) client.disk

def changes (client : SyncClient) (name : Bytes) : List Bool :=
  (client.queue.filter (·.name = name)).map WatchEvent.present

/-- The client can write and remove every file of its folder. -/
def Grants (client : SyncClient) : Prop :=
  ∀ name : EntryName, ∃ path, createFilepath client.folder name.name = some path ∧
    client.access.opens path = true ∧ client.access.removes path = true

end SyncClient

/-- What the buffer of a session has under a name. -/
def Session.notices (session : Session) (name : Bytes) : List Bool :=
  (session.syncBuffer.filter (·.filename = name)).map (·.type = .send)

def Store.notices {Path : Type} (store : Store Path) (username : Bytes) (slot : ℕ)
    (name : Bytes) : List Bool :=
  ((store.session username slot).map (·.notices name)).getD []

/-- The file is small enough for its number of packets to be announced. -/
def Sized (content : Bytes) : Prop := content.length ≤ maxFileSize

instance (content : Bytes) : Decidable (Sized content) := inferInstanceAs (Decidable (_ ≤ _))

/-- What is compared of two files. -/
def contentCrc (content : Bytes) : UInt32 := crc32 (some content)

def LocalEdit.name : LocalEdit → Bytes
  | put name _ _ | take name _ => name.name

/-- The file that an edit leaves. -/
def LocalEdit.value : LocalEdit → Option Bytes
  | put _ content _ => some content
  | take _ _ => none

def EchoAction.Sized : EchoAction → Prop
  | .edit _ (.put _ content _) => SyncServer.Sized content
  | _ => True

instance : ∀ a : EchoAction, Decidable a.Sized
  | .edit _ (.put _ content _) => inferInstanceAs (Decidable (SyncServer.Sized content))
  | .edit _ (.take _ _) | .watch _ | .serve _ | .deliver _ | .receive _ =>
      inferInstanceAs (Decidable True)

namespace Echoing

section

variable (cwd : List Bytes) (username : Bytes)

/-- The original and the copies of one name, and what is under way about it. -/
def copies (s : Echoing) (name : Bytes) : Copies (Fin maxSessions) Bytes where
  original := s.content cwd username name
  copy i := (s.client i).content name
  changes i := (s.client i).changes name
  reports i := Message.values name (s.up i)
  notices i := s.store.notices username i name
  updates i := Message.values name (s.down i)

/-- Every client has a session, can write its folder and has the files of the server, and no file
is too large. -/
structure Synced (s : Echoing) : Prop where
  seated : ∀ i : Fin maxSessions, (s.store.session username i).isSome = true
  grants : ∀ i, (s.client i).Grants
  same : ∀ i (name : EntryName), ((s.client i).content name.name).map contentCrc =
    (s.content cwd username name.name).map contentCrc
  sized : ∀ name : EntryName, (s.copies cwd username name.name).All Sized

end

end Echoing

/-! ## The clients -/

/-- Different names of a folder have different paths. -/
theorem createFilepath_inj {basePath filename other path : Bytes}
    (h : createFilepath basePath filename = some path)
    (hother : createFilepath basePath other = some path) : other = filename := by
  obtain ⟨-, hfirst⟩ := Option.ite_none_left_eq_some.mp h
  obtain ⟨-, hsecond⟩ := Option.ite_none_left_eq_some.mp hother
  simpa using hsecond.trans hfirst.symm

namespace Message

@[simp] theorem values_nil (name : Bytes) : values name [] = [] := rfl

theorem values_cons_self (message : Message) (messages : List Message) :
    values message.name (message :: messages) = message.value :: values message.name messages := by
  simp [values]

theorem values_cons_of_ne {message : Message} {name : Bytes} (h : message.name ≠ name)
    (messages : List Message) : values name (message :: messages) = values name messages := by
  simp [values, h]

theorem values_append (name : Bytes) (messages messages' : List Message) :
    values name (messages ++ messages') = values name messages ++ values name messages' := by
  simp [values]

theorem values_eq_nil_of_ne {name : Bytes} {messages : List Message}
    (h : ∀ message ∈ messages, message.name ≠ name) : values name messages = [] := by
  simpa [values] using h

end Message

namespace SyncClient

variable {client client' : SyncClient} {name path : Bytes}

/-- A client with another file under a name, and with events that say so. -/
structure Assigned (client : SyncClient) (name : Bytes) (value : Option Bytes)
    (client' : SyncClient) : Prop where
  folder : client'.folder = client.folder
  access : client'.access = client.access
  content : ∀ other, client'.content other = if other = name then value else client.content other
  queue : ∃ events, client'.queue = client.queue ++ events ∧ (∀ e ∈ events, e.name = name) ∧
    (events.map WatchEvent.present).getLast? = some value.isSome

theorem content_update {disk : Disk Bytes} {folder other : Bytes} {value : Option Bytes}
    (hpath : createFilepath folder name = some path) :
    fileAt id (createFilepath folder other) (Function.update disk path value) =
      if other = name then value else fileAt id (createFilepath folder other) disk := by
  cases hother : createFilepath folder other with
  | none =>
      rw [if_neg]
      · rfl
      · rintro rfl
        rw [hother] at hpath
        cases hpath
  | some path' =>
      simp only [fileAt, Option.map_some, id_eq, Option.bind_some]
      by_cases hname : other = name
      · subst hname
        obtain rfl := Option.some.inj (hother.symm.trans hpath)
        rw [if_pos rfl, Function.update_self]
      · rw [if_neg hname, Function.update_of_ne]
        rintro rfl
        exact hname (createFilepath_inj hpath hother)

theorem present_written (name : Bytes) (before : Option Bytes) :
    ((written name before).map WatchEvent.present).getLast? = some true := by
  unfold written
  split <;> rfl

theorem Assigned.changes {value : Option Bytes} (h : client.Assigned name value client') :
    ∃ events, client'.changes name = client.changes name ++ events ∧
      events.getLast? = some value.isSome := by
  obtain ⟨events, hqueue, hnames, hlast⟩ := h.queue
  have hall : events.filter (·.name = name) = events := by
    rw [List.filter_eq_self]
    simpa using hnames
  refine ⟨events.map WatchEvent.present, ?_, hlast⟩
  rw [SyncClient.changes, hqueue, List.filter_append, hall, List.map_append]
  rfl

theorem Assigned.changes_of_ne {value : Option Bytes} (h : client.Assigned name value client')
    {other : Bytes} (hother : other ≠ name) : client'.changes other = client.changes other := by
  obtain ⟨events, hqueue, hnames, -⟩ := h.queue
  have hnone : events.filter (·.name = other) = [] := by
    rw [List.filter_eq_nil_iff]
    intro event hevent
    simpa [hnames event hevent] using hother.symm
  rw [SyncClient.changes, hqueue, List.filter_append, hnone, List.append_nil]
  rfl

theorem assigned_edit {change : LocalEdit} (h : client.edit change = some client') :
    client.Assigned change.name change.value client' := by
  cases change with
  | put name content moved =>
      obtain ⟨path, hpath, rfl⟩ := Option.map_eq_some_iff.mp h
      refine ⟨rfl, rfl, fun other => content_update hpath, _, rfl, ?_, ?_⟩
      · intro event hevent
        split at hevent
        · rw [List.mem_singleton.mp hevent]
          rfl
        · exact name_of_written hevent
      · split
        · rfl
        · exact present_written ..
  | take name moved =>
      obtain ⟨path, hpath, h⟩ := Option.bind_eq_some_iff.mp h
      obtain ⟨content, -, rfl⟩ := Option.map_eq_some_iff.mp h
      refine ⟨rfl, rfl, fun other => content_update hpath, _, rfl, ?_, ?_⟩
      · intro event hevent
        rw [List.mem_singleton.mp hevent]
        cases moved with
        | true => rfl
        | false => rfl
      · cases moved with
        | true => rfl
        | false => rfl

/-! ### The receiver thread -/

/-- The name of a message can be read out of its first packet. -/
def Readable (name : Bytes) : Prop := name.length + 16 < 2 ^ 16 ∧ 0 ∉ name

theorem receiveTransfer_upload {disk : Disk Bytes} {content : Bytes} {echo : Bool}
    (hname : Readable name) (hsized : Sized content)
    (hopened : opened id client.access (createFilepath client.folder name) = some path) :
    ∃ rest, receiveTransfer Socket.readPacket id client.access client.folder disk
        (Message.upload name content echo).socket =
      done (some name, Function.update disk path (some content), rest) := by
  have hcount : chunkCount content.length < 2 ^ 31 := (chunkCount_lt_iff _).mpr hsized
  have hwrite := writePackets_sendFile content .stalled (numPackets_eq hcount).le
  rw [arrives_of_lt hcount] at hwrite
  exact ⟨_, receiveTransfer_opened (numPackets_lt _) hname.1 hname.2 hopened rfl hwrite⟩

theorem receiveTransfer_delete {disk : Disk Bytes} (hname : Readable name) :
    receiveTransfer Socket.readPacket id client.access client.folder disk
        (Message.delete name).socket =
      done (some name, removePath id client.access (createFilepath client.folder name) disk,
        ⟨[], .stalled⟩) := by
  have hlength := hname.1
  have hpayload : cString (createTextPacket .delete name).payload = name := by
    rw [payload_createTextPacket (by omega), cString_of_zero_not_mem hname.2]
  have hread : (Message.delete name).socket.readPacket =
      done (some (createTextPacket .delete name), ⟨[], .stalled⟩) := rfl
  have htype : (createTextPacket .delete name).type = .delete := rfl
  simp only [receiveTransfer, hread, bind_done, deref_some, handleSendDelete, htype, deleteFile,
    hpayload]

/-- A message changes the file of its name at most. -/
theorem receiveTransfer_disk {message : Message} (hname : Readable message.name)
    {disk disk' : Disk Bytes} {filename : Option Bytes} {rest : Socket}
    (h : receiveTransfer Socket.readPacket id client.access client.folder disk message.socket =
      done (filename, disk', rest)) :
    disk' = disk ∨ ∃ path value, createFilepath client.folder message.name = some path ∧
      disk' = Function.update disk path value := by
  cases message with
  | upload name content echo =>
      have hread : (Message.upload name content echo).socket.readPacket =
        done (some (announcementPacket name (numPackets content.length)),
          ⟨(readFileChunks content).map (createTextPacket .data), .stalled⟩) := rfl
      rw [receiveTransfer_announced (numPackets_lt _) hname.1 hname.2 hread] at h
      obtain ⟨⟨disk₁, rest₁⟩, hwrite, h⟩ := bind_eq_done.mp h
      cases h
      unfold writePacketsToFile at hwrite
      split at hwrite
      · cases hwrite
        exact .inl rfl
      · rename_i path hopened
        obtain ⟨⟨written, rest₂⟩, -, hwrite⟩ := bind_eq_done.mp hwrite
        cases hwrite
        obtain ⟨hpath, -⟩ := Option.filter_eq_some_iff.mp hopened
        exact .inr ⟨path, some written, by simpa using hpath, rfl⟩
  | delete name =>
      have hreadable : Readable name := hname
      rw [receiveTransfer_delete hreadable] at h
      cases h
      unfold removePath
      split
      · exact .inl rfl
      · rename_i path hremoved
        obtain ⟨hpath, -⟩ := Option.filter_eq_some_iff.mp hremoved
        rw [Option.map_id, id_eq] at hpath
        exact .inr ⟨path, none, hpath, rfl⟩

/-- The files and the events of other names are as before. -/
theorem receive_of_ne {message : Message} (hname : Readable message.name)
    (h : client.receive message = some client') {other : Bytes} (hother : other ≠ message.name) :
    client'.content other = client.content other ∧
      client'.changes other = client.changes other := by
  obtain ⟨⟨filename, disk, rest⟩, htransfer, rfl⟩ := Option.map_eq_some_iff.mp h
  constructor
  · rcases receiveTransfer_disk hname (returned_eq_some.mp htransfer) with
      rfl | ⟨path, value, hpath, rfl⟩
    · rfl
    · exact (content_update hpath).trans (if_neg hother)
  · have hnone : (client.stored message).filter (·.name = other) = [] := by
      rw [List.filter_eq_nil_iff]
      intro event hevent
      simpa [name_of_stored hevent] using hother.symm
    simp only [changes, List.filter_append, hnone, List.append_nil]

theorem receive_frame {message : Message} (h : client.receive message = some client') :
    client'.folder = client.folder ∧ client'.access = client.access := by
  obtain ⟨⟨filename, disk, rest⟩, -, rfl⟩ := Option.map_eq_some_iff.mp h
  exact ⟨rfl, rfl⟩

theorem Grants.congr (h : client.Grants) (hfolder : client'.folder = client.folder)
    (haccess : client'.access = client.access) : client'.Grants := by
  intro name
  rw [hfolder, haccess]
  exact h name

/-- A message of a name of the folder is taken as it is, unless the file is gone on both sides. -/
theorem assigned_receive (hgrants : client.Grants) {message : Message} {name : EntryName}
    (hname : message.name = name.name) (hsized : ∀ content ∈ message.value, Sized content)
    (h : client.receive message = some client') :
    (message.value = none ∧ client.content name.name = none ∧
        client'.content name.name = none ∧ client'.changes name.name = client.changes name.name) ∨
      ¬(message.value = none ∧ client.content name.name = none) ∧
        client.Assigned name.name message.value client' := by
  obtain ⟨path, hpath, hopens, hremoves⟩ := hgrants name
  have hreadable : Readable name.name := by
    have hlength := name.length_le
    exact ⟨by omega, name.zero_not_mem⟩
  have hcontent : client.content name.name = client.disk path := by
    rw [content, hpath]
    rfl
  cases message with
  | upload other content echo =>
      obtain rfl : other = name.name := hname
      have hopened : opened id client.access (createFilepath client.folder name.name) =
          some path := by
        simp [opened, hpath, hopens]
      obtain ⟨rest, htransfer⟩ :
          ∃ rest, receiveTransfer Socket.readPacket id client.access client.folder client.disk
              (Message.upload name.name content echo).socket =
            done (some name.name, Function.update client.disk path (some content), rest) :=
        receiveTransfer_upload hreadable (hsized content rfl) hopened
      simp only [receive, htransfer, returned, Option.map_some, Option.some.injEq] at h
      subst h
      refine .inr ⟨?_, rfl, rfl, fun other => content_update hpath,
        written name.name (client.disk path), ?_, fun event => name_of_written, present_written ..⟩
      · rintro ⟨hnone, -⟩
        cases hnone
      · simp only [stored, hopened]
  | delete other =>
      obtain rfl : other = name.name := hname
      have hremoved : (createFilepath client.folder name.name).filter client.access.removes =
          some path := by
        simp [hpath, hremoves]
      have hdisk : removePath id client.access (createFilepath client.folder name.name)
          client.disk = Function.update client.disk path none := by
        simp [removePath, hpath, Option.filter_some, hremoves]
      simp only [receive, receiveTransfer_delete hreadable, hdisk, returned, Option.map_some,
        Option.some.injEq] at h
      subst h
      by_cases hthere : (client.disk path).isSome = true
      · refine .inr ⟨?_, rfl, rfl, fun other => content_update hpath, [.delete name.name], ?_,
          fun event hevent => by rw [List.mem_singleton.mp hevent]; rfl, rfl⟩
        · rintro ⟨-, hnone⟩
          rw [hcontent] at hnone
          simp [hnone] at hthere
        · simp only [stored, hremoved, hthere, ite_true]
      · have hnone : client.content name.name = none := by
          simpa [hcontent] using hthere
        refine .inl ⟨rfl, hnone, (content_update hpath).trans (if_pos rfl), ?_⟩
        simp only [changes, stored, hremoved, hthere, Bool.false_eq_true, ite_false,
          List.append_nil]

/-! ### The watcher -/

theorem watch_frame {sent : List Message} (h : client.watch = some (sent, client')) :
    client'.folder = client.folder ∧ client'.access = client.access ∧
      ∀ other, client'.content other = client.content other := by
  unfold watch at h
  split at h
  · cases h
  · cases h
    exact ⟨rfl, rfl, fun _ => rfl⟩

/-- The watcher reports the first event with the file as it is by then. -/
theorem watch_reads {sent : List Message} (h : client.watch = some (sent, client')) :
    ∃ event, client.queue = event :: client'.queue ∧ (∀ m ∈ sent, m.name = event.name) ∧
      sent.map Message.value = Copies.reading event.present (client.content event.name) := by
  obtain ⟨event, hqueue, hnames⟩ := watch_eq_some h
  refine ⟨event, hqueue, hnames, ?_⟩
  unfold watch at h
  rw [hqueue] at h
  cases event with
  | create name | closeWrite name | movedTo name =>
      obtain ⟨rfl, -⟩ := Prod.mk.inj (Option.some.inj h)
      simp only [WatchEvent.present, WatchEvent.name, Copies.reading, content, ite_true]
      cases fileAt id (createFilepath client.folder name) client.disk with
      | none => rfl
      | some content => rfl
  | delete name | movedFrom name =>
      obtain ⟨rfl, -⟩ := Prod.mk.inj (Option.some.inj h)
      rfl

end SyncClient

/-! ## The server -/

theorem Session.notices_enqueue (session : Session) (entry : FileEntry) (name : Bytes) :
    (session.enqueue entry).notices name = session.notices name ++
      if entry.filename = name then [decide (entry.type = .send)] else [] := by
  by_cases hname : entry.filename = name
  · simp [notices, enqueue, hname]
  · simp [notices, enqueue, hname]

namespace Store

variable {username : Bytes} {table table' : HashTable} {disk disk' : Disk (List Bytes)}
  {context context' : UserContext} {list : List FileNode} {receives : ℕ → Prop}
  {entry : FileEntry} {slot : ℕ}

/-- A session that is told of a change. -/
theorem session_of_receives (hfind : table.find username = some context)
    (hreplaces : table.Replaces username context' table')
    (hhanded : (context.setFileList list).Handed receives entry context') (hslot : receives slot) :
    Store.session ⟨table', disk'⟩ username slot =
      (Store.session ⟨table, disk⟩ username slot).map (Session.enqueue entry) := by
  rw [session_of_find hreplaces.find, session_of_find hfind, hhanded.slot slot hslot]
  exact Option.join_map_eq_map_join ..

theorem session_of_not_receives (hfind : table.find username = some context)
    (hreplaces : table.Replaces username context' table')
    (hhanded : (context.setFileList list).Handed receives entry context') (hslot : ¬receives slot) :
    Store.session ⟨table', disk'⟩ username slot = Store.session ⟨table, disk⟩ username slot := by
  rw [session_of_find hreplaces.find, session_of_find hfind, hhanded.slot_of_not slot hslot]
  rfl

end Store

namespace Echoing

section

variable {cwd : List Bytes} {access : FileAccess (List Bytes)} {username : Bytes}
  {s t : Echoing} {i : Fin maxSessions} {message : Message} {rest : List Message}

/-- The file of the message is stored or removed, and the other sessions are told if its CRC is
another one than before. -/
structure Accepted (cwd : List Bytes) (username : Bytes) (i : Fin maxSessions) (message : Message)
    (s t : Echoing) : Prop where
  client : t.client = s.client
  down : t.down = s.down
  content : ∀ name, Storable username name → t.content cwd username name =
    if name = message.name then message.arrival else s.content cwd username name
  notices : ∀ (j : Fin maxSessions) name, t.store.notices username j name =
    s.store.notices username j name ++
      if j ≠ i ∧ message.arrival.map contentCrc ≠
          (s.content cwd username message.name).map contentCrc ∧ message.name = name
      then [message.arrival.isSome] else []
  seated : ∀ j : Fin maxSessions, (t.store.session username j).isSome = true

/-- What the server has under a name after a change of its folder. -/
theorem fileAt_update {disk : Disk (List Bytes)} {filename : Bytes} {value : Option Bytes}
    {name : Bytes} (hname : Storable username name) :
    fileAt (resolve cwd) (userFilepath username name)
        (Function.update disk (userFolder cwd username ++ [filename]) value) =
      if name = filename then value
      else fileAt (resolve cwd) (userFilepath username name) disk := by
  rw [hname.fileAt, hname.fileAt]
  by_cases heq : name = filename
  · rw [if_pos heq, heq, Function.update_self]
  · have hne : userFolder cwd username ++ [name] ≠ userFolder cwd username ++ [filename] :=
      fun h => heq (append_component_inj.mp h)
    rw [if_neg heq, Function.update_of_ne hne]

/-- The buffers after a change that the sessions other than `i` are told of under a condition. -/
theorem notices_of_handed {store store' : Store (List Bytes)} {context context' : UserContext}
    {list : List FileNode} {entry : FileEntry} {changed : Prop} [Decidable changed]
    {receives : ℕ → Prop} (hfind : store.table.find username = some context)
    (hreplaces : store.table.Replaces username context' store'.table)
    (hhanded : (context.setFileList list).Handed receives entry context')
    (hreceives : ∀ j : Fin maxSessions, receives j ↔ changed ∧ j ≠ i)
    (hseated : ∀ j : Fin maxSessions, (store.session username j).isSome = true)
    (j : Fin maxSessions) (name : Bytes) :
    store'.notices username j name = store.notices username j name ++
        (if j ≠ i ∧ changed ∧ entry.filename = name then [decide (entry.type = .send)] else []) ∧
      (store'.session username j).isSome = true := by
  obtain ⟨session, hsession⟩ := Option.isSome_iff_exists.mp (hseated j)
  by_cases hj : receives j
  · obtain ⟨hchanged, hne⟩ := (hreceives j).mp hj
    have hnew : store'.session username j = (store.session username j).map
        (Session.enqueue entry) := Store.session_of_receives hfind hreplaces hhanded hj
    simp [Store.notices, hnew, hsession, Session.notices_enqueue, hchanged, hne]
  · have hold : store'.session username j = store.session username j :=
      Store.session_of_not_receives hfind hreplaces hhanded hj
    have hnot : ¬(j ≠ i ∧ changed ∧ entry.filename = name) := fun h =>
      hj ((hreceives j).mpr ⟨h.2.1, h.1⟩)
    rw [if_neg hnot, List.append_nil, Store.notices, Store.notices, hold, hsession]
    exact ⟨rfl, rfl⟩

/-- A session deletes a file, on either of its sockets. -/
theorem accepted_of_deleted (hkept : s.Kept cwd username)
    (hseated : ∀ j : Fin maxSessions, (s.store.session username j).isSome = true) {name : Bytes}
    (hname : Storable username name) {context context' : UserContext}
    (hfind : s.store.table.find username = some context)
    (hdone : Deleted (userFolder cwd username) true username i name s.store context t.store
      context') (hclient : t.client = s.client) (hdown : t.down = s.down) :
    s.Accepted cwd username i (.delete name) t := by
  have hlisted : listed context.fileList name =
      (s.content cwd username name).map contentCrc := by
    rw [content, hname.fileAt, ← HashTable.fileList_of_find hfind]
    exact hkept.mirrors.listed name hname.1
  have hreceives : ∀ j : Fin maxSessions,
      (true = true ∧ listed context.fileList name ≠ none ∧ (j : ℕ) ≠ i) ↔
        none ≠ (s.content cwd username name).map contentCrc ∧ j ≠ i := by
    intro j
    rw [hlisted, ne_comm]
    simp only [true_and, Fin.val_inj, ne_eq]
  have hnotices := notices_of_handed hfind hdone.replaces hdone.handed hreceives hseated
  refine ⟨hclient, hdown, fun other hother => ?_, fun j other => (hnotices j other).1,
    fun j => (hnotices j []).2⟩
  rw [Echoing.content, hdone.disk, fileAt_update hother]
  rfl

theorem accepted_of_serve (hgrants : access.Grants (userFolder cwd username))
    (hkept : s.Kept cwd username)
    (hseated : ∀ j : Fin maxSessions, (s.store.session username j).isSome = true)
    (hhead : s.up i = message :: rest)
    (hstep : step cwd access username s (.serve i) = some t) :
    s.Accepted cwd username i message t ∧ t.up = Function.update s.up i rest := by
  have hname := hkept.named.up i message (hhead ▸ List.mem_cons_self)
  simp only [step, hhead] at hstep
  obtain ⟨session, hsession, hstep⟩ := Option.bind_eq_some_iff.mp hstep
  obtain ⟨handled, hhandled, rfl⟩ := Option.map_eq_some_iff.mp hstep
  obtain ⟨hfound, hactive⟩ := activeSession_eq_some.mp hsession
  obtain ⟨context, hfind, hslot⟩ := Store.session_eq_some.mp hfound
  have hindex := context.indexed i session hslot
  cases message with
  | upload name content echo =>
      have hname : Storable username name := hname
      have hlisted : listed context.fileList name =
          (s.content cwd username name).map contentCrc := by
        rw [Echoing.content, hname.fileAt, ← HashTable.fileList_of_find hfind]
        exact hkept.mirrors.listed name hname.1
      have hreceives : ∀ j : Fin maxSessions,
          (true = true ∧ listed context.fileList name ≠ some (contentCrc (arrives content)) ∧
              (j : ℕ) ≠ session.sessionIndex) ↔
            some (contentCrc (arrives content)) ≠
              (s.content cwd username name).map contentCrc ∧ j ≠ i := by
        intro j
        rw [hlisted, hindex, ne_comm]
        simp only [true_and, Fin.val_inj, ne_eq]
      obtain ⟨context', hdone⟩ :=
        uploaded_of_served hgrants hname hactive hfind (returned_eq_some.mp hhandled)
      have hnotices := notices_of_handed hfind hdone.replaces hdone.handed hreceives hseated
      refine ⟨⟨rfl, rfl, fun other hother => ?_, fun j other => (hnotices j other).1,
        fun j => (hnotices j []).2⟩, rfl⟩
      rw [Echoing.content, hdone.disk, fileAt_update hother]
      rfl
  | delete name =>
      obtain ⟨context', hdone⟩ :=
        deleted_of_served hgrants hname hactive hfind (returned_eq_some.mp hhandled)
      rw [hindex] at hdone
      exact ⟨accepted_of_deleted hkept hseated hname hfind hdone rfl rfl, rfl⟩

/-! ## One name in a step -/

/-- The copies of a name are as before, or they take a step. -/
def Advances (s t : Copies (Fin maxSessions) Bytes) : Prop :=
  t = s ∨ ∃ a : Copies.Action (Fin maxSessions) Bytes, a.Brings Sized ∧
    Copies.step contentCrc s a = some t

theorem comp_update {α β : Type*} (f : α → β) (g : Fin maxSessions → α) (i : Fin maxSessions)
    (a : α) : (fun j => f (Function.update g i a j)) = Function.update (fun j => f (g j)) i (f a) :=
  funext fun j => Function.apply_update (fun _ => f) g i a j

theorem comp_update_self {α β : Type*} (f : α → β) {g : Fin maxSessions → α}
    {i : Fin maxSessions} {a : α} (h : f a = f (g i)) :
    (fun j => f (Function.update g i a j)) = fun j => f (g j) := by
  rw [comp_update, h]
  exact Function.update_eq_self i fun j => f (g j)

section

variable {client : SyncClient} {name other : Bytes} {value : Option Bytes}

variable (cwd username) in
theorem copies_assigned (h : (s.client i).Assigned name value client) :
    ∃ events, (s.copies cwd username name).assign i value events =
      some (copies cwd username { s with client := Function.update s.client i client } name) := by
  obtain ⟨events, hchanges, hlast⟩ := h.changes
  refine ⟨events, Copies.assign_eq_some.mpr ⟨hlast, ?_⟩⟩
  refine Copies.ext rfl ?_ ?_ rfl rfl rfl
  · refine (comp_update (SyncClient.content · name) s.client i client).trans ?_
    rw [h.content name, if_pos rfl]
    rfl
  · refine (comp_update (SyncClient.changes · name) s.client i client).trans ?_
    rw [hchanges]
    rfl

variable (cwd username) in
theorem copies_client (hcontent : client.content name = (s.client i).content name)
    (hchanges : client.changes name = (s.client i).changes name) :
    copies cwd username { s with client := Function.update s.client i client } name =
      s.copies cwd username name :=
  Copies.ext rfl (comp_update_self (SyncClient.content · name) hcontent)
    (comp_update_self (SyncClient.changes · name) hchanges) rfl rfl rfl

variable (cwd username) in
theorem copies_down_self (hhead : s.down i = message :: rest) :
    (s.copies cwd username message.name).updates i =
        message.value :: Message.values message.name rest ∧
      copies cwd username { s with down := Function.update s.down i rest } message.name =
        { s.copies cwd username message.name with
          updates := Function.update (s.copies cwd username message.name).updates i
            (Message.values message.name rest) } := by
  constructor
  · simp only [copies, hhead, Message.values_cons_self]
  · exact Copies.ext rfl rfl rfl rfl rfl (comp_update (Message.values message.name) s.down i rest)

theorem copies_down_of_ne (hhead : s.down i = message :: rest) (hname : message.name ≠ name) :
    copies cwd username { s with down := Function.update s.down i rest } name =
      s.copies cwd username name := by
  refine Copies.ext rfl rfl rfl rfl rfl (comp_update_self (Message.values name) ?_)
  rw [hhead, Message.values_cons_of_ne hname]

end

theorem advances_edit {client : SyncClient} {change : LocalEdit}
    (hedit : (s.client i).edit change = some client)
    (hsized : (EchoAction.edit i change).Sized) (name : Bytes) :
    Advances (s.copies cwd username name)
      (copies cwd username { s with client := Function.update s.client i client } name) := by
  have hassigned := SyncClient.assigned_edit hedit
  by_cases hname : name = change.name
  · subst hname
    obtain ⟨events, hassign⟩ := copies_assigned cwd username hassigned
    refine .inr ⟨.change i change.value events, ?_, hassign⟩
    cases change with
    | put name content moved =>
        rintro _ ⟨⟩
        exact hsized
    | take name moved => rintro _ ⟨⟩
  · exact .inl (copies_client cwd username ((hassigned.content name).trans (if_neg hname))
      (hassigned.changes_of_ne hname))

theorem advances_watch {client : SyncClient} {sent : List Message}
    (hwatch : (s.client i).watch = some (sent, client)) (name : Bytes) :
    Advances (s.copies cwd username name)
      (copies cwd username { s with
        client := Function.update s.client i client
        up := Function.update s.up i (s.up i ++ sent) } name) := by
  obtain ⟨event, hqueue, hnames, hreading⟩ := SyncClient.watch_reads hwatch
  have hcontent := (SyncClient.watch_frame hwatch).2.2 name
  by_cases hname : event.name = name
  · subst hname
    have hhead : (s.copies cwd username event.name).changes i =
        event.present :: client.changes event.name := by
      simp [copies, SyncClient.changes, hqueue]
    have hvalues : Message.values event.name sent =
        Copies.reading event.present ((s.client i).content event.name) := by
      rw [← hreading, Message.values, List.filter_eq_self.mpr (by simpa using hnames)]
    refine .inr ⟨.report i, trivial, ?_⟩
    simp only [Copies.step, hhead, Option.some.injEq]
    refine Copies.ext rfl ?_ ?_ ?_ rfl rfl
    · exact (comp_update_self (SyncClient.content · event.name) hcontent).symm
    · exact (comp_update (SyncClient.changes · event.name) s.client i client).symm
    · refine ((comp_update (Message.values event.name) s.up i (s.up i ++ sent)).trans ?_).symm
      rw [Message.values_append, hvalues]
      rfl
  · have hchanges : client.changes name = (s.client i).changes name := by
      simp [SyncClient.changes, hqueue, hname]
    have hnone : Message.values name sent = [] :=
      Message.values_eq_nil_of_ne fun m hm => hnames m hm ▸ hname
    left
    refine Copies.ext rfl ?_ ?_ ?_ rfl rfl
    · exact comp_update_self (SyncClient.content · name) hcontent
    · exact comp_update_self (SyncClient.changes · name) hchanges
    · refine comp_update_self (Message.values name) ?_
      rw [Message.values_append, hnone, List.append_nil]

theorem advances_serve (h : s.Accepted cwd username i message t)
    (hup : t.up = Function.update s.up i rest) (hhead : s.up i = message :: rest) {name : Bytes}
    (hname : Storable username name)
    (harrival : message.name = name → message.arrival = message.value) :
    Advances (s.copies cwd username name) (t.copies cwd username name) := by
  have hcopy : (t.copies cwd username name).copy = (s.copies cwd username name).copy := by
    simp only [copies, h.client]
  have hchanges : (t.copies cwd username name).changes = (s.copies cwd username name).changes := by
    simp only [copies, h.client]
  have hupdates : (t.copies cwd username name).updates = (s.copies cwd username name).updates := by
    simp only [copies, h.down]
  have hreports : (t.copies cwd username name).reports =
      Function.update (s.copies cwd username name).reports i (Message.values name rest) := by
    simp only [copies, hup]
    exact comp_update (Message.values name) s.up i rest
  by_cases heq : message.name = name
  · subst heq
    have hfirst : (s.copies cwd username message.name).reports i =
        message.value :: Message.values message.name rest := by
      simp only [copies, hhead, Message.values_cons_self]
    refine .inr ⟨.accept i, trivial, ?_⟩
    simp only [Copies.step, hfirst, Option.some.injEq]
    symm
    refine Copies.ext ?_ hcopy hchanges hreports ?_ hupdates
    · exact (h.content message.name hname).trans ((if_pos rfl).trans (harrival rfl))
    · funext j
      refine (h.notices j message.name).trans ?_
      simp only [and_true, harrival]
      rfl
  · left
    refine Copies.ext ?_ hcopy hchanges ?_ ?_ hupdates
    · exact (h.content name hname).trans (if_neg fun h => heq h.symm)
    · rw [hreports, ← Message.values_cons_of_ne heq, ← hhead]
      exact Function.update_eq_self i fun j => Message.values name (s.up j)
    · funext j
      refine (h.notices j name).trans ?_
      simp only [heq, and_false, ite_false, List.append_nil]
      rfl

theorem advances_receive {client : SyncClient} (hgrants : (s.client i).Grants)
    (hhead : s.down i = message :: rest) (hreadable : SyncClient.Readable message.name)
    {name : EntryName}
    (hsized : message.name = name.name → ∀ content ∈ message.value, Sized content)
    (hreceive : (s.client i).receive message = some client) :
    Advances (s.copies cwd username name.name)
      (copies cwd username { s with
        client := Function.update s.client i client
        down := Function.update s.down i rest } name.name) := by
  by_cases hname : message.name = name.name
  · obtain ⟨hupdates, hdown⟩ := copies_down_self cwd username hhead
    rw [hname] at hupdates hdown
    rcases SyncClient.assigned_receive hgrants hname (hsized hname) hreceive with
      ⟨hvalue, hgone, hcontent, hchanges⟩ | ⟨hnot, hassigned⟩
    · have hclient := copies_client cwd username
        (s := { s with down := Function.update s.down i rest }) (hcontent.trans hgone.symm) hchanges
      refine .inr ⟨.receive i [], trivial, ?_⟩
      rw [hclient, hdown, Copies.step, hupdates]
      exact if_pos ⟨hvalue, hgone⟩
    · obtain ⟨events, hassign⟩ := copies_assigned cwd username
        (s := { s with down := Function.update s.down i rest }) hassigned
      refine .inr ⟨.receive i events, trivial, ?_⟩
      rw [← hassign, hdown, Copies.step, hupdates]
      exact if_neg hnot
  · left
    obtain ⟨hcontent, hchanges⟩ := SyncClient.receive_of_ne hreadable hreceive
      fun h => hname h.symm
    have hclient := copies_client cwd username
      (s := { s with down := Function.update s.down i rest }) hcontent hchanges
    exact hclient.trans (copies_down_of_ne hhead hname)

theorem values_delivery (disk : Disk (List Bytes)) (entry : FileEntry) :
    Message.values entry.filename (delivery cwd username disk entry) =
      Copies.reading (entry.type = .send)
        (fileAt (resolve cwd) (userFilepath username entry.filename) disk) := by
  obtain ⟨type, filename⟩ := entry
  cases type with
  | send =>
      simp only [delivery, Copies.reading, decide_true, ite_true]
      cases fileAt (resolve cwd) (userFilepath username filename) disk with
      | none => rfl
      | some content => exact Message.values_cons_self (.upload filename content false) []
  | delete => exact Message.values_cons_self (.delete filename) []

theorem advances_deliver (hstep : step cwd access username s (.deliver i) = some t)
    (name : Bytes) :
    Advances (s.copies cwd username name) (t.copies cwd username name) ∧
      ∀ j : Fin maxSessions, (t.store.session username j).isSome =
        (s.store.session username j).isSome := by
  obtain ⟨session, hsession, hstep⟩ := Option.bind_eq_some_iff.mp hstep
  obtain ⟨⟨entry, session'⟩, hnext, rfl⟩ := Option.map_eq_some_iff.mp hstep
  have hfound := (activeSession_eq_some.mp hsession).1
  obtain ⟨context, hfind, hslot⟩ := Store.session_eq_some.mp hfound
  obtain ⟨hentries, hindex, -⟩ := getNextFileToSync_eq_some hnext
  rw [context.indexed i session hslot] at hindex
  have hself : Store.session ⟨s.store.table.modify username (·.addSession session'),
      s.store.disk⟩ username i = some session' :=
    hindex ▸ Store.session_addSession_self (hindex ▸ hfound) s.store.disk
  have hothers : ∀ j : Fin maxSessions, j ≠ i →
      Store.session ⟨s.store.table.modify username (·.addSession session'), s.store.disk⟩
        username j = s.store.session username j := fun j hj =>
    Store.session_addSession_of_ne (fun h => hj (Fin.ext (h.symm.trans hindex))) s.store.disk
  refine ⟨?_, fun j => ?_⟩
  · by_cases hname : entry.filename = name
    · subst hname
      refine .inr ⟨.answer i, trivial, ?_⟩
      have hhead : (s.copies cwd username entry.filename).notices i =
          decide (entry.type = .send) :: session'.notices entry.filename := by
        simp [copies, Store.notices, hfound, Session.notices, hentries]
      simp only [Copies.step, hhead, Option.some.injEq]
      symm
      refine Copies.ext rfl rfl rfl rfl ?_ ?_
      · funext j
        change _ = Function.update (s.copies cwd username entry.filename).notices i
          (session'.notices entry.filename) j
        by_cases hj : j = i
        · subst hj
          rw [Function.update_self]
          simp only [copies, Store.notices, hself, Option.map_some, Option.getD_some]
        · rw [Function.update_of_ne hj]
          simp only [copies, Store.notices, hothers j hj]
      · refine (comp_update (Message.values entry.filename) s.down i _).trans ?_
        rw [Message.values_append, values_delivery]
        rfl
    · left
      refine Copies.ext rfl rfl rfl rfl ?_ ?_
      · funext j
        by_cases hj : j = i
        · subst hj
          simp [copies, Store.notices, hself, hfound, Session.notices, hentries, hname]
        · simp only [copies, Store.notices, hothers j hj]
      · have hnone : Message.values name (delivery cwd username s.store.disk entry) = [] :=
          Message.values_eq_nil_of_ne fun m hm => name_of_delivery hm ▸ hname
        refine comp_update_self (Message.values name) ?_
        rw [Message.values_append, hnone, List.append_nil]
  · by_cases hj : j = i
    · subst hj
      rw [hself, hfound]
      rfl
    · rw [hothers j hj]

end

/-! ## Every run -/

section

variable {cwd : List Bytes} {access : FileAccess (List Bytes)} {username : Username}

/-- The name of an entry of a folder. -/
def IsEntryName (name : Bytes) : Prop := ∃ entry : EntryName, entry.name = name

/-- Whatever is under way is about entries of the folders. -/
theorem named_of_step (hgrants : access.Grants (userFolder cwd username.name)) {s t : Echoing}
    {action : EchoAction} (hkept : s.Kept cwd username.name)
    (h : s.Named username.name IsEntryName)
    (hstep : step cwd access username.name s action = some t) :
    t.Named username.name IsEntryName := by
  obtain ⟨hqueue, hup, hdown, hbuffer⟩ := h
  cases action with
  | edit i change =>
      obtain ⟨client, hedit, rfl⟩ := Option.map_eq_some_iff.mp hstep
      refine ⟨events_update hqueue fun event hevent => ?_, hup, hdown, hbuffer⟩
      rcases SyncClient.queue_of_edit hedit hevent with hold | ⟨name, hname⟩
      · exact hqueue i event hold
      · exact ⟨name, hname.symm⟩
  | watch i =>
      obtain ⟨⟨sent, client⟩, hwatch, rfl⟩ := Option.map_eq_some_iff.mp hstep
      obtain ⟨event, hevents, hsent⟩ := SyncClient.watch_eq_some hwatch
      refine ⟨events_update hqueue fun other hother => ?_,
        messages_update hup fun message hmessage => ?_, hdown, hbuffer⟩
      · exact hqueue i other (hevents ▸ List.mem_cons_of_mem _ hother)
      · rcases List.mem_append.mp hmessage with hmessage | hmessage
        · exact hup i message hmessage
        · rw [hsent message hmessage]
          exact hqueue i event (hevents ▸ List.mem_cons_self)
  | serve i =>
      rw [step] at hstep
      split at hstep
      · cases hstep
      · rename_i message rest hhead
        obtain ⟨session, hsession, hstep⟩ := Option.bind_eq_some_iff.mp hstep
        obtain ⟨handled, hhandled, rfl⟩ := Option.map_eq_some_iff.mp hstep
        obtain ⟨hfound, hactive⟩ := activeSession_eq_some.mp hsession
        obtain ⟨context, hfind, -⟩ := Store.session_eq_some.mp hfound
        have hstorable := hkept.named.up i message (hhead ▸ List.mem_cons_self)
        have hname := hup i message (hhead ▸ List.mem_cons_self)
        refine ⟨hqueue, messages_update hup fun other hother => ?_, hdown, ?_⟩
        · exact hup i other (hhead ▸ List.mem_cons_of_mem _ hother)
        · cases message with
          | upload name content echo =>
              obtain ⟨context', hdone⟩ := uploaded_of_served hgrants hstorable hactive hfind
                (returned_eq_some.mp hhandled)
              exact buffer_of_handed hfind hdone.replaces hdone.handed hname hbuffer
          | delete name =>
              obtain ⟨context', hdone⟩ := deleted_of_served hgrants hstorable hactive hfind
                (returned_eq_some.mp hhandled)
              exact buffer_of_handed hfind hdone.replaces hdone.handed hname hbuffer
  | deliver i =>
      obtain ⟨session, hsession, hstep⟩ := Option.bind_eq_some_iff.mp hstep
      obtain ⟨⟨entry, session'⟩, hnext, rfl⟩ := Option.map_eq_some_iff.mp hstep
      have hfound := (activeSession_eq_some.mp hsession).1
      obtain ⟨context, hfind, hslot⟩ := Store.session_eq_some.mp hfound
      obtain ⟨hentries, hindex, -⟩ := getNextFileToSync_eq_some hnext
      rw [context.indexed i session hslot] at hindex
      refine ⟨hqueue, hup, messages_update hdown fun message hmessage => ?_,
        fun slot found hslot other hother => ?_⟩
      · rcases List.mem_append.mp hmessage with hmessage | hmessage
        · exact hdown i message hmessage
        · rw [name_of_delivery hmessage]
          exact hbuffer i session hfound entry (hentries ▸ List.mem_cons_self)
      · by_cases heq : session'.sessionIndex = slot
        · have hself := Store.session_addSession_self (hindex ▸ hfound) s.store.disk
          rw [← heq, hself] at hslot
          cases hslot
          exact hbuffer i session hfound other (hentries ▸ List.mem_cons_of_mem _ hother)
        · rw [Store.session_addSession_of_ne heq] at hslot
          exact hbuffer slot found hslot other hother
  | receive i =>
      rw [step] at hstep
      split at hstep
      · cases hstep
      · rename_i message rest hhead
        obtain ⟨client, hreceive, rfl⟩ := Option.map_eq_some_iff.mp hstep
        refine ⟨events_update hqueue fun event hevent => ?_, hup,
          messages_update hdown fun other hother => ?_, hbuffer⟩
        · rcases SyncClient.queue_of_receive hreceive hevent with hold | hname
          · exact hqueue i event hold
          · rw [hname]
            exact hdown i message (hhead ▸ List.mem_cons_self)
        · exact hdown i other (hhead ▸ List.mem_cons_of_mem _ hother)

/-- What every step keeps, if nothing but the steps changes who is not told that a file is gone. -/
structure Upheld (cwd : List Bytes) (username : Username)
    (untold : Bytes → Fin maxSessions → Prop) (s : Echoing) : Prop where
  kept : s.Kept cwd username.name
  entries : s.Named username.name IsEntryName
  seated : ∀ i : Fin maxSessions, (s.store.session username.name i).isSome = true
  grants : ∀ i, (s.client i).Grants
  sized : ∀ name : EntryName, (s.copies cwd username.name name.name).All Sized
  settling : ∀ (name : EntryName) i,
    (s.copies cwd username.name name.name).Settling contentCrc (untold name.name i) i

variable {untold : Bytes → Fin maxSessions → Prop}

theorem mem_values {message : Message} {messages : List Message} (h : message ∈ messages) :
    message.value ∈ Message.values message.name messages :=
  List.mem_map.mpr ⟨message, List.mem_filter.mpr ⟨h, by simp⟩, rfl⟩

theorem Upheld.advance {s t : Echoing} (h : s.Upheld cwd username untold)
    (hkept : t.Kept cwd username.name) (hentries : t.Named username.name IsEntryName)
    (hseated : ∀ i : Fin maxSessions, (t.store.session username.name i).isSome = true)
    (hgrants : ∀ i, (t.client i).Grants)
    (hadvances : ∀ name : EntryName, Advances (s.copies cwd username.name name.name)
      (t.copies cwd username.name name.name)) :
    t.Upheld cwd username untold ∧ ∀ name : EntryName,
      Advances (s.copies cwd username.name name.name) (t.copies cwd username.name name.name) := by
  refine ⟨⟨hkept, hentries, hseated, hgrants, fun name => ?_, fun name i => ?_⟩, hadvances⟩
  · rcases hadvances name with heq | ⟨a, ha, hstep⟩
    · rw [heq]
      exact h.sized name
    · exact (h.sized name).step ha hstep
  · rcases hadvances name with heq | ⟨a, -, hstep⟩
    · rw [heq]
      exact h.settling name i
    · exact (h.settling name i).step hstep

/-- A file that is reported is small enough. -/
theorem Upheld.sized_up {s : Echoing} (h : s.Upheld cwd username untold) {i : Fin maxSessions}
    {message : Message} (hmessage : message ∈ s.up i) :
    ∀ content ∈ message.value, Sized content := by
  obtain ⟨entry, hname⟩ := h.entries.up i message hmessage
  exact (h.sized entry).reports i message.value (hname ▸ mem_values hmessage)

/-- So everything of it arrives. -/
theorem Upheld.arrival {s : Echoing} (h : s.Upheld cwd username untold) {i : Fin maxSessions}
    {message : Message} (hmessage : message ∈ s.up i) : message.arrival = message.value := by
  have hsized := h.sized_up hmessage
  cases message with
  | upload other content echo =>
      have hcount : chunkCount content.length < 2 ^ 31 :=
        (chunkCount_lt_iff _).mpr (hsized content rfl)
      exact congrArg some (arrives_of_lt hcount)
  | delete other => rfl

theorem grants_update {clients : Fin maxSessions → SyncClient} {i : Fin maxSessions}
    {client : SyncClient} (h : ∀ j, (clients j).Grants)
    (hfolder : client.folder = (clients i).folder) (haccess : client.access = (clients i).access) :
    ∀ j, (Function.update clients i client j).Grants :=
  forall_update (P := SyncClient.Grants) h ((h i).congr hfolder haccess)

/-- Every step is a step of each name, or none. -/
theorem upheld_of_step (hgrants : access.Grants (userFolder cwd username.name)) {s t : Echoing}
    {action : EchoAction} (h : s.Upheld cwd username untold) (hsized : action.Sized)
    (hstep : step cwd access username.name s action = some t) :
    t.Upheld cwd username untold ∧ ∀ name : EntryName,
      Advances (s.copies cwd username.name name.name) (t.copies cwd username.name name.name) := by
  have hkept := kept_of_step hgrants h.kept hstep
  have hentries := named_of_step hgrants h.kept h.entries hstep
  cases action with
  | edit i change =>
      obtain ⟨client, hedit, rfl⟩ := Option.map_eq_some_iff.mp hstep
      have hassigned := SyncClient.assigned_edit hedit
      have hgrants := grants_update h.grants hassigned.folder hassigned.access
      exact h.advance hkept hentries h.seated hgrants fun name =>
        advances_edit hedit hsized name.name
  | watch i =>
      obtain ⟨⟨sent, client⟩, hwatch, rfl⟩ := Option.map_eq_some_iff.mp hstep
      obtain ⟨hfolder, haccess, -⟩ := SyncClient.watch_frame hwatch
      exact h.advance hkept hentries h.seated (grants_update h.grants hfolder haccess)
        fun name => advances_watch hwatch name.name
  | serve i =>
      cases hhead : s.up i with
      | nil =>
          simp only [step, hhead] at hstep
          cases hstep
      | cons message rest =>
          obtain ⟨haccepted, hup⟩ := accepted_of_serve hgrants h.kept h.seated hhead hstep
          refine h.advance hkept hentries haccepted.seated ?_ fun name =>
            advances_serve haccepted hup hhead (name.storable username) fun _ => ?_
          · rw [haccepted.client]
            exact h.grants
          · exact h.arrival (hhead ▸ List.mem_cons_self)
  | deliver i =>
      have hdeliver := advances_deliver hstep
      refine h.advance hkept hentries ?_ ?_ fun name => (hdeliver name.name).1
      · intro j
        rw [(hdeliver []).2 j]
        exact h.seated j
      · obtain ⟨session, -, hstep⟩ := Option.bind_eq_some_iff.mp hstep
        obtain ⟨-, -, rfl⟩ := Option.map_eq_some_iff.mp hstep
        exact h.grants
  | receive i =>
      rw [step] at hstep
      split at hstep
      · cases hstep
      · rename_i message rest hhead
        obtain ⟨client, hreceive, rfl⟩ := Option.map_eq_some_iff.mp hstep
        obtain ⟨hfolder, haccess⟩ := SyncClient.receive_frame hreceive
        have hname := h.kept.named.down i message (hhead ▸ List.mem_cons_self)
        have hgrants := grants_update h.grants hfolder haccess
        refine h.advance hkept hentries h.seated hgrants fun name =>
          advances_receive (h.grants i) hhead ⟨hname.length_lt, hname.2.1⟩ (fun heq => ?_) hreceive
        exact (h.sized name).updates i message.value (heq ▸ mem_values (hhead ▸ List.mem_cons_self))

theorem Fresh.upheld {s : Echoing} (h : s.Fresh cwd username.name)
    (hsynced : s.Synced cwd username.name) :
    s.Upheld cwd username untold where
  kept := h.kept
  entries :=
    { queue := fun i event hevent => by rw [h.queue i] at hevent; cases hevent
      up := fun i message hmessage => by rw [h.up i] at hmessage; cases hmessage
      down := fun i message hmessage => by rw [h.down i] at hmessage; cases hmessage
      buffer := fun slot session hsession entry hentry => by
        rw [h.buffer slot session hsession] at hentry
        cases hentry }
  seated := hsynced.seated
  grants := hsynced.grants
  sized := hsynced.sized
  settling name i := by
    have hchanges : (s.copies cwd username.name name.name).changes i = [] := by
      simp [copies, SyncClient.changes, h.queue i]
    have hreports : (s.copies cwd username.name name.name).reports i = [] := by
      simp [copies, h.up i]
    refine ⟨?_, ?_, fun _ _ => .inl (hsynced.same i name)⟩
    · simp [hchanges]
    · simp [hreports]

/-- Nothing is under way between a client and the server about a name. -/
structure AtRest (username : Bytes) (s : Echoing) (i : Fin maxSessions) (name : Bytes) :
    Prop where
  queue : ∀ event ∈ (s.client i).queue, event.name ≠ name
  up : ∀ message ∈ s.up i, message.name ≠ name
  down : ∀ message ∈ s.down i, message.name ≠ name
  buffer : ∀ session ∈ s.store.session username i, ∀ entry ∈ session.syncBuffer,
    entry.filename ≠ name

/-- A client at rest about a name has the file that the server stores, unless it was not told that
the file is gone. -/
theorem Upheld.settled {t : Echoing} (h : t.Upheld cwd username untold) {i : Fin maxSessions}
    {name : EntryName} (hrest : t.AtRest username.name i name.name) :
    ((t.client i).content name.name).map contentCrc =
        (t.content cwd username.name name.name).map contentCrc ∨
      t.content cwd username.name name.name = none ∧ untold name.name i := by
  obtain ⟨session, hsession⟩ := Option.isSome_iff_exists.mp (h.seated i)
  have hchanges : (t.copies cwd username.name name.name).changes i = [] := by
    simpa [copies, SyncClient.changes] using hrest.queue
  have hnotices : (t.copies cwd username.name name.name).notices i = [] := by
    simpa [copies, Store.notices, Session.notices, hsession] using hrest.buffer session hsession
  exact (h.settling name i).digest_eq hchanges (Message.values_eq_nil_of_ne hrest.up) hnotices
    (Message.values_eq_nil_of_ne hrest.down)

/-- The list records the checksum of the file that is stored. -/
theorem Kept.listed {t : Echoing} (h : t.Kept cwd username.name) (name : EntryName) :
    SyncServer.listed (t.store.table.fileList username.name) name.name =
      (t.content cwd username.name name.name).map contentCrc := by
  have hname := name.storable username
  rw [Echoing.content, hname.fileAt]
  exact h.mirrors.listed name.name hname.1

/-- For each name, a run of the server and its clients is a run of an original and its copies. -/
theorem copies_refine (hgrants : access.Grants (userFolder cwd username.name)) {s t : Echoing}
    (hfresh : s.Fresh cwd username.name) (hsynced : s.Synced cwd username.name)
    {actions : List EchoAction}
    (hsized : Along (step cwd access username.name) (fun _ a => a.Sized) s actions)
    (hrun : run (step cwd access username.name) s actions = some t) (name : EntryName) :
    ∃ as : List (Copies.Action (Fin maxSessions) Bytes), (∀ a ∈ as, a.Brings Sized) ∧
      run (Copies.step contentCrc) (s.copies cwd username.name name.name) as =
        some (t.copies cwd username.name name.name) := by
  refine (hsized.invariant (I := fun u => u.Upheld cwd username (fun _ _ => False) ∧
    ∃ as : List (Copies.Action (Fin maxSessions) Bytes), (∀ a ∈ as, a.Brings Sized) ∧
      run (Copies.step contentCrc) (s.copies cwd username.name name.name) as =
        some (u.copies cwd username.name name.name)) ?_ ⟨hfresh.upheld hsynced, [], ?_, rfl⟩ hrun).2
  · rintro u action v ⟨hupheld, as, hbrings, has⟩ ha hstep
    obtain ⟨hupheld', hadvances⟩ := upheld_of_step hgrants hupheld ha hstep
    refine ⟨hupheld', ?_⟩
    rcases hadvances name with heq | ⟨a, hbring, hnext⟩
    · exact ⟨as, hbrings, heq ▸ has⟩
    · refine ⟨as ++ [a], ?_, run_concat_eq_some.mpr ⟨_, has, hnext⟩⟩
      simpa [or_imp, forall_and] using ⟨hbrings, hbring⟩
  · simp

/-- In every run of whole calls from a start where all have the same files, whatever the order of
the calls, a client with nothing under way about a name has the file that the list of the server
records: the CRC of both is the same. -/
theorem copies_converge (hgrants : access.Grants (userFolder cwd username.name)) {s t : Echoing}
    (hfresh : s.Fresh cwd username.name) (hsynced : s.Synced cwd username.name)
    {actions : List EchoAction}
    (hsized : Along (step cwd access username.name) (fun _ a => a.Sized) s actions)
    (hrun : run (step cwd access username.name) s actions = some t) {i : Fin maxSessions}
    {name : EntryName} (hqueue : ∀ event ∈ (t.client i).queue, event.name ≠ name.name)
    (hup : ∀ message ∈ t.up i, message.name ≠ name.name)
    (hdown : ∀ message ∈ t.down i, message.name ≠ name.name)
    (hbuffer : ∀ session ∈ t.store.session username.name i, ∀ entry ∈ session.syncBuffer,
      entry.filename ≠ name.name) :
    ((t.client i).content name.name).map contentCrc =
        (t.content cwd username.name name.name).map contentCrc ∧
      ((t.client i).content name.name).map contentCrc =
        listed (t.store.table.fileList username.name) name.name := by
  have hupheld := hsized.invariant (I := Upheld cwd username fun _ _ => False)
    (fun _ _ _ h ha hstep => (upheld_of_step hgrants h ha hstep).1) (hfresh.upheld hsynced) hrun
  have hsame := (hupheld.settled ⟨hqueue, hup, hdown, hbuffer⟩).resolve_right And.right
  exact ⟨hsame, hsame.trans (hupheld.kept.listed name).symm⟩

end

theorem twoClients_synced : twoClients.Synced [] userA.name where
  seated := by decide
  grants i name := by
    have hlength := name.length_le
    refine ⟨100 :: 47 :: [] ++ name.name, ?_, rfl, rfl⟩
    have hfolder : (twoClients.client i).folder.length = 1 := rfl
    refine if_neg ?_
    rw [hfolder, pathMax]
    omega
  same i name := by
    simp [Echoing.content, SyncClient.content, twoClients, SharedFiles.twoSessions, fileAt]
  sized name := by
    constructor <;>
      simp [copies, Echoing.content, SyncClient.content, twoClients, SharedFiles.twoSessions,
        fileAt]

/-- Both clients put a file under one name before either hears of the other's. -/
def conflict : List EchoAction :=
  [.edit 0 (.put nameA [104] false), .edit 1 (.put nameA [105] true), .watch 0, .watch 1,
    .serve 0, .serve 1, .deliver 0, .receive 0, .deliver 1, .receive 1,
    .watch 0, .watch 0, .serve 0, .serve 0, .watch 1, .serve 1]

theorem copies_refine_of_conflict :
    ∃ t ∈ run (step [] .granted userA.name) twoClients conflict,
      ∃ as : List (Copies.Action (Fin maxSessions) Bytes), (∀ a ∈ as, a.Brings Sized) ∧
        run (Copies.step contentCrc) (twoClients.copies [] userA.name nameA.name) as =
          some (t.copies [] userA.name nameA.name) := by
  obtain ⟨t, ht⟩ := Option.isSome_iff_exists.mp (show (run (step [] .granted userA.name)
    twoClients conflict).isSome = true by decide +kernel)
  exact ⟨t, ht, copies_refine (FileAccess.granted_grants _) twoClients_fresh twoClients_synced
    (by decide +kernel) ht nameA⟩

theorem copies_converge_of_conflict :
    ∃ t ∈ run (step [] .granted userA.name) twoClients conflict,
      (t.client 0).content nameA.name = some [105] ∧
      ((t.client 0).content nameA.name).map contentCrc =
        (t.content [] userA.name nameA.name).map contentCrc ∧
      ((t.client 0).content nameA.name).map contentCrc =
        listed (t.store.table.fileList userA.name) nameA.name := by
  obtain ⟨t, ht, hcontent, hqueue, hup, hdown, hbuffer⟩ :=
    show ∃ t ∈ run (step [] .granted userA.name) twoClients conflict,
      (t.client 0).content nameA.name = some [105] ∧ (t.client 0).queue = [] ∧ t.up 0 = [] ∧
      t.down 0 = [] ∧ (t.store.session userA.name (0 : Fin maxSessions)).map Session.syncBuffer =
        some [] by decide +kernel
  refine ⟨t, ht, hcontent, copies_converge (i := 0) (FileAccess.granted_grants _) twoClients_fresh
    twoClients_synced (by decide +kernel) ht ?_ ?_ ?_ ?_⟩
  · simp [hqueue]
  · simp [hup]
  · simp [hdown]
  · intro session hsession
    rw [Option.mem_def.mp hsession] at hbuffer
    simp [Option.some.inj hbuffer]

end Echoing

end SyncServer
