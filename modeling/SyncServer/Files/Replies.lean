import SyncServer.Files.Incoming
import SyncServer.Files.RoundTrip

/-! # Does every command get its own reply?

The console thread of a client sends its commands on the interface socket, and reads a reply
after LIST and DOWNLOAD before it goes on. No packet says which command it answers, so a reply
that is missing, short or left unread is made up for by the next one.
-/

namespace SyncServer

open CText Ending

/-! ## Commands and replies -/

/-- The commands of the console that the server gets. -/
inductive Command where
  | list
  | download (filename : Bytes)
  | delete (filename : Bytes)
  deriving DecidableEq, Repr

namespace Command

/-- What `list_server`, `download` and `delete` send. -/
def packet : Command → Packet
  | list => createPacket .list 0 []
  | download filename => createTextPacket .download filename
  | delete filename => createTextPacket .delete filename

/-- The name that the server finds in the packet. -/
def received (command : Command) : Bytes := cString command.packet.payload

/-- One data packet for LIST, one error or one announcement with the announced number of data
packets for DOWNLOAD, and nothing for DELETE. -/
def IsReply : Command → List Packet → Prop
  | list, sent => ∃ packet, sent = [packet] ∧ packet.type = .data
  | download _, sent =>
      (∃ packet, sent = [packet] ∧ packet.type = .error) ∨
        ∃ packet announcement data, sent = packet :: data ∧ packet.type = .send ∧
          FileAnnouncement.ofBytes packet.payload = some announcement ∧
          data.length = announcement.numPackets ∧ ∀ p ∈ data, p.type = .data
  | delete _, sent => sent = []

end Command

/-! ## Waiting for room -/

/-- The buffer of a session where `add_file_to_sync_buffer` goes on: the one that it finds, or one
of those that it finds each time it wakes, the first with room. Without one it stays full. -/
def Session.awaitRoom (wakes : List (List FileEntry)) (session : Session) : Session :=
  { session with
    syncBuffer := ((session.syncBuffer :: wakes).find? fun buffer =>
      buffer.length ≠ fileSyncBufferSize).getD session.syncBuffer }

theorem Session.awaitRoom_iff {wakes : List (List FileEntry)} {session : Session} :
    (session.awaitRoom wakes).syncBuffer.length ≠ fileSyncBufferSize ↔
      ∃ buffer ∈ session.syncBuffer :: wakes, buffer.length ≠ fileSyncBufferSize := by
  unfold awaitRoom
  cases hfound : (session.syncBuffer :: wakes).find? fun buffer =>
      buffer.length ≠ fileSyncBufferSize with
  | none =>
      have hnone := List.find?_eq_none.mp hfound
      refine iff_of_false ?_ ?_
      · simpa using hnone session.syncBuffer List.mem_cons_self
      · rintro ⟨buffer, hmem, hroom⟩
        exact hnone buffer hmem (by simpa using hroom)
  | some buffer =>
      have hroom := List.find?_some hfound
      exact iff_of_true (by simpa using hroom)
        ⟨buffer, List.mem_of_find?_eq_some hfound, by simpa using hroom⟩

namespace UserContext

/-- The buffers of the slots where the entries are added. -/
def awaitRoom (wakes : ℕ → List (List FileEntry)) (context : UserContext) : UserContext where
  username := context.username
  sessions := context.sessions.map
    (Option.map fun session => session.awaitRoom (wakes session.sessionIndex))
  fileList := context.fileList
  length_sessions := by rw [List.length_map, context.length_sessions]
  indexed index session h := by
    rw [List.getElem?_map] at h
    obtain ⟨slot, hslot, hsome⟩ := Option.map_eq_some_iff.mp h
    obtain ⟨found, rfl, rfl⟩ := Option.map_eq_some_iff.mp hsome
    exact context.indexed index found hslot

/-- The buffer of every other session has room, or comes to have it. -/
def FindsRoom (context : UserContext) (wakes : ℕ → List (List FileEntry)) (sender : ℕ) : Prop :=
  ∀ index session, index ≠ sender → context.sessions[index]? = some (some session) →
    ∃ buffer ∈ session.syncBuffer :: wakes index, buffer.length ≠ fileSyncBufferSize

theorem hasRoom_awaitRoom_iff {context : UserContext} {wakes : ℕ → List (List FileEntry)}
    {sender : ℕ} : (context.awaitRoom wakes).HasRoom sender ↔ context.FindsRoom wakes sender := by
  have hslot : ∀ index, (context.awaitRoom wakes).sessions[index]? = context.sessions[index]?.map
      (Option.map fun session : Session => session.awaitRoom (wakes session.sessionIndex)) :=
    fun index => by rw [awaitRoom, List.getElem?_map]
  constructor
  · intro h index session hne hsession
    have hindex := context.indexed index session hsession
    rw [← hindex]
    refine Session.awaitRoom_iff.mp (h index _ hne ?_)
    rw [hslot, hsession]
    rfl
  · intro h index session hne hsession
    rw [hslot] at hsession
    obtain ⟨slot, hfound, hsome⟩ := Option.map_eq_some_iff.mp hsession
    obtain ⟨found, rfl, rfl⟩ := Option.map_eq_some_iff.mp hsome
    have hindex := context.indexed index found hfound
    rw [hindex]
    exact Session.awaitRoom_iff.mpr (h index found hne hfound)

end UserContext

/-! ## Exchanges -/

/-- A command, with the state of the server when it is handled, what the file system of the
server answers then, for each slot the buffers that `add_file_to_sync_buffer` finds when it wakes,
and the state of the client when it reads the reply. -/
structure Exchange (Path : Type) where
  command : Command
  store : Store Path
  access : FileAccess Path
  wakes : ℕ → List (List FileEntry)
  clientDisk : Disk Path
  clientAccess : FileAccess Path

section

variable {Path : Type} [DecidableEq Path] (resolve clientResolve : Bytes → Path)
  (manager : Bool) (username : Bytes) (session : Session)

namespace Exchange

/-- The store, with the buffers as they are where the entries are added. -/
def awaited (e : Exchange Path) : Store Path :=
  { e.store with table := e.store.table.modify username (·.awaitRoom e.wakes) }

/-- One round of `interface`: what it sends. -/
def serve (e : Exchange Path) : Ending Fault (List Packet) := do
  let handled ← interface Socket.readPacket resolve e.access manager username session
    (e.awaited username) ⟨[e.command.packet], .stalled⟩
  done handled.sent

/-- The client after the command is sent, on the packets that have come: what it leaves. -/
def awaitReply (e : Exchange Path) (packets : List Packet) : Ending Fault (List Packet) :=
  match e.command with
  | .list => do
      let (packet, s) ← Socket.readPacket ⟨packets, .stalled⟩
      let _ ← deref .nullPointer packet
      done s.packets
  | .download _ => do
      let (_, _, s) ← receiveTransfer Socket.readPacket clientResolve e.clientAccess [46]
        e.clientDisk ⟨packets, .stalled⟩
      done s.packets
  | .delete _ => done packets

end Exchange

/-- What is gone from the front of a queue. -/
def consumed (before after : List Packet) : List Packet :=
  before.take (before.length - after.length)

/-- The commands one after the other, from the packets that are still unread: what the server
sends for each, and what the client reads. -/
def converse : List (Exchange Path) → List Packet →
    Ending Fault (List (List Packet × List Packet))
  | [], _ => done []
  | e :: es, pending => do
      let sent ← e.serve resolve manager username session
      let left ← e.awaitReply clientResolve (pending ++ sent)
      let replies ← converse es left
      done ((sent, consumed (pending ++ sent) left) :: replies)

/-- Every command is answered with its complete reply, and this is what the client reads. -/
def EachAnswered (exchanges : List (Exchange Path)) : Prop :=
  ∃ replies, converse resolve clientResolve manager username session exchanges [] = done replies ∧
    List.Forall₂ (fun e reply => e.command.IsReply reply.1 ∧ reply.2 = reply.1) exchanges replies

/-- The folder that is listed opens. A file that is there opens too, as many chunks are read of
it as its size announces, and the client can open its destination, or nothing follows. What is
answered can be sent. A deletion that other sessions are told of finds room in their buffers, at
once or when it wakes. -/
def Exchange.Answerable (e : Exchange Path) : Prop :=
  let filename := e.command.received
  let filepath := userFilepath username filename
  match e.command with
  | .list =>
      (e.access.listing (resolve (getUserFolder username))).isSome = true ∧ e.access.sends = true
  | .download _ => e.access.sends = true ∧
      (accessible resolve e.access filepath e.store.disk = true →
        ∃ fileSize chunks,
          openedForReading resolve e.access filepath e.store.disk = some (fileSize, chunks) ∧
          numPackets fileSize = chunks.length ∧
          ((opened clientResolve e.clientAccess (createFilepath [46] filename)).isSome = true ∨
            chunks = []))
  | .delete _ => accessible resolve e.access filepath e.store.disk = true → manager = true →
      ∀ context, e.store.table.find username = some context →
        listed context.fileList filename ≠ none →
          context.FindsRoom e.wakes session.sessionIndex

variable {resolve clientResolve manager username session} {e : Exchange Path}

/-! ## One exchange -/

theorem zero_not_mem_received (command : Command) : 0 ∉ command.received :=
  zero_not_mem_cString _

/-- The announcement is complete if and only if the number that it gives is that of the chunks. -/
theorem isReply_sendOpenedFile {filename name : Bytes} {fileSize : ℕ} {chunks : List Bytes}
    (hlength : filename.length + 16 < 2 ^ 16) (hzero : 0 ∉ filename) :
    (Command.download name).IsReply (sendOpenedFile filename fileSize chunks) ↔
      numPackets fileSize = chunks.length := by
  have hannounced : FileAnnouncement.ofBytes (fileAnnouncementPacket filename fileSize).payload =
      some ⟨numPackets fileSize, filename.length, filename⟩ :=
    ofBytes_announcementPacket (numPackets_lt fileSize) hlength hzero
  have htype : (fileAnnouncementPacket filename fileSize).type = .send := rfl
  rw [sendOpenedFile]
  constructor
  · rintro (⟨packet, hsent, herror⟩ | ⟨packet, announcement, data, hsent, -, hread, hcount, -⟩)
    · obtain ⟨rfl, -⟩ := List.cons.inj hsent
      cases htype.symm.trans herror
    · obtain ⟨rfl, rfl⟩ := List.cons.inj hsent
      obtain rfl := Option.some.inj (hannounced.symm.trans hread)
      simp only [List.length_map] at hcount
      exact hcount.symm
  · intro hn
    refine Or.inr ⟨fileAnnouncementPacket filename fileSize, _,
      chunks.map (createTextPacket .data), rfl, htype, hannounced, ?_, fun p hp => ?_⟩
    · simp only [List.length_map, hn]
    · obtain ⟨chunk, -, rfl⟩ := List.mem_map.mp hp
      rfl

namespace Exchange

theorem serve_list (h : e.command = .list) :
    e.serve resolve manager username session =
      (handleList resolve e.access username >>= fun sent => done sent) := by
  rw [serve, h]
  unfold interface
  simp only [Socket.readPacket, bind_done, deref_some]
  change ((handleList resolve e.access username >>= _) >>= _) = _
  cases handleList resolve e.access username <;> rfl

theorem serve_download {filename : Bytes} (h : e.command = .download filename) :
    e.serve resolve manager username session =
      done (handleDownload resolve e.access username e.command.received e.store.disk) := by
  rw [serve, h]
  rfl

theorem serve_delete {filename : Bytes} (h : e.command = .delete filename) :
    e.serve resolve manager username session =
      (handleDelete resolve e.access manager username session e.command.received
        (e.awaited username) >>= fun _ => done []) := by
  rw [serve, h]
  unfold interface
  simp only [Socket.readPacket, bind_done, deref_some]
  change ((handleDelete resolve e.access manager username session
    (Command.delete filename).received (e.awaited username) >>= _) >>= _) = _
  cases handleDelete resolve e.access manager username session
    (Command.delete filename).received (e.awaited username) <;> rfl

theorem awaitReply_list (h : e.command = .list) (packet : Packet) :
    e.awaitReply clientResolve [packet] = done [] := by
  rw [awaitReply, h]
  rfl

/-- An error is read and nothing is stored. -/
theorem awaitReply_error {filename : Bytes} (h : e.command = .download filename)
    {packet : Packet} (htype : packet.type = .error) :
    e.awaitReply clientResolve [packet] = done [] := by
  simp only [awaitReply, h, receiveTransfer, Socket.readPacket, bind_done, deref_some,
    handleSendDelete, htype]

/-- A complete announcement is read whole if the destination opens or nothing follows. -/
theorem awaitReply_sendOpenedFile {filename name : Bytes} (h : e.command = .download name)
    (hlength : filename.length + 16 < 2 ^ 16) (hzero : 0 ∉ filename) {fileSize : ℕ}
    {chunks : List Bytes} (hn : numPackets fileSize = chunks.length) :
    e.awaitReply clientResolve (sendOpenedFile filename fileSize chunks) = done [] ↔
      (opened clientResolve e.clientAccess (createFilepath [46] filename)).isSome = true ∨
        chunks = [] := by
  have happend := List.append_nil (sendOpenedFile filename fileSize chunks)
  cases hopened : opened clientResolve e.clientAccess (createFilepath [46] filename) with
  | none =>
      have hread : Socket.readPacket ⟨sendOpenedFile filename fileSize chunks, .stalled⟩ =
          done (some (announcementPacket filename (numPackets fileSize)),
            ⟨chunks.map (createTextPacket .data), .stalled⟩) := rfl
      have hrun := @receiveTransfer_not_opened _ _ _ _ clientResolve e.clientAccess [46] _ _
        e.clientDisk _ _ (numPackets_lt fileSize) hlength hzero hopened hread
      simp only [awaitReply, h, hrun, bind_done]
      simp
  | some filepath =>
      have hcount : numPackets fileSize ≤ chunks.length + ([] : List Packet).length := hn.le
      obtain ⟨disk', hrun⟩ :=
        receiveTransfer_chunks hlength hzero hopened hcount e.clientDisk .stalled
      rw [happend] at hrun
      simp only [awaitReply, h, hrun, bind_done]
      simp [hn]

variable (resolve clientResolve manager username session e) in
/-- The server sends a complete reply, and the client reads it whole. -/
def Answered : Prop :=
  ∃ sent, e.serve resolve manager username session = done sent ∧ e.command.IsReply sent ∧
    e.awaitReply clientResolve sent = done []

theorem answered_list_iff (h : e.command = .list) :
    e.Answered resolve clientResolve manager username session ↔
      (e.access.listing (resolve (getUserFolder username))).isSome = true ∧
        e.access.sends = true := by
  unfold Answered
  rw [serve_list h, handleList]
  cases e.access.listing (resolve (getUserFolder username)) with
  | none => simp
  | some files =>
      cases hsends : e.access.sends with
      | false => simp
      | true =>
          refine iff_of_true ⟨_, rfl, ?_, awaitReply_list h _⟩ ⟨rfl, rfl⟩
          rw [h]
          exact ⟨_, rfl, rfl⟩

omit [DecidableEq Path] in
theorem length_received_of_accessible {disk : Disk Path}
    (h : accessible resolve e.access (userFilepath username e.command.received) disk = true) :
    e.command.received.length + 16 < 2 ^ 16 := by
  cases hpath : userFilepath username e.command.received with
  | none =>
      rw [hpath] at h
      cases h
  | some filepath =>
      have hlength := length_filename_of_createFilepath hpath
      rw [pathMax] at hlength
      omega

theorem answered_download_iff {filename : Bytes} (h : e.command = .download filename) :
    e.Answered resolve clientResolve manager username session ↔ e.access.sends = true ∧
      (accessible resolve e.access (userFilepath username e.command.received) e.store.disk = true →
        ∃ fileSize chunks,
          openedForReading resolve e.access (userFilepath username e.command.received)
            e.store.disk = some (fileSize, chunks) ∧
          numPackets fileSize = chunks.length ∧
          ((opened clientResolve e.clientAccess (createFilepath [46] e.command.received)).isSome =
            true ∨ chunks = [])) := by
  have hzero := zero_not_mem_received e.command
  -- an answer that is not sent is none
  have hnothing : ¬e.command.IsReply [] := by
    rw [h]
    rintro (⟨_, hnil, -⟩ | ⟨_, _, _, hnil, -⟩)
    · cases hnil
    · cases hnil
  unfold Answered
  rw [serve_download h, handleDownload]
  cases hsends : e.access.sends with
  | false =>
      refine iff_of_false ?_ (by simp)
      rintro ⟨sent, hsent, hreply, -⟩
      obtain rfl := done.inj hsent
      exact hnothing hreply
  | true =>
  simp only [ite_true, true_and]
  by_cases haccess : accessible resolve e.access (userFilepath username e.command.received)
      e.store.disk = true
  · have hlength := length_received_of_accessible haccess
    simp only [haccess, ite_true, forall_const]
    cases hopened : openedForReading resolve e.access (userFilepath username e.command.received)
        e.store.disk with
    | none =>
        -- the file is there and does not open: nothing is sent
        refine iff_of_false ?_ (by simp)
        rintro ⟨sent, hsent, hreply, -⟩
        obtain rfl := done.inj hsent
        exact hnothing hreply
    | some found =>
        obtain ⟨fileSize, chunks⟩ := found
        have hreply : e.command.IsReply (sendOpenedFile e.command.received fileSize chunks) ↔
            numPackets fileSize = chunks.length := by
          rw [h] at hlength hzero ⊢
          exact isReply_sendOpenedFile hlength hzero
        constructor
        · rintro ⟨sent, hsent, hcomplete, hread⟩
          obtain rfl := done.inj hsent
          have hn := hreply.mp hcomplete
          exact ⟨_, _, rfl, hn, (awaitReply_sendOpenedFile h hlength hzero hn).mp hread⟩
        · rintro ⟨_, _, hfound, hn, hstored⟩
          obtain ⟨rfl, rfl⟩ := Prod.mk.inj (Option.some.inj hfound)
          exact ⟨_, rfl, hreply.mpr hn, (awaitReply_sendOpenedFile h hlength hzero hn).mpr hstored⟩
  · rw [if_neg haccess]
    refine iff_of_true ⟨_, rfl, ?_, awaitReply_error h rfl⟩ fun h => absurd h haccess
    rw [h]
    exact .inl ⟨_, rfl, rfl⟩

/-- A removal returns if and only if it is told to nobody, or there is room to tell it. -/
theorem removeFileFromUserList_returns_iff {table : HashTable} {name : Bytes}
    (content : Option Bytes) :
    (∃ table', table.removeFileFromUserList manager username session.sessionIndex name content =
        done table') ↔
      (manager = true → ∀ context, table.find username = some context →
        listed context.fileList name ≠ none → context.HasRoom session.sessionIndex) := by
  constructor
  · rintro ⟨table', htable⟩ hmanager context hfind hlisted
    rw [hmanager] at htable
    exact HashTable.hasRoom_of_removeFileFromUserList hfind hlisted htable
  · intro hroom
    by_cases hlisted : listed (table.fileList username) name = none
    · refine ⟨table, ?_⟩
      rw [HashTable.removeFileFromUserList, getFileStatus_eq_notFound.mpr hlisted]
    · cases hfind : table.find username with
      | none =>
          rw [HashTable.fileList, hfind] at hlisted
          exact absurd rfl hlisted
      | some context =>
          rw [HashTable.fileList_of_find hfind] at hlisted
          exact HashTable.removeFileFromUserList_returns hfind
            (fun hmanager => hroom hmanager context hfind hlisted) name content

/-- A deletion goes on where there is room when it wakes. -/
theorem findsRoom_iff {table : HashTable} {name : Bytes} {wakes : ℕ → List (List FileEntry)} :
    (manager = true → ∀ context, (table.modify username (·.awaitRoom wakes)).find username =
        some context → listed context.fileList name ≠ none →
          context.HasRoom session.sessionIndex) ↔
      (manager = true → ∀ context, table.find username = some context →
        listed context.fileList name ≠ none →
          context.FindsRoom wakes session.sessionIndex) := by
  rw [HashTable.find_modify, if_pos rfl]
  refine imp_congr_right fun _ => ?_
  cases table.find username with
  | none => simp
  | some context =>
      simp only [Option.map_some, Option.some.injEq, forall_eq', UserContext.hasRoom_awaitRoom_iff]
      rfl

theorem answered_delete_iff {filename : Bytes} (h : e.command = .delete filename) :
    e.Answered resolve clientResolve manager username session ↔
      (accessible resolve e.access (userFilepath username e.command.received) e.store.disk = true →
        manager = true → ∀ context, e.store.table.find username = some context →
          listed context.fileList e.command.received ≠ none →
            context.FindsRoom e.wakes session.sessionIndex) := by
  have hawait : e.awaitReply clientResolve [] = done [] := by
    rw [awaitReply, h]
  have hanswered : e.Answered resolve clientResolve manager username session ↔ ∃ handled,
      handleDelete resolve e.access manager username session e.command.received
        (e.awaited username) = done handled := by
    unfold Answered
    rw [serve_delete h]
    constructor
    · rintro ⟨sent, hsent, -⟩
      obtain ⟨handled, hhandled, -⟩ := bind_eq_done.mp hsent
      exact ⟨handled, hhandled⟩
    · rintro ⟨handled, hhandled⟩
      refine ⟨[], by rw [hhandled]; rfl, ?_, hawait⟩
      rw [h]
      rfl
  have hdisk : (e.awaited username).disk = e.store.disk := rfl
  rw [hanswered, handleDelete, hdisk]
  by_cases haccess : accessible resolve e.access (userFilepath username e.command.received)
      e.store.disk = true
  · simp only [awaited, haccess, ite_true, forall_const]
    rw [← findsRoom_iff, ← removeFileFromUserList_returns_iff
      (fileAt resolve (userFilepath username e.command.received) e.store.disk)]
    constructor
    · rintro ⟨handled, hhandled⟩
      obtain ⟨table, htable, -⟩ := bind_eq_done.mp hhandled
      exact ⟨table, htable⟩
    · rintro ⟨table, htable⟩
      exact ⟨_, bind_eq_done.mpr ⟨table, htable, rfl⟩⟩
  · rw [if_neg haccess]
    exact iff_of_true ⟨_, rfl⟩ fun h => absurd h haccess

theorem answered_iff :
    e.Answered resolve clientResolve manager username session ↔
      e.Answerable resolve clientResolve manager username session := by
  unfold Answerable
  cases h : e.command with
  | list => exact answered_list_iff h
  | download filename =>
      rw [answered_download_iff h, h]
  | delete filename =>
      rw [answered_delete_iff h, h]

/-- A reply that the client has read is not left over. -/
theorem left_eq_nil {sent left : List Packet} (hreply : e.command.IsReply sent)
    (hawait : e.awaitReply clientResolve sent = done left) (hread : consumed sent left = sent) :
    left = [] := by
  have hlength : sent.length = 0 ∨ left.length = 0 := by
    have htake := congrArg List.length hread
    rw [consumed, List.length_take] at htake
    omega
  rcases hlength with hsent | hleft
  · obtain rfl := List.eq_nil_of_length_eq_zero hsent
    cases h : e.command with
    | list =>
        rw [h] at hreply
        obtain ⟨_, hnil, -⟩ := hreply
        cases hnil
    | download filename =>
        rw [h] at hreply
        rcases hreply with ⟨_, hnil, -⟩ | ⟨_, _, _, hnil, -⟩
        · cases hnil
        · cases hnil
    | delete filename =>
        rw [awaitReply, h] at hawait
        exact (done.inj hawait).symm
  · exact List.eq_nil_of_length_eq_zero hleft

end Exchange

/-! ## All exchanges -/

theorem converse_cons_eq_done {es : List (Exchange Path)}
    {replies : List (List Packet × List Packet)} :
    converse resolve clientResolve manager username session (e :: es) [] = done replies ↔
      ∃ sent left rest, e.serve resolve manager username session = done sent ∧
        e.awaitReply clientResolve sent = done left ∧
        converse resolve clientResolve manager username session es left = done rest ∧
        replies = (sent, consumed sent left) :: rest := by
  rw [converse]
  constructor
  · intro h
    obtain ⟨sent, hserve, h⟩ := bind_eq_done.mp h
    obtain ⟨left, hawait, h⟩ := bind_eq_done.mp h
    obtain ⟨rest, hrest, h⟩ := bind_eq_done.mp h
    exact ⟨sent, left, rest, hserve, hawait, hrest, (done.inj h).symm⟩
  · rintro ⟨sent, left, rest, hserve, hawait, hrest, rfl⟩
    simp only [hserve, bind_done, List.nil_append, hawait, hrest]

/-- The commands are answered if and only if each finds the server and the client ready. -/
theorem eachAnswered_iff (exchanges : List (Exchange Path)) :
    EachAnswered resolve clientResolve manager username session exchanges ↔
      ∀ e ∈ exchanges, e.Answerable resolve clientResolve manager username session := by
  induction exchanges with
  | nil => exact iff_of_true ⟨[], rfl, .nil⟩ fun _ h => absurd h List.not_mem_nil
  | cons e es ih =>
      rw [List.forall_mem_cons, ← ih, ← Exchange.answered_iff]
      constructor
      · rintro ⟨replies, hrun, hreplies⟩
        obtain ⟨sent, left, rest, hserve, hawait, hrest, rfl⟩ := converse_cons_eq_done.mp hrun
        obtain ⟨⟨hreply, hread⟩, hall⟩ := List.forall₂_cons.mp hreplies
        obtain rfl := Exchange.left_eq_nil hreply hawait hread
        exact ⟨⟨sent, hserve, hreply, hawait⟩, rest, hrest, hall⟩
      · rintro ⟨⟨sent, hserve, hreply, hawait⟩, rest, hrest, hall⟩
        have hread : consumed sent [] = sent := List.take_length
        exact ⟨_, converse_cons_eq_done.mpr ⟨sent, [], rest, hserve, hawait, hrest, rfl⟩,
          .cons ⟨hreply, hread⟩ hall⟩

omit [DecidableEq Path] in
/-- A stored file that is not too large and does not change meanwhile can always be downloaded. -/
theorem Exchange.answerable_download_of_granted {filename : Bytes}
    (h : e.command = .download filename) (haccess : e.access = .granted)
    (hsize : ∀ path content, e.store.disk path = some content → content.length ≤ maxFileSize)
    (hopened : (opened clientResolve e.clientAccess
      (createFilepath [46] e.command.received)).isSome = true) :
    e.Answerable resolve clientResolve manager username session := by
  simp only [Answerable, h] at hopened ⊢
  refine ⟨by rw [haccess]; rfl, fun haccessible => ?_⟩
  obtain ⟨path, hpath, hthere⟩ := (Option.any_eq_true _ _).mp haccessible
  have hsome : (e.store.disk path).isSome = true := by
    simpa [haccess, FileAccess.granted] using hthere
  obtain ⟨content, hcontent⟩ := Option.isSome_iff_exists.mp hsome
  have hstored : fileAt resolve (userFilepath username (Command.download filename).received)
      e.store.disk = some content := by
    rw [fileAt, hpath]
    exact hcontent
  have hcount := numPackets_eq ((chunkCount_lt_iff _).mpr (hsize path content hcontent))
  refine ⟨content.length, readFileChunks content, ?_, ?_, .inl hopened⟩
  · rw [openedForReading, hpath, hstored, haccess]
    rfl
  · rw [hcount, length_readFileChunks]

end

/-- A DOWNLOAD of a file that is there and does not open for reading. -/
def downloadUnreadable : Exchange Bytes where
  command := .download [102]
  store := ⟨HashTable.create.insert [97] ((createContext [97]).addSession (createSession 0 .zero)),
    Function.update (fun _ => none) (getUserFolder [97] ++ [47, 102]) (some [1, 2])⟩
  access := { FileAccess.granted with reads := fun _ _ => none }
  wakes := fun _ => []
  clientDisk := fun _ => none
  clientAccess := .granted

/-- Nothing is sent for it, and the client waits. -/
theorem downloadUnreadable_unanswered :
    converse id id true [97] (createSession 0 .zero) [downloadUnreadable] [] = waits ∧
      ¬EachAnswered id id true [97] (createSession 0 .zero) [downloadUnreadable] := by
  have hwaits :
      converse id id true [97] (createSession 0 .zero) [downloadUnreadable] [] = waits := rfl
  refine ⟨hwaits, ?_⟩
  rintro ⟨replies, hrun, -⟩
  rw [hwaits] at hrun
  cases hrun

end SyncServer
