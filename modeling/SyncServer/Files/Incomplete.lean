import SyncServer.Files.Incoming

/-! # Uploads that do not arrive in full

The destination is truncated before any data arrives, and what follows looks at the announcement
alone. So an upload that stops half way is treated as the file it announced.
-/

namespace SyncServer

open CText Ending

section

variable {Path : Type} [DecidableEq Path] {resolve : Bytes → Path} {access : FileAccess Path}
  {manager : Bool} {username : Bytes} {session : Session} {store : Store Path}

/-- A closed connection gives empty packets for those that are missing. -/
theorem writePackets_closed {n : ℕ} {packets : List Packet} (h : packets.length ≤ n) :
    writePackets Socket.readPacket n [] ⟨packets, .closed⟩ =
      done ((packets.map Packet.payload).flatten, ⟨[], .closed⟩) := by
  have hmissing : ∀ (missing : ℕ) (written : Bytes),
      writePackets Socket.readPacket missing written ⟨[], .closed⟩ =
        done (written, ⟨[], .closed⟩) := by
    intro missing
    induction missing with
    | zero => exact fun _ => rfl
    | succ missing ih =>
        intro written
        rw [writePackets]
        simpa [Socket.readPacket, closedPacket, createPacket] using ih written
  obtain ⟨missing, rfl⟩ := Nat.exists_eq_add_of_le h
  have hreads := (Socket.reads packets [] .closed).writePackets_add missing []
  rw [List.append_nil] at hreads
  rw [hreads, hmissing, List.nil_append]

/-- A failed upload: an announcement after which the destination does not open, or the connection
is closed before all the data packets have come. -/
structure FailedUpload (resolve : Bytes → Path) (access : FileAccess Path) (username : Bytes)
    (packet : Packet) (announcement : FileAnnouncement) (s : Socket) : Prop where
  type : packet.type = .send
  announced : packet.announcement access.heap = some announcement
  fails : opened resolve access (userFilepath username announcement.filename) = none ∨
    s.ending = .closed ∧ s.packets.length < announcement.numPackets

/-- What is stored under the name after the upload has failed. -/
def contentLeft (resolve : Bytes → Path) (access : FileAccess Path) (username filename : Bytes)
    (disk : Disk Path) (s : Socket) : Option Bytes :=
  if (opened resolve access (userFilepath username filename)).isSome = true then
    some (s.packets.map Packet.payload).flatten
  else fileAt resolve (userFilepath username filename) disk

/-- The stored file, the list, the buffers of the other sessions and the streams to the replicas
are as before. -/
structure NoTrace (resolve : Bytes → Path) (username : Bytes) (session : Session)
    (filename : Bytes) (streams : List (List Packet)) (store : Store Path)
    (handled : Handled Path Socket) : Prop where
  content : fileAt resolve (userFilepath username filename) handled.store.disk =
    fileAt resolve (userFilepath username filename) store.disk
  fileList : handled.store.table.fileList username = store.table.fileList username
  buffers : ∀ slot, slot ≠ session.sessionIndex →
    (handled.store.session username slot).map Session.syncBuffer =
      (store.session username slot).map Session.syncBuffer
  streams : notifyReplicas resolve handled.store.disk handled.event streams = streams

/-- The disk after a failed upload, and what it has under the name. -/
theorem writePacketsToFile_failed {packet : Packet} {announcement : FileAnnouncement} {s : Socket}
    (h : FailedUpload resolve access username packet announcement s) (disk : Disk Path) :
    ∃ disk' s', writePacketsToFile Socket.readPacket resolve access
        (userFilepath username announcement.filename) announcement.numPackets disk s =
        done (disk', s') ∧
      fileAt resolve (userFilepath username announcement.filename) disk' =
        contentLeft resolve access username announcement.filename disk s := by
  unfold writePacketsToFile contentLeft
  cases hopened : opened resolve access (userFilepath username announcement.filename) with
  | none => exact ⟨disk, s, rfl, rfl⟩
  | some path =>
      obtain ⟨packets, ending⟩ := s
      rcases h.fails with hnone | ⟨rfl, hlt⟩
      · rw [hnone] at hopened
        cases hopened
      · simp only [writePackets_closed (Nat.le_of_lt hlt), bind_done]
        refine ⟨_, _, rfl, ?_⟩
        obtain ⟨hpath, -⟩ := Option.filter_eq_some_iff.mp hopened
        rw [fileAt, hpath, Option.bind_some, Function.update_self]
        rfl

omit [DecidableEq Path] in
theorem notifyReplicas_eq_self_iff {disk : Disk Path} {event : Option ReplicaEvent}
    {streams : List (List Packet)} :
    notifyReplicas resolve disk event streams = streams ↔ event = none ∨ streams = [] := by
  cases event with
  | none => simp [notifyReplicas]
  | some event =>
      cases streams with
      | nil => simp [notifyReplicas]
      | cons stream streams => simp [notifyReplicas, sendEvent]

/-- A failed upload leaves no trace if and only if what it leaves under the name was stored there
before, an active session's list has the CRC of it, and there is no replica to tell. -/
theorem noTrace_iff {packet : Packet} {announcement : FileAnnouncement} {s : Socket}
    (hfailed : FailedUpload resolve access username packet announcement s)
    {context : UserContext} (hfind : store.table.find username = some context)
    {handled : Handled Path Socket}
    (h : handleIncomingFile Socket.readPacket resolve access manager username session store
      { s with packets := packet :: s.packets } = done handled) (streams : List (List Packet)) :
    NoTrace resolve username session announcement.filename streams store handled ↔
      contentLeft resolve access username announcement.filename store.disk s =
          fileAt resolve (userFilepath username announcement.filename) store.disk ∧
        (session.active = true → listed context.fileList announcement.filename = some (crc32
          (contentLeft resolve access username announcement.filename store.disk s))) ∧
        (manager = false ∨ streams = []) := by
  obtain ⟨disk', s', hwrite, hcontent⟩ := writePacketsToFile_failed hfailed store.disk
  have hne : packet.payload ≠ [] := by
    intro hnil
    simp [handleIncomingFile, Socket.readPacket, handleSendDelete, hfailed.type, hnil] at h
  rw [handleIncomingFile_send rfl hfailed.type hne hfailed.announced hwrite] at h
  obtain ⟨table, htable, h⟩ := bind_eq_done.mp h
  rw [hcontent] at htable
  cases h
  have hevent : fileEvent manager username session .send announcement.filename = none ↔
      manager = false := by
    cases manager with
    | false => simp [fileEvent]
    | true => simp [fileEvent]
  obtain ⟨context', hreplaces, hslots, hlist⟩ : ∃ context',
      store.table.Replaces username context' table ∧
      (∀ slot, slot ≠ session.sessionIndex → context'.fileList = context.fileList →
        context'.sessions[slot]? = context.sessions[slot]?) ∧
      (context'.fileList = context.fileList ↔ (session.active = true →
        listed context.fileList announcement.filename = some (crc32
          (contentLeft resolve access username announcement.filename store.disk s)))) := by
    unfold incomingList at htable
    split at htable
    · rename_i hactive
      obtain ⟨context', hreplaces, hhanded⟩ := HashTable.handed_of_fileReceived hfind htable
      refine ⟨context', hreplaces, fun slot _ hsame => ?_, ?_⟩
      · rw [hhanded.fileList] at hsame
        have hlisted := listAfterSend_eq_self_iff.mp hsame
        exact hhanded.slot_of_not slot fun hreceives => hreceives.2.1 hlisted
      · rw [hhanded.fileList]
        simp only [hactive, true_implies]
        exact listAfterSend_eq_self_iff
    · rename_i hactive
      cases htable
      exact ⟨context, HashTable.replaces_self hfind, fun _ _ _ => rfl, by simp [hactive]⟩
  have hfileList : table.fileList username = store.table.fileList username ↔
      context'.fileList = context.fileList := by
    rw [HashTable.fileList_of_find hreplaces.find, HashTable.fileList_of_find hfind]
  rw [← hlist, ← hevent]
  constructor
  · rintro ⟨hsame, hlists, -, hstreams⟩
    exact ⟨hcontent.symm.trans hsame, hfileList.mp hlists, notifyReplicas_eq_self_iff.mp hstreams⟩
  · rintro ⟨hsame, hlists, hstreams⟩
    refine ⟨hcontent.trans hsame, hfileList.mpr hlists, fun slot hslot => ?_,
      notifyReplicas_eq_self_iff.mpr hstreams⟩
    rw [Store.session_of_find hreplaces.find, Store.session_of_find hfind, hslots slot hslot hlists]

end

/-- A user with one session and a stored file of two bytes. -/
def oneFile : Store Bytes where
  table := HashTable.create.insert [97] (((createContext [97]).addSession
    (createSession 0 .zero)).setFileList [⟨[102], crc32 (some [1, 2])⟩])
  disk := Function.update (fun _ => none) (getUserFolder [97] ++ [47, 102]) (some [1, 2])

/-- The file is announced again, and after one of two packets the connection is closed. -/
def halfUpload : Socket :=
  ⟨[announcementPacket [102] 2, createTextPacket .data [1]], .closed⟩

theorem noTrace_of_halfUpload : ∃ handled,
    handleIncomingFile Socket.readPacket id .granted true [97] (createSession 0 .zero) oneFile
      halfUpload = done handled ∧
    (NoTrace id [97] (createSession 0 .zero) [102] [] oneFile handled ↔
      contentLeft id .granted [97] [102] oneFile.disk
          ⟨[createTextPacket .data [1]], .closed⟩ =
        fileAt id (userFilepath [97] [102]) oneFile.disk ∧
      ((createSession 0 .zero).active = true → listed [⟨[102], crc32 (some [1, 2])⟩] [102] =
        some (crc32 (contentLeft id .granted [97] [102] oneFile.disk
          ⟨[createTextPacket .data [1]], .closed⟩))) ∧
      (true = false ∨ ([] : List (List Packet)) = [])) := by
  obtain ⟨handled, h⟩ := Option.isSome_iff_exists.mp (show (handleIncomingFile Socket.readPacket id
    .granted true [97] (createSession 0 .zero) oneFile halfUpload).returned.isSome = true by
      decide +kernel)
  have hdone := returned_eq_some.mp h
  have hfailed : FailedUpload id .granted [97] (announcementPacket [102] 2) ⟨2, 1, [102]⟩
      ⟨[createTextPacket .data [1]], .closed⟩ :=
    ⟨rfl, announcement_announcementPacket (by decide) (by decide) (by decide) [],
      .inr ⟨rfl, by decide⟩⟩
  have hfind : oneFile.table.find [97] = some (((createContext [97]).addSession
    (createSession 0 .zero)).setFileList [⟨[102], crc32 (some [1, 2])⟩]) := rfl
  exact ⟨handled, hdone, noTrace_iff hfailed hfind hdone []⟩

/-- Half of an upload takes the place of the file that was stored. -/
theorem halfUpload_leaves_trace : ∃ handled,
    handleIncomingFile Socket.readPacket id .granted true [97] (createSession 0 .zero) oneFile
      halfUpload = done handled ∧
    ¬NoTrace id [97] (createSession 0 .zero) [102] [] oneFile handled := by
  have hleft : (handleIncomingFile Socket.readPacket id .granted true [97] (createSession 0 .zero)
      oneFile halfUpload).returned.map
        (fun handled => fileAt id (userFilepath [97] [102]) handled.store.disk) =
      some (some [1]) := by decide +kernel
  obtain ⟨handled, h, hcontent⟩ := Option.map_eq_some_iff.mp hleft
  refine ⟨handled, returned_eq_some.mp h, fun hno => ?_⟩
  have hstored : fileAt id (userFilepath [97] [102]) oneFile.disk = some [1, 2] := by
    decide +kernel
  have hsame := hno.content
  rw [hcontent, hstored] at hsame
  cases hsame

end SyncServer
