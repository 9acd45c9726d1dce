import Mathlib.Algebra.Order.BigOperators.Group.List
import SyncServer.Files.Incoming
import SyncServer.Files.Listing
import SyncServer.Wire.Registration

/-! # What fits into a packet

The callers of `create_packet` measure their texts with `strlen`, and the length passes through 16
bits. The short texts always fit. A listing is as long as the folder has files, and an event
carries a name that a client has sent.
-/

namespace SyncServer

open CText Ending

theorem payload_createTextPacket_iff {type : PacketType} {text : Bytes} :
    (createTextPacket type text).payload = text ↔ text.length < 2 ^ 16 := by
  constructor
  · intro h
    exact h ▸ (createTextPacket type text).length_payload
  · exact payload_createTextPacket

/-! ## The calls -/

/-- The calls of `create_packet` on the server, with what the code before each ensures. -/
inductive CreatePacketCall where
  | noContent (type : PacketType)
  | registration (id listenerPort : ℤ) (hid : IsInt id) (hport : IsInt listenerPort)
  | notification (newAddress : SockAddrIn)
  | electionEvent (event : ElectionEvent) (listed : event.type.Listed) (hid : IsInt event.id)
  | replicaEvent (event : ReplicaEvent) (listed : event.type.Listed)
  -- `send_file`, which needs the path to open the file
  | announcement (basePath filename filepath : Bytes) (fileSize : ℕ)
      (hpath : createFilepath basePath filename = some filepath)
  -- one `fread` of `send_file`
  | chunk (data : Bytes) (hread : data.length ≤ fileChunkSize)
  -- `send_f` and `send_event`, of a name that came in a packet
  | deletion (packet : Packet)
  | listing (entries : List DirEntry) (files : Bytes) (hfiles : listFiles entries = some files)

namespace CreatePacketCall

def type : CreatePacketCall → PacketType
  | noContent type => type
  | registration .. | electionEvent .. | replicaEvent .. => .replicaMsg
  | notification _ => .reconnect
  | announcement .. => .send
  | chunk .. | listing .. => .data
  | deletion _ => .delete

/-- The content that the caller passes. -/
def content : CreatePacketCall → Bytes
  | noContent _ => []
  | registration id listenerPort _ _ => printPair id listenerPort
  | notification newAddress => printAddress newAddress ++ [0]
  | electionEvent event _ _ => serializeElectionEvent event
  | replicaEvent event _ => serializeReplicaEvent event
  | announcement _ filename _ fileSize _ =>
      FileAnnouncement.toBytes ⟨numPackets fileSize, filename.length, filename⟩
  | chunk data _ => data
  | deletion packet => cString packet.payload
  | listing _ files _ => files

def packet (call : CreatePacketCall) : Packet := createTextPacket call.type call.content

/-- The bounds that the callers do not check. -/
def Fits : CreatePacketCall → Prop
  | replicaEvent event _ =>
      4 + (printAddress event.deviceAddress).length + (event.username.getD []).length +
        (event.filepath.getD []).length < 2 ^ 16
  | listing entries _ _ => (entries.filterMap DirEntry.size).sum < 2 ^ 16
  | _ => True

end CreatePacketCall

/-! ## Lengths -/

theorem ElectionMsgType.length_printInt {type : ElectionMsgType} (h : type.Listed) :
    (printInt type.toInt).length = 1 := by
  cases type with
  | other value => exact absurd rfl (h value)
  | _ => decide +kernel

theorem length_serializeElectionEvent_le {event : ElectionEvent} (h : event.type.Listed)
    (hid : IsInt event.id) : (serializeElectionEvent event).length ≤ 35 := by
  have htype := ElectionMsgType.length_printInt h
  have haddress := length_printAddress_le event.deviceAddress
  have hid := length_printInt_le hid
  simp only [serializeElectionEvent, List.length_append, List.length_cons]
  omega

theorem payload_eventPacket_iff {event : ReplicaEvent} (h : event.type.Listed) :
    (eventPacket event).payload = serializeReplicaEvent event ↔
      4 + (printAddress event.deviceAddress).length + (event.username.getD []).length +
        (event.filepath.getD []).length < 2 ^ 16 := by
  rw [eventPacket, payload_createTextPacket_iff, length_serializeReplicaEvent h]

theorem FileAnnouncement.length_toBytes (announcement : FileAnnouncement) :
    announcement.toBytes.length = 16 + announcement.filename.length := by
  simp only [toBytes, List.length_append, length_littleEndian]
  omega

theorem length_cString_le (buffer : Bytes) : (cString buffer).length ≤ buffer.length :=
  (List.takeWhile_prefix _).length_le

/-- The payload is the whole content exactly when the folder or the event is small enough; every
other call is safe. -/
theorem payload_create_packet_iff (call : CreatePacketCall) :
    call.packet.payload = call.content ↔ call.Fits := by
  rw [CreatePacketCall.packet, payload_createTextPacket_iff]
  cases call with
  | noContent type => simp [CreatePacketCall.content, CreatePacketCall.Fits]
  | registration id listenerPort hid hport =>
      have hlength := length_printPair_le hid hport
      exact iff_of_true (hlength.trans_lt (by decide)) trivial
  | notification newAddress =>
      have hlength := length_printAddress_le newAddress
      refine iff_of_true ?_ trivial
      simp only [CreatePacketCall.content, List.length_append, List.length_singleton]
      omega
  | electionEvent event listed hid =>
      have hlength := length_serializeElectionEvent_le listed hid
      exact iff_of_true (hlength.trans_lt (by decide)) trivial
  | replicaEvent event listed =>
      rw [CreatePacketCall.content, length_serializeReplicaEvent listed]
      exact Iff.rfl
  | announcement basePath filename filepath fileSize hpath =>
      have hlength := length_filename_of_createFilepath hpath
      refine iff_of_true ?_ trivial
      rw [CreatePacketCall.content, FileAnnouncement.length_toBytes]
      simp only [pathMax] at hlength ⊢
      omega
  | chunk data hread => exact iff_of_true (hread.trans_lt (by decide)) trivial
  | deletion packet =>
      exact iff_of_true ((length_cString_le _).trans_lt packet.length_payload) trivial
  | listing entries files hfiles =>
      rw [CreatePacketCall.content, length_listFiles hfiles]
      exact Iff.rfl

/-! ## The packets of the handlers -/

section

variable {σ Path : Type} [DecidableEq Path] {readPacket : σ → Ending Fault (Option Packet × σ)}
  {resolve : Bytes → Path} {access : FileAccess Path} {manager : Bool} {username : Bytes}
  {session : Session} {store : Store Path} {s : σ} {handled : Handled Path σ}

/-- The file system lists a folder as `list_files` does, and a read gives no more than it was
asked for. -/
structure FileAccess.Regular (access : FileAccess Path) : Prop where
  listing : ∀ path files, access.listing path = some files →
    ∃ entries, listFiles entries = some files
  reads : ∀ path content fileSize chunks, access.reads path content = some (fileSize, chunks) →
    ∀ chunk ∈ chunks, chunk.length ≤ fileChunkSize

omit [DecidableEq Path] in
theorem FileAccess.granted_regular : (granted : FileAccess Path).Regular where
  listing path files h := ⟨[], h⟩
  reads path content fileSize chunks h := by
    obtain ⟨bytes, -, hread⟩ := Option.map_eq_some_iff.mp h
    obtain ⟨-, rfl⟩ := Prod.mk.inj hread
    exact fun _ => length_chunk_le

theorem exists_call_of_sendOpenedFile {basePath filename filepath : Bytes} {fileSize : ℕ}
    {chunks : List Bytes} (hpath : createFilepath basePath filename = some filepath)
    (hchunks : ∀ chunk ∈ chunks, chunk.length ≤ fileChunkSize) :
    ∀ packet ∈ sendOpenedFile filename fileSize chunks,
      ∃ call : CreatePacketCall, call.packet = packet := by
  intro packet hpacket
  rcases List.mem_cons.mp hpacket with rfl | hdata
  · exact ⟨.announcement basePath filename filepath fileSize hpath, rfl⟩
  · obtain ⟨chunk, hchunk, rfl⟩ := List.mem_map.mp hdata
    exact ⟨.chunk chunk (hchunks chunk hchunk), rfl⟩

omit [DecidableEq Path] in
theorem exists_call_of_handleDownload (haccess : access.Regular) {filename : Bytes}
    {disk : Disk Path} : ∀ packet ∈ handleDownload resolve access username filename disk,
      ∃ call : CreatePacketCall, call.packet = packet := by
  intro packet hpacket
  simp only [handleDownload] at hpacket
  split at hpacket
  · split at hpacket
    · split at hpacket
      · cases hpacket
      · next fileSize chunks hopened =>
          obtain ⟨path, hpath, hreads⟩ := Option.bind_eq_some_iff.mp hopened
          obtain ⟨filepath, hfilepath, -⟩ := Option.map_eq_some_iff.mp hpath
          exact exists_call_of_sendOpenedFile hfilepath (haccess.reads _ _ _ _ hreads) packet
            hpacket
    · obtain rfl := List.mem_singleton.mp hpacket
      exact ⟨.noContent .error, rfl⟩
  · cases hpacket

/-- The event is of a listed type, and the name of a deletion came in a packet. -/
structure ReplicaEvent.OfPacket (event : ReplicaEvent) : Prop where
  listed : event.type.Listed
  name : event.type = .fileDeleted → ∀ filename, event.filepath = some filename →
    ∃ packet : Packet, cString packet.payload = filename

theorem ofPacket_of_fileEvent {type : PacketType} {filename : Bytes} {event : ReplicaEvent}
    (hname : type = .delete → ∃ packet : Packet, cString packet.payload = filename)
    (h : fileEvent manager username session type filename = some event) : event.OfPacket := by
  simp only [fileEvent] at h
  split at h
  · split at h
    · obtain rfl := Option.some.inj h
      exact ⟨(fun _ h => by cases h), (fun h => by cases h)⟩
    · obtain rfl := Option.some.inj h
      refine ⟨(fun _ h => by cases h), fun _ name h => ?_⟩
      obtain rfl := Option.some.inj h
      exact hname rfl
    · cases h
  · cases h

/-- What a handler sends, and the event that it leaves. -/
structure Handled.OfCalls (handled : Handled Path σ) : Prop where
  sent : ∀ packet ∈ handled.sent, ∃ call : CreatePacketCall, call.packet = packet
  event : ∀ event, handled.event = some event → event.OfPacket

omit [DecidableEq Path] in
/-- A handler that sends nothing itself. -/
theorem ofCalls_of_silent (hsent : handled.sent = [])
    (hevent : ∀ event, handled.event = some event → event.OfPacket) : handled.OfCalls where
  sent packet hpacket := by
    rw [hsent] at hpacket
    cases hpacket
  event := hevent

omit [DecidableEq Path] in
theorem ofPacket_of_handleExit (username : Bytes) (session : Session) (store : Store Path) :
    (handleExit username session store).2.OfPacket :=
  ⟨(fun _ h => by cases h), (fun h => by cases h)⟩

theorem ofCalls_of_interface (haccess : access.Regular)
    (h : interface readPacket resolve access manager username session store s = done handled) :
    handled.OfCalls := by
  obtain ⟨⟨received, t⟩, -, h⟩ := bind_eq_done.mp h
  obtain ⟨command, -, h⟩ := bind_eq_done.mp h
  split at h
  · obtain ⟨sent, hsent, h⟩ := bind_eq_done.mp h
    obtain rfl := Ending.done.inj h
    obtain ⟨files, hfiles, hsent⟩ := bind_eq_done.mp hsent
    split at hsent
    · obtain rfl := Ending.done.inj hsent
      refine ⟨fun packet hpacket => ?_, (fun _ h => by cases h)⟩
      obtain rfl := List.mem_singleton.mp hpacket
      obtain ⟨entries, hentries⟩ := haccess.listing _ _ (deref_eq_done.mp hfiles)
      exact ⟨.listing entries files hentries, rfl⟩
    · cases hsent
  · obtain rfl := Ending.done.inj h
    exact ⟨exists_call_of_handleDownload haccess, (fun _ h => by cases h)⟩
  · obtain ⟨⟨store', event⟩, hdelete, h⟩ := bind_eq_done.mp h
    obtain rfl := Ending.done.inj h
    refine ofCalls_of_silent rfl fun event' hevent => ?_
    simp only [handleDelete] at hdelete
    split at hdelete
    · obtain ⟨table, -, hdelete⟩ := bind_eq_done.mp hdelete
      obtain ⟨-, rfl⟩ := Prod.mk.inj (Ending.done.inj hdelete)
      have hsame : fileEvent manager username session .delete (cString command.payload) =
        some event' := hevent
      exact ofPacket_of_fileEvent (fun _ => ⟨command, rfl⟩) hsame
    · obtain ⟨-, rfl⟩ := Prod.mk.inj (Ending.done.inj hdelete)
      cases hevent
  · obtain rfl := Ending.done.inj h
    refine ofCalls_of_silent rfl fun event hevent => ?_
    obtain rfl := Option.some.inj hevent
    exact ofPacket_of_handleExit username session store
  · obtain rfl := Ending.done.inj h
    refine ofCalls_of_silent rfl fun event hevent => ?_
    obtain rfl := Option.some.inj hevent
    exact ofPacket_of_handleExit username session store
  · obtain rfl := Ending.done.inj h
    exact ofCalls_of_silent rfl fun _ h => by cases h

/-- A deletion that is taken from a connection has its name from the packet. -/
theorem ofCalls_of_handleIncomingFile
    (h : handleIncomingFile readPacket resolve access manager username session store s =
      done handled) : handled.OfCalls := by
  obtain ⟨⟨received, t⟩, -, h⟩ := bind_eq_done.mp h
  obtain ⟨packet, -, h⟩ := bind_eq_done.mp h
  obtain ⟨⟨filename?, disk, u⟩, hfile, h⟩ := bind_eq_done.mp h
  by_cases hclosed : packet.type = .connectionClosed
  · obtain rfl := Ending.done.inj ((if_pos hclosed).symm.trans h)
    exact ofCalls_of_silent rfl fun _ h => by cases h
  · obtain ⟨filename, hfilename, h⟩ := bind_eq_done.mp ((if_neg hclosed).symm.trans h)
    obtain ⟨table, -, h⟩ := bind_eq_done.mp h
    obtain rfl := Ending.done.inj h
    refine ofCalls_of_silent rfl fun event hevent => ?_
    refine ofPacket_of_fileEvent (fun htype => ⟨packet, ?_⟩) hevent
    rw [handleSendDelete, htype] at hfile
    obtain ⟨rfl, -⟩ := Prod.mk.inj (Ending.done.inj hfile)
    exact Option.some.inj (deref_eq_done.mp hfilename)

omit [DecidableEq Path] in
/-- What the replicas are sent of an event. -/
theorem exists_call_of_sendEvent {event : ReplicaEvent} (h : event.OfPacket) (disk : Disk Path) :
    ∀ packet ∈ sendEvent resolve disk event,
      ∃ call : CreatePacketCall, call.packet = packet := by
  intro packet hpacket
  rcases List.mem_cons.mp hpacket with rfl | hpacket
  · exact ⟨.replicaEvent event h.listed, rfl⟩
  · split at hpacket
    · next username filename htype husername hfilename =>
        split at hpacket
        · cases hpacket
        · next content hcontent =>
            obtain ⟨path, hpath, -⟩ := Option.bind_eq_some_iff.mp hcontent
            obtain ⟨filepath, hfilepath, -⟩ := Option.map_eq_some_iff.mp hpath
            exact exists_call_of_sendOpenedFile hfilepath (fun _ => length_chunk_le) packet hpacket
    · next filename htype hfilename =>
        obtain rfl := List.mem_singleton.mp hpacket
        obtain ⟨deleted, rfl⟩ := h.name htype filename hfilename
        exact ⟨.deletion deleted, rfl⟩
    · cases hpacket

end

/-! ## What does not fit -/

/-- `01/01/2025 00:00:00`. -/
def newYear : Bytes :=
  [48, 49, 47, 48, 49, 47, 50, 48, 50, 53, 32, 48, 48, 58, 48, 48, 58, 48, 48]

/-- The files `0` to `479`. -/
def crowdedFolder : List DirEntry :=
  (List.range 480).map fun n => ⟨printNat n, some ⟨newYear, newYear, newYear⟩⟩

theorem nodup_crowdedFolder : (crowdedFolder.map DirEntry.name).Nodup := by
  rw [crowdedFolder, List.map_map]
  refine List.Nodup.map (fun m n h => ?_) List.nodup_range
  exact (scanNat_printNat m).symm.trans ((congrArg scanNat h).trans (scanNat_printNat n))

theorem size_of_mem_crowdedFolder {entry : DirEntry} (h : entry ∈ crowdedFolder) :
    entry.size = some (138 + entry.name.length) := by
  obtain ⟨n, -, rfl⟩ := List.mem_map.mp h
  have hdots : DirEntry.isDots ⟨printNat n, some ⟨newYear, newYear, newYear⟩⟩ = false := by
    have hdot : (46 : UInt8) ∉ printNat n := dot_not_mem_printNat n
    have hone : printNat n ≠ [46] := fun h => hdot (h ▸ List.mem_cons_self)
    have htwo : printNat n ≠ [46, 46] := fun h => hdot (h ▸ List.mem_cons_self)
    simp [DirEntry.isDots, hone, htwo]
  have hlisted : DirEntry.listed ⟨printNat n, some ⟨newYear, newYear, newYear⟩⟩ =
      some ⟨newYear, newYear, newYear⟩ := by
    rw [DirEntry.listed, hdots]
    rfl
  rw [DirEntry.size, hlisted, Option.map_some]
  simp only [newYear, List.length_cons, List.length_nil]
  congr 1
  omega

theorem le_size_crowdedFolder : 2 ^ 16 ≤ (crowdedFolder.filterMap DirEntry.size).sum := by
  have hsizes : crowdedFolder.filterMap DirEntry.size =
      crowdedFolder.map fun entry => 138 + entry.name.length := by
    rw [← List.filterMap_eq_map]
    exact List.filterMap_congr fun entry hentry => size_of_mem_crowdedFolder hentry
  have hle := List.card_nsmul_le_sum (crowdedFolder.map fun entry => 138 + entry.name.length) 138
    fun n hn => by
      obtain ⟨entry, -, rfl⟩ := List.mem_map.mp hn
      exact Nat.le_add_right ..
  rw [hsizes]
  refine le_trans ?_ hle
  simp [crowdedFolder]

/-- A client of a manager deletes a name that is not listed. -/
theorem event_of_deletion {Path : Type} [DecidableEq Path] {resolve : Bytes → Path}
    {access : FileAccess Path} {username : Bytes} {session : Session} {store : Store Path}
    {name : Bytes} (hlisted : listed (store.table.fileList username) name = none)
    (hlength : name.length < 2 ^ 16) (hzero : 0 ∉ name) :
    ∃ handled, handleIncomingFile Socket.readPacket resolve access true username session store
        ⟨[createTextPacket .delete name], .stalled⟩ = done handled ∧
      handled.event = some (createFileDeleteEvent username session.deviceAddress name) := by
  have hname : cString (createTextPacket .delete name).payload = name := by
    rw [payload_createTextPacket hlength, cString_of_zero_not_mem hzero]
  have hlist : ∀ content, incomingList true username session store.table .delete name content =
      done store.table := by
    intro content
    have hstatus : getFileStatus (store.table.fileList username) name content = .notFound :=
      getFileStatus_eq_notFound.mpr hlisted
    simp only [incomingList, HashTable.removeFileFromUserList, hstatus, ite_self]
  have hrun : handleIncomingFile Socket.readPacket resolve access true username session store
      ⟨[createTextPacket .delete name], .stalled⟩ = _ := handleIncomingFile_delete rfl rfl
  rw [hname, hlist, bind_done] at hrun
  exact ⟨_, hrun, rfl⟩

/-- The event of a deletion has no room for a name that nearly fills its packet. -/
theorem payload_ne_of_long_name {username name : Bytes} {deviceAddress : SockAddrIn}
    (h : 65531 ≤ name.length) :
    (eventPacket (createFileDeleteEvent username deviceAddress name)).payload ≠
      serializeReplicaEvent (createFileDeleteEvent username deviceAddress name) := by
  intro hsame
  have hfits := (payload_eventPacket_iff fun _ h => by cases h).mp hsame
  have haddress := List.length_pos_iff.mpr (printAddress_ne_nil deviceAddress)
  simp only [createFileDeleteEvent, Option.getD_some] at hfits
  omega

/-- A user without files. -/
def noFiles : Store Bytes where
  table := HashTable.create.insert [97] ((createContext [97]).addSession (createSession 0 .zero))
  disk := fun _ => none

/-- The letter `a`, 65531 times. -/
def longName : Bytes := List.replicate 65531 97

/-- The reply to LIST for a folder of 480 files has not the whole listing, and the event of a
deletion of a name of 65531 bytes has not the whole name. -/
theorem crowdedFolder_is_cut :
    ((crowdedFolder.map DirEntry.name).Nodup ∧
      ∃ files, listFiles crowdedFolder = some files ∧
        (createTextPacket .data files).payload ≠ files) ∧
    ∃ handled event, handleIncomingFile Socket.readPacket id .granted true [97]
        (createSession 0 .zero) noFiles
        ⟨[createTextPacket .delete longName], .stalled⟩ = done handled ∧
      handled.event = some event ∧ (eventPacket event).payload ≠ serializeReplicaEvent event := by
  constructor
  · obtain ⟨files, hfiles⟩ : ∃ files, listFiles crowdedFolder = some files := ⟨_, listFiles_eq _⟩
    refine ⟨nodup_crowdedFolder, files, hfiles, fun h => ?_⟩
    have hlength := payload_createTextPacket_iff.mp h
    rw [length_listFiles hfiles] at hlength
    exact absurd le_size_crowdedFolder (not_le.mpr hlength)
  · have hzero : 0 ∉ longName := fun h =>
      absurd (List.eq_of_mem_replicate h) (by decide)
    have hlength : longName.length = 65531 := List.length_replicate
    have hlisted : listed (noFiles.table.fileList [97]) longName = none := rfl
    obtain ⟨handled, hhandled, hevent⟩ := event_of_deletion hlisted (by omega) hzero
    exact ⟨handled, _, hhandled, hevent, payload_ne_of_long_name hlength.ge⟩

end SyncServer
