import SyncServer.Files.Incoming

/-! # What a client can do to the server

A client's bytes reach `handle_new_connection`, `interface` and `handle_incoming_file`. The server
stops at a null pointer, at a read beyond the payload, at a call of `exit` and where it frees a
packet twice. The two threads of the session, and those of others, run between each other's calls.
-/

namespace SyncServer

open CText Ending

/-! ## Reading never stops the server -/

namespace ByteStream

theorem safe_read (s : ByteStream) (n : ℕ) : Safe (s.read n) := by
  unfold read
  split
  · split <;> simp
  · simp

theorem safe_readFully (missing : ℕ) (buffer : Bytes) (s : ByteStream) :
    Safe (readFully missing buffer s) := by
  fun_induction readFully missing buffer s with
  | case1 => exact safe_done _
  | case2 => exact safe_waits
  | case3 _ _ s _ e h => exact absurd h (safe_read s _ e)
  | case4 => exact safe_done _
  | case5 => exact safe_done _
  | case6 _ _ _ _ _ _ _ _ ih => exact ih

theorem safe_readPacket (s : ByteStream) : Safe s.readPacket := by
  refine safe_bind.mpr ⟨safe_bind.mpr ⟨safe_readFully _ _ _, ?_⟩, fun _ _ => safe_done _⟩
  rintro ⟨header, t⟩ -
  cases header with
  | closed => exact safe_done _
  | failed => exact safe_done _
  | filled header =>
      refine safe_bind.mpr ⟨safe_readFully _ _ _, ?_⟩
      rintro ⟨packet, u⟩ -
      cases packet with
      | closed => exact safe_done _
      | failed => exact safe_done _
      | filled packet => exact safe_done _

end ByteStream

/-! ## What may be read -/

/-- Whatever packet is read meets the condition, and no read fails. -/
def NextPacket (s : ByteStream) (condition : Packet → ByteStream → Prop) : Prop :=
  match s.readPacket with
  | .done (some packet, t) => condition packet t
  | .done (none, _) => False
  | _ => True

/-- None of the next `n` reads fails. -/
def PacketsCome : ℕ → ByteStream → Prop
  | 0, _ => True
  | n + 1, s => NextPacket s fun _ t => PacketsCome n t

/-- A read whose result is used as a packet. -/
theorem safe_readPacket_bind {α : Type} {s : ByteStream}
    {f : Packet → ByteStream → Ending Fault α} :
    Safe (s.readPacket >>= fun found => deref .nullPointer found.1 >>= fun packet =>
      f packet found.2) ↔ NextPacket s fun packet t => Safe (f packet t) := by
  have hread := s.safe_readPacket
  unfold NextPacket
  cases h : s.readPacket with
  | waits => simp
  | faults e => exact absurd h (hread e)
  | done found =>
      obtain ⟨packet, t⟩ := found
      cases packet with
      | none => simp
      | some packet => simp

theorem NextPacket.congr {s : ByteStream} {condition condition' : Packet → ByteStream → Prop}
    (h : ∀ packet t, condition packet t ↔ condition' packet t) :
    NextPacket s condition ↔ NextPacket s condition' := by
  unfold NextPacket
  split
  · exact h _ _
  · exact Iff.rfl
  · exact Iff.rfl

theorem safe_writePackets {n : ℕ} {written : Bytes} {s : ByteStream} :
    Safe (writePackets ByteStream.readPacket n written s) ↔ PacketsCome n s := by
  induction n generalizing written s with
  | zero => simp [writePackets, PacketsCome]
  | succ n ih =>
      rw [PacketsCome]
      exact safe_readPacket_bind.trans (NextPacket.congr fun _ _ => ih)

/-! ## The receive thread -/

/-- A read beyond the payload counts as an error here, also one of the two bytes that are behind
it. -/
def Packet.readsBeyond (packet : Packet) : Bool :=
  packet.type = .send ∧ packet.payload ≠ [] ∧ FileAnnouncement.ofBytes packet.payload = none

section

variable {Path : Type} [DecidableEq Path] (resolve : Bytes → Path) (access : FileAccess Path)
  (username : Bytes)

/-- `handle_incoming_file` until it tests `session->active`: the type and the name, or `none` for
a closed connection. -/
def takeIncoming (disk : Disk Path) (s : ByteStream) :
    Ending Fault (Option (PacketType × Bytes) × Disk Path × ByteStream) := do
  let (packet, s) ← s.readPacket
  let packet ← deref .nullPointer packet
  if packet.readsBeyond then faults .overread
  else do
    let (filename, disk, s) ← handleSendDelete ByteStream.readPacket resolve access
      (getUserFolder username) packet disk s
    if packet.type = .connectionClosed then done (none, disk, s)
    else do
      let filename ← deref .nullPointer filename
      done (some (packet.type, filename), disk, s)

/-- An upload is announced with 16 bytes and the whole name, and where its destination opens the
data packets come. A deletion may be anything; other packets may not come here. -/
def WelcomeIncoming (packet : Packet) (t : ByteStream) : Prop :=
  match packet.type with
  | .send =>
      match FileAnnouncement.ofBytes packet.payload with
      | none => False
      | some announcement =>
          (opened resolve access (userFilepath username announcement.filename)).isSome = true →
            PacketsCome announcement.numPackets t
  | .delete | .connectionClosed => True
  | _ => False

end

section

variable {Path : Type} [DecidableEq Path] {resolve : Bytes → Path} {access : FileAccess Path}
  {manager : Bool} {username : Bytes} {session : Session} {store : Store Path}

/-- What is taken in is handled as `handle_incoming_file` does. -/
theorem handleIncomingFile_of_takeIncoming {s t : ByteStream} {type : PacketType}
    {filename : Bytes} {disk : Disk Path}
    (h : takeIncoming resolve access username store.disk s =
      done (some (type, filename), disk, t)) :
    handleIncomingFile ByteStream.readPacket resolve access manager username session store s =
      (incomingList manager username session store.table type filename
        (fileAt resolve (userFilepath username filename) disk) >>= fun table =>
          done ⟨true, ⟨table, disk⟩, fileEvent manager username session type filename, [], t⟩) := by
  obtain ⟨⟨found, u⟩, hread, hrest⟩ := bind_eq_done.mp h
  obtain ⟨packet, hpacket, htail⟩ := bind_eq_done.mp hrest
  obtain rfl := deref_eq_done.mp hpacket
  split at htail
  · cases htail
  · obtain ⟨⟨name, disk', v⟩, htransfer, htaken⟩ := bind_eq_done.mp htail
    dsimp only at htaken
    split at htaken
    · cases htaken
    · rename_i hopen
      obtain ⟨name, hname, hreturn⟩ := bind_eq_done.mp htaken
      obtain rfl := deref_eq_done.mp hname
      cases hreturn
      simp only [handleIncomingFile, hread, bind_done, deref_some, htransfer, if_neg hopen]

theorem safe_writePacketsToFile {filepath : Option Bytes} {n : ℕ} (disk : Disk Path)
    {s : ByteStream} :
    Safe (writePacketsToFile ByteStream.readPacket resolve access filepath n disk s) ↔
      ((opened resolve access filepath).isSome = true → PacketsCome n s) := by
  unfold writePacketsToFile
  cases opened resolve access filepath with
  | none => simp
  | some path => simp [safe_bind, safe_writePackets]

/-- The receive thread stops the server if and only if the packet is not welcome. -/
theorem safe_takeIncoming_iff {disk : Disk Path} {s : ByteStream} :
    Safe (takeIncoming resolve access username disk s) ↔
      NextPacket s (WelcomeIncoming resolve access username) := by
  have hread := s.safe_readPacket
  unfold takeIncoming NextPacket
  cases hfound : s.readPacket with
  | waits => simp
  | faults e => exact absurd hfound (hread e)
  | done found =>
  obtain ⟨packet, t⟩ := found
  cases packet with
  | none => simp
  | some packet =>
  simp only [bind_done, deref_some]
  unfold WelcomeIncoming Packet.readsBeyond
  cases htype : packet.type with
  | send =>
      simp only [handleSendDelete, htype]
      cases hannounced : FileAnnouncement.ofBytes packet.payload with
      | none =>
          by_cases hempty : packet.payload = []
          · simp [hempty]
          · simp [hempty]
      | some announcement =>
          have hne : packet.payload ≠ [] := by
            intro hempty
            rw [hempty] at hannounced
            cases hannounced
          have hheap := packet.announcement_of_payload hannounced access.heap
          simp only [hne, ite_false, receiveFile, hheap, deref_some, bind_done]
          rw [← safe_writePacketsToFile disk, userFilepath]
          cases writePacketsToFile ByteStream.readPacket resolve access
              (createFilepath (getUserFolder username) announcement.filename)
              announcement.numPackets disk t with
          | waits => simp
          | faults e => simp
          | done written => simp
  | delete => simp [handleSendDelete, htype, deleteFile]
  | connectionClosed => simp [handleSendDelete, htype]
  | _ => simp [handleSendDelete, htype]

end

/-! ## The calls on the list -/

/-- A call that a thread still makes for a packet. -/
inductive ListCall where
  /-- `get_file_status`. -/
  | status (entry : FileEntry)
  /-- `add_file_to_context`. -/
  | addFile (filename : Bytes)
  /-- `file_node->crc = crc32(filepath)`. -/
  | updateCrc (filename : Bytes)
  /-- `remove_file_from_context`. -/
  | removeEntry (filename : Bytes)
  /-- The load of `global_server_mode`. -/
  | mode (entry : FileEntry)
  /-- `is_session_empty` of what a slot holds. -/
  | slot (index : ℕ) (entry : FileEntry)
  /-- The slot is loaded a second time, for `add_file_to_sync_buffer`. -/
  | session (index : ℕ) (entry : FileEntry)
  /-- `add_file_to_sync_buffer` of the session that was loaded. -/
  | buffer (index : ℕ) (entry : FileEntry)
  deriving DecidableEq, Repr

namespace ListCall

section

variable {Path : Type} (resolve : Bytes → Path) (manager : Bool) (username : Bytes) (own : ℕ)

/-- A call, and the one after it. `own` is the slot of the thread's session. -/
def next (store : Store Path) : ListCall → Ending Fault (HashTable × Option ListCall)
  | .status ⟨type, filename⟩ =>
      let status := getFileStatus (store.table.fileList username) filename
        (fileAt resolve (userFilepath username filename) store.disk)
      match type, status with
      | .send, .notFound => done (store.table, some (.addFile filename))
      | .send, .updated => done (store.table, some (.updateCrc filename))
      | .send, .unchanged => done (store.table, none)
      | .delete, .notFound => done (store.table, none)
      | .delete, _ => done (store.table, some (.removeEntry filename))
  | .addFile filename => do
      let table ← store.table.addFileToContext filename username
        (fileAt resolve (userFilepath username filename) store.disk)
      done (table, some (.mode ⟨.send, filename⟩))
  | .updateCrc filename => do
      let table ← store.table.updateCrc filename username
        (fileAt resolve (userFilepath username filename) store.disk)
      done (table, some (.mode ⟨.send, filename⟩))
  | .removeEntry filename => do
      let table ← store.table.removeFileFromContext filename username
      done (table, some (.mode ⟨.delete, filename⟩))
  | .mode entry => done (store.table, if manager then some (.slot 0 entry) else none)
  | .slot index entry =>
      if index = maxSessions then done (store.table, none)
      else if index = own ∨ store.session username index = none then
        done (store.table, some (.slot (index + 1) entry))
      else done (store.table, some (.session index entry))
  | .session index entry => do
      let _ ← deref .nullPointer (store.session username index)
      done (store.table, some (.buffer index entry))
  | .buffer index entry => do
      let session ← await ((store.session username index).bind (addFileToSyncBuffer · entry))
      done (store.table.modify username (·.addSession session), some (.slot (index + 1) entry))

end

/-- A file that was found changed is still listed when its CRC is set, and a session that was found
in its slot is still there when it is loaded again. -/
def Welcome {Path : Type} (username : Bytes) (store : Store Path) : ListCall → Prop
  | .updateCrc filename =>
      (fileLinkedListGet (store.table.fileList username) filename).isSome = true
  | .session index _ => (store.session username index).isSome = true
  | _ => True

section

variable {Path : Type} {resolve : Bytes → Path} {manager : Bool} {username : Bytes} {own : ℕ}
  {store : Store Path} {context : UserContext}

theorem safe_next_iff (h : store.table.find username = some context) {call : ListCall} :
    Safe (call.next resolve manager username own store) ↔ call.Welcome username store := by
  cases call with
  | status entry =>
      simp only [next, Welcome]
      split <;> simp
  | addFile filename => simp [next, Welcome, HashTable.addFileToContext_of_find h]
  | updateCrc filename => simp [next, Welcome, HashTable.updateCrc, safe_bind, safe_deref]
  | removeEntry filename => simp [next, Welcome, HashTable.removeFileFromContext_of_find h]
  | mode entry => simp [next, Welcome]
  | slot index entry =>
      simp only [next, Welcome]
      split
      · simp
      · split <;> simp
  | session index entry => simp [next, Welcome, safe_bind, safe_deref]
  | buffer index entry => simp [next, Welcome, safe_bind, safe_await]

/-- The user stays known. -/
theorem find_of_next (h : store.table.find username = some context) {call : ListCall}
    {table : HashTable} {call' : Option ListCall}
    (hdone : call.next resolve manager username own store = done (table, call')) :
    (table.find username).isSome = true := by
  have hsame : (store.table.find username).isSome = true := Option.isSome_of_eq_some h
  have hmodify : ∀ f : UserContext → UserContext,
      ((store.table.modify username f).find username).isSome = true := fun f =>
    Option.isSome_of_eq_some (HashTable.replaces_modify h f).find
  cases call with
  | status entry =>
      simp only [next] at hdone
      split at hdone <;> cases hdone <;> exact hsame
  | addFile filename =>
      simp only [next, HashTable.addFileToContext_of_find h, bind_done] at hdone
      cases hdone
      exact hmodify _
  | updateCrc filename =>
      obtain ⟨table', hupdate, hdone⟩ := bind_eq_done.mp hdone
      obtain ⟨node, -, hupdate⟩ := bind_eq_done.mp hupdate
      cases hupdate
      cases hdone
      exact hmodify _
  | removeEntry filename =>
      simp only [next, HashTable.removeFileFromContext_of_find h, bind_done] at hdone
      cases hdone
      exact hmodify _
  | mode entry =>
      cases hdone
      exact hsame
  | slot index entry =>
      simp only [next] at hdone
      split at hdone
      · cases hdone
        exact hsame
      · split at hdone <;> cases hdone <;> exact hsame
  | session index entry =>
      obtain ⟨session, -, hdone⟩ := bind_eq_done.mp hdone
      cases hdone
      exact hsame
  | buffer index entry =>
      obtain ⟨session, -, hdone⟩ := bind_eq_done.mp hdone
      cases hdone
      exact hmodify _

end

/-! ### Nobody comes between -/

/-- The calls of a thread while nobody else changes the table. -/
inductive Uninterrupted {Path : Type} (resolve : Bytes → Path) (manager : Bool) (username : Bytes)
    (own : ℕ) (disk : Disk Path) : HashTable → Option ListCall → HashTable → Prop where
  | ended (table) : Uninterrupted resolve manager username own disk table none table
  | call {table table' table'' call call'}
      (h : ListCall.next resolve manager username own ⟨table, disk⟩ call = done (table', call'))
      (rest : Uninterrupted resolve manager username own disk table' call' table'') :
      Uninterrupted resolve manager username own disk table (some call) table''

/-- The first call for a packet of an active session. -/
def first (type : PacketType) (filename : Bytes) : Option ListCall :=
  match type with
  | .send => some (.status ⟨.send, filename⟩)
  | .delete => some (.status ⟨.delete, filename⟩)
  | _ => none

section

variable {Path : Type} {resolve : Bytes → Path} {manager : Bool} {username : Bytes} {own : ℕ}
  {disk : Disk Path} {table table' : HashTable} {context context' : UserContext}

theorem uninterrupted_slots {entry : FileEntry} {n i : ℕ} (hn : i + n = maxSessions)
    (hfind : table.find username = some context)
    (hsend : (List.range' i n).foldlM (fun context index =>
      if index = own then some context else context.sendFileToSession index entry) context =
        some context') :
    ∃ table', Uninterrupted resolve manager username own disk table (some (.slot i entry)) table' ∧
      table.Replaces username context' table' := by
  induction n generalizing i table context with
  | zero =>
      cases hsend
      refine ⟨table, .call ?_ (.ended table), HashTable.replaces_self hfind⟩
      rw [next, if_pos (by omega)]
  | succ n ih =>
      rw [List.range'_succ, List.foldlM_cons] at hsend
      obtain ⟨context₁, hslot, hrest⟩ := Option.bind_eq_some_iff.mp hsend
      have hsession : Store.session ⟨table, disk⟩ username i = context.sessions[i]?.join :=
        Store.session_of_find hfind i
      have hne : i ≠ maxSessions := by omega
      have hskip : context₁ = context → (i = own ∨ context.sessions[i]?.join = none) → ∃ table',
          Uninterrupted resolve manager username own disk table (some (.slot i entry)) table' ∧
            table.Replaces username context' table' := by
        rintro rfl hempty
        obtain ⟨table', hcalls, hreplaces⟩ := ih (by omega) hfind hrest
        refine ⟨table', .call ?_ hcalls, hreplaces⟩
        rw [next, if_neg hne, if_pos (by rwa [hsession])]
      by_cases hown : i = own
      · rw [if_pos hown] at hslot
        exact hskip (Option.some.inj hslot).symm (.inl hown)
      · rw [if_neg hown] at hslot
        unfold UserContext.sendFileToSession at hslot
        split at hslot
        · rename_i session hfound
          obtain ⟨session', hadd, rfl⟩ := Option.map_eq_some_iff.mp hslot
          rw [hfound, Option.join_some] at hsession
          have hreplaces := HashTable.replaces_modify hfind (·.addSession session')
          obtain ⟨table', hcalls, hreplaces'⟩ := ih (by omega) hreplaces.find hrest
          have htested : next resolve manager username own ⟨table, disk⟩ (.slot i entry) =
              done (table, some (.session i entry)) := by
            rw [next, if_neg hne, if_neg (by rw [hsession]; simpa using hown)]
          have hloaded : next resolve manager username own ⟨table, disk⟩ (.session i entry) =
              done (table, some (.buffer i entry)) := by
            rw [next, hsession]
            rfl
          have hadded : next resolve manager username own ⟨table, disk⟩ (.buffer i entry) =
              done (table.modify username (·.addSession session'), some (.slot (i + 1) entry)) := by
            rw [next, hsession, Option.bind_some, hadd]
            rfl
          exact ⟨table', .call htested (.call hloaded (.call hadded hcalls)),
            hreplaces.trans hreplaces'⟩
        · rename_i hempty
          refine hskip (Option.some.inj hslot).symm (.inr ?_)
          cases hjoin : context.sessions[i]?.join with
          | none => rfl
          | some session => exact absurd (Option.join_eq_some_iff.mp hjoin) (hempty session)

theorem uninterrupted_mode {entry : FileEntry} (hfind : table.find username = some context)
    (hsend : table.sendFileToOthers manager username own entry = done table') :
    ∃ table'', Uninterrupted resolve manager username own disk table (some (.mode entry)) table'' ∧
      ∀ other, table''.find other = table'.find other := by
  cases manager with
  | false =>
      cases hsend
      exact ⟨table, .call rfl (.ended table), fun _ => rfl⟩
  | true =>
      simp only [HashTable.sendFileToOthers, ite_true, hfind] at hsend
      obtain ⟨context', hothers, hreturn⟩ := bind_eq_done.mp hsend
      cases hreturn
      have hslots := await_eq_done.mp hothers
      rw [UserContext.sendFileToOthers, List.range_eq_range'] at hslots
      obtain ⟨table'', hcalls, hreplaces⟩ := uninterrupted_slots (by omega) hfind hslots
      refine ⟨table'', .call rfl hcalls, fun other => ?_⟩
      have hmodify := HashTable.replaces_modify hfind fun _ => context'
      by_cases hother : other = username
      · rw [hother, hreplaces.find, hmodify.find]
      · rw [hreplaces.find_of_ne other hother, hmodify.find_of_ne other hother]

/-- The list changes, and the other sessions are told. -/
theorem uninterrupted_status {entry : FileEntry} (call : ListCall) {f : UserContext → UserContext}
    (hfind : table.find username = some context)
    (hstatus : next resolve manager username own ⟨table, disk⟩ (.status entry) =
      done (table, some call))
    (hchange : next resolve manager username own ⟨table, disk⟩ call =
      done (table.modify username f, some (.mode entry)))
    (hsend : (table.modify username f).sendFileToOthers manager username own entry = done table') :
    ∃ table'',
      Uninterrupted resolve manager username own disk table (some (.status entry)) table'' ∧
        ∀ other, table''.find other = table'.find other := by
  obtain ⟨table'', hcalls, hsame⟩ :=
    uninterrupted_mode (HashTable.replaces_modify hfind f).find hsend
  exact ⟨table'', .call hstatus (.call hchange hcalls), hsame⟩

/-- Calls that nobody interrupts are the handler's work on the list. -/
theorem uninterrupted_incomingList {session : Session} (hactive : session.active = true)
    {filename : Bytes} {type : PacketType} (hfind : table.find username = some context)
    (hdone : incomingList manager username session table type filename
      (fileAt resolve (userFilepath username filename) disk) = done table') :
    ∃ table'', Uninterrupted resolve manager username session.sessionIndex disk table
        (first type filename) table'' ∧ ∀ other, table''.find other = table'.find other := by
  simp only [incomingList, hactive, ite_true] at hdone
  have hlist := HashTable.fileList_of_find hfind
  cases type with
  | send =>
      simp only [HashTable.fileReceived, hlist] at hdone
      cases hstatus : getFileStatus context.fileList filename
          (fileAt resolve (userFilepath username filename) disk) with
      | notFound =>
          simp only [hstatus, HashTable.addFileToContext_of_find hfind, bind_done] at hdone
          refine uninterrupted_status (.addFile filename) hfind ?_ ?_ hdone
          · simp only [next, hlist, hstatus]
          · simp only [next, HashTable.addFileToContext_of_find hfind, bind_done]
      | updated =>
          obtain ⟨crc, hcrc, -⟩ := getFileStatus_eq_updated.mp hstatus
          simp only [hstatus, HashTable.updateCrc_of_listed hfind hcrc, bind_done] at hdone
          refine uninterrupted_status (.updateCrc filename) hfind ?_ ?_ hdone
          · simp only [next, hlist, hstatus]
          · simp only [next, HashTable.updateCrc_of_listed hfind hcrc, bind_done]
      | unchanged =>
          rw [hstatus] at hdone
          cases hdone
          refine ⟨table, .call ?_ (.ended table), fun _ => rfl⟩
          simp only [next, hlist, hstatus]
  | delete =>
      simp only [HashTable.removeFileFromUserList, hlist] at hdone
      cases hstatus : getFileStatus context.fileList filename
          (fileAt resolve (userFilepath username filename) disk) with
      | notFound =>
          rw [hstatus] at hdone
          cases hdone
          refine ⟨table, .call ?_ (.ended table), fun _ => rfl⟩
          simp only [next, hlist, hstatus]
      | _ =>
          simp only [hstatus, HashTable.removeFileFromContext_of_find hfind, bind_done] at hdone
          refine uninterrupted_status (.removeEntry filename) hfind ?_ ?_ hdone
          · simp only [next, hlist, hstatus]
          · simp only [next, HashTable.removeFileFromContext_of_find hfind, bind_done]
  | _ =>
      cases hdone
      exact ⟨table, .ended table, fun _ => rfl⟩

end

end ListCall

/-! ## The handshake -/

theorem safe_initializeUserSessionAndThreads_iff {table : HashTable} {deviceAddress : SockAddrIn}
    {username : Bytes} :
    Safe (initializeUserSessionAndThreads table deviceAddress username) ↔
      (table.search username).isSome = true := by
  have hcreate : (table.getOrCreateContext username).isSome = (table.search username).isSome :=
    Option.isSome_map
  rw [← hcreate]
  unfold initializeUserSessionAndThreads
  cases table.getOrCreateContext username with
  | none => simp
  | some found =>
      cases hindex : found.2.findFreeSessionIndex with
      | none => simp [hindex]
      | some index => simp [hindex]

/-- A new connection stops the server unless the name is read, the answer is written, the other
connections are accepted, and the search for the user does not run off its list. -/
theorem safe_handleNewConnection_iff {table : HashTable} {request : Option Bytes}
    {answered accepted : Bool} {deviceAddress : SockAddrIn} :
    Safe (handleNewConnection table request answered accepted deviceAddress) ↔
      answered = true ∧ accepted = true ∧ ∃ received ∈ request,
        (table.search (readUsername received).name).isSome = true := by
  cases request with
  | none => simp [handleNewConnection]
  | some received =>
      by_cases hanswered : answered = true ∧ accepted = true
      · obtain ⟨rfl, rfl⟩ := hanswered
        simp [handleNewConnection, safe_bind, safe_initializeUserSessionAndThreads_iff]
      · have hfalse : (answered && accepted) = false := by simpa using hanswered
        simp only [handleNewConnection, deref_some, bind_done, hfalse, Bool.false_eq_true,
          ite_false, not_safe_faults, false_iff]
        exact fun hall => hanswered ⟨hall.1, hall.2.1⟩

/-- A user with a session is known. -/
theorem find_of_handleNewConnection {table table' : HashTable} {request : Option Bytes}
    {answered accepted : Bool} {deviceAddress : SockAddrIn} {name : Bytes}
    {session : Option (Session × ReplicaEvent)}
    (h : handleNewConnection table request answered accepted deviceAddress =
      done (name, table', session)) : (table'.find name).isSome = true := by
  obtain ⟨received, -, h⟩ := bind_eq_done.mp h
  split at h
  · obtain ⟨⟨table₂, session₂⟩, hsession, h⟩ := bind_eq_done.mp h
    cases h
    obtain ⟨⟨table₁, context⟩, hcreate, hsession⟩ := bind_eq_done.mp hsession
    have hfind := (HashTable.find_getOrCreateContext (deref_eq_done.mp hcreate)).1
    simp only at hsession
    split at hsession
    · cases hsession
      rw [hfind]
      rfl
    · cases hsession
      rw [(HashTable.replaces_modify hfind _).find]
      rfl
  · cases h

/-! ## A whole connection -/

/-- Where the receive thread of a session is. -/
inductive ReceiveThread where
  /-- Before the test of `session->active` in the loop. -/
  | testing
  /-- In `handle_incoming_file`, before the packet is there. -/
  | reading
  /-- The packet was taken in, and `session->active` is tested again. -/
  | taken (type : PacketType) (filename : Bytes)
  | calling (call : ListCall)
  | ended
  deriving DecidableEq, Repr

/-- Where the interface thread is. -/
inductive InterfaceThread where
  | serving
  /-- A call for `PACKET_DELETE`. -/
  | calling (call : ListCall) (filename : Bytes)
  /-- Before `remove`. -/
  | removing (filename : Bytes)
  /-- The sockets are closed, and the other threads of the session are joined. -/
  | joining
  | ended
  deriving DecidableEq, Repr

/-- A client's connection: its session, the bytes on its two sockets, and where the threads that
read them are. -/
structure ClientConnection (Path : Type) where
  store : Store Path
  username : Bytes
  session : Option Session
  interfaceStream : ByteStream
  receiveStream : ByteStream
  interfaceThread : InterfaceThread
  receiveThread : ReceiveThread

/-- A step of one of the threads, or whatever other threads make of the store. -/
inductive ClientAction (Path : Type) where
  | connect (request : Option Bytes) (answered accepted : Bool) (deviceAddress : SockAddrIn)
  /-- Of `interface`. If it closes the sockets, `after` is what the receive thread has read of a
  packet till then and reads from now on: what still reaches a read that has begun, and then an
  error or the bytes of another connection. -/
  | interface (manager : Bool) (access : FileAccess Path) (after : ByteStream)
  /-- Of `receive`. -/
  | receive (manager : Bool) (access : FileAccess Path)
  | others (store : Store Path)

namespace ClientConnection

section

variable {Path : Type} [DecidableEq Path] (resolve : Bytes → Path)

/-- What `interface` does with a packet, up to the calls on the list and the joins. -/
def serve (c : ClientConnection Path) (session : Session) (access : FileAccess Path)
    (after : ByteStream) (packet : Packet) : Ending Fault (ClientConnection Path) :=
  match packet.type with
  | .list => do
      let _ ← handleList resolve access c.username
      done c
  | .delete =>
      let filename := cString packet.payload
      if accessible resolve access (userFilepath c.username filename) c.store.disk then
        done { c with interfaceThread := .calling (.status ⟨.delete, filename⟩) filename }
      else done c
  | .exit | .connectionClosed =>
      done { c with
        session := some { session with active := false }
        receiveStream := after
        interfaceThread := .joining }
  | _ => done c

def stepInterface (c : ClientConnection Path) (session : Session) (manager : Bool)
    (access : FileAccess Path) (after : ByteStream) : Ending Fault (ClientConnection Path) :=
  match c.interfaceThread with
  | .serving => do
      let (packet, rest) ← c.interfaceStream.readPacket
      let packet ← deref .nullPointer packet
      serve resolve { c with interfaceStream := rest } session access after packet
  | .calling call filename => do
      let (table, call) ←
        call.next resolve manager c.username session.sessionIndex c.store
      done { c with
        store := { c.store with table }
        interfaceThread := match call with
          | none => .removing filename
          | some call => .calling call filename }
  | .removing filename =>
      done { c with
        store := { c.store with
          disk := removePath resolve access (userFilepath c.username filename) c.store.disk }
        interfaceThread := .serving }
  | .joining =>
      if c.receiveThread = .ended then
        done { c with
          store := (handleExit c.username session c.store).1
          interfaceThread := .ended }
      else waits
  | .ended => waits

def stepReceive (c : ClientConnection Path) (session : Session) (manager : Bool)
    (access : FileAccess Path) : Ending Fault (ClientConnection Path) :=
  match c.receiveThread with
  | .testing =>
      done { c with receiveThread := if session.active then .reading else .ended }
  | .reading => do
      let (taken, disk, rest) ← takeIncoming resolve access c.username c.store.disk c.receiveStream
      done { c with
        store := { c.store with disk }
        receiveStream := rest
        receiveThread := match taken with
          | none => .ended
          | some (type, filename) => .taken type filename }
  | .taken type filename =>
      let first := if session.active then ListCall.first type filename else none
      done { c with receiveThread := (first.map .calling).getD .testing }
  | .calling call => do
      let (table, call) ← call.next resolve manager c.username session.sessionIndex c.store
      done { c with
        store := { c.store with table }
        receiveThread := (call.map .calling).getD .testing }
  | .ended => waits

def step (c : ClientConnection Path) : ClientAction Path → Ending Fault (ClientConnection Path)
  | .connect request answered accepted deviceAddress =>
      if c.session.isSome then waits
      else do
        let (username, table, session) ←
          handleNewConnection c.store.table request answered accepted deviceAddress
        done { c with
          store := { c.store with table }
          username
          session := session.map Prod.fst
          interfaceThread := .serving
          receiveThread := .testing }
  | .interface manager access after => do
      let session ← await c.session
      c.stepInterface resolve session manager access after
  | .receive manager access => do
      let session ← await c.session
      c.stepReceive resolve session manager access
  | .others store =>
      if (store.table.find c.username).isSome then done { c with store } else waits

/-- A run of the connection. -/
def play : ClientConnection Path → List (ClientAction Path) →
    Ending Fault (ClientConnection Path)
  | c, [] => done c
  | c, action :: actions => do
      let c ← step resolve c action
      play c actions

/-- A listing is only asked for while the folder opens and the answer can be sent. -/
def WelcomeCommand (access : FileAccess Path) (username : Bytes) (packet : Packet) : Prop :=
  packet.type = .list →
    (access.listing (resolve (getUserFolder username))).isSome = true ∧ access.sends = true

/-- What the interface thread finds does not stop the server. -/
def WelcomeInterface (c : ClientConnection Path) (access : FileAccess Path) : Prop :=
  match c.interfaceThread with
  | .serving =>
      NextPacket c.interfaceStream fun packet _ => WelcomeCommand resolve access c.username packet
  | .calling call _ => call.Welcome c.username c.store
  | _ => True

/-- What the receive thread finds does not stop the server. -/
def WelcomeReceive (c : ClientConnection Path) (access : FileAccess Path) : Prop :=
  match c.receiveThread with
  | .reading => NextPacket c.receiveStream (WelcomeIncoming resolve access c.username)
  | .calling call => call.Welcome c.username c.store
  | _ => True

/-- What is found in a step does not stop the server. -/
def Welcome (c : ClientConnection Path) : ClientAction Path → Prop
  | .connect request answered accepted _ => c.session = none →
      answered = true ∧ accepted = true ∧ ∃ received ∈ request,
        (c.store.table.search (readUsername received).name).isSome = true
  | .interface _ access _ => c.session.isSome = true → c.WelcomeInterface resolve access
  | .receive _ access => c.session.isSome = true → c.WelcomeReceive resolve access
  | .others _ => True

/-- Everything that the run comes to is welcome. -/
def AllWelcome : ClientConnection Path → List (ClientAction Path) → Prop
  | _, [] => True
  | c, action :: actions => Welcome resolve c action ∧
      ∀ d, step resolve c action = done d → AllWelcome d actions

/-- The user of a session is in the table. -/
def Known (c : ClientConnection Path) : Prop :=
  c.session.isSome = true → (c.store.table.find c.username).isSome = true

end

section

variable {Path : Type} [DecidableEq Path] {resolve : Bytes → Path} {c d : ClientConnection Path}
  {action : ClientAction Path} {session : Session} {context : UserContext} {manager : Bool}
  {access : FileAccess Path} {after : ByteStream}

omit [DecidableEq Path] in
theorem safe_serve_iff {packet : Packet} :
    Safe (c.serve resolve session access after packet) ↔
      WelcomeCommand resolve access c.username packet := by
  unfold serve WelcomeCommand
  cases htype : packet.type with
  | list =>
      simp only [handleList, safe_bind, safe_deref, safe_done, implies_true, and_true, true_implies]
      refine and_congr_right fun hlisting => ?_
      obtain ⟨files, hfiles⟩ := Option.isSome_iff_exists.mp hlisting
      cases access.sends <;> simp [hfiles]
  | delete =>
      simp only [reduceCtorEq, false_implies, iff_true]
      split <;> simp
  | _ => simp

theorem safe_stepInterface_iff (hfind : c.store.table.find c.username = some context) :
    Safe (c.stepInterface resolve session manager access after) ↔
      c.WelcomeInterface resolve access := by
  unfold stepInterface WelcomeInterface
  cases hthread : c.interfaceThread with
  | serving =>
      refine (safe_readPacket_bind (f := fun packet rest => serve resolve
        { c with interfaceStream := rest, interfaceThread := .serving } session access after
        packet)).trans (NextPacket.congr fun packet rest => ?_)
      exact safe_serve_iff
  | calling call filename =>
      simp only [safe_bind, safe_done, implies_true, and_true]
      exact ListCall.safe_next_iff hfind
  | removing filename => simp
  | joining =>
      simp only [iff_true]
      split <;> simp
  | ended => simp

theorem safe_stepReceive_iff (hfind : c.store.table.find c.username = some context) :
    Safe (c.stepReceive resolve session manager access) ↔ c.WelcomeReceive resolve access := by
  unfold stepReceive WelcomeReceive
  cases c.receiveThread with
  | reading =>
      simp only [safe_bind, safe_done, implies_true, and_true]
      exact safe_takeIncoming_iff
  | calling call =>
      simp only [safe_bind, safe_done, implies_true, and_true]
      exact ListCall.safe_next_iff hfind
  | _ => simp

omit [DecidableEq Path] in
/-- The threads of a session find its user. -/
theorem Known.find_of_session (hknown : c.Known) (hsession : c.session = some session) :
    ∃ context, c.store.table.find c.username = some context :=
  Option.isSome_iff_exists.mp (hknown (Option.isSome_of_eq_some hsession))

/-- One step stops the server if and only if it finds something that is not welcome. -/
theorem safe_step_iff (hknown : c.Known) :
    Safe (c.step resolve action) ↔ c.Welcome resolve action := by
  cases action with
  | connect request answered accepted deviceAddress =>
      cases hsession : c.session with
      | some session => simp [step, Welcome, hsession]
      | none =>
          simp only [step, Welcome, hsession, Option.isSome_none, Bool.false_eq_true, ite_false,
            true_implies, safe_bind, safe_done, implies_true, and_true]
          exact safe_handleNewConnection_iff
  | interface manager access after =>
      cases hsession : c.session with
      | none => simp [step, Welcome, hsession]
      | some session =>
          obtain ⟨context, hfind⟩ := hknown.find_of_session hsession
          simp only [step, Welcome, hsession, Option.isSome_some, true_implies, await_some,
            bind_done]
          exact safe_stepInterface_iff hfind
  | receive manager access =>
      cases hsession : c.session with
      | none => simp [step, Welcome, hsession]
      | some session =>
          obtain ⟨context, hfind⟩ := hknown.find_of_session hsession
          simp only [step, Welcome, hsession, Option.isSome_some, true_implies, await_some,
            bind_done]
          exact safe_stepReceive_iff hfind
  | others store =>
      simp only [step, Welcome]
      split <;> simp

/-! ### The user stays known -/

omit [DecidableEq Path] in
theorem store_of_serve {packet : Packet}
    (h : c.serve resolve session access after packet = done d) :
    d.store = c.store ∧ d.username = c.username := by
  unfold serve at h
  split at h
  · obtain ⟨sent, -, hreturn⟩ := bind_eq_done.mp h
    cases hreturn
    exact ⟨rfl, rfl⟩
  · dsimp only at h
    split at h <;> cases h <;> exact ⟨rfl, rfl⟩
  all_goals
    cases h
    exact ⟨rfl, rfl⟩

theorem find_of_stepInterface (hfind : c.store.table.find c.username = some context)
    (h : c.stepInterface resolve session manager access after = done d) :
    (d.store.table.find d.username).isSome = true := by
  have hknown : (c.store.table.find c.username).isSome = true := Option.isSome_of_eq_some hfind
  unfold stepInterface at h
  cases hthread : c.interfaceThread with
  | serving =>
      rw [hthread] at h
      obtain ⟨⟨found, rest⟩, -, hrest⟩ := bind_eq_done.mp h
      obtain ⟨packet, -, hserve⟩ := bind_eq_done.mp hrest
      obtain ⟨hstore, husername⟩ := store_of_serve hserve
      rw [hstore, husername]
      exact hknown
  | calling call filename =>
      rw [hthread] at h
      obtain ⟨⟨table, next⟩, hnext, hreturn⟩ := bind_eq_done.mp h
      cases hreturn
      exact ListCall.find_of_next hfind hnext
  | removing filename =>
      rw [hthread] at h
      cases h
      exact hknown
  | joining =>
      rw [hthread] at h
      dsimp only at h
      split at h
      · cases h
        exact Option.isSome_of_eq_some (HashTable.replaces_modify hfind _).find
      · cases h
  | ended =>
      rw [hthread] at h
      cases h

theorem find_of_stepReceive (hfind : c.store.table.find c.username = some context)
    (h : c.stepReceive resolve session manager access = done d) :
    (d.store.table.find d.username).isSome = true := by
  have hknown : (c.store.table.find c.username).isSome = true := Option.isSome_of_eq_some hfind
  unfold stepReceive at h
  cases hthread : c.receiveThread with
  | testing =>
      rw [hthread] at h
      cases h
      exact hknown
  | reading =>
      rw [hthread] at h
      obtain ⟨⟨taken, disk, rest⟩, -, hreturn⟩ := bind_eq_done.mp h
      cases hreturn
      exact hknown
  | taken type filename =>
      rw [hthread] at h
      cases h
      exact hknown
  | calling call =>
      rw [hthread] at h
      obtain ⟨⟨table, next⟩, hnext, hreturn⟩ := bind_eq_done.mp h
      cases hreturn
      exact ListCall.find_of_next hfind hnext
  | ended =>
      rw [hthread] at h
      cases h

theorem Known.step (hknown : c.Known) (h : c.step resolve action = done d) : d.Known := by
  cases action with
  | connect request answered accepted deviceAddress =>
      simp only [ClientConnection.step] at h
      split at h
      · cases h
      · obtain ⟨⟨name, table, session⟩, hconnect, h⟩ := bind_eq_done.mp h
        cases h
        exact fun _ => find_of_handleNewConnection hconnect
  | interface manager access after =>
      obtain ⟨session, hsession, h⟩ := bind_eq_done.mp h
      obtain ⟨context, hfind⟩ := hknown.find_of_session (await_eq_done.mp hsession)
      exact fun _ => find_of_stepInterface hfind h
  | receive manager access =>
      obtain ⟨session, hsession, h⟩ := bind_eq_done.mp h
      obtain ⟨context, hfind⟩ := hknown.find_of_session (await_eq_done.mp hsession)
      exact fun _ => find_of_stepReceive hfind h
  | others store =>
      simp only [ClientConnection.step] at h
      split at h
      · rename_i hfind
        cases h
        exact fun _ => hfind
      · cases h

end

/-- A client before its connection, on a server without users. -/
def newClient (receiveStream : ByteStream) : ClientConnection Bytes where
  store := ⟨.create, fun _ => none⟩
  username := []
  session := none
  interfaceStream := ⟨[], .stalled, fun _ => 1⟩
  receiveStream := receiveStream
  interfaceThread := .ended
  receiveThread := .ended

/-- The client after it has sent the name `a`. -/
def connectedClient (receiveStream : ByteStream) : ClientConnection Bytes :=
  { newClient receiveStream with
    store := ⟨(HashTable.create.insert [97] (createContext [97])).modify [97]
      (·.addSession (createSession 0 .zero)), fun _ => none⟩
    username := [97]
    session := some (createSession 0 .zero)
    interfaceThread := .serving
    receiveThread := .testing }

theorem step_newClient (receiveStream : ByteStream) :
    (newClient receiveStream).step id (.connect (some [97]) true true .zero) =
      done (connectedClient receiveStream) := rfl

/-- The receive thread of the client, at its first packet. -/
theorem play_newClient (receiveStream : ByteStream) (actions : List (ClientAction Bytes)) :
    play id (newClient receiveStream) (.connect (some [97]) true true .zero ::
        .receive true .granted :: actions) =
      play id { connectedClient receiveStream with receiveThread := .reading } actions := rfl

theorem known_newClient (receiveStream : ByteStream) : (newClient receiveStream).Known := nofun

end ClientConnection

end SyncServer
