import SyncServer.Files.FanOut

/-! # What a user can reach

The server joins the names that a client sends to the folder of the user, whatever they are. A
name that climbs further than it comes back leads to the files of others.
-/

namespace SyncServer

open CText Ending PathNames Transition

/-! ## Where a name leads -/

section

variable (cwd : List Bytes) (username filename : Bytes)

/-- The name climbs only out of folders that it comes back through, and then goes further. A path
that is too long leads nowhere. -/
def Confined : Prop :=
  (userFilepath username filename).isSome = true →
    StrictlyInside
      ((userFolder cwd username).drop
        ((userFolder cwd username).length - (relative (components filename)).1))
      (relative (components filename)).2

instance : Decidable (Confined cwd username filename) :=
  inferInstanceAs (Decidable (_ → _))

/-- The place of the file that the server takes the name for. -/
def reach : Option (List Bytes) := (userFilepath username filename).map (resolve cwd)

end

theorem reach_eq (cwd : List Bytes) (username filename : Bytes) :
    reach cwd username filename = (userFilepath username filename).map fun _ =>
      (components filename).foldl enter (userFolder cwd username) := by
  unfold reach userFilepath createFilepath
  split
  · rfl
  · have hbase : getUserFolder username ≠ [] := by simp [getUserFolder]
    exact congrArg some (resolve_append hbase cwd filename)

/-- A name is confined if and only if it leads into the folder of the user. -/
theorem confined_iff {cwd : List Bytes} {username filename : Bytes} :
    Confined cwd username filename ↔
      ∀ place ∈ reach cwd username filename, StrictlyInside (userFolder cwd username) place := by
  rw [reach_eq, Confined]
  cases userFilepath username filename with
  | none => simp
  | some filepath => simp [strictlyInside_foldl_iff]

/-- Neither of the folders lies in the other one. -/
def Apart (folder other : List Bytes) : Prop := ¬folder <+: other ∧ ¬other <+: folder

instance (folder other : List Bytes) : Decidable (Apart folder other) :=
  inferInstanceAs (Decidable (_ ∧ _))

theorem Apart.not_strictlyInside {folder other place : List Bytes} (h : Apart folder other)
    (hplace : StrictlyInside folder place) : ¬StrictlyInside other place := fun hother =>
  (List.prefix_or_prefix_of_prefix hplace.1 hother.1).elim h.1 h.2

/-- The folders of two users whose names are single components are apart. -/
theorem apart_of_components {username other : Bytes} (hname : IsComponent username)
    (hother : IsComponent other) (hne : username ≠ other) (cwd : List Bytes) :
    Apart (userFolder cwd username) (userFolder cwd other) := by
  have hfolder : ∀ {name : Bytes}, IsComponent name → userFolder cwd name =
      resolve cwd [117, 115, 101, 114, 32, 102, 105, 108, 101, 115] ++ [name] := fun h =>
    resolve_append_component (by decide) h cwd
  rw [hfolder hname, hfolder hother]
  refine ⟨fun hinside => hne ?_, fun hinside => hne ?_⟩
  · exact append_component_inj.mp (hinside.eq_of_length (by simp))
  · exact (append_component_inj.mp (hinside.eq_of_length (by simp))).symm

/-! ## What the handlers do to other places -/

/-- The name in a packet that the receive thread uses. That of an announcement may go on behind the
payload. -/
def Packet.filename (packet : Packet) (heap : Bytes) : Option Bytes :=
  match packet.type with
  | .send => (packet.upload heap).map FileAnnouncement.filename
  | .delete => some (cString packet.payload)
  | _ => none

/-- The name in a command. -/
def Packet.commandFilename (packet : Packet) : Option Bytes :=
  match packet.type with
  | .download | .delete => some (cString packet.payload)
  | _ => none

/-- Two disks have the same at some places. -/
def AgreeOn {Path : Type} (places : Path → Prop) (disk disk' : Disk Path) : Prop :=
  ∀ path, places path → disk path = disk' path

section

variable {σ Path : Type} {readPacket : σ → Ending Fault (Option Packet × σ)}
  {resolve : Bytes → Path} {access : FileAccess Path} {places : Path → Prop}
  {disk disk' : Disk Path}

theorem AgreeOn.fileAt (h : AgreeOn places disk disk') {filepath : Option Bytes}
    (hplace : ∀ path ∈ filepath.map resolve, places path) :
    fileAt resolve filepath disk = fileAt resolve filepath disk' := by
  unfold SyncServer.fileAt
  cases hpath : filepath.map resolve with
  | none => rfl
  | some path => exact h path (hplace path hpath)

theorem AgreeOn.accessible (h : AgreeOn places disk disk') {filepath : Option Bytes}
    (hplace : ∀ path ∈ filepath.map resolve, places path) :
    accessible resolve access filepath disk = accessible resolve access filepath disk' := by
  unfold SyncServer.accessible
  cases hpath : filepath.map resolve with
  | none => rfl
  | some path => rw [Option.any_some, Option.any_some, h path (hplace path hpath)]

variable [DecidableEq Path]

theorem AgreeOn.update (h : AgreeOn places disk disk') (path : Path) (content : Option Bytes) :
    AgreeOn places (Function.update disk path content)
      (Function.update disk' path content) := by
  intro other hother
  by_cases heq : other = path
  · rw [heq, Function.update_self, Function.update_self]
  · rw [Function.update_of_ne heq, Function.update_of_ne heq, h other hother]

theorem AgreeOn.removePath (h : AgreeOn places disk disk') (filepath : Option Bytes) :
    AgreeOn places (removePath resolve access filepath disk)
      (removePath resolve access filepath disk') := by
  intro path hpath
  rw [removePath_apply, removePath_apply, h path hpath]

theorem AgreeOn.writePacketsToFile (h : AgreeOn places disk disk') (filepath : Option Bytes)
    (n : ℕ) (s : σ) :
    Alike (fun r r' => AgreeOn places r.1 r'.1 ∧ r.2 = r'.2)
      (writePacketsToFile readPacket resolve access filepath n disk s)
      (writePacketsToFile readPacket resolve access filepath n disk' s) := by
  unfold SyncServer.writePacketsToFile
  split
  · exact .done ⟨h, rfl⟩
  · refine alike_bind_self fun r _ => ?_
    exact .done ⟨h.update _ _, rfl⟩

/-- `handle_send_delete` does not look at the disk. -/
structure SameTransfer (places : Path → Prop) (packet : Packet) (heap : Bytes)
    (r r' : Option Bytes × Disk Path × σ) : Prop where
  name : r.1 = r'.1
  disk : AgreeOn places r.2.1 r'.2.1
  rest : r.2.2 = r'.2.2
  carried : ∀ filename ∈ r.1, packet.filename heap = some filename

theorem AgreeOn.receiveFile (h : AgreeOn places disk disk') (path : Bytes) {packet : Packet}
    (htype : packet.type = .send) (hne : packet.payload ≠ []) (s : σ) :
    Alike (fun r r' => r.1 = r'.1 ∧ AgreeOn places r.2.1 r'.2.1 ∧ r.2.2 = r'.2.2 ∧
        packet.filename access.heap = some r.1)
      (receiveFile readPacket resolve access packet path disk s)
      (receiveFile readPacket resolve access packet path disk' s) := by
  unfold SyncServer.receiveFile
  rw [Packet.filename, htype, Packet.upload, if_neg hne]
  cases packet.announcement access.heap with
  | none => exact .faults _
  | some announcement =>
      exact (h.writePacketsToFile (createFilepath path announcement.filename)
        announcement.numPackets s).bind fun r r' hrest => .done ⟨rfl, hrest.1, hrest.2, rfl⟩

theorem AgreeOn.handleSendDelete (h : AgreeOn places disk disk') (path : Bytes)
    (packet : Packet) (s : σ) :
    Alike (SameTransfer places packet access.heap)
      (handleSendDelete readPacket resolve access path packet disk s)
      (handleSendDelete readPacket resolve access path packet disk' s) := by
  unfold SyncServer.handleSendDelete
  split
  · rename_i htype
    split
    · exact .done ⟨rfl, h, rfl, nofun⟩
    · rename_i hne
      refine (h.receiveFile path htype hne s).bind fun r r' ⟨hname, hdisk, hrest, hcarried⟩ => ?_
      refine .done ⟨congrArg some hname, hdisk, hrest, ?_⟩
      rintro _ ⟨⟩
      exact hcarried
  · rename_i htype
    refine .done ⟨rfl, h.removePath _, rfl, fun filename hname => ?_⟩
    rw [Packet.filename, htype]
    exact hname
  · exact .done ⟨rfl, h, rfl, nofun⟩

/-- A handler leaves the same but for the disk. -/
structure SameHandled (places : Path → Prop) (h h' : Handled Path σ) : Prop where
  goesOn : h.goesOn = h'.goesOn
  table : h.store.table = h'.store.table
  disk : AgreeOn places h.store.disk h'.store.disk
  event : h.event = h'.event
  sent : h.sent = h'.sent
  rest : h.rest = h'.rest

variable {manager : Bool} {username : Bytes} {session : Session} {store store' : Store Path}

theorem sameHandled_handleIncomingFile (htable : store.table = store'.table)
    (hdisk : AgreeOn places store.disk store'.disk) {s : σ}
    (hplaces : ∀ packet rest, readPacket s = done (some packet, rest) →
      ∀ filename ∈ packet.filename access.heap,
        ∀ path ∈ (userFilepath username filename).map resolve, places path) :
    Alike (SameHandled places)
      (handleIncomingFile readPacket resolve access manager username session store s)
      (handleIncomingFile readPacket resolve access manager username session store' s) := by
  unfold handleIncomingFile
  refine alike_bind_self fun r hread => ?_
  obtain ⟨found, rest⟩ := r
  cases found with
  | none => exact .faults _
  | some packet =>
      refine (hdisk.handleSendDelete (getUserFolder username) packet rest).bind ?_
      rintro ⟨filename, disk₁, rest₁⟩ ⟨filename', disk₂, rest₂⟩ ⟨hname, hdisk', hrest, hcarried⟩
      dsimp only at hname hdisk' hrest hcarried
      subst hname hrest
      dsimp only
      split
      · exact .done ⟨rfl, htable, hdisk', rfl, rfl, rfl⟩
      · cases filename with
        | none => exact .faults _
        | some filename =>
            have hcontent := hdisk'.fileAt (hplaces packet rest hread filename (hcarried _ rfl))
            simp only [deref_some, bind_done, htable, hcontent]
            refine alike_bind_self fun table _ => ?_
            exact .done ⟨rfl, rfl, hdisk', rfl, rfl, rfl⟩

theorem sameHandled_handleDelete {filename : Bytes} (htable : store.table = store'.table)
    (hdisk : AgreeOn places store.disk store'.disk)
    (hplaces : ∀ path ∈ (userFilepath username filename).map resolve, places path) :
    Alike (fun r r' => r.1.table = r'.1.table ∧ AgreeOn places r.1.disk r'.1.disk ∧ r.2 = r'.2)
      (handleDelete resolve access manager username session filename store)
      (handleDelete resolve access manager username session filename store') := by
  simp only [handleDelete, ← hdisk.accessible hplaces, ← hdisk.fileAt hplaces, ← htable]
  split
  · refine alike_bind_self fun table _ => ?_
    exact .done ⟨rfl, hdisk.removePath _, rfl⟩
  · exact .done ⟨htable, hdisk, rfl⟩

theorem sameHandled_interface (htable : store.table = store'.table)
    (hdisk : AgreeOn places store.disk store'.disk) {s : σ}
    (hplaces : ∀ packet rest, readPacket s = done (some packet, rest) →
      ∀ filename ∈ packet.commandFilename,
        ∀ path ∈ (userFilepath username filename).map resolve, places path) :
    Alike (SameHandled places)
      (interface readPacket resolve access manager username session store s)
      (interface readPacket resolve access manager username session store' s) := by
  unfold interface
  refine alike_bind_self fun r hread => ?_
  obtain ⟨found, rest⟩ := r
  cases found with
  | none => exact .faults _
  | some packet =>
      have hplaces := hplaces packet rest hread
      rw [Packet.commandFilename] at hplaces
      simp only [deref_some, bind_done]
      cases htype : packet.type with
      | list =>
          refine alike_bind_self fun sent _ => ?_
          exact .done ⟨rfl, htable, hdisk, rfl, rfl, rfl⟩
      | download =>
          rw [htype] at hplaces
          have hplaces := hplaces _ rfl
          refine .done ⟨rfl, htable, hdisk, rfl, ?_, rfl⟩
          simp only [handleDownload, openedForReading, hdisk.accessible hplaces,
            hdisk.fileAt hplaces]
      | delete =>
          rw [htype] at hplaces
          refine (sameHandled_handleDelete htable hdisk (hplaces _ rfl)).bind ?_
          rintro ⟨store₁, event⟩ ⟨store₂, event'⟩ ⟨htable', hdisk', hevent⟩
          exact .done ⟨rfl, htable', hdisk', hevent, rfl, rfl⟩
      | exit | connectionClosed =>
          exact .done ⟨rfl, by simp only [handleExit, htable], hdisk, rfl, rfl, rfl⟩
      | data | send | replicaMsg | error | reconnect | other =>
          exact .done ⟨rfl, htable, hdisk, rfl, rfl, rfl⟩

/-! ### The only place that changes -/

theorem removePath_frame {filepath : Option Bytes} {place : Path}
    (hchanged : removePath resolve access filepath disk place ≠ disk place) :
    filepath.map resolve = some place := by
  by_contra hplace
  exact hchanged (by rw [removePath_apply, if_neg fun h => hplace h.1])

theorem handleSendDelete_frame {path : Bytes} {packet : Packet} {s : σ} {name : Option Bytes}
    {disk₁ : Disk Path} {rest : σ}
    (h : handleSendDelete readPacket resolve access path packet disk s = done (name, disk₁, rest))
    {place : Path} (hchanged : disk₁ place ≠ disk place) : ∃ filename,
      packet.filename access.heap = some filename ∧
        (createFilepath path filename).map resolve = some place := by
  unfold handleSendDelete at h
  split at h
  · rename_i htype
    split at h
    · cases h
      exact absurd rfl hchanged
    · rename_i hne
      obtain ⟨⟨filename, disk₂, rest₂⟩, hreceive, hreturn⟩ := bind_eq_done.mp h
      cases hreturn
      obtain ⟨announcement, hannounced, hwrite⟩ := bind_eq_done.mp hreceive
      obtain ⟨⟨disk₃, rest₃⟩, hwrite, hreturn⟩ := bind_eq_done.mp hwrite
      cases hreturn
      refine ⟨announcement.filename, ?_, ?_⟩
      · rw [Packet.filename, htype, Packet.upload, if_neg hne, deref_eq_done.mp hannounced]
        rfl
      · unfold writePacketsToFile at hwrite
        split at hwrite
        · cases hwrite
          exact absurd rfl hchanged
        · rename_i path hopened
          obtain ⟨⟨content, rest₄⟩, -, hreturn⟩ := bind_eq_done.mp hwrite
          cases hreturn
          by_cases heq : place = path
          · rw [heq]
            exact (Option.filter_eq_some_iff.mp hopened).1
          · exact absurd (Function.update_of_ne heq ..) hchanged
  · rename_i htype
    cases h
    exact ⟨cString packet.payload, by rw [Packet.filename, htype], removePath_frame hchanged⟩
  · cases h
    exact absurd rfl hchanged

theorem handleIncomingFile_frame {s : σ} {handled : Handled Path σ}
    (h : handleIncomingFile readPacket resolve access manager username session store s =
      done handled) {place : Path} (hchanged : handled.store.disk place ≠ store.disk place) :
    ∃ packet rest filename, readPacket s = done (some packet, rest) ∧
      packet.filename access.heap = some filename ∧
      (userFilepath username filename).map resolve = some place := by
  obtain ⟨⟨found, rest⟩, hread, hrest⟩ := bind_eq_done.mp h
  obtain ⟨packet, hpacket, htail⟩ := bind_eq_done.mp hrest
  obtain rfl := deref_eq_done.mp hpacket
  obtain ⟨⟨name, disk₁, rest₁⟩, htransfer, hdone⟩ := bind_eq_done.mp htail
  have hframe : handled.store.disk = disk₁ := by
    dsimp only at hdone
    split at hdone
    · cases hdone
      rfl
    · obtain ⟨filename, -, hdone⟩ := bind_eq_done.mp hdone
      obtain ⟨table, -, hdone⟩ := bind_eq_done.mp hdone
      cases hdone
      rfl
  rw [hframe] at hchanged
  obtain ⟨filename, hcarried, hplace⟩ := handleSendDelete_frame htransfer hchanged
  exact ⟨packet, rest, filename, hread, hcarried, hplace⟩

theorem handleDelete_frame {filename : Bytes} {store₁ : Store Path} {event : Option ReplicaEvent}
    (h : handleDelete resolve access manager username session filename store =
      done (store₁, event)) {place : Path} (hchanged : store₁.disk place ≠ store.disk place) :
    accessible resolve access (userFilepath username filename) store.disk = true ∧
      (userFilepath username filename).map resolve = some place := by
  simp only [handleDelete] at h
  split at h
  · rename_i haccess
    obtain ⟨table, -, hdone⟩ := bind_eq_done.mp h
    cases hdone
    exact ⟨haccess, removePath_frame hchanged⟩
  · cases h
    exact absurd rfl hchanged

theorem interface_frame {s : σ} {handled : Handled Path σ}
    (h : interface readPacket resolve access manager username session store s = done handled)
    {place : Path} (hchanged : handled.store.disk place ≠ store.disk place) :
    ∃ packet rest filename, readPacket s = done (some packet, rest) ∧
      packet.commandFilename = some filename ∧
      accessible resolve access (userFilepath username filename) store.disk = true ∧
      (userFilepath username filename).map resolve = some place := by
  obtain ⟨⟨found, rest⟩, hread, hrest⟩ := bind_eq_done.mp h
  obtain ⟨packet, hpacket, hdone⟩ := bind_eq_done.mp hrest
  obtain rfl := deref_eq_done.mp hpacket
  cases htype : packet.type with
  | list =>
      simp only [htype] at hdone
      obtain ⟨sent, -, hdone⟩ := bind_eq_done.mp hdone
      cases hdone
      exact absurd rfl hchanged
  | delete =>
      simp only [htype] at hdone
      obtain ⟨⟨store₁, event⟩, hdelete, hdone⟩ := bind_eq_done.mp hdone
      cases hdone
      obtain ⟨haccess, hplace⟩ := handleDelete_frame hdelete hchanged
      refine ⟨packet, rest, _, hread, ?_, haccess, hplace⟩
      rw [Packet.commandFilename, htype]
  | download | exit | connectionClosed | data | send | replicaMsg | error | reconnect | other =>
      simp only [htype] at hdone
      cases hdone
      exact absurd rfl hchanged

end

/-! ## The packets of a user -/

/-- The store, and what was sent to the clients of the user. -/
structure Served where
  store : Store (List Bytes)
  sent : List Packet

inductive UserAction where
  /-- `handle_incoming_file`. -/
  | receive (slot : ℕ) (access : FileAccess (List Bytes)) (socket : Socket)
  /-- A round of `interface`. -/
  | command (slot : ℕ) (access : FileAccess (List Bytes)) (socket : Socket)
  /-- A round of `send_f`. -/
  | deliver (slot : ℕ)

/-- The packet that is read first. -/
def Socket.first (s : Socket) : Option Packet := s.readPacket.returned.bind Prod.fst

theorem Socket.first_of_read {s rest : Socket} {packet : Packet}
    (h : s.readPacket = done (some packet, rest)) : s.first = some packet := by
  rw [first, h]
  rfl

namespace Served

section

variable (cwd : List Bytes) (manager : Bool) (username : Bytes)

/-- What `send_f` sends for an entry. A file that does not open is not sent. -/
def deliveries (disk : Disk (List Bytes)) (entry : FileEntry) : List Packet :=
  match entry.type with
  | .send =>
      match fileAt (resolve cwd) (userFilepath username entry.filename) disk with
      | none => []
      | some content => sendFile entry.filename content
  | .delete => [createTextPacket .delete entry.filename]

def step (s : Served) : UserAction → Option Served
  | .receive slot access socket =>
      (s.store.session username slot).bind fun session =>
        (handleIncomingFile Socket.readPacket (resolve cwd) access manager username session s.store
          socket).returned.map fun handled => ⟨handled.store, s.sent ++ handled.sent⟩
  | .command slot access socket =>
      (s.store.session username slot).bind fun session =>
        (interface Socket.readPacket (resolve cwd) access manager username session s.store
          socket).returned.map fun handled => ⟨handled.store, s.sent ++ handled.sent⟩
  | .deliver slot =>
      (s.store.session username slot).bind fun session =>
        (getNextFileToSync session).map fun (entry, session) =>
          ⟨{ s.store with table := s.store.table.modify username (·.addSession session) },
            s.sent ++ deliveries cwd username s.store.disk entry⟩

/-- The name that the server is given. -/
def carried (s : Served) : UserAction → Option Bytes
  | .receive _ access socket => socket.first.bind (·.filename access.heap)
  | .command _ _ socket => socket.first.bind Packet.commandFilename
  | .deliver slot =>
      ((s.store.session username slot).bind getNextFileToSync).bind fun (entry, _) =>
        if entry.type = .send then some entry.filename else none

/-- The name whose file the server opens to write, removes, or sends: every one but those of
commands for which `access` finds nothing. -/
def used (s : Served) (action : UserAction) : Option Bytes :=
  (s.carried username action).filter fun filename =>
    match action with
    | .command _ access _ =>
        accessible (resolve cwd) access (userFilepath username filename) s.store.disk
    | _ => true

def touched (s : Served) (action : UserAction) : Option (List Bytes) :=
  (s.used cwd username action).bind (reach cwd username)

end

variable {cwd : List Bytes} {manager : Bool} {username : Bytes}

/-- A step changes the file at the place that it touches, and no other. -/
theorem step_frame {s t : Served} {action : UserAction}
    (h : step cwd manager username s action = some t) {place : List Bytes}
    (hchanged : t.store.disk place ≠ s.store.disk place) :
    s.touched cwd username action = some place := by
  cases action with
  | receive slot access socket =>
      obtain ⟨session, -, h⟩ := Option.bind_eq_some_iff.mp h
      obtain ⟨handled, hhandled, rfl⟩ := Option.map_eq_some_iff.mp h
      obtain ⟨packet, rest, filename, hread, hcarried, hplace⟩ :=
        handleIncomingFile_frame (returned_eq_some.mp hhandled) hchanged
      simp only [touched, used, carried, Socket.first_of_read hread, Option.bind_some, hcarried,
        Option.filter_some, ite_true]
      exact hplace
  | command slot access socket =>
      obtain ⟨session, -, h⟩ := Option.bind_eq_some_iff.mp h
      obtain ⟨handled, hhandled, rfl⟩ := Option.map_eq_some_iff.mp h
      obtain ⟨packet, rest, filename, hread, hcarried, haccess, hplace⟩ :=
        interface_frame (returned_eq_some.mp hhandled) hchanged
      simp only [touched, used, carried, Socket.first_of_read hread, Option.bind_some, hcarried,
        Option.filter_some, haccess, ite_true]
      exact hplace
  | deliver slot =>
      obtain ⟨session, -, h⟩ := Option.bind_eq_some_iff.mp h
      obtain ⟨⟨entry, session'⟩, -, rfl⟩ := Option.map_eq_some_iff.mp h
      exact absurd rfl hchanged

/-- Nothing but the files of a folder is different. -/
structure SameView (folder : List Bytes) (s s' : Served) : Prop where
  table : s.store.table = s'.store.table
  sent : s.sent = s'.sent
  disk : AgreeOn (fun place => ¬StrictlyInside folder place) s.store.disk s'.store.disk

/-- A step with a confined name does not depend on a folder apart. -/
theorem SameView.step {folder : List Bytes} (hapart : Apart (userFolder cwd username) folder)
    {s s' t : Served} (h : SameView folder s s') {action : UserAction}
    (hok : ∀ filename ∈ s.carried username action, Confined cwd username filename)
    (hstep : Served.step cwd manager username s action = some t) :
    ∃ t', Served.step cwd manager username s' action = some t' ∧ SameView folder t t' := by
  have hplaces : ∀ filename ∈ s.carried username action, ∀ place ∈ reach cwd username filename,
      ¬StrictlyInside folder place := fun filename hname place hplace =>
    hapart.not_strictlyInside (confined_iff.mp (hok filename hname) place hplace)
  have hsession : ∀ slot, s'.store.session username slot = s.store.session username slot :=
    fun slot => by rw [Store.session, Store.session, h.table]
  cases action with
  | receive slot access socket =>
      obtain ⟨session, hfound, hstep⟩ := Option.bind_eq_some_iff.mp hstep
      obtain ⟨handled, hhandled, rfl⟩ := Option.map_eq_some_iff.mp hstep
      obtain ⟨handled', hhandled', hsame⟩ := (sameHandled_handleIncomingFile h.table h.disk
        fun packet rest hread filename hname => hplaces filename (by
          rw [carried, Socket.first_of_read hread]
          exact hname)).returned hhandled
      refine ⟨_, by rw [Served.step, hsession, hfound, Option.bind_some, hhandled']; rfl, ?_⟩
      exact ⟨hsame.table, by rw [h.sent, hsame.sent], hsame.disk⟩
  | command slot access socket =>
      obtain ⟨session, hfound, hstep⟩ := Option.bind_eq_some_iff.mp hstep
      obtain ⟨handled, hhandled, rfl⟩ := Option.map_eq_some_iff.mp hstep
      obtain ⟨handled', hhandled', hsame⟩ := (sameHandled_interface h.table h.disk
        fun packet rest hread filename hname => hplaces filename (by
          rw [carried, Socket.first_of_read hread]
          exact hname)).returned hhandled
      refine ⟨_, by rw [Served.step, hsession, hfound, Option.bind_some, hhandled']; rfl, ?_⟩
      exact ⟨hsame.table, by rw [h.sent, hsame.sent], hsame.disk⟩
  | deliver slot =>
      obtain ⟨session, hfound, hstep⟩ := Option.bind_eq_some_iff.mp hstep
      obtain ⟨⟨entry, session'⟩, hnext, rfl⟩ := Option.map_eq_some_iff.mp hstep
      refine ⟨_, by rw [Served.step, hsession, hfound, Option.bind_some, hnext]; rfl, ?_⟩
      refine ⟨by rw [h.table], ?_, h.disk⟩
      have hdeliveries : deliveries cwd username s.store.disk entry =
          deliveries cwd username s'.store.disk entry := by
        unfold deliveries
        split
        · rename_i htype
          rw [h.disk.fileAt (hplaces entry.filename (by simp [carried, hfound, hnext, htype]))]
        · rfl
      exact congrArg₂ (· ++ ·) h.sent hdeliveries

/-- The places that the server touches for a user lie in the user's folder if and only if the
names that it uses are confined. With confined names, the files in a folder apart stay as they
are, and what the user's clients are sent does not depend on them. -/
theorem isolated_iff {s : Served} {actions : List UserAction} :
    (Tried (step cwd manager username)
        (fun s action => ∀ place ∈ s.touched cwd username action,
          StrictlyInside (userFolder cwd username) place) s actions ↔
      Tried (step cwd manager username)
        (fun s action => ∀ filename ∈ s.used cwd username action,
          Confined cwd username filename) s actions) ∧
    ∀ other, Apart (userFolder cwd username) (userFolder cwd other) →
      Tried (step cwd manager username)
        (fun s action => ∀ filename ∈ s.carried username action,
          Confined cwd username filename) s actions →
      ∀ t, run (step cwd manager username) s actions = some t →
        (∀ place, StrictlyInside (userFolder cwd other) place →
          t.store.disk place = s.store.disk place) ∧
        ∀ s', SameView (userFolder cwd other) s s' →
          ∃ t', run (step cwd manager username) s' actions = some t' ∧ t'.sent = t.sent := by
  have hiff : ∀ (s : Served) (action : UserAction),
      (∀ place ∈ s.touched cwd username action, StrictlyInside (userFolder cwd username) place) ↔
        ∀ filename ∈ s.used cwd username action, Confined cwd username filename := by
    intro s action
    simp only [touched, Option.mem_def, Option.bind_eq_some_iff, confined_iff]
    exact ⟨fun h filename hname place hplace => h place ⟨filename, hname, hplace⟩,
      fun h place ⟨filename, hname, hplace⟩ => h filename hname place hplace⟩
  refine ⟨tried_congr hiff, fun other hapart hok t hrun => ⟨fun place hplace => ?_, ?_⟩⟩
  · refine Along.invariant (I := fun t => t.store.disk place = s.store.disk place)
      (fun u action u' hu hname hstep => ?_) rfl hok.along hrun
    by_contra hne
    have htouched := step_frame hstep fun heq => hne (heq.trans hu)
    obtain ⟨filename, hused, hreach⟩ := Option.bind_eq_some_iff.mp htouched
    have hconfined := hname filename (Option.filter_eq_some_iff.mp hused).1
    exact hapart.not_strictlyInside (confined_iff.mp hconfined place hreach) hplace
  · intro s' hview
    obtain ⟨t', hrun', hview'⟩ := hok.simulate
      (fun _ _ _ _ hview hname hstep => hview.step hapart hname hstep) hview hrun
    exact ⟨t', hrun', hview'.sent.symm⟩

/-- One user is connected; another one has a file. -/
def neighbours : Served where
  store :=
    { table := HashTable.create.insert [117]
        ((createContext [117]).addSession (createSession 0 .zero))
      disk := Function.update (fun _ => none) (userFolder [] [118] ++ [[102]]) (some [115]) }
  sent := []

/-- An upload and a download of a file of one's own. -/
theorem isolated_of_own_file : ∃ t ∈ run (step [] true [117]) neighbours
      [.receive 0 .granted (uploadSocket [102] [[104]]),
        .command 0 .granted ⟨[createTextPacket .download [102]], .stalled⟩],
    t.sent = sendFile [102] [104] ∧
      t.store.disk (userFolder [] [118] ++ [[102]]) = some [115] := by
  obtain ⟨t, ht, hsent⟩ := show ∃ t ∈ run (step [] true [117]) neighbours
      [.receive 0 .granted (uploadSocket [102] [[104]]),
        .command 0 .granted ⟨[createTextPacket .download [102]], .stalled⟩],
    t.sent = sendFile [102] [104] by decide +kernel
  have hkept := (isolated_iff.2 [118]
    (apart_of_components (by decide) (by decide) (by decide) []) (by decide +kernel) t ht).1
  exact ⟨t, ht, hsent, (hkept _ (strictlyInside_append _ _)).trans (by decide +kernel)⟩

/-- With `../v/f` a user overwrites and reads the file of another one. -/
theorem climbing_not_isolated :
    ¬Tried (step [] true [117]) (fun s action => ∀ place ∈ s.touched [] [117] action,
        StrictlyInside (userFolder [] [117]) place) neighbours
      [.receive 0 .granted (uploadSocket [46, 46, 47, 118, 47, 102] [[104]])] ∧
    (∃ t ∈ run (step [] true [117]) neighbours
        [.receive 0 .granted (uploadSocket [46, 46, 47, 118, 47, 102] [[104]])],
      t.store.disk (userFolder [] [118] ++ [[102]]) = some [104]) ∧
    ∃ t ∈ run (step [] true [117]) neighbours [.command 0 .granted
        ⟨[createTextPacket .download [46, 46, 47, 118, 47, 102]], .stalled⟩],
      t.sent = sendFile [46, 46, 47, 118, 47, 102] [115] := by
  decide +kernel

/-- The end of such a name may be in the two bytes behind the payload. -/
example : ∃ t ∈ run (step [] true [117]) neighbours [.receive 0 .granted
      ⟨[⟨.send, littleEndian 8 0 ++ (littleEndian 8 6 ++ [46, 46, 47, 118]), (47, 102), by decide⟩],
        .stalled⟩],
    t.store.disk (userFolder [] [118] ++ [[102]]) = some [] := by
  decide +kernel

end Served

end SyncServer
