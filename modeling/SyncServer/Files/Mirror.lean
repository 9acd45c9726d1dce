import SyncServer.Files.Incoming
import SyncServer.Library.PathNames

/-! # The list of a user mirrors its folder

File names that are single components name the files of the user's folder. An upload or a
deletion then changes one file and one entry of the list.
-/

namespace SyncServer

open CText Ending PathNames

/-- The place of the folder of a user. -/
def userFolder (cwd : List Bytes) (username : Bytes) : List Bytes :=
  resolve cwd (getUserFolder username)

/-- A name of one component, with which the path does not become too long. -/
def Storable (username filename : Bytes) : Prop :=
  IsComponent filename ∧ 0 ∉ filename ∧ (userFilepath username filename).isSome = true

instance (username filename : Bytes) : Decidable (Storable username filename) :=
  inferInstanceAs (Decidable (_ ∧ _))

/-- The operations on the files of a folder succeed. -/
def FileAccess.Grants (access : FileAccess (List Bytes)) (folder : List Bytes) : Prop :=
  ∀ name, IsComponent name → access.opens (folder ++ [name]) = true ∧
    access.removes (folder ++ [name]) = true ∧ access.isFolder (folder ++ [name]) = false

theorem FileAccess.granted_grants (folder : List Bytes) : FileAccess.granted.Grants folder :=
  fun _ _ => ⟨rfl, rfl, rfl⟩

section

variable {cwd : List Bytes} {username filename : Bytes} {access : FileAccess (List Bytes)}

theorem Storable.resolve_userFilepath (h : Storable username filename) (cwd : List Bytes) :
    (userFilepath username filename).map (resolve cwd) =
      some (userFolder cwd username ++ [filename]) := by
  obtain ⟨hcomponent, -, hsome⟩ := h
  obtain ⟨filepath, hpath⟩ := Option.isSome_iff_exists.mp hsome
  rw [hpath]
  unfold userFilepath createFilepath at hpath
  split at hpath
  · cases hpath
  · cases hpath
    have hbase : getUserFolder username ≠ [] := by simp [getUserFolder]
    exact congrArg some (resolve_append_component hbase hcomponent cwd)

theorem Storable.length_lt (h : Storable username filename) : filename.length + 16 < 2 ^ 16 := by
  obtain ⟨filepath, hpath⟩ := Option.isSome_iff_exists.mp h.2.2
  unfold userFilepath createFilepath pathMax at hpath
  split at hpath
  · cases hpath
  · omega

theorem Storable.fileAt (h : Storable username filename) (disk : Disk (List Bytes)) :
    fileAt (resolve cwd) (userFilepath username filename) disk =
      disk (userFolder cwd username ++ [filename]) := by
  rw [SyncServer.fileAt, h.resolve_userFilepath]
  rfl

theorem Storable.opened (h : Storable username filename)
    (hgrants : access.Grants (userFolder cwd username)) :
    opened (resolve cwd) access (userFilepath username filename) =
      some (userFolder cwd username ++ [filename]) := by
  rw [SyncServer.opened, h.resolve_userFilepath, Option.filter_some,
    if_pos (hgrants filename h.1).1]

theorem Storable.removePath (h : Storable username filename)
    (hgrants : access.Grants (userFolder cwd username)) (disk : Disk (List Bytes)) :
    removePath (resolve cwd) access (userFilepath username filename) disk =
      Function.update disk (userFolder cwd username ++ [filename]) none := by
  rw [SyncServer.removePath, h.resolve_userFilepath, Option.filter_some,
    if_pos (hgrants filename h.1).2.1]

theorem Storable.accessible (h : Storable username filename)
    (hgrants : access.Grants (userFolder cwd username)) (disk : Disk (List Bytes)) :
    accessible (resolve cwd) access (userFilepath username filename) disk =
      (disk (userFolder cwd username ++ [filename])).isSome := by
  rw [SyncServer.accessible, h.resolve_userFilepath, Option.any_some,
    (hgrants filename h.1).2.2, Bool.or_false]

end

/-! ## The mirror -/

theorem strictlyInside_append (folder : List Bytes) (name : Bytes) :
    StrictlyInside folder (folder ++ [name]) := ⟨List.prefix_append .., by simp⟩

/-- The list has exactly one entry for each file of the folder, with its CRC. -/
structure Mirrors (folder : List Bytes) (list : List FileNode) (disk : Disk (List Bytes)) :
    Prop where
  nodup : (keys list).Nodup
  component : ∀ name ∈ keys list, IsComponent name
  listed : ∀ name, IsComponent name →
    listed list name = (disk (folder ++ [name])).map fun content => crc32 (some content)
  stored : ∀ place, StrictlyInside folder place → (disk place).isSome = true →
    ∃ name, IsComponent name ∧ place = folder ++ [name]

theorem mirrors_nil {folder : List Bytes} {disk : Disk (List Bytes)}
    (h : ∀ place, StrictlyInside folder place → disk place = none) : Mirrors folder [] disk where
  nodup := List.nodup_nil
  component := nofun
  listed name _ := by
    rw [h (folder ++ [name]) (strictlyInside_append folder name)]
    rfl
  stored place hplace hsome := by
    rw [h place hplace] at hsome
    cases hsome

theorem append_component_inj {folder : List Bytes} {name other : Bytes} :
    folder ++ [name] = folder ++ [other] ↔ name = other := by simp

theorem mem_keys {list : List FileNode} {name : Bytes} :
    name ∈ keys list ↔ (listed list name).isSome = true := by
  rw [Option.isSome_iff_ne_none, ne_eq, listed_eq_none, not_not]

section

variable {folder : List Bytes} {list : List FileNode} {disk : Disk (List Bytes)}

/-- An entry that follows what is done to its file, among entries that stay as they are. -/
theorem Mirrors.listed_update (h : Mirrors folder list disk) (filename : Bytes)
    (content : Option Bytes) {name : Bytes} (hcomponent : IsComponent name) :
    (if filename = name then content.map fun bytes => crc32 (some bytes)
      else SyncServer.listed list name) =
      (Function.update disk (folder ++ [filename]) content (folder ++ [name])).map
        fun bytes => crc32 (some bytes) := by
  by_cases heq : filename = name
  · rw [if_pos heq, heq, Function.update_self]
  · have hne : folder ++ [name] ≠ folder ++ [filename] := fun h' =>
      heq (append_component_inj.mp h').symm
    rw [if_neg heq, Function.update_of_ne hne, h.listed name hcomponent]

/-- After a file was written and its entry brought up to date, the list mirrors the folder. -/
theorem Mirrors.send (h : Mirrors folder list disk) {filename : Bytes}
    (hname : IsComponent filename) (content : Bytes) :
    Mirrors folder (listAfterSend list filename (some content))
      (Function.update disk (folder ++ [filename]) (some content)) where
  nodup := nodup_listAfterSend h.nodup _ _
  component name hmem := by
    rw [mem_keys, listed_listAfterSend] at hmem
    by_cases heq : filename = name
    · exact heq ▸ hname
    · rw [if_neg heq] at hmem
      exact h.component name (mem_keys.mpr hmem)
  listed name hcomponent := by
    rw [listed_listAfterSend]
    exact h.listed_update filename (some content) hcomponent
  stored place hplace hsome := by
    by_cases heq : place = folder ++ [filename]
    · exact ⟨filename, hname, heq⟩
    · rw [Function.update_of_ne heq] at hsome
      exact h.stored place hplace hsome

/-- After a file and its entry were removed, the list mirrors the folder. -/
theorem Mirrors.delete (h : Mirrors folder list disk) (filename : Bytes) :
    Mirrors folder (removeFile list filename)
      (Function.update disk (folder ++ [filename]) none) where
  nodup := nodup_removeFile h.nodup _
  component name hmem := by
    rw [mem_keys, listed_removeFile h.nodup] at hmem
    by_cases heq : filename = name
    · simp [heq] at hmem
    · rw [if_neg heq] at hmem
      exact h.component name (mem_keys.mpr hmem)
  listed name hcomponent := by
    rw [listed_removeFile h.nodup]
    exact h.listed_update filename none hcomponent
  stored place hplace hsome := by
    by_cases heq : place = folder ++ [filename]
    · rw [heq, Function.update_self] at hsome
      cases hsome
    · rw [Function.update_of_ne heq] at hsome
      exact h.stored place hplace hsome

end

/-! ## What an upload and a deletion change -/

/-- An upload stores the content, brings the entry up to date and tells the other sessions of a
change. -/
structure Uploaded (folder : List Bytes) (manager : Bool) (username : Bytes) (slot : ℕ)
    (filename content : Bytes) (store : Store (List Bytes)) (context : UserContext)
    (store' : Store (List Bytes)) (context' : UserContext) : Prop where
  disk : store'.disk = Function.update store.disk (folder ++ [filename]) (some content)
  replaces : store.table.Replaces username context' store'.table
  handed : (context.setFileList (listAfterSend context.fileList filename (some content))).Handed
    (fun index => manager = true ∧
      listed context.fileList filename ≠ some (crc32 (some content)) ∧ index ≠ slot)
    ⟨.send, filename⟩ context'

/-- A deletion removes the file and its entry, and tells the other sessions if there was one. -/
structure Deleted (folder : List Bytes) (manager : Bool) (username : Bytes) (slot : ℕ)
    (filename : Bytes) (store : Store (List Bytes)) (context : UserContext)
    (store' : Store (List Bytes)) (context' : UserContext) : Prop where
  disk : store'.disk = Function.update store.disk (folder ++ [filename]) none
  replaces : store.table.Replaces username context' store'.table
  handed : (context.setFileList (removeFile context.fileList filename)).Handed
    (fun index => manager = true ∧ listed context.fileList filename ≠ none ∧ index ≠ slot)
    ⟨.delete, filename⟩ context'

section

variable {σ : Type} {readPacket : σ → Ending Fault (Option Packet × σ)} {cwd : List Bytes}
  {access : FileAccess (List Bytes)} {manager : Bool} {username filename : Bytes}
  {session : Session} {store : Store (List Bytes)} {context : UserContext} {s t u : σ}

/-- `handle_incoming_file` with an upload whose data packets are there. -/
theorem handleIncomingFile_upload (hname : Storable username filename)
    (hgrants : access.Grants (userFolder cwd username)) {n : ℕ} (hn : n < 2 ^ 64)
    (hread : readPacket s = done (some (announcementPacket filename n), t)) {content : Bytes}
    (hwrite : writePackets readPacket n [] t = done (content, u))
    (hactive : session.active = true) :
    handleIncomingFile readPacket (resolve cwd) access manager username session store s =
      (store.table.fileReceived manager username session.sessionIndex filename (some content) >>=
        fun table => done ⟨true, ⟨table, Function.update store.disk
            (userFolder cwd username ++ [filename]) (some content)⟩,
          fileEvent manager username session .send filename, [], u⟩) := by
  rw [handleIncomingFile_stored hn hname.2.1 (hname.opened hgrants) hread hwrite]
  simp only [incomingList, hactive, ite_true]

/-- `handle_incoming_file` with a deletion. -/
theorem handleIncomingFile_remove (hname : Storable username filename)
    (hgrants : access.Grants (userFolder cwd username))
    (hread : readPacket s = done (some (createTextPacket .delete filename), t))
    (hactive : session.active = true) :
    handleIncomingFile readPacket (resolve cwd) access manager username session store s =
      (store.table.removeFileFromUserList manager username session.sessionIndex filename none >>=
        fun table => done ⟨true, ⟨table, Function.update store.disk
            (userFolder cwd username ++ [filename]) none⟩,
          fileEvent manager username session .delete filename, [], t⟩) := by
  have hlength := hname.length_lt
  have hpayload : cString (createTextPacket .delete filename).payload = filename := by
    rw [payload_createTextPacket (by omega), cString_of_zero_not_mem hname.2.1]
  rw [handleIncomingFile_delete hread rfl]
  simp only [hpayload, incomingList, hactive, ite_true, hname.fileAt, hname.removePath hgrants,
    Function.update_self]

theorem uploaded_of_handled (hname : Storable username filename)
    (hgrants : access.Grants (userFolder cwd username)) {n : ℕ} (hn : n < 2 ^ 64)
    (hread : readPacket s = done (some (announcementPacket filename n), t)) {content : Bytes}
    (hwrite : writePackets readPacket n [] t = done (content, u)) (hactive : session.active = true)
    (hfind : store.table.find username = some context) {handled : Handled (List Bytes) σ}
    (h : handleIncomingFile readPacket (resolve cwd) access manager username session store s =
      done handled) :
    handled.rest = u ∧ ∃ context', Uploaded (userFolder cwd username) manager username
      session.sessionIndex filename content store context handled.store context' := by
  rw [handleIncomingFile_upload hname hgrants hn hread hwrite hactive] at h
  obtain ⟨table, htable, h⟩ := bind_eq_done.mp h
  cases h
  obtain ⟨context', hreplaces, hhanded⟩ := HashTable.handed_of_fileReceived hfind htable
  exact ⟨rfl, context', rfl, hreplaces, hhanded⟩

theorem deleted_of_handled (hname : Storable username filename)
    (hgrants : access.Grants (userFolder cwd username))
    (hread : readPacket s = done (some (createTextPacket .delete filename), t))
    (hactive : session.active = true) (hfind : store.table.find username = some context)
    {handled : Handled (List Bytes) σ}
    (h : handleIncomingFile readPacket (resolve cwd) access manager username session store s =
      done handled) :
    handled.rest = t ∧ ∃ context', Deleted (userFolder cwd username) manager username
      session.sessionIndex filename store context handled.store context' := by
  rw [handleIncomingFile_remove hname hgrants hread hactive] at h
  obtain ⟨table, htable, h⟩ := bind_eq_done.mp h
  cases h
  obtain ⟨context', hreplaces, hhanded⟩ := HashTable.handed_of_removeFileFromUserList hfind htable
  exact ⟨rfl, context', rfl, hreplaces, hhanded⟩

/-- On a mirrored folder the command does what the deletion on the other socket does. -/
theorem deleted_of_handleDelete (hname : Storable username filename)
    (hgrants : access.Grants (userFolder cwd username))
    (hfind : store.table.find username = some context)
    (hmirrors : Mirrors (userFolder cwd username) context.fileList store.disk)
    {store' : Store (List Bytes)} {event : Option ReplicaEvent}
    (h : handleDelete (resolve cwd) access manager username session filename store =
      done (store', event)) :
    ∃ context', Deleted (userFolder cwd username) manager username session.sessionIndex filename
      store context store' context' := by
  unfold handleDelete at h
  simp only [hname.accessible hgrants, hname.removePath hgrants, hname.fileAt] at h
  by_cases hstored : (store.disk (userFolder cwd username ++ [filename])).isSome = true
  · rw [if_pos hstored] at h
    obtain ⟨table, htable, h⟩ := bind_eq_done.mp h
    cases h
    obtain ⟨context', hreplaces, hhanded⟩ :=
      HashTable.handed_of_removeFileFromUserList hfind htable
    exact ⟨context', rfl, hreplaces, hhanded⟩
  · rw [if_neg hstored] at h
    cases h
    have hnone : store.disk (userFolder cwd username ++ [filename]) = none := by
      simpa using hstored
    have hlisted : listed context.fileList filename = none := by
      rw [hmirrors.listed filename hname.1, hnone]
      rfl
    refine ⟨context, ?_, HashTable.replaces_self hfind, ?_⟩
    · rw [← hnone, Function.update_eq_self]
    · rw [removeFile_of_not_listed hlisted]
      simp only [hlisted, ne_eq, not_true_eq_false, false_and, and_false]
      exact context.handed_none _

end

end SyncServer
