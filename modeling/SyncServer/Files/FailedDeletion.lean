import SyncServer.Files.Incomplete

/-! # Deletions that fail

`remove` comes late: a command has taken the name from the list before, and a deletion that arrives
on the receive socket goes on with the list after. That it failed is printed and nothing else.
-/

namespace SyncServer

open CText Ending

section

variable {σ Path : Type} [DecidableEq Path] {readPacket : σ → Ending Fault (Option Packet × σ)}
  {resolve : Bytes → Path} {access : FileAccess Path} {manager : Bool} {username : Bytes}
  {session : Session} {store : Store Path}

/-- `remove` fails for the file of a user. -/
def RemoveFails (resolve : Bytes → Path) (access : FileAccess Path) (username filename : Bytes) :
    Prop :=
  ∀ path ∈ (userFilepath username filename).map resolve, access.removes path = false

/-- The list, the buffers of the sessions, the files and the streams to the replicas are as
before. -/
structure Unchanged (resolve : Bytes → Path) (username : Bytes) (streams : List (List Packet))
    (store : Store Path) (handled : Handled Path σ) : Prop where
  fileList : handled.store.table.fileList username = store.table.fileList username
  buffers : ∀ slot, (handled.store.session username slot).map Session.syncBuffer =
    (store.session username slot).map Session.syncBuffer
  disk : handled.store.disk = store.disk
  streams : notifyReplicas resolve handled.store.disk handled.event streams = streams

theorem removePath_of_fails {filename : Bytes}
    (h : RemoveFails resolve access username filename) (disk : Disk Path) :
    removePath resolve access (userFilepath username filename) disk = disk := by
  funext path
  rw [removePath_apply, if_neg]
  rintro ⟨hpath, hremoves⟩
  rw [h path hpath] at hremoves
  cases hremoves

theorem fileEvent_delete_eq_none (manager : Bool) (username : Bytes) (session : Session)
    (filename : Bytes) :
    fileEvent manager username session .delete filename = none ↔ manager = false := by
  cases manager with
  | false => simp [fileEvent]
  | true => simp [fileEvent]

theorem removeFile_ne_self {list : List FileNode} {filename : Bytes}
    (h : listed list filename ≠ none) : removeFile list filename ≠ list := by
  intro hsame
  have hmem : filename ∈ keys list := not_not.mp (mt listed_eq_none.mpr h)
  obtain ⟨node, hnode, hkey⟩ := List.mem_map.mp hmem
  have hlength := congrArg List.length hsame
  rw [removeFile, List.length_eraseP_of_mem hnode (by simpa using hkey)] at hlength
  have hpos := List.length_pos_of_mem hnode
  omega

/-- A name that was listed is gone from the list of the user. -/
theorem fileList_ne_of_removed {table table' : HashTable} {context : UserContext}
    (hfind : table.find username = some context) {filename : Bytes}
    (hlisted : listed context.fileList filename ≠ none) {sender : ℕ} {content : Option Bytes}
    (hdone : table.removeFileFromUserList manager username sender filename content = done table') :
    table'.fileList username ≠ table.fileList username := by
  obtain ⟨context', hreplaces, hhanded⟩ := HashTable.handed_of_removeFileFromUserList hfind hdone
  rw [HashTable.fileList_of_find hreplaces.find, HashTable.fileList_of_find hfind,
    hhanded.fileList]
  exact removeFile_ne_self hlisted

/-- A command to delete a file. -/
theorem interface_unchanged_iff {s t : σ} {packet : Packet}
    (hread : readPacket s = done (some packet, t)) (htype : packet.type = .delete)
    {context : UserContext} (hfind : store.table.find username = some context)
    (hlisted : listed context.fileList (cString packet.payload) ≠ none)
    (streams : List (List Packet)) :
    (∃ handled, interface readPacket resolve access manager username session store s =
        done handled ∧ Unchanged resolve username streams store handled) ↔
      accessible resolve access (userFilepath username (cString packet.payload)) store.disk =
        false := by
  rw [interface_delete hread htype]
  cases haccess : accessible resolve access (userFilepath username (cString packet.payload))
      store.disk with
  | false =>
      simp only [handleDelete, haccess, Bool.false_eq_true, if_false, bind_done, iff_true]
      exact ⟨_, rfl, rfl, fun _ => rfl, rfl, notifyReplicas_eq_self_iff.mpr (Or.inl rfl)⟩
  | true =>
      simp only [handleDelete, haccess, if_true, Bool.true_eq_false, iff_false]
      rintro ⟨handled, hdone, hunchanged⟩
      obtain ⟨⟨store', event⟩, hstore, hhandled⟩ := bind_eq_done.mp hdone
      obtain ⟨table, htable, hstore⟩ := bind_eq_done.mp hstore
      cases hstore
      cases hhandled
      exact fileList_ne_of_removed hfind hlisted htable hunchanged.fileList

/-- A deletion on the receive socket. -/
theorem handleIncomingFile_unchanged_iff {s t : σ} {packet : Packet}
    (hread : readPacket s = done (some packet, t)) (htype : packet.type = .delete)
    {context : UserContext} (hfind : store.table.find username = some context)
    (hlisted : listed context.fileList (cString packet.payload) ≠ none)
    (hfails : RemoveFails resolve access username (cString packet.payload))
    (streams : List (List Packet)) :
    (∃ handled, handleIncomingFile readPacket resolve access manager username session store s =
        done handled ∧ Unchanged resolve username streams store handled) ↔
      session.active = false ∧ (manager = false ∨ streams = []) := by
  rw [handleIncomingFile_delete hread htype, removePath_of_fails hfails]
  cases hactive : session.active with
  | false =>
      simp only [incomingList, hactive, Bool.false_eq_true, if_false, bind_done, true_and]
      rw [← fileEvent_delete_eq_none manager username session (cString packet.payload)]
      constructor
      · rintro ⟨handled, hdone, hunchanged⟩
        cases hdone
        exact notifyReplicas_eq_self_iff.mp hunchanged.streams
      · intro hnone
        exact ⟨_, rfl, rfl, fun _ => rfl, rfl, notifyReplicas_eq_self_iff.mpr hnone⟩
  | true =>
      simp only [incomingList, hactive, if_true, Bool.true_eq_false, false_and, iff_false]
      rintro ⟨handled, hdone, hunchanged⟩
      obtain ⟨table, htable, hhandled⟩ := bind_eq_done.mp hdone
      cases hhandled
      exact fileList_ne_of_removed hfind hlisted htable hunchanged.fileList

/-- Where `remove` fails, a command leaves everything as it was when the file was not to be found
in the first place, and a deletion on the receive socket when the session is not active and no
replica is told. -/
theorem failedDeletion_unchanged_iff {s t : σ} {packet : Packet}
    (hread : readPacket s = done (some packet, t)) (htype : packet.type = .delete)
    {context : UserContext} (hfind : store.table.find username = some context)
    (hlisted : listed context.fileList (cString packet.payload) ≠ none)
    (hfails : RemoveFails resolve access username (cString packet.payload))
    (streams : List (List Packet)) :
    ((∃ handled, interface readPacket resolve access manager username session store s =
        done handled ∧ Unchanged resolve username streams store handled) ↔
      accessible resolve access (userFilepath username (cString packet.payload)) store.disk =
        false) ∧
    ((∃ handled, handleIncomingFile readPacket resolve access manager username session store s =
        done handled ∧ Unchanged resolve username streams store handled) ↔
      session.active = false ∧ (manager = false ∨ streams = [])) :=
  ⟨interface_unchanged_iff hread htype hfind hlisted streams,
    handleIncomingFile_unchanged_iff hread htype hfind hlisted hfails streams⟩

end

/-- Nothing can be removed. -/
def readOnly : FileAccess Bytes := { FileAccess.granted with removes := fun _ => false }

def deleteRequest : Socket := ⟨[createTextPacket .delete [102]], .stalled⟩

/-- The stored file with one replica. -/
theorem failedDeletion_unchanged_iff_oneFile :
    (∃ handled, interface Socket.readPacket id readOnly true [97] (createSession 0 .zero) oneFile
        deleteRequest = done handled ∧ Unchanged id [97] [[]] oneFile handled) ↔
      accessible id readOnly (userFilepath [97] [102]) oneFile.disk = false := by
  have hread : Socket.readPacket deleteRequest =
      done (some (createTextPacket .delete [102]), ⟨[], .stalled⟩) := rfl
  have hfind : oneFile.table.find [97] = some (((createContext [97]).addSession
    (createSession 0 .zero)).setFileList [⟨[102], crc32 (some [1, 2])⟩]) := rfl
  exact (failedDeletion_unchanged_iff hread rfl hfind (by decide) (fun _ _ => rfl) [[]]).1

/-- The name is gone from the list, and the event is there for the replicas. -/
theorem failedDeletion_leaves_trace : ∃ handled,
    interface Socket.readPacket id readOnly true [97] (createSession 0 .zero) oneFile
      deleteRequest = done handled ∧
    handled.store.disk (getUserFolder [97] ++ [47, 102]) = some [1, 2] ∧
    handled.store.table.fileList [97] = [] ∧
    handled.event = some (createFileDeleteEvent [97] .zero [102]) := by
  have h : (interface Socket.readPacket id readOnly true [97] (createSession 0 .zero) oneFile
      deleteRequest).returned.map (fun handled => (handled.store.disk
        (getUserFolder [97] ++ [47, 102]), handled.store.table.fileList [97], handled.event)) =
      some (some [1, 2], [], some (createFileDeleteEvent [97] .zero [102])) := by decide +kernel
  obtain ⟨handled, hdone, hleft⟩ := Option.map_eq_some_iff.mp h
  simp only [Prod.mk.injEq] at hleft
  exact ⟨handled, returned_eq_some.mp hdone, hleft⟩

end SyncServer
