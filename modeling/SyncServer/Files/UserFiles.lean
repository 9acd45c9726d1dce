import SyncServer.Library.Ending
import SyncServer.Sessions.Events
import SyncServer.Wire.Stream

/-! # The list of a user and the buffers of its sessions

A user has a list of the names that are stored, each with a CRC. A manager hands a change of the
list to the other session of the user, through a buffer that the session's send thread empties.
-/

namespace SyncServer

open CText Ending

/-! ## The list of a user -/

inductive FileStatus where
  | notFound
  | updated
  | unchanged
  deriving DecidableEq, Repr

/-- `get_file_status` of a list, with what the disk has under the name. -/
def getFileStatus (list : List FileNode) (filename : Bytes) (content : Option Bytes) :
    FileStatus :=
  match fileLinkedListGet list filename with
  | none => .notFound
  | some node => if crc32 content ≠ node.crc then .updated else .unchanged

/-- `file_node->crc = ..` in the first node with the key. -/
def setCrc (key : Bytes) (crc : UInt32) : List FileNode → List FileNode
  | [] => []
  | node :: list =>
      if node.key = key then ⟨node.key, crc⟩ :: list else node :: setCrc key crc list

/-- `remove_file_from_context` unlinks the first node with the key. -/
def removeFile (list : List FileNode) (filename : Bytes) : List FileNode :=
  list.eraseP (·.key = filename)

/-- The list after a file was received. -/
def listAfterSend (list : List FileNode) (filename : Bytes) (content : Option Bytes) :
    List FileNode :=
  match getFileStatus list filename content with
  | .notFound => fileLinkedListPush list filename (crc32 content)
  | .updated => setCrc filename (crc32 content) list
  | .unchanged => list

/-! ### The CRC under a name -/

/-- The CRC that the list records for a name. -/
def listed (list : List FileNode) (name : Bytes) : Option UInt32 :=
  (fileLinkedListGet list name).map FileNode.crc

def keys (list : List FileNode) : List Bytes := list.map FileNode.key

@[simp] theorem listed_nil (name : Bytes) : listed [] name = none := rfl

theorem listed_cons (node : FileNode) (list : List FileNode) (name : Bytes) :
    listed (node :: list) name = if node.key = name then some node.crc else listed list name := by
  by_cases h : node.key = name
  · simp [listed, fileLinkedListGet, h]
  · simp [listed, fileLinkedListGet, h]

theorem listed_push (list : List FileNode) (key : Bytes) (crc : UInt32) (name : Bytes) :
    listed (fileLinkedListPush list key crc) name =
      if key = name then some crc else listed list name :=
  listed_cons ⟨key, crc⟩ list name

theorem listed_eq_none {list : List FileNode} {name : Bytes} :
    listed list name = none ↔ name ∉ keys list := by
  simp [listed, fileLinkedListGet, keys]

theorem listed_setCrc (key : Bytes) (crc : UInt32) (list : List FileNode) (name : Bytes) :
    listed (setCrc key crc list) name =
      if key = name then (listed list name).map fun _ => crc else listed list name := by
  induction list with
  | nil => simp [setCrc]
  | cons node list ih =>
      rw [setCrc]
      by_cases hkey : node.key = key
      · rw [if_pos hkey, listed_cons, listed_cons, hkey]
        by_cases hname : key = name
        · simp [hname]
        · simp [hname]
      · rw [if_neg hkey, listed_cons, listed_cons, ih]
        by_cases hname : node.key = name
        · have hne : key ≠ name := fun h => hkey (hname.trans h.symm)
          simp [hname, hne]
        · simp [hname]

@[simp] theorem keys_setCrc (key : Bytes) (crc : UInt32) (list : List FileNode) :
    keys (setCrc key crc list) = keys list := by
  induction list with
  | nil => rfl
  | cons node list ih =>
      rw [setCrc]
      split
      · rfl
      · exact congrArg (node.key :: ·) ih

theorem nodup_removeFile {list : List FileNode} (h : (keys list).Nodup) (filename : Bytes) :
    (keys (removeFile list filename)).Nodup :=
  h.sublist (List.eraseP_sublist.map _)

/-- Without duplicates nothing is left under a name that was removed. -/
theorem listed_removeFile {list : List FileNode} (h : (keys list).Nodup) (filename name : Bytes) :
    listed (removeFile list filename) name =
      if filename = name then none else listed list name := by
  induction list with
  | nil => simp [removeFile]
  | cons node list ih =>
      obtain ⟨hhead, htail⟩ := List.nodup_cons.mp h
      rw [removeFile, List.eraseP_cons]
      by_cases hkey : node.key = filename
      · rw [hkey] at hhead
        simp only [hkey, decide_true, listed_cons]
        by_cases hname : filename = name
        · rw [if_pos hname, ← hname]
          exact listed_eq_none.mpr hhead
        · simp [hname]
      · simp only [hkey, decide_false, listed_cons, cond_false]
        rw [← removeFile, ih htail]
        by_cases hname : node.key = name
        · have hne : filename ≠ name := fun h => hkey (hname.trans h.symm)
          simp [hname, hne]
        · simp [hname]

/-- A name that is not listed is not removed. -/
theorem removeFile_of_not_listed {list : List FileNode} {filename : Bytes}
    (h : listed list filename = none) : removeFile list filename = list := by
  apply List.eraseP_of_forall_not
  intro node hnode hkey
  exact listed_eq_none.mp h (List.mem_map.mpr ⟨node, hnode, by simpa using hkey⟩)

theorem getFileStatus_eq (list : List FileNode) (filename : Bytes) (content : Option Bytes) :
    getFileStatus list filename content =
      match listed list filename with
      | none => .notFound
      | some crc => if crc32 content ≠ crc then .updated else .unchanged := by
  unfold getFileStatus listed
  cases fileLinkedListGet list filename with
  | none => rfl
  | some node => rfl

theorem getFileStatus_eq_notFound {list : List FileNode} {filename : Bytes}
    {content : Option Bytes} :
    getFileStatus list filename content = .notFound ↔ listed list filename = none := by
  rw [getFileStatus_eq]
  cases listed list filename with
  | none => simp
  | some crc =>
      simp only [reduceCtorEq, iff_false]
      split <;> simp

theorem getFileStatus_eq_updated {list : List FileNode} {filename : Bytes}
    {content : Option Bytes} :
    getFileStatus list filename content = .updated ↔
      ∃ crc, listed list filename = some crc ∧ crc ≠ crc32 content := by
  rw [getFileStatus_eq]
  cases listed list filename with
  | none => simp
  | some crc =>
      by_cases h : crc = crc32 content
      · simp [h]
      · simp [h, Ne.symm h]

theorem getFileStatus_eq_unchanged {list : List FileNode} {filename : Bytes}
    {content : Option Bytes} :
    getFileStatus list filename content = .unchanged ↔
      listed list filename = some (crc32 content) := by
  rw [getFileStatus_eq]
  cases listed list filename with
  | none => simp
  | some crc =>
      by_cases h : crc = crc32 content
      · simp [h]
      · simp [h, Ne.symm h]

/-- After a file was received its name is listed with the CRC of what was stored. -/
theorem listed_listAfterSend (list : List FileNode) (filename : Bytes) (content : Option Bytes)
    (name : Bytes) :
    listed (listAfterSend list filename content) name =
      if filename = name then some (crc32 content) else listed list name := by
  unfold listAfterSend
  cases h : getFileStatus list filename content with
  | notFound => exact listed_push ..
  | updated =>
      obtain ⟨crc, hcrc, -⟩ := getFileStatus_eq_updated.mp h
      simp only [listed_setCrc]
      by_cases hname : filename = name
      · rw [if_pos hname, if_pos hname, ← hname, hcrc]
        rfl
      · rw [if_neg hname, if_neg hname]
  | unchanged =>
      simp only
      by_cases hname : filename = name
      · rw [if_pos hname, ← hname]
        exact getFileStatus_eq_unchanged.mp h
      · rw [if_neg hname]

theorem listAfterSend_eq_self_iff {list : List FileNode} {filename : Bytes}
    {content : Option Bytes} :
    listAfterSend list filename content = list ↔
      listed list filename = some (crc32 content) := by
  constructor
  · intro h
    have hlisted := listed_listAfterSend list filename content filename
    rwa [h, if_pos rfl] at hlisted
  · intro h
    rw [listAfterSend, getFileStatus_eq_unchanged.mpr h]

theorem nodup_listAfterSend {list : List FileNode} (h : (keys list).Nodup) (filename : Bytes)
    (content : Option Bytes) : (keys (listAfterSend list filename content)).Nodup := by
  unfold listAfterSend
  cases hstatus : getFileStatus list filename content with
  | notFound =>
      exact List.nodup_cons.mpr
        ⟨listed_eq_none.mp (getFileStatus_eq_notFound.mp hstatus), h⟩
  | updated => simpa using h
  | unchanged => exact h

/-! ## Handing a change to the other session -/

def fileSyncBufferSize : ℕ := 10

/-- `add_file_to_sync_buffer`, `none` while the buffer is full. -/
def addFileToSyncBuffer (session : Session) (entry : FileEntry) : Option Session :=
  if session.syncBuffer.length = fileSyncBufferSize then none
  else some { session with syncBuffer := session.syncBuffer ++ [entry] }

/-- `get_next_file_to_sync`, `none` while the buffer is empty. -/
def getNextFileToSync (session : Session) : Option (FileEntry × Session) :=
  match session.syncBuffer with
  | [] => none
  | entry :: rest => some (entry, { session with syncBuffer := rest })

theorem getNextFileToSync_eq_some {session session' : Session} {entry : FileEntry}
    (h : getNextFileToSync session = some (entry, session')) :
    session.syncBuffer = entry :: session'.syncBuffer ∧
      session'.sessionIndex = session.sessionIndex ∧ session'.active = session.active := by
  unfold getNextFileToSync at h
  split at h
  · cases h
  · rename_i hbuffer
    cases h
    exact ⟨hbuffer, rfl, rfl⟩

/-- The session with one more entry in its buffer. -/
def Session.enqueue (entry : FileEntry) (session : Session) : Session :=
  { session with syncBuffer := session.syncBuffer ++ [entry] }

namespace UserContext

/-- `send_file_to_session` to slot `index`. -/
def sendFileToSession (context : UserContext) (index : ℕ) (entry : FileEntry) :
    Option UserContext :=
  match context.sessions[index]? with
  | some (some session) => (addFileToSyncBuffer session entry).map context.addSession
  | _ => some context

/-- The loop over the slots other than the sender's. -/
def sendFileToOthers (context : UserContext) (sender : ℕ) (entry : FileEntry) :
    Option UserContext :=
  (List.range maxSessions).foldlM (fun context index =>
    if index = sender then some context else context.sendFileToSession index entry) context

/-- The slots after an entry was added to the buffers of some of them. -/
structure Handed (context : UserContext) (receives : ℕ → Prop) (entry : FileEntry)
    (context' : UserContext) : Prop where
  username : context'.username = context.username
  fileList : context'.fileList = context.fileList
  slot_of_not : ∀ index, ¬receives index → context'.sessions[index]? = context.sessions[index]?
  slot : ∀ index, receives index → context'.sessions[index]? =
    context.sessions[index]?.map (Option.map (Session.enqueue entry))

/-- No session other than the sender's has a full buffer. -/
def HasRoom (context : UserContext) (sender : ℕ) : Prop :=
  ∀ index session, index ≠ sender → context.sessions[index]? = some (some session) →
    session.syncBuffer.length ≠ fileSyncBufferSize

theorem handed_none (context : UserContext) (entry : FileEntry) :
    Handed context (fun _ => False) entry context :=
  ⟨rfl, rfl, fun _ _ => rfl, nofun⟩

theorem handed_sendFileToSession {context context' : UserContext} {index : ℕ} {entry : FileEntry}
    (h : context.sendFileToSession index entry = some context') :
    Handed context (· = index) entry context' := by
  unfold sendFileToSession at h
  split at h
  · rename_i session hslot
    obtain ⟨session', hadd, rfl⟩ := Option.map_eq_some_iff.mp h
    have hindex := context.indexed index session hslot
    unfold addFileToSyncBuffer at hadd
    split at hadd
    · cases hadd
    · cases hadd
      have hset : (context.addSession (session.enqueue entry)).sessions =
          context.sessions.set index (some (session.enqueue entry)) := by
        rw [← hindex]
        rfl
      refine ⟨rfl, rfl, fun other hother => ?_, ?_⟩
      · exact hset ▸ List.getElem?_set_ne (Ne.symm hother)
      · intro i hi
        rw [hi, hslot]
        refine (congrArg (·[index]?) hset).trans ?_
        rw [List.getElem?_set_self', hslot]
        rfl
  · rename_i hslot
    cases h
    refine ⟨rfl, rfl, fun _ _ => rfl, ?_⟩
    intro i hi
    rw [hi]
    cases hcase : context.sessions[index]? with
    | none => rfl
    | some slot =>
        cases slot with
        | none => rfl
        | some session => exact absurd hcase (hslot session)

/-- One more slot gets the entry. -/
theorem Handed.trans {context₁ context₂ context₃ : UserContext} {receives : ℕ → Prop}
    {index : ℕ} {entry : FileEntry} (h : Handed context₁ receives entry context₂)
    (h' : Handed context₂ (· = index) entry context₃) (hnew : ¬receives index) :
    Handed context₁ (fun i => receives i ∨ i = index) entry context₃ where
  username := h'.username.trans h.username
  fileList := h'.fileList.trans h.fileList
  slot_of_not i hi := by
    rw [h'.slot_of_not i fun hi' => hi (Or.inr hi'), h.slot_of_not i fun hi' => hi (Or.inl hi')]
  slot i hi := by
    rcases hi with hi | rfl
    · have hne : i ≠ index := fun heq => hnew (heq ▸ hi)
      rw [h'.slot_of_not i hne, h.slot i hi]
    · rw [h'.slot i rfl, h.slot_of_not i hnew]

theorem Handed.congr {context context' : UserContext} {receives receives' : ℕ → Prop}
    {entry : FileEntry} (h : Handed context receives entry context')
    (hiff : ∀ i, receives i ↔ receives' i) : Handed context receives' entry context' := by
  obtain rfl : receives = receives' := funext fun i => propext (hiff i)
  exact h

/-- The loop over some of the slots. -/
theorem handed_foldlM {context context' : UserContext} {sender : ℕ} {entry : FileEntry}
    (indices : List ℕ) {receives : ℕ → Prop} {start : UserContext} (hnodup : indices.Nodup)
    (hfresh : ∀ i ∈ indices, ¬receives i) (hstart : Handed context receives entry start)
    (hfold : indices.foldlM (fun context index => if index = sender then some context
      else context.sendFileToSession index entry) start = some context') :
    Handed context (fun i => receives i ∨ (i ∈ indices ∧ i ≠ sender)) entry context' := by
  induction indices generalizing receives start with
  | nil =>
      cases hfold
      simpa using hstart
  | cons index indices ih =>
      obtain ⟨hnot, hnodup⟩ := List.nodup_cons.mp hnodup
      rw [List.foldlM_cons] at hfold
      obtain ⟨next, hnext, hfold⟩ := Option.bind_eq_some_iff.mp hfold
      have hrest : ∀ i ∈ indices, ¬receives i := fun i hi => hfresh i (List.mem_cons_of_mem _ hi)
      by_cases hsender : index = sender
      · rw [if_pos hsender] at hnext
        cases hnext
        refine (ih hnodup hrest hstart hfold).congr fun i => ?_
        have hskip : i ≠ sender → i ≠ index := fun hne heq => hne (heq.trans hsender)
        rw [List.mem_cons]
        tauto
      · rw [if_neg hsender] at hnext
        have hone := hstart.trans (handed_sendFileToSession hnext)
          (hfresh index List.mem_cons_self)
        have hfresh' : ∀ i ∈ indices, ¬(receives i ∨ i = index) := fun i hi hor =>
          hor.elim (hrest i hi) fun heq => hnot (heq ▸ hi)
        refine (ih hnodup hfresh' hone hfold).congr fun i => ?_
        have hsent : i = index → i ≠ sender := fun heq => heq ▸ hsender
        rw [List.mem_cons]
        tauto

theorem slot_of_not_mem_range {context : UserContext} {i : ℕ} (h : i ∉ List.range maxSessions) :
    context.sessions[i]? = none := by
  rw [List.mem_range, not_lt] at h
  rw [List.getElem?_eq_none (by rw [context.length_sessions]; exact h)]

/-- The loop adds the entry to every session but the sender's. -/
theorem handed_sendFileToOthers {context context' : UserContext} {sender : ℕ} {entry : FileEntry}
    (h : context.sendFileToOthers sender entry = some context') :
    Handed context (· ≠ sender) entry context' := by
  have hall := handed_foldlM (List.range maxSessions) List.nodup_range (fun _ _ h => h)
    (handed_none context entry) h
  refine ⟨hall.username, hall.fileList, fun i hi => ?_, fun i hi => ?_⟩
  · exact hall.slot_of_not i (by simpa using fun _ => not_not.mp hi)
  · by_cases hrange : i ∈ List.range maxSessions
    · exact hall.slot i (Or.inr ⟨hrange, hi⟩)
    · rw [slot_of_not_mem_range hrange, slot_of_not_mem_range hrange]
      rfl

theorem sendFileToSession_eq_none {context : UserContext} {index : ℕ} {entry : FileEntry}
    (h : context.sendFileToSession index entry = none) : ∃ session,
      context.sessions[index]? = some (some session) ∧
      session.syncBuffer.length = fileSyncBufferSize := by
  unfold sendFileToSession at h
  split at h
  · rename_i session hslot
    refine ⟨session, hslot, ?_⟩
    by_contra hroom
    simp [addFileToSyncBuffer, hroom] at h
  · cases h

/-- The loop over slots that still are as in a context with room. -/
theorem HasRoom.foldlM {context : UserContext} {sender : ℕ} (h : context.HasRoom sender)
    (entry : FileEntry) (indices : List ℕ) {start : UserContext} (hnodup : indices.Nodup)
    (hsame : ∀ index ∈ indices, start.sessions[index]? = context.sessions[index]?) :
    ∃ context', indices.foldlM (fun context index => if index = sender then some context
      else context.sendFileToSession index entry) start = some context' := by
  induction indices generalizing start with
  | nil => exact ⟨start, rfl⟩
  | cons index indices ih =>
      obtain ⟨hnot, hnodup⟩ := List.nodup_cons.mp hnodup
      by_cases hsender : index = sender
      · obtain ⟨context', hfold⟩ := ih hnodup fun i hi => hsame i (List.mem_cons_of_mem _ hi)
        exact ⟨context', by rw [List.foldlM_cons, if_pos hsender]; exact hfold⟩
      · cases hnext : start.sendFileToSession index entry with
        | none =>
            obtain ⟨session, hslot, hfull⟩ := sendFileToSession_eq_none hnext
            rw [hsame index List.mem_cons_self] at hslot
            exact absurd hfull (h index session hsender hslot)
        | some next =>
            have hkept : ∀ i ∈ indices, next.sessions[i]? = context.sessions[i]? := by
              intro i hi
              have hne : i ≠ index := fun heq => hnot (heq ▸ hi)
              rw [(handed_sendFileToSession hnext).slot_of_not i hne,
                hsame i (List.mem_cons_of_mem _ hi)]
            obtain ⟨context', hfold⟩ := ih hnodup hkept
            exact ⟨context', by rw [List.foldlM_cons, if_neg hsender, hnext]; exact hfold⟩

/-- The loop comes to its end only where the buffers on its way have room. -/
theorem room_of_foldlM {context context' : UserContext} {sender : ℕ} {entry : FileEntry}
    (indices : List ℕ) {start : UserContext} (hnodup : indices.Nodup)
    (hsame : ∀ index ∈ indices, start.sessions[index]? = context.sessions[index]?)
    (hfold : indices.foldlM (fun context index => if index = sender then some context
      else context.sendFileToSession index entry) start = some context') :
    ∀ index ∈ indices, index ≠ sender → ∀ session,
      context.sessions[index]? = some (some session) →
        session.syncBuffer.length ≠ fileSyncBufferSize := by
  induction indices generalizing start with
  | nil => exact fun _ h => absurd h List.not_mem_nil
  | cons index indices ih =>
      obtain ⟨hnot, hnodup⟩ := List.nodup_cons.mp hnodup
      rw [List.foldlM_cons] at hfold
      obtain ⟨next, hnext, hfold⟩ := Option.bind_eq_some_iff.mp hfold
      have hkept : ∀ i ∈ indices, next.sessions[i]? = context.sessions[i]? := by
        intro i hi
        rw [← hsame i (List.mem_cons_of_mem _ hi)]
        by_cases hsender : index = sender
        · rw [if_pos hsender] at hnext
          rw [Option.some.inj hnext]
        · rw [if_neg hsender] at hnext
          exact (handed_sendFileToSession hnext).slot_of_not i fun heq => hnot (heq ▸ hi)
      intro i hi hne session hslot
      rcases List.mem_cons.mp hi with rfl | hi
      · rw [if_neg hne] at hnext
        rw [← hsame i List.mem_cons_self] at hslot
        intro hfull
        simp [UserContext.sendFileToSession, hslot, addFileToSyncBuffer, hfull] at hnext
      · exact ih hnodup hkept hfold i hi hne session hslot

theorem hasRoom_of_sendFileToOthers {context context' : UserContext} {sender : ℕ}
    {entry : FileEntry} (h : context.sendFileToOthers sender entry = some context') :
    context.HasRoom sender := by
  intro index session hne hslot
  refine room_of_foldlM (List.range maxSessions) List.nodup_range (fun _ _ => rfl) h index ?_ hne
    session hslot
  by_contra hrange
  rw [slot_of_not_mem_range hrange] at hslot
  cases hslot

/-- With room in the buffers the loop does not wait. -/
theorem HasRoom.sendFileToOthers {context : UserContext} {sender : ℕ}
    (h : context.HasRoom sender) (entry : FileEntry) :
    ∃ context', context.sendFileToOthers sender entry = some context' :=
  h.foldlM entry (List.range maxSessions) List.nodup_range fun _ _ => rfl

end UserContext

/-! ## In the table -/

namespace HashTable

/-- The list of a user, empty for one that the table does not have. -/
def fileList (table : HashTable) (username : Bytes) : List FileNode :=
  ((table.find username).map UserContext.fileList).getD []

/-- The same in the context of the user, if the server is the manager. -/
def sendFileToOthers (table : HashTable) (manager : Bool) (username : Bytes) (sender : ℕ)
    (entry : FileEntry) : Ending Fault HashTable :=
  if manager then
    match table.find username with
    | none => done table
    | some context => do
        let context ← await (context.sendFileToOthers sender entry)
        done (table.modify username fun _ => context)
  else done table

def addFileToContext (table : HashTable) (filename username : Bytes) (content : Option Bytes) :
    Ending Fault HashTable := do
  let context ← deref .nullPointer (table.search username)
  match context with
  | none => done table
  | some context => done (table.modify username
      (·.setFileList (fileLinkedListPush context.fileList filename (crc32 content))))

def removeFileFromContext (table : HashTable) (filename username : Bytes) :
    Ending Fault HashTable := do
  let context ← deref .nullPointer (table.search username)
  match context with
  | none => done table
  | some context => done (table.modify username
      (·.setFileList (removeFile context.fileList filename)))

/-- `file_node->crc = crc32(filepath)` for the node that `FileLinkedList_get` finds. -/
def updateCrc (table : HashTable) (filename username : Bytes) (content : Option Bytes) :
    Ending Fault HashTable := do
  let _ ← deref .nullPointer (fileLinkedListGet (table.fileList username) filename)
  done (table.modify username
    (·.setFileList (setCrc filename (crc32 content) (table.fileList username))))

/-- `remove_file_from_user_list`; `sender` is the index of the session. -/
def removeFileFromUserList (table : HashTable) (manager : Bool) (username : Bytes) (sender : ℕ)
    (filename : Bytes) (content : Option Bytes) : Ending Fault HashTable :=
  match getFileStatus (table.fileList username) filename content with
  | .notFound => done table
  | _ => do
      let table ← table.removeFileFromContext filename username
      table.sendFileToOthers manager username sender ⟨.delete, filename⟩

/-- The case `PACKET_SEND` of `handle_incoming_file`. -/
def fileReceived (table : HashTable) (manager : Bool) (username : Bytes) (sender : ℕ)
    (filename : Bytes) (content : Option Bytes) : Ending Fault HashTable :=
  match getFileStatus (table.fileList username) filename content with
  | .notFound => do
      let table ← table.addFileToContext filename username content
      table.sendFileToOthers manager username sender ⟨.send, filename⟩
  | .updated => do
      let table ← table.updateCrc filename username content
      table.sendFileToOthers manager username sender ⟨.send, filename⟩
  | .unchanged => done table

/-! ### What becomes of the context -/

/-- The table with another context for the user. -/
structure Replaces (table : HashTable) (username : Bytes) (context : UserContext)
    (table' : HashTable) : Prop where
  find : table'.find username = some context
  find_of_ne : ∀ other, other ≠ username → table'.find other = table.find other

theorem replaces_self {table : HashTable} {username : Bytes} {context : UserContext}
    (h : table.find username = some context) : table.Replaces username context table :=
  ⟨h, fun _ _ => rfl⟩

theorem replaces_modify {table : HashTable} {username : Bytes} {context : UserContext}
    (h : table.find username = some context) (f : UserContext → UserContext) :
    table.Replaces username (f context) (table.modify username f) where
  find := by rw [find_modify, if_pos rfl, h]; rfl
  find_of_ne other hother := by rw [find_modify, if_neg hother]

theorem Replaces.trans {table₁ table₂ table₃ : HashTable} {username : Bytes}
    {context context' : UserContext} (h : table₁.Replaces username context table₂)
    (h' : table₂.Replaces username context' table₃) : table₁.Replaces username context' table₃ where
  find := h'.find
  find_of_ne other hother := (h'.find_of_ne other hother).trans (h.find_of_ne other hother)

theorem fileList_of_find {table : HashTable} {username : Bytes} {context : UserContext}
    (h : table.find username = some context) : table.fileList username = context.fileList := by
  rw [fileList, h]
  rfl

/-- A change to a session leaves the list alone. -/
theorem fileList_addSession {table : HashTable} {username : Bytes} {context : UserContext}
    (h : table.find username = some context) (session : Session) :
    (table.modify username (·.addSession session)).fileList username =
      table.fileList username := by
  rw [fileList_of_find (replaces_modify h (·.addSession session)).find, fileList_of_find h]
  rfl

theorem addFileToContext_of_find {table : HashTable} {username : Bytes} {context : UserContext}
    (h : table.find username = some context) (filename : Bytes) (content : Option Bytes) :
    table.addFileToContext filename username content = done (table.modify username
      (·.setFileList (fileLinkedListPush context.fileList filename (crc32 content)))) := by
  rw [addFileToContext, search_eq_some.mpr h]
  rfl

theorem removeFileFromContext_of_find {table : HashTable} {username : Bytes}
    {context : UserContext} (h : table.find username = some context) (filename : Bytes) :
    table.removeFileFromContext filename username = done (table.modify username
      (·.setFileList (removeFile context.fileList filename))) := by
  rw [removeFileFromContext, search_eq_some.mpr h]
  rfl

theorem updateCrc_of_listed {table : HashTable} {username : Bytes} {context : UserContext}
    (h : table.find username = some context) {filename : Bytes} {crc : UInt32}
    (hlisted : listed context.fileList filename = some crc) (content : Option Bytes) :
    table.updateCrc filename username content = done (table.modify username
      (·.setFileList (setCrc filename (crc32 content) context.fileList))) := by
  obtain ⟨node, hnode, -⟩ := Option.map_eq_some_iff.mp hlisted
  rw [updateCrc, fileList_of_find h, hnode]
  rfl

/-- What the context becomes when its list was changed and the other sessions are told. -/
theorem handed_of_sendFileToOthers {table table' : HashTable} {manager : Bool} {username : Bytes}
    {context : UserContext} (h : table.find username = some context) {sender : ℕ}
    {entry : FileEntry}
    (hdone : table.sendFileToOthers manager username sender entry = done table') :
    ∃ context', table.Replaces username context' table' ∧
      context.Handed (fun index => manager = true ∧ index ≠ sender) entry context' := by
  cases manager with
  | false =>
      cases hdone
      refine ⟨context, replaces_self h, ?_⟩
      simpa using context.handed_none entry
  | true =>
      simp only [sendFileToOthers, ite_true, h] at hdone
      obtain ⟨context', hsend, hdone⟩ := bind_eq_done.mp hdone
      cases hdone
      refine ⟨context', replaces_modify h fun _ => context', ?_⟩
      simpa using UserContext.handed_sendFileToOthers (await_eq_done.mp hsend)

theorem sendFileToOthers_returns {table : HashTable} {username : Bytes} {context : UserContext}
    (h : table.find username = some context) {manager : Bool} {sender : ℕ}
    (hroom : manager = true → context.HasRoom sender) (entry : FileEntry) :
    ∃ table', table.sendFileToOthers manager username sender entry = done table' := by
  cases manager with
  | false => exact ⟨table, rfl⟩
  | true =>
      obtain ⟨context', hsend⟩ := (hroom rfl).sendFileToOthers entry
      exact ⟨table.modify username fun _ => context', by simp [sendFileToOthers, h, hsend]⟩

/-- A change of the list that the other sessions are told of. -/
theorem handed_of_changed {table table' : HashTable} {manager : Bool} {username : Bytes}
    {context : UserContext} (h : table.find username = some context) {list : List FileNode}
    {sender : ℕ} {entry : FileEntry} {changed : Prop} (hchanged : changed)
    (hdone : (table.modify username (·.setFileList list)).sendFileToOthers manager username sender
      entry = done table') :
    ∃ context', table.Replaces username context' table' ∧
      (context.setFileList list).Handed (fun index => manager = true ∧ changed ∧ index ≠ sender)
        entry context' := by
  have hreplaces := replaces_modify h (·.setFileList list)
  obtain ⟨context', hreplaces', hhanded⟩ := handed_of_sendFileToOthers hreplaces.find hdone
  exact ⟨context', hreplaces.trans hreplaces', by simpa [hchanged] using hhanded⟩

theorem handed_of_unchanged {table : HashTable} {manager : Bool} {username : Bytes}
    {context : UserContext} (h : table.find username = some context) {sender : ℕ}
    {entry : FileEntry} {changed : Prop} (hchanged : ¬changed) :
    ∃ context', table.Replaces username context' table ∧
      (context.setFileList context.fileList).Handed
        (fun index => manager = true ∧ changed ∧ index ≠ sender) entry context' := by
  refine ⟨context, replaces_self h, ?_⟩
  simp only [hchanged, false_and, and_false]
  exact context.handed_none entry

/-- Effects of a received file on its user: the list, and an entry for the other sessions of a
manager if the name is new or its CRC is. -/
theorem handed_of_fileReceived {table table' : HashTable} {manager : Bool} {username : Bytes}
    {context : UserContext} (h : table.find username = some context) {sender : ℕ}
    {filename : Bytes} {content : Option Bytes}
    (hdone : table.fileReceived manager username sender filename content = done table') :
    ∃ context', table.Replaces username context' table' ∧
      (context.setFileList (listAfterSend context.fileList filename content)).Handed
        (fun index => manager = true ∧
          listed context.fileList filename ≠ some (crc32 content) ∧ index ≠ sender)
        ⟨.send, filename⟩ context' := by
  unfold fileReceived at hdone
  unfold listAfterSend
  rw [fileList_of_find h] at hdone
  cases hstatus : getFileStatus context.fileList filename content with
  | notFound =>
      simp only [hstatus, addFileToContext_of_find h, bind_done] at hdone
      exact handed_of_changed h (by simp [getFileStatus_eq_notFound.mp hstatus]) hdone
  | updated =>
      obtain ⟨crc, hcrc, hne⟩ := getFileStatus_eq_updated.mp hstatus
      simp only [hstatus, updateCrc_of_listed h hcrc, bind_done] at hdone
      exact handed_of_changed h (by simp [hcrc, hne]) hdone
  | unchanged =>
      simp only [hstatus, done.injEq] at hdone
      subst hdone
      exact handed_of_unchanged h (by simp [getFileStatus_eq_unchanged.mp hstatus])

/-- Effects of a deletion on its user. -/
theorem handed_of_removeFileFromUserList {table table' : HashTable} {manager : Bool}
    {username : Bytes} {context : UserContext} (h : table.find username = some context)
    {sender : ℕ} {filename : Bytes} {content : Option Bytes}
    (hdone : table.removeFileFromUserList manager username sender filename content =
      done table') :
    ∃ context', table.Replaces username context' table' ∧
      (context.setFileList (removeFile context.fileList filename)).Handed
        (fun index => manager = true ∧ listed context.fileList filename ≠ none ∧ index ≠ sender)
        ⟨.delete, filename⟩ context' := by
  unfold removeFileFromUserList at hdone
  rw [fileList_of_find h] at hdone
  cases hstatus : getFileStatus context.fileList filename content with
  | notFound =>
      have hnone := getFileStatus_eq_notFound.mp hstatus
      simp only [hstatus, done.injEq] at hdone
      subst hdone
      rw [removeFile_of_not_listed hnone]
      exact handed_of_unchanged h (by simp [hnone])
  | updated =>
      obtain ⟨crc, hcrc, -⟩ := getFileStatus_eq_updated.mp hstatus
      simp only [hstatus, removeFileFromContext_of_find h, bind_done] at hdone
      exact handed_of_changed h (by simp [hcrc]) hdone
  | unchanged =>
      simp only [hstatus, removeFileFromContext_of_find h, bind_done] at hdone
      exact handed_of_changed h (by simp [getFileStatus_eq_unchanged.mp hstatus]) hdone

/-! ### When they return -/

theorem fileReceived_returns {table : HashTable} {username : Bytes} {context : UserContext}
    (h : table.find username = some context) {manager : Bool} {sender : ℕ}
    (hroom : manager = true → context.HasRoom sender) (filename : Bytes)
    (content : Option Bytes) :
    ∃ table', table.fileReceived manager username sender filename content = done table' := by
  unfold fileReceived
  rw [fileList_of_find h]
  cases hstatus : getFileStatus context.fileList filename content with
  | notFound =>
      simp only [addFileToContext_of_find h, bind_done]
      exact sendFileToOthers_returns (replaces_modify h _).find hroom _
  | updated =>
      obtain ⟨crc, hcrc, -⟩ := getFileStatus_eq_updated.mp hstatus
      simp only [updateCrc_of_listed h hcrc, bind_done]
      exact sendFileToOthers_returns (replaces_modify h _).find hroom _
  | unchanged => exact ⟨table, rfl⟩

theorem removeFileFromUserList_returns {table : HashTable} {username : Bytes}
    {context : UserContext} (h : table.find username = some context) {manager : Bool} {sender : ℕ}
    (hroom : manager = true → context.HasRoom sender) (filename : Bytes)
    (content : Option Bytes) :
    ∃ table',
      table.removeFileFromUserList manager username sender filename content = done table' := by
  unfold removeFileFromUserList
  rw [fileList_of_find h]
  cases hstatus : getFileStatus context.fileList filename content with
  | notFound => exact ⟨table, rfl⟩
  | updated =>
      simp only [removeFileFromContext_of_find h, bind_done]
      exact sendFileToOthers_returns (replaces_modify h _).find hroom _
  | unchanged =>
      simp only [removeFileFromContext_of_find h, bind_done]
      exact sendFileToOthers_returns (replaces_modify h _).find hroom _

/-- A deletion that the other sessions are told of returns only where they have room. -/
theorem hasRoom_of_removeFileFromUserList {table table' : HashTable} {username : Bytes}
    {context : UserContext} (h : table.find username = some context) {sender : ℕ}
    {filename : Bytes} {content : Option Bytes} (hlisted : listed context.fileList filename ≠ none)
    (hdone : table.removeFileFromUserList true username sender filename content = done table') :
    context.HasRoom sender := by
  have hreplaces := replaces_modify h (·.setFileList (removeFile context.fileList filename))
  have hsend : (table.modify username (·.setFileList (removeFile context.fileList
      filename))).sendFileToOthers true username sender ⟨.delete, filename⟩ = done table' := by
    unfold removeFileFromUserList at hdone
    rw [fileList_of_find h] at hdone
    cases hstatus : getFileStatus context.fileList filename content with
    | notFound => exact absurd (getFileStatus_eq_notFound.mp hstatus) hlisted
    | _ => simpa only [hstatus, removeFileFromContext_of_find h, bind_done] using hdone
  simp only [sendFileToOthers, ite_true, hreplaces.find] at hsend
  obtain ⟨context', hothers, -⟩ := bind_eq_done.mp hsend
  have hroom := UserContext.hasRoom_of_sendFileToOthers (await_eq_done.mp hothers)
  exact hroom

end HashTable

end SyncServer
