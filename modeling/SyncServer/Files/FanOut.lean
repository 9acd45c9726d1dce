import SyncServer.Files.Mirror
import SyncServer.Library.Transition

/-! # What the sessions of a user are told

The sessions of one user upload and delete files, one operation at a time. Each change of the
list goes once to every other session, and the list mirrors the folder.
-/

namespace SyncServer

open CText Ending PathNames Transition

/-- The store, and what the send thread of each session has taken out of its buffer. -/
structure SharedFiles where
  store : Store (List Bytes)
  taken : ℕ → List FileEntry

inductive Operation where
  | upload (slot : ℕ) (filename : Bytes) (chunks : List Bytes)
  | deleteReceived (slot : ℕ) (filename : Bytes)
  | deleteCommand (slot : ℕ) (filename : Bytes)
  | take (slot : ℕ)
  deriving DecidableEq, Repr

/-- What the client sends for an upload. -/
def uploadSocket (filename : Bytes) (chunks : List Bytes) : Socket :=
  ⟨announcementPacket filename chunks.length :: chunks.map (createTextPacket .data), .stalled⟩

def deleteSocket (filename : Bytes) : Socket := ⟨[createTextPacket .delete filename], .stalled⟩

theorem readPacket_uploadSocket (filename : Bytes) (chunks : List Bytes) :
    (uploadSocket filename chunks).readPacket =
      done (some (announcementPacket filename chunks.length),
        ⟨chunks.map (createTextPacket .data), .stalled⟩) := rfl

theorem readPacket_deleteSocket (filename : Bytes) :
    (deleteSocket filename).readPacket =
      done (some (createTextPacket .delete filename), ⟨[], .stalled⟩) := rfl

namespace SharedFiles

section

variable (cwd : List Bytes) (access : FileAccess (List Bytes)) (username : Bytes)

/-- The session that a thread works for, while it is active. -/
def activeSession (s : SharedFiles) (slot : ℕ) : Option Session :=
  (s.store.session username slot).filter (·.active)

/-- An operation that is handled to its end, on a manager. -/
def step (s : SharedFiles) : Operation → Option SharedFiles
  | .upload slot filename chunks =>
      (s.activeSession username slot).bind fun session =>
        (handleIncomingFile Socket.readPacket (resolve cwd) access true username session s.store
          (uploadSocket filename chunks)).returned.map fun handled =>
            { s with store := handled.store }
  | .deleteReceived slot filename =>
      (s.activeSession username slot).bind fun session =>
        (handleIncomingFile Socket.readPacket (resolve cwd) access true username session s.store
          (deleteSocket filename)).returned.map fun handled => { s with store := handled.store }
  | .deleteCommand slot filename =>
      (s.activeSession username slot).bind fun session =>
        (interface Socket.readPacket (resolve cwd) access true username session s.store
          (deleteSocket filename)).returned.map fun handled => { s with store := handled.store }
  | .take slot =>
      (s.activeSession username slot).bind fun session =>
        (getNextFileToSync session).map fun (entry, session) =>
          { store := { s.store with table := s.store.table.modify username (·.addSession session) }
            taken := Function.update s.taken slot (s.taken slot ++ [entry]) }

/-- What was appended to the buffer of a session so far. -/
def appended (s : SharedFiles) (slot : ℕ) : Option (List FileEntry) :=
  (s.store.session username slot).map fun session => s.taken slot ++ session.syncBuffer

/-- The files of the user. -/
def contents (s : SharedFiles) : Bytes → Option Bytes :=
  fun name => s.store.disk (userFolder cwd username ++ [name])

/-- The buffers of the other sessions are not full. -/
def HasRoom (s : SharedFiles) (slot : ℕ) : Prop :=
  ∀ other session, other ≠ slot → s.store.session username other = some session →
    session.syncBuffer.length ≠ fileSyncBufferSize

instance (s : SharedFiles) (slot : ℕ) : Decidable (s.HasRoom username slot) :=
  decidable_of_iff (∀ other < maxSessions, ∀ session ∈ s.store.session username other,
      other ≠ slot → session.syncBuffer.length ≠ fileSyncBufferSize) <| by
    constructor
    · intro h other session hne hsession
      obtain ⟨context, -, hslot⟩ := Store.session_eq_some.mp hsession
      refine h other ?_ session hsession hne
      rw [← context.length_sessions]
      exact (List.getElem?_eq_some_iff.mp hslot).1
    · exact fun h other _ session hsession hne => h other session hne hsession

/-- The names are single components, the data packets carry what fits into them, and there is
room in the buffers. -/
def Admissible (s : SharedFiles) : Operation → Prop
  | .upload slot filename chunks => Storable username filename ∧
      (∀ chunk ∈ chunks, chunk.length < 2 ^ 16) ∧ chunks.length < 2 ^ 64 ∧
      s.HasRoom username slot
  | .deleteReceived slot filename | .deleteCommand slot filename =>
      Storable username filename ∧ s.HasRoom username slot
  | .take _ => True

instance (s : SharedFiles) : ∀ operation, Decidable (s.Admissible username operation)
  | .upload .. => inferInstanceAs (Decidable (_ ∧ _))
  | .deleteReceived .. => inferInstanceAs (Decidable (_ ∧ _))
  | .deleteCommand .. => inferInstanceAs (Decidable (_ ∧ _))
  | .take _ => .isTrue trivial

end

end SharedFiles

/-! ## What the operations mean -/

namespace Operation

/-- The files after the operation. -/
def effect (operation : Operation) (contents : Bytes → Option Bytes) : Bytes → Option Bytes :=
  match operation with
  | upload _ filename chunks => Function.update contents filename (some chunks.flatten)
  | deleteReceived _ filename | deleteCommand _ filename => Function.update contents filename none
  | take _ => contents

/-- What the session in a slot is told of the operation: an upload of another session that adds
a name or changes its CRC, and a deletion by another session of a name that is there. -/
def news (operation : Operation) (slot : ℕ) (contents : Bytes → Option Bytes) :
    List FileEntry :=
  match operation with
  | upload sender filename chunks =>
      if slot ≠ sender ∧ (contents filename).map (fun content => crc32 (some content)) ≠
        some (crc32 (some chunks.flatten)) then [⟨.send, filename⟩] else []
  | deleteReceived sender filename | deleteCommand sender filename =>
      if slot ≠ sender ∧ contents filename ≠ none then [⟨.delete, filename⟩] else []
  | take _ => []

/-- The same for a history. -/
def allNews (slot : ℕ) : List Operation → (Bytes → Option Bytes) → List FileEntry
  | [], _ => []
  | operation :: operations, contents =>
      operation.news slot contents ++ allNews slot operations (operation.effect contents)

end Operation

namespace SharedFiles

variable {cwd : List Bytes} {access : FileAccess (List Bytes)} {username : Bytes}

theorem activeSession_eq_some {s : SharedFiles} {slot : ℕ} {session : Session} :
    s.activeSession username slot = some session ↔
      s.store.session username slot = some session ∧ session.active = true := by
  simp [activeSession, Option.filter_eq_some_iff]

/-! ## What one operation does -/

/-- The user is known and its list mirrors its folder. -/
structure Kept (cwd : List Bytes) (username : Bytes) (s : SharedFiles) : Prop where
  known : (s.store.table.find username).isSome = true
  mirrors : Mirrors (userFolder cwd username) (s.store.table.fileList username) s.store.disk

/-- The operation has the effect and brings the news that it should. -/
structure Done (cwd : List Bytes) (username : Bytes) (operation : Operation) (s t : SharedFiles) :
    Prop where
  kept : t.Kept cwd username
  contents : t.contents cwd username = operation.effect (s.contents cwd username)
  appended : ∀ slot, t.appended username slot = (s.appended username slot).map
    (· ++ operation.news slot (s.contents cwd username))

/-- The buffers after a change that was handed to some sessions. -/
theorem appended_of_handed {s : SharedFiles} {store : Store (List Bytes)}
    {context context' : UserContext} {list : List FileNode} {receives : ℕ → Prop}
    {entry : FileEntry} (hfind : s.store.table.find username = some context)
    (hreplaces : s.store.table.Replaces username context' store.table)
    (hhanded : (context.setFileList list).Handed receives entry context') (slot : ℕ)
    [Decidable (receives slot)] :
    appended username { s with store } slot = (s.appended username slot).map
      (· ++ if receives slot then [entry] else []) := by
  rw [appended, appended, Store.session_of_find hfind, Store.session_of_find hreplaces.find]
  by_cases h : receives slot
  · rw [if_pos h, hhanded.slot slot h]
    cases hslot : context.sessions[slot]? with
    | none => simp [UserContext.setFileList, hslot]
    | some found =>
        cases found with
        | none => simp [UserContext.setFileList, hslot]
        | some session =>
            simp [UserContext.setFileList, hslot, Session.enqueue, List.append_assoc]
  · rw [if_neg h, hhanded.slot_of_not slot h]
    simp [UserContext.setFileList, Function.comp_def]

theorem contents_update {s : SharedFiles} {store : Store (List Bytes)} {filename : Bytes}
    {content : Option Bytes}
    (h : store.disk = Function.update s.store.disk
      (userFolder cwd username ++ [filename]) content) :
    contents cwd username { s with store } =
      Function.update (s.contents cwd username) filename content := by
  funext name
  unfold contents
  rw [h]
  by_cases hname : name = filename
  · rw [hname, Function.update_self, Function.update_self]
  · rw [Function.update_of_ne hname, Function.update_of_ne fun h' =>
      hname (append_component_inj.mp h')]

/-- The list records what is stored. -/
theorem Kept.listed_eq {s : SharedFiles} (h : s.Kept cwd username) {context : UserContext}
    (hfind : s.store.table.find username = some context) {filename : Bytes}
    (hname : IsComponent filename) :
    listed context.fileList filename =
      (s.contents cwd username filename).map fun content => crc32 (some content) := by
  rw [← HashTable.fileList_of_find hfind]
  exact h.mirrors.listed filename hname

theorem done_of_uploaded {s : SharedFiles} {store : Store (List Bytes)}
    {context context' : UserContext} {slot : ℕ} {filename : Bytes} {chunks : List Bytes}
    (hkept : s.Kept cwd username) (hname : Storable username filename)
    (hfind : s.store.table.find username = some context)
    (h : Uploaded (userFolder cwd username) true username slot filename chunks.flatten s.store
      context store context') :
    Done cwd username (.upload slot filename chunks) s { s with store } where
  kept := by
    refine ⟨by rw [h.replaces.find]; rfl, ?_⟩
    have hmirrors := hkept.mirrors.send hname.1 chunks.flatten
    rw [HashTable.fileList_of_find hfind] at hmirrors
    rw [HashTable.fileList_of_find h.replaces.find, h.handed.fileList, h.disk]
    exact hmirrors
  contents := contents_update h.disk
  appended other := by
    classical
    rw [appended_of_handed hfind h.replaces h.handed]
    simp only [hkept.listed_eq hfind hname.1, Operation.news, true_and, and_comm]

theorem done_of_deleted {s : SharedFiles} {store : Store (List Bytes)}
    {context context' : UserContext} {slot : ℕ} {filename : Bytes} {operation : Operation}
    (hoperation : operation = .deleteReceived slot filename ∨
      operation = .deleteCommand slot filename) (hkept : s.Kept cwd username)
    (hname : Storable username filename) (hfind : s.store.table.find username = some context)
    (h : Deleted (userFolder cwd username) true username slot filename s.store context store
      context') :
    Done cwd username operation s { s with store } := by
  have heffect : operation.effect (s.contents cwd username) =
      Function.update (s.contents cwd username) filename none := by
    rcases hoperation with rfl | rfl <;> rfl
  have hnews : ∀ other, operation.news other (s.contents cwd username) =
      if other ≠ slot ∧ s.contents cwd username filename ≠ none then [⟨.delete, filename⟩]
      else [] := by
    rcases hoperation with rfl | rfl <;> exact fun _ => rfl
  refine ⟨⟨by rw [h.replaces.find]; rfl, ?_⟩, ?_, fun other => ?_⟩
  · have hmirrors := hkept.mirrors.delete filename
    rw [HashTable.fileList_of_find hfind] at hmirrors
    rw [HashTable.fileList_of_find h.replaces.find, h.handed.fileList, h.disk]
    exact hmirrors
  · rw [heffect]
    exact contents_update h.disk
  · classical
    rw [appended_of_handed hfind h.replaces h.handed, hnews]
    simp only [hkept.listed_eq hfind hname.1, true_and, ne_eq, Option.map_eq_none_iff, and_comm]

/-- An entry that a send thread takes stays among what was appended. -/
theorem done_of_taken {s : SharedFiles} {slot : ℕ} {session session' : Session} {entry : FileEntry}
    (hkept : s.Kept cwd username) (hsession : s.store.session username slot = some session)
    (hnext : getNextFileToSync session = some (entry, session')) :
    Done cwd username (.take slot) s
      { store := { s.store with table := s.store.table.modify username (·.addSession session') }
        taken := Function.update s.taken slot (s.taken slot ++ [entry]) } := by
  obtain ⟨context, hfind, hslot⟩ := Store.session_eq_some.mp hsession
  obtain ⟨hbuffer, hindex, -⟩ := getNextFileToSync_eq_some hnext
  rw [context.indexed slot session hslot] at hindex
  have hreplaces := HashTable.replaces_modify hfind (·.addSession session')
  refine ⟨⟨by rw [hreplaces.find]; rfl, ?_⟩, rfl, fun other => ?_⟩
  · rw [HashTable.fileList_addSession hfind]
    exact hkept.mirrors
  · simp only [Operation.news, List.append_nil, Option.map_id', appended]
    by_cases hother : other = slot
    · have hself := Store.session_addSession_self (hindex ▸ hsession) s.store.disk
      rw [hindex] at hself
      rw [hother, hself, hsession, Function.update_self]
      simp [hbuffer]
    · rw [Store.session_addSession_of_ne (hindex ▸ Ne.symm hother), Function.update_of_ne hother]

theorem writePackets_chunks {chunks : List Bytes} (h : ∀ chunk ∈ chunks, chunk.length < 2 ^ 16)
    (ending : StreamEnd) :
    writePackets Socket.readPacket chunks.length []
        ⟨chunks.map (createTextPacket .data), ending⟩ = done (chunks.flatten, ⟨[], ending⟩) := by
  have hwrite := (Socket.reads (chunks.map (createTextPacket .data)) [] ending).writePackets_done
  have hpayloads : chunks.map (fun chunk => (createTextPacket .data chunk).payload) = chunks := by
    rw [List.map_congr_left fun chunk hchunk => payload_createTextPacket (h chunk hchunk),
      List.map_id']
  rw [List.length_map, List.append_nil, List.map_map] at hwrite
  rw [hwrite]
  exact congrArg (fun chunks => done (List.flatten chunks, _)) hpayloads

theorem payload_delete {filename : Bytes} (h : Storable username filename) :
    cString (createTextPacket .delete filename).payload = filename := by
  have hlength := h.length_lt
  rw [payload_createTextPacket (by omega), cString_of_zero_not_mem h.2.1]

theorem interface_deleteSocket {filename : Bytes} (h : Storable username filename)
    (session : Session) (store : Store (List Bytes)) :
    interface Socket.readPacket (resolve cwd) access true username session store
        (deleteSocket filename) =
      (handleDelete (resolve cwd) access true username session filename store >>=
        fun (store, event) => done ⟨true, store, event, [], ⟨[], .stalled⟩⟩) := by
  rw [interface_delete (readPacket_deleteSocket filename) rfl, payload_delete h]

/-- The step lemma. -/
theorem done_of_step (hgrants : access.Grants (userFolder cwd username)) {s t : SharedFiles}
    {operation : Operation} (hkept : s.Kept cwd username)
    (hok : s.Admissible username operation)
    (h : step cwd access username s operation = some t) : Done cwd username operation s t := by
  cases operation with
  | upload slot filename chunks =>
      obtain ⟨session, hsession, h⟩ := Option.bind_eq_some_iff.mp h
      obtain ⟨handled, hhandled, rfl⟩ := Option.map_eq_some_iff.mp h
      obtain ⟨hslot, hactive⟩ := activeSession_eq_some.mp hsession
      obtain ⟨context, hfind, hslot⟩ := Store.session_eq_some.mp hslot
      obtain ⟨hname, hchunks, hcount, -⟩ := hok
      obtain ⟨-, context', huploaded⟩ := uploaded_of_handled hname hgrants hcount
        (readPacket_uploadSocket filename chunks) (writePackets_chunks hchunks .stalled) hactive
        hfind (returned_eq_some.mp hhandled)
      rw [context.indexed slot session hslot] at huploaded
      exact done_of_uploaded hkept hname hfind huploaded
  | deleteReceived slot filename =>
      obtain ⟨session, hsession, h⟩ := Option.bind_eq_some_iff.mp h
      obtain ⟨handled, hhandled, rfl⟩ := Option.map_eq_some_iff.mp h
      obtain ⟨hslot, hactive⟩ := activeSession_eq_some.mp hsession
      obtain ⟨context, hfind, hslot⟩ := Store.session_eq_some.mp hslot
      obtain ⟨-, context', hdeleted⟩ := deleted_of_handled hok.1 hgrants
        (readPacket_deleteSocket filename) hactive hfind (returned_eq_some.mp hhandled)
      rw [context.indexed slot session hslot] at hdeleted
      exact done_of_deleted (.inl rfl) hkept hok.1 hfind hdeleted
  | deleteCommand slot filename =>
      obtain ⟨session, hsession, h⟩ := Option.bind_eq_some_iff.mp h
      obtain ⟨handled, hhandled, rfl⟩ := Option.map_eq_some_iff.mp h
      obtain ⟨hslot, hactive⟩ := activeSession_eq_some.mp hsession
      obtain ⟨context, hfind, hslot⟩ := Store.session_eq_some.mp hslot
      rw [returned_eq_some, interface_deleteSocket hok.1] at hhandled
      obtain ⟨⟨store, event⟩, hdelete, hhandled⟩ := bind_eq_done.mp hhandled
      cases hhandled
      have hmirrors := hkept.mirrors
      rw [HashTable.fileList_of_find hfind] at hmirrors
      obtain ⟨context', hdeleted⟩ :=
        deleted_of_handleDelete hok.1 hgrants hfind hmirrors hdelete
      rw [context.indexed slot session hslot] at hdeleted
      exact done_of_deleted (.inr rfl) hkept hok.1 hfind hdeleted
  | take slot =>
      obtain ⟨session, hsession, h⟩ := Option.bind_eq_some_iff.mp h
      obtain ⟨⟨entry, session'⟩, hnext, rfl⟩ := Option.map_eq_some_iff.mp h
      exact done_of_taken hkept (activeSession_eq_some.mp hsession).1 hnext

/-- An operation of an active session for which there is room is handled to its end. -/
theorem step_isSome (hgrants : access.Grants (userFolder cwd username)) {s : SharedFiles}
    {slot : ℕ} {session : Session} (hsession : s.activeSession username slot = some session)
    {operation : Operation} (hok : s.Admissible username operation)
    (hslot : (∃ filename chunks, operation = .upload slot filename chunks) ∨
      ∃ filename, operation = .deleteReceived slot filename ∨
        operation = .deleteCommand slot filename) :
    (step cwd access username s operation).isSome = true := by
  obtain ⟨hfound, hactive⟩ := activeSession_eq_some.mp hsession
  obtain ⟨context, hfind, hindex⟩ := Store.session_eq_some.mp hfound
  have hindexed := context.indexed slot session hindex
  have hroom : s.HasRoom username slot → context.HasRoom session.sessionIndex := by
    intro hroom other session' hne hother
    rw [hindexed] at hne
    exact hroom other session' hne (Store.session_eq_some.mpr ⟨context, hfind, hother⟩)
  rcases hslot with ⟨filename, chunks, rfl⟩ | ⟨filename, rfl | rfl⟩
  · obtain ⟨hname, hchunks, hcount, hfree⟩ := hok
    obtain ⟨table, htable⟩ : ∃ table, s.store.table.fileReceived true username
        session.sessionIndex filename (some chunks.flatten) = done table :=
      HashTable.fileReceived_returns hfind (fun _ => hroom hfree) _ _
    rw [step, hsession, Option.bind_some, handleIncomingFile_upload hname hgrants hcount
      (readPacket_uploadSocket filename chunks) (writePackets_chunks hchunks .stalled) hactive,
      htable]
    rfl
  · obtain ⟨hname, hfree⟩ := hok
    obtain ⟨table, htable⟩ : ∃ table, s.store.table.removeFileFromUserList true username
        session.sessionIndex filename none = done table :=
      HashTable.removeFileFromUserList_returns hfind (fun _ => hroom hfree) _ _
    rw [step, hsession, Option.bind_some, handleIncomingFile_remove hname hgrants
      (readPacket_deleteSocket filename) hactive, htable]
    rfl
  · obtain ⟨hname, hfree⟩ := hok
    obtain ⟨table, htable⟩ : ∃ table, s.store.table.removeFileFromUserList true username
        session.sessionIndex filename
          (fileAt (resolve cwd) (userFilepath username filename) s.store.disk) = done table :=
      HashTable.removeFileFromUserList_returns hfind (fun _ => hroom hfree) _ _
    simp only [step, hsession, Option.bind_some, interface_deleteSocket hname, handleDelete, htable,
      bind_done]
    split <;> rfl

/-! ## Runs -/

theorem run_done (hgrants : access.Grants (userFolder cwd username)) {s t : SharedFiles}
    {operations : List Operation} (hkept : s.Kept cwd username)
    (hok : Along (step cwd access username) (Admissible username) s operations)
    (h : run (step cwd access username) s operations = some t) :
    t.Kept cwd username ∧
      t.contents cwd username =
        operations.foldl (fun contents operation => operation.effect contents)
          (s.contents cwd username) ∧
      ∀ slot, t.appended username slot = (s.appended username slot).map
        (· ++ Operation.allNews slot operations (s.contents cwd username)) := by
  induction operations generalizing s with
  | nil =>
      obtain rfl := Option.some.inj h
      exact ⟨hkept, rfl, fun slot => by simp [Operation.allNews]⟩
  | cons operation operations ih =>
      obtain ⟨u, hu, h⟩ := run_cons_eq_some.mp h
      obtain ⟨hadmissible, hok⟩ := hok u hu
      have hdone := done_of_step hgrants hkept hadmissible hu
      obtain ⟨hkept', hcontents, happended⟩ := ih hdone.kept hok h
      refine ⟨hkept', ?_, fun slot => ?_⟩
      · rw [hcontents, hdone.contents, List.foldl_cons]
      · rw [happended, hdone.appended, hdone.contents, Option.map_map]
        simp only [Function.comp_def, Operation.allNews, List.append_assoc]

/-- From an empty folder, every history keeps the list a mirror of the folder, and every session
is told in order of what the others have changed, and of nothing else. Operations for which
there is room are handled to their end. -/
theorem fanOut_exact (hgrants : access.Grants (userFolder cwd username)) {s t : SharedFiles}
    (hknown : (s.store.table.find username).isSome = true)
    (hlist : s.store.table.fileList username = [])
    (hfolder : ∀ place, StrictlyInside (userFolder cwd username) place → s.store.disk place = none)
    {operations : List Operation}
    (hok : Along (step cwd access username) (Admissible username) s operations)
    (h : run (step cwd access username) s operations = some t) :
    Mirrors (userFolder cwd username) (t.store.table.fileList username) t.store.disk ∧
      t.contents cwd username =
        operations.foldl (fun contents operation => operation.effect contents) (fun _ => none) ∧
      (∀ slot, t.appended username slot = (s.appended username slot).map
        (· ++ Operation.allNews slot operations fun _ => none)) ∧
      ∀ slot filename chunks, (t.activeSession username slot).isSome = true →
        (t.Admissible username (.upload slot filename chunks) →
          (step cwd access username t (.upload slot filename chunks)).isSome = true) ∧
        (t.Admissible username (.deleteReceived slot filename) →
          (step cwd access username t (.deleteReceived slot filename)).isSome = true ∧
          (step cwd access username t (.deleteCommand slot filename)).isSome = true) := by
  have hempty : s.contents cwd username = fun _ => none := by
    funext name
    exact hfolder _ (strictlyInside_append _ name)
  have hkept : s.Kept cwd username := ⟨hknown, by rw [hlist]; exact mirrors_nil hfolder⟩
  obtain ⟨hkept', hcontents, happended⟩ := run_done hgrants hkept hok h
  rw [hempty] at hcontents happended
  refine ⟨hkept'.mirrors, hcontents, happended, fun slot filename chunks hactive => ?_⟩
  obtain ⟨session, hsession⟩ := Option.isSome_iff_exists.mp hactive
  refine ⟨fun hok => ?_, fun hok => ⟨?_, ?_⟩⟩
  · exact step_isSome hgrants hsession hok (.inl ⟨filename, chunks, rfl⟩)
  · exact step_isSome hgrants hsession hok (.inr ⟨filename, .inl rfl⟩)
  · exact step_isSome hgrants hsession
      (show t.Admissible username (.deleteCommand slot filename) from hok)
      (.inr ⟨filename, .inr rfl⟩)

/-- A user with two sessions and an empty folder. -/
def twoSessions : SharedFiles where
  store :=
    { table := HashTable.create.insert [97]
        (((createContext [97]).addSession (createSession 0 .zero)).addSession
          (createSession 1 .zero))
      disk := fun _ => none }
  taken _ := []

/-- An upload, the same again by the other session, and a deletion by that session. -/
theorem fanOut_of_two_sessions :
    (run (step [] .granted [97]) twoSessions [.upload 0 [102] [[104, 105]],
        .upload 1 [102] [[104], [105]], .take 1, .deleteCommand 1 [102]]).map
      (fun t => (t.appended [97] 0, t.appended [97] 1)) =
    some (some [⟨.delete, [102]⟩], some [⟨.send, [102]⟩]) := by
  obtain ⟨t, ht⟩ := Option.isSome_iff_exists.mp (show (run (step [] .granted [97]) twoSessions
    [.upload 0 [102] [[104, 105]], .upload 1 [102] [[104], [105]], .take 1,
      .deleteCommand 1 [102]]).isSome = true by decide +kernel)
  have hexact := fanOut_exact (FileAccess.granted_grants _) rfl rfl (fun _ _ => rfl)
    (by decide +kernel) ht
  rw [ht, Option.map_some, hexact.2.2.1, hexact.2.2.1]
  decide +kernel

end SharedFiles

end SyncServer
