import Mathlib.Data.Fintype.Prod
import SyncServer.Files.FanOut

/-! # The threads of a user's sessions

Each session has a thread that receives files and a thread that takes commands. No lock is held
from one call of an operation to the next, so the calls of the threads interleave. What goes into
the buffers of the sessions is left out: it changes neither the list nor a file.
-/

namespace SyncServer

open CText Ending PathNames Transition

inductive ThreadRole where
  | receive
  | interface
  deriving DecidableEq, Repr

instance : Fintype ThreadRole := ⟨{.receive, .interface}, fun role => by cases role <;> decide⟩

abbrev SessionThread : Type := Fin maxSessions × ThreadRole

/-- What a thread is about to do: the call that comes next for its file. -/
inductive Call where
  | idle
  | statusOfSent (filename : Bytes)
  | addFile (filename : Bytes)
  | updateCrc (filename : Bytes)
  | statusOfDeleted (filename : Bytes)
  | removeEntry (filename : Bytes)
  | statusOfCommand (filename : Bytes)
  | removeEntryOfCommand (filename : Bytes)
  | removeFile (filename : Bytes)
  | ended
  deriving DecidableEq, Repr

structure Editing where
  store : Store (List Bytes)
  call : SessionThread → Call

inductive EditAction where
  /-- `read_packet` and `handle_send_delete` of `handle_incoming_file`. -/
  | incoming (slot : Fin maxSessions) (access : FileAccess (List Bytes)) (socket : Socket)
  /-- `PACKET_DELETE` in `interface`, to the test with `access`. -/
  | command (slot : Fin maxSessions) (access : FileAccess (List Bytes)) (payload : Bytes)
  /-- The next call of a thread. -/
  | proceed (thread : SessionThread) (access : FileAccess (List Bytes))
  /-- `PACKET_EXIT`: the session is no longer active. -/
  | exit (slot : Fin maxSessions)
  /-- The receive thread was joined. -/
  | leave (slot : Fin maxSessions)

namespace Editing

def put (s : Editing) (thread : SessionThread) (store : Store (List Bytes)) (call : Call) :
    Editing :=
  ⟨store, Function.update s.call thread call⟩

@[simp] theorem put_store (s : Editing) (thread : SessionThread) (store : Store (List Bytes))
    (call : Call) : (s.put thread store call).store = store := rfl

@[simp] theorem put_call_self (s : Editing) (thread : SessionThread) (store : Store (List Bytes))
    (call : Call) : (s.put thread store call).call thread = call :=
  Function.update_self ..

theorem put_call_of_ne {thread other : SessionThread} (h : other ≠ thread) (s : Editing)
    (store : Store (List Bytes)) (call : Call) :
    (s.put thread store call).call other = s.call other :=
  Function.update_of_ne h ..

/-- No operation is in progress. -/
def Quiet (s : Editing) : Prop := ∀ thread, s.call thread = .idle ∨ s.call thread = .ended

instance (s : Editing) : Decidable s.Quiet := inferInstanceAs (Decidable (∀ _, _))

section

variable (cwd : List Bytes) (username : Bytes)

def entry (s : Editing) (filename : Bytes) : Option UInt32 :=
  listed (s.store.table.fileList username) filename

def file (s : Editing) (filename : Bytes) : Option Bytes :=
  fileAt (resolve cwd) (userFilepath username filename) s.store.disk

/-- `get_file_status`. -/
def status (s : Editing) (filename : Bytes) : FileStatus :=
  getFileStatus (s.store.table.fileList username) filename (s.file cwd username filename)

/-- `handle_incoming_file` until `handle_send_delete` has returned. -/
def beginTransfer (access : FileAccess (List Bytes)) (store : Store (List Bytes))
    (socket : Socket) : Ending Fault (Store (List Bytes) × Call) := do
  let (packet, socket) ← socket.readPacket
  let packet ← deref .nullPointer packet
  let (filename, disk, _) ← handleSendDelete Socket.readPacket (resolve cwd) access
    (getUserFolder username) packet store.disk socket
  match packet.type, filename with
  | .connectionClosed, _ => done ({ store with disk }, .ended)
  | .send, some filename => done ({ store with disk }, .statusOfSent filename)
  | .delete, some filename => done ({ store with disk }, .statusOfDeleted filename)
  | _, _ => faults .nullPointer

/-- The next call of a thread, and the call after it. An inactive session leaves the list as it
is. -/
def nextCall (s : Editing) (access : FileAccess (List Bytes)) (active : Bool) :
    Call → Ending Fault (Store (List Bytes) × Call)
  | .idle | .ended => waits
  | .statusOfSent filename =>
      if active then
        match s.status cwd username filename with
        | .notFound => done (s.store, .addFile filename)
        | .updated => done (s.store, .updateCrc filename)
        | .unchanged => done (s.store, .idle)
      else done (s.store, .idle)
  | .addFile filename => do
      let table ← s.store.table.addFileToContext filename username (s.file cwd username filename)
      done ({ s.store with table }, .idle)
  | .updateCrc filename => do
      let table ← s.store.table.updateCrc filename username (s.file cwd username filename)
      done ({ s.store with table }, .idle)
  | .statusOfDeleted filename =>
      if active then
        match s.status cwd username filename with
        | .notFound => done (s.store, .idle)
        | _ => done (s.store, .removeEntry filename)
      else done (s.store, .idle)
  | .removeEntry filename => do
      let table ← s.store.table.removeFileFromContext filename username
      done ({ s.store with table }, .idle)
  | .statusOfCommand filename =>
      match s.status cwd username filename with
      | .notFound => done (s.store, .removeFile filename)
      | _ => done (s.store, .removeEntryOfCommand filename)
  | .removeEntryOfCommand filename => do
      let table ← s.store.table.removeFileFromContext filename username
      done ({ s.store with table }, .removeFile filename)
  | .removeFile filename =>
      done ({ s.store with
        disk := removePath (resolve cwd) access (userFilepath username filename) s.store.disk },
        .idle)

def step (s : Editing) : EditAction → Option Editing
  | .incoming slot access socket =>
      (s.store.session username slot).bind fun _ =>
        if s.call (slot, .receive) = .idle then
          (beginTransfer cwd username access s.store socket).returned.map fun (store, call) =>
            s.put (slot, .receive) store call
        else none
  | .command slot access payload =>
      (s.store.session username slot).bind fun session =>
        if session.active ∧ s.call (slot, .interface) = .idle then
          let filename := cString payload
          let call := if accessible (resolve cwd) access (userFilepath username filename)
            s.store.disk then .statusOfCommand filename else .idle
          some (s.put (slot, .interface) s.store call)
        else none
  | .proceed thread access =>
      (s.store.session username thread.1).bind fun session =>
        (s.nextCall cwd username access session.active (s.call thread)).returned.map
          fun (store, call) => s.put thread store call
  | .exit slot =>
      (s.store.session username slot).bind fun session =>
        if session.active ∧ s.call (slot, .interface) = .idle then
          some { s with store := { s.store with
            table := s.store.table.modify username
              (·.addSession { session with active := false }) } }
        else none
  | .leave slot =>
      (s.store.session username slot).bind fun session =>
        if session.active = false ∧
            (s.call (slot, .receive) = .idle ∨ s.call (slot, .receive) = .ended) then
          some { s with store := { s.store with
            table := s.store.table.modify username (·.removeSession slot) } }
        else none

end

/-! ## Steps that go well

A call that leaves entry and file apart does no harm while a later call of another thread sets
them right.
-/

/-- What a later call does: it updates the CRC, takes the entry away, or lists or removes the
file. -/
inductive Remedy where
  | updates
  | unlists
  | answers
  deriving DecidableEq, Repr

end Editing

open Editing in
def Call.remedy : Call → Remedy → Option Bytes
  | .statusOfSent filename, .updates | .updateCrc filename, .updates => some filename
  | .statusOfDeleted filename, .unlists | .removeEntry filename, .unlists => some filename
  | .statusOfCommand filename, .unlists => some filename
  | .removeEntryOfCommand filename, .unlists => some filename
  | .statusOfSent filename, .answers | .addFile filename, .answers => some filename
  | .updateCrc filename, .answers | .statusOfCommand filename, .answers => some filename
  | .removeEntryOfCommand filename, .answers | .removeFile filename, .answers => some filename
  | _, _ => none

def Call.filename : Call → Option Bytes
  | .idle | .ended => none
  | .statusOfSent filename | .addFile filename | .updateCrc filename => some filename
  | .statusOfDeleted filename | .removeEntry filename => some filename
  | .statusOfCommand filename | .removeEntryOfCommand filename => some filename
  | .removeFile filename => some filename

/-- A call helps its own file only. -/
theorem Call.filename_of_remedy {call : Call} {remedy : Editing.Remedy} {filename : Bytes}
    (h : call.remedy remedy = some filename) : call.filename = some filename := by
  cases call <;> cases remedy <;> first | exact h | cases h

/-- The name that a call of an upload may come to list. -/
def Call.sent : Call → Option Bytes
  | .statusOfSent filename | .addFile filename | .updateCrc filename => some filename
  | _ => none

namespace Editing

/-- Entry and file agree, or what is still to come sets them right. -/
def Covered (pending : Remedy → Prop) : Option UInt32 → Option Bytes → Prop
  | some crc, some content => crc = crc32 (some content) ∨ pending .updates
  | some _, none => pending .unlists
  | none, some _ => pending .answers
  | none, none => True

instance (pending : Remedy → Prop) [DecidablePred pending] :
    ∀ crc content, Decidable (Covered pending crc content)
  | some _, some _ => inferInstanceAs (Decidable (_ ∨ _))
  | some _, none => inferInstanceAs (Decidable (pending _))
  | none, some _ => inferInstanceAs (Decidable (pending _))
  | none, none => .isTrue trivial

def Pending (s : Editing) (filename : Bytes) (remedy : Remedy) : Prop :=
  ∃ thread, (s.call thread).remedy remedy = some filename

/-- The same for the threads other than one. -/
def Others (s : Editing) (thread : SessionThread) (filename : Bytes) (remedy : Remedy) : Prop :=
  ∃ other, other ≠ thread ∧ (s.call other).remedy remedy = some filename

instance (s : Editing) (thread : SessionThread) (filename : Bytes) :
    DecidablePred (s.Others thread filename) :=
  fun _ => inferInstanceAs (Decidable (∃ _, _))

section

variable (cwd : List Bytes) (username : Bytes)

/-- Removing the file takes nothing from the folder. -/
def Spares (s : Editing) (access : FileAccess (List Bytes)) (filename : Bytes) : Prop :=
  ∀ path ∈ (userFilepath username filename).map (resolve cwd), access.removes path = true →
    StrictlyInside (userFolder cwd username) path → s.store.disk path = none

def removable (access : FileAccess (List Bytes)) (filename : Bytes) : Bool :=
  ((userFilepath username filename).map (resolve cwd)).any access.removes

/-- An upload has a name of one component; a deletion of another name does not reach a file of
the folder. -/
def Fits (s : Editing) (access : FileAccess (List Bytes)) (packet : Packet) : PacketType → Prop
  | .send => ∀ announcement ∈ packet.upload access.heap,
      Storable username announcement.filename
  | .delete => Storable username (cString packet.payload) ∨
      s.Spares cwd username access (cString packet.payload)
  | _ => True

/-- A name that is added is not listed, and after the last call of an operation entry and file
agree or another thread is about to set them right. -/
def OrderlyCall (s : Editing) (thread : SessionThread) (access : FileAccess (List Bytes)) :
    Call → Prop
  | .statusOfSent filename | .statusOfDeleted filename =>
      (s.store.session username thread.1).any (·.active) = true ∨
        (Storable username filename → Covered (s.Others thread filename)
          (s.entry username filename) (s.file cwd username filename))
  | .addFile filename => s.entry username filename = none ∧
      Covered (s.Others thread filename) (some (crc32 (s.file cwd username filename)))
        (s.file cwd username filename)
  | .removeEntry filename =>
      Covered (s.Others thread filename) none (s.file cwd username filename)
  | .removeFile filename =>
      (Storable username filename →
        Covered (s.Others thread filename) (s.entry username filename)
          (if removable cwd username access filename then none
            else s.file cwd username filename)) ∧
      (¬Storable username filename → s.Spares cwd username access filename)
  | _ => True

def Orderly (s : Editing) : EditAction → Prop
  | .incoming _ access socket =>
      ∀ packet ∈ (socket.readPacket.returned.bind Prod.fst),
        s.Fits cwd username access packet packet.type
  | .proceed thread access => s.OrderlyCall cwd username thread access (s.call thread)
  | _ => True

instance (s : Editing) (access : FileAccess (List Bytes)) (filename : Bytes) :
    Decidable (s.Spares cwd username access filename) :=
  inferInstanceAs (Decidable (∀ path ∈ (userFilepath username filename).map (resolve cwd), _))

instance (s : Editing) (access : FileAccess (List Bytes)) (packet : Packet) :
    ∀ type, Decidable (s.Fits cwd username access packet type)
  | .send => inferInstanceAs (Decidable (∀ announcement ∈ packet.upload access.heap, _))
  | .delete => inferInstanceAs (Decidable (_ ∨ _))
  | .data | .list | .download | .exit | .replicaMsg | .connectionClosed | .error
  | .reconnect | .other .. => .isTrue trivial

instance (s : Editing) (thread : SessionThread) (access : FileAccess (List Bytes)) :
    ∀ call, Decidable (s.OrderlyCall cwd username thread access call)
  | .statusOfSent _ => inferInstanceAs (Decidable (_ ∨ _))
  | .statusOfDeleted _ => inferInstanceAs (Decidable (_ ∨ _))
  | .addFile _ => inferInstanceAs (Decidable (_ ∧ _))
  | .removeEntry _ => inferInstanceAs (Decidable (Covered ..))
  | .removeFile _ => inferInstanceAs (Decidable (_ ∧ _))
  | .idle | .updateCrc _ | .statusOfCommand _ | .removeEntryOfCommand _ | .ended =>
      .isTrue trivial

instance (s : Editing) : ∀ action, Decidable (s.Orderly cwd username action)
  | .incoming _ access socket => inferInstanceAs (Decidable
      (∀ packet ∈ (socket.readPacket.returned.bind Prod.fst),
        s.Fits cwd username access packet packet.type))
  | .proceed thread access =>
      inferInstanceAs (Decidable (s.OrderlyCall cwd username thread access (s.call thread)))
  | .command .. | .exit _ | .leave _ => .isTrue trivial

end

section

variable {cwd : List Bytes} {username : Bytes} {access : FileAccess (List Bytes)}

/-! ## The invariant -/

theorem Covered.mono {pending pending' : Remedy → Prop} (h : ∀ remedy, pending remedy →
    pending' remedy) {crc : Option UInt32} {content : Option Bytes}
    (hcovered : Covered pending crc content) : Covered pending' crc content := by
  cases crc with
  | none =>
      cases content with
      | none => trivial
      | some content => exact h _ hcovered
  | some crc =>
      cases content with
      | none => exact h _ hcovered
      | some content => exact hcovered.imp_right (h _)

/-- With nothing to come, entry and file agree. -/
theorem covered_iff_of_none {pending : Remedy → Prop} (h : ∀ remedy, ¬pending remedy)
    {crc : Option UInt32} {content : Option Bytes} (hcovered : Covered pending crc content) :
    crc = content.map fun content => crc32 (some content) := by
  cases crc with
  | none =>
      cases content with
      | none => rfl
      | some content => exact absurd hcovered (h _)
  | some crc =>
      cases content with
      | none => exact absurd hcovered (h _)
      | some content => exact congrArg some (hcovered.resolve_right (h _))

theorem pending_iff {s : Editing} (thread : SessionThread) {filename : Bytes} {remedy : Remedy} :
    s.Pending filename remedy ↔
      (s.call thread).remedy remedy = some filename ∨ s.Others thread filename remedy := by
  constructor
  · rintro ⟨other, hother⟩
    by_cases heq : other = thread
    · exact .inl (heq ▸ hother)
    · exact .inr ⟨other, heq, hother⟩
  · rintro (h | ⟨other, -, hother⟩)
    · exact ⟨thread, h⟩
    · exact ⟨other, hother⟩

theorem others_of_pending {s : Editing} {thread : SessionThread} {filename : Bytes}
    {remedy : Remedy} (hnot : (s.call thread).remedy remedy ≠ some filename)
    (hpending : s.Pending filename remedy) : s.Others thread filename remedy :=
  ((pending_iff thread).mp hpending).resolve_left hnot

theorem pending_put {s : Editing} {thread : SessionThread} {store : Store (List Bytes)}
    {call : Call} {filename : Bytes} {remedy : Remedy} :
    (s.put thread store call).Pending filename remedy ↔
      call.remedy remedy = some filename ∨ s.Others thread filename remedy := by
  rw [pending_iff thread, put_call_self]
  refine or_congr_right (exists_congr fun other => and_congr_right fun hother => ?_)
  rw [put_call_of_ne hother]

/-- The names are storable, and entry and file agree but for what is still to come. -/
structure Consistent (cwd : List Bytes) (username : Bytes) (s : Editing) : Prop where
  known : (s.store.table.find username).isSome = true
  nodup : (keys (s.store.table.fileList username)).Nodup
  storable : ∀ name ∈ keys (s.store.table.fileList username), Storable username name
  sent : ∀ thread name, (s.call thread).sent = some name → Storable username name
  covered : ∀ name, Storable username name → Covered (s.Pending name) (s.entry username name)
    (s.store.disk (userFolder cwd username ++ [name]))
  stored : ∀ place, StrictlyInside (userFolder cwd username) place →
    (s.store.disk place).isSome = true →
      ∃ name, Storable username name ∧ place = userFolder cwd username ++ [name]

theorem file_eq (s : Editing) (cwd : List Bytes) {filename : Bytes}
    (h : Storable username filename) :
    s.file cwd username filename = s.store.disk (userFolder cwd username ++ [filename]) :=
  h.fileAt s.store.disk

/-- A step of a thread that changes the entry and the file of one name. -/
theorem Consistent.put {s : Editing} (h : s.Consistent cwd username) {thread : SessionThread}
    {store : Store (List Bytes)} {call : Call} {filename : Bytes}
    (hcall : (s.call thread).filename = none ∨ (s.call thread).filename = some filename)
    (hknown : (store.table.find username).isSome = true)
    (hnodup : (keys (store.table.fileList username)).Nodup)
    (hlisted : ∀ name, name ≠ filename →
      listed (store.table.fileList username) name = s.entry username name)
    (hstorable : (listed (store.table.fileList username) filename).isSome = true →
      Storable username filename)
    (hsent : ∀ name, call.sent = some name → Storable username name)
    (hdisk : ∀ place, StrictlyInside (userFolder cwd username) place →
      place ≠ userFolder cwd username ++ [filename] → store.disk place = s.store.disk place)
    (hstored : (store.disk (userFolder cwd username ++ [filename])).isSome = true →
      Storable username filename)
    (hcovered : Storable username filename →
      Covered (fun remedy => call.remedy remedy = some filename ∨ s.Others thread filename remedy)
        (listed (store.table.fileList username) filename)
        (store.disk (userFolder cwd username ++ [filename]))) :
    (s.put thread store call).Consistent cwd username where
  known := hknown
  nodup := hnodup
  storable name hmem := by
    by_cases heq : name = filename
    · exact heq ▸ hstorable (mem_keys.mp (heq ▸ hmem))
    · have hlisted' := mem_keys.mp hmem
      rw [put_store, hlisted name heq] at hlisted'
      exact h.storable name (mem_keys.mpr hlisted')
  sent other name hother := by
    by_cases heq : other = thread
    · rw [heq, put_call_self] at hother
      exact hsent name hother
    · rw [put_call_of_ne heq] at hother
      exact h.sent other name hother
  covered name hname := by
    by_cases heq : name = filename
    · rw [heq] at hname ⊢
      exact (hcovered hname).mono fun _ => pending_put.mpr
    · have hplace := hdisk _ (strictlyInside_append _ name) fun hplace =>
        heq (append_component_inj.mp hplace)
      rw [entry, put_store, hlisted name heq, hplace]
      refine (h.covered name hname).mono fun remedy hpending => pending_put.mpr (.inr ?_)
      refine others_of_pending (fun hremedy => ?_) hpending
      have hname := Call.filename_of_remedy hremedy
      rcases hcall with hcall | hcall
      · cases hcall.symm.trans hname
      · exact heq (Option.some.inj (hname.symm.trans hcall))
  stored place hplace hsome := by
    by_cases heq : place = userFolder cwd username ++ [filename]
    · exact ⟨filename, hstored (heq ▸ hsome), heq⟩
    · rw [put_store, hdisk place hplace heq] at hsome
      exact h.stored place hplace hsome

/-- Only what the thread is about to do changes. -/
theorem Consistent.put_call {s : Editing} (h : s.Consistent cwd username) {thread : SessionThread}
    {call : Call} {filename : Bytes}
    (hcall : (s.call thread).filename = none ∨ (s.call thread).filename = some filename)
    (hsent : ∀ name, call.sent = some name → Storable username name)
    (hcovered : Storable username filename →
      Covered (fun remedy => call.remedy remedy = some filename ∨ s.Others thread filename remedy)
        (s.entry username filename) (s.store.disk (userFolder cwd username ++ [filename]))) :
    (s.put thread s.store call).Consistent cwd username := by
  refine h.put hcall h.known h.nodup (fun _ _ => rfl) (fun hlisted => ?_) hsent (fun _ _ _ => rfl)
    (fun hstored => ?_) hcovered
  · exact h.storable filename (mem_keys.mpr hlisted)
  · obtain ⟨name, hname, hplace⟩ := h.stored _ (strictlyInside_append _ _) hstored
    exact append_component_inj.mp hplace ▸ hname

/-- Where the call that comes next sets right what the last one did. -/
theorem Consistent.put_call_mono {s : Editing} (h : s.Consistent cwd username)
    {thread : SessionThread} {call : Call} {filename : Bytes}
    (hcall : (s.call thread).filename = none ∨ (s.call thread).filename = some filename)
    (hsent : ∀ name, call.sent = some name → Storable username name)
    (hremedy : ∀ remedy, (s.call thread).remedy remedy = some filename →
      call.remedy remedy = some filename) :
    (s.put thread s.store call).Consistent cwd username := by
  refine h.put_call hcall hsent fun hname => ?_
  refine (h.covered filename hname).mono fun remedy hpending => ?_
  exact ((pending_iff thread).mp hpending).imp_left (hremedy remedy)

theorem Consistent.put_list {s : Editing} (h : s.Consistent cwd username) {context : UserContext}
    (hfind : s.store.table.find username = some context) {thread : SessionThread}
    {list : List FileNode} {call : Call} {filename : Bytes}
    (hcall : (s.call thread).filename = none ∨ (s.call thread).filename = some filename)
    (hnodup : (keys list).Nodup)
    (hlisted : ∀ name, name ≠ filename → listed list name = s.entry username name)
    (hstorable : (listed list filename).isSome = true → Storable username filename)
    (hsent : ∀ name, call.sent = some name → Storable username name)
    (hcovered : Storable username filename →
      Covered (fun remedy => call.remedy remedy = some filename ∨ s.Others thread filename remedy)
        (listed list filename) (s.store.disk (userFolder cwd username ++ [filename]))) :
    (s.put thread { s.store with table := s.store.table.modify username (·.setFileList list) }
      call).Consistent cwd username := by
  have hreplaces := HashTable.replaces_modify hfind (·.setFileList list)
  have hlist := HashTable.fileList_of_find hreplaces.find
  refine h.put hcall (Option.isSome_of_eq_some hreplaces.find) (by rwa [hlist])
    (fun name hname => ?_) (fun hsome => hstorable ?_) hsent (fun _ _ _ => rfl)
    (fun hstored => ?_) (fun hname => ?_)
  · rw [hlist]
    exact hlisted name hname
  · rwa [hlist] at hsome
  · obtain ⟨name, hname, hplace⟩ := h.stored _ (strictlyInside_append _ _) hstored
    exact append_component_inj.mp hplace ▸ hname
  · rw [hlist]
    exact hcovered hname

theorem Consistent.put_disk {s : Editing} (h : s.Consistent cwd username) {thread : SessionThread}
    {disk : Disk (List Bytes)} {call : Call} {filename : Bytes}
    (hcall : (s.call thread).filename = none ∨ (s.call thread).filename = some filename)
    (hsent : ∀ name, call.sent = some name → Storable username name)
    (hdisk : ∀ place, StrictlyInside (userFolder cwd username) place →
      place ≠ userFolder cwd username ++ [filename] → disk place = s.store.disk place)
    (hstored : (disk (userFolder cwd username ++ [filename])).isSome = true →
      Storable username filename)
    (hcovered : Storable username filename →
      Covered (fun remedy => call.remedy remedy = some filename ∨ s.Others thread filename remedy)
        (s.entry username filename) (disk (userFolder cwd username ++ [filename]))) :
    (s.put thread { s.store with disk } call).Consistent cwd username :=
  h.put hcall h.known h.nodup (fun _ _ => rfl)
    (fun hsome => h.storable filename (mem_keys.mpr hsome)) hsent hdisk hstored hcovered

/-! ## Receiving -/

/-- What `handle_send_delete` leaves for each packet with which it returns. -/
inductive Begun (cwd : List Bytes) (username : Bytes) (access : FileAccess (List Bytes))
    (store : Store (List Bytes)) (packet : Packet) :
    PacketType → Store (List Bytes) → Call → Prop where
  | closed : Begun cwd username access store packet .connectionClosed store .ended
  | unopened {announcement} (h : packet.upload access.heap = some announcement) :
      Begun cwd username access store packet .send store (.statusOfSent announcement.filename)
  | written {announcement path} (h : packet.upload access.heap = some announcement)
      (hpath : (userFilepath username announcement.filename).map (resolve cwd) = some path)
      (content : Bytes) :
      Begun cwd username access store packet .send
        { store with disk := Function.update store.disk path (some content) }
        (.statusOfSent announcement.filename)
  | removed : Begun cwd username access store packet .delete
      { store with
        disk := removePath (resolve cwd) access
          (userFilepath username (cString packet.payload)) store.disk }
      (.statusOfDeleted (cString packet.payload))

theorem begun_of_beginTransfer {store store' : Store (List Bytes)} {socket : Socket} {call : Call}
    (h : beginTransfer cwd username access store socket = done (store', call)) :
    ∃ packet ∈ socket.readPacket.returned.bind Prod.fst,
      Begun cwd username access store packet packet.type store' call := by
  obtain ⟨⟨found, rest⟩, hread, hrest⟩ := bind_eq_done.mp h
  obtain ⟨packet, hpacket, htail⟩ := bind_eq_done.mp hrest
  obtain rfl := deref_eq_done.mp hpacket
  refine ⟨packet, by rw [hread]; rfl, ?_⟩
  obtain ⟨⟨filename, disk, left⟩, htransfer, hcall⟩ := bind_eq_done.mp htail
  unfold handleSendDelete at htransfer
  split at htransfer
  · rename_i htype
    split at htransfer
    · cases htransfer
      simp [htype] at hcall
    · rename_i hne
      obtain ⟨⟨name, disk₁, left₁⟩, hreceive, hreturn⟩ := bind_eq_done.mp htransfer
      cases hreturn
      obtain ⟨announcement, hannounced, hreceive⟩ := bind_eq_done.mp hreceive
      have hupload : packet.upload access.heap = some announcement := by
        rw [Packet.upload, if_neg hne, deref_eq_done.mp hannounced]
      obtain ⟨⟨disk₂, left₂⟩, hwrite, hreturn⟩ := bind_eq_done.mp hreceive
      cases hreturn
      simp only [htype, done.injEq, Prod.mk.injEq] at hcall
      obtain ⟨rfl, rfl⟩ := hcall
      rw [htype]
      unfold writePacketsToFile at hwrite
      split at hwrite
      · cases hwrite
        exact .unopened hupload
      · rename_i path hopened
        obtain ⟨⟨content, left₃⟩, -, hreturn⟩ := bind_eq_done.mp hwrite
        cases hreturn
        exact .written hupload (Option.filter_eq_some_iff.mp hopened).1 content
  · rename_i htype
    cases htransfer
    simp only [htype, done.injEq, Prod.mk.injEq] at hcall
    obtain ⟨rfl, rfl⟩ := hcall
    rw [htype]
    exact .removed
  · rename_i hsend hdelete
    cases htransfer
    dsimp only at hcall
    by_cases hclosed : packet.type = .connectionClosed
    · simp only [hclosed, done.injEq, Prod.mk.injEq] at hcall
      obtain ⟨rfl, rfl⟩ := hcall
      rw [hclosed]
      exact .closed
    · simp at hcall

theorem covered_none {pending : Remedy → Prop} (h : pending .answers) (content : Option Bytes) :
    Covered pending none content := by
  cases content with
  | none => trivial
  | some content => exact h

/-- The entry records the content. -/
theorem covered_crc {pending pending' : Remedy → Prop} {crc : UInt32} {content : Option Bytes}
    (hcovered : Covered pending (some crc) content) (h : pending .unlists → pending' .unlists) :
    Covered pending' (some (crc32 content)) content := by
  cases content with
  | none => exact h hcovered
  | some content => exact .inl rfl

/-- A file that was removed, with or without success. -/
theorem Consistent.put_removed {s : Editing} (h : s.Consistent cwd username)
    {thread : SessionThread} {call : Call} {filename : Bytes}
    (hcall : (s.call thread).filename = none ∨ (s.call thread).filename = some filename)
    (hsent : ∀ name, call.sent = some name → Storable username name)
    (hspares : Storable username filename ∨ s.Spares cwd username access filename)
    (hcovered : Storable username filename →
      Covered (fun remedy => call.remedy remedy = some filename ∨ s.Others thread filename remedy)
        (s.entry username filename)
        (if removable cwd username access filename then none else s.file cwd username filename)) :
    (s.put thread { s.store with
      disk := removePath (resolve cwd) access (userFilepath username filename) s.store.disk }
      call).Consistent cwd username := by
  refine h.put_disk hcall hsent (fun place hplace hne => ?_) (fun hsome => ?_) (fun hname => ?_)
  · rw [removePath_apply]
    split
    · rename_i hremoved
      rcases hspares with hname | hspares
      · rw [hname.resolve_userFilepath] at hremoved
        exact absurd (Option.some.inj hremoved.1).symm hne
      · exact (hspares place hremoved.1 hremoved.2 hplace).symm
    · rfl
  · rw [removePath_apply] at hsome
    split at hsome
    · cases hsome
    · obtain ⟨name, hname, hplace⟩ := h.stored _ (strictlyInside_append _ _) hsome
      exact append_component_inj.mp hplace ▸ hname
  · have hcovered := hcovered hname
    rw [removable, file, hname.resolve_userFilepath, hname.fileAt] at hcovered
    rw [removePath_apply, hname.resolve_userFilepath]
    simpa using hcovered

/-- What a thread receives only ever adds to what is to come. -/
theorem Consistent.begun {s : Editing} (h : s.Consistent cwd username) {thread : SessionThread}
    (hidle : s.call thread = .idle) {packet : Packet} {type : PacketType}
    {store : Store (List Bytes)} {call : Call}
    (hbegun : Begun cwd username access s.store packet type store call)
    (hfits : s.Fits cwd username access packet type) :
    (s.put thread store call).Consistent cwd username := by
  have hcall : (s.call thread).filename = none := by rw [hidle]; rfl
  have hnone : ∀ filename remedy, (s.call thread).remedy remedy ≠ some filename := by
    rw [hidle]
    rintro filename remedy hremedy
    cases Call.filename_of_remedy hremedy
  cases hbegun with
  | closed =>
      exact h.put_call_mono (.inl hcall) nofun fun _ (hremedy : _ = some []) =>
        absurd hremedy (hnone _ _)
  | @unopened announcement hannounced =>
      refine h.put_call_mono (.inl hcall) ?_ fun _ (hremedy : _ = some announcement.filename) =>
        absurd hremedy (hnone _ _)
      rintro _ ⟨⟩
      exact hfits _ hannounced
  | @written announcement path hannounced hpath content =>
      have hname := hfits _ hannounced
      rw [hname.resolve_userFilepath] at hpath
      cases hpath
      refine h.put_disk (.inl hcall) ?_ (fun place _ hplace => ?_)
        (fun _ => hname) (fun _ => ?_)
      · rintro _ ⟨⟩
        exact hname
      · exact Function.update_of_ne hplace ..
      · rw [Function.update_self]
        cases s.entry username announcement.filename with
        | none => exact .inl rfl
        | some crc => exact .inr (.inl rfl)
  | removed =>
      refine h.put_removed (.inl hcall) nofun hfits fun hname => ?_
      split
      · cases s.entry username (cString packet.payload) with
        | none => trivial
        | some crc => exact .inl rfl
      · rw [s.file_eq cwd hname]
        refine (h.covered _ hname).mono fun remedy hpending => .inr ?_
        exact others_of_pending (hnone _ _) hpending

/-! ## The next call -/

/-- With a name that is not listed only the file has to be looked after. -/
theorem Covered.of_none {pending pending' : Remedy → Prop} {content : Option Bytes}
    (hcovered : Covered pending none content) (h : pending .answers → pending' .answers) :
    Covered pending' none content := by
  cases content with
  | none => trivial
  | some content => exact h hcovered

/-- The operation ends where it was. -/
theorem Consistent.put_idle {s : Editing} (h : s.Consistent cwd username)
    {thread : SessionThread} {filename : Bytes}
    (hcall : (s.call thread).filename = none ∨ (s.call thread).filename = some filename)
    (hcovered : Storable username filename → Covered (s.Others thread filename)
      (s.entry username filename) (s.file cwd username filename)) :
    (s.put thread s.store .idle).Consistent cwd username := by
  refine h.put_call hcall nofun fun hname => ?_
  rw [← s.file_eq cwd hname]
  exact (hcovered hname).mono fun _ hothers => .inr hothers

section

variable {s : Editing} {thread : SessionThread} {filename : Bytes} {store : Store (List Bytes)}
  {call : Call}

theorem Consistent.status_of_sent (h : s.Consistent cwd username)
    (hc : s.call thread = .statusOfSent filename) {active : Bool}
    (hok : active = true ∨ (Storable username filename → Covered (s.Others thread filename)
      (s.entry username filename) (s.file cwd username filename)))
    (hnext : s.nextCall cwd username access active (.statusOfSent filename) = done (store, call)) :
    (s.put thread store call).Consistent cwd username := by
  have hname := h.sent thread filename (by rw [hc]; rfl)
  have hcall : (s.call thread).filename = some filename := by rw [hc]; rfl
  have hcovered := h.covered filename hname
  rw [← s.file_eq cwd hname] at hcovered
  rw [nextCall] at hnext
  split at hnext
  · cases hstatus : s.status cwd username filename with
    | notFound =>
        rw [hstatus] at hnext
        cases hnext
        refine h.put_call (.inr hcall) (by rintro _ ⟨⟩; exact hname) fun _ => ?_
        rw [show s.entry username filename = none from getFileStatus_eq_notFound.mp hstatus]
        exact covered_none (.inl rfl) _
    | updated =>
        rw [hstatus] at hnext
        cases hnext
        refine h.put_call_mono (.inr hcall) (by rintro _ ⟨⟩; exact hname) fun remedy hremedy => ?_
        rw [hc] at hremedy
        cases remedy with
        | updates => rfl
        | unlists => cases hremedy
        | answers => rfl
    | unchanged =>
        rw [hstatus] at hnext
        cases hnext
        have hentry : s.entry username filename = some (crc32 (s.file cwd username filename)) :=
          getFileStatus_eq_unchanged.mp hstatus
        refine h.put_idle (.inr hcall) fun _ => ?_
        rw [hentry] at hcovered ⊢
        exact covered_crc hcovered (others_of_pending (by rw [hc]; exact nofun))
  · rename_i hactive
    cases hnext
    exact h.put_idle (.inr hcall) (hok.resolve_left hactive)

theorem Consistent.add_file (h : s.Consistent cwd username)
    (hc : s.call thread = .addFile filename) (hentry : s.entry username filename = none)
    (hok : Covered (s.Others thread filename) (some (crc32 (s.file cwd username filename)))
      (s.file cwd username filename)) {active : Bool}
    (hnext : s.nextCall cwd username access active (.addFile filename) = done (store, call)) :
    (s.put thread store call).Consistent cwd username := by
  have hname := h.sent thread filename (by rw [hc]; rfl)
  obtain ⟨context, hfind⟩ := Option.isSome_iff_exists.mp h.known
  have hlist := HashTable.fileList_of_find hfind
  rw [nextCall, HashTable.addFileToContext_of_find hfind] at hnext
  cases hnext
  rw [entry, hlist] at hentry
  refine h.put_list hfind (.inr (by rw [hc]; rfl)) ?_ (fun name hne => ?_) (fun _ => hname) nofun
    (fun _ => ?_)
  · exact List.nodup_cons.mpr ⟨listed_eq_none.mp hentry, hlist ▸ h.nodup⟩
  · rw [listed_push, if_neg (Ne.symm hne), entry, hlist]
  · rw [listed_push, if_pos rfl, ← s.file_eq cwd hname]
    exact hok.mono fun _ hothers => .inr hothers

theorem Consistent.update_crc (h : s.Consistent cwd username)
    (hc : s.call thread = .updateCrc filename) {active : Bool}
    (hnext : s.nextCall cwd username access active (.updateCrc filename) = done (store, call)) :
    (s.put thread store call).Consistent cwd username := by
  have hname := h.sent thread filename (by rw [hc]; rfl)
  obtain ⟨context, hfind⟩ := Option.isSome_iff_exists.mp h.known
  have hlist := HashTable.fileList_of_find hfind
  obtain ⟨table, htable, hdone⟩ := bind_eq_done.mp hnext
  obtain ⟨node, hnode, -⟩ := bind_eq_done.mp htable
  have hcovered := h.covered filename hname
  have hlisted : listed context.fileList filename = some node.crc := by
    rw [← hlist, listed, deref_eq_done.mp hnode]
    rfl
  rw [HashTable.updateCrc_of_listed hfind hlisted] at htable
  cases htable
  cases hdone
  rw [entry, hlist, hlisted, ← s.file_eq cwd hname] at hcovered
  refine h.put_list hfind (.inr (by rw [hc]; rfl)) ?_ (fun name hne => ?_) (fun _ => hname)
    (by simp [Call.sent]) (fun _ => ?_)
  · rw [keys_setCrc, ← hlist]
    exact h.nodup
  · rw [listed_setCrc, if_neg (Ne.symm hne), entry, hlist]
  · rw [listed_setCrc, if_pos rfl, hlisted, ← s.file_eq cwd hname]
    exact covered_crc hcovered fun hpending =>
      .inr (others_of_pending (by simp [hc, Call.remedy]) hpending)

theorem Consistent.remove_entry (h : s.Consistent cwd username) {call' : Call}
    (hcall : (s.call thread).filename = some filename)
    (hsent : call'.sent = none)
    (hok : call'.remedy .answers = some filename ∨
      Covered (s.Others thread filename) none (s.file cwd username filename)) {table : HashTable}
    (htable : s.store.table.removeFileFromContext filename username = done table) :
    (s.put thread { s.store with table } call').Consistent cwd username := by
  obtain ⟨context, hfind⟩ := Option.isSome_iff_exists.mp h.known
  have hlist := HashTable.fileList_of_find hfind
  have hnodup := hlist ▸ h.nodup
  have hlisted : listed (removeFile context.fileList filename) filename = none := by
    rw [listed_removeFile hnodup, if_pos rfl]
  rw [HashTable.removeFileFromContext_of_find hfind] at htable
  cases htable
  refine h.put_list hfind (.inr hcall) (nodup_removeFile hnodup _) (fun name hne => ?_)
    (fun hsome => ?_) (fun name hname => ?_) (fun hname => ?_)
  · rw [listed_removeFile hnodup, if_neg (Ne.symm hne), entry, hlist]
  · rw [hlisted] at hsome
    cases hsome
  · rw [hsent] at hname
    cases hname
  · rw [hlisted, ← s.file_eq cwd hname]
    rcases hok with hanswers | hok
    · exact covered_none (.inl hanswers) _
    · exact hok.mono fun _ hothers => .inr hothers

theorem Consistent.status_of_deleted (h : s.Consistent cwd username)
    (hc : s.call thread = .statusOfDeleted filename) {active : Bool}
    (hok : active = true ∨ (Storable username filename → Covered (s.Others thread filename)
      (s.entry username filename) (s.file cwd username filename)))
    (hnext : s.nextCall cwd username access active (.statusOfDeleted filename) =
      done (store, call)) :
    (s.put thread store call).Consistent cwd username := by
  have hcall : (s.call thread).filename = some filename := by rw [hc]; rfl
  have hremove : (s.put thread s.store (.removeEntry filename)).Consistent cwd username := by
    refine h.put_call_mono (.inr hcall) nofun fun remedy hremedy => ?_
    rw [hc] at hremedy
    cases remedy with
    | updates => cases hremedy
    | unlists => rfl
    | answers => cases hremedy
  rw [nextCall] at hnext
  split at hnext
  · cases hstatus : s.status cwd username filename with
    | notFound =>
        rw [hstatus] at hnext
        cases hnext
        refine h.put_idle (.inr hcall) fun hname => ?_
        have hcovered := h.covered filename hname
        have hentry : s.entry username filename = none := getFileStatus_eq_notFound.mp hstatus
        rw [hentry, ← s.file_eq cwd hname] at hcovered
        rw [hentry]
        exact hcovered.of_none (others_of_pending (by rw [hc]; exact nofun))
    | updated =>
        rw [hstatus] at hnext
        cases hnext
        exact hremove
    | unchanged =>
        rw [hstatus] at hnext
        cases hnext
        exact hremove
  · rename_i hactive
    cases hnext
    exact h.put_idle (.inr hcall) (hok.resolve_left hactive)

theorem Consistent.status_of_command (h : s.Consistent cwd username)
    (hc : s.call thread = .statusOfCommand filename) {active : Bool}
    (hnext : s.nextCall cwd username access active (.statusOfCommand filename) =
      done (store, call)) :
    (s.put thread store call).Consistent cwd username := by
  have hcall : (s.call thread).filename = some filename := by rw [hc]; rfl
  have hremove :
      (s.put thread s.store (.removeEntryOfCommand filename)).Consistent cwd username := by
    refine h.put_call_mono (.inr hcall) nofun fun remedy hremedy => ?_
    rw [hc] at hremedy
    cases remedy with
    | updates => cases hremedy
    | unlists => rfl
    | answers => rfl
  rw [nextCall] at hnext
  cases hstatus : s.status cwd username filename with
  | notFound =>
      rw [hstatus] at hnext
      cases hnext
      refine h.put_call (.inr hcall) nofun fun _ => ?_
      rw [show s.entry username filename = none from getFileStatus_eq_notFound.mp hstatus]
      exact covered_none (.inl rfl) _
  | updated =>
      rw [hstatus] at hnext
      cases hnext
      exact hremove
  | unchanged =>
      rw [hstatus] at hnext
      cases hnext
      exact hremove

/-- The next call of a thread, whatever it is. -/
theorem Consistent.proceed (h : s.Consistent cwd username)
    (hok : s.OrderlyCall cwd username thread access (s.call thread)) {session : Session}
    (hsession : s.store.session username thread.1 = some session)
    (hnext : s.nextCall cwd username access session.active (s.call thread) = done (store, call)) :
    (s.put thread store call).Consistent cwd username := by
  cases hc : s.call thread with
  | idle | ended =>
      rw [hc] at hnext
      cases hnext
  | statusOfSent filename =>
      rw [hc] at hok hnext
      rw [OrderlyCall, hsession] at hok
      exact h.status_of_sent hc hok hnext
  | addFile filename =>
      rw [hc] at hok hnext
      exact h.add_file hc hok.1 hok.2 hnext
  | updateCrc filename =>
      rw [hc] at hnext
      exact h.update_crc hc hnext
  | statusOfDeleted filename =>
      rw [hc] at hok hnext
      rw [OrderlyCall, hsession] at hok
      exact h.status_of_deleted hc hok hnext
  | removeEntry filename =>
      rw [hc] at hok hnext
      obtain ⟨table, htable, hdone⟩ := bind_eq_done.mp hnext
      cases hdone
      exact h.remove_entry (by rw [hc]; rfl) rfl (.inr hok) htable
  | statusOfCommand filename =>
      rw [hc] at hnext
      exact h.status_of_command hc hnext
  | removeEntryOfCommand filename =>
      rw [hc] at hnext
      obtain ⟨table, htable, hdone⟩ := bind_eq_done.mp hnext
      cases hdone
      exact h.remove_entry (by rw [hc]; rfl) rfl (.inl rfl) htable
  | removeFile filename =>
      rw [hc] at hok hnext
      cases hnext
      refine h.put_removed (.inr (by rw [hc]; rfl)) nofun ?_ fun hname => ?_
      · by_cases hname : Storable username filename
        · exact .inl hname
        · exact .inr (hok.2 hname)
      · exact (hok.1 hname).mono fun _ hothers => .inr hothers

end

/-! ## Runs -/

/-- Sessions may change; the list of the user stays. -/
theorem Consistent.modify {s : Editing} (h : s.Consistent cwd username)
    {f : UserContext → UserContext} (hf : ∀ context, (f context).fileList = context.fileList) :
    Consistent cwd username
      { s with store := { s.store with table := s.store.table.modify username f } } := by
  obtain ⟨context, hfind⟩ := Option.isSome_iff_exists.mp h.known
  have hreplaces := HashTable.replaces_modify hfind f
  have hlist : (s.store.table.modify username f).fileList username =
      s.store.table.fileList username := by
    rw [HashTable.fileList_of_find hreplaces.find, hf, HashTable.fileList_of_find hfind]
  refine ⟨Option.isSome_of_eq_some hreplaces.find, ?_, ?_, h.sent, fun name hname => ?_, h.stored⟩
  · rw [hlist]
    exact h.nodup
  · rw [hlist]
    exact h.storable
  · rw [entry, hlist]
    exact h.covered name hname

theorem consistent_of_step {s t : Editing} {action : EditAction} (h : s.Consistent cwd username)
    (hok : s.Orderly cwd username action) (hstep : step cwd username s action = some t) :
    t.Consistent cwd username := by
  cases action with
  | incoming slot access socket =>
      obtain ⟨session, -, hstep⟩ := Option.bind_eq_some_iff.mp hstep
      split at hstep
      · rename_i hidle
        obtain ⟨⟨store, call⟩, hbegin, rfl⟩ := Option.map_eq_some_iff.mp hstep
        obtain ⟨packet, hpacket, hbegun⟩ := begun_of_beginTransfer (returned_eq_some.mp hbegin)
        exact h.begun hidle hbegun (hok packet hpacket)
      · cases hstep
  | command slot access payload =>
      obtain ⟨session, -, hstep⟩ := Option.bind_eq_some_iff.mp hstep
      split at hstep
      · rename_i hidle
        cases hstep
        refine h.put_call_mono (.inl (by rw [hidle.2]; rfl)) ?_
          fun remedy (hremedy : _ = some []) => ?_
        · split <;> nofun
        · rw [hidle.2] at hremedy
          cases Call.filename_of_remedy hremedy
      · cases hstep
  | proceed thread access =>
      obtain ⟨session, hsession, hstep⟩ := Option.bind_eq_some_iff.mp hstep
      obtain ⟨⟨store, call⟩, hnext, rfl⟩ := Option.map_eq_some_iff.mp hstep
      exact h.proceed hok hsession (returned_eq_some.mp hnext)
  | exit slot =>
      obtain ⟨session, -, hstep⟩ := Option.bind_eq_some_iff.mp hstep
      split at hstep
      · cases hstep
        exact h.modify fun _ => rfl
      · cases hstep
  | leave slot =>
      obtain ⟨session, -, hstep⟩ := Option.bind_eq_some_iff.mp hstep
      split at hstep
      · cases hstep
        exact h.modify fun _ => rfl
      · cases hstep

theorem consistent_of_mirrors {s : Editing}
    (hknown : (s.store.table.find username).isSome = true)
    (hmirrors : Mirrors (userFolder cwd username) (s.store.table.fileList username) s.store.disk)
    (hstorable : ∀ name ∈ keys (s.store.table.fileList username), Storable username name)
    (hquiet : s.Quiet) : s.Consistent cwd username where
  known := hknown
  nodup := hmirrors.nodup
  storable := hstorable
  sent thread name hsent := by
    rcases hquiet thread with hcall | hcall
    · rw [hcall] at hsent
      cases hsent
    · rw [hcall] at hsent
      cases hsent
  covered name hname := by
    rw [entry, hmirrors.listed name hname.1]
    cases s.store.disk (userFolder cwd username ++ [name]) with
    | none => trivial
    | some content => exact .inl rfl
  stored place hplace hsome := by
    obtain ⟨name, hname, rfl⟩ := hmirrors.stored place hplace hsome
    refine ⟨name, hstorable name (mem_keys.mpr ?_), rfl⟩
    rw [hmirrors.listed name hname, Option.isSome_map, hsome]

/-- Nothing is to come any more. -/
theorem Consistent.mirrors {s : Editing} (h : s.Consistent cwd username) (hquiet : s.Quiet) :
    Mirrors (userFolder cwd username) (s.store.table.fileList username) s.store.disk where
  nodup := h.nodup
  component name hmem := (h.storable name hmem).1
  listed name _ := by
    by_cases hname : Storable username name
    · refine covered_iff_of_none (fun remedy hpending => ?_) (h.covered name hname)
      obtain ⟨thread, hremedy⟩ := hpending
      have hfilename := Call.filename_of_remedy hremedy
      rcases hquiet thread with hcall | hcall
      · rw [hcall] at hfilename
        cases hfilename
      · rw [hcall] at hfilename
        cases hfilename
    · have hlisted : listed (s.store.table.fileList username) name = none :=
        listed_eq_none.mpr fun hmem => hname (h.storable name hmem)
      cases hdisk : s.store.disk (userFolder cwd username ++ [name]) with
      | none => exact hlisted
      | some content =>
          obtain ⟨other, hother, hplace⟩ :=
            h.stored _ (strictlyInside_append _ name) (by rw [hdisk]; rfl)
          exact absurd (append_component_inj.mp hplace ▸ hother) hname
  stored place hplace hsome := by
    obtain ⟨name, hname, hplace⟩ := h.stored place hplace hsome
    exact ⟨name, hname.1, hplace⟩

/-- Along every run whose steps go well, the list mirrors the folder whenever no operation is in
progress. -/
theorem quiet_mirrored {s : Editing} (hknown : (s.store.table.find username).isSome = true)
    (hmirrors : Mirrors (userFolder cwd username) (s.store.table.fileList username) s.store.disk)
    (hstorable : ∀ name ∈ keys (s.store.table.fileList username), Storable username name)
    (hquiet : s.Quiet) {actions : List EditAction}
    (hok : Along (step cwd username) (Orderly cwd username) s actions) :
    Always (step cwd username)
      (fun t => t.Quiet →
        Mirrors (userFolder cwd username) (t.store.table.fileList username) t.store.disk)
      s actions :=
  (Along.always (fun _ _ _ h hok hstep => consistent_of_step h hok hstep)
    (consistent_of_mirrors hknown hmirrors hstorable hquiet) hok).mono fun _ h => h.mirrors

end

/-- The threads of two sessions of a user with an empty folder. -/
def twoSessions : Editing := ⟨SharedFiles.twoSessions.store, fun _ => .idle⟩

/-- Two uploads of a file and a deletion by command, the second upload between the calls of the
first, and a third upload between those of the deletion. -/
def crossing : List EditAction :=
  [.incoming 0 .granted (uploadSocket [102] [[104]]),
    .incoming 1 .granted (uploadSocket [102] [[105]]),
    .proceed (0, .receive) .granted, .proceed (0, .receive) .granted,
    .proceed (1, .receive) .granted, .command 0 .granted [102],
    .incoming 1 .granted (uploadSocket [102] [[106]]), .proceed (1, .receive) .granted,
    .proceed (0, .interface) .granted, .proceed (1, .receive) .granted,
    .proceed (0, .interface) .granted, .proceed (0, .interface) .granted]

theorem quiet_mirrored_of_crossing : ∃ t ∈ run (step [] [97]) twoSessions crossing,
    Mirrors (userFolder [] [97]) (t.store.table.fileList [97]) t.store.disk := by
  obtain ⟨t, ht, hquiet⟩ := show ∃ t ∈ run (step [] [97]) twoSessions crossing, t.Quiet by
    decide +kernel
  have hempty : Mirrors (userFolder [] [97]) (twoSessions.store.table.fileList [97])
      twoSessions.store.disk := mirrors_nil fun _ _ => rfl
  exact ⟨t, ht, (quiet_mirrored (by decide +kernel) hempty (by decide +kernel)
    (by decide +kernel) (by decide +kernel)).last ht hquiet⟩

/-- Two uploads of a new file. Both threads find it not listed, and both add it. -/
def simultaneous : List EditAction :=
  [.incoming 0 .granted (uploadSocket [102] [[104]]),
    .incoming 1 .granted (uploadSocket [102] [[105]]),
    .proceed (0, .receive) .granted, .proceed (1, .receive) .granted,
    .proceed (0, .receive) .granted, .proceed (1, .receive) .granted]

theorem simultaneous_not_mirrored : ¬Always (step [] [97])
    (fun t => t.Quiet →
      Mirrors (userFolder [] [97]) (t.store.table.fileList [97]) t.store.disk)
    twoSessions simultaneous := by
  intro h
  obtain ⟨t, ht, hquiet, hkeys⟩ := show ∃ t ∈ run (step [] [97]) twoSessions simultaneous,
    t.Quiet ∧ ¬(keys (t.store.table.fileList [97])).Nodup by decide +kernel
  exact hkeys (h.last ht hquiet).nodup

end Editing

end SyncServer
