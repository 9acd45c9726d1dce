import SyncServer.Files.WatchedClients
import SyncServer.Replication.Simulation

/-! # The files of the clients on a replica

While the clients of a user edit their folders, the manager tells a replica of each file that it
takes and of each that it deletes. What a client has at rest is then also what the replica has,
and would have as the next manager. The calls of the manager run one after the other.
-/

namespace SyncServer

open CText Ending PathNames Transition

/-- The clients with the manager, what it has sent and the replica has not read, and the replica. -/
structure ReplicatedClients where
  clients : WatchedClients
  stream : List Packet
  backup : Store (List Bytes)

inductive ReplicatedAction where
  | clients (action : WatchedAction)
  | heartbeat
  | iterate

def ReplicatedAction.Sized : ReplicatedAction → Prop
  | clients action => action.Sized
  | heartbeat | iterate => True

instance : (action : ReplicatedAction) → Decidable action.Sized
  | .clients action => inferInstanceAs (Decidable action.Sized)
  | .heartbeat | .iterate => inferInstanceAs (Decidable True)

def ReplicatedAction.commander : ReplicatedAction → Option (Fin maxSessions)
  | clients action => action.commander
  | heartbeat | iterate => none

namespace ReplicatedClients

section

variable (cwd : List Bytes) (access backupAccess : FileAccess (List Bytes)) (username : Bytes)

/-- The event for the replica, if the manager handles a file or a command in the step. -/
def event (s : Requesting) : RequestAction → Option ReplicaEvent
  | .sync (.serve i) =>
      (s.sync.up i).head?.bind fun message =>
        (s.sync.activeSession username i).bind fun session =>
          (handleIncomingFile Socket.readPacket (resolve cwd) access true username session
            s.sync.store message.socket).returned.bind Handled.event
  | .answer i =>
      (s.asked i).head?.bind fun name =>
        (s.sync.activeSession username i).bind fun session =>
          (interface Socket.readPacket (resolve cwd) access true username session s.sync.store
            (deleteSocket name.name)).returned.bind Handled.event
  | _ => none

def watchedEvent (s : WatchedClients) : WatchedAction → Option ReplicaEvent
  | .others action => event cwd access username s.system action
  | .read _ _ | .handle _ => none

/-- The manager and the replica alone. -/
def replication (s : ReplicatedClients) : Replication (List Bytes) :=
  ⟨s.clients.system.sync.store, s.stream, s.backup⟩

def withReplication (s : ReplicatedClients) (r : Replication (List Bytes)) : ReplicatedClients :=
  { s with stream := r.stream, backup := r.backup }

def step (s : ReplicatedClients) : ReplicatedAction → Option ReplicatedClients
  | .clients action =>
      (s.clients.step cwd access username action).map fun clients =>
        { s with
          clients
          stream := s.stream ++ ((watchedEvent cwd access username s.clients action).map
            (sendEvent (resolve cwd) clients.system.sync.store.disk)).getD [] }
  | .heartbeat =>
      (s.replication.step (resolve cwd) access backupAccess .heartbeat).map s.withReplication
  | .iterate =>
      (s.replication.step (resolve cwd) access backupAccess .iterate).map s.withReplication

def stepWithCommanders :
    (Bytes → Option (Fin maxSessions)) × ReplicatedClients → ReplicatedAction →
      Option ((Bytes → Option (Fin maxSessions)) × ReplicatedClients)
  | (commanders, s), action =>
      (s.step cwd access backupAccess username action).map fun t =>
        (s.clients.system.sync.commandersAfter cwd username t.clients.system.sync
          action.commander commanders, t)

end

/-! ## Steps of the manager -/

section

variable {cwd : List Bytes} {access backupAccess : FileAccess (List Bytes)} {username : Username}

theorem removed_of_storable {name : Bytes} (hname : Storable username.name name)
    (hgrants : access.Grants (userFolder cwd username.name))
    (hbackup : backupAccess.Grants (userFolder cwd username.name)) :
    Replication.Removed (resolve cwd) access backupAccess (userFilepath username.name name) := by
  rw [Replication.Removed, hname.resolve_userFilepath, Option.any_some,
    (hgrants name hname.1).2.1, (hbackup name hname.1).2.1]
  rfl

/-- What a step does to the manager: nothing, or an operation of a client. -/
def Operates (cwd : List Bytes) (access backupAccess : FileAccess (List Bytes))
    (manager manager' : Store (List Bytes)) (event : Option ReplicaEvent) : Prop :=
  manager' = manager ∧ event = none ∨
    ∃ operation, (∀ stream backup, Replication.Promised (resolve cwd) access backupAccess
      ⟨manager, stream, backup⟩ (.operate operation)) ∧
      manager.operate (resolve cwd) access operation = some (manager', event)

variable {untold : Bytes → Fin maxSessions → Prop} {s t : Requesting}

theorem operates_of_serve (hgrants : access.Grants (userFolder cwd username.name))
    (hbackup : backupAccess.Grants (userFolder cwd username.name))
    (h : s.sync.Upheld cwd username untold) {i : Fin maxSessions}
    (hstep : s.step cwd access username.name (.sync (.serve i)) = some t) :
    Operates cwd access backupAccess s.sync.store t.sync.store
      (event cwd access username.name s (.sync (.serve i))) := by
  obtain ⟨sync, hsync, rfl⟩ := Option.map_eq_some_iff.mp hstep
  rw [Echoing.step] at hsync
  split at hsync
  · cases hsync
  · rename_i message rest hhead
    obtain ⟨session, hsession, hsync⟩ := Option.bind_eq_some_iff.mp hsync
    obtain ⟨handled, hhandled, rfl⟩ := Option.map_eq_some_iff.mp hsync
    have hmem : message ∈ s.sync.up i := hhead ▸ List.mem_cons_self
    have hname := h.kept.named.up i message hmem
    obtain ⟨hfound, hactive⟩ := Echoing.activeSession_eq_some.mp hsession
    have hevent : event cwd access username.name s (.sync (.serve i)) = handled.event := by
      simp only [event, hhead, List.head?_cons, Option.bind_some, hsession, hhandled]
    rw [hevent]
    right
    cases message with
    | upload name content echo =>
        have hname : Storable username.name name := hname
        have hcount : numPackets content.length = chunkCount content.length :=
          numPackets_eq ((chunkCount_lt_iff _).mpr (h.sized_up hmem content rfl))
        have hopened := hname.opened hgrants
        have hstored := @handleIncomingFile_sendFile _ _ (resolve cwd) access username.name name _
          true session s.sync.store content hname.2.1 hopened hcount []
        rw [List.append_nil] at hstored
        have hrest : handled.rest.packets = [] := by
          have hdone := hstored.symm.trans (returned_eq_some.mp hhandled)
          obtain ⟨table, -, hdone⟩ := bind_eq_done.mp hdone
          cases hdone
          rfl
        refine ⟨.upload username.name i name content, fun _ _ => ⟨hname.2.1, ?_, ?_⟩, ?_⟩
        · exact Option.isSome_of_eq_some hopened
        · exact Option.isSome_of_eq_some (hname.opened hbackup)
        · refine Option.bind_eq_some_iff.mpr ⟨session, hfound, ?_⟩
          refine Option.bind_eq_some_iff.mpr ⟨handled, hhandled, ?_⟩
          rw [if_pos hrest]
    | delete name =>
        have hname : Storable username.name name := hname
        refine ⟨.deletion username.name i (createTextPacket .delete name), fun _ _ => ?_, ?_⟩
        · rw [Replication.Promised, SharedFiles.payload_delete hname]
          exact removed_of_storable hname hgrants hbackup
        · have htype : (createTextPacket .delete name).type = .delete := rfl
          rw [Store.operate, if_pos htype]
          refine Option.bind_eq_some_iff.mpr ⟨session, hfound, ?_⟩
          exact Option.map_eq_some_iff.mpr ⟨handled, hhandled, rfl⟩

theorem operates_of_answer (hgrants : access.Grants (userFolder cwd username.name))
    (hbackup : backupAccess.Grants (userFolder cwd username.name)) {i : Fin maxSessions}
    (hstep : s.step cwd access username.name (.answer i) = some t) :
    Operates cwd access backupAccess s.sync.store t.sync.store
      (event cwd access username.name s (.answer i)) := by
  rw [Requesting.step] at hstep
  split at hstep
  · cases hstep
  · rename_i name rest hasked
    obtain ⟨session, hsession, hstep⟩ := Option.bind_eq_some_iff.mp hstep
    obtain ⟨handled, hhandled, rfl⟩ := Option.map_eq_some_iff.mp hstep
    have hname := name.storable username
    have hevent : event cwd access username.name s (.answer i) = handled.event := by
      simp only [event, hasked, List.head?_cons, Option.bind_some, hsession, hhandled]
    rw [hevent]
    refine .inr ⟨.command username.name i (createTextPacket .delete name.name),
      fun _ _ _ _ => ?_, ?_⟩
    · rw [SharedFiles.payload_delete hname]
      exact removed_of_storable hname hgrants hbackup
    · refine Option.bind_eq_some_iff.mpr
        ⟨session, (Echoing.activeSession_eq_some.mp hsession).1, ?_⟩
      exact Option.map_eq_some_iff.mpr ⟨handled, hhandled, rfl⟩

theorem operates_of_step (hgrants : access.Grants (userFolder cwd username.name))
    (hbackup : backupAccess.Grants (userFolder cwd username.name))
    (h : s.sync.Upheld cwd username untold) {action : RequestAction}
    (hstep : s.step cwd access username.name action = some t) :
    Operates cwd access backupAccess s.sync.store t.sync.store
      (event cwd access username.name s action) := by
  cases action with
  | sync action =>
      cases action with
      | serve i => exact operates_of_serve hgrants hbackup h hstep
      | deliver i =>
          obtain ⟨sync, hsync, rfl⟩ := Option.map_eq_some_iff.mp hstep
          obtain ⟨session, hsession, hsync⟩ := Option.bind_eq_some_iff.mp hsync
          obtain ⟨⟨entry, session'⟩, hnext, rfl⟩ := Option.map_eq_some_iff.mp hsync
          refine .inr ⟨.deliver username.name i, fun _ _ => trivial, ?_⟩
          refine Option.bind_eq_some_iff.mpr
            ⟨session, (Echoing.activeSession_eq_some.mp hsession).1, ?_⟩
          exact Option.map_eq_some_iff.mpr ⟨_, hnext, rfl⟩
      | edit i change | watch i =>
          obtain ⟨sync, hsync, rfl⟩ := Option.map_eq_some_iff.mp hstep
          obtain ⟨_, -, rfl⟩ := Option.map_eq_some_iff.mp hsync
          exact .inl ⟨rfl, rfl⟩
      | receive i =>
          obtain ⟨sync, hsync, rfl⟩ := Option.map_eq_some_iff.mp hstep
          rw [Echoing.step] at hsync
          split at hsync
          · cases hsync
          · obtain ⟨client, -, rfl⟩ := Option.map_eq_some_iff.mp hsync
            exact .inl ⟨rfl, rfl⟩
  | request i name =>
      obtain rfl := Option.some.inj hstep
      exact .inl ⟨rfl, rfl⟩
  | answer i => exact operates_of_answer hgrants hbackup hstep

end

/-! ## Every run -/

section

variable {cwd : List Bytes} {access backupAccess : FileAccess (List Bytes)} {username : Username}
  {s t : ReplicatedClients} {commanders : Bytes → Option (Fin maxSessions)}

/-- The replica can follow the manager in what it does for the clients. -/
theorem follows_of_operates {manager manager' : Store (List Bytes)} {stream : List Packet}
    {backup : Store (List Bytes)} {event : Option ReplicaEvent}
    (h : Replication.Follows (resolve cwd) backupAccess ⟨manager, stream, backup⟩)
    (hoperates : Operates cwd access backupAccess manager manager' event) :
    Replication.Follows (resolve cwd) backupAccess
      ⟨manager', stream ++ (event.map (sendEvent (resolve cwd) manager'.disk)).getD [],
        backup⟩ := by
  rcases hoperates with ⟨rfl, rfl⟩ | ⟨operation, hpromised, hoperate⟩
  · simpa using h
  · have hstep : Replication.step (resolve cwd) access backupAccess ⟨manager, stream, backup⟩
        (.operate operation) = some ⟨manager',
          stream ++ (event.map (sendEvent (resolve cwd) manager'.disk)).getD [], backup⟩ := by
      simp only [Replication.step, hoperate, Option.map_some]
    exact Replication.follows_step h (hpromised stream backup) hstep

theorem operates_of_watched (hgrants : access.Grants (userFolder cwd username.name))
    (hbackup : backupAccess.Grants (userFolder cwd username.name)) {s t : WatchedClients}
    (h : s.Upheld cwd username commanders) {action : WatchedAction}
    (hstep : s.step cwd access username.name action = some t) :
    Operates cwd access backupAccess s.system.sync.store t.system.sync.store
      (watchedEvent cwd access username.name s action) := by
  cases action with
  | others action =>
      obtain ⟨hwatch, hstep⟩ := Option.ite_none_left_eq_some.mp hstep
      obtain ⟨system, hsystem, rfl⟩ := Option.map_eq_some_iff.mp hstep
      obtain ⟨events, -, hupheld⟩ := h
      have hgiven := WatchedClients.step_given (Bool.eq_false_iff.mpr hwatch) events hsystem
      have hoperates := operates_of_step hgrants hbackup hupheld hgiven
      cases action with
      | sync action => cases action <;> exact hoperates
      | request i name | answer i => exact hoperates
  | read i events | handle i =>
      obtain ⟨w, -, rfl⟩ := Option.map_eq_some_iff.mp hstep
      exact .inl ⟨rfl, rfl⟩

/-- What every step keeps: the clients settle, and the replica follows. -/
structure Upheld (cwd : List Bytes) (backupAccess : FileAccess (List Bytes)) (username : Username)
    (commanders : Bytes → Option (Fin maxSessions)) (s : ReplicatedClients) : Prop where
  clients : s.clients.Upheld cwd username commanders
  replica : s.replication.Follows (resolve cwd) backupAccess

/-- A step of the replication alone. -/
theorem Upheld.replicate (h : s.Upheld cwd backupAccess username commanders)
    {a : Replication.Action} (ha : a = .heartbeat ∨ a = .iterate)
    {r : Replication (List Bytes)}
    (hr : s.replication.step (resolve cwd) access backupAccess a = some r) :
    (s.withReplication r).Upheld cwd backupAccess username
      (s.clients.system.sync.commandersAfter cwd username.name s.clients.system.sync none
        commanders) := by
  obtain ⟨events, hholds, hupheld⟩ := h.clients
  have hclients : s.clients.Upheld cwd username (s.clients.system.sync.commandersAfter cwd
      username.name s.clients.system.sync none commanders) := by
    refine ⟨events, hholds, hupheld.untold_of fun name i hgone huntold => ?_⟩
    have hcontent : s.clients.system.sync.content cwd username.name name = none := hgone
    simpa [Requesting.Untold, Echoing.commandersAfter, hcontent] using huntold
  have hpromised : s.replication.Promised (resolve cwd) access backupAccess a := by
    rcases ha with rfl | rfl <;> trivial
  have hfollows := Replication.follows_step h.replica hpromised hr
  rcases ha with rfl | rfl
  · obtain rfl := Option.some.inj hr
    exact ⟨hclients, hfollows⟩
  · obtain ⟨⟨backup, rest⟩, -, rfl⟩ := Option.map_eq_some_iff.mp hr
    exact ⟨hclients, hfollows⟩

theorem upheld_of_step (hgrants : access.Grants (userFolder cwd username.name))
    (hbackup : backupAccess.Grants (userFolder cwd username.name))
    (h : s.Upheld cwd backupAccess username commanders) {action : ReplicatedAction}
    (hsized : action.Sized)
    (hstep : s.step cwd access backupAccess username.name action = some t) :
    t.Upheld cwd backupAccess username (s.clients.system.sync.commandersAfter cwd username.name
      t.clients.system.sync action.commander commanders) := by
  cases action with
  | clients action =>
      obtain ⟨clients, hclients, rfl⟩ := Option.map_eq_some_iff.mp hstep
      refine ⟨WatchedClients.upheld_of_step hgrants h.clients hsized hclients, ?_⟩
      exact follows_of_operates h.replica
        (operates_of_watched hgrants hbackup h.clients hclients)
  | heartbeat =>
      rw [step] at hstep
      obtain ⟨r, hr, rfl⟩ := Option.map_eq_some_iff.mp hstep
      exact h.replicate (.inl rfl) hr
  | iterate =>
      rw [step] at hstep
      obtain ⟨r, hr, rfl⟩ := Option.map_eq_some_iff.mp hstep
      exact h.replicate (.inr rfl) hr

/-- A replica that has read all that was sent is where the manager is. -/
theorem related_of_follows {r : Replication (List Bytes)}
    (h : r.Follows (resolve cwd) backupAccess) (hstream : r.stream = []) :
    Related r.manager r.backup := by
  obtain ⟨store, hreaches, hcaught⟩ := h
  obtain ⟨manager, stream, backup⟩ := r
  obtain rfl : stream = [] := hstream
  obtain ⟨n, hrun⟩ : ∃ n, run (Replication.step (resolve cwd) backupAccess backupAccess)
      ⟨manager, [], backup⟩ (List.replicate n .iterate) = some ⟨manager, [], store⟩ :=
    hreaches.iterate manager
  cases n with
  | zero =>
      cases hrun
      exact hcaught.related
  | succ n =>
      obtain ⟨_, hstep, -⟩ := run_cons_eq_some.mp hrun
      rw [Replication.step_iterate_nil rfl] at hstep
      cases hstep

theorem fileList_of_related {manager backup : Store (List Bytes)} (h : Related manager backup)
    (name : Bytes) : backup.table.fileList name = manager.table.fileList name := by
  have husers := h.users name
  rw [HashTable.fileList, HashTable.fileList]
  cases hfind : manager.table.find name with
  | none =>
      have hnone := isSome_of_rel husers
      rw [hfind, Option.isSome_none, Option.isSome_eq_false_iff, Option.isNone_iff_eq_none] at hnone
      rw [hnone]
  | some context =>
      obtain ⟨context', hfind', hsame⟩ := exists_of_rel husers hfind
      rw [hfind']
      exact hsame.fileList.symm

/-- In every run in which the clients edit their folders while a replica follows the manager, the
replica can read all that was sent and then has what the manager has. When it has read all, a
client at rest about a name has the file that the replica stores and lists, unless it had it deleted
by command and nobody has changed it since. -/
theorem replica_converges (hgrants : access.Grants (userFolder cwd username.name))
    (hbackup : backupAccess.Grants (userFolder cwd username.name))
    (hfresh : s.clients.system.sync.Fresh cwd username.name)
    (hsynced : s.clients.system.sync.Synced cwd username.name)
    (hidle : ∀ i, (s.clients.watcher i).length = 0 ∧ (s.clients.watcher i).i = 0)
    (hstream : s.stream = []) (hcaught : CaughtUp s.clients.system.sync.store s.backup)
    {actions : List ReplicatedAction}
    (hsized : Along (stepWithCommanders cwd access backupAccess username.name)
      (fun _ a => a.Sized) (fun _ => none, s) actions)
    (hrun : run (stepWithCommanders cwd access backupAccess username.name) (fun _ => none, s)
      actions = some (commanders, t)) :
    (∃ n backup, run (Replication.step (resolve cwd) access backupAccess) t.replication
      (List.replicate n .iterate) = some ⟨t.clients.system.sync.store, [], backup⟩ ∧
        Related t.clients.system.sync.store backup) ∧
    (t.stream = [] → ∀ (i : Fin maxSessions) (name : EntryName),
      (t.clients.watcher i).length ≤ (t.clients.watcher i).i →
      t.clients.system.sync.AtRest username.name i name.name →
      (((t.clients.system.sync.client i).content name.name).map contentCrc =
            (fileAt (resolve cwd) (userFilepath username.name name.name) t.backup.disk).map
              contentCrc ∨
          fileAt (resolve cwd) (userFilepath username.name name.name) t.backup.disk = none ∧
            commanders name.name = some i) ∧
        listed (t.backup.table.fileList username.name) name.name =
          (fileAt (resolve cwd) (userFilepath username.name name.name) t.backup.disk).map
            contentCrc) := by
  have hinitial : s.Upheld cwd backupAccess username fun _ => none := by
    refine ⟨WatchedClients.upheld_initial hfresh hsynced hidle, s.backup, ?_, hcaught⟩
    rw [replication, hstream]
    exact .nil s.backup
  have hupheld := hsized.invariant
    (I := fun p => p.2.Upheld cwd backupAccess username p.1)
    (by
      rintro ⟨commanders, s⟩ action ⟨commanders', t⟩ h ha hstep
      obtain ⟨u, hu, heq⟩ := Option.map_eq_some_iff.mp hstep
      cases heq
      exact upheld_of_step hgrants hbackup h ha hu)
    hinitial hrun
  obtain ⟨store, hreaches, hcaught⟩ := hupheld.replica
  refine ⟨?_, fun hread i name hover hrest => ?_⟩
  · obtain ⟨n, hrun⟩ := hreaches.iterate t.clients.system.sync.store
    exact ⟨n, store, hrun, hcaught.related⟩
  · have hrelated : Related t.clients.system.sync.store t.backup :=
      related_of_follows hupheld.replica hread
    rw [fileList_of_related hrelated, ← hrelated.disk]
    exact hupheld.clients.settled hover hrest

end

/-- A manager that two clients of a user have connected to, from two ports of the local host. -/
def connectedStore : Store (List Bytes) where
  table := HashTable.create.insert [97]
    (((createContext [97]).addSession (createSession 0 ⟨⟨127, 0, 0, 1⟩, 5001⟩)).addSession
      (createSession 1 ⟨⟨127, 0, 0, 1⟩, 5002⟩))
  disk _ := none

def connectedClients : ReplicatedClients where
  clients := ⟨⟨{ Echoing.twoClients with store := connectedStore }, fun _ => []⟩,
    fun _ => ⟨[], 0, 0⟩⟩
  stream := []
  backup := connectedStore

theorem caughtUp_connectedStore : CaughtUp connectedStore connectedStore where
  users name := by
    rw [connectedStore, HashTable.find_insert]
    split
    · refine .some ⟨⟨rfl, by decide, rfl⟩, ?_, ?_⟩ <;>
      · intro slot session hslot
        match slot with
        | 0 | 1 => cases hslot; rfl
        | slot + 2 => cases hslot
    · exact .none
  named name context hfind := by
    rw [connectedStore, HashTable.find_insert] at hfind
    split at hfind
    · rename_i hname
      subst hname
      decide
    · cases hfind
  disk := rfl

theorem connectedClients_fresh :
    connectedClients.clients.system.sync.Fresh [] Echoing.userA.name where
  known := rfl
  mirrors := mirrors_nil fun _ _ => rfl
  queue _ := rfl
  up _ := rfl
  down _ := rfl
  buffer slot session hsession := by
    obtain ⟨context, hfind, hslot⟩ := Store.session_eq_some.mp hsession
    cases hfind
    match slot with
    | 0 | 1 => cases hslot; rfl
    | slot + 2 => cases hslot

theorem connectedClients_synced :
    connectedClients.clients.system.sync.Synced [] Echoing.userA.name where
  seated := by decide
  grants := Echoing.twoClients_synced.grants
  same := Echoing.twoClients_synced.same
  sized name := by
    constructor <;>
      simp [Echoing.copies, Echoing.content, SyncClient.content, connectedClients, connectedStore,
        Echoing.twoClients, fileAt]

open WatchedClient (movedEntry)

/-- A file is moved into the folder of one client, and the replica reads of it. -/
def movedToReplica : List ReplicatedAction :=
  [.clients (.others (.sync (.edit 0 (.put movedEntry [104] true)))),
    .clients (.read 0 [movedName]), .heartbeat, .clients (.handle 0),
    .clients (.others (.sync (.serve 0))), .iterate, .iterate]

theorem replica_converges_of_moved :
    ∃ p ∈ run (stepWithCommanders [] .granted .granted Echoing.userA.name)
        (fun _ => none, connectedClients) movedToReplica,
      (p.2.clients.system.sync.client 0).content movedEntry.name = some [104] ∧
      listed (p.2.backup.table.fileList Echoing.userA.name) movedEntry.name =
        some (contentCrc [104]) := by
  obtain ⟨⟨commanders, t⟩, ht, hcontent, hcommand, hread, hover, hqueue, hup, hdown, hbuffer⟩ :=
    show ∃ p ∈ run (stepWithCommanders [] .granted .granted Echoing.userA.name)
        (fun _ => none, connectedClients) movedToReplica,
      (p.2.clients.system.sync.client 0).content movedEntry.name = some [104] ∧
      p.1 movedEntry.name = none ∧ p.2.stream = [] ∧
      (p.2.clients.watcher 0).length ≤ (p.2.clients.watcher 0).i ∧
      (p.2.clients.system.sync.client 0).queue = [] ∧ p.2.clients.system.sync.up 0 = [] ∧
      p.2.clients.system.sync.down 0 = [] ∧
      (p.2.clients.system.sync.store.session Echoing.userA.name (0 : Fin maxSessions)).map
        Session.syncBuffer = some [] by decide +kernel
  dsimp only at hcontent hcommand hread hover hqueue hup hdown hbuffer
  have hrest : t.clients.system.sync.AtRest Echoing.userA.name 0
      movedEntry.name := by
    refine ⟨by simp [hqueue], by simp [hup], by simp [hdown], fun session hsession => ?_⟩
    rw [Option.mem_def.mp hsession] at hbuffer
    simp [Option.some.inj hbuffer]
  obtain ⟨hsame | ⟨-, hnone⟩, hlisted⟩ := (replica_converges (FileAccess.granted_grants _)
    (FileAccess.granted_grants _) connectedClients_fresh connectedClients_synced
    (fun _ => ⟨rfl, rfl⟩) rfl caughtUp_connectedStore (by decide +kernel) ht).2 hread 0
    movedEntry hover hrest
  · refine ⟨(commanders, t), ht, hcontent, hlisted.trans (hsame.symm.trans ?_)⟩
    rw [hcontent]
    rfl
  · rw [hcommand] at hnone
    cases hnone

end ReplicatedClients

end SyncServer
