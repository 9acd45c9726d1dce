import SyncServer.Files.Convergence

/-! # Files that are deleted by command

The console of a client can have a file deleted on the server, while the watchers and the receivers
go on. The server tells the other clients of it, and the client that gave the command keeps its
copy. A round of `interface` runs here with no other call of the server beside it, as the rounds of
the other threads do.
-/

namespace SyncServer

open CText Ending PathNames Transition

/-- The server and its clients, and the commands that are on their way on the interface sockets. -/
structure Requesting where
  sync : Echoing
  asked : Fin maxSessions → List EntryName

inductive RequestAction where
  | sync (action : EchoAction)
  /-- `delete` in the console. -/
  | request (i : Fin maxSessions) (name : EntryName)
  /-- A round of `interface`. -/
  | answer (i : Fin maxSessions)

def RequestAction.Sized : RequestAction → Prop
  | sync action => action.Sized
  | request _ _ | answer _ => True

instance : (action : RequestAction) → Decidable action.Sized
  | .sync action => inferInstanceAs (Decidable action.Sized)
  | .request _ _ | .answer _ => inferInstanceAs (Decidable True)

/-- The client whose command the server handles. -/
def RequestAction.commander : RequestAction → Option (Fin maxSessions)
  | answer i => some i
  | sync _ | request _ _ => none

/-- For each file that is gone, whose command took it away, if it was a command: after a step to `t`
in which the command of `commander` is handled, if any. -/
def Echoing.commandersAfter (cwd : List Bytes) (username : Bytes) (s t : Echoing)
    (commander : Option (Fin maxSessions)) (commanders : Bytes → Option (Fin maxSessions))
    (name : Bytes) : Option (Fin maxSessions) :=
  if (t.content cwd username name).isSome then none
  else if (s.content cwd username name).isSome then commander
  else commanders name

namespace Requesting

section

variable (cwd : List Bytes) (access : FileAccess (List Bytes)) (username : Bytes)

def step (s : Requesting) : RequestAction → Option Requesting
  | .sync action => (s.sync.step cwd access username action).map fun sync => { s with sync }
  | .request i name =>
      some { s with asked := Function.update s.asked i (s.asked i ++ [name]) }
  | .answer i =>
      match s.asked i with
      | [] => none
      | name :: rest =>
          (s.sync.activeSession username i).bind fun session =>
            (interface Socket.readPacket (resolve cwd) access true username session s.sync.store
              (deleteSocket name.name)).returned.map fun handled =>
                { sync := { s.sync with store := handled.store }
                  asked := Function.update s.asked i rest }

def stepWithCommanders :
    (Bytes → Option (Fin maxSessions)) × Requesting → RequestAction →
      Option ((Bytes → Option (Fin maxSessions)) × Requesting)
  | (commanders, s), action =>
      (s.step cwd access username action).map fun t =>
        (s.sync.commandersAfter cwd username t.sync action.commander commanders, t)

end

end Requesting

/-! ## The command -/

namespace Echoing

variable {cwd : List Bytes} {access : FileAccess (List Bytes)} {username : Bytes}
  {s t : Echoing} {i : Fin maxSessions} {name : Bytes}

theorem deleted_of_interface (hgrants : access.Grants (userFolder cwd username))
    (hkept : s.Kept cwd username) (hname : Storable username name) {session : Session}
    (hsession : s.activeSession username i = some session) {handled : Handled (List Bytes) Socket}
    (hhandled : interface Socket.readPacket (resolve cwd) access true username session s.store
      (deleteSocket name) = done handled) :
    ∃ context context', s.store.table.find username = some context ∧
      Deleted (userFolder cwd username) true username i name s.store context handled.store
        context' := by
  obtain ⟨hfound, -⟩ := activeSession_eq_some.mp hsession
  obtain ⟨context, hfind, hslot⟩ := Store.session_eq_some.mp hfound
  have hmirrors := hkept.mirrors
  rw [HashTable.fileList_of_find hfind] at hmirrors
  rw [SharedFiles.interface_deleteSocket hname] at hhandled
  obtain ⟨⟨store, event⟩, hdelete, hhandled⟩ := bind_eq_done.mp hhandled
  cases hhandled
  obtain ⟨context', hdone⟩ := deleted_of_handleDelete hname hgrants hfind hmirrors hdelete
  rw [context.indexed i session hslot] at hdone
  exact ⟨context, context', hfind, hdone⟩

theorem Kept.deleted (hkept : s.Kept cwd username) (hname : Storable username name)
    {store : Store (List Bytes)} {context context' : UserContext}
    (hfind : s.store.table.find username = some context)
    (hdone : Deleted (userFolder cwd username) true username i name s.store context store
      context') : Kept cwd username { s with store } := by
  obtain ⟨hknown, hmirrors, hqueue, hup, hdown, hbuffer⟩ := hkept
  refine ⟨Option.isSome_of_eq_some hdone.replaces.find, ?_, hqueue, hup, hdown, ?_⟩
  · rw [HashTable.fileList_of_find hfind] at hmirrors
    rw [HashTable.fileList_of_find hdone.replaces.find, hdone.handed.fileList, hdone.disk]
    exact hmirrors.delete name
  · exact buffer_of_handed hfind hdone.replaces hdone.handed hname hbuffer

/-- What the command does to the copies of each name. -/
theorem copies_deleted (h : s.Accepted cwd username i (.delete name) t) (hup : t.up = s.up)
    {other : Bytes} (hother : Storable username other) :
    t.copies cwd username other =
      if other = name then (s.copies cwd username name).remove contentCrc i
      else s.copies cwd username other := by
  have hcopy : (t.copies cwd username other).copy = (s.copies cwd username other).copy := by
    simp only [copies, h.client]
  have hchanges : (t.copies cwd username other).changes = (s.copies cwd username other).changes :=
    by simp only [copies, h.client]
  have hreports : (t.copies cwd username other).reports = (s.copies cwd username other).reports :=
    by simp only [copies, hup]
  have hupdates : (t.copies cwd username other).updates = (s.copies cwd username other).updates :=
    by simp only [copies, h.down]
  have horiginal := h.content other hother
  have hnotices := fun j => h.notices j other
  by_cases heq : other = name
  · subst heq
    rw [if_pos rfl]
    refine Copies.ext (horiginal.trans (if_pos rfl)) hcopy hchanges hreports ?_ hupdates
    funext j
    refine (hnotices j).trans ?_
    simp only [Message.name, and_true]
    rfl
  · rw [if_neg heq]
    refine Copies.ext (horiginal.trans (if_neg heq)) hcopy hchanges hreports ?_ hupdates
    funext j
    refine (hnotices j).trans ?_
    simp only [Message.name, Ne.symm heq, and_false, ite_false, List.append_nil]
    rfl

section

variable {cwd : List Bytes} {access : FileAccess (List Bytes)} {username : Username}
  {s t : Echoing} {i : Fin maxSessions} {untold untold' : Bytes → Fin maxSessions → Prop}

/-- Of a file that is stored everybody is told. -/
theorem Upheld.untold_of (h : s.Upheld cwd username untold)
    (huntold : ∀ name i, s.content cwd username.name name = none → untold name i →
      untold' name i) : s.Upheld cwd username untold' :=
  ⟨h.kept, h.entries, h.seated, h.grants, h.sized, fun name i =>
    (h.settling name i).untold_of (huntold name.name i)⟩

theorem Upheld.deleted (h : s.Upheld cwd username untold) {name : EntryName}
    (hkept : t.Kept cwd username.name) (hentries : t.Named username.name IsEntryName)
    (haccepted : s.Accepted cwd username.name i (.delete name.name) t) (hup : t.up = s.up) :
    t.Upheld cwd username fun other j => untold other j ∨
      other = name.name ∧ (s.content cwd username.name other).isSome = true ∧ j = i := by
  have hcopies := fun other : EntryName => copies_deleted haccepted hup (other.storable username)
  refine ⟨hkept, hentries, haccepted.seated, ?_, fun other => ?_, fun other j => ?_⟩
  · rw [haccepted.client]
    exact h.grants
  · rw [hcopies]
    split
    · exact (h.sized name).take _
    · exact h.sized other
  · rw [hcopies]
    by_cases heq : other.name = name.name
    · rw [if_pos heq, heq]
      cases hcontent : s.content cwd username.name name.name with
      | none =>
          rw [Copies.remove_of_none hcontent]
          exact (h.settling name j).untold_of fun _ => Or.inl
      | some content =>
          refine (h.settling name j).remove.untold_of fun _ => Or.imp_right fun hj => ?_
          exact ⟨rfl, rfl, hj⟩
    · rw [if_neg heq]
      exact (h.settling other j).untold_of fun _ => Or.inl

end

end Echoing

namespace Requesting

/-! ## Every run -/

section

variable {cwd : List Bytes} {access : FileAccess (List Bytes)} {username : Username}

/-- Who is not told that a file is gone. -/
def Untold (commanders : Bytes → Option (Fin maxSessions)) (name : Bytes) (i : Fin maxSessions) :
    Prop := commanders name = some i

theorem upheld_of_step (hgrants : access.Grants (userFolder cwd username.name))
    {s t : Requesting} {commanders : Bytes → Option (Fin maxSessions)} {action : RequestAction}
    (h : s.sync.Upheld cwd username (Untold commanders)) (hsized : action.Sized)
    (hstep : step cwd access username.name s action = some t) :
    t.sync.Upheld cwd username
      (Untold (s.sync.commandersAfter cwd username.name t.sync action.commander commanders)) := by
  -- who is not told before the step, and is not told of anything in the step
  have hbefore : s.sync.Upheld cwd username fun name i =>
      s.sync.content cwd username.name name = none ∧ commanders name = some i :=
    h.untold_of fun _ _ hgone huntold => ⟨hgone, huntold⟩
  have hafter : ∀ name i, t.sync.content cwd username.name name = none →
      s.sync.content cwd username.name name = none ∧ commanders name = some i →
      Untold (s.sync.commandersAfter cwd username.name t.sync action.commander commanders) name
        i := by
    rintro name i hgone ⟨hold, huntold⟩
    simpa [Untold, Echoing.commandersAfter, hgone, hold] using huntold
  cases action with
  | sync action =>
      obtain ⟨sync, hsync, rfl⟩ := Option.map_eq_some_iff.mp hstep
      exact (Echoing.upheld_of_step hgrants hbefore hsized hsync).1.untold_of hafter
  | request i name =>
      obtain rfl := Option.some.inj hstep
      exact hbefore.untold_of hafter
  | answer i =>
      rw [step] at hstep
      split at hstep
      · cases hstep
      · rename_i name rest hasked
        obtain ⟨session, hsession, hstep⟩ := Option.bind_eq_some_iff.mp hstep
        obtain ⟨handled, hhandled, rfl⟩ := Option.map_eq_some_iff.mp hstep
        have hname := name.storable username
        obtain ⟨context, context', hfind, hdone⟩ := Echoing.deleted_of_interface hgrants
          hbefore.kept hname hsession (returned_eq_some.mp hhandled)
        have haccepted := Echoing.accepted_of_deleted
          (t := { s.sync with store := handled.store }) hbefore.kept hbefore.seated hname hfind
          hdone rfl rfl
        have hentries : Echoing.Named username.name Echoing.IsEntryName
            { s.sync with store := handled.store } :=
          { hbefore.entries with
            buffer := Echoing.buffer_of_handed hfind hdone.replaces hdone.handed ⟨name, rfl⟩
              hbefore.entries.buffer }
        have hdeleted := hbefore.deleted (hbefore.kept.deleted hname hfind hdone) hentries
          haccepted rfl
        refine hdeleted.untold_of fun other j hgone => ?_
        rintro (huntold | ⟨rfl, hstored, rfl⟩)
        · exact hafter other j hgone huntold
        · simp [Untold, Echoing.commandersAfter, hgone, hstored, RequestAction.commander]

/-- In every run of whole calls from a start where all have the same files, whatever the order of
the calls, a client at rest about a name has the file that the server stores, or the server has
none, because this client had it deleted by command and nobody has changed it since. The list
records what is stored. -/
theorem requests_converge (hgrants : access.Grants (userFolder cwd username.name))
    {s t : Requesting} {commanders : Bytes → Option (Fin maxSessions)}
    (hfresh : s.sync.Fresh cwd username.name) (hsynced : s.sync.Synced cwd username.name)
    {actions : List RequestAction}
    (hsized : Along (stepWithCommanders cwd access username.name) (fun _ a => a.Sized)
      (fun _ => none, s) actions)
    (hrun : run (stepWithCommanders cwd access username.name) (fun _ => none, s) actions =
      some (commanders, t))
    {i : Fin maxSessions} {name : EntryName} (hrest : t.sync.AtRest username.name i name.name) :
    (((t.sync.client i).content name.name).map contentCrc =
          (t.sync.content cwd username.name name.name).map contentCrc ∨
        t.sync.content cwd username.name name.name = none ∧ commanders name.name = some i) ∧
      listed (t.sync.store.table.fileList username.name) name.name =
        (t.sync.content cwd username.name name.name).map contentCrc := by
  have hupheld := hsized.invariant
    (I := fun p => p.2.sync.Upheld cwd username (Untold p.1))
    (by
      rintro ⟨commanders, s⟩ action ⟨commanders', t⟩ h ha hstep
      obtain ⟨u, hu, heq⟩ := Option.map_eq_some_iff.mp hstep
      cases heq
      exact upheld_of_step hgrants h ha hu)
    (hfresh.upheld hsynced) hrun
  exact ⟨hupheld.settled hrest, hupheld.kept.listed name⟩

end

def twoClients : Requesting := ⟨Echoing.twoClients, fun _ => []⟩

/-- A file comes to both clients, and one of them deletes it by command. -/
def deletedByCommand : List RequestAction :=
  ([.edit 0 (.put Echoing.nameA [104] false), .watch 0, .serve 0, .watch 0, .serve 0, .deliver 1,
      .receive 1, .watch 1, .serve 1, .watch 1, .serve 1] : List EchoAction).map .sync ++
    [.request 0 Echoing.nameA, .answer 0] ++
    ([.deliver 1, .receive 1, .watch 1, .serve 1] : List EchoAction).map .sync

/-- The client that gave the command keeps the file. -/
theorem requests_converge_of_command :
    ∃ p ∈ run (stepWithCommanders [] .granted Echoing.userA.name) (fun _ => none, twoClients)
        deletedByCommand,
      (p.2.sync.client 0).content Echoing.nameA.name = some [104] ∧
      p.2.sync.content [] Echoing.userA.name Echoing.nameA.name = none ∧
      p.1 Echoing.nameA.name = some 0 := by
  obtain ⟨⟨commanders, t⟩, ht, hcontent, hgone, hqueue, hup, hdown, hbuffer⟩ :=
    show ∃ p ∈ run (stepWithCommanders [] .granted Echoing.userA.name) (fun _ => none, twoClients)
        deletedByCommand,
      (p.2.sync.client 0).content Echoing.nameA.name = some [104] ∧
      p.2.sync.content [] Echoing.userA.name Echoing.nameA.name = none ∧
      (p.2.sync.client 0).queue = [] ∧ p.2.sync.up 0 = [] ∧ p.2.sync.down 0 = [] ∧
      (p.2.sync.store.session Echoing.userA.name (0 : Fin maxSessions)).map Session.syncBuffer =
        some [] by decide +kernel
  dsimp only at hcontent hgone hqueue hup hdown hbuffer
  have hrest : t.sync.AtRest Echoing.userA.name 0 Echoing.nameA.name := by
    refine ⟨by simp [hqueue], by simp [hup], by simp [hdown], fun session hsession => ?_⟩
    rw [Option.mem_def.mp hsession] at hbuffer
    simp [Option.some.inj hbuffer]
  have hconverge := (requests_converge (FileAccess.granted_grants _) Echoing.twoClients_fresh
    Echoing.twoClients_synced (by decide +kernel) ht hrest).1
  simp only [hcontent, hgone, Option.map_some, Option.map_none, reduceCtorEq, false_or,
    true_and] at hconverge
  exact ⟨(commanders, t), ht, hcontent, hgone, hconverge⟩

end Requesting

end SyncServer
