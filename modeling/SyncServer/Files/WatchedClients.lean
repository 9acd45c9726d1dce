import SyncServer.Files.Requests
import SyncServer.Files.Watcher

/-! # The clients with the buffers of their watchers

The watcher of every client reads its events out of a buffer here, while files are edited, stored
and deleted by command, on all sides at once. Whatever the kernel has put into the buffers, the
system does what it would do if the watchers were given the events one by one. The calls of the
server run one after the other.
-/

namespace SyncServer

open CText PathNames Transition WatchedClient

/-- The buffer of a watcher, how much of it was read, and where the inner loop stands. -/
structure WatchBuffer where
  buffer : Bytes
  length : ℕ
  i : ℕ

/-- The queues of the clients are those that the kernel holds. -/
structure WatchedClients where
  system : Requesting
  watcher : Fin maxSessions → WatchBuffer

inductive WatchedAction where
  /-- A step of the others. -/
  | others (action : RequestAction)
  /-- `read` in the watcher. -/
  | read (i : Fin maxSessions) (events : List InotifyEvent)
  /-- A round of the watcher's inner loop. -/
  | handle (i : Fin maxSessions)

namespace WatchedAction

def Sized : WatchedAction → Prop
  | others action => action.Sized
  | read _ _ | handle _ => True

instance : (action : WatchedAction) → Decidable action.Sized
  | .others action => inferInstanceAs (Decidable action.Sized)
  | .read _ _ | .handle _ => inferInstanceAs (Decidable True)

def commander : WatchedAction → Option (Fin maxSessions)
  | others action => action.commander
  | read _ _ | handle _ => none

end WatchedAction

/-- The watcher takes an event that it is given. -/
def RequestAction.isWatch : RequestAction → Bool
  | sync (.watch _) => true
  | _ => false

namespace WatchedClients

/-- One client with its watcher, which has sent nothing yet. -/
def watched (s : WatchedClients) (i : Fin maxSessions) : WatchedClient where
  client := s.system.sync.client i
  buffer := (s.watcher i).buffer
  length := (s.watcher i).length
  i := (s.watcher i).i
  sent := []

def put (s : WatchedClients) (i : Fin maxSessions) (w : WatchedClient) : WatchedClients where
  system :=
    { s.system with
      sync :=
        { s.system.sync with
          client := Function.update s.system.sync.client i w.client
          up := Function.update s.system.sync.up i (s.system.sync.up i ++ w.sent) } }
  watcher := Function.update s.watcher i ⟨w.buffer, w.length, w.i⟩

section

variable (cwd : List Bytes) (access : FileAccess (List Bytes)) (username : Bytes)

def step (s : WatchedClients) : WatchedAction → Option WatchedClients
  | .others action =>
      if action.isWatch then none
      else (s.system.step cwd access username action).map fun system => { s with system }
  | .read i events => ((s.watched i).step (.read events)).map (s.put i)
  | .handle i => ((s.watched i).step .handle).map (s.put i)

def stepWithCommanders :
    (Bytes → Option (Fin maxSessions)) × WatchedClients → WatchedAction →
      Option ((Bytes → Option (Fin maxSessions)) × WatchedClients)
  | (commanders, s), action =>
      (s.step cwd access username action).map fun t =>
        (s.system.sync.commandersAfter cwd username t.system.sync action.commander commanders, t)

end

/-- What is left in every buffer. -/
def Holds (s : WatchedClients) (events : Fin maxSessions → List InotifyEvent) : Prop :=
  ∀ i, (s.watched i).Holds (events i)

/-- The clients with what is left in their buffers before what the kernel holds. -/
def givenClients (clients : Fin maxSessions → SyncClient)
    (events : Fin maxSessions → List InotifyEvent) (i : Fin maxSessions) : SyncClient :=
  (clients i).prepend (shown (events i))

/-- The system whose watchers are given the events one by one. -/
def given (s : WatchedClients) (events : Fin maxSessions → List InotifyEvent) : Requesting :=
  { s.system with
    sync := { s.system.sync with client := givenClients s.system.sync.client events } }

end WatchedClients

/-! ## Steps of the others -/

section

variable {cwd : List Bytes} {access : FileAccess (List Bytes)} {username : Bytes}
  {i : Fin maxSessions} {events : Fin maxSessions → List InotifyEvent}

namespace WatchedClients

theorem givenClients_update (clients : Fin maxSessions → SyncClient)
    (events : Fin maxSessions → List InotifyEvent) (i : Fin maxSessions) (client : SyncClient)
    (new : List InotifyEvent) :
    givenClients (Function.update clients i client) (Function.update events i new) =
      Function.update (givenClients clients events) i (client.prepend (shown new)) := by
  funext j
  by_cases hj : j = i
  · subst hj
    simp [givenClients]
  · simp [givenClients, hj]

theorem givenClients_update_self (clients : Fin maxSessions → SyncClient)
    (events : Fin maxSessions → List InotifyEvent) (i : Fin maxSessions) (client : SyncClient) :
    givenClients (Function.update clients i client) events =
      Function.update (givenClients clients events) i (client.prepend (shown (events i))) := by
  rw [← givenClients_update, Function.update_eq_self]

end WatchedClients

open WatchedClients

/-- What the events in the buffers are does not matter to a step of the server, nor to an edit or a
reception. -/
theorem Echoing.step_given {s : Echoing} {action : EchoAction} (h : ∀ i, action ≠ .watch i)
    (events : Fin maxSessions → List InotifyEvent) :
    Echoing.step cwd access username { s with client := givenClients s.client events } action =
      (s.step cwd access username action).map fun t =>
        { t with client := givenClients t.client events } := by
  cases action with
  | edit i change =>
      simp only [Echoing.step, givenClients, SyncClient.edit_prepend, Option.map_map]
      congr 1
      funext client
      simp only [Function.comp_apply, ← givenClients_update_self]
  | watch i => exact absurd rfl (h i)
  | serve i =>
      simp only [Echoing.step]
      cases s.up i with
      | nil => rfl
      | cons message rest =>
          simp only [Option.map_bind, Option.map_map, Function.comp_def]
          rfl
  | deliver i =>
      simp only [Echoing.step, Option.map_bind, Option.map_map, Function.comp_def]
      rfl
  | receive i =>
      simp only [Echoing.step]
      cases s.down i with
      | nil => rfl
      | cons message rest =>
          simp only [givenClients, SyncClient.receive_prepend, Option.map_map]
          congr 1
          funext client
          simp only [Function.comp_apply, ← givenClients_update_self]

namespace WatchedClients

variable {s t : WatchedClients}

theorem step_given {action : RequestAction} (h : action.isWatch = false)
    (events : Fin maxSessions → List InotifyEvent) {system : Requesting}
    (hstep : s.system.step cwd access username action = some system) :
    (s.given events).step cwd access username action =
      some (given { s with system } events) := by
  cases action with
  | sync action =>
      obtain ⟨sync, hsync, rfl⟩ := Option.map_eq_some_iff.mp hstep
      have hwatch : ∀ i, action ≠ .watch i := by
        rintro i rfl
        cases h
      simp only [Requesting.step, given, Echoing.step_given hwatch, hsync, Option.map_some]
  | request i name =>
      obtain rfl := Option.some.inj hstep
      rfl
  | answer i =>
      rw [Requesting.step] at hstep
      split at hstep
      · cases hstep
      · rename_i name rest hasked
        obtain ⟨session, hsession, hstep⟩ := Option.bind_eq_some_iff.mp hstep
        obtain ⟨handled, hhandled, rfl⟩ := Option.map_eq_some_iff.mp hstep
        have hsession' : (s.given events).sync.activeSession username i = some session := hsession
        have hasked' : (s.given events).asked i = name :: rest := hasked
        simp only [Requesting.step, hasked', hsession', Option.bind_some]
        exact Option.map_eq_some_iff.mpr ⟨handled, hhandled, rfl⟩

/-! ## Steps of a watcher -/

theorem holds_put {w : WatchedClient} {new : List InotifyEvent} (h : s.Holds events)
    (hw : w.Holds new) : (s.put i w).Holds (Function.update events i new) := by
  intro j
  by_cases hj : j = i
  · subst hj
    rw [Function.update_self]
    refine ⟨?_, ?_⟩
    · simpa [watched, put] using hw.buffer
    · simpa [watched, put] using hw.length
  · rw [Function.update_of_ne hj]
    refine ⟨?_, ?_⟩
    · simpa [watched, put, hj] using (h j).buffer
    · simpa [watched, put, hj] using (h j).length

/-- The client that a watcher leaves behind is the one of its own system. -/
theorem given_put {w : WatchedClient} {new : List InotifyEvent} :
    (s.put i w).given (Function.update events i new) =
      { s.given events with
        sync :=
          { (s.given events).sync with
            client := Function.update (s.given events).sync.client i
              (w.client.prepend (shown new))
            up := Function.update s.system.sync.up i (s.system.sync.up i ++ w.sent) } } := by
  simp only [given, put, givenClients_update]

variable (cwd access username) in
/-- A client that takes some of its events does so in the system. -/
theorem run_watches {client client' : SyncClient} {sent sent' : List Message}
    {bs : List (Option FolderChange)} (hnone : bs.reduceOption = [])
    (hrun : run eventStep (client, sent) bs = some (client', sent')) (u : Echoing)
    (hclient : u.client i = client) :
    ∃ new, sent' = sent ++ new ∧
      run (fun u _ => Echoing.step cwd access username u (.watch i)) u bs =
        some { u with
          client := Function.update u.client i client'
          up := Function.update u.up i (u.up i ++ new) } := by
  induction bs generalizing client sent u with
  | nil =>
      obtain ⟨rfl, rfl⟩ := Prod.mk.inj (Option.some.inj hrun)
      refine ⟨[], (List.append_nil _).symm, ?_⟩
      rw [← hclient, List.append_nil, Function.update_eq_self, Function.update_eq_self]
      rfl
  | cons b bs ih =>
      cases b with
      | some change => simp at hnone
      | none =>
          obtain ⟨⟨client₁, sent₁⟩, hstep, hlater⟩ := run_cons_eq_some.mp hrun
          obtain ⟨⟨messages, client₂⟩, hwatch, heq⟩ := Option.map_eq_some_iff.mp hstep
          obtain ⟨rfl, rfl⟩ := Prod.mk.inj heq
          subst hclient
          obtain ⟨new, rfl, hrest⟩ := ih hnone hlater
            { u with
              client := Function.update u.client i client₂
              up := Function.update u.up i (u.up i ++ messages) } (Function.update_self ..)
          refine ⟨messages ++ new, List.append_assoc .., ?_⟩
          refine run_cons_eq_some.mpr ⟨_, ?_, hrest.trans ?_⟩
          · simp only [Echoing.step, hwatch, Option.map_some]
          · simp only [Function.update_idem, Function.update_self, List.append_assoc]

variable (cwd access username) in
/-- A step of a watcher is what its client does with some of the events that are left. -/
theorem Holds.watcher {a : WatchedStep} (h : s.Holds events) (ha : change? a = none)
    (hstep : ((s.watched i).step a).map (s.put i) = some t) :
    ∃ events', t.Holds events' ∧ ∃ bs : List (Option FolderChange),
      run (fun u _ => Echoing.step cwd access username u (.watch i)) (s.given events).sync bs =
        some (t.given events').sync := by
  obtain ⟨w, hw, rfl⟩ := Option.map_eq_some_iff.mp hstep
  obtain ⟨bs, new, hbs, hchange, hholds⟩ := (h i).step hw
  rw [ha] at hchange
  obtain ⟨messages, hsent, hrun⟩ := run_watches cwd access username hchange hbs
    (s.given events).sync rfl
  refine ⟨Function.update events i new, holds_put h hholds, bs, ?_⟩
  rw [hrun, given_put, show w.sent = messages from hsent]
  rfl

end WatchedClients

end

/-! ## Every run -/

namespace WatchedClients

section

variable {cwd : List Bytes} {access : FileAccess (List Bytes)} {username : Username}
  {s t : WatchedClients} {commanders : Bytes → Option (Fin maxSessions)}

/-- What every step keeps of the system whose watchers are given the events one by one. -/
def Upheld (cwd : List Bytes) (username : Username)
    (commanders : Bytes → Option (Fin maxSessions)) (s : WatchedClients) : Prop :=
  ∃ events, s.Holds events ∧
    (s.given events).sync.Upheld cwd username (Requesting.Untold commanders)

theorem upheld_of_watcher (hgrants : access.Grants (userFolder cwd username.name))
    (h : s.Upheld cwd username commanders) {i : Fin maxSessions} {a : WatchedStep}
    (ha : change? a = none) (hstep : ((s.watched i).step a).map (s.put i) = some t) :
    t.Upheld cwd username
      (s.system.sync.commandersAfter cwd username.name t.system.sync none commanders) := by
  obtain ⟨events, hholds, hupheld⟩ := h
  obtain ⟨events', hholds', bs, hrun⟩ :=
    hholds.watcher cwd access username.name ha hstep
  have hsized : (EchoAction.watch i).Sized := trivial
  have hupheld' : (t.given events').sync.Upheld cwd username (Requesting.Untold commanders) :=
    run_invariant (fun _ _ _ hu hwatch => (Echoing.upheld_of_step hgrants hu hsized hwatch).1)
      hupheld hrun
  refine ⟨events', hholds', hupheld'.untold_of fun name j hgone huntold => ?_⟩
  obtain ⟨w, -, rfl⟩ := Option.map_eq_some_iff.mp hstep
  -- the files of the server are the same
  have hcontent : s.system.sync.content cwd username.name name = none := hgone
  have hcontent' : (s.put i w).system.sync.content cwd username.name name = none := hgone
  simpa [Requesting.Untold, Echoing.commandersAfter, hcontent, hcontent'] using huntold

theorem upheld_of_step (hgrants : access.Grants (userFolder cwd username.name))
    (h : s.Upheld cwd username commanders) {action : WatchedAction} (hsized : action.Sized)
    (hstep : s.step cwd access username.name action = some t) :
    t.Upheld cwd username (s.system.sync.commandersAfter cwd username.name t.system.sync
      action.commander commanders) := by
  cases action with
  | others action =>
      obtain ⟨hwatch, hstep⟩ := Option.ite_none_left_eq_some.mp hstep
      obtain ⟨system, hsystem, rfl⟩ := Option.map_eq_some_iff.mp hstep
      obtain ⟨events, hholds, hupheld⟩ := h
      refine ⟨events, fun i => ⟨(hholds i).buffer, (hholds i).length⟩, ?_⟩
      exact Requesting.upheld_of_step hgrants hupheld hsized
        (step_given (Bool.eq_false_iff.mpr hwatch) events hsystem)
  | read i events => exact upheld_of_watcher hgrants h rfl hstep
  | handle i => exact upheld_of_watcher hgrants h rfl hstep

theorem upheld_initial (hfresh : s.system.sync.Fresh cwd username.name)
    (hsynced : s.system.sync.Synced cwd username.name)
    (hidle : ∀ i, (s.watcher i).length = 0 ∧ (s.watcher i).i = 0) :
    s.Upheld cwd username fun _ => none := by
  refine ⟨fun _ => [], fun i => ?_, hfresh.upheld hsynced⟩
  obtain ⟨hlength, hi⟩ := hidle i
  exact ⟨⟨[], (s.watcher i).buffer, rfl, hi⟩, hlength.trans (by rw [watched, hi]; rfl)⟩

/-- A client at rest about a name, whose watcher has done with its buffer. -/
theorem Upheld.settled (h : s.Upheld cwd username commanders) {i : Fin maxSessions}
    {name : EntryName} (hover : (s.watcher i).length ≤ (s.watcher i).i)
    (hrest : s.system.sync.AtRest username.name i name.name) :
    (((s.system.sync.client i).content name.name).map contentCrc =
          (s.system.sync.content cwd username.name name.name).map contentCrc ∨
        s.system.sync.content cwd username.name name.name = none ∧
          commanders name.name = some i) ∧
      listed (s.system.sync.store.table.fileList username.name) name.name =
        (s.system.sync.content cwd username.name name.name).map contentCrc := by
  obtain ⟨events, hholds, hupheld⟩ := h
  have hclient : (s.given events).sync.client i = s.system.sync.client i := by
    simp only [given, givenClients, (hholds i).eq_nil hover]
    rfl
  have hgiven : (s.given events).sync.AtRest username.name i name.name :=
    ⟨hclient ▸ hrest.queue, hrest.up, hrest.down, hrest.buffer⟩
  have hsettled := hupheld.settled hgiven
  rw [hclient] at hsettled
  exact ⟨hsettled, hupheld.kept.listed name⟩

/-- In every run in which the watchers read their events out of their buffers, no watcher is stuck,
and a client at rest about a name has the file that the server stores, unless it had it deleted by
command and nobody has changed it since. -/
theorem watched_converge (hgrants : access.Grants (userFolder cwd username.name))
    (hfresh : s.system.sync.Fresh cwd username.name)
    (hsynced : s.system.sync.Synced cwd username.name)
    (hidle : ∀ i, (s.watcher i).length = 0 ∧ (s.watcher i).i = 0) {actions : List WatchedAction}
    (hsized : Along (stepWithCommanders cwd access username.name) (fun _ a => a.Sized)
      (fun _ => none, s) actions)
    (hrun : run (stepWithCommanders cwd access username.name) (fun _ => none, s) actions =
      some (commanders, t)) :
    (∀ i, (t.watcher i).i < (t.watcher i).length →
      (t.step cwd access username.name (.handle i)).isSome = true) ∧
    ∀ (i : Fin maxSessions) (name : EntryName), (t.watcher i).length ≤ (t.watcher i).i →
      t.system.sync.AtRest username.name i name.name →
      (((t.system.sync.client i).content name.name).map contentCrc =
            (t.system.sync.content cwd username.name name.name).map contentCrc ∨
          t.system.sync.content cwd username.name name.name = none ∧
            commanders name.name = some i) ∧
        listed (t.system.sync.store.table.fileList username.name) name.name =
          (t.system.sync.content cwd username.name name.name).map contentCrc := by
  have hupheld := hsized.invariant
    (I := fun p => p.2.Upheld cwd username p.1)
    (by
      rintro ⟨commanders, s⟩ action ⟨commanders', t⟩ h ha hstep
      obtain ⟨u, hu, heq⟩ := Option.map_eq_some_iff.mp hstep
      cases heq
      exact upheld_of_step hgrants h ha hu)
    (upheld_initial hfresh hsynced hidle) hrun
  refine ⟨fun i hi => ?_, fun i name hover hrest => hupheld.settled hover hrest⟩
  obtain ⟨events, hholds, -⟩ := hupheld
  obtain ⟨event, later, -, hhandle, -⟩ := (hholds i).handle hi
  rw [step, hhandle]
  rfl

end

def twoWatchers : WatchedClients := ⟨Requesting.twoClients, fun _ => ⟨[], 0, 0⟩⟩

open WatchedClient (movedEntry)

/-- A file is moved into the folder of one client and comes to the other. -/
def movedAcross : List WatchedAction :=
  [.others (.sync (.edit 0 (.put movedEntry [104] true))), .read 0 [movedName], .handle 0,
    .others (.sync (.serve 0)), .others (.sync (.deliver 1)), .others (.sync (.receive 1))]

theorem watched_converge_of_movedAcross :
    ∃ p ∈ run (stepWithCommanders [] .granted Echoing.userA.name) (fun _ => none, twoWatchers)
        movedAcross,
      (p.2.system.sync.client 0).content movedEntry.name = some [104] ∧
      listed (p.2.system.sync.store.table.fileList Echoing.userA.name) movedEntry.name =
        some (contentCrc [104]) := by
  obtain ⟨⟨commanders, t⟩, ht, hcontent, hcommand, hover, hqueue, hup, hdown, hbuffer⟩ :=
    show ∃ p ∈ run (stepWithCommanders [] .granted Echoing.userA.name)
        (fun _ => none, twoWatchers) movedAcross,
      (p.2.system.sync.client 0).content movedEntry.name = some [104] ∧
      p.1 movedEntry.name = none ∧ (p.2.watcher 0).length ≤ (p.2.watcher 0).i ∧
      (p.2.system.sync.client 0).queue = [] ∧ p.2.system.sync.up 0 = [] ∧
      p.2.system.sync.down 0 = [] ∧
      (p.2.system.sync.store.session Echoing.userA.name (0 : Fin maxSessions)).map
        Session.syncBuffer = some [] by decide +kernel
  dsimp only at hcontent hcommand hover hqueue hup hdown hbuffer
  have hrest : t.system.sync.AtRest Echoing.userA.name 0 movedEntry.name := by
    refine ⟨by simp [hqueue], by simp [hup], by simp [hdown], fun session hsession => ?_⟩
    rw [Option.mem_def.mp hsession] at hbuffer
    simp [Option.some.inj hbuffer]
  obtain ⟨hsame | ⟨-, hnone⟩, hlisted⟩ := (watched_converge (FileAccess.granted_grants _)
    Echoing.twoClients_fresh Echoing.twoClients_synced (fun _ => ⟨rfl, rfl⟩) (by decide +kernel)
    ht).2 0 movedEntry hover hrest
  · refine ⟨(commanders, t), ht, hcontent, hlisted.trans (hsame.symm.trans ?_)⟩
    rw [hcontent]
    rfl
  · rw [hcommand] at hnone
    cases hnone

end WatchedClients

end SyncServer
