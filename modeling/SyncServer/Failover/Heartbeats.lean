import SyncServer.Library.Transition
import SyncServer.Server.System

/-! # Is a live manager ever declared dead?

The heartbeats share one connection with the events of the sessions, and the backup reads one
event a second. A heartbeat that waits behind too many events comes too late.
-/

namespace SyncServer

open CText Transition

/-! ## `is_manager_running` and the communication loop -/

/-- `is_manager_running`. -/
def Shared.isManagerRunning (sh : Shared) : Bool :=
  !(sh.heartbeatExpired || sh.newLeaderDecided || sh.isElectionRunning)

/-- `heartbeat_received`. -/
def Shared.heartbeatReceived (sh : Shared) : Shared := { sh with lastHeartbeat := sh.time }

/-- One iteration of the communication loop, on the text of the event that `has_data` announces.
The packets of a file are read with its event, and the events of the sessions change only the
users. -/
def Shared.communicate (sh : Shared) : Option Bytes → Shared
  | none => sh
  | some text =>
      match (deserializeReplicaEvent text).type with
      | .heartbeat => sh.heartbeatReceived
      | _ => sh

/-- The monitor calls `is_manager_running` and goes back to sleep when it returns 1. -/
theorem heartbeatMonitor_of_running {sh : Shared} (h : sh.isManagerRunning = true) (id : ℤ)
    (isExited : ℕ → Bool) (fresh : ℕ) :
    HeartbeatMonitor.step id sh isExited fresh .checkHeartbeat = some (.goto sh .loadDecided) ∧
    HeartbeatMonitor.step id sh isExited fresh .loadDecided = some (.goto sh .loadRunning) ∧
    HeartbeatMonitor.step id sh isExited fresh .loadRunning = some (.goto sh .sleeping) := by
  simp only [Shared.isManagerRunning, Bool.not_eq_true', Bool.or_eq_false_iff] at h
  obtain ⟨⟨hexpired, hdecided⟩, hrunning⟩ := h
  simp [HeartbeatMonitor.step, hexpired, hdecided, hrunning]

/-- The memory and the place of `connect_to_server_thread` after a step. -/
def ConnectToServer.move (args : ℕ) (id port : ℤ) :
    Shared × ConnectToServer → Input → Option (Shared × ConnectToServer)
  | (sh, place), input =>
      (ConnectToServer.step args id port sh input place).map fun e => (e.shared, e.next)

section Loop

variable {sh : Shared} {args socketfd : ℕ} {id port : ℤ} {peer : SockAddrIn}

/-- An iteration of the thread without data. -/
theorem communicate_noData (hrunning : sh.isElectionRunning = false)
    (hmutex : sh.modeChangeMutex = false) (hmode : sh.globalServerMode = .backup) :
    run (ConnectToServer.move args id port) (sh, .loadRunning socketfd peer false)
      [.none, .none, .noData] = some (sh.communicate none, .loadRunning socketfd peer false) := by
  simp [run_cons, ConnectToServer.move, ConnectToServer.step, Effect.goto, Shared.communicate,
    hrunning, hmutex, hmode]

/-- An iteration of the thread with the event of a session or a heartbeat. -/
theorem communicate_packet (hrunning : sh.isElectionRunning = false)
    (hmutex : sh.modeChangeMutex = false) (hmode : sh.globalServerMode = .backup) {text : Bytes}
    (htype : (deserializeReplicaEvent text).type ≠ .replicaAdded) (writer : ℕ) :
    run (ConnectToServer.move args id port) (sh, .loadRunning socketfd peer false)
        [.none, .none, .packet writer text, .none] =
      some (sh.communicate (some text), .loadRunning socketfd peer false) := by
  have hreceive : run (ConnectToServer.move args id port) (sh, .loadRunning socketfd peer false)
      [.none, .none, .packet writer text] =
      some (sh, .apply socketfd peer false (deserializeReplicaEvent text)) := by
    simp [run_cons, ConnectToServer.move, ConnectToServer.step, Effect.goto, hrunning, hmutex,
      hmode]
  refine run_concat_eq_some.mpr ⟨_, hreceive, ?_⟩
  simp only [ConnectToServer.move, ConnectToServer.step, Shared.communicate]
  cases h : (deserializeReplicaEvent text).type with
  | replicaAdded => exact absurd h htype
  | _ => rfl

end Loop

/-! ## The events of the manager -/

/-- What a client's operations make the manager notify. -/
inductive SessionEvent where
  | connected (username : Bytes) (deviceAddress : SockAddrIn)
  | disconnected (username : Bytes) (deviceAddress : SockAddrIn)
  | uploaded (username : Bytes) (deviceAddress : SockAddrIn) (filepath : Bytes)
  | deleted (username : Bytes) (deviceAddress : SockAddrIn) (filepath : Bytes)
  deriving DecidableEq, Repr

def SessionEvent.toReplicaEvent : SessionEvent → ReplicaEvent
  | connected username deviceAddress => createClientConnectedEvent username deviceAddress
  | disconnected username deviceAddress => createClientDisconnectedEvent username deviceAddress
  | uploaded username deviceAddress filepath =>
      createFileUploadEvent username deviceAddress filepath
  | deleted username deviceAddress filepath =>
      createFileDeleteEvent username deviceAddress filepath

def IsHeartbeat (text : Bytes) : Prop := (deserializeReplicaEvent text).type = .heartbeat

instance (text : Bytes) : Decidable (IsHeartbeat text) := inferInstanceAs (Decidable (_ = _))

theorem type_deserialize_serialize {event : ReplicaEvent} (h : event.type.Listed) :
    (deserializeReplicaEvent (serializeReplicaEvent event)).type = event.type := by
  rw [deserialize_serialize event h]

theorem isHeartbeat_heartbeat : IsHeartbeat (serializeReplicaEvent createHeartbeatEvent) :=
  type_deserialize_serialize nofun

theorem not_isHeartbeat_session (event : SessionEvent) :
    ¬IsHeartbeat (serializeReplicaEvent event.toReplicaEvent) := by
  have htype : event.toReplicaEvent.type.Listed ∧ event.toReplicaEvent.type ≠ .heartbeat := by
    cases event <;> exact ⟨nofun, nofun⟩
  rw [IsHeartbeat, type_deserialize_serialize htype.1]
  exact htype.2

/-! ## A backup and its manager on a clock -/

/-- A backup and its connection. `unread` holds the events that the manager sent and the backup
has not read, `lastSent` the second of the manager's last heartbeat, and `iterated` tells whether
this second's iteration is done. -/
structure Heartbeats where
  shared : Shared
  unread : List Bytes
  lastSent : ℕ
  iterated : Bool

namespace Heartbeats

inductive Action where
  | heartbeat
  | session (event : SessionEvent)
  | iterate
  | clock
  deriving DecidableEq, Repr

/-- The loop iterates once a second, and no two seconds pass without a heartbeat. -/
def step (s : Heartbeats) : Action → Option Heartbeats
  | .heartbeat =>
      some { s with
        unread := s.unread ++ [serializeReplicaEvent createHeartbeatEvent]
        lastSent := s.shared.time }
  | .session event =>
      some { s with unread := s.unread ++ [serializeReplicaEvent event.toReplicaEvent] }
  | .iterate =>
      if s.iterated ∨ s.shared.isElectionRunning ∨ s.shared.globalServerMode ≠ .backup then none
      else some { s with
        shared := s.shared.communicate s.unread.head?
        unread := s.unread.tail
        iterated := true }
  | .clock =>
      if s.iterated ∧ s.shared.time + 1 ≤ s.lastSent + 2 then
        some { s with shared := { s.shared with time := s.shared.time + 1 }, iterated := false }
      else none

/-- `run_as_backup` has stored the time and the connection is empty. -/
structure Start (s : Heartbeats) : Prop where
  mode : s.shared.globalServerMode = .backup
  notDecided : s.shared.newLeaderDecided = false
  notElecting : s.shared.isElectionRunning = false
  stored : s.shared.lastHeartbeat = s.shared.time
  unread : s.unread = []
  sent : s.lastSent ≤ s.shared.time ∧ s.shared.time ≤ s.lastSent + 2

def Running (s : Heartbeats) : Prop := s.shared.isManagerRunning = true

instance : DecidablePred Running := fun _ => inferInstanceAs (Decidable (_ = _))

/-! ## When the unread heartbeats are due -/

/-- The second of the next iteration. -/
def nextRead (s : Heartbeats) : ℕ := if s.iterated then s.shared.time + 1 else s.shared.time

/-- When the last heartbeat of a list of events is read if the list is read from `next` on, and
`last` if there is none in it. -/
def lastDue : ℕ → ℕ → List Bytes → ℕ
  | last, _, [] => last
  | last, next, text :: rest => lastDue (if IsHeartbeat text then next else last) (next + 1) rest

/-- Every heartbeat of the list is read in time after the one before it. -/
def Timely : ℕ → ℕ → List Bytes → Prop
  | _, _, [] => True
  | last, next, text :: rest =>
      if IsHeartbeat text then
        next ≤ last + heartbeatTimeoutSeconds ∧ Timely next (next + 1) rest
      else Timely last (next + 1) rest

theorem lastDue_concat (last next : ℕ) (texts : List Bytes) (text : Bytes) :
    lastDue last next (texts ++ [text]) =
      if IsHeartbeat text then next + texts.length else lastDue last next texts := by
  induction texts generalizing last next with
  | nil => rfl
  | cons first texts ih =>
      simp only [List.cons_append, lastDue, ih, List.length_cons]
      split <;> omega

theorem timely_concat {last next : ℕ} {texts : List Bytes} {text : Bytes} :
    Timely last next (texts ++ [text]) ↔ Timely last next texts ∧
      (IsHeartbeat text → next + texts.length ≤
        lastDue last next texts + heartbeatTimeoutSeconds) := by
  induction texts generalizing last next with
  | nil => by_cases h : IsHeartbeat text <;> simp [Timely, lastDue, h]
  | cons first texts ih =>
      have hshift : next + (texts.length + 1) = next + 1 + texts.length := by omega
      by_cases h : IsHeartbeat first
      · simp only [List.cons_append, Timely, lastDue, if_pos h, ih, List.length_cons, hshift,
          and_assoc]
      · simp only [List.cons_append, Timely, lastDue, if_neg h, ih, List.length_cons, hshift]

/-- Either no heartbeat is left or the next read is in time. -/
theorem Timely.next_le {last next : ℕ} {texts : List Bytes} (h : Timely last next texts) :
    lastDue last next texts = last ∨ next ≤ last + heartbeatTimeoutSeconds := by
  induction texts generalizing next with
  | nil => exact .inl rfl
  | cons text texts ih =>
      by_cases htext : IsHeartbeat text
      · simp only [Timely, if_pos htext] at h
        exact .inr h.1
      · simp only [Timely, lastDue, if_neg htext] at h ⊢
        exact (ih h).imp_right (by omega)

theorem timely_of_no_heartbeat {last next : ℕ} {texts : List Bytes}
    (h : ∀ text ∈ texts, ¬IsHeartbeat text) : Timely last next texts := by
  induction texts generalizing next with
  | nil => trivial
  | cons text texts ih =>
      simp only [Timely, if_neg (h text List.mem_cons_self)]
      exact ih fun text' hmem => h text' (List.mem_cons_of_mem _ hmem)

/-! ## The condition -/

/-- When the last heartbeat sent so far is read, or was read. -/
def due (s : Heartbeats) : ℕ := lastDue s.shared.lastHeartbeat s.nextRead s.unread

/-- Every unread heartbeat will be read in time. -/
def InOrder (s : Heartbeats) : Prop := Timely s.shared.lastHeartbeat s.nextRead s.unread

/-- A heartbeat is sent only while the backup will read it in time after the one before. -/
def InTime (s : Heartbeats) (a : Action) : Prop :=
  a = .heartbeat → s.nextRead + s.unread.length ≤ s.due + heartbeatTimeoutSeconds

instance (s : Heartbeats) (a : Action) : Decidable (s.InTime a) :=
  inferInstanceAs (Decidable (_ → _))

/-! ## What a step does to the heartbeats under way -/

theorem time_communicate (sh : Shared) (text : Option Bytes) :
    (sh.communicate text).time = sh.time ∧
    (sh.communicate text).newLeaderDecided = sh.newLeaderDecided ∧
    (sh.communicate text).isElectionRunning = sh.isElectionRunning := by
  cases text with
  | none => exact ⟨rfl, rfl, rfl⟩
  | some text =>
      simp only [Shared.communicate]
      split <;> exact ⟨rfl, rfl, rfl⟩

theorem lastHeartbeat_communicate (sh : Shared) (text : Bytes) :
    (sh.communicate (some text)).lastHeartbeat =
      if IsHeartbeat text then sh.time else sh.lastHeartbeat := by
  simp only [Shared.communicate]
  split
  · rename_i h
    exact (if_pos (c := IsHeartbeat text) h).symm
  · rename_i h
    exact (if_neg (c := IsHeartbeat text) h).symm

/-- A sent event waits behind the others. -/
def send (s : Heartbeats) (text : Bytes) : Heartbeats := { s with unread := s.unread ++ [text] }

theorem due_send (s : Heartbeats) (text : Bytes) :
    (s.send text).due = if IsHeartbeat text then s.nextRead + s.unread.length else s.due :=
  lastDue_concat _ _ _ _

theorem inOrder_send {s : Heartbeats} {text : Bytes} :
    (s.send text).InOrder ↔ s.InOrder ∧
      (IsHeartbeat text → s.nextRead + s.unread.length ≤ s.due + heartbeatTimeoutSeconds) :=
  timely_concat

/-- What a step does: an event is sent, the iteration of this second is done, or a second passes. -/
theorem step_cases {s t : Heartbeats} {a : Action} (h : step s a = some t) :
    (a = .heartbeat ∧ t = { s.send (serializeReplicaEvent createHeartbeatEvent) with
      lastSent := s.shared.time }) ∨
    (∃ event, a = .session event ∧ t = s.send (serializeReplicaEvent event.toReplicaEvent)) ∨
    (a = .iterate ∧ s.iterated = false ∧
      t = ⟨s.shared.communicate s.unread.head?, s.unread.tail, s.lastSent, true⟩) ∨
    (a = .clock ∧ s.iterated = true ∧ s.shared.time + 1 ≤ s.lastSent + 2 ∧
      t = ⟨{ s.shared with time := s.shared.time + 1 }, s.unread, s.lastSent, false⟩) := by
  cases a with
  | heartbeat => exact .inl ⟨rfl, (Option.some.inj h).symm⟩
  | session event => exact .inr (.inl ⟨event, rfl, (Option.some.inj h).symm⟩)
  | iterate =>
      simp only [step] at h
      split at h
      · cases h
      · rename_i hfree
        refine .inr (.inr (.inl ⟨rfl, ?_, (Option.some.inj h).symm⟩))
        simpa using fun hdone => hfree (.inl hdone)
  | clock =>
      simp only [step] at h
      split at h
      · rename_i hdone
        exact .inr (.inr (.inr ⟨rfl, hdone.1, hdone.2, (Option.some.inj h).symm⟩))
      · cases h

/-- The iteration takes the first event at the second it was due. -/
theorem due_iterate {s : Heartbeats} (hdone : s.iterated = false) :
    due ⟨s.shared.communicate s.unread.head?, s.unread.tail, s.lastSent, true⟩ = s.due := by
  cases hunread : s.unread with
  | nil => simp [due, nextRead, hunread, lastDue, Shared.communicate]
  | cons text rest =>
      simp [due, nextRead, hunread, hdone, lastDue, lastHeartbeat_communicate, time_communicate]

theorem inOrder_iterate {s : Heartbeats} (hdone : s.iterated = false) :
    s.InOrder ↔
      InOrder ⟨s.shared.communicate s.unread.head?, s.unread.tail, s.lastSent, true⟩ ∧
      ∀ text ∈ s.unread.head?, IsHeartbeat text →
        s.shared.time ≤ s.shared.lastHeartbeat + heartbeatTimeoutSeconds := by
  cases hunread : s.unread with
  | nil => simp [InOrder, hunread, Timely]
  | cons text rest =>
      by_cases htext : IsHeartbeat text <;>
        simp [InOrder, nextRead, hunread, hdone, Timely, lastHeartbeat_communicate,
          time_communicate, htext, and_comm]

/-- The next iteration of a second that is over is the first of the next. -/
theorem nextRead_clock {s : Heartbeats} (hdone : s.iterated = true) :
    nextRead ⟨{ s.shared with time := s.shared.time + 1 }, s.unread, s.lastSent, false⟩ =
      s.nextRead := by
  simp [nextRead, hdone]

/-! ## The invariant -/

/-- No heartbeat that was sent is late, and the manager has sent one in the last two seconds. -/
structure Alive (s : Heartbeats) : Prop where
  notDecided : s.shared.newLeaderDecided = false
  notElecting : s.shared.isElectionRunning = false
  inOrder : s.InOrder
  sent : s.shared.time ≤ s.lastSent + 2
  due : s.lastSent ≤ s.due

theorem time_le_nextRead (s : Heartbeats) : s.shared.time ≤ s.nextRead := by
  unfold nextRead
  split <;> omega

theorem Start.alive {s : Heartbeats} (h : s.Start) : s.Alive where
  notDecided := h.notDecided
  notElecting := h.notElecting
  inOrder := by simp [InOrder, h.unread, Timely]
  sent := h.sent.2
  due := by
    simp only [Heartbeats.due, h.unread, lastDue, h.stored]
    exact h.sent.1

theorem running_iff_time {s : Heartbeats} (hdecided : s.shared.newLeaderDecided = false)
    (helecting : s.shared.isElectionRunning = false) :
    s.Running ↔ s.shared.time ≤ s.shared.lastHeartbeat + heartbeatTimeoutSeconds := by
  simp only [Running, Shared.isManagerRunning, hdecided, helecting, Shared.heartbeatExpired,
    Bool.or_false, Bool.not_eq_true', decide_eq_false_iff_not]
  omega

theorem Running.time_le {s : Heartbeats} (h : s.Running) :
    s.shared.time ≤ s.shared.lastHeartbeat + heartbeatTimeoutSeconds := by
  simp only [Running, Shared.isManagerRunning, Bool.not_eq_true', Bool.or_eq_false_iff] at h
  exact (running_iff_time h.1.2 h.2).mp (by simp [Running, Shared.isManagerRunning, h])

theorem Alive.running {s : Heartbeats} (h : s.Alive) : s.Running := by
  refine (running_iff_time h.notDecided h.notElecting).mpr ?_
  have htimeout : heartbeatTimeoutSeconds = 5 := rfl
  have hsent := h.sent
  have hdue := h.due
  have hnext := s.time_le_nextRead
  rcases h.inOrder.next_le with hnone | hread
  · -- the last heartbeat sent is the last one read
    rw [Heartbeats.due, hnone] at hdue
    omega
  · exact hnext.trans hread

/-- A step that sends no late heartbeat keeps the manager alive. -/
theorem alive_step {s t : Heartbeats} {a : Action} (hs : s.Alive) (hok : s.InTime a)
    (h : step s a = some t) : t.Alive := by
  have hnext := s.time_le_nextRead
  rcases step_cases h with ⟨rfl, rfl⟩ | ⟨event, rfl, rfl⟩ | ⟨rfl, hdone, rfl⟩ |
    ⟨rfl, hdone, hlate, rfl⟩
  · have hdue := due_send s (serializeReplicaEvent createHeartbeatEvent)
    rw [if_pos isHeartbeat_heartbeat] at hdue
    refine ⟨hs.notDecided, hs.notElecting, inOrder_send.mpr ⟨hs.inOrder, fun _ => hok rfl⟩,
      Nat.le_add_right _ 2, ?_⟩
    calc s.shared.time ≤ s.nextRead + s.unread.length := hnext.trans (Nat.le_add_right _ _)
      _ = (s.send (serializeReplicaEvent createHeartbeatEvent)).due := hdue.symm
  · have hnot := not_isHeartbeat_session event
    have hdue := due_send s (serializeReplicaEvent event.toReplicaEvent)
    rw [if_neg hnot] at hdue
    exact ⟨hs.notDecided, hs.notElecting,
      inOrder_send.mpr ⟨hs.inOrder, fun hyes => absurd hyes hnot⟩, hs.sent,
      hs.due.trans_eq hdue.symm⟩
  · obtain ⟨htime, hdecided, helecting⟩ := time_communicate s.shared s.unread.head?
    exact ⟨hdecided.trans hs.notDecided, helecting.trans hs.notElecting,
      ((inOrder_iterate hdone).mp hs.inOrder).1, htime.trans_le hs.sent,
      hs.due.trans_eq (due_iterate hdone).symm⟩
  · have hread := nextRead_clock hdone
    refine ⟨hs.notDecided, hs.notElecting, ?_, hlate, ?_⟩
    · rw [InOrder, hread]
      exact hs.inOrder
    · rw [Heartbeats.due, hread]
      exact hs.due

/-- While the manager counts as running, a heartbeat that will be late was late before, and none
is sent late if in the end all of them are in time. -/
theorem inOrder_back {s t : Heartbeats} {a : Action} (h : step s a = some t) (hs : s.Running)
    (ht : t.InOrder) : s.InOrder ∧ s.InTime a := by
  rcases step_cases h with ⟨rfl, rfl⟩ | ⟨event, rfl, rfl⟩ | ⟨rfl, hdone, rfl⟩ |
    ⟨rfl, hdone, -, rfl⟩
  · have hsend : (s.send (serializeReplicaEvent createHeartbeatEvent)).InOrder := ht
    obtain ⟨horder, htime⟩ := inOrder_send.mp hsend
    exact ⟨horder, fun _ => htime isHeartbeat_heartbeat⟩
  · exact ⟨(inOrder_send.mp ht).1, nofun⟩
  · exact ⟨(inOrder_iterate hdone).mpr ⟨ht, fun _ _ _ => hs.time_le⟩, nofun⟩
  · rw [InOrder, nextRead_clock hdone] at ht
    exact ⟨ht, nofun⟩

/-- A run declares no live manager dead if every heartbeat is sent in time; and if all heartbeats
of the run have been read, only then. -/
theorem running_iff_inTime {s : Heartbeats} (hs : s.Start) (as : List Action) :
    (Along step InTime s as → Always step Running s as) ∧
    ∀ t ∈ run step s as, (∀ text ∈ t.unread, ¬IsHeartbeat text) →
      Always step Running s as → Along step InTime s as := by
  constructor
  · intro hok
    exact (hok.always (fun _ _ _ => alive_step) hs.alive).mono fun _ => Alive.running
  · intro t ht hread halways
    exact (halways.along_of_last (fun _ _ _ => inOrder_back) ht
      (timely_of_no_heartbeat hread)).2

/-! ## A busy session -/

/-- A backup that has just started, at second 0. -/
def started : Heartbeats where
  shared := .initial .backup 0 ⟨127, 0, 0, 1⟩ fun _ => none
  unread := []
  lastSent := 0
  iterated := false

def uploadOfReport : Action := .session (.uploaded [97] ⟨⟨127, 0, 0, 1⟩, 5000⟩ [114])

/-- Two seconds of the backup and the manager's next heartbeat. -/
def twoSeconds : List Action := [.iterate, .clock, .iterate, .clock, .heartbeat]

/-- The heartbeat of second 2 waits behind four uploads. -/
def fourUploads : List Action :=
  .heartbeat :: List.replicate 4 uploadOfReport ++ twoSeconds ++ twoSeconds ++ twoSeconds

theorem fourUploads_running :
    (run step started fourUploads).isSome ∧ Always step Running started fourUploads := by
  have hok : Along step InTime started fourUploads := by decide +kernel
  exact ⟨by decide +kernel, (running_iff_inTime ⟨rfl, rfl, rfl, rfl, rfl, by decide⟩ _).1 hok⟩

/-- The heartbeat of second 0 waits behind six uploads. -/
def sixUploads : List Action :=
  List.replicate 6 uploadOfReport ++ .heartbeat :: twoSeconds ++ twoSeconds ++ twoSeconds

theorem sixUploads_not_running : ¬Always step Running started sixUploads := by
  decide +kernel

end Heartbeats

end SyncServer
