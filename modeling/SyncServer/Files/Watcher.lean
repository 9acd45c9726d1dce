import SyncServer.Files.Echo
import SyncServer.Library.Records

/-! # The buffer of the directory watcher

The kernel writes events into the buffer of the watcher, as many as fit, and the watcher walks along
them with an offset into the buffer. What it does on the bytes is what a watcher would do that is
given one event after the other.
-/

namespace SyncServer

open CText Ending Records Transition

/-! ## Events in memory -/

def inCloseWrite : UInt32 := 0x8
def inMovedFrom : UInt32 := 0x40
def inMovedTo : UInt32 := 0x80
def inCreate : UInt32 := 0x100
def inDelete : UInt32 := 0x200

/-- The events that `inotify_add_watch` asks for. -/
def watchMask : UInt32 :=
  inCreate ||| inCloseWrite ||| inMovedTo ||| inDelete ||| inMovedFrom

/-- The events of which a file is sent. -/
def sendMask : UInt32 := inCloseWrite ||| inCreate ||| inMovedTo

/-- The events of which a deletion is sent. -/
def deleteMask : UInt32 := inDelete ||| inMovedFrom

def sizeofInotifyEvent : ℕ := 16

/-- `EVENT_BUF_LEN`. -/
def eventBufLen : ℕ := 1024 * (sizeofInotifyEvent + 16)

/-- `struct inotify_event` with its name and the zeros behind it. One of the events that were asked
for stands in the mask, or none when the kernel tells of something else, and only then there may be
no name. -/
structure InotifyEvent where
  wd : UInt32
  mask : UInt32
  cookie : UInt32
  name : Bytes
  padding : ℕ
  zero_not_mem : 0 ∉ name
  length_lt : name.length + padding < 2 ^ 32
  one : mask &&& watchMask ∈ [0, inCreate, inCloseWrite, inMovedTo, inDelete, inMovedFrom]
  terminated : mask &&& watchMask ≠ 0 → 0 < padding

namespace InotifyEvent

def bytes (event : InotifyEvent) : Bytes :=
  littleEndian 4 event.wd.toNat ++ (littleEndian 4 event.mask.toNat ++
    (littleEndian 4 event.cookie.toNat ++
      (littleEndian 4 (event.name.length + event.padding) ++
        (event.name ++ List.replicate event.padding 0))))

/-- What the event says of the folder. -/
def shown (event : InotifyEvent) : Option WatchEvent :=
  if event.mask &&& watchMask = inCreate then some (.create event.name)
  else if event.mask &&& watchMask = inCloseWrite then some (.closeWrite event.name)
  else if event.mask &&& watchMask = inMovedTo then some (.movedTo event.name)
  else if event.mask &&& watchMask = inDelete then some (.delete event.name)
  else if event.mask &&& watchMask = inMovedFrom then some (.movedFrom event.name)
  else none

@[simp] theorem length_bytes (event : InotifyEvent) :
    event.bytes.length = sizeofInotifyEvent + (event.name.length + event.padding) := by
  simp only [bytes, List.length_append, length_littleEndian, List.length_replicate,
    sizeofInotifyEvent]
  omega

end InotifyEvent

/-! ## The loop over the events -/

inductive WatchAction where
  | sleep (seconds : ℕ)
  | sendFile (name : Bytes)
  | delete (name : Bytes)
  deriving DecidableEq, Repr

/-- `event->name`, if it ends inside the buffer. -/
def eventName (buffer : Bytes) (i : ℕ) : Ending Fault Bytes :=
  if 0 ∈ buffer.drop (i + sizeofInotifyEvent) then
    done (cString (buffer.drop (i + sizeofInotifyEvent)))
  else faults .overread

/-- The first test of the mask. -/
def eventSends (buffer : Bytes) (i : ℕ) (mask : UInt32) : Ending Fault (List WatchAction) :=
  if mask &&& sendMask ≠ 0 then do
    let name ← eventName buffer i
    done [.sleep 1, .sendFile name]
  else done []

/-- The second test, where `sleep(i)` takes the offset for the seconds. -/
def eventDeletes (buffer : Bytes) (i : ℕ) (mask : UInt32) : Ending Fault (List WatchAction) :=
  if mask &&& deleteMask ≠ 0 then do
    let name ← eventName buffer i
    done [.sleep i, .delete name]
  else done []

/-- One round of the loop, with the offset of the next event. -/
def handleEvent (buffer : Bytes) (i : ℕ) : Ending Fault (List WatchAction × ℕ) :=
  if buffer.length < i + sizeofInotifyEvent then faults .overread
  else do
    let mask := UInt32.ofNat (readLittleEndian ((buffer.drop (i + 4)).take 4))
    let len := readLittleEndian ((buffer.drop (i + 12)).take 4)
    let sent ← eventSends buffer i mask
    let deleted ← eventDeletes buffer i mask
    done (sent ++ deleted, i + (sizeofInotifyEvent + len))

/-- What the watcher does for an event at an offset. -/
def WatchEvent.actions (i : ℕ) : WatchEvent → List WatchAction
  | create name | closeWrite name | movedTo name => [.sleep 1, .sendFile name]
  | delete name | movedFrom name => [.sleep i, .delete name]

def InotifyEvent.actions (i : ℕ) (event : InotifyEvent) : List WatchAction :=
  (event.shown.map (WatchEvent.actions i)).getD []

/-! ### One round -/

theorem drop_length_append {front field rest : Bytes} {k : ℕ} (h : field.length = k) :
    (front ++ (field ++ rest)).drop (front.length + k) = rest := by
  rw [← List.append_assoc]
  exact List.drop_left' (by simp [h])

section

variable (front rest : Bytes) (event : InotifyEvent)

/-- The fields of an event in the buffer. -/
theorem fields_of_bytes :
    UInt32.ofNat (readLittleEndian
      (((front ++ (event.bytes ++ rest)).drop (front.length + 4)).take 4)) = event.mask ∧
    readLittleEndian (((front ++ (event.bytes ++ rest)).drop (front.length + 12)).take 4) =
      event.name.length + event.padding ∧
    (front ++ (event.bytes ++ rest)).drop (front.length + sizeofInotifyEvent) =
      event.name ++ (List.replicate event.padding 0 ++ rest) := by
  have htake : ∀ {n : ℕ} (later : Bytes), n < 2 ^ 32 →
      readLittleEndian ((littleEndian 4 n ++ later).take 4) = n := fun later hn => by
    rw [List.take_left' (length_littleEndian 4 _), readLittleEndian_littleEndian,
      Nat.mod_eq_of_lt (by simpa using hn)]
  refine ⟨?_, ?_, ?_⟩
  · rw [InotifyEvent.bytes, List.append_assoc, drop_length_append (length_littleEndian 4 _),
      List.append_assoc, htake _ event.mask.toNat_lt, UInt32.ofNat_toNat]
  · have hfields : (littleEndian 4 event.wd.toNat ++ (littleEndian 4 event.mask.toNat ++
        littleEndian 4 event.cookie.toNat)).length = 12 := by simp
    have hbytes : event.bytes ++ rest = (littleEndian 4 event.wd.toNat ++
        (littleEndian 4 event.mask.toNat ++ littleEndian 4 event.cookie.toNat)) ++
        (littleEndian 4 (event.name.length + event.padding) ++
          (event.name ++ List.replicate event.padding 0 ++ rest)) := by
      simp [InotifyEvent.bytes]
    rw [hbytes, drop_length_append hfields, htake _ event.length_lt]
  · have hfields : (littleEndian 4 event.wd.toNat ++ (littleEndian 4 event.mask.toNat ++
        (littleEndian 4 event.cookie.toNat ++
          littleEndian 4 (event.name.length + event.padding)))).length =
        sizeofInotifyEvent := by simp [sizeofInotifyEvent]
    have hbytes : event.bytes ++ rest = (littleEndian 4 event.wd.toNat ++
        (littleEndian 4 event.mask.toNat ++ (littleEndian 4 event.cookie.toNat ++
          littleEndian 4 (event.name.length + event.padding)))) ++
        (event.name ++ (List.replicate event.padding 0 ++ rest)) := by
      simp [InotifyEvent.bytes]
    rw [hbytes, drop_length_append hfields]

theorem eventName_bytes (hpadding : 0 < event.padding) :
    eventName (front ++ (event.bytes ++ rest)) front.length = done event.name := by
  obtain ⟨n, hn⟩ := Nat.exists_eq_succ_of_ne_zero hpadding.ne'
  have hzeros : List.replicate event.padding (0 : UInt8) ++ rest =
      0 :: (List.replicate n 0 ++ rest) := by rw [hn, List.replicate_succ, List.cons_append]
  have hname := (cString_append_eq_iff event.zero_not_mem 0 (List.replicate n 0 ++ rest)).mpr rfl
  rw [eventName, (fields_of_bytes front rest event).2.2, hzeros, if_pos (by simp), hname]

/-- The two tests of the mask. -/
theorem mask_tests :
    event.mask &&& sendMask = (event.mask &&& watchMask) &&& sendMask ∧
      event.mask &&& deleteMask = (event.mask &&& watchMask) &&& deleteMask := by
  have hsend : watchMask &&& sendMask = sendMask := by decide
  have hdelete : watchMask &&& deleteMask = deleteMask := by decide
  exact ⟨by rw [UInt32.and_assoc, hsend], by rw [UInt32.and_assoc, hdelete]⟩

/-- A round does for an event in the buffer what the event asks for. -/
theorem handleEvent_bytes :
    handleEvent (front ++ (event.bytes ++ rest)) front.length =
      done (event.actions front.length, front.length + event.bytes.length) := by
  obtain ⟨hmask, hlen, -⟩ := fields_of_bytes front rest event
  obtain ⟨hsend, hdelete⟩ := mask_tests event
  have hheader : ¬(front ++ (event.bytes ++ rest)).length < front.length + sizeofInotifyEvent := by
    simp only [List.length_append, InotifyEvent.length_bytes]
    omega
  have hname : event.mask &&& watchMask ≠ 0 →
      eventName (front ++ (event.bytes ++ rest)) front.length = done event.name := fun h =>
    eventName_bytes front rest event (event.terminated h)
  have hone := event.one
  simp only [List.mem_cons, List.not_mem_nil, or_false] at hone
  simp only [handleEvent, if_neg hheader, hmask, hlen, eventSends, eventDeletes, hsend, hdelete,
    InotifyEvent.length_bytes, InotifyEvent.actions, InotifyEvent.shown]
  rcases hone with hone | hone | hone | hone | hone | hone
  · rw [hone]
    rfl
  all_goals
    rw [hname (by rw [hone]; decide), hone]
    rfl

end

/-! ### The whole buffer -/

theorem reads_handleEvent :
    Records.Reads InotifyEvent.bytes (fun i event => event.actions i) handleEvent where
  length_pos event := by
    rw [InotifyEvent.length_bytes, sizeofInotifyEvent]
    omega
  read front event rest := handleEvent_bytes front rest event

/-- The inner loop of the watcher, after a `read` of `length` bytes. -/
def handleEvents (buffer : Bytes) (length fuel : ℕ) : Ending Fault (List (List WatchAction)) :=
  loop handleEvent buffer length fuel 0

/-- Whatever events were read and whatever the buffer held before, the loop ends inside the buffer
and has done for each event what it asks for, a deletion after as many seconds as the events before
it are bytes. -/
theorem handleEvents_layout (events : List InotifyEvent) (stale : Bytes) {fuel : ℕ}
    (hfuel : events.length ≤ fuel) :
    ∃ made, handleEvents (layout InotifyEvent.bytes events ++ stale)
        (layout InotifyEvent.bytes events).length fuel = done made ∧
      made.length = events.length ∧
      ∀ before event after, events = before ++ event :: after →
        made[before.length]? = some (event.actions (layout InotifyEvent.bytes before).length) := by
  have hloop := reads_handleEvent.loop_eq hfuel [] stale
  simp only [List.nil_append, List.length_nil, Nat.zero_add] at hloop
  refine ⟨_, hloop, length_atOffsets 0 events, ?_⟩
  rintro before event after rfl
  rw [atOffsets_append, List.getElem?_append_right (length_atOffsets 0 before).le,
    length_atOffsets, Nat.sub_self, Nat.zero_add, atOffsets]
  rfl

def movedName : InotifyEvent where
  wd := 1
  mask := 0x40000080
  cookie := 7
  name := [97, 98]
  padding := 14
  zero_not_mem := by decide
  length_lt := by decide
  one := by decide
  terminated := by decide

def deletedName : InotifyEvent where
  wd := 1
  mask := 0x200
  cookie := 0
  name := [99, 98]
  padding := 14
  zero_not_mem := by decide
  length_lt := by decide
  one := by decide
  terminated := by decide

/-- The deletion sleeps 32 seconds because an event of 32 bytes stands before it. -/
theorem handleEvents_layout_of_two :
    ∃ made, handleEvents (layout InotifyEvent.bytes [movedName, deletedName] ++ [1, 2]) 64 2 =
        done made ∧ made[1]? = some [.sleep 32, .delete [99, 98]] := by
  obtain ⟨made, hdone, -, hmade⟩ := handleEvents_layout [movedName, deletedName] [1, 2]
    (by decide : [movedName, deletedName].length ≤ 2)
  exact ⟨made, hdone, hmade [movedName] deletedName [] rfl⟩

/-! ## The watcher of a client -/

namespace SyncClient

/-- The messages of an action. A file that does not open is not sent. -/
def perform (client : SyncClient) : WatchAction → List Message
  | .sleep _ => []
  | .sendFile name =>
      match fileAt id (createFilepath client.folder name) client.disk with
      | none => []
      | some content => [.upload name content (client.received name)]
  | .delete name => [.delete name]

/-- The client with other events before those that the kernel holds. -/
def prepend (client : SyncClient) (events : List WatchEvent) : SyncClient :=
  { client with queue := events ++ client.queue }

@[simp] theorem prepend_nil (client : SyncClient) : client.prepend [] = client := rfl

/-- At any offset the messages are those of the event. -/
theorem watch_prepend (client : SyncClient) (i : ℕ) (event : WatchEvent)
    (events : List WatchEvent) :
    (client.prepend (event :: events)).watch =
      some ((event.actions i).flatMap client.perform, client.prepend events) := by
  cases event with
  | create name | closeWrite name | movedTo name =>
      cases hfile : fileAt id (createFilepath client.folder name) client.disk with
      | none | some content => simp [watch, prepend, WatchEvent.actions, perform, hfile]
  | delete name | movedFrom name => simp [watch, prepend, WatchEvent.actions, perform]

theorem edit_prepend (client : SyncClient) (events : List WatchEvent) (change : LocalEdit) :
    (client.prepend events).edit change =
      (client.edit change).map fun client => client.prepend events := by
  cases change with
  | put name content moved => simp [edit, prepend, Option.map_map, Function.comp_def]
  | take name moved =>
      simp [edit, prepend, Option.map_bind, Option.map_map, Function.comp_def]

theorem receive_prepend (client : SyncClient) (events : List WatchEvent) (message : Message) :
    (client.prepend events).receive message =
      (client.receive message).map fun client => client.prepend events := by
  simp only [receive, Option.map_map, Function.comp_def]
  congr 1
  funext arrived
  cases message with
  | upload name content echo =>
      simp [prepend, stored]
      rfl
  | delete name =>
      simp [prepend, stored]
      rfl

end SyncClient

/-- A client whose watcher reads from a buffer: `client.queue` is what the kernel still holds, and
the inner loop stands at `i`. -/
structure WatchedClient where
  client : SyncClient
  buffer : Bytes
  length : ℕ
  i : ℕ
  sent : List Message

inductive WatchedStep where
  | edit (change : LocalEdit)
  | receive (message : Message)
  | read (events : List InotifyEvent)
  | handle

/-- The changes of the folder from outside the watcher. -/
inductive FolderChange where
  | edit (change : LocalEdit)
  | receive (message : Message)

namespace WatchedClient

def initial (client : SyncClient) (buffer : Bytes) : WatchedClient := ⟨client, buffer, 0, 0, []⟩

/-- What the kernel tells of the folder with some events. -/
def shown (events : List InotifyEvent) : List WatchEvent := events.filterMap InotifyEvent.shown

def step (s : WatchedClient) : WatchedStep → Option WatchedClient
  | .edit change => (s.client.edit change).map fun client => { s with client }
  | .receive message => (s.client.receive message).map fun client => { s with client }
  -- the kernel writes the oldest events, no more than fit
  | .read events =>
      if s.length ≤ s.i ∧ (layout InotifyEvent.bytes events).length ≤ eventBufLen ∧
          shown events <+: s.client.queue then
        some { s with
          client := { s.client with queue := s.client.queue.drop (shown events).length }
          buffer := layout InotifyEvent.bytes events ++
            s.buffer.drop (layout InotifyEvent.bytes events).length
          length := (layout InotifyEvent.bytes events).length
          i := 0 }
      else none
  | .handle =>
      if s.i < s.length then
        (handleEvent s.buffer s.i).returned.map fun (made, i) =>
          { s with i, sent := s.sent ++ made.flatMap s.client.perform }
      else none

/-- The steps of a client that is given one event after the other, with what it has sent. -/
def eventStep : SyncClient × List Message → Option FolderChange → Option (SyncClient × List Message)
  | (client, sent), some (.edit change) => (client.edit change).map fun client => (client, sent)
  | (client, sent), some (.receive message) =>
      (client.receive message).map fun client => (client, sent)
  | (client, sent), none => client.watch.map fun (messages, client) => (client, sent ++ messages)

def change? : WatchedStep → Option FolderChange
  | .edit change => some (.edit change)
  | .receive message => some (.receive message)
  | .read _ | .handle => none

/-! ### The invariant -/

/-- The events that are left in the buffer. -/
structure Holds (s : WatchedClient) (events : List InotifyEvent) : Prop where
  buffer : ∃ front stale, s.buffer = front ++ (layout InotifyEvent.bytes events ++ stale) ∧
    s.i = front.length
  length : s.length = s.i + (layout InotifyEvent.bytes events).length

variable {s t : WatchedClient} {events : List InotifyEvent}

theorem holds_initial (client : SyncClient) (buffer : Bytes) :
    Holds (initial client buffer) [] where
  buffer := ⟨[], buffer, rfl, rfl⟩
  length := rfl

/-- The state of the client that is given the events one by one. -/
def given (s : WatchedClient) (events : List InotifyEvent) : SyncClient × List Message :=
  (s.client.prepend (shown events), s.sent)

/-- The inner loop is never stuck. -/
theorem Holds.handle (h : Holds s events) (hi : s.i < s.length) :
    ∃ event later, events = event :: later ∧
      s.step .handle = some { s with
        i := s.i + event.bytes.length
        sent := s.sent ++ (event.actions s.i).flatMap s.client.perform } ∧
      Holds { s with
        i := s.i + event.bytes.length
        sent := s.sent ++ (event.actions s.i).flatMap s.client.perform } later := by
  obtain ⟨front, stale, hbuffer, hfront⟩ := h.buffer
  have hlength := h.length
  obtain ⟨event, later, rfl⟩ := exists_cons_of_length
    (by omega : 0 < (layout InotifyEvent.bytes events).length)
  rw [layout_cons, List.append_assoc] at hbuffer
  have hhandle := handleEvent_bytes front (layout InotifyEvent.bytes later ++ stale) event
  rw [← hbuffer, ← hfront] at hhandle
  refine ⟨event, later, rfl, ?_, ⟨front ++ event.bytes, stale, ?_, ?_⟩, ?_⟩
  · simp [step, hi, hhandle, returned]
  · rw [hbuffer, List.append_assoc]
  · simp [hfront]
  · simp only [hlength, layout_cons, List.length_append]
    omega

theorem Holds.eq_nil (h : Holds s events) (hi : s.length ≤ s.i) : events = [] := by
  cases events with
  | nil => rfl
  | cons event later =>
      have hlength := h.length
      rw [layout_cons, List.length_append, InotifyEvent.length_bytes, sizeofInotifyEvent] at hlength
      omega

/-- A step of the watcher is a step with the next event, or none. -/
theorem Holds.step (h : Holds s events) {a : WatchedStep} (hstep : s.step a = some t) :
    ∃ bs events', run eventStep (s.given events) bs = some (t.given events') ∧
      bs.reduceOption = (change? a).toList ∧ Holds t events' := by
  cases a with
  | edit change =>
      obtain ⟨client, hedit, rfl⟩ := Option.map_eq_some_iff.mp hstep
      refine ⟨[some (.edit change)], events, ?_, rfl, ⟨h.buffer, h.length⟩⟩
      refine run_cons_eq_some.mpr ⟨_, ?_, rfl⟩
      simp [eventStep, given, SyncClient.edit_prepend, hedit]
  | receive message =>
      obtain ⟨client, hreceive, rfl⟩ := Option.map_eq_some_iff.mp hstep
      refine ⟨[some (.receive message)], events, ?_, rfl, ⟨h.buffer, h.length⟩⟩
      refine run_cons_eq_some.mpr ⟨_, ?_, rfl⟩
      simp [eventStep, given, SyncClient.receive_prepend, hreceive]
  | read new =>
      obtain ⟨⟨hi, -, hprefix⟩, hstep⟩ := Option.ite_none_right_eq_some.mp hstep
      obtain rfl := Option.some.inj hstep
      obtain rfl := h.eq_nil hi
      refine ⟨[], new, ?_, rfl, ⟨⟨[], _, rfl, rfl⟩, (Nat.zero_add _).symm⟩⟩
      obtain ⟨rest, hqueue⟩ := hprefix
      simp [given, SyncClient.prepend, shown, ← hqueue]
  | handle =>
      have hi : s.i < s.length := by
        simp only [WatchedClient.step] at hstep
        split at hstep
        · assumption
        · cases hstep
      obtain ⟨event, later, rfl, hhandle, hholds⟩ := h.handle hi
      obtain rfl := Option.some.inj (hhandle.symm.trans hstep)
      cases hshown : event.shown with
      | none =>
          refine ⟨[], later, ?_, rfl, hholds⟩
          simp [given, shown, hshown, InotifyEvent.actions]
      | some seen =>
          refine ⟨[none], later, run_cons_eq_some.mpr ⟨_, ?_, rfl⟩, rfl, hholds⟩
          have hqueue : shown (event :: later) = seen :: shown later := by simp [shown, hshown]
          have hactions : event.actions s.i = seen.actions s.i := by
            rw [InotifyEvent.actions, hshown]
            rfl
          rw [given, hqueue, eventStep, s.client.watch_prepend s.i seen, hactions]
          rfl

theorem Holds.run (h : Holds s events) {as : List WatchedStep}
    (hrun : run WatchedClient.step s as = some t) :
    ∃ bs events', Transition.run eventStep (s.given events) bs = some (t.given events') ∧
      bs.reduceOption = as.filterMap change? ∧ Holds t events' := by
  induction as generalizing s events with
  | nil =>
      obtain rfl := Option.some.inj hrun
      exact ⟨[], events, rfl, rfl, h⟩
  | cons a as ih =>
      obtain ⟨u, hstep, hrun⟩ := run_cons_eq_some.mp hrun
      obtain ⟨bs, events₁, hbs, hchange, hu⟩ := h.step hstep
      obtain ⟨bs', events', hbs', hchange', ht⟩ := ih hu hrun
      refine ⟨bs ++ bs', events', run_append_eq_some.mpr ⟨_, hbs, hbs'⟩, ?_, ht⟩
      rw [List.reduceOption_append, hchange, hchange']
      cases hfirst : change? a with
      | none => simp [hfirst]
      | some change => simp [hfirst]

/-- Whatever happens to the folder meanwhile and however the kernel hands the events over, the
watcher never reads beyond its buffer, and sends what it would send if it were given the events one
by one; when its inner loop is over, nothing that was read is left. -/
theorem simulates_syncClient {client : SyncClient} {buffer : Bytes} {as : List WatchedStep}
    (hrun : run step (initial client buffer) as = some s) :
    (s.i < s.length → (s.step .handle).isSome = true) ∧
    ∃ bs pending, run eventStep (client, []) bs = some (s.client.prepend pending, s.sent) ∧
      bs.reduceOption = as.filterMap change? ∧ (s.length ≤ s.i → pending = []) := by
  obtain ⟨bs, events, hbs, hchange, h⟩ := (holds_initial client buffer).run hrun
  refine ⟨fun hi => ?_, bs, shown events, hbs, hchange, fun hi => ?_⟩
  · obtain ⟨event, later, -, hhandle, -⟩ := h.handle hi
    rw [hhandle]
    rfl
  · rw [h.eq_nil hi]
    rfl

def movedEntry : EntryName := ⟨[97, 98], by decide, by decide, by decide⟩

/-- A file is moved into an empty folder and sent. -/
def movedIn : List WatchedStep :=
  [.edit (.put movedEntry [1, 2, 3] true), .read [movedName], .handle]

def emptyClient : SyncClient := ⟨[115], .granted, fun _ => none, [], fun _ => false⟩

theorem simulates_syncClient_of_movedIn :
    ∃ s bs, run step (initial emptyClient [0, 0]) movedIn = some s ∧
      s.sent = [.upload [97, 98] [1, 2, 3] false] ∧
      run eventStep (emptyClient, []) bs = some (s.client, s.sent) := by
  have h : (run step (initial emptyClient [0, 0]) movedIn).any
      (fun s => s.sent = [.upload [97, 98] [1, 2, 3] false] ∧ s.length ≤ s.i) = true := by
    decide +kernel
  obtain ⟨s, hrun, h⟩ := (Option.any_eq_true _ _).mp h
  obtain ⟨hsent, hi⟩ := of_decide_eq_true h
  obtain ⟨-, bs, pending, hbs, -, hpending⟩ := simulates_syncClient hrun
  rw [hpending hi] at hbs
  exact ⟨s, bs, hrun, hsent, hbs⟩

end WatchedClient

end SyncServer
