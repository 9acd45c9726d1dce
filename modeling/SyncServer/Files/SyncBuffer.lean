import SyncServer.Files.UserFiles
import SyncServer.Library.CircularBuffer
import SyncServer.Library.Transition

/-! # The buffer between the threads of two sessions

The receive threads of the other sessions of a user add to the buffer of a session, and its send
thread takes from it. A step of a producer is a whole section under the lock of the buffer; the
sender takes a step for each reading of `active`, which is stored without the lock. The indices
and the counter of the buffer stay nonnegative, where `%` is the remainder of C.
-/

namespace SyncServer.FileSync

open CText Transition

/-! ## The memory of a session -/

/-- `struct fileEntry`; a null pointer is `none`. -/
structure FileEntry where
  valid : Bool
  type : FileEntryType
  username : Option Bytes
  toSessionIndex : ℤ
  filename : Option Bytes
  deriving DecidableEq, Repr

/-- `{ .valid = 0 }`. -/
def FileEntry.invalid : FileEntry := ⟨false, .send, none, 0, none⟩

abbrev FileSyncBuffer := CircularBuffer FileEntry

/-- What the functions read of the session besides the buffer and `active`. -/
structure Owner where
  username : Bytes
  sessionIndex : ℤ

/-- The entry that `add_file_to_sync_buffer` fills. -/
def Owner.entry (owner : Owner) (filename : Bytes) (type : FileEntryType) : FileEntry :=
  ⟨true, type, some owner.username, owner.sessionIndex, some filename⟩

/-! ## Where the threads stand -/

/-- A thread of another session, outside `add_file_to_sync_buffer` or in it: before its first
section, asleep in `pthread_cond_wait`, or about to leave it. -/
inductive Producer where
  | outside
  | locking (filename : Bytes) (type : FileEntryType)
  | waiting (filename : Bytes) (type : FileEntryType)
  | woken (filename : Bytes) (type : FileEntryType)
  deriving DecidableEq, Repr

def Producer.isInside : Producer → Bool
  | outside => false
  | _ => true

def Producer.isAsleep : Producer → Bool
  | waiting _ _ => true
  | _ => false

/-- The thread has begun a wait and has not tested the loop condition since. -/
def Producer.isInWait : Producer → Bool
  | waiting _ _ | woken _ _ => true
  | _ => false

/-- A sleeping thread is signalled. -/
def Producer.wake : Producer → Producer
  | waiting filename type => woken filename type
  | producer => producer

/-- `send_f` and `get_next_file_to_sync`: `test` is the loop condition around the wait and
`check` the test after it, both under the lock. -/
inductive Sender where
  | loop
  | lock
  | test
  | waiting
  | woken
  | check
  | returned (entry : FileEntry)
  | stopped
  deriving DecidableEq, Repr

def Sender.holdsLock : Sender → Bool
  | test | check => true
  | _ => false

def Sender.wake : Sender → Sender
  | waiting => woken
  | sender => sender

/-- `interface` at `PACKET_EXIT`: `active` is cleared, and then `signal_shutdown` returns. -/
inductive Exit where
  | serving
  | cleared
  | signalled
  deriving DecidableEq, Repr

structure Session where
  buffer : FileSyncBuffer
  active : Bool
  producers : List Producer
  sender : Sender
  exit : Exit

/-- A step of the thread that it names. `send` names the producer that is signalled, if one
waits; `wakeProducer` and `wakeSender` are wake-ups that nobody caused. -/
inductive Action where
  | call (p : ℕ) (filename : Bytes) (type : FileEntryType)
  | produce (p : ℕ)
  | wakeProducer (p : ℕ)
  | send (signalled : Option ℕ)
  | wakeSender
  | clearActive
  | signalShutdown
  deriving DecidableEq, Repr

/-! ## The steps -/

/-- `pthread_cond_signal` on `not_full` wakes a thread if one waits. -/
def signalNotFull (producers : List Producer) : Option ℕ → Option (List Producer)
  | none => if producers.any (·.isAsleep) then none else some producers
  | some p =>
      match producers[p]? with
      | some producer =>
          if producer.isAsleep then some (producers.set p producer.wake) else none
      | none => none

namespace Session

variable (owner : Owner)

/-- `add_file_to_sync_buffer` from the loop condition on. -/
def addSection (s : Session) (p : ℕ) (filename : Bytes) (type : FileEntryType) : Session :=
  if s.buffer.count = fileSyncBufferSize then
    { s with producers := s.producers.set p (.waiting filename type) }
  else
    { s with
      buffer := s.buffer.push fileSyncBufferSize (owner.entry filename type)
      producers := s.producers.set p .outside
      sender := s.sender.wake }

/-- The next statement of the send thread. -/
def sendStep (s : Session) (signalled : Option ℕ) : Option Session :=
  match s.sender with
  | .loop => some { s with sender := if s.active then .lock else .stopped }
  | .lock | .woken => some { s with sender := .test }
  | .test =>
      some { s with sender := if s.buffer.count = 0 ∧ s.active then .waiting else .check }
  | .waiting => none
  | .check =>
      if s.active then
        (signalNotFull s.producers signalled).map fun producers =>
          { s with
            buffer := s.buffer.pop fileSyncBufferSize
            producers := producers
            sender := .returned s.buffer.front }
      else some { s with sender := .returned .invalid }
  | .returned _ => some { s with sender := .loop }
  | .stopped => none

def step (s : Session) : Action → Option Session
  | .call p filename type =>
      if s.producers[p]? = some .outside then
        some { s with producers := s.producers.set p (.locking filename type) }
      else none
  | .produce p =>
      if s.sender.holdsLock then none
      else match s.producers[p]? with
        | some (.locking filename type) | some (.woken filename type) =>
            some (s.addSection owner p filename type)
        | _ => none
  | .wakeProducer p =>
      match s.producers[p]? with
      | some (.waiting filename type) =>
          some { s with producers := s.producers.set p (.woken filename type) }
      | _ => none
  | .send signalled => s.sendStep signalled
  | .wakeSender => if s.sender = .waiting then some { s with sender := .woken } else none
  | .clearActive =>
      if s.exit = .serving then some { s with active := false, exit := .cleared } else none
  | .signalShutdown =>
      if s.exit = .cleared ∧ s.sender.holdsLock = false then
        some { s with
          producers := s.producers.map (·.wake)
          sender := s.sender.wake
          exit := .signalled }
      else none

/-- The session that `create_session` makes, and the threads around it. The slots of the buffer
hold what the memory held. -/
def create (memory : ℤ → FileEntry) (producers : ℕ) : Session where
  buffer := .empty memory
  active := true
  producers := List.replicate producers .outside
  sender := .loop
  exit := .serving

end Session

/-! ## What was added and what was returned -/

/-- The entries whose sections have run, in the order of the sections. -/
structure Log where
  added : List FileEntry
  returned : List FileEntry

/-- The observer of the entries that are added and returned. -/
def logAfter (owner : Owner) (log : Log) (s : Session) : Action → Log
  | .produce p =>
      match s.producers[p]? with
      | some (.locking filename type) | some (.woken filename type) =>
          if s.buffer.count = fileSyncBufferSize then log
          else { log with added := log.added ++ [owner.entry filename type] }
      | _ => log
  | .send _ =>
      if s.sender = .check ∧ s.active = true then
        { log with returned := log.returned ++ [s.buffer.front] }
      else log
  | _ => log

abbrev Session.stepWithLog (owner : Owner) : Log × Session → Action → Option (Log × Session) :=
  watch (logAfter owner) (Session.step owner)

/-- The buffer is a queue: what was returned and what stands in the buffer from `start` on is
what was added, the counter stays within its bounds and `end` is where it places it. The entry in
the hands of the sender is the last one returned. -/
def Session.IsQueue : Log × Session → Prop
  | (log, s) =>
      log.returned ++ s.buffer.contents fileSyncBufferSize = log.added ∧
      (0 ≤ s.buffer.count ∧ s.buffer.count ≤ fileSyncBufferSize) ∧
      s.buffer.stop = (s.buffer.start + s.buffer.count) % fileSyncBufferSize ∧
      ∀ entry, s.sender = .returned entry → entry.valid = true →
        log.returned.getLast? = some entry

/-- What every step preserves. An active sender leaves its wait only when there is an entry. -/
structure Session.Sound (log : Log) (s : Session) : Prop where
  wellFormed : s.buffer.WellFormed fileSyncBufferSize
  accounted : log.returned ++ s.buffer.contents fileSyncBufferSize = log.added
  nonempty : s.sender = .check → s.active = true → s.buffer.count ≠ 0
  last : ∀ entry, s.sender = .returned entry → entry.valid = true →
    log.returned.getLast? = some entry

theorem Sender.wake_eq_check {sender : Sender} : sender.wake = .check ↔ sender = .check := by
  cases sender <;> simp [wake]

theorem Sender.wake_eq_returned {sender : Sender} {entry : FileEntry} :
    sender.wake = .returned entry ↔ sender = .returned entry := by
  cases sender <;> simp [wake]

namespace Session

variable {owner : Owner} {log : Log} {s t : Session}

/-! ### What each step can do -/

theorem call_cases {p : ℕ} {filename : Bytes} {type : FileEntryType}
    (h : s.step owner (.call p filename type) = some t) :
    s.producers[p]? = some .outside ∧
      t = { s with producers := s.producers.set p (.locking filename type) } := by
  simp only [Session.step] at h
  split at h
  · rename_i hp
    exact ⟨hp, (Option.some.inj h).symm⟩
  · cases h

/-- The producer of a section is in its call and awake. -/
theorem produce_cases {p : ℕ} (h : s.step owner (.produce p) = some t) :
    ∃ filename type, (s.producers[p]? = some (.locking filename type) ∨
        s.producers[p]? = some (.woken filename type)) ∧
      t = s.addSection owner p filename type := by
  simp only [Session.step] at h
  split at h
  · cases h
  · split at h
    · rename_i filename type hp
      exact ⟨filename, type, .inl hp, (Option.some.inj h).symm⟩
    · rename_i filename type hp
      exact ⟨filename, type, .inr hp, (Option.some.inj h).symm⟩
    · cases h

theorem wakeProducer_cases {p : ℕ} (h : s.step owner (.wakeProducer p) = some t) :
    ∃ filename type, s.producers[p]? = some (.waiting filename type) ∧
      t = { s with producers := s.producers.set p (.woken filename type) } := by
  simp only [Session.step] at h
  split at h
  · rename_i filename type hp
    exact ⟨filename, type, hp, (Option.some.inj h).symm⟩
  · cases h

theorem wakeSender_cases (h : s.step owner .wakeSender = some t) :
    s.sender = .waiting ∧ t = { s with sender := .woken } := by
  simp only [Session.step] at h
  split at h
  · rename_i hsender
    exact ⟨hsender, (Option.some.inj h).symm⟩
  · cases h

theorem clearActive_cases (h : s.step owner .clearActive = some t) :
    s.exit = .serving ∧ t = { s with active := false, exit := .cleared } := by
  simp only [Session.step] at h
  split at h
  · rename_i hexit
    exact ⟨hexit, (Option.some.inj h).symm⟩
  · cases h

theorem signalShutdown_cases (h : s.step owner .signalShutdown = some t) :
    (s.exit = .cleared ∧ s.sender.holdsLock = false) ∧
      t = { s with
        producers := s.producers.map (·.wake)
        sender := s.sender.wake
        exit := .signalled } := by
  simp only [Session.step] at h
  split at h
  · rename_i hexit
    exact ⟨hexit, (Option.some.inj h).symm⟩
  · cases h

/-! ### The account -/

theorem Sound.isQueue (h : Sound log s) : IsQueue (log, s) :=
  ⟨h.accounted, ⟨h.wellFormed.count_nonneg, h.wellFormed.count_le⟩, h.wellFormed.stop_eq, h.last⟩

/-- A step that leaves the buffer alone and does not bring the sender past its tests. -/
theorem Sound.of_buffer_eq (h : Sound log s) (hbuffer : t.buffer = s.buffer)
    (hcheck : t.sender = .check → t.active = true → s.sender = .check ∧ s.active = true)
    (hreturned : ∀ entry, t.sender = .returned entry → entry.valid = true →
      s.sender = .returned entry) : Sound log t where
  wellFormed := hbuffer ▸ h.wellFormed
  accounted := hbuffer ▸ h.accounted
  nonempty hs ha := hbuffer ▸ h.nonempty (hcheck hs ha).1 (hcheck hs ha).2
  last entry he hv := h.last entry (hreturned entry he hv) hv

/-- The section of a producer keeps the account. -/
theorem Sound.addSection (h : Sound log s) (p : ℕ) (filename : Bytes) (type : FileEntryType) :
    Sound (if s.buffer.count = fileSyncBufferSize then log
      else { log with added := log.added ++ [owner.entry filename type] })
      (s.addSection owner p filename type) := by
  unfold Session.addSection
  split
  · exact h.of_buffer_eq rfl (fun hs ha => ⟨hs, ha⟩) fun entry he _ => he
  · rename_i hroom
    refine ⟨h.wellFormed.push hroom _, ?_, ?_, ?_⟩
    · rw [CircularBuffer.contents_push h.wellFormed hroom, ← List.append_assoc, h.accounted]
    · intro _ _
      have hcount := h.wellFormed.count_nonneg
      simp only [CircularBuffer.push]
      omega
    · intro entry he hv
      exact h.last entry (Sender.wake_eq_returned.mp he) hv

/-- The section in which the sender takes an entry keeps the account. -/
theorem Sound.take (h : Sound log s) (hcheck : s.sender = .check) (ha : s.active = true)
    (producers : List Producer) :
    Sound { log with returned := log.returned ++ [s.buffer.front] }
      { s with
        buffer := s.buffer.pop fileSyncBufferSize
        producers := producers
        sender := .returned s.buffer.front } := by
  have hne := h.nonempty hcheck ha
  refine ⟨h.wellFormed.pop hne, ?_, (fun hs => by cases hs), ?_⟩
  · rw [List.append_assoc, List.singleton_append,
      ← CircularBuffer.contents_eq_front_cons h.wellFormed hne, h.accounted]
  · intro entry he _
    obtain rfl := Sender.returned.inj he
    simp

theorem Sound.sendStep {signalled : Option ℕ} (h : Sound log s)
    (hstep : s.sendStep signalled = some t) :
    Sound (logAfter owner log s (.send signalled)) t := by
  have hlog : s.sender ≠ .check → logAfter owner log s (.send signalled) = log := by
    intro hne
    rw [logAfter, if_neg fun hc => hne hc.1]
  cases hsender : s.sender with
  | check =>
      simp only [Session.sendStep, hsender] at hstep
      split at hstep
      · rename_i ha
        obtain ⟨producers, -, rfl⟩ := Option.map_eq_some_iff.mp hstep
        rw [logAfter, if_pos ⟨hsender, ha⟩]
        exact h.take hsender ha producers
      · rename_i ha
        obtain rfl := Option.some.inj hstep
        rw [logAfter, if_neg fun hc => ha hc.2]
        refine h.of_buffer_eq rfl (fun hs => by cases hs) fun entry he hv => ?_
        obtain rfl := Sender.returned.inj he
        cases hv
  | test =>
      rw [hlog (by simp [hsender])]
      simp only [Session.sendStep, hsender] at hstep
      split at hstep
      · obtain rfl := Option.some.inj hstep
        exact h.of_buffer_eq rfl (fun hs => by cases hs) fun entry he => by cases he
      · rename_i hloop
        obtain rfl := Option.some.inj hstep
        exact ⟨h.wellFormed, h.accounted, fun _ ha hcount => hloop ⟨hcount, ha⟩,
          fun entry he => by cases he⟩
  | loop =>
      rw [hlog (by simp [hsender])]
      simp only [Session.sendStep, hsender] at hstep
      split at hstep <;> obtain rfl := Option.some.inj hstep <;>
        exact h.of_buffer_eq rfl (fun hs => by cases hs) fun entry he => by cases he
  | waiting => simp [Session.sendStep, hsender] at hstep
  | stopped => simp [Session.sendStep, hsender] at hstep
  | _ =>
      rw [hlog (by simp [hsender])]
      simp only [Session.sendStep, hsender] at hstep
      obtain rfl := Option.some.inj hstep
      exact h.of_buffer_eq rfl (fun hs => by cases hs) fun entry he => by cases he

theorem Sound.produceStep {p : ℕ} (h : Sound log s) (hstep : s.step owner (.produce p) = some t) :
    Sound (logAfter owner log s (.produce p)) t := by
  obtain ⟨filename, type, hp, rfl⟩ := produce_cases hstep
  have hlog : logAfter owner log s (.produce p) = if s.buffer.count = fileSyncBufferSize then log
      else { log with added := log.added ++ [owner.entry filename type] } := by
    rcases hp with hp | hp
    · simp only [logAfter, hp]
    · simp only [logAfter, hp]
  rw [hlog]
  exact h.addSection p filename type

theorem Sound.step {p p' : Log × Session} {a : Action} (h : Sound p.1 p.2)
    (hwatch : stepWithLog owner p a = some p') : Sound p'.1 p'.2 := by
  obtain ⟨log, s⟩ := p
  obtain ⟨log', t⟩ := p'
  obtain ⟨hstep, rfl⟩ := watch_eq_some.mp hwatch
  cases a with
  | send signalled =>
      have hafter : Sound (logAfter owner log s (.send signalled)) t := h.sendStep hstep
      exact hafter
  | produce p => exact Sound.produceStep h hstep
  | call p filename type =>
      obtain ⟨-, rfl⟩ := call_cases hstep
      exact h.of_buffer_eq rfl (fun hs ha => ⟨hs, ha⟩) fun entry he _ => he
  | wakeProducer p =>
      obtain ⟨filename, type, -, rfl⟩ := wakeProducer_cases hstep
      exact h.of_buffer_eq rfl (fun hs ha => ⟨hs, ha⟩) fun entry he _ => he
  | wakeSender =>
      obtain ⟨-, rfl⟩ := wakeSender_cases hstep
      exact h.of_buffer_eq rfl (fun hs => by cases hs) fun entry he => by cases he
  | clearActive =>
      obtain ⟨-, rfl⟩ := clearActive_cases hstep
      exact h.of_buffer_eq rfl (fun _ ha => by cases ha) fun entry he _ => he
  | signalShutdown =>
      obtain ⟨-, rfl⟩ := signalShutdown_cases hstep
      exact h.of_buffer_eq rfl (fun hs ha => ⟨Sender.wake_eq_check.mp hs, ha⟩)
        fun entry he _ => Sender.wake_eq_returned.mp he

theorem sound_create (memory : ℤ → FileEntry) (producers : ℕ) :
    Sound ⟨[], []⟩ (create memory producers) := by
  refine ⟨CircularBuffer.wellFormed_empty (by decide) memory, rfl, ?_, ?_⟩
  · intro hs
    cases hs
  · intro entry he
    cases he

/-- **The buffer is a bounded queue** in every state of every run of a session, whatever its
producers, its sender and its exit do. -/
theorem always_isQueue (owner : Owner) (memory : ℤ → FileEntry) (producers : ℕ)
    (actions : List Action) :
    Always (stepWithLog owner) IsQueue (⟨[], []⟩, create memory producers) actions := by
  exact (Always.of_invariant (I := fun p => Sound p.1 p.2) (fun p a p' hp h => hp.step h)
    (sound_create memory producers) actions).mono fun p hp => hp.isQueue

end Session

/-! ## The queue that the buffer stands for -/

/-- The part of an entry that the send thread works on. -/
def FileEntry.queued (entry : FileEntry) : SyncServer.FileEntry :=
  ⟨entry.type, entry.filename.getD []⟩

/-- The ring holds the queue of a session. -/
structure Represents (buffer : FileSyncBuffer) (session : SyncServer.Session) : Prop where
  wellFormed : buffer.WellFormed fileSyncBufferSize
  contents : (buffer.contents fileSyncBufferSize).map FileEntry.queued = session.syncBuffer

section Represents

variable {buffer : FileSyncBuffer} {session : SyncServer.Session}

theorem Represents.length (h : Represents buffer session) :
    session.syncBuffer.length = buffer.count.toNat := by
  rw [← h.contents, List.length_map, CircularBuffer.length_contents]

/-- The section of a producer does to the ring what `addFileToSyncBuffer` does to the queue: it
waits on a full one and appends to another. -/
theorem Represents.add (h : Represents buffer session) (owner : Owner) (filename : Bytes)
    (type : FileEntryType) :
    if buffer.count = fileSyncBufferSize then
      addFileToSyncBuffer session ⟨type, filename⟩ = none
    else ∃ session', addFileToSyncBuffer session ⟨type, filename⟩ = some session' ∧
      Represents (buffer.push fileSyncBufferSize (owner.entry filename type)) session' := by
  have hcount := h.wellFormed.count_nonneg
  have hlength := h.length
  split
  · rename_i hfull
    rw [addFileToSyncBuffer, if_pos (by omega)]
  · rename_i hroom
    refine ⟨_, if_neg (by omega), h.wellFormed.push hroom _, ?_⟩
    rw [CircularBuffer.contents_push h.wellFormed hroom, List.map_append, h.contents]
    rfl

/-- The section of the sender does to the ring what `getNextFileToSync` does to the queue. -/
theorem Represents.next (h : Represents buffer session) :
    if buffer.count = 0 then getNextFileToSync session = none
    else ∃ session', getNextFileToSync session = some (buffer.front.queued, session') ∧
      Represents (buffer.pop fileSyncBufferSize) session' := by
  have hlength := h.length
  split
  · rename_i hempty
    have hnil : session.syncBuffer = [] := List.eq_nil_of_length_eq_zero (by omega)
    simp [getNextFileToSync, hnil]
  · rename_i hne
    have hcons := h.contents
    rw [CircularBuffer.contents_eq_front_cons h.wellFormed hne, List.map_cons] at hcons
    refine ⟨{ session with
      syncBuffer := ((buffer.pop fileSyncBufferSize).contents fileSyncBufferSize).map
        FileEntry.queued }, ?_, h.wellFormed.pop hne, rfl⟩
    simp [getNextFileToSync, ← hcons]

end Represents

end SyncServer.FileSync
