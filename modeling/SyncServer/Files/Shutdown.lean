import SyncServer.Files.SyncBuffer

/-! # Who is left waiting when a session ends?

`interface` clears `active` and broadcasts both conditions of the buffer. The sender tests
`active` in its loop; the producers test the counter only, and after the sender has stopped
nobody takes an entry any more.
-/

namespace SyncServer.FileSync

open CText Transition

namespace Session

/-- `signal_shutdown` has returned and the send thread has left its loop. -/
def Closed (s : Session) : Prop := s.exit = .signalled ∧ s.sender = .stopped

instance (s : Session) : Decidable s.Closed := inferInstanceAs (Decidable (_ ∧ _))

/-- The thread is in a wait whose loop condition holds in every state that can follow. -/
def Stuck (owner : Owner) (s : Session) (p : ℕ) : Prop :=
  (∃ producer, s.producers[p]? = some producer ∧ producer.isInWait = true) ∧
  ∀ actions t, run (step owner) s actions = some t → t.buffer.count = fileSyncBufferSize

/-- After `signal_shutdown` the sender does not sleep and its call returns an invalid entry; when
it has stopped too, no producer is stuck and each that is in its call can return. -/
structure Released (owner : Owner) (s : Session) : Prop where
  sender : s.exit = .signalled → s.sender ≠ .waiting ∧ (s.sender = .check →
    ∀ signalled, s.step owner (.send signalled) = some { s with sender := .returned .invalid })
  notStuck : s.Closed → ∀ p, ¬ s.Stuck owner p
  returns : s.Closed → ∀ p producer, s.producers[p]? = some producer →
    producer.isInside = true →
      ∃ t ∈ s.step owner (.produce p), t.producers[p]? = some .outside

/-- The number of threads in `add_file_to_sync_buffer`. -/
def inside (s : Session) : ℕ := s.producers.countP (·.isInside)

/-- The buffer has a slot for each thread that is in `add_file_to_sync_buffer`. -/
def Room (s : Session) : Prop := s.buffer.count + s.inside ≤ fileSyncBufferSize

instance (s : Session) : Decidable s.Room := inferInstanceAs (Decidable (_ ≤ _))

/-- When the last of `signal_shutdown` and the send thread ends, the calls that are under way find
room in the buffer, and afterwards a thread calls only while there is a slot for it too. -/
def HasRoom (s : Session) : Action → Prop
  | .call _ _ _ => s.Closed → s.buffer.count + s.inside < fileSyncBufferSize
  | .send _ => s.exit = .signalled → s.sender = .loop → s.Room
  | .signalShutdown => s.sender = .stopped → s.Room
  | _ => True

instance (s : Session) (a : Action) : Decidable (s.HasRoom a) := by
  cases a <;> unfold HasRoom <;> infer_instance

/-! ## Facts about every run -/

/-- What every step preserves, whatever the buffer holds. After the broadcast a producer sleeps
only on a full buffer, since no entry is taken any more. -/
structure Wakeful (s : Session) : Prop where
  sound : ∃ log, Sound log s
  active : s.active = true ↔ s.exit = .serving
  sender : s.exit = .signalled → s.sender ≠ .waiting
  stopped : s.sender = .stopped → s.active = false
  asleep : s.exit = .signalled → ∀ (p : ℕ) (producer : Producer),
    s.producers[p]? = some producer → producer.isAsleep = true → s.buffer.count = fileSyncBufferSize

variable {owner : Owner} {s t : Session}

theorem Wakeful.wellFormed (h : Wakeful s) : s.buffer.WellFormed fileSyncBufferSize :=
  let ⟨_, hs⟩ := h.sound
  hs.wellFormed

theorem sound_step {a : Action} (h : ∃ log, Sound log s) (hstep : s.step owner a = some t) :
    ∃ log, Sound log t := by
  obtain ⟨log, h⟩ := h
  have hwatch : stepWithLog owner (log, s) a = some (logAfter owner log s a, t) :=
    watch_eq_some.mpr ⟨hstep, rfl⟩
  have hbefore : Sound (log, s).1 (log, s).2 := h
  exact ⟨_, hbefore.step hwatch⟩

theorem isAsleep_wake (producer : Producer) : producer.wake.isAsleep = false := by
  cases producer <;> rfl

@[simp] theorem isInside_wake (producer : Producer) :
    producer.wake.isInside = producer.isInside := by
  cases producer <;> rfl

theorem Sender.wake_ne_waiting (sender : Sender) : sender.wake ≠ .waiting := by
  cases sender <;> simp [Sender.wake]

theorem Sender.wake_eq_stopped {sender : Sender} : sender.wake = .stopped ↔ sender = .stopped := by
  cases sender <;> simp [Sender.wake]

/-- One thread moves: what holds of it and of the others holds of all. -/
theorem forall_producers_set {producers : List Producer} {p : ℕ} {next : Producer}
    {P : Producer → Prop} (hnext : P next)
    (hothers : ∀ (q : ℕ) (producer : Producer), producers[q]? = some producer → P producer) :
    ∀ (q : ℕ) (producer : Producer), (producers.set p next)[q]? = some producer → P producer := by
  intro q producer hq
  rw [List.getElem?_set] at hq
  split at hq
  · split at hq
    · obtain rfl := Option.some.inj hq
      exact hnext
    · cases hq
  · exact hothers q producer hq

/-- Nothing changes but the place of one producer, which does not fall asleep. -/
theorem Wakeful.of_set {p : ℕ} {next : Producer} (h : Wakeful s) (hnext : next.isAsleep = false) :
    Wakeful { s with producers := s.producers.set p next } where
  sound :=
    let ⟨log, hs⟩ := h.sound
    ⟨log, hs.of_buffer_eq rfl (fun hc ha => ⟨hc, ha⟩) fun _ he _ => he⟩
  active := h.active
  sender := h.sender
  stopped := h.stopped
  asleep hexit := forall_producers_set (fun ha => absurd ha (by simp [hnext])) (h.asleep hexit)

/-- Nothing changes but the place of the sender, which neither falls asleep nor stops. -/
theorem Wakeful.of_sender {sender : Sender} (h : Wakeful s)
    (hsound : ∃ log, Sound log { s with sender := sender }) (hw : sender ≠ .waiting)
    (hs : sender ≠ .stopped) : Wakeful { s with sender := sender } :=
  ⟨hsound, h.active, fun _ => hw, fun h => absurd h hs, h.asleep⟩

/-- After the broadcast a producer falls asleep on a full buffer, which stays full. -/
theorem Wakeful.addSection {p : ℕ} {filename : Bytes} {type : FileEntryType} (h : Wakeful s)
    (hsound : ∃ log, Sound log (s.addSection owner p filename type)) :
    Wakeful (s.addSection owner p filename type) := by
  unfold Session.addSection at hsound ⊢
  split
  · rename_i hfull
    rw [if_pos hfull] at hsound
    exact ⟨hsound, h.active, h.sender, h.stopped,
      fun hexit => forall_producers_set (fun _ => hfull) (h.asleep hexit)⟩
  · rename_i hroom
    rw [if_neg hroom] at hsound
    refine ⟨hsound, h.active, fun _ => Sender.wake_ne_waiting _,
      fun hs => h.stopped (Sender.wake_eq_stopped.mp hs), fun hexit => ?_⟩
    refine forall_producers_set (fun ha => by cases ha) fun q producer hq ha => ?_
    exact absurd (h.asleep hexit q producer hq ha) hroom

theorem Wakeful.sendStep {signalled : Option ℕ} (h : Wakeful s)
    (hsound : ∃ log, Sound log t) (hstep : s.sendStep signalled = some t) : Wakeful t := by
  have hinactive : s.exit = .signalled → s.active = false := by
    intro hexit
    by_contra ha
    have hserving := h.active.mp (by simpa using ha)
    rw [hexit] at hserving
    cases hserving
  cases hsender : s.sender with
  | check =>
      simp only [Session.sendStep, hsender] at hstep
      split at hstep
      · rename_i ha
        obtain ⟨producers, -, rfl⟩ := Option.map_eq_some_iff.mp hstep
        have hexit : s.exit ≠ .signalled := by
          intro hexit
          rw [hinactive hexit] at ha
          cases ha
        exact ⟨hsound, h.active, fun h => absurd h hexit, by simp, fun h => absurd h hexit⟩
      · obtain rfl := Option.some.inj hstep
        exact h.of_sender hsound (by simp) (by simp)
  | test =>
      simp only [Session.sendStep, hsender] at hstep
      split at hstep
      · rename_i hloop
        obtain rfl := Option.some.inj hstep
        have hexit : s.exit ≠ .signalled := by
          intro hexit
          have ha := hloop.2
          rw [hinactive hexit] at ha
          cases ha
        exact ⟨hsound, h.active, fun h => absurd h hexit, by simp, h.asleep⟩
      · obtain rfl := Option.some.inj hstep
        exact h.of_sender hsound (by simp) (by simp)
  | loop =>
      simp only [Session.sendStep, hsender] at hstep
      split at hstep
      · obtain rfl := Option.some.inj hstep
        exact h.of_sender hsound (by simp) (by simp)
      · rename_i ha
        obtain rfl := Option.some.inj hstep
        exact ⟨hsound, h.active, by simp, fun _ => by simpa using ha, h.asleep⟩
  | waiting => simp [Session.sendStep, hsender] at hstep
  | stopped => simp [Session.sendStep, hsender] at hstep
  | _ =>
      simp only [Session.sendStep, hsender] at hstep
      obtain rfl := Option.some.inj hstep
      exact h.of_sender hsound (by simp) (by simp)

theorem Wakeful.step {a : Action} (h : Wakeful s) (hstep : s.step owner a = some t) :
    Wakeful t := by
  have hsound := sound_step h.sound hstep
  cases a with
  | send signalled => exact h.sendStep hsound hstep
  | produce p =>
      obtain ⟨filename, type, -, rfl⟩ := produce_cases hstep
      exact h.addSection hsound
  | call p filename type =>
      obtain ⟨-, rfl⟩ := call_cases hstep
      exact h.of_set rfl
  | wakeProducer p =>
      obtain ⟨filename, type, -, rfl⟩ := wakeProducer_cases hstep
      exact h.of_set rfl
  | wakeSender =>
      obtain ⟨-, rfl⟩ := wakeSender_cases hstep
      exact h.of_sender hsound (by simp) (by simp)
  | clearActive =>
      obtain ⟨-, rfl⟩ := clearActive_cases hstep
      exact ⟨hsound, by simp, by simp, fun _ => rfl, by simp⟩
  | signalShutdown =>
      obtain ⟨hcleared, rfl⟩ := signalShutdown_cases hstep
      have hinactive : s.active = false := by
        by_contra ha
        have hserving := h.active.mp (by simpa using ha)
        rw [hcleared.1] at hserving
        cases hserving
      refine ⟨hsound, by simp [hinactive], fun _ => Sender.wake_ne_waiting _,
        fun _ => hinactive, fun _ q producer hq ha => ?_⟩
      obtain ⟨old, -, rfl⟩ := by simpa using hq
      simp [isAsleep_wake] at ha

/-! ## Slots for the calls that are under way -/

theorem inside_set {p : ℕ} {old : Producer} (next : Producer) (h : s.producers[p]? = some old) :
    (s.producers.set p next).countP (·.isInside) + old.isInside.toNat =
      s.inside + next.isInside.toNat := by
  obtain ⟨hp, rfl⟩ := List.getElem?_eq_some_iff.mp h
  have hpos : s.producers[p].isInside = true → 0 < s.producers.countP (·.isInside) := by
    intro hin
    exact List.countP_pos_iff.mpr ⟨_, List.getElem_mem hp, hin⟩
  rw [List.countP_set hp, inside]
  cases hold : s.producers[p].isInside <;> cases next.isInside <;> simp_all

theorem inside_wake (producers : List Producer) :
    (producers.map (·.wake)).countP (·.isInside) = producers.countP (·.isInside) := by
  rw [List.countP_map]
  exact List.countP_congr fun producer _ => by simp

/-- The section of a thread trades its call for an entry, or leaves both as they are. -/
theorem count_add_inside_addSection {p : ℕ} {producer : Producer} {filename : Bytes}
    {type : FileEntryType} (hp : s.producers[p]? = some producer)
    (hin : producer.isInside = true) :
    (s.addSection owner p filename type).buffer.count +
      (s.addSection owner p filename type).inside = s.buffer.count + s.inside := by
  unfold Session.addSection
  split
  · have hset := inside_set (.waiting filename type) hp
    rw [hin] at hset
    have hsame : (s.producers.set p (.waiting filename type)).countP (·.isInside) + 1 =
        s.inside + 1 := hset
    simp only [inside] at hsame ⊢
    omega
  · have hset := inside_set .outside hp
    rw [hin] at hset
    have hless : (s.producers.set p .outside).countP (·.isInside) + 1 = s.inside + 0 := hset
    simp only [inside, CircularBuffer.push] at hless ⊢
    omega

theorem closed_addSection {p : ℕ} {filename : Bytes} {type : FileEntryType} :
    (s.addSection owner p filename type).Closed ↔ s.Closed := by
  unfold Session.addSection
  split
  · exact Iff.rfl
  · exact and_congr_right fun _ => Sender.wake_eq_stopped

/-- The sender stops at the head of its loop and leaves the buffer as it is. -/
theorem sendStep_stopped {signalled : Option ℕ} (hstep : s.sendStep signalled = some t)
    (ht : t.sender = .stopped) : s.sender = .loop ∧ t = { s with sender := .stopped } := by
  cases hsender : s.sender with
  | check =>
      simp only [Session.sendStep, hsender] at hstep
      split at hstep
      · obtain ⟨producers, -, rfl⟩ := Option.map_eq_some_iff.mp hstep
        cases ht
      · obtain rfl := Option.some.inj hstep
        cases ht
  | waiting => simp [Session.sendStep, hsender] at hstep
  | stopped => simp [Session.sendStep, hsender] at hstep
  | test =>
      simp only [Session.sendStep, hsender] at hstep
      split at hstep <;> obtain rfl := Option.some.inj hstep <;> cases ht
  | loop =>
      simp only [Session.sendStep, hsender] at hstep
      split at hstep <;> obtain rfl := Option.some.inj hstep
      · cases ht
      · exact ⟨rfl, rfl⟩
  | _ =>
      simp only [Session.sendStep, hsender] at hstep
      obtain rfl := Option.some.inj hstep
      cases ht

/-- A closed session keeps its slots if the step meets the condition. -/
theorem room_step {a : Action} (h : s.Closed → s.Room) (hok : s.HasRoom a)
    (hstep : s.step owner a = some t) : t.Closed → t.Room := by
  intro ht
  cases a with
  | produce p =>
      obtain ⟨filename, type, hp, rfl⟩ := produce_cases hstep
      have hroom : s.Room := h (closed_addSection.mp ht)
      have hcount : (s.addSection owner p filename type).buffer.count +
          (s.addSection owner p filename type).inside = s.buffer.count + s.inside :=
        hp.elim (fun hp => count_add_inside_addSection hp rfl)
          fun hp => count_add_inside_addSection hp rfl
      rw [Room, hcount]
      exact hroom
  | call p filename type =>
      obtain ⟨hp, rfl⟩ := call_cases hstep
      have hroom : s.buffer.count + s.inside < fileSyncBufferSize := hok ht
      have hmore : (s.producers.set p (.locking filename type)).countP (·.isInside) + 0 =
          s.inside + 1 := inside_set _ hp
      simp only [Room, inside] at hroom hmore ⊢
      omega
  | wakeProducer p =>
      obtain ⟨filename, type, hp, rfl⟩ := wakeProducer_cases hstep
      have hroom : s.Room := h ht
      have hsame : (s.producers.set p (.woken filename type)).countP (·.isInside) + 1 =
          s.inside + 1 := inside_set _ hp
      simp only [Room, inside] at hroom hsame ⊢
      omega
  | send signalled =>
      obtain ⟨hloop, rfl⟩ := sendStep_stopped hstep ht.2
      have hroom : s.Room := hok ht.1 hloop
      exact hroom
  | wakeSender =>
      obtain ⟨-, rfl⟩ := wakeSender_cases hstep
      cases ht.2
  | clearActive =>
      obtain ⟨-, rfl⟩ := clearActive_cases hstep
      cases ht.1
  | signalShutdown =>
      obtain ⟨-, rfl⟩ := signalShutdown_cases hstep
      have hroom : s.Room := hok (Sender.wake_eq_stopped.mp ht.2)
      simp only [Room, inside, inside_wake] at hroom ⊢
      exact hroom

/-- In a closed session the lock is free, and a thread that does not sleep takes its section. -/
theorem produce_of_closed (owner : Owner) {p : ℕ} {producer : Producer} (hclosed : s.Closed)
    (hp : s.producers[p]? = some producer) (hin : producer.isInside = true)
    (hawake : producer.isAsleep = false) :
    ∃ filename type, s.step owner (.produce p) = some (s.addSection owner p filename type) := by
  cases producer with
  | outside => cases hin
  | waiting filename type => cases hawake
  | locking filename type =>
      refine ⟨filename, type, ?_⟩
      simp [Session.step, hclosed.2, Sender.holdsLock, hp]
  | woken filename type =>
      refine ⟨filename, type, ?_⟩
      simp [Session.step, hclosed.2, Sender.holdsLock, hp]

theorem one_le_inside {p : ℕ} {producer : Producer} (hp : s.producers[p]? = some producer)
    (hin : producer.isInside = true) : 1 ≤ s.inside :=
  List.countP_pos_iff.mpr ⟨producer, List.mem_of_getElem? hp, hin⟩

theorem Wakeful.inactive (h : Wakeful s) (hexit : s.exit = .signalled) : s.active = false := by
  by_contra ha
  have hserving := h.active.mp (by simpa using ha)
  rw [hexit] at hserving
  cases hserving

/-- With a slot for each call nobody is left behind. -/
theorem Wakeful.released (h : Wakeful s) (hroom : s.Closed → s.Room) : Released owner s where
  sender hexit := by
    refine ⟨h.sender hexit, fun hcheck signalled => ?_⟩
    simp [Session.step, Session.sendStep, hcheck, h.inactive hexit]
  notStuck hclosed p hstuck := by
    obtain ⟨⟨producer, hp, hwait⟩, hforever⟩ := hstuck
    have hin : producer.isInside = true := by cases producer <;> first | rfl | cases hwait
    have hone := one_le_inside hp hin
    have hfull := hforever [] s rfl
    have hle : s.buffer.count + s.inside ≤ fileSyncBufferSize := hroom hclosed
    omega
  returns hclosed p producer hp hin := by
    have hone := one_le_inside hp hin
    have hle : s.buffer.count + s.inside ≤ fileSyncBufferSize := hroom hclosed
    have hnotFull : s.buffer.count ≠ fileSyncBufferSize := by omega
    have hawake : producer.isAsleep = false := by
      by_contra ha
      exact hnotFull (h.asleep hclosed.1 p producer hp (by simpa using ha))
    obtain ⟨filename, type, hstep⟩ := produce_of_closed owner hclosed hp hin hawake
    obtain ⟨hlt, -⟩ := List.getElem?_eq_some_iff.mp hp
    refine ⟨_, hstep, ?_⟩
    rw [Session.addSection, if_neg hnotFull]
    exact List.getElem?_set_self hlt

theorem wakeful_create (memory : ℤ → FileEntry) (producers : ℕ) :
    Wakeful (create memory producers) where
  sound := ⟨⟨[], []⟩, sound_create memory producers⟩
  active := by simp [create]
  sender := by simp [create]
  stopped := by simp [create]
  asleep := by simp [create]

/-- **Shutdown releases every waiter** in every run in which the calls that are under way when the
session closes, and those that come later, find a slot each. -/
theorem released_of_room (owner : Owner) (memory : ℤ → FileEntry) (producers : ℕ)
    (actions : List Action)
    (hok : Along (step owner) HasRoom (create memory producers) actions) :
    Always (step owner) (Released owner) (create memory producers) actions := by
  have hstart : Wakeful (create memory producers) ∧
      ((create memory producers).Closed → (create memory producers).Room) :=
    ⟨wakeful_create memory producers, fun hclosed => by cases hclosed.1⟩
  refine (hok.always (I := fun s => Wakeful s ∧ (s.Closed → s.Room)) ?_ hstart).mono
    fun s hs => hs.1.released hs.2
  intro s a t hs ha h
  exact ⟨hs.1.step h, room_step hs.2 ha h⟩

/-! ## Without a slot somebody is stuck -/

/-- A closed session with a full buffer stays so. -/
theorem full_step {a : Action} (hs : s.Closed ∧ s.buffer.count = fileSyncBufferSize)
    (hstep : s.step owner a = some t) : t.Closed ∧ t.buffer.count = fileSyncBufferSize := by
  obtain ⟨⟨hexit, hstopped⟩, hfull⟩ := hs
  cases a with
  | produce p =>
      obtain ⟨filename, type, -, rfl⟩ := produce_cases hstep
      rw [Session.addSection, if_pos hfull]
      exact ⟨⟨hexit, hstopped⟩, hfull⟩
  | call p filename type =>
      obtain ⟨-, rfl⟩ := call_cases hstep
      exact ⟨⟨hexit, hstopped⟩, hfull⟩
  | wakeProducer p =>
      obtain ⟨filename, type, -, rfl⟩ := wakeProducer_cases hstep
      exact ⟨⟨hexit, hstopped⟩, hfull⟩
  | send signalled => simp [Session.step, Session.sendStep, hstopped] at hstep
  | wakeSender => simp [Session.step, hstopped] at hstep
  | clearActive => simp [Session.step, hexit] at hstep
  | signalShutdown => simp [Session.step, hexit] at hstep

theorem stuck_of_full {p : ℕ} {producer : Producer} (hclosed : s.Closed)
    (hfull : s.buffer.count = fileSyncBufferSize) (hp : s.producers[p]? = some producer)
    (hwait : producer.isInWait = true) : Stuck owner s p :=
  ⟨⟨producer, hp, hwait⟩, fun _ _ hrun =>
    (run_invariant (I := fun s => s.Closed ∧ s.buffer.count = (fileSyncBufferSize : ℤ))
      (fun _ _ _ hs h => full_step hs h) ⟨hclosed, hfull⟩ hrun).2⟩

theorem exists_inside (h : Wakeful s) (hover : ¬ s.Room) :
    ∃ (p : ℕ) (producer : Producer), s.producers[p]? = some producer ∧
      producer.isInside = true := by
  have hle := h.wellFormed.count_le
  have hmore : fileSyncBufferSize < s.buffer.count + s.inside := not_le.mp hover
  have hpos : 0 < s.inside := by omega
  obtain ⟨producer, hmem, hin⟩ := List.countP_pos_iff.mp hpos
  obtain ⟨p, hp⟩ := List.getElem?_of_mem hmem
  exact ⟨p, producer, hp, hin⟩

/-- Where more threads are in their calls than there are slots, the sections of these threads
alone lead to a thread that is stuck. -/
theorem stuck_of_overfull (owner : Owner) (h : Wakeful s) (hclosed : s.Closed)
    (hover : ¬ s.Room) :
    ∃ actions t p, run (step owner) s actions = some t ∧ Stuck owner t p := by
  -- induction on the number of free slots
  generalize hfree : (fileSyncBufferSize - s.buffer.count).toNat = free
  induction free generalizing s with
  | zero =>
      have hle := h.wellFormed.count_le
      have hfull : s.buffer.count = fileSyncBufferSize := by omega
      obtain ⟨p, producer, hp, hin⟩ := exists_inside h hover
      cases producer with
      | outside => cases hin
      | waiting filename type => exact ⟨[], s, p, rfl, stuck_of_full hclosed hfull hp rfl⟩
      | woken filename type => exact ⟨[], s, p, rfl, stuck_of_full hclosed hfull hp rfl⟩
      | locking filename type =>
          obtain ⟨filename, type, hstep⟩ :=
            produce_of_closed owner hclosed hp rfl rfl
          obtain ⟨hlt, -⟩ := List.getElem?_eq_some_iff.mp hp
          refine ⟨[.produce p], _, p, by rw [run_cons, hstep]; rfl, ?_⟩
          rw [Session.addSection, if_pos hfull]
          exact stuck_of_full hclosed hfull (List.getElem?_set_self hlt) rfl
  | succ free ih =>
      have hroom : s.buffer.count ≠ fileSyncBufferSize := by omega
      obtain ⟨p, producer, hp, hin⟩ := exists_inside h hover
      have hawake : producer.isAsleep = false := by
        by_contra ha
        exact hroom (h.asleep hclosed.1 p producer hp (by simpa using ha))
      obtain ⟨filename, type, hstep⟩ := produce_of_closed owner hclosed hp hin hawake
      have hcount : (s.addSection owner p filename type).buffer.count = s.buffer.count + 1 := by
        rw [Session.addSection, if_neg hroom]
        rfl
      have hover' : ¬ (s.addSection owner p filename type).Room := by
        rw [Room, count_add_inside_addSection hp hin]
        exact hover
      obtain ⟨actions, t, q, hrun, hstuck⟩ :=
        ih (h.step hstep) (closed_addSection.mpr hclosed) hover' (by omega)
      exact ⟨.produce p :: actions, t, q, run_cons_eq_some.mpr ⟨_, hstep, hrun⟩, hstuck⟩

/-! ## A session that ends with room, and one that ends with a full buffer -/

/-- The threads of user `a`, slot 0. -/
def ownerA : Owner := ⟨[97], 0⟩

def fillBuffer (n : ℕ) : List Action :=
  (List.replicate n [.call 0 [102] .send, .produce 0]).flatten

/-- A session with one producer around it, in memory that was cleared. -/
def sessionA : Session := create (fun _ => .invalid) 1

/-- Nine entries stand in the buffer and the producer is about to add another when the session
ends. -/
def endsWithRoom : List Action :=
  fillBuffer 9 ++ [.call 0 [102] .send, .clearActive, .signalShutdown, .send none, .produce 0]

theorem released_of_nine :
    Always (step ownerA) (Released ownerA) sessionA endsWithRoom :=
  released_of_room ownerA (fun _ => .invalid) 1 endsWithRoom (by decide +kernel)

/-- The sender has taken the first of eleven entries and the producer sleeps with the twelfth
when the session ends; the broadcast wakes it and it tests the counter again. -/
def endsFull : List Action :=
  fillBuffer 10 ++ [.send none, .send none, .send none, .send none] ++ fillBuffer 1 ++
    [.call 0 [102] .send, .produce 0, .clearActive, .signalShutdown, .send none, .send none,
      .produce 0]

theorem producer_stuck :
    (∃ t ∈ run (step ownerA) sessionA endsFull, t.Closed ∧ Stuck ownerA t 0) ∧
    ¬ Always (step ownerA) (Released ownerA) sessionA endsFull := by
  have hcheck : ∃ t ∈ run (step ownerA) sessionA endsFull, t.Closed ∧
      t.buffer.count = fileSyncBufferSize ∧ t.producers[0]? = some (.waiting [102] .send) := by
    decide +kernel
  obtain ⟨t, hrun, hclosed, hfull, hp⟩ := hcheck
  have hstuck : Stuck ownerA t 0 := stuck_of_full hclosed hfull hp rfl
  exact ⟨⟨t, hrun, hclosed, hstuck⟩, fun h => (h.last hrun).notStuck hclosed 0 hstuck⟩

end Session

end SyncServer.FileSync
