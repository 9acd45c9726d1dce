import Mathlib.Logic.Function.Basic
import SyncServer.Library.Transition
import SyncServer.Wire.Registration

/-! # Notifications of a new server

A thread of the client listens for notifications. It raises the signal that ends the three worker
threads, reads a packet and parses it, and calls the server that the packet names.
-/

namespace SyncServer

open CText Ending Transition

inductive Worker where
  | console
  | watcher
  | receiver
  deriving DecidableEq, Repr

/-- What stops the client. -/
inductive ClientFault where
  | fault (fault : Fault)
  | overflow
  deriving DecidableEq, Repr

/-- Where `notification_listener` stands. -/
inductive NotificationListener where
  | testing
  | accepting
  | signalling (connection : ByteStream)
  | reading (connection : ByteStream)
  | parsing (packet : Option Bytes)
  | awaiting
  | connecting
  | returned

/-- The variables that the threads share, and where the threads stand. -/
structure NotifiedClient where
  signalReconnect : Bool
  signalShutdown : Bool
  hostname : Bytes
  consoleSocketPort : UInt16
  threadsExited : ℕ
  running : Worker → Bool
  listener : NotificationListener

/-- `sizeof(hostname)`. -/
def hostnameSize : ℕ := 20

/-! ## The worker threads -/

inductive WorkerStep where
  | test (worker : Worker)
  | exitCommand
  | leave (worker : Worker)
  | initFailed
  deriving DecidableEq, Repr

/-- A worker ends and is counted. -/
def NotifiedClient.finish (s : NotifiedClient) (worker : Worker) : NotifiedClient :=
  { s with running := Function.update s.running worker false, threadsExited := s.threadsExited + 1 }

/-- What the worker threads do with the shared variables. -/
def NotifiedClient.work (s : NotifiedClient) : WorkerStep → Option NotifiedClient
  -- the condition of the loop, or the same test inside it
  | .test worker =>
      if s.running worker then
        some (if s.signalReconnect || s.signalShutdown then s.finish worker else s)
      else none
  | .exitCommand => if s.running .console then some { s with signalShutdown := true } else none
  -- a closed connection, or an error of the directory watcher
  | .leave worker =>
      if s.running worker ∧ worker ≠ .console then some (s.finish worker) else none
  -- `pthread_exit` before the loop: the thread is not counted
  | .initFailed =>
      if s.running .watcher then
        some { s with running := Function.update s.running .watcher false }
      else none

/-! ## The listener -/

/-- How `handle_connection` ends. -/
inductive ConnectOutcome where
  | connected
  | unresolved
  | failed
  deriving DecidableEq, Repr

inductive ListenerStep where
  | test
  | noData
  | accept (connection : ByteStream)
  | store
  | read
  | parse
  | await
  | connect (outcome : ConnectOutcome)

/-- What `sscanf` is given: the text of the packet, if it ends inside the allocation. -/
def notificationText : Option Bytes → Ending ClientFault Bytes
  | none => faults (.fault .nullPointer)
  | some image =>
      if 0 ∈ image.drop payloadOffset then done (payloadText image)
      else faults (.fault .overread)

/-- One step of `notification_listener`. -/
def NotifiedClient.listen (s : NotifiedClient) : ListenerStep → Ending ClientFault NotifiedClient
  | .test =>
      match s.listener with
      | .testing =>
          done { s with listener := if s.signalShutdown then .returned else .accepting }
      | _ => waits
  | .noData =>
      match s.listener with
      | .accepting => done { s with listener := .testing }
      | _ => waits
  | .accept connection =>
      match s.listener with
      | .accepting => done { s with listener := .signalling connection }
      | _ => waits
  | .store =>
      match s.listener with
      | .signalling connection =>
          done { s with signalReconnect := true, listener := .reading connection }
      | _ => waits
  | .read =>
      match s.listener with
      | .reading connection =>
          match connection.readPacketImage with
          | .done (packet, _) => done { s with listener := .parsing packet }
          | .waits => waits
          | .faults e => faults (.fault e)
      | _ => waits
  | .parse =>
      match s.listener with
      | .parsing packet => do
          let text ← notificationText packet
          match scanHostPort text with
          -- the message on `stderr` prints a buffer that nothing has written
          | none => done { s with listener := .testing }
          | some (host, port) =>
              if host.length < hostnameSize then
                done { s with
                  consoleSocketPort := UInt16.ofInt port, hostname := host, listener := .awaiting }
              else faults .overflow
      | _ => waits
  | .await =>
      match s.listener with
      | .awaiting =>
          if 3 ≤ s.threadsExited then done { s with threadsExited := 0, listener := .connecting }
          else waits
      | _ => waits
  | .connect outcome =>
      match s.listener with
      | .connecting =>
          match outcome with
          | .connected =>
              done { s with
                signalReconnect := false, running := fun _ => true, listener := .testing }
          | .unresolved => done { s with listener := .testing }
          | .failed => faults (.fault .exit)
      | _ => waits

/-- The listener and the workers, in any order. -/
abbrev NotifiedClient.step :
    NotifiedClient → ListenerStep ⊕ WorkerStep → Option NotifiedClient :=
  interleave (fun s a => (s.listen a).returned) NotifiedClient.work

/-- The body of the loop, up to the parsed message. -/
def iteration (connection : ByteStream) : List ListenerStep :=
  [.accept connection, .store, .read, .parse]

/-- A client that is connected. -/
def NotifiedClient.connected (hostname : Bytes) (consoleSocketPort : UInt16) : NotifiedClient where
  signalReconnect := false
  signalShutdown := false
  hostname := hostname
  consoleSocketPort := consoleSocketPort
  threadsExited := 0
  running := fun _ => true
  listener := .accepting

/-! ## What the workers leave alone -/

theorem work_frame {s t : NotifiedClient} {b : WorkerStep} (h : s.work b = some t) :
    t.signalReconnect = s.signalReconnect ∧ t.listener = s.listener ∧
      t.hostname = s.hostname ∧ t.consoleSocketPort = s.consoleSocketPort := by
  cases b with
  | test worker =>
      simp only [NotifiedClient.work] at h
      split at h
      · obtain rfl := Option.some.inj h
        split
        · exact ⟨rfl, rfl, rfl, rfl⟩
        · exact ⟨rfl, rfl, rfl, rfl⟩
      · cases h
  | exitCommand =>
      obtain ⟨-, h⟩ := Option.ite_none_right_eq_some.mp h
      obtain rfl := Option.some.inj h
      exact ⟨rfl, rfl, rfl, rfl⟩
  | leave worker =>
      obtain ⟨-, h⟩ := Option.ite_none_right_eq_some.mp h
      obtain rfl := Option.some.inj h
      exact ⟨rfl, rfl, rfl, rfl⟩
  | initFailed =>
      obtain ⟨-, h⟩ := Option.ite_none_right_eq_some.mp h
      obtain rfl := Option.some.inj h
      exact ⟨rfl, rfl, rfl, rfl⟩

/-- The workers do not look at the place of the listener. -/
theorem work_listener (s : NotifiedClient) (place : NotificationListener) (b : WorkerStep) :
    { s with listener := place }.work b =
      (s.work b).map fun t => { t with listener := place } := by
  cases b with
  | test worker =>
      simp only [NotifiedClient.work]
      split
      · split
        · rfl
        · rfl
      · rfl
  | exitCommand => simp only [NotifiedClient.work]; split <;> rfl
  | leave worker => simp only [NotifiedClient.work]; split <;> rfl
  | initFailed => simp only [NotifiedClient.work]; split <;> rfl

/-- With the signal raised, a worker ends at its next test. -/
theorem work_test_of_signal {s : NotifiedClient} {worker : Worker} (hs : s.signalReconnect = true)
    (hrunning : s.running worker = true) : s.work (.test worker) = some (s.finish worker) := by
  simp [NotifiedClient.work, hs, hrunning]

/-! ## The loop body -/

section

variable {connection : ByteStream} {packet : Option Bytes}

/-- What is left of the loop body at each place of the listener. -/
inductive Stage (connection : ByteStream) (packet : Option Bytes) :
    List ListenerStep → NotificationListener → Prop where
  | accepting : Stage connection packet [.accept connection, .store, .read, .parse] .accepting
  | signalling : Stage connection packet [.store, .read, .parse] (.signalling connection)
  | reading : Stage connection packet [.read, .parse] (.reading connection)
  | parsing : Stage connection packet [.parse] (.parsing packet)

/-- Before the message is parsed, the listener only moves on and raises the signal. -/
theorem Stage.step {rest : ByteStream} (hread : connection.readPacketImage = done (packet, rest))
    {a : ListenerStep} {as : List ListenerStep} {s : NotifiedClient}
    (h : Stage connection packet (a :: as) s.listener) :
    (a = .parse ∧ as = [] ∧ s.listener = .parsing packet) ∨
      ∃ place signal, Stage connection packet as place ∧
        (signal = true ∨ a ≠ .store ∧ signal = s.signalReconnect) ∧
        s.listen a = done { s with listener := place, signalReconnect := signal } := by
  generalize hplace : s.listener = place at h
  cases h with
  | accepting =>
      refine .inr ⟨_, _, .signalling, .inr ⟨(fun h => by cases h), rfl⟩, ?_⟩
      simp only [NotifiedClient.listen, hplace]
  | signalling =>
      refine .inr ⟨_, _, .reading, .inl rfl, ?_⟩
      simp only [NotifiedClient.listen, hplace]
  | reading =>
      refine .inr ⟨_, _, .parsing, .inr ⟨(fun h => by cases h), rfl⟩, ?_⟩
      simp only [NotifiedClient.listen, hplace, hread]
  | parsing => exact .inl ⟨rfl, rfl, rfl⟩

/-! ## The message -/

/-- The text of the packet ends inside the allocation. -/
def isTerminated : Option Bytes → Bool
  | none => false
  | some image => 0 ∈ image.drop payloadOffset

/-- The payload parses as `host:port`. -/
def isNotification : Option Bytes → Bool
  | none => false
  | some image => 0 ∈ image.drop payloadOffset ∧ (scanHostPort (payloadText image)).isSome

theorem isTerminated_image {packet : Packet} (h : packet.IsCreated) :
    isTerminated (some packet.image) = true := by
  have hzero : (packet.image.drop payloadOffset)[packet.payload.length]? = some 0 := by
    rw [List.getElem?_drop]
    exact Packet.image_terminated h
  simpa [isTerminated] using List.mem_of_getElem? hzero

theorem notificationText_eq_done {text : Bytes} :
    notificationText packet = done text ↔
      ∃ image, packet = some image ∧ isTerminated packet = true ∧ text = payloadText image := by
  cases packet with
  | none => simp [notificationText]
  | some image =>
      by_cases hzero : 0 ∈ image.drop payloadOffset
      · simp [notificationText, isTerminated, hzero, eq_comm]
      · simp [notificationText, isTerminated, hzero]

/-- The message is only parsed when it ends, and the signal stays as it is. -/
theorem listen_parse {s t : NotifiedClient} (hplace : s.listener = .parsing packet)
    (h : s.listen .parse = done t) :
    isTerminated packet = true ∧ t.signalReconnect = s.signalReconnect := by
  simp only [NotifiedClient.listen, hplace] at h
  obtain ⟨text, htext, h⟩ := bind_eq_done.mp h
  obtain ⟨image, -, hterminated, -⟩ := notificationText_eq_done.mp htext
  refine ⟨hterminated, ?_⟩
  split at h
  · cases h
    rfl
  · split at h
    · cases h
      rfl
    · cases h

theorem listen_parse_bad {s : NotifiedClient} (hplace : s.listener = .parsing packet)
    (hterminated : isTerminated packet = true) (hbad : isNotification packet = false) :
    s.listen .parse = done { s with listener := .testing } := by
  cases packet with
  | none => cases hterminated
  | some image =>
      have htext : notificationText (some image) = done (payloadText image) :=
        notificationText_eq_done.mpr ⟨image, rfl, hterminated, rfl⟩
      have hzero : 0 ∈ image.drop payloadOffset := by simpa [isTerminated] using hterminated
      have hnone : scanHostPort (payloadText image) = none := by
        simpa [isNotification, hzero] using hbad
      simp only [NotifiedClient.listen, hplace, htext, bind_done, hnone]

end

theorem scanHostPort_printAddress (address : SockAddrIn) :
    scanHostPort (printAddress address) =
      some (inetNtop address.sinAddr, (address.sinPort.toNat : ℤ)) := by
  have hne : inetNtop address.sinAddr ≠ [] := by simp [inetNtop]
  have hlength := length_inetNtop_le address.sinAddr
  have hport : IsInt (address.sinPort.toNat : ℤ) := by
    have hlt := address.sinPort.toNat_lt
    constructor <;> omega
  exact scanHostPort_append hne (colon_not_mem_inetNtop _) (by omega) hport

/-- A message of the server is taken as it was written. -/
theorem listen_parse_notification {s : NotifiedClient} {newAddress : SockAddrIn}
    (hplace : s.listener = .parsing (some (notificationPacket newAddress).image)) :
    s.listen .parse = done { s with
      consoleSocketPort := newAddress.sinPort, hostname := inetNtop newAddress.sinAddr,
      listener := .awaiting } := by
  have hhost : (inetNtop newAddress.sinAddr).length < hostnameSize := by
    have hlength := length_inetNtop_le newAddress.sinAddr
    simp only [hostnameSize]
    omega
  have hport : UInt16.ofInt (newAddress.sinPort.toNat : ℤ) = newAddress.sinPort :=
    htons_toNat newAddress.sinPort
  have htext : notificationText (some (notificationPacket newAddress).image) =
      done (printAddress newAddress) := by
    rw [notificationText_eq_done]
    exact ⟨_, rfl, isTerminated_image (Packet.isCreated_createTextPacket ..),
      (payloadText_notificationPacket newAddress).symm⟩
  simp only [NotifiedClient.listen, hplace, htext, bind_done, scanHostPort_printAddress, hhost,
    ite_true, hport]

/-! ## One iteration -/

section

variable {connection rest : ByteStream} {packet : Option Bytes} {s t u v w : NotifiedClient}
  {a : ListenerStep} {b : WorkerStep} {ls : List ListenerStep}

/-- The client of an interleaving beside that of its workers alone: only the place of the listener
differs. -/
structure Unnoticed (connection : ByteStream) (packet : Option Bytes) (ls : List ListenerStep)
    (u v : NotifiedClient) : Prop where
  signalReconnect : v.signalReconnect = true
  same : u = { v with listener := u.listener }
  stage : Stage connection packet ls u.listener ∨ ls = [] ∧ u.listener = .testing

theorem Unnoticed.listen (hread : connection.readPacketImage = done (packet, rest))
    (hterminated : isTerminated packet = true) (hbad : isNotification packet = false)
    (h : Unnoticed connection packet (a :: ls) u v) :
    ∃ w, (u.listen a).returned = some w ∧ Unnoticed connection packet ls w v := by
  have hsignal : u.signalReconnect = true := by rw [h.same, h.signalReconnect]
  rcases h.stage with hstage | ⟨hnil, -⟩
  · obtain ⟨rfl, rfl, hplace⟩ | ⟨place, signal, hstage', hsignal', hlisten⟩ := hstage.step hread
    · refine ⟨{ u with listener := .testing }, ?_, h.signalReconnect, ?_, .inr ⟨rfl, rfl⟩⟩
      · exact returned_eq_some.mpr (listen_parse_bad hplace hterminated hbad)
      · rw [h.same]
    · have htrue : signal = u.signalReconnect :=
        hsignal'.elim (fun h => h.trans hsignal.symm) fun h => h.2
      refine ⟨{ u with listener := place }, ?_, h.signalReconnect, ?_, .inl hstage'⟩
      · rw [returned_eq_some, hlisten, htrue]
      · rw [h.same]
  · cases hnil

theorem Unnoticed.work (h : Unnoticed connection packet ls u v) (hstep : v.work b = some w) :
    ∃ x, u.work b = some x ∧ Unnoticed connection packet ls x w := by
  refine ⟨{ w with listener := u.listener }, ?_, (work_frame hstep).1.trans h.signalReconnect, rfl,
    h.stage⟩
  rw [h.same, work_listener, hstep, Option.map_some]

/-- What a run through the loop body leaves behind. -/
def Raised (connection : ByteStream) (packet : Option Bytes) (ls : List ListenerStep)
    (u : NotifiedClient) : Prop :=
  Stage connection packet ls u.listener ∧ (.store ∈ ls ∨ u.signalReconnect = true) ∨
    ls = [] ∧ isTerminated packet = true ∧ u.signalReconnect = true

theorem Raised.listen (hread : connection.readPacketImage = done (packet, rest))
    (h : Raised connection packet (a :: ls) u) (hstep : (u.listen a).returned = some v) :
    Raised connection packet ls v := by
  rw [returned_eq_some] at hstep
  rcases h with ⟨hstage, hsignal⟩ | ⟨hnil, -⟩
  · obtain ⟨rfl, rfl, hplace⟩ | ⟨place, signal, hstage', hsignal', hlisten⟩ := hstage.step hread
    · obtain ⟨hterminated, hsame⟩ := listen_parse hplace hstep
      have hraised : u.signalReconnect = true := by simpa using hsignal
      exact .inr ⟨rfl, hterminated, hsame.trans hraised⟩
    · obtain rfl := Ending.done.inj (hlisten.symm.trans hstep)
      refine .inl ⟨hstage', ?_⟩
      rcases hsignal' with htrue | ⟨hne, hsame⟩
      · exact .inr htrue
      · rcases hsignal with hmem | hraised
        · exact .inl ((List.mem_cons.mp hmem).resolve_left fun h => hne h.symm)
        · exact .inr (hsame.trans hraised)
  · cases hnil

theorem Raised.work (h : Raised connection packet ls u) (hstep : u.work b = some v) :
    Raised connection packet ls v := by
  obtain ⟨hsignal, hlistener, -⟩ := work_frame hstep
  rw [Raised, hsignal, hlistener]
  exact h

variable {as : List (ListenerStep ⊕ WorkerStep)}

/-- With the signal raised before, a message that does not parse changes nothing, whatever the
workers do meanwhile. -/
theorem run_step_of_signal (hread : connection.readPacketImage = done (packet, rest))
    (hplace : s.listener = .accepting) (has : lefts as = iteration connection)
    (hworkers : run NotifiedClient.work s (rights as) = some t)
    (hsignal : s.signalReconnect = true) (hterminated : isTerminated packet = true)
    (hbad : isNotification packet = false) :
    run NotifiedClient.step s as = some { t with listener := .testing } := by
  have hstart : Unnoticed connection packet (lefts as) s s :=
    ⟨hsignal, rfl, .inl (by rw [has, hplace]; exact .accepting)⟩
  obtain ⟨u, hrun, hend⟩ := interleave_simulate
    (fun _ _ _ _ h => h.listen hread hterminated hbad) (fun _ _ _ _ _ h => h.work)
    hstart hworkers
  rcases hend.stage with hstage | ⟨-, htesting⟩
  · cases hstage
  · rw [hrun, hend.same, htesting]

/-- After the loop body the signal is raised, and the message was a text. -/
theorem signal_of_run_step (hread : connection.readPacketImage = done (packet, rest))
    (hplace : s.listener = .accepting) (has : lefts as = iteration connection)
    (h : run NotifiedClient.step s as = some t) :
    isTerminated packet = true ∧ t.signalReconnect = true := by
  have hstart : Raised connection packet (lefts as) s := by
    rw [has, Raised, hplace]
    exact .inl ⟨.accepting, .inl (by simp [iteration])⟩
  have hend : Raised connection packet [] t := interleave_invariant
    (fun _ _ _ _ h => h.listen hread) (fun _ _ _ _ h => h.work) hstart h
  rcases hend with ⟨hstage, -⟩ | ⟨-, hend⟩
  · cases hstage
  · exact hend

theorem signal_of_run_work {bs : List WorkerStep} (h : run NotifiedClient.work s bs = some t) :
    t.signalReconnect = s.signalReconnect := by
  refine run_invariant (I := fun u => u.signalReconnect = s.signalReconnect) ?_ rfl h
  intro u b v hu hstep
  exact (work_frame hstep).1.trans hu

/-- What the next call of `handle_connection` connects to. -/
structure NotifiedClient.Calls (newAddress : SockAddrIn) (s : NotifiedClient) : Prop where
  listener : s.listener = .awaiting ∨ s.listener = .connecting
  hostname : s.hostname = inetNtop newAddress.sinAddr
  consoleSocketPort : s.consoleSocketPort = newAddress.sinPort

variable {newAddress : SockAddrIn}

theorem NotifiedClient.Calls.work (h : u.Calls newAddress) (hstep : u.work b = some v) :
    v.Calls newAddress := by
  obtain ⟨-, hlistener, hhostname, hport⟩ := work_frame hstep
  exact ⟨hlistener ▸ h.listener, hhostname.trans h.hostname, hport.trans h.consoleSocketPort⟩

theorem listen_of_awaiting (hplace : u.listener = .awaiting)
    (hstep : (u.listen a).returned = some v) :
    v = { u with threadsExited := 0, listener := .connecting } := by
  cases a with
  | await =>
      by_cases hexited : 3 ≤ u.threadsExited
      · simp only [NotifiedClient.listen, hplace, hexited, ite_true] at hstep
        exact (Option.some.inj hstep).symm
      · simp [NotifiedClient.listen, hplace, hexited, returned] at hstep
  | _ => simp [NotifiedClient.listen, hplace, returned] at hstep

theorem listen_of_connecting (hplace : u.listener = .connecting)
    (hstep : (u.listen a).returned = some v) : ∃ outcome, a = .connect outcome := by
  cases a with
  | connect outcome => exact ⟨outcome, rfl⟩
  | _ => simp [NotifiedClient.listen, hplace, returned] at hstep

/-- The listener waits for the workers and changes nothing before it connects. -/
theorem NotifiedClient.Calls.listen (ha : ∀ outcome, a ≠ .connect outcome)
    (h : u.Calls newAddress) (hstep : (u.listen a).returned = some v) : v.Calls newAddress := by
  rcases h.listener with hplace | hplace
  · obtain rfl := listen_of_awaiting hplace hstep
    exact ⟨.inr rfl, h.hostname, h.consoleSocketPort⟩
  · obtain ⟨outcome, rfl⟩ := listen_of_connecting hplace hstep
    exact absurd rfl (ha outcome)

/-- The message is still to be parsed, or it has been taken. -/
def Taken (connection : ByteStream) (newAddress : SockAddrIn) (ls : List ListenerStep)
    (u : NotifiedClient) : Prop :=
  Stage connection (some (notificationPacket newAddress).image) ls u.listener ∨
    ls = [] ∧ u.Calls newAddress

theorem Taken.listen
    (hread : connection.readPacketImage = done (some (notificationPacket newAddress).image, rest))
    (h : Taken connection newAddress (a :: ls) u) (hstep : (u.listen a).returned = some v) :
    Taken connection newAddress ls v := by
  rw [returned_eq_some] at hstep
  rcases h with hstage | ⟨hnil, -⟩
  · obtain ⟨rfl, rfl, hplace⟩ | ⟨place, signal, hstage', -, hlisten⟩ := hstage.step hread
    · obtain rfl := Ending.done.inj ((listen_parse_notification hplace).symm.trans hstep)
      exact .inr ⟨rfl, .inl rfl, rfl, rfl⟩
    · obtain rfl := Ending.done.inj (hlisten.symm.trans hstep)
      exact .inl hstage'
  · cases hnil

theorem Taken.work (h : Taken connection newAddress ls u) (hstep : u.work b = some v) :
    Taken connection newAddress ls v := by
  rcases h with hstage | ⟨rfl, hcalls⟩
  · exact .inl ((work_frame hstep).2.1 ▸ hstage)
  · exact .inr ⟨rfl, hcalls.work hstep⟩

/-- From the message of the server until `handle_connection` is called, the client has the address
that the server wrote. -/
theorem calls_of_run_step {bs : List (ListenerStep ⊕ WorkerStep)}
    (hread : connection.readPacketImage = done (some (notificationPacket newAddress).image, rest))
    (hplace : s.listener = .accepting) (has : lefts as = iteration connection)
    (hrun : run NotifiedClient.step s as = some t)
    (hbs : ∀ outcome, .connect outcome ∉ lefts bs)
    (hrun' : run NotifiedClient.step t bs = some u) : u.Calls newAddress := by
  have hstart : Taken connection newAddress (lefts as) s := by
    rw [has, Taken, hplace]
    exact .inl .accepting
  have htaken : Taken connection newAddress [] t := interleave_invariant
    (fun _ _ _ _ h => h.listen hread) (fun _ _ _ _ h => h.work) hstart hrun
  have hcalls : t.Calls newAddress := by
    rcases htaken with hstage | ⟨-, hcalls⟩
    · cases hstage
    · exact hcalls
  have hend := interleave_invariant
    (I := fun ls v => (∀ outcome, .connect outcome ∉ ls) ∧ v.Calls newAddress)
    (fun _ _ _ _ h hstep => ⟨fun outcome hmem => h.1 outcome (List.mem_cons_of_mem _ hmem),
      h.2.listen (fun outcome ha => h.1 outcome (ha ▸ List.mem_cons_self)) hstep⟩)
    (fun _ _ _ _ h hstep => ⟨h.1, h.2.work hstep⟩) ⟨hbs, hcalls⟩ hrun'
  exact hend.2

/-! ## What a bad message does -/

/-- The iteration of a message that does not parse leaves the client as it was exactly when the
signal was raised before and the message is a text, whatever the workers do meanwhile. A message of
the server is taken as it was written. -/
theorem notification_spec (hplace : s.listener = .accepting) :
    (∀ connection packet rest as t, connection.readPacketImage = done (packet, rest) →
      lefts as = iteration connection → run NotifiedClient.work s (rights as) = some t →
      ((isNotification packet = false →
          run NotifiedClient.step s as = some { t with listener := .testing }) ↔
        isNotification packet = true ∨ s.signalReconnect = true ∧ isTerminated packet = true)) ∧
    ∀ newAddress rest ending sizes as t,
      lefts as = iteration ⟨(notificationPacket newAddress).image ++ rest, ending, sizes⟩ →
      run NotifiedClient.step s as = some t →
      ∀ bs u, (∀ outcome, .connect outcome ∉ lefts bs) → run NotifiedClient.step t bs = some u →
        u.Calls newAddress := by
  constructor
  · intro connection packet rest as t hread has hworkers
    constructor
    · intro h
      cases hbad : isNotification packet with
      | true => exact .inl rfl
      | false =>
          obtain ⟨hterminated, hsignal⟩ := signal_of_run_step hread hplace has (h hbad)
          exact .inr ⟨(signal_of_run_work hworkers).symm.trans hsignal, hterminated⟩
    · intro h hbad
      rcases h with hgood | ⟨hsignal, hterminated⟩
      · rw [hbad] at hgood
        cases hgood
      · exact run_step_of_signal hread hplace has hworkers hsignal hterminated hbad
  · intro newAddress rest ending sizes as t has hrun bs u hbs hrun'
    obtain ⟨sizes', hread⟩ :=
      ByteStream.readPacketImage_append (notificationPacket newAddress) rest ending sizes
    exact calls_of_run_step hread hplace has hrun hbs hrun'

/-- A bad message while the client is connected. -/
theorem run_iteration_bad (hread : connection.readPacketImage = done (packet, rest))
    (hplace : s.listener = .accepting) (hterminated : isTerminated packet = true)
    (hbad : isNotification packet = false) :
    run NotifiedClient.step s ((iteration connection).map .inl) =
      some { s with signalReconnect := true, listener := .testing } := by
  have haccept : s.listen (.accept connection) =
      done { s with listener := .signalling connection } := by
    simp only [NotifiedClient.listen, hplace]
  have hnext : { s with signalReconnect := true, listener := .reading connection }.listen .read =
      done { s with signalReconnect := true, listener := .parsing packet } := by
    simp only [NotifiedClient.listen, hread]
  have hparse : { s with signalReconnect := true, listener := .parsing packet }.listen .parse =
      done { s with signalReconnect := true, listener := .testing } :=
    listen_parse_bad rfl hterminated hbad
  exact run_cons_eq_some.mpr ⟨_, returned_eq_some.mpr haccept, run_cons_eq_some.mpr ⟨_, rfl,
    run_cons_eq_some.mpr ⟨_, returned_eq_some.mpr hnext, run_cons_eq_some.mpr
      ⟨_, returned_eq_some.mpr hparse, rfl⟩⟩⟩⟩

/-- With the signal raised, one test of each worker ends them all. -/
theorem run_tests_of_signal (hsignal : s.signalReconnect = true)
    (hrunning : ∀ worker, s.running worker = true) :
    run NotifiedClient.step s
        [.inr (.test .console), .inr (.test .watcher), .inr (.test .receiver)] =
      some { s with running := fun _ => false, threadsExited := s.threadsExited + 3 } := by
  have hconsole := work_test_of_signal hsignal (hrunning .console)
  have hwatcher : (s.finish .console).work (.test .watcher) =
      some ((s.finish .console).finish .watcher) :=
    work_test_of_signal hsignal (by simp [NotifiedClient.finish, hrunning])
  have hreceiver : ((s.finish .console).finish .watcher).work (.test .receiver) =
      some (((s.finish .console).finish .watcher).finish .receiver) :=
    work_test_of_signal hsignal (by simp [NotifiedClient.finish, hrunning])
  have hended : ((s.finish .console).finish .watcher).finish .receiver =
      { s with running := fun _ => false, threadsExited := s.threadsExited + 3 } := by
    have hall : (((s.finish .console).finish .watcher).finish .receiver).running =
        fun _ => false := by
      funext worker
      cases worker with
      | console => rfl
      | watcher => rfl
      | receiver => rfl
    rw [← hall]
    rfl
  rw [← hended]
  exact run_cons_eq_some.mpr ⟨_, hconsole, run_cons_eq_some.mpr ⟨_, hwatcher,
    run_cons_eq_some.mpr ⟨_, hreceiver, rfl⟩⟩⟩

end

/-- An early closure is a bad message, wherever in the packet it comes. -/
theorem closed_is_bad :
    isNotification (some (createPacketImage .connectionClosed 0 [])) = false ∧
      isTerminated (some (createPacketImage .connectionClosed 0 [])) = true := by
  decide

theorem readPacketImage_closed (sizes : ℕ → ℕ) :
    ∃ rest, ByteStream.readPacketImage ⟨[], .closed, sizes⟩ =
      done (some (createPacketImage .connectionClosed 0 []), rest) :=
  @ByteStream.readPacketImage_short (createTextPacket .data []) [] sizes List.nil_prefix
    (by decide +kernel)

/-- The text `localhost`. -/
def localhost : Bytes := [108, 111, 99, 97, 108, 104, 111, 115, 116]

/-- A connection that is closed before a byte comes, while the signal is raised. -/
theorem notification_spec_closed :
    ∃ rest, ByteStream.readPacketImage ⟨[], .closed, fun _ => 8⟩ =
        done (some (createPacketImage .connectionClosed 0 []), rest) ∧
      run NotifiedClient.step
          { NotifiedClient.connected localhost 4000 with signalReconnect := true }
          ((iteration ⟨[], .closed, fun _ => 8⟩).map .inl) =
        some { NotifiedClient.connected localhost 4000 with
          signalReconnect := true, listener := .testing } := by
  obtain ⟨rest, hread⟩ := readPacketImage_closed fun _ => 8
  exact ⟨rest, hread, (((@notification_spec
    { NotifiedClient.connected localhost 4000 with signalReconnect := true } rfl).1 _ _ _
      ((iteration ⟨[], .closed, fun _ => 8⟩).map .inl) _ hread rfl rfl).mpr
      (.inr ⟨rfl, closed_is_bad.2⟩)) closed_is_bad.1⟩

/-- A connection that is closed before a byte comes ends the three workers, and the listener waits
for the next one. -/
theorem closed_notification_disconnects :
    ∃ rest t u, ByteStream.readPacketImage ⟨[], .closed, fun _ => 8⟩ =
        done (some (createPacketImage .connectionClosed 0 []), rest) ∧
      isNotification (some (createPacketImage .connectionClosed 0 [])) = false ∧
      run NotifiedClient.step (NotifiedClient.connected localhost 4000)
          ((iteration ⟨[], .closed, fun _ => 8⟩).map .inl) = some t ∧
      t.signalReconnect ≠ (NotifiedClient.connected localhost 4000).signalReconnect ∧
      run NotifiedClient.step t
          [.inr (.test .console), .inr (.test .watcher), .inr (.test .receiver)] = some u ∧
      u.threadsExited = 3 ∧ u.listener = .testing ∧ ∀ worker, u.running worker = false := by
  obtain ⟨rest, hread⟩ := readPacketImage_closed fun _ => 8
  exact ⟨rest, _, _, hread, closed_is_bad.1,
    run_iteration_bad hread rfl closed_is_bad.2 closed_is_bad.1, (fun h => by cases h),
    run_tests_of_signal rfl fun _ => rfl, rfl, rfl, fun _ => rfl⟩

end SyncServer
