import Mathlib.Data.List.Nodup
import SyncServer.Library.Transition
import SyncServer.Sessions.Context

/-! # Whose sockets does a session get?

A client connects to the interface port, sends its name and waits for the answer, and connects
to the two transfer ports then. The server accepts one client at a time; the transfer sockets
come from listening queues that all clients share, and nothing in them says whose they are.
-/

namespace SyncServer.Handshake

open CText Transition

/-! ## The two parties -/

/-- The server's end of a connection: the client behind it and the address of its socket. -/
structure Socket where
  client : ℕ
  peer : SockAddrIn
  deriving DecidableEq, Repr

/-- `handle_connection`, by the statement that comes next. -/
inductive ClientStep where
  | connecting
  | naming
  | awaiting
  | connectingReceive
  | connectingSend
  | connected
  deriving DecidableEq, Repr

/-- A client with what it has sent on its interface socket, the answer that was sent to it
there, and the address of its receive socket. A client that has exited is crashed. -/
structure Client where
  step : ClientStep
  crashed : Bool
  username : Bytes
  sent : Bytes
  answer : Option ℤ
  receiveAddress : Option SockAddrIn
  deriving DecidableEq, Repr

/-- The accept loop of `main` with `handle_new_connection`, by the statement that comes next. -/
inductive ServerStep where
  | accepting
  | reading (interface : Socket)
  | answering (interface : Socket) (username : Username)
  | acceptingReceive (interface : Socket) (username : Username)
  | acceptingSend (interface : Socket) (username : Username) (receive : Socket)
  | initializing (interface : Socket) (username : Username) (receive send : Socket)
  | exited

structure SessionSockets where
  interface : Socket
  receive : Socket
  send : Socket

structure Session where
  sockets : SessionSockets
  deviceAddress : SockAddrIn
  username : Username

/-- The clients, the connections that wait to be accepted at each port, and the sessions that
the server has made. -/
structure Network where
  clients : ℕ → Client
  queues : UInt16 → List Socket
  server : ServerStep
  sessions : List Session

/-- A client executes its next statement, `address` being that of the socket it connects; it
crashes; a connection that it has left pending is reset; the server executes its next statement,
of which a read gives `size` bytes and `find_free_session_index` a slot if `hasFree`; or a call
of the server fails and it exits. -/
inductive Action where
  | client (c : ℕ) (address : SockAddrIn)
  | crash (c : ℕ)
  | reset (port : UInt16) (index : ℕ)
  | server (size : ℕ) (hasFree : Bool)
  | fail
  deriving DecidableEq, Repr

/-- `ANSWER_OK`. -/
def answerOk : ℤ := 1

/-! The port numbers of `main`, and those of `handle_connection` for a client whose
`console_socket_port` is the interface port. -/

def serverReceivePort (interfacePort : UInt16) : UInt16 := interfacePort + 1
def serverSendPort (interfacePort : UInt16) : UInt16 := interfacePort + 2
def clientSendPort (consolePort : UInt16) : UInt16 := consolePort + 1
def clientReceivePort (consolePort : UInt16) : UInt16 := consolePort + 2

namespace Network

def setClient (s : Network) (c : ℕ) (client : Client) : Network :=
  { s with clients := Function.update s.clients c client }

def setQueue (s : Network) (port : UInt16) (queue : List Socket) : Network :=
  { s with queues := Function.update s.queues port queue }

/-- A connection is made, and waits at the end of the queue. -/
def connect (s : Network) (port : UInt16) (socket : Socket) : Network :=
  s.setQueue port (s.queues port ++ [socket])

def setServer (s : Network) (server : ServerStep) : Network := { s with server := server }

/-- The server has been ended: every read of a client returns. -/
def hasExited (s : Network) : Bool :=
  match s.server with
  | .exited => true
  | _ => false

section Steps

variable (port : UInt16) (s : Network)

def clientStep (c : ℕ) (address : SockAddrIn) : Option Network :=
  let client := s.clients c
  if client.crashed then none else
  match client.step with
  | .connecting =>
      some ((s.connect port ⟨c, address⟩).setClient c { client with step := .naming })
  | .naming =>
      some (s.setClient c { client with sent := client.username, step := .awaiting })
  | .awaiting =>
      if client.answer.isSome || s.hasExited then
        some (s.setClient c { client with step := .connectingReceive })
      else none
  | .connectingReceive =>
      some ((s.connect (clientReceivePort port) ⟨c, address⟩).setClient c
        { client with receiveAddress := some address, step := .connectingSend })
  | .connectingSend =>
      some ((s.connect (clientSendPort port) ⟨c, address⟩).setClient c
        { client with step := .connected })
  | .connected => none

/-- `accept` takes the first connection that waits. -/
def accept (port : UInt16) (next : Socket → ServerStep) : Option Network :=
  match s.queues port with
  | [] => none
  | socket :: rest => some ((s.setQueue port rest).setServer (next socket))

/-- `read` returns some of the bytes that are there, and none only when the client is gone. -/
def read (interface : Socket) (size : ℕ) : Option Bytes :=
  let client := s.clients interface.client
  if size ≤ client.sent.length ∧ (0 < size ∨ client.crashed) then some (client.sent.take size)
  else none

def serverStep (size : ℕ) (hasFree : Bool) : Option Network :=
  match s.server with
  | .accepting => s.accept port .reading
  | .reading interface =>
      (s.read interface size).map fun request =>
        s.setServer (.answering interface (readUsername request))
  | .answering interface username =>
      let client := s.clients interface.client
      some ((s.setClient interface.client { client with answer := some answerOk }).setServer
        (.acceptingReceive interface username))
  | .acceptingReceive interface username =>
      s.accept (serverReceivePort port) (.acceptingSend interface username)
  | .acceptingSend interface username receive =>
      s.accept (serverSendPort port) (.initializing interface username receive)
  | .initializing interface username receive send =>
      let session : Session := ⟨⟨interface, receive, send⟩, send.peer, username⟩
      some { s with
        sessions := if hasFree then session :: s.sessions else s.sessions
        server := .accepting }
  | .exited => none

def step : Action → Option Network
  | .client c address => s.clientStep port c address
  | .crash c => some (s.setClient c { s.clients c with crashed := true })
  | .reset port index =>
      match (s.queues port)[index]? with
      | some socket =>
          if (s.clients socket.client).crashed then
            some (s.setQueue port ((s.queues port).eraseIdx index))
          else none
      | none => none
  | .server size hasFree => s.serverStep port size hasFree
  | .fail => some (s.setServer .exited)

end Steps

/-- A server that waits for its first client. -/
def start (usernames : ℕ → Bytes) : Network where
  clients c := ⟨.connecting, false, usernames c, [], none, none⟩
  queues _ := []
  server := .accepting
  sessions := []

/-- The sockets of a session lead to one client, and its device address is the address of that
client's receive socket. -/
def Paired (s : Network) : Prop :=
  ∀ session ∈ s.sessions, ∃ c, session.sockets.interface.client = c ∧
    session.sockets.receive.client = c ∧ session.sockets.send.client = c ∧
    (s.clients c).receiveAddress = some session.deviceAddress

end Network

/-! ## Who is being served -/

/-- The client that was accepted and has no answer yet. -/
def ServerStep.unanswered : ServerStep → Option ℕ
  | reading interface | answering interface _ => some interface.client
  | _ => none

/-- The client that has its answer and no session yet. -/
def ServerStep.serving : ServerStep → Option ℕ
  | acceptingReceive interface _ | acceptingSend interface _ _ | initializing interface _ _ _ =>
      some interface.client
  | _ => none

/-- The client has read its answer. -/
def ClientStep.hasRead : ClientStep → Bool
  | connectingReceive | connectingSend | connected => true
  | _ => false

namespace Network

/-- What the server has accepted after its answer is all that the client connects, and it is
the client's. -/
def Accepted (port : UInt16) (s : Network) : ServerStep → Prop
  | .acceptingSend interface _ receive =>
      receive.client = interface.client ∧ (s.clients interface.client).step = .connected ∧
      s.queues (serverReceivePort port) = []
  | .initializing interface _ receive send =>
      receive.client = interface.client ∧ send.client = interface.client ∧
      (s.clients interface.client).step = .connected ∧
      (s.clients interface.client).receiveAddress = some send.peer ∧
      s.queues (serverReceivePort port) = [] ∧ s.queues (serverSendPort port) = []
  | _ => True

/-- What the steps preserve while the server runs. Each client is answered once, so that the
answered clients are the one being served and those that have connected everything; only the
first has connections pending at the transfer ports. -/
structure Running (port : UInt16) (s : Network) : Prop where
  unread : ∀ c, (s.clients c).step.hasRead = true → (s.clients c).answer ≠ none
  fresh : ∀ c, (s.clients c).step = .connecting → (s.clients c).answer = none
  waiting : ∀ socket ∈ s.queues port, (s.clients socket.client).answer = none ∧
    (s.clients socket.client).step ≠ .connecting
  nodup : ((s.queues port).map (·.client)).Nodup
  unanswered : ∀ c, s.server.unanswered = some c → (s.clients c).answer = none ∧
    (s.clients c).step ≠ .connecting ∧ c ∉ (s.queues port).map (·.client)
  answered : ∀ c, (s.clients c).answer ≠ none →
    s.server.serving = some c ∨ (s.clients c).step = .connected
  receives : ∀ socket ∈ s.queues (serverReceivePort port), s.server.serving = some socket.client ∧
    (s.clients socket.client).step = .connected
  sends : ∀ socket ∈ s.queues (serverSendPort port), s.server.serving = some socket.client ∧
    (s.clients socket.client).receiveAddress = some socket.peer ∧
    ((s.clients socket.client).step = .connectingSend ∨
      (s.clients socket.client).step = .connected)
  receives_length : (s.queues (serverReceivePort port)).length ≤ 1
  sends_length : (s.queues (serverSendPort port)).length ≤ 1
  accepted : s.Accepted port s.server

/-- The clients of the sessions have connected everything, so that nothing of theirs changes. -/
def Settled (s : Network) : Prop :=
  ∀ session ∈ s.sessions, ∃ c, session.sockets.interface.client = c ∧
    session.sockets.receive.client = c ∧ session.sockets.send.client = c ∧
    (s.clients c).receiveAddress = some session.deviceAddress ∧
    (s.clients c).step = .connected

/-! ## The effect of the updates -/

section Updates

variable (s : Network)

@[simp] theorem clients_setQueue (port : UInt16) (queue : List Socket) :
    (s.setQueue port queue).clients = s.clients := rfl

@[simp] theorem server_setQueue (port : UInt16) (queue : List Socket) :
    (s.setQueue port queue).server = s.server := rfl

@[simp] theorem clients_setServer (server : ServerStep) :
    (s.setServer server).clients = s.clients := rfl

@[simp] theorem queues_setServer (server : ServerStep) :
    (s.setServer server).queues = s.queues := rfl

@[simp] theorem queues_setClient (c : ℕ) (client : Client) :
    (s.setClient c client).queues = s.queues := rfl

theorem setClient_self (c : ℕ) (client : Client) : (s.setClient c client).clients c = client :=
  Function.update_self ..

theorem setClient_of_ne {c d : ℕ} (h : d ≠ c) (client : Client) :
    (s.setClient c client).clients d = s.clients d :=
  Function.update_of_ne h ..

/-- What holds of the client that goes on and of the others holds of all. -/
theorem forall_setClient {P : ℕ → Client → Prop} {c : ℕ} {client : Client} (hc : P c client)
    (hother : ∀ d, P d (s.clients d)) (d : ℕ) : P d ((s.setClient c client).clients d) := by
  by_cases hd : d = c
  · rw [hd, setClient_self]
    exact hc
  · rw [setClient_of_ne s hd]
    exact hother d

theorem setQueue_self (port : UInt16) (queue : List Socket) :
    (s.setQueue port queue).queues port = queue :=
  Function.update_self ..

theorem setQueue_of_ne {port other : UInt16} (h : other ≠ port) (queue : List Socket) :
    (s.setQueue port queue).queues other = s.queues other :=
  Function.update_of_ne h ..

end Updates

theorem serverReceivePort_ne (port : UInt16) : serverReceivePort port ≠ port := by
  rw [serverReceivePort]
  grind

theorem serverSendPort_ne (port : UInt16) : serverSendPort port ≠ port := by
  rw [serverSendPort]
  grind

theorem serverSendPort_ne_receivePort (port : UInt16) :
    serverSendPort port ≠ serverReceivePort port := by
  rw [serverSendPort, serverReceivePort]
  grind

variable {port : UInt16} {s t : Network}

/-! ### Clients -/

/-- A step of a client leaves the server, the sessions and the other clients alone. -/
theorem frame_of_clientStep {c : ℕ} {address : SockAddrIn}
    (hstep : s.clientStep port c address = some t) :
    (s.clients c).step ≠ .connected ∧ t.server = s.server ∧ t.sessions = s.sessions ∧
      ∀ d, d ≠ c → t.clients d = s.clients d := by
  unfold clientStep at hstep
  simp only at hstep
  split at hstep
  · cases hstep
  cases hc : (s.clients c).step with
  | awaiting =>
      simp only [hc] at hstep
      split at hstep
      · obtain rfl := Option.some.inj hstep
        exact ⟨by simp, rfl, rfl, fun d hd => Function.update_of_ne hd ..⟩
      · cases hstep
  | connected => simp [hc] at hstep
  | _ =>
      simp only [hc] at hstep
      obtain rfl := Option.some.inj hstep
      exact ⟨by simp, rfl, rfl, fun d hd => Function.update_of_ne hd ..⟩

/-- A client goes on, or is gone, and connects nothing by that. -/
theorem Running.setClient {c : ℕ} {client : Client} (h : Running port s)
    (hanswer : client.answer = (s.clients c).answer)
    (hread : client.step.hasRead = true → client.answer ≠ none)
    (hconnecting : client.step = .connecting → (s.clients c).step = .connecting)
    (hconnected : (s.clients c).step = .connected → client.step = .connected)
    (hsends : (s.clients c).step = .connectingSend ∨ (s.clients c).step = .connected →
      (client.step = .connectingSend ∨ client.step = .connected) ∧
        client.receiveAddress = (s.clients c).receiveAddress) :
    Running port (s.setClient c client) := by
  have hanswers : ∀ d, ((s.setClient c client).clients d).answer = (s.clients d).answer :=
    forall_setClient s (P := fun d new => new.answer = (s.clients d).answer) hanswer fun _ => rfl
  have hstarted : ∀ d, ((s.setClient c client).clients d).step = .connecting →
      (s.clients d).step = .connecting :=
    forall_setClient s (P := fun d new => new.step = .connecting → (s.clients d).step = .connecting)
      hconnecting fun _ => id
  have hdone : ∀ d, (s.clients d).step = .connected →
      ((s.setClient c client).clients d).step = .connected :=
    forall_setClient s (P := fun d new => (s.clients d).step = .connected → new.step = .connected)
      hconnected fun _ => id
  have hsent : ∀ d, (s.clients d).step = .connectingSend ∨ (s.clients d).step = .connected →
      (((s.setClient c client).clients d).step = .connectingSend ∨
        ((s.setClient c client).clients d).step = .connected) ∧
      ((s.setClient c client).clients d).receiveAddress = (s.clients d).receiveAddress :=
    forall_setClient s (P := fun d new =>
      (s.clients d).step = .connectingSend ∨ (s.clients d).step = .connected →
        (new.step = .connectingSend ∨ new.step = .connected) ∧
          new.receiveAddress = (s.clients d).receiveAddress) hsends fun _ h => ⟨h, rfl⟩
  refine ⟨?_, ?_, ?_, h.nodup, ?_, ?_, ?_, ?_, h.receives_length, h.sends_length, ?_⟩
  · exact forall_setClient s (P := fun _ new => new.step.hasRead = true → new.answer ≠ none)
      hread h.unread
  · intro d hd
    rw [hanswers]
    exact h.fresh d (hstarted d hd)
  · intro socket hsocket
    rw [hanswers]
    exact (h.waiting socket hsocket).imp_right fun hne hc => hne (hstarted _ hc)
  · intro d hd
    rw [hanswers]
    exact (h.unanswered d hd).imp_right (And.imp_left fun hne hc => hne (hstarted _ hc))
  · intro d hd
    rw [hanswers] at hd
    exact (h.answered d hd).imp_right (hdone d)
  · intro socket hsocket
    exact (h.receives socket hsocket).imp_right (hdone _)
  · intro socket hsocket
    obtain ⟨hserving, haddress, hstep⟩ := h.sends socket hsocket
    obtain ⟨hstep', haddress'⟩ := hsent _ hstep
    exact ⟨hserving, haddress'.trans haddress, hstep'⟩
  · have haccepted := h.accepted
    change (s.setClient c client).Accepted port s.server
    cases hserver : s.server with
    | acceptingSend interface username receive =>
        rw [hserver] at haccepted
        obtain ⟨hclient, hstep, hqueue⟩ := haccepted
        exact ⟨hclient, hdone _ hstep, hqueue⟩
    | initializing interface username receive send =>
        rw [hserver] at haccepted
        obtain ⟨hclient, hclient', hstep, haddress, hqueues⟩ := haccepted
        exact ⟨hclient, hclient', hdone _ hstep, (hsent _ (.inr hstep)).2.trans haddress, hqueues⟩
    | _ => trivial

/-- The server that serves a client waits for the connection that the client has not made. -/
theorem Running.acceptingReceive {c : ℕ} (h : Running port s)
    (hserving : s.server.serving = some c) (hstep : (s.clients c).step ≠ .connected) :
    ∃ interface username, s.server = .acceptingReceive interface username ∧
      interface.client = c := by
  have haccepted := h.accepted
  cases hserver : s.server with
  | acceptingReceive interface username =>
      rw [hserver] at hserving
      exact ⟨interface, username, rfl, Option.some.inj hserving⟩
  | acceptingSend interface username receive =>
      rw [hserver] at hserving haccepted
      obtain rfl := Option.some.inj hserving
      exact absurd haccepted.2.1 hstep
  | initializing interface username receive send =>
      rw [hserver] at hserving haccepted
      obtain rfl := Option.some.inj hserving
      exact absurd haccepted.2.2.1 hstep
  | _ =>
      rw [hserver] at hserving
      cases hserving

/-- A client that has read its answer and not connected everything is the one being served. -/
theorem Running.serving_of_hasRead {c : ℕ} (h : Running port s)
    (hread : (s.clients c).step.hasRead = true) (hstep : (s.clients c).step ≠ .connected) :
    s.server.serving = some c :=
  (h.answered c (h.unread c hread)).resolve_right hstep

/-- A client that was never accepted connects to the interface port. -/
theorem Running.connect (h : Running port s) (socket : Socket)
    (hanswer : (s.clients socket.client).answer = none)
    (hstep : (s.clients socket.client).step ≠ .connecting)
    (hwaiting : socket.client ∉ (s.queues port).map (·.client))
    (hunanswered : s.server.unanswered ≠ some socket.client) :
    Running port (s.connect port socket) := by
  have hreceive : (s.connect port socket).queues (serverReceivePort port) =
      s.queues (serverReceivePort port) := setQueue_of_ne s (serverReceivePort_ne port) _
  have hsend : (s.connect port socket).queues (serverSendPort port) =
      s.queues (serverSendPort port) := setQueue_of_ne s (serverSendPort_ne port) _
  have hqueue : (s.connect port socket).queues port = s.queues port ++ [socket] :=
    setQueue_self ..
  refine ⟨h.unread, h.fresh, ?_, ?_, ?_, h.answered, ?_, ?_, ?_, ?_, ?_⟩
  · intro other hother
    rw [hqueue] at hother
    rcases List.mem_append.mp hother with hother | hother
    · exact h.waiting other hother
    · obtain rfl := List.mem_singleton.mp hother
      exact ⟨hanswer, hstep⟩
  · rw [hqueue, List.map_append, List.nodup_append']
    refine ⟨h.nodup, List.nodup_singleton _, ?_⟩
    rw [List.map_singleton, List.disjoint_singleton]
    exact hwaiting
  · intro d hd
    refine (h.unanswered d hd).imp_right (And.imp_right fun hnot => ?_)
    rw [hqueue, List.map_append, List.mem_append, List.map_singleton, List.mem_singleton]
    rintro (hd' | rfl)
    · exact hnot hd'
    · exact hunanswered hd
  · rw [hreceive]
    exact h.receives
  · rw [hsend]
    exact h.sends
  · rw [hreceive]
    exact h.receives_length
  · rw [hsend]
    exact h.sends_length
  · have haccepted := h.accepted
    change (s.connect port socket).Accepted port s.server
    cases hserver : s.server with
    | acceptingSend interface username receive =>
        rw [hserver] at haccepted
        rw [Accepted, hreceive]
        exact haccepted
    | initializing interface username receive send =>
        rw [hserver] at haccepted
        rw [Accepted, hreceive, hsend]
        exact haccepted
    | _ => trivial

/-- The client being served connects its receive socket. -/
theorem Running.connect_send {interface : Socket} {username : Username}
    (h : Running port s) (socket : Socket)
    (hserver : s.server = .acceptingReceive interface username)
    (hclient : interface.client = socket.client)
    (haddress : (s.clients socket.client).receiveAddress = some socket.peer)
    (hstep : (s.clients socket.client).step = .connectingSend ∨
      (s.clients socket.client).step = .connected)
    (hempty : s.queues (serverSendPort port) = []) :
    Running port (s.connect (clientReceivePort port) socket) := by
  have hport : (s.connect (clientReceivePort port) socket).queues port = s.queues port :=
    setQueue_of_ne s (serverSendPort_ne port).symm _
  have hreceive : (s.connect (clientReceivePort port) socket).queues (serverReceivePort port) =
      s.queues (serverReceivePort port) :=
    setQueue_of_ne s (serverSendPort_ne_receivePort port).symm _
  have hsend : (s.connect (clientReceivePort port) socket).queues (serverSendPort port) =
      [socket] := by
    refine (setQueue_self ..).trans ?_
    change s.queues (serverSendPort port) ++ [socket] = [socket]
    rw [hempty, List.nil_append]
  refine ⟨h.unread, h.fresh, ?_, ?_, ?_, h.answered, ?_, ?_, ?_, ?_, ?_⟩
  · rw [hport]
    exact h.waiting
  · rw [hport]
    exact h.nodup
  · rw [hport]
    exact h.unanswered
  · rw [hreceive]
    exact h.receives
  · rw [hsend]
    intro other hother
    obtain rfl := List.mem_singleton.mp hother
    refine ⟨?_, haddress, hstep⟩
    change s.server.serving = _
    rw [hserver, ← hclient]
    rfl
  · rw [hreceive]
    exact h.receives_length
  · rw [hsend]
    exact le_rfl
  · change (s.connect (clientReceivePort port) socket).Accepted port s.server
    rw [hserver]
    trivial

/-- The client being served connects its send socket. -/
theorem Running.connect_receive {interface : Socket} {username : Username}
    (h : Running port s) (socket : Socket)
    (hserver : s.server = .acceptingReceive interface username)
    (hclient : interface.client = socket.client)
    (hstep : (s.clients socket.client).step = .connected)
    (hempty : s.queues (serverReceivePort port) = []) :
    Running port (s.connect (clientSendPort port) socket) := by
  have hport : (s.connect (clientSendPort port) socket).queues port = s.queues port :=
    setQueue_of_ne s (serverReceivePort_ne port).symm _
  have hsend : (s.connect (clientSendPort port) socket).queues (serverSendPort port) =
      s.queues (serverSendPort port) := setQueue_of_ne s (serverSendPort_ne_receivePort port) _
  have hreceive : (s.connect (clientSendPort port) socket).queues (serverReceivePort port) =
      [socket] := by
    refine (setQueue_self ..).trans ?_
    change s.queues (serverReceivePort port) ++ [socket] = [socket]
    rw [hempty, List.nil_append]
  refine ⟨h.unread, h.fresh, ?_, ?_, ?_, h.answered, ?_, ?_, ?_, ?_, ?_⟩
  · rw [hport]
    exact h.waiting
  · rw [hport]
    exact h.nodup
  · rw [hport]
    exact h.unanswered
  · rw [hreceive]
    intro other hother
    obtain rfl := List.mem_singleton.mp hother
    refine ⟨?_, hstep⟩
    change s.server.serving = _
    rw [hserver, ← hclient]
    rfl
  · rw [hsend]
    exact h.sends
  · rw [hreceive]
    exact le_rfl
  · rw [hsend]
    exact h.sends_length
  · change (s.connect (clientSendPort port) socket).Accepted port s.server
    rw [hserver]
    trivial

theorem Running.clientStep {c : ℕ} {address : SockAddrIn} (h : Running port s)
    (hexited : s.hasExited = false) (hstep : s.clientStep port c address = some t) :
    Running port t := by
  unfold Network.clientStep at hstep
  simp only at hstep
  split at hstep
  · cases hstep
  cases hc : (s.clients c).step with
  | connecting =>
      simp only [hc] at hstep
      obtain rfl := Option.some.inj hstep
      have hanswer := h.fresh c hc
      have hmoved : Running port (s.setClient c { s.clients c with step := .naming }) := by
        refine h.setClient rfl ?_ ?_ ?_ ?_ <;> simp [hc, ClientStep.hasRead]
      refine hmoved.connect ⟨c, address⟩ ?_ ?_ ?_ ?_
      · rw [setClient_self]
        exact hanswer
      · rw [setClient_self]
        exact fun heq => by cases heq
      · intro hin
        obtain ⟨socket, hsocket, rfl⟩ := List.mem_map.mp hin
        exact (h.waiting socket hsocket).2 hc
      · exact fun hin => (h.unanswered c hin).2.1 hc
  | naming =>
      simp only [hc] at hstep
      obtain rfl := Option.some.inj hstep
      refine h.setClient rfl ?_ ?_ ?_ ?_ <;> simp [hc, ClientStep.hasRead]
  | awaiting =>
      simp only [hc, hexited, Bool.or_false] at hstep
      split at hstep
      · rename_i hanswer
        obtain rfl := Option.some.inj hstep
        refine h.setClient rfl (fun _ => Option.isSome_iff_ne_none.mp hanswer) ?_ ?_ ?_ <;>
          simp [hc]
      · cases hstep
  | connectingReceive =>
      simp only [hc] at hstep
      obtain rfl := Option.some.inj hstep
      have hread : (s.clients c).step.hasRead = true := congrArg ClientStep.hasRead hc
      have hne : (s.clients c).step ≠ .connected := by
        rw [hc]
        exact fun heq => by cases heq
      have hserving := h.serving_of_hasRead hread hne
      obtain ⟨interface, username, hserver, hclient⟩ := h.acceptingReceive hserving hne
      have hmoved : Running port (s.setClient c
          { s.clients c with receiveAddress := some address, step := .connectingSend }) := by
        refine h.setClient rfl (fun _ => h.unread c hread) ?_ ?_ ?_ <;> simp [hc]
      refine hmoved.connect_send ⟨c, address⟩ hserver hclient ?_ ?_ ?_
      · rw [setClient_self]
      · rw [setClient_self]
        exact .inl rfl
      · refine List.eq_nil_iff_forall_not_mem.mpr fun socket hsocket => ?_
        obtain ⟨hserving', -, hsent⟩ := h.sends socket hsocket
        obtain rfl := Option.some.inj (hserving.symm.trans hserving')
        rw [hc] at hsent
        simp at hsent
  | connectingSend =>
      simp only [hc] at hstep
      obtain rfl := Option.some.inj hstep
      have hread : (s.clients c).step.hasRead = true := congrArg ClientStep.hasRead hc
      have hne : (s.clients c).step ≠ .connected := by
        rw [hc]
        exact fun heq => by cases heq
      have hserving := h.serving_of_hasRead hread hne
      obtain ⟨interface, username, hserver, hclient⟩ := h.acceptingReceive hserving hne
      have hmoved : Running port (s.setClient c { s.clients c with step := .connected }) := by
        refine h.setClient rfl (fun _ => h.unread c hread) ?_ ?_ ?_ <;> simp
      refine hmoved.connect_receive ⟨c, address⟩ hserver hclient ?_ ?_
      · rw [setClient_self]
      · refine List.eq_nil_iff_forall_not_mem.mpr fun socket hsocket => ?_
        obtain ⟨hserving', hdone⟩ := h.receives socket hsocket
        obtain rfl := Option.some.inj (hserving.symm.trans hserving')
        exact hne hdone
  | connected => simp [hc] at hstep

/-! ### The server -/

theorem Accepted.of_sublist {server : ServerStep} {t : Network} (h : s.Accepted port server)
    (hclients : t.clients = s.clients)
    (hqueues : ∀ p, (t.queues p).Sublist (s.queues p)) : t.Accepted port server := by
  have hnil : ∀ p, s.queues p = [] → t.queues p = [] := by
    intro p hp
    exact List.sublist_nil.mp (hp ▸ hqueues p)
  cases server with
  | acceptingSend interface username receive =>
      obtain ⟨hclient, hstep, hqueue⟩ := h
      exact ⟨hclient, hclients ▸ hstep, hnil _ hqueue⟩
  | initializing interface username receive send =>
      obtain ⟨hclient, hclient', hstep, haddress, hreceive, hsend⟩ := h
      exact ⟨hclient, hclient', hclients ▸ hstep, hclients ▸ haddress, hnil _ hreceive,
        hnil _ hsend⟩
  | _ => trivial

/-- Pending connections are taken or lost. -/
theorem Running.setQueue {p : UInt16} {queue : List Socket} (h : Running port s)
    (hqueue : queue.Sublist (s.queues p)) : Running port (s.setQueue p queue) := by
  have hsub : ∀ q, ((s.setQueue p queue).queues q).Sublist (s.queues q) := by
    intro q
    by_cases hq : q = p
    · rw [hq, setQueue_self]
      exact hqueue
    · rw [setQueue_of_ne s hq]
  refine ⟨h.unread, h.fresh, ?_, ?_, ?_, h.answered, ?_, ?_, ?_, ?_, ?_⟩
  · exact fun socket hsocket => h.waiting socket ((hsub port).subset hsocket)
  · exact h.nodup.sublist ((hsub port).map _)
  · intro d hd
    refine (h.unanswered d hd).imp_right (And.imp_right fun hnot hin => hnot ?_)
    exact ((hsub port).map _).subset hin
  · exact fun socket hsocket => h.receives socket ((hsub _).subset hsocket)
  · exact fun socket hsocket => h.sends socket ((hsub _).subset hsocket)
  · exact (hsub _).length_le.trans h.receives_length
  · exact (hsub _).length_le.trans h.sends_length
  · exact Accepted.of_sublist h.accepted rfl hsub

/-- The server goes on with the client that it serves. -/
theorem Running.setServer {server : ServerStep} (h : Running port s)
    (hserving : server.serving = s.server.serving)
    (hunanswered : ∀ c, server.unanswered = some c → (s.clients c).answer = none ∧
      (s.clients c).step ≠ .connecting ∧ c ∉ (s.queues port).map (·.client))
    (haccepted : s.Accepted port server) : Running port (s.setServer server) where
  unread := h.unread
  fresh := h.fresh
  waiting := h.waiting
  nodup := h.nodup
  unanswered := hunanswered
  answered c hc := (h.answered c hc).imp_left hserving.trans
  receives socket hsocket := (h.receives socket hsocket).imp_left hserving.trans
  sends socket hsocket := (h.sends socket hsocket).imp_left hserving.trans
  receives_length := h.receives_length
  sends_length := h.sends_length
  accepted := haccepted

/-- A queue of at most one connection is empty when that is taken. -/
theorem rest_eq_nil {p : UInt16} {socket : Socket} {rest : List Socket}
    (hlength : (s.queues p).length ≤ 1) (hqueue : s.queues p = socket :: rest) : rest = [] := by
  rw [hqueue, List.length_cons] at hlength
  exact List.length_eq_zero_iff.mp (by omega)

/-- While the server serves nobody, no connection is pending at the transfer ports. -/
theorem Running.transfers_empty (h : Running port s) (hserving : s.server.serving = none) :
    s.queues (serverReceivePort port) = [] ∧ s.queues (serverSendPort port) = [] := by
  constructor
  · refine List.eq_nil_iff_forall_not_mem.mpr fun socket hsocket => ?_
    cases hserving.symm.trans (h.receives socket hsocket).1
  · refine List.eq_nil_iff_forall_not_mem.mpr fun socket hsocket => ?_
    cases hserving.symm.trans (h.sends socket hsocket).1

/-- The accepted client gets its answer. -/
theorem Running.answer {interface : Socket} {username : Username} (h : Running port s)
    (hserver : s.server = .answering interface username) :
    Running port ((s.setClient interface.client
      { s.clients interface.client with answer := some answerOk }).setServer
        (.acceptingReceive interface username)) := by
  have hserving : s.server.serving = none := by
    rw [hserver]
    rfl
  obtain ⟨hanswer, hstep, hnot⟩ := h.unanswered interface.client (by rw [hserver]; rfl)
  obtain ⟨hreceive, hsend⟩ := h.transfers_empty hserving
  refine ⟨?_, ?_, ?_, h.nodup, ?_, ?_, ?_, ?_, h.receives_length, h.sends_length, trivial⟩
  · intro d hread
    by_cases hd : d = interface.client
    · rw [hd, clients_setServer, setClient_self]
      exact fun hnone => by cases hnone
    · rw [clients_setServer, setClient_of_ne s hd] at hread ⊢
      exact h.unread d hread
  · intro d hconnecting
    by_cases hd : d = interface.client
    · rw [hd, clients_setServer, setClient_self] at hconnecting
      exact absurd hconnecting hstep
    · rw [clients_setServer, setClient_of_ne s hd] at hconnecting ⊢
      exact h.fresh d hconnecting
  · intro socket hsocket
    have hd : socket.client ≠ interface.client := fun heq =>
      hnot (heq ▸ List.mem_map_of_mem hsocket)
    rw [clients_setServer, setClient_of_ne s hd]
    exact h.waiting socket hsocket
  · intro d hd
    cases hd
  · intro d hanswered
    by_cases hd : d = interface.client
    · exact .inl (congrArg some hd.symm)
    · rw [clients_setServer, setClient_of_ne s hd] at hanswered ⊢
      refine .inr ((h.answered d hanswered).resolve_left ?_)
      rw [hserving]
      exact fun heq => by cases heq
  · rw [queues_setServer, queues_setClient, hreceive]
    exact fun _ hin => absurd hin List.not_mem_nil
  · rw [queues_setServer, queues_setClient, hsend]
    exact fun _ hin => absurd hin List.not_mem_nil

/-- A session is made, or there is no slot for it. -/
theorem Running.initialize {interface receive send : Socket} {username : Username}
    {sessions : List Session} (h : Running port s)
    (hserver : s.server = .initializing interface username receive send) :
    Running port { s with sessions := sessions, server := .accepting } := by
  have haccepted := h.accepted
  rw [hserver] at haccepted
  obtain ⟨-, -, hstep, -, hreceive, hsend⟩ := haccepted
  refine ⟨h.unread, h.fresh, h.waiting, h.nodup, ?_, ?_, ?_, ?_, h.receives_length,
    h.sends_length, trivial⟩
  · intro c hc
    cases hc
  · intro c hc
    refine .inr ((h.answered c hc).elim (fun hserving => ?_) id)
    rw [hserver] at hserving
    obtain rfl := Option.some.inj hserving
    exact hstep
  · rw [hreceive]
    exact fun _ hin => absurd hin List.not_mem_nil
  · rw [hsend]
    exact fun _ hin => absurd hin List.not_mem_nil

theorem accept_eq_some {p : UInt16} {next : Socket → ServerStep}
    (h : s.accept p next = some t) : ∃ socket rest, s.queues p = socket :: rest ∧
      t = (s.setQueue p rest).setServer (next socket) := by
  unfold accept at h
  cases hqueue : s.queues p with
  | nil => simp [hqueue] at h
  | cons socket rest =>
      simp only [hqueue] at h
      exact ⟨socket, rest, rfl, (Option.some.inj h).symm⟩

theorem Running.serverStep {size : ℕ} {hasFree : Bool} (h : Running port s)
    (hstep : s.serverStep port size hasFree = some t) : Running port t := by
  unfold Network.serverStep at hstep
  cases hserver : s.server with
  | accepting =>
      simp only [hserver] at hstep
      obtain ⟨socket, rest, hqueue, rfl⟩ := accept_eq_some hstep
      have hrest : rest.Sublist (s.queues port) := hqueue ▸ List.sublist_cons_self socket rest
      refine (h.setQueue hrest).setServer ?_ ?_ trivial
      · rw [server_setQueue, hserver]
        rfl
      · intro c hc
        obtain rfl := Option.some.inj hc
        have hin : socket ∈ s.queues port := hqueue ▸ List.mem_cons_self
        obtain ⟨hanswer, hstarted⟩ := h.waiting socket hin
        refine ⟨hanswer, hstarted, ?_⟩
        have hnodup := h.nodup
        rw [hqueue, List.map_cons, List.nodup_cons] at hnodup
        rw [setQueue_self]
        exact hnodup.1
  | reading interface =>
      simp only [hserver] at hstep
      obtain ⟨request, -, rfl⟩ := Option.map_eq_some_iff.mp hstep
      refine h.setServer ?_ (fun c hc => h.unanswered c ?_) trivial
      · rw [hserver]
        rfl
      · rw [hserver]
        exact hc
  | answering interface username =>
      simp only [hserver] at hstep
      obtain rfl := Option.some.inj hstep
      exact h.answer hserver
  | acceptingReceive interface username =>
      simp only [hserver] at hstep
      obtain ⟨socket, rest, hqueue, rfl⟩ := accept_eq_some hstep
      have hrest : rest.Sublist (s.queues (serverReceivePort port)) :=
        hqueue ▸ List.sublist_cons_self socket rest
      obtain ⟨hserving, hdone⟩ := h.receives socket (hqueue ▸ List.mem_cons_self)
      rw [hserver] at hserving
      have hclient : interface.client = socket.client := Option.some.inj hserving
      have hempty : rest = [] := rest_eq_nil h.receives_length hqueue
      refine (h.setQueue hrest).setServer ?_ (fun c hc => by cases hc) ⟨hclient.symm, ?_, ?_⟩
      · rw [server_setQueue, hserver]
        rfl
      · rw [clients_setQueue, hclient]
        exact hdone
      · rw [setQueue_self, hempty]
  | acceptingSend interface username receive =>
      simp only [hserver] at hstep
      obtain ⟨socket, rest, hqueue, rfl⟩ := accept_eq_some hstep
      have hrest : rest.Sublist (s.queues (serverSendPort port)) :=
        hqueue ▸ List.sublist_cons_self socket rest
      obtain ⟨hserving, haddress, -⟩ := h.sends socket (hqueue ▸ List.mem_cons_self)
      have haccepted := h.accepted
      rw [hserver] at hserving haccepted
      obtain ⟨hreceive, hdone, hreceives⟩ := haccepted
      have hclient : interface.client = socket.client := Option.some.inj hserving
      have hempty : rest = [] := rest_eq_nil h.sends_length hqueue
      refine (h.setQueue hrest).setServer ?_ (fun c hc => by cases hc)
        ⟨hreceive, hclient.symm, hdone, ?_, ?_, ?_⟩
      · rw [server_setQueue, hserver]
        rfl
      · rw [clients_setQueue, hclient]
        exact haddress
      · rw [setQueue_of_ne s (serverSendPort_ne_receivePort port).symm]
        exact hreceives
      · rw [setQueue_self, hempty]
  | initializing interface username receive send =>
      simp only [hserver] at hstep
      obtain rfl := Option.some.inj hstep
      exact h.initialize hserver
  | exited => simp [hserver] at hstep

/-! ## The sessions -/

theorem Settled.paired (h : s.Settled) : s.Paired := by
  intro session hsession
  obtain ⟨c, hinterface, hreceive, hsend, haddress, -⟩ := h session hsession
  exact ⟨c, hinterface, hreceive, hsend, haddress⟩

theorem Settled.of_clients (h : s.Settled) (hsessions : t.sessions = s.sessions)
    (hclients : ∀ c, (s.clients c).step = .connected → (t.clients c).step = .connected ∧
      (t.clients c).receiveAddress = (s.clients c).receiveAddress) : t.Settled := by
  intro session hsession
  rw [hsessions] at hsession
  obtain ⟨c, hinterface, hreceive, hsend, haddress, hstep⟩ := h session hsession
  obtain ⟨hstep', haddress'⟩ := hclients c hstep
  exact ⟨c, hinterface, hreceive, hsend, haddress'.trans haddress, hstep'⟩

theorem Settled.setClient {c : ℕ} {client : Client} (h : s.Settled)
    (hclient : (s.clients c).step = .connected → client.step = .connected ∧
      client.receiveAddress = (s.clients c).receiveAddress) : (s.setClient c client).Settled := by
  refine h.of_clients rfl fun d hd => ?_
  by_cases hdc : d = c
  · rw [hdc, setClient_self]
    exact hclient (hdc ▸ hd)
  · rw [setClient_of_ne s hdc]
    exact ⟨hd, rfl⟩

theorem Settled.clientStep {c : ℕ} {address : SockAddrIn} (h : s.Settled)
    (hstep : s.clientStep port c address = some t) : t.Settled := by
  obtain ⟨hne, -, hsessions, hothers⟩ := frame_of_clientStep hstep
  refine h.of_clients hsessions fun d hd => ?_
  have hdc : d ≠ c := by
    rintro rfl
    exact hne hd
  rw [hothers d hdc]
  exact ⟨hd, rfl⟩

theorem Settled.serverStep {size : ℕ} {hasFree : Bool} (h : s.Settled)
    (hrunning : Running port s) (hstep : s.serverStep port size hasFree = some t) :
    t.Settled := by
  have hkeep : ∀ u : Network, u.clients = s.clients → u.sessions = s.sessions → u.Settled :=
    fun u hclients hsessions => h.of_clients hsessions fun d hd => by
      rw [hclients]
      exact ⟨hd, rfl⟩
  have haccepted := hrunning.accepted
  unfold Network.serverStep at hstep
  cases hserver : s.server with
  | reading interface =>
      simp only [hserver] at hstep
      obtain ⟨request, -, rfl⟩ := Option.map_eq_some_iff.mp hstep
      exact hkeep _ rfl rfl
  | answering interface username =>
      simp only [hserver] at hstep
      obtain rfl := Option.some.inj hstep
      have hmoved : (s.setClient interface.client
          { s.clients interface.client with answer := some answerOk }).Settled :=
        h.setClient fun hc => ⟨hc, rfl⟩
      exact hmoved.of_clients rfl fun d hd => ⟨hd, rfl⟩
  | initializing interface username receive send =>
      simp only [hserver] at hstep haccepted
      obtain ⟨hreceive, hsend, hdone, haddress, -⟩ := haccepted
      obtain rfl := Option.some.inj hstep
      intro session hsession
      dsimp only at hsession
      split at hsession
      · rcases List.mem_cons.mp hsession with rfl | hsession
        · exact ⟨interface.client, rfl, hreceive, hsend, haddress, hdone⟩
        · exact h session hsession
      · exact h session hsession
  | exited => simp [hserver] at hstep
  | _ =>
      simp only [hserver] at hstep
      obtain ⟨socket, rest, -, rfl⟩ := accept_eq_some hstep
      exact hkeep _ rfl rfl

/-! ## Every run -/

theorem hasExited_congr (h : t.server = s.server) : t.hasExited = s.hasExited := by
  rw [hasExited, hasExited, h]

theorem hasExited_of_serverStep {size : ℕ} {hasFree : Bool}
    (hstep : s.serverStep port size hasFree = some t) : s.hasExited = false := by
  cases hserver : s.server with
  | exited => simp [Network.serverStep, hserver] at hstep
  | _ => rw [hasExited, hserver]

theorem running_start (usernames : ℕ → Bytes) : Running port (start usernames) where
  unread c hc := by cases hc
  fresh _ _ := rfl
  waiting _ hin := absurd hin List.not_mem_nil
  nodup := List.nodup_nil
  unanswered c hc := by cases hc
  answered c hc := absurd rfl hc
  receives _ hin := absurd hin List.not_mem_nil
  sends _ hin := absurd hin List.not_mem_nil
  receives_length := Nat.zero_le _
  sends_length := Nat.zero_le _
  accepted := trivial

/-- The sessions are settled, and while the server runs the queues are in order. -/
def Orderly (port : UInt16) (s : Network) : Prop :=
  s.Settled ∧ (s.hasExited = false → Running port s)

theorem Orderly.step {a : Action} (h : Orderly port s) (hstep : s.step port a = some t) :
    Orderly port t := by
  obtain ⟨hsettled, hrunning⟩ := h
  cases a with
  | client c address =>
      refine ⟨hsettled.clientStep hstep, fun hexited => ?_⟩
      have hserver := hasExited_congr (frame_of_clientStep hstep).2.1
      exact (hrunning (hserver ▸ hexited)).clientStep (hserver ▸ hexited) hstep
  | crash c =>
      obtain rfl := Option.some.inj hstep
      refine ⟨hsettled.setClient fun hc => ⟨hc, rfl⟩, fun hexited => ?_⟩
      have h := hrunning hexited
      exact h.setClient rfl (h.unread c) id id fun hc => ⟨hc, rfl⟩
  | reset p index =>
      simp only [Network.step] at hstep
      split at hstep
      · split at hstep
        · obtain rfl := Option.some.inj hstep
          exact ⟨hsettled.of_clients rfl fun d hd => ⟨hd, rfl⟩, fun hexited =>
            (hrunning hexited).setQueue (List.eraseIdx_sublist ..)⟩
        · cases hstep
      · cases hstep
  | server size hasFree =>
      have hstep : s.serverStep port size hasFree = some t := hstep
      have h := hrunning (hasExited_of_serverStep hstep)
      exact ⟨hsettled.serverStep h hstep, fun _ => h.serverStep hstep⟩
  | fail =>
      obtain rfl := Option.some.inj hstep
      exact ⟨hsettled.of_clients rfl fun d hd => ⟨hd, rfl⟩, fun hexited => by cases hexited⟩

/-- However the clients connect and crash, the sockets of every session the server makes are
those of one client, and so is its device address. -/
theorem always_paired (port : UInt16) (usernames : ℕ → Bytes) (actions : List Action) :
    Always (step port) Paired (start usernames) actions :=
  (Always.of_invariant (fun _ _ _ h hstep => h.step hstep)
    ⟨fun _ hin => absurd hin List.not_mem_nil, fun _ => running_start usernames⟩ actions).mono
    fun _ (h : Orderly port _) => h.1.paired

/-- The second client comes while the first is served, and crashes while it is served itself. -/
example :
    (run (step 4000) (start fun _ => [97]) (
      [.client 0 .zero, .client 0 .zero, .server 0 true, .client 1 .zero, .server 1 true,
        .client 1 .zero, .server 0 true, .client 0 .zero, .client 0 .zero, .client 0 .zero] ++
      List.replicate 4 (.server 1 true) ++
      [.server 1 true, .server 0 true, .client 1 .zero, .client 1 .zero, .crash 1])).map
        (fun t => (t.sessions.map (·.sockets.receive.client), (t.queues 4002).length)) =
      some ([0], 1) := by
  rfl

end Network

end SyncServer.Handshake
