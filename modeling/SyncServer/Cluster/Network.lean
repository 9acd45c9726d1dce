import SyncServer.Server.Writers

/-! # Servers on a network

Servers with their connections. What is written to one end of a connection can be read at the
other end at once, in the order of the writes. Descriptors are not used again after a close. The
threads here are those that keep the servers together; the threads that serve clients come on top of
them.
-/

namespace SyncServer

open CText Transition

/-- One end of a connection: a server and its descriptor. -/
abbrev End := ℤ × ℕ

/-- How an end was made: by `connect`, or at the other side, where it waits for `accept`. -/
inductive EndKind where
  | dialed
  | waiting
  | accepted
  deriving DecidableEq, Repr

/-- The servers by id. `inbox` holds what can be read at an end, each packet with the thread
that wrote it. -/
structure Cluster where
  servers : ℤ → Server
  crashed : ℤ → Bool
  kind : End → Option EndKind
  peer : End → Option End
  inbox : End → List (ℕ × Bytes)

/-- A second passes for a server, a thread takes a step, a thread connects to a listener, or a
server crashes. -/
inductive Cluster.Action where
  | tick (i : ℤ)
  | run (i : ℤ) (tid : ℕ) (input : Input) (fresh : ℕ)
  | dial (i : ℤ) (tid fresh socketfd : ℕ) (address : SockAddrIn) (remote : End)
  | crash (i : ℤ)
  deriving DecidableEq, Repr

/-- The socket that the next step of a thread reads. -/
def Thread.reading : Thread → Option ℕ
  | electionListener socket _ .receive => some socket
  | connectToServer _ _ _ (.receive socketfd _ _) => some socketfd
  | replicaListener _ (.readRegistration socketfd _) => some socketfd
  | _ => none

/-- The next statement of the thread is a `connect`. -/
def Thread.connects : Thread → Bool
  | connectToServer _ _ _ (.connect _) => true
  | connectToServer _ _ _ (.dialReplica _ _ _ _) => true
  | _ => false

namespace Cluster

/-! ## The steps -/

/-- What waits on the socket that the thread is about to read. -/
def unread (c : Cluster) (i : ℤ) (tid : ℕ) : List (ℕ × Bytes) :=
  match ((c.servers i).threads tid).reading with
  | none => []
  | some socketfd => c.inbox (i, socketfd)

/-- The network has this input for the thread. A timeout or the end of a connection is seen
only where nothing is left to read. -/
def grants (c : Cluster) (i : ℤ) (tid : ℕ) : Input → Bool
  | .packet writer payload => (c.unread i tid).head? = some (writer, payload)
  | .registration payload _ _ => (c.unread i tid).head?.map Prod.snd = some payload
  | .noData => c.unread i tid = []
  | .closed => c.unread i tid = []
  | .accepted socketfd _ => c.kind (i, socketfd) = some .waiting
  | .connected socketfd _ => c.kind (i, socketfd) = some .dialed
  | _ => true

/-- `connect` succeeded. -/
def isConnected : Input → Bool
  | .connected _ _ => true
  | _ => false

/-- A packet is taken from the socket. -/
def consumes : Input → Bool
  | .packet _ _ => true
  | .registration _ _ _ => true
  | _ => false

/-- What is left at an end after the thread has read. -/
def left (c : Cluster) (i : ℤ) (tid : ℕ) (input : Input) (p : End) : List (ℕ × Bytes) :=
  if consumes input ∧ ((c.servers i).threads tid).reading = some p.2 ∧ p.1 = i
  then (c.inbox p).tail else c.inbox p

/-- What the writes of a thread put at an end. -/
def arriving (c : Cluster) (i : ℤ) (tid : ℕ) (sent : List (ℕ × Bytes)) (p : End) :
    List (ℕ × Bytes) :=
  (sent.filter fun m => c.peer (i, m.1) = some p).map fun m => (tid, m.2)

/-- `accept` takes an end that waits. -/
def accept (c : Cluster) (i : ℤ) : Input → End → Option EndKind
  | .accepted socketfd _ => Function.update c.kind (i, socketfd) (some .accepted)
  | _ => c.kind

/-- A thread takes a step on an input that the network has for it. -/
def act (c : Cluster) (i : ℤ) (tid : ℕ) (input : Input) (fresh : ℕ) : Option Cluster :=
  if c.crashed i then none
  else if c.grants i tid input then
    ((c.servers i).effect tid input fresh).bind fun e =>
      ((c.servers i).step (.run tid input fresh)).map fun s =>
        { c with
          servers := Function.update c.servers i s
          kind := c.accept i input
          inbox := fun p => c.left i tid input p ++ c.arriving i tid e.sent p }
  else none

/-- Two new ends are connected. -/
def connect (c : Cluster) (p q : End) : Cluster :=
  { c with
    kind := Function.update (Function.update c.kind p (some .dialed)) q (some .waiting)
    peer := Function.update (Function.update c.peer p (some q)) q (some p) }

/-- The thread is about to connect, the two ends are new, and the second belongs to a server
that listens on the port. Which server an IP address leads to is left open. -/
def canDial (c : Cluster) (tid : ℕ) (p : End) (port : UInt16) (q : End) : Bool :=
  ((c.servers p.1).threads tid).connects && p ≠ q && c.kind p = none && c.kind q = none &&
    !c.crashed q.1 && (c.servers q.1).shared.listenerSocket = some port

def step (c : Cluster) : Action → Option Cluster
  | .tick i =>
      if c.crashed i then none
      else ((c.servers i).step .tick).map fun s =>
        { c with servers := Function.update c.servers i s }
  | .run i tid input fresh => if isConnected input then none else c.act i tid input fresh
  | .dial i tid fresh socketfd address remote =>
      if c.canDial tid (i, socketfd) address.sinPort remote then
        (c.connect (i, socketfd) remote).act i tid (.connected socketfd address) fresh
      else none
  | .crash i => some { c with crashed := Function.update c.crashed i true }

/-- The state after a list of actions. -/
abbrev run (c : Cluster) (actions : List Action) : Option Cluster :=
  Transition.run Cluster.step c actions

/-- A server that does not exist. -/
def absent : Server := ⟨.initial .unknownMode 0 ⟨0, 0, 0, 0⟩ fun _ => none, fun _ => .unused⟩

/-- Any number of managers and backups, each started under its id, and no connections yet. -/
structure Starts (c : Cluster) : Prop where
  servers : ∀ i, (c.servers i).StartsAs i ∨ c.servers i = absent
  kind : ∀ p, c.kind p = none
  peer : ∀ p, c.peer p = none
  inbox : ∀ p, c.inbox p = []

/-! ## What a step does -/

variable {c c' : Cluster} {i : ℤ} {tid fresh : ℕ} {input : Input}

theorem act_eq_some (h : c.act i tid input fresh = some c') :
    ∃ e s, c.grants i tid input = true ∧ (c.servers i).effect tid input fresh = some e ∧
      (c.servers i).step (.run tid input fresh) = some s ∧
      c' = { c with
        servers := Function.update c.servers i s
        kind := c.accept i input
        inbox := fun p => c.left i tid input p ++ c.arriving i tid e.sent p } := by
  unfold act at h
  split at h
  · cases h
  · split at h
    · rename_i hg
      obtain ⟨e, he, h⟩ := Option.bind_eq_some_iff.mp h
      obtain ⟨s, hs, rfl⟩ := Option.map_eq_some_iff.mp h
      exact ⟨e, s, hg, he, hs, rfl⟩
    · cases h

/-- A tick changes the clock of one server. -/
theorem tick_servers {s : Server} (hs : (c.servers i).step .tick = some s) (j : ℤ) :
    ∃ time, Function.update c.servers i s j =
      { c.servers j with shared := { (c.servers j).shared with time := time } } := by
  obtain rfl := Server.step_tick hs
  by_cases hj : j = i
  · subst hj
    exact ⟨_, Function.update_self ..⟩
  · exact ⟨(c.servers j).shared.time, by simp [hj]⟩

/-- A thread of a server that is up takes its step. -/
theorem exists_act {e : Effect Thread} (hlive : c.crashed i = false)
    (hg : c.grants i tid input = true) (he : (c.servers i).effect tid input fresh = some e)
    (hc : e.created = none) :
    ∃ c', c.act i tid input fresh = some c' ∧ (c'.servers i).threads tid = e.next := by
  have hs : (c.servers i).step (.run tid input fresh) =
      some ⟨e.shared, (c.servers i).place tid fresh e⟩ := by
    simp [Server.step, he, hc]
  simp only [act, hlive, hg, he, hs, Bool.false_eq_true, ite_false, ite_true, Option.bind_some,
    Option.map_some]
  exact ⟨_, rfl, by simp [Server.place_self he (.inl hc)]⟩

theorem new_of_canDial {p q : End} {port : UInt16} (h : c.canDial tid p port q = true) :
    p ≠ q ∧ c.kind p = none ∧ c.kind q = none := by
  simp only [canDial, Bool.and_eq_true, decide_eq_true_eq] at h
  obtain ⟨⟨⟨⟨⟨-, hne⟩, hp⟩, hq⟩, -⟩, -⟩ := h
  exact ⟨hne, hp, hq⟩

theorem connects_of_canDial {p q : End} {port : UInt16} (h : c.canDial tid p port q = true) :
    ((c.servers p.1).threads tid).connects = true := by
  simp only [canDial, Bool.and_eq_true] at h
  exact h.1.1.1.1.1

/-- An invariant is kept by all steps if the ticks, the connections, the steps of the threads
and the crashes keep it. -/
theorem invariant_step {I : Cluster → Prop} {a : Action}
    (htick : ∀ i s, (c.servers i).step .tick = some s → I c →
      I { c with servers := Function.update c.servers i s })
    (hcrash : ∀ i, I c → I { c with crashed := Function.update c.crashed i true })
    (hconnect : ∀ p q, p ≠ q → c.kind p = none → c.kind q = none → I c → I (c.connect p q))
    (hact : ∀ c₁ i tid input fresh, I c₁ → c₁.act i tid input fresh = some c' → I c')
    (hc : I c) (h : c.step a = some c') : I c' := by
  cases a with
  | tick i =>
      simp only [step] at h
      split at h
      · cases h
      · obtain ⟨s, hs, rfl⟩ := Option.map_eq_some_iff.mp h
        exact htick i s hs hc
  | run i tid input fresh =>
      simp only [step] at h
      split at h
      · cases h
      · exact hact c i tid input fresh hc h
  | dial i tid fresh socketfd address remote =>
      simp only [step] at h
      split at h
      · rename_i hd
        obtain ⟨hne, hp, hq⟩ := new_of_canDial hd
        exact hact _ i tid _ fresh (hconnect _ _ hne hp hq hc) h
      · cases h
  | crash i =>
      obtain rfl := Option.some.inj h
      exact hcrash i hc

/-- A packet at an end was there before or was written by the step. -/
theorem mem_inbox_act {sent : List (ℕ × Bytes)} {p : End} {m : ℕ × Bytes}
    (h : m ∈ c.left i tid input p ++ c.arriving i tid sent p) :
    m ∈ c.inbox p ∨ ∃ socketfd, (socketfd, m.2) ∈ sent ∧ c.peer (i, socketfd) = some p := by
  rcases List.mem_append.mp h with h | h
  · refine .inl ?_
    unfold left at h
    split at h
    · exact List.mem_of_mem_tail h
    · exact h
  · obtain ⟨⟨socketfd, payload⟩, hm, rfl⟩ := List.mem_map.mp h
    obtain ⟨hs, hp⟩ := List.mem_filter.mp hm
    exact .inr ⟨socketfd, hs, by simpa using hp⟩

/-- A packet that a thread reads waits at its socket. -/
theorem mem_inbox_of_packet {writer : ℕ} {payload : Bytes} {socketfd : ℕ}
    (h : c.grants i tid (.packet writer payload) = true)
    (hr : ((c.servers i).threads tid).reading = some socketfd) :
    (writer, payload) ∈ c.inbox (i, socketfd) := by
  simp only [grants, unread, hr, decide_eq_true_eq] at h
  exact List.mem_of_head? h

theorem mem_inbox_of_registration {payload : Bytes} {id listenerPort : ℤ} {socketfd : ℕ}
    (h : c.grants i tid (.registration payload id listenerPort) = true)
    (hr : ((c.servers i).threads tid).reading = some socketfd) :
    ∃ m ∈ c.inbox (i, socketfd), m.2 = payload := by
  simp only [grants, unread, hr, decide_eq_true_eq, Option.map_eq_some_iff] at h
  obtain ⟨m, hm, rfl⟩ := h
  exact ⟨m, List.mem_of_head? hm, rfl⟩

/-- A fact about every thread of every server holds after a step if the acting thread and a
created one meet it then and the others met it before. -/
theorem forall_threads {P : ℤ → ℕ → Thread → Prop} (h : c.act i tid input fresh = some c')
    (hself : ∀ e, c.grants i tid input = true → (c.servers i).effect tid input fresh = some e →
      P i tid e.next)
    (hnew : ∀ e thread, (c.servers i).effect tid input fresh = some e →
      e.created = some thread → (c.servers i).threads fresh = .unused → P i fresh thread)
    (hother : ∀ j t, j ≠ i ∨ t ≠ tid → P j t ((c.servers j).threads t)) :
    ∀ j t, P j t ((c'.servers j).threads t) := by
  obtain ⟨e, s, hg, he, hs, hc'⟩ := act_eq_some h
  obtain ⟨e', he', hf, rfl⟩ := Server.step_run hs
  obtain rfl : e = e' := Option.some.inj (he.symm.trans he')
  intro j t
  by_cases hj : j = i
  · subst hj
    have hplace : (c'.servers j).threads t = (c.servers j).place tid fresh e t := by
      rw [hc']
      simp
    rw [hplace]
    rcases Server.place_cases he hf t with ⟨rfl, ht⟩ | ⟨-, rfl, hu, hcr⟩ | ⟨hne, ht⟩
    · rw [ht]
      exact hself e hg he
    · exact hnew e _ he hcr hu
    · rw [ht]
      exact hother j t (.inr hne)
  · have hkeep : c'.servers j = c.servers j := by
      rw [hc']
      simp [hj]
    rw [hkeep]
    exact hother j t (.inl hj)

/-! ## The threads that are in use -/

/-- The step creates no thread from the number `n` on. -/
def Action.createsBelow (n : ℕ) : Action → Bool
  | .run _ _ _ fresh => fresh < n
  | .dial _ _ fresh _ _ _ => fresh < n
  | _ => true

theorem unusedFrom_step {n : ℕ} {a : Action} (hc : ∀ i, (c.servers i).UnusedFrom n)
    (ha : a.createsBelow n = true) (h : c.step a = some c') :
    ∀ i, (c'.servers i).UnusedFrom n := by
  have hact : ∀ c₁ : Cluster, c₁.servers = c.servers → ∀ i tid input fresh, fresh < n →
      c₁.act i tid input fresh = some c' → ∀ i, (c'.servers i).UnusedFrom n := by
    intro c₁ hc₁ i tid input fresh hlt h j
    obtain ⟨e, s, -, -, hs, rfl⟩ := act_eq_some h
    rw [hc₁] at hs
    by_cases hj : j = i
    · subst hj
      simpa using (hc j).step (by simpa [SyncServer.Action.createsBelow] using hlt) hs
    · simpa [hj, hc₁] using hc j
  cases a with
  | tick i =>
      simp only [step] at h
      split at h
      · cases h
      · obtain ⟨s, hs, rfl⟩ := Option.map_eq_some_iff.mp h
        intro j
        by_cases hj : j = i
        · subst hj
          simpa using (hc j).step (by rfl) hs
        · simpa [hj] using hc j
  | run i tid input fresh =>
      simp only [step] at h
      split at h
      · cases h
      · exact hact c rfl i tid input fresh (by simpa [Action.createsBelow] using ha) h
  | dial i tid fresh socketfd address remote =>
      simp only [step] at h
      split at h
      · exact hact (c.connect _ _) rfl i tid _ fresh
          (by simpa [Action.createsBelow] using ha) h
      · cases h
  | crash i =>
      obtain rfl := Option.some.inj h
      exact hc

theorem unusedFrom_run {n : ℕ} {actions : List Action} (hc : ∀ i, (c.servers i).UnusedFrom n)
    (ha : ∀ a ∈ actions, a.createsBelow n = true) (h : c.run actions = some c') :
    ∀ i, (c'.servers i).UnusedFrom n := by
  induction actions generalizing c with
  | nil =>
      obtain rfl := Option.some.inj h
      exact hc
  | cons a as ih =>
      obtain ⟨u, hu, h⟩ := Transition.run_cons_eq_some.mp h
      exact ih (unusedFrom_step hc (ha a List.mem_cons_self) hu)
        (fun b hb => ha b (List.mem_cons_of_mem a hb)) h

end Cluster

end SyncServer
