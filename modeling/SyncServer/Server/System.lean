import SyncServer.Library.Transition
import SyncServer.Server.Roles

/-! # A server: its shared memory and its threads -/

namespace SyncServer

open CText

structure Server where
  shared : Shared
  threads : ℕ → Thread

/-- A second passes, or a thread executes its next statement. `fresh` is the thread that
`pthread_create` makes where the statement creates one. -/
inductive Action where
  | tick
  | run (tid : ℕ) (input : Input) (fresh : ℕ)
  deriving DecidableEq, Repr

/-- The thread has returned from its start routine. -/
def Thread.isExited : Thread → Bool
  | runElection _ .exited => true
  | heartbeatMonitor _ .exited => true
  | electionListener _ _ .exited => true
  | runAsBackup _ .exited => true
  | connectToServer _ _ _ .exited => true
  | manageReplicas _ .exited => true
  | _ => false

/-- One statement of a thread. -/
def Thread.step (sh : Shared) (isExited : ℕ → Bool) (input : Input) (fresh : ℕ) :
    Thread → Option (Effect Thread)
  | unused => none
  | runElection id place =>
      (place.step id sh input).map (·.map (runElection id))
  | heartbeatMonitor id place =>
      (place.step id sh isExited fresh).map (·.map (heartbeatMonitor id))
  | electionListener socket id place =>
      (place.step socket id sh input fresh).map (·.map (electionListener socket id))
  | runAsBackup args place =>
      (place.step args sh input).map (·.map (runAsBackup args))
  | connectToServer args id port place =>
      (place.step args id port sh input).map (·.map (connectToServer args id port))
  | manageReplicas args place =>
      (place.step args sh input).map (·.map (manageReplicas args))
  | replicaListener args place =>
      (place.step args sh input).map (·.map (replicaListener args))

/-- What the thread `tid` would do next. -/
def Server.effect (s : Server) (tid : ℕ) (input : Input) (fresh : ℕ) : Option (Effect Thread) :=
  (s.threads tid).step s.shared (fun t => (s.threads t).isExited) input fresh

/-- The threads after a step: the acting one goes on, a created one starts. -/
def Server.place (s : Server) (tid fresh : ℕ) (e : Effect Thread) : ℕ → Thread :=
  match e.created with
  | none => Function.update s.threads tid e.next
  | some thread => Function.update (Function.update s.threads tid e.next) fresh thread

def Server.step (s : Server) : Action → Option Server
  | .tick => some { s with shared := { s.shared with time := s.shared.time + 1 } }
  | .run tid input fresh =>
      (s.effect tid input fresh).bind fun e =>
        if e.created ≠ none ∧ s.threads fresh ≠ .unused then none
        else some ⟨e.shared, s.place tid fresh e⟩

/-- The state after a list of actions. -/
abbrev Server.run (s : Server) (actions : List Action) : Option Server :=
  Transition.run Server.step s actions

/-! ## The step of each kind of thread -/

section Kinds

variable {sh : Shared} {isExited : ℕ → Bool} {input : Input} {fresh : ℕ} {e : Effect Thread}

theorem Thread.step_runElection {id : ℤ} {place : RunElection} :
    (runElection id place).step sh isExited input fresh = some e ↔
      ∃ e₀, place.step id sh input = some e₀ ∧ e₀.map (runElection id) = e :=
  Option.map_eq_some_iff

theorem Thread.step_heartbeatMonitor {id : ℤ} {place : HeartbeatMonitor} :
    (heartbeatMonitor id place).step sh isExited input fresh = some e ↔
      ∃ e₀, place.step id sh isExited fresh = some e₀ ∧ e₀.map (heartbeatMonitor id) = e :=
  Option.map_eq_some_iff

theorem Thread.step_electionListener {socket : ℕ} {id : ℤ} {place : ElectionListener} :
    (electionListener socket id place).step sh isExited input fresh = some e ↔
      ∃ e₀, place.step socket id sh input fresh = some e₀ ∧
        e₀.map (electionListener socket id) = e :=
  Option.map_eq_some_iff

theorem Thread.step_runAsBackup {args : ℕ} {place : RunAsBackup} :
    (runAsBackup args place).step sh isExited input fresh = some e ↔
      ∃ e₀, place.step args sh input = some e₀ ∧ e₀.map (runAsBackup args) = e :=
  Option.map_eq_some_iff

theorem Thread.step_connectToServer {args : ℕ} {id port : ℤ} {place : ConnectToServer} :
    (connectToServer args id port place).step sh isExited input fresh = some e ↔
      ∃ e₀, place.step args id port sh input = some e₀ ∧
        e₀.map (connectToServer args id port) = e :=
  Option.map_eq_some_iff

theorem Thread.step_manageReplicas {args : ManagerArgs} {place : ManageReplicas} :
    (manageReplicas args place).step sh isExited input fresh = some e ↔
      ∃ e₀, place.step args sh input = some e₀ ∧ e₀.map (manageReplicas args) = e :=
  Option.map_eq_some_iff

theorem Thread.step_replicaListener {args : ManagerArgs} {place : ReplicaListener} :
    (replicaListener args place).step sh isExited input fresh = some e ↔
      ∃ e₀, place.step args sh input = some e₀ ∧ e₀.map (replicaListener args) = e :=
  Option.map_eq_some_iff

/-! A step keeps the kind and the arguments of its thread. -/

variable {thread : Thread}

theorem Thread.next_runElection {id : ℤ} {place : RunElection}
    (h : thread.step sh isExited input fresh = some e) (hn : e.next = runElection id place) :
    ∃ place₀ e₀, thread = runElection id place₀ ∧ place₀.step id sh input = some e₀ ∧
      e = e₀.map (runElection id) ∧ e₀.next = place := by
  cases thread <;> simp only [step, Option.map_eq_some_iff, reduceCtorEq] at h <;>
    obtain ⟨e₀, h₀, rfl⟩ := h
  case runElection =>
    obtain ⟨rfl, rfl⟩ := by simpa [Effect.map] using hn
    exact ⟨_, e₀, rfl, h₀, rfl, rfl⟩
  all_goals cases hn

theorem Thread.next_heartbeatMonitor {id : ℤ} {place : HeartbeatMonitor}
    (h : thread.step sh isExited input fresh = some e) (hn : e.next = heartbeatMonitor id place) :
    ∃ place₀ e₀, thread = heartbeatMonitor id place₀ ∧ place₀.step id sh isExited fresh = some e₀ ∧
      e = e₀.map (heartbeatMonitor id) ∧ e₀.next = place := by
  cases thread <;> simp only [step, Option.map_eq_some_iff, reduceCtorEq] at h <;>
    obtain ⟨e₀, h₀, rfl⟩ := h
  case heartbeatMonitor =>
    obtain ⟨rfl, rfl⟩ := by simpa [Effect.map] using hn
    exact ⟨_, e₀, rfl, h₀, rfl, rfl⟩
  all_goals cases hn

theorem Thread.next_electionListener {socket : ℕ} {id : ℤ} {place : ElectionListener}
    (h : thread.step sh isExited input fresh = some e)
    (hn : e.next = electionListener socket id place) :
    ∃ place₀ e₀, thread = electionListener socket id place₀ ∧
      place₀.step socket id sh input fresh = some e₀ ∧
      e = e₀.map (electionListener socket id) ∧ e₀.next = place := by
  cases thread <;> simp only [step, Option.map_eq_some_iff, reduceCtorEq] at h <;>
    obtain ⟨e₀, h₀, rfl⟩ := h
  case electionListener =>
    obtain ⟨rfl, rfl, rfl⟩ := by simpa [Effect.map] using hn
    exact ⟨_, e₀, rfl, h₀, rfl, rfl⟩
  all_goals cases hn

theorem Thread.next_runAsBackup {args : ℕ} {place : RunAsBackup}
    (h : thread.step sh isExited input fresh = some e) (hn : e.next = runAsBackup args place) :
    ∃ place₀ e₀, thread = runAsBackup args place₀ ∧ place₀.step args sh input = some e₀ ∧
      e = e₀.map (runAsBackup args) ∧ e₀.next = place := by
  cases thread <;> simp only [step, Option.map_eq_some_iff, reduceCtorEq] at h <;>
    obtain ⟨e₀, h₀, rfl⟩ := h
  case runAsBackup =>
    obtain ⟨rfl, rfl⟩ := by simpa [Effect.map] using hn
    exact ⟨_, e₀, rfl, h₀, rfl, rfl⟩
  all_goals cases hn

theorem Thread.next_connectToServer {args : ℕ} {id port : ℤ} {place : ConnectToServer}
    (h : thread.step sh isExited input fresh = some e)
    (hn : e.next = connectToServer args id port place) :
    ∃ place₀ e₀, thread = connectToServer args id port place₀ ∧
      place₀.step args id port sh input = some e₀ ∧
      e = e₀.map (connectToServer args id port) ∧ e₀.next = place := by
  cases thread <;> simp only [step, Option.map_eq_some_iff, reduceCtorEq] at h <;>
    obtain ⟨e₀, h₀, rfl⟩ := h
  case connectToServer =>
    obtain ⟨rfl, rfl, rfl, rfl⟩ := by simpa [Effect.map] using hn
    exact ⟨_, e₀, rfl, h₀, rfl, rfl⟩
  all_goals cases hn

theorem Thread.next_manageReplicas {args : ManagerArgs} {place : ManageReplicas}
    (h : thread.step sh isExited input fresh = some e) (hn : e.next = manageReplicas args place) :
    ∃ place₀ e₀, thread = manageReplicas args place₀ ∧ place₀.step args sh input = some e₀ ∧
      e = e₀.map (manageReplicas args) ∧ e₀.next = place := by
  cases thread <;> simp only [step, Option.map_eq_some_iff, reduceCtorEq] at h <;>
    obtain ⟨e₀, h₀, rfl⟩ := h
  case manageReplicas =>
    obtain ⟨rfl, rfl⟩ := by simpa [Effect.map] using hn
    exact ⟨_, e₀, rfl, h₀, rfl, rfl⟩
  all_goals cases hn

theorem Thread.next_replicaListener {args : ManagerArgs} {place : ReplicaListener}
    (h : thread.step sh isExited input fresh = some e) (hn : e.next = replicaListener args place) :
    ∃ place₀ e₀, thread = replicaListener args place₀ ∧ place₀.step args sh input = some e₀ ∧
      e = e₀.map (replicaListener args) ∧ e₀.next = place := by
  cases thread <;> simp only [step, Option.map_eq_some_iff, reduceCtorEq] at h <;>
    obtain ⟨e₀, h₀, rfl⟩ := h
  case replicaListener =>
    obtain ⟨rfl, rfl⟩ := by simpa [Effect.map] using hn
    exact ⟨_, e₀, rfl, h₀, rfl, rfl⟩
  all_goals cases hn

/-- The steps of `run_as_backup` need its block of arguments. -/
theorem RunAsBackup.block_of_step {args : ℕ} {place : RunAsBackup} {e : Effect RunAsBackup}
    (h : place.step args sh input = some e) : ∃ block, sh.backupArgs args = some block := by
  obtain ⟨block, hb, -⟩ := Option.bind_eq_some_iff.mp h
  exact ⟨block, hb⟩

end Kinds

/-! ## What a step does -/

/-- A step of a thread is one of its effects, put in place. -/
theorem Server.step_run {s s' : Server} {tid fresh : ℕ} {input : Input}
    (h : s.step (.run tid input fresh) = some s') :
    ∃ e, s.effect tid input fresh = some e ∧ (e.created = none ∨ s.threads fresh = .unused) ∧
      s' = ⟨e.shared, s.place tid fresh e⟩ := by
  obtain ⟨e, he, h⟩ := Option.bind_eq_some_iff.mp h
  split at h
  · cases h
  · rename_i hc
    refine ⟨e, he, ?_, (Option.some.inj h).symm⟩
    by_contra hn
    exact hc ⟨fun h => hn (.inl h), fun h => hn (.inr h)⟩

theorem Server.step_tick {s s' : Server} (h : s.step .tick = some s') :
    s' = { s with shared := { s.shared with time := s.shared.time + 1 } } :=
  (Option.some.inj h).symm

/-- An unused thread takes no step. -/
theorem Server.ne_unused_of_effect {s : Server} {tid fresh : ℕ} {input : Input}
    {e : Effect Thread} (h : s.effect tid input fresh = some e) :
    s.threads tid ≠ .unused := by
  intro hu
  simp [Server.effect, hu, Thread.step] at h

/-- Where a thread of the new state comes from. -/
theorem Server.place_cases {s : Server} {tid fresh : ℕ} {input : Input} {e : Effect Thread}
    (he : s.effect tid input fresh = some e)
    (hf : e.created = none ∨ s.threads fresh = .unused) (t : ℕ) :
    (t = tid ∧ s.place tid fresh e t = e.next) ∨
    (t ≠ tid ∧ t = fresh ∧ s.threads t = .unused ∧ e.created = some (s.place tid fresh e t)) ∨
    (t ≠ tid ∧ s.place tid fresh e t = s.threads t) := by
  have hu := Server.ne_unused_of_effect he
  by_cases ht : t = tid
  · subst ht
    refine .inl ⟨rfl, ?_⟩
    cases hc : e.created with
    | none => simp [Server.place, hc]
    | some thread =>
        have hne : t ≠ fresh := by
          rintro rfl
          exact hu (hf.resolve_left (by simp [hc]))
        simp [Server.place, hc, hne]
  · cases hc : e.created with
    | none => exact .inr (.inr ⟨ht, by simp [Server.place, hc, ht]⟩)
    | some thread =>
        by_cases htf : t = fresh
        · subst htf
          exact .inr (.inl ⟨ht, rfl, hf.resolve_left (by simp [hc]), by simp [Server.place, hc]⟩)
        · exact .inr (.inr ⟨ht, by simp [Server.place, hc, ht, htf]⟩)

/-- The acting thread goes on. -/
theorem Server.place_self {s : Server} {tid fresh : ℕ} {input : Input} {e : Effect Thread}
    (he : s.effect tid input fresh = some e)
    (hf : e.created = none ∨ s.threads fresh = .unused) : s.place tid fresh e tid = e.next := by
  rcases place_cases he hf tid with ⟨-, h⟩ | ⟨h, -⟩ | ⟨h, -⟩
  · exact h
  · exact absurd rfl h
  · exact absurd rfl h

/-- The others stay where they are. -/
theorem Server.place_of_ne {s : Server} {tid fresh t : ℕ} {input : Input} {e : Effect Thread}
    (he : s.effect tid input fresh = some e)
    (hf : e.created = none ∨ s.threads fresh = .unused) (hne : t ≠ tid)
    (ht : s.threads t ≠ .unused) : s.place tid fresh e t = s.threads t := by
  rcases place_cases he hf t with ⟨h, -⟩ | ⟨-, -, h, -⟩ | ⟨-, h⟩
  · exact absurd h hne
  · exact absurd h ht
  · exact h

/-- A created thread is there. -/
theorem Server.place_created {s : Server} {tid fresh : ℕ} {e : Effect Thread} {thread : Thread}
    (hc : e.created = some thread) : s.place tid fresh e fresh = thread := by
  simp [place, hc]

/-! ## The threads that are in use -/

/-- From the number `n` on no thread is in use. -/
def Server.UnusedFrom (n : ℕ) (s : Server) : Prop := ∀ t, n ≤ t → s.threads t = .unused

/-- The step creates no thread from the number `n` on. -/
def Action.createsBelow (n : ℕ) : Action → Bool
  | .tick => true
  | .run _ _ fresh => fresh < n

theorem Server.UnusedFrom.step {n : ℕ} {s s' : Server} {a : Action} (hs : s.UnusedFrom n)
    (ha : a.createsBelow n = true) (h : s.step a = some s') : s'.UnusedFrom n := by
  cases a with
  | tick =>
      obtain rfl := step_tick h
      exact hs
  | run tid input fresh =>
      have hlt : fresh < n := by simpa [Action.createsBelow] using ha
      obtain ⟨e, he, hf, rfl⟩ := step_run h
      intro t ht
      rcases place_cases he hf t with ⟨rfl, -⟩ | ⟨-, rfl, -⟩ | ⟨-, heq⟩
      · exact absurd (hs t ht) (ne_unused_of_effect he)
      · omega
      · exact heq.trans (hs t ht)

theorem Server.UnusedFrom.run {n : ℕ} {s s' : Server} {actions : List Action}
    (hs : s.UnusedFrom n) (ha : ∀ a ∈ actions, a.createsBelow n = true)
    (h : s.run actions = some s') : s'.UnusedFrom n := by
  induction actions generalizing s with
  | nil =>
      obtain rfl := Option.some.inj h
      exact hs
  | cons a as ih =>
      obtain ⟨u, hu, h⟩ := Transition.run_cons_eq_some.mp h
      exact ih (hs.step (ha a List.mem_cons_self) hu)
        (fun b hb => ha b (List.mem_cons_of_mem a hb)) h

/-! ## How a server starts -/

/-- The shared memory before any thread runs. -/
def Shared.initial (mode : ServerMode) (time : ℕ) (serverAddr : InAddr)
    (backupArgs : ℕ → Option BackupArgs) : Shared where
  globalServerMode := mode
  isElectionRunning := false
  newLeaderDecided := false
  electionAnswerReceived := false
  lastHeartbeat := 0
  time := time
  modeChangeMutex := false
  replicaList := []
  replicaCount := 0
  backupArgs := backupArgs
  listenerSocket := none
  serverAddr := serverAddr

/-- `main` with `-B`: thread 0 is `run_as_backup`. -/
def Server.startBackup (id : ℤ) (managerIp : Bytes) (managerPort : ℤ) (time : ℕ)
    (serverAddr : InAddr) : Server where
  shared := .initial .backup time serverAddr
    (Function.update (fun _ => none) 0 (some ⟨id, managerIp, managerPort, false, -1⟩))
  threads := Function.update (fun _ => .unused) 0 (.runAsBackup 0 .storeMode)

/-- `main` with `-M`: thread 0 is `manage_replicas`. -/
def Server.startManager (id port : ℤ) (time : ℕ) (serverAddr : InAddr) : Server where
  shared := .initial .backupManager time serverAddr (fun _ => none)
  threads := Function.update (fun _ => .unused) 0 (.manageReplicas ⟨id, port, false⟩ .storeMode)

theorem Server.unusedFrom_startBackup (id : ℤ) (managerIp : Bytes) (managerPort : ℤ) (time : ℕ)
    (serverAddr : InAddr) :
    (startBackup id managerIp managerPort time serverAddr).UnusedFrom 1 := by
  intro t ht
  have hne : t ≠ 0 := by omega
  simp [startBackup, hne]

theorem Server.UnusedFrom.mono {m n : ℕ} {s : Server} (hs : s.UnusedFrom m) (h : m ≤ n) :
    s.UnusedFrom n :=
  fun t ht => hs t (h.trans ht)

/-- What `main` starts: id, address and port come from the command line, and the port of a
manager from a bound socket. -/
inductive Server.StartsAs : Server → ℤ → Prop where
  | backup (id : ℤ) (managerIp : Bytes) (managerPort : ℤ) (time : ℕ) (serverAddr : InAddr)
      (hid : 0 < id ∧ IsInt id) (hport : 0 < managerPort ∧ IsInt managerPort) :
      StartsAs (startBackup id managerIp managerPort time serverAddr) id
  | manager (id : ℤ) (port : UInt16) (time : ℕ) (serverAddr : InAddr)
      (hid : 0 < id ∧ IsInt id) : StartsAs (startManager id port.toNat time serverAddr) id

def Server.Starts (s : Server) : Prop := ∃ id, s.StartsAs id

theorem Server.StartsAs.electionAnswerReceived {s : Server} {id : ℤ} (h : s.StartsAs id) :
    s.shared.electionAnswerReceived = false := by
  cases h <;> rfl

end SyncServer
