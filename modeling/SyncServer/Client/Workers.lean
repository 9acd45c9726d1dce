import SyncServer.Client.Notifications
import SyncServer.Library.SharedCounter

/-! # The worker threads of a client

The console, the watcher and the receiver of a connection count themselves in `threads_exited` when
they end, and the listener calls the next server when it finds all three of them. The counter is a
plain `int`: a thread reads it in one step and writes it in another. The runs start where the first
connection stands and every `pthread_create` has succeeded, and the later ones succeed too.
-/

namespace SyncServer

open CText Ending Transition

/-! ## The threads -/

/-- Where a worker stands: in its loop, past it, between the read and the write of `threads_exited`,
or past that. The console and the receiver still have their socket to close then. -/
inductive WorkerPlace where
  | looping
  | leaving
  | counting (exited : ℕ)
  | ended
  deriving DecidableEq, Repr

/-- The shared variables and the listener, with the places of the workers. A worker runs until it
has ended. -/
structure CountingClient where
  client : NotifiedClient
  place : Worker → WorkerPlace

inductive CountingStep where
  | test (worker : Worker)
  | exitCommand
  | leave (worker : Worker)
  | initFailed
  | load (worker : Worker)
  | store (worker : Worker)
  deriving DecidableEq, Repr

namespace CountingClient

def goto (s : CountingClient) (worker : Worker) (place : WorkerPlace) : CountingClient :=
  { s with place := Function.update s.place worker place }

/-- A worker ends and leaves a value in `threads_exited`. -/
def finish (s : CountingClient) (worker : Worker) (threadsExited : ℕ) : CountingClient where
  client := { s.client with
    running := Function.update s.client.running worker false
    threadsExited }
  place := Function.update s.place worker .ended

/-- A step of a worker. -/
def work (s : CountingClient) : CountingStep → Option CountingClient
  | .test worker =>
      if s.place worker = .looping then
        some (if s.client.signalReconnect || s.client.signalShutdown then s.goto worker .leaving
          else s)
      else none
  | .exitCommand =>
      if s.place .console = .looping then
        some { s with client := { s.client with signalShutdown := true } }
      else none
  -- a closed connection, or an error of the directory watcher
  | .leave worker =>
      if s.place worker = .looping ∧ worker ≠ .console then some (s.goto worker .leaving) else none
  -- `pthread_exit` before the loop
  | .initFailed =>
      if s.place .watcher = .looping then
        some (s.finish .watcher s.client.threadsExited)
      else none
  -- the two halves of `threads_exited++`
  | .load worker =>
      if s.place worker = .leaving then
        some (s.goto worker (.counting s.client.threadsExited))
      else none
  | .store worker =>
      match s.place worker with
      | .counting exited => some (s.finish worker (exited + 1))
      | _ => none

/-- `handle_connection` starts the three workers. -/
def started (place : Worker → WorkerPlace) : ListenerStep → Worker → WorkerPlace
  | .connect .connected => fun _ => .looping
  | _ => place

def listen (s : CountingClient) (a : ListenerStep) : Option CountingClient :=
  (s.client.listen a).returned.map fun client => ⟨client, started s.place a⟩

abbrev step : CountingClient → ListenerStep ⊕ CountingStep → Option CountingClient :=
  interleave listen work

/-- The first `handle_connection` has returned 0. -/
def connected (hostname : Bytes) (consoleSocketPort : UInt16) : CountingClient :=
  ⟨.connected hostname consoleSocketPort, fun _ => .looping⟩

/-- What became of the three workers: how many have counted themselves, how many were never there
or have ended without that, and whether a stale value was written. -/
structure Exits where
  completed : ℕ
  skipped : ℕ
  overlapped : Bool
  deriving DecidableEq, Repr

def Exits.none : Exits := ⟨0, 0, false⟩

def exitsAfter (exits : Exits) (s : CountingClient) : ListenerStep ⊕ CountingStep → Exits
  | .inl .await => if 3 ≤ s.client.threadsExited then ⟨0, 3, false⟩ else exits
  | .inl (.connect .connected) => { exits with skipped := 0 }
  | .inr .initFailed => { exits with skipped := exits.skipped + 1 }
  | .inr (.store worker) =>
      { exits with
        completed := exits.completed + 1
        overlapped := exits.overlapped || s.place worker ≠ .counting s.client.threadsExited }
  | _ => exits

abbrev stepWithExits : Exits × CountingClient → ListenerStep ⊕ CountingStep →
    Option (Exits × CountingClient) :=
  watch exitsAfter step

/-! ## The counter -/

def WorkerPlace.read : WorkerPlace → Option ℕ
  | .counting exited => some exited
  | _ => none

/-- `threads_exited` and what the workers have read of it. -/
def counter (s : CountingClient) : SharedCounter Worker :=
  ⟨s.client.threadsExited, fun worker => WorkerPlace.read (s.place worker)⟩

def workers : List Worker := [.console, .watcher, .receiver]

theorem mem_workers (worker : Worker) : worker ∈ workers := by
  cases worker <;> decide

/-- The workers that have not ended. -/
def active (s : CountingClient) : ℕ := workers.countP fun worker => s.place worker ≠ .ended

theorem active_goto {s : CountingClient} {worker : Worker} {place : WorkerPlace}
    (hold : s.place worker ≠ .ended) (hnew : place ≠ .ended) :
    active (s.goto worker place) = active s := by
  refine List.countP_congr fun other _ => ?_
  by_cases h : other = worker
  · subst h
    simp [goto, hold, hnew]
  · simp [goto, Function.update_of_ne h]

theorem active_finish {s : CountingClient} {worker : Worker} (hold : s.place worker ≠ .ended)
    (threadsExited : ℕ) : active (s.finish worker threadsExited) + 1 = active s := by
  simp only [active, workers, List.countP_cons, List.countP_nil, finish]
  cases worker with
  | console | watcher | receiver => simp +arith [hold]

theorem ended_of_active {s : CountingClient} (h : active s = 0) (worker : Worker) :
    s.place worker = .ended := by
  simpa using List.countP_eq_zero.mp h worker (mem_workers worker)

theorem active_of_ended {s : CountingClient} (h : ∀ worker, s.place worker = .ended) :
    active s = 0 :=
  List.countP_eq_zero.mpr fun worker _ => by simp [h worker]

theorem counter_goto {s : CountingClient} {worker : Worker} {place : WorkerPlace}
    (hold : WorkerPlace.read (s.place worker) = none) (hnew : WorkerPlace.read place = none) :
    counter (s.goto worker place) = counter s := by
  refine SharedCounter.ext rfl (funext fun other => ?_)
  by_cases h : other = worker
  · subst h
    simp [counter, goto, hold, hnew]
  · simp [counter, goto, Function.update_of_ne h]

/-! ## The listener -/

theorem started_of_ne {a : ListenerStep} (h : a ≠ .connect .connected)
    (place : Worker → WorkerPlace) : started place a = place := by
  unfold started
  split
  · exact absurd rfl h
  · rfl

/-- What a step of the listener does with the variables of the workers. -/
theorem listen_cases {s t : NotifiedClient} {a : ListenerStep}
    (h : (s.listen a).returned = some t) :
    (a = .await ∧ 3 ≤ s.threadsExited ∧
      t = { s with threadsExited := 0, listener := .connecting }) ∨
    (a = .connect .connected ∧ s.listener = .connecting ∧
      t = { s with signalReconnect := false, running := fun _ => true, listener := .testing }) ∨
    (a ≠ .await ∧ a ≠ .connect .connected ∧ t.threadsExited = s.threadsExited ∧
      t.running = s.running ∧ t.signalShutdown = s.signalShutdown ∧
      (s.signalReconnect = true → t.signalReconnect = true) ∧ t.listener ≠ .connecting) := by
  cases a with
  | await =>
      simp only [NotifiedClient.listen] at h
      split at h
      · split at h
        · rename_i hexited
          exact Or.inl ⟨rfl, hexited, (Option.some.inj h).symm⟩
        · cases h
      · cases h
  | connect outcome =>
      simp only [NotifiedClient.listen] at h
      split at h
      · rename_i hplace
        cases outcome with
        | connected => exact Or.inr (Or.inl ⟨rfl, hplace, (Option.some.inj h).symm⟩)
        | unresolved =>
            obtain rfl := Option.some.inj h
            refine Or.inr (Or.inr ⟨by simp, by simp, rfl, rfl, rfl, fun h => h, by simp⟩)
        | failed => cases h
      · cases h
  | test =>
      simp only [NotifiedClient.listen] at h
      split at h
      · obtain rfl := Option.some.inj h
        refine Or.inr (Or.inr ⟨by simp, by simp, rfl, rfl, rfl, fun h => h, ?_⟩)
        simp only
        split <;> simp
      · cases h
  | noData | accept | store =>
      simp only [NotifiedClient.listen] at h
      split at h
      · obtain rfl := Option.some.inj h
        exact Or.inr (Or.inr ⟨by simp, by simp, rfl, rfl, rfl, by simp, by simp⟩)
      · cases h
  | read =>
      simp only [NotifiedClient.listen] at h
      split at h
      · split at h
        · obtain rfl := Option.some.inj h
          exact Or.inr (Or.inr ⟨by simp, by simp, rfl, rfl, rfl, fun h => h, by simp⟩)
        · cases h
        · cases h
      · cases h
  | parse =>
      rw [returned_eq_some] at h
      simp only [NotifiedClient.listen] at h
      split at h
      · obtain ⟨text, -, h⟩ := bind_eq_done.mp h
        split at h
        · obtain rfl := done.inj h
          exact Or.inr (Or.inr ⟨by simp, by simp, rfl, rfl, rfl, fun h => h, by simp⟩)
        · split at h
          · obtain rfl := done.inj h
            exact Or.inr (Or.inr ⟨by simp, by simp, rfl, rfl, rfl, fun h => h, by simp⟩)
          · cases h
      · cases h

/-! ## The invariant -/

structure Accounted (p : Exits × CountingClient) : Prop where
  counts : (counter p.2).Counts p.1.completed p.1.overlapped
  total : p.1.completed + p.1.skipped + active p.2 = 3
  running : ∀ worker, p.2.client.running worker = decide (p.2.place worker ≠ .ended)
  connecting : p.2.client.listener = .connecting →
    p.1 = ⟨0, 3, false⟩ ∧ p.2.client.threadsExited = 0
  -- the console leaves its loop for one of the signals
  console : p.2.place .console ≠ .looping → p.2.place .console ≠ .ended →
    p.2.client.signalReconnect = true ∨ p.2.client.signalShutdown = true

theorem accounted_connected (hostname : Bytes) (consoleSocketPort : UInt16) :
    Accounted (.none, connected hostname consoleSocketPort) where
  counts := SharedCounter.counts_zero
  total := rfl
  running := fun _ => rfl
  connecting := fun h => by cases h
  console := fun h => absurd rfl h

variable {exits exits' : Exits} {s t : CountingClient}

theorem Accounted.ended (h : Accounted (exits, s)) (hplace : s.client.listener = .connecting)
    (worker : Worker) : s.place worker = .ended := by
  have htotal := h.total
  rw [(h.connecting hplace).1] at htotal
  exact ended_of_active (by simpa using htotal) worker

theorem Accounted.running_of_ne (h : Accounted (exits, s)) {worker : Worker}
    (hplace : s.place worker ≠ .ended) : s.client.running worker = true := by
  rw [h.running worker]
  exact decide_eq_true hplace

/-- The places of workers that stay in the account. -/
theorem Accounted.goto (h : Accounted (exits, s)) {worker : Worker} {place : WorkerPlace}
    (hold : s.place worker ≠ .ended) (hnew : place ≠ .ended)
    (hcounts : (counter (s.goto worker place)).Counts exits.completed exits.overlapped)
    (hconsole : worker = .console →
      s.client.signalReconnect = true ∨ s.client.signalShutdown = true) :
    Accounted (exits, s.goto worker place) where
  counts := hcounts
  total := (congrArg _ (active_goto hold hnew)).trans h.total
  running other := by
    by_cases hother : other = worker
    · subst hother
      simpa [CountingClient.goto, hold, hnew] using h.running other
    · simpa [CountingClient.goto, Function.update_of_ne hother] using h.running other
  connecting := h.connecting
  console hlooping hended := by
    by_cases hother : worker = .console
    · exact hconsole hother
    · have hsame : (s.goto worker place).place .console = s.place .console :=
        Function.update_of_ne (Ne.symm hother) _ _
      exact h.console (hsame ▸ hlooping) (hsame ▸ hended)

/-- A worker that ends, and is counted or not. -/
theorem Accounted.finish (h : Accounted (exits, s)) {worker : Worker} {threadsExited : ℕ}
    {exits' : Exits} (hold : s.place worker ≠ .ended)
    (hcounts : (counter (s.finish worker threadsExited)).Counts exits'.completed exits'.overlapped)
    (htotal : exits'.completed + exits'.skipped = exits.completed + exits.skipped + 1) :
    Accounted (exits', s.finish worker threadsExited) where
  counts := hcounts
  total := by
    have hactive := active_finish hold threadsExited
    have hbefore := h.total
    simp only at hbefore ⊢
    omega
  running other := by
    by_cases hother : other = worker
    · subst hother
      simp [CountingClient.finish]
    · simpa [CountingClient.finish, Function.update_of_ne hother] using h.running other
  connecting hplace := absurd (h.ended hplace worker) hold
  console hlooping hended := by
    by_cases hother : worker = .console
    · subst hother
      simp [CountingClient.finish] at hended
    · have hsame : (s.finish worker threadsExited).place .console = s.place .console :=
        Function.update_of_ne (Ne.symm hother) _ _
      exact h.console (hsame ▸ hlooping) (hsame ▸ hended)

theorem Accounted.listen (h : Accounted (exits, s)) {a : ListenerStep}
    (hstep : s.listen a = some t) : Accounted (exitsAfter exits s (.inl a), t) := by
  obtain ⟨client, hlisten, rfl⟩ := Option.map_eq_some_iff.mp hstep
  rcases listen_cases hlisten with ⟨rfl, hexited, rfl⟩ | ⟨rfl, hplace, rfl⟩ |
    ⟨hawait, hconnect, hexited, hrunning, hshutdown, hreconnect, hplace⟩
  · -- all three have counted themselves
    have hle := h.counts.value_le
    have htotal := h.total
    have hvalue : (counter s).value = s.client.threadsExited := rfl
    have hactive : active s = 0 := by
      simp only at hle htotal
      omega
    have hended := ended_of_active hactive
    simp only [exitsAfter, if_pos hexited]
    refine ⟨?_, congrArg (0 + 3 + ·) hactive, h.running, fun _ => ⟨rfl, rfl⟩,
      fun _ hne => absurd (hended .console) hne⟩
    have hzero : counter { client := { s.client with threadsExited := 0, listener := .connecting }
                           place := s.place } = ⟨0, fun _ => none⟩ :=
      SharedCounter.ext rfl (funext fun worker => by simp [counter, hended, WorkerPlace.read])
    exact hzero ▸ SharedCounter.counts_zero
  · -- the three are started
    obtain ⟨hexits, hexited⟩ := h.connecting hplace
    have hzero : exits = ⟨0, 3, false⟩ := hexits
    subst hzero
    refine ⟨?_, rfl, fun _ => rfl, (fun h => by cases h), fun h => absurd rfl h⟩
    have hcounter : counter { client := { s.client with
        signalReconnect := false, running := fun _ => true, listener := .testing }
                              place := fun _ => .looping } = ⟨0, fun _ => none⟩ :=
      SharedCounter.ext hexited rfl
    exact hcounter ▸ SharedCounter.counts_zero
  · have hexits : exitsAfter exits s (.inl a) = exits := by
      unfold exitsAfter
      split
      · rename_i heq
        exact absurd (Sum.inl.inj heq) hawait
      · rename_i heq
        exact absurd (Sum.inl.inj heq) hconnect
      · rename_i heq
        cases heq
      · rename_i heq
        cases heq
      · rfl
    rw [hexits, started_of_ne hconnect]
    have hcounter : counter ⟨client, s.place⟩ = counter s := SharedCounter.ext hexited rfl
    refine ⟨hcounter ▸ h.counts, h.total, fun worker => ?_, fun heq => absurd heq hplace,
      fun hlooping hended => ?_⟩
    · rw [hrunning]
      exact h.running worker
    · exact (h.console hlooping hended).imp hreconnect (hshutdown ▸ id)

/-- The first half of the count. -/
theorem counter_load {worker : Worker} (h : WorkerPlace.read (s.place worker) = none) :
    counter (s.goto worker (.counting s.client.threadsExited)) = (counter s).load worker := by
  refine SharedCounter.ext rfl (funext fun other => ?_)
  by_cases hother : other = worker
  · subst hother
    simp [counter, goto, SharedCounter.load, WorkerPlace.read]
  · simp [counter, goto, SharedCounter.load, Function.update_of_ne hother]

/-- The second half. -/
theorem counter_finish {worker : Worker} (exited : ℕ) :
    counter (s.finish worker (exited + 1)) = (counter s).store worker exited := by
  refine SharedCounter.ext rfl (funext fun other => ?_)
  by_cases hother : other = worker
  · subst hother
    simp [counter, finish, SharedCounter.store, WorkerPlace.read]
  · simp [counter, finish, SharedCounter.store, Function.update_of_ne hother]

theorem Accounted.work (h : Accounted (exits, s)) {b : CountingStep}
    (hstep : s.work b = some t) : Accounted (exitsAfter exits s (.inr b), t) := by
  cases b with
  | test worker =>
      obtain ⟨hplace, hstep⟩ := Option.ite_none_right_eq_some.mp hstep
      obtain rfl := Option.some.inj hstep
      by_cases hsignal : (s.client.signalReconnect || s.client.signalShutdown) = true
      · rw [if_pos hsignal]
        have hread : WorkerPlace.read (s.place worker) = none := by rw [hplace]; rfl
        have hcounter : counter (s.goto worker .leaving) = counter s := counter_goto hread rfl
        exact h.goto (by simp [hplace]) (by simp) (hcounter ▸ h.counts)
          fun _ => (Bool.or_eq_true _ _).mp hsignal
      · rw [if_neg hsignal]
        exact h
  | exitCommand =>
      obtain ⟨-, hstep⟩ := Option.ite_none_right_eq_some.mp hstep
      obtain rfl := Option.some.inj hstep
      exact ⟨h.counts, h.total, h.running, h.connecting, fun _ _ => Or.inr rfl⟩
  | leave worker =>
      obtain ⟨⟨hplace, hne⟩, hstep⟩ := Option.ite_none_right_eq_some.mp hstep
      obtain rfl := Option.some.inj hstep
      have hread : WorkerPlace.read (s.place worker) = none := by rw [hplace]; rfl
      have hcounter : counter (s.goto worker .leaving) = counter s := counter_goto hread rfl
      exact h.goto (by simp [hplace]) (by simp) (hcounter ▸ h.counts) fun heq => absurd heq hne
  | initFailed =>
      obtain ⟨hplace, hstep⟩ := Option.ite_none_right_eq_some.mp hstep
      obtain rfl := Option.some.inj hstep
      have hread : WorkerPlace.read (s.place .watcher) = none := by rw [hplace]; rfl
      have hcounter : counter (s.finish .watcher s.client.threadsExited) = counter s :=
        @counter_goto s .watcher .ended hread rfl
      exact h.finish (by simp [hplace]) (hcounter ▸ h.counts) (by simp only [exitsAfter]; omega)
  | load worker =>
      obtain ⟨hplace, hstep⟩ := Option.ite_none_right_eq_some.mp hstep
      obtain rfl := Option.some.inj hstep
      have hread : WorkerPlace.read (s.place worker) = none := by rw [hplace]; rfl
      refine h.goto (by simp [hplace]) (by simp) (counter_load hread ▸ h.counts.load worker) ?_
      rintro rfl
      exact h.console (by simp [hplace]) (by simp [hplace])
  | store worker =>
      simp only [CountingClient.work] at hstep
      split at hstep
      · rename_i exited hplace
        obtain rfl := Option.some.inj hstep
        have hread : (counter s).read worker = some exited := by simp [counter, hplace,
          WorkerPlace.read]
        have hstale : decide (s.place worker ≠ .counting s.client.threadsExited) =
            (counter s).isStale exited := by
          by_cases heq : exited = s.client.threadsExited
          · simp [SharedCounter.isStale, counter, hplace, heq]
          · simp [SharedCounter.isStale, counter, hplace, heq]
        refine h.finish (by simp [hplace]) ?_ (by simp only [exitsAfter]; omega)
        rw [counter_finish, exitsAfter, hstale]
        exact h.counts.store hread
      · cases hstep

theorem Accounted.step (h : Accounted (exits, s)) {a : ListenerStep ⊕ CountingStep}
    (hstep : CountingClient.step s a = some t) : Accounted (exitsAfter exits s a, t) := by
  cases a with
  | inl a => exact h.listen hstep
  | inr b => exact h.work hstep

theorem accounted_of_run {hostname : Bytes} {consoleSocketPort : UInt16}
    {as : List (ListenerStep ⊕ CountingStep)}
    (hrun : run stepWithExits (.none, connected hostname consoleSocketPort) as =
      some (exits, s)) : Accounted (exits, s) := by
  refine run_invariant (fun p a q h hstep => ?_) (accounted_connected _ _) hrun
  obtain ⟨exits, s⟩ := p
  obtain ⟨exits', t⟩ := q
  obtain ⟨hmove, rfl⟩ := watch_eq_some.mp hstep
  exact h.step hmove

/-! ## The next connection -/

/-- The listener calls the next server only when no worker of the last connection is left, in its
loop or before its count. Once it waits for the workers and all three are gone, it goes on if and
only if each of them was started, got past its initialization and wrote a value that was not stale;
otherwise no thread of the client takes a step again. -/
theorem next_connection_iff {hostname : Bytes} {consoleSocketPort : UInt16}
    {as : List (ListenerStep ⊕ CountingStep)}
    (hrun : run stepWithExits (.none, connected hostname consoleSocketPort) as =
      some (exits, s)) :
    (s.client.listener = .connecting → ∀ worker, s.place worker = .ended) ∧
    (s.client.listener = .awaiting → (∀ worker, s.place worker = .ended) →
      ((∃ a t, step s a = some t) ↔ exits.skipped = 0 ∧ exits.overlapped = false)) := by
  have h := accounted_of_run hrun
  refine ⟨h.ended, fun hplace hended => ?_⟩
  have htotal := h.total
  rw [active_of_ended hended] at htotal
  simp only at htotal
  have hle : s.client.threadsExited ≤ exits.completed := h.counts.value_le
  have hexact : s.client.threadsExited = exits.completed ↔ exits.overlapped = false :=
    h.counts.exact_iff
  have hgoes : (∃ a t, step s a = some t) ↔ 3 ≤ s.client.threadsExited := by
    constructor
    · rintro ⟨a, t, hstep⟩
      cases a with
      | inl a =>
          obtain ⟨client, hlisten, -⟩ := Option.map_eq_some_iff.mp hstep
          cases a with
          | await =>
              simp only [NotifiedClient.listen, hplace] at hlisten
              split at hlisten
              · assumption
              · cases hlisten
          | _ => simp [NotifiedClient.listen, hplace, returned] at hlisten
      | inr b =>
          cases b with
          | _ => simp [step, interleave, CountingClient.work, hended] at hstep
    · intro hexited
      have hlisten : s.client.listen .await =
          done { s.client with threadsExited := 0, listener := .connecting } := by
        simp only [NotifiedClient.listen, hplace, if_pos hexited]
      exact ⟨.inl .await, ⟨_, started s.place .await⟩,
        Option.map_eq_some_iff.mpr ⟨_, returned_eq_some.mpr hlisten, rfl⟩⟩
  rw [hgoes, ← hexact]
  omega

/-! ### Three workers that end -/

section

/-- A client that waits for workers that have all ended. -/
def waitsForNone (s : CountingClient) : Bool :=
  (match s.client.listener with
    | .awaiting => true
    | _ => false) && active s = 0

theorem waitsForNone_iff :
    s.waitsForNone = true ↔ s.client.listener = .awaiting ∧ active s = 0 := by
  unfold waitsForNone
  split
  · rename_i hplace
    simp [hplace]
  · rename_i hplace
    exact ⟨(fun h => by cases h), fun h => absurd h.1 hplace⟩

def newServer : SockAddrIn := ⟨⟨127, 0, 0, 1⟩, 4100⟩

def notice : List (ListenerStep ⊕ CountingStep) :=
  (iteration ⟨(notificationPacket newServer).image, .closed, fun _ => 8⟩).map .inl

/-- The workers leave their loops and are counted one after the other. -/
def leaveInTurn : List (ListenerStep ⊕ CountingStep) :=
  notice ++ workers.flatMap fun worker =>
    [.inr (.test worker), .inr (.load worker), .inr (.store worker)]

/-- All of them read the counter before one of them writes it. -/
def leaveTogether : List (ListenerStep ⊕ CountingStep) :=
  notice ++ workers.map (fun worker => .inr (.test worker)) ++
    workers.map (fun worker => .inr (.load worker)) ++
    workers.map fun worker => .inr (.store worker)

end

/-- Three workers that are counted in turn let the listener go on, and three that read the counter
together do not. -/
theorem next_connection_iff_of_threeExits :
    (∃ exits s, run stepWithExits (.none, connected localhost 4000) leaveInTurn =
        some (exits, s) ∧ s.client.listener = .awaiting ∧ ∃ a t, step s a = some t) ∧
    ∃ exits s, run stepWithExits (.none, connected localhost 4000) leaveTogether =
        some (exits, s) ∧ s.client.listener = .awaiting ∧ ¬∃ a t, step s a = some t := by
  constructor
  · have h : (run stepWithExits (.none, connected localhost 4000) leaveInTurn).any
        (fun p => p.1 = ⟨3, 0, false⟩ ∧ p.2.waitsForNone) = true := by decide +kernel
    obtain ⟨⟨exits, s⟩, hrun, h⟩ := (Option.any_eq_true _ _).mp h
    obtain ⟨rfl, hwaits⟩ := of_decide_eq_true h
    obtain ⟨hplace, hactive⟩ := waitsForNone_iff.mp hwaits
    exact ⟨_, s, hrun, hplace,
      ((next_connection_iff hrun).2 hplace (ended_of_active hactive)).mpr ⟨rfl, rfl⟩⟩
  · have h : (run stepWithExits (.none, connected localhost 4000) leaveTogether).any
        (fun p => p.1 = ⟨3, 0, true⟩ ∧ p.2.waitsForNone) = true := by decide +kernel
    obtain ⟨⟨exits, s⟩, hrun, h⟩ := (Option.any_eq_true _ _).mp h
    obtain ⟨rfl, hwaits⟩ := of_decide_eq_true h
    obtain ⟨hplace, hactive⟩ := waitsForNone_iff.mp hwaits
    refine ⟨_, s, hrun, hplace, fun hgoes => ?_⟩
    cases (((next_connection_iff hrun).2 hplace (ended_of_active hactive)).mp hgoes).2

/-! ## The client with an exact counter -/

/-- No stale value is written. -/
def Fresh (s : CountingClient) : ListenerStep ⊕ CountingStep → Prop
  | .inr (.store worker) => ∀ exited, s.place worker = .counting exited →
      exited = s.client.threadsExited
  | _ => True

instance (s : CountingClient) (a : ListenerStep ⊕ CountingStep) : Decidable (s.Fresh a) :=
  match a with
  | .inl _ => .isTrue trivial
  | .inr (.store worker) =>
      decidable_of_iff (s.place worker = .counting s.client.threadsExited ∨
        WorkerPlace.read (s.place worker) = none) (by
          cases hplace : s.place worker <;> simp [Fresh, hplace, WorkerPlace.read])
  | .inr (.test _) | .inr .exitCommand | .inr (.leave _) | .inr .initFailed | .inr (.load _) =>
      .isTrue trivial

/-- A worker that leaves its loop for a signal or without one. -/
def ending : Worker → WorkerStep
  | .console => .test .console
  | worker => .leave worker

/-- What a step is in the model where a worker ends and is counted in one step. -/
def coarse : ListenerStep ⊕ CountingStep → List (ListenerStep ⊕ WorkerStep)
  | .inl a => [.inl a]
  | .inr .exitCommand => [.inr .exitCommand]
  | .inr .initFailed => [.inr .initFailed]
  | .inr (.store worker) => [.inr (ending worker)]
  | .inr (.test _) | .inr (.leave _) | .inr (.load _) => []

theorem Accounted.coarse (h : Accounted (exits, s)) {a : ListenerStep ⊕ CountingStep}
    (hfresh : s.Fresh a) (hstep : CountingClient.step s a = some t) :
    run NotifiedClient.step s.client (CountingClient.coarse a) = some t.client := by
  cases a with
  | inl a =>
      obtain ⟨client, hlisten, rfl⟩ := Option.map_eq_some_iff.mp hstep
      exact run_cons_eq_some.mpr ⟨client, hlisten, rfl⟩
  | inr b =>
      cases b with
      | test worker =>
          obtain ⟨-, hstep⟩ := Option.ite_none_right_eq_some.mp hstep
          obtain rfl := Option.some.inj hstep
          split <;> rfl
      | exitCommand =>
          obtain ⟨hplace, hstep⟩ := Option.ite_none_right_eq_some.mp hstep
          obtain rfl := Option.some.inj hstep
          have hrunning := h.running_of_ne (show s.place .console ≠ .ended by simp [hplace])
          exact run_cons_eq_some.mpr ⟨_, if_pos hrunning, rfl⟩
      | leave worker | load worker =>
          obtain ⟨-, hstep⟩ := Option.ite_none_right_eq_some.mp hstep
          obtain rfl := Option.some.inj hstep
          rfl
      | initFailed =>
          obtain ⟨hplace, hstep⟩ := Option.ite_none_right_eq_some.mp hstep
          obtain rfl := Option.some.inj hstep
          have hrunning := h.running_of_ne (show s.place .watcher ≠ .ended by simp [hplace])
          exact run_cons_eq_some.mpr ⟨_, if_pos hrunning, rfl⟩
      | store worker =>
          simp only [CountingClient.step, interleave, CountingClient.work] at hstep
          split at hstep
          · rename_i exited hplace
            obtain rfl := Option.some.inj hstep
            obtain rfl := hfresh exited hplace
            have hrunning := h.running_of_ne (show s.place worker ≠ .ended by simp [hplace])
            cases worker with
            | console =>
                have hsignal := h.console (by simp [hplace]) (by simp [hplace])
                refine run_cons_eq_some.mpr ⟨_, if_pos hrunning, ?_⟩
                rw [if_pos ((Bool.or_eq_true _ _).mpr hsignal)]
                rfl
            | watcher | receiver =>
                exact run_cons_eq_some.mpr ⟨_, if_pos ⟨hrunning, by simp⟩, rfl⟩
          · cases hstep

theorem lefts_coarse (as : List (ListenerStep ⊕ CountingStep)) :
    lefts (as.flatMap coarse) = lefts as := by
  induction as with
  | nil => rfl
  | cons a as ih =>
      simp only [lefts, List.flatMap_cons, List.filterMap_append] at ih ⊢
      rw [ih]
      cases a with
      | inl a => rfl
      | inr b => cases b <;> rfl

theorem Accounted.run_coarse (h : Accounted (exits, s)) {as : List (ListenerStep ⊕ CountingStep)}
    (hfresh : Along CountingClient.step Fresh s as)
    (hrun : run CountingClient.step s as = some t) :
    run NotifiedClient.step s.client (as.flatMap CountingClient.coarse) = some t.client := by
  induction as generalizing exits s with
  | nil =>
      obtain rfl := Option.some.inj hrun
      rfl
  | cons a as ih =>
      obtain ⟨u, hstep, hrun⟩ := run_cons_eq_some.mp hrun
      obtain ⟨hfirst, hrest⟩ := hfresh u hstep
      rw [List.flatMap_cons]
      exact run_append_eq_some.mpr
        ⟨u.client, h.coarse hfirst hstep, ih (h.step hstep) hrest hrun⟩

/-- While no stale value is written, the client does what it would do if each worker ended and was
counted in one step, with the same steps of the listener. -/
theorem simulates_notifiedClient {hostname : Bytes} {consoleSocketPort : UInt16}
    {as : List (ListenerStep ⊕ CountingStep)}
    (hfresh : Along step Fresh (connected hostname consoleSocketPort) as)
    (hrun : run step (connected hostname consoleSocketPort) as = some s) :
    run NotifiedClient.step (.connected hostname consoleSocketPort) (as.flatMap coarse) =
        some s.client ∧
      lefts (as.flatMap coarse) = lefts as :=
  ⟨(accounted_connected hostname consoleSocketPort).run_coarse hfresh hrun, lefts_coarse as⟩

theorem simulates_notifiedClient_of_inTurn :
    ∃ s, run step (connected localhost 4000) leaveInTurn = some s ∧
      run NotifiedClient.step (.connected localhost 4000) (leaveInTurn.flatMap coarse) =
        some s.client := by
  have h : (run step (connected localhost 4000) leaveInTurn).isSome = true := by decide +kernel
  obtain ⟨s, hrun⟩ := Option.isSome_iff_exists.mp h
  exact ⟨s, hrun, (simulates_notifiedClient (by decide +kernel) hrun).1⟩

end CountingClient

end SyncServer
