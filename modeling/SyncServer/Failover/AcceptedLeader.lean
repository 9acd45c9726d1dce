import SyncServer.Server.Writers

/-! # After a COORDINATOR was handled

A backup that has handled a COORDINATOR message can still become manager through an election
that is under way or that its own monitor starts. This module says which elections these are
and that without them the backup stays with its leader.
-/

namespace SyncServer

open CText Transition

/-! ## Handling a COORDINATOR and what may follow it -/

/-- The last step of the handler of `MSG_COORDINATOR`. -/
def Server.handlesCoordinator (s : Server) : Action → Bool
  | .tick => false
  | .run tid _ _ =>
      match s.threads tid with
      | .electionListener _ _ (.createBackup _ _) => true
      | _ => false

/-- The step stores `BACKUP_MANAGER` in `global_server_mode`. -/
def Server.storesManager (s : Server) : Action → Bool
  | .tick => false
  | .run tid _ _ => (s.threads tid).storesMode = some .backupManager

/-- An election listener reads an ELECTION. -/
def Thread.receivesElection (input : Input) : Thread → Bool
  | electionListener _ _ .receive =>
      match input with
      | .packet _ payload => (deserializeElectionEvent payload).type = .election
      | _ => false
  | _ => false

/-- The monitor samples the flags when they are clear, and an election that sends finds a node
with a higher id. -/
def Thread.wellTimed (sh : Shared) (input : Input) : Thread → Bool
  | heartbeatMonitor _ .loadDecided => !sh.newLeaderDecided
  | heartbeatMonitor _ .loadRunning => !sh.isElectionRunning
  | runElection id (.sendElection head) =>
      match chainFrom sh.replicaList head with
      | some nodes => nodes.any (id < ·.id)
      | none => input = .freed true
  | _ => true

/-- No ELECTION comes in and the heartbeats of the leader are in time. -/
def Server.undisturbed (s : Server) : Action → Bool
  | .tick => !s.shared.heartbeatExpired
  | .run tid input _ => !s.shared.heartbeatExpired && !(s.threads tid).receivesElection input

def Server.wellTimed (s : Server) : Action → Bool
  | .tick => true
  | .run tid input _ => (s.threads tid).wellTimed s.shared input

/-! ## The elections that are under way -/

/-- The election has not looked at its answer. -/
def RunElection.isElecting : RunElection → Bool
  | getHead | sendElection _ | sleeping | readAnswer => true
  | _ => false

/-- The monitor is about to start an election. -/
def HeartbeatMonitor.isElecting : HeartbeatMonitor → Bool
  | lockMode | loadMode | storeRunning | createElection => true
  | _ => false

/-- The listener is about to start an election. -/
def ElectionListener.isElecting : ElectionListener → Bool
  | sendAnswer _ | loadRunning | storeRunning | createElection => true
  | _ => false

def Thread.isElecting : Thread → Bool
  | runElection _ place => place.isElecting
  | heartbeatMonitor _ place => place.isElecting
  | electionListener _ _ place => place.isElecting
  | _ => false

/-- Between the test for `BACKUP_MANAGER` and the creation of the manager. -/
def RunAsBackup.isTakingOver : RunAsBackup → Bool
  | getHead | sendCoordinator _ | loadCount | destroyList _ | awaitReplicas _ | notifyClients
  | createManager => true
  | _ => false

/-- Between the store of `BACKUP` and the test for `BACKUP_MANAGER`. -/
def RunAsBackup.isInRole : RunAsBackup → Bool
  | storeHeartbeat | bindListener | createListener | createConnection | createMonitor
  | clearDecided | loadMode | loadDecided | checkManager => true
  | _ => false

def Thread.isTakingOver : Thread → Bool
  | runAsBackup _ place => place.isTakingOver
  | _ => false

def Thread.isInRole : Thread → Bool
  | runAsBackup _ place => place.isInRole
  | _ => false

/-- What the threads may be up to when a COORDINATOR has been handled: an election whose answer
has come, but no win and no takeover. -/
structure Thread.IsSettled (sh : Shared) (thread : Thread) : Prop where
  answered : thread.isElecting = true → sh.electionAnswerReceived = true
  noWinner : thread.storesMode ≠ some .backupManager
  noTakeover : thread.isTakingOver = false
  demoted : sh.globalServerMode = .backupManager → thread.isInRole = false

instance (sh : Shared) (thread : Thread) : Decidable (thread.IsSettled sh) :=
  decidable_of_iff
    ((thread.isElecting = true → sh.electionAnswerReceived = true) ∧
      thread.storesMode ≠ some .backupManager ∧ thread.isTakingOver = false ∧
      (sh.globalServerMode = .backupManager → thread.isInRole = false))
    ⟨fun ⟨h1, h2, h3, h4⟩ => ⟨h1, h2, h3, h4⟩, fun ⟨h1, h2, h3, h4⟩ => ⟨h1, h2, h3, h4⟩⟩

/-- At most one election is under way, and every thread is settled. -/
structure Server.Settled (s : Server) : Prop where
  single : ∀ t u, (s.threads t).isElecting = true → (s.threads u).isElecting = true → t = u
  settled : ∀ t, (s.threads t).IsSettled s.shared

/-- Threads that are not in use need no check. -/
theorem Server.UnusedFrom.settled {n : ℕ} {s : Server} (hs : s.UnusedFrom n)
    (hsingle : ∀ t < n, ∀ u < n, (s.threads t).isElecting = true →
      (s.threads u).isElecting = true → t = u)
    (h : ∀ t < n, (s.threads t).IsSettled s.shared) : s.Settled := by
  have hlt : ∀ t, (s.threads t).isElecting = true → t < n := by
    intro t ht
    by_contra hn
    rw [hs t (by omega)] at ht
    cases ht
  refine ⟨fun t u ht hu => hsingle t (hlt t ht) u (hlt u hu) ht hu, fun t => ?_⟩
  by_cases htn : t < n
  · exact h t htn
  · rw [hs t (by omega)]
    exact ⟨nofun, nofun, rfl, fun _ => rfl⟩

/-! ## What a step of one thread does to them -/

section Step

variable {sh : Shared} {isExited : ℕ → Bool} {input : Input} {fresh : ℕ} {thread : Thread}
  {e : Effect Thread}

/-- A created thread takes an election over from its creator, which is done with it. -/
theorem Thread.isElecting_created {created : Thread}
    (h : thread.step sh isExited input fresh = some e) (hc : e.created = some created)
    (he : created.isElecting = true) :
    thread.isElecting = true ∧ thread.storesAnswer ≠ some false ∧ e.next.isElecting = false := by
  cases created_cases h hc with
  | monitorElection id =>
      obtain ⟨e₀, h₀, rfl⟩ := step_heartbeatMonitor.mp h
      obtain rfl := Option.some.inj h₀
      exact ⟨rfl, Option.some_ne_none false |>.symm, rfl⟩
  | listenerElection socket id =>
      obtain ⟨e₀, h₀, rfl⟩ := step_electionListener.mp h
      obtain rfl := Option.some.inj h₀
      exact ⟨rfl, Option.some_ne_none false |>.symm, rfl⟩
  | _ => cases he

theorem sendElectionMsg_ne_nil {id : ℤ} {nodes : List ReplicaNode}
    (h : nodes.any (id < ·.id) = true) : sendElectionMsg id nodes ≠ [] := by
  obtain ⟨node, hn, hid⟩ := List.any_eq_true.mp h
  simpa [sendElectionMsg, sendToAll] using ⟨node, hn, of_decide_eq_true hid⟩

/-- Undisturbed and well timed, a thread does not come to an election by itself. -/
theorem Thread.isElecting_next (h : thread.step sh isExited input fresh = some e)
    (hexp : sh.heartbeatExpired = false) (hrec : thread.receivesElection input = false)
    (htime : thread.wellTimed sh input = true) (he : e.next.isElecting = true) :
    thread.isElecting = true ∧ thread.storesAnswer ≠ some false := by
  cases hn : e.next with
  | runElection id place =>
      obtain ⟨place₀, e₀, rfl, h₀, -, rfl⟩ := next_runElection h hn
      rw [hn] at he
      cases place₀ <;> simp only [RunElection.step, Effect.goto] at h₀ <;>
        grind [isElecting, RunElection.isElecting, storesAnswer]
  | heartbeatMonitor id place =>
      obtain ⟨place₀, e₀, rfl, h₀, -, rfl⟩ := next_heartbeatMonitor h hn
      rw [hn] at he
      cases place₀ <;> simp only [HeartbeatMonitor.step, Effect.goto] at h₀ <;>
        grind [isElecting, HeartbeatMonitor.isElecting, storesAnswer, wellTimed]
  | electionListener socket id place =>
      obtain ⟨place₀, e₀, rfl, h₀, -, rfl⟩ := next_electionListener h hn
      rw [hn] at he
      cases place₀ <;>
        simp only [ElectionListener.step, ElectionListener.dispatch, Effect.goto] at h₀ <;>
        grind [isElecting, ElectionListener.isElecting, storesAnswer, receivesElection]
  | _ => simp [hn, isElecting] at he

theorem ManageReplicas.next_ne_storeMode {args : ManagerArgs} {place : ManageReplicas}
    {e₀ : Effect ManageReplicas} (h : place.step args sh input = some e₀) :
    e₀.next ≠ .storeMode := by
  cases place <;> simp only [step, Effect.goto, afterDecided] at h <;> grind

/-- A settled election whose sending is well timed does not come to a win. -/
theorem Thread.noWinner_next (h : thread.step sh isExited input fresh = some e)
    (hs : thread.IsSettled sh) (htime : thread.wellTimed sh input = true) :
    e.next.storesMode ≠ some .backupManager := by
  have hanswer := hs.answered
  cases hn : e.next with
  | runElection id place =>
      obtain ⟨place₀, e₀, rfl, h₀, -, rfl⟩ := next_runElection h hn
      cases place₀ <;> simp only [RunElection.step, Effect.goto] at h₀ <;>
        grind [isElecting, RunElection.isElecting, storesMode.eq_def, wellTimed,
          sendElectionMsg_ne_nil]
  | runAsBackup args place => cases place <;> simp [storesMode]
  | manageReplicas args place =>
      obtain ⟨place₀, e₀, rfl, h₀, -, rfl⟩ := next_manageReplicas h hn
      have hne := ManageReplicas.next_ne_storeMode h₀
      cases hp : e₀.next <;> simp_all [storesMode]
  | _ => simp [storesMode]

/-- A settled thread does not make the server a manager. -/
theorem Thread.IsSettled.mode (hs : thread.IsSettled sh)
    (h : thread.step sh isExited input fresh = some e)
    (hm : e.shared.globalServerMode = .backupManager) : sh.globalServerMode = .backupManager := by
  rw [step_mode h] at hm
  cases hst : thread.storesMode with
  | none => simpa [hst] using hm
  | some mode =>
      obtain rfl : mode = .backupManager := by simpa [hst] using hm
      exact absurd hst hs.noWinner

theorem Thread.noTakeover_next (h : thread.step sh isExited input fresh = some e)
    (hs : thread.IsSettled sh) : e.next.isTakingOver = false ∧
      (e.shared.globalServerMode = .backupManager → e.next.isInRole = false) := by
  cases hn : e.next with
  | runAsBackup args place =>
      obtain ⟨place₀, e₀, rfl, h₀, rfl, rfl⟩ := next_runAsBackup h hn
      have ht : place₀.isTakingOver = false := hs.noTakeover
      have hr : sh.globalServerMode = .backupManager → place₀.isInRole = false := hs.demoted
      obtain ⟨block, hb, h₁⟩ := Option.bind_eq_some_iff.mp h₀
      change e₀.next.isTakingOver = false ∧
        (e₀.shared.globalServerMode = .backupManager → e₀.next.isInRole = false)
      cases place₀ <;> simp only [Effect.goto] at h₁ <;>
        grind [RunAsBackup.isTakingOver, RunAsBackup.isInRole]
  | _ => exact ⟨rfl, fun _ => rfl⟩

/-- A settled thread creates neither a manager nor a role loop that has begun. -/
theorem Thread.settled_created {created : Thread}
    (h : thread.step sh isExited input fresh = some e) (hs : thread.IsSettled sh)
    (hc : e.created = some created) :
    created.storesMode ≠ some .backupManager ∧ created.isTakingOver = false ∧
      created.isInRole = false := by
  have ht := hs.noTakeover
  cases created_cases h hc with
  | manager hb => cases ht
  | _ => exact ⟨by simp [storesMode], rfl, rfl⟩

end Step

/-! ## Whole runs -/

section Run

variable {s s' : Server} {tid fresh : ℕ} {input : Input} {e : Effect Thread}

/-- If no step of a thread leads to an election of its own, no second one comes up. -/
theorem Server.single_place
    (hs : ∀ t u, (s.threads t).isElecting = true → (s.threads u).isElecting = true → t = u)
    (he : s.effect tid input fresh = some e) (hf : e.created = none ∨ s.threads fresh = .unused)
    (hnext : e.next.isElecting = true → (s.threads tid).isElecting = true) (t u : ℕ)
    (ht : (s.place tid fresh e t).isElecting = true)
    (hu : (s.place tid fresh e u).isElecting = true) : t = u := by
  -- every election of the new state stems from one of the old state
  have hold : ∀ v, (s.place tid fresh e v).isElecting = true →
      v = tid ∧ (s.threads tid).isElecting = true ∧ e.next.isElecting = true ∨
      v = fresh ∧ (s.threads tid).isElecting = true ∧ e.next.isElecting = false ∨
      v ≠ tid ∧ (s.threads v).isElecting = true := by
    intro v hv
    rcases place_cases he hf v with ⟨rfl, heq⟩ | ⟨-, rfl, -, hc⟩ | ⟨hne, heq⟩
    · rw [heq] at hv
      exact .inl ⟨rfl, hnext hv, hv⟩
    · obtain ⟨h1, -, h2⟩ := Thread.isElecting_created he hc hv
      exact .inr (.inl ⟨rfl, h1, h2⟩)
    · rw [heq] at hv
      exact .inr (.inr ⟨hne, hv⟩)
  rcases hold t ht with ⟨rfl, ht', hn⟩ | ⟨rfl, ht', hn⟩ | ⟨hne, ht'⟩ <;>
    rcases hold u hu with ⟨rfl, hu', hm⟩ | ⟨rfl, hu', hm⟩ | ⟨hne', hu'⟩
  · rfl
  · simp [hn] at hm
  · exact absurd (hs _ _ hu' ht') hne'
  · simp [hn] at hm
  · rfl
  · exact absurd (hs _ _ hu' ht') hne'
  · exact absurd (hs _ _ ht' hu') hne
  · exact absurd (hs _ _ ht' hu') hne
  · exact hs _ _ ht' hu'

theorem Thread.isElecting_of_storesAnswer {thread : Thread}
    (h : thread.storesAnswer = some false) : thread.isElecting = true := by
  cases thread with
  | runElection id place =>
      cases place <;> simp [Thread.storesAnswer] at h
      rfl
  | electionListener socket id place => cases place <;> simp [Thread.storesAnswer] at h
  | _ => simp [Thread.storesAnswer] at h

/-- An undisturbed and well timed step leaves the server settled. -/
theorem Server.Settled.step {a : Action} (hs : s.Settled) (hu : s.undisturbed a = true)
    (hw : s.wellTimed a = true) (h : s.step a = some s') : s'.Settled := by
  cases a with
  | tick =>
      obtain rfl := step_tick h
      exact ⟨hs.single, fun t => ⟨(hs.settled t).answered, (hs.settled t).noWinner,
        (hs.settled t).noTakeover, (hs.settled t).demoted⟩⟩
  | run tid input fresh =>
      obtain ⟨hexp, hrec⟩ : s.shared.heartbeatExpired = false ∧
          (s.threads tid).receivesElection input = false := by
        simpa [undisturbed] using hu
      have hself := hs.settled tid
      have hnext : ∀ e, s.effect tid input fresh = some e → e.next.isElecting = true →
          (s.threads tid).isElecting = true ∧ (s.threads tid).storesAnswer ≠ some false :=
        fun e he => Thread.isElecting_next he hexp hrec hw
      -- the answer stays until the election that waits for it reads it
      have hanswer : ∀ e, s.effect tid input fresh = some e → ∀ t,
          (s.threads t).isElecting = true → (s.threads tid).storesAnswer ≠ some false →
            e.shared.electionAnswerReceived = true := by
        intro e he t ht hsa
        rw [Thread.step_answer he]
        cases hst : (s.threads tid).storesAnswer with
        | none => exact (hs.settled t).answered ht
        | some b =>
            cases b with
            | true => rfl
            | false => exact absurd hst hsa
      refine ⟨?_, forall_threads h ?_ ?_ ?_⟩
      · obtain ⟨e, he, hf, rfl⟩ := step_run h
        exact fun t u => single_place hs.single he hf (fun hn => (hnext e he hn).1) t u
      · intro e he
        obtain ⟨h1, h2⟩ := Thread.noTakeover_next he hself
        exact ⟨fun hn => hanswer e he tid (hnext e he hn).1 (hnext e he hn).2,
          Thread.noWinner_next he hself hw, h1, h2⟩
      · intro e created he hc
        obtain ⟨h1, h2, h3⟩ := Thread.settled_created he hself hc
        refine ⟨fun hn => ?_, h1, h2, fun _ => h3⟩
        obtain ⟨h4, h5, -⟩ := Thread.isElecting_created he hc hn
        exact hanswer e he tid h4 h5
      · intro e t he hne
        obtain ⟨-, h1, h2, h3⟩ := hs.settled t
        refine ⟨fun hn => ?_, h1, h2, fun hm => h3 (hself.mode he hm)⟩
        refine hanswer e he t hn fun hsa => hne ?_
        exact hs.single t tid hn (Thread.isElecting_of_storesAnswer hsa)

/-- A settled server never stores `BACKUP_MANAGER` while it goes on undisturbed and well timed. -/
theorem Server.Settled.never_stores {post : List Action} (hs : s.Settled)
    (hu : Along Server.step (fun s a => s.undisturbed a = true) s post)
    (hw : Along Server.step (fun s a => s.wellTimed a = true) s post) :
    Along Server.step (fun s a => s.storesManager a = false) s post := by
  refine Along.of_invariant (fun s a t hs hok hstep => hs.step hok.1 hok.2 hstep) ?_ hs
    (hu.and hw)
  intro s a hs _
  cases a with
  | tick => rfl
  | run tid input fresh => simpa [storesManager] using (hs.settled tid).noWinner

end Run

/-! ## A backup that hears from its leader's successor -/

/-- The backup with id 1 of a manager at 127.0.0.1. -/
def backupOne : Server :=
  .startBackup 1 (inetNtop ⟨127, 0, 0, 1⟩) 4003 100 ⟨127, 0, 0, 1⟩

/-- The backup starts its threads: 1 listens for replicas, 2 talks to the manager, 3 is the
heartbeat monitor. -/
def startUp : List Action :=
  [.run 0 .none 9, .run 0 .none 9, .run 0 (.bound 4004 (htons 4004)) 9, .run 0 .none 1,
    .run 0 .none 2, .run 0 .none 3, .run 0 .none 9]

/-- Server 2 connects; thread 4 reads from it. -/
def acceptPeer : List Action :=
  [.run 1 .none 9, .run 1 (.accepted 7 ⟨⟨127, 0, 0, 1⟩, htons 50000⟩) 9, .run 1 .none 9,
    .run 1 .none 9, .run 1 .none 4]

/-- The COORDINATOR of server 2. -/
def coordinatorPacket : Bytes :=
  serializeElectionEvent (createCoordinatorEvent 2 ⟨⟨127, 0, 0, 1⟩, htons 4104⟩)

/-- Thread 4 reads the COORDINATOR and is about to create the new backup. -/
def readCoordinator : List Action :=
  [.run 4 (.packet 0 coordinatorPacket) 9, .run 4 .none 9, .run 4 .none 9, .run 4 .none 9]

/-- Thread 4 creates the new `run_as_backup`. -/
def createNewBackup : Action := .run 4 (.memory (List.replicate 256 0)) 5

/-- **A settled backup stays with its leader.** A server handles a COORDINATOR after any run and
is settled then; in every undisturbed and well timed run that follows it does not store
`BACKUP_MANAGER`. The hypotheses on the run before say which states are meant; the proof needs no
more of them than that the server is settled. -/
theorem no_takeover_after_coordinator {s₀ s s' : Server} {pre post : List Action} {a : Action}
    (_hstart : Server.Starts s₀) (_hpre : s₀.run pre = some s)
    (_ha : s.handlesCoordinator a = true) (_h : s.step a = some s') (hs : s'.Settled)
    (hu : Along Server.step (fun s a => s.undisturbed a = true) s' post)
    (hw : Along Server.step (fun s a => s.wellTimed a = true) s' post) :
    Along Server.step (fun s a => s.storesManager a = false) s' post :=
  hs.never_stores hu hw

/-- The new backup clears the flag before the monitor looks at it. -/
def monitorSleeps : List Action :=
  [.run 5 .none 9, .run 5 .none 9, .run 5 .none 6, .run 5 .none 9, .run 3 .none 9,
    .run 3 .none 9, .run 3 .none 9, .run 3 .none 9, .run 3 .none 9]

theorem no_takeover_in_time :
    ∃ s ∈ backupOne.run (startUp ++ acceptPeer ++ readCoordinator),
      ∃ s' ∈ s.step createNewBackup, (s'.run monitorSleeps).isSome = true ∧
        Along Server.step (fun s a => s.storesManager a = false) s' monitorSleeps := by
  have hcheck : ∃ s ∈ backupOne.run (startUp ++ acceptPeer ++ readCoordinator),
      s.handlesCoordinator createNewBackup = true ∧ ∃ s' ∈ s.step createNewBackup,
        (s'.run monitorSleeps).isSome = true ∧
        (∀ t < 10, ∀ u < 10, (s'.threads t).isElecting = true →
          (s'.threads u).isElecting = true → t = u) ∧
        (∀ t < 10, (s'.threads t).IsSettled s'.shared) ∧
        Along Server.step (fun s a => s.undisturbed a = true) s' monitorSleeps ∧
        Along Server.step (fun s a => s.wellTimed a = true) s' monitorSleeps := by
    decide +kernel
  obtain ⟨s, hs, ha, s', hs', hsome, hsingle, hsettled, hu, hw⟩ := hcheck
  have hrun : backupOne.run (startUp ++ acceptPeer ++ readCoordinator ++ [createNewBackup]) =
      some s' := run_concat_eq_some.mpr ⟨s, hs, hs'⟩
  have hunused : s'.UnusedFrom 10 :=
    ((Server.unusedFrom_startBackup _ _ _ _ _).mono (by decide)).run (by decide) hrun
  exact ⟨s, hs, s', hs', hsome,
    no_takeover_after_coordinator ⟨1, .backup _ _ _ _ _ (by decide) (by decide)⟩ hs ha hs'
      (hunused.settled hsingle hsettled) hu hw⟩

/-- The monitor finds `new_leader_decided` set and holds an election, which thread 6 wins. -/
def monitorElects : List Action :=
  [.run 3 .none 9, .run 3 .none 9, .run 3 .none 9, .run 3 .none 9, .run 3 .none 9,
    .run 3 .none 9, .run 3 .none 6, .run 6 .none 9, .run 6 .none 9, .run 6 .none 9]

/-- Nothing disturbs the backup after the COORDINATOR, and still it becomes manager. -/
theorem takeover_after_coordinator :
    ∃ s ∈ backupOne.run (startUp ++ acceptPeer ++ readCoordinator),
      s.handlesCoordinator createNewBackup = true ∧
      ∃ s' ∈ s.step createNewBackup,
        (∃ t ∈ s'.run monitorElects, t.shared.globalServerMode = .backupManager) ∧
        Along Server.step (fun s a => s.undisturbed a = true) s' monitorElects ∧
        ¬ Along Server.step (fun s a => s.storesManager a = false) s' monitorElects := by
  decide +kernel

end SyncServer
