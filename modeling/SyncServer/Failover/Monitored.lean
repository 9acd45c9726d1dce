import SyncServer.Failover.AcceptedLeader

/-! # Is every backup monitored?

Only the first `run_as_backup` of a server starts a heartbeat monitor, and the monitor leaves
its loop when the server is no longer a backup. A server that becomes a backup again has none.
-/

namespace SyncServer

open CText Transition

/-- A heartbeat monitor that has not left its loop. -/
def Thread.isMonitor : Thread → Bool
  | heartbeatMonitor _ place => place ≠ .exited
  | _ => false

/-- `run_as_backup` has come to its role loop. -/
def RunAsBackup.isStarted : RunAsBackup → Bool
  | storeMode | storeHeartbeat | bindListener | createListener | createConnection
  | createMonitor => false
  | _ => true

def Thread.isStarted : Thread → Bool
  | runAsBackup _ place => place.isStarted
  | _ => false

def Server.HasMonitor (s : Server) : Prop := ∃ t, (s.threads t).isMonitor = true

def Server.HasStarted (s : Server) : Prop := ∃ t, (s.threads t).isStarted = true

/-- A backup whose `run_as_backup` has started up is monitored. -/
def Server.Monitored (s : Server) : Prop :=
  s.shared.globalServerMode = .backup → s.HasStarted → s.HasMonitor

/-- A `run_as_backup` that starts no monitor stores `BACKUP` and comes to its loop only while
there is a monitor. -/
def Server.KeepsMonitor (s : Server) : Action → Prop
  | .tick => True
  | .run tid _ _ =>
      match s.threads tid with
      | .runAsBackup args .storeMode =>
          ∀ block ∈ s.shared.backupArgs args, block.hasListener = true →
            s.HasStarted → s.HasMonitor
      | .runAsBackup args .createConnection =>
          ∀ block ∈ s.shared.backupArgs args, block.hasListener = true →
            s.shared.globalServerMode = .backup → s.HasMonitor
      | _ => True

/-! ## Steps of one thread -/

section Step

variable {sh : Shared} {isExited : ℕ → Bool} {input : Input} {fresh : ℕ} {thread : Thread}
  {e : Effect Thread}

/-- A monitor leaves its loop only when the server is no backup. -/
theorem Thread.isMonitor_next (h : thread.step sh isExited input fresh = some e)
    (hm : thread.isMonitor = true) (hmode : sh.globalServerMode = .backup) :
    e.next.isMonitor = true := by
  cases thread with
  | heartbeatMonitor id place =>
      obtain ⟨e₀, h₀, rfl⟩ := step_heartbeatMonitor.mp h
      change decide (e₀.next ≠ .exited) = true
      cases place <;> simp only [HeartbeatMonitor.step, Effect.goto] at h₀ <;> grind
  | _ => cases hm

/-- How a `run_as_backup` comes to its loop. -/
theorem Thread.isStarted_next (h : thread.step sh isExited input fresh = some e)
    (hs : e.next.isStarted = true) :
    thread.isStarted = true ∨
    (∃ args block, thread = .runAsBackup args .createConnection ∧
      sh.backupArgs args = some block ∧ block.hasListener = true) ∨
    ∃ args id, thread = .runAsBackup args .createMonitor ∧
      e.created = some (.heartbeatMonitor id .checkMode) := by
  cases hn : e.next with
  | runAsBackup args place =>
      obtain ⟨place₀, e₀, rfl, h₀, rfl, rfl⟩ := next_runAsBackup h hn
      obtain ⟨block, hb, h₁⟩ := Option.bind_eq_some_iff.mp h₀
      change e₀.next.isStarted = true at hs
      cases place₀
      case createConnection =>
        obtain rfl := Option.some.inj h₁
        refine .inr (.inl ⟨args, block, rfl, hb, ?_⟩)
        by_contra hl
        simp [hl, RunAsBackup.isStarted] at hs
      case createMonitor =>
        obtain rfl := Option.some.inj h₁
        exact .inr (.inr ⟨args, block.id, rfl, rfl⟩)
      all_goals
        simp only [Effect.goto] at h₁
        grind [isStarted, RunAsBackup.isStarted]
  | _ => simp [hn, isStarted] at hs

/-- A created thread is at its first statement. -/
theorem Thread.isStarted_created {created : Thread}
    (h : thread.step sh isExited input fresh = some e) (hc : e.created = some created) :
    created.isStarted = false := by
  cases created_cases h hc <;> rfl

/-- The mode is `BACKUP` after a step if it was before or `run_as_backup` has stored it. -/
theorem Thread.backup_cases (h : thread.step sh isExited input fresh = some e)
    (hm : e.shared.globalServerMode = .backup) :
    sh.globalServerMode = .backup ∨ ∃ args, thread = .runAsBackup args .storeMode := by
  rw [step_mode h] at hm
  cases hst : thread.storesMode with
  | none => exact .inl (by simpa [hst] using hm)
  | some mode =>
      obtain rfl : mode = .backup := by simpa [hst] using hm
      cases thread with
      | runElection id place => cases place <;> simp [storesMode] at hst
      | manageReplicas args place => cases place <;> simp [storesMode] at hst
      | runAsBackup args place =>
          cases place <;> simp [storesMode] at hst
          exact .inr ⟨args, rfl⟩
      | _ => simp [storesMode] at hst

end Step

/-! ## Steps of the server -/

section Run

variable {s s' : Server} {tid fresh : ℕ} {input : Input} {e : Effect Thread}

theorem Server.HasMonitor.place (hm : s.HasMonitor) (he : s.effect tid input fresh = some e)
    (hf : e.created = none ∨ s.threads fresh = .unused)
    (hmode : s.shared.globalServerMode = .backup ∨ (s.threads tid).isMonitor = false) :
    ∃ t, (s.place tid fresh e t).isMonitor = true := by
  obtain ⟨t, ht⟩ := hm
  refine ⟨t, ?_⟩
  rcases place_cases he hf t with ⟨rfl, heq⟩ | ⟨-, -, hu, -⟩ | ⟨-, heq⟩
  · rw [heq]
    refine Thread.isMonitor_next he ht (hmode.resolve_right ?_)
    simp [ht]
  · simp [hu, Thread.isMonitor] at ht
  · rwa [heq]

/-- While the first `run_as_backup` has not stored its mode, it is alone. -/
def Server.FirstAlone (s : Server) : Prop :=
  ∀ t args, s.threads t = .runAsBackup args .storeMode →
    ∀ block ∈ s.shared.backupArgs args, block.hasListener = false →
      ∀ u, u ≠ t → s.threads u = .unused

theorem Server.FirstAlone.step {a : Action} (hs : s.FirstAlone) (h : s.step a = some s') :
    s'.FirstAlone := by
  cases a with
  | tick =>
      obtain rfl := step_tick h
      exact hs
  | run tid input fresh =>
      obtain ⟨e, he, hf, rfl⟩ := step_run h
      intro t args ht block hb hl
      have hused := ne_unused_of_effect he
      change s.place tid fresh e t = _ at ht
      change block ∈ e.shared.backupArgs args at hb
      rcases place_cases he hf t with ⟨rfl, heq⟩ | ⟨hne, rfl, -, hc⟩ | ⟨hne, heq⟩
      · exact absurd (heq.symm.trans ht) (Thread.next_ne_storeMode he)
      · rw [ht] at hc
        obtain ⟨_, id, _, address, prior, -, -, rfl, -, -, hbs⟩ := Thread.created_runAsBackup he hc
        rw [hbs, Function.update_self] at hb
        obtain rfl := Option.some.inj hb
        cases hl
      · -- the block was as it is before the step, so the acting thread was not in use
        exfalso
        have hold : ∀ b, s.shared.backupArgs args = some b → b.hasListener = false → False :=
          fun b hb hl => hused (hs t args (heq.symm.trans ht) b hb hl tid hne.symm)
        have hchange := Thread.step_backupArgs he args
        rw [Option.mem_def.mp hb] at hchange
        generalize hx : some block = x at hchange
        cases hchange with
        | same => exact hold block hx.symm hl
        | filled socket id leader address prior =>
            obtain rfl := Option.some.inj hx
            cases hl
        | bound b port actual hthread hb' =>
            obtain rfl := Option.some.inj hx
            exact hold b hb' hl
        | freed => cases hx

/-- Where a role loop has begun, a step to or in the mode `BACKUP` leaves a monitor. -/
theorem Server.Monitored.place (hs : s.Monitored) (hfirst : s.FirstAlone)
    (ha : s.KeepsMonitor (.run tid input fresh)) (he : s.effect tid input fresh = some e)
    (hf : e.created = none ∨ s.threads fresh = .unused) (hstarted : s.HasStarted)
    (hmode : e.shared.globalServerMode = .backup) :
    ∃ t, (s.place tid fresh e t).isMonitor = true := by
  rcases Thread.backup_cases he hmode with hm | ⟨args, htid⟩
  · exact (hs hm hstarted).place he hf (.inl hm)
  · have hno : (s.threads tid).isMonitor = false := by rw [htid]; rfl
    obtain ⟨block, hb⟩ : ∃ block, s.shared.backupArgs args = some block := by
      rw [effect, htid] at he
      obtain ⟨e₀, h₀, -⟩ := Thread.step_runAsBackup.mp he
      exact RunAsBackup.block_of_step h₀
    simp only [KeepsMonitor, htid] at ha
    cases hl : block.hasListener with
    | true => exact (ha block hb hl hstarted).place he hf (.inr hno)
    | false =>
        obtain ⟨u, hu⟩ := hstarted
        have hne : u ≠ tid := by
          rintro rfl
          simp [htid, Thread.isStarted, RunAsBackup.isStarted] at hu
        rw [hfirst tid args htid block hb hl u hne] at hu
        cases hu

/-- A step that keeps the monitor leaves a monitored server monitored. -/
theorem Server.Monitored.step {a : Action} (hs : s.Monitored) (hfirst : s.FirstAlone)
    (ha : s.KeepsMonitor a) (h : s.step a = some s') : s'.Monitored := by
  cases a with
  | tick =>
      obtain rfl := step_tick h
      exact hs
  | run tid input fresh =>
      obtain ⟨e, he, hf, rfl⟩ := step_run h
      intro hmode ⟨t, ht⟩
      change (s.place tid fresh e t).isStarted = true at ht
      rcases place_cases he hf t with ⟨rfl, heq⟩ | ⟨-, rfl, -, hc⟩ | ⟨-, heq⟩
      · rw [heq] at ht
        rcases Thread.isStarted_next he ht with hold | ⟨args, block, htid, hb, hl⟩ |
          ⟨args, id, htid, hc⟩
        · exact hs.place hfirst ha he hf ⟨t, hold⟩ hmode
        · -- the thread comes to its loop without a monitor of its own
          have hm : s.shared.globalServerMode = .backup := by
            rcases Thread.backup_cases he hmode with hm | ⟨args', htid'⟩
            · exact hm
            · simp [htid] at htid'
          simp only [KeepsMonitor, htid] at ha
          exact (ha block hb hl hm).place he hf (.inl hm)
        · exact ⟨fresh, by simp [Server.place, hc, Thread.isMonitor]⟩
      · rw [Thread.isStarted_created he hc] at ht
        cases ht
      · rw [heq] at ht
        exact hs.place hfirst ha he hf ⟨t, ht⟩ hmode

/-- A `run_as_backup` at another place than `createMonitor` brings no monitor. -/
theorem Server.HasMonitor.of_place {args : ℕ} {at_ : RunAsBackup}
    (hm : ∃ t, (s.place tid fresh e t).isMonitor = true)
    (he : s.effect tid input fresh = some e) (hf : e.created = none ∨ s.threads fresh = .unused)
    (htid : s.threads tid = .runAsBackup args at_) (hat : at_ ≠ .createMonitor) :
    s.HasMonitor := by
  obtain ⟨t, ht⟩ := hm
  rcases place_cases he hf t with ⟨rfl, heq⟩ | ⟨-, rfl, -, hc⟩ | ⟨-, heq⟩
  · rw [effect, htid] at he
    obtain ⟨e₀, -, rfl⟩ := Thread.step_runAsBackup.mp he
    rw [heq] at ht
    cases ht
  · have hcr := Thread.step_created he
    rw [hc, htid] at hcr
    cases at_ <;>
      simp only [Thread.creates, reduceCtorEq, eq_comm (a := some _), Option.map_eq_some_iff,
        ne_eq, not_true_eq_false] at hcr hat <;>
      obtain ⟨block, -, hcr⟩ := hcr <;> rw [← hcr] at ht <;> cases ht
  · exact ⟨t, by rwa [← heq]⟩

/-- A step to a monitored state keeps the monitor. -/
theorem Server.Monitored.keepsMonitor {a : Action} (h : s.step a = some s')
    (hs' : s'.Monitored) : s.KeepsMonitor a := by
  cases a with
  | tick => trivial
  | run tid input fresh =>
      obtain ⟨e, he, hf, rfl⟩ := step_run h
      simp only [KeepsMonitor]
      split
      next args htid =>
        intro block hb hl ⟨u, hu⟩
        have hmode : e.shared.globalServerMode = .backup := by
          rw [Thread.step_mode he, htid]
          rfl
        have hne : u ≠ tid := by
          rintro rfl
          simp [htid, Thread.isStarted, RunAsBackup.isStarted] at hu
        refine .of_place (hs' hmode ⟨u, ?_⟩) he hf htid nofun
        rcases place_cases he hf u with ⟨heq, -⟩ | ⟨-, -, hun, -⟩ | ⟨-, heq⟩
        · exact absurd heq hne
        · rw [hun] at hu
          cases hu
        · change (s.place tid fresh e u).isStarted = true
          rwa [heq]
      next args htid =>
        intro block hb hl hm
        have hmode : e.shared.globalServerMode = .backup := by
          rw [Thread.step_mode he, htid]
          exact hm
        refine .of_place (hs' hmode ⟨tid, ?_⟩) he hf htid nofun
        rcases place_cases he hf tid with ⟨-, heq⟩ | ⟨hne, -⟩ | ⟨hne, -⟩
        · change (s.place tid fresh e tid).isStarted = true
          rw [heq]
          rw [effect, htid] at he
          obtain ⟨e₀, h₀, rfl⟩ := Thread.step_runAsBackup.mp he
          obtain ⟨block', hb', h₁⟩ := Option.bind_eq_some_iff.mp h₀
          obtain rfl : block = block' := Option.some.inj (hb.symm.trans hb')
          obtain rfl := Option.some.inj h₁
          simp [hl, Effect.map, Thread.isStarted, RunAsBackup.isStarted]
        · exact absurd rfl hne
        · exact absurd rfl hne
      next => trivial

end Run

/-- A server starts with one thread, at its first statement. -/
theorem Server.Starts.threads {s : Server} (h : s.Starts) :
    (∀ u ≠ 0, s.threads u = .unused) ∧
    ((∃ args, s.threads 0 = .runAsBackup args .storeMode) ∨
      ∃ args, s.threads 0 = .manageReplicas args .storeMode) := by
  obtain ⟨id, h⟩ := h
  cases h with
  | backup => exact ⟨fun u hu => by simp [startBackup, hu], .inl ⟨0, rfl⟩⟩
  | manager => exact ⟨fun u hu => by simp [startManager, hu], .inr ⟨_, rfl⟩⟩

theorem Server.Starts.monitored {s : Server} (h : s.Starts) : s.Monitored := by
  rintro - ⟨t, ht⟩
  obtain ⟨hne, h0⟩ := h.threads
  by_cases h0t : t = 0
  · subst h0t
    rcases h0 with ⟨args, h0⟩ | ⟨args, h0⟩ <;> rw [h0] at ht <;> cases ht
  · rw [hne t h0t] at ht
    cases ht

theorem Server.Starts.firstAlone {s : Server} (h : s.Starts) : s.FirstAlone := by
  intro t args ht _ _ _ u hu
  obtain ⟨hne, -⟩ := h.threads
  have h0 : t = 0 := by
    by_contra h0
    rw [hne t h0] at ht
    cases ht
  exact hne u (h0 ▸ hu)

/-- **Every backup is monitored exactly as long as no step loses the monitor.** In a run of a
server every reachable state is monitored if and only if every `run_as_backup` that has a
listener finds a live monitor when it stores `BACKUP` beside a role loop that has begun, and
when it comes to its own loop in the mode `BACKUP`. -/
theorem every_backup_monitored_iff {s₀ : Server} (hstart : s₀.Starts) (actions : List Action) :
    Always Server.step Server.Monitored s₀ actions ↔
      Along Server.step Server.KeepsMonitor s₀ actions := by
  constructor
  · exact fun h => h.along fun s a t hstep _ ht => ht.keepsMonitor hstep
  · intro h
    have hinit : s₀.Monitored ∧ s₀.FirstAlone := ⟨hstart.monitored, hstart.firstAlone⟩
    have hall := h.always (I := fun s => s.Monitored ∧ s.FirstAlone)
      (fun s a t hs hok hstep => ⟨hs.1.step hs.2 hok hstep, hs.2.step hstep⟩) hinit
    exact hall.mono fun s hs => hs.1

/-! ## A failover and a demotion -/

/-- `KeepsMonitor` with a monitor among the first threads. -/
def Server.seesMonitor (n : ℕ) (s : Server) : Action → Bool
  | .tick => true
  | .run tid _ _ =>
      match s.threads tid with
      | .runAsBackup args .storeMode | .runAsBackup args .createConnection =>
          (s.shared.backupArgs args).all (!·.hasListener) ||
            (List.range n).any fun t => (s.threads t).isMonitor
      | _ => true

theorem Server.keepsMonitor_of_seesMonitor {n : ℕ} {s : Server} {a : Action}
    (h : s.seesMonitor n a = true) : s.KeepsMonitor a := by
  cases a with
  | tick => trivial
  | run tid input fresh =>
      have hmonitor : ∀ args, ((s.shared.backupArgs args).all (!·.hasListener) ||
          (List.range n).any fun t => (s.threads t).isMonitor) = true →
          ∀ block ∈ s.shared.backupArgs args, block.hasListener = true → s.HasMonitor := by
        intro args h block hb hl
        rw [Option.mem_def.mp hb] at h
        obtain ⟨t, -, ht⟩ : ∃ t < n, (s.threads t).isMonitor = true := by simpa [hl] using h
        exact ⟨t, ht⟩
      simp only [seesMonitor] at h
      simp only [KeepsMonitor]
      split
      next args htid =>
        rw [htid] at h
        exact fun block hb hl _ => hmonitor args h block hb hl
      next args htid =>
        rw [htid] at h
        exact fun block hb hl _ => hmonitor args h block hb hl
      next => trivial

/-- The new `run_as_backup` of a COORDINATOR comes to its loop. -/
def joinNewLeader : List Action :=
  [createNewBackup, .run 5 .none 9, .run 5 .none 9, .run 5 .none 6, .run 5 .none 9]

theorem monitored_after_failover :
    (backupOne.run (startUp ++ acceptPeer ++ readCoordinator ++ joinNewLeader)).isSome = true ∧
    Always Server.step Server.Monitored backupOne
      (startUp ++ acceptPeer ++ readCoordinator ++ joinNewLeader) := by
  refine ⟨by decide +kernel,
    (every_backup_monitored_iff ⟨1, .backup _ _ _ _ _ (by decide) (by decide)⟩ _).mpr ?_⟩
  have hsees : Along Server.step (fun s a => s.seesMonitor 10 a = true) backupOne
      (startUp ++ acceptPeer ++ readCoordinator ++ joinNewLeader) := by
    decide +kernel
  exact hsees.mono fun s a => Server.keepsMonitor_of_seesMonitor

/-- The heartbeats stop, the monitor lets thread 5 win an election and leaves its loop; then
thread 4 hears of another leader and creates thread 6. -/
def winAndStepDown : List Action :=
  List.replicate 6 .tick ++
  [.run 3 .none 9, .run 3 .none 9, .run 3 .none 9, .run 3 .none 9, .run 3 .none 9,
    .run 3 .none 5, .run 5 .none 9, .run 5 .none 9, .run 5 .none 9, .run 5 .none 9,
    .run 5 .none 9, .run 3 .none 9, .run 3 .none 9, .run 3 .none 9] ++
  readCoordinator ++
  [.run 4 (.memory (List.replicate 256 0)) 6, .run 6 .none 9, .run 6 .none 9, .run 6 .none 7]

theorem unmonitored_after_demotion :
    ∃ s ∈ backupOne.run (startUp ++ acceptPeer ++ winAndStepDown),
      s.shared.globalServerMode = .backup ∧ s.HasStarted ∧ ¬ s.HasMonitor := by
  have hcheck : ∃ s ∈ backupOne.run (startUp ++ acceptPeer ++ winAndStepDown),
      s.shared.globalServerMode = .backup ∧ (s.threads 6).isStarted = true ∧
        ∀ t < 10, (s.threads t).isMonitor = false := by
    decide +kernel
  obtain ⟨s, hs, hmode, hstarted, hno⟩ := hcheck
  refine ⟨s, hs, hmode, ⟨6, hstarted⟩, fun ⟨t, ht⟩ => ?_⟩
  have hunused : s.UnusedFrom 10 :=
    ((Server.unusedFrom_startBackup _ _ _ _ _).mono (by decide)).run (by decide) hs
  by_cases htn : t < 10
  · simp [hno t htn] at ht
  · rw [hunused t (by omega)] at ht
    cases ht

end SyncServer
