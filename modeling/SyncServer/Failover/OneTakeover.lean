import SyncServer.Failover.FollowsLeader

/-! # How many role loops take a win over?

A win is taken over by the `run_as_backup` threads that find `BACKUP_MANAGER`. A COORDINATOR
replaces the loop that runs through `new_leader_decided`: the listener sets the flag, the old
loop polls it, and the new thread clears it, whether or not the old loop has looked.
-/

namespace SyncServer

open CText Transition

/-- The role loop between its tests. -/
def RunAsBackup.isPolling : RunAsBackup → Bool
  | loadMode | loadDecided => true
  | _ => false

/-- Between the store of `BACKUP` and the role loop. -/
def RunAsBackup.isStarting : RunAsBackup → Bool
  | storeHeartbeat | bindListener | createListener | createConnection | createMonitor
  | clearDecided => true
  | _ => false

def Thread.isPolling : Thread → Bool
  | runAsBackup _ place => place.isPolling
  | _ => false

def Thread.isStarting : Thread → Bool
  | runAsBackup _ place => place.isStarting
  | _ => false

/-- A COORDINATOR that has set the flag and whose new thread has not stored `BACKUP`. -/
def Thread.isJoining : Thread → Bool
  | runAsBackup _ .storeMode => true
  | electionListener _ _ (.createBackup _ _) => true
  | _ => false

/-- The thread brings a new role loop. -/
def Thread.handsOver (thread : Thread) : Bool := thread.isStarting || thread.isJoining

/-- The thread has left its loop and is about to test for `BACKUP_MANAGER`. -/
def Thread.isChecking : Thread → Bool
  | runAsBackup _ .checkManager => true
  | _ => false

/-- The threads that have taken the last win over, `none` before the first win. -/
abbrev Takeovers := Option (List ℕ)

/-- The step makes a manager of a server that is none. -/
def Server.becomesManager (s : Server) (tid : ℕ) : Bool :=
  (s.threads tid).storesMode = some .backupManager && s.shared.globalServerMode ≠ .backupManager

/-- The observer of the takeovers. -/
def takeoversAfter (takeovers : Takeovers) (s : Server) : Action → Takeovers
  | .tick => takeovers
  | .run tid _ _ =>
      if s.becomesManager tid then some []
      else if (s.threads tid).isChecking ∧ s.shared.globalServerMode = .backupManager then
        takeovers.map (· ++ [tid])
      else takeovers

abbrev Server.stepWithTakeovers : Takeovers × Server → Action → Option (Takeovers × Server) :=
  watch takeoversAfter Server.step

/-- Exactly one thread takes the last win over: it has, or the server is still a manager and
exactly one thread will find that it is. -/
def Server.OneTakeover : Takeovers × Server → Prop
  | (none, _) => True
  | (some [], s) => s.shared.globalServerMode = .backupManager ∧
      ∃ t, (s.threads t).isInRole = true ∧ ∀ u, (s.threads u).isInRole = true → u = t
  | (some takeovers, _) => takeovers.length = 1

/-- The steps that hand the role loop over in order: the flag is cleared when no other loop
polls it; a win comes when no COORDINATOR waits for its thread, none has one that starts beside
another loop, and no loop is about to test the mode; a COORDINATOR stores `BACKUP` over a win
when that has been taken over; and an election sets the flag while its win stands. -/
def Server.HandsOverInOrder (s : Server) : Action → Prop
  | .tick => True
  | .run tid _ _ =>
      (s.becomesManager tid = true →
        (∀ t, (s.threads t).isJoining = false ∧ (s.threads t).isChecking = false) ∧
        ∀ t u, (s.threads t).isStarting = true → (s.threads u).isInRole = true → u = t) ∧
      match s.threads tid with
      | .runAsBackup _ .clearDecided => ∀ t, (s.threads t).isPolling = false
      | .runAsBackup _ .storeMode => s.shared.globalServerMode = .backupManager →
          ∀ t, (s.threads t).isInRole = false
      | .runElection _ .aloneDecided | .runElection _ .timeoutDecided =>
          s.shared.globalServerMode = .backupManager
      | _ => True

/-! ## Steps of one thread -/

section Step

variable {sh : Shared} {isExited : ℕ → Bool} {input : Input} {fresh : ℕ} {thread : Thread}
  {e : Effect Thread}

theorem Thread.isInRole_eq (thread : Thread) :
    thread.isInRole = (thread.isStarting || thread.isPolling || thread.isChecking) := by
  cases thread with
  | runAsBackup args place => cases place <;> rfl
  | _ => rfl

/-- A loop polls after it did, or after it has cleared the flag. -/
theorem Thread.isPolling_next (h : thread.step sh isExited input fresh = some e)
    (hp : e.next.isPolling = true) :
    thread.isPolling = true ∨ ∃ args, thread = .runAsBackup args .clearDecided := by
  cases hn : e.next with
  | runAsBackup args place =>
      obtain ⟨place₀, e₀, rfl, h₀, -, rfl⟩ := next_runAsBackup h hn
      obtain ⟨block, hb, h₁⟩ := Option.bind_eq_some_iff.mp h₀
      rw [hn] at hp
      cases place₀ <;> simp only [Effect.goto] at h₁ <;>
        grind [isPolling, RunAsBackup.isPolling]
  | _ => simp [hn, isPolling] at hp

/-- A loop goes on polling a backup whose flag is clear. -/
theorem Thread.polling_next (h : thread.step sh isExited input fresh = some e)
    (hp : thread.isPolling = true) (hm : sh.globalServerMode = .backup)
    (hd : sh.newLeaderDecided = false) : e.next.isPolling = true := by
  cases thread with
  | runAsBackup args place =>
      obtain ⟨e₀, h₀, rfl⟩ := step_runAsBackup.mp h
      obtain ⟨block, hb, h₁⟩ := Option.bind_eq_some_iff.mp h₀
      change e₀.next.isPolling = true
      cases place <;> simp only [Effect.goto] at h₁ <;>
        grind [isPolling, RunAsBackup.isPolling]
  | _ => cases hp

/-- A thread in its role stays there until it tests for `BACKUP_MANAGER`. -/
theorem Thread.inRole_next (h : thread.step sh isExited input fresh = some e)
    (hr : thread.isInRole = true) (hc : thread.isChecking = false) : e.next.isInRole = true := by
  cases thread with
  | runAsBackup args place =>
      obtain ⟨e₀, h₀, rfl⟩ := step_runAsBackup.mp h
      obtain ⟨block, hb, h₁⟩ := Option.bind_eq_some_iff.mp h₀
      change e₀.next.isInRole = true
      cases place <;> simp only [Effect.goto] at h₁ <;>
        grind [isInRole, RunAsBackup.isInRole, isChecking]
  | _ => cases hr

/-- A thread comes to its role by its store of `BACKUP` and leaves it with the test for
`BACKUP_MANAGER`. -/
theorem Thread.isInRole_next (h : thread.step sh isExited input fresh = some e)
    (hr : e.next.isInRole = true) :
    thread.isInRole = true ∧ thread.isChecking = false ∨
      ∃ args, thread = .runAsBackup args .storeMode := by
  cases hn : e.next with
  | runAsBackup args place =>
      obtain ⟨place₀, e₀, rfl, h₀, -, rfl⟩ := next_runAsBackup h hn
      obtain ⟨block, hb, h₁⟩ := Option.bind_eq_some_iff.mp h₀
      rw [hn] at hr
      cases place₀ <;> simp only [Effect.goto] at h₁ <;>
        grind [isInRole, RunAsBackup.isInRole, isChecking]
  | _ => simp [hn, isInRole] at hr

/-- What brings a new role loop goes on bringing it, or the loop polls now. -/
theorem Thread.handsOver_next (h : thread.step sh isExited input fresh = some e)
    (hh : thread.handsOver = true) :
    e.next.handsOver = true ∨
    (∃ args, e.created = some (.runAsBackup args .storeMode)) ∨
    e.next.isPolling = true ∧ e.shared.newLeaderDecided = false := by
  cases thread with
  | runAsBackup args place =>
      obtain ⟨e₀, h₀, rfl⟩ := step_runAsBackup.mp h
      obtain ⟨block, hb, h₁⟩ := Option.bind_eq_some_iff.mp h₀
      cases place <;> simp only [Effect.goto] at h₁ <;>
        grind [handsOver, isStarting, isJoining.eq_def, RunAsBackup.isStarting, isPolling,
          RunAsBackup.isPolling, Effect.map]
  | electionListener socket id place =>
      cases place <;> simp [handsOver, isStarting, isJoining] at hh
      exact .inr (.inl ⟨fresh, by rw [step_created h]; rfl⟩)
  | _ => cases hh

/-- The flag is set by a thread that brings a new role loop, or by an election. -/
theorem Thread.storesDecided_cases (h : thread.step sh isExited input fresh = some e)
    (hd : thread.storesDecided = some true) :
    e.next.handsOver = true ∨
    ∃ id, thread = .runElection id .aloneDecided ∨ thread = .runElection id .timeoutDecided := by
  cases thread with
  | runElection id place => cases place <;> simp [storesDecided] at hd <;> simp
  | electionListener socket id place =>
      cases place <;> simp [storesDecided] at hd
      obtain ⟨e₀, h₀, rfl⟩ := step_electionListener.mp h
      obtain rfl := Option.some.inj h₀
      exact .inl rfl
  | runAsBackup args place => cases place <;> simp [storesDecided] at hd
  | manageReplicas args place => cases place <;> simp [storesDecided] at hd
  | _ => simp [storesDecided] at hd

theorem Thread.isInRole_created {created : Thread}
    (h : thread.step sh isExited input fresh = some e) (hc : e.created = some created) :
    created.isInRole = false := by
  cases created with
  | runAsBackup args place =>
      obtain ⟨_, _, _, _, _, -, -, -, rfl, -⟩ := created_runAsBackup h hc
      rfl
  | _ => rfl

end Step

/-! ## Steps of the server -/

section Run

variable {takeovers : Takeovers} {s s' : Server} {tid fresh : ℕ} {input : Input}
  {e : Effect Thread}

/-- The last win is pending with one thread, or one has taken it over. -/
structure Server.Accounted (p : Takeovers × Server) : Prop where
  before : p.1 = none → p.2.shared.globalServerMode = .backup
  pending : p.1 = some [] → p.2.shared.globalServerMode = .backupManager ∧
    ∃ t, (p.2.threads t).isInRole = true ∧ ∀ u, (p.2.threads u).isInRole = true → u = t
  taken : ∀ l, p.1 = some l → l ≠ [] → l.length = 1 ∧
    (p.2.shared.globalServerMode = .backupManager → ∀ u, (p.2.threads u).isInRole = false)

/-- Besides, there is one loop, or one comes; and a set flag means that one comes. -/
structure Server.OneLoop (p : Takeovers × Server) : Prop extends Server.Accounted p where
  polling : ∀ t u, (p.2.threads t).isPolling = true → (p.2.threads u).isPolling = true → t = u
  covered : p.2.shared.globalServerMode = .backup →
    ∃ t, (p.2.threads t).isPolling = true ∨ (p.2.threads t).handsOver = true
  handed : p.2.shared.globalServerMode = .backup → p.2.shared.newLeaderDecided = true →
    ∃ t, (p.2.threads t).handsOver = true
  known : p.2.shared.globalServerMode ≠ .unknownMode

theorem Server.polling_place (he : s.effect tid input fresh = some e)
    (hf : e.created = none ∨ s.threads fresh = .unused)
    (hs : ∀ t u, (s.threads t).isPolling = true → (s.threads u).isPolling = true → t = u)
    (hok : ∀ args, s.threads tid = .runAsBackup args .clearDecided →
      ∀ t, (s.threads t).isPolling = false) (t u : ℕ)
    (ht : (s.place tid fresh e t).isPolling = true)
    (hu : (s.place tid fresh e u).isPolling = true) : t = u := by
  have hold : ∀ v, (s.place tid fresh e v).isPolling = true →
      (s.threads v).isPolling = true ∨
        v = tid ∧ ∃ args, s.threads tid = .runAsBackup args .clearDecided := by
    intro v hv
    rcases place_cases he hf v with ⟨rfl, heq⟩ | ⟨-, rfl, -, hc⟩ | ⟨-, heq⟩
    · rw [heq] at hv
      exact (Thread.isPolling_next he hv).imp_right fun h => ⟨rfl, h⟩
    · have hrole := Thread.isInRole_created he hc
      simp [Thread.isInRole_eq, hv] at hrole
    · exact .inl (heq ▸ hv)
  rcases hold t ht with hpt | ⟨rfl, args, htid⟩
  · rcases hold u hu with hpu | ⟨-, args, htid⟩
    · exact hs t u hpt hpu
    · simp [hok args htid t] at hpt
  · rcases hold u hu with hpu | ⟨rfl, -⟩
    · simp [hok args htid u] at hpu
    · rfl

/-- What brings a new role loop goes on, or the loop polls and the flag is clear. -/
theorem Server.handsOver_place (he : s.effect tid input fresh = some e)
    (hf : e.created = none ∨ s.threads fresh = .unused)
    (hs : ∃ t, (s.threads t).handsOver = true) :
    (∃ t, (s.place tid fresh e t).handsOver = true) ∨
      (∃ t, (s.place tid fresh e t).isPolling = true) ∧ e.shared.newLeaderDecided = false := by
  obtain ⟨t, ht⟩ := hs
  by_cases htid : t = tid
  · subst htid
    rcases Thread.handsOver_next he ht with h | ⟨args, hc⟩ | ⟨h, hd⟩
    · exact .inl ⟨t, by rwa [place_self he hf]⟩
    · exact .inl ⟨fresh, by rw [place_created hc]; rfl⟩
    · exact .inr ⟨⟨t, by rwa [place_self he hf]⟩, hd⟩
  · have hne : s.threads t ≠ .unused := fun h => by rw [h] at ht; cases ht
    exact .inl ⟨t, by rwa [place_of_ne he hf htid hne]⟩

/-- Where the threads in the role of a backup come from. -/
theorem Server.isInRole_place {t : ℕ} (he : s.effect tid input fresh = some e)
    (hf : e.created = none ∨ s.threads fresh = .unused)
    (ht : (s.place tid fresh e t).isInRole = true) :
    (s.threads t).isInRole = true ∧ (t = tid → (s.threads t).isChecking = false) ∨
      ∃ args, s.threads tid = .runAsBackup args .storeMode := by
  rcases place_cases he hf t with ⟨rfl, heq⟩ | ⟨-, rfl, -, hc⟩ | ⟨hne, heq⟩
  · rw [heq] at ht
    exact (Thread.isInRole_next he ht).imp_left fun h => ⟨h.1, fun _ => h.2⟩
  · rw [Thread.isInRole_created he hc] at ht
    cases ht
  · exact .inl ⟨heq ▸ ht, fun h => absurd h hne⟩

theorem Server.inRole_place {t : ℕ} (he : s.effect tid input fresh = some e)
    (hf : e.created = none ∨ s.threads fresh = .unused) (ht : (s.threads t).isInRole = true)
    (hc : t = tid → (s.threads t).isChecking = false) :
    (s.place tid fresh e t).isInRole = true := by
  by_cases htid : t = tid
  · subst htid
    rw [place_self he hf]
    exact Thread.inRole_next he ht (hc rfl)
  · have hne : s.threads t ≠ .unused := fun h => by rw [h] at ht; cases ht
    rwa [place_of_ne he hf htid hne]

/-- The mode after a step. -/
theorem Server.mode_cases (he : s.effect tid input fresh = some e) :
    (∃ args, s.threads tid = .runAsBackup args .storeMode ∧
      e.shared.globalServerMode = .backup) ∨
    (s.threads tid).storesMode = some .backupManager ∧
      e.shared.globalServerMode = .backupManager ∨
    (s.threads tid).storesMode = none ∧
      e.shared.globalServerMode = s.shared.globalServerMode := by
  have hmode := Thread.step_mode he
  cases hst : (s.threads tid).storesMode with
  | none => exact .inr (.inr ⟨rfl, by simpa [hst] using hmode⟩)
  | some mode =>
      have hmode' : e.shared.globalServerMode = mode := by simpa [hst] using hmode
      cases htid : s.threads tid with
      | runElection id place => cases place <;> grind [Thread.storesMode]
      | runAsBackup args place => cases place <;> grind [Thread.storesMode]
      | manageReplicas args place => cases place <;> grind [Thread.storesMode]
      | _ => simp [htid, Thread.storesMode] at hst

/-- In the mode `BACKUP` a loop remains, and a set flag is answered for. -/
theorem Server.OneLoop.loop (hs : OneLoop (takeovers, s)) (he : s.effect tid input fresh = some e)
    (hf : e.created = none ∨ s.threads fresh = .unused)
    (hok : s.HandsOverInOrder (.run tid input fresh))
    (hmode : e.shared.globalServerMode = .backup) :
    (∃ t, (s.place tid fresh e t).isPolling = true ∨ (s.place tid fresh e t).handsOver = true) ∧
    (e.shared.newLeaderDecided = true → ∃ t, (s.place tid fresh e t).handsOver = true) := by
  -- a new loop that was on its way still is, or it polls with a clear flag
  have hhand : (∃ t, (s.threads t).handsOver = true) →
      (∃ t, (s.place tid fresh e t).isPolling = true ∨
        (s.place tid fresh e t).handsOver = true) ∧
      (e.shared.newLeaderDecided = true → ∃ t, (s.place tid fresh e t).handsOver = true) := by
    intro h
    rcases handsOver_place he hf h with ⟨t, ht⟩ | ⟨⟨t, ht⟩, hd⟩
    · exact ⟨⟨t, .inr ht⟩, fun _ => ⟨t, ht⟩⟩
    · exact ⟨⟨t, .inl ht⟩, fun h => by simp [hd] at h⟩
  rcases mode_cases he with ⟨args, htid, -⟩ | ⟨-, hm⟩ | ⟨hst, hm⟩
  · exact hhand ⟨tid, by rw [htid]; rfl⟩
  · simp [hm] at hmode
  have hm : s.shared.globalServerMode = .backup := hm ▸ hmode
  have hdec := Thread.step_decided he
  refine ⟨?_, fun hd => ?_⟩
  · obtain ⟨t, ht | ht⟩ := hs.covered hm
    · by_cases hne : t = tid
      · subst hne
        cases hd : s.shared.newLeaderDecided with
        | true => exact (hhand (hs.handed hm hd)).1
        | false => exact ⟨t, .inl (by rw [place_self he hf]; exact Thread.polling_next he ht hm hd)⟩
      · have hused : s.threads t ≠ .unused := fun h => by rw [h] at ht; cases ht
        exact ⟨t, .inl (by rwa [place_of_ne he hf hne hused])⟩
    · exact (hhand ⟨t, ht⟩).1
  · cases hsd : (s.threads tid).storesDecided with
    | none => exact (hhand (hs.handed hm (by simpa [hsd, hd] using hdec.symm))).2 hd
    | some b =>
        obtain rfl : b = true := by simpa [hsd, hd] using hdec.symm
        rcases Thread.storesDecided_cases he hsd with h | ⟨id, htid⟩
        · exact ⟨tid, by rwa [place_self he hf]⟩
        · have hwin : s.shared.globalServerMode = .backupManager := by
            rcases htid with htid | htid <;> simpa [HandsOverInOrder, htid] using hok.2
          simp [hm] at hwin

/-- A win in order finds one loop. -/
theorem Server.OneLoop.win (hs : OneLoop (takeovers, s)) (he : s.effect tid input fresh = some e)
    (hf : e.created = none ∨ s.threads fresh = .unused)
    (hok : s.HandsOverInOrder (.run tid input fresh)) (hwin : s.becomesManager tid = true) :
    Accounted (some [], ⟨e.shared, s.place tid fresh e⟩) := by
  obtain ⟨hquiet, hstart⟩ := hok.1 hwin
  obtain ⟨hst, hm⟩ : (s.threads tid).storesMode = some .backupManager ∧
      s.shared.globalServerMode ≠ .backupManager := by simpa [becomesManager] using hwin
  have hno : ¬ ∃ args, s.threads tid = .runAsBackup args .storeMode := by
    rintro ⟨args, htid⟩
    simpa [htid, Thread.isJoining] using (hquiet tid).1
  have hback : s.shared.globalServerMode = .backup := by
    have hknown := hs.known
    cases hmode : s.shared.globalServerMode <;> simp_all
  -- the loop that was there polls, or it is the only one that starts
  obtain ⟨t, ht, huniq⟩ : ∃ t, (s.threads t).isInRole = true ∧
      ∀ u, (s.threads u).isInRole = true → u = t := by
    have hrole := fun u => Thread.isInRole_eq (s.threads u)
    obtain ⟨t, ht | ht⟩ := hs.covered hback
    · refine ⟨t, by simp [hrole, ht], fun u hu => ?_⟩
      have hu' := hu
      rw [hrole u, (hquiet u).2, Bool.or_false, Bool.or_eq_true] at hu'
      rcases hu' with hu' | hu'
      · exact (hstart u t hu' (by simp [hrole, ht])).symm
      · exact hs.polling u t hu' ht
    · have ht' : (s.threads t).isStarting = true := by
        simpa [Thread.handsOver, (hquiet t).1] using ht
      exact ⟨t, by simp [hrole, ht'], fun u hu => hstart t u ht' hu⟩
  refine ⟨nofun, fun _ => ⟨?_, t, inRole_place he hf ht fun _ => (hquiet t).2,
    fun u hu => huniq u ?_⟩, fun l hl hne => absurd (Option.some.inj hl).symm hne⟩
  · change e.shared.globalServerMode = _
    rw [Thread.step_mode he, hst]
    rfl
  · exact ((isInRole_place he hf hu).resolve_right hno).1

/-- While a server stays a manager, nobody comes to the role of a backup. -/
theorem Server.isInRole_of_manager {t : ℕ} (he : s.effect tid input fresh = some e)
    (hf : e.created = none ∨ s.threads fresh = .unused)
    (hm : e.shared.globalServerMode = .backupManager)
    (ht : (s.place tid fresh e t).isInRole = true) :
    (s.threads t).isInRole = true ∧ (t = tid → (s.threads t).isChecking = false) := by
  refine (isInRole_place he hf ht).resolve_right fun ⟨args, htid⟩ => ?_
  have hmode := Thread.step_mode he
  rw [htid, hm] at hmode
  cases hmode

/-- A step that is no win keeps the account of the takeovers. -/
theorem Server.OneLoop.keep (hs : OneLoop (takeovers, s)) (he : s.effect tid input fresh = some e)
    (hf : e.created = none ∨ s.threads fresh = .unused)
    (hok : s.HandsOverInOrder (.run tid input fresh)) (hwin : s.becomesManager tid = false)
    (hcheck : (s.threads tid).isChecking = true →
      s.shared.globalServerMode ≠ .backupManager) :
    Accounted (takeovers, ⟨e.shared, s.place tid fresh e⟩) := by
  have hstore : (s.threads tid).storesMode = some .backupManager →
      s.shared.globalServerMode = .backupManager := by
    intro hst
    simpa [becomesManager, hst] using hwin
  have hmanager : e.shared.globalServerMode = .backupManager →
      s.shared.globalServerMode = .backupManager := by
    intro hm
    rcases mode_cases he with ⟨_, _, h⟩ | ⟨hst, -⟩ | ⟨-, h⟩
    · simp [hm] at h
    · exact hstore hst
    · exact h ▸ hm
  refine ⟨fun h => ?_, fun h => ?_, fun l h hl => ?_⟩
  · have hback := hs.before h
    rcases mode_cases he with ⟨_, _, h⟩ | ⟨hst, -⟩ | ⟨-, h⟩
    · exact h
    · have hm := hstore hst
      simp_all
    · exact h.trans hback
  · obtain ⟨hm, t, ht, huniq⟩ := hs.pending h
    have hm' : e.shared.globalServerMode = .backupManager := by
      rcases mode_cases he with ⟨args, htid, -⟩ | ⟨-, h⟩ | ⟨-, h⟩
      · have hno := hok.2
        simp only [htid] at hno
        simp [hno hm t] at ht
      · exact h
      · exact h.trans hm
    refine ⟨hm', t, inRole_place he hf ht ?_, fun u hu =>
      huniq u (isInRole_of_manager he hf hm' hu).1⟩
    rintro rfl
    cases hc : (s.threads t).isChecking with
    | true => exact absurd hm (hcheck hc)
    | false => rfl
  · obtain ⟨hlen, hno⟩ := hs.taken l h hl
    refine ⟨hlen, fun hm' u => ?_⟩
    by_contra hu
    have hold := (isInRole_of_manager he hf hm' (by simpa using hu)).1
    simp [hno (hmanager hm') u] at hold

/-- The loop that takes a win over leaves no other. -/
theorem Server.OneLoop.take (hs : OneLoop (takeovers, s)) (he : s.effect tid input fresh = some e)
    (hf : e.created = none ∨ s.threads fresh = .unused)
    (hcheck : (s.threads tid).isChecking = true)
    (hm : s.shared.globalServerMode = .backupManager) :
    takeovers = some [] ∧ Accounted (some [tid], ⟨e.shared, s.place tid fresh e⟩) := by
  have hrole : (s.threads tid).isInRole = true := by simp [Thread.isInRole_eq, hcheck]
  have hnil : takeovers = some [] := by
    rcases takeovers with - | ⟨- | ⟨t, l⟩⟩
    · exact absurd ((hs.before rfl).symm.trans hm) nofun
    · rfl
    · have hno := (hs.taken (t :: l) rfl nofun).2 hm tid
      exact absurd (hrole.symm.trans hno) nofun
  obtain ⟨-, t, -, huniq⟩ := hs.pending hnil
  refine ⟨hnil, nofun, nofun, fun l hl _ => ⟨by rw [← Option.some.inj hl]; rfl, fun _ u => ?_⟩⟩
  by_contra hu
  have hm' : e.shared.globalServerMode = .backupManager := by
    rcases mode_cases he with ⟨args, htid, -⟩ | ⟨-, h⟩ | ⟨-, h⟩
    · simp [htid, Thread.isChecking] at hcheck
    · exact h
    · exact h.trans hm
  obtain ⟨hold, hself⟩ := isInRole_of_manager he hf hm' (by simpa using hu)
  obtain rfl : u = tid := (huniq u hold).trans (huniq tid hrole).symm
  simp [hself rfl] at hcheck

theorem Server.OneLoop.step {p q : Takeovers × Server} {a : Action} (hs : OneLoop p)
    (hok : p.2.HandsOverInOrder a) (h : Server.stepWithTakeovers p a = some q) : OneLoop q := by
  obtain ⟨takeovers, s⟩ := p
  obtain ⟨takeovers', s'⟩ := q
  obtain ⟨hstep, rfl⟩ := watch_eq_some.mp h
  cases a with
  | tick =>
      obtain rfl := step_tick hstep
      exact ⟨⟨hs.before, hs.pending, hs.taken⟩, hs.polling, hs.covered, hs.handed, hs.known⟩
  | run tid input fresh =>
      obtain ⟨e, he, hf, rfl⟩ := step_run hstep
      have hpolling := polling_place he hf hs.polling fun args htid => by
        simpa [HandsOverInOrder, htid] using hok.2
      have hloop := hs.loop he hf hok
      have hknown : e.shared.globalServerMode ≠ .unknownMode := by
        rcases mode_cases he with ⟨_, _, h⟩ | ⟨-, h⟩ | ⟨-, h⟩
        · simp [h]
        · simp [h]
        · exact h ▸ hs.known
      refine ⟨?_, hpolling, fun h => (hloop h).1, fun h => (hloop h).2, hknown⟩
      simp only [takeoversAfter]
      split
      next hwin => exact hs.win he hf hok hwin
      next hwin =>
        split
        next hcheck =>
          obtain ⟨rfl, htaken⟩ := hs.take he hf hcheck.1 hcheck.2
          exact htaken
        next hcheck =>
          exact hs.keep he hf hok (by simpa using hwin) fun hc hm => hcheck ⟨hc, hm⟩

end Run

theorem Server.oneLoop_startBackup (id : ℤ) (managerIp : Bytes) (managerPort : ℤ) (time : ℕ)
    (serverAddr : InAddr) :
    OneLoop (none, startBackup id managerIp managerPort time serverAddr) where
  before _ := rfl
  pending := nofun
  taken := nofun
  polling t u ht := by
    by_cases h0 : t = 0
    · subst h0
      cases ht
    · simp [startBackup, h0, Thread.isPolling] at ht
  covered _ := ⟨0, .inr rfl⟩
  handed _ := nofun
  known := nofun

/-- The account of the takeovers says that each win has one. -/
theorem Server.Accounted.oneTakeover {p : Takeovers × Server} (h : Accounted p) :
    OneTakeover p := by
  obtain ⟨takeovers, s⟩ := p
  rcases takeovers with - | ⟨- | ⟨t, l⟩⟩
  · trivial
  · exact h.pending rfl
  · exact (h.taken (t :: l) rfl nofun).1

/-- **One takeover for each win.** In every run of a server that starts as a backup and hands
its role loop over in order, each time it becomes a manager exactly one `run_as_backup` thread
takes over. -/
theorem one_takeover_per_win (id : ℤ) (managerIp : Bytes) (managerPort : ℤ) (time : ℕ)
    (serverAddr : InAddr) {actions : List Action}
    (hok : Along Server.stepWithTakeovers (fun p => p.2.HandsOverInOrder)
      (none, .startBackup id managerIp managerPort time serverAddr) actions) :
    Always Server.stepWithTakeovers Server.OneTakeover
      (none, .startBackup id managerIp managerPort time serverAddr) actions :=
  (hok.always (I := Server.OneLoop) (fun _ _ _ hs hok hstep => hs.step hok hstep)
    (Server.oneLoop_startBackup id managerIp managerPort time serverAddr)).mono
      fun _ hs => hs.oneTakeover

/-! ## A handover in order, and one that is not -/

/-- `HandsOverInOrder` with only the first threads in use. -/
def Server.inOrderBelow (n : ℕ) (s : Server) : Action → Bool
  | .tick => true
  | .run tid _ _ =>
      (!s.becomesManager tid || (List.range n).all fun t =>
        !(s.threads t).isJoining && !(s.threads t).isChecking &&
          (!(s.threads t).isStarting ||
            (List.range n).all fun u => !(s.threads u).isInRole || u = t)) &&
      match s.threads tid with
      | .runAsBackup _ .clearDecided => (List.range n).all fun t => !(s.threads t).isPolling
      | .runAsBackup _ .storeMode => s.shared.globalServerMode ≠ .backupManager ||
          (List.range n).all fun t => !(s.threads t).isInRole
      | .runElection _ .aloneDecided | .runElection _ .timeoutDecided =>
          s.shared.globalServerMode = .backupManager
      | _ => true

theorem Server.handsOverInOrder_of_below {n : ℕ} {s : Server} {a : Action}
    (hu : s.UnusedFrom n) (h : s.inOrderBelow n a = true) : s.HandsOverInOrder a := by
  -- a thread that is not in use does nothing of what is tested
  have hall : ∀ f : Thread → Bool, f .unused = false →
      ((List.range n).all fun t => !f (s.threads t)) = true → ∀ t, f (s.threads t) = false := by
    intro f hf hn t
    by_cases ht : t < n
    · simpa using List.all_eq_true.mp hn t (List.mem_range.mpr ht)
    · rw [hu t (by omega), hf]
  cases a with
  | tick => trivial
  | run tid input fresh =>
      simp only [inOrderBelow, Bool.and_eq_true] at h
      obtain ⟨hwin, hplace⟩ := h
      refine ⟨fun hb => ?_, ?_⟩
      · simp only [hb, Bool.not_true, Bool.false_or, List.all_eq_true, List.mem_range,
          Bool.and_eq_true, Bool.not_eq_true', Bool.or_eq_true, decide_eq_true_eq] at hwin
        have hlt : ∀ t, s.threads t ≠ .unused → t < n := by
          intro t ht
          by_contra hn
          exact ht (hu t (by omega))
        refine ⟨fun t => ?_, fun t u ht hur => ?_⟩
        · by_cases ht : t < n
          · exact (hwin t ht).1
          · rw [hu t (by omega)]
            exact ⟨rfl, rfl⟩
        · have htn := hlt t fun h => by rw [h] at ht; cases ht
          have hun := hlt u fun h => by rw [h] at hur; cases hur
          have := (hwin t htn).2.resolve_left (by simp [ht]) u hun
          exact this.resolve_left (by simp [hur])
      · split
        next args htid =>
          rw [htid] at hplace
          exact hall _ rfl hplace
        next args htid =>
          intro hm
          simp only [htid, hm, ne_eq, not_true_eq_false, decide_false, Bool.false_or] at hplace
          exact hall _ rfl hplace
        next id htid => simpa [htid] using hplace
        next id htid => simpa [htid] using hplace
        next => trivial

/-- The heartbeats stop and the monitor lets thread 7 win an election. -/
def winElection : List Action :=
  List.replicate 6 .tick ++
  [.run 3 .none 9, .run 3 .none 9, .run 3 .none 9, .run 3 .none 9, .run 3 .none 9,
    .run 3 .none 7, .run 7 .none 9, .run 7 .none 9, .run 7 .none 9, .run 7 .none 9,
    .run 7 .none 9, .run 3 .none 9]

/-- Thread 0 sees the flag before thread 5 clears it; thread 5 takes the win over. -/
def orderlyHandover : List Action :=
  startUp ++ acceptPeer ++ readCoordinator ++ [createNewBackup] ++
  [.run 0 .none 9, .run 0 .none 9, .run 0 .none 9, .run 0 .none 9] ++
  [.run 5 .none 9, .run 5 .none 9, .run 5 .none 6, .run 5 .none 9] ++ winElection ++
  [.run 5 .none 9, .run 5 .none 9]

theorem one_takeover_after_handover :
    (∃ p ∈ run Server.stepWithTakeovers (none, backupOne) orderlyHandover, p.1 = some [5]) ∧
    Always Server.stepWithTakeovers Server.OneTakeover (none, backupOne) orderlyHandover := by
  have hbelow : Along Server.stepWithTakeovers
      (fun p a => p.2.inOrderBelow 10 a = true ∧ a.createsBelow 10 = true) (none, backupOne)
      orderlyHandover := by
    decide +kernel
  refine ⟨by decide +kernel, one_takeover_per_win _ _ _ _ _ ?_⟩
  refine Along.of_invariant (I := fun p => p.2.UnusedFrom 10) ?_ ?_
    ((Server.unusedFrom_startBackup _ _ _ _ _).mono (by decide)) hbelow
  · rintro ⟨_, s⟩ a ⟨_, t⟩ hs ha hstep
    exact Server.UnusedFrom.step hs ha.2 (watch_eq_some.mp hstep).1
  · exact fun p a hs ha => Server.handsOverInOrder_of_below hs ha.1

/-- Thread 5 clears the flag before thread 0 polls it, so both loops take the win over. -/
def hastyHandover : List Action :=
  startUp ++ acceptPeer ++ readCoordinator ++ joinNewLeader ++ winElection ++
  [.run 0 .none 9, .run 0 .none 9, .run 5 .none 9, .run 5 .none 9]

theorem two_takeovers_of_one_win :
    ∃ p ∈ run Server.stepWithTakeovers (none, backupOne) hastyHandover,
      p.1 = some [0, 5] ∧ ¬ Server.OneTakeover p := by
  have hcheck : ∃ p ∈ run Server.stepWithTakeovers (none, backupOne) hastyHandover,
      p.1 = some [0, 5] := by
    decide +kernel
  obtain ⟨⟨takeovers, s⟩, hp, rfl⟩ := hcheck
  exact ⟨_, hp, rfl, by simp [Server.OneTakeover]⟩

end SyncServer
