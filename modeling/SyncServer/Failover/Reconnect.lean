import SyncServer.Failover.OneTakeover
import Mathlib.Data.List.Perm.Subperm

/-! # Do the reconnecting replicas survive the takeover?

After its COORDINATOR the winner loads the counter, destroys the list and waits until the
counter is what it was, while the listener thread adds the backups that reconnect.
-/

namespace SyncServer

open CText Transition

/-- What the listener has added since the takeover began: the ids and the sockets, last first,
and whether it added one before the list was destroyed. -/
structure Joins where
  registered : List ℤ
  sockets : List ℕ
  early : Bool
  deriving DecidableEq, Repr

def Joins.none : Joins := ⟨[], [], false⟩

/-- The takeover has destroyed the old list. -/
def RunAsBackup.hasDestroyed : RunAsBackup → Bool
  | awaitReplicas _ | notifyClients | createManager | cleanUp | exited => true
  | _ => false

def Thread.hasDestroyed : Thread → Bool
  | runAsBackup _ place => place.hasDestroyed
  | _ => false

/-- The listener is in its loop and has nobody in hand. -/
def ReplicaListener.isIdle : ReplicaListener → Bool
  | checkShutdown | accept => true
  | _ => false

/-- What the listener adds is added to the account. -/
def Joins.add (joins : Joins) (destroyed : Bool) : ReplicaListener → Joins
  | .addReplica node =>
      { registered := node.id :: joins.registered
        sockets := node.socketfd :: joins.sockets
        early := joins.early || !destroyed }
  | _ => joins

/-- The observer of the insertions, where `r` is the thread that takes over. -/
def joinsAfter (r : ℕ) (joins : Joins) (s : Server) : Action → Joins
  | .tick => joins
  | .run tid _ _ =>
      match s.threads tid with
      | .replicaListener _ listener => joins.add (s.threads r).hasDestroyed listener
      | _ => joins

abbrev Server.stepWithJoins (r : ℕ) : Joins × Server → Action → Option (Joins × Server) :=
  watch (joinsAfter r) Server.step

/-- The live backups reconnect, each once: a new connection gets a descriptor that is not in
the list, and the connections of the live backups stay open. -/
def ReplicaListener.isServed (live : List ℤ) (joins : Joins) (list : List ReplicaNode) :
    ReplicaListener → Input → Bool
  | accept, .accepted socketfd _ => !hasNode list socketfd
  | readRegistration _ _, .registration _ id _ => id ∈ live && id ∉ joins.registered
  | notifyAdded _, .closedSockets closed => closed.all (· ∉ joins.sockets)
  | _, _ => true

/-- The winner `r` has sent its COORDINATOR to the backups in its list and its listener `l`
waits for them to reconnect. -/
structure Server.Won (r l : ℕ) (s : Server) : Prop where
  winner : ∃ args, s.threads r = .runAsBackup args .loadCount
  listener : ∃ args, s.threads l = .replicaListener args .checkShutdown
  mode : s.shared.globalServerMode = .backupManager
  count : s.shared.replicaCount = s.shared.replicaList.length
  distinct : (s.shared.replicaList.map (·.id)).Nodup

/-- A step of the winner, or of the listener while the backups `live` reconnect. -/
def Server.reconnects (r l : ℕ) (live : List ℤ) : Joins × Server → Action → Bool
  | _, .tick => true
  | (joins, s), .run tid input _ =>
      tid = r || tid = l &&
        match s.threads l with
        | .replicaListener _ listener => listener.isServed live joins s.shared.replicaList input
        | _ => false

/-- Every live backup has been accepted and processed by the listener. -/
def Server.allProcessed (l : ℕ) (live : List ℤ) (joins : Joins) (s : Server) : Bool :=
  live.all (· ∈ joins.registered) &&
    match s.threads l with
    | .replicaListener _ listener => listener.isIdle
    | _ => false

/-- The list holds exactly the live backups, the wait is over, and the notification of the
clients is next. -/
structure Server.Survived (r : ℕ) (live : List ℤ) (s : Server) : Prop where
  exact : (s.shared.replicaList.map (·.id)).Perm live
  waited : ∀ args awaited, s.threads r = .runAsBackup args (.awaitReplicas awaited) →
    awaited = s.shared.replicaCount
  notifies : ∀ args awaited, s.threads r = .runAsBackup args (.awaitReplicas awaited) →
    ∀ input fresh, ∀ s' ∈ s.step (.run r input fresh),
      s'.threads r = .runAsBackup args .notifyClients

/-! ## The invariant of the takeover -/

/-- The takeover is through with its wait. -/
def RunAsBackup.hasPassed : RunAsBackup → Bool
  | notifyClients | createManager | cleanUp | exited => true
  | _ => false

/-- The number of replicas that the takeover waits for. -/
def RunAsBackup.awaited? : RunAsBackup → Option ℤ
  | destroyList awaited => some awaited
  | awaitReplicas awaited => some awaited
  | _ => none

/-- From `send_coordinator_msg` on. -/
def RunAsBackup.isConcluding : RunAsBackup → Bool
  | loadCount | destroyList _ | awaitReplicas _ | notifyClients | createManager | cleanUp
  | exited => true
  | _ => false

/-- What the listener holds is a new descriptor and a live backup that has not registered. -/
def ReplicaListener.Holds (live registered : List ℤ) (list : List ReplicaNode) :
    ReplicaListener → Prop
  | loadManager socketfd _ => hasNode list socketfd = false
  | readRegistration socketfd _ => hasNode list socketfd = false
  | addReplica node => hasNode list node.socketfd = false ∧ node.id ∈ live ∧ node.id ∉ registered
  | loadBackup _ => False
  | createElection _ => False
  | _ => True

/-- A node is in the list but not counted. -/
def ReplicaListener.uncounted : ReplicaListener → ℤ
  | countReplica _ => 1
  | _ => 0

/-- The listener has added a node and has not come back to its loop. -/
def ReplicaListener.isAdding : ReplicaListener → Bool
  | countReplica _ | notifyAdded _ | sendReplicas _ => true
  | _ => false

/-- The memory between the COORDINATOR and the end of the takeover; `old` is the list at the
win. The registered ids are those in the list and those lost with the old one. -/
structure Shared.Taking (live : List ℤ) (old : List ReplicaNode) (joins : Joins) (sh : Shared)
    (winner : RunAsBackup) (listener : ReplicaListener) : Prop where
  mode : sh.globalServerMode = .backupManager
  concluding : winner.isConcluding = true
  distinct : joins.registered.Nodup
  registered : ∀ id ∈ joins.registered, id ∈ live
  holds : listener.Holds live joins.registered sh.replicaList
  early : winner.hasDestroyed = false → (joins.early = true ↔ joins.registered ≠ [])
  untouched : winner.hasDestroyed = false → joins.early = false →
    sh.replicaList = old ∧ sh.replicaCount = old.length ∧ listener.isAdding = false
  loaded : joins.early = false → ∀ awaited, winner.awaited? = some awaited → awaited = old.length
  lost : winner.hasDestroyed = true → ∃ before,
    joins.registered = sh.replicaList.map (·.id) ++ before ∧ (joins.early = false ↔ before = [])
  sockets : winner.hasDestroyed = true → ∀ node ∈ sh.replicaList, node.socketfd ∈ joins.sockets
  counted : winner.hasDestroyed = true → joins.early = false →
    sh.replicaCount + listener.uncounted = sh.replicaList.length
  passed : winner.hasPassed = true → joins.early = false → old.length ≤ joins.registered.length

section Steps

variable {live : List ℤ} {old : List ReplicaNode} {joins : Joins} {sh sh' : Shared}
  {input : Input} {winner : RunAsBackup} {listener : ReplicaListener}

/-- The winner goes on after the destruction and leaves list and counter alone. -/
theorem Shared.Taking.go {winner' : RunAsBackup}
    (hs : sh.Taking live old joins winner listener) (hd : winner.hasDestroyed = true)
    (hd' : winner'.hasDestroyed = true) (hm : sh'.globalServerMode = sh.globalServerMode)
    (hl : sh'.replicaList = sh.replicaList) (hc : sh'.replicaCount = sh.replicaCount)
    (ha : winner'.awaited? = none ∨ winner'.awaited? = winner.awaited?)
    (hp : winner'.hasPassed = true → joins.early = false →
      old.length ≤ joins.registered.length) :
    sh'.Taking live old joins winner' listener where
  mode := hm.trans hs.mode
  concluding := by cases winner' <;> simp_all [RunAsBackup.hasDestroyed, RunAsBackup.isConcluding]
  distinct := hs.distinct
  registered := hs.registered
  holds := hl ▸ hs.holds
  early h := by simp [hd'] at h
  untouched h := by simp [hd'] at h
  loaded he awaited h := by
    obtain hnone | hsame := ha
    · rw [hnone] at h
      cases h
    · exact hs.loaded he awaited (hsame ▸ h)
  lost _ := hl ▸ hs.lost hd
  sockets _ := hl ▸ hs.sockets hd
  counted _ he := by rw [hl, hc]; exact hs.counted hd he
  passed := hp

/-- A step of the winner. -/
theorem Shared.Taking.winner_step {args : ℕ} {e : Effect RunAsBackup}
    (hs : sh.Taking live old joins winner listener) (h : winner.step args sh input = some e) :
    e.shared.Taking live old joins e.next listener := by
  obtain ⟨block, hb, h₁⟩ := Option.bind_eq_some_iff.mp h
  cases winner with
  | loadCount =>
      obtain rfl := Option.some.inj h₁
      refine ⟨hs.mode, rfl, hs.distinct, hs.registered, hs.holds, fun _ => hs.early rfl,
        fun _ => hs.untouched rfl, fun he awaited h => ?_, ?_, ?_, ?_, ?_⟩
      · obtain rfl := Option.some.inj h
        exact (hs.untouched rfl he).2.1
      all_goals simp [Effect.goto, RunAsBackup.hasDestroyed, RunAsBackup.hasPassed]
  | destroyList awaited =>
      obtain rfl := Option.some.inj h₁
      refine ⟨hs.mode, rfl, hs.distinct, hs.registered, ?_, ?_, ?_,
        fun he a h => hs.loaded he a h, fun _ => ⟨joins.registered, rfl, ?_⟩,
        fun _ => by simp [Effect.goto], fun _ he => ?_, ?_⟩
      · have hholds := hs.holds
        cases listener <;> simp_all [ReplicaListener.Holds, Effect.goto, hasNode]
      · simp [Effect.goto, RunAsBackup.hasDestroyed]
      · simp [Effect.goto, RunAsBackup.hasDestroyed]
      · rw [← Bool.not_eq_true, hs.early rfl, not_not]
      · obtain ⟨-, -, hadd⟩ := hs.untouched rfl he
        cases listener <;>
          simp_all [ReplicaListener.isAdding, ReplicaListener.uncounted, Effect.goto]
      · simp [Effect.goto, RunAsBackup.hasPassed]
  | awaitReplicas awaited =>
      obtain rfl := Option.some.inj h₁
      by_cases hwait : awaited = sh.replicaCount
      · simp only [hwait, ne_eq, not_true_eq_false, if_false]
        refine hs.go rfl rfl rfl rfl rfl (.inl rfl) fun _ he => ?_
        obtain ⟨before, hreg, hbefore⟩ := hs.lost rfl
        have hlen : joins.registered.length = sh.replicaList.length := by
          simp [hreg, hbefore.mp he]
        have hloaded := hs.loaded he awaited rfl
        have hcounted := hs.counted rfl he
        have hpos : 0 ≤ listener.uncounted := by
          cases listener <;> simp [ReplicaListener.uncounted]
        omega
      · simp only [hwait, ne_eq, not_false_eq_true, if_true]
        refine hs.go rfl rfl rfl rfl rfl (.inr rfl) ?_
        simp [Effect.goto, RunAsBackup.hasPassed]
  | notifyClients =>
      obtain rfl := Option.some.inj h₁
      exact hs.go rfl rfl rfl rfl rfl (.inl rfl) fun _ => hs.passed rfl
  | createManager =>
      obtain rfl := Option.some.inj h₁
      exact hs.go rfl rfl rfl rfl rfl (.inl rfl) fun _ => hs.passed rfl
  | cleanUp =>
      obtain rfl := Option.some.inj h₁
      exact hs.go rfl rfl rfl rfl rfl (.inl rfl) fun _ => hs.passed rfl
  | exited => cases h₁
  | _ => cases hs.concluding

/-- The listener goes on without touching list and counter. -/
theorem Shared.Taking.listen {listener' : ReplicaListener}
    (hs : sh.Taking live old joins winner listener)
    (hh : listener'.Holds live joins.registered sh.replicaList)
    (ha : listener'.isAdding = false ∨ listener.isAdding = true)
    (hu : listener'.uncounted = listener.uncounted) :
    sh.Taking live old joins winner listener' where
  mode := hs.mode
  concluding := hs.concluding
  distinct := hs.distinct
  registered := hs.registered
  holds := hh
  early := hs.early
  untouched hd he := by
    obtain ⟨h1, h2, h3⟩ := hs.untouched hd he
    exact ⟨h1, h2, ha.resolve_right (by simp [h3])⟩
  loaded := hs.loaded
  lost := hs.lost
  sockets := hs.sockets
  counted hd he := by rw [hu]; exact hs.counted hd he
  passed := hs.passed

/-- A step of the listener. -/
theorem Shared.Taking.listener_step {args : ManagerArgs} {e : Effect ReplicaListener}
    (hs : sh.Taking live old joins winner listener)
    (hin : listener.isServed live joins sh.replicaList input = true)
    (h : listener.step args sh input = some e) :
    e.shared.Taking live old (joins.add winner.hasDestroyed listener) winner e.next := by
  have hholds := hs.holds
  cases listener with
  | checkShutdown =>
      simp only [ReplicaListener.step] at h
      split at h
      · cases h
      · obtain rfl := Option.some.inj h
        exact hs.listen trivial (.inl rfl) rfl
  | accept =>
      simp only [ReplicaListener.step] at h
      split at h
      · obtain rfl := Option.some.inj h
        exact hs.listen trivial (.inl rfl) rfl
      · rename_i socketfd address
        obtain rfl := Option.some.inj h
        have hnew : hasNode sh.replicaList socketfd = false := by
          simpa [ReplicaListener.isServed] using hin
        exact hs.listen hnew (.inl rfl) rfl
      · cases h
  | loadManager socketfd address =>
      simp only [ReplicaListener.step, hs.mode, if_true] at h
      obtain rfl := Option.some.inj h
      exact hs.listen hholds (.inl rfl) rfl
  | loadBackup socketfd => exact hholds.elim
  | readRegistration socketfd address =>
      simp only [ReplicaListener.step] at h
      split at h
      · obtain rfl := Option.some.inj h
        exact hs.listen trivial (.inl rfl) rfl
      · split at h
        · obtain rfl := Option.some.inj h
          exact hs.listen ⟨hholds, by simpa [ReplicaListener.isServed] using hin⟩ (.inl rfl) rfl
        · cases h
      · cases h
  | addReplica node =>
      obtain ⟨hnew, hlive, hfresh⟩ := hholds
      simp only [ReplicaListener.step, SyncServer.addReplica, hnew] at h
      obtain rfl := Option.some.inj h
      refine ⟨hs.mode, hs.concluding, List.nodup_cons.mpr ⟨hfresh, hs.distinct⟩, ?_, trivial, ?_,
        ?_, ?_, ?_, ?_, ?_, ?_⟩
      · exact List.forall_mem_cons.mpr ⟨hlive, hs.registered⟩
      · simp +contextual [Joins.add]
      · intro hd he
        simp [Joins.add, hd] at he
      · intro he
        exact hs.loaded (by simp_all [Joins.add])
      · intro hd
        obtain ⟨before, hreg, hbefore⟩ := hs.lost hd
        exact ⟨before, by simp [Joins.add, Effect.goto, hreg], by simp [Joins.add, hd, hbefore]⟩
      · exact fun hd => List.forall_mem_cons.mpr ⟨List.mem_cons_self,
          fun n hn => List.mem_cons_of_mem _ (hs.sockets hd n hn)⟩
      · intro hd he
        have hcounted := hs.counted hd (by simp_all [Joins.add])
        simp [Effect.goto, ReplicaListener.uncounted] at hcounted ⊢
        exact hcounted
      · intro hp he
        have hpassed := hs.passed hp (by simp_all [Joins.add])
        exact hpassed.trans (by simp [Joins.add])
  | countReplica node =>
      obtain rfl := Option.some.inj h
      refine ⟨hs.mode, hs.concluding, hs.distinct, hs.registered, trivial, hs.early, ?_, hs.loaded,
        hs.lost, hs.sockets, fun hd he => ?_, hs.passed⟩
      · intro hd he
        exact Bool.noConfusion (hs.untouched hd he).2.2
      · have hcounted := hs.counted hd he
        simpa [Effect.goto, ReplicaListener.uncounted] using hcounted
  | notifyAdded node =>
      simp only [ReplicaListener.step] at h
      split at h
      · obtain rfl := Option.some.inj h
        cases hd : winner.hasDestroyed with
        | true =>
            -- the list holds new connections only, and these are open
            rename_i closed
            have hopen : ∀ socketfd ∈ closed, socketfd ∉ joins.sockets := by
              simpa [ReplicaListener.isServed] using hin
            have hkeep : keepOpen sh.replicaList closed = sh.replicaList :=
              List.filter_eq_self.mpr fun node hn => by
                simpa using fun hc => hopen node.socketfd hc (hs.sockets hd node hn)
            have hsame : sh.dropClosed closed = sh := by simp [Shared.dropClosed, hkeep]
            simp only [hsame]
            exact hs.listen trivial (.inr rfl) rfl
        | false =>
            have hearly : joins.early = true := by
              by_contra he
              exact Bool.noConfusion (hs.untouched hd (by simpa using he)).2.2
            refine ⟨hs.mode, hs.concluding, hs.distinct, hs.registered, trivial, hs.early,
              fun _ he => ?_, fun he => ?_, fun hd' => ?_, fun hd' => ?_, fun hd' => ?_,
              fun _ he => ?_⟩
            all_goals simp_all [Joins.add]
      · cases h
  | sendReplicas socketfd =>
      obtain rfl := Option.some.inj h
      exact hs.listen trivial (.inl rfl) rfl
  | createElection socketfd => exact hholds.elim

end Steps

/-! ## Whole takeovers -/

/-- The invariant of the server, with the places of its two threads. -/
def Server.Taking (r l : ℕ) (live : List ℤ) (old : List ReplicaNode) : Joins × Server → Prop
  | (joins, s) => ∃ args winner largs listener, s.threads r = .runAsBackup args winner ∧
      s.threads l = .replicaListener largs listener ∧
      s.shared.Taking live old joins winner listener

section Run

variable {r l : ℕ} {live : List ℤ} {old : List ReplicaNode}

theorem Server.Taking.step {p q : Joins × Server} {a : Action} (hs : Taking r l live old p)
    (hok : reconnects r l live p a = true) (h : Server.stepWithJoins r p a = some q) :
    Taking r l live old q := by
  obtain ⟨joins, s⟩ := p
  obtain ⟨joins', s'⟩ := q
  obtain ⟨args, winner, largs, listener, hr, hl, hs⟩ := hs
  obtain ⟨hstep, rfl⟩ := watch_eq_some.mp h
  have hne : r ≠ l := by
    rintro rfl
    rw [hr] at hl
    cases hl
  cases a with
  | tick =>
      obtain rfl := step_tick hstep
      exact ⟨args, winner, largs, listener, hr, hl, hs.mode, hs.concluding, hs.distinct,
        hs.registered, hs.holds, hs.early, hs.untouched, hs.loaded, hs.lost, hs.sockets,
        hs.counted, hs.passed⟩
  | run tid input fresh =>
      obtain ⟨e, he, hf, rfl⟩ := step_run hstep
      have hru : s.threads r ≠ .unused := by simp [hr]
      have hlu : s.threads l ≠ .unused := by simp [hl]
      have hcases : tid = r ∨ tid = l ∧
          listener.isServed live joins s.shared.replicaList input = true := by
        simpa [reconnects, hl] using hok
      rcases hcases with rfl | ⟨rfl, hserved⟩
      · have hstay := place_of_ne he hf hne.symm hlu
        have hgo := place_self he hf
        rw [effect, hr] at he
        obtain ⟨e₀, h₀, rfl⟩ := Thread.step_runAsBackup.mp he
        refine ⟨args, e₀.next, largs, listener, hgo, hstay.trans hl, ?_⟩
        simpa [joinsAfter, hr, Effect.map] using hs.winner_step h₀
      · have hstay := place_of_ne he hf hne hru
        have hgo := place_self he hf
        rw [effect, hl] at he
        obtain ⟨e₀, h₀, rfl⟩ := Thread.step_replicaListener.mp he
        refine ⟨args, winner, largs, e₀.next, hstay.trans hr, hgo, ?_⟩
        simpa [joinsAfter, hl, hr, Thread.hasDestroyed, Effect.map] using
          hs.listener_step hserved h₀

theorem Server.Won.taking {s : Server} (hs : s.Won r l) :
    Taking r l live s.shared.replicaList (.none, s) := by
  obtain ⟨args, hr⟩ := hs.winner
  obtain ⟨largs, hl⟩ := hs.listener
  exact ⟨args, .loadCount, largs, .checkShutdown, hr, hl, hs.mode, rfl, List.nodup_nil, nofun,
    trivial, fun _ => by simp [Joins.none], fun _ _ => ⟨rfl, hs.count, rfl⟩, nofun, nofun, nofun,
    nofun, nofun⟩

end Run

/-- When the wait is over, the notification of the clients is next. -/
theorem Server.survived_of_waited {r : ℕ} {live : List ℤ} {s : Server}
    (hexact : (s.shared.replicaList.map (·.id)).Perm live)
    (hwaited : ∀ args awaited, s.threads r = .runAsBackup args (.awaitReplicas awaited) →
      awaited = s.shared.replicaCount) : s.Survived r live where
  exact := hexact
  waited := hwaited
  notifies args awaited hr input fresh s' h := by
    obtain ⟨e, he, hf, rfl⟩ := step_run h
    change s.place r fresh e r = _
    rw [place_self he hf]
    rw [effect, hr] at he
    obtain ⟨e₀, h₀, rfl⟩ := Thread.step_runAsBackup.mp he
    obtain ⟨block, hb, h₁⟩ := Option.bind_eq_some_iff.mp h₀
    obtain rfl := Option.some.inj h₁
    simp [Effect.goto, Effect.map, hwaited args awaited hr]

/-- **The replicas survive the takeover if and only if** no backup of the old list has crashed
and none is added before the list is destroyed. In every run of the winner's takeover and its
listener, once every live backup has been processed, the condition is enough; and when the list
has been destroyed, it is necessary. -/
theorem replicas_survive_iff {r l : ℕ} {live : List ℤ} {s₀ s : Server} {joins : Joins}
    {actions : List Action} (hwon : s₀.Won r l) (hdistinct : live.Nodup)
    (hlive : ∀ id ∈ live, id ∈ s₀.shared.replicaList.map (·.id))
    (hok : Along (Server.stepWithJoins r) (fun p a => Server.reconnects r l live p a = true)
      (.none, s₀) actions)
    (hrun : run (Server.stepWithJoins r) (.none, s₀) actions = some (joins, s))
    (hdone : s.allProcessed l live joins = true) :
    (joins.early = false ∧ (∀ node ∈ s₀.shared.replicaList, node.id ∈ live) →
      s.Survived r live) ∧
    ((s.threads r).hasDestroyed = true → s.Survived r live →
      joins.early = false ∧ ∀ node ∈ s₀.shared.replicaList, node.id ∈ live) := by
  obtain ⟨args, winner, largs, listener, hr, hl, hs⟩ :=
    hok.invariant (I := Server.Taking r l live s₀.shared.replicaList)
      (fun _ _ _ hs hok hstep => hs.step hok hstep) hwon.taking hrun
  obtain ⟨hall, hidle⟩ : (∀ id ∈ live, id ∈ joins.registered) ∧ listener.isIdle = true := by
    simpa [Server.allProcessed, hl] using hdone
  have hperm : joins.registered.Perm live :=
    (List.perm_ext_iff_of_nodup hs.distinct hdistinct).mpr fun id =>
      ⟨hs.registered id, hall id⟩
  have hwinner : (s.threads r).hasDestroyed = winner.hasDestroyed := by rw [hr]; rfl
  have huncounted : listener.uncounted = 0 := by
    cases listener <;> simp_all [ReplicaListener.isIdle, ReplicaListener.uncounted]
  have hsub : live.Subperm (s₀.shared.replicaList.map (·.id)) :=
    List.subperm_of_subset hdistinct hlive
  have hlen : joins.registered.length = live.length := hperm.length_eq
  rw [hwinner]
  refine ⟨fun ⟨he, hcrash⟩ => ?_, fun hd hsurv => ?_⟩
  · have hold : (s₀.shared.replicaList.map (·.id)).Perm live := by
      refine (List.perm_ext_iff_of_nodup hwon.distinct hdistinct).mpr fun id => ⟨?_, hlive id⟩
      rw [List.mem_map]
      rintro ⟨node, hn, rfl⟩
      exact hcrash node hn
    have holdlen := hold.length_eq
    rw [List.length_map] at holdlen
    cases hd : winner.hasDestroyed with
    | true =>
        obtain ⟨before, hreg, hbefore⟩ := hs.lost hd
        rw [hbefore.mp he, List.append_nil] at hreg
        refine Server.survived_of_waited (hreg ▸ hperm) fun args' awaited hr' => ?_
        obtain ⟨-, rfl⟩ : args = args' ∧ winner = .awaitReplicas awaited := by simpa [hr] using hr'
        have hloaded := hs.loaded he awaited rfl
        have hcounted := hs.counted rfl he
        rw [hreg, List.length_map] at hlen
        omega
    | false =>
        have hnil : joins.registered = [] := by
          by_contra hne
          simp [(hs.early hd).mpr hne] at he
        obtain ⟨hlist, -⟩ := hs.untouched hd he
        refine Server.survived_of_waited (hlist ▸ hold) fun args' awaited hr' => ?_
        obtain ⟨-, rfl⟩ : args = args' ∧ winner = .awaitReplicas awaited := by simpa [hr] using hr'
        cases hd
  · obtain ⟨before, hreg, hbefore⟩ := hs.lost hd
    have hcount := hsurv.exact.length_eq
    have hnil : before = [] := by
      have hsum := congrArg List.length hreg
      rw [List.length_append] at hsum
      exact List.length_eq_zero_iff.mp (by omega)
    have he : joins.early = false := hbefore.mpr hnil
    have hle : s₀.shared.replicaList.length ≤ live.length := by
      cases hp : winner.hasPassed with
      | true => exact hlen ▸ hs.passed hp he
      | false =>
          obtain ⟨awaited, rfl⟩ : ∃ awaited, winner = .awaitReplicas awaited := by
            cases winner <;> simp_all [RunAsBackup.hasDestroyed, RunAsBackup.hasPassed]
          have hawaited := hsurv.waited args awaited hr
          have hloaded := hs.loaded he awaited rfl
          have hcounted := hs.counted rfl he
          rw [List.length_map] at hcount
          omega
    refine ⟨he, fun node hn => ?_⟩
    have hsame := hsub.perm_of_length_le (by simpa using hle)
    exact hsame.mem_iff.mpr (List.mem_map_of_mem hn)

/-! ## A takeover of two replicas, and one with a crashed replica -/

/-- The backup with id 3, which learns of the replicas 1 and 2 and wins an election. -/
def backupThree : Server :=
  .startBackup 3 (inetNtop ⟨127, 0, 0, 1⟩) 4003 100 ⟨127, 0, 0, 1⟩

def replicaAddedPacket (id port : ℤ) : Bytes :=
  serializeReplicaEvent (createReplicaAddedEvent id port ⟨⟨127, 0, 0, 1⟩, htons port⟩)

/-- Thread 2 hears of a replica and dials it. -/
def learnReplica (id port : ℤ) (socketfd : ℕ) : List Action :=
  [.run 2 (.packet 0 (replicaAddedPacket id port)) 9, .run 2 .none 9,
    .run 2 (.connected socketfd ⟨⟨127, 0, 0, 1⟩, htons port⟩) 9, .run 2 .none 9,
    .run 2 .none 9, .run 2 .none 9]

/-- Server 3 wins and thread 0 sends its COORDINATOR. -/
def winWithReplicas : List Action :=
  startUp ++ connectToManager ++ learnReplica 1 5001 11 ++ learnReplica 2 5002 12 ++
    winElection ++ [.run 0 .none 9, .run 0 .none 9, .run 0 .none 9, .run 0 .none 9]

/-- Thread 0 loads the counter and destroys the list. -/
def destroyOldList : List Action := [.run 0 .none 9, .run 0 .none 9]

/-- The listener adds a replica that reconnects. -/
def reconnect (id port : ℤ) (socketfd : ℕ) : List Action :=
  [.run 1 .none 9, .run 1 (.accepted socketfd ⟨⟨127, 0, 0, 1⟩, 50000⟩) 9, .run 1 .none 9,
    .run 1 (.registration (printPair id port) id port) 9, .run 1 .none 9, .run 1 .none 9,
    .run 1 (.closedSockets []) 9, .run 1 .none 9]

/-- `Won` from facts that can be computed. -/
theorem Server.won_of_threads {r l args : ℕ} {largs : ManagerArgs} {s : Server}
    (hr : s.threads r = .runAsBackup args .loadCount)
    (hl : s.threads l = .replicaListener largs .checkShutdown)
    (hm : s.shared.globalServerMode = .backupManager)
    (hc : s.shared.replicaCount = s.shared.replicaList.length)
    (hd : (s.shared.replicaList.map (·.id)).Nodup) : s.Won r l :=
  ⟨⟨args, hr⟩, ⟨largs, hl⟩, hm, hc, hd⟩

theorem both_replicas_survive :
    ∃ s₀ ∈ backupThree.run winWithReplicas, s₀.shared.replicaList.map (·.id) = [2, 1] ∧
      ∃ p ∈ run (Server.stepWithJoins 0) (.none, s₀)
        (destroyOldList ++ reconnect 1 5001 21 ++ reconnect 2 5002 22),
        p.2.Survived 0 [1, 2] := by
  have hcheck : ∃ s₀ ∈ backupThree.run winWithReplicas,
      (s₀.threads 0 = .runAsBackup 0 .loadCount ∧
        s₀.threads 1 = .replicaListener ⟨3, 4004, true⟩ .checkShutdown ∧
        s₀.shared.globalServerMode = .backupManager ∧
        s₀.shared.replicaCount = s₀.shared.replicaList.length) ∧
      s₀.shared.replicaList.map (·.id) = [2, 1] ∧
      Along (Server.stepWithJoins 0) (fun p a => Server.reconnects 0 1 [1, 2] p a = true)
        (.none, s₀) (destroyOldList ++ reconnect 1 5001 21 ++ reconnect 2 5002 22) ∧
      ∃ p ∈ run (Server.stepWithJoins 0) (.none, s₀)
        (destroyOldList ++ reconnect 1 5001 21 ++ reconnect 2 5002 22),
        p.2.allProcessed 1 [1, 2] p.1 = true ∧ p.1.early = false := by
    decide +kernel
  obtain ⟨s₀, hs₀, ⟨hr, hl, hm, hc⟩, hids, hok, ⟨joins, s⟩, hp, hdone, he⟩ := hcheck
  have hwon := Server.won_of_threads hr hl hm hc (by simp [hids])
  refine ⟨s₀, hs₀, hids, (joins, s), hp, ?_⟩
  refine (replicas_survive_iff hwon (by decide) (by simp [hids]) hok hp hdone).1 ⟨he, ?_⟩
  intro node hn
  have hmem : node.id ∈ s₀.shared.replicaList.map (·.id) := List.mem_map_of_mem hn
  rw [hids] at hmem
  revert hmem
  simp +contextual [or_imp]

/-- Replica 2 has crashed: replica 1 is added in order, and the winner waits for two. -/
theorem crashed_replica_blocks_takeover :
    ∃ s₀ ∈ backupThree.run winWithReplicas, s₀.Won 0 1 ∧
      s₀.shared.replicaList.map (·.id) = [2, 1] ∧
      Along (Server.stepWithJoins 0) (fun p a => Server.reconnects 0 1 [1] p a = true)
        (.none, s₀) (destroyOldList ++ reconnect 1 5001 21) ∧
      ∃ p ∈ run (Server.stepWithJoins 0) (.none, s₀) (destroyOldList ++ reconnect 1 5001 21),
        p.2.allProcessed 1 [1] p.1 = true ∧ ¬ p.2.Survived 0 [1] := by
  have hcheck : ∃ s₀ ∈ backupThree.run winWithReplicas,
      (s₀.threads 0 = .runAsBackup 0 .loadCount ∧
        s₀.threads 1 = .replicaListener ⟨3, 4004, true⟩ .checkShutdown ∧
        s₀.shared.globalServerMode = .backupManager ∧
        s₀.shared.replicaCount = s₀.shared.replicaList.length) ∧
      s₀.shared.replicaList.map (·.id) = [2, 1] ∧
      Along (Server.stepWithJoins 0) (fun p a => Server.reconnects 0 1 [1] p a = true)
        (.none, s₀) (destroyOldList ++ reconnect 1 5001 21) ∧
      ∃ p ∈ run (Server.stepWithJoins 0) (.none, s₀) (destroyOldList ++ reconnect 1 5001 21),
        p.2.allProcessed 1 [1] p.1 = true ∧
        p.2.threads 0 = .runAsBackup 0 (.awaitReplicas 2) ∧ p.2.shared.replicaCount = 1 := by
    decide +kernel
  obtain ⟨s₀, hs₀, ⟨hr, hl, hm, hc⟩, hids, hok, p, hp, hdone, hr', hcount⟩ := hcheck
  refine ⟨s₀, hs₀, Server.won_of_threads hr hl hm hc (by simp [hids]), hids, hok, p, hp, hdone,
    fun hsurv => ?_⟩
  have hwait := hsurv.waited 0 2 hr'
  omega

end SyncServer
