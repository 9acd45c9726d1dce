import SyncServer.Server.Writers

/-! # The id of a server and its listener

All threads and blocks of arguments of a server carry its id. Only the thread that `main`
starts binds the listener, and it does so once; its block keeps the port it asked for.
-/

namespace SyncServer

open CText

/-! ## Ids -/

/-- The id that a thread was given. -/
def Thread.id? : Thread → Option ℤ
  | unused => none
  | runElection id _ => some id
  | heartbeatMonitor id _ => some id
  | electionListener _ id _ => some id
  | runAsBackup _ _ => none
  | connectToServer _ id _ _ => some id
  | manageReplicas args _ => some args.id
  | replicaListener args _ => some args.id

/-- The server is known by the id `i` to all its threads. -/
structure Server.Identified (s : Server) (i : ℤ) : Prop where
  threads : ∀ t, ∀ id ∈ (s.threads t).id?, id = i
  blocks : ∀ p, ∀ block ∈ s.shared.backupArgs p, block.id = i
  isInt : ∀ t, s.threads t ≠ .unused → IsInt i
  listens : s.shared.listenerSocket ≠ none → IsInt i

section Step

variable {sh : Shared} {isExited : ℕ → Bool} {input : Input} {fresh : ℕ} {thread : Thread}
  {e : Effect Thread}

theorem Thread.id?_next (h : thread.step sh isExited input fresh = some e) :
    e.next.id? = thread.id? := by
  cases thread with
  | unused => cases h
  | _ =>
      obtain ⟨e₀, -, rfl⟩ := Option.map_eq_some_iff.mp h
      rfl

/-- A created thread has the id of its creator or of the block that it is created from. -/
theorem Thread.id?_created {created : Thread} {id : ℤ}
    (h : thread.step sh isExited input fresh = some e) (hc : e.created = some created)
    (hid : id ∈ created.id?) :
    id ∈ thread.id? ∨ ∃ p, ∃ block ∈ sh.backupArgs p, id = block.id := by
  cases created_cases h hc with
  | backup socket id leader address => cases hid
  | backupListener hb | connection hb | monitor hb | manager hb =>
      exact .inr ⟨_, _, hb, (Option.some.inj hid).symm⟩
  | _ => exact .inl hid

/-! ## The listener -/

/-- The places of `run_as_backup` up to the binding of the listener. -/
def RunAsBackup.isEarly : RunAsBackup → Bool
  | storeMode => true
  | storeHeartbeat => true
  | bindListener => true
  | _ => false

/-- The thread is about to bind the listener. -/
def Thread.binds : Thread → Bool
  | runAsBackup _ .bindListener => true
  | manageReplicas _ .bindListener => true
  | _ => false

/-- The thread is on its way to bind the listener. -/
def Thread.willBind (sh : Shared) : Thread → Bool
  | runAsBackup args place =>
      place.isEarly && (place = .bindListener || (sh.backupArgs args).any (!·.hasListener))
  | manageReplicas args place =>
      match place with
      | .bindListener => true
      | .storeMode | .storeHeartbeat | .loadDecided | .clearDecided => !args.hasListener
      | _ => false
  | _ => false

/-- The block whose port a thread may announce. -/
def Thread.announces : Thread → Option ℕ
  | runAsBackup args place => if place.isEarly then none else some args
  | connectToServer args _ _ _ => some args
  | _ => none

/-- The listener is bound at most once, by the thread that `main` starts, and the block of that
thread has the port. -/
structure Server.Listening (s : Server) : Prop where
  first : ∀ p, ∀ block ∈ s.shared.backupArgs p, block.hasListener = false →
    p = 0 ∧ ∃ place, s.threads 0 = .runAsBackup 0 place
  unbound : ∀ t, (s.threads t).willBind s.shared = true → t = 0 ∧ s.shared.listenerSocket = none
  bound : ∀ p, ∀ block ∈ s.shared.backupArgs p, block.hasListener = false →
    ∀ port ∈ s.shared.listenerSocket, block.listenerPort = port.toNat
  announcing : ∀ t, ∀ args ∈ (s.threads t).announces, ∀ block ∈ s.shared.backupArgs args,
    block.hasListener = false → s.shared.listenerSocket ≠ none

theorem Thread.willBind_of_binds (h : thread.binds = true) : thread.willBind sh = true := by
  cases thread with
  | runAsBackup args place => cases place <;> simp_all [binds, willBind, RunAsBackup.isEarly]
  | manageReplicas args place => cases place <;> simp_all [binds, willBind]
  | _ => cases h

/-- Only `bind` changes the port of the listener. -/
theorem Thread.step_listenerSocket (h : thread.step sh isExited input fresh = some e) :
    e.shared.listenerSocket = sh.listenerSocket ∨ thread.binds = true := by
  rcases step_frame h with hchange | ⟨-, hsame, -⟩
  · cases hchange with
    | createBackup socket id leader address =>
        obtain ⟨e₀, h₀, rfl⟩ := step_electionListener.mp h
        left
        simp only [ElectionListener.step] at h₀
        grind [Effect.map]
    | bindBackup args => exact .inr rfl
    | cleanUp args =>
        obtain ⟨e₀, h₀, rfl⟩ := step_runAsBackup.mp h
        obtain ⟨block, hb, h₁⟩ := Option.bind_eq_some_iff.mp h₀
        obtain rfl := Option.some.inj h₁
        exact .inl rfl
    | dialReplica args id port socketfd peer closed held =>
        obtain ⟨e₀, h₀, rfl⟩ := step_connectToServer.mp h
        left
        simp only [ConnectToServer.step, Effect.goto] at h₀
        grind [Effect.map]
    | bindManager args => exact .inr rfl
    | addReplica args held =>
        obtain ⟨e₀, h₀, rfl⟩ := step_replicaListener.mp h
        left
        simp only [ReplicaListener.step, Effect.goto] at h₀
        grind [Effect.map]
  · exact .inl hsame

/-- A thread on its way to the binding was on it before, and has not bound yet. -/
theorem Thread.willBind_next (h : thread.step sh isExited input fresh = some e)
    (hn : e.next.willBind e.shared = true) : thread.willBind sh = true ∧ thread.binds = false := by
  cases hnext : e.next with
  | runAsBackup args place =>
      obtain ⟨place₀, e₀, rfl, h₀, rfl, rfl⟩ := next_runAsBackup h hnext
      obtain ⟨block, hb, h₁⟩ := Option.bind_eq_some_iff.mp h₀
      rw [hnext] at hn
      change Thread.willBind e₀.shared (runAsBackup args e₀.next) = true at hn
      cases place₀
      case storeMode =>
        obtain rfl := Option.some.inj h₁
        exact ⟨by simpa [willBind, RunAsBackup.isEarly, Effect.goto] using hn, rfl⟩
      case storeHeartbeat =>
        obtain rfl := Option.some.inj h₁
        refine ⟨?_, rfl⟩
        by_cases hl : block.hasListener = true
        · simp [willBind, RunAsBackup.isEarly, Effect.goto, hl] at hn
        · simp [willBind, RunAsBackup.isEarly, hb, hl]
      all_goals
        have hlate : e₀.next.isEarly = false := by
          simp only [Effect.goto] at h₁
          grind [RunAsBackup.isEarly]
        simp [willBind, hlate] at hn
  | manageReplicas args place =>
      obtain ⟨place₀, e₀, rfl, h₀, rfl, rfl⟩ := next_manageReplicas h hnext
      rw [hnext] at hn
      cases place₀ <;>
        simp only [ManageReplicas.step, ManageReplicas.afterDecided, Effect.goto] at h₀ <;>
        grind [willBind.eq_def, binds.eq_def]
  | _ => simp [hnext, willBind] at hn

theorem Thread.willBind_created {created : Thread}
    (h : thread.step sh isExited input fresh = some e) (hc : e.created = some created) :
    created.willBind e.shared = false := by
  cases created_cases h hc with
  | backup socket id leader address =>
      obtain ⟨_, _, _, _, _, -, -, -, -, -, hargs⟩ := created_runAsBackup h hc
      simp [willBind, hargs, coordinatorArgs]
  | _ => rfl

/-- A block without a listener was there before, without one. -/
theorem Thread.hasListener_step (h : thread.step sh isExited input fresh = some e) {p : ℕ}
    {block : BackupArgs} (hb : block ∈ e.shared.backupArgs p) (hl : block.hasListener = false) :
    ∃ block₀ ∈ sh.backupArgs p, block₀.hasListener = false ∧
      (block = block₀ ∨ thread = .runAsBackup p .bindListener) := by
  have hchange := step_backupArgs h p
  generalize e.shared.backupArgs p = new at hb hchange
  cases hchange with
  | same => exact ⟨block, hb, hl, .inl rfl⟩
  | filled socket id leader address prior hthread hp =>
      obtain rfl := Option.some.inj hb
      cases hl
  | bound block₀ port actual hthread hblock hport =>
      obtain rfl := Option.some.inj hb
      exact ⟨block₀, hblock, hl, .inr hthread⟩
  | freed => cases hb

theorem Thread.willBind_other (h : thread.step sh isExited input fresh = some e) {other : Thread}
    (ho : other.willBind e.shared = true) : other.willBind sh = true := by
  cases other with
  | runAsBackup args place =>
      simp only [willBind, Bool.and_eq_true, Bool.or_eq_true, decide_eq_true_eq,
        Option.any_eq_true, Bool.not_eq_true'] at ho ⊢
      refine ⟨ho.1, ho.2.imp_right ?_⟩
      rintro ⟨block, hb, hl⟩
      obtain ⟨block₀, hb₀, hl₀, -⟩ := hasListener_step h hb hl
      exact ⟨block₀, hb₀, hl₀⟩
  | _ => exact ho

/-- A thread comes to announce the port after it has bound it, or with a block that has a
listener. -/
theorem Thread.announces_next {args : ℕ} (h : thread.step sh isExited input fresh = some e)
    (hn : args ∈ e.next.announces) :
    args ∈ thread.announces ∨ thread = .runAsBackup args .bindListener ∨
      thread = .runAsBackup args .storeHeartbeat ∧
        ∀ block ∈ sh.backupArgs args, block.hasListener = true := by
  cases hnext : e.next with
  | connectToServer args₀ id port place =>
      obtain ⟨place₀, e₀, rfl, -, -, -⟩ := next_connectToServer h hnext
      rw [hnext] at hn
      exact .inl hn
  | runAsBackup args₀ place =>
      obtain ⟨place₀, e₀, rfl, h₀, rfl, rfl⟩ := next_runAsBackup h hnext
      rw [hnext] at hn
      by_cases hearly : place₀.isEarly = true
      · obtain ⟨hlate, rfl⟩ : e₀.next.isEarly = false ∧ args₀ = args := by
          simpa [announces] using hn
        obtain ⟨block, hb, h₁⟩ := Option.bind_eq_some_iff.mp h₀
        cases place₀
        case storeMode =>
          obtain rfl := Option.some.inj h₁
          cases hlate
        case storeHeartbeat =>
          obtain rfl := Option.some.inj h₁
          refine .inr (.inr ⟨rfl, fun block' hb' => ?_⟩)
          obtain rfl : block = block' := Option.some.inj (hb.symm.trans hb')
          by_contra hl
          simp [Effect.goto, hl, RunAsBackup.isEarly] at hlate
        case bindListener => exact .inr (.inl rfl)
        all_goals cases hearly
      · have hargs : args₀ = args := by
          by_contra hne
          simp only [announces] at hn
          split at hn
          · cases hn
          · exact hne (Option.some.inj hn)
        exact .inl (by simp [announces, hearly, hargs])
  | _ => simp [hnext, announces] at hn

theorem Thread.announces_created {created : Thread} {args : ℕ}
    (h : thread.step sh isExited input fresh = some e) (hc : e.created = some created)
    (hn : args ∈ created.announces) : args ∈ thread.announces := by
  cases created_cases h hc with
  | connection hb => exact hn
  | backup socket id leader address => simp [announces, RunAsBackup.isEarly] at hn
  | _ => cases hn

/-- Where a backup binds its listener, the block gets the port that was asked for. -/
theorem Thread.bindListener_step {args : ℕ}
    (h : (runAsBackup args .bindListener).step sh isExited input fresh = some e) :
    ∃ block port actual, sh.backupArgs args = some block ∧ input = .bound port actual ∧
      BindResult (block.port + 1) port actual ∧ e.shared.listenerSocket = some actual ∧
      e.shared.backupArgs = Function.update sh.backupArgs args
        (some { block with listenerPort := port }) := by
  obtain ⟨e₀, h₀, rfl⟩ := step_runAsBackup.mp h
  obtain ⟨block, hb, h₁⟩ := Option.bind_eq_some_iff.mp h₀
  simp only at h₁
  split at h₁
  · split at h₁
    · rename_i port actual hport
      obtain rfl := Option.some.inj h₁
      exact ⟨block, port, actual, hb, rfl, hport, rfl, rfl⟩
    · cases h₁
  · cases h₁

end Step

/-! ## Whole runs -/

/-- A 16-bit port that is asked for is the port that is bound. -/
theorem BindResult.port_eq {wanted port : ℤ} {actual : UInt16} (h : BindResult wanted port actual)
    (hport : 0 < port ∧ port < 65536) : port = actual.toNat := by
  have hnat : (htons port).toNat = port.toNat := by
    rw [htons, UInt16.toNat_ofNat']
    omega
  have hne : htons port ≠ 0 := by
    intro h0
    rw [h0] at hnat
    simp at hnat
    omega
  rw [h.2.2 hne, hnat]
  omega

/-- A backup that binds its listener asks for a 16-bit port. -/
def Server.bindsRealPort (s : Server) : Action → Bool
  | .tick => true
  | .run tid input _ =>
      match s.threads tid, input with
      | .runAsBackup _ .bindListener, .bound port _ => 0 < port ∧ port < 65536
      | _, _ => true

variable {s s' : Server} {tid fresh : ℕ} {input : Input} {i : ℤ}

theorem Server.Identified.step {a : Action} (hs : s.Identified i) (h : s.step a = some s') :
    s'.Identified i := by
  cases a with
  | tick =>
      obtain rfl := step_tick h
      exact ⟨hs.threads, hs.blocks, hs.isInt, hs.listens⟩
  | run tid input fresh =>
      refine ⟨?_, ?_, ?_, ?_⟩
      · refine forall_threads (P := fun _ thread => ∀ id ∈ thread.id?, id = i) h ?_ ?_ ?_
        · intro e he id hid
          rw [Thread.id?_next he] at hid
          exact hs.threads tid id hid
        · intro e thread he hc id hid
          rcases Thread.id?_created he hc hid with hid | ⟨p, block, hb, rfl⟩
          · exact hs.threads tid id hid
          · exact hs.blocks p block hb
        · exact fun e t _ _ => hs.threads t
      · obtain ⟨e, he, -, rfl⟩ := step_run h
        intro p block hb
        have hchange := Thread.step_backupArgs he p
        change block ∈ e.shared.backupArgs p at hb
        generalize e.shared.backupArgs p = new at hb hchange
        cases hchange with
        | same => exact hs.blocks p block hb
        | filled socket id leader address prior hthread hp =>
            obtain rfl := Option.some.inj hb
            exact hs.threads tid id (by rw [hthread]; rfl)
        | bound block₀ port actual hthread hblock hport =>
            obtain rfl := Option.some.inj hb
            exact hs.blocks p block₀ hblock
        | freed => cases hb
      · obtain ⟨e, he, -, rfl⟩ := step_run h
        exact fun _ _ => hs.isInt tid (ne_unused_of_effect he)
      · obtain ⟨e, he, -, rfl⟩ := step_run h
        exact fun _ => hs.isInt tid (ne_unused_of_effect he)

/-- A bound listener stays where it is. -/
theorem Server.Listening.listenerSocket {a : Action} {port : UInt16} (hs : s.Listening)
    (h : s.step a = some s') (hp : s.shared.listenerSocket = some port) :
    s'.shared.listenerSocket = some port := by
  cases a with
  | tick =>
      obtain rfl := step_tick h
      exact hp
  | run tid input fresh =>
      obtain ⟨e, he, -, rfl⟩ := step_run h
      rcases Thread.step_listenerSocket he with heq | hb
      · exact heq.trans hp
      · have hu := (hs.unbound tid (Thread.willBind_of_binds hb)).2
        simp [hp] at hu

theorem Server.Listening.step {a : Action} (hs : s.Listening) (ha : s.bindsRealPort a = true)
    (h : s.step a = some s') : s'.Listening := by
  have hkeep : ∀ port, s.shared.listenerSocket = some port →
      s'.shared.listenerSocket = some port := fun _ hp => hs.listenerSocket h hp
  cases a with
  | tick =>
      obtain rfl := step_tick h
      exact ⟨hs.first, hs.unbound, hs.bound, hs.announcing⟩
  | run tid input fresh =>
      have hstep := h
      obtain ⟨e, he, hf, rfl⟩ := step_run h
      -- the blocks without a listener are those of before
      have hblocks : ∀ p, ∀ block ∈ e.shared.backupArgs p, block.hasListener = false →
          ∃ block₀ ∈ s.shared.backupArgs p, block₀.hasListener = false ∧
            (block = block₀ ∨ s.threads tid = .runAsBackup p .bindListener) :=
        fun p block hb hl => Thread.hasListener_step he hb hl
      refine ⟨?_, ?_, ?_, ?_⟩
      · intro p block hb hl
        obtain ⟨block₀, hb₀, hl₀, -⟩ := hblocks p block hb hl
        obtain ⟨rfl, place, hplace⟩ := hs.first p block₀ hb₀ hl₀
        refine ⟨rfl, ?_⟩
        by_cases ht : tid = 0
        · subst ht
          rw [Server.effect, hplace] at he
          obtain ⟨e₀, -, rfl⟩ := Thread.step_runAsBackup.mp he
          exact ⟨e₀.next, Server.place_self (by rw [Server.effect, hplace]; exact he) hf⟩
        · exact ⟨place, (Server.place_of_ne he hf (Ne.symm ht) (by simp [hplace])).trans hplace⟩
      · have hsocket : ∀ t, (s.threads t).willBind s.shared = true →
            (t = tid → (s.threads tid).binds = false) →
            t = 0 ∧ e.shared.listenerSocket = none := by
          intro t ht hne
          obtain ⟨rfl, hnone⟩ := hs.unbound t ht
          rcases Thread.step_listenerSocket he with heq | hb
          · exact ⟨rfl, heq.trans hnone⟩
          · have h0 := (hs.unbound tid (Thread.willBind_of_binds hb)).1
            simp [hne h0.symm] at hb
        intro t ht
        change (s.place tid fresh e t).willBind e.shared = true at ht
        rcases Server.place_cases he hf t with ⟨rfl, heq⟩ | ⟨-, rfl, -, hc⟩ | ⟨hne, heq⟩
        · rw [heq] at ht
          obtain ⟨hw, hb⟩ := Thread.willBind_next he ht
          exact hsocket t hw fun _ => hb
        · rw [Thread.willBind_created he hc] at ht
          cases ht
        · rw [heq] at ht
          exact hsocket t (Thread.willBind_other he ht) fun h => absurd h hne
      · intro p block hb hl port hport
        obtain ⟨block₀, hb₀, hl₀, hcase⟩ := hblocks p block hb hl
        by_cases hbind : s.threads tid = .runAsBackup p .bindListener
        · rw [Server.effect, hbind] at he
          obtain ⟨block₁, wanted, actual, -, rfl, hbound, hsock, hargs⟩ :=
            Thread.bindListener_step he
          obtain rfl : actual = port := Option.some.inj (hsock.symm.trans hport)
          obtain rfl : _ = block := by simpa [hargs] using hb
          exact hbound.port_eq (by simpa [bindsRealPort, hbind] using ha)
        · obtain rfl := hcase.resolve_right hbind
          rcases Thread.step_listenerSocket he with heq | hbinds
          · exact hs.bound p block hb₀ hl₀ port (heq ▸ hport)
          · -- the binding thread is the first one, which has this block
            obtain ⟨rfl, -⟩ := hs.unbound tid (Thread.willBind_of_binds hbinds)
            obtain ⟨rfl, place, hplace⟩ := hs.first p block hb₀ hl₀
            rw [hplace] at hbinds hbind
            cases place <;> simp_all [Thread.binds]
      · have hsome : ∀ t, ∀ args ∈ (s.threads t).announces, ∀ block ∈ e.shared.backupArgs args,
            block.hasListener = false → e.shared.listenerSocket ≠ none := by
          intro t args hargs block hb hl
          obtain ⟨block₀, hb₀, hl₀, -⟩ := hblocks args block hb hl
          obtain ⟨port, hport⟩ :=
            Option.ne_none_iff_exists'.mp (hs.announcing t args hargs block₀ hb₀ hl₀)
          exact Option.ne_none_iff_exists'.mpr ⟨port, hkeep port hport⟩
        refine forall_threads (P := fun sh thread => ∀ args ∈ thread.announces,
          ∀ block ∈ sh.backupArgs args, block.hasListener = false → sh.listenerSocket ≠ none)
          hstep ?_ ?_ ?_
        · intro e' he' args hargs block hb hl
          obtain rfl : e = e' := Option.some.inj (he.symm.trans he')
          rcases Thread.announces_next he hargs with hold | hbind | ⟨-, hall⟩
          · exact hsome tid args hold block hb hl
          · rw [Server.effect, hbind] at he
            obtain ⟨_, _, actual, -, -, -, hsock, -⟩ := Thread.bindListener_step he
            simp [hsock]
          · obtain ⟨block₀, hb₀, hl₀, -⟩ := hblocks args block hb hl
            simp [hall block₀ hb₀] at hl₀
        · intro e' thread he' hc args hargs block hb hl
          obtain rfl : e = e' := Option.some.inj (he.symm.trans he')
          exact hsome tid args (Thread.announces_created he hc hargs) block hb hl
        · intro e' t he' _ args hargs block hb hl
          obtain rfl : e = e' := Option.some.inj (he.symm.trans he')
          exact hsome t args hargs block hb hl

theorem Server.StartsAs.identified {id : ℤ} (h : s.StartsAs id) : s.Identified id := by
  cases h with
  | backup _ managerIp managerPort time serverAddr hid hport =>
      refine ⟨fun t => ?_, fun p block hb => ?_, fun _ _ => hid.2, fun _ => hid.2⟩
      · by_cases ht : t = 0 <;> simp [startBackup, ht, Thread.id?]
      · by_cases hp : p = 0
        · subst hp
          simp only [startBackup, Shared.initial, Function.update_self] at hb
          simp [← Option.some.inj hb]
        · simp [startBackup, Shared.initial, hp] at hb
  | manager _ port time serverAddr hid =>
      refine ⟨fun t => ?_, fun p block hb => ?_, fun _ _ => hid.2, fun _ => hid.2⟩
      · by_cases ht : t = 0 <;> simp [startManager, ht, Thread.id?]
      · cases hb

theorem Server.StartsAs.listening {id : ℤ} (h : s.StartsAs id) : s.Listening := by
  cases h with
  | backup _ managerIp managerPort time serverAddr hid hport =>
      have hzero : ∀ p, ∀ block ∈ (startBackup id managerIp managerPort time
          serverAddr).shared.backupArgs p, p = 0 := by
        intro p block hb
        by_contra hp
        simp [startBackup, Shared.initial, hp] at hb
      refine ⟨fun p block hb _ => ⟨hzero p block hb, .storeMode, rfl⟩, fun t ht => ?_,
        fun _ _ _ _ port hbound => absurd hbound (Option.not_mem_none port),
        fun t args ha => ?_⟩
      · by_cases h0 : t = 0
        · exact ⟨h0, rfl⟩
        · simp [startBackup, h0, Thread.willBind] at ht
      · by_cases h0 : t = 0 <;>
          simp [startBackup, h0, Thread.announces, RunAsBackup.isEarly] at ha
  | manager _ port time serverAddr hid =>
      refine ⟨fun _ block hb => absurd hb (Option.not_mem_none block), fun t ht => ?_,
        fun _ block hb => absurd hb (Option.not_mem_none block), fun t args ha => ?_⟩
      · by_cases h0 : t = 0
        · exact ⟨h0, rfl⟩
        · simp [startManager, h0, Thread.willBind] at ht
      · by_cases h0 : t = 0 <;> simp [startManager, h0, Thread.announces] at ha

end SyncServer
