import SyncServer.Failover.Monitored

/-! # Does a backup follow one manager at a time?

A COORDINATOR starts a connection to the new leader. The connections that exist already stay:
their threads look at the mode and at their own socket, not at `new_leader_decided`.
-/

namespace SyncServer

open CText Transition

/-- The leader of the last COORDINATOR: the block of arguments made for it, and its address. -/
abbrev Leader := Option (ℕ × SockAddrIn)

/-- The observer of the handled COORDINATOR messages. -/
def leaderAfter (leader : Leader) (s : Server) : Action → Leader
  | .tick => leader
  | .run tid _ fresh =>
      match s.threads tid with
      | .electionListener _ _ (.createBackup _ address) => some (fresh, address)
      | _ => leader

/-- A server with the observer of its leader. -/
abbrev Server.stepWithLeader : Leader × Server → Action → Option (Leader × Server) :=
  watch leaderAfter Server.step

/-- The peer of the connection on which the thread has received an event that it still
applies. -/
def ConnectToServer.appliesFrom : ConnectToServer → Option SockAddrIn
  | apply _ peer _ _ => some peer
  | dialReplica _ peer _ _ => some peer
  | countReplica _ peer _ => some peer
  | _ => none

def Thread.appliesFrom : Thread → Option SockAddrIn
  | connectToServer _ _ _ place => place.appliesFrom
  | _ => none

/-- An event is applied only if it came from the leader. -/
def Server.FollowsLeader : Leader × Server → Action → Prop
  | (some (_, address), s), .run tid _ _ => ∀ peer ∈ (s.threads tid).appliesFrom, peer = address
  | _, _ => True

/-- The connections to other servers are done with their events when a COORDINATOR is handled
and deliver none afterwards; the text of the new leader's address ends within the buffer, and
the new connection is made before its arguments are freed. -/
def Server.OldLeadersSilent : Leader × Server → Action → Prop
  | (_, _), .tick => True
  | (leader, s), .run tid input _ =>
      match s.threads tid with
      | .electionListener _ _ (.createBackup _ address) =>
          (∀ t, ∀ peer ∈ (s.threads t).appliesFrom, peer = address) ∧
          ((inetNtop address.sinAddr).length < 15 ∨
            ∀ prior, input = .memory prior → prior[15]? = some 0)
      | .connectToServer args _ _ (.receive _ peer _) =>
          ∀ p address, leader = some (p, address) → args ≠ p → peer ≠ address →
            ∀ writer payload, input ≠ .packet writer payload
      | .connectToServer args _ _ (.connect _) =>
          ∀ p address, leader = some (p, address) → args = p → s.shared.backupArgs args ≠ none
      | _ => True

/-! ## The hostname of the new leader -/

/-- The copied hostname is the text of the address, unless it fills the 15 bytes and the
buffer goes on with something else. -/
theorem copyHostname_inetNtop {prior : Bytes} {address : InAddr}
    (h : (inetNtop address).length < 15 ∨ prior[15]? = some 0) :
    copyHostname prior (inetNtop address) = inetNtop address := by
  set ip := inetNtop address with hip
  have hle : ip.length ≤ 15 := length_inetNtop_le address
  have hcopy : strncpy prior ip 15 =
      ip ++ (List.replicate (15 - ip.length) 0 ++ prior.drop 15) := by
    rw [strncpy, List.take_append, List.take_of_length_le hle, List.append_assoc,
      List.take_replicate, min_eq_left (by omega)]
  have hzero : ∀ c ∈ ip, (c != 0) = true := by
    intro c hc
    simpa using fun h0 : c = 0 => zero_not_mem_inetNtop address (hip ▸ h0 ▸ hc)
  -- the byte behind the address is zero
  obtain ⟨rest, hrest⟩ : ∃ rest,
      List.replicate (15 - ip.length) (0 : UInt8) ++ prior.drop 15 = 0 :: rest := by
    by_cases hlt : ip.length < 15
    · obtain ⟨k, hk⟩ : ∃ k, 15 - ip.length = k + 1 := ⟨14 - ip.length, by omega⟩
      exact ⟨_, by rw [hk, List.replicate_succ, List.cons_append]⟩
    · have h0 : prior[15]? = some 0 := h.resolve_left hlt
      have hk : 15 - ip.length = 0 := by omega
      obtain ⟨h15, h0⟩ := List.getElem?_eq_some_iff.mp h0
      exact ⟨prior.drop 16, by simp [hk, List.drop_eq_getElem_cons h15, h0]⟩
  obtain ⟨k, hk⟩ : ∃ k, 255 - ip.length = k + 1 := ⟨254 - ip.length, by omega⟩
  rw [copyHostname, hcopy, List.set_append_right _ _ (by omega), hrest, hk, List.set_cons_succ,
    cString, takeWhile_append_stops hzero (by simp)]

/-! ## Connections and their blocks of arguments -/

/-- The block of arguments of a thread. -/
def Thread.args? : Thread → Option ℕ
  | runAsBackup args _ => some args
  | connectToServer args _ _ _ => some args
  | _ => none

/-- The server that a connection is made to. -/
def ConnectToServer.peer? : ConnectToServer → Option SockAddrIn
  | register _ peer _ | loadRunning _ peer _ | checkMode _ peer _ | receive _ peer _
  | apply _ peer _ _ | dialReplica _ peer _ _ | countReplica _ peer _ => some peer
  | _ => none

theorem ConnectToServer.peer?_of_appliesFrom {place : ConnectToServer} {peer : SockAddrIn}
    (h : place.appliesFrom = some peer) : place.peer? = some peer := by
  cases place <;> simp_all [appliesFrom, peer?]

section Step

variable {sh : Shared} {isExited : ℕ → Bool} {input : Input} {fresh : ℕ} {thread : Thread}
  {e : Effect Thread}

/-- A thread keeps its block of arguments. -/
theorem Thread.args?_next (h : thread.step sh isExited input fresh = some e) :
    e.next.args? = thread.args? := by
  cases thread <;> simp only [step, Option.map_eq_some_iff, reduceCtorEq] at h <;>
    obtain ⟨e₀, -, rfl⟩ := h <;> rfl

theorem Thread.next_ne_unused (h : thread.step sh isExited input fresh = some e) :
    e.next ≠ .unused := by
  cases thread <;> simp only [step, Option.map_eq_some_iff, reduceCtorEq] at h <;>
    obtain ⟨e₀, -, rfl⟩ := h <;> intro hn <;> cases hn

/-- A created thread gets the block of its creator or the new one. -/
theorem Thread.args?_created {created : Thread} {args : ℕ}
    (h : thread.step sh isExited input fresh = some e) (hc : e.created = some created)
    (ha : created.args? = some args) :
    thread.args? = some args ∨ created = .runAsBackup fresh .storeMode ∧ args = fresh := by
  cases created_cases h hc with
  | connection hb => exact .inl ha
  | backup socket id leader address => exact .inr ⟨rfl, (Option.some.inj ha).symm⟩
  | _ => cases ha

/-- A connection is created by `run_as_backup` from its own block. -/
theorem Thread.created_connectToServer {args : ℕ} {id port : ℤ} {place : ConnectToServer}
    (h : thread.step sh isExited input fresh = some e)
    (hc : e.created = some (.connectToServer args id port place)) :
    ∃ block, sh.backupArgs args = some block ∧ id = block.id ∧ port = block.port ∧
      place = .checkExit false ∧ thread = .runAsBackup args .createConnection := by
  cases created_cases h hc with
  | connection hb => exact ⟨_, hb, rfl, rfl, rfl, rfl⟩

/-- A connection keeps its peer from `connect` on. -/
theorem ConnectToServer.peer?_next {args : ℕ} {id port : ℤ} {place : ConnectToServer}
    {e₀ : Effect ConnectToServer} {peer : SockAddrIn}
    (h : place.step args id port sh input = some e₀) (hp : e₀.next.peer? = some peer) :
    place.peer? = some peer ∨ ∃ closed, place = .connect closed ∧ sh.DialsTo args port peer := by
  cases place <;> simp only [ConnectToServer.step, Effect.goto] at h <;>
    grind [peer?, Option.map_eq_some_iff]

/-- Events come from a packet on the connection. -/
theorem ConnectToServer.appliesFrom_next {args : ℕ} {id port : ℤ} {place : ConnectToServer}
    {e₀ : Effect ConnectToServer} {peer : SockAddrIn}
    (h : place.step args id port sh input = some e₀) (hp : e₀.next.appliesFrom = some peer) :
    place.appliesFrom = some peer ∨ ∃ socketfd closed writer payload,
      place = .receive socketfd peer closed ∧ input = .packet writer payload := by
  cases place <;> simp only [ConnectToServer.step, Effect.goto] at h <;>
    grind [appliesFrom, Option.map_eq_some_iff]

end Step

/-! ## The connection to the leader -/

/-- The blocks in use belong to threads in use, the leader's block and connections name the
leader, and no connection to another server has an event in hand. -/
structure Server.Guided (leader : Leader) (s : Server) : Prop where
  used : ∀ t args, (s.threads t).args? = some args → s.threads args ≠ .unused
  leaderUsed : ∀ p address, leader = some (p, address) → s.threads p ≠ .unused
  block : ∀ p address, leader = some (p, address) → ∀ block, s.shared.backupArgs p = some block →
    block.hostname = inetNtop address.sinAddr ∧ block.port = address.sinPort.toNat
  connection : ∀ p address, leader = some (p, address) → ∀ t id port place,
    s.threads t = .connectToServer p id port place →
      port = address.sinPort.toNat ∧ ∀ peer, place.peer? = some peer → peer = address
  silent : ∀ p address, leader = some (p, address) → ∀ t args id port place,
    s.threads t = .connectToServer args id port place → args ≠ p →
      ∀ peer, place.appliesFrom = some peer → peer = address

section Run

variable {leader : Leader} {s s' : Server} {tid fresh : ℕ} {input : Input} {e : Effect Thread}

/-- A thread in use stays in use. -/
theorem Server.place_ne_unused {t : ℕ} (ht : s.threads t ≠ .unused)
    (he : s.effect tid input fresh = some e) (hf : e.created = none ∨ s.threads fresh = .unused) :
    s.place tid fresh e t ≠ .unused := by
  rcases place_cases he hf t with ⟨rfl, heq⟩ | ⟨-, -, hu, -⟩ | ⟨-, heq⟩
  · rw [heq]
    exact Thread.next_ne_unused he
  · exact absurd hu ht
  · rwa [heq]

theorem Server.Guided.used_place (hs : s.Guided leader) (he : s.effect tid input fresh = some e)
    (hf : e.created = none ∨ s.threads fresh = .unused) (t args : ℕ)
    (ha : (s.place tid fresh e t).args? = some args) : s.place tid fresh e args ≠ .unused := by
  rcases place_cases he hf t with ⟨rfl, heq⟩ | ⟨-, rfl, -, hc⟩ | ⟨-, heq⟩
  · rw [heq, Thread.args?_next he] at ha
    exact place_ne_unused (hs.used t args ha) he hf
  · rcases Thread.args?_created he hc ha with ha | ⟨hback, rfl⟩
    · exact place_ne_unused (hs.used tid args ha) he hf
    · rw [hback]
      nofun
  · rw [heq] at ha
    exact place_ne_unused (hs.used t args ha) he hf

/-- The step that handles a COORDINATOR: the new leader's block is filled, and none of the
connections is the new leader's. -/
theorem Server.Guided.handle {socket : ℕ} {id l : ℤ} {address : SockAddrIn}
    (hs : s.Guided leader) (he : s.effect tid input fresh = some e)
    (hf : e.created = none ∨ s.threads fresh = .unused)
    (htid : s.threads tid = .electionListener socket id (.createBackup l address))
    (hok : OldLeadersSilent (leader, s) (.run tid input fresh)) :
    Guided (some (fresh, address)) ⟨e.shared, s.place tid fresh e⟩ := by
  have hc : e.created = some (.runAsBackup fresh .storeMode) := by
    rw [Thread.step_created he, htid]
    rfl
  obtain ⟨_, _, _, _, prior, hthread, hin, -, -, hnext, hbs⟩ := Thread.created_runAsBackup he hc
  obtain ⟨rfl, rfl, rfl, rfl⟩ := by simpa [htid] using hthread
  have hfu : s.threads fresh = .unused := hf.resolve_left (by simp [hc])
  simp only [OldLeadersSilent, htid] at hok
  obtain ⟨hsilent, hhost⟩ := hok
  -- every connection of the new state is one of the old state
  have hold : ∀ t args id port place,
      s.place tid fresh e t = .connectToServer args id port place →
        s.threads t = .connectToServer args id port place := by
    intro t args id port place ht
    rcases place_cases he hf t with ⟨rfl, heq⟩ | ⟨-, rfl, -, hc'⟩ | ⟨-, heq⟩
    · rw [heq, hnext] at ht
      cases ht
    · rw [hc, ht] at hc'
      cases hc'
    · rwa [heq] at ht
  refine ⟨hs.used_place he hf, ?_, ?_, ?_, ?_⟩
  · rintro p a hl
    obtain ⟨rfl, rfl⟩ := by simpa using hl
    simp [Server.place, hc]
  · rintro p a hl block hb
    obtain ⟨rfl, rfl⟩ := by simpa using hl
    change e.shared.backupArgs fresh = some block at hb
    rw [hbs, Function.update_self] at hb
    obtain rfl := Option.some.inj hb
    exact ⟨copyHostname_inetNtop (hhost.imp_right fun h => h prior hin), rfl⟩
  · rintro p a hl t id port place ht
    obtain ⟨rfl, rfl⟩ := by simpa using hl
    have hargs : (s.threads t).args? = some fresh := by rw [hold t _ _ _ _ ht]; rfl
    exact absurd hfu (hs.used t fresh hargs)
  · intro p a hl t args id port place ht _ peer hp
    obtain ⟨rfl, rfl⟩ := by simpa using hl
    refine hsilent t peer ?_
    rwa [hold t _ _ _ _ ht]

/-- Every other step: the connections to the leader stay connections to the leader. -/
theorem Server.Guided.other (hs : s.Guided leader) (he : s.effect tid input fresh = some e)
    (hf : e.created = none ∨ s.threads fresh = .unused)
    (hnot : ∀ socket id l address,
      s.threads tid ≠ .electionListener socket id (.createBackup l address))
    (hok : OldLeadersSilent (leader, s) (.run tid input fresh)) :
    Guided leader ⟨e.shared, s.place tid fresh e⟩ := by
  refine ⟨hs.used_place he hf, ?_, ?_, ?_, ?_⟩
  · exact fun p a hl => place_ne_unused (hs.leaderUsed p a hl) he hf
  · intro p a hl block hb
    have hchange := Thread.step_backupArgs he p
    rw [show e.shared.backupArgs p = some block from hb] at hchange
    generalize hx : some block = x at hchange
    cases hchange with
    | same => exact hs.block p a hl block hx.symm
    | filled socket id l address prior hthread => exact absurd hthread (hnot _ _ _ _)
    | bound b port actual hthread hb' =>
        obtain rfl := Option.some.inj hx
        exact hs.block p a hl b hb'
    | freed => cases hx
  · intro p a hl t id port place ht
    change s.place tid fresh e t = _ at ht
    rcases place_cases he hf t with ⟨rfl, heq⟩ | ⟨-, rfl, -, hc⟩ | ⟨-, heq⟩
    · obtain ⟨place₀, e₀, htid, h₀, -, rfl⟩ := Thread.next_connectToServer he (heq.symm.trans ht)
      obtain ⟨hport, hpeer⟩ := hs.connection p a hl t id port place₀ htid
      refine ⟨hport, fun peer hp => ?_⟩
      rcases ConnectToServer.peer?_next h₀ hp with hp | ⟨closed, rfl, hd⟩
      · exact hpeer peer hp
      · simp only [OldLeadersSilent, htid] at hok
        obtain ⟨block, hb⟩ := Option.ne_none_iff_exists'.mp (hok p a hl rfl)
        obtain ⟨hhost, -⟩ := hs.block p a hl block hb
        have haddr := hd.2 block hb
        rw [ResolvesTo, hhost, inetPton_inetNtop] at haddr
        obtain ⟨sinAddr, sinPort⟩ := peer
        obtain rfl : sinAddr = a.sinAddr := haddr _ rfl
        obtain rfl : sinPort = a.sinPort := by simpa [hport, htons_toNat] using hd.1
        rfl
    · rw [ht] at hc
      obtain ⟨block, hb, -, rfl, rfl, -⟩ := Thread.created_connectToServer he hc
      exact ⟨(hs.block p a hl block hb).2, nofun⟩
    · rw [heq] at ht
      exact hs.connection p a hl t id port place ht
  · intro p a hl t args id port place ht hne peer hp
    change s.place tid fresh e t = _ at ht
    rcases place_cases he hf t with ⟨rfl, heq⟩ | ⟨-, rfl, -, hc⟩ | ⟨-, heq⟩
    · obtain ⟨place₀, e₀, htid, h₀, -, rfl⟩ := Thread.next_connectToServer he (heq.symm.trans ht)
      rcases ConnectToServer.appliesFrom_next h₀ hp with hp | ⟨_, _, writer, payload, rfl, hin⟩
      · exact hs.silent p a hl t args id port place₀ htid hne peer hp
      · simp only [OldLeadersSilent, htid] at hok
        by_contra hother
        exact hok p a hl hne hother writer payload hin
    · rw [ht] at hc
      obtain ⟨-, -, -, -, rfl, -⟩ := Thread.created_connectToServer he hc
      cases hp
    · rw [heq] at ht
      exact hs.silent p a hl t args id port place ht hne peer hp

theorem Server.Guided.step {p q : Leader × Server} {a : Action} (hs : p.2.Guided p.1)
    (hok : OldLeadersSilent p a) (h : Server.stepWithLeader p a = some q) :
    q.2.Guided q.1 := by
  obtain ⟨leader, s⟩ := p
  obtain ⟨leader', s'⟩ := q
  obtain ⟨hstep, rfl⟩ := watch_eq_some.mp h
  cases a with
  | tick =>
      obtain rfl := step_tick hstep
      exact ⟨hs.used, hs.leaderUsed, hs.block, hs.connection, hs.silent⟩
  | run tid input fresh =>
      obtain ⟨e, he, hf, rfl⟩ := step_run hstep
      simp only [leaderAfter]
      split
      next socket id l address htid => exact hs.handle he hf htid hok
      next hnot => exact hs.other he hf hnot hok

end Run

theorem Server.Starts.guided {s : Server} (h : s.Starts) : s.Guided none := by
  refine ⟨fun t args ha => ?_, nofun, nofun, nofun, nofun⟩
  obtain ⟨id, h⟩ := h
  cases h with
  | backup =>
      by_cases ht : t = 0
      · subst ht
        obtain rfl : 0 = args := by simpa [startBackup, Thread.args?] using ha
        simp [startBackup]
      · simp [startBackup, ht, Thread.args?] at ha
  | manager =>
      by_cases ht : t = 0 <;> simp [startManager, ht, Thread.args?] at ha

/-- A guided server applies events of its leader only. -/
theorem Server.Guided.follows {leader : Leader} {s : Server} (hs : s.Guided leader) (a : Action) :
    FollowsLeader (leader, s) a := by
  rcases leader with - | ⟨p, address⟩
  · trivial
  · cases a with
    | tick => trivial
    | run tid input fresh =>
        intro peer hp
        cases htid : s.threads tid with
        | connectToServer args id port place =>
            rw [htid] at hp
            by_cases hargs : args = p
            · subst hargs
              exact (hs.connection args address rfl tid id port place htid).2 peer
                (ConnectToServer.peer?_of_appliesFrom hp)
            · exact hs.silent p address rfl tid args id port place htid hargs peer hp
        | _ => simp [htid, Thread.appliesFrom] at hp

/-- **A backup follows the leader of the last COORDINATOR** as long as the connections to
earlier leaders are silent: in every run of a server in which they are, an event is applied only
if it came over a connection to the leader. -/
theorem follows_one_leader {s₀ : Server} (hstart : s₀.Starts) {actions : List Action}
    (hok : Along Server.stepWithLeader Server.OldLeadersSilent (none, s₀) actions) :
    Along Server.stepWithLeader Server.FollowsLeader (none, s₀) actions :=
  Along.of_invariant (I := fun p => p.2.Guided p.1) (fun _ _ _ hs hok hstep => hs.step hok hstep)
    (fun _ a hs _ => hs.follows a) hstart.guided hok

/-! ## A failover with the old manager gone, and one with it alive -/

/-- `OldLeadersSilent` with only the first threads in use. -/
def Server.silentBelow (n : ℕ) : Leader × Server → Action → Bool
  | (_, _), .tick => true
  | (leader, s), .run tid input _ =>
      match s.threads tid with
      | .electionListener _ _ (.createBackup _ address) =>
          (List.range n).all (fun t => (s.threads t).appliesFrom.all (· = address)) &&
            (inetNtop address.sinAddr).length < 15
      | .connectToServer args _ _ (.receive _ peer _) =>
          leader.all (fun l => args = l.1 || peer = l.2) ||
            match input with
            | .packet _ _ => false
            | _ => true
      | .connectToServer args _ _ (.connect _) =>
          leader.all (fun l => args ≠ l.1) || (s.shared.backupArgs args).isSome
      | _ => true

theorem Server.oldLeadersSilent_of_silentBelow {n : ℕ} {p : Leader × Server} {a : Action}
    (hu : p.2.UnusedFrom n) (h : silentBelow n p a = true) : OldLeadersSilent p a := by
  obtain ⟨leader, s⟩ := p
  cases a with
  | tick => trivial
  | run tid input fresh =>
      simp only [silentBelow] at h
      simp only [OldLeadersSilent]
      split
      next socket id l address htid =>
        simp only [htid, Bool.and_eq_true, List.all_eq_true, List.mem_range,
          decide_eq_true_eq] at h
        refine ⟨fun t peer hp => ?_, .inl h.2⟩
        by_cases ht : t < n
        · simpa [Option.mem_def.mp hp] using h.1 t ht
        · rw [hu t (by omega)] at hp
          cases hp
      next args id port socketfd peer closed htid =>
        rintro p address rfl hne hother writer payload rfl
        simp [htid, hne, hother] at h
      next args id port closed htid =>
        rintro p address rfl rfl hnone
        simp [htid, hnone] at h
      next => trivial

/-- The connection of thread 2 to the manager. -/
def connectToManager : List Action :=
  [.run 2 .none 9, .run 2 (.connected 5 ⟨⟨127, 0, 0, 1⟩, htons 4003⟩) 9, .run 2 .none 9,
    .run 2 .none 9, .run 2 .none 9]

/-- The manager's end of the connection is closed. -/
def managerGone : List Action := [.run 2 .closed 9]

def heartbeatPacket : Bytes := serializeReplicaEvent createHeartbeatEvent

/-- Thread 6 connects to the new leader and receives a heartbeat. -/
def hearNewLeader : List Action :=
  [.run 6 .none 9, .run 6 (.connected 8 ⟨⟨127, 0, 0, 1⟩, htons 4104⟩) 9, .run 6 .none 9,
    .run 6 .none 9, .run 6 .none 9, .run 6 (.packet 0 heartbeatPacket) 9, .run 6 .none 9]

theorem follows_after_failover :
    (backupOne.run (startUp ++ connectToManager ++ acceptPeer ++ managerGone ++ readCoordinator ++
      joinNewLeader ++ hearNewLeader)).isSome = true ∧
    Along Server.stepWithLeader Server.FollowsLeader (none, backupOne)
      (startUp ++ connectToManager ++ acceptPeer ++ managerGone ++ readCoordinator ++
        joinNewLeader ++ hearNewLeader) := by
  have hbelow : Along Server.stepWithLeader
      (fun p a => Server.silentBelow 10 p a = true ∧ a.createsBelow 10 = true) (none, backupOne)
      (startUp ++ connectToManager ++ acceptPeer ++ managerGone ++ readCoordinator ++
        joinNewLeader ++ hearNewLeader) := by
    decide +kernel
  refine ⟨by decide +kernel, follows_one_leader ⟨1, .backup _ _ _ _ _ (by decide) (by decide)⟩ ?_⟩
  refine Along.of_invariant (I := fun p => p.2.UnusedFrom 10) ?_ ?_
    ((Server.unusedFrom_startBackup _ _ _ _ _).mono (by decide)) hbelow
  · rintro ⟨_, s⟩ a ⟨_, t⟩ hs ha hstep
    exact Server.UnusedFrom.step hs ha.2 (watch_eq_some.mp hstep).1
  · exact fun p a hs ha => Server.oldLeadersSilent_of_silentBelow hs ha.1

/-- The manager is alive: its heartbeat is applied after the COORDINATOR of another leader. -/
theorem applies_event_of_old_leader :
    ∃ p ∈ run Server.stepWithLeader (none, backupOne)
        (startUp ++ connectToManager ++ acceptPeer ++ readCoordinator ++
          [createNewBackup, .run 2 (.packet 0 heartbeatPacket) 9]),
      (p.2.step (.run 2 .none 9)).isSome = true ∧ ¬ Server.FollowsLeader p (.run 2 .none 9) := by
  have hcheck : ∃ p ∈ run Server.stepWithLeader (none, backupOne)
        (startUp ++ connectToManager ++ acceptPeer ++ readCoordinator ++
          [createNewBackup, .run 2 (.packet 0 heartbeatPacket) 9]),
      (p.2.step (.run 2 .none 9)).isSome = true ∧
      p.1 = some (5, ⟨⟨127, 0, 0, 1⟩, htons 4104⟩) ∧
      (p.2.threads 2).appliesFrom = some ⟨⟨127, 0, 0, 1⟩, htons 4003⟩ := by
    decide +kernel
  obtain ⟨⟨leader, s⟩, hp, hsome, rfl, hfrom⟩ := hcheck
  refine ⟨_, hp, hsome, fun hfollows => ?_⟩
  have hsame := hfollows _ hfrom
  revert hsame
  decide

end SyncServer
