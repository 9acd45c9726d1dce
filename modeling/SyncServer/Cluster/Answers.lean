import SyncServer.Cluster.Clients

/-! # Elections with more than one server

An ANSWER is written to the accepted end of a connection and arrives at the end that the
candidate dialed, which none of its threads reads. What sets `election_answer_received` are the
texts of other writers.
-/

namespace SyncServer

open CText Transition

/-! ## What an observer of the servers sees -/

/-- The answers that were written, each with the server that answers and the server and the
thread that hold the election, and the servers that have heard of a leader. -/
structure Hearing where
  answers : List (ℤ × ℤ × ℕ)
  heard : ℤ → Bool

def Thread.isListener : Thread → Bool
  | electionListener _ _ _ => true
  | _ => false

/-- The socket that a connection thread reads between two packets. -/
def ConnectToServer.attends : ConnectToServer → Option ℕ
  | register socketfd _ _ => some socketfd
  | loadRunning socketfd _ _ => some socketfd
  | checkMode socketfd _ _ => some socketfd
  | receive socketfd _ _ => some socketfd
  | _ => none

/-- The socket that the thread goes on reading. -/
def Thread.attends : Thread → Option ℕ
  | electionListener socket _ .receive => some socket
  | connectToServer _ _ _ place => place.attends
  | replicaListener _ (.readRegistration socketfd _) => some socketfd
  | _ => none

/-- The thread has no packet in hand. -/
def Thread.isIdle : Thread → Bool
  | electionListener _ _ .receive => true
  | electionListener _ _ .exited => true
  | electionListener _ _ _ => false
  | connectToServer _ _ _ (.apply _ _ _ _) => false
  | connectToServer _ _ _ (.dialReplica _ _ _ _) => false
  | connectToServer _ _ _ (.countReplica _ _ _) => false
  | _ => true

/-- The socket to which the thread is about to write an ANSWER, with the thread that asked. -/
def Thread.answering : Thread → Option (ℕ × ℕ)
  | electionListener socket _ (.sendAnswer writer) => some (socket, writer)
  | _ => none

namespace Cluster

/-- The answer that a step of the thread gives. -/
def answer (c : Cluster) (i : ℤ) (tid : ℕ) : Option (ℤ × ℤ × ℕ) :=
  ((c.servers i).threads tid).answering.bind fun m =>
    (c.peer (i, m.1)).map fun p => (i, p.1, m.2)

/-- The thread that wrote what arrived at an end is an election listener. -/
def fromListener (c : Cluster) (p : End) (writer : ℕ) : Bool :=
  (c.peer p).any fun q => ((c.servers q.1).threads writer).isListener

/-- A listener hears of a leader from a COORDINATOR, or from what it takes for an ANSWER though no
election listener wrote it; an election that has ended forgets it. -/
def hears (c : Cluster) (i : ℤ) (tid : ℕ) : Option Bool :=
  match (c.servers i).threads tid with
  | .electionListener socket _ (.storeAnswer writer) =>
      if c.fromListener (i, socket) writer then none else some true
  | .electionListener _ _ (.coordinatorAnswer _ _) => some true
  | .runElection _ .readAnswer => some false
  | _ => none

end Cluster

namespace Serving

def hear (h : Hearing) (s : Serving) : Action → Hearing
  | .server (.run i tid _ _) =>
      { answers := (s.cluster.answer i tid).toList ++ h.answers
        heard := Function.update h.heard i ((s.cluster.hears i tid).getD (h.heard i)) }
  | _ => h

/-- The runs of the servers and their clients with the observer. -/
abbrev hearingRun (s : Serving) (actions : List Action) : Option (Hearing × Serving) :=
  Transition.run (watch hear Serving.step) (⟨[], fun _ => false⟩, s) actions

end Serving

/-! ## One step of a thread -/

section Step

variable {sh : Shared} {isExited : ℕ → Bool} {input : Input} {fresh : ℕ} {thread : Thread}
  {e : Effect Thread}

/-- A thread that takes a step is in use and stays what it is. -/
theorem Thread.next_kind (h : thread.step sh isExited input fresh = some e) :
    e.next.isListener = thread.isListener ∧ e.next.isConnection = thread.isConnection ∧
      thread ≠ .unused ∧ e.next ≠ .unused := by
  cases thread <;> simp only [step, Option.map_eq_some_iff, reduceCtorEq] at h <;>
    obtain ⟨e₀, -, rfl⟩ := h <;>
    exact ⟨rfl, rfl, Thread.noConfusion, Thread.noConfusion⟩

/-- A listener writes to the socket that it serves. -/
theorem Thread.Sends.serves {socketfd : ℕ} {payload : Bytes}
    (h : thread.Sends sh input socketfd payload) (hlistener : thread.isListener = true) :
    thread.serves = some socketfd := by
  cases h with
  | answer socketfd id writer => rfl
  | _ => cases hlistener

/-- A listener has an ANSWER in hand after it has read one. -/
theorem Thread.storeAnswer_next {socket : ℕ} {id : ℤ} {writer : ℕ}
    (h : thread.step sh isExited input fresh = some e)
    (hn : e.next = .electionListener socket id (.storeAnswer writer)) :
    thread = .electionListener socket id .receive ∧ ∃ payload, input = .packet writer payload := by
  obtain ⟨place₀, e₀, rfl, h₀, -, hn₀⟩ := next_electionListener h hn
  cases place₀ <;>
    simp only [ElectionListener.step, ElectionListener.dispatch, Effect.goto] at h₀ <;> grind

theorem Thread.created_ne_storeAnswer {socket : ℕ} {id : ℤ} {writer : ℕ}
    (h : thread.step sh isExited input fresh = some e) :
    e.created ≠ some (.electionListener socket id (.storeAnswer writer)) := by
  intro hc
  cases created_cases h hc

theorem Thread.storesAnswer_of_connects (h : thread.connects = true) :
    thread.storesAnswer = none := by
  cases thread with
  | connectToServer args id port place => rfl
  | _ => cases h

/-- An election that has read the flag ends without another look at it. -/
theorem Thread.ended_next {id : ℤ} (h : thread.step sh isExited input fresh = some e)
    (ht : thread = .runElection id .clearRunning ∨ thread = .runElection id .exited) :
    e.next = .runElection id .exited := by
  rcases ht with rfl | rfl
  · obtain ⟨e₀, h₀, rfl⟩ := step_runElection.mp h
    obtain rfl := Option.some.inj h₀
    rfl
  · obtain ⟨e₀, h₀, rfl⟩ := step_runElection.mp h
    cases h₀

/-- The flag decides how the election goes on. -/
theorem Thread.readAnswer_next {id : ℤ}
    (h : (runElection id .readAnswer).step sh isExited input fresh = some e) :
    e.next = .runElection id
      (if sh.electionAnswerReceived then .clearRunning else .timeoutMode) := by
  obtain ⟨e₀, h₀, rfl⟩ := step_runElection.mp h
  obtain rfl := Option.some.inj h₀
  rfl

end Step

/-! ## The flag -/

namespace Cluster

variable {c c' : Cluster} {i : ℤ} {tid fresh : ℕ} {input : Input} {taken taken' : ℤ → ℕ → Prop}

/-- A thread that writes and is no listener; `taken` are the numbers of the threads that serve
clients. -/
def Writes (taken : ℤ → ℕ → Prop) (c : Cluster) (j : ℤ) (t : ℕ) : Prop :=
  ((c.servers j).threads t).isListener = false ∧
    ((c.servers j).threads t ≠ .unused ∨ taken j t)

/-- What `writer` wrote to an end comes from a process that is none of the servers, or from a thread
that is no listener. -/
def Arrives (taken : ℤ → ℕ → Prop) (c : Cluster) (p : End) (writer : ℕ) : Prop :=
  c.kind p ≠ none ∧ ∀ q, c.peer p = some q → c.Writes taken q.1 writer

/-- At the ends that listeners serve, nothing comes from a listener. -/
structure NoAnswers (taken : ℤ → ℕ → Prop) (c : Cluster) : Prop where
  wired : c.Wired
  paired : ∀ p q, c.peer p = some q → c.peer q = some p
  others : ∀ i t, taken i t →
    (c.servers i).threads t = .unused ∨ ((c.servers i).threads t).isConnection = true
  arrived : ∀ p m, c.kind p ≠ some .dialed → m ∈ c.inbox p → c.Arrives taken p m.1
  inHand : ∀ i t socket id writer,
    (c.servers i).threads t = .electionListener socket id (.storeAnswer writer) →
      c.Arrives taken (i, socket) writer

/-- What a thread that is no listener writes to a connection arrives. -/
theorem NoAnswers.arrives_of_peer {p q : End} {writer : ℕ} (hc : c.NoAnswers taken)
    (hpeer : c.peer q = some p) (hwrites : c.Writes taken q.1 writer) :
    c.Arrives taken p writer := by
  have hback := hc.paired q p hpeer
  refine ⟨fun hnone => ?_, fun r hr => ?_⟩
  · simp [(hc.wired.unopened p hnone).1] at hback
  · obtain rfl : q = r := Option.some.inj (hback.symm.trans hr)
    exact hwrites

/-- A thread that writes goes on writing. -/
theorem Writes.act {j : ℤ} {t : ℕ} (hw : c.Writes taken j t) (hfresh : ¬taken i fresh)
    (h : c.act i tid input fresh = some c') : c'.Writes taken j t := by
  obtain ⟨hlistener, hused⟩ := hw
  refine forall_threads (P := fun i u thread => i = j → u = t →
    thread.isListener = false ∧ (thread ≠ .unused ∨ taken j t)) h ?_ ?_ ?_ j t rfl rfl
  · rintro e - hstep rfl rfl
    obtain ⟨hsame, -, -, hne⟩ := Thread.next_kind hstep
    exact ⟨hsame.trans hlistener, .inl hne⟩
  · rintro e thread - - hu rfl rfl
    exact absurd (hused.resolve_left fun hne => hne hu) hfresh
  · rintro i u - rfl rfl
    exact ⟨hlistener, hused⟩

theorem Arrives.act {p : End} {writer : ℕ} (ha : c.Arrives taken p writer)
    (hfresh : ¬taken i fresh) (h : c.act i tid input fresh = some c') :
    c'.Arrives taken p writer := by
  obtain ⟨hopen, hwrites⟩ := ha
  have hkeeps : ∀ q : End, c.Writes taken q.1 writer → c'.Writes taken q.1 writer :=
    fun _ hw => hw.act hfresh h
  obtain ⟨e, s, hg, -, -, rfl⟩ := act_eq_some h
  exact ⟨fun hnone => hopen ((accept_eq_none hg).mp hnone), fun q hq => hkeeps q (hwrites q hq)⟩

theorem NoAnswers.act (hc : c.NoAnswers taken) (hfresh : ¬taken i fresh)
    (h : c.act i tid input fresh = some c') : c'.NoAnswers taken := by
  have hwired := hc.wired.act h
  have hkeeps : ∀ p writer, c.Arrives taken p writer → c'.Arrives taken p writer :=
    fun _ _ ha => ha.act hfresh h
  obtain ⟨e, s, hg, he, hs, hc'⟩ := act_eq_some h
  have hpeer : c'.peer = c.peer := by rw [hc']
  refine ⟨hwired, by rw [hpeer]; exact hc.paired, fun j t ht => ?_, fun p m hp hm => ?_, ?_⟩
  · refine forall_threads (P := fun i u thread => i = j → u = t →
      thread = .unused ∨ thread.isConnection = true) h ?_ ?_ ?_ j t rfl rfl
    · rintro e - hstep rfl rfl
      obtain ⟨-, hsame, hused, -⟩ := Thread.next_kind hstep
      exact .inr (hsame.trans ((hc.others i tid ht).resolve_left hused))
    · rintro e thread - - - rfl rfl
      exact absurd ht hfresh
    · rintro i u - rfl rfl
      exact hc.others i u ht
  · have hp' : c.kind p ≠ some .dialed := fun hd => hp (by
      rw [hc']
      exact (accept_eq_dialed hg).mpr hd)
    rw [hc'] at hm
    rcases List.mem_append.mp hm with hleft | harrives
    · have hold : m ∈ c.inbox p := by
        unfold left at hleft
        split at hleft
        · exact List.mem_of_mem_tail hleft
        · exact hleft
      exact hkeeps _ _ (hc.arrived p m hp' hold)
    · obtain ⟨⟨socketfd, payload⟩, hsent, rfl⟩ := List.mem_map.mp harrives
      obtain ⟨hsent, hto⟩ := List.mem_filter.mp hsent
      have hto : c.peer (i, socketfd) = some p := by simpa using hto
      refine hkeeps _ _ (hc.arrives_of_peer hto ⟨?_, .inl (Thread.next_kind he).2.2.1⟩)
      by_contra hlistener
      -- a listener writes to an accepted end, so what it writes arrives at a dialed one
      have hserves := (Thread.step_sent he hsent).serves (by simpa using hlistener)
      have hacc := hc.wired.served i tid socketfd hserves
      exact absurd ((hc.wired.opposite _ _ hto).mpr hp') (by simp [hacc])
  · refine fun j t socket id writer => forall_threads (P := fun j _ thread =>
      thread = .electionListener socket id (.storeAnswer writer) →
        c'.Arrives taken (j, socket) writer) h ?_ ?_ ?_ j t
    · intro e hg he hn
      obtain ⟨hthread, payload, rfl⟩ := Thread.storeAnswer_next he hn
      have hacc := hc.wired.served i tid socket (by rw [hthread]; rfl)
      exact hkeeps _ _ (hc.arrived (i, socket) _ (by simp [hacc])
        (mem_inbox_of_packet hg (by rw [hthread]; rfl)))
    · intro e thread he hcr _ hn
      exact absurd (hn ▸ hcr) (Thread.created_ne_storeAnswer he)
    · intro j t _ hn
      exact hkeeps _ _ (hc.inHand j t socket id writer hn)

theorem Arrives.connect {p q r : End} {writer : ℕ} (ha : c.Arrives taken r writer)
    (hp : c.kind p = none) (hq : c.kind q = none) :
    (c.connect p q).Arrives taken r writer := by
  have hrp : r ≠ p := fun h => ha.1 (h ▸ hp)
  have hrq : r ≠ q := fun h => ha.1 (h ▸ hq)
  refine ⟨?_, fun s hs => ha.2 s ?_⟩
  · simpa [Cluster.connect, hrp, hrq] using ha.1
  · simpa [Cluster.connect, hrp, hrq] using hs

theorem NoAnswers.connect {p q : End} (hc : c.NoAnswers taken) (hne : p ≠ q)
    (hp : c.kind p = none) (hq : c.kind q = none) : (c.connect p q).NoAnswers taken := by
  refine ⟨hc.wired.connect hne hp hq, fun r s hrs => ?_, hc.others, fun r m hr hm => ?_, ?_⟩
  · by_cases hrq : r = q
    · subst hrq
      obtain rfl : p = s := by simpa [Cluster.connect] using hrs
      simp [Cluster.connect, hne]
    · by_cases hrp : r = p
      · subst hrp
        obtain rfl : q = s := by simpa [Cluster.connect, hrq] using hrs
        simp [Cluster.connect]
      · have hold : c.peer r = some s := by simpa [Cluster.connect, hrp, hrq] using hrs
        have hsp : s ≠ p := fun h => (hc.wired.unopened p hp).2 r (h ▸ hold)
        have hsq : s ≠ q := fun h => (hc.wired.unopened q hq).2 r (h ▸ hold)
        simpa [Cluster.connect, hsp, hsq] using hc.paired r s hold
  · refine (hc.arrived r m (fun hd => hr ?_) hm).connect hp hq
    have hrp : r ≠ p := fun h => by simp [h ▸ hp] at hd
    have hrq : r ≠ q := fun h => by simp [h ▸ hq] at hd
    simpa [Cluster.connect, hrp, hrq] using hd
  · exact fun j t socket id writer hthread =>
      (hc.inHand j t socket id writer hthread).connect hp hq

/-- More numbers are taken. -/
theorem NoAnswers.mono (hc : c.NoAnswers taken) (hmono : ∀ i t, taken i t → taken' i t)
    (hothers : ∀ i t, taken' i t →
      (c.servers i).threads t = .unused ∨ ((c.servers i).threads t).isConnection = true) :
    c.NoAnswers taken' := by
  have hkeeps : ∀ p writer, c.Arrives taken p writer → c.Arrives taken' p writer :=
    fun p writer ⟨hopen, hwrites⟩ => ⟨hopen, fun q hq =>
      ⟨(hwrites q hq).1, (hwrites q hq).2.imp_right (hmono _ _)⟩⟩
  exact ⟨hc.wired, hc.paired, hothers, fun p m hp hm => hkeeps _ _ (hc.arrived p m hp hm),
    fun i t socket id writer hthread => hkeeps _ _ (hc.inHand i t socket id writer hthread)⟩

/-- The same threads and peers, with more packets that no listener wrote. Ends may be opened at
which nobody is. -/
theorem NoAnswers.congr (hc : c.NoAnswers taken) (hwired : c'.Wired)
    (hthreads : ∀ j, (c'.servers j).threads = (c.servers j).threads)
    (hkind : ∀ p, c.kind p ≠ none → c'.kind p = c.kind p) (hpeer : c'.peer = c.peer)
    (hinbox : ∀ p m, m ∈ c'.inbox p → m ∈ c.inbox p ∨ c.Arrives taken p m.1) :
    c'.NoAnswers taken := by
  have hkeeps : ∀ p writer, c.Arrives taken p writer → c'.Arrives taken p writer :=
    fun p writer ⟨hopen, hwrites⟩ => ⟨by rwa [hkind p hopen], fun q hq => by
      rw [Writes, hthreads]
      exact hwrites q (hpeer ▸ hq)⟩
  refine ⟨hwired, ?_, fun i t ht => ?_, fun p m hp hm => hkeeps p m.1 ?_,
    fun i t socket id writer hthread => hkeeps _ _ ?_⟩
  · rw [hpeer]
    exact hc.paired
  · rw [hthreads]
    exact hc.others i t ht
  · rcases hinbox p m hm with hold | hnew
    · refine hc.arrived p m (fun hd => hp ?_) hold
      rw [hkind p (by simp [hd]), hd]
    · exact hnew
  · rw [hthreads] at hthread
    exact hc.inHand i t socket id writer hthread

theorem NoAnswers.step {a : Action} (hc : c.NoAnswers taken)
    (hfresh : ∀ i fresh, a.creates = some (i, fresh) → ¬taken i fresh)
    (h : c.step a = some c') : c'.NoAnswers taken := by
  cases a with
  | tick i =>
      simp only [Cluster.step] at h
      split at h
      · cases h
      · obtain ⟨s, hs, rfl⟩ := Option.map_eq_some_iff.mp h
        refine hc.congr (hc.wired.tick hs) (fun j => ?_) (fun _ _ => rfl) rfl
          fun p m hm => .inl hm
        obtain ⟨time, heq⟩ := tick_servers hs j
        simp only [heq]
  | run i tid input fresh =>
      simp only [Cluster.step] at h
      split at h
      · cases h
      · exact hc.act (hfresh i fresh rfl) h
  | dial i tid fresh socketfd address remote =>
      simp only [Cluster.step] at h
      split at h
      · rename_i hd
        obtain ⟨hne, hp, hq⟩ := new_of_canDial hd
        exact (hc.connect hne hp hq).act (hfresh i fresh rfl) h
      · cases h
  | crash i =>
      obtain rfl := Option.some.inj h
      exact hc.congr (hc.wired.crash i) (fun _ => rfl) (fun _ _ => rfl) rfl fun p m hm => .inl hm

/-- What a listener stores as an ANSWER does not come from a listener. -/
theorem NoAnswers.hears (hc : c.NoAnswers taken) (i : ℤ) (tid : ℕ) :
    c.hears i tid = ((c.servers i).threads tid).storesAnswer := by
  cases ht : (c.servers i).threads tid with
  | electionListener socket id place =>
      cases place with
      | storeAnswer writer =>
          obtain ⟨-, hwrites⟩ := hc.inHand i tid socket id writer ht
          cases hpeer : c.peer (i, socket) with
          | none => simp [Cluster.hears, ht, Cluster.fromListener, hpeer, Thread.storesAnswer]
          | some q =>
              have hlistener := (hwrites q hpeer).1
              simp [Cluster.hears, ht, Cluster.fromListener, hpeer, hlistener,
                Thread.storesAnswer]
      | _ => simp [Cluster.hears, ht, Thread.storesAnswer]
  | runElection id place => cases place <;> simp [Cluster.hears, ht, Thread.storesAnswer]
  | _ => simp [Cluster.hears, ht, Thread.storesAnswer]

theorem answer_act (h : c.act i tid input fresh = some c') (j : ℤ) :
    (c'.servers j).shared.electionAnswerReceived =
      Function.update (fun j => (c.servers j).shared.electionAnswerReceived) i
        (((c.servers i).threads tid).storesAnswer.getD
          (c.servers i).shared.electionAnswerReceived) j := by
  obtain ⟨e, s, hg, he, hs, rfl⟩ := act_eq_some h
  obtain ⟨e', he', -, rfl⟩ := Server.step_run hs
  obtain rfl : e = e' := Option.some.inj (he.symm.trans he')
  by_cases hj : j = i
  · subst hj
    simpa using Thread.step_answer he
  · simp [hj]

end Cluster

/-! ### The threads that serve clients -/

namespace Serving

variable {s s' : Serving}

/-- The numbers of the threads that serve clients. -/
abbrev taken (s : Serving) (i : ℤ) (t : ℕ) : Prop := s.clients i t ≠ none

/-- What comes from elsewhere is no ANSWER of a listener. -/
theorem noAnswers_of_touched {c : Cluster} (hs : s.cluster.NoAnswers s.taken)
    (h : s.Touched c) : c.NoAnswers s.taken := by
  cases h with
  | same => exact hs
  | notify i tid event closed found htaken =>
      have hthreads := fun j => (notify_servers s.cluster i tid event closed found j).1
      refine hs.congr (hs.wired.congr hthreads rfl rfl) hthreads (fun _ _ => rfl) rfl
        fun p m hm => ?_
      rcases List.mem_append.mp hm with hold | hnew
      · exact .inl hold
      · obtain ⟨node, -, hm⟩ := List.mem_flatMap.mp hnew
        split at hm
        · rename_i hpeer
          obtain ⟨text, -, rfl⟩ := List.mem_map.mp hm
          refine .inr (hs.arrives_of_peer hpeer ⟨?_, .inr htaken⟩)
          -- a thread that serves clients is no listener
          rcases hs.others i tid htaken with hu | hc
          · rw [hu]
            rfl
          · cases ht : (s.cluster.servers i).threads tid with
            | connectToServer args id port place => rfl
            | _ => simp [ht, Thread.isConnection] at hc
        · cases hm
  | visit p hnew =>
      refine hs.congr (hs.wired.open hnew) (fun _ => rfl) (fun q hq => ?_) rfl fun _ _ hm => .inl hm
      have hne : q ≠ p := fun heq => hq (by rw [heq, hnew])
      exact Function.update_of_ne hne _ _
  | utter p text hopen hpeer =>
      refine hs.congr (hs.wired.congr (fun _ => rfl) rfl rfl) (fun _ => rfl) (fun _ _ => rfl) rfl
        fun q m hm => ?_
      by_cases hq : q = p
      · subst hq
        simp only [Serving.utter, Function.update_self, List.mem_append, List.mem_singleton] at hm
        rcases hm with hold | rfl
        · exact .inl hold
        · exact .inr ⟨hopen, fun r hr => by simp [hpeer] at hr⟩
      · simp only [Serving.utter, Function.update_of_ne hq] at hm
        exact .inl hm

theorem noAnswers_step {a : Action} (hs : s.cluster.NoAnswers s.taken)
    (h : s.step a = some s') : s'.cluster.NoAnswers s'.taken := by
  rcases step_cases h with ⟨action, -, hstep, hclients, hfresh⟩ | ⟨-, houtside⟩
  · have htaken : s'.taken = s.taken := by
      funext j t
      simp only [taken, ne_eq, hclients]
    rw [htaken]
    exact hs.step (fun i fresh hcreates => by simp [hfresh i fresh hcreates]) hstep
  · refine (noAnswers_of_touched hs houtside.cluster).mono houtside.grows fun i t ht => ?_
    rw [(houtside.cluster.servers i).1]
    rcases houtside.others i t ht with hold | hother
    · exact hs.others i t hold
    · exact hother

theorem Starts.noAnswers (h : s.Starts) : s.cluster.NoAnswers s.taken where
  wired := h.cluster.wired
  paired p q hpq := by simp [h.cluster.peer] at hpq
  others i t ht := by
    obtain ⟨thread, hthread⟩ := Option.ne_none_iff_exists'.mp ht
    exact .inl (h.main i t thread hthread).2
  arrived p m _ hm := by simp [h.cluster.inbox] at hm
  inHand i t socket id writer hj := by
    simpa [hj, Thread.serves] using h.cluster.serves i t

/-- `election_answer_received` is what the observer has heard. -/
def Heard (o : Hearing × Serving) : Prop :=
  o.2.cluster.NoAnswers o.2.taken ∧
    ∀ i, (o.2.cluster.servers i).shared.electionAnswerReceived = o.1.heard i

theorem hear_of_ne_server {h : Hearing} {a : Action} (ha : ∀ action, a ≠ .server action) :
    hear h s a = h := by
  cases a with
  | server action => exact absurd rfl (ha action)
  | _ => rfl

theorem Heard.step (o : Hearing × Serving) (a : Action) (o' : Hearing × Serving) (ho : Heard o)
    (h : watch hear Serving.step o a = some o') : Heard o' := by
  obtain ⟨b, s⟩ := o
  obtain ⟨b', s'⟩ := o'
  obtain ⟨hstep, rfl⟩ := watch_eq_some.mp h
  refine ⟨noAnswers_step ho.1 hstep, fun j => ?_⟩
  have hj := ho.2 j
  rcases step_cases hstep with ⟨action, rfl, hcluster, -, -⟩ | ⟨hother, houtside⟩
  · cases action with
    | tick i =>
        simp only [Cluster.step] at hcluster
        split at hcluster
        · cases hcluster
        · obtain ⟨server, hserver, hcluster⟩ := Option.map_eq_some_iff.mp hcluster
          obtain ⟨time, heq⟩ := Cluster.tick_servers hserver j
          simpa only [← hcluster, heq, hear] using hj
    | run i tid input fresh =>
        simp only [Cluster.step] at hcluster
        split at hcluster
        · cases hcluster
        · have hi := ho.2 i
          simp only at hi hj
          rw [Cluster.answer_act hcluster, ← ho.1.hears]
          by_cases hji : j = i
          · subst hji
            simp [hear, hi]
          · simpa [hear, hji] using hj
    | dial i tid fresh socketfd address remote =>
        simp only [Cluster.step] at hcluster
        split at hcluster
        · rename_i hd
          have hnone := Thread.storesAnswer_of_connects (Cluster.connects_of_canDial hd)
          rw [Cluster.answer_act hcluster]
          by_cases hji : j = i
          · subst hji
            simpa [Cluster.connect, hnone, hear] using hj
          · simpa [Cluster.connect, hear, hji] using hj
        · cases hcluster
    | crash i =>
        rw [← Option.some.inj hcluster]
        exact hj
  · rw [hear_of_ne_server hother, (houtside.cluster.servers j).2]
    exact hj

theorem Starts.heard (h : s.Starts) : Heard (⟨[], fun _ => false⟩, s) := by
  refine ⟨h.noAnswers, fun i => ?_⟩
  rcases h.cluster.servers i with hs | hs
  · exact hs.electionAnswerReceived
  · rw [hs]
    rfl

end Serving

/-! ## The end of an election -/

namespace Cluster

variable {c c' : Cluster} {i : ℤ} {tid fresh : ℕ} {input : Input}

/-- The thread has left its election. -/
def Ended (c : Cluster) (i : ℤ) (tid : ℕ) : Prop :=
  ∃ id, (c.servers i).threads tid = .runElection id .clearRunning ∨
    (c.servers i).threads tid = .runElection id .exited

theorem Ended.act {j : ℤ} {t : ℕ} (he : c.Ended j t) (h : c.act i tid input fresh = some c') :
    c'.Ended j t := by
  obtain ⟨id, he⟩ := he
  have hall := forall_threads (P := fun i u thread => i = j → u = t →
    thread = .runElection id .clearRunning ∨ thread = .runElection id .exited)
    h ?_ ?_ ?_ j t rfl rfl
  · exact ⟨id, hall⟩
  · rintro e - hstep rfl rfl
    exact .inr (Thread.ended_next hstep he)
  · rintro e thread - - hu rfl rfl
    rw [hu] at he
    simp at he
  · rintro i u - rfl rfl
    exact he

theorem Ended.step {j : ℤ} {t : ℕ} {a : Action} (he : c.Ended j t) (h : c.step a = some c') :
    c'.Ended j t := by
  refine invariant_step (I := fun c => c.Ended j t) ?_ (fun _ he => he)
    (fun _ _ _ _ _ he => he) (fun _ _ _ _ _ he h => Ended.act he h) he h
  intro i s hs he
  obtain ⟨time, heq⟩ := tick_servers hs j
  simpa only [Ended, heq] using he

/-- The step that reads the flag. -/
theorem step_readAnswer {id : ℤ} (fresh : ℕ) (hlive : c.crashed i = false)
    (hthread : (c.servers i).threads tid = .runElection id .readAnswer) :
    ∃ c₁, c.step (.run i tid .none fresh) = some c₁ ∧
      (c₁.servers i).threads tid = .runElection id
        (if (c.servers i).shared.electionAnswerReceived then .clearRunning else .timeoutMode) := by
  have he : (c.servers i).effect tid .none fresh =
      some (.goto { (c.servers i).shared with electionAnswerReceived := false }
        (.runElection id (if (c.servers i).shared.electionAnswerReceived then .clearRunning
          else .timeoutMode))) := by
    simp [Server.effect, hthread, Thread.step, RunElection.step, Effect.goto, Effect.map]
  exact exists_act hlive rfl he rfl

/-- An election that reads a flag that is set ends. -/
theorem ended_of_flag {id : ℤ}
    (hthread : (c.servers i).threads tid = .runElection id .readAnswer)
    (hflag : (c.servers i).shared.electionAnswerReceived = true)
    (h : c.step (.run i tid input fresh) = some c') : c'.Ended i tid := by
  simp only [Cluster.step] at h
  split at h
  · cases h
  · refine ⟨id, .inl ?_⟩
    refine forall_threads (P := fun j t thread => j = i → t = tid →
      thread = .runElection id .clearRunning) h ?_ ?_ ?_ i tid rfl rfl
    · intro e _ he _ _
      rw [Server.effect, hthread] at he
      simpa [hflag] using Thread.readAnswer_next he
    · rintro e thread - - hu - rfl
      simp [hthread] at hu
    · rintro j t (hne | hne) hj ht
      · exact absurd hj hne
      · exact absurd ht hne

end Cluster

namespace Serving

variable {s s' : Serving} {i : ℤ} {tid : ℕ}

/-- The election that thread `tid` of server `i` holds does not make the server a manager, once
it reads `election_answer_received`. -/
def DoesNotWin (s : Serving) (i : ℤ) (tid : ℕ) : Prop :=
  ∀ input fresh s₁ actions s₂, s.step (.server (.run i tid input fresh)) = some s₁ →
    s₁.run actions = some s₂ →
      ((s₂.cluster.servers i).threads tid).storesMode ≠ some .backupManager

theorem ended_step {a : Action} (he : s.cluster.Ended i tid) (h : s.step a = some s') :
    s'.cluster.Ended i tid := by
  rcases step_cases h with ⟨action, -, hstep, -, -⟩ | ⟨-, houtside⟩
  · exact he.step hstep
  · obtain ⟨id, he⟩ := he
    exact ⟨id, by rwa [(houtside.cluster.servers i).1]⟩

/-- The step that reads the flag. -/
theorem step_readAnswer {id : ℤ} (hs : s.cluster.NoAnswers s.taken)
    (hlive : s.cluster.crashed i = false)
    (hthread : (s.cluster.servers i).threads tid = .runElection id .readAnswer) :
    ∃ s₁, s.step (.server (.run i tid .none tid)) = some s₁ ∧
      (s₁.cluster.servers i).threads tid = .runElection id
        (if (s.cluster.servers i).shared.electionAnswerReceived then .clearRunning
          else .timeoutMode) := by
  obtain ⟨c₁, hc₁, ht⟩ := Cluster.step_readAnswer tid hlive hthread
  -- no client is served by the thread of an election
  have hfree : s.clients i tid = none := by
    by_contra htaken
    rcases hs.others i tid htaken with hu | hc
    · simp [hthread] at hu
    · simp [hthread, Thread.isConnection] at hc
  obtain ⟨s₁, hs₁, rfl⟩ := exists_stepThread hfree hfree hc₁
  exact ⟨s₁, hs₁, ht⟩

/-- An election ends well for its server exactly when the flag is set. -/
theorem doesNotWin_iff {id : ℤ} (hs : s.cluster.NoAnswers s.taken)
    (hlive : s.cluster.crashed i = false)
    (hthread : (s.cluster.servers i).threads tid = .runElection id .readAnswer) :
    s.DoesNotWin i tid ↔ (s.cluster.servers i).shared.electionAnswerReceived = true := by
  constructor
  · intro h
    by_contra hflag
    obtain ⟨s₁, hs₁, ht⟩ := step_readAnswer hs hlive hthread
    apply h .none tid s₁ [] s₁ hs₁ rfl
    simp [ht, hflag, Thread.storesMode]
  · intro hflag input fresh s₁ actions s₂ hs₁ hs₂
    have hended : s₁.cluster.Ended i tid := by
      rcases step_cases hs₁ with ⟨action, ha, hc₁, -, -⟩ | ⟨hother, -⟩
      · obtain rfl := Action.server.inj ha
        exact Cluster.ended_of_flag hthread hflag hc₁
      · exact absurd rfl (hother _)
    obtain ⟨id, hid | hid⟩ := run_invariant (fun _ _ _ he h => ended_step he h) hended hs₂ <;>
      simp [hid, Thread.storesMode]

end Serving

/-! ## A run of three servers -/

namespace Cluster

variable {c c' : Cluster} {i : ℤ}

def localhost : InAddr := ⟨127, 0, 0, 1⟩

/-- The manager 9 and its backups 1 and 2. -/
def threeServers : Cluster where
  servers i :=
    if i = 9 then .startManager 9 (4003 : UInt16).toNat 100 localhost
    else if i = 1 then .startBackup 1 (inetNtop localhost) 4003 100 localhost
    else if i = 2 then .startBackup 2 (inetNtop localhost) 4003 100 localhost
    else absent
  crashed _ := false
  kind _ := none
  peer _ := none
  inbox _ := []

theorem starts_threeServers : threeServers.Starts := by
  refine ⟨fun i => ?_, fun _ => rfl, fun _ => rfl, fun _ => rfl⟩
  by_cases h9 : i = 9
  · subst h9
    exact .inl (.manager 9 4003 100 localhost (by decide))
  by_cases h1 : i = 1
  · subst h1
    exact .inl (.backup 1 _ 4003 100 localhost (by decide) (by decide))
  by_cases h2 : i = 2
  · subst h2
    exact .inl (.backup 2 _ 4003 100 localhost (by decide) (by decide))
  exact .inr (by simp [threeServers, h9, h1, h2])

/-- A thread takes steps that ask for no input. -/
def steps (i : ℤ) (tid n : ℕ) : List Action := List.replicate n (.run i tid .none 9)

/-- The manager listens with thread 1. -/
def managerStarts : List Action :=
  steps 9 0 3 ++ [.run 9 0 (.bound 4003 (htons 4003)) 9, .run 9 0 .none 1]

/-- A backup listens with thread 1, talks to the manager with thread 2 and monitors it with
thread 3. -/
def backupStarts (i port : ℤ) : List Action :=
  steps i 0 2 ++ [.run i 0 (.bound port (htons port)) 9, .run i 0 .none 1, .run i 0 .none 2,
    .run i 0 .none 3]

/-- The backup `i` registers with the manager, which announces it. -/
def joins (i port : ℤ) (socketfd : ℕ) : List Action :=
  steps i 2 1 ++ [.dial i 2 9 3 ⟨localhost, htons 4003⟩ (9, socketfd)] ++ steps i 2 1 ++
  steps 9 1 1 ++ [.run 9 1 (.accepted socketfd ⟨localhost, htons (i + 40000)⟩) 9] ++
  steps 9 1 1 ++ [.run 9 1 (.registration (printPair i port) i port) 9] ++ steps 9 1 2 ++
  [.run 9 1 (.closedSockets []) 9] ++ steps 9 1 1

/-- The backup `i` reads that `j` was added. -/
def readsAdded (i j port : ℤ) : List Action :=
  steps i 2 2 ++ [.run i 2 (.packet 1 (serializeReplicaEvent
    (createReplicaAddedEvent j port ⟨localhost, htons (j + 40000)⟩))) 9] ++ steps i 2 1

/-- The backup `i` connects to the backup `j`, which serves it with thread 4. -/
def dials (i j port : ℤ) : List Action :=
  [.dial i 2 9 4 ⟨localhost, htons port⟩ (j, 5)] ++ steps i 2 1 ++ steps j 1 1 ++
  [.run j 1 (.accepted 5 ⟨localhost, htons 41000⟩) 9] ++ steps j 1 2 ++ [.run j 1 .none 4]

/-- Both backups register and connect to each other. -/
def meshUp : List Action :=
  managerStarts ++ backupStarts 1 4004 ++ backupStarts 2 5000 ++ joins 1 4004 4 ++
  joins 2 5000 5 ++ readsAdded 1 1 4004 ++ readsAdded 1 1 4004 ++ readsAdded 1 2 5000 ++
  dials 1 2 5000 ++ readsAdded 2 2 5000 ++ readsAdded 2 2 5000 ++ readsAdded 2 1 4004 ++
  dials 2 1 4004

/-- The manager crashes, thread 5 of server 1 holds an election and server 2 answers it. -/
def elects : List Action :=
  [.crash 9] ++ List.replicate 6 (.tick 1) ++ steps 1 3 5 ++ [.run 1 3 .none 5] ++ steps 1 5 2 ++
  [.run 2 4 (.packet 5 (serializeElectionEvent (createElectionEvent 1))) 9] ++ steps 2 4 1 ++
  steps 1 5 1

/-- Server 2 wins an election of its own. -/
def wins : List Action := steps 2 4 2 ++ [.run 2 4 .none 6] ++ steps 2 6 3

/-- Server 2 wins, and server 1 handles its COORDINATOR. -/
def leads : List Action :=
  wins ++ steps 2 0 5 ++
  [.run 1 4 (.packet 0 (serializeElectionEvent
    (createCoordinatorEvent 2 ⟨localhost, htons 5000⟩))) 9] ++ steps 1 4 3 ++
  [.run 1 4 (.memory (List.replicate 256 0)) 6]

/-- A thread of the second server serves the connection that the first has in its list. -/
def Serves (c : Cluster) (i j : ℤ) : Prop :=
  ∃ node socket t place, (c.servers i).shared.replicaList.filter (·.id = j) = [node] ∧
    c.peer (i, node.socketfd) = some (j, socket) ∧
    (c.servers j).threads t = .electionListener socket j place

theorem unusedFrom_threeServers (i : ℤ) : (threeServers.servers i).UnusedFrom 10 := by
  intro t ht
  have hne : t ≠ 0 := by omega
  simp only [threeServers]
  split
  · simp [Server.startManager, hne]
  · split
    · simp [Server.startBackup, hne]
    · split
      · simp [Server.startBackup, hne]
      · rfl

end Cluster

namespace Serving

open Cluster (steps meshUp elects wins localhost)

variable {s s' : Serving} {i : ℤ} {tid : ℕ}

/-- The three servers, where thread 20 of each serves the clients. -/
def threeServers : Serving where
  cluster := Cluster.threeServers
  clients i t := if (i = 9 ∨ i = 1 ∨ i = 2) ∧ t = 20 then some ⟨.main, .waiting⟩ else none

theorem starts_threeServers : threeServers.Starts where
  cluster := Cluster.starts_threeServers
  main i t thread h := by
    obtain ⟨⟨-, rfl⟩, rfl⟩ : ((i = 9 ∨ i = 1 ∨ i = 2) ∧ t = 20) ∧ _ := by
      simpa [threeServers] using h
    exact ⟨rfl, Cluster.unusedFrom_threeServers i 20 (by decide)⟩
  unique i t t' h h' := by
    simp only [threeServers, ne_eq, ite_eq_right_iff, reduceCtorEq, imp_false, not_not] at h h'
    rw [h.2, h'.2]

def alice : Bytes := [97, 108, 105, 99, 101]

def device : SockAddrIn := ⟨localhost, htons 50000⟩

/-- A client comes to server 2, which tells server 1 of it, and leaves again. -/
def clientComes : List Action :=
  [.connect 2 20 alice device, .run 2 20 [] (fun _ => none) 21,
    .run 2 20 [] (fun _ => none) 21, .run 2 20 [] (fun _ => none) 21,
    .run 2 20 [] (fun _ => none) 22, .leave 2 21, .run 2 21 [] (fun _ => none) 23]

/-- Server 1 takes what it reads of the client for an ELECTION and an ANSWER. -/
def readsClient : List Cluster.Action :=
  [.run 1 4 (.packet 20 (serializeReplicaEvent (createClientConnectedEvent alice device))) 9] ++
  steps 1 4 2 ++
  [.run 1 4 (.packet 21 (serializeReplicaEvent (createClientDisconnectedEvent alice device))) 9] ++
  steps 1 4 1

/-- The step creates no thread of the servers from the number `n` on. -/
def Action.createsBelow (n : ℕ) : Action → Bool
  | .server action => action.createsBelow n
  | _ => true

theorem unusedFrom_step {n : ℕ} {a : Action} (hs : ∀ i, (s.cluster.servers i).UnusedFrom n)
    (ha : a.createsBelow n = true) (h : s.step a = some s') (i : ℤ) :
    (s'.cluster.servers i).UnusedFrom n := by
  rcases step_cases h with ⟨action, rfl, hstep, -, -⟩ | ⟨-, houtside⟩
  · exact Cluster.unusedFrom_step hs ha hstep i
  · intro t ht
    rw [(houtside.cluster.servers i).1]
    exact hs i t ht

theorem unusedFrom_run {n : ℕ} {actions : List Action}
    (hs : ∀ i, (s.cluster.servers i).UnusedFrom n)
    (ha : ∀ a ∈ actions, a.createsBelow n = true) (h : s.run actions = some s') :
    ∀ i, (s'.cluster.servers i).UnusedFrom n := by
  induction actions generalizing s with
  | nil =>
      obtain rfl := Option.some.inj h
      exact hs
  | cons a as ih =>
      obtain ⟨u, hu, h⟩ := Transition.run_cons_eq_some.mp h
      exact ih (unusedFrom_step hs (ha a List.mem_cons_self) hu)
        (fun b hb => ha b (List.mem_cons_of_mem a hb)) h

theorem unusedFrom_hearingRun {h : Hearing} {actions : List Action}
    (ha : ∀ a ∈ actions, a.createsBelow 10 = true)
    (hrun : threeServers.hearingRun actions = some (h, s)) (i : ℤ) :
    (s.cluster.servers i).UnusedFrom 10 := by
  have hrun' : threeServers.run actions = some s := by
    have hsnd := congrArg (Option.map Prod.snd) hrun
    rwa [hearingRun, run_watch] at hsnd
  exact unusedFrom_run Cluster.unusedFrom_threeServers ha hrun' i

/-! ## Who answers and who wins -/

/-- A server with a higher id has written its ANSWER to the election of the thread. -/
def answered (h : Hearing) (i : ℤ) (tid : ℕ) : Bool :=
  h.answers.any fun a => decide (i < a.1) && a.2 = (i, tid)

/-- Nothing waits on the sockets that the threads of the server read, and nothing that they
have read is still in their hands. -/
def Drained (s : Serving) (i : ℤ) : Prop :=
  ∀ t, ((s.cluster.servers i).threads t).isIdle = true ∧
    ∀ socket ∈ ((s.cluster.servers i).threads t).attends, s.cluster.inbox (i, socket) = []

/-- What there is to check at the threads below `n`. -/
theorem drained_of_unusedFrom {n : ℕ} (hu : (s.cluster.servers i).UnusedFrom n)
    (h : ∀ t < n, ((s.cluster.servers i).threads t).isIdle = true ∧
      ∀ socket ∈ ((s.cluster.servers i).threads t).attends,
        s.cluster.inbox (i, socket) = []) : s.Drained i := by
  intro t
  by_cases ht : t < n
  · exact h t ht
  · rw [hu t (by omega)]
    exact ⟨rfl, by simp [Thread.attends]⟩

/-- **An answer is not heard.** After a higher server has answered the election and all waiting
messages were handled, the election leaves the server a backup if and only if the server has
heard of a leader otherwise. -/
theorem answered_election_lost_iff {s₀ s : Serving} {h : Hearing} {actions : List Action} {i : ℤ}
    {tid : ℕ} {id : ℤ} (hstart : s₀.Starts) (hrun : s₀.hearingRun actions = some (h, s))
    (hlive : s.cluster.crashed i = false)
    (hthread : (s.cluster.servers i).threads tid = .runElection id .readAnswer) :
    (answered h i tid = true → s.Drained i → s.DoesNotWin i tid) ↔
      (answered h i tid = true → s.Drained i → h.heard i = true) := by
  obtain ⟨hanswers, hflag⟩ := run_invariant Heard.step hstart.heard hrun
  rw [doesNotWin_iff hanswers hlive hthread, hflag i]

/-- Server 1 has read of a client of server 2 and stays a backup. -/
theorem election_lost_to_client :
    ∃ h s, threeServers.hearingRun ((meshUp ++ elects ++ wins).map .server ++ clientComes ++
      readsClient.map .server) = some (h, s) ∧
      answered h 1 5 = true ∧ s.Drained 1 ∧ s.DoesNotWin 1 5 := by
  have hcheck : ∃ o ∈ threeServers.hearingRun ((meshUp ++ elects ++ wins).map .server ++
      clientComes ++ readsClient.map .server),
      answered o.1 1 5 = true ∧ o.1.heard 1 = true ∧ o.2.cluster.crashed 1 = false ∧
      (o.2.cluster.servers 1).threads 5 = .runElection 1 .readAnswer ∧
      ∀ t < 10, ((o.2.cluster.servers 1).threads t).isIdle = true ∧
        ∀ socket ∈ ((o.2.cluster.servers 1).threads t).attends,
          o.2.cluster.inbox (1, socket) = [] := by
    decide +kernel
  obtain ⟨⟨h, s⟩, hrun, hans, hheard, hlive, hthread, hidle⟩ := hcheck
  have hdrained := drained_of_unusedFrom (unusedFrom_hearingRun (by decide) hrun 1) hidle
  exact ⟨h, s, hrun, hans, hdrained,
    (answered_election_lost_iff starts_threeServers hrun hlive hthread).mpr
      (fun _ _ => hheard) hans hdrained⟩

/-- The backups 1 and 2 are connected to each other and the manager is gone. Server 2 has
answered, nothing waits for server 1, and server 1 becomes manager. -/
theorem answered_election_won :
    threeServers.Starts ∧
    ∃ h s, threeServers.hearingRun ((meshUp ++ elects).map .server) = some (h, s) ∧
      s.cluster.Serves 1 2 ∧ s.cluster.Serves 2 1 ∧ s.cluster.crashed 9 = true ∧
      answered h 1 5 = true ∧ s.Drained 1 ∧
      (∃ s' ∈ s.run ((steps 1 5 2).map .server),
        (s'.cluster.servers 1).shared.globalServerMode = .backupManager) ∧
      ¬ s.DoesNotWin 1 5 := by
  have hcheck : ∃ o ∈ threeServers.hearingRun ((meshUp ++ elects).map .server),
      (o.2.cluster.servers 1).shared.replicaList.filter (·.id = 2) =
        [⟨2, 4, 5000, ⟨localhost, 5000⟩⟩] ∧ o.2.cluster.peer (1, 4) = some (2, 5) ∧
      (o.2.cluster.servers 2).threads 4 = .electionListener 5 2 .loadRunning ∧
      (o.2.cluster.servers 2).shared.replicaList.filter (·.id = 1) =
        [⟨1, 4, 4004, ⟨localhost, 4004⟩⟩] ∧ o.2.cluster.peer (2, 4) = some (1, 5) ∧
      (o.2.cluster.servers 1).threads 4 = .electionListener 5 1 .receive ∧
      o.2.cluster.crashed 9 = true ∧ answered o.1 1 5 = true ∧
      (∀ t < 10, ((o.2.cluster.servers 1).threads t).isIdle = true ∧
        ∀ socket ∈ ((o.2.cluster.servers 1).threads t).attends,
          o.2.cluster.inbox (1, socket) = []) ∧
      (∃ s' ∈ o.2.run ((steps 1 5 2).map .server),
        (s'.cluster.servers 1).shared.globalServerMode = .backupManager) ∧
      o.2.cluster.crashed 1 = false ∧
      (o.2.cluster.servers 1).threads 5 = .runElection 1 .readAnswer ∧
      (o.2.cluster.servers 1).shared.electionAnswerReceived = false := by
    decide +kernel
  obtain ⟨⟨h, s⟩, hrun, hlist, hpeer, hserve, hlist', hpeer', hserve', hcrash, hans, hidle, hwon,
    hlive, hthread, hflag⟩ := hcheck
  refine ⟨starts_threeServers, h, s, hrun, ⟨_, 5, 4, _, hlist, hpeer, hserve⟩,
    ⟨_, 5, 4, _, hlist', hpeer', hserve'⟩, hcrash, hans,
    drained_of_unusedFrom (unusedFrom_hearingRun (by decide) hrun 1) hidle, hwon, ?_⟩
  have hanswers := (run_invariant Heard.step starts_threeServers.heard hrun).1
  rw [doesNotWin_iff hanswers hlive hthread, hflag]
  decide

end Serving

end SyncServer
