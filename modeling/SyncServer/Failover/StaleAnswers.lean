import SyncServer.Failover.Reconnect

/-! # Which messages decide an election?

`run_election` gives up when it finds `election_answer_received` set. It does not clear the flag
when it starts, and the handler of COORDINATOR sets it at every change of leader, so what it
finds may be older than the election.
-/

namespace SyncServer

open CText Transition

/-- The elections since whose first statement an ANSWER or a COORDINATOR was handled. -/
abbrev Heard := ℕ → Bool

/-- The first statement of `run_election`. -/
def Thread.startsElection : Thread → Bool
  | runElection _ .getHead => true
  | _ => false

/-- The section in which `run_election` reads the flag. -/
def Thread.readsAnswer : Thread → Bool
  | runElection _ .readAnswer => true
  | _ => false

/-- Between the first statement and the section that reads the flag. -/
def RunElection.isWaiting : RunElection → Bool
  | sendElection _ | sleeping | readAnswer => true
  | _ => false

def Thread.isWaiting : Thread → Bool
  | runElection _ place => place.isWaiting
  | _ => false

/-- The observer of the messages: a handler is heard by every thread, and an election that
starts has heard nothing. -/
def heardAfter (heard : Heard) (s : Server) : Action → Heard
  | .tick => heard
  | .run tid _ _ =>
      if (s.threads tid).storesAnswer = some true then fun _ => true
      else if (s.threads tid).startsElection then Function.update heard tid false
      else heard

abbrev Server.stepWithHeard : Heard × Server → Action → Option (Heard × Server) :=
  watch heardAfter Server.step

/-- An election that reads the flag as set, so that it ends as lost, has heard a message of its
own time. -/
def Server.LosesHeard : Heard × Server → Action → Prop
  | _, .tick => True
  | (heard, s), .run tid _ _ =>
      (s.threads tid).readsAnswer = true → s.shared.electionAnswerReceived = true →
        heard tid = true

/-- An election executes its first statement while the flag is clear. -/
def Server.StartsClear (s : Server) : Action → Prop
  | .tick => True
  | .run tid _ _ =>
      (s.threads tid).startsElection = true → s.shared.electionAnswerReceived = false

instance (p : Heard × Server) (a : Action) : Decidable (Server.LosesHeard p a) := by
  cases a <;> unfold Server.LosesHeard <;> infer_instance

instance (s : Server) (a : Action) : Decidable (s.StartsClear a) := by
  cases a <;> unfold Server.StartsClear <;> infer_instance

/-! ## One step -/

section Step

variable {sh : Shared} {isExited : ℕ → Bool} {input : Input} {fresh : ℕ} {thread : Thread}
  {e : Effect Thread}

/-- An election waits after it did, or after its first statement. -/
theorem Thread.isWaiting_next (h : thread.step sh isExited input fresh = some e)
    (hw : e.next.isWaiting = true) :
    thread.isWaiting = true ∨ thread.startsElection = true := by
  cases hn : e.next with
  | runElection id place =>
      obtain ⟨place₀, e₀, rfl, h₀, -, rfl⟩ := next_runElection h hn
      rw [hn] at hw
      cases place₀ with
      | getHead => exact .inr rfl
      | sendElection head => exact .inl rfl
      | sleeping => exact .inl rfl
      | readAnswer => exact .inl rfl
      | _ =>
          simp only [RunElection.step, Effect.goto, Option.some.injEq, reduceCtorEq] at h₀ <;>
            subst h₀ <;> cases hw
  | _ =>
      rw [hn] at hw
      cases hw

/-- No election is created waiting. -/
theorem Thread.isWaiting_created {created : Thread}
    (h : thread.step sh isExited input fresh = some e) (hc : e.created = some created) :
    created.isWaiting = false := by
  cases created_cases h hc <;> rfl

end Step

/-! ## The flag and the elections that wait -/

/-- While the flag is set, every election that waits has heard a message. -/
def Server.FlagHeard : Heard × Server → Prop
  | (heard, s) => s.shared.electionAnswerReceived = true →
      ∀ t, (s.threads t).isWaiting = true → heard t = true

theorem Server.FlagHeard.step {p p' : Heard × Server} {a : Action} (hp : FlagHeard p)
    (hok : p.2.StartsClear a) (h : stepWithHeard p a = some p') : FlagHeard p' := by
  obtain ⟨heard, s⟩ := p
  obtain ⟨heard', s'⟩ := p'
  obtain ⟨hstep, rfl⟩ := watch_eq_some.mp h
  cases a with
  | tick =>
      obtain rfl := step_tick hstep
      exact hp
  | run tid input fresh =>
      obtain ⟨e, he, hf, rfl⟩ := step_run hstep
      intro hflag t ht
      change e.shared.electionAnswerReceived = true at hflag
      rw [Thread.step_answer he] at hflag
      cases hstore : (s.threads tid).storesAnswer with
      | some value =>
          rw [hstore] at hflag
          obtain rfl : value = true := hflag
          simp [heardAfter, hstore]
      | none =>
          rw [hstore] at hflag
          have hset : s.shared.electionAnswerReceived = true := hflag
          -- an election that starts finds the flag clear, so the step is no first statement
          have hstarts : (s.threads tid).startsElection = false := by
            by_contra hs
            rw [hok (by simpa using hs)] at hset
            cases hset
          simp only [heardAfter, hstore, hstarts, reduceCtorEq, ite_false, Bool.false_eq_true]
          apply hp hset
          rcases place_cases he hf t with ⟨rfl, hnext⟩ | ⟨-, rfl, -, hcreated⟩ | ⟨-, hsame⟩
          · change (s.place t fresh e t).isWaiting = true at ht
            rw [hnext] at ht
            exact (Thread.isWaiting_next he ht).resolve_right (by simp [hstarts])
          · exact absurd (Thread.isWaiting_created he hcreated) (by simpa using ht)
          · change (s.place tid fresh e t).isWaiting = true at ht
            rwa [hsame] at ht

/-- **Elections are decided by their own messages** in every run of a server in which each
`run_election` executes its first statement while the flag is clear. -/
theorem lost_elections_heard {s : Server} (hstart : s.Starts) (heard : Heard)
    (actions : List Action)
    (hok : Along Server.stepWithHeard (fun p a => p.2.StartsClear a) (heard, s) actions) :
    Along Server.stepWithHeard Server.LosesHeard (heard, s) actions := by
  obtain ⟨id, hstart⟩ := hstart
  have hflag : Server.FlagHeard (heard, s) := by
    intro h
    rw [hstart.electionAnswerReceived] at h
    cases h
  refine Along.of_invariant (fun p a p' hp ha h => hp.step ha h) ?_ hflag hok
  rintro ⟨heard, s⟩ a hp -
  cases a with
  | tick => trivial
  | run tid input fresh =>
      intro hread hset
      apply hp hset
      cases hthread : s.threads tid with
      | runElection id place =>
          rw [hthread] at hread
          cases place with
          | readAnswer => rfl
          | _ => cases hread
      | _ =>
          rw [hthread] at hread
          cases hread

/-- The next statement of an election that runs on its own. -/
theorem Server.stepWithHeard_runElection {heard : Heard} {s : Server} {tid : ℕ} {id : ℤ}
    {place : RunElection} {e : Effect RunElection} (ht : s.threads tid = .runElection id place)
    (he : place.step id s.shared .none = some e) (hc : e.created = none) :
    stepWithHeard (heard, s) (.run tid .none 0) =
      some (heardAfter heard s (.run tid .none 0),
        ⟨e.shared, Function.update s.threads tid (.runElection id e.next)⟩) := by
  simp [watch, Server.step, effect, ht, Thread.step, he, Effect.map, hc, Server.place]

/-- An election that starts with the flag set, and finds a node with a higher id, is lost
unheard if nothing else happens. -/
theorem election_lost_of_stale {heard : Heard} {s : Server} {tid : ℕ} {id : ℤ}
    (ht : s.threads tid = .runElection id .getHead)
    (hset : s.shared.electionAnswerReceived = true)
    (hhigher : s.shared.replicaList.any (id < ·.id) = true) :
    ¬ Along Server.stepWithHeard Server.LosesHeard (heard, s)
      (List.replicate 4 (.run tid .none 0)) := by
  intro h
  have hsend : RunElection.step id s.shared .none (.sendElection (listHead s.shared.replicaList)) =
      some { shared := s.shared, next := .sleeping,
             sent := sendElectionMsg id s.shared.replicaList } := by
    simp only [RunElection.step, chainFrom_listHead, if_neg (sendElectionMsg_ne_nil hhigher)]
  obtain ⟨-, h⟩ := h _ (Server.stepWithHeard_runElection ht rfl rfl)
  obtain ⟨-, h⟩ := h _ (Server.stepWithHeard_runElection (Function.update_self ..) hsend rfl)
  obtain ⟨-, h⟩ := h _ (Server.stepWithHeard_runElection (Function.update_self ..) rfl rfl)
  obtain ⟨hread, -⟩ := h _ (Server.stepWithHeard_runElection (Function.update_self ..) rfl rfl)
  have hheard := hread (by simp [Thread.readsAnswer, Effect.goto]) hset
  simp [heardAfter, ht, Effect.goto, Thread.storesAnswer, Thread.startsElection] at hheard

/-! ## An election that is answered, and one that finds an old message -/

/-- Thread 2 learns of server 3. -/
def knowServerThree : List Action :=
  startUp ++ connectToManager ++ learnReplica 3 5003 11 ++ acceptPeer

/-- The heartbeats stop, the monitor creates thread 7, and that sends its ELECTION to server 3. -/
def sendToServerThree : List Action :=
  List.replicate 6 .tick ++
  [.run 3 .none 9, .run 3 .none 9, .run 3 .none 9, .run 3 .none 9, .run 3 .none 9,
    .run 3 .none 7, .run 7 .none 9, .run 7 .none 9]

/-- Thread 7 sleeps and reads the flag. -/
def readFlag : List Action := [.run 7 .none 9, .run 7 .none 9]

/-- Thread 4 reads an ANSWER of server 3. -/
def readAnswerOfThree : List Action :=
  [.run 4 (.packet 0 (serializeElectionEvent (createElectionAnswerEvent 3))) 9, .run 4 .none 9]

/-- The election is answered and lost. -/
theorem lost_election_heard :
    (∃ p ∈ run Server.stepWithHeard (fun _ => false, backupOne)
      (knowServerThree ++ sendToServerThree ++ readAnswerOfThree ++ readFlag),
      p.2.threads 7 = .runElection 1 .clearRunning) ∧
    Along Server.stepWithHeard Server.LosesHeard (fun _ => false, backupOne)
      (knowServerThree ++ sendToServerThree ++ readAnswerOfThree ++ readFlag) :=
  ⟨by decide +kernel, lost_elections_heard ⟨1, .backup _ _ _ _ _ (by decide) (by decide)⟩ _ _
    (by decide +kernel)⟩

/-- Server 2 becomes leader and later server 1 loses its heartbeats. Nobody answers the
election, and still it is lost to the flag that the COORDINATOR of server 2 has left. -/
theorem election_lost_unheard :
    backupOne.Starts ∧
    (∃ p ∈ run Server.stepWithHeard (fun _ => false, backupOne)
      (knowServerThree ++ readCoordinator ++ joinNewLeader ++ sendToServerThree ++ readFlag),
      p.2.threads 7 = .runElection 1 .clearRunning ∧ p.1 7 = false) ∧
    ¬ Along Server.stepWithHeard Server.LosesHeard (fun _ => false, backupOne)
      (knowServerThree ++ readCoordinator ++ joinNewLeader ++ sendToServerThree ++ readFlag) :=
  ⟨⟨1, .backup _ _ _ _ _ (by decide) (by decide)⟩, by decide +kernel, by decide +kernel⟩

end SyncServer
