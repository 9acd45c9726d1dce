import SyncServer.Cluster.Network

/-! # Which end of a connection a thread serves

The listeners of a server serve ends that it accepted. Each of them is connected to an end that
another thread dialed.
-/

namespace SyncServer

open CText Transition

/-- The accepted socket that a listener holds. -/
def Thread.serves : Thread → Option ℕ
  | electionListener socket _ _ => some socket
  | replicaListener _ (.loadManager socketfd _) => some socketfd
  | replicaListener _ (.loadBackup socketfd) => some socketfd
  | replicaListener _ (.readRegistration socketfd _) => some socketfd
  | replicaListener _ (.createElection socketfd) => some socketfd
  | _ => none

section Step

variable {sh : Shared} {isExited : ℕ → Bool} {input : Input} {fresh : ℕ} {thread : Thread}
  {e : Effect Thread} {socketfd : ℕ}

/-- A listener gets its socket from `accept` and keeps it. -/
theorem Thread.serves_next (h : thread.step sh isExited input fresh = some e)
    (hs : e.next.serves = some socketfd) :
    thread.serves = some socketfd ∨ ∃ address, input = .accepted socketfd address := by
  cases hn : e.next with
  | electionListener socket id place =>
      obtain ⟨place₀, e₀, rfl, -, -, -⟩ := next_electionListener h hn
      rw [hn] at hs
      exact .inl hs
  | replicaListener args place =>
      obtain ⟨place₀, e₀, rfl, h₀, -, rfl⟩ := next_replicaListener h hn
      rw [hn] at hs
      cases place₀ <;> simp only [ReplicaListener.step, Effect.goto] at h₀ <;>
        grind [serves.eq_def]
  | _ => simp [hn, serves] at hs

/-- A created listener takes over the socket of the thread that creates it. -/
theorem Thread.serves_created {created : Thread}
    (h : thread.step sh isExited input fresh = some e) (hc : e.created = some created)
    (hs : created.serves = some socketfd) : thread.serves = some socketfd := by
  cases created_cases h hc with
  | electionListener args socket => exact hs
  | _ => cases hs

end Step

theorem Server.StartsAs.serves {s : Server} {id : ℤ} (h : s.StartsAs id) (t : ℕ) :
    (s.threads t).serves = none := by
  cases h with
  | backup => by_cases ht : t = 0 <;> simp [startBackup, ht, Thread.serves]
  | manager => by_cases ht : t = 0 <;> simp [startManager, ht, Thread.serves]

namespace Cluster

variable {c c' : Cluster} {i : ℤ} {tid fresh : ℕ} {input : Input}

/-! ## The kinds of the ends -/

/-- `accept` changes the kind of an end that waits and of no other. -/
theorem accept_cases (hg : c.grants i tid input = true) (p : End) :
    c.accept i input p = c.kind p ∨
      c.kind p = some .waiting ∧ c.accept i input p = some .accepted := by
  cases input with
  | accepted socketfd address =>
      by_cases hp : p = (i, socketfd)
      · subst hp
        exact .inr ⟨by simpa [grants] using hg, Function.update_self ..⟩
      · exact .inl (Function.update_of_ne hp ..)
  | _ => exact .inl rfl

theorem accept_eq_none (hg : c.grants i tid input = true) {p : End} :
    c.accept i input p = none ↔ c.kind p = none := by
  rcases accept_cases hg p with h | ⟨h, h'⟩
  · rw [h]
  · simp [h, h']

theorem accept_eq_dialed (hg : c.grants i tid input = true) {p : End} :
    c.accept i input p = some .dialed ↔ c.kind p = some .dialed := by
  rcases accept_cases hg p with h | ⟨h, h'⟩
  · rw [h]
  · simp [h, h']

theorem accept_of_accepted (hg : c.grants i tid input = true) {p : End}
    (hp : c.kind p = some .accepted) : c.accept i input p = some .accepted := by
  rcases accept_cases hg p with h | ⟨-, h⟩
  · rw [h, hp]
  · exact h

/-! ## The wiring -/

/-- The listeners serve accepted ends, an end that was never opened is connected to nothing,
and of two connected ends one was dialed. -/
structure Wired (c : Cluster) : Prop where
  served : ∀ i t socketfd, ((c.servers i).threads t).serves = some socketfd →
    c.kind (i, socketfd) = some .accepted
  unopened : ∀ p, c.kind p = none → c.peer p = none ∧ ∀ q, c.peer q ≠ some p
  opposite : ∀ p q, c.peer p = some q → (c.kind p = some .dialed ↔ c.kind q ≠ some .dialed)

theorem Starts.serves (h : c.Starts) (i : ℤ) (t : ℕ) :
    ((c.servers i).threads t).serves = none := by
  rcases h.servers i with hs | hs
  · exact hs.serves t
  · rw [hs]
    rfl

theorem Starts.wired (h : c.Starts) : c.Wired where
  served i t socketfd hs := by simp [h.serves] at hs
  unopened p _ := ⟨h.peer p, by simp [h.peer]⟩
  opposite p q hp := by simp [h.peer] at hp

theorem Wired.connect {p q : End} (hw : c.Wired) (hne : p ≠ q) (hp : c.kind p = none)
    (hq : c.kind q = none) : (c.connect p q).Wired where
  served j t socketfd hs := by
    have hk := hw.served j t socketfd hs
    have hjp : (j, socketfd) ≠ p := fun h => by simp [← h, hk] at hp
    have hjq : (j, socketfd) ≠ q := fun h => by simp [← h, hk] at hq
    simpa [Cluster.connect, hjp, hjq] using hk
  unopened r hr := by
    have hrq : r ≠ q := by
      rintro rfl
      simp [Cluster.connect] at hr
    have hrp : r ≠ p := by
      rintro rfl
      simp [Cluster.connect, hrq] at hr
    obtain ⟨h1, h2⟩ := hw.unopened r (by simpa [Cluster.connect, hrp, hrq] using hr)
    refine ⟨by simpa [Cluster.connect, hrp, hrq] using h1, fun s => ?_⟩
    by_cases hsq : s = q
    · simpa [Cluster.connect, hsq] using hrp.symm
    · by_cases hsp : s = p
      · simpa [Cluster.connect, hsp, hne] using hrq.symm
      · simpa [Cluster.connect, hsp, hsq] using h2 s
  opposite r s hrs := by
    by_cases hrq : r = q
    · subst hrq
      obtain rfl : p = s := by simpa [Cluster.connect] using hrs
      simp [Cluster.connect, hne]
    · by_cases hrp : r = p
      · subst hrp
        obtain rfl : q = s := by simpa [Cluster.connect, hrq] using hrs
        simp [Cluster.connect, hrq]
      · have hold : c.peer r = some s := by simpa [Cluster.connect, hrp, hrq] using hrs
        have hsp : s ≠ p := fun h => (hw.unopened p hp).2 r (h ▸ hold)
        have hsq : s ≠ q := fun h => (hw.unopened q hq).2 r (h ▸ hold)
        simpa [Cluster.connect, hrp, hrq, hsp, hsq] using hw.opposite r s hold

theorem Wired.act (hw : c.Wired) (h : c.act i tid input fresh = some c') : c'.Wired := by
  obtain ⟨e, s, hg, he, hs, hc'⟩ := act_eq_some h
  have hkind : c'.kind = c.accept i input := by rw [hc']
  have hpeer : c'.peer = c.peer := by rw [hc']
  refine ⟨?_, ?_, ?_⟩
  · have hold : ∀ j t socketfd, ((c.servers j).threads t).serves = some socketfd →
        c'.kind (j, socketfd) = some .accepted := by
      intro j t socketfd hs
      rw [hkind]
      exact accept_of_accepted hg (hw.served j t socketfd hs)
    refine forall_threads (P := fun j _ thread => ∀ socketfd, thread.serves = some socketfd →
      c'.kind (j, socketfd) = some .accepted) h ?_ ?_ ?_
    · intro e _ he socketfd hs
      rcases Thread.serves_next he hs with hs | ⟨address, rfl⟩
      · exact hold i tid socketfd hs
      · rw [hkind]
        exact Function.update_self ..
    · intro e thread he hc _ socketfd hs
      exact hold i tid socketfd (Thread.serves_created he hc hs)
    · exact fun j t _ socketfd hs => hold j t socketfd hs
  · intro p hp
    rw [hkind, accept_eq_none hg] at hp
    simpa [hpeer] using hw.unopened p hp
  · intro p q hpq
    rw [hpeer] at hpq
    rw [hkind, ne_eq, accept_eq_dialed hg, accept_eq_dialed hg]
    exact hw.opposite p q hpq

theorem Wired.tick {s : Server} (hw : c.Wired) (hs : (c.servers i).step .tick = some s) :
    Wired { c with servers := Function.update c.servers i s } where
  served j t socketfd hj := by
    obtain ⟨time, heq⟩ := tick_servers hs j
    simp only [heq] at hj
    exact hw.served j t socketfd hj
  unopened := hw.unopened
  opposite := hw.opposite

theorem Wired.crash (hw : c.Wired) (i : ℤ) :
    Wired { c with crashed := Function.update c.crashed i true } :=
  ⟨hw.served, hw.unopened, hw.opposite⟩

/-- The wiring is about the threads and the ends only. -/
theorem Wired.congr (hw : c.Wired)
    (hthreads : ∀ j, (c'.servers j).threads = (c.servers j).threads) (hkind : c'.kind = c.kind)
    (hpeer : c'.peer = c.peer) : c'.Wired where
  served j t socketfd hs := by
    rw [hthreads] at hs
    rw [hkind]
    exact hw.served j t socketfd hs
  unopened := by
    rw [hkind, hpeer]
    exact hw.unopened
  opposite := by
    rw [hkind, hpeer]
    exact hw.opposite

/-- An end is opened at which nobody is. -/
theorem Wired.open {p : End} (hw : c.Wired) (hp : c.kind p = none) :
    Wired { c with kind := Function.update c.kind p (some .waiting) } where
  served j t socketfd hs := by
    have hacc := hw.served j t socketfd hs
    have hne : (j, socketfd) ≠ p := fun h => by simp [← h, hacc] at hp
    simpa [hne] using hacc
  unopened q hq := by
    have hne : q ≠ p := by
      rintro rfl
      simp at hq
    exact hw.unopened q (by simpa [hne] using hq)
  opposite q r hqr := by
    have hq : q ≠ p := fun h => by simp [h ▸ (hw.unopened p hp).1] at hqr
    have hr : r ≠ p := fun h => (hw.unopened p hp).2 q (h ▸ hqr)
    simpa [hq, hr] using hw.opposite q r hqr

/-- Every step keeps the wiring. -/
theorem Wired.step {a : Action} (hw : c.Wired) (h : c.step a = some c') : c'.Wired :=
  invariant_step (fun _ _ hs hw => hw.tick hs) (fun i hw => hw.crash i)
    (fun _ _ hne hp hq hw => hw.connect hne hp hq) (fun _ _ _ _ _ hw h => hw.act h) hw h

end Cluster

end SyncServer
