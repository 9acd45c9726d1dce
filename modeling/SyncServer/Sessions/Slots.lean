import SyncServer.Library.Transition
import SyncServer.Sessions.Context

/-! # Who fills and who clears the slots of a user?

The main thread lets clients in while it holds the lock of their context: it looks for a free
slot, makes the session, starts its threads and stores the session last. An interface thread
that handles PACKET_EXIT clears the slot with the index of its session under the same lock.
Contexts and sessions are told apart by their pointers; the memory of a session is free again
after its interface thread has ended.
-/

namespace SyncServer.Slots

open CText Transition

/-- What the threads here read of `struct Session`. -/
structure SessionRecord where
  sessionIndex : ℕ
  userContext : ℕ
  deviceAddress : SockAddrIn
  deriving DecidableEq, Repr

/-- The threads that take the lock of a context. -/
inductive Holder where
  | main
  | interface (tid : ℕ)
  deriving DecidableEq, Repr

/-- `struct UserContext`: the slots hold pointers, and a lock knows its owner. -/
structure Context where
  sessions : List (Option ℕ)
  lock : Option Holder

/-- `initialize_user_session_and_threads` in the main thread, with its local variables. -/
inductive MainThread where
  | accepting
  | locking (context : ℕ) (deviceAddress : SockAddrIn)
  | finding (context : ℕ) (deviceAddress : SockAddrIn)
  | creating (context : ℕ) (deviceAddress : SockAddrIn) (index : ℕ)
  | announcing (context index session : ℕ)
  | starting (context index session : ℕ)
  | storing (context index session : ℕ)
  | unlocking (context : ℕ)
  deriving DecidableEq, Repr

/-- `interface`, which owns its session: `leaving` from PACKET_EXIT to the lock, `clearing` and
`unlocking` under it, `notifying` and `freeing` after it. -/
inductive InterfaceThread where
  | unused
  | serving (session : ℕ)
  | leaving (session : ℕ)
  | clearing (session : ℕ)
  | unlocking (session : ℕ)
  | notifying (session : ℕ)
  | freeing (session : ℕ)
  | exited
  deriving DecidableEq, Repr

structure Manager where
  contexts : ℕ → Context
  heap : ℕ → Option SessionRecord
  main : MainThread
  interfaces : ℕ → InterfaceThread

/-- A client is let in, an interface thread reads PACKET_EXIT, or a thread executes its next
statement. `fresh` is the block that `malloc` gives, `tid` the interface thread that
`pthread_create` makes, and `isManager` what the load of the mode gives. -/
inductive Action where
  | connect (context : ℕ) (deviceAddress : SockAddrIn)
  | main (fresh tid : ℕ) (isManager : Bool)
  | exit (tid : ℕ)
  | interface (tid : ℕ)
  deriving DecidableEq, Repr

namespace Manager

/-! ## The steps -/

def slot (s : Manager) (context index : ℕ) : Option (Option ℕ) :=
  (s.contexts context).sessions[index]?

def lock (s : Manager) (context : ℕ) : Option Holder := (s.contexts context).lock

def setLock (s : Manager) (context : ℕ) (lock : Option Holder) : Manager :=
  { s with contexts := Function.update s.contexts context
                         ⟨(s.contexts context).sessions, lock⟩ }

/-- `context->sessions[index] = session`. -/
def setSlot (s : Manager) (context index : ℕ) (session : Option ℕ) : Manager :=
  { s with contexts := Function.update s.contexts context
                         ⟨(s.contexts context).sessions.set index session, s.lock context⟩ }

def setMain (s : Manager) (main : MainThread) : Manager := { s with main := main }

def setInterface (s : Manager) (tid : ℕ) (interface : InterfaceThread) : Manager :=
  { s with interfaces := Function.update s.interfaces tid interface }

def setHeap (s : Manager) (session : ℕ) (record : Option SessionRecord) : Manager :=
  { s with heap := Function.update s.heap session record }

/-- `find_free_session_index`, `none` for -1. -/
def findFreeSessionIndex (s : Manager) (context : ℕ) : Option ℕ :=
  (s.contexts context).sessions.findIdx? (·.isNone)

def mainStep (s : Manager) (fresh tid : ℕ) (isManager : Bool) : Option Manager :=
  match s.main with
  | .accepting => none
  | .locking context address =>
      if s.lock context = none then
        some ((s.setLock context (some .main)).setMain (.finding context address))
      else none
  | .finding context address =>
      some (s.setMain (match s.findFreeSessionIndex context with
        | some index => .creating context address index
        | none => .unlocking context))
  | .creating context address index =>
      if s.heap fresh = none then
        some ((s.setHeap fresh (some ⟨index, context, address⟩)).setMain
          (.announcing context index fresh))
      else none
  | .announcing context index session =>
      some (s.setMain (if isManager then .starting context index session
        else .storing context index session))
  | .starting context index session =>
      if s.interfaces tid = .unused then
        some ((s.setInterface tid (.serving session)).setMain (.storing context index session))
      else none
  | .storing context index session =>
      some ((s.setSlot context index (some session)).setMain (.unlocking context))
  | .unlocking context => some ((s.setLock context none).setMain .accepting)

/-- The statements of an interface thread from the lock on; all of them read the session. -/
def interfaceStep (s : Manager) (tid : ℕ) : Option Manager :=
  match s.interfaces tid with
  | .leaving session =>
      (s.heap session).bind fun record =>
        if s.lock record.userContext = none then
          some ((s.setLock record.userContext (some (.interface tid))).setInterface tid
            (.clearing session))
        else none
  | .clearing session =>
      (s.heap session).map fun record =>
        (s.setSlot record.userContext record.sessionIndex none).setInterface tid
          (.unlocking session)
  | .unlocking session =>
      (s.heap session).map fun record =>
        (s.setLock record.userContext none).setInterface tid (.notifying session)
  | .notifying session => some (s.setInterface tid (.freeing session))
  | .freeing session => some ((s.setHeap session none).setInterface tid .exited)
  | _ => none

def step (s : Manager) : Action → Option Manager
  | .connect context address =>
      if s.main = .accepting then some (s.setMain (.locking context address)) else none
  | .main fresh tid isManager => s.mainStep fresh tid isManager
  | .exit tid =>
      match s.interfaces tid with
      | .serving session => some (s.setInterface tid (.leaving session))
      | _ => none
  | .interface tid => s.interfaceStep tid

/-! ## The slots and their stores -/

/-- Each slot is empty or holds a session that knows the slot and the context, and no session
is in two slots. -/
def SlotsOk (s : Manager) : Prop :=
  (∀ context index session, s.slot context index = some (some session) →
    ∃ record, s.heap session = some record ∧ record.sessionIndex = index ∧
      record.userContext = context) ∧
  ∀ context index context' index' session, s.slot context index = some (some session) →
    s.slot context' index' = some (some session) → context = context' ∧ index = index'

/-- A session is stored in an empty slot, and in no other place. -/
def Fills (s t : Manager) (context index session : ℕ) : Prop :=
  s.slot context index = some none ∧
  ∀ context' index', t.slot context' index' =
    if context' = context ∧ index' = index then some (some session)
    else s.slot context' index'

/-- The slot that holds the session is emptied, and no other. -/
def Clears (s t : Manager) (session : ℕ) : Prop :=
  (∃ context index, s.slot context index = some (some session)) ∧
  ∀ context' index', t.slot context' index' =
    (s.slot context' index').map fun occupant => if occupant = some session then none else occupant

/-- What a step stores into the slots. -/
inductive SlotStore where
  | nothing
  | session (context index session : ℕ)
  | null (session : ℕ)

def stores (s : Manager) : Action → SlotStore
  | .main _ _ _ =>
      match s.main with
      | .storing context index session => .session context index session
      | _ => .nothing
  | .interface tid =>
      match s.interfaces tid with
      | .clearing session => .null session
      | _ => .nothing
  | _ => .nothing

/-- A connect fills an empty slot, an exit clears the slot of its own session, and every other
step leaves the slots as they are. -/
def StoresOk (s : Manager) (a : Action) : Prop :=
  ∀ t ∈ s.step a,
    match s.stores a with
    | .nothing => ∀ context index, t.slot context index = s.slot context index
    | .session context index session => s.Fills t context index session
    | .null session => s.Clears t session

/-! ## The effect of the updates -/

section Updates

variable (s : Manager) (context index session tid : ℕ)

@[simp] theorem slot_setLock (lock : Option Holder) (c i : ℕ) :
    (s.setLock context lock).slot c i = s.slot c i := by
  by_cases hc : c = context
  · subst hc
    simp [slot, setLock]
  · simp [slot, setLock, hc]

@[simp] theorem slot_setMain (main : MainThread) : (s.setMain main).slot = s.slot := rfl

@[simp] theorem slot_setInterface (interface : InterfaceThread) :
    (s.setInterface tid interface).slot = s.slot := rfl

@[simp] theorem slot_setHeap (record : Option SessionRecord) :
    (s.setHeap session record).slot = s.slot := rfl

theorem slot_setSlot {s : Manager} {context index : ℕ} {old : Option ℕ}
    (h : s.slot context index = some old) (occupant : Option ℕ) (c i : ℕ) :
    (s.setSlot context index occupant).slot c i =
      if c = context ∧ i = index then some occupant else s.slot c i := by
  by_cases hc : c = context
  · subst hc
    by_cases hi : i = index
    · subst hi
      obtain ⟨hlt, -⟩ := List.getElem?_eq_some_iff.mp h
      simp [slot, setSlot, List.getElem?_set_self hlt]
    · simp [slot, setSlot, hi, List.getElem?_set_ne (Ne.symm hi)]
  · simp [slot, setSlot, hc]

@[simp] theorem lock_setSlot (occupant : Option ℕ) :
    (s.setSlot context index occupant).lock = s.lock := by
  funext c
  by_cases hc : c = context
  · subst hc
    simp [lock, setSlot]
  · simp [lock, setSlot, hc]

theorem lock_setLock (lock : Option Holder) (c : ℕ) :
    (s.setLock context lock).lock c = if c = context then lock else s.lock c := by
  by_cases hc : c = context
  · subst hc
    simp [Manager.lock, setLock]
  · simp [Manager.lock, setLock, hc]

@[simp] theorem lock_setMain (main : MainThread) : (s.setMain main).lock = s.lock := rfl

@[simp] theorem lock_setInterface (interface : InterfaceThread) :
    (s.setInterface tid interface).lock = s.lock := rfl

/-- The slot that is found is empty. -/
theorem findFreeSessionIndex_eq_some {s : Manager} {context index : ℕ}
    (h : s.findFreeSessionIndex context = some index) : s.slot context index = some none := by
  obtain ⟨hindex, hnone, -⟩ := List.findIdx?_eq_some_iff_getElem.mp h
  rw [slot, List.getElem?_eq_getElem hindex, Option.isNone_iff_eq_none.mp hnone]

end Updates

end Manager

/-! ## Where the threads stand -/

/-- The context whose lock the main thread holds. -/
def MainThread.holds : MainThread → Option ℕ
  | accepting | locking _ _ => none
  | finding context _ | creating context _ _ | announcing context _ _ | starting context _ _
  | storing context _ _ | unlocking context => some context

/-- The slot that was found free and is not filled yet. -/
def MainThread.reserved : MainThread → Option (ℕ × ℕ)
  | creating context _ index | announcing context index _ | starting context index _
  | storing context index _ => some (context, index)
  | _ => none

/-- The session that is made and not stored yet. -/
def MainThread.pending : MainThread → Option ℕ
  | announcing _ _ session | starting _ _ session | storing _ _ session => some session
  | _ => none

/-- The session has no interface thread yet. -/
def MainThread.unstarted : MainThread → Option ℕ
  | announcing _ _ session | starting _ _ session => some session
  | _ => none

theorem MainThread.holds_of_reserved {main : MainThread} {context index : ℕ}
    (h : main.reserved = some (context, index)) : main.holds = some context := by
  cases main <;> simp_all [reserved, holds]

def InterfaceThread.session : InterfaceThread → Option ℕ
  | serving session | leaving session | clearing session | unlocking session
  | notifying session | freeing session => some session
  | unused | exited => none

/-- The thread has not cleared its slot. -/
def InterfaceThread.isListed : InterfaceThread → Bool
  | serving _ | leaving _ | clearing _ => true
  | _ => false

def InterfaceThread.holdsLock : InterfaceThread → Bool
  | clearing _ | unlocking _ => true
  | _ => false

namespace Manager

/-- What the steps preserve. The lock of a context keeps the main thread, which has reserved a
slot in it, and the interface threads that clear one apart; a session lives as long as its
thread, and until that has cleared the slot the session is in it, or is about to be stored. -/
structure Orderly (s : Manager) : Prop where
  mainLock : ∀ context, s.main.holds = some context → s.lock context = some .main
  interfaceLock : ∀ tid session record, (s.interfaces tid).session = some session →
    (s.interfaces tid).holdsLock = true → s.heap session = some record →
      s.lock record.userContext = some (.interface tid)
  slots : ∀ context index session, s.slot context index = some (some session) →
    ∃ record, s.heap session = some record ∧ record.sessionIndex = index ∧
      record.userContext = context
  reserved : ∀ context index, s.main.reserved = some (context, index) →
    s.slot context index = some none
  pending : ∀ session, s.main.pending = some session →
    ∃ record, s.heap session = some record ∧
      s.main.reserved = some (record.userContext, record.sessionIndex)
  unstarted : ∀ tid session, s.main.unstarted = some session →
    (s.interfaces tid).session ≠ some session
  live : ∀ tid session, (s.interfaces tid).session = some session →
    ∃ record, s.heap session = some record
  listed : ∀ tid session record, (s.interfaces tid).session = some session →
    (s.interfaces tid).isListed = true → s.heap session = some record →
      s.slot record.userContext record.sessionIndex = some (some session) ∨
        s.main.pending = some session
  unlisted : ∀ tid session, (s.interfaces tid).session = some session →
    (s.interfaces tid).isListed = false →
      (∀ context index, s.slot context index ≠ some (some session)) ∧
        s.main.pending ≠ some session
  distinct : ∀ tid tid' session, (s.interfaces tid).session = some session →
    (s.interfaces tid').session = some session → tid = tid'

variable {s t : Manager}

/-- A thread that is not the one named keeps its place. -/
theorem setInterface_of_ne {tid t : ℕ} (hne : t ≠ tid) (interface : InterfaceThread) :
    (s.setInterface tid interface).interfaces t = s.interfaces t :=
  Function.update_of_ne hne ..

theorem setInterface_self (tid : ℕ) (interface : InterfaceThread) :
    (s.setInterface tid interface).interfaces tid = interface :=
  Function.update_self ..

/-- What the thread keeps of its place, every thread keeps. -/
theorem setInterface_congr {β : Type} (f : InterfaceThread → β) {tid : ℕ}
    {interface : InterfaceThread} (h : f interface = f (s.interfaces tid)) (t : ℕ) :
    f ((s.setInterface tid interface).interfaces t) = f (s.interfaces t) := by
  by_cases ht : t = tid
  · rw [ht, setInterface_self, h]
  · rw [setInterface_of_ne ht]

theorem Orderly.slotsOk (h : Orderly s) : s.SlotsOk := by
  refine ⟨h.slots, fun context index context' index' session hslot hslot' => ?_⟩
  obtain ⟨record, hheap, rfl, rfl⟩ := h.slots context index session hslot
  obtain ⟨record', hheap', rfl, rfl⟩ := h.slots context' index' session hslot'
  obtain rfl := Option.some.inj (hheap.symm.trans hheap')
  exact ⟨rfl, rfl⟩

/-- The main thread and an interface thread do not hold one lock. -/
theorem Orderly.exclusive (h : Orderly s) {tid session : ℕ} {record : SessionRecord}
    (hsession : (s.interfaces tid).session = some session)
    (hlock : (s.interfaces tid).holdsLock = true) (hheap : s.heap session = some record) :
    s.main.holds ≠ some record.userContext := by
  intro hmain
  have hinterface := h.interfaceLock tid session record hsession hlock hheap
  rw [h.mainLock _ hmain] at hinterface
  cases hinterface

/-- A session that is pending is not one that an interface thread is about to clear. -/
theorem Orderly.slot_of_clearing (h : Orderly s) {tid session : ℕ}
    (htid : s.interfaces tid = .clearing session) :
    ∃ record, s.heap session = some record ∧
      s.slot record.userContext record.sessionIndex = some (some session) ∧
      s.main.pending ≠ some session := by
  have hsession : (s.interfaces tid).session = some session := by
    rw [htid]
    rfl
  have hlock : (s.interfaces tid).holdsLock = true := by
    rw [htid]
    rfl
  obtain ⟨record, hheap⟩ := h.live tid session hsession
  have hpending : s.main.pending ≠ some session := by
    intro hp
    obtain ⟨record', hheap', hreserved⟩ := h.pending session hp
    obtain rfl := Option.some.inj (hheap.symm.trans hheap')
    exact h.exclusive hsession hlock hheap (MainThread.holds_of_reserved hreserved)
  have hlisted : (s.interfaces tid).isListed = true := by
    rw [htid]
    rfl
  exact ⟨record, hheap, (h.listed tid session record hsession hlisted hheap).resolve_right
    hpending, hpending⟩

/-! ### Steps of the main thread -/

/-- The main thread goes on and keeps the session that is pending. -/
theorem Orderly.setMain {main : MainThread} (h : Orderly s)
    (hholds : ∀ context, main.holds = some context → s.lock context = some .main)
    (hreserved : ∀ context index, main.reserved = some (context, index) →
      s.slot context index = some none)
    (hpending : main.pending = s.main.pending)
    (hkeeps : ∀ session, main.pending = some session → main.reserved = s.main.reserved)
    (hunstarted : ∀ session, main.unstarted = some session →
      s.main.unstarted = some session) : Orderly (s.setMain main) where
  mainLock := hholds
  interfaceLock := h.interfaceLock
  slots := h.slots
  reserved := hreserved
  pending session hp := by
    obtain ⟨record, hheap, hr⟩ := h.pending session (hpending.symm.trans hp)
    exact ⟨record, hheap, (hkeeps session hp).trans hr⟩
  unstarted tid session hu := h.unstarted tid session (hunstarted session hu)
  live := h.live
  listed tid session record hs hl hheap :=
    (h.listed tid session record hs hl hheap).imp_right hpending.trans
  unlisted tid session hs hl :=
    (h.unlisted tid session hs hl).imp_right fun hne hp => hne (hpending.symm.trans hp)
  distinct := h.distinct

theorem MainThread.pending_of_reserved {main : MainThread} (h : main.reserved = none) :
    main.pending = none ∧ main.unstarted = none := by
  cases main <;> simp_all [MainThread.reserved, MainThread.pending, MainThread.unstarted]

/-- The main thread goes on without a slot in view. -/
theorem Orderly.setMain_idle {main : MainThread} (h : Orderly s)
    (hlock : ∀ context, main.holds = some context → s.lock context = some .main)
    (hreserved : main.reserved = none) (hpending : s.main.pending = none) :
    Orderly (s.setMain main) := by
  obtain ⟨hnone, hunstarted⟩ := MainThread.pending_of_reserved hreserved
  refine h.setMain hlock ?_ (hnone.trans hpending.symm) ?_ ?_ <;>
    simp [hreserved, hnone, hunstarted]

/-- A lock changes hands while the threads that stand behind it agree. -/
theorem Orderly.setLock {context : ℕ} {lock : Option Holder} (h : Orderly s)
    (hmain : s.main.holds = some context → lock = some .main)
    (hinterface : ∀ tid session record, (s.interfaces tid).session = some session →
      (s.interfaces tid).holdsLock = true → s.heap session = some record →
        record.userContext = context → lock = some (.interface tid)) :
    Orderly (s.setLock context lock) := by
  refine ⟨?_, ?_, ?_, ?_, h.pending, h.unstarted, h.live, ?_, ?_, h.distinct⟩
  · intro c hc
    rw [lock_setLock]
    split
    · rename_i heq
      exact hmain (heq ▸ hc)
    · exact h.mainLock c hc
  · intro tid session record hs hl hheap
    rw [lock_setLock]
    split
    · rename_i heq
      exact hinterface tid session record hs hl hheap heq
    · exact h.interfaceLock tid session record hs hl hheap
  all_goals simp only [slot_setLock]
  · exact h.slots
  · exact h.reserved
  · exact h.listed
  · exact h.unlisted

/-- Nobody holds a free lock, so it may be given to anybody. -/
theorem Orderly.takeLock {context : ℕ} (h : Orderly s) (hfree : s.lock context = none)
    (lock : Option Holder) : Orderly (s.setLock context lock) := by
  refine h.setLock ?_ ?_
  · intro hmain
    cases (h.mainLock context hmain).symm.trans hfree
  · rintro tid session record hs hl hheap rfl
    cases (h.interfaceLock tid session record hs hl hheap).symm.trans hfree

/-- An interface thread goes on with its session. -/
theorem Orderly.setInterface {tid : ℕ} {interface : InterfaceThread} (h : Orderly s)
    (hsession : interface.session = (s.interfaces tid).session)
    (hlisted : interface.isListed = (s.interfaces tid).isListed)
    (hlock : interface.holdsLock = true → ∀ session record, interface.session = some session →
      s.heap session = some record → s.lock record.userContext = some (.interface tid)) :
    Orderly (s.setInterface tid interface) := by
  have hsame := setInterface_congr InterfaceThread.session hsession
  have hsameListed := setInterface_congr InterfaceThread.isListed hlisted
  refine ⟨h.mainLock, ?_, h.slots, h.reserved, h.pending, ?_, ?_, ?_, ?_, ?_⟩
  · intro t session record hs hl hheap
    by_cases ht : t = tid
    · subst ht
      rw [hsame, ← hsession] at hs
      rw [setInterface_self] at hl
      exact hlock hl session record hs hheap
    · rw [hsame] at hs
      rw [setInterface_of_ne ht] at hl
      exact h.interfaceLock t session record hs hl hheap
  all_goals simp only [hsame, hsameListed, slot_setInterface]
  · exact h.unstarted
  · exact h.live
  · exact h.listed
  · exact h.unlisted
  · exact h.distinct

/-! ### Steps that make, store, clear and free a session -/

/-- `create_session` in a free block. -/
theorem Orderly.create {context index fresh : ℕ} {address : SockAddrIn} (h : Orderly s)
    (hmain : s.main = .creating context address index) (hfresh : s.heap fresh = none) :
    Orderly ((s.setHeap fresh (some ⟨index, context, address⟩)).setMain
      (.announcing context index fresh)) := by
  have hne : ∀ session record, s.heap session = some record → session ≠ fresh := by
    rintro session record hheap rfl
    cases hfresh.symm.trans hheap
  have hheap_of_ne : ∀ session, session ≠ fresh →
      (s.setHeap fresh (some ⟨index, context, address⟩)).heap session = s.heap session :=
    fun session hsession => Function.update_of_ne hsession ..
  have hother : ∀ session record, s.heap session = some record →
      (s.setHeap fresh (some ⟨index, context, address⟩)).heap session = some record :=
    fun session record hheap => (hheap_of_ne session (hne session record hheap)).trans hheap
  have hback : ∀ tid session record, (s.interfaces tid).session = some session →
      (s.setHeap fresh (some ⟨index, context, address⟩)).heap session = some record →
        s.heap session = some record := by
    intro tid session record hs hheap
    obtain ⟨record', hlive⟩ := h.live tid session hs
    rwa [hheap_of_ne session (hne session record' hlive)] at hheap
  have hnone : s.main.pending = none := by
    rw [hmain]
    rfl
  refine ⟨?_, ?_, ?_, ?_, ?_, ?_, ?_, ?_, ?_, h.distinct⟩
  · intro c hc
    exact h.mainLock c (by rw [hmain]; exact hc)
  · intro tid session record hs hl hheap
    exact h.interfaceLock tid session record hs hl (hback tid session record hs hheap)
  · intro c i session hslot
    obtain ⟨record, hheap, hr⟩ := h.slots c i session hslot
    exact ⟨record, hother session record hheap, hr⟩
  · intro c i hr
    exact h.reserved c i (by rw [hmain]; exact hr)
  · intro session hp
    obtain rfl := Option.some.inj hp
    exact ⟨_, Function.update_self .., rfl⟩
  · intro tid session hu hs
    obtain rfl := Option.some.inj hu
    obtain ⟨record, hlive⟩ := h.live tid fresh hs
    exact hne fresh record hlive rfl
  · intro tid session hs
    obtain ⟨record, hlive⟩ := h.live tid session hs
    exact ⟨record, hother session record hlive⟩
  · intro tid session record hs hl hheap
    refine .inl ((h.listed tid session record hs hl (hback tid session record hs hheap)
      ).resolve_right ?_)
    simp [hnone]
  · intro tid session hs hl
    refine ⟨(h.unlisted tid session hs hl).1, fun hp => ?_⟩
    obtain rfl := Option.some.inj hp
    obtain ⟨record, hlive⟩ := h.live tid fresh hs
    exact hne fresh record hlive rfl

/-- The interface thread of the pending session begins. -/
theorem Orderly.start {context index session tid : ℕ} (h : Orderly s)
    (hmain : s.main = .starting context index session) (htid : s.interfaces tid = .unused) :
    Orderly ((s.setInterface tid (.serving session)).setMain
      (.storing context index session)) := by
  have hpending : s.main.pending = some session := by
    rw [hmain]
    rfl
  have hold : ∀ t p, ((s.setInterface tid (.serving session)).interfaces t).session = some p →
      t = tid ∧ p = session ∨ t ≠ tid ∧ (s.interfaces t).session = some p := by
    intro t p hs
    by_cases ht : t = tid
    · rw [ht, setInterface_self] at hs
      exact .inl ⟨ht, (Option.some.inj hs).symm⟩
    · rw [setInterface_of_ne ht] at hs
      exact .inr ⟨ht, hs⟩
  refine ⟨?_, ?_, h.slots, ?_, ?_, ?_, ?_, ?_, ?_, ?_⟩
  · intro c hc
    exact h.mainLock c (by rw [hmain]; exact hc)
  · intro t p record hs hl hheap
    change ((s.setInterface tid (.serving session)).interfaces t).holdsLock = true at hl
    rcases hold t p hs with ⟨rfl, -⟩ | ⟨hne, hs⟩
    · rw [setInterface_self] at hl
      cases hl
    · rw [setInterface_of_ne hne] at hl
      exact h.interfaceLock t p record hs hl hheap
  · intro c i hr
    exact h.reserved c i (by rw [hmain]; exact hr)
  · intro p hp
    obtain ⟨record, hheap, hr⟩ := h.pending p (hpending.trans hp)
    rw [hmain] at hr
    exact ⟨record, hheap, hr⟩
  · intro t p hu
    cases hu
  · intro t p hs
    rcases hold t p hs with ⟨-, rfl⟩ | ⟨-, hs⟩
    · obtain ⟨record, hheap, -⟩ := h.pending p hpending
      exact ⟨record, hheap⟩
    · exact h.live t p hs
  · intro t p record hs hl hheap
    change ((s.setInterface tid (.serving session)).interfaces t).isListed = true at hl
    rcases hold t p hs with ⟨-, rfl⟩ | ⟨hne, hs⟩
    · exact .inr rfl
    · rw [setInterface_of_ne hne] at hl
      exact (h.listed t p record hs hl hheap).imp_right hpending.symm.trans
  · intro t p hs hl
    change ((s.setInterface tid (.serving session)).interfaces t).isListed = false at hl
    rcases hold t p hs with ⟨rfl, -⟩ | ⟨hne, hs⟩
    · rw [setInterface_self] at hl
      cases hl
    · rw [setInterface_of_ne hne] at hl
      exact (h.unlisted t p hs hl).imp_right fun hp hq => hp (hpending.trans hq)
  · intro t t' p hs hs'
    have hunstarted : ∀ t, (s.interfaces t).session ≠ some session := fun t =>
      h.unstarted t session (by rw [hmain]; rfl)
    rcases hold t p hs with ⟨rfl, rfl⟩ | ⟨-, hbefore⟩
    · rcases hold t' p hs' with ⟨rfl, -⟩ | ⟨-, hbefore⟩
      · rfl
      · exact absurd hbefore (hunstarted t')
    · rcases hold t' p hs' with ⟨-, rfl⟩ | ⟨-, hbefore'⟩
      · exact absurd hbefore (hunstarted t)
      · exact h.distinct t t' p hbefore hbefore'

/-- The pending session is stored in the slot that was found. -/
theorem Orderly.store {context index session : ℕ} (h : Orderly s)
    (hmain : s.main = .storing context index session) :
    Orderly ((s.setSlot context index (some session)).setMain (.unlocking context)) ∧
      s.Fills ((s.setSlot context index (some session)).setMain (.unlocking context))
        context index session := by
  have hfree : s.slot context index = some none := h.reserved context index (by rw [hmain]; rfl)
  have hpending : s.main.pending = some session := by
    rw [hmain]
    rfl
  have hslot := slot_setSlot hfree (some session)
  obtain ⟨record, hheap, hreserved⟩ := h.pending session hpending
  obtain ⟨hcontext, hindex⟩ : context = record.userContext ∧ index = record.sessionIndex := by
    rw [hmain] at hreserved
    exact Prod.mk.inj (Option.some.inj hreserved)
  refine ⟨⟨?_, ?_, ?_, ?_, ?_, ?_, h.live, ?_, ?_, h.distinct⟩, hfree, hslot⟩
  · intro c hc
    rw [lock_setMain, lock_setSlot]
    exact h.mainLock c (by rw [hmain]; exact hc)
  · intro tid p record hs hl hheap
    rw [lock_setMain, lock_setSlot]
    exact h.interfaceLock tid p record hs hl hheap
  · intro c i p hs
    rw [slot_setMain, hslot] at hs
    split at hs
    · rename_i heq
      obtain rfl := Option.some.inj (Option.some.inj hs)
      exact ⟨record, hheap, by rw [heq.2, hindex], by rw [heq.1, hcontext]⟩
    · exact h.slots c i p hs
  · intro c i hr
    cases hr
  · intro p hp
    cases hp
  · intro tid p hu
    cases hu
  · intro tid p precord hs hl hp
    refine .inl ?_
    rw [slot_setMain, hslot]
    rcases h.listed tid p precord hs hl hp with hin | hpend
    · rw [if_neg, hin]
      rintro ⟨hc, hi⟩
      rw [hc, hi, hfree] at hin
      cases hin
    · obtain rfl := Option.some.inj (hpending.symm.trans hpend)
      obtain rfl := Option.some.inj (hheap.symm.trans hp)
      rw [if_pos ⟨hcontext.symm, hindex.symm⟩]
  · intro tid p hs hl
    obtain ⟨hnot, hne⟩ := h.unlisted tid p hs hl
    refine ⟨fun c i hin => ?_, fun hp => by cases hp⟩
    rw [slot_setMain, hslot] at hin
    split at hin
    · obtain rfl := Option.some.inj (Option.some.inj hin)
      exact hne hpending
    · exact hnot c i hin

/-- PACKET_EXIT clears the slot of its session, and no other. -/
theorem Orderly.clears {tid session : ℕ} {record : SessionRecord} (h : Orderly s)
    (htid : s.interfaces tid = .clearing session) (hheap : s.heap session = some record) :
    s.Clears ((s.setSlot record.userContext record.sessionIndex none).setInterface tid
      (.unlocking session)) session := by
  obtain ⟨record', hheap', hin, -⟩ := h.slot_of_clearing htid
  obtain rfl := Option.some.inj (hheap.symm.trans hheap')
  refine ⟨⟨_, _, hin⟩, fun c i => ?_⟩
  rw [slot_setInterface, slot_setSlot hin none]
  split
  · rename_i heq
    rw [heq.1, heq.2, hin]
    simp
  · rename_i hne
    cases hold : s.slot c i with
    | none => rfl
    | some occupant =>
        rw [Option.map_some, if_neg]
        rintro rfl
        exact hne (h.slotsOk.2 c i _ _ session hold hin)

theorem Orderly.clear {tid session : ℕ} {record : SessionRecord} (h : Orderly s)
    (htid : s.interfaces tid = .clearing session) (hheap : s.heap session = some record) :
    Orderly ((s.setSlot record.userContext record.sessionIndex none).setInterface tid
      (.unlocking session)) := by
  obtain ⟨record', hheap', hin, hpending⟩ := h.slot_of_clearing htid
  obtain rfl := Option.some.inj (hheap.symm.trans hheap')
  have hslot := slot_setSlot hin none
  have hsession : (s.interfaces tid).session = some session := by
    rw [htid]
    rfl
  have hsame : ∀ t, (((s.setSlot record.userContext record.sessionIndex none).setInterface tid
      (.unlocking session)).interfaces t).session = (s.interfaces t).session :=
    setInterface_congr InterfaceThread.session hsession.symm
  have hother : ∀ t p, t ≠ tid → (s.interfaces t).session = some p → p ≠ session := by
    rintro t p hne hs rfl
    exact hne (h.distinct t tid p hs hsession)
  refine ⟨?_, ?_, ?_, ?_, h.pending, ?_, ?_, ?_, ?_, ?_⟩
  · intro c hc
    rw [lock_setInterface, lock_setSlot]
    exact h.mainLock c hc
  · intro t p precord hs hl hp
    rw [lock_setInterface, lock_setSlot]
    rw [hsame] at hs
    refine h.interfaceLock t p precord hs ?_ hp
    by_cases ht : t = tid
    · rw [ht, htid]
      rfl
    · rwa [setInterface_of_ne ht] at hl
  · intro c i p hs
    rw [slot_setInterface, hslot] at hs
    split at hs
    · cases hs
    · exact h.slots c i p hs
  · intro c i hr
    rw [slot_setInterface, hslot]
    split
    · rfl
    · exact h.reserved c i hr
  · intro t p hu
    rw [hsame]
    exact h.unstarted t p hu
  · intro t p hs
    rw [hsame] at hs
    exact h.live t p hs
  · intro t p precord hs hl hp
    rw [hsame] at hs
    by_cases ht : t = tid
    · rw [ht, setInterface_self] at hl
      cases hl
    · rw [setInterface_of_ne ht] at hl
      refine (h.listed t p precord hs hl hp).imp_left fun hold => ?_
      rw [slot_setInterface, hslot, if_neg, hold]
      rintro ⟨hc, hi⟩
      rw [hc, hi, hin] at hold
      exact hother t p ht hs (Option.some.inj (Option.some.inj hold)).symm
  · intro t p hs hl
    rw [hsame] at hs
    simp only [slot_setInterface, hslot]
    by_cases ht : t = tid
    · subst ht
      obtain rfl := Option.some.inj (hs.symm.trans hsession)
      refine ⟨fun c i hc => ?_, hpending⟩
      split at hc
      · cases hc
      · rename_i hne
        exact hne (h.slotsOk.2 c i _ _ p hc hin)
    · rw [setInterface_of_ne ht] at hl
      refine (h.unlisted t p hs hl).imp_left fun hnot c i hc => ?_
      split at hc
      · cases hc
      · exact hnot c i hc
  · intro t t' p hs hs'
    rw [hsame] at hs hs'
    exact h.distinct t t' p hs hs'

/-- The interface thread frees its session and ends. -/
theorem Orderly.free {tid session : ℕ} (h : Orderly s)
    (htid : s.interfaces tid = .freeing session) :
    Orderly ((s.setHeap session none).setInterface tid .exited) := by
  have hsession : (s.interfaces tid).session = some session := by
    rw [htid]
    rfl
  have hunlisted : (s.interfaces tid).isListed = false := by
    rw [htid]
    rfl
  obtain ⟨hnot, hpending⟩ := h.unlisted tid session hsession hunlisted
  have hheap : ∀ p, p ≠ session → (s.setHeap session none).heap p = s.heap p :=
    fun p hp => Function.update_of_ne hp ..
  have hold : ∀ t p, (((s.setHeap session none).setInterface tid .exited).interfaces t).session =
      some p → t ≠ tid ∧ p ≠ session ∧ (s.interfaces t).session = some p := by
    intro t p hs
    by_cases ht : t = tid
    · rw [ht, setInterface_self] at hs
      cases hs
    · rw [setInterface_of_ne ht] at hs
      refine ⟨ht, ?_, hs⟩
      rintro rfl
      exact ht (h.distinct t tid p hs hsession)
  refine ⟨h.mainLock, ?_, ?_, h.reserved, ?_, ?_, ?_, ?_, ?_, ?_⟩
  · intro t p record hs hl hp
    obtain ⟨ht, hne, hs⟩ := hold t p hs
    rw [setInterface_of_ne ht] at hl
    exact h.interfaceLock t p record hs hl (by rwa [← hheap p hne])
  · intro c i p hs
    obtain ⟨record, hp, hr⟩ := h.slots c i p hs
    have hne : p ≠ session := by
      rintro rfl
      exact hnot c i hs
    exact ⟨record, (hheap p hne).trans hp, hr⟩
  · intro p hp
    obtain ⟨record, hrecord, hr⟩ := h.pending p hp
    have hne : p ≠ session := by
      rintro rfl
      exact hpending hp
    exact ⟨record, (hheap p hne).trans hrecord, hr⟩
  · intro t p hu hs
    exact h.unstarted t p hu (hold t p hs).2.2
  · intro t p hs
    obtain ⟨-, hne, hs⟩ := hold t p hs
    obtain ⟨record, hlive⟩ := h.live t p hs
    exact ⟨record, (hheap p hne).trans hlive⟩
  · intro t p record hs hl hp
    obtain ⟨ht, hne, hs⟩ := hold t p hs
    rw [setInterface_of_ne ht] at hl
    exact h.listed t p record hs hl (by rwa [← hheap p hne])
  · intro t p hs hl
    obtain ⟨ht, -, hs⟩ := hold t p hs
    rw [setInterface_of_ne ht] at hl
    exact h.unlisted t p hs hl
  · intro t t' p hs hs'
    exact h.distinct t t' p (hold t p hs).2.2 (hold t' p hs').2.2

/-! ### Every step -/

theorem Orderly.mainStep {fresh tid : ℕ} {isManager : Bool} (h : Orderly s)
    (hstep : s.mainStep fresh tid isManager = some t) : Orderly t := by
  cases hmain : s.main with
  | accepting => simp [Manager.mainStep, hmain] at hstep
  | locking context address =>
      simp only [Manager.mainStep, hmain] at hstep
      split at hstep
      · rename_i hfree
        obtain rfl := Option.some.inj hstep
        refine (h.takeLock hfree (some .main)).setMain_idle (fun c hc => ?_) rfl ?_
        · obtain rfl := Option.some.inj hc
          simp [lock_setLock]
        · change s.main.pending = none
          rw [hmain]
          rfl
      · cases hstep
  | finding context address =>
      simp only [Manager.mainStep, hmain] at hstep
      obtain rfl := Option.some.inj hstep
      have hlock : s.lock context = some .main := h.mainLock context (by rw [hmain]; rfl)
      have hpending : s.main.pending = none := by
        rw [hmain]
        rfl
      cases hfind : s.findFreeSessionIndex context with
      | some index =>
          refine h.setMain (fun c hc => ?_) (fun c i hr => ?_) hpending.symm (fun p hp => ?_)
            fun p hu => ?_
          · obtain rfl := Option.some.inj hc
            exact hlock
          · obtain ⟨rfl, rfl⟩ := Prod.mk.inj (Option.some.inj hr)
            exact findFreeSessionIndex_eq_some hfind
          · cases hp
          · cases hu
      | none =>
          refine h.setMain_idle (fun c hc => ?_) rfl hpending
          obtain rfl := Option.some.inj hc
          exact hlock
  | creating context address index =>
      simp only [Manager.mainStep, hmain] at hstep
      split at hstep
      · rename_i hfresh
        obtain rfl := Option.some.inj hstep
        exact h.create hmain hfresh
      · cases hstep
  | announcing context index session =>
      simp only [Manager.mainStep, hmain] at hstep
      obtain rfl := Option.some.inj hstep
      have hholds := h.mainLock
      have hreserved := h.reserved
      rw [hmain] at hholds hreserved
      cases isManager with
      | true =>
          refine h.setMain hholds hreserved ?_ ?_ ?_ <;> rw [hmain]
          · rfl
          · exact fun _ _ => rfl
          · exact fun _ hu => hu
      | false =>
          refine h.setMain hholds hreserved ?_ ?_ ?_
          · rw [hmain]
            rfl
          · rw [hmain]
            exact fun _ _ => rfl
          · intro p hu
            cases hu
  | starting context index session =>
      simp only [Manager.mainStep, hmain] at hstep
      split at hstep
      · rename_i htid
        obtain rfl := Option.some.inj hstep
        exact h.start hmain htid
      · cases hstep
  | storing context index session =>
      simp only [Manager.mainStep, hmain] at hstep
      obtain rfl := Option.some.inj hstep
      exact (h.store hmain).1
  | unlocking context =>
      simp only [Manager.mainStep, hmain] at hstep
      obtain rfl := Option.some.inj hstep
      have hpending : s.main.pending = none := by
        rw [hmain]
        rfl
      have hmoved : Orderly (s.setMain .accepting) :=
        h.setMain_idle (fun c hc => by cases hc) rfl hpending
      refine hmoved.setLock (fun hc => by cases hc) ?_
      intro tid p record hs hl hheap heq
      exact absurd (by rw [hmain, heq]; rfl) (h.exclusive hs hl hheap)

/-- The thread has left the section, so that nobody stands behind the lock of its context. -/
theorem Orderly.releaseLock {tid session : ℕ} {record : SessionRecord} (h : Orderly s)
    (htid : s.interfaces tid = .unlocking session) (hheap : s.heap session = some record) :
    Orderly ((s.setLock record.userContext none).setInterface tid (.notifying session)) := by
  have hsession : (s.interfaces tid).session = some session := by
    rw [htid]
    rfl
  have hlock : (s.interfaces tid).holdsLock = true := by
    rw [htid]
    rfl
  have hmoved : Orderly (s.setInterface tid (.notifying session)) := by
    refine h.setInterface hsession.symm ?_ (fun hl => by cases hl)
    rw [htid]
    rfl
  refine hmoved.setLock ?_ ?_
  · intro hmain
    exact absurd hmain (h.exclusive hsession hlock hheap)
  · intro t p precord hs hl hp heq
    by_cases ht : t = tid
    · rw [ht, setInterface_self] at hl
      cases hl
    · rw [setInterface_of_ne ht] at hs hl
      have hother := h.interfaceLock t p precord hs hl hp
      have hself := h.interfaceLock tid session record hsession hlock hheap
      rw [heq, hself] at hother
      exact absurd (Holder.interface.inj (Option.some.inj hother)).symm ht

theorem Orderly.interfaceStep {tid : ℕ} (h : Orderly s)
    (hstep : s.interfaceStep tid = some t) : Orderly t := by
  cases htid : s.interfaces tid with
  | leaving session =>
      simp only [Manager.interfaceStep, htid] at hstep
      obtain ⟨record, hheap, hstep⟩ := Option.bind_eq_some_iff.mp hstep
      split at hstep
      · rename_i hfree
        obtain rfl := Option.some.inj hstep
        refine (h.takeLock hfree (some (.interface tid))).setInterface ?_ ?_ ?_
        · change some session = (s.interfaces tid).session
          rw [htid]
          rfl
        · change true = (s.interfaces tid).isListed
          rw [htid]
          rfl
        · intro _ p precord hp hrecord
          obtain rfl := Option.some.inj hp
          obtain rfl := Option.some.inj (hheap.symm.trans hrecord)
          simp [lock_setLock]
      · cases hstep
  | clearing session =>
      simp only [Manager.interfaceStep, htid] at hstep
      obtain ⟨record, hheap, rfl⟩ := Option.map_eq_some_iff.mp hstep
      exact h.clear htid hheap
  | unlocking session =>
      simp only [Manager.interfaceStep, htid] at hstep
      obtain ⟨record, hheap, rfl⟩ := Option.map_eq_some_iff.mp hstep
      exact h.releaseLock htid hheap
  | notifying session =>
      simp only [Manager.interfaceStep, htid] at hstep
      obtain rfl := Option.some.inj hstep
      refine h.setInterface ?_ ?_ (fun hl => by cases hl) <;> rw [htid] <;> rfl
  | freeing session =>
      simp only [Manager.interfaceStep, htid] at hstep
      obtain rfl := Option.some.inj hstep
      exact h.free htid
  | _ => simp [Manager.interfaceStep, htid] at hstep

theorem Orderly.step {a : Action} (h : Orderly s) (hstep : s.step a = some t) : Orderly t := by
  cases a with
  | connect context address =>
      simp only [Manager.step] at hstep
      split at hstep
      · rename_i hmain
        obtain rfl := Option.some.inj hstep
        refine h.setMain_idle (fun c hc => by cases hc) rfl ?_
        rw [hmain]
        rfl
      · cases hstep
  | main fresh tid isManager => exact h.mainStep hstep
  | exit tid =>
      cases htid : s.interfaces tid with
      | serving session =>
          simp only [Manager.step, htid] at hstep
          obtain rfl := Option.some.inj hstep
          refine h.setInterface ?_ ?_ (fun hl => by cases hl) <;> rw [htid] <;> rfl
      | _ => simp [Manager.step, htid] at hstep
  | interface tid => exact h.interfaceStep hstep

theorem Orderly.mainStep_stores {fresh tid : ℕ} {isManager : Bool} (h : Orderly s)
    (hstep : s.mainStep fresh tid isManager = some t) :
    match s.stores (.main fresh tid isManager) with
    | .nothing => ∀ context index, t.slot context index = s.slot context index
    | .session context index session => s.Fills t context index session
    | .null session => s.Clears t session := by
  cases hmain : s.main with
  | accepting => simp [Manager.mainStep, hmain] at hstep
  | locking context address =>
      simp only [Manager.mainStep, hmain, stores] at hstep ⊢
      split at hstep
      · obtain rfl := Option.some.inj hstep
        simp
      · cases hstep
  | creating context address index =>
      simp only [Manager.mainStep, hmain, stores] at hstep ⊢
      split at hstep
      · obtain rfl := Option.some.inj hstep
        simp
      · cases hstep
  | starting context index session =>
      simp only [Manager.mainStep, hmain, stores] at hstep ⊢
      split at hstep
      · obtain rfl := Option.some.inj hstep
        simp
      · cases hstep
  | storing context index session =>
      simp only [Manager.mainStep, hmain, stores] at hstep ⊢
      obtain rfl := Option.some.inj hstep
      exact (h.store hmain).2
  | _ =>
      simp only [Manager.mainStep, hmain, stores] at hstep ⊢
      obtain rfl := Option.some.inj hstep
      simp

theorem Orderly.interfaceStep_stores {tid : ℕ} (h : Orderly s)
    (hstep : s.interfaceStep tid = some t) :
    match s.stores (.interface tid) with
    | .nothing => ∀ context index, t.slot context index = s.slot context index
    | .session context index session => s.Fills t context index session
    | .null session => s.Clears t session := by
  cases htid : s.interfaces tid with
  | leaving session =>
      simp only [Manager.interfaceStep, htid, stores] at hstep ⊢
      obtain ⟨record, -, hstep⟩ := Option.bind_eq_some_iff.mp hstep
      split at hstep
      · obtain rfl := Option.some.inj hstep
        simp
      · cases hstep
  | clearing session =>
      simp only [Manager.interfaceStep, htid, stores] at hstep ⊢
      obtain ⟨record, hheap, rfl⟩ := Option.map_eq_some_iff.mp hstep
      exact h.clears htid hheap
  | unlocking session =>
      simp only [Manager.interfaceStep, htid, stores] at hstep ⊢
      obtain ⟨record, -, rfl⟩ := Option.map_eq_some_iff.mp hstep
      simp
  | notifying session =>
      simp only [Manager.interfaceStep, htid, stores] at hstep ⊢
      obtain rfl := Option.some.inj hstep
      simp
  | freeing session =>
      simp only [Manager.interfaceStep, htid, stores] at hstep ⊢
      obtain rfl := Option.some.inj hstep
      simp
  | _ => simp [Manager.interfaceStep, htid] at hstep

theorem Orderly.storesOk (h : Orderly s) (a : Action) : s.StoresOk a := by
  intro t hstep
  cases a with
  | connect context address =>
      simp only [Manager.step, Option.mem_def] at hstep
      split at hstep
      · obtain rfl := Option.some.inj hstep
        exact fun _ _ => rfl
      · cases hstep
  | exit tid =>
      cases htid : s.interfaces tid with
      | serving session =>
          simp only [Manager.step, htid, Option.mem_def] at hstep
          obtain rfl := Option.some.inj hstep
          exact fun _ _ => rfl
      | _ => simp [Manager.step, htid] at hstep
  | main fresh tid isManager => exact h.mainStep_stores hstep
  | interface tid => exact h.interfaceStep_stores hstep

/-! ## Every run -/

/-- The main thread waits for a client, no session has an interface thread, and no lock is
taken. -/
structure Starts (s : Manager) : Prop where
  main : s.main = .accepting
  interfaces : ∀ tid, s.interfaces tid = .unused
  locks : ∀ context, s.lock context = none
  slotsOk : s.SlotsOk

theorem Starts.orderly (h : s.Starts) : Orderly s where
  mainLock context hc := by
    rw [h.main] at hc
    cases hc
  interfaceLock tid session record hs := by
    rw [h.interfaces] at hs
    cases hs
  slots := h.slotsOk.1
  reserved context index hr := by
    rw [h.main] at hr
    cases hr
  pending session hp := by
    rw [h.main] at hp
    cases hp
  unstarted tid session hu := by
    rw [h.main] at hu
    cases hu
  live tid session hs := by
    rw [h.interfaces] at hs
    cases hs
  listed tid session record hs := by
    rw [h.interfaces] at hs
    cases hs
  unlisted tid session hs := by
    rw [h.interfaces] at hs
    cases hs
  distinct tid tid' session hs := by
    rw [h.interfaces] at hs
    cases hs

/-- However clients connect and leave, each slot is empty or holds its own session; a connect
fills an empty slot, an exit clears the slot of its session, and nothing else touches one. -/
theorem slots_kept (h : s.Starts) (actions : List Action) :
    Always step SlotsOk s actions ∧ Along step StoresOk s actions := by
  have halways : Always step Orderly s actions :=
    Always.of_invariant (fun _ _ _ horderly hstep => horderly.step hstep) h.orderly actions
  have halong : Along step (fun s _ => Orderly s) s actions :=
    halways.along fun _ _ _ _ horderly _ => horderly
  exact ⟨halways.mono fun _ horderly => horderly.slotsOk,
    halong.mono fun _ a horderly => horderly.storesOk a⟩

/-- Two free slots in each context. -/
def initial : Manager where
  contexts _ := ⟨[none, none], none⟩
  heap _ := none
  main := .accepting
  interfaces _ := .unused

/-- The main thread lets a client in; `session` is the pointer and `tid` the interface thread. -/
def letIn (context session tid : ℕ) : List Action :=
  .connect context .zero :: List.replicate 7 (.main session tid true)

/-- The first session leaves before it is stored, the second takes the other slot, and a third
takes the slot that the first has given back, while the thread of the first still runs. -/
def earlyExit : List Action :=
  (letIn 0 10 1).take 6 ++ [.exit 1] ++ (letIn 0 10 1).drop 6 ++ letIn 0 11 2 ++
    List.replicate 3 (.interface 1) ++ letIn 0 12 3 ++ List.replicate 2 (.interface 1)

theorem slot_initial (context index session : ℕ) :
    initial.slot context index ≠ some (some session) := by
  intro h
  have hmem : some session ∈ [none, none] := List.mem_of_getElem? h
  simp at hmem

theorem earlyExit_kept :
    (run step initial earlyExit).map (fun t => (t.contexts 0).sessions) =
        some [some 12, some 11] ∧
      Always step SlotsOk initial earlyExit ∧ Along step StoresOk initial earlyExit :=
  ⟨by rfl, slots_kept ⟨rfl, fun _ => rfl, fun _ => rfl,
    fun _ _ _ h => absurd h (slot_initial _ _ _),
    fun _ _ _ _ _ h => absurd h (slot_initial _ _ _)⟩ earlyExit⟩

end Manager

end SyncServer.Slots
