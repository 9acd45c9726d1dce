import SyncServer.Files.Incoming

/-! # What a manager and its replica have in common

The same users, and for each the same slots, list and files. The sessions themselves differ: a
replica has no buffers to fill.
-/

namespace SyncServer

open CText Ending

/-! ## When the states are related -/

section

variable {α β : Type*} {R : α → β → Prop} {x : Option α} {y : Option β}

theorem rel_mono {S : α → β → Prop} (h : Option.Rel R x y) (hmono : ∀ a b, R a b → S a b) :
    Option.Rel S x y := by
  cases h with
  | some h => exact .some (hmono _ _ h)
  | none => exact .none

theorem isSome_of_rel (h : Option.Rel R x y) : y.isSome = x.isSome := by
  cases h with
  | some h => rfl
  | none => rfl

theorem exists_of_rel (h : Option.Rel R x y) {a : α} (ha : x = some a) :
    ∃ b, y = some b ∧ R a b := by
  cases h with
  | some h =>
      cases ha
      exact ⟨_, rfl, h⟩
  | none => cases ha

theorem getD_of_rel (h : Option.Rel R x y) {a : α} {b : β} (hab : R a b) :
    R (x.getD a) (y.getD b) := by
  cases h with
  | some h => exact h
  | none => exact hab

end

/-- The addresses in the slots. -/
def UserContext.slots (context : UserContext) : List (Option SockAddrIn) :=
  context.sessions.map (Option.map Session.deviceAddress)

/-- Two servers have the same of a user, and the addresses tell its sessions apart. -/
structure SameUser (context backup : UserContext) : Prop where
  slots : context.slots = backup.slots
  distinct : context.addresses.Nodup
  fileList : context.fileList = backup.fileList

/-- The same users and the same stored files. -/
structure Related {Path : Type} (manager backup : Store Path) : Prop where
  users : ∀ name, Option.Rel SameUser (manager.table.find name) (backup.table.find name)
  disk : manager.disk = backup.disk

/-! ### The slots by their addresses -/

namespace UserContext

theorem addresses_eq_slots (context : UserContext) :
    context.addresses = context.slots.reduceOption :=
  (List.reduceOption_map ..).symm

theorem getElem?_slots (context : UserContext) (index : ℕ) :
    context.slots[index]? = context.sessions[index]?.map (Option.map Session.deviceAddress) :=
  List.getElem?_map ..

theorem slots_addSession (context : UserContext) (session : Session) :
    (context.addSession session).slots =
      context.slots.set session.sessionIndex (some session.deviceAddress) :=
  List.map_set ..

theorem slots_removeSession (context : UserContext) (index : ℕ) :
    (context.removeSession index).slots = context.slots.set index none :=
  List.map_set ..

@[simp] theorem slots_setFileList (context : UserContext) (fileList : List FileNode) :
    (context.setFileList fileList).slots = context.slots := rfl

theorem findFreeSessionIndex_eq_slots (context : UserContext) :
    context.findFreeSessionIndex = context.slots.findIdx? (·.isNone) := by
  rw [findFreeSessionIndex, slots, List.findIdx?_map]
  congr 1
  funext session
  simp

/-- A session in a slot, told by its address. -/
theorem getElem?_slots_eq_some {context : UserContext} {index : ℕ} {address : SockAddrIn} :
    context.slots[index]? = some (some address) ↔ ∃ session,
      context.sessions[index]? = some (some session) ∧ session.deviceAddress = address := by
  rw [getElem?_slots]
  cases context.sessions[index]? with
  | none => simp
  | some slot => cases slot <;> simp

theorem mem_addresses_of_slot {context : UserContext} {index : ℕ} {address : SockAddrIn}
    (h : context.slots[index]? = some (some address)) : address ∈ context.addresses := by
  rw [addresses_eq_slots, List.reduceOption_mem_iff]
  exact List.mem_of_getElem? h

end UserContext

/-- Different entries are in different slots. -/
theorem index_eq_of_nodup {α : Type*} {slots : List (Option α)} (h : slots.reduceOption.Nodup)
    {i j : ℕ} {x : α} (hi : slots[i]? = some (some x)) (hj : slots[j]? = some (some x)) :
    i = j := by
  by_contra hne
  have hclear := (perm_reduceOption_clear hi).nodup_iff.mp h
  have hmem : x ∈ (slots.set i none).reduceOption := by
    rw [List.reduceOption_mem_iff]
    exact List.mem_of_getElem? ((List.getElem?_set_ne hne).trans hj)
  exact (List.nodup_cons.mp hclear).1 hmem

/-- The replica finds the slot of a session by its address. -/
theorem SameUser.getUserSessionByAddress {context backup : UserContext}
    (h : SameUser context backup) {index : ℕ} {session : Session}
    (hslot : context.sessions[index]? = some (some session)) :
    ∃ found, backup.getUserSessionByAddress session.deviceAddress = some found ∧
      found.sessionIndex = index ∧ backup.sessions[index]? = some (some found) := by
  have haddress : context.slots[index]? = some (some session.deviceAddress) :=
    UserContext.getElem?_slots_eq_some.mpr ⟨session, hslot, rfl⟩
  have hmem := UserContext.mem_addresses_of_slot (h.slots ▸ haddress)
  cases hfound : backup.getUserSessionByAddress session.deviceAddress with
  | none => exact absurd hmem (UserContext.getUserSessionByAddress_eq_none_iff.mp hfound)
  | some found =>
      obtain ⟨hindex, hsame⟩ := UserContext.getUserSessionByAddress_eq_some hfound
      have hother : context.slots[found.sessionIndex]? = some (some session.deviceAddress) := by
        rw [h.slots]
        exact UserContext.getElem?_slots_eq_some.mpr ⟨found, hindex, hsame⟩
      have hnodup : context.slots.reduceOption.Nodup :=
        context.addresses_eq_slots ▸ h.distinct
      obtain rfl := index_eq_of_nodup hnodup haddress hother
      exact ⟨found, rfl, rfl, hindex⟩

/-! ## The invariant of one user -/

/-- No session in a slot has left its loop. -/
def UserContext.AllActive (context : UserContext) : Prop :=
  ∀ (index : ℕ) (session : Session), context.sessions[index]? = some (some session) →
    session.active = true

/-- The user of a manager and of a replica that has read everything. -/
structure Simulates (context backup : UserContext) : Prop where
  same : SameUser context backup
  active : context.AllActive
  backupActive : backup.AllActive

namespace UserContext

theorem allActive_addSession {context : UserContext} {session : Session}
    (h : context.AllActive) (hsession : session.active = true) :
    (context.addSession session).AllActive := by
  intro index other hother
  by_cases hindex : session.sessionIndex = index
  · subst hindex
    cases hold : context.sessions[session.sessionIndex]? with
    | none =>
        rw [addSession, List.getElem?_set_self', hold] at hother
        cases hother
    | some old =>
        rw [getElem?_addSession_self hold] at hother
        obtain rfl := Option.some.inj (Option.some.inj hother)
        exact hsession
  · rw [getElem?_addSession_of_ne hindex] at hother
    exact h index other hother

theorem allActive_removeSession {context : UserContext} (h : context.AllActive) (index : ℕ) :
    (context.removeSession index).AllActive := by
  intro other session hsession
  by_cases hindex : index = other
  · subst hindex
    rw [removeSession, List.getElem?_set_self'] at hsession
    cases hold : context.sessions[index]? with
    | none => simp [hold] at hsession
    | some old => simp [hold] at hsession
  · rw [removeSession, List.getElem?_set_ne hindex] at hsession
    exact h other session hsession

theorem slots_of_handed {context context' : UserContext} {receives : ℕ → Prop}
    {entry : FileEntry} (h : context.Handed receives entry context') :
    context'.slots = context.slots := by
  apply List.ext_getElem?
  intro index
  rw [getElem?_slots, getElem?_slots]
  by_cases hreceives : receives index
  · rw [h.slot index hreceives, Option.map_map]
    congr 1
    funext slot
    cases slot <;> rfl
  · rw [h.slot_of_not index hreceives]

theorem allActive_of_handed {context context' : UserContext} {receives : ℕ → Prop}
    {entry : FileEntry} (h : context.Handed receives entry context') (hactive : context.AllActive) :
    context'.AllActive := by
  intro index session hsession
  by_cases hreceives : receives index
  · rw [h.slot index hreceives] at hsession
    obtain ⟨slot, hslot, hsession⟩ := Option.map_eq_some_iff.mp hsession
    obtain ⟨old, rfl, rfl⟩ := Option.map_eq_some_iff.mp hsession
    exact hactive index old hslot
  · rw [h.slot_of_not index hreceives] at hsession
    exact hactive index session hsession

end UserContext

theorem simulates_createContext (username : Bytes) :
    Simulates (createContext username) (createContext username) := by
  have hactive : (createContext username).AllActive := by
    intro index session hsession
    simp [createContext, List.getElem?_replicate] at hsession
  exact ⟨⟨rfl, by simp, rfl⟩, hactive, hactive⟩

namespace Simulates

variable {context backup : UserContext}

/-- What the other slots and lists do not show does not matter. -/
theorem congr {context' backup' : UserContext} (h : Simulates context backup)
    (hslots : context'.slots = context.slots) (hslots' : backup'.slots = backup.slots)
    (hlist : context'.fileList = backup'.fileList) (hactive : context'.AllActive)
    (hactive' : backup'.AllActive) : Simulates context' backup' := by
  refine ⟨⟨(hslots.trans h.same.slots).trans hslots'.symm, ?_, hlist⟩, hactive, hactive'⟩
  rw [UserContext.addresses_eq_slots, hslots, ← UserContext.addresses_eq_slots]
  exact h.same.distinct

/-- A change of the list that is handed to some of the sessions. -/
theorem handed (h : Simulates context backup) {list : List FileNode}
    {receives receives' : ℕ → Prop} {entry : FileEntry} {context' backup' : UserContext}
    (hmanager : (context.setFileList list).Handed receives entry context')
    (hbackup : (backup.setFileList list).Handed receives' entry backup') :
    Simulates context' backup' := by
  have hactive : (context.setFileList list).AllActive := h.active
  have hactive' : (backup.setFileList list).AllActive := h.backupActive
  refine h.congr ?_ ?_ (hmanager.fileList.trans hbackup.fileList.symm)
    (UserContext.allActive_of_handed hmanager hactive)
    (UserContext.allActive_of_handed hbackup hactive')
  · exact (UserContext.slots_of_handed hmanager).trans (context.slots_setFileList list)
  · exact (UserContext.slots_of_handed hbackup).trans (backup.slots_setFileList list)

theorem findFreeSessionIndex (h : Simulates context backup) :
    backup.findFreeSessionIndex = context.findFreeSessionIndex := by
  rw [UserContext.findFreeSessionIndex_eq_slots, UserContext.findFreeSessionIndex_eq_slots,
    h.same.slots]

/-- A new session takes the same slot. -/
theorem addSession (h : Simulates context backup) {index : ℕ} {address : SockAddrIn}
    (hindex : context.findFreeSessionIndex = some index) (hfresh : address ∉ context.addresses) :
    Simulates (context.addSession (createSession index address))
      (backup.addSession (createSession index address)) where
  same := by
    refine ⟨?_, ?_, h.same.fileList⟩
    · rw [UserContext.slots_addSession, UserContext.slots_addSession, h.same.slots]
    · have hfree := UserContext.findFreeSessionIndex_eq_some hindex
      have hperm : (context.addSession (createSession index address)).addresses.Perm
          (address :: context.addresses) := UserContext.addresses_addSession hfree
      exact hperm.nodup_iff.mpr (List.nodup_cons.mpr ⟨hfresh, h.same.distinct⟩)
  active := UserContext.allActive_addSession h.active rfl
  backupActive := UserContext.allActive_addSession h.backupActive rfl

/-- A session leaves the same slot. -/
theorem removeSession (h : Simulates context backup) {index : ℕ} {session : Session}
    (hslot : context.sessions[index]? = some (some session)) :
    Simulates (context.removeSession index) (backup.removeSession index) where
  same := by
    refine ⟨?_, ?_, h.same.fileList⟩
    · rw [UserContext.slots_removeSession, UserContext.slots_removeSession, h.same.slots]
    · obtain rfl := context.indexed index session hslot
      have hperm := UserContext.addresses_removeSession hslot
      exact (List.nodup_cons.mp (hperm.nodup_iff.mp h.same.distinct)).2
  active := UserContext.allActive_removeSession h.active index
  backupActive := UserContext.allActive_removeSession h.backupActive index

/-- The send thread of a session takes an entry. -/
theorem deliver (h : Simulates context backup) {index : ℕ} {session session' : Session}
    {entry : FileEntry} (hslot : context.sessions[index]? = some (some session))
    (hnext : getNextFileToSync session = some (entry, session')) :
    Simulates (context.addSession session') backup := by
  obtain ⟨-, hindex, hactive⟩ := getNextFileToSync_eq_some hnext
  have haddress : session'.deviceAddress = session.deviceAddress := by
    unfold getNextFileToSync at hnext
    split at hnext <;> cases hnext
    rfl
  refine h.congr ?_ rfl h.same.fileList (UserContext.allActive_addSession h.active ?_)
    h.backupActive
  · rw [UserContext.slots_addSession, haddress, hindex]
    rw [context.indexed index session hslot]
    obtain ⟨hlt, hget⟩ := List.getElem?_eq_some_iff.mp
      (UserContext.getElem?_slots_eq_some.mpr ⟨session, hslot, rfl⟩)
    rw [← hget, List.set_getElem_self]
  · rw [hactive]
    exact h.active index session hslot

end Simulates

/-! ## The invariant of the two servers -/

/-- The replica has read all that the manager has sent. -/
structure CaughtUp {Path : Type} (manager backup : Store Path) : Prop where
  users : ∀ name, Option.Rel Simulates (manager.table.find name) (backup.table.find name)
  named : ∀ name context, manager.table.find name = some context →
    Carried name ∧ name.length ≤ maxUsernameLength
  disk : manager.disk = backup.disk

namespace CaughtUp

variable {Path : Type} {manager backup : Store Path}

theorem related (h : CaughtUp manager backup) : Related manager backup :=
  ⟨fun name => rel_mono (h.users name) fun _ _ => Simulates.same, h.disk⟩

/-- A change of one user on both servers. -/
theorem replaces (h : CaughtUp manager backup) {name : Bytes} {context context' : UserContext}
    {table table' : HashTable} {disk disk' : Disk Path}
    (hmanager : manager.table.Replaces name context table)
    (hbackup : backup.table.Replaces name context' table') (hsim : Simulates context context')
    (hname : Carried name ∧ name.length ≤ maxUsernameLength) (hdisk : disk = disk') :
    CaughtUp (⟨table, disk⟩ : Store Path) ⟨table', disk'⟩ where
  users other := by
    by_cases hother : other = name
    · subst hother
      rw [hmanager.find, hbackup.find]
      exact .some hsim
    · rw [hmanager.find_of_ne other hother, hbackup.find_of_ne other hother]
      exact h.users other
  named other found hfound := by
    by_cases hother : other = name
    · exact hother ▸ hname
    · rw [hmanager.find_of_ne other hother] at hfound
      exact h.named other found hfound
  disk := hdisk

/-- Both servers find or create the context, or both run off the list. -/
theorem getOrCreateContext (h : CaughtUp manager backup) {name : Bytes} {table : HashTable}
    {context : UserContext}
    (hcreate : manager.table.getOrCreateContext name = some (table, context)) :
    ∃ table' context', backup.table.getOrCreateContext name = some (table', context') ∧
      Simulates context context' ∧ manager.table.Replaces name context table ∧
      backup.table.Replaces name context' table' := by
  have hsearch : backup.table.search name ≠ none := by
    intro hnone
    obtain ⟨hfind, other, hhash, hother⟩ := HashTable.search_eq_none_iff.mp hnone
    have hmanager : manager.table.search name = none := by
      refine HashTable.search_eq_none_iff.mpr
        ⟨?_, other, hhash, isSome_of_rel (h.users other) ▸ hother⟩
      rw [← Option.isNone_iff_eq_none, ← Option.not_isSome, ← isSome_of_rel (h.users name), hfind]
      rfl
    rw [HashTable.getOrCreateContext, hmanager] at hcreate
    cases hcreate
  obtain ⟨found, hfound⟩ := Option.ne_none_iff_exists'.mp hsearch
  obtain ⟨⟨table', context'⟩, hcreate'⟩ : ∃ result,
      backup.table.getOrCreateContext name = some result := by
    rw [HashTable.getOrCreateContext, hfound]
    exact ⟨_, rfl⟩
  obtain ⟨hfind, hcontext, hne⟩ := HashTable.find_getOrCreateContext hcreate
  obtain ⟨hfind', hcontext', hne'⟩ := HashTable.find_getOrCreateContext hcreate'
  refine ⟨table', context', hcreate', ?_, ⟨hfind, hne⟩, ⟨hfind', hne'⟩⟩
  rw [hcontext, hcontext']
  exact getD_of_rel (h.users name) (simulates_createContext name)

/-- The contexts behind a session of the manager. -/
theorem session (h : CaughtUp manager backup) {username : Bytes} {slot : ℕ}
    {session : Session} (hsession : manager.session username slot = some session) :
    ∃ context context', manager.table.find username = some context ∧
      backup.table.find username = some context' ∧ Simulates context context' ∧
      context.sessions[slot]? = some (some session) ∧ session.sessionIndex = slot ∧
      session.active = true := by
  obtain ⟨context, hfind, hslot⟩ := Store.session_eq_some.mp hsession
  obtain ⟨context', hfind', hsim⟩ := exists_of_rel (h.users username) hfind
  exact ⟨context, context', hfind, hfind', hsim, hslot, context.indexed slot session hslot,
    hsim.active slot session hslot⟩

end CaughtUp

end SyncServer
