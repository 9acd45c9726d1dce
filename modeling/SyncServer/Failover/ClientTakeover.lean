import SyncServer.Replication.Buckets
import SyncServer.Sessions.ContextTable
import SyncServer.Wire.Registration

/-! # The clients in a takeover

A replica that wins an election tells the clients of the old manager of itself, and then forgets
their sessions. The main thread lets clients in all the while, so that a client can be back before
its session is forgotten. A step is the visit of one bucket under its lock, or a new connection.
The clients that are let in neither leave nor change a file before the takeover is over.
-/

namespace SyncServer

open CText Ending Transition

/-! ## The two walks -/

def notificationPort : ℤ := 12345

/-- Where a client waits for notifications. -/
def notificationAddress (deviceAddress : SockAddrIn) : SockAddrIn :=
  { deviceAddress with sinPort := htons notificationPort }

/-- How it goes with a client: no socket, no connection, or the packet is sent. -/
inductive Dial where
  | noSocket
  | refused
  | connected
  deriving DecidableEq, Repr

/-- What was done for a session. -/
structure Attempt where
  username : Bytes
  clientAddress : SockAddrIn
  sent : Option Packet
  deriving DecidableEq, Repr

section

variable (dials : ℕ → Dial) (packet : Packet)

/-- The loop of `send_packet_all_users` over the slots. A client that cannot be reached is passed
over. -/
def sendToSessions (username : Bytes) (sessions : List (Option Session))
    (attempts : List Attempt) : List Attempt :=
  sessions.foldl (fun attempts slot =>
    match slot with
    | none => attempts
    | some session =>
        attempts ++ [⟨username, notificationAddress session.deviceAddress,
          if dials attempts.length = .connected then some packet else none⟩]) attempts

/-- The loop over the nodes of a bucket. -/
def sendToBucket (list : List (Bytes × UserContext)) (attempts : List Attempt) : List Attempt :=
  list.foldl (fun attempts node =>
    sendToSessions dials packet node.1 node.2.sessions attempts) attempts

end

/-- The loop of `disconnect_all_users` over the slots. -/
def UserContext.disconnect (context : UserContext) : UserContext :=
  (List.range maxSessions).foldl removeSession context

def HashTable.disconnectBucket (table : HashTable) (index : ℕ) : HashTable where
  array := Function.update table.array index
    ((table.array index).map fun node => (node.1, node.2.disconnect))
  hashed i node h := by
    by_cases hi : i = index
    · subst hi
      rw [Function.update_self] at h
      obtain ⟨old, hold, rfl⟩ := List.mem_map.mp h
      exact table.hashed i old hold
    · rw [Function.update_of_ne hi] at h
      exact table.hashed i node h

/-! ## The takeover -/

/-- Where `run_as_backup` stands: in one of the walks at a bucket, or past them. -/
inductive TakeoverWalk where
  | notifying (index : ℕ)
  | disconnecting (index : ℕ)
  | finished
  deriving DecidableEq, Repr

structure ClientTakeover where
  table : HashTable
  walk : TakeoverWalk
  attempts : List Attempt

namespace ClientTakeover

inductive Action where
  | visit
  | connect (request : Bytes) (deviceAddress : SockAddrIn)
  deriving DecidableEq, Repr

/-- `notify_clients_of_server_change`, `disconnect_all_users` and `handle_new_connection`. -/
def step (dials : ℕ → Dial) (newAddress : SockAddrIn) (s : ClientTakeover) :
    Action → Option ClientTakeover
  | .visit =>
      match s.walk with
      | .notifying index =>
          if index < tableSize then
            some { s with
              walk := .notifying (index + 1)
              attempts := sendToBucket dials (notificationPacket newAddress)
                (s.table.array index) s.attempts }
          else some { s with walk := .disconnecting 0 }
      | .disconnecting index =>
          if index < tableSize then
            some { s with
              walk := .disconnecting (index + 1)
              table := s.table.disconnectBucket index }
          else some { s with walk := .finished }
      | .finished => none
  | .connect request deviceAddress =>
      (handleNewConnection s.table (some request) true true deviceAddress).returned.map
        fun (_, table, _) => { s with table }

def start (table : HashTable) : ClientTakeover := ⟨table, .notifying 0, []⟩

/-- The clients of each user that came before the first walk was at its bucket, and those that came
after the second one was. -/
structure Comers where
  early : Bytes → List SockAddrIn
  late : Bytes → List SockAddrIn

def Comers.none : Comers := ⟨fun _ => [], fun _ => []⟩

end ClientTakeover

def TakeoverWalk.hasNotified : TakeoverWalk → Bytes → Bool
  | notifying index, username => keyHash username tableSize < index
  | _, _ => true

def TakeoverWalk.hasDisconnected : TakeoverWalk → Bytes → Bool
  | notifying _, _ => false
  | disconnecting index, username => keyHash username tableSize < index
  | finished, _ => true

namespace ClientTakeover

def comersAfter (comers : Comers) (s : ClientTakeover) : Action → Comers
  | .visit => comers
  | .connect request deviceAddress =>
      let username := (readUsername request).name
      if s.walk.hasNotified username = false then
        { comers with
          early := Function.update comers.early username
            (comers.early username ++ [deviceAddress]) }
      else if s.walk.hasDisconnected username = true then
        { comers with
          late := Function.update comers.late username (comers.late username ++ [deviceAddress]) }
      else comers

abbrev stepWithComers (dials : ℕ → Dial) (newAddress : SockAddrIn) :
    Comers × ClientTakeover → Action → Option (Comers × ClientTakeover) :=
  watch comersAfter (step dials newAddress)

/-- The addresses to which a user's clients were dialled. -/
def dialled (attempts : List Attempt) (username : Bytes) : List SockAddrIn :=
  (attempts.filter (·.username = username)).map (·.clientAddress)

/-- The addresses of sessions after some clients came to those that were there. -/
def joinedBy (addresses comers : List SockAddrIn) : List SockAddrIn :=
  addresses ++ comers.take (maxSessions - addresses.length)

end ClientTakeover

/-! ## What the loops do -/

section

variable {dials : ℕ → Dial} {packet : Packet}

/-- The packet was sent where the connection was made, whatever became of the others. -/
def SentWhere (dials : ℕ → Dial) (packet : Packet) (attempts : List Attempt) : Prop :=
  ∀ (i : ℕ) (attempt : Attempt), attempts[i]? = some attempt →
    attempt.sent = if dials i = .connected then some packet else none

theorem SentWhere.concat {attempts : List Attempt} (h : SentWhere dials packet attempts)
    (username : Bytes) (clientAddress : SockAddrIn) :
    SentWhere dials packet (attempts ++ [⟨username, clientAddress,
      if dials attempts.length = .connected then some packet else none⟩]) := by
  intro i attempt hi
  by_cases hlast : i < attempts.length
  · rw [List.getElem?_append_left hlast] at hi
    exact h i attempt hi
  · rw [List.getElem?_append_right (not_lt.mp hlast), List.getElem?_singleton] at hi
    split at hi
    · rename_i hsub
      obtain rfl : i = attempts.length := by omega
      obtain rfl := Option.some.inj hi
      rfl
    · cases hi

theorem sendToSessions_spec (username : Bytes) (sessions : List (Option Session))
    {attempts : List Attempt} (h : SentWhere dials packet attempts) :
    SentWhere dials packet (sendToSessions dials packet username sessions attempts) ∧
      (sendToSessions dials packet username sessions attempts).map
          (fun attempt => (attempt.username, attempt.clientAddress)) =
        attempts.map (fun attempt => (attempt.username, attempt.clientAddress)) ++
          sessions.reduceOption.map fun session =>
            (username, notificationAddress session.deviceAddress) := by
  induction sessions generalizing attempts with
  | nil => exact ⟨h, (List.append_nil _).symm⟩
  | cons slot sessions ih =>
      cases slot with
      | none => exact ih h
      | some session =>
          obtain ⟨hsent, hmap⟩ :=
            ih (h.concat username (notificationAddress session.deviceAddress))
          refine ⟨hsent, ?_⟩
          rw [sendToSessions, List.foldl_cons]
          refine hmap.trans ?_
          simp

theorem sendToBucket_spec (list : List (Bytes × UserContext)) {attempts : List Attempt}
    (h : SentWhere dials packet attempts) :
    SentWhere dials packet (sendToBucket dials packet list attempts) ∧
      (sendToBucket dials packet list attempts).map
          (fun attempt => (attempt.username, attempt.clientAddress)) =
        attempts.map (fun attempt => (attempt.username, attempt.clientAddress)) ++
          list.flatMap fun node =>
            node.2.addresses.map fun address => (node.1, notificationAddress address) := by
  induction list generalizing attempts with
  | nil => exact ⟨h, (List.append_nil _).symm⟩
  | cons node list ih =>
      obtain ⟨hsent, hmap⟩ := sendToSessions_spec node.1 node.2.sessions h
      obtain ⟨hsent, hrest⟩ := ih hsent
      refine ⟨hsent, ?_⟩
      rw [sendToBucket, List.foldl_cons]
      refine hrest.trans ?_
      rw [hmap, List.flatMap_cons, List.append_assoc]
      simp [UserContext.addresses, Function.comp_def]

end

namespace UserContext

theorem getElem?_foldl_removeSession (context : UserContext) (n i : ℕ) :
    ((List.range n).foldl removeSession context).sessions[i]? =
      if i < n then context.sessions[i]?.map fun _ => none else context.sessions[i]? := by
  induction n with
  | zero => simp
  | succ n ih =>
      rw [List.range_succ, List.foldl_append, List.foldl_cons, List.foldl_nil, removeSession,
        List.getElem?_set']
      by_cases hi : n = i
      · subst hi
        rw [if_pos rfl, ih, if_neg (lt_irrefl n), if_pos (Nat.lt_succ_self n)]
        rfl
      · rw [if_neg hi, ih]
        have hiff : i < n ↔ i < n + 1 := by omega
        simp only [hiff]

theorem addresses_disconnect (context : UserContext) : context.disconnect.addresses = [] := by
  rw [addresses, List.map_eq_nil_iff, List.eq_nil_iff_forall_not_mem]
  intro session hsession
  obtain ⟨i, hi⟩ := List.mem_iff_getElem?.mp (List.reduceOption_mem_iff.mp hsession)
  rw [disconnect, getElem?_foldl_removeSession] at hi
  split at hi
  · obtain ⟨_, -, hnone⟩ := Option.map_eq_some_iff.mp hi
    cases hnone
  · rename_i hlast
    rw [List.getElem?_eq_none (by rw [context.length_sessions]; omega)] at hi
    cases hi

theorem fileList_disconnect (context : UserContext) :
    context.disconnect.fileList = context.fileList := by
  rw [disconnect]
  generalize List.range maxSessions = indices
  induction indices generalizing context with
  | nil => rfl
  | cons index indices ih => exact ih (context.removeSession index)

theorem length_addresses_le (context : UserContext) : context.addresses.length ≤ maxSessions := by
  rw [addresses, List.length_map, ← context.length_sessions]
  exact List.reduceOption_length_le _

end UserContext

namespace HashTable

variable {table : HashTable}

theorem length_addresses_le (table : HashTable) (name : Bytes) :
    (table.addresses name).length ≤ maxSessions := by
  cases hfind : table.find name with
  | none => simp [addresses, hfind]
  | some context =>
      rw [addresses_of_find hfind]
      exact context.length_addresses_le

/-! ### A bucket -/

/-- The bucket of a user holds the user, another one or nobody. -/
theorem OneEach.bucket (h : table.OneEach) (name : Bytes) :
    (table.array (keyHash name tableSize) = [] ∧ table.find name = none) ∨
      ∃ node, table.array (keyHash name tableSize) = [node] ∧
        table.find name = if node.1 = name then some node.2 else none := by
  cases hlist : table.array (keyHash name tableSize) with
  | nil => exact Or.inl ⟨rfl, by simp [find, hlist]⟩
  | cons node rest =>
      have hlength := h (keyHash name tableSize)
      rw [hlist, List.length_cons] at hlength
      obtain rfl := List.eq_nil_of_length_eq_zero (by omega : rest.length = 0)
      refine Or.inr ⟨node, rfl, ?_⟩
      by_cases hname : node.1 = name
      · simp [find, hlist, hname]
      · simp [find, hlist, hname]

/-- What the visit of a bucket finds of a user. -/
theorem OneEach.addresses_in_bucket (h : table.OneEach) (name : Bytes) (index : ℕ) :
    (table.array index).flatMap (fun node =>
        if node.1 = name then node.2.addresses else []) =
      if keyHash name tableSize = index then table.addresses name else [] := by
  split
  · rename_i hindex
    subst hindex
    rcases h.bucket name with ⟨hnil, hfind⟩ | ⟨node, hnode, hfind⟩
    · simp [hnil, addresses, hfind]
    · rw [hnode, addresses, hfind, List.flatMap_singleton]
      split <;> rfl
  · rename_i hindex
    rw [List.flatMap_eq_nil_iff]
    intro node hnode
    have hother : node.1 ≠ name := fun heq => hindex (heq ▸ table.hashed index node hnode)
    rw [if_neg hother]

theorem OneEach.disconnectBucket (h : table.OneEach) (index : ℕ) :
    (table.disconnectBucket index).OneEach := by
  intro i
  by_cases hi : i = index
  · subst hi
    simp only [HashTable.disconnectBucket, Function.update_self, List.length_map]
    exact h i
  · simp only [HashTable.disconnectBucket, Function.update_of_ne hi]
    exact h i

theorem find_disconnectBucket (table : HashTable) (index : ℕ) (name : Bytes) :
    (table.disconnectBucket index).find name =
      if keyHash name tableSize = index then (table.find name).map UserContext.disconnect
      else table.find name := by
  split
  · rename_i hindex
    subst hindex
    simp only [find, disconnectBucket, Function.update_self, List.find?_map, Option.map_map]
    rfl
  · rename_i hindex
    simp only [find, disconnectBucket, Function.update_of_ne hindex]

theorem addresses_disconnectBucket (table : HashTable) (index : ℕ) (name : Bytes) :
    (table.disconnectBucket index).addresses name =
      if keyHash name tableSize = index then [] else table.addresses name := by
  rw [addresses, find_disconnectBucket]
  split
  · cases table.find name with
    | none => rfl
    | some context => exact context.addresses_disconnect
  · rfl

theorem fileList_disconnectBucket (table : HashTable) (index : ℕ) (name : Bytes) :
    (table.disconnectBucket index).fileList name = table.fileList name := by
  rw [fileList, find_disconnectBucket]
  split
  · rw [fileList]
    cases table.find name with
    | none => rfl
    | some context => exact context.fileList_disconnect
  · rfl

/-! ### A new connection -/

/-- A client is let in while its user has a free slot. -/
structure Joins (table : HashTable) (username : Bytes) (deviceAddress : SockAddrIn)
    (table' : HashTable) : Prop where
  oneEach : table'.OneEach
  fileList : ∀ name, table'.fileList name = table.fileList name
  addresses : (table'.addresses username).Perm
    (if (table.addresses username).length < maxSessions then
      deviceAddress :: table.addresses username else table.addresses username)
  addresses_of_ne : ∀ name, name ≠ username → table'.addresses name = table.addresses name

theorem fileList_getOrCreateContext {username : Bytes} {table' : HashTable} {context : UserContext}
    (h : table.getOrCreateContext username = some (table', context)) (name : Bytes) :
    table'.fileList name = table.fileList name := by
  obtain ⟨hfind, hcontext, hother⟩ := find_getOrCreateContext h
  by_cases hname : name = username
  · subst hname
    rw [fileList_of_find hfind, hcontext, fileList]
    cases table.find name <;> rfl
  · rw [fileList, fileList, hother name hname]

theorem joins_handleNewConnection (h : table.OneEach) {request username : Bytes}
    {deviceAddress : SockAddrIn} {table' : HashTable} {session : Option (Session × ReplicaEvent)}
    (hdone : handleNewConnection table (some request) true true deviceAddress =
      done (username, table', session)) :
    username = (readUsername request).name ∧ table.Joins username deviceAddress table' := by
  have hone := h.handleNewConnection _ _ _ _ _ hdone
  simp only [handleNewConnection, deref_some, bind_done, Bool.and_self, if_true] at hdone
  obtain ⟨⟨table₁, session₁⟩, hinit, hresult⟩ := bind_eq_done.mp hdone
  cases hresult
  obtain ⟨⟨table₁, context⟩, hcreate, hinit⟩ := bind_eq_done.mp hinit
  have hcreate := deref_eq_done.mp hcreate
  have hfind := (find_getOrCreateContext hcreate).1
  have hsame := addresses_getOrCreateContext hcreate
  have hfiles := fileList_getOrCreateContext hcreate
  have hcontext : context.addresses = table.addresses (readUsername request).name := by
    rw [← addresses_of_find hfind, hsame]
  refine ⟨rfl, ?_⟩
  cases hindex : context.findFreeSessionIndex with
  | none =>
      simp only [hindex] at hinit
      cases hinit
      have hfull : ¬(table.addresses (readUsername request).name).length < maxSessions :=
        fun hfree => UserContext.findFreeSessionIndex_ne_none (hcontext ▸ hfree) hindex
      refine ⟨hone, hfiles, ?_, fun name _ => hsame name⟩
      rw [if_neg hfull, hsame]
  | some index =>
      simp only [hindex] at hinit
      cases hinit
      have hslot := UserContext.findFreeSessionIndex_eq_some hindex
      have hperm : (context.addSession (createSession index deviceAddress)).addresses.Perm
          (deviceAddress :: context.addresses) := UserContext.addresses_addSession hslot
      have hjoined := addresses_modify_self hfind (·.addSession (createSession index deviceAddress))
      have hfree : (table.addresses (readUsername request).name).length < maxSessions := by
        have hle := (context.addSession (createSession index deviceAddress)).length_addresses_le
        rw [hperm.length_eq, List.length_cons, hcontext] at hle
        exact hle
      refine ⟨hone, fun name => ?_, ?_, fun name hname => ?_⟩
      · by_cases hname : name = (readUsername request).name
        · subst hname
          rw [fileList_addSession hfind, hfiles]
        · rw [fileList, find_modify, if_neg hname, ← fileList, hfiles]
      · rw [if_pos hfree, hjoined, ← hcontext]
        exact hperm
      · rw [addresses_modify_of_ne hname, hsame]

end HashTable

namespace ClientTakeover

variable {dials : ℕ → Dial} {newAddress : SockAddrIn} {table : HashTable}

/-! ## One more client -/

theorem joinedBy_of_full {addresses comers : List SockAddrIn}
    (h : ¬(joinedBy addresses comers).length < maxSessions)
    (hle : addresses.length ≤ maxSessions) (deviceAddress : SockAddrIn) :
    joinedBy addresses (comers ++ [deviceAddress]) = joinedBy addresses comers := by
  simp only [joinedBy, List.length_append, List.length_take] at h
  rw [joinedBy, joinedBy, List.take_append_of_le_length (by omega)]

theorem joinedBy_of_free {addresses comers : List SockAddrIn}
    (h : (joinedBy addresses comers).length < maxSessions) (deviceAddress : SockAddrIn) :
    (joinedBy addresses (comers ++ [deviceAddress])).Perm
      (deviceAddress :: joinedBy addresses comers) := by
  simp only [joinedBy, List.length_append, List.length_take] at h
  rw [joinedBy, joinedBy, List.take_of_length_le (by simp only [List.length_append]; simp; omega),
    List.take_of_length_le (by omega), ← List.append_assoc]
  exact List.perm_append_singleton _ _

/-- The sessions of a user when one more client has come. -/
theorem perm_joins {username : Bytes} {deviceAddress : SockAddrIn} {table' : HashTable}
    (hjoins : table.Joins username deviceAddress table') {addresses comers : List SockAddrIn}
    (hle : addresses.length ≤ maxSessions)
    (h : (table.addresses username).Perm (joinedBy addresses comers)) :
    (table'.addresses username).Perm (joinedBy addresses (comers ++ [deviceAddress])) := by
  refine hjoins.addresses.trans ?_
  by_cases hfree : (table.addresses username).length < maxSessions
  · rw [if_pos hfree]
    exact (h.cons _).trans (joinedBy_of_free (h.length_eq ▸ hfree) _).symm
  · rw [if_neg hfree, joinedBy_of_full (h.length_eq ▸ hfree) hle]
    exact h

/-! ## The invariant -/

/-- What both walks have done for a user of the table. -/
structure Tracked (dials : ℕ → Dial) (newAddress : SockAddrIn) (table : HashTable)
    (p : Comers × ClientTakeover) : Prop where
  oneEach : p.2.table.OneEach
  sent : SentWhere dials (notificationPacket newAddress) p.2.attempts
  fileList : ∀ name, p.2.table.fileList name = table.fileList name
  waiting : ∀ name, p.2.walk.hasNotified name = false →
    dialled p.2.attempts name = [] ∧
      (p.2.table.addresses name).Perm (joinedBy (table.addresses name) (p.1.early name))
  notified : ∀ name, p.2.walk.hasNotified name = true →
    (dialled p.2.attempts name).Perm
      ((joinedBy (table.addresses name) (p.1.early name)).map notificationAddress)
  connected : ∀ name, p.2.walk.hasDisconnected name = false → p.1.late name = []
  disconnected : ∀ name, p.2.walk.hasDisconnected name = true →
    (p.2.table.addresses name).Perm (joinedBy [] (p.1.late name))

theorem tracked_start (h : table.OneEach) :
    Tracked dials newAddress table (.none, start table) where
  oneEach := h
  sent := fun i attempt hi => by simp [start] at hi
  fileList := fun _ => rfl
  waiting := fun name _ => ⟨rfl, by simp [joinedBy, start, Comers.none]⟩
  notified := fun name hname => by simp [start, TakeoverWalk.hasNotified] at hname
  connected := fun _ _ => rfl
  disconnected := fun name hname => by simp [start, TakeoverWalk.hasDisconnected] at hname

/-- What the visit of a bucket adds for a user. -/
theorem dialled_sendToBucket (h : table.OneEach) (index : ℕ) {packet : Packet}
    {attempts : List Attempt} (hsent : SentWhere dials packet attempts) (name : Bytes) :
    dialled (sendToBucket dials packet (table.array index) attempts) name =
      dialled attempts name ++
        (if keyHash name tableSize = index then table.addresses name else []).map
          notificationAddress := by
  have hview : ∀ attempts, dialled attempts name =
      ((attempts.map fun attempt => (attempt.username, attempt.clientAddress)).filter
        (·.1 = name)).map Prod.snd := by
    intro attempts
    rw [dialled, List.filter_map, List.map_map]
    rfl
  rw [hview, (sendToBucket_spec _ hsent).2, List.filter_append, List.map_append, ← hview,
    ← h.addresses_in_bucket, List.filter_flatMap, List.map_flatMap, List.map_flatMap]
  refine congrArg _ (congrArg (fun f => (table.array index).flatMap f) (funext fun node => ?_))
  by_cases hnode : node.1 = name
  · simp [hnode, List.filter_map, Function.comp_def]
  · simp [hnode]

/-! ## The steps -/

theorem keyHash_lt (name : Bytes) : keyHash name tableSize < tableSize :=
  ContextHashTable.keyHash_lt (by decide) name

theorem Tracked.visit {p q : Comers × ClientTakeover} (h : Tracked dials newAddress table p)
    (hstep : stepWithComers dials newAddress p .visit = some q) :
    Tracked dials newAddress table q := by
  obtain ⟨comers, s⟩ := p
  obtain ⟨comers', t⟩ := q
  obtain ⟨hmove, rfl⟩ := watch_eq_some.mp hstep
  simp only [step] at hmove
  cases hwalk : s.walk with
  | finished => simp [hwalk] at hmove
  | notifying index =>
      simp only [hwalk] at hmove
      split at hmove
      · rename_i hindex
        obtain rfl := Option.some.inj hmove
        have hdialled := dialled_sendToBucket h.oneEach index h.sent
        refine ⟨h.oneEach, (sendToBucket_spec _ h.sent).1, h.fileList, fun name hname => ?_,
          fun name hname => ?_, fun name _ => h.connected name (by simp [hwalk,
            TakeoverWalk.hasDisconnected]), fun name hname => ?_⟩
        · have hlt : ¬keyHash name tableSize < index + 1 := by
            simpa [TakeoverWalk.hasNotified] using hname
          have hbefore : s.walk.hasNotified name = false := by
            simp only [hwalk, TakeoverWalk.hasNotified, decide_eq_false_iff_not]
            omega
          obtain ⟨hnil, hperm⟩ := h.waiting name hbefore
          refine ⟨?_, hperm⟩
          have hne : keyHash name tableSize ≠ index := by omega
          simp only [hdialled, hnil, if_neg hne, List.map_nil, List.append_nil]
        · have hlt : keyHash name tableSize < index + 1 := by
            simpa [TakeoverWalk.hasNotified] using hname
          by_cases hhere : keyHash name tableSize = index
          · have hbefore : s.walk.hasNotified name = false := by
              simp only [hwalk, TakeoverWalk.hasNotified, decide_eq_false_iff_not]
              omega
            obtain ⟨hnil, hperm⟩ := h.waiting name hbefore
            simp only [hdialled, hnil, if_pos hhere, List.nil_append]
            exact hperm.map _
          · have hbefore : s.walk.hasNotified name = true := by
              simp only [hwalk, TakeoverWalk.hasNotified, decide_eq_true_eq]
              omega
            simp only [hdialled, if_neg hhere, List.map_nil, List.append_nil]
            exact h.notified name hbefore
        · simp [TakeoverWalk.hasDisconnected] at hname
      · rename_i hindex
        obtain rfl := Option.some.inj hmove
        have hall : ∀ name, s.walk.hasNotified name = true := fun name => by
          have hlt := keyHash_lt name
          simp only [hwalk, TakeoverWalk.hasNotified, decide_eq_true_eq]
          omega
        refine ⟨h.oneEach, h.sent, h.fileList, fun name hname => ?_,
          fun name _ => h.notified name (hall name), fun name _ => h.connected name (by
            simp [hwalk, TakeoverWalk.hasDisconnected]), fun name hname => ?_⟩
        · simp [TakeoverWalk.hasNotified] at hname
        · simp [TakeoverWalk.hasDisconnected] at hname
  | disconnecting index =>
      have hall : ∀ name, s.walk.hasNotified name = true := fun name => by
        simp [hwalk, TakeoverWalk.hasNotified]
      simp only [hwalk] at hmove
      split at hmove
      · rename_i hindex
        obtain rfl := Option.some.inj hmove
        refine ⟨h.oneEach.disconnectBucket index, h.sent, fun name => ?_, fun name hname => ?_,
          fun name _ => h.notified name (hall name), fun name hname => ?_, fun name hname => ?_⟩
        · exact (s.table.fileList_disconnectBucket index name).trans (h.fileList name)
        · simp [TakeoverWalk.hasNotified] at hname
        · have hlt : ¬keyHash name tableSize < index + 1 := by
            simpa [TakeoverWalk.hasDisconnected] using hname
          refine h.connected name ?_
          simp only [hwalk, TakeoverWalk.hasDisconnected, decide_eq_false_iff_not]
          omega
        · have hlt : keyHash name tableSize < index + 1 := by
            simpa [TakeoverWalk.hasDisconnected] using hname
          simp only [HashTable.addresses_disconnectBucket]
          by_cases hhere : keyHash name tableSize = index
          · have hbefore : s.walk.hasDisconnected name = false := by
              simp only [hwalk, TakeoverWalk.hasDisconnected, decide_eq_false_iff_not]
              omega
            have hnone : comers.late name = [] := h.connected name hbefore
            simp only [if_pos hhere, comersAfter, hnone]
            exact List.Perm.refl _
          · have hbefore : s.walk.hasDisconnected name = true := by
              simp only [hwalk, TakeoverWalk.hasDisconnected, decide_eq_true_eq]
              omega
            simp only [if_neg hhere]
            exact h.disconnected name hbefore
      · rename_i hindex
        obtain rfl := Option.some.inj hmove
        refine ⟨h.oneEach, h.sent, h.fileList, fun name hname => ?_,
          fun name _ => h.notified name (hall name), fun name hname => ?_,
          fun name _ => h.disconnected name ?_⟩
        · simp [TakeoverWalk.hasNotified] at hname
        · simp [TakeoverWalk.hasDisconnected] at hname
        · have hlt := keyHash_lt name
          simp only [hwalk, TakeoverWalk.hasDisconnected, decide_eq_true_eq]
          omega

theorem hasNotified_of_hasDisconnected {walk : TakeoverWalk} {name : Bytes}
    (h : walk.hasDisconnected name = true) : walk.hasNotified name = true := by
  cases walk with
  | notifying => cases h
  | disconnecting | finished => rfl

theorem Tracked.connect {p q : Comers × ClientTakeover} (h : Tracked dials newAddress table p)
    {request : Bytes} {deviceAddress : SockAddrIn}
    (hstep : stepWithComers dials newAddress p (.connect request deviceAddress) = some q) :
    Tracked dials newAddress table q := by
  obtain ⟨comers, s⟩ := p
  obtain ⟨comers', t⟩ := q
  obtain ⟨hmove, rfl⟩ := watch_eq_some.mp hstep
  obtain ⟨⟨username, table', session⟩, hdone, rfl⟩ := Option.map_eq_some_iff.mp hmove
  obtain ⟨rfl, hjoins⟩ := HashTable.joins_handleNewConnection h.oneEach (returned_eq_some.mp hdone)
  have hfiles : ∀ name, table'.fileList name = table.fileList name := fun name =>
    (hjoins.fileList name).trans (h.fileList name)
  have hle := table.length_addresses_le (readUsername request).name
  simp only [comersAfter]
  split
  · -- the first walk has not come to the bucket
    rename_i hbefore
    refine ⟨hjoins.oneEach, h.sent, hfiles, fun name hname => ?_, fun name hname => ?_,
      h.connected, fun name hname => ?_⟩
    · obtain ⟨hnil, hperm⟩ := h.waiting name hname
      refine ⟨hnil, ?_⟩
      by_cases hother : name = (readUsername request).name
      · subst hother
        simp only [Function.update_self]
        exact perm_joins hjoins hle hperm
      · simp only [Function.update_of_ne hother, hjoins.addresses_of_ne name hother]
        exact hperm
    · have hother : name ≠ (readUsername request).name := by
        rintro rfl
        simp [hbefore] at hname
      simp only [Function.update_of_ne hother]
      exact h.notified name hname
    · have hother : name ≠ (readUsername request).name := by
        rintro rfl
        simp [hasNotified_of_hasDisconnected hname] at hbefore
      simp only [hjoins.addresses_of_ne name hother]
      exact h.disconnected name hname
  · rename_i hnotified
    have hnotified : s.walk.hasNotified (readUsername request).name = true := by
      simpa using hnotified
    have hwaiting : ∀ name, s.walk.hasNotified name = false → dialled s.attempts name = [] ∧
        (table'.addresses name).Perm (joinedBy (table.addresses name) (comers.early name)) := by
      intro name hname
      have hother : name ≠ (readUsername request).name := by
        rintro rfl
        simp [hnotified] at hname
      rw [hjoins.addresses_of_ne name hother]
      exact h.waiting name hname
    split
    · -- the second walk has left the bucket
      rename_i hafter
      refine ⟨hjoins.oneEach, h.sent, hfiles, hwaiting, h.notified, fun name hname => ?_,
        fun name hname => ?_⟩
      · have hother : name ≠ (readUsername request).name := by
          rintro rfl
          simp [hafter] at hname
        simp only [Function.update_of_ne hother]
        exact h.connected name hname
      · by_cases hother : name = (readUsername request).name
        · subst hother
          simp only [Function.update_self]
          exact perm_joins hjoins (Nat.zero_le _) (h.disconnected _ hname)
        · simp only [Function.update_of_ne hother, hjoins.addresses_of_ne name hother]
          exact h.disconnected name hname
    · -- the session will be forgotten
      rename_i hbetween
      refine ⟨hjoins.oneEach, h.sent, hfiles, hwaiting, h.notified, h.connected,
        fun name hname => ?_⟩
      have hother : name ≠ (readUsername request).name := by
        rintro rfl
        exact hbetween hname
      simp only [hjoins.addresses_of_ne name hother]
      exact h.disconnected name hname

theorem tracked_of_run (hone : table.OneEach) {actions : List Action}
    {q : Comers × ClientTakeover}
    (hrun : run (stepWithComers dials newAddress) (.none, start table) actions = some q) :
    Tracked dials newAddress table q := by
  refine run_invariant (fun p a q h hstep => ?_) (tracked_start hone) hrun
  cases a with
  | visit => exact h.visit hstep
  | connect => exact h.connect hstep

/-! ## The takeover by a replica -/

variable {Path : Type} [DecidableEq Path] {resolve : Bytes → Path}
  {access backupAccess : FileAccess Path} {disk : Disk Path} {s : Replication Path}
  {as : List Replication.Action} {actions : List Action} {comers : Comers} {t : ClientTakeover}

theorem caughtUp_of_read (h : s.Follows resolve backupAccess) (hread : s.stream = []) :
    CaughtUp s.manager s.backup := by
  obtain ⟨store, hreaches, hcaught⟩ := h
  obtain ⟨manager, stream, backup⟩ := s
  subst hread
  obtain ⟨n, hrun⟩ : ∃ n, run (Replication.step resolve backupAccess backupAccess)
      ⟨manager, [], backup⟩ (List.replicate n .iterate) = some ⟨manager, [], store⟩ :=
    hreaches.iterate manager
  cases n with
  | zero =>
      cases hrun
      exact hcaught
  | succ n =>
      obtain ⟨_, hstep, -⟩ := run_cons_eq_some.mp hrun
      rw [Replication.step_iterate_nil rfl] at hstep
      cases hstep

theorem map_eq_of_rel {α β γ : Type*} {R : α → β → Prop} {x : Option α} {y : Option β}
    (h : Option.Rel R x y) {f : α → γ} {g : β → γ} (heq : ∀ a b, R a b → g b = f a) :
    y.map g = x.map f := by
  cases h with
  | some h => exact congrArg some (heq _ _ h)
  | none => rfl

/-- What a replica that has read all of its stream has of the manager's table. -/
theorem table_of_run (hpromised : Along (Replication.step resolve access backupAccess)
      (Replication.Promised resolve access backupAccess) (Replication.initial disk) as)
    (hrun : run (Replication.step resolve access backupAccess) (Replication.initial disk) as =
      some s)
    (hread : s.stream = []) (name : Bytes) :
    s.backup.table.addresses name = s.manager.table.addresses name ∧
      s.backup.table.fileList name = s.manager.table.fileList name := by
  have hfollows := hpromised.invariant (fun _ _ _ => Replication.follows_step)
    (Replication.follows_initial disk) hrun
  have hrel := (caughtUp_of_read hfollows hread).related.users name
  have haddresses := map_eq_of_rel hrel (f := UserContext.addresses) (g := UserContext.addresses)
    fun context backup h => by
      rw [UserContext.addresses_eq_slots, UserContext.addresses_eq_slots, h.slots]
  have hfiles := map_eq_of_rel hrel (f := UserContext.fileList) (g := UserContext.fileList)
    fun context backup h => h.fileList.symm
  exact ⟨congrArg (·.getD []) haddresses, congrArg (·.getD []) hfiles⟩

/-- A replica that has read all that its manager sent takes over. However clients come in between,
who only connect, each session that the old manager had is dialled once, at the notification port of
its address, and so is each of those that came before the walk was at the bucket; nobody else is. A
connection that is not made takes the packet from its client only. -/
theorem takeover_notifies_clients
    (hpromised : Along (Replication.step resolve access backupAccess)
      (Replication.Promised resolve access backupAccess) (Replication.initial disk) as)
    (hrun : run (Replication.step resolve access backupAccess) (Replication.initial disk) as =
      some s)
    (hread : s.stream = [])
    (htakeover : run (stepWithComers dials newAddress) (.none, start s.backup.table) actions =
      some (comers, t)) :
    SentWhere dials (notificationPacket newAddress) t.attempts ∧
      ∀ username,
        (t.walk.hasNotified username = false → dialled t.attempts username = []) ∧
        (t.walk.hasNotified username = true → (dialled t.attempts username).Perm
          ((joinedBy (s.manager.table.addresses username) (comers.early username)).map
            notificationAddress)) := by
  have htracked := tracked_of_run (Replication.oneEach_backup hrun) htakeover
  refine ⟨htracked.sent, fun username => ⟨fun h => (htracked.waiting username h).1, fun h => ?_⟩⟩
  rw [← (table_of_run hpromised hrun hread username).1]
  exact htracked.notified username h

/-- When the takeover is over, and the clients that came in meanwhile have only connected, the
sessions of a user are those of the clients that came after its bucket was cleared, as many as there
are slots. A client that was told and came back sooner has lost its session. The list of files is
the one of the old manager. -/
theorem takeover_keeps_late_clients
    (hpromised : Along (Replication.step resolve access backupAccess)
      (Replication.Promised resolve access backupAccess) (Replication.initial disk) as)
    (hrun : run (Replication.step resolve access backupAccess) (Replication.initial disk) as =
      some s)
    (hread : s.stream = [])
    (htakeover : run (stepWithComers dials newAddress) (.none, start s.backup.table) actions =
      some (comers, t))
    (hfinished : t.walk = .finished) (username : Bytes) :
    (t.table.addresses username).Perm ((comers.late username).take maxSessions) ∧
      t.table.fileList username = s.manager.table.fileList username := by
  have htracked := tracked_of_run (Replication.oneEach_backup hrun) htakeover
  have hcleared : t.walk.hasDisconnected username = true := by rw [hfinished]; rfl
  refine ⟨htracked.disconnected username hcleared, ?_⟩
  rw [← (table_of_run hpromised hrun hread username).2]
  exact htracked.fileList username

/-! ## A takeover -/

/-- One client of the user `a`, and the file `f`, which the replica has read. -/
def oneClient : List Replication.Action :=
  [Replication.connectA 5001, .operate (.upload [97] 0 [102] [1, 2]), .iterate, .iterate]

def backFrom (port : UInt16) : Action := .connect [97] ⟨⟨127, 0, 0, 1⟩, port⟩

/-- A client of the user is back before it is told, another one before its session would be
forgotten, and two after that. -/
def clientsReturn : List Action :=
  backFrom 6001 :: (List.replicate 31 .visit ++ backFrom 6002 :: List.replicate 31 .visit ++
    [backFrom 6003, backFrom 6004])

/-- The first attempt finds no client. -/
def firstRefused (n : ℕ) : Dial := if n = 0 then .refused else .connected

def replicaOfOneClient : Replication Bytes :=
  (run (Replication.step id .granted .granted) (Replication.initial fun _ => none) oneClient).get
    (by decide +kernel)

def takenOver : Comers × ClientTakeover :=
  (run (stepWithComers firstRefused ⟨⟨10, 0, 0, 1⟩, 4000⟩)
    (.none, start replicaOfOneClient.backup.table) clientsReturn).get (by decide +kernel)

theorem run_oneClient : run (Replication.step id .granted .granted)
    (Replication.initial fun _ => none) oneClient = some replicaOfOneClient :=
  (Option.some_get _).symm

theorem run_clientsReturn : run (stepWithComers firstRefused ⟨⟨10, 0, 0, 1⟩, 4000⟩)
    (.none, start replicaOfOneClient.backup.table) clientsReturn =
      some (takenOver.1, takenOver.2) :=
  (Option.some_get _).symm

theorem takeover_notifies_clients_of_clientsReturn :
    takenOver.1.early [97] = [⟨⟨127, 0, 0, 1⟩, 6001⟩] ∧
      SentWhere firstRefused (notificationPacket ⟨⟨10, 0, 0, 1⟩, 4000⟩) takenOver.2.attempts ∧
      (dialled takenOver.2.attempts [97]).Perm
        ((joinedBy (replicaOfOneClient.manager.table.addresses [97])
          (takenOver.1.early [97])).map notificationAddress) := by
  obtain ⟨hsent, hdialled⟩ := takeover_notifies_clients (by decide +kernel) run_oneClient
    (by decide +kernel) run_clientsReturn
  exact ⟨by decide +kernel, hsent, (hdialled [97]).2 (by decide +kernel)⟩

theorem takeover_keeps_late_clients_of_clientsReturn :
    takenOver.1.late [97] = [⟨⟨127, 0, 0, 1⟩, 6003⟩, ⟨⟨127, 0, 0, 1⟩, 6004⟩] ∧
      (takenOver.2.table.addresses [97]).Perm ((takenOver.1.late [97]).take maxSessions) ∧
      takenOver.2.table.fileList [97] = replicaOfOneClient.manager.table.fileList [97] := by
  exact ⟨by decide +kernel, takeover_keeps_late_clients (by decide +kernel) run_oneClient
    (by decide +kernel) run_clientsReturn (by decide +kernel) [97]⟩

end ClientTakeover

end SyncServer
