import SyncServer.Sessions.Context
import SyncServer.Wire.Reading

/-! # What a backup does to its users on a replica event

The event carries what the text could carry. An absent name, a search that runs off its list
and a session that is not found are null pointers, at which the backup crashes.
-/

namespace SyncServer

open CText

namespace HashTable

/-- The device addresses of the sessions that the table has for a user. -/
def addresses (table : HashTable) (name : Bytes) : List SockAddrIn :=
  ((table.find name).map UserContext.addresses).getD []

theorem addresses_of_find {table : HashTable} {name : Bytes} {context : UserContext}
    (h : table.find name = some context) : table.addresses name = context.addresses := by
  rw [addresses, h]
  rfl

theorem addresses_of_find_eq {table table' : HashTable} {name : Bytes}
    (h : table'.find name = table.find name) : table'.addresses name = table.addresses name := by
  rw [addresses, h, addresses]

theorem addresses_getOrCreateContext {table table' : HashTable} {username : Bytes}
    {context : UserContext} (h : table.getOrCreateContext username = some (table', context)) :
    ∀ name, table'.addresses name = table.addresses name := by
  obtain ⟨hfind, hcontext, hother⟩ := find_getOrCreateContext h
  intro name
  by_cases hname : name = username
  · subst hname
    rw [addresses_of_find hfind, hcontext, addresses]
    cases table.find name with
    | none => exact UserContext.addresses_createContext name
    | some old => rfl
  · exact addresses_of_find_eq (hother name hname)

/-- A user that is in the table is found. -/
theorem getOrCreateContext_of_find {table : HashTable} {username : Bytes} {context : UserContext}
    (h : table.find username = some context) :
    table.getOrCreateContext username = some (table, context) := by
  rw [getOrCreateContext, search_eq_some.mpr h]
  rfl

theorem addresses_modify_self {table : HashTable} {name : Bytes} {context : UserContext}
    (h : table.find name = some context) (f : UserContext → UserContext) :
    (table.modify name f).addresses name = (f context).addresses := by
  apply addresses_of_find
  rw [find_modify, if_pos rfl, h]
  rfl

theorem addresses_modify_of_ne {name other : Bytes} (h : other ≠ name) (table : HashTable)
    (f : UserContext → UserContext) :
    (table.modify name f).addresses other = table.addresses other := by
  apply addresses_of_find_eq
  rw [find_modify, if_neg h]

/-! ## The events -/

/-- `initialize_user_session_and_threads` on a backup. With no free slot the user stays as it
is. -/
def initializeUserSession (table : HashTable) (deviceAddress : SockAddrIn) (username : Bytes) :
    Option HashTable :=
  (table.getOrCreateContext username).map fun found =>
    match found.2.findFreeSessionIndex with
    | none => found.1
    | some index => found.1.modify username (·.addSession (createSession index deviceAddress))

/-- `get_or_create_context` and then `get_user_session_by_address`, which may find nothing. -/
def eventSession (table : HashTable) (event : ReplicaEvent) :
    Option (HashTable × Option Session) :=
  event.username.bind fun username =>
    (table.getOrCreateContext username).map fun found =>
      (found.1, found.2.getUserSessionByAddress event.deviceAddress)

/-- The session is not a null pointer. -/
def KnowsSession (table : HashTable) (event : ReplicaEvent) : Prop :=
  ((table.eventSession event).bind Prod.snd).isSome = true

instance (table : HashTable) (event : ReplicaEvent) : Decidable (table.KnowsSession event) :=
  inferInstanceAs (Decidable (_ = _))

/-- `EVENT_CLIENT_DISCONNECTED`: `sessions[session->session_index] = NULL`. -/
def clientDisconnected (table : HashTable) (event : ReplicaEvent) : Option HashTable :=
  event.username.bind fun username =>
    (table.eventSession event).bind fun found =>
      found.2.map fun session => found.1.modify username (·.removeSession session.sessionIndex)

/-! ## The effects on the addresses -/

/-- A connected client takes a slot while one is free. -/
theorem addresses_initializeUserSession {table table' : HashTable} {deviceAddress : SockAddrIn}
    {username : Bytes} (h : table.initializeUserSession deviceAddress username = some table')
    (hfree : (table.addresses username).length < maxSessions) :
    (table'.addresses username).Perm (deviceAddress :: table.addresses username) ∧
      ∀ other, other ≠ username → table'.addresses other = table.addresses other := by
  obtain ⟨⟨table₁, context⟩, hcreate, rfl⟩ := Option.map_eq_some_iff.mp h
  have hfind := (find_getOrCreateContext hcreate).1
  have hsame := addresses_getOrCreateContext hcreate
  have hcontext : context.addresses = table.addresses username := by
    rw [← addresses_of_find hfind, hsame]
  cases hindex : context.findFreeSessionIndex with
  | none =>
      rw [← hcontext] at hfree
      exact absurd hindex (UserContext.findFreeSessionIndex_ne_none hfree)
  | some index =>
      have hslot := UserContext.findFreeSessionIndex_eq_some hindex
      refine ⟨?_, fun other hother => ?_⟩
      · simp only
        rw [addresses_modify_self hfind, ← hcontext]
        exact UserContext.addresses_addSession hslot
      · simp only
        rw [addresses_modify_of_ne hother, hsame]

/-- The session with an address that the table has for the user is found. -/
theorem eventSession_of_mem {table : HashTable} {event : ReplicaEvent} {username : Bytes}
    (hname : event.username = some username)
    (hmem : event.deviceAddress ∈ table.addresses username) :
    ∃ context session, table.find username = some context ∧
      context.getUserSessionByAddress event.deviceAddress = some session ∧
      table.eventSession event = some (table, some session) := by
  cases hfind : table.find username with
  | none =>
      rw [addresses, hfind] at hmem
      cases hmem
  | some context =>
      rw [addresses_of_find hfind] at hmem
      cases hsession : context.getUserSessionByAddress event.deviceAddress with
      | none => exact absurd hmem (UserContext.getUserSessionByAddress_eq_none_iff.mp hsession)
      | some session =>
          refine ⟨context, session, rfl, hsession, ?_⟩
          simp only [eventSession, hname, Option.bind_some, getOrCreateContext_of_find hfind,
            Option.map_some, hsession]

theorem knowsSession_of_mem {table : HashTable} {event : ReplicaEvent} {username : Bytes}
    (hname : event.username = some username)
    (hmem : event.deviceAddress ∈ table.addresses username) : table.KnowsSession event := by
  obtain ⟨_, session, -, -, hsession⟩ := eventSession_of_mem hname hmem
  rw [KnowsSession, hsession]
  rfl

/-- A disconnected client gives its slot back. -/
theorem addresses_clientDisconnected {table table' : HashTable} {event : ReplicaEvent}
    {username : Bytes} (hname : event.username = some username)
    (hmem : event.deviceAddress ∈ table.addresses username)
    (h : table.clientDisconnected event = some table') :
    (table.addresses username).Perm (event.deviceAddress :: table'.addresses username) ∧
      ∀ other, other ≠ username → table'.addresses other = table.addresses other := by
  obtain ⟨context, session, hfind, hsession, hevent⟩ := eventSession_of_mem hname hmem
  simp only [clientDisconnected, hname, Option.bind_some, hevent, Option.map_some,
    Option.some.injEq] at h
  obtain ⟨hslot, haddress⟩ := UserContext.getUserSessionByAddress_eq_some hsession
  subst h
  refine ⟨?_, fun other hother => addresses_modify_of_ne hother table _⟩
  rw [addresses_modify_self hfind, addresses_of_find hfind, ← haddress]
  exact UserContext.addresses_removeSession hslot

end HashTable

end SyncServer
