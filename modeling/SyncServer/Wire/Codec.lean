import SyncServer.Library.PathNames
import SyncServer.Wire.ElectionEvent

/-! # What comes back from the text of an event

An election event comes back whole. In a replica event the tokenizer merges separators that
stand next to each other, so the two strings come back only where none of them is cut or
skipped.
-/

namespace SyncServer

open CText PathNames

/-! ## Election events -/

/-- Type, address, port and id of an event are recovered, and no two events share their text. -/
theorem electionEvent_recovered (event event' : ElectionEvent) (htype : event.type.Listed)
    (hid : IsInt event.id) (htype' : event'.type.Listed) (hid' : IsInt event'.id) :
    deserializeElectionEvent (serializeElectionEvent event) = event ∧
    (serializeElectionEvent event = serializeElectionEvent event' → event = event') := by
  have hread := deserialize_serializeElectionEvent event htype hid
  refine ⟨hread, ?_⟩
  intro htext
  calc
    event = deserializeElectionEvent (serializeElectionEvent event) := hread.symm
    _ = deserializeElectionEvent (serializeElectionEvent event') := by rw [htext]
    _ = event' := deserialize_serializeElectionEvent event' htype' hid'

/-- The smallest id, the highest address and the highest port come back. -/
theorem electionEvent_recovered_of_smallest :
    deserializeElectionEvent (serializeElectionEvent
      ⟨.coordinator, -2 ^ 31, ⟨⟨255, 255, 255, 255⟩, 65535⟩⟩) =
      ⟨.coordinator, -2 ^ 31, ⟨⟨255, 255, 255, 255⟩, 65535⟩⟩ ∧
    (serializeElectionEvent ⟨.coordinator, -2 ^ 31, ⟨⟨255, 255, 255, 255⟩, 65535⟩⟩ =
      serializeElectionEvent (createElectionEvent 7) →
      ⟨.coordinator, -2 ^ 31, ⟨⟨255, 255, 255, 255⟩, 65535⟩⟩ = createElectionEvent 7) :=
  electionEvent_recovered ⟨.coordinator, -2 ^ 31, ⟨⟨255, 255, 255, 255⟩, 65535⟩⟩
    (createElectionEvent 7) nofun (by decide) nofun (by decide)

/-! ## Replica events -/

/-- The events that the constructors build from an address, a name that a client may register
with and a file name that a client may send. -/
inductive ReplicaEvent.Created : ReplicaEvent → Prop where
  | clientConnected (username : Bytes) (deviceAddress : SockAddrIn) (hname : 0 ∉ username) :
      Created (createClientConnectedEvent username deviceAddress)
  | clientDisconnected (username : Bytes) (deviceAddress : SockAddrIn) (hname : 0 ∉ username) :
      Created (createClientDisconnectedEvent username deviceAddress)
  | replicaAdded (id listenerPort : ℤ) (deviceAddress : SockAddrIn) (hid : IsInt id)
      (hport : IsInt listenerPort) :
      Created (createReplicaAddedEvent id listenerPort deviceAddress)
  | fileUpload (username : Bytes) (deviceAddress : SockAddrIn) (filename : Bytes)
      (hname : 0 ∉ username) (hfile : 0 ∉ filename) (hne : filename ≠ [])
      (hslash : slash ∉ filename) :
      Created (createFileUploadEvent username deviceAddress filename)
  | fileDelete (username : Bytes) (deviceAddress : SockAddrIn) (filename : Bytes)
      (hname : 0 ∉ username) (hfile : 0 ∉ filename) (hne : filename ≠ [])
      (hslash : slash ∉ filename) :
      Created (createFileDeleteEvent username deviceAddress filename)
  | heartbeat : Created createHeartbeatEvent

/-- The event that is read agrees with the one that was written, absent and empty strings
taken for the same. -/
def ReplicaEvent.Recovered (event : ReplicaEvent) : Prop :=
  let read := deserializeReplicaEvent (serializeReplicaEvent event)
  read.type = event.type ∧
  read.deviceAddress.sinAddr = event.deviceAddress.sinAddr ∧
  read.deviceAddress.sinPort = event.deviceAddress.sinPort ∧
  read.username.getD [] = event.username.getD [] ∧
  read.filepath.getD [] = event.filepath.getD []

/-- No separator stands in the strings of the event, and a file path follows a user name that
is not empty. -/
def ReplicaEvent.Separable (event : ReplicaEvent) : Prop :=
  pipe ∉ event.username.getD [] ∧ pipe ∉ event.filepath.getD [] ∧
  (event.filepath.isSome = true → event.username.getD [] ≠ [])

instance (event : ReplicaEvent) : Decidable event.Recovered :=
  inferInstanceAs (Decidable (_ ∧ _))

instance (event : ReplicaEvent) : Decidable event.Separable :=
  inferInstanceAs (Decidable (_ ∧ _))

theorem ReplicaEvent.Created.listed {event : ReplicaEvent} (h : event.Created) :
    event.type.Listed := by
  cases h <;> intro value hvalue <;> cases hvalue

/-- The path of a file event is not empty. -/
theorem ReplicaEvent.Created.filepath_ne_nil {event : ReplicaEvent} (h : event.Created) :
    event.filepath.isSome = true → event.filepath.getD [] ≠ [] := by
  intro hfile
  cases h with
  | fileUpload username deviceAddress filename hname hzero hne hslash => exact hne
  | fileDelete username deviceAddress filename hname hzero hne hslash => exact hne
  | _ => cases hfile

/-- Dropping an empty token loses nothing where absent and empty are the same. -/
theorem keepToken_some (s : Bytes) : (keepToken (some s)).getD [] = s := by
  by_cases h : s = []
  · rw [h]
    rfl
  · simp [keepToken, Option.filter_some, h]

/-- A token holds no separator. -/
theorem pipe_not_mem_keepToken (s : Bytes) : pipe ∉ (keepToken (strtok pipe s).1).getD [] := by
  simp only [strtok]
  split
  · simp [keepToken]
  · intro h
    rw [keepToken_some] at h
    simpa using List.mem_takeWhile_imp h

/-- Two strings come back from between their separators exactly when none holds a separator
and no string follows an empty one. -/
theorem tokens_recovered_iff (username filepath : Bytes) :
    (keepToken (strtok pipe (username ++ pipe :: filepath)).1).getD [] = username ∧
      (keepToken (strtok pipe (strtok pipe (username ++ pipe :: filepath)).2).1).getD [] =
        filepath ↔
    pipe ∉ username ∧ pipe ∉ filepath ∧ (filepath ≠ [] → username ≠ []) := by
  constructor
  · rintro ⟨huser, hfile⟩
    have hu : pipe ∉ username := huser ▸ pipe_not_mem_keepToken _
    have hf : pipe ∉ filepath := by
      rw [← hfile]
      exact pipe_not_mem_keepToken _
    refine ⟨hu, hf, ?_⟩
    -- after an empty name the path is taken for the name
    rintro hne rfl
    have htoken : strtok pipe ([] ++ pipe :: filepath) = (some filepath, []) := by
      have hskip : strtok pipe (pipe :: filepath) = strtok pipe (filepath ++ []) := by
        simp [strtok]
      rw [List.nil_append, hskip, strtok_append hne hf (stops_nil _)]
      rfl
    rw [htoken, keepToken_some] at huser
    exact hne huser
  · rintro ⟨hu, hf, hne⟩
    have hlast : (keepToken (strtok pipe filepath).1).getD [] = filepath := by
      by_cases h : filepath = []
      · rw [h]
        rfl
      · have htoken := strtok_append h hf (stops_nil (· != pipe))
        rw [List.append_nil] at htoken
        rw [htoken, keepToken_some]
    by_cases h : username = []
    · have hfile : filepath = [] := by
        by_contra hfile
        exact hne hfile h
      rw [h, hfile]
      exact ⟨rfl, rfl⟩
    · rw [strtok_append h hu (stops_pipe _)]
      exact ⟨keepToken_some username, hlast⟩

/-- A constructed event comes back exactly when its strings can be told apart. -/
theorem replicaEvent_recovered_iff (event : ReplicaEvent) (h : event.Created) :
    event.Recovered ↔ event.Separable := by
  have hread := deserialize_serialize event h.listed
  have htokens := tokens_recovered_iff (event.username.getD []) (event.filepath.getD [])
  have hpath : event.filepath.getD [] ≠ [] ↔ event.filepath.isSome = true := by
    constructor
    · intro hne
      cases hfile : event.filepath with
      | none => simp [hfile] at hne
      | some path => rfl
    · exact h.filepath_ne_nil
  rw [hpath] at htokens
  simp only [ReplicaEvent.Recovered, ReplicaEvent.Separable, hread, true_and]
  exact htokens

/-- An upload of a named user comes back. -/
theorem replicaEvent_recovered_of_upload :
    (createFileUploadEvent [97] ⟨⟨10, 0, 0, 1⟩, 4000⟩ [98, 46, 116]).Recovered :=
  (replicaEvent_recovered_iff _ (.fileUpload [97] _ [98, 46, 116] (by decide) (by decide)
    (by decide) (by decide))).mpr (by decide)

/-- After the empty name the file name is read as the name of the user, and a separator cuts a
name. -/
theorem replicaEvent_not_recovered :
    (createFileUploadEvent [] ⟨⟨10, 0, 0, 1⟩, 4000⟩ [98]).Created ∧
    deserializeReplicaEvent (serializeReplicaEvent
      (createFileUploadEvent [] ⟨⟨10, 0, 0, 1⟩, 4000⟩ [98])) =
      ⟨.fileUploaded, ⟨⟨10, 0, 0, 1⟩, 4000⟩, some [98], none⟩ ∧
    ¬ (createFileUploadEvent [] ⟨⟨10, 0, 0, 1⟩, 4000⟩ [98]).Recovered ∧
    (createClientConnectedEvent [97, pipe, 98] ⟨⟨10, 0, 0, 1⟩, 4000⟩).Created ∧
    ¬ (createClientConnectedEvent [97, pipe, 98] ⟨⟨10, 0, 0, 1⟩, 4000⟩).Recovered := by
  refine ⟨.fileUpload [] _ [98] (by decide) (by decide) (by decide) (by decide), by decide,
    by decide, .clientConnected _ _ (by decide), by decide⟩

end SyncServer
