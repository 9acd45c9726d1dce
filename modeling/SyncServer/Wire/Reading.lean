import SyncServer.Wire.ElectionEvent
import SyncServer.Wire.Packet

/-! # What a reader makes of the texts of the other writers

Registrations, election events and replica events travel in packets of one type. A thread that
reads a socket takes each text for what it expects there.
-/

namespace SyncServer

open CText

/-- The type in the first token survives the wire without a condition on the id. -/
theorem type_deserialize_serializeElectionEvent (event : ElectionEvent)
    (h : event.type.Listed) :
    (deserializeElectionEvent (serializeElectionEvent event)).type = event.type := by
  simp only [deserializeElectionEvent, strtok_serializeElectionEvent,
    ElectionMsgType.atoi_printInt_toInt h, ElectionMsgType.ofInt_toInt h]
  split
  · rfl
  · split <;> rfl

/-- An election listener reads a replica event as an election event of the same number. -/
theorem type_deserializeElectionEvent_replica (event : ReplicaEvent) (h : event.type.Listed) :
    (deserializeElectionEvent (serializeReplicaEvent event)).type = .ofInt event.type.toInt := by
  simp only [deserializeElectionEvent, strtok_serializeReplicaEvent,
    ReplicaEventType.atoi_printInt_toInt h]
  split
  · rfl
  · split <;> rfl

/-- A connection thread reads an election event as a replica event of the same number. -/
theorem type_deserializeReplicaEvent_election (event : ElectionEvent) (h : event.type.Listed) :
    (deserializeReplicaEvent (serializeElectionEvent event)).type = .ofInt event.type.toInt := by
  simp only [deserializeReplicaEvent, strtok_serializeElectionEvent,
    ElectionMsgType.atoi_printInt_toInt h]
  split <;> rfl

/-- A connection thread reads the number of a replica event. -/
theorem type_deserialize_serializeReplicaEvent (event : ReplicaEvent) (h : event.type.Listed) :
    (deserializeReplicaEvent (serializeReplicaEvent event)).type = event.type := by
  rw [deserialize_serialize event h]

/-- A registration has one token, so it is read as an event without a name. -/
theorem username_deserialize_printPair (m n : ℤ) :
    (deserializeReplicaEvent (printPair m n)).username = none := by
  have htoken : strtok pipe (printPair m n) = (some (printPair m n), []) := by
    simpa using strtok_append (carried_printPair m n).1 (carried_printPair m n).2
      (stops_nil (· != pipe))
  have hend : strtok pipe [] = (none, []) := rfl
  simp only [deserializeReplicaEvent, htoken, hend, ReplicaEvent.cleared]

/-- The manager finds no registration in the texts of the other writers. -/
theorem scanPair_serializeElectionEvent (event : ElectionEvent) :
    scanPair (serializeElectionEvent event) = none :=
  scanPair_printInt_eq_none _ (by decide) (by decide) _

theorem scanPair_serializeReplicaEvent (event : ReplicaEvent) :
    scanPair (serializeReplicaEvent event) = none :=
  scanPair_printInt_eq_none _ (by decide) (by decide) _

/-- A connection thread that reads REPLICA_ADDED reads the id and the port that were sent. -/
theorem deserialize_replicaAdded (id listenerPort : ℤ) (deviceAddress : SockAddrIn) :
    (deserializeReplicaEvent (serializeReplicaEvent
      (createReplicaAddedEvent id listenerPort deviceAddress))).username =
      some (printPair id listenerPort) :=
  (@deserialize_serialize_carried (createReplicaAddedEvent id listenerPort deviceAddress)
    nofun _ rfl (carried_printPair id listenerPort)).2.2

/-! ## Names with separators in them -/

/-- What the tokenizer keeps of a name: the first piece between separators. -/
def nameToken (name : Bytes) : Bytes := (name.dropWhile (· == pipe)).takeWhile (· != pipe)

theorem nameToken_of_carried {name : Bytes} (h : Carried name) : nameToken name = name := by
  have htoken := strtok_append h.1 h.2 (stops_nil (· != pipe))
  rw [List.append_nil] at htoken
  simp only [strtok] at htoken
  split at htoken
  · cases htoken
  · exact Option.some.inj (Prod.mk.inj htoken).1

theorem takeWhile_append_of_exists {p : UInt8 → Bool} {s : Bytes} (h : ∃ c ∈ s, p c = false)
    (t : Bytes) : (s ++ t).takeWhile p = s.takeWhile p := by
  induction s with
  | nil => simp at h
  | cons c s ih =>
      by_cases hc : p c = true
      · have hs : ∃ c ∈ s, p c = false := by
          rcases h with ⟨d, hd, hpd⟩
          rcases List.mem_cons.mp hd with rfl | hd
          · rw [hc] at hpd
            cases hpd
          · exact ⟨d, hd, hpd⟩
        simp only [List.cons_append, List.takeWhile_cons, hc, ite_true, ih hs]
      · simp only [List.cons_append, List.takeWhile_cons, hc]
        rfl

/-- The name of an event is its first piece, whatever follows. -/
theorem strtok_name {name : Bytes} (h : nameToken name ≠ []) (rest : Bytes) :
    (strtok pipe (name ++ pipe :: rest)).1 = some (nameToken name) := by
  have hdrop : name.dropWhile (· == pipe) ≠ [] := fun h' => h (by rw [nameToken, h']; rfl)
  have hskip : (name ++ pipe :: rest).dropWhile (· == pipe) =
      name.dropWhile (· == pipe) ++ pipe :: rest := by
    rw [List.dropWhile_append, if_neg (by simpa using hdrop)]
  have htake : ((name.dropWhile (· == pipe)) ++ pipe :: rest).takeWhile (· != pipe) =
      nameToken name := by
    by_cases hp : pipe ∈ name.dropWhile (· == pipe)
    · exact takeWhile_append_of_exists ⟨pipe, hp, by simp⟩ _
    · have hall : ∀ c ∈ name.dropWhile (· == pipe), (c != pipe) = true := by
        intro c hc
        simpa using fun h' : c = pipe => hp (h' ▸ hc)
      rw [takeWhile_append_stops hall (stops_pipe rest), nameToken]
      exact (List.takeWhile_eq_self_iff.mpr hall).symm
  have hne : ¬(name.dropWhile (· == pipe) ++ pipe :: rest = []) := by simp
  simp only [strtok, hskip, hne, ite_false, htake]

/-! ## Events in packets -/

/-- The packet of `send_event`. -/
def eventPacket (event : ReplicaEvent) : Packet :=
  createTextPacket .replicaMsg (serializeReplicaEvent event)

/-- What a connection thread reads of the event. -/
def ReplicaEvent.received (event : ReplicaEvent) : ReplicaEvent :=
  deserializeReplicaEvent (eventPacket event).payload

theorem length_printAddress_le (address : SockAddrIn) : (printAddress address).length ≤ 21 := by
  have hip := length_inetNtop_le address.sinAddr
  have hport : (printInt address.sinPort.toNat).length ≤ 5 :=
    length_printNat_le (by omega) (by have := address.sinPort.toNat_lt; omega)
  simp only [printAddress, List.length_append, List.length_cons]
  omega

theorem length_serializeReplicaEvent {event : ReplicaEvent} (h : event.type.Listed) :
    (serializeReplicaEvent event).length = 4 + (printAddress event.deviceAddress).length +
      (event.username.getD []).length + (event.filepath.getD []).length := by
  have htype : (printInt event.type.toInt).length = 1 := by
    cases ht : event.type with
    | other value => exact absurd ht (h value)
    | _ => decide +kernel
  simp only [serializeReplicaEvent, List.length_append, List.length_cons]
  omega

theorem length_serializeReplicaEvent_le (event : ReplicaEvent) (h : event.type.Listed) :
    (serializeReplicaEvent event).length ≤
      25 + (event.username.getD []).length + (event.filepath.getD []).length := by
  have haddress := length_printAddress_le event.deviceAddress
  rw [length_serializeReplicaEvent h]
  omega

theorem length_serialize_replicaAdded {id listenerPort : ℤ} (hid : IsInt id)
    (hport : IsInt listenerPort) (deviceAddress : SockAddrIn) :
    (serializeReplicaEvent (createReplicaAddedEvent id listenerPort deviceAddress)).length <
      2 ^ 16 := by
  have hlisted : (createReplicaAddedEvent id listenerPort deviceAddress).type.Listed :=
    fun _ h => nomatch h
  have hlength := length_serializeReplicaEvent_le _ hlisted
  have hpair := length_printPair_le hid hport
  simp only [createReplicaAddedEvent, Option.getD_some, Option.getD_none, List.length_nil]
    at hlength ⊢
  omega

/-- The event arrives with its type, its address and its name. -/
structure ReplicaEvent.Delivered (event : ReplicaEvent) (name : Bytes) : Prop where
  type : event.received.type = event.type
  deviceAddress : event.received.deviceAddress = event.deviceAddress
  username : event.received.username = some (nameToken name)

instance (event : ReplicaEvent) (name : Bytes) : Decidable (event.Delivered name) :=
  decidable_of_iff (event.received.type = event.type ∧
      event.received.deviceAddress = event.deviceAddress ∧
      event.received.username = some (nameToken name))
    ⟨fun ⟨h, h', h''⟩ => ⟨h, h', h''⟩, fun h => ⟨h.type, h.deviceAddress, h.username⟩⟩

theorem received_type {event : ReplicaEvent} (h : event.type.Listed)
    (hlength : (serializeReplicaEvent event).length < 2 ^ 16) :
    event.received.type = event.type := by
  rw [ReplicaEvent.received, eventPacket, payload_createTextPacket hlength,
    deserialize_serialize event h]

/-- An event is delivered when its text fits into a packet. -/
theorem delivered_of_length {event : ReplicaEvent} {name : Bytes} (h : event.type.Listed)
    (hname : event.username = some name) (hne : nameToken name ≠ [])
    (hlength : (serializeReplicaEvent event).length < 2 ^ 16) : event.Delivered name where
  type := received_type h hlength
  deviceAddress := by
    rw [ReplicaEvent.received, eventPacket, payload_createTextPacket hlength,
      deserialize_serialize event h]
  username := by
    rw [ReplicaEvent.received, eventPacket, payload_createTextPacket hlength,
      deserialize_serialize event h]
    simp only [hname, Option.getD_some, strtok_name hne, keepToken]
    simp [hne]

end SyncServer
