import SyncServer.Wire.Reading
import SyncServer.Wire.Stream

/-! # The registration of a replica and its relay

A new backup sends its id and its port as a text. The manager reads it, puts the two numbers into
the username of an event, and the other replicas read them there. The texts are read in the memory
of the packets, where they end at the first zero. So is the address that a new manager tells the
clients.
-/

namespace SyncServer

open CText

/-- What a `char *` to the payload reads. -/
def payloadText (image : Bytes) : Bytes := cString (image.drop payloadOffset)

/-- The payload of a created packet is a C string, since a zero follows it. -/
theorem payloadText_image {packet : Packet} (h : packet.IsCreated) :
    payloadText packet.image = cString packet.payload := by
  have hheader : (littleEndian 4 packet.type.toNat ++
      littleEndian 2 packet.payload.length).length = payloadOffset := by simp [payloadOffset]
  have hbehind : packet.behind = (0, 0) := by
    obtain ⟨type, length, payload, rfl⟩ := h
    rfl
  rw [payloadText, packet.image_eq, ← List.append_assoc, List.drop_left' hheader, hbehind]
  by_cases hzero : 0 ∈ packet.payload
  · exact takeWhile_append_of_exists ⟨0, hzero, rfl⟩ _
  · rw [cString_of_zero_not_mem hzero]
    exact (cString_append_eq_iff hzero 0 [0]).mpr rfl

/-- A text comes through a packet when it fits into it. -/
theorem payloadText_createTextPacket {type : PacketType} {text : Bytes}
    (hlength : text.length < 2 ^ 16) (hzero : 0 ∉ text) :
    payloadText (createTextPacket type text).image = text := by
  rw [payloadText_image (Packet.isCreated_createTextPacket type text),
    payload_createTextPacket hlength, cString_of_zero_not_mem hzero]

/-! ## The steps of the relay -/

/-- `connect_to_server_thread` registers. -/
def registrationPacket (id listenerPort : ℤ) : Packet :=
  createTextPacket .replicaMsg (printPair id listenerPort)

/-- `replica_listener_thread` tells the others of a registration from an address. -/
def relayRegistration (registration : Bytes) (cliAddr : SockAddrIn) : Option Packet :=
  (scanPair (payloadText registration)).map fun replica =>
    eventPacket (createReplicaAddedEvent replica.1 replica.2 cliAddr)

/-- `connect_to_server_thread` of another replica: the id and the port, and where to connect. -/
def extractReplica (message : Bytes) : Option ((ℤ × ℤ) × InAddr) :=
  let event := deserializeReplicaEvent (payloadText message)
  if event.type = .replicaAdded then
    (event.username.bind scanPair).map fun replica => (replica, event.deviceAddress.sinAddr)
  else none

theorem scanPair_registrationPacket {id listenerPort : ℤ} (hid : IsInt id)
    (hport : IsInt listenerPort) :
    scanPair (payloadText (registrationPacket id listenerPort).image) =
      some (id, listenerPort) := by
  have hlength : (printPair id listenerPort).length < 2 ^ 16 :=
    (length_printPair_le hid hport).trans_lt (by decide)
  rw [registrationPacket, payloadText_createTextPacket hlength (zero_not_mem_printPair _ _),
    scanPair_printPair hid hport]

theorem zero_not_mem_printAddress (address : SockAddrIn) : 0 ∉ printAddress address := by
  have hip := zero_not_mem_inetNtop address.sinAddr
  have hport := zero_not_mem_printInt address.sinPort.toNat
  simp only [printAddress, List.mem_append, List.mem_cons, not_or]
  exact ⟨hip, by decide, hport⟩

theorem zero_not_mem_serializeReplicaAdded (id listenerPort : ℤ) (address : SockAddrIn) :
    0 ∉ serializeReplicaEvent (createReplicaAddedEvent id listenerPort address) := by
  have haddress := zero_not_mem_printAddress address
  have hpair := zero_not_mem_printPair id listenerPort
  have htype := zero_not_mem_printInt ReplicaEventType.replicaAdded.toInt
  simp only [serializeReplicaEvent, createReplicaAddedEvent, Option.getD_some, Option.getD_none,
    List.mem_append, List.mem_cons, not_or, List.not_mem_nil, not_false_eq_true, and_true]
  exact ⟨htype, by decide, haddress, by decide, hpair, by decide⟩

theorem extractReplica_eventPacket {id listenerPort : ℤ} (hid : IsInt id)
    (hport : IsInt listenerPort) (address : SockAddrIn) :
    extractReplica (eventPacket (createReplicaAddedEvent id listenerPort address)).image =
      some ((id, listenerPort), address.sinAddr) := by
  have hlisted : (createReplicaAddedEvent id listenerPort address).type.Listed :=
    fun _ h => by cases h
  obtain ⟨htype, haddress, husername⟩ := deserialize_serialize_carried hlisted rfl
    (carried_printPair id listenerPort)
  have htext : payloadText
      (eventPacket (createReplicaAddedEvent id listenerPort address)).image =
      serializeReplicaEvent (createReplicaAddedEvent id listenerPort address) :=
    payloadText_createTextPacket (length_serialize_replicaAdded hid hport address)
      (zero_not_mem_serializeReplicaAdded _ _ _)
  have hadded : (createReplicaAddedEvent id listenerPort address).type = .replicaAdded := rfl
  simp only [extractReplica, htext]
  rw [if_pos (htype.trans hadded), husername, Option.bind_some, scanPair_printPair hid hport,
    Option.map_some, haddress]
  rfl

/-- What a third replica gets of a registration is what the new backup sent, and the address that
it came from. -/
theorem extractReplica_relayRegistration {id listenerPort : ℤ} (hid : IsInt id)
    (hport : IsInt listenerPort) (cliAddr : SockAddrIn) :
    ∃ message, relayRegistration (registrationPacket id listenerPort).image cliAddr =
        some message ∧
      extractReplica message.image = some ((id, listenerPort), cliAddr.sinAddr) := by
  refine ⟨eventPacket (createReplicaAddedEvent id listenerPort cliAddr), ?_,
    extractReplica_eventPacket hid hport cliAddr⟩
  rw [relayRegistration, scanPair_registrationPacket hid hport]
  rfl

/-- The largest id, with a port that is no port. -/
theorem extractReplica_relayRegistration_extreme :
    ∃ message, relayRegistration (registrationPacket 2147483647 (-2147483648)).image .zero =
        some message ∧
      extractReplica message.image = some ((2147483647, -2147483648), ⟨0, 0, 0, 0⟩) :=
  extractReplica_relayRegistration (by decide) (by decide) .zero

/-! ## The new manager -/

/-- `notify_clients_of_server_change`. -/
def notificationPacket (newAddress : SockAddrIn) : Packet :=
  createTextPacket .reconnect (printAddress newAddress ++ [0])

theorem payloadText_notificationPacket (newAddress : SockAddrIn) :
    payloadText (notificationPacket newAddress).image = printAddress newAddress := by
  have hlength : (printAddress newAddress ++ [0]).length < 2 ^ 16 := by
    have haddress := length_printAddress_le newAddress
    simp only [List.length_append, List.length_singleton]
    omega
  rw [notificationPacket, payloadText_image (Packet.isCreated_createTextPacket _ _),
    payload_createTextPacket hlength]
  exact (cString_append_eq_iff (zero_not_mem_printAddress _) 0 []).mpr rfl

end SyncServer
