import SyncServer.Library.CText

/-! # Replica events and their text form -/

namespace SyncServer

open CText

/-- `enum ReplicaEventType`. A decoded event may carry a number that is none of the
enumerators. -/
inductive ReplicaEventType where
  | clientConnected
  | clientDisconnected
  | fileUploaded
  | replicaAdded
  | heartbeat
  | fileDeleted
  | other (value : ℤ)
  deriving DecidableEq, Repr

def ReplicaEventType.toInt : ReplicaEventType → ℤ
  | clientConnected => 0
  | clientDisconnected => 1
  | fileUploaded => 2
  | replicaAdded => 3
  | heartbeat => 4
  | fileDeleted => 5
  | other value => value

def ReplicaEventType.ofInt (value : ℤ) : ReplicaEventType :=
  if value = 0 then clientConnected
  else if value = 1 then clientDisconnected
  else if value = 2 then fileUploaded
  else if value = 3 then replicaAdded
  else if value = 4 then heartbeat
  else if value = 5 then fileDeleted
  else other value

/-- The type is one of the enumerators. -/
def ReplicaEventType.Listed (type : ReplicaEventType) : Prop := ∀ value, type ≠ other value

theorem ReplicaEventType.isInt_toInt {type : ReplicaEventType} (h : type.Listed) :
    IsInt type.toInt := by
  cases type with
  | other value => exact absurd rfl (h value)
  | _ => constructor <;> decide

theorem ReplicaEventType.ofInt_toInt {type : ReplicaEventType} (h : type.Listed) :
    ofInt type.toInt = type := by
  cases type with
  | other value => exact absurd rfl (h value)
  | _ => rfl

/-- `struct ReplicaEvent`; an absent string is a null pointer. -/
structure ReplicaEvent where
  type : ReplicaEventType
  deviceAddress : SockAddrIn
  username : Option Bytes
  filepath : Option Bytes
  deriving DecidableEq, Repr

/-! ## The constructors -/

def createClientConnectedEvent (username : Bytes) (deviceAddress : SockAddrIn) :
    ReplicaEvent :=
  ⟨.clientConnected, deviceAddress, some username, none⟩

def createClientDisconnectedEvent (username : Bytes) (deviceAddress : SockAddrIn) :
    ReplicaEvent :=
  ⟨.clientDisconnected, deviceAddress, some username, none⟩

/-- The id and the port of the new replica travel in the username. -/
def createReplicaAddedEvent (id listenerPort : ℤ) (deviceAddress : SockAddrIn) :
    ReplicaEvent :=
  ⟨.replicaAdded, deviceAddress, some (printPair id listenerPort), none⟩

def createFileUploadEvent (username : Bytes) (deviceAddress : SockAddrIn)
    (filepath : Bytes) : ReplicaEvent :=
  ⟨.fileUploaded, deviceAddress, some username, some filepath⟩

def createFileDeleteEvent (username : Bytes) (deviceAddress : SockAddrIn)
    (filepath : Bytes) : ReplicaEvent :=
  ⟨.fileDeleted, deviceAddress, some username, some filepath⟩

def createHeartbeatEvent : ReplicaEvent :=
  ⟨.heartbeat, .zero, none, none⟩

/-! ## The text form -/

/-- `"%s:%d"` of the address and the port. -/
def printAddress (address : SockAddrIn) : Bytes :=
  inetNtop address.sinAddr ++ colon :: printInt address.sinPort.toNat

/-- The second token of both event formats: the text before the first colon as an address,
the number after it as a port. -/
def parseAddress (token : Bytes) : SockAddrIn :=
  match cutAt colon token with
  | none => .zero
  | some (ip, port) =>
      ⟨(inetPton ip).getD SockAddrIn.zero.sinAddr, htons (atoi port)⟩

def serializeReplicaEvent (event : ReplicaEvent) : Bytes :=
  printInt event.type.toInt ++ pipe :: (printAddress event.deviceAddress ++
    pipe :: (event.username.getD [] ++ pipe :: event.filepath.getD []))

/-- The event after `memset(&event, 0, sizeof(ReplicaEvent))`. -/
def ReplicaEvent.cleared : ReplicaEvent := ⟨.clientConnected, .zero, none, none⟩

/-- `strdup(token)` unless the token is absent or empty. -/
def keepToken (token : Option Bytes) : Option Bytes := token.filter (· ≠ [])

def deserializeReplicaEvent (str : Bytes) : ReplicaEvent :=
  match strtok pipe str with
  | (none, _) => .cleared
  | (some token, rest) =>
      let event := { ReplicaEvent.cleared with type := .ofInt (atoi token) }
      match strtok pipe rest with
      | (none, _) => event
      | (some token, rest) =>
          let user := strtok pipe rest
          let file := strtok pipe user.2
          { event with
            deviceAddress := parseAddress token
            username := keepToken user.1
            filepath := keepToken file.1 }

/-! ## What the reader recovers -/

theorem printAddress_ne_nil (address : SockAddrIn) : printAddress address ≠ [] := by
  simp [printAddress]

theorem pipe_not_mem_printNat (n : ℕ) : pipe ∉ printNat n := by
  intro h
  simpa [isDigit, pipe] using isDigit_of_mem_printNat h

theorem pipe_not_mem_printInt (z : ℤ) : pipe ∉ printInt z := by
  cases z with
  | ofNat n => exact pipe_not_mem_printNat n
  | negSucc n =>
      intro h
      rcases List.mem_cons.mp h with h | h
      · simp [pipe, minus] at h
      · exact pipe_not_mem_printNat (n + 1) h

theorem colon_not_mem_inetNtop (a : InAddr) : colon ∉ inetNtop a := by
  intro h
  rcases mem_inetNtop h with h | h
  · simp [isDigit, colon] at h
  · simp [colon, dot] at h

theorem pipe_not_mem_printAddress (address : SockAddrIn) : pipe ∉ printAddress address := by
  intro h
  rcases List.mem_append.mp h with h | h
  · rcases mem_inetNtop h with h | h
    · simp [isDigit, pipe] at h
    · simp [pipe, dot] at h
  · rcases List.mem_cons.mp h with h | h
    · simp [pipe, colon] at h
    · exact pipe_not_mem_printInt _ h

theorem parseAddress_printAddress (address : SockAddrIn) :
    parseAddress (printAddress address) = address := by
  have hport : atoi (printInt address.sinPort.toNat) = address.sinPort.toNat := by
    have hlt := address.sinPort.toNat_lt
    exact atoi_printInt_self (by constructor <;> omega)
  simp only [parseAddress, printAddress, cutAt_append (colon_not_mem_inetNtop _),
    inetPton_inetNtop, Option.getD_some, hport, htons_toNat]

theorem stops_pipe (s : Bytes) : Stops (· != pipe) (pipe :: s) := by simp

/-- The first token is the number of the type. -/
theorem strtok_serializeReplicaEvent (event : ReplicaEvent) :
    strtok pipe (serializeReplicaEvent event) =
      (some (printInt event.type.toInt), printAddress event.deviceAddress ++
        pipe :: (event.username.getD [] ++ pipe :: event.filepath.getD [])) := by
  rw [serializeReplicaEvent,
    strtok_append (printInt_ne_nil _) (pipe_not_mem_printInt _) (stops_pipe _)]
  rfl

theorem ReplicaEventType.atoi_printInt_toInt {type : ReplicaEventType} (h : type.Listed) :
    atoi (printInt type.toInt) = type.toInt :=
  atoi_printInt_self (isInt_toInt h)

/-- The first two tokens always come back; the two strings are what the tokenizer makes of
the rest of the text. -/
theorem deserialize_serialize (event : ReplicaEvent) (h : event.type.Listed) :
    deserializeReplicaEvent (serializeReplicaEvent event) =
      { event with
        username := keepToken
          (strtok pipe (event.username.getD [] ++ pipe :: event.filepath.getD [])).1
        filepath := keepToken (strtok pipe
          (strtok pipe (event.username.getD [] ++ pipe :: event.filepath.getD [])).2).1 } := by
  have haddress : ∀ s, strtok pipe (printAddress event.deviceAddress ++ pipe :: s) =
      (some (printAddress event.deviceAddress), s) := fun s =>
    strtok_append (printAddress_ne_nil _) (pipe_not_mem_printAddress _) (stops_pipe s)
  simp only [deserializeReplicaEvent, strtok_serializeReplicaEvent, haddress,
    ReplicaEventType.atoi_printInt_toInt h, ReplicaEventType.ofInt_toInt h,
    parseAddress_printAddress]

/-- A name that the text form can carry: not empty and without the separator. -/
def Carried (name : Bytes) : Prop := name ≠ [] ∧ pipe ∉ name

instance (name : Bytes) : Decidable (Carried name) := inferInstanceAs (Decidable (_ ∧ _))

/-- With a name the text can carry, the type, the address and the name all come back. -/
theorem deserialize_serialize_carried {event : ReplicaEvent} (h : event.type.Listed)
    {name : Bytes} (hname : event.username = some name) (hc : Carried name) :
    (deserializeReplicaEvent (serializeReplicaEvent event)).type = event.type ∧
    (deserializeReplicaEvent (serializeReplicaEvent event)).deviceAddress =
      event.deviceAddress ∧
    (deserializeReplicaEvent (serializeReplicaEvent event)).username = some name := by
  rw [deserialize_serialize event h]
  refine ⟨rfl, rfl, ?_⟩
  simp only [hname, Option.getD_some, strtok_append hc.1 hc.2 (stops_pipe _), keepToken]
  simp [hc.1]

theorem carried_printPair (m n : ℤ) : Carried (printPair m n) := by
  constructor
  · simp [printPair]
  · intro h
    rcases List.mem_append.mp h with h | h
    · exact pipe_not_mem_printInt m h
    · rcases List.mem_cons.mp h with h | h
      · simp [pipe, colon] at h
      · exact pipe_not_mem_printInt n h

end SyncServer
