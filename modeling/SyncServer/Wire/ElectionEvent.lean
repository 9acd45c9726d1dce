import SyncServer.Wire.ReplicaEvent

/-! # Election events and their text form -/

namespace SyncServer

open CText

/-- `enum ElectionMsgType`, with the numbers a decoded event may carry besides. -/
inductive ElectionMsgType where
  | election
  | electionAnswer
  | coordinator
  | other (value : ℤ)
  deriving DecidableEq, Repr

def ElectionMsgType.toInt : ElectionMsgType → ℤ
  | election => 0
  | electionAnswer => 1
  | coordinator => 2
  | other value => value

def ElectionMsgType.ofInt (value : ℤ) : ElectionMsgType :=
  if value = 0 then election
  else if value = 1 then electionAnswer
  else if value = 2 then coordinator
  else other value

def ElectionMsgType.Listed (type : ElectionMsgType) : Prop := ∀ value, type ≠ other value

theorem ElectionMsgType.isInt_toInt {type : ElectionMsgType} (h : type.Listed) :
    IsInt type.toInt := by
  cases type with
  | other value => exact absurd rfl (h value)
  | _ => constructor <;> decide

theorem ElectionMsgType.ofInt_toInt {type : ElectionMsgType} (h : type.Listed) :
    ofInt type.toInt = type := by
  cases type with
  | other value => exact absurd rfl (h value)
  | _ => rfl

/-- `struct ElectionEvent`. -/
structure ElectionEvent where
  type : ElectionMsgType
  id : ℤ
  deviceAddress : SockAddrIn
  deriving DecidableEq, Repr

def createElectionEvent (senderId : ℤ) : ElectionEvent := ⟨.election, senderId, .zero⟩

def createElectionAnswerEvent (senderId : ℤ) : ElectionEvent :=
  ⟨.electionAnswer, senderId, .zero⟩

def createCoordinatorEvent (leaderId : ℤ) (leaderAddress : SockAddrIn) : ElectionEvent :=
  ⟨.coordinator, leaderId, leaderAddress⟩

def serializeElectionEvent (event : ElectionEvent) : Bytes :=
  printInt event.type.toInt ++ pipe :: (printAddress event.deviceAddress ++
    pipe :: printInt event.id)

/-- The event after `memset(&event, 0, sizeof(ElectionEvent))`. -/
def ElectionEvent.cleared : ElectionEvent := ⟨.election, 0, .zero⟩

def deserializeElectionEvent (str : Bytes) : ElectionEvent :=
  match strtok pipe str with
  | (none, _) => .cleared
  | (some token, rest) =>
      let event := { ElectionEvent.cleared with type := .ofInt (atoi token) }
      match strtok pipe rest with
      | (none, _) => event
      | (some token, rest) =>
          let event := { event with deviceAddress := parseAddress token }
          match strtok pipe rest with
          | (none, _) => event
          | (some token, _) => { event with id := atoi token }

/-- The first token is the number of the type. -/
theorem strtok_serializeElectionEvent (event : ElectionEvent) :
    strtok pipe (serializeElectionEvent event) =
      (some (printInt event.type.toInt),
        printAddress event.deviceAddress ++ pipe :: printInt event.id) := by
  rw [serializeElectionEvent,
    strtok_append (printInt_ne_nil _) (pipe_not_mem_printInt _) (stops_pipe _)]
  rfl

theorem ElectionMsgType.atoi_printInt_toInt {type : ElectionMsgType} (h : type.Listed) :
    atoi (printInt type.toInt) = type.toInt :=
  atoi_printInt_self (isInt_toInt h)

/-- Every election event with a listed type and an `int` id survives the wire. -/
theorem deserialize_serializeElectionEvent (event : ElectionEvent) (h : event.type.Listed)
    (hid : IsInt event.id) :
    deserializeElectionEvent (serializeElectionEvent event) = event := by
  have haddress : strtok pipe (printAddress event.deviceAddress ++ pipe :: printInt event.id) =
      (some (printAddress event.deviceAddress), printInt event.id) :=
    strtok_append (printAddress_ne_nil _) (pipe_not_mem_printAddress _) (stops_pipe _)
  have hlast : strtok pipe (printInt event.id) = (some (printInt event.id), []) := by
    simpa using strtok_append (printInt_ne_nil event.id) (pipe_not_mem_printInt _)
      (stops_nil (· != pipe))
  simp only [deserializeElectionEvent, strtok_serializeElectionEvent, haddress, hlast,
    ElectionMsgType.atoi_printInt_toInt h, atoi_printInt_self hid, ElectionMsgType.ofInt_toInt h,
    parseAddress_printAddress]

end SyncServer
