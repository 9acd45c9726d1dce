import SyncServer.Library.Transition
import SyncServer.Server.ReplicaList
import SyncServer.Wire.Reading

/-! # The threads that send to the replicas

Every call of `notify_replicas` is a thread of its own here, and so is every join of a replica:
the listener adds it, notifies all of it and then sends it the list. A step is one
`send_packet`, one operation on `replica_list_mutex` or one access to the list or a file.
-/

namespace SyncServer

open CText

/-- `enum SendPacketErrors`, and -1. -/
inductive SendResult where
  | socketClosed
  | ok
  | failed
  deriving DecidableEq, Repr

/-- A call of `notify_replicas`. In the listener the new replica gets the list afterwards. -/
structure Notice where
  event : ReplicaEvent
  joined : Option ℕ
  deriving DecidableEq, Repr

/-- Where a sending thread stands. `result` is what `send_packet` returned for the event. -/
inductive Sender where
  | lockList (notice : Notice)
  | sendMessage (notice : Notice) (socketfd : ℕ)
  | openFile (notice : Notice) (socketfd : ℕ) (result : SendResult)
  | announceFile (notice : Notice) (socketfd : ℕ) (result : SendResult) (fileSize : ℕ)
  | sendData (notice : Notice) (socketfd : ℕ) (result : SendResult) (fileSize sent : ℕ)
  | sendDelete (notice : Notice) (socketfd : ℕ) (result : SendResult)
  | advance (notice : Notice) (socketfd : ℕ) (result : SendResult)
  | unlockList (notice : Notice)
  | relayHead (socketfd : ℕ)
  | relay (socketfd : ℕ) (current : Option ℕ)
  | relayNext (socketfd current : ℕ)
  | returned
  deriving DecidableEq, Repr

/-- A connection. Descriptors are not used again after a close. -/
inductive Link where
  | unused
  | open
  | closed
  deriving DecidableEq, Repr

/-- The mutex has no owner: any thread can unlock it. -/
structure Senders where
  mutex : Bool
  list : List ReplicaNode
  threads : List Sender
  link : ℕ → Link
  streams : ℕ → List Packet

/-- What the step meets: how a send on a closed connection fails, the size of the file if it
opens, and what the next read of it gives. -/
structure Outcome where
  failure : SendResult
  fileSize : Option ℕ
  chunk : Option Bytes
  deriving DecidableEq, Repr

inductive Senders.Action where
  | notify (event : ReplicaEvent)
  | accept (node : ReplicaNode)
  | run (i : ℕ) (outcome : Outcome)
  | close (socketfd : ℕ)
  deriving DecidableEq, Repr

/-! ## The steps -/

/-- The walk of `notify_replicas` at a node, or at its end. -/
def Sender.walk (notice : Notice) : Option ℕ → Sender
  | none => unlockList notice
  | some socketfd => sendMessage notice socketfd

/-- The `switch` of `send_event` after the event was sent. -/
def Sender.follow (notice : Notice) (socketfd : ℕ) (result : SendResult) : Sender :=
  match notice.event.type with
  | .fileUploaded => openFile notice socketfd result
  | .fileDeleted => sendDelete notice socketfd result
  | _ => advance notice socketfd result

def ReplicaNode.addedEvent (node : ReplicaNode) : ReplicaEvent :=
  createReplicaAddedEvent node.id node.listenerPort node.deviceAddress

namespace Senders

def initial : Senders := ⟨false, [], [], fun _ => .unused, fun _ => []⟩

def goto (s : Senders) (i : ℕ) (thread : Sender) : Senders :=
  { s with threads := s.threads.set i thread }

/-- `send_packet`: all of the packet on an open connection, nothing on a closed one. -/
def sendPacket (s : Senders) (socketfd : ℕ) (packet : Packet) (failure : SendResult) :
    Option (Senders × SendResult) :=
  if s.link socketfd = .open then
    some ({ s with
      streams := Function.update s.streams socketfd (s.streams socketfd ++ [packet]) }, .ok)
  else if failure = .ok then none
  else some (s, failure)

/-- The next statement of thread `i`. A pointer to a node that was freed stops the manager. The
listener reads a node in the step that sends it: one that is freed in between has no next. -/
def runThread (s : Senders) (i : ℕ) (o : Outcome) : Sender → Option Senders
  | .lockList notice =>
      if s.mutex then none
      else some { s.goto i (.walk notice (listHead s.list)) with mutex := true }
  | .sendMessage notice socketfd =>
      (s.sendPacket socketfd (eventPacket notice.event) o.failure).map fun sent =>
        sent.1.goto i (.follow notice socketfd sent.2)
  | .openFile notice socketfd result =>
      match o.fileSize with
      | none => some (s.goto i (.advance notice socketfd result))
      | some fileSize => some (s.goto i (.announceFile notice socketfd result fileSize))
  | .announceFile notice socketfd result fileSize =>
      notice.event.filepath.bind fun filename =>
        (s.sendPacket socketfd (fileAnnouncementPacket filename fileSize) o.failure).map
          fun sent =>
            if sent.2 = .ok then sent.1.goto i (.sendData notice socketfd result fileSize 0)
            else sent.1.goto i (.advance notice socketfd result)
  | .sendData notice socketfd result fileSize count =>
      match o.chunk with
      | none => some (s.goto i (.advance notice socketfd result))
      | some chunk =>
          if chunk = [] ∨ fileChunkSize < chunk.length then none
          else (s.sendPacket socketfd (createTextPacket .data chunk) o.failure).map fun sent =>
            -- a short read has met the end of the file
            if sent.2 = .ok ∧ chunk.length = fileChunkSize then
              sent.1.goto i (.sendData notice socketfd result fileSize (count + 1))
            else sent.1.goto i (.advance notice socketfd result)
  | .sendDelete notice socketfd result =>
      notice.event.filepath.bind fun filename =>
        (s.sendPacket socketfd (createTextPacket .delete filename) o.failure).map fun sent =>
          sent.1.goto i (.advance notice socketfd result)
  | .advance notice socketfd result =>
      (chainFrom s.list (some socketfd)).map fun nodes =>
        if result = .socketClosed then
          { s.goto i (.walk notice (listHead (nodes.drop 1))) with
            list := s.list.eraseP (·.socketfd = socketfd)
            link := Function.update s.link socketfd .closed }
        else s.goto i (.walk notice (listHead (nodes.drop 1)))
  | .unlockList notice =>
      match notice.joined with
      | none => some { s.goto i .returned with mutex := false }
      | some socketfd => some { s.goto i (.relayHead socketfd) with mutex := false }
  | .relayHead socketfd => some (s.goto i (.relay socketfd (listHead s.list)))
  | .relay _ none => some { s.goto i .returned with mutex := false }
  | .relay socketfd (some current) =>
      (chainFrom s.list (some current)).bind fun nodes =>
        nodes.head?.bind fun node =>
          (s.sendPacket socketfd (eventPacket node.addedEvent) o.failure).map fun sent =>
            sent.1.goto i (.relayNext socketfd current)
  | .relayNext socketfd current =>
      (chainFrom s.list (some current)).map fun nodes =>
        s.goto i (.relay socketfd (listHead (nodes.drop 1)))
  | .returned => none

def step (s : Senders) : Action → Option Senders
  | .notify event => some { s with threads := s.threads ++ [.lockList ⟨event, none⟩] }
  | .accept node =>
      if s.mutex ∨ s.link node.socketfd ≠ .unused ∨ ¬IsInt node.id ∨ ¬IsInt node.listenerPort
      then none
      else (addReplica s.list node).map fun list =>
        { s with
          list := list
          threads := s.threads ++ [.lockList ⟨node.addedEvent, some node.socketfd⟩]
          link := Function.update s.link node.socketfd .open }
  | .run i outcome => s.threads[i]?.bind (s.runThread i outcome)
  | .close socketfd =>
      if s.link socketfd = .open then
        some { s with link := Function.update s.link socketfd .closed }
      else none

end Senders

/-! ## Transmissions -/

/-- The number of packets that a reader expects after an announcement. -/
def announcedPackets (packet : Packet) : ℕ := readLittleEndian (packet.payload.take 8)

/-- A complete event transmission, as its reader sees it. -/
def Transmission : List Packet → Prop
  | [] => False
  | message :: rest =>
      message.type = .replicaMsg ∧
        match (deserializeReplicaEvent message.payload).type with
        | .fileUploaded => ∃ announcement data, rest = announcement :: data ∧
            announcement.type = .send ∧ data.length = announcedPackets announcement ∧
            ∀ packet ∈ data, packet.type = .data
        | .fileDeleted => ∃ packet, rest = [packet] ∧ packet.type = .delete
        | _ => rest = []

end SyncServer
