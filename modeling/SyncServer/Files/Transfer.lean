import Mathlib.Logic.Function.Basic
import SyncServer.Wire.Stream

/-! # Receiving files

The client and the server share the code that takes a file or a deletion from a connection. The
connection is a stream of bytes or, where the framing does not matter, a list of packets.
-/

namespace SyncServer

open CText Ending

/-- The contents of the files. Folders are not modelled. -/
abbrev Disk (Path : Type) : Type := Path → Option Bytes

/-- What a handler finds outside. The file system answers about a path whether `fopen(.., "w")`
and `remove` succeed, whether a folder is there, and what `list_files` makes of it. For the content
of a path, none for a folder, `reads` is what comes of `fopen(.., "rb")`: nothing, or the size that
is found and the chunks that are read. `sends` is whether the client is still there to take an
answer, and `heap` what can be read behind the allocation of a packet. -/
structure FileAccess (Path : Type) where
  opens : Path → Bool
  removes : Path → Bool
  isFolder : Path → Bool
  listing : Path → Option Bytes
  reads : Path → Option Bytes → Option (ℕ × List Bytes)
  sends : Bool
  heap : Bytes

/-- Everything succeeds, no folder is in the way, no file changes while it is read, and nothing can
be read behind a packet. -/
def FileAccess.granted {Path : Type} : FileAccess Path where
  opens _ := true
  removes _ := true
  isFolder _ := false
  listing _ := some []
  reads _ content := content.map fun content => (content.length, readFileChunks content)
  sends := true
  heap := []

/-- A connection as a list of packets. -/
structure Socket where
  packets : List Packet
  ending : StreamEnd
  deriving DecidableEq, Repr

/-- What `read_packet` makes up when the connection is closed. -/
def closedPacket : Packet := createPacket .connectionClosed 0 []

def Socket.readPacket (s : Socket) : Ending Fault (Option Packet × Socket) :=
  match s.packets with
  | packet :: packets => done (some packet, { s with packets })
  | [] =>
      match s.ending with
      | .stalled => waits
      | .closed => done (some closedPacket, s)
      | .failed => done (none, s)

section

variable {σ Path : Type} (readPacket : σ → Ending Fault (Option Packet × σ))
  (resolve : Bytes → Path) (access : FileAccess Path)

/-- The loop of `write_packets_to_file`. It does not look at the types of the packets. -/
def writePackets : ℕ → Bytes → σ → Ending Fault (Bytes × σ)
  | 0, written, s => done (written, s)
  | n + 1, written, s => do
      let (packet, s) ← readPacket s
      let packet ← deref .nullPointer packet
      writePackets n (written ++ packet.payload) s

/-- The file that a path names; a null pointer names none. -/
def fileAt (filepath : Option Bytes) (disk : Disk Path) : Option Bytes :=
  (filepath.map resolve).bind disk

/-- Where `fopen(.., "w")` succeeds. -/
def opened (filepath : Option Bytes) : Option Path :=
  (filepath.map resolve).filter fun path => access.opens path

variable [DecidableEq Path]

def writePacketsToFile (filepath : Option Bytes) (numPackets : ℕ) (disk : Disk Path) (s : σ) :
    Ending Fault (Disk Path × σ) :=
  match opened resolve access filepath with
  | none => done (disk, s)
  | some path => do
      let (content, s) ← writePackets readPacket numPackets [] s
      done (Function.update disk path (some content), s)

def receiveFile (packet : Packet) (path : Bytes) (disk : Disk Path) (s : σ) :
    Ending Fault (Bytes × Disk Path × σ) := do
  let announcement ← deref .overread (packet.announcement access.heap)
  let (disk, s) ← writePacketsToFile readPacket resolve access
    (createFilepath path announcement.filename) announcement.numPackets disk s
  done (announcement.filename, disk, s)

/-- `remove`. -/
def removePath (filepath : Option Bytes) (disk : Disk Path) : Disk Path :=
  match (filepath.map resolve).filter fun path => access.removes path with
  | none => disk
  | some path => Function.update disk path none

theorem removePath_apply (filepath : Option Bytes) (disk : Disk Path) (path : Path) :
    removePath resolve access filepath disk path =
      if filepath.map resolve = some path ∧ access.removes path = true then none
      else disk path := by
  unfold removePath
  cases hremoved : (filepath.map resolve).filter fun path => access.removes path with
  | none =>
      rw [if_neg]
      rintro ⟨hpath, hremoves⟩
      rw [hpath, Option.filter_some, if_pos hremoves] at hremoved
      cases hremoved
  | some removed =>
      obtain ⟨hpath, hremoves⟩ := Option.filter_eq_some_iff.mp hremoved
      by_cases heq : path = removed
      · rw [heq, if_pos ⟨hpath, hremoves⟩]
        exact Function.update_self ..
      · rw [if_neg fun h => heq (Option.some.inj (h.1.symm.trans hpath))]
        exact Function.update_of_ne heq ..

def deleteFile (packet : Packet) (path : Bytes) (disk : Disk Path) : Bytes × Disk Path :=
  let filename := cString packet.payload
  (filename, removePath resolve access (createFilepath path filename) disk)

/-- The upload that `handle_send_delete` finds announced in a packet. An empty one is not looked
at. -/
def Packet.upload (packet : Packet) (heap : Bytes) : Option FileAnnouncement :=
  if packet.payload = [] then none else packet.announcement heap

/-- `handle_send_delete`: the name, or a null pointer. -/
def handleSendDelete (path : Bytes) (packet : Packet) (disk : Disk Path) (s : σ) :
    Ending Fault (Option Bytes × Disk Path × σ) :=
  match packet.type with
  | .send =>
      if packet.payload = [] then done (none, disk, s)
      else do
        let (filename, disk, s) ← receiveFile readPacket resolve access packet path disk s
        done (some filename, disk, s)
  | .delete =>
      let (filename, disk) := deleteFile resolve access packet path disk
      done (some filename, disk, s)
  | _ => done (none, disk, s)

/-- `read_packet` followed by `handle_send_delete`. -/
def receiveTransfer (path : Bytes) (disk : Disk Path) (s : σ) :
    Ending Fault (Option Bytes × Disk Path × σ) := do
  let (packet, s) ← readPacket s
  let packet ← deref .nullPointer packet
  handleSendDelete readPacket resolve access path packet disk s

end

/-! ## Reading several packets -/

section

variable {σ Path : Type} {readPacket : σ → Ending Fault (Option Packet × σ)}

variable (readPacket) in
/-- Successive calls of `read_packet` give these packets. -/
inductive Reads : σ → List Packet → σ → Prop where
  | nil (s) : Reads s [] s
  | cons {s t u packet packets} : readPacket s = done (some packet, t) → Reads t packets u →
      Reads s (packet :: packets) u

/-- The loop reads the packets that are there, and goes on with what comes then. -/
theorem Reads.writePackets_add {s t : σ} {packets : List Packet} (h : Reads readPacket s packets t)
    (n : ℕ) (written : Bytes) :
    writePackets readPacket (packets.length + n) written s =
      writePackets readPacket n (written ++ (packets.map Packet.payload).flatten) t := by
  induction h generalizing written with
  | nil s => simp
  | cons hread _ ih =>
      rw [List.length_cons, Nat.add_right_comm]
      simp only [writePackets, hread, bind_done, deref_some, ih, List.map_cons,
        List.flatten_cons, List.append_assoc]

theorem Reads.writePackets_done {s t : σ} {packets : List Packet}
    (h : Reads readPacket s packets t) :
    writePackets readPacket packets.length [] s =
      done ((packets.map Packet.payload).flatten, t) := by
  have hloop := h.writePackets_add 0 []
  rwa [Nat.add_zero, List.nil_append] at hloop

/-- With too few packets it waits where the connection stalls. -/
theorem Reads.writePackets_waits {s t : σ} {packets : List Packet}
    (h : Reads readPacket s packets t) (ht : readPacket t = waits) {n : ℕ}
    (hn : packets.length < n) (written : Bytes) :
    writePackets readPacket n written s = waits := by
  obtain ⟨missing, rfl⟩ := Nat.exists_eq_add_of_lt hn
  rw [Nat.add_assoc, h.writePackets_add (missing + 1)]
  simp only [writePackets, ht, bind_waits]

end

theorem Socket.reads (packets rest : List Packet) (ending : StreamEnd) :
    Reads readPacket ⟨packets ++ rest, ending⟩ packets ⟨rest, ending⟩ := by
  induction packets with
  | nil => exact .nil _
  | cons packet packets ih => exact .cons rfl ih

theorem ByteStream.reads (packets : List Packet) (rest : Bytes) (ending : StreamEnd)
    (sizes : ℕ → ℕ) :
    ∃ sizes', Reads readPacket ⟨packets.flatMap Packet.image ++ rest, ending, sizes⟩ packets
      ⟨rest, ending, sizes'⟩ := by
  induction packets generalizing sizes with
  | nil => exact ⟨sizes, .nil _⟩
  | cons packet packets ih =>
      obtain ⟨sizes₁, h₁⟩ := readPacket_append packet
        (packets.flatMap Packet.image ++ rest) ending sizes
      obtain ⟨sizes₂, h₂⟩ := ih sizes₁
      rw [← List.append_assoc] at h₁
      exact ⟨sizes₂, .cons h₁ h₂⟩

theorem ByteStream.readPacket_stalled (sizes : ℕ → ℕ) :
    readPacket ⟨[], .stalled, sizes⟩ = waits := by
  have hfill : readFully sizeofPacket [] ⟨[], .stalled, sizes⟩ = waits := by
    rw [readFully]
    rfl
  rw [readPacket, readPacketImage, hfill]
  rfl

end SyncServer
