import SyncServer.Library.CText

/-! # Packets and the transfer of files

A packet has a type, a 16-bit length and that many bytes. A file is announced with the number
of data packets that follow.
-/

namespace SyncServer

open CText

/-- `PacketTypes`. A packet that was read may carry a number that is none of the
enumerators. -/
inductive PacketType where
  | data
  | send
  | list
  | download
  | delete
  | exit
  | replicaMsg
  | connectionClosed
  | error
  | reconnect
  | other (value : UInt32) (unlisted : 10 ≤ value.toNat)
  deriving DecidableEq, Repr

/-- `struct packet`; the length is that of the payload. The payload starts two bytes before the
end of the header, so its allocation has two more bytes behind it. -/
structure Packet where
  type : PacketType
  payload : Bytes
  behind : UInt8 × UInt8
  length_payload : payload.length < 2 ^ 16
  deriving DecidableEq, Repr

def createPacket (type : PacketType) (length : UInt16) (payload : Bytes) : Packet where
  type := type
  payload := payload.take length.toNat
  behind := (0, 0)
  length_payload := by
    have h := length.toNat_lt
    have h' := List.length_take_le length.toNat payload
    omega

/-- The packet of a whole C string. Its length passes through 16 bits. -/
def createTextPacket (type : PacketType) (text : Bytes) : Packet :=
  createPacket type (UInt16.ofNat text.length) text

theorem payload_createTextPacket {type : PacketType} {text : Bytes} (h : text.length < 2 ^ 16) :
    (createTextPacket type text).payload = text := by
  have hlength : (UInt16.ofNat text.length).toNat = text.length :=
    UInt16.toNat_ofNat_of_lt' h
  simp only [createTextPacket, createPacket, hlength, List.take_length]

/-! ## The announcement -/

/-- `struct fileAnnoucement`. -/
structure FileAnnouncement where
  numPackets : ℕ
  filenameLength : ℕ
  filename : Bytes
  deriving DecidableEq, Repr

def FileAnnouncement.toBytes (announcement : FileAnnouncement) : Bytes :=
  littleEndian 8 announcement.numPackets ++
    (littleEndian 8 announcement.filenameLength ++ announcement.filename)

/-- The announcement at the start of some memory, `none` where it would run over the end. The name
is copied with its length and then used as a C string. -/
def FileAnnouncement.ofBytes (memory : Bytes) : Option FileAnnouncement :=
  let filenameLength := readLittleEndian ((memory.drop 8).take 8)
  if memory.length < 16 + filenameLength then none
  else some ⟨readLittleEndian (memory.take 8), filenameLength,
    cString ((memory.drop 16).take filenameLength)⟩

/-- The announcement that `receive_file` finds in a packet. The two bytes behind the payload are
its to read, and `heap` is what it can read behind the allocation. -/
def Packet.announcement (packet : Packet) (heap : Bytes) : Option FileAnnouncement :=
  FileAnnouncement.ofBytes (packet.payload ++ packet.behind.1 :: packet.behind.2 :: heap)

/-- An announcement does not depend on what lies behind it. -/
theorem FileAnnouncement.ofBytes_append {memory : Bytes} {announcement : FileAnnouncement}
    (h : ofBytes memory = some announcement) (rest : Bytes) :
    ofBytes (memory ++ rest) = some announcement := by
  simp only [ofBytes] at h
  split at h
  · cases h
  · rename_i hlength
    have h16 : 16 ≤ memory.length := by omega
    have hfield : ((memory ++ rest).drop 8).take 8 = (memory.drop 8).take 8 := by
      rw [List.drop_append_of_le_length (by omega),
        List.take_append_of_le_length (by rw [List.length_drop]; omega)]
    have hcount : (memory ++ rest).take 8 = memory.take 8 :=
      List.take_append_of_le_length (by omega)
    have hname : ((memory ++ rest).drop 16).take (readLittleEndian ((memory.drop 8).take 8)) =
        (memory.drop 16).take (readLittleEndian ((memory.drop 8).take 8)) := by
      rw [List.drop_append_of_le_length h16,
        List.take_append_of_le_length (by rw [List.length_drop]; omega)]
    rw [ofBytes, hfield, hcount, hname, List.length_append, if_neg (by omega)]
    exact h

/-- What the payload holds alone is found. -/
theorem Packet.announcement_of_payload {packet : Packet} {announcement : FileAnnouncement}
    (h : FileAnnouncement.ofBytes packet.payload = some announcement) (heap : Bytes) :
    packet.announcement heap = some announcement :=
  FileAnnouncement.ofBytes_append h _

/-- An announcement that was written is read back. -/
theorem FileAnnouncement.ofBytes_toBytes {n : ℕ} {filename : Bytes} (hn : n < 2 ^ 64)
    (hlength : filename.length < 2 ^ 64) (hzero : 0 ∉ filename) :
    ofBytes (toBytes ⟨n, filename.length, filename⟩) = some ⟨n, filename.length, filename⟩ := by
  have hmod : ∀ m : ℕ, m < 2 ^ 64 → readLittleEndian (littleEndian 8 m) = m := fun m hm => by
    rw [readLittleEndian_littleEndian, Nat.mod_eq_of_lt (by omega)]
  have h8 : ∀ m t, (littleEndian 8 m ++ t).take 8 = littleEndian 8 m := fun m t => by
    rw [List.take_append_of_le_length (by simp), List.take_of_length_le (by simp)]
  have hd : ∀ m t, (littleEndian 8 m ++ t).drop 8 = t := fun m t => by
    rw [List.drop_append_of_le_length (by simp), List.drop_of_length_le (by simp)]
    rfl
  have h16 : (toBytes ⟨n, filename.length, filename⟩).drop 16 = filename := by
    rw [show 16 = 8 + 8 from rfl, ← List.drop_drop, toBytes, hd, hd]
  have hl : (toBytes ⟨n, filename.length, filename⟩).length = 16 + filename.length := by
    simp only [toBytes, List.length_append, length_littleEndian]
    omega
  have hn' : (toBytes ⟨n, filename.length, filename⟩).take 8 = littleEndian 8 n := h8 _ _
  have hf : ((toBytes ⟨n, filename.length, filename⟩).drop 8).take 8 =
      littleEndian 8 filename.length := by
    rw [toBytes, hd, h8]
  simp only [ofBytes, h16, hl, hn', hf, hmod _ hn, hmod _ hlength, lt_irrefl, ite_false,
    List.take_length, cString_of_zero_not_mem hzero]

/-! ## Sending a file -/

def fileChunkSize : ℕ := 1000

/-- The reads of the loop over the file: full chunks and a rest, until a read is empty. -/
def readFileChunks (content : Bytes) : List Bytes :=
  if content = [] then []
  else content.take fileChunkSize :: readFileChunks (content.drop fileChunkSize)
termination_by content.length
decreasing_by
  have := List.length_pos_iff.mpr (by assumption)
  rw [List.length_drop, fileChunkSize]
  omega

/-- The chunks together are the file. -/
theorem flatten_readFileChunks (content : Bytes) : (readFileChunks content).flatten = content := by
  fun_induction readFileChunks content with
  | case1 => rfl
  | case2 content h ih => rw [List.flatten_cons, ih, List.take_append_drop]

theorem length_chunk_le {content chunk : Bytes} (h : chunk ∈ readFileChunks content) :
    chunk.length ≤ fileChunkSize := by
  fun_induction readFileChunks content with
  | case1 => cases h
  | case2 content hne ih =>
      rcases List.mem_cons.mp h with rfl | h
      · exact List.length_take_le ..
      · exact ih h

/-- The number of chunks of a file of a given size. -/
def chunkCount (fileSize : ℕ) : ℕ :=
  fileSize / fileChunkSize + if fileSize % fileChunkSize = 0 then 0 else 1

theorem length_readFileChunks (content : Bytes) :
    (readFileChunks content).length = chunkCount content.length := by
  fun_induction readFileChunks content with
  | case1 => rfl
  | case2 content h ih =>
      have hpos := List.length_pos_iff.mpr h
      rw [List.length_cons, ih, List.length_drop]
      unfold chunkCount fileChunkSize
      generalize content.length = n at hpos
      split <;> split <;> omega

/-- `total_packet_amount`, an `int`. -/
def totalPacketAmount (fileSize : ℕ) : ℤ := toInt (chunkCount fileSize)

/-- The same number in the `uint64_t` of the announcement. -/
def numPackets (fileSize : ℕ) : ℕ := (totalPacketAmount fileSize % 2 ^ 64).toNat

theorem numPackets_eq {fileSize : ℕ} (h : chunkCount fileSize < 2 ^ 31) :
    numPackets fileSize = chunkCount fileSize := by
  simp only [numPackets, totalPacketAmount, toInt, Int.bmod_def]
  omega

theorem numPackets_lt (fileSize : ℕ) : numPackets fileSize < 2 ^ 64 := by
  simp only [numPackets]
  omega

/-- The packet that announces a file. -/
def announcementPacket (filename : Bytes) (numPackets : ℕ) : Packet :=
  createTextPacket .send (FileAnnouncement.toBytes ⟨numPackets, filename.length, filename⟩)

theorem payload_announcementPacket {filename : Bytes} (n : ℕ)
    (hlength : filename.length + 16 < 2 ^ 16) : (announcementPacket filename n).payload =
      FileAnnouncement.toBytes ⟨n, filename.length, filename⟩ := by
  refine payload_createTextPacket ?_
  simp only [FileAnnouncement.toBytes, List.length_append, length_littleEndian]
  omega

theorem announcementPacket_ne_nil {filename : Bytes} (n : ℕ)
    (hlength : filename.length + 16 < 2 ^ 16) : (announcementPacket filename n).payload ≠ [] := by
  rw [payload_announcementPacket n hlength]
  simp [FileAnnouncement.toBytes, ← List.length_pos_iff]

theorem ofBytes_announcementPacket {filename : Bytes} {n : ℕ} (hn : n < 2 ^ 64)
    (hlength : filename.length + 16 < 2 ^ 16) (hzero : 0 ∉ filename) :
    FileAnnouncement.ofBytes (announcementPacket filename n).payload =
      some ⟨n, filename.length, filename⟩ := by
  rw [payload_announcementPacket n hlength,
    FileAnnouncement.ofBytes_toBytes hn (by omega) hzero]

theorem announcement_announcementPacket {filename : Bytes} {n : ℕ} (hn : n < 2 ^ 64)
    (hlength : filename.length + 16 < 2 ^ 16) (hzero : 0 ∉ filename) (heap : Bytes) :
    (announcementPacket filename n).announcement heap = some ⟨n, filename.length, filename⟩ :=
  Packet.announcement_of_payload (ofBytes_announcementPacket hn hlength hzero) heap

def fileAnnouncementPacket (filename : Bytes) (fileSize : ℕ) : Packet :=
  announcementPacket filename (numPackets fileSize)

/-- `send_file` after the file was opened: the announcement of the size that was found, and a
data packet for each read of the loop. -/
def sendOpenedFile (filename : Bytes) (fileSize : ℕ) (chunks : List Bytes) : List Packet :=
  fileAnnouncementPacket filename fileSize :: chunks.map (createTextPacket .data)

/-- `send_file` of a file that does not change. -/
def sendFile (filename content : Bytes) : List Packet :=
  sendOpenedFile filename content.length (readFileChunks content)

/-- The data packets of a file carry its bytes. -/
theorem flatten_data (content : Bytes) :
    ((readFileChunks content).map fun chunk => (createTextPacket .data chunk).payload).flatten =
      content := by
  have h : ∀ chunk ∈ readFileChunks content,
      (createTextPacket .data chunk).payload = chunk := fun chunk hchunk =>
    payload_createTextPacket (by have := length_chunk_le hchunk; rw [fileChunkSize] at this; omega)
  rw [List.map_congr_left h, List.map_id', flatten_readFileChunks]

/-! ## Paths -/

/-- `PATH_MAX`. -/
def pathMax : ℕ := 4096

/-- `create_filepath`, a null pointer where the path is too long. -/
def createFilepath (basePath filename : Bytes) : Option Bytes :=
  if basePath.length + 1 + filename.length + 1 > pathMax then none
  else some (basePath ++ 47 :: filename)

theorem length_filename_of_createFilepath {path filename filepath : Bytes}
    (h : createFilepath path filename = some filepath) : filename.length + 2 ≤ pathMax := by
  unfold createFilepath at h
  split at h
  · cases h
  · omega

end SyncServer
