import SyncServer.Library.Ending
import SyncServer.Wire.Packet

/-! # Packets on a byte stream

A packet is sent as it lies in memory: four bytes of type, two of length, and the payload from
offset 6 on in an allocation of `sizeof(Packet) + length` bytes. The reader rebuilds the same
memory from reads of any size.
-/

namespace SyncServer

open CText Ending

/-- What stops the server. -/
inductive Fault where
  | nullPointer
  | overread
  | doubleFree
  | exit
  deriving DecidableEq, Repr

/-! ## The memory of a packet -/

def PacketType.toNat : PacketType → ℕ
  | data => 0
  | send => 1
  | list => 2
  | download => 3
  | delete => 4
  | exit => 5
  | replicaMsg => 6
  | connectionClosed => 7
  | error => 8
  | reconnect => 9
  | other value _ => value.toNat

def PacketType.ofUInt32 (value : UInt32) : PacketType :=
  if value = 0 then data
  else if value = 1 then send
  else if value = 2 then list
  else if value = 3 then download
  else if value = 4 then delete
  else if value = 5 then exit
  else if value = 6 then replicaMsg
  else if value = 7 then connectionClosed
  else if value = 8 then error
  else if value = 9 then reconnect
  else if h : 10 ≤ value.toNat then other value h
  else data

theorem PacketType.toNat_lt (type : PacketType) : type.toNat < 2 ^ 32 := by
  cases type with
  | other value _ => exact value.toNat_lt
  | _ => decide

theorem PacketType.ofUInt32_other {value : UInt32} (h : 10 ≤ value.toNat) :
    ofUInt32 value = other value h := by
  have hne : ∀ listed : UInt32, listed.toNat < 10 → value ≠ listed := by
    rintro listed hlisted rfl
    omega
  unfold ofUInt32
  rw [if_neg (hne 0 (by decide)), if_neg (hne 1 (by decide)), if_neg (hne 2 (by decide)),
    if_neg (hne 3 (by decide)), if_neg (hne 4 (by decide)), if_neg (hne 5 (by decide)),
    if_neg (hne 6 (by decide)), if_neg (hne 7 (by decide)), if_neg (hne 8 (by decide)),
    if_neg (hne 9 (by decide)), dif_pos h]

theorem PacketType.ofUInt32_toNat (type : PacketType) :
    ofUInt32 (UInt32.ofNat type.toNat) = type := by
  cases type with
  | other value h => rw [toNat, UInt32.ofNat_toNat, ofUInt32_other h]
  | _ => rfl

/-- `sizeof(Packet)`. -/
def sizeofPacket : ℕ := 8

/-- `offsetof(Packet, payload)`: two bytes of the size are payload already. -/
def payloadOffset : ℕ := 6

def memcpy (buffer : Bytes) (offset : ℕ) (src : Bytes) : Bytes :=
  buffer.take offset ++ (src ++ buffer.drop (offset + src.length))

/-- `create_packet` in memory: `calloc`, the two fields, the payload. -/
def createPacketImage (type : PacketType) (length : UInt16) (payload : Bytes) : Bytes :=
  memcpy
    (memcpy
      (memcpy (List.replicate (sizeofPacket + length.toNat) 0) 0 (littleEndian 4 type.toNat))
      4 (littleEndian 2 length.toNat))
    payloadOffset (payload.take length.toNat)

/-- The allocation of a packet, as `create_packet` makes it but for the two bytes at its end. -/
def Packet.image (packet : Packet) : Bytes :=
  memcpy (createPacketImage packet.type (UInt16.ofNat packet.payload.length) packet.payload)
    (payloadOffset + packet.payload.length) [packet.behind.1, packet.behind.2]

/-- The packet is one that `create_packet` returned. -/
def Packet.IsCreated (packet : Packet) : Prop :=
  ∃ type length payload, packet = createPacket type length payload

theorem Packet.isCreated_createTextPacket (type : PacketType) (text : Bytes) :
    (createTextPacket type text).IsCreated :=
  ⟨type, UInt16.ofNat text.length, text, rfl⟩

/-! The fields, read from the memory. -/

def packetType (image : Bytes) : PacketType :=
  .ofUInt32 (UInt32.ofNat (readLittleEndian (image.take 4)))

def packetLength (image : Bytes) : UInt16 :=
  UInt16.ofNat (readLittleEndian ((image.drop 4).take 2))

def packetPayload (image : Bytes) : Bytes :=
  (image.drop payloadOffset).take (packetLength image).toNat

/-- The two bytes behind the payload. -/
def packetBehind (image : Bytes) : UInt8 × UInt8 :=
  let back := image.drop (payloadOffset + (packetLength image).toNat)
  (back.getD 0 0, back.getD 1 0)

theorem memcpy_append {front old back src : Bytes} {offset : ℕ} (hoffset : front.length = offset)
    (hsrc : old.length = src.length) :
    memcpy (front ++ (old ++ back)) offset src = front ++ (src ++ back) := by
  have hlength : (front ++ old).length = offset + src.length := by
    rw [List.length_append, hoffset, hsrc]
  rw [memcpy, List.take_left' hoffset, ← List.append_assoc front old, List.drop_left' hlength]

/-- The memory in one piece: the payload is followed by the two bytes that the size counts
twice, and `calloc` has cleared them. -/
theorem createPacketImage_eq (type : PacketType) {length : UInt16} {payload : Bytes}
    (h : length.toNat ≤ payload.length) :
    createPacketImage type length payload =
      littleEndian 4 type.toNat ++ (littleEndian 2 length.toNat ++
        (payload.take length.toNat ++ [0, 0])) := by
  have htake : (payload.take length.toNat).length = length.toNat := List.length_take_of_le h
  have hzeros : List.replicate (sizeofPacket + length.toNat) (0 : UInt8) =
      [] ++ (List.replicate 4 0 ++ (List.replicate 2 0 ++
        (List.replicate length.toNat 0 ++ [0, 0]))) := by
    have htail : ([0, 0] : Bytes) = List.replicate 2 0 := rfl
    rw [htail, List.replicate_append_replicate, List.replicate_append_replicate,
      List.replicate_append_replicate, List.nil_append, sizeofPacket]
    congr 1
    omega
  have hheader : (littleEndian 4 type.toNat ++ littleEndian 2 length.toNat).length =
      payloadOffset := by simp [payloadOffset]
  rw [createPacketImage, hzeros, memcpy_append (by simp) (by simp), List.nil_append,
    memcpy_append (by simp) (by simp), ← List.append_assoc (littleEndian 4 _),
    memcpy_append hheader (by simp [htake]), List.append_assoc]

theorem toNat_length (packet : Packet) :
    (UInt16.ofNat packet.payload.length).toNat = packet.payload.length :=
  UInt16.toNat_ofNat_of_lt' packet.length_payload

namespace Packet

theorem image_eq (packet : Packet) : packet.image =
    littleEndian 4 packet.type.toNat ++ (littleEndian 2 packet.payload.length ++
      (packet.payload ++ [packet.behind.1, packet.behind.2])) := by
  have hfront : (littleEndian 4 packet.type.toNat ++
      (littleEndian 2 packet.payload.length ++ packet.payload)).length =
      payloadOffset + packet.payload.length := by
    simp only [List.length_append, length_littleEndian, payloadOffset]
    omega
  have hmemory : littleEndian 4 packet.type.toNat ++ (littleEndian 2 packet.payload.length ++
      (packet.payload ++ [0, 0])) = (littleEndian 4 packet.type.toNat ++
        (littleEndian 2 packet.payload.length ++ packet.payload)) ++ ([0, 0] ++ []) := by
    simp only [List.append_assoc, List.append_nil]
  have hback : ([0, 0] : Bytes).length = [packet.behind.1, packet.behind.2].length := rfl
  rw [image, createPacketImage_eq _ (toNat_length packet).le, toNat_length, List.take_length,
    hmemory, memcpy_append hfront hback]
  simp only [List.append_assoc, List.append_nil]

/-- The memory of a packet that was created is that of `create_packet`. -/
theorem image_of_isCreated {packet : Packet} (h : packet.IsCreated) : packet.image =
    createPacketImage packet.type (UInt16.ofNat packet.payload.length) packet.payload := by
  obtain ⟨type, length, payload, hpacket⟩ := h
  have hbehind : packet.behind = (0, 0) := by rw [hpacket]; rfl
  rw [image_eq, createPacketImage_eq _ (toNat_length packet).le, toNat_length, List.take_length,
    hbehind]

theorem length_image (packet : Packet) :
    packet.image.length = sizeofPacket + packet.payload.length := by
  simp only [image_eq, List.length_append, length_littleEndian, List.length_cons,
    List.length_nil, sizeofPacket]
  omega

theorem packetType_image (packet : Packet) : packetType packet.image = packet.type := by
  have hmod : packet.type.toNat % 256 ^ 4 = packet.type.toNat :=
    Nat.mod_eq_of_lt packet.type.toNat_lt
  rw [packetType, image_eq, List.take_left' (by simp), readLittleEndian_littleEndian, hmod,
    PacketType.ofUInt32_toNat]

theorem packetLength_image (packet : Packet) :
    packetLength packet.image = UInt16.ofNat packet.payload.length := by
  have hmod : packet.payload.length % 256 ^ 2 = packet.payload.length :=
    Nat.mod_eq_of_lt packet.length_payload
  rw [packetLength, image_eq, List.drop_left' (by simp), List.take_left' (by simp),
    readLittleEndian_littleEndian, hmod]

theorem packetPayload_image (packet : Packet) : packetPayload packet.image = packet.payload := by
  have hheader : (littleEndian 4 packet.type.toNat ++
      littleEndian 2 packet.payload.length).length = payloadOffset := by simp [payloadOffset]
  rw [packetPayload, packetLength_image, toNat_length, image_eq, ← List.append_assoc,
    List.drop_left' hheader, List.take_left' rfl]

theorem drop_image (packet : Packet) :
    packet.image.drop (payloadOffset + packet.payload.length) =
      [packet.behind.1, packet.behind.2] := by
  have hlength : (littleEndian 4 packet.type.toNat ++
      (littleEndian 2 packet.payload.length ++ packet.payload)).length =
      payloadOffset + packet.payload.length := by
    simp only [List.length_append, length_littleEndian, payloadOffset]
    omega
  rw [image_eq, ← List.append_assoc (littleEndian 2 _), ← List.append_assoc (littleEndian 4 _),
    List.drop_left' hlength]

theorem packetBehind_image (packet : Packet) : packetBehind packet.image = packet.behind := by
  rw [packetBehind, packetLength_image, toNat_length, drop_image]
  rfl

/-- The payload of a created packet is followed by a zero byte of the allocation. -/
theorem image_terminated {packet : Packet} (h : packet.IsCreated) :
    packet.image[payloadOffset + packet.payload.length]? = some 0 := by
  have hzero : (packet.image.drop (payloadOffset + packet.payload.length))[0]? = some 0 := by
    obtain ⟨type, length, payload, rfl⟩ := h
    rw [drop_image]
    rfl
  rwa [List.getElem?_drop, Nat.add_zero] at hzero

end Packet

/-! ## Reading -/

/-- What a read finds when all bytes were read: nothing yet, the end, or an error. -/
inductive StreamEnd where
  | stalled
  | closed
  | failed
  deriving DecidableEq, Repr

/-- A socket: the bytes still to read, how it ends, and how many bytes the next calls of `read`
give at most. -/
structure ByteStream where
  bytes : Bytes
  ending : StreamEnd
  sizes : ℕ → ℕ

namespace ByteStream

/-- `read`: at least one byte and at most `n`, no bytes at the end, `none` for -1. -/
def read (s : ByteStream) (n : ℕ) : Ending Fault (Option Bytes × ByteStream) :=
  if s.bytes = [] then
    match s.ending with
    | .stalled => waits
    | .closed => done (some [], s)
    | .failed => done (none, s)
  else
    let size := min (max 1 (s.sizes 0)) n
    done (some (s.bytes.take size),
      { s with bytes := s.bytes.drop size, sizes := fun i => s.sizes (i + 1) })

/-- How a read loop ends. -/
inductive Fill where
  | filled (buffer : Bytes)
  | closed
  | failed
  deriving DecidableEq, Repr

/-- The loop that fills a buffer up to its end. -/
def readFully (missing : ℕ) (buffer : Bytes) (s : ByteStream) :
    Ending Fault (Fill × ByteStream) :=
  if missing = 0 then done (.filled buffer, s)
  else
    match s.read missing with
    | .waits => waits
    | .faults e => faults e
    | .done (none, s) => done (.failed, s)
    | .done (some [], s) => done (.closed, s)
    | .done (some (byte :: data), s) =>
        readFully (missing - (data.length + 1)) (buffer ++ byte :: data) s
termination_by missing

/-- `read_packet`: the header of `sizeof(Packet)` bytes, then as many bytes as the length says.
A null pointer is `none`. -/
def readPacketImage (s : ByteStream) : Ending Fault (Option Bytes × ByteStream) := do
  let (header, s) ← readFully sizeofPacket [] s
  match header with
  | .closed => done (some (createPacketImage .connectionClosed 0 []), s)
  | .failed => done (none, s)
  | .filled header =>
      let (packet, s) ← readFully (packetLength header).toNat header s
      match packet with
      | .closed => done (some (createPacketImage .connectionClosed 0 []), s)
      | .failed => done (none, s)
      | .filled packet => done (some packet, s)

/-- Successive calls of `read_packet`. -/
def readPacketImages : ℕ → ByteStream → Ending Fault (List (Option Bytes) × ByteStream)
  | 0, s => done ([], s)
  | n + 1, s => do
      let (image, s) ← readPacketImage s
      let (images, s) ← readPacketImages n s
      done (image :: images, s)

/-! ## What the loops read -/

/-- The bytes that are there fill the buffer in whatever pieces they come. -/
theorem readFully_append (data buffer rest : Bytes) (ending : StreamEnd) (sizes : ℕ → ℕ) :
    ∃ sizes', readFully data.length buffer ⟨data ++ rest, ending, sizes⟩ =
      done (.filled (buffer ++ data), ⟨rest, ending, sizes'⟩) := by
  induction hn : data.length using Nat.strong_induction_on generalizing data buffer sizes with
  | _ n ih =>
      rw [readFully]
      cases data with
      | nil =>
          obtain rfl : 0 = n := hn
          exact ⟨sizes, by simp⟩
      | cons byte data =>
          have hpos : n ≠ 0 := by
            rw [← hn]
            simp
          rw [if_neg hpos]
          obtain ⟨size, hsize⟩ : ∃ size, min (max 1 (sizes 0)) n = size + 1 :=
            ⟨min (max 1 (sizes 0)) n - 1, by omega⟩
          have hle : size + 1 ≤ n := by omega
          have hread : read ⟨byte :: data ++ rest, ending, sizes⟩ n =
              done (some (byte :: data.take size),
                ⟨data.drop size ++ rest, ending, fun i => sizes (i + 1)⟩) := by
            have hdata : size ≤ data.length := by
              rw [← hn, List.length_cons] at hle
              omega
            simp only [read, List.cons_append, reduceCtorEq, ite_false, hsize,
              List.take_succ_cons, List.drop_succ_cons,
              List.take_append_of_le_length hdata, List.drop_append_of_le_length hdata]
          rw [hread]
          have htake : (data.take size).length = size := by
            apply List.length_take_of_le
            rw [← hn, List.length_cons] at hle
            omega
          have hlength : (data.drop size).length = n - (size + 1) := by
            rw [List.length_drop, ← hn, List.length_cons]
            omega
          obtain ⟨sizes', h⟩ := ih (n - (size + 1)) (by omega) (data.drop size)
            (buffer ++ byte :: data.take size) (fun i => sizes (i + 1)) hlength
          refine ⟨sizes', ?_⟩
          simp only [htake]
          rw [h, List.append_assoc, List.cons_append, List.take_append_drop]

/-- A stream that ends before the buffer is full. -/
theorem readFully_short {missing : ℕ} (data buffer : Bytes) (sizes : ℕ → ℕ)
    (h : data.length < missing) :
    ∃ s, readFully missing buffer ⟨data, .closed, sizes⟩ = done (.closed, s) := by
  induction hn : data.length using Nat.strong_induction_on
    generalizing missing data buffer sizes with
  | _ n ih =>
      rw [readFully, if_neg (by omega)]
      cases data with
      | nil => exact ⟨_, rfl⟩
      | cons byte data =>
          obtain ⟨size, hsize⟩ : ∃ size, min (max 1 (sizes 0)) missing = size + 1 :=
            ⟨min (max 1 (sizes 0)) missing - 1, by omega⟩
          have hread : read ⟨byte :: data, .closed, sizes⟩ missing =
              done (some (byte :: data.take size),
                ⟨data.drop size, .closed, fun i => sizes (i + 1)⟩) := by
            simp only [read, reduceCtorEq, ite_false, hsize, List.take_succ_cons,
              List.drop_succ_cons]
          rw [hread]
          rw [List.length_cons] at hn h
          have hdrop : (data.drop size).length < missing - ((data.take size).length + 1) := by
            rw [List.length_drop, List.length_take]
            omega
          exact ih (data.drop size).length (by rw [List.length_drop]; omega) _ _ _ hdrop rfl

/-! ## What `read_packet` returns -/

/-- The length lies within the header. -/
theorem packetLength_take_sizeofPacket (image : Bytes) :
    packetLength (image.take sizeofPacket) = packetLength image := by
  rw [packetLength, packetLength, List.drop_take, List.take_take]
  rfl

/-- A packet that lies in the stream is read, and the stream is left behind it. -/
theorem readPacketImage_append (packet : Packet) (rest : Bytes) (ending : StreamEnd)
    (sizes : ℕ → ℕ) :
    ∃ sizes', readPacketImage ⟨packet.image ++ rest, ending, sizes⟩ =
      done (some packet.image, ⟨rest, ending, sizes'⟩) := by
  have hheader : (packet.image.take sizeofPacket).length = sizeofPacket := by
    apply List.length_take_of_le
    rw [packet.length_image]
    omega
  have hpayload : (packet.image.drop sizeofPacket).length = packet.payload.length := by
    rw [List.length_drop, packet.length_image]
    omega
  have hlength : (packetLength (packet.image.take sizeofPacket)).toNat =
      packet.payload.length := by
    rw [packetLength_take_sizeofPacket, packet.packetLength_image, toNat_length]
  obtain ⟨sizes₁, h₁⟩ := readFully_append (packet.image.take sizeofPacket) []
    (packet.image.drop sizeofPacket ++ rest) ending sizes
  obtain ⟨sizes₂, h₂⟩ := readFully_append (packet.image.drop sizeofPacket)
    (packet.image.take sizeofPacket) rest ending sizes₁
  rw [← List.append_assoc, List.take_append_drop, hheader, List.nil_append] at h₁
  rw [hpayload, List.take_append_drop] at h₂
  exact ⟨sizes₂, by simp only [readPacketImage, h₁, bind_done, hlength, h₂]⟩

/-- A stream that is closed inside a packet. -/
theorem readPacketImage_short {packet : Packet} {part : Bytes} (sizes : ℕ → ℕ)
    (hpart : part <+: packet.image) (hne : part ≠ packet.image) :
    ∃ s, readPacketImage ⟨part, .closed, sizes⟩ =
      done (some (createPacketImage .connectionClosed 0 []), s) := by
  have hlt : part.length < sizeofPacket + packet.payload.length := by
    rw [← packet.length_image]
    exact lt_of_le_of_ne hpart.length_le fun h => hne (hpart.eq_of_length h)
  by_cases hheader : part.length < sizeofPacket
  · obtain ⟨s, hs⟩ := readFully_short part [] sizes hheader
    exact ⟨s, by simp only [readPacketImage, hs, bind_done]⟩
  · have htake : part.take sizeofPacket = packet.image.take sizeofPacket := by
      obtain ⟨back, hback⟩ := hpart
      rw [← hback, List.take_append_of_le_length (not_lt.mp hheader)]
    have hfull : (part.take sizeofPacket).length = sizeofPacket :=
      List.length_take_of_le (not_lt.mp hheader)
    have hlength : (packetLength (part.take sizeofPacket)).toNat = packet.payload.length := by
      rw [htake, packetLength_take_sizeofPacket, packet.packetLength_image, toNat_length]
    have hdrop : (part.drop sizeofPacket).length < packet.payload.length := by
      rw [List.length_drop]
      omega
    obtain ⟨sizes₁, h₁⟩ := readFully_append (part.take sizeofPacket) []
      (part.drop sizeofPacket) .closed sizes
    obtain ⟨s, h₂⟩ := readFully_short (part.drop sizeofPacket) (part.take sizeofPacket) sizes₁ hdrop
    rw [List.take_append_drop, hfull, List.nil_append] at h₁
    exact ⟨s, by simp only [readPacketImage, h₁, bind_done, hlength, h₂]⟩

theorem readPacketImages_append (packets : List Packet) (n : ℕ) (rest : Bytes)
    (ending : StreamEnd) (sizes : ℕ → ℕ) :
    ∃ sizes', readPacketImages (packets.length + n)
        ⟨packets.flatMap Packet.image ++ rest, ending, sizes⟩ =
      (readPacketImages n ⟨rest, ending, sizes'⟩ >>= fun (images, s) =>
        done (packets.map (fun packet => some packet.image) ++ images, s)) := by
  induction packets generalizing sizes with
  | nil =>
      refine ⟨sizes, ?_⟩
      simp only [List.length_nil, Nat.zero_add, List.flatMap_nil, List.nil_append, List.map_nil]
      cases readPacketImages n ⟨rest, ending, sizes⟩ with
      | done found => rfl
      | waits => rfl
      | faults e => rfl
  | cons packet packets ih =>
      obtain ⟨sizes₁, h₁⟩ := readPacketImage_append packet
        (packets.flatMap Packet.image ++ rest) ending sizes
      obtain ⟨sizes₂, h₂⟩ := ih sizes₁
      refine ⟨sizes₂, ?_⟩
      rw [← List.append_assoc] at h₁
      simp only [List.length_cons, Nat.add_right_comm _ 1, readPacketImages, List.flatMap_cons, h₁,
        bind_done, h₂, List.map_cons]
      cases readPacketImages n ⟨rest, ending, sizes₂⟩ with
      | done found => rfl
      | waits => rfl
      | faults e => rfl

/-- Packets come out of the stream as they were put in, those of `create_packet` with a zero byte
behind the payload in their memory, however the reads split it. A stream that is closed inside a
packet ends in a packet that says so. -/
theorem packets_framed (packets : List Packet) :
    (∀ rest ending sizes, ∃ sizes', readPacketImages packets.length
        ⟨packets.flatMap Packet.image ++ rest, ending, sizes⟩ =
      done (packets.map (fun packet => some packet.image), ⟨rest, ending, sizes'⟩)) ∧
    (∀ packet ∈ packets, packetType packet.image = packet.type ∧
      packetLength packet.image = UInt16.ofNat packet.payload.length ∧
      packetPayload packet.image = packet.payload ∧
      packet.image.length = sizeofPacket + packet.payload.length ∧
      (packet.IsCreated → packet.image = createPacketImage packet.type
          (UInt16.ofNat packet.payload.length) packet.payload ∧
        packet.image[payloadOffset + packet.payload.length]? = some 0)) ∧
    ∀ (packet : Packet) (part : Bytes) (sizes : ℕ → ℕ), part <+: packet.image → part ≠ [] →
      part ≠ packet.image → ∃ s, readPacketImages (packets.length + 1)
        ⟨packets.flatMap Packet.image ++ part, .closed, sizes⟩ =
      done (packets.map (fun packet => some packet.image) ++
        [some (createPacketImage .connectionClosed 0 [])], s) := by
  refine ⟨fun rest ending sizes => ?_, fun packet _ => ?_, fun packet part sizes hpart _ hne => ?_⟩
  · obtain ⟨sizes', h⟩ := readPacketImages_append packets 0 rest ending sizes
    exact ⟨sizes', by simpa [readPacketImages] using h⟩
  · exact ⟨packet.packetType_image, packet.packetLength_image, packet.packetPayload_image,
      packet.length_image,
      fun hcreated => ⟨Packet.image_of_isCreated hcreated, Packet.image_terminated hcreated⟩⟩
  · obtain ⟨sizes', h⟩ := readPacketImages_append packets 1 part .closed sizes
    obtain ⟨s, hs⟩ := readPacketImage_short sizes' hpart hne
    refine ⟨s, ?_⟩
    rw [h]
    simp only [readPacketImages, hs, bind_done]

/-- A stream of single bytes that is closed after the first byte of a second packet. -/
theorem closed_inside_second_packet :
    ∃ s, readPacketImages 2
        ⟨(createTextPacket .data [104, 105]).image ++ [0], .closed, fun _ => 1⟩ =
      done ([some (createTextPacket .data [104, 105]).image,
        some (createPacketImage .connectionClosed 0 [])], s) :=
  (packets_framed [createTextPacket .data [104, 105]]).2.2 (createTextPacket .data [104, 105]) [0]
    (fun _ => 1) (by decide +kernel) (by decide) (by decide +kernel)

/-! ## Packets as values -/

end ByteStream

/-- What the fields of the memory say. -/
def Packet.ofImage (image : Bytes) : Packet where
  type := packetType image
  payload := packetPayload image
  behind := packetBehind image
  length_payload := (List.length_take_le ..).trans_lt (packetLength image).toNat_lt

@[simp] theorem Packet.ofImage_image (packet : Packet) : ofImage packet.image = packet := by
  simp only [ofImage, packet.packetType_image, packet.packetPayload_image,
    packet.packetBehind_image]

/-- `read_packet`. -/
def ByteStream.readPacket (s : ByteStream) : Ending Fault (Option Packet × ByteStream) := do
  let (image, s) ← s.readPacketImage
  done (image.map Packet.ofImage, s)

theorem ByteStream.readPacket_append (packet : Packet) (rest : Bytes) (ending : StreamEnd)
    (sizes : ℕ → ℕ) :
    ∃ sizes', readPacket ⟨packet.image ++ rest, ending, sizes⟩ =
      done (some packet, ⟨rest, ending, sizes'⟩) := by
  obtain ⟨sizes', h⟩ := readPacketImage_append packet rest ending sizes
  exact ⟨sizes', by simp only [readPacket, h, bind_done, Option.map_some, Packet.ofImage_image]⟩

end SyncServer
