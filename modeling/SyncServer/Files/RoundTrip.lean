import SyncServer.Files.Transfer

/-! # What a transfer leaves behind

The sender announces a number of data packets and then sends what it reads of the file; the
receiver trusts the number, and consumes nothing when it cannot open the destination.
-/

namespace SyncServer

open CText Ending

section

variable {σ Path : Type} [DecidableEq Path] {readPacket : σ → Ending Fault (Option Packet × σ)}
  {resolve : Bytes → Path} {access : FileAccess Path}

/-- A receiver writes what the announced packets carry. -/
theorem receiveTransfer_announced {path filename : Bytes} {n : ℕ} {s t : σ} (hn : n < 2 ^ 64)
    (hlength : filename.length + 16 < 2 ^ 16) (hzero : 0 ∉ filename)
    (hread : readPacket s = done (some (announcementPacket filename n), t)) (disk : Disk Path) :
    receiveTransfer readPacket resolve access path disk s =
      (writePacketsToFile readPacket resolve access (createFilepath path filename) n disk t >>=
        fun (disk, u) => done (some filename, disk, u)) := by
  have hannounced := announcement_announcementPacket hn hlength hzero access.heap
  have hne := announcementPacket_ne_nil n hlength
  have htype : (announcementPacket filename n).type = .send := rfl
  simp only [receiveTransfer, hread, bind_done, deref_some, handleSendDelete, htype, hne, ite_false,
    receiveFile, hannounced]
  cases writePacketsToFile readPacket resolve access (createFilepath path filename) n disk t with
  | done r => rfl
  | waits => rfl
  | faults e => rfl

theorem receiveTransfer_opened {path filename : Bytes} {n : ℕ} {filepath : Path}
    {disk : Disk Path} {s t u : σ} {content : Bytes} (hn : n < 2 ^ 64)
    (hlength : filename.length + 16 < 2 ^ 16) (hzero : 0 ∉ filename)
    (hopened : opened resolve access (createFilepath path filename) = some filepath)
    (hread : readPacket s = done (some (announcementPacket filename n), t))
    (hwrite : writePackets readPacket n [] t = done (content, u)) :
    receiveTransfer readPacket resolve access path disk s =
      done (some filename, Function.update disk filepath (some content), u) := by
  rw [receiveTransfer_announced hn hlength hzero hread]
  simp only [writePacketsToFile, hopened, hwrite, bind_done]

theorem receiveTransfer_waits {path filename : Bytes} {n : ℕ} {filepath : Path}
    {disk : Disk Path} {s t : σ} (hn : n < 2 ^ 64)
    (hlength : filename.length + 16 < 2 ^ 16) (hzero : 0 ∉ filename)
    (hopened : opened resolve access (createFilepath path filename) = some filepath)
    (hread : readPacket s = done (some (announcementPacket filename n), t))
    (hwrite : writePackets readPacket n [] t = waits) :
    receiveTransfer readPacket resolve access path disk s = waits := by
  rw [receiveTransfer_announced hn hlength hzero hread]
  simp only [writePacketsToFile, hopened, hwrite, bind_waits]

/-- A receiver that cannot open the destination leaves the data packets where they are. -/
theorem receiveTransfer_not_opened {path filename : Bytes} {n : ℕ} {disk : Disk Path} {s t : σ}
    (hn : n < 2 ^ 64) (hlength : filename.length + 16 < 2 ^ 16) (hzero : 0 ∉ filename)
    (hopened : opened resolve access (createFilepath path filename) = none)
    (hread : readPacket s = done (some (announcementPacket filename n), t)) :
    receiveTransfer readPacket resolve access path disk s = done (some filename, disk, t) := by
  rw [receiveTransfer_announced hn hlength hzero hread]
  simp only [writePacketsToFile, hopened, bind_done]

end

/-! ## Round trips -/

section

variable {Path : Type} [DecidableEq Path] (resolve : Bytes → Path) (access : FileAccess Path)

/-- The file arrives under its name with its content, and the stream is left behind it. -/
def RoundTrips (path filename content : Bytes) : Prop :=
  ∀ (disk : Disk Path) (rest : Bytes) (ending : StreamEnd) (sizes : ℕ → ℕ), ∃ filepath sizes',
    createFilepath path filename = some filepath ∧
    receiveTransfer ByteStream.readPacket resolve access path disk
        ⟨(sendFile filename content).flatMap Packet.image ++ rest, ending, sizes⟩ =
      done (some filename, Function.update disk (resolve filepath) (some content),
        ⟨rest, ending, sizes'⟩)

end

/-- The largest file whose number of packets is an `int`. -/
def maxFileSize : ℕ := (2 ^ 31 - 1) * fileChunkSize

theorem chunkCount_lt_iff (fileSize : ℕ) :
    chunkCount fileSize < 2 ^ 31 ↔ fileSize ≤ maxFileSize := by
  unfold chunkCount maxFileSize fileChunkSize
  split <;> omega

theorem length_map_readFileChunks (content : Bytes) :
    ((readFileChunks content).map (createTextPacket .data)).length =
      chunkCount content.length := by
  rw [List.length_map, length_readFileChunks]

/-- More packets are announced than the file has. -/
theorem chunkCount_lt_numPackets {fileSize : ℕ} (h : maxFileSize < fileSize)
    (hsize : fileSize < 2 ^ 31 * fileChunkSize) : chunkCount fileSize < numPackets fileSize := by
  have hcount : chunkCount fileSize = 2 ^ 31 := by
    unfold chunkCount
    unfold maxFileSize fileChunkSize at h
    unfold fileChunkSize at hsize ⊢
    split <;> omega
  rw [numPackets, totalPacketAmount, hcount]
  decide

section

variable {Path : Type} [DecidableEq Path] {resolve : Bytes → Path} {access : FileAccess Path}
  {path filename content filepath : Bytes}

theorem roundTrips_of_le (hlength : filename.length + 16 < 2 ^ 16) (hzero : 0 ∉ filename)
    (hpath : createFilepath path filename = some filepath)
    (hopens : access.opens (resolve filepath) = true) (hsize : content.length ≤ maxFileSize) :
    RoundTrips resolve access path filename content := by
  intro disk rest ending sizes
  have hopened : opened resolve access (createFilepath path filename) =
      some (resolve filepath) := by
    simp [opened, hpath, hopens]
  obtain ⟨sizes₁, hread⟩ := ByteStream.readPacket_append
    (fileAnnouncementPacket filename content.length)
    (((readFileChunks content).map (createTextPacket .data)).flatMap Packet.image ++ rest)
    ending sizes
  obtain ⟨sizes₂, hreads⟩ := ByteStream.reads
    ((readFileChunks content).map (createTextPacket .data)) rest ending sizes₁
  have hwrite := hreads.writePackets_done
  rw [length_map_readFileChunks, List.map_map,
    ← numPackets_eq ((chunkCount_lt_iff _).mpr hsize)] at hwrite
  have hflat := flatten_data content
  refine ⟨filepath, sizes₂, hpath, ?_⟩
  rw [sendFile, sendOpenedFile, List.flatMap_cons, List.append_assoc]
  refine receiveTransfer_opened (numPackets_lt _) hlength hzero hopened hread ?_
  rw [hwrite]
  congr 2

theorem not_roundTrips_of_lt (hlength : filename.length + 16 < 2 ^ 16) (hzero : 0 ∉ filename)
    (hpath : createFilepath path filename = some filepath)
    (hopens : access.opens (resolve filepath) = true)
    (hsize : maxFileSize < content.length) (hlt : content.length < 2 ^ 31 * fileChunkSize) :
    ¬RoundTrips resolve access path filename content := by
  intro h
  obtain ⟨_, _, -, h⟩ := h (fun _ => none) [] .stalled fun _ => 1
  have hopened : opened resolve access (createFilepath path filename) =
      some (resolve filepath) := by
    simp [opened, hpath, hopens]
  obtain ⟨sizes₁, hread⟩ := ByteStream.readPacket_append
    (fileAnnouncementPacket filename content.length)
    (((readFileChunks content).map (createTextPacket .data)).flatMap Packet.image ++ [])
    .stalled fun _ => 1
  obtain ⟨sizes₂, hreads⟩ := ByteStream.reads
    ((readFileChunks content).map (createTextPacket .data)) [] .stalled sizes₁
  have hfew : ((readFileChunks content).map (createTextPacket .data)).length <
      numPackets content.length := by
    rw [length_map_readFileChunks]
    exact chunkCount_lt_numPackets hsize hlt
  have hwait := hreads.writePackets_waits (ByteStream.readPacket_stalled sizes₂) hfew []
  rw [sendFile, sendOpenedFile, List.flatMap_cons, List.append_assoc,
    receiveTransfer_waits (numPackets_lt _) hlength hzero hopened hread hwait] at h
  cases h

/-- A file of fewer than `2 ^ 31 * fileChunkSize` bytes arrives as it was sent if and only if the
number of its packets is an `int`. -/
theorem transfer_roundTrips_iff (hlength : filename.length ≤ 255) (hzero : 0 ∉ filename)
    (hpath : createFilepath path filename = some filepath)
    (hopens : access.opens (resolve filepath) = true)
    (hsize : content.length < 2 ^ 31 * fileChunkSize) :
    RoundTrips resolve access path filename content ↔ content.length ≤ maxFileSize := by
  constructor
  · intro h
    by_contra hlong
    exact not_roundTrips_of_lt (by omega) hzero hpath hopens (not_le.mp hlong) hsize h
  · exact roundTrips_of_le (by omega) hzero hpath hopens

end

theorem two_chunks_roundTrip :
    RoundTrips id .granted [46] [97] (List.replicate 2000 0) ↔
      (List.replicate 2000 (0 : UInt8)).length ≤ maxFileSize :=
  transfer_roundTrips_iff (by decide) (by decide)
    (show createFilepath [46] [97] = some [46, 47, 97] by decide) rfl
    (by rw [List.length_replicate]; decide)

/-- The last file below `2 ^ 31 * fileChunkSize` bytes does not arrive. -/
theorem largest_not_roundTrips :
    ¬RoundTrips id .granted [46] [97] (List.replicate (2 ^ 31 * fileChunkSize - 1) 0) := by
  apply not_roundTrips_of_lt (by decide) (by decide)
    (show createFilepath [46] [97] = some [46, 47, 97] by decide) rfl
  · rw [List.length_replicate]
    decide
  · rw [List.length_replicate]
    decide

/-! ## Transfers that fail -/

section

variable {Path : Type} [DecidableEq Path] (resolve : Bytes → Path) (access : FileAccess Path)

/-- When both sides are through with a transfer, the receiver is at the packet that the sender
sends next. The sender found the size and then read the chunks. -/
def StaysInStep (path filename : Bytes) (fileSize : ℕ) (chunks : List Bytes) : Prop :=
  ∀ (disk : Disk Path) (next : List Packet) (ending : StreamEnd) (received : Option Bytes)
    (disk' : Disk Path) (s : Socket),
    receiveTransfer Socket.readPacket resolve access path disk
        ⟨sendOpenedFile filename fileSize chunks ++ next, ending⟩ =
      done (received, disk', s) → s.packets = next

variable {resolve access} {path filename : Bytes} {fileSize : ℕ} {chunks : List Bytes}

theorem Socket.writePackets_done {n : ℕ} {packets : List Packet} (h : n ≤ packets.length)
    (ending : StreamEnd) :
    writePackets readPacket n [] ⟨packets, ending⟩ =
      done (((packets.take n).map Packet.payload).flatten, ⟨packets.drop n, ending⟩) := by
  have hreads := Socket.reads (packets.take n) (packets.drop n) ending
  have hwrite := hreads.writePackets_done
  rwa [List.take_append_drop, List.length_take_of_le h] at hwrite

/-- More packets than the file has are waited for. -/
theorem writePackets_sendFile_waits (content : Bytes)
    (h : chunkCount content.length < numPackets content.length) :
    writePackets Socket.readPacket (numPackets content.length) []
      ⟨(readFileChunks content).map (createTextPacket .data), .stalled⟩ = waits := by
  have hreads := Socket.reads ((readFileChunks content).map (createTextPacket .data)) [] .stalled
  rw [List.append_nil] at hreads
  refine hreads.writePackets_waits rfl ?_ []
  rwa [List.length_map, length_readFileChunks]

/-- What the receiver leaves of the stream when it can open the destination. -/
theorem receiveTransfer_chunks {filepath : Path} (hlength : filename.length + 16 < 2 ^ 16)
    (hzero : 0 ∉ filename)
    (hopened : opened resolve access (createFilepath path filename) = some filepath)
    {next : List Packet} (hn : numPackets fileSize ≤ chunks.length + next.length)
    (disk : Disk Path) (ending : StreamEnd) :
    ∃ disk', receiveTransfer Socket.readPacket resolve access path disk
        ⟨sendOpenedFile filename fileSize chunks ++ next, ending⟩ =
      done (some filename, disk',
        ⟨(chunks.map (createTextPacket .data) ++ next).drop (numPackets fileSize), ending⟩) :=
  ⟨_, receiveTransfer_opened (numPackets_lt fileSize) hlength hzero hopened rfl
    (Socket.writePackets_done (by simpa using hn) ending)⟩

/-- The two sides stay in step if and only if the destination can be opened and as many chunks
are read as were announced, or it cannot be opened and none is read. -/
theorem transfer_staysInStep_iff {basePath sentPath : Bytes}
    (hsent : createFilepath basePath filename = some sentPath) (hzero : 0 ∉ filename) :
    StaysInStep resolve access path filename fileSize chunks ↔
      if (opened resolve access (createFilepath path filename)).isSome then
        numPackets fileSize = chunks.length
      else chunks = [] := by
  have hlength : filename.length + 16 < 2 ^ 16 := by
    have hpath := length_filename_of_createFilepath hsent
    unfold pathMax at hpath
    omega
  cases hopened : opened resolve access (createFilepath path filename) with
  | none =>
      have hrun : ∀ (disk : Disk Path) next ending,
          receiveTransfer Socket.readPacket resolve access path disk
              ⟨sendOpenedFile filename fileSize chunks ++ next, ending⟩ =
            done (some filename, disk, ⟨chunks.map (createTextPacket .data) ++ next, ending⟩) :=
        fun disk next ending =>
          receiveTransfer_not_opened (numPackets_lt fileSize) hlength hzero hopened rfl
      constructor
      · intro h
        simpa using h (fun _ => none) [] .stalled _ _ _ (hrun _ _ _)
      · rintro rfl disk next ending received disk' s hs
        rw [hrun] at hs
        cases hs
        rfl
  | some filepath =>
      have hrun : ∀ next : List Packet, numPackets fileSize ≤ chunks.length + next.length →
          ∀ (disk : Disk Path) ending, ∃ disk', _ := fun next hn disk ending =>
        receiveTransfer_chunks hlength hzero hopened hn disk ending
      constructor
      · intro h
        -- too few packets are made up for by later ones, too many are left over
        let next := List.replicate (numPackets fileSize - chunks.length) closedPacket
        obtain ⟨disk', hdone⟩ := hrun next (by simp only [next, List.length_replicate]; omega)
          (fun _ => none) .stalled
        have hrest := congrArg List.length (h _ _ _ _ _ _ hdone)
        simp only [next, List.length_drop, List.length_append, List.length_map,
          List.length_replicate] at hrest
        simp only [Option.isSome_some, ite_true]
        omega
      · intro hn disk next ending received disk' s hs
        simp only [Option.isSome_some, ite_true] at hn
        obtain ⟨disk'', hdone⟩ := hrun next (by omega) disk ending
        rw [hdone] at hs
        cases hs
        rw [hn]
        exact List.drop_left' (by simp)

end

/-- A small file that the receiver can store. -/
theorem stored_staysInStep :
    StaysInStep id .granted [46] [97] 2 [[104, 105]] ↔
      if (opened id .granted (createFilepath [46] [97])).isSome then
        numPackets 2 = [[(104 : UInt8), 105]].length
      else [[(104 : UInt8), 105]] = [] :=
  transfer_staysInStep_iff (show createFilepath [46] [97] = some [46, 47, 97] by decide)
    (by decide)

/-- If the receiver cannot open the destination, the data of the file is what it reads next. -/
theorem unopened_not_staysInStep :
    ¬StaysInStep (id : Bytes → Bytes) { FileAccess.granted with opens := fun _ => false } [46] [97]
      2 [[104, 105]] := by
  intro h
  have hnext := h (fun _ => none) [] .stalled (some [97]) (fun _ => none)
    ⟨[createTextPacket .data [104, 105]], .stalled⟩
    (receiveTransfer_not_opened (numPackets_lt 2) (by decide) (by decide) rfl rfl)
  cases hnext

end SyncServer
