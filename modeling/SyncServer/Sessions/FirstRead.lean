import SyncServer.Sessions.Context
import SyncServer.Wire.Stream

/-! # The name of a client and the packets behind it

The client writes its name without a length and waits for the answer; then it writes packets on
the same connection. The server takes the name from one read. What the read leaves of the name
stands before the first packet.
-/

namespace SyncServer

open CText Ending

/-- The next bytes that the other end writes. -/
def ByteStream.deliver (s : ByteStream) (sent : Bytes) : ByteStream :=
  { s with bytes := s.bytes ++ sent }

/-- `read_username` on the interface socket. -/
def ByteStream.readUsername (s : ByteStream) : Ending Fault (Username × ByteStream) := do
  let (request, s) ← s.read maxUsernameLength
  match request with
  | none => faults .exit
  | some request => done (SyncServer.readUsername request, s)

/-- The size of the read, for a name that waits to be read. -/
def firstReadSize (sizes : ℕ → ℕ) : ℕ := min (max 1 (sizes 0)) maxUsernameLength

/-- The read takes a part from the front of the name and leaves the rest. -/
theorem readUsername_eq {name : Bytes} (hne : name ≠ []) (hzero : 0 ∉ name) (sizes : ℕ → ℕ) :
    ∃ username, ByteStream.readUsername ⟨name, .stalled, sizes⟩ =
        done (username, ⟨name.drop (firstReadSize sizes), .stalled, fun i => sizes (i + 1)⟩) ∧
      username.name = name.take (firstReadSize sizes) := by
  refine ⟨readUsername (name.take (firstReadSize sizes)), ?_, ?_⟩
  · simp [ByteStream.readUsername, ByteStream.read, hne, firstReadSize]
  · have hzero' : 0 ∉ name.take (firstReadSize sizes) := fun h => hzero (List.mem_of_mem_take h)
    have hsize : firstReadSize sizes ≤ maxUsernameLength := Nat.min_le_right ..
    change cString ((name.take (firstReadSize sizes)).take maxUsernameLength) = _
    rw [List.take_take, Nat.min_eq_right hsize, cString_of_zero_not_mem hzero']

/-- The server has the name of the client, and its interface thread starts at the first packet,
exactly when the one read took the whole name; so the name must fit into the buffer. -/
theorem readUsername_boundary_iff {name : Bytes} (hne : name ≠ []) (hzero : 0 ∉ name)
    (sizes : ℕ → ℕ) :
    ∃ username s, ByteStream.readUsername ⟨name, .stalled, sizes⟩ = done (username, s) ∧
      ((username.name = name ∧ ∀ (packet : Packet) (rest : Bytes),
          (s.deliver (packet.image ++ rest)).bytes = packet.image ++ rest) ↔
        name.length ≤ max 1 (sizes 0) ∧ name.length ≤ maxUsernameLength) := by
  obtain ⟨username, hread, hname⟩ := readUsername_eq hne hzero sizes
  refine ⟨username, _, hread, ?_⟩
  rw [← Nat.le_min, ← firstReadSize]
  constructor
  · rintro ⟨hsame, -⟩
    have hlength := congrArg List.length (hname.symm.trans hsame)
    rw [List.length_take] at hlength
    omega
  · intro hle
    refine ⟨hname.trans (List.take_of_length_le hle), fun packet rest => ?_⟩
    rw [ByteStream.deliver, List.drop_of_length_le hle, List.nil_append]

/-- The first packet after the answer is then the first that `read_packet` returns. -/
theorem readPacket_after_username {name : Bytes} (hne : name ≠ []) (hzero : 0 ∉ name)
    (sizes : ℕ → ℕ) (hread : name.length ≤ max 1 (sizes 0))
    (hlength : name.length ≤ maxUsernameLength) (packet : Packet) (rest : Bytes) :
    ∃ username s sizes', ByteStream.readUsername ⟨name, .stalled, sizes⟩ = done (username, s) ∧
      (s.deliver (packet.image ++ rest)).readPacket =
        done (some packet, ⟨rest, .stalled, sizes'⟩) := by
  obtain ⟨username, h, -⟩ := readUsername_eq hne hzero sizes
  have hdrop : name.drop (firstReadSize sizes) = [] :=
    List.drop_of_length_le (Nat.le_min.mpr ⟨hread, hlength⟩)
  obtain ⟨sizes', hpacket⟩ := ByteStream.readPacket_append packet rest .stalled
    fun i => sizes (i + 1)
  refine ⟨username, _, sizes', h, ?_⟩
  rw [ByteStream.deliver, hdrop, List.nil_append]
  exact hpacket

theorem readUsername_boundary_iff_short :
    ∃ username s, ByteStream.readUsername ⟨[97, 98], .stalled, fun _ => 32⟩ =
        done (username, s) ∧ username.name = [97, 98] := by
  obtain ⟨username, s, hread, hiff⟩ := @readUsername_boundary_iff [97, 98] (by decide) (by decide)
    fun _ => 32
  exact ⟨username, s, hread, (hiff.mpr (by decide)).1⟩

/-- A name of 33 bytes that arrives in one piece. -/
theorem readUsername_cuts_long_name :
    ∃ username s, ByteStream.readUsername ⟨List.replicate 33 97, .stalled, fun _ => 64⟩ =
        done (username, s) ∧
      username.name ≠ List.replicate 33 97 ∧
      (s.deliver (createTextPacket .list []).image).bytes =
        97 :: (createTextPacket .list []).image := by
  obtain ⟨username, hread, hname⟩ := @readUsername_eq (List.replicate 33 97) (by decide)
    (by decide) fun _ => 64
  refine ⟨username, _, hread, ?_, rfl⟩
  rw [hname]
  decide

end SyncServer
