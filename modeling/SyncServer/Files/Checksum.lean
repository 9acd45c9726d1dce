import SyncServer.Files.UserFiles
import SyncServer.Library.Crc

/-! # What a checksum notices

`crc32` goes over the bytes of a file in blocks, and over the bits of each byte from the lowest one
up. The file is a sequence of bits for a register of 32, so no change within 32 consecutive bits
leaves the checksum as it was.
-/

namespace SyncServer

open CText Crc

/-! ## The loop over the blocks -/

/-- The loops of `crc32` with what each `fread` returned. -/
def crc32Blocks (blocks : List Bytes) : UInt32 :=
  blocks.foldl (fun crc buffer => buffer.foldl crcByte crc) 0xFFFFFFFF ^^^ 0xFFFFFFFF

/-- Where the blocks end makes no difference. -/
theorem crc32Blocks_eq (blocks : List Bytes) :
    crc32Blocks blocks = crc32 (some blocks.flatten) := by
  rw [crc32Blocks, crc32, List.foldl_flatten]

/-! ## The bits of a file -/

/-- The bits of a byte, the least significant one first. -/
def byteBits (byte : UInt8) : List Bool := lowBits byte.toBitVec 8

def bits (content : Bytes) : List Bool := content.flatMap byteBits

@[simp] theorem length_byteBits (byte : UInt8) : (byteBits byte).length = 8 := by
  simp [byteBits, lowBits]

theorem byteBits_injective : Function.Injective byteBits := by
  intro a b h
  apply UInt8.toBitVec_inj.mp
  apply BitVec.eq_of_getLsbD_eq
  intro i hi
  have hbit := congrArg (·[i]?) h
  simpa [byteBits, lowBits, hi] using hbit

@[simp] theorem bits_cons (byte : UInt8) (content : Bytes) :
    bits (byte :: content) = byteBits byte ++ bits content := List.flatMap_cons

theorem bits_append (a b : Bytes) : bits (a ++ b) = bits a ++ bits b := List.flatMap_append

@[simp] theorem length_bits (content : Bytes) : (bits content).length = 8 * content.length := by
  induction content with
  | nil => rfl
  | cons byte content ih => simp [ih, Nat.mul_add, Nat.add_comm]

theorem bits_injective : Function.Injective bits := by
  intro a b h
  induction a generalizing b with
  | nil =>
      cases b with
      | nil => rfl
      | cons y b =>
          have hlen := congrArg List.length h
          simp only [length_bits, List.length_nil, List.length_cons] at hlen
          omega
  | cons x a ih =>
      cases b with
      | nil =>
          have hlen := congrArg List.length h
          simp only [length_bits, List.length_nil, List.length_cons] at hlen
          omega
      | cons y b =>
          rw [bits_cons, bits_cons] at h
          obtain ⟨hbyte, hrest⟩ := List.append_inj h (by simp)
          rw [byteBits_injective hbyte, ih hrest]

/-! ## The register -/

/-- The polynomial of `crc32`, the lowest power in the highest bit. -/
def reversedPolynomial : BitVec 32 := 0xEDB88320#32

/-- `crc & 1` reads the lowest bit. -/
theorem and_one_ne_zero_iff (crc : UInt32) :
    crc &&& 1 ≠ 0 ↔ crc.toBitVec.getLsbD 0 = true := by
  have hand : (crc &&& 1).toBitVec = (BitVec.ofBool (crc.toBitVec.getLsbD 0)).setWidth 32 := by
    rw [UInt32.toBitVec_and]
    exact BitVec.and_one_eq_setWidth_ofBool_getLsbD
  rw [Ne, ← UInt32.toBitVec_inj, hand]
  cases crc.toBitVec.getLsbD 0 with
  | false => decide
  | true => decide

theorem toBitVec_crcBit (crc : UInt32) :
    (crcBit crc).toBitVec = step reversedPolynomial crc.toBitVec := by
  unfold crcBit step
  by_cases h : crc.toBitVec.getLsbD 0 = true
  · rw [if_pos ((and_one_ne_zero_iff crc).mpr h), if_pos h]
    rfl
  · rw [if_neg (fun hne => h ((and_one_ne_zero_iff crc).mp hne)), if_neg h]
    rfl

theorem toBitVec_iterate_crcBit (n : ℕ) (crc : UInt32) :
    (Nat.iterate crcBit n crc).toBitVec = (step reversedPolynomial)^[n] crc.toBitVec := by
  induction n generalizing crc with
  | zero => rfl
  | succ n ih => rw [Function.iterate_succ_apply, Function.iterate_succ_apply, ih, toBitVec_crcBit]

/-- The loop over `j` feeds the bits of a byte. -/
theorem toBitVec_crcByte (crc : UInt32) (byte : UInt8) :
    (crcByte crc byte).toBitVec = register reversedPolynomial crc.toBitVec (byteBits byte) := by
  have hbits : lowBits byte.toUInt32.toBitVec 8 = byteBits byte := by
    apply List.ext_getElem
    · simp [lowBits]
    · intro i hi _
      have hi8 : i < 8 := by simpa [lowBits] using hi
      simp [lowBits, byteBits, hi8.trans (by decide : 8 < 32)]
  have hrest : byte.toUInt32.toBitVec >>> 8 = 0#32 := by
    apply BitVec.eq_of_getLsbD_eq
    intro i _
    simp
  rw [crcByte, toBitVec_iterate_crcBit, UInt32.toBitVec_xor, iterate_step_xor, hbits, hrest,
    BitVec.xor_zero]

theorem toBitVec_foldl_crcByte (content : Bytes) (crc : UInt32) :
    (content.foldl crcByte crc).toBitVec =
      register reversedPolynomial crc.toBitVec (bits content) := by
  induction content generalizing crc with
  | nil => rfl
  | cons byte content ih =>
      rw [List.foldl_cons, ih, toBitVec_crcByte, bits_cons, register_append]

/-- Equal checksums come from equal registers. -/
theorem register_eq_of_crc32_eq {a b : Bytes} (h : crc32 (some a) = crc32 (some b)) :
    register reversedPolynomial (BitVec.allOnes 32) (bits a) =
      register reversedPolynomial (BitVec.allOnes 32) (bits b) := by
  have hfold : a.foldl crcByte 0xFFFFFFFF = b.foldl crcByte 0xFFFFFFFF :=
    (UInt32.xor_left_inj _).mp h
  have hvec := congrArg UInt32.toBitVec hfold
  rwa [toBitVec_foldl_crcByte, toBitVec_foldl_crcByte] at hvec

/-! ## Changes of a file -/

theorem crc32_ne_of_burst {a b : Bytes} (hlen : a.length = b.length) (hne : a ≠ b) {start : ℕ}
    (hburst : ∀ i, (bits a)[i]? ≠ (bits b)[i]? → start ≤ i ∧ i < start + 32) :
    crc32 (some a) ≠ crc32 (some b) := by
  intro h
  have hbits : (bits a).length = (bits b).length := by rw [length_bits, length_bits, hlen]
  exact register_ne_of_burst (by decide) _ hbits (bits_injective.ne hne) hburst
    (register_eq_of_crc32_eq h)

/-- The bits that differ after a change of one byte are among its own. -/
theorem burst_of_byte (before after : Bytes) (x y : UInt8) (i : ℕ)
    (h : (bits (before ++ x :: after))[i]? ≠ (bits (before ++ y :: after))[i]?) :
    8 * before.length ≤ i ∧ i < 8 * before.length + 32 := by
  simp only [bits_append, bits_cons] at h
  constructor
  · by_contra hlt
    have hi : i < (bits before).length := by rw [length_bits]; omega
    rw [List.getElem?_append_left hi, List.getElem?_append_left hi] at h
    exact h rfl
  · by_contra hge
    have hi : (bits before).length ≤ i := by rw [length_bits]; omega
    have hx : (byteBits x).length ≤ i - (bits before).length := by simp; omega
    have hy : (byteBits y).length ≤ i - (bits before).length := by simp; omega
    rw [List.getElem?_append_right hi, List.getElem?_append_right hi,
      List.getElem?_append_right hx, List.getElem?_append_right hy] at h
    simp at h

/-- A change of a listed file within 32 consecutive bits is noticed, a change of one byte in
particular. -/
theorem getFileStatus_of_burst (list : List FileNode) (name old : Bytes)
    (hlisted : listed list name = some (crc32 (some old))) :
    (∀ (new : Bytes) (start : ℕ), new.length = old.length → new ≠ old →
      (∀ i, (bits new)[i]? ≠ (bits old)[i]? → start ≤ i ∧ i < start + 32) →
      getFileStatus list name (some new) = .updated ∧ crc32 (some new) ≠ crc32 (some old)) ∧
    ∀ (before after : Bytes) (x y : UInt8), old = before ++ x :: after → y ≠ x →
      getFileStatus list name (some (before ++ y :: after)) = .updated ∧
        crc32 (some (before ++ y :: after)) ≠ crc32 (some old) := by
  have hstatus : ∀ new : Bytes, crc32 (some new) ≠ crc32 (some old) →
      getFileStatus list name (some new) = .updated ∧ crc32 (some new) ≠ crc32 (some old) := by
    intro new hne
    exact ⟨getFileStatus_eq_updated.mpr ⟨_, hlisted, hne.symm⟩, hne⟩
  refine ⟨fun new start hlen hne hburst => ?_, fun before after x y hold hne => ?_⟩
  · exact hstatus new (crc32_ne_of_burst hlen hne hburst)
  · subst hold
    apply hstatus
    exact crc32_ne_of_burst (by simp) (by simpa using hne) (burst_of_byte before after y x)

/-- A file of one byte, of which two bits are changed. -/
theorem getFileStatus_of_burst_one_byte :
    getFileStatus [⟨[102], crc32 (some [65])⟩] [102] (some [66]) = .updated :=
  ((getFileStatus_of_burst [⟨[102], crc32 (some [65])⟩] [102] [65] rfl).2 [] [] 65 66 rfl
    (by decide)).1

end SyncServer
