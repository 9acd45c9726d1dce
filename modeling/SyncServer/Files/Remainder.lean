import SyncServer.Files.Checksum
import SyncServer.Library.CrcPolynomial

/-! # A checksum as a remainder

`crc32` computes the reflected CRC-32 of the file: the content, the lowest bit of every byte first,
is divided by a polynomial of degree 32 over GF(2), and the remainder is read in the order in which
the register holds it.
-/

namespace SyncServer

open CText Crc Polynomial

/-! ## The standard -/

/-- The divisor of CRC-32. -/
noncomputable def crc32Polynomial : (ZMod 2)[X] :=
  X ^ 32 + X ^ 26 + X ^ 23 + X ^ 22 + X ^ 16 + X ^ 12 + X ^ 11 + X ^ 10 + X ^ 8 + X ^ 7 + X ^ 5 +
    X ^ 4 + X ^ 2 + X + 1

/-- The content followed by 32 zeros, with the initial register of ones added to its front. -/
noncomputable def crc32Dividend (content : Bytes) : (ZMod 2)[X] :=
  polynomial (List.replicate 32 true) * X ^ (bits content).length +
    polynomial (bits content) * X ^ 32

/-- The reflected CRC-32 with its final XOR. -/
noncomputable def standardCrc32 (content : Bytes) : UInt32 :=
  ⟨reflected 32 (crc32Dividend content %ₘ crc32Polynomial)⟩ ^^^ 0xFFFFFFFF

/-! ## The loop of the source -/

/-- The loop of `crc32` over what the calls of `fread` return; it ends with the first that returns
nothing. -/
def crc32Reads (reads : List Bytes) : UInt32 :=
  crc32Blocks (reads.takeWhile fun buffer => buffer.length > 0)

theorem crc32Reads_eq {reads : List Bytes} (h : ∀ buffer ∈ reads, 0 < buffer.length) :
    crc32Reads reads = crc32 (some reads.flatten) := by
  have hall : reads.takeWhile (fun buffer => buffer.length > 0) = reads := by
    apply List.takeWhile_eq_self_iff.mpr
    intro buffer hbuffer
    simpa using h buffer hbuffer
  rw [crc32Reads, hall, crc32Blocks_eq]

/-- `0xEDB88320` has the coefficients below `X ^ 32`. -/
theorem generator_reversedPolynomial : generator reversedPolynomial = crc32Polynomial := by
  have hbits : lowBits reversedPolynomial 32 =
      [false, false, false, false, false, true, false, false, true, true, false, false, false,
        false, false, true, false, false, false, true, true, true, false, true, true, false, true,
        true, false, true, true, true] := by
    decide
  rw [generator, registerPolynomial, hbits, crc32Polynomial]
  simp only [polynomial_cons, polynomial_nil, List.length_cons, List.length_nil, if_true,
    Bool.false_eq_true, if_false]
  ring

/-- The register of the loop is what the division leaves. -/
theorem register_bits_eq (content : Bytes) :
    register reversedPolynomial (BitVec.allOnes 32) (bits content) =
      reflected 32 (crc32Dividend content %ₘ crc32Polynomial) := by
  have hinitial : lowBits (BitVec.allOnes 32) 32 = List.replicate 32 true := by decide
  rw [register_eq_reflected (by decide), generator_reversedPolynomial, registerPolynomial,
    hinitial, crc32Dividend]

theorem crc32_eq_standardCrc32 (content : Bytes) :
    crc32 (some content) = standardCrc32 content := by
  have hregister : content.foldl crcByte 0xFFFFFFFF =
      ⟨reflected 32 (crc32Dividend content %ₘ crc32Polynomial)⟩ := by
    apply UInt32.toBitVec_inj.mp
    rw [toBitVec_foldl_crcByte]
    exact register_bits_eq content
  rw [crc32, hregister, standardCrc32]

/-- The check value of CRC-32, of the text 123456789. -/
example : crc32Reads [[49, 50, 51, 52, 53], [54, 55, 56, 57]] = 0xCBF43926 := by decide +kernel

/-- However a file is read, its checksum is the CRC-32 of its content. -/
theorem crc32Reads_eq_standardCrc32 {content : Bytes} {reads : List Bytes}
    (hreads : ∀ buffer ∈ reads, 1 ≤ buffer.length ∧ buffer.length ≤ 1024)
    (hcontent : reads.flatten = content) :
    crc32Reads reads = standardCrc32 content := by
  rw [crc32Reads_eq fun buffer hbuffer => (hreads buffer hbuffer).1, hcontent,
    crc32_eq_standardCrc32]

/-- A file of three bytes that is read in two blocks. -/
theorem crc32Reads_eq_standardCrc32_twoBlocks :
    crc32Reads [[97, 98], [99]] = standardCrc32 [97, 98, 99] :=
  crc32Reads_eq_standardCrc32 (by decide) rfl

end SyncServer
