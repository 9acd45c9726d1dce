import Mathlib.Algebra.CharP.Two
import Mathlib.Algebra.Field.ZMod
import Mathlib.Algebra.Polynomial.Div
import SyncServer.Library.Crc

/-! # Cyclic redundancy checks as remainders

Bits are coefficients over GF(2), the first bit that of the highest power. A shift of the register
multiplies by `X` modulo the generator, so after an input the register is the remainder of the
input and of what the register held before.
-/

namespace Crc

open Polynomial

variable {w : ℕ}

/-! ## Bits as coefficients -/

/-- The polynomial with the given coefficients, the highest one first. -/
noncomputable def polynomial : List Bool → (ZMod 2)[X]
  | [] => 0
  | bit :: bits => (if bit then X ^ bits.length else 0) + polynomial bits

@[simp] theorem polynomial_nil : polynomial [] = 0 := rfl

@[simp] theorem polynomial_cons (bit : Bool) (bits : List Bool) :
    polynomial (bit :: bits) = (if bit then X ^ bits.length else 0) + polynomial bits := rfl

theorem polynomial_append (s t : List Bool) :
    polynomial (s ++ t) = polynomial s * X ^ t.length + polynomial t := by
  induction s with
  | nil => simp
  | cons bit s ih =>
      rw [List.cons_append, polynomial_cons, polynomial_cons, ih, List.length_append, pow_add]
      cases bit with
      | false => simp
      | true => simp only [if_true]; ring

theorem coeff_polynomial (bits : List Bool) (i : ℕ) :
    (polynomial bits).coeff i = if bits.reverse[i]? = some true then 1 else 0 := by
  induction bits with
  | nil => simp
  | cons bit bits ih =>
      rw [polynomial_cons, coeff_add, ih, List.reverse_cons]
      rcases lt_trichotomy i bits.length with hlt | rfl | hgt
      · rw [List.getElem?_append_left (by simpa using hlt)]
        cases bit with
        | false => simp
        | true => simp [coeff_X_pow, hlt.ne]
      · rw [List.getElem?_append_right (by simp)]
        cases bit with
        | false => simp
        | true => simp
      · have hnone : ∀ l : List Bool, l.length ≤ i → l[i]? = none :=
          fun l h => List.getElem?_eq_none h
        rw [hnone bits.reverse (by simpa using hgt.le), hnone _ (by simp; omega)]
        cases bit with
        | false => simp
        | true => simp [coeff_X_pow, hgt.ne']

theorem degree_polynomial_lt (bits : List Bool) : (polynomial bits).degree < bits.length := by
  rw [degree_lt_iff_coeff_zero]
  intro i hi
  have hnone : bits.reverse[i]? = none := List.getElem?_eq_none (by simpa using hi)
  simp [coeff_polynomial, hnone]

theorem polynomial_zipWith_xor {s t : List Bool} (h : s.length = t.length) :
    polynomial (List.zipWith xor s t) = polynomial s + polynomial t := by
  induction s generalizing t with
  | nil =>
      obtain rfl := List.eq_nil_of_length_eq_zero h.symm
      simp
  | cons a s ih =>
      obtain ⟨b, t, rfl⟩ := List.exists_cons_of_length_eq_add_one h.symm
      have hlen : s.length = t.length := Nat.succ.inj h
      have hbits : (if xor a b then (X : (ZMod 2)[X]) ^ t.length else 0) =
          (if a then X ^ t.length else 0) + if b then X ^ t.length else 0 := by
        cases a with
        | false => simp
        | true =>
            cases b with
            | false => simp
            | true => simp [CharTwo.add_self_eq_zero]
      rw [List.zipWith_cons_cons, polynomial_cons, polynomial_cons, polynomial_cons, ih hlen,
        List.length_zipWith, hlen, Nat.min_self, hbits]
      ring

/-! ## Registers -/

/-- The polynomial of a register, whose lowest bit leaves first. -/
noncomputable def registerPolynomial (reg : BitVec w) : (ZMod 2)[X] := polynomial (lowBits reg w)

/-- The divisor, of which the word `poly` has all but the highest power. -/
noncomputable def generator (poly : BitVec w) : (ZMod 2)[X] := X ^ w + registerPolynomial poly

theorem degree_registerPolynomial_lt (reg : BitVec w) : (registerPolynomial reg).degree < w := by
  have h := degree_polynomial_lt (lowBits reg w)
  rwa [length_lowBits] at h

theorem generator_monic (poly : BitVec w) : (generator poly).Monic :=
  monic_X_pow_add (degree_registerPolynomial_lt poly)

theorem degree_generator (poly : BitVec w) : (generator poly).degree = w := by
  have hlt : (registerPolynomial poly).degree < (X ^ w : (ZMod 2)[X]).degree := by
    rw [degree_X_pow]
    exact degree_registerPolynomial_lt poly
  rw [generator, degree_add_eq_left_of_degree_lt hlt, degree_X_pow]

theorem registerPolynomial_xor (a b : BitVec w) :
    registerPolynomial (a ^^^ b) = registerPolynomial a + registerPolynomial b := by
  have hbits : lowBits (a ^^^ b) w = List.zipWith xor (lowBits a w) (lowBits b w) := by
    apply List.ext_getElem
    · simp
    · intro i _ _
      simp [lowBits]
  rw [registerPolynomial, hbits, polynomial_zipWith_xor (by simp)]
  rfl

@[simp] theorem registerPolynomial_zero : registerPolynomial (0#w) = 0 := by
  have h := registerPolynomial_xor (0#w) (0#w)
  rwa [BitVec.xor_self, CharTwo.add_self_eq_zero] at h

/-- Shifting down moves every bit to the next power; the lowest one moves out to `X ^ w`. -/
theorem X_mul_registerPolynomial (reg : BitVec w) :
    X * registerPolynomial reg =
      (if reg.getLsbD 0 then X ^ w else 0) + registerPolynomial (reg >>> 1) := by
  cases w with
  | zero => simp [registerPolynomial, lowBits]
  | succ n =>
      have htop : lowBits (reg >>> 1) (n + 1) = lowBits (reg >>> 1) n ++ [false] := by
        simp [lowBits, List.range_succ]
      rw [registerPolynomial, registerPolynomial, lowBits_succ, htop, polynomial_append,
        polynomial_cons, length_lowBits]
      cases reg.getLsbD 0 with
      | false => simp [mul_comm]
      | true => simp only [if_true, polynomial_cons, polynomial_nil]; simp; ring

/-! ## Remainders -/

/-- A shift of the register multiplies by `X`. -/
theorem generator_dvd_step (poly reg : BitVec w) :
    generator poly ∣ registerPolynomial (step poly reg) - X * registerPolynomial reg := by
  rw [X_mul_registerPolynomial]
  cases h : reg.getLsbD 0 with
  | false => simp [step_of_even h]
  | true =>
      have hstep : step poly reg = reg >>> 1 ^^^ poly := by simp [step, h]
      have hdiff : registerPolynomial (step poly reg) -
          (X ^ w + registerPolynomial (reg >>> 1)) = generator poly :=
        calc
          _ = registerPolynomial poly - X ^ w := by
            rw [hstep, registerPolynomial_xor]
            ring
          _ = generator poly := by rw [CharTwo.sub_eq_add, add_comm, generator]
      rw [if_pos rfl, hdiff]

/-- A bit of the input is added to the power that moves out. -/
theorem generator_dvd_feed (hw : 0 < w) (poly reg : BitVec w) (bit : Bool) :
    generator poly ∣ registerPolynomial (feed poly reg bit) -
      (X * registerPolynomial reg + if bit then X ^ w else 0) := by
  have hbit : X * registerPolynomial (ofBit bit : BitVec w) = if bit then X ^ w else 0 := by
    rw [X_mul_registerPolynomial]
    have hshift : (ofBit bit : BitVec w) >>> 1 = 0#w := by
      apply BitVec.eq_of_getLsbD_eq
      intro i _
      cases bit with
      | false => simp [ofBit]
      | true => simp [ofBit]
    rw [hshift, registerPolynomial_zero]
    cases bit with
    | false => simp [ofBit]
    | true => simp [ofBit, hw]
  have h := generator_dvd_step poly (reg ^^^ ofBit bit)
  rwa [registerPolynomial_xor, mul_add, hbit] at h

theorem generator_dvd_register (hw : 0 < w) (poly reg : BitVec w) (bits : List Bool) :
    generator poly ∣ registerPolynomial (register poly reg bits) -
      (registerPolynomial reg * X ^ bits.length + polynomial bits * X ^ w) := by
  induction bits generalizing reg with
  | nil => simp
  | cons bit bits ih =>
      have hfeed := (generator_dvd_feed hw poly reg bit).mul_right (X ^ bits.length)
      have hsplit : registerPolynomial (register poly reg (bit :: bits)) -
          (registerPolynomial reg * X ^ (bit :: bits).length +
            polynomial (bit :: bits) * X ^ w) =
          (registerPolynomial (register poly (feed poly reg bit) bits) -
            (registerPolynomial (feed poly reg bit) * X ^ bits.length +
              polynomial bits * X ^ w)) +
          (registerPolynomial (feed poly reg bit) -
            (X * registerPolynomial reg + if bit then X ^ w else 0)) * X ^ bits.length := by
        rw [register_cons, List.length_cons, polynomial_cons]
        cases bit with
        | false => simp only [Bool.false_eq_true, if_false]; ring
        | true => simp only [if_true]; ring
      rw [hsplit]
      exact dvd_add (ih _) hfeed

/-- The register after an input is the remainder of the input, which stands behind the first
register and is followed by `w` zeros. -/
theorem registerPolynomial_register (hw : 0 < w) (poly reg : BitVec w) (bits : List Bool) :
    registerPolynomial (register poly reg bits) =
      (registerPolynomial reg * X ^ bits.length + polynomial bits * X ^ w) %ₘ generator poly := by
  have hmonic := generator_monic poly
  have hdegree : (registerPolynomial (register poly reg bits)).degree <
      (generator poly).degree := by
    rw [degree_generator]
    exact degree_registerPolynomial_lt _
  calc
    _ = registerPolynomial (register poly reg bits) %ₘ generator poly :=
      ((modByMonic_eq_self_iff hmonic).mpr hdegree).symm
    _ = _ := modByMonic_eq_of_dvd_sub hmonic (generator_dvd_register hw poly reg bits)

/-! ## Words -/

/-- The word with the coefficients of a polynomial, the highest one in the lowest bit. -/
noncomputable def reflected (w : ℕ) (p : (ZMod 2)[X]) : BitVec w :=
  word w ((List.range w).map fun i => decide (p.coeff (w - 1 - i) = 1))

theorem reflected_registerPolynomial (reg : BitVec w) :
    reflected w (registerPolynomial reg) = reg := by
  apply BitVec.eq_of_getLsbD_eq
  intro i hi
  have hindex : (lowBits reg w).length - 1 - (w - 1 - i) = i := by
    rw [length_lowBits]
    omega
  have hbit : (lowBits reg w).reverse[w - 1 - i]? = some (reg.getLsbD i) := by
    rw [List.getElem?_reverse (by rw [length_lowBits]; omega), hindex]
    simp [lowBits, hi]
  rw [reflected, getLsbD_word (by simp), registerPolynomial]
  simp [hi, coeff_polynomial, hbit]

/-- The register after an input, from the coefficients of the remainder. -/
theorem register_eq_reflected (hw : 0 < w) (poly reg : BitVec w) (bits : List Bool) :
    register poly reg bits =
      reflected w ((registerPolynomial reg * X ^ bits.length + polynomial bits * X ^ w) %ₘ
        generator poly) := by
  rw [← registerPolynomial_register hw, reflected_registerPolynomial]

end Crc
