import Mathlib.Data.List.Basic
import Mathlib.Logic.Function.Iterate

/-! # Cyclic redundancy checks

A register of `w` bits is shifted down once for every bit of the input; the polynomial, in
reversed order, is taken from it when a one leaves. A shift is linear, and where the polynomial has
its top bit no shift loses anything: the bit that leaves stands in the top of the result. A change
of the input within `w` consecutive bits therefore always changes the register.
-/

namespace Crc

variable {w : ℕ} {poly : BitVec w}

/-! ## The register -/

/-- A shift of the register. -/
def step (poly reg : BitVec w) : BitVec w :=
  if reg.getLsbD 0 then (reg >>> 1) ^^^ poly else reg >>> 1

/-- A bit as the lowest one of a register. -/
def ofBit (bit : Bool) : BitVec w := if bit then 1#w else 0#w

/-- The next bit of the input. -/
def feed (poly reg : BitVec w) (bit : Bool) : BitVec w := step poly (reg ^^^ ofBit bit)

/-- The register after an input. -/
def register (poly reg : BitVec w) (bits : List Bool) : BitVec w := bits.foldl (feed poly) reg

@[simp] theorem register_nil (poly reg : BitVec w) : register poly reg [] = reg := rfl

@[simp] theorem register_cons (poly reg : BitVec w) (bit : Bool) (bits : List Bool) :
    register poly reg (bit :: bits) = register poly (feed poly reg bit) bits := rfl

theorem register_append (poly reg : BitVec w) (s t : List Bool) :
    register poly reg (s ++ t) = register poly (register poly reg s) t := List.foldl_append

/-! ## Linearity -/

theorem xor_xor_xor_comm (a b p q : BitVec w) : a ^^^ b ^^^ (p ^^^ q) = a ^^^ p ^^^ (b ^^^ q) := by
  ac_rfl

theorem step_xor (a b : BitVec w) : step poly (a ^^^ b) = step poly a ^^^ step poly b := by
  unfold step
  simp only [BitVec.getLsbD_xor, BitVec.ushiftRight_xor_distrib]
  cases a.getLsbD 0 with
  | false =>
      cases b.getLsbD 0 with
      | false => simp
      | true => simp [BitVec.xor_assoc]
  | true =>
      cases b.getLsbD 0 with
      | false => simp only [Bool.xor_false, if_true, Bool.false_eq_true, if_false]; ac_rfl
      | true =>
          have h := xor_xor_xor_comm (a >>> 1) poly (b >>> 1) poly
          simpa using h.symm

/-- A register whose lowest bit is clear only moves down. -/
theorem step_of_even {reg : BitVec w} (h : reg.getLsbD 0 = false) :
    step poly reg = reg >>> 1 := by simp [step, h]

/-- Of a word in the register only the lowest bit counts for the next shift. -/
theorem step_xor_word (reg x : BitVec w) :
    step poly (reg ^^^ x) = feed poly reg (x.getLsbD 0) ^^^ (x >>> 1) := by
  have heven : (ofBit (x.getLsbD 0) ^^^ x).getLsbD 0 = false := by
    cases hw : decide (0 < w) with
    | false => simp_all
    | true => cases h : x.getLsbD 0 <;> simp_all [ofBit]
  have hshift : (ofBit (x.getLsbD 0) ^^^ x) >>> 1 = x >>> 1 := by
    apply BitVec.eq_of_getLsbD_eq
    intro i hi
    cases h : x.getLsbD 0 <;> simp [ofBit]
  have hsplit : reg ^^^ x = reg ^^^ ofBit (x.getLsbD 0) ^^^ (ofBit (x.getLsbD 0) ^^^ x) := by
    rw [BitVec.xor_assoc, ← BitVec.xor_assoc (ofBit _), BitVec.xor_self, BitVec.zero_xor]
  rw [hsplit, step_xor, step_of_even heven, hshift, feed]

/-- The lowest `n` bits of a word. -/
def lowBits (x : BitVec w) (n : ℕ) : List Bool := (List.range n).map x.getLsbD

@[simp] theorem length_lowBits (x : BitVec w) (n : ℕ) : (lowBits x n).length = n := by
  simp [lowBits]

theorem lowBits_succ (x : BitVec w) (n : ℕ) :
    lowBits x (n + 1) = x.getLsbD 0 :: lowBits (x >>> 1) n := by
  simp [lowBits, List.range_succ_eq_map, Nat.add_comm 1]

/-- Shifting with a word in the register is feeding its bits, the lowest one first. -/
theorem iterate_step_xor (n : ℕ) (reg x : BitVec w) :
    (step poly)^[n] (reg ^^^ x) = register poly reg (lowBits x n) ^^^ (x >>> n) := by
  induction n generalizing reg x with
  | zero => simp [lowBits]
  | succ n ih =>
      rw [Function.iterate_succ_apply, step_xor_word, ih, lowBits_succ, register_cons,
        ← BitVec.shiftRight_add, Nat.add_comm 1 n]

/-- At most `w` bits as a word. -/
def word (w : ℕ) (bits : List Bool) : BitVec w := (BitVec.ofBoolListLE bits).setWidth w

theorem getLsbD_word {bits : List Bool} (h : bits.length ≤ w) (i : ℕ) :
    (word w bits).getLsbD i = bits.getD i false := by
  rw [word, BitVec.getLsbD_setWidth, BitVec.getLsbD_ofBoolListLE]
  by_cases hi : i < w
  · simp [hi]
  · simp [hi, List.getElem?_eq_none (show bits.length ≤ i by omega)]

theorem lowBits_word {bits : List Bool} (h : bits.length ≤ w) :
    lowBits (word w bits) bits.length = bits := by
  apply List.ext_getElem
  · simp [lowBits]
  · intro i hi hi'
    simp [lowBits, getLsbD_word h, hi']

theorem word_ushiftRight {bits : List Bool} (h : bits.length ≤ w) :
    word w bits >>> bits.length = 0#w := by
  apply BitVec.eq_of_getLsbD_eq
  intro i _
  rw [BitVec.getLsbD_ushiftRight, getLsbD_word h]
  simp

/-- Few enough bits stand in the register all at once. -/
theorem register_eq_iterate (reg : BitVec w) {bits : List Bool} (h : bits.length ≤ w) :
    register poly reg bits = (step poly)^[bits.length] (reg ^^^ word w bits) := by
  rw [iterate_step_xor, lowBits_word h, word_ushiftRight h, BitVec.xor_zero]

/-! ## Nothing is lost -/

theorem getLsbD_top_ushiftRight (reg : BitVec w) : (reg >>> 1).getLsbD (w - 1) = false := by
  rw [BitVec.getLsbD_ushiftRight]
  exact BitVec.getLsbD_of_ge reg _ (by omega)

/-- The bit that leaves stands in the top of the result. -/
theorem getLsbD_top_step (htop : poly.msb = true) (reg : BitVec w) :
    (step poly reg).getLsbD (w - 1) = reg.getLsbD 0 := by
  have hpoly : poly.getLsbD (w - 1) = true := by rw [← BitVec.msb_eq_getLsbD_last, htop]
  cases h : reg.getLsbD 0 with
  | false => rw [step_of_even h, getLsbD_top_ushiftRight]
  | true =>
      rw [step, if_pos h, BitVec.getLsbD_xor, getLsbD_top_ushiftRight, hpoly, Bool.false_xor]

theorem step_injective (htop : poly.msb = true) : Function.Injective (step poly) := by
  intro a b h
  have hlow : a.getLsbD 0 = b.getLsbD 0 := by
    rw [← getLsbD_top_step htop a, h, getLsbD_top_step htop b]
  have hrest : a >>> 1 = b >>> 1 := by
    unfold step at h
    rw [hlow] at h
    cases hb : b.getLsbD 0 with
    | false => simpa [hb] using h
    | true => simpa [hb] using h
  apply BitVec.eq_of_getLsbD_eq
  intro i _
  cases i with
  | zero => exact hlow
  | succ i =>
      have hi := congrArg (BitVec.getLsbD · i) hrest
      simpa [Nat.add_comm 1 i] using hi

/-- Two registers that differ are told apart whatever comes next. -/
theorem register_injective (htop : poly.msb = true) (bits : List Bool) :
    Function.Injective (register poly · bits) := by
  induction bits with
  | nil => exact fun a b h => h
  | cons bit bits ih =>
      intro a b h
      have hfeed : feed poly a bit = feed poly b bit := ih h
      exact (BitVec.xor_left_inj _).mp (step_injective htop hfeed)

/-! ## Bursts -/

/-- Two inputs of at most `w` bits leave different registers. -/
theorem register_ne_of_length_le (htop : poly.msb = true) (reg : BitVec w) {s t : List Bool}
    (hlen : s.length = t.length) (hle : s.length ≤ w) (hne : s ≠ t) :
    register poly reg s ≠ register poly reg t := by
  intro h
  have hle' : t.length ≤ w := hlen ▸ hle
  rw [register_eq_iterate reg hle, register_eq_iterate reg hle', hlen] at h
  have hword : word w s = word w t :=
    (BitVec.xor_right_inj _).mp ((step_injective htop).iterate _ h)
  apply hne
  rw [← lowBits_word hle, ← lowBits_word hle', hword, hlen]

/-- A change within `w` consecutive bits changes the register, wherever it stands. -/
theorem register_ne_of_burst (htop : poly.msb = true) (reg : BitVec w) {s t : List Bool}
    (hlen : s.length = t.length) (hne : s ≠ t) {start : ℕ}
    (hburst : ∀ i, s[i]? ≠ t[i]? → start ≤ i ∧ i < start + w) :
    register poly reg s ≠ register poly reg t := by
  have hsame : ∀ i, i < start ∨ start + w ≤ i → s[i]? = t[i]? := by
    intro i hi
    by_contra h
    have := hburst i h
    omega
  have hbefore : s.take start = t.take start := by
    apply List.ext_getElem?
    intro i
    by_cases hi : i < start
    · simp only [List.getElem?_take, hi, if_true]
      exact hsame i (Or.inl hi)
    · rw [List.getElem?_take, List.getElem?_take, if_neg hi, if_neg hi]
  have hafter : (s.drop start).drop w = (t.drop start).drop w := by
    apply List.ext_getElem?
    intro i
    simp only [List.getElem?_drop]
    exact hsame _ (Or.inr (by omega))
  have hmiddle : (s.drop start).take w ≠ (t.drop start).take w := by
    intro h
    apply hne
    rw [← List.take_append_drop start s, ← List.take_append_drop start t, hbefore,
      ← List.take_append_drop w (s.drop start), ← List.take_append_drop w (t.drop start), h,
      hafter]
  have hsplit : ∀ u : List Bool, register poly reg u =
      register poly (register poly (register poly reg (u.take start)) ((u.drop start).take w))
        ((u.drop start).drop w) := by
    intro u
    rw [← register_append, ← register_append, List.take_append_drop, List.take_append_drop]
  rw [hsplit s, hsplit t, hbefore, hafter]
  intro h
  refine register_ne_of_length_le htop _ ?_ (List.length_take_le ..) hmiddle
    (register_injective htop _ h)
  simp [hlen]

end Crc
