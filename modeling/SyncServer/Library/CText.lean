import Mathlib.Data.List.TakeWhile
import Mathlib.Data.Nat.Digits.Lemmas

/-! # C text: byte strings, numbers in decimal, tokens and dotted quads

The functions of the C library that programs use to build and take apart text, on byte
strings without the terminating NUL.
-/

namespace CText

open List

/-- The bytes of a C string, its terminator left out. -/
abbrev Bytes := List UInt8

def minus : UInt8 := 45
def plus : UInt8 := 43
def dot : UInt8 := 46
def colon : UInt8 := 58
def pipe : UInt8 := 124

/-! ## Prefixes -/

/-- The text is empty or begins with a byte outside `p`. -/
def Stops (p : UInt8 → Bool) (s : Bytes) : Prop := ∀ c ∈ s.head?, p c = false

@[simp] theorem stops_nil (p : UInt8 → Bool) : Stops p [] := by simp [Stops]

@[simp] theorem stops_cons (p : UInt8 → Bool) (c : UInt8) (s : Bytes) :
    Stops p (c :: s) ↔ p c = false := by simp [Stops]

theorem takeWhile_append_stops {p : UInt8 → Bool} {s t : Bytes} (hs : ∀ c ∈ s, p c)
    (ht : Stops p t) : (s ++ t).takeWhile p = s := by
  rw [takeWhile_append_of_pos hs]
  cases t with
  | nil => simp
  | cons c t => simp [(stops_cons p c t).mp ht]

theorem dropWhile_append_stops {p : UInt8 → Bool} {s t : Bytes} (hs : ∀ c ∈ s, p c)
    (ht : Stops p t) : (s ++ t).dropWhile p = t := by
  rw [dropWhile_append_of_pos hs]
  cases t with
  | nil => simp
  | cons c t => simp [(stops_cons p c t).mp ht]

/-! ## Decimal numbers -/

def isDigit (c : UInt8) : Bool := 48 ≤ c.toNat && c.toNat ≤ 57

def digit (d : ℕ) : UInt8 := UInt8.ofNat (48 + d)

def digitValue (c : UInt8) : ℕ := c.toNat - 48

theorem digit_toNat {d : ℕ} (hd : d < 10) : (digit d).toNat = 48 + d := by
  rw [digit, UInt8.toNat_ofNat']
  omega

theorem isDigit_digit {d : ℕ} (hd : d < 10) : isDigit (digit d) := by
  have h := digit_toNat hd
  simp only [isDigit, h, Bool.and_eq_true, decide_eq_true_eq]
  omega

theorem digitValue_digit {d : ℕ} (hd : d < 10) : digitValue (digit d) = d := by
  have h := digit_toNat hd
  simp only [digitValue, h]
  omega

/-- What `%u` prints. -/
def printNat (n : ℕ) : Bytes :=
  if n = 0 then [digit 0] else (Nat.digits 10 n).reverse.map digit

/-- What `%d` prints. -/
def printInt : ℤ → Bytes
  | .ofNat n => printNat n
  | .negSucc n => minus :: printNat (n + 1)

/-- The number a run of digits stands for. -/
def scanNat (s : Bytes) : ℕ := s.foldl (fun n c => 10 * n + digitValue c) 0

theorem isDigit_of_mem_printNat {n : ℕ} {c : UInt8} (hc : c ∈ printNat n) : isDigit c := by
  unfold printNat at hc
  split at hc
  · obtain rfl := mem_singleton.mp hc
    exact isDigit_digit (by omega)
  · obtain ⟨d, hd, rfl⟩ := mem_map.mp hc
    exact isDigit_digit (Nat.digits_lt_base (by omega) (mem_reverse.mp hd))

theorem printNat_ne_nil (n : ℕ) : printNat n ≠ [] := by
  unfold printNat
  split
  · simp
  · rename_i hn
    simpa using Nat.digits_ne_nil_iff_ne_zero.mpr hn

theorem printInt_ne_nil (z : ℤ) : printInt z ≠ [] := by
  cases z with
  | ofNat n => exact printNat_ne_nil n
  | negSucc n => simp [printInt]

theorem foldr_digits_value (ds : List ℕ) (hds : ∀ d ∈ ds, d < 10) :
    (ds.map digit).foldr (fun c n => 10 * n + digitValue c) 0 = Nat.ofDigits 10 ds := by
  induction ds with
  | nil => rfl
  | cons d ds ih =>
      rw [map_cons, foldr_cons, ih fun e he => hds e (mem_cons_of_mem d he),
        digitValue_digit (hds d mem_cons_self), Nat.ofDigits_cons]
      exact Nat.add_comm _ _

/-- Reading back a printed number gives the number. -/
theorem scanNat_printNat (n : ℕ) : scanNat (printNat n) = n := by
  unfold printNat
  split
  · rename_i hn
    subst hn
    rfl
  · rw [scanNat, map_reverse, foldl_reverse,
      foldr_digits_value _ fun d hd => Nat.digits_lt_base (by omega) hd, Nat.ofDigits_digits]

/-- `isspace` in the C locale. -/
def isSpace (c : UInt8) : Bool := c.toNat = 32 || (9 ≤ c.toNat && c.toNat ≤ 13)

/-- The digits at the front of the text, if there is one, and what follows them. -/
def scanDigits (s : Bytes) : Option (ℕ × Bytes) :=
  if s.takeWhile isDigit = [] then none
  else some (scanNat (s.takeWhile isDigit), s.dropWhile isDigit)

/-- An optional sign and digits. -/
def scanSigned : Bytes → Option (ℤ × Bytes)
  | [] => none
  | c :: s =>
      if c = minus then (scanDigits s).map fun p => (-(p.1 : ℤ), p.2)
      else if c = plus then (scanDigits s).map fun p => ((p.1 : ℤ), p.2)
      else (scanDigits (c :: s)).map fun p => ((p.1 : ℤ), p.2)

/-- `strtol` stops at the ends of the 64-bit range. -/
def clampLong (z : ℤ) : ℤ := max (-2 ^ 63) (min (2 ^ 63 - 1) z)

/-- The conversion of a `long` to an `int`. -/
def toInt (z : ℤ) : ℤ := z.bmod (2 ^ 32)

/-- One `%d` of `sscanf`: white space, a sign, digits; the rest of the text is kept. -/
def scanInt (s : Bytes) : Option (ℤ × Bytes) :=
  (scanSigned (s.dropWhile isSpace)).map fun p => (toInt (clampLong p.1), p.2)

/-- `atoi` is zero where no number stands at the front. -/
def atoi (s : Bytes) : ℤ := ((scanInt s).map Prod.fst).getD 0

/-- The values of a C `int`. -/
def IsInt (z : ℤ) : Prop := -2 ^ 31 ≤ z ∧ z < 2 ^ 31

instance (z : ℤ) : Decidable (IsInt z) := inferInstanceAs (Decidable (_ ∧ _))

theorem toInt_clampLong {z : ℤ} (hz : IsInt z) : toInt (clampLong z) = z := by
  obtain ⟨hl, hu⟩ := hz
  have hc : clampLong z = z := by
    unfold clampLong
    omega
  rw [hc, toInt, Int.bmod_def]
  omega

theorem scanDigits_printNat (n : ℕ) {t : Bytes} (ht : Stops isDigit t) :
    scanDigits (printNat n ++ t) = some (n, t) := by
  have hd : ∀ c ∈ printNat n, isDigit c := fun c => isDigit_of_mem_printNat
  rw [scanDigits, takeWhile_append_stops hd ht, dropWhile_append_stops hd ht,
    if_neg (printNat_ne_nil n), scanNat_printNat]

theorem not_isDigit_of_sign {c : UInt8} (hc : isDigit c) :
    c ≠ minus ∧ c ≠ plus ∧ isSpace c = false := by
  simp only [isDigit, Bool.and_eq_true, decide_eq_true_eq] at hc
  refine ⟨?_, ?_, ?_⟩
  · rintro rfl
    simp [minus] at hc
  · rintro rfl
    simp [plus] at hc
  · simp only [isSpace, Bool.or_eq_false_iff, Bool.and_eq_false_iff, decide_eq_false_iff_not]
    omega

theorem scanSigned_printInt (z : ℤ) {t : Bytes} (ht : Stops isDigit t) :
    scanSigned (printInt z ++ t) = some (z, t) := by
  cases z with
  | ofNat n =>
      obtain ⟨c, s, hs⟩ := exists_cons_of_ne_nil (printNat_ne_nil n)
      have hc : isDigit c := isDigit_of_mem_printNat (n := n) (by simp [hs])
      obtain ⟨hm, hp, -⟩ := not_isDigit_of_sign hc
      have h := scanDigits_printNat n ht
      rw [hs, cons_append] at h
      simp only [printInt, hs, cons_append, scanSigned, hm, hp, ite_false, h, Option.map_some]
      rfl
  | negSucc n =>
      simp only [printInt, cons_append, scanSigned, ite_true, scanDigits_printNat (n + 1) ht,
        Option.map_some]
      rfl

theorem dropWhile_space_printInt (z : ℤ) (t : Bytes) :
    (printInt z ++ t).dropWhile isSpace = printInt z ++ t := by
  cases z with
  | ofNat n =>
      obtain ⟨c, s, hs⟩ := exists_cons_of_ne_nil (printNat_ne_nil n)
      have hc : isDigit c := isDigit_of_mem_printNat (n := n) (by simp [hs])
      simp [printInt, hs, (not_isDigit_of_sign hc).2.2]
  | negSucc n =>
      simp only [printInt, cons_append, dropWhile_cons]
      rfl

/-- A printed number is read up to the first byte that is not one of its digits. -/
theorem scanInt_printInt_clamp (z : ℤ) {t : Bytes} (ht : Stops isDigit t) :
    scanInt (printInt z ++ t) = some (toInt (clampLong z), t) := by
  simp only [scanInt, dropWhile_space_printInt, scanSigned_printInt z ht, Option.map_some]

/-- A printed `int` is read back. -/
theorem scanInt_printInt {z : ℤ} (hz : IsInt z) {t : Bytes} (ht : Stops isDigit t) :
    scanInt (printInt z ++ t) = some (z, t) := by
  rw [scanInt_printInt_clamp z ht, toInt_clampLong hz]

theorem atoi_printInt {z : ℤ} (hz : IsInt z) {t : Bytes} (ht : Stops isDigit t) :
    atoi (printInt z ++ t) = z := by
  simp only [atoi, scanInt_printInt hz ht, Option.map_some, Option.getD_some]

/-- A number that is the whole text. -/
theorem atoi_printInt_self {z : ℤ} (hz : IsInt z) : atoi (printInt z) = z := by
  simpa using atoi_printInt hz (stops_nil isDigit)

/-- `sscanf(s, "%d:%d", ..)` when both numbers were converted. -/
def scanPair (s : Bytes) : Option (ℤ × ℤ) := do
  let (m, s) ← scanInt s
  match s with
  | c :: s => if c = colon then (scanInt s).map fun p => (m, p.1) else none
  | [] => none

/-- `sprintf(.., "%d:%d", m, n)`. -/
def printPair (m n : ℤ) : Bytes := printInt m ++ colon :: printInt n

theorem scanPair_printPair {m n : ℤ} (hm : IsInt m) (hn : IsInt n) :
    scanPair (printPair m n) = some (m, n) := by
  have hcolon : Stops isDigit (colon :: printInt n) := by simp [isDigit, colon]
  have hlast := scanInt_printInt hn (stops_nil isDigit)
  rw [append_nil] at hlast
  simp only [scanPair, printPair, scanInt_printInt hm hcolon, hlast, Option.bind_eq_bind,
    Option.bind_some, ite_true, Option.map_some]

/-- A number that is not followed by a colon is no pair. -/
theorem scanPair_printInt_eq_none (m : ℤ) {c : UInt8} (hd : isDigit c = false) (hc : c ≠ colon)
    (t : Bytes) : scanPair (printInt m ++ c :: t) = none := by
  have hstop : Stops isDigit (c :: t) := by simp [hd]
  simp [scanPair, scanInt_printInt_clamp m hstop, hc]

theorem isInt_atoi (s : Bytes) : IsInt (atoi s) := by
  unfold atoi scanInt
  cases scanSigned (s.dropWhile isSpace) with
  | none => constructor <;> decide
  | some p =>
      simp only [Option.map_some, Option.getD_some, toInt, IsInt, Int.bmod_def]
      omega

/-! ## Tokens -/

/-- `strtok_r` with one delimiter: leading delimiters are skipped, and the text after the
delimiter that ends the token is kept. -/
def strtok (delim : UInt8) (s : Bytes) : Option Bytes × Bytes :=
  let s := s.dropWhile (· == delim)
  if s = [] then (none, [])
  else (some (s.takeWhile (· != delim)), (s.dropWhile (· != delim)).drop 1)

theorem strtok_append {delim : UInt8} {token : Bytes} (hne : token ≠ [])
    (hd : delim ∉ token) {t : Bytes} (ht : Stops (· != delim) t) :
    strtok delim (token ++ t) = (some token, t.drop 1) := by
  have hall : ∀ c ∈ token, (c != delim) = true := by
    intro c hc
    simpa using fun h : c = delim => hd (h ▸ hc)
  have hskip : (token ++ t).dropWhile (· == delim) = token ++ t := by
    obtain ⟨c, s, rfl⟩ := exists_cons_of_ne_nil hne
    have hc : c ≠ delim := fun h => hd (by simp [h])
    simp [hc]
  simp only [strtok, hskip, append_eq_nil_iff, hne, false_and, ite_false,
    takeWhile_append_stops hall ht, dropWhile_append_stops hall ht]

/-- A token is not empty, holds no delimiter, and comes from the text, as does what is left. -/
theorem strtok_eq_some {delim : UInt8} {s token rest : Bytes}
    (h : strtok delim s = (some token, rest)) :
    token ≠ [] ∧ delim ∉ token ∧ (∀ c ∈ token, c ∈ s) ∧ ∀ c ∈ rest, c ∈ s := by
  simp only [strtok] at h
  split at h
  · cases h
  · rename_i hne
    obtain ⟨htoken, rfl⟩ := Prod.mk.inj h
    obtain rfl := Option.some.inj htoken
    have hskip : ∀ c ∈ s.dropWhile (· == delim), c ∈ s := fun c hc =>
      (List.dropWhile_sublist _).mem hc
    refine ⟨fun hnil => ?_, fun hmem => ?_, fun c hc => ?_, fun c hc => ?_⟩
    · have hhead := List.head_dropWhile_not (· == delim) hne
      obtain ⟨c, t, ht⟩ := exists_cons_of_ne_nil hne
      simp only [ht, head_cons] at hhead
      rw [ht, takeWhile_cons] at hnil
      simp [bne, hhead] at hnil
    · simpa using List.mem_takeWhile_imp hmem
    · exact hskip c ((List.takeWhile_sublist _).mem hc)
    · exact hskip c ((List.dropWhile_sublist _).mem (List.mem_of_mem_drop hc))

theorem strtok_eq_none {delim : UInt8} {s rest : Bytes} (h : strtok delim s = (none, rest)) :
    rest = [] := by
  simp only [strtok] at h
  split at h
  · exact (Prod.mk.inj h).2.symm
  · cases h

/-- `strchr` followed by cutting the text at the byte found. -/
def cutAt (c : UInt8) (s : Bytes) : Option (Bytes × Bytes) :=
  if c ∈ s then some (s.takeWhile (· != c), (s.dropWhile (· != c)).drop 1) else none

theorem cutAt_append {c : UInt8} {s : Bytes} (hs : c ∉ s) (t : Bytes) :
    cutAt c (s ++ c :: t) = some (s, t) := by
  have hall : ∀ d ∈ s, (d != c) = true := by
    intro d hd
    simpa using fun h : d = c => hs (h ▸ hd)
  have hstop : Stops (· != c) (c :: t) := by simp
  simp [cutAt, takeWhile_append_stops hall hstop, dropWhile_append_stops hall hstop]

/-- `sscanf(s, "%63[^:]:%d", ..)` when both fields were converted. -/
def scanHostPort (s : Bytes) : Option (Bytes × ℤ) :=
  let host := (s.takeWhile (· != colon)).take 63
  if host = [] then none
  else
    match s.drop host.length with
    | c :: s => if c = colon then (scanInt s).map fun p => (host, p.1) else none
    | [] => none

theorem scanHostPort_append {host : Bytes} (hne : host ≠ []) (hcolon : colon ∉ host)
    (hlength : host.length ≤ 63) {z : ℤ} (hz : IsInt z) :
    scanHostPort (host ++ colon :: printInt z) = some (host, z) := by
  have hall : ∀ c ∈ host, (c != colon) = true := by
    intro c hc
    simpa using fun h : c = colon => hcolon (h ▸ hc)
  have hhost : ((host ++ colon :: printInt z).takeWhile (· != colon)).take 63 = host := by
    rw [takeWhile_append_stops hall (by simp), take_of_length_le hlength]
  have hport := scanInt_printInt hz (stops_nil isDigit)
  rw [append_nil] at hport
  simp only [scanHostPort, hhost, hne, ite_false, drop_left, ite_true, hport, Option.map_some]

/-! ## Copies -/

/-- `strncpy`: `n` bytes are written, zeros after the end of the source. -/
def strncpy (dst src : Bytes) (n : ℕ) : Bytes :=
  (src ++ replicate n 0).take n ++ dst.drop n

/-- The C string at the front of a buffer. -/
def cString (buffer : Bytes) : Bytes := buffer.takeWhile (· != 0)

theorem cString_of_zero_not_mem {s : Bytes} (h : 0 ∉ s) : cString s = s := by
  apply takeWhile_eq_self_iff.mpr
  intro c hc
  simpa using fun h' : c = 0 => h (h' ▸ hc)

theorem zero_not_mem_cString (buffer : Bytes) : 0 ∉ cString buffer := by
  intro h
  simpa using mem_takeWhile_imp h

/-- A C string ends with a text only where a zero follows it. -/
theorem cString_append_eq_iff {text : Bytes} (hzero : 0 ∉ text) (c : UInt8) (rest : Bytes) :
    cString (text ++ c :: rest) = text ↔ c = 0 := by
  have hall : ∀ b ∈ text, (b != 0) = true := by
    intro b hb
    simpa using fun h : b = 0 => hzero (h ▸ hb)
  rw [cString, takeWhile_append_of_pos hall]
  by_cases hc : c = 0
  · simp [hc]
  · simp [hc]

/-! ## IPv4 addresses -/

/-- `struct in_addr`: the four bytes in the order they are written. -/
structure InAddr where
  b0 : UInt8
  b1 : UInt8
  b2 : UInt8
  b3 : UInt8
  deriving DecidableEq, Repr

/-- `struct sockaddr_in`, the port as `ntohs` gives it. -/
structure SockAddrIn where
  sinAddr : InAddr
  sinPort : UInt16
  deriving DecidableEq, Repr

/-- The address after `memset(.., 0, ..)`. -/
def SockAddrIn.zero : SockAddrIn := ⟨⟨0, 0, 0, 0⟩, 0⟩

/-- `htons` of an `int` keeps its low 16 bits. -/
def htons (port : ℤ) : UInt16 := UInt16.ofNat (port % 2 ^ 16).toNat

/-- `inet_ntop(AF_INET, ..)`. -/
def inetNtop (a : InAddr) : Bytes :=
  printNat a.b0.toNat ++ dot :: (printNat a.b1.toNat ++ dot ::
    (printNat a.b2.toNat ++ dot :: printNat a.b3.toNat))

/-- One field of a dotted quad: digits without a leading zero, at most 255. -/
def scanOctet (s : Bytes) : Option UInt8 :=
  if s ≠ [] ∧ (s.all isDigit) = true ∧ (s.head? = some (digit 0) → s.length = 1) ∧ scanNat s ≤ 255
  then some (UInt8.ofNat (scanNat s)) else none

/-- `inet_pton(AF_INET, ..)`: exactly four fields. -/
def inetPton (s : Bytes) : Option InAddr :=
  match s.splitOn dot with
  | [s0, s1, s2, s3] => do
      return ⟨← scanOctet s0, ← scanOctet s1, ← scanOctet s2, ← scanOctet s3⟩
  | _ => none

theorem printNat_head_zero {n : ℕ} (h : (printNat n).head? = some (digit 0)) :
    (printNat n).length = 1 := by
  unfold printNat at h ⊢
  split
  · rfl
  · rename_i hn
    have hne : Nat.digits 10 n ≠ [] := Nat.digits_ne_nil_iff_ne_zero.mpr hn
    have hlast := Nat.getLast_digit_ne_zero 10 hn
    rw [if_neg hn, head?_map, head?_reverse, getLast?_eq_some_getLast hne,
      Option.map_some, Option.some.injEq] at h
    have hlt : (Nat.digits 10 n).getLast hne < 10 :=
      Nat.digits_lt_base (by omega) (getLast_mem hne)
    have hv := congrArg digitValue h
    rw [digitValue_digit hlt, digitValue_digit (by omega)] at hv
    exact absurd hv hlast

theorem scanOctet_printNat (b : UInt8) : scanOctet (printNat b.toNat) = some b := by
  have hb : b.toNat ≤ 255 := by
    have := b.toNat_lt
    omega
  have hall : (printNat b.toNat).all isDigit = true :=
    all_eq_true.mpr fun c => isDigit_of_mem_printNat
  rw [scanOctet, if_pos ⟨printNat_ne_nil _, hall, printNat_head_zero, by
    rw [scanNat_printNat]; exact hb⟩, scanNat_printNat]
  simp

theorem dot_not_mem_printNat (n : ℕ) : dot ∉ printNat n := by
  intro h
  simpa [isDigit, dot] using isDigit_of_mem_printNat h

/-- Every address survives being printed and parsed. -/
theorem inetPton_inetNtop (a : InAddr) : inetPton (inetNtop a) = some a := by
  have hsplit : (inetNtop a).splitOn dot =
      [printNat a.b0.toNat, printNat a.b1.toNat, printNat a.b2.toNat, printNat a.b3.toNat] := by
    have h : inetNtop a = [dot].intercalate
        [printNat a.b0.toNat, printNat a.b1.toNat, printNat a.b2.toNat, printNat a.b3.toNat] := by
      simp [inetNtop, intercalate, intersperse]
    rw [h]
    apply splitOn_intercalate
    · intro l hl
      simp only [mem_cons, not_mem_nil, or_false] at hl
      rcases hl with rfl | rfl | rfl | rfl <;> exact dot_not_mem_printNat _
    · simp
  simp [inetPton, hsplit, scanOctet_printNat]

/-- The bytes of a printed address are digits and dots. -/
theorem mem_inetNtop {a : InAddr} {c : UInt8} (hc : c ∈ inetNtop a) :
    isDigit c ∨ c = dot := by
  simp only [inetNtop, mem_append, mem_cons] at hc
  rcases hc with h | rfl | h | rfl | h | rfl | h
  all_goals first
    | exact Or.inr rfl
    | exact Or.inl (isDigit_of_mem_printNat h)

theorem length_printNat_le {n k : ℕ} (hk : 0 < k) (h : n < 10 ^ k) : (printNat n).length ≤ k := by
  unfold printNat
  split
  · exact hk
  · rw [length_map, length_reverse]
    exact (Nat.digits_length_le_iff (by omega) n).mpr h

theorem length_printInt_le {z : ℤ} (h : IsInt z) : (printInt z).length ≤ 11 := by
  obtain ⟨hl, hu⟩ := h
  cases z with
  | ofNat n =>
      have hn : n < 10 ^ 10 := by
        simp only [Int.ofNat_eq_natCast] at hu
        omega
      exact (length_printNat_le (by omega) hn).trans (by omega)
  | negSucc n =>
      have hn : n + 1 < 10 ^ 10 := by omega
      have hlength := length_printNat_le (by omega) hn
      simp only [printInt, List.length_cons]
      omega

theorem length_inetNtop_le (a : InAddr) : (inetNtop a).length ≤ 15 := by
  have h : ∀ b : UInt8, (printNat b.toNat).length ≤ 3 := fun b =>
    length_printNat_le (by omega) (by have := b.toNat_lt; omega)
  have h0 := h a.b0
  have h1 := h a.b1
  have h2 := h a.b2
  have h3 := h a.b3
  simp only [inetNtop, length_append, length_cons]
  omega

theorem zero_not_mem_inetNtop (a : InAddr) : 0 ∉ inetNtop a := by
  intro h
  rcases mem_inetNtop h with h | h <;> simp [isDigit, dot] at h

theorem zero_not_mem_printInt (z : ℤ) : 0 ∉ printInt z := by
  have hnat : ∀ n : ℕ, 0 ∉ printNat n := by
    intro n h
    simpa [isDigit] using isDigit_of_mem_printNat h
  cases z with
  | ofNat n => exact hnat n
  | negSucc n =>
      intro h
      rcases mem_cons.mp h with h | h
      · simp [minus] at h
      · exact hnat (n + 1) h

theorem zero_not_mem_printPair (m n : ℤ) : 0 ∉ printPair m n := by
  intro h
  rcases mem_append.mp h with h | h
  · exact zero_not_mem_printInt m h
  · rcases mem_cons.mp h with h | h
    · simp [colon] at h
    · exact zero_not_mem_printInt n h

theorem length_printPair_le {m n : ℤ} (hm : IsInt m) (hn : IsInt n) :
    (printPair m n).length ≤ 23 := by
  have hm := length_printInt_le hm
  have hn := length_printInt_le hn
  simp only [printPair, length_append, length_cons]
  omega

theorem htons_toNat (port : UInt16) : htons (port.toNat : ℤ) = port := by
  have h := port.toNat_lt
  unfold htons
  have hmod : ((port.toNat : ℤ) % 2 ^ 16).toNat = port.toNat := by omega
  rw [hmod]
  simp

/-! ## Unsigned numbers in memory -/

/-- The lowest `k` bytes of a number, the lowest first. -/
def littleEndian : ℕ → ℕ → Bytes
  | 0, _ => []
  | k + 1, n => UInt8.ofNat n :: littleEndian k (n / 256)

def readLittleEndian (s : Bytes) : ℕ := s.foldr (fun b n => b.toNat + 256 * n) 0

@[simp] theorem length_littleEndian (k n : ℕ) : (littleEndian k n).length = k := by
  induction k generalizing n with
  | zero => rfl
  | succ k ih => rw [littleEndian, length_cons, ih]

theorem readLittleEndian_littleEndian (k n : ℕ) :
    readLittleEndian (littleEndian k n) = n % 256 ^ k := by
  induction k generalizing n with
  | zero => simp [readLittleEndian, littleEndian, Nat.mod_one]
  | succ k ih =>
      have h : readLittleEndian (littleEndian (k + 1) n) =
          n % 256 + 256 * readLittleEndian (littleEndian k (n / 256)) := by
        simp [readLittleEndian, littleEndian]
      rw [h, ih, Nat.pow_succ', Nat.mod_mul]

end CText
