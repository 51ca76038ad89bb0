import CloningApps.Memory.Touch
import CloningApps.Text.Decimal

/-! # Timestamps of the profiler

What Mini-OS prints for the two readings of the clock around a profiled piece of
code. The milliseconds are a quotient of doubles, which is stipulated to be exact
here, and are printed as two integers with a point between them.
-/

namespace CloningApps.Profile
open Text
open Memory (Timespec)

def NSECONDS_IN_SEC : ℤ := 1000000000

def MSECONDS_IN_SEC : ℤ := 1000

def NSECONDS_IN_MSEC : ℤ := NSECONDS_IN_SEC / MSECONDS_IN_SEC

/-- A `time_t` has 64 bits, and its arithmetic wraps. -/
def timeT (x : ℤ) : ℤ := x.bmod (2 ^ 64)

def timespecNsec (t : Timespec) : ℤ := timeT (timeT (t.sec * NSECONDS_IN_SEC) + t.nsec)

def timespecDiffNsec (start stop : Timespec) : ℤ := timeT (timespecNsec stop - timespecNsec start)

def timespecDiffMsec (start stop : Timespec) : ℚ :=
  timespecDiffNsec start stop / NSECONDS_IN_MSEC

/-- The conversion of a `double` to `long`. -/
def truncate (value : ℚ) : ℤ := if 0 ≤ value then ⌊value⌋ else ⌈value⌉

/-- `%ld.%ld` of the whole number and of the thousandths that are left. -/
def timestampText (value : ℚ) : CStr :=
  decimalInt (truncate value) ++ ascii "." ++ decimalInt (truncate ((value - truncate value) * 1000))

def printTimestamp (value : ℚ) (lvl : ℤ) (str : CStr) : CStr :=
  ascii "CLONING_TRACE " ++ timestampText value ++ ascii " " ++ decimalInt lvl ++ ascii " " ++ str ++
    ascii "\n"

/-- The line for the readings that `PROFILE_NESTED_TICK` and this macro take. -/
def profileNestedTockMsec (tick tock : Timespec) (lvl : ℤ) (str : CStr) : CStr :=
  printTimestamp (timespecDiffMsec tick tock) lvl str

/-- The number on a line of the trace is its second word. -/
def printedNumber (line : CStr) : Option ℚ :=
  readDecimal ((line.dropWhile (· ≠ 32)).tail.takeWhile (· ≠ 32))

/-! ## Measurements -/

def nanos (t : Timespec) : ℤ := t.sec * 1000000000 + t.nsec

/-- A reading as a clock gives it, with a `tv_sec` of 64 bits. -/
structure Normalised (t : Timespec) : Prop where
  sec : -2 ^ 63 ≤ t.sec ∧ t.sec < 2 ^ 63
  nsec : 0 ≤ t.nsec ∧ t.nsec < 1000000000

structure Measurement where
  start : Timespec
  stop : Timespec
  start_normalised : Normalised start
  stop_normalised : Normalised stop
  ordered : nanos start ≤ nanos stop

namespace Measurement

/-- The nanoseconds measured. -/
def nsec (m : Measurement) : ℕ := (nanos m.stop - nanos m.start).toNat

def printed (m : Measurement) (lvl : ℤ) (str : CStr) : Option ℚ :=
  printedNumber (profileNestedTockMsec m.start m.stop lvl str)

/-- The milliseconds measured, truncated to three decimals. -/
def truncatedMsec (m : Measurement) : ℚ := (m.nsec / 1000 : ℕ) / 1000

def ReadsBack (m : Measurement) : Prop := ∀ lvl str, m.printed lvl str = some m.truncatedMsec

/-- A longer measurement is not printed as a smaller number. -/
def OrderKept (m₁ m₂ : Measurement) : Prop :=
  m₁.nsec ≤ m₂.nsec → ∀ lvl₁ str₁ lvl₂ str₂ q₁ q₂, m₁.printed lvl₁ str₁ = some q₁ →
    m₂.printed lvl₂ str₂ = some q₂ → q₁ ≤ q₂

/-- The nanoseconds fit, and the thousandths have three digits unless there are none. -/
def ThreeDigits (m : Measurement) : Prop :=
  m.nsec < 2 ^ 63 ∧ (m.nsec % 1000000 / 1000 = 0 ∨ 100 ≤ m.nsec % 1000000 / 1000)

end Measurement

/-! ## The text -/

theorem truncate_div (n : ℤ) (d : ℕ) (hd : 0 < d) : truncate ((n : ℚ) / d) = n.tdiv d := by
  have hpos : (0 : ℚ) < d := Nat.cast_pos.mpr hd
  rw [truncate]
  by_cases hn : 0 ≤ n
  · have hvalue : (0 : ℚ) ≤ n / d := div_nonneg (Int.cast_nonneg hn) hpos.le
    rw [if_pos hvalue, Rat.floor_intCast_div_natCast, Int.tdiv_eq_ediv_of_nonneg hn]
  · have hneg : (n : ℚ) < 0 := Int.cast_lt_zero.mpr (not_le.mp hn)
    have hvalue : ¬ (0 : ℚ) ≤ n / d := not_le.mpr (div_neg_of_neg_of_pos hneg hpos)
    have habs : (-n).tdiv d = -n / d := Int.tdiv_eq_ediv_of_nonneg (by omega)
    rw [if_neg hvalue, Rat.ceil_intCast_div_natCast, ← habs, Int.neg_tdiv, neg_neg]

/-- The text has the quotient and the thousandths of the remainder. -/
theorem timestampText_eq (n : ℤ) :
    timestampText ((n : ℚ) / NSECONDS_IN_MSEC) =
      decimalInt (n.tdiv 1000000) ++ ascii "." ++ decimalInt ((n.tmod 1000000).tdiv 1000) := by
  have hvalue : (n : ℚ) / NSECONDS_IN_MSEC = n / (1000000 : ℕ) := rfl
  have hwhole : truncate ((n : ℚ) / (1000000 : ℕ)) = n.tdiv 1000000 :=
    truncate_div n 1000000 (by decide)
  have hleft : ((n : ℚ) / (1000000 : ℕ) - (n.tdiv 1000000 : ℤ)) * 1000 =
      (n.tmod 1000000 : ℤ) / (1000 : ℕ) := by
    have hsplit : (n : ℚ) = 1000000 * (n.tdiv 1000000 : ℤ) + (n.tmod 1000000 : ℤ) := by
      exact_mod_cast (Int.mul_tdiv_add_tmod n 1000000).symm
    rw [hsplit]
    push_cast
    ring
  rw [timestampText, hvalue, hwhole, hleft, truncate_div _ 1000 (by decide)]
  rfl

theorem decimalInt_no_space (i : ℤ) : ∀ c ∈ decimalInt i, c ≠ 32 := by
  have hdigits : ∀ c ∈ decimal i.natAbs, c ≠ 32 := by
    intro c hc
    exact ne_of_isDigit (decimal_isDigit _ c hc) (by decide)
  intro c hc
  rw [decimalInt] at hc
  split at hc
  · rcases List.mem_cons.mp hc with rfl | hc
    · decide
    · exact hdigits c hc
  · exact hdigits c hc

theorem timestampText_no_space (value : ℚ) : ∀ c ∈ timestampText value, c ≠ 32 := by
  intro c hc
  rw [timestampText, List.mem_append, List.mem_append] at hc
  rcases hc with (hc | hc) | hc
  · exact decimalInt_no_space _ c hc
  · obtain rfl : c = 46 := List.mem_singleton.mp hc
    decide
  · exact decimalInt_no_space _ c hc

/-- Neither the level nor the text that follows changes the number read. -/
theorem printedNumber_printTimestamp (value : ℚ) (lvl : ℤ) (str : CStr) :
    printedNumber (printTimestamp value lvl str) = readDecimal (timestampText value) := by
  have hline : printTimestamp value lvl str = ascii "CLONING_TRACE" ++
      32 :: (timestampText value ++ 32 :: (decimalInt lvl ++ ascii " " ++ str ++ ascii "\n")) := by
    have hprefix : ascii "CLONING_TRACE " = ascii "CLONING_TRACE" ++ [32] := by decide
    have hspace : ascii " " = [32] := by decide
    simp only [printTimestamp, hprefix, hspace, List.append_assoc, List.cons_append, List.nil_append]
  have hword : ∀ c ∈ ascii "CLONING_TRACE", decide (c ≠ 32) = true := by decide
  have htext : ∀ c ∈ timestampText value, decide (c ≠ 32) = true :=
    fun c hc => decide_eq_true (timestampText_no_space value c hc)
  rw [printedNumber, hline, List.dropWhile_append_of_pos hword, List.dropWhile_cons_of_neg (by decide),
    List.tail_cons, List.takeWhile_append_of_pos htext, List.takeWhile_cons_of_neg (by decide),
    List.append_nil]

/-! ## What is read -/

/-- The quotient and the thousandths, read with as many decimals as the thousandths have digits. -/
def readMsec (n : ℕ) : ℚ :=
  (n / 1000000 : ℕ) + (n % 1000000 / 1000 : ℕ) / 10 ^ (decimal (n % 1000000 / 1000)).length

theorem readDecimal_natural (n : ℕ) :
    readDecimal (timestampText (((n : ℤ) : ℚ) / NSECONDS_IN_MSEC)) = some (readMsec n) := by
  have hwhole : (n : ℤ).tdiv 1000000 = (n / 1000000 : ℕ) := rfl
  have hleft : ((n : ℤ).tmod 1000000).tdiv 1000 = (n % 1000000 / 1000 : ℕ) := rfl
  have hnat : ∀ k : ℕ, decimalInt k = decimal k := fun k => if_neg (by omega)
  rw [timestampText_eq, hwhole, hleft, hnat, hnat, readDecimal_decimal, readMsec]

/-- A negative number is not read, unless it is printed as zero. -/
theorem readDecimal_negative {n : ℤ} (hn : n < 0) {q : ℚ}
    (hq : readDecimal (timestampText ((n : ℚ) / NSECONDS_IN_MSEC)) = some q) : q = 0 := by
  rw [timestampText_eq] at hq
  by_cases hsign : n.tdiv 1000000 < 0 ∨ (n.tmod 1000000).tdiv 1000 < 0
  · rw [readDecimal_signed hsign] at hq
    exact absurd hq (Option.some_ne_none q).symm
  · have hsmall : n.tdiv 1000000 = 0 ∧ (n.tmod 1000000).tdiv 1000 = 0 := by
      obtain ⟨k, rfl⟩ : ∃ k : ℕ, n = -k := ⟨n.natAbs, by omega⟩
      have hwhole : (k : ℤ).tdiv 1000000 = (k / 1000000 : ℕ) := rfl
      have hleft : ((k : ℤ).tmod 1000000).tdiv 1000 = (k % 1000000 / 1000 : ℕ) := rfl
      rw [Int.neg_tdiv, Int.neg_tmod, Int.neg_tdiv, hwhole, hleft] at hsign ⊢
      omega
    rw [hsmall.1, hsmall.2] at hq
    have hzero : readDecimal (decimal 0 ++ ascii "." ++ decimal 0) = some q := hq
    rw [readDecimal_decimal] at hzero
    rw [← Option.some.inj hzero]
    simp

theorem readMsec_lt (n : ℕ) : readMsec n < n / 1000000 + 1 := by
  have hfrac : ((n % 1000000 / 1000 : ℕ) : ℚ) / 10 ^ (decimal (n % 1000000 / 1000)).length < 1 := by
    rw [div_lt_one (by positivity)]
    exact_mod_cast lt_pow_decimal_length _
  have hwhole : ((n / 1000000 : ℕ) : ℚ) ≤ n / 1000000 := Nat.cast_div_le
  rw [readMsec]
  linarith

/-- Digits behind the point count as thousandths when there are three of them. -/
theorem div_pow_eq_div_thousand_iff {f k : ℕ} (hf : f ≠ 0) :
    (f : ℚ) / 10 ^ k = f / 1000 ↔ k = 3 := by
  have hne : (f : ℚ) ≠ 0 := Nat.cast_ne_zero.mpr hf
  rw [div_eq_mul_inv, div_eq_mul_inv, mul_right_inj' hne, inv_inj]
  constructor
  · intro h
    have hnat : 10 ^ k = 10 ^ 3 := by exact_mod_cast h
    exact Nat.pow_right_injective (by decide) hnat
  · intro h
    rw [h]
    norm_num

/-- The thousandths are read as what they are when they have three digits. -/
theorem readMsec_eq_iff (n : ℕ) :
    readMsec n = ((n / 1000 : ℕ) : ℚ) / 1000 ↔
      n % 1000000 / 1000 = 0 ∨ 100 ≤ n % 1000000 / 1000 := by
  have hsplit : ((n / 1000 : ℕ) : ℚ) / 1000 =
      (n / 1000000 : ℕ) + (n % 1000000 / 1000 : ℕ) / 1000 := by
    have hnat : n / 1000 = n / 1000000 * 1000 + n % 1000000 / 1000 := by omega
    rw [hnat]
    push_cast
    ring
  have hlt : n % 1000000 / 1000 < 10 ^ 3 := by omega
  rw [readMsec, hsplit, add_right_inj]
  generalize n % 1000000 / 1000 = f at hlt ⊢
  rcases eq_or_ne f 0 with rfl | hf
  · simp
  · rw [div_pow_eq_div_thousand_iff hf, decimal_length_eq_iff (show 0 < 2 by decide)]
    constructor
    · exact fun h => .inr h.1
    · intro h
      exact ⟨h.resolve_left hf, hlt⟩

/-! ## Measurements read back -/

section Measurements
variable (m : Measurement)

theorem timespecDiffNsec_eq : timespecDiffNsec m.start m.stop = (m.nsec : ℤ).bmod (2 ^ 64) := by
  have hordered := m.ordered
  have hnsec : (m.nsec : ℤ) = nanos m.stop - nanos m.start := by
    rw [Measurement.nsec]
    omega
  simp only [timespecDiffNsec, timespecNsec, timeT, NSECONDS_IN_SEC, Int.bmod_add_bmod,
    Int.bmod_sub_bmod, Int.sub_bmod_bmod, hnsec, nanos]

theorem printed_eq (lvl : ℤ) (str : CStr) :
    m.printed lvl str = readDecimal
      (timestampText ((((m.nsec : ℤ).bmod (2 ^ 64) : ℤ) : ℚ) / NSECONDS_IN_MSEC)) := by
  rw [Measurement.printed, profileNestedTockMsec, printedNumber_printTimestamp, timespecDiffMsec,
    timespecDiffNsec_eq]

/-- What is printed of a measurement whose nanoseconds do not fit is too small. -/
theorem printed_small {q : ℚ} (hlarge : 2 ^ 63 ≤ m.nsec) (lvl : ℤ) (str : CStr)
    (hq : m.printed lvl str = some q) : q < m.truncatedMsec := by
  have hwhole : (m.nsec : ℚ) / 1000000 - 1 < m.truncatedMsec := by
    have hfloor : (m.nsec : ℚ) < (m.nsec / 1000 : ℕ) * 1000 + 1000 := by
      exact_mod_cast (show m.nsec < m.nsec / 1000 * 1000 + 1000 by omega)
    rw [Measurement.truncatedMsec]
    linarith
  rw [printed_eq] at hq
  by_cases hneg : (m.nsec : ℤ).bmod (2 ^ 64) < 0
  · rw [readDecimal_negative hneg hq]
    have hlarge' : (2 ^ 63 : ℚ) ≤ m.nsec := by exact_mod_cast hlarge
    linarith
  · -- the multiple of `2 ^ 64` that was lost is more than is read
    obtain ⟨n, hn⟩ := Int.eq_ofNat_of_zero_le (not_lt.mp hneg)
    have hlost : n + 2 ^ 64 ≤ m.nsec := by
      have hdvd := @Int.dvd_self_sub_bmod (m.nsec : ℤ) (2 ^ 64)
      have hlt := Int.bmod_lt (m := 2 ^ 64) (x := (m.nsec : ℤ)) (by decide)
      omega
    rw [hn, readDecimal_natural] at hq
    have hread := readMsec_lt n
    have hlost' : (n : ℚ) + 2 ^ 64 ≤ m.nsec := by exact_mod_cast hlost
    rw [← Option.some.inj hq]
    linarith

theorem readsBack_iff : m.ReadsBack ↔ m.ThreeDigits := by
  by_cases hfits : m.nsec < 2 ^ 63
  · have hwrap : (m.nsec : ℤ).bmod (2 ^ 64) = m.nsec := Int.bmod_eq_of_le (by omega) (by omega)
    have hread : ∀ lvl str, m.printed lvl str = some (readMsec m.nsec) := by
      intro lvl str
      rw [printed_eq, hwrap, readDecimal_natural]
    simp only [Measurement.ReadsBack, hread, Option.some.injEq, forall_const,
      Measurement.truncatedMsec, Measurement.ThreeDigits, hfits, true_and]
    exact readMsec_eq_iff m.nsec
  · apply iff_of_false
    · intro hread
      exact absurd (printed_small m (not_lt.mp hfits) 0 [] (hread 0 [])) (lt_irrefl _)
    · exact fun h => hfits h.1

end Measurements

theorem orderKept_of_readsBack {m₁ m₂ : Measurement} (h₁ : m₁.ReadsBack) (h₂ : m₂.ReadsBack) :
    m₁.OrderKept m₂ := by
  intro hle lvl₁ str₁ lvl₂ str₂ q₁ q₂ hq₁ hq₂
  rw [h₁] at hq₁
  rw [h₂] at hq₂
  rw [← Option.some.inj hq₁, ← Option.some.inj hq₂, Measurement.truncatedMsec,
    Measurement.truncatedMsec]
  have hnat : ((m₁.nsec / 1000 : ℕ) : ℚ) ≤ (m₂.nsec / 1000 : ℕ) :=
    Nat.cast_le.mpr (Nat.div_le_div_right hle)
  linarith

/-- Two measurements are printed as what they are, and in their order, exactly when the thousandths
of both have three digits or are zero, and both fit. -/
theorem profileNestedTockMsec_faithful_iff (m₁ m₂ : Measurement) :
    (m₁.ReadsBack ∧ m₂.ReadsBack ∧ m₁.OrderKept m₂) ↔ m₁.ThreeDigits ∧ m₂.ThreeDigits := by
  rw [← readsBack_iff, ← readsBack_iff]
  constructor
  · rintro ⟨h₁, h₂, -⟩
    exact ⟨h₁, h₂⟩
  · rintro ⟨h₁, h₂⟩
    exact ⟨h₁, h₂, orderKept_of_readsBack h₁ h₂⟩

/-- From zero to a number of nanoseconds below a second. -/
def elapsed (n : ℕ) (hn : n < 1000000000) : Measurement where
  start := ⟨0, 0⟩
  stop := ⟨0, n⟩
  start_normalised := ⟨by decide, by decide⟩
  stop_normalised := ⟨by norm_num, by dsimp only; omega⟩
  ordered := by
    simp only [nanos]
    omega

/-- With the quotient taken as exact, 1.005 ms are printed as 1.5, more than the 1.2 ms of a longer
measurement. (Divided as doubles the two print as 1.4 and 1.199, in the same wrong order.) -/
theorem profileNestedTockMsec_misread :
    ¬ (elapsed 1005000 (by decide)).ReadsBack ∧
      ¬ (elapsed 1005000 (by decide)).OrderKept (elapsed 1200000 (by decide)) := by
  have hshort : (elapsed 1005000 (by decide)).printed 0 [] = some (3 / 2) := by decide +kernel
  have hlong : (elapsed 1200000 (by decide)).printed 0 [] = some (6 / 5) := by decide +kernel
  constructor
  · intro hread
    rw [hread 0 []] at hshort
    exact absurd hshort (by decide +kernel)
  · intro hkept
    have hle := hkept (by decide) 0 [] 0 [] _ _ hshort hlong
    norm_num at hle

end CloningApps.Profile
