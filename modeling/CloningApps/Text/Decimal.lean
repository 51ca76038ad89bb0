import CloningApps.Text.CString

/-! # Decimal fractions

How long printed numbers get, and what a text of digits, a point and more digits
denotes.
-/

namespace CloningApps.Text

theorem decimal_length_le (n : ℕ) : ∀ k, 0 < k → n < 10 ^ k → (decimal n).length ≤ k := by
  induction n using decimal_induction with
  | digit d hd =>
    intro k hk _
    rw [decimal_digit d hd, List.length_singleton]
    exact hk
  | step n d hn hd ih =>
    intro k hk hlt
    cases k with
    | zero => exact absurd hk (lt_irrefl 0)
    | succ k =>
      rw [Nat.pow_succ] at hlt
      have hpos : 0 < k := by
        rcases Nat.eq_zero_or_pos k with rfl | hk
        · rw [Nat.pow_zero] at hlt
          omega
        · exact hk
      rw [decimal_step n d hn hd, List.length_append, List.length_singleton]
      exact Nat.succ_le_succ (ih k hpos (by omega))

theorem lt_pow_decimal_length (n : ℕ) : n < 10 ^ (decimal n).length := by
  induction n using decimal_induction with
  | digit d hd =>
    rw [decimal_digit d hd]
    exact hd
  | step n d hn hd ih =>
    rw [decimal_step n d hn hd, List.length_append, List.length_singleton, Nat.pow_succ]
    omega

/-- The first digit is not zero, but for zero itself. -/
theorem decimal_length_eq_iff {n k : ℕ} (hk : 0 < k) :
    (decimal n).length = k + 1 ↔ 10 ^ k ≤ n ∧ n < 10 ^ (k + 1) := by
  have hlt := lt_pow_decimal_length n
  constructor
  · intro hlen
    rw [hlen] at hlt
    refine ⟨?_, hlt⟩
    by_contra hsmall
    have hshort := decimal_length_le n k hk (not_le.mp hsmall)
    omega
  · rintro ⟨hge, hle⟩
    have hlong := decimal_length_le n (k + 1) (Nat.succ_pos k) hle
    have hpow : 10 ^ k < 10 ^ (decimal n).length := hge.trans_lt hlt
    have hmore : k < (decimal n).length := (Nat.pow_lt_pow_iff_right (by decide)).mp hpow
    omega

theorem decimal_injective {m n : ℕ} (h : decimal m = decimal n) : m = n := by
  rw [← digitsValue_decimal m, h, digitsValue_decimal]

theorem decimal_ne_minus (n : ℕ) (rest : CStr) : decimal n ≠ 45 :: rest := by
  intro h
  have hdigit := decimal_isDigit n 45 (h ▸ List.mem_cons_self)
  exact absurd hdigit (by decide)

theorem decimalInt_injective {i j : ℤ} (h : decimalInt i = decimalInt j) : i = j := by
  rw [decimalInt, decimalInt] at h
  by_cases hi : i < 0
  · by_cases hj : j < 0
    · rw [if_pos hi, if_pos hj] at h
      have habs := decimal_injective (List.cons.inj h).2
      omega
    · rw [if_pos hi, if_neg hj] at h
      exact absurd h.symm (decimal_ne_minus _ _)
  · by_cases hj : j < 0
    · rw [if_neg hi, if_pos hj] at h
      exact absurd h (decimal_ne_minus _ _)
    · rw [if_neg hi, if_neg hj] at h
      have habs := decimal_injective h
      omega

/-- A sign and ten digits are enough for an `int`. -/
theorem decimalInt_length_le {i : ℤ} (hlo : -2 ^ 31 ≤ i) (hhi : i < 2 ^ 31) :
    (decimalInt i).length ≤ 11 := by
  have hlen := decimal_length_le i.natAbs 10 (by decide) (by omega)
  rw [decimalInt]
  split
  · exact Nat.succ_le_succ hlen
  · exact hlen.trans (by decide)

theorem zeroPadded_length {w n : ℕ} (hw : 0 < w) (hn : n < 10 ^ w) : (zeroPadded w n).length = w := by
  have hlen := decimal_length_le n w hw hn
  rw [zeroPadded, List.length_append, List.length_replicate]
  omega

theorem zeroPadded_isDigit (w n : ℕ) : ∀ c ∈ zeroPadded w n, isDigit c = true := by
  intro c hc
  rw [zeroPadded, List.mem_append] at hc
  rcases hc with hc | hc
  · rw [List.eq_of_mem_replicate hc]
    decide
  · exact decimal_isDigit n c hc

theorem digitsValue_replicate_zero (k : ℕ) (ds : CStr) :
    digitsValue (List.replicate k 48 ++ ds) = digitsValue ds := by
  induction k with
  | zero => rfl
  | succ k ih =>
    rw [List.replicate_succ, List.cons_append]
    exact ih

@[simp] theorem digitsValue_zeroPadded (w n : ℕ) : digitsValue (zeroPadded w n) = n := by
  rw [zeroPadded, digitsValue_replicate_zero, digitsValue_decimal]

/-- The number denoted by digits, a point, and more digits. -/
def readDecimal (s : CStr) : Option ℚ :=
  let whole := s.takeWhile isDigit
  let fraction := (s.dropWhile isDigit).tail
  if whole ≠ [] ∧ fraction ≠ [] ∧ s = whole ++ ascii "." ++ fraction ∧
      fraction.all isDigit = true then
    some (digitsValue whole + digitsValue fraction / 10 ^ fraction.length)
  else none

theorem readDecimal_digits {whole fraction : CStr} (hwhole : whole ≠ []) (hfraction : fraction ≠ [])
    (hw : ∀ c ∈ whole, isDigit c = true) (hf : ∀ c ∈ fraction, isDigit c = true) :
    readDecimal (whole ++ ascii "." ++ fraction) =
      some ((digitsValue whole : ℚ) + digitsValue fraction / 10 ^ fraction.length) := by
  have hpoint : ∀ c, (ascii "." ++ fraction).head? = some c → isDigit c = false := by
    intro c hc
    obtain rfl : 46 = c := Option.some.inj hc
    decide
  rw [readDecimal, List.append_assoc, takeWhile_digits _ _ hw hpoint,
    dropWhile_digits _ _ hw hpoint]
  apply if_pos
  exact ⟨hwhole, hfraction, by simp [ascii], List.all_eq_true.mpr hf⟩

theorem readDecimal_decimal (m n : ℕ) :
    readDecimal (decimal m ++ ascii "." ++ decimal n) =
      some ((m : ℚ) + n / 10 ^ (decimal n).length) := by
  rw [readDecimal_digits (decimal_ne_nil m) (decimal_ne_nil n) (decimal_isDigit m)
    (decimal_isDigit n), digitsValue_decimal, digitsValue_decimal]

/-- A sign before the point or behind it is not part of a decimal fraction. -/
theorem readDecimal_signed {i j : ℤ} (h : i < 0 ∨ j < 0) :
    readDecimal (decimalInt i ++ ascii "." ++ decimalInt j) = none := by
  rw [readDecimal]
  apply if_neg
  rintro ⟨hwhole, -, -, hfraction⟩
  by_cases hi : i < 0
  · rw [decimalInt, if_pos hi] at hwhole
    exact hwhole rfl
  · have hj := h.resolve_left hi
    have hpoint : ∀ c, (ascii "." ++ decimalInt j).head? = some c → isDigit c = false := by
      intro c hc
      obtain rfl : 46 = c := Option.some.inj hc
      decide
    rw [decimalInt, if_neg hi, List.append_assoc,
      dropWhile_digits _ _ (decimal_isDigit i.natAbs) hpoint] at hfraction
    have hsign : (45 : Byte) ∈ decimalInt j := by
      rw [decimalInt, if_pos hj]
      exact List.mem_cons_self
    exact absurd (List.all_eq_true.mp hfraction 45 hsign) (by decide)

theorem zeroPadded_ne_nil (w n : ℕ) : zeroPadded w n ≠ [] := by
  simp [zeroPadded, decimal_ne_nil]

/-- A number of units and a padded number of their `10 ^ w`-th parts. -/
theorem readDecimal_padded {w n : ℕ} (m : ℕ) (hw : 0 < w) (hn : n < 10 ^ w) :
    readDecimal (decimal m ++ ascii "." ++ zeroPadded w n) =
      some ((m : ℚ) + n / 10 ^ w) := by
  rw [readDecimal_digits (decimal_ne_nil m) (zeroPadded_ne_nil w n) (decimal_isDigit m)
    (zeroPadded_isDigit w n), digitsValue_decimal, digitsValue_zeroPadded, zeroPadded_length hw hn]

end CloningApps.Text
