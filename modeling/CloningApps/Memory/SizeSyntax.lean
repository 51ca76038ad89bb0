import CloningApps.Memory.Size

/-! # What is accepted as a size

`memsize_str2bytes` means to accept digits with an optional unit. It also accepts
what `strtoul` skips or leaves: white space and a sign in front, and any text
behind the number, which counts as bytes.
-/

namespace CloningApps.Memory
open Text

/-- Decimal digits and at most one unit. -/
def IsSize (s : CStr) : Prop :=
  ∃ (ds : CStr) (u : MemUnit), ds ≠ [] ∧ (∀ c ∈ ds, isDigit c = true) ∧ s = ds ++ u.suffix

/-- What is not a size is answered with zero, the value that the callers test for. -/
structure SizeRejected (osGetPageSize : BitVec 32) (osPageSize : ULong) (s : CStr) : Prop where
  bytes : memsizeStr2bytes s ≠ 0 → IsSize s
  pages : (memsizeStr2pages osGetPageSize osPageSize s).1 ≠ 0 → IsSize s

/-- What the text behind a number multiplies it by. -/
def unitFactor (rest : CStr) : ℕ :=
  if rest = ascii "KB" then 1024
  else if rest = ascii "MB" then 1024 ^ 2
  else if rest = ascii "GB" then 1024 ^ 3
  else 1

theorem unitFactor_cases (rest : CStr) :
    unitFactor rest = 1 ∨ unitFactor rest = 1024 ∨ unitFactor rest = 1024 ^ 2 ∨
      unitFactor rest = 1024 ^ 3 := by
  unfold unitFactor
  split_ifs <;> simp

theorem memsizeStr2bytes_eq_mul (s : CStr) :
    memsizeStr2bytes s = (strtoul s).1 * BitVec.ofNat 64 (unitFactor (strtoul s).2) := by
  rw [memsizeStr2bytes]
  generalize strtoul s = r
  obtain ⟨n, endptr⟩ := r
  dsimp only
  by_cases hn : n = 0
  · simp [hn]
  · have hB : ascii "B" ≠ ascii "KB" ∧ ascii "B" ≠ ascii "MB" ∧ ascii "B" ≠ ascii "GB" := by decide
    simp only [hn, if_false, unitFactor]
    split_ifs <;> simp_all [ascii]

/-- What `memsize_str2bytes` takes for zero. -/
def CountsAsZero (s : CStr) : Prop :=
  let m := readNumeral s
  m.digits = [] ∨
    (digitsValue m.digits < 2 ^ 64 ∧ 2 ^ 64 ∣ digitsValue m.digits * unitFactor m.rest)

theorem ofNat_eq_zero_iff (n : ℕ) : BitVec.ofNat 64 n = 0 ↔ 2 ^ 64 ∣ n := by
  rw [BitVec.toNat_eq, BitVec.toNat_ofNat]
  exact Nat.dvd_iff_mod_eq_zero.symm

theorem memsizeStr2bytes_eq_zero_iff (s : CStr) : memsizeStr2bytes s = 0 ↔ CountsAsZero s := by
  rw [memsizeStr2bytes_eq_mul, CountsAsZero, strtoul]
  generalize readNumeral s = m
  by_cases hdigits : m.digits = []
  · simp [hdigits]
  · by_cases hbig : 2 ^ 64 ≤ digitsValue m.digits
    · -- the saturated value is one less than zero, and so is not multiplied to zero
      simp only [hdigits, if_false, hbig, if_true, false_or, not_lt.mpr hbig, false_and, iff_false]
      rcases unitFactor_cases m.rest with h | h | h | h <;> rw [h] <;> decide
    · simp only [hdigits, if_false, hbig, false_or, not_le.mp hbig, true_and]
      have hmul : BitVec.ofNat 64 (digitsValue m.digits) * BitVec.ofNat 64 (unitFactor m.rest) =
          BitVec.ofNat 64 (digitsValue m.digits * unitFactor m.rest) :=
        (BitVec.ofNat_mul ..).symm
      split
      · rw [BitVec.neg_mul, hmul, ← ofNat_eq_zero_iff]
        exact neg_eq_zero
      · rw [hmul, ofNat_eq_zero_iff]

theorem memsizeStr2pages_ne_zero {osGetPageSize : BitVec 32} {osPageSize : ULong} {s : CStr}
    (h : (memsizeStr2pages osGetPageSize osPageSize s).1 ≠ 0) : memsizeStr2bytes s ≠ 0 := by
  intro hzero
  exact h (by simp [memsizeStr2pages, hzero])

/-- A string is handled as it should be exactly when it is a size, when no digits follow the white
space and the sign in front, or when the number, if it fits into 64 bits, is a multiple of
`2 ^ 64` once it is multiplied by its unit. -/
theorem sizeRejected_iff (osGetPageSize : BitVec 32) (osPageSize : ULong) (s : CStr) :
    SizeRejected osGetPageSize osPageSize s ↔ IsSize s ∨ CountsAsZero s := by
  rw [← memsizeStr2bytes_eq_zero_iff]
  constructor
  · intro h
    by_cases hzero : memsizeStr2bytes s = 0
    · exact .inr hzero
    · exact .inl (h.bytes hzero)
  · rintro (hsize | hzero)
    · exact ⟨fun _ => hsize, fun _ => hsize⟩
    · refine ⟨fun h => absurd hzero h, fun h => absurd hzero (memsizeStr2pages_ne_zero h)⟩

/-- Twelve with an unknown unit is twelve bytes, and so one page. -/
theorem sizeRejected_unknown_unit : ¬ SizeRejected 4096 0 (ascii "12xyz") := by
  intro h
  obtain ⟨ds, u, -, hds, hs⟩ := h.bytes (by decide)
  have hrest : (ascii "12xyz").dropWhile isDigit = u.suffix := by
    rw [hs, dropWhile_digits ds u.suffix hds u.suffix_head]
  cases u <;> exact absurd hrest (by decide)

end CloningApps.Memory
