import CloningApps.Text.CString

/-! # Memory sizes and page counts

`memsize_str2bytes` reads a decimal number with an optional unit and
`memsize_str2pages` rounds it up to whole pages, all in `unsigned long`.
The saturation of `strtoul`, the unit multiplication and the round-up addition
may each leave the 64-bit range; the last theorem says for which requests the
page count that comes back is the one asked for.
-/

namespace CloningApps.Memory
open Text

def memsizeStr2bytes (sizeStr : CStr) : ULong :=
  let (n, endptr) := strtoul sizeStr
  if n = 0 then n
  else if endptr = [] ∨ endptr = ascii "B" then n
  else if endptr = ascii "KB" then n * 1024
  else if endptr = ascii "MB" then n * (1024 * 1024)
  else if endptr = ascii "GB" then n * (1024 * 1024 * 1024)
  else n

/-- A counter below its bound does not wrap. -/
theorem counter_succ {i n : ULong} (h : i.toNat < n.toNat) : (i + 1).toNat = i.toNat + 1 := by
  have hn := n.isLt
  rw [BitVec.toNat_add]
  simp only [BitVec.ofNat_eq_ofNat, BitVec.toNat_ofNat]
  omega

/-- The macro `DIV_ROUND_UP`, whose addition wraps. -/
def divRoundUp (v d : ULong) : ULong := (v + d - 1) / d

/-- The global `os_page_size`, filled from `os_get_page_size` on first use. -/
def ensurePageSize (osGetPageSize : BitVec 32) (osPageSize : ULong) : ULong :=
  if osPageSize = 0 then osGetPageSize.signExtend 64 else osPageSize

/-- The page count and the value of `os_page_size` after the call. -/
def memsizeStr2pages (osGetPageSize : BitVec 32) (osPageSize : ULong) (sizeStr : CStr) :
    ULong × ULong :=
  let bytesNum := memsizeStr2bytes sizeStr
  if bytesNum = 0 then (0, osPageSize)
  else
    let osPageSize := ensurePageSize osGetPageSize osPageSize
    (divRoundUp bytesNum osPageSize, osPageSize)

inductive MemUnit where
  | none | B | KB | MB | GB
  deriving DecidableEq

def MemUnit.suffix : MemUnit → CStr
  | .none => []
  | .B => ascii "B"
  | .KB => ascii "KB"
  | .MB => ascii "MB"
  | .GB => ascii "GB"

def MemUnit.factor : MemUnit → ℕ
  | .none => 1
  | .B => 1
  | .KB => 1024
  | .MB => 1024 ^ 2
  | .GB => 1024 ^ 3

theorem MemUnit.suffix_head (u : MemUnit) : ∀ c, u.suffix.head? = some c → isDigit c = false := by
  cases u <;> decide

theorem memsizeStr2bytes_digits_eq (ds : CStr) (u : MemUnit) (hne : ds ≠ [])
    (hds : ∀ c ∈ ds, isDigit c = true) :
    memsizeStr2bytes (ds ++ u.suffix) =
      BitVec.ofNat 64 (min (digitsValue ds) (2 ^ 64 - 1)) * BitVec.ofNat 64 u.factor := by
  rw [memsizeStr2bytes, strtoul_digits ds u.suffix hne hds u.suffix_head]
  generalize BitVec.ofNat 64 (min (digitsValue ds) (2 ^ 64 - 1)) = n
  by_cases hn : n = 0
  · simp [hn]
  · simp only [hn, if_false]
    cases u with
    | none => exact (BitVec.mul_one n).symm
    | B => exact (BitVec.mul_one n).symm
    | KB => rfl
    | MB => rfl
    | GB => rfl

/-- A run of digits with a unit is scaled modulo `2 ^ 64`, after the saturation of `strtoul`. -/
theorem memsizeStr2bytes_digits (ds : CStr) (u : MemUnit) (hne : ds ≠ [])
    (hds : ∀ c ∈ ds, isDigit c = true) :
    (memsizeStr2bytes (ds ++ u.suffix)).toNat =
      min (digitsValue ds) (2 ^ 64 - 1) * u.factor % 2 ^ 64 := by
  rw [memsizeStr2bytes_digits_eq ds u hne hds, BitVec.toNat_mul, BitVec.toNat_ofNat,
    BitVec.toNat_ofNat, ← Nat.mul_mod]

/-- The round-up is exact while `v + d` stays within `2 ^ 64`; a wrapped sum is below `d`. -/
theorem divRoundUp_toNat (v d : ULong) (hv : v ≠ 0) (hd : d ≠ 0) :
    (divRoundUp v d).toNat =
      if v.toNat + d.toNat ≤ 2 ^ 64 then (v.toNat + d.toNat - 1) / d.toNat else 0 := by
  have hv' : 0 < v.toNat := Nat.pos_of_ne_zero (by simpa [BitVec.toNat_eq] using hv)
  have hd' : 0 < d.toNat := Nat.pos_of_ne_zero (by simpa [BitVec.toNat_eq] using hd)
  have hvlt := v.isLt
  have hdlt := d.isLt
  have hsum : (v + d - 1).toNat = (v.toNat + d.toNat - 1) % 2 ^ 64 := by
    rw [BitVec.toNat_sub, BitVec.toNat_add]
    simp only [BitVec.ofNat_eq_ofNat, BitVec.toNat_ofNat]
    omega
  rw [divRoundUp, BitVec.toNat_udiv, hsum]
  split_ifs with hfit
  · rw [Nat.mod_eq_of_lt (by omega)]
  · have hwrap : (v.toNat + d.toNat - 1) % 2 ^ 64 = v.toNat + d.toNat - 1 - 2 ^ 64 := by omega
    rw [hwrap]
    exact Nat.div_eq_of_lt (by omega)

/-- A round-up is zero when there is nothing to round or when its sum wraps. -/
theorem divRoundUp_eq_zero_iff (v d : ULong) (hd : d ≠ 0) :
    divRoundUp v d = 0 ↔ v.toNat = 0 ∨ 2 ^ 64 - d.toNat < v.toNat := by
  have hd' : 0 < d.toNat := Nat.pos_of_ne_zero (by simpa [BitVec.toNat_eq] using hd)
  have hdlt := d.isLt
  rw [BitVec.toNat_eq]
  by_cases hv : v = 0
  · have hsum : (d - 1).toNat = d.toNat - 1 := by
      rw [BitVec.toNat_sub]
      simp only [BitVec.ofNat_eq_ofNat, BitVec.toNat_ofNat]
      omega
    have hzero : (divRoundUp 0 d).toNat = 0 := by
      rw [divRoundUp, BitVec.toNat_udiv, zero_add, hsum]
      exact Nat.div_eq_of_lt (by omega)
    subst hv
    exact iff_of_true hzero (.inl rfl)
  · have hv' : v.toNat ≠ 0 := by simpa [BitVec.toNat_eq] using hv
    rw [divRoundUp_toNat v d hv hd]
    simp only [BitVec.ofNat_eq_ofNat, BitVec.toNat_ofNat, Nat.zero_mod, hv', false_or]
    split_ifs with hfit
    · have hpos : 0 < (v.toNat + d.toNat - 1) / d.toNat := Nat.div_pos (by omega) hd'
      omega
    · omega

/-- A round-up division covers the dividend, by less than one divisor too much. -/
theorem roundUp_bounds (b d : ℕ) (hb : 0 < b) (hd : 0 < d) :
    b ≤ (b + d - 1) / d * d ∧ ((b + d - 1) / d - 1) * d < b ∧ 0 < (b + d - 1) / d := by
  have hdiv := Nat.div_add_mod (b + d - 1) d
  have hmod := Nat.mod_lt (b + d - 1) hd
  have hpos : 0 < (b + d - 1) / d := Nat.div_pos (by omega) hd
  rw [Nat.mul_comm] at hdiv
  refine ⟨by omega, ?_, hpos⟩
  rw [Nat.sub_mul, one_mul]
  omega

/-- A page count that is not zero covers the bytes by less than one page, and can be multiplied
back. -/
theorem divRoundUp_mul_bounds (v d : ULong) (hd : d ≠ 0) (hp : divRoundUp v d ≠ 0) :
    v.toNat ≤ (divRoundUp v d).toNat * d.toNat ∧
      (divRoundUp v d).toNat * d.toNat < v.toNat + d.toNat ∧
      (divRoundUp v d).toNat * d.toNat < 2 ^ 64 := by
  have hd' : 0 < d.toNat := Nat.pos_of_ne_zero (by simpa [BitVec.toNat_eq] using hd)
  have hfits := mt (divRoundUp_eq_zero_iff v d hd).mpr hp
  push Not at hfits
  have hv : v ≠ 0 := by
    rintro rfl
    exact hfits.1 rfl
  obtain ⟨hle, hgt, hpos⟩ := roundUp_bounds v.toNat d.toNat (by omega) hd'
  rw [divRoundUp_toNat v d hv hd, if_pos (by omega)]
  rw [Nat.sub_mul, one_mul] at hgt
  omega

/-- The request `'<ds><u>'` comes back as its own page count or is rejected, and it is not
rejected while its round-up fits into `unsigned long`. -/
def SizeKept (osGetPageSize : BitVec 32) (osPageSize : ULong) (ds : CStr) (u : MemUnit) : Prop :=
  let ps := (ensurePageSize osGetPageSize osPageSize).toNat
  let p := (memsizeStr2pages osGetPageSize osPageSize (ds ++ u.suffix)).1.toNat
  let size := digitsValue ds * u.factor
  (p = 0 ∨ size ≤ p * ps ∧ (p - 1) * ps < size) ∧ (0 < size ∧ size ≤ 2 ^ 64 - ps → p ≠ 0)

instance (g : BitVec 32) (ps : ULong) (ds : CStr) (u : MemUnit) : Decidable (SizeKept g ps ds u) :=
  inferInstanceAs (Decidable (_ ∧ _))

theorem memsizeStr2pages_toNat (osGetPageSize : BitVec 32) (osPageSize : ULong) (s : CStr)
    (hps : ensurePageSize osGetPageSize osPageSize ≠ 0) :
    (memsizeStr2pages osGetPageSize osPageSize s).1.toNat =
      let ps := (ensurePageSize osGetPageSize osPageSize).toNat
      let b := (memsizeStr2bytes s).toNat
      if b = 0 ∨ 2 ^ 64 - ps < b then 0 else (b + ps - 1) / ps := by
  have hlt := (ensurePageSize osGetPageSize osPageSize).isLt
  by_cases hb : memsizeStr2bytes s = 0
  · simp [memsizeStr2pages, hb]
  · have hb' : (memsizeStr2bytes s).toNat ≠ 0 := by simpa [BitVec.toNat_eq] using hb
    simp only [memsizeStr2pages, hb, if_false, divRoundUp_toNat _ _ hb hps, hb', false_or]
    split_ifs <;> first | rfl | omega

/-- A requested size is kept exactly when it fits into 64 bits, or when what is left of the
(saturated) number after the unit multiplication wraps is zero or within one page of `2 ^ 64`,
so that the wrapped value is rejected. -/
theorem memsizeStr2pages_kept_iff (osGetPageSize : BitVec 32) (osPageSize : ULong) (ds : CStr)
    (u : MemUnit) (hne : ds ≠ []) (hds : ∀ c ∈ ds, isDigit c = true)
    (hps : ensurePageSize osGetPageSize osPageSize ≠ 0) :
    SizeKept osGetPageSize osPageSize ds u ↔
      digitsValue ds * u.factor < 2 ^ 64 ∨
        min (digitsValue ds) (2 ^ 64 - 1) * u.factor % 2 ^ 64 = 0 ∨
        2 ^ 64 - (ensurePageSize osGetPageSize osPageSize).toNat <
          min (digitsValue ds) (2 ^ 64 - 1) * u.factor % 2 ^ 64 := by
  have hpos : 0 < (ensurePageSize osGetPageSize osPageSize).toNat :=
    Nat.pos_of_ne_zero (by simpa [BitVec.toNat_eq] using hps)
  have hlt := (ensurePageSize osGetPageSize osPageSize).isLt
  have hfactor : 0 < u.factor := by cases u <;> decide
  simp only [SizeKept, memsizeStr2pages_toNat _ _ _ hps, memsizeStr2bytes_digits ds u hne hds]
  generalize (ensurePageSize osGetPageSize osPageSize).toNat = ps at hpos hlt ⊢
  set n := digitsValue ds
  set size := n * u.factor with hsize
  set b := min n (2 ^ 64 - 1) * u.factor % 2 ^ 64 with hbdef
  have hblt : b < 2 ^ 64 := Nat.mod_lt _ (by decide)
  by_cases hfit : size < 2 ^ 64
  · -- nothing saturates or wraps before the round-up
    have hn : n ≤ size := Nat.le_mul_of_pos_right n hfactor
    have hb : b = size := by
      rw [hbdef, Nat.min_eq_left (by omega), ← hsize, Nat.mod_eq_of_lt hfit]
    rw [hb]
    refine iff_of_true ?_ (Or.inl hfit)
    split_ifs with hrej
    · exact ⟨Or.inl rfl, by omega⟩
    · obtain ⟨hle, hgt, hp⟩ := roundUp_bounds size ps (by omega) hpos
      exact ⟨Or.inr ⟨hle, hgt⟩, by omega⟩
  · -- no page count below `2 ^ 64 / ps` covers the request, so only a rejection keeps it
    simp only [hfit, false_or]
    constructor
    · rintro ⟨h | ⟨hle, -⟩, -⟩
      · split_ifs at h with hrej
        · exact hrej
        · have hp := (roundUp_bounds b ps (by omega) hpos).2.2
          omega
      · split_ifs at hle with hrej
        · exact hrej
        · have hdiv := Nat.div_mul_le_self (b + ps - 1) ps
          omega
    · intro hrej
      rw [if_pos hrej]
      exact ⟨Or.inl rfl, by omega⟩

theorem memsizeStr2pages_kept_iff_gigabyte :
    SizeKept 4096 0 (ascii "1") .GB ↔ 1 * 1024 ^ 3 < 2 ^ 64 ∨
      min 1 (2 ^ 64 - 1) * 1024 ^ 3 % 2 ^ 64 = 0 ∨
      2 ^ 64 - (ensurePageSize 4096 0).toNat < min 1 (2 ^ 64 - 1) * 1024 ^ 3 % 2 ^ 64 :=
  memsizeStr2pages_kept_iff 4096 0 (ascii "1") .GB (by decide) (by decide) (by decide)

/-- `2 ^ 34 + 1` gigabytes come back as the pages of one gigabyte. -/
theorem memsizeStr2pages_shrinks :
    (memsizeStr2pages 4096 0 (ascii "17179869185GB")).1.toNat = 262144 ∧
      ¬ SizeKept 4096 0 (ascii "17179869185") .GB := by
  decide

end CloningApps.Memory
