import Mathlib

/-! # C strings, numerals and decimal printing

A C string is its list of bytes before the terminating NUL. The `strto*`
family, `atoi` and `sscanf("%d")` share one reader for an optional sign and a
run of digits; the printing side is `%lu`, `%d` and the padded `%6.6lu`.
-/

namespace CloningApps.Text

abbrev Byte := UInt8
abbrev CStr := List Byte

/-- A string is checked byte by byte, rather than for all bytes there are. -/
instance CStr.decidableForallMem (s : CStr) (p : Byte → Prop) [DecidablePred p] :
    Decidable (∀ c ∈ s, p c) :=
  List.decidableBAll p s

instance Byte.decidableForallSome (o : Option Byte) (p : Byte → Prop) [DecidablePred p] :
    Decidable (∀ c, o = some c → p c) :=
  Option.decidableForallMem o

/-- `unsigned long` on the 64-bit targets of the applications. -/
abbrev ULong := BitVec 64

def ascii (s : String) : CStr := s.toList.map (fun c => c.toNat.toUInt8)

def isSpace (c : Byte) : Bool := c.toNat = 32 ∨ (9 ≤ c.toNat ∧ c.toNat ≤ 13)

def isDigit (c : Byte) : Bool := 48 ≤ c.toNat ∧ c.toNat ≤ 57

def digitByte (d : ℕ) : Byte := (48 + d).toUInt8

theorem digitByte_toNat (d : ℕ) (hd : d < 10) : (digitByte d).toNat = 48 + d := by
  simp only [digitByte, Nat.toUInt8_eq, UInt8.toNat_ofNat']
  omega

theorem isDigit_digitByte (d : ℕ) (hd : d < 10) : isDigit (digitByte d) = true := by
  simp [isDigit, digitByte_toNat d hd]
  omega

/-- The number a run of digits denotes, most significant digit first. -/
def digitsValue (ds : CStr) : ℕ := ds.foldl (fun v c => 10 * v + (c.toNat - 48)) 0

theorem digitsValue_append_singleton (ds : CStr) (c : Byte) :
    digitsValue (ds ++ [c]) = 10 * digitsValue ds + (c.toNat - 48) := by
  simp [digitsValue]

/-- Sign, digits and unread rest of a numeral, as the `strto*` functions see them. -/
structure Numeral where
  negative : Bool
  digits : CStr
  rest : CStr

def readDigits (negative : Bool) (s : CStr) : Numeral :=
  ⟨negative, s.takeWhile isDigit, s.dropWhile isDigit⟩

/-- Skip white space, take one optional sign, then the longest run of digits. -/
def readNumeral (s : CStr) : Numeral :=
  match s.dropWhile isSpace with
  | [] => ⟨false, [], []⟩
  | c :: t =>
    if c = 45 then readDigits true t
    else if c = 43 then readDigits false t
    else readDigits false (c :: t)

def ULONG_MAX : ULong := BitVec.allOnes 64

/-- `strtoul(s, &endptr, 10)`: the value and the string `endptr` points to. Without
digits nothing is consumed; out of range the value saturates. -/
def strtoul (s : CStr) : ULong × CStr :=
  let m := readNumeral s
  if m.digits = [] then (0, s)
  else if 2 ^ 64 ≤ digitsValue m.digits then (ULONG_MAX, m.rest)
  else if m.negative then (-BitVec.ofNat 64 (digitsValue m.digits), m.rest)
  else (BitVec.ofNat 64 (digitsValue m.digits), m.rest)

/-- `(int) strtol(...)` of the numeral read: saturated to `long`, then truncated. -/
def Numeral.toInt (m : Numeral) : ℤ :=
  let v : ℤ := if m.negative then -digitsValue m.digits else digitsValue m.digits
  (max (-2 ^ 63) (min v (2 ^ 63 - 1))).bmod (2 ^ 32)

def atoi (s : CStr) : ℤ := (readNumeral s).toInt

/-- `sscanf(s, "%d", &x)`: nothing is stored when no digits are found. -/
def sscanfD (s : CStr) : Option ℤ :=
  let m := readNumeral s
  if m.digits = [] then none else some m.toInt

theorem takeWhile_digits (ds rest : CStr) (hds : ∀ c ∈ ds, isDigit c = true)
    (hrest : ∀ c, rest.head? = some c → isDigit c = false) :
    (ds ++ rest).takeWhile isDigit = ds := by
  rw [List.takeWhile_append_of_pos hds]
  cases rest with
  | nil => simp
  | cons c t => simp [hrest c rfl]

theorem dropWhile_digits (ds rest : CStr) (hds : ∀ c ∈ ds, isDigit c = true)
    (hrest : ∀ c, rest.head? = some c → isDigit c = false) :
    (ds ++ rest).dropWhile isDigit = rest := by
  rw [List.dropWhile_append_of_pos hds]
  cases rest with
  | nil => simp
  | cons c t => simp [hrest c rfl]

theorem isSpace_of_isDigit {c : Byte} (h : isDigit c = true) : isSpace c = false := by
  simp [isDigit, isSpace] at h ⊢
  omega

theorem ne_of_isDigit {c d : Byte} (h : isDigit c = true) (hd : isDigit d = false) : c ≠ d := by
  rintro rfl
  simp [h] at hd

/-- An unsigned numeral is read whole, up to the first byte that is no digit. -/
theorem readNumeral_digits (ds rest : CStr) (hne : ds ≠ []) (hds : ∀ c ∈ ds, isDigit c = true)
    (hrest : ∀ c, rest.head? = some c → isDigit c = false) :
    readNumeral (ds ++ rest) = ⟨false, ds, rest⟩ := by
  obtain ⟨d, t, rfl⟩ := List.exists_cons_of_ne_nil hne
  have hd : isDigit d = true := hds d (by simp)
  have hskip : (d :: t ++ rest).dropWhile isSpace = d :: t ++ rest := by
    simp [isSpace_of_isDigit hd]
  have h45 : d ≠ 45 := ne_of_isDigit hd (by decide)
  have h43 : d ≠ 43 := ne_of_isDigit hd (by decide)
  rw [readNumeral, hskip, List.cons_append]
  simp only [h45, h43, if_false, readDigits]
  rw [← List.cons_append, takeWhile_digits _ _ hds hrest, dropWhile_digits _ _ hds hrest]

/-- A sign directly before the digits is consumed with them. -/
theorem readNumeral_signed (neg : Bool) (ds rest : CStr) (hds : ∀ c ∈ ds, isDigit c = true)
    (hrest : ∀ c, rest.head? = some c → isDigit c = false) :
    readNumeral ((if neg then 45 else 43) :: ds ++ rest) = ⟨neg, ds, rest⟩ := by
  cases neg <;>
    simp [readNumeral, isSpace, readDigits, takeWhile_digits _ _ hds hrest,
      dropWhile_digits _ _ hds hrest]

theorem strtoul_digits (ds rest : CStr) (hne : ds ≠ []) (hds : ∀ c ∈ ds, isDigit c = true)
    (hrest : ∀ c, rest.head? = some c → isDigit c = false) :
    strtoul (ds ++ rest) = (BitVec.ofNat 64 (min (digitsValue ds) (2 ^ 64 - 1)), rest) := by
  rw [strtoul, readNumeral_digits ds rest hne hds hrest]
  by_cases hv : 2 ^ 64 ≤ digitsValue ds
  · have hmin : min (digitsValue ds) (2 ^ 64 - 1) = 2 ^ 64 - 1 := by omega
    simp only [hne, if_false, hv, if_true, hmin, ULONG_MAX]
    rfl
  · have hmin : min (digitsValue ds) (2 ^ 64 - 1) = digitsValue ds := by omega
    simp only [hne, if_false, hv, hmin, Bool.false_eq_true]

theorem Numeral.toInt_of_range (m : Numeral) (v : ℤ)
    (hv : (if m.negative then -(digitsValue m.digits : ℤ) else digitsValue m.digits) = v)
    (hlo : -2 ^ 31 ≤ v) (hhi : v < 2 ^ 31) : m.toInt = v := by
  have hclamp : max (-2 ^ 63 : ℤ) (min v (2 ^ 63 - 1)) = v := by omega
  simp only [Numeral.toInt]
  rw [hv, hclamp]
  exact Int.bmod_eq_of_le (by omega) (by omega)

/-! ## Decimal printing -/

/-- `%lu`. -/
def decimal (n : ℕ) : CStr := (Nat.toDigits 10 n).map (fun c => c.toNat.toUInt8)

/-- `%d`. -/
def decimalInt (i : ℤ) : CStr := if i < 0 then 45 :: decimal i.natAbs else decimal i.natAbs

/-- A number printed with precision `w`, as in `%6.6lu`. -/
def zeroPadded (w n : ℕ) : CStr :=
  List.replicate (w - (decimal n).length) 48 ++ decimal n

theorem decimal_digit (d : ℕ) (hd : d < 10) : decimal d = [digitByte d] := by
  rw [decimal, Nat.toDigits_of_lt_base hd]
  interval_cases d <;> rfl

theorem decimal_step (n d : ℕ) (hn : 0 < n) (hd : d < 10) :
    decimal (10 * n + d) = decimal n ++ [digitByte d] := by
  rw [decimal, ← Nat.toDigits_append_toDigits (by decide) hn hd, List.map_append,
    ← decimal, ← decimal, decimal_digit d hd]

/-- Every printed number is one digit or a shorter printed number and a last digit. -/
theorem decimal_induction {P : ℕ → Prop} (digit : ∀ d < 10, P d)
    (step : ∀ n d, 0 < n → d < 10 → P n → P (10 * n + d)) (n : ℕ) : P n := by
  induction n using Nat.strong_induction_on with
  | _ n ih =>
    by_cases hn : n < 10
    · exact digit n hn
    · have hsplit : 10 * (n / 10) + n % 10 = n := by omega
      rw [← hsplit]
      exact step _ _ (by omega) (by omega) (ih (n / 10) (by omega))

theorem decimal_ne_nil (n : ℕ) : decimal n ≠ [] := by
  induction n using decimal_induction with
  | digit d hd => simp [decimal_digit d hd]
  | step n d hn hd ih => simp [decimal_step n d hn hd]

theorem decimal_isDigit (n : ℕ) : ∀ c ∈ decimal n, isDigit c = true := by
  induction n using decimal_induction with
  | digit d hd => simpa [decimal_digit d hd] using isDigit_digitByte d hd
  | step n d hn hd ih =>
    intro c hc
    rw [decimal_step n d hn hd, List.mem_append, List.mem_singleton] at hc
    rcases hc with hc | rfl
    · exact ih c hc
    · exact isDigit_digitByte d hd

@[simp] theorem digitsValue_decimal (n : ℕ) : digitsValue (decimal n) = n := by
  induction n using decimal_induction with
  | digit d hd => simp [decimal_digit d hd, digitsValue, digitByte_toNat d hd]
  | step n d hn hd ih =>
    rw [decimal_step n d hn hd, digitsValue_append_singleton, ih, digitByte_toNat d hd]
    omega

theorem readNumeral_decimal (n : ℕ) : readNumeral (decimal n) = ⟨false, decimal n, []⟩ := by
  have h := readNumeral_digits (decimal n) [] (decimal_ne_nil n) (decimal_isDigit n) (by simp)
  simpa using h

/-- Printing an `int` that is not negative and scanning it back is the identity. -/
theorem sscanfD_decimal (n : ℕ) (hn : n < 2 ^ 31) : sscanfD (decimal n) = some (n : ℤ) := by
  have hv := Numeral.toInt_of_range ⟨false, decimal n, []⟩ n (by simp) (by omega) (by omega)
  simp [sscanfD, readNumeral_decimal, decimal_ne_nil, hv]

end CloningApps.Text
