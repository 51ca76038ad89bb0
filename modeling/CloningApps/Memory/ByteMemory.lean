import Mathlib

/-! # Words in a byte-addressed memory

A memory gives every address its byte. A word of `n` bytes is stored lowest
byte first; addresses wrap at the end of the address space.
-/

namespace CloningApps.Memory
variable {w n : ℕ}

abbrev Bytes (w : ℕ) := BitVec w → BitVec 8

/-- The value of the `n` bytes from an address on. -/
def Bytes.value (m : Bytes w) (p : BitVec w) : ℕ → ℕ
  | 0 => 0
  | n + 1 => (m p).toNat + 256 * value m (p + 1) n

def Bytes.load (n : ℕ) (m : Bytes w) (p : BitVec w) : BitVec (8 * n) :=
  BitVec.ofNat (8 * n) (m.value p n)

def Bytes.store (m : Bytes w) (p : BitVec w) (v : BitVec (8 * n)) : Bytes w := fun x =>
  if (x - p).toNat < n then v.extractLsb' (8 * (x - p).toNat) 8 else m x

variable {m m' : Bytes w} {p q x : BitVec w} {v : BitVec (8 * n)}

theorem Bytes.store_of_le (h : n ≤ (x - p).toNat) : m.store p v x = m x :=
  if_neg (not_lt.mpr h)

theorem Bytes.store_offset (k : ℕ) (hk : k < n) (hn : n ≤ 2 ^ w) :
    (m.store p v (p + BitVec.ofNat w k)).toNat = v.toNat / 256 ^ k % 256 := by
  have hsub : (p + BitVec.ofNat w k - p).toNat = k := by
    rw [BitVec.add_comm, BitVec.add_sub_cancel, BitVec.toNat_ofNat, Nat.mod_eq_of_lt (by omega)]
  rw [store, if_pos (by omega), hsub, BitVec.extractLsb'_toNat, Nat.shiftRight_eq_div_pow,
    Nat.pow_mul]

theorem word_toNat_lt (v : BitVec (8 * n)) : v.toNat < 256 ^ n := by
  have hv := v.isLt
  rwa [Nat.pow_mul] at hv

theorem add_ofNat_succ (p : BitVec w) (k : ℕ) :
    p + BitVec.ofNat w k + 1 = p + BitVec.ofNat w (k + 1) := by
  rw [BitVec.add_assoc, BitVec.ofNat_add]
  rfl

theorem Bytes.value_store (hn : n ≤ 2 ^ w) (j k : ℕ) (hjk : k + j = n) :
    (m.store p v).value (p + BitVec.ofNat w k) j = v.toNat / 256 ^ k := by
  induction j generalizing k with
  | zero =>
    obtain rfl : k = n := hjk
    rw [value, Nat.div_eq_of_lt (word_toNat_lt v)]
  | succ j ih =>
    rw [value, store_offset k (by omega) hn, add_ofNat_succ, ih (k + 1) (by omega), Nat.pow_succ,
      ← Nat.div_div_eq_div_mul]
    exact Nat.mod_add_div _ _

theorem Bytes.load_store (hn : n ≤ 2 ^ w) : (m.store p v).load n p = v := by
  have hvalue := value_store (m := m) (p := p) (v := v) hn n 0 (by omega)
  simp only [BitVec.add_zero, pow_zero, Nat.div_one] at hvalue
  rw [load, hvalue, BitVec.ofNat_toNat, BitVec.setWidth_eq]

theorem Bytes.value_congr (j k : ℕ)
    (h : ∀ i < j, m (p + BitVec.ofNat w (k + i)) = m' (p + BitVec.ofNat w (k + i))) :
    m.value (p + BitVec.ofNat w k) j = m'.value (p + BitVec.ofNat w k) j := by
  induction j generalizing k with
  | zero => rfl
  | succ j ih =>
    have hhead := h 0 (by omega)
    have htail := ih (k + 1) (fun i hi => by
      have hi' := h (i + 1) (by omega)
      rwa [show k + 1 + i = k + (i + 1) by omega])
    rw [Nat.add_zero] at hhead
    rw [value, value, hhead, add_ofNat_succ, htail]

theorem Bytes.load_congr (h : ∀ k < n, m (p + BitVec.ofNat w k) = m' (p + BitVec.ofNat w k)) :
    m.load n p = m'.load n p := by
  have hvalue : m.value (p + BitVec.ofNat w 0) n = m'.value (p + BitVec.ofNat w 0) n := by
    apply value_congr
    intro i hi
    rw [Nat.zero_add]
    exact h i hi
  simp only [BitVec.add_zero] at hvalue
  rw [load, load, hvalue]

/-- An address outside of a word that does not wrap. -/
theorem le_sub_toNat (hp : p.toNat + n ≤ 2 ^ w) (hx : x.toNat < p.toNat ∨ p.toNat + n ≤ x.toNat) :
    n ≤ (x - p).toNat := by
  have hxlt := x.isLt
  have hplt := p.isLt
  rw [BitVec.toNat_sub]
  rcases hx with hx | hx
  · rw [Nat.mod_eq_of_lt (by omega)]
    omega
  · have hwrap : 2 ^ w - p.toNat + x.toNat = (x.toNat - p.toNat) + 2 ^ w := by omega
    rw [hwrap, Nat.add_mod_right, Nat.mod_eq_of_lt (by omega)]
    omega

/-- Storing one word leaves a word beside it as it was. -/
theorem Bytes.load_store_of_apart (hp : p.toNat + n ≤ 2 ^ w) (hq : q.toNat + n ≤ 2 ^ w)
    (hpq : p.toNat + n ≤ q.toNat ∨ q.toNat + n ≤ p.toNat) :
    (m.store p v).load n q = m.load n q := by
  apply load_congr
  intro k hk
  apply store_of_le
  have hadd : (q + BitVec.ofNat w k).toNat = q.toNat + k := by
    rw [BitVec.toNat_add, BitVec.toNat_ofNat, Nat.mod_eq_of_lt (a := k) (by omega),
      Nat.mod_eq_of_lt (by omega)]
  apply le_sub_toNat hp
  omega

end CloningApps.Memory
