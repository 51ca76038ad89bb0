import CloningApps.Interaction.Frame
import CloningApps.Memory.MiniosPages

/-! # One contract for the allocators of pages

The callers of `os_alloc_pages` rely on the same contract on every platform: the
code is `0` exactly when `*pstart` holds a block of the requested size. The
allocators below differ in how they report a failure, `mmap` with `MAP_FAILED`
and the others with `NULL`.
-/

namespace CloningApps.Memory
open Text Interaction
open Os (EINVAL ENOMEM Platform)

def MAP_FAILED : ℕ := 2 ^ 64 - 1

/-- The calls of the page functions on POSIX and on Unikraft; both allocators answer with a
pointer. -/
inductive BlockCall where
  | mmap (length : ULong)
  | munmap (start : ℕ) (length : ULong)
  | ukPalloc (pagesNum : ULong)
  | ukPfree (start : ℕ) (pagesNum : ULong)
  | store (addr value : ℕ)
  | assertFail
  | indeterminate

@[reducible] def BlockCall.Answer : BlockCall → Type
  | .mmap _ => ℕ
  | .munmap .. => ℤ
  | .ukPalloc _ => ℕ
  | .ukPfree .. => Unit
  | .store .. => Unit
  | .assertFail => Empty
  | .indeterminate => ℤ

abbrev blockInterface : Interface := ⟨BlockCall, BlockCall.Answer⟩

abbrev BlockProg := Prog blockInterface

def mmap (length : ULong) : BlockProg ℕ := @Prog.ask blockInterface (.mmap length)

def ukPalloc (pagesNum : ULong) : BlockProg ℕ := @Prog.ask blockInterface (.ukPalloc pagesNum)

/-- The code returned and what is stored in `*pstart`. -/
def osAllocPagesPosix (pageSize pagesNum : ULong) : BlockProg (ℤ × Option ℕ) := do
  let length := pageSize * pagesNum
  let start ← mmap length
  if start ≠ 0 then
    return (0, some start)
  else
    return (-ENOMEM, none)

def osFreePagesPosix (pageSize : ULong) (start : ℕ) (pagesNum : ULong) : BlockProg ℤ := do
  if start &&& (pageSize - 1).toNat ≠ 0 then
    return -EINVAL
  let length := pageSize * pagesNum
  @Prog.ask blockInterface (.munmap start length)

/-- `rc` is only assigned when the allocator fails. -/
def osAllocPagesUnikraft (pagesNum : ULong) : BlockProg (ℤ × Option ℕ) := do
  let start ← ukPalloc pagesNum
  if start ≠ 0 then
    let rc ← @Prog.ask blockInterface .indeterminate
    return (rc, some start)
  else
    return (-ENOMEM, none)

/-! ## The contract -/

/-- The address of a block is not the null pointer. -/
abbrev Address := {start : ℕ // 0 < start}

/-- What an allocator handed out. -/
structure Extent where
  start : ℕ
  bytes : ℕ
  deriving DecidableEq

/-- The pointer an allocator answers with, given the one that says that it failed. -/
def pointer (failed : ℕ) : Option Address → ℕ
  | some start => start
  | none => failed

/-- `mmap` or `uk_palloc` with a given outcome; the world is the block that was obtained. -/
def blockEnv (shift : ℕ) (outcome : Option Address) : Env blockInterface (Option Extent) where
  legal
    | _, .mmap _, start => start = pointer MAP_FAILED outcome
    | _, .ukPalloc _, start => start = pointer 0 outcome
    | _, _, _ => True
  effect
    | _, .mmap length, _ => outcome.map (fun start => ⟨start, length.toNat⟩)
    | _, .ukPalloc pagesNum, _ => outcome.map (fun start => ⟨start, 2 ^ shift * pagesNum.toNat⟩)
    | block, _, _ => block
  drift := fun _ _ => False

/-- `alloc_pages` of Mini-OS with a given outcome. -/
def orderEnv (shift : ℕ) (outcome : Option Address) : Env pageInterface (Option Extent) where
  legal
    | _, .allocPages _, start => start = outcome.map Subtype.val
    | _, _, _ => True
  effect
    | _, .allocPages order, _ => outcome.map (fun start => ⟨start, 2 ^ shift * 2 ^ order⟩)
    | block, _, _ => block
  drift := fun _ _ => False

variable {shift : ℕ} {outcome : Option Address} {pagesNum : ULong} {rc : ℤ}

theorem blockEnv_still : (blockEnv shift outcome).Still := fun _ _ h => h

theorem orderEnv_still : (orderEnv shift outcome).Still := fun _ _ h => h

/-- The block obtained holds as many pages as were asked for. -/
def Holds (shift : ℕ) (pagesNum : ULong) (block : Option Extent) (start : ℕ) : Prop :=
  block = some ⟨start, 2 ^ shift * pagesNum.toNat⟩

/-- `0` comes with such a block, stored in `*pstart`; any other code with nothing. -/
def AllocContract (shift : ℕ) (pagesNum : ULong) (r : ℤ × Option ℕ) (block : Option Extent) :
    Prop :=
  (r.1 = 0 ↔ ∃ start, Holds shift pagesNum block start ∧ r.2 = some start) ∧
    (r.1 ≠ 0 → (∀ start, ¬ Holds shift pagesNum block start) ∧ r.2 = none)

/-- Every run keeps the contract, and all of them return the same code. -/
def KeepsContract {I : Interface} (E : Env I (Option Extent)) (shift : ℕ) (pagesNum : ULong)
    (p : Prog I (ℤ × Option ℕ)) : Prop :=
  ∃ rc, Safe E (fun _ _ => True) (fun r block => r.1 = rc ∧ AllocContract shift pagesNum r block)
    p none

def MeetsAllocContract (os : Platform) (shift : ℕ) (outcome : Option Address) (pagesNum : ULong) :
    Prop :=
  match os with
  | .posix =>
    KeepsContract (blockEnv shift outcome) shift pagesNum
      (osAllocPagesPosix (BitVec.ofNat 64 (2 ^ shift)) pagesNum)
  | .unikraft =>
    KeepsContract (blockEnv shift outcome) shift pagesNum (osAllocPagesUnikraft pagesNum)
  | .minios => KeepsContract (orderEnv shift outcome) shift pagesNum (osAllocPages pagesNum)

theorem allocContract_obtained (start : ℕ) :
    AllocContract shift pagesNum (0, some start) (some ⟨start, 2 ^ shift * pagesNum.toNat⟩) :=
  ⟨⟨fun _ => ⟨start, rfl, rfl⟩, fun _ => rfl⟩, fun h => absurd rfl h⟩

theorem allocContract_failed (h : rc ≠ 0) : AllocContract shift pagesNum (rc, none) none :=
  ⟨⟨fun hzero => absurd hzero h, by simp⟩, fun _ => ⟨by simp [Holds], rfl⟩⟩

/-- With the code `0` the contract is about the block alone. -/
theorem AllocContract.holds {r : ℤ × Option ℕ} {block : Option Extent}
    (h : AllocContract shift pagesNum r block) (hrc : r.1 = 0) :
    ∃ start, Holds shift pagesNum block start := by
  obtain ⟨start, hholds, -⟩ := h.1.mp hrc
  exact ⟨start, hholds⟩

/-! ## POSIX -/

theorem length_toNat (shift : ℕ) (pagesNum : ULong) :
    (BitVec.ofNat 64 (2 ^ shift) * pagesNum).toNat = 2 ^ shift * pagesNum.toNat ↔
      2 ^ shift * pagesNum.toNat < 2 ^ 64 := by
  rw [BitVec.toNat_mul, BitVec.toNat_ofNat, Nat.mod_mul_mod]
  exact Nat.mod_eq_iff_lt (by decide)

/-- Whatever `mmap` answers, the code is `0`. -/
theorem posix_keeps_iff :
    MeetsAllocContract .posix shift outcome pagesNum ↔
      outcome ≠ none ∧ 2 ^ shift * pagesNum.toNat < 2 ^ 64 := by
  have hE := @blockEnv_still shift outcome
  have hne : pointer MAP_FAILED outcome ≠ 0 := by
    cases outcome with
    | none => decide
    | some start => exact start.2.ne'
  constructor
  · rintro ⟨rc, h⟩
    have hmapped := ((safe_call_iff hE).mp h).2 (pointer MAP_FAILED outcome) rfl
    simp only [Prog.bind, hne, ne_eq, not_false_eq_true, if_true] at hmapped
    obtain ⟨-, hcontract⟩ := (safe_ret_iff hE).mp hmapped
    obtain ⟨start, hholds⟩ := hcontract.holds rfl
    cases outcome with
    | none => cases hholds
    | some addr =>
      have hbytes := congrArg Extent.bytes (Option.some.inj hholds)
      exact ⟨Option.some_ne_none addr, (length_toNat shift pagesNum).mp hbytes⟩
  · rintro ⟨hsome, hlt⟩
    refine ⟨0, Safe.call hE trivial (fun start hstart => ?_)⟩
    obtain rfl : start = pointer MAP_FAILED outcome := hstart
    simp only [Prog.bind, hne, ne_eq, not_false_eq_true, if_true]
    apply Safe.ret hE
    cases outcome with
    | none => exact absurd rfl hsome
    | some addr =>
      have hbytes := (length_toNat shift pagesNum).mpr hlt
      refine ⟨rfl, ?_⟩
      simp only [blockEnv, pointer, hbytes]
      exact allocContract_obtained addr

/-! ## Unikraft -/

/-- On success the code is whatever was on the stack. -/
theorem unikraft_keeps_iff :
    MeetsAllocContract .unikraft shift outcome pagesNum ↔ outcome = none := by
  have hE := @blockEnv_still shift outcome
  constructor
  · rintro ⟨rc, h⟩
    by_contra hsome
    have hne : pointer 0 outcome ≠ 0 := by
      cases outcome with
      | none => exact absurd rfl hsome
      | some start => exact start.2.ne'
    have hanswered := ((safe_call_iff hE).mp h).2 (pointer 0 outcome) rfl
    simp only [Prog.bind, hne, ne_eq, not_false_eq_true, if_true] at hanswered
    have hzero := ((safe_call_iff hE).mp hanswered).2 (0 : ℤ) trivial
    have hone := ((safe_call_iff hE).mp hanswered).2 (1 : ℤ) trivial
    have h0 : (0 : ℤ) = rc := ((safe_ret_iff hE).mp hzero).1
    have h1 : (1 : ℤ) = rc := ((safe_ret_iff hE).mp hone).1
    omega
  · rintro rfl
    refine ⟨-ENOMEM, Safe.call hE trivial (fun start hstart => ?_)⟩
    obtain rfl : start = 0 := hstart
    simp only [Prog.bind, ne_eq, not_true_eq_false, if_false]
    exact Safe.ret hE ⟨rfl, allocContract_failed (by decide)⟩

/-! ## Mini-OS -/

/-- The order that is found in a power of two with a bit in its low word. -/
theorem lowestBit_of_isPowerOfTwo (h : isPowerOfTwo pagesNum = true)
    (hlow : pagesNum.truncate 32 ≠ (0 : BitVec 32)) :
    ∃ order, lowestBit (pagesNum.truncate 32) = some order ∧ pagesNum.toNat = 2 ^ order := by
  cases hbit : lowestBit (pagesNum.truncate 32) with
  | none => exact absurd (lowestBit_eq_none hbit) hlow
  | some order =>
    refine ⟨order, rfl, ?_⟩
    have hset : pagesNum.toNat.testBit order = true := by
      have hmem : (pagesNum.truncate 32).getLsbD order = true := List.find?_some hbit
      rw [BitVec.truncate_eq_setWidth, BitVec.getLsbD_setWidth, Bool.and_eq_true] at hmem
      exact hmem.2
    have hne : pagesNum.toNat ≠ 0 := by
      intro hzero
      rw [hzero] at hset
      simp at hset
    have hand : pagesNum.toNat &&& (pagesNum.toNat - 1) = 0 := by
      have hvec : pagesNum &&& (pagesNum - 1) = 0 := of_decide_eq_true h
      have hsub : (pagesNum - 1).toNat = pagesNum.toNat - 1 := by
        have hlt := pagesNum.isLt
        have hone : (1 : ULong).toNat = 1 := rfl
        rw [BitVec.toNat_sub, hone]
        omega
      rw [← hsub, ← BitVec.toNat_and, hvec]
      rfl
    obtain ⟨j, hj⟩ := (Nat.and_sub_one_eq_zero_iff_isPowerOfTwo hne).mp hand
    rw [hj, Nat.testBit_two_pow] at hset
    rw [hj, of_decide_eq_true hset]

/-- A power of two that `__builtin_ctz` cannot tell from zero. -/
theorem minios_undefined {addr : Address} (hpow : isPowerOfTwo pagesNum = true)
    (hlow : pagesNum.truncate 32 = (0 : BitVec 32)) :
    ¬ MeetsAllocContract .minios shift (some addr) pagesNum := by
  have hE := @orderEnv_still shift (some addr)
  rintro ⟨rc, h⟩
  have hzero : lowestBit (pagesNum.truncate 32) = none := by
    rw [hlow]
    decide
  simp only [osAllocPages, hpow, Bool.not_true, Bool.false_eq_true, if_false, builtinCtz,
    hzero] at h
  -- the order may as well be zero, and one page is not what was asked for
  have horder := ((safe_call_iff hE).mp h).2 (0 : ℕ) trivial
  let start : Option ℕ := some addr.val
  have hblock := ((safe_call_iff hE).mp horder).2 start rfl
  obtain ⟨-, hcontract⟩ := (safe_ret_iff hE).mp hblock
  obtain ⟨start, hholds⟩ := hcontract.holds rfl
  have hbytes : 2 ^ shift * 2 ^ 0 = 2 ^ shift * pagesNum.toNat :=
    congrArg Extent.bytes (Option.some.inj hholds)
  have hone : pagesNum.toNat = 1 := (Nat.eq_of_mul_eq_mul_left (Nat.two_pow_pos shift) hbytes).symm
  have hpages : pagesNum = 1 := BitVec.eq_of_toNat_eq hone
  rw [hpages] at hlow
  exact absurd hlow (by decide)

/-- An allocator that fails is reported, whatever the order was. -/
theorem minios_refused : MeetsAllocContract .minios shift none pagesNum := by
  have hE := @orderEnv_still shift none
  cases hpow : isPowerOfTwo pagesNum with
  | false =>
    refine ⟨-1, ?_⟩
    simp only [osAllocPages, hpow, Bool.not_false, if_true]
    exact Safe.ret hE ⟨rfl, allocContract_failed (by decide)⟩
  | true =>
    refine ⟨-ENOMEM, ?_⟩
    simp only [osAllocPages, hpow, Bool.not_true, Bool.false_eq_true, if_false]
    apply Safe.bind
    have hcalls : OnlyCalls (fun c : PageCall => c = .indeterminate) (builtinCtz pagesNum) := by
      unfold builtinCtz
      split
      · exact .ret _
      · exact .call rfl (fun _ => .ret _)
    apply (Safe.frame (· = none) (hE.stable _) (fun _ _ _ _ => trivial) ?_ hcalls rfl).mono
    · rintro order _ rfl
      apply Safe.call hE trivial
      intro start hstart
      obtain rfl : start = none := hstart
      exact Safe.ret hE ⟨rfl, allocContract_failed (by decide)⟩
    · rintro _ _ _ rfl rfl _
      rfl

theorem minios_obtained {addr : Address} {order : ℕ} (hpow : isPowerOfTwo pagesNum = true)
    (hbit : lowestBit (pagesNum.truncate 32) = some order) (hpages : pagesNum.toNat = 2 ^ order) :
    MeetsAllocContract .minios shift (some addr) pagesNum := by
  have hE := @orderEnv_still shift (some addr)
  refine ⟨0, ?_⟩
  simp only [osAllocPages, hpow, Bool.not_true, Bool.false_eq_true, if_false, builtinCtz, hbit]
  apply Safe.call hE trivial
  intro start hstart
  obtain rfl : start = some addr.val := hstart
  apply Safe.ret hE
  refine ⟨rfl, ?_⟩
  have hcontract := @allocContract_obtained shift pagesNum addr
  rw [hpages] at hcontract
  exact hcontract

/-- Where `__builtin_ctz` is undefined, the block has any order. -/
theorem minios_keeps_iff :
    MeetsAllocContract .minios shift outcome pagesNum ↔
      outcome = none ∨ isPowerOfTwo pagesNum = false ∨
        pagesNum.truncate 32 ≠ (0 : BitVec 32) := by
  have hE := @orderEnv_still shift outcome
  cases outcome with
  | none => exact iff_of_true minios_refused (.inl rfl)
  | some addr =>
    cases hpow : isPowerOfTwo pagesNum with
    | false =>
      refine iff_of_true ⟨-1, ?_⟩ (.inr (.inl rfl))
      simp only [osAllocPages, hpow, Bool.not_false, if_true]
      exact Safe.ret hE ⟨rfl, allocContract_failed (by decide)⟩
    | true =>
      by_cases hlow : pagesNum.truncate 32 = (0 : BitVec 32)
      · apply iff_of_false (minios_undefined hpow hlow)
        simp [hlow]
      · obtain ⟨order, hbit, hpages⟩ := lowestBit_of_isPowerOfTwo hpow hlow
        exact iff_of_true (minios_obtained hpow hbit hpages) (.inr (.inr hlow))

/-! ## All three -/

/-- The inputs and outcomes on which a platform keeps the contract. -/
def Kept (os : Platform) (shift : ℕ) (outcome : Option Address) (pagesNum : ULong) : Prop :=
  match os with
  | .posix => outcome ≠ none ∧ 2 ^ shift * pagesNum.toNat < 2 ^ 64
  | .unikraft => outcome = none
  | .minios =>
    outcome = none ∨ isPowerOfTwo pagesNum = false ∨ pagesNum.truncate 32 ≠ (0 : BitVec 32)

theorem osAllocPages_contract_iff (os : Platform) (shift : ℕ) (outcome : Option Address)
    (pagesNum : ULong) :
    MeetsAllocContract os shift outcome pagesNum ↔ Kept os shift outcome pagesNum := by
  cases os with
  | posix => exact posix_keeps_iff
  | unikraft => exact unikraft_keeps_iff
  | minios => exact minios_keeps_iff

/-- `mmap` fails, the code is `0` and `MAP_FAILED` is stored; `uk_palloc` succeeds and the code is
not determined; a request for no pages on Mini-OS is answered with a block of any size. -/
theorem osAllocPages_breaks :
    ¬ MeetsAllocContract .posix 12 none 1 ∧
      ¬ MeetsAllocContract .unikraft 12 (some ⟨4096, by decide⟩) 1 ∧
      ¬ MeetsAllocContract .minios 12 (some ⟨4096, by decide⟩) 0 := by
  refine ⟨fun h => ?_, fun h => ?_, minios_undefined (by decide) (by decide)⟩
  · exact (posix_keeps_iff.mp h).1 rfl
  · exact absurd (unikraft_keeps_iff.mp h) (Option.some_ne_none _)

end CloningApps.Memory
