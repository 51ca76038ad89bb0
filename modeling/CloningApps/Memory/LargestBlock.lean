import CloningApps.Interaction.Always
import CloningApps.Memory.AllocContract

/-! # The search for the largest block

Both platforms that implement `os_alloc_max_contiguous_memory` try one order
after the other until the allocator refuses, and free each block again. The last
allocation is not checked: it succeeds because the allocator is back in the state
in which the same request succeeded before. Nothing else is asked of the
allocator, whose states are left open.
-/

namespace CloningApps.Memory
open Text Interaction

variable {S : Type}

/-! ## The allocator -/

/-- An allocator of blocks of pages: where it may place a block in a state, and the states it gets
to when a block is handed out or given back. -/
structure BlockAllocator (S : Type) where
  pages : ℕ
  shift : ℕ
  offers : S → ℕ → ℕ → Prop
  taken : S → ℕ → ℕ → S
  released : S → ℕ → ℕ → S
  shift_lt : shift < 31
  offers_le : ∀ s n start, offers s n start → n ≤ pages
  offers_pos : ∀ s n start, offers s n start → 0 < start
  offers_aligned : ∀ s n start, offers s n start → 2 ^ shift ∣ start

namespace BlockAllocator
variable (A : BlockAllocator S)

/-- A request for `n` pages succeeds. -/
def Serves (s : S) (n : ℕ) : Prop := ∃ start, A.offers s n start

/-- A smaller block can be had whenever a larger one can. -/
def ServesSmaller (s : S) : Prop := ∀ k n, 2 ^ k ≤ n → A.Serves s n → A.Serves s (2 ^ k)

/-- Freeing a block just allocated restores the state. -/
def Restores (s : S) : Prop :=
  ∀ n start, A.offers s n start → A.released (A.taken s n start) n start = s

/-- The allocator of Mini-OS, which is asked for orders. -/
def orderEnv : Env pageInterface S where
  legal
    | s, .allocPages order, some start => A.offers s (2 ^ order) start
    | s, .allocPages order, none => ¬ A.Serves s (2 ^ order)
    | _, _, _ => True
  effect
    | s, .allocPages order, some start => A.taken s (2 ^ order) start
    | s, .freePages start order, _ => A.released s (2 ^ order) start
    | s, _, _ => s
  drift := fun _ _ => False

/-- The allocator of Unikraft, which is asked for numbers of pages. -/
def pagesEnv : Env blockInterface S where
  legal
    | s, .ukPalloc pagesNum, start =>
      A.offers s pagesNum.toNat start ∨ start = 0 ∧ ¬ A.Serves s pagesNum.toNat
    | _, _, _ => True
  effect
    | s, .ukPalloc pagesNum, start => if start ≠ 0 then A.taken s pagesNum.toNat start else s
    | s, .ukPfree start pagesNum, _ => A.released s pagesNum.toNat start
    | s, _, _ => s
  drift := fun _ _ => False

/-- What the search leaves when it starts in the state `s`: `-1` and no change if there is not even
one page, and else `0` and one block of the largest order. -/
structure LargestFound (s : S) (rc : ℤ) (stored : Option (ℕ × ULong)) (s' : S) : Prop where
  failed_iff : rc = -1 ↔ ¬ A.Serves s 1
  unchanged : rc = -1 → s' = s
  found : rc ≠ -1 → rc = 0 ∧ ∃ start pagesNum k, stored = some (start, pagesNum) ∧ start ≠ 0 ∧
    pagesNum.toNat = 2 ^ k ∧ A.offers s (2 ^ k) start ∧ s' = A.taken s (2 ^ k) start ∧
    ∀ j, A.Serves s (2 ^ j) → j ≤ k

end BlockAllocator

/-! ## Unikraft -/

/-- The one of an `int` shifted, also into the sign bit, and converted to `unsigned long`. -/
def shiftedOne (order : ℕ) : ULong := ((1 : BitVec 32) <<< order).signExtend 64

/-- `1 << order` for `pages_num`. The compiler defines a shift into the sign bit, but no longer
one. -/
def shiftOneUnikraft (order : ℕ) : BlockProg ULong :=
  if order < 32 then return shiftedOne order
  else do return BitVec.ofInt 64 (← @Prog.ask blockInterface .indeterminate)

def tryOrderUnikraft (pageSize : ULong) (order : ℕ) : BlockProg (ℕ ⊕ ℕ) := do
  let pagesNum ← shiftOneUnikraft order
  let start ← ukPalloc pagesNum
  if start &&& (pageSize - 1).toNat ≠ 0 then
    let nothing ← @Prog.ask blockInterface .assertFail
    return nothing.elim
  if start ≠ 0 then
    @Prog.ask blockInterface (.store start order)
    @Prog.ask blockInterface (.ukPfree start pagesNum)
    return .inl (order + 1)
  else
    return .inr order

/-- The returned code and what is stored in `*pstart` and `*ppages_num`. -/
def osAllocMaxContiguousMemoryUnikraft (pageSize : ULong) :
    BlockProg (ℤ × Option (ℕ × ULong)) := do
  let order ← Prog.iterate (tryOrderUnikraft pageSize) 0
  if order ≠ 0 then
    let pagesNum ← shiftOneUnikraft (order - 1)
    let start ← ukPalloc pagesNum
    return (0, some (start, pagesNum))
  else
    return (-1, none)

theorem shiftedOne_toNat {order : ℕ} (h : order < 31) : (shiftedOne order).toNat = 2 ^ order := by
  interval_cases order <;> rfl

/-- In the sign bit the one becomes a number of pages that no memory has. -/
theorem shiftedOne_top : (shiftedOne 31).toNat = 2 ^ 64 - 2 ^ 31 := rfl

/-! ## The search -/

section Search
variable {A : BlockAllocator S} {s : S} {order : ℕ}

/-- The state is the initial one, and the order below the current one could be allocated. -/
structure Probing (A : BlockAllocator S) (s : S) (order : ℕ) (s' : S) : Prop where
  state : s' = s
  below : order ≠ 0 → A.Serves s (2 ^ (order - 1))

theorem Probing.start : Probing A s 0 s := ⟨rfl, fun h => absurd rfl h⟩

/-- A block that was obtained and freed leaves the next order to be tried. -/
theorem Probing.next (hrestores : A.Restores s) {start : ℕ} (h : A.offers s (2 ^ order) start) :
    Probing A s (order + 1) (A.released (A.taken s (2 ^ order) start) (2 ^ order) start) :=
  ⟨hrestores _ _ h, fun _ => ⟨start, h⟩⟩

/-- An order that is served is below the bound of the memory. -/
theorem order_lt_of_serves (hpages : A.pages < 2 ^ 31) (h : A.Serves s (2 ^ order)) :
    order < 31 := by
  obtain ⟨start, hoffers⟩ := h
  have hle := A.offers_le s _ _ hoffers
  exact (Nat.pow_lt_pow_iff_right (by decide)).mp (hle.trans_lt hpages)

theorem Probing.order_le (hpages : A.pages < 2 ^ 31) {s' : S} (h : Probing A s order s') :
    order ≤ 31 := by
  by_contra hlt
  have hbelow := order_lt_of_serves hpages (h.below (by omega))
  omega

/-- The order below the first one that is refused is the largest. -/
theorem largest_of_refused (hsmaller : A.ServesSmaller s) (hrefused : ¬ A.Serves s (2 ^ order))
    {j : ℕ} (hj : A.Serves s (2 ^ j)) : j ≤ order - 1 := by
  by_contra hlt
  have hle : 2 ^ order ≤ 2 ^ j := Nat.pow_le_pow_right (by decide) (by omega)
  exact hrefused (hsmaller order _ hle hj)

theorem largestFound_none (hrefused : ¬ A.Serves s (2 ^ 0)) : A.LargestFound s (-1) none s :=
  ⟨iff_of_true rfl hrefused, fun _ => rfl, fun h => absurd rfl h⟩

/-- The block of the order below the first one that is refused. -/
theorem largestFound_block (hsmaller : A.ServesSmaller s) (hrefused : ¬ A.Serves s (2 ^ order))
    {start : ℕ} {pagesNum : ULong} (hoffers : A.offers s (2 ^ (order - 1)) start)
    (hpages : pagesNum.toNat = 2 ^ (order - 1)) :
    A.LargestFound s 0 (some (start, pagesNum)) (A.taken s (2 ^ (order - 1)) start) := by
  have hone : A.Serves s (2 ^ 0) :=
    hsmaller 0 _ (Nat.one_le_two_pow) ⟨start, hoffers⟩
  refine ⟨iff_of_false (by decide) (not_not.mpr hone), fun h => absurd h (by decide), fun _ => ?_⟩
  exact ⟨rfl, start, pagesNum, order - 1, rfl, (A.offers_pos _ _ _ hoffers).ne', hpages, hoffers,
    rfl, fun j hj => largest_of_refused hsmaller hrefused hj⟩

/-! ## Mini-OS -/

/-- `alloc_pages` succeeds exactly when it can. -/
theorem always_allocPages {α : Type} {post : α → S → Prop} {k : Option ℕ → PageProg α}
    (hsome : ∀ start, A.offers s (2 ^ order) start →
      Always A.orderEnv post (k (some start)) (A.taken s (2 ^ order) start))
    (hnone : ¬ A.Serves s (2 ^ order) → Always A.orderEnv post (k none) s) :
    Always A.orderEnv post ((allocPages order).bind k) s := by
  have hanswered : ∃ a : Option ℕ, A.orderEnv.legal s (.allocPages order) a := by
    by_cases h : A.Serves s (2 ^ order)
    · obtain ⟨start, hoffers⟩ := h
      exact ⟨some start, hoffers⟩
    · exact ⟨none, h⟩
  apply Always.call hanswered
  intro (answer : Option ℕ) hlegal
  cases answer with
  | some start => exact hsome start hlegal
  | none => exact hnone hlegal

/-- A pointer as a number, `NULL` being zero. -/
def rawPointer (stored : Option ℕ × ULong) : ℕ × ULong := (stored.1.getD 0, stored.2)

theorem minios_largest (hpages : A.pages < 2 ^ 31) (hsmaller : A.ServesSmaller s)
    (hrestores : A.Restores s) :
    Always A.orderEnv (fun r s' => A.LargestFound s r.1 (r.2.map rawPointer) s')
      osAllocMaxContiguousMemory s := by
  apply Always.loop_decreasing (Probing A s) (fun order => 31 - order) _ Probing.start
  rintro order s' hinv
  obtain rfl := hinv.state
  apply always_allocPages
  · intro start hoffers
    have horder := order_lt_of_serves hpages ⟨start, hoffers⟩
    apply Always.call ⟨(), trivial⟩
    intro _ _
    apply Always.call ⟨(), trivial⟩
    intro _ _
    apply Always.ret
    exact ⟨.next hrestores hoffers, by omega⟩
  · intro hrefused
    apply Always.ret
    by_cases hzero : order = 0
    · subst hzero
      exact .ret (largestFound_none hrefused)
    · have hserves := hinv.below hzero
      have hlt := order_lt_of_serves hpages hserves
      simp only [Sum.elim_inr, Prog.ret_bind, ne_eq, hzero, not_false_eq_true, if_true]
      apply always_allocPages
      · intro start hoffers
        simp only [Prog.bind_eq, shiftOne, if_pos hlt]
        apply Always.ret
        apply largestFound_block hsmaller hrefused hoffers
        have hsize : 2 ^ (order - 1) < 2 ^ 64 := Nat.pow_lt_pow_right (by decide) (by omega)
        exact Nat.mod_eq_of_lt hsize
      · intro hnone
        exact absurd hserves hnone

/-! ## Unikraft -/

/-- `uk_palloc` succeeds exactly when it can. -/
theorem always_ukPalloc {α : Type} {post : α → S → Prop} {pagesNum : ULong} {k : ℕ → BlockProg α}
    (hsome : ∀ start, A.offers s pagesNum.toNat start →
      Always A.pagesEnv post (k start) (A.taken s pagesNum.toNat start))
    (hnone : ¬ A.Serves s pagesNum.toNat → Always A.pagesEnv post (k 0) s) :
    Always A.pagesEnv post ((ukPalloc pagesNum).bind k) s := by
  have hanswered : ∃ a : ℕ, A.pagesEnv.legal s (.ukPalloc pagesNum) a := by
    by_cases h : A.Serves s pagesNum.toNat
    · obtain ⟨start, hoffers⟩ := h
      exact ⟨start, .inl hoffers⟩
    · exact ⟨0, .inr ⟨rfl, h⟩⟩
  apply Always.call hanswered
  rintro (start : ℕ) (hoffers | ⟨rfl, hrefused⟩)
  · have hne := (A.offers_pos _ _ _ hoffers).ne'
    have heffect : A.pagesEnv.effect s (.ukPalloc pagesNum) start =
        A.taken s pagesNum.toNat start := if_pos hne
    rw [heffect]
    exact hsome start hoffers
  · exact hnone hrefused

/-- The system's page size. -/
def BlockAllocator.pageSize (A : BlockAllocator S) : ULong := BitVec.ofNat 64 (2 ^ A.shift)

/-- The assertion about the block that was obtained holds. -/
theorem aligned_and {n start : ℕ} (h : A.offers s n start) :
    start &&& (A.pageSize - 1).toNat = 0 := by
  have hlt : 2 ^ A.shift < 2 ^ 64 :=
    Nat.pow_lt_pow_right (by decide) (A.shift_lt.trans (by decide))
  have hpos := Nat.two_pow_pos A.shift
  have hmask : (A.pageSize - 1).toNat = 2 ^ A.shift - 1 := by
    rw [BlockAllocator.pageSize, BitVec.toNat_sub]
    simp only [BitVec.ofNat_eq_ofNat, BitVec.toNat_ofNat]
    omega
  rw [hmask, Nat.and_two_pow_sub_one_eq_mod]
  exact Nat.mod_eq_zero_of_dvd (A.offers_aligned _ _ _ h)

/-- What is asked for is a block of an order that the memory can have. -/
theorem order_lt_of_offers (hpages : A.pages < 2 ^ 31) (horder : order ≤ 31) {start : ℕ}
    (h : A.offers s (shiftedOne order).toNat start) : order < 31 := by
  by_contra hge
  obtain rfl : order = 31 := by omega
  have hle := A.offers_le _ _ _ h
  rw [shiftedOne_top] at hle
  omega

theorem refused_order (hpages : A.pages < 2 ^ 31) (h : ¬ A.Serves s (shiftedOne order).toNat) :
    ¬ A.Serves s (2 ^ order) := by
  intro hserves
  have hlt := order_lt_of_serves hpages hserves
  rw [shiftedOne_toNat hlt] at h
  exact h hserves

theorem unikraft_largest (hpages : A.pages < 2 ^ 31) (hsmaller : A.ServesSmaller s)
    (hrestores : A.Restores s) :
    Always A.pagesEnv (fun r s' => A.LargestFound s r.1 r.2 s')
      (osAllocMaxContiguousMemoryUnikraft A.pageSize) s := by
  apply Always.loop_decreasing (Probing A s) (fun order => 31 - order) _ Probing.start
  rintro order s' hinv
  obtain rfl := hinv.state
  have horder := hinv.order_le hpages
  simp only [tryOrderUnikraft, shiftOneUnikraft, if_pos (show order < 32 by omega), Prog.pure_eq,
    Prog.bind_eq, Prog.ret_bind]
  apply always_ukPalloc
  · intro start hoffers
    have hlt := order_lt_of_offers hpages horder hoffers
    have hne := (A.offers_pos _ _ _ hoffers).ne'
    simp only [aligned_and hoffers, ne_eq, not_true_eq_false, if_false, hne, not_false_eq_true,
      if_true]
    apply Always.call ⟨(), trivial⟩
    intro _ _
    apply Always.call ⟨(), trivial⟩
    intro _ _
    apply Always.ret
    rw [shiftedOne_toNat hlt] at hoffers
    have hnext := Probing.next hrestores hoffers
    rw [← shiftedOne_toNat hlt] at hnext
    exact ⟨hnext, by omega⟩
  · intro hnone
    have hrefused := refused_order hpages hnone
    simp only [Nat.zero_and, ne_eq, not_true_eq_false, if_false]
    apply Always.ret
    by_cases hzero : order = 0
    · subst hzero
      exact .ret (largestFound_none hrefused)
    · have hserves := hinv.below hzero
      have hlt := order_lt_of_serves hpages hserves
      simp only [Sum.elim_inr, Prog.ret_bind, hzero, not_false_eq_true, if_true,
        if_pos (show order - 1 < 32 by omega)]
      apply always_ukPalloc
      · intro start hoffers
        apply Always.ret
        rw [shiftedOne_toNat hlt] at hoffers ⊢
        exact largestFound_block hsmaller hrefused hoffers (shiftedOne_toNat hlt)
      · intro hagain
        rw [shiftedOne_toNat hlt] at hagain
        exact absurd hserves hagain

end Search

/-! ## An allocator that keeps the set of its free pages -/

/-- Any run of free pages may be handed out, but for page zero. -/
def freeRuns (pages : ℕ) : BlockAllocator (Set ℕ) where
  pages := pages
  shift := 12
  offers free n start :=
    n ≤ pages ∧ ∃ page, 0 < page ∧ Set.Ico page (page + n) ⊆ free ∧ start = page * 2 ^ 12
  taken free n start := free \ Set.Ico (start / 2 ^ 12) (start / 2 ^ 12 + n)
  released free n start := free ∪ Set.Ico (start / 2 ^ 12) (start / 2 ^ 12 + n)
  shift_lt := by decide
  offers_le := fun _ _ _ h => h.1
  offers_pos := by
    rintro free n start ⟨-, page, hpos, -, rfl⟩
    exact Nat.mul_pos hpos (by decide)
  offers_aligned := by
    rintro free n start ⟨-, page, -, -, rfl⟩
    exact Nat.dvd_mul_left _ _

theorem freeRuns_servesSmaller (pages : ℕ) (free : Set ℕ) :
    (freeRuns pages).ServesSmaller free := by
  rintro k n hle ⟨_, hpages, page, hpos, hfree, rfl⟩
  refine ⟨page * 2 ^ 12, hle.trans hpages, page, hpos, ?_, rfl⟩
  apply (Set.Ico_subset_Ico_right _).trans hfree
  exact Nat.add_le_add_left hle page

theorem freeRuns_restores (pages : ℕ) (free : Set ℕ) : (freeRuns pages).Restores free := by
  rintro n _ ⟨-, page, -, hfree, rfl⟩
  have hpage : page * 2 ^ 12 / 2 ^ 12 = page := Nat.mul_div_cancel page (by decide)
  apply Set.sdiff_union_of_subset
  rw [hpage]
  exact hfree

/-! ## Both platforms -/

/-- From every state of a memory of fewer than `2 ^ 31` pages the search ends, with one block of
the largest order that could be allocated, or with no change when there is no page. -/
theorem osAllocMaxContiguousMemory_largest (A : BlockAllocator S) (s : S)
    (hpages : A.pages < 2 ^ 31) (hsmaller : A.ServesSmaller s) (hrestores : A.Restores s) :
    Always A.orderEnv (fun r s' => A.LargestFound s r.1 (r.2.map rawPointer) s')
        osAllocMaxContiguousMemory s ∧
      Always A.pagesEnv (fun r s' => A.LargestFound s r.1 r.2 s')
        (osAllocMaxContiguousMemoryUnikraft A.pageSize) s :=
  ⟨minios_largest hpages hsmaller hrestores, unikraft_largest hpages hsmaller hrestores⟩

theorem osAllocMaxContiguousMemory_largest_eight :
    Always (freeRuns 8).orderEnv
        (fun r s' => (freeRuns 8).LargestFound (Set.Icc 1 8) r.1 (r.2.map rawPointer) s')
        osAllocMaxContiguousMemory (Set.Icc 1 8) ∧
      Always (freeRuns 8).pagesEnv
        (fun r s' => (freeRuns 8).LargestFound (Set.Icc 1 8) r.1 r.2 s')
        (osAllocMaxContiguousMemoryUnikraft (freeRuns 8).pageSize) (Set.Icc 1 8) :=
  osAllocMaxContiguousMemory_largest (freeRuns 8) (Set.Icc 1 8) (by decide)
    (freeRuns_servesSmaller 8 _) (freeRuns_restores 8 _)

end CloningApps.Memory
