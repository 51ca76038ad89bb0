import CloningApps.Interaction.Safe
import CloningApps.Os.Calls

/-! # Pages on Mini-OS

`os_alloc_pages`, `os_alloc_max_contiguous_memory` and the functions that give the
pages back, over the page allocator of Mini-OS. The allocator itself is not part
of the applications: it hands out blocks of `2 ^ order` free pages and makes the
pages of a block free, whichever blocks it deals in.
-/

namespace CloningApps.Memory
open Text Interaction
open Os (EINVAL ENOMEM)

inductive PageCall where
  | allocPages (order : ℕ)
  | freePages (start order : ℕ)
  | store (addr value : ℕ)
  | indeterminate

/-- `alloc_pages` answers with an address or `NULL`. -/
@[reducible] def PageCall.Answer : PageCall → Type
  | .allocPages _ => Option ℕ
  | .freePages .. => Unit
  | .store .. => Unit
  | .indeterminate => ℕ

abbrev pageInterface : Interface := ⟨PageCall, PageCall.Answer⟩

abbrev PageProg := Prog pageInterface

def allocPages (order : ℕ) : PageProg (Option ℕ) := @Prog.ask pageInterface (.allocPages order)

def freePages (start order : ℕ) : PageProg Unit :=
  @Prog.ask pageInterface (.freePages start order)

def store (addr value : ℕ) : PageProg Unit :=
  @Prog.ask pageInterface (.store addr value)

/-- The value of an expression that C leaves undefined. -/
def indeterminate : PageProg ℕ := @Prog.ask pageInterface .indeterminate

def lowestBit (x : BitVec 32) : Option ℕ := (List.range 32).find? x.getLsbD

/-- `__builtin_ctz` of the low word of its argument, undefined for zero. -/
def builtinCtz (x : ULong) : PageProg ℕ :=
  match lowestBit (x.truncate 32) with
  | some k => return k
  | none => indeterminate

/-- `__builtin_ffs` of the low word of its argument: one more than the index of its lowest bit. -/
def builtinFfs (x : ULong) : ℕ :=
  match lowestBit (x.truncate 32) with
  | some k => k + 1
  | none => 0

def isPowerOfTwo (x : ULong) : Bool := x &&& (x - 1) = 0

/-- The returned code and what is stored in `*pstart`. -/
def osAllocPages (pagesNum : ULong) : PageProg (ℤ × Option ℕ) := do
  if !isPowerOfTwo pagesNum then
    return (-1, none)
  let order ← builtinCtz pagesNum
  match ← allocPages order with
  | some start => return (0, some start)
  | none => return (-ENOMEM, none)

def osFreePages (pageSize : ℕ) (start : ℕ) (pagesNum : ULong) : PageProg ℤ := do
  if start &&& (pageSize - 1) ≠ 0 then
    return -EINVAL
  freePages start (builtinFfs pagesNum)
  return 0

/-- `1 << order` on an `int`. -/
def shiftOne (order : ℕ) : PageProg ULong :=
  if order < 31 then return BitVec.ofNat 64 (2 ^ order)
  else do return BitVec.ofNat 64 (← indeterminate)

/-- One round of the search for the first order that cannot be allocated. -/
def tryOrder (order : ℕ) : PageProg (ℕ ⊕ ℕ) := do
  match ← allocPages order with
  | some start =>
    store start order
    freePages start order
    return .inl (order + 1)
  | none => return .inr order

/-- The returned code and what is stored in `*pstart` and `*ppages_num`. -/
def osAllocMaxContiguousMemory : PageProg (ℤ × Option (Option ℕ × ULong)) := do
  let order ← Prog.iterate tryOrder 0
  if order ≠ 0 then
    let start ← allocPages (order - 1)
    let pagesNum ← shiftOne (order - 1)
    return (0, some (start, pagesNum))
  else
    return (-1, none)

def osFreeMaxContiguousMemory (pageSize : ℕ) (start : ℕ) (pagesNum : ULong) : PageProg ℤ :=
  osFreePages pageSize start pagesNum

/-! ## The page allocator -/

/-- The pages of the block of an order that starts at a page. -/
def span (page order : ℕ) : Set ℕ := Set.Ico page (page + 2 ^ order)

/-- The page size and the blocks the allocator deals in; page zero is never handed out. -/
structure PageAllocator where
  shift : ℕ
  block : ℕ → ℕ → Prop
  block_pos : ∀ order page, block order page → 0 < page

namespace PageAllocator
variable (A : PageAllocator)

def pageSize : ℕ := 2 ^ A.shift

/-- A request is refused only when none of the blocks of that order is free. -/
def legal (free : Set ℕ) : (c : PageCall) → c.Answer → Prop
  | .allocPages order, some start =>
      ∃ page, A.block order page ∧ span page order ⊆ free ∧ start = page * A.pageSize
  | .allocPages order, none => ∀ page, A.block order page → ¬ span page order ⊆ free
  | .freePages .., _ => True
  | .store .., _ => True
  | .indeterminate, _ => True

def effect (free : Set ℕ) : (c : PageCall) → c.Answer → Set ℕ
  | .allocPages order, some start => free \ span (start / A.pageSize) order
  | .allocPages _, none => free
  | .freePages start order, _ => free ∪ span (start / A.pageSize) order
  | .store .., _ => free
  | .indeterminate, _ => free

/-- The world of the allocator is the set of free pages. -/
def env : Env pageInterface (Set ℕ) where
  legal := A.legal
  effect := A.effect
  drift := fun _ _ => False

theorem env_still : A.env.Still := fun _ _ h => h

theorem pageSize_pos : 0 < A.pageSize := Nat.two_pow_pos _

theorem page_mul_and (page : ℕ) : page * A.pageSize &&& (A.pageSize - 1) = 0 := by
  rw [pageSize, Nat.and_two_pow_sub_one_eq_mod, Nat.mul_mod_left]

/-- The block behind a size: its order is the one found in the size, unless the size is one
for which C leaves the order undefined. -/
def Regular (order : ℕ) (pagesNum : ULong) : Prop :=
  builtinFfs pagesNum = order + 1 ∨ pagesNum.truncate 32 = (0 : BitVec 32) ∨ 31 ≤ order

/-- A block left the free set and its address was returned. -/
def Handed (free : Set ℕ) (start : ℕ) (pagesNum : ULong) (free' : Set ℕ) : Prop :=
  ∃ page order, A.block order page ∧ span page order ⊆ free ∧ start = page * A.pageSize ∧
    free' = free \ span page order ∧ Regular order pagesNum

end PageAllocator

section Functions
variable {A : PageAllocator} {free : Set ℕ}

theorem lowestBit_eq_none {x : BitVec 32} (h : lowestBit x = none) : x = 0 := by
  ext i hi
  have hbit := List.find?_eq_none.mp h i (List.mem_range.mpr hi)
  simpa [BitVec.getLsbD_eq_getElem hi] using hbit

/-- After an allocation of one block, what `alloc_pages` says. -/
theorem safe_allocPages {α : Type} {post : α → Set ℕ → Prop} {order : ℕ}
    {k : Option ℕ → PageProg α}
    (hsome : ∀ page, A.block order page → span page order ⊆ free →
      Safe A.env (fun _ _ => True) post (k (some (page * A.pageSize)))
        (free \ span page order))
    (hnone : (∀ page, A.block order page → ¬ span page order ⊆ free) →
      Safe A.env (fun _ _ => True) post (k none) free) :
    Safe A.env (fun _ _ => True) post ((allocPages order).bind k) free := by
  apply Safe.call A.env_still trivial
  intro answer hlegal
  cases answer with
  | none => exact hnone hlegal
  | some start =>
    obtain ⟨page, hblock, hfree, rfl⟩ := hlegal
    have heffect : A.env.effect free (.allocPages order) (some (page * A.pageSize)) =
        free \ span page order := by
      simp only [PageAllocator.env, PageAllocator.effect, Nat.mul_div_cancel _ A.pageSize_pos]
    rw [heffect]
    exact hsome page hblock hfree

theorem safe_freePages {α : Type} {post : α → Set ℕ → Prop} {page order : ℕ}
    {k : Unit → PageProg α}
    (hk : Safe A.env (fun _ _ => True) post (k ()) (free ∪ span page order)) :
    Safe A.env (fun _ _ => True) post ((freePages (page * A.pageSize) order).bind k) free := by
  apply Safe.call A.env_still trivial
  intro answer _
  have heffect : A.env.effect free (.freePages (page * A.pageSize) order) answer =
      free ∪ span page order := by
    simp only [PageAllocator.env, PageAllocator.effect, Nat.mul_div_cancel _ A.pageSize_pos]
  rw [heffect]
  exact hk

theorem safe_builtinCtz {α : Type} {post : α → Set ℕ → Prop} {x : ULong}
    {k : ℕ → PageProg α}
    (hk : ∀ order, (builtinFfs x = order + 1 ∨ x.truncate 32 = (0 : BitVec 32)) →
      Safe A.env (fun _ _ => True) post (k order) free) :
    Safe A.env (fun _ _ => True) post ((builtinCtz x).bind k) free := by
  cases hbit : lowestBit (x.truncate 32) with
  | some order =>
    simp only [builtinCtz, hbit]
    exact hk order (.inl (by simp only [builtinFfs, hbit]))
  | none =>
    simp only [builtinCtz, hbit]
    exact Safe.call A.env_still trivial
      (fun order _ => hk order (.inr (lowestBit_eq_none hbit)))

/-- `os_alloc_pages` hands out one block, or fails and changes nothing. -/
theorem osAllocPages_safe (pagesNum : ULong) :
    Safe A.env (fun _ _ => True)
      (fun r free' => (∃ start, r = (0, some start) ∧ A.Handed free start pagesNum free') ∨
        (r.1 ≠ 0 ∧ free' = free))
      (osAllocPages pagesNum) free := by
  simp only [osAllocPages]
  split
  · exact Safe.ret A.env_still (.inr ⟨by decide, rfl⟩)
  · apply safe_builtinCtz
    intro order horder
    refine safe_allocPages ?_ ?_
    · intro page hblock hfree
      refine Safe.ret A.env_still (.inl ⟨_, rfl, page, order, hblock, hfree, rfl, rfl, ?_⟩)
      exact horder.imp_right .inl
    · intro _
      exact Safe.ret A.env_still (.inr ⟨by decide, rfl⟩)

/-- `os_free_pages` makes a number of pages free that `__builtin_ffs` determines. -/
theorem osFreePages_safe (page : ℕ) (pagesNum : ULong) :
    Safe A.env (fun _ _ => True)
      (fun _ free' => free' = free ∪ span page (builtinFfs pagesNum))
      (osFreePages A.pageSize (page * A.pageSize) pagesNum) free := by
  simp only [osFreePages, A.page_mul_and]
  exact safe_freePages (Safe.ret A.env_still rfl)

theorem builtinFfs_two_pow (order : ℕ) (h : order < 31) :
    builtinFfs (BitVec.ofNat 64 (2 ^ order)) = order + 1 := by
  interval_cases order <;> decide

theorem safe_shiftOne {α : Type} {post : α → Set ℕ → Prop} {order : ℕ} {k : ULong → PageProg α}
    (hk : ∀ pagesNum, PageAllocator.Regular order pagesNum →
      Safe A.env (fun _ _ => True) post (k pagesNum) free) :
    Safe A.env (fun _ _ => True) post ((shiftOne order).bind k) free := by
  by_cases h : order < 31
  · simp only [shiftOne, h, if_true]
    exact hk _ (.inl (builtinFfs_two_pow order h))
  · simp only [shiftOne, h, if_false]
    exact Safe.call A.env_still trivial (fun _ _ => hk _ (.inr (.inr (by omega))))

/-- Pages taken from the free set and given back leave it as it was. -/
theorem diff_union_span {page order : ℕ} (h : span page order ⊆ free) :
    free \ span page order ∪ span page order = free := Set.sdiff_union_of_subset h

/-- The search hands out a block of the largest order, or fails and changes nothing. -/
theorem osAllocMaxContiguousMemory_safe :
    Safe A.env (fun _ _ => True)
      (fun r free' =>
        (∃ start pagesNum, r = (0, some (some start, pagesNum)) ∧
          A.Handed free start pagesNum free') ∨
        (r.1 ≠ 0 ∧ free' = free))
      osAllocMaxContiguousMemory free := by
  -- every order below the current one had a free block, and the free set is the initial one
  let inv : ℕ → Set ℕ → Prop := fun order w =>
    w = free ∧ (order ≠ 0 → ∃ page, A.block (order - 1) page ∧ span page (order - 1) ⊆ free)
  simp only [osAllocMaxContiguousMemory]
  refine Safe.loop inv (fun order => A.env_still.stable _) ?_ ⟨rfl, fun h => absurd rfl h⟩
  rintro order w ⟨rfl, hbelow⟩
  refine safe_allocPages ?_ ?_
  · intro page hblock hfree
    apply Safe.call A.env_still trivial
    intro _ _
    refine safe_freePages (Safe.ret A.env_still ?_)
    exact ⟨diff_union_span hfree, fun _ => ⟨page, hblock, hfree⟩⟩
  · intro hrefused
    apply Safe.ret A.env_still
    by_cases horder : order = 0
    · simp only [Sum.elim_inr, Prog.ret_bind, horder]
      exact Safe.ret A.env_still (.inr ⟨by decide, rfl⟩)
    · simp only [Sum.elim_inr, Prog.ret_bind, ne_eq, horder, not_false_eq_true, if_true]
      refine safe_allocPages ?_ ?_
      · intro page hblock hfree
        refine safe_shiftOne (fun pagesNum hregular => Safe.ret A.env_still (.inl ?_))
        exact ⟨_, pagesNum, rfl, page, order - 1, hblock, hfree, rfl, rfl, hregular⟩
      · intro hnone
        obtain ⟨page, hblock, hfree⟩ := hbelow horder
        exact absurd hfree (hnone page hblock)

end Functions

end CloningApps.Memory
