import CloningApps.Memory.MiniosPages

/-! # Whole runs of allocations and releases on Mini-OS

Allocations succeed, fail and are released in any order. Releases go through
`__builtin_ffs` where allocations went through `__builtin_ctz`, so a release
makes twice as many pages free as the allocation took.
-/

namespace CloningApps.Memory
open Text Interaction
open Os (ENOMEM)

/-- What a successful allocation returned, and the pages it took. -/
structure Allocation where
  start : ℕ
  pagesNum : ULong
  pages : Set ℕ

structure Heap where
  free : Set ℕ
  allocations : List Allocation

/-- One call of `os_alloc_pages` or `os_alloc_max_contiguous_memory`. -/
inductive AllocStep (A : PageAllocator) (h : Heap) : Heap → Prop where
  | pages {pagesNum : ULong} {start : ℕ} {free : Set ℕ}
      (hrun : Reaches A.env (osAllocPages pagesNum, h.free) (.ret (0, some start), free)) :
      AllocStep A h ⟨free, ⟨start, pagesNum, h.free \ free⟩ :: h.allocations⟩
  | pagesFails {pagesNum : ULong} {r : ℤ × Option ℕ} {free : Set ℕ} (hrc : r.1 ≠ 0)
      (hrun : Reaches A.env (osAllocPages pagesNum, h.free) (.ret r, free)) :
      AllocStep A h ⟨free, h.allocations⟩
  | max {pagesNum : ULong} {start : ℕ} {free : Set ℕ}
      (hrun : Reaches A.env (osAllocMaxContiguousMemory, h.free)
        (.ret (0, some (some start, pagesNum)), free)) :
      AllocStep A h ⟨free, ⟨start, pagesNum, h.free \ free⟩ :: h.allocations⟩
  | maxFails {r : ℤ × Option (Option ℕ × ULong)} {free : Set ℕ} (hrc : r.1 ≠ 0)
      (hrun : Reaches A.env (osAllocMaxContiguousMemory, h.free) (.ret r, free)) :
      AllocStep A h ⟨free, h.allocations⟩

/-- One call that gives an outstanding allocation back. -/
inductive FreeStep (A : PageAllocator) (h : Heap) (b : Allocation) : Heap → Prop where
  | pages {pre post : List Allocation} {rc : ℤ} {free : Set ℕ}
      (hb : h.allocations = pre ++ b :: post)
      (hrun : Reaches A.env (osFreePages A.pageSize b.start b.pagesNum, h.free) (.ret rc, free)) :
      FreeStep A h b ⟨free, pre ++ post⟩
  | max {pre post : List Allocation} {rc : ℤ} {free : Set ℕ}
      (hb : h.allocations = pre ++ b :: post)
      (hrun : Reaches A.env
        (osFreeMaxContiguousMemory A.pageSize b.start b.pagesNum, h.free) (.ret rc, free)) :
      FreeStep A h b ⟨free, pre ++ post⟩

/-- Runs whose releases all meet a condition on the state before them. -/
inductive Run (A : PageAllocator) (cond : Heap → Allocation → Prop) (h : Heap) : Heap → Prop where
  | nil : Run A cond h h
  | alloc {h' h'' : Heap} (hrun : Run A cond h h') (hstep : AllocStep A h' h'') : Run A cond h h''
  | free {h' h'' : Heap} {b : Allocation} (hrun : Run A cond h h') (hstep : FreeStep A h' b h'')
      (hcond : cond h' b) : Run A cond h h''

/-- The release freed the pages of the allocation, and no page of another one is free. -/
def Released (b : Allocation) (h h' : Heap) : Prop :=
  h'.free \ h.free = b.pages ∧ ∀ c ∈ h'.allocations, Disjoint c.pages h'.free

/-- The pages that a release hands to `free_pages`. -/
def handedBack (A : PageAllocator) (b : Allocation) : Set ℕ :=
  span (b.start / A.pageSize) (builtinFfs b.pagesNum)

/-- They are those of the allocation, and beyond them only pages that are free already. -/
def HandsBack (A : PageAllocator) (h : Heap) (b : Allocation) : Prop :=
  b.pages ⊆ handedBack A b ∧ handedBack A b ⊆ b.pages ∪ h.free

/-- Outstanding allocations are blocks, apart from each other and from the free pages. -/
structure Separate (A : PageAllocator) (h : Heap) : Prop where
  block : ∀ b ∈ h.allocations, ∃ page order, b.start = page * A.pageSize ∧
    b.pages = span page order ∧ PageAllocator.Regular order b.pagesNum
  apart : h.allocations.Pairwise (fun b c => Disjoint b.pages c.pages)
  notFree : ∀ b ∈ h.allocations, Disjoint b.pages h.free

variable {A : PageAllocator} {h h' : Heap} {b : Allocation}

theorem Separate.handed {start : ℕ} {pagesNum : ULong} {free : Set ℕ} (hsep : Separate A h)
    (hand : A.Handed h.free start pagesNum free) :
    Separate A ⟨free, ⟨start, pagesNum, h.free \ free⟩ :: h.allocations⟩ := by
  obtain ⟨page, order, -, hsub, rfl, rfl, hregular⟩ := hand
  have hpages : h.free \ (h.free \ span page order) = span page order := by
    rw [Set.sdiff_sdiff_right_self, Set.inter_eq_right.mpr hsub]
  rw [hpages]
  refine ⟨List.forall_mem_cons.mpr ⟨⟨page, order, rfl, rfl, hregular⟩, hsep.block⟩,
    List.pairwise_cons.mpr ⟨fun c hc => ?_, hsep.apart⟩,
    List.forall_mem_cons.mpr ⟨Set.disjoint_sdiff_right, fun c hc => ?_⟩⟩
  · exact ((hsep.notFree c hc).mono_right hsub).symm
  · exact (hsep.notFree c hc).mono_right Set.sdiff_subset

theorem Separate.alloc (hsep : Separate A h) (hstep : AllocStep A h h') : Separate A h' := by
  cases hstep with
  | pages hrun =>
    rcases osAllocPages_safe _ _ _ hrun with ⟨start, hr, hand⟩ | ⟨hrc, -⟩
    · obtain rfl : _ = start := by simpa using hr
      exact hsep.handed hand
    · exact absurd rfl hrc
  | pagesFails hrc hrun =>
    rcases osAllocPages_safe _ _ _ hrun with ⟨start, rfl, -⟩ | ⟨-, rfl⟩
    · exact absurd rfl hrc
    · exact hsep
  | max hrun =>
    rcases osAllocMaxContiguousMemory_safe _ _ hrun with ⟨start, n, hr, hand⟩ | ⟨hrc, -⟩
    · obtain ⟨rfl, rfl⟩ : _ = start ∧ _ = n := by simpa using hr
      exact hsep.handed hand
    · exact absurd rfl hrc
  | maxFails hrc hrun =>
    rcases osAllocMaxContiguousMemory_safe _ _ hrun with ⟨start, n, rfl, -⟩ | ⟨-, rfl⟩
    · exact absurd rfl hrc
    · exact hsep

/-- What a release does to the free pages and to the list. -/
theorem FreeStep.effect (hsep : Separate A h) (hstep : FreeStep A h b h') :
    h'.free = h.free ∪ handedBack A b ∧
      ∃ pre post, h.allocations = pre ++ b :: post ∧ h'.allocations = pre ++ post := by
  have hfree : ∀ {rc : ℤ} {free : Set ℕ}, b ∈ h.allocations →
      Reaches A.env (osFreePages A.pageSize b.start b.pagesNum, h.free) (.ret rc, free) →
        free = h.free ∪ handedBack A b := by
    intro rc free hb hrun
    obtain ⟨page, order, hstart, -, -⟩ := hsep.block b hb
    rw [hstart] at hrun
    rw [handedBack, hstart, Nat.mul_div_cancel _ A.pageSize_pos]
    exact osFreePages_safe page b.pagesNum _ _ hrun
  cases hstep with
  | pages hb hrun | max hb hrun => exact ⟨hfree (by simp [hb]) hrun, _, _, hb, rfl⟩

theorem Separate.disjoint_of_freed (hsep : Separate A h) (hstep : FreeStep A h b h')
    (hcond : HandsBack A h b) : ∀ c ∈ h'.allocations, Disjoint c.pages h'.free := by
  obtain ⟨hfree, pre, post, hb, hrest⟩ := hstep.effect hsep
  intro c hc
  rw [hrest] at hc
  have hcb : Disjoint c.pages b.pages := by
    have hperm : (pre ++ b :: post).Perm (b :: (pre ++ post)) := List.perm_middle
    have hapart := hsep.apart
    rw [hb, hperm.pairwise_iff (fun hd => hd.symm), List.pairwise_cons] at hapart
    exact (hapart.1 c hc).symm
  have hcfree : Disjoint c.pages h.free := by
    apply hsep.notFree c
    rw [hb]
    simp only [List.mem_append, List.mem_cons] at hc ⊢
    exact hc.imp_right .inr
  rw [hfree]
  exact hcfree.union_right ((hcb.union_right hcfree).mono_right hcond.2)

theorem Separate.free (hsep : Separate A h) (hstep : FreeStep A h b h')
    (hcond : HandsBack A h b) : Separate A h' := by
  obtain ⟨-, pre, post, hb, hrest⟩ := hstep.effect hsep
  have hsub : (h'.allocations).Sublist h.allocations := by
    rw [hb, hrest]
    exact List.Sublist.append_left (List.sublist_cons_self b post) pre
  exact ⟨fun c hc => hsep.block c (hsub.subset hc), hsep.apart.sublist hsub,
    hsep.disjoint_of_freed hstep hcond⟩

theorem Run.separate {free : Set ℕ} (hrun : Run A (HandsBack A) ⟨free, []⟩ h) : Separate A h := by
  induction hrun with
  | nil => exact ⟨by simp, .nil, by simp⟩
  | alloc _ hstep ih => exact ih.alloc hstep
  | free _ hstep hcond ih => exact ih.free hstep hcond

/-- Pages newly made free are exactly those of the allocation when the surplus is free already. -/
theorem released_iff (hsep : Separate A h) (hstep : FreeStep A h b h') :
    Released b h h' ↔ HandsBack A h b := by
  obtain ⟨hfree, pre, post, hb, -⟩ := hstep.effect hsep
  have hbfree : Disjoint b.pages h.free := hsep.notFree b (by simp [hb])
  constructor
  · rintro ⟨hpages, -⟩
    rw [hfree, Set.union_sdiff_left] at hpages
    refine ⟨hpages ▸ Set.sdiff_subset, fun q hq => ?_⟩
    by_cases hqfree : q ∈ h.free
    · exact .inr hqfree
    · exact .inl (hpages ▸ ⟨hq, hqfree⟩)
  · intro hcond
    refine ⟨?_, hsep.disjoint_of_freed hstep hcond⟩
    rw [hfree, Set.union_sdiff_left]
    refine Set.Subset.antisymm ?_ ?_
    · rintro q ⟨hq, hqfree⟩
      exact (hcond.2 hq).resolve_right hqfree
    · exact fun q hq => ⟨hcond.1 hq, Set.disjoint_left.mp hbfree hq⟩

/-- A release of a block of regular size hands back the block and as many pages behind it. -/
theorem handsBack_iff (page order : ℕ) (hstart : b.start = page * A.pageSize)
    (hpages : b.pages = span page order) (hregular : builtinFfs b.pagesNum = order + 1) :
    HandsBack A h b ↔ span (page + 2 ^ order) order ⊆ h.free := by
  have hsplit : handedBack A b = b.pages ∪ span (page + 2 ^ order) order := by
    rw [handedBack, hregular, hstart, Nat.mul_div_cancel _ A.pageSize_pos, hpages, span, span, span,
      Set.Ico_union_Ico_eq_Ico (Nat.le_add_right _ _) (Nat.le_add_right _ _), Nat.add_assoc,
      ← Nat.two_mul, Nat.pow_succ']
  have hdisj : Disjoint (span (page + 2 ^ order) order) b.pages := by
    rw [hpages, Set.disjoint_left]
    intro q hq hq'
    exact absurd (Set.mem_Ico.mp hq).1 (Nat.not_le.mpr (Set.mem_Ico.mp hq').2)
  rw [HandsBack, hsplit]
  constructor
  · intro hcond q hq
    exact (hcond.2 (.inr hq)).resolve_left (Set.disjoint_left.mp hdisj hq)
  · intro hsub
    exact ⟨Set.subset_union_left, Set.union_subset_union_right _ hsub⟩

/-- In a run whose releases find the surplus free already, no page of an outstanding allocation
is free, and the next release is exact if and only if it finds the surplus free as well. -/
theorem osFreePages_exact_iff (A : PageAllocator) (free : Set ℕ) (h : Heap)
    (hrun : Run A (HandsBack A) ⟨free, []⟩ h) :
    (∀ b ∈ h.allocations, Disjoint b.pages h.free) ∧
      ∀ b h', FreeStep A h b h' → (Released b h h' ↔ HandsBack A h b) :=
  ⟨hrun.separate.notFree, fun _ _ hstep => released_iff hrun.separate hstep⟩

/-! ## Single pages -/

/-- Pages of 4096 bytes in naturally aligned blocks. -/
def buddy : PageAllocator where
  shift := 12
  block order page := 0 < page ∧ page % 2 ^ order = 0
  block_pos _ _ h := h.1

theorem span_zero (page : ℕ) : span page 0 = {page} := by
  ext q
  simp only [span, pow_zero, Set.mem_Ico, Set.mem_singleton_iff]
  omega

def Heap.afterPage (h : Heap) (page : ℕ) : Heap :=
  ⟨h.free \ span page 0, ⟨page * buddy.pageSize, 1, h.free \ (h.free \ span page 0)⟩ ::
    h.allocations⟩

theorem osAllocPages_one : osAllocPages 1 = (allocPages 0).bind (fun start =>
    match start with
    | some start => .ret (0, some start)
    | none => .ret (-ENOMEM, none)) := rfl

theorem AllocStep.page {h : Heap} {page : ℕ} (hpos : 0 < page) (hfree : page ∈ h.free) :
    AllocStep buddy h (h.afterPage page) := by
  have hsub : span page 0 ⊆ h.free := by simpa [span_zero] using hfree
  have hlegal : buddy.env.legal h.free (.allocPages 0) (some (page * buddy.pageSize)) :=
    ⟨page, ⟨hpos, by simp [Nat.mod_one]⟩, hsub, rfl⟩
  have heffect : buddy.env.effect h.free (.allocPages 0) (some (page * buddy.pageSize)) =
      h.free \ span page 0 := by
    simp only [PageAllocator.env, PageAllocator.effect, Nat.mul_div_cancel _ buddy.pageSize_pos]
  have hrun : Reaches buddy.env (osAllocPages 1, h.free)
      (.ret (0, some (page * buddy.pageSize)), h.free \ span page 0) := by
    rw [← heffect, osAllocPages_one]
    exact .single (.call _ hlegal)
  exact .pages hrun

/-- The page behind a single page is made free with it. -/
theorem FreeStep.page {h : Heap} {b : Allocation} (page : ℕ) (pre post : List Allocation)
    (hb : h.allocations = pre ++ b :: post) (hstart : b.start = page * buddy.pageSize)
    (hnum : b.pagesNum = 1) : FreeStep buddy h b ⟨h.free ∪ span page 1, pre ++ post⟩ := by
  have hprog : osFreePages buddy.pageSize b.start b.pagesNum =
      .call (.freePages (page * buddy.pageSize) 1) (fun _ => .ret 0) := by
    simp only [osFreePages, hstart, hnum, buddy.page_mul_and]
    rfl
  have heffect : buddy.env.effect h.free (.freePages (page * buddy.pageSize) 1) () =
      h.free ∪ span page 1 := by
    simp only [PageAllocator.env, PageAllocator.effect, Nat.mul_div_cancel _ buddy.pageSize_pos]
  have hrun : Reaches buddy.env (osFreePages buddy.pageSize b.start b.pagesNum, h.free)
      (.ret 0, h.free ∪ span page 1) := by
    rw [← heffect, hprog]
    exact .single (.call _ trivial)
  exact .pages hb hrun

/-- With the next page free, a single page is given back exactly. -/
theorem osFreePages_exact_iff_single :
    ∃ h b h', FreeStep buddy h b h' ∧ Released b h h' := by
  let h := Heap.afterPage ⟨{8, 9}, []⟩ 8
  have hrun : Run buddy (HandsBack buddy) ⟨{8, 9}, []⟩ h :=
    .alloc .nil (.page (by decide) (by simp))
  have hstep : FreeStep buddy h _ _ := .page 8 [] [] rfl rfl rfl
  refine ⟨h, _, _, hstep, ((osFreePages_exact_iff buddy {8, 9} h hrun).2 _ _ hstep).mpr ?_⟩
  rw [handsBack_iff 8 0 rfl (by simp [span_zero]) rfl]
  simp [h, span_zero, Heap.afterPage]

/-- Two single pages side by side: giving the first one back makes the other one free too. -/
theorem osFreePages_frees_neighbour :
    ∃ h b h', Run buddy (fun _ _ => True) ⟨{8, 9}, []⟩ h ∧ FreeStep buddy h b h' ∧
      ¬ Released b h h' := by
  let h := Heap.afterPage (Heap.afterPage ⟨{8, 9}, []⟩ 8) 9
  have hrun : Run buddy (fun _ _ => True) ⟨{8, 9}, []⟩ h :=
    .alloc (.alloc .nil (.page (by decide) (by simp)))
      (.page (by decide) (by simp [Heap.afterPage, span_zero]))
  have hstep : FreeStep buddy h _ _ := .page 8 [⟨9 * buddy.pageSize, 1, _⟩] [] rfl rfl rfl
  refine ⟨h, _, _, hrun, hstep, ?_⟩
  rintro ⟨-, hother⟩
  have hdisj := Set.disjoint_left.mp (hother _ (List.mem_singleton.mpr rfl))
  have hnine : 9 ∈ h.free ∪ span 8 1 := .inr (by simp [span])
  refine hdisj ?_ hnine
  simp [Heap.afterPage, span_zero]

end CloningApps.Memory
