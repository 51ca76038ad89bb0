import CloningApps.Interaction.Lending
import CloningApps.Memory.LargestBlock

/-! # Whole runs of allocations and releases on POSIX and on Unikraft

On POSIX an allocation that fails is reported as a success, with `MAP_FAILED` for its
block; the release of that block is refused for its alignment. On Unikraft a block that
was allocated may be reported as a failure, and is then never released. Both platforms
give back what they took, however the calls are ordered.
-/

namespace CloningApps.Memory
open Text Interaction
open Os (EINVAL ENOMEM)

/-! ## The functions -/

/-- Not implemented on POSIX. -/
def osAllocMaxContiguousMemoryPosix : BlockProg (ℤ × Option (ℕ × ULong)) := return (-1, none)

def osFreeMaxContiguousMemoryPosix (_start : ℕ) (_pagesNum : ULong) : BlockProg ℤ := return -1

def osFreePagesUnikraft (pageSize : ULong) (start : ℕ) (pagesNum : ULong) : BlockProg ℤ := do
  if start &&& (pageSize - 1).toNat ≠ 0 then
    return -EINVAL
  @Prog.ask blockInterface (.ukPfree start pagesNum)
  return 0

def osFreeMaxContiguousMemoryUnikraft (pageSize : ULong) (start : ℕ) (pagesNum : ULong) :
    BlockProg ℤ :=
  osFreePagesUnikraft pageSize start pagesNum

/-- What a platform implements of `mem.h`. -/
structure PageFunctions where
  allocPages : ULong → BlockProg (ℤ × Option ℕ)
  freePages : ℕ → ULong → BlockProg ℤ
  allocMaxContiguousMemory : BlockProg (ℤ × Option (ℕ × ULong))
  freeMaxContiguousMemory : ℕ → ULong → BlockProg ℤ

def posixFunctions (pageSize : ULong) : PageFunctions where
  allocPages := osAllocPagesPosix pageSize
  freePages := osFreePagesPosix pageSize
  allocMaxContiguousMemory := osAllocMaxContiguousMemoryPosix
  freeMaxContiguousMemory := osFreeMaxContiguousMemoryPosix

def unikraftFunctions (pageSize : ULong) : PageFunctions where
  allocPages := osAllocPagesUnikraft
  freePages := osFreePagesUnikraft pageSize
  allocMaxContiguousMemory := osAllocMaxContiguousMemoryUnikraft pageSize
  freeMaxContiguousMemory := osFreeMaxContiguousMemoryUnikraft pageSize

/-- A start and a number of pages, as a caller keeps them. -/
abbrev PageBlock := ℕ × ULong

/-- A call that may take a block: whether its code is zero, and what it stored. -/
inductive PageFunctions.Takes (F : PageFunctions) (E : Env blockInterface (Set ℕ)) (w : Set ℕ) :
    Bool → Option PageBlock → Set ℕ → Prop where
  | pages {pagesNum : ULong} {r : ℤ × Option ℕ} {told : Bool} {b : Option PageBlock} {w' : Set ℕ}
      (htold : told = decide (r.1 = 0)) (hb : b = r.2.map (·, pagesNum))
      (hrun : Reaches E (F.allocPages pagesNum, w) (.ret r, w')) : Takes F E w told b w'
  | max {b : PageBlock} {w' : Set ℕ}
      (hrun : Reaches E (F.allocMaxContiguousMemory, w) (.ret (0, some b), w')) :
      Takes F E w true (some b) w'
  | maxFails {r : ℤ × Option PageBlock} {w' : Set ℕ} (hrc : r.1 ≠ 0)
      (hrun : Reaches E (F.allocMaxContiguousMemory, w) (.ret r, w')) : Takes F E w false none w'

/-- A call that releases a block, and whether its code is zero. -/
inductive PageFunctions.GivesBack (F : PageFunctions) (E : Env blockInterface (Set ℕ))
    (w : Set ℕ) (b : PageBlock) : Bool → Set ℕ → Prop where
  | pages {rc : ℤ} {ok : Bool} {w' : Set ℕ} (hok : ok = decide (rc = 0))
      (hrun : Reaches E (F.freePages b.1 b.2, w) (.ret rc, w')) : GivesBack F E w b ok w'
  | max {rc : ℤ} {ok : Bool} {w' : Set ℕ} (hok : ok = decide (rc = 0))
      (hrun : Reaches E (F.freeMaxContiguousMemory b.1 b.2, w) (.ret rc, w')) :
      GivesBack F E w b ok w'

/-- The pages from an address on. -/
def pagesAt (shift start n : ℕ) : Set ℕ := Set.Ico (start / 2 ^ shift) (start / 2 ^ shift + n)

theorem pageMask_toNat {shift : ℕ} (hlt : shift < 64) :
    (BitVec.ofNat 64 (2 ^ shift) - 1).toNat = 2 ^ shift - 1 := by
  have hsize : 2 ^ shift < 2 ^ 64 := Nat.pow_lt_pow_right (by decide) hlt
  have hpos := Nat.two_pow_pos shift
  rw [BitVec.toNat_sub]
  simp only [BitVec.ofNat_eq_ofNat, BitVec.toNat_ofNat]
  omega

/-- The test that a release begins with. -/
theorem and_pageMask {shift : ℕ} (hlt : shift < 64) (start : ℕ) :
    start &&& (BitVec.ofNat 64 (2 ^ shift) - 1).toNat = 0 ↔ 2 ^ shift ∣ start := by
  rw [pageMask_toNat hlt, Nat.and_two_pow_sub_one_eq_mod]
  exact (Nat.dvd_iff_mod_eq_zero).symm

/-! ## POSIX -/

/-- The page size of the machine. -/
structure PageShift where
  shift : ℕ
  shift_pos : 0 < shift
  shift_lt : shift < 64

namespace PageShift
variable (m : PageShift)

def pageSize : ULong := BitVec.ofNat 64 (2 ^ m.shift)

/-- The kernel maps whole pages. -/
def pagesIn (length : ULong) : ℕ := (length.toNat + (2 ^ m.shift - 1)) / 2 ^ m.shift

/-- The mapped pages. `mmap` places a mapping where nothing is mapped; what `munmap` refuses stays
mapped. -/
def env : Env blockInterface (Set ℕ) where
  legal
    | mapped, .mmap length, start => start = MAP_FAILED ∨
        0 < start ∧ 2 ^ m.shift ∣ start ∧ Disjoint (pagesAt m.shift start (m.pagesIn length)) mapped
    | _, .munmap .., rc => rc = 0 ∨ rc = -1
    | _, _, _ => True
  effect
    | mapped, .mmap length, start =>
      if start = MAP_FAILED then mapped else mapped ∪ pagesAt m.shift start (m.pagesIn length)
    | mapped, .munmap start length, rc =>
      if rc = 0 then mapped \ pagesAt m.shift start (m.pagesIn length) else mapped
    | mapped, _, _ => mapped
  drift := fun _ _ => False

theorem env_still : m.env.Still := fun _ _ h => h

/-- The pages of a block, of which a mapping that failed has none. -/
def extent (b : PageBlock) : Set ℕ :=
  if b.1 = MAP_FAILED then ∅ else pagesAt m.shift b.1 (m.pagesIn (m.pageSize * b.2))

def Proper (b : PageBlock) : Prop := b.1 = MAP_FAILED ∨ 2 ^ m.shift ∣ b.1

variable {m}

theorem not_dvd_mapFailed : ¬ 2 ^ m.shift ∣ MAP_FAILED := by
  intro h
  have htwo : 2 ∣ MAP_FAILED := (dvd_pow_self 2 m.shift_pos.ne').trans h
  exact absurd htwo (by decide)

/-- A block is handed out whatever `mmap` answers. -/
theorem osAllocPagesPosix_safe (pagesNum : ULong) (mapped : Set ℕ) :
    Safe m.env (fun _ _ => True)
      (fun r mapped' => r.1 = 0 ∧ ∃ start, r.2 = some start ∧ m.Proper (start, pagesNum) ∧
        Disjoint (m.extent (start, pagesNum)) mapped ∧
        mapped' = mapped ∪ m.extent (start, pagesNum))
      (osAllocPagesPosix m.pageSize pagesNum) mapped := by
  apply Safe.call m.env_still trivial
  rintro (start : ℕ) (rfl | ⟨hpos, haligned, hdisj⟩)
  · have hne : MAP_FAILED ≠ 0 := by decide
    simp only [Prog.ret_bind, hne, ne_eq, not_false_eq_true, if_true]
    apply Safe.ret m.env_still
    refine ⟨rfl, MAP_FAILED, rfl, .inl rfl, ?_, ?_⟩
    · simp [extent]
    · simp [extent, env]
  · have hmapped : start ≠ MAP_FAILED := by
      rintro rfl
      exact not_dvd_mapFailed haligned
    simp only [Prog.ret_bind, hpos.ne', ne_eq, not_false_eq_true, if_true]
    apply Safe.ret m.env_still
    refine ⟨rfl, start, rfl, .inr haligned, ?_, ?_⟩
    · simpa only [extent, if_neg hmapped] using hdisj
    · simp only [extent, env, if_neg hmapped]

/-- What is refused stays as it was, and only `MAP_FAILED` is refused for its alignment. -/
theorem osFreePagesPosix_safe {b : PageBlock} (hb : m.Proper b) (mapped : Set ℕ) :
    Safe m.env (fun _ _ => True)
      (fun rc mapped' => mapped' = (if rc = 0 then mapped \ m.extent b else mapped) ∧
        (rc = -EINVAL ↔ b.1 = MAP_FAILED))
      (osFreePagesPosix m.pageSize b.1 b.2) mapped := by
  unfold osFreePagesPosix
  by_cases haligned : 2 ^ m.shift ∣ b.1
  · have hmapped : b.1 ≠ MAP_FAILED := by
      intro h
      rw [h] at haligned
      exact not_dvd_mapFailed haligned
    have hand : b.1 &&& (m.pageSize - 1).toNat = 0 := (and_pageMask m.shift_lt b.1).mpr haligned
    simp only [hand, ne_eq, not_true_eq_false, if_false]
    apply Safe.call m.env_still trivial
    rintro (rc : ℤ) hrc
    apply Safe.ret m.env_still
    refine ⟨?_, iff_of_false ?_ hmapped⟩
    · simp only [extent, env, if_neg hmapped]
    · have hzero : (0 : ℤ) ≠ -EINVAL := by decide
      have hminus : (-1 : ℤ) ≠ -EINVAL := by decide
      rcases hrc with rfl | rfl
      · exact hzero
      · exact hminus
  · have hmapped : b.1 = MAP_FAILED := hb.resolve_right haligned
    have hand : b.1 &&& (m.pageSize - 1).toNat ≠ 0 := mt (and_pageMask m.shift_lt b.1).mp haligned
    simp only [hand, ne_eq, not_false_eq_true, if_true]
    apply Safe.ret m.env_still
    exact ⟨(if_neg (by decide)).symm, iff_of_true rfl hmapped⟩

theorem takes_cases {w w' : Set ℕ} {told : Bool} {b : Option PageBlock}
    (h : (posixFunctions m.pageSize).Takes m.env w told b w') :
    (told = false ∧ b = none ∧ w' = w) ∨
      ∃ c, told = true ∧ b = some c ∧ m.Proper c ∧ Disjoint (m.extent c) w ∧
        w' = w ∪ m.extent c := by
  have hmax : ∀ {r : ℤ × Option PageBlock} {w' : Set ℕ},
      Reaches m.env (osAllocMaxContiguousMemoryPosix, w) (.ret r, w') → r.1 = -1 ∧ w' = w := by
    intro r w' hrun
    have hsafe : Safe m.env (fun _ _ => True)
        (fun (r : ℤ × Option PageBlock) w' => r.1 = -1 ∧ w' = w)
        osAllocMaxContiguousMemoryPosix w := Safe.ret m.env_still ⟨rfl, rfl⟩
    exact hsafe _ _ hrun
  cases h with
  | @pages pagesNum r _ _ _ htold hb hrun =>
    obtain ⟨hrc, start, hstored, hrest⟩ := osAllocPagesPosix_safe pagesNum w _ _ hrun
    exact .inr ⟨(start, pagesNum), by simp [htold, hrc], by simp [hb, hstored], hrest⟩
  | max hrun =>
    have hzero : (0 : ℤ) ≠ -1 := by decide
    exact absurd (hmax hrun).1 hzero
  | maxFails hrc hrun => exact .inl ⟨rfl, rfl, (hmax hrun).2⟩

theorem takes_some {w w' : Set ℕ} {told : Bool} {b : PageBlock}
    (h : (posixFunctions m.pageSize).Takes m.env w told (some b) w') :
    told = true ∧ m.Proper b ∧ Disjoint (m.extent b) w ∧ w' = w ∪ m.extent b := by
  obtain ⟨-, hnone, -⟩ | ⟨c, htold, hc, hrest⟩ := takes_cases h
  · cases hnone
  · obtain rfl := Option.some.inj hc
    exact ⟨htold, hrest⟩

theorem takes_none {w w' : Set ℕ} {told : Bool}
    (h : (posixFunctions m.pageSize).Takes m.env w told none w') : w' = w := by
  obtain ⟨-, -, heq⟩ | ⟨c, -, hc, -⟩ := takes_cases h
  · exact heq
  · cases hc

theorem givesBack_eq {w w' : Set ℕ} {ok : Bool} {b : PageBlock} (hb : m.Proper b)
    (h : (posixFunctions m.pageSize).GivesBack m.env w b ok w') :
    w' = if ok then w \ m.extent b else w := by
  cases h with
  | @pages rc _ _ hok hrun =>
    have hfreed := (osFreePagesPosix_safe hb w _ _ hrun).1
    simpa [hok] using hfreed
  | @max rc _ _ hok hrun =>
    have hsafe : Safe m.env (fun _ _ => True) (fun (rc : ℤ) w' => rc = -1 ∧ w' = w)
        (osFreeMaxContiguousMemoryPosix b.1 b.2) w := Safe.ret m.env_still ⟨rfl, rfl⟩
    obtain ⟨rfl, rfl⟩ := hsafe _ _ hrun
    simp [hok]

variable (m)

/-- The functions on POSIX lend the pages that are mapped. -/
def lender : Lender (Set ℕ) PageBlock ℕ where
  used := id
  extent := m.extent
  Proper := m.Proper
  take := (posixFunctions m.pageSize).Takes m.env
  giveBack := (posixFunctions m.pageSize).GivesBack m.env
  take_proper h := (takes_some h).2.1
  take_disjoint h := (takes_some h).2.2.1
  take_some h := (takes_some h).2.2.2
  take_none h := takes_none h
  giveBack_accepted hb h := givesBack_eq hb h
  giveBack_refused hb h := givesBack_eq hb h

variable {m} {mapped : Set ℕ} {a : Accounts (Set ℕ) PageBlock}

theorem deals_lost (hdeals : m.lender.Deals ⟨mapped, [], []⟩ a) : a.lost = [] := by
  apply Lender.Deals.lost_eq_nil _ hdeals
  intro w b w' htake
  exact absurd (takes_some htake).1 (by decide)

/-- However allocations and releases are ordered, the pages mapped are the first ones and those of
the blocks that are held, which are apart. A release unmaps the pages of its block or none, and it
is refused for the alignment when the block is that of a failed mapping, and only then; when no
other block is held, the pages mapped are the first ones. -/
theorem mapped_balanced (hdeals : m.lender.Deals ⟨mapped, [], []⟩ a) :
    a.lost = [] ∧ m.lender.Balanced mapped a.world a.held ∧
      (∀ b ∈ a.held, ∀ rc w, Reaches m.env
        (osFreePagesPosix m.pageSize b.1 b.2, a.world) (.ret rc, w) →
          w = (if rc = 0 then a.world \ m.extent b else a.world) ∧
            (rc = -EINVAL ↔ b.1 = MAP_FAILED)) ∧
      ((∀ b ∈ a.held, b.1 = MAP_FAILED) → a.world = mapped) := by
  have hlost := deals_lost hdeals
  have hbalanced : m.lender.Balanced mapped a.world a.held := by
    have hout : a.out = a.held := by rw [Accounts.out, hlost, List.append_nil]
    exact hout ▸ hdeals.balanced
  refine ⟨hlost, hbalanced, fun b hb rc w hrun => ?_, fun hfailed => ?_⟩
  · exact osFreePagesPosix_safe (hbalanced.proper b hb) a.world _ _ hrun
  · have hused : a.world = mapped ∪ {u | ∃ b ∈ a.held, u ∈ m.extent b} := hbalanced.used_eq
    have hnone : {u | ∃ b ∈ a.held, u ∈ m.extent b} = ∅ := by
      apply Set.eq_empty_of_forall_notMem
      rintro u ⟨b, hb, hu⟩
      rw [extent, if_pos (hfailed b hb)] at hu
      exact hu
    rw [hused, hnone, Set.union_empty]

/-- Pages of 4096 bytes. -/
def fourKilobytes : PageShift := ⟨12, by decide, by decide⟩

/-- One page is mapped, another mapping fails, and the page is unmapped. -/
theorem mapped_balanced_failed :
    ∃ a, fourKilobytes.lender.Deals ⟨∅, [], []⟩ a ∧ a.held = [(MAP_FAILED, 1)] ∧ a.world = ∅ := by
  let page : Set ℕ := ∅ ∪ pagesAt 12 (8 * 2 ^ 12) (fourKilobytes.pagesIn (4096 * 1))
  let left : Set ℕ := page \ pagesAt 12 (8 * 2 ^ 12) (fourKilobytes.pagesIn (4096 * 1))
  have hplaced : fourKilobytes.env.legal ∅ (.mmap (4096 * 1)) (8 * 2 ^ 12) :=
    .inr ⟨by decide, Nat.dvd_mul_left _ _, Set.disjoint_empty _⟩
  have hfirst : fourKilobytes.lender.take ∅ true (some (8 * 2 ^ 12, 1)) page :=
    .pages (r := (0, some (8 * 2 ^ 12))) rfl rfl (.single (.call _ hplaced))
  have hfailed : fourKilobytes.env.legal page (.mmap (4096 * 1)) MAP_FAILED := .inl rfl
  have hsecond : fourKilobytes.lender.take page true (some (MAP_FAILED, 1)) page :=
    .pages (r := (0, some MAP_FAILED)) rfl rfl (.single (.call _ hfailed))
  have hunmapped : fourKilobytes.env.legal page (.munmap (8 * 2 ^ 12) (4096 * 1)) (0 : ℤ) :=
    .inl rfl
  have haligned : osFreePagesPosix fourKilobytes.pageSize (8 * 2 ^ 12) 1 =
      .call (.munmap (8 * 2 ^ 12) (4096 * 1)) .ret := if_neg (by decide)
  have hrun : Reaches fourKilobytes.env
      (osFreePagesPosix fourKilobytes.pageSize (8 * 2 ^ 12) 1, page) (.ret 0, left) := by
    have heffect :
        fourKilobytes.env.effect page (.munmap (8 * 2 ^ 12) (4096 * 1)) (0 : ℤ) = left := by
      simp only [PageShift.env, if_true]
      rfl
    rw [haligned, ← heffect]
    exact .single (.call _ hunmapped)
  have hback : fourKilobytes.lender.giveBack page (8 * 2 ^ 12, 1) true left := .pages rfl hrun
  let a : Accounts (Set ℕ) PageBlock := ⟨left, [(MAP_FAILED, 1)], []⟩
  have hreturned : fourKilobytes.lender.Deal
      ⟨page, [(MAP_FAILED, 1), (8 * 2 ^ 12, 1)], []⟩ a :=
    .returned (a := ⟨page, [(MAP_FAILED, 1)] ++ (8 * 2 ^ 12, 1) :: [], []⟩) rfl hback
  have hdeals : fourKilobytes.lender.Deals ⟨∅, [], []⟩ a :=
    ((Relation.ReflTransGen.single (.lent hfirst)).tail (.lent hsecond)).tail hreturned
  exact ⟨a, hdeals, rfl, (mapped_balanced hdeals).2.2.2 (by simp [a])⟩

end PageShift

/-! ## Unikraft -/

namespace Unikraft

def pageSize : ULong := BitVec.ofNat 64 (2 ^ 12)

def Proper (b : PageBlock) : Prop := 2 ^ 12 ∣ b.1

def extent (b : PageBlock) : Set ℕ := pagesAt 12 b.1 b.2.toNat

variable {pages : ℕ} {b : PageBlock} {free : Set ℕ}

theorem env_still : (freeRuns pages).pagesEnv.Still := fun _ _ h => h

/-- What the heap hands out was free. -/
theorem extent_subset (h : (freeRuns pages).offers free b.2.toNat b.1) : extent b ⊆ free := by
  obtain ⟨-, page, -, hfree, hstart⟩ := h
  have hpage : b.1 / 2 ^ 12 = page := by rw [hstart, Nat.mul_div_cancel page (by decide)]
  rw [extent, pagesAt, hpage]
  exact hfree

theorem osAllocPagesUnikraft_safe (pagesNum : ULong) (free : Set ℕ) :
    Safe (freeRuns pages).pagesEnv (fun _ _ => True)
      (fun r free' => (r = (-ENOMEM, none) ∧ free' = free) ∨
        ∃ start, r.2 = some start ∧ (freeRuns pages).offers free pagesNum.toNat start ∧
          free' = free \ extent (start, pagesNum))
      (osAllocPagesUnikraft pagesNum) free := by
  apply Safe.call env_still trivial
  rintro (start : ℕ) (hoffers | ⟨rfl, -⟩)
  · have hne := ((freeRuns pages).offers_pos _ _ _ hoffers).ne'
    simp only [Prog.ret_bind, hne, ne_eq, not_false_eq_true, if_true]
    apply Safe.call env_still trivial
    intro rc _
    apply Safe.ret env_still
    exact .inr ⟨start, rfl, hoffers, if_pos hne⟩
  · simp only [Prog.ret_bind, ne_eq, not_true_eq_false, if_false]
    apply Safe.ret env_still
    exact .inl ⟨rfl, rfl⟩

theorem osFreePagesUnikraft_safe (hb : Proper b) (free : Set ℕ) :
    Safe (freeRuns pages).pagesEnv (fun _ _ => True)
      (fun rc free' => rc = 0 ∧ free' = free ∪ extent b)
      (osFreePagesUnikraft pageSize b.1 b.2) free := by
  have hand : b.1 &&& (pageSize - 1).toNat = 0 := (and_pageMask (by decide) b.1).mpr hb
  unfold osFreePagesUnikraft
  simp only [hand, ne_eq, not_true_eq_false, if_false]
  apply Safe.call env_still trivial
  intro _ _
  exact Safe.ret env_still ⟨rfl, rfl⟩

/-- The search takes the block that it stores, and nothing when it fails. -/
theorem osAllocMaxContiguousMemoryUnikraft_cases (hpages : pages < 2 ^ 31)
    {r : ℤ × Option PageBlock} {free free' : Set ℕ}
    (hrun : Reaches (freeRuns pages).pagesEnv (osAllocMaxContiguousMemoryUnikraft pageSize, free)
      (.ret r, free')) :
    (r.1 ≠ 0 ∧ free' = free) ∨ r.1 = 0 ∧ ∃ b, r.2 = some b ∧
      (freeRuns pages).offers free b.2.toNat b.1 ∧ free' = free \ extent b := by
  have hlargest := unikraft_largest hpages (freeRuns_servesSmaller pages free)
    (freeRuns_restores pages free)
  cases hlargest.reaches env_still hrun with
  | ret hfound =>
    by_cases hrc : r.1 = -1
    · exact .inl ⟨by rw [hrc]; decide, hfound.unchanged hrc⟩
    · obtain ⟨hzero, start, pagesNum, k, hstored, -, hnum, hoffers, htaken, -⟩ := hfound.found hrc
      rw [← hnum] at hoffers htaken
      exact .inr ⟨hzero, (start, pagesNum), hstored, hoffers, htaken⟩

theorem takes_cases (hpages : pages < 2 ^ 31) {free' : Set ℕ} {told : Bool} {b : Option PageBlock}
    (h : (unikraftFunctions pageSize).Takes (freeRuns pages).pagesEnv free told b free') :
    (told = false ∧ b = none ∧ free' = free) ∨
      ∃ c, b = some c ∧ (freeRuns pages).offers free c.2.toNat c.1 ∧
        free' = free \ extent c := by
  cases h with
  | @pages pagesNum r _ _ _ htold hb hrun =>
    obtain ⟨rfl, rfl⟩ | ⟨start, hstored, hrest⟩ := osAllocPagesUnikraft_safe pagesNum free _ _ hrun
    · exact .inl ⟨htold.trans (by decide), hb, rfl⟩
    · exact .inr ⟨(start, pagesNum), by simp [hb, hstored], hrest⟩
  | @max c _ hrun =>
    obtain ⟨hrc, -⟩ | ⟨-, d, hd, hrest⟩ := osAllocMaxContiguousMemoryUnikraft_cases hpages hrun
    · exact absurd rfl hrc
    · exact .inr ⟨d, hd, hrest⟩
  | maxFails hrc hrun =>
    obtain ⟨-, heq⟩ | ⟨hzero, -⟩ := osAllocMaxContiguousMemoryUnikraft_cases hpages hrun
    · exact .inl ⟨rfl, rfl, heq⟩
    · exact absurd hzero hrc

theorem takes_some (hpages : pages < 2 ^ 31) {free' : Set ℕ} {told : Bool}
    (h : (unikraftFunctions pageSize).Takes (freeRuns pages).pagesEnv free told (some b) free') :
    (freeRuns pages).offers free b.2.toNat b.1 ∧ free' = free \ extent b := by
  obtain ⟨-, hnone, -⟩ | ⟨c, hc, hrest⟩ := takes_cases hpages h
  · cases hnone
  · obtain rfl := Option.some.inj hc
    exact hrest

theorem takes_none (hpages : pages < 2 ^ 31) {free' : Set ℕ} {told : Bool}
    (h : (unikraftFunctions pageSize).Takes (freeRuns pages).pagesEnv free told none free') :
    free' = free := by
  obtain ⟨-, -, heq⟩ | ⟨c, hc, -⟩ := takes_cases hpages h
  · exact heq
  · cases hc

theorem givesBack_eq (hb : Proper b) {free' : Set ℕ} {ok : Bool}
    (h : (unikraftFunctions pageSize).GivesBack (freeRuns pages).pagesEnv free b ok free') :
    ok = true ∧ free' = free ∪ extent b := by
  cases h with
  | pages hok hrun | max hok hrun =>
    obtain ⟨rfl, heq⟩ := osFreePagesUnikraft_safe hb free _ _ hrun
    exact ⟨hok, heq⟩

/-- A block from the heap starts at a page. -/
theorem proper_of_offers (h : (freeRuns pages).offers free b.2.toNat b.1) : Proper b :=
  (freeRuns pages).offers_aligned _ _ _ h

/-- The functions on Unikraft lend the pages of the heap; those in use are not free. -/
def lender (hpages : pages < 2 ^ 31) : Lender (Set ℕ) PageBlock ℕ where
  used free := freeᶜ
  extent := extent
  Proper := Proper
  take := (unikraftFunctions pageSize).Takes (freeRuns pages).pagesEnv
  giveBack := (unikraftFunctions pageSize).GivesBack (freeRuns pages).pagesEnv
  take_proper h := proper_of_offers (takes_some hpages h).1
  take_disjoint h := Set.disjoint_compl_right_iff_subset.mpr (extent_subset (takes_some hpages h).1)
  take_some h := by rw [(takes_some hpages h).2, Set.compl_sdiff, Set.union_comm]
  take_none h := congrArg compl (takes_none hpages h)
  giveBack_accepted hb h := by
    rw [(givesBack_eq hb h).2, Set.compl_union, Set.sdiff_eq]
  giveBack_refused hb h := absurd (givesBack_eq hb h).1 (by decide)

variable {a : Accounts (Set ℕ) PageBlock}

/-- However allocations, searches and releases are ordered, the pages in use are the first ones and
those of the blocks that are out, which are apart. Every release of a block that is held frees
exactly its pages; when none is held, all that is missing is what was taken without a report. -/
theorem heap_balanced (hpages : pages < 2 ^ 31)
    (hdeals : (lender hpages).Deals ⟨free, [], []⟩ a) :
    (lender hpages).Balanced freeᶜ a.world (a.held ++ a.lost) ∧
      (∀ b ∈ a.held, ∀ rc w, Reaches (freeRuns pages).pagesEnv
        (osFreePagesUnikraft pageSize b.1 b.2, a.world) (.ret rc, w) →
          rc = 0 ∧ w = a.world ∪ extent b ∧ Disjoint (extent b) a.world) ∧
      (a.held = [] → a.world = free \ {u | ∃ b ∈ a.lost, u ∈ extent b}) := by
  have hbalanced := hdeals.balanced
  refine ⟨hbalanced, fun b hb rc w hrun => ?_, fun hheld => ?_⟩
  · have hout : b ∈ a.out := List.mem_append_left a.lost hb
    have hused : extent b ⊆ a.worldᶜ := hbalanced.subset_used hout
    obtain ⟨hrc, hw⟩ := osFreePagesUnikraft_safe (hbalanced.proper b hout) a.world _ _ hrun
    exact ⟨hrc, hw, Set.subset_compl_iff_disjoint_right.mp hused⟩
  · have hused : a.worldᶜ = freeᶜ ∪ {u | ∃ b ∈ a.out, u ∈ extent b} := hbalanced.used_eq
    have hout : a.out = a.lost := by rw [Accounts.out, hheld, List.nil_append]
    rw [← compl_compl a.world, hused, hout, Set.compl_union, compl_compl, Set.sdiff_eq]

/-- A page is taken, and the code on the stack is not zero. -/
theorem heap_balanced_hidden :
    ∃ a, (lender (show 8 < 2 ^ 31 by decide)).Deals ⟨Set.Icc 1 8, [], []⟩ a ∧
      a.world = Set.Icc 1 8 \ {u | ∃ b ∈ [(2 ^ 12, 1)], u ∈ extent b} := by
  have hpages : 8 < 2 ^ 31 := by decide
  have hoffers : (freeRuns 8).pagesEnv.legal (Set.Icc 1 8) (.ukPalloc 1) (2 ^ 12) := by
    refine .inl ⟨by decide, 1, by decide, ?_, rfl⟩
    intro q hq
    have hlt : q < 1 + 1 := hq.2
    exact ⟨hq.1, by omega⟩
  have hstack : (freeRuns 8).pagesEnv.legal ((freeRuns 8).taken (Set.Icc 1 8) 1 (2 ^ 12))
      .indeterminate (1 : ℤ) := trivial
  have hrun : Reaches (freeRuns 8).pagesEnv (osAllocPagesUnikraft 1, Set.Icc 1 8)
      (.ret (1, some (2 ^ 12)), (freeRuns 8).taken (Set.Icc 1 8) 1 (2 ^ 12)) := by
    have heffect : (freeRuns 8).pagesEnv.effect (Set.Icc 1 8) (.ukPalloc 1) (2 ^ 12 : ℕ) =
        (freeRuns 8).taken (Set.Icc 1 8) 1 (2 ^ 12) := by simp [BlockAllocator.pagesEnv]
    apply Relation.ReflTransGen.head (.call (2 ^ 12 : ℕ) hoffers)
    have hne : (2 ^ 12 : ℕ) ≠ 0 := by decide
    simp only [hne, ne_eq, not_false_eq_true, if_true, heffect, Prog.bind_eq, Prog.ask, Prog.bind,
      Prog.pure_eq]
    exact .single (.call _ hstack)
  have htaken : (lender hpages).take (Set.Icc 1 8) false (some (2 ^ 12, 1))
      ((freeRuns 8).taken (Set.Icc 1 8) 1 (2 ^ 12)) :=
    .pages (r := (1, some (2 ^ 12))) rfl rfl hrun
  have hhidden := Lender.Deal.hidden (a := ⟨Set.Icc 1 8, [], []⟩) htaken
  have hdeals := Relation.ReflTransGen.single hhidden
  exact ⟨_, hdeals, (heap_balanced hpages hdeals).2.2 rfl⟩

end Unikraft

end CloningApps.Memory
