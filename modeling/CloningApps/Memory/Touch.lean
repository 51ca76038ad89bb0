import CloningApps.Interaction.Always
import CloningApps.Memory.ByteMemory
import CloningApps.Memory.Size
import CloningApps.Net.SendTime

/-! # Touching pages

`mem_touch_pages` writes the number of every page at its start and then checks
that all the numbers are still there. The memory may be changed by others, in
any way, between the last write and the first check.
-/

namespace CloningApps.Memory
open Text Interaction Os Net

structure Timespec where
  sec : ℤ
  nsec : ℤ
  deriving DecidableEq

inductive MemCall where
  | load (p : ULong)
  | store (p v : ULong)
  | clockGettime (clkId : ℤ)

@[reducible] def MemCall.Answer : MemCall → Type
  | .load _ => ULong
  | .store .. => Unit
  | .clockGettime _ => ℤ × Timespec

abbrev machine : Interface := ⟨MemCall, MemCall.Answer⟩

abbrev MemProg := Prog machine

abbrev mem (c : MemCall) : MemProg c.Answer := @Prog.ask machine c

def CLOCK_MONOTONIC : ℤ := 1

/-- The first loop of `mem_touch_pages`. -/
def writePages (start osPageSize pagesNum : ULong) : MemProg Unit :=
  Prog.iterate (fun (i : ULong) => do
    if i < pagesNum then
      mem (.store (start + i * osPageSize) i)
      return .inl (i + 1)
    return .inr ()) 0

/-- The second loop of `mem_touch_pages`. -/
def verifyPages (start osPageSize pagesNum : ULong) : MemProg ℤ :=
  Prog.iterate (fun (i : ULong) => do
    if i < pagesNum then
      let found ← mem (.load (start + i * osPageSize))
      if found ≠ i then
        return .inr (-1)
      return .inl (i + 1)
    return .inr 0) 0

/-- The clock is read only when `duration` is given. -/
def readClock (timed : Bool) : MemProg (ℤ × Timespec) :=
  if timed then mem (.clockGettime CLOCK_MONOTONIC) else return (0, ⟨0, 0⟩)

def Timespec.toTimeval (ts : Timespec) : Timeval := ⟨ts.sec, ts.nsec.tdiv 1000⟩

/-- The result of `mem_touch_pages`, what it stored at `duration` and the global `os_page_size`. -/
structure Touched where
  rc : ℤ
  duration : Option Timeval
  osPageSize : ULong
  deriving DecidableEq

def memTouchPages (osGetPageSize : BitVec 32) (osPageSize start pagesNum : ULong) (timed : Bool) :
    MemProg Touched := do
  let ps := ensurePageSize osGetPageSize osPageSize
  let (rc, before) ← readClock timed
  if rc ≠ 0 then
    return ⟨rc, none, ps⟩
  writePages start ps pagesNum
  let (rc, after) ← readClock timed
  if rc ≠ 0 then
    return ⟨rc, none, ps⟩
  let rc ← verifyPages start ps pagesNum
  if rc ≠ 0 then
    return ⟨rc, none, ps⟩
  if timed then
    return ⟨0, some (timersub after.toTimeval before.toTimeval), ps⟩
  return ⟨0, none, ps⟩

/-! ## The memory -/

/-- The bytes, how many words were stored, how often the clock was read, and the words that were
accessed. -/
structure Ram where
  bytes : Bytes 64
  stores : ℕ
  readings : ℕ
  accessed : List ULong

/-- What a machine does on its own: the readings of its clocks, and how it alters the memory after
the given number of stores. -/
structure Machine where
  clock : ℤ → ℕ → ℤ × Timespec
  stores : ℕ
  alter : Bytes 64 → Bytes 64

namespace Machine

def legal (M : Machine) (w : Ram) : (c : MemCall) → c.Answer → Prop
  | .load p, v => v = w.bytes.load 8 p
  | .store .., _ => True
  | .clockGettime clkId, r => r = M.clock clkId w.readings

def effect (M : Machine) (w : Ram) : (c : MemCall) → c.Answer → Ram
  | .load p, _ => { w with accessed := p :: w.accessed }
  | .store p v, _ =>
    let bytes := w.bytes.store (n := 8) p v
    { w with
      bytes := if w.stores + 1 = M.stores then M.alter bytes else bytes
      stores := w.stores + 1
      accessed := p :: w.accessed }
  | .clockGettime _, _ => { w with readings := w.readings + 1 }

def env (M : Machine) : Env machine Ram where
  legal := M.legal
  effect := M.effect
  drift := fun _ _ => False

end Machine

/-! ## The pages -/

/-- The address of a page. -/
def page (start ps : ULong) (i : ℕ) : ULong := start + BitVec.ofNat 64 i * ps

/-- Pages that hold a word each and do not wrap around the address space. -/
structure PageRange (start ps pagesNum : ULong) : Prop where
  stride : 8 ≤ ps.toNat
  fits : start.toNat + pagesNum.toNat * ps.toNat ≤ 2 ^ 64

/-- The memory once the first pages are written. -/
def writtenPages (start ps : ULong) (m : Bytes 64) : ℕ → Bytes 64
  | 0 => m
  | k + 1 => (writtenPages start ps m k).store (n := 8) (page start ps k) (BitVec.ofNat 64 k)

section Pages
variable {start ps pagesNum : ULong} {m : Bytes 64} {i j k : ℕ}

theorem page_end (start ps : ULong) (hi : i < pagesNum.toNat) :
    start.toNat + i * ps.toNat + ps.toNat ≤ start.toNat + pagesNum.toNat * ps.toNat := by
  have hmul : (i + 1) * ps.toNat ≤ pagesNum.toNat * ps.toNat := Nat.mul_le_mul_right _ hi
  rw [Nat.add_mul, Nat.one_mul] at hmul
  omega

theorem PageRange.page_toNat (h : PageRange start ps pagesNum) (hi : i < pagesNum.toNat) :
    (page start ps i).toNat = start.toNat + i * ps.toNat := by
  have hend := page_end start ps hi
  have hfits := h.fits
  have hstride := h.stride
  have hpages := pagesNum.isLt
  rw [page, BitVec.toNat_add, BitVec.toNat_mul, BitVec.toNat_ofNat,
    Nat.mod_eq_of_lt (a := i) (by omega), Nat.mod_eq_of_lt (a := i * ps.toNat) (by omega),
    Nat.mod_eq_of_lt (by omega)]

/-- A word at the start of a page ends before the range does. -/
theorem PageRange.word_end (h : PageRange start ps pagesNum) (hi : i < pagesNum.toNat) :
    (page start ps i).toNat + 8 ≤ start.toNat + pagesNum.toNat * ps.toNat := by
  have hend := page_end start ps hi
  have hstride := h.stride
  rw [h.page_toNat hi]
  omega

theorem PageRange.words_apart (h : PageRange start ps pagesNum) (hij : i < j)
    (hj : j < pagesNum.toNat) : (page start ps i).toNat + 8 ≤ (page start ps j).toNat := by
  have hmul : (i + 1) * ps.toNat ≤ j * ps.toNat := Nat.mul_le_mul_right _ hij
  have hstride := h.stride
  rw [Nat.add_mul, Nat.one_mul] at hmul
  rw [h.page_toNat (hij.trans hj), h.page_toNat hj]
  omega

/-- Later writes do not reach the words of earlier pages. -/
theorem PageRange.load_writtenPages (h : PageRange start ps pagesNum) (hk : k ≤ pagesNum.toNat)
    (hi : i < k) :
    (writtenPages start ps m k).load 8 (page start ps i) = BitVec.ofNat 64 i := by
  induction k with
  | zero => exact absurd hi (Nat.not_lt_zero i)
  | succ k ih =>
    rw [writtenPages]
    by_cases hik : i = k
    · rw [hik]
      exact Bytes.load_store (by decide)
    · have hapart := h.words_apart (show i < k by omega) (show k < pagesNum.toNat by omega)
      have hend := h.word_end (show k < pagesNum.toNat by omega)
      have hfits := h.fits
      rw [Bytes.load_store_of_apart (by omega) (by omega) (.inr hapart)]
      exact ih (by omega) (by omega)

/-- An address that belongs to no word at the start of a page. -/
def OutsideWords (start ps pagesNum x : ULong) : Prop :=
  ∀ i < pagesNum.toNat, x.toNat < (page start ps i).toNat ∨ (page start ps i).toNat + 8 ≤ x.toNat

theorem PageRange.writtenPages_outside (h : PageRange start ps pagesNum) {x : ULong}
    (hk : k ≤ pagesNum.toNat) (hx : OutsideWords start ps pagesNum x) :
    writtenPages start ps m k x = m x := by
  induction k with
  | zero => rfl
  | succ k ih =>
    have hend := h.word_end (show k < pagesNum.toNat by omega)
    have hfits := h.fits
    rw [writtenPages, Bytes.store_of_le (le_sub_toNat (by omega) (hx k hk)), ih (by omega)]

end Pages

/-! ## The two loops -/

/-- The memory once `k` pages are written, altered if that was the last write. -/
def Machine.memoryAfter (M : Machine) (start ps : ULong) (m : Bytes 64) (k : ℕ) : Bytes 64 :=
  if k ≠ 0 ∧ k = M.stores then M.alter (writtenPages start ps m k) else writtenPages start ps m k

section Loops
variable {M : Machine} {start ps pagesNum : ULong} {w : Ram}

theorem Machine.env_still (M : Machine) : M.env.Still := fun _ _ h => h

theorem Machine.memoryAfter_succ {m : Bytes 64} {k : ℕ} (hk : k < M.stores) :
    M.memoryAfter start ps m (k + 1) =
      let bytes := (M.memoryAfter start ps m k).store (n := 8) (page start ps k) (BitVec.ofNat 64 k)
      if k + 1 = M.stores then M.alter bytes else bytes := by
  have hlast : ¬ (k ≠ 0 ∧ k = M.stores) := by omega
  simp only [memoryAfter, hlast, if_false, writtenPages]
  simp

/-- Every access was to a word of the range. -/
def Within (start ps pagesNum : ULong) (w : Ram) : Prop :=
  ∀ p ∈ w.accessed, start.toNat ≤ p.toNat ∧
    p.toNat + 8 ≤ start.toNat + pagesNum.toNat * ps.toNat

theorem PageRange.access (h : PageRange start ps pagesNum) {i : ℕ} (hi : i < pagesNum.toNat) :
    start.toNat ≤ (page start ps i).toNat ∧
      (page start ps i).toNat + 8 ≤ start.toNat + pagesNum.toNat * ps.toNat := by
  refine ⟨?_, h.word_end hi⟩
  rw [h.page_toNat hi]
  exact Nat.le_add_right _ _

theorem page_toNat_eq (start ps i : ULong) : page start ps i.toNat = start + i * ps := by
  rw [page, BitVec.ofNat_toNat, BitVec.setWidth_eq]

/-- The machine after `k` pages were written. -/
structure WrittenTo (M : Machine) (start ps pagesNum : ULong) (w : Ram) (k : ℕ) (w' : Ram) :
    Prop where
  le : k ≤ pagesNum.toNat
  bytes : w'.bytes = M.memoryAfter start ps w.bytes k
  stores : w'.stores = k
  readings : w'.readings = w.readings
  within : PageRange start ps pagesNum → Within start ps pagesNum w'

/-- A word is accessed at the start of a page of the range. -/
theorem Within.cons {i : ULong} (h : PageRange start ps pagesNum) (hw : Within start ps pagesNum w)
    (hlt : i.toNat < pagesNum.toNat) :
    Within start ps pagesNum { w with accessed := (start + i * ps) :: w.accessed } := by
  apply List.forall_mem_cons.mpr ⟨?_, hw⟩
  rw [← page_toNat_eq]
  exact h.access hlt

theorem WrittenTo.next {i : ULong} {w' : Ram} (hinv : WrittenTo M start ps pagesNum w i.toNat w')
    (hM : M.stores = pagesNum.toNat) (hlt : i.toNat < pagesNum.toNat) :
    WrittenTo M start ps pagesNum w (i + 1).toNat (M.effect w' (.store (start + i * ps) i) ()) := by
  have hnext := counter_succ hlt
  refine ⟨?_, ?_, ?_, hinv.readings, fun h => (hinv.within h).cons h hlt⟩
  · omega
  · rw [hnext, M.memoryAfter_succ (by omega), ← hinv.bytes, page_toNat_eq, BitVec.ofNat_toNat,
      BitVec.setWidth_eq, ← hinv.stores]
    rfl
  · rw [hnext, ← hinv.stores]
    rfl

/-- A loop over the pages is left when all of them were visited. -/
theorem visited_all {i : ULong} (hle : i.toNat ≤ pagesNum.toNat) (hge : ¬ i < pagesNum) :
    i.toNat = pagesNum.toNat := by
  have hge' : ¬ i.toNat < pagesNum.toNat := hge
  omega

theorem writePages_always (hM : M.stores = pagesNum.toNat)
    (hw : WrittenTo M start ps pagesNum w 0 w) :
    Always M.env (fun _ w' => WrittenTo M start ps pagesNum w pagesNum.toNat w')
      (writePages start ps pagesNum) w := by
  apply Always.loop_decreasing (fun i w' => WrittenTo M start ps pagesNum w i.toNat w')
    (fun i => pagesNum.toNat - i.toNat) _ hw
  intro i w' hinv
  split
  · rename_i hlt
    have hlt' : i.toNat < pagesNum.toNat := hlt
    have hnext := counter_succ hlt'
    apply Always.call ⟨(), trivial⟩
    intro _ _
    apply Always.ret
    exact ⟨hinv.next hM hlt', by omega⟩
  · rename_i hge
    apply Always.ret
    apply Always.ret
    rwa [← visited_all hinv.le hge]

/-- The words of the first pages hold the numbers of their pages. -/
def Numbered (start ps : ULong) (m : Bytes 64) (k : ℕ) : Prop :=
  ∀ i < k, m.load 8 (page start ps i) = BitVec.ofNat 64 i

/-- The machine while the pages are checked. -/
structure Checking (start ps pagesNum : ULong) (w : Ram) (k : ℕ) (w' : Ram) : Prop where
  le : k ≤ pagesNum.toNat
  bytes : w'.bytes = w.bytes
  numbered : Numbered start ps w.bytes k
  within : PageRange start ps pagesNum → Within start ps pagesNum w'

/-- What checking the pages finds out. -/
structure Checked (start ps pagesNum : ULong) (w : Ram) (rc : ℤ) (w' : Ram) : Prop where
  bytes : w'.bytes = w.bytes
  code : rc = 0 ∧ Numbered start ps w.bytes pagesNum.toNat ∨
    rc = -1 ∧ ¬ Numbered start ps w.bytes pagesNum.toNat
  within : PageRange start ps pagesNum → Within start ps pagesNum w'

theorem Numbered.word {m : Bytes 64} {k : ℕ} {i : ULong} (h : Numbered start ps m k)
    (hi : i.toNat < k) : m.load 8 (start + i * ps) = i := by
  have hword := h i.toNat hi
  rwa [page_toNat_eq, BitVec.ofNat_toNat, BitVec.setWidth_eq] at hword

theorem Numbered.next {m : Bytes 64} {i : ULong} (h : Numbered start ps m i.toNat)
    (hfound : m.load 8 (start + i * ps) = i) : Numbered start ps m (i.toNat + 1) := by
  intro j hj
  by_cases hji : j = i.toNat
  · rw [hji, page_toNat_eq, BitVec.ofNat_toNat, BitVec.setWidth_eq]
    exact hfound
  · exact h j (by omega)

theorem verifyPages_always (hw : PageRange start ps pagesNum → Within start ps pagesNum w) :
    Always M.env (Checked start ps pagesNum w) (verifyPages start ps pagesNum) w := by
  apply Always.loop_decreasing (fun i w' => Checking start ps pagesNum w i.toNat w')
    (fun i => pagesNum.toNat - i.toNat) _ ⟨by simp, rfl, by simp [Numbered], hw⟩
  intro i w' hinv
  split
  · rename_i hlt
    have hlt' : i.toNat < pagesNum.toNat := hlt
    have hnext := counter_succ hlt'
    have hwithin : PageRange start ps pagesNum → Within start ps pagesNum
        { w' with accessed := (start + i * ps) :: w'.accessed } :=
      fun h => (hinv.within h).cons h hlt'
    apply Always.call ⟨w'.bytes.load 8 (start + i * ps), rfl⟩
    rintro _ rfl
    simp only [Prog.bind, hinv.bytes]
    by_cases hfound : w.bytes.load 8 (start + i * ps) = i
    · simp only [hfound, ne_eq, not_true_eq_false, if_false]
      apply Always.ret
      refine ⟨⟨?_, hinv.bytes, ?_, hwithin⟩, ?_⟩
      · omega
      · rw [hnext]
        exact hinv.numbered.next hfound
      · omega
    · simp only [hfound, ne_eq, not_false_eq_true, if_true]
      apply Always.ret
      apply Always.ret
      exact ⟨hinv.bytes, .inr ⟨rfl, fun hall => hfound (hall.word hlt')⟩, hwithin⟩
  · rename_i hge
    apply Always.ret
    apply Always.ret
    exact ⟨hinv.bytes, .inl ⟨rfl, visited_all hinv.le hge ▸ hinv.numbered⟩, hinv.within⟩

/-! ## The whole function -/

/-- The clock answers whenever it is read. -/
def Machine.ClockWorks (M : Machine) (timed : Bool) : Prop :=
  timed = true → ∀ k, (M.clock CLOCK_MONOTONIC k).1 = 0

theorem readClock_always {timed : Bool} (hM : M.ClockWorks timed) :
    Always M.env (fun r w' => r.1 = 0 ∧
      (timed = true → r.2 = (M.clock CLOCK_MONOTONIC w.readings).2) ∧
      w' = { w with readings := w.readings + timed.toNat }) (readClock timed) w := by
  cases timed with
  | false => exact .ret ⟨rfl, by simp, rfl⟩
  | true =>
    apply Always.call ⟨M.clock CLOCK_MONOTONIC w.readings, rfl⟩
    rintro _ rfl
    exact .ret ⟨hM rfl _, fun _ => rfl, rfl⟩

/-- What `mem_touch_pages` does when the clock works: the memory is what was written, altered
after the last write, and the result says whether all the numbers are there. -/
structure TouchSpec (M : Machine) (start ps pagesNum : ULong) (timed : Bool) (w : Ram)
    (r : Touched) (w' : Ram) : Prop where
  osPageSize : r.osPageSize = ps
  bytes : w'.bytes = M.memoryAfter start ps w.bytes pagesNum.toNat
  code : r.rc = 0 ∧ Numbered start ps w'.bytes pagesNum.toNat ∨
    r.rc = -1 ∧ ¬ Numbered start ps w'.bytes pagesNum.toNat
  within : PageRange start ps pagesNum → Within start ps pagesNum w'
  duration : r.rc = 0 → r.duration = if timed then
    some (timersub (M.clock CLOCK_MONOTONIC (w.readings + 1)).2.toTimeval
      (M.clock CLOCK_MONOTONIC w.readings).2.toTimeval) else none

/-- Pages that nobody altered hold their numbers. -/
theorem TouchSpec.unaltered {timed : Bool} {r : Touched} {w' : Ram}
    (h : TouchSpec M start ps pagesNum timed w r w') (hpages : PageRange start ps pagesNum)
    (hM : M.alter = id) : r.rc = 0 := by
  have hbytes : w'.bytes = writtenPages start ps w.bytes pagesNum.toNat := by
    rw [h.bytes]
    simp [Machine.memoryAfter, hM]
  rcases h.code with ⟨hrc, -⟩ | ⟨-, hnot⟩
  · exact hrc
  · rw [hbytes] at hnot
    exact absurd (fun i hi => hpages.load_writtenPages le_rfl hi) hnot

theorem memTouchPages_always {osGetPageSize : BitVec 32} {osPageSize : ULong} {timed : Bool}
    (hps : ps = ensurePageSize osGetPageSize osPageSize) (hM : M.stores = pagesNum.toNat)
    (hclock : M.ClockWorks timed) (hstores : w.stores = 0) (haccessed : w.accessed = []) :
    Always M.env (TouchSpec M start ps pagesNum timed w)
      (memTouchPages osGetPageSize osPageSize start pagesNum timed) w := by
  subst hps
  apply Always.bind
  apply (readClock_always hclock).mono
  rintro ⟨rc, before⟩ w₁ ⟨hrc, hbefore, rfl⟩
  simp only [show rc = 0 from hrc, ne_eq, not_true_eq_false, if_false]
  have hstart : WrittenTo M start (ensurePageSize osGetPageSize osPageSize) pagesNum
      { w with readings := w.readings + timed.toNat } 0
      { w with readings := w.readings + timed.toNat } := by
    refine ⟨Nat.zero_le _, ?_, hstores, rfl, ?_⟩
    · simp [Machine.memoryAfter, writtenPages]
    · simp [Within, haccessed]
  apply Always.bind
  apply (writePages_always hM hstart).mono
  intro _ w₂ hwritten
  apply Always.bind
  apply (readClock_always hclock).mono
  rintro ⟨rc, after⟩ w₃ ⟨hrc, hafter, rfl⟩
  simp only [show rc = 0 from hrc, not_true_eq_false, if_false]
  have hwithin : PageRange start (ensurePageSize osGetPageSize osPageSize) pagesNum →
      Within start (ensurePageSize osGetPageSize osPageSize) pagesNum
        { w₂ with readings := w₂.readings + timed.toNat } := hwritten.within
  apply Always.bind
  apply (verifyPages_always hwithin).mono
  intro rc w₄ hchecked
  have hbytes := hchecked.bytes.trans hwritten.bytes
  have hcode := hchecked.code
  rw [← hchecked.bytes] at hcode
  rcases hcode with ⟨rfl, hall⟩ | ⟨rfl, hnot⟩
  · simp only [not_true_eq_false, if_false]
    split
    · rename_i htimed
      apply Always.ret
      refine ⟨rfl, hbytes, .inl ⟨rfl, hall⟩, hchecked.within, fun _ => ?_⟩
      have hfirst : before = (M.clock CLOCK_MONOTONIC w.readings).2 := hbefore htimed
      have hsecond : after = (M.clock CLOCK_MONOTONIC (w.readings + 1)).2 := by
        have h₂ := hafter htimed
        rwa [hwritten.readings, htimed] at h₂
      rw [if_pos htimed, hfirst, hsecond]
    · rename_i htimed
      apply Always.ret
      exact ⟨rfl, hbytes, .inl ⟨rfl, hall⟩, hchecked.within, fun _ => (if_neg htimed).symm⟩
  · apply Always.ret
    exact ⟨rfl, hbytes, .inr ⟨rfl, hnot⟩, hchecked.within,
      fun h : (-1 : ℤ) = 0 => absurd h (by decide)⟩

end Loops

/-- Every run of `mem_touch_pages` writes its pages and nothing else, finds them as it wrote them
when nobody altered them in between, and reports any word that was altered. -/
theorem memTouchPages_verified (osGetPageSize : BitVec 32) (osPageSize start ps pagesNum : ULong)
    (timed : Bool) (clock : ℤ → ℕ → ℤ × Timespec) (alter : Bytes 64 → Bytes 64) (m : Bytes 64)
    (hps : ensurePageSize osGetPageSize osPageSize = ps) (hstride : 8 ≤ ps.toNat)
    (hrange : start.toNat + pagesNum.toNat * ps.toNat ≤ 2 ^ 64)
    (hclock : ∀ k, (clock CLOCK_MONOTONIC k).1 = 0) :
    Always (Machine.env ⟨clock, pagesNum.toNat, id⟩)
        (fun r w => r.rc = 0 ∧
          (∀ i < pagesNum.toNat, w.bytes.load 8 (page start ps i) = BitVec.ofNat 64 i) ∧
          (∀ x, OutsideWords start ps pagesNum x → w.bytes x = m x) ∧
          Within start ps pagesNum w)
        (memTouchPages osGetPageSize osPageSize start pagesNum timed) ⟨m, 0, 0, []⟩ ∧
      Always (Machine.env ⟨clock, pagesNum.toNat, alter⟩)
        (fun r w =>
          ((∃ i < pagesNum.toNat,
            (alter (writtenPages start ps m pagesNum.toNat)).load 8 (page start ps i) ≠
              (writtenPages start ps m pagesNum.toNat).load 8 (page start ps i)) → r.rc = -1) ∧
          Within start ps pagesNum w)
        (memTouchPages osGetPageSize osPageSize start pagesNum timed) ⟨m, 0, 0, []⟩ := by
  have hpages : PageRange start ps pagesNum := ⟨hstride, hrange⟩
  constructor
  · apply (memTouchPages_always hps.symm rfl (fun _ => hclock) rfl rfl).mono
    intro r w h
    have hbytes : w.bytes = writtenPages start ps m pagesNum.toNat := by
      rw [h.bytes]
      simp [Machine.memoryAfter]
    have hall : Numbered start ps w.bytes pagesNum.toNat := by
      intro i hi
      rw [hbytes]
      exact hpages.load_writtenPages le_rfl hi
    refine ⟨h.unaltered hpages rfl, hall, ?_, h.within hpages⟩
    intro x hx
    rw [hbytes]
    exact hpages.writtenPages_outside le_rfl hx
  · apply (memTouchPages_always hps.symm rfl (fun _ => hclock) rfl rfl).mono
    intro r w h
    refine ⟨?_, h.within hpages⟩
    rintro ⟨i, hi, haltered⟩
    have hbytes : w.bytes = alter (writtenPages start ps m pagesNum.toNat) := by
      have hsome : pagesNum.toNat ≠ 0 := Nat.ne_zero_of_lt hi
      rw [h.bytes]
      simp [Machine.memoryAfter, hsome]
    rcases h.code with ⟨-, hall⟩ | ⟨hrc, -⟩
    · have hword := hall i hi
      rw [hbytes] at hword
      exact absurd (hword.trans (hpages.load_writtenPages le_rfl hi).symm) haltered
    · exact hrc

/-- The pages of a machine whose memory is cleared after the last write. -/
theorem memTouchPages_verified_two :
    Always (Machine.env ⟨fun _ _ => (0, ⟨0, 0⟩), (2 : ULong).toNat, id⟩)
        (fun r w => r.rc = 0 ∧
          (∀ i < (2 : ULong).toNat, w.bytes.load 8 (page 8192 4096 i) = BitVec.ofNat 64 i) ∧
          (∀ x, OutsideWords 8192 4096 2 x → w.bytes x = 0) ∧ Within 8192 4096 2 w)
        (memTouchPages 4096 0 8192 2 true) ⟨fun _ => 0, 0, 0, []⟩ ∧
      Always (Machine.env ⟨fun _ _ => (0, ⟨0, 0⟩), (2 : ULong).toNat, fun _ _ => 0⟩)
        (fun r w =>
          ((∃ i < (2 : ULong).toNat, Bytes.load 8 (fun _ => 0) (page 8192 4096 i) ≠
            (writtenPages 8192 4096 (fun _ => 0) (2 : ULong).toNat).load 8 (page 8192 4096 i)) →
              r.rc = -1) ∧
          Within 8192 4096 2 w)
        (memTouchPages 4096 0 8192 2 true) ⟨fun _ => 0, 0, 0, []⟩ :=
  memTouchPages_verified 4096 0 8192 4096 2 true (fun _ _ => (0, ⟨0, 0⟩)) (fun _ _ => 0)
    (fun _ => 0) (by decide) (by decide) (by decide) (fun _ => rfl)

end CloningApps.Memory
