import CloningApps.Memory.AllocContract
import CloningApps.Memory.Touch
import CloningApps.Server.Programs

/-! # What is computed from an accepted page count

measure-fork and memory-overhead refuse a page count of zero. Any other count
that `memsize_str2pages` returns is multiplied with the page size again, without
a check, for the length of a mapping and for the offset of each page in it.
-/

namespace CloningApps.Server
open Text Interaction Os Cmdline Memory

/-- The pages together are smaller than the address space. -/
def PagesFit (ps pagesNum : ULong) : Prop := pagesNum.toNat * ps.toNat < 2 ^ 64

/-- A mapping is made or removed with the length of all the pages. -/
def ExactLength (ps pagesNum : ULong) : BlockCall → Prop
  | .mmap length | .munmap _ length => length.toNat = pagesNum.toNat * ps.toNat
  | _ => True

/-- An address is that of a page, whose offset is what it is without machine arithmetic. -/
def ExactOffset (start ps pagesNum : ULong) : MemCall → Prop
  | .load p | .store p _ =>
    ∃ i : ULong, i < pagesNum ∧ p = start + i * ps ∧ (i * ps).toNat = i.toNat * ps.toNat
  | .clockGettime _ => True

section Lengths
variable {ps pagesNum : ULong}

theorem PagesFit.length (h : PagesFit ps pagesNum) :
    (ps * pagesNum).toNat = pagesNum.toNat * ps.toNat := by
  rw [BitVec.toNat_mul, Nat.mul_comm]
  exact Nat.mod_eq_of_lt h

theorem PagesFit.offset (h : PagesFit ps pagesNum) {i : ULong} (hi : i < pagesNum) :
    (i * ps).toNat = i.toNat * ps.toNat := by
  have hle : i.toNat * ps.toNat ≤ pagesNum.toNat * ps.toNat :=
    Nat.mul_le_mul_right _ (show i.toNat < pagesNum.toNat from hi).le
  rw [BitVec.toNat_mul]
  exact Nat.mod_eq_of_lt (hle.trans_lt h)

theorem PagesFit.osAllocPages (h : PagesFit ps pagesNum) :
    OnlyCalls (ExactLength ps pagesNum) (osAllocPagesPosix ps pagesNum) := by
  apply OnlyCalls.call h.length
  intro start
  simp only [Prog.bind]
  split
  · exact .ret _
  · exact .ret _

theorem PagesFit.osFreePages (h : PagesFit ps pagesNum) (start : ℕ) :
    OnlyCalls (ExactLength ps pagesNum) (osFreePagesPosix ps start pagesNum) := by
  unfold osFreePagesPosix
  split
  · exact .ret _
  · exact .call h.length (fun _ => .ret _)

theorem readClock_calls (start ps pagesNum : ULong) (timed : Bool) :
    OnlyCalls (ExactOffset start ps pagesNum) (readClock timed) := by
  cases timed with
  | false => exact .ret _
  | true => exact .call trivial (fun _ => .ret _)

theorem PagesFit.writePages (h : PagesFit ps pagesNum) (start : ULong) :
    OnlyCalls (ExactOffset start ps pagesNum) (writePages start ps pagesNum) := by
  refine .loop (fun i => ?_) (fun _ => .ret _)
  split
  · rename_i hi
    have hpage : ExactOffset start ps pagesNum (.store (start + i * ps) i) :=
      ⟨i, hi, rfl, h.offset hi⟩
    exact .call hpage (fun _ => .ret _)
  · exact .ret _

theorem PagesFit.verifyPages (h : PagesFit ps pagesNum) (start : ULong) :
    OnlyCalls (ExactOffset start ps pagesNum) (verifyPages start ps pagesNum) := by
  refine .loop (fun i => ?_) (fun _ => .ret _)
  split
  · rename_i hi
    have hpage : ExactOffset start ps pagesNum (.load (start + i * ps)) :=
      ⟨i, hi, rfl, h.offset hi⟩
    apply OnlyCalls.call hpage
    intro found
    simp only [Prog.bind]
    split
    · exact .ret _
    · exact .ret _
  · exact .ret _

theorem PagesFit.memTouchPages {osGetPageSize : BitVec 32} {osPageSize : ULong}
    (hps : ensurePageSize osGetPageSize osPageSize = ps) (h : PagesFit ps pagesNum)
    (start : ULong) (timed : Bool) :
    OnlyCalls (ExactOffset start ps pagesNum)
      (memTouchPages osGetPageSize osPageSize start pagesNum timed) := by
  subst hps
  have hclock := readClock_calls start (ensurePageSize osGetPageSize osPageSize) pagesNum timed
  apply hclock.bind
  rintro ⟨rc, before⟩
  dsimp only
  split
  · exact .ret _
  · apply (h.writePages start).bind
    intro _
    apply hclock.bind
    rintro ⟨rc, after⟩
    dsimp only
    split
    · exact .ret _
    · apply (h.verifyPages start).bind
      intro rc
      split
      · exact .ret _
      · split
        · exact .ret _
        · exact .ret _

end Lengths

/-! ## Accepted page counts -/

section Accepted
variable {osGetPageSize : BitVec 32} {osPageSize : ULong}

/-- The page size of the system, as an `unsigned long`. -/
theorem pageSize_toNat (hlt : osGetPageSize.toNat < 2 ^ 31) :
    (osGetPageSize.signExtend 64).toNat = osGetPageSize.toNat := by
  have hmsb : osGetPageSize.msb = false := by
    rw [BitVec.msb_eq_decide]
    exact decide_eq_false (by omega)
  rw [BitVec.signExtend_eq_setWidth_of_msb_false hmsb, BitVec.toNat_setWidth]
  exact Nat.mod_eq_of_lt (by omega)

/-- `os_page_size` is not filled yet, or was filled with the page size of the system. -/
def GlobalPageSize (osGetPageSize : BitVec 32) (osPageSize : ULong) : Prop :=
  osPageSize = 0 ∨ osPageSize = osGetPageSize.signExtend 64

theorem ensurePageSize_eq (hglobal : GlobalPageSize osGetPageSize osPageSize) :
    ensurePageSize osGetPageSize osPageSize = osGetPageSize.signExtend 64 := by
  rcases hglobal with rfl | rfl
  · rfl
  · exact ite_self _

theorem GlobalPageSize.memsizeStr2pages (hglobal : GlobalPageSize osGetPageSize osPageSize)
    (s : CStr) :
    GlobalPageSize osGetPageSize (memsizeStr2pages osGetPageSize osPageSize s).2 := by
  rw [Memory.memsizeStr2pages]
  split
  · exact hglobal
  · exact .inr (ensurePageSize_eq hglobal)

/-- The page count is the round-up also when there are no bytes to round. -/
theorem memsizeStr2pages_eq (s : CStr)
    (hglobal : GlobalPageSize osGetPageSize osPageSize)
    (hps : osGetPageSize.signExtend 64 ≠ (0 : ULong)) :
    (memsizeStr2pages osGetPageSize osPageSize s).1 =
      divRoundUp (memsizeStr2bytes s) (osGetPageSize.signExtend 64) := by
  rw [memsizeStr2pages]
  split
  · rename_i hzero
    exact ((divRoundUp_eq_zero_iff _ _ hps).mpr (.inl (by rw [hzero]; rfl))).symm
  · rw [ensurePageSize_eq hglobal]

/-- The callers give up on a page count of zero before they do anything. -/
theorem refused (os : Platform) {g : Globals} {s : CStr} (hs : g.memoryStr = some s)
    (hzero : (memsizeStr2pages osGetPageSize osPageSize s).1 = 0) :
    threadFuncMeasureFork os osGetPageSize osPageSize g = .ret (-1) ∧
      threadFuncMemoryOverhead os osGetPageSize osPageSize g = .ret (-1) := by
  have hnone : requestedPages osGetPageSize osPageSize g = none := by
    simp only [requestedPages, hs, hzero, if_true]
  constructor
  · simp only [threadFuncMeasureFork, hnone, Prog.pure_eq]
  · simp only [threadFuncMemoryOverhead, hnone, Prog.pure_eq]

end Accepted

/-- A page count is the round-up of the requested bytes. It is zero, and then refused, when there
are none or the round-up wraps; otherwise it covers the bytes by less than a page, and the lengths
and offsets computed from it are exact. -/
structure PageCountSound (osGetPageSize : BitVec 32) (osPageSize : ULong) (s : CStr)
    (b size : ℕ) (ps pagesNum : ULong) : Prop where
  rounded : pagesNum = divRoundUp (memsizeStr2bytes s) ps
  kept : GlobalPageSize osGetPageSize (memsizeStr2pages osGetPageSize osPageSize s).2
  zero_iff : pagesNum = 0 ↔ b = 0 ∨ 2 ^ 64 - size < b
  refused : pagesNum = 0 → ∀ os g, g.memoryStr = some s →
    threadFuncMeasureFork os osGetPageSize osPageSize g = .ret (-1) ∧
      threadFuncMemoryOverhead os osGetPageSize osPageSize g = .ret (-1)
  covers : pagesNum ≠ 0 → b ≤ pagesNum.toNat * size ∧ pagesNum.toNat * size < b + size
  fits : pagesNum ≠ 0 → pagesNum.toNat * size < 2 ^ 64
  lengths : pagesNum ≠ 0 →
    OnlyCalls (ExactLength ps pagesNum) (osAllocPagesPosix ps pagesNum) ∧
      ∀ start, OnlyCalls (ExactLength ps pagesNum) (osFreePagesPosix ps start pagesNum)
  offsets : pagesNum ≠ 0 → ∀ start timed, OnlyCalls (ExactOffset start ps pagesNum)
    (memTouchPages osGetPageSize osPageSize start pagesNum timed)

/-- No size that is computed from an accepted page count overflows. -/
theorem memsizeStr2pages_sound (osGetPageSize : BitVec 32) (osPageSize : ULong) (s : CStr)
    (hmin : 8 ≤ osGetPageSize.toNat) (hmax : osGetPageSize.toNat < 2 ^ 31)
    (hglobal : GlobalPageSize osGetPageSize osPageSize) :
    PageCountSound osGetPageSize osPageSize s (memsizeStr2bytes s).toNat osGetPageSize.toNat
      (osGetPageSize.signExtend 64) (memsizeStr2pages osGetPageSize osPageSize s).1 := by
  have hsize := pageSize_toNat hmax
  have hps : osGetPageSize.signExtend 64 ≠ (0 : ULong) := by
    intro hzero
    rw [hzero] at hsize
    have hnone : (0 : ULong).toNat = 0 := rfl
    omega
  have hpages := memsizeStr2pages_eq s hglobal hps
  have hbounds := divRoundUp_mul_bounds (memsizeStr2bytes s) (osGetPageSize.signExtend 64) hps
  have hzero := divRoundUp_eq_zero_iff (memsizeStr2bytes s) (osGetPageSize.signExtend 64) hps
  rw [← hpages] at hbounds hzero
  have hfit := fun h => show PagesFit _ _ from (hbounds h).2.2
  rw [hsize] at hbounds hzero
  exact {
    rounded := hpages
    kept := hglobal.memsizeStr2pages s
    zero_iff := hzero
    refused := fun h os _ hs => refused os hs h
    covers := fun h => ⟨(hbounds h).1, (hbounds h).2.1⟩
    fits := fun h => (hbounds h).2.2
    lengths := fun h => ⟨(hfit h).osAllocPages, (hfit h).osFreePages⟩
    offsets := fun h => (hfit h).memTouchPages (ensurePageSize_eq hglobal) }

/-- A megabyte in pages of 4096 bytes. -/
theorem memsizeStr2pages_sound_megabyte :
    (memsizeStr2pages 4096 0 (ascii "1MB")).1 = 256 ∧
      PageCountSound 4096 0 (ascii "1MB") (memsizeStr2bytes (ascii "1MB")).toNat
        (4096 : BitVec 32).toNat ((4096 : BitVec 32).signExtend 64)
        (memsizeStr2pages 4096 0 (ascii "1MB")).1 :=
  ⟨by decide, memsizeStr2pages_sound 4096 0 (ascii "1MB") (by decide) (by decide) (.inl rfl)⟩

end CloningApps.Server
