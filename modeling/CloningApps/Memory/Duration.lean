import CloningApps.Memory.Touch
import CloningApps.Text.Decimal

/-! # The measured duration

From two readings of the clock in nanoseconds to the text that is printed, with
the clock and `timersub` of Mini-OS.
-/

namespace CloningApps.Memory
open Text Interaction Os Net

/-- The macro of Mini-OS. -/
def NSEC_TO_SEC (nsec : ULong) : ULong := nsec / 1000000000

/-- `clock_gettime` of Mini-OS: the result and what is stored at `tp` then. -/
def clockGettime (clkId : ℤ) (monotonicClock : ULong) (tp : Timespec) : ℤ × Timespec :=
  if clkId ≠ CLOCK_MONOTONIC then (-1, tp)
  else (0, ⟨(NSEC_TO_SEC monotonicClock).toNat, (monotonicClock % 1000000000).toNat⟩)

/-- `%lu.%03lu` of the milliseconds and the microseconds left. -/
def durationText (duration : Timeval) : CStr :=
  let msec := BitVec.ofInt 64 (duration.sec * 1000 + duration.usec.tdiv 1000)
  let usec := BitVec.ofInt 64 (duration.usec.tmod 1000)
  decimal msec.toNat ++ ascii "." ++ zeroPadded 3 usec.toNat

def printStats (who : CStr) (pagesNum : ULong) (duration : Timeval) : CStr :=
  ascii "OVERHEAD_TRACE " ++ who ++ ascii " pages=" ++ decimal pagesNum.toNat ++
    ascii " duration=" ++ durationText duration ++ ascii "\n"

/-! ## The readings -/

theorem clockGettime_monotonic (t : ULong) (tp : Timespec) :
    clockGettime CLOCK_MONOTONIC t tp =
      (0, ⟨(t.toNat / 1000000000 : ℕ), (t.toNat % 1000000000 : ℕ)⟩) := by
  simp [clockGettime, NSEC_TO_SEC, BitVec.toNat_udiv, BitVec.toNat_umod]

/-- A reading that is cut off to microseconds. -/
def reading (t : ULong) : Timeval :=
  (clockGettime CLOCK_MONOTONIC t ⟨0, 0⟩).2.toTimeval

theorem reading_eq (t : ULong) :
    reading t = ⟨(t.toNat / 1000000000 : ℕ), (t.toNat % 1000000000 / 1000 : ℕ)⟩ := by
  rw [reading, clockGettime_monotonic, Timespec.toTimeval]
  rfl

theorem reading_normal (t : ULong) : UsecNormal (reading t) := by
  rw [reading_eq]
  constructor
  · exact Int.natCast_nonneg _
  · dsimp only
    omega

theorem reading_micros (t : ULong) : micros (reading t) = (t.toNat / 1000 : ℕ) := by
  rw [reading_eq, micros]
  dsimp only
  omega

/-! ## The duration -/

section Duration
variable {t₀ t₁ : ULong}

theorem duration_micros (t₀ t₁ : ULong) :
    micros (timersub (reading t₁) (reading t₀)) =
      (t₁.toNat / 1000 : ℕ) - (t₀.toNat / 1000 : ℕ) := by
  rw [timersub_micros, reading_micros, reading_micros]

theorem duration_sec (h : t₀ ≤ t₁) : 0 ≤ (timersub (reading t₁) (reading t₀)).sec := by
  have hle : t₀.toNat ≤ t₁.toNat := h
  apply ((reading_normal t₁).timersub (reading_normal t₀)).sec_nonneg
  rw [duration_micros]
  omega

/-- A duration that fits is printed in milliseconds, with its microseconds behind the point. -/
theorem readDecimal_durationText {tv : Timeval} (hsec : 0 ≤ tv.sec) (husec : UsecNormal tv)
    (hfits : micros tv < 2 ^ 64) :
    readDecimal (durationText tv) = some ((micros tv : ℚ) / 1000) := by
  obtain ⟨hlo, hhi⟩ := husec
  have hmsec : (BitVec.ofInt 64 (tv.sec * 1000 + tv.usec.tdiv 1000)).toNat =
      (tv.sec * 1000 + tv.usec / 1000).toNat := by
    rw [micros] at hfits
    rw [Int.tdiv_eq_ediv_of_nonneg hlo, BitVec.toNat_ofInt]
    congr 1
    omega
  have husec : (BitVec.ofInt 64 (tv.usec.tmod 1000)).toNat = (tv.usec % 1000).toNat := by
    rw [Int.tmod_eq_emod_of_nonneg hlo, BitVec.toNat_ofInt]
    congr 1
    omega
  have hparts : ((tv.sec * 1000 + tv.usec / 1000).toNat : ℤ) * 1000 + (tv.usec % 1000).toNat =
      micros tv := by
    rw [micros]
    omega
  rw [durationText, hmsec, husec, readDecimal_padded _ (by decide) (by omega), ← hparts]
  push_cast
  ring_nf

end Duration

/-! ## The line that is printed -/

/-- The last field of a line, behind its equals sign. -/
def lastField (line : CStr) : CStr :=
  (line.dropLast.reverse.takeWhile (· ≠ 61)).reverse

theorem durationText_ne_equals (duration : Timeval) : ∀ c ∈ durationText duration, c ≠ 61 := by
  have hdigit : ∀ c : Byte, isDigit c = true → c ≠ 61 := by
    rintro c hc rfl
    exact absurd hc (by decide)
  intro c hc
  simp only [durationText, List.mem_append] at hc
  rcases hc with (hmsec | hpoint) | husec
  · exact hdigit c (decimal_isDigit _ c hmsec)
  · obtain rfl : c = 46 := List.mem_singleton.mp hpoint
    decide
  · exact hdigit c (zeroPadded_isDigit 3 _ c husec)

/-- The duration is the last field of the line of `print_stats`. -/
theorem lastField_printStats (who : CStr) (pagesNum : ULong) (duration : Timeval) :
    lastField (printStats who pagesNum duration) = durationText duration := by
  have hline : printStats who pagesNum duration =
      (ascii "OVERHEAD_TRACE " ++ who ++ ascii " pages=" ++ decimal pagesNum.toNat ++
        ascii " duration") ++ 61 :: durationText duration ++ [10] := by
    simp [printStats, ascii]
  have htext : ∀ c ∈ (durationText duration).reverse, decide (c ≠ 61) = true := fun c hc =>
    decide_eq_true (durationText_ne_equals duration c (List.mem_reverse.mp hc))
  rw [lastField, hline, List.dropLast_concat, List.reverse_append, List.reverse_cons,
    List.append_assoc, List.takeWhile_append_of_pos htext]
  simp

/-! ## What is measured -/

/-- What two readings come to: a normal duration, exactly their difference in whole microseconds
and less than one away from the time between them. Every line that `print_stats` prints of it ends
in this number. -/
structure Measured (t₀ t₁ : ULong) (duration : Timeval) : Prop where
  sec : 0 ≤ duration.sec
  usec : 0 ≤ duration.usec ∧ duration.usec < 1000000
  difference : micros duration = (t₁.toNat / 1000 : ℕ) - (t₀.toNat / 1000 : ℕ)
  printed : ∀ who pagesNum, readDecimal (lastField (printStats who pagesNum duration)) =
    some ((((t₁.toNat / 1000 : ℕ) - (t₀.toNat / 1000 : ℕ) : ℤ) : ℚ) / 1000)
  near : |1000 * micros duration - (t₁.toNat - t₀.toNat)| < 1000

theorem measured_timersub {t₀ t₁ : ULong} (ht : t₀ ≤ t₁) :
    Measured t₀ t₁ (timersub (reading t₁) (reading t₀)) := by
  have hle : t₀.toNat ≤ t₁.toNat := ht
  have hnormal := (reading_normal t₁).timersub (reading_normal t₀)
  have hmicros := duration_micros t₀ t₁
  refine ⟨duration_sec ht, ⟨hnormal.1, hnormal.2⟩, hmicros, fun who pagesNum => ?_, ?_⟩
  · rw [lastField_printStats, readDecimal_durationText (duration_sec ht) hnormal, hmicros]
    have := t₁.isLt
    omega
  · rw [hmicros, abs_lt]
    omega

/-- A machine whose monotonic clock is read as `t₀` and then as `t₁`. -/
def clockMachine (t₀ t₁ pagesNum : ULong) (alter : Bytes 64 → Bytes 64) : Machine :=
  ⟨fun clkId k => clockGettime clkId (if k = 0 then t₀ else t₁) ⟨0, 0⟩, pagesNum.toNat, alter⟩

theorem clockMachine_works (t₀ t₁ pagesNum : ULong) (alter : Bytes 64 → Bytes 64) :
    (clockMachine t₀ t₁ pagesNum alter).ClockWorks true := by
  intro _ k
  dsimp only [clockMachine]
  rw [clockGettime_monotonic]

/-- The duration that `mem_touch_pages` measures and `print_stats` prints is the difference of
the two readings in whole microseconds. It is measured whenever nobody alters the pages, and
whatever is altered none is given but this one. -/
theorem memTouchPages_duration (osGetPageSize : BitVec 32) (osPageSize start pagesNum : ULong)
    (t₀ t₁ : ULong) (ht : t₀ ≤ t₁) (m : Bytes 64) :
    (PageRange start (ensurePageSize osGetPageSize osPageSize) pagesNum →
      Always (clockMachine t₀ t₁ pagesNum id).env
        (fun r _ => r.rc = 0 ∧ ∃ duration, r.duration = some duration ∧ Measured t₀ t₁ duration)
        (memTouchPages osGetPageSize osPageSize start pagesNum true) ⟨m, 0, 0, []⟩) ∧
      ∀ alter, Always (clockMachine t₀ t₁ pagesNum alter).env
        (fun r _ => r.rc = 0 ∧ (∃ duration, r.duration = some duration ∧
          Measured t₀ t₁ duration) ∨ r.rc = -1)
        (memTouchPages osGetPageSize osPageSize start pagesNum true) ⟨m, 0, 0, []⟩ := by
  have htouched := fun alter => @memTouchPages_always (clockMachine t₀ t₁ pagesNum alter) start
    (ensurePageSize osGetPageSize osPageSize) pagesNum ⟨m, 0, 0, []⟩ osGetPageSize osPageSize true
    rfl rfl (clockMachine_works t₀ t₁ pagesNum alter) rfl rfl
  constructor
  · intro hpages
    refine (htouched id).mono (fun r w h => ?_)
    have hrc : r.rc = 0 := h.unaltered hpages rfl
    exact ⟨hrc, _, h.duration hrc, measured_timersub ht⟩
  · intro alter
    refine (htouched alter).mono (fun r w h => ?_)
    rcases h.code with ⟨hrc, -⟩ | ⟨hrc, -⟩
    · exact .inl ⟨hrc, _, h.duration hrc, measured_timersub ht⟩
    · exact .inr hrc

/-- Two readings with a second's end between them, one page that is left alone, and the same page
cleared. -/
theorem memTouchPages_duration_borrow :
    Always (clockMachine 1999999999 2000001000 1 id).env
        (fun r _ => r.rc = 0 ∧ ∃ duration, r.duration = some duration ∧
          Measured 1999999999 2000001000 duration)
        (memTouchPages 4096 0 8192 1 true) ⟨fun _ => 0, 0, 0, []⟩ ∧
      Always (clockMachine 1999999999 2000001000 1 (fun _ _ => 0)).env
        (fun r _ => r.rc = 0 ∧ (∃ duration, r.duration = some duration ∧
          Measured 1999999999 2000001000 duration) ∨ r.rc = -1)
        (memTouchPages 4096 0 8192 1 true) ⟨fun _ => 0, 0, 0, []⟩ :=
  have h := memTouchPages_duration 4096 0 8192 1 1999999999 2000001000 (by decide) (fun _ => 0)
  ⟨h.1 ⟨by decide, by decide⟩, h.2 (fun _ _ => 0)⟩

example : printStats (ascii "parent") 1 (timersub (reading 2000001000) (reading 1999999999)) =
    ascii "OVERHEAD_TRACE parent pages=1 duration=0.002\n" := by
  decide

end CloningApps.Memory
