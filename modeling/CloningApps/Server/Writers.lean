import CloningApps.Interaction.Safe
import CloningApps.Server.Programs

/-! # The file writers

The three writers should be interchangeable: whatever `write` does, a writer
that returns zero wrote the size it was asked for, and an error is reported.
Each of them keeps this only for some of the outcomes `write` may have.
-/

namespace CloningApps.Server
open Text Interaction Os

/-- What the calls of `write` were answered with, latest first, and the blocks in use. -/
structure WriteLog where
  outcomes : List ℤ
  blocks : Finset ℕ

namespace WriteLog

def initial : WriteLog := ⟨[], ∅⟩

/-- A failed write writes nothing. -/
def written (w : WriteLog) : ℕ := (w.outcomes.map Int.toNat).sum

def legal (w : WriteLog) : (c : Call) → c.Answer → Prop
  | .write _ count, rc => -1 ≤ rc ∧ rc ≤ count
  | .malloc .., some block => block.addr ∉ w.blocks
  | _, _ => True

def effect (w : WriteLog) : (c : Call) → c.Answer → WriteLog
  | .write .., rc => { w with outcomes := rc :: w.outcomes }
  | .malloc .., some block => { w with blocks := insert block.addr w.blocks }
  | .free addr, _ => { w with blocks := w.blocks.erase addr }
  | _, _ => w

end WriteLog

def writeEnv : Env system WriteLog where
  legal := WriteLog.legal
  effect := WriteLog.effect
  drift := fun _ _ => False

theorem writeEnv_still : writeEnv.Still := fun _ _ h => h

/-- What a writer owes when it returns. -/
structure Delivered (size : ULong) (rc : ℤ) (w : WriteLog) : Prop where
  written : rc = 0 → w.written = size.toNat
  reported : (∃ n ∈ w.outcomes, n < 0) → rc ≠ 0
  freed : w.blocks = ∅

/-- A failed assertion ends the run. -/
def Asserted (_ : WriteLog) (c : Call) : Prop := c ≠ .assertFail

/-- The runs that a writer brings to the end it should. -/
def WriteType.Suits (size : ULong) (w : WriteLog) : WriteType → Prop
  | .chars => ∀ n ∈ w.outcomes, n ≠ 0
  | .words => (∀ n ∈ w.outcomes, n = 8 ∨ n < 0) ∧
      (8 ∣ size.toNat ∨ ∃ n ∈ w.outcomes, n < 0)
  | .buffer => ∀ n ∈ w.outcomes, 0 ≤ n ∧ n < 2 ^ 31

/-- A run that cannot go on. -/
def Over : SysProg ℤ → Prop
  | .ret _ => True
  | .call c _ => c = .assertFail
  | .loop .. => False

/-- A writer keeps its word at the end of every run. -/
def WriteType.Delivers (wt : WriteType) (fd : Fd) (size : ULong) : Prop :=
  ∀ p w, Reaches writeEnv (wt.write fd size, .initial) (p, w) → Over p →
    Meets Asserted (Delivered size) p w

/-- A writer keeps its word at the end of a run exactly when the run suits it. -/
abbrev DeliversIff (wt : WriteType) (size : ULong) (p : SysProg ℤ) (w : WriteLog) : Prop :=
  Safe writeEnv (fun w c => c = .assertFail → ¬ wt.Suits size w)
    (fun rc w => Delivered size rc w ↔ wt.Suits size w) p w

variable {size : ULong} {w : WriteLog} {fd : Fd}

theorem toInt32_of_small {n : ℤ} (hlo : -1 ≤ n) (hhi : n < 2 ^ 31) : n.bmod (2 ^ 32) = n := by
  rw [Int.bmod_def]
  split <;> omega

theorem toInt32_le {n : ℤ} (hlo : 0 ≤ n) : n.bmod (2 ^ 32) ≤ n := by
  rw [Int.bmod_def]
  split <;> omega

theorem toInt32_neg {n : ℤ} (hneg : n.bmod (2 ^ 32) < 0) :
    ¬ (0 ≤ n ∧ n < 2 ^ 31) := by
  revert hneg
  rw [Int.bmod_def]
  split <;> omega

theorem toInt32_lt {n : ℤ} (hbig : 2 ^ 31 ≤ n) : n.bmod (2 ^ 32) < n := by
  rw [Int.bmod_def]
  split <;> omega

/-- Adding the result of a write to a position that it does not carry past the size. -/
theorem advance_toNat {pos size : ULong} {n : ℤ} (hpos : pos ≤ size) (hlo : 0 ≤ n)
    (hhi : n ≤ (size - pos).toNat) : (pos + BitVec.ofInt 64 n).toNat = pos.toNat + n.toNat := by
  have hlt := size.isLt
  have hle : pos.toNat ≤ size.toNat := hpos
  have hsub : (size - pos).toNat = size.toNat - pos.toNat := BitVec.toNat_sub_of_le hpos
  have hn : (BitVec.ofInt 64 n).toNat = n.toNat := by
    rw [BitVec.toNat_ofInt]
    omega
  rw [BitVec.toNat_add, hn, Nat.mod_eq_of_lt (by omega)]

theorem written_cons (w : WriteLog) (n : ℤ) :
    ({ w with outcomes := n :: w.outcomes } : WriteLog).written = n.toNat + w.written := by
  simp [WriteLog.written]

/-- One `write` and the `int` that is made of its result. -/
theorem writeInt_step {count : ℕ} {β : Type} {post : β → WriteLog → Prop}
    {guard : WriteLog → Call → Prop} {k : ℤ → SysProg β} (hguard : guard w (.write fd count))
    (hk : ∀ n : ℤ, -1 ≤ n → n ≤ count →
      Safe writeEnv guard post (k (n.bmod (2 ^ 32))) { w with outcomes := n :: w.outcomes }) :
    Safe writeEnv guard post ((writeInt fd count).bind k) w := by
  apply Safe.call writeEnv_still hguard
  intro (n : ℤ) hn
  exact hk n hn.1 hn.2

/-- The head of the loop of `write_chars`: so far every write was full. -/
structure CharsInv (size i : ULong) (w : WriteLog) : Prop where
  full : ∀ n ∈ w.outcomes, n = 1
  written : w.written = i.toNat
  le : i ≤ size
  blocks : w.blocks = ∅

section Chars
variable {i : ULong} {n : ℤ}

theorem CharsInv.positive (hinv : CharsInv size i w) : ∀ n ∈ w.outcomes, n ≠ 0 := by
  intro n hn
  rw [hinv.full n hn]
  exact one_ne_zero

theorem CharsInv.advance (hinv : CharsInv size i w) (hlt : i.toNat < size.toNat) :
    CharsInv size (i + 1) { w with outcomes := 1 :: w.outcomes } := by
  have hnext := Memory.counter_succ hlt
  refine ⟨?_, ?_, ?_, hinv.blocks⟩
  · exact List.forall_mem_cons.mpr ⟨rfl, hinv.full⟩
  · rw [written_cons, hinv.written, hnext, Int.toNat_one, Nat.add_comm]
  · rw [BitVec.le_def, hnext]
    exact hlt

/-- An error is reported, and a write of nothing is taken for success. -/
theorem CharsInv.refused (hinv : CharsInv size i w) (hlt : i.toNat < size.toNat)
    (hn : n = -1 ∨ n = 0) :
    Delivered size n { w with outcomes := n :: w.outcomes } ↔
      WriteType.chars.Suits size { w with outcomes := n :: w.outcomes } := by
  rcases hn with rfl | rfl
  · apply iff_of_true ⟨by simp, by simp, hinv.blocks⟩
    exact List.forall_mem_cons.mpr ⟨by decide, hinv.positive⟩
  · apply iff_of_false
    · intro h
      have hwritten := h.written rfl
      rw [written_cons, hinv.written] at hwritten
      simp only [Int.toNat_zero, Nat.zero_add] at hwritten
      omega
    · simp [WriteType.Suits]

theorem CharsInv.finished (hinv : CharsInv size i w) (hge : ¬ i.toNat < size.toNat) :
    Delivered size 0 w ↔ WriteType.chars.Suits size w := by
  have hle : i.toNat ≤ size.toNat := hinv.le
  refine iff_of_true ⟨?_, ?_, hinv.blocks⟩ hinv.positive
  · intro _
    rw [hinv.written]
    omega
  · rintro ⟨n, hn, hneg⟩
    rw [hinv.full n hn] at hneg
    exact absurd hneg (by decide)

end Chars

theorem writeChars_delivers (hw : CharsInv size 0 w) :
    DeliversIff .chars size (writeChars fd size) w := by
  refine Safe.loop (CharsInv size) (fun _ => writeEnv_still.stable _) (fun i w hinv => ?_) hw
  split
  · rename_i hlt
    apply writeInt_step (by simp)
    intro n hlo hhi
    rw [toInt32_of_small hlo (by omega)]
    split
    · rename_i hne
      apply Safe.ret writeEnv_still
      apply Safe.ret writeEnv_still
      exact hinv.refused hlt (by omega)
    · rename_i heq
      obtain rfl : n = 1 := not_not.mp heq
      exact Safe.ret writeEnv_still (hinv.advance hlt)
  · rename_i hge
    apply Safe.ret writeEnv_still
    apply Safe.ret writeEnv_still
    exact hinv.finished hge

/-- The head of the loop of `write_words`. The count does not wrap unless the size is within a
word of the end of the range. -/
structure WordsInv (size count : ULong) (w : WriteLog) : Prop where
  full : ∀ n ∈ w.outcomes, n = 8
  aligned : 8 ∣ count.toNat
  written : size.toNat ≤ 2 ^ 64 - 8 → w.written = count.toNat ∧ count.toNat < size.toNat + 8
  blocks : w.blocks = ∅

section Words
variable {count : ULong} {n : ℤ}

theorem WordsInv.advance (hinv : WordsInv size count w) (hlt : count.toNat < size.toNat) :
    WordsInv size (count + BitVec.ofInt 64 8) { w with outcomes := 8 :: w.outcomes } := by
  have hadd : (count + BitVec.ofInt 64 8).toNat = (count.toNat + 8) % 2 ^ 64 := by
    rw [BitVec.toNat_add]
    rfl
  obtain ⟨k, hk⟩ := hinv.aligned
  refine ⟨?_, ?_, ?_, hinv.blocks⟩
  · exact List.forall_mem_cons.mpr ⟨rfl, hinv.full⟩
  · rw [hadd]
    omega
  · intro hsize
    obtain ⟨hwritten, -⟩ := hinv.written hsize
    rw [written_cons, hwritten, hadd]
    simp only [Int.reduceToNat]
    omega

theorem WordsInv.failed (hinv : WordsInv size count w) (hneg : n < 0) :
    Delivered size n { w with outcomes := n :: w.outcomes } ↔
      WriteType.words.Suits size { w with outcomes := n :: w.outcomes } := by
  apply iff_of_true
  · exact ⟨fun h => by omega, fun _ => by omega, hinv.blocks⟩
  · constructor
    · exact List.forall_mem_cons.mpr ⟨.inr hneg, fun m hm => .inl (hinv.full m hm)⟩
    · exact .inr ⟨n, List.mem_cons_self, hneg⟩

/-- The last word may reach beyond the size. -/
theorem WordsInv.finished (hinv : WordsInv size count w) (hge : ¬ count.toNat < size.toNat) :
    Delivered size 0 w ↔ WriteType.words.Suits size w := by
  obtain ⟨k, hk⟩ := hinv.aligned
  have hcount := count.isLt
  obtain ⟨hwritten, hover⟩ := hinv.written (by omega)
  have hnone : ¬ ∃ n ∈ w.outcomes, n < 0 := by
    rintro ⟨n, hn, hneg⟩
    rw [hinv.full n hn] at hneg
    exact absurd hneg (by decide)
  constructor
  · intro h
    have hsize : 8 ∣ size.toNat := ⟨k, by rw [← h.written rfl, hwritten, hk]⟩
    exact ⟨fun n hn => .inl (hinv.full n hn), .inl hsize⟩
  · intro h
    obtain ⟨j, hj⟩ := h.2.resolve_right hnone
    exact ⟨fun _ => by omega, fun h => absurd h hnone, hinv.blocks⟩

end Words

theorem writeWords_delivers (hw : WordsInv size 0 w) :
    DeliversIff .words size (writeWords fd size) w := by
  refine Safe.loop (WordsInv size) (fun _ => writeEnv_still.stable _) (fun count w hinv => ?_) hw
  split
  · rename_i hlt
    apply writeInt_step (by simp)
    intro n hlo hhi
    rw [toInt32_of_small hlo (by omega)]
    split
    · rename_i hneg
      apply Safe.ret writeEnv_still
      apply Safe.ret writeEnv_still
      exact hinv.failed hneg
    · rename_i hpos
      split
      · rename_i hne
        apply Safe.call writeEnv_still
        · rintro - ⟨hall, -⟩
          rcases hall n List.mem_cons_self with h | h
          · exact hne h
          · exact hpos h
        · exact fun nothing _ => nothing.elim
      · rename_i heq
        obtain rfl : n = 8 := not_not.mp heq
        exact Safe.ret writeEnv_still (hinv.advance hlt)
  · rename_i hge
    apply Safe.ret writeEnv_still
    apply Safe.ret writeEnv_still
    exact hinv.finished hge

/-- The head of the loop of `write_buffer`, which holds its buffer. The offset lags behind what
was written as soon as a result does not fit into an `int`. -/
structure BufferInv (size : ULong) (buf : ℕ) (offset : ULong) (w : WriteLog) : Prop where
  nonneg : ∀ n ∈ w.outcomes, 0 ≤ n
  le : offset ≤ size
  lags : offset.toNat ≤ w.written
  exact_iff : offset.toNat = w.written ↔ ∀ n ∈ w.outcomes, n < 2 ^ 31
  blocks : w.blocks = {buf}

/-- A write that is not taken for an error. -/
theorem BufferInv.advance {buf : ℕ} {offset : ULong} {n : ℤ} (hinv : BufferInv size buf offset w)
    (hlo : -1 ≤ n) (hhi : n ≤ (size - offset).toNat) (hrc : 0 ≤ n.bmod (2 ^ 32)) :
    BufferInv size buf (offset + BitVec.ofInt 64 (n.bmod (2 ^ 32)))
      { w with outcomes := n :: w.outcomes } := by
  have hn : 0 ≤ n := by
    by_contra hneg
    rw [toInt32_of_small hlo (by omega)] at hrc
    exact hneg hrc
  have hle := toInt32_le hn
  have hadd := advance_toNat hinv.le hrc (hle.trans hhi)
  have hsub : (size - offset).toNat = size.toNat - offset.toNat := BitVec.toNat_sub_of_le hinv.le
  have hoffset : offset.toNat ≤ size.toNat := hinv.le
  have hlags := hinv.lags
  refine ⟨?_, ?_, ?_, ?_, hinv.blocks⟩
  · exact List.forall_mem_cons.mpr ⟨hn, hinv.nonneg⟩
  · rw [BitVec.le_def, hadd]
    omega
  · rw [written_cons, hadd]
    omega
  · rw [List.forall_mem_cons, ← hinv.exact_iff, written_cons, hadd]
    by_cases hsmall : n < 2 ^ 31
    · rw [toInt32_of_small hlo hsmall]
      omega
    · have hlt := toInt32_lt (not_lt.mp hsmall)
      omega

/-- An error, whether real or not, leaves the buffer behind. -/
theorem BufferInv.failed {buf : ℕ} {offset : ULong} {n : ℤ} (hinv : BufferInv size buf offset w)
    (hneg : n.bmod (2 ^ 32) < 0) :
    Delivered size (n.bmod (2 ^ 32)) { w with outcomes := n :: w.outcomes } ↔
      WriteType.buffer.Suits size { w with outcomes := n :: w.outcomes } := by
  apply iff_of_false
  · intro h
    have hfreed := h.freed
    rw [hinv.blocks] at hfreed
    exact Finset.singleton_ne_empty _ hfreed
  · intro h
    exact toInt32_neg hneg (h n List.mem_cons_self)

theorem BufferInv.finished {buf : ℕ} {offset : ULong} (hinv : BufferInv size buf offset w)
    (hge : ¬ offset.toNat < size.toNat) :
    Delivered size 0 { w with blocks := w.blocks.erase buf } ↔
      WriteType.buffer.Suits size { w with blocks := w.blocks.erase buf } := by
  have hle : offset.toNat ≤ size.toNat := hinv.le
  have hsize : offset.toNat = size.toNat := by omega
  have hfreed : w.blocks.erase buf = ∅ := by simp [hinv.blocks]
  constructor
  · intro h n hn
    have hexact : offset.toNat = w.written := hsize.trans (h.written rfl).symm
    exact ⟨hinv.nonneg n hn, hinv.exact_iff.mp hexact n hn⟩
  · intro h
    have hexact := hinv.exact_iff.mpr (fun n hn => (h n hn).2)
    refine ⟨fun _ => hexact.symm.trans hsize, ?_, hfreed⟩
    rintro ⟨n, hn, hneg⟩
    exact absurd (hinv.nonneg n hn) (not_le.mpr hneg)

theorem writeBuffer_delivers (houtcomes : w.outcomes = []) (hblocks : w.blocks = ∅) :
    DeliversIff .buffer size (writeBuffer fd size) w := by
  apply Safe.call writeEnv_still (by simp)
  intro block _
  cases block with
  | none =>
    apply Safe.ret writeEnv_still
    apply iff_of_true ⟨fun h => absurd h (by decide), fun _ => by decide, hblocks⟩
    intro n hn
    have hn' : n ∈ w.outcomes := hn
    simp [houtcomes] at hn'
  | some buf =>
    have hstart : BufferInv size buf.addr 0
        (writeEnv.effect w (.malloc .writeBuffer size.toNat) (some buf)) := by
      have hnil : (writeEnv.effect w (.malloc .writeBuffer size.toNat)
          (some buf)).outcomes = [] := houtcomes
      refine ⟨by simp [hnil], Nat.zero_le _, Nat.zero_le _, by simp [hnil, WriteLog.written], ?_⟩
      change insert buf.addr w.blocks = {buf.addr}
      simp [hblocks]
    refine Safe.loop (BufferInv size buf.addr) (fun _ => writeEnv_still.stable _)
      (fun offset w hinv => ?_) hstart
    split
    · apply writeInt_step (by simp)
      intro n hlo hhi
      split
      · rename_i hneg
        apply Safe.ret writeEnv_still
        apply Safe.ret writeEnv_still
        exact hinv.failed hneg
      · rename_i hrc
        exact Safe.ret writeEnv_still (hinv.advance hlo hhi (not_lt.mp hrc))
    · rename_i hge
      apply Safe.call writeEnv_still (by simp)
      intro _ _
      apply Safe.ret writeEnv_still
      apply Safe.ret writeEnv_still
      exact hinv.finished hge

theorem write_delivers (wt : WriteType) (fd : Fd) (size : ULong) :
    DeliversIff wt size (wt.write fd size) .initial := by
  cases wt with
  | chars => exact writeChars_delivers ⟨by simp [WriteLog.initial], rfl, Nat.zero_le _, rfl⟩
  | words =>
    exact writeWords_delivers ⟨by simp [WriteLog.initial], dvd_zero _, fun _ => ⟨rfl, by simp⟩, rfl⟩
  | buffer => exact writeBuffer_delivers rfl rfl

/-- At the end of every run a writer has kept its word exactly when no write of `write_chars` was
empty; every write of `write_words` was full or failed, and it was asked for whole words or a
write failed; and no write of `write_buffer` failed or wrote more than an `int` can say. -/
theorem writer_delivers_iff (wt : WriteType) (fd : Fd) (size : ULong) (p : SysProg ℤ)
    (w : WriteLog) (hrun : Reaches writeEnv (wt.write fd size, .initial) (p, w)) (hover : Over p) :
    Meets Asserted (Delivered size) p w ↔ wt.Suits size w := by
  have hsafe := write_delivers wt fd size p w hrun
  cases p with
  | ret rc => exact hsafe
  | call c k => exact iff_of_false (fun h => h hover) (hsafe hover)
  | loop body s k => exact hover.elim

theorem writer_delivers_iff_one :
    Meets (I := system) Asserted (Delivered 1) (.ret 0) ⟨[1], ∅⟩ ↔
      WriteType.chars.Suits 1 ⟨[1], ∅⟩ := by
  have hrun : Reaches writeEnv (WriteType.chars.write 3 1, .initial) (.ret 0, ⟨[1], ∅⟩) := by
    apply Relation.ReflTransGen.head .loop
    apply Relation.ReflTransGen.head (.call (1 : ℤ) ⟨by decide, by decide⟩)
    apply Relation.ReflTransGen.head .loop
    exact .refl
  exact writer_delivers_iff .chars 3 1 (.ret 0) ⟨[1], ∅⟩ hrun trivial

/-- Asked for one byte, `write_chars` takes a write of nothing for success, `write_words` writes
eight bytes, and `write_buffer` keeps its buffer when the write fails. -/
theorem writers_not_deliver :
    ¬ WriteType.chars.Delivers 3 1 ∧ ¬ WriteType.words.Delivers 3 1 ∧
      ¬ WriteType.buffer.Delivers 3 1 := by
  refine ⟨fun h => ?_, fun h => ?_, fun h => ?_⟩
  · have hrun : Reaches writeEnv (WriteType.chars.write 3 1, .initial) (.ret 0, ⟨[0], ∅⟩) := by
      apply Relation.ReflTransGen.head .loop
      exact .head (.call (0 : ℤ) ⟨by decide, by decide⟩) .refl
    exact absurd ((h _ _ hrun trivial).written rfl) (by decide)
  · have hrun : Reaches writeEnv (WriteType.words.write 3 1, .initial) (.ret 0, ⟨[8], ∅⟩) := by
      apply Relation.ReflTransGen.head .loop
      apply Relation.ReflTransGen.head (.call (8 : ℤ) ⟨by decide, by decide⟩)
      exact .head .loop .refl
    exact absurd ((h _ _ hrun trivial).written rfl) (by decide)
  · let buf : Option Block := some ⟨4096, []⟩
    have hfresh : writeEnv.legal .initial (.malloc .writeBuffer (1 : ULong).toNat) buf :=
      Finset.notMem_empty 4096
    have hrun : Reaches writeEnv (WriteType.buffer.write 3 1, .initial)
        (.ret (-1), ⟨[-1], {4096}⟩) := by
      apply Relation.ReflTransGen.head (.call _ hfresh)
      apply Relation.ReflTransGen.head .loop
      exact .head (.call (-1 : ℤ) ⟨by decide, by decide⟩) .refl
    exact absurd (h _ _ hrun trivial).freed (by decide)

end CloningApps.Server
