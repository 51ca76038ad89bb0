import CloningApps.Server.Prologue
import CloningApps.Text.Decimal

/-! # The format of the report messages

`send_time` prints a time and a suffix into a buffer of 64 bytes, and the
prologues print the suffix into one of 32. Both fit, and a message can be read
back.
-/

namespace CloningApps.Server
open Text Interaction Os Net

/-- What the prologues say about the sender of a message. -/
inductive Sender where
  | unnamed
  | parent (i : BitVec 32)
  | child (i : BitVec 32)
  deriving DecidableEq

def Sender.suffix : Sender → Option CStr
  | .unnamed => none
  | .parent i => some (parentSuffix i.toInt)
  | .child i => some (childSuffix i.toInt)

/-- The part of a message that `send_time` prints first. -/
def timeText (tv : Timeval) : CStr :=
  printLong tv.sec ++ ascii "." ++ zeroPadded 6 (tv.usec % 2 ^ 64).toNat

def suffixText : Option CStr → CStr
  | none => []
  | some s => ascii ";" ++ s

theorem timeMessage_eq (tv : Timeval) (suffix : Option CStr) :
    timeMessage tv suffix = timeText tv ++ suffixText suffix := by
  cases suffix <;> rfl

variable {tv tv' : Timeval} {sender sender' : Sender}

/-! ## Lengths -/

theorem suffix_length_le {s : CStr} (h : sender.suffix = some s) : s.length ≤ 18 := by
  have hint : ∀ i : BitVec 32, (decimalInt i.toInt).length ≤ 11 := by
    intro i
    exact decimalInt_length_le (BitVec.le_toInt i) (BitVec.toInt_lt)
  cases sender with
  | unnamed => exact absurd h (by simp [Sender.suffix])
  | parent i =>
    obtain rfl := Option.some.inj h
    rw [parentSuffix, List.length_append]
    exact Nat.add_le_add (show 7 ≤ 7 from le_rfl) (hint i)
  | child i =>
    obtain rfl := Option.some.inj h
    rw [childSuffix, List.length_append]
    exact Nat.add_le_add (show 6 ≤ 7 by decide) (hint i)

theorem printLong_length_le (i : ℤ) : (printLong i).length ≤ 20 := by
  apply decimal_length_le _ _ (by decide)
  omega

theorem usec_toNat (h : UsecNormal tv) : (tv.usec % 2 ^ 64).toNat = tv.usec.toNat := by
  obtain ⟨hlo, hhi⟩ := h
  congr 1
  omega

theorem usec_lt (h : UsecNormal tv) : tv.usec.toNat < 10 ^ 6 := by
  obtain ⟨hlo, hhi⟩ := h
  omega

theorem timeText_length_le (h : UsecNormal tv) : (timeText tv).length ≤ 27 := by
  have hsec := printLong_length_le tv.sec
  have husec := zeroPadded_length (by decide) (usec_lt h)
  rw [timeText, usec_toNat h, List.length_append, List.length_append, husec]
  exact Nat.add_le_add_right (Nat.add_le_add_right hsec 1) 6

theorem message_length_le (h : UsecNormal tv) (sender : Sender) :
    (timeMessage tv sender.suffix).length ≤ 46 := by
  have htime := timeText_length_le h
  rw [timeMessage_eq, List.length_append]
  cases hs : sender.suffix with
  | none => exact htime.trans (by decide)
  | some s =>
    have hsuffix := suffix_length_le hs
    rw [suffixText, List.length_append]
    exact Nat.add_le_add htime (Nat.add_le_add_left hsuffix 1)

/-! ## Reading a message back -/

theorem timeText_no_semicolon (tv : Timeval) : ∀ c ∈ timeText tv, c ≠ 59 := by
  intro c hc
  rw [timeText, List.mem_append, List.mem_append] at hc
  rcases hc with (hc | hc) | hc
  · exact ne_of_isDigit (decimal_isDigit _ c hc) (by decide)
  · obtain rfl : c = 46 := by simpa [ascii] using hc
    decide
  · exact ne_of_isDigit (zeroPadded_isDigit _ _ c hc) (by decide)

/-- The text before the first semicolon and the rest. -/
theorem message_split (tv : Timeval) (sender : Sender) :
    (timeMessage tv sender.suffix).takeWhile (· ≠ 59) = timeText tv ∧
      (timeMessage tv sender.suffix).dropWhile (· ≠ 59) = suffixText sender.suffix := by
  have htime : ∀ c ∈ timeText tv, decide (c ≠ 59) = true :=
    fun c hc => decide_eq_true (timeText_no_semicolon tv c hc)
  have hsuffix : (suffixText sender.suffix).takeWhile (· ≠ 59) = [] ∧
      (suffixText sender.suffix).dropWhile (· ≠ 59) = suffixText sender.suffix := by
    cases sender.suffix with
    | none => exact ⟨rfl, rfl⟩
    | some s => exact ⟨rfl, rfl⟩
  rw [timeMessage_eq, List.takeWhile_append_of_pos htime, List.dropWhile_append_of_pos htime]
  rw [hsuffix.1, hsuffix.2, List.append_nil]
  exact ⟨rfl, rfl⟩

/-- A printed `long` is not negative. -/
theorem sec_toNat (i : ℤ) : ((i % 2 ^ 64).toNat : ℤ) = i % 2 ^ 64 := by
  apply Int.toNat_of_nonneg
  omega

theorem readDecimal_timeText (h : UsecNormal tv) :
    readDecimal (timeText tv) = some (((tv.sec % 2 ^ 64 : ℤ) : ℚ) + (tv.usec : ℚ) / 10 ^ 6) := by
  have husec : (tv.usec.toNat : ℤ) = tv.usec := Int.toNat_of_nonneg h.1
  rw [timeText, usec_toNat h, printLong, readDecimal_padded _ (by decide) (usec_lt h)]
  congr 2
  · exact_mod_cast congrArg (Int.cast : ℤ → ℚ) (sec_toNat tv.sec)
  · congr 1
    exact_mod_cast congrArg (Int.cast : ℤ → ℚ) husec

/-- The whole part ends at the point. -/
theorem timeText_split (tv : Timeval) :
    (timeText tv).takeWhile isDigit = printLong tv.sec ∧
      (timeText tv).dropWhile isDigit =
        ascii "." ++ zeroPadded 6 (tv.usec % 2 ^ 64).toNat := by
  have hpoint : ∀ c, (ascii "." ++ zeroPadded 6 (tv.usec % 2 ^ 64).toNat).head? = some c →
      isDigit c = false := by
    intro c hc
    obtain rfl : 46 = c := Option.some.inj hc
    decide
  rw [timeText, List.append_assoc]
  exact ⟨takeWhile_digits _ _ (decimal_isDigit _) hpoint,
    dropWhile_digits _ _ (decimal_isDigit _) hpoint⟩

theorem timeText_injective (h : UsecNormal tv) (h' : UsecNormal tv')
    (heq : timeText tv = timeText tv') :
    tv.sec % 2 ^ 64 = tv'.sec % 2 ^ 64 ∧ tv.usec = tv'.usec := by
  obtain ⟨hwhole, hfraction⟩ := timeText_split tv
  obtain ⟨hwhole', hfraction'⟩ := timeText_split tv'
  constructor
  · have hprinted : printLong tv.sec = printLong tv'.sec := by
      rw [← hwhole, heq, hwhole']
    have hsec := decimal_injective hprinted
    rw [← sec_toNat tv.sec, hsec, sec_toNat]
  · have hprinted := hfraction.symm.trans ((congrArg _ heq).trans hfraction')
    have husec := congrArg digitsValue (List.append_cancel_left hprinted)
    rw [digitsValue_zeroPadded, digitsValue_zeroPadded, usec_toNat h, usec_toNat h'] at husec
    have hlo := h.1
    have hlo' := h'.1
    omega

theorem suffix_injective (h : suffixText sender.suffix = suffixText sender'.suffix) :
    sender = sender' := by
  have hint : ∀ i j : BitVec 32, decimalInt i.toInt = decimalInt j.toInt → i = j :=
    fun i j hij => BitVec.eq_of_toInt_eq (decimalInt_injective hij)
  cases sender with
  | unnamed =>
    cases sender' with
    | unnamed => rfl
    | parent j | child j => exact absurd h (by simp [Sender.suffix, suffixText, ascii])
  | parent i =>
    cases sender' with
    | unnamed => exact absurd h (by simp [Sender.suffix, suffixText, ascii])
    | parent j =>
      have hparent := List.append_cancel_left (List.append_cancel_left h)
      rw [hint i j hparent]
    | child j =>
      have htail : parentSuffix i.toInt = childSuffix j.toInt := List.append_cancel_left h
      exact absurd (congrArg List.head? htail) (by simp [parentSuffix, childSuffix, ascii])
  | child i =>
    cases sender' with
    | unnamed => exact absurd h (by simp [Sender.suffix, suffixText, ascii])
    | parent j =>
      have htail : childSuffix i.toInt = parentSuffix j.toInt := List.append_cancel_left h
      exact absurd (congrArg List.head? htail) (by simp [parentSuffix, childSuffix, ascii])
    | child j =>
      have hchild := List.append_cancel_left (List.append_cancel_left h)
      rw [hint i j hchild]

/-- The suffixes and the messages fit into their buffers with the terminating NUL, a message says
what it was printed from, its first part is the time as a decimal number, and a difference of two
normalised times can be printed. -/
theorem timeMessage_unambiguous :
    (∀ (sender : Sender) (s : CStr), sender.suffix = some s → s.length + 1 ≤ 32) ∧
    (∀ (tv : Timeval) (sender : Sender), UsecNormal tv →
      (timeMessage tv sender.suffix).length + 1 ≤ 64) ∧
    (∀ (tv tv' : Timeval) (sender sender' : Sender), UsecNormal tv → UsecNormal tv' →
      timeMessage tv sender.suffix = timeMessage tv' sender'.suffix →
        tv.sec % 2 ^ 64 = tv'.sec % 2 ^ 64 ∧ tv.usec = tv'.usec ∧ sender = sender') ∧
    (∀ (tv : Timeval) (sender : Sender), UsecNormal tv →
      readDecimal ((timeMessage tv sender.suffix).takeWhile (· ≠ 59)) =
        some (((tv.sec % 2 ^ 64 : ℤ) : ℚ) + (tv.usec : ℚ) / 10 ^ 6)) ∧
    ∀ a b : Timeval, UsecNormal a → UsecNormal b → UsecNormal (timersub a b) := by
  refine ⟨?_, ?_, ?_, ?_, fun a b => UsecNormal.timersub⟩
  · intro sender s hs
    have hlen := suffix_length_le hs
    omega
  · intro tv sender h
    have hlen := message_length_le h sender
    omega
  · intro tv tv' sender sender' h h' heq
    obtain ⟨htime, hsuffix⟩ := message_split tv sender
    obtain ⟨htime', hsuffix'⟩ := message_split tv' sender'
    obtain ⟨hsec, husec⟩ := timeText_injective h h' (by rw [← htime, heq, htime'])
    refine ⟨hsec, husec, suffix_injective ?_⟩
    rw [← hsuffix, heq, hsuffix']
  · intro tv sender h
    rw [(message_split tv sender).1]
    exact readDecimal_timeText h

end CloningApps.Server
