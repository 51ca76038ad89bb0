import CloningApps.Text.CString
import CloningApps.Text.Words
import Mathlib

/-! # The in-place tokenizer of the Mini-OS command line

`cmdline_tokenize` overwrites blanks with NUL and records where tokens start,
so the recorded pointers alias a buffer that is still being written. The loop
invariant splits the buffer at the scan position: tokens recorded so far end
before it, and at most one token is pending across it.
-/

namespace CloningApps.Cmdline
open Text

/-- The buffer, the recorded token starts as offsets into it, and `token_start`. -/
structure Tokens where
  str : List Byte
  argv : List ℕ
  tokenStart : Option ℕ

def isBlank (c : Byte) : Bool := c = 32 ∨ c = 9

/-- One pass through the `switch` at offset `i`, for a byte that is not NUL. -/
def Tokens.scan (t : Tokens) (i : ℕ) (c : Byte) : Tokens :=
  if isBlank c then
    match t.tokenStart with
    | some start => ⟨t.str.set i 0, t.argv ++ [start], none⟩
    | none => ⟨t.str.set i 0, t.argv, none⟩
  else
    match t.tokenStart with
    | some _ => t
    | none => { t with tokenStart := some i }

/-- The loop from offset `i` with `n` offsets left before `len`. -/
def tokenizeLoop (argvNum : ℕ) : ℕ → ℕ → Tokens → Tokens
  | 0, _, t => t
  | n + 1, i, t =>
    if t.argv.length < argvNum then
      match t.str[i]? with
      | none => t
      | some c => if c = 0 then t else tokenizeLoop argvNum n (i + 1) (t.scan i c)
    else t

def Tokens.finish (t : Tokens) : Tokens :=
  match t.tokenStart with
  | some start => { t with argv := t.argv ++ [start] }
  | none => t

/-- The final buffer and `argv`; the returned `argc` is the length of the latter. -/
def cmdlineTokenize (str : List Byte) (argvNum : ℕ) : Tokens :=
  (tokenizeLoop argvNum str.length 0 ⟨str, [], none⟩).finish

def notNul (c : Byte) : Bool := c ≠ 0

/-- The C string that starts at an offset of a buffer. -/
def cstrAt (buf : List Byte) (offset : ℕ) : CStr := (buf.drop offset).takeWhile notNul

def Tokens.strings (t : Tokens) : List CStr := t.argv.map (cstrAt t.str)

theorem cstrAt_append (pre rest : List Byte) (a : ℕ) (ha : a ≤ pre.length)
    (hnul : 0 ∈ pre.drop a) : cstrAt (pre ++ rest) a = cstrAt pre a := by
  have hstop : ((pre.drop a).takeWhile notNul).length ≠ (pre.drop a).length := by
    intro hlen
    have heq := (List.takeWhile_prefix notNul).eq_of_length hlen
    rw [List.takeWhile_eq_self_iff] at heq
    exact absurd (heq 0 hnul) (by decide)
  rw [cstrAt, cstrAt, List.drop_append_of_le_length ha, List.takeWhile_append, if_neg hstop]

theorem cstrAt_terminated (pre rest w : List Byte) (a : ℕ) (ha : a ≤ pre.length)
    (hw : pre.drop a = w) (hnul : 0 ∉ w) : cstrAt (pre ++ 0 :: rest) a = w := by
  have hall : ∀ c ∈ w, notNul c = true := by
    intro c hc
    simpa [notNul] using fun h : c = 0 => hnul (h ▸ hc)
  rw [cstrAt, List.drop_append_of_le_length ha, hw, List.takeWhile_append_of_pos hall]
  simp [notNul]

/-- The scan position splits the buffer into `pre` and what is still unread: every recorded
token ends inside `pre`, and `w` is the part of the pending token read so far. -/
structure Scanned (argvNum : ℕ) (pre : List Byte) (t : Tokens) (w : List Byte) : Prop where
  ended : ∀ a ∈ t.argv, a ≤ pre.length ∧ 0 ∈ pre.drop a
  pending : ∀ start, t.tokenStart = some start →
    start ≤ pre.length ∧ pre.drop start = w ∧ w ≠ [] ∧ t.argv.length < argvNum
  idle : t.tokenStart = none → w = []
  run : ∀ c ∈ w, isBlank c = false ∧ c ≠ 0
  room : t.argv.length ≤ argvNum

variable {argvNum : ℕ} {pre rest w : List Byte} {t : Tokens} {c : Byte}

theorem Scanned.not_mem_nul (h : Scanned argvNum pre t w) : 0 ∉ w :=
  fun hz => (h.run 0 hz).2 rfl

theorem Scanned.strings_stable (h : Scanned argvNum pre t w) (more : List Byte) :
    t.argv.map (cstrAt (pre ++ more)) = t.argv.map (cstrAt pre) := by
  apply List.map_congr_left
  intro a ha
  exact cstrAt_append pre more a (h.ended a ha).1 (h.ended a ha).2

theorem Scanned.ended_snoc (h : Scanned argvNum pre t w) (c : Byte) :
    ∀ a ∈ t.argv, a ≤ (pre ++ [c]).length ∧ 0 ∈ (pre ++ [c]).drop a := by
  intro a ha
  obtain ⟨hle, hnul⟩ := h.ended a ha
  refine ⟨by simp; omega, ?_⟩
  rw [List.drop_append_of_le_length hle]
  simp [hnul]

/-- A blank ends the pending token, if there is one. -/
theorem Scanned.blank (h : Scanned argvNum pre t w) (hstr : t.str = pre ++ c :: rest)
    (hc : isBlank c = true) :
    (t.scan pre.length c).str = pre ++ [0] ++ rest ∧
      Scanned argvNum (pre ++ [0]) (t.scan pre.length c) [] ∧
      (t.scan pre.length c).argv.map (cstrAt (pre ++ [0])) =
        t.argv.map (cstrAt pre) ++ (if w = [] then [] else [w]) := by
  have hset : t.str.set pre.length 0 = pre ++ [0] ++ rest := by simp [hstr]
  cases hts : t.tokenStart with
  | none =>
    have hw : w = [] := h.idle hts
    simp only [Tokens.scan, hc, if_true, hts, hset, hw]
    refine ⟨trivial, ⟨h.ended_snoc 0, by simp, by simp, by simp, h.room⟩, ?_⟩
    simp [h.strings_stable]
  | some start =>
    obtain ⟨hle, hdrop, hne, hroom⟩ := h.pending start hts
    simp only [Tokens.scan, hc, if_true, hts, hset, hne, if_false]
    refine ⟨trivial, ⟨?_, by simp, by simp, by simp, by simpa using hroom⟩, ?_⟩
    · intro a ha
      rcases List.mem_append.mp ha with ha | ha
      · exact h.ended_snoc 0 a ha
      · rw [List.mem_singleton] at ha
        subst ha
        refine ⟨by simp; omega, ?_⟩
        rw [List.drop_append_of_le_length hle]
        simp
    · rw [List.map_append, h.strings_stable, List.map_singleton,
        cstrAt_terminated pre [] w start hle hdrop h.not_mem_nul]

/-- Any other byte starts a token or prolongs the pending one. -/
theorem Scanned.byte (h : Scanned argvNum pre t w) (hroom : t.argv.length < argvNum)
    (hc : isBlank c = false) (hnul : c ≠ 0) :
    Scanned argvNum (pre ++ [c]) (t.scan pre.length c) (w ++ [c]) := by
  have hrun : ∀ d ∈ w ++ [c], isBlank d = false ∧ d ≠ 0 := by
    intro d hd
    rcases List.mem_append.mp hd with hd | hd
    · exact h.run d hd
    · rw [List.mem_singleton.mp hd]
      exact ⟨hc, hnul⟩
  cases hts : t.tokenStart with
  | none =>
    have hw : w = [] := h.idle hts
    simp only [Tokens.scan, hc, Bool.false_eq_true, if_false, hts]
    refine ⟨h.ended_snoc c, ?_, by simp, hrun, h.room⟩
    rintro start ⟨⟩
    simp [hw, hroom]
  | some start =>
    obtain ⟨hle, hdrop, hne, -⟩ := h.pending start hts
    simp only [Tokens.scan, hc, Bool.false_eq_true, if_false, hts]
    refine ⟨h.ended_snoc c, ?_, by simp [hts], hrun, h.room⟩
    intro start' hstart'
    obtain rfl : start = start' := by simpa [hts] using hstart'
    refine ⟨by simp; omega, ?_, by simp, hroom⟩
    rw [List.drop_append_of_le_length hle, hdrop]

theorem Scanned.finish_strings (h : Scanned argvNum pre t w) (hstr : t.str = pre) :
    t.finish.strings = t.argv.map (cstrAt pre) ++ (if w = [] then [] else [w]) := by
  cases hts : t.tokenStart with
  | none => simp [Tokens.finish, hts, Tokens.strings, hstr, h.idle hts]
  | some start =>
    obtain ⟨-, hdrop, hne, -⟩ := h.pending start hts
    have hall : w.takeWhile notNul = w := by
      rw [List.takeWhile_eq_self_iff]
      intro c hc
      simpa [notNul] using (h.run c hc).2
    simp [Tokens.finish, hts, Tokens.strings, hstr, hne, cstrAt, hdrop, hall]

theorem Scanned.finish_full (h : Scanned argvNum pre t w) (hfull : ¬ t.argv.length < argvNum)
    (hstr : t.str = pre ++ rest) : t.finish.strings = t.argv.map (cstrAt pre) ∧ w = [] := by
  cases hts : t.tokenStart with
  | none =>
    refine ⟨?_, h.idle hts⟩
    rw [Tokens.finish, hts, Tokens.strings, hstr, h.strings_stable]
  | some start => exact absurd (h.pending start hts).2.2.2 hfull

/-- From any scan position on, the loop adds the words still to come, up to the capacity. -/
theorem tokenizeLoop_strings (argvNum : ℕ) (rest pre w : List Byte) (t : Tokens)
    (hnul : 0 ∉ rest) (hstr : t.str = pre ++ rest) (h : Scanned argvNum pre t w) :
    (tokenizeLoop argvNum rest.length pre.length t).finish.strings =
      t.argv.map (cstrAt pre) ++ (words isBlank (w ++ rest)).take (argvNum - t.argv.length) := by
  induction rest generalizing pre w t with
  | nil =>
    rw [List.length_nil, tokenizeLoop, h.finish_strings (by simpa using hstr), List.append_nil]
    congr 1
    cases hts : t.tokenStart with
    | none => simp [h.idle hts]
    | some start =>
      obtain ⟨-, -, hne, hroom⟩ := h.pending start hts
      rw [words_of_run w hne (fun c hc => (h.run c hc).1), if_neg hne,
        List.take_of_length_le (by simp; omega)]
  | cons c rest ih =>
    have hget : t.str[pre.length]? = some c := by simp [hstr]
    have hc0 : c ≠ 0 := fun he => hnul (by simp [he])
    have hnul' : 0 ∉ rest := fun hm => hnul (by simp [hm])
    by_cases hroom : t.argv.length < argvNum
    · simp only [List.length_cons, tokenizeLoop, hroom, if_true, hget, hc0, if_false]
      cases hc : isBlank c with
      | true =>
        obtain ⟨hstr', hscan, hmap⟩ := h.blank hstr hc
        have hih := ih (pre ++ [0]) [] (t.scan pre.length c) hnul' hstr' hscan
        rw [List.length_append, List.length_singleton] at hih
        rw [hih, hmap, List.append_assoc, List.nil_append]
        congr 1
        have hlen := congrArg List.length hmap
        simp only [List.length_map, List.length_append] at hlen
        by_cases hw : w = []
        · simp only [hw, if_true, List.length_nil, add_zero] at hlen ⊢
          rw [hlen, List.nil_append, List.nil_append, words_cons_sep c rest hc]
        · simp only [hw, if_false, List.length_singleton] at hlen ⊢
          rw [hlen, words_run_sep w c rest hw (fun d hd => (h.run d hd).1) hc]
          have hsub : argvNum - t.argv.length = argvNum - (t.argv.length + 1) + 1 := by omega
          rw [hsub, List.take_succ_cons, List.singleton_append]
      | false =>
        have hscan := h.byte hroom hc hc0
        have hkeep : (t.scan pre.length c).str = t.str ∧ (t.scan pre.length c).argv = t.argv := by
          cases hts : t.tokenStart <;> simp [Tokens.scan, hc, hts]
        have hih := ih (pre ++ [c]) (w ++ [c]) (t.scan pre.length c) hnul'
          (by rw [hkeep.1, hstr]; simp) hscan
        rw [List.length_append, List.length_singleton, hkeep.2, h.strings_stable] at hih
        rw [hih, List.append_assoc, List.singleton_append]
    · obtain ⟨hfin, hw⟩ := h.finish_full hroom hstr
      have hzero : argvNum - t.argv.length = 0 := by omega
      simp [tokenizeLoop, hroom, hfin, hzero]

/-- The recorded tokens, read from the final buffer, are the first `argvNum` words. -/
theorem cmdlineTokenize_strings (s : List Byte) (argvNum : ℕ) (hnul : 0 ∉ s) :
    (cmdlineTokenize s argvNum).strings = (words isBlank s).take argvNum := by
  have hinit : Scanned argvNum [] ⟨s, [], none⟩ [] :=
    ⟨by simp, by simp, by simp, by simp, by simp⟩
  have h := tokenizeLoop_strings argvNum s [] [] ⟨s, [], none⟩ hnul rfl hinit
  simpa [cmdlineTokenize] using h

theorem cmdlineTokenize_argc (s : List Byte) (argvNum : ℕ) (hnul : 0 ∉ s) :
    (cmdlineTokenize s argvNum).argv.length = min argvNum (words isBlank s).length := by
  have h := congrArg List.length (cmdlineTokenize_strings s argvNum hnul)
  simpa [Tokens.strings] using h

/-! ## What happens to the buffer -/

/-- Some blanks of `s` are NUL in `buf`; everything else is the same. -/
def OnlyBlanked (s buf : List Byte) : Prop :=
  ∀ i : ℕ, buf[i]? = s[i]? ∨ ∃ c, s[i]? = some c ∧ isBlank c = true ∧ buf[i]? = some 0

theorem OnlyBlanked.set_nul {s buf : List Byte} (h : OnlyBlanked s buf) {i : ℕ} {c : Byte}
    (hget : buf[i]? = some c) (hc : isBlank c = true) : OnlyBlanked s (buf.set i 0) := by
  intro j
  by_cases hj : i = j
  · subst hj
    obtain ⟨hlt, -⟩ := List.getElem?_eq_some_iff.mp hget
    have hs : s[i]? = some c := by
      rcases h i with hsame | ⟨d, -, -, hnul⟩
      · rw [← hsame, hget]
      · have hzero : c = 0 := Option.some.inj (hget.symm.trans hnul)
        exact absurd (hzero ▸ hc) (by decide)
    exact .inr ⟨c, hs, hc, List.getElem?_set_self hlt⟩
  · rw [List.getElem?_set_ne hj]
    exact h j

theorem Tokens.scan_onlyBlanked {s : List Byte} {i : ℕ} (h : OnlyBlanked s t.str)
    (hget : t.str[i]? = some c) : OnlyBlanked s (t.scan i c).str := by
  cases hc : isBlank c with
  | true => cases hts : t.tokenStart <;> simpa [Tokens.scan, hc, hts] using h.set_nul hget hc
  | false => cases hts : t.tokenStart <;> simpa [Tokens.scan, hc, hts] using h

theorem tokenizeLoop_onlyBlanked (argvNum : ℕ) {s : List Byte} (n i : ℕ) (t : Tokens)
    (h : OnlyBlanked s t.str) : OnlyBlanked s (tokenizeLoop argvNum n i t).str := by
  induction n generalizing i t with
  | zero => exact h
  | succ n ih =>
    unfold tokenizeLoop
    split
    · split
      next => exact h
      next c hget =>
        split
        · exact h
        · apply ih
          exact Tokens.scan_onlyBlanked h hget
    · exact h

@[simp] theorem Tokens.finish_str (t : Tokens) : t.finish.str = t.str := by
  unfold Tokens.finish
  split <;> rfl

theorem cmdlineTokenize_onlyBlanked (s : List Byte) (argvNum : ℕ) :
    OnlyBlanked s (cmdlineTokenize s argvNum).str := by
  rw [cmdlineTokenize, Tokens.finish_str]
  apply tokenizeLoop_onlyBlanked
  exact fun _ => .inl rfl

/-- What a split of `s` into at most `argvNum` words leaves behind. -/
structure Splits (s : List Byte) (argvNum : ℕ) (t : Tokens) : Prop where
  argc : t.argv.length = min argvNum (words isBlank s).length
  token : ∀ k (h : k < t.argv.length), (words isBlank s)[k]? = some (cstrAt t.str t.argv[k])
  capacity : ∀ k (_ : k < t.argv.length), k < argvNum
  buffer : OnlyBlanked s t.str

theorem cmdlineTokenize_splits (s : List Byte) (argvNum : ℕ) (hnul : 0 ∉ s) :
    Splits s argvNum (cmdlineTokenize s argvNum) where
  argc := cmdlineTokenize_argc s argvNum hnul
  token := by
    intro k hk
    have hstrings := congrArg (·[k]?) (cmdlineTokenize_strings s argvNum hnul)
    have hk' : k < argvNum := by
      rw [cmdlineTokenize_argc s argvNum hnul] at hk
      exact (lt_min_iff.mp hk).1
    simp only [Tokens.strings, List.getElem?_map, List.getElem?_eq_getElem hk,
      Option.map_some, List.getElem?_take_of_lt hk'] at hstrings
    exact hstrings.symm
  capacity := by
    intro k hk
    rw [cmdlineTokenize_argc s argvNum hnul] at hk
    exact (lt_min_iff.mp hk).1
  buffer := cmdlineTokenize_onlyBlanked s argvNum

/-- The capacity is reached in the middle of the line. -/
theorem cmdlineTokenize_splits_full :
    Splits (ascii " -t\t-c 8 ") 2 (cmdlineTokenize (ascii " -t\t-c 8 ") 2) :=
  cmdlineTokenize_splits (ascii " -t\t-c 8 ") 2 (by decide)

end CloningApps.Cmdline
