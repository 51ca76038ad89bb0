import CloningApps.Cmdline.Minios

/-! # Settings written on the Mini-OS command line are parsed back

A list of settings is rendered to tokens, the tokens are laid out on a line with
arbitrary blanks, and `threaded_main_wrapper` followed by `os_parse_args` returns
the settings. The tokenizer yields the tokens and the parser consumes the tokens
of one setting at a time.
-/

namespace CloningApps.Cmdline
open Text

/-- What makes a string one token. -/
def IsWord (w : CStr) : Prop := w ≠ [] ∧ (∀ c ∈ w, isBlank c = false) ∧ 0 ∉ w

instance (w : CStr) : Decidable (IsWord w) := inferInstanceAs (Decidable (_ ∧ _ ∧ _))

structure Word where
  text : CStr
  isWord : IsWord text

inductive Setting (build : Build) where
  | app (a : App) (real : a ≠ .none) (compiled : build a = true)
  | sendTime
  | fork
  | clone
  | children (n : ℕ) (pos : 1 ≤ n) (int : n < 2 ^ 31)
  | sleep (msec : ℕ) (int : msec < 2 ^ 31)
  | memory (s : Word)

variable {build : Build}

def Setting.opt : Setting build → Opt
  | .app .. => .app
  | .sendTime => .sendTime
  | .fork => .fork
  | .clone => .clone
  | .children .. => .children
  | .sleep .. => .sleep
  | .memory _ => .memory

/-- The two spellings in `print_usage`. -/
def Opt.short : Opt → CStr
  | .help => ascii "-h"
  | .app => ascii "-a"
  | .sendTime => ascii "-t"
  | .fork => ascii "-f"
  | .clone => ascii "-x"
  | .children => ascii "-c"
  | .sleep => ascii "-s"
  | .memory => ascii "-m"

def Opt.long : Opt → CStr
  | .help => ascii "--help"
  | .app => ascii "--app"
  | .sendTime => ascii "--send-time"
  | .fork => ascii "--fork"
  | .clone => ascii "--clone"
  | .children => ascii "--children"
  | .sleep => ascii "--sleep"
  | .memory => ascii "--memory"

def Opt.spelling (opt : Opt) (short : Bool) : CStr := if short then opt.short else opt.long

theorem miniosOpt_spelling (opt : Opt) (short : Bool) :
    miniosOpt (opt.spelling short) = some opt := by
  cases opt <;> cases short <;> decide

/-- The token that follows the option. -/
def Setting.value : Setting build → List CStr
  | .app a _ _ => [a.name]
  | .children n _ _ => [decimal n]
  | .sleep msec _ => [decimal msec]
  | .memory s => [s.text]
  | _ => []

/-- A setting and whether its option is written short. -/
abbrev Item (build : Build) := Setting build × Bool

def Item.render (item : Item build) : List CStr :=
  item.1.opt.spelling item.2 :: item.1.value

def render (items : List (Item build)) : List CStr := items.flatMap Item.render

/-! ## What the settings say -/

def Setting.app? : Setting build → Option App
  | .app a _ _ => some a
  | _ => none

def Setting.sendTime? : Setting build → Option Bool
  | .sendTime => some true
  | _ => none

def Setting.fork? : Setting build → Option Bool
  | .fork => some true
  | _ => none

def Setting.clone? : Setting build → Option Bool
  | .clone => some true
  | _ => none

def Setting.children? : Setting build → Option ℤ
  | .children n _ _ => some n
  | _ => none

def Setting.sleep? : Setting build → Option ℤ
  | .sleep msec _ => some msec
  | _ => none

def Setting.memory? : Setting build → Option (Option CStr)
  | .memory s => some (some s.text)
  | _ => none

/-- What the last setting of a kind says, or the initial value when there is none. -/
def lastOf {γ : Type} (kind : Setting build → Option γ) (items : List (Item build)) (initial : γ) :
    γ :=
  (items.filterMap (fun item => kind item.1)).getLast?.getD initial

def settled (items : List (Item build)) : Globals where
  app := lastOf Setting.app? items Globals.initial.app
  doSendTime := lastOf Setting.sendTime? items Globals.initial.doSendTime
  doFork := lastOf Setting.fork? items Globals.initial.doFork
  doClone := lastOf Setting.clone? items Globals.initial.doClone
  childrenNum := lastOf Setting.children? items Globals.initial.childrenNum
  sleepBetweenClonesMsec := lastOf Setting.sleep? items Globals.initial.sleepBetweenClonesMsec
  memoryStr := lastOf Setting.memory? items Globals.initial.memoryStr

/-- The settings after one more setting. -/
def Globals.with (g : Globals) (s : Setting build) : Globals where
  app := s.app?.getD g.app
  doSendTime := s.sendTime?.getD g.doSendTime
  doFork := s.fork?.getD g.doFork
  doClone := s.clone?.getD g.doClone
  childrenNum := s.children?.getD g.childrenNum
  sleepBetweenClonesMsec := s.sleep?.getD g.sleepBetweenClonesMsec
  memoryStr := s.memory?.getD g.memoryStr

/-- A field that every setting of one kind overwrites ends with the last of them. -/
theorem foldl_with_field {γ : Type} (field : Globals → γ) (kind : Setting build → Option γ)
    (hset : ∀ (g : Globals) (s : Setting build), field (g.with s) = (kind s).getD (field g))
    (items : List (Item build)) (g : Globals) :
    field (items.foldl (fun g item => g.with item.1) g) = lastOf kind items (field g) := by
  induction items generalizing g with
  | nil => rfl
  | cons item items ih =>
    rw [List.foldl_cons, ih, hset, lastOf, lastOf]
    cases hk : kind item.1 with
    | none => simp only [List.filterMap_cons, hk, Option.getD_none]
    | some v => simp only [List.filterMap_cons, hk, List.getLast?_cons, Option.getD_some]

theorem foldl_with_initial (items : List (Item build)) :
    items.foldl (fun g item => g.with item.1) Globals.initial = settled items := by
  rw [settled, ← foldl_with_field Globals.app Setting.app? (fun _ _ => rfl),
    ← foldl_with_field Globals.doSendTime Setting.sendTime? (fun _ _ => rfl),
    ← foldl_with_field Globals.doFork Setting.fork? (fun _ _ => rfl),
    ← foldl_with_field Globals.doClone Setting.clone? (fun _ _ => rfl),
    ← foldl_with_field Globals.childrenNum Setting.children? (fun _ _ => rfl),
    ← foldl_with_field Globals.sleepBetweenClonesMsec Setting.sleep? (fun _ _ => rfl),
    ← foldl_with_field Globals.memoryStr Setting.memory? (fun _ _ => rfl)]

/-! ## The parser on rendered settings -/

/-- The option of a setting, applied to the value of the setting, makes the setting. -/
theorem Setting.apply_opt (s : Setting build) (g : Globals) :
    s.opt.apply build g (s.value.headD []) = some (g.with s) := by
  cases s with
  | app a real compiled =>
    have happ : Opt.apply build g a.name .app = some { g with app := a } := by
      simp [Opt.apply, stringToApp_name build a real compiled, real]
    exact happ
  | children n pos int =>
    have hn : ¬ (n : ℤ) < 1 := by omega
    have hchildren : Opt.apply build g (decimal n) .children =
        some { g with childrenNum := n } := by
      simp [Opt.apply, sscanfD_decimal n int, hn]
    exact hchildren
  | sleep msec int =>
    have hsleep : Opt.apply build g (decimal msec) .sleep =
        some { g with sleepBetweenClonesMsec := msec } := by
      simp [Opt.apply, sscanfD_decimal msec int]
    exact hsleep
  | _ => rfl

/-- One option with its value takes the parser one round further. -/
theorem parseTokens_option (beyond : CStr) (opt : Opt) (short : Bool) (value rest : List CStr)
    (hvalue : value.length = if opt.takesValue then 1 else 0) (g : Globals) :
    parseTokens build beyond (opt.spelling short :: (value ++ rest)) g =
      match opt.apply build g (value.headD []) with
      | none => (.exited none, false)
      | some g => parseTokens build beyond rest g := by
  rw [parseTokens.eq_def]
  simp only [miniosOpt_spelling]
  cases htakes : opt.takesValue with
  | false =>
    obtain rfl : value = [] := by simpa [htakes] using hvalue
    cases happly : opt.apply build g [] <;> simp [happly]
  | true =>
    obtain ⟨v, rfl⟩ : ∃ v, value = [v] := List.length_eq_one_iff.mp (by simpa [htakes] using hvalue)
    cases happly : opt.apply build g v <;> simp [happly]

theorem Setting.value_length (s : Setting build) :
    s.value.length = if s.opt.takesValue then 1 else 0 := by
  cases s <;> rfl

theorem parseTokens_item (beyond : CStr) (item : Item build) (rest : List CStr) (g : Globals) :
    parseTokens build beyond (item.render ++ rest) g =
      parseTokens build beyond rest (g.with item.1) := by
  rw [Item.render, List.cons_append, parseTokens_option _ _ _ _ _ item.1.value_length,
    item.1.apply_opt g]

theorem parseTokens_render (beyond : CStr) (items : List (Item build)) (g : Globals) :
    parseTokens build beyond (render items) g =
      (.returned 0 (items.foldl (fun g item => g.with item.1) g), false) := by
  induction items generalizing g with
  | nil => rfl
  | cons item items ih =>
    rw [render, List.flatMap_cons, parseTokens_item, ← render, ih, List.foldl_cons]

/-! ## Tokens on a line -/

/-- A line that spells the tokens with runs of blanks before, between and behind them. What
follows a token is empty or starts with a blank. -/
inductive Laid : List CStr → CStr → Prop
  | blanks (b : CStr) (hb : ∀ c ∈ b, isBlank c = true) : Laid [] b
  | token (b w : CStr) {tokens : List CStr} {line : CStr} (hb : ∀ c ∈ b, isBlank c = true)
      (hsep : ∀ c, line.head? = some c → isBlank c = true) (hline : Laid tokens line) :
      Laid (w :: tokens) (b ++ w ++ line)

theorem Opt.spelling_isWord (opt : Opt) (short : Bool) : IsWord (opt.spelling short) := by
  cases opt <;> cases short <;> decide

theorem isWord_of_forall_isDigit {w : CStr} (hne : w ≠ []) (hw : ∀ c ∈ w, isDigit c = true) :
    IsWord w := by
  refine ⟨hne, fun c hc => ?_, fun h0 => absurd (hw 0 h0) (by decide)⟩
  have hdigit := hw c hc
  simp only [isBlank, decide_eq_false_iff_not, not_or]
  exact ⟨ne_of_isDigit hdigit (by decide), ne_of_isDigit hdigit (by decide)⟩

theorem render_isWord (items : List (Item build)) : ∀ w ∈ render items, IsWord w := by
  intro w hw
  rw [render, List.mem_flatMap] at hw
  obtain ⟨⟨s, short⟩, -, hw⟩ := hw
  rw [Item.render, List.mem_cons] at hw
  rcases hw with rfl | hw
  · exact s.opt.spelling_isWord short
  · cases s with
    | app a real compiled =>
      rw [List.mem_singleton.mp hw]
      cases a with
      | none => exact absurd rfl real
      | _ => decide
    | children n | sleep n =>
      rw [List.mem_singleton.mp hw]
      exact isWord_of_forall_isDigit (decimal_ne_nil n) (decimal_isDigit n)
    | memory s =>
      rw [List.mem_singleton.mp hw]
      exact s.isWord
    | _ => exact absurd hw List.not_mem_nil

theorem Laid.words {tokens : List CStr} {line : CStr} (h : Laid tokens line)
    (hw : ∀ w ∈ tokens, IsWord w) : words isBlank line = tokens := by
  induction h with
  | blanks b hb => simpa using words_append_seps b [] hb
  | @token b w tokens line hb hsep hline ih =>
    obtain ⟨hne, hrun, -⟩ := hw w (by simp)
    rw [List.append_assoc, words_append_seps b _ hb, ← ih (fun v hv => hw v (by simp [hv]))]
    cases line with
    | nil => simp [words_of_run w hne hrun]
    | cons c line =>
      have hc := hsep c rfl
      rw [words_run_sep w c line hne hrun hc, words_cons_sep c line hc]

theorem Laid.not_nul {tokens : List CStr} {line : CStr} (h : Laid tokens line)
    (hw : ∀ w ∈ tokens, IsWord w) : 0 ∉ line := by
  have hblanks : ∀ b : CStr, (∀ c ∈ b, isBlank c = true) → 0 ∉ b := by
    intro b hb h0
    exact absurd (hb 0 h0) (by decide)
  induction h with
  | blanks b hb => exact hblanks b hb
  | @token b w tokens line hb hsep hline ih =>
    have hnul := (hw w (by simp)).2.2
    have hrest := ih (fun v hv => hw v (by simp [hv]))
    simp only [List.mem_append, not_or]
    exact ⟨⟨hblanks b hb, hnul⟩, hrest⟩

/-- Settings rendered to a kernel command line are parsed back: each is left at its last
occurrence, and the others at their initial values. -/
theorem threadedMainParse_render (build : Build) (items : List (Item build)) (line : CStr)
    (beyond : ℕ → CStr) (hline : Laid (render items) line)
    (hnum : (render items).length ≤ MAX_ARGV_NUM - 1) :
    (threadedMainParse build line beyond).result = .returned 0 (settled items) := by
  have hwords := hline.words (render_isWord items)
  obtain ⟨next, hparse, -⟩ :=
    threadedMainParse_eq build line beyond (hline.not_nul (render_isWord items))
  have htake : (render items).take 15 = render items := List.take_of_length_le hnum
  rw [hparse, hwords, htake, parseTokens_render, foldl_with_initial]

/-- Two memory sizes, the first of which looks like an option, behind leading blanks. -/
theorem threadedMainParse_render_memory :
    (threadedMainParse (fun _ => true) (ascii "  -m -f \t--children 3 --memory 1G ")
      (fun _ => [])).result =
        .returned 0 { Globals.initial with
          childrenNum := 3
          memoryStr := some (ascii "1G") } :=
  threadedMainParse_render (fun _ => true)
    [(.memory ⟨ascii "-f", by decide⟩, true),
      (.children 3 (by decide) (by decide), false),
      (.memory ⟨ascii "1G", by decide⟩, false)]
    (ascii "  -m -f \t--children 3 --memory 1G ") (fun _ => [])
    (.token (ascii "  ") (ascii "-m") (by decide) (by decide)
      (.token (ascii " ") (ascii "-f") (by decide) (by decide)
        (.token (ascii " \t") (ascii "--children") (by decide) (by decide)
          (.token (ascii " ") (ascii "3") (by decide) (by decide)
            (.token (ascii " ") (ascii "--memory") (by decide) (by decide)
              (.token (ascii " ") (ascii "1G") (by decide) (by decide)
                (.blanks (ascii " ") (by decide))))))))
    (by decide)

end CloningApps.Cmdline
