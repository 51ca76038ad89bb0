import CloningApps.Cmdline.Settings
import CloningApps.Cmdline.Tokenize

/-! # The Mini-OS command line

`threaded_main_wrapper` tokenizes the kernel command line into `__argv` and
`os_parse_args` scans it from left to right, looking one entry ahead for an
option with a value. The array is static, so the entries from `argc` up to 15 are
null pointers, and entry 16 is behind its end. The parser's model records every
entry it reads; what a pointer from there shows is left open, since nothing is read
after it.
-/

namespace CloningApps.Cmdline
open Text

inductive Opt where
  | help | app | sendTime | fork | clone | children | sleep | memory
  deriving DecidableEq

def isArg (arg : CStr) (short long : String) : Bool := arg = ascii short ∨ arg = ascii long

/-- The chain of `strcmp` tests on `argv[i]`. -/
def miniosOpt (arg : CStr) : Option Opt :=
  if isArg arg "-h" "--help" then some .help
  else if isArg arg "-a" "--app" then some .app
  else if isArg arg "-t" "--send-time" then some .sendTime
  else if isArg arg "-f" "--fork" then some .fork
  else if isArg arg "-x" "--clone" then some .clone
  else if isArg arg "-c" "--children" then some .children
  else if isArg arg "-s" "--sleep" then some .sleep
  else if isArg arg "-m" "--memory" then some .memory
  else none

def Opt.takesValue : Opt → Bool
  | .app | .children | .sleep | .memory => true
  | _ => false

/-- The effect of an option on the settings, with `value` for `argv[i + 1]`; `none` is an exit.
A number that does not scan leaves its variable alone. -/
def Opt.apply (build : Build) (g : Globals) (value : CStr) : Opt → Option Globals
  | .help => none
  | .app => if stringToApp build value = .none then none
      else some { g with app := stringToApp build value }
  | .sendTime => some { g with doSendTime := true }
  | .fork => some { g with doFork := true }
  | .clone => some { g with doClone := true }
  | .children =>
      let n := (sscanfD value).getD g.childrenNum
      if n < 1 then none else some { g with childrenNum := n }
  | .sleep =>
      some { g with sleepBetweenClonesMsec := (sscanfD value).getD g.sleepBetweenClonesMsec }
  | .memory => some { g with memoryStr := some value }

/-- The result of the parser and the indices of the `argv` entries it read. -/
structure Parse where
  result : ParseResult
  reads : List ℕ

/-- The loop at index `i`; an argument that is no option is reported and skipped. -/
def parseLoop (build : Build) (argc : ℕ) (argv : ℕ → CStr) : ℕ → ℕ → Globals → List ℕ → Parse
  | 0, _, g, reads => ⟨.returned 0 g, reads⟩
  | n + 1, i, g, reads =>
    if i < argc then
      match miniosOpt (argv i) with
      | none => parseLoop build argc argv n (i + 1) g (reads ++ [i])
      | some opt =>
        let seen := reads ++ (if opt.takesValue then [i, i + 1] else [i])
        match opt.apply build g (argv (i + 1)) with
        -- only an unknown application and `--help` print the usage, with `argv[0]` in it
        | none => ⟨.exited none, seen ++ (if opt = .children then [] else [0])⟩
        | some g => parseLoop build argc argv n (i + (if opt.takesValue then 2 else 1)) g seen
    else ⟨.returned 0 g, reads⟩

def osParseArgs (build : Build) (argc : ℕ) (argv : ℕ → CStr) (g : Globals) : Parse :=
  parseLoop build argc argv argc 1 g []

def MAX_ARGV_NUM : ℕ := 16

/-- The strings a vector of arguments points to. No string stands behind them, and `beyond` is
what a look there takes for one. -/
def argvOf (name : CStr) (args : List CStr) (beyond : ℕ → CStr) (i : ℕ) : CStr :=
  if i = 0 then name else (args[i - 1]?).getD (beyond i)

/-- `__argc` and `__argv` after tokenizing. -/
def threadedMainArgv (cmdline : CStr) (beyond : ℕ → CStr) : ℕ × (ℕ → CStr) :=
  let tokens := (cmdlineTokenize cmdline (MAX_ARGV_NUM - 1)).strings
  (1 + tokens.length, argvOf (ascii "cloning-apps") tokens beyond)

/-- `threaded_main_wrapper` up to the return of `os_parse_args` in `main`, with `beyond` for what
a look behind the arguments takes for a string. -/
def threadedMainParse (build : Build) (cmdline : CStr) (beyond : ℕ → CStr) : Parse :=
  let a := threadedMainArgv cmdline beyond
  osParseArgs build a.1 a.2 Globals.initial

/-! ## The parser on a list of arguments -/

/-- The same scan over the arguments as a list; the flag says that a value was looked for
behind the last argument, where `beyond` is taken for one. -/
def parseTokens (build : Build) (beyond : CStr) : List CStr → Globals → ParseResult × Bool
  | [], g => (.returned 0 g, false)
  | arg :: rest, g =>
    match miniosOpt arg with
    | none => parseTokens build beyond rest g
    | some opt =>
      if opt.takesValue then
        match rest with
        | [] =>
          match opt.apply build g beyond with
          | none => (.exited none, true)
          | some g => (.returned 0 g, true)
        | value :: rest =>
          match opt.apply build g value with
          | none => (.exited none, false)
          | some g => parseTokens build beyond rest g
      else
        match opt.apply build g [] with
        | none => (.exited none, false)
        | some g => parseTokens build beyond rest g

variable {build : Build} {beyond : CStr}

theorem Opt.apply_flag (opt : Opt) (h : opt.takesValue = false) (g : Globals) (v v' : CStr) :
    opt.apply build g v = opt.apply build g v' := by
  cases opt <;> first | rfl | exact absurd h (by decide)

/-- The entries of `argv` from index `i` on are the listed tokens. -/
def Holds (argv : ℕ → CStr) (i : ℕ) (tokens : List CStr) : Prop :=
  ∀ k (hk : k < tokens.length), argv (i + k) = tokens[k]

theorem Holds.head {argv : ℕ → CStr} {i : ℕ} {arg : CStr} {rest : List CStr}
    (h : Holds argv i (arg :: rest)) : argv i = arg := h 0 (by simp)

theorem Holds.tail {argv : ℕ → CStr} {i : ℕ} {arg : CStr} {rest : List CStr}
    (h : Holds argv i (arg :: rest)) : Holds argv (i + 1) rest := by
  intro k hk
  have hnext := h (k + 1) (by simpa using hk)
  rw [Nat.add_right_comm, Nat.add_assoc]
  simpa using hnext

theorem argvOf_holds (name : CStr) (args : List CStr) (beyond : ℕ → CStr) :
    Holds (argvOf name args beyond) 1 args := by
  intro k hk
  have hne : ¬ 1 + k = 0 := by omega
  have hsub : 1 + k - 1 = k := by omega
  rw [argvOf, if_neg hne, hsub, List.getElem?_eq_getElem hk, Option.getD_some]

theorem reads_lt_append {argc : ℕ} {reads more : List ℕ} (h : ∀ j ∈ reads, j < argc)
    (hmore : ∀ j ∈ more, j < argc) : ∀ j ∈ reads ++ more, j < argc :=
  List.forall_mem_append.mpr ⟨h, hmore⟩

/-- While arguments are left, the index is in range and the fuel suffices for one more round and
the others. -/
theorem exists_fuel {arg : CStr} {rest : List CStr} {n i argc : ℕ} (h : (arg :: rest).length ≤ n)
    (hargc : argc = i + (arg :: rest).length) :
    ∃ m, n = m + 1 ∧ rest.length ≤ m ∧ i < argc ∧ argc = i + 1 + rest.length := by
  rw [List.length_cons] at h hargc
  exact ⟨n - 1, by omega, by omega, by omega, by omega⟩

/-- The indexed loop and the list agree, and reads stay below `argc` unless the flag is raised. -/
theorem parseLoop_eq_parseTokens (argc : ℕ) (argv : ℕ → CStr) (tokens : List CStr) (n i : ℕ)
    (g : Globals) (reads : List ℕ) (hi : 0 < i) (hargc : argc = i + tokens.length)
    (hn : tokens.length ≤ n) (hargv : Holds argv i tokens) (hreads : ∀ j ∈ reads, j < argc) :
    (parseLoop build argc argv n i g reads).result =
        (parseTokens build (argv argc) tokens g).1 ∧
      ((∀ j ∈ (parseLoop build argc argv n i g reads).reads, j < argc) ↔
        (parseTokens build (argv argc) tokens g).2 = false) := by
  fun_induction parseTokens build (argv argc) tokens g generalizing n i reads with
  | case1 g =>
    have hstop : ¬ i < argc := by simp at hargc; omega
    cases n <;> simpa [parseLoop, hstop] using hreads
  | case2 arg rest g hopt ih =>
    obtain ⟨m, rfl, hm, hlt, hrest⟩ := exists_fuel hn hargc
    simp only [parseLoop, hlt, if_true, hargv.head, hopt]
    exact ih m (i + 1) (reads ++ [i]) (by omega) hrest hm hargv.tail
      (reads_lt_append hreads (by simpa using hlt))
  | case3 arg g opt hopt hvalue hnone =>
    obtain ⟨m, rfl, -, hlt, hrest⟩ := exists_fuel hn hargc
    have hnext : i + 1 = argc := hrest.symm
    simp only [parseLoop, hlt, if_true, hargv.head, hopt, hvalue, hnext, hnone]
    refine ⟨trivial, iff_of_false (fun h => ?_) (by simp)⟩
    exact absurd (h argc (by simp)) (lt_irrefl argc)
  | case4 arg g opt hopt hvalue g' hsome =>
    obtain ⟨m, rfl, -, hlt, hrest⟩ := exists_fuel hn hargc
    have hnext : i + 1 = argc := hrest.symm
    have hstop : ¬ i + 2 < argc := by omega
    simp only [parseLoop, hlt, if_true, hargv.head, hopt, hvalue, hnext, hsome]
    have hexit : parseLoop build argc argv m (i + 2) g' (reads ++ [i, argc]) =
        ⟨.returned 0 g', reads ++ [i, argc]⟩ := by
      cases m <;> simp [parseLoop, hstop]
    rw [hexit]
    refine ⟨rfl, iff_of_false (fun h => ?_) (by simp)⟩
    exact absurd (h argc (by simp)) (lt_irrefl argc)
  | case5 arg g opt hopt hvalue value rest hnone =>
    obtain ⟨m, rfl, hm, hlt, hrest⟩ := exists_fuel hn hargc
    obtain ⟨-, -, -, hnext, -⟩ := exists_fuel hm hrest
    have hpos : 0 < argc := by omega
    simp only [parseLoop, hlt, if_true, hargv.head, hargv.tail.head, hopt, hvalue, hnone]
    refine ⟨trivial, iff_of_true ?_ trivial⟩
    refine reads_lt_append (reads_lt_append hreads (by simpa using ⟨hlt, hnext⟩)) ?_
    split <;> simp [hpos]
  | case6 arg g opt hopt hvalue value rest g' hsome ih =>
    obtain ⟨m, rfl, hm, hlt, hrest⟩ := exists_fuel hn hargc
    obtain ⟨k, hk, hkm, hnext, hrest'⟩ := exists_fuel hm hrest
    simp only [parseLoop, hlt, if_true, hargv.head, hargv.tail.head, hopt, hvalue, hsome]
    exact ih m (i + 2) _ (by omega) hrest' (by omega) hargv.tail.tail
      (reads_lt_append hreads (by simpa using ⟨hlt, hnext⟩))
  | case7 arg rest g opt hopt hflag hnone =>
    obtain ⟨m, rfl, -, hlt, -⟩ := exists_fuel hn hargc
    have hpos : 0 < argc := by omega
    have hflag' : opt.takesValue = false := by simpa using hflag
    rw [opt.apply_flag hflag' g [] (argv (i + 1))] at hnone
    simp only [parseLoop, hlt, if_true, hargv.head, hopt, hflag, hnone]
    refine ⟨trivial, iff_of_true ?_ trivial⟩
    apply reads_lt_append (reads_lt_append hreads (by simpa using hlt))
    split <;> simp [hpos]
  | case8 arg rest g opt hopt hflag g' hsome ih =>
    obtain ⟨m, rfl, hm, hlt, hrest⟩ := exists_fuel hn hargc
    have hflag' : opt.takesValue = false := by simpa using hflag
    rw [opt.apply_flag hflag' g [] (argv (i + 1))] at hsome
    simp only [parseLoop, hlt, if_true, hargv.head, hopt, hflag, hsome]
    exact ih m (i + 1) _ (by omega) hrest hm hargv.tail
      (reads_lt_append hreads (by simpa using hlt))

/-! ## The whole command line -/

theorem threadedMainArgv_fst (cmdline : CStr) (beyond : ℕ → CStr) (hnul : 0 ∉ cmdline) :
    (threadedMainArgv cmdline beyond).1 = 1 + ((words isBlank cmdline).take 15).length := by
  simp [threadedMainArgv, cmdlineTokenize_strings cmdline _ hnul, MAX_ARGV_NUM]

theorem threadedMainArgv_holds (cmdline : CStr) (beyond : ℕ → CStr) (hnul : 0 ∉ cmdline) :
    Holds (threadedMainArgv cmdline beyond).2 1 ((words isBlank cmdline).take 15) := by
  simp only [threadedMainArgv, cmdlineTokenize_strings cmdline _ hnul, MAX_ARGV_NUM]
  exact argvOf_holds _ _ _

/-- The program parses the first fifteen words of its command line. -/
theorem threadedMainParse_eq (build : Build) (cmdline : CStr) (beyond : ℕ → CStr)
    (hnul : 0 ∉ cmdline) :
    ∃ next : CStr,
      (threadedMainParse build cmdline beyond).result =
          (parseTokens build next ((words isBlank cmdline).take 15) Globals.initial).1 ∧
        ((∀ j ∈ (threadedMainParse build cmdline beyond).reads,
            j < (threadedMainArgv cmdline beyond).1) ↔
          (parseTokens build next ((words isBlank cmdline).take 15) Globals.initial).2 = false) := by
  have hargc := threadedMainArgv_fst cmdline beyond hnul
  exact ⟨_, parseLoop_eq_parseTokens _ _ _ _ 1 Globals.initial [] (by omega) hargc (by omega)
    (threadedMainArgv_holds cmdline beyond hnul) (by simp)⟩

/-- Whether `os_parse_args` goes on after an option, given the value it takes. -/
def Opt.Accepts (build : Build) (value : CStr) : Opt → Prop
  | .help => False
  | .app => stringToApp build value ≠ .none
  | .children => ∀ n, sscanfD value = some n → 1 ≤ n
  | _ => True

/-- Arguments that are all complete and none of which ends the program. -/
inductive Consumed (build : Build) : List CStr → Prop
  | nil : Consumed build []
  | other {arg : CStr} {rest : List CStr} (harg : miniosOpt arg = none)
      (hrest : Consumed build rest) : Consumed build (arg :: rest)
  | flag {arg : CStr} {rest : List CStr} {opt : Opt} (harg : miniosOpt arg = some opt)
      (hflag : opt.takesValue = false) (hgo : opt.Accepts build [])
      (hrest : Consumed build rest) : Consumed build (arg :: rest)
  | value {arg value : CStr} {rest : List CStr} {opt : Opt} (harg : miniosOpt arg = some opt)
      (hvalue : opt.takesValue = true) (hgo : opt.Accepts build value)
      (hrest : Consumed build rest) : Consumed build (arg :: value :: rest)

/-- The last argument is an option that takes a value and has none. -/
def Dangling (build : Build) (tokens : List CStr) : Prop :=
  ∃ pre arg opt, tokens = pre ++ [arg] ∧ Consumed build pre ∧ miniosOpt arg = some opt ∧
    opt.takesValue = true

theorem Opt.accepts_iff (opt : Opt) (g : Globals) (value : CStr) (hg : 1 ≤ g.childrenNum) :
    opt.Accepts build value ↔ ∃ g', opt.apply build g value = some g' := by
  cases opt with
  | app =>
    by_cases h : stringToApp build value = .none <;> simp [Opt.Accepts, Opt.apply, h]
  | children =>
    cases hv : sscanfD value with
    | none => simp [Opt.Accepts, Opt.apply, hv]; omega
    | some n =>
      simp only [Opt.Accepts, Opt.apply, hv, Option.getD_some, Option.some.injEq, forall_eq']
      split <;> simp <;> omega
  | _ => simp [Opt.Accepts, Opt.apply]

theorem Opt.apply_childrenNum (opt : Opt) (g g' : Globals) (value : CStr)
    (hg : 1 ≤ g.childrenNum) (h : opt.apply build g value = some g') : 1 ≤ g'.childrenNum := by
  cases opt with
  | help => simp [Opt.apply] at h
  | app =>
    simp only [Opt.apply] at h
    split at h
    · simp at h
    · obtain rfl := Option.some.inj h
      exact hg
  | children =>
    simp only [Opt.apply] at h
    split at h
    · simp at h
    · obtain rfl := Option.some.inj h
      simp only
      omega
  | _ =>
    obtain rfl := Option.some.inj h
    exact hg

theorem parseTokens_of_dangling (next : CStr) {pre : List CStr} {arg : CStr} {opt : Opt}
    (hpre : Consumed build pre) (harg : miniosOpt arg = some opt) (hvalue : opt.takesValue = true)
    (g : Globals) (hg : 1 ≤ g.childrenNum) :
    (parseTokens build next (pre ++ [arg]) g).2 = true := by
  induction hpre generalizing g with
  | nil =>
    simp only [List.nil_append, parseTokens, harg, hvalue, if_true]
    split <;> rfl
  | other hother _ ih =>
    simp only [List.cons_append, parseTokens, hother]
    exact ih g hg
  | @flag _ _ opt' hopt hflag hgo _ ih =>
    obtain ⟨g', hg'⟩ := (opt'.accepts_iff g [] hg).mp hgo
    simp only [List.cons_append, parseTokens, hopt, hflag, hg']
    exact ih g' (opt'.apply_childrenNum g g' [] hg hg')
  | @value _ v _ opt' hopt hval hgo _ ih =>
    obtain ⟨g', hg'⟩ := (opt'.accepts_iff g v hg).mp hgo
    simp only [List.cons_append, parseTokens, hopt, hval, if_true, hg']
    exact ih g' (opt'.apply_childrenNum g g' v hg hg')

theorem dangling_of_parseTokens (next : CStr) (tokens : List CStr) (g : Globals)
    (hg : 1 ≤ g.childrenNum) (h : (parseTokens build next tokens g).2 = true) :
    Dangling build tokens := by
  fun_induction parseTokens build next tokens g with
  | case1 | case5 | case7 => simp at h
  | case2 arg rest g hopt ih =>
    obtain ⟨pre, last, opt, rfl, hpre, hlast, hvalue⟩ := ih hg h
    exact ⟨arg :: pre, last, opt, rfl, .other hopt hpre, hlast, hvalue⟩
  | case3 arg g opt hopt hvalue | case4 arg g opt hopt hvalue =>
    exact ⟨[], arg, opt, rfl, .nil, hopt, hvalue⟩
  | case6 arg g opt hopt hvalue value rest g' hsome ih =>
    obtain ⟨pre, last, opt', rfl, hpre, hlast, hvalue'⟩ :=
      ih (opt.apply_childrenNum g g' value hg hsome) h
    have hgo := (opt.accepts_iff g value hg).mpr ⟨g', hsome⟩
    exact ⟨arg :: value :: pre, last, opt', rfl, .value hopt hvalue hgo hpre, hlast, hvalue'⟩
  | case8 arg rest g opt hopt hflag g' hsome ih =>
    obtain ⟨pre, last, opt', rfl, hpre, hlast, hvalue'⟩ :=
      ih (opt.apply_childrenNum g g' [] hg hsome) h
    have hgo := (opt.accepts_iff g [] hg).mpr ⟨g', hsome⟩
    exact ⟨arg :: pre, last, opt', rfl, .flag hopt (by simpa using hflag) hgo hpre, hlast, hvalue'⟩

/-- `os_parse_args` stays within the arguments it was given exactly when the last of the tokens
that survive is no option waiting for its value. -/
theorem threadedMainParse_reads_iff (build : Build) (cmdline : CStr) (beyond : ℕ → CStr)
    (hnul : 0 ∉ cmdline) :
    (∀ j ∈ (threadedMainParse build cmdline beyond).reads,
        j < (threadedMainArgv cmdline beyond).1) ↔
      ¬ Dangling build ((words isBlank cmdline).take (MAX_ARGV_NUM - 1)) := by
  obtain ⟨next, -, hreads⟩ := threadedMainParse_eq build cmdline beyond hnul
  rw [hreads, Bool.eq_false_iff, ne_eq, not_iff_not]
  constructor
  · exact dangling_of_parseTokens next _ Globals.initial (by decide)
  · rintro ⟨pre, arg, opt, htok, hpre, harg, hvalue⟩
    rw [MAX_ARGV_NUM] at htok
    rw [htok]
    exact parseTokens_of_dangling next hpre harg hvalue Globals.initial (by decide)

theorem threadedMainParse_reads_iff_fork :
    (∀ j ∈ (threadedMainParse (fun _ => true) (ascii "-a files -f") (fun _ => [])).reads,
        j < (threadedMainArgv (ascii "-a files -f") (fun _ => [])).1) ↔
      ¬ Dangling (fun _ => true) ((words isBlank (ascii "-a files -f")).take (MAX_ARGV_NUM - 1)) :=
  threadedMainParse_reads_iff _ _ _ (by decide)

/-- With `-m` as the last token, `memory_str` is loaded from `argv[argc]`. -/
theorem threadedMainParse_overreads :
    ¬ ∀ j ∈ (threadedMainParse (fun _ => true) (ascii "-t -m") (fun _ => [])).reads,
      j < (threadedMainArgv (ascii "-t -m") (fun _ => [])).1 := by
  decide

end CloningApps.Cmdline
