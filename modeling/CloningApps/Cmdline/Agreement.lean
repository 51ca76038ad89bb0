import CloningApps.Cmdline.Posix
import CloningApps.Cmdline.RoundTrip

/-! # One command line for both front ends

The options of `print_usage` are rendered to arguments and given to the POSIX and
to the Mini-OS parser. `getopt_long` makes the short `-t` and `-f` take an
argument and knows no short `-c` and `-s`, so the two do not always agree.
-/

namespace CloningApps.Cmdline
open Text

def signedValue (negative : Bool) (digits : CStr) : ℤ :=
  if negative then -digitsValue digits else digitsValue digits

/-- A decimal `int` as it is written, with a sign or without. -/
structure IntText where
  sign : Option Bool
  digits : CStr
  nonempty : digits ≠ []
  isDigit : ∀ c ∈ digits, isDigit c = true
  low : -2 ^ 31 ≤ signedValue (sign = some true) digits
  high : signedValue (sign = some true) digits < 2 ^ 31

def IntText.value (n : IntText) : ℤ := signedValue (n.sign = some true) n.digits

def IntText.text (n : IntText) : CStr :=
  match n.sign with
  | none => n.digits
  | some negative => (if negative then 45 else 43) :: n.digits

theorem IntText.readNumeral_text (n : IntText) :
    readNumeral n.text = ⟨n.sign = some true, n.digits, []⟩ := by
  obtain ⟨sign, digits, hne, hdigit, low, high⟩ := n
  cases sign with
  | none => simpa [IntText.text] using readNumeral_digits digits [] hne hdigit (by simp)
  | some negative =>
    simpa [IntText.text] using readNumeral_signed negative digits [] hdigit (by simp)

theorem IntText.atoi_text (n : IntText) : atoi n.text = n.value := by
  rw [atoi, n.readNumeral_text]
  exact Numeral.toInt_of_range _ _ rfl n.low n.high

theorem IntText.sscanfD_text (n : IntText) : sscanfD n.text = some n.value := by
  have hatoi := n.atoi_text
  rw [atoi, n.readNumeral_text] at hatoi
  simp [sscanfD, n.readNumeral_text, n.nonempty, hatoi]

/-- What a user may ask for; an application has to be compiled into both builds. -/
inductive Argument (posix minios : Build) where
  | app (a : App) (real : a ≠ .none) (onPosix : posix a = true) (onMinios : minios a = true)
  | sendTime
  | fork
  | children (n : IntText)
  | sleep (n : IntText)
  | memory (s : CStr)

variable {posix minios : Build}

namespace Argument

def opt : Argument posix minios → Opt
  | app .. => .app
  | sendTime => .sendTime
  | fork => .fork
  | children _ => .children
  | sleep _ => .sleep
  | memory _ => .memory

def value : Argument posix minios → List CStr
  | app a .. => [a.name]
  | children n => [n.text]
  | sleep n => [n.text]
  | memory s => [s]
  | _ => []

/-- An argument and whether its option is written short. -/
def render (x : Argument posix minios × Bool) : List CStr := x.1.opt.spelling x.2 :: x.1.value

/-- The settings it asks for. -/
def set (g : Globals) : Argument posix minios → Globals
  | app a .. => { g with app := a }
  | sendTime => { g with doSendTime := true }
  | fork => { g with doFork := true }
  | children n => { g with childrenNum := n.value }
  | sleep n => { g with sleepBetweenClonesMsec := n.value }
  | memory s => { g with memoryStr := some s }

def isFlag : Argument posix minios → Bool
  | sendTime | fork => true
  | _ => false

/-- A number of children below one. -/
def tooFew : Argument posix minios → Bool
  | children n => n.value < 1
  | _ => false

/-- What POSIX does not take: a short `-c` or `-s`, or a number out of range. -/
def refused : Argument posix minios × Bool → Bool
  | (children n, short) => short || n.value < 1
  | (sleep n, short) => short || n.value < 0
  | _ => false

end Argument

/-- The arguments of a command line. -/
def renderAll (items : List (Argument posix minios × Bool)) : List CStr :=
  items.flatMap Argument.render

/-- The arguments that POSIX acts on. A short flag swallows what is behind it, which then has to
be a flag, too. -/
def kept : List (Argument posix minios × Bool) → Option (List (Argument posix minios × Bool))
  | [] => some []
  | item :: rest =>
    if item.1.isFlag ∧ item.2 then
      match rest with
      | [] => none
      | next :: rest => if next.1.isFlag then (kept rest).map (item :: ·) else none
    else (kept rest).map (item :: ·)

/-- A memory size that could be mistaken for an option. -/
def Argument.dashed : Argument posix minios → Bool
  | memory s => s.head? = some 45
  | _ => false

/-- Whether the first option with a value that is swallowed leaves such a memory size behind. -/
def misread : List (Argument posix minios × Bool) → Bool
  | [] => false
  | item :: rest =>
    if item.1.isFlag ∧ item.2 then
      match rest with
      | [] => false
      | next :: rest => if next.1.isFlag then misread rest else next.1.dashed
    else misread rest

def setAll (items : List (Argument posix minios × Bool)) (g : Globals) : Globals :=
  items.foldl (fun g item => item.1.set g) g

@[simp] theorem renderAll_cons (item : Argument posix minios × Bool)
    (items : List (Argument posix minios × Bool)) :
    renderAll (item :: items) = item.1.opt.spelling item.2 :: (item.1.value ++ renderAll items) :=
  rfl

/-! ## Mini-OS -/

/-- Mini-OS rejects a number of children below one and takes everything else. -/
theorem Argument.apply_opt (x : Argument posix minios) (g : Globals) :
    x.opt.apply minios g (x.value.headD []) = if x.tooFew then none else some (x.set g) := by
  cases x with
  | app a real onPosix onMinios =>
    simp [opt, value, Opt.apply, stringToApp_name minios a real onMinios, real, tooFew, set]
  | children n => simp [opt, value, Opt.apply, n.sscanfD_text, tooFew, set]
  | sleep n => simp [opt, value, Opt.apply, n.sscanfD_text, tooFew, set]
  | sendTime | fork | memory s => rfl

theorem Argument.value_length (x : Argument posix minios) :
    x.value.length = if x.opt.takesValue then 1 else 0 := by
  cases x <;> rfl

theorem parseTokens_renderAll (beyond : CStr) (items : List (Argument posix minios × Bool))
    (g : Globals) :
    (parseTokens minios beyond (renderAll items) g).1 =
      if items.any (fun item => item.1.tooFew) then .exited none
      else .returned 0 (setAll items g) := by
  induction items generalizing g with
  | nil => rfl
  | cons item items ih =>
    rw [renderAll_cons, parseTokens_option _ _ _ _ _ item.1.value_length, item.1.apply_opt g,
      List.any_cons]
    cases hfew : item.1.tooFew with
    | true => simp
    | false =>
      simp only [Bool.false_eq_true, if_false, Bool.false_or, ih]
      rfl

/-! ## One argument on POSIX -/

/-- What `getopt_long` makes of each option; short `-c` and `-s` are not in `short_opts`, where
`-t` and `-f` are given an argument. -/
def Opt.posixReading : Opt → Bool → Reading
  | .help, _ => ⟨[.option 104 none], none⟩
  | .app, _ => ⟨[], some 97⟩
  | .memory, _ => ⟨[], some 109⟩
  | .sendTime, true => ⟨[], some 116⟩
  | .sendTime, false => ⟨[.option 116 none], none⟩
  | .fork, true => ⟨[], some 102⟩
  | .fork, false => ⟨[.option 102 none], none⟩
  | .children, false => ⟨[], some 99⟩
  | .sleep, false => ⟨[], some 115⟩
  | _, _ => ⟨[.invalid], none⟩

theorem argKind_spelling (opt : Opt) (short : Bool) :
    argKind posixTable (opt.spelling short) = .options (opt.posixReading short) := by
  cases opt <;> cases short <;> decide

variable {rest : List CStr} {g : Globals}

/-- An option with its value. -/
theorem posixTake_item (x : Argument posix minios) (short : Bool) (hflag : x.isFlag = false) :
    posixTake posix (x.opt.spelling short :: (x.value ++ rest)) g =
      if Argument.refused (x, short) then none else posixTake posix rest (x.set g) := by
  have hkind := argKind_spelling x.opt short
  cases x with
  | sendTime | fork => exact absurd hflag (by simp [Argument.isFlag])
  | app a real onPosix onMinios =>
    rw [Argument.value, List.singleton_append, posixTake_takes hkind]
    simp [acceptEvents, handleOption, stringToApp_name posix a real onPosix, real,
      Argument.refused, Argument.set]
  | memory s =>
    rw [Argument.value, List.singleton_append, posixTake_takes hkind]
    rfl
  | children n =>
    cases short with
    | true =>
      rw [posixTake_options hkind]
      rfl
    | false =>
      rw [Argument.value, List.singleton_append, posixTake_takes hkind]
      by_cases hn : n.value < 1
      · simp [acceptEvents, handleOption, n.atoi_text, Argument.refused, hn]
      · simp [acceptEvents, handleOption, n.atoi_text, Argument.refused, Argument.set, hn]
  | sleep n =>
    cases short with
    | true =>
      rw [posixTake_options hkind]
      rfl
    | false =>
      rw [Argument.value, List.singleton_append, posixTake_takes hkind]
      by_cases hn : n.value < 0
      · simp [acceptEvents, handleOption, n.atoi_text, Argument.refused, hn]
      · simp [acceptEvents, handleOption, n.atoi_text, Argument.refused, Argument.set, hn]

/-- A long flag. -/
theorem posixTake_flag (x : Argument posix minios) (hflag : x.isFlag = true) :
    posixTake posix (x.opt.spelling false :: rest) g = posixTake posix rest (x.set g) := by
  cases x with
  | sendTime => exact posixTake_options (argKind_spelling .sendTime false)
  | fork => exact posixTake_options (argKind_spelling .fork false)
  | _ => exact absurd hflag (by simp [Argument.isFlag])

/-- A short flag swallows the argument behind it. -/
theorem posixTake_swallow (x : Argument posix minios) (hflag : x.isFlag = true) (next : CStr) :
    posixTake posix (x.opt.spelling true :: next :: rest) g = posixTake posix rest (x.set g) := by
  cases x with
  | sendTime => exact posixTake_takes (argKind_spelling .sendTime true)
  | fork => exact posixTake_takes (argKind_spelling .fork true)
  | _ => exact absurd hflag (by simp [Argument.isFlag])

theorem posixTake_last (x : Argument posix minios) (hflag : x.isFlag = true) :
    posixTake posix [x.opt.spelling true] g = none := by
  cases x with
  | sendTime => exact posixTake_wants (argKind_spelling .sendTime true)
  | fork => exact posixTake_wants (argKind_spelling .fork true)
  | _ => exact absurd hflag (by simp [Argument.isFlag])

/-- An argument that starts with an unknown option spoils the command line. -/
theorem posixTake_invalid {arg : CStr} {es : List GetoptEvent} {wants : Option Byte}
    (h : argKind posixTable arg = .options ⟨.invalid :: es, wants⟩) :
    posixTake posix (arg :: rest) g = none := by
  cases wants with
  | none =>
    rw [posixTake_options h]
    rfl
  | some val =>
    cases rest with
    | nil => exact posixTake_wants h
    | cons next rest =>
      rw [posixTake_takes h]
      rfl

theorem shortArg_digit {c : Byte} (hc : isDigit c = true) :
    shortArg posixTable.short c = none := by
  have hne : ∀ x ∈ posixTable.short, x ≠ c := by
    rintro x hx rfl
    revert x
    decide
  generalize posixTable.short = short at hne
  induction short with
  | nil => rfl
  | cons x xs ih =>
    rw [shortArg, if_neg (fun h => hne x (by simp) h.1)]
    exact ih (fun y hy => hne y (by simp [hy]))

/-- A number that no option takes is an operand or a cluster of unknown options. -/
theorem posixTake_intText (n : IntText) : posixTake posix (n.text :: rest) g = none := by
  obtain ⟨sign, digits, hne, hdigit, low, high⟩ := n
  obtain ⟨d, ds, rfl⟩ := List.exists_cons_of_ne_nil hne
  have hd := hdigit d (by simp)
  have hdash : d ≠ 45 := ne_of_isDigit hd (by decide)
  cases sign with
  | none => exact posixTake_operand (argKind_operand (by simpa [IntText.text] using hdash))
  | some negative =>
    cases negative with
    | false => exact posixTake_operand (argKind_operand (by simp [IntText.text]))
    | true =>
      have hkind : argKind posixTable (45 :: d :: ds) =
          .options ((readShort posixTable ds).cons .invalid) := by
        rw [argKind_cluster hdash, readShort, shortArg_digit hd]
      exact posixTake_invalid hkind

/-! ## All arguments on POSIX -/

/-- Whatever a stray argument is, the arguments behind it are rejected if they are both with and
without their first option. -/
theorem posixTake_stray (arg : CStr) (items : List (Argument posix minios × Bool))
    (hne : items ≠ []) (hall : ∀ g, posixTake posix (renderAll items) g = none)
    (htail : ∀ item rest, items = item :: rest →
      ∀ g, posixTake posix (item.1.value ++ renderAll rest) g = none) :
    posixTake posix (arg :: renderAll items) g = none := by
  obtain ⟨item, rest, rfl⟩ := List.exists_cons_of_ne_nil hne
  cases hkind : argKind posixTable arg with
  | operand => exact posixTake_operand hkind
  | terminator => rw [posixTake_terminator hkind, renderAll_cons, if_neg (List.cons_ne_nil _ _)]
  | options r =>
    obtain ⟨es, wants⟩ := r
    cases wants with
    | none =>
      rw [posixTake_options hkind]
      cases acceptEvents posix es g with
      | none => rfl
      | some g' => exact hall g'
    | some val =>
      rw [renderAll_cons, posixTake_takes hkind]
      cases acceptEvents posix (es ++ [.option val (some (item.1.opt.spelling item.2))]) g with
      | none => rfl
      | some g' => exact htail item rest rfl g'

theorem Argument.value_eq_nil (x : Argument posix minios) (h : x.isFlag = true) : x.value = [] := by
  cases x <;> first | rfl | exact absurd h (by simp [isFlag])

theorem Argument.exists_value (x : Argument posix minios) (h : x.isFlag = false) :
    ∃ v, x.value = [v] := by
  cases x <;> first | exact ⟨_, rfl⟩ | exact absurd h (by simp [isFlag])

theorem Argument.exists_intText (x : Argument posix minios) (short : Bool)
    (h : refused (x, short) = true) : x.isFlag = false ∧ ∃ n : IntText, x.value = [n.text] := by
  cases x with
  | children n | sleep n => exact ⟨rfl, n, rfl⟩
  | _ => simp [refused] at h

theorem Argument.refused_of_tooFew (x : Argument posix minios) (short : Bool)
    (h : x.tooFew = true) : refused (x, short) = true := by
  cases x with
  | children n =>
    rw [refused, Bool.or_eq_true]
    exact .inr h
  | _ => simp [tooFew] at h

/-- A number out of range, or behind an option POSIX does not know, is never accepted: not even
when what is in front of it swallows the option. -/
theorem posixTake_refused (items : List (Argument posix minios × Bool))
    (hrefused : ∃ item ∈ items, Argument.refused item = true) :
    (∀ g, posixTake posix (renderAll items) g = none) ∧
      ∀ item rest, items = item :: rest →
        ∀ g, posixTake posix (item.1.value ++ renderAll rest) g = none := by
  induction items with
  | nil => simp at hrefused
  | cons item items ih =>
    obtain ⟨x, short⟩ := item
    cases hx : Argument.refused (x, short) with
    | true =>
      obtain ⟨hflag, n, hvalue⟩ := x.exists_intText short hx
      refine ⟨fun g => ?_, fun item rest heq g => ?_⟩
      · rw [renderAll_cons, posixTake_item x short hflag, if_pos hx]
      · obtain ⟨rfl, rfl⟩ := List.cons.inj heq
        rw [hvalue, List.singleton_append, posixTake_intText]
    | false =>
      have hrest : ∃ item ∈ items, Argument.refused item = true := by simpa [hx] using hrefused
      have hne : items ≠ [] := List.ne_nil_of_mem hrest.choose_spec.1
      obtain ⟨hall, htail⟩ := ih hrest
      refine ⟨fun g => ?_, fun item rest heq g => ?_⟩
      · cases hflag : x.isFlag with
        | false =>
          rw [renderAll_cons, posixTake_item x short hflag, hx]
          exact hall _
        | true =>
          rw [renderAll_cons, x.value_eq_nil hflag, List.nil_append]
          cases short with
          | false =>
            rw [posixTake_flag x hflag]
            exact hall _
          | true =>
            obtain ⟨next, rest, rfl⟩ := List.exists_cons_of_ne_nil hne
            rw [renderAll_cons, posixTake_swallow x hflag]
            exact htail next rest rfl _
      · obtain ⟨rfl, rfl⟩ := List.cons.inj heq
        cases hflag : x.isFlag with
        | true =>
          rw [x.value_eq_nil hflag, List.nil_append]
          exact hall g
        | false =>
          obtain ⟨v, hv⟩ := x.exists_value hflag
          rw [hv, List.singleton_append]
          exact posixTake_stray v items hne hall htail

theorem App.name_head (a : App) : a.name.head? ≠ some 45 := by
  cases a <;> decide

/-- A value whose option was swallowed is an operand. -/
theorem posixTake_value (x : Argument posix minios) (hflag : x.isFlag = false)
    (hdash : x.dashed = false) : posixTake posix (x.value ++ rest) g = none := by
  cases x with
  | app a real onPosix onMinios => exact posixTake_operand (argKind_operand a.name_head)
  | children n | sleep n => exact posixTake_intText n
  | memory s => exact posixTake_operand (argKind_operand (by simpa [Argument.dashed] using hdash))
  | sendTime | fork => simp [Argument.isFlag] at hflag

theorem misread_cons {item : Argument posix minios × Bool}
    {items : List (Argument posix minios × Bool)} (h : ¬ (item.1.isFlag = true ∧ item.2 = true)) :
    misread (item :: items) = misread items := by
  rw [misread.eq_def]
  exact if_neg h

/-- POSIX acts on the arguments that are kept, and rejects where a short flag swallows an option
that has a value or finds nothing to swallow. -/
theorem posixTake_renderAll {items : List (Argument posix minios × Bool)}
    (hvalid : ∀ item ∈ items, Argument.refused item = false) (hread : misread items = false)
    (g : Globals) : posixTake posix (renderAll items) g = (kept items).map (setAll · g) := by
  fun_induction kept items generalizing g with
  | case1 => rfl
  | case2 item hshort =>
    obtain ⟨x, short⟩ := item
    obtain ⟨hflag, rfl⟩ := hshort
    rw [renderAll_cons, x.value_eq_nil hflag]
    exact posixTake_last x hflag
  | case3 item hshort next rest hnext ih =>
    rw [misread, if_pos hshort, if_pos hnext] at hread
    obtain ⟨x, short⟩ := item
    obtain ⟨hflag, rfl⟩ := hshort
    rw [renderAll_cons, renderAll_cons, x.value_eq_nil hflag, next.1.value_eq_nil hnext,
      List.nil_append, List.nil_append, posixTake_swallow x hflag,
      ih (fun item h => hvalid item (by simp [h])) hread, Option.map_map]
    rfl
  | case4 item hshort next rest hnext =>
    rw [misread, if_pos hshort, if_neg hnext] at hread
    obtain ⟨x, short⟩ := item
    obtain ⟨hflag, rfl⟩ := hshort
    rw [renderAll_cons, renderAll_cons, x.value_eq_nil hflag, List.nil_append,
      posixTake_swallow x hflag]
    exact posixTake_value next.1 (by simpa using hnext) hread
  | case5 item rest hshort ih =>
    rw [misread_cons hshort] at hread
    obtain ⟨x, short⟩ := item
    have hrest := ih (fun item h => hvalid item (by simp [h])) hread (x.set g)
    rw [renderAll_cons, Option.map_map]
    cases hflag : x.isFlag with
    | false =>
      rw [posixTake_item x short hflag, hvalid (x, short) (by simp)]
      exact hrest
    | true =>
      obtain rfl : short = false := by simpa [hflag] using hshort
      rw [x.value_eq_nil hflag, List.nil_append, posixTake_flag x hflag]
      exact hrest

theorem misread_of_kept {items ks : List (Argument posix minios × Bool)}
    (hkept : kept items = some ks) : misread items = false := by
  fun_induction kept items generalizing ks with
  | case1 => rfl
  | case2 | case4 => simp at hkept
  | case3 item hshort next rest hnext ih =>
    obtain ⟨ks, hks, -⟩ := Option.map_eq_some_iff.mp hkept
    rw [misread, if_pos hshort, if_pos hnext]
    exact ih hks
  | case5 item rest hshort ih =>
    obtain ⟨ks, hks, -⟩ := Option.map_eq_some_iff.mp hkept
    rw [misread_cons hshort]
    exact ih hks

/-! ## The settings that are kept -/

/-- The settings but for the flags. -/
def Globals.unflagged (g : Globals) : Globals := { g with doSendTime := false, doFork := false }

def Argument.isSendTime : Argument posix minios → Bool
  | sendTime => true
  | _ => false

def Argument.isFork : Argument posix minios → Bool
  | fork => true
  | _ => false

theorem setAll_unflagged (items : List (Argument posix minios × Bool)) (g : Globals) :
    (setAll items g).unflagged =
      setAll (items.filter (fun item => !item.1.isFlag)) g.unflagged := by
  induction items generalizing g with
  | nil => rfl
  | cons item items ih =>
    obtain ⟨x, short⟩ := item
    rw [setAll, List.foldl_cons, ← setAll, ih]
    cases x <;> rfl

theorem Argument.set_doSendTime (x : Argument posix minios) (g : Globals) :
    (x.set g).doSendTime = (g.doSendTime || x.isSendTime) := by
  cases x <;> simp [set, isSendTime]

theorem Argument.set_doFork (x : Argument posix minios) (g : Globals) :
    (x.set g).doFork = (g.doFork || x.isFork) := by
  cases x <;> simp [set, isFork]

/-- A flag is on in the end when it was on before or is given. -/
theorem setAll_flag {field : Globals → Bool} {given : Argument posix minios → Bool}
    (hset : ∀ x g, field (Argument.set g x) = (field g || given x))
    (items : List (Argument posix minios × Bool)) (g : Globals) :
    field (setAll items g) = (field g || items.any (fun item => given item.1)) := by
  induction items generalizing g with
  | nil => simp [setAll]
  | cons item items ih =>
    rw [setAll, List.foldl_cons, ← setAll, ih, hset, List.any_cons, Bool.or_assoc]

/-- Only flags are swallowed. -/
theorem filter_kept {items ks : List (Argument posix minios × Bool)}
    (hkept : kept items = some ks) :
    ks.filter (fun item => !item.1.isFlag) = items.filter (fun item => !item.1.isFlag) := by
  fun_induction kept items generalizing ks with
  | case1 =>
    obtain rfl := Option.some.inj hkept
    rfl
  | case2 | case4 => simp at hkept
  | case3 item hshort next rest hnext ih =>
    obtain ⟨ks, hks, rfl⟩ := Option.map_eq_some_iff.mp hkept
    simp [hshort.1, hnext, ih hks]
  | case5 item rest hshort ih =>
    obtain ⟨ks, hks, rfl⟩ := Option.map_eq_some_iff.mp hkept
    rw [List.filter_cons, List.filter_cons, ih hks]

/-! ## Both front ends -/

/-- The settings of the options in `print_usage`, where `--clone` is missing. -/
def Globals.documented (g : Globals) : Globals := { g with doClone := false }

theorem Globals.documented_eq_iff {g g' : Globals} (h : g.unflagged = g'.unflagged) :
    g.documented = g'.documented ↔ g.doSendTime = g'.doSendTime ∧ g.doFork = g'.doFork := by
  cases g
  cases g'
  simp only [unflagged, documented, mk.injEq] at h ⊢
  tauto

/-- Both front ends reject the arguments, or both accept them with the same settings. -/
def Agree (name : CStr) (beyond : ℕ → CStr) (items : List (Argument posix minios × Bool)) : Prop :=
  let args := renderAll items
  (posixParseArgs posix args Globals.initial).accepted.map Globals.documented =
    (osParseArgs minios (1 + args.length) (argvOf name args beyond)
      Globals.initial).result.accepted.map Globals.documented


instance (name : CStr) (beyond : ℕ → CStr) (items : List (Argument posix minios × Bool)) :
    Decidable (Agree name beyond items) :=
  inferInstanceAs (Decidable (_ = _))

/-- What it takes to agree: a number of children that both reject, or nothing that POSIX refuses,
and then no short flag in front of an option with a value or at the end, and no flag that is given
only where another one swallows it. -/
def Understood (items : List (Argument posix minios × Bool)) : Prop :=
  (∃ item ∈ items, item.1.tooFew = true) ∨
    (∀ item ∈ items, Argument.refused item = false) ∧
      ∃ ks, kept items = some ks ∧
        ks.any (fun item => item.1.isSendTime) = items.any (fun item => item.1.isSendTime) ∧
        ks.any (fun item => item.1.isFork) = items.any (fun item => item.1.isFork)

theorem osParseArgs_renderAll (name : CStr) (beyond : ℕ → CStr)
    (items : List (Argument posix minios × Bool)) :
    (osParseArgs minios (1 + (renderAll items).length) (argvOf name (renderAll items) beyond)
      Globals.initial).result.accepted =
        if items.any (fun item => item.1.tooFew) then none
        else some (setAll items Globals.initial) := by
  obtain ⟨hresult, -⟩ := @parseLoop_eq_parseTokens minios
    (1 + (renderAll items).length) (argvOf name (renderAll items) beyond) (renderAll items)
    (1 + (renderAll items).length) 1 Globals.initial [] (by omega) rfl (by omega)
    (argvOf_holds name (renderAll items) beyond) (by simp)
  rw [osParseArgs, hresult, parseTokens_renderAll]
  split <;> rfl

/-- What is kept makes the settings of all arguments when it has every flag. -/
theorem setAll_kept {items ks : List (Argument posix minios × Bool)}
    (hkept : kept items = some ks) :
    (setAll ks Globals.initial).documented = (setAll items Globals.initial).documented ↔
      ks.any (fun item => item.1.isSendTime) = items.any (fun item => item.1.isSendTime) ∧
        ks.any (fun item => item.1.isFork) = items.any (fun item => item.1.isFork) := by
  have hunflagged : (setAll ks Globals.initial).unflagged =
      (setAll items Globals.initial).unflagged := by
    rw [setAll_unflagged, setAll_unflagged, filter_kept hkept]
  rw [Globals.documented_eq_iff hunflagged, setAll_flag Argument.set_doSendTime,
    setAll_flag Argument.set_doSendTime, setAll_flag Argument.set_doFork,
    setAll_flag Argument.set_doFork]
  rfl

/-- The front ends agree on arguments that are understood. They agree on no others, unless a memory
size whose option was swallowed can itself be read as an option. -/
theorem agree_iff_understood (name : CStr) (beyond : ℕ → CStr)
    (items : List (Argument posix minios × Bool)) :
    (Understood items → Agree name beyond items) ∧
      (misread items = false → Agree name beyond items → Understood items) := by
  simp only [Agree, posixParseArgs_accepted, osParseArgs_renderAll]
  by_cases hfew : ∃ item ∈ items, item.1.tooFew = true
  · refine ⟨fun _ => ?_, fun _ _ => .inl hfew⟩
    have hrefused : ∃ item ∈ items, Argument.refused item = true := by
      obtain ⟨item, hmem, hitem⟩ := hfew
      exact ⟨item, hmem, item.1.refused_of_tooFew item.2 hitem⟩
    rw [(posixTake_refused items hrefused).1, if_pos (by simpa using hfew)]
  have haccepted : ¬ items.any (fun item => item.1.tooFew) = true := by simpa using hfew
  rw [if_neg haccepted]
  by_cases hrefused : ∃ item ∈ items, Argument.refused item = true
  · rw [(posixTake_refused items hrefused).1]
    refine ⟨?_, fun _ hagree => by simp at hagree⟩
    rintro (h | ⟨hvalid, -⟩)
    · exact absurd h hfew
    · obtain ⟨item, hmem, hitem⟩ := hrefused
      simp [hvalid item hmem] at hitem
  · have hvalid : ∀ item ∈ items, Argument.refused item = false :=
      fun item hmem => Bool.eq_false_iff.mpr fun h => hrefused ⟨item, hmem, h⟩
    refine ⟨?_, fun hread hagree => .inr ⟨hvalid, ?_⟩⟩
    · rintro (h | ⟨-, ks, hkept, hflags⟩)
      · exact absurd h hfew
      · rw [posixTake_renderAll hvalid (misread_of_kept hkept), hkept]
        exact congrArg some ((setAll_kept hkept).mpr hflags)
    · rw [posixTake_renderAll hvalid hread] at hagree
      cases hkept : kept items with
      | none => simp [hkept] at hagree
      | some ks =>
        rw [hkept] at hagree
        exact ⟨ks, rfl, (setAll_kept hkept).mp (Option.some.inj hagree)⟩

def IntText.two : IntText where
  sign := none
  digits := ascii "2"
  nonempty := by decide
  isDigit := by decide
  low := by decide
  high := by decide

def everyApp : Build := fun _ => true

/-- `--send-time -f -t --children 2 -m -f`: the flag that is swallowed is given elsewhere. -/
def swallowedFlag : List (Argument everyApp everyApp × Bool) :=
  [(.sendTime, false), (.fork, true), (.sendTime, true), (.children .two, false),
    (.memory (ascii "-f"), true)]

theorem agree_iff_understood_swallowed :
    Agree [] (fun _ => []) swallowedFlag ∧ Understood swallowedFlag := by
  obtain ⟨hagree, hunderstood⟩ := agree_iff_understood [] (fun _ => []) swallowedFlag
  have hitems : Understood swallowedFlag := .inr ⟨by decide, _, rfl, by decide, by decide⟩
  exact ⟨hagree hitems, hunderstood (by decide) (hagree hitems)⟩

/-- POSIX loses the fork of `-t -f` and rejects `-c 2`. -/
theorem short_flags_disagree :
    ¬ @Agree everyApp everyApp [] (fun _ => []) [(.sendTime, true), (.fork, true)] ∧
      ¬ @Agree everyApp everyApp [] (fun _ => []) [(.children .two, true)] := by
  decide

end CloningApps.Cmdline
