import CloningApps.Cmdline.Settings
import CloningApps.Text.Getopt

/-! # The POSIX command line

`os_parse_args` acts on what `getopt_long` returns, one option after the other.
An option that is not known is remembered and rejected at the end, as is an operand.
-/

namespace CloningApps.Cmdline
open Text

/-- `short_opts` and `long_opts`. -/
def posixTable : OptTable where
  short := ascii "ha:t:f:m:"
  long :=
    [⟨ascii "help", false, 104⟩,
     ⟨ascii "app", true, 97⟩,
     ⟨ascii "send-time", false, 116⟩,
     ⟨ascii "fork", false, 102⟩,
     ⟨ascii "children", true, 99⟩,
     ⟨ascii "sleep", true, 115⟩,
     ⟨ascii "memory", true, 109⟩]

/-- The `switch`; an error is the status of `exit`. -/
def handleOption (build : Build) (g : Globals) (rc : ℤ) : GetoptEvent → Except ℤ (Globals × ℤ)
  -- 'h'
  | .option 104 _ => .error 0
  -- 'a'
  | .option 97 optarg =>
    let app := stringToApp build (optarg.getD [])
    if app = .none then .error (-1) else .ok ({ g with app := app }, rc)
  -- 't'
  | .option 116 _ => .ok ({ g with doSendTime := true }, rc)
  -- 'f'
  | .option 102 _ => .ok ({ g with doFork := true }, rc)
  -- 'x'
  | .option 120 _ => .ok ({ g with doClone := true }, rc)
  -- 'c'
  | .option 99 optarg =>
    let childrenNum := atoi (optarg.getD [])
    if childrenNum < 1 then .error (-1) else .ok ({ g with childrenNum := childrenNum }, rc)
  -- 's'
  | .option 115 optarg =>
    let msec := atoi (optarg.getD [])
    if msec < 0 then .error (-1) else .ok ({ g with sleepBetweenClonesMsec := msec }, rc)
  -- 'm'
  | .option 109 optarg => .ok ({ g with memoryStr := optarg }, rc)
  | _ => .ok (g, -1)

def handleOptions (build : Build) : List GetoptEvent → Globals → ℤ → Except ℤ (Globals × ℤ)
  | [], g, rc => .ok (g, rc)
  | e :: es, g, rc =>
    match handleOption build g rc e with
    | .error status => .error status
    | .ok (g, rc) => handleOptions build es g rc

/-- `os_parse_args` on the arguments behind `argv[0]`. -/
def posixParseArgs (build : Build) (args : List CStr) (g : Globals) : ParseResult :=
  let scan := getoptLong posixTable args
  match handleOptions build scan.events g 0 with
  | .error status => .exited (some status)
  | .ok (g, rc) =>
    let rc := if scan.operands = [] then rc else -1
    if rc ≠ 0 then .exited (some rc) else .returned rc g

/-! ## What is accepted -/

def ParseResult.accepted : ParseResult → Option Globals
  | .returned _ g => some g
  | .exited _ => none

/-- The settings after options that are all known and valid. -/
def acceptEvents (build : Build) : List GetoptEvent → Globals → Option Globals
  | [], g => some g
  | e :: es, g =>
    match handleOption build g 0 e with
    | .ok (g, 0) => acceptEvents build es g
    | _ => none

/-- The settings after arguments that are accepted. -/
def posixTake (build : Build) (args : List CStr) (g : Globals) : Option Globals :=
  if (getoptLong posixTable args).operands = [] then
    acceptEvents build (getoptLong posixTable args).events g
  else none

variable {build : Build}

/-- The code an option leaves is the one before it, or `-1`. -/
theorem handleOption_code (g : Globals) (rc : ℤ) (e : GetoptEvent) :
    handleOption build g rc e =
      (handleOption build g 0 e).map (fun r => (r.1, if r.2 = 0 then rc else -1)) := by
  unfold handleOption
  split
  case h_2 | h_6 | h_7 =>
    dsimp only
    split <;> rfl
  all_goals rfl

/-- The settings when the options were handled with code `0`. -/
def handled : Except ℤ (Globals × ℤ) → Option Globals
  | .ok (g, 0) => some g
  | _ => none

theorem handled_of_ne {g : Globals} {rc : ℤ} (h : rc ≠ 0) : handled (.ok (g, rc)) = none := by
  unfold handled
  split
  next heq => exact absurd (Prod.mk.inj (Except.ok.inj heq)).2 h
  next => rfl

/-- An option that was not valid is not forgotten. -/
theorem handleOptions_rejected (es : List GetoptEvent) (g : Globals) :
    handled (handleOptions build es g (-1)) = none := by
  induction es generalizing g with
  | nil => rfl
  | cons e es ih =>
    rw [handleOptions, handleOption_code]
    cases handleOption build g 0 e with
    | error status => rfl
    | ok a =>
      simp only [Except.map, ite_self]
      exact ih a.1

theorem handled_eq_acceptEvents (es : List GetoptEvent) (g : Globals) :
    handled (handleOptions build es g 0) = acceptEvents build es g := by
  induction es generalizing g with
  | nil => rfl
  | cons e es ih =>
    rw [handleOptions, acceptEvents]
    cases he : handleOption build g 0 e with
    | error status => rfl
    | ok a =>
      obtain ⟨h, rc⟩ := a
      have hcode := @handleOption_code build g 0 e
      by_cases hrc : rc = 0
      · subst hrc
        exact ih h
      · have hrejected : rc = -1 := by simpa [he, Except.map, hrc] using hcode
        subst hrejected
        exact handleOptions_rejected es h

theorem posixParseArgs_accepted (args : List CStr) (g : Globals) :
    (posixParseArgs build args g).accepted = posixTake build args g := by
  simp only [posixParseArgs, posixTake, ← handled_eq_acceptEvents]
  cases handleOptions build (getoptLong posixTable args).events g 0 with
  | error status => simp [handled, ParseResult.accepted]
  | ok a =>
    obtain ⟨h, rc⟩ := a
    by_cases hoperands : (getoptLong posixTable args).operands = []
    · by_cases hrc : rc = 0
      · simp [hoperands, hrc, handled, ParseResult.accepted]
      · simp [hoperands, hrc, handled_of_ne, ParseResult.accepted]
    · simp [hoperands, ParseResult.accepted]

/-! ## One argument at a time -/

theorem acceptEvents_append (es es' : List GetoptEvent) (g : Globals) :
    acceptEvents build (es ++ es') g =
      (acceptEvents build es g).bind (acceptEvents build es') := by
  induction es generalizing g with
  | nil => rfl
  | cons e es ih =>
    rw [List.cons_append, acceptEvents, acceptEvents]
    split
    · exact ih _
    · rfl

variable {arg next : CStr} {rest : List CStr} {es : List GetoptEvent} {val : Byte} {g : Globals}

theorem posixTake_operand (h : argKind posixTable arg = .operand) :
    posixTake build (arg :: rest) g = none := by
  simp [posixTake, getoptLong, h]

theorem posixTake_terminator (h : argKind posixTable arg = .terminator) :
    posixTake build (arg :: rest) g = if rest = [] then some g else none := by
  simp [posixTake, getoptLong, h, acceptEvents]

theorem posixTake_options (h : argKind posixTable arg = .options ⟨es, none⟩) :
    posixTake build (arg :: rest) g = (acceptEvents build es g).bind (posixTake build rest) := by
  simp only [posixTake, getoptLong, h, acceptEvents_append]
  cases acceptEvents build es g with
  | none => simp
  | some g' => simp [posixTake]

/-- An option that has to take the next argument takes whatever it is. -/
theorem posixTake_takes (h : argKind posixTable arg = .options ⟨es, some val⟩) :
    posixTake build (arg :: next :: rest) g =
      (acceptEvents build (es ++ [.option val (some next)]) g).bind (posixTake build rest) := by
  have hevents : (getoptLong posixTable (arg :: next :: rest)).events =
      (es ++ [.option val (some next)]) ++ (getoptLong posixTable rest).events := by
    simp [getoptLong, h]
  have hoperands : (getoptLong posixTable (arg :: next :: rest)).operands =
      (getoptLong posixTable rest).operands := by
    simp [getoptLong, h]
  rw [posixTake, hevents, hoperands, acceptEvents_append]
  cases acceptEvents build (es ++ [.option val (some next)]) g with
  | none => simp
  | some g' => simp [posixTake]

theorem posixTake_wants (h : argKind posixTable arg = .options ⟨es, some val⟩) :
    posixTake build [arg] g = none := by
  simp only [posixTake, getoptLong, h, acceptEvents_append]
  cases acceptEvents build es g with
  | none => simp
  | some g' => simp [acceptEvents, handleOption]

end CloningApps.Cmdline
