import CloningApps.Cmdline.Minios
import CloningApps.Cmdline.Posix
import CloningApps.Fuzz.Module
import CloningApps.Interaction.Processes
import CloningApps.Server.Programs

/-! # The program

`main` parses its arguments, initialises the platform and runs the thread function
of the application that was asked for, if the build has it. On Mini-OS a thread
tokenizes the kernel command line first, and leaves with `do_exit` afterwards.
-/

namespace CloningApps.Main
open Text Interaction Os Cmdline Server Fuzz

/-- What the program calls beside what its applications call. Neither `exit` nor `do_exit`
returns; only the former has a status. -/
inductive MachineCall where
  | app (c : Call)
  | fuzz (c : FuzzCall)
  | startNetworking
  | printUsage (cmd : CStr)
  | exit (status : Option ℤ)

@[reducible] def MachineCall.Answer : MachineCall → Type
  | .app c => c.Answer
  | .fuzz c => c.Answer
  | .startNetworking => Unit
  | .printUsage _ => Unit
  | .exit _ => Empty

abbrev machine : Interface := ⟨MachineCall, MachineCall.Answer⟩

abbrev MainProg := Prog machine

abbrev mach (c : MachineCall) : MainProg c.Answer := @Prog.ask machine c

/-- The calls of the applications among those of the program. -/
def apps : Embedding system machine where
  call := .app
  answer := fun _ => .refl _

def fuzzer : Embedding fuzzing machine where
  call := .fuzz
  answer := fun _ => .refl _

/-- `os_app_init`, a macro for `0` except on Mini-OS. -/
def osAppInit : Platform → MainProg ℤ
  | .minios => do
    mach .startNetworking
    return 0
  | _ => return 0

/-- What `main` is given: its build, the page size of its machine, and the name it runs under. -/
structure Setup where
  os : Platform
  build : Build
  pageSize : BitVec 32
  argv0 : CStr

/-- The thread functions that `main` calls for the applications, but for the fuzzed module.
`my_test_type` never changes. -/
def application (s : Setup) (g : Globals) : Option (SysProg ℤ) :=
  match g.app with
  | .none | .fuzz => none
  | .counter => some (threadFuncCounter s.os g)
  | .memoryOverhead => some (threadFuncMemoryOverhead s.os s.pageSize 0 g)
  | .children => some (threadFuncChildren s.os g)
  | .sleeper => some threadFuncSleeper
  | .serverTcp => some (threadFuncServerTcp s.os g)
  | .serverUdp => some (threadFuncServerUdp s.os g)
  | .files => some (testServer s.os g)
  | .measureFork => some (threadFuncMeasureFork s.os s.pageSize 0 g)

/-- The call of the thread function in `main`'s `switch`, for an application that is there. -/
def threadFunc (s : Setup) (g : Globals) : MainProg ℤ :=
  match application s g with
  | some p => p.lift apps
  | none => threadFuncFuzz.lift fuzzer

/-- The `case` of an application is there only if the build has it. -/
def hasCase (build : Build) (app : App) : Bool := app ≠ .none && build app

/-- `main` from the return of `os_parse_args` on. -/
def afterParsing (s : Setup) (rc : ℤ) (g : Globals) : MainProg ℤ := do
  if rc ≠ 0 then
    return rc
  let rc ← osAppInit s.os
  if rc ≠ 0 then
    return rc
  if hasCase s.build g.app then
    return (← threadFunc s g).bmod (2 ^ 32)
  mach (.printUsage s.argv0)
  return -EINVAL

def main (s : Setup) (parsed : ParseResult) : MainProg ℤ := do
  match parsed with
  | .exited status =>
    let nothing ← mach (.exit status)
    return nothing.elim
  | .returned rc g => afterParsing s rc g

/-- What the program calls itself, and on which outcomes of the parser. -/
def OwnCall (s : Setup) (parsed : ParseResult) : MachineCall → Prop
  | .app _ => False
  | .fuzz _ => ∃ g, parsed = .returned 0 g ∧ hasCase s.build g.app = true ∧ g.app = .fuzz
  | .startNetworking => s.os = .minios ∧ ∃ g, parsed = .returned 0 g
  | .printUsage cmd => ∃ g, parsed = .returned 0 g ∧ hasCase s.build g.app = false ∧ cmd = s.argv0
  | .exit status => parsed = .exited status

/-- The program on POSIX and on Unikraft. -/
def posixProgram (s : Setup) (args : List CStr) : MainProg ℤ :=
  main s (posixParseArgs s.build args .initial)

def doExit : MainProg Unit := do
  let nothing ← mach (.exit none)
  return nothing.elim

/-- `threaded_main_wrapper`, with `beyond` for what a look behind the arguments takes for a
string. -/
def threadedMainWrapper (s : Setup) (cmdline : CStr) (beyond : ℕ → CStr) : MainProg Unit := do
  let _ ← main s (threadedMainParse s.build cmdline beyond).result
  doExit

/-! ## What the applications do the program does -/

section Applications
variable {W α : Type} {E : Env system W} {guard : W → Call → Prop}

/-- The world of the applications as the whole program sees it. -/
def machineOf (E : Env system W) : Env machine W where
  legal
    | w, .app c, a => E.legal w c a
    | _, _, _ => True
  effect
    | w, .app c, a => E.effect w c a
    | w, _, _ => w
  drift := E.drift

theorem machineOf_still (h : E.Still) : (machineOf E).Still := h

/-- The processes of the program are those that its applications start. -/
def processesOf (S : Spawning system W) : Spawning machine W where
  env := machineOf S.env
  spawns
    | .app c, a, bs => S.spawns c a bs
    | _, _, _ => False
  legal := by
    intro w c a bs h
    cases c with
    | app c => exact S.legal w c a bs h
    | _ => exact absurd h id

def AppGuard (guard : W → Call → Prop) (w : W) : MachineCall → Prop
  | .app c => guard w c
  | _ => True

abbrev SafeMachine (E : Env system W) (guard : W → Call → Prop) (p : MainProg α) (w : W) : Prop :=
  Safe (machineOf E) (AppGuard guard) (fun _ _ => True) p w

/-- The module is fuzzed under the guard of its calls. -/
theorem fuzzer_safe {G : W → MachineCall → Prop} (hE : E.Still) (hG : ∀ w c, G w (.fuzz c))
    (p : FuzzProg α) (w : W) : Safe (machineOf E) G (fun _ _ => True) (p.lift fuzzer) w := by
  have hcalls : OnlyCalls (fun c => ∃ f, c = MachineCall.fuzz f) (p.lift fuzzer) :=
    OnlyCalls.lift ((OnlyCalls.all p).mono (fun c _ => ⟨c, rfl⟩))
  refine Safe.frame (fun _ => True) ((machineOf_still hE).stable _) ?_
    (fun _ _ _ _ _ _ => trivial) hcalls trivial
  rintro w c ⟨f, rfl⟩ -
  exact hG w f

theorem application_eq_none {s : Setup} {g : Globals} :
    application s g = none ↔ g.app = .none ∨ g.app = .fuzz := by
  unfold application
  cases g.app <;> simp

theorem hasCase_ne_none {build : Build} {app : App} (h : hasCase build app = true) :
    app ≠ .none := by
  rintro rfl
  simp [hasCase] at h

/-- What is proved of the application that is asked for is proved of the program, if the calls
that the program makes itself meet the guard. -/
theorem main_guarded {G : W → MachineCall → Prop} (hE : E.Still) (s : Setup)
    (parsed : ParseResult) {w : W} (hown : ∀ w c, OwnCall s parsed c → G w c)
    (happ : ∀ g p, parsed = .returned 0 g → hasCase s.build g.app = true →
      application s g = some p → Safe E (fun w c => G w (.app c)) (fun _ _ => True) p w) :
    Safe (machineOf E) G (fun _ _ => True) (main s parsed) w := by
  have hM := machineOf_still hE
  have hret : ∀ (rc : ℤ) w, Safe (machineOf E) G (fun _ _ => True) (.ret rc) w :=
    fun _ _ => Safe.ret hM trivial
  cases parsed with
  | exited status => exact Safe.call hM (hown w _ rfl) (fun nothing _ => nothing.elim)
  | returned rc g =>
    by_cases hrc : rc = 0
    · subst hrc
      have hinit : Safe (machineOf E) G (fun _ w' => w' = w) (osAppInit s.os) w := by
        cases hos : s.os with
        | minios => exact Safe.call hM (hown w _ ⟨hos, g, rfl⟩) (fun _ _ => Safe.ret hM rfl)
        | posix | unikraft => exact Safe.ret hM rfl
      simp only [main, afterParsing, ne_eq, not_true_eq_false, if_false]
      apply Safe.bind
      apply hinit.mono
      rintro rc w rfl
      split
      · exact hret rc w
      · split
        next hcase =>
          apply Safe.bind
          unfold threadFunc
          cases hp : application s g with
          | none =>
            have happ : g.app = .fuzz :=
              (application_eq_none.mp hp).resolve_left (hasCase_ne_none hcase)
            have hfuzz : ∀ w c, G w (.fuzz c) := fun w c => hown w _ ⟨g, rfl, hcase, happ⟩
            exact (fuzzer_safe hE hfuzz threadFuncFuzz w).mono (fun _ w _ => hret _ w)
          | some p =>
            have hlifted : Safe (machineOf E) G (fun _ _ => True) (p.lift apps) w :=
              Safe.lift (happ g p rfl hcase hp)
            exact hlifted.mono (fun _ w _ => hret _ w)
        next hcase =>
          have husage := hown w (.printUsage s.argv0) ⟨g, rfl, by simpa using hcase, rfl⟩
          exact Safe.call hM husage (fun _ _ => hret _ _)
    · simp only [main, afterParsing, ne_eq, hrc, not_false_eq_true, if_true]
      exact hret rc w

theorem main_safe (hE : E.Still) (s : Setup) (parsed : ParseResult) {w : W}
    (happ : ∀ g p, parsed = .returned 0 g → hasCase s.build g.app = true →
      application s g = some p → Safe E guard (fun _ _ => True) p w) :
    SafeMachine E guard (main s parsed) w := by
  refine main_guarded hE s parsed (fun w c hc => ?_) happ
  cases c with
  | app => exact absurd hc id
  | _ => trivial

end Applications

end CloningApps.Main
