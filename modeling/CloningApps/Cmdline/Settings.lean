import CloningApps.Text.CString

/-! # The applications and the settings of the command line -/

namespace CloningApps.Cmdline
open Text

inductive App where
  | none | counter | memoryOverhead | children | sleeper | serverTcp | serverUdp | files | fuzz
  | measureFork
  deriving DecidableEq

/-- The rows of `app_entries`, before the build configuration leaves some out. -/
def allAppEntries : List (CStr × App) :=
  [(ascii "counter", .counter),
   (ascii "memory-overhead", .memoryOverhead),
   (ascii "children", .children),
   (ascii "sleeper", .sleeper),
   (ascii "server-tcp", .serverTcp),
   (ascii "server-udp", .serverUdp),
   (ascii "files", .files),
   (ascii "fuzz", .fuzz),
   (ascii "measure-fork", .measureFork)]

/-- A build is given by the applications it is configured with. -/
abbrev Build := App → Bool

def appEntries (build : Build) : List (CStr × App) :=
  allAppEntries.filter (fun e => build e.2)

def stringToApp (build : Build) (s : CStr) : App :=
  match (appEntries build).find? (fun e => s = e.1) with
  | some e => e.2
  | Option.none => .none

/-- The settings of `main.c` that the command line changes. -/
structure Globals where
  app : App
  doSendTime : Bool
  doFork : Bool
  doClone : Bool
  childrenNum : ℤ
  sleepBetweenClonesMsec : ℤ
  memoryStr : Option CStr
  deriving DecidableEq

def Globals.initial : Globals where
  app := .none
  doSendTime := false
  doFork := false
  doClone := false
  childrenNum := 1
  sleepBetweenClonesMsec := 1000
  memoryStr := Option.none

/-- How `os_parse_args` ends. Neither `exit` nor `do_exit` returns; only the former has a status. -/
inductive ParseResult where
  | returned (rc : ℤ) (g : Globals)
  | exited (status : Option ℤ)
  deriving DecidableEq

/-- The name under which an application is listed. -/
def App.name : App → CStr
  | .none => []
  | .counter => ascii "counter"
  | .memoryOverhead => ascii "memory-overhead"
  | .children => ascii "children"
  | .sleeper => ascii "sleeper"
  | .serverTcp => ascii "server-tcp"
  | .serverUdp => ascii "server-udp"
  | .files => ascii "files"
  | .fuzz => ascii "fuzz"
  | .measureFork => ascii "measure-fork"

theorem App.name_injective : Function.Injective App.name := by
  intro a b h
  cases a <;> cases b <;> first | rfl | exact absurd h (by decide)

theorem allAppEntries_name (a : App) (ha : a ≠ .none) : (a.name, a) ∈ allAppEntries := by
  cases a with
  | none => exact absurd rfl ha
  | _ => decide

theorem allAppEntries_eq_name : ∀ e ∈ allAppEntries, e.1 = e.2.name ∧ e.2 ≠ .none := by decide

/-- A compiled-in application is found under its own name. -/
theorem stringToApp_name (build : Build) (a : App) (ha : a ≠ .none) (hb : build a = true) :
    stringToApp build a.name = a := by
  have hmem : (a.name, a) ∈ appEntries build :=
    List.mem_filter.mpr ⟨allAppEntries_name a ha, hb⟩
  cases hf : (appEntries build).find? (fun e => a.name = e.1) with
  | none =>
    have h := List.find?_eq_none.mp hf (a.name, a) hmem
    simp at h
  | some e =>
    have hname : a.name = e.1 := by simpa using List.find?_some hf
    have he := (allAppEntries_eq_name e (List.mem_of_mem_filter (List.mem_of_find?_eq_some hf))).1
    have happ : e.2 = a := App.name_injective (he.symm.trans hname.symm)
    rw [stringToApp, hf]
    exact happ

end CloningApps.Cmdline
