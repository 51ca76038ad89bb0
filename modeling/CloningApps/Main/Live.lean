import CloningApps.Main.Program
import CloningApps.Server.LiveApps

/-! # The whole program uses only what it holds

From `main` on, whatever the command line says and whatever the calls are answered
with, no process of the program works on a descriptor, gives a block of the heap back,
or touches or frees pages that it does not hold, two uses apart: binding and closing
do so when `SO_REUSEADDR` can be set and a prologue without a mode finds no descriptor
on its stack. A process that is forked or cloned holds what its parent holds.
-/

namespace CloningApps.Main
open Text Interaction Os Cmdline Server Fuzz

variable {os : Platform} {runs : Runs}

/-- A fork that returns an identifier starts a process in which it returns `0`. Where `os_clone`
returns to the parent, it has started as many as it was asked for, and returns in each what the
platform makes of a clone. -/
def processSpawns (os : Platform) : (c : Call) → c.Answer → List c.Answer → Prop
  | .fork, pid, started => 0 < pid ∧ started = [0]
  | .osClone n g, r, started =>
    CloneReturns os 0 n g r ∧ started.length = n.toNat ∧ ∀ r' ∈ started, CloneReturns os 1 n g r'
  | _, _, _ => False

/-- A machine with all applications. -/
def Setup.full : Setup := ⟨.posix, fun _ => true, 4096, ascii "cloning-apps"⟩

/-- The settings of a server that forks one child and reports nothing. -/
def forkingServer : Globals := { Globals.initial with app := .serverTcp, doFork := true }

end CloningApps.Main
