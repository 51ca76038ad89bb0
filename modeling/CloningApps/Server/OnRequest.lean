import CloningApps.Interaction.Ending
import CloningApps.Interaction.Exec
import CloningApps.Interaction.Processes
import CloningApps.Server.PrologueResources

/-! # Children forked on request

memory-overhead and measure-fork fork when a client asks them to. All processes
run the same program, so the child of a request has to find its way out of the
accept loop. Each process remembers which requests it received and how often it
forked for them.
-/

namespace CloningApps.Server
open Text Interaction Os Cmdline Net

/-- The applications that fork on request. -/
inductive RequestForker where
  | memoryOverhead | measureFork
  deriving DecidableEq

namespace RequestForker

/-- The request to fork. -/
def command : RequestForker → String
  | memoryOverhead => "overhead"
  | measureFork => "fork"

end RequestForker

/-- Whether the process is the one that started, and whether it was forked on a request; whether
it has accepted a connection; what its receive buffer holds; and how many requests to fork it
received and how often it forked since it serves. -/
structure Duty where
  original : Bool
  onRequest : Bool
  serving : Bool
  buffer : List Byte
  requests : ℕ
  forks : ℕ

namespace Duty

def initial : Duty := ⟨true, false, false, [], 0, 0⟩

/-- The buffer is compared with the command as far as the command goes. -/
def receive (command : String) (w : Duty) (data : List Byte) : Duty :=
  let buffer := overwrite w.buffer data
  { w with
    buffer
    requests := w.requests + if (ascii command).isPrefixOf buffer then 1 else 0 }

def forked (w : Duty) (pid : ℤ) : Duty :=
  { w with
    original := w.original && pid ≠ 0
    onRequest := w.onRequest || (w.serving && pid = 0)
    forks := w.forks + if w.serving then 1 else 0 }

def effect (command : String) (w : Duty) : (c : Call) → c.Answer → Duty
  | .accept _, _ => { w with serving := true }
  | .malloc .netbuf _, some block => { w with buffer := block.bytes }
  | .recv .., some data => if w.serving then w.receive command data else w
  | .fork, pid => w.forked pid
  | _, _ => w

end Duty

/-- Every outcome of every call. -/
def dutyEnv (command : String) : Env system Duty where
  legal := fun _ _ _ => True
  effect := Duty.effect command
  drift := fun _ _ => False

theorem dutyEnv_still (command : String) : (dutyEnv command).Still := fun _ _ h => h

/-- A fork that returns an identifier starts a process in which it returns `0`. -/
def forkSpawns : (c : Call) → c.Answer → List c.Answer → Prop
  | .fork, pid, started => 0 < pid ∧ started = [0]
  | _, _, _ => False

def forkingProcesses (command : String) : Spawning system Duty where
  env := dutyEnv command
  spawns := forkSpawns
  legal := fun _ _ _ _ _ => ⟨trivial, fun _ _ => trivial⟩

/-- Who accepts or forks was not forked on a request; forks and requests alternate; and only a
child of a request exits. `before` says that there may be forks before there is a request. -/
def dutyGuard (before : Bool) (w : Duty) : Call → Prop
  | .accept _ => w.onRequest = false ∧ w.forks = w.requests
  | .recv .. => w.serving = true → w.onRequest = false ∧ w.forks = w.requests
  | .fork => w.onRequest = false ∧ (w.serving = true → w.forks + 1 = w.requests) ∧
      (w.serving = true ∨ before = true)
  | .osExit _ => w.onRequest = true ∧ w.forks = w.requests
  | _ => True

/-- Not a child of a request, and nothing is owed. -/
structure Cleared (w : Duty) : Prop where
  free : w.onRequest = false
  balance : w.forks = w.requests

/-- A server that owes forks for the requests it received. -/
structure Owing (w : Duty) (owed : ℕ) : Prop where
  serving : w.serving = true
  free : w.onRequest = false
  balance : w.forks + owed = w.requests

variable {α : Type} {command : String} {before : Bool} {w : Duty} {owed : ℕ} {m : NetMsg}

/-- Only a fork tells who a process is. -/
theorem Duty.effect_who (command : String) (w : Duty) {c : Call} (hc : c ≠ .fork) (a : c.Answer) :
    (w.effect command c a).original = w.original ∧
      (w.effect command c a).onRequest = w.onRequest := by
  cases c with
  | fork => exact absurd rfl hc
  | malloc use size => cases use <;> cases a <;> exact ⟨rfl, rfl⟩
  | recv s size =>
    cases a with
    | none => exact ⟨rfl, rfl⟩
    | some data =>
      simp only [Duty.effect]
      split <;> exact ⟨rfl, rfl⟩
  | _ => exact ⟨rfl, rfl⟩

/-- The calls that are no duty of a server. -/
def OrdinaryCall : Call → Prop
  | .accept _ | .recv .. | .fork | .osExit _ | .malloc .. => False
  | _ => True

theorem OrdinaryCall.guard {c : Call} (hc : OrdinaryCall c) (before : Bool) (w : Duty) :
    dutyGuard before w c := by
  cases c with
  | accept | recv | fork | osExit | malloc => exact absurd hc id
  | _ => trivial

/-- The forks equal the requests at the end. -/
def Settled (_ : ℤ) (w : Duty) : Prop := w.forks = w.requests

/-- Before there is a request. -/
def Idle (w : Duty) : Prop := w.serving = false ∧ Cleared w

theorem Idle.effect (hw : Idle w) {c : Call} (hc : PrologueCall c) (a : c.Answer) :
    Idle ((dutyEnv command).effect w c a) := by
  obtain ⟨hserving, hcleared⟩ := hw
  cases c with
  | fork => exact ⟨hserving, by simp [dutyEnv, Duty.effect, Duty.forked, hserving, hcleared.free],
      by simpa [dutyEnv, Duty.effect, Duty.forked, hserving] using hcleared.balance⟩
  | recv s size =>
    cases a with
    | none => exact ⟨hserving, hcleared⟩
    | some data =>
      simp only [dutyEnv, Duty.effect, hserving]
      exact ⟨hserving, hcleared⟩
  | accept | malloc => exact absurd hc id
  | _ => exact ⟨hserving, hcleared⟩

theorem Idle.guard (hw : Idle w) {c : Call} (hc : PrologueCall c)
    (hfork : c = .fork → before = true) : dutyGuard before w c := by
  have hserving : w.serving ≠ true := by simp [hw.1]
  cases c with
  | recv s size => exact fun h => absurd h hserving
  | fork => exact ⟨hw.2.free, fun h => absurd h hserving, .inr (hfork rfl)⟩
  | accept | osExit => exact absurd hc id
  | _ => trivial

theorem original_marks (command : String) :
    (forkingProcesses command).Marks (fun _ _ => True) (fun w => w.original = true) where
  stays := by
    intro w c a _ halone h
    by_cases hc : c = .fork
    · subst hc
      have hnot : a ∉ [(0 : ℤ)] := (halone (1 : ℤ) [0] ⟨one_pos, rfl⟩).2
      have hne : a ≠ 0 := fun h0 => hnot (by simp [h0])
      simp [forkingProcesses, dutyEnv, Duty.effect, Duty.forked, h, hne]
    · exact (w.effect_who command hc a).1.trans h
  starts := by
    intro w c a bs hspawns h
    cases c with
    | fork =>
      have hpos : (0 : ℤ) < a := hspawns.1
      simp [forkingProcesses, dutyEnv, Duty.effect, Duty.forked, h, hpos.ne']
    | _ => exact absurd hspawns id
  lost := by
    intro w c a _ h
    by_cases hc : c = .fork
    · subst hc
      simp only [forkingProcesses, dutyEnv, Duty.effect, Duty.forked, Bool.and_eq_true]
      exact fun hand => h hand.1
    · exact fun h' => h ((w.effect_who command hc a).1.symm.trans h')
  started := by
    intro w c a bs _ hspawns b hmem
    cases c with
    | fork =>
      obtain rfl : bs = [0] := hspawns.2
      have hb : b = 0 := List.mem_singleton.mp hmem
      simp [forkingProcesses, dutyEnv, Duty.effect, Duty.forked, hb]
    | _ => exact absurd hspawns id

theorem onlyFirst_original {p : SysProg α} {ps : Processes system α Duty}
    (h : SystemReaches (forkingProcesses command) [(p, .initial)] ps) :
    OnlyFirst (fun w => w.original = true) ps :=
  h.onlyFirst (original_marks command) (Safe.unguarded p .initial) rfl

section Request
variable {c : Call}

end Request

/-! ## All runs -/

/-- Only the first process accepts connections. -/
def OnlyFirstAccepts (command : String) (p : SysProg ℤ) : Prop :=
  ∀ ps : Processes system ℤ Duty, SystemReaches (forkingProcesses command) [(p, .initial)] ps →
    ∀ x ∈ ps.tail, ∀ s, x.1.next ≠ some (.accept s)

theorem OnlyFirstAccepts.original {p : SysProg ℤ} (h : OnlyFirstAccepts command p) :
    Safe (dutyEnv command) (fun w c => ∀ s, c = .accept s → w.original = true) (fun _ _ => True) p
      .initial := by
  intro q w hr
  obtain ⟨ps, hps, hx⟩ := Reaches.in_system (S := forkingProcesses command)
    (dutyEnv_still command) hr
  cases q with
  | ret x => trivial
  | loop => trivial
  | call c k =>
    rintro s rfl
    have hfirst := onlyFirst_original hps
    cases ps with
    | nil => exact absurd hx List.not_mem_nil
    | cons y ys =>
      rcases List.mem_cons.mp hx with rfl | hmem
      · exact hfirst.1
      · exact absurd rfl (h _ hps _ hmem s)

end CloningApps.Server
