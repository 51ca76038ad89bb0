import CloningApps.Main.Compare

/-! # One program on every platform

On Mini-OS networking is started first, and sockets are opened without
`SO_REUSEADDR`. Apart from this `main` and its applications are the same code on every
platform; what the `os_*` functions of the platforms do is in the answers to their calls.
-/

namespace CloningApps.Main
open Text Interaction Os Cmdline Server Fuzz Net

def reuses : Call → Bool
  | .setReuseAddr _ => true
  | _ => false

/-- What the platforms do by themselves. -/
def platformCalls : MachineCall → Bool
  | .app c => reuses c
  | .startNetworking => true
  | _ => false

/-- Setting `SO_REUSEADDR` succeeds. -/
def ReuseSet : (c : Call) → c.Answer → Prop
  | .setReuseAddr _, rc => rc = (0 : ℤ)
  | c, a => KeepsSettings c a

def PlatformsServe : (c : MachineCall) → c.Answer → Prop
  | .app c, a => ReuseSet c a
  | _, _ => True

theorem reuseAddress_alike (os os' : Platform) (s : Fd) :
    Alike reuses ReuseSet Eq (reuseAddress os s) (reuseAddress os' s) := by
  have hleft : ∀ os {p : SysProg ℤ}, Alike reuses ReuseSet Eq (.ret 0) p →
      Alike reuses ReuseSet Eq (reuseAddress os s) p := by
    intro os p hp
    unfold reuseAddress
    split
    · exact hp
    · refine .left rfl ?_
      rintro (rc : ℤ) hrc
      obtain rfl : rc = 0 := hrc
      exact hp
  have hright : Alike reuses ReuseSet Eq (.ret 0) (reuseAddress os' s) :=
    (hleft os' (.ret rfl)).symm.mono (fun _ _ h => h.symm)
  exact hleft os hright

theorem reuses_comparable (os os' : Platform) : Comparable reuses ReuseSet os os' True where
  opening := by
    intro c hc
    cases c with
    | setReuseAddr => exact id
    | _ => exact absurd hc Bool.false_ne_true
  settings := by
    intro c a h
    cases c with
    | setReuseAddr => trivial
    | _ => exact h
  reuse := reuseAddress_alike os os'
  stack := .call rfl (fun _ _ => .ret (fun _ => rfl))

theorem osAppInit_alike (os os' : Platform) :
    Alike (I := machine) platformCalls PlatformsServe (fun rc rc' => rc = 0 ∧ rc' = 0)
      (osAppInit os) (osAppInit os') := by
  have hleft : ∀ os {p : MainProg ℤ},
      Alike (I := machine) platformCalls PlatformsServe (fun rc rc' => rc = 0 ∧ rc' = 0)
        (.ret (0 : ℤ)) p →
      Alike (I := machine) platformCalls PlatformsServe (fun rc rc' => rc = 0 ∧ rc' = 0)
        (osAppInit os) p := by
    intro os p hp
    cases os with
    | minios => exact .left rfl (fun _ _ => hp)
    | posix | unikraft => exact hp
  have hright := (hleft os' (.ret ⟨rfl, rfl⟩)).symm.mono (fun _ _ h => h.symm)
  exact hleft os hright

/-- The code above the `os_*` functions is the same for any two platforms, but for the start of
networking and for `SO_REUSEADDR`, if the latter can be set. -/
theorem main_alike_platforms (s : Setup) (os' : Platform) (rc : ℤ) (g : Globals) :
    Alike (I := machine) platformCalls PlatformsServe Eq (main s (.returned rc g))
      (main { s with os := os' } (.returned rc g)) := by
  refine main_alike rc rfl (osAppInit_alike s.os os') ?_ ?_
  · intro _ _ p p' hp hp'
    have hset : ComesToPrologue s.pageSize g → Settles True g := fun _ => .inl trivial
    have happ : Alike reuses ReuseSet Eq p p' := by
      refine application_alike (reuses_comparable s.os os') ?_ ?_ ?_ hset hp hp' <;> rfl
    exact happ.lift (fun _ => rfl) (fun _ _ h => h)
  · intro _ _ _
    have hfuzz : OnlyCalls (fun c => platformCalls (fuzzer.call c) = false) threadFuncFuzz :=
      (OnlyCalls.all threadFuncFuzz).mono (fun _ _ => rfl)
    exact OnlyCalls.alike (OnlyCalls.lift hfuzz)

end CloningApps.Main
