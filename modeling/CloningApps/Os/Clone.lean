import CloningApps.Interaction.Safe
import CloningApps.Os.Calls

/-! # The implementations of `os_clone`

Mini-OS and Unikraft both clone through a call of their hypervisor, which returns
`0` in the parent and `1` in a clone. The callers of `os_clone` rely on a contract
that neither implementation states.
-/

namespace CloningApps.Os
open Interaction Cmdline

inductive CloneCall where
  | malloc (size : ℕ)
  | clone (nrChildren : UInt)
  | free (addr : ℕ)

@[reducible] def CloneCall.Answer : CloneCall → Type
  | .malloc _ => Option ℕ
  | .clone _ => ℤ
  | .free _ => Unit

abbrev hypervisor : Interface := ⟨CloneCall, CloneCall.Answer⟩

abbrev hypercall (c : CloneCall) : Prog hypervisor c.Answer := @Prog.ask hypervisor c

/-- Only the parent forks. -/
def inClone (g : Globals) : Globals := { g with doFork := false, doClone := false }

/-- The code both platforms share; `childRc` is what a clone returns. -/
def cloneChildren (childRc : ℤ) (nrChildren : UInt) (g : Globals) :
    Prog hypervisor (ℤ × Globals) := do
  if nrChildren = 0 then
    return (-EINVAL, g)
  match ← hypercall (.malloc (2 * nrChildren.toNat)) with
  | none => return (-ENOMEM, g)
  | some childIds =>
    let rc ← hypercall (.clone nrChildren)
    let r := if rc = 0 then (0, g) else if rc = 1 then (childRc, inClone g) else (-1, g)
    hypercall (.free childIds)
    return r

/-- `clone_posix.c` does not clone. -/
def osClone (os : Platform) (nrChildren : UInt) (g : Globals) : Prog hypervisor (ℤ × Globals) :=
  match os with
  | .posix => return (-1, g)
  | .unikraft => cloneChildren 0 nrChildren g
  | .minios => cloneChildren 1 nrChildren g

/-- A hypervisor whose clone call has a given outcome; whether it was called is remembered. -/
def hypervisorEnv (outcome : ℤ) : Env hypervisor Bool where
  legal
    | _, .clone _, rc => rc = outcome
    | _, _, _ => True
  effect
    | _, .clone _, _ => true
    | called, _, _ => called
  drift := fun _ _ => False

theorem hypervisorEnv_still (outcome : ℤ) : (hypervisorEnv outcome).Still := fun _ _ h => h

/-- What the callers of `os_clone` rely on. -/
def CloneContract (outcome : ℤ) (g : Globals) (r : ℤ × Globals) (called : Bool) : Prop :=
  if called ∧ outcome = 0 then r = (0, g)
  else if called ∧ outcome = 1 then r = (1, inClone g)
  else r.1 < 0 ∧ r.2 = g

def MeetsContract (os : Platform) (outcome : ℤ) (g : Globals) : Prop :=
  Safe (hypervisorEnv outcome) (fun _ _ => True) (CloneContract outcome g)
    (osClone os (BitVec.ofInt 32 g.childrenNum) g) false

variable {os : Platform} {outcome : ℤ} {g : Globals} {n : UInt}

/-- What the code around the clone call makes of its outcome. -/
def afterClone (childRc outcome : ℤ) (g : Globals) : ℤ × Globals :=
  if outcome = 0 then (0, g) else if outcome = 1 then (childRc, inClone g) else (-1, g)

theorem cloneChildren_safe (childRc : ℤ) (hn : n ≠ 0) :
    Safe (hypervisorEnv outcome) (fun _ _ => True)
      (fun r called => r = if called then afterClone childRc outcome g else (-ENOMEM, g))
      (cloneChildren childRc n g) false := by
  have hE := hypervisorEnv_still outcome
  simp only [cloneChildren, hn, if_false]
  apply Safe.call hE trivial
  intro block _
  cases block with
  | none => exact Safe.ret hE rfl
  | some childIds =>
    refine Safe.call hE trivial (fun (rc : ℤ) hrc => Safe.call hE trivial (fun _ _ => ?_))
    obtain rfl : rc = outcome := hrc
    exact Safe.ret hE rfl

/-- The result of `os_clone` is an error, or tells a parent from a clone. -/
theorem osClone_le_one (os : Platform) (outcome : ℤ) (n : UInt) (g : Globals) :
    Safe (hypervisorEnv outcome) (fun _ _ => True) (fun r _ => r.1 ≤ 1) (osClone os n g) false := by
  have hE := hypervisorEnv_still outcome
  have hnomem : (-ENOMEM : ℤ) ≤ 1 := by decide
  have hchildren : ∀ childRc : ℤ, childRc ≤ 1 →
      Safe (hypervisorEnv outcome) (fun _ _ => True) (fun r _ => r.1 ≤ 1)
        (cloneChildren childRc n g) false := by
    intro childRc hle
    by_cases hn : n = 0
    · have hinval : (-EINVAL : ℤ) ≤ 1 := by decide
      simp only [cloneChildren, hn, if_true]
      exact Safe.ret hE hinval
    · apply (cloneChildren_safe childRc hn).mono
      intro r called hr
      rw [hr]
      split
      · unfold afterClone
        split
        · exact zero_le_one
        · split
          · exact hle
          · exact neg_one_lt_zero.le.trans zero_le_one
      · exact hnomem
  cases os with
  | posix => exact Safe.ret hE (neg_one_lt_zero.le.trans zero_le_one)
  | unikraft => exact hchildren 0 zero_le_one
  | minios => exact hchildren 1 le_rfl

/-- The clone call can be reached and answered. -/
theorem cloneChildren_reaches (childRc : ℤ) (hn : n ≠ 0) :
    Reaches (hypervisorEnv outcome) (cloneChildren childRc n g, false)
      (.ret (afterClone childRc outcome g), true) := by
  simp only [cloneChildren, hn, if_false]
  let childIds : Option ℕ := some 0
  refine .head (.call childIds trivial) (.head (.call outcome (Eq.refl outcome)) ?_)
  exact .head (.call () trivial) .refl

/-! ## What a parent and its clones are told -/

/-- What `os_clone` may return when the hypervisor's call has an outcome. -/
def CloneReturns (os : Platform) (outcome : ℤ) (n : UInt) (g : Globals) (r : ℤ × Globals) : Prop :=
  Reaches (hypervisorEnv outcome) (osClone os n g, false) (.ret r, true)

/-- What `os_clone` returns in a clone. -/
def cloneRc : Platform → ℤ
  | .minios => 1
  | _ => 0

/-- Whether the hypervisor was called decides what `os_clone` returns. -/
theorem osClone_safe (os : Platform) (outcome : ℤ) (n : UInt) (g : Globals) :
    Safe (hypervisorEnv outcome) (fun _ _ => True)
      (fun r called => if called then r = afterClone (cloneRc os) outcome g ∧ n ≠ 0 ∧ os ≠ .posix
        else r.1 < 0 ∧ r.2 = g) (osClone os n g) false := by
  have hE := hypervisorEnv_still outcome
  have hinval : (-EINVAL : ℤ) < 0 := by decide
  have hnomem : (-ENOMEM : ℤ) < 0 := by decide
  have hchildren : os ≠ .posix → Safe (hypervisorEnv outcome) (fun _ _ => True)
      (fun r called => if called then r = afterClone (cloneRc os) outcome g ∧ n ≠ 0 ∧ os ≠ .posix
        else r.1 < 0 ∧ r.2 = g) (cloneChildren (cloneRc os) n g) false := by
    intro hos
    by_cases hn : n = 0
    · simp only [cloneChildren, hn, if_true]
      exact Safe.ret hE ⟨hinval, rfl⟩
    · apply (cloneChildren_safe (cloneRc os) hn).mono
      rintro r (_ | _) rfl
      · exact ⟨hnomem, rfl⟩
      · exact ⟨rfl, hn, hos⟩
  cases os with
  | posix => exact Safe.ret hE ⟨neg_one_lt_zero, rfl⟩
  | unikraft => exact hchildren (by decide)
  | minios => exact hchildren (by decide)

variable {r : ℤ × Globals}

theorem CloneReturns.eq (h : CloneReturns os outcome n g r) :
    r = afterClone (cloneRc os) outcome g ∧ n ≠ 0 ∧ os ≠ .posix :=
  osClone_safe os outcome n g _ _ h

theorem cloneReturns (hos : os ≠ .posix) (hn : n ≠ 0) (outcome : ℤ) (g : Globals) :
    CloneReturns os outcome n g (afterClone (cloneRc os) outcome g) := by
  cases os with
  | posix => exact absurd rfl hos
  | unikraft => exact cloneChildren_reaches 0 hn
  | minios => exact cloneChildren_reaches 1 hn

theorem CloneReturns.parent (h : CloneReturns os 0 n g r) : r = (0, g) := h.eq.1

theorem CloneReturns.clone (h : CloneReturns os 1 n g r) : r = (cloneRc os, inClone g) := h.eq.1

/-! ## The contract -/

theorem children_ne_zero (hpos : 1 ≤ g.childrenNum) (hint : g.childrenNum < 2 ^ 31) :
    BitVec.ofInt 32 g.childrenNum ≠ 0 := by
  intro h
  have hzero : BitVec.toNat (0 : UInt) = 0 := rfl
  have hnat := congrArg BitVec.toNat h
  rw [BitVec.toNat_ofInt, hzero] at hnat
  omega

theorem cloneContract_afterClone_iff (childRc : ℤ) :
    CloneContract outcome g (afterClone childRc outcome g) true ↔ (outcome = 1 → childRc = 1) := by
  unfold CloneContract afterClone
  by_cases h0 : outcome = 0
  · simp [h0]
  · by_cases h1 : outcome = 1
    · simp [h1]
    · simp [h0, h1]

theorem cloneChildren_meets_iff (childRc : ℤ) (hn : n ≠ 0) :
    Safe (hypervisorEnv outcome) (fun _ _ => True) (CloneContract outcome g)
      (cloneChildren childRc n g) false ↔ (outcome = 1 → childRc = 1) := by
  rw [← cloneContract_afterClone_iff]
  refine ⟨fun h => h _ _ (cloneChildren_reaches childRc hn), fun h => ?_⟩
  apply (cloneChildren_safe childRc hn).mono
  rintro r (_ | _) rfl
  · have hneg : (-ENOMEM : ℤ) < 0 := by decide
    simpa [CloneContract] using hneg
  · exact h

/-- Mini-OS fulfils the contract, Unikraft fails it in every clone. -/
theorem meetsContract_iff (hos : os ≠ .posix) (hpos : 1 ≤ g.childrenNum)
    (hint : g.childrenNum < 2 ^ 31) :
    MeetsContract os outcome g ↔ ¬ (os = .unikraft ∧ outcome = 1) := by
  have hn := children_ne_zero hpos hint
  cases os with
  | posix => exact absurd rfl hos
  | unikraft =>
    apply (cloneChildren_meets_iff 0 hn).trans
    simp
  | minios =>
    apply (cloneChildren_meets_iff 1 hn).trans
    simp

end CloningApps.Os
