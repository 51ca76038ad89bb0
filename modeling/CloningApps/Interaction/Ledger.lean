import Mathlib

/-! # Ledgers of acquired resources

A ledger knows for every resource whether it is held, and as what, or was
released. Releasing a resource that is already released is a fault of the kind
it had. A kind is settled when none of its resources is held and none was
released twice: each was then released exactly once.
-/

namespace CloningApps.Interaction
variable {R K : Type} [DecidableEq R]

inductive Status (K : Type) where
  | unused
  | held (k : K)
  | released (k : K)
  deriving DecidableEq

structure Ledger (R K : Type) where
  status : R → Status K
  faults : List K

namespace Ledger

def empty : Ledger R K := ⟨fun _ => .unused, []⟩

def set (L : Ledger R K) (r : R) (s : Status K) : Ledger R K :=
  { L with status := Function.update L.status r s }

def acquire (L : Ledger R K) (r : R) (k : K) : Ledger R K := L.set r (.held k)

/-- Releasing what was never held does nothing. -/
def release (L : Ledger R K) (r : R) : Ledger R K :=
  match L.status r with
  | .unused => L
  | .held k => L.set r (.released k)
  | .released k => { L with faults := k :: L.faults }

/-- The resources held as a kind. -/
def held (L : Ledger R K) (k : K) : Set R := {r | L.status r = .held k}

def Fresh (L : Ledger R K) (r : R) : Prop := ∀ k, L.status r ≠ .held k

def Settled (L : Ledger R K) (k : K) : Prop := L.held k = ∅ ∧ k ∉ L.faults

variable {L : Ledger R K} {r : R} {k k' : K}

omit [DecidableEq R] in
@[simp] theorem mem_held : r ∈ L.held k ↔ L.status r = .held k := Iff.rfl

theorem status_acquire_self (L : Ledger R K) (r : R) (k : K) :
    (L.acquire r k).status r = .held k := Function.update_self ..

theorem status_acquire_of_ne {x : R} (h : x ≠ r) : (L.acquire r k).status x = L.status x :=
  Function.update_of_ne h _ _

theorem mem_held_acquire (L : Ledger R K) (r : R) (k : K) : r ∈ (L.acquire r k).held k :=
  mem_held.mpr (L.status_acquire_self r k)

theorem held_acquire_self (L : Ledger R K) (r : R) (k : K) :
    (L.acquire r k).held k = insert r (L.held k) := by
  ext x
  by_cases hx : x = r
  · simp [acquire, set, hx]
  · simp [acquire, set, hx]

theorem held_acquire_of_ne (h : L.Fresh r) (hk : k' ≠ k) :
    (L.acquire r k).held k' = L.held k' := by
  ext x
  by_cases hx : x = r
  · simp [acquire, set, hx, hk.symm, h k']
  · simp [acquire, set, hx]

theorem release_of_mem (h : r ∈ L.held k) : L.release r = L.set r (.released k) := by
  rw [mem_held] at h
  simp only [release, h]

theorem status_release_self (h : r ∈ L.held k) : (L.release r).status r = .released k := by
  rw [release_of_mem h]
  exact Function.update_self ..

theorem held_release (L : Ledger R K) (r : R) (k : K) :
    (L.release r).held k = L.held k \ {r} := by
  ext x
  unfold release
  cases hr : L.status r with
  | unused | released j =>
    by_cases hx : x = r
    · simp [hx, held, hr]
    · simp [hx, held]
  | held j =>
    by_cases hx : x = r
    · simp [hx, set]
    · simp [hx, set]

theorem held_release_of_ne (h : r ∈ L.held k) (hk : k' ≠ k) :
    (L.release r).held k' = L.held k' := by
  rw [held_release]
  refine Set.sdiff_singleton_eq_self (fun hr => hk ?_)
  rw [mem_held] at h hr
  exact Status.held.inj (hr.symm.trans h)

theorem faults_release (h : r ∈ L.held k) : (L.release r).faults = L.faults := by
  rw [release_of_mem h]
  rfl

/-- What a resource other than the released one is, stays. -/
theorem status_release_of_ne {x : R} (h : x ≠ r) : (L.release r).status x = L.status x := by
  unfold release
  cases L.status r with
  | unused | released j => rfl
  | held j => simp [set, h]

end Ledger

end CloningApps.Interaction
