import Mathlib

/-! # Programs that talk to their surroundings

A program returns, makes a call and goes on with the answer, or iterates a body
until the body says how to leave the loop. Nothing here says what a call does:
an `Interface` only lists the calls and the type of their answers.
-/

namespace CloningApps.Interaction

/-- The calls a program can make, and what each is answered with. -/
structure Interface where
  Call : Type
  Answer : Call → Type

inductive Prog (I : Interface) : Type → Type 1 where
  | ret {α : Type} (x : α) : Prog I α
  | call {α : Type} (c : I.Call) (k : I.Answer c → Prog I α) : Prog I α
  | loop {α σ β : Type} (body : σ → Prog I (σ ⊕ β)) (s : σ) (k : β → Prog I α) : Prog I α

namespace Prog
variable {I : Interface} {α β γ : Type}

def bind : {α : Type} → Prog I α → (α → Prog I γ) → Prog I γ
  | _, .ret x, f => f x
  | _, .call c k, f => .call c (fun a => bind (k a) f)
  | _, .loop body s k, f => .loop body s (fun b => bind (k b) f)

instance : Monad (Prog I) where
  pure := .ret
  bind := bind

theorem bind_ret (p : Prog I α) : p.bind .ret = p := by
  induction p with
  | ret x => rfl
  | call c k ih => exact congrArg (call c) (funext ih)
  | loop body s k _ ih => exact congrArg (loop body s) (funext ih)

theorem bind_assoc (p : Prog I α) (f : α → Prog I β) (g : β → Prog I γ) :
    (p.bind f).bind g = p.bind (fun x => (f x).bind g) := by
  induction p with
  | ret x => rfl
  | call c k ih => exact congrArg (call c) (funext (fun a => ih a f))
  | loop body s k _ ih => exact congrArg (loop body s) (funext (fun b => ih b f))

@[simp] theorem pure_eq (x : α) : (pure x : Prog I α) = .ret x := rfl

@[simp] theorem bind_eq (p : Prog I α) (f : α → Prog I β) : p >>= f = p.bind f := rfl

/-- Make a call and return the answer. -/
def ask (c : I.Call) : Prog I (I.Answer c) := .call c .ret

/-- Run `body` from `s` on until it leaves the loop with a result. -/
def iterate {σ : Type} (body : σ → Prog I (σ ⊕ β)) (s : σ) : Prog I β := .loop body s .ret

@[simp] theorem ret_bind (x : α) (f : α → Prog I β) : (Prog.ret x).bind f = f x := rfl

/-- What follows one round of a loop. -/
def again {σ : Type} (body : σ → Prog I (σ ⊕ β)) (k : β → Prog I α) : σ ⊕ β → Prog I α
  | .inl s => .loop body s k
  | .inr b => k b

theorem again_bind {σ : Type} (body : σ → Prog I (σ ⊕ α)) (s : σ) (k : α → Prog I β)
    (f : β → Prog I γ) :
    ((body s).bind (again body k)).bind f =
      (body s).bind (again body (fun b => (k b).bind f)) := by
  rw [bind_assoc]
  congr 1
  funext r
  cases r <;> rfl

end Prog

end CloningApps.Interaction
