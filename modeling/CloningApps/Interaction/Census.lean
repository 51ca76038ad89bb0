import CloningApps.Interaction.Processes

/-! # How many processes there are

When the first process of a system is the only one that starts others, and its world
counts the processes it has started, then that count is the number of the others.
-/

namespace CloningApps.Interaction
variable {I : Interface} {W α : Type} {S : Spawning I W} {P : W → Prop} {n : W → ℕ}

/-- The count goes up by the processes that are started, and at no other answer of the process
that counts. -/
structure Spawning.Counts (S : Spawning I W) (n : W → ℕ) : Prop where
  starts : ∀ w c a bs, S.spawns c a bs → n (S.env.effect w c a) = n w + bs.length
  stays : ∀ w c a, S.env.legal w c a → S.Alone c a → n (S.env.effect w c a) = n w

/-- The first process has started all others. -/
def Counted (n : W → ℕ) : Processes I α W → Prop
  | [] => False
  | x :: xs => xs.length = n x.2

/-- A process that is not the first does not matter to the count, the first is counted on. -/
theorem Counted.replace {l r : Processes I α W} {x y : Prog I α × W}
    (h : Counted n (l ++ x :: r)) (hn : l = [] → n y.2 = n x.2) : Counted n (l ++ y :: r) := by
  cases l with
  | nil => exact h.trans (hn rfl).symm
  | cons z l =>
    have hlength : (l ++ y :: r).length = (l ++ x :: r).length := by simp
    exact hlength.trans h

/-- A process that starts another is the first. -/
theorem OnlyFirst.nil_of_mem {l r : Processes I α W} {x : Prog I α × W}
    (h : OnlyFirst P (l ++ x :: r)) (hx : P x.2) : l = [] := by
  cases l with
  | nil => rfl
  | cons z l => exact absurd hx (h.2 x (by simp))

/-- Along every run of the system the count is right. -/
theorem SystemReaches.counted {guard : W → I.Call → Prop} {post : α → W → Prop}
    (hS : S.Marks guard P) (hn : S.Counts n)
    (hguard : ∀ w c a bs, guard w c → S.spawns c a bs → P w)
    {p : Prog I α} {w : W} (hw : P w) (hzero : n w = 0) (hsafe : Safe S.env guard post p w)
    {ps : Processes I α W} (h : SystemReaches S [(p, w)] ps) : Counted n ps := by
  induction h with
  | refl => exact hzero.symm
  | @tail qs rs hreach hstep ih =>
    have hfirst := SystemReaches.onlyFirst hS hsafe hw hreach
    cases hstep with
    | answer a ha halone => exact ih.replace (fun _ => hn.stays _ _ a ha halone)
    | @spawn l r c k w' a bs hspawns =>
      have hmeets : guard w' c := hsafe _ _ (SystemReaches.process hreach (.call c k, w') (by simp))
      obtain rfl : l = [] := hfirst.nil_of_mem (hguard w' c a bs hmeets hspawns)
      have hcount : r.length = n w' := ih
      have hnext := hn.starts w' c a bs hspawns
      simp only [List.nil_append, Counted, List.length_append, List.length_map]
      rw [hnext, hcount]
    | loop => exact ih.replace (fun _ => rfl)

end CloningApps.Interaction
