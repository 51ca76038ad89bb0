import CloningApps.Interaction.Threads

/-! # Nodes on a medium

Programs with different interfaces run side by side and meet only in a medium: a
node makes its calls through a port of its own, and the medium also moves by
itself. What a node relies on is what the others and the medium do to the world,
so the rules for one program carry over to all nodes together.
-/

namespace CloningApps.Interaction
variable {W ι : Type} {I : ι → Interface} {α : ι → Type} [DecidableEq ι]

structure Medium (W : Type) (I : ι → Interface) where
  port : (i : ι) → Env (I i) W
  moves : W → W → Prop

/-- The programs of all nodes, each as far as it has come. -/
abbrev Nodes (I : ι → Interface) (α : ι → Type) := (i : ι) → Prog (I i) (α i)

inductive NodesStep (M : Medium W I) : Nodes I α × W → Nodes I α × W → Prop where
  | node {ps : Nodes I α} {w w' : W} (i : ι) {p : Prog (I i) (α i)}
      (h : Step (M.port i) (ps i, w) (p, w')) : NodesStep M (ps, w) (Function.update ps i p, w')
  | medium {ps : Nodes I α} {w w' : W} (h : M.moves w w') : NodesStep M (ps, w) (ps, w')

def NodesReach (M : Medium W I) : Nodes I α × W → Nodes I α × W → Prop :=
  Relation.ReflTransGen (NodesStep M)

variable {M : Medium W I} {ps ps' : Nodes I α} {w w' : W}

/-- A run of one node is a run of all of them. -/
theorem NodesReach.of_reaches {i : ι} {p : Prog (I i) (α i)}
    (h : Reaches (M.port i) (ps i, w) (p, w')) :
    NodesReach M (ps, w) (Function.update ps i p, w') := by
  have hall : ∀ x : Prog (I i) (α i) × W, Reaches (M.port i) (ps i, w) x →
      NodesReach M (ps, w) (Function.update ps i x.1, x.2) := by
    intro x hx
    induction hx with
    | refl =>
      rw [Function.update_eq_self]
      exact .refl
    | @tail y z _ hs ih =>
      have hself : Step (M.port i) (Function.update ps i y.1 i, y.2) (z.1, z.2) := by
        rwa [Function.update_self]
      have hstep := NodesStep.node i hself
      rw [Function.update_idem] at hstep
      exact ih.tail hstep
  exact hall (p, w') h

/-- A node goes on from where it is. -/
theorem NodesReach.run {x : Nodes I α × W} (h : NodesReach M x (ps, w)) (i : ι)
    {p p' : Prog (I i) (α i)} (hi : ps i = p) (hr : Reaches (M.port i) (p, w) (p', w')) :
    NodesReach M x (Function.update ps i p', w') :=
  Relation.ReflTransGen.trans h (NodesReach.of_reaches (hi ▸ hr))

theorem NodesReach.moves {x : Nodes I α × W} (h : NodesReach M x (ps, w)) (hm : M.moves w w') :
    NodesReach M x (ps, w') :=
  Relation.ReflTransGen.tail h (.medium hm)

/-- A step of a program in a still world leaves the world alone or is a call. -/
theorem Step.changes {J : Interface} {β : Type} {E : Env J W} (hE : E.Still) {p p' : Prog J β}
    {guard : W → J.Call → Prop} {post : β → W → Prop} (h : Step E (p, w) (p', w'))
    (hmeets : Meets guard post p w) :
    w' = w ∨ ∃ c a, guard w c ∧ E.legal w c a ∧ w' = E.effect w c a := by
  cases h with
  | call a ha => exact .inr ⟨_, a, hmeets, ha, rfl⟩
  | loop => exact .inl rfl
  | drift hd => exact absurd hd (hE _ _)

section RelyGuarantee

variable {rely : ι → W → W → Prop} {guard : (i : ι) → W → (I i).Call → Prop}
  {post : (i : ι) → α i → W → Prop}

/-- Every node is safe as long as the rest of the world does what it relies on. -/
def AllSafe (M : Medium W I) (rely : ι → W → W → Prop)
    (guard : (i : ι) → W → (I i).Call → Prop) (post : (i : ι) → α i → W → Prop)
    (x : Nodes I α × W) : Prop :=
  ∀ i, Safe ((M.port i).rely (rely i)) (guard i) (post i) (x.1 i) x.2

variable (hport : ∀ i, (M.port i).Still)
  (hrely : ∀ i j, i ≠ j → ∀ w c a, guard j w c → (M.port j).legal w c a →
    rely i w ((M.port j).effect w c a))
  (hmoves : ∀ i w w', M.moves w w' → rely i w w')
include hport hrely hmoves

/-- The step lemma. -/
theorem NodesStep.allSafe {x y : Nodes I α × W} (hstep : NodesStep M x y)
    (hsafe : AllSafe M rely guard post x) : AllSafe M rely guard post y := by
  cases hstep with
  | node j h =>
    intro i
    by_cases hij : i = j
    · subst hij
      simp only [Function.update_self]
      exact (hsafe i).step h.rely
    · have hi := hsafe i
      simp only [Function.update_of_ne hij]
      rcases h.changes (hport j) (hsafe j).meets with rfl | ⟨c, a, hguard, ha, rfl⟩
      · exact hi
      · exact hi.step (.drift (.inr (hrely i j hij _ c a hguard ha)))
  | medium h => exact fun i => (hsafe i).step (.drift (.inr (hmoves i _ _ h)))

/-- The run lemma. -/
theorem NodesReach.allSafe {x y : Nodes I α × W} (hreach : NodesReach M x y)
    (hsafe : AllSafe M rely guard post x) : AllSafe M rely guard post y := by
  induction hreach with
  | refl => exact hsafe
  | tail _ hs ih => exact hs.allSafe hport hrely hmoves ih

/-- What guarded calls and the medium preserve holds in every state that is reached. -/
theorem NodesReach.preserves {x y : Nodes I α × W} (hreach : NodesReach M x y)
    (hsafe : AllSafe M rely guard post x) (P : W → Prop)
    (hcall : ∀ i w c a, guard i w c → (M.port i).legal w c a → P w →
      P ((M.port i).effect w c a))
    (hmed : ∀ w w', M.moves w w' → P w → P w') (hP : P x.2) : P y.2 := by
  induction hreach with
  | refl => exact hP
  | @tail y z hr hs ih =>
    have hy := NodesReach.allSafe hport hrely hmoves hr hsafe
    cases hs with
    | node i h =>
      rcases h.changes (hport i) (hy i).meets with rfl | ⟨c, a, hguard, ha, rfl⟩
      · exact ih
      · exact hcall i _ c a hguard ha ih
    | medium h => exact hmed _ _ h ih

end RelyGuarantee

end CloningApps.Interaction
