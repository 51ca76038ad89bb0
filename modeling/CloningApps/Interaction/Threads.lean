import CloningApps.Interaction.Safe

/-! # Threads that share a world

Several programs take steps one at a time, in any order, on one world. What a
thread relies on the others to do is a change its own world may make by itself,
so the rules for one program carry over: if every thread is safe in such a world,
and what it does is what the others rely on, then all of them stay safe.
-/

namespace CloningApps.Interaction
variable {I : Interface} {W ι : Type} {α : ι → Type} [DecidableEq ι]

/-- The programs of all threads, each as far as it has come. -/
abbrev Threads (I : Interface) (α : ι → Type) := (i : ι) → Prog I (α i)

inductive ThreadStep (E : Env I W) : Threads I α × W → Threads I α × W → Prop where
  | of {ps : Threads I α} {w w' : W} (i : ι) {p : Prog I (α i)}
      (h : Step E (ps i, w) (p, w')) : ThreadStep E (ps, w) (Function.update ps i p, w')

def ThreadsReach (E : Env I W) : Threads I α × W → Threads I α × W → Prop :=
  Relation.ReflTransGen (ThreadStep E)

/-- The world as a thread sees it whose fellows make the changes `R`. -/
def Env.rely (E : Env I W) (R : W → W → Prop) : Env I W where
  legal := E.legal
  effect := E.effect
  drift := fun w w' => E.drift w w' ∨ R w w'

variable {E : Env I W} {R : W → W → Prop} {ps ps' : Threads I α} {w w' : W}

theorem Env.Still.rely_stable (h : E.Still) {P : W → Prop} (hP : ∀ w w', P w → R w w' → P w') :
    (E.rely R).Stable P := by
  intro w w' hw hd
  rcases hd with hd | hd
  · exact absurd hd (h w w')
  · exact hP w w' hw hd

theorem Step.rely {β : Type} {x y : Prog I β × W} (h : Step E x y) : Step (E.rely R) x y := by
  cases h with
  | call a ha => exact .call a ha
  | loop => exact .loop
  | drift hd => exact .drift (.inl hd)

/-- A run of one thread is a run of all of them. -/
theorem ThreadsReach.of_reaches {i : ι} {p : Prog I (α i)} (h : Reaches E (ps i, w) (p, w')) :
    ThreadsReach E (ps, w) (Function.update ps i p, w') := by
  have hall : ∀ x : Prog I (α i) × W, Reaches E (ps i, w) x →
      ThreadsReach E (ps, w) (Function.update ps i x.1, x.2) := by
    intro x hx
    induction hx with
    | refl =>
      rw [Function.update_eq_self]
      exact .refl
    | @tail y z _ hs ih =>
      have hself : Step E (Function.update ps i y.1 i, y.2) (z.1, z.2) := by
        rwa [Function.update_self]
      have hstep := ThreadStep.of i hself
      rw [Function.update_idem] at hstep
      exact ih.tail hstep
  exact hall (p, w') h

/-- A thread that cannot go on stays where it is. -/
theorem ThreadsReach.stays {x y : Threads I α × W} (h : ThreadsReach E x y) {i : ι}
    (hstuck : ∀ w z, ¬ Step E (x.1 i, w) z) : y.1 i = x.1 i := by
  induction h with
  | refl => rfl
  | tail _ hstep ih =>
    cases hstep with
    | @of qs v _ j _ hs =>
      have hqs : qs i = x.1 i := ih
      by_cases hij : i = j
      · subst hij
        rw [hqs] at hs
        exact absurd hs (hstuck _ _)
      · exact (Function.update_of_ne hij _ _).trans ih

section RelyGuarantee

/-! What `j` may do in a call it makes is what every other thread relies on. -/

variable {rely : ι → W → W → Prop} {guard : ι → W → I.Call → Prop}
  {post : (i : ι) → α i → W → Prop} (hE : E.Still)
  (hrely : ∀ i j, i ≠ j → ∀ w c a, guard j w c → E.legal w c a → rely i w (E.effect w c a))
include hE hrely

/-- The step lemma. -/
theorem ThreadStep.safe (hstep : ThreadStep E (ps, w) (ps', w'))
    (hsafe : ∀ i, Safe (E.rely (rely i)) (guard i) (post i) (ps i) w) :
    ∀ i, Safe (E.rely (rely i)) (guard i) (post i) (ps' i) w' := by
  cases hstep with
  | of j h =>
    intro i
    by_cases hij : i = j
    · subst hij
      rw [Function.update_self]
      exact (hsafe i).step h.rely
    · rw [Function.update_of_ne hij]
      have hguard := (hsafe j).meets
      generalize ps j = q at h hguard
      cases h with
      | call a ha => exact (hsafe i).step (.drift (.inr (hrely i j hij _ _ a hguard ha)))
      | loop => exact hsafe i
      | drift hd => exact absurd hd (hE _ _)

/-- The run lemma. -/
theorem ThreadsReach.safe (hreach : ThreadsReach E (ps, w) (ps', w'))
    (hsafe : ∀ i, Safe (E.rely (rely i)) (guard i) (post i) (ps i) w) :
    ∀ i, Safe (E.rely (rely i)) (guard i) (post i) (ps' i) w' := by
  have hall : ∀ x : Threads I α × W, ThreadsReach E (ps, w) x →
      ∀ i, Safe (E.rely (rely i)) (guard i) (post i) (x.1 i) x.2 := by
    intro x hx
    induction hx with
    | refl => exact hsafe
    | tail _ hs ih => exact hs.safe hE hrely ih
  exact hall (ps', w') hreach

end RelyGuarantee

end CloningApps.Interaction
