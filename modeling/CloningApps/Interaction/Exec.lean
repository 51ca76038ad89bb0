import CloningApps.Interaction.Safe

/-! # Running a program against scripted answers

An oracle names the answer of every call by its position in the run. A scripted
run that the environment allows is a run.
-/

namespace CloningApps.Interaction
variable {I : Interface} {W α : Type}

/-- Run for at most `fuel` steps, the next call being the `n`-th. -/
def Prog.exec (E : Env I W) [∀ w c a, Decidable (E.legal w c a)]
    (oracle : ℕ → (c : I.Call) → Option (I.Answer c)) :
    ℕ → ℕ → Prog I α → W → Option (α × W)
  | _, _, .ret x, w => some (x, w)
  | 0, _, _, _ => none
  | fuel + 1, n, .call c k, w =>
    match oracle n c with
    | none => none
    | some a =>
      if E.legal w c a then exec E oracle fuel (n + 1) (k a) (E.effect w c a) else none
  | fuel + 1, n, .loop body s k, w =>
    exec E oracle fuel n ((body s).bind (Prog.again body k)) w

theorem Prog.exec_reaches {E : Env I W} [∀ w c a, Decidable (E.legal w c a)]
    {oracle : ℕ → (c : I.Call) → Option (I.Answer c)} {fuel n : ℕ} {p : Prog I α} {w w' : W}
    {x : α} (h : p.exec E oracle fuel n w = some (x, w')) : Reaches E (p, w) (.ret x, w') := by
  induction fuel generalizing n p w with
  | zero =>
    cases p with
    | ret y =>
      obtain ⟨rfl, rfl⟩ : y = x ∧ w = w' := by simpa [Prog.exec] using h
      exact .refl
    | call c k => simp [Prog.exec] at h
    | loop body s k => simp [Prog.exec] at h
  | succ fuel ih =>
    cases p with
    | ret y =>
      obtain ⟨rfl, rfl⟩ : y = x ∧ w = w' := by simpa [Prog.exec] using h
      exact .refl
    | call c k =>
      simp only [Prog.exec] at h
      cases ho : oracle n c with
      | none => simp [ho] at h
      | some a =>
        by_cases hlegal : E.legal w c a
        · simp only [ho, hlegal, if_true] at h
          exact .head (.call a hlegal) (ih h)
        · simp [ho, hlegal] at h
    | loop body s k => exact .head .loop (ih h)

/-! ## What is left of a program -/

/-- The program after its first calls, as long as `answer` answers them. -/
def Prog.resume (answer : (c : I.Call) → Option (I.Answer c)) : {α : Type} → Prog I α → Prog I α
  | _, .ret x => .ret x
  | _, .call c k =>
    match answer c with
    | some a => (k a).resume answer
    | none => .call c k
  | _, .loop body s k => .loop body s k

/-- The call the program waits for. -/
def Prog.next : {α : Type} → Prog I α → Option I.Call
  | _, .call c _ => some c
  | _, _ => none

/-! ## Programs that can return -/

/-- Some run of the program returns with the postcondition. -/
def Returns (E : Env I W) (post : α → W → Prop) (p : Prog I α) (w : W) : Prop :=
  ∃ x w', Reaches E (p, w) (.ret x, w') ∧ post x w'

variable {E : Env I W} {β σ : Type} {post : α → W → Prop}

theorem Returns.ret {x : α} {w : W} (h : post x w) : Returns E post (.ret x) w :=
  ⟨x, w, .refl, h⟩

theorem Returns.head {p p' : Prog I α} {w w' : W} (hstep : Step E (p, w) (p', w'))
    (h : Returns E post p' w') : Returns E post p w := by
  obtain ⟨x, v, hr, hpost⟩ := h
  exact ⟨x, v, .head hstep hr, hpost⟩

theorem Returns.call {c : I.Call} {k : I.Answer c → Prog I α} {w : W} (a : I.Answer c)
    (ha : E.legal w c a) (h : Returns E post (k a) (E.effect w c a)) :
    Returns E post (.call c k) w :=
  .head (.call a ha) h

theorem Returns.loop {body : σ → Prog I (σ ⊕ β)} {s : σ} {k : β → Prog I α} {w : W}
    (h : Returns E post ((body s).bind (Prog.again body k)) w) :
    Returns E post (.loop body s k) w :=
  .head .loop h

theorem Returns.drifts {p : Prog I α} {w w' : W} (hd : Relation.ReflTransGen E.drift w w')
    (h : Returns E post p w') : Returns E post p w := by
  induction hd using Relation.ReflTransGen.head_induction_on with
  | refl => exact h
  | head hstep _ ih => exact .head (.drift hstep) ih

theorem Step.bind {f : α → Prog I β} {p p' : Prog I α} {w w' : W}
    (h : Step E (p, w) (p', w')) : Step E (p.bind f, w) (p'.bind f, w') := by
  cases h with
  | call a ha => exact .call a ha
  | loop => exact (Prog.again_bind ..).symm ▸ .loop
  | drift hd => exact .drift hd

theorem Reaches.bind {f : α → Prog I β} {p p' : Prog I α} {w w' : W}
    (h : Reaches E (p, w) (p', w')) : Reaches E (p.bind f, w) (p'.bind f, w') := by
  have hlift : ∀ c : Prog I α × W,
      Reaches E (p, w) c → Reaches E (p.bind f, w) (c.1.bind f, c.2) := by
    intro c hc
    induction hc with
    | refl => exact .refl
    | tail _ hs ih => exact .tail ih (Step.bind hs)
  exact hlift _ h

theorem Returns.bind {f : α → Prog I β} {p : Prog I α} {w : W} {post' : β → W → Prop}
    (hp : Returns E post p w) (hf : ∀ x w', post x w' → Returns E post' (f x) w') :
    Returns E post' (p.bind f) w := by
  obtain ⟨x, w', hr, hpost⟩ := hp
  obtain ⟨y, v, hy, hpost'⟩ := hf x w' hpost
  exact ⟨y, v, hr.bind.trans hy, hpost'⟩

end CloningApps.Interaction
