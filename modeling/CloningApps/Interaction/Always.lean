import CloningApps.Interaction.Exec

/-! # Programs all of whose runs return

In a still world a program that never waits for an answer nobody gives, and
that leaves all its loops, returns whatever it is answered. `Always` is the
total counterpart of `Safe`.
-/

namespace CloningApps.Interaction
variable {I : Interface} {W α β σ : Type}

inductive Always (E : Env I W) (post : α → W → Prop) : Prog I α → W → Prop where
  | ret {x : α} {w : W} (h : post x w) : Always E post (.ret x) w
  | call {c : I.Call} {k : I.Answer c → Prog I α} {w : W} (hsome : ∃ a, E.legal w c a)
      (hk : ∀ a, E.legal w c a → Always E post (k a) (E.effect w c a)) :
      Always E post (.call c k) w
  | loop {σ β : Type} {body : σ → Prog I (σ ⊕ β)} {s : σ} {k : β → Prog I α} {w : W}
      (h : Always E post ((body s).bind (Prog.again body k)) w) :
      Always E post (.loop body s k) w

variable {E : Env I W} {post post' : α → W → Prop} {p p' : Prog I α} {w w' : W}

theorem Always.mono (h : Always E post p w) (hpost : ∀ x w, post x w → post' x w) :
    Always E post' p w := by
  induction h with
  | ret h => exact .ret (hpost _ _ h)
  | call hsome _ ih => exact .call hsome ih
  | loop _ ih => exact .loop ih

theorem Always.bind {f : α → Prog I β} {post : β → W → Prop}
    (h : Always E (fun x w => Always E post (f x) w) p w) : Always E post (p.bind f) w := by
  induction h with
  | ret h => exact h
  | call hsome _ ih => exact .call hsome ih
  | loop _ ih => exact .loop (Prog.again_bind .. ▸ ih)

/-- The loop rule: `inv` holds whenever the body starts, and every round makes `size` smaller. -/
theorem Always.loop_decreasing (inv : σ → W → Prop) (size : σ → ℕ)
    {body : σ → Prog I (σ ⊕ β)} {k : β → Prog I α}
    (hbody : ∀ s w, inv s w → Always E
      (fun r w => Sum.elim (fun s' => inv s' w ∧ size s' < size s)
        (fun b => Always E post (k b) w) r) (body s) w)
    {s : σ} {w : W} (hs : inv s w) : Always E post (.loop body s k) w := by
  induction hn : size s using Nat.strong_induction_on generalizing s w with
  | _ n ih =>
    apply Always.loop
    apply Always.bind
    apply (hbody s w hs).mono
    intro r w' hr
    cases r with
    | inl s' => exact ih (size s') (hn ▸ hr.2) hr.1 rfl
    | inr b => exact hr

theorem Always.step (hE : E.Still) (h : Always E post p w) (hstep : Step E (p, w) (p', w')) :
    Always E post p' w' := by
  cases hstep with
  | call a ha =>
    cases h with
    | call _ hk => exact hk a ha
  | loop =>
    cases h with
    | loop h => exact h
  | drift hd => exact absurd hd (hE w w')

theorem Always.reaches (hE : E.Still) (h : Always E post p w) (hr : Reaches E (p, w) (p', w')) :
    Always E post p' w' :=
  hr.closed (Always E post) (fun _ _ _ _ h hs => h.step hE hs) h

/-- What a run returns with is what every run returns with. -/
theorem Always.returned (hE : E.Still) (h : Always E post p w) (hr : Returns E post' p w) :
    ∃ x w', post x w' ∧ post' x w' := by
  obtain ⟨x, w', hreach, hpost'⟩ := hr
  cases h.reaches hE hreach with
  | ret hpost => exact ⟨x, w', hpost, hpost'⟩

theorem Always.returns (h : Always E post p w) : Returns E post p w := by
  induction h with
  | ret h => exact .ret h
  | call hsome _ ih =>
    obtain ⟨a, ha⟩ := hsome
    exact .call a ha (ih a ha)
  | loop _ ih => exact .loop ih

end CloningApps.Interaction
