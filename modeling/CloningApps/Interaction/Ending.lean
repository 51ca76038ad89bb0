import CloningApps.Interaction.Frame

/-! # Programs that end from some point on

`SafeEnds` is `Safe` with a promise: in every configuration in which a condition
on the world holds, only finitely many steps are left. The condition stays true
once it is. Only a loop has to do something for the promise: it must not be
started once the condition holds.
-/

namespace CloningApps.Interaction
variable {I : Interface} {W α β σ : Type}

/-- Every run is finite. It ends where the program returns or where a call is not answered. -/
def Ends (E : Env I W) (p : Prog I α) (w : W) : Prop := Acc (flip (Step E)) (p, w)

def Env.Keeps (E : Env I W) (Q : W → Prop) : Prop :=
  ∀ w c a, E.legal w c a → Q w → Q (E.effect w c a)

def SafeEnds (E : Env I W) (Q : W → Prop) (guard : W → I.Call → Prop) (post : α → W → Prop)
    (p : Prog I α) (w : W) : Prop :=
  ∀ p' w', Reaches E (p, w) (p', w') → Meets guard post p' w' ∧ (Q w' → Ends E p' w')

variable {E : Env I W} {Q : W → Prop} {guard : W → I.Call → Prop} {post post' : α → W → Prop}

/-! ## Ending -/

theorem Ends.step {p p' : Prog I α} {w w' : W} (h : Ends E p w)
    (hstep : Step E (p, w) (p', w')) : Ends E p' w' :=
  Acc.inv h hstep

theorem Ends.ret (hE : E.Still) (x : α) (w : W) : Ends E (.ret x) w := by
  apply Acc.intro
  intro c hstep
  cases hstep with
  | drift hd => exact absurd hd (hE _ _)

theorem Ends.call (hE : E.Still) {c : I.Call} {k : I.Answer c → Prog I α} {w : W}
    (hk : ∀ a, E.legal w c a → Ends E (k a) (E.effect w c a)) : Ends E (.call c k) w := by
  apply Acc.intro
  intro c hstep
  cases hstep with
  | call a ha => exact hk a ha
  | drift hd => exact absurd hd (hE _ _)

theorem Ends.bind {f : α → Prog I β} {p : Prog I α} {w : W} (h : Ends E p w)
    (hf : ∀ x w', Reaches E (p, w) (.ret x, w') → Ends E (f x) w') : Ends E (p.bind f) w := by
  have hall : ∀ c : Prog I α × W, Acc (flip (Step E)) c →
      (∀ x w', Reaches E c (.ret x, w') → Ends E (f x) w') → Ends E (c.1.bind f) c.2 := by
    intro c hc
    induction hc with
    | intro c _ ih =>
      intro hf
      apply Acc.intro
      intro d hstep
      rcases Step.bind_cases hstep with ⟨p', hd, hs⟩ | ⟨x, hx⟩
      · have hrest := ih (p', d.2) hs (fun x w' hr => hf x w' (.head hs hr))
        rw [← hd] at hrest
        exact hrest
      · have hret : c = (.ret x, c.2) := Prod.ext hx rfl
        have hend := hf x c.2 (hret ▸ .refl)
        rw [hx] at hstep
        exact hend.step hstep
  exact hall (p, w) h hf

theorem Env.Keeps.reaches (hQ : E.Keeps Q) (hE : E.Still) {p p' : Prog I α} {w w' : W}
    (hr : Reaches E (p, w) (p', w')) (hw : Q w) : Q w' := by
  refine hr.closed (fun _ w => Q w) (fun p w p' w' hw hs => ?_) hw
  cases hs with
  | call a ha => exact hQ _ _ a ha hw
  | loop => exact hw
  | drift hd => exact absurd hd (hE _ _)

/-! ## Rules -/

theorem SafeEnds.safe {p : Prog I α} {w : W} (h : SafeEnds E Q guard post p w) :
    Safe E guard post p w :=
  fun p' w' hr => (h p' w' hr).1

theorem SafeEnds.meets {p : Prog I α} {w : W} (h : SafeEnds E Q guard post p w) :
    Meets guard post p w :=
  (h p w .refl).1

theorem SafeEnds.ends {p : Prog I α} {w : W} (h : SafeEnds E Q guard post p w) (hw : Q w) :
    Ends E p w :=
  (h p w .refl).2 hw

theorem SafeEnds.step {p p' : Prog I α} {w w' : W} (h : SafeEnds E Q guard post p w)
    (hstep : Step E (p, w) (p', w')) : SafeEnds E Q guard post p' w' :=
  fun q v hq => h q v (.head hstep hq)

theorem SafeEnds.mono {p : Prog I α} {w : W} (h : SafeEnds E Q guard post p w)
    (hpost : ∀ x w, post x w → post' x w) : SafeEnds E Q guard post' p w :=
  fun p' w' hr => ⟨(h p' w' hr).1.mono hpost, (h p' w' hr).2⟩

theorem SafeEnds.of_closed (S : Prog I α → W → Prop)
    (hS : ∀ p w, S p w → Meets guard post p w ∧ (Q w → Ends E p w))
    (hstep : ∀ p w p' w', S p w → Step E (p, w) (p', w') → S p' w') {p : Prog I α} {w : W}
    (hp : S p w) : SafeEnds E Q guard post p w :=
  fun p' w' hreach => hS p' w' (hreach.closed S hstep hp)

section Still
variable (hE : E.Still)
include hE

theorem SafeEnds.ret {x : α} {w : W} (h : post x w) : SafeEnds E Q guard post (.ret x) w := by
  refine SafeEnds.of_closed (fun p v => p = .ret x ∧ v = w) ?_ ?_ ⟨rfl, rfl⟩
  · rintro p v ⟨rfl, rfl⟩
    exact ⟨h, fun _ => .ret hE x v⟩
  · rintro p v p' v' ⟨rfl, rfl⟩ hs
    cases hs with
    | drift hd => exact absurd hd (hE _ _)

variable (hQ : E.Keeps Q)
include hQ

theorem SafeEnds.call {c : I.Call} {k : I.Answer c → Prog I α} {w : W} (hguard : guard w c)
    (hk : ∀ a, E.legal w c a → SafeEnds E Q guard post (k a) (E.effect w c a)) :
    SafeEnds E Q guard post (.call c k) w := by
  refine SafeEnds.of_closed
    (fun p v => (p = .call c k ∧ v = w) ∨ SafeEnds E Q guard post p v) ?_ ?_ (.inl ⟨rfl, rfl⟩)
  · rintro p v (⟨rfl, rfl⟩ | h)
    · refine ⟨hguard, fun hw => .call hE (fun a ha => ?_)⟩
      exact (hk a ha).ends (hQ v c a ha hw)
    · exact h p v .refl
  · rintro p v p' v' (⟨rfl, rfl⟩ | h) hs
    · cases hs with
      | call a ha => exact .inr (hk a ha)
      | drift hd => exact absurd hd (hE _ _)
    · exact .inr (h.step hs)

/-- What is left of `p` ends, and then what follows does. -/
theorem SafeEnds.ends_bind {f : α → Prog I β} {p : Prog I α} {w : W}
    (h : SafeEnds E Q guard (fun x w => Q w → Ends E (f x) w) p w) (hw : Q w) :
    Ends E (p.bind f) w := by
  apply (h.ends hw).bind
  intro x v hr
  exact (h _ _ hr).1 (hQ.reaches hE hr hw)

theorem SafeEnds.bind {f : α → Prog I β} {post : β → W → Prop} {p : Prog I α} {w : W}
    (h : SafeEnds E Q guard (fun x w => SafeEnds E Q guard post (f x) w) p w) :
    SafeEnds E Q guard post (p.bind f) w := by
  refine SafeEnds.of_closed
    (fun q w => (∃ p : Prog I α, q = p.bind f ∧
      SafeEnds E Q guard (fun x w => SafeEnds E Q guard post (f x) w) p w) ∨
      SafeEnds E Q guard post q w) ?_ ?_ (.inl ⟨p, rfl, h⟩)
  · rintro q w (⟨p, rfl, hp⟩ | hq)
    · refine ⟨Meets.bind (hp.meets.mono (fun _ _ => SafeEnds.safe)), fun hw => ?_⟩
      exact (hp.mono (fun _ _ => SafeEnds.ends)).ends_bind hE hQ hw
    · exact hq q w .refl
  · rintro q w q' w' (⟨p, rfl, hp⟩ | hq) hs
    · rcases hs.bind_cases with ⟨p', rfl, hs'⟩ | ⟨x, rfl⟩
      · exact .inl ⟨p', rfl, hp.step hs'⟩
      · have hx : SafeEnds E Q guard post (f x) w := hp.meets
        exact .inr (hx.step hs)
    · exact .inr (hq.step hs)

/-- A loop is only started while the condition does not hold. -/
theorem SafeEnds.loop (inv : σ → W → Prop) (hinv : ∀ s w, inv s w → ¬ Q w)
    {body : σ → Prog I (σ ⊕ β)} {k : β → Prog I α}
    (hbody : ∀ s w, inv s w → SafeEnds E Q guard
      (fun r w => Sum.elim (fun s => inv s w) (fun b => SafeEnds E Q guard post (k b) w) r)
      (body s) w)
    {s : σ} {w : W} (hs : inv s w) : SafeEnds E Q guard post (.loop body s k) w := by
  let bodyPost : σ ⊕ β → W → Prop :=
    fun r w => Sum.elim (fun s => inv s w) (fun b => SafeEnds E Q guard post (k b) w) r
  have hagain : ∀ r w, bodyPost r w → Q w → Ends E (Prog.again body k r) w := by
    intro r w hr hw
    cases r with
    | inl s => exact absurd hw (hinv s w hr)
    | inr b => exact SafeEnds.ends hr hw
  refine SafeEnds.of_closed
    (fun q w => (∃ s, q = .loop body s k ∧ inv s w) ∨
      (∃ p, q = Prog.bind p (Prog.again body k) ∧ SafeEnds E Q guard bodyPost p w) ∨
      SafeEnds E Q guard post q w) ?_ ?_ (.inl ⟨s, rfl, hs⟩)
  · rintro q w (⟨s, rfl, hs⟩ | ⟨p, rfl, hp⟩ | hq)
    · exact ⟨trivial, fun hw => absurd hw (hinv s w hs)⟩
    · refine ⟨?_, (hp.mono hagain).ends_bind hE hQ⟩
      cases p with
      | ret r =>
        cases r with
        | inl s => trivial
        | inr b => exact SafeEnds.meets hp.meets
      | call c k => exact hp.meets
      | loop => trivial
    · exact hq q w .refl
  · rintro q w q' w' (⟨s, rfl, hs⟩ | ⟨p, rfl, hp⟩ | hq) hstep
    · cases hstep with
      | loop => exact .inr (.inl ⟨body s, rfl, hbody s w hs⟩)
      | drift hd => exact absurd hd (hE _ _)
    · rcases hstep.bind_cases with ⟨p', rfl, hs⟩ | ⟨r, rfl⟩
      · exact .inr (.inl ⟨p', rfl, hp.step hs⟩)
      · cases r with
        | inl s =>
          have hs : inv s w := hp.meets
          cases hstep with
          | loop => exact .inr (.inl ⟨body s, rfl, hbody s w hs⟩)
          | drift hd => exact absurd hd (hE _ _)
        | inr b =>
          have hb : SafeEnds E Q guard post (k b) w := hp.meets
          exact .inr (.inr (hb.step hstep))
    · exact .inr (.inr (hq.step hstep))

/-- The frame rule. -/
theorem SafeEnds.frame {K : I.Call → Prop} (P : W → Prop) (hP : ∀ w, P w → ¬ Q w)
    (hguard : ∀ w c, K c → P w → guard w c)
    (hkeep : ∀ w c a, K c → P w → E.legal w c a → P (E.effect w c a)) {p : Prog I α}
    (hp : OnlyCalls K p) {w : W} (hw : P w) : SafeEnds E Q guard (fun _ w => P w) p w := by
  induction hp generalizing w with
  | ret x => exact SafeEnds.ret hE hw
  | call hc _ ih =>
    exact SafeEnds.call hE hQ (hguard w _ hc hw) (fun a ha => ih a (hkeep w _ a hc hw ha))
  | loop _ _ ihbody ihk =>
    refine SafeEnds.loop hE hQ (fun _ => P) (fun _ => hP) (fun s w h => ?_) hw
    apply (ihbody s h).mono
    intro r w h
    cases r with
    | inl s => exact h
    | inr b => exact ihk b h

end Still

end CloningApps.Interaction
