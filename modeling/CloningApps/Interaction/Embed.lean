import CloningApps.Interaction.Frame

/-! # Programs inside a larger system

A program for one interface runs unchanged behind a larger one that has all its
calls. Whatever world the larger interface has, the calls of the smaller one see
it in their own way, and the runs of the program are the same on both sides. A world
may also be shown in part, and what holds of the part holds of the whole.
-/

namespace CloningApps.Interaction

/-- The calls of `I` among those of `J`. -/
structure Embedding (I J : Interface) where
  call : I.Call → J.Call
  answer : (c : I.Call) → J.Answer (call c) ≃ I.Answer c

variable {I J : Interface} {W α β γ σ : Type}

def Prog.lift (ι : Embedding I J) : {α : Type} → Prog I α → Prog J α
  | _, .ret x => .ret x
  | _, .call c k => .call (ι.call c) (fun a => (k (ι.answer c a)).lift ι)
  | _, .loop body s k => .loop (fun s => (body s).lift ι) s (fun b => (k b).lift ι)

/-- A world of the larger system as the smaller one sees it. -/
def Env.along (E : Env J W) (ι : Embedding I J) : Env I W where
  legal := fun w c a => E.legal w (ι.call c) ((ι.answer c).symm a)
  effect := fun w c a => E.effect w (ι.call c) ((ι.answer c).symm a)
  drift := E.drift

variable {ι : Embedding I J} {E : Env J W}

theorem Prog.lift_bind (p : Prog I α) (f : α → Prog I β) :
    (p.bind f).lift ι = (p.lift ι).bind (fun x => (f x).lift ι) := by
  induction p with
  | ret x => rfl
  | call c k ih => exact congrArg (call (ι.call c)) (funext (fun a => ih (ι.answer c a) f))
  | loop body s k _ ih =>
    exact congrArg (loop (fun s => (body s).lift ι) s) (funext (fun b => ih b f))

theorem Prog.lift_again (body : σ → Prog I (σ ⊕ β)) (s : σ) (k : β → Prog I α) :
    ((body s).bind (again body k)).lift ι =
      ((body s).lift ι).bind (again (fun s => (body s).lift ι) (fun b => (k b).lift ι)) := by
  rw [lift_bind]
  congr 1
  funext r
  cases r <;> rfl

theorem Step.lift {p p' : Prog I α} {w w' : W} (h : Step (E.along ι) (p, w) (p', w')) :
    Step E (p.lift ι, w) (p'.lift ι, w') := by
  cases h with
  | @call c k _ a ha =>
    have hstep := Step.call (k := fun a => (k (ι.answer c a)).lift ι) ((ι.answer c).symm a) ha
    rw [Equiv.apply_symm_apply] at hstep
    exact hstep
  | loop => exact Prog.lift_again (ι := ι) _ _ _ ▸ .loop
  | drift hd => exact .drift hd

/-- A step of the lifted program is one of the program. -/
theorem Step.of_lift {p : Prog I α} {q : Prog J α} {w w' : W}
    (h : Step E (p.lift ι, w) (q, w')) :
    ∃ p', q = p'.lift ι ∧ Step (E.along ι) (p, w) (p', w') := by
  cases p with
  | ret x =>
    cases h with
    | drift hd => exact ⟨.ret x, rfl, .drift hd⟩
  | call c k =>
    cases h with
    | call a ha =>
      refine ⟨k (ι.answer c a), rfl, ?_⟩
      have hlegal : (E.along ι).legal w c (ι.answer c a) := by
        simpa only [Env.along, Equiv.symm_apply_apply] using ha
      have hstep := Step.call (k := k) (ι.answer c a) hlegal
      simpa only [Env.along, Equiv.symm_apply_apply] using hstep
    | drift hd => exact ⟨.call c k, rfl, .drift hd⟩
  | loop body s k =>
    cases h with
    | loop => exact ⟨_, (Prog.lift_again ..).symm, .loop⟩
    | drift hd => exact ⟨.loop body s k, rfl, .drift hd⟩

theorem Reaches.lift {p p' : Prog I α} {w w' : W}
    (h : Reaches (E.along ι) (p, w) (p', w')) : Reaches E (p.lift ι, w) (p'.lift ι, w') := by
  have hall : ∀ x : Prog I α × W, Reaches (E.along ι) (p, w) x →
      Reaches E (p.lift ι, w) (x.1.lift ι, x.2) := by
    intro x hx
    induction hx with
    | refl => exact .refl
    | tail _ hs ih => exact .tail ih (Step.lift hs)
  exact hall (p', w') h

theorem Reaches.of_lift {p : Prog I α} {q : Prog J α} {w w' : W}
    (h : Reaches E (p.lift ι, w) (q, w')) :
    ∃ p', q = p'.lift ι ∧ Reaches (E.along ι) (p, w) (p', w') := by
  refine h.closed (fun q w' => ∃ p', q = p'.lift ι ∧ Reaches (E.along ι) (p, w) (p', w')) ?_
    ⟨p, rfl, .refl⟩
  rintro _ v q' v' ⟨p', rfl, hp'⟩ hs
  obtain ⟨p'', rfl, hs'⟩ := hs.of_lift
  exact ⟨p'', rfl, .tail hp' hs'⟩

theorem Env.Still.along (h : E.Still) (ι : Embedding I J) : (E.along ι).Still := h

/-- What is proved of a program carries over to a larger system. -/
theorem Safe.lift {guard : W → J.Call → Prop} {post : α → W → Prop} {p : Prog I α} {w : W}
    (h : Safe (E.along ι) (fun w c => guard w (ι.call c)) post p w) :
    Safe E guard post (p.lift ι) w := by
  intro q w' hr
  obtain ⟨p', rfl, hr'⟩ := hr.of_lift
  have hmeets := h p' w' hr'
  cases p' with
  | ret x => exact hmeets
  | call c k => exact hmeets
  | loop body s k => trivial

/-! ## Worlds seen from outside -/

section View
variable {V : Type} {D : Env I V} {F : Env I W} {f : W → V}

/-- What happens in `F` happens in `D` as far as `f` shows it. -/
structure Env.Shows (F : Env I W) (D : Env I V) (f : W → V) : Prop where
  legal : ∀ w c a, F.legal w c a → D.legal (f w) c a
  effect : ∀ w c a, F.legal w c a → f (F.effect w c a) = D.effect (f w) c a
  drift : ∀ w w', F.drift w w' → f w' = f w ∨ D.drift (f w) (f w')

theorem Step.shown (hf : F.Shows D f) {p p' : Prog I α} {w w' : W}
    (h : Step F (p, w) (p', w')) : Reaches D (p, f w) (p', f w') := by
  cases h with
  | call a ha =>
    rw [hf.effect _ _ _ ha]
    exact .single (.call a (hf.legal _ _ _ ha))
  | loop => exact .single .loop
  | drift hd =>
    rcases hf.drift _ _ hd with hsame | hd
    · rw [hsame]
      exact .refl
    · exact .single (.drift hd)

/-- What is proved of a world that is shown holds of the world itself. -/
theorem Safe.shown (hf : F.Shows D f) {guard : V → I.Call → Prop} {post : α → V → Prop}
    {p : Prog I α} {w : W} (h : Safe D guard post p (f w)) :
    Safe F (fun w => guard (f w)) (fun x w => post x (f w)) p w := by
  refine Safe.of_closed (fun p w => Safe D guard post p (f w)) ?_ ?_ h
  · intro p w hsafe
    have hmeets := hsafe.meets
    cases p with
    | ret x => exact hmeets
    | call c k => exact hmeets
    | loop body s k => trivial
  · intro p w p' w' hsafe hs
    exact hsafe.reaches (hs.shown hf)

theorem Safe.and {guard guard' : W → I.Call → Prop} {post post' : α → W → Prop} {p : Prog I α}
    {w : W} (h : Safe F guard post p w) (h' : Safe F guard' post' p w) :
    Safe F (fun w c => guard w c ∧ guard' w c) (fun x w => post x w ∧ post' x w) p w := by
  intro q v hr
  have hmeets := h q v hr
  have hmeets' := h' q v hr
  cases q with
  | ret x => exact ⟨hmeets, hmeets'⟩
  | call c k => exact ⟨hmeets, hmeets'⟩
  | loop body s k => trivial

end View

theorem OnlyCalls.lift {K : J.Call → Prop} {p : Prog I α}
    (h : OnlyCalls (fun c => K (ι.call c)) p) : OnlyCalls K (p.lift ι) := by
  induction h with
  | ret x => exact .ret x
  | call hc _ ih => exact .call hc (fun a => ih _)
  | loop _ _ ihbody ihk => exact .loop (fun s => ihbody s) (fun b => ihk b)

theorem OnlyCalls.all (p : Prog I α) : OnlyCalls (fun _ => True) p := by
  induction p with
  | ret x => exact .ret x
  | call c k ih => exact .call trivial ih
  | loop body s k ihbody ihk => exact .loop ihbody ihk

/-- The calls a program is waiting for are of the sort it makes. -/
theorem OnlyCalls.reaches {K : I.Call → Prop} {F : Env I W} {p p' : Prog I α} {w w' : W}
    (h : OnlyCalls K p) (hr : Reaches F (p, w) (p', w')) : OnlyCalls K p' := by
  refine hr.closed (fun p _ => OnlyCalls K p) (fun p w p' w' hp hs => ?_) h
  cases hs with
  | call a _ => exact hp.answered a
  | loop =>
    cases hp with
    | loop hbody hk =>
      refine (hbody _).bind (fun r => ?_)
      cases r with
      | inl s => exact .loop hbody hk
      | inr b => exact hk b
  | drift _ => exact hp

end CloningApps.Interaction
