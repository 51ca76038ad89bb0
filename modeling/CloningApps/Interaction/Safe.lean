import CloningApps.Interaction.Prog
import Mathlib

/-! # Runs in an environment, and what holds along all of them

An environment answers the calls of a program and may change by itself between
two calls. `Safe` says that every configuration a program can reach keeps a
guard on its calls and a postcondition on its result; the rules below prove it
along the structure of the program, with an invariant for each loop.
-/

namespace CloningApps.Interaction

/-- The answers a world allows for a call, what an answer does to the world, and the changes
the world makes on its own. -/
structure Env (I : Interface) (W : Type) where
  legal : W → (c : I.Call) → I.Answer c → Prop
  effect : W → (c : I.Call) → I.Answer c → W
  drift : W → W → Prop

variable {I : Interface} {W α β σ : Type}

/-- The world in the runs all of whose answers are of one sort. -/
def Env.restrict (E : Env I W) (ok : (c : I.Call) → I.Answer c → Prop) : Env I W where
  legal := fun w c a => E.legal w c a ∧ ok c a
  effect := E.effect
  drift := E.drift

/-- A world that changes only through the calls made. -/
def Env.Still (E : Env I W) : Prop := ∀ w w', ¬ E.drift w w'

def Env.Stable (E : Env I W) (P : W → Prop) : Prop := ∀ w w', P w → E.drift w w' → P w'

theorem Env.Still.stable {E : Env I W} (h : E.Still) (P : W → Prop) : E.Stable P :=
  fun w w' _ hd => absurd hd (h w w')

inductive Step (E : Env I W) : Prog I α × W → Prog I α × W → Prop where
  | call {c : I.Call} {k : I.Answer c → Prog I α} {w : W} (a : I.Answer c)
      (h : E.legal w c a) : Step E (.call c k, w) (k a, E.effect w c a)
  | loop {σ β : Type} {body : σ → Prog I (σ ⊕ β)} {s : σ} {k : β → Prog I α} {w : W} :
      Step E (.loop body s k, w) ((body s).bind (Prog.again body k), w)
  | drift {p : Prog I α} {w w' : W} (h : E.drift w w') : Step E (p, w) (p, w')

def Reaches (E : Env I W) : Prog I α × W → Prog I α × W → Prop :=
  Relation.ReflTransGen (Step E)

/-- What a configuration owes: a call its guard, a result its postcondition. -/
def Meets (guard : W → I.Call → Prop) (post : α → W → Prop) : Prog I α → W → Prop
  | .ret x, w => post x w
  | .call c _, w => guard w c
  | .loop .., _ => True

def Safe (E : Env I W) (guard : W → I.Call → Prop) (post : α → W → Prop) (p : Prog I α)
    (w : W) : Prop :=
  ∀ p' w', Reaches E (p, w) (p', w') → Meets guard post p' w'

variable {E : Env I W} {guard : W → I.Call → Prop} {post post' : α → W → Prop}

/-- Every program is safe where nothing is asked. -/
theorem Safe.unguarded (p : Prog I α) (w : W) :
    Safe E (fun _ _ => True) (fun _ _ => True) p w := by
  intro q v _
  cases q <;> trivial

theorem Safe.meets {p : Prog I α} {w : W} (h : Safe E guard post p w) : Meets guard post p w :=
  h p w .refl

theorem Safe.step {p p' : Prog I α} {w w' : W} (h : Safe E guard post p w)
    (hstep : Step E (p, w) (p', w')) : Safe E guard post p' w' :=
  fun q v hq => h q v (.head hstep hq)

theorem Safe.reaches {p p' : Prog I α} {w w' : W} (h : Safe E guard post p w)
    (hreach : Reaches E (p, w) (p', w')) : Safe E guard post p' w' :=
  fun q v hq => h q v (hreach.trans hq)

/-- A set of configurations that is closed under steps is not left. -/
theorem Reaches.closed (S : Prog I α → W → Prop)
    (hstep : ∀ p w p' w', S p w → Step E (p, w) (p', w') → S p' w') {p p' : Prog I α} {w w' : W}
    (hr : Reaches E (p, w) (p', w')) (hp : S p w) : S p' w' := by
  have hall : ∀ c : Prog I α × W, Reaches E (p, w) c → S c.1 c.2 := by
    intro c hc
    induction hc with
    | refl => exact hp
    | tail _ hs ih => exact hstep _ _ _ _ ih hs
  exact hall (p', w') hr

/-- A set of configurations that is closed under steps and owes nothing is safe. -/
theorem Safe.of_closed (S : Prog I α → W → Prop) (hmeets : ∀ p w, S p w → Meets guard post p w)
    (hstep : ∀ p w p' w', S p w → Step E (p, w) (p', w') → S p' w') {p : Prog I α} {w : W}
    (hp : S p w) : Safe E guard post p w :=
  fun p' w' hreach => hmeets p' w' (hreach.closed S hstep hp)

theorem Meets.mono (hpost : ∀ x w, post x w → post' x w) {p : Prog I α} {w : W}
    (h : Meets guard post p w) : Meets guard post' p w := by
  cases p with
  | ret x => exact hpost x w h
  | call c k => exact h
  | loop body s k => trivial

theorem Safe.mono {p : Prog I α} {w : W} (h : Safe E guard post p w)
    (hpost : ∀ x w, post x w → post' x w) : Safe E guard post' p w :=
  fun p' w' hreach => (h p' w' hreach).mono hpost

/-- What guarded calls preserve holds wherever a safe program gets to. -/
theorem Safe.preserves (P : W → Prop) (hP : E.Stable P)
    (hcall : ∀ w c a, guard w c → E.legal w c a → P w → P (E.effect w c a)) {p p' : Prog I α}
    {w w' : W} (h : Safe E guard post p w) (hr : Reaches E (p, w) (p', w')) (hw : P w) : P w' := by
  apply (hr.closed (fun p w => Safe E guard post p w ∧ P w) ?_ ⟨h, hw⟩).2
  rintro p w p' w' ⟨hsafe, hw⟩ hs
  refine ⟨hsafe.step hs, ?_⟩
  cases hs with
  | call a ha => exact hcall _ _ a hsafe.meets ha hw
  | loop => exact hw
  | drift hd => exact hP _ _ hw hd

/-! ## Rules -/

theorem Safe.ret_stable (P : W → Prop) (hP : E.Stable P) (x : α) (hpost : ∀ w, P w → post x w)
    {w : W} (hw : P w) : Safe E guard post (.ret x) w := by
  refine Safe.of_closed (fun p w => p = .ret x ∧ P w) ?_ ?_ ⟨rfl, hw⟩
  · rintro p w ⟨rfl, hw⟩
    exact hpost w hw
  · rintro p w p' w' ⟨rfl, hw⟩ hstep
    cases hstep with
    | drift h => exact ⟨rfl, hP w w' hw h⟩

theorem Safe.call_stable (P : W → Prop) (hP : E.Stable P) {c : I.Call} {k : I.Answer c → Prog I α}
    (hguard : ∀ w, P w → guard w c)
    (hk : ∀ w a, P w → E.legal w c a → Safe E guard post (k a) (E.effect w c a)) {w : W}
    (hw : P w) : Safe E guard post (.call c k) w := by
  refine Safe.of_closed
    (fun p w => (p = .call c k ∧ P w) ∨ Safe E guard post p w) ?_ ?_ (.inl ⟨rfl, hw⟩)
  · rintro p w (⟨rfl, hw⟩ | h)
    · exact hguard w hw
    · exact h.meets
  · rintro p w p' w' (⟨rfl, hw⟩ | h) hstep
    · cases hstep with
      | call a ha => exact .inr (hk w a hw ha)
      | drift h => exact .inl ⟨rfl, hP w w' hw h⟩
    · exact .inr (h.step hstep)

theorem Meets.bind {f : α → Prog I β} {post : β → W → Prop} {p : Prog I α} {w : W}
    (h : Meets guard (fun x w => Safe E guard post (f x) w) p w) :
    Meets guard post (p.bind f) w := by
  cases p with
  | ret x => exact Safe.meets h
  | call c k => exact h
  | loop body s k => trivial

/-- A step of `p.bind f` is a step of `p`, or `p` has returned. -/
theorem Step.bind_cases {f : α → Prog I β} {p : Prog I α} {q : Prog I β} {w w' : W}
    (h : Step E (p.bind f, w) (q, w')) :
    (∃ p', q = p'.bind f ∧ Step E (p, w) (p', w')) ∨ ∃ x, p = .ret x := by
  cases p with
  | ret x => exact .inr ⟨x, rfl⟩
  | call c k =>
    left
    cases h with
    | call a ha => exact ⟨k a, rfl, .call a ha⟩
    | drift hd => exact ⟨.call c k, rfl, .drift hd⟩
  | loop body s k =>
    left
    cases h with
    | loop =>
      exact ⟨(body s).bind (Prog.again body k), (Prog.again_bind ..).symm, .loop⟩
    | drift hd => exact ⟨.loop body s k, rfl, .drift hd⟩

theorem Safe.bind {f : α → Prog I β} {post : β → W → Prop} {p : Prog I α} {w : W}
    (h : Safe E guard (fun x w => Safe E guard post (f x) w) p w) :
    Safe E guard post (p.bind f) w := by
  refine Safe.of_closed
    (fun q w => (∃ p : Prog I α, q = p.bind f ∧
      Safe E guard (fun x w => Safe E guard post (f x) w) p w) ∨ Safe E guard post q w)
    ?_ ?_ (.inl ⟨p, rfl, h⟩)
  · rintro q w (⟨p, rfl, hp⟩ | hq)
    · exact hp.meets.bind
    · exact hq.meets
  · rintro q w q' w' (⟨p, rfl, hp⟩ | hq) hstep
    · rcases hstep.bind_cases with ⟨p', rfl, hs⟩ | ⟨x, rfl⟩
      · exact .inl ⟨p', rfl, hp.step hs⟩
      · exact .inr (Safe.step (Safe.meets hp) hstep)
    · exact .inr (hq.step hstep)

/-- The loop rule: `inv` holds whenever the body starts, and leaving the loop leads to `k`. -/
theorem Safe.loop (inv : σ → W → Prop) (hinv : ∀ s, E.Stable (inv s))
    {body : σ → Prog I (σ ⊕ β)} {k : β → Prog I α}
    (hbody : ∀ s w, inv s w → Safe E guard
      (fun r w => Sum.elim (fun s => inv s w) (fun b => Safe E guard post (k b) w) r) (body s) w)
    {s : σ} {w : W} (hs : inv s w) : Safe E guard post (.loop body s k) w := by
  let bodyPost : σ ⊕ β → W → Prop :=
    fun r w => Sum.elim (fun s => inv s w) (fun b => Safe E guard post (k b) w) r
  refine Safe.of_closed
    (fun q w => (∃ s, q = .loop body s k ∧ inv s w) ∨
      (∃ p, q = Prog.bind p (Prog.again body k) ∧ Safe E guard bodyPost p w) ∨
      Safe E guard post q w) ?_ ?_ (.inl ⟨s, rfl, hs⟩)
  · rintro q w (⟨s, rfl, hs⟩ | ⟨p, rfl, hp⟩ | hq)
    · trivial
    · cases p with
      | ret r =>
        cases r with
        | inl s => trivial
        | inr b => exact Safe.meets (Safe.meets hp)
      | call c k => exact hp.meets
      | loop => trivial
    · exact hq.meets
  · rintro q w q' w' (⟨s, rfl, hs⟩ | ⟨p, rfl, hp⟩ | hq) hstep
    · cases hstep with
      | loop => exact .inr (.inl ⟨body s, rfl, hbody s w hs⟩)
      | drift hd => exact .inl ⟨s, rfl, hinv s w w' hs hd⟩
    · rcases hstep.bind_cases with ⟨p', rfl, hs⟩ | ⟨r, rfl⟩
      · exact .inr (.inl ⟨p', rfl, hp.step hs⟩)
      · cases r with
        | inl s =>
          have hs : inv s w := Safe.meets hp
          cases hstep with
          | loop => exact .inr (.inl ⟨body s, rfl, hbody s w hs⟩)
          | drift hd => exact .inl ⟨s, rfl, hinv s w w' hs hd⟩
        | inr b =>
          have hb : Safe E guard post (k b) w := Safe.meets hp
          exact .inr (.inr (hb.step hstep))
    · exact .inr (.inr (hq.step hstep))

/-! ## A still world -/

section Still
variable (hE : E.Still)
include hE

theorem Safe.ret {x : α} {w : W} (h : post x w) : Safe E guard post (.ret x) w :=
  Safe.ret_stable (fun w' => w' = w) (hE.stable _) x (by rintro w' rfl; exact h) rfl

theorem Safe.call {c : I.Call} {k : I.Answer c → Prog I α} {w : W} (hguard : guard w c)
    (hk : ∀ a, E.legal w c a → Safe E guard post (k a) (E.effect w c a)) :
    Safe E guard post (.call c k) w :=
  Safe.call_stable (fun w' => w' = w) (hE.stable _) (by rintro w' rfl; exact hguard)
    (by rintro w' a rfl; exact hk a) rfl

theorem safe_ret_iff {x : α} {w : W} : Safe E guard post (.ret x) w ↔ post x w :=
  ⟨Safe.meets, Safe.ret hE⟩

theorem safe_call_iff {c : I.Call} {k : I.Answer c → Prog I α} {w : W} :
    Safe E guard post (.call c k) w ↔
      guard w c ∧ ∀ a, E.legal w c a → Safe E guard post (k a) (E.effect w c a) :=
  ⟨fun h => ⟨h.meets, fun a ha => h.step (.call a ha)⟩, fun h => Safe.call hE h.1 h.2⟩

end Still

end CloningApps.Interaction
