import CloningApps.Interaction.Exec
import CloningApps.Interaction.Frame

/-! # Processes that fork

A program that forks goes on twice, in the parent and in a child with a world of
its own. A `Family` is what has become of a process and of its descendants: each
has returned or waits for the answer of a call.
-/

namespace CloningApps.Interaction
variable {I : Interface} {W α β : Type}

/-- A call that forks, its answer in the child and the world of the child. What the parent is
answered is up to the environment. -/
structure Forking (I : Interface) (W : Type) where
  env : Env I W
  fork : I.Call
  inChild : I.Answer fork
  spawn : W → W

/-- A process with its children, the oldest first. -/
inductive ProcessTree (α W : Type) where
  | node (result : Option α) (world : W) (children : List (ProcessTree α W))

namespace ProcessTree

def result : ProcessTree α W → Option α
  | node r _ _ => r

def world : ProcessTree α W → W
  | node _ w _ => w

def children : ProcessTree α W → List (ProcessTree α W)
  | node _ _ ts => ts

def withChild (t child : ProcessTree α W) : ProcessTree α W :=
  .node t.result t.world (child :: t.children)

@[simp] theorem result_withChild (t c : ProcessTree α W) : (t.withChild c).result = t.result := rfl

@[simp] theorem world_withChild (t c : ProcessTree α W) : (t.withChild c).world = t.world := rfl

@[simp] theorem children_withChild (t c : ProcessTree α W) :
    (t.withChild c).children = c :: t.children := rfl

mutual

/-- How many processes there are. -/
def size : ProcessTree α W → ℕ
  | node _ _ ts => 1 + sizes ts

def sizes : List (ProcessTree α W) → ℕ
  | [] => 0
  | t :: ts => t.size + sizes ts

end

theorem size_of_childless {t : ProcessTree α W} (h : t.children = []) : t.size = 1 := by
  cases t with
  | node r w ts =>
    have hts : ts = [] := h
    simp [size, hts, sizes]

theorem sizes_of_childless {ts : List (ProcessTree α W)} (h : ∀ t ∈ ts, t.children = []) :
    sizes ts = ts.length := by
  induction ts with
  | nil => rfl
  | cons t ts ih =>
    have ht : t.size = 1 := size_of_childless (h t List.mem_cons_self)
    have hts : sizes ts = ts.length := ih (fun u hu => h u (List.mem_cons_of_mem t hu))
    rw [sizes, ht, hts, List.length_cons, add_comm]

/-- A flat family. -/
theorem size_of_childless_children {t : ProcessTree α W}
    (h : ∀ c ∈ t.children, c.children = []) : t.size = t.children.length + 1 := by
  cases t with
  | node r w ts =>
    have hts : sizes ts = ts.length := sizes_of_childless h
    rw [size, hts, children, add_comm]

end ProcessTree

inductive Family (F : Forking I W) : Prog I α → W → ProcessTree α W → Prop where
  | waiting {c : I.Call} {k : I.Answer c → Prog I α} {w : W} :
      Family F (.call c k) w (.node none w [])
  | ret {x : α} {w : W} : Family F (.ret x) w (.node (some x) w [])
  | call {c : I.Call} {k : I.Answer c → Prog I α} {w : W} {t : ProcessTree α W} (a : I.Answer c)
      (hc : c ≠ F.fork) (ha : F.env.legal w c a) (h : Family F (k a) (F.env.effect w c a) t) :
      Family F (.call c k) w t
  | fork {k : I.Answer F.fork → Prog I α} {w : W} {t child : ProcessTree α W} (a : I.Answer F.fork)
      (ha : F.env.legal w F.fork a) (hparent : Family F (k a) (F.env.effect w F.fork a) t)
      (hchild : Family F (k F.inChild) (F.spawn w) child) :
      Family F (.call F.fork k) w (t.withChild child)
  | loop {σ β : Type} {body : σ → Prog I (σ ⊕ β)} {s : σ} {k : β → Prog I α} {w : W}
      {t : ProcessTree α W} (h : Family F ((body s).bind (Prog.again body k)) w t) :
      Family F (.loop body s k) w t

variable {F : Forking I W}

/-- What holds of every family of a process. -/
def Families (F : Forking I W) (post : ProcessTree α W → Prop) (p : Prog I α) (w : W) : Prop :=
  ∀ t, Family F p w t → post t

variable {post : ProcessTree α W → Prop}

theorem Families.mono {post' : ProcessTree α W → Prop} {p : Prog I α} {w : W}
    (h : Families F post p w) (hpost : ∀ t, post t → post' t) : Families F post' p w :=
  fun t ht => hpost t (h t ht)

theorem Families.ret {x : α} {w : W} (h : post (.node (some x) w [])) :
    Families F post (.ret x) w := by
  intro t ht
  cases ht with
  | ret => exact h

theorem Families.call {c : I.Call} {k : I.Answer c → Prog I α} {w : W} (hc : c ≠ F.fork)
    (hwait : post (.node none w []))
    (hk : ∀ a, F.env.legal w c a → Families F post (k a) (F.env.effect w c a)) :
    Families F post (.call c k) w := by
  intro t ht
  cases ht with
  | waiting => exact hwait
  | call a _ ha h => exact hk a ha t h
  | fork => exact absurd rfl hc

/-- At a fork the parent goes on with one more child. -/
theorem Families.fork {k : I.Answer F.fork → Prog I α} {w : W} {b : I.Answer F.fork}
    (postChild : ProcessTree α W → Prop) (hb : F.inChild = b) (hwait : post (.node none w []))
    (hchild : Families F postChild (k b) (F.spawn w))
    (hparent : ∀ a child, F.env.legal w F.fork a → postChild child →
      Families F (fun t => post (t.withChild child)) (k a) (F.env.effect w F.fork a)) :
    Families F post (.call F.fork k) w := by
  intro t ht
  cases ht with
  | waiting => exact hwait
  | call _ hc => exact absurd rfl hc
  | fork a ha hp hc => exact hparent a _ ha (hchild _ (hb ▸ hc)) _ hp

/-! ## Parts that do not fork -/

/-- A program that does not fork. -/
abbrev Single (F : Forking I W) (p : Prog I α) : Prop := OnlyCalls (· ≠ F.fork) p

theorem Single.again {σ : Type} {body : σ → Prog I (σ ⊕ β)} {k : β → Prog I α}
    (hbody : ∀ s, Single F (body s)) (hk : ∀ b, Single F (k b)) (s : σ) :
    Single F ((body s).bind (Prog.again body k)) := by
  apply (hbody s).bind
  intro r
  cases r with
  | inl s => exact .loop hbody hk
  | inr b => exact hk b

/-- A family of `p.bind f` waits in `p`, or is one of `f x` for a result `x` of `p`. -/
theorem Family.bind_cases {p : Prog I α} {f : α → Prog I β} {w : W} {t : ProcessTree β W}
    (h : Family F (p.bind f) w t) (hsingle : Single F p) :
    (∃ x w', Reaches F.env (p, w) (.ret x, w') ∧ Family F (f x) w' t) ∨
      ∃ c k w', Reaches F.env (p, w) (.call c k, w') ∧ t = .node none w' [] := by
  generalize hq : p.bind f = q at h
  induction h generalizing p with
  | waiting =>
    cases p with
    | ret x =>
      have hq : f x = _ := hq
      exact .inl ⟨x, _, .refl, hq ▸ .waiting⟩
    | call c k => exact .inr ⟨c, k, _, .refl, rfl⟩
    | loop body s k => simp [Prog.bind] at hq
  | ret =>
    cases p with
    | ret x =>
      have hq : f x = _ := hq
      exact .inl ⟨x, _, .refl, hq ▸ .ret⟩
    | call c k => simp [Prog.bind] at hq
    | loop body s k => simp [Prog.bind] at hq
  | call a hc ha h ih =>
    cases p with
    | ret x =>
      have hq : f x = _ := hq
      exact .inl ⟨x, _, .refl, hq ▸ .call a hc ha h⟩
    | call c k =>
      obtain ⟨rfl, rfl⟩ : c = _ ∧ HEq _ _ := Prog.call.inj hq
      cases hsingle with
      | call _ hk =>
        have hstep : Step F.env (.call c k, _) (k a, _) := .call a ha
        rcases ih (hk a) rfl with ⟨x, w', hr, hx⟩ | ⟨c', k', w', hr, ht⟩
        · exact .inl ⟨x, w', .head hstep hr, hx⟩
        · exact .inr ⟨c', k', w', .head hstep hr, ht⟩
    | loop body s k => simp [Prog.bind] at hq
  | fork a ha hparent hchild =>
    cases p with
    | ret x =>
      have hq : f x = _ := hq
      exact .inl ⟨x, _, .refl, hq ▸ .fork a ha hparent hchild⟩
    | call c k =>
      cases hsingle with
      | call hc => exact absurd (Prog.call.inj hq).1 hc
    | loop body s k => simp [Prog.bind] at hq
  | loop h ih =>
    cases p with
    | ret x =>
      have hq : f x = _ := hq
      exact .inl ⟨x, _, .refl, hq ▸ .loop h⟩
    | call c k => simp [Prog.bind] at hq
    | loop body s k =>
      cases hq
      cases hsingle with
      | loop hbody hk =>
        rcases ih (Single.again hbody hk _) (Prog.again_bind ..) with
          ⟨x, w', hr, hx⟩ | ⟨c', k', w', hr, ht⟩
        · exact .inl ⟨x, w', .head .loop hr, hx⟩
        · exact .inr ⟨c', k', w', .head .loop hr, ht⟩

/-- A process waiting for the answer of a call meets the guard of the call. -/
theorem Families.bind {p : Prog I α} {f : α → Prog I β} {w : W} {post : ProcessTree β W → Prop}
    (guard : W → I.Call → Prop) (hsingle : Single F p)
    (hwait : ∀ w c, guard w c → post (.node none w []))
    (hp : Safe F.env guard (fun x w => Families F post (f x) w) p w) :
    Families F post (p.bind f) w := by
  intro t ht
  rcases ht.bind_cases hsingle with ⟨x, w', hr, hx⟩ | ⟨c, k, w', hr, rfl⟩
  · exact hp (.ret x) w' hr t hx
  · exact hwait w' c (hp (.call c k) w' hr)

theorem Families.of_safe {p : Prog I α} {w : W} (guard : W → I.Call → Prop)
    (hsingle : Single F p) (hwait : ∀ w c, guard w c → post (.node none w []))
    (hp : Safe F.env guard (fun x w => post (.node (some x) w [])) p w) :
    Families F post p w := by
  rw [← Prog.bind_ret p]
  exact Families.bind guard hsingle hwait (hp.mono (fun _ _ h => Families.ret h))

/-! ## Families in which everybody returns -/

/-- The process and its children can all return. -/
def Completes (F : Forking I W) (p : Prog I α) (w : W) : Prop :=
  ∃ t, Family F p w t ∧ t.result ≠ none ∧ ∀ c ∈ t.children, c.result ≠ none

theorem Completes.ret (x : α) (w : W) : Completes F (.ret x) w :=
  ⟨_, .ret, nofun, nofun⟩

theorem Completes.call {c : I.Call} {k : I.Answer c → Prog I α} {w : W} (hc : c ≠ F.fork)
    (a : I.Answer c) (ha : F.env.legal w c a) (h : Completes F (k a) (F.env.effect w c a)) :
    Completes F (.call c k) w := by
  obtain ⟨t, ht, hdone⟩ := h
  exact ⟨t, .call a hc ha ht, hdone⟩

theorem Completes.fork {k : I.Answer F.fork → Prog I α} {w : W} {b : I.Answer F.fork}
    (hb : F.inChild = b) (a : I.Answer F.fork) (ha : F.env.legal w F.fork a)
    (hchild : Completes F (k b) (F.spawn w))
    (hparent : Completes F (k a) (F.env.effect w F.fork a)) :
    Completes F (.call F.fork k) w := by
  obtain ⟨child, hc, hresult, -⟩ := hchild
  obtain ⟨t, ht, hdone, hall⟩ := hparent
  refine ⟨_, .fork a ha ht (hb ▸ hc), hdone, fun c hmem => ?_⟩
  rcases List.mem_cons.mp hmem with rfl | hmem
  · exact hresult
  · exact hall c hmem

theorem Single.step {p p' : Prog I α} {w w' : W} (hp : Single F p)
    (hstep : Step F.env (p, w) (p', w')) : Single F p' := by
  cases hstep with
  | call a _ =>
    cases hp with
    | call _ hk => exact hk a
  | loop =>
    cases hp with
    | loop hbody hk => exact Single.again hbody hk _
  | drift _ => exact hp

theorem Family.of_step (hF : F.env.Still) {p p' : Prog I α} {w w' : W} {f : α → Prog I β}
    {t : ProcessTree β W} (hp : Single F p) (hstep : Step F.env (p, w) (p', w'))
    (h : Family F (p'.bind f) w' t) : Family F (p.bind f) w t := by
  cases hstep with
  | call a ha =>
    cases hp with
    | call hc _ => exact .call a hc ha h
  | loop => exact .loop ((Prog.again_bind ..).symm ▸ h)
  | drift hd => exact absurd hd (hF w w')

/-- A program that does not fork can be run first. -/
theorem Family.of_reaches (hF : F.env.Still) {p : Prog I α} {w w' : W} {x : α}
    {f : α → Prog I β} {t : ProcessTree β W} (hp : Single F p)
    (hr : Reaches F.env (p, w) (.ret x, w')) (h : Family F (f x) w' t) :
    Family F (p.bind f) w t := by
  generalize hc : (p, w) = c at hr
  induction hr using Relation.ReflTransGen.head_induction_on generalizing p w with
  | refl =>
    obtain ⟨rfl, rfl⟩ := Prod.mk.inj hc
    exact h
  | head hstep _ ih =>
    subst hc
    exact .of_step hF hp hstep (ih (hp.step hstep) rfl)

theorem Completes.bind (hF : F.env.Still) {p : Prog I α} {w : W} {f : α → Prog I β}
    {done : α → W → Prop} (hsingle : Single F p) (hp : Returns F.env done p w)
    (hf : ∀ x w', Completes F (f x) w') : Completes F (p.bind f) w := by
  obtain ⟨x, w', hr, -⟩ := hp
  obtain ⟨t, ht, hdone⟩ := hf x w'
  exact ⟨t, .of_reaches hF hsingle hr ht, hdone⟩

theorem Completes.of_returns (hF : F.env.Still) {p : Prog I α} {w : W} {done : α → W → Prop}
    (hsingle : Single F p) (hp : Returns F.env done p w) : Completes F p w := by
  rw [← Prog.bind_ret p]
  exact Completes.bind hF hsingle hp (fun x w' => .ret x w')

end CloningApps.Interaction
