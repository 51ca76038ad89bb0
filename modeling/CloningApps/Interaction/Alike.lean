import CloningApps.Interaction.Embed

/-! # Programs that differ in hidden calls

Some calls are not to be seen. `Follows` says that whatever a program does, another
one does too, in the same worlds, the hidden calls apart and whatever they are answered
with. `Alike` compares two programs call by call, with an invariant on both states for
each loop, and programs that are alike follow each other. A program that follows
itself is not moved by the answers to its hidden calls; otherwise these decide some
call.
-/

namespace CloningApps.Interaction

variable {I J : Interface} {W α α' β β' : Type} {hidden : I.Call → Bool}
  {ok : (c : I.Call) → I.Answer c → Prop}

/-- The answers to the hidden calls, one after the other. -/
abbrev Oracle (I : Interface) (hidden : I.Call → Bool) : Type :=
  ℕ → (c : I.Call) → hidden c = true → I.Answer c

/-- A world in which an oracle answers the hidden calls, with the number of its answers. -/
def Env.given (E : Env I W) (f : Oracle I hidden) : Env I (W × ℕ) where
  legal := fun w c a => if h : hidden c = true then a = f w.2 c h else E.legal w.1 c a
  effect := fun w c a => if hidden c = true then (w.1, w.2 + 1) else (E.effect w.1 c a, w.2)
  drift := fun w w' => E.drift w.1 w'.1 ∧ w'.2 = w.2

/-- The answers of an oracle are of a sort. -/
def Answers (ok : (c : I.Call) → I.Answer c → Prop) (f : Oracle I hidden) : Prop :=
  ∀ n c h, ok c (f n c h)

/-- A program comes to every call and every result that the other comes to, in the same world,
while all answers are of a sort. -/
def Follows (hidden : I.Call → Bool) (ok : (c : I.Call) → I.Answer c → Prop)
    (p' p : Prog I α) : Prop :=
  ∀ (W : Type) (E : Env I W), (∀ w c a, E.legal w c a → ok c a) →
    ∀ f f' : Oracle I hidden, Answers ok f → Answers ok f' → ∀ (w v : W) (n : ℕ),
      (∀ (c : I.Call) k, hidden c = false → Reaches (E.given f) (p, w, 0) (.call c k, v, n) →
        ∃ k' m, Reaches (E.given f') (p', w, 0) (.call c k', v, m)) ∧
      ∀ x, Reaches (E.given f) (p, w, 0) (.ret x, v, n) →
        ∃ m, Reaches (E.given f') (p', w, 0) (.ret x, v, m)

/-- The answers to the hidden calls decide nothing. -/
def Unmoved (hidden : I.Call → Bool) (ok : (c : I.Call) → I.Answer c → Prop) (p : Prog I α) :
    Prop :=
  Follows hidden ok p p

/-- In some environment it is for the answers to the hidden calls to decide whether the program
ever comes to this call. -/
def Decide (hidden : I.Call → Bool) (ok : (c : I.Call) → I.Answer c → Prop) (p : Prog I α)
    (c : I.Call) : Prop :=
  ∃ (W : Type) (E : Env I W) (f f' : Oracle I hidden) (w : W),
    (∀ w c a, E.legal w c a → ok c a) ∧ Answers ok f ∧ Answers ok f' ∧
      (∃ k v n, Reaches (E.given f) (p, w, 0) (.call c k, v, n)) ∧
      ¬ ∃ k v n, Reaches (E.given f') (p, w, 0) (.call c k, v, n)

theorem Decide.not_unmoved {p : Prog I α} {c : I.Call} (h : Decide hidden ok p c)
    (hc : hidden c = false) : ¬ Unmoved hidden ok p := by
  obtain ⟨W, E, f, f', w, hE, hf, hf', ⟨k, v, n, hr⟩, hnever⟩ := h
  intro hunmoved
  obtain ⟨k', m, hr'⟩ := (hunmoved W E hE f f' hf hf' w v n).1 c k hc hr
  exact hnever ⟨k', v, m, hr'⟩

/-! ## Programs that make the same calls -/

/-- Two programs that make the same calls, the hidden ones apart, while the answers are of a
sort, and whose results are related. -/
inductive Alike (hidden : I.Call → Bool) (ok : (c : I.Call) → I.Answer c → Prop) :
    {α α' : Type} → (α → α' → Prop) → Prog I α → Prog I α' → Prop where
  | ret {α α' : Type} {R : α → α' → Prop} {x : α} {x' : α'} (h : R x x') :
      Alike hidden ok R (.ret x) (.ret x')
  | call {α α' : Type} {R : α → α' → Prop} {c : I.Call} {k : I.Answer c → Prog I α}
      {k' : I.Answer c → Prog I α'} (hc : hidden c = false)
      (hk : ∀ a, ok c a → Alike hidden ok R (k a) (k' a)) :
      Alike hidden ok R (.call c k) (.call c k')
  | left {α α' : Type} {R : α → α' → Prop} {c : I.Call} {k : I.Answer c → Prog I α}
      {p' : Prog I α'} (hc : hidden c = true) (hk : ∀ a, ok c a → Alike hidden ok R (k a) p') :
      Alike hidden ok R (.call c k) p'
  | right {α α' : Type} {R : α → α' → Prop} {c : I.Call} {k' : I.Answer c → Prog I α'}
      {p : Prog I α} (hc : hidden c = true) (hk : ∀ a, ok c a → Alike hidden ok R p (k' a)) :
      Alike hidden ok R p (.call c k')
  | loop {α α' σ σ' β β' : Type} {R : α → α' → Prop} {body : σ → Prog I (σ ⊕ β)}
      {body' : σ' → Prog I (σ' ⊕ β')} {s : σ} {s' : σ'} {k : β → Prog I α} {k' : β' → Prog I α'}
      (S : σ → σ' → Prop) (B : β → β' → Prop)
      (hbody : ∀ s s', S s s' → Alike hidden ok (Sum.LiftRel S B) (body s) (body' s'))
      (hs : S s s') (hk : ∀ b b', B b b' → Alike hidden ok R (k b) (k' b')) :
      Alike hidden ok R (.loop body s k) (.loop body' s' k')

theorem Alike.mono {R Q : α → α' → Prop} {p : Prog I α} {p' : Prog I α'}
    (h : Alike hidden ok R p p') (hRQ : ∀ x x', R x x' → Q x x') : Alike hidden ok Q p p' := by
  induction h with
  | ret h => exact .ret (hRQ _ _ h)
  | call hc _ ih => exact .call hc (fun a ha => ih a ha hRQ)
  | left hc _ ih => exact .left hc (fun a ha => ih a ha hRQ)
  | right hc _ ih => exact .right hc (fun a ha => ih a ha hRQ)
  | loop S B hbody hs _ _ ihk => exact .loop S B hbody hs (fun b b' hb => ihk b b' hb hRQ)

theorem Alike.bind {R : α → α' → Prop} {Q : β → β' → Prop} {p : Prog I α} {p' : Prog I α'}
    {f : α → Prog I β} {f' : α' → Prog I β'} (h : Alike hidden ok R p p')
    (hf : ∀ x x', R x x' → Alike hidden ok Q (f x) (f' x')) :
    Alike hidden ok Q (p.bind f) (p'.bind f') := by
  induction h with
  | ret h => exact hf _ _ h
  | call hc _ ih => exact .call hc (fun a ha => ih a ha hf)
  | left hc _ ih => exact .left hc (fun a ha => ih a ha hf)
  | right hc _ ih => exact .right hc (fun a ha => ih a ha hf)
  | loop S B hbody hs _ _ ihk => exact .loop S B hbody hs (fun b b' hb => ihk b b' hb hf)

theorem Alike.symm {R : α → α' → Prop} {p : Prog I α} {p' : Prog I α'}
    (h : Alike hidden ok R p p') : Alike hidden ok (fun x' x => R x x') p' p := by
  induction h with
  | ret h => exact .ret h
  | call hc _ ih => exact .call hc ih
  | left hc _ ih => exact .right hc ih
  | right hc _ ih => exact .left hc ih
  | loop S B _ hs _ ihbody ihk =>
    refine .loop (fun s' s => S s s') (fun b' b => B b b') ?_ hs (fun b' b hb => ihk b b' hb)
    intro s' s hs
    apply (ihbody s s' hs).mono
    rintro x x' (hx | hx)
    · exact .inl hx
    · exact .inr hx

/-- A program without hidden calls is alike to itself. -/
theorem OnlyCalls.alike {p : Prog I α} (h : OnlyCalls (fun c => hidden c = false) p) :
    Alike hidden ok Eq p p := by
  induction h with
  | ret x => exact .ret rfl
  | call hc _ ih => exact .call hc (fun a _ => ih a)
  | loop _ _ ihbody ihk =>
    refine .loop Eq Eq ?_ rfl ?_
    · rintro s _ rfl
      exact (ihbody s).mono (by rintro x _ rfl; cases x <;> constructor <;> rfl)
    · rintro b _ rfl
      exact ihk b

/-- Programs that are alike are so behind a larger interface. -/
theorem Alike.lift {ι : Embedding I J} {hidden' : J.Call → Bool}
    {ok' : (c : J.Call) → J.Answer c → Prop} (hhidden : ∀ c, hidden' (ι.call c) = hidden c)
    (hok : ∀ c a, ok' (ι.call c) a → ok c (ι.answer c a)) {R : α → α' → Prop} {p : Prog I α}
    {p' : Prog I α'} (h : Alike hidden ok R p p') :
    Alike hidden' ok' R (p.lift ι) (p'.lift ι) := by
  induction h with
  | ret h => exact .ret h
  | call hc _ ih => exact .call ((hhidden _).trans hc) (fun a ha => ih _ (hok _ a ha))
  | left hc _ ih => exact .left ((hhidden _).trans hc) (fun a ha => ih _ (hok _ a ha))
  | right hc _ ih => exact .right ((hhidden _).trans hc) (fun a ha => ih _ (hok _ a ha))
  | loop S B _ hs _ ihbody ihk => exact .loop S B ihbody hs ihk

/-! ## Their runs -/

section Runs
variable {E : Env I W} {f f' : Oracle I hidden} {R : α → α' → Prop} {p q : Prog I α}
  {p' : Prog I α'} {w v : W} {n m : ℕ}

theorem Step.hidden_call {c : I.Call} (hc : hidden c = true) (k : I.Answer c → Prog I α) (w : W)
    (n : ℕ) : Step (E.given f) (.call c k, w, n) (k (f n c hc), w, n + 1) := by
  have hlegal : (E.given f).legal (w, n) c (f n c hc) := by simp [Env.given, hc]
  simpa [Env.given, hc] using Step.call (k := k) (f n c hc) hlegal

theorem Step.open_call {c : I.Call} (hc : hidden c = false) (k : I.Answer c → Prog I α) {w : W}
    (n : ℕ) {a : I.Answer c} (ha : E.legal w c a) :
    Step (E.given f) (.call c k, w, n) (k a, E.effect w c a, n) := by
  have hlegal : (E.given f).legal (w, n) c a := by simpa [Env.given, hc] using ha
  simpa [Env.given, hc] using Step.call (k := k) a hlegal

theorem Step.drift_given {w v : W} (hd : E.drift w v) (p : Prog I α) (n : ℕ) :
    Step (E.given f) (p, w, n) (p, v, n) :=
  .drift ⟨hd, rfl⟩

/-- A program at a call is answered, by the oracle or by the world, or the world changes. -/
theorem Step.given_cases {c : I.Call} {k : I.Answer c → Prog I α} {q : Prog I α} {w v : W}
    {n m : ℕ} (h : Step (E.given f) (.call c k, w, n) (q, v, m)) :
    (∃ hc : hidden c = true, q = k (f n c hc) ∧ v = w) ∨
      (hidden c = false ∧ ∃ a, E.legal w c a ∧ q = k a ∧ v = E.effect w c a) ∨
      q = .call c k ∧ E.drift w v := by
  generalize hy : (v, m) = y at h
  cases h with
  | call a ha =>
    by_cases hc : hidden c = true
    · have hanswer : a = f n c hc := by simpa [Env.given, hc] using ha
      have hworld : (v, m) = (w, n + 1) := by simpa [Env.given, hc] using hy
      exact .inl ⟨hc, congrArg k hanswer, (Prod.mk.inj hworld).1⟩
    · have hlegal : E.legal w c a := by simpa [Env.given, hc] using ha
      have hworld : (v, m) = (E.effect w c a, n) := by simpa [Env.given, hc] using hy
      exact .inr (.inl ⟨by simpa using hc, a, hlegal, rfl, (Prod.mk.inj hworld).1⟩)
  | drift hd =>
    subst hy
    exact .inr (.inr ⟨rfl, hd.1⟩)

section Following
variable (hE : ∀ w c a, E.legal w c a → ok c a) (hf : Answers ok f) (hf' : Answers ok f')
include hE hf hf'

/-- What one of two programs does the other can do. -/
theorem Alike.step (h : Alike hidden ok R p p') (n' : ℕ)
    (hs : Step (E.given f) (p, w, n) (q, v, m)) :
    ∃ q' m', Reaches (E.given f') (p', w, n') (q', v, m') ∧ Alike hidden ok R q q' := by
  induction h generalizing n n' m with
  | ret h =>
    cases hs with
    | drift hd => exact ⟨_, n', .single (.drift_given hd.1 _ _), .ret h⟩
  | call hc hk _ =>
    rcases hs.given_cases with ⟨hhidden, -, -⟩ | ⟨-, a, ha, rfl, rfl⟩ | ⟨rfl, hd⟩
    · exact absurd (hc.symm.trans hhidden) (by decide)
    · exact ⟨_, n', .single (.open_call hc _ _ ha), hk a (hE _ _ _ ha)⟩
    · exact ⟨_, n', .single (.drift_given hd _ _), .call hc hk⟩
  | left hc hk _ =>
    rcases hs.given_cases with ⟨-, rfl, rfl⟩ | ⟨hopen, -⟩ | ⟨rfl, hd⟩
    · exact ⟨_, n', .refl, hk _ (hf _ _ _)⟩
    · exact absurd (hc.symm.trans hopen) (by decide)
    · exact ⟨_, n', .single (.drift_given hd _ _), .left hc hk⟩
  | right hc _ ih =>
    obtain ⟨q', m', hr, halike⟩ := ih _ (hf' n' _ hc) (n' + 1) hs
    exact ⟨q', m', .head (.hidden_call hc _ _ _) hr, halike⟩
  | loop S B hbody hstate hk =>
    cases hs with
    | loop =>
      refine ⟨_, n', .single .loop, (hbody _ _ hstate).bind (fun r r' hr => ?_)⟩
      cases hr with
      | inl hr => exact .loop S B hbody hr hk
      | inr hr => exact hk _ _ hr
    | drift hd => exact ⟨_, n', .single (.drift_given hd.1 _ _), .loop S B hbody hstate hk⟩

theorem Alike.reaches (h : Alike hidden ok R p p') (n' : ℕ)
    (hr : Reaches (E.given f) (p, w, n) (q, v, m)) :
    ∃ q' m', Reaches (E.given f') (p', w, n') (q', v, m') ∧ Alike hidden ok R q q' := by
  have hstart : ∃ q' m', Reaches (E.given f') (p', w, n') (q', w, m') ∧ Alike hidden ok R p q' :=
    ⟨p', n', .refl, h⟩
  refine hr.closed (fun q x => ∃ q' m', Reaches (E.given f') (p', w, n') (q', x.1, m') ∧
    Alike hidden ok R q q') ?_ hstart
  rintro q ⟨v, m⟩ r ⟨u, l⟩ ⟨q', m', hr, halike⟩ hs
  obtain ⟨r', l', hr', halike'⟩ := halike.step hE hf hf' m' hs
  exact ⟨r', l', hr.trans hr', halike'⟩

end Following

/-- A program comes to the call that one alike to it is at. -/
theorem Alike.at_call (h : Alike hidden ok R p p') (hf : Answers ok f) {c : I.Call}
    (hc : hidden c = false) {k : I.Answer c → Prog I α} (hp : p = .call c k) (w : W) (n : ℕ) :
    ∃ k' m, Reaches (E.given f) (p', w, n) (.call c k', w, m) := by
  induction h generalizing n with
  | ret h => cases hp
  | call hc' hk _ =>
    cases hp
    exact ⟨_, n, .refl⟩
  | left hc' _ _ =>
    cases hp
    exact absurd (hc'.symm.trans hc) (by decide)
  | right hc' _ ih =>
    obtain ⟨k', m, hr⟩ := ih _ (hf n _ hc') hp (n + 1)
    exact ⟨k', m, .head (.hidden_call hc' _ _ _) hr⟩
  | loop => cases hp

theorem Alike.at_ret (h : Alike hidden ok R p p') (hf : Answers ok f) {x : α} (hp : p = .ret x)
    (w : W) (n : ℕ) : ∃ x' m, R x x' ∧ Reaches (E.given f) (p', w, n) (.ret x', w, m) := by
  induction h generalizing n with
  | ret h =>
    cases hp
    exact ⟨_, n, h, .refl⟩
  | call => cases hp
  | left => cases hp
  | right hc' _ ih =>
    obtain ⟨x', m, hx, hr⟩ := ih _ (hf n _ hc') hp (n + 1)
    exact ⟨x', m, hx, .head (.hidden_call hc' _ _ _) hr⟩
  | loop => cases hp

end Runs

theorem Alike.follows {p p' : Prog I α} (h : Alike hidden ok Eq p p') :
    Follows hidden ok p' p := by
  intro W E hE f f' hf hf' w v n
  refine ⟨fun c k hc hr => ?_, fun x hr => ?_⟩
  · obtain ⟨q', m', hr', halike⟩ := h.reaches hE hf hf' 0 hr
    obtain ⟨k', m, hcall⟩ := halike.at_call hf' hc rfl v m'
    exact ⟨k', m, hr'.trans hcall⟩
  · obtain ⟨q', m', hr', halike⟩ := h.reaches hE hf hf' 0 hr
    obtain ⟨_, m, rfl, hret⟩ := halike.at_ret hf' rfl v m'
    exact ⟨m, hr'.trans hret⟩

end CloningApps.Interaction
