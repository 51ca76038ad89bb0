import CloningApps.Interaction.Safe

/-! # What a program leaves alone

A program that makes only certain calls keeps every property that those calls keep.
-/

namespace CloningApps.Interaction
variable {I : Interface} {W α β : Type}

inductive OnlyCalls (K : I.Call → Prop) : {α : Type} → Prog I α → Prop where
  | ret {α : Type} (x : α) : OnlyCalls K (.ret x)
  | call {α : Type} {c : I.Call} {k : I.Answer c → Prog I α} (hc : K c)
      (hk : ∀ a, OnlyCalls K (k a)) : OnlyCalls K (.call c k)
  | loop {α σ β : Type} {body : σ → Prog I (σ ⊕ β)} {s : σ} {k : β → Prog I α}
      (hbody : ∀ s, OnlyCalls K (body s)) (hk : ∀ b, OnlyCalls K (k b)) :
      OnlyCalls K (.loop body s k)

theorem OnlyCalls.mono {K K' : I.Call → Prop} {p : Prog I α} (hp : OnlyCalls K p)
    (h : ∀ c, K c → K' c) : OnlyCalls K' p := by
  induction hp with
  | ret x => exact .ret x
  | call hc _ ih => exact .call (h _ hc) ih
  | loop _ _ ihbody ihk => exact .loop ihbody ihk

theorem OnlyCalls.bind {K : I.Call → Prop} {p : Prog I α} {f : α → Prog I β}
    (hp : OnlyCalls K p) (hf : ∀ x, OnlyCalls K (f x)) : OnlyCalls K (p.bind f) := by
  induction hp with
  | ret x => exact hf x
  | call hc _ ih => exact .call hc (fun a => ih a hf)
  | loop hbody _ _ ih => exact .loop hbody (fun b => ih b hf)

theorem OnlyCalls.answered {K : I.Call → Prop} {c : I.Call} {k : I.Answer c → Prog I α}
    (h : OnlyCalls K (.call c k)) (a : I.Answer c) : OnlyCalls K (k a) := by
  cases h with
  | call _ hk => exact hk a

/-- The frame rule. -/
theorem Safe.frame {E : Env I W} {guard : W → I.Call → Prop} {K : I.Call → Prop} (P : W → Prop)
    (hstable : E.Stable P) (hguard : ∀ w c, K c → P w → guard w c)
    (hkeep : ∀ w c a, K c → P w → E.legal w c a → P (E.effect w c a)) {p : Prog I α}
    (hp : OnlyCalls K p) {w : W} (hw : P w) : Safe E guard (fun _ w => P w) p w := by
  induction hp generalizing w with
  | ret x => exact Safe.ret_stable P hstable x (fun _ h => h) hw
  | call hc _ ih =>
    exact Safe.call_stable P hstable (fun w => hguard w _ hc)
      (fun w a h ha => ih a (hkeep w _ a hc h ha)) hw
  | loop _ _ ihbody ihk =>
    refine Safe.loop (fun _ => P) (fun _ => hstable) (fun s w h => ?_) hw
    apply (ihbody s h).mono
    intro r w h
    cases r with
    | inl s => exact h
    | inr b => exact ihk b h

end CloningApps.Interaction
