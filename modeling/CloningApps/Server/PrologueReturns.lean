import CloningApps.Interaction.Exec
import CloningApps.Server.PrologueResources

/-! # A prologue that succeeds

In a world that allows every outcome of the calls of the prologue, some run of
the prologue returns `0`: each call does what was asked of it and the first
acknowledgement arrives.
-/

namespace CloningApps.Server
open Text Interaction Os Cmdline Net

variable {W α : Type} {E : Env system W} {w : W} {P : α → Prop}

/-- The calls of the prologue may have any outcome, and change nothing. -/
def Indifferent (E : Env system W) (w : W) : Prop :=
  ∀ c a, PrologueCall c → E.legal w c a ∧ E.effect w c a = w

/-- Some run returns, in an unchanged world. -/
def ReturnsWith (E : Env system W) (P : α → Prop) (p : SysProg α) (w : W) : Prop :=
  Returns E (fun x w' => P x ∧ w' = w) p w

theorem ReturnsWith.ret {x : α} (h : P x) : ReturnsWith E P (.ret x) w :=
  Returns.ret ⟨h, rfl⟩

theorem ReturnsWith.bind {β : Type} {Q : β → Prop} {p : SysProg α} {f : α → SysProg β}
    (hp : ReturnsWith E P p w) (hf : ∀ x, P x → ReturnsWith E Q (f x) w) :
    ReturnsWith E Q (p.bind f) w := by
  apply Returns.bind hp
  rintro x _ ⟨hx, rfl⟩
  exact hf x hx

theorem Indifferent.call (h : Indifferent E w) {c : Call} {k : c.Answer → SysProg α}
    (a : c.Answer) (hk : ReturnsWith E P (k a) w) (hc : PrologueCall c := by trivial) :
    ReturnsWith E P (.call c k) w := by
  obtain ⟨hlegal, heffect⟩ := h c a hc
  apply Returns.call a hlegal
  rw [heffect]
  exact hk

variable (h : Indifferent E w)
include h

theorem mysocketInit_succeeds_once (os : Platform) (sock : Mysocket) (port : Port) :
    ReturnsWith E (fun r => r.1 = 0) (mysocketInit os .report sock .dgram port) w := by
  have hreuse : ∀ s, ReturnsWith E (fun rc => rc = 0) (reuseAddress os s) w := by
    intro s
    unfold reuseAddress
    split
    · exact .ret rfl
    · apply h.call (0 : ℤ)
      exact .ret rfl
  apply h.call (0 : ℤ)
  simp only [Prog.bind, lt_irrefl, if_false]
  apply ReturnsWith.bind (hreuse 0)
  rintro rc rfl
  split
  · exact .ret rfl
  · apply h.call (0 : ℤ)
    exact .ret rfl

theorem mysocketFini_succeeds_once (sock : Mysocket) :
    ReturnsWith E (fun rc => rc = 0) (mysocketFini sock) w := by
  unfold mysocketFini
  split
  · apply h.call ()
    exact .ret rfl
  · exact .ret rfl

theorem sendTime_succeeds_once {g : Globals} (hg : g.doSendTime = true) (sock : Mysocket)
    (tv : Option Timeval) (suffix : Option CStr) :
    ReturnsWith E (fun rc => rc = 0) (sendTime g sock tv suffix) w := by
  let gateway : ℤ × UInt := (0, 0)
  let acknowledged : Option (List Byte) := some [65]
  have hsend : ∀ tv, ReturnsWith E (fun rc => rc = 0) (sendTimeval sock suffix tv) w := by
    intro tv
    apply h.call gateway
    apply Returns.loop
    apply h.call (0 : ℤ)
    apply h.call (0 : ℤ)
    apply h.call acknowledged
    exact .ret rfl
  unfold sendTime
  simp only [hg, Bool.not_true, Bool.false_eq_true, if_false]
  cases tv with
  | some tv => exact hsend tv
  | none =>
    let now : ℤ × Timeval := (0, ⟨0, 0⟩)
    apply h.call now
    exact hsend ⟨0, 0⟩

theorem forkLoop_succeeds_once (os : Platform) (g : Globals) (n : ℕ) (i : ℤ) (sock : Mysocket)
    (myport : Port) : ReturnsWith E (fun p => p.rc = 0) (forkLoop os g n i sock myport) w := by
  let now : ℤ × Timeval := (0, ⟨0, 0⟩)
  induction n generalizing i myport with
  | zero => exact .ret rfl
  | succ n ih =>
    apply h.call now
    apply h.call (1 : ℤ)
    apply h.call now
    simp only [Prog.bind, now, ne_eq, not_true_eq_false, one_ne_zero, if_false]
    split
    next hg =>
      apply ReturnsWith.bind (sendTime_succeeds_once h hg sock _ _)
      exact fun _ _ => ih _ _
    next => exact ih _ _

theorem clonePrologue_succeeds_once (os : Platform) (g : Globals) (sock : Mysocket)
    (myport : Port) : ReturnsWith E (fun r => r.1.rc = 0) (clonePrologue os g sock myport) w := by
  let now : ℤ × Timeval := (0, ⟨0, 0⟩)
  let parent : ℤ × Globals := (0, g)
  apply h.call (0 : UInt)
  apply h.call now
  apply h.call parent
  apply h.call now
  simp only [Prog.bind, now, ne_eq, not_true_eq_false, if_false, if_true]
  split
  next hg =>
    apply ReturnsWith.bind (sendTime_succeeds_once h hg sock _ _)
    exact fun _ _ => .ret rfl
  next => exact .ret rfl

theorem afterReport_succeeds_once (os : Platform) (g : Globals) (su : Mysocket) (myport : Port) :
    ReturnsWith E (fun r => r.1.rc = 0) (afterReport os g su myport) w := by
  unfold afterReport
  split
  · have hfork : ReturnsWith E (fun p => p.rc = 0) (forkPrologue os g su myport) w := by
      unfold forkPrologue
      split
      · apply h.call (0 : ℤ)
        exact .ret rfl
      · exact forkLoop_succeeds_once h ..
    apply hfork.bind
    exact fun p hp => .ret hp
  · split
    · exact clonePrologue_succeeds_once h ..
    · apply ReturnsWith.bind (mysocketFini_succeeds_once h su)
      exact fun rc hrc => .ret hrc

theorem serverPrologue_succeeds_once (os : Platform) (g : Globals) :
    ReturnsWith E (fun r => r.1.rc = 0) (serverPrologue os g) w := by
  apply h.call (0 : ℤ)
  apply h.call (0 : ℤ)
  simp only [Prog.bind, Prog.pure_eq, Prog.bind_eq, Prog.ret_bind]
  split
  next hg =>
    apply ReturnsWith.bind (mysocketInit_succeeds_once h os _ _)
    intro r hr
    simp only [hr, not_true_eq_false, if_false, ne_eq]
    apply ReturnsWith.bind (sendTime_succeeds_once h hg _ _ _)
    rintro rc rfl
    exact afterReport_succeeds_once h ..
  next =>
    apply h.call (0 : ℤ)
    exact afterReport_succeeds_once h ..

end CloningApps.Server
