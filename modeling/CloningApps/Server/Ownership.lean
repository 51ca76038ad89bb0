import CloningApps.Server.CloneRoles
import CloningApps.Server.ForkFamily

/-! # Who owns the descriptors of the prologue

A process may close what its prologue opened, once, and a prologue that fails
has to leave nothing open. Whether it does is decided by a few answers that it
does not handle; the world below remembers whether one of them was given.
-/

namespace CloningApps.Server
open Text Interaction Os Cmdline Net

/-- The descriptors the prologue holds open; whether an acknowledgement has arrived; how many
indeterminate values were used; whether a descriptor was closed that was not held; and whether
there was a mishap. -/
structure Keeper where
  opened : Finset Fd
  acknowledged : Bool
  drawn : ℕ
  stray : Bool
  mishap : Bool

namespace Keeper

def initial : Keeper := ⟨∅, false, 0, false, false⟩

/-- A new descriptor is not in use, and nothing can be bound to a closed one. -/
def legal (w : Keeper) : (c : Call) → c.Answer → Prop
  | .socket .., s => 0 ≤ s → s ∉ w.opened
  | .setReuseAddr _, rc => rc ≤ 0
  | .bind s _, rc => rc ≤ 0 ∧ (s ∉ w.opened → rc < 0)
  | .osClone _ g, r => r.2.doSendTime = g.doSendTime
  | _, _ => True

/-- What the prologue does not handle: without a mode of its own, a descriptor from the stack; a
socket that was closed for want of `SO_REUSEADDR` and is bound; with reporting on, a clock or a
clone call that fails; and anything that keeps the first report from being acknowledged. -/
def goesWrong (g : Globals) (w : Keeper) : (c : Call) → c.Answer → Bool
  | .indeterminate, x => w.drawn = 0 ∧ 0 ≤ x ∧ !g.doSendTime ∧ !g.doFork ∧ !g.doClone
  | .bind s _, _ => s ∉ w.opened
  | .gettimeofday, r => g.doSendTime ∧ r.1 ≠ 0
  | .osClone .., r => g.doSendTime ∧ r.1 < 0
  | .osNetIpGetGw, r => !w.acknowledged ∧ r.1 ≠ 0
  | .sendto .., rc => !w.acknowledged ∧ rc < 0
  | .osSocketSetTimeout .., rc => !w.acknowledged ∧ rc < 0
  | .recv .., data => !w.acknowledged ∧ data = none
  | _, _ => false

def act (w : Keeper) : (c : Call) → c.Answer → Keeper
  | .socket .., s => if 0 ≤ s then { w with opened := insert s w.opened } else w
  | .close s, _ => { w with opened := w.opened.erase s, stray := w.stray || s ∉ w.opened }
  | .recv .., some (_ :: _) => { w with acknowledged := true }
  | .indeterminate, _ => { w with drawn := w.drawn + 1 }
  | _, _ => w

def effect (g : Globals) (w : Keeper) (c : Call) (a : c.Answer) : Keeper :=
  { w.act c a with mishap := w.mishap || w.goesWrong g c a }

end Keeper

def keeperEnv (g : Globals) : Env system Keeper where
  legal := Keeper.legal
  effect := Keeper.effect g
  drift := fun _ _ => False

theorem keeperEnv_still (g : Globals) : (keeperEnv g).Still := fun _ _ h => h

/-- Until a mishap, only descriptors that are held are closed. -/
def ownGuard (w : Keeper) (c : Call) : Prop := ∀ s, c = .close s → s ∈ w.opened ∨ w.mishap = true

/-- Ownership was respected exactly when there was no mishap. -/
def OwnedUnless (rc : ℤ) (w : Keeper) : Prop :=
  w.stray = false ∧ (rc ≠ 0 → w.opened = ∅) ↔ w.mishap = false

abbrev SafeKeeper {α : Type} (g : Globals) (post : α → Keeper → Prop) (p : SysProg α)
    (w : Keeper) : Prop :=
  Safe (keeperEnv g) ownGuard post p w

/-- No mishap so far. -/
structure Calm (w : Keeper) (opened : Finset Fd) (acknowledged : Bool) : Prop where
  opened : w.opened = opened
  acknowledged : w.acknowledged = acknowledged
  drawn : 0 < w.drawn
  stray : w.stray = false
  mishap : w.mishap = false

variable {g : Globals} {w : Keeper} {opened : Finset Fd} {ack : Bool} {rc : ℤ} {s : Fd}

theorem ownGuard_of_ne {c : Call} (h : ∀ s, c ≠ .close s) : ownGuard w c :=
  fun s hs => absurd hs (h s)

theorem Calm.guard (h : Calm w opened ack) (hs : s ∈ opened) : ownGuard w (.close s) := by
  rintro _ ⟨⟩
  exact .inl (h.opened ▸ hs)

theorem Calm.ownedUnless (h : Calm w opened ack) (hopened : rc ≠ 0 → opened = ∅) :
    OwnedUnless rc w :=
  iff_of_true ⟨h.stray, fun hrc => h.opened.trans (hopened hrc)⟩ h.mishap

theorem ownedUnless_of_stray (hstray : w.stray = true) (hmishap : w.mishap = true) :
    OwnedUnless rc w :=
  iff_of_false (fun h => by simp [hstray] at h) (by simp [hmishap])

/-- A code other than `0` with a descriptor still open. -/
theorem ownedUnless_of_open (hrc : rc ≠ 0) (hopened : w.opened ≠ ∅) (hmishap : w.mishap = true) :
    OwnedUnless rc w :=
  iff_of_false (fun h => hopened (h.2 hrc)) (by simp [hmishap])

/-! ## The answers -/

theorem Calm.opens (h : Calm w ∅ ack) (use : SocketUse) (type : SocketType) (hs : 0 ≤ s) :
    Calm (w.effect g (.socket use type) s) {s} ack := by
  refine ⟨?_, ?_, ?_, ?_, ?_⟩
  · simp [Keeper.effect, Keeper.act, hs, h.opened]
  · simpa [Keeper.effect, Keeper.act, hs] using h.acknowledged
  · simpa [Keeper.effect, Keeper.act, hs] using h.drawn
  · simpa [Keeper.effect, Keeper.act, hs] using h.stray
  · simpa [Keeper.effect, Keeper.act, Keeper.goesWrong, hs] using h.mishap

theorem Calm.closes (h : Calm w {s} ack) (a : Unit) : Calm (w.effect g (.close s) a) ∅ ack :=
  ⟨by simp [Keeper.effect, Keeper.act, h.opened], h.acknowledged, h.drawn,
    by simp [Keeper.effect, Keeper.act, h.opened, h.stray],
    by simp [Keeper.effect, Keeper.act, Keeper.goesWrong, h.mishap]⟩

theorem Calm.keeps (h : Calm w opened ack) {c : Call} {a : c.Answer} (hact : w.act c a = w)
    (hright : w.goesWrong g c a = false) : Calm (w.effect g c a) opened ack := by
  have heffect : w.effect g c a = w := by
    simp only [Keeper.effect, hact, hright, Bool.or_false]
  exact heffect.symm ▸ h

theorem Calm.draws (h : Calm w opened ack) (x : ℤ) :
    Calm (w.effect g .indeterminate x) opened ack := by
  have hdrawn : w.drawn ≠ 0 := h.drawn.ne'
  exact ⟨h.opened, h.acknowledged, Nat.succ_pos _, h.stray,
    by simp [Keeper.effect, Keeper.goesWrong, Keeper.act, h.mishap, hdrawn]⟩

theorem Calm.acknowledges (h : Calm w opened ack) (size : ℤ) (b : Byte) (bs : List Byte) :
    Calm (w.effect g (.recv s size) (some (b :: bs))) opened true :=
  ⟨h.opened, rfl, h.drawn, h.stray,
    by simp [Keeper.effect, Keeper.goesWrong, Keeper.act, h.mishap]⟩

/-! ## Sockets -/

theorem reuseAddress_keeper (os : Platform) (h : Calm w {s} ack) :
    SafeKeeper g (fun rc w' => (rc = 0 ∧ Calm w' {s} ack) ∨ (rc < 0 ∧ Calm w' ∅ ack))
      (reuseAddress os s) w := by
  have hE := keeperEnv_still g
  unfold reuseAddress
  split
  · exact Safe.ret hE (.inl ⟨rfl, h⟩)
  · apply Safe.call hE (ownGuard_of_ne (by simp))
    intro (rc : ℤ) hrc
    have hle : rc ≤ 0 := hrc
    have hset : Calm ((keeperEnv g).effect w (.setReuseAddr s) rc) {s} ack := h.keeps rfl rfl
    simp only [Prog.bind]
    split
    next hneg =>
      apply Safe.call hE (hset.guard (by simp))
      intro a _
      exact Safe.ret hE (.inr ⟨hneg, hset.closes a⟩)
    next hneg =>
      have hzero : rc = 0 := le_antisymm hle (not_lt.mp hneg)
      exact Safe.ret hE (.inl ⟨hzero, hset⟩)

/-- A socket is opened and held, or nothing is, or a closed descriptor was bound and closed
again. -/
theorem mysocketInit_keeper (os : Platform) (sock : Mysocket) (port : Port) (h : Calm w ∅ ack) :
    SafeKeeper g
      (fun r w' => (r.1 = 0 ∧ 0 ≤ r.2.s ∧ Calm w' {r.2.s} ack) ∨ (r.1 ≠ 0 ∧ Calm w' ∅ ack) ∨
        (r.1 ≠ 0 ∧ w'.stray = true ∧ w'.mishap = true))
      (mysocketInit os .report sock .dgram port) w := by
  have hE := keeperEnv_still g
  apply Safe.call hE (ownGuard_of_ne (by simp))
  intro (s : ℤ) _
  simp only [Prog.bind]
  split
  next hneg =>
    have hnone : Calm ((keeperEnv g).effect w (.socket .report .dgram) s) ∅ ack := by
      apply h.keeps
      · simp [Keeper.act, not_le.mpr hneg]
      · rfl
    exact Safe.ret hE (.inr (.inl ⟨by simp, hnone⟩))
  next hpos =>
    have hs : 0 ≤ s := not_lt.mp hpos
    apply Safe.bind
    apply (reuseAddress_keeper os (h.opens .report .dgram hs)).mono
    rintro rc w' hreuse
    split
    next =>
      rcases hreuse with ⟨hrc, hcalm⟩ | ⟨hrc, hcalm⟩
      · exact Safe.ret hE (.inl ⟨hrc, hs, hcalm⟩)
      · exact Safe.ret hE (.inr (.inl ⟨hrc.ne, hcalm⟩))
    next =>
      apply Safe.call hE (ownGuard_of_ne (by simp))
      intro (rc' : ℤ) hrc'
      obtain ⟨hle, hclosed⟩ : rc' ≤ 0 ∧ (s ∉ w'.opened → rc' < 0) := hrc'
      simp only [Prog.bind]
      rcases hreuse with ⟨hrc, hcalm⟩ | ⟨hrc, hcalm⟩
      · have hbound : Calm ((keeperEnv g).effect w' (.bind s port) rc') {s} ack := by
          apply hcalm.keeps rfl
          simp [Keeper.goesWrong, hcalm.opened]
        split
        next hneg =>
          apply Safe.call hE (hbound.guard (by simp))
          intro a _
          exact Safe.ret hE (.inr (.inl ⟨hneg.ne, hbound.closes a⟩))
        next hneg =>
          have hzero : rc' = 0 := le_antisymm hle (not_lt.mp hneg)
          exact Safe.ret hE (.inl ⟨hzero, hs, hbound⟩)
      · -- the descriptor is closed already, and is closed once more
        have hnot : s ∉ w'.opened := by simp [hcalm.opened]
        have hneg : rc' < 0 := hclosed hnot
        have hmishap : ((keeperEnv g).effect w' (.bind s port) rc').mishap = true := by
          simp [keeperEnv, Keeper.effect, Keeper.goesWrong, hnot]
        simp only [hneg, if_true]
        apply Safe.call hE (fun _ _ => .inr hmishap)
        intro a _
        apply Safe.ret hE
        refine .inr (.inr ⟨hneg.ne, ?_, ?_⟩)
        · simp [keeperEnv, Keeper.effect, Keeper.act, hnot]
        · simp only [keeperEnv, Keeper.effect] at hmishap ⊢
          simp [hmishap]

theorem mysocketFini_keeper {sock : Mysocket} (hs : 0 ≤ sock.s) (h : Calm w {sock.s} ack) :
    SafeKeeper g (fun rc w' => rc = 0 ∧ Calm w' ∅ ack) (mysocketFini sock) w := by
  have hE := keeperEnv_still g
  simp only [mysocketFini, hs, if_true]
  apply Safe.call hE (h.guard (by simp))
  intro a _
  exact Safe.ret hE ⟨rfl, h.closes a⟩

/-! ## Reports -/

/-- There was a mishap, and the descriptors are still open. -/
def Hung (w : Keeper) (opened : Finset Fd) : Prop := w.opened = opened ∧ w.mishap = true

theorem Calm.hangs (h : Calm w opened ack) {c : Call} {a : c.Answer} (hact : w.act c a = w)
    (hwrong : w.goesWrong g c a = true) : Hung (w.effect g c a) opened := by
  constructor
  · simp only [Keeper.effect, hact, h.opened]
  · simp only [Keeper.effect, hwrong, Bool.or_true]

theorem Hung.ownedUnless (h : Hung w opened) (hrc : rc ≠ 0) (hne : opened ≠ ∅) :
    OwnedUnless rc w :=
  ownedUnless_of_open hrc (h.1 ▸ hne) h.2

/-- Once the first report was acknowledged, a report does nothing to the descriptors. -/
theorem sendTime_keeper (sock : Mysocket) (tv : Timeval) (suffix : Option CStr)
    (g' : Globals) (h : Calm w opened true) :
    SafeKeeper g (fun _ w' => Calm w' opened true) (sendTime g' sock (some tv) suffix) w := by
  refine Safe.frame (Calm · opened true) ((keeperEnv_still g).stable _) ?_ ?_
    (sendTime_sendCalls g' sock tv suffix) h
  · intro w c hc _
    cases c with
    | sendto | recv | osSocketSetTimeout | osNetIpGetGw => exact ownGuard_of_ne (by simp)
    | _ => exact absurd hc id
  · intro w c a hc h _
    cases c with
    | sendto | osSocketSetTimeout | osNetIpGetGw =>
      apply h.keeps rfl
      simp [Keeper.goesWrong, h.acknowledged]
    | recv s size =>
      cases a with
      | none => exact h.keeps rfl (by simp [Keeper.goesWrong, h.acknowledged])
      | some data =>
        cases data with
        | nil => exact h.keeps rfl (by simp [Keeper.goesWrong])
        | cons b bs => exact h.acknowledges size b bs
    | _ => exact absurd hc id

/-- What the first report comes to. -/
def Reported₁ (s : Fd) (rc : ℤ) (w : Keeper) : Prop :=
  (rc = 0 ∧ Calm w {s} true) ∨ (rc ≠ 0 ∧ Hung w {s})

theorem sendRound_keeper (sock : Mysocket) (ip : UInt) (message : CStr)
    (h : Calm w {s} false) :
    SafeKeeper g (fun r w' => Sum.elim (fun _ => Calm w' {s} false) (fun rc => Reported₁ s rc w') r)
      (sendRound sock ip message) w := by
  have hE := keeperEnv_still g
  apply Safe.call hE (ownGuard_of_ne (by simp))
  intro (rc : ℤ) _
  simp only [Prog.bind]
  split
  next hneg =>
    apply Safe.ret hE
    refine .inr ⟨hneg.ne, h.hangs rfl ?_⟩
    simp [Keeper.goesWrong, h.acknowledged, hneg]
  next hpos =>
    have hsent : Calm ((keeperEnv g).effect w (.sendto sock.s ip COLLECTOR_PORT message) rc) {s}
        false := by
      apply h.keeps rfl
      simp [Keeper.goesWrong, not_lt.mp hpos]
    apply Safe.call hE (ownGuard_of_ne (by simp))
    intro (rc' : ℤ) _
    simp only [Prog.bind]
    split
    next hneg =>
      simp only [Prog.pure_eq, Prog.ret_bind, if_pos hneg]
      apply Safe.ret hE
      refine .inr ⟨hneg.ne, hsent.hangs rfl ?_⟩
      simp [Keeper.goesWrong, hsent.acknowledged, hneg]
    next hpos' =>
      have hset : Calm ((keeperEnv g).effect ((keeperEnv g).effect w
          (.sendto sock.s ip COLLECTOR_PORT message) rc)
          (.osSocketSetTimeout sock.s 2000) rc') {s} false := by
        apply hsent.keeps rfl
        simp [Keeper.goesWrong, not_lt.mp hpos']
      apply Safe.call hE (ownGuard_of_ne (by simp))
      intro data _
      cases data with
      | none =>
        apply Safe.ret hE
        refine .inr ⟨by decide, hset.hangs rfl ?_⟩
        simp [Keeper.goesWrong, hset.acknowledged]
      | some data =>
        cases data with
        | nil =>
          apply Safe.ret hE
          exact hset.keeps rfl (by simp [Keeper.goesWrong])
        | cons b bs =>
          have hpos : (0 : ℤ) < (b :: bs).length := by simp
          have hneg : ¬ ((b :: bs).length : ℤ) < 0 := by omega
          simp only [Prog.ret_bind, Prog.pure_eq, if_neg hneg, if_pos hpos]
          apply Safe.ret hE
          exact .inl ⟨rfl, hset.acknowledges 64 b bs⟩

/-- The first report is acknowledged, or the call returns with its socket open. -/
theorem sendTime_first (hg : g.doSendTime = true) (sock : Mysocket)
    (h : Calm w {sock.s} false) :
    SafeKeeper g (Reported₁ sock.s) (sendTime g sock none none) w := by
  have hE := keeperEnv_still g
  unfold sendTime
  simp only [hg, Bool.not_true, Bool.false_eq_true, if_false]
  apply Safe.call hE (ownGuard_of_ne (by simp))
  intro r _
  simp only [Prog.bind]
  split
  next hrc =>
    apply Safe.ret hE
    refine .inr ⟨hrc, h.hangs rfl ?_⟩
    simp [Keeper.goesWrong, hg, hrc]
  next hrc =>
    have htime : Calm ((keeperEnv g).effect w .gettimeofday r) {sock.s} false := by
      apply h.keeps rfl
      simp [Keeper.goesWrong, not_not.mp hrc]
    apply Safe.call hE (ownGuard_of_ne (by simp))
    intro gw _
    simp only [Prog.bind]
    split
    next hrc =>
      apply Safe.ret hE
      refine .inr ⟨hrc, htime.hangs rfl ?_⟩
      simp [Keeper.goesWrong, htime.acknowledged, hrc]
    next hrc =>
      refine Safe.loop (fun _ w => Calm w {sock.s} false) (fun _ => hE.stable _)
        (fun message w hw => ?_) (htime.keeps rfl (by simp [Keeper.goesWrong, not_not.mp hrc]))
      apply (sendRound_keeper sock gw.2 message hw).mono
      intro r w hr
      cases r with
      | inl message => exact hr
      | inr rc => exact Safe.ret hE hr

/-! ## Forking and cloning -/

/-- The descriptor that the prologue holds when it forks or clones. -/
def owned (g : Globals) (sock : Mysocket) : Finset Fd := if g.doSendTime then {sock.s} else ∅

/-- How the prologue comes to fork or to clone. -/
structure Prepared (g : Globals) (sock : Mysocket) (w : Keeper) : Prop where
  calm : Calm w (owned g sock) g.doSendTime
  valid : g.doSendTime = true → 0 ≤ sock.s

variable {sock : Mysocket}

theorem owned_ne_empty (hg : g.doSendTime = true) (sock : Mysocket) : owned g sock ≠ ∅ := by
  simp [owned, hg]

/-- A call whose failure is a mishap with reporting on. -/
theorem Prepared.fails (h : Prepared g sock w) {c : Call} {a : c.Answer} (hact : w.act c a = w)
    (hwrong : w.goesWrong g c a = g.doSendTime) (hrc : rc ≠ 0) :
    OwnedUnless rc (w.effect g c a) := by
  cases hg : g.doSendTime with
  | true =>
    have hung : Hung (w.effect g c a) (owned g sock) := h.calm.hangs hact (hwrong.trans hg)
    exact hung.ownedUnless hrc (owned_ne_empty hg sock)
  | false =>
    have hcalm : Calm (w.effect g c a) (owned g sock) g.doSendTime :=
      h.calm.keeps hact (hwrong.trans hg)
    exact hcalm.ownedUnless (fun _ => by simp [owned, hg])

/-- A clock that fails. -/
theorem Prepared.untimed (h : Prepared g sock w) {r : ℤ × Timeval} (hrc : r.1 ≠ 0) :
    OwnedUnless r.1 (w.effect g .gettimeofday r) :=
  h.fails rfl (by simp [Keeper.goesWrong, hrc]) hrc

/-- A clone call that fails. -/
theorem Prepared.uncloned (h : Prepared g sock w) (n : UInt) {r : ℤ × Globals} (hneg : r.1 < 0) :
    OwnedUnless r.1 (w.effect g (.osClone n g) r) :=
  h.fails rfl (by simp [Keeper.goesWrong, hneg]) hneg.ne

theorem Prepared.timed (h : Prepared g sock w) {r : ℤ × Timeval} (hrc : r.1 = 0) :
    Prepared g sock (w.effect g .gettimeofday r) :=
  ⟨h.calm.keeps rfl (by simp [Keeper.goesWrong, hrc]), h.valid⟩

theorem Prepared.keeps (h : Prepared g sock w) {c : Call} {a : c.Answer} (hact : w.act c a = w)
    (hright : w.goesWrong g c a = false) : Prepared g sock (w.effect g c a) :=
  ⟨h.calm.keeps hact hright, h.valid⟩

theorem Prepared.ownedUnless (h : Prepared g sock w) : OwnedUnless 0 w :=
  h.calm.ownedUnless (fun hrc => absurd rfl hrc)

/-- What forked children and clones do with reporting on, from a socket of their own. -/
theorem ownReport_keeper {α : Type} {post : α → Keeper → Prop} (os : Platform) {g' : Globals}
    (port : Port) {res : Timeval} {suffix : Option CStr} {failed sent : ℤ × Mysocket → α}
    (h : Calm w ∅ true) (hfailed : ∀ r w', OwnedUnless r.1 w' → post (failed r) w')
    (hsent : ∀ r w', OwnedUnless r.1 w' → post (sent r) w') :
    SafeKeeper g post ((mysocketInit os .report sock .dgram port).bind (fun r =>
      if r.1 ≠ 0 then .ret (failed r)
      else (sendTime g' r.2 (some res) suffix).bind (fun _ => .ret (sent r)))) w := by
  have hE := keeperEnv_still g
  apply Safe.bind
  apply (mysocketInit_keeper os sock port h).mono
  rintro r w' (⟨hrc, -, hcalm⟩ | ⟨hrc, hcalm⟩ | ⟨hrc, hstray, hmishap⟩)
  · rw [if_neg (not_not.mpr hrc)]
    apply Safe.bind
    apply (sendTime_keeper r.2 res suffix g' hcalm).mono
    intro _ v hreported
    exact Safe.ret hE (hsent r v (hreported.ownedUnless (fun hne => absurd hrc hne)))
  · rw [if_pos hrc]
    exact Safe.ret hE (hfailed r w' (hcalm.ownedUnless (fun _ => rfl)))
  · rw [if_pos hrc]
    exact Safe.ret hE (hfailed r w' (ownedUnless_of_stray hstray hmishap))

theorem forkChild_keeper (os : Platform) {g' : Globals} (port : Port) (i : ℤ) (res : Timeval)
    (hs : 0 ≤ sock.s) (h : Calm w {sock.s} true) :
    SafeKeeper g (fun p w' => OwnedUnless p.rc w') (forkChild os g' sock port i res) w := by
  have hE := keeperEnv_still g
  apply Safe.bind
  apply (mysocketFini_keeper hs h).mono
  rintro rc w' ⟨rfl, hclosed⟩
  simp only [ne_eq, not_true_eq_false, if_false]
  exact ownReport_keeper os port hclosed (fun _ _ howned => howned) (fun _ _ howned => howned)

theorem cloneChild_keeper (os : Platform) {g' : Globals} (myport : Port) (myparentid : UInt)
    (res : Timeval) (hs : 0 ≤ sock.s) (h : Calm w {sock.s} true) :
    SafeKeeper g (fun r w' => OwnedUnless r.1.rc w')
      (cloneChild os g' sock myport myparentid res) w := by
  have hE := keeperEnv_still g
  apply Safe.bind
  apply (mysocketFini_keeper hs h).mono
  rintro rc w' ⟨rfl, hclosed⟩
  simp only [ne_eq, not_true_eq_false, if_false]
  apply Safe.call hE (ownGuard_of_ne (by simp))
  intro myid _
  have hasked : Calm ((keeperEnv g).effect w' .osGetSelfId myid) ∅ true := hclosed.keeps rfl rfl
  exact ownReport_keeper os _ hasked (fun _ _ howned => howned) (fun _ _ howned => howned)

/-- With reporting on, the descriptor held is the one of the socket, and it is acknowledged. -/
theorem Prepared.reporting (h : Prepared g sock w) (hg : g.doSendTime = true) :
    Calm w {sock.s} true ∧ 0 ≤ sock.s := by
  have hcalm := h.calm
  simp only [owned, hg, if_true] at hcalm
  exact ⟨hcalm, h.valid hg⟩

theorem prepared_of_calm (hg : g.doSendTime = true) (hs : 0 ≤ sock.s)
    (h : Calm w {sock.s} true) : Prepared g sock w := by
  refine ⟨?_, fun _ => hs⟩
  simp only [owned, hg, if_true]
  exact h

theorem forkLoop_keeper (os : Platform) (g : Globals) (n : ℕ) (i : ℤ) (sock : Mysocket)
    (myport : Port) (w : Keeper) (h : Prepared g sock w) :
    SafeKeeper g (fun p w' => OwnedUnless p.rc w') (forkLoop os g n i sock myport) w := by
  have hE := keeperEnv_still g
  induction n generalizing i myport w with
  | zero => exact Safe.ret hE h.ownedUnless
  | succ n ih =>
    apply Safe.call hE (ownGuard_of_ne (by simp))
    intro before _
    simp only [Prog.bind]
    split
    next hrc => exact Safe.ret hE (h.untimed hrc)
    next hrc =>
      have hbefore := h.timed (not_not.mp hrc)
      apply Safe.call hE (ownGuard_of_ne (by simp))
      intro (pid : ℤ) _
      have hforked : Prepared g sock ((keeperEnv g).effect
          ((keeperEnv g).effect w .gettimeofday before) .fork pid) := hbefore.keeps rfl rfl
      simp only [Prog.bind]
      split
      next =>
        rw [not_not.mp hrc]
        exact Safe.ret hE hforked.ownedUnless
      next =>
        apply Safe.call hE (ownGuard_of_ne (by simp))
        intro after _
        simp only [Prog.bind]
        split
        next hrc => exact Safe.ret hE (hforked.untimed hrc)
        next hrc =>
          have hafter := hforked.timed (not_not.mp hrc)
          split
          next =>
            split
            next hg =>
              obtain ⟨hcalm, hs⟩ := hafter.reporting hg
              exact forkChild_keeper os (myport - 1) i _ hs hcalm
            next =>
              rw [not_not.mp hrc]
              exact Safe.ret hE hafter.ownedUnless
          next =>
            split
            next hg =>
              obtain ⟨hcalm, hs⟩ := hafter.reporting hg
              apply Safe.bind
              apply (sendTime_keeper sock _ _ g hcalm).mono
              intro _ w' hw'
              exact ih _ _ w' (prepared_of_calm hg hs hw')
            next => exact ih _ _ _ hafter

theorem clonePrologue_keeper (os : Platform) (g : Globals) (sock : Mysocket) (myport : Port)
    (h : Prepared g sock w) :
    SafeKeeper g (fun r w' => OwnedUnless r.1.rc w') (clonePrologue os g sock myport) w := by
  have hE := keeperEnv_still g
  apply Safe.call hE (ownGuard_of_ne (by simp))
  intro id _
  have hid : Prepared g sock ((keeperEnv g).effect w .osGetSelfId id) := h.keeps rfl rfl
  apply Safe.call hE (ownGuard_of_ne (by simp))
  intro before _
  simp only [Prog.bind]
  split
  next hrc => exact Safe.ret hE (hid.untimed hrc)
  next hrc =>
    have hbefore := hid.timed (not_not.mp hrc)
    apply Safe.call hE (ownGuard_of_ne (by simp))
    intro cloned hcloned
    have hsend : cloned.2.doSendTime = g.doSendTime := hcloned
    simp only [Prog.bind]
    split
    next hneg => exact Safe.ret hE (hbefore.uncloned _ hneg)
    next hneg =>
      have hright : Prepared g sock ((keeperEnv g).effect
          ((keeperEnv g).effect ((keeperEnv g).effect w .osGetSelfId id) .gettimeofday before)
          (.osClone (BitVec.ofInt 32 g.childrenNum) g) cloned) := by
        apply hbefore.keeps rfl
        simp [Keeper.goesWrong, not_lt.mp hneg]
      apply Safe.call hE (ownGuard_of_ne (by simp))
      intro after _
      simp only [Prog.bind]
      split
      next hrc => exact Safe.ret hE (hright.untimed hrc)
      next hrc =>
        have hafter := hright.timed (not_not.mp hrc)
        rw [not_not.mp hrc]
        split
        next hg =>
          obtain ⟨hcalm, hs⟩ := hafter.reporting (hsend ▸ hg)
          split
          next =>
            apply Safe.bind
            apply (sendTime_keeper sock _ _ cloned.2 hcalm).mono
            intro _ w' hw'
            exact Safe.ret hE (hw'.ownedUnless (fun hrc => absurd rfl hrc))
          next =>
            split
            next => exact cloneChild_keeper os myport id _ hs hcalm
            next => exact Safe.ret hE hafter.ownedUnless
        next => exact Safe.ret hE hafter.ownedUnless

/-! ## The prologue -/

/-- With a mode, with reporting, or without a descriptor from the stack. -/
theorem afterReport_keeper (os : Platform) (hN : 1 ≤ g.childrenNum) (myport : Port)
    (h : Prepared g sock w)
    (hsock : g.doSendTime = true ∨ g.doFork = true ∨ g.doClone = true ∨ sock.s < 0) :
    SafeKeeper g (fun r w' => OwnedUnless r.1.rc w') (afterReport os g sock myport) w := by
  have hE := keeperEnv_still g
  unfold afterReport
  split
  next =>
    apply Safe.bind
    have hpos : ¬ g.childrenNum ≤ 0 := by omega
    simp only [forkPrologue, hpos, if_false]
    apply (forkLoop_keeper os g _ 0 sock myport w h).mono
    intro p w' howned
    exact Safe.ret hE howned
  next hfork =>
    split
    next => exact clonePrologue_keeper os g sock myport h
    next hclone =>
      apply Safe.bind
      cases hg : g.doSendTime with
      | true =>
        obtain ⟨hcalm, hs⟩ := h.reporting hg
        apply (mysocketFini_keeper hs hcalm).mono
        rintro rc w' ⟨rfl, hclosed⟩
        exact Safe.ret hE (hclosed.ownedUnless (fun _ => rfl))
      | false =>
        have hneg : ¬ 0 ≤ sock.s := by
          simp only [hg, hfork, hclone] at hsock
          simpa using hsock
        simp only [mysocketFini, hneg, if_false]
        exact Safe.ret hE (Safe.ret hE h.ownedUnless)

/-- The first value from the stack. -/
theorem Calm.first {x : ℤ}
    (hx : ¬ (0 ≤ x ∧ g.doSendTime = false ∧ g.doFork = false ∧ g.doClone = false)) :
    Calm (Keeper.initial.effect g .indeterminate x) ∅ false := by
  refine ⟨rfl, rfl, Nat.one_pos, rfl, ?_⟩
  simpa [Keeper.effect, Keeper.goesWrong, Keeper.initial] using hx

/-- Without a mode the descriptor that is closed is the one from the stack. -/
theorem strayed {os : Platform} {x port : ℤ} (hx : 0 ≤ x) (hsend : g.doSendTime = false)
    (hfork : g.doFork = false) (hclone : g.doClone = false) (y z : ℤ) :
    SafeKeeper g (fun r w' => OwnedUnless r.1.rc w')
      (afterReport os g ⟨x, BitVec.ofInt 16 port⟩ (BitVec.ofInt 16 z))
      (((Keeper.initial.effect g .indeterminate x).effect g .indeterminate y).effect g
        .indeterminate z) := by
  have hE := keeperEnv_still g
  simp only [afterReport, hfork, hclone, mysocketFini, hx, if_true]
  have hmishap : (((Keeper.initial.effect g .indeterminate x).effect g .indeterminate y).effect g
      .indeterminate z).mishap = true := by
    simp [Keeper.effect, Keeper.goesWrong, Keeper.initial, hx, hsend, hfork, hclone]
  apply Safe.call hE (fun _ _ => .inr hmishap)
  intro a _
  apply Safe.ret hE
  apply ownedUnless_of_stray
  · simp [keeperEnv, Keeper.effect, Keeper.act, Keeper.initial]
  · simp only [keeperEnv, Keeper.effect] at hmishap ⊢
    simp [hmishap]

/-- The settings of a server that reports and forks a child. -/
def reportingFork : Globals := { Globals.initial with doSendTime := true, doFork := true }

/-- The child closes the socket that it inherits and reports from one of its own. -/
theorem reportingFork_child :
    ∃ r w, Reaches (keeperEnv reportingFork) (serverPrologue .posix reportingFork, .initial)
        (.ret r, w) ∧
      r.1 = ⟨0, some true⟩ ∧ w.opened = {5} ∧ w.stray = false ∧ w.mishap = false := by
  let now : ℤ × Timeval := (0, ⟨5, 7⟩)
  let gateway : ℤ × UInt := (0, 1)
  let acknowledgement : Option (List Byte) := some (ascii "ok")
  refine ⟨?r, ?w, ?run, ?child, ?opened, ?stray, ?mishap⟩
  case run =>
    refine .head (.call (0 : ℤ) trivial) ?_
    refine .head (.call (0 : ℤ) trivial) ?_
    -- the socket of the parent and its report
    refine .head (.call (3 : ℤ) (fun _ => by decide)) ?_
    refine .head (.call (0 : ℤ) (le_refl 0)) ?_
    refine .head (.call (0 : ℤ) ⟨le_refl 0, fun h => absurd (by decide) h⟩) ?_
    refine .head (.call now trivial) ?_
    refine .head (.call gateway trivial) ?_
    refine .head .loop ?_
    refine .head (.call (0 : ℤ) trivial) ?_
    refine .head (.call (0 : ℤ) trivial) ?_
    refine .head (.call acknowledgement trivial) ?_
    -- the fork, in the child
    refine .head (.call now trivial) ?_
    refine .head (.call (0 : ℤ) trivial) ?_
    refine .head (.call now trivial) ?_
    refine .head (.call () trivial) ?_
    refine .head (.call (5 : ℤ) (fun _ => by decide)) ?_
    refine .head (.call (0 : ℤ) (le_refl 0)) ?_
    refine .head (.call (0 : ℤ) ⟨le_refl 0, fun h => absurd (by decide) h⟩) ?_
    refine .head (.call gateway trivial) ?_
    refine .head .loop ?_
    refine .head (.call (0 : ℤ) trivial) ?_
    refine .head (.call (0 : ℤ) trivial) ?_
    refine .head (.call acknowledgement trivial) ?_
    exact .refl
  case child => rfl
  case opened => rfl
  case stray => rfl
  case mishap => rfl

/-- The prologue respects the ownership of descriptors in the runs without a mishap, and in no
other run that returns. -/
theorem serverPrologue_owned_iff (os : Platform) (g : Globals) (hN : 1 ≤ g.childrenNum) :
    SafeKeeper g (fun r w => OwnedUnless r.1.rc w) (serverPrologue os g) .initial := by
  have hE := keeperEnv_still g
  apply Safe.call hE (ownGuard_of_ne (by simp))
  intro (x : ℤ) _
  apply Safe.call hE (ownGuard_of_ne (by simp))
  intro (y : ℤ) _
  simp only [Prog.pure_eq, Prog.bind_eq, Prog.ret_bind]
  by_cases hx : 0 ≤ x ∧ g.doSendTime = false ∧ g.doFork = false ∧ g.doClone = false
  · obtain ⟨hpos, hsend, hfork, hclone⟩ := hx
    simp only [hsend, Bool.false_eq_true, if_false]
    apply Safe.call hE (ownGuard_of_ne (by simp))
    intro (z : ℤ) _
    exact strayed hpos hsend hfork hclone y z
  · have hcalm : Calm ((keeperEnv g).effect ((keeperEnv g).effect .initial .indeterminate x)
        .indeterminate y) ∅ false := (Calm.first hx).draws y
    split
    next hg =>
      apply Safe.bind
      apply (mysocketInit_keeper os _ PORT_PARENT hcalm).mono
      rintro r w' (⟨hrc, hs, hcalm⟩ | ⟨hrc, hcalm⟩ | ⟨hrc, hstray, hmishap⟩)
      · simp only [hrc, ne_eq, not_true_eq_false, if_false]
        apply Safe.bind
        apply (sendTime_first hg r.2 hcalm).mono
        rintro rc v (⟨rfl, hreported⟩ | ⟨hrc, hung⟩)
        · simp only [not_true_eq_false, if_false]
          apply afterReport_keeper os hN PORT_PARENT (prepared_of_calm hg hs hreported)
          exact .inl hg
        · simp only [hrc, not_false_eq_true, if_true]
          exact Safe.ret hE (hung.ownedUnless hrc (by simp))
      · simp only [hrc, ne_eq, not_false_eq_true, if_true]
        exact Safe.ret hE (hcalm.ownedUnless (fun _ => rfl))
      · simp only [hrc, ne_eq, not_false_eq_true, if_true]
        exact Safe.ret hE (ownedUnless_of_stray hstray hmishap)
    next hg =>
      apply Safe.call hE (ownGuard_of_ne (by simp))
      intro (z : ℤ) _
      have hprepared : Prepared g ⟨x, BitVec.ofInt 16 y⟩
          ((keeperEnv g).effect ((keeperEnv g).effect ((keeperEnv g).effect .initial .indeterminate
            x) .indeterminate y) .indeterminate z) := by
        refine ⟨?_, fun hg' => absurd hg' hg⟩
        simp only [owned, hg]
        exact hcalm.draws z
      apply afterReport_keeper os hN _ hprepared
      grind

/-- With reports and a fork, and in the run of the child. -/
theorem serverPrologue_owned_iff_one :
    (1 ≤ reportingFork.childrenNum ∧ SafeKeeper reportingFork (fun r w => OwnedUnless r.1.rc w)
        (serverPrologue .posix reportingFork) .initial) ∧
      ∃ r w, Reaches (keeperEnv reportingFork) (serverPrologue .posix reportingFork, .initial)
          (.ret r, w) ∧
        r.1 = ⟨0, some true⟩ ∧ w.opened = {5} ∧ w.mishap = false ∧ OwnedUnless r.1.rc w := by
  have hsafe := serverPrologue_owned_iff .posix reportingFork (by decide)
  obtain ⟨r, w, hreach, hchild, hopened, -, hmishap⟩ := reportingFork_child
  exact ⟨⟨by decide, hsafe⟩, r, w, hreach, hchild, hopened, hmishap, hsafe _ _ hreach⟩

/-- Without a mode, the descriptor `5` from the stack is closed. -/
theorem stray_descriptor_closed :
    ¬ Safe (keeperEnv .initial) (fun w c => ∀ s, c = .close s → s ∈ w.opened)
      (fun r w => r.1.rc ≠ 0 → w.opened = ∅) (serverPrologue .posix .initial) .initial := by
  intro h
  have hfd := h.step (.call (5 : ℤ) trivial)
  have hport := hfd.step (.call (0 : ℤ) trivial)
  have hclose := hport.step (.call (0 : ℤ) trivial)
  have hheld : (5 : Fd) ∈ (∅ : Finset Fd) := hclose.meets 5 rfl
  exact absurd hheld (by simp)

end CloningApps.Server
