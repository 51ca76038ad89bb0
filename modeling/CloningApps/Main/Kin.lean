import CloningApps.Interaction.Census
import CloningApps.Main.Permissions

/-! # The family of the program

A program that makes no processes on request has at most the children that it was
asked for, forked or cloned, whatever fails and however its processes run; none of them
forks or clones again, and the original process of the file server leaves the serving to
its forks.
-/

namespace CloningApps.Main
open Text Interaction Os Cmdline Server Fuzz Net

/-- Whether a process is the original one, and how many others it has started. -/
structure Kin where
  original : Bool
  started : ℕ
  deriving DecidableEq

namespace Kin

def initial : Kin := ⟨true, 0⟩

def effect (w : Kin) : (c : Call) → c.Answer → Kin
  | .fork, pid => ⟨w.original && pid ≠ 0, if 0 < pid then w.started + 1 else w.started⟩
  | .osClone n g, r =>
    ⟨w.original && r.2 = g, if r = (0, g) then w.started + n.toNat else w.started⟩
  | _, _ => w

end Kin

/-- `os_clone` returns what it may return on the platform. -/
def kinEnv (os : Platform) : Env system Kin where
  legal
    | _, .osClone n g, r => ∃ outcome called,
        Reaches (hypervisorEnv outcome) (osClone os n g, false) (.ret r, called)
    | _, _, _ => True
  effect := Kin.effect
  drift := fun _ _ => False

theorem kinEnv_still (os : Platform) : (kinEnv os).Still := fun _ _ h => h

theorem kinEnv_keepsSettings {os : Platform} {w : Kin} {c : Call} {a : c.Answer}
    (h : (kinEnv os).legal w c a) : KeepsSettings c a := by
  cases c with
  | osClone n g =>
    obtain ⟨outcome, called, hr⟩ := h
    exact osClone_keepsSettings os outcome n g _ _ hr
  | _ => trivial

def kinFamily (os : Platform) : Spawning system Kin where
  env := kinEnv os
  spawns := processSpawns os
  legal := by
    intro w c a bs h
    cases c with
    | fork => exact ⟨trivial, fun _ _ => trivial⟩
    | osClone n g => exact ⟨⟨0, true, h.1⟩, fun b hb => ⟨1, true, h.2.2 b hb⟩⟩
    | _ => exact absurd h id

def Original (w : Kin) : Prop := w.original = true

/-- How many children the settings ask for. `os_clone` takes the number without its sign. -/
def childBudget (g : Globals) : ℕ :=
  if g.doFork then g.childrenNum.toNat
  else if g.doClone then (BitVec.ofInt 32 g.childrenNum).toNat
  else 0

/-- Only the original process forks or clones, as long as children are asked for; if it forks, it
does not serve files itself. -/
def KinGuard (g : Globals) (w : Kin) : Call → Prop
  | .fork => Original w ∧ w.started < childBudget g
  | .osClone n g' => Original w ∧ w.started + n.toNat ≤ childBudget g ∧ g'.doClone = true
  | .accept _ => g.app = .files → g.doFork = true → ¬ Original w
  | _ => True

variable {pageSize : BitVec 32} {g : Globals} {os : Platform} {w : Kin} {α : Type}

abbrev SafeKin (os : Platform) (g : Globals) (post : α → Kin → Prop) (p : SysProg α) (w : Kin) :
    Prop :=
  Safe (kinEnv os) (KinGuard g) post p w

theorem kin_ret {x : α} {post : α → Kin → Prop} (h : post x w) : SafeKin os g post (.ret x) w :=
  Safe.ret (kinEnv_still os) h

/-- A call at which nobody changes. -/
theorem kin_call {post : α → Kin → Prop} {c : Call} {k : c.Answer → SysProg α}
    (hguard : KinGuard g w c) (heffect : ∀ a, w.effect c a = w)
    (hk : ∀ a, KeepsSettings c a → SafeKin os g post (k a) w) :
    SafeKin os g post (.call c k) w := by
  refine Safe.call (kinEnv_still os) hguard (fun a ha => ?_)
  have hsame : (kinEnv os).effect w c a = w := heffect a
  rw [hsame]
  exact hk a (kinEnv_keepsSettings ha)

/-! ## Programs that start no process -/

/-- What a process does that starts no other and accepts only if it may. -/
def SingleCall (g : Globals) (w : Kin) : Call → Prop
  | .fork | .osClone .. => False
  | c => KinGuard g w c

/-- Whoever starts no process stays who it is. -/
theorem single_kin {p : SysProg α} (hp : OnlyCalls (SingleCall g w) p) :
    SafeKin os g (fun _ w' => w' = w) p w := by
  refine Safe.frame (· = w) ((kinEnv_still os).stable _) ?_ ?_ hp rfl
  · rintro _ c hc rfl
    cases c with
    | fork | osClone => exact hc.elim
    | _ => exact hc
  · rintro _ c a hc rfl -
    cases c with
    | fork | osClone => exact hc.elim
    | _ => rfl

theorem report_kin {p : SysProg α} (hp : OnlyCalls ReportCall p) :
    SafeKin os g (fun _ w' => w' = w) p w := by
  refine single_kin (hp.mono (fun c hc => ?_))
  cases c with
  | fork | osClone | accept => exact absurd hc id
  | _ => trivial

/-- A report, whatever its result. -/
theorem report_kin_bind {β : Type} {post : α → Kin → Prop} {p : SysProg β}
    (hp : OnlyCalls ReportCall p) {k : β → SysProg α} (hk : ∀ x, SafeKin os g post (k x) w) :
    SafeKin os g post (p.bind k) w := by
  apply Safe.bind
  apply (report_kin hp).mono
  rintro x _ rfl
  exact hk x

/-- The applications that make processes when a client asks for it. -/
def SpawnsOnRequest (g : Globals) : Prop :=
  g.app = .measureFork ∨ g.app = .memoryOverhead ∨ g.app = .children

/-- The settings of a server that is done with its prologue. -/
def quiet (g : Globals) : Globals :=
  { g with doSendTime := false, doFork := false, doClone := false }

/-- A server that is done with its prologue starts no process. -/
theorem serving_kin (hg : ¬ SpawnsOnRequest g) {p : SysProg α} (hp : Obeys pageSize (quiet g) p)
    (hserves : g.app = .files → g.doFork = true → ¬ Original w) :
    SafeKin os g (fun _ _ => True) p w := by
  have hsingle : OnlyCalls (SingleCall g w) p := by
    refine hp.mono (fun c hc => ?_)
    cases c with
    | fork =>
      rcases hc with ⟨-, hfork⟩ | happ | ⟨happ, -⟩
      · exact absurd hfork Bool.false_ne_true
      · exact absurd (.inl happ) hg
      · exact absurd (.inr (.inl happ)) hg
    | osClone =>
      rcases hc with ⟨-, -, hclone⟩ | happ
      · exact absurd hclone Bool.false_ne_true
      · exact absurd (.inr (.inr happ)) hg
    | accept => exact hserves
    | _ => trivial
  exact (single_kin hsingle).mono (fun _ _ _ => trivial)

/-! ## The prologue -/

/-- What is left of the prologue: the settings, those of a clone perhaps, and in fork mode a
process that is not the original one if it is told that it is a child. -/
structure Settled (g : Globals) (r : Prologue × Globals) (w : Kin) : Prop where
  descends : Descends g r.2
  forked : g.doFork = true → r.2 = g ∧ (r.1.isChild = some true → ¬ Original w)

theorem Settled.of_same {r : Prologue} (h : r.isChild = some true → ¬ Original w) :
    Settled g (r, g) w :=
  ⟨.refl g, fun _ => ⟨rfl, h⟩⟩

theorem forkLoop_kin {n : ℕ} {i : ℤ} {sock : Mysocket} {myport : Port} (hw : Original w)
    (hn : w.started + n ≤ childBudget g) :
    SafeKin os g (fun r w => r.isChild = some true → ¬ Original w)
      (forkLoop os g n i sock myport) w := by
  induction n generalizing w i myport with
  | zero => exact kin_ret (by simp)
  | succ n ih =>
    refine kin_call trivial (fun _ => rfl) (fun before _ => ?_)
    simp only [Prog.bind]
    split
    · exact kin_ret (by simp)
    · refine Safe.call (kinEnv_still os) ⟨hw, by omega⟩ ?_
      intro (pid : ℤ) _
      let w₁ : Kin := w.effect .fork pid
      simp only [Prog.bind]
      split
      · exact kin_ret (by simp)
      next hpid =>
        refine kin_call trivial (fun _ => rfl) (fun after _ => ?_)
        simp only [Prog.bind]
        split
        · exact kin_ret (by simp)
        · split
          next hchild =>
            have hleft : ¬ Original w₁ := by simp [w₁, Original, Kin.effect, hchild]
            split
            · refine report_kin_bind (mysocketFini_calls sock) (fun rc => ?_)
              split
              · exact kin_ret (by simp)
              · refine report_kin_bind (mysocketInit_calls os sock .dgram _) (fun r => ?_)
                split
                · exact kin_ret (by simp)
                · exact report_kin_bind (sendTime_calls ..) (fun _ => kin_ret (fun _ => hleft))
            · exact kin_ret (fun _ => hleft)
          next hparent =>
            have hpos : 0 < pid := lt_of_le_of_ne (not_lt.mp hpid) (Ne.symm hparent)
            have hw₁ : Original w₁ := by
              have horiginal : w.original = true := hw
              simp [w₁, Original, Kin.effect, horiginal, hparent]
            have hstarted : w₁.started = w.started + 1 := if_pos hpos
            have hrest : SafeKin os g (fun r w => r.isChild = some true → ¬ Original w)
                (forkLoop os g n (i + 1) sock (myport - 1)) w₁ := ih hw₁ (by omega)
            split
            · exact report_kin_bind (sendTime_calls ..) (fun _ => hrest)
            · exact hrest

theorem forkPrologue_kin (hfork : g.doFork = true) (sock : Mysocket) (myport : Port) :
    SafeKin os g (fun r w => r.isChild = some true → ¬ Original w)
      (forkPrologue os g sock myport) .initial := by
  unfold forkPrologue
  split
  · exact kin_call trivial (fun _ => rfl) (fun _ _ => kin_ret (by simp))
  · have hbudget : Kin.initial.started + g.childrenNum.toNat ≤ childBudget g := by
      simp [Kin.initial, childBudget, hfork]
    exact forkLoop_kin rfl hbudget

theorem clonePrologue_kin (hfork : ¬ g.doFork = true) (hclone : g.doClone = true)
    (sock : Mysocket) (myport : Port) :
    SafeKin os g (Settled g) (clonePrologue os g sock myport) .initial := by
  have hbudget : Kin.initial.started + (BitVec.ofInt 32 g.childrenNum).toNat ≤ childBudget g := by
    simp [Kin.initial, childBudget, hfork, hclone]
  have hdone : ∀ {r : Prologue × Globals} {w : Kin}, Descends g r.2 → Settled g r w :=
    fun h => ⟨h, fun hf => absurd hf hfork⟩
  refine kin_call trivial (fun _ => rfl) (fun myparentid _ => ?_)
  refine kin_call trivial (fun _ => rfl) (fun before _ => ?_)
  simp only [Prog.bind]
  split
  · exact kin_ret (hdone (.refl g))
  · refine Safe.call (kinEnv_still os) ⟨rfl, hbudget, hclone⟩ ?_
    rintro ⟨(rc : ℤ), g'⟩ hlegal
    have hdescends : Descends g g' := (Descends.refl g).clone (kinEnv_keepsSettings hlegal)
    simp only [Prog.bind]
    split
    · exact kin_ret (hdone hdescends)
    · refine kin_call trivial (fun _ => rfl) (fun after _ => ?_)
      simp only [Prog.bind]
      split
      · exact kin_ret (hdone hdescends)
      · split
        · split
          · exact report_kin_bind (sendTime_calls ..) (fun _ => kin_ret (hdone hdescends))
          · split
            · refine report_kin_bind (mysocketFini_calls sock) (fun rc => ?_)
              split
              · exact kin_ret (hdone hdescends)
              · refine kin_call trivial (fun _ => rfl) (fun myid _ => ?_)
                simp only [Prog.ret_bind]
                refine report_kin_bind (mysocketInit_calls os sock .dgram _) (fun r => ?_)
                split
                · exact kin_ret (hdone hdescends)
                · exact report_kin_bind (sendTime_calls ..) (fun _ => kin_ret (hdone hdescends))
            · exact kin_ret (hdone hdescends)
        · exact kin_ret (hdone hdescends)

theorem serverPrologue_kin (os : Platform) (g : Globals) :
    SafeKin os g (Settled g) (serverPrologue os g) .initial := by
  have hafter : ∀ sock myport,
      SafeKin os g (Settled g) (afterReport os g sock myport) .initial := by
    intro sock myport
    unfold afterReport
    split
    next hfork =>
      apply Safe.bind
      apply (forkPrologue_kin hfork sock myport).mono
      exact fun _ _ h => kin_ret (.of_same h)
    next hfork =>
      split
      next hclone => exact clonePrologue_kin hfork hclone sock myport
      next =>
        exact report_kin_bind (mysocketFini_calls sock) (fun _ => kin_ret (.of_same (by simp)))
  refine kin_call trivial (fun _ => rfl) (fun s _ => ?_)
  refine kin_call trivial (fun _ => rfl) (fun port _ => ?_)
  simp only [Prog.bind, Prog.pure_eq, Prog.bind_eq, Prog.ret_bind]
  split
  · refine report_kin_bind (mysocketInit_calls ..) (fun r => ?_)
    split
    · exact kin_ret (.of_same (by simp))
    · refine report_kin_bind (sendTime_calls ..) (fun rc => ?_)
      split
      · exact kin_ret (.of_same (by simp))
      · exact hafter _ _
  · exact kin_call trivial (fun _ => rfl) (fun myport _ => hafter _ _)

/-! ## The applications -/

section Applications
variable (hg : ¬ SpawnsOnRequest g)
include hg

/-- What an application does after the prologue it does without starting a process. -/
theorem servingAfter_kin (s : Setup) (hfiles : g.app ≠ .files) {serve : SysProg ℤ}
    (hserve : Obeys s.pageSize (quiet g) serve) :
    SafeKin s.os g (fun _ _ => True)
      ((serverPrologue s.os g).bind (fun r => if r.1.rc ≠ 0 then return r.1.rc else serve))
      .initial := by
  apply Safe.bind
  apply (serverPrologue_kin s.os g).mono
  intro r w _
  split
  · exact kin_ret trivial
  · exact serving_kin hg hserve (fun h => absurd h hfiles)

theorem testServer_kin (os : Platform) (happ : g.app = .files) :
    SafeKin os g (fun _ _ => True) (testServer os g) .initial := by
  apply Safe.bind
  apply (serverPrologue_kin os g).mono
  rintro ⟨r, g'⟩ w hr
  dsimp only
  split
  · exact kin_ret trivial
  · split
    · refine Safe.loop (fun _ _ => True) (fun _ => (kinEnv_still os).stable _) (fun _ w _ => ?_)
        trivial
      exact kin_call trivial (fun _ => rfl) (fun _ _ => kin_ret trivial)
    next hchild =>
      have hobeys : Obeys 0 (quiet g) (runServer os) := runServer_obeys os happ
      refine serving_kin hg hobeys (fun _ hfork => ?_)
      obtain ⟨rfl, htold⟩ := hr.forked hfork
      exact htold (not_not.mp (fun h => hchild ⟨hfork, h⟩))

end Applications

theorem application_kin {s : Setup} {p : SysProg ℤ} (hp : application s g = some p)
    (hg : ¬ SpawnsOnRequest g) : SafeKin s.os g (fun _ _ => True) p .initial := by
  unfold application at hp
  split at hp <;> cases hp
  next happ =>
    have hq : (quiet g).app = .counter := happ
    exact servingAfter_kin hg s (by simp [happ]) (counterServer_obeys hq)
  next happ => exact absurd (.inr (.inl happ)) hg
  next happ => exact absurd (.inr (.inr happ)) hg
  next happ =>
    have hq : (quiet g).app = .sleeper := happ
    have hserves : g.app = .files → g.doFork = true → ¬ Original .initial :=
      fun hfiles => absurd (happ.symm.trans hfiles) (by decide)
    have hobeys : Obeys s.pageSize (quiet g) threadFuncSleeper := threadFuncSleeper_obeys hq
    exact serving_kin hg hobeys hserves
  next happ =>
    have hq : ServesTcp (quiet g) := .inr (.inl happ)
    exact servingAfter_kin hg s (by simp [happ]) (tcpServer_obeys hq)
  next happ =>
    have hq : (quiet g).app = .serverUdp := happ
    exact servingAfter_kin hg s (by simp [happ]) (udpServer_obeys s.os hq)
  next happ => exact testServer_kin hg s.os happ
  next happ => exact absurd (.inl happ) hg

/-! ## The family -/

/-- The first process of the program is told from the others as that of its application is. -/
theorem processesOf_marks {W : Type} {S : Spawning system W} {guard : W → Call → Prop}
    {P : W → Prop} (h : S.Marks guard P) : (processesOf S).Marks (AppGuard guard) P where
  stays := by
    intro w c a hlegal halone hw
    cases c with
    | app c => exact h.stays w c a hlegal halone hw
    | _ => exact hw
  starts := by
    intro w c a bs hspawns hw
    cases c with
    | app c => exact h.starts w c a bs hspawns hw
    | _ => exact hw
  lost := by
    intro w c a hlegal hw
    cases c with
    | app c => exact h.lost w c a hlegal hw
    | _ => exact hw
  started := by
    intro w c a bs hguard hspawns
    cases c with
    | app c => exact h.started w c a bs hguard hspawns
    | _ => exact absurd hspawns id

theorem processesOf_counts {W : Type} {S : Spawning system W} {n : W → ℕ} (h : S.Counts n) :
    (processesOf S).Counts n where
  starts := by
    intro w c a bs hspawns
    cases c with
    | app c => exact h.starts w c a bs hspawns
    | _ => exact absurd hspawns id
  stays := by
    intro w c a hlegal halone
    cases c with
    | app c => exact h.stays w c a hlegal halone
    | _ => rfl

/-- What `os_clone` answers a process that neither starts clones by it nor is one. -/
theorem osClone_alone {n : UInt} {g' : Globals} {r : ℤ × Globals}
    (hlegal : (kinEnv os).legal w (.osClone n g') r)
    (halone : (kinFamily os).Alone (.osClone n g') r) : r.1 < 0 ∧ r.2 = g' := by
  obtain ⟨outcome, called, hr⟩ := hlegal
  have hresult := osClone_safe os outcome n g' _ _ hr
  cases called with
  | false => exact hresult
  | true =>
    obtain ⟨hr, hn, hos⟩ : r = afterClone (cloneRc os) outcome g' ∧ n ≠ 0 ∧ os ≠ .posix :=
      hresult
    have hpos : n.toNat ≠ 0 := fun h => hn (BitVec.eq_of_toNat_eq h)
    let clones := List.replicate n.toNat (afterClone (cloneRc os) 1 g')
    have hspawns : processSpawns os (.osClone n g') (0, g') clones := by
      refine ⟨cloneReturns hos hn 0 g', List.length_replicate, fun b hb => ?_⟩
      rw [(List.mem_replicate.mp hb).2]
      exact cloneReturns hos hn 1 g'
    obtain ⟨hparent, hclone⟩ := halone (0, g') clones hspawns
    by_cases h0 : outcome = 0
    · subst h0
      exact absurd hr hparent
    · by_cases h1 : outcome = 1
      · subst h1
        exact absurd (List.mem_replicate.mpr ⟨hpos, hr⟩) hclone
      · rw [hr, afterClone, if_neg h0, if_neg h1]
        exact ⟨neg_one_lt_zero, rfl⟩

/-- A fork that returns to a process which is neither its parent nor its child has failed. -/
theorem fork_alone {pid : ℤ} (halone : (kinFamily os).Alone .fork pid) : pid < 0 := by
  have hnot : pid ∉ [(0 : ℤ)] := (halone (1 : ℤ) [(0 : ℤ)] ⟨Int.one_pos, rfl⟩).2
  have hparent : ¬ 0 < pid := fun hpos => (halone pid [(0 : ℤ)] ⟨hpos, rfl⟩).1 rfl
  have hchild : pid ≠ 0 := fun h => hnot (List.mem_singleton.mpr h)
  omega

theorem original_fork_iff {pid : ℤ} : Original (w.effect .fork pid) ↔ Original w ∧ pid ≠ 0 := by
  simp [Original, Kin.effect]

theorem original_osClone_iff {n : UInt} {g' : Globals} {r : ℤ × Globals} :
    Original (w.effect (.osClone n g') r) ↔ Original w ∧ r.2 = g' := by
  simp [Original, Kin.effect]

theorem kinFamily_marks (os : Platform) (g : Globals) :
    (kinFamily os).Marks (KinGuard g) Original where
  stays := by
    intro w c a hlegal halone hw
    cases c with
    | fork => exact original_fork_iff.mpr ⟨hw, (fork_alone halone).ne⟩
    | osClone n g' => exact original_osClone_iff.mpr ⟨hw, (osClone_alone hlegal halone).2⟩
    | _ => exact hw
  starts := by
    intro w c a bs hspawns hw
    cases c with
    | fork => exact original_fork_iff.mpr ⟨hw, hspawns.1.ne'⟩
    | osClone n g' => exact original_osClone_iff.mpr ⟨hw, by rw [hspawns.1.parent]⟩
    | _ => exact hw
  lost := by
    intro w c a _ hw
    cases c with
    | fork => exact fun h => hw (original_fork_iff.mp h).1
    | osClone n g' => exact fun h => hw (original_osClone_iff.mp h).1
    | _ => exact hw
  started := by
    intro w c a bs hguard hspawns b hb
    cases c with
    | fork =>
      obtain rfl : bs = [(0 : ℤ)] := hspawns.2
      obtain rfl : b = (0 : ℤ) := List.mem_singleton.mp hb
      exact fun h => (original_fork_iff.mp h).2 rfl
    | osClone n g' =>
      -- the flag that the guard asks for is the one that a clone clears
      have hclone : g'.doClone = true := hguard.2.2
      have hne : inClone g' ≠ g' := by
        intro h
        rw [← h] at hclone
        exact absurd hclone Bool.false_ne_true
      have hsettings : b.2 = inClone g' := by rw [(hspawns.2.2 b hb).clone]
      exact fun h => hne (hsettings.symm.trans (original_osClone_iff.mp h).2)
    | _ => exact absurd hspawns id

theorem kinFamily_counts (os : Platform) : (kinFamily os).Counts Kin.started where
  starts := by
    intro w c a bs h
    cases c with
    | fork =>
      obtain ⟨hpos, rfl⟩ : (0 : ℤ) < a ∧ bs = [(0 : ℤ)] := h
      exact if_pos hpos
    | osClone n g' =>
      obtain ⟨hparent, hlength, -⟩ := h
      have heffect : (w.effect (.osClone n g') a).started = w.started + bs.length := by
        rw [hlength]
        exact if_pos hparent.parent
      exact heffect
    | _ => exact absurd h id
  stays := by
    intro w c a hlegal halone
    cases c with
    | fork => exact if_neg (fork_alone halone).not_gt
    | osClone n g' =>
      have hfailed := (osClone_alone hlegal halone).1
      have hne : a ≠ ((0 : ℤ), g') := by
        rintro rfl
        exact lt_irrefl _ hfailed
      exact if_neg hne
    | _ => rfl

abbrev machineFamily (os : Platform) : Spawning machine Kin := processesOf (kinFamily os)

theorem main_kin (s : Setup) (rc : ℤ) (g : Globals) (hg : ¬ SpawnsOnRequest g) :
    SafeMachine (kinEnv s.os) (KinGuard g) (main s (.returned rc g)) .initial := by
  refine main_safe (kinEnv_still s.os) s _ (fun g' p hparsed _ hp => ?_)
  obtain ⟨rfl, rfl⟩ := ParseResult.returned.inj hparsed
  exact application_kin hp hg

/-- No process has started more than were asked for. -/
theorem main_started_le {p p' : MainProg ℤ} {w' : Kin}
    (hsafe : SafeMachine (kinEnv os) (KinGuard g) p .initial)
    (hr : Reaches (machineOf (kinEnv os)) (p, .initial) (p', w')) :
    w'.started ≤ childBudget g := by
  refine hsafe.preserves (fun w => w.started ≤ childBudget g)
    ((machineOf_still (kinEnv_still os)).stable _) ?_ hr (Nat.zero_le _)
  intro w c a hguard _ hw
  cases c with
  | app c =>
    cases c with
    | fork =>
      have hless : w.started < childBudget g := hguard.2
      have heffect : (w.effect .fork a).started ≤ childBudget g := by
        simp only [Kin.effect]
        split
        · exact hless
        · exact hw
      exact heffect
    | osClone n g' =>
      have hle : w.started + n.toNat ≤ childBudget g := hguard.2.1
      have heffect : (w.effect (.osClone n g') a).started ≤ childBudget g := by
        simp only [Kin.effect]
        split
        · exact hle
        · exact hw
      exact heffect
    | _ => exact hw
  | _ => exact hw

/-- A process that is about to fork or to clone. -/
def AboutToStart (p : MainProg ℤ) : Prop :=
  (∃ k, p = @Prog.call machine ℤ (.app .fork) k) ∨
    ∃ n g k, p = @Prog.call machine ℤ (.app (.osClone n g)) k

theorem AboutToStart.original {p : MainProg ℤ} (h : AboutToStart p)
    (hmeets : Meets (AppGuard (KinGuard g)) (fun _ _ => True) p w) : Original w := by
  rcases h with ⟨k, rfl⟩ | ⟨n, g', k, rfl⟩
  · have hguard : KinGuard g w .fork := hmeets
    exact hguard.1
  · have hguard : KinGuard g w (.osClone n g') := hmeets
    exact hguard.1

theorem original_of_spawns {c : MachineCall} {a : c.Answer} {bs : List c.Answer}
    (hguard : AppGuard (KinGuard g) w c) (hspawns : (machineFamily os).spawns c a bs) :
    Original w := by
  cases c with
  | app c =>
    cases c with
    | fork | osClone => exact hguard.1
    | _ => exact absurd hspawns id
  | _ => exact absurd hspawns id

/-- The processes of a program that was asked for children at its start. -/
structure KinKept (g : Globals) (ps : Processes machine ℤ Kin) : Prop where
  few : ps.length ≤ childBudget g + 1
  flat : ∀ x ∈ ps.tail, ¬ AboutToStart x.1
  served : g.app = .files → g.doFork = true →
    ∀ x ∈ ps.head?, ∀ s k, x.1 ≠ @Prog.call machine ℤ (.app (.accept s)) k

/-- Whatever fails and in whatever order its processes run, a program that makes no processes on
request never has more children than it was asked for, no child forks or clones, and the original
process of the file server leaves the clients to the children it forks. -/
theorem main_family (s : Setup) (rc : ℤ) (g : Globals) (hg : ¬ SpawnsOnRequest g)
    {ps : Processes machine ℤ Kin}
    (h : SystemReaches (machineFamily s.os) [(main s (.returned rc g), .initial)] ps) :
    KinKept g ps := by
  have hsafe := main_kin s rc g hg
  have hinitial : Original Kin.initial := rfl
  have hmarks := processesOf_marks (kinFamily_marks s.os g)
  have hcounts := processesOf_counts (kinFamily_counts s.os)
  have hcounted := h.counted hmarks hcounts (fun _ _ _ _ => original_of_spawns) hinitial rfl hsafe
  have hfirst := h.onlyFirst hmarks hsafe hinitial
  have hmeets : ∀ x ∈ ps, Meets (AppGuard (KinGuard g)) (fun _ _ => True) x.1 x.2 := by
    rintro ⟨p, w⟩ hx
    exact hsafe p w (h.process _ hx)
  cases ps with
  | nil => exact hcounted.elim
  | cons first others =>
    refine ⟨?_, fun x hx hcall => ?_, fun hfiles hfork x hx s' k hcall => ?_⟩
    · have hstarted := main_started_le hsafe (h.process first List.mem_cons_self)
      have hlength : others.length = first.2.started := hcounted
      rw [List.length_cons, hlength]
      exact Nat.succ_le_succ hstarted
    · exact hfirst.2 x hx (hcall.original (hmeets x (List.mem_cons_of_mem _ hx)))
    · obtain rfl : first = x := by simpa using hx
      have hx' := hmeets first List.mem_cons_self
      rw [hcall] at hx'
      have hguard : KinGuard g first.2 (.accept s') := hx'
      exact hguard hfiles hfork hfirst.1

/-- The settings of a server that is cloned twice. -/
def cloningServer : Globals :=
  { Globals.initial with app := .serverTcp, doClone := true, childrenNum := 2 }

def Setup.onMinios : Setup := { Setup.full with os := .minios }

theorem machineFamily_alone {c : Call} (hfork : c ≠ .fork) (hclone : ∀ n g, c ≠ .osClone n g)
    (a : c.Answer) : (machineFamily os).Alone (.app c) a := by
  intro d bs hspawns
  cases c with
  | fork => exact absurd rfl hfork
  | osClone n g => exact absurd rfl (hclone n g)
  | _ => exact absurd hspawns id

/-- A process that is answered while no other has been started. -/
theorem machineFamily_call {c : Call} {k : c.Answer → MainProg ℤ} {ps : Processes machine ℤ Kin}
    (a : c.Answer) (hfork : c ≠ .fork) (hclone : ∀ n g, c ≠ .osClone n g)
    (h : SystemReaches (machineFamily os) [(k a, w.effect c a)] ps) :
    SystemReaches (machineFamily os) [(@Prog.call machine ℤ (.app c) k, w)] ps := by
  have hlegal : (machineFamily os).env.legal w (.app c) a := by
    cases c with
    | osClone n g => exact absurd rfl (hclone n g)
    | _ => trivial
  exact .head (@SystemStep.answer _ _ _ (machineFamily os) [] [] (.app c) k w a hlegal
    (machineFamily_alone hfork hclone a)) h

/-- The process that starts the first others. -/
theorem machineFamily_spawn {c : Call} {k : c.Answer → MainProg ℤ} {ps : Processes machine ℤ Kin}
    (a : c.Answer) {bs : List c.Answer} (hspawns : processSpawns os c a bs)
    (h : SystemReaches (machineFamily os)
      ((k a, w.effect c a) :: bs.map (fun b => (k b, w.effect c b))) ps) :
    SystemReaches (machineFamily os) [(@Prog.call machine ℤ (.app c) k, w)] ps :=
  .head (@SystemStep.spawn _ _ _ (machineFamily os) [] [] (.app c) k w a bs hspawns) h

/-- Asked for one fork on POSIX, and for two clones on Mini-OS, the program has them. -/
theorem main_family_started :
    (∃ ps, SystemReaches (machineFamily .posix)
        [(main .full (.returned 0 forkingServer), .initial)] ps ∧
      ps.length = 2 ∧ KinKept forkingServer ps) ∧
    ∃ ps, SystemReaches (machineFamily .minios)
        [(main .onMinios (.returned 0 cloningServer), .initial)] ps ∧
      ps.length = 3 ∧ KinKept cloningServer ps := by
  let now : ℤ × Timeval := (0, ⟨0, 0⟩)
  let children : List ℤ := [0]
  let parent : ℤ × Globals := (0, cloningServer)
  let clone : ℤ × Globals := (1, inClone cloningServer)
  let clones : List (ℤ × Globals) := [clone, clone]
  have hfork : processSpawns .posix .fork (1 : ℤ) children := ⟨Int.one_pos, rfl⟩
  have hclones : processSpawns .minios
      (.osClone (BitVec.ofInt 32 cloningServer.childrenNum) cloningServer) parent clones := by
    refine ⟨cloneReturns (by decide) (by decide) 0 cloningServer, rfl, fun b hb => ?_⟩
    obtain rfl : b = clone := by simpa [clones] using hb
    exact cloneReturns (by decide) (by decide) 1 cloningServer
  have hforked : ∃ ps, SystemReaches (machineFamily .posix)
      [(main .full (.returned 0 forkingServer), .initial)] ps ∧ ps.length = 2 := by
    refine ⟨?processes, ?run, ?number⟩
    case run =>
      refine machineFamily_call (0 : ℤ) (by simp) (by simp) ?_
      refine machineFamily_call (0 : ℤ) (by simp) (by simp) ?_
      refine machineFamily_call (0 : ℤ) (by simp) (by simp) ?_
      refine machineFamily_call now (by simp) (by simp) ?_
      refine machineFamily_spawn (1 : ℤ) hfork ?_
      exact .refl
    case number => rfl
  have hcloned : ∃ ps, SystemReaches (machineFamily .minios)
      [(main .onMinios (.returned 0 cloningServer), .initial)] ps ∧ ps.length = 3 := by
    refine ⟨?cloned, ?cloning, ?three⟩
    case cloning =>
      refine .head (.answer (l := []) (r := []) () trivial (fun _ _ h => absurd h id)) ?_
      refine machineFamily_call (0 : ℤ) (by simp) (by simp) ?_
      refine machineFamily_call (0 : ℤ) (by simp) (by simp) ?_
      refine machineFamily_call (0 : ℤ) (by simp) (by simp) ?_
      refine machineFamily_call (7 : UInt) (by simp) (by simp) ?_
      refine machineFamily_call now (by simp) (by simp) ?_
      refine machineFamily_spawn parent hclones ?_
      exact .refl
    case three => rfl
  obtain ⟨ps, hforked, hpair⟩ := hforked
  obtain ⟨qs, hcloned, hthree⟩ := hcloned
  have hone : ¬ SpawnsOnRequest forkingServer := by simp [SpawnsOnRequest, forkingServer]
  have htwo : ¬ SpawnsOnRequest cloningServer := by simp [SpawnsOnRequest, cloningServer]
  exact ⟨⟨ps, hforked, hpair, main_family .full 0 forkingServer hone hforked⟩,
    qs, hcloned, hthree, main_family .onMinios 0 cloningServer htwo hcloned⟩

end CloningApps.Main
