import CloningApps.Server.PrologueResources

/-! # Whether a failed creation of children is reported

The prologue is run against every outcome of its calls. What is remembered is
which of the calls that make children failed, and how many children were made.
-/

namespace CloningApps.Server
open Text Interaction Os Cmdline Net

/-- Whether the process is the one that started; how many children it made; whether a call for
the time, a fork or a clone failed; and whether a fork did. -/
structure Creation where
  original : Bool
  created : ℕ
  failed : Bool
  forkFailed : Bool

namespace Creation

def effect (w : Creation) : (c : Call) → c.Answer → Creation
  | .gettimeofday, r => if r.1 = 0 then w else { w with failed := true }
  | .fork, pid =>
    if pid < 0 then { w with failed := true, forkFailed := true }
    else if pid = 0 then { w with original := false }
    else { w with created := w.created + 1 }
  | .osClone n _, r =>
    if r.1 < 0 then { w with failed := true }
    else if r.1 = 1 then { w with original := false }
    else { w with created := w.created + n.toNat }
  | _, _ => w

/-- `created` children so far, and no failure. -/
def made (created : ℕ) : Creation := ⟨true, created, false, false⟩

end Creation

/-- Every outcome of every call. The result of `os_clone` tells a parent from a clone. -/
def creationEnv : Env system Creation where
  legal
    | _, .osClone .., r => r.1 ≤ 1
    | _, _, _ => True
  effect := Creation.effect
  drift := fun _ _ => False

theorem creationEnv_still : creationEnv.Still := fun _ _ h => h

/-- A failure shows in the code, and the code `0` means that all children were made, exactly when
no fork failed. -/
def FailureReported (g : Globals) (rc : ℤ) (w : Creation) : Prop :=
  ((w.failed = true → rc ≠ 0) ↔ w.forkFailed = false) ∧
    (g.doFork = true ∨ g.doClone = true →
      ((rc = 0 → (w.created : ℤ) = g.childrenNum) ↔ w.forkFailed = false))

/-- Only the process that started is looked at. -/
def ReportedInOriginal (g : Globals) (p : Prologue) (w : Creation) : Prop :=
  w.original = true → FailureReported g p.rc w

abbrev SafeCreation {α : Type} (post : α → Creation → Prop) (p : SysProg α) (w : Creation) : Prop :=
  Safe creationEnv (fun _ _ => True) post p w

variable {α : Type} {g : Globals} {w : Creation} {rc : ℤ} {created : ℕ} {sock : Mysocket}

theorem FailureReported.of_error (hrc : rc ≠ 0) (hfork : w.forkFailed = false) : FailureReported g rc w :=
  ⟨iff_of_true (fun _ => hrc) hfork, fun _ => iff_of_true (fun h => absurd h hrc) hfork⟩

theorem FailureReported.of_made (h : g.doFork = true ∨ g.doClone = true → (created : ℤ) = g.childrenNum) :
    FailureReported g rc (.made created) :=
  ⟨iff_of_true (by simp [Creation.made]) rfl, fun hmode => iff_of_true (fun _ => h hmode) rfl⟩

/-- A fork that fails leaves the code of the call before. -/
theorem FailureReported.of_fork_failed (hcreated : (created : ℤ) < g.childrenNum) :
    FailureReported g 0 ⟨true, created, true, true⟩ := by
  constructor
  · simp
  · intro _
    simp [hcreated.ne]

/-! ## The calls -/

/-- The calls that do not concern the creation of children. -/
def BystanderCall : Call → Prop
  | .gettimeofday | .fork | .osClone .. => False
  | _ => True

theorem creationEnv_bystander {c : Call} (hc : BystanderCall c) (a : c.Answer) :
    creationEnv.effect w c a = w := by
  cases c with
  | gettimeofday | fork | osClone => exact absurd hc id
  | _ => rfl

theorem bystander_safe {p : SysProg α} (hp : OnlyCalls BystanderCall p) :
    SafeCreation (fun _ w' => w' = w) p w := by
  apply Safe.frame (· = w) (creationEnv_still.stable _) (fun _ _ _ _ => trivial) ?_ hp rfl
  rintro v c a hc rfl _
  exact creationEnv_bystander hc a

theorem call_bystander {post : α → Creation → Prop} {c : Call} {k : c.Answer → SysProg α}
    (hc : BystanderCall c) (hk : ∀ a, SafeCreation post (k a) w) :
    SafeCreation post (.call c k) w := by
  apply Safe.call creationEnv_still trivial
  intro a _
  rw [creationEnv_bystander hc]
  exact hk a

theorem StartCall.bystander {c : Call} (h : StartCall c) : BystanderCall c := by
  cases c with
  | gettimeofday | fork | osClone => exact absurd h id
  | _ => trivial

theorem SendCall.bystander {c : Call} (h : SendCall c) : BystanderCall c := by
  cases c with
  | gettimeofday | fork | osClone => exact absurd h id
  | _ => trivial

theorem mysocketFini_bystander (sock : Mysocket) : OnlyCalls BystanderCall (mysocketFini sock) := by
  apply (mysocketFini_closes sock).mono
  rintro _ rfl
  trivial

/-- A report whose time is given is no concern of the creation. -/
theorem report_safe (g : Globals) (sock : Mysocket) (tv : Timeval) (suffix : Option CStr) :
    SafeCreation (fun _ w' => w' = w) (sendTime g sock (some tv) suffix) w :=
  bystander_safe ((sendTime_sendCalls g sock tv suffix).mono (fun _ => SendCall.bystander))

/-- A child stays a child. -/
theorem child_safe (g : Globals) {p : SysProg α} (hp : OnlyCalls PrologueCall p) {rc : α → Prologue}
    (hw : w.original = false) :
    SafeCreation (fun r w' => ReportedInOriginal g (rc r) w') p w := by
  refine (Safe.frame (fun w => w.original = false) (creationEnv_still.stable _)
    (fun _ _ _ _ => trivial) ?_ hp hw).mono ?_
  · intro w c a _ hw _
    cases c with
    | gettimeofday | fork | osClone =>
      simp only [creationEnv, Creation.effect]
      split_ifs <;> simp [hw]
    | _ => exact hw
  · intro r w' hw' horiginal
    exact absurd (hw'.symm.trans horiginal) (by simp)

@[simp] theorem creation_clock_ok (w : Creation) {r : ℤ × Timeval} (hr : r.1 = 0) :
    creationEnv.effect w .gettimeofday r = w := by
  simp [creationEnv, Creation.effect, hr]

theorem creation_clock_failed (g : Globals) {r : ℤ × Timeval} (hr : r.1 ≠ 0)
    (hw : w.forkFailed = false) : FailureReported g r.1 (creationEnv.effect w .gettimeofday r) := by
  apply FailureReported.of_error hr
  simp [creationEnv, Creation.effect, hr, hw]

/-! ## Forking and cloning -/

/-- Each round makes one child, or ends the loop. -/
theorem forkLoop_creation (os : Platform) (g : Globals) (n : ℕ) (i : ℤ) (sock : Mysocket)
    (myport : Port) (created : ℕ) (hn : ((created + n : ℕ) : ℤ) = g.childrenNum) :
    SafeCreation (ReportedInOriginal g) (forkLoop os g n i sock myport) (.made created) := by
  have hE := creationEnv_still
  induction n generalizing i myport created with
  | zero => exact Safe.ret hE (fun _ => .of_made (fun _ => hn))
  | succ n ih =>
    have hcalls := forkLoop_calls os g (n + 1) i sock myport
    apply Safe.call hE trivial
    intro before _
    have hround := hcalls.answered before
    simp only [Prog.bind] at hround ⊢
    split
    next hrc => exact Safe.ret hE (fun _ => creation_clock_failed g hrc rfl)
    next hrc =>
      rw [if_neg hrc] at hround
      rw [creation_clock_ok _ (not_not.mp hrc)]
      apply Safe.call hE trivial
      intro (pid : ℤ) _
      have hforked := hround.answered pid
      simp only [Prog.bind] at hforked ⊢
      split
      next hneg =>
        have hfailed : creationEnv.effect (.made created) .fork pid =
            ⟨true, created, true, true⟩ := if_pos hneg
        rw [not_not.mp hrc, hfailed]
        exact Safe.ret hE (fun _ => .of_fork_failed (by omega))
      next hneg =>
        by_cases hzero : pid = 0
        · rw [if_neg hneg] at hforked
          apply child_safe g hforked
          simp [creationEnv, Creation.effect, hzero]
        · have hmade : creationEnv.effect (.made created) .fork pid = .made (created + 1) := by
            simp only [creationEnv, Creation.effect, hneg, hzero, if_false]
            rfl
          rw [hmade]
          apply Safe.call hE trivial
          intro after _
          simp only [Prog.bind]
          split
          next hrc => exact Safe.ret hE (fun _ => creation_clock_failed g hrc rfl)
          next hrc =>
            rw [creation_clock_ok _ (not_not.mp hrc)]
            have hleft : ((created + 1 + n : ℕ) : ℤ) = g.childrenNum := by omega
            split
            next =>
              apply Safe.bind
              apply (report_safe g sock _ _).mono
              rintro _ _ rfl
              exact ih _ _ _ hleft
            next => exact ih _ _ _ hleft

theorem toNat_children (hN : 1 ≤ g.childrenNum) (hint : g.childrenNum < 2 ^ 31) :
    ((BitVec.ofInt 32 g.childrenNum).toNat : ℤ) = g.childrenNum := by
  rw [BitVec.toNat_ofInt]
  omega

theorem clonePrologue_creation (os : Platform) (g : Globals) (hN : 1 ≤ g.childrenNum)
    (hint : g.childrenNum < 2 ^ 31) (sock : Mysocket) (myport : Port) :
    SafeCreation (fun r => ReportedInOriginal g r.1) (clonePrologue os g sock myport)
      (.made 0) := by
  have hE := creationEnv_still
  have hcalls := clonePrologue_calls os g sock myport
  apply call_bystander (by trivial)
  intro id
  have hasked := hcalls.answered id
  apply Safe.call hE trivial
  intro before _
  have htimed := hasked.answered before
  simp only [Prog.bind] at htimed ⊢
  split
  next hrc => exact Safe.ret hE (fun _ => creation_clock_failed g hrc rfl)
  next hrc =>
    rw [if_neg hrc] at htimed
    rw [creation_clock_ok _ (not_not.mp hrc)]
    apply Safe.call hE trivial
    intro cloned hcloned
    have hle : cloned.1 ≤ 1 := hcloned
    have hanswered := htimed.answered cloned
    simp only [Prog.bind] at hanswered ⊢
    split
    next hneg =>
      apply Safe.ret hE
      intro _
      apply FailureReported.of_error hneg.ne
      simp [creationEnv, Creation.effect, hneg, Creation.made]
    next hneg =>
      by_cases hone : cloned.1 = 1
      · rw [if_neg hneg] at hanswered
        apply child_safe g hanswered
        simp [creationEnv, Creation.effect, hone]
      · have hzero : cloned.1 = 0 := by omega
        let children := BitVec.ofInt 32 g.childrenNum
        have hmade : creationEnv.effect (.made 0) (.osClone children g) cloned =
            .made children.toNat := by
          simp [creationEnv, Creation.effect, hzero, Creation.made]
        have hall : FailureReported g 0 (.made children.toNat) :=
          .of_made (fun _ => toNat_children hN hint)
        rw [hmade]
        apply Safe.call hE trivial
        intro after _
        simp only [Prog.bind]
        split
        next hrc => exact Safe.ret hE (fun _ => creation_clock_failed g hrc rfl)
        next hrc =>
          rw [creation_clock_ok _ (not_not.mp hrc), not_not.mp hrc]
          simp only [hzero]
          split
          next =>
            apply Safe.bind
            apply (report_safe _ sock _ _).mono
            rintro _ _ rfl
            exact Safe.ret hE (fun _ => hall)
          next => exact Safe.ret hE (fun _ => hall)

/-! ## The prologue -/

theorem afterReport_creation (os : Platform) (g : Globals) (hN : 1 ≤ g.childrenNum)
    (hint : g.childrenNum < 2 ^ 31) (sock : Mysocket) (myport : Port) :
    SafeCreation (fun r => ReportedInOriginal g r.1) (afterReport os g sock myport)
      (.made 0) := by
  have hE := creationEnv_still
  unfold afterReport
  split
  next =>
    have hpos : ¬ g.childrenNum ≤ 0 := by omega
    simp only [forkPrologue, hpos, if_false]
    apply Safe.bind
    apply (forkLoop_creation os g _ 0 sock myport 0 (by omega)).mono
    intro p w' hw'
    exact Safe.ret hE hw'
  next hfork =>
    split
    next => exact clonePrologue_creation os g hN hint sock myport
    next hclone =>
      apply Safe.bind
      apply (bystander_safe (mysocketFini_bystander sock)).mono
      rintro rc _ rfl
      apply Safe.ret hE
      intro _
      by_cases hrc : rc = 0
      · subst hrc
        exact .of_made (fun hmode => absurd hmode (by simp [hfork, hclone]))
      · exact .of_error hrc rfl

/-- The first report fails, or no call has failed yet. -/
theorem sendTime_creation (g : Globals) (sock : Mysocket) :
    SafeCreation (fun rc w => (rc ≠ 0 → w.forkFailed = false) ∧ (rc = 0 → w = .made 0))
      (sendTime g sock none none) (.made 0) := by
  have hE := creationEnv_still
  unfold sendTime
  split
  · exact Safe.ret hE ⟨fun _ => rfl, fun _ => rfl⟩
  · apply Safe.call hE trivial
    intro r _
    simp only [Prog.bind]
    split
    next hrc =>
      refine Safe.ret hE ⟨fun _ => ?_, fun h => absurd h hrc⟩
      simp [creationEnv, Creation.effect, hrc, Creation.made]
    next hrc =>
      rw [creation_clock_ok _ (not_not.mp hrc)]
      apply (bystander_safe ((sendTimeval_sendCalls sock none r.2).mono
        (fun _ => SendCall.bystander))).mono
      rintro rc _ rfl
      exact ⟨fun _ => rfl, fun _ => rfl⟩

/-- The prologue returns an error when a call for the time, a fork or a clone failed, and makes
all children otherwise, in the runs in which no fork fails and in no other run that returns. -/
theorem serverPrologue_reports_iff (os : Platform) (g : Globals) (hN : 1 ≤ g.childrenNum)
    (hint : g.childrenNum < 2 ^ 31) :
    SafeCreation (fun r => ReportedInOriginal g r.1) (serverPrologue os g) (.made 0) := by
  have hE := creationEnv_still
  refine call_bystander (by trivial) (fun x => call_bystander (by trivial) (fun y => ?_))
  simp only [Prog.pure_eq, Prog.bind_eq, Prog.ret_bind]
  split
  next =>
    apply Safe.bind
    apply (bystander_safe ((mysocketInit_startCalls os .report _ .dgram PORT_PARENT).mono
      (fun _ => StartCall.bystander))).mono
    rintro r _ rfl
    split
    next hrc => exact Safe.ret hE (fun _ => .of_error hrc rfl)
    next =>
      apply Safe.bind
      apply (sendTime_creation g r.2).mono
      rintro rc w' ⟨hfork, hmade⟩
      split
      next hrc => exact Safe.ret hE (fun _ => .of_error hrc (hfork hrc))
      next hrc =>
        rw [hmade (not_not.mp hrc)]
        exact afterReport_creation os g hN hint r.2 PORT_PARENT
  next =>
    apply call_bystander (by trivial)
    intro z
    exact afterReport_creation os g hN hint _ _

theorem serverPrologue_reports_iff_two :
    SafeCreation (fun r => ReportedInOriginal
        { Globals.initial with doFork := true, childrenNum := 2 } r.1)
      (serverPrologue .posix { Globals.initial with doFork := true, childrenNum := 2 })
      (.made 0) :=
  serverPrologue_reports_iff .posix { Globals.initial with doFork := true, childrenNum := 2 }
    (by decide) (by decide)

/-- The only fork fails, and the prologue returns `0`. -/
theorem failed_fork_unreported :
    ¬ SafeCreation (fun r w => w.original = true → (w.failed = true → r.1.rc ≠ 0) ∧
        (r.1.rc = 0 → w.created = 1))
      (serverPrologue .posix { Globals.initial with doFork := true }) (.made 0) := by
  intro h
  have hfd := h.step (.call (0 : ℤ) trivial)
  have hport := hfd.step (.call (0 : ℤ) trivial)
  have hmyport := hport.step (.call (0 : ℤ) trivial)
  let now : ℤ × Timeval := (0, ⟨5, 7⟩)
  have htimed := hmyport.step (.call now trivial)
  have hforked := htimed.step (.call (-1 : ℤ) trivial)
  exact (hforked.meets rfl).1 rfl rfl

end CloningApps.Server
