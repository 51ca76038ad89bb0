import CloningApps.Os.Clone
import CloningApps.Server.Reports

/-! # Parents and clones after `clone_prologue`

`clone_prologue` tells a clone from its parent by the result of `os_clone`. Here
the result is one that the implementation of the platform can produce, and every
other call succeeds.
-/

namespace CloningApps.Server
open Text Interaction Os Cmdline Net

/-- Cloning on a platform, as seen by a process with the given outcome of the hypervisor's call.
A clone has an identifier of its own. -/
def cloningOn (os : Platform) (outcome : ℤ) (parentId ownId : UInt) : Cloning where
  answer := fun n g r => Reaches (hypervisorEnv outcome) (osClone os n g, false) (.ret r, true)
  idBefore := parentId
  idAfter := ownId

/-- The process has reported once. -/
def ReportedOnce (P : Datagram → Prop) (w : Reporter) : Prop :=
  ∃ d, P d ∧ Accounts [d] w.sent w.emptyAcks

/-- What the parent and its clones make of the prologue. -/
structure RolesKnown (outcome : ℤ) (g : Globals) (sock : Mysocket) (myport : Port)
    (parentId ownId : UInt) (port : Fd → Port) (r : Prologue × Globals) (w : Reporter) : Prop where
  parent : outcome = 0 → r.1 = ⟨0, some false⟩
  clone : outcome = 1 → r.1 = ⟨0, some true⟩
  parentReport : outcome = 0 → g.doSendTime = true →
    ReportedOnce (IsReport sock.s ⟨false, port sock.s⟩ (parentSuffix parentId.toInt)) w
  cloneReport : outcome = 1 → g.doSendTime = true →
    ReportedOnce (fun d => ∃ s, IsReport s ⟨true, myport - (ownId - parentId).truncate 16⟩
      (childSuffix (ownId - parentId).toInt) d) w
  rebound : outcome = 1 → g.doSendTime = true → 0 ≤ sock.s → sock.s ∈ w.closed

/-- Whoever returns from `clone_prologue` has played the role it has. -/
def KnowsRoles (os : Platform) (outcome : ℤ) (g : Globals) (sock : Mysocket) (myport : Port)
    (parentId ownId : UInt) (port : Fd → Port) : Prop :=
  Safe (succeeding (cloningOn os outcome parentId ownId)) (fun _ _ => True)
    (RolesKnown outcome g sock myport parentId ownId port) (clonePrologue os g sock myport)
    (.start port)

variable {os : Platform} {outcome : ℤ} {g : Globals} {sock : Mysocket} {myport : Port}
  {parentId ownId : UInt} {port : Fd → Port} {w : Reporter}

theorem contract_of_answer (h : MeetsContract os outcome g) {r : ℤ × Globals}
    (hr : (cloningOn os outcome parentId ownId).answer (BitVec.ofInt 32 g.childrenNum) g r) :
    CloneContract outcome g r true :=
  h (.ret r) true hr

theorem ReportedOnce.of_report {P : Datagram → Prop} {d : Datagram} (n : ℕ) (hd : P d)
    (hsent : w.sent = []) (hempty : w.emptyAcks = 0) : ReportedOnce P (w.report d n) := by
  refine ⟨d, hd, ?_⟩
  simpa [Reporter.report, hsent, hempty] using Accounts.single d n

/-- What comes of an answer of `os_clone`. -/
structure AfterClone (k : Cloning) (sock : Mysocket) (myport : Port) (port : Fd → Port)
    (cloned : ℤ × Globals) (r : Prologue × Globals) (w : Reporter) : Prop where
  parent : cloned.1 = 0 → r.1 = ⟨0, some false⟩
  clone : cloned.1 = 1 → r.1 = ⟨0, some true⟩
  parentReport : cloned.1 = 0 → cloned.2.doSendTime = true →
    ReportedOnce (IsReport sock.s ⟨false, port sock.s⟩ (parentSuffix k.idBefore.toInt)) w
  cloneReport : cloned.1 = 1 → cloned.2.doSendTime = true →
    ReportedOnce (fun d => ∃ s, IsReport s ⟨true, myport - (k.idAfter - k.idBefore).truncate 16⟩
      (childSuffix (k.idAfter - k.idBefore).toInt) d) w
  rebound : cloned.1 = 1 → cloned.2.doSendTime = true → 0 ≤ sock.s → sock.s ∈ w.closed

section AfterClone
variable {k : Cloning} {cloned : ℤ × Globals} {r : Prologue × Globals}

/-- Neither a parent nor a clone. -/
theorem AfterClone.neither (h0 : cloned.1 ≠ 0) (h1 : cloned.1 ≠ 1) :
    AfterClone k sock myport port cloned r w :=
  ⟨fun h => absurd h h0, fun h => absurd h h1, fun h => absurd h h0, fun h => absurd h h1,
    fun h => absurd h h1⟩

theorem AfterClone.silent (hg : ¬ cloned.2.doSendTime = true)
    (hr : r.1 = ⟨0, some (cloned.1 = 1)⟩) : AfterClone k sock myport port cloned r w :=
  ⟨fun h => by simp [hr, h], fun h => by simp [hr, h], fun _ h => absurd h hg,
    fun _ h => absurd h hg, fun _ h => absurd h hg⟩

/-- The report of a parent, from the socket it has. -/
theorem cloneParent_safe (hg : cloned.2.doSendTime = true) (h0 : cloned.1 = 0) (res : Timeval)
    (hend : w.endpoint sock.s = ⟨false, port sock.s⟩) (hsent : w.sent = [])
    (hempty : w.emptyAcks = 0) :
    Safe (succeeding k) (fun _ _ => True)
      (fun _ w' => AfterClone k sock myport port cloned (⟨0, some false⟩, cloned.2) w')
      (sendTime cloned.2 sock (some res) (some (parentSuffix k.idBefore.toInt))) w := by
  have h1 : cloned.1 ≠ 1 := by omega
  apply (sendTime_succeeds hg sock _ _ (fun _ _ _ _ _ _ => trivial)).mono
  rintro - w' ⟨d, n, hd, rfl⟩
  rw [hend] at hd
  exact ⟨fun _ => rfl, fun h => absurd h h1, fun _ _ => .of_report n hd hsent hempty,
    fun h => absurd h h1, fun h => absurd h h1⟩

/-- What a clone does once it knows that it is one. -/
def cloneChild (os : Platform) (g : Globals) (sock : Mysocket) (myport : Port)
    (myparentid : UInt) (res : Timeval) : SysProg (Prologue × Globals) := do
  let rc ← mysocketFini sock
  if rc ≠ 0 then
    return (⟨rc, none⟩, g)
  let myid ← sys .osGetSelfId
  let index := myid - myparentid
  let (rc, sock) ← mysocketInit os .report sock .dgram (myport - index.truncate 16)
  if rc ≠ 0 then
    return (⟨rc, none⟩, g)
  let _ ← sendTime g sock (some res) (some (childSuffix index.toInt))
  return (⟨rc, some true⟩, g)

/-- The report of a clone, from a socket of its own. -/
theorem cloneChild_safe (hg : cloned.2.doSendTime = true) (h1 : cloned.1 = 1) (res : Timeval)
    (hcloned : w.cloned = true) (hsent : w.sent = []) (hempty : w.emptyAcks = 0) :
    Safe (succeeding k) (fun _ _ => True) (AfterClone k sock myport port cloned)
      (cloneChild os cloned.2 sock myport k.idBefore res) w := by
  have hE := succeeding_still k
  have h0 : cloned.1 ≠ 0 := by omega
  apply Safe.bind
  apply (mysocketFini_succeeds sock (fun _ _ _ => trivial)).mono
  rintro rc w' ⟨rfl, hw⟩
  obtain ⟨hcloned', hsent', hempty'⟩ :
      w'.cloned = true ∧ w'.sent = [] ∧ w'.emptyAcks = 0 := by
    rw [hw]
    split <;> exact ⟨hcloned, hsent, hempty⟩
  have hclosed : 0 ≤ sock.s → sock.s ∈ w'.closed := by
    intro hs
    rw [hw, if_pos hs]
    exact List.mem_append_right _ (List.mem_singleton_self _)
  simp only [ne_eq, not_true_eq_false, if_false]
  apply Safe.call hE trivial
  intro myid hmyid
  obtain rfl : myid = k.idAfter := hmyid.trans (if_pos hcloned')
  simp only [Prog.bind]
  apply Safe.bind
  apply (mysocketInit_succeeds os sock _ (fun _ _ _ => trivial)).mono
  rintro r v ⟨s, -, rfl, rfl⟩
  simp only [not_true_eq_false, if_false]
  apply Safe.bind
  apply (sendTime_succeeds hg ⟨s, _⟩ _ _ (fun _ _ _ _ _ _ => trivial)).mono
  rintro - v ⟨d, n, hd, rfl⟩
  rw [Reporter.endpoint_opened] at hd
  exact Safe.ret hE ⟨fun h => absurd h h0, fun _ => rfl, fun h => absurd h h0,
    fun _ _ => .of_report n ⟨s, hd⟩ hsent' hempty', fun _ _ => hclosed⟩

/-- The prologue plays the role that the answer of `os_clone` gives it. -/
theorem clonePrologue_afterClone (k : Cloning) (os : Platform) (g : Globals) (sock : Mysocket)
    (myport : Port) (port : Fd → Port) :
    Safe (succeeding k) (fun _ _ => True)
      (fun r w => ∃ cloned, k.answer (BitVec.ofInt 32 g.childrenNum) g cloned ∧
        AfterClone k sock myport port cloned r w)
      (clonePrologue os g sock myport) (.start port) := by
  have hE := succeeding_still k
  apply Safe.call hE trivial
  intro id hid
  obtain rfl : id = k.idBefore := hid
  apply Safe.call hE trivial
  intro before hbefore
  have hbefore : before.1 = 0 := hbefore
  simp only [Prog.bind, hbefore, not_true_eq_false, if_false, ne_eq]
  apply Safe.call hE trivial
  intro cloned hcloned
  have hanswer : k.answer (BitVec.ofInt 32 g.childrenNum) g cloned := hcloned
  simp only [Prog.bind]
  split
  next hneg => exact Safe.ret hE ⟨cloned, hanswer, .neither (by omega) (by omega)⟩
  next =>
    apply Safe.call hE trivial
    intro after hafter
    have hafter : after.1 = 0 := hafter
    simp only [Prog.bind, hafter, not_true_eq_false, if_false]
    split
    next hg =>
      split
      next h0 =>
        apply Safe.bind
        apply (cloneParent_safe hg h0 _ rfl rfl rfl).mono
        intro _ w hw
        exact Safe.ret hE ⟨cloned, hanswer, hw⟩
      next h0 =>
        split
        next h1 =>
          apply (cloneChild_safe hg h1 _ rfl rfl rfl).mono
          intro r w hw
          exact ⟨cloned, hanswer, hw⟩
        next h1 => exact Safe.ret hE ⟨cloned, hanswer, .neither h0 h1⟩
    next hg => exact Safe.ret hE ⟨cloned, hanswer, .silent hg rfl⟩

end AfterClone

/-- The prologue relies on nothing but the contract. -/
theorem knowsRoles_of_contract (h : MeetsContract os outcome g) :
    KnowsRoles os outcome g sock myport parentId ownId port := by
  apply (clonePrologue_afterClone (cloningOn os outcome parentId ownId) os g sock myport port).mono
  rintro r w ⟨cloned, hanswer, hw⟩
  have hcontract : CloneContract outcome g cloned true :=
    @contract_of_answer _ _ _ parentId ownId h _ hanswer
  have hparent : outcome = 0 → cloned = (0, g) :=
    fun h0 => by simpa [CloneContract, h0] using hcontract
  have hclone : outcome = 1 → cloned = (1, inClone g) :=
    fun h1 => by simpa [CloneContract, h1] using hcontract
  refine ⟨fun h0 => ?_, fun h1 => ?_, fun h0 hg => ?_, fun h1 hg => ?_, fun h1 hg => ?_⟩
  · exact hw.parent (congrArg Prod.fst (hparent h0))
  · exact hw.clone (congrArg Prod.fst (hclone h1))
  · have hcloned := hparent h0
    subst hcloned
    exact hw.parentReport rfl hg
  · have hcloned := hclone h1
    subst hcloned
    exact hw.cloneReport rfl hg
  · have hcloned := hclone h1
    subst hcloned
    exact hw.rebound rfl hg

/-- A clone that is told `0` reports as its parent. -/
theorem not_knowsRoles (h : (cloningOn os 1 parentId ownId).answer
      (BitVec.ofInt 32 g.childrenNum) g (0, inClone g)) :
    ¬ KnowsRoles os 1 g sock myport parentId ownId port := by
  intro hknows
  have hE := succeeding_still (cloningOn os 1 parentId ownId)
  have hasked := ((safe_call_iff hE).mp hknows).2 parentId rfl
  have htimed := ((safe_call_iff hE).mp hasked).2 (0, ⟨0, 0⟩) rfl
  have hcloned := ((safe_call_iff hE).mp htimed).2 (0, inClone g) h
  have hafter := ((safe_call_iff hE).mp hcloned).2 (0, ⟨0, 0⟩) rfl
  simp only [Prog.bind, if_true] at hafter
  by_cases hg : (inClone g).doSendTime = true
  · simp only [hg, if_true] at hafter
    obtain ⟨rc, w, hsent, -⟩ := sendTime_returns (k := cloningOn os 1 parentId ownId) hg sock
      (timersub ⟨0, 0⟩ ⟨0, 0⟩) (parentSuffix parentId.toInt) _
    have hknown := (hafter _ _ hsent.bind).clone rfl
    cases hknown
  · simp only [hg] at hafter
    have hknown := ((safe_ret_iff hE).mp hafter).clone rfl
    cases hknown

/-- The implementation of `os_clone` keeps its contract, and the prologue then knows the roles,
everywhere but in a clone of Unikraft. -/
theorem osClone_roles_iff (os : Platform) (hos : os ≠ .posix) (outcome : ℤ) (g : Globals)
    (hpos : 1 ≤ g.childrenNum) (hint : g.childrenNum < 2 ^ 31) (sock : Mysocket) (myport : Port)
    (parentId ownId : UInt) (port : Fd → Port) :
    (MeetsContract os outcome g ↔ ¬ (os = .unikraft ∧ outcome = 1)) ∧
      (KnowsRoles os outcome g sock myport parentId ownId port ↔
        ¬ (os = .unikraft ∧ outcome = 1)) := by
  have hcontract : MeetsContract os outcome g ↔ _ := meetsContract_iff hos hpos hint
  refine ⟨hcontract, fun h => ?_, fun h => knowsRoles_of_contract (hcontract.mpr h)⟩
  rintro ⟨rfl, rfl⟩
  have hanswer : (cloningOn .unikraft 1 parentId ownId).answer
      (BitVec.ofInt 32 g.childrenNum) g (0, inClone g) :=
    cloneChildren_reaches 0 (children_ne_zero hpos hint)
  exact not_knowsRoles hanswer h

/-- A clone on Mini-OS. -/
theorem osClone_roles_iff_minios :
    KnowsRoles .minios 1 { Globals.initial with doClone := true, doSendTime := true }
      ⟨3, PORT_PARENT⟩ PORT_PARENT 5 6 (fun _ => PORT_PARENT) :=
  (osClone_roles_iff .minios (by decide) 1
    { Globals.initial with doClone := true, doSendTime := true } (by decide) (by decide)
    ⟨3, PORT_PARENT⟩ PORT_PARENT 5 6 (fun _ => PORT_PARENT)).2.mpr (by decide)

/-- On Unikraft `os_clone` returns `0` in the clone, which then takes itself for the parent. -/
theorem osClone_unikraft_clone :
    ¬ MeetsContract .unikraft 1 { Globals.initial with doClone := true } ∧
      ¬ KnowsRoles .unikraft 1 { Globals.initial with doClone := true }
        ⟨3, PORT_PARENT⟩ PORT_PARENT 5 6 (fun _ => PORT_PARENT) := by
  have hanswer := @cloneChildren_reaches 1 { Globals.initial with doClone := true } 1 0 (by decide)
  refine ⟨fun h => ?_, not_knowsRoles hanswer⟩
  exact absurd ((cloneContract_afterClone_iff 0).mp (h _ _ hanswer) rfl) (by decide)

end CloningApps.Server
