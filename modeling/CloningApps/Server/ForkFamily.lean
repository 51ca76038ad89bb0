import CloningApps.Interaction.Family
import CloningApps.Server.PrologueResources
import CloningApps.Server.Reports

/-! # The processes of `fork_prologue`

The original process forks once in every round and the child of a round leaves
the loop, so the family is flat. Each process reports what it has to, and nothing else.
-/

namespace CloningApps.Server
open Text Interaction Os Cmdline Net

/-- The sockets of the parent stay open in a child, which has sent nothing yet. -/
def Reporter.spawn (w : Reporter) : Reporter :=
  ⟨fun s => { w.endpoint s with own := false }, [], [], 0, w.cloned⟩

def forking (k : Cloning) : Forking system Reporter where
  env := succeeding k
  fork := .fork
  inChild := (0 : ℤ)
  spawn := Reporter.spawn

/-- The reports of a process since `w`, the `i`-th of which meets `P i`. A process that has
returned has made all of them, with one repetition for each empty answer. -/
def Reported (P : ℕ → Datagram → Prop) (total : ℕ) (w : Reporter)
    (t : ProcessTree Prologue Reporter) :
    Prop :=
  ∃ rs ds n, Accounts rs ds n ∧ t.world.sent = w.sent ++ ds ∧ rs.length ≤ total ∧
    (∀ i (h : i < rs.length), P i rs[i]) ∧
    (t.result ≠ none → rs.length = total ∧ t.world.emptyAcks = w.emptyAcks + n)

/-- A child reports once, from a socket that it opened itself. -/
structure IsChild (port : Port) (i : ℤ) (t : ProcessTree Prologue Reporter) : Prop where
  childless : t.children = []
  result : ∀ r, t.result = some r → r = ⟨0, some true⟩
  reported : Reported (fun _ d => ∃ s, IsReport s ⟨true, port⟩ (childSuffix i) d) 1 (.start 0) t

/-- The original process of a loop over `n` indices from `i` on. -/
structure FlatFamily (n : ℕ) (i : ℤ) (sock : Mysocket) (myport : Port) (w : Reporter)
    (t : ProcessTree Prologue Reporter) : Prop where
  length_le : t.children.length ≤ n
  complete : t.result ≠ none → t.children.length = n
  result : ∀ r, t.result = some r → r = ⟨0, some false⟩
  child : ∀ j (h : j < t.children.length),
    IsChild (myport - BitVec.ofNat 16 (j + 1)) (i + j) t.children[j]
  reported : Reported (fun j => IsReport sock.s (w.endpoint sock.s) (parentSuffix (i + j)))
    t.children.length w t

variable {k : Cloning} {w w' : Reporter} {t child : ProcessTree Prologue Reporter}
  {P : ℕ → Datagram → Prop} {d : Datagram} {n m : ℕ} {i : ℤ} {sock : Mysocket} {myport : Port}

/-! ## Reports -/

theorem Reported.none (hsent : t.world.sent = w.sent) (hresult : t.result = Option.none) :
    Reported P n w t :=
  ⟨[], [], 0, .nil, by simp [hsent], Nat.zero_le n, by simp, fun h => absurd hresult h⟩

/-- A process that is sending its first report. -/
theorem Reported.sending (hn : 0 < n) (hd : P 0 d)
    (hsent : t.world.sent = w.sent ++ List.replicate m d) (hresult : t.result = Option.none) :
    Reported P n w t := by
  cases m with
  | zero => exact .none (by simpa using hsent) hresult
  | succ m =>
    refine ⟨[d], _, m, .single d m, hsent, hn, fun i hi => ?_, fun h => absurd hresult h⟩
    obtain rfl : i = 0 := by simpa using hi
    exact hd

theorem Reported.single (hd : P 0 d) (hsent : t.world.sent = w.sent ++ List.replicate (m + 1) d)
    (hempty : t.world.emptyAcks = w.emptyAcks + m) : Reported P 1 w t := by
  refine ⟨[d], _, m, .single d m, hsent, le_refl 1, fun i hi => ?_, fun _ => ⟨rfl, hempty⟩⟩
  obtain rfl : i = 0 := by simpa using hi
  exact hd

/-- One report more, before the others. -/
theorem Reported.cons {child : ProcessTree Prologue Reporter} (hd : P 0 d)
    (h : Reported (fun i => P (i + 1)) n (w.report d m) t) :
    Reported P (n + 1) w (t.withChild child) := by
  obtain ⟨rs, ds, j, haccounts, hsent, hlength, hP, hdone⟩ := h
  refine ⟨d :: rs, _, m + j, haccounts.cons d m, ?_, by simpa using hlength, ?_, ?_⟩
  · simp [hsent, Reporter.report]
  · intro i hi
    cases i with
    | zero => exact hd
    | succ i => exact hP i (by simpa using hi)
  · intro hresult
    obtain ⟨hrs, hempty⟩ := hdone hresult
    refine ⟨by simp [hrs], ?_⟩
    simp only [ProcessTree.world_withChild, hempty, Reporter.report]
    omega

/-! ## Families -/

theorem FlatFamily.waiting (hsent : w'.sent = w.sent) :
    FlatFamily n i sock myport w (.node none w' []) where
  length_le := Nat.zero_le n
  complete := fun h => absurd rfl h
  result := fun _ h => nomatch h
  child := fun _ h => absurd h (Nat.not_lt_zero _)
  reported := .none hsent rfl

theorem FlatFamily.done :
    FlatFamily 0 i sock myport w (.node (some ⟨0, some false⟩) w []) where
  length_le := le_refl 0
  complete := fun _ => rfl
  result := fun _ h => (Option.some.inj h).symm
  child := fun _ h => absurd h (Nat.not_lt_zero _)
  reported :=
    ⟨[], [], 0, .nil, by simp [ProcessTree.world], le_refl 0, by simp, fun _ => ⟨rfl, rfl⟩⟩

theorem port_succ (myport : Port) (j : ℕ) :
    myport - 1 - BitVec.ofNat 16 (j + 1) = myport - BitVec.ofNat 16 (j + 1 + 1) := by
  bv_omega

/-- The children of a loop after its first round. -/
theorem FlatFamily.child_cons (hchild : IsChild (myport - 1) i child)
    (h : ∀ j (h : j < t.children.length),
      IsChild (myport - 1 - BitVec.ofNat 16 (j + 1)) (i + 1 + j) t.children[j]) :
    ∀ j (h : j < (t.withChild child).children.length),
      IsChild (myport - BitVec.ofNat 16 (j + 1)) (i + j) (t.withChild child).children[j] := by
  intro j hj
  cases j with
  | zero => simpa using hchild
  | succ j =>
    have hport := port_succ myport j
    have hindex : i + 1 + (j : ℤ) = i + ((j + 1 : ℕ) : ℤ) := by
      push_cast
      ring
    have hj' : j < t.children.length := by simpa using hj
    have hround := h j hj'
    rw [hport, hindex] at hround
    exact hround

/-- The parent has not yet reported after its first fork. -/
theorem FlatFamily.forked (hchild : IsChild (myport - 1) i child) (hsent : w'.sent = w.sent) :
    FlatFamily (n + 1) i sock myport w ((ProcessTree.node none w' []).withChild child) where
  length_le := Nat.succ_le_succ (Nat.zero_le n)
  complete := fun h => absurd rfl h
  result := fun _ h => nomatch h
  child := child_cons hchild (fun _ h => absurd h (Nat.not_lt_zero _))
  reported := .none hsent rfl

/-- The parent sends the report of its first round. -/
theorem FlatFamily.sending (hchild : IsChild (myport - 1) i child)
    (hd : IsReport sock.s (w.endpoint sock.s) (parentSuffix i) d)
    (hsent : w'.sent = w.sent ++ List.replicate m d) :
    FlatFamily (n + 1) i sock myport w ((ProcessTree.node none w' []).withChild child) where
  length_le := Nat.succ_le_succ (Nat.zero_le n)
  complete := fun h => absurd rfl h
  result := fun _ h => nomatch h
  child := child_cons hchild (fun _ h => absurd h (Nat.not_lt_zero _))
  reported := .sending Nat.one_pos (by simpa using hd) hsent rfl

/-- The round of the first child and the rounds after it. -/
theorem FlatFamily.round (hchild : IsChild (myport - 1) i child)
    (hd : IsReport sock.s (w.endpoint sock.s) (parentSuffix i) d)
    (h : FlatFamily n (i + 1) sock (myport - 1) (w.report d m) t) :
    FlatFamily (n + 1) i sock myport w (t.withChild child) where
  length_le := Nat.succ_le_succ h.length_le
  complete := fun hr => congrArg Nat.succ (h.complete hr)
  result := h.result
  child := child_cons hchild h.child
  reported := by
    refine .cons (m := m) (by simpa using hd) ?_
    have hindex : ∀ j : ℕ, i + ((j + 1 : ℕ) : ℤ) = i + 1 + j := by
      intro j
      push_cast
      ring
    simp only [hindex]
    exact h.reported

theorem FlatFamily.size (h : FlatFamily n i sock myport w t) (hr : t.result ≠ none) :
    t.size = n + 1 := by
  have hchildless : ∀ c ∈ t.children, c.children = [] := by
    intro c hc
    obtain ⟨j, hj, rfl⟩ := List.mem_iff_getElem.mp hc
    exact (h.child j hj).childless
  rw [ProcessTree.size_of_childless_children hchildless, h.complete hr]

/-! ## The loop -/

/-- A child waiting for an answer may be sending its report. -/
def childGuard (port : Port) (i : ℤ) (w : Reporter) (_ : Call) : Prop :=
  ∃ s d m, IsReport s ⟨true, port⟩ (childSuffix i) d ∧ w.sent = List.replicate m d

theorem childGuard_of_unsent {port : Port} (hsent : w.sent = []) (c : Call) :
    childGuard port i w c :=
  ⟨0, ⟨0, ⟨true, port⟩, ⟨0, COLLECTOR_PORT⟩, timeMessage ⟨0, 0⟩ (some (childSuffix i))⟩, 0,
    ⟨rfl, rfl, rfl, _, rfl⟩, hsent⟩

theorem IsChild.waiting {port : Port} {c : Call} (h : childGuard port i w c) :
    IsChild port i (.node none w []) := by
  obtain ⟨s, d, m, hd, hsent⟩ := h
  exact ⟨rfl, fun _ h => (nomatch h), .sending Nat.one_pos ⟨s, hd⟩ hsent rfl⟩

theorem reportCall_single {α : Type} {p : SysProg α} (h : OnlyCalls ReportCall p) :
    Single (forking k) p :=
  h.mono (fun _ hc hfork => by subst hfork; exact hc)

/-- The rest of a child of round `i`. -/
def forkChild (os : Platform) (g : Globals) (sock : Mysocket) (port : Port) (i : ℤ)
    (res : Timeval) : SysProg Prologue := do
  let rc ← mysocketFini sock
  if rc ≠ 0 then
    return ⟨rc, none⟩
  let (rc, sock) ← mysocketInit os .report sock .dgram port
  if rc ≠ 0 then
    return ⟨rc, none⟩
  let _ ← sendTime g sock (some res) (some (childSuffix i))
  return ⟨rc, some true⟩

theorem forkChild_calls (os : Platform) (g : Globals) (sock : Mysocket) (port : Port) (i : ℤ)
    (res : Timeval) : OnlyCalls ReportCall (forkChild os g sock port i res) := by
  apply (mysocketFini_calls sock).bind
  intro rc
  split
  · exact .ret _
  · apply (mysocketInit_calls os sock .dgram port).bind
    intro r
    dsimp only
    split
    · exact .ret _
    · exact (sendTime_calls ..).bind (fun _ => .ret _)

theorem forkChild_family (os : Platform) {g : Globals} (hg : g.doSendTime = true)
    (sock : Mysocket) (port : Port) (i : ℤ) (res : Timeval) (hsent : w.sent = [])
    (hempty : w.emptyAcks = 0) :
    Families (forking k) (IsChild port i) (forkChild os g sock port i res) w := by
  refine Families.of_safe (childGuard port i)
    (reportCall_single (forkChild_calls os g sock port i res)) (fun _ _ h => .waiting h) ?_
  have hfini : ∀ w' c, w'.sent = w.sent → childGuard port i w' c :=
    fun w' c h => childGuard_of_unsent (h.trans hsent) c
  apply Safe.bind
  apply (mysocketFini_succeeds sock hfini).mono
  rintro rc w' ⟨rfl, hw⟩
  have hsent' : w'.sent = [] := by
    rw [hw]
    split <;> exact hsent
  have hempty' : w'.emptyAcks = 0 := by
    rw [hw]
    split <;> exact hempty
  simp only [not_true_eq_false, if_false, ne_eq]
  have hinit : ∀ v c, v.sent = w'.sent → childGuard port i v c :=
    fun v c h => childGuard_of_unsent (h.trans hsent') c
  apply Safe.bind
  apply (mysocketInit_succeeds os sock port hinit).mono
  rintro r v ⟨s, -, rfl, rfl⟩
  simp only [not_true_eq_false, if_false]
  have hend : (w'.opened s port).endpoint s = ⟨true, port⟩ := Reporter.endpoint_opened ..
  refine Safe.bind ((sendTime_succeeds hg ⟨s, port⟩ res (childSuffix i) ?_).mono ?_)
  · intro v c d m hd hv
    exact ⟨s, d, m, hend ▸ hd, by simpa [hsent'] using hv⟩
  · rintro _ v ⟨d, m, hd, rfl⟩
    refine Safe.ret (succeeding_still k) ⟨rfl, fun r h => (Option.some.inj h).symm, ?_⟩
    refine .single (m := m) ⟨s, hend ▸ hd⟩ ?_ ?_
    · simp [Reporter.start, Reporter.report, ProcessTree.world, hsent']
    · simp [Reporter.start, Reporter.report, ProcessTree.world, Reporter.opened, hempty']

theorem forkLoop_family (os : Platform) {g : Globals} (hg : g.doSendTime = true) (n : ℕ) (i : ℤ)
    (sock : Mysocket) (myport : Port) (w : Reporter) :
    Families (forking k) (FlatFamily n i sock myport w) (forkLoop os g n i sock myport) w := by
  induction n generalizing i myport w with
  | zero => exact Families.ret .done
  | succ n ih =>
    refine Families.call (nofun) (.waiting rfl) (fun before hbefore => ?_)
    have hbefore : before.1 = 0 := hbefore
    simp only [Prog.bind, hbefore, ne_eq, not_true_eq_false, if_false]
    refine Families.fork (b := (0 : ℤ)) (IsChild (myport - 1) i) rfl (.waiting rfl) ?_ ?_
    · simp only [Prog.bind, lt_irrefl, if_false]
      refine Families.call (nofun) (.waiting (childGuard_of_unsent rfl .fork))
        (fun after hafter => ?_)
      have hafter : after.1 = 0 := hafter
      simp only [Prog.bind, hafter, not_true_eq_false, if_false, if_true, hg]
      exact forkChild_family os hg sock (myport - 1) i _ rfl rfl
    · rintro (pid : ℤ) child hpid hchild
      have hpid : 0 < pid := hpid
      have hneg : ¬ pid < 0 := by omega
      have hne : ¬ pid = 0 := by omega
      simp only [Prog.bind, hneg, if_false]
      refine Families.call (nofun) (.forked hchild rfl) (fun after hafter => ?_)
      have hafter : after.1 = 0 := hafter
      simp only [Prog.bind, hafter, not_true_eq_false, if_false, hne, hg, if_true]
      let parentGuard : Reporter → Call → Prop := fun v _ => ∃ d m,
        IsReport sock.s (w.endpoint sock.s) (parentSuffix i) d ∧
          v.sent = w.sent ++ List.replicate m d
      refine Families.bind parentGuard (reportCall_single (sendTime_calls ..)) ?_
        ((sendTime_succeeds hg sock _ _ (fun v c d m hd hv => ⟨d, m, hd, hv⟩)).mono ?_)
      · rintro v - ⟨d, m, hd, hv⟩
        exact .sending hchild hd hv
      · rintro - v ⟨d, m, hd, rfl⟩
        exact (ih (i + 1) (myport - 1) _).mono (fun t ht => .round hchild hd ht)

/-! ## Families in which everybody returns -/

theorem forkChild_returns (os : Platform) {g : Globals} (hg : g.doSendTime = true)
    (sock : Mysocket) (port : Port) (i : ℤ) (res : Timeval) (w : Reporter) :
    Returns (succeeding k) (fun _ _ => True) (forkChild os g sock port i res) w := by
  apply Returns.bind (mysocketFini_returns sock w)
  intro rc w' _
  split
  · exact .ret trivial
  · apply Returns.bind (mysocketInit_returns os sock port w')
    intro r v _
    dsimp only
    split
    · exact .ret trivial
    · exact .bind (sendTime_returns hg ..) (fun _ _ _ => .ret trivial)

/-- Acknowledged reports let the whole family return. -/
theorem forkLoop_completes (os : Platform) {g : Globals} (hg : g.doSendTime = true) (n : ℕ)
    (i : ℤ) (sock : Mysocket) (myport : Port) (w : Reporter) :
    Completes (forking k) (forkLoop os g n i sock myport) w := by
  let now : ℤ × Timeval := (0, ⟨0, 0⟩)
  induction n generalizing i myport w with
  | zero => exact .ret _ _
  | succ n ih =>
    refine .call (nofun) now (Eq.refl (0 : ℤ)) ?_
    refine .fork (b := (0 : ℤ)) rfl (1 : ℤ) Int.one_pos ?_ ?_
    · refine .call (nofun) now (Eq.refl (0 : ℤ)) ?_
      simp only [Prog.bind, if_true, hg]
      exact .of_returns (succeeding_still k)
        (reportCall_single (forkChild_calls os g sock (myport - 1) i _))
        (forkChild_returns os hg sock (myport - 1) i _ _)
    · refine .call (nofun) now (Eq.refl (0 : ℤ)) ?_
      simp only [Prog.bind, if_false, one_ne_zero, if_true, hg]
      exact .bind (succeeding_still k) (reportCall_single (sendTime_calls ..))
        (sendTime_returns hg ..) (fun _ w' => ih (i + 1) (myport - 1) w')

/-! ## When the prologue forks

The gateway is looked up for every report. With reporting on, a process that forks has already
reported its boot time, so the lookup has succeeded before.
-/

/-- Whether the gateway has been found. -/
def gatewayEnv : Env system Bool where
  legal := fun _ _ _ => True
  effect
    | found, .osNetIpGetGw, r => found || decide (r.1 = 0)
    | found, _, _ => found
  drift := fun _ _ => False

theorem gatewayEnv_still : gatewayEnv.Still := fun _ _ h => h

def forkGuard (g : Globals) (found : Bool) (c : Call) : Prop :=
  c = .fork → g.doSendTime = true → found = true

theorem forkGuard_of_ne {g : Globals} {found : Bool} {c : Call} (h : c ≠ .fork) :
    forkGuard g found c :=
  fun hc => absurd hc h

theorem gatewayEnv_keeps (c : Call) (a : c.Answer) : gatewayEnv.effect true c a = true := by
  cases c <;> rfl

/-- Reporting does not fork. -/
theorem report_guard {α : Type} {g : Globals} {p : SysProg α} (hp : OnlyCalls ReportCall p)
    (found : Bool) : Safe gatewayEnv (forkGuard g) (fun _ _ => True) p found :=
  Safe.frame (fun _ => True) (gatewayEnv_still.stable _)
    (fun _ c hc _ => forkGuard_of_ne (fun hfork => by subst hfork; exact hc))
    (fun _ _ _ _ _ _ => trivial) hp trivial

theorem found_guard {α : Type} {g : Globals} {p : SysProg α} (hp : OnlyCalls PrologueCall p) :
    Safe gatewayEnv (forkGuard g) (fun _ found => found = true) p true :=
  Safe.frame (· = true) (gatewayEnv_still.stable _) (fun _ _ _ h _ _ => h)
    (fun _ c a _ h _ => h ▸ gatewayEnv_keeps c a) hp rfl

theorem sendTime_finds (g : Globals) (sock : Mysocket) (found : Bool) :
    Safe gatewayEnv (forkGuard g) (fun rc found => rc = 0 → found = true)
      (sendTime g sock none none) found := by
  unfold sendTime
  split
  · exact Safe.ret gatewayEnv_still (fun h => absurd h (by decide))
  · apply Safe.call gatewayEnv_still (forkGuard_of_ne (by simp))
    intro now _
    simp only [Prog.bind]
    split
    next hr => exact Safe.ret gatewayEnv_still (fun h => absurd h hr)
    next hr =>
      apply Safe.call gatewayEnv_still (forkGuard_of_ne (by simp))
      intro r _
      simp only [Prog.bind]
      split
      next hr => exact Safe.ret gatewayEnv_still (fun h => absurd h hr)
      next hr =>
        have hfound : gatewayEnv.effect (gatewayEnv.effect found .gettimeofday now)
            .osNetIpGetGw r = true := by
          simp [gatewayEnv, not_not.mp hr]
        rw [hfound]
        refine (found_guard (.loop (fun m => ?_) (fun _ => .ret _))).mono (fun _ _ h _ => h)
        exact prologue_of_report (sendRound_calls sock r.2 m)

/-- A fork with reporting on comes after a successful lookup of the gateway. -/
theorem serverPrologue_forks_found (os : Platform) (g : Globals) :
    Safe gatewayEnv (forkGuard g) (fun _ _ => True) (serverPrologue os g) false := by
  apply Safe.call gatewayEnv_still (forkGuard_of_ne (by simp))
  intro s _
  apply Safe.call gatewayEnv_still (forkGuard_of_ne (by simp))
  intro port _
  simp only [Prog.bind, Prog.pure_eq, Prog.bind_eq, Prog.ret_bind]
  split
  · apply Safe.bind
    apply (report_guard (mysocketInit_calls ..) _).mono
    intro r found _
    split
    · exact Safe.ret gatewayEnv_still trivial
    · apply Safe.bind
      apply (sendTime_finds g r.2 found).mono
      intro rc found hfound
      split
      next => exact Safe.ret gatewayEnv_still trivial
      next hrc =>
        rw [hfound (not_not.mp hrc)]
        exact (found_guard (afterReport_calls ..)).mono (fun _ _ _ => trivial)
  next hg =>
    have hsilent : ∀ found c, forkGuard g found c := fun _ _ _ h => absurd h hg
    apply Safe.call gatewayEnv_still (hsilent _ _)
    intro myport _
    exact Safe.frame (fun _ => True) (gatewayEnv_still.stable _)
      (fun found c _ _ => hsilent found c)
      (fun _ _ _ _ _ _ => trivial) (afterReport_calls ..) trivial

/-- With `N` children to make, the process forks `N` children in all, none of which forks again;
each process reports what belongs to its role, and `*is_child` tells them apart. -/
theorem forkPrologue_family (k : Cloning) (os : Platform) (g : Globals)
    (hN : 1 ≤ g.childrenNum) (hsend : g.doSendTime = true) (sock : Mysocket) (myport : Port)
    (w : Reporter) :
    Families (forking k)
      (fun t => FlatFamily g.childrenNum.toNat 0 sock myport w t ∧
        (t.result ≠ none → t.size = g.childrenNum.toNat + 1))
      (forkPrologue os g sock myport) w := by
  have hpos : ¬ g.childrenNum ≤ 0 := by omega
  simp only [forkPrologue, hpos, if_false]
  exact (forkLoop_family os hsend _ 0 sock myport w).mono (fun t h => ⟨h, h.size⟩)

/-- Two children, with everybody's report acknowledged. -/
theorem forkPrologue_family_two :
    ∃ t, Family (forking ⟨fun _ _ _ => False, 0, 0⟩)
        (forkPrologue .posix { Globals.initial with doSendTime := true, childrenNum := 2 }
          ⟨3, PORT_PARENT⟩ PORT_PARENT) (.start fun _ => PORT_PARENT) t ∧
      t.result = some ⟨0, some false⟩ ∧ t.size = 3 ∧ ∀ c ∈ t.children,
        c.children = [] ∧ c.result = some ⟨0, some true⟩ := by
  obtain ⟨t, ht, hdone, hchildren⟩ := forkLoop_completes (k := ⟨fun _ _ _ => False, 0, 0⟩) .posix
    (g := { Globals.initial with doSendTime := true, childrenNum := 2 }) rfl 2 0 ⟨3, PORT_PARENT⟩
    PORT_PARENT (.start fun _ => PORT_PARENT)
  obtain ⟨hflat, hsize⟩ := forkPrologue_family _ .posix
    { Globals.initial with doSendTime := true, childrenNum := 2 } (by decide) rfl
    ⟨3, PORT_PARENT⟩ PORT_PARENT _ t ht
  obtain ⟨r, hr⟩ := Option.ne_none_iff_exists'.mp hdone
  refine ⟨t, ht, hr.trans (congrArg some (hflat.result r hr)), hsize hdone, fun c hc => ?_⟩
  obtain ⟨j, hj, rfl⟩ := List.mem_iff_getElem.mp hc
  have hchild := hflat.child j hj
  obtain ⟨q, hq⟩ := Option.ne_none_iff_exists'.mp (hchildren _ hc)
  exact ⟨hchild.childless, hq.trans (congrArg some (hchild.result q hq))⟩

end CloningApps.Server
