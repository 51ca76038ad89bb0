import CloningApps.Server.CloneRoles
import CloningApps.Server.ForkFamily
import CloningApps.Server.Programs

/-! # The ports that the processes report from

The parent reports from `PORT_PARENT`, and each child or clone from a port of its
own below it. Nothing keeps these ports away from the port of the collector,
which lies three below the parent's.
-/

namespace CloningApps.Server
open Text Interaction Os Cmdline Net

/-- The process has reported, always from this port. -/
def ReportsFrom (w : Reporter) (port : Port) : Prop :=
  w.sent ≠ [] ∧ ∀ d ∈ w.sent, d.endpoint.port = port

/-- Ports that are valid, different from each other, and not used by anybody else. -/
structure Apart (ports : List Port) : Prop where
  valid : 0 ∉ ports
  distinct : ports.Nodup
  collector : COLLECTOR_PORT ∉ ports
  service : DEFAULT_SERVER_PORT ∉ ports

instance (ports : List Port) : Decidable (Apart ports) :=
  decidable_of_iff
    (0 ∉ ports ∧ ports.Nodup ∧ COLLECTOR_PORT ∉ ports ∧ DEFAULT_SERVER_PORT ∉ ports)
    ⟨fun ⟨h0, h1, h2, h3⟩ => ⟨h0, h1, h2, h3⟩, fun h => ⟨h.1, h.2, h.3, h.4⟩⟩

/-- The ports of the parent and of `n` processes made by it. -/
def portsUsed (n : ℕ) : List Port :=
  PORT_PARENT :: (List.range n).map (fun j => PORT_PARENT - BitVec.ofNat 16 (j + 1))

/-- The third of them is the port of the collector. -/
theorem apart_portsUsed_iff (n : ℕ) : Apart (portsUsed n) ↔ n ≤ 2 := by
  constructor
  · intro h
    by_contra hn
    apply h.collector
    apply List.mem_cons_of_mem
    exact List.mem_map.mpr ⟨2, List.mem_range.mpr (by omega), by decide⟩
  · intro hn
    interval_cases n <;> decide

theorem Accounts.subset {rs ds : List Datagram} {n : ℕ} (h : Accounts rs ds n) : ds ⊆ rs := by
  induction h with
  | nil => exact List.Subset.refl _
  | cons d n _ ih =>
    intro e he
    rcases List.mem_append.mp he with he | he
    · exact List.eq_of_mem_replicate he ▸ List.mem_cons_self
    · exact List.mem_cons_of_mem d (ih he)

theorem Accounts.ne_nil {rs ds : List Datagram} {n : ℕ} (h : Accounts rs ds n) (hrs : rs ≠ []) :
    ds ≠ [] := by
  cases h with
  | nil => exact absurd rfl hrs
  | cons d n _ => simp [List.replicate_succ]

/-! ## Forked children -/

/-- Once every process of a family has reported, their ports are apart. -/
def ForkPortsApart (k : Cloning) (os : Platform) (g : Globals) (sock : Mysocket)
    (w : Reporter) : Prop :=
  ∀ t ps, Family (forking k) (forkPrologue os g sock PORT_PARENT) w t →
    List.Forall₂ ReportsFrom ((t :: t.children).map ProcessTree.world) ps → Apart ps

variable {k : Cloning} {w : Reporter} {t : ProcessTree Prologue Reporter} {n : ℕ} {i : ℤ}
  {sock : Mysocket} {myport port : Port} {P : ℕ → Datagram → Prop} {total : ℕ}

/-- The datagrams sent since `w` come from the port that all the reports come from. -/
theorem Reported.from_port (h : Reported P total w t)
    (hP : ∀ i d, P i d → d.endpoint.port = port)
    (hsent : ∀ d ∈ w.sent, d.endpoint.port = port) :
    ∀ d ∈ t.world.sent, d.endpoint.port = port := by
  obtain ⟨rs, ds, _, haccounts, hworld, -, hrs, -⟩ := h
  intro d hd
  rw [hworld] at hd
  rcases List.mem_append.mp hd with hd | hd
  · exact hsent d hd
  · obtain ⟨i, hi, rfl⟩ := List.mem_iff_getElem.mp (haccounts.subset hd)
    exact hP i _ (hrs i hi)

theorem Reported.sent_ne_nil (h : Reported P total w t) (hdone : t.result ≠ Option.none)
    (htotal : total ≠ 0) : t.world.sent ≠ [] := by
  obtain ⟨rs, ds, _, haccounts, hworld, -, -, hresult⟩ := h
  have hrs : rs ≠ [] := by
    rintro rfl
    exact htotal (hresult hdone).1.symm
  rw [hworld]
  exact List.append_ne_nil_of_right_ne_nil _ (haccounts.ne_nil hrs)

theorem ReportsFrom.port_eq (h : ReportsFrom w port)
    (hall : ∀ d ∈ w.sent, d.endpoint.port = myport) : port = myport := by
  obtain ⟨d, hd⟩ := List.exists_mem_of_ne_nil _ h.1
  exact (h.2 d hd).symm.trans (hall d hd)

theorem IsChild.from_port (h : IsChild port i t) : ∀ d ∈ t.world.sent, d.endpoint.port = port := by
  apply h.reported.from_port
  · rintro _ d ⟨s, hd⟩
    rw [hd.endpoint]
  · intro d hd
    exact absurd hd List.not_mem_nil

/-- The parent sends from its socket. -/
theorem FlatFamily.parent_port (h : FlatFamily n i sock myport w t)
    (hport : (w.endpoint sock.s).port = PORT_PARENT)
    (hsent : ∀ d ∈ w.sent, d.endpoint.port = PORT_PARENT) :
    ∀ d ∈ t.world.sent, d.endpoint.port = PORT_PARENT := by
  apply h.reported.from_port _ hsent
  intro _ d hd
  rw [hd.endpoint, hport]

/-- A family uses the ports below the parent's in their order. -/
theorem FlatFamily.ports_eq (h : FlatFamily n i sock PORT_PARENT w t)
    (hport : (w.endpoint sock.s).port = PORT_PARENT)
    (hsent : ∀ d ∈ w.sent, d.endpoint.port = PORT_PARENT) {ps : List Port}
    (hps : List.Forall₂ ReportsFrom ((t :: t.children).map ProcessTree.world) ps) :
    ps = portsUsed t.children.length := by
  have hlen : ps.length = t.children.length + 1 := by
    simpa using hps.length_eq.symm
  apply List.ext_getElem
  · simp [hlen, portsUsed]
  · intro j hj hj'
    have hget := hps.get (i := j) (by simpa [hlen] using hj) hj
    cases j with
    | zero => exact hget.port_eq (h.parent_port hport hsent)
    | succ j =>
      have hchild : j < t.children.length := by omega
      have hreports : ReportsFrom t.children[j].world ps[j + 1] := by simpa using hget
      rw [hreports.port_eq (h.child j hchild).from_port]
      simp [portsUsed]

/-- When everybody has returned, everybody has reported. -/
theorem FlatFamily.reportsFrom (h : FlatFamily n i sock PORT_PARENT w t)
    (hport : (w.endpoint sock.s).port = PORT_PARENT)
    (hsent : ∀ d ∈ w.sent, d.endpoint.port = PORT_PARENT) (hn : n ≠ 0)
    (hdone : t.result ≠ none) (hall : ∀ c ∈ t.children, c.result ≠ none) :
    List.Forall₂ ReportsFrom ((t :: t.children).map ProcessTree.world) (portsUsed n) := by
  have hlen := h.complete hdone
  apply List.forall₂_iff_get.mpr
  constructor
  · simp [portsUsed, hlen]
  · intro j hj hj'
    cases j with
    | zero =>
      exact ⟨h.reported.sent_ne_nil hdone (hlen ▸ hn), h.parent_port hport hsent⟩
    | succ j =>
      have hchild : j < t.children.length := by simpa using hj
      have hworld : ReportsFrom t.children[j].world (PORT_PARENT - BitVec.ofNat 16 (j + 1)) :=
        ⟨(h.child j hchild).reported.sent_ne_nil (hall _ (List.getElem_mem hchild)) one_ne_zero,
          (h.child j hchild).from_port⟩
      simpa [portsUsed] using hworld

theorem forkPorts_apart_iff (k : Cloning) (os : Platform) {g : Globals}
    (hN : 1 ≤ g.childrenNum) (hsend : g.doSendTime = true) (sock : Mysocket)
    (hport : (w.endpoint sock.s).port = PORT_PARENT)
    (hsent : ∀ d ∈ w.sent, d.endpoint.port = PORT_PARENT) :
    ForkPortsApart k os g sock w ↔ g.childrenNum ≤ 2 := by
  have hpos : ¬ g.childrenNum ≤ 0 := by omega
  have hfork : forkPrologue os g sock PORT_PARENT =
      forkLoop os g g.childrenNum.toNat 0 sock PORT_PARENT := by
    simp only [forkPrologue, hpos, if_false]
  unfold ForkPortsApart
  rw [hfork]
  constructor
  · intro h
    obtain ⟨t, ht, hdone, hall⟩ := forkLoop_completes (k := k) os hsend g.childrenNum.toNat 0 sock
      PORT_PARENT w
    have hflat := forkLoop_family os hsend _ 0 sock PORT_PARENT w t ht
    have hreports := hflat.reportsFrom hport hsent (by omega) hdone hall
    have hle := (apart_portsUsed_iff _).mp (h t _ ht hreports)
    omega
  · intro hle t ps ht hps
    have hflat := forkLoop_family os hsend _ 0 sock PORT_PARENT w t ht
    rw [hflat.ports_eq hport hsent hps]
    apply (apart_portsUsed_iff _).mpr
    have hlength := hflat.length_le
    omega

/-! ## Clones -/

/-- A process of a group of clones with consecutive identifiers, after its prologue. The parent
has index zero. -/
def CloneMember (os : Platform) (g : Globals) (sock : Mysocket) (port : Fd → Port)
    (parentId : UInt) (i : ℕ) (w : Reporter) : Prop :=
  ∃ r, Reaches (succeeding (cloningOn os (if i = 0 then 0 else 1) parentId
      (parentId + BitVec.ofNat 32 i)))
    (clonePrologue os g sock PORT_PARENT, .start port) (.ret r, w)

/-- The ports of the parent and of all its clones are apart. -/
def ClonePortsApart (os : Platform) (g : Globals) (sock : Mysocket) (port : Fd → Port)
    (parentId : UInt) : Prop :=
  ∀ (ws : List Reporter) (ps : List Port), ws.length = g.childrenNum.toNat + 1 →
    (∀ i (h : i < ws.length), CloneMember os g sock port parentId i ws[i]) →
    List.Forall₂ ReportsFrom ws ps → Apart ps

variable {os : Platform} {g : Globals} {ports : Fd → Port} {parentId : UInt}

theorem ReportedOnce.reportsFrom {Q : Datagram → Prop} (h : ReportedOnce Q w)
    (hQ : ∀ d, Q d → d.endpoint.port = port) : ReportsFrom w port := by
  obtain ⟨d, hd, haccounts⟩ := h
  refine ⟨haccounts.ne_nil (List.cons_ne_nil d []), fun e he => ?_⟩
  obtain rfl : e = d := List.mem_singleton.mp (haccounts.subset he)
  exact hQ e hd

theorem index_port (parentId : UInt) (i : ℕ) :
    (parentId + BitVec.ofNat 32 i - parentId).truncate 16 = BitVec.ofNat 16 i := by
  rw [add_sub_cancel_left]
  apply BitVec.eq_of_toNat_eq
  simp only [BitVec.truncate_eq_setWidth, BitVec.toNat_setWidth, BitVec.toNat_ofNat]
  omega

/-- On Mini-OS a clone reports from the port of its index. -/
theorem CloneMember.port_minios (hpos : 1 ≤ g.childrenNum) (hint : g.childrenNum < 2 ^ 31)
    (hsend : g.doSendTime = true) (hport : ports sock.s = PORT_PARENT) {i : ℕ}
    (h : CloneMember .minios g sock ports parentId i w) :
    ReportsFrom w (PORT_PARENT - BitVec.ofNat 16 i) := by
  obtain ⟨r, hreach⟩ := h
  have hknows : KnowsRoles .minios (if i = 0 then 0 else 1) g sock PORT_PARENT parentId
      (parentId + BitVec.ofNat 32 i) ports :=
    knowsRoles_of_contract ((meetsContract_iff (by simp) hpos hint).mpr (by simp))
  have hroles : RolesKnown _ g sock PORT_PARENT parentId _ ports r w := hknows _ _ hreach
  by_cases hi : i = 0
  · apply (hroles.parentReport (if_pos hi) hsend).reportsFrom
    intro d hd
    rw [hd.endpoint, hport, hi]
    rfl
  · apply (hroles.cloneReport (if_neg hi) hsend).reportsFrom
    rintro d ⟨s, hd⟩
    rw [hd.endpoint, index_port]

/-- On Unikraft every clone takes itself for the parent and reports from the parent's port. -/
theorem CloneMember.port_unikraft (hpos : 1 ≤ g.childrenNum) (hint : g.childrenNum < 2 ^ 31)
    (hsend : g.doSendTime = true) (hport : ports sock.s = PORT_PARENT) {i : ℕ}
    (h : CloneMember .unikraft g sock ports parentId i w) : ReportsFrom w PORT_PARENT := by
  obtain ⟨r, hreach⟩ := h
  obtain ⟨cloned, hanswer, hafter⟩ := clonePrologue_afterClone _ _ _ _ _ _ _ _ hreach
  have hcloned : cloned = afterClone 0 (if i = 0 then 0 else 1) g :=
    cloneChildren_safe 0 (children_ne_zero hpos hint) (.ret cloned) true hanswer
  have hsend' : cloned.1 = 0 ∧ cloned.2.doSendTime = true := by
    rw [hcloned]
    by_cases hi : i = 0
    · simp [afterClone, hi, hsend]
    · simp [afterClone, hi, inClone, hsend]
  apply (hafter.parentReport hsend'.1 hsend'.2).reportsFrom
  intro d hd
  rw [hd.endpoint, hport]

theorem cloneChild_returns (hsend : g.doSendTime = true) (myport : Port) (id : UInt)
    (res : Timeval) (w : Reporter) :
    Returns (succeeding k) (fun _ _ => True) (cloneChild os g sock myport id res) w := by
  apply Returns.bind (mysocketFini_returns sock w)
  intro rc w _
  split
  · exact .ret trivial
  · have hid : ∃ id : UInt, (succeeding k).legal w .osGetSelfId id := ⟨_, rfl⟩
    obtain ⟨myid, hlegal⟩ := hid
    apply Returns.call myid hlegal
    apply Returns.bind (mysocketInit_returns os sock _ _)
    intro r w _
    dsimp only
    split
    · exact .ret trivial
    · apply Returns.bind (sendTime_returns hsend ..)
      exact fun _ _ _ => .ret trivial

/-- Whoever is told its role by `os_clone` returns from the prologue. -/
theorem clonePrologue_returns {cloned : ℤ × Globals} (myport : Port)
    (hanswer : k.answer (BitVec.ofInt 32 g.childrenNum) g cloned)
    (hrole : cloned.1 = 0 ∨ cloned.1 = 1) (hsend : cloned.2.doSendTime = true) :
    Returns (succeeding k) (fun _ _ => True) (clonePrologue os g sock myport) w := by
  let now : ℤ × Timeval := (0, ⟨0, 0⟩)
  have hneg : ¬ cloned.1 < 0 := by omega
  have hid : ∃ id : UInt, (succeeding k).legal w .osGetSelfId id := ⟨_, rfl⟩
  obtain ⟨id, hlegal⟩ := hid
  apply Returns.call id hlegal
  apply Returns.call now rfl
  apply Returns.call cloned hanswer
  simp only [Prog.bind, hneg, if_false]
  apply Returns.call now rfl
  simp only [Prog.bind, now, ne_eq, not_true_eq_false, if_false, hsend, if_true]
  rcases hrole with h0 | h1
  · simp only [h0, if_true]
    apply Returns.bind (sendTime_returns hsend ..)
    exact fun _ _ _ => .ret trivial
  · simp only [h1, one_ne_zero, if_false, if_true]
    exact cloneChild_returns hsend myport id _ _

/-- A group whose members all report, each from the port that belongs to its index. -/
theorem clonePorts_apart_iff {portOf : ℕ → Port}
    (hports : ∀ i w, CloneMember os g sock ports parentId i w → ReportsFrom w (portOf i))
    (hmember : ∀ i, ∃ w, CloneMember os g sock ports parentId i w) :
    ClonePortsApart os g sock ports parentId ↔
      Apart ((List.range (g.childrenNum.toNat + 1)).map portOf) := by
  constructor
  · intro h
    choose ws hws using hmember
    apply h ((List.range (g.childrenNum.toNat + 1)).map ws)
    · simp
    · intro i hi
      simpa using hws i
    · apply List.forall₂_iff_get.mpr
      refine ⟨by simp, fun i hi hi' => ?_⟩
      simpa using hports i _ (hws i)
  · intro h ws ps hlen hws hps
    have heq : ps = (List.range (g.childrenNum.toNat + 1)).map portOf := by
      have hlen' := hps.length_eq
      apply List.ext_getElem
      · simp [← hlen', hlen]
      · intro i hi _
        have hi' : i < ws.length := by omega
        have hfrom := hps.get hi' hi
        have hmember := (hports i _ (hws i hi')).2
        rw [List.getElem_map, List.getElem_range]
        exact hfrom.port_eq hmember
    exact heq ▸ h

theorem portsUsed_eq (n : ℕ) :
    (List.range (n + 1)).map (fun i => PORT_PARENT - BitVec.ofNat 16 i) = portsUsed n := by
  rw [List.range_succ_eq_map, List.map_cons, List.map_map]
  rfl

/-- Every member of a group can get through the prologue. -/
theorem exists_cloneMember {childRc : ℤ} (hpos : 1 ≤ g.childrenNum)
    (hint : g.childrenNum < 2 ^ 31) (hsend : g.doSendTime = true)
    (hos : osClone os (BitVec.ofInt 32 g.childrenNum) g =
      cloneChildren childRc (BitVec.ofInt 32 g.childrenNum) g)
    (hrc : childRc = 0 ∨ childRc = 1) (i : ℕ) :
    ∃ w, CloneMember os g sock ports parentId i w := by
  have hanswer : (cloningOn os (if i = 0 then 0 else 1) parentId
      (parentId + BitVec.ofNat 32 i)).answer (BitVec.ofInt 32 g.childrenNum) g
      (afterClone childRc (if i = 0 then 0 else 1) g) := by
    have hreach := @cloneChildren_reaches (if i = 0 then 0 else 1) g _ childRc
      (children_ne_zero hpos hint)
    rw [← hos] at hreach
    exact hreach
  obtain ⟨r, w, hreach, -⟩ := @clonePrologue_returns _ (.start ports) sock os g _ PORT_PARENT
    hanswer (by by_cases hi : i = 0 <;> simp [afterClone, hi, hrc])
    (by by_cases hi : i = 0 <;> simp [afterClone, hi, inClone, hsend])
  exact ⟨w, r, hreach⟩

theorem clonePorts_minios_iff (hpos : 1 ≤ g.childrenNum) (hint : g.childrenNum < 2 ^ 31)
    (hsend : g.doSendTime = true) (hport : ports sock.s = PORT_PARENT) :
    ClonePortsApart .minios g sock ports parentId ↔ g.childrenNum ≤ 2 := by
  rw [clonePorts_apart_iff (fun i w h => h.port_minios hpos hint hsend hport)
    (fun i => exists_cloneMember hpos hint hsend rfl (.inr rfl) i), portsUsed_eq,
    apart_portsUsed_iff]
  omega

theorem not_clonePorts_unikraft (hpos : 1 ≤ g.childrenNum) (hint : g.childrenNum < 2 ^ 31)
    (hsend : g.doSendTime = true) (hport : ports sock.s = PORT_PARENT) :
    ¬ ClonePortsApart .unikraft g sock ports parentId := by
  rw [clonePorts_apart_iff (fun i w h => h.port_unikraft hpos hint hsend hport)
    (fun i => exists_cloneMember hpos hint hsend rfl (.inl rfl) i)]
  intro h
  have hdistinct := h.distinct
  obtain ⟨n, hn⟩ : ∃ n, g.childrenNum.toNat = n + 1 := ⟨g.childrenNum.toNat - 1, by omega⟩
  rw [hn, List.map_const', List.length_range, List.nodup_replicate] at hdistinct
  omega

/-- The ports stay apart for two children, forked or cloned on Mini-OS, and not for more; a clone
on Unikraft always reports from the port of its parent. -/
theorem reportingPorts_apart_iff (k : Cloning) (os : Platform) (g : Globals)
    (hN : 1 ≤ g.childrenNum) (hint : g.childrenNum < 2 ^ 31) (hsend : g.doSendTime = true)
    (sock : Mysocket) (w : Reporter) (hport : (w.endpoint sock.s).port = PORT_PARENT)
    (hsent : ∀ d ∈ w.sent, d.endpoint.port = PORT_PARENT) (parentId : UInt) :
    (ForkPortsApart k os g sock w ↔ g.childrenNum ≤ 2) ∧
      (os ≠ .posix →
        (ClonePortsApart os g sock (fun s => (w.endpoint s).port) parentId ↔
          os = .minios ∧ g.childrenNum ≤ 2)) := by
  refine ⟨forkPorts_apart_iff k os hN hsend sock hport hsent, fun hos => ?_⟩
  cases os with
  | posix => exact absurd rfl hos
  | unikraft =>
    apply iff_of_false (not_clonePorts_unikraft hN hint hsend hport)
    simp
  | minios =>
    apply (clonePorts_minios_iff hN hint hsend hport).trans
    simp

/-- Two clones on Mini-OS. -/
theorem reportingPorts_apart_iff_two :
    ForkPortsApart ⟨fun _ _ _ => False, 0, 0⟩ .minios
        { Globals.initial with doSendTime := true, childrenNum := 2 } ⟨3, PORT_PARENT⟩
        (.start fun _ => PORT_PARENT) ∧
      ClonePortsApart .minios { Globals.initial with doSendTime := true, childrenNum := 2 }
        ⟨3, PORT_PARENT⟩ (fun _ => PORT_PARENT) 5 := by
  have h := reportingPorts_apart_iff ⟨fun _ _ _ => False, 0, 0⟩ .minios
    { Globals.initial with doSendTime := true, childrenNum := 2 } (by decide) (by decide) rfl
    ⟨3, PORT_PARENT⟩ (.start fun _ => PORT_PARENT) rfl
    (fun d hd => absurd hd List.not_mem_nil) 5
  exact ⟨h.1.mpr (by decide), (h.2 (by decide)).mpr (by decide)⟩

/-- The third child takes the port of the collector. -/
theorem third_child_clashes :
    ¬ ForkPortsApart ⟨fun _ _ _ => False, 0, 0⟩ .posix
        { Globals.initial with doSendTime := true, doFork := true, childrenNum := 3 }
        ⟨3, PORT_PARENT⟩ (.start fun _ => PORT_PARENT) := by
  rw [forkPorts_apart_iff _ .posix (by decide) rfl ⟨3, PORT_PARENT⟩ rfl
    (fun d hd => absurd hd List.not_mem_nil)]
  decide

end CloningApps.Server
