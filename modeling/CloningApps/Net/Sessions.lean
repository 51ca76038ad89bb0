import CloningApps.Interaction.Exec
import CloningApps.Net.Collector

/-! # Reporting again and again on one socket

A process calls `send_time` any number of times on the same socket and ignores
what it returns. A call can only be trusted when nothing was left over from the
calls before it: the socket hands an old acknowledgement to whoever asks next.
-/

namespace CloningApps.Net
open Text Interaction Os Cmdline

/-- The call in progress, the network, and what the calls so far returned. -/
structure Session where
  running : Option (SysProg ℤ)
  net : Network
  returned : List (ℕ × ℤ)

def Session.initial : Session := ⟨none, .initial, []⟩

/-- A call may start in a network that `start` allows. -/
inductive SessionStep (sock : Mysocket) (start : Network → Prop) : Session → Session → Prop where
  | call {net : Network} {returned : List (ℕ × ℤ)} (g : Globals) (tv : Option Timeval)
      (suffix : Option CStr) (h : start net) :
      SessionStep sock start ⟨none, net, returned⟩
        ⟨some (sendTime g sock tv suffix), net.nextCall, returned⟩
  | run {p p' : SysProg ℤ} {net net' : Network} {returned : List (ℕ × ℤ)}
      (h : Step collectorEnv (p, net) (p', net')) :
      SessionStep sock start ⟨some p, net, returned⟩ ⟨some p', net', returned⟩
  | return {rc : ℤ} {net : Network} {returned : List (ℕ × ℤ)} :
      SessionStep sock start ⟨some (.ret rc), net, returned⟩
        ⟨none, net, (net.call, rc) :: returned⟩
  | idle {net net' : Network} {returned : List (ℕ × ℤ)} (h : NetStep net net') :
      SessionStep sock start ⟨none, net, returned⟩ ⟨none, net', returned⟩

def Runs (sock : Mysocket) (start : Network → Prop) : Session → Session → Prop :=
  Relation.ReflTransGen (SessionStep sock start)

/-- A call that returned `0` was heard by the collector, and no call took an acknowledgement of
another one. -/
structure Reliable (s : Session) : Prop where
  heard : ∀ i, (i, 0) ∈ s.returned → i ∈ s.net.received
  own : ∀ c t, (c, t) ∈ s.net.taken → t = c

/-! ## Calls that start in a quiet network -/

theorem Own.step {p p' : SysProg ℤ} {net net' : Network} (h : Own net)
    (hstep : Step collectorEnv (p, net) (p', net')) : Own net' := by
  cases hstep with
  | call a _ => exact h.effect a
  | loop => exact h
  | drift hd => exact h.drift hd

theorem received_subset {p p' : SysProg ℤ} {net net' : Network}
    (hstep : Step collectorEnv (p, net) (p', net')) : net.received ⊆ net'.received := by
  cases hstep with
  | call a _ => exact (Network.effect_received net _ a).symm ▸ List.Subset.refl _
  | loop => exact List.Subset.refl _
  | drift hd => exact hd.received_subset

/-- What a call owes when it returns. -/
def Heard (rc : ℤ) (net : Network) : Prop := rc = 0 → net.call ∈ net.received

theorem own_stable : collectorEnv.Stable Own := fun _ _ h hd => h.drift hd

/-- A call in a network of its own. -/
theorem own_call {α : Type} {c : system.Call} {k : system.Answer c → SysProg α}
    {post : α → Network → Prop} {net : Network}
    (hk : ∀ net a, Own net → collectorEnv.legal net c a →
      Safe collectorEnv (fun _ _ => True) post (k a) (collectorEnv.effect net c a))
    (h : Own net) : Safe collectorEnv (fun _ _ => True) post (.call c k) net :=
  Safe.call_stable Own own_stable (fun _ _ => trivial) hk h

theorem failed_safe {rc : ℤ} (hrc : rc ≠ 0) (net : Network) :
    Safe collectorEnv (fun _ _ => True) Heard (.ret rc) net :=
  Safe.ret_stable (fun _ => True) (fun _ _ _ _ => trivial) rc (fun _ _ h => absurd h hrc) trivial

theorem heard_stable : collectorEnv.Stable (fun net => net.call ∈ net.received) := by
  intro net net' h hd
  rw [NetStep.call_eq hd]
  exact NetStep.received_subset hd h

theorem heard_safe {net : Network} (h : net.call ∈ net.received) :
    Safe collectorEnv (fun _ _ => True) Heard (.ret 0) net := by
  exact Safe.ret_stable (fun net => net.call ∈ net.received) heard_stable 0 (fun _ h _ => h) h

/-- What follows one round of the loop. -/
def RoundHeard (r : CStr ⊕ ℤ) (net : Network) : Prop :=
  Sum.elim (fun _ => Own net)
    (fun rc => Safe collectorEnv (fun _ _ => True) Heard (.ret rc) net) r

theorem round_failed {rc : ℤ} (hrc : rc < 0) (net : Network) :
    Safe collectorEnv (fun _ _ => True) RoundHeard (.ret (.inr rc)) net :=
  Safe.ret_stable (fun _ => True) (fun _ _ _ _ => trivial) _
    (fun net _ => failed_safe hrc.ne net) trivial

theorem sendRound_heard (sock : Mysocket) (ip : UInt) (message : CStr) {net : Network}
    (h : Own net) :
    Safe collectorEnv (fun _ _ => True) RoundHeard (sendRound sock ip message) net := by
  refine own_call (fun net (rc : ℤ) hown _ => ?_) h
  have hsent := hown.effect (c := .sendto sock.s ip COLLECTOR_PORT message) rc
  simp only [Prog.bind]
  split
  next hrc => exact round_failed hrc _
  next =>
    refine own_call (fun net (rc : ℤ) hown _ => ?_) hsent
    have hset := hown.effect (c := .osSocketSetTimeout sock.s 2000) rc
    simp only [Prog.bind]
    split
    next hrc =>
      simp only [Prog.pure_eq, Prog.ret_bind, if_pos hrc]
      exact round_failed hrc _
    next =>
      refine own_call (fun net data hown hlegal => ?_) hset
      cases data with
      | none => exact round_failed (by decide) _
      | some data =>
        obtain ⟨hqueue, rfl⟩ := hlegal
        have hheard : net.take.call ∈ net.take.received := by
          rw [Network.take_call, Network.take_received]
          exact hown.received hqueue
        exact Safe.ret_stable (fun net => net.call ∈ net.received)
          heard_stable _ (fun net h => heard_safe h) hheard

theorem sendTimeval_heard (sock : Mysocket) (suffix : Option CStr) (tv : Timeval) {net : Network}
    (h : Own net) : Safe collectorEnv (fun _ _ => True) Heard (sendTimeval sock suffix tv) net := by
  refine own_call (fun net r hown _ => ?_) h
  simp only [Prog.bind]
  split
  next hrc => exact failed_safe hrc _
  next =>
    refine Safe.loop (fun _ => Own) (fun _ => own_stable) (fun message net hown => ?_)
      (hown.effect r)
    apply (sendRound_heard sock r.2 message hown).mono
    intro r net hround
    cases r with
    | inl message => exact hround
    | inr rc => exact hround

/-- A call that starts with nothing left over returns `0` only when it was heard. -/
theorem sendTime_heard (g : Globals) (sock : Mysocket) (tv : Option Timeval)
    (suffix : Option CStr) {net : Network} (h : Own net) :
    Safe collectorEnv (fun _ _ => True) Heard (sendTime g sock tv suffix) net := by
  unfold sendTime
  split
  · exact failed_safe (by decide) net
  · cases tv with
    | some tv => exact sendTimeval_heard sock suffix tv h
    | none =>
      refine own_call (fun net r hown _ => ?_) h
      simp only [Prog.bind]
      split
      next hrc => exact failed_safe hrc _
      next => exact sendTimeval_heard sock suffix r.2 (hown.effect r)

/-- What holds of a session whose calls all started in a quiet network. -/
structure SessionOwn (s : Session) : Prop where
  past : ∀ i, (i, 0) ∈ s.returned → i ∈ s.net.received
  taken : ∀ c t, (c, t) ∈ s.net.taken → t = c
  running : ∀ p, s.running = some p →
    Own s.net ∧ Safe collectorEnv (fun _ _ => True) Heard p s.net

theorem SessionOwn.initial : SessionOwn .initial :=
  ⟨nofun, nofun, nofun⟩

theorem NetStep.taken_eq {net net' : Network} (h : NetStep net net') : net'.taken = net.taken := by
  cases h <;> rfl

theorem SessionOwn.step {sock : Mysocket} {s s' : Session} (h : SessionOwn s)
    (hstep : SessionStep sock Quiet s s') : SessionOwn s' := by
  cases hstep with
  | call g tv suffix hquiet =>
    refine ⟨h.past, h.taken, ?_⟩
    rintro _ ⟨⟩
    have hown := hquiet.own h.taken
    exact ⟨hown, sendTime_heard g sock tv suffix hown⟩
  | run hrun =>
    obtain ⟨hown, hsafe⟩ := h.running _ rfl
    have hown' := hown.step hrun
    refine ⟨fun i hi => received_subset hrun (h.past i hi), hown'.taken, ?_⟩
    rintro _ ⟨⟩
    exact ⟨hown', hsafe.step hrun⟩
  | «return» =>
    obtain ⟨hown, hsafe⟩ := h.running _ rfl
    refine ⟨fun i hi => ?_, h.taken, nofun⟩
    rcases List.mem_cons.mp hi with hi | hi
    · obtain ⟨rfl, rfl⟩ := Prod.mk.inj hi
      exact hsafe.meets rfl
    · exact h.past i hi
  | idle hd =>
    exact ⟨fun i hi => hd.received_subset (h.past i hi), hd.taken_eq ▸ h.taken, nofun⟩

/-- When every call starts with nothing left over, `send_time` can be trusted. -/
theorem reliable_of_quiet {sock : Mysocket} {s : Session} (h : Runs sock Quiet .initial s) :
    Reliable s := by
  have hown : SessionOwn s := by
    induction h with
    | refl => exact .initial
    | tail _ hstep ih => exact ih.step hstep
  exact ⟨hown.past, hown.taken⟩

/-! ## Calls that start with something left over -/

/-- Nothing comes from a call later than the `b`-th. -/
structure Below (b : ℕ) (net : Network) : Prop where
  toCollector : ∀ t ∈ net.toCollector, t ≤ b
  received : ∀ t ∈ net.received, t ≤ b
  toSender : ∀ t ∈ net.toSender, t ≤ b
  queue : ∀ t ∈ net.queue, t ≤ b

variable {b : ℕ} {net net' : Network} {sock : Mysocket}

theorem Below.nextCall (h : Below b net) : Below b net.nextCall :=
  ⟨h.toCollector, h.received, h.toSender, h.queue⟩

theorem Below.succ (h : Below b net) : Below (b + 1) net :=
  ⟨fun t ht => (h.toCollector t ht).trans b.le_succ, fun t ht => (h.received t ht).trans b.le_succ,
    fun t ht => (h.toSender t ht).trans b.le_succ, fun t ht => (h.queue t ht).trans b.le_succ⟩

theorem Below.drift (h : Below b net) (hstep : NetStep net net') : Below b net' := by
  cases hstep with
  | receive t rest hrest =>
    have ht := h.toCollector t (hrest ▸ Multiset.mem_cons_self t rest)
    refine ⟨fun u hu => h.toCollector u (hrest ▸ Multiset.mem_cons_of_mem hu), fun u hu => ?_,
      fun u hu => ?_, h.queue⟩
    · rcases List.mem_cons.mp hu with rfl | hu
      · exact ht
      · exact h.received u hu
    · rcases Multiset.mem_cons.mp hu with rfl | hu
      · exact ht
      · exact h.toSender u hu
  | loseDatagram t rest hrest =>
    exact ⟨fun u hu => h.toCollector u (hrest ▸ Multiset.mem_cons_of_mem hu), h.received,
      h.toSender, h.queue⟩
  | deliver t rest hrest =>
    refine ⟨h.toCollector, h.received,
      fun u hu => h.toSender u (hrest ▸ Multiset.mem_cons_of_mem hu), fun u hu => ?_⟩
    rcases List.mem_append.mp hu with hu | hu
    · exact h.queue u hu
    · obtain rfl : u = t := List.mem_singleton.mp hu
      exact h.toSender u (hrest ▸ Multiset.mem_cons_self u rest)
  | loseAck t rest hrest =>
    exact ⟨h.toCollector, h.received,
      fun u hu => h.toSender u (hrest ▸ Multiset.mem_cons_of_mem hu), h.queue⟩

theorem Below.effect (h : Below net.call net) {c : system.Call} (a : system.Answer c) :
    Below net.call (collectorEnv.effect net c a) := by
  cases c with
  | sendto s addr port data =>
    simp only [collectorEnv, Network.effect]
    split
    · refine ⟨fun t ht => ?_, h.received, h.toSender, h.queue⟩
      rcases Multiset.mem_cons.mp ht with rfl | ht
      · exact le_refl _
      · exact h.toCollector t ht
    · exact h
  | recv =>
    cases a with
    | none => exact h
    | some data =>
      simp only [collectorEnv, Network.effect, Network.take]
      split
      · exact h
      next t queue hq =>
        exact ⟨h.toCollector, h.received, h.toSender,
          fun u hu => h.queue u (hq ▸ List.mem_cons_of_mem t hu)⟩
  | _ => exact h

theorem Runs.below {start : Network → Prop} {s : Session} (h : Runs sock start .initial s) :
    Below s.net.call s.net := by
  induction h with
  | refl => exact ⟨nofun, nofun, nofun, nofun⟩
  | tail _ hstep ih =>
    cases hstep with
    | call g tv suffix _ => exact ih.nextCall.succ
    | run hrun =>
      cases hrun with
      | @call c _ _ a _ =>
        show Below (Network.effect _ c a).call _
        rw [Network.effect_call]
        exact ih.effect a
      | loop => exact ih
      | drift hd =>
        rw [hd.call_eq]
        exact ih.drift hd
    | «return» => exact ih
    | idle hd =>
      rw [hd.call_eq]
      exact ih.drift hd

theorem ack_arrives (hbelow : Below b net) (hsender : net.toSender ≠ 0) :
    ∃ net', Relation.ReflTransGen NetStep net net' ∧ net'.call = net.call ∧ Below b net' ∧
      net'.queue ≠ [] := by
  obtain ⟨t, ht⟩ := Multiset.exists_mem_of_ne_zero hsender
  obtain ⟨rest, hrest⟩ := Multiset.exists_cons_of_mem ht
  have hstep := NetStep.deliver t rest hrest
  exact ⟨_, .single hstep, hstep.call_eq, hbelow.drift hstep, by simp⟩

/-- What is left over can reach the queue of the socket. -/
theorem leftover_arrives (hbelow : Below b net) (h : ¬ Quiet net) :
    ∃ net', Relation.ReflTransGen NetStep net net' ∧ net'.call = net.call ∧ Below b net' ∧
      net'.queue ≠ [] := by
  by_cases hqueue : net.queue = []
  · by_cases hsender : net.toSender = 0
    · have hcollector : net.toCollector ≠ 0 := fun hc => h ⟨hc, hsender, hqueue⟩
      obtain ⟨t, ht⟩ := Multiset.exists_mem_of_ne_zero hcollector
      obtain ⟨rest, hrest⟩ := Multiset.exists_cons_of_mem ht
      have hstep := NetStep.receive t rest hrest
      obtain ⟨net', hsteps, hcall, hbelow', hqueue'⟩ :=
        ack_arrives (hbelow.drift hstep) (Multiset.cons_ne_zero)
      exact ⟨net', .head hstep hsteps, hcall.trans hstep.call_eq, hbelow', hqueue'⟩
    · exact ack_arrives hbelow hsender
  · exact ⟨net, .refl, rfl, hbelow, hqueue⟩

theorem runs_of_reaches {start : Network → Prop} {p p' : SysProg ℤ} {returned : List (ℕ × ℤ)}
    (h : Reaches collectorEnv (p, net) (p', net')) :
    Runs sock start ⟨some p, net, returned⟩ ⟨some p', net', returned⟩ := by
  have hlift : ∀ c, Reaches collectorEnv (p, net) c →
      Runs sock start ⟨some p, net, returned⟩ ⟨some c.1, c.2, returned⟩ := by
    intro c hc
    induction hc with
    | refl => exact .refl
    | tail _ hs ih => exact .tail ih (.run hs)
  exact hlift _ h

/-- A call whose datagram is lost takes what was left over for its acknowledgement. -/
theorem sendTime_takes_leftover {g : Globals} (hg : g.doSendTime = true) (sock : Mysocket)
    (hbelow : Below b net) (h : ¬ Quiet net) :
    Returns collectorEnv
      (fun rc net' => rc = 0 ∧ net'.call = net.call ∧ ∀ t ∈ net'.received, t ≤ b)
      (sendTime g sock (some ⟨0, 0⟩) none) net := by
  obtain ⟨arrived, hsteps, hcall, hbelow', hqueue⟩ := leftover_arrives hbelow h
  have hreceived : ∀ t ∈ arrived.take.received, t ≤ b := by
    rw [Network.take_received]
    exact hbelow'.received
  have hlost : NetStep { net with toCollector := net.call ::ₘ net.toCollector } net :=
    .loseDatagram net.call net.toCollector rfl
  let gateway : ℤ × UInt := (0, 0)
  let acknowledged : Option (List Byte) := some (ACK.take 64)
  unfold sendTime
  simp only [hg, Bool.not_true, Bool.false_eq_true, if_false]
  refine .call gateway trivial (.loop (.call (0 : ℤ) trivial ?_))
  refine .drifts (.head hlost hsteps) (.call (0 : ℤ) trivial ?_)
  exact .call acknowledged ⟨hqueue, rfl⟩ (.ret ⟨rfl, (Network.take_call arrived).trans hcall,
    hreceived⟩)

/-- Any call may start. -/
def Anytime (_ : Network) : Prop := True

theorem unreliable_of_leftover (sock : Mysocket) {returned : List (ℕ × ℤ)}
    (hbelow : Below net.call net) (h : ¬ Quiet net) :
    ∃ s, Runs sock Anytime ⟨none, net, returned⟩ s ∧ ¬ Reliable s := by
  let g : Globals := { Globals.initial with doSendTime := true }
  obtain ⟨rc, net', hreaches, rfl, hcall, hreceived⟩ :=
    sendTime_takes_leftover (g := g) rfl sock hbelow.nextCall h
  refine ⟨⟨none, net', (net'.call, 0) :: returned⟩, ?_, fun hreliable => ?_⟩
  · exact .head (.call g _ _ trivial) (.tail (runs_of_reaches hreaches) .return)
  · have hheard : net'.call ∈ net'.received := hreliable.heard _ List.mem_cons_self
    have hle : net'.call ≤ net.call := hreceived _ hheard
    rw [hcall] at hle
    exact absurd hle (Nat.not_succ_le_self net.call)

/-- Calls that all start in a quiet network are reliable, and a call that starts in any other
network may take an acknowledgement that is not its own. -/
theorem sendTime_reliable_iff_quiet (sock : Mysocket) :
    (∀ s, Runs sock Quiet .initial s → Reliable s) ∧
      ∀ net returned, Runs sock Anytime .initial ⟨none, net, returned⟩ → ¬ Quiet net →
        ∃ s, Runs sock Anytime ⟨none, net, returned⟩ s ∧ ¬ Reliable s :=
  ⟨fun _ h => reliable_of_quiet h,
    fun _ _ h hnet => unreliable_of_leftover sock h.below hnet⟩

/-- The first call times out before its acknowledgement arrives, and the datagram of the second
call is lost. -/
theorem sendTime_trusts_stale_ack :
    ∃ s, Runs ⟨3, 32767⟩ Anytime .initial s ∧ s.returned = [(2, 0), (1, -1)] ∧
      s.net.received = [1] ∧ s.net.taken = [(2, 1)] ∧ ¬ Reliable s := by
  let g : Globals := { Globals.initial with doSendTime := true }
  let gateway : ℤ × UInt := (0, 0)
  let timeout : Option (List Byte) := none
  let acknowledged : Option (List Byte) := some (ACK.take 64)
  have hfirst : Returns collectorEnv (fun rc net => rc = -1 ∧ net = ⟨1, {1}, [], 0, [], []⟩)
      (sendTime g ⟨3, 32767⟩ (some ⟨0, 0⟩) none) ⟨1, 0, [], 0, [], []⟩ := by
    refine .call gateway trivial (.loop (.call (0 : ℤ) trivial (.call (0 : ℤ) trivial ?_)))
    exact .call timeout trivial (.ret ⟨rfl, rfl⟩)
  have hsecond : Returns collectorEnv (fun rc net => rc = 0 ∧ net = ⟨2, 0, [1], 0, [], [(2, 1)]⟩)
      (sendTime g ⟨3, 32767⟩ (some ⟨0, 0⟩) none) ⟨2, 0, [1], 0, [1], []⟩ := by
    refine .call gateway trivial (.loop (.call (0 : ℤ) trivial ?_))
    refine .drifts (.single (.loseDatagram 2 0 rfl)) (.call (0 : ℤ) trivial ?_)
    exact .call acknowledged ⟨List.cons_ne_nil 1 [], rfl⟩ (.ret ⟨rfl, rfl⟩)
  obtain ⟨_, _, hfirst, rfl, rfl⟩ := hfirst
  obtain ⟨_, _, hsecond, rfl, rfl⟩ := hsecond
  refine ⟨⟨none, ⟨2, 0, [1], 0, [], [(2, 1)]⟩, [(2, 0), (1, -1)]⟩, ?_, rfl, rfl, rfl,
    fun h => ?_⟩
  · refine .head (.call g (some ⟨0, 0⟩) none trivial) ((runs_of_reaches hfirst).trans ?_)
    refine .head .return (.head (.idle (.receive 1 0 rfl)) ?_)
    refine .head (.idle (.deliver 1 0 rfl)) (.head (.call g (some ⟨0, 0⟩) none trivial) ?_)
    exact (runs_of_reaches hsecond).tail .return
  · exact absurd (h.own 2 1 (List.mem_singleton_self _)) (by decide)

end CloningApps.Net
