import CloningApps.Net.ManySenders

/-! # Runs of all senders, the network and the collector

What the collector receives was sent. `send_time` takes whatever it receives for
an acknowledgement, so reports are heard as often as they are acknowledged exactly
where no reports are handed to the sender's own socket. It sends to one port and
`posix-server` is bound to another one: a report is acknowledged only where the
network hands datagrams from the one port to the other, or to the sender.
-/

namespace CloningApps.Net
open Text Interaction Os Cmdline

variable {σ : Type} {site : Site} {addr : σ ↪ SockAddr} {senders : σ → Sender} {w w' : Lan}

/-! ## Runs with an acknowledgement -/

/-- A process that reports once, at a time it is given. -/
def oneReport : Sender :=
  ⟨{ Globals.initial with doSendTime := true }, ⟨4, 32767⟩, [⟨some ⟨1, 0⟩, none⟩]⟩

/-- A datagram that is sent to the gateway. -/
theorem senderEffect_gateway (site : Site) (w : Lan) (a : SockAddr) (s : Fd) (port : Port)
    (data : List Byte) :
    w.senderEffect site a (.sendto s site.gateway port data) (0 : ℤ) = w.send port ⟨a, data⟩ := by
  simp [Lan.senderEffect]

/-- What it reports. -/
def oneMessage : List Byte := timeMessage ⟨1, 0⟩ none

/-- Whatever is received after the report is taken for its acknowledgement. -/
theorem oneReport_runs (site : Site) (a : SockAddr) (ip : UInt) (w : Lan) :
    ∃ p, Reaches (senderEnv site a)
        (sendTimes oneReport.g oneReport.sock oneReport.calls, w)
        (p, w.senderEffect site a (.sendto 4 ip COLLECTOR_PORT oneMessage) (0 : ℤ)) ∧
      ∀ w' data rest, data ≠ [] → w'.queue a = data :: rest →
        Reaches (senderEnv site a) (p, w') (.ret [0], w'.take a) := by
  refine ⟨?p, ?sends, ?returns⟩
  case sends =>
    apply Relation.ReflTransGen.head (.call ((0 : ℤ), ip) trivial)
    apply Relation.ReflTransGen.head .loop
    apply Relation.ReflTransGen.head (.call (0 : ℤ) trivial)
    apply Relation.ReflTransGen.head (.call (0 : ℤ) trivial)
    exact .refl
  case returns =>
    intro w' data rest hdata hq
    let received : Option (List Byte) := some (data.take 64)
    have hlegal : w'.senderLegal a (.recv 4 64) received := ⟨data, rest, hq, rfl⟩
    apply Relation.ReflTransGen.head
      (@Step.call system Lan _ (senderEnv site a) (.recv 4 64) _ w' received hlegal)
    have hpos : 0 < data.length := List.length_pos_iff.mpr hdata
    have hnonempty : 0 < ((data.take 64).length : ℤ) := by
      rw [List.length_take]
      omega
    simp only [received, Prog.bind, Prog.pure_eq, if_neg hnonempty.not_gt, if_pos hnonempty]
    exact .refl

/-- A round of the collector puts one acknowledgement on its way. -/
theorem posixServerRound_answers (sockfd : Fd) (cliaddr : SockAddr) {w : Lan} {d : Datagram}
    {rest : List Datagram} (hincoming : w.collected.incoming = d :: rest) :
    ∃ w', Reaches collectorPortEnv (Prog.iterate (posixServerRound sockfd) cliaddr, w)
        (Prog.iterate (posixServerRound sockfd) d.sender, w') ∧
      w'.toSenders = (d.sender, ACK) ::ₘ w.toSenders ∧ w'.queue = w.queue := by
  let n : ℤ := (min d.data.length MAXLINE : ℕ)
  have hneg : ¬ n < 0 := not_lt.mpr (Int.natCast_nonneg _)
  have hlegal : collectorPortEnv.legal w (.recvfrom sockfd MAXLINE SOCKADDR_IN_SIZE)
      (n, d.sender, SOCKADDR_IN_SIZE) := .inr ⟨d, rest, hincoming, rfl, fun _ => rfl, rfl⟩
  let w₁ := w.collectorEffect (.recvfrom sockfd MAXLINE SOCKADDR_IN_SIZE)
    (n, d.sender, SOCKADDR_IN_SIZE)
  let w₂ := w₁.collectorEffect (.storeBuffer n 0) ()
  refine ⟨w₂.collectorEffect (.sendto sockfd ACK d.sender SOCKADDR_IN_SIZE) (0 : ℤ), ?_, rfl, rfl⟩
  apply Relation.ReflTransGen.head .loop
  apply Relation.ReflTransGen.head (.call (n, d.sender, SOCKADDR_IN_SIZE) hlegal)
  simp only [Prog.bind, hneg, if_false]
  apply Relation.ReflTransGen.head (.call () trivial)
  apply Relation.ReflTransGen.head (.call (0 : ℤ) trivial)
  exact .refl

/-- The collector bound to its port. -/
def Lan.started : Lan :=
  (Lan.initial.collectorEffect .socket (3 : ℤ)).collectorEffect (.bind 3 PORT) (0 : ℤ)

theorem posixServerMain_starts :
    Reaches collectorPortEnv (posixServerMain, .initial)
      (Prog.iterate (posixServerRound 3) ⟨0, 0⟩, .started) := by
  apply Relation.ReflTransGen.head (.call (3 : ℤ) trivial)
  apply Relation.ReflTransGen.head (.call (0 : ℤ) trivial)
  exact .refl

section OneReport
variable [DecidableEq σ]

/-- A run in which a report is forwarded and acknowledged. -/
theorem oneReport_acknowledged (site : Site) (addr : σ ↪ SockAddr) (i : σ)
    (hsite : site.forwards COLLECTOR_PORT PORT) :
    ∃ ps w, NodesReach (lan site addr) (lanNodes (fun _ => oneReport), .initial) (ps, w) ∧
      ps (some i) = .ret [0] := by
  let d : Datagram := ⟨addr i, oneMessage⟩
  obtain ⟨p, hsend, hreturn⟩ := oneReport_runs site (addr i) site.gateway .started
  rw [senderEffect_gateway] at hsend
  have hstarted := NodesReach.run (.refl : NodesReach (lan site addr)
    (lanNodes (fun _ => oneReport), .initial) _) none rfl posixServerMain_starts
  have hsent := hstarted.run (some i) (Function.update_of_ne (Option.some_ne_none i) _ _) hsend
  let arrived := (Lan.started.send COLLECTOR_PORT d).arrive 0 d
  have harrived := @NodesReach.moves _ _ _ _ _ _ _ _ arrived _ hsent
    (LanStep.arrive COLLECTOR_PORT PORT rfl rfl hsite)
  obtain ⟨w, hround, hacks, hqueue⟩ := @posixServerRound_answers 3 ⟨0, 0⟩ arrived d [] rfl
  have hanswered := harrived.run none (by simp) hround
  have hdelivered := hanswered.moves (.deliver hacks)
  have hack : ACK ≠ [] := by decide
  have hwaits : (w.deliver arrived.toSenders (addr i) ACK).queue (addr i) = [ACK] := by
    simp only [Lan.deliver, Function.update_self, hqueue]
    rfl
  have hdone := hdelivered.run (some i) (by simp) (hreturn _ ACK [] hack hwaits)
  exact ⟨_, _, hdone, Function.update_self ..⟩

/-- A run in which a report is handed to its sender, and nothing to the collector. -/
theorem oneReport_handed (site : Site) (addr : σ ↪ SockAddr) (i : σ)
    (hsite : site.HandsReportsTo (addr i)) :
    ∃ ps w, NodesReach (lan site addr) (lanNodes (fun _ => oneReport), .initial) (ps, w) ∧
      ps (some i) = .ret [0] ∧ w.collected.received = [] := by
  have hmessage : oneMessage ≠ [] := by decide
  have hinitial : NodesReach (lan site addr) (lanNodes (fun _ => oneReport), .initial) _ := .refl
  rcases hsite with ⟨hhost, hforward⟩ | ⟨hhost, hport⟩
  · let d : Datagram := ⟨addr i, oneMessage⟩
    obtain ⟨p, hsend, hreturn⟩ := oneReport_runs site (addr i) site.gateway .initial
    rw [senderEffect_gateway] at hsend
    have hsent := hinitial.run (some i) rfl hsend
    let handed := (Lan.initial.send COLLECTOR_PORT d).handOver 0 (addr i) d
    have hhanded := @NodesReach.moves _ _ _ _ _ _ _ _ handed _ hsent
      (LanStep.handOver COLLECTOR_PORT (addr i) rfl hhost hforward)
    have hwaits : handed.queue (addr i) = [oneMessage] := Function.update_self ..
    have hdone := hhanded.run (some i) (by simp) (hreturn handed oneMessage [] hmessage hwaits)
    exact ⟨_, _, hdone, Function.update_self .., rfl⟩
  · obtain ⟨p, hsend, hreturn⟩ := oneReport_runs site (addr i) (addr i).addr .initial
    have heffect : Lan.initial.senderEffect site (addr i)
        (.sendto 4 (addr i).addr COLLECTOR_PORT oneMessage) (0 : ℤ) =
          Lan.initial.sendTo (addr i) oneMessage := by
      rw [← hport]
      simp [Lan.senderEffect, hhost]
    rw [heffect] at hsend
    have hsent := hinitial.run (some i) rfl hsend
    let delivered := (Lan.initial.sendTo (addr i) oneMessage).deliver 0 (addr i) oneMessage
    have hdelivered := @NodesReach.moves _ _ _ _ _ _ _ _ delivered _ hsent (LanStep.deliver rfl)
    have hwaits : delivered.queue (addr i) = [oneMessage] := Function.update_self ..
    have hdone := hdelivered.run (some i) (by simp)
      (hreturn delivered oneMessage [] hmessage hwaits)
    exact ⟨_, _, hdone, Function.update_self .., rfl⟩

end OneReport

/-- Everybody is on the gateway, which hands the port of `send_time` to the collector. -/
def forwarding : Site := ⟨0x7f000001, fun p q => p = COLLECTOR_PORT ∧ q = PORT⟩

def onlyAddress : Unit ↪ SockAddr := ⟨fun _ => ⟨0x7f000001, 32767⟩, fun _ _ _ => rfl⟩

/-! ## What is preserved -/

/-- Everything sent is a message of a call that some sender makes. -/
def SentBySenders (addr : σ ↪ SockAddr) (senders : σ → Sender) (w : Lan) : Prop :=
  ∀ d ∈ w.sent, ∃ i, IsOf (addr i) (senders i).calls d

theorem SentBySenders.call (h : SentBySenders addr senders w) (i : Option σ)
    (c : (lanInterface i).Call) (r : (lanInterface i).Answer c)
    (hguard : LanGuard senders i w c) :
    SentBySenders addr senders (((lan site addr).port i).effect w c r) := by
  cases i with
  | none => cases c <;> exact h
  | some i =>
    cases c with
    | sendto s ip port data =>
      change SentBySenders addr senders (w.senderEffect site (addr i) (.sendto s ip port data) r)
      rcases senderEffect_sendto site w (addr i) s ip port data r with heq | heq | heq
      · rw [heq]
        exact h
      · rw [heq]
        exact List.forall_mem_cons.mpr ⟨⟨i, rfl, hguard.2⟩, h⟩
      · rw [heq]
        exact h
    | recv => cases r <;> exact h
    | _ => exact h

theorem SentBySenders.moves (h : SentBySenders addr senders w) (hstep : LanStep site w w') :
    SentBySenders addr senders w' := by
  cases hstep <;> exact h

/-- All datagrams are on their way to one port, and none has arrived at the other. -/
structure Unreached (w : Lan) : Prop where
  port : ∀ x ∈ w.toCollector, x.1 = COLLECTOR_PORT
  bound : ∀ q, w.collectorPort = some q → q = PORT
  incoming : w.collected.incoming = []
  received : w.collected.received = []

theorem Unreached.call (h : Unreached w) (i : Option σ) (c : (lanInterface i).Call)
    (r : (lanInterface i).Answer c) (hguard : LanGuard senders i w c)
    (hlegal : ((lan site addr).port i).legal w c r) :
    Unreached (((lan site addr).port i).effect w c r) := by
  cases i with
  | none =>
    cases c with
    | socket | storeBuffer => exact ⟨h.port, h.bound, h.incoming, h.received⟩
    | bind sockfd port =>
      refine ⟨h.port, fun q hq => ?_, h.incoming, h.received⟩
      simp only [lan, collectorPortEnv, Lan.collectorEffect] at hq
      split at hq
      · exact h.bound q hq
      · exact (Option.some.inj hq).symm.trans hguard
    | recvfrom sockfd size len =>
      obtain ⟨(n : ℤ), a, len'⟩ := r
      rcases hlegal with hneg | ⟨d, rest, hincoming, -⟩
      · simp only [lan, collectorPortEnv, Lan.collectorEffect, Collected.effect, if_pos hneg]
        exact ⟨h.port, h.bound, h.incoming, h.received⟩
      · exact absurd (h.incoming.symm.trans hincoming) (List.cons_ne_nil d rest).symm
    | sendto sockfd data a len =>
      refine ⟨h.port, h.bound, ?_, ?_⟩
      · simp only [lan, collectorPortEnv, Lan.collectorEffect, Collected.effect]
        split <;> exact h.incoming
      · simp only [lan, collectorPortEnv, Lan.collectorEffect, Collected.effect]
        split <;> exact h.received
  | some i =>
    cases c with
    | sendto s ip port data =>
      change Unreached (w.senderEffect site (addr i) (.sendto s ip port data) r)
      rcases senderEffect_sendto site w (addr i) s ip port data r with heq | heq | heq
      · rw [heq]
        exact h
      · rw [heq]
        exact ⟨Multiset.forall_mem_cons.mpr ⟨hguard.1, h.port⟩, h.bound, h.incoming, h.received⟩
      · rw [heq]
        exact ⟨h.port, h.bound, h.incoming, h.received⟩
    | recv => cases r <;> exact ⟨h.port, h.bound, h.incoming, h.received⟩
    | _ => exact h

theorem Unreached.moves (hsite : ¬ site.forwards COLLECTOR_PORT PORT) (h : Unreached w)
    (hstep : LanStep site w w') : Unreached w' := by
  cases hstep with
  | arrive p q hd hport hforward =>
    have hp : p = COLLECTOR_PORT := h.port _ (hd ▸ Multiset.mem_cons_self _ _)
    have hq : q = PORT := h.bound q hport
    rw [hp, hq] at hforward
    exact absurd hforward hsite
  | handOver _ _ hd | loseDatagram hd =>
    exact ⟨fun x hx => h.port x (hd ▸ Multiset.mem_cons_of_mem hx), h.bound, h.incoming,
      h.received⟩
  | deliver | loseAck => exact ⟨h.port, h.bound, h.incoming, h.received⟩

theorem Unreached.initial : Unreached .initial :=
  ⟨nofun, nofun, rfl, rfl⟩

section Runs
variable [DecidableEq σ] {ps : Nodes (lanInterface (σ := σ)) LanResult}

/-- Every node owes what it owes on its own. -/
theorem lan_meets (h : NodesReach (lan site addr) (lanNodes senders, .initial) (ps, w))
    (i : Option σ) : Meets (LanGuard senders i) (LanPost site addr senders i) (ps i) w :=
  (h.allSafe (lan_still site addr) lan_rely lan_moves lanNodes_safe i).meets

theorem lan_heard (h : NodesReach (lan site addr) (lanNodes senders, .initial) (ps, w)) {i : σ}
    {rcs : List ℤ} (hret : ps (some i) = .ret rcs) (hsite : ¬ site.HandsReportsTo (addr i)) :
    AllHeard (addr i) (senders i).calls rcs w := by
  have hmeets := lan_meets h (some i)
  rw [hret] at hmeets
  exact hmeets hsite

/-! ## What is heard -/

/-- Of the first calls of a sender, no more return `0` than the collector receives datagrams of
these calls, in every run of all senders, exactly where the network hands no reports to the
sender's own socket. -/
theorem sendTimes_heard_iff (site : Site) (addr : σ ↪ SockAddr) (i : σ) :
    (∀ senders ps w rcs, NodesReach (lan site addr) (lanNodes senders, .initial) (ps, w) →
      ps (some i) = .ret rcs → AllHeard (addr i) (senders i).calls rcs w) ↔
        ¬ site.HandsReportsTo (addr i) := by
  constructor
  · intro hheard hsite
    obtain ⟨ps, w, hreach, hret, hreceived⟩ := oneReport_handed site addr i hsite
    have hfirst := hheard _ ps w [0] hreach hret 1
    exact hfirst.ne_nil Nat.one_pos hreceived
  · intro hsite senders ps w rcs hreach hret
    exact lan_heard hreach hret hsite

/-! ## What was sent -/

/-- What the calls of all nodes and the network preserve. -/
theorem lan_preserves (h : NodesReach (lan site addr) (lanNodes senders, .initial) (ps, w))
    (P : Lan → Prop)
    (hcall : ∀ i w c r, LanGuard senders i w c → ((lan site addr).port i).legal w c r → P w →
      P (((lan site addr).port i).effect w c r))
    (hmoves : ∀ w w', LanStep site w w' → P w → P w') (hP : P .initial) : P w :=
  h.preserves (lan_still site addr) lan_rely lan_moves lanNodes_safe P hcall hmoves hP

theorem law_of_reach (h : NodesReach (lan site addr) (lanNodes senders, .initial) (ps, w)) :
    Law site w := by
  refine lan_preserves h (Law site) (fun i w c r hguard hlegal hw => ?_)
    (fun _ _ hs hw => hw.moves hs) Law.initial
  cases i with
  | none => exact hw.collector (Collects.guard hguard) hlegal
  | some i => exact hw.sender (addr i) (Sends.reporting (w := w) hguard) hlegal

/-- The collector receives nothing that was not sent to it by a call of the sender that it names,
and nothing more often than it was sent. -/
theorem collector_receives_sent
    (h : NodesReach (lan site addr) (lanNodes senders, .initial) (ps, w)) :
    (w.collected.received : Multiset Datagram) ≤ w.sent ∧
      ∀ d ∈ w.collected.received, ∃ i, IsOf (addr i) (senders i).calls d := by
  have hlaw := law_of_reach h
  have hsent : SentBySenders addr senders w :=
    lan_preserves h (SentBySenders addr senders) (fun i _ c r hguard _ hw => hw.call i c r hguard)
      (fun _ _ hs hw => hw.moves hs) nofun
  refine ⟨?_, fun d hd => hsent d (hlaw.sent_of_received hd)⟩
  exact (Multiset.le_add_right _ _).trans ((Multiset.le_add_right _ _).trans hlaw.datagrams)

/-- In a run with one report, sent and acknowledged. -/
theorem collector_receives_sent_once :
    ∃ w : Lan, w.collected.received ≠ [] ∧ (w.collected.received : Multiset Datagram) ≤ w.sent ∧
      ∀ d ∈ w.collected.received, ∃ i, IsOf (onlyAddress i) oneReport.calls d := by
  obtain ⟨ps, w, hreach, hret⟩ := oneReport_acknowledged forwarding onlyAddress () ⟨rfl, rfl⟩
  have hsite : ¬ forwarding.HandsReportsTo (onlyAddress ()) := by
    rintro (⟨-, -, hport⟩ | ⟨hhost, -⟩)
    · exact absurd hport (by decide)
    · exact hhost rfl
  exact ⟨w, (lan_heard hreach hret hsite 1).ne_nil Nat.one_pos, collector_receives_sent hreach⟩

/-! ## All sites -/

/-- A report of a sender is acknowledged in some run exactly where datagrams sent to the port of
`send_time` are handed to the port of `posix-server`, or to the sender's own socket. -/
theorem acknowledged_iff_handed (site : Site) (addr : σ ↪ SockAddr) (i : σ) :
    (∃ senders ps w rcs, NodesReach (lan site addr) (lanNodes senders, .initial) (ps, w) ∧
      ps (some i) = .ret rcs ∧ 0 ∈ rcs) ↔
        site.forwards COLLECTOR_PORT PORT ∨ site.HandsReportsTo (addr i) := by
  constructor
  · rintro ⟨senders, ps, w, rcs, hreach, hret, hzero⟩
    by_contra hsite
    obtain ⟨hforwards, hhands⟩ := not_or.mp hsite
    have hunreached : Unreached w := lan_preserves hreach Unreached
      (fun i _ c r hguard hlegal hw => hw.call i c r hguard hlegal)
      (fun _ _ hs hw => hw.moves hforwards hs) Unreached.initial
    have hheard := lan_heard hreach hret hhands rcs.length
    rw [List.take_length] at hheard
    exact hheard.ne_nil (List.count_pos_iff.mpr hzero) hunreached.received
  · rintro (hforwards | hhands)
    · obtain ⟨ps, w, hreach, hret⟩ := oneReport_acknowledged site addr i hforwards
      exact ⟨_, ps, w, [0], hreach, hret, List.mem_singleton_self 0⟩
    · obtain ⟨ps, w, hreach, hret, -⟩ := oneReport_handed site addr i hhands
      exact ⟨_, ps, w, [0], hreach, hret, List.mem_singleton_self 0⟩

end Runs

end CloningApps.Net
