import CloningApps.Interaction.Medium
import CloningApps.Net.PosixServer

/-! # Many senders, the collector and the network between them

Any number of processes report from sockets of their own while `posix-server`
runs at the gateway. Datagrams and acknowledgements carry what the programs put
into them and nothing else; the network loses, delays and reorders both. A
datagram for the gateway goes to the collector or to a sender that is itself
there, to whichever of their ports the datagram's port is handed to; a datagram
for another host goes to the socket that is bound to its address.
-/

namespace CloningApps.Net
open Text Interaction Os Cmdline

/-- Where the collector runs, and which ports of that host are handed to which. -/
structure Site where
  gateway : UInt
  forwards : Port → Port → Prop

/-- The network hands reports to the socket of a sender at this address. -/
def Site.HandsReportsTo (site : Site) (a : SockAddr) : Prop :=
  a.addr = site.gateway ∧ site.forwards COLLECTOR_PORT a.port ∨
    a.addr ≠ site.gateway ∧ a.port = COLLECTOR_PORT

/-- Datagrams on their way to the gateway, and those on their way to the socket of a sender.
`sent` and `taken` are kept for the statements: all datagrams handed to the network for the
gateway, and how many datagrams each sender has taken out of its socket. -/
structure Lan where
  toCollector : Multiset (Port × Datagram)
  collectorPort : Option Port
  collected : Collected
  toSenders : Multiset (SockAddr × List Byte)
  queue : SockAddr → List (List Byte)
  sent : List Datagram
  taken : SockAddr → ℕ

namespace Lan

def initial : Lan := ⟨0, none, .start [], 0, fun _ => [], [], fun _ => 0⟩

def send (w : Lan) (port : Port) (d : Datagram) : Lan :=
  { w with toCollector := (port, d) ::ₘ w.toCollector, sent := d :: w.sent }

/-- A datagram is on its way to one socket. -/
def sendTo (w : Lan) (a : SockAddr) (data : List Byte) : Lan :=
  { w with toSenders := (a, data) ::ₘ w.toSenders }

/-- The first datagram that waits at an address is taken. -/
def take (w : Lan) (a : SockAddr) : Lan :=
  { w with
    queue := Function.update w.queue a (w.queue a).tail
    taken := Function.update w.taken a (w.taken a + 1) }

/-- Receiving fails, or times out, at any time. -/
def senderLegal (w : Lan) (a : SockAddr) : (c : Call) → c.Answer → Prop
  | .recv _ size, some data => ∃ ack rest, w.queue a = ack :: rest ∧ data = ack.take size.toNat
  | _, _ => True

def senderEffect (site : Site) (w : Lan) (a : SockAddr) : (c : Call) → c.Answer → Lan
  | .sendto _ addr port data, rc =>
    if 0 ≤ rc then
      if addr = site.gateway then w.send port ⟨a, data⟩ else w.sendTo ⟨addr, port⟩ data
    else w
  | .recv .., some _ => w.take a
  | _, _ => w

def collectorEffect (w : Lan) : (c : CollectorCall) → c.Answer → Lan
  | .bind sockfd port, rc =>
    { w with
      collected := w.collected.effect (.bind sockfd port) rc
      collectorPort := if rc < 0 then w.collectorPort else some port }
  | .sendto sockfd data addr len, n =>
    { w with
      collected := w.collected.effect (.sendto sockfd data addr len) n
      toSenders := if n < 0 then w.toSenders else (addr, data) ::ₘ w.toSenders }
  | c, a => { w with collected := w.collected.effect c a }

def arrive (w : Lan) (rest : Multiset (Port × Datagram)) (d : Datagram) : Lan :=
  { w with
    toCollector := rest
    collected := { w.collected with incoming := w.collected.incoming ++ [d] } }

/-- A datagram for the gateway waits at the socket of a sender there. -/
def handOver (w : Lan) (rest : Multiset (Port × Datagram)) (a : SockAddr) (d : Datagram) : Lan :=
  { w with toCollector := rest, queue := Function.update w.queue a (w.queue a ++ [d.data]) }

def deliver (w : Lan) (rest : Multiset (SockAddr × List Byte)) (a : SockAddr)
    (ack : List Byte) : Lan :=
  { w with toSenders := rest, queue := Function.update w.queue a (w.queue a ++ [ack]) }

end Lan

/-- What the network does by itself. -/
inductive LanStep (site : Site) (w : Lan) : Lan → Prop where
  | arrive {rest : Multiset (Port × Datagram)} {d : Datagram} (p q : Port)
      (h : w.toCollector = (p, d) ::ₘ rest) (hport : w.collectorPort = some q)
      (hforward : site.forwards p q) : LanStep site w (w.arrive rest d)
  | handOver {rest : Multiset (Port × Datagram)} {d : Datagram} (p : Port) (a : SockAddr)
      (h : w.toCollector = (p, d) ::ₘ rest) (hhost : a.addr = site.gateway)
      (hforward : site.forwards p a.port) : LanStep site w (w.handOver rest a d)
  | loseDatagram {x : Port × Datagram} {rest : Multiset (Port × Datagram)}
      (h : w.toCollector = x ::ₘ rest) : LanStep site w { w with toCollector := rest }
  | deliver {rest : Multiset (SockAddr × List Byte)} {a : SockAddr} {ack : List Byte}
      (h : w.toSenders = (a, ack) ::ₘ rest) : LanStep site w (w.deliver rest a ack)
  | loseAck {x : SockAddr × List Byte} {rest : Multiset (SockAddr × List Byte)}
      (h : w.toSenders = x ::ₘ rest) : LanStep site w { w with toSenders := rest }

def senderEnv (site : Site) (a : SockAddr) : Env system Lan where
  legal := fun w => w.senderLegal a
  effect := fun w => w.senderEffect site a
  drift := fun _ _ => False

def collectorPortEnv : Env collectorInterface Lan where
  legal := fun w => w.collected.legal
  effect := Lan.collectorEffect
  drift := fun _ _ => False

variable {σ : Type}

/-- The collector is the node without a name. -/
@[reducible] def lanInterface : Option σ → Interface
  | none => collectorInterface
  | some _ => system

/-- Each sender has an address of its own. -/
def lan (site : Site) (addr : σ ↪ SockAddr) : Medium Lan (lanInterface (σ := σ)) where
  port := fun
    | none => collectorPortEnv
    | some i => senderEnv site (addr i)
  moves := LanStep site

theorem lan_still (site : Site) (addr : σ ↪ SockAddr) (i : Option σ) :
    ((lan site addr).port i).Still := by
  cases i <;> exact fun _ _ h => h

/-! ## The senders -/

structure TimeReport where
  tv : Option Timeval
  suffix : Option CStr

/-- The messages of a call: the time it is given, or the time of day. -/
def IsMessage (c : TimeReport) (data : List Byte) : Prop :=
  ∃ tv, (c.tv = none ∨ c.tv = some tv) ∧ data = timeMessage tv c.suffix

/-- A process calls `send_time` again and again on one socket, whatever it returns. -/
def sendTimes (g : Globals) (sock : Mysocket) : List TimeReport → SysProg (List ℤ)
  | [] => return []
  | c :: cs => do
    let rc ← sendTime g sock c.tv c.suffix
    return rc :: (← sendTimes g sock cs)

/-- What a process is started with. -/
structure Sender where
  g : Globals
  sock : Mysocket
  calls : List TimeReport

@[reducible] def LanResult : Option σ → Type
  | none => ℤ
  | some _ => List ℤ

/-- The collector and all senders, none of which has done anything yet. -/
def lanNodes (senders : σ → Sender) : Nodes (lanInterface (σ := σ)) LanResult
  | none => posixServerMain
  | some i => sendTimes (senders i).g (senders i).sock (senders i).calls

/-! ## What holds of the network -/

/-- No acknowledgement without a datagram received, where reports are not handed to the sender; no
datagram received without one sent. All reports go to one port. -/
structure Law (site : Site) (w : Lan) : Prop where
  acks : ∀ a, ¬ site.HandsReportsTo a →
    w.taken a + (w.queue a).length + w.toSenders.countP (fun x => x.1 = a) ≤
      w.collected.answered.countP (fun x => x.1 = a)
  answered : w.collected.answered <:+ w.collected.received.map acknowledgement
  datagrams : (w.collected.received : Multiset Datagram) + w.collected.incoming +
    w.toCollector.map Prod.snd ≤ w.sent
  ports : ∀ x ∈ w.toCollector, x.1 = COLLECTOR_PORT

variable {site : Site} {w w' : Lan}

theorem Law.initial : Law site .initial :=
  ⟨fun _ _ => le_refl 0, List.suffix_refl _, le_refl 0, by simp [Lan.initial]⟩

/-- A datagram leaves the way to the gateway. -/
theorem Law.datagrams_rest (h : Law site w) {x : Port × Datagram}
    {rest : Multiset (Port × Datagram)} (hd : w.toCollector = x ::ₘ rest) :
    (w.collected.received : Multiset Datagram) + w.collected.incoming + rest.map Prod.snd ≤
      w.sent := by
  refine le_trans ?_ h.datagrams
  rw [hd, Multiset.map_cons]
  exact add_le_add_right (Multiset.le_cons_self _ _) _

theorem Law.ports_rest (h : Law site w) {x : Port × Datagram} {rest : Multiset (Port × Datagram)}
    (hd : w.toCollector = x ::ₘ rest) : ∀ y ∈ rest, y.1 = COLLECTOR_PORT :=
  fun y hy => h.ports y (hd ▸ Multiset.mem_cons_of_mem hy)

/-- A report is handed to a sender's socket only where the site hands reports to it. -/
theorem Law.handed (h : Law site w) {p : Port} {d : Datagram} {rest : Multiset (Port × Datagram)}
    {a : SockAddr} (hd : w.toCollector = (p, d) ::ₘ rest) (hhost : a.addr = site.gateway)
    (hforward : site.forwards p a.port) : site.HandsReportsTo a := by
  obtain rfl : p = COLLECTOR_PORT := h.ports (p, d) (hd ▸ Multiset.mem_cons_self _ _)
  exact .inl ⟨hhost, hforward⟩

theorem Law.moves (h : Law site w) (hstep : LanStep site w w') : Law site w' := by
  cases hstep with
  | arrive p q hd _ _ =>
    refine ⟨h.acks, h.answered, ?_, h.ports_rest hd⟩
    have hle := h.datagrams
    rw [hd, Multiset.map_cons] at hle
    rw [Lan.arrive, ← Multiset.coe_add, add_assoc, add_assoc, Multiset.coe_singleton,
      Multiset.singleton_add, ← add_assoc]
    exact hle
  | handOver p b hd hhost hforward =>
    refine ⟨fun a ha => ?_, h.answered, h.datagrams_rest hd, h.ports_rest hd⟩
    have hab : a ≠ b := fun hab => ha (hab ▸ h.handed hd hhost hforward)
    simpa only [Lan.handOver, Function.update_of_ne hab] using h.acks a ha
  | loseDatagram hd => exact ⟨h.acks, h.answered, h.datagrams_rest hd, h.ports_rest hd⟩
  | @deliver rest b ack hack =>
    refine ⟨fun a ha => ?_, h.answered, h.datagrams, h.ports⟩
    have hle := h.acks a ha
    rw [hack, Multiset.countP_cons] at hle
    by_cases hab : b = a
    · subst hab
      simp only [Lan.deliver, Function.update_self, List.length_append, List.length_singleton]
      simp only [if_true] at hle
      omega
    · simp only [Lan.deliver, Function.update_of_ne (Ne.symm hab)]
      simpa only [hab, if_false, add_zero] using hle
  | loseAck hack =>
    refine ⟨fun a ha => le_trans ?_ (h.acks a ha), h.answered, h.datagrams, h.ports⟩
    rw [hack]
    exact add_le_add_right (Multiset.countP_le_of_le _ (Multiset.le_cons_self _ _)) _

/-- What is sent goes to the port of the collector. -/
def Reporting : Call → Prop
  | .sendto _ _ port _ => port = COLLECTOR_PORT
  | _ => True

theorem Law.sender (h : Law site w) (a : SockAddr) {c : Call} {r : c.Answer} (hc : Reporting c)
    (hlegal : w.senderLegal a c r) : Law site (w.senderEffect site a c r) := by
  cases c with
  | sendto s ip port data =>
    obtain rfl : port = COLLECTOR_PORT := hc
    simp only [Lan.senderEffect]
    split
    · split
      next =>
        refine ⟨h.acks, h.answered, ?_, Multiset.forall_mem_cons.mpr ⟨rfl, h.ports⟩⟩
        rw [Lan.send, Multiset.map_cons, Multiset.add_cons, ← Multiset.cons_coe]
        exact Multiset.cons_le_cons _ h.datagrams
      next hip =>
        refine ⟨fun b hb => ?_, h.answered, h.datagrams, h.ports⟩
        have hother : (⟨ip, COLLECTOR_PORT⟩ : SockAddr) ≠ b := by
          rintro rfl
          exact hb (.inr ⟨hip, rfl⟩)
        simpa [Lan.sendTo, Multiset.countP_cons, hother] using h.acks b hb
    · exact h
  | recv s size =>
    cases r with
    | none => exact h
    | some data =>
      obtain ⟨ack, rest, hq, -⟩ := hlegal
      refine ⟨fun b hb => ?_, h.answered, h.datagrams, h.ports⟩
      have hle := h.acks b hb
      by_cases hab : b = a
      · subst hab
        rw [hq, List.length_cons] at hle
        simp only [Lan.senderEffect, Lan.take, Function.update_self, hq, List.tail_cons]
        omega
      · simpa only [Lan.senderEffect, Lan.take, Function.update_of_ne hab] using hle
  | _ => exact h

/-- The collector answers a datagram that it received and has not answered yet. -/
def CollectorGuard (w : Lan) : CollectorCall → Prop
  | .sendto _ data addr _ => ∃ d, Owing w.collected d ∧ (addr, data) = acknowledgement d
  | _ => True

theorem Law.collector (h : Law site w) {c : CollectorCall} {r : c.Answer}
    (hguard : CollectorGuard w c) (hlegal : w.collected.legal c r) : Law site (w.collectorEffect c r) := by
  cases c with
  | socket | bind | storeBuffer => exact ⟨h.acks, h.answered, h.datagrams, h.ports⟩
  | recvfrom sockfd size len =>
    obtain ⟨(n : ℤ), addr, len'⟩ := r
    by_cases hneg : n < 0
    · simp only [Lan.collectorEffect, Collected.effect, if_pos hneg]
      exact ⟨h.acks, h.answered, h.datagrams, h.ports⟩
    · obtain ⟨d, rest, hincoming, -⟩ := hlegal.resolve_left hneg
      simp only [Lan.collectorEffect, Collected.effect, if_neg hneg, Collected.receive, hincoming]
      refine ⟨h.acks, ?_, ?_, h.ports⟩
      · exact h.answered.trans (List.suffix_cons _ _)
      · have hle := h.datagrams
        rw [hincoming, ← Multiset.cons_coe, Multiset.add_cons] at hle
        rw [← Multiset.cons_coe, Multiset.cons_add]
        exact hle
  | sendto sockfd data addr len =>
    obtain ⟨d, ⟨rest, hreceived, hanswered⟩, hack⟩ := hguard
    simp only [Lan.collectorEffect, Collected.effect]
    by_cases hneg : (r : ℤ) < 0
    · simp only [if_pos hneg]
      exact ⟨h.acks, h.answered, h.datagrams, h.ports⟩
    · simp only [if_neg hneg]
      refine ⟨fun a ha => ?_, ?_, h.datagrams, h.ports⟩
      · have hle := h.acks a ha
        rw [Multiset.countP_cons, List.countP_cons]
        simp only [decide_eq_true_eq]
        omega
      · rw [hack, hanswered, hreceived]
        exact List.suffix_refl _

/-- No more acknowledgements reached a sender than the collector received datagrams from it. -/
theorem Law.taken_le (h : Law site w) {a : SockAddr} (ha : ¬ site.HandsReportsTo a) :
    w.taken a ≤ w.collected.received.countP (fun d => d.sender = a) := by
  have hacks := h.acks a ha
  have hsub := (h.answered.sublist).countP_le (p := fun x => decide (x.1 = a))
  rw [List.countP_map] at hsub
  have hsame : (fun x : SockAddr × List Byte => decide (x.1 = a)) ∘ acknowledgement =
      fun d : Datagram => decide (d.sender = a) := rfl
  rw [hsame] at hsub
  omega

theorem Law.sent_of_received (h : Law site w) {d : Datagram} (hd : d ∈ w.collected.received) :
    d ∈ w.sent := by
  have hle : (w.collected.received : Multiset Datagram) ≤ w.sent :=
    (Multiset.le_add_right _ _).trans ((Multiset.le_add_right _ _).trans h.datagrams)
  exact Multiset.mem_coe.mp (Multiset.mem_of_le hle (Multiset.mem_coe.mpr hd))

end CloningApps.Net
