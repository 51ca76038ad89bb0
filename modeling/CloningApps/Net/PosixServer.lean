import CloningApps.Interaction.Safe
import CloningApps.Net.Collector

/-! # The stand-alone collector

The program of `posix-server`: datagrams of any length from any sender wait in
the socket, each is received into one buffer, ended with a zero byte and answered.
What the collector prints is left out.
-/

namespace CloningApps.Net
open Text Interaction Os

/-! ## The program -/

inductive CollectorCall where
  | socket
  | bind (sockfd : Fd) (port : Port)
  | recvfrom (sockfd : Fd) (size : ℕ) (len : ℤ)
  | storeBuffer (index : ℤ) (value : Byte)
  | sendto (sockfd : Fd) (data : List Byte) (addr : SockAddr) (len : ℤ)

/-- `recvfrom` answers with its result and with what it stores at the address and its length. -/
@[reducible] def CollectorCall.Answer : CollectorCall → Type
  | .socket => Fd
  | .bind .. => ℤ
  | .recvfrom .. => ℤ × SockAddr × ℤ
  | .storeBuffer .. => Unit
  | .sendto .. => ℤ

abbrev collectorInterface : Interface := ⟨CollectorCall, CollectorCall.Answer⟩

abbrev CollectorProg := Prog collectorInterface

abbrev collect (c : CollectorCall) : CollectorProg c.Answer := @Prog.ask collectorInterface c

def PORT : Port := 5000

def MAXLINE : ℕ := 1024

/-- The size of a `struct sockaddr_in`. -/
def SOCKADDR_IN_SIZE : ℤ := 16

/-- One round of the loop, with the address of the previous client in `cliaddr`. -/
def posixServerRound (sockfd : Fd) (_ : SockAddr) : CollectorProg (SockAddr ⊕ ℤ) := do
  let (n, cliaddr, len) ← collect (.recvfrom sockfd MAXLINE SOCKADDR_IN_SIZE)
  if n < 0 then
    return .inr (-1)
  collect (.storeBuffer n 0)
  let n ← collect (.sendto sockfd ACK cliaddr len)
  if n < 0 then
    return .inr (-1)
  return .inl cliaddr

def posixServerMain : CollectorProg ℤ := do
  let sockfd ← collect .socket
  if sockfd < 0 then
    return -1
  let rc ← collect (.bind sockfd PORT)
  if rc < 0 then
    return rc
  Prog.iterate (posixServerRound sockfd) ⟨0, 0⟩

/-! ## Its surroundings -/

structure Datagram where
  sender : SockAddr
  data : List Byte

/-- The datagrams that wait, those received, the indices of the buffer that were written, and the
answers sent, each list with the latest first. -/
structure Collected where
  incoming : List Datagram
  received : List Datagram
  written : List ℤ
  answered : List (SockAddr × List Byte)
  failed : Bool

namespace Collected

def start (incoming : List Datagram) : Collected := ⟨incoming, [], [], [], false⟩

def note (w : Collected) (failed : Bool) : Collected := { w with failed := w.failed || failed }

/-- Any call may fail. A datagram is cut off at the size of the buffer, and its sender is stored
if there is room for the address. -/
def legal (w : Collected) : (c : CollectorCall) → c.Answer → Prop
  | .recvfrom _ size len, (n, addr, len') =>
    n < 0 ∨ ∃ d rest, w.incoming = d :: rest ∧ n = min d.data.length size ∧
      (SOCKADDR_IN_SIZE ≤ len → addr = d.sender) ∧ len' = SOCKADDR_IN_SIZE
  | _, _ => True

/-- The first datagram is received into the first `n` bytes of the buffer. -/
def receive (w : Collected) (n : ℕ) : Collected :=
  match w.incoming with
  | [] => w
  | d :: rest => { w with
      incoming := rest
      received := d :: w.received
      written := (List.range n).map Int.ofNat ++ w.written }

def effect (w : Collected) : (c : CollectorCall) → c.Answer → Collected
  | .socket, s => w.note (s < 0)
  | .bind .., rc => w.note (rc < 0)
  | .recvfrom .., (n, _, _) => if n < 0 then w.note true else w.receive n.toNat
  | .storeBuffer index _, _ => { w with written := index :: w.written }
  | .sendto _ data addr _, n =>
    if n < 0 then w.note true else { w with answered := (addr, data) :: w.answered }

end Collected

/-- The socket of the collector, with the datagrams that will be received. -/
def datagramEnv : Env collectorInterface Collected where
  legal := Collected.legal
  effect := Collected.effect
  drift := fun _ _ => False

theorem datagramEnv_still : datagramEnv.Still := fun _ _ h => h

/-! ## What it owes -/

def acknowledgement (d : Datagram) : SockAddr × List Byte := (d.sender, ACK)

/-- Each datagram received has one answer, and nothing else was sent. -/
def AllAnswered (w : Collected) : Prop := w.answered = w.received.map acknowledgement

/-- The datagram received last is the only one that is not answered yet. -/
def Owing (w : Collected) (d : Datagram) : Prop :=
  ∃ rest, w.received = d :: rest ∧ w.answered = rest.map acknowledgement

/-- Before a datagram is received every earlier one has one answer, and an answer goes to the
sender of the one datagram that has none. -/
def AnswersOnce (w : Collected) : CollectorCall → Prop
  | .recvfrom .. => AllAnswered w
  | .sendto _ data addr _ => ∃ d, Owing w d ∧ (addr, data) = acknowledgement d
  | _ => True

/-- All that was written of the buffer belongs to it. -/
def Inside (w : Collected) : Prop := ∀ i ∈ w.written, 0 ≤ i ∧ i < MAXLINE

/-- The collector is safe and answers once, and it only ends when a call fails. -/
def CollectsSafely (incoming : List Datagram) : Prop :=
  ∀ p w, Reaches datagramEnv (posixServerMain, Collected.start incoming) (p, w) →
    Inside w ∧ Meets AnswersOnce (fun _ w => w.failed = true) p w

/-! ## One round -/

/-- The calls of a round also say what they write of the buffer. -/
def RoundGuard (w : Collected) : CollectorCall → Prop
  | .recvfrom _ size _ => AllAnswered w ∧ size = MAXLINE
  | .storeBuffer i _ => ∃ d, Owing w d ∧ i = (min d.data.length MAXLINE : ℕ)
  | c => AnswersOnce w c

theorem RoundGuard.answersOnce {w : Collected} {c : CollectorCall} (h : RoundGuard w c) :
    AnswersOnce w c := by
  cases c with
  | recvfrom => exact h.1
  | storeBuffer => trivial
  | _ => exact h

abbrev SafeCollector {α : Type} (post : α → Collected → Prop) (p : CollectorProg α)
    (w : Collected) : Prop :=
  Safe datagramEnv RoundGuard post p w

theorem posixServerRound_safe {sockfd : Fd} {cliaddr : SockAddr} {w : Collected}
    (h : AllAnswered w) :
    SafeCollector (fun r w' => Sum.elim (fun _ => AllAnswered w') (fun _ => w'.failed = true) r)
      (posixServerRound sockfd cliaddr) w := by
  apply Safe.call datagramEnv_still ⟨h, rfl⟩
  rintro ⟨(n : ℤ), addr, len⟩ hlegal
  by_cases hneg : n < 0
  · have heffect : datagramEnv.effect w (.recvfrom sockfd MAXLINE SOCKADDR_IN_SIZE) (n, addr, len) =
        w.note true := if_pos hneg
    simp only [Prog.bind, hneg, if_true, heffect]
    exact Safe.ret datagramEnv_still (Bool.or_true _)
  · obtain ⟨d, rest, hincoming, hn, haddr, hlen⟩ := hlegal.resolve_left hneg
    obtain rfl := haddr le_rfl
    have heffect : datagramEnv.effect w (.recvfrom sockfd MAXLINE SOCKADDR_IN_SIZE)
        (n, d.sender, len) = w.receive n.toNat := if_neg hneg
    have howing : Owing (w.receive n.toNat) d := by
      refine ⟨w.received, ?_, ?_⟩
      · simp only [Collected.receive, hincoming]
      · simp only [Collected.receive, hincoming]
        exact h
    simp only [Prog.bind, hneg, if_false, heffect]
    apply Safe.call datagramEnv_still ⟨d, howing, hn⟩
    intro _ _
    apply Safe.call datagramEnv_still ⟨d, howing, rfl⟩
    intro (sent : ℤ) _
    by_cases hfail : sent < 0
    · simp only [Prog.bind, hfail, if_true]
      apply Safe.ret datagramEnv_still
      simp [datagramEnv, Collected.effect, Collected.note, hfail]
    · simp only [Prog.bind, hfail, if_false]
      apply Safe.ret datagramEnv_still
      obtain ⟨received, hreceived, hanswered⟩ := howing
      simp [datagramEnv, Collected.effect, hfail, AllAnswered, hreceived, hanswered,
        acknowledgement]

theorem posixServerMain_safe (incoming : List Datagram) :
    SafeCollector (fun _ w => w.failed = true) posixServerMain (.start incoming) := by
  apply Safe.call datagramEnv_still trivial
  intro (sockfd : ℤ) _
  by_cases hneg : sockfd < 0
  · simp only [Prog.bind, hneg, if_true]
    apply Safe.ret datagramEnv_still
    simp [datagramEnv, Collected.effect, Collected.note, hneg]
  · simp only [Prog.bind, hneg, if_false]
    apply Safe.call datagramEnv_still trivial
    intro (rc : ℤ) _
    by_cases hrc : rc < 0
    · simp only [Prog.bind, hrc, if_true]
      apply Safe.ret datagramEnv_still
      simp [datagramEnv, Collected.effect, Collected.note, hrc]
    · simp only [Prog.bind, hrc, if_false]
      have hstart : AllAnswered (datagramEnv.effect (datagramEnv.effect (.start incoming) .socket
          sockfd) (.bind sockfd PORT) rc) := rfl
      apply Safe.loop (fun _ => AllAnswered) (fun _ => datagramEnv_still.stable _) ?_ hstart
      intro cliaddr w hw
      apply (posixServerRound_safe hw).mono
      intro r w' hr
      cases r with
      | inl _ => exact hr
      | inr _ => exact Safe.ret datagramEnv_still hr

/-! ## What is written -/

/-- The datagrams come from the sequence, and each byte written lies in a datagram received or is
the one behind it. -/
structure WritesReceived (incoming : List Datagram) (w : Collected) : Prop where
  waiting : ∀ d ∈ w.incoming, d ∈ incoming
  received : ∀ d ∈ w.received, d ∈ incoming
  written : ∀ i ∈ w.written, 0 ≤ i ∧ ∃ d ∈ w.received, i ≤ (min d.data.length MAXLINE : ℕ)

section Writes
variable {incoming : List Datagram} {w : Collected}

theorem WritesReceived.note (h : WritesReceived incoming w) (failed : Bool) :
    WritesReceived incoming (w.note failed) :=
  ⟨h.waiting, h.received, h.written⟩

theorem WritesReceived.receive {d : Datagram} {rest : List Datagram}
    (h : WritesReceived incoming w) (hincoming : w.incoming = d :: rest) :
    WritesReceived incoming (w.receive (min d.data.length MAXLINE)) := by
  have hd : d ∈ incoming := h.waiting d (hincoming ▸ List.mem_cons_self)
  have hrest : ∀ d' ∈ rest, d' ∈ incoming :=
    fun d' hd' => h.waiting d' (hincoming ▸ List.mem_cons_of_mem d hd')
  simp only [Collected.receive, hincoming]
  refine ⟨hrest, List.forall_mem_cons.mpr ⟨hd, h.received⟩, fun i hi => ?_⟩
  rcases List.mem_append.mp hi with hnew | hold
  · obtain ⟨k, hk, rfl⟩ := List.mem_map.mp hnew
    have hlt := List.mem_range.mp hk
    exact ⟨Int.natCast_nonneg k, d, List.mem_cons_self, Int.ofNat_le.mpr hlt.le⟩
  · obtain ⟨hnonneg, d', hd', hle⟩ := h.written i hold
    exact ⟨hnonneg, d', List.mem_cons_of_mem d hd', hle⟩

/-- No call of the collector writes anything else. -/
theorem WritesReceived.effect (h : WritesReceived incoming w) {c : CollectorCall} {a : c.Answer}
    (hguard : RoundGuard w c) (hlegal : datagramEnv.legal w c a) :
    WritesReceived incoming (datagramEnv.effect w c a) := by
  cases c with
  | socket => exact h.note _
  | bind => exact h.note _
  | recvfrom sockfd size len =>
    obtain ⟨(n : ℤ), addr, len'⟩ := a
    by_cases hneg : n < 0
    · have heffect : datagramEnv.effect w (.recvfrom sockfd size len) (n, addr, len') =
          w.note true := if_pos hneg
      rw [heffect]
      exact h.note true
    · obtain ⟨d, rest, hincoming, hn, -⟩ := hlegal.resolve_left hneg
      have heffect : datagramEnv.effect w (.recvfrom sockfd size len) (n, addr, len') =
          w.receive n.toNat := if_neg hneg
      have hsize : n.toNat = min d.data.length MAXLINE := by
        rw [← hguard.2]
        omega
      rw [heffect, hsize]
      exact h.receive hincoming
  | storeBuffer i value =>
    obtain ⟨d, ⟨rest, hreceived, -⟩, rfl⟩ := hguard
    have hd : d ∈ w.received := hreceived ▸ List.mem_cons_self
    have hbyte : (0 : ℤ) ≤ (min d.data.length MAXLINE : ℕ) ∧ ∃ d' ∈ w.received,
        ((min d.data.length MAXLINE : ℕ) : ℤ) ≤ (min d'.data.length MAXLINE : ℕ) :=
      ⟨Int.natCast_nonneg _, d, hd, le_rfl⟩
    exact ⟨h.waiting, h.received, List.forall_mem_cons.mpr ⟨hbyte, h.written⟩⟩
  | sendto sockfd data addr len =>
    simp only [datagramEnv, Collected.effect]
    split
    · exact h.note true
    · exact ⟨h.waiting, h.received, h.written⟩

/-- In every run what is written belongs to the datagrams received. -/
theorem posixServerMain_writes {p : CollectorProg ℤ}
    (hr : Reaches datagramEnv (posixServerMain, .start incoming) (p, w)) :
    WritesReceived incoming w := by
  apply (posixServerMain_safe incoming).preserves (WritesReceived incoming)
    (datagramEnv_still.stable _) (fun w c a hguard hlegal h => h.effect hguard hlegal) hr
  exact ⟨fun _ hd => hd, by simp [Collected.start], by simp [Collected.start]⟩

/-- As long as all datagrams received are shorter than the buffer, nothing is written behind it. -/
theorem WritesReceived.inside (h : WritesReceived incoming w)
    (hshort : ∀ d ∈ w.received, d.data.length < MAXLINE) : Inside w := by
  intro i hi
  obtain ⟨hnonneg, d, hd, hle⟩ := h.written i hi
  have hlt := hshort d hd
  exact ⟨hnonneg, by omega⟩

end Writes

/-! ## A run that receives everything -/

/-- A round in which no call fails. -/
theorem posixServerRound_receives (sockfd : Fd) (cliaddr : SockAddr) {w : Collected} {d : Datagram}
    {rest : List Datagram} (hincoming : w.incoming = d :: rest) :
    ∃ w', Reaches datagramEnv (Prog.iterate (posixServerRound sockfd) cliaddr, w)
        (Prog.iterate (posixServerRound sockfd) d.sender, w') ∧
      w'.incoming = rest ∧ ((min d.data.length MAXLINE : ℕ) : ℤ) ∈ w'.written := by
  let n : ℤ := (min d.data.length MAXLINE : ℕ)
  have hneg : ¬ n < 0 := not_lt.mpr (Int.natCast_nonneg _)
  have hlegal : datagramEnv.legal w (.recvfrom sockfd MAXLINE SOCKADDR_IN_SIZE)
      (n, d.sender, SOCKADDR_IN_SIZE) := .inr ⟨d, rest, hincoming, rfl, fun _ => rfl, rfl⟩
  let w₁ := datagramEnv.effect w (.recvfrom sockfd MAXLINE SOCKADDR_IN_SIZE)
    (n, d.sender, SOCKADDR_IN_SIZE)
  let w₂ := datagramEnv.effect w₁ (.storeBuffer n 0) ()
  refine ⟨datagramEnv.effect w₂ (.sendto sockfd ACK d.sender SOCKADDR_IN_SIZE) (0 : ℤ), ?_, ?_, ?_⟩
  · apply Relation.ReflTransGen.head .loop
    apply Relation.ReflTransGen.head (.call (n, d.sender, SOCKADDR_IN_SIZE) hlegal)
    simp only [Prog.bind, hneg, if_false]
    apply Relation.ReflTransGen.head (.call () trivial)
    apply Relation.ReflTransGen.head (.call (0 : ℤ) trivial)
    exact .refl
  · simp [w₁, w₂, datagramEnv, Collected.effect, Collected.receive, hneg, hincoming]
  · simp [w₁, w₂, datagramEnv, Collected.effect, Collected.receive, hincoming, n]

theorem posixServer_receives {sockfd : Fd} {d : Datagram} :
    ∀ {incoming : List Datagram} (cliaddr : SockAddr) {w : Collected}, w.incoming = incoming →
      d ∈ incoming → ∃ p w', Reaches datagramEnv
          (Prog.iterate (posixServerRound sockfd) cliaddr, w) (p, w') ∧
        ((min d.data.length MAXLINE : ℕ) : ℤ) ∈ w'.written := by
  intro incoming
  induction incoming with
  | nil => exact fun _ _ _ hd => absurd hd List.not_mem_nil
  | cons d' rest ih =>
    intro cliaddr w hincoming hd
    obtain ⟨w', hround, hrest, hwritten⟩ := posixServerRound_receives sockfd cliaddr hincoming
    rcases List.mem_cons.mp hd with rfl | hd
    · exact ⟨_, w', hround, hwritten⟩
    · obtain ⟨p, v, hlater, hfound⟩ := ih d'.sender hrest hd
      exact ⟨p, v, hround.trans hlater, hfound⟩

/-- There is a run that receives a datagram and writes the byte behind it. -/
theorem posixServerMain_receives {incoming : List Datagram} {d : Datagram} (hd : d ∈ incoming) :
    ∃ p w, Reaches datagramEnv (posixServerMain, .start incoming) (p, w) ∧
      ((min d.data.length MAXLINE : ℕ) : ℤ) ∈ w.written := by
  obtain ⟨p, w, hr, hwritten⟩ := @posixServer_receives 3 d incoming ⟨0, 0⟩
    (datagramEnv.effect (datagramEnv.effect (.start incoming) .socket (3 : ℤ)) (.bind 3 PORT) (0 : ℤ))
    rfl hd
  refine ⟨p, w, ?_, hwritten⟩
  apply Relation.ReflTransGen.head (.call (3 : ℤ) trivial)
  apply Relation.ReflTransGen.head (.call (0 : ℤ) trivial)
  exact hr

/-! ## All sequences of datagrams -/

/-- The collector is safe, and answers every datagram once, exactly when each datagram leaves room
for the zero byte behind it. -/
theorem posixServerMain_safe_iff (incoming : List Datagram) :
    CollectsSafely incoming ↔ ∀ d ∈ incoming, d.data.length < MAXLINE := by
  constructor
  · intro hsafe d hd
    obtain ⟨p, w, hr, hwritten⟩ := posixServerMain_receives hd
    have hinside := (hsafe p w hr).1 _ hwritten
    omega
  · intro hshort p w hr
    have hwrites := posixServerMain_writes hr
    refine ⟨hwrites.inside (fun d hd => hshort d (hwrites.received d hd)), ?_⟩
    have hmeets := posixServerMain_safe incoming p w hr
    cases p with
    | ret => exact hmeets
    | call c k => exact RoundGuard.answersOnce hmeets
    | loop => trivial

/-- A datagram that fills the buffer has its zero byte written behind the buffer. -/
theorem posixServerMain_overruns :
    ¬ CollectsSafely [⟨⟨0x7f000001, 40000⟩, List.replicate 1024 65⟩] := by
  intro hsafe
  obtain ⟨p, w, hr, hwritten⟩ := posixServerMain_receives
    (List.mem_singleton_self (⟨⟨0x7f000001, 40000⟩, List.replicate 1024 65⟩ : Datagram))
  rw [List.length_replicate] at hwritten
  have hinside := (hsafe p w hr).1 _ hwritten
  exact absurd hinside.2 (by decide)

end CloningApps.Net
