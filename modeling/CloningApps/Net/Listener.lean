import CloningApps.Interaction.Ledger
import CloningApps.Interaction.Safe
import CloningApps.Net.Sockets

/-! # The state of the listening socket

A server that starts and stops over and over knows whether it is listening only
from the descriptor it stored. That descriptor tells the truth as long as
setting `SO_REUSEADDR` and binding succeed; when one of them fails, the socket is
closed and its descriptor stays behind.
-/

namespace CloningApps.Net
open Text Interaction Os

inductive Owner where
  | server | other
  deriving DecidableEq

abbrev Descriptors := Ledger Fd Owner

def openFds (L : Descriptors) : Set Fd := {s | ∃ k, L.status s = .held k}

namespace Descriptors

/-- A descriptor that is handed out was not open, and nothing works on one that is not. -/
def legal (L : Descriptors) : (c : Call) → c.Answer → Prop
  | .socket .., s => 0 ≤ s → L.Fresh s
  | .setReuseAddr s, rc => rc ≤ 0 ∧ (L.Fresh s → rc < 0)
  | .bind s _, rc => rc ≤ 0 ∧ (L.Fresh s → rc < 0)
  | .listen s _, rc => L.Fresh s → rc ≠ 0
  | _, _ => True

def effect (L : Descriptors) : (c : Call) → c.Answer → Descriptors
  | .socket .., s => if 0 ≤ s then L.acquire s .server else L
  | .close s, _ => L.release s
  | _, _ => L

end Descriptors

def descriptorEnv : Env system Descriptors where
  legal := Descriptors.legal
  effect := Descriptors.effect
  drift := fun _ _ => False

/-- A call on a descriptor finds it open and belonging to the server. -/
def UsesOpen (L : Descriptors) : Call → Prop
  | .setReuseAddr s | .bind s _ | .listen s _ | .close s => s ∈ L.held .server
  | _ => True

inductive ListenerCall where
  | start (port : Port)
  | stop

def ListenerCall.run (os : Platform) (srv : OsServer) : ListenerCall → SysProg (ℤ × OsServer)
  | .start port => tcpServerStart os srv port
  | .stop => tcpServerStop srv

/-- One call after the other on one server. -/
def listenerCalls (os : Platform) : List ListenerCall → OsServer → SysProg OsServer
  | [], srv => return srv
  | c :: cs, srv => do
    let (_, srv) ← c.run os srv
    listenerCalls os cs srv

def Truthful (srv : OsServer) (L : Descriptors) : Prop :=
  tcpServerStarted srv = true ↔ srv.listenerSocket.s ∈ L.held .server

/-- What the helpers keep in the world `E`: after a sequence of calls the server knows whether its
socket is open, no call of the sequence is made on a descriptor that is not open, and a call that
fails opens and closes nothing. -/
structure ListenerKept (E : Env system Descriptors) (os : Platform) (cs : List ListenerCall)
    (srv : OsServer) (L : Descriptors) : Prop where
  truthful : ∀ srv' L', Reaches E (listenerCalls os cs srv, L) (.ret srv', L') → Truthful srv' L'
  open_used : ∀ c k L', Reaches E (listenerCalls os cs srv, L) (.call c k, L') → UsesOpen L' c
  start_failed : ∀ srv' L' port rc srv'' L'',
    Reaches E (listenerCalls os cs srv, L) (.ret srv', L') →
      Reaches E (tcpServerStart os srv' port, L') (.ret (rc, srv''), L'') →
        rc ≠ 0 → openFds L'' = openFds L'
  init_failed : ∀ L' use sock type port rc sock' L'',
    Reaches E (mysocketInit os use sock type port, L') (.ret (rc, sock'), L'') →
      rc ≠ 0 → openFds L'' = openFds L'

/-- Neither `SO_REUSEADDR` nor binding is refused. -/
def Granted : (c : Call) → c.Answer → Prop
  | .setReuseAddr _, rc => 0 ≤ rc
  | .bind .., rc => 0 ≤ rc
  | _, _ => True

abbrev grantedEnv : Env system Descriptors := descriptorEnv.restrict Granted

theorem grantedEnv_still : grantedEnv.Still := fun _ _ h => h

abbrev SafeGranted {α : Type} (post : α → Descriptors → Prop) (p : SysProg α) (L : Descriptors) :
    Prop :=
  Safe grantedEnv UsesOpen post p L

variable {os : Platform} {L : Descriptors} {s : Fd}

theorem openFds_release_acquire (h : L.Fresh s) :
    openFds ((L.acquire s .server).release s) = openFds L := by
  ext x
  by_cases hx : x = s
  · subst hx
    simp [openFds, Ledger.status_release_self (L.mem_held_acquire x .server), h _]
  · simp [openFds, Ledger.status_release_of_ne hx, Ledger.status_acquire_of_ne hx]

theorem held_release_acquire (h : L.Fresh s) :
    ((L.acquire s .server).release s).held .server = L.held .server := by
  rw [Ledger.held_release, Ledger.held_acquire_self]
  apply Set.insert_sdiff_self_of_notMem
  exact h _

/-- Setting `SO_REUSEADDR` on an open socket. -/
theorem reuseAddress_granted (h : s ∈ L.held .server) :
    SafeGranted (fun rc L' => rc = 0 ∧ L' = L) (reuseAddress os s) L := by
  unfold reuseAddress
  split
  · exact Safe.ret grantedEnv_still ⟨rfl, rfl⟩
  · apply Safe.call grantedEnv_still h
    intro (rc : ℤ) hrc
    have hle : rc ≤ 0 := hrc.1.1
    have hge : 0 ≤ rc := hrc.2
    have hzero : rc = 0 := by omega
    simp only [Prog.bind, hzero, lt_irrefl, if_false]
    exact Safe.ret grantedEnv_still ⟨rfl, rfl⟩

/-- What `mysocket_init` leaves behind: an open socket, or a negative descriptor. -/
def Initialised (L : Descriptors) (r : ℤ × Mysocket) (L' : Descriptors) : Prop :=
  (r.1 = 0 ∧ 0 ≤ r.2.s ∧ L.Fresh r.2.s ∧ L' = L.acquire r.2.s .server) ∨
    (r.1 ≠ 0 ∧ r.2.s < 0 ∧ L' = L)

theorem mysocketInit_granted {use : SocketUse} {sock : Mysocket} {type : SocketType} {port : Port} :
    SafeGranted (Initialised L) (mysocketInit os use sock type port) L := by
  apply Safe.call grantedEnv_still trivial
  intro (s : ℤ) hs
  have hfresh : 0 ≤ s → L.Fresh s := hs.1
  by_cases hneg : s < 0
  · have hpos : ¬ 0 ≤ s := not_le.mpr hneg
    have heffect : grantedEnv.effect L (.socket use type) s = L := if_neg hpos
    simp only [Prog.bind, hneg, if_true, heffect]
    exact Safe.ret grantedEnv_still (.inr ⟨by simp, hneg, rfl⟩)
  · have hpos : 0 ≤ s := by omega
    have heffect : grantedEnv.effect L (.socket use type) s = L.acquire s .server := if_pos hpos
    simp only [Prog.bind, hneg, if_false, heffect]
    apply Safe.bind
    apply (reuseAddress_granted (L.mem_held_acquire s .server)).mono
    rintro rc L' ⟨rfl, rfl⟩
    split
    · exact Safe.ret grantedEnv_still (.inl ⟨rfl, hpos, hfresh hpos, rfl⟩)
    · apply Safe.call grantedEnv_still (L.mem_held_acquire s .server)
      intro (rc : ℤ) hrc
      have hge : 0 ≤ rc := hrc.2
      have hle : rc ≤ 0 := hrc.1.1
      have hzero : rc = 0 := by omega
      simp only [Prog.bind, hzero, lt_irrefl, if_false]
      exact Safe.ret grantedEnv_still (.inl ⟨rfl, hpos, hfresh hpos, rfl⟩)

/-- What `tcp_server_start` leaves behind: one more open socket, or the sockets as they were. -/
def Started (L : Descriptors) (r : ℤ × OsServer) (L' : Descriptors) : Prop :=
  (r.1 = 0 ∧ 0 ≤ r.2.listenerSocket.s ∧ L' = L.acquire r.2.listenerSocket.s .server) ∨
    (r.1 ≠ 0 ∧ r.2.listenerSocket.s < 0 ∧ openFds L' = openFds L ∧
      L'.held .server = L.held .server)

theorem tcpServerStart_granted {srv : OsServer} {port : Port} :
    SafeGranted (Started L) (tcpServerStart os srv port) L := by
  apply Safe.bind
  apply mysocketInit_granted.mono
  rintro ⟨rc, sock⟩ L' (⟨hrc, hpos, hfresh, rfl⟩ | ⟨hrc, hneg, rfl⟩)
  · have hheld := L.mem_held_acquire sock.s .server
    simp only [show rc = 0 from hrc, ne_eq, not_true_eq_false, if_false]
    apply Safe.call grantedEnv_still hheld
    intro (rc : ℤ) _
    by_cases hlisten : rc = 0
    · simp only [Prog.bind, hlisten, not_true_eq_false, if_false]
      exact Safe.ret grantedEnv_still (.inl ⟨rfl, hpos, rfl⟩)
    · simp only [Prog.bind, hlisten, not_false_eq_true, if_true]
      apply Safe.call grantedEnv_still hheld
      intro _ _
      apply Safe.ret grantedEnv_still
      exact .inr ⟨hlisten, by simp, openFds_release_acquire hfresh, held_release_acquire hfresh⟩
  · simp only [show rc ≠ 0 from hrc, ne_eq, not_false_eq_true, if_true]
    exact Safe.ret grantedEnv_still (.inr ⟨hrc, hneg, rfl, rfl⟩)

/-- The server knows about its socket, and every socket of the server has a descriptor. -/
structure Knows (srv : OsServer) (L : Descriptors) : Prop where
  truthful : Truthful srv L
  nonneg : ∀ s ∈ L.held .server, 0 ≤ s

theorem Knows.of_held {srv : OsServer} (hpos : 0 ≤ srv.listenerSocket.s)
    (hheld : srv.listenerSocket.s ∈ L.held .server) (hnonneg : ∀ s ∈ L.held .server, 0 ≤ s) :
    Knows srv L :=
  ⟨iff_of_true (by simpa [tcpServerStarted] using hpos) hheld, hnonneg⟩

theorem Knows.of_neg {srv : OsServer} (hneg : srv.listenerSocket.s < 0)
    (hnonneg : ∀ s ∈ L.held .server, 0 ≤ s) : Knows srv L := by
  refine ⟨iff_of_false (by simpa [tcpServerStarted] using hneg) (fun hheld => ?_), hnonneg⟩
  exact absurd (hnonneg _ hheld) (not_le.mpr hneg)

theorem Started.knows {srv : OsServer} {rc : ℤ} {L' : Descriptors}
    (hnonneg : ∀ s ∈ L.held .server, 0 ≤ s) (h : Started L (rc, srv) L') : Knows srv L' := by
  rcases h with ⟨-, hpos, rfl⟩ | ⟨-, hneg, -, hheld⟩
  · apply Knows.of_held hpos (L.mem_held_acquire _ .server)
    intro s hs
    rw [Ledger.held_acquire_self] at hs
    rcases hs with rfl | hs
    · exact hpos
    · exact hnonneg s hs
  · apply Knows.of_neg hneg
    rwa [hheld]

theorem tcpServerStop_granted {srv : OsServer} (h : Knows srv L) :
    SafeGranted (fun r L' => Knows r.2 L') (tcpServerStop srv) L := by
  unfold tcpServerStop
  split
  · rename_i hpos
    have hheld : srv.listenerSocket.s ∈ L.held .server :=
      h.truthful.mp (by simpa [tcpServerStarted] using hpos)
    apply Safe.call grantedEnv_still hheld
    intro _ _
    apply Safe.ret grantedEnv_still
    apply Knows.of_neg (by simp)
    intro s hs
    have hrelease : s ∈ L.held .server \ {srv.listenerSocket.s} := by
      rwa [← Ledger.held_release]
    exact h.nonneg s hrelease.1
  · exact Safe.ret grantedEnv_still h

/-- A sequence of calls can begin on a server that is known, or with a start on any server. -/
inductive Begins (srv : OsServer) (L : Descriptors) : List ListenerCall → Prop where
  | known {cs : List ListenerCall} (h : Knows srv L) : Begins srv L cs
  | start (port : Port) (cs : List ListenerCall) : Begins srv L (.start port :: cs)

/-- The step lemma: what one call leaves behind. -/
theorem ListenerCall.run_granted {c : ListenerCall} {cs : List ListenerCall} {srv : OsServer}
    (hnonneg : ∀ s ∈ L.held .server, 0 ≤ s) (h : Begins srv L (c :: cs)) :
    SafeGranted (fun r L' => Knows r.2 L') (c.run os srv) L := by
  cases c with
  | start port => exact tcpServerStart_granted.mono (fun _ _ h => h.knows hnonneg)
  | stop =>
    cases h with
    | known h => exact tcpServerStop_granted h

/-- The run lemma. -/
theorem listenerCalls_granted {cs : List ListenerCall} {srv : OsServer}
    (hnonneg : ∀ s ∈ L.held .server, 0 ≤ s) (h : Begins srv L cs) :
    SafeGranted Knows (listenerCalls os cs srv) L := by
  induction cs generalizing srv L with
  | nil =>
    cases h with
    | known h => exact Safe.ret grantedEnv_still h
  | cons c cs ih =>
    apply Safe.bind
    apply (ListenerCall.run_granted hnonneg h).mono
    intro r L' hknows
    exact ih hknows.nonneg (.known hknows)

/-- Whatever else the calls are answered with, the listening socket is what the server takes it
for while neither `SO_REUSEADDR` nor binding is refused. -/
theorem listenerKept_granted (os : Platform) (cs : List ListenerCall) (srv : OsServer)
    (L : Descriptors) (hnone : L.held .server = ∅)
    (hbegin : srv.listenerSocket.s < 0 ∨ ∃ port cs', cs = .start port :: cs') :
    ListenerKept (descriptorEnv.restrict Granted) os cs srv L := by
  have hnonneg : ∀ s ∈ L.held .server, 0 ≤ s := by simp [hnone]
  have hbegins : Begins srv L cs := by
    rcases hbegin with hneg | ⟨port, cs', rfl⟩
    · exact .known (.of_neg hneg hnonneg)
    · exact .start port cs'
  have hsafe : SafeGranted Knows (listenerCalls os cs srv) L :=
    listenerCalls_granted hnonneg hbegins
  refine ⟨?_, ?_, ?_, ?_⟩
  · intro srv' L' hreach
    exact (hsafe _ _ hreach).truthful
  · intro c k L' hreach
    exact hsafe _ _ hreach
  · intro srv' L' port rc srv'' L'' _ hstart hrc
    rcases tcpServerStart_granted _ _ hstart with ⟨hzero, -⟩ | ⟨-, -, hopen, -⟩
    · exact absurd hzero hrc
    · exact hopen
  · intro L' use sock type port rc sock' L'' hinit hrc
    rcases mysocketInit_granted _ _ hinit with ⟨hzero, -⟩ | ⟨-, -, rfl⟩
    · exact absurd hzero hrc
    · rfl

theorem listenerKept_granted_twice :
    ListenerKept (descriptorEnv.restrict Granted) .posix [.start 6613, .stop] ⟨⟨-1, 0⟩⟩ .empty :=
  listenerKept_granted .posix [.start 6613, .stop] ⟨⟨-1, 0⟩⟩ .empty
    (by simp [Ledger.held, Ledger.empty]) (.inl (by decide))

/-- A port that is taken: the socket is closed, and the server goes on with its descriptor. -/
theorem listenerKept_bind_refused :
    ¬ ListenerKept descriptorEnv .posix [.start 6613] ⟨⟨-1, 0⟩⟩ .empty := by
  intro h
  have hreach : Reaches descriptorEnv (listenerCalls .posix [.start 6613] ⟨⟨-1, 0⟩⟩, .empty)
      (.ret ⟨⟨3, 0⟩⟩, (Ledger.empty.acquire 3 .server).release 3) := by
    apply Relation.ReflTransGen.head (.call (3 : ℤ) (fun _ k => by simp [Ledger.empty]))
    apply Relation.ReflTransGen.head (.call (0 : ℤ) ⟨le_rfl, fun hf => absurd rfl (hf .server)⟩)
    apply Relation.ReflTransGen.head (.call (-1 : ℤ) ⟨by decide, fun _ => by decide⟩)
    apply Relation.ReflTransGen.head (.call () trivial)
    exact .refl
  have htruth := h.truthful _ _ hreach
  simp [Truthful, tcpServerStarted, Ledger.held_release] at htruth

end CloningApps.Net
