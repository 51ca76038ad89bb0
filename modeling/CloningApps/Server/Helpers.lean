import CloningApps.Server.Resources

/-! # What the socket helpers do to the resources of a process

Each helper is described by what the process owns before and after it.
-/

namespace CloningApps.Server
open Text Interaction Os Cmdline Net

/-- The descriptor of a connection or of a socket, when there is one. -/
def fdOf (s : Fd) : Set Resource := if 0 ≤ s then {.fd s} else ∅

def bufferOf : Option Block → Set Resource
  | none => ∅
  | some block => {.block block.addr}

variable {w : World} {f : Flags} {l c b p : Set Resource}

theorem freeBuffer_safe {netbuf : Option Block} (h : Owns w f l c (bufferOf netbuf) p) :
    SafeProcess (fun _ w' => Owns w' f l c ∅ p) (freeBuffer netbuf) w := by
  cases netbuf with
  | none => exact Safe.ret processEnv_still h
  | some block =>
    have hmem : Resource.block block.addr ∈ w.ledger.held .netbuf := by
      rw [h.netbuf]
      exact Set.mem_singleton _
    have hrelease : Owns (w.release (.block block.addr)) f l c ∅ p := by
      simpa [bufferOf] using h.release hmem
    exact Safe.call processEnv_still trivial (fun _ _ => Safe.ret processEnv_still hrelease)

theorem close_connection {s : Fd} (h : Owns w f l (fdOf s) b p) (hs : 0 ≤ s) :
    Owns (w.release (.fd s)) f l ∅ b p := by
  have hmem : Resource.fd s ∈ w.ledger.held .connection := by
    rw [h.connection, fdOf, if_pos hs]
    exact Set.mem_singleton _
  have hrelease := h.release hmem
  simpa [fdOf, hs] using hrelease

/-- After a cleanup neither the connection nor the buffer of the message is held. -/
theorem netMsgCleanup_safe {m : NetMsg}
    (h : Owns w f l (fdOf m.connection) (bufferOf m.netbuf) p) :
    SafeProcess (fun _ w' => Owns w' f l ∅ ∅ p) (netMsgCleanup m) w := by
  apply Safe.bind
  apply (freeBuffer_safe h).mono
  intro _ w' h'
  by_cases hs : 0 ≤ m.connection
  · simp only [hs, if_true]
    refine Safe.call processEnv_still trivial (fun _ _ => Safe.ret processEnv_still ?_)
    exact close_connection h' hs
  · simp only [hs, if_false]
    have hnone : fdOf m.connection = ∅ := if_neg hs
    exact Safe.ret processEnv_still (hnone ▸ h')

theorem Owns.guard (h : Owns w f l ∅ ∅ p) (s : Fd) : acceptGuard w (.accept s) :=
  ⟨⟨h.connection, h.once.1⟩, h.netbuf, h.once.2.1⟩

theorem Owns.accepted (h : Owns w f l ∅ ∅ p) {s : Fd} (hs : 0 ≤ s)
    (hfresh : w.ledger.Fresh (.fd s)) :
    Owns (w.acquire (.fd s) .connection) f l (fdOf s) ∅ p := by
  simpa [fdOf, hs] using h.acquire hfresh .connection

/-- An accepted message owns its connection and no buffer; a failed call leaves nothing behind. -/
theorem tcpServerAccept_safe {srv : OsServer} (h : Owns w f l ∅ ∅ p) :
    SafeProcess (fun r w' => (r.1 = 0 → Owns w' f l (fdOf r.2.connection) (bufferOf r.2.netbuf) p) ∧
      (r.1 ≠ 0 → Owns w' f l ∅ ∅ p)) (tcpServerAccept srv) w := by
  apply Safe.call processEnv_still (h.guard _)
  intro (s : ℤ) hlegal
  by_cases hs : s < 0
  · have hneg : ¬ 0 ≤ s := by omega
    have heffect : processEnv.effect w (.accept srv.listenerSocket.s) s = w := if_neg hneg
    have hown : Owns w f l (fdOf s) (bufferOf none) p := by rwa [fdOf, if_neg hneg]
    simp only [Prog.bind, hs, if_true, heffect]
    apply Safe.bind
    apply (netMsgCleanup_safe hown).mono
    intro _ w' h'
    exact Safe.ret processEnv_still ⟨fun h0 => absurd h0 (neg_ne_zero.mpr one_ne_zero), fun _ => h'⟩
  · have hpos : 0 ≤ s := by omega
    have heffect : processEnv.effect w (.accept srv.listenerSocket.s) s =
        w.acquire (.fd s) .connection := if_pos hpos
    have hown := h.accepted hpos (hlegal hpos)
    simp only [Prog.bind, hs, if_false, heffect]
    apply Safe.call processEnv_still trivial
    intro rc _
    by_cases hrc : rc = 0
    · simp only [hrc]
      exact Safe.ret processEnv_still ⟨fun _ => hown, fun h0 => absurd rfl h0⟩
    · simp only [Prog.bind, hrc, ne_eq, not_false_eq_true, if_true]
      apply Safe.bind
      apply (netMsgCleanup_safe hown).mono
      intro _ w' h'
      exact Safe.ret processEnv_still ⟨fun h0 => absurd h0 hrc, fun _ => h'⟩

/-- The buffer of a message is allocated at most once. -/
theorem netMsgBuffer_safe {m : NetMsg}
    (h : Owns w f l (fdOf m.connection) (bufferOf m.netbuf) p) :
    SafeProcess (fun r w' => Owns w' f l (fdOf r.2.connection) (bufferOf r.2.netbuf) p)
      (netMsgBuffer m) w := by
  cases hm : m.netbuf with
  | some block =>
    simp only [netMsgBuffer, hm]
    exact Safe.ret processEnv_still h
  | none =>
    rw [hm] at h
    simp only [netMsgBuffer, hm, netMsgInitBuffer]
    apply Safe.call processEnv_still trivial
    intro block hlegal
    cases block with
    | none => exact Safe.ret processEnv_still h
    | some block =>
      have hown : Owns (w.acquire (.block block.addr) .netbuf) f l (fdOf m.connection)
          (bufferOf (some block)) p := by
        simpa [bufferOf] using h.acquire hlegal .netbuf
      exact Safe.ret processEnv_still hown

theorem tcpServerRecvMsg_safe {m : NetMsg}
    (h : Owns w f l (fdOf m.connection) (bufferOf m.netbuf) p) :
    SafeProcess (fun r w' => Owns w' f l (fdOf r.2.connection) (bufferOf r.2.netbuf) p)
      (tcpServerRecvMsg m) w := by
  apply Safe.bind
  apply (netMsgBuffer_safe h).mono
  intro r w' h'
  cases hr : r.2.netbuf with
  | none =>
    simp only [hr]
    exact Safe.ret processEnv_still h'
  | some block =>
    simp only [hr]
    apply Safe.call processEnv_still trivial
    intro data _
    rw [hr] at h'
    cases data with
    | none => exact Safe.ret processEnv_still (by rwa [hr])
    | some data => exact Safe.ret processEnv_still h'

theorem tcpServerSendMsg_safe {m : NetMsg} (h : Owns w f l c b p) :
    SafeProcess (fun _ w' => Owns w' f l c b p) (tcpServerSendMsg m) w := by
  cases hm : m.netbuf with
  | none =>
    simp only [tcpServerSendMsg, hm]
    exact Safe.ret processEnv_still h
  | some block =>
    simp only [tcpServerSendMsg, hm]
    exact Safe.call processEnv_still trivial (fun _ _ => Safe.ret processEnv_still h)

theorem tcpServerStop_safe {srv : OsServer} (h : Owns w f (fdOf srv.listenerSocket.s) c b p) :
    SafeProcess (fun _ w' => Owns w' f ∅ c b p) (tcpServerStop srv) w := by
  by_cases hs : 0 ≤ srv.listenerSocket.s
  · simp only [tcpServerStop, hs, if_true]
    have hmem : Resource.fd srv.listenerSocket.s ∈ w.ledger.held .listener := by
      rw [h.listener, fdOf, if_pos hs]
      exact Set.mem_singleton _
    have hrelease : Owns (w.release (.fd srv.listenerSocket.s)) f ∅ c b p := by
      simpa [fdOf, hs] using h.release hmem
    exact Safe.call processEnv_still trivial (fun _ _ => Safe.ret processEnv_still hrelease)
  · simp only [tcpServerStop, hs, if_false]
    have hnone : fdOf srv.listenerSocket.s = ∅ := if_neg hs
    exact Safe.ret processEnv_still (hnone ▸ h)

/-! ## Starting to listen -/

/-- A listening socket that was closed for want of `SO_REUSEADDR` is closed once more. -/
theorem Owns.closed_again {r : Resource} (h : Owns w f l c b p)
    (hr : w.ledger.status r = .released .listener) :
    Owns ⟨w.ledger.release r, { f with reuseFailed := true }⟩ { f with reuseFailed := true }
      l c b p := by
  have hheld : ∀ k, (w.ledger.release r).held k = w.ledger.held k := by
    intro k
    rw [Ledger.held_release]
    apply Set.sdiff_singleton_eq_self
    intro hmem
    rw [Ledger.mem_held, hr] at hmem
    exact absurd hmem (by simp)
  have hfaults : (w.ledger.release r).faults = .listener :: w.ledger.faults := by
    simp only [Ledger.release, hr]
  refine ⟨rfl, (hheld _).trans h.listener, (hheld _).trans h.connection,
    (hheld _).trans h.netbuf, (hheld _).trans h.pages, ?_, ?_⟩
  · simpa [hfaults] using h.once
  · simp [hfaults]

/-- Setting `SO_REUSEADDR` on the listening socket changes nothing, or fails and closes it. -/
theorem reuseAddress_safe {os : Platform} {s : Fd} {f : Flags}
    (hs : w.ledger.status (.fd s) = .held .listener) (hf : w.flags = f) :
    SafeProcess (fun rc w' => (rc = 0 ∧ w' = w) ∨
      (rc < 0 ∧ w' = ⟨w.ledger.release (.fd s), { f with reuseFailed := true }⟩))
      (reuseAddress os s) w := by
  by_cases hos : os = .minios
  · simp only [reuseAddress, hos, if_true]
    exact Safe.ret processEnv_still (.inl ⟨rfl, rfl⟩)
  · simp only [reuseAddress, hos, if_false]
    apply Safe.call processEnv_still trivial
    intro (rc : ℤ) (hlegal : rc ≤ 0)
    by_cases hrc : rc < 0
    · have heffect : processEnv.effect w (.setReuseAddr s) rc =
          ⟨w.ledger, { f with reuseFailed := true }⟩ := by
        simp [processEnv, World.effect, World.isListener, hs, hrc, hf]
      simp only [Prog.bind, hrc, if_true, heffect]
      exact Safe.call processEnv_still trivial
        (fun _ _ => Safe.ret processEnv_still (.inr ⟨hrc, rfl⟩))
    · have hzero : rc = 0 := by omega
      have heffect : processEnv.effect w (.setReuseAddr s) rc = w := by
        simp [processEnv, World.effect, hrc]
      simp only [Prog.bind, hrc, if_false, heffect]
      exact Safe.ret processEnv_still (.inl ⟨hzero, rfl⟩)

theorem effect_bind_failed (w : World) (s : Fd) (port : Port) {rc : ℤ} (hrc : rc ≠ 0) :
    processEnv.effect w (.bind s port) rc = w := by
  simp [processEnv, World.effect, hrc]

/-- What starting the listening socket leaves behind: the socket when it succeeds, and nothing
when it fails, unless `SO_REUSEADDR` failed and the socket was closed twice. -/
theorem mysocketInit_safe {os : Platform} {sock : Mysocket} {type : SocketType} {port : Port}
    (hport : port ≠ 0) (h : Owns w f ∅ c b p) (hf : f.reuseFailed = false) :
    SafeProcess (fun r w' =>
      (r.1 = 0 → 0 ≤ r.2.s ∧ Owns w' { f with bound := true } (fdOf r.2.s) c b p) ∧
      (r.1 ≠ 0 → ∃ reuse, Owns w' { f with reuseFailed := reuse } ∅ c b p))
      (mysocketInit os .listener sock type port) w := by
  have hfalse : ({ f with reuseFailed := false } : Flags) = f := by rw [← hf]
  apply Safe.call processEnv_still trivial
  intro (s : ℤ) hlegal
  by_cases hs : s < 0
  · have hneg : ¬ 0 ≤ s := by omega
    have heffect : processEnv.effect w (.socket .listener type) s = w := if_neg hneg
    simp only [Prog.bind, hs, if_true, heffect]
    exact Safe.ret processEnv_still ⟨fun h0 => absurd h0 (neg_ne_zero.mpr one_ne_zero),
      fun _ => ⟨false, hfalse ▸ h⟩⟩
  · have hpos : 0 ≤ s := by omega
    have heffect : processEnv.effect w (.socket .listener type) s =
        w.acquire (.fd s) .listener := if_pos hpos
    have hfresh : w.ledger.Fresh (.fd s) := hlegal hpos
    have hown : Owns (w.acquire (.fd s) .listener) f (fdOf s) c b p := by
      simpa [fdOf, hpos] using h.acquire hfresh .listener
    have hheld : (w.acquire (.fd s) .listener).ledger.status (.fd s) = .held .listener :=
      w.ledger.status_acquire_self _ _
    have hclosed : Owns ((w.acquire (.fd s) .listener).release (.fd s)) f ∅ c b p := by
      simpa [fdOf, hpos] using hown.release hheld
    simp only [Prog.bind, hs, if_false, heffect]
    apply Safe.bind
    apply (reuseAddress_safe hheld hown.flags).mono
    rintro rc w' (⟨-, rfl⟩ | ⟨-, rfl⟩)
    · simp only [hport, if_false]
      apply Safe.call processEnv_still trivial
      intro (rc : ℤ) (hlegal : rc ≤ 0 ∧ _)
      by_cases hrc : rc < 0
      · have hne : ¬ rc = 0 := by omega
        simp only [Prog.bind, hrc, if_true, effect_bind_failed _ s port hne]
        exact Safe.call processEnv_still trivial (fun _ _ => Safe.ret processEnv_still
          ⟨fun h0 => absurd h0 hne, fun _ => ⟨false, hfalse ▸ hclosed⟩⟩)
      · have hzero : rc = 0 := le_antisymm hlegal.1 (not_lt.mp hrc)
        have heffect : processEnv.effect (w.acquire (.fd s) .listener) (.bind s port) rc =
            ⟨(w.acquire (.fd s) .listener).ledger, { f with bound := true }⟩ := by
          simp [processEnv, World.effect, World.isListener, hheld, hzero, hown.flags]
        simp only [Prog.bind, hrc, if_false, heffect]
        exact Safe.ret processEnv_still ⟨fun _ => ⟨hpos, ⟨rfl, hown.listener, hown.connection,
          hown.netbuf, hown.pages, hown.once, hown.reuse⟩⟩, fun h0 => absurd hzero h0⟩
    · have hstatus : ((w.acquire (.fd s) .listener).ledger.release (.fd s)).status (.fd s) =
          .released .listener := Ledger.status_release_self hheld
      have hagain := hclosed.closed_again hstatus
      simp only [hport, if_false]
      refine Safe.call processEnv_still trivial
        (fun (rc : ℤ) (hlegal : rc ≤ 0 ∧ (_ → rc < 0)) => ?_)
      have hrc : rc < 0 := hlegal.2 (fun k hk => by simp [hstatus] at hk)
      have hne : ¬ rc = 0 := by omega
      simp only [Prog.bind, hrc, if_true, effect_bind_failed _ s port hne]
      exact Safe.call processEnv_still trivial (fun _ _ => Safe.ret processEnv_still
        ⟨fun h0 => absurd h0 hne, fun _ => ⟨true, hagain⟩⟩)

theorem Owns.setFlags {f' : Flags} (h : Owns w f l c b p)
    (hf : f'.reuseFailed = f.reuseFailed) : Owns ⟨w.ledger, f'⟩ f' l c b p :=
  ⟨rfl, h.listener, h.connection, h.netbuf, h.pages, h.once, hf ▸ h.reuse⟩

/-- A started server owns its listening socket; one that failed to start owns nothing. -/
theorem tcpServerStart_safe {os : Platform} {srv : OsServer} {port : Port} (hport : port ≠ 0)
    (h : Owns w f ∅ c b p) (hf : f.reuseFailed = false) :
    SafeProcess (fun r w' =>
      (r.1 = 0 → 0 ≤ r.2.listenerSocket.s ∧ Owns w' { f with bound := true, listening := true }
        (fdOf r.2.listenerSocket.s) c b p) ∧
      (r.1 ≠ 0 → ∃ bound reuse, Owns w' { f with bound := bound, reuseFailed := reuse } ∅ c b p))
      (tcpServerStart os srv port) w := by
  apply Safe.bind
  apply (mysocketInit_safe hport h hf).mono
  rintro ⟨rc, sock⟩ w' ⟨hok, herr⟩
  by_cases hrc : rc = 0
  · obtain ⟨hpos, hown⟩ := hok hrc
    have hmem : Resource.fd sock.s ∈ w'.ledger.held .listener := by
      rw [hown.listener, fdOf, if_pos hpos]
      exact Set.mem_singleton _
    simp only [hrc, ne_eq, not_true_eq_false, if_false]
    apply Safe.call processEnv_still trivial
    intro (rc : ℤ) _
    by_cases hrc : rc = 0
    · have heffect : processEnv.effect w' (.listen sock.s 5) rc =
          ⟨w'.ledger, { f with bound := true, listening := true }⟩ := by
        rw [Ledger.mem_held] at hmem
        simp [processEnv, World.effect, World.isListener, hmem, hrc, hown.flags]
      simp only [Prog.bind, hrc, not_true_eq_false, if_false]
      rw [hrc] at heffect
      rw [heffect]
      exact Safe.ret processEnv_still
        ⟨fun _ => ⟨hpos, hown.setFlags rfl⟩, fun h0 => absurd rfl h0⟩
    · have heffect : processEnv.effect w' (.listen sock.s 5) rc = w' := by
        simp [processEnv, World.effect, hrc]
      have hclosed : Owns (w'.release (.fd sock.s)) { f with bound := true } ∅ c b p := by
        simpa [fdOf, hpos] using hown.release hmem
      simp only [Prog.bind, hrc, not_false_eq_true, if_true, heffect]
      exact Safe.call processEnv_still trivial (fun _ _ => Safe.ret processEnv_still
        ⟨fun h0 => absurd h0 hrc, fun _ => ⟨true, f.reuseFailed, hclosed⟩⟩)
  · obtain ⟨reuse, hown⟩ := herr hrc
    simp only [hrc, ne_eq, not_false_eq_true, if_true]
    exact Safe.ret processEnv_still ⟨fun h0 => absurd h0 hrc, fun _ => ⟨f.bound, reuse, hown⟩⟩

end CloningApps.Server
