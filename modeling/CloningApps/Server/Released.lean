import CloningApps.Interaction.Exec
import CloningApps.Server.Balance

/-! # What the servers with side operations leave behind

Cloning, forking and touching pages can fail while a request is served, and the
`goto out` taken then jumps over everything that releases. The UDP server has
nothing behind its loop that could release its socket.
-/

namespace CloningApps.Server
open Text Interaction Os Cmdline Net

variable {w : World} {f : Flags} {l c b p : Set Resource}

/-- Everything a server has to release was released exactly once. -/
structure Released (w : World) : Prop where
  connection : w.ledger.Settled .connection
  netbuf : w.ledger.Settled .netbuf
  pages : w.ledger.Settled .pages
  listener : w.ledger.Settled .listener

theorem Owns.released_iff (h : Owns w f ∅ ∅ ∅ ∅) : Released w ↔ f.reuseFailed = false := by
  rw [← Bool.not_eq_true, ← h.reuse]
  exact ⟨fun hr => hr.listener.2, fun hr => ⟨⟨h.connection, h.once.1⟩, ⟨h.netbuf, h.once.2.1⟩,
    ⟨h.pages, h.once.2.2⟩, h.listener, hr⟩⟩

/-- A process that still holds its listening socket has not released it. -/
theorem Owns.not_released {s : Fd} (h : Owns w f (fdOf s) c b p) (hs : 0 ≤ s) : ¬ Released w := by
  intro hr
  have hempty : fdOf s = ∅ := h.listener.symm.trans hr.listener.1
  rw [fdOf, if_pos hs] at hempty
  exact Set.singleton_ne_empty _ hempty

/-- The original process of a server in which no side operation has failed. -/
def Unfailed (f : Flags) : Prop :=
  f.reuseFailed = false ∧ f.listening = true ∧ (f.original = true → f.sideFailed = false)

/-- Past `goto out` the original process has failed and still holds its resources. -/
def LeftOut (w : World) : Prop :=
  w.flags.original = true → w.flags.sideFailed = true ∧ ¬ Released w

/-- Whether the original process has released everything, by its flags. -/
def Outcome (w : World) : Prop :=
  w.flags.original = true →
    (Released w ↔ w.flags.reuseFailed = false ∧ w.flags.sideFailed = false)

theorem LeftOut.outcome (h : LeftOut w) : Outcome w := by
  intro horiginal
  obtain ⟨hfailed, hr⟩ := h horiginal
  exact iff_of_false hr (by simp [hfailed])

theorem Owns.outcome (h : Owns w f ∅ ∅ ∅ ∅) (hf : f.original = true → f.sideFailed = false) :
    Outcome w := by
  intro horiginal
  rw [h.flags] at horiginal ⊢
  rw [h.released_iff, hf horiginal]
  simp

/-- What a call that made a process leaves, when it failed and when it did not. -/
theorem Owns.spawned (h : Owns w f l c b p) (hF : Unfailed f) (parent failed : Bool) :
    Owns ⟨w.ledger, f.spawn parent failed⟩ (f.spawn parent failed) l c b p ∧
      (failed = false → Unfailed (f.spawn parent failed)) ∧
      (failed = true → (f.spawn parent failed).sideFailed = true) := by
  obtain ⟨hreuse, hlistening, hside⟩ := hF
  refine ⟨h.setFlags rfl, ?_, ?_⟩
  · rintro rfl
    refine ⟨hreuse, hlistening, fun horiginal => ?_⟩
    simp only [Flags.spawn, Flags.side, Bool.and_eq_true] at horiginal
    simp [Flags.spawn, Flags.side, hside horiginal.1]
  · rintro rfl
    simp [Flags.spawn, Flags.side, hlistening]

/-! ## children -/

theorem childrenServe_safe {s : Fd} (hs : 0 ≤ s) {g : Globals} {m : NetMsg} (hF : Unfailed f)
    (h : Owns w f (fdOf s) (fdOf m.connection) (bufferOf m.netbuf) p) :
    SafeProcess (RoundPost Unfailed LeftOut (fdOf s) p) (childrenServe g m) w := by
  apply Safe.bind
  apply (tcpServerRecvMsg_safe h).mono
  rintro ⟨rc, m⟩ w' h'
  dsimp only
  split
  · exact cleanupRound_safe hF h'
  · apply Safe.call processEnv_still trivial
    intro (r : ℤ × Globals) _
    have heffect : processEnv.effect w' (.osClone 1 g) r =
        ⟨w'.ledger, f.spawn (r.1 ≠ 1) (r.1 < 0)⟩ := by
      rw [← h'.flags]
      rfl
    obtain ⟨hown, hok, hfailed⟩ := h'.spawned hF (r.1 ≠ 1) (r.1 < 0)
    simp only [Prog.bind, heffect]
    split
    · rename_i hneg
      refine Safe.ret processEnv_still (fun _ => ⟨hfailed (by simpa using hneg), ?_⟩)
      exact hown.not_released hs
    · rename_i hneg
      exact cleanupRound_safe (hok (by simpa using hneg)) hown

theorem childrenRound_safe {srv : OsServer} (hs : 0 ≤ srv.listenerSocket.s) {g : Globals}
    (h : Ready Unfailed (fdOf srv.listenerSocket.s) p w) :
    SafeProcess (RoundPost Unfailed LeftOut (fdOf srv.listenerSocket.s) p)
      (childrenRound srv g) w := by
  have hstarted : tcpServerStarted srv = true := by simpa [tcpServerStarted] using hs
  simp only [childrenRound, hstarted, Bool.not_true, Bool.false_eq_true, if_false]
  exact acceptRound_safe h (fun _ _ _ hF hown => childrenServe_safe hs hF hown)

/-- Serving ends with everything released, unless it ends in `goto out`. -/
theorem serveTcp_released {σ : Type} {os : Platform}
    {round : OsServer → σ → SysProg (σ ⊕ LoopExit)} {s : σ} (h : Owns w f ∅ ∅ ∅ p)
    (hreuse : f.reuseFailed = false) (hside : f.sideFailed = false)
    (hround : ∀ srv s w, 0 ≤ srv.listenerSocket.s →
      Ready Unfailed (fdOf srv.listenerSocket.s) p w →
      SafeProcess (RoundPost Unfailed LeftOut (fdOf srv.listenerSocket.s) p) (round srv s) w) :
    SafeProcess (fun exit w' => match exit with
      | .out _ => LeftOut w'
      | .stop _ => ∃ f', (f'.original = true → f'.sideFailed = false) ∧ Owns w' f' ∅ ∅ ∅ p)
      (serveTcp os round s) w := by
  refine (serveTcp_safe h hreuse ⟨hreuse, rfl, fun _ => hside⟩ hround).mono ?_
  intro exit w' hw
  cases exit with
  | out rc => exact hw
  | stop rc =>
    rcases hw with ⟨bound, reuse, hown⟩ | ⟨f', hF, hown⟩
    · exact ⟨{ f with bound := bound, reuseFailed := reuse }, fun _ => hside, hown⟩
    · exact ⟨f', hF.2.2, hown⟩

theorem threadFuncChildren_safe (os : Platform) (g : Globals) :
    SafeProcess (fun _ w => Outcome w) (threadFuncChildren os g) .initial := by
  apply Safe.bind
  apply (serverPrologue_safe Untouched.initial).mono
  rintro ⟨prologue, g⟩ w hw
  obtain ⟨original, hown⟩ := hw.owns
  dsimp only
  split
  · exact Safe.ret processEnv_still (hown.outcome (fun _ => rfl))
  · refine Safe.bind ((serveTcp_released hown rfl rfl
      (fun srv g w hs h => childrenRound_safe hs h)).mono ?_)
    intro exit w' hw
    cases exit with
    | out rc => exact Safe.ret processEnv_still hw.outcome
    | stop rc =>
      obtain ⟨f', hf', hown'⟩ := hw
      exact Safe.ret processEnv_still (hown'.outcome hf')

/-! ## memory-overhead -/

theorem Owns.touched {start : ℕ} {pagesNum : ULong} {rc : ℤ} (h : Owns w f l c b p) :
    Owns (processEnv.effect w (.memTouchPages start pagesNum) rc) (f.side (rc ≠ 0)) l c b p := by
  have heffect : processEnv.effect w (.memTouchPages start pagesNum) rc =
      ⟨w.ledger, f.side (rc ≠ 0)⟩ := by
    rw [← h.flags]
    rfl
  rw [heffect]
  exact h.setFlags rfl

/-- The request leaves the loop only when its fork or its pages failed, or in a child. -/
theorem overhead_safe {g : Globals} {start : ℕ} {pagesNum : ULong} {rc : ℤ}
    (h : Owns w f l c b p) (hF : Unfailed f) :
    SafeProcess (fun r w' => ∃ f', Owns w' f' l c b p ∧ (r.1 = false → Unfailed f') ∧
      (r.1 = true → f'.original = true → f'.sideFailed = true))
      (overhead g start pagesNum rc) w := by
  have htouch : ∀ (f : Flags) (rc : ℤ), Unfailed f →
      (rc = 0 → Unfailed (f.side (rc ≠ 0))) ∧ (rc ≠ 0 → (f.side (rc ≠ 0)).sideFailed = true) := by
    intro f rc hF
    refine ⟨?_, fun hrc => by simp [Flags.side, hF.2.1, hrc]⟩
    rintro rfl
    exact ⟨hF.1, hF.2.1, fun ho => by simpa [Flags.side] using hF.2.2 ho⟩
  unfold overhead
  split
  · apply Safe.call processEnv_still trivial
    intro (pid : ℤ) _
    have heffect : processEnv.effect w .fork pid =
        ⟨w.ledger, f.spawn (pid ≠ 0) (pid < 0)⟩ := by
      rw [← h.flags]
      rfl
    obtain ⟨hown, hok, hfailed⟩ := h.spawned hF (pid ≠ 0) (pid < 0)
    simp only [Prog.bind, heffect]
    split
    · rename_i hneg
      exact Safe.ret processEnv_still ⟨_, hown, fun h0 => by simp at h0,
        fun _ _ => hfailed (by simpa using hneg)⟩
    · rename_i hneg
      split
      · rename_i hchild
        apply Safe.call processEnv_still trivial
        intro (rc : ℤ) _
        simp only [Prog.bind]
        split
        · refine Safe.ret processEnv_still ⟨_, hown.touched, fun h0 => by simp at h0, ?_⟩
          intro _ horiginal
          simp [Flags.side, Flags.spawn, hchild] at horiginal
        · exact Safe.call processEnv_still trivial (fun nothing _ => nothing.elim)
      · exact Safe.ret processEnv_still ⟨_, hown, fun _ => hok (by simpa using hneg),
          fun h0 => by simp at h0⟩
  · apply Safe.call processEnv_still trivial
    intro (rc : ℤ) _
    obtain ⟨hok, hfailed⟩ := htouch f rc hF
    refine Safe.ret processEnv_still ⟨_, h.touched, fun h0 => hok ?_, fun h0 _ => hfailed ?_⟩
    · simpa using h0
    · simpa using h0

theorem memoryOverheadServe_safe {s : Fd} (hs : 0 ≤ s) {g : Globals} {start : ℕ}
    {pagesNum : ULong} {m : NetMsg} (hF : Unfailed f)
    (h : Owns w f (fdOf s) (fdOf m.connection) (bufferOf m.netbuf) p) :
    SafeProcess (RoundPost Unfailed LeftOut (fdOf s) p)
      (memoryOverheadServe g start pagesNum m) w := by
  apply recvRequest_safe hF h
  rintro ⟨rc, m⟩ w' h'
  dsimp only
  split
  · apply Safe.bind
    apply (overhead_safe h' hF).mono
    rintro ⟨out, rc⟩ w'' ⟨f', hown, hok, hfailed⟩
    cases out with
    | true =>
      refine Safe.ret processEnv_still (fun horiginal => ⟨?_, hown.not_released hs⟩)
      rw [hown.flags] at horiginal ⊢
      exact hfailed rfl horiginal
    | false => exact keepRunning_safe (hok rfl) hown
  · exact keepRunning_safe hF h'

theorem threadFuncMemoryOverhead_safe (os : Platform) (osGetPageSize : BitVec 32)
    (osPageSize : ULong) (g : Globals) :
    SafeProcess (fun _ w => Outcome w) (threadFuncMemoryOverhead os osGetPageSize osPageSize g)
      .initial := by
  obtain ⟨original, hown⟩ := Untouched.initial.owns
  unfold threadFuncMemoryOverhead
  cases requestedPages osGetPageSize osPageSize g with
  | none => exact Safe.ret processEnv_still (hown.outcome (fun _ => rfl))
  | some pagesNum =>
    apply withPages_safe hown rfl (fun rc w h => h.outcome (fun _ => rfl))
    intro start w h
    refine Safe.bind ((serveTcp_released h rfl rfl (fun srv s w hs h =>
      acceptRound_safe h (fun _ _ _ hF hown => memoryOverheadServe_safe hs hF hown))).mono ?_)
    intro exit w' hw
    cases exit with
    | out rc => exact Safe.ret processEnv_still hw.outcome
    | stop rc =>
      obtain ⟨f', hf', hown'⟩ := hw
      exact osFreePages_safe hown' (fun w' h' => h'.outcome hf')

/-! ## server-udp -/

theorem udpServerRecvMsg_safe {sock : Mysocket} {m : NetMsg}
    (h : Owns w f l (fdOf m.connection) (bufferOf m.netbuf) p) :
    SafeProcess (fun r w' => Owns w' f l (fdOf r.2.connection) (bufferOf r.2.netbuf) p)
      (udpServerRecvMsg sock m) w := by
  apply Safe.bind
  apply (netMsgBuffer_safe h).mono
  intro r w' h'
  cases hr : r.2.netbuf with
  | none =>
    simp only [hr]
    exact Safe.ret processEnv_still h'
  | some block =>
    simp only [hr]
    apply Safe.call processEnv_still trivial
    intro data _
    rw [hr] at h'
    cases data with
    | none => exact Safe.ret processEnv_still (by rwa [hr])
    | some data => exact Safe.ret processEnv_still h'

/-- The loop of server-udp is left with the socket still open. -/
theorem serverUdpLoop_safe {listener : Mysocket} (h : Owns w f (fdOf listener.s) ∅ ∅ p) :
    SafeProcess (fun _ w' => ∃ c b, Owns w' f (fdOf listener.s) c b p)
      (Prog.iterate (serverUdpRound listener) ()) w := by
  refine Safe.loop (fun _ w => Owns w f (fdOf listener.s) ∅ ∅ p)
    (fun _ => processEnv_still.stable _) ?_ h
  rintro ⟨⟩ w h
  apply Safe.bind
  apply (udpServerRecvMsg_safe h).mono
  rintro ⟨rc, m⟩ w' h'
  dsimp only
  split
  · exact Safe.ret processEnv_still (Safe.ret processEnv_still ⟨_, _, h'⟩)
  · apply Safe.bind
    apply (netMsgCleanup_safe h').mono
    intro _ w'' h''
    exact Safe.ret processEnv_still h''

theorem threadFuncServerUdp_safe (os : Platform) (g : Globals) :
    SafeProcess (fun _ w => Released w ↔ w.flags.reuseFailed = false ∧ w.flags.bound = false)
      (threadFuncServerUdp os g) .initial := by
  have hport : DEFAULT_SERVER_PORT ≠ 0 := by decide
  apply Safe.bind
  apply (serverPrologue_safe Untouched.initial).mono
  rintro ⟨prologue, g⟩ w hw
  obtain ⟨original, hown⟩ := hw.owns
  dsimp only
  split
  · apply Safe.ret processEnv_still
    rw [hown.released_iff, hown.flags]
    simp [Flags.initial]
  · apply Safe.bind
    apply uninitialisedSocket_safe.mono
    rintro sock w rfl
    apply Safe.bind
    apply (mysocketInit_safe hport hown rfl).mono
    rintro ⟨rc, listener⟩ w' ⟨hok, herr⟩
    by_cases hrc : rc = 0
    · obtain ⟨hpos, hown'⟩ := hok hrc
      simp only [hrc, ne_eq, not_true_eq_false, if_false]
      apply (serverUdpLoop_safe hown').mono
      rintro rc w'' ⟨c, b, hown''⟩
      apply iff_of_false (hown''.not_released hpos)
      rw [hown''.flags]
      simp
    · obtain ⟨reuse, hown'⟩ := herr hrc
      simp only [hrc, ne_eq, not_false_eq_true, if_true]
      apply Safe.ret processEnv_still
      rw [hown'.released_iff, hown'.flags]
      simp [Flags.initial]

/-! ## The servers -/

/-- The servers with an operation beside receiving that can fail, and the UDP server. -/
inductive SideServer where
  | children | memoryOverhead | serverUdp

def SideServer.prog (os : Platform) (osGetPageSize : BitVec 32) (osPageSize : ULong)
    (g : Globals) : SideServer → SysProg ℤ
  | .children => threadFuncChildren os g
  | .memoryOverhead => threadFuncMemoryOverhead os osGetPageSize osPageSize g
  | .serverUdp => threadFuncServerUdp os g

/-- `SO_REUSEADDR` did not fail, nor did a side operation after the listener was started; the
UDP server never got its socket bound. -/
def SideServer.Clean (f : Flags) : SideServer → Prop
  | .serverUdp => f.reuseFailed = false ∧ f.bound = false
  | _ => f.reuseFailed = false ∧ f.sideFailed = false

/-- Whenever the thread function returns in the original process, it has released everything
exactly once if and only if none of the named operations failed. -/
theorem sideServer_released_iff (server : SideServer) (os : Platform) (osGetPageSize : BitVec 32)
    (osPageSize : ULong) (g : Globals) :
    Safe processEnv acceptGuard
      (fun _ w => w.flags.original = true → (Released w ↔ server.Clean w.flags))
      (server.prog os osGetPageSize osPageSize g) .initial := by
  cases server with
  | children => exact threadFuncChildren_safe os g
  | memoryOverhead => exact threadFuncMemoryOverhead_safe os osGetPageSize osPageSize g
  | serverUdp => exact (threadFuncServerUdp_safe os g).mono (fun _ _ h _ => h)

/-! ## A cloning server whose clone call fails -/

instance (w : World) (r : Resource) : Decidable (w.ledger.Fresh r) :=
  match h : w.ledger.status r with
  | .held k => isFalse (fun hf => hf k h)
  | .unused => isTrue (fun k hk => by simp [h] at hk)
  | .released j => isTrue (fun k hk => by simp [h] at hk)

instance : ∀ w c a, Decidable (processEnv.legal w c a)
  | w, .socket _ _, s => inferInstanceAs (Decidable (0 ≤ s → w.ledger.Fresh (.fd s)))
  | w, .accept _, s => inferInstanceAs (Decidable (0 ≤ s → w.ledger.Fresh (.fd s)))
  | w, .openFile _, fd =>
    inferInstanceAs (Decidable (fd = -1 ∨ (0 ≤ fd ∧ w.ledger.Fresh (.fd fd))))
  | _, .setReuseAddr _, rc => inferInstanceAs (Decidable (rc ≤ 0))
  | w, .bind s _, rc =>
    inferInstanceAs (Decidable (rc ≤ 0 ∧ (w.ledger.Fresh (.fd s) → rc < 0)))
  | w, .listen s _, rc => inferInstanceAs (Decidable (w.ledger.Fresh (.fd s) → rc ≠ 0))
  | w, .malloc _ _, some block =>
    inferInstanceAs (Decidable (w.ledger.Fresh (.block block.addr)))
  | _, .malloc _ _, none => isTrue trivial
  | w, .osAllocPages n, r =>
    inferInstanceAs (Decidable (r.1 = 0 → w.ledger.Fresh (.pages r.2 n)))
  | _, .gettimeofday, _ | _, .fork, _ | _, .osExit _, _ | _, .osSleepMsec _, _
  | _, .osClone _ _, _ | _, .osGetSelfId, _ | _, .getpeername _, _ | _, .recv _ _, _
  | _, .recvfrom _ _, _ | _, .send _ _, _ | _, .sendto _ _ _ _, _ | _, .close _, _
  | _, .osSocketSetTimeout _ _, _ | _, .osNetIpGetGw, _ | _, .free _, _
  | _, .osFreePages _ _, _ | _, .memTouchPages _ _, _ | _, .write _ _, _ | _, .assertFail, _
  | _, .indeterminate, _ => isTrue trivial

/-- A client connects and sends one byte, and `os_clone` fails. -/
def cloneFails : ℕ → (c : Call) → Option c.Answer
  | _, .indeterminate => some (-1)
  | _, .socket _ _ => some 3
  | _, .setReuseAddr _ => some 0
  | _, .bind _ _ => some 0
  | _, .listen _ _ => some 0
  | _, .accept _ => some 4
  | _, .getpeername _ => some 0
  | _, .malloc _ _ => some (some ⟨4096, []⟩)
  | _, .recv _ _ => some (some [120])
  | _, .osClone _ g => some (-1, g)
  | _, _ => none

/-- A failed clone leaves connection, buffer and listening socket behind. -/
theorem threadFuncChildren_leaks :
    ∃ w, Reaches processEnv (threadFuncChildren .posix .initial, World.initial) (.ret (-1), w) ∧
      w.flags.original = true ∧ ¬ Released w := by
  have hrun : ((threadFuncChildren .posix .initial).exec processEnv cloneFails 40 0 .initial).map
      (fun r => (r.1, r.2.flags.original, r.2.ledger.status (.fd 4))) =
        some (-1, true, .held .connection) := by decide
  obtain ⟨⟨rc, w⟩, hexec, hw⟩ := Option.map_eq_some_iff.mp hrun
  obtain ⟨rfl, horiginal, hheld⟩ : rc = -1 ∧ w.flags.original = true ∧
      w.ledger.status (.fd 4) = .held .connection := by simpa using hw
  refine ⟨w, Prog.exec_reaches hexec, horiginal, fun hr => ?_⟩
  have hmem : Resource.fd 4 ∈ w.ledger.held .connection := hheld
  rw [hr.connection.1] at hmem
  exact hmem

end CloningApps.Server
