import CloningApps.Server.Helpers
import CloningApps.Server.PrologueResources

/-! # The accept loops keep their resources balanced

The loops start every round owning nothing but the listening socket, whatever
the calls of the rounds before were answered with.
-/

namespace CloningApps.Server
open Text Interaction Os Cmdline Net

variable {w : World} {f : Flags} {l c b p : Set Resource}

theorem uninitialisedSocket_safe : SafeProcess (fun _ w' => w' = w) uninitialisedSocket w :=
  Safe.call processEnv_still trivial (fun _ _ =>
    Safe.call processEnv_still trivial (fun _ _ => Safe.ret processEnv_still rfl))

theorem uninitialisedServer_safe : SafeProcess (fun _ w' => w' = w) uninitialisedServer w :=
  Safe.bind (uninitialisedSocket_safe.mono (fun _ _ h => Safe.ret processEnv_still h))

/-- What holds at the head of an accept loop, for some flags of the process. -/
def Ready (F : Flags → Prop) (l p : Set Resource) (w : World) : Prop :=
  ∃ f, F f ∧ Owns w f l ∅ ∅ p

/-- What a round leaves behind: the same as at its start, unless it ends in `goto out`. -/
def RoundPost {σ : Type} (F : Flags → Prop) (O : World → Prop) (l p : Set Resource) :
    σ ⊕ LoopExit → World → Prop
  | .inr (.out _), w => O w
  | _, w => Ready F l p w

/-- Where `serveTcp` leaves a process that came with the flags `f`: not started, stopped, or past
`tcp_server_stop` in the state `O` of the loop's exit. -/
def Served (f : Flags) (F : Flags → Prop) (O : World → Prop) (p : Set Resource) :
    LoopExit → World → Prop
  | .stop _, w => (∃ bound reuse, Owns w { f with bound := bound, reuseFailed := reuse } ∅ ∅ ∅ p) ∨
      Ready F ∅ p w
  | .out _, w => O w

/-- Serving is balanced when every round is. -/
theorem serveTcp_safe {σ : Type} {os : Platform} {round : OsServer → σ → SysProg (σ ⊕ LoopExit)}
    {s : σ} {F : Flags → Prop} {O : World → Prop} (h : Owns w f ∅ ∅ ∅ p)
    (hf : f.reuseFailed = false) (hF : F { f with bound := true, listening := true })
    (hround : ∀ srv s w, 0 ≤ srv.listenerSocket.s → Ready F (fdOf srv.listenerSocket.s) p w →
      SafeProcess (RoundPost F O (fdOf srv.listenerSocket.s) p) (round srv s) w) :
    SafeProcess (Served f F O p) (serveTcp os round s) w := by
  have hport : DEFAULT_SERVER_PORT ≠ 0 := by decide
  apply Safe.bind
  apply uninitialisedServer_safe.mono
  rintro srv w rfl
  apply Safe.bind
  apply (tcpServerStart_safe hport h hf).mono
  rintro ⟨rc, srv⟩ w' ⟨hok, herr⟩
  by_cases hrc : rc = 0
  · obtain ⟨hpos, hown⟩ := hok hrc
    simp only [hrc, ne_eq, not_true_eq_false, if_false]
    refine Safe.loop (fun _ => Ready F (fdOf srv.listenerSocket.s) p)
      (fun _ => processEnv_still.stable _) (fun s w hw => (hround srv s w hpos hw).mono ?_)
      ⟨_, hF, hown⟩
    intro r w'' hw
    cases r with
    | inl s => exact hw
    | inr exit =>
      cases exit with
      | out rc => exact Safe.ret processEnv_still hw
      | stop rc =>
        obtain ⟨f', hF', hown⟩ := hw
        simp only [Sum.elim_inr, Prog.ret_bind]
        apply Safe.bind
        apply (tcpServerStop_safe hown).mono
        intro _ w hw
        exact Safe.ret processEnv_still (.inr ⟨f', hF', hw⟩)
  · simp only [hrc, ne_eq, not_false_eq_true, if_true]
    exact Safe.ret processEnv_still (.inl (herr hrc))

/-! ## The rounds -/

variable {F : Flags → Prop} {O : World → Prop}

theorem cleanupRound_safe {σ : Type} {s : σ} {rc : ℤ} {m : NetMsg} (hF : F f)
    (h : Owns w f l (fdOf m.connection) (bufferOf m.netbuf) p) :
    SafeProcess (RoundPost F O l p) (cleanupRound s rc m) w := by
  apply Safe.bind
  apply (netMsgCleanup_safe h).mono
  intro _ w' h'
  split
  · exact Safe.ret processEnv_still ⟨f, hF, h'⟩
  · exact Safe.ret processEnv_still ⟨f, hF, h'⟩

theorem keepRunning_safe {keep : Bool} {rc : ℤ} {m : NetMsg} (hF : F f)
    (h : Owns w f l (fdOf m.connection) (bufferOf m.netbuf) p) :
    SafeProcess (RoundPost F O l p) (keepRunning keep rc m) w := by
  apply Safe.bind
  apply (netMsgCleanup_safe h).mono
  intro _ w' h'
  split
  · exact Safe.ret processEnv_still ⟨f, hF, h'⟩
  · exact Safe.ret processEnv_still ⟨f, hF, h'⟩

theorem acceptRound_safe {σ : Type} {srv : OsServer} {serve : NetMsg → SysProg (σ ⊕ LoopExit)}
    (h : Ready F l p w)
    (hserve : ∀ m f w, F f → Owns w f l (fdOf m.connection) (bufferOf m.netbuf) p →
      SafeProcess (RoundPost F O l p) (serve m) w) :
    SafeProcess (RoundPost F O l p) (acceptRound srv serve) w := by
  obtain ⟨f, hF, hown⟩ := h
  apply Safe.bind
  apply (tcpServerAccept_safe hown).mono
  rintro ⟨rc, m⟩ w' ⟨hok, herr⟩
  by_cases hrc : rc = 0
  · simp only [hrc, ne_eq, not_true_eq_false, if_false]
    exact hserve m f w' hF (hok hrc)
  · simp only [hrc, ne_eq, not_false_eq_true, if_true]
    exact Safe.ret processEnv_still ⟨f, hF, herr hrc⟩

/-- A round that gives up when no request was received, and serves one that was. -/
theorem recvRequest_safe {m : NetMsg} {k : ℤ × NetMsg → SysProg (Unit ⊕ LoopExit)} (hF : F f)
    (h : Owns w f l (fdOf m.connection) (bufferOf m.netbuf) p)
    (hk : ∀ r w', Owns w' f l (fdOf r.2.connection) (bufferOf r.2.netbuf) p →
      SafeProcess (RoundPost F O l p) (k r) w') :
    SafeProcess (RoundPost F O l p) ((tcpServerRecvMsg m).bind (fun r =>
      if r.1 < 0 then keepRunning false r.1 r.2 else k r)) w := by
  apply Safe.bind
  apply (tcpServerRecvMsg_safe h).mono
  intro r w' h'
  split
  · exact keepRunning_safe hF h'
  · exact hk r w' h'

theorem counterServe_safe {m : NetMsg} (hF : F f)
    (h : Owns w f l (fdOf m.connection) (bufferOf m.netbuf) p) :
    SafeProcess (RoundPost F O l p) (counterServe m) w := by
  apply Safe.bind
  apply (tcpServerRecvMsg_safe h).mono
  rintro ⟨rc, m⟩ w' h'
  dsimp only
  split
  · exact cleanupRound_safe hF h'
  · have hcount : bufferOf (countUp m).netbuf = bufferOf m.netbuf ∧
        (countUp m).connection = m.connection := by
      cases hm : m.netbuf <;> simp [countUp, hm, bufferOf]
    apply Safe.bind
    apply (tcpServerSendMsg_safe h').mono
    intro rc w'' h''
    apply cleanupRound_safe hF
    rwa [hcount.1, hcount.2]

theorem serverTcpServe_safe {m : NetMsg} (hF : F f)
    (h : Owns w f l (fdOf m.connection) (bufferOf m.netbuf) p) :
    SafeProcess (RoundPost F O l p) (serverTcpServe m) w := by
  refine Safe.loop (fun m w => Owns w f l (fdOf m.connection) (bufferOf m.netbuf) p)
    (fun _ => processEnv_still.stable _) (fun m w h => ?_) h
  apply Safe.bind
  apply (tcpServerRecvMsg_safe h).mono
  rintro ⟨rc, m⟩ w' h'
  dsimp only
  split
  · exact Safe.ret processEnv_still (cleanupRound_safe hF h')
  · exact Safe.ret processEnv_still h'

/-- A fork changes what is known about the process, not what it owns. -/
theorem Owns.fork {pid : ℤ} (h : Owns w f l c b p) :
    Owns (processEnv.effect w .fork pid) (f.spawn (pid ≠ 0) (pid < 0)) l c b p := by
  have heffect : processEnv.effect w .fork pid = ⟨w.ledger, f.spawn (pid ≠ 0) (pid < 0)⟩ := by
    rw [← h.flags]
    rfl
  rw [heffect]
  exact h.setFlags rfl

theorem measureForkServe_safe {m : NetMsg} (hF : F f)
    (hspawn : ∀ f parent failed, F f → F (f.spawn parent failed))
    (h : Owns w f l (fdOf m.connection) (bufferOf m.netbuf) p) :
    SafeProcess (RoundPost F O l p) (measureForkServe m) w := by
  apply recvRequest_safe hF h
  rintro ⟨rc, m⟩ w' h'
  dsimp only
  split
  · apply Safe.call processEnv_still trivial
    intro (pid : ℤ) _
    simp only [Prog.bind]
    split
    · exact Safe.call processEnv_still trivial (fun nothing _ => nothing.elim)
    · exact keepRunning_safe (hspawn f _ _ hF) h'.fork
  · exact keepRunning_safe hF h'

/-! ## Writing files -/

/-- What a file writer keeps: the tracked resources and its open file. -/
structure Writing (fd : Fd) (f : Flags) (l c b p : Set Resource) (w : World) : Prop where
  owns : Owns w f l c b p
  file : Resource.fd fd ∈ w.ledger.held .file

theorem writeCalls_safe {P : World → Prop} {prog : SysProg ℤ} (hprog : OnlyCalls WriteCall prog)
    (hw : P w) : SafeProcess (fun _ w' => P w') prog w := by
  refine Safe.frame P (processEnv_still.stable P) (fun w c hc _ => ?_) (fun w c a hc hP _ => ?_)
    hprog hw
  · cases c <;> trivial
  · cases c <;> first | exact hP | exact absurd hc id

theorem writeBuffer_safe {fd : Fd} {size : ULong} (h : Writing fd f l c b p w) :
    SafeProcess (fun _ w' => Writing fd f l c b p w') (writeBuffer fd size) w := by
  apply Safe.call processEnv_still trivial
  intro block hlegal
  cases block with
  | none => exact Safe.ret processEnv_still h
  | some buf =>
    have hown : Writing fd f l c b p (w.acquire (.block buf.addr) .writeBuffer) := by
      refine ⟨by simpa using h.owns.acquire hlegal .writeBuffer, ?_⟩
      rw [World.acquire, Ledger.held_acquire_of_ne hlegal (by decide)]
      exact h.file
    have hbuf : Resource.block buf.addr ∈
        (w.acquire (.block buf.addr) .writeBuffer).ledger.held .writeBuffer :=
      w.ledger.mem_held_acquire _ _
    have hfreed : Writing fd f l c b p
        ((w.acquire (.block buf.addr) .writeBuffer).release (.block buf.addr)) := by
      refine ⟨by simpa using hown.owns.release hbuf, ?_⟩
      rw [World.release, Ledger.held_release_of_ne hbuf (by decide)]
      exact hown.file
    refine Safe.loop (fun _ w' => w' = w.acquire (.block buf.addr) .writeBuffer)
      (fun _ => processEnv_still.stable _) ?_ rfl
    rintro offset w' rfl
    split
    · apply Safe.call processEnv_still trivial
      intro (rc : ℤ) _
      simp only [Prog.pure_eq, Prog.bind]
      split
      · exact Safe.ret processEnv_still (Safe.ret processEnv_still hown)
      · exact Safe.ret processEnv_still rfl
    · exact Safe.call processEnv_still trivial (fun _ _ =>
        Safe.ret processEnv_still (Safe.ret processEnv_still hfreed))

theorem createFileWriteData_safe {filename : CStr} {size : ULong} {wt : WriteType}
    (h : Owns w f l c b p) :
    SafeProcess (fun _ w' => Owns w' f l c b p) (createFileWriteData filename size wt) w := by
  refine Safe.call processEnv_still trivial
    (fun (fd : ℤ) (hlegal : fd = -1 ∨ (0 ≤ fd ∧ _)) => ?_)
  by_cases hfd : fd = -1
  · have hneg : ¬ 0 ≤ fd := by omega
    have heffect : processEnv.effect w (.openFile filename) fd = w := if_neg hneg
    simp only [Prog.bind, hfd, if_true]
    rw [hfd] at heffect
    rw [heffect]
    exact Safe.ret processEnv_still h
  · obtain ⟨hpos, hfresh⟩ := hlegal.resolve_left hfd
    have heffect : processEnv.effect w (.openFile filename) fd = w.acquire (.fd fd) .file :=
      if_pos hpos
    have hwriting : Writing fd f l c b p (w.acquire (.fd fd) .file) :=
      ⟨by simpa using h.acquire hfresh .file, w.ledger.mem_held_acquire _ _⟩
    have hclose : ∀ (rc : ℤ) w', Writing fd f l c b p w' →
        SafeProcess (fun _ w' => Owns w' f l c b p) ((sys (.close fd)).bind (fun _ => .ret rc))
          w' := by
      intro rc w' hw
      refine Safe.call processEnv_still trivial (fun _ _ => Safe.ret processEnv_still ?_)
      have hrelease : Owns (w'.release (.fd fd)) f l c b p := by
        simpa using hw.owns.release hw.file
      exact hrelease
    simp only [Prog.bind, hfd, if_false, heffect]
    cases wt with
    | chars => exact Safe.bind ((writeCalls_safe (writeChars_calls fd size) hwriting).mono hclose)
    | words => exact Safe.bind ((writeCalls_safe (writeWords_calls fd size) hwriting).mono hclose)
    | buffer => exact Safe.bind ((writeBuffer_safe hwriting).mono hclose)

theorem runServerServe_safe {m : NetMsg} (hF : F f)
    (h : Owns w f l (fdOf m.connection) (bufferOf m.netbuf) p) :
    SafeProcess (RoundPost F O l p) (runServerServe m) w := by
  apply recvRequest_safe hF h
  rintro ⟨rc, m⟩ w' h'
  dsimp only
  split
  · exact keepRunning_safe hF h'
  · cases strToWriteType m with
    | none => exact keepRunning_safe hF h'
    | some wt =>
      apply Safe.bind
      apply (createFileWriteData_safe h').mono
      intro rc w'' h''
      exact keepRunning_safe hF h''

/-! ## The servers -/

/-- The servers that leave their accept loop only towards `tcp_server_stop`. -/
inductive AcceptServer where
  | counter | serverTcp | measureFork | runServer

def AcceptServer.prog (os : Platform) (osGetPageSize : BitVec 32) (osPageSize : ULong)
    (g : Globals) : AcceptServer → SysProg ℤ
  | .counter => threadFuncCounter os g
  | .serverTcp => threadFuncServerTcp os g
  | .measureFork => threadFuncMeasureFork os osGetPageSize osPageSize g
  | .runServer => Server.runServer os

/-- Every accepted connection, receive buffer and block of pages was released exactly once, and
so was the listening socket if it ever listened. -/
structure Balanced (w : World) : Prop where
  connection : w.ledger.Settled .connection
  netbuf : w.ledger.Settled .netbuf
  pages : w.ledger.Settled .pages
  listener : w.flags.listening = true → w.ledger.Settled .listener

theorem Owns.balanced (h : Owns w f ∅ ∅ ∅ ∅) (hf : f.listening = true → f.reuseFailed = false) :
    Balanced w := by
  refine ⟨⟨h.connection, h.once.1⟩, ⟨h.netbuf, h.once.2.1⟩, ⟨h.pages, h.once.2.2⟩, fun hl => ?_⟩
  rw [h.flags] at hl
  exact ⟨h.listener, fun hmem => by simpa [hf hl] using h.reuse.mp hmem⟩

/-- A server without `goto out` owns no socket when it is done. -/
theorem serveTcp_balanced {σ : Type} {os : Platform}
    {round : OsServer → σ → SysProg (σ ⊕ LoopExit)} {s : σ} (h : Owns w f ∅ ∅ ∅ p)
    (hf : f.reuseFailed = false) (hl : f.listening = false)
    (hround : ∀ srv s l w, Ready (fun f => f.reuseFailed = false) l p w →
      SafeProcess (RoundPost (fun f => f.reuseFailed = false) (fun _ => False) l p)
        (round srv s) w) :
    SafeProcess (fun _ w' => ∃ f', (f'.listening = true → f'.reuseFailed = false) ∧
      Owns w' f' ∅ ∅ ∅ p) (serveTcp os round s) w := by
  apply (serveTcp_safe h hf hf (fun srv s w _ => hround srv s _ w)).mono
  intro exit w' hw
  cases exit with
  | out rc => exact False.elim hw
  | stop rc =>
    rcases hw with ⟨bound, reuse, hown⟩ | ⟨f', hf', hown⟩
    · exact ⟨{ f with bound := bound, reuseFailed := reuse },
        fun h1 => absurd (hl.symm.trans h1) (by decide), hown⟩
    · exact ⟨f', fun _ => hf', hown⟩

/-- A server that only serves after its prologue. -/
theorem serve_safe {os : Platform} {g : Globals}
    {round : OsServer → Unit → SysProg (Unit ⊕ LoopExit)}
    (hround : ∀ srv s l p w, Ready (fun f => f.reuseFailed = false) l p w →
      SafeProcess (RoundPost (fun f => f.reuseFailed = false) (fun _ => False) l p)
        (round srv s) w) :
    SafeProcess (fun _ w => Balanced w) (do
      let (p, _) ← serverPrologue os g
      if p.rc ≠ 0 then
        return p.rc
      return (← serveTcp os round ()).rc) .initial := by
  apply Safe.bind
  apply (serverPrologue_safe Untouched.initial).mono
  rintro ⟨p, g⟩ w hw
  obtain ⟨original, hown⟩ := hw.owns
  dsimp only
  split
  · exact Safe.ret processEnv_still (hown.balanced (fun _ => rfl))
  · apply Safe.bind
    apply (serveTcp_balanced hown rfl rfl (fun srv s l => hround srv s l _)).mono
    rintro exit w' ⟨f', hf', hown'⟩
    exact Safe.ret processEnv_still (hown'.balanced hf')

/-- Pages that are given back are not held any more. -/
theorem osFreePages_safe {α : Type} {start : ℕ} {pagesNum : ULong} {post : α → World → Prop}
    {x : α} (h : Owns w f l c b {.pages start pagesNum})
    (hpost : ∀ w', Owns w' f l c b ∅ → post x w') :
    SafeProcess post ((sys (.osFreePages start pagesNum)).bind (fun _ => .ret x)) w := by
  have hmem : Resource.pages start pagesNum ∈ w.ledger.held .pages := by
    rw [h.pages]
    exact Set.mem_singleton _
  have hrelease : Owns (w.release (.pages start pagesNum)) f l c b ∅ := by
    simpa using h.release hmem
  exact Safe.call processEnv_still trivial
    (fun _ _ => Safe.ret processEnv_still (hpost _ hrelease))

/-- A server around which pages are held. -/
theorem withPages_safe {pagesNum : ULong} {serve : ℕ → SysProg ℤ} {post : ℤ → World → Prop}
    (h : Owns w f ∅ ∅ ∅ ∅) (hf : f.listening = false)
    (hnone : ∀ rc w, Owns w f ∅ ∅ ∅ ∅ → post rc w)
    (hserve : ∀ start w, Owns w f ∅ ∅ ∅ {.pages start pagesNum} →
      SafeProcess post (serve start) w) :
    SafeProcess post (withPages pagesNum serve) w := by
  apply Safe.call processEnv_still trivial
  intro (r : ℤ × ℕ) hlegal
  obtain ⟨rc, start⟩ := r
  by_cases hrc : rc = 0
  · have heffect : processEnv.effect w (.osAllocPages pagesNum) (rc, start) =
        w.acquire (.pages start pagesNum) .pages := if_pos hrc
    have halloc : Owns (w.acquire (.pages start pagesNum) .pages) f ∅ ∅ ∅
        {.pages start pagesNum} := by
      simpa using h.acquire (hlegal hrc) .pages
    simp only [Prog.bind, hrc, ne_eq, not_true_eq_false, if_false]
    rw [hrc] at heffect
    rw [heffect]
    apply Safe.call processEnv_still trivial
    intro (rc : ℤ) _
    have htouch : processEnv.effect (w.acquire (.pages start pagesNum) .pages)
        (.memTouchPages start pagesNum) rc = w.acquire (.pages start pagesNum) .pages := by
      have hside := Flags.side_of_not_listening (halloc.flags ▸ hf) (rc ≠ 0)
      simp only [processEnv, World.effect, hside]
    simp only [Prog.bind, htouch]
    split
    · exact osFreePages_safe halloc (hnone rc)
    · exact hserve start _ halloc
  · have heffect : processEnv.effect w (.osAllocPages pagesNum) (rc, start) = w := if_neg hrc
    simp only [Prog.bind, hrc, ne_eq, not_false_eq_true, if_true, heffect]
    exact Safe.ret processEnv_still (hnone rc w h)

theorem measureForkRound_safe {srv : OsServer} {O : World → Prop}
    (h : Ready (fun f => f.reuseFailed = false) l p w) :
    SafeProcess (RoundPost (fun f => f.reuseFailed = false) O l p) (measureForkRound srv ()) w :=
  acceptRound_safe h (fun _ _ _ hF hown => measureForkServe_safe hF (fun _ _ _ hf => hf) hown)

theorem threadFuncMeasureFork_safe (os : Platform) (osGetPageSize : BitVec 32) (osPageSize : ULong)
    (g : Globals) :
    SafeProcess (fun _ w => Balanced w) (threadFuncMeasureFork os osGetPageSize osPageSize g)
      .initial := by
  unfold threadFuncMeasureFork
  cases requestedPages osGetPageSize osPageSize g with
  | none =>
    obtain ⟨original, hown⟩ := Untouched.initial.owns
    exact Safe.ret processEnv_still (hown.balanced (fun _ => rfl))
  | some pagesNum =>
    apply Safe.bind
    apply (serverPrologue_safe Untouched.initial).mono
    rintro ⟨prologue, g⟩ w hw
    obtain ⟨original, hown⟩ := hw.owns
    dsimp only
    split
    · exact Safe.ret processEnv_still (hown.balanced (fun _ => rfl))
    · refine withPages_safe hown rfl (fun rc w h => h.balanced (fun _ => rfl))
        (fun start w h => ?_)
      refine Safe.bind ((serveTcp_balanced h rfl rfl
        (fun srv s l w h => measureForkRound_safe h)).mono ?_)
      rintro exit w' ⟨f', hf', hown'⟩
      exact osFreePages_safe hown' (fun w' h' => h'.balanced hf')

/-- In every run of these servers, every accept finds nothing of the rounds before still held or
released twice, and a server that returns has released everything exactly once. -/
theorem acceptServer_balanced (server : AcceptServer) (os : Platform) (osGetPageSize : BitVec 32)
    (osPageSize : ULong) (g : Globals) :
    Safe processEnv acceptGuard (fun _ w => Balanced w)
      (server.prog os osGetPageSize osPageSize g) .initial := by
  cases server with
  | counter =>
    exact serve_safe (fun srv s l p w h =>
      acceptRound_safe h (fun _ _ _ hF hown => counterServe_safe hF hown))
  | serverTcp =>
    exact serve_safe (fun srv s l p w h =>
      acceptRound_safe h (fun _ _ _ hF hown => serverTcpServe_safe hF hown))
  | measureFork => exact threadFuncMeasureFork_safe os osGetPageSize osPageSize g
  | runServer =>
    obtain ⟨original, hown⟩ := Untouched.initial.owns
    refine Safe.bind ((serveTcp_balanced hown rfl rfl (fun srv s l w h =>
      acceptRound_safe h (fun _ _ _ hF hown => runServerServe_safe hF hown))).mono ?_)
    rintro exit w' ⟨f', hf', hown'⟩
    exact Safe.ret processEnv_still (hown'.balanced hf')

end CloningApps.Server
