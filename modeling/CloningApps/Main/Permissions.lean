import CloningApps.Main.Live
import CloningApps.Server.PrologueResources

/-! # What the settings permit

Each call belongs to a setting or to an application, and a program that was not
started with them never makes it: without `--send-time` no datagram is sent, without
`--fork` and `--clone` only an application that makes children on request forks or
clones, only the file server opens files, and who serves no clients neither binds nor
closes a descriptor. This is so in every process; a clone goes on with the settings of
its parent or with fewer. A command line that is refused leads to nothing but an exit.
-/

namespace CloningApps.Main
open Text Interaction Os Cmdline Server Fuzz Net

/-- The applications that accept connections. -/
def ServesTcp (g : Globals) : Prop :=
  g.app = .counter ∨ g.app = .serverTcp ∨ g.app = .children ∨ g.app = .files ∨
    g.app = .measureFork ∨ g.app = .memoryOverhead

/-- The applications that serve clients. -/
def Listens (g : Globals) : Prop := ServesTcp g ∨ g.app = .serverUdp

/-- The applications that begin with `server_prologue`. -/
def HasPrologue (g : Globals) : Prop :=
  g.app = .counter ∨ g.app = .serverTcp ∨ g.app = .children ∨ g.app = .files ∨
    g.app = .measureFork ∨ g.app = .serverUdp

/-- The calls that are made for a report. -/
def Reports (g : Globals) : Prop := HasPrologue g ∧ g.doSendTime = true

/-- What a program with these settings may do. -/
def Permitted (pageSize : BitVec 32) (g : Globals) : Call → Prop
  | .gettimeofday => HasPrologue g ∧ (g.doSendTime ∨ g.doFork ∨ g.doClone)
  | .fork => HasPrologue g ∧ g.doFork ∨ g.app = .measureFork ∨ g.app = .memoryOverhead ∧ g.doFork
  | .osClone .. => HasPrologue g ∧ ¬ g.doFork ∧ g.doClone ∨ g.app = .children
  | .osGetSelfId => HasPrologue g ∧ ¬ g.doFork ∧ g.doClone
  | .osExit _ => g.app = .measureFork ∨ g.app = .memoryOverhead ∧ g.doFork
  | .osSleepMsec _ => g.app = .sleeper ∨ g.app = .children ∨ g.app = .files ∧ g.doFork
  | .socket .report _ | .sendto .. | .osSocketSetTimeout .. | .osNetIpGetGw => Reports g
  | .setReuseAddr _ => Reports g ∨ Listens g
  | .bind _ port => Reports g ∨ Listens g ∧ port = DEFAULT_SERVER_PORT
  | .socket .listener _ | .malloc .netbuf _ | .free _ | .close _ | .indeterminate => Listens g
  | .accept _ | .listen .. | .getpeername _ => ServesTcp g
  | .recv .. => Reports g ∨ ServesTcp g
  | .recvfrom .. => g.app = .serverUdp
  | .send .. => g.app = .counter
  | .malloc .writeBuffer _ | .write .. | .assertFail => g.app = .files
  | .openFile filename => g.app = .files ∧ filename = ascii "/root/data"
  | .osAllocPages n | .osFreePages _ n | .memTouchPages _ n =>
    (g.app = .measureFork ∨ g.app = .memoryOverhead) ∧ requestedPages pageSize 0 g = some n

theorem HasPrologue.listens {g : Globals} (h : HasPrologue g) : Listens g := by
  rcases h with h | h | h | h | h | h
  · exact .inl (.inl h)
  · exact .inl (.inr (.inl h))
  · exact .inl (.inr (.inr (.inl h)))
  · exact .inl (.inr (.inr (.inr (.inl h))))
  · exact .inl (.inr (.inr (.inr (.inr (.inl h)))))
  · exact .inr h

variable {pageSize : BitVec 32} {g g' : Globals} {c : Call} {os : Platform}

/-! ## Clones -/

/-- The settings of a process, or those it has as a clone. -/
def Descends (g g' : Globals) : Prop := g' = g ∨ g' = inClone g

theorem Descends.refl (g : Globals) : Descends g g := .inl rfl

theorem Descends.clone (h : Descends g g') {n : UInt} {r : ℤ × Globals}
    (hr : KeepsSettings (.osClone n g') r) : Descends g r.2 := by
  rcases h with rfl | rfl
  · exact hr
  · exact .inr (hr.elim id id)

/-- A clone may do no more than its parent. -/
theorem Permitted.of_inClone (h : Permitted pageSize (inClone g) c) : Permitted pageSize g c := by
  cases c with
  | gettimeofday => exact ⟨h.1, h.2.imp id (fun h => by simp [inClone] at h)⟩
  | fork =>
    rcases h with ⟨-, h⟩ | h | ⟨-, h⟩
    · exact absurd h (by simp [inClone])
    · exact .inr (.inl h)
    · exact absurd h (by simp [inClone])
  | osClone =>
    rcases h with ⟨-, -, h⟩ | h
    · exact absurd h (by simp [inClone])
    · exact .inr h
  | osGetSelfId => exact absurd h.2.2 (by simp [inClone])
  | osExit => exact h.imp id (fun h => absurd h.2 (by simp [inClone]))
  | osSleepMsec => exact h.imp id (Or.imp id (fun h => absurd h.2 (by simp [inClone])))
  | socket use => cases use <;> exact h
  | malloc use => cases use <;> exact h
  | _ => exact h

theorem Descends.permitted (h : Descends g g') (hc : Permitted pageSize g' c) :
    Permitted pageSize g c := by
  rcases h with rfl | rfl
  · exact hc
  · exact hc.of_inClone

/-! ## Helpers -/

abbrev Obeys {α : Type} (pageSize : BitVec 32) (g : Globals) (p : SysProg α) : Prop :=
  OnlyCalls (Permitted pageSize g) p

/-- What is permitted to a server that has its socket. -/
def RoundCall (pageSize : BitVec 32) (g : Globals) : Call → Prop
  | .indeterminate | .setReuseAddr _ => False
  | c => Permitted pageSize g c

abbrev InRound {α : Type} (pageSize : BitVec 32) (g : Globals) (p : SysProg α) : Prop :=
  OnlyCalls (RoundCall pageSize g) p

theorem RoundCall.permitted (h : RoundCall pageSize g c) : Permitted pageSize g c := by
  cases c with
  | indeterminate | setReuseAddr => exact absurd h id
  | _ => exact h

theorem InRound.obeys {α : Type} {p : SysProg α} (h : InRound pageSize g p) :
    Obeys pageSize g p :=
  h.mono (fun _ => RoundCall.permitted)

theorem CleanupCall.inRound (h : Listens g) (hc : CleanupCall c) : RoundCall pageSize g c := by
  cases c with
  | free | close => exact h
  | _ => exact absurd hc id

theorem netMsgCleanup_inRound (h : Listens g) (m : NetMsg) :
    InRound pageSize g (netMsgCleanup m) :=
  (netMsgCleanup_calls m).mono (fun _ => CleanupCall.inRound h)

theorem ReportCall.permitted (h : Reports g) (hc : ReportCall c) : Permitted pageSize g c := by
  cases c with
  | gettimeofday => exact ⟨h.1, .inl h.2⟩
  | socket use type =>
    cases use with
    | report => exact h
    | listener => exact absurd hc id
  | setReuseAddr | recv | bind => exact .inl h
  | sendto | osSocketSetTimeout | osNetIpGetGw => exact h
  | close => exact h.1.listens
  | _ => exact absurd hc id

theorem listener_obeys (h : Listens g) (sock : Mysocket) (type : SocketType) :
    Obeys pageSize g (mysocketInit os .listener sock type DEFAULT_SERVER_PORT) := by
  apply (mysocketInit_openCalls os .listener sock type DEFAULT_SERVER_PORT).mono
  intro c hc
  cases c with
  | socket use type =>
    obtain rfl : use = .listener := hc
    exact h
  | setReuseAddr => exact .inr h
  | bind => exact .inr ⟨h, hc⟩
  | close => exact h
  | _ => exact absurd hc id

theorem tcpServerStart_obeys (h : ServesTcp g) (srv : OsServer) :
    Obeys pageSize g (tcpServerStart os srv DEFAULT_SERVER_PORT) := by
  have hlistens : Listens g := .inl h
  apply (listener_obeys hlistens srv.listenerSocket .stream).bind
  intro r
  dsimp only
  split
  · exact .ret _
  · refine .call h (fun rc => ?_)
    simp only [Prog.bind]
    split
    · exact .call hlistens (fun _ => .ret _)
    · exact .ret _

theorem uninitialisedSocket_obeys (h : Listens g) : Obeys pageSize g uninitialisedSocket :=
  .call h (fun _ => .call h (fun _ => .ret _))

theorem uninitialisedServer_obeys (h : Listens g) : Obeys pageSize g uninitialisedServer :=
  .call h (fun _ => .call h (fun _ => .ret _))

theorem netMsgBuffer_inRound (h : Listens g) (m : NetMsg) :
    InRound pageSize g (netMsgBuffer m) := by
  cases hm : m.netbuf with
  | some block =>
    simp only [netMsgBuffer, hm]
    exact .ret _
  | none =>
    simp only [netMsgBuffer, hm, netMsgInitBuffer]
    refine .call h (fun block => ?_)
    cases block <;> exact .ret _

theorem tcpServerRecvMsg_inRound (h : ServesTcp g) (m : NetMsg) :
    InRound pageSize g (tcpServerRecvMsg m) := by
  apply (netMsgBuffer_inRound (.inl h) m).bind
  rintro ⟨rc, m⟩
  cases hm : m.netbuf with
  | none =>
    simp only [hm]
    exact .ret _
  | some block =>
    simp only [hm]
    refine .call (.inr h) (fun data => ?_)
    cases data <;> exact .ret _

theorem tcpServerAccept_inRound (h : ServesTcp g) (srv : OsServer) :
    InRound pageSize g (tcpServerAccept srv) := by
  have hcleanup : ∀ m, InRound pageSize g (netMsgCleanup m) := netMsgCleanup_inRound (.inl h)
  refine .call h ?_
  intro (s : ℤ)
  simp only [Prog.bind]
  split
  · exact (hcleanup _).bind (fun _ => .ret _)
  · refine .call h ?_
    intro (rc : ℤ)
    simp only [Prog.bind]
    split
    · exact (hcleanup _).bind (fun _ => .ret _)
    · exact .ret _

theorem acceptRound_inRound {σ : Type} {serve : NetMsg → SysProg (σ ⊕ LoopExit)} (h : ServesTcp g)
    (hserve : ∀ m, InRound pageSize g (serve m)) (srv : OsServer) :
    InRound pageSize g (acceptRound srv serve) := by
  apply (tcpServerAccept_inRound h srv).bind
  intro r
  dsimp only
  split
  · exact .ret _
  · exact hserve r.2

theorem serveTcp_obeys {σ : Type} {round : OsServer → σ → SysProg (σ ⊕ LoopExit)}
    (h : ServesTcp g) (hround : ∀ srv s, InRound pageSize g (round srv s)) (s : σ) :
    Obeys pageSize g (serveTcp os round s) := by
  apply (uninitialisedServer_obeys (.inl h)).bind
  intro srv
  apply (tcpServerStart_obeys h srv).bind
  intro r
  dsimp only
  split
  · exact .ret _
  · refine OnlyCalls.bind (.loop (fun s => (hround r.2 s).obeys) (fun _ => .ret _)) (fun exit => ?_)
    cases exit with
    | out rc => exact .ret _
    | stop rc =>
      have hstop : InRound pageSize g (tcpServerStop r.2) :=
        (tcpServerStop_calls r.2).mono (fun _ => CleanupCall.inRound (.inl h))
      exact hstop.obeys.bind (fun _ => .ret _)

theorem cleanupRound_inRound {σ : Type} (h : ServesTcp g) (s : σ) (rc : ℤ) (m : NetMsg) :
    InRound pageSize g (cleanupRound s rc m) := by
  apply (netMsgCleanup_inRound (.inl h) m).bind
  intro _
  split <;> exact .ret _

theorem keepRunning_inRound (h : ServesTcp g) (keep : Bool) (rc : ℤ) (m : NetMsg) :
    InRound pageSize g (keepRunning keep rc m) := by
  apply (netMsgCleanup_inRound (.inl h) m).bind
  intro _
  split <;> exact .ret _

/-! ## Rounds -/

theorem counterServe_inRound (hg : g.app = .counter) (m : NetMsg) :
    InRound pageSize g (counterServe m) := by
  have h : ServesTcp g := .inl hg
  apply (tcpServerRecvMsg_inRound h m).bind
  rintro ⟨rc, m⟩
  dsimp only
  split
  · exact cleanupRound_inRound h ..
  · refine OnlyCalls.bind ?_ (fun rc => cleanupRound_inRound h ..)
    unfold tcpServerSendMsg
    cases (countUp m).netbuf with
    | none => exact .ret _
    | some block => exact .call hg (fun _ => .ret _)

theorem serverTcpServe_inRound (h : ServesTcp g) (m : NetMsg) :
    InRound pageSize g (serverTcpServe m) := by
  refine .loop (fun m => ?_) (fun r => cleanupRound_inRound h ..)
  apply (tcpServerRecvMsg_inRound h m).bind
  intro r
  dsimp only
  split <;> exact .ret _

theorem measureForkServe_inRound (hg : g.app = .measureFork) (m : NetMsg) :
    InRound pageSize g (measureForkServe m) := by
  have h : ServesTcp g := .inr (.inr (.inr (.inr (.inl hg))))
  apply (tcpServerRecvMsg_inRound h m).bind
  rintro ⟨rc, m⟩
  dsimp only
  split
  · exact keepRunning_inRound h ..
  · split
    · refine .call (.inr (.inl hg)) ?_
      intro (pid : ℤ)
      simp only [Prog.bind]
      split
      · exact .call (.inl hg) (fun nothing => nothing.elim)
      · exact keepRunning_inRound h ..
    · exact keepRunning_inRound h ..

theorem memoryOverheadServe_inRound (hg : g.app = .memoryOverhead) {start : ℕ} {n : ULong}
    (hn : requestedPages pageSize 0 g = some n) (m : NetMsg) :
    InRound pageSize g (memoryOverheadServe g start n m) := by
  have h : ServesTcp g := .inr (.inr (.inr (.inr (.inr hg))))
  have htouch : Permitted pageSize g (.memTouchPages start n) := ⟨.inr hg, hn⟩
  have hoverhead : ∀ rc, InRound pageSize g (overhead g start n rc) := by
    intro rc
    unfold overhead
    split
    next hfork =>
      refine .call (.inr (.inr ⟨hg, hfork⟩)) ?_
      intro (pid : ℤ)
      simp only [Prog.bind]
      split
      · exact .ret _
      · split
        · refine .call htouch ?_
          intro (rc : ℤ)
          simp only [Prog.bind]
          split
          · exact .ret _
          · exact .call (.inr ⟨hg, hfork⟩) (fun nothing => nothing.elim)
        · exact .ret _
    · exact .call htouch (fun _ => .ret _)
  apply (tcpServerRecvMsg_inRound h m).bind
  rintro ⟨rc, m⟩
  dsimp only
  split
  · exact keepRunning_inRound h ..
  · split
    · apply (hoverhead rc).bind
      rintro ⟨out, rc⟩
      dsimp only
      split
      · exact .ret _
      · exact keepRunning_inRound h ..
    · exact keepRunning_inRound h ..

theorem WriteCall.inRound (hg : g.app = .files) (hc : WriteCall c) : RoundCall pageSize g c := by
  cases c with
  | write | assertFail => exact hg
  | _ => exact absurd hc id

theorem write_inRound (hg : g.app = .files) (wt : WriteType) (fd : Fd) (size : ULong) :
    InRound pageSize g (wt.write fd size) := by
  have hlistens : Listens g := .inl (.inr (.inr (.inr (.inl hg))))
  cases wt with
  | chars => exact (writeChars_calls fd size).mono (fun _ => WriteCall.inRound hg)
  | words => exact (writeWords_calls fd size).mono (fun _ => WriteCall.inRound hg)
  | buffer =>
    refine .call hg (fun block => ?_)
    cases block with
    | none => exact .ret _
    | some buf =>
      refine .loop (fun offset => ?_) (fun _ => .ret _)
      split
      · refine .call hg ?_
        intro (rc : ℤ)
        simp only [Prog.pure_eq, Prog.bind]
        split <;> exact .ret _
      · exact .call hlistens (fun _ => .ret _)

theorem createFileWriteData_inRound (hg : g.app = .files) (size : ULong) (wt : WriteType) :
    InRound pageSize g (createFileWriteData (ascii "/root/data") size wt) := by
  have hlistens : Listens g := .inl (.inr (.inr (.inr (.inl hg))))
  refine .call ⟨hg, rfl⟩ ?_
  intro (fd : ℤ)
  simp only [Prog.bind]
  split
  · exact .ret _
  · exact (write_inRound hg wt fd size).bind (fun _ => .call hlistens (fun _ => .ret _))

theorem runServerServe_inRound (hg : g.app = .files) (m : NetMsg) :
    InRound pageSize g (runServerServe m) := by
  have h : ServesTcp g := .inr (.inr (.inr (.inl hg)))
  apply (tcpServerRecvMsg_inRound h m).bind
  rintro ⟨rc, m⟩
  dsimp only
  split
  · exact keepRunning_inRound h ..
  · split
    · exact keepRunning_inRound h ..
    · cases strToWriteType m with
      | none => exact keepRunning_inRound h ..
      | some wt =>
        exact (createFileWriteData_inRound hg _ wt).bind (fun _ => keepRunning_inRound h ..)

theorem serverUdpRound_inRound (hg : g.app = .serverUdp) (listener : Mysocket) :
    InRound pageSize g (serverUdpRound listener ()) := by
  refine OnlyCalls.bind ?_ (fun r => ?_)
  · apply (netMsgBuffer_inRound (.inr hg) _).bind
    rintro ⟨rc, m⟩
    cases hm : m.netbuf with
    | none =>
      simp only [hm]
      exact .ret _
    | some block =>
      simp only [hm]
      refine .call hg (fun data => ?_)
      cases data <;> exact .ret _
  · dsimp only
    split
    · exact .ret _
    · exact (netMsgCleanup_inRound (.inr hg) _).bind (fun _ => .ret _)

/-! ## Servers -/

theorem serveRc_obeys {σ : Type} {round : OsServer → σ → SysProg (σ ⊕ LoopExit)}
    (h : ServesTcp g) (hround : ∀ srv s, InRound pageSize g (round srv s)) (s : σ) :
    Obeys pageSize g (do return (← serveTcp os round s).rc) :=
  (serveTcp_obeys h hround s).bind (fun _ => .ret _)

theorem counterServer_obeys (hg : g.app = .counter) :
    Obeys pageSize g (do return (← serveTcp os counterRound ()).rc) :=
  serveRc_obeys (.inl hg)
    (fun srv _ => acceptRound_inRound (.inl hg) (counterServe_inRound hg) srv) ()

theorem tcpServer_obeys (h : ServesTcp g) :
    Obeys pageSize g (do return (← serveTcp os serverTcpRound ()).rc) :=
  serveRc_obeys h (fun srv _ => acceptRound_inRound h (serverTcpServe_inRound h) srv) ()

theorem runServer_obeys (os : Platform) (hg : g.app = .files) :
    Obeys pageSize g (runServer os) := by
  have h : ServesTcp g := .inr (.inr (.inr (.inl hg)))
  exact serveRc_obeys h (fun srv _ => acceptRound_inRound h (runServerServe_inRound hg) srv) ()

/-- The settings that clones go on with make no difference. -/
theorem childrenRound_inRound (hg : g.app = .children) (srv : OsServer) (g' : Globals) :
    InRound pageSize g (childrenRound srv g') := by
  have h : ServesTcp g := .inr (.inr (.inl hg))
  unfold childrenRound
  split
  · exact .call (.inr (.inl hg)) (fun _ => .ret _)
  · refine acceptRound_inRound h (fun m => ?_) srv
    apply (tcpServerRecvMsg_inRound h m).bind
    rintro ⟨rc, m⟩
    dsimp only
    split
    · exact cleanupRound_inRound h ..
    · refine .call (.inr hg) ?_
      rintro ⟨(rc : ℤ), g'⟩
      simp only [Prog.bind]
      split
      · exact .ret _
      · exact cleanupRound_inRound h ..

/-- What server-udp does after its prologue. -/
def udpServer (os : Platform) : SysProg ℤ := do
  let (rc, listener) ← udpServerStart os (← uninitialisedSocket) DEFAULT_SERVER_PORT
  if rc ≠ 0 then
    return rc
  Prog.iterate (serverUdpRound listener) ()

theorem udpServer_obeys (os : Platform) (hg : g.app = .serverUdp) :
    Obeys pageSize g (udpServer os) := by
  refine (uninitialisedSocket_obeys (.inr hg)).bind (fun sock => ?_)
  apply (listener_obeys (.inr hg) sock .dgram).bind
  intro r
  dsimp only
  split
  · exact .ret _
  · exact .loop (fun _ => (serverUdpRound_inRound hg r.2).obeys) (fun _ => .ret _)

/-- Only what `os_clone` makes of the settings matters. -/
def keepingEnv : Env system Unit where
  legal := fun _ => KeepsSettings
  effect := fun _ _ _ => ()
  drift := fun _ _ => False

theorem keepingEnv_still : keepingEnv.Still := fun _ _ h => h

abbrev SafeObeys {α : Type} (pageSize : BitVec 32) (g : Globals) (post : α → Prop)
    (p : SysProg α) : Prop :=
  Safe keepingEnv (fun _ => Permitted pageSize g) (fun x _ => post x) p ()

variable {α : Type} {post : α → Prop}

theorem OnlyCalls.obeys {p : SysProg α} (h : Obeys pageSize g p) :
    SafeObeys pageSize g (fun _ => True) p :=
  Safe.frame (fun _ => True) (keepingEnv_still.stable _) (fun _ _ hc _ => hc)
    (fun _ _ _ _ _ _ => trivial) h trivial

theorem threadFuncSleeper_obeys (hg : g.app = .sleeper) : Obeys pageSize g threadFuncSleeper :=
  .loop (fun _ => .call (.inl hg) (fun _ => .ret _)) (fun _ => .ret _)

end CloningApps.Main
