import CloningApps.Interaction.Alike
import CloningApps.Main.Permissions

/-! # The applications side by side

Two runs of an application may differ in what its variables hold before anything is
stored in them, and in the platform. Both matter only to what opens its sockets: what
is done with an open socket is the same.
-/

namespace CloningApps.Main
open Text Interaction Os Cmdline Server Fuzz Net

/-- The calls that neither read a variable before it is set nor depend on the platform. -/
def Later : Call → Prop
  | .indeterminate | .setReuseAddr _ => False
  | _ => True

/-- What two runs may differ in. The variables that were never set hold the same in both, or
what they hold is hidden. -/
structure Comparable (hidden : Call → Bool) (ok : (c : Call) → c.Answer → Prop)
    (os os' : Platform) (same : Prop) : Prop where
  opening : ∀ c, hidden c = true → ¬ Later c
  settings : ∀ c a, ok c a → KeepsSettings c a
  reuse : ∀ s, Alike hidden ok Eq (reuseAddress os s) (reuseAddress os' s)
  stack : Alike hidden ok (fun x x' : ℤ => same → x = x') (sys .indeterminate) (sys .indeterminate)

section Comparing
variable {hidden : Call → Bool} {ok : (c : Call) → c.Answer → Prop} {os os' : Platform}
  {same : Prop} {α β : Type} {g : Globals} {c : Call}

namespace Comparable

theorem shown (hr : Comparable hidden ok os os' same) (hc : Later c) : hidden c = false := by
  cases hhidden : hidden c with
  | false => rfl
  | true => exact absurd hc (hr.opening c hhidden)

theorem call (hr : Comparable hidden ok os os' same) {R : α → β → Prop} (hc : Later c)
    {k : c.Answer → SysProg α} {k' : c.Answer → SysProg β}
    (hk : ∀ a, ok c a → Alike hidden ok R (k a) (k' a)) :
    Alike hidden ok R (@Prog.call system α c k) (@Prog.call system β c k') :=
  .call (hr.shown hc) hk

theorem refl (hr : Comparable hidden ok os os' same) {p : SysProg α} (hp : OnlyCalls Later p) :
    Alike hidden ok Eq p p :=
  (hp.mono (fun _ => hr.shown)).alike

end Comparable

/-! ## Helpers -/

theorem RoundCall.later {pageSize : BitVec 32} (h : RoundCall pageSize g c) : Later c := by
  cases c with
  | indeterminate | setReuseAddr => exact absurd h id
  | _ => trivial

theorem InRound.later {pageSize : BitVec 32} {p : SysProg α} (h : InRound pageSize g p) :
    OnlyCalls Later p :=
  h.mono (fun _ => RoundCall.later)

theorem CleanupCall.later (h : CleanupCall c) : Later c := by
  cases c with
  | indeterminate | setReuseAddr => exact absurd h id
  | _ => trivial

theorem mysocketFini_later (sock : Mysocket) : OnlyCalls Later (mysocketFini sock) := by
  apply (mysocketFini_closes sock).mono
  rintro _ rfl
  trivial

theorem sendTime_later (g : Globals) (sock : Mysocket) (tv : Option Timeval)
    (suffix : Option CStr) : OnlyCalls Later (sendTime g sock tv suffix) := by
  have hsend : ∀ tv, OnlyCalls Later (sendTimeval sock suffix tv) := by
    intro tv
    apply (sendTimeval_sendCalls sock suffix tv).mono
    intro c hc
    cases c with
    | indeterminate | setReuseAddr => exact absurd hc id
    | _ => trivial
  unfold sendTime
  split
  · exact .ret _
  · cases tv with
    | some tv => exact hsend tv
    | none =>
      refine .call trivial (fun r => ?_)
      simp only [Prog.bind]
      split
      · exact .ret _
      · exact hsend r.2

/-- The same code, and the same result if it says that there is one. -/
def SameIfZero (r r' : ℤ × α) : Prop := r.1 = r'.1 ∧ (r.1 = 0 → r.2 = r'.2)

theorem SameIfZero.refl (r : ℤ × α) : SameIfZero r r := ⟨rfl, fun _ => rfl⟩

section Sockets
variable (hr : Comparable hidden ok os os' same)
include hr

theorem mysocketInit_alike (use : SocketUse) (sock sock' : Mysocket) (type : SocketType)
    (port : Port) : Alike hidden ok SameIfZero (mysocketInit os use sock type port)
      (mysocketInit os' use sock' type port) := by
  refine hr.call (by trivial) ?_
  intro (s : ℤ) _
  simp only [Prog.bind]
  split
  · exact .ret ⟨rfl, fun h => absurd h (neg_ne_zero.mpr one_ne_zero)⟩
  · apply (hr.reuse s).bind
    rintro rc _ rfl
    split
    · exact .ret (.refl _)
    · refine hr.call (by trivial) ?_
      intro (rc : ℤ) _
      simp only [Prog.bind]
      split
      next hrc => exact hr.call (by trivial) (fun _ _ => .ret ⟨rfl, fun h => absurd h hrc.ne⟩)
      next => exact .ret (.refl _)

theorem tcpServerStart_alike (srv srv' : OsServer) (port : Port) :
    Alike hidden ok SameIfZero (tcpServerStart os srv port) (tcpServerStart os' srv' port) := by
  apply (mysocketInit_alike hr .listener _ _ .stream port).bind
  rintro ⟨rc, sock⟩ ⟨_, sock'⟩ ⟨rfl, hsock⟩
  dsimp only
  split
  next hrc => exact .ret ⟨rfl, fun h => absurd h hrc⟩
  next hrc =>
    obtain rfl : sock = sock' := hsock (not_not.mp hrc)
    refine hr.call (by trivial) ?_
    intro (rc : ℤ) _
    simp only [Prog.bind]
    split
    · exact hr.call (by trivial) (fun _ _ => .ret (.refl _))
    · exact .ret (.refl _)

theorem uninitialisedSocket_alike :
    Alike hidden ok (fun x x' => same → x = x') uninitialisedSocket uninitialisedSocket := by
  apply hr.stack.bind
  intro s s' hs
  apply hr.stack.bind
  intro port port' hport
  exact .ret (fun h => by rw [hs h, hport h])

theorem serveTcp_alike {σ : Type} {round : OsServer → σ → SysProg (σ ⊕ LoopExit)}
    (hround : ∀ srv s, OnlyCalls Later (round srv s)) (s : σ) :
    Alike hidden ok Eq (serveTcp os round s) (serveTcp os' round s) := by
  have hstack : Alike hidden ok (fun _ _ => True) uninitialisedServer uninitialisedServer :=
    (uninitialisedSocket_alike hr).bind (fun _ _ _ => .ret trivial)
  apply hstack.bind
  intro srv srv' _
  apply (tcpServerStart_alike hr srv srv' DEFAULT_SERVER_PORT).bind
  rintro ⟨rc, srv⟩ ⟨_, srv'⟩ ⟨rfl, hsrv⟩
  dsimp only
  split
  · exact .ret rfl
  next hrc =>
    obtain rfl : srv = srv' := hsrv (not_not.mp hrc)
    have hstop : OnlyCalls Later (tcpServerStop srv) :=
      (tcpServerStop_calls srv).mono (fun _ => CleanupCall.later)
    refine hr.refl (OnlyCalls.bind (.loop (hround srv) (fun _ => .ret _)) (fun exit => ?_))
    cases exit with
    | out rc => exact .ret _
    | stop rc => exact hstop.bind (fun _ => .ret _)

/-! ## The prologue -/

/-- A process that reports knows the socket it reports from. -/
theorem forkLoop_alike (g : Globals) (n : ℕ) (i : ℤ) {sock sock' : Mysocket}
    {myport myport' : Port} (h : g.doSendTime = true → sock = sock' ∧ myport = myport') :
    Alike hidden ok Eq (forkLoop os g n i sock myport) (forkLoop os' g n i sock' myport') := by
  induction n generalizing i myport myport' with
  | zero => exact .ret rfl
  | succ n ih =>
    refine hr.call (by trivial) (fun before _ => ?_)
    simp only [Prog.bind]
    split
    · exact .ret rfl
    · refine hr.call (by trivial) ?_
      intro (pid : ℤ) _
      simp only [Prog.bind]
      split
      · exact .ret rfl
      · refine hr.call (by trivial) (fun after _ => ?_)
        simp only [Prog.bind]
        split
        · exact .ret rfl
        · have hnext : Alike hidden ok Eq (forkLoop os g n (i + 1) sock (myport - 1))
              (forkLoop os' g n (i + 1) sock' (myport' - 1)) :=
            ih (i + 1) (fun hsend => ⟨(h hsend).1, by rw [(h hsend).2]⟩)
          by_cases hsend : g.doSendTime = true
          · obtain ⟨rfl, rfl⟩ := h hsend
            simp only [hsend, if_true]
            split
            · apply (hr.refl (mysocketFini_later sock)).bind
              rintro rc _ rfl
              split
              · exact .ret rfl
              · apply (mysocketInit_alike hr .report sock sock .dgram _).bind
                rintro ⟨rc, sock⟩ ⟨_, sock'⟩ ⟨rfl, hsock⟩
                dsimp only
                split
                · exact .ret rfl
                next hrc =>
                  obtain rfl : sock = sock' := hsock (not_not.mp hrc)
                  exact hr.refl ((sendTime_later ..).bind (fun _ => .ret _))
            · exact (hr.refl (sendTime_later ..)).bind (fun _ _ _ => hnext)
          · simp only [hsend, Bool.false_eq_true, if_false]
            split
            · exact .ret rfl
            · exact hnext

/-- A clone goes on with settings that report exactly if those of its parent do. -/
theorem clonePrologue_alike (g : Globals) {sock sock' : Mysocket} {myport myport' : Port}
    (h : g.doSendTime = true → sock = sock' ∧ myport = myport') :
    Alike hidden ok Eq (clonePrologue os g sock myport) (clonePrologue os' g sock' myport') := by
  refine hr.call (by trivial) (fun myparentid _ => hr.call (by trivial) (fun before _ => ?_))
  simp only [Prog.bind]
  split
  · exact .ret rfl
  · refine hr.call (by trivial) ?_
    rintro ⟨(rc : ℤ), g'⟩ hok
    have hkept := (hr.settings _ _ hok).doSendTime
    simp only [Prog.bind]
    split
    · exact .ret rfl
    · refine hr.call (by trivial) (fun after _ => ?_)
      simp only [Prog.bind]
      split
      · exact .ret rfl
      · split
        next hsend =>
          obtain ⟨rfl, rfl⟩ := h (hkept.symm.trans hsend)
          split
          · exact hr.refl ((sendTime_later ..).bind (fun _ => .ret _))
          · split
            · apply (hr.refl (mysocketFini_later sock)).bind
              rintro rc _ rfl
              split
              · exact .ret rfl
              · refine hr.call (by trivial) (fun myid _ => ?_)
                simp only [Prog.ret_bind]
                apply (mysocketInit_alike hr .report sock sock .dgram _).bind
                rintro ⟨rc, sock⟩ ⟨_, sock'⟩ ⟨rfl, hsock⟩
                dsimp only
                split
                · exact .ret rfl
                next hrc =>
                  obtain rfl : sock = sock' := hsock (not_not.mp hrc)
                  exact hr.refl ((sendTime_later ..).bind (fun _ => .ret _))
            · exact .ret rfl
        next => exact .ret rfl

omit hr in
/-- The prologue uses nothing that it has not set: it has a socket to close, or none to close,
and one child at least to fork. -/
def Settles (same : Prop) (g : Globals) : Prop :=
  same ∨ (g.doSendTime = true ∨ g.doFork = true ∨ g.doClone = true) ∧
    (g.doFork = true → 0 < g.childrenNum)

theorem forkPrologue_alike (hset : Settles same g) (hfork : g.doFork = true)
    {sock sock' : Mysocket} {myport myport' : Port}
    (h : g.doSendTime = true → sock = sock' ∧ myport = myport') :
    Alike hidden ok Eq (forkPrologue os g sock myport) (forkPrologue os' g sock' myport') := by
  unfold forkPrologue
  split
  next hnone =>
    apply hr.stack.bind
    intro rc rc' hrc
    have hsame : same := hset.resolve_right (fun h => absurd (h.2 hfork) (not_lt.mpr hnone))
    exact .ret (by rw [hrc hsame])
  next => exact forkLoop_alike hr g _ 0 h

theorem afterReport_alike (hset : Settles same g) {sock sock' : Mysocket} {myport myport' : Port}
    (h : same ∨ g.doSendTime = true → sock = sock' ∧ myport = myport') :
    Alike hidden ok Eq (afterReport os g sock myport) (afterReport os' g sock' myport') := by
  unfold afterReport
  split
  next hfork =>
    apply (forkPrologue_alike hr hset hfork (fun hsend => h (.inr hsend))).bind
    rintro r _ rfl
    exact .ret rfl
  next hfork =>
    split
    next => exact clonePrologue_alike hr g (fun hsend => h (.inr hsend))
    next hclone =>
      have hknown : same ∨ g.doSendTime = true := by
        rcases hset with hsame | ⟨hsend | hfork' | hclone', -⟩
        · exact .inl hsame
        · exact .inr hsend
        · exact absurd hfork' hfork
        · exact absurd hclone' hclone
      obtain ⟨rfl, rfl⟩ := h hknown
      exact hr.refl ((mysocketFini_later sock).bind (fun _ => .ret _))

theorem serverPrologue_alike (hset : Settles same g) :
    Alike hidden ok Eq (serverPrologue os g) (serverPrologue os' g) := by
  apply (uninitialisedSocket_alike hr).bind
  intro su su' hsu
  split
  next hsend =>
    apply (mysocketInit_alike hr .report su su' .dgram PORT_PARENT).bind
    rintro ⟨rc, su⟩ ⟨_, su'⟩ ⟨rfl, hsock⟩
    dsimp only
    split
    · exact .ret rfl
    next hrc =>
      obtain rfl : su = su' := hsock (not_not.mp hrc)
      apply (hr.refl (sendTime_later ..)).bind
      rintro rc _ rfl
      split
      · exact .ret rfl
      · exact afterReport_alike hr hset (fun _ => ⟨rfl, rfl⟩)
  next hsend =>
    apply hr.stack.bind
    intro myport myport' hport
    refine afterReport_alike hr hset (fun hknown => ?_)
    have hsame : same := hknown.resolve_right hsend
    exact ⟨hsu hsame, by rw [hport hsame]⟩

/-! ## The applications -/

theorem afterPrologue_alike (hset : Settles same g) {serve serve' : Prologue × Globals → SysProg ℤ}
    (hserve : ∀ r, Alike hidden ok Eq (serve r) (serve' r)) :
    Alike hidden ok Eq
      ((serverPrologue os g).bind (fun r => if r.1.rc ≠ 0 then return r.1.rc else serve r))
      ((serverPrologue os' g).bind (fun r => if r.1.rc ≠ 0 then return r.1.rc else serve' r)) := by
  apply (serverPrologue_alike hr hset).bind
  rintro r _ rfl
  split
  · exact .ret rfl
  · exact hserve r

theorem serveRc_alike {σ : Type} {round : OsServer → σ → SysProg (σ ⊕ LoopExit)}
    (hround : ∀ srv s, OnlyCalls Later (round srv s)) (s : σ) :
    Alike hidden ok Eq (do return (← serveTcp os round s).rc)
      (do return (← serveTcp os' round s).rc) := by
  apply (serveTcp_alike hr hround s).bind
  rintro exit _ rfl
  exact .ret rfl

variable {pageSize : BitVec 32}

theorem withPages_alike {n : ULong} {serve serve' : ℕ → SysProg ℤ}
    (hserve : ∀ start, Alike hidden ok Eq (serve start) (serve' start)) :
    Alike hidden ok Eq (withPages n serve) (withPages n serve') := by
  refine hr.call (by trivial) ?_
  rintro ⟨(rc : ℤ), start⟩ _
  simp only [Prog.bind]
  split
  · exact .ret rfl
  · refine hr.call (by trivial) ?_
    intro (rc : ℤ) _
    simp only [Prog.bind]
    split
    · exact hr.call (by trivial) (fun _ _ => .ret rfl)
    · exact hserve start

theorem threadFuncCounter_alike (hg : g.app = .counter) (hset : Settles same g) :
    Alike hidden ok Eq (threadFuncCounter os g) (threadFuncCounter os' g) := by
  have hround : ∀ srv, InRound 0 g (counterRound srv ()) :=
    acceptRound_inRound (.inl hg) (counterServe_inRound hg)
  exact afterPrologue_alike hr hset (fun _ => serveRc_alike hr (fun srv _ => (hround srv).later) ())

theorem threadFuncServerTcp_alike (hg : g.app = .serverTcp) (hset : Settles same g) :
    Alike hidden ok Eq (threadFuncServerTcp os g) (threadFuncServerTcp os' g) := by
  have hround : ∀ srv, InRound 0 g (serverTcpRound srv ()) :=
    acceptRound_inRound (.inr (.inl hg)) (serverTcpServe_inRound (.inr (.inl hg)))
  exact afterPrologue_alike hr hset (fun _ => serveRc_alike hr (fun srv _ => (hround srv).later) ())

theorem threadFuncChildren_alike (hg : g.app = .children) (hset : Settles same g) :
    Alike hidden ok Eq (threadFuncChildren os g) (threadFuncChildren os' g) := by
  have hround : ∀ srv g', InRound 0 g (childrenRound srv g') := childrenRound_inRound hg
  exact afterPrologue_alike hr hset
    (fun r => serveRc_alike hr (fun srv g' => (hround srv g').later) r.2)

theorem threadFuncServerUdp_alike (hg : g.app = .serverUdp) (hset : Settles same g) :
    Alike hidden ok Eq (threadFuncServerUdp os g) (threadFuncServerUdp os' g) := by
  have hround : ∀ listener, InRound 0 g (serverUdpRound listener ()) := serverUdpRound_inRound hg
  refine afterPrologue_alike hr hset (fun _ => ?_)
  apply (uninitialisedSocket_alike hr).bind
  intro sock sock' _
  apply (mysocketInit_alike hr .listener sock sock' .dgram DEFAULT_SERVER_PORT).bind
  rintro ⟨rc, listener⟩ ⟨_, listener'⟩ ⟨rfl, hsock⟩
  dsimp only
  split
  · exact .ret rfl
  next hrc =>
    obtain rfl : listener = listener' := hsock (not_not.mp hrc)
    exact hr.refl (.loop (fun _ => (hround listener).later) (fun _ => .ret _))

theorem testServer_alike (hg : g.app = .files) (hset : Settles same g) :
    Alike hidden ok Eq (testServer os g) (testServer os' g) := by
  have hfiles : ServesTcp g := .inr (.inr (.inr (.inl hg)))
  have hround : ∀ srv, InRound 0 g (runServerRound srv ()) :=
    acceptRound_inRound hfiles (runServerServe_inRound hg)
  refine afterPrologue_alike hr hset (fun r => ?_)
  split
  · exact hr.refl (.loop (fun _ => .call trivial (fun _ => .ret _)) (fun _ => .ret _))
  · exact serveRc_alike hr (fun srv _ => (hround srv).later) ()

theorem threadFuncMeasureFork_alike (hg : g.app = .measureFork)
    (hset : requestedPages pageSize 0 g ≠ none → Settles same g) :
    Alike hidden ok Eq (threadFuncMeasureFork os pageSize 0 g)
      (threadFuncMeasureFork os' pageSize 0 g) := by
  have hround : ∀ srv, InRound pageSize g (measureForkRound srv ()) :=
    acceptRound_inRound (.inr (.inr (.inr (.inr (.inl hg))))) (measureForkServe_inRound hg)
  unfold threadFuncMeasureFork
  cases hn : requestedPages pageSize 0 g with
  | none => exact .ret rfl
  | some n =>
    have hpages : requestedPages pageSize 0 g ≠ none := fun hnone => by cases hn.symm.trans hnone
    refine afterPrologue_alike hr (hset hpages) (fun _ => withPages_alike hr (fun start => ?_))
    apply (serveTcp_alike hr (fun srv _ => (hround srv).later) ()).bind
    rintro exit _ rfl
    exact hr.call (by trivial) (fun _ _ => .ret rfl)

theorem threadFuncMemoryOverhead_alike (hg : g.app = .memoryOverhead) :
    Alike hidden ok Eq (threadFuncMemoryOverhead os pageSize 0 g)
      (threadFuncMemoryOverhead os' pageSize 0 g) := by
  unfold threadFuncMemoryOverhead
  cases hn : requestedPages pageSize 0 g with
  | none => exact .ret rfl
  | some n =>
    refine withPages_alike hr (fun start => ?_)
    have hround : ∀ srv, InRound pageSize g (memoryOverheadRound g start n srv ()) :=
      acceptRound_inRound (.inr (.inr (.inr (.inr (.inr hg))))) (memoryOverheadServe_inRound hg hn)
    apply (serveTcp_alike hr (fun srv _ => (hround srv).later) ()).bind
    rintro exit _ rfl
    cases exit with
    | out rc => exact .ret rfl
    | stop rc => exact hr.call (by trivial) (fun _ _ => .ret rfl)

omit hr in
/-- The applications that begin with `server_prologue`, and come that far. -/
def ComesToPrologue (pageSize : BitVec 32) (g : Globals) : Prop :=
  HasPrologue g ∧ (g.app = .measureFork → requestedPages pageSize 0 g ≠ none)

/-- Runs with the same settings and page size. -/
theorem application_alike {s s' : Setup} (hos : s.os = os) (hos' : s'.os = os')
    (hpage : s'.pageSize = s.pageSize) (hset : ComesToPrologue s.pageSize g → Settles same g)
    {p p' : SysProg ℤ} (hp : application s g = some p) (hp' : application s' g = some p') :
    Alike hidden ok Eq p p' := by
  subst hos hos'
  have hprologue : HasPrologue g → g.app ≠ .measureFork → Settles same g :=
    fun h hmeasure => hset ⟨h, fun happ => absurd happ hmeasure⟩
  rw [application] at hp hp'
  rw [hpage] at hp'
  cases hg : g.app <;> simp only [hg, Option.some.injEq, reduceCtorEq] at hp hp' <;> subst hp hp'
  case counter => exact threadFuncCounter_alike hr hg (hprologue (.inl hg) (by simp [hg]))
  case memoryOverhead => exact threadFuncMemoryOverhead_alike hr hg
  case children =>
    exact threadFuncChildren_alike hr hg (hprologue (.inr (.inr (.inl hg))) (by simp [hg]))
  case sleeper =>
    exact hr.refl (.loop (fun _ => .call trivial (fun _ => .ret _)) (fun _ => .ret _))
  case serverTcp =>
    exact threadFuncServerTcp_alike hr hg (hprologue (.inr (.inl hg)) (by simp [hg]))
  case serverUdp =>
    exact threadFuncServerUdp_alike hr hg
      (hprologue (.inr (.inr (.inr (.inr (.inr hg))))) (by simp [hg]))
  case files =>
    exact testServer_alike hr hg (hprologue (.inr (.inr (.inr (.inl hg)))) (by simp [hg]))
  case measureFork =>
    exact threadFuncMeasureFork_alike hr hg
      (fun hpages => hset ⟨.inr (.inr (.inr (.inr (.inl hg)))), fun _ => hpages⟩)

end Sockets

/-! ## The program -/

section Program
variable {shy : MachineCall → Bool} {okay : (c : MachineCall) → c.Answer → Prop} {s : Setup}

/-- Two runs of the program with the same settings, perhaps on different platforms. -/
theorem main_alike (rc : ℤ)
    (husage : shy (.printUsage s.argv0) = false)
    (hinit : Alike (I := machine) shy okay (fun rc rc' => rc = 0 ∧ rc' = 0) (osAppInit s.os)
      (osAppInit os'))
    (happ : rc = 0 → hasCase s.build g.app = true → ∀ p p', application s g = some p →
      application { s with os := os' } g = some p' →
      Alike (I := machine) shy okay Eq (p.lift apps) (p'.lift apps))
    (hfuzz : rc = 0 → hasCase s.build g.app = true → application s g = none →
      Alike (I := machine) shy okay Eq (threadFuncFuzz.lift fuzzer) (threadFuncFuzz.lift fuzzer)) :
    Alike (I := machine) shy okay Eq (main s (.returned rc g))
      (main { s with os := os' } (.returned rc g)) := by
  by_cases hrc : rc = 0
  · subst hrc
    simp only [main, afterParsing, ne_eq, not_true_eq_false, if_false]
    apply hinit.bind
    rintro _ _ ⟨rfl, rfl⟩
    simp only [not_true_eq_false, if_false]
    split
    next hcase =>
      refine Alike.bind (R := Eq) ?_ ?_
      · unfold threadFunc
        cases hp : application s g with
        | none =>
          have hp' : application { s with os := os' } g = none :=
            application_eq_none.mpr (application_eq_none.mp hp)
          simp only [hp']
          exact hfuzz rfl hcase hp
        | some p =>
          cases hp' : application { s with os := os' } g with
          | none =>
            have hnone : application s g = none :=
              application_eq_none.mpr (application_eq_none.mp hp')
            exact absurd (hp.symm.trans hnone) (by simp)
          | some p' => exact happ rfl hcase p p' hp hp'
      · rintro x _ rfl
        exact .ret rfl
    next => exact .call husage (fun _ _ => .ret rfl)
  · simp only [main, afterParsing, ne_eq, hrc, not_false_eq_true, if_true]
    exact .ret rfl

end Program

end Comparing

end CloningApps.Main
