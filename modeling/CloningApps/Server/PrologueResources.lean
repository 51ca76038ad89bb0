import CloningApps.Server.HelperCalls
import CloningApps.Server.Resources

/-! # What the prologue does to the resources of a process

The prologue makes only calls that concern reporting sockets, so it leaves the
process without anything that a server has to release.
-/

namespace CloningApps.Server
open Text Interaction Os Cmdline Net

/-- The prologue opens reporting sockets and closes descriptors; it neither accepts, nor
listens, nor allocates. -/
def PrologueCall : Call → Prop
  | .gettimeofday | .fork | .osClone .. | .osGetSelfId | .socket .report _ | .setReuseAddr _
  | .bind .. | .close _ | .sendto .. | .recv .. | .osSocketSetTimeout .. | .osNetIpGetGw
  | .indeterminate => True
  | _ => False

/-- The calls of a report. -/
def ReportCall : Call → Prop
  | .gettimeofday | .socket .report _ | .setReuseAddr _ | .bind .. | .close _ | .sendto ..
  | .recv .. | .osSocketSetTimeout .. | .osNetIpGetGw => True
  | _ => False

theorem ReportCall.prologue {c : Call} (h : ReportCall c) : PrologueCall c := by
  cases c with
  | socket use type =>
    cases use with
    | report => trivial
    | listener => exact h
  | gettimeofday | setReuseAddr | bind | close | sendto | recv | osSocketSetTimeout
  | osNetIpGetGw => trivial
  | _ => exact absurd h id

theorem prologue_of_report {α : Type} {p : SysProg α} (h : OnlyCalls ReportCall p) :
    OnlyCalls PrologueCall p :=
  h.mono (fun _ => ReportCall.prologue)

theorem OpenCall.report {c : Call} {port : Port} (h : OpenCall .report port c) :
    ReportCall c := by
  cases c with
  | socket use type =>
    obtain rfl : use = .report := h
    trivial
  | setReuseAddr | bind | close => trivial
  | _ => exact absurd h id

theorem mysocketInit_calls (os : Platform) (sock : Mysocket) (type : SocketType) (port : Port) :
    OnlyCalls ReportCall (mysocketInit os .report sock type port) :=
  (mysocketInit_openCalls os .report sock type port).mono (fun _ => OpenCall.report)

theorem mysocketFini_calls (sock : Mysocket) : OnlyCalls ReportCall (mysocketFini sock) := by
  apply (mysocketFini_closes sock).mono
  rintro _ rfl
  trivial

/-- The calls of a report whose time is known. -/
def SendCall : Call → Prop
  | .sendto .. | .recv .. | .osSocketSetTimeout .. | .osNetIpGetGw => True
  | _ => False

theorem SendCall.report {c : Call} (h : SendCall c) : ReportCall c := by
  cases c with
  | sendto | recv | osSocketSetTimeout | osNetIpGetGw => trivial
  | _ => exact absurd h id

theorem sendRound_sendCalls (sock : Mysocket) (ip : UInt) (message : CStr) :
    OnlyCalls SendCall (sendRound sock ip message) := by
  apply OnlyCalls.call trivial
  intro (rc : ℤ)
  simp only [Prog.bind]
  split
  · exact .ret _
  · refine OnlyCalls.bind ?_ (fun r => ?_)
    · apply OnlyCalls.call trivial
      intro (rc : ℤ)
      simp only [Prog.bind]
      split
      · exact .ret _
      · apply OnlyCalls.call trivial
        intro data
        cases data <;> exact .ret _
    · split
      · exact .ret _
      · split <;> exact .ret _

theorem sendTimeval_sendCalls (sock : Mysocket) (suffix : Option CStr) (tv : Timeval) :
    OnlyCalls SendCall (sendTimeval sock suffix tv) := by
  apply OnlyCalls.call trivial
  intro r
  simp only [Prog.bind]
  split
  · exact .ret _
  · exact .loop (sendRound_sendCalls sock r.2) (fun _ => .ret _)

theorem sendRound_calls (sock : Mysocket) (ip : UInt) (message : CStr) :
    OnlyCalls ReportCall (sendRound sock ip message) :=
  (sendRound_sendCalls sock ip message).mono (fun _ => SendCall.report)

theorem sendTimeval_calls (sock : Mysocket) (suffix : Option CStr) (tv : Timeval) :
    OnlyCalls ReportCall (sendTimeval sock suffix tv) :=
  (sendTimeval_sendCalls sock suffix tv).mono (fun _ => SendCall.report)

/-- A report whose time is given does not ask for the time. -/
theorem sendTime_sendCalls (g : Globals) (sock : Mysocket) (tv : Timeval)
    (suffix : Option CStr) : OnlyCalls SendCall (sendTime g sock (some tv) suffix) := by
  unfold sendTime
  split
  · exact .ret _
  · exact sendTimeval_sendCalls sock suffix tv

theorem sendTime_calls (g : Globals) (sock : Mysocket) (tv : Option Timeval)
    (suffix : Option CStr) : OnlyCalls ReportCall (sendTime g sock tv suffix) := by
  unfold sendTime
  split
  · exact .ret _
  · cases tv with
    | some tv => exact sendTimeval_calls sock suffix tv
    | none =>
      apply OnlyCalls.call trivial
      intro r
      simp only [Prog.bind]
      split
      · exact .ret _
      · exact sendTimeval_calls sock suffix r.2

theorem forkLoop_calls (os : Platform) (g : Globals) (n : ℕ) (i : ℤ) (sock : Mysocket)
    (myport : Port) : OnlyCalls PrologueCall (forkLoop os g n i sock myport) := by
  induction n generalizing i myport with
  | zero => exact .ret _
  | succ n ih =>
    apply OnlyCalls.call trivial
    intro before
    simp only [Prog.bind]
    split
    · exact .ret _
    · apply OnlyCalls.call trivial
      intro (pid : ℤ)
      simp only [Prog.bind]
      split
      · exact .ret _
      · apply OnlyCalls.call trivial
        intro after
        simp only [Prog.bind]
        split
        · exact .ret _
        · split
          · split
            · apply (prologue_of_report (mysocketFini_calls sock)).bind
              intro rc
              split
              · exact .ret _
              · apply (prologue_of_report (mysocketInit_calls os sock .dgram _)).bind
                intro r
                split
                · exact .ret _
                · exact (prologue_of_report (sendTime_calls ..)).bind (fun _ => .ret _)
            · exact .ret _
          · split
            · exact (prologue_of_report (sendTime_calls ..)).bind (fun _ => ih _ _)
            · exact ih _ _

theorem forkPrologue_calls (os : Platform) (g : Globals) (sock : Mysocket) (myport : Port) :
    OnlyCalls PrologueCall (forkPrologue os g sock myport) := by
  unfold forkPrologue
  split
  · exact .call trivial (fun _ => .ret _)
  · exact forkLoop_calls os g _ 0 sock myport

/-- The calls of a prologue that does not fork. -/
def CloneCall : Call → Prop
  | .fork => False
  | c => PrologueCall c

theorem CloneCall.prologue {c : Call} (h : CloneCall c) : PrologueCall c := by
  cases c with
  | fork => exact absurd h id
  | _ => exact h

theorem ReportCall.clone {c : Call} (h : ReportCall c) : CloneCall c := by
  cases c with
  | fork => exact absurd h id
  | _ => exact h.prologue

theorem clone_of_report {α : Type} {p : SysProg α} (h : OnlyCalls ReportCall p) :
    OnlyCalls CloneCall p :=
  h.mono (fun _ => ReportCall.clone)

theorem clonePrologue_cloneCalls (os : Platform) (g : Globals) (sock : Mysocket) (myport : Port) :
    OnlyCalls CloneCall (clonePrologue os g sock myport) := by
  refine .call trivial (fun myparentid => .call trivial (fun before => ?_))
  simp only [Prog.bind]
  split
  · exact .ret _
  · apply OnlyCalls.call trivial
    intro cloned
    simp only [Prog.bind]
    split
    · exact .ret _
    · apply OnlyCalls.call trivial
      intro after
      simp only [Prog.bind]
      split
      · exact .ret _
      · split
        · split
          · exact (clone_of_report (sendTime_calls ..)).bind (fun _ => .ret _)
          · split
            · apply (clone_of_report (mysocketFini_calls sock)).bind
              intro rc
              split
              · exact .ret _
              · apply OnlyCalls.call trivial
                intro myid
                apply (clone_of_report (mysocketInit_calls os sock .dgram _)).bind
                intro r
                split
                · exact .ret _
                · exact (clone_of_report (sendTime_calls ..)).bind (fun _ => .ret _)
            · exact .ret _
        · exact .ret _

theorem clonePrologue_calls (os : Platform) (g : Globals) (sock : Mysocket) (myport : Port) :
    OnlyCalls PrologueCall (clonePrologue os g sock myport) :=
  (clonePrologue_cloneCalls os g sock myport).mono (fun _ => CloneCall.prologue)

theorem afterReport_cloneCalls (os : Platform) {g : Globals} (hfork : g.doFork = false)
    (su : Mysocket) (myport : Port) : OnlyCalls CloneCall (afterReport os g su myport) := by
  simp only [afterReport, hfork, Bool.false_eq_true, if_false]
  split
  · exact clonePrologue_cloneCalls ..
  · exact (clone_of_report (mysocketFini_calls su)).bind (fun _ => .ret _)

theorem afterReport_calls (os : Platform) (g : Globals) (su : Mysocket) (myport : Port) :
    OnlyCalls PrologueCall (afterReport os g su myport) := by
  cases hfork : g.doFork with
  | true =>
    simp only [afterReport, hfork, if_true]
    exact (forkPrologue_calls ..).bind (fun _ => .ret _)
  | false =>
    apply (afterReport_cloneCalls os hfork su myport).mono
    exact fun _ => CloneCall.prologue

/-- What follows the first report decides. -/
theorem serverPrologue_calls_of {K : Call → Prop} (hK : ∀ c, CloneCall c → K c) (os : Platform)
    (g : Globals) (hafter : ∀ su myport, OnlyCalls K (afterReport os g su myport)) :
    OnlyCalls K (serverPrologue os g) := by
  have hreport : ∀ {α : Type} {p : SysProg α}, OnlyCalls ReportCall p → OnlyCalls K p :=
    fun h => h.mono (fun c hc => hK c hc.clone)
  have hstack : K .indeterminate := hK _ trivial
  refine .call hstack (fun s => .call hstack (fun port => ?_))
  simp only [Prog.pure_eq, Prog.bind_eq, Prog.ret_bind]
  split
  · apply (hreport (mysocketInit_calls os _ .dgram _)).bind
    intro r
    split
    · exact .ret _
    · apply (hreport (sendTime_calls ..)).bind
      intro rc
      split
      · exact .ret _
      · exact hafter ..
  · exact .call hstack (fun _ => hafter ..)

theorem serverPrologue_calls (os : Platform) (g : Globals) :
    OnlyCalls PrologueCall (serverPrologue os g) :=
  serverPrologue_calls_of (fun _ => CloneCall.prologue) os g (afterReport_calls os g)

/-! ## Resources after the prologue -/

variable {w : World}

/-- So far the process only had reporting sockets. -/
structure Untouched (w : World) : Prop where
  only : ∀ r k, w.ledger.status r = .held k ∨ w.ledger.status r = .released k → k = .report
  faults : ∀ k ∈ w.ledger.faults, k = .report
  flags : ∃ original, w.flags = { Flags.initial with original := original }

theorem Untouched.initial : Untouched .initial :=
  ⟨by simp [World.initial, Ledger.empty], by simp [World.initial, Ledger.empty], true, rfl⟩

theorem Untouched.owns (h : Untouched w) :
    ∃ original, Owns w { Flags.initial with original := original } ∅ ∅ ∅ ∅ := by
  obtain ⟨original, hflags⟩ := h.flags
  have hheld : ∀ k, k ≠ .report → w.ledger.held k = ∅ := by
    intro k hk
    refine Set.eq_empty_of_forall_notMem (fun r hr => hk (h.only r k (.inl hr)))
  have hfaults : ∀ k, k ≠ .report → k ∉ w.ledger.faults :=
    fun k hk hmem => hk (h.faults k hmem)
  refine ⟨original, hflags, hheld _ (by decide), hheld _ (by decide), hheld _ (by decide),
    hheld _ (by decide), ⟨hfaults _ (by decide), hfaults _ (by decide), hfaults _ (by decide)⟩, ?_⟩
  simp [Flags.initial, hfaults .listener (by decide)]

theorem Untouched.release (h : Untouched w) (r : Resource) : Untouched (w.release r) := by
  have hset : ∀ x, (w.ledger.release r).status x = w.ledger.status x ∨
      ∃ k, w.ledger.status x = .held k ∧ (w.ledger.release r).status x = .released k := by
    intro x
    by_cases hx : x = r
    · subst hx
      cases hs : w.ledger.status x with
      | unused | released k => exact .inl (by simp [Ledger.release, hs])
      | held k => exact .inr ⟨k, rfl, Ledger.status_release_self hs⟩
    · exact .inl (Ledger.status_release_of_ne hx)
  refine ⟨fun x k hk => ?_, fun k hk => ?_, h.flags⟩
  · rcases hset x with hx | ⟨j, hj, hx⟩
    · exact h.only x k (by rwa [World.release, hx] at hk)
    · have hjk : j = k := by simpa [World.release, hx] using hk
      exact hjk ▸ h.only x j (.inl hj)
  · unfold World.release Ledger.release at hk
    cases hs : w.ledger.status r with
    | unused | held j =>
      simp only [hs] at hk
      exact h.faults k hk
    | released j =>
      simp only [hs, List.mem_cons] at hk
      rcases hk with rfl | hk
      · exact h.only r k (.inr hs)
      · exact h.faults k hk

theorem Untouched.acquire (h : Untouched w) (r : Resource) : Untouched (w.acquire r .report) := by
  refine ⟨fun x k hk => ?_, h.faults, h.flags⟩
  by_cases hx : x = r
  · simpa [World.acquire, Ledger.status_acquire_self, hx, eq_comm] using hk
  · exact h.only x k (by simpa [World.acquire, Ledger.status_acquire_of_ne hx] using hk)

theorem Untouched.not_listener (h : Untouched w) (s : Fd) : w.isListener s = false := by
  rw [World.isListener, decide_eq_false_iff_not]
  intro hs
  exact absurd (h.only _ _ (.inl hs)) (by decide)

theorem Untouched.spawn (h : Untouched w) (parent failed : Bool) :
    Untouched ⟨w.ledger, w.flags.spawn parent failed⟩ := by
  obtain ⟨original, hflags⟩ := h.flags
  exact ⟨h.only, h.faults, original && parent, by simp [hflags, Flags.spawn, Flags.side,
    Flags.initial]⟩

theorem Untouched.effect (h : Untouched w) (c : Call) (a : c.Answer) (hc : PrologueCall c) :
    Untouched (processEnv.effect w c a) := by
  cases c with
  | gettimeofday | osGetSelfId | sendto | recv | osSocketSetTimeout | osNetIpGetGw
  | indeterminate => exact h
  | fork => exact h.spawn _ _
  | osClone => exact h.spawn _ _
  | close s => exact h.release _
  | socket use type =>
    cases use with
    | listener => exact absurd hc id
    | report =>
      show Untouched (if 0 ≤ a then w.acquire (.fd a) .report else w)
      split
      · exact h.acquire _
      · exact h
  | setReuseAddr s =>
    have heffect : processEnv.effect w (.setReuseAddr s) a = w := by
      simp [processEnv, World.effect, h.not_listener]
    rwa [heffect]
  | bind s port =>
    have heffect : processEnv.effect w (.bind s port) a = w := by
      simp [processEnv, World.effect, h.not_listener]
    rwa [heffect]
  | _ => exact absurd hc id

theorem serverPrologue_safe {os : Platform} {g : Globals} (h : Untouched w) :
    SafeProcess (fun _ w' => Untouched w') (serverPrologue os g) w := by
  refine Safe.frame Untouched (processEnv_still.stable _) (fun w c hc _ => ?_)
    (fun w c a hc h _ => h.effect c a hc) (serverPrologue_calls os g) h
  cases c <;> trivial

end CloningApps.Server
