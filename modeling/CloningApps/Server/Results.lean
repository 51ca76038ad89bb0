import CloningApps.Server.PrologueResources

/-! # What the servers return

`rc` holds the result of `recv` while a request is looked at. A server that is
told to stop returns that number of bytes, and so does one that cannot fork; all
other ways out leave the code of the call that failed.
-/

namespace CloningApps.Server
open Text Interaction Os Cmdline Net Memory

/-- How the last call went that can fail; releasing something cannot. -/
inductive LastCall where
  | done | received | forkFailed | failed
  deriving DecidableEq

/-- What happened so far: whether an accept, a receive, a fork, a check of the pages or a file
operation failed, whether a client was served, the contents of the receive buffer, the length of
the last payload and how the last call went. -/
structure History where
  anyFailed : Bool
  serving : Bool
  buffer : List Byte
  payload : ℕ
  last : LastCall

namespace History

def initial : History := ⟨false, false, [], 0, .done⟩

def note (w : History) (failed : Bool) : History :=
  { w with last := if failed then .failed else .done }

/-- A call that serves a request. -/
def noteServing (w : History) (failed : Bool) : History :=
  { w.note failed with anyFailed := w.anyFailed || failed }

def effect (w : History) : (c : Call) → c.Answer → History
  | .accept _, s => { w.noteServing (s < 0) with serving := w.serving || 0 ≤ s }
  | .recv .., none => w.noteServing true
  | .recv .., some data =>
    { w with buffer := overwrite w.buffer data, payload := data.length, last := .received }
  | .fork, pid =>
    if pid < 0 then { w with anyFailed := true, last := .forkFailed } else w.noteServing false
  | .memTouchPages .., rc => w.noteServing (rc ≠ 0)
  | .openFile _, fd => w.noteServing (fd = -1)
  | .write .., rc => w.noteServing (rc < 0)
  | .malloc .writeBuffer _, block => w.noteServing (block = none)
  | .malloc .netbuf _, some block => { w.note false with buffer := block.bytes }
  | .malloc .netbuf _, none => w.note true
  | .socket .., s => w.note (s < 0)
  | .bind .., rc => w.note (rc < 0)
  | .listen .., rc | .getpeername _, rc => w.note (rc ≠ 0)
  | .osAllocPages _, r => w.note (r.1 ≠ 0)
  | _, _ => w

/-- The last call received a request to stop. -/
def EndedByStop (w : History) : Prop :=
  w.serving = true ∧ w.last = .received ∧ (ascii "stop").isPrefixOf w.buffer = true

def EndedByFailure (w : History) : Prop := w.last = .forkFailed ∨ w.last = .failed

end History

/-- Every call is answered in any way. -/
def historyEnv : Env system History where
  legal := fun _ _ _ => True
  effect := History.effect
  drift := fun _ _ => False

theorem historyEnv_still : historyEnv.Still := fun _ _ h => h

/-- The result says whether the run ended well. -/
structure Tells (rc : ℤ) (w : History) : Prop where
  stopped : w.EndedByStop → w.anyFailed = false → rc = 0
  failed : w.EndedByFailure → rc ≠ 0

/-- A run that is told to stop by a client that sends nothing, and that fails to fork only for a
client that sends something. -/
structure Lucky (w : History) : Prop where
  stopped : w.EndedByStop → w.anyFailed = false → w.payload = 0
  forkFailed : w.serving = true → w.last = .forkFailed → w.payload ≠ 0

/-- The ways to leave a server: with the length of a payload, or with another code that is not
zero. -/
inductive Leaves (rc : ℤ) (w : History) : Prop where
  | payload (hserving : w.serving = true) (hlast : w.last = .received ∨ w.last = .forkFailed)
      (hrc : rc = w.payload)
  | code (hlast : w.serving = true → w.last = .done ∨ w.last = .failed) (hrc : rc ≠ 0)

/-- A server that gives up before it serves anybody. -/
theorem Leaves.early {rc : ℤ} {w : History} (hw : w.serving = false) (hrc : rc ≠ 0) :
    Leaves rc w :=
  .code (fun hserving => absurd (hw.symm.trans hserving) (by decide)) hrc

theorem Leaves.tells_iff {rc : ℤ} {w : History} (h : Leaves rc w) : Tells rc w ↔ Lucky w := by
  cases h with
  | payload hserving hlast hrc =>
    have hzero : rc = 0 ↔ w.payload = 0 := by omega
    have hfailure : w.EndedByFailure ↔ w.last = .forkFailed := by
      rcases hlast with h | h <;> simp [History.EndedByFailure, h]
    constructor
    · intro ⟨hstop, hfail⟩
      exact ⟨fun h h' => hzero.mp (hstop h h'),
        fun _ h hpayload => hfail (hfailure.mpr h) (hzero.mpr hpayload)⟩
    · intro ⟨hstop, hfork⟩
      exact ⟨fun h h' => hzero.mpr (hstop h h'),
        fun h hrc => hfork hserving (hfailure.mp h) (hzero.mp hrc)⟩
  | code hlast hrc =>
    have hnostop : ¬ w.EndedByStop := by
      rintro ⟨hserving, hreceived, -⟩
      rcases hlast hserving with h | h <;> simp [h] at hreceived
    refine iff_of_true ⟨fun h => absurd h hnostop, fun _ => hrc⟩ ⟨fun h => absurd h hnostop, ?_⟩
    intro hserving hfork
    rcases hlast hserving with h | h <;> simp [h] at hfork

abbrev SafeHistory {α : Type} (post : α → History → Prop) (p : SysProg α) (w : History) : Prop :=
  Safe historyEnv (fun _ _ => True) post p w

variable {w : History}

/-! ## The helpers -/

/-- Before a client is accepted none is served. -/
def BeforeAccept : Call → Prop
  | .accept _ => False
  | _ => True

theorem History.serving_effect (w : History) {c : Call} (hc : BeforeAccept c) (a : c.Answer) :
    (w.effect c a).serving = w.serving := by
  cases c with
  | accept => exact absurd hc id
  | fork =>
    simp only [effect]
    split <;> rfl
  | malloc use size => cases use <;> cases a <;> rfl
  | recv => cases a <;> rfl
  | _ => rfl

theorem beforeAccept_safe {α : Type} {p : SysProg α} (hp : OnlyCalls BeforeAccept p)
    (hw : w.serving = false) : SafeHistory (fun _ w' => w'.serving = false) p w :=
  Safe.frame (fun w => w.serving = false) (historyEnv_still.stable _) (fun _ _ _ _ => trivial)
    (fun w _ a hc h _ => (w.serving_effect hc a).trans h) hp hw

theorem StartCall.beforeAccept {c : Call} (h : StartCall c) : BeforeAccept c := by
  cases c with
  | accept => exact absurd h id
  | _ => trivial

theorem PrologueCall.beforeAccept {c : Call} (h : PrologueCall c) : BeforeAccept c := by
  cases c with
  | accept => exact absurd h id
  | _ => trivial

theorem cleanup_safe {α : Type} {p : SysProg α} (hp : OnlyCalls CleanupCall p) :
    SafeHistory (fun _ w' => w' = w) p w := by
  refine Safe.frame (fun w' => w' = w) (historyEnv_still.stable _) (fun _ _ _ _ => trivial)
    (fun w' c a hc h _ => ?_) hp rfl
  cases c with
  | free | close => exact h
  | _ => exact absurd hc id

theorem netMsgCleanup_history {α : Type} {m : NetMsg} {post : α → History → Prop}
    {k : NetMsg → SysProg α} (hk : ∀ m, SafeHistory post (k m) w) :
    SafeHistory post ((netMsgCleanup m).bind k) w := by
  apply Safe.bind
  apply (cleanup_safe (netMsgCleanup_calls m)).mono
  rintro m w' rfl
  exact hk m

theorem tcpServerAccept_history {srv : OsServer} :
    SafeHistory (fun r w' => (r.1 = 0 → w'.serving = true) ∧ (r.1 ≠ 0 → w'.last = .failed))
      (tcpServerAccept srv) w := by
  apply Safe.call historyEnv_still trivial
  intro (s : ℤ) _
  by_cases hneg : s < 0
  · simp only [Prog.bind, hneg, if_true]
    apply netMsgCleanup_history
    intro m
    apply Safe.ret historyEnv_still
    simp [historyEnv, History.effect, History.noteServing, History.note, hneg]
  · simp only [Prog.bind, hneg, if_false]
    apply Safe.call historyEnv_still trivial
    intro (rc : ℤ) _
    simp only [Prog.bind]
    split
    · rename_i hrc
      apply netMsgCleanup_history
      intro m
      apply Safe.ret historyEnv_still
      simp [historyEnv, History.effect, History.note, hrc]
    · have hserving : (w.serving || decide (0 ≤ s)) = true := by simp [not_lt.mp hneg]
      exact Safe.ret historyEnv_still ⟨fun _ => hserving, fun h => absurd rfl h⟩

/-- A request was received, and `rc` is its length. -/
structure Received (rc : ℤ) (w : History) : Prop where
  serving : w.serving = true
  last : w.last = .received
  payload : rc = w.payload

theorem netMsgBuffer_history {m : NetMsg} (hw : w.serving = true) :
    SafeHistory (fun r w' => w'.serving = true ∧ (r.2.netbuf = none → r.1 < 0 ∧ w'.last = .failed))
      (netMsgBuffer m) w := by
  cases hm : m.netbuf with
  | some block =>
    simp only [netMsgBuffer, hm]
    exact Safe.ret historyEnv_still ⟨hw, by simp [hm]⟩
  | none =>
    simp only [netMsgBuffer, hm, netMsgInitBuffer]
    apply Safe.call historyEnv_still trivial
    intro block _
    cases block with
    | none =>
      have hneg : -ENOMEM < 0 := by decide
      exact Safe.ret historyEnv_still ⟨hw, fun _ => ⟨hneg, rfl⟩⟩
    | some block => exact Safe.ret historyEnv_still ⟨hw, by simp⟩

theorem tcpServerRecvMsg_history {m : NetMsg} (hw : w.serving = true) :
    SafeHistory (fun r w' => (r.1 < 0 ∧ w'.last = .failed) ∨ Received r.1 w')
      (tcpServerRecvMsg m) w := by
  apply Safe.bind
  apply (netMsgBuffer_history hw).mono
  rintro ⟨rc, m⟩ w' ⟨hserving, hnone⟩
  cases hm : m.netbuf with
  | none =>
    simp only [hm]
    exact Safe.ret historyEnv_still (.inl (hnone hm))
  | some block =>
    simp only [hm]
    apply Safe.call historyEnv_still trivial
    intro data _
    cases data with
    | none =>
      have hneg : (-1 : ℤ) < 0 := by decide
      exact Safe.ret historyEnv_still (.inl ⟨hneg, rfl⟩)
    | some data => exact Safe.ret historyEnv_still (.inr ⟨hserving, rfl, rfl⟩)

/-! ## The rounds -/

/-- A round goes on, or leaves with a result. -/
def RoundLeaves {σ : Type} : σ ⊕ LoopExit → History → Prop
  | .inl _, _ => True
  | .inr exit, w => Leaves exit.rc w

theorem keepRunning_history {keep : Bool} {rc : ℤ} {m : NetMsg}
    (h : keep = false → Leaves rc w) : SafeHistory RoundLeaves (keepRunning keep rc m) w := by
  apply netMsgCleanup_history
  intro m
  cases keep with
  | true => exact Safe.ret historyEnv_still trivial
  | false => exact Safe.ret historyEnv_still (h rfl)

theorem Received.leaves {rc : ℤ} (h : Received rc w) : Leaves rc w :=
  .payload h.serving (.inl h.last) h.payload

/-- A round of a server whose requests are served as they should. -/
theorem acceptRound_history {srv : OsServer} {serve : NetMsg → SysProg (Unit ⊕ LoopExit)}
    (hserve : ∀ m w, w.serving = true → SafeHistory RoundLeaves (serve m) w) :
    SafeHistory RoundLeaves (acceptRound srv serve) w := by
  apply Safe.bind
  apply tcpServerAccept_history.mono
  rintro ⟨rc, m⟩ w' ⟨hok, hfailed⟩
  by_cases hrc : rc = 0
  · simp only [hrc, ne_eq, not_true_eq_false, if_false]
    exact hserve m w' (hok hrc)
  · simp only [hrc, ne_eq, not_false_eq_true, if_true]
    exact Safe.ret historyEnv_still (.code (fun _ => .inr (hfailed hrc)) hrc)

/-- A request that cannot be received ends the run; otherwise it is served. -/
theorem recvRequest_history {m : NetMsg} {k : ℤ × NetMsg → SysProg (Unit ⊕ LoopExit)}
    (hw : w.serving = true)
    (hk : ∀ r w', Received r.1 w' → SafeHistory RoundLeaves (k r) w') :
    SafeHistory RoundLeaves ((tcpServerRecvMsg m).bind (fun r =>
      if r.1 < 0 then keepRunning false r.1 r.2 else k r)) w := by
  apply Safe.bind
  apply (tcpServerRecvMsg_history hw).mono
  rintro r w' (⟨hneg, hlast⟩ | hreceived)
  · rw [if_pos hneg]
    apply keepRunning_history
    exact fun _ => .code (fun _ => .inr hlast) (by omega)
  · have hnonneg : ¬ r.1 < 0 := by
      rw [hreceived.payload]
      omega
    rw [if_neg hnonneg]
    exact hk r w' hreceived

theorem measureForkServe_history {m : NetMsg} (hw : w.serving = true) :
    SafeHistory RoundLeaves (measureForkServe m) w := by
  apply recvRequest_history hw
  rintro ⟨rc, m⟩ w' hreceived
  dsimp only
  split
  · apply Safe.call historyEnv_still trivial
    intro (pid : ℤ) _
    simp only [Prog.bind]
    split
    · exact Safe.call historyEnv_still trivial (fun nothing _ => nothing.elim)
    · rename_i hpid
      apply keepRunning_history
      intro hkeep
      have hneg : pid < 0 := by
        have hnot : ¬ 0 < pid := by simpa using hkeep
        exact lt_of_le_of_ne (not_lt.mp hnot) hpid
      have heffect : historyEnv.effect w' .fork pid =
          { w' with anyFailed := true, last := .forkFailed } := if_pos hneg
      rw [heffect]
      exact .payload hreceived.serving (.inr rfl) hreceived.payload
  · exact keepRunning_history (fun _ => hreceived.leaves)

theorem History.last_noteServing (w : History) (failed : Bool) :
    (w.noteServing failed).last = .done ∨ (w.noteServing failed).last = .failed := by
  cases failed with
  | false => exact .inl rfl
  | true => exact .inr rfl

theorem overhead_history {g : Globals} {start : ℕ} {pagesNum : ULong} {rc : ℤ}
    (h : Received rc w) :
    SafeHistory (fun r w' => r.1 = true → Leaves r.2 w') (overhead g start pagesNum rc) w := by
  unfold overhead
  split
  · apply Safe.call historyEnv_still trivial
    intro (pid : ℤ) _
    by_cases hneg : pid < 0
    · have heffect : historyEnv.effect w .fork pid =
          { w with anyFailed := true, last := .forkFailed } := if_pos hneg
      simp only [Prog.bind, hneg, if_true, heffect]
      exact Safe.ret historyEnv_still (fun _ => .payload h.serving (.inr rfl) h.payload)
    · simp only [Prog.bind, hneg, if_false]
      split
      · apply Safe.call historyEnv_still trivial
        intro (rc : ℤ) _
        simp only [Prog.bind]
        split
        · rename_i hrc
          exact Safe.ret historyEnv_still (fun _ => .code (fun _ => History.last_noteServing _ _) hrc)
        · exact Safe.call historyEnv_still trivial (fun nothing _ => nothing.elim)
      · exact Safe.ret historyEnv_still (fun hout : false = true => absurd hout (by decide))
  · apply Safe.call historyEnv_still trivial
    intro (rc : ℤ) _
    apply Safe.ret historyEnv_still
    intro hout
    exact .code (fun _ => History.last_noteServing _ _) (by simpa using hout)

theorem memoryOverheadServe_history {g : Globals} {start : ℕ} {pagesNum : ULong} {m : NetMsg}
    (hw : w.serving = true) :
    SafeHistory RoundLeaves (memoryOverheadServe g start pagesNum m) w := by
  apply recvRequest_history hw
  rintro ⟨rc, m⟩ w' hreceived
  dsimp only
  split
  · apply Safe.bind
    apply (overhead_history hreceived).mono
    rintro ⟨out, rc⟩ w'' h
    cases out with
    | true => exact Safe.ret historyEnv_still (h rfl)
    | false => exact keepRunning_history (fun hkeep => absurd hkeep (by decide))
  · exact keepRunning_history (fun _ => hreceived.leaves)

theorem fileCalls_history {p : SysProg ℤ} (hp : OnlyCalls FileCall p)
    (hw : w.last = .done ∨ w.last = .failed) :
    SafeHistory (fun _ w' => w'.last = .done ∨ w'.last = .failed) p w := by
  refine Safe.frame (fun w => w.last = .done ∨ w.last = .failed) (historyEnv_still.stable _)
    (fun _ _ _ _ => trivial) (fun w c a hc h _ => ?_) hp hw
  cases c with
  | openFile | write => exact w.last_noteServing _
  | malloc use size =>
    cases use with
    | netbuf => exact absurd hc id
    | writeBuffer => exact w.last_noteServing _
  | free | close | assertFail => exact h
  | _ => exact absurd hc id

/-- A file that was opened, or was not, and the writes after that. -/
theorem createFileWriteData_history {filename : CStr} {size : ULong} {wt : WriteType} :
    SafeHistory (fun _ w' => w'.last = .done ∨ w'.last = .failed)
      (createFileWriteData filename size wt) w := by
  apply Safe.call historyEnv_still trivial
  intro (fd : ℤ) _
  have hlast := w.last_noteServing (fd = -1)
  simp only [Prog.bind]
  split
  · exact Safe.ret historyEnv_still hlast
  · apply Safe.bind
    apply (fileCalls_history (write_calls wt fd size) hlast).mono
    intro rc w' hlast'
    apply Safe.call historyEnv_still trivial
    intro _ _
    exact Safe.ret historyEnv_still hlast'

theorem runServerServe_history {m : NetMsg} (hw : w.serving = true) :
    SafeHistory RoundLeaves (runServerServe m) w := by
  apply recvRequest_history hw
  rintro ⟨rc, m⟩ w' hreceived
  dsimp only
  split
  · exact keepRunning_history (fun _ => hreceived.leaves)
  · cases strToWriteType m with
    | none => exact keepRunning_history (fun hkeep => absurd hkeep (by decide))
    | some wt =>
      apply Safe.bind
      apply createFileWriteData_history.mono
      intro rc w'' hlast
      apply keepRunning_history
      intro hkeep
      exact .code (fun _ => hlast) (by simpa using hkeep)

/-! ## The servers -/

/-- A server whose rounds leave as they should. -/
theorem serveTcp_history {os : Platform} {round : OsServer → Unit → SysProg (Unit ⊕ LoopExit)}
    (hround : ∀ srv w, SafeHistory RoundLeaves (round srv ()) w) (hw : w.serving = false) :
    SafeHistory (fun exit w' => Leaves exit.rc w') (serveTcp os round ()) w := by
  apply Safe.bind
  apply (beforeAccept_safe (uninitialisedServer_calls.mono (fun _ => StartCall.beforeAccept))
    hw).mono
  intro srv w₁ hw₁
  apply Safe.bind
  apply (beforeAccept_safe ((tcpServerStart_calls ..).mono (fun _ => StartCall.beforeAccept))
    hw₁).mono
  rintro ⟨rc, srv⟩ w₂ hw₂
  dsimp only
  split
  · rename_i hrc
    exact Safe.ret historyEnv_still (.early hw₂ hrc)
  · refine Safe.loop (fun _ _ => True) (fun _ => historyEnv_still.stable _) (fun s w _ => ?_) trivial
    apply (hround srv w).mono
    intro r w' hr
    cases r with
    | inl s => trivial
    | inr exit =>
      cases exit with
      | out rc => exact Safe.ret historyEnv_still hr
      | stop rc =>
        simp only [Sum.elim_inr, Prog.ret_bind]
        apply Safe.bind
        apply (cleanup_safe (tcpServerStop_calls srv)).mono
        rintro _ w'' rfl
        exact Safe.ret historyEnv_still hr

/-- The pages that a server needs. -/
theorem withPages_history {pagesNum : ULong} {serve : ℕ → SysProg ℤ} (hw : w.serving = false)
    (hserve : ∀ start w, w.serving = false → SafeHistory Leaves (serve start) w) :
    SafeHistory Leaves (withPages pagesNum serve) w := by
  apply Safe.call historyEnv_still trivial
  intro (r : ℤ × ℕ) _
  obtain ⟨rc, start⟩ := r
  simp only [Prog.bind]
  split
  · rename_i hrc
    exact Safe.ret historyEnv_still (.early hw hrc)
  · apply Safe.call historyEnv_still trivial
    intro (rc : ℤ) _
    simp only [Prog.bind]
    split
    · rename_i hrc
      apply Safe.call historyEnv_still trivial
      intro _ _
      exact Safe.ret historyEnv_still (.early hw hrc)
    · exact hserve start _ hw

/-- Giving back the pages does not change how the run ended. -/
theorem osFreePages_history {start : ℕ} {pagesNum : ULong} {rc : ℤ} (h : Leaves rc w) :
    SafeHistory Leaves ((sys (.osFreePages start pagesNum)).bind (fun _ => .ret rc)) w :=
  Safe.call historyEnv_still trivial (fun _ _ => Safe.ret historyEnv_still h)

/-- The servers that can be told to stop. -/
inductive StopServer where
  | memoryOverhead | measureFork | files

def StopServer.prog (os : Platform) (osGetPageSize : BitVec 32) (osPageSize : ULong) (g : Globals) :
    StopServer → SysProg ℤ
  | .memoryOverhead => threadFuncMemoryOverhead os osGetPageSize osPageSize g
  | .measureFork => threadFuncMeasureFork os osGetPageSize osPageSize g
  | .files => runServer os

theorem stopServer_history (server : StopServer) (os : Platform) (osGetPageSize : BitVec 32)
    (osPageSize : ULong) (g : Globals) :
    SafeHistory Leaves (server.prog os osGetPageSize osPageSize g) .initial := by
  have hnone : Leaves (-1) .initial := .early rfl (by decide)
  cases server with
  | memoryOverhead =>
    simp only [StopServer.prog, threadFuncMemoryOverhead]
    cases requestedPages osGetPageSize osPageSize g with
    | none => exact Safe.ret historyEnv_still hnone
    | some pagesNum =>
      refine withPages_history rfl (fun start w hw => Safe.bind ?_)
      apply (serveTcp_history (fun srv w => acceptRound_history (fun m w hw =>
        memoryOverheadServe_history hw)) hw).mono
      intro exit w' h
      cases exit with
      | out rc => exact Safe.ret historyEnv_still h
      | stop rc => exact osFreePages_history h
  | measureFork =>
    simp only [StopServer.prog, threadFuncMeasureFork]
    cases requestedPages osGetPageSize osPageSize g with
    | none => exact Safe.ret historyEnv_still hnone
    | some pagesNum =>
      apply Safe.bind
      apply (beforeAccept_safe ((serverPrologue_calls os g).mono (fun _ =>
        PrologueCall.beforeAccept)) rfl).mono
      rintro ⟨prologue, g⟩ w hw
      dsimp only
      split
      · rename_i hrc
        exact Safe.ret historyEnv_still (.early hw hrc)
      · refine withPages_history hw (fun start w hw => Safe.bind ?_)
        apply (serveTcp_history (fun srv w => acceptRound_history (fun m w hw =>
          measureForkServe_history hw)) hw).mono
        exact fun exit w' h => osFreePages_history h
  | files =>
    apply Safe.bind
    apply (serveTcp_history (fun srv w => acceptRound_history (fun m w hw =>
      runServerServe_history hw)) rfl).mono
    exact fun exit w' h => Safe.ret historyEnv_still h

/-- What a server returns says how its run ended exactly when the client that told it to stop sent
nothing, or the client for which it could not fork sent something. -/
theorem stopServer_tells_iff (server : StopServer) (os : Platform) (osGetPageSize : BitVec 32)
    (osPageSize : ULong) (g : Globals) (rc : ℤ) (w : History)
    (hrun : Reaches historyEnv (server.prog os osGetPageSize osPageSize g, .initial) (.ret rc, w)) :
    Tells rc w ↔ Lucky w :=
  Leaves.tells_iff (stopServer_history server os osGetPageSize osPageSize g (.ret rc) w hrun)

/-- The file server is started, told to stop with four bytes, and returns. -/
theorem runServer_stopped : Reaches historyEnv (runServer .posix, .initial)
    (.ret 4, ⟨false, true, ascii "stop", 4, .received⟩) := by
  apply Relation.ReflTransGen.head (.call (0 : ℤ) trivial)
  apply Relation.ReflTransGen.head (.call (0 : ℤ) trivial)
  apply Relation.ReflTransGen.head (.call (3 : ℤ) trivial)
  apply Relation.ReflTransGen.head (.call (0 : ℤ) trivial)
  apply Relation.ReflTransGen.head (.call (0 : ℤ) trivial)
  apply Relation.ReflTransGen.head (.call (0 : ℤ) trivial)
  apply Relation.ReflTransGen.head .loop
  apply Relation.ReflTransGen.head (.call (4 : ℤ) trivial)
  apply Relation.ReflTransGen.head (.call (0 : ℤ) trivial)
  apply Relation.ReflTransGen.head (.call (some ⟨4096, []⟩ : Option Block) trivial)
  apply Relation.ReflTransGen.head (.call (some (ascii "stop")) trivial)
  apply Relation.ReflTransGen.head (.call () trivial)
  apply Relation.ReflTransGen.head (.call () trivial)
  apply Relation.ReflTransGen.head (.call () trivial)
  exact .refl

theorem stopServer_tells_iff_stopped :
    Tells 4 ⟨false, true, ascii "stop", 4, .received⟩ ↔
      Lucky ⟨false, true, ascii "stop", 4, .received⟩ :=
  stopServer_tells_iff .files .posix 4096 0 .initial 4 _ runServer_stopped

/-- A stop request is answered with the number of its bytes. -/
theorem stopServer_not_tells :
    ¬ ∀ (server : StopServer) (g : Globals) (rc : ℤ) (w : History),
      Reaches historyEnv (server.prog .posix 4096 0 g, .initial) (.ret rc, w) → Tells rc w := by
  intro h
  have htells := h .files .initial 4 _ runServer_stopped
  have hzero := htells.stopped ⟨rfl, rfl, by decide⟩ rfl
  exact absurd hzero (by decide)

end CloningApps.Server
