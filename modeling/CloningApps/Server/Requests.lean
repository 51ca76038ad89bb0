import CloningApps.Interaction.Exec
import CloningApps.Server.Programs

/-! # Requests and what the buffer held before

Three servers compare the receive buffer with their commands and do not look at
how many bytes were received. What such a server goes on to do is a program, and
it must not depend on what `malloc` left in the buffer.
-/

namespace CloningApps.Server
open Text Interaction Os Cmdline Net

inductive RequestServer where
  | memoryOverhead (g : Globals) (start : ℕ) (pagesNum : ULong)
  | measureFork
  | files

namespace RequestServer

/-- The body of the accept loop, for the connection accepted. -/
def serve : RequestServer → NetMsg → SysProg (Unit ⊕ LoopExit)
  | memoryOverhead g start pagesNum => memoryOverheadServe g start pagesNum
  | measureFork => measureForkServe
  | files => runServerServe

def commands : RequestServer → List String
  | memoryOverhead .. => ["overhead", "stop"]
  | measureFork => ["fork", "stop"]
  | files => ["stop", "write-chars", "write-words", "write-buffer"]

end RequestServer

/-- The answers up to the end of `recv`: a buffer with old contents, and the payload. -/
def receiving (addr : ℕ) (stale data : List Byte) : (c : Call) → Option c.Answer
  | .malloc .netbuf _ => some (some ⟨addr, stale⟩)
  | .recv .. => some (some data)
  | _ => none

/-- What a server goes on to do with a payload. -/
def RequestServer.reaction (srv : RequestServer) (connection : Fd) (addr : ℕ)
    (stale data : List Byte) : SysProg (Unit ⊕ LoopExit) :=
  @Prog.resume system (receiving addr stale data) _
    (srv.serve { NetMsg.zero with connection := connection })

/-- The reaction to a payload is the same for all old contents of the buffer. -/
def RequestServer.Obeys (srv : RequestServer) (data : List Byte) : Prop :=
  ∀ connection addr stale stale', stale.length = 4096 → stale'.length = 4096 →
    srv.reaction connection addr stale data = srv.reaction connection addr stale' data

/-- A command that was cut off, possibly down to nothing. -/
def CutOff (data : List Byte) (command : String) : Prop :=
  data <+: ascii command ∧ data ≠ ascii command

/-- The message once the payload is in its buffer. -/
def received (connection : Fd) (addr : ℕ) (stale data : List Byte) : NetMsg :=
  ⟨connection, some ⟨addr, overwrite stale data⟩, 4096⟩

variable {connection : Fd} {addr : ℕ} {stale stale' data : List Byte} {rc : ℤ} {m m' : NetMsg}

/-! ## What the servers do -/

theorem recvMsg_resume {α : Type} (f : ℤ × NetMsg → SysProg α) :
    @Prog.resume system (receiving addr stale data) _
        ((tcpServerRecvMsg { NetMsg.zero with connection := connection }).bind f) =
      @Prog.resume system (receiving addr stale data) _
        (f (data.length, received connection addr stale data)) :=
  rfl

theorem length_not_neg (data : List Byte) : ¬ (data.length : ℤ) < 0 := by omega

/-- Cleaning up needs no answer that was given. -/
theorem keepRunning_resume (keep : Bool) :
    @Prog.resume system (receiving addr stale data) _
        (keepRunning keep rc (received connection addr stale data)) =
      keepRunning keep rc (received connection addr stale data) :=
  rfl

theorem overhead_resume (g : Globals) (start : ℕ) (pagesNum : ULong)
    (f : Bool × ℤ → SysProg (Unit ⊕ LoopExit)) :
    @Prog.resume system (receiving addr stale data) _ ((overhead g start pagesNum rc).bind f) =
      (overhead g start pagesNum rc).bind f := by
  unfold overhead
  split <;> rfl

theorem memoryOverhead_reaction (g : Globals) (start : ℕ) (pagesNum : ULong) :
    (RequestServer.memoryOverhead g start pagesNum).reaction connection addr stale data =
      if isCommand (received connection addr stale data) "overhead" then
        (overhead g start pagesNum data.length).bind (fun r =>
          if r.1 then .ret (.inr (.out r.2))
          else keepRunning true r.2 (received connection addr stale data))
      else
        keepRunning (!isCommand (received connection addr stale data) "stop") data.length
          (received connection addr stale data) := by
  apply (recvMsg_resume _).trans
  simp only [length_not_neg, if_false]
  split
  · exact overhead_resume ..
  · exact keepRunning_resume _

theorem measureFork_reaction :
    RequestServer.measureFork.reaction connection addr stale data =
      if isCommand (received connection addr stale data) "fork" then
        .call .fork (fun (pid : ℤ) =>
          if pid = 0 then .call (.osExit 0) (fun nothing => .ret nothing.elim)
          else keepRunning (0 < pid) data.length (received connection addr stale data))
      else
        keepRunning (!isCommand (received connection addr stale data) "stop") data.length
          (received connection addr stale data) := by
  apply (recvMsg_resume _).trans
  simp only [length_not_neg, if_false]
  split
  · rfl
  · exact keepRunning_resume _

/-- What the file server does unless it is told to stop. -/
def writeRequest (m : NetMsg) : Option WriteType → SysProg (Unit ⊕ LoopExit)
  | none => keepRunning true (-1) m
  | some wt =>
    (createFileWriteData (ascii "/root/data") (4 * 1024 * 1024) wt).bind (fun rc =>
      keepRunning (rc = 0) rc m)

theorem files_reaction :
    RequestServer.files.reaction connection addr stale data =
      if isCommand (received connection addr stale data) "stop" then
        keepRunning false data.length (received connection addr stale data)
      else
        writeRequest (received connection addr stale data)
          (strToWriteType (received connection addr stale data)) := by
  apply (recvMsg_resume _).trans
  simp only [length_not_neg, if_false]
  split
  · exact keepRunning_resume _
  · cases strToWriteType (received connection addr stale data) <;> rfl

/-! ## Payloads that are not cut off -/

theorem keepRunning_stale (keep : Bool) (rc : ℤ) :
    keepRunning keep rc (received connection addr stale data) =
      keepRunning keep rc (received connection addr stale' data) := by
  unfold keepRunning netMsgCleanup
  by_cases hconnection : 0 ≤ connection
  · simp only [received, hconnection, freeBuffer, if_true]
    rfl
  · simp only [received, hconnection, freeBuffer, if_false]
    rfl

theorem isCommand_iff (command : String) :
    isCommand (received connection addr stale data) command = true ↔
      ascii command <+: overwrite stale data :=
  List.isPrefixOf_iff_prefix

/-- A payload as long as the command decides whether it is the command. -/
theorem isCommand_stale {command : String} (h : ¬ CutOff data command) :
    isCommand (received connection addr stale data) command =
      isCommand (received connection addr stale' data) command := by
  have hdata : ∀ stale : List Byte,
      ascii command <+: overwrite stale data ↔ ascii command <+: data := by
    intro stale
    constructor
    · intro hcommand
      rcases List.prefix_or_prefix_of_prefix hcommand (List.prefix_append data _) with hp | hp
      · exact hp
      · have heq : data = ascii command := by
          by_contra hne
          exact h ⟨hp, hne⟩
        exact heq ▸ List.prefix_rfl
    · intro hcommand
      exact hcommand.trans (List.prefix_append data _)
  rw [Bool.eq_iff_iff, isCommand_iff, isCommand_iff, hdata, hdata]

theorem strToWriteType_stale (h : ∀ command ∈ RequestServer.files.commands, ¬ CutOff data command) :
    strToWriteType (received connection addr stale data) =
      strToWriteType (received connection addr stale' data) := by
  have hsame : ∀ command ∈ RequestServer.files.commands,
      isCommand (received connection addr stale data) command =
        isCommand (received connection addr stale' data) command :=
    fun command hc => isCommand_stale (h command hc)
  simp only [strToWriteType, hsame "write-chars" (by decide), hsame "write-words" (by decide),
    hsame "write-buffer" (by decide)]

theorem RequestServer.obeys_of_complete {srv : RequestServer}
    (h : ∀ command ∈ srv.commands, ¬ CutOff data command) : srv.Obeys data := by
  intro connection addr stale stale' _ _
  have hsame : ∀ command ∈ srv.commands,
      isCommand (received connection addr stale data) command =
        isCommand (received connection addr stale' data) command :=
    fun command hc => isCommand_stale (h command hc)
  cases srv with
  | memoryOverhead g start pagesNum =>
    rw [memoryOverhead_reaction, memoryOverhead_reaction, hsame "overhead" (by simp [commands]),
      hsame "stop" (by simp [commands])]
    simp only [@keepRunning_stale connection addr stale stale' data]
  | measureFork =>
    rw [measureFork_reaction, measureFork_reaction, hsame "fork" (by simp [commands]),
      hsame "stop" (by simp [commands])]
    simp only [@keepRunning_stale connection addr stale stale' data]
  | files =>
    rw [files_reaction, files_reaction, hsame "stop" (by simp [commands]),
      @strToWriteType_stale connection addr stale stale' data h]
    have hwrite : ∀ wt, writeRequest (received connection addr stale data) wt =
        writeRequest (received connection addr stale' data) wt := by
      intro wt
      cases wt with
      | none => exact keepRunning_stale true (-1)
      | some wt => simp only [writeRequest, @keepRunning_stale connection addr stale stale' data]
    rw [hwrite, @keepRunning_stale connection addr stale stale' data]

/-! ## Payloads that are cut off -/

/-- A buffer that held a command before. -/
def heldBefore (command : String) : List Byte :=
  ascii command ++ List.replicate (4096 - (ascii command).length) 0

def wiped : List Byte := List.replicate 4096 0

theorem isCommand_heldBefore {command : String} (h : CutOff data command) :
    isCommand (received connection addr (heldBefore command) data) command = true := by
  obtain ⟨rest, hrest⟩ := h.1
  rw [isCommand_iff, heldBefore, ← hrest, overwrite, List.append_assoc, List.drop_left,
    ← List.append_assoc]
  exact List.prefix_append _ _

/-- Only a command that is there in full is found in a buffer that was wiped. -/
theorem prefix_of_wiped {command : String} (hnul : 0 ∉ ascii command)
    (h : isCommand (received connection addr wiped data) command = true) :
    ascii command <+: data := by
  have hstart := (isCommand_iff command).mp h
  rcases List.prefix_or_prefix_of_prefix hstart (List.prefix_append data _) with hp | hp
  · exact hp
  · obtain ⟨rest, hrest⟩ := hp
    rw [← hrest, overwrite, List.prefix_append_right_inj] at hstart
    cases rest with
    | nil => rw [← hrest, List.append_nil]
    | cons b rest =>
      have hmem : b ∈ wiped.drop data.length := hstart.subset List.mem_cons_self
      have hzero : b = 0 := (List.mem_replicate.mp (List.mem_of_mem_drop hmem)).2
      exact absurd (by simp [← hrest, hzero]) hnul

/-- The commands of a server are words none of which begins another one. -/
theorem RequestServer.commands_apart (srv : RequestServer) :
    (∀ c ∈ srv.commands, (ascii c).length ≤ 4096 ∧ 0 ∉ ascii c) ∧
      ∀ c ∈ srv.commands, ∀ c' ∈ srv.commands, ascii c <+: ascii c' → c = c' := by
  cases srv with
  | memoryOverhead g start pagesNum =>
    simp only [commands]
    decide
  | measureFork =>
    simp only [commands]
    decide
  | files =>
    simp only [commands]
    decide

variable {srv : RequestServer}

theorem RequestServer.not_command_of_wiped {command command' : String}
    (hcommand : command ∈ srv.commands) (hcommand' : command' ∈ srv.commands)
    (h : CutOff data command) :
    isCommand (received connection addr wiped data) command' = false := by
  by_contra hfound
  have hstart := prefix_of_wiped ((srv.commands_apart.1 command' hcommand').2)
    (Bool.eq_true_of_not_eq_false hfound)
  have heq : command' = command :=
    srv.commands_apart.2 command' hcommand' command hcommand (hstart.trans h.1)
  rw [heq] at hstart
  exact h.2 (h.1.eq_of_length (Nat.le_antisymm h.1.length_le hstart.length_le))

/-- A buffer begins with one command at most. -/
theorem RequestServer.command_unique {command command' : String}
    (hcommand : command ∈ srv.commands) (hcommand' : command' ∈ srv.commands)
    (h : isCommand (received connection addr stale data) command = true) (hne : command' ≠ command) :
    isCommand (received connection addr stale data) command' = false := by
  by_contra hfound
  have hstart := (isCommand_iff command).mp h
  have hstart' := (isCommand_iff command').mp (Bool.eq_true_of_not_eq_false hfound)
  rcases List.prefix_or_prefix_of_prefix hstart hstart' with hp | hp
  · exact hne (srv.commands_apart.2 _ hcommand _ hcommand' hp).symm
  · exact hne (srv.commands_apart.2 _ hcommand' _ hcommand hp)

/-- Without a command the server goes back to accept. -/
theorem RequestServer.reaction_idle
    (h : ∀ command ∈ srv.commands,
      isCommand (received connection addr stale data) command = false) :
    ∃ rc, srv.reaction connection addr stale data =
      keepRunning true rc (received connection addr stale data) := by
  cases srv with
  | memoryOverhead g start pagesNum =>
    refine ⟨data.length, ?_⟩
    rw [memoryOverhead_reaction, h "overhead" (by simp [commands]), h "stop" (by simp [commands])]
    rfl
  | measureFork =>
    refine ⟨data.length, ?_⟩
    rw [measureFork_reaction, h "fork" (by simp [commands]), h "stop" (by simp [commands])]
    rfl
  | files =>
    refine ⟨-1, ?_⟩
    rw [files_reaction, h "stop" (by simp [commands]), strToWriteType,
      h "write-chars" (by simp [commands]), h "write-words" (by simp [commands]),
      h "write-buffer" (by simp [commands])]
    rfl

/-- Answers to what is cleaned up after a request. -/
def cleaning : (c : Call) → Option c.Answer
  | .free _ => some ()
  | .close _ => some ()
  | _ => none

theorem keepRunning_cleaned (keep : Bool) (rc : ℤ) :
    @Prog.resume system cleaning _ (keepRunning keep rc (received connection addr stale data)) =
      .ret (if keep then .inl () else .inr (.stop rc)) := by
  unfold keepRunning netMsgCleanup
  by_cases hconnection : 0 ≤ connection
  · simp only [received, hconnection, freeBuffer, if_true]
    cases keep <;> rfl
  · simp only [received, hconnection, freeBuffer, if_false]
    cases keep <;> rfl

theorem keepRunning_ne_stopped (rc rc' : ℤ) :
    keepRunning true rc (received connection addr stale data) ≠
      keepRunning false rc' (received connection addr stale' data) := by
  intro h
  have hcleaned := congrArg (@Prog.resume system cleaning _) h
  rw [keepRunning_cleaned, keepRunning_cleaned] at hcleaned
  simp at hcleaned

/-- The next call tells a program that cleans up from one that does not. -/
theorem ne_of_next {p : SysProg (Unit ⊕ LoopExit)} {rc : ℤ} {c : Call}
    (h : @Prog.next system _ p = some c) (hc : c ≠ .free addr) :
    p ≠ keepRunning true rc (received connection addr stale data) := by
  rintro rfl
  exact hc (Option.some.inj h).symm

theorem overhead_next (g : Globals) (start : ℕ) (pagesNum : ULong) (rc : ℤ)
    (f : Bool × ℤ → SysProg (Unit ⊕ LoopExit)) :
    ∃ c, @Prog.next system _ ((overhead g start pagesNum rc).bind f) = some c ∧
      c ≠ .free addr := by
  unfold overhead
  split
  · exact ⟨.fork, rfl, by simp⟩
  · exact ⟨.memTouchPages start pagesNum, rfl, by simp⟩

/-- A server that finds a command does not just go back to accept. -/
theorem RequestServer.reaction_busy {command : String} (hcommand : command ∈ srv.commands)
    (h : isCommand (received connection addr stale data) command = true) (rc : ℤ) :
    srv.reaction connection addr stale data ≠
      keepRunning true rc (received connection addr stale' data) := by
  have hother : ∀ other ∈ srv.commands, other ≠ command →
      isCommand (received connection addr stale data) other = false :=
    fun other ho hne => command_unique hcommand ho h hne
  cases srv with
  | memoryOverhead g start pagesNum =>
    rw [memoryOverhead_reaction]
    rcases List.mem_pair.mp hcommand with rfl | rfl
    · rw [if_pos h]
      obtain ⟨c, hnext, hc⟩ := @overhead_next addr g start pagesNum data.length _
      exact ne_of_next hnext hc
    · rw [hother "overhead" (by simp [commands]) (by decide), h]
      exact (keepRunning_ne_stopped rc _).symm
  | measureFork =>
    rw [measureFork_reaction]
    rcases List.mem_pair.mp hcommand with rfl | rfl
    · rw [if_pos h]
      exact @ne_of_next _ addr _ _ _ _ .fork rfl (by simp)
    · rw [hother "fork" (by simp [commands]) (by decide), h]
      exact (keepRunning_ne_stopped rc _).symm
  | files =>
    rw [files_reaction]
    by_cases hstop : command = "stop"
    · subst hstop
      rw [if_pos h]
      exact (keepRunning_ne_stopped rc _).symm
    · have hwrite : ∃ wt, strToWriteType (received connection addr stale data) = some wt := by
        have hmem : command = "write-chars" ∨ command = "write-words" ∨
            command = "write-buffer" := by
          simpa [commands, hstop] using hcommand
        unfold strToWriteType
        rcases hmem with rfl | rfl | rfl
        · exact ⟨.chars, by rw [h]; rfl⟩
        · refine ⟨.words, ?_⟩
          rw [hother "write-chars" (by simp [commands]) (by decide), h]
          rfl
        · refine ⟨.buffer, ?_⟩
          rw [hother "write-chars" (by simp [commands]) (by decide),
            hother "write-words" (by simp [commands]) (by decide), h]
          rfl
      obtain ⟨wt, hwt⟩ := hwrite
      rw [hother "stop" (by simp [commands]) (Ne.symm hstop), hwt]
      exact @ne_of_next _ addr _ _ _ _ (.openFile (ascii "/root/data")) rfl (by simp)

theorem RequestServer.Obeys.complete (h : srv.Obeys data) :
    ∀ command ∈ srv.commands, ¬ CutOff data command := by
  intro command hcommand hcut
  have hlen : (heldBefore command).length = 4096 := by
    have hle := (srv.commands_apart.1 command hcommand).1
    rw [heldBefore, List.length_append, List.length_replicate]
    omega
  have hsame := h 3 0 (heldBefore command) wiped hlen List.length_replicate
  obtain ⟨rc, hidle⟩ := @reaction_idle 3 0 wiped data srv
    (fun command' hcommand' => not_command_of_wiped hcommand hcommand' hcut)
  rw [hidle] at hsame
  exact reaction_busy hcommand (isCommand_heldBefore hcut) rc hsame

/-- What was in the buffer before can only take the place of what a command was cut off. -/
theorem RequestServer.obeys_iff_complete (srv : RequestServer) (data : List Byte) :
    srv.Obeys data ↔ ∀ command ∈ srv.commands, ¬ CutOff data command :=
  ⟨Obeys.complete, obeys_of_complete⟩

/-- An empty request is answered with an overhead request of before. -/
theorem memoryOverhead_disobeys :
    ¬ (RequestServer.memoryOverhead { Globals.initial with doFork := true } 4096 1).Obeys [] := by
  intro h
  exact h.complete "overhead" (by simp [RequestServer.commands]) ⟨List.nil_prefix, by decide⟩

end CloningApps.Server
