import CloningApps.Interaction.Frame
import CloningApps.Server.Programs

/-! # Which calls the helpers of a server make

A server starts, cleans up after a request and stops through a few calls each,
and everything that these calls leave alone is left alone by the helpers.
-/

namespace CloningApps.Server
open Text Interaction Os Cmdline Net

def StartCall : Call → Prop
  | .socket .. | .setReuseAddr _ | .bind .. | .close _ | .listen .. | .indeterminate => True
  | _ => False

def CleanupCall : Call → Prop
  | .free _ | .close _ => True
  | _ => False

/-- The calls that open a socket for a use, on a port. -/
def OpenCall (use : SocketUse) (port : Port) : Call → Prop
  | .socket use' _ => use' = use
  | .bind _ port' => port' = port
  | .setReuseAddr _ | .close _ => True
  | _ => False

theorem OpenCall.start {use : SocketUse} {port : Port} {c : Call} (h : OpenCall use port c) :
    StartCall c := by
  cases c with
  | socket | setReuseAddr | bind | close => trivial
  | _ => exact absurd h id

theorem reuseAddress_calls (os : Platform) (use : SocketUse) (port : Port) (s : Fd) :
    OnlyCalls (OpenCall use port) (reuseAddress os s) := by
  unfold reuseAddress
  split
  · exact .ret _
  · apply OnlyCalls.call trivial
    intro rc
    simp only [Prog.bind]
    split
    · exact .call trivial (fun _ => .ret _)
    · exact .ret _

theorem mysocketInit_openCalls (os : Platform) (use : SocketUse) (sock : Mysocket)
    (type : SocketType) (port : Port) :
    OnlyCalls (OpenCall use port) (mysocketInit os use sock type port) := by
  have hsocket : OpenCall use port (.socket use type) := rfl
  apply OnlyCalls.call hsocket
  intro s
  simp only [Prog.bind]
  split
  · exact .ret _
  · apply (reuseAddress_calls os use port s).bind
    intro rc
    split
    · exact .ret _
    · have hbind : OpenCall use port (.bind s port) := rfl
      apply OnlyCalls.call hbind
      intro rc
      simp only [Prog.bind]
      split
      · exact .call trivial (fun _ => .ret _)
      · exact .ret _

theorem mysocketInit_startCalls (os : Platform) (use : SocketUse) (sock : Mysocket)
    (type : SocketType) (port : Port) : OnlyCalls StartCall (mysocketInit os use sock type port) :=
  (mysocketInit_openCalls os use sock type port).mono (fun _ => OpenCall.start)

theorem mysocketFini_closes (sock : Mysocket) :
    OnlyCalls (· = Call.close sock.s) (mysocketFini sock) := by
  unfold mysocketFini
  split
  · exact .call rfl (fun _ => .ret _)
  · exact .ret _

theorem tcpServerStart_calls (os : Platform) (srv : OsServer) (port : Port) :
    OnlyCalls StartCall (tcpServerStart os srv port) := by
  apply (mysocketInit_startCalls ..).bind
  intro r
  dsimp only
  split
  · exact .ret _
  · apply OnlyCalls.call trivial
    intro rc
    simp only [Prog.bind]
    split
    · exact .call trivial (fun _ => .ret _)
    · exact .ret _

theorem uninitialisedServer_calls : OnlyCalls StartCall uninitialisedServer :=
  .call trivial (fun _ => .call trivial (fun _ => .ret _))

theorem tcpServerStop_calls (srv : OsServer) : OnlyCalls CleanupCall (tcpServerStop srv) := by
  unfold tcpServerStop
  split
  · exact .call trivial (fun _ => .ret _)
  · exact .ret _

theorem freeBuffer_calls (netbuf : Option Block) : OnlyCalls CleanupCall (freeBuffer netbuf) := by
  cases netbuf with
  | none => exact .ret _
  | some block => exact .call trivial (fun _ => .ret _)

theorem netMsgCleanup_calls (m : NetMsg) : OnlyCalls CleanupCall (netMsgCleanup m) := by
  apply (freeBuffer_calls m.netbuf).bind
  intro _
  split
  · exact .call trivial (fun _ => .ret _)
  · exact .ret _

/-! ## Writing files -/

def WriteCall : Call → Prop
  | .write .. | .assertFail => True
  | _ => False

theorem writeChars_calls (fd : Fd) (size : ULong) : OnlyCalls WriteCall (writeChars fd size) := by
  refine .loop (fun i => ?_) (fun _ => .ret _)
  split
  · apply OnlyCalls.call trivial
    intro rc
    simp only [Prog.pure_eq, Prog.bind]
    split <;> exact .ret _
  · exact .ret _

theorem writeWords_calls (fd : Fd) (size : ULong) : OnlyCalls WriteCall (writeWords fd size) := by
  refine .loop (fun count => ?_) (fun _ => .ret _)
  split
  · apply OnlyCalls.call trivial
    intro (rc : ℤ)
    simp only [Prog.pure_eq, Prog.bind]
    split
    · exact .ret _
    · split
      · exact .call trivial (fun nothing => nothing.elim)
      · exact .ret _
  · exact .ret _

/-- The calls that write a file, from opening it to closing it. -/
def FileCall : Call → Prop
  | .openFile _ | .write .. | .malloc .writeBuffer _ | .free _ | .close _ | .assertFail => True
  | _ => False

theorem WriteCall.file {c : Call} (h : WriteCall c) : FileCall c := by
  cases c with
  | write | assertFail => trivial
  | _ => exact absurd h id

theorem writeBuffer_calls (fd : Fd) (size : ULong) : OnlyCalls FileCall (writeBuffer fd size) := by
  apply OnlyCalls.call trivial
  intro block
  cases block with
  | none => exact .ret _
  | some buf =>
    refine .loop (fun offset => ?_) (fun _ => .ret _)
    split
    · apply OnlyCalls.call trivial
      intro (rc : ℤ)
      simp only [Prog.pure_eq, Prog.bind]
      split <;> exact .ret _
    · exact .call trivial (fun _ => .ret _)

theorem write_calls (wt : WriteType) (fd : Fd) (size : ULong) :
    OnlyCalls FileCall (wt.write fd size) := by
  cases wt with
  | chars => exact (writeChars_calls fd size).mono (fun _ => WriteCall.file)
  | words => exact (writeWords_calls fd size).mono (fun _ => WriteCall.file)
  | buffer => exact writeBuffer_calls fd size

end CloningApps.Server
