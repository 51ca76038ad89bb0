import CloningApps.Server.Prologue
import CloningApps.Memory.Size

/-! # The applications that serve requests

One program for each thread function. The body of an accept loop says whether
to go round again or with which code the loop is left.
-/

namespace CloningApps.Server
open Text Interaction Os Cmdline Net Memory

def DEFAULT_SERVER_PORT : Port := 6613

/-- A local `struct os_server` before anything was stored in it. -/
def uninitialisedServer : SysProg OsServer := do
  return ⟨← uninitialisedSocket⟩

/-- How an accept loop is left: towards `tcp_server_stop`, or past it by `goto out`. -/
inductive LoopExit where
  | stop (rc : ℤ)
  | out (rc : ℤ)

def LoopExit.rc : LoopExit → ℤ
  | .stop rc => rc
  | .out rc => rc

/-- What the TCP servers have in common, from `tcp_server_start` to `tcp_server_stop`. A server
that could not be started is not stopped either. -/
def serveTcp {σ : Type} (os : Platform) (round : OsServer → σ → SysProg (σ ⊕ LoopExit)) (s : σ) :
    SysProg LoopExit := do
  let (rc, srv) ← tcpServerStart os (← uninitialisedServer) DEFAULT_SERVER_PORT
  if rc ≠ 0 then
    return .stop rc
  match ← Prog.iterate (round srv) s with
  | .out rc => return .out rc
  | .stop rc =>
    let _ ← tcpServerStop srv
    return .stop rc

/-- A round accepts a connection and serves it; an accept that fails leaves the loop. -/
def acceptRound {σ : Type} (srv : OsServer) (serve : NetMsg → SysProg (σ ⊕ LoopExit)) :
    SysProg (σ ⊕ LoopExit) := do
  let (rc, m) ← tcpServerAccept srv
  if rc ≠ 0 then
    return .inr (.stop rc)
  serve m

/-! ## counter -/

/-- An `int` loaded from the start of a buffer, lowest byte first. -/
def loadInt (bytes : List Byte) : BitVec 32 :=
  BitVec.ofNat 32 ((bytes.take 4).foldr (fun b v => b.toNat + 256 * v) 0)

def storeInt (x : BitVec 32) : List Byte :=
  (List.range 4).map (fun i => (x.toNat / 256 ^ i).toUInt8)

/-- The counter in the message goes up by one, and only the counter is sent. -/
def countUp (m : NetMsg) : NetMsg :=
  match m.netbuf with
  | none => m
  | some block => { m with
      netbuf := some ⟨block.addr, overwrite block.bytes (storeInt (loadInt block.bytes + 1))⟩
      netbufSize := 4 }

/-- The end of a round in counter.c, server-tcp.c and children.c: a negative code leaves the
loop. -/
def cleanupRound {σ : Type} (s : σ) (rc : ℤ) (m : NetMsg) : SysProg (σ ⊕ LoopExit) := do
  let _ ← netMsgCleanup m
  if rc < 0 then
    return .inr (.stop rc)
  return .inl s

def counterServe (m : NetMsg) : SysProg (Unit ⊕ LoopExit) := do
  let (rc, m) ← tcpServerRecvMsg m
  if rc ≤ 0 then
    return ← cleanupRound () rc m
  let m := countUp m
  let rc ← tcpServerSendMsg m
  cleanupRound () rc m

def counterRound (srv : OsServer) (_ : Unit) : SysProg (Unit ⊕ LoopExit) :=
  acceptRound srv counterServe

def threadFuncCounter (os : Platform) (g : Globals) : SysProg ℤ := do
  let (p, _) ← serverPrologue os g
  if p.rc ≠ 0 then
    return p.rc
  return (← serveTcp os counterRound ()).rc

/-! ## server-tcp -/

/-- Receive until the connection ends. -/
def drainRound (m : NetMsg) : SysProg (NetMsg ⊕ (ℤ × NetMsg)) := do
  let (rc, m) ← tcpServerRecvMsg m
  if rc ≤ 0 then
    return .inr (rc, m)
  return .inl m

def serverTcpServe (m : NetMsg) : SysProg (Unit ⊕ LoopExit) := do
  let (rc, m) ← Prog.iterate drainRound m
  cleanupRound () rc m

def serverTcpRound (srv : OsServer) (_ : Unit) : SysProg (Unit ⊕ LoopExit) :=
  acceptRound srv serverTcpServe

def threadFuncServerTcp (os : Platform) (g : Globals) : SysProg ℤ := do
  let (p, _) ← serverPrologue os g
  if p.rc ≠ 0 then
    return p.rc
  return (← serveTcp os serverTcpRound ()).rc

/-! ## measure-fork -/

/-- `!strncmp(msg.netbuf, command, strlen(command))`. -/
def isCommand (m : NetMsg) (command : String) : Bool :=
  match m.netbuf with
  | none => false
  | some block => (ascii command).isPrefixOf block.bytes

/-- `keep_running` is tested after the message is cleaned up. -/
def keepRunning (keep : Bool) (rc : ℤ) (m : NetMsg) : SysProg (Unit ⊕ LoopExit) := do
  let _ ← netMsgCleanup m
  if keep then
    return .inl ()
  return .inr (.stop rc)

def measureForkServe (m : NetMsg) : SysProg (Unit ⊕ LoopExit) := do
  let (rc, m) ← tcpServerRecvMsg m
  if rc < 0 then
    return ← keepRunning false rc m
  if isCommand m "fork" then
    let pid ← sys .fork
    if pid = 0 then
      let nothing ← sys (.osExit 0)
      return nothing.elim
    keepRunning (0 < pid) rc m
  else
    keepRunning (!isCommand m "stop") rc m

def measureForkRound (srv : OsServer) (_ : Unit) : SysProg (Unit ⊕ LoopExit) :=
  acceptRound srv measureForkServe

/-- What memory-overhead and measure-fork do first with `memory_str`. -/
def requestedPages (osGetPageSize : BitVec 32) (osPageSize : ULong) (g : Globals) : Option ULong :=
  match g.memoryStr with
  | none => none
  | some s =>
    let pagesNum := (memsizeStr2pages osGetPageSize osPageSize s).1
    if pagesNum = 0 then none else some pagesNum

/-- Allocate pages and touch them, and give them back when they cannot be touched. -/
def withPages (pagesNum : ULong) (serve : ℕ → SysProg ℤ) : SysProg ℤ := do
  let (rc, start) ← sys (.osAllocPages pagesNum)
  if rc ≠ 0 then
    return rc
  let rc ← sys (.memTouchPages start pagesNum)
  if rc ≠ 0 then
    let _ ← sys (.osFreePages start pagesNum)
    return rc
  serve start

def threadFuncMeasureFork (os : Platform) (osGetPageSize : BitVec 32) (osPageSize : ULong)
    (g : Globals) : SysProg ℤ := do
  match requestedPages osGetPageSize osPageSize g with
  | none => return -1
  | some pagesNum =>
    let (p, _) ← serverPrologue os g
    if p.rc ≠ 0 then
      return p.rc
    withPages pagesNum (fun start => do
      let exit ← serveTcp os measureForkRound ()
      let _ ← sys (.osFreePages start pagesNum)
      return exit.rc)

/-! ## memory-overhead -/

/-- The request of memory-overhead; the flag says that the loop is left by `goto out`. -/
def overhead (g : Globals) (start : ℕ) (pagesNum : ULong) (rc : ℤ) : SysProg (Bool × ℤ) := do
  if g.doFork then
    let pid ← sys .fork
    if pid < 0 then
      return (true, rc)
    if pid = 0 then
      let rc ← sys (.memTouchPages start pagesNum)
      if rc ≠ 0 then
        return (true, rc)
      let nothing ← sys (.osExit 0)
      return nothing.elim
    return (false, rc)
  let rc ← sys (.memTouchPages start pagesNum)
  return (rc ≠ 0, rc)

def memoryOverheadServe (g : Globals) (start : ℕ) (pagesNum : ULong) (m : NetMsg) :
    SysProg (Unit ⊕ LoopExit) := do
  let (rc, m) ← tcpServerRecvMsg m
  if rc < 0 then
    return ← keepRunning false rc m
  if isCommand m "overhead" then
    let (out, rc) ← overhead g start pagesNum rc
    if out then
      return .inr (.out rc)
    keepRunning true rc m
  else
    keepRunning (!isCommand m "stop") rc m

def memoryOverheadRound (g : Globals) (start : ℕ) (pagesNum : ULong) (srv : OsServer)
    (_ : Unit) : SysProg (Unit ⊕ LoopExit) :=
  acceptRound srv (memoryOverheadServe g start pagesNum)

def threadFuncMemoryOverhead (os : Platform) (osGetPageSize : BitVec 32) (osPageSize : ULong)
    (g : Globals) : SysProg ℤ := do
  match requestedPages osGetPageSize osPageSize g with
  | none => return -1
  | some pagesNum =>
    withPages pagesNum (fun start => do
      match ← serveTcp os (memoryOverheadRound g start pagesNum) () with
      | .out rc => return rc
      | .stop rc =>
        let _ ← sys (.osFreePages start pagesNum)
        return rc)

/-! ## children -/

def childrenServe (g : Globals) (m : NetMsg) : SysProg (Globals ⊕ LoopExit) := do
  let (rc, m) ← tcpServerRecvMsg m
  if rc ≤ 0 then
    return ← cleanupRound g rc m
  let (rc, g) ← sys (.osClone 1 g)
  if rc < 0 then
    return .inr (.out rc)
  cleanupRound g rc m

/-- Without networking the application only sleeps. -/
def childrenRound (srv : OsServer) (g : Globals) : SysProg (Globals ⊕ LoopExit) := do
  if !tcpServerStarted srv then
    sys (.osSleepMsec 5000)
    return .inl g
  acceptRound srv (childrenServe g)

def threadFuncChildren (os : Platform) (g : Globals) : SysProg ℤ := do
  let (p, g) ← serverPrologue os g
  if p.rc ≠ 0 then
    return p.rc
  return (← serveTcp os childrenRound g).rc

/-! ## server-udp -/

/-- The comparison with the previous client only decides what is logged. -/
def serverUdpRound (listener : Mysocket) (_ : Unit) : SysProg (Unit ⊕ ℤ) := do
  let (rc, m) ← udpServerRecvMsg listener { NetMsg.zero with connection := -1 }
  if rc < 0 then
    return .inr rc
  let _ ← netMsgCleanup m
  return .inl ()

def threadFuncServerUdp (os : Platform) (g : Globals) : SysProg ℤ := do
  let (p, _) ← serverPrologue os g
  if p.rc ≠ 0 then
    return p.rc
  let (rc, listener) ← udpServerStart os (← uninitialisedSocket) DEFAULT_SERVER_PORT
  if rc ≠ 0 then
    return rc
  Prog.iterate (serverUdpRound listener) ()

/-! ## sleeper -/

def threadFuncSleeper : SysProg ℤ :=
  Prog.iterate (fun (_ : Unit) => do
    sys (.osSleepMsec 5000)
    return .inl ()) ()

/-! ## files -/

inductive WriteType where
  | chars | words | buffer
  deriving DecidableEq

def strToWriteType (m : NetMsg) : Option WriteType :=
  if isCommand m "write-chars" then some .chars
  else if isCommand m "write-words" then some .words
  else if isCommand m "write-buffer" then some .buffer
  else none

/-- The result of `write`, kept in an `int`. -/
def writeInt (fd : Fd) (count : ℕ) : SysProg ℤ := do
  return (← sys (.write fd count)).bmod (2 ^ 32)

def writeChars (fd : Fd) (size : ULong) : SysProg ℤ :=
  Prog.iterate (fun (i : ULong) => do
    if i < size then
      let rc ← writeInt fd 1
      if rc ≠ 1 then
        return .inr rc
      return .inl (i + 1)
    return .inr 0) 0

def writeWords (fd : Fd) (size : ULong) : SysProg ℤ :=
  Prog.iterate (fun (count : ULong) => do
    if count < size then
      let rc ← writeInt fd 8
      if rc < 0 then
        return .inr rc
      if rc ≠ 8 then
        let nothing ← sys .assertFail
        return nothing.elim
      return .inl (count + BitVec.ofInt 64 rc)
    return .inr 0) 0

/-- The buffer is freed only when all of it was written. -/
def writeBuffer (fd : Fd) (size : ULong) : SysProg ℤ := do
  match ← sys (.malloc .writeBuffer size.toNat) with
  | none => return -ENOMEM
  | some buf =>
    Prog.iterate (fun (offset : ULong) => do
      if offset < size then
        let rc ← writeInt fd (size - offset).toNat
        if rc < 0 then
          return .inr rc
        return .inl (offset + BitVec.ofInt 64 rc)
      sys (.free buf.addr)
      return .inr 0) 0

def WriteType.write (fd : Fd) (size : ULong) : WriteType → SysProg ℤ
  | .chars => writeChars fd size
  | .words => writeWords fd size
  | .buffer => writeBuffer fd size

def createFileWriteData (filename : CStr) (size : ULong) (wt : WriteType) : SysProg ℤ := do
  let fd ← sys (.openFile filename)
  if fd = -1 then
    return -1
  let rc ← wt.write fd size
  sys (.close fd)
  return rc

def runServerServe (m : NetMsg) : SysProg (Unit ⊕ LoopExit) := do
  let (rc, m) ← tcpServerRecvMsg m
  if rc < 0 then
    return ← keepRunning false rc m
  if isCommand m "stop" then
    keepRunning false rc m
  else
    match strToWriteType m with
    | none => keepRunning true (-1) m
    | some wt =>
      let rc ← createFileWriteData (ascii "/root/data") (4 * 1024 * 1024) wt
      keepRunning (rc = 0) rc m

def runServerRound (srv : OsServer) (_ : Unit) : SysProg (Unit ⊕ LoopExit) :=
  acceptRound srv runServerServe

def runServer (os : Platform) : SysProg ℤ := do
  return (← serveTcp os runServerRound ()).rc

def testServer (os : Platform) (g : Globals) : SysProg ℤ := do
  let (p, g) ← serverPrologue os g
  if p.rc ≠ 0 then
    return p.rc
  if g.doFork ∧ p.isChild ≠ some true then
    Prog.iterate (fun (_ : Unit) => do
      sys (.osSleepMsec 1000)
      return .inl ()) ()
  else
    runServer os

end CloningApps.Server
