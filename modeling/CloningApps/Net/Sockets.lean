import CloningApps.Os.Calls

/-! # The socket helpers

The functions of `common/net.c` in their order. A function that changes a
structure through a pointer returns the changed structure next to its code.
-/

namespace CloningApps.Net
open Text Interaction Os

structure Mysocket where
  s : Fd
  port : Port
  deriving DecidableEq

/-- Mini-OS has no `SO_REUSEADDR`. When setting it fails the socket is closed. -/
def reuseAddress (os : Platform) (s : Fd) : SysProg ℤ := do
  if os = .minios then
    return 0
  let rc ← sys (.setReuseAddr s)
  if rc < 0 then
    sys (.close s)
  return rc

/-- A socket that was closed for want of `SO_REUSEADDR` is bound all the same. -/
def mysocketInit (os : Platform) (use : SocketUse) (sock : Mysocket) (type : SocketType)
    (port : Port) : SysProg (ℤ × Mysocket) := do
  let s ← sys (.socket use type)
  if s < 0 then
    return (-1, { sock with s := s })
  let rc ← reuseAddress os s
  if port = 0 then
    return (rc, ⟨s, port⟩)
  let rc ← sys (.bind s port)
  if rc < 0 then
    sys (.close s)
    return (rc, { sock with s := s })
  return (rc, ⟨s, port⟩)

def mysocketFini (sock : Mysocket) : SysProg ℤ := do
  if 0 ≤ sock.s then
    sys (.close sock.s)
  return 0

/-- A message buffer with its address and contents, and the connection it belongs to. -/
structure NetMsg where
  connection : Fd
  netbuf : Option Block
  netbufSize : ℤ
  deriving DecidableEq

/-- After `memset`. -/
def NetMsg.zero : NetMsg := ⟨0, none, 0⟩

def netMsgInitBuffer (m : NetMsg) : SysProg (ℤ × NetMsg) := do
  match ← sys (.malloc .netbuf 4096) with
  | none => return (-ENOMEM, { m with netbuf := none, netbufSize := 4096 })
  | some block => return (0, { m with netbuf := some block, netbufSize := 4096 })

/-- The buffer of a message, allocated on first use. -/
def netMsgBuffer (m : NetMsg) : SysProg (ℤ × NetMsg) :=
  match m.netbuf with
  | none => netMsgInitBuffer m
  | some _ => return (0, m)

def freeBuffer : Option Block → SysProg Unit
  | none => return
  | some block => sys (.free block.addr)

/-- The pointer to the freed buffer stays in the message. -/
def netMsgCleanup (m : NetMsg) : SysProg NetMsg := do
  freeBuffer m.netbuf
  if 0 ≤ m.connection then
    sys (.close m.connection)
    return { m with connection := -1 }
  return m

/-! ## TCP -/

structure OsServer where
  listenerSocket : Mysocket
  deriving DecidableEq

def tcpServerStart (os : Platform) (srv : OsServer) (port : Port) : SysProg (ℤ × OsServer) := do
  let (rc, sock) ← mysocketInit os .listener srv.listenerSocket .stream port
  if rc ≠ 0 then
    return (rc, ⟨sock⟩)
  let rc ← sys (.listen sock.s 5)
  if rc ≠ 0 then
    sys (.close sock.s)
    return (rc, ⟨{ sock with s := -1 }⟩)
  return (rc, ⟨sock⟩)

def tcpServerStop (srv : OsServer) : SysProg (ℤ × OsServer) := do
  if 0 ≤ srv.listenerSocket.s then
    sys (.close srv.listenerSocket.s)
    return (0, ⟨{ srv.listenerSocket with s := -1 }⟩)
  return (0, srv)

def tcpServerStarted (srv : OsServer) : Bool := 0 ≤ srv.listenerSocket.s

def tcpServerAccept (srv : OsServer) : SysProg (ℤ × NetMsg) := do
  let connection ← sys (.accept srv.listenerSocket.s)
  let m : NetMsg := { NetMsg.zero with connection := connection }
  if connection < 0 then
    return (-1, ← netMsgCleanup m)
  let rc ← sys (.getpeername connection)
  if rc ≠ 0 then
    return (rc, ← netMsgCleanup m)
  return (0, m)

/-- The contents of a buffer after bytes were stored at its start. -/
def overwrite (bytes data : List Byte) : List Byte := data ++ bytes.drop data.length

def tcpServerRecvMsg (m : NetMsg) : SysProg (ℤ × NetMsg) := do
  let (rc, m) ← netMsgBuffer m
  match m.netbuf with
  | none => return (rc, m)
  | some block =>
    match ← sys (.recv m.connection m.netbufSize) with
    | none => return (-1, m)
    | some data =>
      return (data.length, { m with netbuf := some ⟨block.addr, overwrite block.bytes data⟩ })

def tcpServerSendMsg (m : NetMsg) : SysProg ℤ := do
  match m.netbuf with
  | none => return -EINVAL
  | some block => sys (.send m.connection (block.bytes.take m.netbufSize.toNat))

/-! ## UDP -/

def udpServerStart (os : Platform) (sock : Mysocket) (port : Port) : SysProg (ℤ × Mysocket) :=
  mysocketInit os .listener sock .dgram port

def udpServerRecvMsg (sock : Mysocket) (m : NetMsg) : SysProg (ℤ × NetMsg) := do
  let (rc, m) ← netMsgBuffer m
  match m.netbuf with
  | none => return (rc, m)
  | some block =>
    match ← sys (.recvfrom sock.s m.netbufSize) with
    | none => return (-1, m)
    | some (data, _) =>
      return (data.length, { m with netbuf := some ⟨block.addr, overwrite block.bytes data⟩ })

/-- The applications always pass a socket. -/
def udpClientSend (sock : Mysocket) (ip : UInt) (port : Port) (data : List Byte) : SysProg ℤ :=
  sys (.sendto sock.s ip port data)

/-- The returned code and the bytes stored at `data`. -/
def udpClientRecv (sock : Mysocket) (size timeoutMs : ℤ) : SysProg (ℤ × List Byte) := do
  let rc ← if timeoutMs ≠ 0 then sys (.osSocketSetTimeout sock.s timeoutMs) else pure 0
  if rc < 0 then
    return (rc, [])
  match ← sys (.recv sock.s size) with
  | none => return (-1, [])
  | some data => return (data.length, data)

end CloningApps.Net
