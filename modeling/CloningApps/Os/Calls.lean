import CloningApps.Interaction.Prog
import CloningApps.Cmdline.Settings

/-! # The calls of the applications

The applications run over libc (or lwip) and over the `os_*` functions that each
platform implements. A call carries the arguments that the callee reads and is
answered with what the callee returns and stores; logging is left out.
-/

namespace CloningApps.Os
open Text Interaction Cmdline

def EINVAL : ℤ := 22

def ENOMEM : ℤ := 12

structure Timeval where
  sec : ℤ
  usec : ℤ
  deriving DecidableEq

abbrev Fd := ℤ

/-- `unsigned short`. -/
abbrev Port := BitVec 16

/-- `unsigned int`, an IPv4 address or an identifier of a domain. -/
abbrev UInt := BitVec 32

inductive SocketType where
  | stream | dgram
  deriving DecidableEq

/-- Which of the program's sockets a `socket` call is for; the callee does not see it. -/
inductive SocketUse where
  | report | listener
  deriving DecidableEq

inductive BlockUse where
  | netbuf | writeBuffer
  deriving DecidableEq

/-- A block of the heap with what it holds when `malloc` returns it. -/
structure Block where
  addr : ℕ
  bytes : List Byte
  deriving DecidableEq

structure SockAddr where
  addr : UInt
  port : Port
  deriving DecidableEq

inductive Call where
  | gettimeofday
  | fork
  | osExit (status : ℤ)
  | osSleepMsec (msec : ℤ)
  | osClone (nrChildren : UInt) (g : Globals)
  | osGetSelfId
  | socket (use : SocketUse) (type : SocketType)
  | setReuseAddr (s : Fd)
  | bind (s : Fd) (port : Port)
  | listen (s : Fd) (backlog : ℤ)
  | accept (s : Fd)
  | getpeername (s : Fd)
  | recv (s : Fd) (size : ℤ)
  | recvfrom (s : Fd) (size : ℤ)
  | send (s : Fd) (data : List Byte)
  | sendto (s : Fd) (addr : UInt) (port : Port) (data : List Byte)
  | close (s : Fd)
  | osSocketSetTimeout (s : Fd) (timeoutMs : ℤ)
  | osNetIpGetGw
  | malloc (use : BlockUse) (size : ℕ)
  | free (addr : ℕ)
  | osAllocPages (pagesNum : ULong)
  | osFreePages (start : ℕ) (pagesNum : ULong)
  | memTouchPages (start : ℕ) (pagesNum : ULong)
  | openFile (filename : CStr)
  | write (fd : Fd) (count : ℕ)
  | assertFail
  | indeterminate

/-- `recv` and `recvfrom` answer with the bytes received, or with nothing for `-1`; pointers
answer with nothing for `NULL`. -/
@[reducible] def Call.Answer : Call → Type
  | .gettimeofday => ℤ × Timeval
  | .fork => ℤ
  | .osExit _ => Empty
  | .osSleepMsec _ => Unit
  | .osClone .. => ℤ × Globals
  | .osGetSelfId => UInt
  | .socket .. => Fd
  | .setReuseAddr _ => ℤ
  | .bind .. => ℤ
  | .listen .. => ℤ
  | .accept _ => Fd
  | .getpeername _ => ℤ
  | .recv .. => Option (List Byte)
  | .recvfrom .. => Option (List Byte × SockAddr)
  | .send .. => ℤ
  | .sendto .. => ℤ
  | .close _ => Unit
  | .osSocketSetTimeout .. => ℤ
  | .osNetIpGetGw => ℤ × UInt
  | .malloc .. => Option Block
  | .free _ => Unit
  | .osAllocPages _ => ℤ × ℕ
  | .osFreePages .. => ℤ
  | .memTouchPages .. => ℤ
  | .openFile _ => Fd
  | .write .. => ℤ
  | .assertFail => Empty
  | .indeterminate => ℤ

abbrev system : Interface := ⟨Call, Call.Answer⟩

abbrev SysProg := Prog system

/-- Make a call of the system. -/
abbrev sys (c : Call) : SysProg c.Answer := @Prog.ask system c

/-- The platforms the applications are built for. -/
inductive Platform where
  | posix | unikraft | minios
  deriving DecidableEq

end CloningApps.Os
