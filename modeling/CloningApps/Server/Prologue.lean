import CloningApps.Net.SendTime

/-! # What the servers do before they serve

`server_prologue` reports the boot time and then makes children by forking or
by cloning, each of which reports from a socket of its own.
-/

namespace CloningApps.Server
open Text Interaction Os Cmdline Net

/-- `PORT_PARENT`. -/
def PORT_PARENT : Port := 32767

/-- The code returned and what was stored in `*is_child`, if anything. -/
structure Prologue where
  rc : ℤ
  isChild : Option Bool
  deriving DecidableEq

def parentSuffix (i : ℤ) : CStr := ascii "parent;" ++ decimalInt i

def childSuffix (i : ℤ) : CStr := ascii "child;" ++ decimalInt i

/-- The loop at index `i` with `n` rounds left. A process that forked is the child of its round
when `pid` is zero, and leaves the loop. -/
def forkLoop (os : Platform) (g : Globals) : ℕ → ℤ → Mysocket → Port → SysProg Prologue
  | 0, _, _, _ => return ⟨0, some false⟩
  | n + 1, i, sock, myport => do
    let myport := myport - 1
    let (rc, before) ← sys .gettimeofday
    if rc ≠ 0 then
      return ⟨rc, none⟩
    let pid ← sys .fork
    -- the code of the successful `gettimeofday` is what is returned here
    if pid < 0 then
      return ⟨rc, none⟩
    let (rc, after) ← sys .gettimeofday
    if rc ≠ 0 then
      return ⟨rc, none⟩
    let res := timersub after before
    if pid = 0 then
      if g.doSendTime then
        let rc ← mysocketFini sock
        if rc ≠ 0 then
          return ⟨rc, none⟩
        let (rc, sock) ← mysocketInit os .report sock .dgram myport
        if rc ≠ 0 then
          return ⟨rc, none⟩
        let _ ← sendTime g sock (some res) (some (childSuffix i))
        return ⟨rc, some true⟩
      return ⟨rc, some true⟩
    else
      if g.doSendTime then
        let _ ← sendTime g sock (some res) (some (parentSuffix i))
      forkLoop os g n (i + 1) sock myport

/-- Without a round `rc` is never assigned. -/
def forkPrologue (os : Platform) (g : Globals) (sock : Mysocket) (myport : Port) :
    SysProg Prologue := do
  if g.childrenNum ≤ 0 then
    return ⟨← sys .indeterminate, some false⟩
  forkLoop os g g.childrenNum.toNat 0 sock myport

/-- The settings are those after `os_clone`, which changes them in a clone. -/
def clonePrologue (os : Platform) (g : Globals) (sock : Mysocket) (myport : Port) :
    SysProg (Prologue × Globals) := do
  let myparentid ← sys .osGetSelfId
  let (rc, before) ← sys .gettimeofday
  if rc ≠ 0 then
    return (⟨rc, none⟩, g)
  let (rcClone, g) ← sys (.osClone (BitVec.ofInt 32 g.childrenNum) g)
  if rcClone < 0 then
    return (⟨rcClone, none⟩, g)
  let (rc, after) ← sys .gettimeofday
  if rc ≠ 0 then
    return (⟨rc, none⟩, g)
  let res := timersub after before
  if g.doSendTime then
    if rcClone = 0 then
      let _ ← sendTime g sock (some res) (some (parentSuffix myparentid.toInt))
      return (⟨rc, some false⟩, g)
    else if rcClone = 1 then
      let rc ← mysocketFini sock
      if rc ≠ 0 then
        return (⟨rc, none⟩, g)
      let myid ← sys .osGetSelfId
      let index := myid - myparentid
      let (rc, sock) ← mysocketInit os .report sock .dgram (myport - index.truncate 16)
      if rc ≠ 0 then
        return (⟨rc, none⟩, g)
      let _ ← sendTime g sock (some res) (some (childSuffix index.toInt))
      return (⟨rc, some true⟩, g)
    else
      return (⟨rc, none⟩, g)
  return (⟨rc, some (rcClone = 1)⟩, g)

/-- A local `struct mysocket` before anything was stored in it. -/
def uninitialisedSocket : SysProg Mysocket := do
  let s ← sys .indeterminate
  let port ← sys .indeterminate
  return ⟨s, BitVec.ofInt 16 port⟩

/-- Neither a report nor a child is asked for. -/
structure Plain (g : Globals) : Prop where
  report : g.doSendTime = false
  fork : g.doFork = false
  clone : g.doClone = false

/-- What `server_prologue` does with the socket once the boot time is reported. -/
def afterReport (os : Platform) (g : Globals) (su : Mysocket) (myport : Port) :
    SysProg (Prologue × Globals) := do
  if g.doFork then
    return (← forkPrologue os g su myport, g)
  else if g.doClone then
    clonePrologue os g su myport
  else
    return (⟨← mysocketFini su, none⟩, g)

def serverPrologue (os : Platform) (g : Globals) : SysProg (Prologue × Globals) := do
  let su ← uninitialisedSocket
  if g.doSendTime then
    let (rc, su) ← mysocketInit os .report su .dgram PORT_PARENT
    if rc ≠ 0 then
      return (⟨rc, none⟩, g)
    let rc ← sendTime g su none none
    if rc ≠ 0 then
      return (⟨rc, none⟩, g)
    afterReport os g su PORT_PARENT
  else
    let myport ← sys .indeterminate
    afterReport os g su (BitVec.ofInt 16 myport)

end CloningApps.Server
