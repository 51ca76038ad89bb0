import CloningApps.Net.Sockets

/-! # Reporting a time to the collector -/

namespace CloningApps.Net
open Text Interaction Os Cmdline

/-- A `long` printed with `%lu`. -/
def printLong (i : ℤ) : CStr := decimal (i % 2 ^ 64).toNat

/-- `%lu.%6.6lu`, and the suffix behind a semicolon. -/
def timeMessage (tv : Timeval) (suffix : Option CStr) : CStr :=
  printLong tv.sec ++ ascii "." ++ zeroPadded 6 (tv.usec % 2 ^ 64).toNat ++
    match suffix with
    | none => []
    | some s => ascii ";" ++ s

def timersub (a b : Timeval) : Timeval :=
  if a.usec - b.usec < 0 then ⟨a.sec - b.sec - 1, a.usec - b.usec + 1000000⟩
  else ⟨a.sec - b.sec, a.usec - b.usec⟩

/-- A time in microseconds. -/
def micros (tv : Timeval) : ℤ := tv.sec * 1000000 + tv.usec

theorem timersub_micros (a b : Timeval) : micros (timersub a b) = micros a - micros b := by
  simp only [timersub, micros]
  split <;> dsimp only <;> omega

/-- The microseconds of a time that is normalised. -/
def UsecNormal (tv : Timeval) : Prop := 0 ≤ tv.usec ∧ tv.usec < 1000000

theorem UsecNormal.timersub {a b : Timeval} (ha : UsecNormal a) (hb : UsecNormal b) :
    UsecNormal (timersub a b) := by
  obtain ⟨halo, hahi⟩ := ha
  obtain ⟨hblo, hbhi⟩ := hb
  simp only [UsecNormal, Net.timersub]
  split <;> dsimp only <;> omega

theorem UsecNormal.sec_nonneg {tv : Timeval} (h : UsecNormal tv) (hpos : 0 ≤ micros tv) :
    0 ≤ tv.sec := by
  obtain ⟨hlo, hhi⟩ := h
  simp only [micros] at hpos
  omega

def COLLECTOR_PORT : Port := 32764

/-- One round of the loop that waits for an acknowledgement. The message shares its buffer with
what is received, and is sent again only when nothing was stored there. -/
def sendRound (sock : Mysocket) (ip : UInt) (message : CStr) : SysProg (CStr ⊕ ℤ) := do
  let rc ← udpClientSend sock ip COLLECTOR_PORT message
  if rc < 0 then
    return .inr rc
  let (rc, data) ← udpClientRecv sock 64 2000
  if rc < 0 then
    return .inr rc
  if 0 < rc then
    return .inr 0
  return .inl (overwrite message data)

/-- `send_time` once it knows the time. -/
def sendTimeval (sock : Mysocket) (suffix : Option CStr) (tv : Timeval) : SysProg ℤ := do
  let (rc, ip) ← sys .osNetIpGetGw
  if rc ≠ 0 then
    return rc
  Prog.iterate (sendRound sock ip) (timeMessage tv suffix)

def sendTime (g : Globals) (sock : Mysocket) (tv : Option Timeval) (suffix : Option CStr) :
    SysProg ℤ := do
  if !g.doSendTime then
    return -1
  let (rc, tv) ← match tv with
    | some tv => pure (0, tv)
    | none => sys .gettimeofday
  if rc ≠ 0 then
    return rc
  sendTimeval sock suffix tv

end CloningApps.Net
