import CloningApps.Interaction.Always
import CloningApps.Net.SendTime

/-! # Waiting for an acknowledgement that is late

The collector answers after a number of waits that time out. A timeout reaches
`send_time` as the `-1` of `recv`, which is also how it learns of an error.
-/

namespace CloningApps.Net
open Text Interaction Os Cmdline

/-- The datagrams sent, and how often the process has waited for an answer. -/
structure Link where
  sent : List (SockAddr × List Byte)
  waits : ℕ

namespace Link

/-- Sending succeeds and the first `k` waits time out. -/
def legal (k : ℕ) (ip : UInt) (now : Timeval) (l : Link) : (c : Call) → c.Answer → Prop
  | .gettimeofday, r => r = (0, now)
  | .osNetIpGetGw, r => r = (0, ip)
  | .sendto .., rc => 0 ≤ rc
  | .osSocketSetTimeout .., rc => 0 ≤ rc
  | .recv .., none => l.waits < k
  | .recv _ size, some data => l.waits = k ∧ data ≠ [] ∧ (data.length : ℤ) ≤ size
  | _, _ => True

def effect (l : Link) : (c : Call) → c.Answer → Link
  | .sendto _ addr port data, _ => { l with sent := l.sent ++ [(⟨addr, port⟩, data)] }
  | .recv .., _ => { l with waits := l.waits + 1 }
  | _, _ => l

end Link

def slowLink (k : ℕ) (ip : UInt) (now : Timeval) : Env system Link where
  legal := Link.legal k ip now
  effect := Link.effect
  drift := fun _ _ => False

theorem slowLink_still (k : ℕ) (ip : UInt) (now : Timeval) : (slowLink k ip now).Still :=
  fun _ _ h => h

/-- The message is sent once more for each wait that timed out, and then acknowledged. -/
def Retransmits (g : Globals) (sock : Mysocket) (tv : Option Timeval) (suffix : Option CStr)
    (ip : UInt) (now : Timeval) (k : ℕ) : Prop :=
  Always (slowLink k ip now)
    (fun rc l => rc = 0 ∧ l.sent = List.replicate (k + 1)
      (⟨ip, COLLECTOR_PORT⟩, timeMessage (tv.getD now) suffix))
    (sendTime g sock tv suffix) ⟨[], 0⟩

variable {sock : Mysocket} {ip : UInt} {now : Timeval} {k : ℕ} {l : Link} {message : CStr}

theorem acknowledgement_legal (s : Fd) (hwaits : l.waits = 0) :
    ∃ a, (slowLink 0 ip now).legal l (.recv s 64) a := by
  let acknowledged : Option (List Byte) := some [65]
  exact ⟨acknowledged, hwaits, List.cons_ne_nil 65 [], by simp⟩

/-- The first answer arrives in time. -/
theorem sendRound_acknowledged (hwaits : l.waits = 0) :
    Always (slowLink 0 ip now)
      (fun r l' => r = .inr 0 ∧ l'.sent = l.sent ++ [(⟨ip, COLLECTOR_PORT⟩, message)])
      (sendRound sock ip message) l := by
  apply Always.call ⟨(0 : ℤ), le_refl (0 : ℤ)⟩
  intro (rc : ℤ) hrc
  have hrc : 0 ≤ rc := hrc
  simp only [Prog.bind, not_lt.mpr hrc, if_false]
  apply Always.call ⟨(0 : ℤ), le_refl (0 : ℤ)⟩
  intro (rc : ℤ) hrc
  have hrc : 0 ≤ rc := hrc
  simp only [Prog.bind, not_lt.mpr hrc, if_false]
  apply Always.call
  · exact acknowledgement_legal sock.s hwaits
  · intro data hdata
    cases data with
    | none => exact absurd hdata (by simp [slowLink, Link.legal, Link.effect])
    | some data =>
      have hne : data ≠ [] := hdata.2.1
      have hpos : (0 : ℤ) < data.length := by
        simpa using List.length_pos_iff.mpr hne
      have hneg : ¬ (data.length : ℤ) < 0 := by omega
      simp only [Prog.ret_bind, Prog.pure_eq, if_neg hneg, if_pos hpos]
      exact .ret ⟨rfl, rfl⟩

theorem sendTimeval_acknowledged (suffix : Option CStr) (tv : Timeval) (hwaits : l.waits = 0) :
    Always (slowLink 0 ip now)
      (fun rc l' => rc = 0 ∧
        l'.sent = l.sent ++ [(⟨ip, COLLECTOR_PORT⟩, timeMessage tv suffix)])
      (sendTimeval sock suffix tv) l := by
  apply Always.call ⟨(0, ip), rfl⟩
  intro r hr
  obtain rfl : r = (0, ip) := hr
  simp only [Prog.bind, ne_eq, not_true_eq_false, if_false]
  apply Always.loop
  apply Always.bind
  apply (sendRound_acknowledged hwaits).mono
  rintro _ l' ⟨rfl, hsent⟩
  exact .ret ⟨rfl, hsent⟩

/-- A wait that times out ends the call. -/
theorem sendTimeval_gives_up (suffix : Option CStr) (tv : Timeval) (hwaits : l.waits < k) :
    Returns (slowLink k ip now) (fun rc _ => rc = -1) (sendTimeval sock suffix tv) l := by
  let gateway : ℤ × UInt := (0, ip)
  let timeout : Option (List Byte) := none
  apply Returns.call gateway (Eq.refl ((0, ip) : ℤ × UInt))
  apply Returns.loop
  apply Returns.call (0 : ℤ) (le_refl (0 : ℤ))
  apply Returns.call (0 : ℤ) (le_refl (0 : ℤ))
  apply Returns.call timeout hwaits
  exact .ret rfl

/-- `send_time` gets its message through exactly when no wait times out. -/
theorem sendTime_retransmits_iff (g : Globals) (hg : g.doSendTime = true) (sock : Mysocket)
    (tv : Option Timeval) (suffix : Option CStr) (ip : UInt) (now : Timeval) (k : ℕ) :
    Retransmits g sock tv suffix ip now k ↔ k = 0 := by
  have hE := slowLink_still k ip now
  unfold Retransmits sendTime
  simp only [hg, Bool.not_true, Bool.false_eq_true, if_false]
  constructor
  · intro h
    by_contra hk
    have hfails : ∀ p : SysProg ℤ, ∀ post : ℤ → Link → Prop,
        (∀ rc l, post rc l → rc = 0) → Always (slowLink k ip now) post p ⟨[], 0⟩ →
        ¬ Returns (slowLink k ip now) (fun rc _ => rc = -1) p ⟨[], 0⟩ := by
      intro p post hpost hp hr
      obtain ⟨rc, l, h0, h1⟩ := hp.returned hE hr
      have hzero : rc = 0 := hpost rc l h0
      omega
    apply hfails _ _ (fun _ _ h => h.1) h
    cases tv with
    | some tv => exact sendTimeval_gives_up suffix tv (Nat.pos_of_ne_zero hk)
    | none =>
      let clock : ℤ × Timeval := (0, now)
      apply Returns.call clock (Eq.refl ((0, now) : ℤ × Timeval))
      exact sendTimeval_gives_up suffix now (Nat.pos_of_ne_zero hk)
  · rintro rfl
    cases tv with
    | some tv => exact sendTimeval_acknowledged (l := ⟨[], 0⟩) suffix tv rfl
    | none =>
      apply Always.call ⟨(0, now), rfl⟩
      intro r hr
      obtain rfl : r = (0, now) := hr
      exact sendTimeval_acknowledged (l := ⟨[], 0⟩) suffix now rfl

/-- Without a timeout the message is sent once. -/
theorem sendTime_retransmits_iff_prompt :
    Retransmits { Globals.initial with doSendTime := true } ⟨3, 32767⟩ none none 2130706433
      ⟨5, 7⟩ 0 :=
  (sendTime_retransmits_iff { Globals.initial with doSendTime := true } rfl ⟨3, 32767⟩ none none
    2130706433 ⟨5, 7⟩ 0).mpr rfl

/-- After one timeout nothing is sent again. -/
theorem sendTime_gives_up :
    ¬ Retransmits { Globals.initial with doSendTime := true } ⟨3, 32767⟩ (some ⟨5, 7⟩) none
      2130706433 ⟨5, 7⟩ 1 := by
  intro h
  obtain ⟨rc, l, ⟨h0, -⟩, h1⟩ := h.returned (slowLink_still 1 2130706433 ⟨5, 7⟩)
    (sendTimeval_gives_up none ⟨5, 7⟩ Nat.one_pos)
  exact absurd (h0.symm.trans h1) (by decide)

end CloningApps.Net
