import CloningApps.Interaction.Exec
import CloningApps.Server.Prologue

/-! # The reports of a process

While every call succeeds, a process is described by its sockets and by the
datagrams it has sent. A report is one message to the collector; it is sent
again for every empty datagram that arrives in place of an acknowledgement.
-/

namespace CloningApps.Server
open Text Interaction Os Cmdline Net

/-- A socket as its process sees it. A port that the system picks, as for a socket that was
never bound, is `0`. -/
structure Endpoint where
  own : Bool
  port : Port
  deriving DecidableEq

structure Datagram where
  socket : Fd
  endpoint : Endpoint
  dest : SockAddr
  data : List Byte
  deriving DecidableEq

structure Reporter where
  endpoint : Fd → Endpoint
  closed : List Fd
  sent : List Datagram
  emptyAcks : ℕ
  cloned : Bool

/-- A process that has sent nothing, with sockets that are not its own. -/
def Reporter.start (port : Fd → Port) : Reporter :=
  ⟨fun s => ⟨false, port s⟩, [], [], 0, false⟩

/-- What cloning answers, and the identifiers before and after it. -/
structure Cloning where
  answer : UInt → Globals → ℤ × Globals → Prop
  idBefore : UInt
  idAfter : UInt

namespace Reporter

/-- The answers of calls that succeed. The answer of `fork` is the one in the parent. -/
def succeeds (k : Cloning) (w : Reporter) : (c : Call) → c.Answer → Prop
  | .gettimeofday, r => r.1 = 0
  | .fork, pid => 0 < pid
  | .osClone n g, r => k.answer n g r
  | .osGetSelfId, id => id = if w.cloned then k.idAfter else k.idBefore
  | .socket .., s => 0 ≤ s
  | .setReuseAddr _, rc => rc = 0
  | .bind .., rc => rc = 0
  | .sendto .., rc => 0 ≤ rc
  | .osSocketSetTimeout .., rc => 0 ≤ rc
  | .osNetIpGetGw, r => r.1 = 0
  | .recv .., data => data ≠ none
  | _, _ => True

def opened (w : Reporter) (s : Fd) (port : Port) : Reporter :=
  { w with endpoint := Function.update w.endpoint s ⟨true, port⟩ }

def close (w : Reporter) (s : Fd) : Reporter :=
  { w with endpoint := Function.update w.endpoint s ⟨false, 0⟩, closed := w.closed ++ [s] }

def bind (w : Reporter) (s : Fd) (port : Port) : Reporter :=
  { w with endpoint := Function.update w.endpoint s { w.endpoint s with port := port } }

def sendto (w : Reporter) (s : Fd) (dest : SockAddr) (data : List Byte) : Reporter :=
  { w with sent := w.sent ++ [⟨s, w.endpoint s, dest, data⟩] }

def effect (w : Reporter) : (c : Call) → c.Answer → Reporter
  | .socket .., s => w.opened s 0
  | .bind s port, _ => w.bind s port
  | .close s, _ => w.close s
  | .sendto s addr port data, _ => w.sendto s ⟨addr, port⟩ data
  | .recv .., some [] => { w with emptyAcks := w.emptyAcks + 1 }
  | .osClone .., _ => { w with cloned := true }
  | _, _ => w

/-- A datagram sent `n` times, each time with an empty answer. -/
def unanswered (w : Reporter) (d : Datagram) (n : ℕ) : Reporter :=
  { w with sent := w.sent ++ List.replicate n d, emptyAcks := w.emptyAcks + n }

/-- A datagram sent `n + 1` times, with an empty answer to all but the last. -/
def report (w : Reporter) (d : Datagram) (n : ℕ) : Reporter :=
  { w with sent := w.sent ++ List.replicate (n + 1) d, emptyAcks := w.emptyAcks + n }

@[simp] theorem sent_opened (w : Reporter) (s : Fd) (port : Port) :
    (w.opened s port).sent = w.sent := rfl

@[simp] theorem sent_close (w : Reporter) (s : Fd) : (w.close s).sent = w.sent := rfl

@[simp] theorem sent_bind (w : Reporter) (s : Fd) (port : Port) :
    (w.bind s port).sent = w.sent := rfl

@[simp] theorem unanswered_zero (w : Reporter) (d : Datagram) : w.unanswered d 0 = w := by
  simp [unanswered]

theorem sendto_unanswered (w : Reporter) (s : Fd) (dest : SockAddr) (data : List Byte) (n : ℕ) :
    (w.unanswered ⟨s, w.endpoint s, dest, data⟩ n).sendto s dest data =
      w.report ⟨s, w.endpoint s, dest, data⟩ n := by
  simp [sendto, unanswered, report, List.replicate_succ']

@[simp] theorem endpoint_opened (w : Reporter) (s : Fd) (port : Port) :
    (w.opened s port).endpoint s = ⟨true, port⟩ := Function.update_self ..

@[simp] theorem bind_opened (w : Reporter) (s : Fd) (port port' : Port) :
    (w.opened s port).bind s port' = w.opened s port' := by
  simp [opened, bind]

end Reporter

def succeeding (k : Cloning) : Env system Reporter where
  legal := Reporter.succeeds k
  effect := Reporter.effect
  drift := fun _ _ => False

theorem succeeding_still (k : Cloning) : (succeeding k).Still := fun _ _ h => h

/-- A report with a given suffix, sent from a given socket. -/
structure IsReport (s : Fd) (e : Endpoint) (suffix : CStr) (d : Datagram) : Prop where
  socket : d.socket = s
  endpoint : d.endpoint = e
  port : d.dest.port = COLLECTOR_PORT
  data : ∃ tv, d.data = timeMessage tv (some suffix)

/-- The reports `rs` were sent in this order as the datagrams `ds`, which hold `n` repetitions. -/
inductive Accounts : List Datagram → List Datagram → ℕ → Prop where
  | nil : Accounts [] [] 0
  | cons {rs ds : List Datagram} {k : ℕ} (d : Datagram) (n : ℕ) (h : Accounts rs ds k) :
      Accounts (d :: rs) (List.replicate (n + 1) d ++ ds) (n + k)

theorem Accounts.single (d : Datagram) (n : ℕ) :
    Accounts [d] (List.replicate (n + 1) d) n := by
  simpa using Accounts.cons d n .nil

/-- Without repetitions every report is sent once. -/
theorem Accounts.once {rs ds : List Datagram} {k : ℕ} (h : Accounts rs ds k) (hk : k = 0) :
    ds = rs := by
  induction h with
  | nil => rfl
  | cons d n _ ih =>
    obtain ⟨hn, hk⟩ := Nat.add_eq_zero_iff.mp hk
    simp [hn, ih hk]

/-! ## What the helpers do -/

variable {k : Cloning} {w : Reporter} {guard : Reporter → Call → Prop}

theorem mysocketFini_succeeds (sock : Mysocket)
    (hguard : ∀ w' c, w'.sent = w.sent → guard w' c) :
    Safe (succeeding k) guard
      (fun rc w' => rc = 0 ∧ w' = if 0 ≤ sock.s then w.close sock.s else w)
      (mysocketFini sock) w := by
  unfold mysocketFini
  split
  · exact Safe.call (succeeding_still k) (hguard _ _ rfl) (fun _ _ =>
      Safe.ret (succeeding_still k) ⟨rfl, rfl⟩)
  · exact Safe.ret (succeeding_still k) ⟨rfl, rfl⟩

theorem reuseAddress_succeeds (os : Platform) (s : Fd) (hguard : ∀ c, guard w c) :
    Safe (succeeding k) guard (fun rc w' => rc = 0 ∧ w' = w) (reuseAddress os s) w := by
  unfold reuseAddress
  split
  · exact Safe.ret (succeeding_still k) ⟨rfl, rfl⟩
  · apply Safe.call (succeeding_still k) (hguard _)
    intro (rc : ℤ) hrc
    have hrc : rc = 0 := hrc
    simp only [Prog.bind, hrc, lt_irrefl, if_false]
    exact Safe.ret (succeeding_still k) ⟨rfl, rfl⟩

/-- The socket is open and bound, unless the port is `0`. -/
theorem mysocketInit_succeeds (os : Platform) (sock : Mysocket) (port : Port)
    (hguard : ∀ w' c, w'.sent = w.sent → guard w' c) :
    Safe (succeeding k) guard
      (fun r w' => ∃ s, 0 ≤ s ∧ r = (0, ⟨s, port⟩) ∧ w' = w.opened s port)
      (mysocketInit os .report sock .dgram port) w := by
  apply Safe.call (succeeding_still k) (hguard _ _ rfl)
  intro (s : ℤ) hs
  have hs : 0 ≤ s := hs
  simp only [Prog.bind, not_lt.mpr hs, if_false]
  have hreuse : Safe (succeeding k) guard (fun rc v => rc = 0 ∧ v = w.opened s 0)
      (reuseAddress os s) (w.opened s 0) :=
    reuseAddress_succeeds os s (fun c => hguard _ c rfl)
  apply Safe.bind
  apply hreuse.mono
  rintro rc w' ⟨rfl, rfl⟩
  split
  next hport =>
    subst hport
    exact Safe.ret (succeeding_still k) ⟨s, hs, rfl, rfl⟩
  next hport =>
    refine Safe.call (succeeding_still k) (hguard _ _ rfl) (fun (rc : ℤ) hrc => ?_)
    have hrc : rc = 0 := hrc
    simp only [Prog.bind, hrc, lt_irrefl, if_false]
    exact Safe.ret (succeeding_still k) ⟨s, hs, rfl, Reporter.bind_opened ..⟩

@[simp] theorem overwrite_nil (bytes : List Byte) : overwrite bytes [] = bytes := rfl

/-- While a report is being sent, only repetitions of its datagram were sent. -/
theorem sendRound_succeeds (sock : Mysocket) (ip : UInt) (message : CStr) (n : ℕ)
    {d : Datagram} (hd : d = ⟨sock.s, w.endpoint sock.s, ⟨ip, COLLECTOR_PORT⟩, message⟩)
    (hguard : ∀ w' c n, w'.sent = w.sent ++ List.replicate n d → guard w' c) :
    Safe (succeeding k) guard
      (fun r w' => r = .inr 0 ∧ w' = w.report d n ∨
        r = .inl message ∧ w' = w.unanswered d (n + 1))
      (sendRound sock ip message) (w.unanswered d n) := by
  apply Safe.call (succeeding_still k) (hguard _ _ n rfl)
  intro (rc : ℤ) hrc
  have hrc : 0 ≤ rc := hrc
  have heffect : (succeeding k).effect (w.unanswered d n)
      (.sendto sock.s ip COLLECTOR_PORT message) rc = w.report d n := by
    rw [hd]
    exact Reporter.sendto_unanswered ..
  simp only [Prog.bind, not_lt.mpr hrc, if_false, heffect]
  apply Safe.call (succeeding_still k) (hguard _ _ (n + 1) rfl)
  intro (rc : ℤ) hrc
  have hrc : 0 ≤ rc := hrc
  simp only [Prog.bind, not_lt.mpr hrc, if_false]
  apply Safe.call (succeeding_still k) (hguard _ _ (n + 1) rfl)
  intro data hdata
  cases data with
  | none => exact absurd rfl hdata
  | some data =>
    cases data with
    | nil => exact Safe.ret (succeeding_still k) (.inr ⟨by simp, rfl⟩)
    | cons b bs =>
      have hpos : (0 : ℤ) < (b :: bs).length := by simp
      have hneg : ¬ ((b :: bs).length : ℤ) < 0 := by omega
      simp only [Prog.ret_bind, Prog.pure_eq, if_neg hneg, if_pos hpos]
      exact Safe.ret (succeeding_still k) (.inl ⟨rfl, rfl⟩)

/-- The report of a measured time. -/
theorem sendTime_succeeds {g : Globals} (hg : g.doSendTime = true) (sock : Mysocket)
    (tv : Timeval) (suffix : CStr)
    (hguard : ∀ w' c d n, IsReport sock.s (w.endpoint sock.s) suffix d →
      w'.sent = w.sent ++ List.replicate n d → guard w' c) :
    Safe (succeeding k) guard
      (fun _ w' => ∃ d n, IsReport sock.s (w.endpoint sock.s) suffix d ∧ w' = w.report d n)
      (sendTime g sock (some tv) (some suffix)) w := by
  have hreport : ∀ ip, IsReport sock.s (w.endpoint sock.s) suffix
      ⟨sock.s, w.endpoint sock.s, ⟨ip, COLLECTOR_PORT⟩, timeMessage tv (some suffix)⟩ :=
    fun ip => ⟨rfl, rfl, rfl, tv, rfl⟩
  unfold sendTime
  simp only [hg, Bool.not_true, Bool.false_eq_true, if_false]
  apply Safe.call (succeeding_still k) (hguard w _ _ 0 (hreport 0) (by simp))
  intro r hr
  have hr : r.1 = 0 := hr
  simp only [Prog.ret_bind, hr, ne_eq, not_true_eq_false, if_false]
  refine Safe.loop (fun message w' => message = timeMessage tv (some suffix) ∧ ∃ n,
    w' = w.unanswered ⟨sock.s, w.endpoint sock.s, ⟨r.2, COLLECTOR_PORT⟩, message⟩ n)
    (fun _ => (succeeding_still k).stable _) ?_ ⟨rfl, 0, (Reporter.unanswered_zero ..).symm⟩
  rintro message w' ⟨rfl, n, rfl⟩
  refine (sendRound_succeeds sock r.2 _ n rfl
    (fun w' c n h => hguard w' c _ n (hreport r.2) h)).mono ?_
  rintro x w' (⟨rfl, rfl⟩ | ⟨rfl, rfl⟩)
  · exact Safe.ret (succeeding_still k) ⟨_, n, hreport r.2, rfl⟩
  · exact ⟨rfl, n + 1, rfl⟩

/-! ## The helpers return when they are answered -/

theorem sendTime_returns {g : Globals} (hg : g.doSendTime = true) (sock : Mysocket) (tv : Timeval)
    (suffix : CStr) (w : Reporter) :
    Returns (succeeding k) (fun _ _ => True) (sendTime g sock (some tv) (some suffix)) w := by
  unfold sendTime
  simp only [hg, Bool.not_true, Bool.false_eq_true, if_false]
  let gateway : ℤ × UInt := (0, 0)
  let acknowledged : Option (List Byte) := some [97]
  refine .call gateway (Eq.refl (0 : ℤ)) (.loop ?_)
  refine .call (0 : ℤ) (le_refl (0 : ℤ)) (.call (0 : ℤ) (le_refl (0 : ℤ)) ?_)
  exact .call acknowledged (Option.some_ne_none [97]) (.ret trivial)

theorem mysocketFini_returns (sock : Mysocket) (w : Reporter) :
    Returns (succeeding k) (fun _ _ => True) (mysocketFini sock) w := by
  unfold mysocketFini
  split
  · exact .call () trivial (.ret trivial)
  · exact .ret trivial

theorem mysocketInit_returns (os : Platform) (sock : Mysocket) (port : Port) (w : Reporter) :
    Returns (succeeding k) (fun _ _ => True) (mysocketInit os .report sock .dgram port) w := by
  have hreuse : ∀ s w, Returns (succeeding k) (fun _ _ => True) (reuseAddress os s) w := by
    intro s w
    unfold reuseAddress
    split
    · exact .ret trivial
    · exact .call (0 : ℤ) (Eq.refl (0 : ℤ)) (.ret trivial)
  refine .call (0 : ℤ) (le_refl (0 : ℤ)) ?_
  simp only [Prog.bind, lt_irrefl, if_false]
  apply Returns.bind (hreuse _ _)
  intro rc w' _
  split
  · exact .ret trivial
  · exact .call (0 : ℤ) (Eq.refl (0 : ℤ)) (.ret trivial)

end CloningApps.Server
