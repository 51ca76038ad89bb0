import CloningApps.Net.Lan

/-! # What the reports of many senders come to

What one sender owes while the others, the network and the collector take turns:
of its first calls no more return `0` than the collector received datagrams of
these very calls, unless the network hands reports to the sender's own socket. The
collector owes an answer to the sender of each datagram.
-/

namespace CloningApps.Net
open Text Interaction Os Cmdline

variable {σ : Type} {site : Site} {a : SockAddr} {w w' : Lan} {calls all : List TimeReport}
  {rcs : List ℤ} {n : ℕ}

/-- A datagram of one of these calls of the sender at an address. -/
def IsOf (a : SockAddr) (calls : List TimeReport) (d : Datagram) : Prop :=
  d.sender = a ∧ ∃ c ∈ calls, IsMessage c d.data

/-- At least so many of the datagrams received belong to these calls. -/
def HeardOf (a : SockAddr) (calls : List TimeReport) (n : ℕ) (received : List Datagram) : Prop :=
  ∃ heard : List Datagram, heard.Sublist received ∧ heard.length = n ∧ ∀ d ∈ heard, IsOf a calls d

/-- Of the first `k` calls no more returned `0` than datagrams of theirs were received. -/
def AllHeard (a : SockAddr) (calls : List TimeReport) (rcs : List ℤ) (w : Lan) : Prop :=
  ∀ k, HeardOf a (calls.take k) ((rcs.take k).count 0) w.collected.received

/-- What the others and the network leave to the sender at an address. -/
structure Elsewhere (site : Site) (a : SockAddr) (w w' : Lan) : Prop where
  law : Law site w → Law site w'
  taken : w'.taken a = w.taken a
  sent : ∀ d ∈ w'.sent, d.sender = a → d ∈ w.sent
  received : w.collected.received <:+ w'.collected.received

theorem Elsewhere.moves (h : LanStep site w w') : Elsewhere site a w w' := by
  have hlaw : Law site w → Law site w' := fun hlaw => hlaw.moves h
  cases h <;> exact ⟨hlaw, rfl, fun _ hd _ => hd, List.suffix_refl _⟩

/-- What a sender sends changes nothing else. -/
theorem senderEffect_sendto (site : Site) (w : Lan) (b : SockAddr) (s : Fd) (ip : UInt)
    (port : Port) (data : List Byte) (rc : ℤ) :
    w.senderEffect site b (.sendto s ip port data) rc = w ∨
      w.senderEffect site b (.sendto s ip port data) rc = w.send port ⟨b, data⟩ ∨
      w.senderEffect site b (.sendto s ip port data) rc = w.sendTo ⟨ip, port⟩ data := by
  simp only [Lan.senderEffect]
  split
  · split
    · exact .inr (.inl rfl)
    · exact .inr (.inr rfl)
  · exact .inl rfl

theorem Elsewhere.sender {b : SockAddr} (hab : a ≠ b) {c : Call} {r : c.Answer} (hc : Reporting c)
    (hlegal : w.senderLegal b c r) : Elsewhere site a w (w.senderEffect site b c r) := by
  have hlaw : Law site w → Law site (w.senderEffect site b c r) :=
    fun hlaw => hlaw.sender b hc hlegal
  cases c with
  | sendto s ip port data =>
    rcases senderEffect_sendto site w b s ip port data r with h | h | h
    · rw [h] at hlaw ⊢
      exact ⟨hlaw, rfl, fun _ hd _ => hd, List.suffix_refl _⟩
    · rw [h] at hlaw ⊢
      refine ⟨hlaw, rfl, fun d hd hda => ?_, List.suffix_refl _⟩
      rcases List.mem_cons.mp hd with rfl | hd
      · exact absurd hda.symm hab
      · exact hd
    · rw [h] at hlaw ⊢
      exact ⟨hlaw, rfl, fun _ hd _ => hd, List.suffix_refl _⟩
  | recv s size =>
    cases r with
    | none => exact ⟨hlaw, rfl, fun _ hd _ => hd, List.suffix_refl _⟩
    | some data =>
      exact ⟨hlaw, Function.update_of_ne hab _ _, fun _ hd _ => hd, List.suffix_refl _⟩
  | _ => exact ⟨hlaw, rfl, fun _ hd _ => hd, List.suffix_refl _⟩

theorem received_suffix (w : Collected) (c : CollectorCall) (r : c.Answer) :
    w.received <:+ (w.effect c r).received := by
  cases c with
  | recvfrom =>
    simp only [Collected.effect]
    split
    · exact List.suffix_refl _
    · unfold Collected.receive
      split
      · exact List.suffix_refl _
      · exact List.suffix_cons _ _
  | sendto =>
    simp only [Collected.effect]
    split <;> exact List.suffix_refl _
  | _ => exact List.suffix_refl _

theorem Elsewhere.collector {c : CollectorCall} {r : c.Answer} (hguard : CollectorGuard w c)
    (hlegal : w.collected.legal c r) : Elsewhere site a w (w.collectorEffect c r) := by
  have hlaw : Law site w → Law site (w.collectorEffect c r) :=
    fun hlaw => hlaw.collector hguard hlegal
  have hreceived := received_suffix w.collected c r
  cases c <;> exact ⟨hlaw, rfl, fun _ hd _ => hd, hreceived⟩

/-! ## One sender -/

/-- A sender that only acknowledgements reach is heard as often as it is told so. -/
def HeardThere (site : Site) (a : SockAddr) (calls : List TimeReport) (rcs : List ℤ) (w : Lan) :
    Prop :=
  ¬ site.HandsReportsTo a → AllHeard a calls rcs w

/-- The sender has made these calls, the last of which may still be running; `n` acknowledgements
or more were taken, and the calls that returned were heard. -/
structure Talking (site : Site) (a : SockAddr) (calls : List TimeReport) (rcs : List ℤ) (n : ℕ)
    (w : Lan) : Prop where
  law : Law site w
  taken : n ≤ w.taken a
  sent : ∀ d ∈ w.sent, d.sender = a → ∃ c ∈ calls, IsMessage c d.data
  heard : HeardThere site a calls rcs w

theorem HeardOf.mono {received received' : List Datagram} (h : HeardOf a calls n received)
    (hsub : received.Sublist received') : HeardOf a calls n received' := by
  obtain ⟨heard, hheard, hlength, hof⟩ := h
  exact ⟨heard, hheard.trans hsub, hlength, hof⟩

theorem HeardOf.ne_nil {received : List Datagram} (h : HeardOf a calls n received) (hn : 0 < n) :
    received ≠ [] := by
  obtain ⟨heard, hsub, hlength, -⟩ := h
  rintro rfl
  rw [List.sublist_nil] at hsub
  rw [hsub, List.length_nil] at hlength
  omega

theorem Talking.elsewhere (h : Talking site a calls rcs n w) (he : Elsewhere site a w w') :
    Talking site a calls rcs n w' :=
  ⟨he.law h.law, he.taken ▸ h.taken, fun d hd hda => h.sent d (he.sent d hd hda) hda,
    fun ha k => (h.heard ha k).mono he.received.sublist⟩

/-- The datagrams of a sender that were received are of its calls, and there are as many of them as
acknowledgements it took. -/
theorem Talking.heardOf (h : Talking site a calls rcs n w) (ha : ¬ site.HandsReportsTo a) :
    HeardOf a calls n w.collected.received := by
  let own := w.collected.received.filter (fun d => d.sender = a)
  have hlength : n ≤ own.length := by
    rw [← List.countP_eq_length_filter]
    exact h.taken.trans (h.law.taken_le ha)
  refine ⟨own.take n, (List.take_sublist n own).trans List.filter_sublist,
    List.length_take_of_le hlength, fun d hd => ?_⟩
  obtain ⟨hreceived, hda⟩ := List.mem_filter.mp (List.mem_of_mem_take hd)
  have hsender : d.sender = a := by simpa using hda
  exact ⟨hsender, h.sent d (h.law.sent_of_received hreceived) hsender⟩

/-- The surroundings of the sender at an address. -/
abbrev senderWorld (site : Site) (a : SockAddr) : Env system Lan :=
  (senderEnv site a).rely (Elsewhere site a)

theorem talking_stable (site : Site) (a : SockAddr) (calls : List TimeReport) (rcs : List ℤ)
    (n : ℕ) : (senderWorld site a).Stable (Talking site a calls rcs n) :=
  Env.Still.rely_stable (fun _ _ h => h) (fun _ _ h he => h.elsewhere he)

/-- What a process that makes these calls sends. -/
def Sends (calls : List TimeReport) (_ : Lan) : Call → Prop
  | .sendto _ _ port data => port = COLLECTOR_PORT ∧ ∃ c ∈ calls, IsMessage c data
  | _ => True

theorem Sends.reporting {c : Call} (h : Sends calls w c) : Reporting c := by
  cases c with
  | sendto => exact h.1
  | _ => trivial

abbrev SafeSender {α : Type} (site : Site) (a : SockAddr) (all : List TimeReport)
    (post : α → Lan → Prop) (p : SysProg α) (w : Lan) : Prop :=
  Safe (senderWorld site a) (Sends all) post p w

theorem talking_ret {α : Type} {x : α} {post : α → Lan → Prop}
    (hpost : ∀ w, Talking site a calls rcs n w → post x w) (h : Talking site a calls rcs n w) :
    SafeSender site a all post (.ret x) w :=
  Safe.ret_stable _ (talking_stable site a calls rcs n) x hpost h

theorem talking_call {α : Type} {c : Call} {k : c.Answer → SysProg α} {post : α → Lan → Prop}
    (hguard : ∀ w, Sends all w c)
    (hk : ∀ w r, Talking site a calls rcs n w → w.senderLegal a c r →
      SafeSender site a all post (k r) (w.senderEffect site a c r))
    (h : Talking site a calls rcs n w) : SafeSender site a all post (.call c k) w :=
  Safe.call_stable _ (talking_stable site a calls rcs n) (fun w _ => hguard w) hk h

theorem Talking.sends (h : Talking site a calls rcs n w) {s : Fd} {ip : UInt} {data : List Byte}
    (hdata : ∃ c ∈ calls, IsMessage c data) (rc : ℤ) :
    Talking site a calls rcs n (w.senderEffect site a (.sendto s ip COLLECTOR_PORT data) rc) := by
  have hlaw : Law site (w.senderEffect site a (.sendto s ip COLLECTOR_PORT data) rc) :=
    @Law.sender site w h.law a (.sendto s ip COLLECTOR_PORT data) rc rfl trivial
  rcases senderEffect_sendto site w a s ip COLLECTOR_PORT data rc with heq | heq | heq
  · rw [heq]
    exact h
  · rw [heq] at hlaw ⊢
    refine ⟨hlaw, h.taken, fun d hd hda => ?_, h.heard⟩
    rcases List.mem_cons.mp hd with rfl | hd
    · exact hdata
    · exact h.sent d hd hda
  · rw [heq] at hlaw ⊢
    exact ⟨hlaw, h.taken, h.sent, h.heard⟩

theorem Talking.takes (h : Talking site a calls rcs n w) {s : Fd} {size : ℤ}
    {data : List Byte} (hlegal : w.senderLegal a (.recv s size) (some data)) :
    Talking site a calls rcs (n + 1) (w.senderEffect site a (.recv s size) (some data)) := by
  have hlaw : Law site (w.senderEffect site a (.recv s size) (some data)) :=
    @Law.sender site w h.law a (.recv s size) (some data) trivial hlegal
  refine ⟨hlaw, ?_, h.sent, h.heard⟩
  simp only [Lan.senderEffect, Lan.take, Function.update_self]
  exact Nat.succ_le_succ h.taken

/-- What a call of `send_time` comes to: an acknowledgement more when it returns `0`. -/
def CallDone (site : Site) (a : SockAddr) (calls : List TimeReport) (rcs : List ℤ) (n : ℕ) (rc : ℤ)
    (w : Lan) : Prop :=
  Talking site a calls rcs (if rc = 0 then n + 1 else n) w

theorem callDone_failed {rc : ℤ} (hrc : rc ≠ 0) (h : Talking site a calls rcs n w) :
    SafeSender site a all (CallDone site a calls rcs n) (.ret rc) w := by
  refine talking_ret (fun w hw => ?_) h
  rwa [CallDone, if_neg hrc]

/-- A round sends the message; it goes on with the same message or ends the call. -/
theorem sendRound_talking (hall : calls ⊆ all) (sock : Mysocket) (ip : UInt) {message : CStr}
    (hmessage : ∃ c ∈ calls, IsMessage c message) (h : Talking site a calls rcs n w) :
    SafeSender site a all (fun r w => Sum.elim
        (fun m => m = message ∧ Talking site a calls rcs n w)
        (fun rc => CallDone site a calls rcs n rc w) r) (sendRound sock ip message) w := by
  obtain ⟨c, hc, hof⟩ := hmessage
  refine talking_call (fun _ => ⟨rfl, c, hall hc, hof⟩) (fun w (rc : ℤ) hw _ => ?_) h
  have hsent : Talking site a calls rcs n
      (w.senderEffect site a (.sendto sock.s ip COLLECTOR_PORT message) rc) :=
    hw.sends ⟨c, hc, hof⟩ rc
  simp only [Prog.bind]
  split
  next hrc =>
    refine talking_ret (fun w hw => ?_) hsent
    rwa [Sum.elim_inr, CallDone, if_neg hrc.ne]
  next =>
    refine talking_call (fun _ => trivial) (fun w (rc : ℤ) hw _ => ?_) hsent
    simp only [Prog.bind]
    split
    next hrc =>
      simp only [Prog.pure_eq, Prog.ret_bind, if_pos hrc]
      refine talking_ret (fun w hw => ?_) hw
      rwa [Sum.elim_inr, CallDone, if_neg hrc.ne]
    next =>
      refine talking_call (fun _ => trivial) (fun w data hw hlegal => ?_) hw
      cases data with
      | none =>
        have hfailed : (-1 : ℤ) ≠ 0 := by decide
        refine talking_ret (fun w hw => ?_) hw
        rwa [Sum.elim_inr, CallDone, if_neg hfailed]
      | some data =>
        have htaken := hw.takes hlegal
        have hnonneg : ¬ ((data.length : ℤ) < 0) := not_lt.mpr (Int.natCast_nonneg _)
        simp only [Prog.pure_eq, Prog.ret_bind, if_neg hnonneg]
        split
        · exact talking_ret (fun w hw => hw) htaken
        next hempty =>
          -- an empty acknowledgement is taken, and the message goes out once more
          obtain rfl : data = [] := by
            rw [← List.length_eq_zero_iff]
            omega
          refine talking_ret (fun w hw => ⟨rfl, ?_⟩) htaken
          exact ⟨hw.law, (Nat.le_succ n).trans hw.taken, hw.sent, hw.heard⟩

theorem sendTimeval_talking (hall : calls ⊆ all) (sock : Mysocket) (suffix : Option CStr)
    (tv : Timeval) (hmessage : ∃ c ∈ calls, IsMessage c (timeMessage tv suffix))
    (h : Talking site a calls rcs n w) :
    SafeSender site a all (CallDone site a calls rcs n) (sendTimeval sock suffix tv) w := by
  refine talking_call (fun _ => trivial) (fun w r hw _ => ?_) h
  simp only [Prog.bind]
  split
  next hrc => exact callDone_failed hrc hw
  next =>
    refine Safe.loop (fun m w => m = timeMessage tv suffix ∧ Talking site a calls rcs n w)
      (fun m w w' hw hd => ⟨hw.1, talking_stable site a calls rcs n w w' hw.2 hd⟩) ?_ ⟨rfl, hw⟩
    rintro m w ⟨rfl, hw⟩
    refine (sendRound_talking hall sock r.2 hmessage hw).mono (fun r w hr => ?_)
    cases r with
    | inl m => exact hr
    | inr rc => exact talking_ret (fun w hw => hw) hr

theorem sendTime_talking (hall : calls ⊆ all) (g : Globals) (sock : Mysocket) (c : TimeReport)
    (hc : c ∈ calls) (h : Talking site a calls rcs n w) :
    SafeSender site a all (CallDone site a calls rcs n) (sendTime g sock c.tv c.suffix) w := by
  have hfailed : (-1 : ℤ) ≠ 0 := by decide
  unfold sendTime
  split
  · exact callDone_failed hfailed h
  · obtain ⟨tv, suffix⟩ := c
    cases tv with
    | some tv => exact sendTimeval_talking hall sock suffix tv ⟨_, hc, tv, .inr rfl, rfl⟩ h
    | none =>
      refine talking_call (fun _ => trivial) (fun w r hw _ => ?_) h
      simp only [Prog.bind]
      split
      next hrc => exact callDone_failed hrc hw
      next => exact sendTimeval_talking hall sock suffix r.2 ⟨_, hc, r.2, .inl rfl, rfl⟩ hw

/-! ## All calls of a sender -/

theorem HeardThere.elsewhere (h : HeardThere site a calls rcs w) (he : Elsewhere site a w w') :
    HeardThere site a calls rcs w' :=
  fun ha k => (h ha k).mono he.received.sublist

theorem heardThere_ret {calls : List TimeReport} {done : List ℤ} {rcs' : List ℤ}
    (h : HeardThere site a calls (done ++ rcs') w) :
    SafeSender site a all (fun rcs w => HeardThere site a calls (done ++ rcs) w) (.ret rcs') w :=
  Safe.ret_stable _ (Env.Still.rely_stable (fun _ _ h => h) (fun _ _ h he => h.elsewhere he)) _
    (fun _ h => h) h

/-- A call more is made. -/
theorem Talking.call (h : Talking site a calls rcs n w) (c : TimeReport) :
    Talking site a (calls ++ [c]) rcs n w := by
  refine ⟨h.law, h.taken, fun d hd hda => ?_, fun ha k => ?_⟩
  · obtain ⟨c', hc', hmessage⟩ := h.sent d hd hda
    exact ⟨c', List.mem_append_left _ hc', hmessage⟩
  · obtain ⟨heard, hsub, hcount, hof⟩ := h.heard ha k
    refine ⟨heard, hsub, hcount, fun d hd => ?_⟩
    obtain ⟨hda, c', hc', hmessage⟩ := hof d hd
    refine ⟨hda, c', ?_, hmessage⟩
    rw [List.take_append]
    exact List.mem_append_left _ hc'

/-- A call has returned. -/
theorem CallDone.returned {rc : ℤ} (hlength : calls.length = rcs.length + 1)
    (h : CallDone site a calls rcs (rcs.count 0) rc w) :
    Talking site a calls (rcs ++ [rc]) ((rcs ++ [rc]).count 0) w := by
  have hcount : (rcs ++ [rc]).count 0 = if rc = 0 then rcs.count 0 + 1 else rcs.count 0 := by
    rw [List.count_append, List.count_singleton]
    split <;> simp_all
  rw [CallDone, ← hcount] at h
  refine ⟨h.law, h.taken, h.sent, fun ha k => ?_⟩
  rcases Nat.lt_or_ge rcs.length k with hk | hk
  · have hrcs : (rcs ++ [rc]).take k = rcs ++ [rc] :=
      List.take_of_length_le (by simp only [List.length_append, List.length_singleton]; omega)
    have hcalls : calls.take k = calls := List.take_of_length_le (by omega)
    rw [hrcs, hcalls]
    exact h.heardOf ha
  · rw [List.take_append_of_le_length hk]
    exact h.heard ha k

theorem sendTimes_talking (g : Globals) (sock : Mysocket) :
    ∀ (calls done : List TimeReport) (rcs : List ℤ) (w : Lan), done ++ calls ⊆ all →
      done.length = rcs.length → Talking site a done rcs (rcs.count 0) w →
      SafeSender site a all (fun rcs' w => HeardThere site a (done ++ calls) (rcs ++ rcs') w)
        (sendTimes g sock calls) w := by
  intro calls
  induction calls with
  | nil =>
    intro done rcs w _ _ h
    refine talking_ret (fun w hw => ?_) h
    rw [List.append_nil, List.append_nil]
    exact hw.heard
  | cons c calls ih =>
    intro done rcs w hall hlength h
    have happend : done ++ c :: calls = done ++ [c] ++ calls := by simp
    rw [happend] at hall
    have hcall : Talking site a (done ++ [c]) rcs (rcs.count 0) w := h.call c
    apply Safe.bind
    refine (sendTime_talking (List.append_subset.mp hall).1 g sock c (by simp) hcall).mono
      (fun rc w hdone => ?_)
    have hnext := hdone.returned (by simp [hlength])
    apply Safe.bind
    refine (ih (done ++ [c]) (rcs ++ [rc]) w hall (by simp [hlength]) hnext).mono
      (fun rcs' w hheard => ?_)
    have hcodes : rcs ++ [rc] ++ rcs' = rcs ++ rc :: rcs' := by simp
    rw [hcodes] at hheard
    rw [happend]
    exact heardThere_ret hheard

theorem Talking.initial (site : Site) (a : SockAddr) : Talking site a [] [] 0 .initial :=
  ⟨.initial, le_refl 0, nofun, fun _ _ => ⟨[], List.nil_sublist _, by simp, nofun⟩⟩

/-! ## The collector -/

/-- The others and the network add to what waits for the collector, and nothing else. -/
def Uncollected (w w' : Lan) : Prop :=
  w'.collected.received = w.collected.received ∧ w'.collected.answered = w.collected.answered

theorem Uncollected.moves (h : LanStep site w w') : Uncollected w w' := by
  cases h <;> exact ⟨rfl, rfl⟩

theorem Uncollected.sender {c : Call} {r : c.Answer} :
    Uncollected w (w.senderEffect site a c r) := by
  cases c with
  | sendto s ip port data =>
    rcases senderEffect_sendto site w a s ip port data r with h | h | h <;> rw [h] <;>
      exact ⟨rfl, rfl⟩
  | recv => cases r <;> exact ⟨rfl, rfl⟩
  | _ => exact ⟨rfl, rfl⟩

/-- The collector binds its port, and answers what it received. -/
def Collects (w : Lan) : CollectorCall → Prop
  | .bind _ port => port = PORT
  | c => CollectorGuard w c

theorem Collects.guard {c : CollectorCall} (h : Collects w c) : CollectorGuard w c := by
  cases c with
  | bind => trivial
  | _ => exact h

abbrev SafeCollecting {α : Type} (post : α → Lan → Prop) (p : CollectorProg α) (w : Lan) : Prop :=
  Safe (collectorPortEnv.rely Uncollected) Collects post p w

theorem collecting_stable {P : Collected → Prop}
    (hP : ∀ v v', v'.received = v.received → v'.answered = v.answered → P v → P v') :
    (collectorPortEnv.rely Uncollected).Stable (fun w => P w.collected) :=
  Env.Still.rely_stable (fun _ _ h => h) (fun _ _ hw hd => hP _ _ hd.1 hd.2 hw)

theorem allAnswered_stable :
    (collectorPortEnv.rely Uncollected).Stable (fun w => AllAnswered w.collected) := by
  refine collecting_stable (fun v v' hreceived hanswered h => ?_)
  rw [AllAnswered, hreceived, hanswered]
  exact h

theorem owing_stable (d : Datagram) :
    (collectorPortEnv.rely Uncollected).Stable (fun w => Owing w.collected d) := by
  refine @collecting_stable (fun v => Owing v d) (fun v v' hreceived hanswered h => ?_)
  rw [Owing, hreceived, hanswered]
  exact h

theorem posixServerRound_lan (sockfd : Fd) (cliaddr : SockAddr) (h : AllAnswered w.collected) :
    SafeCollecting (fun r w => Sum.elim (fun _ => AllAnswered w.collected) (fun _ => True) r)
      (posixServerRound sockfd cliaddr) w := by
  refine Safe.call_stable _ allAnswered_stable (fun _ _ => trivial) (fun w r hw hlegal => ?_) h
  obtain ⟨(n : ℤ), addr, len⟩ := r
  by_cases hneg : n < 0
  · simp only [Prog.bind, hneg, if_true]
    exact Safe.ret_stable (fun _ => True) (fun _ _ _ _ => trivial) _ (fun _ _ => trivial) trivial
  · obtain ⟨d, rest, hincoming, -, haddr, -⟩ := hlegal.resolve_left hneg
    obtain rfl := haddr le_rfl
    have howing : Owing (w.collected.effect (.recvfrom sockfd MAXLINE SOCKADDR_IN_SIZE)
        (n, d.sender, len)) d := by
      simp only [Collected.effect, if_neg hneg, Collected.receive, hincoming]
      exact ⟨_, rfl, hw⟩
    simp only [Prog.bind, hneg, if_false]
    refine Safe.call_stable _ (owing_stable d) (fun _ _ => trivial) (fun w _ hw _ => ?_) howing
    refine Safe.call_stable _ (owing_stable d) (fun _ hw => ⟨d, hw, rfl⟩) ?_ hw
    intro w (sent : ℤ) hw _
    by_cases hfail : sent < 0
    · simp only [Prog.bind, hfail, if_true]
      exact Safe.ret_stable (fun _ => True) (fun _ _ _ _ => trivial) _ (fun _ _ => trivial) trivial
    · obtain ⟨received, hreceived, hanswered⟩ := hw
      have hall : AllAnswered (w.collected.effect (.sendto sockfd ACK d.sender len) sent) := by
        simp [Collected.effect, hfail, AllAnswered, hreceived, hanswered, acknowledgement]
      simp only [Prog.bind, hfail, if_false]
      exact Safe.ret_stable _ allAnswered_stable _ (fun _ hw => hw) hall

theorem posixServerMain_lan (h : AllAnswered w.collected) :
    SafeCollecting (fun _ _ => True) posixServerMain w := by
  have hret : ∀ (rc : ℤ) (w : Lan), SafeCollecting (fun _ _ => True) (.ret rc) w := fun rc w =>
    Safe.ret_stable (fun _ => True) (fun _ _ _ _ => trivial) rc (fun _ _ => trivial) trivial
  refine Safe.call_stable _ allAnswered_stable (fun _ _ => trivial) ?_ h
  intro w (s : ℤ) hw _
  simp only [Prog.bind]
  split
  · exact hret _ _
  · have hport : ∀ w : Lan, Collects w (.bind s PORT) := fun _ => rfl
    refine Safe.call_stable _ allAnswered_stable (fun w _ => hport w) ?_ hw
    intro w (rc : ℤ) hw _
    simp only [Prog.bind]
    split
    · exact hret _ _
    · refine Safe.loop (fun _ w => AllAnswered w.collected) (fun _ => allAnswered_stable)
        (fun cliaddr w hw => ?_) hw
      refine (posixServerRound_lan s cliaddr hw).mono (fun r w hr => ?_)
      cases r with
      | inl _ => exact hr
      | inr _ => exact hret _ _

/-! ## All nodes -/

section Nodes
variable {σ : Type} {addr : σ ↪ SockAddr} {senders : σ → Sender}

/-- What each node relies on. -/
def LanRely (site : Site) (addr : σ ↪ SockAddr) : Option σ → Lan → Lan → Prop
  | none => Uncollected
  | some i => Elsewhere site (addr i)

def LanGuard (senders : σ → Sender) : (i : Option σ) → Lan → (lanInterface i).Call → Prop
  | none => Collects
  | some i => Sends (senders i).calls

def LanPost (site : Site) (addr : σ ↪ SockAddr) (senders : σ → Sender) :
    (i : Option σ) → LanResult i → Lan → Prop
  | none => fun _ _ => True
  | some i => HeardThere site (addr i) (senders i).calls

theorem lan_rely (i j : Option σ) (hij : i ≠ j) (w : Lan) (c : (lanInterface j).Call)
    (r : (lanInterface j).Answer c) (hguard : LanGuard senders j w c)
    (hlegal : ((lan site addr).port j).legal w c r) :
    LanRely site addr i w (((lan site addr).port j).effect w c r) := by
  cases i with
  | none =>
    cases j with
    | none => exact absurd rfl hij
    | some j => exact Uncollected.sender
  | some i =>
    cases j with
    | none => exact Elsewhere.collector (Collects.guard hguard) hlegal
    | some j =>
      have haddr : addr i ≠ addr j := fun h => hij (congrArg some (addr.injective h))
      exact Elsewhere.sender haddr (Sends.reporting (w := w) hguard) hlegal

theorem lan_moves (i : Option σ) (w w' : Lan) (h : LanStep site w w') :
    LanRely site addr i w w' := by
  cases i with
  | none => exact Uncollected.moves h
  | some i => exact Elsewhere.moves h

theorem lanNodes_safe :
    AllSafe (lan site addr) (LanRely site addr) (LanGuard senders) (LanPost site addr senders)
      (lanNodes senders, .initial) := by
  intro i
  cases i with
  | none => exact posixServerMain_lan rfl
  | some i =>
    have hrun := @sendTimes_talking site (addr i) (senders i).calls (senders i).g (senders i).sock
      (senders i).calls [] [] .initial (List.Subset.refl _) rfl (Talking.initial site (addr i))
    exact hrun

end Nodes

end CloningApps.Net
