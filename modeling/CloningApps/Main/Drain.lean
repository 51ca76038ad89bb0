import CloningApps.Main.Live
import CloningApps.Server.HelperCalls
import CloningApps.Server.PrologueResources

/-! # Nothing a client sends is left behind

The server-tcp application receives from a connection until the client has sent
everything, and only then closes it and accepts the next one. Each client has a
stream of bytes, of which a receive takes some from the front; it takes none only
when none are left, or when there is no room for any. Only a call that fails lets
the server give up a client.
-/

namespace CloningApps.Main
open Text Interaction Os Cmdline Server Fuzz Net

/-- A connection, the bytes of its client that were not received yet, and whether a call of the
server for it has failed. -/
structure Conn where
  s : Fd
  rest : List Byte
  failed : Bool
  deriving DecidableEq

/-- The streams of the clients in the order in which they are accepted, how many were, and the
connection that is open. -/
structure Desk where
  clients : ℕ → List Byte
  accepted : ℕ
  current : Option Conn

namespace Desk

def initial (clients : ℕ → List Byte) : Desk := ⟨clients, 0, none⟩

def fail (w : Desk) (failed : Bool) : Desk :=
  { w with current := w.current.map (fun c => { c with failed := c.failed || failed }) }

/-- A receive takes bytes from the front of the stream, and none only at its end or into an
empty buffer. -/
def legal (w : Desk) : (c : Call) → c.Answer → Prop
  | .recv s size, some data => ∀ c, w.current = some c → c.s = s →
      data <+: c.rest ∧ data.length ≤ size ∧ (data = [] → c.rest = [] ∨ size ≤ 0)
  | _, _ => True

def effect (w : Desk) : (c : Call) → c.Answer → Desk
  | .accept _, s =>
    if 0 ≤ s then
      { w with accepted := w.accepted + 1, current := some ⟨s, w.clients w.accepted, false⟩ }
    else w
  | .getpeername _, rc => w.fail (rc ≠ 0)
  | .malloc .netbuf _, block => w.fail (block = none)
  | .recv _ _, none => w.fail true
  | .recv s _, some data =>
    { w with current := w.current.map (fun c =>
        if c.s = s then { c with rest := c.rest.drop data.length } else c) }
  | .close s, _ =>
    { w with current := if w.current.map Conn.s = some s then none else w.current }
  | _, _ => w

end Desk

def deskEnv : Env system Desk where
  legal := Desk.legal
  effect := Desk.effect
  drift := fun _ _ => False

theorem deskEnv_still : deskEnv.Still := fun _ _ h => h

/-- The next client is accepted when the last one is gone; what is received comes from the client
that is there; and a client is let go when nothing of it is left, or for a failure. -/
def DeskGuard (w : Desk) : Call → Prop
  | .accept _ => w.current = none
  | .recv s _ => ∀ c, w.current = some c → c.s = s ∧ c.failed = false
  | .close s => ∀ c, w.current = some c → c.s = s ∧ (c.failed = false → c.rest = [])
  | _ => True

abbrev SafeDesk {α : Type} (post : α → Desk → Prop) (p : SysProg α) (w : Desk) : Prop :=
  Safe deskEnv DeskGuard post p w

variable {w : Desk} {α : Type} {m : NetMsg} {c : Conn}

theorem desk_ret {x : α} {post : α → Desk → Prop} (h : post x w) : SafeDesk post (.ret x) w :=
  Safe.ret deskEnv_still h

theorem desk_call {c : Call} {k : c.Answer → SysProg α} {post : α → Desk → Prop}
    (hguard : DeskGuard w c)
    (hk : ∀ a, w.legal c a → SafeDesk post (k a) (w.effect c a)) :
    SafeDesk post (.call c k) w :=
  Safe.call deskEnv_still hguard hk

/-- Nobody is at the desk. -/
def Free (w : Desk) : Prop := w.current = none

/-- The calls that do not serve a client. -/
def AsideCall : Call → Prop
  | .accept _ => False
  | _ => True

/-- Without a client nothing that is done brings one. -/
theorem aside_free {p : SysProg α} (hp : OnlyCalls AsideCall p) (hw : Free w) :
    SafeDesk (fun _ => Free) p w := by
  refine Safe.frame Free (deskEnv_still.stable _) ?_ ?_ hp hw
  · intro w c hc hw
    have hnone : ∀ c, ¬ w.current = some c := fun c h => absurd (hw.symm.trans h) (by simp)
    cases c with
    | accept => exact hc.elim
    | recv => exact fun c h => absurd h (hnone c)
    | close => exact fun c h => absurd h (hnone c)
    | _ => trivial
  · intro w c a hc hw _
    have hnone : w.current = none := hw
    cases c with
    | accept => exact hc.elim
    | malloc use size => cases use <;> simp [Free, deskEnv, Desk.effect, Desk.fail, hnone]
    | recv s size => cases a <;> simp [Free, deskEnv, Desk.effect, Desk.fail, hnone]
    | getpeername => simp [Free, deskEnv, Desk.effect, Desk.fail, hnone]
    | close => simp [Free, deskEnv, Desk.effect, hnone]
    | _ => exact hw

theorem StartCall.aside {c : Call} (h : StartCall c) : AsideCall c := by
  cases c with
  | accept => exact absurd h id
  | _ => trivial

theorem CleanupCall.aside {c : Call} (h : CleanupCall c) : AsideCall c := by
  cases c with
  | accept => exact absurd h id
  | _ => trivial

theorem PrologueCall.aside {c : Call} (h : PrologueCall c) : AsideCall c := by
  cases c with
  | accept => exact absurd h id
  | _ => trivial

/-! ## Serving a client -/

/-- A buffer that was allocated has room. -/
def Roomy (m : NetMsg) : Prop := m.netbuf ≠ none → 0 < m.netbufSize

/-- The message belongs to the client at the desk, whose fate is `P`. -/
def Serves (m : NetMsg) (P : Conn → Prop) (w : Desk) : Prop :=
  Roomy m ∧ ∃ c, w.current = some c ∧ c.s = m.connection ∧ 0 ≤ c.s ∧ P c

/-- The client may have more to say. -/
def Attended (c : Conn) : Prop := c.failed = false

/-- The client may be let go. -/
def Done (c : Conn) : Prop := c.failed = false → c.rest = []

theorem done_of_failed (h : c.failed = true) : Done c :=
  fun hfailed => absurd (h.symm.trans hfailed) (by decide)

theorem Serves.close {s : Fd} (h : Serves m Done w) (hs : s = m.connection) :
    DeskGuard w (.close s) := by
  obtain ⟨-, c, hcurrent, hc, -, hdone⟩ := h
  intro c' hc'
  obtain rfl := Option.some.inj (hcurrent.symm.trans hc')
  exact ⟨hc.trans hs.symm, hdone⟩

theorem netMsgCleanup_frees (h : Serves m Done w) :
    SafeDesk (fun _ => Free) (netMsgCleanup m) w := by
  have hfreed : SafeDesk (fun _ w' => w' = w) (freeBuffer m.netbuf) w := by
    cases m.netbuf with
    | none => exact desk_ret rfl
    | some block => exact desk_call trivial (fun _ _ => desk_ret rfl)
  apply Safe.bind
  apply hfreed.mono
  rintro _ w rfl
  obtain ⟨-, c, hcurrent, hs, hpos, -⟩ := id h
  rw [if_pos (hs ▸ hpos)]
  refine desk_call (h.close rfl) (fun _ _ => desk_ret ?_)
  simp [Free, Desk.effect, hcurrent, hs]

theorem tcpServerAccept_serves {srv : OsServer} (hw : Free w) :
    SafeDesk (fun r w' => if r.1 = 0 then Serves r.2 Attended w' else Free w')
      (tcpServerAccept srv) w := by
  refine desk_call hw ?_
  intro (s : ℤ) _
  by_cases hs : s < 0
  · have heffect : w.effect (.accept srv.listenerSocket.s) s = w := if_neg (not_le.mpr hs)
    simp only [Prog.bind, hs, if_true, heffect]
    apply Safe.bind
    apply (aside_free ((netMsgCleanup_calls _).mono (fun _ => CleanupCall.aside)) hw).mono
    exact fun _ _ hfree => desk_ret hfree
  · have hpos : 0 ≤ s := not_lt.mp hs
    let w₁ : Desk :=
      { w with accepted := w.accepted + 1, current := some ⟨s, w.clients w.accepted, false⟩ }
    have heffect : w.effect (.accept srv.listenerSocket.s) s = w₁ := if_pos hpos
    simp only [Prog.bind, hs, if_false, heffect]
    refine desk_call trivial ?_
    intro (rc : ℤ) _
    by_cases hrc : rc = 0
    · simp only [hrc]
      exact desk_ret ⟨fun h => absurd rfl h, _, rfl, rfl, hpos, rfl⟩
    · simp only [Prog.bind, hrc, ne_eq, not_false_eq_true, if_true]
      have hserves : Serves { NetMsg.zero with connection := s } Done
          (w₁.effect (.getpeername s) rc) := by
        refine ⟨fun h => absurd rfl h, ⟨s, w.clients w.accepted, true⟩, ?_, rfl, hpos,
          done_of_failed rfl⟩
        simp [Desk.effect, Desk.fail, w₁, hrc]
      apply Safe.bind
      apply (netMsgCleanup_frees hserves).mono
      intro m w' hfree
      refine desk_ret ?_
      simpa [hrc] using hfree

/-- What is known of the client after a receive with this result. -/
def Received (r : ℤ × NetMsg) (w : Desk) : Prop :=
  if r.1 ≤ 0 then Serves r.2 Done w else Serves r.2 Attended w

theorem netMsgBuffer_serves (h : Serves m Attended w) :
    SafeDesk (fun r w' => if r.2.netbuf = none then Received r w' else Serves r.2 Attended w')
      (netMsgBuffer m) w := by
  cases hm : m.netbuf with
  | some block =>
    simp only [netMsgBuffer, hm]
    refine desk_ret ?_
    simpa [hm] using h
  | none =>
    obtain ⟨-, c, hcurrent, hs, hpos, hattended⟩ := h
    simp only [netMsgBuffer, hm, netMsgInitBuffer]
    refine desk_call trivial (fun block _ => ?_)
    cases block with
    | none =>
      refine desk_ret ?_
      have hserves : Serves { m with netbuf := none, netbufSize := 4096 } Done
          (w.effect (.malloc .netbuf 4096) none) := by
        refine ⟨fun h => absurd rfl h, { c with failed := true }, ?_, hs, hpos,
          done_of_failed rfl⟩
        simp [Desk.effect, Desk.fail, hcurrent]
      have hrc : -ENOMEM ≤ 0 := by decide
      simpa [Received, hrc] using hserves
    | some block =>
      have hroomy : (0 : ℤ) < 4096 := by decide
      refine desk_ret ⟨fun _ => hroomy, c, ?_, hs, hpos, hattended⟩
      simp [Desk.effect, Desk.fail, hcurrent]

/-- A receive that brings nothing, or cannot be made, is the end of the client. -/
theorem tcpServerRecvMsg_serves (h : Serves m Attended w) :
    SafeDesk Received (tcpServerRecvMsg m) w := by
  apply Safe.bind
  apply (netMsgBuffer_serves h).mono
  rintro ⟨rc, m⟩ w hbuffer
  cases hm : m.netbuf with
  | none =>
    simp only [hm, if_true] at hbuffer ⊢
    exact desk_ret hbuffer
  | some block =>
    simp only [hm, if_false, reduceCtorEq] at hbuffer ⊢
    obtain ⟨hroomy, c, hcurrent, hs, hpos, hattended⟩ := hbuffer
    have hsize : 0 < m.netbufSize := hroomy (by simp [hm])
    have hguard : DeskGuard w (.recv m.connection m.netbufSize) := by
      intro c' hc'
      obtain rfl := Option.some.inj (hcurrent.symm.trans hc')
      exact ⟨hs, hattended⟩
    refine desk_call hguard (fun data hlegal => ?_)
    cases data with
    | none =>
      have hserves : Serves m Done (w.effect (.recv m.connection m.netbufSize) none) := by
        refine ⟨hroomy, { c with failed := true }, ?_, hs, hpos, done_of_failed rfl⟩
        simp [Desk.effect, Desk.fail, hcurrent]
      exact desk_ret hserves
    | some data =>
      obtain ⟨-, -, hend⟩ := hlegal c hcurrent hs
      let c₁ : Conn := { c with rest := c.rest.drop data.length }
      have hcurrent₁ :
          (w.effect (.recv m.connection m.netbufSize) (some data)).current = some c₁ := by
        simp [Desk.effect, hcurrent, hs, c₁]
      refine desk_ret ?_
      by_cases hdata : data = []
      · have hserves : Serves m Done (w.effect (.recv m.connection m.netbufSize) (some data)) := by
          have hempty : c.rest = [] := (hend hdata).resolve_right (not_le.mpr hsize)
          refine ⟨hroomy, c₁, hcurrent₁, hs, hpos, fun _ => ?_⟩
          simp [c₁, hempty]
        subst hdata
        exact ⟨fun _ => hsize, hserves.2⟩
      · have hlength : ¬ (data.length : ℤ) ≤ 0 := by
          have hpos := List.length_pos_of_ne_nil hdata
          omega
        have hserves : Serves m Attended
            (w.effect (.recv m.connection m.netbufSize) (some data)) :=
          ⟨hroomy, c₁, hcurrent₁, hs, hpos, hattended⟩
        simp only [Received, hlength, if_false]
        exact ⟨fun _ => hsize, hserves.2⟩

theorem serverTcpServe_drains (h : Serves m Attended w) :
    SafeDesk (fun _ => Free) (serverTcpServe m) w := by
  refine Safe.loop (fun m => Serves m Attended) (fun _ => deskEnv_still.stable _) ?_ h
  intro m w h
  apply Safe.bind
  apply (tcpServerRecvMsg_serves h).mono
  rintro ⟨rc, m⟩ w hreceived
  by_cases hrc : rc ≤ 0
  · have hdone : Serves m Done w := by simpa [Received, hrc] using hreceived
    simp only [hrc, if_true]
    refine desk_ret ?_
    simp only [Sum.elim_inr, Prog.ret_bind, cleanupRound]
    apply Safe.bind
    apply (netMsgCleanup_frees hdone).mono
    intro _ w hfree
    split <;> exact desk_ret hfree
  · have hattended : Serves m Attended w := by simpa [Received, hrc] using hreceived
    simp only [hrc, if_false]
    exact desk_ret hattended

theorem serverTcpRound_drains (srv : OsServer) (hw : Free w) :
    SafeDesk (fun _ => Free) (serverTcpRound srv ()) w := by
  apply Safe.bind
  apply (tcpServerAccept_serves hw).mono
  rintro ⟨rc, m⟩ w haccepted
  by_cases hrc : rc = 0
  · simp only [hrc, if_true, ne_eq, not_true_eq_false, if_false] at haccepted ⊢
    exact serverTcpServe_drains haccepted
  · simp only [hrc, if_false, ne_eq, not_false_eq_true, if_true] at haccepted ⊢
    exact desk_ret haccepted

/-! ## The whole application -/

theorem serverTcp_drains (os : Platform) (hw : Free w) :
    SafeDesk (fun _ _ => True) (serveTcp os serverTcpRound ()) w := by
  apply Safe.bind
  apply (aside_free (uninitialisedServer_calls.mono (fun _ => StartCall.aside)) hw).mono
  intro srv w hw
  apply Safe.bind
  apply (aside_free ((tcpServerStart_calls ..).mono (fun _ => StartCall.aside)) hw).mono
  rintro ⟨rc, srv⟩ w hw
  dsimp only
  split
  · exact desk_ret trivial
  · refine Safe.loop (fun _ => Free) (fun _ => deskEnv_still.stable _) (fun _ w hw => ?_) hw
    apply (serverTcpRound_drains srv hw).mono
    intro r w hw
    cases r with
    | inl _ => exact hw
    | inr exit =>
      cases exit with
      | out rc => exact desk_ret trivial
      | stop rc =>
        simp only [Sum.elim_inr, Prog.ret_bind]
        apply Safe.bind
        apply (aside_free ((tcpServerStop_calls srv).mono (fun _ => CleanupCall.aside)) hw).mono
        exact fun _ _ _ => desk_ret trivial

theorem threadFuncServerTcp_drains (os : Platform) (g : Globals) (hw : Free w) :
    SafeDesk (fun _ _ => True) (threadFuncServerTcp os g) w := by
  apply Safe.bind
  apply (aside_free ((serverPrologue_calls os g).mono (fun _ => PrologueCall.aside)) hw).mono
  intro r w hw
  dsimp only
  split
  · exact desk_ret trivial
  · apply Safe.bind
    apply (serverTcp_drains os hw).mono
    exact fun _ _ _ => desk_ret trivial

/-- The program, asked for server-tcp, neither leaves a client that has more to say nor accepts
another one before. -/
theorem main_drains (s : Setup) {g : Globals} (happ : g.app = .serverTcp) (rc : ℤ)
    (clients : ℕ → List Byte) {c : Call} {k : c.Answer → MainProg ℤ} {w : Desk}
    (h : Reaches (machineOf deskEnv) (main s (.returned rc g), .initial clients)
      (@Prog.call machine ℤ (.app c) k, w)) : DeskGuard w c := by
  have hmain : SafeMachine deskEnv DeskGuard (main s (.returned rc g)) (.initial clients) := by
    refine main_safe deskEnv_still s _ ?_
    intro g' p hparsed _ hp
    obtain ⟨-, rfl⟩ := ParseResult.returned.inj hparsed
    rw [application, happ] at hp
    obtain rfl := Option.some.inj hp
    exact threadFuncServerTcp_drains s.os g rfl
  exact hmain _ _ h

/-- A client that sends one byte is let go once the byte is received and no other came. -/
theorem main_drains_close :
    ∃ k w, Reaches (machineOf deskEnv)
        (main .full (.returned 0 { Globals.initial with app := .serverTcp }),
          .initial fun _ => [7])
        (@Prog.call machine ℤ (.app (.close 5)) k, w) ∧
      w.current = some ⟨5, [], false⟩ ∧ DeskGuard w (.close 5) := by
  have hrun : ∃ k w, Reaches (machineOf deskEnv)
        (main .full (.returned 0 { Globals.initial with app := .serverTcp }),
          .initial fun _ => [7])
          (@Prog.call machine ℤ (.app (.close 5)) k, w) ∧
        w.current = some ⟨5, [], false⟩ := by
    have hbyte : ∀ w : Desk, w.current = some ⟨5, [7], false⟩ →
        (machineOf deskEnv).legal w (.app (.recv 5 4096)) (some [7]) := by
      rintro w hw c hc -
      obtain rfl := Option.some.inj (hw.symm.trans hc)
      exact ⟨List.prefix_refl _, by decide, fun h => absurd h (by decide)⟩
    have hend : ∀ w : Desk, w.current = some ⟨5, [], false⟩ →
        (machineOf deskEnv).legal w (.app (.recv 5 4096)) (some []) := by
      rintro w hw c hc -
      obtain rfl := Option.some.inj (hw.symm.trans hc)
      exact ⟨List.prefix_refl _, by decide, fun _ => .inl rfl⟩
    refine ⟨?next, ?world, ?run, ?current⟩
    case run =>
      apply Relation.ReflTransGen.head (.call (-1 : ℤ) trivial)
      apply Relation.ReflTransGen.head (.call (0 : ℤ) trivial)
      apply Relation.ReflTransGen.head (.call (0 : ℤ) trivial)
      apply Relation.ReflTransGen.head (.call (0 : ℤ) trivial)
      apply Relation.ReflTransGen.head (.call (0 : ℤ) trivial)
      apply Relation.ReflTransGen.head (.call (3 : ℤ) trivial)
      apply Relation.ReflTransGen.head (.call (0 : ℤ) trivial)
      apply Relation.ReflTransGen.head (.call (0 : ℤ) trivial)
      apply Relation.ReflTransGen.head (.call (0 : ℤ) trivial)
      apply Relation.ReflTransGen.head .loop
      apply Relation.ReflTransGen.head (.call (5 : ℤ) trivial)
      apply Relation.ReflTransGen.head (.call (0 : ℤ) trivial)
      apply Relation.ReflTransGen.head .loop
      apply Relation.ReflTransGen.head (.call (some ⟨1, []⟩ : Option Block) trivial)
      apply Relation.ReflTransGen.head (.call (some [7] : Option (List Byte)) (hbyte _ rfl))
      apply Relation.ReflTransGen.head .loop
      apply Relation.ReflTransGen.head (.call (some [] : Option (List Byte)) (hend _ rfl))
      apply Relation.ReflTransGen.head (.call () trivial)
      exact .refl
    case current => rfl
  obtain ⟨k, w, hreach, hcurrent⟩ := hrun
  exact ⟨k, w, hreach, hcurrent, main_drains .full rfl 0 _ hreach⟩

end CloningApps.Main
