import CloningApps.Server.HelperCalls
import CloningApps.Server.PrologueReturns
import CloningApps.Server.Requests

/-! # The counter server and its clients

TCP delivers the four bytes of a request in any number of pieces, and `malloc`
returns a buffer with any contents. The server takes the first piece for the
whole request.
-/

namespace CloningApps.Server
open Text Interaction Os Cmdline Net

/-! ## Counters as bytes -/

theorem storeInt_eq (x : BitVec 32) : storeInt x = [x.toNat.toUInt8, (x.toNat / 256).toUInt8,
    (x.toNat / 65536).toUInt8, (x.toNat / 16777216).toUInt8] := by
  simp [storeInt, List.range_succ]

@[simp] theorem storeInt_length (x : BitVec 32) : (storeInt x).length = 4 := by
  simp [storeInt]

theorem loadInt_cons (a b c d : Byte) (rest : List Byte) :
    loadInt (a :: b :: c :: d :: rest) =
      BitVec.ofNat 32 (a.toNat + 256 * (b.toNat + 256 * (c.toNat + 256 * d.toNat))) := by
  simp [loadInt]

theorem loadInt_storeInt (x : BitVec 32) (rest : List Byte) : loadInt (storeInt x ++ rest) = x := by
  have hx := x.isLt
  apply BitVec.eq_of_toNat_eq
  simp only [storeInt_eq, List.cons_append, List.nil_append, loadInt_cons, BitVec.toNat_ofNat,
    Nat.toUInt8_eq, UInt8.toNat_ofNat']
  omega

theorem storeInt_injective {x y : BitVec 32} (h : storeInt x = storeInt y) : x = y := by
  rw [← loadInt_storeInt x [], h, loadInt_storeInt]

theorem storeInt_loadInt (bytes : List Byte) (h : 4 ≤ bytes.length) :
    storeInt (loadInt bytes) = bytes.take 4 := by
  obtain ⟨a, b, c, d, rest, rfl⟩ : ∃ a b c d rest, bytes = a :: b :: c :: d :: rest := by
    match bytes, h with
    | a :: b :: c :: d :: rest, _ => exact ⟨a, b, c, d, rest, rfl⟩
  have ha := a.toNat_lt
  have hb := b.toNat_lt
  have hc := c.toNat_lt
  have hd := d.toNat_lt
  simp only [storeInt_eq, loadInt_cons, BitVec.toNat_ofNat, List.take_succ_cons, List.take_zero,
    List.cons.injEq, and_true]
  refine ⟨?_, ?_, ?_, ?_⟩
  all_goals
    apply UInt8.toNat_inj.mp
    simp only [Nat.toUInt8_eq, UInt8.toNat_ofNat']
    omega

/-! ## Clients -/

/-- A request as TCP delivers it. -/
structure Client where
  x : BitVec 32
  chunks : List (List Byte)
  nonempty : ∀ d ∈ chunks, d ≠ []
  bytes : chunks.flatten = storeInt x

/-- All of the request arrives at once. -/
def Client.Whole (c : Client) : Prop := c.chunks.length = 1

/-- The clients that have not connected yet, the pieces of the current request that were not
received, and what each client was sent, the last one first. -/
structure Desk where
  waiting : List Client
  unread : Option (List (List Byte))
  served : List (Client × List (List Byte))

namespace Desk

def opened (clients : List Client) : Desk := ⟨clients, none, []⟩

/-- A connection is accepted when a client waits; receiving takes the next piece, and a buffer
holds anything when it is allocated. -/
def legal (w : Desk) : (c : Call) → c.Answer → Prop
  | .accept _, s => 0 ≤ s ∧ w.waiting ≠ []
  | .getpeername _, rc => rc = 0
  | .malloc _ size, block => ∃ b : Block, block = some b ∧ b.bytes.length = size
  | .recv .., data => ∀ chunks, w.unread = some chunks → data = some (chunks.headD [])
  | .send _ data, rc => rc = data.length
  | _, _ => True

def connect (w : Desk) : Desk :=
  match w.waiting with
  | [] => w
  | c :: rest => ⟨rest, some c.chunks, (c, []) :: w.served⟩

def reply (w : Desk) (data : List Byte) : Desk :=
  match w.served with
  | [] => w
  | (c, sent) :: rest => { w with served := (c, sent ++ [data]) :: rest }

def effect (w : Desk) : (c : Call) → c.Answer → Desk
  | .accept _, _ => w.connect
  | .recv .., _ => { w with unread := w.unread.map List.tail }
  | .send _ data, _ => w.reply data
  | _, _ => w

/-- Everybody who was served got the successor of the request, and nothing else. -/
def Answered (w : Desk) : Prop := ∀ p ∈ w.served, p.2 = [storeInt (p.1.x + 1)]

end Desk

def deskEnv : Env system Desk where
  legal := Desk.legal
  effect := Desk.effect
  drift := fun _ _ => False

theorem deskEnv_still : deskEnv.Still := fun _ _ h => h

/-- The server asks for the next connection when the last one is answered, and never waits for
anything but a connection. -/
def deskGuard (w : Desk) (c : Call) : Prop :=
  (∀ s, c = .accept s → w.Answered) ∧
    ((∃ a, w.legal c a) ∨ (∃ s, c = .accept s) ∧ w.waiting = [])

/-- Every client is answered, and the server does not return once it serves. -/
def CountsFor (os : Platform) (g : Globals) (clients : List Client) : Prop :=
  Safe deskEnv deskGuard (fun _ w => w.served = []) (threadFuncCounter os g) (.opened clients)

variable {w : Desk} {c : Client} {clients rest : List Client} {sent : List (List Byte)}

theorem deskGuard_of_legal {call : Call} (hne : ∀ s, call ≠ .accept s)
    (h : ∃ a, w.legal call a) : deskGuard w call :=
  ⟨fun s hs => absurd hs (hne s), .inl h⟩

/-! ## One request -/

/-- The buffer after the first piece. -/
def firstPiece (c : Client) (stale : List Byte) : List Byte := overwrite stale (c.chunks.headD [])

/-- What a client is sent when the buffer held `stale`. -/
def counterReply (c : Client) (stale : List Byte) : List Byte :=
  storeInt (loadInt (firstPiece c stale) + 1)

theorem Client.chunks_ne_nil (c : Client) : c.chunks ≠ [] := by
  intro h
  have hlen := congrArg List.length c.bytes
  simp [h] at hlen

theorem Client.head_ne_nil (c : Client) : c.chunks.headD [] ≠ [] := by
  obtain ⟨d, rest, h⟩ := List.exists_cons_of_ne_nil c.chunks_ne_nil
  rw [h, List.headD_cons]
  exact c.nonempty d (h ▸ List.mem_cons_self)

theorem Client.Whole.reply (h : c.Whole) (stale : List Byte) :
    counterReply c stale = storeInt (c.x + 1) := by
  obtain ⟨d, hd⟩ := List.length_eq_one_iff.mp h
  have hbytes : d = storeInt c.x := by simpa [hd] using c.bytes
  rw [counterReply, firstPiece, hd, List.headD_cons, hbytes, overwrite, loadInt_storeInt]

/-- A request in pieces is completed from what the buffer held before. -/
theorem Client.stale_reply (h : ¬ c.Whole) :
    ∃ stale : List Byte, stale.length = 4096 ∧ counterReply c stale ≠ storeInt (c.x + 1) := by
  obtain ⟨d, rest, hchunks⟩ := List.exists_cons_of_ne_nil c.chunks_ne_nil
  obtain ⟨d', rest', hrest⟩ : ∃ d' rest', rest = d' :: rest' := by
    apply List.exists_cons_of_ne_nil
    rintro rfl
    exact h (by simp [Client.Whole, hchunks])
  have hflat : d ++ (d' ++ rest'.flatten) = storeInt c.x := by
    simpa [hchunks, hrest] using c.bytes
  have hd' : d' ≠ [] := c.nonempty d' (by simp [hchunks, hrest])
  have hlen : d.length < 4 := by
    have hfour := congrArg List.length hflat
    have hpos := List.length_pos_iff.mpr hd'
    simp only [List.length_append, storeInt_length] at hfour
    omega
  obtain ⟨z, hz⟩ : ∃ z, (storeInt c.x)[3]? = some z :=
    ⟨_, List.getElem?_eq_getElem (by simp)⟩
  -- a last byte that is not the one of the request
  let b : Byte := z + 1
  refine ⟨List.replicate 4096 b, List.length_replicate, fun hreply => ?_⟩
  have hload : loadInt (firstPiece c (List.replicate 4096 b)) = c.x :=
    add_right_cancel (storeInt_injective hreply)
  have hpiece : firstPiece c (List.replicate 4096 b) =
      d ++ List.replicate (4096 - d.length) b := by
    rw [firstPiece, hchunks, List.headD_cons, overwrite, List.drop_replicate]
  have hstored := storeInt_loadInt (firstPiece c (List.replicate 4096 b)) (by
    rw [hpiece, List.length_append, List.length_replicate]
    omega)
  rw [hload] at hstored
  have hlast : (storeInt c.x)[3]? = some b := by
    rw [hstored, List.getElem?_take_of_lt (by decide), hpiece,
      List.getElem?_append_right (by omega), List.getElem?_replicate_of_lt (by omega)]
  have hb : z + 0 = z + 1 := by
    rw [add_zero]
    exact Option.some.inj (hz.symm.trans hlast)
  exact absurd (add_left_cancel hb) (by decide)

/-! ## The accept loop -/

/-- The desk while a client is served. -/
def serving (c : Client) (rest : List Client) (done : List (Client × List (List Byte))) : Desk :=
  ⟨rest, some c.chunks, (c, []) :: done⟩

/-- The desk once the client was sent the reply. -/
def replied (c : Client) (rest : List Client) (done : List (Client × List (List Byte)))
    (stale : List Byte) : Desk :=
  ⟨rest, some c.chunks.tail, (c, [counterReply c stale]) :: done⟩

variable {done : List (Client × List (List Byte))} {connection : Fd} {stale : List Byte}

/-- Calls that any answer suits and that do not concern the desk. -/
def IdleCall (w : Desk) (call : Call) : Prop :=
  (∀ s, call ≠ .accept s) ∧ Nonempty call.Answer ∧
    ∀ a, w.legal call a ∧ w.effect call a = w

theorem safe_idle {α : Type} {p : SysProg α} (hp : OnlyCalls (IdleCall w) p) :
    Safe deskEnv deskGuard (fun _ w' => w' = w) p w := by
  refine Safe.frame (· = w) (deskEnv_still.stable _) ?_ ?_ hp rfl
  · rintro _ call ⟨hne, ⟨a⟩, ha⟩ rfl
    exact deskGuard_of_legal hne ⟨a, (ha a).1⟩
  · rintro _ call a ⟨-, -, ha⟩ rfl -
    exact (ha a).2

theorem CleanupCall.idle {call : Call} (h : CleanupCall call) : IdleCall w call := by
  cases call with
  | free addr => exact ⟨by simp, ⟨()⟩, fun _ => ⟨trivial, rfl⟩⟩
  | close s => exact ⟨by simp, ⟨()⟩, fun _ => ⟨trivial, rfl⟩⟩
  | _ => exact absurd h id

theorem cleanupRound_desk {rc : ℤ} (hrc : ¬ rc < 0) (m : NetMsg) :
    Safe deskEnv deskGuard (fun r w' => r = .inl () ∧ w' = w) (cleanupRound () rc m) w := by
  apply Safe.bind
  apply (safe_idle ((netMsgCleanup_calls m).mono (fun _ h => h.idle))).mono
  rintro _ _ rfl
  simp only [hrc, if_false]
  exact Safe.ret deskEnv_still ⟨rfl, rfl⟩

/-- Any buffer and the first piece. -/
theorem tcpServerRecvMsg_desk (connection : Fd) :
    Safe deskEnv deskGuard
      (fun r w => ∃ addr stale, stale.length = 4096 ∧
        r = (((c.chunks.headD []).length : ℤ), received connection addr stale (c.chunks.headD [])) ∧
        w = ⟨rest, some c.chunks.tail, (c, []) :: done⟩)
      (tcpServerRecvMsg { NetMsg.zero with connection := connection }) (serving c rest done) := by
  apply Safe.call deskEnv_still
  · apply deskGuard_of_legal (by simp)
    exact ⟨some ⟨0, List.replicate 4096 0⟩, _, rfl, List.length_replicate⟩
  · intro block hblock
    obtain ⟨⟨addr, stale⟩, rfl, hstale⟩ := hblock
    apply Safe.call deskEnv_still
    · apply deskGuard_of_legal (by simp)
      exact ⟨some (c.chunks.headD []), fun _ h => Option.some.inj h ▸ rfl⟩
    · intro data hdata
      obtain rfl : data = some (c.chunks.headD []) := hdata c.chunks rfl
      exact Safe.ret deskEnv_still ⟨addr, stale, hstale, rfl, rfl⟩

/-- The message with the reply in its buffer. -/
theorem countUp_send (addr : ℕ) (bytes : List Byte) (size : ℤ) :
    tcpServerSendMsg (countUp ⟨connection, some ⟨addr, bytes⟩, size⟩) =
      sys (.send connection (storeInt (loadInt bytes + 1))) := by
  have htake : (storeInt (loadInt bytes + 1) ++ bytes.drop 4).take 4 =
      storeInt (loadInt bytes + 1) := by
    rw [List.take_append_of_le_length (by simp), List.take_of_length_le (by simp)]
  have hsend : ∀ data data', data = data' →
      (sys (.send connection data) : SysProg ℤ) = sys (.send connection data') := by
    rintro data _ rfl
    rfl
  apply hsend
  simp only [overwrite, storeInt_length]
  exact htake

/-- Whatever the buffer held, one piece is received and one reply is sent. -/
theorem counterServe_desk (connection : Fd) :
    Safe deskEnv deskGuard
      (fun r w => r = .inl () ∧ ∃ stale, stale.length = 4096 ∧ w = replied c rest done stale)
      (counterServe { NetMsg.zero with connection := connection }) (serving c rest done) := by
  have hpos : ¬ ((c.chunks.headD []).length : ℤ) ≤ 0 := by
    have hlen := List.length_pos_iff.mpr c.head_ne_nil
    omega
  apply Safe.bind
  apply (tcpServerRecvMsg_desk connection).mono
  rintro _ _ ⟨addr, stale, hstale, rfl, rfl⟩
  simp only [hpos, if_false, received, countUp_send]
  apply Safe.call deskEnv_still
  · apply deskGuard_of_legal (by simp)
    exact ⟨_, rfl⟩
  · intro (rc : ℤ) hrc
    have hlen : rc = 4 := by
      have hlegal : rc = (storeInt _).length := hrc
      simpa using hlegal
    have hneg : ¬ rc < 0 := by omega
    apply (cleanupRound_desk hneg _).mono
    rintro r _ ⟨rfl, rfl⟩
    exact ⟨rfl, stale, hstale, rfl⟩

theorem Desk.connect_eq (h : w.waiting = c :: rest) : w.connect = serving c rest w.served := by
  rw [Desk.connect, h]
  rfl

/-- One round serves one client. -/
theorem counterRound_desk (srv : OsServer) (h : w.Answered) :
    Safe deskEnv deskGuard
      (fun r w' => r = .inl () ∧ ∃ c rest stale, w.waiting = c :: rest ∧ stale.length = 4096 ∧
        w' = replied c rest w.served stale)
      (counterRound srv ()) w := by
  apply Safe.call deskEnv_still
  · refine ⟨fun _ _ => h, ?_⟩
    cases hw : w.waiting with
    | nil => exact .inr ⟨⟨_, rfl⟩, rfl⟩
    | cons c rest => exact .inl ⟨(0 : ℤ), le_refl (0 : ℤ), by simp [hw]⟩
  · intro (s : ℤ) hs
    obtain ⟨hpos, hne⟩ : 0 ≤ s ∧ w.waiting ≠ [] := hs
    obtain ⟨c, rest, hw⟩ := List.exists_cons_of_ne_nil hne
    have hconnect : deskEnv.effect w (.accept srv.listenerSocket.s) s =
        serving c rest w.served := Desk.connect_eq hw
    have hneg : ¬ s < 0 := by omega
    rw [hconnect]
    simp only [Prog.bind, hneg, if_false]
    apply Safe.call deskEnv_still
    · apply deskGuard_of_legal (by simp)
      exact ⟨(0 : ℤ), rfl⟩
    · intro (rc : ℤ) hrc
      obtain rfl : rc = 0 := hrc
      apply (counterServe_desk s).mono
      rintro r w' ⟨rfl, stale, hstale, rfl⟩
      exact ⟨rfl, c, rest, stale, hw, hstale, rfl⟩

theorem tcpServerRecvMsg_returns (connection : Fd) (addr : ℕ) (hstale : stale.length = 4096) :
    Returns deskEnv
      (fun r w => r = (((c.chunks.headD []).length : ℤ),
          received connection addr stale (c.chunks.headD [])) ∧
        w = ⟨rest, some c.chunks.tail, (c, []) :: done⟩)
      (tcpServerRecvMsg { NetMsg.zero with connection := connection }) (serving c rest done) := by
  let buffer : Option Block := some ⟨addr, stale⟩
  let piece : Option (List Byte) := some (c.chunks.headD [])
  have hbuffer : deskEnv.legal (serving c rest done) (.malloc .netbuf 4096) buffer :=
    ⟨⟨addr, stale⟩, rfl, hstale⟩
  have hpiece : deskEnv.legal (serving c rest done) (.recv connection 4096) piece :=
    fun _ h => Option.some.inj h ▸ rfl
  apply Returns.call buffer hbuffer
  apply Returns.call piece hpiece
  exact .ret ⟨rfl, rfl⟩

/-- Every old content of the buffer is possible. -/
theorem counterRound_returns (srv : OsServer) (hw : w.waiting = c :: rest)
    (hstale : stale.length = 4096) :
    Returns deskEnv (fun r w' => r = .inl () ∧ w' = replied c rest w.served stale)
      (counterRound srv ()) w := by
  have hconnect : deskEnv.effect w (.accept srv.listenerSocket.s) (0 : ℤ) =
      serving c rest w.served := Desk.connect_eq hw
  have haccept : deskEnv.legal w (.accept srv.listenerSocket.s) (0 : ℤ) :=
    ⟨le_refl (0 : ℤ), by simp [hw]⟩
  have hpos : ¬ ((c.chunks.headD []).length : ℤ) ≤ 0 := by
    have hlen := List.length_pos_iff.mpr c.head_ne_nil
    omega
  apply Returns.call (0 : ℤ) haccept
  rw [hconnect]
  apply Returns.call (0 : ℤ) (Eq.refl (0 : ℤ))
  apply Returns.bind (tcpServerRecvMsg_returns 0 0 hstale)
  rintro _ _ ⟨rfl, rfl⟩
  simp only [hpos, if_false, received, countUp_send]
  have hsent : ((storeInt (loadInt (overwrite stale (c.chunks.headD [])) + 1)).length : ℤ) = 4 := by
    simp
  apply Returns.call _ rfl
  rw [Prog.bind, hsent]
  apply Returns.call () trivial
  apply Returns.call () trivial
  exact .ret ⟨rfl, rfl⟩

/-! ## The whole server -/

theorem replied_answered (h : w.Answered) (hreply : counterReply c stale = storeInt (c.x + 1)) :
    (replied c rest w.served stale).Answered := by
  intro p hp
  rcases List.mem_cons.mp hp with rfl | hp
  · simp only [hreply]
  · exact h p hp

/-- Clients whose requests arrive whole are all answered, for as long as the loop runs. -/
theorem counterLoop_desk {α : Type} {post : α → Desk → Prop} (srv : OsServer)
    (k : LoopExit → SysProg α) (h : w.Answered) (hwhole : ∀ c ∈ w.waiting, c.Whole) :
    Safe deskEnv deskGuard post (.loop (counterRound srv) () k) w := by
  refine Safe.loop (fun _ w => w.Answered ∧ ∀ c ∈ w.waiting, c.Whole)
    (fun _ => deskEnv_still.stable _) ?_ ⟨h, hwhole⟩
  rintro - w ⟨h, hwhole⟩
  apply (counterRound_desk srv h).mono
  rintro _ _ ⟨rfl, c, rest, stale, hw, -, rfl⟩
  have hc : c.Whole := hwhole c (hw ▸ List.mem_cons_self)
  exact ⟨replied_answered h (hc.reply stale), fun c' hc' =>
    hwhole c' (hw ▸ List.mem_cons_of_mem c hc')⟩

/-- The loop can only answer requests that arrive whole. -/
theorem whole_of_counterLoop {α : Type} {post : α → Desk → Prop} (srv : OsServer)
    (k : LoopExit → SysProg α) (clients : List Client) :
    ∀ w : Desk, w.waiting = clients →
      Safe deskEnv deskGuard post (.loop (counterRound srv) () k) w →
      ∀ c ∈ clients, c.Whole := by
  have hanswered : ∀ w, Safe deskEnv deskGuard post (.loop (counterRound srv) () k) w →
      w.Answered := by
    intro w h
    have hguard : deskGuard w (.accept srv.listenerSocket.s) := (h.step .loop).meets
    exact hguard.1 _ rfl
  have hround : ∀ (w : Desk) (c : Client) (rest : List Client) (stale : List Byte),
      w.waiting = c :: rest → stale.length = 4096 →
      Safe deskEnv deskGuard post (.loop (counterRound srv) () k) w →
      Safe deskEnv deskGuard post (.loop (counterRound srv) () k)
        (replied c rest w.served stale) := by
    intro w c rest stale hw hstale h
    obtain ⟨_, _, hreach, rfl, rfl⟩ := counterRound_returns srv hw hstale
    intro p w' hp
    exact h p w' (.head .loop (hreach.bind.trans hp))
  induction clients with
  | nil => simp
  | cons c rest ih =>
    intro w hw h c' hc'
    rcases List.mem_cons.mp hc' with rfl | hc'
    · by_contra hpieces
      obtain ⟨stale, hstale, hreply⟩ := Client.stale_reply hpieces
      have hnext := hanswered _ (hround w c' rest stale hw hstale h)
      have hlast := hnext (c', [counterReply c' stale]) List.mem_cons_self
      exact hreply (List.singleton_injective hlast)
    · exact ih _ rfl (hround w c rest (List.replicate 4096 0) hw List.length_replicate h) c' hc'

theorem PrologueCall.idle {call : Call} (h : PrologueCall call) (hunread : w.unread = none) :
    IdleCall w call := by
  cases call with
  | gettimeofday => exact ⟨by simp, ⟨0, ⟨0, 0⟩⟩, fun _ => ⟨trivial, rfl⟩⟩
  | osClone n g => exact ⟨by simp, ⟨0, g⟩, fun _ => ⟨trivial, rfl⟩⟩
  | osGetSelfId => exact ⟨by simp, ⟨(0 : UInt)⟩, fun _ => ⟨trivial, rfl⟩⟩
  | osNetIpGetGw => exact ⟨by simp, ⟨0, 0⟩, fun _ => ⟨trivial, rfl⟩⟩
  | close s => exact ⟨by simp, ⟨()⟩, fun _ => ⟨trivial, rfl⟩⟩
  | fork | socket | setReuseAddr | bind | sendto | osSocketSetTimeout | indeterminate =>
    exact ⟨by simp, ⟨(0 : ℤ)⟩, fun _ => ⟨trivial, rfl⟩⟩
  | recv s size =>
    refine ⟨by simp, ⟨none⟩, fun data => ⟨fun chunks hchunks => ?_, ?_⟩⟩
    · exact absurd (hunread.symm.trans hchunks) (by simp)
    · obtain ⟨waiting, unread, served⟩ := w
      obtain rfl : unread = none := hunread
      rfl
  | _ => exact absurd h id

theorem StartCall.idle {call : Call} (h : StartCall call) : IdleCall w call := by
  cases call with
  | close s => exact ⟨by simp, ⟨()⟩, fun _ => ⟨trivial, rfl⟩⟩
  | socket | setReuseAddr | bind | listen | indeterminate =>
    exact ⟨by simp, ⟨(0 : ℤ)⟩, fun _ => ⟨trivial, rfl⟩⟩
  | _ => exact absurd h id

theorem opened_indifferent (clients : List Client) : Indifferent deskEnv (.opened clients) :=
  fun _ a hc => (hc.idle rfl).2.2 a

/-- The server can be started. -/
theorem tcpServerStart_returns (os : Platform) (srv : OsServer) :
    Returns deskEnv (fun r w' => r.1 = 0 ∧ w' = w)
      (tcpServerStart os srv DEFAULT_SERVER_PORT) w := by
  have hreuse : ∀ s, Returns deskEnv (fun rc w' => rc = 0 ∧ w' = w) (reuseAddress os s) w := by
    intro s
    unfold reuseAddress
    split
    · exact .ret ⟨rfl, rfl⟩
    · apply Returns.call (0 : ℤ) trivial
      exact .ret ⟨rfl, rfl⟩
  have hinit : Returns deskEnv (fun r w' => r.1 = 0 ∧ w' = w)
      (mysocketInit os .listener srv.listenerSocket .stream DEFAULT_SERVER_PORT) w := by
    apply Returns.call (0 : ℤ) trivial
    simp only [Prog.bind, lt_irrefl, if_false]
    apply Returns.bind (hreuse 0)
    rintro _ _ ⟨rfl, rfl⟩
    apply Returns.call (0 : ℤ) trivial
    exact .ret ⟨rfl, rfl⟩
  apply Returns.bind hinit
  rintro ⟨rc, sock⟩ _ ⟨rfl, rfl⟩
  apply Returns.call (0 : ℤ) trivial
  exact .ret ⟨rfl, rfl⟩

theorem CountsFor.whole {os : Platform} {g : Globals} (h : CountsFor os g clients) :
    ∀ c ∈ clients, c.Whole := by
  obtain ⟨p, _, hprologue, hrc, rfl⟩ :=
    serverPrologue_succeeds_once (opened_indifferent clients) os g
  have hserve := h.reaches hprologue.bind
  simp only [Prog.ret_bind, hrc, ne_eq, not_true_eq_false, if_false] at hserve
  have hlocal := (hserve.step (.call (0 : ℤ) trivial)).step (.call (0 : ℤ) trivial)
  obtain ⟨srv, _, hstart, hstarted, rfl⟩ := @tcpServerStart_returns (.opened clients) os ⟨0, 0⟩
  have hloop := hlocal.reaches hstart.bind.bind
  simp only [Prog.ret_bind, hstarted, ne_eq, not_true_eq_false, if_false] at hloop
  exact whole_of_counterLoop srv.2 _ clients _ rfl hloop

theorem countsFor_of_whole (os : Platform) (g : Globals) (hwhole : ∀ c ∈ clients, c.Whole) :
    CountsFor os g clients := by
  apply Safe.bind
  apply (safe_idle ((serverPrologue_calls os g).mono (fun _ hc => hc.idle rfl))).mono
  rintro r _ rfl
  dsimp only
  split
  · exact Safe.ret deskEnv_still rfl
  · apply Safe.bind
    apply Safe.bind
    apply (safe_idle (uninitialisedServer_calls.mono (fun _ hc => hc.idle))).mono
    rintro srv _ rfl
    apply Safe.bind
    apply (safe_idle ((tcpServerStart_calls ..).mono (fun _ hc => hc.idle))).mono
    rintro started _ rfl
    dsimp only
    split
    · exact Safe.ret deskEnv_still (Safe.ret deskEnv_still rfl)
    · exact counterLoop_desk started.2 _ (by simp [Desk.Answered, Desk.opened]) hwhole

/-- The server answers every client exactly when every request arrives in one piece. -/
theorem counter_counts_iff_whole (os : Platform) (g : Globals) (clients : List Client) :
    CountsFor os g clients ↔ ∀ c ∈ clients, c.Whole :=
  ⟨CountsFor.whole, countsFor_of_whole os g⟩

/-- Zero, in two pieces. -/
def splitClient : Client := ⟨0, [[0], [0, 0, 0]], by decide, by decide⟩

theorem counter_miscounts : ¬ CountsFor .posix .initial [splitClient] := by
  intro h
  have hwhole : splitClient.Whole := h.whole splitClient (List.mem_singleton_self _)
  exact absurd hwhole (by simp [Client.Whole, splitClient])

end CloningApps.Server
