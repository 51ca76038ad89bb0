import CloningApps.Interaction.Safe
import CloningApps.Net.SendTime

/-! # The gateway of each platform

`send_time` asks `os_net_ip_get_gw` where the collector is and takes every code
but `0` for an error. The conversion of a dotted address is a library function
that returns `1` when it succeeds.
-/

namespace CloningApps.Net
open Text Interaction Os Cmdline

def ENODEV : ℤ := 19

/-- What a platform knows of its network: the device of Unikraft with the string it was given
for the gateway, and the `gw` of Mini-OS, which is also there when it was never set. -/
inductive NetConfig where
  | posix
  | unikraft (netdev : Option (Option CStr))
  | minios (gw : UInt) (isSet : Bool)

/-- A parser of dotted addresses, which stores an address when it returns `1`. -/
abbrev Aton := CStr → Option UInt

def Aton.code (aton : Aton) (s : CStr) : ℤ := if (aton s).isSome then 1 else 0

/-- The code returned and what is stored in `*ip`. -/
def osNetIpGetGwPosix (inetAton : Aton) : ℤ × Option UInt :=
  let rc := inetAton.code (ascii "127.0.0.1")
  if rc ≠ 1 then (-EINVAL, none)
  else (0, inetAton (ascii "127.0.0.1"))

/-- `garbage` is the local `gw` before anything was stored in it. -/
def osNetIpGetGwUnikraft (ip4addrAton : Aton) (netdev : Option (Option CStr)) (garbage : UInt) :
    ℤ × Option UInt :=
  match netdev with
  | none => (-ENODEV, none)
  | some none => (0, some garbage)
  | some (some gwStr) =>
    let rc := ip4addrAton.code gwStr
    if rc ≠ 1 then (-EINVAL, none)
    else (rc, ip4addrAton gwStr)

/-- The caller always passes an `ip`. -/
def osNetIpGetGwMinios (gw : UInt) : ℤ × Option UInt := (0, some gw)

def osNetIpGetGw (aton : Aton) (net : NetConfig) (garbage : UInt) : ℤ × Option UInt :=
  match net with
  | .posix => osNetIpGetGwPosix aton
  | .unikraft netdev => osNetIpGetGwUnikraft aton netdev garbage
  | .minios gw _ => osNetIpGetGwMinios gw

/-- The gateway that was configured, if there is one. -/
def NetConfig.gateway (aton : Aton) : NetConfig → Option UInt
  | .posix => aton (ascii "127.0.0.1")
  | .unikraft none => none
  | .unikraft (some gwStr) => gwStr.bind aton
  | .minios gw isSet => if isSet then some gw else none

/-- What `send_time` relies on. -/
def GatewayContract (gateway : Option UInt) (r : ℤ × Option UInt) : Prop :=
  match gateway with
  | some addr => r = (0, some addr)
  | none => r.1 ≠ 0 ∧ r.2 = none

/-- The configurations that the platforms handle. -/
def Handled (aton : Aton) : NetConfig → Prop
  | .posix => True
  | .unikraft none => True
  | .unikraft (some none) => False
  | .unikraft (some (some gwStr)) => aton gwStr = none
  | .minios _ isSet => isSet = true

variable {aton : Aton} {net : NetConfig}

theorem contract_iff_handled :
    (∀ garbage, GatewayContract (net.gateway aton) (osNetIpGetGw aton net garbage)) ↔
      Handled aton net := by
  cases net with
  | posix =>
    cases h : aton (ascii "127.0.0.1") <;>
      simp [GatewayContract, NetConfig.gateway, osNetIpGetGw, osNetIpGetGwPosix, Aton.code, h,
        Handled, EINVAL]
  | unikraft netdev =>
    cases netdev with
    | none =>
      simp [GatewayContract, NetConfig.gateway, osNetIpGetGw, osNetIpGetGwUnikraft, Handled, ENODEV]
    | some gwStr =>
      cases gwStr with
      | none => simp [GatewayContract, NetConfig.gateway, osNetIpGetGw, osNetIpGetGwUnikraft, Handled]
      | some s =>
        cases h : aton s <;>
          simp [GatewayContract, NetConfig.gateway, osNetIpGetGw, osNetIpGetGwUnikraft, Aton.code,
            h, Handled, EINVAL]
  | minios gw isSet =>
    cases isSet <;>
      simp [GatewayContract, NetConfig.gateway, osNetIpGetGw, osNetIpGetGwMinios, Handled]

/-! ## Where `send_time` sends to -/

/-- A process that finds its gateway as the platform does; the world holds the addresses it has
sent to. -/
def gatewayLink (aton : Aton) (net : NetConfig) : Env system (List UInt) where
  legal
    | _, .gettimeofday, r => r.1 = 0
    | _, .osNetIpGetGw, r => ∃ garbage, r.1 = (osNetIpGetGw aton net garbage).1 ∧
        ∀ addr, (osNetIpGetGw aton net garbage).2 = some addr → r.2 = addr
    | _, _, _ => True
  effect
    | addrs, .sendto _ addr _ _, _ => addrs ++ [addr]
    | addrs, _, _ => addrs
  drift := fun _ _ => False

theorem gatewayLink_still : (gatewayLink aton net).Still := fun _ _ h => h

/-- Only the configured gateway is sent to. -/
def OnlyGateway (gateway : Option UInt) (_ : List UInt) : Call → Prop
  | .sendto _ addr _ _ => gateway = some addr
  | _ => True

/-- Every message goes to the configured gateway, and one is sent when there is one. -/
def SendsToGateway (aton : Aton) (net : NetConfig) (g : Globals) (sock : Mysocket)
    (tv : Option Timeval) (suffix : Option CStr) : Prop :=
  Safe (gatewayLink aton net) (OnlyGateway (net.gateway aton))
    (fun _ addrs => ∀ addr, net.gateway aton = some addr → addr ∈ addrs)
    (sendTime g sock tv suffix) []

variable {sock : Mysocket} {ip : UInt} {message : CStr} {addrs : List UInt} {suffix : Option CStr}
  {tv : Timeval}

theorem sendRound_onlyGateway (h : net.gateway aton = some ip) :
    Safe (gatewayLink aton net) (OnlyGateway (net.gateway aton)) (fun _ addrs => ip ∈ addrs)
      (sendRound sock ip message) addrs := by
  have hE : (gatewayLink aton net).Still := gatewayLink_still
  have hmem : ip ∈ addrs ++ [ip] := List.mem_append_right _ (List.mem_singleton_self ip)
  apply Safe.call hE h
  intro (rc : ℤ) _
  simp only [Prog.bind]
  split
  · exact Safe.ret hE hmem
  · apply Safe.call hE trivial
    intro (rc : ℤ) _
    simp only [Prog.bind]
    split
    next hrc =>
      simp only [Prog.pure_eq, Prog.ret_bind, if_pos hrc]
      exact Safe.ret hE hmem
    next =>
      apply Safe.call hE trivial
      intro data _
      apply Safe.bind
      cases data with
      | none => exact Safe.ret hE (Safe.ret hE hmem)
      | some data =>
        apply Safe.ret hE
        split
        · exact Safe.ret hE hmem
        · split <;> exact Safe.ret hE hmem

/-- The contract of the lookup is all that `send_time` needs. -/
theorem sendTimeval_onlyGateway
    (h : ∀ garbage, GatewayContract (net.gateway aton) (osNetIpGetGw aton net garbage)) :
    Safe (gatewayLink aton net) (OnlyGateway (net.gateway aton))
      (fun _ addrs => ∀ addr, net.gateway aton = some addr → addr ∈ addrs)
      (sendTimeval sock suffix tv) addrs := by
  have hE : (gatewayLink aton net).Still := gatewayLink_still
  apply Safe.call hE trivial
  intro r hr
  obtain ⟨garbage, hrc, haddr⟩ := hr
  have hcontract := h garbage
  cases hgateway : net.gateway aton with
  | none =>
    rw [hgateway] at hcontract
    have hne : r.1 ≠ 0 := hrc ▸ hcontract.1
    simp only [Prog.bind, hne, ne_eq, not_false_eq_true, if_true]
    exact Safe.ret hE (fun addr hnone => nomatch hnone)
  | some ip =>
    rw [hgateway] at hcontract
    have hzero : r.1 = 0 := hrc.trans (congrArg Prod.fst hcontract)
    have hip : r.2 = ip := haddr ip (congrArg Prod.snd hcontract)
    simp only [Prog.bind, hzero, ne_eq, not_true_eq_false, if_false, hip]
    refine Safe.loop (fun _ _ => True) (fun _ => hE.stable _) (fun message addrs _ => ?_) trivial
    rw [← hgateway]
    apply (sendRound_onlyGateway hgateway).mono
    intro r addrs hmem
    cases r with
    | inl message => trivial
    | inr rc =>
      apply Safe.ret hE
      intro addr haddr
      obtain rfl : ip = addr := Option.some.inj (hgateway.symm.trans haddr)
      exact hmem

theorem sendsToGateway_of_contract (g : Globals) (hg : g.doSendTime = true)
    (tv : Option Timeval)
    (h : ∀ garbage, GatewayContract (net.gateway aton) (osNetIpGetGw aton net garbage)) :
    SendsToGateway aton net g sock tv suffix := by
  unfold SendsToGateway sendTime
  simp only [hg, Bool.not_true, Bool.false_eq_true, if_false]
  cases tv with
  | some tv => exact sendTimeval_onlyGateway h
  | none =>
    apply Safe.call gatewayLink_still trivial
    intro r hr
    have hr : r.1 = 0 := hr
    simp only [Prog.bind, hr, ne_eq, not_true_eq_false, if_false]
    exact sendTimeval_onlyGateway h

/-! ## Platforms that break the contract -/

/-- With reporting on, `send_time` comes to `sendTimeval`. -/
theorem SendsToGateway.sendTimeval {g : Globals} (hg : g.doSendTime = true)
    {tv : Option Timeval} (h : SendsToGateway aton net g sock tv suffix) :
    ∃ now, Safe (gatewayLink aton net) (OnlyGateway (net.gateway aton))
      (fun _ addrs => ∀ addr, net.gateway aton = some addr → addr ∈ addrs)
      (sendTimeval sock suffix now) [] := by
  unfold SendsToGateway sendTime at h
  simp only [hg, Bool.not_true, Bool.false_eq_true, if_false] at h
  cases tv with
  | some tv => exact ⟨tv, h⟩
  | none => exact ⟨⟨0, 0⟩, ((safe_call_iff gatewayLink_still).mp h).2 (0, ⟨0, 0⟩) rfl⟩

/-- A code other than `0` keeps the message from a configured gateway. -/
theorem gateway_missed {addr garbage : UInt} {rc : ℤ} (hgateway : net.gateway aton = some addr)
    (hlookup : osNetIpGetGw aton net garbage = (rc, some addr)) (hrc : rc ≠ 0) :
    ¬ Safe (gatewayLink aton net) (OnlyGateway (net.gateway aton))
      (fun _ addrs => ∀ addr, net.gateway aton = some addr → addr ∈ addrs)
      (sendTimeval sock suffix tv) [] := by
  intro h
  have hlegal : (gatewayLink aton net).legal [] .osNetIpGetGw (rc, addr) := by
    refine ⟨garbage, by simp [hlookup], ?_⟩
    simp [hlookup]
  have hrefused := ((safe_call_iff gatewayLink_still).mp h).2 (rc, addr) hlegal
  simp only [Prog.bind, hrc, ne_eq, not_false_eq_true, if_true] at hrefused
  have hsent := (safe_ret_iff gatewayLink_still).mp hrefused addr hgateway
  exact absurd hsent (List.not_mem_nil)

/-- A lookup that succeeds without a gateway has the message sent somewhere. -/
theorem gateway_invented {addr garbage : UInt} (hgateway : net.gateway aton = none)
    (hlookup : osNetIpGetGw aton net garbage = (0, some addr)) :
    ¬ Safe (gatewayLink aton net) (OnlyGateway (net.gateway aton))
      (fun _ addrs => ∀ addr, net.gateway aton = some addr → addr ∈ addrs)
      (sendTimeval sock suffix tv) [] := by
  intro h
  have hlegal : (gatewayLink aton net).legal [] .osNetIpGetGw (0, addr) := by
    refine ⟨garbage, by simp [hlookup], ?_⟩
    simp [hlookup]
  have hfound := ((safe_call_iff gatewayLink_still).mp h).2 (0, addr) hlegal
  have hguard := ((safe_call_iff gatewayLink_still).mp (hfound.step .loop)).1
  exact absurd (hgateway.symm.trans hguard) (by simp)

theorem handled_of_sends {g : Globals} (hg : g.doSendTime = true) {tv : Option Timeval}
    (h : SendsToGateway aton net g sock tv suffix) : Handled aton net := by
  obtain ⟨now, hsafe⟩ := h.sendTimeval hg
  cases net with
  | posix => trivial
  | unikraft netdev =>
    cases netdev with
    | none => trivial
    | some gwStr =>
      cases gwStr with
      | none => exact absurd hsafe (@gateway_invented _ _ _ _ _ 0 0 rfl rfl)
      | some s =>
        cases haton : aton s with
        | none => exact haton
        | some addr =>
          refine absurd hsafe (@gateway_missed _ _ _ _ _ addr 0 1 haton ?_ one_ne_zero)
          simp [osNetIpGetGw, osNetIpGetGwUnikraft, Aton.code, haton]
  | minios gw isSet =>
    cases isSet with
    | true => rfl
    | false => exact absurd hsafe (@gateway_invented _ _ _ _ _ gw 0 rfl rfl)

/-- The contract is kept, and messages go to the gateway, in the same configurations: on POSIX,
on Unikraft without a device or with an invalid string, and on Mini-OS with a gateway set. -/
theorem osNetIpGetGw_contract_iff (aton : Aton) (net : NetConfig) (g : Globals)
    (hg : g.doSendTime = true) (sock : Mysocket) (tv : Option Timeval) (suffix : Option CStr) :
    ((∀ garbage, GatewayContract (net.gateway aton) (osNetIpGetGw aton net garbage)) ↔
      Handled aton net) ∧
    (SendsToGateway aton net g sock tv suffix ↔ Handled aton net) := by
  refine ⟨contract_iff_handled, handled_of_sends hg, fun h => ?_⟩
  exact sendsToGateway_of_contract g hg tv (contract_iff_handled.mpr h)

/-- A parser that knows two addresses. -/
def atonTwo : Aton := fun s =>
  if s = ascii "127.0.0.1" then some 0x7f000001
  else if s = ascii "10.8.0.1" then some 0x0a080001
  else none

theorem osNetIpGetGw_contract_iff_posix :
    SendsToGateway atonTwo .posix { Globals.initial with doSendTime := true } ⟨3, 32767⟩ none none :=
  (osNetIpGetGw_contract_iff atonTwo .posix { Globals.initial with doSendTime := true } rfl
    ⟨3, 32767⟩ none none).2.mpr trivial

/-- On Unikraft a valid gateway is refused, and without one the message goes to what was on the
stack. -/
theorem osNetIpGetGw_unikraft :
    osNetIpGetGw atonTwo (.unikraft (some (some (ascii "10.8.0.1")))) 7 = (1, some 0x0a080001) ∧
      osNetIpGetGw atonTwo (.unikraft (some none)) 7 = (0, some 7) ∧
      ¬ (∀ garbage, GatewayContract
        (NetConfig.gateway atonTwo (.unikraft (some (some (ascii "10.8.0.1")))))
        (osNetIpGetGw atonTwo (.unikraft (some (some (ascii "10.8.0.1")))) garbage)) ∧
      ¬ SendsToGateway atonTwo (.unikraft (some (some (ascii "10.8.0.1"))))
        { Globals.initial with doSendTime := true } ⟨3, 32767⟩ none none ∧
      ¬ SendsToGateway atonTwo (.unikraft (some none))
        { Globals.initial with doSendTime := true } ⟨3, 32767⟩ none none := by
  have hvalid : atonTwo (ascii "10.8.0.1") = some 0x0a080001 := by decide
  refine ⟨by decide, rfl, fun h => ?_, fun h => ?_, fun h => handled_of_sends rfl h⟩
  · have hnone : atonTwo (ascii "10.8.0.1") = none := contract_iff_handled.mp h
    exact absurd (hvalid.symm.trans hnone) (by decide)
  · have hnone : atonTwo (ascii "10.8.0.1") = none := handled_of_sends rfl h
    exact absurd (hvalid.symm.trans hnone) (by decide)

end CloningApps.Net
