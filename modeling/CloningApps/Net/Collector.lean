import CloningApps.Interaction.Safe
import CloningApps.Net.SendTime

/-! # The collector behind a lossy network

The network loses, delays and reorders datagrams. The collector answers each one
that it receives with an acknowledgement to its sender. Neither carries anything
that tells the calls of `send_time` apart; their numbers are kept here for the
statements only.
-/

namespace CloningApps.Net
open Text Interaction Os Cmdline

/-- What `posix-server` answers. -/
def ACK : List Byte := ascii "ACK"

/-- Datagrams and acknowledgements on their way, and the receive queue of the socket, each with
the call that it goes back to. -/
structure Network where
  call : ℕ
  toCollector : Multiset ℕ
  received : List ℕ
  toSender : Multiset ℕ
  queue : List ℕ
  taken : List (ℕ × ℕ)

namespace Network

def initial : Network := ⟨0, 0, [], 0, [], []⟩

def nextCall (net : Network) : Network := { net with call := net.call + 1 }

/-- An acknowledgement is taken out of the queue by the current call. -/
def take (net : Network) : Network :=
  match net.queue with
  | [] => net
  | t :: queue => { net with queue := queue, taken := (net.call, t) :: net.taken }

/-- Receiving fails, or times out, at any time. -/
def legal (net : Network) : (c : Call) → c.Answer → Prop
  | .recv _ size, some data => net.queue ≠ [] ∧ data = ACK.take size.toNat
  | _, _ => True

def effect (net : Network) : (c : Call) → c.Answer → Network
  | .sendto .., rc =>
    if 0 ≤ rc then { net with toCollector := net.call ::ₘ net.toCollector } else net
  | .recv .., some _ => net.take
  | _, _ => net

end Network

/-- What happens without the sender. -/
inductive NetStep : Network → Network → Prop where
  | receive {net : Network} (t : ℕ) (rest : Multiset ℕ) (h : net.toCollector = t ::ₘ rest) :
      NetStep net { net with
        toCollector := rest, received := t :: net.received, toSender := t ::ₘ net.toSender }
  | loseDatagram {net : Network} (t : ℕ) (rest : Multiset ℕ) (h : net.toCollector = t ::ₘ rest) :
      NetStep net { net with toCollector := rest }
  | deliver {net : Network} (t : ℕ) (rest : Multiset ℕ) (h : net.toSender = t ::ₘ rest) :
      NetStep net { net with toSender := rest, queue := net.queue ++ [t] }
  | loseAck {net : Network} (t : ℕ) (rest : Multiset ℕ) (h : net.toSender = t ::ₘ rest) :
      NetStep net { net with toSender := rest }

def collectorEnv : Env system Network where
  legal := Network.legal
  effect := Network.effect
  drift := NetStep

/-- Nothing of an earlier call is on its way or waits in the socket. -/
def Quiet (net : Network) : Prop :=
  net.toCollector = 0 ∧ net.toSender = 0 ∧ net.queue = []

/-- Everything on its way goes back to the current call, and so did every acknowledgement that
was taken. -/
structure Own (net : Network) : Prop where
  toCollector : ∀ t ∈ net.toCollector, t = net.call
  toSender : ∀ t ∈ net.toSender, t = net.call ∧ t ∈ net.received
  queue : ∀ t ∈ net.queue, t = net.call ∧ t ∈ net.received
  taken : ∀ c t, (c, t) ∈ net.taken → t = c

variable {net net' : Network}

theorem NetStep.call_eq (h : NetStep net net') : net'.call = net.call := by
  cases h <;> rfl

theorem NetStep.received_subset (h : NetStep net net') : net.received ⊆ net'.received := by
  cases h with
  | receive t rest h => exact List.subset_cons_self t net.received
  | loseDatagram | deliver | loseAck => exact List.Subset.refl _

@[simp] theorem Network.take_call (net : Network) : net.take.call = net.call := by
  unfold Network.take
  split <;> rfl

@[simp] theorem Network.take_received (net : Network) : net.take.received = net.received := by
  unfold Network.take
  split <;> rfl

theorem Network.effect_call (net : Network) (c : Call) (a : c.Answer) :
    (net.effect c a).call = net.call := by
  cases c with
  | sendto =>
    simp only [Network.effect]
    split <;> rfl
  | recv => cases a <;> simp [Network.effect]
  | _ => rfl

theorem Network.effect_received (net : Network) (c : Call) (a : c.Answer) :
    (net.effect c a).received = net.received := by
  cases c with
  | sendto =>
    simp only [Network.effect]
    split <;> rfl
  | recv => cases a <;> simp [Network.effect]
  | _ => rfl

theorem Quiet.own (h : Quiet net) (htaken : ∀ c t, (c, t) ∈ net.taken → t = c) :
    Own net.nextCall := by
  obtain ⟨hcollector, hsender, hqueue⟩ := h
  refine ⟨fun t ht => ?_, fun t ht => ?_, fun t ht => ?_, htaken⟩
  · simp [Network.nextCall, hcollector] at ht
  · simp [Network.nextCall, hsender] at ht
  · simp [Network.nextCall, hqueue] at ht

theorem Own.drift (h : Own net) (hstep : NetStep net net') : Own net' := by
  cases hstep with
  | receive t rest hrest =>
    have ht : t = net.call := h.toCollector t (hrest ▸ Multiset.mem_cons_self t rest)
    refine ⟨fun u hu => ?_, fun u hu => ?_, fun u hu => ?_, h.taken⟩
    · exact h.toCollector u (hrest ▸ Multiset.mem_cons_of_mem hu)
    · rcases Multiset.mem_cons.mp hu with rfl | hu
      · exact ⟨ht, List.mem_cons_self⟩
      · exact ⟨(h.toSender u hu).1, List.mem_cons_of_mem t (h.toSender u hu).2⟩
    · exact ⟨(h.queue u hu).1, List.mem_cons_of_mem t (h.queue u hu).2⟩
  | loseDatagram t rest hrest =>
    exact ⟨fun u hu => h.toCollector u (hrest ▸ Multiset.mem_cons_of_mem hu), h.toSender,
      h.queue, h.taken⟩
  | deliver t rest hrest =>
    refine ⟨h.toCollector, fun u hu => ?_, fun u hu => ?_, h.taken⟩
    · exact h.toSender u (hrest ▸ Multiset.mem_cons_of_mem hu)
    · rcases List.mem_append.mp hu with hu | hu
      · exact h.queue u hu
      · obtain rfl : u = t := List.mem_singleton.mp hu
        exact h.toSender u (hrest ▸ Multiset.mem_cons_self u rest)
  | loseAck t rest hrest =>
    exact ⟨h.toCollector, fun u hu => h.toSender u (hrest ▸ Multiset.mem_cons_of_mem hu),
      h.queue, h.taken⟩

theorem Own.take (h : Own net) : Own net.take := by
  unfold Network.take
  cases hq : net.queue with
  | nil => exact h
  | cons t queue =>
    have ht : t = net.call := (h.queue t (hq ▸ List.mem_cons_self)).1
    refine ⟨h.toCollector, h.toSender, fun u hu => ?_, fun c u hu => ?_⟩
    · exact h.queue u (hq ▸ List.mem_cons_of_mem t hu)
    · rcases List.mem_cons.mp hu with hu | hu
      · obtain ⟨rfl, rfl⟩ := Prod.mk.inj hu
        exact ht
      · exact h.taken c u hu

theorem Own.effect (h : Own net) {c : system.Call} (a : system.Answer c) :
    Own (collectorEnv.effect net c a) := by
  cases c with
  | sendto s addr port data =>
    simp only [collectorEnv, Network.effect]
    split
    · refine ⟨fun t ht => ?_, h.toSender, h.queue, h.taken⟩
      rcases Multiset.mem_cons.mp ht with rfl | ht
      · rfl
      · exact h.toCollector t ht
    · exact h
  | recv =>
    cases a with
    | none => exact h
    | some data => exact h.take
  | _ => exact h

/-- An acknowledgement in the queue means that the collector has heard of the current call. -/
theorem Own.received (h : Own net) (hqueue : net.queue ≠ []) : net.call ∈ net.received := by
  obtain ⟨t, queue, hq⟩ := List.exists_cons_of_ne_nil hqueue
  obtain ⟨rfl, hreceived⟩ := h.queue t (hq ▸ List.mem_cons_self)
  exact hreceived

end CloningApps.Net
