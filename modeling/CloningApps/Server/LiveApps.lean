import CloningApps.Server.Live

/-! # The applications use only what they hold

The prologue reports from sockets that are open, and each application keeps its
listening socket and its pages for as long as its rounds use them.
-/

namespace CloningApps.Server
open Text Interaction Os Cmdline Net

variable {runs : Runs} {w : World} {g : Globals} {sock : Mysocket} {m : NetMsg}

/-! ## Reports -/

/-- Whoever reports has a socket to report from. -/
def CanReport (g : Globals) (sock : Mysocket) (w : World) : Prop :=
  g.doSendTime = true → Holds w (.fd sock.s) .report

theorem CanReport.closes (h : CanReport g sock w) (hsend : g.doSendTime = true) :
    0 ≤ sock.s → runs = .all ∨ ∃ k, Holds w (.fd sock.s) k :=
  fun _ => .inr ⟨_, h hsend⟩

/-! ## The prologue -/

theorem KeepsSettings.doSendTime {n : UInt} {r : ℤ × Globals}
    (h : KeepsSettings (.osClone n g) r) : r.2.doSendTime = g.doSendTime := by
  rcases h with h | h <;> rw [h]
  rfl

end CloningApps.Server
