import CloningApps.Os.Clone
import CloningApps.Server.Resources

/-! # No use after release

Every call that works on a descriptor, a block of the heap or a run of pages works
on one that the process holds, and holds as what it is used for: no server accepts
on a socket that is not listening any more, receives from a connection it has
closed, or frees a buffer twice. This is so in every process, however it was
started, and whatever its calls are answered with.
-/

namespace CloningApps.Server
open Text Interaction Os Cmdline Net

def Holds (w : World) (r : Resource) (k : Kind) : Prop := w.ledger.status r = .held k

def HoldsSocket (w : World) (s : Fd) : Prop :=
  Holds w (.fd s) .report ∨ Holds w (.fd s) .listener

/-- Which runs are looked at: all of them, or the smooth ones, in which `SO_REUSEADDR` can be set
and a prologue that has nothing to do finds no descriptor on its stack. -/
inductive Runs where
  | all
  | smooth (g : Globals)

namespace Runs

end Runs

/-- `os_clone` leaves the settings alone, or clears the flags that ask for children. -/
def KeepsSettings : (c : Call) → c.Answer → Prop
  | .osClone _ g, r => r.2 = g ∨ r.2 = inClone g
  | _, _ => True

/-- The implementations of `os_clone` do so. -/
theorem osClone_keepsSettings (os : Platform) (outcome : ℤ) (n : UInt) (g : Globals) :
    Safe (hypervisorEnv outcome) (fun _ _ => True) (fun r _ => r.2 = g ∨ r.2 = inClone g)
      (osClone os n g) false := by
  have hE := hypervisorEnv_still outcome
  have hchildren : ∀ childRc : ℤ, Safe (hypervisorEnv outcome) (fun _ _ => True)
      (fun r _ => r.2 = g ∨ r.2 = inClone g) (cloneChildren childRc n g) false := by
    intro childRc
    by_cases hn : n = 0
    · simp only [cloneChildren, hn, if_true]
      exact Safe.ret hE (.inl rfl)
    · apply (cloneChildren_safe childRc hn).mono
      rintro r called rfl
      unfold afterClone
      split
      · split
        · exact .inl rfl
        · split
          · exact .inr rfl
          · exact .inl rfl
      · exact .inl rfl
  cases os with
  | posix => exact Safe.ret hE (.inl rfl)
  | unikraft => exact hchildren 0
  | minios => exact hchildren 1

variable {runs : Runs}

/-- What is held of these kinds stays held. -/
def Kept (P : Kind → Prop) (w w' : World) : Prop := ∀ r k, P k → Holds w r k → Holds w' r k

/-- The listening socket and the pages are held until the server stops. -/
def Lasting (k : Kind) : Prop := k = .listener ∨ k = .pages

/-- What has to do with a client is held while a file is written. -/
def Serving (k : Kind) : Prop := k ≠ .file ∧ k ≠ .writeBuffer

abbrev Keeps (w w' : World) : Prop := Kept Lasting w w'

def KeepsPages (w w' : World) : Prop :=
  ∀ start n, Holds w (.pages start n) .pages → Holds w' (.pages start n) .pages

variable {w w' w'' : World} {r r' : Resource} {k k' : Kind} {m : NetMsg} {P : Kind → Prop}

theorem Kept.refl (w : World) : Kept P w w := fun _ _ _ h => h

theorem Kept.trans (h : Kept P w w') (h' : Kept P w' w'') : Kept P w w'' :=
  fun r k hk hw => h' r k hk (h r k hk hw)

theorem Kept.pages (h : Keeps w w') : KeepsPages w w' := fun _ _ hw => h _ _ (.inr rfl) hw

theorem Kept.keeps (h : Kept Serving w w') : Keeps w w' := by
  intro r k hk hw
  refine h r k ?_ hw
  rcases hk with rfl | rfl <;> exact ⟨by decide, by decide⟩

theorem KeepsPages.refl (w : World) : KeepsPages w w := fun _ _ h => h

theorem KeepsPages.trans (h : KeepsPages w w') (h' : KeepsPages w' w'') : KeepsPages w w'' :=
  fun start n hw => h' start n (h start n hw)

theorem Holds.acquire (h : Holds w r k) (hfresh : w.ledger.Fresh r') :
    Holds (w.acquire r' k') r k := by
  have hne : r ≠ r' := by
    rintro rfl
    exact hfresh k h
  exact (Ledger.status_acquire_of_ne hne).trans h

theorem Holds.release (h : Holds w r k) (hne : r ≠ r') : Holds (w.release r') r k :=
  (Ledger.status_release_of_ne hne).trans h

theorem Kept.acquire (hfresh : w.ledger.Fresh r) : Kept P w (w.acquire r k) :=
  fun _ _ _ h => h.acquire hfresh

/-- Releasing what need not be kept. -/
theorem Kept.release (h : Holds w r k) (hk : ¬ P k) : Kept P w (w.release r) := by
  intro r' k' hk' h'
  refine h'.release ?_
  rintro rfl
  have hkind : k' = k := by
    rw [Holds] at h h'
    exact Status.held.inj (h'.symm.trans h)
  exact hk (hkind ▸ hk')

/-- The connection of a message and its buffer, as far as it has them, are held. -/
structure MsgLive (m : NetMsg) (w : World) : Prop where
  connection : 0 ≤ m.connection → Holds w (.fd m.connection) .connection
  netbuf : ∀ block, m.netbuf = some block → Holds w (.block block.addr) .netbuf

theorem MsgLive.countUp (h : MsgLive m w) : MsgLive (countUp m) w := by
  unfold Server.countUp
  cases hm : m.netbuf with
  | none => exact h
  | some block =>
    refine ⟨h.connection, ?_⟩
    rintro _ ⟨⟩
    exact h.netbuf block hm

theorem MsgLive.spawn (h : MsgLive m w) (f : Flags) : MsgLive m ⟨w.ledger, f⟩ :=
  ⟨h.connection, h.netbuf⟩

theorem MsgLive.kept (h : MsgLive m w) (hkept : Kept Serving w w') : MsgLive m w' :=
  ⟨fun hs => hkept _ _ ⟨by decide, by decide⟩ (h.connection hs),
    fun block hb => hkept _ _ ⟨by decide, by decide⟩ (h.netbuf block hb)⟩

theorem Holds.fresh (h : Holds w r k) : (w.release r).ledger.Fresh r := by
  intro k' hk'
  have hreleased : (w.release r).ledger.status r = .released k := Ledger.status_release_self h
  exact absurd (hreleased.symm.trans hk') (by simp)

theorem Holds.socket {use : SocketUse} {s : Fd} (h : Holds w (.fd s) (socketKind use)) :
    HoldsSocket w s := by
  cases use with
  | report => exact .inl h
  | listener => exact .inr h

end CloningApps.Server
