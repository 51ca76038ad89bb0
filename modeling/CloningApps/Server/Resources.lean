import CloningApps.Interaction.Safe
import CloningApps.Interaction.Ledger
import CloningApps.Server.Programs

/-! # The resources of one process

The environment of a single process that keeps a ledger of its descriptors,
heap blocks and pages. It answers every call with every outcome the call can
have; a descriptor or a block that is handed out was not in use, and binding or
listening fails on a descriptor that is closed. Beside the ledger it remembers
whether the process is the original one and which side operations failed.
-/

namespace CloningApps.Server
open Text Interaction Os Cmdline Net

inductive Resource where
  | fd (s : Fd)
  | block (addr : ℕ)
  | pages (start : ℕ) (pagesNum : ULong)
  deriving DecidableEq

inductive Kind where
  | report | listener | connection | netbuf | writeBuffer | pages | file
  deriving DecidableEq

def socketKind : SocketUse → Kind
  | .report => .report
  | .listener => .listener

def blockKind : BlockUse → Kind
  | .netbuf => .netbuf
  | .writeBuffer => .writeBuffer

/-- `bound` and `listening` are about the listening socket, `reuseFailed` says that setting
`SO_REUSEADDR` on it failed, and `sideFailed` that cloning, forking or touching pages failed
while the process was listening. -/
structure Flags where
  original : Bool
  bound : Bool
  listening : Bool
  reuseFailed : Bool
  sideFailed : Bool
  deriving DecidableEq

structure World where
  ledger : Ledger Resource Kind
  flags : Flags

def Flags.initial : Flags := ⟨true, false, false, false, false⟩

def Flags.side (f : Flags) (failed : Bool) : Flags :=
  { f with sideFailed := f.sideFailed || (f.listening && failed) }

theorem Flags.side_of_not_listening {f : Flags} (h : f.listening = false) (failed : Bool) :
    f.side failed = f := by
  simp only [Flags.side, h, Bool.false_and, Bool.or_false]
  rw [← h]

/-- A process that saw this answer of `fork` or of a clone call. -/
def Flags.spawn (f : Flags) (parent failed : Bool) : Flags :=
  { f with original := f.original && parent }.side failed

namespace World

def initial : World := ⟨.empty, .initial⟩

def acquire (w : World) (r : Resource) (k : Kind) : World :=
  { w with ledger := w.ledger.acquire r k }

def release (w : World) (r : Resource) : World := { w with ledger := w.ledger.release r }

def isListener (w : World) (s : Fd) : Bool := w.ledger.status (.fd s) = .held .listener

def legal (w : World) : (c : Call) → c.Answer → Prop
  | .socket .., s => 0 ≤ s → w.ledger.Fresh (.fd s)
  | .accept _, s => 0 ≤ s → w.ledger.Fresh (.fd s)
  | .openFile _, fd => fd = -1 ∨ (0 ≤ fd ∧ w.ledger.Fresh (.fd fd))
  | .setReuseAddr _, rc => rc ≤ 0
  | .bind s _, rc => rc ≤ 0 ∧ (w.ledger.Fresh (.fd s) → rc < 0)
  | .listen s _, rc => w.ledger.Fresh (.fd s) → rc ≠ 0
  | .malloc .., some block => w.ledger.Fresh (.block block.addr)
  | .osAllocPages n, r => r.1 = 0 → w.ledger.Fresh (.pages r.2 n)
  | _, _ => True

def effect (w : World) : (c : Call) → c.Answer → World
  | .fork, pid => ⟨w.ledger, w.flags.spawn (pid ≠ 0) (pid < 0)⟩
  | .osClone .., r => ⟨w.ledger, w.flags.spawn (r.1 ≠ 1) (r.1 < 0)⟩
  | .memTouchPages .., rc => ⟨w.ledger, w.flags.side (rc ≠ 0)⟩
  | .socket use _, s => if 0 ≤ s then w.acquire (.fd s) (socketKind use) else w
  | .setReuseAddr s, rc =>
      { w with flags.reuseFailed := w.flags.reuseFailed || (rc < 0 && w.isListener s) }
  | .bind s _, rc => { w with flags.bound := w.flags.bound || (rc = 0 && w.isListener s) }
  | .listen s _, rc =>
      { w with flags.listening := w.flags.listening || (rc = 0 && w.isListener s) }
  | .accept _, s => if 0 ≤ s then w.acquire (.fd s) .connection else w
  | .openFile _, fd => if 0 ≤ fd then w.acquire (.fd fd) .file else w
  | .close s, _ => w.release (.fd s)
  | .malloc use _, some block => w.acquire (.block block.addr) (blockKind use)
  | .free addr, _ => w.release (.block addr)
  | .osAllocPages n, r => if r.1 = 0 then w.acquire (.pages r.2 n) .pages else w
  | .osFreePages start n, _ => w.release (.pages start n)
  | _, _ => w

end World

def processEnv : Env system World where
  legal := World.legal
  effect := World.effect
  drift := fun _ _ => False

theorem processEnv_still : processEnv.Still := fun _ _ h => h

/-- At the head of an accept loop nothing of an earlier round is held, and nothing was released
twice. -/
def acceptGuard (w : World) : Call → Prop
  | .accept _ => w.ledger.Settled .connection ∧ w.ledger.Settled .netbuf
  | _ => True

abbrev SafeProcess {α : Type} (post : α → World → Prop) (p : SysProg α) (w : World) : Prop :=
  Safe processEnv acceptGuard post p w

/-- The resources a process holds of the kinds that a server has to release. The listening
socket was released twice exactly when `SO_REUSEADDR` failed, and nothing else was. -/
structure Owns (w : World) (f : Flags) (listener connection netbuf pages : Set Resource) :
    Prop where
  flags : w.flags = f
  listener : w.ledger.held .listener = listener
  connection : w.ledger.held .connection = connection
  netbuf : w.ledger.held .netbuf = netbuf
  pages : w.ledger.held .pages = pages
  once : .connection ∉ w.ledger.faults ∧ .netbuf ∉ w.ledger.faults ∧ .pages ∉ w.ledger.faults
  reuse : .listener ∈ w.ledger.faults ↔ f.reuseFailed = true

namespace Owns
variable {w : World} {f : Flags} {l c b p : Set Resource} {r : Resource} {k : Kind}

theorem acquire (h : Owns w f l c b p) (hr : w.ledger.Fresh r) (k : Kind) :
    Owns (w.acquire r k) f (if k = .listener then insert r l else l)
      (if k = .connection then insert r c else c) (if k = .netbuf then insert r b else b)
      (if k = .pages then insert r p else p) := by
  have hheld : ∀ (k' : Kind) (s : Set Resource), w.ledger.held k' = s →
      (w.acquire r k).ledger.held k' = if k = k' then insert r s else s := by
    rintro k' s rfl
    split
    · subst k'
      exact Ledger.held_acquire_self ..
    · exact Ledger.held_acquire_of_ne hr (Ne.symm ‹_›)
  exact ⟨h.flags, hheld _ _ h.listener, hheld _ _ h.connection, hheld _ _ h.netbuf,
    hheld _ _ h.pages, h.once, h.reuse⟩

theorem release (h : Owns w f l c b p) (hr : r ∈ w.ledger.held k) :
    Owns (w.release r) f (if k = .listener then l \ {r} else l)
      (if k = .connection then c \ {r} else c) (if k = .netbuf then b \ {r} else b)
      (if k = .pages then p \ {r} else p) := by
  have hheld : ∀ (k' : Kind) (s : Set Resource), w.ledger.held k' = s →
      (w.release r).ledger.held k' = if k = k' then s \ {r} else s := by
    rintro k' s rfl
    split
    · exact Ledger.held_release ..
    · exact Ledger.held_release_of_ne hr (Ne.symm ‹_›)
  have hfaults : (w.release r).ledger.faults = w.ledger.faults := Ledger.faults_release hr
  exact ⟨h.flags, hheld _ _ h.listener, hheld _ _ h.connection, hheld _ _ h.netbuf,
    hheld _ _ h.pages, hfaults ▸ h.once, hfaults ▸ h.reuse⟩

end Owns

end CloningApps.Server
