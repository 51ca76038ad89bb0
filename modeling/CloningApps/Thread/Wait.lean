import CloningApps.Interaction.Threads
import CloningApps.Os.Calls

/-! # Waiting for a Mini-OS thread

A thread that waits for another one blocks until `finished` is set and somebody
wakes it. The wrapper around the thread function stores the result and does
neither, so whoever waits for a thread waits forever.
-/

namespace CloningApps.Thread
open Interaction Os

variable {F A R : Type}

structure WaitQueueHead where
  waiting : Bool
  woken : Bool
  deriving DecidableEq

/-- `struct os_thread`, for any type of functions, arguments and results. -/
structure OsThread (F A R : Type) where
  func : F
  arg : A
  result : R
  wq : WaitQueueHead
  finished : ℤ

/-- What the functions of `thread.c` do to the one thread there is, and to the system. `started`
is the moment the scheduler first runs the new thread. -/
inductive ThreadCall (F A R : Type) where
  | malloc
  | free
  | setFunc (func : F)
  | setArg (arg : A)
  | setResult (result : R)
  | setFinished (finished : ℤ)
  | initWaitqueueHead
  | createThread
  | started
  | getFunc
  | getArg
  | getResult
  | getFinished
  | callFunc (func : F) (arg : A)
  | addWaiter
  | awaitWake
  | wakeUp

/-- Fresh memory has arbitrary contents. -/
@[reducible] def ThreadCall.Answer : ThreadCall F A R → Type
  | .malloc => Option (OsThread F A R)
  | .createThread => Bool
  | .getFunc => F
  | .getArg => A
  | .getResult => R
  | .getFinished => ℤ
  | .callFunc .. => R
  | _ => Unit

abbrev kernel (F A R : Type) : Interface := ⟨ThreadCall F A R, ThreadCall.Answer⟩

abbrev ThreadProg (F A R : Type) := Prog (kernel F A R)

abbrev thr (c : ThreadCall F A R) : ThreadProg F A R c.Answer := @Prog.ask (kernel F A R) c

def threadFuncWrapper : ThreadProg F A R Unit := do
  let func ← thr .getFunc
  let arg ← thr .getArg
  let result ← thr (.callFunc func arg)
  thr (.setResult result)

def osThreadCreate (func : F) (arg : A) : ThreadProg F A R ℤ := do
  match ← thr .malloc with
  | none =>
    thr .free
    return -ENOMEM
  | some _ =>
    thr (.setFunc func)
    thr (.setArg arg)
    thr .initWaitqueueHead
    thr (.setFinished 0)
    if !(← thr .createThread) then
      thr .free
      return -ENOMEM
    return 0

/-- `wait_event(t->wq, t->finished)`. -/
def waitEvent : ThreadProg F A R Unit := do
  if (← thr .getFinished) ≠ 0 then
    return
  thr .addWaiter
  thr .awaitWake

def osThreadWait : ThreadProg F A R (ℤ × R) := do
  waitEvent
  let result ← thr .getResult
  return (0, result)

/-- What the waiter runs: a thread that could not be created is not waited for. -/
def createAndWait (func : F) (arg : A) : ThreadProg F A R (Option (ℤ × R)) := do
  if (← osThreadCreate func arg) ≠ 0 then
    return none
  return some (← osThreadWait)

/-- What the new thread runs. -/
def newThread : ThreadProg F A R Unit := do
  thr .started
  threadFuncWrapper

/-- The memory of the `os_thread`, whether the thread was created, and what its function
returned. -/
structure ThreadWorld (F A R : Type) where
  block : Option (OsThread F A R)
  created : Bool
  returned : Option R

namespace ThreadWorld

def initial : ThreadWorld F A R := ⟨none, false, none⟩

def set (w : ThreadWorld F A R) (f : OsThread F A R → OsThread F A R) : ThreadWorld F A R :=
  { w with block := w.block.map f }

/-- A field is read as it is, a thread runs once it was created, and a waiter goes on when it was
woken and its condition is true. -/
def legal (w : ThreadWorld F A R) : (c : ThreadCall F A R) → c.Answer → Prop
  | .started, _ => w.created = true
  | .getFunc, f => w.block.map (·.func) = some f
  | .getArg, a => w.block.map (·.arg) = some a
  | .getResult, r => w.block.map (·.result) = some r
  | .getFinished, v => w.block.map (·.finished) = some v
  | .awaitWake, _ => ∃ t, w.block = some t ∧ t.wq.woken = true ∧ t.finished ≠ 0
  | _, _ => True

def effect (w : ThreadWorld F A R) : (c : ThreadCall F A R) → c.Answer → ThreadWorld F A R
  | .malloc, block => { w with block := block }
  | .free, _ => { w with block := none }
  | .setFunc f, _ => w.set ({ · with func := f })
  | .setArg a, _ => w.set ({ · with arg := a })
  | .setResult r, _ => w.set ({ · with result := r })
  | .setFinished v, _ => w.set ({ · with finished := v })
  | .initWaitqueueHead, _ => w.set ({ · with wq := ⟨false, false⟩ })
  | .createThread, ok => { w with created := ok }
  | .callFunc .., r => { w with returned := some r }
  | .addWaiter, _ => w.set (fun t => { t with wq := ⟨true, t.wq.woken⟩ })
  | .awaitWake, _ => w.set ({ · with wq := ⟨false, false⟩ })
  | .wakeUp, _ => w.set (fun t => { t with wq := ⟨t.wq.waiting, t.wq.waiting⟩ })
  | _, _ => w

end ThreadWorld

def threadEnv (F A R : Type) : Env (kernel F A R) (ThreadWorld F A R) where
  legal := ThreadWorld.legal
  effect := ThreadWorld.effect
  drift := fun _ _ => False

theorem threadEnv_still : (threadEnv F A R).Still := fun _ _ h => h

inductive Party where
  | waiter | thread
  deriving DecidableEq

@[reducible] def Party.Result (R : Type) : Party → Type
  | .waiter => Option (ℤ × R)
  | .thread => Unit

abbrev Parties (F A R : Type) := Threads (kernel F A R) (Party.Result R)

def parties (func : F) (arg : A) : Parties F A R
  | .waiter => createAndWait func arg
  | .thread => newThread

def WrapperReturned (ps : Parties F A R) : Prop := ps .thread = .ret ()

def WaiterBlocked (ps : Parties F A R) (w : ThreadWorld F A R) : Prop :=
  ∃ k, ps .waiter = .call .awaitWake k ∧ ∀ a, ¬ w.legal .awaitWake a

/-- What waiting for a thread is for. -/
structure Handshake (ps : Parties F A R) (w : ThreadWorld F A R) : Prop where
  finished : WrapperReturned ps → ∃ t, w.block = some t ∧ t.finished ≠ 0
  not_blocked : WrapperReturned ps → ¬ WaiterBlocked ps w
  delivers : ∀ rc r, ps .waiter = .ret (some (rc, r)) → w.returned = some r

/-! ## What each party does, and what it relies on -/

def ThreadWorld.finished (w : ThreadWorld F A R) : Option ℤ := w.block.map (·.finished)

/-- A thread is created only after `finished` was cleared. -/
def Ready (w : ThreadWorld F A R) : Prop := w.created = true → w.finished = some 0

/-- The calls of a party, with the state each is made in. -/
def Owns : Party → ThreadWorld F A R → ThreadCall F A R → Prop
  | .waiter, w, .createThread => w.created = false ∧ w.finished = some 0
  | .waiter, w, .malloc => w.created = false
  | .waiter, w, .free => w.created = false
  | .waiter, w, .setFunc _ => w.created = false
  | .waiter, w, .setArg _ => w.created = false
  | .waiter, w, .setFinished _ => w.created = false
  | .waiter, w, .initWaitqueueHead => w.created = false
  | .waiter, _, .getFinished => True
  | .waiter, _, .addWaiter => True
  | .waiter, _, .awaitWake => True
  | .waiter, _, .getResult => True
  | .thread, _, .started => True
  | .thread, _, .getFunc => True
  | .thread, _, .getArg => True
  | .thread, _, .callFunc .. => True
  | .thread, _, .setResult _ => True
  | _, _, _ => False

def Relies : Party → ThreadWorld F A R → ThreadWorld F A R → Prop
  | .waiter, w, w' => w'.created = w.created ∧ w'.finished = w.finished
  | .thread, w, w' => (w.created = true → w'.created = true) ∧ (Ready w → Ready w')

def Owes : (i : Party) → i.Result R → ThreadWorld F A R → Prop
  | .waiter, r, w => r = none ∧ w.created = false
  | .thread, _, w => w.created = true ∧ w.finished = some 0

abbrev SafeParty (i : Party) (p : ThreadProg F A R (i.Result R)) (w : ThreadWorld F A R) : Prop :=
  Safe ((threadEnv F A R).rely (Relies i)) (Owns i) (Owes i) p w

theorem finished_set {w : ThreadWorld F A R} {f : OsThread F A R → OsThread F A R}
    (hf : ∀ t, (f t).finished = t.finished) : (w.set f).finished = w.finished := by
  simp [ThreadWorld.set, ThreadWorld.finished, Function.comp_def, hf]

/-- The wrapper leaves `finished` alone. -/
theorem Owns.keeps_finished {w : ThreadWorld F A R} {c : ThreadCall F A R}
    (h : Owns .thread w c) (a : c.Answer) :
    (w.effect c a).created = w.created ∧ (w.effect c a).finished = w.finished := by
  cases c with
  | setResult r => exact ⟨rfl, finished_set (fun _ => rfl)⟩
  | started | getFunc | getArg | callFunc => exact ⟨rfl, rfl⟩
  | _ => exact h.elim

/-- The waiter does not touch a thread that was created. -/
theorem Owns.keeps_ready {w : ThreadWorld F A R} {c : ThreadCall F A R}
    (h : Owns .waiter w c) (a : c.Answer) :
    (w.created = true → (w.effect c a).created = true) ∧ (Ready w → Ready (w.effect c a)) := by
  cases c with
  | createThread =>
    refine ⟨fun hcreated => ?_, fun _ _ => h.2⟩
    exact absurd h.1 (by simp [hcreated])
  | malloc | free | setFunc | setArg | setFinished | initWaitqueueHead =>
    have hnot : w.created = false := h
    refine ⟨fun hcreated => ?_, fun _ hcreated => ?_⟩
    · exact absurd hnot (by simp [hcreated])
    · exact absurd hnot (by simp [show w.created = true from hcreated])
  | addWaiter =>
    have hkept : (w.effect .addWaiter a).finished = w.finished := finished_set (fun _ => rfl)
    exact ⟨id, fun hready hcreated => hkept.trans (hready hcreated)⟩
  | awaitWake =>
    have hkept : (w.effect .awaitWake a).finished = w.finished := finished_set (fun _ => rfl)
    exact ⟨id, fun hready hcreated => hkept.trans (hready hcreated)⟩
  | getFinished | getResult => exact ⟨id, id⟩
  | _ => exact h.elim

theorem owns_relies (i j : Party) (hij : i ≠ j) (w : ThreadWorld F A R) (c : ThreadCall F A R)
    (a : c.Answer) (hguard : Owns j w c) (_ : (threadEnv F A R).legal w c a) :
    Relies i w ((threadEnv F A R).effect w c a) := by
  cases j with
  | thread =>
    cases i with
    | waiter => exact hguard.keeps_finished a
    | thread => exact absurd rfl hij
  | waiter =>
    cases i with
    | waiter => exact absurd rfl hij
    | thread => exact hguard.keeps_ready a

/-- The waiter knows whether the thread was created and what `finished` is. -/
theorem waiter_stable (P : Bool → Option ℤ → Prop) :
    ((threadEnv F A R).rely (Relies .waiter)).Stable (fun w => P w.created w.finished) := by
  refine threadEnv_still.rely_stable ?_
  rintro w w' hw ⟨hcreated, hfinished⟩
  rwa [hcreated, hfinished]

theorem waiter_ret (P : Bool → Option ℤ → Prop) (hP : ∀ finished, ¬ P true finished)
    {w : ThreadWorld F A R} (hw : P w.created w.finished) : SafeParty .waiter (.ret none) w := by
  apply Safe.ret_stable _ (waiter_stable P) none _ hw
  intro w hw
  refine ⟨rfl, Bool.eq_false_iff.mpr (fun hcreated => ?_)⟩
  exact hP _ (hcreated ▸ hw)

theorem waiter_call (c : ThreadCall F A R) (P : Bool → Option ℤ → Prop)
    (Q : c.Answer → Bool → Option ℤ → Prop)
    {k : c.Answer → ThreadProg F A R (Option (ℤ × R))}
    (howns : ∀ w : ThreadWorld F A R, P w.created w.finished → Owns .waiter w c)
    (heffect : ∀ (w : ThreadWorld F A R) a, P w.created w.finished → w.legal c a →
      Q a (w.effect c a).created (w.effect c a).finished)
    (hk : ∀ a (w : ThreadWorld F A R), Q a w.created w.finished → SafeParty .waiter (k a) w)
    {w : ThreadWorld F A R} (hw : P w.created w.finished) : SafeParty .waiter (.call c k) w :=
  Safe.call_stable _ (waiter_stable P) howns (fun w a hw ha => hk a _ (heffect w a hw ha)) hw

theorem thread_stable :
    ((threadEnv F A R).rely (Relies .thread)).Stable
      (fun w => w.created = true ∧ w.finished = some 0) := by
  refine threadEnv_still.rely_stable ?_
  rintro w w' ⟨hcreated, hfinished⟩ ⟨hstays, hready⟩
  exact ⟨hstays hcreated, hready (fun _ => hfinished) (hstays hcreated)⟩

theorem ready_stable : ((threadEnv F A R).rely (Relies .thread)).Stable Ready := by
  refine threadEnv_still.rely_stable ?_
  rintro w w' hw ⟨-, hready⟩
  exact hready hw

abbrev Fresh (created : Bool) (_ : Option ℤ) : Prop := created = false

abbrev Allocated (created : Bool) (finished : Option ℤ) : Prop :=
  created = false ∧ finished.isSome = true

abbrev Cleared (created : Bool) (finished : Option ℤ) : Prop :=
  created = false ∧ finished = some 0

abbrev Running (created : Bool) (finished : Option ℤ) : Prop :=
  created = true ∧ finished = some 0

/-- Once a thread was created, the wait finds `finished` cleared and is never over. -/
theorem waitEvent_stuck {k : Unit → ThreadProg F A R (Option (ℤ × R))} {w : ThreadWorld F A R}
    (hw : Running w.created w.finished) : SafeParty .waiter (waitEvent.bind k) w := by
  refine waiter_call .getFinished Running (fun v created finished => v = 0 ∧
    Running created finished) (fun _ _ => trivial) ?_ ?_ hw
  · intro w v hw hread
    have hread : w.finished = some v := hread
    exact ⟨Option.some.inj (hread.symm.trans hw.2), hw⟩
  rintro v w ⟨rfl, hw⟩
  refine waiter_call .addWaiter Running (fun _ => Running) (fun _ _ => trivial) ?_ ?_ hw
  · intro w a hw _
    have hkept : (w.effect .addWaiter a).finished = w.finished := finished_set (fun _ => rfl)
    exact ⟨hw.1, hkept.trans hw.2⟩
  intro _ w hw
  refine waiter_call .awaitWake Running (fun _ _ _ => False) (fun _ _ => trivial) ?_
    (fun _ _ => False.elim) hw
  rintro w _ hw ⟨t, ht, -, hnonzero⟩
  have hread : w.finished = some t.finished := by simp [ThreadWorld.finished, ht]
  exact hnonzero (Option.some.inj (hread.symm.trans hw.2))

theorem free_safe {w : ThreadWorld F A R} (hw : Fresh w.created w.finished) :
    SafeParty .waiter (.call .free (fun _ => .ret none)) w := by
  refine waiter_call .free Fresh (fun _ => Fresh) (fun _ h => h) (fun _ _ h _ => h) ?_ hw
  intro _ w hw
  exact waiter_ret Fresh (by simp) hw

/-- Filling in a field of the new `os_thread`. -/
theorem fill_safe {c : ThreadCall F A R} {f : OsThread F A R → OsThread F A R}
    {k : c.Answer → ThreadProg F A R (Option (ℤ × R))}
    (howns : ∀ w : ThreadWorld F A R, w.created = false → Owns .waiter w c)
    (heffect : ∀ (w : ThreadWorld F A R) a, w.effect c a = w.set f)
    (hk : ∀ a (w : ThreadWorld F A R), Allocated w.created w.finished → SafeParty .waiter (k a) w)
    {w : ThreadWorld F A R} (hw : Allocated w.created w.finished) :
    SafeParty .waiter (.call c k) w := by
  refine waiter_call c Allocated (fun _ => Allocated) (fun w h => howns w h.1) ?_ hk hw
  rintro w a ⟨hcreated, hfinished⟩ _
  rw [heffect]
  refine ⟨hcreated, ?_⟩
  simpa [ThreadWorld.set, ThreadWorld.finished] using hfinished

theorem createAndWait_safe (func : F) (arg : A) {w : ThreadWorld F A R}
    (hw : Fresh w.created w.finished) : SafeParty .waiter (createAndWait func arg) w := by
  refine waiter_call .malloc Fresh (fun block created finished => created = false ∧
    finished = Option.map OsThread.finished block) (fun _ h => h) (fun _ _ h _ => ⟨h, rfl⟩) ?_ hw
  intro block w hw
  cases block with
  | none => exact free_safe hw.1
  | some t =>
    refine fill_safe (c := .setFunc func) (fun _ h => h) (fun _ _ => rfl) ?_
      ⟨hw.1, by simp [hw.2]⟩
    intro _ w hw
    refine fill_safe (c := .setArg arg) (fun _ h => h) (fun _ _ => rfl) ?_ hw
    intro _ w hw
    refine fill_safe (c := .initWaitqueueHead) (fun _ h => h) (fun _ _ => rfl) ?_ hw
    intro _ w hw
    refine waiter_call (.setFinished 0) Allocated (fun _ => Cleared) (fun _ h => h.1) ?_ ?_ hw
    · rintro w _ ⟨hcreated, hfinished⟩ _
      refine ⟨hcreated, ?_⟩
      obtain ⟨t, ht⟩ : ∃ t, w.block = some t := by
        simpa [ThreadWorld.finished, Option.isSome_iff_exists] using hfinished
      simp [ThreadWorld.effect, ThreadWorld.set, ThreadWorld.finished, ht]
    intro _ w hw
    refine waiter_call .createThread Cleared (fun ok created finished => created = ok ∧
      finished = some 0) (fun _ h => h) (fun _ _ h _ => ⟨rfl, h.2⟩) ?_ hw
    intro ok w hw
    cases ok with
    | false => exact free_safe hw.1
    | true =>
      simp only [Prog.ret_bind, Bool.not_true, Bool.false_eq_true, if_false, Prog.pure_eq, ne_eq,
        not_true_eq_false, osThreadWait, Prog.bind_eq, Prog.bind_assoc]
      exact waitEvent_stuck hw

theorem thread_call (c : ThreadCall F A R) {k : c.Answer → ThreadProg F A R Unit}
    (howns : ∀ w : ThreadWorld F A R, Owns .thread w c)
    (hk : ∀ a (w : ThreadWorld F A R), Running w.created w.finished → SafeParty .thread (k a) w)
    {w : ThreadWorld F A R} (hw : Running w.created w.finished) :
    SafeParty .thread (.call c k) w := by
  refine Safe.call_stable _ thread_stable (fun w _ => howns w) ?_ hw
  intro w a hw _
  obtain ⟨hcreated, hfinished⟩ := (howns w).keeps_finished a
  exact hk a _ ⟨hcreated.trans hw.1, hfinished.trans hw.2⟩

theorem newThread_safe {w : ThreadWorld F A R} (hw : Ready w) :
    SafeParty .thread newThread w := by
  refine Safe.call_stable Ready ready_stable (fun _ _ => trivial) ?_ hw
  intro w _ hw hcreated
  refine thread_call .getFunc (fun _ => trivial) ?_ ⟨hcreated, hw hcreated⟩
  intro func w hw
  refine thread_call .getArg (fun _ => trivial) ?_ hw
  intro arg w hw
  refine thread_call (.callFunc func arg) (fun _ => trivial) ?_ hw
  intro result w hw
  refine thread_call (.setResult result) (fun _ => trivial) ?_ hw
  intro _ w hw
  exact Safe.ret_stable _ thread_stable () (fun _ h => h) hw

/-- What every run keeps. -/
theorem parties_safe (func : F) (arg : A) {ps : Parties F A R} {w : ThreadWorld F A R}
    (h : ThreadsReach (threadEnv F A R) (parties func arg, .initial) (ps, w)) (i : Party) :
    SafeParty i (ps i) w := by
  apply h.safe threadEnv_still owns_relies
  intro i
  cases i with
  | waiter => exact createAndWait_safe func arg rfl
  | thread => exact newThread_safe (fun h => absurd h (by simp [ThreadWorld.initial]))

theorem waiter_never_returns {func : F} {arg : A} {ps : Parties F A R} {w : ThreadWorld F A R}
    (h : ThreadsReach (threadEnv F A R) (parties func arg, .initial) (ps, w)) (r : ℤ × R) :
    ps .waiter ≠ .ret (some r) := by
  intro hret
  have howes := (parties_safe func arg h .waiter).meets
  rw [hret] at howes
  exact absurd howes.1 (by simp)

theorem wrapper_returned_finished {func : F} {arg : A} {ps : Parties F A R}
    {w : ThreadWorld F A R}
    (h : ThreadsReach (threadEnv F A R) (parties func arg, .initial) (ps, w))
    (hret : WrapperReturned ps) : w.finished = some 0 := by
  have howes := (parties_safe func arg h .thread).meets
  rw [show ps .thread = .ret () from hret] at howes
  exact howes.2

/-- The handshake is kept exactly as long as the thread function has not returned. -/
theorem handshake_iff_of_reach {func : F} {arg : A} {ps : Parties F A R} {w : ThreadWorld F A R}
    (h : ThreadsReach (threadEnv F A R) (parties func arg, .initial) (ps, w)) :
    Handshake ps w ↔ ¬ WrapperReturned ps := by
  constructor
  · intro hkept hret
    obtain ⟨t, ht, hnonzero⟩ := hkept.finished hret
    have hread : w.finished = some t.finished := by simp [ThreadWorld.finished, ht]
    exact hnonzero (Option.some.inj (hread.symm.trans (wrapper_returned_finished h hret)))
  · intro hrunning
    exact ⟨fun hret => absurd hret hrunning, fun hret => absurd hret hrunning,
      fun rc r hret => absurd hret (waiter_never_returns h (rc, r))⟩

/-- The `os_thread` on which the waiter sleeps, and the same after the wrapper has run. -/
def sleeping (func : F) (arg : A) (r : R) (returned : Option R) : ThreadWorld F A R :=
  ⟨some ⟨func, arg, r, ⟨true, false⟩, 0⟩, true, returned⟩

theorem waiter_reaches (func : F) (arg : A) (r : R) :
    ∃ k, Reaches (threadEnv F A R) (createAndWait func arg, .initial)
      (.call .awaitWake k, sleeping func arg r none) := by
  let created : ThreadWorld F A R := ⟨some ⟨func, arg, r, ⟨false, false⟩, 0⟩, true, none⟩
  have hcleared : created.legal .getFinished (0 : ℤ) := rfl
  refine ⟨fun _ => (thr .getResult).bind (fun r => .ret (some (0, r))), ?_⟩
  apply Relation.ReflTransGen.head
    (.call (some ⟨func, arg, r, ⟨false, false⟩, 1⟩ : Option (OsThread F A R)) trivial)
  apply Relation.ReflTransGen.head (.call () trivial)
  apply Relation.ReflTransGen.head (.call () trivial)
  apply Relation.ReflTransGen.head (.call () trivial)
  apply Relation.ReflTransGen.head (.call () trivial)
  apply Relation.ReflTransGen.head (.call true trivial)
  apply Relation.ReflTransGen.head (.call _ hcleared)
  apply Relation.ReflTransGen.head (.call () trivial)
  exact .refl

theorem thread_reaches (func : F) (arg : A) (r : R) :
    Reaches (threadEnv F A R) (newThread, sleeping func arg r none)
      (.ret (), sleeping func arg r (some r)) := by
  have hfunc : (sleeping func arg r none).legal .getFunc func := rfl
  have harg : (sleeping func arg r none).legal .getArg arg := rfl
  apply Relation.ReflTransGen.head (.call () rfl)
  apply Relation.ReflTransGen.head (.call _ hfunc)
  apply Relation.ReflTransGen.head (.call _ harg)
  apply Relation.ReflTransGen.head (.call r trivial)
  apply Relation.ReflTransGen.head (.call () trivial)
  exact .refl

/-- The waiter goes to sleep, and then the thread function returns. -/
theorem blocked_reached (func : F) (arg : A) (r : R) :
    ∃ ps w, ThreadsReach (threadEnv F A R) (parties func arg, .initial) (ps, w) ∧
      WrapperReturned ps ∧ w.returned = some r ∧ WaiterBlocked ps w := by
  obtain ⟨k, hwaiter⟩ := waiter_reaches func arg r
  have hthread := thread_reaches func arg r
  let asleep : Parties F A R := Function.update (parties func arg) .waiter (.call .awaitWake k)
  have hfirst : ThreadsReach (threadEnv F A R) (parties func arg, .initial)
      (asleep, sleeping func arg r none) := ThreadsReach.of_reaches hwaiter
  have hsecond : ThreadsReach (threadEnv F A R) (asleep, sleeping func arg r none)
      (Function.update asleep .thread (.ret ()), sleeping func arg r (some r)) :=
    ThreadsReach.of_reaches hthread
  refine ⟨_, _, hfirst.trans hsecond, Function.update_self .., rfl, k, rfl, ?_⟩
  rintro a ⟨t, ht, hwoken, -⟩
  cases ht
  exact Bool.false_ne_true hwoken

/-- Whatever the thread function is and returns, waiting for it works only until it returns: from
then on `finished` is still zero, the waiter never comes back, and it may well be asleep. -/
theorem osThreadWait_stuck (func : F) (arg : A) :
    (∀ ps w, ThreadsReach (threadEnv F A R) (parties func arg, .initial) (ps, w) →
      (Handshake ps w ↔ ¬ WrapperReturned ps) ∧ ∀ rc r, ps .waiter ≠ .ret (some (rc, r))) ∧
    ∀ r : R, ∃ ps w, ThreadsReach (threadEnv F A R) (parties func arg, .initial) (ps, w) ∧
      WrapperReturned ps ∧ w.returned = some r ∧ WaiterBlocked ps w := by
  constructor
  · intro ps w h
    exact ⟨handshake_iff_of_reach h, fun rc r => waiter_never_returns h (rc, r)⟩
  · exact blocked_reached func arg

/-- A thread function that does nothing. -/
theorem handshake_broken : ¬ ∀ ps w, ThreadsReach (threadEnv Unit Unit Unit)
    (parties () (), .initial) (ps, w) → Handshake ps w := by
  intro h
  obtain ⟨ps, w, hreach, hret, -, hblocked⟩ := blocked_reached () () ()
  exact (h ps w hreach).not_blocked hret hblocked

end CloningApps.Thread
