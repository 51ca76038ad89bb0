import CloningApps.Interaction.Threads
import CloningApps.Text.CString

/-! # Waiting for the trigger of the fuzzing harness

The guest resets a node of the Xen store, watches it, and then reads it and waits
for an event in turns until it reads `done`. Whatever else is written to the node,
and whenever, the write of `done` is not missed: the watch stands before the first
read, so a value that was not read yet has left an event behind.
-/

namespace CloningApps.Fuzz
open Text Interaction

/-- `struct xenbus_watch *`, which may be an error in place of a pointer. -/
inductive XenbusWatch where
  | null
  | err (rc : ℤ)
  | registered
  deriving DecidableEq

/-- A string that a call allocated. -/
structure HeapString where
  addr : ℕ
  text : CStr
  deriving DecidableEq

/-- The calls of the guest, and the writes of whoever else has access to the store. -/
inductive TriggerCall where
  | xsWrite (dir node value : CStr)
  | xsRead (dir node : CStr)
  | strcmp (value : Except ℤ HeapString) (s : CStr)
  | xsWatchPath (path : Option HeapString)
  | xenbusWatchWaitEvent
  | xsUnwatch (watch : XenbusWatch)
  | asprintf (dir node : CStr)
  | free (path : Option HeapString)
  | indeterminate
  | put (path value : CStr)

/-- `xs_read` and `xs_watch_path` may answer with an error in place of a pointer. Registering a
watch may queue events, and waiting answers with how many it consumed. -/
@[reducible] def TriggerCall.Answer : TriggerCall → Type
  | .xsWrite .. => ℤ
  | .xsRead .. => Except ℤ (Option HeapString)
  | .strcmp .. => ℤ
  | .xsWatchPath _ => Except ℤ ℕ
  | .xenbusWatchWaitEvent => ℕ
  | .xsUnwatch _ => Unit
  | .asprintf .. => ℤ × Option HeapString
  | .free _ => Unit
  | .indeterminate => Option HeapString
  | .put .. => Unit

abbrev store : Interface := ⟨TriggerCall, TriggerCall.Answer⟩

abbrev TriggerProg := Prog store

abbrev xs (c : TriggerCall) : TriggerProg c.Answer := @Prog.ask store c

def dir : CStr := ascii "data"

def node : CStr := ascii "trigger-harness"

def done : CStr := ascii "done"

/-- What follows the label `out`. -/
def out (path : Option HeapString) (watch : XenbusWatch) : TriggerProg Unit := do
  if path ≠ none then
    xs (.free path)
  if watch ≠ .null then
    xs (.xsUnwatch watch)

/-- `value && !strcmp(value, "done")`, where `value` may be an error. -/
def isDone : Except ℤ (Option HeapString) → TriggerProg Bool
  | .ok none => return false
  | .ok (some s) => do return (← xs (.strcmp (.ok s) done)) = 0
  | .error err => do return (← xs (.strcmp (.error err) done)) = 0

/-- The loop of `wait_harness_trigger`. -/
def awaitTrigger : TriggerProg Unit :=
  Prog.iterate (fun (_ : Unit) => do
    let value ← xs (.xsRead dir node)
    if ← isDone value then
      return .inr ()
    let _ ← xs .xenbusWatchWaitEvent
    return .inl ()) ()

/-- A failed `xs_write` leads to `out` with `path` not yet set. -/
def waitHarnessTrigger : TriggerProg ℤ := do
  let rc ← xs (.xsWrite dir node [])
  if rc ≠ 0 then
    let path ← xs .indeterminate
    out path .null
    return rc
  let (rc, path) ← xs (.asprintf dir node)
  if rc ≤ 0 then
    out path .null
    return rc
  match ← xs (.xsWatchPath path) with
  | .error err =>
    out path (.err err)
    return err
  | .ok _ =>
    awaitTrigger
    out path .registered
    return rc

/-- The path of a node, as `xs_read` and `xs_write` put it together and as the guest prints it. -/
def nodePath (dir node : CStr) : CStr := dir ++ ascii "/" ++ node

/-- The node that is watched. -/
def trigger : CStr := nodePath dir node

/-- A controller that writes some values and then `done`. -/
def controller : List CStr → TriggerProg Unit
  | [] => xs (.put trigger done)
  | v :: vs => do
    xs (.put trigger v)
    controller vs

/-- The values of the nodes, the guest's watch with the events queued for it, and what the guest
has done so far: its reset write, its watch, and the value it read last. -/
structure StoreWorld where
  value : CStr → Option CStr
  watch : Option (CStr × ℕ)
  reset : Bool
  watched : Bool
  lastRead : Option CStr

namespace StoreWorld

def initial (value : CStr → Option CStr) : StoreWorld := ⟨value, none, false, false, none⟩

/-- A write to a watched path queues an event. -/
def write (w : StoreWorld) (path v : CStr) : StoreWorld :=
  { w with
    value := Function.update w.value path (some v)
    watch := w.watch.map (fun x => if x.1 = path then (x.1, x.2 + 1) else x) }

/-- What `xs_read` answers with for the value of a node. -/
def Reads : Option CStr → Except ℤ (Option HeapString) → Prop
  | some v, .ok (some s) => s.text = v
  | none, .ok none => True
  | _, _ => False

/-- The controller begins after the reset, and a wait ends only with events to consume. -/
def legal (w : StoreWorld) : (c : TriggerCall) → c.Answer → Prop
  | .xsRead dir node, v => Reads (w.value (nodePath dir node)) v
  | .strcmp (.ok v) s, r => r = 0 ↔ v.text = s
  | .xsWatchPath _, .error err => err < 0
  | .xenbusWatchWaitEvent, consumed =>
    ∃ path queued, w.watch = some (path, queued) ∧ 0 < consumed ∧ consumed ≤ queued
  | .asprintf dir node, r => 0 < r.1 →
    r.1 = (nodePath dir node).length ∧ ∃ addr, r.2 = some ⟨addr, nodePath dir node⟩
  | .put .., _ => w.reset = true
  | _, _ => True

def effect (w : StoreWorld) : (c : TriggerCall) → c.Answer → StoreWorld
  | .xsWrite dir node v, rc =>
    if rc = 0 then { w.write (nodePath dir node) v with reset := true } else w
  | .xsRead .., .ok v => { w with lastRead := v.map HeapString.text }
  | .xsWatchPath path, .ok queued =>
    { w with watch := path.map (fun path => (path.text, queued)), watched := true }
  | .xenbusWatchWaitEvent, consumed =>
    { w with watch := w.watch.map (fun x => (x.1, x.2 - consumed)) }
  | .xsUnwatch .registered, _ => { w with watch := none }
  | .put path v, _ => w.write path v
  | _, _ => w

end StoreWorld

def storeEnv : Env store StoreWorld where
  legal := StoreWorld.legal
  effect := StoreWorld.effect
  drift := fun _ _ => False

theorem storeEnv_still : storeEnv.Still := fun _ _ h => h

inductive Party where
  | guest | controller
  deriving DecidableEq

@[reducible] def Party.Result : Party → Type
  | .guest => ℤ
  | .controller => Unit

abbrev Parties := Threads store Party.Result

def parties (values : List CStr) : Parties
  | .guest => waitHarnessTrigger
  | .controller => controller values

/-- The guest is in the wait, and the wait does not end. -/
def GuestBlocked (ps : Parties) (w : StoreWorld) : Prop :=
  ∃ k, ps .guest = .call .xenbusWatchWaitEvent k ∧ ∀ n, ¬ w.legal .xenbusWatchWaitEvent n

/-- A program that is past its loop: all that is left is to release what it holds. -/
def PastLoop : {α : Type} → TriggerProg α → Prop
  | _, .ret _ => True
  | _, .call (.free _) _ => True
  | _, .call (.xsUnwatch _) _ => True
  | _, _ => False

/-- What the guest owes whoever triggers it. -/
structure TriggerKept (ps : Parties) (w : StoreWorld) : Prop where
  not_missed : w.value trigger = some done → ¬ GuestBlocked ps w
  triggered : ps .controller = .ret () → w.value trigger = some done
  left_done : w.watched = true → PastLoop (ps .guest) → w.lastRead = some done

/-! ## What each party does, and what it relies on -/

/-- Whatever the node holds that is not read yet has queued an event. -/
def Pending (w : StoreWorld) : Prop :=
  ∃ queued, w.watch = some (trigger, queued) ∧ (w.value trigger = some done → 0 < queued)

def Watching (w : StoreWorld) : Prop := ∃ queued, w.watch = some (trigger, queued)

/-- A guest that had a watch has read `done`. -/
def ReadDone (w : StoreWorld) : Prop := w.watched = true → w.lastRead = some done

def Owns : Party → StoreWorld → TriggerCall → Prop
  | .guest, w, .xsWrite .. => w.reset = false
  | .guest, w, .xenbusWatchWaitEvent => Pending w
  | .guest, w, .free _ => ReadDone w
  | .guest, w, .xsUnwatch _ => ReadDone w
  | .guest, _, .put .. => False
  | .guest, _, _ => True
  | .controller, _, .put path _ => path = trigger
  | .controller, _, _ => False

def Relies : Party → StoreWorld → StoreWorld → Prop
  | .guest, w, w' => ∃ v, w' = w.write trigger v
  | .controller, w, w' => w.reset = true → w'.reset = true ∧ w'.value = w.value

def Owes : (i : Party) → i.Result → StoreWorld → Prop
  | .guest, _, w => ReadDone w
  | .controller, _, w => w.value trigger = some done

/-- The guest leaves the node alone after its reset. -/
theorem Owns.keeps_value {w : StoreWorld} {c : TriggerCall} (h : Owns .guest w c) (a : c.Answer)
    (hreset : w.reset = true) : (w.effect c a).reset = true ∧ (w.effect c a).value = w.value := by
  cases c with
  | xsWrite dir node value =>
    have hnot : w.reset = false := h
    exact absurd hreset (by simp [hnot])
  | xsRead | xsWatchPath => cases a <;> exact ⟨hreset, rfl⟩
  | xsUnwatch watch => cases watch <;> exact ⟨hreset, rfl⟩
  | put => exact h.elim
  | _ => exact ⟨hreset, rfl⟩

theorem owns_relies (i j : Party) (hij : i ≠ j) (w : StoreWorld) (c : TriggerCall) (a : c.Answer)
    (hguard : Owns j w c) (_ : storeEnv.legal w c a) : Relies i w (storeEnv.effect w c a) := by
  cases j with
  | guest =>
    cases i with
    | guest => exact absurd rfl hij
    | controller => exact hguard.keeps_value a
  | controller =>
    cases i with
    | controller => exact absurd rfl hij
    | guest =>
      cases c with
      | put path v =>
        have hpath : path = trigger := hguard
        subst hpath
        exact ⟨v, rfl⟩
      | _ => exact hguard.elim

/-! ## The controller -/

theorem controller_stable (P : (CStr → Option CStr) → Prop) :
    (storeEnv.rely (Relies .controller)).Stable (fun w => w.reset = true ∧ P w.value) := by
  refine storeEnv_still.rely_stable ?_
  rintro w w' ⟨hreset, hw⟩ hrely
  obtain ⟨hreset', hvalue⟩ := hrely hreset
  exact ⟨hreset', hvalue ▸ hw⟩

abbrev SafeController (post : Unit → StoreWorld → Prop) (p : TriggerProg Unit) (w : StoreWorld) :
    Prop :=
  Safe (storeEnv.rely (Relies .controller)) (Owns .controller) post p w

/-- A write waits for the reset, and then the node has the value written. -/
theorem put_safe {v : CStr} {k : Unit → TriggerProg Unit} {post : Unit → StoreWorld → Prop}
    (hk : ∀ w, w.reset = true ∧ w.value trigger = some v → SafeController post (k ()) w)
    (w : StoreWorld) : SafeController post (.call (.put trigger v) k) w := by
  have hstable : (storeEnv.rely (Relies .controller)).Stable (fun _ => True) :=
    fun _ _ _ _ => trivial
  have howns (w : StoreWorld) (_ : True) : Owns .controller w (.put trigger v) := rfl
  refine Safe.call_stable (fun _ => True) hstable howns ?_ trivial
  intro w a _ hreset
  have hput : (w.write trigger v).value trigger = some v := by
    simp [StoreWorld.write]
  exact hk _ ⟨hreset, hput⟩

theorem controller_safe (values : List CStr) (w : StoreWorld) :
    SafeController (Owes .controller) (controller values) w := by
  induction values generalizing w with
  | nil =>
    apply put_safe
    intro w hw
    exact Safe.ret_stable _ (controller_stable (fun value => value trigger = some done)) ()
      (fun _ h => h.2) hw
  | cons v values ih =>
    apply put_safe
    intro w _
    exact ih w

/-! ## The guest -/

theorem guest_stable {P : StoreWorld → Prop} (hP : ∀ w v, P w → P (w.write trigger v)) :
    (storeEnv.rely (Relies .guest)).Stable P := by
  refine storeEnv_still.rely_stable ?_
  rintro w w' hw ⟨v, rfl⟩
  exact hP w v hw

abbrev SafeGuest {α : Type} (post : α → StoreWorld → Prop) (p : TriggerProg α) (w : StoreWorld) :
    Prop :=
  Safe (storeEnv.rely (Relies .guest)) (Owns .guest) post p w

theorem readDone_stable : (storeEnv.rely (Relies .guest)).Stable ReadDone :=
  guest_stable (fun _ _ h => h)

/-- One more event is queued for a write to the node. -/
theorem write_watch {w : StoreWorld} {queued : ℕ} (h : w.watch = some (trigger, queued))
    (v : CStr) : (w.write trigger v).watch = some (trigger, queued + 1) := by
  simp [StoreWorld.write, h]

theorem watching_stable : (storeEnv.rely (Relies .guest)).Stable Watching := by
  apply guest_stable
  rintro w v ⟨queued, hwatch⟩
  exact ⟨queued + 1, write_watch hwatch v⟩

/-- A write between the read and the wait is not missed. -/
theorem pending_stable : (storeEnv.rely (Relies .guest)).Stable Pending := by
  apply guest_stable
  rintro w v ⟨queued, hwatch, -⟩
  exact ⟨queued + 1, write_watch hwatch v, fun _ => Nat.succ_pos queued⟩

/-- The value `v` was read last, and whatever the node holds instead has queued an event. -/
def HasRead (v : CStr) (w : StoreWorld) : Prop :=
  w.lastRead = some v ∧ ∃ queued, w.watch = some (trigger, queued) ∧
    (w.value trigger = some done → v = done ∨ 0 < queued)

theorem hasRead_stable (v : CStr) : (storeEnv.rely (Relies .guest)).Stable (HasRead v) := by
  apply guest_stable
  rintro w v' ⟨hlast, queued, hwatch, -⟩
  exact ⟨hlast, queued + 1, write_watch hwatch v', fun _ => .inr (Nat.succ_pos queued)⟩

/-- The end of a round that did not find `done`. -/
theorem wait_safe {w : StoreWorld} {post : Unit ⊕ Unit → StoreWorld → Prop}
    (hpost : ∀ w, Watching w → post (.inl ()) w) (hw : Pending w) :
    SafeGuest post (.call .xenbusWatchWaitEvent (fun _ => .ret (.inl ()))) w := by
  refine Safe.call_stable Pending pending_stable (fun _ h => h) ?_ hw
  rintro w consumed ⟨queued, hwatch, -⟩ _
  have hwatch' : (w.effect .xenbusWatchWaitEvent consumed).watch =
      some (trigger, queued - consumed) := by
    simp [StoreWorld.effect, hwatch]
  exact Safe.ret_stable Watching watching_stable _ hpost ⟨_, hwatch'⟩

theorem awaitTrigger_safe {w : StoreWorld} (hw : Watching w) :
    SafeGuest (fun _ => ReadDone) awaitTrigger w := by
  refine Safe.loop (fun _ => Watching) (fun _ => watching_stable) ?_ hw
  intro _ w hw
  refine Safe.call_stable Watching watching_stable (fun _ _ => trivial) ?_ hw
  rintro w value ⟨queued, hwatch⟩ hread
  have hreads : StoreWorld.Reads (w.value trigger) value := hread
  cases value with
  | error err =>
    cases hvalue : w.value trigger <;> rw [hvalue] at hreads <;> exact hreads.elim
  | ok value =>
    cases value with
    | none =>
      apply wait_safe (fun _ h => h)
      refine ⟨queued, hwatch, fun (hdone : w.value trigger = some done) => ?_⟩
      rw [hdone] at hreads
      exact hreads.elim
    | some s =>
      have hlast : HasRead s.text (w.effect (.xsRead dir node) (.ok (some s))) := by
        refine ⟨rfl, queued, hwatch, fun (hdone : w.value trigger = some done) => .inl ?_⟩
        rw [hdone] at hreads
        exact hreads
      refine Safe.call_stable (HasRead s.text) (hasRead_stable s.text) (fun _ _ => trivial) ?_ hlast
      intro w (r : ℤ) hlast hcompared
      have hzero : r = 0 ↔ s.text = done := hcompared
      by_cases hr : r = 0
      · have hdone : ReadDone w := fun _ => hzero.mp hr ▸ hlast.1
        simp only [Prog.bind, hr, decide_true]
        refine Safe.ret_stable ReadDone readDone_stable _ ?_ hdone
        intro w hw
        exact Safe.ret_stable ReadDone readDone_stable () (fun _ h => h) hw
      · obtain ⟨-, queued, hwatch, hqueued⟩ := hlast
        simp only [Prog.bind, hr, decide_false]
        apply wait_safe (fun _ h => h)
        refine ⟨queued, hwatch, fun hdone => ?_⟩
        exact (hqueued hdone).resolve_left (fun h => hr (hzero.mpr h))

theorem readDone_ret {w : StoreWorld} (rc : ℤ) (hw : ReadDone w) :
    SafeGuest (Owes .guest) (.ret rc) w :=
  Safe.ret_stable ReadDone readDone_stable rc (fun _ h => h) hw

theorem unwatch_safe {watch : XenbusWatch} {rc : ℤ} {w : StoreWorld} (hw : ReadDone w) :
    SafeGuest (Owes .guest) (.call (.xsUnwatch watch) (fun _ => .ret rc)) w := by
  have howns (w : StoreWorld) (h : ReadDone w) : Owns .guest w (.xsUnwatch watch) := h
  refine Safe.call_stable ReadDone readDone_stable howns ?_ hw
  intro w _ hw _
  cases watch <;> exact readDone_ret rc hw

/-- Releasing what the guest holds. -/
theorem out_safe {path : Option HeapString} {watch : XenbusWatch} {rc : ℤ} {w : StoreWorld}
    (hw : ReadDone w) : SafeGuest (Owes .guest) ((out path watch).bind (fun _ => .ret rc)) w := by
  have hrest : ∀ w, ReadDone w → SafeGuest (Owes .guest)
      ((out none watch).bind (fun _ => .ret rc)) w := by
    intro w hw
    cases watch with
    | null => exact readDone_ret rc hw
    | err | registered => exact unwatch_safe hw
  cases path with
  | none => exact hrest w hw
  | some path =>
    have howns (w : StoreWorld) (h : ReadDone w) : Owns .guest w (.free (some path)) := h
    refine Safe.call_stable ReadDone readDone_stable howns ?_ hw
    intro w _ hw _
    exact hrest w hw

/-- All that is left to do once the watch stands. -/
theorem watched_safe {path : Option HeapString} {rc : ℤ} {w : StoreWorld} (hw : Watching w) :
    SafeGuest (Owes .guest)
      (awaitTrigger.bind (fun _ => (out path .registered).bind (fun _ => .ret rc))) w := by
  apply Safe.bind
  apply (awaitTrigger_safe hw).mono
  intro _ w hw
  exact out_safe hw

theorem waitHarnessTrigger_safe {w : StoreWorld} (hreset : w.reset = false)
    (hwatched : w.watched = false) : SafeGuest (Owes .guest) waitHarnessTrigger w := by
  have hready : (storeEnv.rely (Relies .guest)).Stable
      (fun w => w.reset = false ∧ w.watched = false) := guest_stable (fun _ _ h => h)
  have hunwatched : (storeEnv.rely (Relies .guest)).Stable (fun w => w.watched = false) :=
    guest_stable (fun _ _ h => h)
  have hnone : ∀ w : StoreWorld, w.watched = false → ReadDone w :=
    fun w hnot hwatched => absurd hwatched (by simp [hnot])
  have howns (w : StoreWorld) (h : w.reset = false ∧ w.watched = false) :
      Owns .guest w (.xsWrite dir node []) := h.1
  refine Safe.call_stable _ hready howns ?_ ⟨hreset, hwatched⟩
  intro w (rc : ℤ) hw _
  by_cases hrc : rc = 0
  · subst hrc
    refine Safe.call_stable _ hunwatched (fun _ _ => trivial) ?_ hw.2
    intro w r hw hr
    obtain ⟨rc, path⟩ := r
    by_cases hle : rc ≤ 0
    · simp only [Prog.bind_eq, Prog.ret_bind, hle, if_true]
      exact out_safe (hnone w hw)
    · obtain ⟨-, addr, rfl⟩ := hr (not_le.mp hle)
      simp only [Prog.bind_eq, Prog.ret_bind, hle, if_false]
      refine Safe.call_stable _ hunwatched (fun _ _ => trivial) ?_ hw
      intro w watch hw _
      cases watch with
      | error err => exact out_safe (hnone w hw)
      | ok queued =>
        have hwatching : Watching
            (w.effect (.xsWatchPath (some ⟨addr, trigger⟩)) (.ok queued)) := ⟨queued, rfl⟩
        exact watched_safe hwatching
  · have hwatched : (w.effect (.xsWrite dir node []) rc).watched = false := by
      simpa [StoreWorld.effect, hrc] using hw.2
    simp only [Prog.bind_eq, Prog.ret_bind, ne_eq, hrc, not_false_eq_true, if_true]
    refine Safe.call_stable _ hunwatched (fun _ _ => trivial) ?_ hwatched
    intro w path hw _
    exact out_safe (hnone w hw)

/-- What every run keeps. -/
theorem parties_safe (values : List CStr) (value : CStr → Option CStr) {ps : Parties}
    {w : StoreWorld} (h : ThreadsReach storeEnv (parties values, .initial value) (ps, w))
    (i : Party) :
    Safe (storeEnv.rely (Relies i)) (Owns i) (Owes i) (ps i) w := by
  apply h.safe storeEnv_still owns_relies
  intro i
  cases i with
  | guest => exact waitHarnessTrigger_safe rfl rfl
  | controller => exact controller_safe values _

theorem Pending.wait {w : StoreWorld} (h : Pending w) (hdone : w.value trigger = some done) :
    w.legal .xenbusWatchWaitEvent (1 : ℕ) := by
  obtain ⟨queued, hwatch, hqueued⟩ := h
  exact ⟨trigger, queued, hwatch, Nat.one_pos, hqueued hdone⟩

theorem PastLoop.readDone {p : TriggerProg ℤ} {w : StoreWorld} (h : PastLoop p)
    (hmeets : Meets (Owns .guest) (Owes .guest) p w) : ReadDone w := by
  cases p with
  | ret rc => exact hmeets
  | call c k =>
    cases c with
    | free path => exact hmeets
    | xsUnwatch watch => exact hmeets
    | _ => exact h.elim
  | loop => exact h.elim

/-- Whatever a controller writes before `done`, and whenever, the guest is never asleep beside a
node that says `done`, and it goes on only when it has read that. -/
theorem waitHarnessTrigger_kept (values : List CStr) (value : CStr → Option CStr) {ps : Parties}
    {w : StoreWorld} (h : ThreadsReach storeEnv (parties values, .initial value) (ps, w)) :
    TriggerKept ps w := by
  have hguest := (parties_safe values value h .guest).meets
  have hcontroller := (parties_safe values value h .controller).meets
  refine ⟨?_, ?_, ?_⟩
  · rintro hdone ⟨k, hwait, hblocked⟩
    rw [hwait] at hguest
    have hpending : Pending w := hguest
    exact hblocked _ (hpending.wait hdone)
  · intro hret
    rw [hret] at hcontroller
    exact hcontroller
  · intro hwatched hpast
    exact hpast.readDone hguest hwatched

/-- A guest that reads something else goes on to wait. -/
theorem guest_waits {w : StoreWorld} {s : HeapString} (hvalue : w.value trigger = some s.text)
    (hnot : s.text ≠ done) (f : Unit → TriggerProg ℤ) :
    ∃ k, Reaches storeEnv (awaitTrigger.bind f, w)
      (.call .xenbusWatchWaitEvent k, { w with lastRead := some s.text }) := by
  have hread : storeEnv.legal w (.xsRead dir node) (.ok (some s)) := by
    simp only [storeEnv, StoreWorld.legal, show nodePath dir node = trigger from rfl, hvalue,
      StoreWorld.Reads]
  have hcompare : storeEnv.legal { w with lastRead := some s.text } (.strcmp (.ok s) done)
      (1 : ℤ) := iff_of_false one_ne_zero hnot
  refine ⟨?next, ?run⟩
  case run =>
    apply Relation.ReflTransGen.head .loop
    apply Relation.ReflTransGen.head (.call _ hread)
    apply Relation.ReflTransGen.head (.call _ hcompare)
    exact .refl

/-- The guest has read the empty value and is about to wait. -/
theorem guest_reaches_wait (value : CStr → Option CStr) :
    ∃ k w, Reaches storeEnv (waitHarnessTrigger, .initial value)
      (.call .xenbusWatchWaitEvent k, w) ∧ w.reset = true := by
  let reset : StoreWorld := { (StoreWorld.initial value).write trigger [] with reset := true }
  let watched : StoreWorld := { reset with watch := some (trigger, 0), watched := true }
  have hformat : reset.legal (.asprintf dir node) ((20 : ℤ), some ⟨1, trigger⟩) :=
    fun _ => ⟨by decide, 1, rfl⟩
  have hvalue : watched.value trigger = some (HeapString.mk 2 []).text := by
    simp [watched, reset, StoreWorld.write]
  obtain ⟨k, hwait⟩ := guest_waits hvalue (by decide)
    (fun _ => (out (some ⟨1, trigger⟩) .registered).bind (fun _ => .ret 20))
  refine ⟨k, { watched with lastRead := some [] }, ?_, rfl⟩
  apply Relation.ReflTransGen.head (.call (0 : ℤ) trivial)
  apply Relation.ReflTransGen.head (.call _ hformat)
  apply Relation.ReflTransGen.head
    (.call (E := storeEnv) (c := .xsWatchPath (some ⟨1, trigger⟩)) (.ok 0) trivial)
  exact hwait

/-- The write of `done` falls between the read and the wait. -/
theorem waitHarnessTrigger_kept_between :
    ∃ ps w, TriggerKept ps w ∧ ps .controller = .ret () ∧
      ∃ k, ps .guest = .call .xenbusWatchWaitEvent k := by
  obtain ⟨k, w, hguest, hreset⟩ := guest_reaches_wait (fun _ => none)
  have hput : Reaches storeEnv (controller [], w) (.ret (), w.write trigger done) :=
    .single (.call (E := storeEnv) (c := .put trigger done) () hreset)
  let waiting : Parties := Function.update (parties []) .guest (.call .xenbusWatchWaitEvent k)
  have hfirst : ThreadsReach storeEnv (parties [], .initial (fun _ => none)) (waiting, w) :=
    ThreadsReach.of_reaches hguest
  have hsecond : ThreadsReach storeEnv (waiting, w)
      (Function.update waiting .controller (.ret ()), w.write trigger done) :=
    ThreadsReach.of_reaches hput
  exact ⟨_, _, waitHarnessTrigger_kept [] (fun _ => none) (hfirst.trans hsecond),
    Function.update_self .., k, rfl⟩

end CloningApps.Fuzz
