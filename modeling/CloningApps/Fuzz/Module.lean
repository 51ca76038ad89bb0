import CloningApps.Fuzz.Trigger
import CloningApps.Interaction.Embed

/-! # The fuzzed module

Once the trigger has come the guest enters the harness, runs `test` and enters the
harness again, so that `test` is what gets fuzzed. Whoever drives the harness may
change the two arrays that `test` compares. When they agree `test` writes through
a null pointer, which faults.
-/

namespace CloningApps.Fuzz
open Text Interaction

/-- The arrays `test1` and `test2`, each with its terminator. -/
structure Tests where
  test1 : Vector Byte 9
  test2 : Vector Byte 9
  deriving DecidableEq

def Tests.initial : Tests where
  test1 := ⟨(ascii "deadbeef" ++ [0]).toArray, by decide⟩
  test2 := ⟨(ascii "nottbeef" ++ [0]).toArray, by decide⟩

/-- The calls of the module. `ukplat_harness` gets and returns the arrays as they are; the store
through the null pointer faults and never returns. -/
inductive FuzzCall where
  | store (c : TriggerCall)
  | ukplatHarness (t : Tests)
  | storeNull (x : ℤ)

@[reducible] def FuzzCall.Answer : FuzzCall → Type
  | .store c => c.Answer
  | .ukplatHarness _ => ℤ × Tests
  | .storeNull _ => Empty

abbrev fuzzing : Interface := ⟨FuzzCall, FuzzCall.Answer⟩

abbrev FuzzProg := Prog fuzzing

abbrev fuzz (c : FuzzCall) : FuzzProg c.Answer := @Prog.ask fuzzing c

/-- The calls to the Xen store among those of the module. -/
def triggering : Embedding store fuzzing where
  call := .store
  answer := fun _ => .refl _

def path1 (x : ℤ) : ℤ := x + 1

def path2 (x : ℤ) : ℤ := x + 12

def path3 (x : ℤ) : ℤ := x * 12

def path4 (x : ℤ) : ℤ := x - 1

/-- The `switch` on `x % 4`, which has no case for the remainder of a negative `x`. -/
def path (x : ℤ) : ℤ :=
  match x.tmod 4 with
  | 0 => path1 x
  | 1 => path2 x
  | 2 => path3 x
  | 3 => path4 x
  | _ => x

namespace Tests

/-- `!memcmp(test1, test2, 8)`. -/
def Agree (t : Tests) : Prop := t.test1.toList.take 8 = t.test2.toList.take 8

instance (t : Tests) : Decidable t.Agree := by
  unfold Agree
  infer_instance

/-- `(int)test1[0]`, a `char` with its sign. -/
def first (t : Tests) : ℤ := t.test1[0].toInt8.toInt

end Tests

/-- The pointer that is returned is always `NULL`. -/
def test (t : Tests) (x : ℤ) : FuzzProg Unit := do
  let x := path x
  if t.Agree then
    let nothing ← fuzz (.storeNull x)
    return nothing.elim

/-- What `wait_harness_trigger` returns is ignored. -/
def myInitModule : FuzzProg ℤ := do
  let _ ← waitHarnessTrigger.lift triggering
  let (_, t) ← fuzz (.ukplatHarness .initial)
  test t t.first
  let _ ← fuzz (.ukplatHarness t)
  return 0

def threadFuncFuzz : FuzzProg ℤ := do
  let rc ← myInitModule
  return rc

/-! ## The harness beside the store -/

/-- The store, and the arrays as each entry into the harness returned them. -/
structure Harness where
  store : StoreWorld
  returned : List Tests

namespace Harness

def initial (value : CStr → Option CStr) : Harness := ⟨.initial value, []⟩

def legal (w : Harness) : (c : FuzzCall) → c.Answer → Prop
  | .store c, a => w.store.legal c a
  | _, _ => True

def effect (w : Harness) : (c : FuzzCall) → c.Answer → Harness
  | .store c, a => { w with store := w.store.effect c a }
  | .ukplatHarness _, r => { w with returned := w.returned ++ [r.2] }
  | .storeNull _, nothing => nothing.elim

end Harness

def harnessEnv : Env fuzzing Harness where
  legal := Harness.legal
  effect := Harness.effect
  drift := fun _ _ => False

theorem harnessEnv_still : harnessEnv.Still := fun _ _ h => h

/-- The guest runs the module, the controller only writes to the store. -/
def fuzzParties (values : List CStr) : Threads fuzzing Party.Result
  | .guest => threadFuncFuzz
  | .controller => (controller values).lift triggering

/-- Where the guest is in its protocol with the harness. Arrays that agree end its run. -/
structure Driven (ps : Threads fuzzing Party.Result) (w : Harness) : Prop where
  harness : ∀ t k, ps .guest = .call (.ukplatHarness t) k → ReadDone w.store ∧
    (w.returned = [] ∧ t = .initial ∨ w.returned = [t] ∧ ¬ t.Agree)
  null : ∀ x k, ps .guest = .call (.storeNull x) k → ReadDone w.store ∧
    (∃ t, w.returned = [t] ∧ t.Agree ∧ x = path t.first) ∧
    ∀ ps' w', ThreadsReach harnessEnv (ps, w) (ps', w') → ps' .guest = .call (.storeNull x) k
  exit : ∀ rc, ps .guest = .ret rc → ReadDone w.store ∧
    rc = 0 ∧ ∃ t t', w.returned = [t, t'] ∧ ¬ t.Agree

/-! ## What each party does, and what it relies on -/

/-- The guest has read `done` if it watched at all, and is this far in the harness. -/
structure Entered (returned : List Tests) (w : Harness) : Prop where
  triggered : ReadDone w.store
  returned : w.returned = returned

def FuzzOwns : Party → Harness → FuzzCall → Prop
  | i, w, .store c => Owns i w.store c
  | .guest, w, .ukplatHarness t => t = .initial ∧ Entered [] w ∨ ¬ t.Agree ∧ Entered [t] w
  | .guest, w, .storeNull x => ∃ t : Tests, t.Agree ∧ x = path t.first ∧ Entered [t] w
  | .controller, _, _ => False

/-- The controller stays out of the harness. -/
def FuzzRelies : Party → Harness → Harness → Prop
  | .guest, w, w' => Relies .guest w.store w'.store ∧ w'.returned = w.returned
  | .controller, w, w' => Relies .controller w.store w'.store

def FuzzOwes : (i : Party) → i.Result → Harness → Prop
  | .guest, rc, w => rc = 0 ∧ ∃ t t' : Tests, ¬ t.Agree ∧ Entered [t, t'] w
  | .controller, _, w => w.store.value trigger = some done

theorem fuzzOwns_relies (i j : Party) (hij : i ≠ j) (w : Harness) (c : FuzzCall) (a : c.Answer)
    (hguard : FuzzOwns j w c) (hlegal : harnessEnv.legal w c a) :
    FuzzRelies i w (harnessEnv.effect w c a) := by
  cases c with
  | store c =>
    have hrelies := owns_relies i j hij w.store c a hguard hlegal
    cases i with
    | guest => exact ⟨hrelies, rfl⟩
    | controller => exact hrelies
  | storeNull => exact a.elim
  | ukplatHarness =>
    cases j with
    | controller => exact hguard.elim
    | guest =>
      cases i with
      | guest => exact absurd rfl hij
      | controller => exact fun hreset => ⟨hreset, rfl⟩

abbrev SafeFuzz {α : Type} (i : Party) (post : α → Harness → Prop) (p : FuzzProg α)
    (w : Harness) : Prop :=
  Safe (harnessEnv.rely (FuzzRelies i)) (FuzzOwns i) post p w

/-- The harness is not seen from the store. -/
theorem store_shows (i : Party) :
    ((harnessEnv.rely (FuzzRelies i)).along triggering).Shows (storeEnv.rely (Relies i))
      Harness.store where
  legal := fun _ _ _ h => h
  effect := fun _ _ _ _ => rfl
  drift := by
    rintro w w' (h | h)
    · exact h.elim
    · cases i with
      | guest => exact .inr (.inr h.1)
      | controller => exact .inr (.inr h)

/-- What is proved of a program over the store holds beside the harness. -/
theorem triggering_safe {α : Type} {i : Party} {post : α → StoreWorld → Prop}
    {p : TriggerProg α} {w : Harness}
    (h : Safe (storeEnv.rely (Relies i)) (Owns i) post p w.store) :
    SafeFuzz i (fun x w => post x w.store) (p.lift triggering) w :=
  Safe.lift (h.shown (store_shows i))

theorem controller_fuzz (values : List CStr) (w : Harness) :
    SafeFuzz .controller (FuzzOwes .controller) ((controller values).lift triggering) w :=
  triggering_safe (controller_safe values w.store)

/-! ## The guest -/

variable {w : Harness} {t : Tests}

theorem harness_stable {P : Harness → Prop}
    (hP : ∀ w v, P w → P { w with store := w.store.write trigger v }) :
    (harnessEnv.rely (FuzzRelies .guest)).Stable P := by
  refine harnessEnv_still.rely_stable ?_
  rintro w ⟨store, returned⟩ hw ⟨⟨v, rfl⟩, rfl⟩
  exact hP w v hw

theorem entered_stable (returned : List Tests) :
    (harnessEnv.rely (FuzzRelies .guest)).Stable (Entered returned) :=
  harness_stable (fun _ _ h => ⟨h.triggered, h.returned⟩)

/-- The wait for the trigger stays out of the harness. -/
theorem wait_entered (hreset : w.store.reset = false) (hwatched : w.store.watched = false)
    (hreturned : w.returned = []) :
    SafeFuzz .guest (fun _ => Entered []) (waitHarnessTrigger.lift triggering) w := by
  have hwait := (waitHarnessTrigger_safe hreset hwatched).shown (store_shows .guest)
  have hstable : ((harnessEnv.rely (FuzzRelies .guest)).along triggering).Stable
      (fun w => w.returned = []) :=
    harness_stable (fun w _ (h : w.returned = []) => h)
  have houtside : Safe ((harnessEnv.rely (FuzzRelies .guest)).along triggering)
      (fun _ _ => True) (fun _ w => w.returned = []) waitHarnessTrigger w :=
    Safe.frame _ hstable (fun _ _ _ _ => trivial) (fun _ _ _ _ h _ => h) (OnlyCalls.all _)
      hreturned
  have hboth := hwait.and houtside
  have hguarded : Safe ((harnessEnv.rely (FuzzRelies .guest)).along triggering)
      (fun w c => FuzzOwns .guest w (triggering.call c)) (fun _ => Entered [])
      waitHarnessTrigger w := by
    intro p v hr
    have hmeets := hboth p v hr
    cases p with
    | ret rc => exact ⟨hmeets.1, hmeets.2⟩
    | call c k => exact hmeets.1
    | loop => trivial
  exact hguarded.lift

/-- `test` returns only if the arrays do not agree. -/
theorem test_entered (hw : Entered [t] w) :
    SafeFuzz .guest (fun _ w => ¬ t.Agree ∧ Entered [t] w) (test t t.first) w := by
  unfold test
  by_cases hagree : t.Agree
  · simp only [hagree, if_true]
    refine Safe.call_stable (Entered [t]) (entered_stable _) (fun w hw => ⟨t, hagree, rfl, hw⟩)
      ?_ hw
    exact fun _ (nothing : Empty) _ _ => nothing.elim
  · simp only [hagree, if_false]
    exact Safe.ret_stable (Entered [t]) (entered_stable _) () (fun _ h => ⟨not_false, h⟩) hw

theorem threadFuncFuzz_safe (hreset : w.store.reset = false)
    (hwatched : w.store.watched = false) (hreturned : w.returned = []) :
    SafeFuzz .guest (FuzzOwes .guest) threadFuncFuzz w := by
  unfold threadFuncFuzz myInitModule
  simp only [Prog.bind_eq, Prog.pure_eq]
  apply Safe.bind
  apply (wait_entered hreset hwatched hreturned).mono
  intro _ w hw
  refine Safe.call_stable (Entered []) (entered_stable _) (fun w hw => .inl ⟨rfl, hw⟩) ?_ hw
  rintro w ⟨rc, t⟩ hw -
  have hentered : Entered [t] (w.effect (.ukplatHarness .initial) (rc, t)) := by
    refine ⟨hw.triggered, ?_⟩
    simp [Harness.effect, hw.returned]
  simp only [Prog.ret_bind]
  apply Safe.bind
  apply (test_entered hentered).mono
  rintro _ w ⟨hdiffer, hw⟩
  refine Safe.call_stable (Entered [t]) (entered_stable _) (fun w hw => .inr ⟨hdiffer, hw⟩) ?_ hw
  rintro w ⟨rc, t'⟩ hw -
  refine Safe.ret_stable (Entered [t, t']) (entered_stable _) (0 : ℤ)
    (fun w hw => ⟨rfl, t, t', hdiffer, hw⟩) ?_
  refine ⟨hw.triggered, ?_⟩
  simp [Env.rely, harnessEnv, Harness.effect, hw.returned]

/-- What every run keeps. -/
theorem fuzzParties_safe (values : List CStr) (value : CStr → Option CStr)
    {ps : Threads fuzzing Party.Result}
    (h : ThreadsReach harnessEnv (fuzzParties values, .initial value) (ps, w)) (i : Party) :
    SafeFuzz i (FuzzOwes i) (ps i) w := by
  apply h.safe harnessEnv_still fuzzOwns_relies
  intro i
  cases i with
  | guest => exact threadFuncFuzz_safe rfl rfl rfl
  | controller => exact controller_fuzz values _

/-! ## Two runs -/

/-- What is left to do once the watch stands. -/
def afterWatch : FuzzProg ℤ :=
  ((awaitTrigger.bind (fun _ => (out (some ⟨1, trigger⟩) .registered).bind
    (fun _ => .ret 20))).lift triggering).bind (fun _ =>
      .call (.ukplatHarness .initial) (fun r => (test r.2 r.2.first).bind (fun _ =>
        .call (.ukplatHarness r.2) (fun _ => .ret 0))))

theorem guest_watches (value : CStr → Option CStr) :
    ∃ w, Reaches harnessEnv (threadFuncFuzz, .initial value) (afterWatch, w) ∧
      w.store.reset = true := by
  let start := Harness.initial value
  let reset := start.effect (.store (.xsWrite dir node [])) (0 : ℤ)
  have hformat : harnessEnv.legal reset (.store (.asprintf dir node))
      ((20 : ℤ), some ⟨1, trigger⟩) := fun _ => ⟨by decide, 1, rfl⟩
  let watched := reset.effect (.store (.xsWatchPath (some ⟨1, trigger⟩))) (.ok 0)
  refine ⟨watched, ?_, rfl⟩
  apply Relation.ReflTransGen.head
    (.call (E := harnessEnv) (c := .store (.xsWrite dir node [])) (0 : ℤ) trivial)
  apply Relation.ReflTransGen.head (.call _ hformat)
  apply Relation.ReflTransGen.head
    (.call (E := harnessEnv) (c := .store (.xsWatchPath (some ⟨1, trigger⟩))) (.ok 0) trivial)
  exact .refl

/-- What the harness makes of the arrays decides what comes next. -/
theorem guest_enters {w : Harness} (hvalue : w.store.value trigger = some done) (t : Tests) :
    ∃ v, Reaches harnessEnv (afterWatch, w)
      ((test t t.first).bind (fun _ => .call (.ukplatHarness t) (fun _ => .ret 0)), v) := by
  have hread : harnessEnv.legal w (.store (.xsRead dir node)) (.ok (some ⟨2, done⟩)) := by
    have hreads : StoreWorld.Reads (w.store.value trigger) (.ok (some ⟨2, done⟩)) := by
      rw [hvalue]
      rfl
    exact hreads
  refine ⟨?world, ?run⟩
  case run =>
    apply Relation.ReflTransGen.head .loop
    apply Relation.ReflTransGen.head (.call _ hread)
    apply Relation.ReflTransGen.head
      (.call (E := harnessEnv) (c := .store (.strcmp (.ok ⟨2, done⟩) done)) (0 : ℤ)
        (iff_of_true rfl rfl))
    apply Relation.ReflTransGen.head (.call () trivial)
    apply Relation.ReflTransGen.head (.call () trivial)
    apply Relation.ReflTransGen.head
      (.call (E := harnessEnv) (c := .ukplatHarness .initial) ((0 : ℤ), t) trivial)
    exact .refl

/-- The controller writes `done` once the guest watches, and the harness returns the arrays. -/
theorem fuzzParties_enters (t : Tests) :
    ∃ ps w, ThreadsReach harnessEnv (fuzzParties [], .initial (fun _ => none)) (ps, w) ∧
      ps .guest = (test t t.first).bind (fun _ => .call (.ukplatHarness t) (fun _ => .ret 0)) := by
  obtain ⟨w, hguest, hreset⟩ := guest_watches (fun _ => none)
  have hput : Reaches harnessEnv ((controller []).lift triggering, w)
      (.ret (), w.effect (.store (.put trigger done)) ()) :=
    .single (.call (E := harnessEnv) (c := .store (.put trigger done)) () hreset)
  have hvalue : (w.effect (.store (.put trigger done)) ()).store.value trigger = some done := by
    simp [Harness.effect, StoreWorld.effect, StoreWorld.write]
  obtain ⟨v, henters⟩ := guest_enters hvalue t
  have hfirst : ThreadsReach harnessEnv (fuzzParties [], .initial (fun _ => none)) _ :=
    ThreadsReach.of_reaches (i := Party.guest) hguest
  have hsecond := hfirst.trans (ThreadsReach.of_reaches (i := Party.controller) hput)
  have hthird := hsecond.trans (ThreadsReach.of_reaches (i := Party.guest) henters)
  exact ⟨_, _, hthird, Function.update_self ..⟩

/-- Arrays that agree, as the harness may return them. -/
def Tests.agreeing : Tests := { Tests.initial with test2 := Tests.initial.test1 }

/-! ## Every run -/

/-- A fault is the end of a program. -/
theorem storeNull_stuck (x : ℤ) (k : Empty → FuzzProg ℤ) (w : Harness) (y : FuzzProg ℤ × Harness) :
    ¬ Step harnessEnv (@Prog.call fuzzing ℤ (.storeNull x) k, w) y := by
  rintro (nothing | _ | hdrift)
  · exact nothing.elim
  · exact harnessEnv_still _ _ hdrift

/-- Whatever the controller writes and whenever, the harness is entered by a guest that has read
`done`, unless it could not watch at all. The arrays are compared once, between its two entries. A
guest that finds them equal is at the store through the null pointer for good; it enters the
harness again and returns only if they differ. -/
theorem threadFuncFuzz_driven (values : List CStr) (value : CStr → Option CStr)
    {ps : Threads fuzzing Party.Result} {w : Harness}
    (h : ThreadsReach harnessEnv (fuzzParties values, .initial value) (ps, w)) : Driven ps w := by
  have hmeets := (fuzzParties_safe values value h .guest).meets
  refine ⟨fun t k hcall => ?_, fun x k hcall => ?_, fun rc hret => ?_⟩
  · rw [hcall] at hmeets
    have howns : FuzzOwns .guest w (.ukplatHarness t) := hmeets
    rcases howns with ⟨ht, hentered⟩ | ⟨hdiffer, hentered⟩
    · exact ⟨hentered.triggered, .inl ⟨hentered.returned, ht⟩⟩
    · exact ⟨hentered.triggered, .inr ⟨hentered.returned, hdiffer⟩⟩
  · rw [hcall] at hmeets
    obtain ⟨t, hagree, hx, hentered⟩ : FuzzOwns .guest w (.storeNull x) := hmeets
    refine ⟨hentered.triggered, ⟨t, hentered.returned, hagree, hx⟩, fun ps' w' hlater => ?_⟩
    have hstuck : ∀ v y, ¬ Step harnessEnv (ps .guest, v) y := by
      rw [hcall]
      exact storeNull_stuck x k
    exact (hlater.stays hstuck).trans hcall
  · rw [hret] at hmeets
    obtain ⟨hrc, t, t', hdiffer, hentered⟩ : FuzzOwes .guest rc w := hmeets
    exact ⟨hentered.triggered, hrc, t, t', hentered.returned, hdiffer⟩

/-- The harness makes the arrays agree, and the guest faults; it leaves them as they are, and the
guest returns. -/
theorem threadFuncFuzz_driven_both :
    (∃ ps w k, Driven ps w ∧ ps .guest = .call (.storeNull 101) k) ∧
      ∃ ps w, Driven ps w ∧ ps .guest = .ret 0 := by
  constructor
  · obtain ⟨ps, w, hreach, hguest⟩ := fuzzParties_enters .agreeing
    exact ⟨ps, w, _, threadFuncFuzz_driven [] (fun _ => none) hreach, hguest⟩
  · obtain ⟨ps, w, hreach, hguest⟩ := fuzzParties_enters .initial
    have hend : Reaches harnessEnv (ps .guest, w)
        (.ret 0, w.effect (.ukplatHarness .initial) ((0 : ℤ), Tests.initial)) := by
      rw [hguest]
      exact .single (.call (E := harnessEnv) (c := .ukplatHarness .initial)
        ((0 : ℤ), Tests.initial) trivial)
    have hdone := hreach.trans (ThreadsReach.of_reaches (i := Party.guest) hend)
    exact ⟨_, _, threadFuncFuzz_driven [] (fun _ => none) hdone, Function.update_self ..⟩

end CloningApps.Fuzz
