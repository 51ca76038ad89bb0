import CloningApps.Fuzz.Trigger
import CloningApps.Interaction.Ledger

/-! # What the guest holds while it waits

Every call of `wait_harness_trigger` may fail. The strings and the watch that the
guest obtains are kept in a ledger, and a pointer is misused when it is freed,
unwatched or dereferenced without standing for something in it. The label `out`
is sound only for a failure before anything was obtained.
-/

namespace CloningApps.Fuzz
open Text Interaction

/-- A string is known by its address. -/
inductive Resource where
  | string (addr : ℕ)
  | watch
  deriving DecidableEq

/-- What a call does with a pointer of the guest: it uses none, one to a resource, or one that is no
pointer. -/
inductive PointerUse where
  | nothing
  | resource (r : Resource)
  | invalid

/-- The pointers that are freed, unwatched or dereferenced; `free` of `NULL` does nothing. -/
def pointerUse : TriggerCall → PointerUse
  | .strcmp (.ok value) _ => .resource (.string value.addr)
  | .strcmp (.error _) _ => .invalid
  | .xsWatchPath (some path) => .resource (.string path.addr)
  | .xsWatchPath none => .invalid
  | .xenbusWatchWaitEvent => .resource .watch
  | .xsUnwatch .registered => .resource .watch
  | .xsUnwatch _ => .invalid
  | .free (some path) => .resource (.string path.addr)
  | _ => .nothing

/-- The resources of the guest and whether it misused a pointer, and of the outcomes so far: whether
`path` was left unset and is not `NULL`, whether the watch was refused, and whether `xs_read`
answered with an error and with `done`. -/
structure Holding where
  ledger : Ledger Resource Unit
  misused : Bool
  strayPath : Bool
  watchRefused : Bool
  errorRead : Bool
  doneRead : Bool

namespace Holding

def initial : Holding := ⟨.empty, false, false, false, false, false⟩

def Proper (w : Holding) (c : TriggerCall) : Prop :=
  match pointerUse c with
  | .nothing => True
  | .resource r => w.ledger.status r = .held ()
  | .invalid => False

instance (w : Holding) (c : TriggerCall) : Decidable (w.Proper c) :=
  match h : pointerUse c with
  | .nothing => .isTrue (by simp [Proper, h])
  | .resource r => decidable_of_iff (w.ledger.status r = .held ()) (by simp [Proper, h])
  | .invalid => .isFalse (by simp [Proper, h])

/-- Any call may fail. What is obtained is not held already, and a failed `asprintf` leaves `path`
undefined. -/
def legal (w : Holding) : (c : TriggerCall) → c.Answer → Prop
  | .asprintf dir node, (rc, path) => rc < 0 ∨
    rc = (nodePath dir node).length ∧ ∃ s, path = some s ∧ s.text = nodePath dir node ∧
      w.ledger.Fresh (.string s.addr)
  | .xsWatchPath _, .error err => err < 0
  | .xsRead .., .ok (some s) => w.ledger.Fresh (.string s.addr)
  | .strcmp (.ok value) s, r => r = 0 ↔ value.text = s
  | _, _ => True

def acquire (w : Holding) (r : Resource) : Holding := { w with ledger := w.ledger.acquire r () }

def release (w : Holding) (r : Resource) : Holding := { w with ledger := w.ledger.release r }

/-- `path` as the guest finds it when nothing was stored there. -/
def unset (w : Holding) (path : Option HeapString) : Holding :=
  { w with strayPath := w.strayPath || path.isSome }

def change (w : Holding) : (c : TriggerCall) → c.Answer → Holding
  | .indeterminate, path => w.unset path
  | .asprintf .., (rc, some path) =>
    if 0 < rc then w.acquire (.string path.addr) else w.unset (some path)
  | .xsWatchPath _, .ok _ => w.acquire .watch
  | .xsWatchPath _, .error _ => { w with watchRefused := true }
  | .xsRead .., .ok (some s) =>
    { w.acquire (.string s.addr) with doneRead := w.doneRead || s.text = done }
  | .xsRead .., .error _ => { w with errorRead := true }
  | .free (some path), _ => w.release (.string path.addr)
  | .xsUnwatch .registered, _ => w.release .watch
  | _, _ => w

def effect (w : Holding) (c : TriggerCall) (a : c.Answer) : Holding :=
  { w.change c a with misused := w.misused || !decide (w.Proper c) }

end Holding

def holdingEnv : Env store Holding where
  legal := Holding.legal
  effect := Holding.effect
  drift := fun _ _ => False

theorem holdingEnv_still : holdingEnv.Still := fun _ _ h => h

/-! ## What is owed, and when it is kept -/

/-- No pointer was misused; and a return leaves nothing held, with `0` for `done` alone. -/
def Handled : TriggerProg ℤ → Holding → Prop
  | .ret rc, w => w.misused = false ∧ w.ledger.Settled () ∧ (rc = 0 ↔ w.doneRead = true)
  | _, w => w.misused = false

/-- A `path` that was not set is `NULL`, the watch is not refused, and no value read is an error or
`done`. -/
structure Granted (w : Holding) : Prop where
  path : w.strayPath = false
  watch : w.watchRefused = false
  value : w.errorRead = false
  waiting : w.doneRead = false

/-! ## What a call leaves -/

/-- What is remembered of the outcomes stays remembered. -/
structure Remembers (w w' : Holding) : Prop where
  path : w.strayPath = true → w'.strayPath = true
  watch : w.watchRefused = true → w'.watchRefused = true
  value : w.errorRead = true → w'.errorRead = true
  waiting : w.doneRead = true → w'.doneRead = true

theorem remembers_change (w : Holding) (c : TriggerCall) (a : c.Answer) :
    Remembers w (w.change c a) := by
  have hsame : Remembers w w := ⟨id, id, id, id⟩
  cases c with
  | indeterminate => exact ⟨fun h => by simp [Holding.change, Holding.unset, h], id, id, id⟩
  | asprintf dir node =>
    obtain ⟨rc, path⟩ := a
    cases path with
    | none => exact hsame
    | some path =>
      by_cases hpos : 0 < rc
      · simp only [Holding.change, if_pos hpos]
        exact ⟨id, id, id, id⟩
      · simp only [Holding.change, if_neg hpos]
        exact ⟨fun h => by simp [Holding.unset, h], id, id, id⟩
  | xsWatchPath path =>
    cases a with
    | ok queued => exact ⟨id, id, id, id⟩
    | error err => exact ⟨id, fun _ => rfl, id, id⟩
  | xsRead dir node =>
    cases a with
    | error err => exact ⟨id, id, fun _ => rfl, id⟩
    | ok value =>
      cases value with
      | none => exact hsame
      | some s => exact ⟨id, id, id, fun h => by simp [Holding.change, h]⟩
  | free path => cases path <;> exact ⟨id, id, id, id⟩
  | xsUnwatch watch => cases watch <;> exact ⟨id, id, id, id⟩
  | _ => exact hsame

section Effects
variable {w : Holding} {c : TriggerCall} {a : c.Answer} {rc : ℤ}

theorem granted_of_effect (h : Granted (w.effect c a)) : Granted w := by
  have hkept := remembers_change w c a
  have hunset : ∀ {b b' : Bool}, (b = true → b' = true) → b' = false → b = false := by
    intro b b' himp hb'
    exact Bool.eq_false_iff.mpr (fun hb => Bool.false_ne_true (hb'.symm.trans (himp hb)))
  exact ⟨hunset hkept.path h.path, hunset hkept.watch h.watch, hunset hkept.value h.value,
    hunset hkept.waiting h.waiting⟩

theorem misused_effect_of_proper (h : w.Proper c) : (w.effect c a).misused = w.misused := by
  simp [Holding.effect, h]

theorem misused_effect_of_improper (h : ¬ w.Proper c) : (w.effect c a).misused = true := by
  simp [Holding.effect, h]

/-- Nothing can be handled any more: a pointer was misused, or `done` was read and the code is not
`0`. -/
structure Spoiled (rc : ℤ) (w : Holding) : Prop where
  denied : ¬ Granted w
  beyond : w.misused = true ∨ w.doneRead = true ∧ rc ≠ 0

theorem Spoiled.effect (h : Spoiled rc w) : Spoiled rc (w.effect c a) := by
  refine ⟨fun hgranted => h.denied (granted_of_effect hgranted), ?_⟩
  rcases h.beyond with hmisused | ⟨hdone, hrc⟩
  · exact .inl (by simp [Holding.effect, hmisused])
  · exact .inr ⟨(remembers_change w c a).waiting hdone, hrc⟩

theorem spoiled_of_improper (hdenied : ¬ Granted w) (h : ¬ w.Proper c) :
    Spoiled rc (w.effect c a) :=
  ⟨fun hgranted => hdenied (granted_of_effect hgranted), .inl (misused_effect_of_improper h)⟩

/-- A return is handled exactly when it was granted. -/
def HandledIff (rc : ℤ) (w : Holding) : Prop := Handled (.ret rc) w ↔ Granted w

theorem Spoiled.handledIff (h : Spoiled rc w) : HandledIff rc w := by
  refine iff_of_false ?_ h.denied
  rintro ⟨hproper, -, hcode⟩
  rcases h.beyond with hmisused | ⟨hdone, hrc⟩
  · exact Bool.false_ne_true (hproper.symm.trans hmisused)
  · exact hrc (hcode.mpr hdone)

end Effects

/-! ## The label `out` -/

/-- A call is proper as long as everything was granted. -/
def ProperIfGranted (w : Holding) (c : TriggerCall) : Prop := Granted w → w.Proper c

abbrev SafeHolding {α : Type} (post : α → Holding → Prop) (p : TriggerProg α) (w : Holding) : Prop :=
  Safe holdingEnv ProperIfGranted post p w

section Out
variable {w : Holding} {path : Option HeapString} {watch : XenbusWatch} {rc : ℤ}

/-- Whatever is called after something was denied does not matter. -/
theorem denied_call {α : Type} {c : TriggerCall} {k : c.Answer → TriggerProg α}
    {post : α → Holding → Prop} (hdenied : ¬ Granted w)
    (hk : ∀ a, SafeHolding post (k a) (w.effect c a)) : SafeHolding post (.call c k) w :=
  Safe.call holdingEnv_still (fun hgranted => absurd hgranted hdenied) (fun a _ => hk a)

theorem unwatch_spoiled (h : Spoiled rc w) :
    SafeHolding HandledIff ((out none watch).bind (fun _ => .ret rc)) w := by
  cases watch with
  | null => exact Safe.ret holdingEnv_still h.handledIff
  | err | registered =>
    apply denied_call h.denied
    intro a
    exact Safe.ret holdingEnv_still h.effect.handledIff

theorem out_spoiled (h : Spoiled rc w) :
    SafeHolding HandledIff ((out path watch).bind (fun _ => .ret rc)) w := by
  cases path with
  | none => exact unwatch_spoiled h
  | some path =>
    apply denied_call h.denied
    intro a
    exact unwatch_spoiled h.effect

/-- A `path` that is not the guest's is freed. -/
theorem out_stray {path : HeapString} (hdenied : ¬ Granted w)
    (hnot : w.ledger.status (.string path.addr) ≠ .held ()) :
    SafeHolding HandledIff ((out (some path) watch).bind (fun _ => .ret rc)) w := by
  apply denied_call hdenied
  intro a
  exact unwatch_spoiled (spoiled_of_improper hdenied hnot)

/-- An error in place of a watch is unwatched. -/
theorem out_refused {err : ℤ} (hdenied : ¬ Granted w) :
    SafeHolding HandledIff ((out path (.err err)).bind (fun _ => .ret rc)) w := by
  have hunwatch : ∀ w, ¬ Granted w →
      SafeHolding HandledIff ((out none (.err err)).bind (fun _ => .ret rc)) w := by
    intro w hdenied
    apply denied_call hdenied
    intro a
    have himproper : ¬ w.Proper (.xsUnwatch (.err err)) := id
    exact Safe.ret holdingEnv_still (spoiled_of_improper hdenied himproper).handledIff
  cases path with
  | none => exact hunwatch w hdenied
  | some path =>
    apply denied_call hdenied
    intro a
    exact hunwatch _ (fun hgranted => hdenied (granted_of_effect hgranted))

end Out

/-! ## The loop -/

/-- The guest has its watch, and read neither `done` nor anything but an error that it misused. -/
structure Looping (w : Holding) : Prop where
  watch : w.ledger.status .watch = .held ()
  path : w.strayPath = false
  accepted : w.watchRefused = false
  waiting : w.doneRead = false
  misused : w.misused = w.errorRead

section Loop
variable {w : Holding} {rc : ℤ}

/-- What a round of the loop leaves. -/
def RoundLeft (rc : ℤ) (r : Unit ⊕ Unit) (w : Holding) : Prop :=
  Sum.elim (fun _ => Looping w) (fun _ => Spoiled rc w) r

theorem waitEvent_holding (h : Looping w) :
    SafeHolding (RoundLeft rc) (.call .xenbusWatchWaitEvent (fun _ => .ret (.inl ()))) w := by
  have hproper : w.Proper .xenbusWatchWaitEvent := h.watch
  apply Safe.call holdingEnv_still (fun _ => hproper)
  intro a _
  have hmisused := misused_effect_of_proper (a := a) hproper
  exact Safe.ret holdingEnv_still
    ⟨h.watch, h.path, h.accepted, h.waiting, hmisused.trans h.misused⟩

/-- A round of the loop once the value is read. -/
def compareValue (value : Except ℤ (Option HeapString)) : TriggerProg (Unit ⊕ Unit) :=
  (isDone value).bind (fun found => if found then .ret (.inr ())
    else .call .xenbusWatchWaitEvent (fun _ => .ret (.inl ())))

/-- A string that was read is compared while it is held. -/
theorem compare_holding {s : HeapString} (h : Looping w) (hrc : rc ≠ 0) :
    SafeHolding (RoundLeft rc) (compareValue (.ok (some s)))
      (w.effect (.xsRead dir node) (.ok (some s))) := by
  set w₁ := w.effect (.xsRead dir node) (.ok (some s)) with hw₁
  have hread : w₁.misused = w.misused := misused_effect_of_proper trivial
  have hproper : w₁.Proper (.strcmp (.ok s) done) := w.ledger.status_acquire_self _ ()
  have hwatch : w₁.ledger.status .watch = .held () :=
    (Ledger.status_acquire_of_ne Resource.noConfusion).trans h.watch
  apply Safe.call holdingEnv_still (fun _ => hproper)
  intro (r : ℤ) hcompared
  have hzero : r = 0 ↔ s.text = done := hcompared
  have hmisused := (misused_effect_of_proper (a := r) hproper).trans (hread.trans h.misused)
  by_cases hr : r = 0
  · have hdone : w₁.doneRead = true := by simp [hw₁, Holding.effect, Holding.change, hzero.mp hr]
    simp only [Prog.bind, hr, decide_true]
    apply Safe.ret holdingEnv_still
    refine ⟨fun hgranted => ?_, .inr ⟨hdone, hrc⟩⟩
    exact Bool.false_ne_true (hgranted.waiting.symm.trans hdone)
  · have hnot : w₁.doneRead = false := by
      have htext : s.text ≠ done := fun htext => hr (hzero.mpr htext)
      simp [hw₁, Holding.effect, Holding.change, h.waiting, htext]
    simp only [Prog.bind, hr, decide_false]
    exact waitEvent_holding ⟨hwatch, h.path, h.accepted, hnot, hmisused⟩

/-- An error that was read is dereferenced all the same. -/
theorem compare_error {err : ℤ} (h : Looping w) :
    SafeHolding (RoundLeft rc) (compareValue (.error err))
      (w.effect (.xsRead dir node) (.error err)) := by
  have hdenied : ¬ Granted (w.effect (.xsRead dir node) (.error err)) :=
    fun hgranted => Bool.false_ne_true (hgranted.value.symm)
  have himproper : ¬ (w.effect (.xsRead dir node) (.error err)).Proper (.strcmp (.error err) done) :=
    id
  apply denied_call hdenied
  intro (r : ℤ)
  have hspoiled : Spoiled rc (Holding.effect _ (.strcmp (.error err) done) r) :=
    spoiled_of_improper hdenied himproper
  by_cases hr : r = 0
  · simp only [Prog.bind, hr, decide_true]
    exact Safe.ret holdingEnv_still (hr ▸ hspoiled)
  · simp only [Prog.bind, hr, decide_false]
    apply waitEvent_holding
    exact ⟨h.watch, h.path, h.accepted, h.waiting, misused_effect_of_improper himproper⟩

theorem awaitTrigger_holding (h : Looping w) (hrc : rc ≠ 0) :
    SafeHolding (fun _ w' => Spoiled rc w') awaitTrigger w := by
  refine Safe.loop (fun _ => Looping) (fun _ => holdingEnv_still.stable _) ?_ h
  intro _ w h
  apply Safe.call holdingEnv_still (fun _ => trivial)
  intro value _
  have hround : ∀ r w', RoundLeft rc r w' → Sum.elim (fun _ => Looping w')
      (fun b => SafeHolding (fun _ w' => Spoiled rc w') (.ret b) w') r := by
    intro r w' hr
    cases r with
    | inl _ => exact hr
    | inr _ => exact Safe.ret holdingEnv_still hr
  cases value with
  | error err => exact (compare_error h).mono hround
  | ok value =>
    cases value with
    | none =>
      have hmisused : (w.effect (.xsRead dir node) (.ok none)).misused = w.misused :=
        misused_effect_of_proper trivial
      have hloop : Looping (w.effect (.xsRead dir node) (.ok none)) :=
        ⟨h.watch, h.path, h.accepted, h.waiting, hmisused.trans h.misused⟩
      exact (waitEvent_holding hloop).mono hround
    | some s => exact (compare_holding h hrc).mono hround

end Loop

/-! ## The whole function -/

theorem initial_granted : Granted .initial := ⟨rfl, rfl, rfl, rfl⟩

/-- Before anything was obtained an error is all there is to return. -/
theorem initial_handled {rc : ℤ} (hrc : rc ≠ 0) : HandledIff rc .initial := by
  apply iff_of_true _ initial_granted
  have hsettled : Holding.initial.ledger.Settled () := ⟨by ext r; simp [Holding.initial,
    Ledger.empty], List.not_mem_nil⟩
  exact ⟨rfl, hsettled, iff_of_false hrc Bool.false_ne_true⟩

/-- `path` was not set, and is freed unless it happens to be `NULL`. -/
theorem out_unset {rc : ℤ} {path : Option HeapString} (hrc : rc ≠ 0) :
    SafeHolding HandledIff ((out path .null).bind (fun _ => .ret rc)) (Holding.initial.unset path) := by
  cases path with
  | none => exact Safe.ret holdingEnv_still (initial_handled hrc)
  | some path =>
    apply out_stray (fun hgranted => Bool.false_ne_true hgranted.path.symm)
    simp [Holding.unset, Holding.initial, Ledger.empty]

/-- With the watch, the loop is only left for something that is not handled. -/
theorem watched_holding {w : Holding} {path : Option HeapString} {rc : ℤ} (h : Looping w)
    (hrc : rc ≠ 0) :
    SafeHolding HandledIff
      (awaitTrigger.bind (fun _ => (out path .registered).bind (fun _ => .ret rc))) w := by
  apply Safe.bind
  apply (awaitTrigger_holding h hrc).mono
  intro _ w h
  exact out_spoiled h

theorem effect_asprintf_failed {rc : ℤ} {path : Option HeapString} (hneg : rc < 0) :
    Holding.initial.effect (.asprintf dir node) (rc, path) = Holding.initial.unset path := by
  cases path with
  | none => rfl
  | some path =>
    have hchange : Holding.initial.change (.asprintf dir node) (rc, some path) =
        Holding.initial.unset (some path) := if_neg hneg.not_gt
    rw [Holding.effect, hchange]
    rfl

theorem effect_asprintf_printed {path : HeapString} :
    Holding.initial.effect (.asprintf dir node) ((nodePath dir node).length, some path) =
      Holding.initial.acquire (.string path.addr) := rfl

/-- The watch is registered for a path that is held. -/
theorem watch_holding {path : HeapString} {rc : ℤ} {k : Except ℤ ℕ → TriggerProg ℤ}
    (herror : ∀ err, k (.error err) = (out (some path) (.err err)).bind (fun _ => .ret err))
    (hok : ∀ queued, k (.ok queued) =
      awaitTrigger.bind (fun _ => (out (some path) .registered).bind (fun _ => .ret rc)))
    (hrc : rc ≠ 0) :
    SafeHolding HandledIff (.call (.xsWatchPath (some path)) k)
      (Holding.initial.acquire (.string path.addr)) := by
  have hproper : (Holding.initial.acquire (.string path.addr)).Proper (.xsWatchPath (some path)) :=
    Ledger.empty.status_acquire_self _ ()
  apply Safe.call holdingEnv_still (fun _ => hproper)
  intro (watch : Except ℤ ℕ) _
  cases watch with
  | error err =>
    rw [herror]
    apply out_refused
    exact fun hgranted => Bool.false_ne_true hgranted.watch.symm
  | ok queued =>
    have hmisused := misused_effect_of_proper (a := (.ok queued : Except ℤ ℕ)) hproper
    rw [hok]
    apply watched_holding _ hrc
    exact ⟨Ledger.status_acquire_self .., rfl, rfl, rfl, hmisused⟩

theorem waitHarnessTrigger_holding :
    SafeHolding HandledIff waitHarnessTrigger .initial := by
  apply Safe.call holdingEnv_still (fun _ => trivial)
  intro (rc : ℤ) _
  by_cases hrc : rc = 0
  · subst hrc
    simp only [Prog.bind, ne_eq, not_true_eq_false, if_false]
    apply Safe.call holdingEnv_still (fun _ => trivial)
    rintro ⟨(rc : ℤ), path⟩ (hneg | ⟨rfl, path, rfl, -, -⟩)
    · have hle : rc ≤ 0 := hneg.le
      have hworld := @effect_asprintf_failed rc path hneg
      simp only [Prog.bind, hle, if_true]
      change SafeHolding _ _ (Holding.initial.effect (.asprintf dir node) (rc, path))
      rw [hworld]
      exact out_unset hneg.ne
    · have hpos : ¬ ((nodePath dir node).length : ℤ) ≤ 0 := by decide
      have hprinted : ((nodePath dir node).length : ℤ) ≠ 0 := by decide
      simp only [Prog.bind, hpos, if_false]
      change SafeHolding _ _ (Holding.initial.effect (.asprintf dir node)
        ((nodePath dir node).length, some path))
      rw [effect_asprintf_printed]
      exact watch_holding (fun _ => rfl) (fun _ => rfl) hprinted
  · simp only [Prog.bind, ne_eq, hrc, not_false_eq_true, if_true]
    apply Safe.call holdingEnv_still (fun _ => trivial)
    intro path _
    exact out_unset hrc

/-- As long as everything is granted no pointer is misused. -/
theorem waitHarnessTrigger_proper {p : TriggerProg ℤ} {w : Holding}
    (hr : Reaches holdingEnv (waitHarnessTrigger, .initial) (p, w)) (h : Granted w) :
    w.misused = false := by
  refine waitHarnessTrigger_holding.preserves (fun w => Granted w → w.misused = false)
    (holdingEnv_still.stable _) ?_ hr (fun _ => rfl) h
  intro w c a hguard _ hw hgranted
  have hbefore := granted_of_effect hgranted
  exact (misused_effect_of_proper (hguard hbefore)).trans (hw hbefore)

/-- In a run that is granted everything every failure is handled, and a run that returns was handled
only then. -/
theorem waitHarnessTrigger_handled {p : TriggerProg ℤ} {w : Holding}
    (hr : Reaches holdingEnv (waitHarnessTrigger, .initial) (p, w)) :
    (Granted w → Handled p w) ∧ ∀ rc, p = .ret rc → (Handled p w ↔ Granted w) := by
  have hmeets := waitHarnessTrigger_holding p w hr
  cases p with
  | ret rc =>
    have hiff : Handled (.ret rc) w ↔ Granted w := hmeets
    exact ⟨hiff.mpr, fun _ _ => hiff⟩
  | call | loop =>
    refine ⟨waitHarnessTrigger_proper hr, fun rc hret => ?_⟩
    cases hret

/-- The node cannot be reset, and `path` happens to be `NULL`. -/
theorem waitHarnessTrigger_handled_refused :
    ∃ w, Reaches holdingEnv (waitHarnessTrigger, .initial) (.ret (-1), w) ∧
      Handled (.ret (-1)) w := by
  let w₁ := Holding.initial.effect (.xsWrite dir node []) (-1 : ℤ)
  have hr : Reaches holdingEnv (waitHarnessTrigger, .initial)
      (.ret (-1), w₁.effect .indeterminate none) := by
    apply Relation.ReflTransGen.head (.call (-1 : ℤ) trivial)
    apply Relation.ReflTransGen.head
      (.call (E := holdingEnv) (c := .indeterminate) none trivial)
    exact .refl
  exact ⟨_, hr, (waitHarnessTrigger_handled hr).1 ⟨rfl, rfl, rfl, rfl⟩⟩

/-- A guest that reads `done` leaves the loop. -/
theorem guest_leaves {w : Holding} {s : HeapString} (hfresh : w.ledger.Fresh (.string s.addr))
    (htext : s.text = done) (f : Unit → TriggerProg ℤ) :
    Reaches holdingEnv (awaitTrigger.bind f, w)
      (f (), (w.effect (.xsRead dir node) (.ok (some s))).effect (.strcmp (.ok s) done) (0 : ℤ)) := by
  have hread : holdingEnv.legal w (.xsRead dir node) (.ok (some s)) := hfresh
  have hcompare : holdingEnv.legal (w.effect (.xsRead dir node) (.ok (some s)))
      (.strcmp (.ok s) done) (0 : ℤ) := iff_of_true rfl htext
  apply Relation.ReflTransGen.head .loop
  apply Relation.ReflTransGen.head (.call _ hread)
  apply Relation.ReflTransGen.head (.call _ hcompare)
  exact .refl

/-- The trigger comes at once: the value read is kept, and 20 is returned. -/
theorem waitHarnessTrigger_mishandles :
    ¬ ∀ p w, Reaches holdingEnv (waitHarnessTrigger, .initial) (p, w) → Handled p w := by
  intro hall
  let w₁ := Holding.initial.effect (.xsWrite dir node []) (0 : ℤ)
  let w₂ := w₁.effect (.asprintf dir node) ((20 : ℤ), some ⟨1, trigger⟩)
  let w₃ := w₂.effect (.xsWatchPath (some ⟨1, trigger⟩)) (.ok 0)
  let w₄ := w₃.effect (.xsRead dir node) (.ok (some ⟨2, done⟩))
  let w₅ := w₄.effect (.strcmp (.ok ⟨2, done⟩) done) (0 : ℤ)
  let w₆ := (w₅.effect (.free (some ⟨1, trigger⟩)) ()).effect (.xsUnwatch .registered) ()
  have hfree : w₁.ledger.Fresh (.string 1) := by
    intro k
    simp [w₁, Holding.effect, Holding.change, Holding.initial, Ledger.empty]
  have hfresh : w₃.ledger.Fresh (.string 2) := by
    have hunused : w₃.ledger.status (.string 2) = .unused := rfl
    intro k
    simp [hunused]
  have hformat : holdingEnv.legal w₁ (.asprintf dir node) ((20 : ℤ), some ⟨1, trigger⟩) :=
    .inr ⟨by decide, ⟨1, trigger⟩, rfl, rfl, hfree⟩
  have hleave := guest_leaves (s := ⟨2, done⟩) hfresh rfl
    (fun _ => (out (some ⟨1, trigger⟩) .registered).bind (fun _ => .ret 20))
  have hreturn : Reaches holdingEnv (waitHarnessTrigger, .initial) (.ret 20, w₆) := by
    apply Relation.ReflTransGen.head (.call (0 : ℤ) trivial)
    apply Relation.ReflTransGen.head (.call _ hformat)
    apply Relation.ReflTransGen.head
      (.call (E := holdingEnv) (c := .xsWatchPath (some ⟨1, trigger⟩)) (.ok 0) trivial)
    apply hleave.trans
    apply Relation.ReflTransGen.head (.call () trivial)
    apply Relation.ReflTransGen.head (.call () trivial)
    exact .refl
  have hcode : (20 : ℤ) = 0 ↔ true = true := (hall _ _ hreturn).2.2
  exact absurd (hcode.mpr rfl) (by decide)

end CloningApps.Fuzz
