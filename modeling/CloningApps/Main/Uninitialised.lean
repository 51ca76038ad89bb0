import CloningApps.Main.Compare

/-! # What is read before it is set

The applications read local variables that were never set: the sockets and the server
that are handed over to be opened, the port, and in the fuzzed module the path that is
freed. What these hold decides nothing of what the program does if it reports, forks or
clones, and otherwise it decides which descriptor is closed.
-/

namespace CloningApps.Main
open Text Interaction Os Cmdline Server Fuzz Net

def reads : Call → Bool
  | .indeterminate => true
  | _ => false

def machineReads : MachineCall → Bool
  | .app c => reads c
  | .fuzz (.store .indeterminate) => true
  | _ => false

def MachineKeeps : (c : MachineCall) → c.Answer → Prop
  | .app c, a => KeepsSettings c a
  | _, _ => True

variable {os : Platform} {g : Globals} {s : Setup}

theorem reads_comparable (os : Platform) : Comparable reads KeepsSettings os os False where
  opening := by
    intro c hc
    cases c with
    | indeterminate => exact id
    | _ => exact absurd hc Bool.false_ne_true
  settings := fun _ _ h => h
  reuse := by
    intro s
    refine OnlyCalls.alike ((reuseAddress_calls os .report 0 s).mono (fun c hc => ?_))
    cases c with
    | indeterminate => exact absurd hc id
    | _ => rfl
  stack := .left rfl (fun _ _ => .right rfl (fun _ _ => .ret False.elim))

theorem main_alike_reads {rc : ℤ} (hfuzz : rc = 0 → hasCase s.build g.app = true → g.app ≠ .fuzz)
    (hset : rc = 0 → hasCase s.build g.app = true → ComesToPrologue s.pageSize g →
      Settles False g) :
    Alike (I := machine) machineReads MachineKeeps Eq (main s (.returned rc g))
      (main s (.returned rc g)) := by
  refine main_alike rc rfl ?_ ?_ ?_
  · cases s.os with
    | minios => exact .call rfl (fun _ _ => .ret ⟨rfl, rfl⟩)
    | posix | unikraft => exact .ret ⟨rfl, rfl⟩
  · intro hrc hcase p p' hp hp'
    have happ : Alike reads KeepsSettings Eq p p' :=
      application_alike (reads_comparable s.os) rfl rfl rfl (hset hrc hcase) hp hp'
    exact happ.lift (fun _ => rfl) (fun _ _ h => h)
  · intro hrc hcase hnone
    rcases application_eq_none.mp hnone with hg | hg
    · simp [hasCase, hg] at hcase
    · exact absurd hg (hfuzz hrc hcase)

/-! ## Runs in which nothing else is answered -/

/-- Only Mini-OS's networking starts, and the Xen store cannot be written. -/
def deafEnv : Env machine Unit where
  legal := fun _ c a =>
    match c, a with
    | .startNetworking, _ => True
    | .fuzz (.store (.xsWrite ..)), rc => rc = (-1 : ℤ)
    | _, _ => False
  effect := fun _ _ _ => ()
  drift := fun _ _ => False

/-- Variables that hold the same number, or the same path, whenever they are read. -/
def guess (x : ℤ) (path : Option HeapString) : Oracle machine machineReads := fun _ c h =>
  match c, h with
  | .app .indeterminate, _ => x
  | .fuzz (.store .indeterminate), _ => path

variable {x : ℤ} {α : Type} {w : Unit × ℕ} {post : α → Unit × ℕ → Prop}

theorem deafEnv_still (f : Oracle machine machineReads) : (deafEnv.given f).Still :=
  fun _ _ h => h.1

/-- No descriptor is closed, and nothing of the fuzzed module is freed. -/
def FindsNothing : MachineCall → Prop
  | .app (.close _) => False
  | .fuzz (.store (.free _)) => False
  | _ => True

abbrev SafeDeaf (x : ℤ) (post : α → Unit × ℕ → Prop) (p : SysProg α) (w : Unit × ℕ) : Prop :=
  Safe ((deafEnv.given (guess x none)).along apps) (fun _ c => FindsNothing (apps.call c)) post p
    w

theorem deaf_read {k : ℤ → SysProg α} (h : ∀ w, SafeDeaf x post (k x) w) :
    SafeDeaf x post (@Prog.call system α .indeterminate k) w := by
  refine Safe.call ((deafEnv_still _).along apps) trivial (fun a ha => ?_)
  obtain rfl : a = x := ha
  exact h _

theorem deaf_call {c : Call} (hc : reads c = false) (hclose : FindsNothing (.app c))
    {k : c.Answer → SysProg α} : SafeDeaf x post (@Prog.call system α c k) w := by
  refine Safe.call ((deafEnv_still _).along apps) hclose (fun a ha => ?_)
  simp [Env.along, Env.given, apps, machineReads, hc, deafEnv] at ha

theorem serveTcp_deaf {σ : Type} {round : OsServer → σ → SysProg (σ ⊕ LoopExit)} (os : Platform)
    (u : σ) {post : LoopExit → Unit × ℕ → Prop} : SafeDeaf x post (serveTcp os round u) w :=
  deaf_read (fun _ => deaf_read (fun _ => deaf_call rfl (by trivial)))

theorem serveRc_deaf {σ : Type} {round : OsServer → σ → SysProg (σ ⊕ LoopExit)} (os : Platform)
    (u : σ) {post : ℤ → Unit × ℕ → Prop} :
    SafeDeaf x post (do return (← serveTcp os round u).rc) w :=
  Safe.bind (serveTcp_deaf os u)

theorem settles_of_not_plain (h : ¬ Plain g) (hchildren : 1 ≤ g.childrenNum) :
    Settles False g := by
  refine .inr ⟨?_, fun _ => hchildren⟩
  by_contra hnone
  push Not at hnone
  exact h ⟨by simpa using hnone.1, by simpa using hnone.2.1, by simpa using hnone.2.2⟩

/-- A prologue that has nothing to do closes the socket that it never opened. -/
theorem serverPrologue_plain (os : Platform) (h : Plain g) : serverPrologue os g =
    @Prog.call system _ .indeterminate (fun s => @Prog.call system _ .indeterminate (fun port =>
      @Prog.call system _ .indeterminate (fun _ =>
        (mysocketFini ⟨s, BitVec.ofInt 16 port⟩).bind (fun rc => .ret (⟨rc, none⟩, g))))) := by
  simp only [serverPrologue, afterReport, h.report, h.fork, h.clone, Bool.false_eq_true, if_false]
  rfl

theorem application_plain (h : Plain g) (hcomes : ComesToPrologue s.pageSize g) :
    ∃ serve, application s g = some ((serverPrologue s.os g).bind serve) ∧
      ∀ w, SafeDeaf x (fun _ _ => True) (serve (⟨0, none⟩, g)) w := by
  obtain ⟨hprologue, hpages⟩ := hcomes
  rcases hprologue with hg | hg | hg | hg | hg | hg
  · refine ⟨_, by rw [application, hg]; rfl, fun w => serveRc_deaf s.os ()⟩
  · refine ⟨_, by rw [application, hg]; rfl, fun w => serveRc_deaf s.os ()⟩
  · refine ⟨_, by rw [application, hg]; rfl, fun w => serveRc_deaf s.os g⟩
  · refine ⟨_, by rw [application, hg]; rfl, fun w => ?_⟩
    simp only [h.fork, Bool.false_eq_true, false_and, if_false]
    exact serveRc_deaf s.os ()
  · obtain ⟨n, hn⟩ := Option.ne_none_iff_exists'.mp (hpages hg)
    refine ⟨_, by rw [application, hg]; simp only [threadFuncMeasureFork, hn]; rfl, fun w => ?_⟩
    exact deaf_call rfl (by trivial)
  · refine ⟨_, by rw [application, hg]; rfl, fun w => ?_⟩
    exact deaf_read (fun _ => deaf_read (fun _ => deaf_call rfl (by trivial)))

theorem prologue_deaf (os : Platform) (h : Plain g) {serve : Prologue × Globals → SysProg ℤ}
    (hserve : ∀ w, SafeDeaf (-1) (fun _ _ => True) (serve (⟨0, none⟩, g)) w) :
    SafeDeaf (-1) (fun _ _ => True) ((serverPrologue os g).bind serve) w := by
  rw [serverPrologue_plain os h]
  exact deaf_read (fun _ => deaf_read (fun _ => deaf_read hserve))

theorem prologue_closes (os : Platform) (h : Plain g) (serve : Prologue × Globals → SysProg ℤ)
    {x : ℤ} (hx : 0 ≤ x) (kont : ℤ → MainProg ℤ) (n : ℕ) :
    ∃ k m, Reaches (deafEnv.given (guess x none))
      ((((serverPrologue os g).bind serve).lift apps).bind kont, (), n)
      (@Prog.call machine ℤ (.app (.close x)) k, (), m) := by
  rw [serverPrologue_plain os h]
  have hfini : mysocketFini ⟨x, BitVec.ofInt 16 x⟩ =
      @Prog.call system ℤ (.close x) (fun _ => .ret 0) := by
    simp only [mysocketFini, if_pos hx]
    rfl
  refine ⟨?next, ?count, ?run⟩
  case run =>
    apply Relation.ReflTransGen.head (.hidden_call rfl _ _ _)
    apply Relation.ReflTransGen.head (.hidden_call rfl _ _ _)
    apply Relation.ReflTransGen.head (.hidden_call rfl _ _ _)
    change Reaches _ (((((mysocketFini ⟨x, BitVec.ofInt 16 x⟩).bind
      (fun rc => .ret (⟨rc, none⟩, g))).bind serve).lift apps).bind kont, (), n + 3) _
    rw [hfini]
    exact .refl

/-! ## The program -/

theorem main_eq (hcase : hasCase s.build g.app = true) : main s (.returned 0 g) =
    (osAppInit s.os).bind (fun rc => if rc ≠ 0 then .ret rc else
      (threadFunc s g).bind (fun rc => .ret (rc.bmod (2 ^ 32)))) := by
  simp [main, afterParsing, hcase]

/-- What the program does before its application begins. -/
theorem main_begins (f : Oracle machine machineReads) (hcase : hasCase s.build g.app = true) :
    Reaches (deafEnv.given f) (main s (.returned 0 g), (), 0)
      ((threadFunc s g).bind (fun rc => .ret (rc.bmod (2 ^ 32))), (), 0) := by
  rw [main_eq hcase]
  cases s.os with
  | minios => exact .head (.open_call (a := ()) rfl _ _ trivial) .refl
  | posix | unikraft => exact .refl

/-- What a program does that found nothing to close and nothing to free. -/
abbrev FoundNothing (p : MainProg α) (w : Unit × ℕ) : Prop :=
  Safe (deafEnv.given (guess (-1) none)) (fun _ => FindsNothing) (fun _ _ => True) p w

theorem main_foundNothing (hcase : hasCase s.build g.app = true)
    (h : ∀ w, FoundNothing (threadFunc s g) w) : FoundNothing (main s (.returned 0 g)) w := by
  have hE := deafEnv_still (guess (-1) none)
  have hrest : ∀ w, FoundNothing ((threadFunc s g).bind (fun rc => .ret (rc.bmod (2 ^ 32)))) w :=
    fun w => Safe.bind ((h w).mono (fun _ _ _ => Safe.ret hE trivial))
  rw [main_eq hcase]
  cases s.os with
  | minios => exact Safe.call hE trivial (fun _ _ => hrest _)
  | posix | unikraft => exact hrest w

/-! ## The fuzzed module -/

theorem fuzz_foundNothing : FoundNothing (threadFuncFuzz.lift fuzzer) w := by
  have hE := deafEnv_still (guess (-1) none)
  refine Safe.call hE trivial ?_
  rintro (rc : ℤ) hrc
  obtain rfl : rc = -1 := hrc
  refine Safe.call hE trivial ?_
  rintro (path : Option HeapString) hpath
  obtain rfl : path = none := hpath
  refine Safe.call hE trivial ?_
  rintro r hr
  exact absurd hr id

theorem fuzz_frees (path : HeapString) (kont : ℤ → MainProg ℤ) (n : ℕ) :
    ∃ k m, Reaches (deafEnv.given (guess (-1) (some path)))
      ((threadFuncFuzz.lift fuzzer).bind kont, (), n)
      (@Prog.call machine ℤ (.fuzz (.store (.free (some path)))) k, (), m) := by
  refine ⟨?next, ?count, ?run⟩
  case run =>
    apply Relation.ReflTransGen.head (.open_call rfl _ _ rfl)
    apply Relation.ReflTransGen.head (.hidden_call rfl _ _ _)
    exact .refl

/-! ## Whose answers matter -/

theorem guess_answers (x : ℤ) (path : Option HeapString) :
    Answers MachineKeeps (guess x path) := by
  intro n c hc
  cases c with
  | app c => cases c <;> trivial
  | _ => trivial

theorem deafEnv_keeps (w : Unit) (c : MachineCall) (a : c.Answer) (h : deafEnv.legal w c a) :
    MachineKeeps c a := by
  cases c with
  | app c => exact absurd h id
  | _ => trivial

/-- What is closed or freed after the one guess is not after the other. -/
theorem decide_of_found {x : ℤ} {path : Option HeapString} (hcase : hasCase s.build g.app = true)
    {c : MachineCall} (hfound : ¬ FindsNothing c)
    (hreach : ∃ k n, Reaches (deafEnv.given (guess x path))
      ((threadFunc s g).bind (fun rc => .ret (rc.bmod (2 ^ 32))), (), 0)
      (@Prog.call machine ℤ c k, (), n))
    (hnothing : ∀ w, FoundNothing (threadFunc s g) w) :
    Decide (I := machine) machineReads MachineKeeps (main s (.returned 0 g)) c := by
  obtain ⟨k, n, hrun⟩ := hreach
  refine ⟨Unit, deafEnv, guess x path, guess (-1) none, (), deafEnv_keeps, guess_answers x path,
    guess_answers (-1) none, ⟨k, (), n, (main_begins _ hcase).trans hrun⟩, ?_⟩
  rintro ⟨k', v, m, hrun'⟩
  exact hfound (main_foundNothing hcase hnothing _ _ hrun')

/-- The fuzzed module frees whatever its path happens to hold. -/
theorem main_decides_free (hcase : hasCase s.build g.app = true) (hg : g.app = .fuzz)
    (path : HeapString) :
    Decide (I := machine) machineReads MachineKeeps (main s (.returned 0 g))
      (.fuzz (.store (.free (some path)))) := by
  have hthread : threadFunc s g = threadFuncFuzz.lift fuzzer := by
    rw [threadFunc, application_eq_none.mpr (.inr hg)]
  have hfound := fuzz_frees path (fun rc => .ret (rc.bmod (2 ^ 32))) 0
  rw [← hthread] at hfound
  exact decide_of_found hcase id hfound (fun w => hthread ▸ fuzz_foundNothing)

/-- A prologue without a mode closes whatever descriptor its socket happens to hold. -/
theorem main_decides_close (hcase : hasCase s.build g.app = true)
    (hcomes : ComesToPrologue s.pageSize g) (hplain : Plain g) {x : ℤ} (hx : 0 ≤ x) :
    Decide (I := machine) machineReads MachineKeeps (main s (.returned 0 g)) (.app (.close x)) := by
  obtain ⟨serve, happ, hserve⟩ := application_plain (x := -1) hplain hcomes
  have hthread : threadFunc s g = ((serverPrologue s.os g).bind serve).lift apps := by
    rw [threadFunc, happ]
  have hfound := prologue_closes s.os hplain serve hx (fun rc => .ret (rc.bmod (2 ^ 32))) 0
  rw [← hthread] at hfound
  exact decide_of_found hcase id hfound
    (fun w => hthread ▸ Safe.lift (prologue_deaf s.os hplain hserve))

/-- What the program reads before it is set decides nothing of what it does, if and only if its
application is not the fuzzed module and reports, forks or clones in its prologue. Otherwise it
decides which pointer is freed, of all pointers, or which descriptor is closed, of all
descriptors. -/
theorem main_unmoved_iff (s : Setup) (rc : ℤ) (g : Globals) (hchildren : 1 ≤ g.childrenNum) :
    (Unmoved (I := machine) machineReads MachineKeeps (main s (.returned rc g)) ↔
      (rc = 0 → hasCase s.build g.app = true →
        g.app ≠ .fuzz ∧ (ComesToPrologue s.pageSize g → ¬ Plain g))) ∧
      (rc = 0 → hasCase s.build g.app = true → g.app = .fuzz → ∀ path,
        Decide (I := machine) machineReads MachineKeeps (main s (.returned rc g))
          (.fuzz (.store (.free (some path))))) ∧
      (rc = 0 → hasCase s.build g.app = true → ComesToPrologue s.pageSize g → Plain g →
        ∀ x, 0 ≤ x → Decide (I := machine) machineReads MachineKeeps (main s (.returned rc g))
          (.app (.close x))) := by
  refine ⟨⟨?moved, ?unmoved⟩, ?frees, ?closes⟩
  case moved =>
    rintro hunmoved rfl hcase
    refine ⟨fun hg => ?_, fun hcomes hplain => ?_⟩
    · exact (main_decides_free hcase hg ⟨1, []⟩).not_unmoved rfl hunmoved
    · exact (main_decides_close hcase hcomes hplain (le_refl 0)).not_unmoved rfl hunmoved
  case unmoved =>
    intro h
    refine Alike.follows
      (main_alike_reads (fun hrc hcase => (h hrc hcase).1) (fun hrc hcase hcomes => ?_))
    exact settles_of_not_plain ((h hrc hcase).2 hcomes) hchildren
  case frees =>
    rintro rfl hcase hg path
    exact main_decides_free hcase hg path
  case closes =>
    rintro rfl hcase hcomes hplain x hx
    exact main_decides_close hcase hcomes hplain hx

/-- A server that forks is not moved; one that only serves is, and may close its standard output. -/
theorem main_unmoved_iff_forking :
    Unmoved (I := machine) machineReads MachineKeeps (main .full (.returned 0 forkingServer)) ∧
      ¬ Unmoved (I := machine) machineReads MachineKeeps
        (main .full (.returned 0 { Globals.initial with app := .serverTcp })) ∧
      Decide (I := machine) machineReads MachineKeeps
        (main .full (.returned 0 { Globals.initial with app := .serverTcp }))
        (.app (.close 1)) := by
  have hforks := main_unmoved_iff .full 0 forkingServer (by decide)
  have hserves := main_unmoved_iff .full 0 { Globals.initial with app := .serverTcp } (by decide)
  have hcomes : ComesToPrologue Setup.full.pageSize { Globals.initial with app := .serverTcp } :=
    ⟨.inr (.inl rfl), by simp⟩
  refine ⟨hforks.1.mpr (fun _ _ => ⟨by decide, ?_⟩), fun hunmoved => ?_, ?_⟩
  · exact fun _ hplain => absurd hplain.fork (by decide)
  · exact (hserves.1.mp hunmoved rfl rfl).2 hcomes ⟨rfl, rfl, rfl⟩
  · exact hserves.2.2 rfl rfl hcomes ⟨rfl, rfl, rfl⟩ 1 (by decide)

end CloningApps.Main
