import CloningApps.Cmdline.Minios
import CloningApps.Cmdline.Posix

/-! # The settings that the parsers accept

Both parsers check the number of children. The sleep between clones is checked
on POSIX only; on Mini-OS the last number that scans is kept, whatever its sign.
-/

namespace CloningApps.Cmdline
open Text

/-- What the rest of the program relies on. -/
structure Globals.Valid (g : Globals) : Prop where
  childrenNum : 1 ≤ g.childrenNum
  sleep : 0 ≤ g.sleepBetweenClonesMsec

variable {build : Build} {g g' : Globals}

/-! ## POSIX -/

theorem handleOption_valid {rc rc' : ℤ} {e : GetoptEvent} (hg : g.Valid)
    (h : handleOption build g rc e = .ok (g', rc')) : g'.Valid := by
  obtain ⟨hchildren, hsleep⟩ := hg
  revert h
  unfold handleOption
  split
  case h_1 =>
    intro h
    cases h
  case h_2 | h_6 | h_7 =>
    dsimp only
    split
    · intro h
      cases h
    · intro h
      obtain ⟨rfl, -⟩ := Prod.mk.inj (Except.ok.inj h)
      constructor <;> dsimp only <;> omega
  all_goals
    intro h
    obtain ⟨rfl, -⟩ := Prod.mk.inj (Except.ok.inj h)
    exact ⟨hchildren, hsleep⟩

theorem handleOptions_valid {es : List GetoptEvent} {rc rc' : ℤ} (hg : g.Valid)
    (h : handleOptions build es g rc = .ok (g', rc')) : g'.Valid := by
  induction es generalizing g rc with
  | nil =>
    obtain ⟨rfl, -⟩ := Prod.mk.inj (Except.ok.inj h)
    exact hg
  | cons e es ih =>
    rw [handleOptions] at h
    cases he : handleOption build g rc e with
    | error status =>
      rw [he] at h
      cases h
    | ok a =>
      rw [he] at h
      exact ih (handleOption_valid hg he) h

theorem posixParseArgs_valid {args : List CStr} {rc : ℤ} (hg : g.Valid)
    (h : posixParseArgs build args g = .returned rc g') : g'.Valid := by
  unfold posixParseArgs at h
  cases hoptions : handleOptions build (getoptLong posixTable args).events g 0 with
  | error status => simp [hoptions] at h
  | ok a =>
    have hvalid : a.1.Valid := handleOptions_valid hg hoptions
    simp only [hoptions] at h
    generalize (if (getoptLong posixTable args).operands = [] then a.2 else -1) = code at h
    by_cases hcode : code ≠ 0
    · rw [if_pos hcode] at h
      cases h
    · rw [if_neg hcode] at h
      obtain ⟨-, rfl⟩ := ParseResult.returned.inj h
      exact hvalid

/-! ## Mini-OS -/

/-- The options that the parser comes to, each with the value it looks at. -/
def readOptions (beyond : CStr) : List CStr → List (Opt × CStr)
  | [] => []
  | arg :: rest =>
    match miniosOpt arg with
    | none => readOptions beyond rest
    | some opt =>
      if opt.takesValue then
        match rest with
        | [] => [(opt, beyond)]
        | value :: rest => (opt, value) :: readOptions beyond rest
      else (opt, []) :: readOptions beyond rest

def applyOptions (build : Build) : List (Opt × CStr) → Globals → ParseResult
  | [], g => .returned 0 g
  | (opt, value) :: options, g =>
    match opt.apply build g value with
    | none => .exited none
    | some g => applyOptions build options g

theorem parseTokens_eq_applyOptions (beyond : CStr) (tokens : List CStr) (g : Globals) :
    (parseTokens build beyond tokens g).1 = applyOptions build (readOptions beyond tokens) g := by
  fun_induction parseTokens build beyond tokens g with
  | case1 g => simp [readOptions, applyOptions]
  | case2 arg rest g hopt ih => simpa [readOptions, hopt] using ih
  | case3 arg g opt hopt hvalue hnone => simp [readOptions, applyOptions, *]
  | case4 arg g opt hopt hvalue g' hsome => simp [readOptions, applyOptions, *]
  | case5 arg g opt hopt hvalue value rest hnone => simp [readOptions, applyOptions, *]
  | case6 arg g opt hopt hvalue value rest g' hsome ih => simp [readOptions, applyOptions, *]
  | case7 arg rest g opt hopt hflag hnone => simp [readOptions, applyOptions, *]
  | case8 arg rest g opt hopt hflag g' hsome ih => simp [readOptions, applyOptions, *]

/-- The number of the last sleep argument that is one. -/
def lastSleep : List (Opt × CStr) → Option ℤ
  | [] => none
  | (opt, value) :: options =>
    match lastSleep options with
    | some n => some n
    | none => if opt = .sleep then sscanfD value else none

theorem Opt.apply_sleep {opt : Opt} {value : CStr} (h : opt.apply build g value = some g') :
    g'.sleepBetweenClonesMsec =
      (if opt = .sleep then sscanfD value else none).getD g.sleepBetweenClonesMsec := by
  cases opt with
  | help => simp [Opt.apply] at h
  | app | children =>
    simp only [Opt.apply] at h
    split at h
    · cases h
    · obtain rfl := Option.some.inj h
      rfl
  | _ =>
    obtain rfl := Option.some.inj h
    rfl

/-- What is left of the settings once all options are accepted. -/
theorem applyOptions_returned {options : List (Opt × CStr)} (hg : 1 ≤ g.childrenNum)
    (h : ∀ e ∈ options, e.1.Accepts build e.2) :
    ∃ g', applyOptions build options g = .returned 0 g' ∧ 1 ≤ g'.childrenNum ∧
      g'.sleepBetweenClonesMsec = (lastSleep options).getD g.sleepBetweenClonesMsec := by
  induction options generalizing g with
  | nil => exact ⟨g, rfl, hg, rfl⟩
  | cons e options ih =>
    obtain ⟨opt, value⟩ := e
    obtain ⟨hopt, hrest⟩ := List.forall_mem_cons.mp h
    obtain ⟨g₁, hg₁⟩ := (opt.accepts_iff g value hg).mp hopt
    obtain ⟨g', hresult, hchildren, hsleep⟩ := ih (opt.apply_childrenNum g g₁ value hg hg₁) hrest
    refine ⟨g', by rw [applyOptions, hg₁]; exact hresult, hchildren, ?_⟩
    rw [hsleep, lastSleep, Opt.apply_sleep hg₁]
    cases lastSleep options <;> rfl

theorem applyOptions_exited {options : List (Opt × CStr)} (hg : 1 ≤ g.childrenNum)
    (h : ∃ e ∈ options, ¬ e.1.Accepts build e.2) : applyOptions build options g = .exited none := by
  induction options generalizing g with
  | nil => simp at h
  | cons e options ih =>
    obtain ⟨opt, value⟩ := e
    rw [applyOptions]
    cases happly : opt.apply build g value with
    | none => rfl
    | some g₁ =>
      have hopt := (opt.accepts_iff g value hg).mpr ⟨g₁, happly⟩
      apply ih (opt.apply_childrenNum g g₁ value hg happly)
      obtain ⟨e, he, hnot⟩ := h
      rcases List.mem_cons.mp he with rfl | he
      · exact absurd hopt hnot
      · exact ⟨e, he, hnot⟩

/-- `os_parse_args` of Mini-OS on a list of arguments. -/
def miniosParseArgs (build : Build) (name : CStr) (args : List CStr) (beyond : ℕ → CStr)
    (g : Globals) : ParseResult :=
  (osParseArgs build (1 + args.length) (argvOf name args beyond) g).result

theorem miniosParseArgs_eq (name : CStr) (args : List CStr) (beyond : ℕ → CStr) (g : Globals) :
    miniosParseArgs build name args beyond g =
      applyOptions build (readOptions (beyond (1 + args.length)) args) g := by
  have hbeyond : argvOf name args beyond (1 + args.length) = beyond (1 + args.length) := by
    simp [argvOf]
  rw [miniosParseArgs, osParseArgs, ← parseTokens_eq_applyOptions, ← hbeyond]
  exact (parseLoop_eq_parseTokens _ _ _ _ 1 g [] (by omega) rfl (by omega)
    (argvOf_holds name args beyond) (by simp)).1

/-- The POSIX parser accepts valid settings only. So does the one of Mini-OS exactly when an
argument ends the program or the last number given for the sleep is not negative. -/
theorem parseArgs_valid_iff (build : Build) (name : CStr) (args : List CStr) (beyond : ℕ → CStr)
    (g : Globals) (hg : g.Valid) :
    (∀ rc g', posixParseArgs build args g = .returned rc g' → g'.Valid) ∧
    ((∀ rc g', miniosParseArgs build name args beyond g = .returned rc g' → g'.Valid) ↔
      (∃ e ∈ readOptions (beyond (1 + args.length)) args, ¬ e.1.Accepts build e.2) ∨
        ∀ n, lastSleep (readOptions (beyond (1 + args.length)) args) = some n → 0 ≤ n) := by
  refine ⟨fun rc g' h => posixParseArgs_valid hg h, ?_⟩
  rw [miniosParseArgs_eq]
  generalize readOptions (beyond (1 + args.length)) args = options
  by_cases hends : ∃ e ∈ options, ¬ e.1.Accepts build e.2
  · simp [applyOptions_exited hg.childrenNum hends, hends]
  · have hall : ∀ e ∈ options, e.1.Accepts build e.2 := by
      intro e he
      by_contra hnot
      exact hends ⟨e, he, hnot⟩
    obtain ⟨g', hresult, hchildren, hsleep⟩ := applyOptions_returned hg.childrenNum hall
    rw [hresult]
    constructor
    · intro h
      right
      intro n hn
      have hvalid := (h 0 g' rfl).sleep
      rwa [hsleep, hn, Option.getD_some] at hvalid
    · intro h rc g'' heq
      obtain ⟨-, rfl⟩ := ParseResult.returned.inj heq
      refine ⟨hchildren, ?_⟩
      rw [hsleep]
      cases hlast : lastSleep options with
      | none => exact hg.sleep
      | some n => exact h.resolve_left hends n hlast

theorem parseArgs_valid_iff_initial :
    (∀ rc g', posixParseArgs (fun _ => true) [ascii "-s", ascii "5"] .initial = .returned rc g' →
      g'.Valid) ∧
    ((∀ rc g', miniosParseArgs (fun _ => true) [] [ascii "-s", ascii "5"] (fun _ => []) .initial =
        .returned rc g' → g'.Valid) ↔
      (∃ e ∈ readOptions [] [ascii "-s", ascii "5"], ¬ e.1.Accepts (fun _ => true) e.2) ∨
        ∀ n, lastSleep (readOptions [] [ascii "-s", ascii "5"]) = some n → 0 ≤ n) :=
  parseArgs_valid_iff (fun _ => true) [] [ascii "-s", ascii "5"] (fun _ => []) .initial
    ⟨by decide, by decide⟩

/-- On Mini-OS `-s -5` is accepted. -/
theorem miniosParseArgs_negative_sleep :
    ¬ ∀ rc g', miniosParseArgs (fun _ => true) (ascii "cloning-apps") [ascii "-s", ascii "-5"]
      (fun _ => []) .initial = .returned rc g' → g'.Valid := by
  intro h
  have hvalid := h 0 { Globals.initial with sleepBetweenClonesMsec := -5 } (by decide)
  exact absurd hvalid.sleep (by decide)

end CloningApps.Cmdline
