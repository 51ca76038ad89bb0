import CloningApps.Cmdline.Agreement
import CloningApps.Main.Platforms

/-! # From the command line on

The options of `print_usage` reach `main` as `argv` on POSIX and on Unikraft, and as one
line of text on Mini-OS, which a thread tokenizes first. Options that both front ends
understand make the program do the same on both.
-/

namespace CloningApps.Main
open Text Interaction Os Cmdline

variable {build : Build} {items ks : List (Argument build build × Bool)}

/-- The parser of POSIX returns with `0` only. -/
theorem posixParseArgs_eq {args : List CStr} {g g' : Globals}
    (h : posixTake build args g = some g') : posixParseArgs build args g = .returned 0 g' := by
  rw [← posixParseArgs_accepted] at h
  cases hparsed : posixParseArgs build args g with
  | exited status => simp [hparsed, ParseResult.accepted] at h
  | returned rc g₁ =>
    obtain rfl : g₁ = g' := by simpa [hparsed, ParseResult.accepted] using h
    have hrc : rc = 0 := by
      simp only [posixParseArgs] at hparsed
      split at hparsed
      · cases hparsed
      next g₂ rc₂ _ =>
        by_cases hzero : (if (getoptLong posixTable args).operands = [] then rc₂ else -1) = 0
        · rw [if_neg (not_not.mpr hzero), hzero] at hparsed
          exact (ParseResult.returned.inj hparsed).1.symm
        · rw [if_pos hzero] at hparsed
          cases hparsed
    rw [hrc]

/-- What is kept leaves the settings that all arguments ask for. -/
theorem setAll_eq_of_kept (hkept : kept items = some ks)
    (hsend : ks.any (fun item => item.1.isSendTime) = items.any (fun item => item.1.isSendTime))
    (hfork : ks.any (fun item => item.1.isFork) = items.any (fun item => item.1.isFork)) :
    setAll ks Globals.initial = setAll items Globals.initial := by
  have hunflagged : (setAll ks Globals.initial).unflagged =
      (setAll items Globals.initial).unflagged := by
    rw [setAll_unflagged, setAll_unflagged, filter_kept hkept]
  have hclone := congrArg Globals.doClone hunflagged
  have hdocumented := (setAll_kept hkept).mpr ⟨hsend, hfork⟩
  cases hks : setAll ks Globals.initial
  cases hitems : setAll items Globals.initial
  simp only [hks, hitems, Globals.unflagged, Globals.documented, Globals.mk.injEq]
    at hclone hdocumented ⊢
  tauto

/-- Arguments that are understood, and no number of children among them that both reject. -/
structure Taken (items : List (Argument build build × Bool)) : Prop where
  understood : Understood items
  enough : ∀ item ∈ items, item.1.tooFew = false

theorem Taken.posix (h : Taken items) : posixParseArgs build (renderAll items) Globals.initial =
    .returned 0 (setAll items Globals.initial) := by
  apply posixParseArgs_eq
  rcases h.understood with ⟨item, hmem, hfew⟩ | ⟨hvalid, ks, hkept, hsend, hfork⟩
  · exact absurd (hfew.symm.trans (h.enough item hmem)) (by decide)
  · rw [posixTake_renderAll hvalid (misread_of_kept hkept), hkept]
    exact congrArg some (setAll_eq_of_kept hkept hsend hfork)

/-- However the words are laid out on the line. -/
theorem Taken.minios (h : Taken items) {line : CStr} (beyond : ℕ → CStr)
    (hwords : ∀ w ∈ renderAll items, IsWord w) (hline : Laid (renderAll items) line)
    (hnum : (renderAll items).length ≤ MAX_ARGV_NUM - 1) :
    (threadedMainParse build line beyond).result =
      .returned 0 (setAll items Globals.initial) := by
  obtain ⟨next, hparse, -⟩ := threadedMainParse_eq build line beyond (hline.not_nul hwords)
  have htake : (renderAll items).take 15 = renderAll items := List.take_of_length_le hnum
  have henough : items.any (fun item => item.1.tooFew) = false := by
    rw [List.any_eq_false]
    intro item hmem
    rw [h.enough item hmem]
    decide
  rw [hparse, hline.words hwords, htake, parseTokens_renderAll, henough]
  rfl

/-- What a command line makes the program do on POSIX or on Unikraft, it makes it do on Mini-OS,
and the other way round: the program makes the same calls in the same worlds and returns the same,
but for the start of networking and for `SO_REUSEADDR`. The thread of Mini-OS exits when the
program returns. Among the calls are those of the `os_*` functions that each platform implements:
one environment answers them to both programs. `--help` is not among the options. -/
theorem commandLine_follows (s : Setup) (items : List (Argument s.build s.build × Bool))
    (line : CStr) (beyond : ℕ → CStr) (htaken : Taken items)
    (hwords : ∀ w ∈ renderAll items, IsWord w) (hline : Laid (renderAll items) line)
    (hnum : (renderAll items).length ≤ MAX_ARGV_NUM - 1) :
    (Follows (I := machine) platformCalls PlatformsServe
        (main { s with os := .minios } (threadedMainParse s.build line beyond).result)
        (posixProgram s (renderAll items)) ∧
      Follows (I := machine) platformCalls PlatformsServe (posixProgram s (renderAll items))
        (main { s with os := .minios } (threadedMainParse s.build line beyond).result)) ∧
      Follows (I := machine) platformCalls PlatformsServe
        (threadedMainWrapper { s with os := .minios } line beyond)
        ((posixProgram s (renderAll items)).bind (fun _ => doExit)) ∧
      Follows (I := machine) platformCalls PlatformsServe
        ((posixProgram s (renderAll items)).bind (fun _ => doExit))
        (threadedMainWrapper { s with os := .minios } line beyond) := by
  have hminios := htaken.minios beyond hwords hline hnum
  have hexit : Alike (I := machine) platformCalls PlatformsServe Eq doExit doExit :=
    .call rfl (fun nothing => nothing.elim)
  have hposix := main_alike_platforms s .minios 0 (setAll items Globals.initial)
  have hback := main_alike_platforms { s with os := .minios } s.os 0 (setAll items Globals.initial)
  rw [threadedMainWrapper, hminios, posixProgram, htaken.posix]
  exact ⟨⟨hposix.follows, hback.follows⟩, (hposix.bind (fun _ _ _ => hexit)).follows,
    (hback.bind (fun _ _ _ => hexit)).follows⟩

/-- A server that forks, asked for with blanks around its options. -/
def forkingLine : CStr := ascii " --app server-tcp\t--fork "

theorem commandLine_follows_forking :
    (Follows (I := machine) platformCalls PlatformsServe
        (main { Setup.full with os := .minios }
          (threadedMainParse everyApp forkingLine (fun _ => [])).result)
        (posixProgram .full [ascii "--app", ascii "server-tcp", ascii "--fork"]) ∧
      Follows (I := machine) platformCalls PlatformsServe
        (posixProgram .full [ascii "--app", ascii "server-tcp", ascii "--fork"])
        (main { Setup.full with os := .minios }
          (threadedMainParse everyApp forkingLine (fun _ => [])).result)) ∧
      Follows (I := machine) platformCalls PlatformsServe
        (threadedMainWrapper { Setup.full with os := .minios } forkingLine (fun _ => []))
        ((posixProgram .full [ascii "--app", ascii "server-tcp", ascii "--fork"]).bind
          (fun _ => doExit)) ∧
      Follows (I := machine) platformCalls PlatformsServe
        ((posixProgram .full [ascii "--app", ascii "server-tcp", ascii "--fork"]).bind
          (fun _ => doExit))
        (threadedMainWrapper { Setup.full with os := .minios } forkingLine (fun _ => [])) := by
  let items : List (Argument Setup.full.build Setup.full.build × Bool) :=
    [(.app .serverTcp (by decide) rfl rfl, false), (.fork, false)]
  have htaken : Taken items :=
    ⟨.inr ⟨by decide, _, rfl, by decide, by decide⟩, by decide⟩
  have hline : Laid (renderAll items) forkingLine :=
    .token (ascii " ") (ascii "--app") (by decide) (by decide)
      (.token (ascii " ") (ascii "server-tcp") (by decide) (by decide)
        (.token (ascii "\t") (ascii "--fork") (by decide) (by decide)
          (.blanks (ascii " ") (by decide))))
  exact commandLine_follows .full items _ _ htaken (by decide) hline (by decide)

end CloningApps.Main
