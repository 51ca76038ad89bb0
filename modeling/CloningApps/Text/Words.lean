import Mathlib

/-! # Maximal runs between separators

`words sep s` lists the maximal runs of elements of `s` that are no separators.
-/

namespace CloningApps.Text
variable {α : Type*} {sep : α → Bool}

def words (sep : α → Bool) (s : List α) : List (List α) :=
  (s.splitOnP sep).filter (fun w => !w.isEmpty)

@[simp] theorem words_nil : words sep [] = [] := by simp [words, List.splitOnP_nil]

theorem words_cons_sep (c : α) (s : List α) (hc : sep c = true) :
    words sep (c :: s) = words sep s := by
  simp [words, List.splitOnP_cons_eq_if_modifyHead, hc]

theorem words_of_run (w : List α) (hne : w ≠ []) (hw : ∀ x ∈ w, sep x = false) :
    words sep w = [w] := by
  simp [words, List.splitOnP_eq_singleton hw, hne]

theorem words_run_sep (w : List α) (c : α) (s : List α) (hne : w ≠ [])
    (hw : ∀ x ∈ w, sep x = false) (hc : sep c = true) :
    words sep (w ++ c :: s) = w :: words sep s := by
  simp [words, List.splitOnP_append_cons_of_forall_mem hw c hc, hne]

theorem words_append_seps (b s : List α) (hb : ∀ x ∈ b, sep x = true) :
    words sep (b ++ s) = words sep s := by
  induction b with
  | nil => rfl
  | cons c b ih =>
    rw [List.cons_append, words_cons_sep c _ (hb c (by simp))]
    exact ih (fun x hx => hb x (by simp [hx]))

end CloningApps.Text
