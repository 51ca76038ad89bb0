import Mathlib

/-! # Lending

A lender hands out blocks of units and takes them back. A call may take a block and
report a failure all the same, and a block that is given back may be refused. In every
run, what is in use is what was in use at first together with the blocks that are out,
and no two of these meet.
-/

namespace CloningApps.Interaction
variable {W B U : Type}

/-- What a call takes, and whether it reports a success; what giving a block back does, and
whether it is accepted. -/
structure Lender (W B U : Type) where
  used : W → Set U
  extent : B → Set U
  Proper : B → Prop
  take : W → Bool → Option B → W → Prop
  giveBack : W → B → Bool → W → Prop
  take_proper : ∀ {w told b w'}, take w told (some b) w' → Proper b
  take_disjoint : ∀ {w told b w'}, take w told (some b) w' → Disjoint (extent b) (used w)
  take_some : ∀ {w told b w'}, take w told (some b) w' → used w' = used w ∪ extent b
  take_none : ∀ {w told w'}, take w told none w' → used w' = used w
  giveBack_accepted : ∀ {w b w'}, Proper b → giveBack w b true w' → used w' = used w \ extent b
  giveBack_refused : ∀ {w b w'}, Proper b → giveBack w b false w' → used w' = used w

/-- The blocks the caller knows to be its own, and those it was told nothing of. -/
structure Accounts (W B : Type) where
  world : W
  held : List B
  lost : List B

def Accounts.out (a : Accounts W B) : List B := a.held ++ a.lost

namespace Lender

/-- One call; blocks are given back by a caller that holds them. -/
inductive Deal (L : Lender W B U) (a : Accounts W B) : Accounts W B → Prop where
  | lent {b : B} {w : W} (h : L.take a.world true (some b) w) : Deal L a ⟨w, b :: a.held, a.lost⟩
  | hidden {b : B} {w : W} (h : L.take a.world false (some b) w) :
      Deal L a ⟨w, a.held, b :: a.lost⟩
  | nothing {told : Bool} {w : W} (h : L.take a.world told none w) : Deal L a ⟨w, a.held, a.lost⟩
  | returned {pre post : List B} {b : B} {w : W} (hb : a.held = pre ++ b :: post)
      (h : L.giveBack a.world b true w) : Deal L a ⟨w, pre ++ post, a.lost⟩
  | refused {b : B} {w : W} (hb : b ∈ a.held) (h : L.giveBack a.world b false w) :
      Deal L a ⟨w, a.held, a.lost⟩

def Deals (L : Lender W B U) : Accounts W B → Accounts W B → Prop := Relation.ReflTransGen L.Deal

/-- The units in use are the first ones and those of the blocks that are out. -/
structure Balanced (L : Lender W B U) (base : Set U) (w : W) (out : List B) : Prop where
  used_eq : L.used w = base ∪ {u | ∃ b ∈ out, u ∈ L.extent b}
  apart : out.Pairwise (fun b c => Disjoint (L.extent b) (L.extent c))
  fresh : ∀ b ∈ out, Disjoint (L.extent b) base
  proper : ∀ b ∈ out, L.Proper b

variable {L : Lender W B U} {base : Set U} {w w' : W} {b : B} {told : Bool} {out out' : List B}

theorem Balanced.start (L : Lender W B U) (w : W) : L.Balanced (L.used w) w [] :=
  ⟨by simp, .nil, by simp, by simp⟩

theorem Balanced.perm (h : L.Balanced base w out) (hperm : out.Perm out') :
    L.Balanced base w out' := by
  refine ⟨?_, (hperm.pairwise_iff (fun hd => hd.symm)).mp h.apart,
    fun b hb => h.fresh b (hperm.mem_iff.mpr hb), fun b hb => h.proper b (hperm.mem_iff.mpr hb)⟩
  rw [h.used_eq]
  simp only [hperm.mem_iff]

theorem Balanced.unmoved (h : L.Balanced base w out) (hused : L.used w' = L.used w) :
    L.Balanced base w' out :=
  ⟨hused.trans h.used_eq, h.apart, h.fresh, h.proper⟩

theorem Balanced.subset_used (h : L.Balanced base w out) (hb : b ∈ out) :
    L.extent b ⊆ L.used w := by
  rw [h.used_eq]
  exact fun u hu => .inr ⟨b, hb, hu⟩

theorem Balanced.take (h : L.Balanced base w out) (htake : L.take w told (some b) w') :
    L.Balanced base w' (b :: out) := by
  have hdisj := L.take_disjoint htake
  refine ⟨?_, List.pairwise_cons.mpr ⟨fun c hc => ?_, h.apart⟩,
    List.forall_mem_cons.mpr ⟨?_, h.fresh⟩,
    List.forall_mem_cons.mpr ⟨L.take_proper htake, h.proper⟩⟩
  · rw [L.take_some htake, h.used_eq]
    ext u
    simp only [Set.mem_union, Set.mem_ofPred_eq, List.mem_cons, exists_eq_or_imp]
    exact or_right_comm.trans or_assoc
  · exact hdisj.mono_right (h.subset_used hc)
  · apply hdisj.mono_right
    rw [h.used_eq]
    exact Set.subset_union_left

/-- The block is apart from all that stays in use. -/
theorem Balanced.giveBack (h : L.Balanced base w (b :: out))
    (hback : L.giveBack w b true w') : L.Balanced base w' out := by
  obtain ⟨hapart, hrest⟩ := List.pairwise_cons.mp h.apart
  obtain ⟨hfresh, hfreshes⟩ := List.forall_mem_cons.mp h.fresh
  obtain ⟨hproper, hpropers⟩ := List.forall_mem_cons.mp h.proper
  refine ⟨?_, hrest, hfreshes, hpropers⟩
  have hout : ∀ u, (u ∈ base ∨ ∃ c ∈ out, u ∈ L.extent c) → u ∉ L.extent b := by
    rintro u (hu | ⟨c, hc, hu⟩) hub
    · exact Set.disjoint_left.mp hfresh hub hu
    · exact Set.disjoint_left.mp (hapart c hc) hub hu
  rw [L.giveBack_accepted hproper hback, h.used_eq]
  ext u
  simp only [Set.mem_sdiff, Set.mem_union, Set.mem_ofPred_eq, List.mem_cons, exists_eq_or_imp]
  constructor
  · rintro ⟨hu | hu | hu, hub⟩
    · exact .inl hu
    · exact absurd hu hub
    · exact .inr hu
  · intro hu
    exact ⟨hu.imp_right .inr, hout u hu⟩

variable {a a' : Accounts W B}

theorem Deal.balanced (h : L.Balanced base a.world a.out) (hdeal : L.Deal a a') :
    L.Balanced base a'.world a'.out := by
  cases hdeal with
  | lent htake => exact h.take htake
  | hidden htake => exact (h.take htake).perm List.perm_middle.symm
  | nothing htake => exact h.unmoved (L.take_none htake)
  | @returned pre post b w hb hback =>
    have hperm : a.out.Perm (b :: (pre ++ post ++ a.lost)) := by
      rw [Accounts.out, hb]
      exact (List.perm_middle.append_right a.lost)
    exact (h.perm hperm).giveBack hback
  | refused hb hback =>
    have hproper := h.proper _ (List.mem_append_left a.lost hb)
    exact h.unmoved (L.giveBack_refused hproper hback)

theorem Deals.balanced (hdeals : L.Deals ⟨w, [], []⟩ a) :
    L.Balanced (L.used w) a.world a.out := by
  induction hdeals with
  | refl => exact Balanced.start L w
  | tail _ hdeal ih => exact hdeal.balanced ih

/-- Nothing is lost where a block is never taken without a report. -/
theorem Deals.lost_eq_nil (htold : ∀ {w b w'}, ¬ L.take w false (some b) w')
    (hdeals : L.Deals ⟨w, [], []⟩ a) : a.lost = [] := by
  induction hdeals with
  | refl => rfl
  | tail _ hdeal ih =>
    cases hdeal with
    | hidden htake => exact absurd htake htold
    | lent _ | nothing _ | returned _ _ | refused _ _ => exact ih

end Lender

end CloningApps.Interaction
