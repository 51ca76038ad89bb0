import CloningApps.Interaction.Safe

/-! # Systems of processes that start each other

Processes take steps one at a time, in any order, and each has a world of its
own. An answer that starts processes is given together with the answers of the
processes started, which go on from the same call. What such a system can reach
is made of what one process can reach that is answered either way.
-/

namespace CloningApps.Interaction
variable {I : Interface} {W α : Type}

/-- The answers a process may be given, and which of them start processes, with the answers that
these are given. -/
structure Spawning (I : Interface) (W : Type) where
  env : Env I W
  spawns : (c : I.Call) → I.Answer c → List (I.Answer c) → Prop
  legal : ∀ w c a bs, spawns c a bs → env.legal w c a ∧ ∀ b ∈ bs, env.legal w c b

/-- An answer that neither starts processes nor is one of a process that was started. -/
def Spawning.Alone (S : Spawning I W) (c : I.Call) (a : I.Answer c) : Prop :=
  ∀ d bs, S.spawns c d bs → a ≠ d ∧ a ∉ bs

abbrev Processes (I : Interface) (α W : Type) := List (Prog I α × W)

/-- New processes come last. -/
inductive SystemStep (S : Spawning I W) : Processes I α W → Processes I α W → Prop where
  | answer {l r : Processes I α W} {c : I.Call} {k : I.Answer c → Prog I α} {w : W}
      (a : I.Answer c) (ha : S.env.legal w c a) (halone : S.Alone c a) :
      SystemStep S (l ++ (.call c k, w) :: r) (l ++ (k a, S.env.effect w c a) :: r)
  | spawn {l r : Processes I α W} {c : I.Call} {k : I.Answer c → Prog I α} {w : W}
      (a : I.Answer c) (bs : List (I.Answer c)) (hspawns : S.spawns c a bs) :
      SystemStep S (l ++ (.call c k, w) :: r)
        (l ++ (k a, S.env.effect w c a) :: (r ++ bs.map (fun b => (k b, S.env.effect w c b))))
  | loop {l r : Processes I α W} {σ β : Type} {body : σ → Prog I (σ ⊕ β)} {s : σ}
      {k : β → Prog I α} {w : W} :
      SystemStep S (l ++ (.loop body s k, w) :: r)
        (l ++ ((body s).bind (Prog.again body k), w) :: r)

def SystemReaches (S : Spawning I W) : Processes I α W → Processes I α W → Prop :=
  Relation.ReflTransGen (SystemStep S)

variable {S : Spawning I W} {p : Prog I α} {w : W} {ps qs : Processes I α W}

/-- Every process after a step was there before it or took the step. -/
theorem SystemStep.of_mem (h : SystemStep S ps qs) {y : Prog I α × W} (hy : y ∈ qs) :
    y ∈ ps ∨ ∃ x ∈ ps, Step S.env x y := by
  cases h with
  | @answer l r c k w a ha _ =>
    rcases List.mem_append.mp hy with hl | hr
    · exact .inl (List.mem_append_left _ hl)
    · rcases List.mem_cons.mp hr with rfl | hr
      · exact .inr ⟨(.call c k, w), by simp, .call a ha⟩
      · exact .inl (by simp [hr])
  | @spawn l r c k w a bs hspawns =>
    obtain ⟨ha, hbs⟩ := S.legal w c a bs hspawns
    rcases List.mem_append.mp hy with hl | hr
    · exact .inl (List.mem_append_left _ hl)
    · rcases List.mem_cons.mp hr with rfl | hr
      · exact .inr ⟨(.call c k, w), by simp, .call a ha⟩
      · rcases List.mem_append.mp hr with hr | hnew
        · exact .inl (by simp [hr])
        · obtain ⟨b, hb, rfl⟩ := List.mem_map.mp hnew
          exact .inr ⟨(.call c k, w), by simp, .call b (hbs b hb)⟩
  | @loop l r σ β body s k w =>
    rcases List.mem_append.mp hy with hl | hr
    · exact .inl (List.mem_append_left _ hl)
    · rcases List.mem_cons.mp hr with rfl | hr
      · exact .inr ⟨(.loop body s k, w), by simp, .loop⟩
      · exact .inl (by simp [hr])

/-- Every process of a system has run like a process on its own. -/
theorem SystemReaches.process (h : SystemReaches S [(p, w)] ps) :
    ∀ x ∈ ps, Reaches S.env (p, w) x := by
  induction h with
  | refl =>
    intro x hx
    rw [List.mem_singleton.mp hx]
    exact .refl
  | tail _ hstep ih =>
    intro y hy
    rcases hstep.of_mem hy with hold | ⟨x, hx, hs⟩
    · exact ih y hold
    · exact .tail (ih x hx) hs

/-! ## The first process -/

/-- What starts true of a world, stays true unless the process was started, and is false of the
processes started, tells the first process of a system from the others. -/
structure Spawning.Marks (S : Spawning I W) (guard : W → I.Call → Prop) (P : W → Prop) :
    Prop where
  stays : ∀ w c a, S.env.legal w c a → S.Alone c a → P w → P (S.env.effect w c a)
  starts : ∀ w c a bs, S.spawns c a bs → P w → P (S.env.effect w c a)
  lost : ∀ w c a, S.env.legal w c a → ¬ P w → ¬ P (S.env.effect w c a)
  started : ∀ w c a bs, guard w c → S.spawns c a bs → ∀ b ∈ bs, ¬ P (S.env.effect w c b)

/-- The first process is marked and no other is. -/
def OnlyFirst (P : W → Prop) : Processes I α W → Prop
  | [] => False
  | x :: xs => P x.2 ∧ ∀ y ∈ xs, ¬ P y.2

variable {P : W → Prop} {guard : W → I.Call → Prop} {post : α → W → Prop}

theorem OnlyFirst.replace {l r : Processes I α W} {x y : Prog I α × W}
    (h : OnlyFirst P (l ++ x :: r)) (hP : P x.2 → P y.2) (hnot : ¬ P x.2 → ¬ P y.2) :
    OnlyFirst P (l ++ y :: r) := by
  cases l with
  | nil => exact ⟨hP h.1, h.2⟩
  | cons z l =>
    refine ⟨h.1, fun v hv => ?_⟩
    rcases List.mem_append.mp hv with hl | hr
    · exact h.2 v (List.mem_append_left _ hl)
    · rcases List.mem_cons.mp hr with rfl | hr
      · exact hnot (h.2 x (by simp))
      · exact h.2 v (by simp [hr])

theorem OnlyFirst.append {xs ys : Processes I α W} (h : OnlyFirst P xs)
    (hys : ∀ y ∈ ys, ¬ P y.2) : OnlyFirst P (xs ++ ys) := by
  cases xs with
  | nil => exact absurd h id
  | cons x xs =>
    refine ⟨h.1, fun v hv => ?_⟩
    rcases List.mem_append.mp hv with hold | hnew
    · exact h.2 v hold
    · exact hys v hnew

theorem SystemReaches.onlyFirst (hS : S.Marks guard P) (hsafe : Safe S.env guard post p w)
    (hw : P w) (h : SystemReaches S [(p, w)] ps) : OnlyFirst P ps := by
  induction h with
  | refl => exact ⟨hw, fun y hy => absurd hy List.not_mem_nil⟩
  | @tail qs rs hreach hstep ih =>
    cases hstep with
    | answer a ha halone => exact ih.replace (hS.stays _ _ a ha halone) (hS.lost _ _ a ha)
    | @spawn l r c k v a bs hspawns =>
      have hguard : guard v c :=
        hsafe _ _ (SystemReaches.process hreach (.call c k, v) (by simp))
      have hkept := ih.replace (y := (k a, S.env.effect v c a)) (hS.starts v c a bs hspawns)
        (hS.lost v c a (S.legal v c a bs hspawns).1)
      rw [← List.cons_append, ← List.append_assoc]
      refine hkept.append (fun y hy => ?_)
      obtain ⟨b, hb, rfl⟩ := List.mem_map.mp hy
      exact hS.started v c a bs hguard hspawns b hb
    | loop => exact ih.replace id id

/-! ## What one process can do, a process of a system can -/

theorem SystemReaches.step {x y : Prog I α × W} (hE : S.env.Still)
    (h : SystemReaches S [(p, w)] ps) (hx : x ∈ ps) (hstep : Step S.env x y) :
    ∃ qs, SystemReaches S [(p, w)] qs ∧ y ∈ qs := by
  obtain ⟨l, r, rfl⟩ := List.append_of_mem hx
  cases hstep with
  | @call c k w a ha =>
    by_cases hstarts : ∃ bs, S.spawns c a bs
    · obtain ⟨bs, hspawns⟩ := hstarts
      exact ⟨_, .tail h (.spawn a bs hspawns), by simp⟩
    · by_cases hstarted : ∃ d bs, S.spawns c d bs ∧ a ∈ bs
      · obtain ⟨d, bs, hspawns, ha⟩ := hstarted
        refine ⟨_, .tail h (.spawn d bs hspawns), ?_⟩
        have hmem := List.mem_map_of_mem (f := fun b => (k b, S.env.effect w c b)) ha
        simp only [List.mem_append, List.mem_cons]
        exact .inr (.inr (.inr hmem))
      · have halone : S.Alone c a := by
          intro d bs hspawns
          refine ⟨?_, fun ha => hstarted ⟨d, bs, hspawns, ha⟩⟩
          rintro rfl
          exact hstarts ⟨bs, hspawns⟩
        exact ⟨_, .tail h (.answer a ha halone), by simp⟩
  | loop => exact ⟨_, .tail h .loop, by simp⟩
  | drift hd => exact absurd hd (hE _ _)

theorem Reaches.in_system {x : Prog I α × W} (hE : S.env.Still) (h : Reaches S.env (p, w) x) :
    ∃ ps, SystemReaches S [(p, w)] ps ∧ x ∈ ps := by
  induction h with
  | refl => exact ⟨[(p, w)], .refl, List.mem_singleton_self _⟩
  | tail _ hstep ih =>
    obtain ⟨ps, hreach, hx⟩ := ih
    exact hreach.step hE hx hstep

end CloningApps.Interaction
