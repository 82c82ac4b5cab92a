import Mathlib.Tactic.Common

/-! # Runs

A system takes one step for each action; what the environment may choose is in
the action. An invariant is proved for one step and holds after every run, and
under a condition on the steps it holds after every run that meets it. -/

namespace Z80Sbc.Concurrent
variable {σ α : Type} {step : σ → α → σ}

def run (step : σ → α → σ) (s : σ) (actions : List α) : σ := actions.foldl step s

/-- Every step of the run meets `good`, which sees the state before it. -/
def Along (step : σ → α → σ) (good : σ → α → Prop) : σ → List α → Prop
  | _, [] => True
  | s, a :: as => good s a ∧ Along step good (step s a) as

instance decidableAlong {good : σ → α → Prop} [∀ s a, Decidable (good s a)] :
    ∀ (s : σ) (as : List α), Decidable (Along step good s as)
  | _, [] => isTrue trivial
  | s, a :: as =>
    have : Decidable (Along step good (step s a) as) := decidableAlong (step s a) as
    inferInstanceAs (Decidable (good s a ∧ Along step good (step s a) as))

@[simp] theorem run_nil (s : σ) : run step s [] = s := rfl

@[simp] theorem run_cons (s : σ) (a : α) (as : List α) :
    run step s (a :: as) = run step (step s a) as := rfl

theorem run_append (s : σ) (as bs : List α) :
    run step s (as ++ bs) = run step (run step s as) bs := List.foldl_append

theorem run_invariant {I : σ → Prop} (hstep : ∀ s a, I s → I (step s a)) {s : σ}
    (h : I s) (as : List α) : I (run step s as) := by
  induction as generalizing s with
  | nil => exact h
  | cons a as ih => exact ih (hstep s a h)

theorem Along.invariant {good : σ → α → Prop} {I : σ → Prop}
    (hstep : ∀ s a, good s a → I s → I (step s a)) {s : σ} (h : I s) {as : List α}
    (hg : Along step good s as) : I (run step s as) := by
  induction as generalizing s with
  | nil => exact h
  | cons a as ih => exact ih (hstep s a hg.1 h) hg.2

theorem Along.take {good : σ → α → Prop} {s : σ} {as : List α} (h : Along step good s as)
    (n : Nat) : Along step good s (as.take n) := by
  induction as generalizing s n with
  | nil => rw [List.take_nil]; trivial
  | cons a as ih =>
    cases n with
    | zero => trivial
    | succ n => exact ⟨h.1, ih h.2 n⟩

/-! ## One system inside another -/

section
variable {τ β : Type} {step' : τ → β → τ} {f : σ → τ} {g : α → β}

theorem run_map (hstep : ∀ s a, f (step s a) = step' (f s) (g a)) (s : σ) (as : List α) :
    f (run step s as) = run step' (f s) (as.map g) := by
  induction as generalizing s with
  | nil => rfl
  | cons a as ih => rw [run_cons, ih, hstep, List.map_cons, run_cons]

theorem Along.map {good : σ → α → Prop} {good' : τ → β → Prop}
    (hstep : ∀ s a, f (step s a) = step' (f s) (g a))
    (hgood : ∀ s a, good s a → good' (f s) (g a)) {s : σ} {as : List α}
    (h : Along step good s as) : Along step' good' (f s) (as.map g) := by
  induction as generalizing s with
  | nil => trivial
  | cons a as ih =>
    refine ⟨hgood s a h.1, ?_⟩
    rw [← hstep]
    exact ih h.2

end

/-- One step that misses the condition settles the rest of the run, when what
it leads to is never left again. -/
theorem Along.broken {good : σ → α → Prop} {I B : σ → Prop} (hkeep : ∀ s a, I s → I (step s a))
    (hbreak : ∀ s a, I s → ¬good s a → B (step s a)) (hstay : ∀ s a, B s → B (step s a)) {s : σ}
    {as : List α} (hi : I s) (h : ¬Along step good s as) : B (run step s as) := by
  induction as generalizing s with
  | nil => exact absurd trivial h
  | cons a as ih =>
    by_cases hg : good s a
    · exact ih (hkeep s a hi) fun hrest => h ⟨hg, hrest⟩
    · exact run_invariant hstay (hbreak s a hi hg) as

end Z80Sbc.Concurrent
