import Z80Sbc.Concurrent.Run

/-! # Leads-to

What has to happen along an infinite run: wherever one condition holds, another one holds then or
later. The rules are those of a progress argument: a measure that every step decreases, or that
waits for an action which a fair schedule takes again and again. -/

namespace Z80Sbc.Concurrent
variable {σ α : Type}

/-- The states of an infinite run. -/
def trace (step : σ → α → σ) (s : σ) (actions : Nat → α) (n : Nat) : σ :=
  run step s ((List.range n).map actions)

section
variable {step : σ → α → σ} {s : σ} {actions : Nat → α}

@[simp] theorem trace_zero : trace step s actions 0 = s := rfl

theorem trace_succ (n : Nat) :
    trace step s actions (n + 1) = step (trace step s actions n) (actions n) := by
  simp [trace, List.range_succ, run_append]

theorem trace_invariant {I : σ → Prop} (hstep : ∀ s a, I s → I (step s a)) (h : I s) (n : Nat) :
    I (trace step s actions n) :=
  run_invariant hstep h _

end

variable {states : Nat → σ} {P Q R : σ → Prop}

def LeadsTo (states : Nat → σ) (P Q : σ → Prop) : Prop :=
  ∀ n, P (states n) → ∃ m, n ≤ m ∧ Q (states m)

theorem LeadsTo.of_imp (h : ∀ n, P (states n) → Q (states n)) : LeadsTo states P Q :=
  fun n hp => ⟨n, Nat.le_refl n, h n hp⟩

theorem LeadsTo.trans (hpq : LeadsTo states P Q) (hqr : LeadsTo states Q R) :
    LeadsTo states P R := by
  intro n hp
  obtain ⟨m, hm, hq⟩ := hpq n hp
  obtain ⟨k, hk, hr⟩ := hqr m hq
  exact ⟨k, Nat.le_trans hm hk, hr⟩

theorem LeadsTo.or (hpr : LeadsTo states P R) (hqr : LeadsTo states Q R) :
    LeadsTo states (fun s => P s ∨ Q s) R := by
  intro n hpq
  cases hpq with
  | inl hp => exact hpr n hp
  | inr hq => exact hqr n hq

/-- Every step decreases a measure. -/
theorem LeadsTo.of_measure (measure : σ → Nat)
    (hstep : ∀ n, P (states n) → Q (states (n + 1)) ∨
      P (states (n + 1)) ∧ measure (states (n + 1)) < measure (states n)) :
    LeadsTo states P Q := by
  intro n hp
  induction hm : measure (states n) using Nat.strongRecOn generalizing n with
  | ind k ih =>
    cases hstep n hp with
    | inl hq => exact ⟨n + 1, n.le_succ, hq⟩
    | inr hnext =>
      obtain ⟨m, hle, hq⟩ := ih _ (hm ▸ hnext.2) (n + 1) hnext.1 rfl
      exact ⟨m, by omega, hq⟩

/-- A step that does not decrease the measure waits for an action, and goes on waiting for it; the
schedule takes that action at some time. -/
theorem LeadsTo.of_fair (actions : Nat → α) (need : σ → α) (measure : σ → Nat)
    (hfair : ∀ n, P (states n) → ∃ m, n ≤ m ∧ actions m = need (states n))
    (hstep : ∀ n, P (states n) → Q (states (n + 1)) ∨
      P (states (n + 1)) ∧ (measure (states (n + 1)) < measure (states n) ∨
        measure (states (n + 1)) = measure (states n) ∧
          need (states (n + 1)) = need (states n) ∧ actions n ≠ need (states n))) :
    LeadsTo states P Q := by
  intro n hp
  induction hm : measure (states n) using Nat.strongRecOn generalizing n with
  | ind k ih =>
    obtain ⟨m, hnm, hact⟩ := hfair n hp
    -- the wait for this action ends at the latest when it is taken
    obtain ⟨d, rfl⟩ := Nat.exists_eq_add_of_le hnm
    clear hnm
    induction d generalizing n with
    | zero =>
      cases hstep n hp with
      | inl hq => exact ⟨n + 1, n.le_succ, hq⟩
      | inr hnext =>
        cases hnext.2 with
        | inl hless =>
          obtain ⟨m, hle, hq⟩ := ih _ (hm ▸ hless) (n + 1) hnext.1 rfl
          exact ⟨m, by omega, hq⟩
        | inr hwait => exact absurd hact hwait.2.2
    | succ d ihd =>
      cases hstep n hp with
      | inl hq => exact ⟨n + 1, n.le_succ, hq⟩
      | inr hnext =>
        cases hnext.2 with
        | inl hless =>
          obtain ⟨m, hle, hq⟩ := ih _ (hm ▸ hless) (n + 1) hnext.1 rfl
          exact ⟨m, by omega, hq⟩
        | inr hwait =>
          have hact' : actions (n + 1 + d) = need (states (n + 1)) := by
            rw [hwait.2.1, ← hact]
            congr 1
            omega
          obtain ⟨m, hle, hq⟩ := ihd (n + 1) hnext.1 (hwait.1.trans hm) hact'
          exact ⟨m, by omega, hq⟩

end Z80Sbc.Concurrent
