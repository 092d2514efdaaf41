import Mathlib.Init

/-!
This module contains loops as the iteration of a step function. A step either ends the loop with a
result or goes on with another state, and `run` gives up after a number of steps. The lemmas are the
rules for such loops: invariants, termination by a measure and loops that never end.
-/

namespace Loop

inductive Step (σ ρ : Type) where
  | done (result : ρ)
  | next (state : σ)
deriving DecidableEq

variable {σ ρ : Type}

def run (step : σ → Step σ ρ) (fuel : Nat) (state : σ) : Option ρ :=
  match fuel with
  | 0 => none
  | fuel + 1 =>
    match step state with
    | .done result => some result
    | .next state => run step fuel state

inductive Reaches (step : σ → Step σ ρ) (start : σ) : σ → Prop where
  | refl : Reaches step start start
  | tail (s s' : σ) (hs : Reaches step start s) (hstep : step s = .next s') : Reaches step start s'

variable {step : σ → Step σ ρ} (inv : σ → Prop) {measure : σ → Nat} (fuel : Nat) (start : σ)

theorem run_of_done (s : σ) (r : ρ) (h : step s = .done r)
    : run step (fuel + 1) s = some r := by
  unfold run
  rw [h]

theorem run_of_next (h : step s = .next s')
    : run step (fuel + 1) s = run step fuel s' := by
  rw [run]
  rw [h]

theorem Reaches.head {start s s' : σ} (hstep : step start = .next s) (h : Reaches step s s')
    : Reaches step start s' := by
  induction h with
  | refl =>
    apply Reaches.tail
    . apply Reaches.refl
    . assumption
  | tail t t' _ ht ih =>
    apply Reaches.tail
    . exact ih
    . exact ht

theorem Reaches.invariant (s : σ) (hstart : inv start)
    (hinv : ∀ t t', inv t → step t = .next t' → inv t') (h : Reaches step start s)
    : inv s := by
  induction h with
  | refl => exact hstart
  | tail t t' _ ht ih =>
    apply hinv t t'
    . exact ih
    . exact ht

theorem run_eq_some (r : ρ) (h : run step fuel start = some r)
    : ∃ s, Reaches step start s ∧ step s = .done r := by
  induction fuel generalizing start with
  | zero => simp [run] at h
  | succ fuel ih =>
    cases hstep : step start with
    | done r' =>
      rw [run_of_done fuel start r' hstep] at h
      simp only [Option.some.injEq] at h
      rw [h] at hstep
      exact ⟨start, Reaches.refl, hstep⟩
    | next s =>
      rw [run_of_next fuel hstep] at h
      rcases ih s h with ⟨t, hreach, ht⟩
      exact ⟨t, Reaches.head hstep hreach, ht⟩

variable (measure) in
theorem run_terminates
    (hmeasure : ∀ s s', Reaches step start s → step s = .next s' → measure s' < measure s)
    : ∃ fuel r, run step fuel start = some r := by
  generalize hn : measure start = n
  induction n using Nat.strongRecOn generalizing start with
  | ind n ih =>
    cases hstep : step start with
    | done r => exact ⟨1, r, run_of_done 0 start r hstep⟩
    | next s =>
      have hlt := hmeasure start s Reaches.refl hstep
      rw [hn] at hlt
      have hmeasure' : ∀ t t', Reaches step s t → step t = .next t' → measure t' < measure t := by
        intro t t' hreach
        apply hmeasure
        exact Reaches.head hstep hreach
      rcases ih (measure s) hlt s hmeasure' rfl with ⟨fuel, r, hrun⟩
      refine ⟨fuel + 1, r, ?_⟩
      rw [run_of_next fuel hstep]
      exact hrun

theorem run_of_measure
    (hmeasure : ∀ s s', step s = .next s' → measure s' < measure s) (fuel : Nat) (start : σ)
    (hfuel : measure start < fuel)
    : ∃ r, run step fuel start = some r := by
  induction fuel generalizing start with
  | zero => exact absurd hfuel (Nat.not_lt_zero _)
  | succ fuel ih =>
    cases hstep : step start with
    | done r => exact ⟨r, run_of_done fuel start r hstep⟩
    | next s =>
      rw [run_of_next fuel hstep]
      apply ih
      have hlt := hmeasure start s hstep
      omega

variable (measure) in
theorem run_of_invariant
    (hinv : ∀ s s', inv s → step s = .next s' → inv s' ∧ measure s' < measure s) (fuel : Nat)
    (start : σ) (hstart : inv start) (hfuel : measure start < fuel)
    : ∃ s r, inv s ∧ step s = .done r ∧ run step fuel start = some r := by
  induction fuel generalizing start with
  | zero => exact absurd hfuel (Nat.not_lt_zero _)
  | succ fuel ih =>
    cases hstep : step start with
    | done r => exact ⟨start, r, hstart, hstep, run_of_done fuel start r hstep⟩
    | next s =>
      rcases hinv start s hstart hstep with ⟨hs, hlt⟩
      rw [run_of_next fuel hstep]
      exact ih s hs (by omega)

theorem run_diverges (hinv : ∀ s, inv s → ∃ s', step s = .next s' ∧ inv s')
    (fuel : Nat) (start : σ) (hstart : inv start)
    : run step fuel start = none := by
  induction fuel generalizing start with
  | zero => rfl
  | succ fuel ih =>
    rcases hinv start hstart with ⟨s, hstep, hs⟩
    rw [run_of_next fuel hstep]
    apply ih
    exact hs

end Loop
