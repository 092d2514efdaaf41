import Mathlib.Init

/-!
This module contains machines that are driven by events. A run is a sequence of events each of which
is allowed in the state it meets. The rules of this module turn a step lemma into a statement about
every state of every run, or into a run that ends where it should.
-/

namespace Machine

variable {σ ε : Type}

/--
The states that a run of `step` can reach when every event of it satisfies `allowed`.
-/
inductive Reach (step : σ → ε → σ) (allowed : σ → ε → Prop) (start : σ) : σ → Prop where
  | start : Reach step allowed start start
  | step (s : σ) (e : ε) (hs : Reach step allowed start s) (he : allowed s e)
      : Reach step allowed start (step s e)

variable {step : σ → ε → σ} {allowed : σ → ε → Prop}

theorem Reach.invariant (inv : σ → Prop) (start s : σ) (hstart : inv start)
    (hinv : ∀ t e, inv t → allowed t e → inv (step t e)) (h : Reach step allowed start s)
    : inv s := by
  induction h with
  | start => exact hstart
  | step t e _ he ih =>
    apply hinv
    . exact ih
    . exact he

def Allowed (step : σ → ε → σ) (allowed : σ → ε → Prop) (s : σ) : List ε → Prop
  | [] => True
  | e :: es => allowed s e ∧ Allowed step allowed (step s e) es

instance [∀ s e, Decidable (allowed s e)] (s : σ) (es : List ε)
    : Decidable (Allowed step allowed s es) :=
  match es with
  | [] => inferInstanceAs (Decidable True)
  | e :: es =>
    have : Decidable (Allowed step allowed (step s e) es) := instDecidableAllowed (step s e) es
    inferInstanceAs (Decidable (_ ∧ _))

theorem allowed_of_forall (s : σ) (h : ∀ e ∈ es, ∀ s, allowed s e)
    : Allowed step allowed s es := by
  induction es generalizing s with
  | nil => trivial
  | cons e es ih =>
    rw [List.forall_mem_cons] at h
    exact ⟨h.left s, ih (step s e) h.right⟩

theorem Allowed.and (q : ε → Prop) (s : σ) (es : List ε) (h : Allowed step allowed s es)
    (hq : ∀ e ∈ es, q e)
    : Allowed step (fun s e => allowed s e ∧ q e) s es := by
  induction es generalizing s with
  | nil => trivial
  | cons e es ih =>
    rw [List.forall_mem_cons] at hq
    exact ⟨⟨h.left, hq.left⟩, ih (step s e) h.right hq.right⟩

theorem Reach.foldl {start : σ} (s : σ) (es : List ε) (hs : Reach step allowed start s)
    (hes : Allowed step allowed s es)
    : Reach step allowed start (es.foldl step s) := by
  induction es generalizing s with
  | nil => exact hs
  | cons e es ih =>
    apply ih
    . apply Reach.step
      . exact hs
      . exact hes.left
    . exact hes.right

/--
A run to a goal exists if, as long as the goal is not reached, some event that is allowed keeps the
invariant and comes closer.
-/
theorem exists_run (inv goal : σ → Prop) (distance : σ → Nat) (hnext : ∀ s, inv s → ¬goal s →
      ∃ e, allowed s e ∧ inv (step s e) ∧ distance (step s e) < distance s)
    (s : σ) (hs : inv s)
    : ∃ es, Allowed step allowed s es ∧ goal (es.foldl step s) := by
  by_cases hgoal : goal s
  . exact ⟨[], trivial, hgoal⟩
  . rcases hnext s hs hgoal with ⟨e, he, hinv, hlt⟩
    rcases exists_run inv goal distance hnext (step s e) hinv with ⟨es, hes, hreached⟩
    exact ⟨e :: es, ⟨he, hes⟩, hreached⟩
termination_by distance s

end Machine
