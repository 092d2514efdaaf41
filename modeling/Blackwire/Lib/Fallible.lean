import Mathlib.Init

/-!
This module contains the inversion lemmas for computations in `Except`: what is known about the
parts of a computation once the whole of it has returned.
-/

namespace Fallible

open List

variable {ε α β : Type} (x : Except ε α) (f : α → Except ε β) (xs : List α) (ys : List β)

theorem bind_eq_ok (r : β)
    : x >>= f = .ok r ↔ ∃ a, x = .ok a ∧ f a = .ok r := by
  cases x <;> simp [bind, Except.bind]

theorem pure_eq_ok (a r : α) : (pure a : Except ε α) = .ok r ↔ a = r := by
  simp [pure, Except.pure]

theorem mapM_cons_eq_ok (x : α) (xs : List α) (ys : List β)
    : (x :: xs).mapM f = .ok ys ↔ ∃ y ys', f x = .ok y ∧ xs.mapM f = .ok ys' ∧ ys = y :: ys' := by
  simp only [mapM_cons, bind_eq_ok, pure_eq_ok]
  constructor
  . rintro ⟨y, hy, ys', hys, heq⟩
    exact ⟨y, ys', hy, hys, heq.symm⟩
  . rintro ⟨y, ys', hy, hys, heq⟩
    exact ⟨y, hy, ys', hys, heq.symm⟩

theorem mapM_eq_ok_filterMap (h : xs.mapM f = .ok ys)
    : ys = xs.filterMap fun x => (f x).toOption := by
  induction xs generalizing ys with
  | nil =>
    rw [mapM_nil, pure_eq_ok] at h
    exact h.symm
  | cons x xs ih =>
    rw [mapM_cons_eq_ok] at h
    rcases h with ⟨y, ys', hy, hys, heq⟩
    rw [heq]
    rw [ih ys' hys]
    simp [hy, Except.toOption]

theorem mapError_eq_ok {ε' : Type} (f : ε → ε') (x : Except ε α) (y : α)
    : x.mapError f = .ok y ↔ x = .ok y := by
  cases x with
  | error e => exact ⟨nofun, nofun⟩
  | ok a =>
    constructor
    . intro h
      cases h
      rfl
    . intro h
      cases h
      rfl

@[simp]
theorem isOk_ok (a : α) : (.ok a : Except ε α).isOk = true := by
  rfl

@[simp]
theorem isOk_error (e : ε) : (.error e : Except ε α).isOk = false := by
  rfl

theorem isOk_iff : x.isOk ↔ ∃ a, x = .ok a := by
  cases x <;> simp

theorem isOk_bind_pure (f : α → β) : (do return f (← x)).isOk ↔ x.isOk := by
  cases x with
  | error e => rfl
  | ok a => simp [bind, Except.bind, pure, Except.pure]

theorem isOk_mapM
    : (xs.mapM f).isOk ↔ ∀ x ∈ xs, (f x).isOk := by
  induction xs with
  | nil => simp [pure, Except.pure]
  | cons x xs ih =>
    rw [forall_mem_cons]
    rw [← ih]
    simp only [isOk_iff, mapM_cons_eq_ok]
    constructor
    . rintro ⟨_, y, ys, hy, hys, _⟩
      exact ⟨⟨y, hy⟩, ⟨ys, hys⟩⟩
    . rintro ⟨⟨y, hy⟩, ⟨ys, hys⟩⟩
      exact ⟨_, y, ys, hy, hys, rfl⟩

theorem length_of_mapM (h : xs.mapM f = .ok ys)
    : ys.length = xs.length := by
  induction xs generalizing ys with
  | nil =>
    rw [mapM_nil, pure_eq_ok] at h
    simp [← h]
  | cons x xs ih =>
    rw [mapM_cons_eq_ok] at h
    obtain ⟨y, ys', _, hys, heq⟩ := h
    rw [heq]
    rw [length_cons, length_cons, ih ys' hys]

end Fallible
