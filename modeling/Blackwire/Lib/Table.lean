import Mathlib.Init

/-!
This module contains hash maps, seen as the function from a key to the value stored under it.
-/

abbrev Table (κ α : Type) := κ → Option α

namespace Table

variable {κ α : Type} [DecidableEq κ]

def empty : Table κ α := fun _ => none

def insert (t : Table κ α) (k : κ) (a : α) : Table κ α :=
  fun k' => if k' = k then some a else t k'

variable {t : Table κ α}

@[simp]
theorem insert_self : t.insert k a k = some a := by
  simp [insert]

theorem insert_of_ne (h : k' ≠ k) : t.insert k a k' = t k' := by
  simp [insert, h]

theorem insert_eq_some (h : t.insert k a k' = some b)
    : (k' = k ∧ b = a) ∨ t k' = some b := by
  unfold insert at h
  split at h
  . next hk => exact Or.inl ⟨hk, (Option.some.inj h).symm⟩
  . exact Or.inr h

def erase (t : Table κ α) (k : κ) : Table κ α :=
  fun k' => if k' = k then none else t k'

@[simp]
theorem erase_self : t.erase k k = none := by
  simp [erase]

theorem erase_eq_some
    : t.erase k k' = some a ↔ k' ≠ k ∧ t k' = some a := by
  simp [erase]

end Table
