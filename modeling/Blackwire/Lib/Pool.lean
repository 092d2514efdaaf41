import Mathlib.Data.List.Basic

/-!
This module contains pools of processes that take turns. The process that takes a step is replaced
at its place, and a new one comes to the end.
-/

namespace Pool

open List

variable {π : Type} {p : π → Prop} {procs : List π} (i : Nat) (proc : π)

variable (procs) in
theorem forall_mem_set (h : ∀ x ∈ procs, p x) (hp : p proc)
    : ∀ x ∈ procs.set i proc, p x := by
  intro x hx
  rcases mem_or_eq_of_mem_set hx with hmem | heq
  . exact h x hmem
  . rw [heq]
    exact hp

theorem mem_set_of_ne (old new proc : π) (h : procs[i]? = some old)
    (hmem : proc ∈ procs) (hne : proc ≠ old)
    : proc ∈ procs.set i new := by
  rcases mem_iff_getElem?.mp hmem with ⟨j, hj⟩
  have hij : i ≠ j := by
    intro heq
    rw [heq, hj] at h
    exact hne (Option.some.inj h)
  apply mem_of_getElem?
  rw [getElem?_set_ne hij]
  exact hj

theorem forall_mem_concat (h : ∀ x ∈ procs, p x) (hp : p proc)
    : ∀ x ∈ procs ++ [proc], p x := by
  rw [forall_mem_append, forall_mem_singleton]
  exact ⟨h, hp⟩

variable (procs) in
theorem countP_set_add (old new : π) (h : procs[i]? = some old)
    : (procs.set i new).countP q + (q old).toNat = procs.countP q + (q new).toNat := by
  rcases List.getElem?_eq_some_iff.mp h with ⟨hi, hold⟩
  have hpos : q old = true → 0 < procs.countP q := by
    intro hq
    exact countP_pos_iff.mpr ⟨old, mem_of_getElem? h, hq⟩
  rw [countP_set hi, hold]
  cases ho : q old <;> cases hn : q new <;> simp_all

theorem countP_concat
    : (procs ++ [proc]).countP q = procs.countP q + (q proc).toNat := by
  rw [countP_append, countP_singleton]
  cases q proc <;> rfl

theorem eq_of_countP_le_one (y : π) (h : procs.countP q ≤ 1) (hx : x ∈ procs) (hy : y ∈ procs)
    (hqx : q x = true) (hqy : q y = true)
    : x = y := by
  rw [countP_eq_length_filter] at h
  have hfx : x ∈ procs.filter q := mem_filter.mpr ⟨hx, hqx⟩
  have hfy : y ∈ procs.filter q := mem_filter.mpr ⟨hy, hqy⟩
  match hf : procs.filter q with
  | [] => simp [hf] at hfx
  | [z] => simp_all
  | _ :: _ :: _ => simp [hf] at h

end Pool
