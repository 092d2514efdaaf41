import Mathlib.Data.List.Sort

/-!
This module contains the search over a sorted list that first cuts the list at a probe and then
looks at the last `k` elements in front of the cut. For a list in ascending order the elements that
are looked at can be named without talking about positions: `x` is one of them if and only if fewer
than `k` elements lie strictly between `x` and the cut.
-/

namespace SortedScan

open List

variable {α : Type}

def partitionPoint (p : α → Bool) (l : List α) : Nat :=
  (l.takeWhile p).length

theorem take_partitionPoint (p : α → Bool) (l : List α)
    : l.take (partitionPoint p l) = l.takeWhile p := by
  induction l with
  | nil => rfl
  | cons x xs ih =>
    unfold partitionPoint at ih ⊢
    cases h : p x with
    | true => simp [h, ih]
    | false => simp [h]

def scanBack (le : α → Bool) (k : Nat) (p : α → Bool) (l : List α) : Bool :=
  let idx := partitionPoint le l
  ((l.take idx).drop (idx - k)).reverse.any p

variable [LinearOrder α]

theorem takeWhile_le_eq_filter (probe : α) {l : List α} (hl : l.Pairwise (· ≤ ·))
    : l.takeWhile (fun x => decide (x ≤ probe)) = l.filter (fun x => decide (x ≤ probe)) := by
  induction l with
  | nil => rfl
  | cons x xs ih =>
    rw [pairwise_cons] at hl
    by_cases hx : x ≤ probe
    . simp [hx, ih hl.right]
    have hnone : xs.filter (fun y => decide (y ≤ probe)) = [] := by
      rw [filter_eq_nil_iff]
      intro y hy
      have hxy := hl.left y hy
      simp only [decide_eq_true_eq]
      intro hle
      exact hx (le_trans hxy hle)
    simp [hx, hnone]

theorem countP_lt_of_mem_drop {l : List α} (hl : l.Pairwise (· ≤ ·))
    (hx : x ∈ l.drop (l.length - k))
    : l.countP (fun y => decide (x < y)) < k := by
  have hsplit := take_append_drop (l.length - k) l
  obtain ⟨front, back, hback⟩ := append_of_mem hx
  have hlen : (l.drop (l.length - k)).length ≤ k := by
    rw [length_drop]
    omega
  rw [hback] at hlen hsplit
  -- Everything up to and including `x` is at most `x`, so only `back` can be counted.
  have hfront : ∀ y ∈ l.take (l.length - k) ++ front, ¬ x < y := by
    intro y hy
    rw [← hsplit, ← append_assoc, pairwise_append] at hl
    have := hl.right.right y hy x (by simp)
    exact not_lt.mpr this
  have hcount : (l.take (l.length - k) ++ front).countP (fun y => decide (x < y)) = 0 := by
    rw [countP_eq_zero]
    intro y hy
    simpa using hfront y hy
  have hle := countP_le_length (p := fun y => decide (x < y)) (l := back)
  rw [← hsplit, ← append_assoc, countP_append, hcount]
  simp only [length_append, length_cons] at hlen
  simp only [countP_cons, lt_self_iff_false, decide_false, Bool.false_eq_true, ↓reduceIte]
  omega

theorem mem_drop_of_countP_lt {l : List α} (hl : l.Pairwise (· ≤ ·)) (hx : x ∈ l)
    (hcount : l.countP (fun y => decide (x < y)) < k)
    : x ∈ l.drop (l.length - k) := by
  have hsplit := take_append_drop (l.length - k) l
  rw [← hsplit, mem_append] at hx
  cases hx with
  | inr hx => exact hx
  | inl hx =>
    -- If `x` is not among the last `k`, one of these is not above `x`, and it has to be `x`.
    have hlen : k ≤ l.length := by
      by_contra hk
      have : l.length - k = 0 := by omega
      rw [this] at hx
      simp at hx
    have hex : ∃ y ∈ l.drop (l.length - k), ¬ x < y := by
      by_contra hall
      push Not at hall
      have hfull : (l.drop (l.length - k)).countP (fun y => decide (x < y)) = k := by
        rw [countP_eq_length.mpr]
        . rw [length_drop]
          omega
        . intro y hy
          simpa using hall y hy
      rw [← hsplit, countP_append, hfull] at hcount
      omega
    obtain ⟨y, hy, hxy⟩ := hex
    rw [← hsplit, pairwise_append] at hl
    have hle := hl.right.right x hx y hy
    have : x = y := le_antisymm hle (not_lt.mp hxy)
    rw [this]
    exact hy

theorem scanBack_iff (l : List α) (hl : l.Pairwise (· ≤ ·)) (probe : α) (k : Nat) (p : α → Bool)
    : scanBack (fun x => decide (x ≤ probe)) k p l = true
        ↔
      ∃ x ∈ l, p x = true ∧ x ≤ probe ∧ l.countP (fun y => decide (x < y ∧ y ≤ probe)) < k := by
  have hpre := takeWhile_le_eq_filter probe hl
  have hsorted : (l.filter (fun x => decide (x ≤ probe))).Pairwise (· ≤ ·) := hl.filter _
  have hcount : ∀ x, (l.filter (fun x => decide (x ≤ probe))).countP (fun y => decide (x < y))
      = l.countP (fun y => decide (x < y ∧ y ≤ probe)) := by
    intro x
    rw [countP_filter]
    simp
  unfold scanBack
  simp only [take_partitionPoint, any_reverse, any_eq_true]
  unfold partitionPoint
  rw [hpre]
  constructor
  . rintro ⟨x, hx, hp⟩
    have hmem := mem_of_mem_drop hx
    rw [mem_filter, decide_eq_true_eq] at hmem
    refine ⟨x, hmem.left, hp, hmem.right, ?_⟩
    rw [← hcount]
    exact countP_lt_of_mem_drop hsorted hx
  . rintro ⟨x, hx, hp, hle, hlt⟩
    refine ⟨x, ?_, hp⟩
    rw [← hcount] at hlt
    apply mem_drop_of_countP_lt hsorted
    . simp [hx, hle]
    . exact hlt

end SortedScan
