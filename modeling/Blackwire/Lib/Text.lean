import Mathlib.Data.List.Infix

/-!
This module contains splitting a list at a separator that may be longer than one element, and
trimming. Matches of the separator are taken from the left and do not overlap.
-/

namespace Text

open List

-- The characters with the property `White_Space`.
def isWhitespace (c : Char) : Bool :=
  (9 ≤ c.toNat ∧ c.toNat ≤ 13) ∨ (0x2000 ≤ c.toNat ∧ c.toNat ≤ 0x200A)
    ∨ c.toNat ∈ [0x20, 0x85, 0xA0, 0x1680, 0x2028, 0x2029, 0x202F, 0x205F, 0x3000]

def trim (s : String) : String :=
  String.ofList ((s.toList.dropWhile isWhitespace).reverse.dropWhile isWhitespace).reverse

variable {α : Type} [DecidableEq α]

def split (sep l : List α) : List (List α) :=
  go 0 [] l
where
  -- `skip` elements of the separator that was found last are still in front of `l`.
  go (skip : Nat) (acc l : List α) : List (List α) :=
    match skip, l with
    | _, [] => [acc.reverse]
    | skip + 1, _ :: l => go skip acc l
    | 0, x :: l =>
      if sep.isPrefixOf (x :: l) then
        acc.reverse :: go (sep.length - 1) [] l
      else
        go 0 (x :: acc) l

def Unbroken (sep piece : List α) : Prop :=
  ∀ tail ∈ piece.tails, tail ≠ [] → ¬ sep <+: tail ++ sep

instance (sep piece : List α) : Decidable (Unbroken sep piece) :=
  inferInstanceAs (Decidable (∀ tail ∈ piece.tails, _))

theorem split.go_ne_nil {acc l : List α} : go sep skip acc l ≠ [] := by
  induction l generalizing skip acc with
  | nil => simp [go]
  | cons x l ih =>
    cases skip with
    | succ skip =>
      apply ih
    | zero =>
      rw [go]
      split
      . simp
      . apply ih

theorem split.intercalate_go {sep : List α} (hsep : sep ≠ []) (skip : Nat) (acc l : List α)
    : sep.intercalate (go sep skip acc l) = acc.reverse ++ l.drop skip := by
  induction l generalizing skip acc with
  | nil => simp [go]
  | cons x l ih =>
    cases skip with
    | succ skip =>
      rw [go]
      rw [ih]
      rw [drop_succ_cons]
    | zero =>
      rw [go]
      split
      . next hfront =>
        rw [ isPrefixOf_iff_prefix] at hfront
        rcases hfront with ⟨rest, hrest⟩
        rw [intercalate_cons_of_ne_nil go_ne_nil]
        rw [ih]
        have hdrop : l.drop (sep.length - 1) = rest := by
          cases sep with
          | nil => exact absurd rfl hsep
          | cons y ys =>
            rw [cons_append, List.cons.injEq] at hrest
            simp [← hrest.right]
        rw [hdrop]
        simp [← hrest]
      . rw [ih]
        simp

theorem intercalate_split (sep l : List α) (hsep : sep ≠ [])
    : sep.intercalate (split sep l) = l := by
  unfold split
  rw [split.intercalate_go hsep]
  simp

theorem split.go_skip (sep skipped acc l : List α)
    : go sep skipped.length acc (skipped ++ l) = go sep 0 acc l := by
  induction skipped with
  | nil => rfl
  | cons x skipped ih =>
    exact ih

theorem split.go_piece (hsep : sep ≠ []) {piece acc rest : List α} (hpiece : Unbroken sep piece)
    : go sep 0 acc (piece ++ sep ++ rest) = (acc.reverse ++ piece) :: go sep 0 [] rest := by
  induction piece generalizing acc with
  | nil =>
    cases sep with
    | nil => exact absurd rfl hsep
    | cons y ys =>
      rw [nil_append, cons_append, go]
      rw [if_pos]
      . rw [append_nil]
        rw [length_cons, Nat.add_sub_cancel]
        rw [go_skip]
      . rw [ isPrefixOf_iff_prefix]
        exact ⟨rest, rfl⟩
  | cons x piece ih =>
    rw [cons_append, cons_append, go]
    rw [if_neg]
    . rw [ih]
      . simp
      . intro tail htail
        apply hpiece tail
        exact mem_cons_of_mem _ htail
    . rw [ isPrefixOf_iff_prefix]
      intro hfront
      apply hpiece (x :: piece) (by simp) (by simp)
      apply prefix_of_prefix_length_le hfront
      . exact ⟨rest, rfl⟩
      . rw [length_append]
        omega

theorem split_append {sep piece rest : List α} (hsep : sep ≠ []) (hpiece : Unbroken sep piece)
    : split sep (piece ++ sep ++ rest) = piece :: split sep rest := by
  unfold split
  rw [split.go_piece hsep hpiece]
  rfl

end Text
