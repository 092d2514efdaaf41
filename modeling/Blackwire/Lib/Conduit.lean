import Mathlib.Init

/-!
This module contains conduits: what a sender sends is taken out of its queue, held for a while and
passed on to a receiver. A conduit is intact as long as nothing of what it holds is thrown away.
-/

structure Conduit (α : Type) where
  sent : List α
  closed : Bool
  unread : List α
  held : List α
  delivered : List α

namespace Conduit

variable {α : Type}

def empty : Conduit α := ⟨[], false, [], [], []⟩

section

variable (c : Conduit α)

def send (xs : List α) : Conduit α :=
  if c.closed then c else { c with sent := c.sent ++ xs, unread := c.unread ++ xs }

def close : Conduit α :=
  { c with closed := true }

def take (c : Conduit α) (n : Nat) : Conduit α :=
  { c with unread := c.unread.drop n, held := c.held ++ c.unread.take n }

def pass (n : Nat) : Conduit α :=
  { c with held := c.held.drop n, delivered := c.delivered ++ c.held.take n }

def discard : Conduit α :=
  { c with held := [] }

def AtEnd : Prop :=
  c.closed = true ∧ c.unread = []

end

instance [DecidableEq α] (c : Conduit α) : Decidable c.AtEnd :=
  inferInstanceAs (Decidable (_ ∧ _))

def Intact (c : Conduit α) : Prop :=
  c.delivered ++ c.held ++ c.unread = c.sent

theorem intact_empty : (empty : Conduit α).Intact := by
  rfl

variable {c : Conduit α}

theorem Intact.send (h : c.Intact) : (c.send xs).Intact := by
  unfold Conduit.send
  split
  . exact h
  . unfold Intact at *
    rw [← h]
    simp

theorem Intact.close (h : c.Intact) : c.close.Intact := by
  exact h

theorem Intact.take (n : Nat) (h : c.Intact) : (c.take n).Intact := by
  unfold Intact Conduit.take at *
  rw [← h]
  simp

theorem Intact.pass (n : Nat) (h : c.Intact) : (c.pass n).Intact := by
  unfold Intact Conduit.pass at *
  rw [← h]
  simp

theorem Intact.discard (h : c.Intact) (hheld : c.held = []) : c.discard.Intact := by
  unfold Intact Conduit.discard at *
  rw [← h]
  simp [hheld]

theorem Intact.isPrefix (h : c.Intact) : c.delivered <+: c.sent := by
  rw [← h, List.append_assoc]
  apply List.prefix_append

theorem Intact.delivered_eq (h : c.Intact) (hheld : c.held = []) (hunread : c.unread = [])
    : c.delivered = c.sent := by
  rw [← h]
  simp [hheld, hunread]

theorem AtEnd.send (h : c.AtEnd) : (c.send xs).AtEnd := by
  unfold Conduit.send
  rw [if_pos h.left]
  exact h

theorem AtEnd.close (h : c.AtEnd) : c.close.AtEnd := by
  exact ⟨rfl, h.right⟩

@[simp]
theorem held_send (xs : List α) : (c.send xs).held = c.held := by
  unfold Conduit.send
  split <;> rfl

@[simp]
theorem delivered_send (xs : List α) : (c.send xs).delivered = c.delivered := by
  unfold Conduit.send
  split <;> rfl

theorem take_zero : c.take 0 = c := by
  simp [Conduit.take]

theorem length_held_take (hheld : c.held = []) (h : n ≤ c.unread.length)
    : (c.take n).held.length = n := by
  simp [Conduit.take, hheld, h]

theorem length_held_pass
    : (c.pass n).held.length = c.held.length - n := by
  simp [Conduit.pass]

theorem length_delivered_pass (h : n ≤ c.held.length)
    : (c.pass n).delivered.length = c.delivered.length + n := by
  simp [Conduit.pass, h]

end Conduit
