import Mathlib.Data.List.Sort

/-!
This module contains priority queues. The items are kept in the order in which they come out, so
two items that are equal in the order come out one after the other.
-/

structure Heap {α : Type} (r : α → α → Prop) where
  items : List α
  sorted : items.Pairwise r

namespace Heap

open List

variable {α : Type} {r : α → α → Prop}

def empty : Heap r := ⟨[], .nil⟩

def length (h : Heap r) : Nat :=
  h.items.length

instance : Membership α (Heap r) where
  mem h a := a ∈ h.items

def pop (h : Heap r) : Option (α × Heap r) :=
  match h with
  | ⟨[], _⟩ => none
  | ⟨a :: items, sorted⟩ => some (a, ⟨items, sorted.of_cons⟩)

theorem pop_eq_none {h : Heap r} (hpop : h.pop = none) (a : α) : a ∉ h := by
  rcases h with ⟨_ | ⟨b, items⟩, sorted⟩
  . exact not_mem_nil
  . cases hpop

section

variable {h h' : Heap r} {a : α} (hpop : h.pop = some (a, h'))

include hpop

theorem mem_of_pop (b : α) : b ∈ h ↔ b = a ∨ b ∈ h' := by
  rcases h with ⟨_ | ⟨c, items⟩, sorted⟩
  . cases hpop
  . cases hpop
    exact mem_cons

theorem first_of_pop (b : α) (hb : b ∈ h') : r a b := by
  rcases h with ⟨_ | ⟨c, items⟩, sorted⟩
  . cases hpop
  . cases hpop
    exact rel_of_pairwise_cons sorted hb

theorem length_of_pop : h.length = h'.length + 1 := by
  rcases h with ⟨_ | ⟨c, items⟩, sorted⟩
  . cases hpop
  . cases hpop
    rfl

end

section

variable [DecidableRel r] [Std.Total r] [IsTrans α r]

def push (h : Heap r) (a : α) : Heap r :=
  ⟨h.items.orderedInsert r a, h.sorted.orderedInsert a h.items⟩

theorem mem_push {h : Heap r} : b ∈ h.push a ↔ b = a ∨ b ∈ h :=
  mem_orderedInsert r

theorem length_push (h : Heap r) (a : α) : (h.push a).length = h.length + 1 :=
  orderedInsert_length r h.items a

theorem push_of_pop {h h' : Heap r} (hpop : h.pop = some (a, h')) : h'.push a = h := by
  rcases h with ⟨_ | ⟨b, items⟩, sorted⟩
  . cases hpop
  cases hpop
  unfold push
  congr
  cases items with
  | nil => rfl
  | cons c items =>
    have hfirst : r a c := rel_of_pairwise_cons sorted mem_cons_self
    rw [orderedInsert_cons, if_pos hfirst]

end

end Heap
