import Mathlib.Init

/-!
This module contains operations that are polled, and the rules of pre- and postconditions for
functions that poll. Such a function keeps what it has done to its state when it ends early, so it
is a computation in `EStateM`, and a postcondition speaks about both ways in which it can end.
-/

inductive Poll (α : Type) where
  | pending
  | ready (a : α)
deriving DecidableEq

namespace Poll

open List

def taken {α ε : Type} (answer : Poll (Except ε Nat)) (offer : List α) : List α :=
  match answer with
  | .ready (.ok n) => offer.take n
  | _ => []

theorem taken_append_drop {α ε : Type} (answer : Poll (Except ε Nat)) (offer : List α)
    : answer.taken offer ++ offer.drop (answer.taken offer).length = offer := by
  unfold taken
  split
  . next n =>
    rw [length_take]
    cases Nat.le_total n offer.length with
    | inl h => rw [Nat.min_eq_left h, take_append_drop]
    | inr h => rw [Nat.min_eq_right h, drop_length, take_of_length_le h, append_nil]
  . rfl

end Poll

namespace Effect

variable {ε σ α β : Type}

theorem bind_eq_ok (m : EStateM ε σ α) (f : α → EStateM ε σ β) (s s' : σ) (y : β)
    : (m >>= f) s = .ok y s' ↔ ∃ x t, m s = .ok x t ∧ f x t = .ok y s' := by
  change EStateM.bind m f s = .ok y s' ↔ _
  unfold EStateM.bind
  cases m s with
  | ok x t =>
    constructor
    . intro h
      exact ⟨x, t, rfl, h⟩
    . rintro ⟨_, _, hm, h⟩
      cases hm
      exact h
  | error e t =>
    constructor
    . intro h
      cases h
    . rintro ⟨_, _, hm, _⟩
      cases hm

theorem pure_eq_ok (x y : α) (s s' : σ)
    : (pure x : EStateM ε σ α) s = .ok y s' ↔ x = y ∧ s = s' := by
  change EStateM.Result.ok x s = .ok y s' ↔ _
  simp

theorem adaptExcept_eq_ok {ε' : Type} (f : ε → ε') (m : EStateM ε σ α) (s s' : σ) (x : α)
    : EStateM.adaptExcept f m s = .ok x s' ↔ m s = .ok x s' := by
  unfold EStateM.adaptExcept
  cases m s <;> simp

def Holds (Q : α → σ → Prop) (E : ε → σ → Prop) : EStateM.Result ε σ α → Prop
  | .ok a s => Q a s
  | .error e s => E e s

def Triple (P : σ → Prop) (m : EStateM ε σ α) (Q : α → σ → Prop) (E : ε → σ → Prop) : Prop :=
  ∀ s, P s → Holds Q E (m s)

def Keeps (I : σ → Prop) (m : EStateM ε σ α) : Prop :=
  Triple I m (fun _ => I) (fun _ => I)

namespace Triple

variable {P : σ → Prop} {Q : α → σ → Prop} {R : β → σ → Prop} {E : ε → σ → Prop}

theorem of_bind (hm : Triple P m Q E) (hf : ∀ a, Triple (Q a) (f a) R E)
    : Triple P (m >>= f) R E := by
  intro s hs
  have hstep := hm s hs
  change Holds R E (EStateM.bind m f s)
  unfold EStateM.bind
  cases hres : m s with
  | ok a s' =>
    rw [hres] at hstep
    exact hf a s' hstep
  | error e s' =>
    rw [hres] at hstep
    exact hstep

theorem of_get (f : σ → EStateM ε σ α) (h : ∀ s, P s → Holds Q E (f s s))
    : Triple P (get >>= f) Q E := by
  intro s hs
  exact h s hs

theorem of_modify (g : σ → σ) (Q : PUnit → σ → Prop) (h : ∀ s, P s → Q ⟨⟩ (g s))
    : Triple P (modify g) Q E := by
  intro s hs
  exact h s hs

end Triple

end Effect
