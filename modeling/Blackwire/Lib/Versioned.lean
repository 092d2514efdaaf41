import Mathlib.Algebra.Group.Nat.Defs
import Mathlib.Data.Set.Function
import Blackwire.Lib.Machine
import Blackwire.Lib.Table

/-!
This module contains a cache of decisions in front of a value that is replaced while calls are
under way. An entry of the cache is tagged with a generation, which a replacement raises before it
stores the new value.
-/

namespace Versioned

open List

/--
What a call decides with the value and its argument, and how the cache stores this: under which key,
for how long, and in which of its shards.
-/
structure Design (ν κ χ δ : Type) where
  decide : ν → χ → δ
  key : χ → κ
  ttl : δ → Nat
  shard : κ → Nat
  shards : Nat

structure Entry (δ : Type) where
  decision : δ
  expiresAt : Nat
  generation : Nat

inductive Call (ν χ : Type) where
  | idle
  | started (c : χ) (generation since : Nat)
  | missed (c : χ) (generation since : Nat)
  | loaded (c : χ) (generation since : Nat) (value : ν)

-- A replacement that has raised the generation, and how many shards it has cleared.
structure Swap (ν : Type) where
  value : ν
  cleared : Nat

-- What has become of a call, and how many values there were when it returned.
structure Returned (χ δ : Type) where
  argument : χ
  since : Nat
  decision : δ
  upto : Nat

structure State (ν κ χ δ : Type) where
  value : ν
  generation : Nat
  cache : Table κ (Entry δ)
  calls : Nat → Call ν χ
  swaps : List (Swap ν)
  history : List ν
  returned : List (Returned χ δ)

inductive Event (ν χ : Type) where
  | start (i : Nat) (c : χ)
  | lookup (i : Nat) (now : Nat)
  | load (i : Nat)
  | insert (i : Nat) (now : Nat)
  | bump (v : ν)
  | clear (j : Nat)
  | store (j : Nat)

section

variable {ν κ χ δ : Type}

def Event.argument : Event ν χ → Option χ
  | start _ c => some c
  | _ => none

def State.new (v : ν) : State ν κ χ δ where
  value := v
  generation := 0
  cache := Table.empty
  calls := fun _ => .idle
  swaps := []
  history := [v]
  returned := []

section

variable (s : State ν κ χ δ)

def State.setCall (i : Nat) (call : Call ν χ) : State ν κ χ δ :=
  { s with calls := fun k => if k = i then call else s.calls k }

def State.finish (i : Nat) (c : χ) (since : Nat) (d : δ) : State ν κ χ δ :=
  { s.setCall i .idle with returned := s.returned ++ [⟨c, since, d, s.history.length⟩] }

def Call.argument : Call ν χ → Option χ
  | idle => none
  | started c _ _ => some c
  | missed c _ _ => some c
  | loaded c _ _ _ => some c

def State.CallGood : Call ν χ → Prop
  | .idle => True
  | .started _ generation since => since ≤ generation ∧ generation ≤ s.generation
  | .missed _ generation since => since ≤ generation ∧ generation ≤ s.generation
  | .loaded _ generation since v =>
    since ≤ generation ∧ ∃ n, generation ≤ n ∧ s.history[n]? = some v

end

namespace Design

variable (D : Design ν κ χ δ)

section

variable (s : State ν κ χ δ)

def lookup (i : Nat) (c : χ) (generation since now : Nat) : State ν κ χ δ :=
  match s.cache (D.key c) with
  | some e =>
    if e.generation = generation ∧ e.expiresAt > now then
      s.finish i c since e.decision
    else
      s.setCall i (.missed c generation since)
  | none => s.setCall i (.missed c generation since)

def clear (j : Nat) (w : Swap ν) : State ν κ χ δ :=
  { s with
    cache := fun k => if D.shard k = w.cleared then none else s.cache k
    swaps := s.swaps.set j { w with cleared := w.cleared + 1 } }

/--
No call loads the value while a replacement is between raising the generation and storing the new
value, and the generation does not start again at zero.
-/
def Settled : Event ν χ → Prop
  | .load _ => s.swaps = []
  | .bump _ => s.generation + 1 < 2 ^ 64
  | _ => True

end

instance (s : State ν κ χ δ) (e : Event ν χ) : Decidable (Settled s e) :=
  match e with
  | .load _ => decidable_of_iff (s.swaps.isEmpty = true) isEmpty_iff
  | .bump _ => inferInstanceAs (Decidable (_ < _))
  | .start _ _ => isTrue trivial
  | .lookup _ _ => isTrue trivial
  | .insert _ _ => isTrue trivial
  | .clear _ => isTrue trivial
  | .store _ => isTrue trivial

def Within (arguments : Set χ) (s : State ν κ χ δ) (e : Event ν χ) : Prop :=
  Settled s e ∧ ∀ c ∈ e.argument, c ∈ arguments

-- The decision is that of a value that was in force at some time after the first number of values.
def Fresh (history : List ν) (since upto : Nat) (c : χ) (d : δ) : Prop :=
  ∃ n v, since ≤ n ∧ n < upto ∧ history[n]? = some v ∧ d = D.decide v c

structure Current (s : State ν κ χ δ) : Prop where
  returned : ∀ r ∈ s.returned, D.Fresh s.history r.since r.upto r.argument r.decision
  served : ∀ i c generation since e, s.calls i = .started c generation since →
    s.cache (D.key c) = some e → e.generation = generation →
    D.Fresh s.history since s.history.length c e.decision

structure Inv (arguments : Set χ) (s : State ν κ χ δ) : Prop where
  generation : s.generation + 1 = s.history.length + s.swaps.length
  value : s.history[s.history.length - 1]? = some s.value
  entry : ∀ k e, s.cache k = some e → ∃ n v c, e.generation ≤ n ∧ s.history[n]? = some v
    ∧ c ∈ arguments ∧ D.key c = k ∧ e.decision = D.decide v c
  call : ∀ i, s.CallGood (s.calls i)
  argument : ∀ i c, (s.calls i).argument = some c → c ∈ arguments
  returned : ∀ r ∈ s.returned, D.Fresh s.history r.since r.upto r.argument r.decision

variable {D} {arguments : Set χ} {s : State ν κ χ δ}

section

variable (h : D.Inv arguments s)
include h

theorem Inv.setCall (i : Nat) (call : Call ν χ) (hcall : s.CallGood call)
    (hargument : ∀ c, call.argument = some c → c ∈ arguments)
    : D.Inv arguments (s.setCall i call) := by
  refine ⟨h.generation, h.value, h.entry, fun k => ?_, fun k => ?_, h.returned⟩
  . unfold State.setCall
    dsimp only
    split
    next => exact hcall
    next => exact h.call k
  . unfold State.setCall
    dsimp only
    split
    next => exact hargument
    next => exact h.argument k

theorem Inv.advance (i : Nat) (call : Call ν χ) (hcall : s.CallGood call)
    (hsame : call.argument = (s.calls i).argument)
    : D.Inv arguments (s.setCall i call) := by
  apply h.setCall i call hcall
  intro c hc
  apply h.argument i c
  rw [← hsame, hc]

theorem Inv.finish (i : Nat) (c : χ) (since : Nat) (d : δ)
    (hfresh : D.Fresh s.history since s.history.length c d)
    : D.Inv arguments (s.finish i c since d) := by
  have hidle := h.setCall i .idle trivial nofun
  refine ⟨hidle.generation, hidle.value, hidle.entry, hidle.call, hidle.argument, fun r hr => ?_⟩
  rcases mem_append.mp hr with hr | hr
  . exact h.returned r hr
  . rw [mem_singleton] at hr
    rw [hr]
    exact hfresh

theorem Inv.served (hkey : Set.InjOn D.key arguments) (i : Nat) (c : χ)
    (generation since : Nat) (e : Entry δ) (hcall : s.calls i = .started c generation since)
    (he : s.cache (D.key c) = some e) (hgeneration : e.generation = generation)
    : D.Fresh s.history since s.history.length c e.decision := by
  have hgood := h.call i
  rw [hcall] at hgood
  have hmem := h.argument i c (by rw [hcall]; rfl)
  rcases h.entry _ e he with ⟨n, v, c', hn, hv, hmem', hc, hdecision⟩
  rw [hkey hmem' hmem hc] at hdecision
  rcases List.getElem?_eq_some_iff.mp hv with ⟨hlt, _⟩
  refine ⟨n, v, ?_, hlt, hv, hdecision⟩
  have hsince := hgood.left
  omega

theorem Inv.start (hc : c ∈ arguments)
    : D.Inv arguments (s.setCall i (.started c s.generation (s.history.length - 1))) := by
  have hgeneration := h.generation
  apply h.setCall
  . exact ⟨by omega, Nat.le_refl _⟩
  . rintro c' ⟨⟩
    exact hc

theorem Inv.lookup (hkey : Set.InjOn D.key arguments)
    {generation since : Nat} (now : Nat) (hcall : s.calls i = .started c generation since)
    : D.Inv arguments (D.lookup s i c generation since now) := by
  have hgood := h.call i
  rw [hcall] at hgood
  have hmissed := h.advance i (.missed c generation since) hgood (by rw [hcall]; rfl)
  unfold Design.lookup
  split
  next e he =>
    split
    next hhit => exact h.finish i c since e.decision (h.served hkey i c _ _ e hcall he hhit.left)
    next => exact hmissed
  next => exact hmissed

theorem Inv.load (i : Nat) (c : χ) {generation since : Nat}
    (hcall : s.calls i = .missed c generation since) (hswaps : s.swaps = [])
    : D.Inv arguments (s.setCall i (.loaded c generation since s.value)) := by
  have hgood := h.call i
  rw [hcall] at hgood
  have hgeneration := h.generation
  rw [hswaps, length_nil] at hgeneration
  have hle := hgood.right
  apply h.advance
  . exact ⟨hgood.left, s.history.length - 1, by omega, h.value⟩
  . rw [hcall]
    rfl

theorem Inv.clear
    : D.Inv arguments (D.clear s j w) := by
  refine ⟨?_, h.value, fun k e he => ?_, h.call, h.argument, h.returned⟩
  . unfold Design.clear
    rw [length_set]
    exact h.generation
  . unfold Design.clear at he
    dsimp only at he
    split at he
    next => cases he
    next => exact h.entry k e he

end

theorem getElem?_concat {α : Type} {xs : List α} {x y : α} {n : Nat} (h : xs[n]? = some y)
    : (xs ++ [x])[n]? = some y := by
  rcases List.getElem?_eq_some_iff.mp h with ⟨hlt, _⟩
  rw [List.getElem?_append_left hlt, h]

theorem Inv.store (h : D.Inv arguments s) {j : Nat} {w : Swap ν} (hw : s.swaps[j]? = some w)
    : D.Inv arguments { s with
        value := w.value
        swaps := s.swaps.eraseIdx j
        history := s.history ++ [w.value] } := by
  have hgeneration := h.generation
  rcases List.getElem?_eq_some_iff.mp hw with ⟨hj, _⟩
  refine ⟨?_, ?_, fun k e he => ?_, fun i => ?_, h.argument, fun r hr => ?_⟩
  . dsimp only
    rw [length_append, length_singleton, length_eraseIdx_of_lt hj]
    omega
  . dsimp only
    rw [length_append, length_singleton, Nat.add_sub_cancel, getElem?_concat_length]
  . rcases h.entry k e he with ⟨n, v, c, hn, hv, hc⟩
    exact ⟨n, v, c, hn, getElem?_concat hv, hc⟩
  . have hgood := h.call i
    cases hcall : s.calls i with
    | idle => trivial
    | started c generation since =>
      rw [hcall] at hgood
      exact hgood
    | missed c generation since =>
      rw [hcall] at hgood
      exact hgood
    | loaded c generation since v =>
      rw [hcall] at hgood
      rcases hgood with ⟨hsince, n, hn, hv⟩
      exact ⟨hsince, n, hn, getElem?_concat hv⟩
  . rcases h.returned r hr with ⟨n, v, hsince, hupto, hv, hdecision⟩
    exact ⟨n, v, hsince, hupto, getElem?_concat hv, hdecision⟩

theorem inv_new
    : D.Inv arguments (State.new v) where
  generation := rfl
  value := rfl
  entry := nofun
  call := fun _ => trivial
  argument := nofun
  returned := nofun

section

variable [DecidableEq κ]

def insert (D : Design ν κ χ δ) (s : State ν κ χ δ) (i : Nat) (c : χ) (generation since : Nat)
    (v : ν) (now : Nat)
    : State ν κ χ δ :=
  let d := D.decide v c
  { s.finish i c since d with
    cache := s.cache.insert (D.key c) ⟨d, now + D.ttl d, generation⟩ }

def step (D : Design ν κ χ δ) (s : State ν κ χ δ) : Event ν χ → State ν κ χ δ
  | .start i c =>
    match s.calls i with
    | .idle => s.setCall i (.started c s.generation (s.history.length - 1))
    | _ => s
  | .lookup i now =>
    match s.calls i with
    | .started c generation since => D.lookup s i c generation since now
    | _ => s
  | .load i =>
    match s.calls i with
    | .missed c generation since => s.setCall i (.loaded c generation since s.value)
    | _ => s
  | .insert i now =>
    match s.calls i with
    | .loaded c generation since v => D.insert s i c generation since v now
    | _ => s
  | .bump v =>
    { s with generation := (s.generation + 1) % 2 ^ 64, swaps := s.swaps ++ [⟨v, 0⟩] }
  | .clear j =>
    match s.swaps[j]? with
    | some w => if w.cleared < D.shards then D.clear s j w else s
    | none => s
  | .store j =>
    match s.swaps[j]? with
    | some w =>
      if w.cleared < D.shards then s
      else
        { s with
          value := w.value
          swaps := s.swaps.eraseIdx j
          history := s.history ++ [w.value] }
    | none => s

theorem Inv.insert (h : D.Inv arguments s) (i : Nat) (c : χ) {generation since : Nat} (v : ν)
    (now : Nat)
    (hcall : s.calls i = .loaded c generation since v)
    : D.Inv arguments (D.insert s i c generation since v now) := by
  have hgood := h.call i
  rw [hcall] at hgood
  rcases hgood with ⟨hsince, n, hn, hv⟩
  rcases List.getElem?_eq_some_iff.mp hv with ⟨hlt, _⟩
  have hfinish := h.finish i c since (D.decide v c) ⟨n, v, by omega, hlt, hv, rfl⟩
  refine ⟨hfinish.generation, hfinish.value, fun k e he => ?_, hfinish.call, hfinish.argument,
    hfinish.returned⟩
  unfold Design.insert at he
  dsimp only at he
  by_cases hk : k = D.key c
  . rw [hk, Table.insert_self, Option.some.injEq] at he
    rw [← he]
    exact ⟨n, v, c, hn, hv, h.argument i c (by rw [hcall]; rfl), hk.symm, rfl⟩
  . rw [Table.insert_of_ne hk] at he
    exact h.entry k e he

theorem Inv.bump (h : D.Inv arguments s) (hlt : s.generation + 1 < 2 ^ 64)
    : D.Inv arguments (D.step s (.bump v)) := by
  have hgeneration := h.generation
  have hmod := Nat.mod_eq_of_lt hlt
  refine ⟨?_, h.value, h.entry, fun i => ?_, h.argument, h.returned⟩
  . dsimp only [Design.step]
    rw [length_append, length_singleton]
    omega
  . have hgood := h.call i
    dsimp only [Design.step]
    cases hcall : s.calls i with
    | idle => trivial
    | started c generation since =>
      rw [hcall] at hgood
      exact ⟨hgood.left, by dsimp only; rw [hmod]; exact Nat.le_succ_of_le hgood.right⟩
    | missed c generation since =>
      rw [hcall] at hgood
      exact ⟨hgood.left, by dsimp only; rw [hmod]; exact Nat.le_succ_of_le hgood.right⟩
    | loaded c generation since v =>
      rw [hcall] at hgood
      exact hgood

theorem Inv.step (h : D.Inv arguments s) (hkey : Set.InjOn D.key arguments) (e : Event ν χ)
    (he : Within arguments s e)
    : D.Inv arguments (D.step s e) := by
  cases e with
  | start i c =>
    simp only [Design.step]
    split
    next => exact h.start (he.right c rfl)
    next => exact h
  | lookup i now =>
    simp only [Design.step]
    split
    next c generation since hcall => exact h.lookup hkey now hcall
    next => exact h
  | load i =>
    simp only [Design.step]
    split
    next c generation since hcall => exact h.load i c hcall he.left
    next => exact h
  | insert i now =>
    simp only [Design.step]
    split
    next c generation since v hcall => exact h.insert i c v now hcall
    next => exact h
  | bump v => exact h.bump he.left
  | clear j =>
    simp only [Design.step]
    split
    next w _ =>
      split
      next => exact h.clear
      next => exact h
    next => exact h
  | store j =>
    simp only [Design.step]
    split
    next w hw =>
      split
      next => exact h
      next => exact h.store hw
    next => exact h

theorem current_of_reach (D : Design ν κ χ δ) (arguments : Set χ)
    (hkey : Set.InjOn D.key arguments) (v : ν) (s : State ν κ χ δ)
    (h : Machine.Reach D.step (Within arguments) (State.new v) s)
    : D.Current s := by
  have hinv : D.Inv arguments s := by
    apply Machine.Reach.invariant (D.Inv arguments) _ s inv_new _ h
    intro t e ht he
    exact ht.step hkey e he
  exact ⟨hinv.returned, hinv.served hkey⟩

end

end Design

end

end Versioned
