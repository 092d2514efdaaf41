import Blackwire.Lib.Bytes
import Blackwire.Lib.Source
import Blackwire.Common.Reading
import Blackwire.Lib.Fallible
import Blackwire.Lib.Poll

/-!
This module contains the streams that a peer writes to and reads from. What comes in is delivered in
segments. What goes out is kept, and each write and each flush has an answer, which is that it went
through where no other answer is left.
-/

namespace Blackwire

structure BoxedStream where
  incoming : Source UInt8 IoError
  outgoing : Bytes
  answers : List (Except IoError Unit)

abbrev Exchange := EStateM ProxyError BoxedStream

namespace BoxedStream

def writeAll (bytes : Bytes) : Exchange Unit := fun s =>
  match s.answers with
  | [] => .ok () { s with outgoing := s.outgoing ++ bytes }
  | .ok () :: answers => .ok () { s with outgoing := s.outgoing ++ bytes, answers := answers }
  | .error e :: answers => .error (.io e) { s with answers := answers }

def flush : Exchange Unit :=
  writeAll []

def readExact (n : Nat) : Exchange Bytes := fun s =>
  match Source.readExact .unexpectedEof n s.incoming with
  | .ok bytes incoming => .ok bytes { s with incoming := incoming }
  | .error e incoming => .error (.io e) { s with incoming := incoming }

end BoxedStream

namespace Exchange

def ofExcept {α : Type} (x : Except ProxyError α) : Exchange α := fun s =>
  match x with
  | .ok a => .ok a s
  | .error e => .error e s

def refuse (p : Prop) [Decidable p] (e : ProxyError) : Exchange Unit := fun s =>
  if p then .error e s else .ok () s

end Exchange

open Bytes List

namespace BoxedStream

def Writable (n : Nat) (s : BoxedStream) : Prop :=
  ∀ e, .error e ∉ s.answers.take n

def wrote (bytes : Bytes) (s : BoxedStream) : BoxedStream :=
  { s with outgoing := s.outgoing ++ bytes, answers := s.answers.tail }

theorem writable_succ {s : BoxedStream}
    : s.Writable (n + 1) ↔ s.Writable 1 ∧ ∀ bytes, (s.wrote bytes).Writable n := by
  unfold Writable wrote
  cases s.answers with
  | nil => simp
  | cons answer answers => simp [forall_and]

theorem writeAll_eq_ok (bytes : Bytes) (s s' : BoxedStream) (x : Unit)
    : writeAll bytes s = .ok x s' ↔ s.Writable 1 ∧ s.wrote bytes = s' := by
  unfold writeAll Writable wrote
  match s.answers with
  | [] => simp
  | .ok () :: answers => simp
  | .error e :: answers => simp

theorem readExact_eq_ok (n : Nat) (s s' : BoxedStream) (bytes : Bytes)
    : readExact n s = .ok bytes s'
        ↔ n ≤ s.incoming.items.length ∧ s.incoming.items.take n = bytes
          ∧ { s with incoming := s.incoming.skip n } = s' := by
  unfold readExact
  rw [Source.readExact_eq]
  by_cases h : n ≤ s.incoming.items.length
  . rw [if_pos h]
    simp [h]
  . rw [if_neg h]
    simp [h]

end BoxedStream

namespace Exchange

theorem ofExcept_eq_ok {α : Type} (x : Except ProxyError α) (s s' : BoxedStream) (y : α)
    : ofExcept x s = .ok y s' ↔ x = .ok y ∧ s = s' := by
  unfold ofExcept
  cases x <;> simp

theorem refuse_eq_ok (p : Prop) [Decidable p] (e : ProxyError) (s s' : BoxedStream) (x : Unit)
    : refuse p e s = .ok x s' ↔ ¬p ∧ s = s' := by
  unfold refuse
  split <;> simp [*]

theorem forM_eq_ok {α : Type} (write : α → Exchange Unit) {encode : α → Except ProxyError Bytes}
    (hwrite : ∀ x s s', write x s = .ok () s' →
      ∃ wire, encode x = .ok wire ∧ s'.outgoing = s.outgoing ++ wire) {xs : List α}
    (s : BoxedStream) (h : xs.forM write s = .ok () s')
    : ∃ wires, xs.mapM encode = .ok wires ∧ s'.outgoing = s.outgoing ++ wires.flatten := by
  induction xs generalizing s with
  | nil =>
    cases h
    exact ⟨[], rfl, (append_nil _).symm⟩
  | cons x xs ih =>
    simp only [forM_eq_forM, forM_cons, Effect.bind_eq_ok] at h ih
    rcases h with ⟨_, t, hx, hxs⟩
    rcases hwrite x s t hx with ⟨wire, hwire, ht⟩
    rcases ih t hxs with ⟨wires, hwires, hs'⟩
    refine ⟨wire :: wires, ?_, ?_⟩
    . rw [Fallible.mapM_cons_eq_ok]
      exact ⟨wire, wires, hwire, hwires, rfl⟩
    . rw [hs', ht, flatten_cons, append_assoc]

end Exchange

end Blackwire
