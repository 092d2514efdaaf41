import Blackwire.Lib.Bytes
import Blackwire.Lib.Source

/-!
This module contains the error type that the protocols and the transports share, and the readers of
a byte stream with what they read off its front.
-/

namespace Blackwire

inductive IoError where
  | unexpectedEof
  | broken
deriving DecidableEq

def IoError.text : IoError → String
  | unexpectedEof => "unexpected end of file"
  | broken => "broken pipe"

inductive ProxyError where
  | authFailed
  | protocol (msg : String)
  | tls (msg : String)
  | transport (msg : String)
  | timeout
  | dnsResolutionFailed (name : String)
  | io (e : IoError)
deriving DecidableEq

def ProxyError.text : ProxyError → String
  | authFailed => "authentication failed"
  | protocol msg => "protocol error: " ++ msg
  | tls msg => "TLS error: " ++ msg
  | transport msg => "transport error: " ++ msg
  | timeout => "timeout"
  | dnsResolutionFailed name => "DNS resolution failed for '" ++ name ++ "'"
  | io e => e.text

inductive Failure where
  | error (e : ProxyError)
  | panic
deriving DecidableEq

abbrev Res (α : Type) := Except Failure α

def fail {α : Type} (e : ProxyError) : Res α :=
  .error (.error e)

-- A number as `format!` writes it for `:#x`.
def hex (n : Nat) : String :=
  "0x" ++ String.ofList (Nat.toDigits 16 n)

def hexPadded (width n : Nat) : String :=
  let digits := Nat.toDigits 16 n
  "0x" ++ String.ofList (List.replicate (width - digits.length) '0' ++ digits)

abbrev Reading := EStateM ProxyError (Source UInt8 IoError)

namespace Reading

def readExact (n : Nat) : Reading Bytes :=
  EStateM.adaptExcept .io (Source.readExact .unexpectedEof n)

def readU8 : Reading UInt8 := do
  let bytes ← readExact 1
  return bytes.headD 0

def readU16 : Reading Nat := do
  let bytes ← readExact 2
  return Bytes.ofBigEndian bytes

def ofExcept {α : Type} (x : Except ProxyError α) : Reading α := fun s =>
  match x with
  | .ok a => .ok a s
  | .error e => .error e s

end Reading

end Blackwire

namespace Blackwire.Reading

open Bytes Source

theorem reads_exact {n : Nat} {front : Bytes} (h : front.length = n)
    : Reads (readExact n) front front := by
  rw [← h]
  apply Reads.of_adaptExcept
  apply Source.reads_readExact

theorem reads_u8 (byte : UInt8) : Reads readU8 [byte] byte := by
  apply Reads.of_bind_last
  . apply reads_exact
    rfl
  . apply Reads.of_pure

theorem reads_u16 (h : n < 65536) : Reads readU16 (toBigEndian 2 n) n := by
  apply Reads.of_bind_last
  . apply reads_exact
    apply length_toBigEndian
  . rw [ofBigEndian_toBigEndian, Nat.mod_eq_of_lt (b := 256 ^ 2) h]
    apply Reads.of_pure

theorem reads_ofExcept_bind {α β : Type} {x : Except ProxyError α} {f : α → Reading β} {a : α}
    {front : Bytes} {y : β} (hx : x = .ok a) (hf : Reads (f a) front y)
    : Reads (Reading.ofExcept x >>= f) front y := by
  subst hx
  intro s rest hs
  exact hf s rest hs

theorem exact_eq_ok (n : Nat) (s s' : Source UInt8 IoError) (bytes : Bytes)
    : readExact n s = .ok bytes s'
        ↔ n ≤ s.items.length ∧ s.items.take n = bytes ∧ s.skip n = s' := by
  unfold readExact EStateM.adaptExcept
  rw [Source.readExact_eq]
  by_cases h : n ≤ s.items.length
  . simp [h]
  . simp [h]

def Agrees {α : Type} (s : Source UInt8 IoError) (x : Except ProxyError (α × Nat))
    (r : EStateM.Result ProxyError (Source UInt8 IoError) α) : Prop :=
  match x with
  | .ok (a, n) => n ≤ s.items.length ∧ r = .ok a (s.skip n)
  | .error _ => ∃ e s', r = .error e s'

section

variable {α : Type} (s : Source UInt8 IoError)

theorem ofExcept_ok_bind {β : Type} (x : β) (f : β → Reading α)
    : (Reading.ofExcept (.ok x) >>= f) s = f x s := by
  rfl

theorem exact_bind (n : Nat) (f : Bytes → Reading α)
    : (readExact n >>= f) s
        = if n ≤ s.items.length then f (s.items.take n) (s.skip n)
          else .error (.io (s.ending.error.getD .unexpectedEof)) (s.skip n) := by
  change EStateM.bind (readExact n) f s = _
  unfold EStateM.bind readExact EStateM.adaptExcept
  rw [Source.readExact_eq]
  by_cases h : n ≤ s.items.length
  . simp only [if_pos h]
  . simp only [if_neg h]

variable {s : Source UInt8 IoError} {rest : Bytes}

theorem exact_bind_append {n : Nat} {front : Bytes} (hs : s.items = front ++ rest)
    (hfront : front.length = n) (f : Bytes → Reading α)
    : (readExact n >>= f) s = f front (s.skip n) := by
  rw [exact_bind, hs, List.take_left' hfront, if_pos (by simp [hfront])]

theorem u8_bind_nil (h : s.items = []) (f : UInt8 → Reading α)
    : (readU8 >>= f) s = .error (.io (s.ending.error.getD .unexpectedEof)) (s.skip 1) := by
  unfold readU8
  rw [bind_assoc, exact_bind, h]
  rfl

theorem u8_bind_cons (h : s.items = byte :: rest) (f : UInt8 → Reading α)
    : (readU8 >>= f) s = f byte (s.skip 1) := by
  unfold readU8
  rw [bind_assoc, exact_bind, h]
  rfl

theorem u16_bind (f : Nat → Reading α)
    : (readU16 >>= f) s
        = if 2 ≤ s.items.length then f (ofBigEndian (s.items.take 2)) (s.skip 2)
          else .error (.io (s.ending.error.getD .unexpectedEof)) (s.skip 2) := by
  unfold readU16
  rw [bind_assoc, exact_bind]
  simp only [pure_bind]

end

theorem except_eq_ok {α : Type} (x : Except ProxyError α) (s s' : Source UInt8 IoError) (y : α)
    : Reading.ofExcept x s = .ok y s' ↔ x = .ok y ∧ s = s' := by
  unfold Reading.ofExcept
  cases x <;> simp

end Blackwire.Reading
