import Mathlib.Tactic.Ring

/-!
This module contains numbers that are encoded in groups of seven bits, the lowest group first. The
high bit of a byte says that another byte follows. The numbers have no bound here.
-/

namespace Varint

def value : List UInt8 → Nat
  | [] => 0
  | b :: bytes => b.toNat % 128 + 128 * value bytes

inductive IsEncoding : List UInt8 → Prop where
  | last (b : UInt8) (h : b.toNat < 128) : IsEncoding [b]
  | more (b : UInt8) (bytes : List UInt8) (h : 128 ≤ b.toNat) (hbytes : IsEncoding bytes)
      : IsEncoding (b :: bytes)

theorem IsEncoding.exists_last (h : IsEncoding bytes)
    : ∃ front last, bytes = front ++ [last] ∧ last.toNat < 128 := by
  induction h with
  | last b hb => exact ⟨[], b, rfl, hb⟩
  | more b bytes _ _ ih =>
    rcases ih with ⟨front, last, rfl, hlast⟩
    exact ⟨b :: front, last, rfl, hlast⟩

theorem value_lt (bytes : List UInt8) : value bytes < 2 ^ (7 * bytes.length) := by
  induction bytes with
  | nil => simp [value]
  | cons b bytes ih =>
    rw [value, List.length_cons, Nat.mul_add, Nat.pow_add]
    omega

theorem value_append (front back : List UInt8)
    : value (front ++ back) = value front + 2 ^ (7 * front.length) * value back := by
  induction front with
  | nil => simp [value]
  | cons b front ih =>
    rw [List.cons_append, value, value, ih, List.length_cons, Nat.mul_succ, Nat.pow_add]
    ring

theorem exists_encoding (bytes : List UInt8)
    : (∃ enc rest, bytes = enc ++ rest ∧ IsEncoding enc) ∨ ∀ b ∈ bytes, 128 ≤ b.toNat := by
  induction bytes with
  | nil => simp
  | cons b bytes ih =>
    by_cases hlast : b.toNat < 128
    . exact .inl ⟨[b], bytes, rfl, .last b hlast⟩
    have hmore : 128 ≤ b.toNat := by omega
    rcases ih with ⟨enc, rest, rfl, henc⟩ | hall
    . exact .inl ⟨b :: enc, rest, rfl, .more b enc hmore henc⟩
    . exact .inr (List.forall_mem_cons.mpr ⟨hmore, hall⟩)

def encode (n : Nat) : List UInt8 :=
  if n < 128 then
    [UInt8.ofNat n]
  else
    UInt8.ofNat (n % 128 + 128) :: encode (n / 128)

theorem encode_spec : IsEncoding (encode n) ∧ value (encode n) = n := by
  induction n using Nat.strongRecOn with
  | ind n ih =>
    unfold encode
    split
    next hlast =>
      have hbyte : (UInt8.ofNat n).toNat = n := by
        rw [UInt8.toNat_ofNat']
        omega
      constructor
      . apply IsEncoding.last
        omega
      . rw [value, value, hbyte]
        omega
    next hmore =>
      have hbyte : (UInt8.ofNat (n % 128 + 128)).toNat = n % 128 + 128 := by
        rw [UInt8.toNat_ofNat']
        omega
      rcases ih (n / 128) (by omega) with ⟨henc, hvalue⟩
      constructor
      . apply IsEncoding.more
        . omega
        . exact henc
      . rw [value, hvalue, hbyte]
        omega

theorem length_encode_le (n k : Nat) (h : n < 2 ^ (7 * (k + 1)))
    : (encode n).length ≤ k + 1 := by
  induction k generalizing n with
  | zero =>
    have hlast : n < 128 := h
    unfold encode
    rw [if_pos hlast]
    simp
  | succ k ih =>
    unfold encode
    split
    next => simp
    have hrest := ih (n / 128) (by
      rw [Nat.mul_add, Nat.pow_add] at h
      exact Nat.div_lt_of_lt_mul (by omega))
    rw [List.length_cons]
    omega

end Varint
