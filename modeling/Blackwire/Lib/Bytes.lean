import Mathlib.Data.Vector.Defs
import Mathlib.Tactic.Ring

/-!
This module contains the operations on byte strings and on `usize` values that the models share.
-/

open List hiding Vector

namespace Usize

def add (a b : Nat) : Nat :=
  (a + b) % 2 ^ 64

def saturatingAdd (a b : Nat) : Nat :=
  min (a + b) (2 ^ 64 - 1)

def saturatingMul (a b : Nat) : Nat :=
  min (a * b) (2 ^ 64 - 1)

theorem add_eq (h : a + b < 2 ^ 64) : add a b = a + b := by
  apply Nat.mod_eq_of_lt
  exact h

theorem saturatingAdd_eq (a b : Nat) (h : a + b < 2 ^ 64) : saturatingAdd a b = a + b := by
  apply Nat.min_eq_left
  omega

end Usize

abbrev Bytes := List UInt8

namespace Bytes

def ofBigEndian (bytes : List UInt8) : Nat :=
  bytes.foldl (fun acc b => 256 * acc + b.toNat) 0

def toBigEndian (width n : Nat) : List UInt8 :=
  (range width).reverse.map fun i => UInt8.ofNat (n / 256 ^ i)

def toVector (n : Nat) (bytes : List UInt8) : Vector UInt8 n :=
  Vector.ofFn fun i => bytes.getD i 0

def ofString (s : String) : List UInt8 :=
  s.toUTF8.data.toList

-- `data[i]` where the index is known to be in range.
def byteAt (data : List UInt8) (i : Nat) : Nat :=
  (data.getD i 0).toNat

def u16At (data : List UInt8) (i : Nat) : Nat :=
  256 * byteAt data i + byteAt data (i + 1)

def fromUtf8 (bytes : List UInt8) : Option String :=
  String.fromUTF8? ⟨bytes.toArray⟩

-- How many bytes a character with this first byte has, or zero if no character starts with it.
def utf8CharWidth (first : UInt8) : Nat :=
  if first < 0x80 then 1
  else if 0xC2 ≤ first ∧ first ≤ 0xDF then 2
  else if 0xE0 ≤ first ∧ first ≤ 0xEF then 3
  else if 0xF0 ≤ first ∧ first ≤ 0xF4 then 4
  else 0

def isContinuation (b : UInt8) : Bool :=
  0x80 ≤ b ∧ b ≤ 0xBF

-- No longer form than needed, no surrogates, and nothing above the last code point.
def isSecond (first b : UInt8) : Bool :=
  isContinuation b ∧ ¬(first = 0xE0 ∧ b < 0xA0) ∧ ¬(first = 0xED ∧ 0x9F < b)
    ∧ ¬(first = 0xF0 ∧ b < 0x90) ∧ ¬(first = 0xF4 ∧ 0x8F < b)

-- How far the bytes behind a first byte go on with its character.
def continuations (first : UInt8) (rest : List UInt8) : Nat :=
  match rest.take (utf8CharWidth first - 1) with
  | [] => 0
  | b :: rest => if isSecond first b then 1 + (rest.takeWhile isContinuation).length else 0

def replaceInvalid (fuel : Nat) (bytes : List UInt8) : String :=
  match fuel, bytes with
  | fuel + 1, first :: rest =>
    let n := continuations first rest
    let piece :=
      if n + 1 = utf8CharWidth first then (fromUtf8 (first :: rest.take n)).getD ""
      else String.singleton (Char.ofNat 0xFFFD)
    piece ++ replaceInvalid fuel (rest.drop n)
  | _, _ => ""

def fromUtf8Lossy (bytes : List UInt8) : String :=
  match fromUtf8 bytes with
  | some s => s
  | none => replaceInvalid bytes.length bytes

/--
The bytes `data[start..stop]`, or `none` where the indexing panics.
-/
def slice (data : List UInt8) (start stop : Nat) : Option (List UInt8) :=
  if start ≤ stop ∧ stop ≤ data.length then
    some ((data.drop start).take (stop - start))
  else
    none

variable (bytes : List UInt8) (width n : Nat) (s : String)

theorem ofBigEndian_foldl (acc : Nat)
    : bytes.foldl (fun acc b => 256 * acc + b.toNat) acc
        = 256 ^ bytes.length * acc + ofBigEndian bytes := by
  induction bytes generalizing acc with
  | nil => simp [ofBigEndian]
  | cons b bytes ih =>
    simp only [ofBigEndian, foldl_cons, length_cons]
    rw [ih, ih, pow_succ]
    ring

theorem ofBigEndian_cons (b : UInt8) (bytes : List UInt8)
    : ofBigEndian (b :: bytes) = 256 ^ bytes.length * b.toNat + ofBigEndian bytes := by
  rw [ofBigEndian, foldl_cons, ofBigEndian_foldl]
  simp

theorem toBigEndian_succ
    : toBigEndian (width + 1) n = UInt8.ofNat (n / 256 ^ width) :: toBigEndian width n := by
  simp [toBigEndian, range_succ]

@[simp]
theorem length_toBigEndian : (toBigEndian width n).length = width := by
  simp [toBigEndian]

theorem ofBigEndian_toBigEndian
    : ofBigEndian (toBigEndian width n) = n % 256 ^ width := by
  induction width with
  | zero => simp [toBigEndian, ofBigEndian, Nat.mod_one]
  | succ width ih =>
    rw [toBigEndian_succ, ofBigEndian_cons, length_toBigEndian, ih, UInt8.toNat_ofNat']
    rw [show (2 : Nat) ^ 8 = 256 from rfl, Nat.add_comm]
    exact (Nat.mod_mul (a := 256 ^ width) (b := 256)).symm

theorem ofNat_ofBigEndian_toBigEndian (hw : w = 8 * width) (ip : BitVec w)
    : BitVec.ofNat w (ofBigEndian (toBigEndian width ip.toNat)) = ip := by
  have hpow : 256 ^ width = 2 ^ w := by
    rw [hw, Nat.pow_mul]
  rw [ofBigEndian_toBigEndian, hpow, Nat.mod_eq_of_lt ip.isLt, BitVec.ofNat_toNat,
    BitVec.setWidth_eq]

theorem ofBigEndian_lt : ofBigEndian bytes < 256 ^ bytes.length := by
  induction bytes with
  | nil => simp [ofBigEndian]
  | cons b bytes ih =>
    rw [ofBigEndian_cons, length_cons, pow_succ]
    have hb : b.toNat + 1 ≤ 256 := b.toNat_lt
    have hmul := Nat.mul_le_mul_left (256 ^ bytes.length) hb
    rw [Nat.mul_add, Nat.mul_one] at hmul
    omega

theorem ofBigEndian_injective (xs ys : List UInt8) (hlength : xs.length = ys.length)
    (h : ofBigEndian xs = ofBigEndian ys) : xs = ys := by
  induction xs generalizing ys with
  | nil => exact (length_eq_zero_iff.mp hlength.symm).symm
  | cons x xs ih =>
    cases ys with
    | nil => cases hlength
    | cons y ys =>
      rw [length_cons, length_cons, Nat.add_right_cancel_iff] at hlength
      have hx := ofBigEndian_lt xs
      have hy := ofBigEndian_lt ys
      rw [ofBigEndian_cons, ofBigEndian_cons, hlength] at h
      rw [hlength] at hx
      -- The first bytes are the quotients, the rest are the remainders.
      have hfirst : x.toNat = y.toNat := by
        have hdiv := congrArg (· / 256 ^ ys.length) h
        simpa [Nat.mul_add_div (Nat.pow_pos (n := ys.length) (a := 256) (by omega)),
          Nat.div_eq_of_lt hx, Nat.div_eq_of_lt hy] using hdiv
      rw [hfirst, Nat.add_left_cancel_iff] at h
      rw [UInt8.toNat_inj.mp hfirst, ih ys hlength h]

theorem toBigEndian_ofBigEndian
    : toBigEndian bytes.length (ofBigEndian bytes) = bytes := by
  apply ofBigEndian_injective
  . rw [length_toBigEndian]
  . rw [ofBigEndian_toBigEndian, Nat.mod_eq_of_lt (ofBigEndian_lt bytes)]

variable (data) in
theorem u16At_eq (i : Nat) (h : i + 2 ≤ data.length)
    : u16At data i = ofBigEndian ((data.drop i).take 2) := by
  have hfirst : i < data.length := by omega
  have hsecond : i + 1 < data.length := by omega
  rw [drop_eq_getElem_cons hfirst, drop_eq_getElem_cons hsecond]
  simp only [u16At, byteAt, ofBigEndian, getD_eq_getElem?_getD,
    getElem?_eq_getElem hfirst, getElem?_eq_getElem hsecond, Option.getD_some,
    take_succ_cons, take_zero, foldl_cons, foldl_nil, Nat.mul_zero,
    Nat.zero_add]

variable (data) in
theorem toBigEndian_u16At (i : Nat) (h : i + 2 ≤ data.length)
    : toBigEndian 2 (u16At data i) = (data.drop i).take 2 := by
  have hlength : ((data.drop i).take 2).length = 2 := by
    rw [length_take, length_drop]
    omega
  have hround := toBigEndian_ofBigEndian ((data.drop i).take 2)
  rw [hlength] at hround
  rw [u16At_eq data i h, hround]

theorem byteAt_append (front rest : List UInt8) (b : UInt8)
    : byteAt (front ++ b :: rest) front.length = b.toNat := by
  simp [byteAt]

theorem u16At_append (front rest : List UInt8) (n : Nat)
    : u16At (front ++ (toBigEndian 2 n ++ rest)) front.length = n % 65536 := by
  rw [u16At_eq _ _ (by simp), drop_left, take_left' (length_toBigEndian 2 n),
    ofBigEndian_toBigEndian]
  rfl

theorem toVector_toList {n : Nat} (v : Vector UInt8 n) : toVector n v.toList = v := by
  apply Vector.ext
  simp [toVector]

theorem toList_toVector {bytes : List UInt8} (h : bytes.length = n)
    : (toVector n bytes).toList = bytes := by
  apply ext_getElem
  . rw [Vector.length_toList, h]
  . intro i hi hi'
    simp [toVector, hi']

section

variable (front rest : List UInt8) (hlength : front.length = k)

include hlength

theorem byteAt_of_eq (b : UInt8) (hdata : data = front ++ b :: rest) : byteAt data k = b.toNat := by
  rw [hdata, ← hlength, byteAt_append]

theorem u16At_of_eq (n : Nat) (hdata : data = front ++ (toBigEndian 2 n ++ rest))
    : u16At data k = n % 65536 := by
  rw [hdata, ← hlength, u16At_append]

theorem toVector_of_eq (n : Nat) (field : Vector UInt8 n)
    (hdata : data = front ++ (field.toList ++ rest))
    : toVector n ((data.drop k).take n) = field := by
  rw [hdata, ← hlength, drop_left, take_left' field.length_toList, toVector_toList]

end

theorem fromUtf8_ofString : fromUtf8 (ofString s) = some s := by
  exact dif_pos s.isValidUTF8

theorem ofString_of_fromUtf8 (h : fromUtf8 bytes = some s)
    : ofString s = bytes := by
  unfold fromUtf8 String.fromUTF8? at h
  split at h
  next hvalid =>
    cases h
    rfl
  next => cases h

theorem fromUtf8Lossy_ofString : fromUtf8Lossy (ofString s) = s := by
  unfold fromUtf8Lossy
  rw [fromUtf8_ofString]

theorem slice_of_le (h : start + len ≤ data.length)
    : slice data start (start + len) = some ((data.drop start).take len) := by
  unfold slice
  rw [if_pos]
  . rw [Nat.add_sub_cancel_left]
  . omega

end Bytes
