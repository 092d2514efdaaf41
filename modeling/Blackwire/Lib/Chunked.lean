import Blackwire.Lib.Bytes

/-!
This module contains the chunked transfer coding of HTTP/1.1 without trailer fields. The decoder
takes one byte after the other, so what it makes of a stream can be said of any part of it.
-/

namespace Chunked

open List

def hexValue (b : UInt8) : Option Nat :=
  if 48 ≤ b && b ≤ 57 then
    some (b.toNat - 48)
  else if 65 ≤ b && b ≤ 70 then
    some (b.toNat - 55)
  else if 97 ≤ b && b ≤ 102 then
    some (b.toNat - 87)
  else
    none

inductive Phase where
  | size (n : Option Nat)
  | extension (n : Nat)
  | sizeEnd (n : Nat)
  | data (n : Nat)
  | dataEnd
  | dataEndLf
  | last
  | lastLf
  | ended
deriving DecidableEq

structure Decoder where
  phase : Phase
  body : Bytes
deriving DecidableEq

namespace Decoder

def new : Decoder := ⟨.size none, []⟩

def step (d : Decoder) (b : UInt8) : Option Decoder :=
  match d.phase with
  | .size n =>
    match hexValue b, n with
    | some v, n => some { d with phase := .size (some (16 * n.getD 0 + v)) }
    | none, none => none
    | none, some n =>
      if b = 13 then
        some { d with phase := .sizeEnd n }
      else if b = 59 then
        some { d with phase := .extension n }
      else
        none
  | .extension n => some { d with phase := if b = 13 then .sizeEnd n else .extension n }
  | .sizeEnd n =>
    if b = 10 then some { d with phase := if n = 0 then .last else .data n } else none
  | .data n => some ⟨if n ≤ 1 then .dataEnd else .data (n - 1), d.body ++ [b]⟩
  | .dataEnd => if b = 13 then some { d with phase := .dataEndLf } else none
  | .dataEndLf => if b = 10 then some { d with phase := .size none } else none
  | .last => if b = 13 then some { d with phase := .lastLf } else none
  | .lastLf => if b = 10 then some { d with phase := .ended } else none
  | .ended => none

def run (d : Decoder) (bytes : Bytes) : Option Decoder :=
  bytes.foldlM step d

theorem run_append (d : Decoder) (x y : Bytes) : d.run (x ++ y) = (d.run x).bind (·.run y) :=
  foldlM_append

theorem run_cons (d : Decoder) (b : UInt8) (x : Bytes)
    : d.run (b :: x) = (d.step b).bind (·.run x) :=
  rfl

end Decoder

def decode (bytes : Bytes) : Option Bytes :=
  match Decoder.new.run bytes with
  | some ⟨.size none, body⟩ => some body
  | _ => none

def isMessage (bytes body : Bytes) : Bool :=
  Decoder.new.run bytes = some ⟨.ended, body⟩

theorem decode_eq_some (bytes body : Bytes)
    : decode bytes = some body ↔ Decoder.new.run bytes = some ⟨.size none, body⟩ := by
  unfold decode
  split
  next h => simp [h]
  next hne =>
    constructor
    . intro h
      cases h
    . exact fun h => absurd h (hne body)

def digitsValue (n : Nat) (digits : Bytes) : Nat :=
  digits.foldl (fun n b => 16 * n + (hexValue b).getD 0) n

def IsHex (digits : Bytes) : Prop :=
  ∀ b ∈ digits, (hexValue b).isSome

-- The line end separates the digits of the size from the data, and the data from the next chunk.
def crlf : Bytes := [13, 10]

def chunk (digits data : Bytes) : Bytes :=
  digits ++ crlf ++ data ++ crlf

namespace Decoder

variable {digits body : Bytes} {d d' : Decoder}

theorem run_digits (n : Option Nat) (h : IsHex digits) (hne : digits ≠ [])
    : run ⟨.size n, body⟩ digits = some ⟨.size (some (digitsValue (n.getD 0) digits)), body⟩ := by
  induction digits generalizing n with
  | nil => exact absurd rfl hne
  | cons b digits ih =>
    unfold IsHex at h
    rw [forall_mem_cons] at h
    rcases Option.isSome_iff_exists.mp h.left with ⟨v, hv⟩
    rw [run_cons]
    simp only [step, hv, Option.bind_some, digitsValue, foldl_cons, Option.getD_some]
    cases digits with
    | nil => rfl
    | cons b' digits => exact ih _ h.right nofun

theorem run_data (data body : Bytes) (hn : data.length = n + 1)
    : run ⟨.data (n + 1), body⟩ data = some ⟨.dataEnd, body ++ data⟩ := by
  induction n generalizing data body with
  | zero =>
    rcases length_eq_one_iff.mp hn with ⟨b, rfl⟩
    rfl
  | succ n ih =>
    cases data with
    | nil => cases hn
    | cons b data =>
      rw [run_cons]
      simp only [step, Option.bind_some]
      rw [if_neg (by omega), Nat.add_sub_cancel, ih data (body ++ [b]) (by simpa using hn)]
      simp

theorem run_size (h : IsHex digits) (hne : digits ≠ [])
    : run ⟨.size none, body⟩ (digits ++ crlf)
        = some
          ⟨if digitsValue 0 digits = 0 then .last else .data (digitsValue 0 digits), body⟩ := by
  rw [run_append, run_digits none h hne]
  rfl

theorem run_chunk {data body : Bytes} (h : IsHex digits) (hne : digits ≠ [])
    (hdata : data ≠ []) (hvalue : digitsValue 0 digits = data.length)
    : run ⟨.size none, body⟩ (chunk digits data) = some ⟨.size none, body ++ data⟩ := by
  have hpos : 0 < data.length := length_pos_iff.mpr hdata
  have hlength : data.length = (data.length - 1) + 1 := by omega
  unfold chunk
  rw [run_append, run_append, run_size h hne, hvalue, if_neg (by omega),
    Option.bind_some, hlength, run_data data body hlength]
  rfl

def Inside (body : Bytes) (d : Decoder) : Prop :=
  d.body = body
    ∧ d.phase ≠ .size none ∧ d.phase ≠ .dataEnd ∧ d.phase ≠ .dataEndLf

theorem grows_of_step (b : UInt8) (h : d.step b = some d') (hd : body.length < d.body.length)
    : body.length < d'.body.length := by
  unfold step at h
  grind

theorem inside_of_step (b : UInt8) (h : d.step b = some d')
    (hd : d = ⟨.size none, body⟩ ∨ d.Inside body)
    : d'.Inside body ∨ body.length < d'.body.length := by
  unfold step Inside at *
  grind

theorem inside_of_run (d d' : Decoder) (h : d.run bytes = some d')
    (hd : d.Inside body ∨ body.length < d.body.length)
    : d'.Inside body ∨ body.length < d'.body.length := by
  induction bytes generalizing d with
  | nil =>
    cases h
    exact hd
  | cons b bytes ih =>
    rw [run_cons, Option.bind_eq_some_iff] at h
    rcases h with ⟨e, hstep, hrun⟩
    apply ih e hrun
    rcases hd with hinside | hgrown
    . exact inside_of_step b hstep (.inr hinside)
    . exact .inr (grows_of_step b hstep hgrown)

theorem eq_nil_of_run (h : run ⟨.size none, body⟩ bytes = some ⟨.size none, body⟩)
    : bytes = [] := by
  cases bytes with
  | nil => rfl
  | cons b bytes =>
    rw [run_cons, Option.bind_eq_some_iff] at h
    rcases h with ⟨e, hstep, hrun⟩
    have hmoved := inside_of_step b hstep (.inl rfl)
    rcases inside_of_run e _ hrun hmoved with hinside | hgrown
    . exact absurd rfl hinside.right.left
    . exact absurd hgrown (Nat.lt_irrefl body.length)

end Decoder

section

variable {bytes body digits data : Bytes} (h : IsHex digits) (hne : digits ≠ []) (hdata : data ≠ [])
  (hvalue : digitsValue 0 digits = data.length) (hbytes : decode bytes = some body)

include h hne hdata hvalue hbytes

theorem decode_append_chunk : decode (bytes ++ chunk digits data) = some (body ++ data) := by
  rw [decode_eq_some] at *
  rw [Decoder.run_append, hbytes, Option.bind_some]
  exact Decoder.run_chunk h hne hdata hvalue

theorem decode_append_part (hpart : part ++ rest = chunk digits data)
    (hdecode : decode (bytes ++ part) = some (body ++ data))
    : rest = [] := by
  have hwhole := decode_append_chunk h hne hdata hvalue hbytes
  rw [decode_eq_some] at hdecode hwhole
  rw [← hpart, ← append_assoc, Decoder.run_append, hdecode, Option.bind_some] at hwhole
  exact Decoder.eq_nil_of_run hwhole

end

theorem isMessage_append_last (bytes body : Bytes) (h : decode bytes = some body) (k : Nat)
    : isMessage (bytes ++ (replicate k ([48] ++ crlf ++ crlf)).flatten) body = true ↔ k = 1 := by
  rw [decode_eq_some] at h
  unfold isMessage
  rw [decide_eq_true_eq, Decoder.run_append, h, Option.bind_some]
  match k with
  | 0 => simp [Decoder.run]
  | 1 => exact ⟨fun _ => rfl, fun _ => rfl⟩
  | k + 2 =>
    -- Nothing is decoded behind the end.
    have hrun : Decoder.run ⟨.size none, body⟩ (replicate (k + 2) ([48] ++ crlf ++ crlf)).flatten
        = none := rfl
    rw [hrun]
    simp

end Chunked
