import Blackwire.Lib.Bytes
import Blackwire.Lib.Inbox
import Blackwire.Common.Reading
import Blackwire.Lib.Varint

/-!
This module contains the framing of the gRPC transport and the reading half of its stream, with the
verification of the varints, of the Hunk messages and of the stream. The connection below is a
script of its answers, and it is at its end where the script ends.
-/

namespace Blackwire.Grpc

open Bytes

def maxMessageSize : Nat := 16 * 1024 * 1024

def encodeGrpcFrame (payload : Bytes) : Bytes :=
  [0x00] ++ toBigEndian 4 payload.length ++ payload

def putVarint (val : UInt64) : Bytes :=
  let byte := (val &&& 0x7F).toUInt8
  let rest := val >>> 7
  if rest = 0 then
    [byte]
  else
    (byte ||| 0x80) :: putVarint rest
termination_by val.toNat
decreasing_by
  next hne =>
    have hdiv : (val >>> 7).toNat = val.toNat / 128 := by
      simp [UInt64.toNat_shiftRight, Nat.shiftRight_eq_div_pow]
    have hpos : (val >>> 7).toNat ≠ 0 := fun hzero => hne (UInt64.toNat_inj.mp hzero)
    omega

def getVarint (buf : Bytes) : Option (Nat × Nat) :=
  go buf 0 0 0
where
  go (rest : Bytes) (i shift : Nat) (val : UInt64) : Option (Nat × Nat) :=
    match rest with
    | [] => none
    | byte :: rest =>
      if shift ≥ 64 then
        none
      else
        let val := val ||| ((byte &&& 0x7F).toUInt64 <<< UInt64.ofNat shift)
        if byte &&& 0x80 = 0 then
          some (val.toNat, i + 1)
        else
          go rest (i + 1) (shift + 7) val

def appendHunk (data : Bytes) : Bytes :=
  [0x0A] ++ putVarint (UInt64.ofNat data.length) ++ data

def decodeHunk (payload : Bytes) : Res Bytes :=
  match payload with
  | [] => return []
  | tag :: rest =>
    if tag ≠ 0x0A then
      fail (.protocol ("gRPC Gun: expected Hunk field tag 0x0A, got " ++ hex tag.toNat))
    else
      match getVarint rest with
      | none => fail (.protocol "gRPC Gun: truncated or oversized Hunk varint")
      | some (dataLen, varintLen) =>
        let offset := 1 + varintLen
        let stop := Usize.add offset dataLen
        if payload.length < stop then
          fail (.protocol "gRPC Gun: Hunk data extends past message boundary")
        else
          match slice payload offset stop with
          | none => .error .panic
          | some data => return data

def decodeGrpcFrame (buf : Bytes) : Except ProxyError (Option (Bytes × Bytes)) :=
  match buf with
  | compressed :: len1 :: len2 :: len3 :: len4 :: rest =>
    if compressed ≠ 0x00 then
      .error (.transport
        ("gRPC: compressed frames not supported (flag=" ++ hex compressed.toNat ++ ")"))
    else
      let len := ofBigEndian [len1, len2, len3, len4]
      if len > maxMessageSize then
        .error (.transport ("gRPC: message too large (" ++ toString len ++ " bytes)"))
      else if rest.length < len then
        .ok none
      else
        .ok (some (rest.take len, rest.drop len))
  | _ => .ok none

inductive ReadError (ε : Type) where
  | invalidData (message : String)
  | panic
  | inner (e : ε)
deriving DecidableEq

structure GrpcStream where
  recvBuf : Bytes
  readBuf : Bytes

namespace GrpcStream

variable {ε : Type}

def new : GrpcStream := ⟨[], []⟩

def serveDecodedFrames (cap : Nat) (s : GrpcStream)
    : GrpcStream × Except (ReadError ε) (Option Bytes) :=
  go (s.recvBuf.length + 1) s
where
  go (fuel : Nat) (s : GrpcStream) : GrpcStream × Except (ReadError ε) (Option Bytes) :=
    match fuel with
    | 0 => (s, .ok none)
    | fuel + 1 =>
      if !s.readBuf.isEmpty then
        let n := min s.readBuf.length cap
        ({ s with readBuf := s.readBuf.drop n }, .ok (some (s.readBuf.take n)))
      else
        match decodeGrpcFrame s.recvBuf with
        | .error e => (s, .error (.invalidData e.text))
        | .ok none => (s, .ok none)
        | .ok (some (payload, recvBuf)) =>
          if payload.isEmpty then
            ({ s with recvBuf := recvBuf }, .ok none)
          else
            match decodeHunk payload with
            | .ok data => go fuel ⟨recvBuf, data⟩
            | .error (.error e) => ({ s with recvBuf := recvBuf }, .error (.invalidData e.text))
            | .error .panic => ({ s with recvBuf := recvBuf }, .error .panic)

def pollRead (cap : Nat) (s : GrpcStream) (script : Script UInt8 ε)
    : GrpcStream × Poll (Except (ReadError ε) Bytes) × Script UInt8 ε :=
  match s.serveDecodedFrames cap with
  | (s, .error e) => (s, .ready (.error e), script)
  | (s, .ok (some bytes)) => (s, .ready (.ok bytes), script)
  | (s, .ok none) =>
    match script with
    | [] => (s, .ready (.ok []), [])
    | .pending :: script => (s, .pending, script)
    | .ready (.error e) :: script => (s, .ready (.error (.inner e)), script)
    | .ready (.ok chunk) :: script => pollRead cap { s with recvBuf := s.recvBuf ++ chunk } script

def run (caps : List Nat) (s : GrpcStream) (script : Script UInt8 ε)
    : List (GrpcStream × Poll (Except (ReadError ε) Bytes)) :=
  match caps with
  | [] => []
  | cap :: caps =>
    let (s, result, script) := s.pollRead cap script
    (s, result) :: run caps s script

end GrpcStream

open List

variable (b : UInt8) {enc : Bytes} (val : UInt64)

theorem toNat_and_low : (b &&& 0x7F).toNat = b.toNat % 128 := by
  exact Nat.and_two_pow_sub_one_eq_mod b.toNat 7

theorem and_high_eq_zero_iff : b &&& 0x80 = 0 ↔ b.toNat < 128 := by
  have hall : ∀ n : Fin 256, n.val &&& 128 = 0 ↔ n.val < 128 := by decide +kernel
  rw [← UInt8.toNat_inj, UInt8.toNat_and]
  exact hall ⟨b.toNat, b.toNat_lt⟩

theorem toNat_accumulate {shift : Nat} {val : UInt64} (hshift : shift < 64)
    (hval : val.toNat < 2 ^ shift)
    : (val ||| ((b &&& 0x7F).toUInt64 <<< UInt64.ofNat shift)).toNat
        = val.toNat + 2 ^ shift * (b.toNat % 128) % 2 ^ 64 := by
  have hamount : (UInt64.ofNat shift).toNat % 64 = shift := by
    rw [UInt64.toNat_ofNat']
    omega
  have hwidth : 2 ^ 64 = 2 ^ shift * 2 ^ (64 - shift) := by
    rw [← Nat.pow_add, Nat.add_sub_of_le (by omega)]
  have hgroup : 2 ^ shift * (b.toNat % 128) % 2 ^ 64
      = 2 ^ shift * (b.toNat % 128 % 2 ^ (64 - shift)) := by
    rw [hwidth, Nat.mul_mod_mul_left]
  rw [UInt64.toNat_or, UInt64.toNat_shiftLeft, UInt8.toNat_toUInt64, toNat_and_low, hamount,
    Nat.shiftLeft_eq, Nat.mul_comm, hgroup, Nat.or_comm, ← Nat.two_pow_add_eq_or_of_lt hval,
    Nat.add_comm]

theorem getVarint.go_append (henc : Varint.IsEncoding enc) (i shift : Nat)
    (val : UInt64) (hval : val.toNat < 2 ^ shift)
    : go (enc ++ rest) i shift val
        = if shift + 7 * enc.length < 71 then
            some ((val.toNat + 2 ^ shift * Varint.value enc) % 2 ^ 64, i + enc.length)
          else
            none := by
  induction henc generalizing i shift val with
  | last b hb =>
    rw [cons_append, nil_append, go]
    by_cases hshift : shift ≥ 64
    . rw [if_pos hshift, if_neg (by rw [length_singleton]; omega)]
    have hacc := toNat_accumulate b (by omega) hval
    have hlt := UInt64.toNat_lt (val ||| ((b &&& 0x7F).toUInt64 <<< UInt64.ofNat shift))
    rw [if_neg hshift, if_pos ((and_high_eq_zero_iff b).mpr hb),
      if_pos (by rw [length_singleton]; omega), ← Nat.mod_eq_of_lt hlt, hacc,
      Nat.add_mod_mod]
    simp [Varint.value]
  | more b bytes hb hbytes ih =>
    rw [cons_append, go]
    by_cases hshift : shift ≥ 64
    . rw [if_pos hshift, if_neg (by rw [length_cons]; omega)]
    rw [if_neg hshift]
    have hacc := toNat_accumulate b (by omega) hval
    have hpow : 2 ^ (shift + 7) = 2 ^ shift * 128 := Nat.pow_add 2 shift 7
    have hlt : (val ||| ((b &&& 0x7F).toUInt64 <<< UInt64.ofNat shift)).toNat
        < 2 ^ (shift + 7) := by
      have hgroup := Nat.mul_le_mul_left (2 ^ shift) (show b.toNat % 128 ≤ 127 by omega)
      omega
    rw [if_neg (by rw [and_high_eq_zero_iff]; omega), ih (i + 1) (shift + 7) _ hlt]
    have hsum : (2 ^ shift * (b.toNat % 128) % 2 ^ 64 + val.toNat
          + 2 ^ (shift + 7) * Varint.value bytes) % 2 ^ 64
        = (val.toNat + 2 ^ shift * Varint.value (b :: bytes)) % 2 ^ 64 := by
      rw [Nat.add_assoc, Nat.mod_add_mod, hpow, Varint.value]
      congr 1
      ring
    have hshifts : shift + 7 + 7 * bytes.length = shift + 7 * (bytes.length + 1) := by omega
    have hbytes : i + 1 + bytes.length = i + (bytes.length + 1) := by omega
    rw [hacc, Nat.add_comm val.toNat, hsum, length_cons, hshifts, hbytes]

theorem getVarint_append (henc : Varint.IsEncoding enc)
    : getVarint (enc ++ rest)
        = if enc.length ≤ 10 then
            some (Varint.value enc % 2 ^ 64, enc.length)
          else
            none := by
  rw [getVarint, getVarint.go_append henc 0 0 0 (by decide)]
  simp only [Nat.zero_add, Nat.pow_zero, Nat.one_mul, UInt64.toNat_zero]
  congr 1
  rw [eq_iff_iff]
  omega

theorem getVarint.go_unfinished (h : ∀ b ∈ bytes, 128 ≤ b.toNat) (i shift : Nat) (val : UInt64)
    : go bytes i shift val = none := by
  induction bytes generalizing i shift val with
  | nil => rfl
  | cons b bytes ih =>
    rw [forall_mem_cons] at h
    rw [go]
    split
    next => rfl
    next =>
      rw [if_neg (by rw [and_high_eq_zero_iff]; omega), ih h.right]

theorem getVarint_eq_some (h : getVarint bytes = some (dataLen, varintLen))
    : ∃ enc rest, bytes = enc ++ rest
        ∧ Varint.IsEncoding enc
        ∧ enc.length ≤ 10
        ∧ dataLen = Varint.value enc % 2 ^ 64
        ∧ varintLen = enc.length := by
  rcases Varint.exists_encoding bytes with ⟨enc, rest, rfl, henc⟩ | hall
  . rw [getVarint_append henc] at h
    split at h
    next hlen =>
      simp only [Option.some.injEq, Prod.mk.injEq] at h
      exact ⟨enc, rest, rfl, henc, hlen, h.left.symm, h.right.symm⟩
    next => cases h
  . rw [getVarint, getVarint.go_unfinished hall] at h
    cases h

theorem putVarint_eq : putVarint val = Varint.encode val.toNat := by
  induction hn : val.toNat using Nat.strongRecOn generalizing val with
  | ind n ih =>
    subst hn
    have hdiv : (val >>> 7).toNat = val.toNat / 128 := by
      simp [Nat.shiftRight_eq_div_pow]
    have hbyte : (val &&& 0x7F).toUInt8 = UInt8.ofNat (val.toNat % 128) := by
      rw [← UInt8.toNat_inj, UInt64.toNat_toUInt8, UInt64.toNat_and, UInt8.toNat_ofNat']
      exact congrArg (· % 2 ^ 8) (Nat.and_two_pow_sub_one_eq_mod val.toNat 7)
    have hzero : val >>> 7 = 0 ↔ val.toNat < 128 := by
      rw [← UInt64.toNat_inj, hdiv, UInt64.toNat_zero]
      omega
    unfold putVarint Varint.encode
    dsimp only
    rw [hbyte]
    split
    next hlast =>
      have hlast := hzero.mp hlast
      rw [if_pos hlast, Nat.mod_eq_of_lt hlast]
    next hmore =>
      have hmore : ¬ val.toNat < 128 := fun hlast => hmore (hzero.mpr hlast)
      have hcontinued : UInt8.ofNat (val.toNat % 128) ||| 0x80
          = UInt8.ofNat (val.toNat % 128 + 128) := by
        have hlow : val.toNat % 128 < 2 ^ 7 := Nat.mod_lt _ (by decide)
        generalize val.toNat % 128 = low at hlow
        rw [← UInt8.toNat_inj, UInt8.toNat_or, UInt8.toNat_ofNat', UInt8.toNat_ofNat',
          Nat.mod_eq_of_lt (show low < 2 ^ 8 by omega),
          Nat.mod_eq_of_lt (show low + 128 < 2 ^ 8 by omega), Nat.or_comm]
        exact (Nat.two_pow_add_eq_or_of_lt hlow 1).symm.trans (Nat.add_comm _ _)
      rw [if_neg hmore, hcontinued, ih _ (by rw [hdiv]; omega) (val >>> 7) rfl, hdiv]

theorem getVarint_putVarint
    : getVarint (putVarint val ++ rest) = some (val.toNat, (putVarint val).length) := by
  rcases Varint.encode_spec with ⟨henc, hvalue⟩
  have hlt := val.toNat_lt
  have hlen := Varint.length_encode_le val.toNat 9 (by omega)
  rw [putVarint_eq, getVarint_append henc, if_pos hlen, hvalue, Nat.mod_eq_of_lt hlt]

-- Ten groups are 70 bits, of which the last group may only use one.
variable (rest) in
theorem refuses_iff (henc : Varint.IsEncoding enc)
    : (2 ^ 64 ≤ Varint.value enc → getVarint (enc ++ rest) = none)
        ↔ (enc.length = 10 → (enc.getLastD 0).toNat ≤ 1) := by
  have hvalue := Varint.value_lt enc
  rw [getVarint_append henc]
  by_cases hten : enc.length = 10
  . rcases henc.exists_last with ⟨front, last, rfl, hlast⟩
    have hfront : front.length = 9 := by simpa using hten
    have hlow := Varint.value_lt front
    rw [hfront] at hlow
    rw [if_pos (by omega), Varint.value_append, hfront, getLastD_concat]
    simp only [Varint.value, reduceCtorEq, imp_false]
    omega
  . have hright : enc.length = 10 → (enc.getLastD 0).toNat ≤ 1 := fun h => absurd h hten
    refine iff_of_true ?_ hright
    intro hbig
    by_cases hlong : enc.length ≤ 10
    . have hpow := Nat.pow_le_pow_right (show 0 < 2 by omega)
        (show 7 * enc.length ≤ 63 by omega)
      omega
    . rw [if_neg hlong]

theorem decodeHunk_append (henc : Varint.IsEncoding enc) (hlen : enc.length ≤ 10)
    : decodeHunk (0x0A :: (enc ++ rest))
        = if 2 ^ 64 ≤ 1 + enc.length + Varint.value enc % 2 ^ 64 then
            .error .panic
          else if rest.length < Varint.value enc % 2 ^ 64 then
            fail (.protocol "gRPC Gun: Hunk data extends past message boundary")
          else
            return rest.take (Varint.value enc % 2 ^ 64) := by
  have hvalue : Varint.value enc % 2 ^ 64 < 2 ^ 64 := Nat.mod_lt _ (by decide)
  have hlength : (0x0A :: (enc ++ rest)).length = 1 + enc.length + rest.length := by
    simp only [length_cons, length_append]
    omega
  simp only [decodeHunk, ne_eq, not_true_eq_false, if_false, getVarint_append henc, if_pos hlen]
  generalize Varint.value enc % 2 ^ 64 = dataLen at hvalue
  unfold slice
  by_cases hwrap : 2 ^ 64 ≤ 1 + enc.length + dataLen
  . have hstop : Usize.add (1 + enc.length) dataLen = 1 + enc.length + dataLen - 2 ^ 64 := by
      unfold Usize.add
      omega
    rw [if_pos hwrap, hstop, if_neg (by omega), if_neg (by omega)]
  . rw [if_neg hwrap, Usize.add_eq (by omega)]
    by_cases hshort : rest.length < dataLen
    . rw [if_pos hshort, if_pos (by omega)]
    rw [if_neg hshort, if_neg (by omega), if_pos (by omega)]
    have hdrop : (0x0A :: (enc ++ rest)).drop (1 + enc.length) = rest := by
      rw [Nat.add_comm, drop_succ_cons, drop_left]
    rw [hdrop, Nat.add_sub_cancel_left]

/--
The data of a Hunk ends before `2 ^ 64`, where the length that the Hunk announces is taken modulo
`2 ^ 64`.
-/
def HunkFits (payload : Bytes) : Prop :=
  ∀ enc rest,
    payload = 0x0A :: (enc ++ rest)
      → Varint.IsEncoding enc
      → enc.length ≤ 10
      → 1 + enc.length + Varint.value enc % 2 ^ 64 < 2 ^ 64

theorem not_panics_iff_hunkFits (payload : Bytes)
    : decodeHunk payload ≠ .error .panic ↔ HunkFits payload := by
  constructor
  . intro h enc rest hpayload henc hlen
    rw [hpayload, decodeHunk_append henc hlen] at h
    split at h
    next => exact absurd rfl h
    next hfits => omega
  . intro hfits
    cases payload with
    | nil => simp [decodeHunk, pure, Except.pure]
    | cons tag bytes =>
      by_cases htag : tag = 0x0A
      . cases hvarint : getVarint bytes with
        | none => simp [decodeHunk, htag, hvarint, fail]
        | some read =>
          rcases getVarint_eq_some hvarint with
            ⟨enc, rest, rfl, henc, hlen, _⟩
          have hfits := hfits enc rest (by rw [htag]) henc hlen
          rw [htag, decodeHunk_append henc hlen, if_neg (by omega)]
          split
          next => simp [fail]
          next => simp [pure, Except.pure]
      . simp [decodeHunk, htag, fail]

theorem hunk_decoding_iff (payload : Bytes)
    : (decodeHunk payload ≠ .error .panic ↔ HunkFits payload)
      ∧ (∀ (val : UInt64) (rest : Bytes),
        getVarint (putVarint val ++ rest) = some (val.toNat, (putVarint val).length))
      ∧ (∀ enc rest : Bytes, Varint.IsEncoding enc →
        ((2 ^ 64 ≤ Varint.value enc → getVarint (enc ++ rest) = none)
          ↔ (enc.length = 10 → (enc.getLastD 0).toNat ≤ 1))) := by
  refine ⟨?_, ?_, ?_⟩
  . apply not_panics_iff_hunkFits
  . apply getVarint_putVarint
  . apply refuses_iff

theorem hunk_length_wraps
    : decodeHunk (0x0A :: (replicate 9 0xFF ++ [0x01])) = .error .panic
      ∧ getVarint (replicate 9 0x80 ++ [0x02]) = some (0, 10)
      ∧ Varint.value (replicate 9 0x80 ++ [0x02]) = 2 ^ 64 := by
  decide +kernel

def frames (messages : List Bytes) : Bytes :=
  messages.flatMap encodeGrpcFrame

@[simp]
theorem frames_cons (m : Bytes) (messages : List Bytes)
    : frames (m :: messages) = encodeGrpcFrame m ++ frames messages := by
  simp [frames]

@[simp]
theorem frames_append (front back : List Bytes)
    : frames (front ++ back) = frames front ++ frames back := by
  simp [frames]

theorem length_encodeGrpcFrame (m : Bytes) : (encodeGrpcFrame m).length = 5 + m.length := by
  simp only [encodeGrpcFrame, length_append, length_toBigEndian, length_singleton]

theorem encodeGrpcFrame_header (h : m.length ≤ maxMessageSize)
    : ∃ len1 len2 len3 len4, encodeGrpcFrame m = 0x00 :: len1 :: len2 :: len3 :: len4 :: m
        ∧ ofBigEndian [len1, len2, len3, len4] = m.length := by
  have hlen := ofBigEndian_toBigEndian 4 m.length
  rw [Nat.mod_eq_of_lt (by unfold maxMessageSize at h; omega)] at hlen
  have hfour := length_toBigEndian 4 m.length
  unfold encodeGrpcFrame
  match toBigEndian 4 m.length, hfour, hlen with
  | [len1, len2, len3, len4], _, hlen => exact ⟨len1, len2, len3, len4, rfl, hlen⟩

theorem decodeGrpcFrame_encode (rest : Bytes) (h : m.length ≤ maxMessageSize)
    : decodeGrpcFrame (encodeGrpcFrame m ++ rest) = .ok (some (m, rest)) := by
  rcases encodeGrpcFrame_header h with ⟨len1, len2, len3, len4, hframe, hlen⟩
  simp only [hframe, cons_append, decodeGrpcFrame, hlen]
  rw [if_neg (by simp), if_neg (by omega), if_neg (by simp), take_left, drop_left]

theorem decodeGrpcFrame_short {m buf : Bytes} (h : m.length ≤ maxMessageSize)
    (hbuf : buf <+: encodeGrpcFrame m) (hshort : buf.length < (encodeGrpcFrame m).length)
    : decodeGrpcFrame buf = .ok none := by
  rcases encodeGrpcFrame_header h with ⟨len1, len2, len3, len4, hframe, hlen⟩
  rw [hframe] at hbuf hshort
  match buf, hbuf with
  | [], _ => rfl
  | [_], _ => rfl
  | [_, _], _ => rfl
  | [_, _, _], _ => rfl
  | [_, _, _, _], _ => rfl
  | b0 :: b1 :: b2 :: b3 :: b4 :: rest, hbuf =>
    simp only [cons_prefix_cons] at hbuf
    rcases hbuf with ⟨rfl, rfl, rfl, rfl, rfl, _⟩
    simp only [length_cons, decodeGrpcFrame] at hshort ⊢
    rw [if_neg (by simp), if_neg (by omega), if_pos (by omega)]

theorem encodeGrpcFrame_inj (h : m.length ≤ maxMessageSize) (h' : m'.length ≤ maxMessageSize)
    (heq : encodeGrpcFrame m ++ rest = encodeGrpcFrame m' ++ rest')
    : m = m' ∧ rest = rest' := by
  have hdecode := decodeGrpcFrame_encode rest h
  rw [heq, decodeGrpcFrame_encode rest' h'] at hdecode
  simpa [eq_comm] using hdecode

theorem prefix_of_frames (ms messages : List Bytes) (rest : Bytes)
    (hms : ∀ m ∈ ms, m.length ≤ maxMessageSize)
    (hmessages : ∀ m ∈ messages, m.length ≤ maxMessageSize)
    (h : frames ms ++ rest <+: frames messages)
    : ms <+: messages := by
  induction ms generalizing messages with
  | nil => apply nil_prefix
  | cons m ms ih =>
    rcases h with ⟨more, hmore⟩
    cases messages with
    | nil => simp [frames, encodeGrpcFrame] at hmore
    | cons m' messages =>
      rw [forall_mem_cons] at hms hmessages
      simp only [frames_cons, append_assoc] at hmore
      rcases encodeGrpcFrame_inj hms.left hmessages.left hmore with ⟨rfl, hrest⟩
      rw [← append_assoc] at hrest
      rw [prefix_cons_inj]
      exact ih messages hms.right hmessages.right ⟨more, hrest⟩

structure WellFormed (m : Bytes) : Prop where
  length : m.length ≤ maxMessageSize
  hunk : ∃ data, decodeHunk m = .ok data

def hunkData (m : Bytes) : Bytes :=
  match decodeHunk m with
  | .ok data => data
  | .error _ => []

theorem WellFormed.decodeHunk_eq (h : WellFormed m)
    : decodeHunk m = .ok (hunkData m) := by
  rcases h.hunk with ⟨data, hdata⟩
  rw [hunkData, hdata]

def payloads (messages : List Bytes) : Bytes :=
  messages.flatMap hunkData

def Buffered (s : GrpcStream) : Prop :=
  ∃ ms rest, s.recvBuf = frames ms ++ rest
    ∧ (∀ m ∈ ms, m.length ≤ maxMessageSize)
    ∧ ∃ m ∈ ms, m ≠ []

namespace GrpcStream

variable {ε : Type}

inductive Served (s : GrpcStream) (todo : List Bytes) (coming : Bytes)
    : GrpcStream × Except (ReadError ε) (Option Bytes) → Prop where
  | gives (s' : GrpcStream) (bytes : Bytes) (todo' : List Bytes) (hne : bytes ≠ [])
      (hsuffix : todo' <:+ todo) (hsync : s'.recvBuf ++ coming = frames todo')
      (hdata : bytes ++ (s'.readBuf ++ payloads todo') = s.readBuf ++ payloads todo)
    : Served s todo coming (s', .ok (some bytes))
  | stops (s' : GrpcStream) (todo' : List Bytes) (hsuffix : todo' <:+ todo)
      (hsync : s'.recvBuf ++ coming = frames todo') (hempty : s'.readBuf = [])
      (hdata : payloads todo' = s.readBuf ++ payloads todo)
      (hstop : (∀ m ∈ todo', m = [])
        ∨ ∀ m ∈ todo'.head?, s'.recvBuf.length < (encodeGrpcFrame m).length)
    : Served s todo coming (s', .ok none)

variable (cap : Nat) {s : GrpcStream}

theorem Served.of_next (h : Served s₁ todo coming result)
    (hdata : s₁.readBuf ++ payloads todo = s.readBuf ++ payloads (m :: todo))
    : Served s (m :: todo) coming result := by
  cases h with
  | gives s' bytes todo' hne hsuffix hsync hbytes =>
    exact .gives s' bytes todo' hne (hsuffix.trans (suffix_cons _ _)) hsync
      (hbytes.trans hdata)
  | stops s' todo' hsuffix hsync hempty hbytes hstop =>
    exact .stops s' todo' (hsuffix.trans (suffix_cons _ _)) hsync hempty
      (hbytes.trans hdata) hstop

theorem decodeGrpcFrame_waits
    (hwell : ∀ m ∈ todo, WellFormed m) (hsync : buf ++ coming = frames todo)
    (hshort : ∀ m ∈ todo.head?, buf.length < (encodeGrpcFrame m).length)
    : decodeGrpcFrame buf = .ok none := by
  cases todo with
  | nil =>
    rw [(append_eq_nil_iff.mp hsync).left]
    rfl
  | cons m todo =>
    have hlt := hshort m rfl
    refine decodeGrpcFrame_short (hwell m mem_cons_self).length ?_ hlt
    exact prefix_of_prefix_length_le ⟨coming, hsync⟩ (prefix_append _ _) (by omega)

theorem exists_frame (hsync : buf ++ coming = frames todo)
    (hlong : ¬ ∀ m ∈ todo.head?, buf.length < (encodeGrpcFrame m).length)
    : ∃ m more rest, todo = m :: rest
        ∧ buf = encodeGrpcFrame m ++ more
        ∧ more ++ coming = frames rest := by
  push Not at hlong
  rcases hlong with ⟨m, hhead, hlong⟩
  cases todo with
  | nil => cases hhead
  | cons first rest =>
    cases hhead
    rcases prefix_of_prefix_length_le (prefix_append _ _) ⟨coming, hsync⟩ hlong with
      ⟨more, rfl⟩
    rw [append_assoc] at hsync
    exact ⟨m, more, rest, rfl, rfl, append_cancel_left hsync⟩

theorem length_of_decodeGrpcFrame (h : decodeGrpcFrame buf = .ok (some (payload, rest)))
    : rest.length < buf.length := by
  unfold decodeGrpcFrame at h
  split at h
  next more =>
    split at h
    next => cases h
    dsimp only at h
    split at h
    next => cases h
    split at h
    next => cases h
    simp only [Except.ok.injEq, Option.some.injEq, Prod.mk.injEq] at h
    rw [← h.right, length_drop]
    simp only [length_cons]
    omega
  next => cases h

theorem serveDecodedFrames.go_fuel (fuel fuel' : Nat) (s : GrpcStream)
    (h : s.recvBuf.length < fuel) (h' : s.recvBuf.length < fuel')
    : go (ε := ε) cap fuel s = go cap fuel' s := by
  induction fuel generalizing fuel' s with
  | zero => omega
  | succ fuel ih =>
    cases fuel' with
    | zero => omega
    | succ fuel' =>
      unfold go
      split
      next => rfl
      cases hframe : decodeGrpcFrame s.recvBuf with
      | error e => rfl
      | ok frame =>
        match frame with
        | none => rfl
        | some (payload, rest) =>
          have hlt := length_of_decodeGrpcFrame hframe
          dsimp only
          split
          next => rfl
          match decodeHunk payload with
          | .error (.error _) => rfl
          | .error .panic => rfl
          | .ok data =>
            exact ih fuel' ⟨rest, data⟩ (by dsimp only; omega) (by dsimp only; omega)

theorem serveDecodedFrames_readBuf (h : s.readBuf ≠ [])
    : s.serveDecodedFrames (ε := ε) cap
        = ({ s with readBuf := s.readBuf.drop (min s.readBuf.length cap) },
            .ok (some (s.readBuf.take (min s.readBuf.length cap)))) := by
  rw [serveDecodedFrames, serveDecodedFrames.go, if_pos (by simpa using h)]

theorem serveDecodedFrames_none {recvBuf : Bytes} (h : decodeGrpcFrame recvBuf = .ok none)
    : serveDecodedFrames (ε := ε) cap ⟨recvBuf, []⟩ = (⟨recvBuf, []⟩, .ok none) := by
  rw [serveDecodedFrames, serveDecodedFrames.go, if_neg (by simp), h]

theorem serveDecodedFrames_empty (rest : Bytes)
    : serveDecodedFrames (ε := ε) cap ⟨encodeGrpcFrame [] ++ rest, []⟩
        = (⟨rest, []⟩, .ok none) := by
  rfl

theorem serveDecodedFrames_frame (rest : Bytes) (hm : WellFormed m) (hne : m ≠ [])
    : serveDecodedFrames (ε := ε) cap ⟨encodeGrpcFrame m ++ rest, []⟩
        = serveDecodedFrames cap ⟨rest, hunkData m⟩ := by
  rw [serveDecodedFrames, serveDecodedFrames.go, if_neg (by simp),
    decodeGrpcFrame_encode rest hm.length]
  dsimp only
  rw [if_neg (by simpa using hne), hm.decodeHunk_eq]
  apply serveDecodedFrames.go_fuel
  . simp only [length_append, length_encodeGrpcFrame]
    omega
  . apply Nat.lt_succ_self

theorem serveDecodedFrames_served (cap : Nat) (hcap : 0 < cap) (s : GrpcStream)
    (todo : List Bytes) (coming : Bytes) (hwell : ∀ m ∈ todo, WellFormed m)
    (hlast : todo.Pairwise fun m m' => m = [] → m' = [])
    (hsync : s.recvBuf ++ coming = frames todo)
    : Served (ε := ε) s todo coming (s.serveDecodedFrames cap) := by
  by_cases hread : s.readBuf = []
  . rcases s with ⟨recvBuf, _⟩
    subst hread
    by_cases hshort : ∀ m ∈ todo.head?, recvBuf.length < (encodeGrpcFrame m).length
    . rw [serveDecodedFrames_none _ (decodeGrpcFrame_waits hwell hsync hshort)]
      exact .stops _ todo suffix_rfl hsync rfl rfl (.inr hshort)
    rcases exists_frame hsync hshort with ⟨m, more, rest, rfl, rfl, hnext⟩
    rw [forall_mem_cons] at hwell
    rw [pairwise_cons] at hlast
    have hcons : payloads (m :: rest) = hunkData m ++ payloads rest := by simp [payloads]
    by_cases hempty : m = []
    . rw [hempty, serveDecodedFrames_empty]
      refine .stops _ rest (suffix_cons _ _) hnext rfl rfl (.inl ?_)
      exact fun m' hm' => hlast.left m' hm' hempty
    . rw [serveDecodedFrames_frame cap more hwell.left hempty]
      have hrest := serveDecodedFrames_served cap hcap ⟨more, hunkData m⟩ rest coming hwell.right
        hlast.right hnext
      exact hrest.of_next hcons.symm
  . have hpos := length_pos_iff.mpr hread
    rw [serveDecodedFrames_readBuf cap hread]
    refine .gives _ _ todo ?_ suffix_rfl hsync ?_
    . rw [← length_pos_iff, length_take]
      omega
    . rw [← append_assoc, take_append_drop]
termination_by todo.length
decreasing_by simp_all

theorem not_buffered_of_stop
    (hwell : ∀ m ∈ todo, WellFormed m) (hsync : s.recvBuf ++ coming = frames todo)
    (hstop : (∀ m ∈ todo, m = [])
      ∨ ∀ m ∈ todo.head?, s.recvBuf.length < (encodeGrpcFrame m).length)
    : ¬ Buffered s := by
  rintro ⟨ms, rest, hbuf, hms, m, hm, hne⟩
  have hpre : ms <+: todo := by
    apply prefix_of_frames ms todo rest hms
    . exact fun m hm => (hwell m hm).length
    . exact ⟨coming, by rw [← hbuf, hsync]⟩
  rcases hstop with hall | hshort
  . exact hne (hall m (hpre.subset hm))
  cases ms with
  | nil => cases hm
  | cons first ms =>
    rcases hpre with ⟨more, rfl⟩
    have hlt := hshort first rfl
    rw [hbuf, frames_cons, append_assoc, length_append] at hlt
    omega

theorem payloads_of_stop (hsync : s.recvBuf = frames todo) (hstop : (∀ m ∈ todo, m = [])
      ∨ ∀ m ∈ todo.head?, s.recvBuf.length < (encodeGrpcFrame m).length)
    : payloads todo = [] := by
  rcases hstop with hall | hshort
  . rw [payloads, flatMap_eq_nil_iff]
    intro m hm
    rw [hall m hm]
    rfl
  . cases todo with
    | nil => rfl
    | cons m todo =>
      have hlt := hshort m rfl
      rw [hsync, frames_cons, length_append] at hlt
      omega

inductive Polled (s : GrpcStream) (todo : List Bytes) (script : Script UInt8 ε)
    (s' : GrpcStream) (script' : Script UInt8 ε) (todo' : List Bytes)
    : Poll (Except (ReadError ε) Bytes) → Prop where
  | gives (bytes : Bytes) (hne : bytes ≠ [])
      (hdata : bytes ++ (s'.readBuf ++ payloads todo') = s.readBuf ++ payloads todo)
    : Polled s todo script s' script' todo' (.ready (.ok bytes))
  | waits (hlt : script'.length < script.length) (hbuffered : ¬ Buffered s')
      (hdata : s'.readBuf ++ payloads todo' = s.readBuf ++ payloads todo)
    : Polled s todo script s' script' todo' .pending
  | ends (hdata : s.readBuf ++ payloads todo = [])
    : Polled s todo script s' script' todo' (.ready (.ok []))

theorem pollRead_polled (cap : Nat) (hcap : 0 < cap) (s : GrpcStream) (script : Script UInt8 ε)
    (hscript : script.Sound) (todo : List Bytes) (hwell : ∀ m ∈ todo, WellFormed m)
    (hlast : todo.Pairwise fun m m' => m = [] → m' = [])
    (hsync : s.recvBuf ++ script.bytes = frames todo)
    : ∃ s' result script' todo', s.pollRead cap script = (s', result, script')
        ∧ script' <:+ script
        ∧ todo' <:+ todo
        ∧ s'.recvBuf ++ script'.bytes = frames todo'
        ∧ Polled s todo script s' script' todo' result := by
  have hserved : Served (ε := ε) s todo script.bytes (s.serveDecodedFrames cap) :=
    serveDecodedFrames_served cap hcap s todo _ hwell hlast hsync
  unfold pollRead
  generalize s.serveDecodedFrames cap = served at hserved
  cases hserved with
  | gives s' bytes todo' hne hsuffix hsync' hdata =>
    exact ⟨s', _, script, todo', rfl, suffix_rfl, hsuffix, hsync', .gives bytes hne hdata⟩
  | stops s' todo' hsuffix hsync' hempty hdata hstop =>
    have hwell' : ∀ m ∈ todo', WellFormed m := fun m hm => hwell m (hsuffix.subset hm)
    have hdata' : s'.readBuf ++ payloads todo' = s.readBuf ++ payloads todo := by
      rw [hempty, nil_append, hdata]
    match script with
    | [] =>
      refine ⟨s', _, [], todo', rfl, suffix_rfl, hsuffix, hsync', .ends ?_⟩
      rw [← hdata]
      exact payloads_of_stop ((append_nil _).symm.trans hsync') hstop
    | .pending :: script =>
      refine ⟨s', _, script, todo', rfl, suffix_cons _ _, hsuffix, hsync', ?_⟩
      apply Polled.waits (by simp) _ hdata'
      exact not_buffered_of_stop hwell' hsync' hstop
    | .ready (.error e) :: script => exact absurd mem_cons_self (hscript e)
    | .ready (.ok chunk) :: script =>
      have hscript' : Script.Sound script := fun e hmem => hscript e (mem_cons_of_mem _ hmem)
      have hlast' := hlast.sublist hsuffix.sublist
      have hsync'' : s'.recvBuf ++ chunk ++ Script.bytes script = frames todo' := by
        rw [append_assoc]
        exact hsync'
      rcases pollRead_polled cap hcap { s' with recvBuf := s'.recvBuf ++ chunk } script hscript'
        todo' hwell' hlast' hsync'' with
          ⟨s₂, result, script₂, todo₂, hpoll, hs, ht, hsync₂, hpolled⟩
      refine ⟨s₂, result, script₂, todo₂, hpoll, hs.trans (suffix_cons _ _),
        ht.trans hsuffix, hsync₂, ?_⟩
      cases hpolled with
      | gives bytes hne hbytes => exact .gives bytes hne (hbytes.trans hdata')
      | waits hlt hbuffered hbytes =>
        exact .waits (Nat.lt_succ_of_lt hlt) hbuffered (hbytes.trans hdata')
      | ends hnil => exact .ends (hdata'.symm.trans hnil)

end GrpcStream

structure Complete {ε : Type} (data : Bytes) (patience : Nat)
    (polls : List (GrpcStream × Poll (Except (ReadError ε) Bytes))) : Prop where
  sound : ∀ poll ∈ polls, ∀ e, poll.snd ≠ .ready (.error e)
  whole : .ready (.ok []) ∈ polls.map Prod.snd → beforeStop (polls.map Prod.snd) = data
  ends : patience < polls.length → .ready (.ok []) ∈ polls.map Prod.snd
  waits : ∀ poll ∈ polls, poll.snd = .pending → ¬ Buffered poll.fst

theorem Complete.cons {ε : Type} {data data' : Bytes} {patience patience' : Nat}
    {polls : List (GrpcStream × Poll (Except (ReadError ε) Bytes))}
    (h : Complete data' patience' polls)
    {poll : GrpcStream × Poll (Except (ReadError ε) Bytes)}
    (hsound : ∀ e, poll.snd ≠ .ready (.error e))
    (hwaits : poll.snd = .pending → ¬ Buffered poll.fst)
    (hwhole : .ready (.ok []) = poll.snd ∨ .ready (.ok []) ∈ polls.map Prod.snd →
      beforeStop (poll.snd :: polls.map Prod.snd) = data)
    (hends : patience < polls.length + 1 →
      .ready (.ok []) = poll.snd ∨ .ready (.ok []) ∈ polls.map Prod.snd)
    : Complete data patience (poll :: polls) where
  sound := forall_mem_cons.mpr ⟨hsound, h.sound⟩
  whole hmem := hwhole (mem_cons.mp hmem)
  ends hlong := mem_cons.mpr (hends hlong)
  waits := forall_mem_cons.mpr ⟨hwaits, h.waits⟩

namespace GrpcStream

variable {ε : Type}

theorem complete_run (caps : List Nat) (hcaps : ∀ cap ∈ caps, 0 < cap) (s : GrpcStream)
    (script : Script UInt8 ε) (hscript : script.Sound) (todo : List Bytes)
    (hwell : ∀ m ∈ todo, WellFormed m) (hlast : todo.Pairwise fun m m' => m = [] → m' = [])
    (hsync : s.recvBuf ++ script.bytes = frames todo)
    : Complete (s.readBuf ++ payloads todo) ((s.readBuf ++ payloads todo).length + script.length)
        (s.run caps script) := by
  induction caps generalizing s script todo with
  | nil => constructor <;> simp [run]
  | cons cap caps ih =>
    rw [forall_mem_cons] at hcaps
    rcases pollRead_polled cap hcaps.left s script hscript todo hwell hlast hsync with
      ⟨s', result, script', todo', hpoll, hsuffix, htodo, hsync', hpolled⟩
    have hrest := ih hcaps.right s' script' (fun e hmem => hscript e (hsuffix.subset hmem)) todo'
      (fun m hm => hwell m (htodo.subset hm)) (hlast.sublist htodo.sublist) hsync'
    have hle := hsuffix.length_le
    simp only [run, hpoll]
    cases hpolled with
    | gives bytes hne hdata =>
      have hpos := length_pos_iff.mpr hne
      have hlength := congrArg List.length hdata
      rw [length_append] at hlength
      refine hrest.cons (by simp) (by simp) ?_ ?_
      . rintro (hfirst | hmem)
        . cases hfirst
          exact absurd rfl hne
        . rw [beforeStop, if_neg (by simpa using hne), hrest.whole hmem, hdata]
      . intro hlong
        exact .inr (hrest.ends (by omega))
    | waits hlt hbuffered hdata =>
      rw [hdata] at hrest
      refine hrest.cons (by simp) (fun _ => hbuffered) ?_ ?_
      . rintro (hfirst | hmem)
        . cases hfirst
        . exact hrest.whole hmem
      . intro hlong
        exact .inr (hrest.ends (by omega))
    | ends hdata =>
      refine hrest.cons (by simp) (by simp) ?_ ?_
      . intro _
        rw [hdata]
        rfl
      . intro _
        exact .inl rfl

theorem run_congr {s s' : GrpcStream} {script : Script UInt8 ε}
    (h : ∀ cap, s.serveDecodedFrames (ε := ε) cap = s'.serveDecodedFrames cap)
    : s.run caps script = s'.run caps script := by
  cases caps with
  | nil => rfl
  | cons cap caps => rw [run, run, pollRead.eq_def, pollRead.eq_def cap s', h]

theorem run_stalls {front tail : List Bytes} (hwell : ∀ m ∈ front, WellFormed m)
    (hne : ∀ m ∈ front, m ≠ []) (hcap : ∀ m ∈ front, (hunkData m).length ≤ cap)
    : ∃ n, (⟨frames tail, []⟩, .pending)
        ∈ run (ε := ε) (replicate n cap) ⟨frames (front ++ [] :: tail), []⟩ [.pending] := by
  induction front with
  | nil =>
    refine ⟨1, ?_⟩
    rw [nil_append, frames_cons]
    simp only [replicate_one, run, pollRead, serveDecodedFrames_empty, mem_singleton]
  | cons m front ih =>
    rw [forall_mem_cons] at hwell hne hcap
    rcases ih hwell.right hne.right hcap.right with ⟨n, hn⟩
    rw [cons_append, frames_cons]
    have hserve (cap : Nat)
        : serveDecodedFrames (ε := ε) cap
            ⟨encodeGrpcFrame m ++ frames (front ++ [] :: tail), []⟩
          = serveDecodedFrames cap ⟨frames (front ++ [] :: tail), hunkData m⟩ :=
      serveDecodedFrames_frame cap _ hwell.left hne.left
    by_cases hdata : hunkData m = []
    . refine ⟨n, ?_⟩
      rw [hdata] at hserve
      rw [run_congr hserve]
      exact hn
    . refine ⟨n + 1, ?_⟩
      rw [run_congr hserve, replicate_succ, run, pollRead.eq_def,
        serveDecodedFrames_readBuf cap hdata, Nat.min_eq_left hcap.left, drop_length]
      exact mem_cons_of_mem _ hn

theorem run_chunk (caps : List Nat) (chunk : Bytes)
    : run (ε := ε) caps .new [.ready (.ok chunk), .pending] = run caps ⟨chunk, []⟩ [.pending] := by
  cases caps with
  | nil => rfl
  | cons cap caps =>
    rfl

end GrpcStream

theorem pairwise_of_complete {ε : Type} {front tail : List Bytes} (hfront : [] ∉ front)
    (hwell : ∀ m ∈ front ++ [] :: tail, WellFormed m)
    (h : ∀ caps : List Nat, (∀ cap ∈ caps, 0 < cap) →
      ∀ poll ∈ GrpcStream.run (ε := ε) caps .new
          [.ready (.ok (frames (front ++ [] :: tail))), .pending],
        poll.snd = .pending → ¬ Buffered poll.fst)
    : (front ++ [] :: tail).Pairwise fun m m' => m = [] → m' = [] := by
  have hne : ∀ m ∈ front, m ≠ [] := fun m hm hnil => hfront (hnil ▸ hm)
  have hcap : ∀ m ∈ front, (hunkData m).length ≤ (payloads front).length + 1 := by
    intro m hm
    have hsub := sublist_flatten_of_mem (mem_map_of_mem (f := hunkData) hm)
    exact Nat.le_succ_of_le hsub.length_le
  rcases GrpcStream.run_stalls (ε := ε)
    (fun m hm => hwell m (mem_append_left _ hm)) hne hcap with ⟨n, hn⟩
  rw [← GrpcStream.run_chunk] at hn
  have hwaits := h _ (by simp +contextual) _ hn rfl
  have hempty : ∀ m ∈ tail, m = [] := by
    intro m hm
    by_contra hm'
    have hall : ∀ m ∈ tail, m.length ≤ maxMessageSize := fun m hm =>
      (hwell m (mem_append_right _ (mem_cons_of_mem _ hm))).length
    exact hwaits ⟨tail, [], (append_nil _).symm, hall, m, hm, hm'⟩
  rw [pairwise_append]
  refine ⟨?_, ?_, ?_⟩
  . exact pairwise_of_forall_mem_list fun m hm _ _ hnil => absurd hnil (hne m hm)
  . rw [pairwise_cons]
    refine ⟨fun m hm _ => hempty m hm, ?_⟩
    exact pairwise_of_forall_mem_list fun _ _ m hm _ => hempty m hm
  . exact fun m hm _ _ hnil => absurd hnil (hne m hm)

end Blackwire.Grpc
