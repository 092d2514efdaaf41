import Blackwire.Lib.Fallible
import Blackwire.Common.Reading
import Blackwire.Net.IpNet

/-!
This module contains the destination addresses that the protocols share, with the encoder and the
decoder for addresses in the order of SOCKS5, and their verification: an address is read back from
what was written of it. The decoder is there once more with the indices and the slices of the source
as operations that can panic, and no index is out of range.
-/

namespace Blackwire

open Bytes

inductive Address where
  | ipv4 (ip : BitVec 32) (port : Nat)
  | ipv6 (ip : BitVec 128) (port : Nat)
  | domain (name : String) (port : Nat)
deriving DecidableEq

def Address.port : Address → Nat
  | ipv4 _ port => port
  | ipv6 _ port => port
  | domain _ port => port

def domainWireLen (name : String) : Except ProxyError UInt8 :=
  let len := (ofString name).length
  if len > 255 then
    .error (.protocol ("domain too long: " ++ toString len ++ " bytes"))
  else
    .ok (UInt8.ofNat len)

def writeSocks5Address (dest : Address) : Except ProxyError Bytes :=
  match dest with
  | .ipv4 ip port => .ok (0x01 :: (toBigEndian 4 ip.toNat ++ toBigEndian 2 port))
  | .ipv6 ip port => .ok (0x04 :: (toBigEndian 16 ip.toNat ++ toBigEndian 2 port))
  | .domain name port => do
    let len ← domainWireLen name
    return 0x03 :: len :: (ofString name ++ toBigEndian 2 port)

open Reading in
def readSocks5Address (atyp : UInt8) (proto : String) : Reading Address :=
  match atyp.toNat with
  | 0x01 => do
    let buf ← readExact 4
    let port ← readU16
    return .ipv4 (BitVec.ofNat 32 (ofBigEndian buf)) port
  | 0x04 => do
    let buf ← readExact 16
    let port ← readU16
    return .ipv6 (BitVec.ofNat 128 (ofBigEndian buf)) port
  | 0x03 => do
    let len ← readU8
    let name ← readExact len.toNat
    let port ← readU16
    match fromUtf8 name with
    | none => throw (.protocol (proto ++ ": domain name is not valid UTF-8"))
    | some domain => return .domain domain port
  | _ => throw (.protocol (proto ++ ": unknown ATYP " ++ hex atyp.toNat))

def decodeSocks5Address (data : List UInt8) (atyp : UInt8) (proto : String)
    : Except ProxyError (Address × Nat) :=
  match atyp.toNat with
  | 0x01 =>
    if data.length < 6 then
      .error (.protocol (proto ++ ": truncated IPv4 address"))
    else
      let ip := BitVec.ofNat 32 (ofBigEndian (data.take 4))
      .ok (.ipv4 ip (ofBigEndian ((data.drop 4).take 2)), 6)
  | 0x04 =>
    if data.length < 18 then
      .error (.protocol (proto ++ ": truncated IPv6 address"))
    else
      let ip := BitVec.ofNat 128 (ofBigEndian (data.take 16))
      .ok (.ipv6 ip (ofBigEndian ((data.drop 16).take 2)), 18)
  | 0x03 =>
    match data with
    | [] => .error (.protocol (proto ++ ": truncated domain length"))
    | len :: rest =>
      let n := len.toNat
      if data.length < 1 + n + 2 then
        .error (.protocol (proto ++ ": truncated domain address"))
      else
        match fromUtf8 (rest.take n) with
        | none => .error (.protocol (proto ++ ": invalid domain UTF-8"))
        | some name => .ok (.domain name (ofBigEndian ((rest.drop n).take 2)), 1 + n + 2)
  | _ => .error (.protocol (proto ++ ": unknown ATYP " ++ hex atyp.toNat))

namespace Indexed

def index (data : Bytes) (i : Nat) : Res Nat :=
  match data[i]? with
  | some b => return b.toNat
  | none => .error .panic

-- `u16::from_be_bytes([data[i], data[i + 1]])`.
def u16 (data : Bytes) (i : Nat) : Res Nat := do
  let high ← index data i
  let low ← index data (i + 1)
  return 256 * high + low

def range (data : Bytes) (start stop : Nat) : Res Bytes :=
  match slice data start stop with
  | some bytes => return bytes
  | none => .error .panic

theorem index_eq (h : i < data.length)
    : index data i = pure (byteAt data i) := by
  simp only [index, byteAt, List.getD_eq_getElem?_getD, List.getElem?_eq_getElem h,
    Option.getD_some]

theorem u16_eq (data : Bytes) (i : Nat) (h : i + 2 ≤ data.length)
    : u16 data i = pure (u16At data i) := by
  rw [u16, index_eq (by omega), index_eq (by omega)]
  rfl

theorem range_eq (data : Bytes) (start len : Nat) (h : start + len ≤ data.length)
    : range data start (start + len) = pure ((data.drop start).take len) := by
  rw [range, slice_of_le h]

theorem range_length_eq (h : start ≤ data.length)
    : range data start data.length = pure (data.drop start) := by
  have hlen : data.length = start + (data.drop start).length := by
    rw [List.length_drop]
    omega
  rw [hlen, range_eq data start _ (by omega), List.take_length]

def decodeSocks5Address (data : Bytes) (atyp : Nat) (proto : String) : Res (Address × Nat) :=
  match atyp with
  | 0x01 =>
    if data.length < 6 then
      fail (.protocol (proto ++ ": truncated IPv4 address"))
    else do
      let ip ← [0, 1, 2, 3].mapM (index data)
      let port ← u16 data 4
      return (.ipv4 (BitVec.ofNat 32 (ip.foldl (256 * · + ·) 0)) port, 6)
  | 0x04 =>
    if data.length < 18 then
      fail (.protocol (proto ++ ": truncated IPv6 address"))
    else do
      let ip ← range data 0 16
      let port ← u16 data 16
      return (.ipv6 (BitVec.ofNat 128 (ofBigEndian ip)) port, 18)
  | 0x03 =>
    if data.isEmpty then
      fail (.protocol (proto ++ ": truncated domain length"))
    else do
      let n ← index data 0
      if data.length < 1 + n + 2 then
        fail (.protocol (proto ++ ": truncated domain address"))
      else
        match fromUtf8 (← range data 1 (1 + n)) with
        | none => fail (.protocol (proto ++ ": invalid domain UTF-8"))
        | some name =>
          let port ← u16 data (1 + n)
          return (.domain name port, 1 + n + 2)
  | atyp => fail (.protocol (proto ++ ": unknown ATYP " ++ hex atyp))

end Indexed

open List

theorem toNat_of_domainWireLen (h : domainWireLen name = .ok len)
    : len.toNat = (ofString name).length := by
  unfold domainWireLen at h
  dsimp only at h
  split at h
  next => cases h
  next hshort =>
    cases h
    apply Nat.mod_eq_of_lt
    omega

theorem isOk_writeSocks5Address
    (h : ∀ name port, dest = .domain name port → (ofString name).length ≤ 255)
    : ∃ bytes, writeSocks5Address dest = .ok bytes := by
  cases dest with
  | ipv4 ip port => exact ⟨_, rfl⟩
  | ipv6 ip port => exact ⟨_, rfl⟩
  | domain name port =>
    have hlen := h name port rfl
    unfold writeSocks5Address domainWireLen
    dsimp only
    rw [if_neg (by omega)]
    exact ⟨_, rfl⟩

theorem decodeSocks5Address_ipv4 {data : Bytes} {proto : String} (h : 6 ≤ data.length)
    : decodeSocks5Address data 0x01 proto
        = .ok (.ipv4 (BitVec.ofNat 32 (ofBigEndian (data.take 4)))
            (ofBigEndian ((data.drop 4).take 2)), 6) := by
  apply if_neg
  omega

theorem decodeSocks5Address_ipv6 {data : Bytes} {proto : String} (h : 18 ≤ data.length)
    : decodeSocks5Address data 0x04 proto
        = .ok (.ipv6 (BitVec.ofNat 128 (ofBigEndian (data.take 16)))
            (ofBigEndian ((data.drop 16).take 2)), 18) := by
  apply if_neg
  omega

theorem decodeSocks5Address_domain {name proto : String} {len : UInt8} {rest : Bytes}
    (hlen : len.toNat = (ofString name).length) (h : 2 ≤ rest.length)
    : decodeSocks5Address (len :: (ofString name ++ rest)) 0x03 proto
        = .ok (.domain name (ofBigEndian (rest.take 2)), 1 + len.toNat + 2) := by
  have hlong : ¬(len :: (ofString name ++ rest)).length < 1 + len.toNat + 2 := by
    rw [length_cons, length_append]
    omega
  refine (if_neg hlong).trans ?_
  rw [take_left' hlen.symm, fromUtf8_ofString]
  rw [drop_left' hlen.symm]

theorem decodeSocks5Address_write (hport : dest.port < 65536)
    (h : writeSocks5Address dest = .ok bytes)
    : ∃ atyp front, bytes = atyp :: front
        ∧ ∀ rest proto, decodeSocks5Address (front ++ rest) atyp proto
          = .ok (dest, front.length) := by
  have hvalue (port : Nat) (hlt : port < 65536) (rest : Bytes)
      : ofBigEndian ((toBigEndian 2 port ++ rest).take 2) = port := by
    rw [take_left' (length_toBigEndian 2 port), ofBigEndian_toBigEndian]
    exact Nat.mod_eq_of_lt hlt
  cases dest with
  | ipv4 ip port =>
    cases h
    refine ⟨_, _, rfl, fun rest proto => ?_⟩
    rw [append_assoc, decodeSocks5Address_ipv4 (by simp; omega),
      take_left' (length_toBigEndian 4 _), drop_left' (length_toBigEndian 4 _),
      ofNat_ofBigEndian_toBigEndian 4 rfl, hvalue port hport, length_append,
      length_toBigEndian, length_toBigEndian]
  | ipv6 ip port =>
    cases h
    refine ⟨_, _, rfl, fun rest proto => ?_⟩
    rw [append_assoc, decodeSocks5Address_ipv6 (by simp; omega),
      take_left' (length_toBigEndian 16 _), drop_left' (length_toBigEndian 16 _),
      ofNat_ofBigEndian_toBigEndian 16 rfl, hvalue port hport, length_append,
      length_toBigEndian, length_toBigEndian]
  | domain name port =>
    simp only [writeSocks5Address, Fallible.bind_eq_ok, Fallible.pure_eq_ok] at h
    rcases h with ⟨len, hlen, rfl⟩
    have hname := toNat_of_domainWireLen hlen
    refine ⟨_, _, rfl, fun rest proto => ?_⟩
    rw [cons_append, append_assoc, decodeSocks5Address_domain hname (by simp), hvalue port hport,
      length_cons, length_append, length_toBigEndian, hname]
    congr 2
    omega

section Agreement

variable (proto : String) (s : Source UInt8 IoError)

-- How many bytes the address has that these bytes begin with.
def socks5Len (atyp : UInt8) (data : Bytes) : Nat :=
  match atyp.toNat with
  | 0x01 => 6
  | 0x04 => 18
  | 0x03 => 1 + (data.headD 0).toNat + 2
  | _ => 0

open Reading in
theorem exact_u16_eq (n : Nat) (f : Bytes → Nat → Reading Address)
    : (n + 2 ≤ s.items.length →
        (do f (← readExact n) (← readU16)) s
          = f (s.items.take n) (ofBigEndian ((s.items.drop n).take 2)) (s.skip (n + 2)))
      ∧ (s.items.length < n + 2 →
        ∃ s', (do f (← readExact n) (← readU16)) s
          = .error (.io (s.ending.error.getD .unexpectedEof)) s') := by
  rw [exact_bind, u16_bind, Source.items_skip, Source.skip_skip, length_drop]
  constructor
  . intro h
    rw [if_pos (by omega), if_pos (by omega)]
  . intro h
    split
    . rw [if_neg (by omega)]
      exact ⟨_, rfl⟩
    . exact ⟨_, rfl⟩

def namedAddress (name : Bytes) (port : Nat) : Reading Address :=
  match fromUtf8 name with
  | none => throw (.protocol (proto ++ ": domain name is not valid UTF-8"))
  | some domain => pure (.domain domain port)

theorem socks5_address_codec (proto : String)
    : (∀ dest : Address, dest.port < 65536 →
        (∀ name port, dest = .domain name port → (ofString name).length ≤ 255) →
        ∃ atyp front, writeSocks5Address dest = .ok (atyp :: front)
          ∧ ∀ rest, decodeSocks5Address (front ++ rest) atyp proto = .ok (dest, front.length))
      ∧ ∀ (s : Source UInt8 IoError) (atyp : UInt8),
        (s.items.length < socks5Len atyp s.items →
          (∃ what, decodeSocks5Address s.items atyp proto
            = .error (.protocol (proto ++ (": truncated " ++ what))))
          ∧ ∃ s', readSocks5Address atyp proto s
            = .error (.io (s.ending.error.getD .unexpectedEof)) s')
        ∧ (socks5Len atyp s.items ≤ s.items.length →
          (∃ dest, decodeSocks5Address s.items atyp proto = .ok (dest, socks5Len atyp s.items)
            ∧ readSocks5Address atyp proto s = .ok dest (s.skip (socks5Len atyp s.items)))
          ∨ ∃ e e' s', decodeSocks5Address s.items atyp proto = .error e
            ∧ readSocks5Address atyp proto s = .error e' s') := by
  constructor
  . intro dest hport hname
    rcases isOk_writeSocks5Address hname with ⟨bytes, hwrite⟩
    rcases decodeSocks5Address_write hport hwrite with ⟨atyp, front, rfl, hdecode⟩
    exact ⟨atyp, front, hwrite, fun rest => hdecode rest proto⟩
  intro s atyp
  unfold socks5Len decodeSocks5Address readSocks5Address
  generalize atyp.toNat = kind
  match kind with
  | 0x01 =>
    rcases exact_u16_eq s 4 (fun buf port =>
      pure (.ipv4 (BitVec.ofNat 32 (ofBigEndian buf)) port)) with ⟨hlong, hshort⟩
    refine ⟨fun h => ⟨⟨"IPv4 address", if_pos h⟩, hshort h⟩, fun h => .inl ⟨_, ?_, hlong h⟩⟩
    exact if_neg (Nat.not_lt_of_le h)
  | 0x04 =>
    rcases exact_u16_eq s 16 (fun buf port =>
      pure (.ipv6 (BitVec.ofNat 128 (ofBigEndian buf)) port)) with ⟨hlong, hshort⟩
    refine ⟨fun h => ⟨⟨"IPv6 address", if_pos h⟩, hshort h⟩, fun h => .inl ⟨_, ?_, hlong h⟩⟩
    exact if_neg (Nat.not_lt_of_le h)
  | 0x03 =>
    cases hs : s.items with
    | nil =>
      exact ⟨fun _ => ⟨⟨"domain length", rfl⟩, _, Reading.u8_bind_nil hs _⟩,
        fun h => absurd h (by simp)⟩
    | cons len rest =>
      have hrest : (s.skip 1).items = rest := by rw [Source.items_skip, hs]; rfl
      rcases exact_u16_eq (s.skip 1) len.toNat (namedAddress proto) with ⟨hlong, hend⟩
      rw [hrest, Source.skip_skip] at hlong
      rw [hrest] at hend
      constructor
      . intro h
        have hshort : rest.length + 1 < 1 + len.toNat + 2 := h
        rcases hend (by omega) with ⟨s', hread⟩
        exact ⟨⟨"domain address", if_pos hshort⟩, s', (Reading.u8_bind_cons hs _).trans hread⟩
      . intro h
        have hle : 1 + len.toNat + 2 ≤ rest.length + 1 := h
        have hread := hlong (by omega)
        cases hname : fromUtf8 (rest.take len.toNat) with
        | none =>
          rw [namedAddress, hname] at hread
          refine .inr ⟨.protocol (proto ++ ": invalid domain UTF-8"), _, _,
            (if_neg (Nat.not_lt_of_le hle)).trans ?_, (Reading.u8_bind_cons hs _).trans hread⟩
          rw [hname]
        | some name =>
          rw [namedAddress, hname, ← Nat.add_assoc] at hread
          refine .inl ⟨_, (if_neg (Nat.not_lt_of_le hle)).trans ?_,
            (Reading.u8_bind_cons hs _).trans hread⟩
          rw [hname]
          rfl
  | 0 | 2 | _ + 5 => exact ⟨fun h => absurd h (by simp), fun _ => .inr ⟨_, _, _, rfl, rfl⟩⟩

theorem socks5_address_codec_truncated
    : ∃ s', readSocks5Address 0x03 "SOCKS5" (.ofSegments [[3], [97, 46], [98, 0]])
        = .error (.io .unexpectedEof) s' :=
  (((socks5_address_codec "SOCKS5").right _ 0x03).left (by decide)).right

end Agreement

namespace Indexed

theorem mapM_index_eq (h : 4 ≤ data.length)
    : [0, 1, 2, 3].mapM (index data) = pure ((data.take 4).map UInt8.toNat) := by
  match data, h with
  | _ :: _ :: _ :: _ :: _, _ => rfl

theorem decodeSocks5Address_eq (data : Bytes) (atyp : UInt8) (proto : String)
    : decodeSocks5Address data atyp.toNat proto
        = (Blackwire.decodeSocks5Address data atyp proto).mapError .error := by
  unfold decodeSocks5Address Blackwire.decodeSocks5Address
  generalize atyp.toNat = kind
  match kind with
  | 0x01 =>
    by_cases hshort : data.length < 6
    . simp only [if_pos hshort]
      rfl
    . rw [mapM_index_eq (by omega), u16_eq data 4 (by omega), u16At_eq data 4 (by omega)]
      simp only [if_neg hshort, pure_bind, foldl_map]
      rfl
  | 0x04 =>
    by_cases hshort : data.length < 18
    . simp only [if_pos hshort]
      rfl
    . rw [range_eq data 0 16 (by omega), u16_eq data 16 (by omega), u16At_eq data 16 (by omega)]
      simp only [if_neg hshort]
      rfl
  | 0x03 =>
    cases data with
    | nil => rfl
    | cons len rest =>
      by_cases hshort : (len :: rest).length < 1 + len.toNat + 2
      . rw [index_eq (by simp)]
        simp only [pure_bind, show byteAt (len :: rest) 0 = len.toNat from rfl, if_pos hshort]
        rfl
      . rw [index_eq (by simp)]
        simp only [pure_bind, show byteAt (len :: rest) 0 = len.toNat from rfl, if_neg hshort]
        rw [range_eq _ 1 _ (by omega), u16_eq _ _ (by omega), u16At_eq _ _ (by omega)]
        rw [pure_bind, drop_succ_cons, drop_zero, Nat.add_comm 1, drop_succ_cons]
        cases fromUtf8 (rest.take len.toNat) with
        | none => rfl
        | some name => rfl
  | 0 | 2 | _ + 5 => rfl

end Indexed

end Blackwire
