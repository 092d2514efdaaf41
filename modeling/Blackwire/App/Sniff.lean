import Blackwire.Common.Address
import Blackwire.Lib.Fallible
import Blackwire.Tls.ClientHello

/-!
This module contains the parser that finds the host name in the first record of a TLS connection,
and its verification. Every index and every slice is an operation that can panic.
-/

namespace Blackwire.Sniff

open Bytes Indexed

def serverName (data : Bytes) (etype elen pos : Nat) : Res (Option (Nat × Nat)) :=
  if etype = 0 ∧ elen > 5 then do
    let nameType ← index data (pos + 2)
    if nameType = 0 then
      let nameLen ← u16 data (pos + 3)
      if pos + 5 + nameLen ≤ data.length then
        return some (pos + 5, pos + 5 + nameLen)
      else
        return none
    else
      return none
  else
    return none

-- The loop over the extensions. Each of them has four bytes at least.
def extensions (data : Bytes) (stop : Nat) (fuel pos : Nat) : Res (Option (Nat × Nat)) :=
  match fuel with
  | 0 => return none
  | fuel + 1 =>
    if pos + 4 ≤ min stop data.length then do
      let etype ← u16 data pos
      let elen ← u16 data (pos + 2)
      if pos + 4 + elen > data.length then
        return none
      else
        match ← serverName data etype elen (pos + 4) with
        | some found => return some found
        | none => extensions data stop fuel (pos + 4 + elen)
    else
      return none

def helloFields (data : Bytes) (pos : Nat) : Res (Option (Nat × Nat)) :=
  if pos ≥ data.length then
    return none
  else do
    let sessLen ← index data pos
    let pos := pos + (1 + sessLen)
    if pos + 2 > data.length then
      return none
    else
      let suitesLen ← u16 data pos
      let pos := pos + (2 + suitesLen)
      if pos ≥ data.length then
        return none
      else
        let compLen ← index data pos
        let pos := pos + (1 + compLen)
        if pos + 2 > data.length then
          return none
        else
          let extLen ← u16 data pos
          let pos := pos + 2
          extensions data (Usize.saturatingAdd pos extLen) data.length pos

def sniRange (data : Bytes) : Res (Option (Nat × Nat)) :=
  if data.length < 5 then
    return none
  else do
    let recordType ← index data 0
    if recordType ≠ 0x16 then
      return none
    else if 5 ≥ data.length then
      return none
    else
      let msgType ← index data 5
      if msgType ≠ 0x01 then
        return none
      else
        helloFields data (5 + 4 + (2 + 32))

def tlsSni (data : Bytes) : Res (Option String) := do
  match ← sniRange data with
  | none => return none
  | some (start, stop) =>
    let name ← range data start stop
    return fromUtf8 name

open Fallible Tls ClientHelloBuilder
open List hiding range Vector

section

variable (data : Bytes)

def suitesAt : Nat := 44 + byteAt data 43

def compressionAt : Nat := suitesAt data + (2 + u16At data (suitesAt data))

def extensionsAt : Nat := compressionAt data + (1 + byteAt data (compressionAt data))

def extensionsStart : Nat := extensionsAt data + 2

def extensionsStop : Nat :=
  min (Usize.saturatingAdd (extensionsStart data) (u16At data (extensionsAt data))) data.length

def IsHello : Prop :=
  5 < data.length ∧ byteAt data 0 = 0x16 ∧ byteAt data 5 = 0x01 ∧ 43 < data.length
    ∧ suitesAt data + 2 ≤ data.length ∧ compressionAt data < data.length
    ∧ extensionsAt data + 2 ≤ data.length

instance : Decidable (IsHello data) :=
  inferInstanceAs (Decidable (_ ∧ _))

def nameLength (pos : Nat) : Nat := u16At data (pos + 7)

def nameIn (pos : Nat) (e : Tlv.Entry) : Option (Nat × Nat) :=
  if (e.tag = 0 ∧ e.content.length > 5) ∧ byteAt data (pos + 6) = 0
      ∧ pos + 9 + nameLength data pos ≤ data.length then
    some (pos + 9, pos + 9 + nameLength data pos)
  else
    none

-- The extension at `pos` is the first one for a server name with a host name that fits in.
def FirstName : Nat → Tlv.Entry → Prop :=
  Tlv.First data (extensionsStop data) (nameIn data) (extensionsStart data)

end

variable (data : Bytes)

theorem serverName_eq (e : Tlv.Entry) (pos : Nat) (h : pos + 4 + e.content.length ≤ data.length)
    : serverName data e.tag e.content.length (pos + 4) = pure (nameIn data pos e) := by
  unfold serverName nameIn nameLength
  by_cases htag : e.tag = 0 ∧ e.content.length > 5
  . rw [if_pos htag, index_eq (by omega), u16_eq _ _ (by omega), pure_bind]
    by_cases htype : byteAt data (pos + 6) = 0
    . rw [if_pos htype, pure_bind]
      by_cases hfits : pos + 9 + u16At data (pos + 7) ≤ data.length
      . rw [if_pos hfits, if_pos ⟨htag, htype, hfits⟩]
      . rw [if_neg hfits, if_neg (fun h => hfits h.right.right)]
    . rw [if_neg htype, if_neg (fun h => htype h.right.left)]
  . rw [if_neg htag, if_neg (fun h => htag h.left)]

theorem extensions_eq (stop fuel pos : Nat)
    : extensions data stop fuel pos
        = pure (Tlv.search data (min stop data.length) (nameIn data) fuel pos) := by
  induction fuel generalizing pos with
  | zero => rfl
  | succ fuel ih =>
    unfold extensions Tlv.search
    by_cases hstop : pos + 4 ≤ min stop data.length
    . rw [if_pos hstop, u16_eq data pos (by omega), u16_eq data (pos + 2) (by omega), pure_bind,
        pure_bind]
      unfold Tlv.next
      rw [if_pos hstop]
      by_cases hlong : pos + 4 + u16At data (pos + 2) > data.length
      . rw [if_pos hlong, if_pos hlong]
      rw [if_neg hlong, if_neg hlong]
      have hlength : ((data.drop (pos + 4)).take (u16At data (pos + 2))).length
          = u16At data (pos + 2) := by
        rw [length_take, length_drop]
        omega
      have hname := serverName_eq data
        ⟨u16At data pos, (data.drop (pos + 4)).take (u16At data (pos + 2))⟩ pos
        (by dsimp only; omega)
      dsimp only at hname ⊢
      rw [hlength] at hname
      rw [hname, pure_bind, ih]
      cases nameIn data pos _ with
      | none => rfl
      | some found => rfl
    . rw [if_neg hstop, Tlv.next, if_neg hstop]

theorem helloFields_eq
    : helloFields data 43
        = pure (if 43 < data.length ∧ suitesAt data + 2 ≤ data.length
              ∧ compressionAt data < data.length ∧ extensionsAt data + 2 ≤ data.length then
            Tlv.search data (extensionsStop data) (nameIn data) data.length (extensionsStart data)
          else
            none) := by
  unfold helloFields
  by_cases hsession : 43 ≥ data.length
  . rw [if_pos hsession, if_neg (by omega)]
  rw [if_neg hsession, index_eq (by omega), pure_bind]
  rw [show 43 + (1 + byteAt data 43) = suitesAt data by unfold suitesAt; omega]
  by_cases hsuites : suitesAt data + 2 > data.length
  . rw [if_pos hsuites, if_neg (by omega)]
  rw [if_neg hsuites, u16_eq data _ (by omega), pure_bind, ← compressionAt]
  by_cases hcompression : compressionAt data ≥ data.length
  . rw [if_pos hcompression, if_neg (by omega)]
  rw [if_neg hcompression, index_eq (by omega), pure_bind, ← extensionsAt]
  by_cases hextensions : extensionsAt data + 2 > data.length
  . rw [if_pos hextensions, if_neg (by omega)]
  . rw [if_neg hextensions, if_pos (by omega), u16_eq data _ (by omega), pure_bind,
      extensions_eq]
    rfl

theorem sniRange_eq
    : sniRange data
        = pure (if IsHello data then
            Tlv.search data (extensionsStop data) (nameIn data) data.length (extensionsStart data)
          else
            none) := by
  unfold sniRange
  by_cases hshort : data.length < 5
  . rw [if_pos hshort, if_neg (fun h : IsHello data => absurd h.left (by omega))]
  rw [if_neg hshort, index_eq (by omega), pure_bind]
  by_cases hrecord : byteAt data 0 ≠ 0x16
  . rw [if_pos hrecord, if_neg (fun h : IsHello data => hrecord h.right.left)]
  rw [if_neg hrecord]
  by_cases hbody : 5 ≥ data.length
  . rw [if_pos hbody, if_neg (fun h : IsHello data => absurd h.left (by omega))]
  rw [if_neg hbody, index_eq (by omega), pure_bind]
  by_cases hmsg : byteAt data 5 ≠ 0x01
  . rw [if_pos hmsg, if_neg (fun h : IsHello data => hmsg h.right.right.left)]
  rw [if_neg hmsg, helloFields_eq]
  by_cases hhello : IsHello data
  . rw [if_pos hhello, if_pos hhello.right.right.right]
  . rw [if_neg hhello, if_neg]
    intro h
    exact hhello ⟨by omega, not_not.mp hrecord, not_not.mp hmsg, h⟩

theorem sniRange_eq_some_iff
    : sniRange data = .ok (some (start, stop))
        ↔ IsHello data ∧ ∃ pos e,
          FirstName data pos e ∧ nameIn data pos e = some (start, stop) := by
  rw [sniRange_eq, pure_eq_ok]
  by_cases hhello : IsHello data
  . rw [if_pos hhello]
    have hpos : data.length < extensionsStart data + data.length := by
      unfold extensionsStart
      omega
    rw [Tlv.search_eq_some_iff data.length (extensionsStart data) hpos]
    exact ⟨fun h => ⟨hhello, h⟩, fun h => h.right⟩
  . rw [if_neg hhello]
    exact ⟨nofun, fun h => absurd h.left hhello⟩

theorem nameIn_eq_some {data : Bytes} (h : nameIn data pos e = some (start, stop))
    : e.tag = 0 ∧ 5 < e.content.length ∧ start = pos + 9 ∧ stop = pos + 9 + nameLength data pos
        ∧ stop ≤ data.length := by
  unfold nameIn at h
  split at h
  next hname =>
    cases h
    exact ⟨hname.left.left, hname.left.right, rfl, rfl, hname.right.right⟩
  next => cases h

theorem tlsSni_ne_panic : tlsSni data ≠ .error .panic := by
  unfold tlsSni
  rw [sniRange_eq, pure_bind]
  split
  next => nofun
  next start stop hsome =>
    have hrange : sniRange data = .ok (some (start, stop)) := by
      rw [sniRange_eq, hsome]
      rfl
    rw [sniRange_eq_some_iff] at hrange
    rcases hrange with ⟨_, pos, e, _, hname⟩
    rcases nameIn_eq_some hname with ⟨_, _, rfl, rfl, hstop⟩
    rw [range_eq data _ _ hstop]
    nofun

theorem tlsSni_eq_some_iff
    : tlsSni data = .ok (some name)
        ↔ ∃ start stop, sniRange data = .ok (some (start, stop))
          ∧ slice data start stop = some (ofString name) := by
  unfold tlsSni
  simp only [bind_eq_ok]
  constructor
  . rintro ⟨found, hfound, h⟩
    match found, h with
    | some (start, stop), h =>
      simp only [bind_eq_ok, pure_eq_ok] at h
      rcases h with ⟨bytes, hbytes, hname⟩
      refine ⟨start, stop, hfound, ?_⟩
      rw [ofString_of_fromUtf8 bytes name hname]
      unfold range at hbytes
      split at hbytes
      next hslice =>
        cases hbytes
        exact hslice
      next => cases hbytes
  . rintro ⟨start, stop, hfound, hslice⟩
    refine ⟨_, hfound, ?_⟩
    simp only [range, hslice, pure_bind, fromUtf8_ofString]
    rfl

def NameInside (data : Bytes) (name : String) : Prop :=
  ∃ pos mid e start stop,
    Tlv.Reaches data (extensionsStop data) (extensionsStart data) pos
    ∧ Tlv.next data (extensionsStop data) pos = .entry e mid ∧ e.tag = 0
    ∧ sniRange data = .ok (some (start, stop)) ∧ slice data start stop = some (ofString name)
    ∧ pos + 4 ≤ start ∧ stop ≤ mid

/--
Where there is a first host name and it is valid, its length leaves it in its extension.
-/
def NameLengthFits (data : Bytes) : Prop :=
  ∀ pos e, IsHello data → FirstName data pos e →
    (fromUtf8 ((data.drop (pos + 9)).take (nameLength data pos))).isSome →
    5 + nameLength data pos ≤ e.content.length

theorem nameInside_iff
    : (∀ name, tlsSni data = .ok (some name) → NameInside data name) ↔ NameLengthFits data := by
  constructor
  . intro h pos e hhello hfirst hvalid
    rcases Option.isSome_iff_exists.mp hvalid with ⟨name, hname⟩
    rcases hfirst.reaches with ⟨hreaches, mid, hnext⟩
    rcases Option.isSome_iff_exists.mp hfirst.isSome with ⟨⟨start, stop⟩, hin⟩
    have hrange := (sniRange_eq_some_iff data).mpr ⟨hhello, pos, e, hfirst, hin⟩
    rcases nameIn_eq_some hin with ⟨_, hlong, rfl, rfl, hstop⟩
    have hslice : slice data (pos + 9) (pos + 9 + nameLength data pos) = some (ofString name) := by
      rw [slice_of_le hstop, ofString_of_fromUtf8 _ _ hname]
    have hinside := h name ((tlsSni_eq_some_iff data).mpr ⟨_, _, hrange, hslice⟩)
    rcases hinside with
        ⟨pos', mid', e', start, stop, hreaches', hnext', _, hrange', _, hstart, hmid⟩
    rw [hrange] at hrange'
    cases hrange'
    have hpos := Tlv.next_eq_entry _ _ _ _ _ hnext
    have hpos' := Tlv.next_eq_entry _ _ _ _ _ hnext'
    rcases hreaches.disjoint hreaches' hnext hnext' with rfl | hbehind | hbefore
    . rw [hnext] at hnext'
      omega
    . omega
    . omega
  . intro h name hname
    rcases (tlsSni_eq_some_iff data).mp hname with ⟨start, stop, hrange, hslice⟩
    rcases (sniRange_eq_some_iff data).mp hrange with ⟨hhello, pos, e, hfirst, hin⟩
    rcases hfirst.reaches with ⟨hreaches, mid, hnext⟩
    rcases nameIn_eq_some hin with ⟨htag, _, rfl, rfl, hstop⟩
    have hpos := Tlv.next_eq_entry _ _ _ _ _ hnext
    have hvalid : fromUtf8 ((data.drop (pos + 9)).take (nameLength data pos)) = some name := by
      rw [slice_of_le hstop, Option.some.injEq] at hslice
      rw [hslice, fromUtf8_ofString]
    have hlength := h pos e hhello hfirst (by rw [hvalid]; rfl)
    exact ⟨pos, mid, e, _, _, hreaches, hnext, htag, hrange, hslice, by omega, by omega⟩

structure ClientHello where
  recordVersion : Nat
  version : Nat
  random : Vector UInt8 32
  sessionId : Bytes
  suites : List Nat
  compression : Bytes
  extensions : List Tlv.Entry
  sessionId_le : sessionId.length ≤ 32
  compression_lt : compression.length < 256
  sized : ∀ e ∈ extensions, e.Sized
  record_lt : 44 + sessionId.length + 2 * suites.length + compression.length
    + (extensions.flatMap Tlv.encode).length < 65536
  nodup : (extensions.map Tlv.Entry.tag).Nodup

namespace ClientHello

variable (hello : ClientHello)

def body : Bytes :=
  toBigEndian 2 hello.version ++ hello.random.toList
    ++ (UInt8.ofNat hello.sessionId.length :: hello.sessionId)
    ++ (toBigEndian 2 (2 * hello.suites.length) ++ putU16s hello.suites)
    ++ (UInt8.ofNat hello.compression.length :: hello.compression)
    ++ (toBigEndian 2 (hello.extensions.flatMap Tlv.encode).length
      ++ hello.extensions.flatMap Tlv.encode)

def record : Bytes :=
  let handshake := [0x01] ++ toBigEndian 3 hello.body.length ++ hello.body
  [0x16] ++ toBigEndian 2 hello.recordVersion ++ toBigEndian 2 handshake.length ++ handshake

def beforeMessage : Bytes :=
  [0x16] ++ toBigEndian 2 hello.recordVersion ++ toBigEndian 2 (4 + hello.body.length)

def beforeSession : Bytes :=
  hello.beforeMessage ++ [0x01] ++ toBigEndian 3 hello.body.length
    ++ (toBigEndian 2 hello.version ++ hello.random.toList)

def beforeSuites : Bytes :=
  hello.beforeSession ++ (UInt8.ofNat hello.sessionId.length :: hello.sessionId)

def beforeCompression : Bytes :=
  hello.beforeSuites ++ (toBigEndian 2 (2 * hello.suites.length) ++ putU16s hello.suites)

def beforeExtensions : Bytes :=
  hello.beforeCompression ++ (UInt8.ofNat hello.compression.length :: hello.compression)

def front : Bytes :=
  hello.beforeExtensions ++ toBigEndian 2 (hello.extensions.flatMap Tlv.encode).length

theorem record_eq : hello.record = hello.front ++ hello.extensions.flatMap Tlv.encode := by
  have hlen : ([0x01] ++ toBigEndian 3 hello.body.length ++ hello.body).length
      = 4 + hello.body.length := by
    simp only [length_append, length_singleton, length_toBigEndian]
  unfold record
  dsimp only
  rw [hlen]
  simp only [front, beforeExtensions, beforeCompression, beforeSuites, beforeSession, beforeMessage]
  rw [show hello.body = _ from rfl, body]
  simp only [append_assoc]

theorem length_beforeSession : hello.beforeSession.length = 43 := by
  simp [beforeSession, beforeMessage]

theorem length_beforeSuites : hello.beforeSuites.length = 44 + hello.sessionId.length := by
  simp only [beforeSuites, length_append, length_cons, length_beforeSession]
  omega

theorem length_beforeCompression
    : hello.beforeCompression.length
        = hello.beforeSuites.length + (2 + 2 * hello.suites.length) := by
  simp only [beforeCompression, length_append, length_toBigEndian, length_putU16s]

theorem length_beforeExtensions
    : hello.beforeExtensions.length
        = hello.beforeCompression.length + (1 + hello.compression.length) := by
  simp only [beforeExtensions, length_append, length_cons]
  omega

theorem length_front : hello.front.length = hello.beforeExtensions.length + 2 := by
  simp only [front, length_append, length_toBigEndian]

section

variable {rest data : Bytes}
  (hdata : data = hello.front ++ (hello.extensions.flatMap Tlv.encode ++ rest))

include hdata

theorem suitesAt_eq : suitesAt data = hello.beforeSuites.length := by
  have hbyte : byteAt data 43 = (UInt8.ofNat hello.sessionId.length).toNat := by
    apply byteAt_of_eq hello.beforeSession _ hello.length_beforeSession
    rw [hdata]
    simp only [front, beforeExtensions, beforeCompression, beforeSuites, append_assoc]
    rfl
  have hle := hello.sessionId_le
  rw [suitesAt, hbyte, UInt8.toNat_ofNat', length_beforeSuites]
  omega

theorem compressionAt_eq : compressionAt data = hello.beforeCompression.length := by
  have hlen : u16At data hello.beforeSuites.length = 2 * hello.suites.length % 65536 := by
    apply u16At_of_eq hello.beforeSuites _ rfl
    rw [hdata]
    simp only [front, beforeExtensions, beforeCompression, append_assoc]
    rfl
  have hlt := hello.record_lt
  rw [compressionAt, hello.suitesAt_eq hdata, hlen, length_beforeCompression]
  omega

theorem extensionsAt_eq : extensionsAt data = hello.beforeExtensions.length := by
  have hbyte : byteAt data hello.beforeCompression.length
      = (UInt8.ofNat hello.compression.length).toNat := by
    apply byteAt_of_eq hello.beforeCompression _ rfl
    rw [hdata]
    simp only [front, beforeExtensions, append_assoc]
    rfl
  have hlt := hello.compression_lt
  rw [extensionsAt, hello.compressionAt_eq hdata, hbyte, UInt8.toNat_ofNat',
    length_beforeExtensions]
  omega

theorem extensionsStart_eq : extensionsStart data = hello.front.length := by
  rw [extensionsStart, hello.extensionsAt_eq hdata, length_front]

theorem extensionsStop_eq
    : extensionsStop data
        = hello.front.length + (hello.extensions.flatMap Tlv.encode).length := by
  have hlen : u16At data hello.beforeExtensions.length
      = (hello.extensions.flatMap Tlv.encode).length % 65536 := by
    apply u16At_of_eq hello.beforeExtensions _ rfl
    rw [hdata]
    simp only [front, append_assoc]
    rfl
  have hlt := hello.record_lt
  have hlength := congrArg List.length hdata
  simp only [length_append] at hlength
  have hfront : hello.front.length < 131072 := by
    rw [length_front, length_beforeExtensions, length_beforeCompression, length_beforeSuites]
    omega
  rw [extensionsStop, hello.extensionsStart_eq hdata,
    hello.extensionsAt_eq hdata, hlen, Nat.mod_eq_of_lt (by omega),
    Usize.saturatingAdd_eq _ _ (by omega), Nat.min_eq_left (by omega)]

theorem isHello : IsHello data := by
  have hrecord : byteAt data 0 = (0x16 : UInt8).toNat := by
    rw [hdata]
    rfl
  have hmessage : byteAt data 5 = (0x01 : UInt8).toNat := by
    apply byteAt_of_eq hello.beforeMessage _ (by simp [beforeMessage])
    rw [hdata]
    rfl
  have hlength := congrArg List.length hdata
  simp only [length_append] at hlength
  have h1 := hello.length_front
  have h2 := hello.length_beforeExtensions
  have h3 := hello.length_beforeCompression
  have h4 := hello.length_beforeSuites
  refine ⟨by omega, hrecord, hmessage, by omega, ?_, ?_, ?_⟩
  . rw [hello.suitesAt_eq hdata]
    omega
  . rw [hello.compressionAt_eq hdata]
    omega
  . rw [hello.extensionsAt_eq hdata]
    omega

end

end ClientHello

theorem length_ofString_pos (hne : host ≠ "") : 0 < (ofString host).length := by
  rw [length_pos_iff]
  intro hnil
  have hround := fromUtf8_ofString host
  rw [hnil, show fromUtf8 [] = some "" from rfl] at hround
  cases hround
  exact hne rfl

section

variable (front rest data : Bytes) (host : String)
  (hdata : data = front ++ (Tlv.encode ⟨0, extServerName host⟩ ++ rest))

include hdata

theorem slice_extServerName
    : slice data (front.length + 9) (front.length + 9 + (ofString host).length)
        = some (ofString host) := by
  have hsplit : data = (front ++ (toBigEndian 2 0 ++ toBigEndian 2 (extServerName host).length
      ++ toBigEndian 2 (1 + 2 + (ofString host).length) ++ [0x00]
      ++ toBigEndian 2 (ofString host).length)) ++ (ofString host ++ rest) := by
    rw [hdata]
    simp only [Tlv.encode, extServerName, append_assoc]
  rw [slice_of_le (by rw [hsplit]; simp; omega), hsplit, drop_left' (by simp), take_left]

variable (hlt : (extServerName host).length < 65536)

include hlt

theorem nameLength_extServerName : nameLength data front.length = (ofString host).length := by
  have hlength := length_extServerName host
  have hlen : u16At data (front.length + 7) = (ofString host).length % 65536 := by
    apply u16At_of_eq (front ++ (toBigEndian 2 0 ++ toBigEndian 2 (extServerName host).length
      ++ toBigEndian 2 (1 + 2 + (ofString host).length) ++ [0x00])) (ofString host ++ rest)
      (by simp)
    rw [hdata]
    simp only [Tlv.encode, extServerName, append_assoc]
  rw [nameLength, hlen]
  apply Nat.mod_eq_of_lt
  omega

theorem nameIn_extServerName (hne : host ≠ "")
    : nameIn data front.length ⟨0, extServerName host⟩
        = some (front.length + 9, front.length + 9 + (ofString host).length) := by
  have hpos := length_ofString_pos hne
  have hlength := length_extServerName host
  have htype : byteAt data (front.length + 6) = (0x00 : UInt8).toNat := by
    apply byteAt_of_eq (front ++ (toBigEndian 2 0 ++ toBigEndian 2 (extServerName host).length
      ++ toBigEndian 2 (1 + 2 + (ofString host).length)))
      (toBigEndian 2 (ofString host).length ++ (ofString host ++ rest)) (by simp)
    rw [hdata]
    simp only [Tlv.encode, extServerName, append_assoc, cons_append, nil_append]
  have hfits : front.length + 9 + (ofString host).length ≤ data.length := by
    rw [hdata, length_append, length_append, Tlv.length_encode]
    dsimp only
    omega
  unfold nameIn
  rw [nameLength_extServerName front rest data host hdata hlt]
  apply if_pos
  dsimp only
  exact ⟨⟨rfl, by omega⟩, htype, hfits⟩

end

theorem tlsSni_record {hello : ClientHello} (hne : host ≠ "")
    (hmem : ⟨0, extServerName host⟩ ∈ hello.extensions)
    : tlsSni (hello.record ++ rest) = .ok (some host) := by
  rcases append_of_mem hmem with ⟨pre, post, hsplit⟩
  generalize hdata : hello.record ++ rest = data
  rw [hello.record_eq, append_assoc] at hdata
  have hsized := hello.sized
  have hnodup := hello.nodup
  rw [hsplit] at hsized hnodup
  rw [map_append, map_cons, nodup_append] at hnodup
  have hlast : (⟨0, extServerName host⟩ : Tlv.Entry).Sized := hello.sized _ hmem
  have hpre (e : Tlv.Entry) (he : e ∈ pre) (pos : Nat) : nameIn data pos e = none := by
    have htag : e.tag ≠ 0 := by
      apply hnodup.right.right _ (mem_map_of_mem he)
      exact mem_cons_self
    unfold nameIn
    rw [if_neg (fun h => htag h.left.left)]
  have hsplit' : data = (hello.front ++ pre.flatMap Tlv.encode)
      ++ (Tlv.encode ⟨0, extServerName host⟩ ++ (post.flatMap Tlv.encode ++ rest)) := by
    rw [← hdata, hsplit]
    simp only [flatMap_append, flatMap_cons, append_assoc]
  have hname := nameIn_extServerName _ _ data host hsplit' hlast.right hne
  have hslice := slice_extServerName _ _ data host hsplit'
  rw [length_append] at hname hslice
  have hfirst : FirstName data (hello.front.length + (pre.flatMap Tlv.encode).length)
      ⟨0, extServerName host⟩ := by
    unfold FirstName
    rw [hello.extensionsStart_eq hdata.symm, hello.extensionsStop_eq hdata.symm]
    apply Tlv.first_encode pre
    . rw [hsplit', append_assoc]
    . rw [hsplit]
      simp only [flatMap_append, flatMap_cons, length_append, Tlv.length_encode]
      omega
    . intro e he
      exact hsized e (mem_append_left _ he)
    . exact hlast
    . exact hpre
    . rw [hname]
      rfl
  rw [tlsSni_eq_some_iff]
  refine ⟨_, _, ?_, hslice⟩
  rw [sniRange_eq_some_iff]
  exact ⟨hello.isHello hdata.symm, _, _, hfirst, hname⟩

theorem tls_sni_correct (data : Bytes)
    : tlsSni data ≠ .error .panic
      ∧ (∀ (hello : ClientHello) (host : String) (rest : Bytes), host ≠ "" →
        ⟨0, extServerName host⟩ ∈ hello.extensions →
        tlsSni (hello.record ++ rest) = .ok (some host))
      ∧ ((∀ name, tlsSni data = .ok (some name) → NameInside data name) ↔ NameLengthFits data) := by
  refine ⟨tlsSni_ne_panic data, ?_, nameInside_iff data⟩
  intro hello host rest hne hmem
  exact tlsSni_record hne hmem

def twoExtensions : ClientHello where
  recordVersion := 0x0301
  version := 0x0303
  random := Vector.replicate 32 7
  sessionId := [1, 2]
  suites := [0x1301]
  compression := [0]
  extensions := [⟨0x0010, [0, 0]⟩, ⟨0, extServerName "a.b"⟩]
  sessionId_le := by decide
  compression_lt := by decide
  sized := by decide +kernel
  record_lt := by decide +kernel
  nodup := by decide

theorem tls_sni_correct_two_extensions
    : tlsSni twoExtensions.record = .ok (some "a.b") := by
  have h := (tls_sni_correct []).right.left twoExtensions "a.b" [] (by decide)
    (mem_cons_of_mem _ mem_cons_self)
  exact h

def crossing : Bytes :=
  [0x16, 0x03, 0x01, 0x00, 0x40, 0x01, 0x00, 0x00, 0x3c, 0x03, 0x03] ++ replicate 32 7
    ++ [0x00, 0x00, 0x02, 0x13, 0x01, 0x01, 0x00, 0x00, 0x11]
    ++ [0x00, 0x00, 0x00, 0x06, 0x00, 0x04, 0x00, 0x00, 0x08, 0x61]
    ++ [0x61, 0x62, 0x00, 0x03, 0x63, 0x64, 0x65]

theorem tls_sni_name_crosses_extension
    : ∃ name, tlsSni crossing = .ok (some name) ∧ ¬NameInside crossing name := by
  have hsome : ∃ name, tlsSni crossing = .ok (some name) := by
    exact ⟨"aab\x00\x03cde", by decide +kernel⟩
  rcases hsome with ⟨name, hname⟩
  refine ⟨name, hname, fun hinside => ?_⟩
  have hall : ∀ name, tlsSni crossing = .ok (some name) → NameInside crossing name := by
    intro name' hname'
    rw [hname] at hname'
    cases hname'
    exact hinside
  have hfits := (nameInside_iff crossing).mp hall 52 ⟨0, [0x00, 0x04, 0x00, 0x00, 0x08, 0x61]⟩
    (by decide) (.here rfl (by decide)) (by decide +kernel)
  exact absurd hfits (by decide)

end Blackwire.Sniff
