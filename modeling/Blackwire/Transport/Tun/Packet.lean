import Blackwire.Lib.Bytes
import Blackwire.Net.IpNet

/-!
This module contains the parser for the packets of the TUN device, and how it treats the three
lengths of a UDP packet.
-/

namespace Blackwire.Tun

inductive TransportProtocol where
  | tcp
  | udp
  | other (number : Nat)
deriving DecidableEq

structure IpPacket where
  src : IpAddr
  dst : IpAddr
  srcPort : Nat
  dstPort : Nat
  protocol : TransportProtocol
  headerLen : Nat
  payloadOffset : Nat
  transportOffset : Nat
  payloadLen : Nat
  tcpSeq : Option UInt32
  tcpAck : Option UInt32
  tcpFlags : Option Nat

def IpPacket.payload (p : IpPacket) (packet : Bytes) : Option Bytes :=
  Bytes.slice packet p.payloadOffset (p.payloadOffset + p.payloadLen)

def protocolOf (number : Nat) : TransportProtocol :=
  match number with
  | 6 => .tcp
  | 17 => .udp
  | number => .other number

section

variable (buf : Bytes)

def u32At (i : Nat) : UInt32 :=
  UInt32.ofNat (Bytes.ofBigEndian ((buf.drop i).take 4))

def ipv4At (i : Nat) : IpAddr :=
  .v4 (BitVec.ofNat 32 (Bytes.ofBigEndian ((buf.drop i).take 4)))

def ipv6At (i : Nat) : IpAddr :=
  .v6 (BitVec.ofNat 128 (Bytes.ofBigEndian ((buf.drop i).take 16)))

def transportAt (proto offset transportLen : Nat) : Option (Nat × Option (UInt32 × UInt32 × Nat)) :=
  match proto with
  | 6 => do
    guard (20 ≤ transportLen)
    let dataOffset := (Bytes.byteAt buf (offset + 12) / 16) * 4
    guard (20 ≤ dataOffset ∧ dataOffset ≤ transportLen)
    return (offset + dataOffset,
      some (u32At buf (offset + 4), u32At buf (offset + 8), Bytes.byteAt buf (offset + 13)))
  | 17 => do
    guard (8 ≤ transportLen)
    let udpLen := Bytes.u16At buf (offset + 4)
    guard (8 ≤ udpLen ∧ udpLen ≤ transportLen)
    return (offset + 8, none)
  | _ => some (offset + 4, none)

def parseIpv4 : Option IpPacket := do
  guard (20 ≤ buf.length)
  let ihl := (Bytes.byteAt buf 0 % 16) * 4
  guard (20 ≤ ihl)
  let totalLength := Bytes.u16At buf 2
  guard (ihl ≤ totalLength ∧ totalLength ≤ buf.length)
  guard (ihl + 4 ≤ buf.length)
  let proto := Bytes.byteAt buf 9
  let (payloadOffset, tcp) ← transportAt buf proto ihl (totalLength - ihl)
  return {
    src := ipv4At buf 12
    dst := ipv4At buf 16
    srcPort := Bytes.u16At buf ihl
    dstPort := Bytes.u16At buf (ihl + 2)
    protocol := protocolOf proto
    headerLen := ihl
    payloadOffset := payloadOffset
    transportOffset := ihl
    payloadLen := totalLength - payloadOffset
    tcpSeq := tcp.map (·.fst)
    tcpAck := tcp.map (·.snd.fst)
    tcpFlags := tcp.map (·.snd.snd) }

inductive NextHeader where
  | transport (proto offset : Nat)
  | unknown (number offset : Nat)

def walkHeaders (buf : Bytes) (totalLength : Nat) (nextHdr offset : Nat)
    : (fuel : Nat) → Option NextHeader
  | 0 => none
  | fuel + 1 =>
    if nextHdr ∈ [6, 17, 58] then
      some (.transport nextHdr offset)
    else if nextHdr ∈ [0, 43, 60, 135, 139, 140, 253, 254] then do
      guard (offset + 2 ≤ totalLength)
      let extLen := (Bytes.byteAt buf (offset + 1) + 1) * 8
      walkHeaders buf totalLength (Bytes.byteAt buf offset) (offset + extLen) fuel
    else if nextHdr = 44 then do
      guard (offset + 8 ≤ totalLength)
      walkHeaders buf totalLength (Bytes.byteAt buf offset) (offset + 8) fuel
    else
      some (.unknown nextHdr offset)

def parseIpv6 : Option IpPacket := do
  guard (40 ≤ buf.length)
  let totalLength := 40 + Bytes.u16At buf 4
  guard (totalLength ≤ buf.length)
  let src := ipv6At buf 8
  let dst := ipv6At buf 24
  match ← walkHeaders buf totalLength (Bytes.byteAt buf 6) 40 totalLength with
  | .unknown number offset =>
    return ⟨src, dst, 0, 0, .other number, 40, offset, offset, totalLength - offset, none, none,
      none⟩
  | .transport proto offset =>
    let (payloadOffset, tcp) ← transportAt buf proto offset (totalLength - offset)
    guard (offset + 4 ≤ buf.length)
    return {
      src := src
      dst := dst
      srcPort := Bytes.u16At buf offset
      dstPort := Bytes.u16At buf (offset + 2)
      protocol := protocolOf proto
      headerLen := 40
      payloadOffset := payloadOffset
      transportOffset := offset
      payloadLen := totalLength - payloadOffset
      tcpSeq := tcp.map (·.fst)
      tcpAck := tcp.map (·.snd.fst)
      tcpFlags := tcp.map (·.snd.snd) }

def parseIpPacket : Option IpPacket := do
  guard (!buf.isEmpty)
  match Bytes.byteAt buf 0 / 16 with
  | 4 => parseIpv4 buf
  | 6 => parseIpv6 buf
  | _ => none

end

open Bytes

inductive Leads (buf : Bytes) (totalLength : Nat) (proto stop : Nat) : Nat → Nat → Prop where
  | transport (h : proto ∈ [6, 17, 58]) : Leads buf totalLength proto stop proto stop
  | extension {next offset : Nat} (h : next ∈ [0, 43, 60, 135, 139, 140, 253, 254])
      (hfits : offset + 2 ≤ totalLength)
      (hrest : Leads buf totalLength proto stop (byteAt buf offset)
        (offset + (byteAt buf (offset + 1) + 1) * 8))
      : Leads buf totalLength proto stop next offset
  | fragment {offset : Nat} (hfits : offset + 8 ≤ totalLength)
      (hrest : Leads buf totalLength proto stop (byteAt buf offset) (offset + 8))
      : Leads buf totalLength proto stop 44 offset

inductive CarriesUdp (buf : Bytes) : (offset stop : Nat) → Prop where
  | ipv4 (hversion : byteAt buf 0 / 16 = 4) (hheader : 5 ≤ byteAt buf 0 % 16)
      (hlong : (byteAt buf 0 % 16) * 4 ≤ u16At buf 2) (hbuf : u16At buf 2 ≤ buf.length)
      (hproto : byteAt buf 9 = 17)
      : CarriesUdp buf ((byteAt buf 0 % 16) * 4) (u16At buf 2)
  | ipv6 {offset : Nat} (hversion : byteAt buf 0 / 16 = 6) (hbuf : 40 + u16At buf 4 ≤ buf.length)
      (hleads : Leads buf (40 + u16At buf 4) 17 offset (byteAt buf 6) 40)
      : CarriesUdp buf offset (40 + u16At buf 4)

theorem guard_bind {α : Type} (p : Prop) [Decidable p] (f : Unit → Option α)
    : (guard p >>= f) = if p then f () else none := by
  unfold guard
  split
  next => rfl
  next => rfl

theorem walkHeaders_of_leads (totalLength proto : Nat) (next offset fuel : Nat)
    (h : Leads buf totalLength proto stop next offset) (hfuel : totalLength < offset + fuel)
    (hpos : 0 < fuel)
    : walkHeaders buf totalLength next offset fuel = some (.transport proto stop) := by
  induction h generalizing fuel with
  | transport h =>
    cases fuel with
    | zero => omega
    | succ fuel =>
      unfold walkHeaders
      rw [if_pos h]
  | @extension next offset h hfits hrest ih =>
    cases fuel with
    | zero => omega
    | succ fuel =>
      have hother : next ∉ [6, 17, 58] := by
        intro h'
        simp only [List.mem_cons, List.not_mem_nil, or_false] at h h'
        omega
      unfold walkHeaders
      rw [if_neg hother, if_pos h, guard_bind, if_pos hfits]
      exact ih fuel (by omega) (by omega)
  | fragment hfits hrest ih =>
    cases fuel with
    | zero => omega
    | succ fuel =>
      unfold walkHeaders
      rw [if_neg (by decide), if_neg (by decide), if_pos rfl, guard_bind, if_pos hfits]
      exact ih fuel (by omega) (by omega)

theorem leads_of_walkHeaders (buf : Bytes) (totalLength proto stop next offset fuel : Nat)
    (h : walkHeaders buf totalLength next offset fuel = some (.transport proto stop))
    : Leads buf totalLength proto stop next offset := by
  induction fuel generalizing next offset with
  | zero => cases h
  | succ fuel ih =>
    unfold walkHeaders at h
    split at h
    next hproto =>
      cases h
      exact .transport hproto
    next =>
      split at h
      next hnext =>
        rw [guard_bind, Option.ite_none_right_eq_some] at h
        exact .extension hnext h.left (ih _ _ h.right)
      next =>
        split at h
        next hnext =>
          rw [guard_bind, Option.ite_none_right_eq_some] at h
          rw [hnext]
          exact .fragment h.left (ih _ _ h.right)
        next => cases h

def LengthFits (buf : Bytes) (offset stop : Nat) : Prop :=
  8 ≤ u16At buf (offset + 4) ∧ u16At buf (offset + 4) ≤ stop - offset

instance (buf : Bytes) (offset stop : Nat) : Decidable (LengthFits buf offset stop) :=
  inferInstanceAs (Decidable (_ ∧ _))

theorem transportAt_udp (buf : Bytes) (offset stop : Nat)
    : transportAt buf 17 offset (stop - offset)
        = if LengthFits buf offset stop then some (offset + 8, none) else none := by
  refine (guard_bind _ _).trans ?_
  rw [guard_bind]
  by_cases hfits : LengthFits buf offset stop
  . rw [if_pos hfits, if_pos (Nat.le_trans hfits.left hfits.right)]
    exact if_pos hfits
  rw [if_neg hfits]
  split
  next => exact if_neg hfits
  next => rfl

structure IsDatagram (p : IpPacket) (offset stop : Nat) : Prop where
  protocol : p.protocol = .udp
  payloadOffset : p.payloadOffset = offset + 8
  payloadLen : p.payloadLen = stop - (offset + 8)

theorem parseIpv4_of_udp (hheader : 5 ≤ byteAt buf 0 % 16)
    (hlong : (byteAt buf 0 % 16) * 4 ≤ u16At buf 2) (hbuf : u16At buf 2 ≤ buf.length)
    (hproto : byteAt buf 9 = 17)
    : let offset := (byteAt buf 0 % 16) * 4
      (¬LengthFits buf offset (u16At buf 2) ∧ parseIpv4 buf = none)
        ∨ (LengthFits buf offset (u16At buf 2)
          ∧ ∃ p, parseIpv4 buf = some p ∧ IsDatagram p offset (u16At buf 2)) := by
  intro offset
  unfold parseIpv4
  rw [guard_bind, if_pos (by omega)]
  dsimp only
  rw [guard_bind, if_pos (by omega), guard_bind, if_pos ⟨hlong, hbuf⟩, guard_bind, hproto,
    transportAt_udp]
  by_cases hfits : LengthFits buf offset (u16At buf 2)
  . right
    rw [if_pos hfits, if_pos (by unfold LengthFits at hfits; omega)]
    exact ⟨hfits, _, rfl, rfl, rfl, rfl⟩
  . left
    refine ⟨hfits, ?_⟩
    split
    next => rfl
    next => rfl

theorem parseIpv6_of_udp (hbuf : 40 + u16At buf 4 ≤ buf.length)
    (hleads : Leads buf (40 + u16At buf 4) 17 offset (byteAt buf 6) 40)
    : (¬LengthFits buf offset (40 + u16At buf 4) ∧ parseIpv6 buf = none)
        ∨ (LengthFits buf offset (40 + u16At buf 4)
          ∧ ∃ p, parseIpv6 buf = some p ∧ IsDatagram p offset (40 + u16At buf 4)) := by
  unfold parseIpv6
  rw [guard_bind, if_pos (by omega)]
  rw [guard_bind, if_pos hbuf, walkHeaders_of_leads _ 17 _ 40 _ hleads (by omega) (by omega)]
  dsimp only [bind, Option.bind]
  rw [transportAt_udp]
  by_cases hfits : LengthFits buf offset (40 + u16At buf 4)
  . right
    rw [if_pos hfits]
    rw [guard, if_pos (by unfold LengthFits at hfits; omega)]
    exact ⟨hfits, _, rfl, rfl, rfl, rfl⟩
  . left
    rw [if_neg hfits]
    exact ⟨hfits, rfl⟩

theorem parseIpPacket_of_udp (h : CarriesUdp buf offset stop)
    : (¬LengthFits buf offset stop ∧ parseIpPacket buf = none)
        ∨ (LengthFits buf offset stop
          ∧ ∃ p, parseIpPacket buf = some p ∧ IsDatagram p offset stop) := by
  have hne (hversion : byteAt buf 0 / 16 ≠ 0) : (!buf.isEmpty) = true := by
    cases buf with
    | nil => exact absurd rfl hversion
    | cons => rfl
  unfold parseIpPacket
  cases h with
  | ipv4 hversion hheader hlong hbuf hproto =>
    rw [guard_bind, if_pos (hne (by omega)), hversion]
    exact parseIpv4_of_udp hheader hlong hbuf hproto
  | ipv6 hversion hbuf hleads =>
    rw [guard_bind, if_pos (hne (by omega)), hversion]
    exact parseIpv6_of_udp hbuf hleads

theorem protocolOf_eq_udp (h : protocolOf number = .udp) : number = 17 := by
  unfold protocolOf at h
  split at h
  next => cases h
  next => rfl
  next => cases h

theorem carriesUdp_of_parseIpv4 (hversion : byteAt buf 0 / 16 = 4)
    (h : parseIpv4 buf = some p) (hudp : p.protocol = .udp)
    : CarriesUdp buf ((byteAt buf 0 % 16) * 4) (u16At buf 2) := by
  unfold parseIpv4 at h
  simp only [guard_bind, Option.ite_none_right_eq_some, Option.bind_eq_bind,
    Option.bind_eq_some_iff] at h
  rcases h with ⟨_, hheader, ⟨hlong, hbuf⟩, _, _, _, hp⟩
  cases hp
  exact .ipv4 hversion (by omega) hlong hbuf (protocolOf_eq_udp hudp)

theorem carriesUdp_of_parseIpv6 (hversion : byteAt buf 0 / 16 = 6)
    (h : parseIpv6 buf = some p) (hudp : p.protocol = .udp)
    : ∃ offset, CarriesUdp buf offset (40 + u16At buf 4) := by
  unfold parseIpv6 at h
  simp only [guard_bind, Option.ite_none_right_eq_some, Option.bind_eq_bind,
    Option.bind_eq_some_iff] at h
  rcases h with ⟨_, hbuf, header, hwalk, h⟩
  cases header with
  | unknown number offset =>
    cases h
    cases hudp
  | transport proto offset =>
    simp only [Option.bind_eq_some_iff, Option.ite_none_right_eq_some] at h
    rcases h with ⟨_, _, _, hp⟩
    cases hp
    have hproto := protocolOf_eq_udp hudp
    rw [hproto] at hwalk
    exact ⟨offset, .ipv6 hversion hbuf (leads_of_walkHeaders _ _ _ _ _ _ _ hwalk)⟩

theorem carriesUdp_of_parseIpPacket (p : IpPacket) (h : parseIpPacket buf = some p)
    (hudp : p.protocol = .udp)
    : ∃ offset stop, CarriesUdp buf offset stop := by
  unfold parseIpPacket at h
  rw [guard_bind, Option.ite_none_right_eq_some] at h
  have hparse := h.right
  split at hparse
  next hversion => exact ⟨_, _, carriesUdp_of_parseIpv4 hversion hparse hudp⟩
  next hversion =>
    rcases carriesUdp_of_parseIpv6 hversion hparse hudp with ⟨offset, hcarries⟩
    exact ⟨offset, _, hcarries⟩
  next => cases hparse

-- `payload()` of a packet is what the datagram at `offset` has behind its header.
def PayloadExact (buf : Bytes) (offset : Nat) (p : IpPacket) : Prop :=
  p.payload buf = some ((buf.drop (offset + 8)).take (u16At buf (offset + 4) - 8))

theorem stop_le_length (h : CarriesUdp buf offset stop)
    : stop ≤ buf.length := by
  cases h with
  | ipv4 _ _ _ hbuf _ => exact hbuf
  | ipv6 _ hbuf _ => exact hbuf

theorem payloadExact_iff (h : CarriesUdp buf offset stop) (hfits : LengthFits buf offset stop)
    (hp : IsDatagram p offset stop)
    : PayloadExact buf offset p ↔ u16At buf (offset + 4) = stop - offset := by
  have hstop := stop_le_length h
  unfold LengthFits at hfits
  unfold PayloadExact IpPacket.payload
  rw [hp.payloadOffset, hp.payloadLen, slice_of_le (by omega), Option.some.injEq]
  constructor
  . intro heq
    have hlength := congrArg List.length heq
    simp only [List.length_take, List.length_drop] at hlength
    omega
  . intro heq
    congr 1
    omega

theorem tun_udp_payload (buf : Bytes)
    : (∀ p, parseIpPacket buf = some p → p.protocol = .udp →
        ∃ offset stop, CarriesUdp buf offset stop)
      ∧ ∀ offset stop, CarriesUdp buf offset stop →
        ((¬LengthFits buf offset stop → parseIpPacket buf = none)
            ∧ (∀ p, parseIpPacket buf = some p → PayloadExact buf offset p)
          ↔ ¬(8 ≤ u16At buf (offset + 4) ∧ u16At buf (offset + 4) < stop - offset)) := by
  refine ⟨carriesUdp_of_parseIpPacket, fun offset stop hcarries => ?_⟩
  rcases parseIpPacket_of_udp hcarries with ⟨hfits, hnone⟩ | ⟨hfits, p, hsome, hp⟩
  . rw [hnone]
    unfold LengthFits at hfits
    constructor
    . intro _
      omega
    . intro _
      exact ⟨fun _ => rfl, nofun⟩
  . have hexact := payloadExact_iff hcarries hfits hp
    rw [hsome]
    constructor
    . rintro ⟨_, hall⟩
      have hlen := hexact.mp (hall p rfl)
      omega
    . intro hlen
      unfold LengthFits at hfits
      refine ⟨fun hnot => absurd hfits hnot, ?_⟩
      rintro q ⟨⟩
      apply hexact.mpr
      omega

def trailingByte : Bytes :=
  [0x45, 0, 0, 30, 0, 0, 0, 0, 64, 17, 0, 0, 10, 0, 0, 1, 10, 0, 0, 2]
    ++ [0, 53, 0, 53, 0, 9, 0, 0] ++ [0xAA, 0xBB]

theorem tun_udp_payload_trailing_byte
    : ∃ p, parseIpPacket trailingByte = some p ∧ p.protocol = .udp
        ∧ p.payload trailingByte = some [0xAA, 0xBB]
        ∧ u16At trailingByte (p.transportOffset + 4) = 9 := by
  decide +kernel

def extensionHeader : Bytes :=
  [0x60, 0, 0, 0, 0, 17, 0, 64] ++ List.replicate 32 0
    ++ [17, 0, 0, 0, 0, 0, 0, 0] ++ [0, 53, 0, 53, 0, 9, 0, 0] ++ [0xAA]

theorem tun_udp_payload_extension_header
    : CarriesUdp extensionHeader 48 57
      ∧ ∃ p, parseIpPacket extensionHeader = some p
        ∧ p.payload extensionHeader = some [0xAA] := by
  have hcarries : CarriesUdp extensionHeader 48 57 := by
    apply CarriesUdp.ipv6
    . decide
    . decide
    . exact .extension (by decide) (by decide) (.transport (by decide))
  have hparse : ∃ p, parseIpPacket extensionHeader = some p := by
    apply Option.isSome_iff_exists.mp
    decide +kernel
  rcases hparse with ⟨p, hp⟩
  have hproperty := ((tun_udp_payload extensionHeader).right 48 57 hcarries).mpr (by decide)
  exact ⟨hcarries, p, hp, hproperty.right p hp⟩

end Blackwire.Tun
