import Blackwire.Common.Address
import Blackwire.Core.Impl.Rules
import Mathlib.Data.List.Perm.Subperm
import Blackwire.Lib.Machine

/-!
This module contains the UDP half of a Hysteria2 server: the datagrams of a QUIC connection, the
workers that forward them, and what becomes of packets that a client has cut into fragments. The
parsers for IP addresses are those of the standard library.
-/

namespace Blackwire.Hysteria2

open Bytes

inductive Destination where
  | v4 (ip : BitVec 32) (port : Nat)
  | v6 (ip : BitVec 128) (port : Nat)
  | domain (name : String) (port : Nat)
deriving DecidableEq

structure UdpDatagram where
  sessionId : Nat
  packetId : Nat
  fragId : Nat
  fragNum : Nat
  dest : Destination
  data : Bytes
deriving DecidableEq

structure IpParsers where
  ipv4 : List Char → Option (BitVec 32)
  ipv6 : List Char → Option (BitVec 128)

def readVarintFromSlice (data : Bytes) : Except String (Nat × Nat) :=
  match data with
  | [] => .error "missing varint"
  | first :: rest =>
    let len := 2 ^ (first.toNat / 64)
    if data.length < len then
      .error "truncated varint"
    else
      .ok ((rest.take (len - 1)).foldl (fun value b => 256 * value + b.toNat) (first.toNat % 64),
        len)

def splitOnce (c : Char) (s : List Char) : Option (List Char × List Char) :=
  if c ∈ s then
    some (s.takeWhile (· ≠ c), (s.dropWhile (· ≠ c)).drop 1)
  else
    none

def rsplitOnce (c : Char) (s : List Char) : Option (List Char × List Char) :=
  (splitOnce c s.reverse).map fun (back, front) => (front.reverse, back.reverse)

section

variable (p : IpParsers)

def hysteriaToDestination (addr : String) : Except String Destination :=
  match addr.toList with
  | '[' :: inner =>
    match splitOnce ']' inner with
    | some (host, ':' :: port) =>
      match parseU16 port, p.ipv6 host with
      | none, _ => .error ("bad port in address: " ++ addr)
      | some _, none => .error ("bad IPv6 host: " ++ String.ofList host)
      | some port, some ip => .ok (.v6 ip port)
    | _ => .error ("bad IPv6 address: " ++ addr)
  | chars =>
    match rsplitOnce ':' chars with
    | none => .error ("bad address: " ++ addr)
    | some (host, port) =>
      match parseU16 port, p.ipv4 host with
      | none, _ => .error ("bad port in address: " ++ addr)
      | some port, some ip => .ok (.v4 ip port)
      | some port, none => .ok (.domain (String.ofList host) port)

def decodeHysteriaDestination (data : Bytes) : Except String (Destination × Bytes) :=
  match readVarintFromSlice data with
  | .error _ => .error "reading address length"
  | .ok (addrLen, start) =>
    if addrLen = 0 ∨ 2048 < addrLen then
      .error ("invalid address length: " ++ toString addrLen)
    else if data.length < start + addrLen then
      .error "truncated address string"
    else
      match fromUtf8 ((data.drop start).take addrLen) with
      | none => .error "address is not valid UTF-8"
      | some addr =>
        match hysteriaToDestination p addr with
        | .error e => .error e
        | .ok dest => .ok (dest, data.drop (start + addrLen))

def decodeLegacyDestination (addrType : UInt8) (data : Bytes)
    : Except String (Destination × Bytes) :=
  match addrType.toNat with
  | 0x01 =>
    if data.length < 6 then
      .error "truncated IPv4 address"
    else
      .ok (.v4 (BitVec.ofNat 32 (ofBigEndian (data.take 4))) (u16At data 4), data.drop 6)
  | 0x02 =>
    if data.length < 18 then
      .error "truncated IPv6 address"
    else
      .ok (.v6 (BitVec.ofNat 128 (ofBigEndian (data.take 16))) (u16At data 16), data.drop 18)
  | 0x03 =>
    match data with
    | [] => .error "missing domain name length"
    | nameLen :: data =>
      let n := nameLen.toNat
      if data.length < n + 2 then
        .error "truncated domain name"
      else
        match fromUtf8 (data.take n) with
        | none => .error "domain name is not valid UTF-8"
        | some name => .ok (.domain name (u16At data n), data.drop (n + 2))
  | t =>
    let digits := (Nat.toDigits 16 t).map Char.toUpper
    .error ("unknown UDP address type: 0x"
      ++ String.ofList (List.replicate (2 - digits.length) '0' ++ digits))

def decodeDestination (data : Bytes) : Except String (Destination × Bytes) :=
  match decodeHysteriaDestination p data with
  | .ok decoded => .ok decoded
  | .error officialErr =>
    match decodeLegacyDestination (data.headD 0) (data.drop 1) with
    | .ok decoded => .ok decoded
    | .error legacyErr =>
      .error ("bad UDP destination: hysteria2=" ++ officialErr ++ "; legacy=" ++ legacyErr)

def decodeUdpDatagram (data : Bytes) : Except String UdpDatagram :=
  if data.length < 9 then
    .error "datagram too short (< 9 bytes)"
  else
    match decodeDestination p (data.drop 8) with
    | .error e => .error e
    | .ok (dest, remaining) =>
      .ok
        { sessionId := ofBigEndian (data.take 4)
          packetId := u16At data 4
          fragId := byteAt data 6
          fragNum := byteAt data 7
          dest := dest
          data := remaining }

end

def destinationToAddress : Destination → Address
  | .v4 ip port => .ipv4 ip port
  | .v6 ip port => .ipv6 ip port
  | .domain name port => .domain name port

def addressToDestination : Address → Destination
  | .ipv4 ip port => .v4 ip port
  | .ipv6 ip port => .v6 ip port
  | .domain name port => .domain name port

def maxUdpWorkersPerConn : Nat := 256

structure UdpWorker where
  sessionId : Nat
  packetId : Nat
  dest : Destination
  payload : Bytes

structure UdpSessions where
  permits : Nat
  waiting : List UdpWorker
  running : List UdpWorker
  dispatched : List (Address × Bytes)
  sent : List UdpDatagram
  received : List UdpDatagram

inductive UdpEvent where
  | datagram (raw : Bytes)
  | budget (i : Nat)
  | response (i : Nat) (response : Option (Address × Bytes))

namespace UdpSessions

def new : UdpSessions :=
  ⟨maxUdpWorkersPerConn, [], [], [], [], []⟩

-- The fragment numbers of the datagram are not looked at.
def handleUdpDatagram (s : UdpSessions) (dg : UdpDatagram) : UdpSessions :=
  match s.permits with
  | 0 => s
  | permits + 1 =>
    { s with
      permits := permits
      waiting := s.waiting ++ [⟨dg.sessionId, dg.packetId, dg.dest, dg.data⟩] }

def dispatchUdpDatagram (s : UdpSessions) (i : Nat) : UdpSessions :=
  match s.waiting[i]? with
  | none => s
  | some worker =>
    { s with
      waiting := s.waiting.eraseIdx i
      running := s.running ++ [worker]
      dispatched := s.dispatched ++ [(destinationToAddress worker.dest, worker.payload)] }

def respond (s : UdpSessions) (i : Nat) (response : Option (Address × Bytes)) : UdpSessions :=
  match s.running[i]? with
  | none => s
  | some worker =>
    let responseDg := response.toList.map fun (source, data) =>
      { sessionId := worker.sessionId
        packetId := worker.packetId
        fragId := 0
        fragNum := 1
        dest := addressToDestination source
        data := data : UdpDatagram }
    { s with
      permits := s.permits + 1
      running := s.running.eraseIdx i
      sent := s.sent ++ responseDg }

def step (p : IpParsers) (s : UdpSessions) : UdpEvent → UdpSessions
  | .datagram raw =>
    match decodeUdpDatagram p raw with
    | .error _ => s
    | .ok dg => { s with received := s.received ++ [dg] }.handleUdpDatagram dg
  | .budget i => s.dispatchUdpDatagram i
  | .response i response => s.respond i response

end UdpSessions

open List

def UdpDatagram.forward (dg : UdpDatagram) : Address × Bytes :=
  (destinationToAddress dg.dest, dg.data)

def UdpWorker.forward (worker : UdpWorker) : Address × Bytes :=
  (destinationToAddress worker.dest, worker.payload)

structure Packet where
  sessionId : Nat
  packetId : Nat
  dest : Destination
  pieces : List Bytes

namespace Packet

def key (q : Packet) : Nat × Nat :=
  (q.sessionId, q.packetId)

def fragments (q : Packet) : List UdpDatagram :=
  q.pieces.mapIdx fun i piece => ⟨q.sessionId, q.packetId, i, q.pieces.length, q.dest, piece⟩

def datagram (q : Packet) : Address × Bytes :=
  (destinationToAddress q.dest, q.pieces.flatten)

theorem mem_fragments (q : Packet) (h : dg ∈ q.fragments)
    : (dg.sessionId, dg.packetId) = q.key ∧ dg.fragNum = q.pieces.length := by
  unfold fragments at h
  rw [mem_mapIdx] at h
  rcases h with ⟨i, hi, rfl⟩
  exact ⟨rfl, rfl⟩

theorem nodup_fragments (q : Packet) : q.fragments.Nodup := by
  unfold fragments
  rw [nodup_iff_injective_get]
  intro i j hij
  have hid := congrArg UdpDatagram.fragId hij
  simp only [get_eq_getElem, getElem_mapIdx] at hid
  exact Fin.ext hid

theorem nodup_flatMap_fragments {packets : List Packet} (hkeys : (packets.map key).Nodup)
    : (packets.flatMap fragments).Nodup := by
  rw [nodup_flatMap]
  refine ⟨fun q _ => q.nodup_fragments, ?_⟩
  rw [List.Nodup, pairwise_map] at hkeys
  apply hkeys.imp
  intro q q' hne dg hq hq'
  apply hne
  rw [← (q.mem_fragments hq).left, (q'.mem_fragments hq').left]

theorem fragments_of_length (q : Packet) (h : q.pieces.length = 1)
    : ∃ dg, q.fragments = [dg] ∧ dg.forward = q.datagram := by
  rcases length_eq_one_iff.mp h with ⟨piece, hpiece⟩
  refine ⟨⟨q.sessionId, q.packetId, 0, 1, q.dest, piece⟩, ?_, ?_⟩
  . rw [fragments, hpiece]
    rfl
  . rw [datagram, hpiece, flatten_singleton]
    rfl

end Packet

def completed (packets : List Packet) (received : List UdpDatagram) : List Packet :=
  packets.filter fun q => q.fragments ⊆ received

section

variable {packets : List Packet} {received : List UdpDatagram}
  (hkeys : (packets.map Packet.key).Nodup) (hpieces : ∀ q ∈ packets, q.pieces ≠ [])
  (hreceived : received.Subperm (packets.flatMap Packet.fragments))
  (hwhole : ∀ dg ∈ received, dg.fragNum = 1)

include hwhole

include hpieces in
theorem length_of_completed (h : q ∈ completed packets received)
    : q.pieces.length = 1 := by
  rcases mem_filter.mp h with ⟨hq, hall⟩
  have hall : q.fragments ⊆ received := by simpa using hall
  have hne : q.fragments ≠ [] := by
    unfold Packet.fragments
    simpa using hpieces q hq
  rcases exists_mem_of_ne_nil _ hne with ⟨dg, hdg⟩
  rw [← (q.mem_fragments hdg).right]
  exact hwhole dg (hall hdg)

include hkeys hreceived

theorem received_perm : received.Perm ((completed packets received).flatMap Packet.fragments) := by
  have hnodup := Packet.nodup_flatMap_fragments hkeys
  have hkeys' : ((completed packets received).map Packet.key).Nodup :=
    hkeys.sublist (filter_sublist.map _)
  have hnodup' : received.Nodup := by
    rcases hreceived with ⟨front, hperm, hsublist⟩
    exact hperm.nodup_iff.mp (hnodup.sublist hsublist)
  rw [perm_ext_iff_of_nodup hnodup' (Packet.nodup_flatMap_fragments hkeys')]
  intro dg
  rw [mem_flatMap]
  constructor
  . intro hdg
    rcases mem_flatMap.mp (hreceived.subset hdg) with ⟨q, hq, hfragment⟩
    have hlength := (q.mem_fragments hfragment).right
    rw [hwhole dg hdg] at hlength
    rcases q.fragments_of_length hlength.symm with ⟨dg', hfragments, _⟩
    refine ⟨q, mem_filter.mpr ⟨hq, ?_⟩, hfragment⟩
    rw [hfragments, mem_singleton] at hfragment
    subst hfragment
    simpa [hfragments] using hdg
  . rintro ⟨q, hq, hfragment⟩
    have hall : q.fragments ⊆ received := by simpa using (mem_filter.mp hq).right
    exact hall hfragment

include hpieces in
theorem received_map_perm
    : (received.map UdpDatagram.forward).Perm
        ((completed packets received).map Packet.datagram) := by
  have hperm := (received_perm hkeys hreceived hwhole).map UdpDatagram.forward
  rw [map_flatMap] at hperm
  rw [map_eq_flatMap (f := Packet.datagram)]
  apply hperm.trans
  rw [flatMap_congr]
  intro q hq
  rcases q.fragments_of_length (length_of_completed hpieces hwhole hq) with ⟨dg, hfragments, hdg⟩
  rw [hfragments, map_singleton, hdg]

end

structure Forwarding (s : UdpSessions) : Prop where
  whole : ∀ dg ∈ s.received, dg.fragNum = 1
  perm : (s.dispatched ++ s.waiting.map UdpWorker.forward).Perm
    (s.received.map UdpDatagram.forward)

namespace UdpSessions

/--
A datagram is not a fragment of a packet that was cut, and it finds a permit.
-/
def roomy (p : IpParsers) (s : UdpSessions) : UdpEvent → Prop
  | .datagram raw => ∀ dg ∈ (decodeUdpDatagram p raw).toOption, dg.fragNum = 1 ∧ 0 < s.permits
  | _ => True

instance (p : IpParsers) (s : UdpSessions) (e : UdpEvent) : Decidable (s.roomy p e) :=
  match e with
  | .datagram raw =>
    inferInstanceAs (Decidable (∀ dg ∈ (decodeUdpDatagram p raw).toOption, _))
  | .budget _ => inferInstanceAs (Decidable True)
  | .response _ _ => inferInstanceAs (Decidable True)

end UdpSessions

namespace Forwarding

variable (h : Forwarding s)

include h

theorem datagram (hwhole : dg.fragNum = 1) (hpermits : 0 < s.permits)
    : Forwarding ({ s with received := s.received ++ [dg] }.handleUdpDatagram dg) := by
  rcases Nat.exists_eq_succ_of_ne_zero (Nat.ne_of_gt hpermits) with ⟨permits, hpermits⟩
  unfold UdpSessions.handleUdpDatagram
  simp only [hpermits]
  refine ⟨?_, ?_⟩
  . intro dg' hdg'
    rcases mem_append.mp hdg' with hdg' | hdg'
    . exact h.whole dg' hdg'
    . rw [mem_singleton.mp hdg']
      exact hwhole
  . rw [map_append, map_append, ← append_assoc]
    exact h.perm.append_right _

theorem budget : Forwarding (s.dispatchUdpDatagram i) := by
  unfold UdpSessions.dispatchUdpDatagram
  match hworker : s.waiting[i]? with
  | none => exact h
  | some worker =>
    refine ⟨h.whole, ?_⟩
    rcases List.getElem?_eq_some_iff.mp hworker with ⟨hi, rfl⟩
    have hperm := (getElem_cons_eraseIdx_perm hi).map UdpWorker.forward
    rw [append_assoc, singleton_append]
    exact (hperm.append_left _).trans h.perm

theorem response {response : Option (Address × Bytes)}
    : Forwarding (s.respond i response) := by
  unfold UdpSessions.respond
  match s.running[i]? with
  | none => exact h
  | some worker => exact ⟨h.whole, h.perm⟩

theorem step (he : s.roomy p e) : Forwarding (s.step p e) := by
  match e with
  | .budget i => exact h.budget
  | .response i response => exact h.response
  | .datagram raw =>
    unfold UdpSessions.step
    match hdecode : decodeUdpDatagram p raw with
    | .error _ =>
      simp only [hdecode]
      exact h
    | .ok dg =>
      simp only [hdecode]
      rcases he dg (by rw [hdecode]; rfl) with ⟨hwhole, hpermits⟩
      exact h.datagram hwhole hpermits

end Forwarding

theorem udp_packets_forwarded_once (p : IpParsers) (s : UdpSessions)
    (hs : Machine.Reach (UdpSessions.step p) (UdpSessions.roomy p) .new s) (packets : List Packet)
    (hkeys : (packets.map Packet.key).Nodup) (hpieces : ∀ q ∈ packets, q.pieces ≠ [])
    (hreceived : s.received.Subperm (packets.flatMap Packet.fragments))
    : (s.dispatched ++ s.waiting.map UdpWorker.forward).Perm
        ((completed packets s.received).map Packet.datagram) := by
  have hforwarding := hs.invariant Forwarding _ _ ⟨by simp [UdpSessions.new], .refl _⟩
    (fun s e h he => h.step he)
  exact hforwarding.perm.trans
    (received_map_perm hkeys hpieces hreceived hforwarding.whole)

def dnsParsers : IpParsers where
  ipv4 s := if s = "1.2.3.4".toList then some 0x01020304 else none
  ipv6 _ := none

def dnsAddress : Bytes :=
  [10, 49, 46, 50, 46, 51, 46, 52, 58, 53, 51]

theorem udp_packets_forwarded_once_hi
    : let s := [.datagram ([0, 0, 0, 7, 0, 1, 0, 1] ++ dnsAddress ++ [104, 105]),
        .budget 0, .response 0 (some (.ipv4 0x01020304 53, [33]))].foldl
          (UdpSessions.step dnsParsers) .new
      s.dispatched = [(.ipv4 0x01020304 53, [104, 105])]
        ∧ (s.dispatched ++ s.waiting.map UdpWorker.forward).Perm
          ((completed
            [⟨7, 1, .v4 0x01020304 53, [[104, 105]]⟩, ⟨7, 2, .v4 0x01020304 53, [[97], [98]]⟩]
            s.received).map Packet.datagram) := by
  intro s
  refine ⟨by decide +kernel, ?_⟩
  apply udp_packets_forwarded_once dnsParsers s (Machine.Reach.foldl _ _ .start (by decide +kernel))
  . decide
  . decide
  . decide +kernel

def cutPacket : Packet :=
  ⟨7, 1, .v4 0x01020304 53, [[97, 98], [99, 100]]⟩

theorem udp_fragments_forwarded_alone
    : ∃ s lost : UdpSessions,
        s = [.datagram ([0, 0, 0, 7, 0, 1, 0, 2] ++ dnsAddress ++ [97, 98]),
          .datagram ([0, 0, 0, 7, 0, 1, 1, 2] ++ dnsAddress ++ [99, 100]), .budget 0,
          .budget 0].foldl (UdpSessions.step dnsParsers) .new
        ∧ s.received = cutPacket.fragments
        ∧ s.dispatched = [(.ipv4 0x01020304 53, [97, 98]), (.ipv4 0x01020304 53, [99, 100])]
        ∧ (completed [cutPacket] s.received).map Packet.datagram
          = [(.ipv4 0x01020304 53, [97, 98, 99, 100])]
        ∧ lost = [.datagram ([0, 0, 0, 7, 0, 1, 1, 2] ++ dnsAddress ++ [99, 100]),
          .budget 0].foldl (UdpSessions.step dnsParsers) .new
        ∧ lost.dispatched = [(.ipv4 0x01020304 53, [99, 100])]
        ∧ completed [cutPacket] lost.received = [] := by
  refine ⟨_, _, rfl, ?_, ?_, ?_, rfl, ?_, ?_⟩
  . decide +kernel
  . decide +kernel
  . decide +kernel
  . decide +kernel
  . rw [← length_eq_zero_iff]
    decide +kernel

def UdpDatagram.key (dg : UdpDatagram) : Nat × Nat :=
  (dg.sessionId, dg.packetId)

def UdpWorker.key (worker : UdpWorker) : Nat × Nat :=
  (worker.sessionId, worker.packetId)

namespace UdpSessions

structure Balanced (s : UdpSessions) : Prop where
  permits : s.permits + s.waiting.length + s.running.length = maxUdpWorkersPerConn
  replies : ∀ k, (s.sent.map UdpDatagram.key).count k + (s.waiting.map UdpWorker.key).count k
    + (s.running.map UdpWorker.key).count k ≤ (s.received.map UdpDatagram.key).count k

theorem count_eraseIdx {workers : List UdpWorker} (h : workers[i]? = some worker) (k : Nat × Nat)
    : (workers.map UdpWorker.key).count k
        = ((workers.eraseIdx i).map UdpWorker.key).count k + [worker.key].count k
      ∧ workers.length = (workers.eraseIdx i).length + 1 := by
  rcases List.getElem?_eq_some_iff.mp h with ⟨hi, rfl⟩
  have hperm := getElem_cons_eraseIdx_perm hi
  rw [← (hperm.map UdpWorker.key).count_eq, ← hperm.length_eq, map_cons, count_cons, length_cons,
    count_singleton]
  exact ⟨rfl, rfl⟩

theorem Balanced.datagram (h : Balanced s) (dg : UdpDatagram)
    : Balanced ({ s with received := s.received ++ [dg] }.handleUdpDatagram dg) := by
  rcases h with ⟨hpermits, hreplies⟩
  unfold handleUdpDatagram
  split
  . refine ⟨hpermits, fun k => Nat.le_trans (hreplies k) ?_⟩
    rw [map_append, count_append]
    exact Nat.le_add_right _ _
  . next n hn =>
    refine ⟨?_, fun k => ?_⟩
    . simp_all
      omega
    . have hk := hreplies k
      simp only [map_append, count_append, map_singleton, UdpWorker.key, UdpDatagram.key] at hk ⊢
      omega

theorem Balanced.step (h : Balanced s) (p : IpParsers) (e : UdpEvent) : Balanced (s.step p e) := by
  rcases h with ⟨hpermits, hreplies⟩
  cases e with
  | datagram raw =>
    simp only [UdpSessions.step]
    split
    . exact ⟨hpermits, hreplies⟩
    . exact Balanced.datagram ⟨hpermits, hreplies⟩ _
  | budget i =>
    simp only [UdpSessions.step, dispatchUdpDatagram]
    split
    . exact ⟨hpermits, hreplies⟩
    . next worker hworker =>
      refine ⟨?_, fun k => ?_⟩
      . have := (count_eraseIdx hworker (0, 0)).right
        simp only [length_append, length_singleton]
        omega
      . have := hreplies k
        have := (count_eraseIdx hworker k).left
        simp only [map_append, count_append, map_singleton]
        omega
  | response i response =>
    simp only [UdpSessions.step, respond]
    split
    . exact ⟨hpermits, hreplies⟩
    . next worker hworker =>
      refine ⟨?_, fun k => ?_⟩
      . have := (count_eraseIdx hworker (0, 0)).right
        dsimp only
        omega
      . have := hreplies k
        have := (count_eraseIdx hworker k).left
        cases response with
        | none =>
          simp
          omega
        | some response =>
          simp only [map_append, count_append, Option.toList_some, map_singleton]
          change _ + [worker.key].count k + _ + _ ≤ _
          omega

end UdpSessions

theorem udp_workers_bounded (p : IpParsers) (es : List UdpEvent)
    : let s := es.foldl (UdpSessions.step p) .new
      s.permits + s.waiting.length + s.running.length = maxUdpWorkersPerConn
        ∧ ∀ k, (s.sent.map UdpDatagram.key).count k ≤ (s.received.map UdpDatagram.key).count k := by
  have hbalanced : (es.foldl (UdpSessions.step p) .new).Balanced :=
    es.foldlRecOn _ ⟨rfl, fun k => Nat.zero_le _⟩ (fun s h e _ => h.step p e)
  refine ⟨hbalanced.permits, fun k => ?_⟩
  have := hbalanced.replies k
  omega

end Blackwire.Hysteria2
