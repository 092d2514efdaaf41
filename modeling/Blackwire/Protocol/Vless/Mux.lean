import Blackwire.Common.BoxedStream
import Blackwire.Protocol.Vless.Codec

/-!
This module contains the packets of UDP over VLESS, which have a length for their address but none
for their payload, and the frames of Mux.Cool, and proves which frames are parsed back from what was
written for them, and in which segments a stream has to deliver packets so that they are read back.
-/

namespace Blackwire.Vless

open Bytes Reading

def payloadTimeout : Nat := 500

def maxPayloadLen : Nat := 65507

def readUdpHeader : Reading Address := do
  let addrLen ← readU16
  if addrLen = 0 ∨ addrLen > 512 then
    throw (.protocol ("invalid VLESS UDP address length " ++ toString addrLen))
  else
    let addr ← readExact addrLen
    Reading.ofExcept (decodeAddressPort addr)

def payloadError : ReadError IoError → ProxyError
  | .elapsed => .protocol "VLESS UDP payload read timeout"
  | .failed e => .transport e.text

-- One read: what it returns is taken for the payload.
def readUdpPayload : Reading Bytes :=
  EStateM.adaptExcept payloadError (Source.readWithin payloadTimeout maxPayloadLen)

def writeUdpPacket (dest : Address) (payload : Bytes) : Exchange Unit := do
  let addr ← Exchange.ofExcept (encodeAddressPort dest)
  Exchange.refuse (addr.length > 65535) (.protocol "VLESS UDP address too long")
  BoxedStream.writeAll (toBigEndian 2 addr.length ++ (addr ++ payload))
  BoxedStream.flush

def xudpSessionId : Nat := 0

def optData : UInt8 := 0x01

def maxMetaLen : Nat := 512

def maxDataLen : Nat := 512 * 1024

inductive SessionStatus where
  | new
  | keep
  | «end»
  | keepAlive
deriving DecidableEq

namespace SessionStatus

def byte : SessionStatus → UInt8
  | new => 0x01
  | keep => 0x02
  | «end» => 0x03
  | keepAlive => 0x04

def fromByte (b : UInt8) : Except ProxyError SessionStatus :=
  if b = 0x01 then
    .ok new
  else if b = 0x02 then
    .ok keep
  else if b = 0x03 then
    .ok «end»
  else if b = 0x04 then
    .ok keepAlive
  else
    .error (.protocol ("mux: unknown session status " ++ hex b.toNat))

end SessionStatus

inductive TargetNetwork where
  | tcp
  | udp
deriving DecidableEq

namespace TargetNetwork

def byte : TargetNetwork → UInt8
  | tcp => 0x01
  | udp => 0x02

def fromByte (b : UInt8) : Except ProxyError TargetNetwork :=
  if b = 0x01 then
    .ok tcp
  else if b = 0x02 then
    .ok udp
  else
    .error (.protocol ("mux: unknown target network " ++ hex b.toNat))

end TargetNetwork

structure FrameMetadata where
  sessionId : Nat
  status : SessionStatus
  option : UInt8
  target : Option (TargetNetwork × Address)
  globalId : Option (Vector UInt8 8)
deriving DecidableEq

def isMuxCoolDest : Address → Bool
  | .domain host _ => host = muxCoolDomain
  | _ => false

def isMuxRequest (command : Command) (dest : Address) : Bool :=
  command = .mux || isMuxCoolDest dest

section

variable (sessionId : Nat)

def metadataHead (status : SessionStatus) (opt : UInt8) : Bytes :=
  toBigEndian 2 sessionId ++ [status.byte, opt]

def encodeNewMetadata (dest : Address) (opt : UInt8)
    : Except ProxyError Bytes := do
  let address ← encodeAddressPort dest
  return metadataHead sessionId .new opt ++ TargetNetwork.tcp.byte :: address

def encodeEndMetadata (opt : UInt8) : Bytes :=
  metadataHead sessionId .end opt

def encodeNewMetadataXudp (dest : Address) (globalId : Vector UInt8 8) (opt : UInt8)
    : Except ProxyError Bytes := do
  let address ← encodeAddressPort dest
  return metadataHead xudpSessionId .new opt
    ++ TargetNetwork.udp.byte :: (address ++ globalId.toList)

def encodeKeepMetadataUdp (dest : Address) (opt : UInt8)
    : Except ProxyError Bytes := do
  let address ← encodeAddressPort dest
  return metadataHead sessionId .keep opt ++ TargetNetwork.udp.byte :: address

def encodeKeepMetadata (opt : UInt8) : Bytes :=
  metadataHead sessionId .keep opt

end

def encodePayload : Option Bytes → Except ProxyError Bytes
  | none => .ok []
  | some data =>
    if data.length > maxDataLen then
      .error (.protocol "mux: payload too long")
    else
      .ok (toBigEndian 2 data.length ++ data)

def encodeFrame (metadata : Bytes) (payload : Option Bytes) : Except ProxyError Bytes :=
  if metadata.length > maxMetaLen then
    .error (.protocol "mux: metadata too long")
  else do
    let data ← encodePayload payload
    return toBigEndian 2 metadata.length ++ metadata ++ data

def skipMuxInboundExtension (rest : Bytes) : Except ProxyError Bytes :=
  match rest with
  | [] => .ok []
  | b :: rest =>
    if b = 0 then
      .ok rest
    else do
      let _ ← TargetNetwork.fromByte b
      let (_, consumed) ← decodeAddressPortWithLen rest
      return rest.drop consumed

def skipMuxInboundExtensions (rest : Bytes) : Except ProxyError Bytes := do
  let rest ← skipMuxInboundExtension rest
  skipMuxInboundExtension rest

def parseNewTarget (option : UInt8) (rest : Bytes)
    : Except ProxyError (Option (TargetNetwork × Address) × Option (Vector UInt8 8)) :=
  match rest with
  | [] => .error (.protocol "mux: New missing target")
  | b :: rest => do
    let network ← TargetNetwork.fromByte b
    let (addr, consumed) ← decodeAddressPortWithLen rest
    let rest := rest.drop consumed
    let rest ← if network = .tcp then skipMuxInboundExtensions rest else .ok rest
    if network = .udp ∧ option &&& optData ≠ 0 ∧ rest.length ≥ 8 then
      return (some (network, addr), some (toVector 8 (rest.take 8)))
    else
      return (some (network, addr), none)

def parseKeepTarget (rest : Bytes) : Except ProxyError (Option (TargetNetwork × Address)) :=
  match rest with
  | [] => .ok none
  | b :: rest =>
    if b = TargetNetwork.udp.byte then do
      let (addr, _) ← decodeAddressPortWithLen rest
      return some (.udp, addr)
    else
      .ok none

def parseTarget (status : SessionStatus) (option : UInt8) (rest : Bytes)
    : Except ProxyError (Option (TargetNetwork × Address) × Option (Vector UInt8 8)) :=
  match status with
  | .new => parseNewTarget option rest
  | .keep => do
    let target ← parseKeepTarget rest
    return (target, none)
  | _ => .ok (none, none)

def parseMetadata (metadata : Bytes) : Except ProxyError FrameMetadata :=
  if metadata.length < 4 then
    .error (.protocol "mux: metadata too short")
  else do
    let sessionId := u16At metadata 0
    let status ← SessionStatus.fromByte (metadata.getD 2 0)
    let option := metadata.getD 3 0
    let (target, globalId) ← parseTarget status option (metadata.drop 4)
    return ⟨sessionId, status, option, target, globalId⟩

def isXudpMetadata (metadata : FrameMetadata) : Bool :=
  metadata.sessionId = xudpSessionId && (metadata.target.map Prod.fst) = some .udp
    && (metadata.status = .keep || (metadata.status = .new && metadata.globalId.isSome))

def FrameMetadata.hasData (metadata : FrameMetadata) : Bool :=
  metadata.option &&& optData ≠ 0

def parsePayload (buf : Bytes) (need : Nat) : Except ProxyError (Bytes × Nat) :=
  if buf.length < need + 2 then
    .error (.protocol "mux: truncated payload length")
  else
    let dataLen := u16At buf need
    if dataLen > maxDataLen then
      .error (.protocol ("mux: invalid payload length " ++ toString dataLen))
    else
      let consumed := need + (2 + dataLen)
      if buf.length < consumed then
        .error (.protocol "mux: truncated payload")
      else
        .ok ((buf.drop (need + 2)).take dataLen, consumed)

def parseData (buf : Bytes) (need : Nat) (metadata : FrameMetadata)
    : Except ProxyError (Option Bytes × Nat) :=
  if metadata.hasData then do
    let (payload, consumed) ← parsePayload buf need
    return (some payload, consumed)
  else
    .ok (none, need)

def parseFrame (buf : Bytes) : Except ProxyError (FrameMetadata × Option Bytes × Nat) :=
  if buf.length < 2 then
    .error (.protocol "mux: frame too short")
  else
    let metaLen := u16At buf 0
    if metaLen > maxMetaLen then
      .error (.protocol ("mux: invalid metadata length " ++ toString metaLen))
    else
      let need := 2 + metaLen
      if buf.length < need then
        .error (.protocol "mux: truncated metadata")
      else do
        let metadata ← parseMetadata ((buf.drop 2).take metaLen)
        return (metadata, ← parseData buf need metadata)

def readMuxFrame : Reading (FrameMetadata × Option Bytes) := do
  let metaLen ← readU16
  if metaLen > maxMetaLen then
    throw (.protocol ("mux: invalid metadata length " ++ toString metaLen))
  else
    let metadata ← readExact metaLen
    match parseMetadata metadata with
    | .error e => throw e
    | .ok metadata =>
      if metadata.hasData then
        let dataLen ← readU16
        if dataLen > maxDataLen then
          throw (.protocol ("mux: invalid payload length " ++ toString dataLen))
        else
          let data ← readExact dataLen
          return (metadata, some data)
      else
        return (metadata, none)

-- What is in front of a payload that is too long has been written.
def writePayload : Option Bytes → Exchange Unit
  | none => pure ()
  | some data => do
    Exchange.refuse (data.length > maxDataLen) (.protocol "mux: payload too long")
    BoxedStream.writeAll (toBigEndian 2 data.length)
    BoxedStream.writeAll data

def writeMuxFrame (metadata : Bytes) (payload : Option Bytes) : Exchange Unit := do
  Exchange.refuse (metadata.length > maxMetaLen) (.protocol "mux: metadata too long")
  BoxedStream.writeAll (toBigEndian 2 metadata.length)
  BoxedStream.writeAll metadata
  writePayload payload
  BoxedStream.flush

open Source BoxedStream Exchange Fallible

open List hiding Vector

inductive Announcement where
  | new (sessionId : Nat) (dest : Address)
  | newXudp (dest : Address) (globalId : Vector UInt8 8)
  | keep (sessionId : Nat)
  | keepUdp (sessionId : Nat) (dest : Address)
  | «end» (sessionId : Nat)

namespace Announcement

def encode (opt : UInt8) : Announcement → Except ProxyError Bytes
  | new sessionId dest => encodeNewMetadata sessionId dest opt
  | newXudp dest globalId => encodeNewMetadataXudp dest globalId opt
  | keep sessionId => .ok (encodeKeepMetadata sessionId opt)
  | keepUdp sessionId dest => encodeKeepMetadataUdp sessionId dest opt
  | «end» sessionId => .ok (encodeEndMetadata sessionId opt)

def metadata (opt : UInt8) : Announcement → FrameMetadata
  | new sessionId dest => ⟨sessionId, .new, opt, some (.tcp, dest), none⟩
  | newXudp dest globalId =>
    ⟨xudpSessionId, .new, opt, some (.udp, dest),
      if opt &&& optData ≠ 0 then some globalId else none⟩
  | keep sessionId => ⟨sessionId, .keep, opt, none, none⟩
  | keepUdp sessionId dest => ⟨sessionId, .keep, opt, some (.udp, dest), none⟩
  | «end» sessionId => ⟨sessionId, .end, opt, none, none⟩

def InRange : Announcement → Prop
  | new sessionId dest => sessionId < 65536 ∧ dest.port < 65536
  | newXudp dest _ => dest.port < 65536
  | keep sessionId => sessionId < 65536
  | keepUdp sessionId dest => sessionId < 65536 ∧ dest.port < 65536
  | «end» sessionId => sessionId < 65536

end Announcement

theorem parseMetadata_head (h : sessionId < 65536)
    (htarget : parseTarget status opt rest = .ok (target, globalId))
    : parseMetadata (metadataHead sessionId status opt ++ rest)
        = .ok ⟨sessionId, status, opt, target, globalId⟩ := by
  have hvalue := u16At_append [] ([status.byte, opt] ++ rest) sessionId
  rw [nil_append, length_nil, Nat.mod_eq_of_lt h] at hvalue
  have hstatus : SessionStatus.fromByte status.byte = .ok status := by
    cases status <;> rfl
  have hlong : ¬(metadataHead sessionId status opt ++ rest).length < 4 := by
    simp only [metadataHead, length_append, length_toBigEndian, length_cons]
    omega
  unfold parseMetadata
  rw [if_neg hlong, metadataHead, append_assoc, hvalue]
  simp only [bind_eq_ok]
  exact ⟨status, hstatus, _, htarget, rfl⟩

section

variable (hport : dest.port < 65536) (h : encodeAddressPort dest = .ok address)
include hport h

theorem parseNewTarget_tcp
    : parseNewTarget opt (TargetNetwork.tcp.byte :: address) = .ok (some (.tcp, dest), none) := by
  have hdecode := decodeAddressPortWithLen_encode [] hport h
  rw [append_nil] at hdecode
  simp only [parseNewTarget, bind_eq_ok]
  refine ⟨.tcp, rfl, _, hdecode, ?_⟩
  rw [drop_length]
  rfl

theorem parseNewTarget_udp
    : parseNewTarget opt (TargetNetwork.udp.byte :: (address ++ globalId.toList))
        = .ok (some (.udp, dest), if opt &&& optData ≠ 0 then some globalId else none) := by
  have hdecode := decodeAddressPortWithLen_encode globalId.toList hport h
  simp only [parseNewTarget, bind_eq_ok]
  refine ⟨.udp, rfl, _, hdecode, ?_⟩
  rw [drop_left, if_neg (by decide), bind_eq_ok]
  refine ⟨_, rfl, ?_⟩
  have hlength : globalId.toList.length = 8 := Vector.length_toList
  rw [take_of_length_le (Nat.le_of_eq hlength), toVector_toList, hlength]
  by_cases hopt : opt &&& optData = 0
  . rw [if_neg (by simp [hopt]), if_neg (by simp [hopt])]
    rfl
  . rw [if_pos ⟨rfl, hopt, Nat.le_refl 8⟩, if_pos hopt]
    rfl

theorem parseKeepTarget_udp
    : parseKeepTarget (TargetNetwork.udp.byte :: address) = .ok (some (.udp, dest)) := by
  have hdecode := decodeAddressPortWithLen_encode [] hport h
  rw [append_nil] at hdecode
  simp only [parseKeepTarget, hdecode]
  rfl

end

variable {a : Announcement}

theorem parseMetadata_encode (ha : a.InRange) (h : a.encode opt = .ok bytes)
    : parseMetadata bytes = .ok (a.metadata opt) := by
  cases a with
  | new sessionId dest =>
    simp only [Announcement.encode, encodeNewMetadata, bind_eq_ok,
      pure_eq_ok] at h
    rcases h with ⟨address, haddress, rfl⟩
    apply parseMetadata_head ha.left
    exact parseNewTarget_tcp ha.right haddress
  | newXudp dest globalId =>
    simp only [Announcement.encode, encodeNewMetadataXudp, bind_eq_ok,
      pure_eq_ok] at h
    rcases h with ⟨address, haddress, rfl⟩
    apply parseMetadata_head (by decide)
    exact parseNewTarget_udp ha haddress
  | keep sessionId =>
    cases h
    exact parseMetadata_head ha rfl
  | keepUdp sessionId dest =>
    simp only [Announcement.encode, encodeKeepMetadataUdp, bind_eq_ok,
      pure_eq_ok] at h
    rcases h with ⟨address, haddress, rfl⟩
    apply parseMetadata_head ha.left
    simp only [parseTarget, parseKeepTarget_udp ha.right haddress]
    rfl
  | «end» sessionId =>
    cases h
    exact parseMetadata_head ha rfl

structure MuxFrame where
  metadata : Bytes
  payload : Option Bytes

def MuxFrame.encode (frame : MuxFrame) : Except ProxyError Bytes :=
  encodeFrame frame.metadata frame.payload

/--
The metadata of the frame can be parsed and has its bit for a payload just if there is one, and the
payload has a length of 16 bits.
-/
structure MuxFrame.Faithful (frame : MuxFrame) : Prop where
  metadata : ∃ parsed, parseMetadata frame.metadata = .ok parsed
  announced : frame.metadata.getD 3 0 &&& optData ≠ 0 ↔ frame.payload.isSome
  payload : ∀ data, frame.payload = some data → data.length < 65536

theorem hasData_parseMetadata (h : parseMetadata metadata = .ok parsed)
    : parsed.hasData ↔ metadata.getD 3 0 &&& optData ≠ 0 := by
  unfold parseMetadata at h
  split at h
  next => cases h
  simp only [bind_eq_ok, pure_eq_ok] at h
  rcases h with ⟨_, _, _, _, rfl⟩
  exact decide_eq_true_iff

theorem faithful_of_encode (a : Announcement) (opt : UInt8) (ha : a.InRange) (bytes : Bytes)
    (h : a.encode opt = .ok bytes) (payload : Option Bytes)
    (hannounced : opt &&& optData ≠ 0 ↔ payload.isSome)
    (hpayload : ∀ data, payload = some data → data.length < 65536)
    : MuxFrame.Faithful ⟨bytes, payload⟩ := by
  have hparse := parseMetadata_encode ha h
  have hoption : (a.metadata opt).option = opt := by
    cases a <;> rfl
  refine ⟨⟨_, hparse⟩, ?_, hpayload⟩
  rw [← hannounced, ← hasData_parseMetadata hparse, FrameMetadata.hasData, hoption]
  exact decide_eq_true_iff

theorem parsePayload_append (front data rest : Bytes)
    : parsePayload (front ++ (toBigEndian 2 data.length ++ (data ++ rest))) front.length
        = .ok (data.take (data.length % 65536), front.length + (2 + data.length % 65536)) := by
  have hle := Nat.mod_le data.length 65536
  have hdrop : (front ++ (toBigEndian 2 data.length ++ (data ++ rest))).drop (front.length + 2)
      = data ++ rest := by
    rw [← drop_drop, drop_left]
    apply drop_left'
    apply length_toBigEndian
  unfold parsePayload
  simp only [u16At_append, length_append, length_toBigEndian, maxDataLen]
  rw [if_neg (by omega), if_neg (by omega), if_neg (by omega), hdrop,
    take_append_of_le_length hle]

theorem parseFrame_append (metadata rest : Bytes) (hmetadata : metadata.length ≤ maxMetaLen)
    : let buf := toBigEndian 2 metadata.length ++ (metadata ++ rest)
      parseFrame buf = (do
        let parsed ← parseMetadata metadata
        return (parsed, ← parseData buf (2 + metadata.length) parsed)) := by
  have hlen : u16At (toBigEndian 2 metadata.length ++ (metadata ++ rest)) 0 = metadata.length := by
    have hvalue := u16At_append [] (metadata ++ rest) metadata.length
    unfold maxMetaLen at hmetadata
    rw [nil_append, length_nil, Nat.mod_eq_of_lt (by omega)] at hvalue
    exact hvalue
  have hdrop : (toBigEndian 2 metadata.length ++ (metadata ++ rest)).drop 2 = metadata ++ rest := by
    apply drop_left'
    apply length_toBigEndian
  unfold parseFrame
  simp only [hlen, hdrop, length_append, length_toBigEndian, take_left]
  rw [if_neg (by omega), if_neg (by omega), if_neg (by omega)]

variable {frame : MuxFrame}

theorem encode_eq_ok (h : frame.encode = .ok wire)
    : frame.metadata.length ≤ maxMetaLen ∧ ∃ data, encodePayload frame.payload = .ok data
      ∧ wire = toBigEndian 2 frame.metadata.length ++ (frame.metadata ++ data) := by
  unfold MuxFrame.encode encodeFrame at h
  split at h
  next => cases h
  next hshort =>
    simp only [bind_eq_ok, pure_eq_ok] at h
    rcases h with ⟨data, hdata, rfl⟩
    exact ⟨Nat.le_of_not_lt hshort, data, hdata, append_assoc _ _ _⟩

def MuxFrame.parsed (frame : MuxFrame)
    : Except ProxyError (FrameMetadata × Option Bytes × Nat) := do
  let metadata ← parseMetadata frame.metadata
  let wire ← frame.encode
  return (metadata, frame.payload, wire.length)

theorem parseData_none_iff (buf : Bytes) (need : Nat) (parsed : FrameMetadata)
    : parseData buf need parsed = .ok (none, need) ↔ parsed.hasData = false := by
  unfold parseData
  split
  next hdata =>
    simp only [hdata, bind_eq_ok, pure_eq_ok]
    simp
  next hdata => simp [hdata]

theorem parseData_some_iff (front data rest : Bytes) (parsed : FrameMetadata)
    : parseData (front ++ (toBigEndian 2 data.length ++ (data ++ rest))) front.length parsed
          = .ok (some data, front.length + (2 + data.length))
        ↔ parsed.hasData = true ∧ data.length < 65536 := by
  unfold parseData
  rw [parsePayload_append]
  split
  next hdata =>
    simp only [hdata, bind_eq_ok, pure_eq_ok, Except.ok.injEq]
    constructor
    . rintro ⟨_, rfl, hresult⟩
      simp only [Prod.mk.injEq] at hresult
      exact ⟨trivial, by omega⟩
    . rintro ⟨_, hshort⟩
      rw [Nat.mod_eq_of_lt hshort, take_length]
      exact ⟨_, rfl, rfl⟩
  next hdata => simp [hdata]

theorem parseData_encode_iff (head : Bytes) (rest : Bytes) (h : encodePayload payload = .ok data)
    (parsed : FrameMetadata)
    : parseData (head ++ (data ++ rest)) head.length parsed
          = .ok (payload, head.length + data.length)
        ↔ parsed.hasData = payload.isSome
          ∧ ∀ bytes, payload = some bytes → bytes.length < 65536 := by
  unfold encodePayload at h
  split at h
  next =>
    cases h
    rw [length_nil, Nat.add_zero, parseData_none_iff]
    simp
  next bytes =>
    split at h
    next => cases h
    cases h
    rw [length_append, length_toBigEndian, append_assoc, parseData_some_iff]
    simp

theorem parseFrame_encode_iff (rest : Bytes) (h : frame.encode = .ok wire)
    : (∃ result, parseFrame (wire ++ rest) = .ok result ∧ frame.parsed = .ok result)
        ↔ frame.Faithful := by
  rcases encode_eq_ok h with ⟨hmetadata, data, hdata, hwire⟩
  have hbuf : wire ++ rest
      = toBigEndian 2 frame.metadata.length ++ (frame.metadata ++ (data ++ rest)) := by
    rw [hwire, append_assoc, append_assoc]
  have hlength : 2 + frame.metadata.length + data.length = wire.length := by
    rw [hwire, length_append, length_append, length_toBigEndian]
    omega
  have hiff := parseData_encode_iff (toBigEndian 2 frame.metadata.length ++ frame.metadata) rest
    hdata
  simp only [length_append, length_toBigEndian, hlength] at hiff
  rw [hbuf, parseFrame_append frame.metadata (data ++ rest) hmetadata]
  simp only [MuxFrame.parsed, h, bind_eq_ok, pure_eq_ok, Except.ok.injEq]
  constructor
  . rintro ⟨_, ⟨parsed, hparsed, parts, hparts, rfl⟩, parsed', hparsed', _, rfl, heq⟩
    simp only [Prod.mk.injEq] at heq
    rcases heq with ⟨rfl, rfl⟩
    rcases (hiff parsed').mp hparts with ⟨hhas, hshort⟩
    have hannounced := hasData_parseMetadata hparsed'
    rw [hhas] at hannounced
    exact ⟨⟨parsed', hparsed'⟩, hannounced.symm, hshort⟩
  . rintro ⟨⟨parsed, hparsed⟩, hannounced, hshort⟩
    rw [← hasData_parseMetadata hparsed, ← Bool.eq_iff_iff] at hannounced
    exact ⟨_, ⟨parsed, hparsed, _, (hiff parsed).mpr ⟨hannounced, hshort⟩, rfl⟩, parsed, hparsed, _,
      rfl, rfl⟩

def parseFrames : Nat → Bytes → Except ProxyError (List (FrameMetadata × Option Bytes × Nat))
  | 0, _ => .ok []
  | n + 1, buf => do
    let result ← parseFrame buf
    let results ← parseFrames n (buf.drop result.snd.snd)
    return result :: results

theorem parsed_length (h : frame.encode = .ok wire) (hresult : frame.parsed = .ok result)
    : result.snd.snd = wire.length := by
  simp only [MuxFrame.parsed, h, bind_eq_ok, pure_eq_ok,
    Except.ok.injEq] at hresult
  rcases hresult with ⟨_, _, _, rfl, rfl⟩
  rfl

theorem parseFrames_encode_iff (frames : List MuxFrame) (wires : List Bytes) (rest : Bytes)
    (h : frames.mapM MuxFrame.encode = .ok wires)
    : (∃ results, parseFrames frames.length (wires.flatten ++ rest) = .ok results
          ∧ frames.mapM MuxFrame.parsed = .ok results)
        ↔ ∀ frame ∈ frames, frame.Faithful := by
  induction frames generalizing wires with
  | nil =>
    simp [parseFrames, pure, Except.pure]
  | cons frame frames ih =>
    rw [mapM_cons_eq_ok] at h
    rcases h with ⟨wire, wires, hwire, hwires, rfl⟩
    rw [forall_mem_cons, ← ih wires hwires,
      ← parseFrame_encode_iff (wires.flatten ++ rest) hwire, flatten_cons,
      append_assoc, length_cons]
    simp only [parseFrames, mapM_cons_eq_ok, bind_eq_ok, pure_eq_ok]
    constructor
    . rintro ⟨_, ⟨result, hresult, results, hresults, rfl⟩, _, _, hparsed, hparsed', heq⟩
      cases heq
      rw [parsed_length hwire hparsed, drop_left] at hresults
      exact ⟨⟨result, hresult, hparsed⟩, results, hresults, hparsed'⟩
    . rintro ⟨⟨result, hresult, hparsed⟩, results, hresults, hparsed'⟩
      refine ⟨_, ⟨result, hresult, results, ?_, rfl⟩, result, results, hparsed, hparsed', rfl⟩
      rw [parsed_length hwire hparsed, drop_left]
      exact hresults

theorem writePayload_eq_ok (h : writePayload payload s = .ok () s')
    : ∃ data, encodePayload payload = .ok data ∧ s'.outgoing = s.outgoing ++ data := by
  cases payload with
  | none =>
    cases h
    exact ⟨[], rfl, (append_nil _).symm⟩
  | some bytes =>
    simp only [writePayload, Effect.bind_eq_ok, refuse_eq_ok, writeAll_eq_ok] at h
    rcases h with ⟨_, _, ⟨hshort, rfl⟩, _, _, ⟨_, rfl⟩, _, rfl⟩
    refine ⟨toBigEndian 2 bytes.length ++ bytes, ?_, append_assoc _ _ _⟩
    simp only [encodePayload]
    rw [if_neg hshort]

theorem writeMuxFrame_eq_ok (frame : MuxFrame) (s s' : BoxedStream)
    (h : writeMuxFrame frame.metadata frame.payload s = .ok () s')
    : ∃ wire, frame.encode = .ok wire ∧ s'.outgoing = s.outgoing ++ wire := by
  simp only [writeMuxFrame, Effect.bind_eq_ok, refuse_eq_ok, writeAll_eq_ok, flush] at h
  rcases h with ⟨_, _, ⟨hshort, rfl⟩, _, _, ⟨_, rfl⟩, _, _, ⟨_, rfl⟩, _, t, hpayload, _, rfl⟩
  rcases writePayload_eq_ok hpayload with ⟨data, hdata, ht⟩
  refine ⟨toBigEndian 2 frame.metadata.length ++ frame.metadata ++ data, ?_, ?_⟩
  . unfold MuxFrame.encode encodeFrame
    rw [if_neg hshort, hdata]
    rfl
  . rw [wrote, append_nil, ht]
    simp only [wrote, append_assoc]

def writeMuxFrames (frames : List MuxFrame) : Exchange Unit :=
  frames.forM fun frame => writeMuxFrame frame.metadata frame.payload

theorem mux_frames_round_trip_iff (frames : List MuxFrame) (wires : List Bytes)
    (h : frames.mapM MuxFrame.encode = .ok wires) (rest : Bytes)
    : (∀ s s', writeMuxFrames frames s = .ok () s' → s'.outgoing = s.outgoing ++ wires.flatten)
      ∧ ((∃ results, parseFrames frames.length (wires.flatten ++ rest) = .ok results
          ∧ frames.mapM MuxFrame.parsed = .ok results)
        ↔ ∀ frame ∈ frames, frame.Faithful) := by
  refine ⟨?_, parseFrames_encode_iff frames wires rest h⟩
  intro s s' hs
  rcases forM_eq_ok _ writeMuxFrame_eq_ok s hs with ⟨_, hwires, hs'⟩
  rw [h] at hwires
  cases hwires
  exact hs'

def newAndEnd : List MuxFrame :=
  [⟨[0, 1, 1, 1, 1, 1, 187, 2, 4, 104, 111, 115, 116], some [104, 105]⟩,
    ⟨encodeEndMetadata 1 0, none⟩]

theorem mux_frames_round_trip_iff_newAndEnd
    : let wires : List Bytes :=
        [[0, 13, 0, 1, 1, 1, 1, 1, 187, 2, 4, 104, 111, 115, 116, 0, 2, 104, 105],
          [0, 4, 0, 1, 3, 0]]
      let target := (TargetNetwork.tcp, Address.domain "host" 443)
      newAndEnd.mapM MuxFrame.encode = .ok wires
        ∧ newAndEnd.mapM MuxFrame.parsed = .ok
          [(⟨1, .new, 1, some target, none⟩, some [104, 105], 19),
            (⟨1, .end, 0, none, none⟩, none, 6)]
        ∧ ∃ results, parseFrames 2 (wires.flatten ++ [7]) = .ok results
          ∧ newAndEnd.mapM MuxFrame.parsed = .ok results := by
  refine ⟨by decide +kernel, by decide +kernel, ?_⟩
  apply (mux_frames_round_trip_iff newAndEnd _ (by decide +kernel) [7]).right.mpr
  simp only [newAndEnd, forall_mem_cons]
  refine ⟨?_, ?_, by simp⟩
  . apply faithful_of_encode (.new 1 (.domain "host" 443)) optData
    . exact And.intro (by decide) (by decide)
    . decide +kernel
    . decide
    . simp
  . apply faithful_of_encode (.end 1) 0
    . exact Nat.le_add_left 2 65534
    . rfl
    . decide
    . simp

theorem parseFrame_wrapped (metadata data : Bytes) (hmetadata : metadata.length ≤ maxMetaLen)
    (hparsed : parseMetadata metadata = .ok parsed) (hhas : parsed.hasData = true)
    (hdata : data.length = 65536)
    : parseFrame (toBigEndian 2 metadata.length
            ++ (metadata ++ (toBigEndian 2 data.length ++ data)))
        = .ok (parsed, some [], 4 + metadata.length) := by
  have hpayload := parsePayload_append (toBigEndian 2 metadata.length ++ metadata) data []
  rw [append_nil, hdata, Nat.mod_self, take_zero, append_assoc,
    length_append, length_toBigEndian] at hpayload
  rw [hdata, parseFrame_append metadata _ hmetadata, hparsed]
  simp only [bind_eq_ok]
  refine ⟨parsed, rfl, (some [], 4 + metadata.length), ?_, rfl⟩
  unfold parseData
  rw [if_pos hhas, hpayload, Nat.add_zero, Nat.add_right_comm]
  rfl

theorem encode_some (metadata data : Bytes) (hmetadata : metadata.length ≤ maxMetaLen)
    (hdata : data.length ≤ maxDataLen)
    : MuxFrame.encode ⟨metadata, some data⟩
        = .ok (toBigEndian 2 metadata.length
            ++ (metadata ++ (toBigEndian 2 data.length ++ data))) := by
  simp only [MuxFrame.encode, encodeFrame, encodePayload]
  rw [if_neg (Nat.not_lt_of_le hmetadata), if_neg (Nat.not_lt_of_le hdata), ← append_assoc]
  rfl

theorem mux_payload_length_wraps
    : let payload := replicate 65536 (0 : UInt8)
      let wire : Bytes := [0, 4, 0, 1, 2, 1, 0, 0] ++ payload
      MuxFrame.encode ⟨encodeKeepMetadata 1 optData, some payload⟩ = .ok wire
        ∧ parseFrame wire = .ok (⟨1, .keep, optData, none, none⟩, some [], 8)
        ∧ parseFrame (wire.drop 8) = .error (.protocol "mux: metadata too short") := by
  have hsplit : replicate 65536 (0 : UInt8)
      = toBigEndian 2 0 ++ ([] ++ replicate 65534 0) := by
    rw [nil_append, show toBigEndian 2 0 = replicate 2 0 from rfl,
      replicate_append_replicate]
  have hlength : (replicate 65536 (0 : UInt8)).length = 65536 := length_replicate
  have hrest := parseFrame_append [] (replicate 65534 0) (Nat.zero_le _)
  rw [length_nil, ← hsplit] at hrest
  revert hlength hrest
  generalize replicate 65536 (0 : UInt8) = payload
  intro hlength hrest
  have hencode := encode_some (encodeKeepMetadata 1 optData) payload (by decide)
    (by rw [hlength]; decide)
  have hparse := parseFrame_wrapped (encodeKeepMetadata 1 optData) payload (by decide) rfl rfl
    hlength
  rw [hlength] at hencode hparse
  exact ⟨hencode, hparse, hrest⟩

def Announcement.dest : Announcement → Option Address
  | new _ dest | newXudp dest _ | keepUdp _ dest => some dest
  | keep _ | «end» _ => none

theorem isOk_encode (h : ∀ dest ∈ a.dest, ¬domainTooLong dest)
    : ∃ bytes, a.encode opt = .ok bytes := by
  have haddress (dest : Address) (hdest : ¬domainTooLong dest)
      : ∃ address, encodeAddressPort dest = .ok address := by
    rw [← encodeAddressPort_eq_error] at hdest
    cases hencode : encodeAddressPort dest with
    | error e => exact absurd ⟨e, hencode⟩ hdest
    | ok address => exact ⟨address, rfl⟩
  cases a with
  | new sessionId dest | newXudp dest globalId | keepUdp sessionId dest =>
    rcases haddress dest (h dest rfl) with ⟨address, hencode⟩
    simp only [Announcement.encode, encodeNewMetadata, encodeNewMetadataXudp, encodeKeepMetadataUdp,
      hencode]
    exact ⟨_, rfl⟩
  | keep sessionId => exact ⟨_, rfl⟩
  | «end» sessionId => exact ⟨_, rfl⟩

theorem agrees_readMuxFrame (s : Source UInt8 IoError)
    : Agrees s ((parseFrame s.items).map fun (metadata, payload, n) => ((metadata, payload), n))
        (readMuxFrame s) := by
  unfold parseFrame readMuxFrame
  rw [u16_bind]
  by_cases hshort : s.items.length < 2
  . rw [if_pos hshort, if_neg (by omega)]
    exact ⟨_, _, rfl⟩
  rw [if_neg hshort, if_pos (Nat.le_of_not_lt hshort), u16At_eq _ 0 (by omega), drop_zero]
  generalize ofBigEndian (s.items.take 2) = metaLen
  by_cases hmeta : metaLen > maxMetaLen
  . rw [if_pos hmeta, if_pos hmeta]
    exact ⟨_, _, rfl⟩
  rw [if_neg hmeta, if_neg hmeta, exact_bind, items_skip, length_drop, skip_skip]
  by_cases hneed : s.items.length < 2 + metaLen
  . rw [if_pos hneed, if_neg (by omega)]
    exact ⟨_, _, rfl⟩
  rw [if_neg hneed, if_pos (Nat.le_sub_of_add_le' (Nat.le_of_not_lt hneed))]
  cases parseMetadata ((s.items.drop 2).take metaLen) with
  | error e => exact ⟨_, _, rfl⟩
  | ok metadata =>
    change Agrees s (Except.map _
      (parseData s.items (2 + metaLen) metadata >>= fun x => pure (metadata, x))) _
    unfold parseData
    dsimp only
    by_cases hdata : metadata.hasData = true
    . rw [if_pos hdata, if_pos hdata]
      unfold parsePayload
      rw [u16_bind, items_skip, length_drop, skip_skip]
      by_cases hlen : s.items.length < 2 + metaLen + 2
      . rw [if_pos hlen, if_neg (by omega)]
        exact ⟨_, _, rfl⟩
      rw [if_neg hlen, if_pos (Nat.le_sub_of_add_le' (Nat.le_of_not_lt hlen)),
        u16At_eq _ _ (Nat.le_of_not_lt hlen)]
      generalize ofBigEndian _ = dataLen
      by_cases hmax : dataLen > maxDataLen
      . rw [if_pos hmax, if_pos hmax]
        exact ⟨_, _, rfl⟩
      rw [if_neg hmax, if_neg hmax, exact_bind, items_skip, length_drop, skip_skip,
        Nat.add_assoc (2 + metaLen)]
      by_cases hall : s.items.length < 2 + metaLen + (2 + dataLen)
      . rw [if_pos hall, if_neg (by omega)]
        exact ⟨_, _, rfl⟩
      . rw [if_neg hall, if_pos (by omega)]
        exact ⟨Nat.le_of_not_lt hall, rfl⟩
    . rw [if_neg hdata, if_neg hdata]
      exact ⟨Nat.le_of_not_lt hneed, rfl⟩

theorem mux_metadata_round_trip
    : (∀ (a : Announcement) (opt : UInt8), a.InRange → (∀ dest ∈ a.dest, ¬domainTooLong dest) →
        ∃ bytes, a.encode opt = .ok bytes ∧ parseMetadata bytes = .ok (a.metadata opt))
      ∧ (∀ (sessionId : Nat) (opt : UInt8), sessionId < 65536 →
        parseMetadata (metadataHead sessionId .keepAlive opt)
          = .ok ⟨sessionId, .keepAlive, opt, none, none⟩)
      ∧ ∀ s, Agrees s
        ((parseFrame s.items).map fun (metadata, payload, n) => ((metadata, payload), n))
        (readMuxFrame s) := by
  refine ⟨?_, ?_, agrees_readMuxFrame⟩
  . intro a opt ha hdest
    rcases isOk_encode hdest with ⟨bytes, hencode⟩
    exact ⟨bytes, hencode, parseMetadata_encode ha hencode⟩
  . intro sessionId opt h
    exact parseMetadata_head h rfl

structure UdpPacket where
  dest : Address
  payload : Bytes

def writeUdpPackets (packets : List UdpPacket) : Exchange Unit :=
  packets.forM fun packet => writeUdpPacket packet.dest packet.payload

def readUdpPacket : Reading UdpPacket := do
  let dest ← readUdpHeader
  let payload ← readUdpPayload
  return ⟨dest, payload⟩

def readUdpPackets : Nat → Reading (List UdpPacket)
  | 0 => pure []
  | n + 1 => do
    let packet ← readUdpPacket
    let packets ← readUdpPackets n
    return packet :: packets

def udpHeaderLen : Address → Nat
  | .ipv4 _ _ => 2 + 7
  | .ipv6 _ _ => 2 + 19
  | .domain name _ => 2 + (4 + (ofString name).length)

/--
The segment that a payload starts in has just this payload left, or as much as fits into the buffer,
and it is there before the time is over. An empty payload has to be at the end of the stream.
-/
def Delimited : List UdpPacket → Source UInt8 IoError → Prop
  | [], _ => True
  | packet :: packets, s =>
    (s.skip (udpHeaderLen packet.dest)).Offers payloadTimeout maxPayloadLen packet.payload.length
      ∧ Delimited packets (s.skip (udpHeaderLen packet.dest + packet.payload.length))

theorem length_encodeAddressPort (h : encodeAddressPort dest = .ok addr)
    : 2 + addr.length = udpHeaderLen dest ∧ 0 < addr.length ∧ addr.length ≤ 259 := by
  cases dest with
  | ipv4 ip port =>
    cases h
    simp [udpHeaderLen]
  | ipv6 ip port =>
    cases h
    simp [udpHeaderLen]
  | domain name port =>
    simp only [encodeAddressPort, bind_eq_ok, pure_eq_ok] at h
    rcases h with ⟨len, hlen, rfl⟩
    have hvalue := toNat_of_domainWireLen hlen
    have hbyte : len.toNat < 256 := len.toNat_lt
    simp only [udpHeaderLen, length_append, length_toBigEndian, length_cons]
    omega

def UdpPacket.encode (packet : UdpPacket) : Except ProxyError Bytes := do
  let addr ← encodeAddressPort packet.dest
  return toBigEndian 2 addr.length ++ addr ++ packet.payload

variable (packet : UdpPacket)

theorem writeUdpPacket_eq_ok (s s' : BoxedStream)
    (h : writeUdpPacket packet.dest packet.payload s = .ok () s')
    : ∃ frame, packet.encode = .ok frame ∧ s'.outgoing = s.outgoing ++ frame := by
  simp only [writeUdpPacket, Effect.bind_eq_ok, ofExcept_eq_ok, refuse_eq_ok, writeAll_eq_ok,
    flush] at h
  rcases h with ⟨addr, _, ⟨haddr, rfl⟩, _, _, ⟨_, rfl⟩, _, _, ⟨_, rfl⟩, _, rfl⟩
  refine ⟨toBigEndian 2 addr.length ++ addr ++ packet.payload, ?_, ?_⟩
  . unfold UdpPacket.encode
    rw [haddr]
    rfl
  . simp only [wrote, append_nil, append_assoc]

theorem reads_readUdpHeader (hport : dest.port < 65536) (h : encodeAddressPort dest = .ok addr)
    : Reads readUdpHeader (toBigEndian 2 addr.length ++ addr) dest := by
  rcases length_encodeAddressPort h with ⟨_, hpos, hshort⟩
  apply Reads.of_bind
  . apply reads_u16
    omega
  . rw [if_neg (by omega)]
    apply Reads.of_bind_last
    . apply reads_exact
      rfl
    . rw [decodeAddressPort_encode dest addr hport h]
      apply Reads.of_pure

theorem readUdpPayload_eq_ok (s s' : Source UInt8 IoError) (payload : Bytes)
    : readUdpPayload s = .ok payload s'
        ↔ s.Offers payloadTimeout maxPayloadLen payload.length
          ∧ s.items.take payload.length = payload ∧ s.skip payload.length = s' := by
  unfold readUdpPayload
  rw [Effect.adaptExcept_eq_ok, readWithin_eq_ok]

theorem length_encode (frame : Bytes) (h : packet.encode = .ok frame)
    : frame.length = udpHeaderLen packet.dest + packet.payload.length := by
  simp only [UdpPacket.encode, bind_eq_ok, pure_eq_ok] at h
  rcases h with ⟨addr, haddr, rfl⟩
  rw [length_append, length_append, length_toBigEndian,
    (length_encodeAddressPort haddr).left]

theorem readUdpPacket_eq_ok (hport : packet.dest.port < 65536) {frame : Bytes}
    (h : packet.encode = .ok frame) {s : Source UInt8 IoError} (s' : Source UInt8 IoError)
    {rest : Bytes}
    (hs : s.items = frame ++ rest)
    : readUdpPacket s = .ok packet s'
        ↔ (s.skip (udpHeaderLen packet.dest)).Offers payloadTimeout maxPayloadLen
            packet.payload.length
          ∧ s.skip frame.length = s' := by
  simp only [UdpPacket.encode, bind_eq_ok, pure_eq_ok] at h
  rcases h with ⟨addr, haddr, rfl⟩
  have hlength : (toBigEndian 2 addr.length ++ addr).length = udpHeaderLen packet.dest := by
    rw [length_append, length_toBigEndian]
    exact (length_encodeAddressPort haddr).left
  rw [append_assoc] at hs
  have hheader := reads_readUdpHeader hport haddr s _ hs
  have hitems := items_skip (toBigEndian 2 addr.length ++ addr).length s
  rw [hs, drop_left] at hitems
  rw [hlength] at hheader hitems
  rw [length_append, hlength, ← skip_skip]
  simp only [readUdpPacket, Effect.bind_eq_ok, Effect.pure_eq_ok, hheader, readUdpPayload_eq_ok,
    EStateM.Result.ok.injEq]
  constructor
  . rintro ⟨_, _, ⟨rfl, rfl⟩, payload, _, ⟨hoffers, _, rfl⟩, hpacket, rfl⟩
    have hpayload : payload = packet.payload := congrArg UdpPacket.payload hpacket
    rw [hpayload] at hoffers ⊢
    exact ⟨hoffers, rfl⟩
  . rintro ⟨hoffers, rfl⟩
    refine ⟨_, _, ⟨rfl, rfl⟩, packet.payload, _, ⟨hoffers, ?_, rfl⟩, rfl, rfl⟩
    rw [hitems, take_left]

theorem readUdpPackets_iff (packets : List UdpPacket) (hports : ∀ p ∈ packets, p.dest.port < 65536)
    (frames : List Bytes) (h : packets.mapM UdpPacket.encode = .ok frames)
    (s : Source UInt8 IoError) (hs : s.items = frames.flatten)
    : (∃ s', readUdpPackets packets.length s = .ok packets s') ↔ Delimited packets s := by
  induction packets generalizing frames s with
  | nil =>
    rw [Delimited, iff_true]
    exact ⟨s, rfl⟩
  | cons packet packets ih =>
    rw [forall_mem_cons] at hports
    rw [mapM_cons_eq_ok] at h
    rcases h with ⟨frame, frames, hframe, hframes, rfl⟩
    rw [flatten_cons] at hs
    have hitems : (s.skip frame.length).items = frames.flatten := by
      rw [items_skip, hs, drop_left]
    rw [Delimited, ← length_encode packet frame hframe,
      ← ih hports.right frames hframes (s.skip frame.length) hitems, length_cons]
    simp only [readUdpPackets, Effect.bind_eq_ok, Effect.pure_eq_ok, List.cons.injEq]
    constructor
    . rintro ⟨s', _, _, hpacket, _, _, hpackets, ⟨rfl, rfl⟩, rfl⟩
      rw [readUdpPacket_eq_ok _ hports.left hframe _ hs] at hpacket
      rcases hpacket with ⟨hoffers, rfl⟩
      exact ⟨hoffers, _, hpackets⟩
    . rintro ⟨hoffers, s', hpackets⟩
      refine ⟨s', packet, s.skip frame.length, ?_, packets, s', hpackets, ⟨rfl, rfl⟩, rfl⟩
      rw [readUdpPacket_eq_ok packet hports.left hframe _ hs]
      exact ⟨hoffers, rfl⟩

theorem udp_packets_round_trip_iff (packets : List UdpPacket)
    (hports : ∀ p ∈ packets, p.dest.port < 65536) (s s' : BoxedStream)
    (hwrite : writeUdpPackets packets s = .ok () s') (source : Source UInt8 IoError)
    (hsource : s'.outgoing = s.outgoing ++ source.items)
    : (∃ source', readUdpPackets packets.length source = .ok packets source')
        ↔ Delimited packets source := by
  rcases forM_eq_ok _ writeUdpPacket_eq_ok s hwrite with
    ⟨frames, hframes, houtgoing⟩
  rw [houtgoing, append_cancel_left_eq] at hsource
  exact readUdpPackets_iff packets hports frames hframes source hsource.symm

def twoPackets : List UdpPacket :=
  [⟨.ipv4 0x7f000001 53, [1, 2]⟩, ⟨.domain "host" 443, [3]⟩]

def idleStream : BoxedStream :=
  ⟨ofSegments [], [], []⟩

theorem udp_packets_round_trip_iff_twoSegments
    : let source : Source UInt8 IoError := ofSegments
        [[0, 7, 0, 53, 1, 127, 0, 0, 1, 1, 2], [0, 8, 1, 187, 2, 4, 104, 111, 115, 116, 3]]
      (∃ s, writeUdpPackets twoPackets idleStream = .ok () s ∧ s.outgoing = source.items)
        ∧ ∃ source', readUdpPackets 2 source = .ok twoPackets source' := by
  let s : BoxedStream := ⟨ofSegments [],
    [0, 7, 0, 53, 1, 127, 0, 0, 1, 1, 2, 0, 8, 1, 187, 2, 4, 104, 111, 115, 116, 3], []⟩
  have hwrite : writeUdpPackets twoPackets idleStream = .ok () s := by
    rfl
  refine ⟨⟨s, hwrite, rfl⟩, ?_⟩
  apply (udp_packets_round_trip_iff twoPackets (by decide) idleStream s hwrite _ rfl).mpr
  exact ⟨⟨by decide, rfl⟩, ⟨by decide, rfl⟩, trivial⟩

theorem udp_packets_coalesce
    : let source : Source UInt8 IoError := ofSegments
        [[0, 7, 0, 53, 1, 127, 0, 0, 1, 1, 2, 0, 8, 1, 187, 2, 4, 104, 111, 115, 116, 3]]
      (∃ s, writeUdpPackets twoPackets idleStream = .ok () s ∧ s.outgoing = source.items)
        ∧ (∃ source', readUdpPackets 1 source = .ok [⟨.ipv4 0x7f000001 53,
          [1, 2, 0, 8, 1, 187, 2, 4, 104, 111, 115, 116, 3]⟩] source')
        ∧ ∃ source', readUdpPackets 2 source = .error (.io .unexpectedEof) source' := by
  exact ⟨⟨_, rfl, rfl⟩, ⟨_, rfl⟩, ⟨_, rfl⟩⟩

end Blackwire.Vless
