import Blackwire.Lib.RecordReader
import Blackwire.Lib.RecordWriter
import Blackwire.Transport.ShadowTls.Impl.Handshake

/-!
This module contains the frames of version three of ShadowTLS with the stream that is made of them,
and the tag in the session id of its ClientHello. The frames are verified: what the decoder makes of
what the encoder and the relay of the handshake write.
-/

namespace Blackwire.ShadowTls
namespace V3

open Bytes

def tlsHeaderLen : Nat := 5
def clientHello : UInt8 := 0x01
def sessionIdLen : Nat := 32
def sessionIdRandomLen : Nat := 28
def maxTlsPlaintext : Nat := 16384

inductive FrameKind where
  | residualHandshake
  | data
deriving DecidableEq

inductive Direction where
  | clientToServer
  | serverToClient

def Direction.label : Direction → UInt8
  | clientToServer => 0x43
  | serverToClient => 0x53

def dataMac (psk serverRandom : Bytes) (dir : Direction) : ShadowHmac :=
  ⟨psk, serverRandom ++ [dir.label]⟩

structure FrameEncoder where
  mac : ShadowHmac

namespace FrameEncoder

def new (psk serverRandom : Bytes) (dir : Direction) : FrameEncoder :=
  ⟨dataMac psk serverRandom dir⟩

def encodeApplicationDataInto (c : Crypto) (e : FrameEncoder) (plaintext : Bytes)
    : Except ProxyError (FrameEncoder × Bytes) :=
  if plaintext.length > maxTlsPlaintext then
    .error (.protocol ("ShadowTLS v3 plaintext too large: " ++ toString plaintext.length))
  else
    let tag := e.mac.nextTag c plaintext
    let record : Record := ⟨tlsRecordApplicationData, (0x03, 0x03), tag ++ plaintext⟩
    .ok (⟨(e.mac.update plaintext).update tag⟩, record.encode)

end FrameEncoder

structure FrameDecoder where
  dataMac : ShadowHmac
  residualMac : Option ShadowHmac

namespace FrameDecoder

def new (psk serverRandom : Bytes) (dir : Direction) : FrameDecoder where
  dataMac := V3.dataMac psk serverRandom dir
  residualMac :=
    match dir with
    | .clientToServer => none
    | .serverToClient => some (residualHandshakeMac psk serverRandom)

variable (c : Crypto) (d : FrameDecoder)

-- The second half of `verify_payload`.
def verifyData (candidate data : Bytes) : Except ProxyError (FrameKind × FrameDecoder) :=
  if d.dataMac.nextTag c data = candidate then
    .ok (.data, ⟨(d.dataMac.update data).update candidate, none⟩)
  else
    .error .authFailed

def verifyPayload (payload : Bytes) : Except ProxyError (FrameKind × FrameDecoder) :=
  if payload.length < tagLen then
    .error (.protocol "ShadowTLS v3 ApplicationData frame too short")
  else
    let candidate := payload.take tagLen
    let data := payload.drop tagLen
    match d.residualMac with
    | some mac =>
      if mac.nextTag c data = candidate then
        .ok (.residualHandshake, { d with residualMac := some (mac.update data) })
      else
        d.verifyData c candidate data
    | none => d.verifyData c candidate data

def decodeApplicationData (record : Bytes)
    : Except ProxyError (FrameKind × Bytes × FrameDecoder) := do
  let payload ← applicationPayload record
  let (kind, d) ← d.verifyPayload c payload
  match kind with
  | .residualHandshake => return (kind, [], d)
  | .data => return (kind, payload.drop tagLen, d)

end FrameDecoder

inductive ReadError where
  | unexpectedEof (message : String)
  | invalidData (message : String)

inductive WriteError (ι : Type) where
  | invalidData (message : String)
  | writeZero
  | inner (e : ι)

-- The checks of `poll_read` on a header.
def bodyLen (header : Bytes) : Except ReadError Nat :=
  let recordType := header.getD 0 0
  if recordType ≠ tlsRecordApplicationData then
    .error (.invalidData
      ("ShadowTLS v3 expected ApplicationData, got " ++ hexPadded 2 recordType.toNat))
  else
    let len := u16At header 3
    if len > maxTlsPlaintext + tagLen then
      .error (.invalidData ("ShadowTLS v3 record too large: " ++ toString len))
    else
      .ok len

def processBody (c : Crypto) (d : FrameDecoder) (body : Bytes)
    : Except ReadError (FrameDecoder × Bytes) :=
  match d.verifyPayload c body with
  | .ok (.residualHandshake, d) => .ok (d, [])
  | .ok (.data, d) => .ok (d, body.drop tagLen)
  | .error e => .error (.invalidData e.text)

def reading (c : Crypto) : RecordFormat FrameDecoder UInt8 ReadError where
  headerLen := tlsHeaderLen
  headerLen_pos := by decide
  bodyLen := bodyLen
  process := fun d _ body => processBody c d body
  headerEof := .unexpectedEof "ShadowTLS v3 peer closed mid-record-header"
  bodyEof := .unexpectedEof "ShadowTLS v3 peer closed mid-record-body"

def writing (c : Crypto) (ι : Type) : RecordWriter FrameEncoder UInt8 (WriteError ι) where
  limit := maxTlsPlaintext
  limit_pos := by decide
  zero := .writeZero
  encode := fun e chunk =>
    (e.encodeApplicationDataInto c chunk).mapError fun e => .invalidData e.text

structure V3Stream where
  reader : RecordFormat.Reader FrameDecoder UInt8
  writer : Outbox (RecordWriter.Core FrameEncoder) UInt8

namespace V3Stream

def new (encoder : FrameEncoder) (decoder : FrameDecoder) : V3Stream :=
  ⟨.new decoder, ⟨⟨encoder, 0⟩, [], []⟩⟩

section

variable (psk serverRandom : Bytes)

def client : V3Stream :=
  new (.new psk serverRandom .clientToServer) (.new psk serverRandom .serverToClient)

def clientAfterResidual (decoder : FrameDecoder) : V3Stream :=
  new (.new psk serverRandom .clientToServer) decoder

def server : V3Stream :=
  new (.new psk serverRandom .serverToClient) (.new psk serverRandom .clientToServer)

end

-- The payload of the first record is returned in front of the stream.
def serverAfterFirstClientRecord (c : Crypto) (psk serverRandom firstClientRecord : Bytes)
    : Except ProxyError (V3Stream × Bytes) := do
  let decoder := FrameDecoder.new psk serverRandom .clientToServer
  let (kind, firstPayload, decoder) ← decoder.decodeApplicationData c firstClientRecord
  if kind ≠ .data then
    throw (.protocol "ShadowTLS v3 expected first client data frame")
  return (new (.new psk serverRandom .serverToClient) decoder, firstPayload)

end V3Stream

structure ClientHelloSession where
  sessionId : Bytes
  sessionIdOffset : Nat

def sessionIdOffset (record : Bytes) : Except ProxyError Nat :=
  if record.length < tlsHeaderLen + 4 then
    .error (.protocol "ShadowTLS v3 ClientHello record too short")
  else if record.getD 0 0 ≠ tlsRecordHandshake then
    .error (.protocol "ShadowTLS v3 expected TLS handshake record")
  else
    let recordLen := u16At record 3
    if record.length < tlsHeaderLen + recordLen then
      .error (.protocol "ShadowTLS v3 truncated ClientHello record")
    else
      let body := (record.drop tlsHeaderLen).take recordLen
      if body.length < 43 ∨ body.getD 0 0 ≠ clientHello then
        .error (.protocol "ShadowTLS v3 expected ClientHello handshake")
      else
        let declared := (body.getD 1 0).toNat * 2 ^ 16 + (body.getD 2 0).toNat * 2 ^ 8
          + (body.getD 3 0).toNat
        if declared + 4 ≠ body.length then
          .error (.protocol "ShadowTLS v3 ClientHello length mismatch")
        else
          let pos := 4 + 2 + 32
          if pos ≥ body.length then
            .error (.protocol "ShadowTLS v3 missing SessionID length")
          else
            let len := (body.getD pos 0).toNat
            let pos := pos + 1
            if len ≠ sessionIdLen then
              .error (.protocol
                ("ShadowTLS v3 SessionID must be 32 bytes, got " ++ toString len))
            else if pos + sessionIdLen > body.length then
              .error (.protocol "ShadowTLS v3 truncated SessionID")
            else
              .ok (tlsHeaderLen + pos)

variable (c : Crypto) (record psk : Bytes)

def clientHelloHmac : Except ProxyError Bytes := do
  let offset ← sessionIdOffset record
  let body := record.drop tlsHeaderLen
  let sidOffsetInHandshake := offset - tlsHeaderLen
  let zeroStart := sidOffsetInHandshake + sessionIdRandomLen
  let zeroEnd := sidOffsetInHandshake + sessionIdLen
  let zeros := List.replicate (sessionIdLen - sessionIdRandomLen) 0
  return (c.hmacSha1 psk (body.take zeroStart ++ zeros ++ body.drop zeroEnd)).take tagLen

-- `copy_from_slice` into the bytes from `start` on.
def overwrite (record : Bytes) (start : Nat) (bytes : Bytes) : Bytes :=
  record.take start ++ bytes ++ record.drop (start + bytes.length)

def signClientHelloSessionId (c : Crypto) (record psk random : Bytes)
    : Except ProxyError (Bytes × ClientHelloSession) := do
  let offset ← sessionIdOffset record
  let record := overwrite record offset random
  let record := overwrite record (offset + sessionIdRandomLen)
    (List.replicate (sessionIdLen - sessionIdRandomLen) 0)
  let tag ← clientHelloHmac c record psk
  let record := overwrite record (offset + sessionIdRandomLen) tag
  return (record, ⟨(record.drop offset).take sessionIdLen, offset⟩)

def verifyClientHelloSessionId : Except ProxyError ClientHelloSession := do
  let offset ← sessionIdOffset record
  let tag ← clientHelloHmac c record psk
  let candidate := (record.drop (offset + sessionIdRandomLen)).take
    (sessionIdLen - sessionIdRandomLen)
  if tag ≠ candidate then
    throw .authFailed
  return ⟨(record.drop offset).take sessionIdLen, offset⟩

end V3

namespace V3

open Bytes List

def HmacSized (c : Crypto) : Prop :=
  ∀ key data, (c.hmacSha1 key data).length = 20

variable (r : Record)

theorem length_nextTag (hc : HmacSized c) (mac : ShadowHmac) (data : Bytes)
    : (mac.nextTag c data).length = tagLen := by
  unfold ShadowHmac.nextTag
  rw [length_take, hc]
  rfl

def next (c : Crypto) (mac : ShadowHmac) (chunk : Bytes) : ShadowHmac :=
  (mac.update chunk).update (mac.nextTag c chunk)

def frame (c : Crypto) (mac : ShadowHmac) (data : Bytes) : Record :=
  ⟨tlsRecordApplicationData, (0x03, 0x03), mac.nextTag c data ++ data⟩

def header (r : Record) : Bytes :=
  [r.recordType, r.version.fst, r.version.snd, UInt8.ofNat (r.payload.length % 2 ^ 16 / 256),
    UInt8.ofNat (r.payload.length % 2 ^ 16)]

theorem encode_eq : r.encode = header r ++ r.payload := by
  rfl

theorem length_payload_frame (hc : HmacSized c) (mac : ShadowHmac) (data : Bytes)
    : (frame c mac data).payload.length = tagLen + data.length := by
  unfold frame
  rw [length_append, length_nextTag hc]

theorem u16At_header : u16At (header r) 3 = r.payload.length % 2 ^ 16 := by
  simp only [header, u16At, byteAt, getD_cons_succ, getD_cons_zero, UInt8.toNat_ofNat']
  omega

theorem bodyLen_header (c : Crypto) (h : r.recordType = tlsRecordApplicationData)
    : (reading c).bodyLen (header r)
        = if r.payload.length % 2 ^ 16 > maxTlsPlaintext + tagLen then
            .error (.invalidData
              ("ShadowTLS v3 record too large: " ++ toString (r.payload.length % 2 ^ 16)))
          else
            .ok (r.payload.length % 2 ^ 16) := by
  have htype : (header r).getD 0 0 = tlsRecordApplicationData := h
  unfold reading bodyLen
  dsimp only
  rw [u16At_header, if_neg (by rw [htype]; simp)]

theorem bodyLen_frame (hc : HmacSized c) (h : data.length ≤ maxTlsPlaintext)
    : (reading c).bodyLen (header (frame c mac data))
        = .ok (frame c mac data).payload.length := by
  have hmod : (frame c mac data).payload.length % 2 ^ 16 = (frame c mac data).payload.length := by
    apply Nat.mod_eq_of_lt
    rw [length_payload_frame hc]
    unfold maxTlsPlaintext at h
    unfold tagLen
    omega
  rw [bodyLen_header _ c rfl, hmod, if_neg]
  rw [length_payload_frame hc]
  omega

namespace FrameDecoder

variable (d : FrameDecoder) (tag data : Bytes) (htag : tag.length = tagLen)

include htag

theorem verifyPayload_of_residual (m : ShadowHmac) (hm : d.residualMac = some m)
    (heq : m.nextTag c data = tag)
    : d.verifyPayload c (tag ++ data)
        = .ok (.residualHandshake, { d with residualMac := some (m.update data) }) := by
  unfold verifyPayload
  rw [if_neg (by rw [length_append]; omega), ← htag, take_left, drop_left, hm]
  dsimp only
  rw [if_pos heq]

theorem verifyPayload_of_data (hne : ∀ m ∈ d.residualMac, m.nextTag c data ≠ tag)
    : d.verifyPayload c (tag ++ data) = d.verifyData c tag data := by
  unfold verifyPayload
  rw [if_neg (by rw [length_append]; omega), ← htag, take_left, drop_left]
  cases hm : d.residualMac with
  | none => rfl
  | some m =>
    dsimp only
    rw [if_neg (hne m hm)]

end FrameDecoder

theorem FrameDecoder.verifyPayload_eq_ok {d d' : FrameDecoder}
    (h : d.verifyPayload c body = .ok (kind, d'))
    : (kind = .residualHandshake ∧ d'.dataMac = d.dataMac)
      ∨ (kind = .data ∧ d.dataMac.nextTag c (body.drop tagLen) = body.take tagLen
        ∧ d' = ⟨next c d.dataMac (body.drop tagLen), none⟩) := by
  have hverify (h : d.verifyData c (body.take tagLen) (body.drop tagLen) = .ok (kind, d'))
      : kind = .data ∧ d.dataMac.nextTag c (body.drop tagLen) = body.take tagLen
        ∧ d' = ⟨next c d.dataMac (body.drop tagLen), none⟩ := by
    unfold verifyData at h
    split at h
    . next htag =>
      cases h
      exact ⟨rfl, htag, by rw [next, htag]⟩
    . cases h
  unfold verifyPayload at h
  split at h
  . cases h
  dsimp only at h
  split at h
  . split at h
    . cases h
      exact Or.inl ⟨rfl, rfl⟩
    . exact Or.inr (hverify h)
  . exact Or.inr (hverify h)

def FrameDecoder.takesData (c : Crypto) (d : FrameDecoder) (body : Bytes) : Bool :=
  match d.verifyPayload c body with
  | .ok (.data, _) => true
  | _ => false

def outcome (c : Crypto) (d : FrameDecoder) (bytes : Bytes) : Bytes × Option ReadError :=
  (((reading c).parse d bytes).plain, ((reading c).parse d bytes).error)

section

variable (hc : HmacSized c) (d : FrameDecoder) (mac : ShadowHmac) {data : Bytes} (rest : Bytes)

include hc

omit hc in
theorem processBody_eq_ok (body : Bytes) (d' : FrameDecoder) (out : Bytes)
    (h : processBody c d body = .ok (d', out))
    : out = [] ∨ out = body.drop tagLen := by
  unfold processBody at h
  split at h
  . cases h
    exact Or.inl rfl
  . cases h
    exact Or.inr rfl
  . cases h

section

variable (hlen : data.length ≤ maxTlsPlaintext)

include hlen

theorem parse_frame (h : processBody c d (frame c mac data).payload = .ok (d', out))
    : (reading c).parse d ((frame c mac data).encode ++ rest)
        = ((reading c).parse d' rest).cons d (header (frame c mac data)) (frame c mac data).payload
          out := by
  exact RecordFormat.parse_record (f := reading c) rfl (bodyLen_frame hc hlen) rfl h

theorem parse_frame_of_refused (h : processBody c d (frame c mac data).payload = .error e)
    : (reading c).parse d ((frame c mac data).encode ++ rest) = .refused e := by
  exact RecordFormat.parse_of_refused (f := reading c) rfl (bodyLen_frame hc hlen) rfl h

theorem outcome_residual (dataMac : ShadowHmac)
    : outcome c ⟨dataMac, some mac⟩ ((frame c mac data).encode ++ rest)
        = outcome c ⟨dataMac, some (mac.update data)⟩ rest := by
  have hverify := FrameDecoder.verifyPayload_of_residual ⟨dataMac, some mac⟩ _ data
    (length_nextTag hc mac data) mac rfl rfl
  have hprocess : processBody c ⟨dataMac, some mac⟩ (frame c mac data).payload
      = .ok (⟨dataMac, some (mac.update data)⟩, []) := by
    unfold processBody frame
    rw [hverify]
  unfold outcome
  rw [parse_frame hc _ mac rest hlen hprocess]
  rfl

variable (data) in
theorem outcome_data (hne : ∀ m ∈ d.residualMac, m.nextTag c data ≠ d.dataMac.nextTag c data)
    : outcome c d ((frame c d.dataMac data).encode ++ rest)
        = (data ++ (outcome c ⟨next c d.dataMac data, none⟩ rest).fst,
          (outcome c ⟨next c d.dataMac data, none⟩ rest).snd) := by
  have htag := length_nextTag hc d.dataMac data
  have hverify := d.verifyPayload_of_data _ data htag hne
  have hprocess : processBody c d (frame c d.dataMac data).payload
      = .ok (⟨next c d.dataMac data, none⟩, data) := by
    unfold processBody frame
    rw [hverify, FrameDecoder.verifyData, if_pos rfl]
    rw [← htag, drop_left]
    rfl
  unfold outcome
  rw [parse_frame hc d _ rest hlen hprocess]
  rfl

theorem outcome_part (hpart : part ++ queue = (frame c mac data).encode) (hqueue : queue ≠ [])
    : outcome c d part = ([], none) := by
  have hnothing : (reading c).parse d part = .nothing := by
    by_cases hshort : part.length < tlsHeaderLen
    . exact RecordFormat.parse_of_short_header (f := reading c) hshort
    have hsplit := take_append_drop tlsHeaderLen part
    have hheader : part.take tlsHeaderLen = header (frame c mac data) := by
      have htake := congrArg (take tlsHeaderLen) hpart
      rw [take_append_of_le_length (by omega)] at htake
      exact htake
    have hbody : part.drop tlsHeaderLen ++ queue = (frame c mac data).payload := by
      have hdrop := congrArg (drop tlsHeaderLen) hpart
      rw [drop_append_of_le_length (by omega)] at hdrop
      exact hdrop
    rw [← hsplit, hheader]
    apply RecordFormat.parse_of_short_body (f := reading c) rfl (bodyLen_frame hc hlen)
    have hpos := length_pos_iff.mpr hqueue
    rw [← hbody, length_append]
    omega
  unfold outcome
  rw [hnothing]
  rfl

end

theorem outcome_too_long (hlong : maxTlsPlaintext < data.length) (hmax : data.length < 2 ^ 16)
    : ∃ e, outcome c d ((frame c mac data).encode ++ rest) = ([], some e) := by
  have hlength := length_payload_frame hc mac data
  have hbodyLen := bodyLen_header (frame c mac data) c rfl
  rw [encode_eq]
  by_cases hfits : tagLen + data.length < 2 ^ 16
  . rw [hlength, Nat.mod_eq_of_lt hfits, if_pos (by omega)] at hbodyLen
    unfold outcome
    rw [append_assoc, RecordFormat.parse_of_bad_header (f := reading c) rfl hbodyLen]
    exact ⟨_, rfl⟩
  . rcases Nat.exists_eq_add_of_le (Nat.le_of_not_lt hfits) with ⟨len, hlen⟩
    have hsmall : len < tagLen := by omega
    have hmod : (2 ^ 16 + len) % 2 ^ 16 = len := by
      unfold tagLen at hsmall
      omega
    rw [hlength, hlen, hmod, if_neg (by omega)] at hbodyLen
    have hsplit := take_append_drop len (frame c mac data).payload
    have htake : ((frame c mac data).payload.take len).length = len := by
      rw [length_take, hlength]
      omega
    generalize (frame c mac data).payload.take len = body at hsplit htake
    have hprocess : processBody c d body
        = .error (.invalidData
          (ProxyError.protocol "ShadowTLS v3 ApplicationData frame too short").text) := by
      unfold processBody FrameDecoder.verifyPayload
      rw [if_pos (by omega)]
    unfold outcome
    rw [append_assoc, ← hsplit, append_assoc, ← append_assoc (header _),
      RecordFormat.parse_of_refused (f := reading c) rfl hbodyLen htake hprocess]
    exact ⟨_, rfl⟩

end

def sessionIdStart : Nat := 44

theorem sessionIdOffset_eq_ok (h : sessionIdOffset record = .ok offset)
    : offset = sessionIdStart ∧ sessionIdStart + sessionIdLen ≤ record.length := by
  unfold sessionIdOffset at h
  split at h
  . cases h
  split at h
  . cases h
  dsimp only at h
  split at h
  . cases h
  split at h
  . cases h
  split at h
  . cases h
  split at h
  . cases h
  split at h
  . cases h
  split at h
  . cases h
  . next hfits =>
    cases h
    rw [length_take, length_drop] at hfits
    unfold sessionIdStart
    unfold tlsHeaderLen at *
    omega

theorem getD_eq_of_take {xs ys : Bytes} (h : xs.take n = ys.take n) (hi : i < n)
    : xs.getD i 0 = ys.getD i 0 := by
  have hget := congrArg (fun l => l.getD i 0) h
  simpa [getD_eq_getElem?_getD, getElem?_take, hi] using hget

theorem sessionIdOffset_congr {record record' : Bytes} (hlength : record.length = record'.length)
    (h : record.take sessionIdStart = record'.take sessionIdStart)
    : sessionIdOffset record = sessionIdOffset record' := by
  have hget (i : Nat) (hi : i < sessionIdStart) : record.getD i 0 = record'.getD i 0 :=
    getD_eq_of_take h hi
  have hlen : u16At record 3 = u16At record' 3 := by
    unfold u16At byteAt
    rw [hget 3 (by decide), hget (3 + 1) (by decide)]
  have hbody (len i : Nat) (hi : tlsHeaderLen + i < sessionIdStart)
      : ((record.drop tlsHeaderLen).take len).getD i 0
        = ((record'.drop tlsHeaderLen).take len).getD i 0 := by
    have := hget (tlsHeaderLen + i) hi
    simp only [getD_eq_getElem?_getD, getElem?_take, getElem?_drop] at this ⊢
    split
    . exact this
    . rfl
  unfold sessionIdOffset
  dsimp only
  rw [hlength, hget 0 (by decide), hlen, hbody _ 0 (by decide), hbody _ 1 (by decide),
    hbody _ 2 (by decide), hbody _ 3 (by decide), hbody _ (4 + 2 + 32) (by decide)]
  simp only [length_take, length_drop, hlength]

theorem overwrite_append (front : Bytes) (rest : Bytes) (hlength : old.length = new.length)
    : overwrite (front ++ (old ++ rest)) front.length new = front ++ (new ++ rest) := by
  unfold overwrite
  rw [take_left, ← hlength, ← append_assoc, ← length_append, drop_left,
    append_assoc]

structure Hello where
  front : Bytes
  random : Bytes
  rest : Bytes
  length_front : front.length = sessionIdStart
  length_random : random.length = sessionIdRandomLen

namespace Hello

def record (h : Hello) (tag : Bytes) : Bytes :=
  h.front ++ (h.random ++ (tag ++ h.rest))

def tag (h : Hello) (c : Crypto) (psk : Bytes) : Bytes :=
  (c.hmacSha1 psk
    (h.front.drop tlsHeaderLen ++ (h.random ++ (replicate tagLen 0 ++ h.rest)))).take tagLen

section

variable (h : Hello) (t t' : Bytes)

theorem take_record : (h.record t).take sessionIdStart = h.front := by
  unfold record
  rw [← h.length_front, take_left]

theorem sessionIdOffset_record (ht : t.length = t'.length)
    : sessionIdOffset (h.record t) = sessionIdOffset (h.record t') := by
  apply sessionIdOffset_congr
  . simp only [record, length_append, ht]
  . rw [take_record, take_record]

theorem overwrite_record (ht : t.length = t'.length)
    : overwrite (h.record t) (sessionIdStart + sessionIdRandomLen) t' = h.record t' := by
  have happend := overwrite_append (h.front ++ h.random) h.rest ht
  rw [length_append, h.length_front, h.length_random, append_assoc, append_assoc]
    at happend
  exact happend

theorem drop_record : (h.record t).drop (sessionIdStart + sessionIdRandomLen) = t ++ h.rest := by
  unfold record
  rw [← append_assoc, ← h.length_front, ← h.length_random, ← length_append,
    drop_left]

variable (ht : t.length = tagLen)

include ht

theorem sessionId_record
    : ((h.record t).drop sessionIdStart).take sessionIdLen = h.random ++ t := by
  have hlength : (h.random ++ t).length = sessionIdLen := by
    rw [length_append, h.length_random, ht]
    rfl
  unfold record
  rw [← h.length_front, drop_left, ← append_assoc, ← hlength, take_left]

theorem candidate_record
    : ((h.record t).drop (sessionIdStart + sessionIdRandomLen)).take
        (sessionIdLen - sessionIdRandomLen) = t := by
  have hlength : t.length = sessionIdLen - sessionIdRandomLen := ht
  rw [drop_record, ← hlength, take_left]

theorem clientHelloHmac_record (hoffset : sessionIdOffset (h.record t) = .ok sessionIdStart)
    : clientHelloHmac c (h.record t) psk = .ok (h.tag c psk) := by
  have hbody : (h.record t).drop tlsHeaderLen
      = h.front.drop tlsHeaderLen ++ h.random ++ (t ++ h.rest) := by
    unfold record
    rw [drop_append_of_le_length (by rw [h.length_front]; decide), append_assoc]
  have hfront : (h.front.drop tlsHeaderLen ++ h.random).length
      = sessionIdStart - tlsHeaderLen + sessionIdRandomLen := by
    rw [length_append, length_drop, h.length_front, h.length_random]
  have hend : sessionIdStart - tlsHeaderLen + sessionIdLen
      = (h.front.drop tlsHeaderLen ++ h.random ++ t).length := by
    rw [length_append, hfront, ht]
    rfl
  unfold clientHelloHmac
  rw [hoffset]
  dsimp only [bind, Except.bind]
  rw [hbody, ← hfront, take_left, hend, ← append_assoc, drop_left, append_assoc,
    append_assoc]
  rfl

end

end Hello

theorem exists_record (hrandom : random.length = sessionIdRandomLen)
    (h : sessionIdOffset record = .ok offset)
    : ∃ (hello : Hello) (t : Bytes), hello.random = random ∧ t.length = tagLen
      ∧ overwrite record offset random = hello.record t
      ∧ sessionIdOffset (hello.record t) = .ok sessionIdStart := by
  rcases sessionIdOffset_eq_ok h with ⟨rfl, hlength⟩
  have hlength : 76 ≤ record.length := hlength
  have hfront : (record.take sessionIdStart).length = sessionIdStart := by
    rw [length_take]
    exact Nat.min_eq_left (Nat.le_trans (by decide) hlength)
  have hold : ((record.drop sessionIdStart).take sessionIdRandomLen).length = random.length := by
    rw [length_take, length_drop, hrandom]
    unfold sessionIdStart sessionIdRandomLen
    omega
  have ht : ((record.drop (sessionIdStart + sessionIdRandomLen)).take tagLen).length = tagLen := by
    rw [length_take, length_drop]
    unfold sessionIdStart sessionIdRandomLen tagLen
    omega
  let hello : Hello := ⟨record.take sessionIdStart, random,
    record.drop (sessionIdStart + sessionIdRandomLen + tagLen), hfront, hrandom⟩
  have hrest : (record.drop (sessionIdStart + sessionIdRandomLen)).take tagLen ++ hello.rest
      = record.drop (sessionIdStart + sessionIdRandomLen) := by
    have hdrop := take_append_drop tagLen (record.drop (sessionIdStart + sessionIdRandomLen))
    rw [drop_drop] at hdrop
    exact hdrop
  have hsplit : record = hello.front ++ ((record.drop sessionIdStart).take sessionIdRandomLen
      ++ ((record.drop (sessionIdStart + sessionIdRandomLen)).take tagLen ++ hello.rest)) := by
    rw [hrest, ← drop_drop, take_append_drop, take_append_drop]
  have hrecord : overwrite record sessionIdStart random
      = hello.record ((record.drop (sessionIdStart + sessionIdRandomLen)).take tagLen) := by
    have happend := overwrite_append hello.front
      ((record.drop (sessionIdStart + sessionIdRandomLen)).take tagLen ++ hello.rest) hold
    rw [← hsplit, hello.length_front] at happend
    exact happend
  refine ⟨hello, _, rfl, ht, hrecord, ?_⟩
  rw [← h]
  apply sessionIdOffset_congr
  . rw [congrArg List.length hsplit]
    simp only [Hello.record, length_append, hold]
    rfl
  . rw [hello.take_record]

theorem verify_sign (hc : HmacSized c) (psk : Bytes) (hrandom : random.length = sessionIdRandomLen)
    (hoffset : sessionIdOffset record = .ok offset)
    : ∃ signed session, signClientHelloSessionId c record psk random = .ok (signed, session)
      ∧ verifyClientHelloSessionId c signed psk = .ok session := by
  rcases exists_record hrandom hoffset with
    ⟨hello, t, rfl, ht, hrecord, hstart⟩
  have htag : (hello.tag c psk).length = tagLen := by
    unfold Hello.tag
    rw [length_take, hc]
    rfl
  have hzeros
      : (replicate (sessionIdLen - sessionIdRandomLen) (0 : UInt8)).length = tagLen := by
    rfl
  have hoffsets (t' : Bytes) (ht' : t'.length = tagLen)
      : sessionIdOffset (hello.record t') = .ok sessionIdStart := by
    rw [hello.sessionIdOffset_record t' t (ht'.trans ht.symm), hstart]
  rcases sessionIdOffset_eq_ok hoffset with ⟨rfl, _⟩
  refine ⟨hello.record (hello.tag c psk), ⟨hello.random ++ hello.tag c psk, sessionIdStart⟩, ?_, ?_⟩
  . unfold signClientHelloSessionId
    rw [hoffset]
    dsimp only [bind, Except.bind]
    rw [hrecord, hello.overwrite_record t _ (ht.trans hzeros.symm),
      hello.clientHelloHmac_record _ hzeros (hoffsets _ hzeros)]
    dsimp only
    rw [hello.overwrite_record _ _ (hzeros.trans htag.symm), hello.sessionId_record _ htag]
    rfl
  . unfold verifyClientHelloSessionId
    rw [hoffsets _ htag]
    dsimp only [bind, Except.bind]
    rw [hello.clientHelloHmac_record _ htag (hoffsets _ htag)]
    dsimp only
    rw [hello.candidate_record _ htag, if_neg (by simp), hello.sessionId_record _ htag]
    rfl

end V3
end Blackwire.ShadowTls
