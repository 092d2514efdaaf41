import Blackwire.Lib.Bytes
import Blackwire.Common.Reading

/-!
This module contains the relay of the TLS handshake in the two versions of the ShadowTLS server. A
read that a `select!` drops takes the bytes with it that it has read so far.
-/

namespace Blackwire.ShadowTls

def tlsRecordChangeCipherSpec : UInt8 := 20
def tlsRecordHandshake : UInt8 := 22
def tlsRecordApplicationData : UInt8 := 23
def tlsHandshakeServerHello : UInt8 := 0x02
def tagLen : Nat := 4

structure Record where
  recordType : UInt8
  version : UInt8 × UInt8
  payload : Bytes

-- `encode_tls_record`, which is also what `write_tls_record` writes.
def Record.encode (r : Record) : Bytes :=
  let len := r.payload.length % 2 ^ 16
  [r.recordType, r.version.fst, r.version.snd, UInt8.ofNat (len / 256), UInt8.ofNat len]
    ++ r.payload

inductive Reading where
  | more (n : Nat)
  | tooLarge (length : Nat)
  | record (r : Record)

def readTlsRecord (bytes : Bytes) : Reading :=
  if bytes.length < 5 then
    .more (5 - bytes.length)
  else
    let length := Bytes.u16At bytes 3
    if length > 16384 + 2048 then
      .tooLarge length
    else if bytes.length < 5 + length then
      .more (5 + length - bytes.length)
    else
      .record ⟨bytes.getD 0 0, (bytes.getD 1 0, bytes.getD 2 0), (bytes.drop 5).take length⟩

def extractServerRandom (payload : Bytes) : Option Bytes :=
  if payload.length < 38 then
    none
  else if payload.head? ≠ some tlsHandshakeServerHello then
    none
  else
    some ((payload.drop 6).take 32)

structure Crypto where
  hmacSha1 : Bytes → Bytes → Bytes
  sha256 : Bytes → Bytes

structure ShadowHmac where
  key : Bytes
  data : Bytes

namespace ShadowHmac

def update (mac : ShadowHmac) (data : Bytes) : ShadowHmac :=
  { mac with data := mac.data ++ data }

def nextTag (c : Crypto) (mac : ShadowHmac) (data : Bytes) : Bytes :=
  (c.hmacSha1 mac.key (mac.data ++ data)).take tagLen

end ShadowHmac

def residualHandshakeMac (psk serverRandom : Bytes) : ShadowHmac :=
  ⟨psk, serverRandom⟩

def applicationPayload (record : Bytes) : Except ProxyError Bytes :=
  if record.length < 5 then
    .error (.protocol "ShadowTLS v3 TLS record too short")
  else if record.getD 0 0 ≠ tlsRecordApplicationData then
    .error (.protocol s!"ShadowTLS v3 expected ApplicationData record, got {record.getD 0 0}")
  else
    let len := Bytes.u16At record 3
    if record.length < 5 + len then
      .error (.protocol "ShadowTLS v3 truncated ApplicationData record")
    else
      .ok ((record.drop 5).take len)

structure V3FrameDecoder where
  dataMac : ShadowHmac

namespace V3FrameDecoder

def clientToServer (psk serverRandom : Bytes) : V3FrameDecoder :=
  ⟨⟨psk, serverRandom ++ [0x43]⟩⟩

-- The decoder for this direction has no MAC for residual frames.
def decodeApplicationData (c : Crypto) (d : V3FrameDecoder) (record : Bytes)
    : Except ProxyError Bytes := do
  let payload ← applicationPayload record
  if payload.length < tagLen then
    throw (.protocol "ShadowTLS v3 ApplicationData frame too short")
  let candidate := payload.take tagLen
  let data := payload.drop tagLen
  if d.dataMac.nextTag c data ≠ candidate then
    throw .authFailed
  return data

end V3FrameDecoder

def xorWithHandshakeMask (c : Crypto) (psk serverRandom data : Bytes) : Bytes :=
  let mask := c.sha256 (psk ++ serverRandom)
  data.mapIdx fun i b => b ^^^ mask.getD (i % 32) 0

def taintBackendApplicationData (c : Crypto) (mac : ShadowHmac) (psk serverRandom record : Bytes)
    : Except ProxyError (Bytes × ShadowHmac) := do
  let payload ← applicationPayload record
  let processed := xorWithHandshakeMask c psk serverRandom payload
  let tag := mac.nextTag c processed
  let tainted : Record := ⟨tlsRecordApplicationData, (0x03, 0x03), tag ++ processed⟩
  return (tainted.encode, mac.update processed)

inductive Version where
  | v2
  | v3 (psk : Bytes)

structure Sniffer where
  serverRandom : Bytes
  foundServerRandom : Bool
  serverCcsSeen : Bool
  residualMac : Option ShadowHmac

namespace Sniffer

def new : Sniffer := ⟨List.replicate 32 0, false, false, none⟩

def sniff (s : Sniffer) (version : Version) (r : Record) : Sniffer :=
  if !s.foundServerRandom && r.recordType = tlsRecordHandshake
      && r.payload.head? = some tlsHandshakeServerHello then
    match extractServerRandom r.payload with
    | none => s
    | some random =>
      { s with
        serverRandom := random
        foundServerRandom := true
        residualMac :=
          match version with
          | .v2 => s.residualMac
          | .v3 psk => some (residualHandshakeMac psk random) }
  else
    s

end Sniffer

inductive Outcome where
  | switched (serverRandom : Bytes)
  | switchedAt (serverRandom record : Bytes)
  | failed (e : ProxyError)

inductive Action where
  | forward (bytes : Bytes)
  | forwardAndReturn (bytes : Bytes) (outcome : Outcome)
  | return (outcome : Outcome)

section

variable (c : Crypto) (version : Version) (s : Sniffer) (r : Record)

def onClientRecord : Action :=
  match version with
  | .v2 =>
    if r.recordType = tlsRecordApplicationData then
      if !s.foundServerRandom then
        .forwardAndReturn r.encode
          (.failed (.protocol "ShadowTLS: Application Data before ServerHello"))
      else
        .forwardAndReturn r.encode (.switched s.serverRandom)
    else
      .forward r.encode
  | .v3 psk =>
    if r.recordType = tlsRecordApplicationData then
      if !s.foundServerRandom then
        .return (.failed (.protocol "ShadowTLS v3 client ApplicationData before ServerHello"))
      else
        let decoder := V3FrameDecoder.clientToServer psk s.serverRandom
        match decoder.decodeApplicationData c r.encode with
        | .ok _ => .return (.switchedAt s.serverRandom r.encode)
        | .error _ => .forward r.encode
    else
      .forward r.encode

def onBackendRecord : Sniffer × Action :=
  let s := s.sniff version r
  match version with
  | .v2 =>
    ({ s with serverCcsSeen := s.serverCcsSeen || r.recordType = tlsRecordChangeCipherSpec },
      .forward r.encode)
  | .v3 psk =>
    if s.foundServerRandom && r.recordType = tlsRecordApplicationData then
      match s.residualMac with
      | none =>
        (s, .return (.failed (.protocol "ShadowTLS v3 residual HMAC not initialized")))
      | some mac =>
        match taintBackendApplicationData c mac psk s.serverRandom r.encode with
        | .error e => (s, .return (.failed e))
        | .ok (record, mac) => ({ s with residualMac := some mac }, .forward record)
    else
      (s, .forward r.encode)

end

inductive Peer where
  | client
  | backend
deriving DecidableEq

def Peer.other : Peer → Peer
  | client => backend
  | backend => client

structure Endpoint where
  sent : Bytes
  unread : Bytes
  reading : Bytes
  records : List Record
  written : List Bytes

def Endpoint.read (p : Endpoint) (n : Nat) : Endpoint :=
  { p with unread := p.unread.drop n, reading := p.reading ++ p.unread.take n }

structure Relay where
  peers : Peer → Endpoint
  sniffer : Sniffer
  outcome : Option Outcome

inductive Event where
  | arrive (peer : Peer) (bytes : Bytes)
  | read (peer : Peer) (n : Nat) (cut : Option (Nat × ProxyError))
  | failed (e : ProxyError)

namespace Relay

def new : Relay := ⟨fun _ => ⟨[], [], [], [], []⟩, .new, none⟩

section

variable (s : Relay) (peer : Peer)

def setPeer (f : Endpoint → Endpoint) : Relay :=
  { s with peers := Function.update s.peers peer (f (s.peers peer)) }

def write (bytes : Bytes) (cut : Option (Nat × ProxyError)) : Relay :=
  match cut with
  | none => s.setPeer peer fun p => { p with written := p.written ++ [bytes] }
  | some (n, e) =>
    { s.setPeer peer fun p => { p with written := p.written ++ [bytes.take n] } with
      outcome := some (.failed e) }

def act (action : Action) (cut : Option (Nat × ProxyError)) : Relay :=
  match action with
  | .forward bytes => s.write peer bytes cut
  | .forwardAndReturn bytes outcome =>
    let s := s.write peer bytes cut
    { s with outcome := some (s.outcome.getD outcome) }
  | .return outcome => { s with outcome := some outcome }

def takeRecord (r : Record) : Relay :=
  let s := s.setPeer peer fun p => { p with reading := [], records := p.records ++ [r] }
  s.setPeer peer.other fun p => { p with reading := [] }

end

def onRecord (c : Crypto) (version : Version) (s : Relay) (peer : Peer) (r : Record)
    (cut : Option (Nat × ProxyError))
    : Relay :=
  match peer with
  | .client => s.act .backend (onClientRecord c version s.sniffer r) cut
  | .backend =>
    let (sniffer, action) := onBackendRecord c version s.sniffer r
    { s with sniffer := sniffer }.act .client action cut

def step (c : Crypto) (version : Version) (s : Relay) (e : Event) : Relay :=
  match e with
  | .arrive peer bytes =>
    s.setPeer peer fun p => { p with sent := p.sent ++ bytes, unread := p.unread ++ bytes }
  | .read peer n cut =>
    let reading := ((s.peers peer).read n).reading
    let s := s.setPeer peer (·.read n)
    match readTlsRecord reading with
    | .more _ => s
    | .tooLarge length =>
      { s with
        outcome := some (.failed (.protocol s!"ShadowTLS: TLS record too large: {length}")) }
    | .record r => (s.takeRecord peer r).onRecord c version peer r cut
  | .failed e => { s with outcome := some (.failed e) }

-- `read_exact` never takes more than it waits for.
def canRead (p : Endpoint) (n : Nat) : Bool :=
  match readTlsRecord p.reading with
  | .more k => 0 < n && n ≤ k && n ≤ p.unread.length
  | _ => false

def enabled (s : Relay) (e : Event) : Bool :=
  match e with
  | .arrive _ _ => true
  | .read peer n _ => s.outcome.isNone && canRead (s.peers peer) n
  | .failed _ => s.outcome.isNone

end Relay

end Blackwire.ShadowTls
