import Blackwire.Lib.Bytes
import Blackwire.Common.Reading

/-!
This module contains the TLS 1.3 layer of REALITY: the key schedule, the record protection, the
framing of records and handshake messages, the parsers for the messages of the server and the check
of its certificate. The cryptographic primitives are parameters.
-/

namespace Blackwire.Reality

open Bytes

def rtChangeCipherSpec : UInt8 := 0x14
def rtAlert : UInt8 := 0x15
def rtHandshake : UInt8 := 0x16
def rtApplicationData : UInt8 := 0x17

def hsServerHello : UInt8 := 0x02
def hsEncryptedExtensions : UInt8 := 0x08
def hsCertificate : UInt8 := 0x0b
def hsCertificateVerify : UInt8 := 0x0f
def hsFinished : UInt8 := 0x14

inductive CipherSuite where
  | aes128GcmSha256
  | aes256GcmSha384
deriving DecidableEq

inductive HkdfError where
  | invalidPrk
  | outputLength

structure Certificate where
  spkiAlgorithm : String
  subjectPublicKey : Bytes
  signature : Bytes

structure Primitives where
  hash : CipherSuite → Bytes → Bytes
  hmac : CipherSuite → Bytes → Bytes → Option Bytes
  hkdfExtract : CipherSuite → Bytes → Bytes → Bytes
  hkdfExpand : CipherSuite → Bytes → Bytes → Nat → Except HkdfError Bytes
  aeadKeyOk : CipherSuite → Bytes → Bool
  aeadOpen : CipherSuite → Bytes → Bytes → Bytes → Bytes → Option Bytes
  aeadSeal : CipherSuite → Bytes → Bytes → Bytes → Bytes → Bytes
  x25519 : Bytes → Bytes → Bytes
  p256 : Bytes → Bytes → Except String Bytes
  hmacSha512 : Bytes → Bytes → Except String Bytes
  parseX509 : Bytes → Except String Certificate

namespace CipherSuite

def fromU16 (v : Nat) : Res CipherSuite :=
  match v with
  | 0x1301 => return .aes128GcmSha256
  | 0x1302 => return .aes256GcmSha384
  | other => fail (.protocol ("unsupported TLS 1.3 cipher suite " ++ hexPadded 4 other))

def hashLen : CipherSuite → Nat
  | .aes128GcmSha256 => 32
  | .aes256GcmSha384 => 48

def keyLen : CipherSuite → Nat
  | .aes128GcmSha256 => 16
  | .aes256GcmSha384 => 32

def hashName : CipherSuite → String
  | .aes128GcmSha256 => "SHA-256"
  | .aes256GcmSha384 => "SHA-384"

section

variable (cs : CipherSuite) (p : Primitives) (prk : Bytes) (label : String)

def expandLabel (context : Bytes) (len : Nat) : Res Bytes :=
  let fullLabel := ofString ("tls13 " ++ label)
  let info :=
    toBigEndian 2 len
      ++ [UInt8.ofNat fullLabel.length] ++ fullLabel
      ++ [UInt8.ofNat context.length] ++ context
  match p.hkdfExpand cs prk info len with
  | .ok okm => return okm
  | .error .invalidPrk =>
    fail (.tls ("TLS 1.3 HKDF-Expand: invalid " ++ cs.hashName ++ " PRK"))
  | .error .outputLength =>
    fail (.tls ("TLS 1.3 HKDF-Expand: " ++ cs.hashName ++ " output length"))

def deriveSecret (transcriptHash : Bytes) : Res Bytes :=
  cs.expandLabel p prk label transcriptHash cs.hashLen

end

def hmac (cs : CipherSuite) (p : Primitives) (key data : Bytes) : Res Bytes :=
  match p.hmac cs key data with
  | some mac => return mac
  | none => fail (.tls ("TLS 1.3 HMAC: invalid " ++ cs.hashName ++ " key length"))

end CipherSuite

structure HsKeys where
  clientKey : Bytes
  clientIv : Bytes
  clientFinishedKey : Bytes
  serverKey : Bytes
  serverIv : Bytes
  serverFinishedKey : Bytes
  masterSecret : Bytes

structure AppKeys where
  cs : CipherSuite
  clientKey : Bytes
  clientIv : Bytes
  serverKey : Bytes
  serverIv : Bytes

section

variable (p : Primitives) (cs : CipherSuite)

def ivFromLabel (trafficSecret : Bytes) : Res Bytes := do
  let raw ← cs.expandLabel p trafficSecret "iv" [] 12
  if raw.length = 12 then
    return raw
  else
    fail (.tls "TLS 1.3 IV derivation length mismatch")

def deriveHandshakeKeys (dhe transcriptHash : Bytes)
    : Res HsKeys := do
  let zero := List.replicate cs.hashLen 0
  let earlySecret := p.hkdfExtract cs zero zero
  let emptyHash := p.hash cs []
  let derived ← cs.deriveSecret p earlySecret "derived" emptyHash
  let hsSecret := p.hkdfExtract cs derived dhe
  let cHsTraffic ← cs.deriveSecret p hsSecret "c hs traffic" transcriptHash
  let sHsTraffic ← cs.deriveSecret p hsSecret "s hs traffic" transcriptHash
  let derived2 ← cs.deriveSecret p hsSecret "derived" emptyHash
  let masterSecret := p.hkdfExtract cs derived2 zero
  let cKey ← cs.expandLabel p cHsTraffic "key" [] cs.keyLen
  let cIv ← ivFromLabel p cs cHsTraffic
  let sKey ← cs.expandLabel p sHsTraffic "key" [] cs.keyLen
  let sIv ← ivFromLabel p cs sHsTraffic
  let cFin ← cs.expandLabel p cHsTraffic "finished" [] cs.hashLen
  let sFin ← cs.expandLabel p sHsTraffic "finished" [] cs.hashLen
  return ⟨cKey, cIv, cFin, sKey, sIv, sFin, masterSecret⟩

def deriveAppKeys (masterSecret transcriptHash : Bytes)
    : Res AppKeys := do
  let cApp ← cs.deriveSecret p masterSecret "c ap traffic" transcriptHash
  let sApp ← cs.deriveSecret p masterSecret "s ap traffic" transcriptHash
  let cKey ← cs.expandLabel p cApp "key" [] cs.keyLen
  let cIv ← ivFromLabel p cs cApp
  let sKey ← cs.expandLabel p sApp "key" [] cs.keyLen
  let sIv ← ivFromLabel p cs sApp
  return ⟨cs, cKey, cIv, sKey, sIv⟩

-- The sequence number is added to the last eight bytes.
def computeNonce (iv : Bytes) (seq : Nat) : Bytes :=
  iv.take 4 ++ (iv.drop 4).zipWith (· ^^^ ·) (toBigEndian 8 seq)

def splitInnerPlaintext (plaintext : Bytes) : Res (Bytes × UInt8) :=
  match plaintext.reverse.dropWhile (· = 0) with
  | [] => fail (.protocol "decrypted TLS record has no inner content type")
  | innerType :: content => return (content.reverse, innerType)

variable (key iv : Bytes) (seq : Nat)

def decryptAppRecord (ciphertext header : Bytes) : Res (Bytes × UInt8) :=
  if p.aeadKeyOk cs key then
    match p.aeadOpen cs key (computeNonce iv seq) header ciphertext with
    | none => fail (.protocol "TLS 1.3 record decrypt failed")
    | some plaintext => splitInnerPlaintext plaintext
  else
    fail (.protocol "bad TLS 1.3 record key length")

def encryptAppRecord (innerPlaintext : Bytes) (innerType : UInt8) : Res Bytes :=
  if p.aeadKeyOk cs key then
    let msg := innerPlaintext ++ [innerType]
    let header := [rtApplicationData, 0x03, 0x03] ++ toBigEndian 2 (msg.length + 16)
    return header ++ p.aeadSeal cs key (computeNonce iv seq) header msg
  else
    fail (.protocol "bad TLS 1.3 record key length")

-- The same for a key that was expanded before.
def decryptAppRecordWith (ciphertext header : Bytes) : Res (Bytes × UInt8) :=
  match p.aeadOpen cs key (computeNonce iv seq) header ciphertext with
  | none => fail (.protocol "TLS 1.3 record decrypt failed")
  | some plaintext => splitInnerPlaintext plaintext

def encryptAppRecordWith (innerPlaintext : Bytes) (innerType : UInt8) : Res Bytes :=
  let msg := innerPlaintext ++ [innerType]
  let header := [rtApplicationData, 0x03, 0x03] ++ toBigEndian 2 (msg.length + 16)
  return header ++ p.aeadSeal cs key (computeNonce iv seq) header msg

end

structure Record where
  header : Bytes
  body : Bytes
deriving DecidableEq

def readRecord (input : Bytes) : Option (Record × Bytes) :=
  if input.length < 5 then
    none
  else
    let header := input.take 5
    let bodyLen := u16At header 3
    let rest := input.drop 5
    if rest.length < bodyLen then
      none
    else
      some (⟨header, rest.take bodyLen⟩, rest.drop bodyLen)

def Record.type (r : Record) : UInt8 :=
  r.header.getD 0 0

def helloRetryRequestRandom : Bytes :=
  [
    0xCF, 0x21, 0xAD, 0x74, 0xE5, 0x9A, 0x61, 0x11, 0xBE, 0x1D, 0x8C, 0x02, 0x1E, 0x65, 0xB8, 0x91,
    0xC2, 0xA2, 0x11, 0x16, 0x7A, 0xBB, 0x8C, 0x5E, 0x07, 0x9E, 0x09, 0xE2, 0xC8, 0xA8, 0x33, 0x9C
  ]

def describeServerHelloExtension (extType : Nat) (extData : Bytes) : String :=
  if extType = 0x002b ∧ extData.length = 2 then
    "supported_versions(len=" ++ toString extData.length ++ ", selected="
      ++ hexPadded 4 (u16At extData 0) ++ ")"
  else if extType = 0x0033 ∧ extData.length ≥ 2 then
    if extData.length = 2 then
      "key_share(len=2, selected_group=" ++ hexPadded 4 (u16At extData 0) ++ ")"
    else if extData.length ≥ 4 then
      "key_share(len=" ++ toString extData.length ++ ", group=" ++ hexPadded 4 (u16At extData 0)
        ++ ", key_len=" ++ toString (u16At extData 2) ++ ")"
    else
      "key_share(len=" ++ toString extData.length ++ ")"
  else
    hexPadded 4 extType ++ "(len=" ++ toString extData.length ++ ")"

namespace parseServerHello

-- Every iteration moves `pos` by at least four bytes, so the length of the body is enough fuel.
def extensions (hsBody : Bytes) (extEnd : Nat) (fuel pos : Nat) (share : Option (Nat × Bytes))
    (summaries : List String) : Option (Nat × Bytes) × List String :=
  match fuel with
  | 0 => (share, summaries)
  | fuel + 1 =>
    if pos + 4 ≤ extEnd then
      let extType := u16At hsBody pos
      let extLen := u16At hsBody (pos + 2)
      let pos := pos + 4
      if pos + extLen > hsBody.length then
        (share, summaries)
      else
        let extData := (hsBody.drop pos).take extLen
        let keyLen := u16At extData 2
        let share :=
          if extType = 0x0033 ∧ extData.length ≥ 4 ∧ extData.length ≥ 4 + keyLen then
            some (u16At extData 0, (extData.drop 4).take keyLen)
          else
            share
        let summaries := summaries ++ [describeServerHelloExtension extType extData]
        extensions hsBody extEnd fuel (pos + extLen) share summaries
    else
      (share, summaries)

end parseServerHello

def parseServerHello (hsBody : Bytes) : Res (CipherSuite × Nat × Bytes) := do
  if hsBody.length < 4 then
    fail (.protocol "ServerHello body too short")
  else if byteAt hsBody 0 ≠ hsServerHello.toNat then
    fail (.protocol ("expected ServerHello (0x02), got " ++ hexPadded 2 (byteAt hsBody 0)))
  else
    match slice hsBody 6 38 with
    | none => .error .panic
    | some random =>
      if 38 ≥ hsBody.length then
        fail (.protocol "ServerHello: truncated at session_id")
      else
        let pos := 39 + byteAt hsBody 38
        if pos + 3 > hsBody.length then
          fail (.protocol "ServerHello: truncated at cipher_suite")
        else
          let rawCs := u16At hsBody pos
          let cs ← CipherSuite.fromU16 rawCs
          let pos := pos + 3
          if pos + 2 > hsBody.length then
            fail (.protocol "ServerHello: no extensions length")
          else
            let extTotal := u16At hsBody pos
            let pos := pos + 2
            let extEnd := min (pos + extTotal) hsBody.length
            match parseServerHello.extensions hsBody extEnd hsBody.length pos none [] with
            | (some (group, share), _) => return (cs, group, share)
            | (none, summaries) =>
              let kind :=
                if random = helloRetryRequestRandom then "HelloRetryRequest" else "ServerHello"
              fail (.protocol (kind ++ ": no usable key_share; cipher_suite=" ++ hexPadded 4 rawCs
                ++ "; extensions=[" ++ ", ".intercalate summaries ++ "]"))

abbrev Message := UInt8 × Bytes

def splitHandshakeMessages (data : Bytes) : List Message :=
  go data.length data
where
  go (fuel : Nat) (data : Bytes) : List Message :=
    match fuel, data with
    | fuel + 1, hsType :: len1 :: len2 :: len3 :: rest =>
      let hsLen := ofBigEndian [len1, len2, len3]
      if hsLen > rest.length then
        []
      else
        (hsType, hsType :: len1 :: len2 :: len3 :: rest.take hsLen) :: go fuel (rest.drop hsLen)
    | _, _ => []

def u24At (data : Bytes) (i : Nat) : Nat :=
  ofBigEndian ((data.drop i).take 3)

def parseCertificateMessageDer (msg : Bytes) : Res Bytes :=
  if msg.head? ≠ some hsCertificate then
    fail (.tls "TLS Certificate message: bad handshake type")
  else if msg.length < 4 + 1 + 3 + 3 then
    fail (.tls "TLS Certificate message: truncated header")
  else
    let ctxLen := byteAt msg 4
    if 5 + ctxLen + 3 > msg.length then
      fail (.tls "TLS Certificate message: truncated context")
    else
      let pos := 5 + ctxLen
      let listLen := u24At msg pos
      let pos := pos + 3
      if pos + listLen > msg.length then
        fail (.tls "TLS Certificate message: certificate_list truncated")
      else
        let listEnd := pos + listLen
        if pos + 3 > listEnd then
          fail (.tls "TLS Certificate message: empty certificate_list")
        else
          let certDataLen := u24At msg pos
          let pos := pos + 3
          if pos + certDataLen > listEnd then
            fail (.tls "TLS Certificate message: cert_data truncated")
          else
            return (msg.drop pos).take certDataLen

def ed25519PublicKeyFromCert (cert : Certificate) : Res Bytes :=
  if cert.spkiAlgorithm ≠ "1.3.101.112" then
    fail (.tls "REALITY cert: expected ed25519 subject public key")
  else if cert.subjectPublicKey.length = 32 then
    return cert.subjectPublicKey
  else if cert.subjectPublicKey.length = 33 ∧ cert.subjectPublicKey.head? = some 0 then
    return cert.subjectPublicKey.drop 1
  else
    fail (.tls ("REALITY cert: unexpected ed25519 SPKI length "
      ++ toString cert.subjectPublicKey.length))

def realityCertHmac (p : Primitives) (authKey publicKey : Bytes) : Res Bytes :=
  match p.hmacSha512 authKey publicKey with
  | .ok mac => return mac
  | .error e => fail (.tls ("REALITY HMAC key: " ++ e))

def signatureMatchesGoHmac (signatureField hmac : Bytes) : Bool :=
  if signatureField.length = 64 then
    signatureField = hmac
  else if signatureField.length = 65 ∧ signatureField.head? = some 0 then
    signatureField.drop 1 = hmac
  else if signatureField.length > 64 then
    signatureField.drop (signatureField.length - 64) = hmac
  else
    false

def verifyRealityCertHmac (p : Primitives) (authKey certDer : Bytes) : Res Unit :=
  match p.parseX509 certDer with
  | .error e => fail (.tls ("REALITY cert parse: " ++ e))
  | .ok cert => do
    let pubkey ← ed25519PublicKeyFromCert cert
    let expected ← realityCertHmac p authKey pubkey
    if signatureMatchesGoHmac cert.signature expected then
      return ()
    else
      fail (.tls "REALITY cert signature does not match HMAC-SHA512(auth_key, public_key)")

end Blackwire.Reality
