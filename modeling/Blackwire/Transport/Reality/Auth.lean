import Blackwire.Common.Aead
import Blackwire.Tls.ClientHello
import Blackwire.Transport.Reality.ClientHello
import Mathlib.Data.List.DropRight

/-!
This module contains the authentication of REALITY: the token that the client hides in the session
id of its ClientHello, how the server checks it, and which tokens it accepts. The cryptographic
primitives are parameters, and so are the clocks.
-/

namespace Blackwire.Reality

open Bytes

def realityHkdfInfo : Bytes := ofString "REALITY"
def maxTimeDiffSecs : Int := 120
def sessionIdOffsetInHandshakeBody : Nat := 39

structure AuthPrimitives where
  publicKey (secret : Vector UInt8 32) : Vector UInt8 32
  diffieHellman (secret peer : Vector UInt8 32) : Vector UInt8 32
  hkdfSha256 (salt ikm info : Bytes) (n : Nat) : Option (Vector UInt8 n)
  aead : Aead

structure AuthPrimitives.Lawful (p : AuthPrimitives) : Prop where
  commutes (a b : Vector UInt8 32)
    : p.diffieHellman a (p.publicKey b) = p.diffieHellman b (p.publicKey a)
  expands (salt ikm info : Bytes) (n : Nat) (h : n ≤ 255 * 32)
    : (p.hkdfSha256 salt ikm info n).isSome = true
  aead : p.aead.Lawful

theorem length_authKey {authKey : Vector UInt8 32}
    : authKey.toList.length = AeadAlgorithm.keyLen .aes256Gcm := by
  rw [Vector.length_toList]
  rfl

def aes256Gcm (authKey : Vector UInt8 32) : AeadKey :=
  ⟨.aes256Gcm, authKey.toList, length_authKey⟩

structure RealityClientConfig where
  serverPublicKey : Vector UInt8 32
  shortId : Bytes
  sni : String

structure DialDraws where
  x25519Secret : Vector UInt8 32
  secp256r1Public : Vector UInt8 65
  random : Vector UInt8 32
  builder : Tls.Draws

structure ClientKeyShares where
  x25519Public : Vector UInt8 32
  authSharedSecret : Vector UInt8 32
  secp256r1Public : Bytes

def makeClientKeyShares (p : AuthPrimitives) (serverPublicKey : Vector UInt8 32) (draws : DialDraws)
    : ClientKeyShares where
  x25519Public := p.publicKey draws.x25519Secret
  authSharedSecret := p.diffieHellman draws.x25519Secret serverPublicKey
  secp256r1Public := draws.secp256r1Public.toList

-- The plaintext of a token. The seconds are cut to four bytes.
def tokenPlaintext (now : Nat) (shortId : Bytes) : Bytes :=
  let sidLen := min shortId.length 8
  List.replicate 4 0 ++ toBigEndian 4 now ++ shortId.take sidLen ++ List.replicate (8 - sidLen) 0

def encryptRealityToken (p : AuthPrimitives) (now : Nat) (shortId : Bytes)
    (random authKey : Vector UInt8 32) (aad : Bytes) : Except ProxyError (Vector UInt8 32) :=
  let output :=
    p.aead.sealCombined (aes256Gcm authKey) (random.toList.drop 20) aad (tokenPlaintext now shortId)
  if output.length = 32 then
    .ok (toVector 32 output)
  else
    .error (.protocol "REALITY token encryption length mismatch")

structure SentHello where
  aad : Bytes
  authKey : Vector UInt8 32
  finalHello : Bytes

namespace RealityClient

def deriveAuthKey (p : AuthPrimitives) (random sharedSecret : Vector UInt8 32)
    : Except ProxyError (Vector UInt8 32) :=
  match p.hkdfSha256 (random.toList.take 20) sharedSecret.toList realityHkdfInfo 32 with
  | some authKey => .ok authKey
  | none => .error (.protocol "HKDF expand failed")

def dial (p : AuthPrimitives) (config : RealityClientConfig) (now : Nat) (draws : DialDraws)
    : Except ProxyError SentHello := do
  let keyShares := makeClientKeyShares p config.serverPublicKey draws
  let authKey ← deriveAuthKey p draws.random keyShares.authSharedSecret
  let zeroSessionId := Vector.replicate 32 0
  let helloBytes := Tls.ClientHelloBuilder.chrome131.buildWithAdditionalKeyShare config.sni
    draws.random zeroSessionId (some keyShares.x25519Public) (some keyShares.secp256r1Public)
    draws.builder
  let aad := helloBytes.drop 5
  let encryptedToken ← encryptRealityToken p now config.shortId draws.random authKey aad
  let sidStart := 5 + sessionIdOffsetInHandshakeBody
  let finalHello :=
    helloBytes.take sidStart ++ encryptedToken.toList ++ helloBytes.drop (sidStart + 32)
  return ⟨aad, authKey, finalHello⟩

end RealityClient

structure RealityServerConfig where
  privateKey : Vector UInt8 32
  shortIds : List Bytes
  maxTimeDiff : Int

structure RealityServer where
  config : RealityServerConfig

namespace RealityServer

def new (config : RealityServerConfig) : RealityServer :=
  if config.maxTimeDiff ≤ 0 then
    ⟨{ config with maxTimeDiff := maxTimeDiffSecs }⟩
  else
    ⟨config⟩

end RealityServer

def realityAuthPeerPublicKeysOrFallback (fields : ClientHelloFields) (handshakeBody : Bytes)
    : List (Vector UInt8 32) :=
  match realityAuthPeerPublicKeys handshakeBody with
  | [] => [fields.x25519KeyShare]
  | peerKeys => peerKeys

section

variable (p : AuthPrimitives)

def deriveRealityAuthKey (privateKey peerPub clientRandom : Vector UInt8 32)
    : Except String (Vector UInt8 32) :=
  let sharedSecret := p.diffieHellman privateKey peerPub
  match p.hkdfSha256 (clientRandom.toList.take 20) sharedSecret.toList realityHkdfInfo 32 with
  | some authKey => .ok authKey
  | none => .error "HKDF expand failed"

def xrayZeroedSessionIdAad (handshakeBody : Bytes) : Except String Bytes :=
  let sidStart := sessionIdOffsetInHandshakeBody
  let sidEnd := sidStart + 32
  if handshakeBody.length < sidEnd then
    .error "handshake body too short to contain session_id"
  else
    .ok (handshakeBody.take sidStart ++ List.replicate 32 0 ++ handshakeBody.drop sidEnd)

section

variable (fields : ClientHelloFields) (authKey : Vector UInt8 32)

def decryptRealitySessionId (aad : Bytes) : Except String Bytes :=
  match p.aead.openCombined (aes256Gcm authKey) (fields.random.toList.drop 20) aad
      fields.sessionId.toList with
  | .ok plaintext => .ok plaintext
  | .error _ => .error "AES-256-GCM decryption failed (bad client?)"

def encryptSessionId (aad plaintext16 : Bytes) : Except String (Vector UInt8 32) :=
  let output :=
    p.aead.sealCombined (aes256Gcm authKey) (fields.random.toList.drop 20) aad plaintext16
  if output.length = 32 then
    .ok (toVector 32 output)
  else
    .error "REALITY token encryption length mismatch"

def realityAuthRoundtripMatches (aad plaintext : Bytes) : Bool :=
  if plaintext.length < 16 then
    false
  else
    match encryptSessionId p fields authKey aad (plaintext.take 16) with
    | .ok enc => enc = fields.sessionId
    | .error _ => false

end

def rposition (q : UInt8 → Bool) (bytes : Bytes) : Option Nat :=
  (bytes.reverse.findIdx? q).map (bytes.length - 1 - ·)

def stripZeroPadding (shortId : Bytes) : Bytes :=
  let lastNonzero := ((rposition (· ≠ 0) shortId).map (· + 1)).getD 0
  shortId.take lastNonzero

def validateRealityToken (now : Nat) (plaintext : Bytes) (allowedShortIds : List Bytes)
    (maxTimeDiff : Int) : Except String Unit :=
  if plaintext.length < 16 then
    .error ("decrypted token too short: " ++ toString plaintext.length ++ " bytes")
  else
    let ts := ofBigEndian ((plaintext.drop 4).take 4)
    let shortId := (plaintext.drop 8).take 8
    let diff : Int := ((now : Int) - ts).natAbs
    if diff > maxTimeDiff then
      .error ("timestamp skew too large: " ++ toString diff ++ "s (max " ++ toString maxTimeDiff
        ++ "s)")
    else if stripZeroPadding shortId ∈ allowedShortIds then
      .ok ()
    else
      .error "short_id not in allowed list"

def decryptAndValidateRealityToken (now : Nat) (fields : ClientHelloFields)
    (authKey : Vector UInt8 32) (aad : Bytes) (shortIds : List Bytes) (maxTimeDiff : Int)
    : Option Bytes := do
  let plaintext ← (decryptRealitySessionId p fields authKey aad).toOption
  let _ ← (validateRealityToken now plaintext shortIds maxTimeDiff).toOption
  if realityAuthRoundtripMatches p fields authKey aad plaintext then
    some plaintext
  else
    none

end

namespace RealityServer

-- The loop over the peer keys, with the two ways to authenticate the ClientHello for each of them.
def tryPeerKeys (p : AuthPrimitives) (server : RealityServer) (now : Nat)
    (fields : ClientHelloFields) (zeroedAad wireAad : Bytes) (peerKeys : List (Vector UInt8 32))
    : Except String (Vector UInt8 32) :=
  match peerKeys with
  | [] => .error "REALITY authentication failed"
  | peerPub :: peerKeys =>
    match deriveRealityAuthKey p server.config.privateKey peerPub fields.random with
    | .error _ => tryPeerKeys p server now fields zeroedAad wireAad peerKeys
    | .ok authKey =>
      let accepted := [zeroedAad, wireAad].any fun aad =>
        (decryptAndValidateRealityToken p now fields authKey aad server.config.shortIds
          server.config.maxTimeDiff).isSome
      if accepted then
        .ok authKey
      else
        tryPeerKeys p server now fields zeroedAad wireAad peerKeys

def deriveAuthKey (p : AuthPrimitives) (server : RealityServer) (now : Nat)
    (fields : ClientHelloFields) (handshakeBody : Bytes) : Except String (Vector UInt8 32) := do
  let peerKeys := realityAuthPeerPublicKeysOrFallback fields handshakeBody
  let zeroedAad ← xrayZeroedSessionIdAad handshakeBody
  let wireAad := handshakeBody
  tryPeerKeys p server now fields zeroedAad wireAad peerKeys

end RealityServer

open Tls Tls.ClientHelloBuilder Source Fallible

open List hiding Vector

theorem rposition_concat_zero
    : rposition (· ≠ 0) (bytes ++ [0]) = rposition (· ≠ 0) bytes := by
  unfold rposition
  rw [reverse_append, reverse_singleton, singleton_append, findIdx?_cons]
  simp only [ne_eq, not_true_eq_false, decide_false, Bool.false_eq_true, if_false,
    Option.map_map, length_append, length_singleton]
  congr 1
  funext i
  simp only [Function.comp_apply]
  omega

theorem rposition_lt (h : rposition q bytes = some i)
    : i < bytes.length := by
  rcases Option.map_eq_some_iff.mp h with ⟨j, hj, rfl⟩
  have hlt := (findIdx?_eq_some_iff_getElem.mp hj).choose
  rw [length_reverse] at hlt
  omega

theorem stripZeroPadding_concat_zero
    : stripZeroPadding (bytes ++ [0]) = stripZeroPadding bytes := by
  unfold stripZeroPadding
  rw [rposition_concat_zero]
  apply take_append_of_le_length
  cases hlast : rposition (· ≠ 0) bytes with
  | none => apply Nat.zero_le
  | some i =>
    apply rposition_lt
    exact hlast

theorem stripZeroPadding_concat_ne (h : b ≠ 0)
    : stripZeroPadding (bytes ++ [b]) = bytes ++ [b] := by
  have hlast : rposition (· ≠ 0) (bytes ++ [b]) = some bytes.length := by
    unfold rposition
    rw [reverse_append, reverse_singleton, singleton_append, findIdx?_cons,
      if_pos (by simpa using h)]
    simp
  unfold stripZeroPadding
  rw [hlast, Option.map_some, Option.getD_some]
  apply take_of_length_le
  simp

theorem stripZeroPadding_eq
    : stripZeroPadding bytes = bytes.rdropWhile (· = 0) := by
  induction bytes using reverseRecOn with
  | nil => rfl
  | append_singleton bytes b ih =>
    by_cases hb : b = 0
    . rw [hb, stripZeroPadding_concat_zero, rdropWhile_concat_pos _ _ _ (by simp), ih]
    . rw [stripZeroPadding_concat_ne hb, rdropWhile_concat_neg _ _ _ (by simpa using hb)]

theorem stripZeroPadding_padded (n : Nat)
    : stripZeroPadding (bytes ++ replicate n 0) = stripZeroPadding bytes := by
  induction n with
  | zero => rw [replicate_zero, append_nil]
  | succ n ih => rw [replicate_succ', ← append_assoc, stripZeroPadding_concat_zero, ih]

theorem length_tokenPlaintext (now : Nat) (shortId : Bytes)
    : (tokenPlaintext now shortId).length = 16 := by
  simp only [tokenPlaintext, length_append, length_replicate, length_toBigEndian,
    length_take]
  omega

theorem validateRealityToken_tokenPlaintext (hshort : shortId.length ≤ 8) (shortIds : List Bytes)
    (maxTimeDiff : Int)
    : validateRealityToken now (tokenPlaintext clock shortId) shortIds maxTimeDiff = .ok ()
        ↔ shortId.rdropWhile (· = 0) ∈ shortIds
          ∧ ((now : Int) - (clock % 2 ^ 32 : Nat)).natAbs ≤ maxTimeDiff := by
  have htime : ((tokenPlaintext clock shortId).drop 4).take 4 = toBigEndian 4 clock := by
    simp [tokenPlaintext]
  have hid : ((tokenPlaintext clock shortId).drop 8).take 8
      = shortId ++ replicate (8 - shortId.length) 0 := by
    have hdrop : (tokenPlaintext clock shortId).drop 8
        = shortId ++ replicate (8 - shortId.length) 0 := by
      simp [tokenPlaintext, Nat.min_eq_left hshort]
    rw [hdrop]
    apply take_of_length_le
    rw [length_append, length_replicate]
    omega
  have hts : ofBigEndian (toBigEndian 4 clock) = clock % 2 ^ 32 := by
    rw [ofBigEndian_toBigEndian]
    rfl
  unfold validateRealityToken
  dsimp only
  rw [length_tokenPlaintext, if_neg (by omega), htime, hid, hts, stripZeroPadding_padded,
    stripZeroPadding_eq]
  split
  next hskew =>
    constructor
    . intro h
      cases h
    . intro h
      omega
  next hskew =>
    split
    next hmem => exact ⟨fun _ => ⟨hmem, Int.not_lt.mp hskew⟩, fun _ => rfl⟩
    next hmem =>
      constructor
      . intro h
        cases h
      . intro h
        exact absurd h.left hmem

section

variable (p : AuthPrimitives) (client : RealityClientConfig) (draws : DialDraws)

def clientHandshake (sessionId : Vector UInt8 32) : Bytes :=
  handshake client.sni draws.random (p.publicKey draws.x25519Secret) draws.secp256r1Public
    draws.builder sessionId

variable (sessionId : Vector UInt8 32)

theorem length_clientHandshake
    : (clientHandshake p client draws sessionId).length = 357 + (ofString client.sni).length := by
  apply length_handshake

def recordHeader : Bytes :=
  [0x16, 0x03, 0x01] ++ toBigEndian 2 (357 + (ofString client.sni).length)

theorem length_recordHeader : (recordHeader client).length = 5 := by
  simp [recordHeader]

theorem u16At_recordHeader
    : u16At (recordHeader client) 3 = (357 + (ofString client.sni).length) % 65536 := by
  have hlen := u16At_append [0x16, 0x03, 0x01] [] (357 + (ofString client.sni).length)
  exact hlen

theorem clientHandshake_replace (old new : Vector UInt8 32)
    : (clientHandshake p client draws old).take 39 ++ new.toList
        ++ (clientHandshake p client draws old).drop 71
        = clientHandshake p client draws new := by
  unfold clientHandshake handshake
  have hstart := length_helloStart client.sni draws.random
  rw [take_left' hstart, append_assoc, ← drop_drop (i := 32) (j := 39),
    drop_left' hstart, drop_left' old.length_toList]

theorem xrayZeroedSessionIdAad_clientHandshake
    : xrayZeroedSessionIdAad (clientHandshake p client draws sessionId)
        = .ok (clientHandshake p client draws (Vector.replicate 32 0)) := by
  have hlength := length_clientHandshake p client draws sessionId
  have hzeroed := clientHandshake_replace p client draws sessionId (Vector.replicate 32 0)
  rw [Vector.toList_replicate] at hzeroed
  unfold xrayZeroedSessionIdAad sessionIdOffsetInHandshakeBody
  rw [if_neg (by omega), hzeroed]

theorem length_of_xrayZeroedSessionIdAad (h : xrayZeroedSessionIdAad body = .ok aad)
    : body.length = aad.length := by
  unfold xrayZeroedSessionIdAad sessionIdOffsetInHandshakeBody at h
  dsimp only at h
  split at h
  next => cases h
  next hlong =>
    cases h
    simp only [length_append, length_take, length_replicate, length_drop]
    omega

variable (clock : Nat)

structure Dialled (authKey token : Vector UInt8 32) : Prop where
  derives : p.hkdfSha256 (draws.random.toList.take 20)
    (p.diffieHellman draws.x25519Secret client.serverPublicKey).toList realityHkdfInfo 32
      = some authKey
  seals : token.toList = p.aead.sealCombined (aes256Gcm authKey) (draws.random.toList.drop 20)
    (clientHandshake p client draws (Vector.replicate 32 0)) (tokenPlaintext clock client.shortId)

theorem exists_dialled (hp : p.Lawful)
    : ∃ authKey token, Dialled p client draws clock authKey token := by
  rcases Option.isSome_iff_exists.mp (hp.expands (draws.random.toList.take 20)
    (p.diffieHellman draws.x25519Secret client.serverPublicKey).toList realityHkdfInfo 32
    (by omega)) with ⟨authKey, hkey⟩
  refine ⟨authKey, toVector 32 (p.aead.sealCombined (aes256Gcm authKey)
    (draws.random.toList.drop 20) (clientHandshake p client draws (Vector.replicate 32 0))
    (tokenPlaintext clock client.shortId)), hkey, ?_⟩
  apply toList_toVector
  rw [hp.aead.length_seal, length_tokenPlaintext]
  rfl

theorem build_eq
    : chrome131.buildWithAdditionalKeyShare client.sni draws.random sessionId
        (some (p.publicKey draws.x25519Secret)) (some draws.secp256r1Public.toList) draws.builder
        = recordHeader client ++ clientHandshake p client draws sessionId := by
  apply buildWithAdditionalKeyShare_eq

theorem dial_eq (h : Dialled p client draws clock authKey token)
    : RealityClient.dial p client clock draws
        = .ok ⟨clientHandshake p client draws (Vector.replicate 32 0), authKey,
          recordHeader client ++ clientHandshake p client draws token⟩ := by
  have hheader := length_recordHeader client
  have hkey : RealityClient.deriveAuthKey p draws.random
      (p.diffieHellman draws.x25519Secret client.serverPublicKey) = .ok authKey := by
    unfold RealityClient.deriveAuthKey
    rw [h.derives]
  have htoken : encryptRealityToken p clock client.shortId draws.random authKey
      (clientHandshake p client draws (Vector.replicate 32 0)) = .ok token := by
    unfold encryptRealityToken
    rw [← h.seals, if_pos token.length_toList, toVector_toList]
  unfold RealityClient.dial makeClientKeyShares sessionIdOffsetInHandshakeBody
  dsimp only
  rw [hkey, build_eq, drop_left' hheader, bind_eq_ok]
  refine ⟨authKey, rfl, ?_⟩
  rw [htoken, bind_eq_ok]
  refine ⟨token, rfl, ?_⟩
  rw [pure_eq_ok, SentHello.mk.injEq]
  refine ⟨rfl, rfl, ?_⟩
  rw [take_append, take_of_length_le (by omega), drop_append,
    drop_of_length_le (by omega), nil_append, hheader, append_assoc,
    append_assoc, ← append_assoc _ token.toList]
  rw [clientHandshake_replace]

def HelloAuthenticated (server : RealityServer) (now : Nat) : Prop :=
  ∃ sent body fields token, ∃ peer ∈ realityAuthPeerPublicKeysOrFallback fields body,
    RealityClient.dial p client clock draws = .ok sent
    ∧ Reads readClientHelloMessage sent.finalHello body
    ∧ parseClientHello body = .ok fields
    ∧ fields.sni = client.sni
    ∧ deriveRealityAuthKey p server.config.privateKey peer fields.random = .ok sent.authKey
    ∧ xrayZeroedSessionIdAad body = .ok sent.aad
    ∧ decryptRealitySessionId p fields sent.authKey sent.aad = .ok token
    ∧ validateRealityToken now token server.config.shortIds server.config.maxTimeDiff = .ok ()
    ∧ server.deriveAuthKey p now fields body = .ok sent.authKey

def clientFields (token : Vector UInt8 32) : ClientHelloFields :=
  ⟨draws.random, token, p.publicKey draws.x25519Secret, client.sni⟩

section

variable (hsni : (ofString client.sni).length ≤ 16027) (token : Vector UInt8 32)

include hsni

theorem reads_clientHandshake
    : Reads readClientHelloMessage (recordHeader client ++ clientHandshake p client draws token)
        (clientHandshake p client draws token) := by
  have hlength := length_clientHandshake p client draws token
  have hrecord : Divides [((0x03, 0x01), clientHandshake p client draws token)]
      (clientHandshake p client draws token) := by
    constructor
    . exact flatMap_singleton Prod.snd _
    . rw [forall_mem_singleton]
      unfold tlsMaxPlaintextRecord
      dsimp only
      omega
  have hhello : IsHello (clientHandshake p client draws token) :=
    isHello_handshake _ _ _ _ _ _ (by omega)
  have hreads := reads_clientHelloMessage hhello (by unfold maxClientHelloSize; omega) hrecord
  rw [flatMap_singleton, helloRecord, hlength] at hreads
  exact hreads

theorem parseClientHello_clientHandshake
    : parseClientHello (clientHandshake p client draws token)
        = .ok (clientFields p client draws token) := by
  apply parseClientHello_handshake
  omega

theorem peerKeys_clientHandshake
    : realityAuthPeerPublicKeysOrFallback (clientFields p client draws token)
        (clientHandshake p client draws token)
        = [p.publicKey draws.x25519Secret] := by
  have hkeys : realityAuthPeerPublicKeys (clientHandshake p client draws token)
      = [p.publicKey draws.x25519Secret] := by
    apply realityAuthPeerPublicKeys_handshake
    omega
  unfold realityAuthPeerPublicKeysOrFallback
  rw [hkeys]

end

section

section

variable (hp : p.Lawful) (h : Dialled p client draws clock authKey token)

include hp h

theorem deriveRealityAuthKey_of_dialled (hserver : client.serverPublicKey = p.publicKey privateKey)
    : deriveRealityAuthKey p privateKey (p.publicKey draws.x25519Secret) draws.random
        = .ok authKey := by
  unfold deriveRealityAuthKey
  dsimp only
  rw [hp.commutes, ← hserver, h.derives]

theorem decryptRealitySessionId_of_dialled
    : decryptRealitySessionId p (clientFields p client draws token) authKey
        (clientHandshake p client draws (Vector.replicate 32 0))
        = .ok (tokenPlaintext clock client.shortId) := by
  unfold decryptRealitySessionId clientFields
  rw [h.seals, hp.aead.open_seal]

omit hp in
theorem roundtripMatches_of_dialled
    : realityAuthRoundtripMatches p (clientFields p client draws token) authKey
        (clientHandshake p client draws (Vector.replicate 32 0))
        (tokenPlaintext clock client.shortId)
        = true := by
  have hlength := length_tokenPlaintext clock client.shortId
  unfold realityAuthRoundtripMatches encryptSessionId clientFields
  rw [hlength, if_neg (by omega), take_of_length_le (by omega), ← h.seals,
    if_pos token.length_toList, toVector_toList]
  exact decide_eq_true rfl

theorem deriveAuthKey_of_dialled (hsni : (ofString client.sni).length ≤ 16027)
    {server : RealityServer}
    (hserver : client.serverPublicKey = p.publicKey server.config.privateKey)
    (hvalid : validateRealityToken now (tokenPlaintext clock client.shortId) server.config.shortIds
      server.config.maxTimeDiff = .ok ())
    : server.deriveAuthKey p now (clientFields p client draws token)
        (clientHandshake p client draws token)
        = .ok authKey := by
  have haccepted : decryptAndValidateRealityToken p now (clientFields p client draws token) authKey
      (clientHandshake p client draws (Vector.replicate 32 0)) server.config.shortIds
      server.config.maxTimeDiff = some (tokenPlaintext clock client.shortId) := by
    unfold decryptAndValidateRealityToken
    rw [decryptRealitySessionId_of_dialled p client draws clock hp h]
    simp only [Except.toOption, Option.bind_eq_bind, Option.bind_some, hvalid,
      roundtripMatches_of_dialled p client draws clock h, if_true]
  unfold RealityServer.deriveAuthKey
  rw [xrayZeroedSessionIdAad_clientHandshake, bind_eq_ok]
  refine ⟨_, rfl, ?_⟩
  rw [peerKeys_clientHandshake p client draws hsni]
  unfold RealityServer.tryPeerKeys
  have hkey : deriveRealityAuthKey p server.config.privateKey (p.publicKey draws.x25519Secret)
      (clientFields p client draws token).random = .ok authKey :=
    deriveRealityAuthKey_of_dialled p client draws clock hp h hserver
  rw [hkey]
  dsimp only
  rw [any_cons, haccepted, Option.isSome_some, Bool.true_or, if_pos rfl]

end

theorem sni_le_of_reads (hreads : Reads readClientHelloMessage
      (recordHeader client ++ clientHandshake p client draws token) body)
    (haad : xrayZeroedSessionIdAad body
      = .ok (clientHandshake p client draws (Vector.replicate 32 0)))
    : (ofString client.sni).length ≤ 16027 := by
  have hlength := length_of_xrayZeroedSessionIdAad haad
  rw [length_clientHandshake] at hlength
  have hitems : (ofSegments [recordHeader client ++ clientHandshake p client draws token]
      : Source UInt8 IoError).items
      = recordHeader client ++ clientHandshake p client draws token ++ [] := by
    rw [items_ofSegments, flatten_singleton, append_nil]
  have hbounds := readClientHelloMessage_bounds _ body (hreads _ [] hitems)
  rw [hitems, append_assoc, take_left' (length_recordHeader client),
    u16At_recordHeader] at hbounds
  unfold maxClientHelloSize tlsMaxPlaintextRecord at hbounds
  omega

end

section

variable (hp : p.Lawful) {server : RealityServer}
  (hserver : client.serverPublicKey = p.publicKey server.config.privateKey) (now : Nat)

include hp hserver

theorem helloAuthenticated_iff_valid
    : HelloAuthenticated p client draws clock server now
        ↔ (ofString client.sni).length ≤ 16027
          ∧ validateRealityToken now (tokenPlaintext clock client.shortId) server.config.shortIds
            server.config.maxTimeDiff = .ok () := by
  rcases exists_dialled p client draws clock hp with ⟨authKey, token, h⟩
  have hdial := dial_eq p client draws clock h
  constructor
  . rintro ⟨sent, body, fields, plaintext, peer, _, hsent, hreads, hparse, _, _, haad, hdecrypt,
      hvalid, _⟩
    rw [hdial, Except.ok.injEq] at hsent
    subst hsent
    have hsni := sni_le_of_reads p client draws hreads haad
    have hbody := hreads.unique (reads_clientHandshake p client draws hsni token)
    rw [hbody, parseClientHello_clientHandshake p client draws hsni token, Except.ok.injEq]
      at hparse
    rw [← hparse, decryptRealitySessionId_of_dialled p client draws clock hp h,
      Except.ok.injEq] at hdecrypt
    rw [← hdecrypt] at hvalid
    exact ⟨hsni, hvalid⟩
  . rintro ⟨hsni, hvalid⟩
    refine ⟨_, clientHandshake p client draws token, clientFields p client draws token,
      tokenPlaintext clock client.shortId, p.publicKey draws.x25519Secret, ?_, hdial, ?_, ?_, rfl,
      ?_, ?_, ?_, hvalid, ?_⟩
    . rw [peerKeys_clientHandshake p client draws hsni token]
      apply mem_singleton_self
    . apply reads_clientHandshake
      exact hsni
    . apply parseClientHello_clientHandshake
      exact hsni
    . exact deriveRealityAuthKey_of_dialled p client draws clock hp h hserver
    . apply xrayZeroedSessionIdAad_clientHandshake
    . exact decryptRealitySessionId_of_dialled p client draws clock hp h
    . exact deriveAuthKey_of_dialled p client draws clock hp h hsni hserver hvalid

end

end

theorem RealityServer.privateKey_new (config : RealityServerConfig)
    : (RealityServer.new config).config.privateKey = config.privateKey := by
  unfold RealityServer.new
  split <;> rfl

theorem RealityServer.shortIds_new (config : RealityServerConfig)
    : (RealityServer.new config).config.shortIds = config.shortIds := by
  unfold RealityServer.new
  split <;> rfl

theorem reality_token_accepted_iff (p : AuthPrimitives) (hp : p.Lawful)
    (client : RealityClientConfig) (config : RealityServerConfig)
    (hserver : client.serverPublicKey = p.publicKey config.privateKey)
    (hshort : client.shortId.length ≤ 8) (clock now : Nat) (draws : DialDraws)
    : HelloAuthenticated p client draws clock (.new config) now
        ↔ (ofString client.sni).length ≤ 16027
          ∧ client.shortId.rdropWhile (· = 0) ∈ config.shortIds
          ∧ ((now : Int) - (clock % 2 ^ 32 : Nat)).natAbs
            ≤ (RealityServer.new config).config.maxTimeDiff := by
  have hserver' : client.serverPublicKey
      = p.publicKey (RealityServer.new config).config.privateKey := by
    rw [RealityServer.privateKey_new]
    exact hserver
  rw [helloAuthenticated_iff_valid p client draws clock hp hserver' now,
    validateRealityToken_tokenPlaintext hshort,
    RealityServer.shortIds_new]

-- The keys, the secrets and the tokens of one server and one client.
namespace Lab

def serverSecret : Vector UInt8 32 := #v[
  0x6f, 0x48, 0x50, 0xca, 0x51, 0xce, 0xd6, 0x4b, 0x4a, 0xcf, 0xd9, 0x0c, 0x73, 0xfd, 0x60, 0x39,
  0x2c, 0x0c, 0x2f, 0x92, 0x74, 0x49, 0x33, 0xb2, 0x8b, 0x1b, 0xc0, 0xf7, 0xb8, 0x68, 0x3d, 0x79
]

def serverPublic : Vector UInt8 32 := #v[
  0x96, 0x86, 0x12, 0xb1, 0x49, 0x62, 0x34, 0x3a, 0x53, 0x27, 0xf2, 0x12, 0x76, 0x1e, 0x90, 0xdc,
  0x0d, 0xdf, 0x31, 0xce, 0xd3, 0x9d, 0xa4, 0x1f, 0xb8, 0x39, 0x69, 0x4b, 0xe2, 0xb8, 0xe9, 0x6a
]

def clientSecret : Vector UInt8 32 := Vector.replicate 32 0x11

def clientPublic : Vector UInt8 32 := #v[
  0x7b, 0x4e, 0x90, 0x9b, 0xbe, 0x7f, 0xfe, 0x44, 0xc4, 0x65, 0xa2, 0x20, 0x03, 0x7d, 0x60, 0x8e,
  0xe3, 0x58, 0x97, 0xd3, 0x1e, 0xf9, 0x72, 0xf0, 0x7f, 0x74, 0x89, 0x2c, 0xb0, 0xf7, 0x3f, 0x13
]

def sharedSecret : Vector UInt8 32 := #v[
  0xfd, 0xf4, 0x2b, 0x6f, 0x1b, 0x14, 0xcc, 0x17, 0x93, 0x7f, 0x95, 0xdc, 0xc7, 0x9b, 0x26, 0x42,
  0x53, 0x22, 0xfb, 0xcb, 0x3e, 0x63, 0x53, 0x9c, 0x93, 0x3f, 0xf2, 0x24, 0x2c, 0x0a, 0xd3, 0x21
]

def authKey : Vector UInt8 32 := #v[
  0xb2, 0x43, 0xa4, 0xd3, 0x5d, 0xc2, 0xcc, 0x36, 0xd3, 0x3d, 0x46, 0x0f, 0xe7, 0xc1, 0x25, 0xb9,
  0x03, 0x29, 0xfe, 0x23, 0x72, 0x8c, 0xdd, 0x29, 0x5c, 0x15, 0x9d, 0xbf, 0xc0, 0x01, 0x62, 0x61
]

def secp256r1Public : Vector UInt8 65 := #v[
  0x04, 0x6b, 0x17, 0xd1, 0xf2, 0xe1, 0x2c, 0x42, 0x47, 0xf8, 0xbc, 0xe6, 0xe5, 0x63, 0xa4, 0x40,
  0xf2, 0x77, 0x03, 0x7d, 0x81, 0x2d, 0xeb, 0x33, 0xa0, 0xf4, 0xa1, 0x39, 0x45, 0xd8, 0x98, 0xc2,
  0x96, 0x4f, 0xe3, 0x42, 0xe2, 0xfe, 0x1a, 0x7f, 0x9b, 0x8e, 0xe7, 0xeb, 0x4a, 0x7c, 0x0f, 0x9e,
  0x16, 0x2b, 0xce, 0x33, 0x57, 0x6b, 0x31, 0x5e, 0xce, 0xcb, 0xb6, 0x40, 0x68, 0x37, 0xbf, 0x51,
  0xf5
]

def draws : DialDraws where
  x25519Secret := clientSecret
  secp256r1Public := secp256r1Public
  random := Vector.ofFn fun i => UInt8.ofNat i
  builder := ⟨0, 1, Vector.replicate 32 0⟩

def client (shortId : Bytes) : RealityClientConfig where
  serverPublicKey := serverPublic
  shortId := shortId
  sni := "www.microsoft.com"

def server (shortIds : List Bytes) : RealityServerConfig where
  privateKey := serverSecret
  shortIds := shortIds
  maxTimeDiff := 60

def clock : Nat := 1700000000

def zeroInside : Bytes := [0xaa, 0xbb, 0xcc, 0xdd, 0x00, 0x00, 0x00, 0x01]
def zeroAtEnd : Bytes := [0xaa, 0xbb, 0xcc, 0xdd, 0x00, 0x00, 0x01, 0x00]

def tokenInside : Vector UInt8 32 := #v[
  0x6b, 0x7d, 0x64, 0x45, 0x5e, 0xba, 0x91, 0xc2, 0xf9, 0x9a, 0x10, 0x0e, 0x8f, 0xbb, 0xfc, 0xe1,
  0x89, 0xab, 0x46, 0x23, 0xcc, 0xaf, 0xb3, 0xb7, 0x74, 0x5a, 0xcf, 0x90, 0x19, 0xfb, 0x94, 0xf2
]

def tokenAtEnd : Vector UInt8 32 := #v[
  0x6b, 0x7d, 0x64, 0x45, 0x5e, 0xba, 0x91, 0xc2, 0xf9, 0x9a, 0x10, 0x0e, 0x8f, 0xbb, 0xfd, 0xe0,
  0x3c, 0x77, 0x0c, 0x84, 0x97, 0xa8, 0xfd, 0x55, 0x7e, 0xc4, 0x70, 0xac, 0x60, 0x82, 0xf2, 0x5f
]

def seals : List KnownSeal :=
  let nonce := draws.random.toList.drop 20
  [⟨aes256Gcm authKey, nonce, tokenPlaintext clock zeroInside, tokenInside.toList⟩,
    ⟨aes256Gcm authKey, nonce, tokenPlaintext clock zeroAtEnd, tokenAtEnd.toList⟩]

def primitives : AuthPrimitives where
  publicKey secret :=
    if secret = serverSecret then serverPublic
    else if secret = clientSecret then clientPublic
    else Vector.replicate 32 0
  diffieHellman secret peer :=
    if secret = serverSecret ∧ peer = clientPublic
        ∨ secret = clientSecret ∧ peer = serverPublic then
      sharedSecret
    else
      Vector.replicate 32 0
  hkdfSha256 salt ikm info n :=
    if salt = draws.random.toList.take 20 ∧ ikm = sharedSecret.toList ∧ info = realityHkdfInfo then
      some (toVector n authKey.toList)
    else
      some (Vector.replicate n 0)
  aead := .ofTableFor seals (handshake "www.microsoft.com" draws.random clientPublic
    secp256r1Public draws.builder (Vector.replicate 32 0))

theorem publicKey_eq_clientPublic (secret : Vector UInt8 32)
    : primitives.publicKey secret = clientPublic ↔ secret = clientSecret := by
  simp only [primitives]
  split
  next h =>
    subst h
    decide +kernel
  next =>
    split
    next h => exact ⟨fun _ => h, fun _ => rfl⟩
    next h => exact ⟨fun hzero => absurd hzero (by decide +kernel), fun h' => absurd h' h⟩

theorem publicKey_eq_serverPublic (secret : Vector UInt8 32)
    : primitives.publicKey secret = serverPublic ↔ secret = serverSecret := by
  simp only [primitives]
  split
  next h => exact ⟨fun _ => h, fun _ => rfl⟩
  next h =>
    refine ⟨?_, fun h' => absurd h' h⟩
    intro hpublic
    split at hpublic
    next => exact absurd hpublic (by decide +kernel)
    next => exact absurd hpublic (by decide +kernel)

theorem lawful_primitives : primitives.Lawful where
  commutes a b := by
    change (if a = serverSecret ∧ primitives.publicKey b = clientPublic
        ∨ a = clientSecret ∧ primitives.publicKey b = serverPublic then _ else _)
      = if b = serverSecret ∧ primitives.publicKey a = clientPublic
        ∨ b = clientSecret ∧ primitives.publicKey a = serverPublic then _ else _
    simp only [publicKey_eq_clientPublic, publicKey_eq_serverPublic]
    congr 1
    rw [and_comm, or_comm, and_comm]
  expands salt ikm info n _ := by
    simp only [primitives]
    split <;> rfl
  aead := by
    apply Aead.lawful_ofTableFor
    decide +kernel

end Lab

theorem reality_token_accepted_iff_zero_inside
    : Lab.primitives.Lawful
      ∧ (Lab.client Lab.zeroInside).serverPublicKey
        = Lab.primitives.publicKey (Lab.server [Lab.zeroInside]).privateKey
      ∧ (Lab.client Lab.zeroInside).shortId.length ≤ 8
      ∧ HelloAuthenticated Lab.primitives (Lab.client Lab.zeroInside) Lab.draws Lab.clock
        (.new (Lab.server [Lab.zeroInside])) (Lab.clock + 60) := by
  have hserver : (Lab.client Lab.zeroInside).serverPublicKey
      = Lab.primitives.publicKey (Lab.server [Lab.zeroInside]).privateKey := by
    decide +kernel
  have hshort : (Lab.client Lab.zeroInside).shortId.length ≤ 8 := by decide
  refine ⟨Lab.lawful_primitives, hserver, hshort, ?_⟩
  apply (reality_token_accepted_iff Lab.primitives Lab.lawful_primitives _ _ hserver hshort
    Lab.clock (Lab.clock + 60) Lab.draws).mpr
  decide +kernel

theorem reality_short_id_zero_at_end_refused
    : ∃ (p : AuthPrimitives) (client : RealityClientConfig) (config : RealityServerConfig)
        (clock : Nat) (draws : DialDraws) (sent : SentHello) (fields : ClientHelloFields),
      p.Lawful ∧ client.serverPublicKey = p.publicKey config.privateKey
      ∧ client.shortId.length ≤ 8 ∧ client.shortId ∈ config.shortIds
      ∧ RealityClient.dial p client clock draws = .ok sent
      ∧ parseClientHello (sent.finalHello.drop 5) = .ok fields
      ∧ (RealityServer.new config).deriveAuthKey p clock fields (sent.finalHello.drop 5)
        = .error "REALITY authentication failed"
      ∧ ¬HelloAuthenticated p client draws clock (.new config) clock := by
  have hdialled : Dialled Lab.primitives (Lab.client Lab.zeroAtEnd) Lab.draws Lab.clock Lab.authKey
      Lab.tokenAtEnd := ⟨by decide +kernel, by decide +kernel⟩
  have hbody : (recordHeader (Lab.client Lab.zeroAtEnd) ++ clientHandshake Lab.primitives
      (Lab.client Lab.zeroAtEnd) Lab.draws Lab.tokenAtEnd).drop 5
      = clientHandshake Lab.primitives (Lab.client Lab.zeroAtEnd) Lab.draws Lab.tokenAtEnd := by
    apply drop_left'
    apply length_recordHeader
  refine ⟨Lab.primitives, Lab.client Lab.zeroAtEnd, Lab.server [Lab.zeroAtEnd], Lab.clock,
    Lab.draws, _,
    clientFields Lab.primitives (Lab.client Lab.zeroAtEnd) Lab.draws Lab.tokenAtEnd,
    Lab.lawful_primitives, by decide +kernel, by decide, by decide, dial_eq _ _ _ _ hdialled,
    ?_, ?_, ?_⟩
  . rw [hbody]
    apply parseClientHello_clientHandshake
    decide +kernel
  . rw [hbody]
    decide +kernel
  . rw [helloAuthenticated_iff_valid _ _ _ _ Lab.lawful_primitives (by decide +kernel)]
    decide +kernel

end Blackwire.Reality
