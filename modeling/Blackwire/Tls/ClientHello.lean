import Blackwire.Lib.Tlv

/-!
This module contains the builder of a ClientHello that looks like the one of a browser, and the
layout of what it makes for the Chrome profile with an X25519 and a P-256 key share. What the
builder takes from its random number generator is an argument.
-/

namespace Blackwire.Tls

open Bytes

structure FingerprintProfile where
  cipherSuites : List Nat
  extensions : List Nat
  supportedGroups : List Nat
  alpn : List String
  signatureAlgorithms : List Nat

def FingerprintProfile.chrome131 : FingerprintProfile where
  cipherSuites := [
    0x1301, 0x1302, 0x1303, 0xC02B, 0xC02F, 0xC02C, 0xC030, 0xCCA9, 0xCCA8, 0xC013, 0xC014, 0x009C,
    0x009D, 0x002F, 0x0035
  ]
  extensions := [
    0x0000, 0x0017, 0xFF01, 0x000A, 0x000B, 0x0023, 0x0010, 0x0005, 0x000D, 0x0012, 0x0033, 0x002D,
    0x002B, 0x001B, 0x0015
  ]
  supportedGroups := [29, 23, 24]
  alpn := ["h2", "http/1.1"]
  signatureAlgorithms := [0x0403, 0x0804, 0x0401, 0x0503, 0x0805, 0x0501, 0x0806, 0x0601]

def greaseValuesU16 : Vector Nat 16 := #v[
  0x0A0A, 0x1A1A, 0x2A2A, 0x3A3A, 0x4A4A, 0x5A5A, 0x6A6A, 0x7A7A, 0x8A8A, 0x9A9A, 0xAAAA, 0xBABA,
  0xCACA, 0xDADA, 0xEAEA, 0xFAFA
]

def greaseU16 (idx : Fin 16) : Nat :=
  greaseValuesU16[idx]

structure Draws where
  greaseCipher : Fin 16
  greaseExt : Fin 16
  generated : Vector UInt8 32

def putU16s (values : List Nat) : Bytes :=
  values.flatMap (toBigEndian 2)

def putExtension (extType : Nat) (data : Bytes) : Bytes :=
  Tlv.encode ⟨extType, data⟩

structure ClientHelloBuilder where
  profile : FingerprintProfile

namespace ClientHelloBuilder

def chrome131 : ClientHelloBuilder := ⟨.chrome131⟩

-- The extensions that have content, as the data behind their type and length.
section

variable (builder : ClientHelloBuilder)

variable (sni : String)

def extServerName : Bytes :=
  let nameBytes := ofString sni
  toBigEndian 2 (1 + 2 + nameBytes.length) ++ [0x00] ++ toBigEndian 2 nameBytes.length ++ nameBytes

def extSupportedGroups (greaseGroup : Nat) : Bytes :=
  let groups := greaseGroup :: builder.profile.supportedGroups
  toBigEndian 2 (groups.length * 2) ++ putU16s groups

def extAlpn : Bytes :=
  let inner := builder.profile.alpn.flatMap fun protocol =>
    let p := ofString protocol
    UInt8.ofNat p.length :: p
  toBigEndian 2 inner.length ++ inner

def extSignatureAlgorithms : Bytes :=
  toBigEndian 2 (builder.profile.signatureAlgorithms.length * 2)
    ++ putU16s builder.profile.signatureAlgorithms

section

variable (greaseGroup : Nat) (x25519Pub : Vector UInt8 32) (secp256r1Pub : Option Bytes)

def extKeyShare : Bytes :=
  let shares : List Tlv.Entry :=
    [⟨greaseGroup, [0x00]⟩, ⟨29, x25519Pub.toList⟩]
      ++ (secp256r1Pub.map fun pubkey => ⟨23, pubkey⟩).toList
  let clientShares := shares.flatMap Tlv.encode
  toBigEndian 2 clientShares.length ++ clientShares

def extData (extType : Nat) : Bytes :=
  match extType with
  | 0x0000 => extServerName sni
  | 0x0017 => []
  | 0xFF01 => [0x00]
  | 0x000A => builder.extSupportedGroups greaseGroup
  | 0x000B => [0x01, 0x00]
  | 0x0023 => []
  | 0x0010 => builder.extAlpn
  | 0x0005 => [0x01, 0x00, 0x00, 0x00, 0x00]
  | 0x000D => builder.extSignatureAlgorithms
  | 0x0012 => []
  | 0x0033 => extKeyShare greaseGroup x25519Pub secp256r1Pub
  | 0x002D => [0x01, 0x01]
  | 0x002B => [0x08, 0x7A, 0x7A, 0x03, 0x04, 0x03, 0x03, 0x03, 0x02]
  | 0x001B => [0x02, 0x00, 0x02]
  | 0x0015 => [0x00]
  | _ => []

end

def buildExtensions (greaseGroup greaseExt : Nat) (x25519Pub : Vector UInt8 32)
    (secp256r1Pub : Option Bytes) : Bytes :=
  builder.profile.extensions.flatMap (fun extType =>
      putExtension extType
        (builder.extData sni greaseGroup x25519Pub secp256r1Pub extType))
    ++ putExtension greaseExt [0x00, 0x00]

variable (random sessionId : Vector UInt8 32)

def buildClientHelloBody (greaseCipher greaseExt : Nat) (x25519Pub : Vector UInt8 32)
    (secp256r1Pub : Option Bytes) : Bytes :=
  let suites := greaseCipher :: builder.profile.cipherSuites
  let extensions := builder.buildExtensions sni greaseCipher greaseExt x25519Pub secp256r1Pub
  toBigEndian 2 0x0303 ++ random.toList ++ [0x20] ++ sessionId.toList
    ++ toBigEndian 2 (suites.length * 2) ++ putU16s suites ++ [0x01, 0x00]
    ++ toBigEndian 2 extensions.length ++ extensions

def buildWithAdditionalKeyShare (x25519Pub : Option (Vector UInt8 32))
    (secp256r1Pub : Option Bytes) (draws : Draws) : Bytes :=
  let body := builder.buildClientHelloBody sni random sessionId (greaseU16 draws.greaseCipher)
    (greaseU16 draws.greaseExt) (x25519Pub.getD draws.generated) secp256r1Pub
  let handshake := [0x01] ++ toBigEndian 3 body.length ++ body
  [0x16, 0x03, 0x01] ++ toBigEndian 2 handshake.length ++ handshake

def build (x25519Pub : Option (Vector UInt8 32)) (draws : Draws) : Bytes :=
  builder.buildWithAdditionalKeyShare sni random sessionId x25519Pub none draws

end

end ClientHelloBuilder

open ClientHelloBuilder
open List hiding Vector

theorem length_putU16s (values : List Nat) : (putU16s values).length = 2 * values.length := by
  unfold putU16s
  induction values with
  | nil => rfl
  | cons value values ih =>
    rw [flatMap_cons, length_append, length_toBigEndian, ih, length_cons]
    omega

theorem greaseU16_lt (idx : Fin 16) : greaseU16 idx < 65536 := by
  revert idx
  decide

theorem length_extServerName (sni : String)
    : (extServerName sni).length = 5 + (ofString sni).length := by
  simp only [extServerName, length_append, length_toBigEndian, length_singleton]

theorem length_extSupportedGroups (greaseGroup : Nat)
    : (chrome131.extSupportedGroups greaseGroup).length = 10 := by
  rfl

theorem length_extAlpn : chrome131.extAlpn.length = 14 := by
  decide +kernel

theorem length_extSignatureAlgorithms : chrome131.extSignatureAlgorithms.length = 18 := by
  decide +kernel

section

variable (sni : String) (random x25519Pub : Vector UInt8 32) (secp256r1Pub : Vector UInt8 65)
  (draws : Draws)

def shares : List Tlv.Entry :=
  [⟨greaseU16 draws.greaseCipher, [0x00]⟩, ⟨29, x25519Pub.toList⟩, ⟨23, secp256r1Pub.toList⟩]

theorem length_shares
    : ((shares x25519Pub secp256r1Pub draws).flatMap Tlv.encode).length = 110 := by
  simp only [shares, flatMap_cons, flatMap_nil, length_append, Tlv.length_encode,
    Vector.length_toList, length_singleton, length_nil]

theorem extKeyShare_eq
    : extKeyShare (greaseU16 draws.greaseCipher) x25519Pub (some secp256r1Pub.toList)
        = toBigEndian 2 110 ++ (shares x25519Pub secp256r1Pub draws).flatMap Tlv.encode := by
  rw [← length_shares x25519Pub secp256r1Pub draws]
  rfl

theorem sized_shares : ∀ e ∈ shares x25519Pub secp256r1Pub draws, e.Sized := by
  have hgrease := greaseU16_lt draws.greaseCipher
  simp only [shares, Tlv.Entry.Sized]
  simpa using hgrease

def entries : List Tlv.Entry :=
  chrome131.profile.extensions.map (fun extType =>
      ⟨extType, chrome131.extData sni (greaseU16 draws.greaseCipher) x25519Pub
        (some secp256r1Pub.toList) extType⟩)
    ++ [⟨greaseU16 draws.greaseExt, [0x00, 0x00]⟩]

theorem buildExtensions_eq
    : chrome131.buildExtensions sni (greaseU16 draws.greaseCipher) (greaseU16 draws.greaseExt)
        x25519Pub (some secp256r1Pub.toList)
        = (entries sni x25519Pub secp256r1Pub draws).flatMap Tlv.encode := by
  unfold buildExtensions entries
  rw [flatMap_append, flatMap_map, flatMap_singleton]
  rfl

theorem length_extKeyShare
    : (extKeyShare (greaseU16 draws.greaseCipher) x25519Pub (some secp256r1Pub.toList)).length
        = 112 := by
  rw [extKeyShare_eq, length_append, length_toBigEndian, length_shares]

theorem entries_eq
    : entries sni x25519Pub secp256r1Pub draws = [
        ⟨0x0000, extServerName sni⟩, ⟨0x0017, []⟩, ⟨0xFF01, [0x00]⟩,
        ⟨0x000A, chrome131.extSupportedGroups (greaseU16 draws.greaseCipher)⟩,
        ⟨0x000B, [0x01, 0x00]⟩, ⟨0x0023, []⟩, ⟨0x0010, chrome131.extAlpn⟩,
        ⟨0x0005, [0x01, 0x00, 0x00, 0x00, 0x00]⟩, ⟨0x000D, chrome131.extSignatureAlgorithms⟩,
        ⟨0x0012, []⟩,
        ⟨0x0033,
          extKeyShare (greaseU16 draws.greaseCipher) x25519Pub (some secp256r1Pub.toList)⟩,
        ⟨0x002D, [0x01, 0x01]⟩,
        ⟨0x002B, [0x08, 0x7A, 0x7A, 0x03, 0x04, 0x03, 0x03, 0x03, 0x02]⟩,
        ⟨0x001B, [0x02, 0x00, 0x02]⟩, ⟨0x0015, [0x00]⟩,
        ⟨greaseU16 draws.greaseExt, [0x00, 0x00]⟩
      ] := by
  rfl

theorem length_entries
    : ((entries sni x25519Pub secp256r1Pub draws).flatMap Tlv.encode).length
        = 248 + (ofString sni).length := by
  simp only [entries_eq, flatMap_cons, flatMap_nil, length_append,
    Tlv.length_encode, length_extServerName, length_extSupportedGroups, length_extAlpn,
    length_extSignatureAlgorithms, length_extKeyShare, length_cons, length_nil]
  omega

theorem sized_entries (hsni : (ofString sni).length ≤ 65530)
    : ∀ e ∈ entries sni x25519Pub secp256r1Pub draws, e.Sized := by
  have hgrease := greaseU16_lt draws.greaseExt
  simp only [entries_eq, forall_mem_cons, Tlv.Entry.Sized, length_extServerName,
    length_extSupportedGroups, length_extAlpn, length_extSignatureAlgorithms, length_extKeyShare]
  simp
  omega

theorem count_entries : (entries sni x25519Pub secp256r1Pub draws).length = 16 := by
  rfl

def helloHeader : Bytes :=
  [0x01] ++ toBigEndian 3 (353 + (ofString sni).length) ++ toBigEndian 2 0x0303

def helloStart : Bytes :=
  helloHeader sni ++ random.toList ++ [0x20]

def suites : Bytes :=
  putU16s (greaseU16 draws.greaseCipher :: chrome131.profile.cipherSuites)

def helloMiddle : Bytes :=
  toBigEndian 2 32 ++ suites draws ++ [0x01, 0x00] ++ toBigEndian 2 (248 + (ofString sni).length)

def handshake (sessionId : Vector UInt8 32) : Bytes :=
  helloStart sni random ++ (sessionId.toList ++ (helloMiddle sni draws
    ++ (entries sni x25519Pub secp256r1Pub draws).flatMap Tlv.encode))

theorem length_helloHeader : (helloHeader sni).length = 6 := by
  simp [helloHeader]

theorem length_helloStart : (helloStart sni random).length = 39 := by
  simp [helloStart, length_helloHeader]

theorem length_suites : (suites draws).length = 32 := by
  rfl

theorem length_helloMiddle : (helloMiddle sni draws).length = 38 := by
  simp [helloMiddle, length_suites]

variable (sessionId : Vector UInt8 32)

theorem length_handshake
    : (handshake sni random x25519Pub secp256r1Pub draws sessionId).length
        = 357 + (ofString sni).length := by
  simp only [handshake, length_append, length_helloStart, length_helloMiddle,
    length_entries, Vector.length_toList]
  omega

theorem buildClientHelloBody_eq
    : chrome131.buildClientHelloBody sni random sessionId (greaseU16 draws.greaseCipher)
        (greaseU16 draws.greaseExt) x25519Pub (some secp256r1Pub.toList)
        = toBigEndian 2 0x0303 ++ random.toList ++ [0x20] ++ (sessionId.toList
          ++ (helloMiddle sni draws
            ++ (entries sni x25519Pub secp256r1Pub draws).flatMap Tlv.encode)) := by
  unfold buildClientHelloBody helloMiddle suites
  dsimp only
  rw [buildExtensions_eq, length_entries]
  simp only [append_assoc]
  rfl

theorem handshake_eq
    : handshake sni random x25519Pub secp256r1Pub draws sessionId
        = let body := chrome131.buildClientHelloBody sni random sessionId
            (greaseU16 draws.greaseCipher) (greaseU16 draws.greaseExt) x25519Pub
            (some secp256r1Pub.toList)
          [0x01] ++ toBigEndian 3 body.length ++ body := by
  have hlength := length_handshake sni random x25519Pub secp256r1Pub draws sessionId
  rw [buildClientHelloBody_eq]
  generalize hrest : sessionId.toList ++ (helloMiddle sni draws
    ++ (entries sni x25519Pub secp256r1Pub draws).flatMap Tlv.encode) = rest
  have hbody : (toBigEndian 2 0x0303 ++ random.toList ++ [0x20] ++ rest).length
      = 353 + (ofString sni).length := by
    rw [handshake, hrest, length_append, length_helloStart] at hlength
    simp only [length_append, length_toBigEndian, Vector.length_toList, length_singleton]
    omega
  dsimp only
  rw [hbody, handshake, hrest]
  simp only [helloStart, helloHeader, append_assoc]

theorem buildWithAdditionalKeyShare_eq
    : chrome131.buildWithAdditionalKeyShare sni random sessionId (some x25519Pub)
        (some secp256r1Pub.toList) draws
        = [0x16, 0x03, 0x01] ++ toBigEndian 2 (357 + (ofString sni).length)
          ++ handshake sni random x25519Pub secp256r1Pub draws sessionId := by
  have hlength := length_handshake sni random x25519Pub secp256r1Pub draws sessionId
  rw [handshake_eq] at hlength ⊢
  unfold buildWithAdditionalKeyShare
  dsimp only
  rw [Option.getD_some, hlength]

end

end Blackwire.Tls
