import Blackwire.Transport.Reality.Handshake
import Blackwire.Lib.Fallible
import Blackwire.Common.Aead

/-!
This module contains how the server writes its encrypted flight, in records that look like the ones
of a cover server, and how the client takes the handshake messages out of such records, with the
verification of the record protection.
-/

namespace Blackwire.Reality

open Bytes

def encryptAppRecordPadded (p : Primitives) (cs : CipherSuite) (key iv : Bytes) (seq : Nat)
    (innerPlaintext : Bytes) (innerType : UInt8) (ciphertextLen : Nat) : Res Bytes :=
  let minimumLen := innerPlaintext.length + 1 + 16
  if ciphertextLen < minimumLen ∨ ciphertextLen > 65535 then
    fail (.protocol ("invalid padded TLS record length " ++ toString ciphertextLen ++ " for "
      ++ toString minimumLen ++ "-byte minimum"))
  else if p.aeadKeyOk cs key then
    let content := innerPlaintext ++ [innerType]
    let msg := content ++ List.replicate (ciphertextLen - 16 - content.length) 0
    let header := [rtApplicationData, 0x03, 0x03] ++ toBigEndian 2 ciphertextLen
    return header ++ p.aeadSeal cs key (computeNonce iv seq) header msg
  else
    fail (.protocol "bad TLS 1.3 record key length")

namespace writeEncryptedFlight

def coverRecords (p : Primitives) (cs : CipherSuite) (hsKeys : HsKeys) (lengths : List Nat)
    (flight : Bytes) (seq : Nat) (written : List Bytes) : Res (Bytes × Nat × List Bytes) :=
  match lengths with
  | [] => return (flight, seq, written)
  | ciphertextLen :: lengths =>
    if flight.isEmpty then
      return (flight, seq, written)
    else
      let contentCapacity := ciphertextLen - 17
      if contentCapacity = 0 then
        coverRecords p cs hsKeys lengths flight seq written
      else do
        let take := min flight.length contentCapacity
        let record ← encryptAppRecordPadded p cs hsKeys.serverKey hsKeys.serverIv seq
          (flight.take take) rtHandshake ciphertextLen
        coverRecords p cs hsKeys lengths (flight.drop take) (seq + 1) (written ++ [record])

-- Every record takes a part of the flight, so its length is enough fuel.
def fullRecords (p : Primitives) (cs : CipherSuite) (hsKeys : HsKeys) (fuel : Nat)
    (flight : Bytes) (seq : Nat) (written : List Bytes) : Res (List Bytes) :=
  match fuel with
  | 0 => return written
  | fuel + 1 =>
    if flight.isEmpty then
      return written
    else do
      let take := min flight.length (16 * 1024 - 1)
      let record ← encryptAppRecord p cs hsKeys.serverKey hsKeys.serverIv seq
        (flight.take take) rtHandshake
      fullRecords p cs hsKeys fuel (flight.drop take) (seq + 1) (written ++ [record])

end writeEncryptedFlight

def writeEncryptedFlight (p : Primitives) (cs : CipherSuite) (hsKeys : HsKeys) (flight : Bytes)
    (coverProfile : Option (List Nat)) : Res (List Bytes) := do
  let (rest, seq, written) ←
    writeEncryptedFlight.coverRecords p cs hsKeys (coverProfile.getD []) flight 0 []
  writeEncryptedFlight.fullRecords p cs hsKeys rest.length rest seq written

def extractMessages (p : Primitives) (cs : CipherSuite) (hsKeys : HsKeys) (fuel : Nat)
    (input : Bytes) (srvSeq : Nat) : Res (List Message) :=
  match fuel with
  | 0 => fail (.io .unexpectedEof)
  | fuel + 1 => do
    let (rec, rest) ← readRecordOrEof input
    if rec.type = rtChangeCipherSpec then
      extractMessages p cs hsKeys fuel rest srvSeq
    else if rec.type = rtAlert then
      fail (.protocol ("TLS alert from server during handshake: level="
        ++ toString (byteAt rec.body 0) ++ " desc=" ++ toString (byteAt rec.body 1)))
    else if rec.type = rtApplicationData then
      let (inner, innerType) ←
        decryptAppRecord p cs hsKeys.serverKey hsKeys.serverIv srvSeq rec.body rec.header
      if innerType ≠ rtHandshake then
        extractMessages p cs hsKeys fuel rest (srvSeq + 1)
      else
        let msgs := splitHandshakeMessages inner
        if msgs.any fun msg => msg.fst = hsFinished then
          return msgs
        else
          let later ← extractMessages p cs hsKeys fuel rest (srvSeq + 1)
          return msgs ++ later
    else
      fail (.protocol ("unexpected TLS record type " ++ hexPadded 2 rec.type.toNat
        ++ " during handshake"))

def handshakeMessage (hsType : UInt8) (body : Bytes) : Message :=
  (hsType, [hsType] ++ toBigEndian 3 body.length ++ body)

def serverFlight (encryptedExtensions certificate certificateVerify finished : Bytes)
    : List Message :=
  [
    handshakeMessage hsEncryptedExtensions encryptedExtensions,
    handshakeMessage hsCertificate certificate,
    handshakeMessage hsCertificateVerify certificateVerify,
    handshakeMessage hsFinished finished
  ]

def flightBytes (msgs : List Message) : Bytes :=
  msgs.flatMap Prod.snd

open Fallible List

structure Primitives.Lawful (p : Primitives) : Prop where
  length_seal (cs : CipherSuite) (key nonce aad plaintext : Bytes)
    : (p.aeadSeal cs key nonce aad plaintext).length = plaintext.length + 16
  open_seal (cs : CipherSuite) (key nonce aad plaintext : Bytes) (h : p.aeadKeyOk cs key = true)
    : p.aeadOpen cs key nonce aad (p.aeadSeal cs key nonce aad plaintext) = some plaintext

def CipherSuite.algorithm : CipherSuite → AeadAlgorithm
  | .aes128GcmSha256 => .aes128Gcm
  | .aes256GcmSha384 => .aes256Gcm

def Primitives.withAead (p : Primitives) (a : Aead) : Primitives where
  __ := p
  aeadKeyOk cs key := decide (key.length = cs.algorithm.keyLen)
  aeadOpen cs key nonce aad ciphertext :=
    if h : key.length = cs.algorithm.keyLen then
      (a.openCombined ⟨cs.algorithm, key, h⟩ nonce aad ciphertext).toOption
    else
      none
  aeadSeal cs key nonce aad plaintext :=
    if h : key.length = cs.algorithm.keyLen then
      a.sealCombined ⟨cs.algorithm, key, h⟩ nonce aad plaintext
    else
      plaintext ++ noTag

theorem Primitives.lawful_withAead (p : Primitives) (a : Aead) (ha : a.Lawful)
    : (p.withAead a).Lawful where
  length_seal cs key nonce aad plaintext := by
    dsimp only [withAead]
    split
    next => apply ha.length_seal
    next => simp [noTag, tagLen]
  open_seal cs key nonce aad plaintext hkey := by
    have hlength : key.length = cs.algorithm.keyLen := of_decide_eq_true hkey
    dsimp only [withAead]
    rw [dif_pos hlength, dif_pos hlength, ha.open_seal]
    rfl

def Record.wire (r : Record) : Bytes :=
  r.header ++ r.body

theorem readRecord_wire (hheader : r.header.length = 5) (hbody : r.body.length = u16At r.header 3)
    (rest : Bytes)
    : readRecord (r.wire ++ rest) = some (r, rest) := by
  unfold readRecord Record.wire
  rw [if_neg (by simp; omega), append_assoc, take_left' hheader, drop_left' hheader]
  rw [if_neg (by simp; omega), take_left' hbody, drop_left' hbody]

theorem readRecord_append (more : Bytes) (h : readRecord input = some (r, rest))
    : readRecord (input ++ more) = some (r, rest ++ more) := by
  unfold readRecord at h ⊢
  split at h
  next => cases h
  next hlong =>
    dsimp only at h
    split at h
    next => cases h
    next hbody =>
      rw [if_neg (by rw [length_append]; omega), take_append_of_le_length (by omega),
        drop_append_of_le_length (by omega)]
      rw [if_neg (by rw [length_append]; omega), take_append_of_le_length (by omega),
        drop_append_of_le_length (by omega)]
      cases h
      rfl

theorem readRecord_of_cut (r : Record) (hheader : r.header.length = 5)
    (hbody : r.body.length = u16At r.header 3) (rest : Bytes) (hwire : part ++ rest = r.wire)
    (hrest : rest ≠ [])
    : readRecord part = none := by
  match hread : readRecord part with
  | none => rfl
  | some (r', rest') =>
    have hpart := readRecord_append rest hread
    have hwhole := readRecord_wire hheader hbody []
    rw [append_nil, ← hwire, hpart, Option.some.injEq, Prod.mk.injEq,
      append_eq_nil_iff] at hwhole
    exact absurd hwhole.right.right hrest

theorem readRecord_of_short_body {header body : Bytes} (hheader : header.length = 5)
    (hbody : body.length < u16At header 3)
    : readRecord (header ++ body) = none := by
  unfold readRecord
  rw [if_neg (by simp; omega), take_left' hheader, drop_left' hheader]
  exact if_pos hbody

theorem zipWith_xor_cancel (mask bytes : Bytes) (h : bytes.length = mask.length)
    : mask.zipWith (· ^^^ ·) (mask.zipWith (· ^^^ ·) bytes) = bytes := by
  induction mask generalizing bytes with
  | nil => simpa using h
  | cons m mask ih =>
    match bytes with
    | b :: bytes =>
      rw [zipWith_cons_cons, zipWith_cons_cons, ih bytes (by simpa using h),
        ← UInt8.xor_assoc, UInt8.xor_self, UInt8.zero_xor]

theorem computeNonce_eq_iff (iv : Bytes) (hiv : iv.length = 12) (m n : Nat)
    : computeNonce iv m = computeNonce iv n ↔ m % 2 ^ 64 = n % 2 ^ 64 := by
  have hmask (k : Nat) : (toBigEndian 8 k).length = (iv.drop 4).length := by
    rw [length_toBigEndian, length_drop, hiv]
  have hvalue (k : Nat) : ofBigEndian (toBigEndian 8 k) = k % 2 ^ 64 := ofBigEndian_toBigEndian 8 k
  unfold computeNonce
  rw [append_cancel_left_eq, ← hvalue, ← hvalue]
  constructor
  . intro h
    rw [← zipWith_xor_cancel _ _ (hmask m), h, zipWith_xor_cancel _ _ (hmask n)]
  . intro h
    rw [ofBigEndian_injective _ _ (by rw [hmask, hmask]) h]

def sealedRecord (p : Primitives) (cs : CipherSuite) (key iv : Bytes) (seq : Nat)
    (content : Bytes) (innerType : UInt8) (len : Nat) : Record :=
  let header := [rtApplicationData, 0x03, 0x03] ++ toBigEndian 2 len
  let msg := content ++ [innerType] ++ replicate (len - 17 - content.length) 0
  ⟨header, p.aeadSeal cs key (computeNonce iv seq) header msg⟩

theorem dropWhile_replicate_append (k : Nat) (bytes : Bytes)
    : (replicate k 0 ++ bytes).dropWhile (· = 0) = bytes.dropWhile (· = 0) := by
  induction k with
  | zero => rfl
  | succ k ih => rw [replicate_succ, cons_append, dropWhile_cons_of_pos (by rfl), ih]

theorem splitInnerPlaintext_padded (h : innerType ≠ 0)
    : splitInnerPlaintext (content ++ [innerType] ++ replicate k 0)
        = .ok (content, innerType) := by
  unfold splitInnerPlaintext
  rw [reverse_append, reverse_replicate, dropWhile_replicate_append,
    reverse_append, reverse_singleton, singleton_append,
    dropWhile_cons_of_neg (by simpa using h)]
  dsimp only
  rw [reverse_reverse]
  rfl

section

variable {p : Primitives} (hp : p.Lawful) {cs : CipherSuite} {key : Bytes} (iv : Bytes) (seq : Nat)
  (content : Bytes) {innerType : UInt8} (len : Nat)

include hp in
theorem decryptAppRecordWith_sealedRecord (hkey : p.aeadKeyOk cs key = true) (htype : innerType ≠ 0)
    : decryptAppRecordWith p cs key iv seq
        (sealedRecord p cs key iv seq content innerType len).body
        (sealedRecord p cs key iv seq content innerType len).header = .ok (content, innerType) := by
  unfold decryptAppRecordWith
  dsimp only [sealedRecord]
  rw [hp.open_seal cs key _ _ _ hkey]
  exact splitInnerPlaintext_padded htype

include hp in
theorem decryptAppRecord_sealedRecord (hkey : p.aeadKeyOk cs key = true) (htype : innerType ≠ 0)
    : decryptAppRecord p cs key iv seq (sealedRecord p cs key iv seq content innerType len).body
        (sealedRecord p cs key iv seq content innerType len).header = .ok (content, innerType) := by
  rw [decryptAppRecord, if_pos hkey]
  exact decryptAppRecordWith_sealedRecord hp iv seq content len hkey htype

include hp in
theorem length_sealedRecord (hmin : content.length + 17 ≤ len)
    : (sealedRecord p cs key iv seq content innerType len).body.length = len := by
  dsimp only [sealedRecord]
  rw [hp.length_seal, length_append, length_append, length_replicate,
    length_singleton]
  omega

variable (cs key innerType) in
include hp in
theorem whole_sealedRecord (hmin : content.length + 17 ≤ len) (hmax : len ≤ 65535)
    : (sealedRecord p cs key iv seq content innerType len).header.length = 5
      ∧ (sealedRecord p cs key iv seq content innerType len).body.length
        = u16At (sealedRecord p cs key iv seq content innerType len).header 3 := by
  have hlen : u16At (sealedRecord p cs key iv seq content innerType len).header 3 = len := by
    have hread := u16At_append [rtApplicationData, 0x03, 0x03] [] len
    rw [append_nil, Nat.mod_eq_of_lt (by omega)] at hread
    exact hread
  refine ⟨by simp [sealedRecord], ?_⟩
  rw [hlen, length_sealedRecord hp iv seq content len hmin]

include hp in
theorem readRecord_sealedRecord (hmin : content.length + 17 ≤ len) (hmax : len ≤ 65535)
    (rest : Bytes)
    : readRecord ((sealedRecord p cs key iv seq content innerType len).wire ++ rest)
        = some (sealedRecord p cs key iv seq content innerType len, rest) := by
  rcases whole_sealedRecord hp cs key iv seq content innerType len hmin hmax with ⟨hheader, hbody⟩
  exact readRecord_wire hheader hbody rest

theorem encryptAppRecordPadded_eq_ok (hkey : p.aeadKeyOk cs key = true)
    (hmin : content.length + 17 ≤ len) (record : Bytes)
    : encryptAppRecordPadded p cs key iv seq content innerType len = .ok record
        ↔ len ≤ 65535 ∧ record = (sealedRecord p cs key iv seq content innerType len).wire := by
  unfold encryptAppRecordPadded
  by_cases hmax : len ≤ 65535
  . have hpad : len - 16 - (content ++ [innerType]).length = len - 17 - content.length := by
      rw [length_append, length_singleton]
      omega
    rw [if_neg (by omega), if_pos hkey]
    dsimp only [sealedRecord, Record.wire]
    rw [hpad, pure_eq_ok, eq_comm, iff_and_self]
    exact fun _ => hmax
  . rw [if_pos (by omega)]
    simp [fail, hmax]

theorem encryptAppRecordWith_eq
    : encryptAppRecordWith p cs key iv seq content innerType
        = .ok (sealedRecord p cs key iv seq content innerType (content.length + 17)).wire := by
  unfold encryptAppRecordWith
  dsimp only [sealedRecord]
  have hpad : content.length + 17 - 17 - content.length = 0 := by omega
  rw [length_append, length_singleton, hpad, replicate_zero, append_nil]
  rfl

theorem encryptAppRecord_eq (hkey : p.aeadKeyOk cs key = true)
    : encryptAppRecord p cs key iv seq content innerType
        = .ok (sealedRecord p cs key iv seq content innerType (content.length + 17)).wire := by
  rw [encryptAppRecord, if_pos hkey]
  exact encryptAppRecordWith_eq iv seq content

end

end Blackwire.Reality
