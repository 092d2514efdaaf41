import Blackwire.Lib.Bytes
import Blackwire.Lib.Inbox
import Blackwire.Common.Aead

/-!
This module contains the key derivation of VMess, over given hash functions, and its chunked stream.
The two halves of a stream share nothing. A reader that has the keys and options of a writer draws
the same masks and counts the same chunks, so it follows the frames of the writer.
-/

namespace Blackwire.Vmess

structure Hashes where
  md5 : Bytes → Vector UInt8 16
  sha256 : Bytes → Vector UInt8 32
  hmacSha256 (key msg : Bytes) : Vector UInt8 32
  shake128 (seed : Bytes) (i : Nat) : UInt8

def vmessAeadKdfSalt : Bytes := Bytes.ofString "VMess AEAD KDF"

def hmacBlockSize : Nat := 64

-- The paths are in reverse, so that the last one comes first.
def kdfHash (h : Hashes) (paths : List Bytes) (msg : Bytes) : Vector UInt8 32 :=
  match paths with
  | [] => h.hmacSha256 vmessAeadKdfSalt msg
  | key :: hashPaths =>
    let blockKey := if key.length > hmacBlockSize then (kdfHash h hashPaths key).toList else key
    let blockKey := blockKey ++ List.replicate (hmacBlockSize - blockKey.length) 0
    let ipad := blockKey.map (0x36 ^^^ ·)
    let opad := blockKey.map (0x5c ^^^ ·)
    let inner := kdfHash h hashPaths (ipad ++ msg)
    kdfHash h hashPaths (opad ++ inner.toList)

def firstSixteen (digest : Vector UInt8 32) : Vector UInt8 16 :=
  digest.take 16

def kdf (h : Hashes) (key : Bytes) (paths : List Bytes) : Vector UInt8 16 :=
  firstSixteen (kdfHash h paths.reverse key)

def responseBodyKey (h : Hashes) (requestKey : Vector UInt8 16) : Vector UInt8 16 :=
  firstSixteen (h.sha256 requestKey.toList)

def responseBodyIv (h : Hashes) (requestIv : Vector UInt8 16) : Vector UInt8 16 :=
  firstSixteen (h.sha256 requestIv.toList)

open Bytes

inductive Security where
  | aes128Gcm
  | chaCha20Poly1305
  | none
deriving DecidableEq

def maxChunkSize : Nat := 16 * 1024

def requestOptionChunkMasking : UInt8 := 0x04

def requestOptionGlobalPadding : UInt8 := 0x08

def requestOptionAuthenticatedLength : UInt8 := 0x10

def chunkNonce (counter : UInt16) (iv : Vector UInt8 16) : Bytes :=
  toBigEndian 2 counter.toNat ++ (iv.toList.drop 2).take 10

inductive BodyCipher where
  | aead (key : AeadKey)
  | none
deriving DecidableEq

def chachaKey (h : Hashes) (key : Vector UInt8 16) : Vector UInt8 32 :=
  let first := h.md5 key.toList
  let second := h.md5 first.toList
  first ++ second

theorem length_aes128Key {key : Vector UInt8 16}
    : key.toList.length = AeadAlgorithm.aes128Gcm.keyLen := by
  apply Vector.length_toList

namespace BodyCipher

def new (h : Hashes) (security : Security) (key : Vector UInt8 16) : BodyCipher :=
  match security with
  | .aes128Gcm => aead ⟨.aes128Gcm, key.toList, length_aes128Key⟩
  | .chaCha20Poly1305 =>
    aead ⟨.chaCha20Poly1305, (chachaKey h key).toList, Vector.length_toList⟩
  | .none => none

def overhead : BodyCipher → Nat
  | aead _ => tagLen
  | none => 0

def encryptAppend (a : Aead) (nonce data : Bytes) : BodyCipher → Bytes
  | aead key => a.sealCombined key nonce [] data
  | none => data

-- `decrypt_in_place` and `decrypt_combined`.
def decryptInPlace (a : Aead) (nonce buf : Bytes) : BodyCipher → Except Bytes Bytes
  | aead key => a.openCombined key nonce [] buf
  | none => .ok buf

end BodyCipher

structure SizeMask where
  iv : Vector UInt8 16
  pos : Nat

def SizeMask.next (h : Hashes) (mask : SizeMask) : SizeMask × UInt16 :=
  ({ mask with pos := mask.pos + 2 },
    UInt16.ofNat (ofBigEndian
      [h.shake128 mask.iv.toList mask.pos, h.shake128 mask.iv.toList (mask.pos + 1)]))

structure Body where
  cipher : BodyCipher
  iv : Vector UInt8 16
  counter : UInt16
  sizeCipher : Option BodyCipher
  sizeIv : Vector UInt8 16
  sizeCounter : UInt16
  sizeMask : Option SizeMask
  globalPadding : Bool
  fits : ∀ c ∈ sizeCipher, c.overhead ≤ cipher.overhead

variable {ε : Type}

namespace Body

def new (h : Hashes) (key iv authLenKeyBase authLenIvBase : Vector UInt8 16) (security : Security)
    (options : UInt8) : Body where
  cipher := .new h security key
  iv := iv
  counter := 0
  sizeCipher :=
    if options &&& requestOptionAuthenticatedLength ≠ 0 ∧ security ≠ .none then
      some (.new h security (kdf h authLenKeyBase.toList [ofString "auth_len"]))
    else
      none
  sizeIv := authLenIvBase
  sizeCounter := 0
  sizeMask := if options &&& requestOptionChunkMasking ≠ 0 then some ⟨iv, 0⟩ else none
  globalPadding := options &&& requestOptionGlobalPadding ≠ 0
  fits := by
    cases security <;> simp [BodyCipher.new, BodyCipher.overhead]

def count (b : Body) : Body :=
  { b with counter := b.counter + 1 }

-- `next_read_padding_len` and `next_write_padding_len`.
def nextPaddingLen (h : Hashes) (b : Body) : Body × Nat :=
  if !b.globalPadding then
    (b, 0)
  else
    match b.sizeMask with
    | some mask => ({ b with sizeMask := some (mask.next h).fst }, (mask.next h).snd.toNat % 64)
    | none => (b, 0)

def sizeFieldLen (b : Body) : Nat :=
  match b.sizeCipher with
  | some cipher => 2 + cipher.overhead
  | none => 2

variable (a : Aead) (h : Hashes) (b : Body)

def decodeSize (bytes : Bytes) : Except (StreamError ε) (Body × Nat) :=
  match b.sizeCipher with
  | some cipher =>
    let nonce := chunkNonce b.sizeCounter b.sizeIv
    if bytes.length > 2 + tagLen then
      .error (.invalidData "VMess: authenticated length field too large")
    else
      match cipher.decryptInPlace a nonce bytes with
      | .error _ => .error (.invalidData "VMess: authenticated length decryption failed")
      | .ok plain =>
        if plain.length ≠ 2 then
          .error (.invalidData "VMess: authenticated length plaintext has invalid size")
        else
          .ok ({ b with sizeCounter := b.sizeCounter + 1 }, ofBigEndian plain + cipher.overhead)
  | none =>
    let encoded := UInt16.ofNat (ofBigEndian (bytes.take 2))
    match b.sizeMask with
    | some mask =>
      .ok ({ b with sizeMask := some (mask.next h).fst }, (encoded ^^^ (mask.next h).snd).toNat)
    | none => .ok (b, encoded.toNat)

def appendSize (size : Nat) : Except (StreamError ε) (Body × Bytes) :=
  if size ≥ 65536 then
    .error (.invalidData "VMess: body chunk too large for u16 length")
  else
    match b.sizeCipher with
    | some cipher =>
      if cipher.overhead ≥ 65536 then
        .error (.invalidData "VMess: authenticated length overhead too large")
      else if size < cipher.overhead then
        .error (.invalidData "VMess: authenticated body chunk too small")
      else
        let plain := toBigEndian 2 (size - cipher.overhead)
        let nonce := chunkNonce b.sizeCounter b.sizeIv
        .ok ({ b with sizeCounter := b.sizeCounter + 1 }, cipher.encryptAppend a nonce plain)
    | none =>
      let encoded := UInt16.ofNat size
      match b.sizeMask with
      | some mask =>
        .ok ({ b with sizeMask := some (mask.next h).fst },
          toBigEndian 2 (encoded ^^^ (mask.next h).snd).toNat)
      | none => .ok (b, toBigEndian 2 encoded.toNat)

end Body

structure ReadHalf where
  body : Body
  readRawBuf : Bytes
  decryptScratch : Bytes
  readScratchPos : Nat
  readPending : Option (Nat × Nat)

namespace ReadHalf

variable (a : Aead) (h : Hashes) (s : ReadHalf)

-- `try_decrypt_chunk` up to where it knows the size of the chunk and of its padding.
def readSize : ReadHalf × Option (Except (StreamError ε) (Nat × Nat)) :=
  match s.readPending with
  | some pending => ({ s with readPending := none }, some (.ok pending))
  | none =>
    if s.readRawBuf.length < s.body.sizeFieldLen then
      (s, none)
    else
      let (body, paddingLen) := s.body.nextPaddingLen h
      match body.decodeSize a h (s.readRawBuf.take s.body.sizeFieldLen) with
      | .error e => ({ s with body := body }, some (.error e))
      | .ok (body, size) => ({ s with body := body }, some (.ok (size, paddingLen)))

def decryptBody (a : Aead) (s : ReadHalf) (size paddingLen : Nat)
    : ReadHalf × Option (Except (StreamError ε) Unit) :=
  if size < s.body.cipher.overhead + paddingLen then
    (s, some (.error (.invalidData "VMess: body chunk size smaller than authentication tag")))
  else
    let total := s.body.sizeFieldLen + size
    if s.readRawBuf.length < total then
      -- The size is kept, so that the mask is not advanced twice for one chunk.
      ({ s with readPending := some (size, paddingLen) }, none)
    else
      let dataCt := (s.readRawBuf.drop s.body.sizeFieldLen).take (size - paddingLen)
      let s := { s with readRawBuf := s.readRawBuf.drop total }
      let dataNonce := chunkNonce s.body.counter s.body.iv
      match s.body.cipher.decryptInPlace a dataNonce dataCt with
      | .error left =>
        ({ s with decryptScratch := left },
          some (.error (.invalidData "VMess: data chunk decryption failed")))
      | .ok plain =>
        ({ s with body := s.body.count, decryptScratch := plain, readScratchPos := 0 },
          some (.ok ()))

def tryDecryptChunk : ReadHalf × Option (Except (StreamError ε) Unit) :=
  match s.readSize a h with
  | (s, none) => (s, none)
  | (s, some (.error e)) => (s, some (.error e))
  | (s, some (.ok (size, paddingLen))) => s.decryptBody a size paddingLen

end ReadHalf

section

variable (a : Aead) (h : Hashes)

def deframer : Deframer ReadHalf UInt8 (StreamError ε) where
  avail s := s.decryptScratch.drop s.readScratchPos
  consume s n := { s with readScratchPos := s.readScratchPos + n }
  extend s segment := { s with readRawBuf := s.readRawBuf ++ segment }
  decode s := s.tryDecryptChunk a h

inductive SealKind where
  | length
  | payload

structure SealUse where
  kind : SealKind
  chunk : Nat
  key : AeadKey
  nonce : Bytes

def BodyCipher.uses (kind : SealKind) (chunk : Nat) (nonce : Bytes) : BodyCipher → List SealUse
  | aead key => [⟨kind, chunk, key, nonce⟩]
  | none => []

/--
The number of chunks and the uses of AEADs so far are recorded for the specification only.
-/
structure WriteHalf where
  body : Body
  chunks : Nat
  uses : List SealUse

-- `random` is what the random number generator fills the padding with.
def WriteHalf.appendEncryptedChunk (s : WriteHalf) (random : Nat → UInt8)
    (data : Bytes) : WriteHalf × Bytes × Except (StreamError ε) Unit :=
  let nonce := chunkNonce s.body.counter s.body.iv
  let (body, paddingLen) := s.body.nextPaddingLen h
  let size := data.length + body.cipher.overhead + paddingLen
  match body.appendSize a h size with
  | .error e => ({ s with body := body }, [], .error e)
  | .ok (body, sizeField) =>
    let sizeUses := body.sizeCipher.toList.flatMap
      (BodyCipher.uses .length s.chunks (chunkNonce s.body.sizeCounter body.sizeIv))
    (⟨body.count, s.chunks + 1, s.uses ++ sizeUses ++ body.cipher.uses .payload s.chunks nonce⟩,
      sizeField ++ body.cipher.encryptAppend a nonce data ++ (List.range paddingLen).map random,
      .ok ())

def framer : Framer WriteHalf (Nat → UInt8) UInt8 (StreamError ε) where
  limit := maxChunkSize
  zero := .writeZero "VMess: inner write returned 0"
  append s random data := s.appendEncryptedChunk a h random data

end

structure VmessStream where
  reader : ReadHalf
  writer : Outbox WriteHalf UInt8

namespace VmessStream

def newBidirWithAuthLenBase (h : Hashes)
    (readKey readIv writeKey writeIv authLenKeyBase authLenIvBase : Vector UInt8 16)
    (security : Security) (options : UInt8) : VmessStream where
  reader := ⟨.new h readKey readIv authLenKeyBase authLenIvBase security options, [], [], 0, none⟩
  writer := ⟨⟨.new h writeKey writeIv authLenKeyBase authLenIvBase security options, 0, []⟩, [], []⟩

def newBidir (h : Hashes) (readKey readIv writeKey writeIv : Vector UInt8 16)
    (security : Security) (options : UInt8) : VmessStream :=
  newBidirWithAuthLenBase h readKey readIv writeKey writeIv readKey readIv security options

section

variable (h : Hashes) (key iv : Vector UInt8 16) (security : Security) (options : UInt8)

-- The stream that `connect_vmess_on_stream` makes of the key and the IV of a request.
def client : VmessStream :=
  newBidirWithAuthLenBase h (responseBodyKey h key) (responseBodyIv h iv) key iv key iv security
    options

-- The stream that `VmessInbound::handle` makes of them.
def server : VmessStream :=
  newBidir h key iv (responseBodyKey h key) (responseBodyIv h iv) security options

end

def pollRead (a : Aead) (h : Hashes) (s : VmessStream) (cap : Nat)
    (script : Script UInt8 (StreamError ε)) : VmessStream × Poll (Except (StreamError ε) Bytes) :=
  let (reader, result, _) := (deframer a h).pollRead cap s.reader script
  ({ s with reader := reader }, result)

def pollWrite (a : Aead) (h : Hashes) (s : VmessStream) (random : Nat → UInt8) (buf : Bytes)
    (answers : List (Poll (Except (StreamError ε) Nat)))
    : VmessStream × Poll (Except (StreamError ε) Nat) :=
  let (writer, result) := (framer a h).pollWrite s.writer random buf answers
  ({ s with writer := writer }, result)

def pollFlush (a : Aead) (h : Hashes) (s : VmessStream)
    (answers : List (Poll (Except (StreamError ε) Nat)))
    (inner : Poll (Except (StreamError ε) Unit))
    : VmessStream × Poll (Except (StreamError ε) Unit) :=
  let (writer, result) := (framer a h).pollFlush s.writer answers inner
  ({ s with writer := writer }, result)

-- What is left in `write_buf` is not looked at.
def pollShutdown (s : VmessStream) (inner : Poll (Except (StreamError ε) Unit))
    : VmessStream × Poll (Except (StreamError ε) Unit) :=
  (s, inner)

end VmessStream

open Bytes Machine
open List hiding Vector

namespace Body

structure Alike (b b' : Body) : Prop where
  cipher : b'.cipher = b.cipher
  iv : b'.iv = b.iv
  counter : b'.counter = b.counter
  sizeCipher : b'.sizeCipher = b.sizeCipher
  sizeIv : b'.sizeIv = b.sizeIv

theorem Alike.trans (h : Alike b b') (h' : Alike b' b'') : Alike b b'' where
  cipher := by rw [h'.cipher, h.cipher]
  iv := by rw [h'.iv, h.iv]
  counter := by rw [h'.counter, h.counter]
  sizeCipher := by rw [h'.sizeCipher, h.sizeCipher]
  sizeIv := by rw [h'.sizeIv, h.sizeIv]

theorem Alike.sizeFieldLen (h : Alike b b') : b'.sizeFieldLen = b.sizeFieldLen := by
  unfold Body.sizeFieldLen
  rw [h.sizeCipher]

variable {ε : Type}

theorem nextPaddingLen_alike (b : Body) : Alike b (b.nextPaddingLen h).fst := by
  unfold nextPaddingLen
  split
  . exact ⟨rfl, rfl, rfl, rfl, rfl⟩
  . split
    . exact ⟨rfl, rfl, rfl, rfl, rfl⟩
    . exact ⟨rfl, rfl, rfl, rfl, rfl⟩

theorem nextPaddingLen_lt (b : Body) : (b.nextPaddingLen h).snd < 64 := by
  unfold nextPaddingLen
  split
  . simp
  split
  . apply Nat.mod_lt
    decide
  . simp

theorem appendSize_alike (happend : b.appendSize (ε := ε) a h size = .ok (b', field))
    : Alike b b' := by
  unfold appendSize at happend
  split at happend
  . cases happend
  split at happend
  . split at happend
    . cases happend
    split at happend
    . cases happend
    . cases happend
      exact ⟨rfl, rfl, rfl, rfl, rfl⟩
  . dsimp only at happend
    split at happend
    . cases happend
      exact ⟨rfl, rfl, rfl, rfl, rfl⟩
    . cases happend
      exact ⟨rfl, rfl, rfl, rfl, rfl⟩

theorem overhead_le (c : BodyCipher) : c.overhead ≤ 16 := by
  cases c with
  | aead key => apply Nat.le_refl
  | none => apply Nat.zero_le

theorem sizeFieldLen_bounds (b : Body) : 2 ≤ b.sizeFieldLen ∧ b.sizeFieldLen ≤ 18 := by
  unfold sizeFieldLen
  split
  next cipher _ =>
    have hle := overhead_le cipher
    omega
  next => omega

theorem exists_appendSize {b : Body} (hsize : size < 65536) (hoverhead : b.cipher.overhead ≤ size)
    : ∃ b' field, b.appendSize (ε := ε) a h size = .ok (b', field) := by
  unfold appendSize
  rw [if_neg (by omega)]
  split
  . next cipher hcipher =>
    have hfits := b.fits cipher hcipher
    rw [if_neg (by omega), if_neg (by omega)]
    exact ⟨_, _, rfl⟩
  . dsimp only
    split
    . exact ⟨_, _, rfl⟩
    . exact ⟨_, _, rfl⟩

theorem ofBigEndian_toBigEndian_two (hn : n < 65536)
    : ofBigEndian (toBigEndian 2 n) = n := by
  rw [ofBigEndian_toBigEndian]
  apply Nat.mod_eq_of_lt
  exact hn

theorem decryptInPlace_encryptAppend (ha : a.Lawful) (c : BodyCipher) (nonce data : Bytes)
    : c.decryptInPlace a nonce (c.encryptAppend a nonce data) = .ok data := by
  cases c with
  | aead key => apply ha.open_seal
  | none => rfl

theorem length_encryptAppend (ha : a.Lawful) (c : BodyCipher) (nonce data : Bytes)
    : (c.encryptAppend a nonce data).length = data.length + c.overhead := by
  cases c with
  | aead key => apply ha.length_seal
  | none => rfl

theorem decodeSize_appendSize (ha : a.Lawful) {b b' : Body}
    (happend : b.appendSize (ε := ε) a h size = .ok (b', field))
    : field.length = b.sizeFieldLen ∧ b.decodeSize (ε := ε) a h field = .ok (b', size) := by
  rcases b with ⟨cipher, iv, counter, sizeCipher, sizeIv, sizeCounter, sizeMask, padding, fits⟩
  unfold appendSize at happend
  unfold decodeSize sizeFieldLen
  dsimp only at happend ⊢
  split at happend
  . cases happend
  . next hsize =>
    cases sizeCipher with
    | some c =>
      have hle := overhead_le c
      dsimp only at happend ⊢
      rw [if_neg (by omega)] at happend
      split at happend
      . cases happend
      cases happend
      have hlength : (c.encryptAppend a (chunkNonce sizeCounter sizeIv)
          (toBigEndian 2 (size - c.overhead))).length = 2 + c.overhead := by
        rw [length_encryptAppend ha, length_toBigEndian]
      refine ⟨hlength, ?_⟩
      rw [hlength, if_neg (by unfold tagLen; omega), decryptInPlace_encryptAppend ha]
      dsimp only
      rw [if_neg (by simp), ofBigEndian_toBigEndian_two (by omega)]
      congr 2
      omega
    | none =>
      have hnat : (UInt16.ofNat size).toNat = size := by
        apply Nat.mod_eq_of_lt
        omega
      have hread (x : UInt16)
          : UInt16.ofNat (ofBigEndian ((toBigEndian 2 x.toNat).take 2)) = x := by
        rw [take_of_length_le (by simp), ofBigEndian_toBigEndian_two x.toNat_lt]
        apply UInt16.ofNat_toNat
      cases sizeMask with
      | some mask =>
        cases happend
        refine ⟨length_toBigEndian _ _, ?_⟩
        dsimp only
        rw [hread, UInt16.xor_assoc, UInt16.xor_self, UInt16.xor_zero, hnat]
      | none =>
        cases happend
        refine ⟨length_toBigEndian _ _, ?_⟩
        rw [hread, hnat]

end Body

variable {ε : Type} {a : Aead}

def Body.usesOf (b : Body) (n : Nat) : List SealUse :=
  b.sizeCipher.toList.flatMap (BodyCipher.uses .length n (chunkNonce b.sizeCounter b.sizeIv))
    ++ b.cipher.uses .payload n (chunkNonce b.counter b.iv)

variable (ε a h) in
structure Sized (b : Body) (data : Bytes) (paddingLen : Nat) (field : Bytes) (b' : Body)
    : Prop where
  padding : (b.nextPaddingLen h).snd = paddingLen
  field : (b.nextPaddingLen h).fst.appendSize (ε := ε) a h
    (data.length + b.cipher.overhead + paddingLen) = .ok (b', field)

theorem exists_sized (b : Body) {data : Bytes} (hdata : data.length ≤ maxChunkSize)
    : ∃ paddingLen field b', Sized ε a h b data paddingLen field b' := by
  have halike := b.nextPaddingLen_alike (h := h)
  have hle := Body.overhead_le b.cipher
  have hlt := b.nextPaddingLen_lt (h := h)
  have hsize : data.length + b.cipher.overhead + (b.nextPaddingLen h).snd < 65536 := by
    unfold maxChunkSize at hdata
    omega
  rcases Body.exists_appendSize (ε := ε) (a := a) (h := h) hsize
    (by rw [halike.cipher]; omega) with ⟨b', field, happend⟩
  exact ⟨_, field, b', rfl, happend⟩

theorem sized_of_ok {t : WriteHalf}
    (hok : (t.appendEncryptedChunk (ε := ε) a h random data).snd.snd = .ok ())
    : ∃ paddingLen field b', Sized ε a h t.body data paddingLen field b' := by
  unfold WriteHalf.appendEncryptedChunk at hok
  dsimp only at hok
  rw [t.body.nextPaddingLen_alike.cipher] at hok
  split at hok
  next => cases hok
  next b' field happend => exact ⟨_, field, b', rfl, happend⟩

namespace Sized

variable {field : Bytes}

theorem alike (hsized : Sized ε a h b data paddingLen field b') : Body.Alike b b' :=
  b.nextPaddingLen_alike.trans (Body.appendSize_alike hsized.field)

theorem append_eq (hsized : Sized ε a h b data paddingLen field b') (n : Nat)
    (uses : List SealUse) (random : Nat → UInt8)
    : WriteHalf.appendEncryptedChunk (ε := ε) a h ⟨b, n, uses⟩ random data
        = (⟨b'.count, n + 1, uses ++ b.usesOf n⟩,
          field ++ b.cipher.encryptAppend a (chunkNonce b.counter b.iv) data
            ++ (range paddingLen).map random,
          .ok ()) := by
  have halike := hsized.alike
  have hfield := hsized.field
  have hpadding := hsized.padding
  unfold WriteHalf.appendEncryptedChunk
  dsimp only
  rw [b.nextPaddingLen_alike.cipher, hpadding, hfield]
  dsimp only
  rw [halike.cipher, halike.sizeCipher, halike.sizeIv, append_assoc]
  rfl

section

variable (ha : a.Lawful) (hsized : Sized ε a h b data paddingLen field b')
include ha hsized

theorem readSize_eq {s : ReadHalf}
    (hbody : s.body = b) (hpending : s.readPending = none) (hraw : s.readRawBuf = field ++ more)
    : s.readSize (ε := ε) a h
        = ({ s with body := b' },
          some (.ok (data.length + b.cipher.overhead + paddingLen, paddingLen))) := by
  rcases Body.decodeSize_appendSize ha hsized.field with ⟨hlength, hdecode⟩
  rw [b.nextPaddingLen_alike.sizeFieldLen] at hlength
  have hpadding := hsized.padding
  unfold ReadHalf.readSize
  rw [hpending, hbody]
  dsimp only
  rw [if_neg, hraw, ← hlength, take_left, hdecode, hpadding]
  rw [hraw, length_append]
  omega

theorem length_field
    : field.length = b'.sizeFieldLen := by
  rw [(Body.decodeSize_appendSize ha hsized.field).left, hsized.alike.sizeFieldLen,
    b.nextPaddingLen_alike.sizeFieldLen]

theorem decryptBody_waits
    {s : ReadHalf} (hbody : s.body = b')
    (hshort : s.readRawBuf.length
      < field.length + (data.length + b.cipher.overhead + paddingLen))
    : s.decryptBody (ε := ε) a (data.length + b.cipher.overhead + paddingLen) paddingLen
        = ({ s with
            readPending := some (data.length + b.cipher.overhead + paddingLen, paddingLen) },
          none) := by
  rw [hsized.length_field ha] at hshort
  unfold ReadHalf.decryptBody
  rw [hbody, hsized.alike.cipher, if_neg (by omega)]
  rw [if_pos hshort]

theorem decryptBody_decodes (s : ReadHalf) (hbody : s.body = b') (padding more : Bytes)
    (hpadding : padding.length = paddingLen)
    (hraw : s.readRawBuf
      = field ++ b.cipher.encryptAppend a (chunkNonce b.counter b.iv) data ++ padding ++ more)
    : s.decryptBody (ε := ε) a (data.length + b.cipher.overhead + paddingLen) paddingLen
        = (⟨b'.count, more, data, 0, s.readPending⟩, some (.ok ())) := by
  have hfield := hsized.length_field ha
  have hdata := Body.length_encryptAppend ha b.cipher (chunkNonce b.counter b.iv) data
  have hlength : s.readRawBuf.length
      = field.length + (data.length + b.cipher.overhead) + paddingLen + more.length := by
    rw [hraw]
    simp only [length_append]
    omega
  have htake : (s.readRawBuf.drop field.length).take (data.length + b.cipher.overhead)
      = b.cipher.encryptAppend a (chunkNonce b.counter b.iv) data := by
    rw [hraw, append_assoc, append_assoc, drop_left, ← hdata, take_left]
  have hdrop : s.readRawBuf.drop (field.length + (data.length + b.cipher.overhead + paddingLen))
      = more := by
    rw [hraw]
    apply drop_left'
    simp only [length_append]
    omega
  unfold ReadHalf.decryptBody
  rw [hbody, ← hfield, hsized.alike.cipher, if_neg (by omega)]
  dsimp only
  rw [if_neg (by omega), hdrop, Nat.add_sub_cancel, htake, hsized.alike.cipher,
    hsized.alike.counter, hsized.alike.iv, Body.decryptInPlace_encryptAppend ha]

end

end Sized

def chunkFrames (a : Aead) (h : Hashes) (ε : Type) (t : WriteHalf)
    : List ((Nat → UInt8) × Bytes) → List (Frame UInt8)
  | [] => []
  | (random, data) :: chunks =>
    let (t, bytes, _) := t.appendEncryptedChunk (ε := ε) a h random data
    ⟨bytes, data⟩ :: chunkFrames a h ε t chunks

variable (ε a h) in
def Encodable (t : WriteHalf) : List ((Nat → UInt8) × Bytes) → Prop
  | [] => True
  | (random, data) :: chunks =>
    (t.appendEncryptedChunk (ε := ε) a h random data).snd.snd = .ok ()
      ∧ Encodable (t.appendEncryptedChunk (ε := ε) a h random data).fst chunks

variable (t : WriteHalf) (chunks : List ((Nat → UInt8) × Bytes))

theorem framed_eq
    : ((framer a h : Framer _ _ _ (StreamError ε)).framed t chunks).snd.flatten
        = Frame.wires (chunkFrames a h ε t chunks) := by
  induction chunks generalizing t with
  | nil => rfl
  | cons chunk chunks ih =>
    simp only [chunkFrames, Frame.wires, flatMap_cons]
    rw [← Frame.wires, ← ih]
    rfl

theorem contents_chunkFrames
    : Frame.contents (chunkFrames a h ε t chunks)
        = chunks.flatMap fun chunk => marks chunk.snd := by
  induction chunks generalizing t with
  | nil => rfl
  | cons chunk chunks ih =>
    simp only [chunkFrames, Frame.contents, flatMap_cons]
    rw [← Frame.contents, ih]

theorem map_content_chunkFrames
    : (chunkFrames a h ε t chunks).map Frame.content = chunks.map Prod.snd := by
  induction chunks generalizing t with
  | nil => rfl
  | cons chunk chunks ih =>
    simp only [chunkFrames, map_cons]
    rw [ih]

variable (ε a h) in
inductive Expects (s : ReadHalf) (t : WriteHalf) (chunks : List ((Nat → UInt8) × Bytes))
    : Prop where
  | size (hpending : s.readPending = none) (hbody : s.body = t.body)
  | data (random : Nat → UInt8) (data : Bytes) (rest : List ((Nat → UInt8) × Bytes))
      (hchunks : chunks = (random, data) :: rest) (paddingLen : Nat) (field : Bytes)
      (hpending : s.readPending
        = some (data.length + t.body.cipher.overhead + paddingLen, paddingLen))
      (hsized : Sized ε a h t.body data paddingLen field s.body)
      (hfield : field <+: s.readRawBuf)

variable (ε a h) in
def Synced (s : ReadHalf) (frames : List (Frame UInt8)) : Prop :=
  ∃ t chunks, frames = chunkFrames a h ε t chunks ∧ Encodable ε a h t chunks
    ∧ Expects ε a h s t chunks

section

variable (ha : a.Lawful) (s : ReadHalf) (t : WriteHalf) (random : Nat → UInt8) {data : Bytes}
  (rest : List ((Nat → UInt8) × Bytes))
  (hdata : (t.appendEncryptedChunk (ε := ε) a h random data).snd.snd = .ok ())

theorem chunkFrames_sized (hsized : Sized ε a h t.body data paddingLen field b')
    : chunkFrames a h ε t ((random, data) :: rest)
        = ⟨field ++ t.body.cipher.encryptAppend a (chunkNonce t.body.counter t.body.iv) data
            ++ (range paddingLen).map random, data⟩
          :: chunkFrames a h ε ⟨b'.count, t.chunks + 1, t.uses ++ t.body.usesOf t.chunks⟩ rest := by
  simp only [chunkFrames, hsized.append_eq t.chunks t.uses random]

include ha hdata

theorem readSize_expects (hexpects : Expects ε a h s t ((random, data) :: rest))
    (hfront : ∀ paddingLen field b', Sized ε a h t.body data paddingLen field b' →
      field <+: s.readRawBuf)
    : ∃ paddingLen field b', Sized ε a h t.body data paddingLen field b'
        ∧ s.readSize (ε := ε) a h = ({ s with body := b', readPending := none },
          some (.ok (data.length + t.body.cipher.overhead + paddingLen, paddingLen))) := by
  cases hexpects with
  | size hpending hbody =>
    rcases sized_of_ok hdata with ⟨paddingLen, field, b', hsized⟩
    rcases hfront _ _ _ hsized with ⟨more, hmore⟩
    refine ⟨paddingLen, field, b', hsized, ?_⟩
    rw [hsized.readSize_eq ha hbody hpending hmore.symm, hpending]
  | data random' data' rest' hchunks paddingLen field hpending hsized hfield =>
    cases hchunks
    refine ⟨paddingLen, field, s.body, hsized, ?_⟩
    unfold ReadHalf.readSize
    rw [hpending]

theorem tryDecryptChunk_waits (hexpects : Expects ε a h s t ((random, data) :: rest))
    (hraw : s.readRawBuf <+: Frame.wires (chunkFrames a h ε t ((random, data) :: rest)))
    (hshort : ∀ frame ∈ (chunkFrames a h ε t ((random, data) :: rest)).head?,
      s.readRawBuf.length < frame.wire.length)
    : ∃ s', s.tryDecryptChunk (ε := ε) a h = (s', none)
        ∧ Expects ε a h s' t ((random, data) :: rest) ∧ s'.readRawBuf = s.readRawBuf
        ∧ s'.decryptScratch = s.decryptScratch ∧ s'.readScratchPos = s.readScratchPos := by
  have hfront (paddingLen : Nat) (field : Bytes) (b' : Body)
      (hsized : Sized ε a h t.body data paddingLen field b')
      (hlong : field.length ≤ s.readRawBuf.length)
      : field <+: s.readRawBuf := by
    have hframes := chunkFrames_sized t random rest hsized
    apply prefix_of_prefix_length_le _ hraw hlong
    simp [hframes, Frame.wires]
  by_cases hsize : s.readPending = none ∧ s.readRawBuf.length < s.body.sizeFieldLen
  . refine ⟨s, ?_, hexpects, rfl, rfl, rfl⟩
    unfold ReadHalf.tryDecryptChunk ReadHalf.readSize
    simp only [hsize.left, if_pos hsize.right]
  . have hlong (paddingLen : Nat) (field : Bytes) (b' : Body)
        (hsized : Sized ε a h t.body data paddingLen field b')
        : field <+: s.readRawBuf := by
      cases hexpects with
      | size hpending hbody =>
        apply hfront _ _ _ hsized
        rw [hsized.length_field ha, hsized.alike.sizeFieldLen, ← hbody]
        by_contra hlt
        exact hsize ⟨hpending, by omega⟩
      | data random' data' rest' hchunks paddingLen' field' hpending hsized' hfield =>
        apply hfront _ _ _ hsized
        have hle := hfield.length_le
        rw [hsized'.length_field ha, hsized'.alike.sizeFieldLen] at hle
        rw [hsized.length_field ha, hsized.alike.sizeFieldLen]
        exact hle
    rcases readSize_expects ha s t random rest hdata hexpects hlong with
      ⟨paddingLen, field, b', hsized, hread⟩
    have hframes := chunkFrames_sized t random rest hsized
    have hlt := hshort _ (by rw [hframes]; rfl)
    simp only [length_append, length_map, length_range,
      Body.length_encryptAppend ha] at hlt
    unfold ReadHalf.tryDecryptChunk
    rw [hread]
    dsimp only
    rw [hsized.decryptBody_waits ha rfl (by dsimp only; omega)]
    refine ⟨_, rfl, ?_, rfl, rfl, rfl⟩
    exact .data random data rest rfl paddingLen field rfl hsized (hlong _ _ _ hsized)

variable (data) in
theorem tryDecryptChunk_decodes (hexpects : Expects ε a h s t ((random, data) :: rest))
    (hframes : frame :: frames = chunkFrames a h ε t ((random, data) :: rest))
    (hraw : s.readRawBuf = frame.wire ++ more)
    : let t' := (t.appendEncryptedChunk (ε := ε) a h random data).fst
      ∃ s', s.tryDecryptChunk (ε := ε) a h = (s', some (.ok ()))
        ∧ frames = chunkFrames a h ε t' rest ∧ Expects ε a h s' t' rest ∧ s'.readRawBuf = more
        ∧ s'.decryptScratch = data ∧ s'.readScratchPos = 0 := by
  have hfront (paddingLen : Nat) (field : Bytes) (b' : Body)
      (hsized : Sized ε a h t.body data paddingLen field b')
      : field <+: s.readRawBuf := by
    have hsame := chunkFrames_sized t random rest hsized
    rw [hsame] at hframes
    cases hframes
    rw [hraw, append_assoc, append_assoc]
    apply prefix_append
  rcases readSize_expects ha s t random rest hdata hexpects hfront with
    ⟨paddingLen, field, b', hsized, hread⟩
  have hsame := chunkFrames_sized t random rest hsized
  rw [hsame] at hframes
  cases hframes
  have hdecodes := hsized.decryptBody_decodes ha { s with body := b', readPending := none } rfl
    ((range paddingLen).map random) more (by simp) hraw
  unfold ReadHalf.tryDecryptChunk
  rw [hread, hsized.append_eq t.chunks t.uses random]
  dsimp only
  rw [hdecodes]
  exact ⟨_, rfl, rfl, .size rfl rfl, rfl, rfl, rfl⟩

end

theorem Synced.of_more (hs : Synced ε a h s frames) (hbody : s'.body = s.body)
    (hpending : s'.readPending = s.readPending) (hraw : s.readRawBuf <+: s'.readRawBuf)
    : Synced ε a h s' frames := by
  rcases hs with ⟨t, chunks, hframes, hchunks, hexpects⟩
  refine ⟨t, chunks, hframes, hchunks, ?_⟩
  cases hexpects with
  | size hnone hsame => exact .size (hpending.trans hnone) (hbody.trans hsame)
  | data random data rest hcons paddingLen field hsome hsized hfield =>
    rw [← hbody] at hsized
    exact .data random data rest hcons paddingLen field (hpending.trans hsome) hsized
      (hfield.trans hraw)

theorem tryDecryptChunk_nil {s : ReadHalf} (hpending : s.readPending = none)
    (hraw : s.readRawBuf = []) : s.tryDecryptChunk (ε := ε) a h = (s, none) := by
  have hpos : 0 < s.body.sizeFieldLen :=
    Nat.lt_of_lt_of_le (by decide) s.body.sizeFieldLen_bounds.left
  simp only [ReadHalf.tryDecryptChunk, ReadHalf.readSize, hpending, hraw, length_nil,
    if_pos hpos]

theorem follows (ha : a.Lawful)
    : (deframer a h : Deframer _ _ (StreamError ε)).Follows ReadHalf.readRawBuf (Synced ε a h) where
  consume s frames n hsynced := by
    refine ⟨hsynced.of_more rfl rfl prefix_rfl, rfl, ?_⟩
    simp [deframer]
  extend s frames segment hsynced :=
    ⟨hsynced.of_more rfl rfl (prefix_append _ _), rfl, rfl⟩
  waits s frames hsynced havail hraw hshort := by
    rcases hsynced with ⟨t, chunks, rfl, hchunks, hexpects⟩
    cases chunks with
    | nil =>
      cases hexpects with
      | size hpending hbody =>
        have hdecode := tryDecryptChunk_nil (ε := ε) (a := a) (h := h) hpending
          (prefix_nil.mp hraw)
        exact ⟨s, hdecode, ⟨t, [], rfl, hchunks, .size hpending hbody⟩, rfl, havail⟩
      | data random data rest hcons => cases hcons
    | cons chunk rest =>
      rcases tryDecryptChunk_waits ha s t chunk.fst rest hchunks.left hexpects hraw hshort with
        ⟨s', htry, hexpects', hraw', hscratch, hpos⟩
      refine ⟨s', htry, ⟨t, _, rfl, hchunks, hexpects'⟩, hraw', ?_⟩
      simp only [deframer, hscratch, hpos]
      exact havail
  decodes s frame frames more hsynced havail hraw := by
    rcases hsynced with ⟨t, chunks, hframes, hchunks, hexpects⟩
    cases chunks with
    | nil => cases hframes
    | cons chunk rest =>
      rcases tryDecryptChunk_decodes ha s t chunk.fst chunk.snd rest hchunks.left hexpects hframes
        hraw with ⟨s', htry, hrest, hexpects', hraw', hscratch, hpos⟩
      refine ⟨s', htry, ⟨_, rest, hrest, hchunks.right, hexpects'⟩, hraw', ?_⟩
      simp only [deframer, hscratch, hpos]
      have hcontent : frame.content = chunk.snd := by
        cases hframes
        rfl
      exact hcontent.symm

theorem framer_ok (t : WriteHalf) (random : Nat → UInt8) (chunk : Bytes)
    (hchunk : chunk.length ≤ (framer a h : Framer _ _ _ (StreamError ε)).limit)
    : ((framer a h : Framer _ _ _ (StreamError ε)).append t random chunk).snd.snd = .ok () := by
  rcases exists_sized (ε := ε) (a := a) (h := h) t.body hchunk with
    ⟨paddingLen, field, b', hsized⟩
  change (WriteHalf.appendEncryptedChunk (ε := ε) a h t random chunk).snd.snd = .ok ()
  rw [hsized.append_eq t.chunks t.uses random]

theorem encodable_of_length (hchunks : ∀ chunk ∈ chunks, chunk.snd.length ≤ maxChunkSize)
    : Encodable ε a h t chunks := by
  induction chunks generalizing t with
  | nil => trivial
  | cons chunk chunks ih =>
    rw [forall_mem_cons] at hchunks
    exact ⟨framer_ok t chunk.fst chunk.snd hchunks.left, ih _ hchunks.right⟩

theorem vmess_round_trip (a : Aead) (ha : a.Lawful) (h : Hashes)
    (key iv authLenKeyBase authLenIvBase senderKey senderIv : Vector UInt8 16)
    (receiverKey receiverIv : Vector UInt8 16)
    (security : Security) (options : UInt8) (w : Framer.Session WriteHalf (Nat → UInt8) UInt8)
    (hw : Reach (Framer.Session.step (framer (ε := ε) a h)) (fun s e => s.enabled e = true)
      (.new (VmessStream.newBidirWithAuthLenBase h senderKey senderIv key iv authLenKeyBase
        authLenIvBase security options).writer.core)
      w)
    (script : Script UInt8 (StreamError ε)) (hflowing : script.Flowing)
    (hscript : script.bytes <+: w.out.received) (caps : List Nat) (hcaps : ∀ cap ∈ caps, 0 < cap)
    : let reads := (deframer a h).run caps
        (VmessStream.newBidirWithAuthLenBase h key iv receiverKey receiverIv authLenKeyBase
          authLenIvBase security options).reader
        script
      reads.flatMap shown
          <+: w.shows ++ w.failed.toList.flatMap (fun chunk => marks chunk.snd)
        ∧ (∀ e, .ready (.error e) ∈ reads → .ready (.error e) ∈ script)
        ∧ (w.failed = none → w.out.queue = [] → script.bytes = w.out.received →
          w.shows.length + script.length ≤ caps.length → reads.flatMap shown = w.shows) := by
  rcases Framer.Session.framed_of_reach framer_ok (fun s e he => he) hw with
    ⟨chunks, hframed⟩
  have hall := Framer.Session.chunks_of_reach _ (fun chunk => chunk.length ≤ maxChunkSize) _
    (fun s r buf answers he => length_take_le _ buf) w hw
  have hchunks : ∀ chunk ∈ chunks, chunk.snd.length ≤ maxChunkSize := by
    intro chunk hchunk
    apply hall
    exact hframed.chunks_prefix.subset hchunk
  have hsynced : Synced ε a h
      (VmessStream.newBidirWithAuthLenBase h key iv receiverKey receiverIv authLenKeyBase
        authLenIvBase security options).reader
      (chunkFrames a h ε ⟨.new h key iv authLenKeyBase authLenIvBase security options, 0, []⟩
        chunks) :=
    ⟨_, chunks, rfl, encodable_of_length _ chunks hchunks, .size rfl rfl⟩
  rcases (follows ha).round_trip hframed (framed_eq _ _) hsynced rfl hflowing hscript hcaps with
    ⟨hfront, herrors, hwhole⟩
  have htodo (s : ReadHalf) (hscratch : s.decryptScratch = []) (t : WriteHalf)
      : (deframer (ε := ε) a h).todo s (chunkFrames a h ε t chunks)
        = chunks.flatMap fun chunk => marks chunk.snd := by
    unfold Deframer.todo
    rw [contents_chunkFrames]
    simp [deframer, hscratch]
  rw [htodo _ rfl] at hfront hwhole
  refine ⟨?_, herrors, ?_⟩
  . apply hfront.trans
    apply hframed.flatMap_prefix
  . intro hfailed
    rw [hframed.eq_accepted hfailed] at hwhole
    exact hwhole

def someKey : Vector UInt8 16 := Vector.replicate 16 0x42

def someIv : Vector UInt8 16 := Vector.replicate 16 0x24

-- What SHA-256, HMAC-SHA-256 and SHAKE-128 make of this key and this IV. MD5 is not used.
def someHashes : Hashes where
  md5 _ := Vector.replicate 16 0
  sha256 input :=
    if input = someKey.toList then
      #v[144, 13, 254, 183, 241, 181, 227, 68, 32, 158, 42, 188, 229, 108, 51, 61, 175, 230, 6, 251,
        59, 245, 159, 104, 171, 43, 14, 46, 248, 160, 102, 43]
    else
      #v[197, 239, 196, 116, 178, 202, 44, 14, 35, 207, 91, 72, 109, 41, 253, 117, 180, 42, 100, 78,
        127, 1, 49, 26, 233, 175, 56, 9, 36, 152, 243, 142]
  hmacSha256 _ msg :=
    if msg.length = 80 then
      #v[105, 127, 72, 241, 29, 101, 189, 98, 44, 203, 223, 65, 164, 136, 234, 207, 209, 78, 224,
        143, 52, 5, 176, 115, 157, 161, 176, 67, 40, 144, 113, 92]
    else
      #v[111, 112, 215, 43, 23, 112, 64, 205, 209, 165, 82, 82, 25, 81, 131, 225, 199, 14, 90, 163,
        139, 99, 64, 22, 145, 117, 67, 199, 101, 83, 123, 51]
  shake128 _ i := [228, 104, 220, 181, 91, 44, 166, 157].getD i 0

def aes128Gcm (key : Vector UInt8 16) : AeadKey :=
  ⟨.aes128Gcm, key.toList, length_aes128Key⟩

def someAuthLenKey : Vector UInt8 16 :=
  #v[111, 112, 215, 43, 23, 112, 64, 205, 209, 165, 82, 82, 25, 81, 131, 225]

-- What AES-128-GCM makes of three chunks, the second of which is empty.
def sealedChunks : List KnownSeal :=
  [⟨aes128Gcm someAuthLenKey, chunkNonce 0 someIv, [0, 42],
      [5, 117, 226, 232, 96, 156, 121, 117, 198, 99, 149, 162, 234, 32, 168, 54, 244, 87]⟩,
    ⟨aes128Gcm someKey, chunkNonce 0 someIv, [104, 105],
      [4, 171, 156, 2, 226, 55, 62, 74, 193, 152, 172, 20, 209, 103, 200, 243, 76, 253]⟩,
    ⟨aes128Gcm someAuthLenKey, chunkNonce 1 someIv, [0, 53],
      [241, 249, 55, 7, 147, 252, 182, 237, 35, 125, 1, 149, 251, 152, 27, 172, 65, 50]⟩,
    ⟨aes128Gcm someKey, chunkNonce 1 someIv, [],
      [201, 182, 35, 127, 168, 76, 162, 4, 43, 34, 251, 246, 91, 53, 64, 254]⟩,
    ⟨aes128Gcm someAuthLenKey, chunkNonce 2 someIv, [0, 45],
      [179, 91, 152, 93, 139, 123, 157, 44, 180, 180, 209, 2, 107, 6, 203, 57, 191, 79]⟩,
    ⟨aes128Gcm someKey, chunkNonce 2 someIv, [33],
      [173, 155, 42, 200, 242, 69, 127, 237, 6, 1, 170, 36, 59, 72, 223, 93, 148]⟩]

def threeWrites : List (Framer.Event (Nat → UInt8) UInt8 (StreamError Unit)) :=
  [.write UInt8.ofNat [104, 105] [.ready (.ok 30), .pending], .flush [.ready (.ok 100)] .pending,
    .write UInt8.ofNat [] [.ready (.ok 100)], .write UInt8.ofNat [33] [.ready (.ok 100)]]

theorem vmess_round_trip_threeWrites
    : let a := Aead.ofTable sealedChunks
      let stream := VmessStream.newBidirWithAuthLenBase someHashes someKey someIv someKey someIv
        someKey someIv .aes128Gcm 0x1c
      let w := threeWrites.foldl (Framer.Session.step (framer a someHashes))
        (.new stream.writer.core)
      let script : Script UInt8 (StreamError Unit) :=
        [.ready (.ok (w.out.received.take 30)), .pending, .ready (.ok (w.out.received.drop 30))]
      w.shows = [some 104, some 105, none, some 33]
        ∧ ((deframer a someHashes).run (replicate 7 8) stream.reader script).flatMap shown
          = w.shows := by
  refine ⟨by decide +kernel, ?_⟩
  apply (vmess_round_trip (Aead.ofTable sealedChunks)
    (Aead.lawful_ofTable sealedChunks (by decide +kernel)) someHashes someKey someIv someKey someIv
    someKey someIv someKey someIv .aes128Gcm 0x1c (threeWrites.foldl _ _)
    (Reach.foldl _ threeWrites .start (by decide +kernel)) _ (by decide +kernel)
    (by decide +kernel) (replicate 7 8) (by decide)).right.right
  . decide +kernel
  . decide +kernel
  . decide +kernel
  . decide +kernel

def emptyWrite : List (Framer.Event (Nat → UInt8) UInt8 (StreamError Unit)) :=
  [.write UInt8.ofNat [] [.ready (.ok 2)], .write UInt8.ofNat [97] [.ready (.ok 3)]]

theorem vmess_empty_write_ends_stream
    : let a := Aead.ofTable []
      let stream := VmessStream.newBidir someHashes someKey someIv someKey someIv .none 0
      let w := emptyWrite.foldl (Framer.Session.step (framer a someHashes))
        (.new stream.writer.core)
      let script : Script UInt8 (StreamError Unit) := [.ready (.ok w.out.received)]
      let reads := (deframer a someHashes).run [8, 8] stream.reader script
      Allowed (Framer.Session.step (framer a someHashes)) (fun s e => s.enabled e = true)
          (.new stream.writer.core) emptyWrite
        ∧ w.plain = [97]
        ∧ w.out.received = [0, 0, 0, 1, 97]
        ∧ reads = [.ready (.ok []), .ready (.ok [97])] := by
  decide +kernel

end Blackwire.Vmess
