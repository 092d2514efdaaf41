import Blackwire.Lib.Inbox
import Blackwire.Common.Aead
import Blackwire.Protocol.Ss2022.Inbound

/-!
This module contains the chunked stream of SS-2022, and proves that a reader with the key and the
first nonce of a writer follows the frames of the writer. The two halves of a stream share nothing,
so each of them is a state of its own.
-/

namespace Blackwire.Ss2022

open Bytes

abbrev Subkey := Vector UInt8 32

def aes256Gcm (subkey : Subkey) : AeadKey where
  algorithm := .aes256Gcm
  key := subkey.toList
  length := by simp [AeadAlgorithm.keyLen]

def maxChunkSize : Nat := 16 * 1024

structure ReadHalf where
  readCipher : AeadKey
  readCounter : Nat
  readBuf : Bytes
  readRaw : Bytes

structure WriteHalf where
  writeCipher : AeadKey
  writeCounter : Nat
  responseHeader : Option (Vector UInt8 43)

structure Ss2022Stream where
  reader : ReadHalf
  writer : Outbox WriteHalf UInt8

variable {ε : Type}

def ReadHalf.tryDecryptChunk (a : Aead) (s : ReadHalf)
    : ReadHalf × Option (Except (StreamError ε) Bytes) :=
  let src := s.readRaw
  if src.length < 18 then
    (s, none)
  else
    match a.openCombined s.readCipher (makeNonce s.readCounter) [] (src.take 18) with
    | .error _ => (s, some (.error (.invalidData "SS-2022: length field decryption failed")))
    | .ok len =>
      let dataLen := ofBigEndian len
      if dataLen = 0 then
        -- A chunk of length zero signals the end of the stream.
        ({ s with readCounter := s.readCounter + 1, readRaw := src.drop 18 }, some (.ok []))
      else
        let total := 18 + dataLen + 16
        if src.length < total then
          (s, none)
        else
          let s := { s with readCounter := s.readCounter + 1, readRaw := src.drop total }
          let dataCt := (src.drop 18).take (dataLen + 16)
          match a.openCombined s.readCipher (makeNonce s.readCounter) [] dataCt with
          | .error _ => (s, some (.error (.invalidData "SS-2022: data chunk decryption failed")))
          | .ok plain => ({ s with readCounter := s.readCounter + 1 }, some (.ok plain))

def WriteHalf.appendEncryptedChunk (a : Aead) (s : WriteHalf) (data : Bytes) : WriteHalf × Bytes :=
  match s.responseHeader with
  | some fixedHeader =>
    let fixedHeader := fixedHeader.toList.take 41 ++ toBigEndian 2 data.length
    ({ s with writeCounter := s.writeCounter + 2, responseHeader := none },
      a.sealCombined s.writeCipher (makeNonce s.writeCounter) [] fixedHeader
        ++ a.sealCombined s.writeCipher (makeNonce (s.writeCounter + 1)) [] data)
  | none =>
    ({ s with writeCounter := s.writeCounter + 2 },
      a.sealCombined s.writeCipher (makeNonce s.writeCounter) [] (toBigEndian 2 data.length)
        ++ a.sealCombined s.writeCipher (makeNonce (s.writeCounter + 1)) [] data)

def deframer (a : Aead) : Deframer ReadHalf UInt8 (StreamError ε) where
  avail s := s.readBuf
  consume s n := { s with readBuf := s.readBuf.drop n }
  extend s segment := { s with readRaw := s.readRaw ++ segment }
  decode s :=
    match s.tryDecryptChunk a with
    | (s, some (.ok plaintext)) => ({ s with readBuf := plaintext }, some (.ok ()))
    | (s, some (.error e)) => (s, some (.error e))
    | (s, none) => (s, none)

def framer (a : Aead) : Framer WriteHalf Unit UInt8 (StreamError ε) where
  limit := maxChunkSize
  zero := .writeZero "SS-2022: inner write returned 0"
  append s _ data :=
    let (s, bytes) := s.appendEncryptedChunk a data
    (s, bytes, .ok ())

namespace Ss2022Stream

def newBidir (readSubkey : Subkey) (readStartNonce : Nat) (writeSubkey : Subkey)
    (writeStartNonce : Nat) (initialRead : Bytes) (responseHeader : Option (Vector UInt8 43))
    : Ss2022Stream where
  reader := ⟨aes256Gcm readSubkey, readStartNonce, initialRead, []⟩
  writer := ⟨⟨aes256Gcm writeSubkey, writeStartNonce, responseHeader⟩, [], []⟩

def newWithNonce (subkey : Subkey) (startNonce : Nat) : Ss2022Stream :=
  newBidir subkey startNonce subkey startNonce [] none

def new (subkey : Subkey) : Ss2022Stream :=
  newWithNonce subkey 0

def pollRead (a : Aead) (s : Ss2022Stream) (cap : Nat) (script : Script UInt8 (StreamError ε))
    : Ss2022Stream × Poll (Except (StreamError ε) Bytes) :=
  let (reader, result, _) := (deframer a).pollRead cap s.reader script
  ({ s with reader := reader }, result)

def pollWrite (a : Aead) (s : Ss2022Stream) (buf : Bytes)
    (answers : List (Poll (Except (StreamError ε) Nat)))
    : Ss2022Stream × Poll (Except (StreamError ε) Nat) :=
  let (writer, result) := (framer a).pollWrite s.writer () buf answers
  ({ s with writer := writer }, result)

def pollFlush (a : Aead) (s : Ss2022Stream) (answers : List (Poll (Except (StreamError ε) Nat)))
    (inner : Poll (Except (StreamError ε) Unit))
    : Ss2022Stream × Poll (Except (StreamError ε) Unit) :=
  let (writer, result) := (framer a).pollFlush s.writer answers inner
  ({ s with writer := writer }, result)

-- What is left in `write_buf` is not looked at.
def pollShutdown (s : Ss2022Stream) (inner : Poll (Except (StreamError ε) Unit))
    : Ss2022Stream × Poll (Except (StreamError ε) Unit) :=
  (s, inner)

end Ss2022Stream

open List hiding Vector

section

variable (a : Aead) (key : AeadKey) (n : Nat) (chunk : Bytes)

def lengthPart : Bytes :=
  a.sealCombined key (makeNonce n) [] (toBigEndian 2 chunk.length)

def dataPart : Bytes :=
  a.sealCombined key (makeNonce (n + 1)) [] chunk

end

def chunkFrames (a : Aead) (key : AeadKey) (n : Nat) : List Bytes → List (Frame UInt8)
  | [] => []
  | chunk :: chunks =>
    ⟨lengthPart a key n chunk ++ dataPart a key n chunk, chunk⟩ :: chunkFrames a key (n + 2) chunks

variable {ε : Type} {a : Aead}

theorem framed_eq {n : Nat} {chunks : List (Unit × Bytes)}
    : ((framer a : Framer _ _ _ (StreamError ε)).framed ⟨key, n, none⟩ chunks).snd.flatten
        = Frame.wires (chunkFrames a key n (chunks.map Prod.snd)) := by
  induction chunks generalizing n with
  | nil => rfl
  | cons chunk chunks ih =>
    simp only [map_cons, chunkFrames, Frame.wires, flatMap_cons]
    rw [← Frame.wires, ← ih]
    rfl

theorem contents_chunkFrames (n : Nat) {chunks : List Bytes}
    (hchunks : ∀ chunk ∈ chunks, chunk ≠ [])
    : Frame.contents (chunkFrames a key n chunks) = chunks.flatten.map some := by
  induction chunks generalizing n with
  | nil => rfl
  | cons chunk chunks ih =>
    rw [forall_mem_cons] at hchunks
    simp only [chunkFrames, Frame.contents, flatMap_cons, flatten_cons, map_append]
    rw [marks_of_ne_nil hchunks.left, ← ih (n + 2) hchunks.right]
    rfl

structure Synced (a : Aead) (key : AeadKey) (start : Nat) (chunks : List Bytes) (s : ReadHalf)
    (frames : List (Frame UInt8)) : Prop where
  readCipher : s.readCipher = key
  frames : ∃ k ≤ chunks.length, s.readCounter = start + 2 * k
    ∧ frames = chunkFrames a key s.readCounter (chunks.drop k)

section

variable (ha : a.Lawful)

include ha

theorem length_lengthPart (key : AeadKey) (n : Nat) (chunk : Bytes)
    : (lengthPart a key n chunk).length = 18 := by
  unfold lengthPart
  rw [ha.length_seal, length_toBigEndian]
  rfl

theorem length_dataPart (key : AeadKey) (n : Nat) (chunk : Bytes)
    : (dataPart a key n chunk).length = chunk.length + 16 := by
  apply ha.length_seal

theorem open_lengthPart (hlength : chunk.length < 65536)
    : ∃ len, a.openCombined key (makeNonce n) [] (lengthPart a key n chunk) = .ok len
        ∧ ofBigEndian len = chunk.length := by
  refine ⟨toBigEndian 2 chunk.length, ?_, ?_⟩
  . apply ha.open_seal
  . rw [ofBigEndian_toBigEndian]
    apply Nat.mod_eq_of_lt
    exact hlength

section

variable {s : ReadHalf} {chunk : Bytes} (hkey : s.readCipher = key) (hne : chunk ≠ [])
  (hlength : chunk.length < 65536)
include hkey hne hlength

theorem tryDecryptChunk_waits {rest : Bytes}
    (hraw : s.readRaw
      <+: lengthPart a key s.readCounter chunk ++ dataPart a key s.readCounter chunk ++ rest)
    (hshort : s.readRaw.length < 18 + chunk.length + 16)
    : s.tryDecryptChunk (ε := ε) a = (s, none) := by
  unfold ReadHalf.tryDecryptChunk
  dsimp only
  split
  next => rfl
  next hlong =>
    have htake : s.readRaw.take 18 = lengthPart a key s.readCounter chunk := by
      rw [append_assoc] at hraw
      have hpart : lengthPart a key s.readCounter chunk <+: s.readRaw := by
        apply prefix_of_prefix_length_le (prefix_append _ _) hraw
        rw [length_lengthPart ha]
        omega
      rw [prefix_iff_eq_take, length_lengthPart ha] at hpart
      exact hpart.symm
    rcases open_lengthPart ha hlength with ⟨len, hopen, hlen⟩
    have hpos := length_pos_iff.mpr hne
    rw [htake, hkey, hopen]
    dsimp only
    rw [hlen, if_neg (by omega), if_pos hshort]

theorem tryDecryptChunk_decodes {more : Bytes}
    (hraw : s.readRaw
      = lengthPart a key s.readCounter chunk ++ dataPart a key s.readCounter chunk ++ more)
    : s.tryDecryptChunk (ε := ε) a
        = ({ s with readCounter := s.readCounter + 2, readRaw := more }, some (.ok chunk)) := by
  have hlengthPart := length_lengthPart ha key s.readCounter chunk
  have hdataPart := length_dataPart ha key s.readCounter chunk
  have hlen : s.readRaw.length = 18 + (chunk.length + 16) + more.length := by
    rw [hraw]
    simp only [length_append]
    omega
  have htake : s.readRaw.take 18 = lengthPart a key s.readCounter chunk := by
    rw [hraw, append_assoc, ← hlengthPart, take_left]
  have hdata : (s.readRaw.drop 18).take (chunk.length + 16)
      = dataPart a key s.readCounter chunk := by
    rw [hraw, append_assoc, ← hlengthPart, drop_left, ← hdataPart, take_left]
  have hdrop : s.readRaw.drop (18 + chunk.length + 16) = more := by
    rw [hraw]
    apply drop_left'
    rw [length_append]
    omega
  have hopenData : a.openCombined key (makeNonce (s.readCounter + 1)) []
      (dataPart a key s.readCounter chunk) = .ok chunk := by
    apply ha.open_seal
  rcases open_lengthPart ha hlength with ⟨len, hopen, hvalue⟩
  have hpos := length_pos_iff.mpr hne
  unfold ReadHalf.tryDecryptChunk
  rw [if_neg (by omega), htake, hkey, hopen]
  dsimp only
  rw [hvalue, if_neg (by omega), if_neg (by omega), hdata, hdrop, hopenData]

end

theorem follows {key : AeadKey} {start : Nat} {chunks : List Bytes}
    (hchunks : ∀ chunk ∈ chunks, chunk ≠ [] ∧ chunk.length < 65536)
    : (deframer a : Deframer _ _ (StreamError ε)).Follows ReadHalf.readRaw
        (Synced a key start chunks) where
  consume s frames n h := ⟨⟨h.readCipher, h.frames⟩, rfl, rfl⟩
  extend s frames segment h := ⟨⟨h.readCipher, h.frames⟩, rfl, rfl⟩
  waits s frames h havail hraw hshort := by
    have hwaits : s.tryDecryptChunk (ε := ε) a = (s, none) := by
      rcases h.frames with ⟨k, _, _, rfl⟩
      cases hrest : chunks.drop k with
      | nil =>
        rw [hrest] at hraw
        have hnil : s.readRaw = [] := prefix_nil.mp hraw
        unfold ReadHalf.tryDecryptChunk
        simp [hnil]
      | cons chunk rest =>
        rw [hrest] at hraw hshort
        rcases hchunks chunk (mem_of_mem_drop (hrest ▸ mem_cons_self)) with ⟨hne, hlength⟩
        have hlt := hshort _ rfl
        rw [length_append, length_lengthPart ha, length_dataPart ha] at hlt
        apply tryDecryptChunk_waits ha h.readCipher hne hlength
        . exact hraw
        . omega
    refine ⟨s, ?_, h, rfl, havail⟩
    simp only [deframer, hwaits]
  decodes s frame frames more h havail hraw := by
    rcases h.frames with ⟨k, hk, hcounter, hframes⟩
    cases hrest : chunks.drop k with
    | nil =>
      rw [hrest] at hframes
      cases hframes
    | cons chunk rest =>
      rw [hrest] at hframes
      cases hframes
      rcases hchunks chunk (mem_of_mem_drop (hrest ▸ mem_cons_self)) with ⟨hne, hlength⟩
      have hdecodes := tryDecryptChunk_decodes ha (ε := ε) h.readCipher hne hlength hraw
      have hlt : k < chunks.length := by
        rw [← Nat.not_le, ← drop_eq_nil_iff, hrest]
        simp
      refine ⟨{ s with readCounter := s.readCounter + 2, readBuf := chunk, readRaw := more }, ?_,
        ⟨h.readCipher, k + 1, hlt, ?_, ?_⟩, rfl, rfl⟩
      . simp only [deframer, hdecodes]
      . dsimp only
        omega
      . rw [← drop_drop, hrest]
        rfl

end

theorem length_take_limit {buf : Bytes}
    : (buf.take (framer a : Framer _ _ _ (StreamError ε)).limit).length < 65536 := by
  have hlimit : (framer a : Framer _ _ _ (StreamError ε)).limit = 16384 := rfl
  rw [hlimit, length_take]
  omega

theorem chunk_of_write {buf : Bytes} {answers : List (Poll (Except (StreamError ε) Nat))}
    (h : (Framer.Event.write () buf answers).nonEmpty = true)
    : let chunk := buf.take (framer a : Framer _ _ _ (StreamError ε)).limit
      chunk ≠ [] ∧ chunk.length < 65536 := by
  have hbuf : buf ≠ [] := by simpa [Framer.Event.nonEmpty] using h
  refine ⟨?_, length_take_limit⟩
  intro hnil
  rcases take_eq_nil_iff.mp hnil with hlimit | hempty
  . exact absurd hlimit (Nat.succ_ne_zero _)
  . exact hbuf hempty

theorem framer_ok (core : WriteHalf) (r : Unit) (chunk : Bytes)
    (_ : chunk.length ≤ (framer a : Framer _ _ _ (StreamError ε)).limit)
    : ((framer a : Framer _ _ _ (StreamError ε)).append core r chunk).snd.snd = .ok () := by
  rfl

theorem ss2022_round_trip (a : Aead) (ha : a.Lawful) (subkey : Subkey) (startNonce : Nat)
    (senderKey : Subkey) (senderNonce : Nat) (senderRead : Bytes) (receiverKey : Subkey)
    (receiverNonce : Nat) (initialRead : Bytes) (responseHeader : Option (Vector UInt8 43))
    (w : Framer.Session WriteHalf Unit UInt8)
    (hw : Machine.Reach (Framer.Session.step (framer (ε := ε) a))
      (fun s e => s.enabled e = true ∧ e.nonEmpty = true)
      (.new (Ss2022Stream.newBidir senderKey senderNonce subkey startNonce senderRead
        none).writer.core)
      w)
    (script : Script UInt8 (StreamError ε)) (hflowing : script.Flowing)
    (hscript : script.bytes <+: w.out.received) (caps : List Nat) (hcaps : ∀ cap ∈ caps, 0 < cap)
    : let reads := (deframer a).run caps
        (Ss2022Stream.newBidir subkey startNonce receiverKey receiverNonce initialRead
          responseHeader).reader
        script
      reads.flatMap shown <+: (initialRead ++ (w.plain ++ w.lost)).map some
        ∧ (∀ e, .ready (.error e) ∈ reads → .ready (.error e) ∈ script)
        ∧ (w.failed = none → w.out.queue = [] → script.bytes = w.out.received →
          (initialRead ++ w.plain).length + script.length ≤ caps.length →
            reads.flatMap shown = (initialRead ++ w.plain).map some) := by
  rcases Framer.Session.framed_of_reach framer_ok (fun s e he => he.left) hw with
    ⟨chunks, hframed⟩
  have hall := Framer.Session.chunks_of_reach _ (fun chunk => chunk ≠ [] ∧ chunk.length < 65536) _
    (fun s r buf answers he => chunk_of_write he.right) w hw
  have hchunks : ∀ chunk ∈ chunks.map Prod.snd, chunk ≠ [] ∧ chunk.length < 65536 := by
    rw [forall_mem_map]
    intro chunk hchunk
    apply hall
    exact hframed.chunks_prefix.subset hchunk
  have htodo : (deframer (ε := ε) a).todo ⟨aes256Gcm subkey, startNonce, initialRead, []⟩
      (chunkFrames a (aes256Gcm subkey) startNonce (chunks.map Prod.snd))
        = (initialRead ++ chunks.flatMap Prod.snd).map some := by
    unfold Deframer.todo
    rw [contents_chunkFrames _ (fun chunk hchunk => (hchunks chunk hchunk).left),
      map_append, flatMap_def]
    rfl
  rcases (follows ha hchunks).round_trip hframed
    framed_eq (s := ⟨aes256Gcm subkey, startNonce, initialRead, []⟩)
    ⟨rfl, 0, Nat.zero_le _, rfl, rfl⟩ rfl hflowing hscript hcaps with
    ⟨hfront, herrors, hwhole⟩
  rw [htodo] at hfront hwhole
  refine ⟨?_, herrors, ?_⟩
  . apply hfront.trans
    apply List.IsPrefix.map
    exact (prefix_append_right_inj _).mpr hframed.flatMap_prefix
  . intro hfailed hqueue hdelivered hlong
    rw [hframed.eq_accepted hfailed] at hwhole
    apply hwhole hqueue hdelivered
    rw [length_map]
    exact hlong

def sevens : Subkey := Vector.replicate 32 7

-- What AES-256-GCM makes of two chunks under a key of sevens.
def sealedHello : List KnownSeal :=
  [⟨aes256Gcm sevens, makeNonce 2, [0, 2],
      [57, 177, 80, 138, 216, 52, 13, 55, 51, 84, 4, 90, 192, 217, 102, 95, 188, 62]⟩,
    ⟨aes256Gcm sevens, makeNonce 3, [104, 105],
      [228, 212, 51, 147, 248, 223, 193, 17, 100, 136, 47, 145, 244, 244, 70, 185, 57, 90]⟩,
    ⟨aes256Gcm sevens, makeNonce 4, [0, 1],
      [81, 188, 16, 219, 113, 66, 156, 97, 250, 187, 197, 137, 173, 125, 103, 0, 255, 154]⟩,
    ⟨aes256Gcm sevens, makeNonce 5, [33],
      [47, 82, 118, 237, 95, 167, 159, 131, 160, 210, 62, 177, 172, 184, 131, 0, 238]⟩]

def hello : List (Framer.Event Unit UInt8 (StreamError Unit)) :=
  [.write () [104, 105] [.ready (.ok 10), .pending], .write () [33] [.ready (.ok 20)],
    .write () [33] [.ready (.ok 6), .ready (.ok 1)], .flush [.ready (.ok 34)] (.ready (.ok ()))]

theorem ss2022_round_trip_hello
    : let a := Aead.ofTable sealedHello
      let w := hello.foldl (Framer.Session.step (framer a)) (.new ⟨aes256Gcm sevens, 2, none⟩)
      let script : Script UInt8 (StreamError Unit) :=
        [.ready (.ok (w.out.received.take 7)), .pending, .ready (.ok (w.out.received.drop 7))]
      w.plain = [104, 105, 33]
        ∧ ((deframer a).run [1, 1, 1, 1, 1, 1] ⟨aes256Gcm sevens, 2, [], []⟩ script).flatMap shown
          = [104, 105, 33].map some := by
  refine ⟨by decide +kernel, ?_⟩
  apply (ss2022_round_trip (Aead.ofTable sealedHello)
    (Aead.lawful_ofTable sealedHello (by decide +kernel)) sevens 2 sevens 2 [] sevens 2 [] none
    (hello.foldl _ _) (Machine.Reach.foldl _ hello .start (by decide +kernel)) _
    (by decide +kernel) (by decide +kernel) [1, 1, 1, 1, 1, 1] (by decide)).right.right
  . rfl
  . decide +kernel
  . decide +kernel
  . decide +kernel

end Blackwire.Ss2022
