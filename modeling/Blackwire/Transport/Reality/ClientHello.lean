import Blackwire.Common.Reading
import Blackwire.Lib.Outbox
import Blackwire.Lib.Tlv
import Blackwire.Transport.Reality.Mirror
import Blackwire.Lib.Fallible
import Blackwire.Lib.Poll
import Blackwire.Tls.ClientHello

/-!
This module contains how the REALITY server reads a ClientHello off a stream, the parser for the
fields of it that REALITY uses, and the way of a ClientHello from the builder to these fields.
-/

namespace Blackwire.Reality

open Bytes Reading

-- Every iteration takes at least one byte of the record, so its length is enough fuel.
def readRecordChunks (fuel remaining : Nat) (h : HelloBuffer) : Reading HelloBuffer :=
  match fuel with
  | 0 => return h
  | fuel + 1 =>
    if remaining ≠ 0 then do
      let take := min remaining readChunkSize
      let chunk ← readExact take
      let h ← Reading.ofExcept (h.addChunk chunk)
      readRecordChunks fuel (remaining - take) h
    else
      return h

def readHelloRecords (fuel : Nat) (h : HelloBuffer) : Reading Bytes :=
  match fuel with
  | 0 =>
    let text := "ClientHello exceeds " ++ toString maxClientHelloSize ++ " bytes"
    Reading.ofExcept (.error (.protocol text))
  | fuel + 1 => do
    let header ← readExact 5
    let recordLen ← Reading.ofExcept (checkHelloHeader header)
    let h ← readRecordChunks recordLen recordLen h
    match ← Reading.ofExcept h.endRecord with
    | some message => return message
    | none => readHelloRecords fuel h

-- `read_client_hello_message` without a cover connection to mirror to.
def readClientHelloMessage : Reading Bytes :=
  readHelloRecords (maxClientHelloSize + 1) .empty

def encodeHandshakeRecords (handshake : Bytes) : Bytes :=
  (Framer.cuts (16 * 1024) handshake).flatMap fun chunk =>
    [0x16, 0x03, 0x03] ++ toBigEndian 2 chunk.length ++ chunk

structure ClientHelloFields where
  random : Vector UInt8 32
  sessionId : Vector UInt8 32
  x25519KeyShare : Vector UInt8 32
  sni : String

def clientHelloSessionIdLenOffset : Nat := 38

def groupX25519 : Nat := 29
def groupX25519Mlkem768 : Nat := 0x11ec

variable (body : Bytes)

def skipCipherSuites (pos : Nat) : Except ProxyError Nat :=
  if pos + 2 > body.length then
    .error (.protocol "truncated at cipher_suites_len")
  else
    let pos := pos + (2 + u16At body pos)
    if pos > body.length then
      .error (.protocol "truncated cipher_suites")
    else
      .ok pos

def skipCompressionMethods (pos : Nat) : Except ProxyError Nat :=
  if pos ≥ body.length then
    .error (.protocol "truncated at compression_methods_len")
  else
    let pos := pos + (1 + byteAt body pos)
    if pos > body.length then
      .error (.protocol "truncated compression_methods")
    else
      .ok pos

def parseSni (extData : Bytes) : String :=
  if extData.length < 5 then
    ""
  else
    let nameLen := u16At extData 3
    if extData.length < 5 + nameLen then
      ""
    else
      fromUtf8Lossy ((extData.drop 5).take nameLen)

def collectKey (keys : Option (Vector UInt8 32) × Option (Vector UInt8 32)) (e : Tlv.Entry)
    : Option (Vector UInt8 32) × Option (Vector UInt8 32) :=
  let keyLen := e.content.length
  if e.tag = groupX25519 ∧ keyLen = 32 then
    (some (toVector 32 e.content), keys.snd)
  else if e.tag = groupX25519Mlkem768 ∧ keyLen ≥ 32 then
    (keys.fst, some (toVector 32 (e.content.drop (keyLen - 32))))
  else
    keys

def collectX25519AuthKeys (extData : Bytes) : List (Vector UInt8 32) :=
  if extData.length < 2 then
    []
  else
    let stop := min (2 + u16At extData 0) extData.length
    -- A share that runs past the data ends the loop, and what was found before it stays.
    let keys := (Tlv.walk extData stop collectKey extData.length 2 (none, none)).fst
    match keys with
    | (standaloneX25519, none) => standaloneX25519.toList
    | (standaloneX25519, some k) =>
      if standaloneX25519 ≠ some k then
        standaloneX25519.toList ++ [k]
      else
        standaloneX25519.toList

def firstX25519KeyShare (extData : Bytes) : Option (Vector UInt8 32) :=
  (collectX25519AuthKeys extData).head?

def readExtension (found : Option (Vector UInt8 32) × String) (e : Tlv.Entry)
    : Option (Vector UInt8 32) × String :=
  if e.tag = 0x0000 then
    (found.fst, parseSni e.content)
  else if e.tag = 0x0033 then
    (firstX25519KeyShare e.content, found.snd)
  else
    found

def parseClientHelloImpl : Except ProxyError ClientHelloFields :=
  if body.length < 71 then
    .error (.protocol ("ClientHello body too short: " ++ toString body.length ++ " bytes"))
  else if byteAt body 0 ≠ 0x01 then
    .error (.protocol ("expected ClientHello (0x01), got " ++ hexPadded 2 (byteAt body 0)))
  else
    let random := toVector 32 ((body.drop 6).take 32)
    let sidLen := byteAt body 38
    if sidLen ≠ 32 then
      .error (.protocol ("session_id_len must be 32, got " ++ toString sidLen))
    else do
      let sessionId := toVector 32 ((body.drop 39).take 32)
      let pos ← skipCipherSuites body 71
      let pos ← skipCompressionMethods body pos
      if pos + 2 > body.length then
        .error (.protocol "truncated at extensions_len")
      else
        match Tlv.walk body body.length readExtension body.length (pos + 2) (none, "") with
        | (_, true) => .error (.protocol "truncated extension data")
        | ((none, _), false) => .error (.protocol "no x25519 key share found in ClientHello")
        | ((some x25519KeyShare, sni), false) => return ⟨random, sessionId, x25519KeyShare, sni⟩

def parseClientHello : Except String ClientHelloFields :=
  (parseClientHelloImpl body).mapError ProxyError.text

def keyShareExtensionData : Option Bytes :=
  if body.length < clientHelloSessionIdLenOffset + 1 ∨ byteAt body 0 ≠ 0x01 then
    none
  else
    let pos := clientHelloSessionIdLenOffset + 1 + byteAt body clientHelloSessionIdLenOffset
    if pos + 2 > body.length then
      none
    else
      let pos := pos + (2 + u16At body pos)
      if pos ≥ body.length then
        none
      else
        let pos := pos + (1 + byteAt body pos)
        if pos + 2 > body.length then
          none
        else
          let extTotal := u16At body pos
          let pos := pos + 2
          let extEnd := min (pos + extTotal) body.length
          Tlv.find body extEnd 0x0033 body.length pos

def realityAuthPeerPublicKeys : List (Vector UInt8 32) :=
  match keyShareExtensionData body with
  | none => []
  | some extData => collectX25519AuthKeys extData

open Tls Tls.ClientHelloBuilder Source Fallible

open List hiding Vector

theorem greaseU16_ne (idx : Fin 16) : greaseU16 idx ≠ 0x0000 ∧ greaseU16 idx ≠ 0x0033 := by
  revert idx
  decide

theorem parseSni_extServerName {sni : String} (hsni : (ofString sni).length ≤ 65530)
    : parseSni (extServerName sni) = sni := by
  have hlen := u16At_append (toBigEndian 2 (1 + 2 + (ofString sni).length) ++ [0x00])
    (ofString sni) (ofString sni).length
  rw [length_append, length_toBigEndian, length_singleton,
    Nat.mod_eq_of_lt (by omega), ← append_assoc] at hlen
  have hname : (extServerName sni).drop 5 = ofString sni := by
    simp [extServerName, toBigEndian, range_succ]
  have hlen' : u16At (extServerName sni) 3 = (ofString sni).length := hlen
  have hlength := length_extServerName sni
  unfold parseSni
  dsimp only
  rw [hlen', hname, take_length, if_neg (by omega), if_neg (by omega), fromUtf8Lossy_ofString]

section

variable (sni : String) (random x25519Pub : Vector UInt8 32) (secp256r1Pub : Vector UInt8 65)
  (draws : Draws) (sessionId : Vector UInt8 32)

theorem collectX25519AuthKeys_extKeyShare
    : collectX25519AuthKeys
        (extKeyShare (greaseU16 draws.greaseCipher) x25519Pub (some secp256r1Pub.toList))
        = [x25519Pub] := by
  rw [extKeyShare_eq]
  generalize hdata : toBigEndian 2 110 ++ (shares x25519Pub secp256r1Pub draws).flatMap Tlv.encode
    = data
  have hlength : data.length = 112 := by
    rw [← hdata, length_append, length_toBigEndian, length_shares]
  have htotal : u16At data 0 = 110 := by
    rw [← hdata]
    exact u16At_append [] _ 110
  have hwalk := Tlv.walk_encode (toBigEndian 2 110) (shares x25519Pub secp256r1Pub draws)
    (sized_shares x25519Pub secp256r1Pub draws) 112 (by simp [shares]) collectKey (none, none)
  rw [hdata, hlength, length_toBigEndian] at hwalk
  have hkeys : (shares x25519Pub secp256r1Pub draws).foldl collectKey (none, none)
      = (some x25519Pub, none) := by
    simp [shares, collectKey, groupX25519, groupX25519Mlkem768, toVector_toList]
  unfold collectX25519AuthKeys
  dsimp only
  rw [hlength, htotal, if_neg (by omega), Nat.min_self, hwalk, hkeys]
  rfl

theorem foldl_readExtension (hsni : (ofString sni).length ≤ 65530)
    : (entries sni x25519Pub secp256r1Pub draws).foldl readExtension (none, "")
        = (some x25519Pub, sni) := by
  have hgrease := greaseU16_ne draws.greaseExt
  simp [entries_eq, readExtension, firstX25519KeyShare, collectX25519AuthKeys_extKeyShare,
    parseSni_extServerName hsni, hgrease]

theorem find_keyShare
    : ((entries sni x25519Pub secp256r1Pub draws).find? fun e => e.tag = 0x0033).map
        Tlv.Entry.content
        = some (extKeyShare (greaseU16 draws.greaseCipher) x25519Pub
          (some secp256r1Pub.toList)) := by
  simp [entries_eq]

structure Layout (body : Bytes) : Prop where
  hsType : byteAt body 0 = 0x01
  random : toVector 32 ((body.drop 6).take 32) = random
  sidLen : byteAt body 38 = 32
  sessionId : toVector 32 ((body.drop 39).take 32) = sessionId
  suitesLen : u16At body 71 = 32
  compLen : byteAt body 105 = 1
  extTotal : u16At body 107 = (248 + (ofString sni).length) % 65536
  extensions : ∃ front, front.length = 109
    ∧ body = front ++ (entries sni x25519Pub secp256r1Pub draws).flatMap Tlv.encode

theorem layout_handshake
    : Layout sni random x25519Pub secp256r1Pub draws sessionId
        (handshake sni random x25519Pub secp256r1Pub draws sessionId) := by
  rw [handshake]
  generalize hexts : (entries sni x25519Pub secp256r1Pub draws).flatMap Tlv.encode = exts
  constructor
  case hsType => rfl
  case random =>
    apply toVector_of_eq (helloHeader sni)
      ([0x20] ++ (sessionId.toList ++ (helloMiddle sni draws ++ exts)))
    . apply length_helloHeader
    . simp only [helloStart, append_assoc]
  case sidLen =>
    apply byteAt_of_eq (helloHeader sni ++ random.toList)
      (sessionId.toList ++ (helloMiddle sni draws ++ exts)) _ 0x20
    . simp [helloStart]
    . simp [length_helloHeader]
  case sessionId =>
    apply toVector_of_eq (helloStart sni random) (helloMiddle sni draws ++ exts)
    . apply length_helloStart
    . rfl
  case suitesLen =>
    apply u16At_of_eq (helloStart sni random ++ sessionId.toList)
      (suites draws ++ ([0x01, 0x00] ++ (toBigEndian 2 (248 + (ofString sni).length) ++ exts)))
      _ 32
    . simp only [helloMiddle, append_assoc]
    . simp [length_helloStart]
  case compLen =>
    apply byteAt_of_eq
      (helloStart sni random ++ (sessionId.toList ++ (toBigEndian 2 32 ++ suites draws)))
      (0x00 :: (toBigEndian 2 (248 + (ofString sni).length) ++ exts)) _ 0x01
    . simp [helloMiddle]
    . simp [length_helloStart, length_suites]
  case extTotal =>
    apply u16At_of_eq (helloStart sni random
      ++ (sessionId.toList ++ (toBigEndian 2 32 ++ (suites draws ++ [0x01, 0x00])))) exts
    . simp [length_helloStart, length_suites]
    . simp only [helloMiddle, append_assoc]
  case extensions =>
    refine ⟨helloStart sni random ++ (sessionId.toList ++ helloMiddle sni draws), ?_, ?_⟩
    . simp only [length_append, length_helloStart, length_helloMiddle, Vector.length_toList]
    . simp only [hexts, append_assoc]

theorem parseClientHello_handshake (hsni : (ofString sni).length ≤ 65530)
    : parseClientHello (handshake sni random x25519Pub secp256r1Pub draws sessionId)
        = .ok ⟨random, sessionId, x25519Pub, sni⟩ := by
  have hlength := length_handshake sni random x25519Pub secp256r1Pub draws sessionId
  rcases layout_handshake sni random x25519Pub secp256r1Pub draws sessionId with
    ⟨htype, hrandom, hsidLen, hsession, hsuites, hcomp, _, front, hfront, hbody⟩
  generalize handshake sni random x25519Pub secp256r1Pub draws sessionId = body at *
  have hcount : (entries sni x25519Pub secp256r1Pub draws).length < body.length := by
    rw [count_entries]
    omega
  have hwalk := Tlv.walk_encode front (entries sni x25519Pub secp256r1Pub draws)
    (sized_entries sni x25519Pub secp256r1Pub draws hsni) body.length hcount readExtension
    (none, "")
  rw [← hbody, hfront, foldl_readExtension sni x25519Pub secp256r1Pub draws hsni] at hwalk
  have hskip : skipCipherSuites body 71 = .ok 105 := by
    unfold skipCipherSuites
    rw [hsuites, if_neg (by omega), if_neg (by omega)]
  have hskip' : skipCompressionMethods body 105 = .ok 107 := by
    unfold skipCompressionMethods
    rw [hcomp, if_neg (by omega), if_neg (by omega)]
  unfold parseClientHello
  rw [mapError_eq_ok]
  unfold parseClientHelloImpl
  rw [if_neg (by omega), if_neg (by omega), if_neg (by omega), hrandom, hsession, hskip,
    bind_eq_ok]
  refine ⟨105, rfl, ?_⟩
  rw [hskip', bind_eq_ok]
  refine ⟨107, rfl, ?_⟩
  rw [if_neg (by omega), hwalk]
  rfl

theorem keyShareExtensionData_handshake (hsni : (ofString sni).length ≤ 65287)
    : keyShareExtensionData (handshake sni random x25519Pub secp256r1Pub draws sessionId)
        = some (extKeyShare (greaseU16 draws.greaseCipher) x25519Pub
          (some secp256r1Pub.toList)) := by
  have hlength := length_handshake sni random x25519Pub secp256r1Pub draws sessionId
  rcases layout_handshake sni random x25519Pub secp256r1Pub draws sessionId with
    ⟨htype, _, hsidLen, _, hsuites, hcomp, htotal, front, hfront, hbody⟩
  generalize handshake sni random x25519Pub secp256r1Pub draws sessionId = body at *
  have hcount : (entries sni x25519Pub secp256r1Pub draws).length < body.length := by
    rw [count_entries]
    omega
  have hfind := Tlv.find_encode front (entries sni x25519Pub secp256r1Pub draws)
    (sized_entries sni x25519Pub secp256r1Pub draws (by omega)) body.length hcount 0x0033
  rw [← hbody, hfront, find_keyShare] at hfind
  rw [Nat.mod_eq_of_lt (by omega)] at htotal
  have hend : min (109 + (248 + (ofString sni).length)) body.length = body.length := by
    omega
  unfold keyShareExtensionData clientHelloSessionIdLenOffset
  simp only [hsidLen, hsuites, hcomp, htotal, hend, hfind]
  rw [if_neg (by omega), if_neg (by omega), if_neg (by omega), if_neg (by omega)]

theorem realityAuthPeerPublicKeys_handshake (hsni : (ofString sni).length ≤ 65287)
    : realityAuthPeerPublicKeys (handshake sni random x25519Pub secp256r1Pub draws sessionId)
        = [x25519Pub] := by
  unfold realityAuthPeerPublicKeys
  rw [keyShareExtensionData_handshake sni random x25519Pub secp256r1Pub draws sessionId hsni]
  apply collectX25519AuthKeys_extKeyShare

end

section

variable (fuel : Nat) (h h' : HelloBuffer) (chunk : Bytes) (s : Source UInt8 IoError)
  (message : Bytes)

theorem reads_recordChunks_step (hend : HelloBuffer) (chunk rest : Bytes)
    (hpos : chunk ≠ []) (hsize : chunk.length = min (chunk ++ rest).length readChunkSize)
    (hadd : h.addChunk chunk = .ok h')
    (hrest : Reads (readRecordChunks fuel rest.length h') rest hend)
    : Reads (readRecordChunks (fuel + 1) (chunk ++ rest).length h) (chunk ++ rest) hend := by
  have hlength : (chunk ++ rest).length - chunk.length = rest.length := by
    rw [length_append]
    omega
  have hne : (chunk ++ rest).length ≠ 0 := by
    simp [hpos]
  unfold readRecordChunks
  dsimp only
  rw [if_pos hne, ← hsize, hlength]
  apply Reads.of_bind (reads_exact rfl)
  apply reads_ofExcept_bind hadd
  exact hrest

theorem take_readChunkSize (data : Bytes) (hdata : data ≠ [])
    : data.take readChunkSize ≠ []
      ∧ (data.take readChunkSize).length
        = min (data.take readChunkSize ++ data.drop readChunkSize).length readChunkSize := by
  constructor
  . simp [hdata, readChunkSize]
  . rw [take_append_drop, length_take, Nat.min_comm]

structure IsHello (message : Bytes) : Prop where
  hsType : message.head? = some hsClientHello
  length : ofBigEndian ((message.drop 1).take 3) + 4 = message.length

/--
The buffer when the bytes of `front` have come, of the message that is sent.
-/
def HelloBuffer.holding (message front : Bytes) : HelloBuffer :=
  ⟨front, if 4 ≤ front.length then some message.length else none⟩

section

variable {fuel : Nat} {message : Bytes} (hhello : IsHello message)
  (hlength : message.length ≤ maxClientHelloSize) (hmessage : front ++ data ++ rest = message)

include hhello hlength hmessage

theorem addChunk_holding
    : (HelloBuffer.holding message front).addChunk data
        = .ok (.holding message (front ++ data)) := by
  have hle := congrArg List.length hmessage
  simp only [length_append] at hle
  unfold HelloBuffer.addChunk HelloBuffer.learnLength HelloBuffer.holding
  dsimp only
  rw [if_neg (by omega)]
  by_cases hknown : 4 ≤ front.length
  . rw [if_pos hknown, if_neg (by simp), if_pos (by rw [length_append]; omega)]
  rw [if_neg hknown]
  generalize front ++ data = taken at *
  by_cases hnow : 4 ≤ taken.length
  . have hhead : taken.head? = some hsClientHello := by
      cases taken with
      | nil => cases hnow
      | cons byte taken =>
        rw [← hhello.hsType, ← hmessage]
        rfl
    have htotal : ofBigEndian ((taken.drop 1).take 3) + 4 = message.length := by
      rw [← hhello.length, ← hmessage, drop_append_of_le_length (by omega),
        take_append_of_le_length (by rw [length_drop]; omega)]
    rw [if_pos ⟨rfl, hnow⟩, if_neg (fun h => h hhead), htotal, if_neg (by omega), if_pos hnow]
  . rw [if_neg (fun h => hnow h.right), if_neg hnow]

theorem reads_recordChunks (hfuel : data.length ≤ fuel)
    : Reads (readRecordChunks fuel data.length (.holding message front)) data
        (.holding message (front ++ data)) := by
  induction fuel generalizing front data with
  | zero =>
    rw [eq_nil_of_length_eq_zero (Nat.le_zero.mp hfuel), append_nil]
    apply Reads.of_pure
  | succ fuel ih =>
    by_cases hdata : data = []
    . rw [hdata, append_nil]
      apply Reads.of_pure
    rcases take_readChunkSize data hdata with ⟨hchunk, hsize⟩
    have hsplit := take_append_drop readChunkSize data
    have hpositive := length_pos_iff.mpr hchunk
    have hlengths := congrArg List.length hsplit
    rw [length_append] at hlengths
    have hwhole : front ++ data.take readChunkSize ++ data.drop readChunkSize ++ rest
        = message := by
      rw [append_assoc front, hsplit, hmessage]
    have hrest := ih hwhole (by omega)
    rw [append_assoc front, hsplit] at hrest
    rw [append_assoc] at hwhole
    have hstep := reads_recordChunks_step fuel _ _ _ _ _ hchunk hsize
      (addChunk_holding hhello hlength hwhole) hrest
    rw [hsplit] at hstep
    exact hstep

end

theorem endRecord_holding {message front : Bytes} (hhello : IsHello message)
    (hle : front.length ≤ message.length)
    : (HelloBuffer.holding message front).endRecord
        = .ok (if front.length = message.length then some front else none) := by
  have hlength := hhello.length
  unfold HelloBuffer.endRecord HelloBuffer.holding
  by_cases hknown : 4 ≤ front.length
  . rw [if_pos hknown]
    dsimp only
    split
    . rfl
    . rw [if_neg (by omega)]
  . rw [if_neg hknown, if_neg (by omega)]

def helloRecord (version : UInt8 × UInt8) (body : Bytes) : Bytes :=
  [rtHandshake, version.fst, version.snd] ++ toBigEndian 2 body.length ++ body

/--
A division of a message into the bodies of records, each with the version that its header names.
-/
structure Divides (records : List ((UInt8 × UInt8) × Bytes)) (message : Bytes) : Prop where
  whole : records.flatMap Prod.snd = message
  sized : ∀ r ∈ records, 1 ≤ r.snd.length ∧ r.snd.length ≤ tlsMaxPlaintextRecord

theorem Divides.length_le {records} (h : Divides records message)
    : records.length ≤ message.length := by
  rcases h with ⟨rfl, hsized⟩
  induction records with
  | nil => exact Nat.le_refl 0
  | cons r records ih =>
    rw [forall_mem_cons] at hsized
    have hrest := ih hsized.right
    rw [length_cons, flatMap_cons, length_append]
    omega

theorem checkHelloHeader_of_sized {body : Bytes} (version : UInt8 × UInt8) (hpos : 1 ≤ body.length)
    (hle : body.length ≤ tlsMaxPlaintextRecord)
    : checkHelloHeader ([rtHandshake, version.fst, version.snd] ++ toBigEndian 2 body.length)
        = .ok body.length := by
  have hbound : tlsMaxPlaintextRecord < 65536 := by decide
  have hlen := u16At_append [rtHandshake, version.fst, version.snd] [] body.length
  rw [append_nil, Nat.mod_eq_of_lt (by omega)] at hlen
  have hlen' : u16At ([rtHandshake, version.fst, version.snd] ++ toBigEndian 2 body.length) 3
      = body.length := hlen
  unfold checkHelloHeader
  rw [hlen', if_neg (by simp), if_neg (by omega)]

theorem reads_helloRecords {records : List ((UInt8 × UInt8) × Bytes)} {fuel : Nat}
    {message front rest : Bytes} (hhello : IsHello message)
    (hlength : message.length ≤ maxClientHelloSize) (hrest : Divides records rest)
    (hmessage : front ++ rest = message) (hne : records ≠ []) (hfuel : records.length ≤ fuel)
    : Reads (readHelloRecords fuel (.holding message front))
        (records.flatMap fun r => helloRecord r.fst r.snd) message := by
  induction records generalizing fuel front rest with
  | nil => exact absurd rfl hne
  | cons r records ih =>
    rcases hrest with ⟨rfl, hsized⟩
    rw [forall_mem_cons] at hsized
    rw [flatMap_cons, ← append_assoc] at hmessage
    have hlater : Divides records (records.flatMap Prod.snd) := ⟨rfl, hsized.right⟩
    have hle := congrArg List.length hmessage
    rw [length_append] at hle
    cases fuel with
    | zero => cases hfuel
    | succ fuel =>
      rw [flatMap_cons, helloRecord, append_assoc]
      apply Reads.of_bind (reads_exact (by simp))
      apply reads_ofExcept_bind (checkHelloHeader_of_sized r.fst hsized.left.left hsized.left.right)
      apply Reads.of_bind (reads_recordChunks hhello hlength hmessage (Nat.le_refl _))
      apply reads_ofExcept_bind (endRecord_holding hhello (by omega))
      by_cases hlast : records = []
      . subst hlast
        rw [flatMap_nil, append_nil] at hmessage
        rw [hmessage, if_pos rfl]
        apply Reads.of_pure
      . have hpos := length_pos_iff.mpr hlast
        have hmore := hlater.length_le
        rw [if_neg (by omega)]
        exact ih hlater hmessage hlast (Nat.le_of_succ_le_succ hfuel)

theorem IsHello.ne_nil {message : Bytes} (hhello : IsHello message) : message ≠ [] := by
  intro hnil
  have hlength := hhello.length
  rw [hnil, length_nil] at hlength
  omega

theorem reads_clientHelloMessage {message : Bytes} {records : List ((UInt8 × UInt8) × Bytes)}
    (hhello : IsHello message) (hlength : message.length ≤ maxClientHelloSize)
    (hrecords : Divides records message)
    : Reads readClientHelloMessage (records.flatMap fun r => helloRecord r.fst r.snd) message := by
  have hcount := hrecords.length_le
  apply reads_helloRecords hhello hlength hrecords (nil_append message)
  . rintro rfl
    exact hhello.ne_nil hrecords.whole.symm
  . omega

theorem divides_cuts (message : Bytes)
    : Divides ((Framer.cuts (16 * 1024) message).map ((0x03, 0x03), ·)) message where
  whole := by
    rw [flatMap_map]
    exact Framer.flatMap_cuts (by decide)
  sized := by
    simp only [mem_map, forall_exists_index, and_imp, forall_apply_eq_imp_iff₂]
    exact fun chunk hchunk => ⟨length_pos_iff.mpr (Framer.ne_nil_of_mem_cuts hchunk),
      Framer.length_le_of_mem_cuts hchunk⟩

/--
However the message is divided into records, and whatever the stream delivers at a time, what is
read is the message. This includes the records that are replayed to the TLS handshake.
-/
theorem client_hello_reassembled (message : Bytes) (hhello : IsHello message)
    (hlength : message.length ≤ maxClientHelloSize)
    : (∀ records, Divides records message →
        Reads readClientHelloMessage (records.flatMap fun r => helloRecord r.fst r.snd) message)
      ∧ Reads readClientHelloMessage (encodeHandshakeRecords message) message := by
  refine ⟨fun records => reads_clientHelloMessage hhello hlength, ?_⟩
  have hreads := reads_clientHelloMessage hhello hlength (divides_cuts message)
  rw [flatMap_map] at hreads
  exact hreads

-- The length field of the message is divided, too.
theorem client_hello_reassembled_length_field
    : Reads readClientHelloMessage ([0x16, 0x03, 0x01, 0x00, 0x02, 0x01, 0x00] ++
        [0x16, 0x03, 0x03, 0x00, 0x03, 0x00, 0x01, 0x07]) [0x01, 0x00, 0x00, 0x01, 0x07] :=
  (client_hello_reassembled [0x01, 0x00, 0x00, 0x01, 0x07] ⟨rfl, rfl⟩ (by decide)).left
    [((0x03, 0x01), [0x01, 0x00]), ((0x03, 0x03), [0x00, 0x01, 0x07])] ⟨rfl, by decide⟩

theorem isHello_handshake (sni : String) (random x25519Pub : Vector UInt8 32)
    (secp256r1Pub : Vector UInt8 65) (draws : Draws) (sessionId : Vector UInt8 32)
    (hsni : (ofString sni).length ≤ 65530)
    : IsHello (handshake sni random x25519Pub secp256r1Pub draws sessionId) where
  hsType := rfl
  length := by
    have hfield : ((handshake sni random x25519Pub secp256r1Pub draws sessionId).drop 1).take 3
        = toBigEndian 3 (353 + (ofString sni).length) := by
      simp only [handshake, helloStart, helloHeader, append_assoc]
      rw [drop_left' length_singleton, take_left' (length_toBigEndian 3 _)]
    rw [hfield, length_handshake, ofBigEndian_toBigEndian, Nat.mod_eq_of_lt (by omega)]
    omega

theorem addChunk_length_le (hadd : h.addChunk chunk = .ok h')
    : h'.message.length ≤ maxClientHelloSize := by
  unfold HelloBuffer.addChunk at hadd
  split at hadd
  next => cases hadd
  next hlong =>
    have hmessage : h'.message = h.message ++ chunk := by
      unfold HelloBuffer.learnLength at hadd
      split at hadd
      . split at hadd
        . cases hadd
        dsimp only at hadd
        split at hadd
        . cases hadd
        . cases hadd
          rfl
      . cases hadd
        rfl
    rw [hmessage, length_append]
    exact Nat.le_of_not_lt hlong

theorem readRecordChunks_length_le (remaining : Nat) (h h' : HelloBuffer)
    (s s' : Source UInt8 IoError) (hlength : h.message.length ≤ maxClientHelloSize)
    (hread : readRecordChunks fuel remaining h s = .ok h' s')
    : h'.message.length ≤ maxClientHelloSize := by
  induction fuel generalizing remaining h s with
  | zero =>
    rw [readRecordChunks, Effect.pure_eq_ok] at hread
    rw [← hread.left]
    exact hlength
  | succ fuel ih =>
    unfold readRecordChunks at hread
    split at hread
    . simp only [Effect.bind_eq_ok, except_eq_ok] at hread
      rcases hread with ⟨chunk, t, _, h1, t', ⟨hadd, _⟩, hrest⟩
      exact ih _ h1 t' (addChunk_length_le h h1 chunk hadd) hrest
    . rw [Effect.pure_eq_ok] at hread
      rw [← hread.left]
      exact hlength

theorem endRecord_eq_some (hend : h.endRecord = .ok (some message))
    : h.message = message := by
  unfold HelloBuffer.endRecord at hend
  split at hend
  . cases hend
  split at hend
  . cases hend
    rfl
  . split at hend <;> cases hend

theorem readHelloRecords_length_le (hlength : h.message.length ≤ maxClientHelloSize)
    (hread : readHelloRecords fuel h s = .ok message s')
    : message.length ≤ maxClientHelloSize := by
  induction fuel generalizing h s with
  | zero =>
    simp only [readHelloRecords, except_eq_ok] at hread
    cases hread.left
  | succ fuel ih =>
    simp only [readHelloRecords, Effect.bind_eq_ok, except_eq_ok] at hread
    rcases hread with ⟨header, t, _, recordLen, t1, _, h1, t2, hchunks, found, t3, ⟨hend, _⟩, hrest⟩
    have hlength' := readRecordChunks_length_le recordLen recordLen h h1 t1 t2 hlength hchunks
    cases found with
    | none => exact ih h1 t3 hlength' hrest
    | some message' =>
      rw [Effect.pure_eq_ok] at hrest
      rw [← hrest.left, ← endRecord_eq_some h1 message' hend]
      exact hlength'

theorem checkHelloHeader_eq_ok {header : Bytes} {recordLen : Nat}
    (hcheck : checkHelloHeader header = .ok recordLen)
    : u16At header 3 = recordLen ∧ 0 < recordLen ∧ recordLen ≤ tlsMaxPlaintextRecord := by
  unfold checkHelloHeader at hcheck
  split at hcheck
  . cases hcheck
  dsimp only at hcheck
  split at hcheck
  . cases hcheck
  . cases hcheck
    omega

theorem readClientHelloMessage_bounds (hread : readClientHelloMessage s = .ok message s')
    : message.length ≤ maxClientHelloSize ∧ 0 < u16At (s.items.take 5) 3
      ∧ u16At (s.items.take 5) 3 ≤ tlsMaxPlaintextRecord := by
  have hlength := readHelloRecords_length_le _ .empty s message (Nat.zero_le _) hread
  simp only [readClientHelloMessage, readHelloRecords, Effect.bind_eq_ok, except_eq_ok,
    exact_eq_ok] at hread
  rcases hread with ⟨header, t, ⟨_, hheader, _⟩, recordLen, t1, ⟨hcheck, _⟩, _⟩
  rcases checkHelloHeader_eq_ok hcheck with ⟨hlen, hbounds⟩
  rw [hheader, hlen]
  exact ⟨hlength, hbounds⟩

end

end Blackwire.Reality
