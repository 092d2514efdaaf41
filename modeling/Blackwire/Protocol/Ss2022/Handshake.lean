import Blackwire.Common.BoxedStream
import Blackwire.Protocol.Ss2022.Stream
import Blackwire.Common.Aead
import Blackwire.Common.Address

/-!
This module contains the handshakes of the SS-2022 inbound and outbound on one connection: what the
inbound makes of the headers that the outbound has sent, and what the client accepts as a response
to its request. The reader of the inbound stands for the `BufReader` of the source, which hands what
it has read ahead back to the stream. The salt of a request and the instants at which the clock is
read are parameters, as is the derivation of subkeys.
-/

namespace Blackwire.Ss2022

open Bytes Reading

def Cipher.ofAead (a : Aead) (deriveSubkey : Subkey → Salt → Subkey) : Cipher where
  deriveSubkey psk salt := (deriveSubkey (toVector 32 psk) salt).toList
  decrypt subkey nonce ciphertext :=
    (a.openCombined (aes256Gcm (toVector 32 subkey)) nonce [] ciphertext).toOption

-- The fixed header and the variable header are checked at two instants.
def readRequest (c : Cipher) (psk : Option (List UInt8)) (filter : SaltReplay)
    (fixedAt variableAt : Nat) : Reading (Pending × Address × Bytes) := do
  let reqSalt ← readExact 32
  let fixedCt ← readExact 27
  let pending ← Reading.ofExcept (readFixedHeader c psk (toVector 32 reqSalt) fixedCt fixedAt)
  let varCt ← readExact (pending.variableLen + 16)
  let (dest, initialPayload) ←
    Reading.ofExcept (readVariableHeader c filter pending varCt variableAt).fst
  return (pending, dest, initialPayload)

-- `handle` from the end of the request to the point where it has a stream.
def sendResponse (a : Aead) (deriveSubkey : Subkey → Salt → Subkey) (psk : Subkey)
    (respSalt reqSalt : Salt) (now : Nat) : Exchange Subkey := do
  BoxedStream.writeAll respSalt.toList
  let respSubkey := deriveSubkey psk respSalt
  let hdr := buildResponseFixedHeader reqSalt now
  BoxedStream.writeAll (a.sealCombined (aes256Gcm respSubkey) (makeNonce 0) [] hdr)
  BoxedStream.writeAll (a.sealCombined (aes256Gcm respSubkey) (makeNonce 1) [] [])
  BoxedStream.flush
  return respSubkey

def acceptStream (reqSubkey respSubkey : Subkey) (initialPayload : Bytes) : Ss2022Stream :=
  .newBidir reqSubkey 2 respSubkey 2 initialPayload none

open BoxedStream

def buildRequestVariableHeader (dest : Address) (initialPayload : Bytes)
    : Except ProxyError Bytes := do
  let address ← writeSocks5Address dest
  return address ++ toBigEndian 2 0 ++ initialPayload

section

variable (a : Aead) (deriveSubkey : Subkey → Salt → Subkey) (psk : Subkey)

variable (reqSalt : Salt) (dest : Address)

def sendRequest (initialPayload : Bytes) (now : Nat)
    : Exchange Subkey := do
  writeAll reqSalt.toList
  let reqSubkey := deriveSubkey psk reqSalt
  let variableHeader ← Exchange.ofExcept (buildRequestVariableHeader dest initialPayload)
  let fixed := typeTcp :: (toBigEndian 8 (asSecs now) ++ toBigEndian 2 variableHeader.length)
  writeAll (a.sealCombined (aes256Gcm reqSubkey) (makeNonce 0) [] fixed)
  writeAll (a.sealCombined (aes256Gcm reqSubkey) (makeNonce 1) [] variableHeader)
  flush
  return reqSubkey

def readResponse (now : Nat) : Exchange (Subkey × Bytes) := do
  let respSalt ← readExact 32
  let respSubkey := deriveSubkey psk (toVector 32 respSalt)
  let respHdrCt ← readExact (43 + 16)
  let respHdr ← Exchange.ofExcept <|
    (a.openCombined (aes256Gcm respSubkey) (makeNonce 0) [] respHdrCt).mapError
      fun _ => .protocol "SS-2022: response header decrypt failed"
  Exchange.refuse (respHdr.length ≠ 43 ∨ respHdr.head? ≠ some typeServer)
    (.protocol "SS-2022: invalid response header type")
  let respTs := ofBigEndian ((respHdr.drop 1).take 8)
  Exchange.refuse (absDiff respTs (asSecs now) > maxTimeDiff) .authFailed
  -- The salt of the request in `respHdr[9..41]` is not looked at.
  let initialLen := ofBigEndian ((respHdr.drop 41).take 2)
  let initialCt ← readExact (initialLen + 16)
  let initialPt ← Exchange.ofExcept <|
    (a.openCombined (aes256Gcm respSubkey) (makeNonce 1) [] initialCt).mapError
      fun _ => .protocol "SS-2022: initial payload decrypt failed"
  return (respSubkey, initialPt)

def openSs2022StreamWithInitialPayload (initialPayload : Bytes)
    (requestedAt answeredAt : Nat) : Exchange Ss2022Stream := do
  let reqSubkey ← sendRequest a deriveSubkey psk reqSalt dest initialPayload requestedAt
  let (respSubkey, initialPt) ← readResponse a deriveSubkey psk answeredAt
  return .newBidir respSubkey 2 reqSubkey 2 initialPt none

def openSs2022Stream (requestedAt answeredAt : Nat) : Exchange Ss2022Stream :=
  openSs2022StreamWithInitialPayload a deriveSubkey psk reqSalt dest [] requestedAt answeredAt

end

open Exchange Fallible Source
open List hiding Vector

section

variable (a : Aead) (deriveSubkey : Subkey → Salt → Subkey) (psk : Subkey)

theorem sendRequest_eq_ok
    (h : sendRequest a deriveSubkey psk reqSalt dest initialPayload now s = .ok reqSubkey s')
    : s.Writable 4 ∧ (buildRequestVariableHeader dest initialPayload).isOk
      ∧ s'.incoming = s.incoming := by
  simp only [sendRequest, Effect.bind_eq_ok, writeAll_eq_ok, ofExcept_eq_ok, flush] at h
  rcases h with ⟨_, _, ⟨hfirst, rfl⟩, header, _, ⟨hheader, rfl⟩, _, _, ⟨hsecond, rfl⟩, _, _,
    ⟨hthird, rfl⟩, _, _, ⟨hfourth, rfl⟩, _, rfl⟩
  refine ⟨?_, ?_, rfl⟩
  . apply writable_succ.mpr
    refine ⟨hfirst, fun _ => writable_succ.mpr ⟨hsecond, fun _ => ?_⟩⟩
    exact writable_succ.mpr ⟨hthird, fun _ => hfourth⟩
  . rw [hheader]
    rfl

variable (reqSalt : Salt)

theorem sendRequest_ok (hs : s.Writable 4)
    (hheader : (buildRequestVariableHeader dest initialPayload).isOk)
    : ∃ reqSubkey s', sendRequest a deriveSubkey psk reqSalt dest initialPayload now s
        = .ok reqSubkey s' := by
  rw [isOk_iff] at hheader
  rcases hheader with ⟨header, hheader⟩
  simp only [sendRequest, Effect.bind_eq_ok, Effect.pure_eq_ok, writeAll_eq_ok, ofExcept_eq_ok,
    flush]
  rcases writable_succ.mp hs with ⟨hfirst, hs⟩
  have hsecond := fun bytes => writable_succ.mp (hs bytes)
  have hthird := fun bytes bytes' => writable_succ.mp ((hsecond bytes).right bytes')
  exact ⟨_, _, (), _, ⟨hfirst, rfl⟩, header, _, ⟨hheader, rfl⟩, (), _, ⟨(hsecond _).left, rfl⟩,
    (), _, ⟨(hthird _ _).left, rfl⟩, (), _, ⟨(hthird _ _).right _, rfl⟩, rfl, rfl⟩

structure Accepted (received : Bytes) (now : Nat) (respHdr initialPt : Bytes) : Prop where
  headerLength : 91 ≤ received.length
  header : a.openCombined (aes256Gcm (deriveSubkey psk (toVector 32 (received.take 32))))
    (makeNonce 0) [] ((received.drop 32).take 59) = .ok respHdr
  length : respHdr.length = 43
  type : respHdr.head? = some typeServer
  fresh : absDiff (ofBigEndian ((respHdr.drop 1).take 8)) (asSecs now) ≤ maxTimeDiff
  initialLength : ofBigEndian ((respHdr.drop 41).take 2) + 16 ≤ (received.drop 91).length
  initial : a.openCombined (aes256Gcm (deriveSubkey psk (toVector 32 (received.take 32))))
    (makeNonce 1) [] ((received.drop 91).take (ofBigEndian ((respHdr.drop 41).take 2) + 16))
      = .ok initialPt

theorem readResponse_eq_ok
    : (∃ x s', readResponse a deriveSubkey psk now s = .ok x s')
        ↔ ∃ respHdr initialPt,
          Accepted a deriveSubkey psk s.incoming.items now respHdr initialPt := by
  simp only [readResponse, Effect.bind_eq_ok, Effect.pure_eq_ok, readExact_eq_ok, ofExcept_eq_ok,
    refuse_eq_ok, mapError_eq_ok]
  constructor
  . rintro ⟨_, _, _, _, ⟨hsalt, rfl, rfl⟩, _, _, ⟨hct, rfl, rfl⟩, respHdr, _, ⟨hheader, rfl⟩, _, _,
      ⟨htype, rfl⟩, _, _, ⟨hfresh, rfl⟩, _, _, ⟨hlong, rfl, rfl⟩, initialPt, _, ⟨hinitial, rfl⟩, _⟩
    simp only [Source.items_skip, drop_drop, length_drop] at *
    rw [not_or, not_not, not_not] at htype
    refine ⟨respHdr, initialPt, ?_, hheader, htype.left, htype.right, ?_, ?_, hinitial⟩
    . omega
    . exact Nat.le_of_not_lt hfresh
    . rw [length_drop]
      exact hlong
  . rintro ⟨respHdr, initialPt, h⟩
    have hlength := h.headerLength
    refine ⟨_, _, _, _, ⟨?_, rfl, rfl⟩, _, _, ⟨?_, rfl, rfl⟩, respHdr, _, ⟨?_, rfl⟩, (), _,
      ⟨?_, rfl⟩, (), _, ⟨?_, rfl⟩, _, _, ⟨?_, rfl, rfl⟩, initialPt, _, ⟨?_, rfl⟩, rfl, rfl⟩
    . omega
    . simp only [Source.items_skip, length_drop]
      omega
    . simp only [Source.items_skip]
      exact h.header
    . rw [h.length, h.type]
      simp
    . exact Nat.not_lt_of_le h.fresh
    . simp only [Source.items_skip, drop_drop]
      exact h.initialLength
    . simp only [Source.items_skip, drop_drop]
      exact h.initial

theorem openSs2022Stream_eq_ok (dest : Address) (initialPayload : Bytes)
    (requestedAt answeredAt : Nat) (s : BoxedStream)
    : (∃ stream s', openSs2022StreamWithInitialPayload a deriveSubkey psk reqSalt dest
          initialPayload requestedAt answeredAt s = .ok stream s')
        ↔ s.Writable 4 ∧ (buildRequestVariableHeader dest initialPayload).isOk
          ∧ ∃ respHdr initialPt,
            Accepted a deriveSubkey psk s.incoming.items answeredAt respHdr initialPt := by
  simp only [openSs2022StreamWithInitialPayload, Effect.bind_eq_ok, Effect.pure_eq_ok]
  constructor
  . rintro ⟨_, _, reqSubkey, t, hsent, ⟨respSubkey, initialPt⟩, t', hread, _⟩
    rcases sendRequest_eq_ok a deriveSubkey psk hsent with ⟨hs, hheader, hincoming⟩
    refine ⟨hs, hheader, ?_⟩
    rw [← hincoming]
    exact (readResponse_eq_ok a deriveSubkey psk).mp ⟨_, _, hread⟩
  . rintro ⟨hs, hheader, haccepted⟩
    rcases sendRequest_ok a deriveSubkey psk reqSalt hs hheader with ⟨reqSubkey, t, hsent⟩
    have hincoming := (sendRequest_eq_ok a deriveSubkey psk hsent).right.right
    rw [← hincoming] at haccepted
    rcases (readResponse_eq_ok a deriveSubkey psk).mpr haccepted with ⟨response, t', hread⟩
    exact ⟨_, _, _, _, hsent, _, _, hread, rfl, rfl⟩

def response (respSalt : Salt) (sentAt : Nat) (reqSalt : Salt) (initial : Bytes) : Bytes :=
  let respSubkey := deriveSubkey psk respSalt
  let header := (buildResponseFixedHeader reqSalt sentAt).take 41 ++ toBigEndian 2 initial.length
  respSalt.toList ++ (a.sealCombined (aes256Gcm respSubkey) (makeNonce 0) [] header
    ++ a.sealCombined (aes256Gcm respSubkey) (makeNonce 1) [] initial)

theorem take_buildResponseFixedHeader (sentAt : Nat)
    : (buildResponseFixedHeader reqSalt sentAt).take 41
        = typeServer :: (toBigEndian 8 (asSecs sentAt) ++ reqSalt.toList) := by
  unfold buildResponseFixedHeader
  rw [take_succ_cons, take_left']
  rw [length_append, length_toBigEndian, Vector.length_toList]

theorem header_fields
    : let header := (buildResponseFixedHeader reqSalt sentAt).take 41 ++ toBigEndian 2 n
      header.length = 43 ∧ header.head? = some typeServer
        ∧ ofBigEndian ((header.drop 1).take 8) = asSecs sentAt % 256 ^ 8
        ∧ (header.drop 9).take 32 = reqSalt.toList
        ∧ ofBigEndian ((header.drop 41).take 2) = n % 256 ^ 2 := by
  have hts := length_toBigEndian 8 (asSecs sentAt)
  have hsalt : reqSalt.toList.length = 32 := Vector.length_toList
  have hlen := length_toBigEndian 2 n
  rw [← ofBigEndian_toBigEndian, ← ofBigEndian_toBigEndian, take_buildResponseFixedHeader,
    cons_append, append_assoc]
  generalize toBigEndian 8 (asSecs sentAt) = ts at hts
  generalize reqSalt.toList = salt at hsalt
  generalize toBigEndian 2 n = len at hlen
  have h9 : (typeServer :: (ts ++ (salt ++ len))).drop 9 = salt ++ len := drop_left' hts
  have h41 : (typeServer :: (ts ++ (salt ++ len))).drop 41 = len := by
    rw [show 41 = 9 + 32 from rfl, ← drop_drop, h9, drop_left' hsalt]
  refine ⟨?_, rfl, ?_, ?_, ?_⟩
  . simp only [length_cons, length_append]
    omega
  . rw [drop_succ_cons, drop_zero, take_left' hts]
  . rw [h9, take_left' hsalt]
  . rw [h41, take_of_length_le (Nat.le_of_eq hlen)]

variable {header : Bytes}

theorem length_field (h : start + n ≤ header.length)
    : ((header.drop start).take n).length = n := by
  rw [length_take, length_drop]
  omega

theorem eq_of_header_fields (hlength : header.length = 43) (htype : header.head? = some typeServer)
    : (buildResponseFixedHeader (toVector 32 ((header.drop 9).take 32))
          (ofBigEndian ((header.drop 1).take 8) * nanosPerSec)).take 41
        ++ toBigEndian 2 (ofBigEndian ((header.drop 41).take 2)) = header := by
  have hsecs : asSecs (ofBigEndian ((header.drop 1).take 8) * nanosPerSec)
      = ofBigEndian ((header.drop 1).take 8) := Nat.mul_div_cancel _ (by decide)
  have hts := toBigEndian_ofBigEndian ((header.drop 1).take 8)
  have hlen := toBigEndian_ofBigEndian ((header.drop 41).take 2)
  rw [length_field (by omega)] at hts
  rw [length_field (by omega)] at hlen
  have hlast : (header.drop 41).take 2 = header.drop 41 := by
    apply take_of_length_le
    rw [length_drop]
    omega
  have hmiddle : header.drop 41 = (header.drop 9).drop 32 := by rw [drop_drop]
  have hfirst : header.drop 9 = (header.drop 1).drop 8 := by rw [drop_drop]
  rw [take_buildResponseFixedHeader, hsecs, hts,
    toList_toVector 32 (length_field (by omega)), hlen, cons_append,
    append_assoc, hlast, hmiddle, take_append_drop, hfirst, take_append_drop]
  cases header with
  | nil => cases hlength
  | cons x rest =>
    cases htype
    rfl

theorem received_parts {salt headerCt rest : Bytes} (hsalt : salt.length = 32)
    (hheaderCt : headerCt.length = 59)
    : let received := salt ++ (headerCt ++ rest)
      received.take 32 = salt ∧ (received.drop 32).take 59 = headerCt
        ∧ received.drop 91 = rest := by
  have hdrop : (salt ++ (headerCt ++ rest)).drop 32 = headerCt ++ rest := drop_left' hsalt
  refine ⟨take_left' hsalt, ?_, ?_⟩
  . rw [hdrop, take_left' hheaderCt]
  . rw [show 91 = 32 + 59 from rfl, ← drop_drop, hdrop, drop_left' hheaderCt]

section

variable {a : Aead} (ha : a.Lawful)

include ha

theorem accepted_of_response {reqSalt : Salt} (hsentAt : asSecs sentAt < 2 ^ 64)
    (hinitial : initial.length < 65536)
    (hfresh : absDiff (asSecs sentAt) (asSecs now) ≤ maxTimeDiff)
    : ∃ respHdr, Accepted a deriveSubkey psk
          (response a deriveSubkey psk respSalt sentAt reqSalt initial ++ rest) now respHdr initial
        ∧ (respHdr.drop 9).take 32 = reqSalt.toList := by
  rcases header_fields reqSalt with ⟨hlength, htype, hts, hsalt, hlen⟩
  have hmodTs : asSecs sentAt % 256 ^ 8 = asSecs sentAt := Nat.mod_eq_of_lt hsentAt
  have hmodLen : initial.length % 256 ^ 2 = initial.length := Nat.mod_eq_of_lt hinitial
  rw [hmodTs] at hts
  rw [hmodLen] at hlen
  unfold response
  generalize (buildResponseFixedHeader reqSalt sentAt).take 41 ++ toBigEndian 2 initial.length
    = respHdr at *
  have hheader := ha.open_seal (aes256Gcm (deriveSubkey psk respSalt)) (makeNonce 0) [] respHdr
  have hheaderCt := ha.length_seal (aes256Gcm (deriveSubkey psk respSalt)) (makeNonce 0) [] respHdr
  rw [hlength] at hheaderCt
  have hpayload := ha.open_seal (aes256Gcm (deriveSubkey psk respSalt)) (makeNonce 1) [] initial
  have hpayloadCt := ha.length_seal (aes256Gcm (deriveSubkey psk respSalt)) (makeNonce 1) [] initial
  rw [tagLen] at hpayloadCt
  rw [append_assoc, append_assoc]
  rcases received_parts Vector.length_toList hheaderCt with ⟨h32, h59, h91⟩
  refine ⟨respHdr, ⟨?_, ?_, hlength, htype, ?_, ?_, ?_⟩, hsalt⟩
  . rw [length_append, length_append, hheaderCt, Vector.length_toList, ← Nat.add_assoc]
    exact Nat.le_add_right 91 _
  . rw [h32, h59, toVector_toList]
    exact hheader
  . rw [hts]
    exact hfresh
  . rw [h91, hlen, length_append, hpayloadCt]
    exact Nat.le_add_right _ _
  . rw [h32, h91, hlen, toVector_toList, take_left' hpayloadCt]
    exact hpayload

theorem response_of_accepted (htidy : a.Tidy)
    (h : Accepted a deriveSubkey psk received now respHdr initialPt)
    : ∃ respSalt sentAt reqSalt rest,
        received = response a deriveSubkey psk respSalt sentAt reqSalt initialPt ++ rest
          ∧ asSecs sentAt < 2 ^ 64 ∧ initialPt.length < 65536
          ∧ absDiff (asSecs sentAt) (asSecs now) ≤ maxTimeDiff
          ∧ (respHdr.drop 9).take 32 = reqSalt.toList := by
  have hlength := h.headerLength
  have hrespHdr := h.length
  have hts := ofBigEndian_lt ((respHdr.drop 1).take 8)
  have hlen := ofBigEndian_lt ((respHdr.drop 41).take 2)
  rw [length_field (by omega)] at hts
  rw [length_field (by omega)] at hlen
  have hsecs : asSecs (ofBigEndian ((respHdr.drop 1).take 8) * nanosPerSec)
      = ofBigEndian ((respHdr.drop 1).take 8) := Nat.mul_div_cancel _ (by decide)
  have hinitial : initialPt.length = ofBigEndian ((respHdr.drop 41).take 2) := by
    have hseal := congrArg List.length (htidy.seal_open _ _ _ _ _ h.initial)
    rw [ha.length_seal, length_take, Nat.min_eq_left h.initialLength] at hseal
    exact Nat.add_right_cancel hseal
  refine ⟨toVector 32 (received.take 32), ofBigEndian ((respHdr.drop 1).take 8) * nanosPerSec,
    toVector 32 ((respHdr.drop 9).take 32),
    (received.drop 91).drop (ofBigEndian ((respHdr.drop 41).take 2) + 16), ?_, ?_, ?_, ?_, ?_⟩
  . have hrespSalt : (received.take 32).length = 32 := by
      rw [length_take]
      omega
    unfold response
    dsimp only
    rw [hinitial, eq_of_header_fields h.length h.type,
      htidy.seal_open _ _ _ _ _ h.header, htidy.seal_open _ _ _ _ _ h.initial,
      toList_toVector 32 hrespSalt, append_assoc, append_assoc, take_append_drop,
      show received.drop 91 = (received.drop 32).drop 59 by rw [drop_drop],
      take_append_drop, take_append_drop]
  . rw [hsecs]
    exact hts
  . rw [hinitial]
    exact hlen
  . rw [hsecs]
    exact h.fresh
  . rw [toList_toVector 32 (length_field (by omega))]

end

def answeredSalt (received : Bytes) : Option Bytes :=
  match a.openCombined (aes256Gcm (deriveSubkey psk (toVector 32 (received.take 32))))
    (makeNonce 0) [] ((received.drop 32).take 59) with
  | .ok respHdr => some ((respHdr.drop 9).take 32)
  | .error _ => none

theorem Accepted.answeredSalt (h : Accepted a deriveSubkey psk received now respHdr initialPt)
    : answeredSalt a deriveSubkey psk received = some ((respHdr.drop 9).take 32) := by
  unfold Ss2022.answeredSalt
  rw [h.header]

theorem ss2022_response_bound_iff (a : Aead) (ha : a.Lawful) (htidy : a.Tidy)
    (deriveSubkey : Subkey → Salt → Subkey) (psk : Subkey) (reqSalt : Salt) (dest : Address)
    (initialPayload : Bytes) (requestedAt answeredAt : Nat) (s : BoxedStream)
    : ((∃ stream s', openSs2022StreamWithInitialPayload a deriveSubkey psk reqSalt dest
          initialPayload requestedAt answeredAt s = .ok stream s') →
        answeredSalt a deriveSubkey psk s.incoming.items = some reqSalt.toList)
      ↔ ∀ respSalt sentAt otherSalt initial rest,
        s.Writable 4 → (writeSocks5Address dest).isOk →
        s.incoming.items = response a deriveSubkey psk respSalt sentAt otherSalt initial ++ rest →
        asSecs sentAt < 2 ^ 64 → initial.length < 65536 →
        absDiff (asSecs sentAt) (asSecs answeredAt) ≤ maxTimeDiff →
          otherSalt = reqSalt := by
  rw [openSs2022Stream_eq_ok, show (buildRequestVariableHeader dest initialPayload).isOk
    ↔ (writeSocks5Address dest).isOk from isOk_bind_pure _ _]
  constructor
  . intro h respSalt sentAt otherSalt initial rest hs hdest hitems hsentAt hinitial hfresh
    rcases accepted_of_response deriveSubkey psk ha hsentAt hinitial hfresh with
        ⟨respHdr, haccepted, hsalt⟩
    rw [← hitems] at haccepted
    have hbound := h ⟨hs, hdest, respHdr, initial, haccepted⟩
    rw [haccepted.answeredSalt, hsalt, Option.some_inj, Vector.toList_inj] at hbound
    exact hbound
  . rintro h ⟨hs, hdest, respHdr, initialPt, haccepted⟩
    rcases response_of_accepted deriveSubkey psk ha htidy haccepted with
      ⟨respSalt, sentAt, otherSalt, rest, hitems, hsentAt, hinitial, hfresh, hsalt⟩
    rw [haccepted.answeredSalt, hsalt,
      h respSalt sentAt otherSalt initialPt rest hs hdest hitems hsentAt hinitial hfresh]

def saltOf (byte : UInt8) : Salt := Vector.replicate 32 byte

-- What BLAKE3 derives from a pre-shared key of sevens and the salts of three messages.
def knownSubkey (psk : Subkey) (salt : Salt) : Subkey :=
  if psk = saltOf 7 ∧ salt = saltOf 1 then
    toVector 32
      [50, 38, 13, 222, 225, 28, 190, 39, 193, 229, 56, 117, 109, 179, 14, 8, 50, 226, 74, 86,
       253, 192, 77, 73, 174, 188, 101, 118, 91, 45, 252, 75]
  else if psk = saltOf 7 ∧ salt = saltOf 8 then
    toVector 32
      [169, 211, 44, 52, 71, 114, 241, 226, 213, 216, 198, 172, 130, 95, 63, 84, 136, 56, 139,
       91, 68, 224, 23, 116, 37, 195, 86, 3, 187, 173, 121, 102]
  else if psk = saltOf 7 ∧ salt = saltOf 9 then
    toVector 32
      [233, 138, 230, 42, 219, 26, 193, 26, 37, 98, 46, 154, 140, 135, 80, 45, 12, 41, 122, 64,
       119, 122, 112, 167, 114, 153, 155, 159, 7, 222, 228, 203]
  else
    psk

-- What AES-256-GCM makes of a request with salt 1, its response with salt 8, and a response with
-- salt 9 to a request with salt 2.
def knownHandshakes : List KnownSeal :=
  [⟨aes256Gcm (knownSubkey (saltOf 7) (saltOf 1)), makeNonce 0, [0, 0, 0, 0, 0, 0, 0, 3, 232, 0, 9],
      [72, 80, 65, 121, 0, 80, 80, 84, 255, 1, 166, 89, 2, 115, 120, 25, 190, 151, 228, 137, 92,
       99, 10, 87, 136, 104, 238]⟩,
    ⟨aes256Gcm (knownSubkey (saltOf 7) (saltOf 1)), makeNonce 1, [1, 1, 2, 3, 4, 0, 80, 0, 0],
      [211, 29, 76, 9, 110, 64, 200, 57, 89, 91, 205, 162, 88, 54, 100, 207, 13, 150, 151, 199,
       1, 124, 163, 33, 142]⟩,
    ⟨aes256Gcm (knownSubkey (saltOf 7) (saltOf 8)), makeNonce 0,
      buildResponseFixedHeader (saltOf 1) (1000 * nanosPerSec),
      [221, 253, 15, 242, 23, 10, 51, 100, 26, 112, 67, 242, 229, 228, 27, 151, 153, 212, 153,
       154, 191, 161, 184, 120, 251, 137, 202, 31, 255, 173, 210, 165, 213, 110, 57, 40, 102, 135,
       90, 128, 113, 44, 214, 161, 245, 140, 90, 193, 193, 230, 99, 60, 253, 32, 2, 51, 46, 53,
       112]⟩,
    ⟨aes256Gcm (knownSubkey (saltOf 7) (saltOf 8)), makeNonce 1, [],
      [244, 1, 174, 147, 160, 4, 225, 83, 238, 88, 24, 227, 88, 248, 35, 11]⟩,
    ⟨aes256Gcm (knownSubkey (saltOf 7) (saltOf 9)), makeNonce 0,
      buildResponseFixedHeader (saltOf 2) (1000 * nanosPerSec),
      [99, 11, 134, 67, 130, 227, 29, 139, 103, 51, 57, 181, 240, 225, 73, 202, 61, 23, 114, 150,
       184, 100, 229, 200, 113, 82, 250, 194, 171, 191, 59, 241, 82, 0, 73, 34, 185, 139, 200,
       115, 30, 32, 9, 132, 176, 138, 113, 1, 57, 214, 97, 134, 113, 109, 136, 202, 113, 59, 227]⟩,
    ⟨aes256Gcm (knownSubkey (saltOf 7) (saltOf 9)), makeNonce 1, [],
      [254, 178, 75, 192, 230, 183, 28, 146, 190, 146, 55, 86, 192, 204, 147, 49]⟩]

def connectedTo (received : Bytes) : BoxedStream :=
  ⟨.ofSegments [received], [], []⟩

def openKnown : Exchange Ss2022Stream :=
  openSs2022StreamWithInitialPayload (.ofTable knownHandshakes) knownSubkey (saltOf 7) (saltOf 1)
    (.ipv4 0x01020304 80) [] (1000 * nanosPerSec) (1000 * nanosPerSec)

theorem ss2022_response_bound_iff_own
    : let a := Aead.ofTable knownHandshakes
      let s := connectedTo
        (response a knownSubkey (saltOf 7) (saltOf 8) (1000 * nanosPerSec) (saltOf 1) [])
      (openKnown.run' s).isSome = true
        ∧ ((∃ stream s', openKnown s = .ok stream s') →
          answeredSalt a knownSubkey (saltOf 7) s.incoming.items = some (saltOf 1).toList) := by
  refine ⟨by decide +kernel, ?_⟩
  have ha := Aead.lawful_ofTable knownHandshakes (by decide +kernel)
  apply (ss2022_response_bound_iff _ ha (Aead.tidy_ofTable knownHandshakes (by decide +kernel))
    knownSubkey (saltOf 7) (saltOf 1) (.ipv4 0x01020304 80) [] (1000 * nanosPerSec)
    (1000 * nanosPerSec) (connectedTo _)).mpr
  intro respSalt sentAt otherSalt initial rest _ _ hitems hsentAt hinitial hfresh
  rcases accepted_of_response knownSubkey (saltOf 7) ha
    hsentAt hinitial hfresh with ⟨respHdr, haccepted, hsalt⟩
  have hanswered : answeredSalt (.ofTable knownHandshakes) knownSubkey (saltOf 7)
      (connectedTo (response (.ofTable knownHandshakes) knownSubkey (saltOf 7) (saltOf 8)
        (1000 * nanosPerSec) (saltOf 1) [])).incoming.items = some (saltOf 1).toList := by
    decide +kernel
  rw [hitems, haccepted.answeredSalt, hsalt, Option.some_inj, Vector.toList_inj] at hanswered
  exact hanswered

-- A response to another request is taken for the response to this one.
theorem ss2022_accepts_foreign_response
    : let a := Aead.ofTable knownHandshakes
      let s := connectedTo
        (response a knownSubkey (saltOf 7) (saltOf 9) (1000 * nanosPerSec) (saltOf 2) [])
      (openKnown.run' s).isSome = true
        ∧ answeredSalt a knownSubkey (saltOf 7) s.incoming.items = some (saltOf 2).toList
        ∧ (saltOf 2).toList ≠ (saltOf 1).toList := by
  decide +kernel

end

def requestFixed (now n : Nat) : Bytes :=
  typeTcp :: (toBigEndian 8 (asSecs now) ++ toBigEndian 2 n)

section

variable (a : Aead) (deriveSubkey : Subkey → Salt → Subkey) (psk : Subkey) (reqSalt : Salt)

def request (now : Nat) (header : Bytes) : Bytes :=
  let key := aes256Gcm (deriveSubkey psk reqSalt)
  reqSalt.toList ++ (a.sealCombined key (makeNonce 0) [] (requestFixed now header.length)
    ++ a.sealCombined key (makeNonce 1) [] header)

theorem sendRequest_outgoing
    (h : sendRequest a deriveSubkey psk reqSalt dest initialPayload now s = .ok reqSubkey s')
    : reqSubkey = deriveSubkey psk reqSalt
      ∧ ∃ header, buildRequestVariableHeader dest initialPayload = .ok header
        ∧ s'.outgoing = s.outgoing ++ request a deriveSubkey psk reqSalt now header := by
  simp only [sendRequest, Effect.bind_eq_ok, writeAll_eq_ok, ofExcept_eq_ok, flush] at h
  rcases h with ⟨_, _, ⟨_, rfl⟩, header, _, ⟨hheader, rfl⟩, _, _, ⟨_, rfl⟩, _, _, ⟨_, rfl⟩, _, _,
    ⟨_, rfl⟩, rfl, rfl⟩
  refine ⟨rfl, header, hheader, ?_⟩
  simp [request, requestFixed, wrote]

theorem requestFixed_fields (now n : Nat)
    : (requestFixed now n).length = 11
      ∧ ofBigEndian (((requestFixed now n).drop 1).take 8) = asSecs now % 256 ^ 8
      ∧ ofBigEndian (((requestFixed now n).drop 9).take 2) = n % 256 ^ 2 := by
  have hts := length_toBigEndian 8 (asSecs now)
  have hlen := length_toBigEndian 2 n
  rw [← ofBigEndian_toBigEndian, ← ofBigEndian_toBigEndian, requestFixed]
  generalize toBigEndian 8 (asSecs now) = ts at hts
  generalize toBigEndian 2 n = len at hlen
  have h9 : (typeTcp :: (ts ++ len)).drop 9 = len := drop_left' hts
  refine ⟨?_, ?_, ?_⟩
  . simp only [length_cons, length_append]
    omega
  . rw [drop_succ_cons, drop_zero, take_left' hts]
  . rw [h9, take_of_length_le (Nat.le_of_eq hlen)]

end

section

variable {a : Aead} (ha : a.Lawful) (hsecs : asSecs requestedAt < 2 ^ 64)
  (hskew : absDiff (asSecs requestedAt) (asSecs fixedAt) ≤ maxTimeDiff)

include ha hsecs hskew

theorem readFixedHeader_request (n : Nat)
    : readFixedHeader (.ofAead a deriveSubkey) (some psk.toList) reqSalt
        (a.sealCombined (aes256Gcm (deriveSubkey psk reqSalt)) (makeNonce 0) []
          (requestFixed requestedAt n)) fixedAt
      = .ok ⟨reqSalt, (deriveSubkey psk reqSalt).toList, asSecs requestedAt, n % 65536⟩ := by
  rcases requestFixed_fields requestedAt n with ⟨hlength, hts, hlen⟩
  have hmod : asSecs requestedAt % 256 ^ 8 = asSecs requestedAt := Nat.mod_eq_of_lt hsecs
  rw [hmod] at hts
  simp only [readFixedHeader, Cipher.ofAead, toVector_toList, ha.open_seal, Except.toOption]
  rw [if_neg (by simp [hlength]; rfl), hts, if_neg (Nat.not_lt_of_le hskew), hlen]
  rfl

theorem readRequest_eq_ok {filter : SaltReplay} {variableAt : Nat} {header rest : Bytes}
    {t t' : Source UInt8 IoError}
    (ht : t.items = request a deriveSubkey psk reqSalt requestedAt header ++ rest)
    {pending : Pending} {dest : Address} {initialPayload : Bytes}
    : readRequest (.ofAead a deriveSubkey) (some psk.toList) filter fixedAt variableAt t
          = .ok (pending, dest, initialPayload) t'
      ↔ pending = ⟨reqSalt, (deriveSubkey psk reqSalt).toList, asSecs requestedAt,
          header.length % 65536⟩
        ∧ (readVariableHeader (.ofAead a deriveSubkey) filter pending
            ((a.sealCombined (aes256Gcm (deriveSubkey psk reqSalt)) (makeNonce 1) [] header
              ++ rest).take (header.length % 65536 + 16)) variableAt).fst
                = .ok (dest, initialPayload)
        ∧ t' = t.skip (59 + (header.length % 65536 + 16)) := by
  have hfixed : (a.sealCombined (aes256Gcm (deriveSubkey psk reqSalt)) (makeNonce 0) []
      (requestFixed requestedAt header.length)).length = 27 := by
    rw [ha.length_seal, (requestFixed_fields _ _).left]
    rfl
  have hlength : header.length % 65536 + 16
      ≤ (a.sealCombined (aes256Gcm (deriveSubkey psk reqSalt)) (makeNonce 1) [] header
        ++ rest).length := by
    rw [length_append, ha.length_seal, tagLen]
    omega
  rw [request, append_assoc, append_assoc] at ht
  unfold readRequest
  rw [exact_bind_append ht reqSalt.length_toList,
    exact_bind_append (items_skip_append ht reqSalt.length_toList) hfixed, skip_skip,
    toVector_toList, readFixedHeader_request ha hsecs hskew]
  have hitems := items_skip_append (items_skip_append ht reqSalt.length_toList) hfixed
  rw [skip_skip] at hitems
  rw [ofExcept_ok_bind, exact_bind, hitems, skip_skip, if_pos hlength]
  simp only [Effect.bind_eq_ok, Effect.pure_eq_ok, except_eq_ok]
  constructor
  . rintro ⟨⟨_, _⟩, _, ⟨hread, rfl⟩, heq, rfl⟩
    cases heq
    exact ⟨rfl, hread, rfl⟩
  . rintro ⟨rfl, hread, rfl⟩
    exact ⟨_, _, ⟨hread, rfl⟩, rfl, rfl⟩

end

theorem parseVariableHeader_build (hport : dest.port < 65536)
    (h : buildRequestVariableHeader dest initialPayload = .ok header)
    : parseVariableHeader header = .ok (dest, initialPayload) := by
  simp only [buildRequestVariableHeader, bind_eq_ok, pure_eq_ok] at h
  rcases h with ⟨address, haddress, rfl⟩
  rcases decodeSocks5Address_write hport haddress with ⟨atyp, front, rfl, hdecode⟩
  rw [cons_append, cons_append, append_assoc]
  have hdrop : (atyp :: (front ++ (toBigEndian 2 0 ++ initialPayload))).drop (1 + front.length)
      = toBigEndian 2 0 ++ initialPayload := by
    rw [Nat.add_comm, drop_succ_cons, drop_left]
  simp only [parseVariableHeader, hdecode, bind, Except.bind]
  have hpad : ofBigEndian ((toBigEndian 2 0 ++ initialPayload).take 2) = 0 := by
    rw [take_left' (length_toBigEndian 2 0), ofBigEndian_toBigEndian, Nat.zero_mod]
  rw [if_neg (by simp; omega), hdrop, hpad, if_neg (by simp; omega), Nat.add_zero, ← drop_drop,
    hdrop]
  rfl

theorem length_of_parseVariableHeader {data : Bytes}
    (h : parseVariableHeader data = .ok (dest, initialPayload))
    : initialPayload.length ≤ data.length := by
  cases data with
  | nil => cases h
  | cons atyp rest =>
    simp only [parseVariableHeader, bind_eq_ok] at h
    rcases h with ⟨⟨_, consumed⟩, _, h⟩
    split at h
    next => cases h
    split at h
    next => cases h
    cases h
    rw [length_drop]
    omega

def wireLen : Address → Nat
  | .ipv4 _ _ => 7
  | .ipv6 _ _ => 19
  | .domain name _ => 4 + (ofString name).length

theorem length_writeSocks5Address (h : writeSocks5Address dest = .ok bytes)
    : bytes.length = wireLen dest ∧ wireLen dest ≤ 259 := by
  cases dest with
  | ipv4 ip port =>
    cases h
    simp [wireLen]
  | ipv6 ip port =>
    cases h
    simp [wireLen]
  | domain name port =>
    simp only [writeSocks5Address, bind_eq_ok, pure_eq_ok] at h
    rcases h with ⟨len, hlen, rfl⟩
    have hname := toNat_of_domainWireLen hlen
    have hlt := len.toNat_lt
    simp [wireLen]
    omega

variable {filter : SaltReplay}

theorem readVariableHeader_eq_ok {c : Cipher} {p : Pending} {varCt : Bytes} {now : Nat}
    {request : Address × Bytes}
    : (readVariableHeader c filter p varCt now).fst = .ok request
      ↔ filter.inner p.salt = none
        ∧ ∃ header, c.decrypt p.subkey (makeNonce 1) varCt = some header
          ∧ parseVariableHeader header = .ok request := by
  unfold readVariableHeader SaltReplay.checkAndInsert
  cases c.decrypt p.subkey (makeNonce 1) varCt with
  | none => simp
  | some header =>
    cases hparse : parseVariableHeader header with
    | error e => simp [hparse]
    | ok r => cases hfilter : filter.inner p.salt <;> simp [hparse]

theorem decrypt_ofAead {subkey nonce ciphertext plaintext : Bytes}
    : (Cipher.ofAead a deriveSubkey).decrypt subkey nonce ciphertext = some plaintext
      ↔ a.openCombined (aes256Gcm (toVector 32 subkey)) nonce [] ciphertext = .ok plaintext := by
  unfold Cipher.ofAead
  dsimp only
  cases a.openCombined (aes256Gcm (toVector 32 subkey)) nonce [] ciphertext <;>
    simp [Except.toOption]

theorem readRequest_build_iff (ha : a.Lawful) (htidy : a.Tidy) {psk : Subkey} {reqSalt : Salt}
    {requestedAt fixedAt : Nat} {rest : Bytes} {t : Source UInt8 IoError}
    (hport : dest.port < 65536)
    (hheader : buildRequestVariableHeader dest initialPayload = .ok header)
    (ht : t.items = request a deriveSubkey psk reqSalt requestedAt header ++ rest)
    (hsecs : asSecs requestedAt < 2 ^ 64)
    (hskew : absDiff (asSecs requestedAt) (asSecs fixedAt) ≤ maxTimeDiff)
    (hfresh : filter.inner reqSalt = none) (variableAt : Nat) (pending : Pending)
    (t' : Source UInt8 IoError)
    : readRequest (.ofAead a deriveSubkey) (some psk.toList) filter fixedAt variableAt t
          = .ok (pending, dest, initialPayload) t'
      ↔ wireLen dest + 2 + initialPayload.length < 65536
        ∧ pending = ⟨reqSalt, (deriveSubkey psk reqSalt).toList, asSecs requestedAt, header.length⟩
        ∧ t' = t.skip (59 + (header.length + 16)) := by
  have hparse := parseVariableHeader_build hport hheader
  have hlength : header.length = wireLen dest + 2 + initialPayload.length ∧ wireLen dest ≤ 259 := by
    simp only [buildRequestVariableHeader, bind_eq_ok, pure_eq_ok] at hheader
    rcases hheader with ⟨address, haddress, rfl⟩
    rcases length_writeSocks5Address haddress with ⟨hwire, hle⟩
    simp [hwire, hle, Nat.add_assoc]
  have hvar : (a.sealCombined (aes256Gcm (deriveSubkey psk reqSalt)) (makeNonce 1) [] header).length
      = header.length + 16 := ha.length_seal _ _ _ _
  rw [readRequest_eq_ok ha hsecs hskew ht, ← hlength.left]
  constructor
  . rintro ⟨rfl, hread, rfl⟩
    by_cases hlong : header.length < 65536
    . rw [Nat.mod_eq_of_lt hlong]
      exact ⟨hlong, rfl, rfl⟩
    -- What opens is as long as the two bytes of the length tell, and too short for the payload.
    rcases readVariableHeader_eq_ok.mp hread with ⟨_, opened, hopen, hopened⟩
    have hle := length_of_parseVariableHeader hopened
    rw [decrypt_ofAead] at hopen
    have hseal := congrArg List.length (htidy.seal_open _ _ _ _ _ hopen)
    rw [ha.length_seal, length_take, length_append, hvar, tagLen] at hseal
    omega
  . rintro ⟨hlt, rfl, rfl⟩
    rw [Nat.mod_eq_of_lt hlt]
    refine ⟨rfl, ?_, rfl⟩
    rw [readVariableHeader_eq_ok, take_left' hvar]
    refine ⟨hfresh, header, ?_, hparse⟩
    rw [decrypt_ofAead, toVector_toList, ha.open_seal]

theorem ss2022_request_round_trip_iff (a : Aead) (ha : a.Lawful) (htidy : a.Tidy)
    (deriveSubkey : Subkey → Salt → Subkey) (psk : Subkey) (reqSalt : Salt) (dest : Address)
    (hport : dest.port < 65536) (initialPayload : Bytes) (requestedAt fixedAt variableAt : Nat)
    (hsecs : asSecs requestedAt < 2 ^ 64)
    (hskew : absDiff (asSecs requestedAt) (asSecs fixedAt) ≤ maxTimeDiff)
    (filter : SaltReplay) (hfresh : filter.inner reqSalt = none) (s s' : BoxedStream)
    (reqSubkey : Subkey)
    (hsent : sendRequest a deriveSubkey psk reqSalt dest initialPayload requestedAt s
      = .ok reqSubkey s')
    (t : Source UInt8 IoError) (rest : Bytes) (ht : s.outgoing ++ t.items = s'.outgoing ++ rest)
    : (∃ pending t',
        readRequest (.ofAead a deriveSubkey) (some psk.toList) filter fixedAt variableAt t
            = .ok (pending, dest, initialPayload) t'
          ∧ t'.items = rest
          ∧ ∀ (respSubkey : Subkey) (caps : List Nat) (script : Script UInt8 (StreamError Unit)),
            (∀ cap ∈ caps, 0 < cap) →
              let stream := Ss2022Stream.newBidir (toVector 32 pending.subkey) 2 respSubkey 2
                initialPayload none
              let seen := ((deframer a).run caps stream.reader script).flatMap shown
              (seen <+: initialPayload.map some ∨ initialPayload.map some <+: seen)
                ∧ (initialPayload.length ≤ caps.length → initialPayload.map some <+: seen))
      ↔ wireLen dest + 2 + initialPayload.length < 65536 := by
  rcases sendRequest_outgoing a deriveSubkey psk reqSalt hsent with ⟨_, header, hheader, hout⟩
  rw [hout, append_assoc, append_right_inj] at ht
  have hiff := readRequest_build_iff ha htidy hport hheader ht hsecs hskew hfresh variableAt
  constructor
  . rintro ⟨pending, t', hread, _⟩
    exact ((hiff _ _).mp hread).left
  . intro hlt
    refine ⟨_, _, (hiff _ _).mpr ⟨hlt, rfl, rfl⟩, ?_, ?_⟩
    . apply items_skip_append ht
      simp only [request, length_append, Vector.length_toList, ha.length_seal,
        (requestFixed_fields _ _).left, tagLen]
      omega
    . intro respSubkey caps script hcaps
      exact Deframer.run_avail _ (fun _ _ => rfl) hcaps _

-- What AES-256-GCM makes of the headers of a request with two bytes of payload.
def knownRequest : List KnownSeal :=
  [⟨aes256Gcm (knownSubkey (saltOf 7) (saltOf 1)), makeNonce 0,
      [0, 0, 0, 0, 0, 0, 0, 3, 232, 0, 11],
      [72, 80, 65, 121, 0, 80, 80, 84, 255, 1, 164, 240, 225, 49, 83, 166, 50, 253, 93, 234, 170,
       243, 235, 150, 138, 157, 99]⟩,
    ⟨aes256Gcm (knownSubkey (saltOf 7) (saltOf 1)), makeNonce 1,
      [1, 1, 2, 3, 4, 0, 80, 0, 0, 104, 105],
      [211, 29, 76, 9, 110, 64, 200, 57, 89, 168, 243, 204, 197, 113, 164, 12, 6, 48, 198, 1, 231,
       126, 136, 179, 2, 87, 190]⟩]

def sendKnown (initialPayload : Bytes) : Exchange Subkey :=
  sendRequest (.ofTable knownRequest) knownSubkey (saltOf 7) (saltOf 1) (.ipv4 0x01020304 80)
    initialPayload (1000 * nanosPerSec)

def readKnown : Reading (Pending × Address × Bytes) :=
  readRequest (.ofAead (.ofTable knownRequest) knownSubkey) (some (saltOf 7).toList) .new
    (1010 * nanosPerSec) (1011 * nanosPerSec)

theorem sendKnown_ok
    : ∃ reqSubkey s', sendKnown initialPayload (connectedTo []) = .ok reqSubkey s' := by
  apply sendRequest_ok
  . simp [Writable, connectedTo]
  . rfl

theorem ss2022_request_round_trip_iff_two
    : ∃ reqSubkey s' pending t', sendKnown [104, 105] (connectedTo []) = .ok reqSubkey s'
        ∧ readKnown (.ofSegments [s'.outgoing])
          = .ok (pending, .ipv4 0x01020304 80, [104, 105]) t' := by
  rcases sendKnown_ok with ⟨reqSubkey, s', hsent⟩
  have hiff := ss2022_request_round_trip_iff (.ofTable knownRequest)
    (Aead.lawful_ofTable knownRequest (by decide +kernel))
    (Aead.tidy_ofTable knownRequest (by decide +kernel)) knownSubkey (saltOf 7) (saltOf 1)
    (.ipv4 0x01020304 80) (by decide) [104, 105] (1000 * nanosPerSec) (1010 * nanosPerSec)
    (1011 * nanosPerSec) (by decide) (by decide) .new rfl (connectedTo []) s' reqSubkey hsent
    (.ofSegments [s'.outgoing]) [] (by simp [items_ofSegments, connectedTo])
  rcases hiff.mpr (by decide) with ⟨pending, t', hread, _⟩
  exact ⟨reqSubkey, s', pending, t', hsent, hread⟩

-- The variable header has 65536 bytes, and the two bytes of its length are zero.
theorem ss2022_loses_long_initial_payload
    : ∃ reqSubkey s', sendKnown (replicate 65527 0) (connectedTo []) = .ok reqSubkey s'
        ∧ ¬∃ pending t', readKnown (.ofSegments [s'.outgoing])
          = .ok (pending, .ipv4 0x01020304 80, replicate 65527 0) t' := by
  rcases sendKnown_ok with ⟨reqSubkey, s', hsent⟩
  refine ⟨reqSubkey, s', hsent, ?_⟩
  rcases sendRequest_outgoing _ _ _ _ hsent with ⟨_, header, hheader, hout⟩
  rintro ⟨pending, t', hread⟩
  have hlt := (readRequest_build_iff (Aead.lawful_ofTable knownRequest (by decide +kernel))
    (Aead.tidy_ofTable knownRequest (by decide +kernel)) (by decide) hheader
    (by rw [items_ofSegments, flatten_singleton, hout, append_nil]; rfl) (by decide)
    (by decide) rfl _ _ _).mp hread
  rw [length_replicate] at hlt
  exact absurd hlt.left (by decide)

end Blackwire.Ss2022
