import Blackwire.Transport.Reality.Impl.Tls13
import Blackwire.Lib.Fallible

/-!
This module contains the client side of the handshake, from the ServerHello to the application keys,
with its verification. The bytes that the server sends are given as a whole: a read that runs past
their end fails.
-/

namespace Blackwire.Reality

open Bytes

structure Client where
  helloBody : Bytes
  x25519Secret : Bytes
  p256Secret : Option Bytes
  authKey : Bytes

structure Server where
  sent : Bytes
  takesCcs : Bool
  takesFinished : Bool

def readRecordOrEof (input : Bytes) : Res (Record × Bytes) :=
  match readRecord input with
  | none => fail (.io .unexpectedEof)
  | some r => return r

variable (p : Primitives) (client : Client)

def keyAgreement (group : Nat) (serverPub : Bytes) : Res Bytes :=
  match group with
  | 29 =>
    if serverPub.length ≠ 32 then
      fail (.protocol ("ServerHello x25519 key_share length mismatch: "
        ++ toString serverPub.length))
    else
      return p.x25519 client.x25519Secret serverPub
  | 23 =>
    match client.p256Secret with
    | none =>
      fail (.protocol "ServerHello selected secp256r1 but client has no P-256 key share")
    | some secret =>
      match p.p256 secret serverPub with
      | .error e => fail (.protocol ("invalid secp256r1 ServerHello key_share: " ++ e))
      | .ok shared => return shared
  | other => fail (.protocol ("unsupported ServerHello key_share group " ++ hexPadded 4 other))

structure Session where
  cs : CipherSuite
  hsKeys : HsKeys
  transcript : Bytes
  rest : Bytes

def readServerHello (input : Bytes) : Res Session := do
  let (sh, rest) ← readRecordOrEof input
  if sh.type ≠ rtHandshake then
    fail (.protocol ("expected TLS Handshake (0x16), got " ++ hexPadded 2 sh.type.toNat
      ++ " — REALITY auth may have failed"))
  else
    let (cs, group, serverPub) ← parseServerHello sh.body
    let transcript := client.helloBody ++ sh.body
    let dhe ← keyAgreement p client group serverPub
    if dhe.length ≠ 32 then
      fail (.protocol "TLS key agreement secret length mismatch")
    else
      let hsKeys ← deriveHandshakeKeys p cs dhe (p.hash cs transcript)
      return ⟨cs, hsKeys, transcript, rest⟩

def handleMessage (p : Primitives) (cs : CipherSuite) (hsKeys : HsKeys) (authKey : Bytes)
    (state : Bytes × Bool) (msg : Message) : Res (Bytes × Bool) :=
  let (transcript, foundFinished) := state
  if msg.fst = hsCertificate then do
    let certDer ← parseCertificateMessageDer msg.snd
    verifyRealityCertHmac p authKey certDer
    return (transcript ++ msg.snd, foundFinished)
  else if msg.fst = hsEncryptedExtensions ∨ msg.fst = hsCertificateVerify then
    return (transcript ++ msg.snd, foundFinished)
  else if msg.fst = hsFinished then do
    let expected ← cs.hmac p hsKeys.serverFinishedKey (p.hash cs transcript)
    if msg.snd.drop 4 ≠ expected then
      fail (.protocol "server Finished HMAC mismatch")
    else
      return (transcript ++ msg.snd, true)
  else
    return state

def readFlight (p : Primitives) (cs : CipherSuite) (hsKeys : HsKeys) (authKey : Bytes)
    (fuel : Nat) (input transcript : Bytes) (srvSeq : Nat) : Res (Bytes × List Message) :=
  match fuel with
  | 0 => fail (.io .unexpectedEof)
  | fuel + 1 => do
    let (rec, rest) ← readRecordOrEof input
    if rec.type = rtChangeCipherSpec then
      readFlight p cs hsKeys authKey fuel rest transcript srvSeq
    else if rec.type = rtAlert then
      fail (.protocol ("TLS alert from server during handshake: level="
        ++ toString (byteAt rec.body 0) ++ " desc=" ++ toString (byteAt rec.body 1)))
    else if rec.type = rtApplicationData then
      let (inner, innerType) ←
        decryptAppRecord p cs hsKeys.serverKey hsKeys.serverIv srvSeq rec.body rec.header
      if innerType ≠ rtHandshake then
        readFlight p cs hsKeys authKey fuel rest transcript (srvSeq + 1)
      else
        let msgs := splitHandshakeMessages inner
        let (transcript, foundFinished) ←
          msgs.foldlM (handleMessage p cs hsKeys authKey) (transcript, false)
        if foundFinished then
          return (transcript, msgs)
        else
          let (transcript, later) ←
            readFlight p cs hsKeys authKey fuel rest transcript (srvSeq + 1)
          return (transcript, msgs ++ later)
    else
      fail (.protocol ("unexpected TLS record type " ++ hexPadded 2 rec.type.toNat
        ++ " during handshake"))

def finishHandshake (p : Primitives) (server : Server) (cs : CipherSuite) (hsKeys : HsKeys)
    (transcript : Bytes) : Res AppKeys := do
  let appTranscriptHash := p.hash cs transcript
  let appKeys ← deriveAppKeys p cs hsKeys.masterSecret appTranscriptHash
  if ¬ server.takesCcs then
    fail (.io .broken)
  else
    let verifyData ← cs.hmac p hsKeys.clientFinishedKey appTranscriptHash
    let finishedMsg := [hsFinished] ++ toBigEndian 3 verifyData.length ++ verifyData
    let _ ← encryptAppRecord p cs hsKeys.clientKey hsKeys.clientIv 0 finishedMsg rtHandshake
    if ¬ server.takesFinished then
      fail (.io .broken)
    else
      return appKeys

def completeTls13Handshake (server : Server)
    : Res (AppKeys × List Message) := do
  let s ← readServerHello p client server.sent
  let (transcript, msgs) ←
    readFlight p s.cs s.hsKeys client.authKey s.rest.length s.rest s.transcript 0
  let appKeys ← finishHandshake p server s.cs s.hsKeys transcript
  return (appKeys, msgs)

open Fallible List

def VerifiedCertificate (p : Primitives) (authKey : Bytes) (msg : Message) : Prop :=
  msg.fst = hsCertificate
    ∧ ∃ certDer, parseCertificateMessageDer msg.snd = .ok certDer
        ∧ verifyRealityCertHmac p authKey certDer = .ok ()

def Authenticated (p : Primitives) (authKey : Bytes) (msgs : List Message) : Prop :=
  ∃ before cert after, msgs = before ++ cert :: after
    ∧ VerifiedCertificate p authKey cert
    ∧ ∀ msg ∈ before, msg.fst ≠ hsFinished

def Plain (msg : Message) : Prop :=
  msg.fst ≠ hsCertificate ∧ msg.fst ≠ hsFinished

def kept (msgs : List Message) : Bytes :=
  (msgs.filter fun msg => msg.fst = hsEncryptedExtensions ∨ msg.fst = hsCertificateVerify).flatMap
    Prod.snd

inductive CertlessFlight (p : Primitives) (cs : CipherSuite) (hsKeys : HsKeys) (authKey : Bytes)
    : Bytes → Bytes → Nat → Bytes → Prop where
  | changeCipherSpec (input rest transcript : Bytes) (srvSeq : Nat) (final : Bytes) (rec : Record)
      (hrec : readRecord input = some (rec, rest)) (htype : rec.type = rtChangeCipherSpec)
      (hrest : CertlessFlight p cs hsKeys authKey rest transcript srvSeq final)
      : CertlessFlight p cs hsKeys authKey input transcript srvSeq final
  | otherContent (input rest transcript : Bytes) (srvSeq : Nat) (final : Bytes) (rec : Record)
      (inner : Bytes) (innerType : UInt8)
      (hrec : readRecord input = some (rec, rest)) (htype : rec.type = rtApplicationData)
      (hopen : decryptAppRecord p cs hsKeys.serverKey hsKeys.serverIv srvSeq rec.body rec.header
        = .ok (inner, innerType))
      (hinner : innerType ≠ rtHandshake)
      (hrest : CertlessFlight p cs hsKeys authKey rest transcript (srvSeq + 1) final)
      : CertlessFlight p cs hsKeys authKey input transcript srvSeq final
  | messages (input rest transcript : Bytes) (srvSeq : Nat) (final : Bytes) (rec : Record)
      (inner : Bytes)
      (hrec : readRecord input = some (rec, rest)) (htype : rec.type = rtApplicationData)
      (hopen : decryptAppRecord p cs hsKeys.serverKey hsKeys.serverIv srvSeq rec.body rec.header
        = .ok (inner, rtHandshake))
      (hplain : ∀ msg ∈ splitHandshakeMessages inner, Plain msg)
      (hrest : CertlessFlight p cs hsKeys authKey rest
        (transcript ++ kept (splitHandshakeMessages inner)) (srvSeq + 1) final)
      : CertlessFlight p cs hsKeys authKey input transcript srvSeq final
  | finished (input rest transcript : Bytes) (srvSeq : Nat) (final : Bytes) (rec : Record)
      (inner : Bytes) (before after : List Message) (fin : Message)
      (hrec : readRecord input = some (rec, rest)) (htype : rec.type = rtApplicationData)
      (hopen : decryptAppRecord p cs hsKeys.serverKey hsKeys.serverIv srvSeq rec.body rec.header
        = .ok (inner, rtHandshake))
      (hmsgs : splitHandshakeMessages inner = before ++ fin :: after)
      (hplain : ∀ msg ∈ before, Plain msg) (hfin : fin.fst = hsFinished)
      (hmac : cs.hmac p hsKeys.serverFinishedKey (p.hash cs (transcript ++ kept before))
        = .ok (fin.snd.drop 4))
      (hafter : after.foldlM (handleMessage p cs hsKeys authKey)
        (transcript ++ kept before ++ fin.snd, true) = .ok (final, true))
      : CertlessFlight p cs hsKeys authKey input transcript srvSeq final

section Messages

variable (p : Primitives) (cs : CipherSuite) {hsKeys : HsKeys} {authKey : Bytes}
  (msgs : List Message) (transcript : Bytes) (found : Bool)

variable (authKey) in
theorem authenticated_cons
    : Authenticated p authKey (msg :: msgs)
        ↔
      VerifiedCertificate p authKey msg
        ∨ (msg.fst ≠ hsFinished ∧ Authenticated p authKey msgs) := by
  constructor
  . rintro ⟨before, cert, after, hmsgs, hcert, hbefore⟩
    cases before with
    | nil =>
      rw [nil_append, List.cons.injEq] at hmsgs
      rw [hmsgs.left]
      exact Or.inl hcert
    | cons first before =>
      rw [cons_append, List.cons.injEq] at hmsgs
      rw [hmsgs.left]
      refine Or.inr ⟨hbefore first (by simp), before, cert, after, hmsgs.right, hcert, ?_⟩
      intro m hm
      apply hbefore
      exact mem_cons_of_mem _ hm
  . intro h
    cases h with
    | inl hcert => exact ⟨[], msg, msgs, rfl, hcert, by simp⟩
    | inr hlater =>
      rcases hlater with ⟨hfin, before, cert, after, hmsgs, hcert, hbefore⟩
      refine ⟨msg :: before, cert, after, by rw [hmsgs]; rfl, hcert, ?_⟩
      intro m hm
      rw [mem_cons] at hm
      cases hm with
      | inl heq =>
        rw [heq]
        exact hfin
      | inr hm => exact hbefore m hm

theorem authenticated_append_plain {before : List Message} {msgs : List Message}
    (h : ∀ msg ∈ before, Plain msg)
    : Authenticated p authKey (before ++ msgs) ↔ Authenticated p authKey msgs := by
  induction before with
  | nil => rfl
  | cons msg before ih =>
    have hplain := h msg (by simp)
    rw [cons_append, authenticated_cons, ih]
    . constructor
      . intro hor
        cases hor with
        | inl hcert => exact absurd hcert.left hplain.left
        | inr hlater => exact hlater.right
      . intro hlater
        exact Or.inr ⟨hplain.right, hlater⟩
    . intro m hm
      exact h m (mem_cons_of_mem _ hm)

theorem not_authenticated_finished {fin : Message} (h : fin.fst = hsFinished)
    : ¬ Authenticated p authKey (fin :: msgs) := by
  rw [authenticated_cons]
  intro hor
  cases hor with
  | inl hcert =>
    have := hcert.left
    rw [h] at this
    exact absurd this (by decide)
  | inr hlater => exact hlater.left h

theorem kept_cons
    : kept (msg :: msgs) = kept [msg] ++ kept msgs := by
  unfold kept
  by_cases h : msg.fst = hsEncryptedExtensions ∨ msg.fst = hsCertificateVerify <;> simp [h]

variable (authKey hsKeys) in
theorem handleMessage_plain {msg : Message} (h : Plain msg)
    : handleMessage p cs hsKeys authKey (transcript, found) msg
        = .ok (transcript ++ kept [msg], found) := by
  unfold handleMessage kept
  dsimp only
  rw [if_neg h.left]
  split
  . next hkept =>
    simp only [hkept, decide_true, filter_cons_of_pos, filter_nil, flatMap_cons,
      flatMap_nil, append_nil]
    rfl
  . next hkept =>
    rw [if_neg h.right]
    simp only [hkept, decide_false, Bool.false_eq_true, not_false_eq_true,
      filter_cons_of_neg, filter_nil, flatMap_nil, append_nil]
    rfl

theorem foldlM_plain (h : ∀ msg ∈ msgs, Plain msg)
    : msgs.foldlM (handleMessage p cs hsKeys authKey) (transcript, found)
        = .ok (transcript ++ kept msgs, found) := by
  induction msgs generalizing transcript with
  | nil =>
    simp only [kept, filter_nil, flatMap_nil, append_nil]
    rfl
  | cons msg msgs ih =>
    rw [foldlM_cons, handleMessage_plain p cs hsKeys authKey _ _ (h msg (by simp))]
    rw [kept_cons msgs, ← append_assoc]
    have hrest : ∀ m ∈ msgs, Plain m := by
      intro m hm
      exact h m (mem_cons_of_mem _ hm)
    exact ih (transcript ++ kept [msg]) hrest

theorem handleMessage_certificate {msg : Message}
    {state : Bytes × Bool} (hcert : msg.fst = hsCertificate)
    (h : handleMessage p cs hsKeys authKey (transcript, found) msg = .ok state)
    : VerifiedCertificate p authKey msg := by
  unfold handleMessage at h
  dsimp only at h
  rw [if_pos hcert, bind_eq_ok] at h
  rcases h with ⟨certDer, hder, hverify⟩
  rw [bind_eq_ok] at hverify
  rcases hverify with ⟨_, hverify, _⟩
  exact ⟨hcert, certDer, hder, hverify⟩

theorem handleMessage_finished {msg : Message} {state : Bytes × Bool} (hfin : msg.fst = hsFinished)
    : handleMessage p cs hsKeys authKey (transcript, found) msg = .ok state
        ↔
      cs.hmac p hsKeys.serverFinishedKey (p.hash cs transcript) = .ok (msg.snd.drop 4)
        ∧ state = (transcript ++ msg.snd, true) := by
  have hcert : ¬ msg.fst = hsCertificate := by
    rw [hfin]
    decide
  have hkept : ¬ (msg.fst = hsEncryptedExtensions ∨ msg.fst = hsCertificateVerify) := by
    rw [hfin]
    decide
  unfold handleMessage
  dsimp only
  rw [if_neg hcert, if_neg hkept, if_pos hfin, bind_eq_ok]
  constructor
  . rintro ⟨expected, hexpected, hstate⟩
    split at hstate
    . simp [fail] at hstate
    . next heq =>
      rw [ne_eq, not_not] at heq
      rw [pure_eq_ok] at hstate
      rw [heq]
      exact ⟨hexpected, hstate.symm⟩
  . rintro ⟨hexpected, hstate⟩
    refine ⟨_, hexpected, ?_⟩
    rw [if_neg (by simp), pure_eq_ok]
    exact hstate.symm

variable (authKey hsKeys) in
theorem handleMessage_found {transcript : Bytes} {found : Bool} {msg : Message}
    {state : Bytes × Bool}
    (h : handleMessage p cs hsKeys authKey (transcript, found) msg = .ok state)
    : state.snd = (found || msg.fst = hsFinished) := by
  by_cases hfin : msg.fst = hsFinished
  . rw [handleMessage_finished p cs _ _ hfin] at h
    simp [h.right, hfin]
  by_cases hcert : msg.fst = hsCertificate
  . unfold handleMessage at h
    dsimp only at h
    rw [if_pos hcert, bind_eq_ok] at h
    rcases h with ⟨_, _, h⟩
    rw [bind_eq_ok] at h
    rcases h with ⟨_, _, h⟩
    rw [pure_eq_ok] at h
    simp [← h, hfin]
  . rw [handleMessage_plain p cs hsKeys authKey _ _ ⟨hcert, hfin⟩] at h
    rw [Except.ok.injEq] at h
    simp [← h, hfin]

theorem foldlM_found
    (h : msgs.foldlM (handleMessage p cs hsKeys authKey) (transcript, found) = .ok state)
    : state.snd = (found || msgs.any fun msg => msg.fst = hsFinished) := by
  induction msgs generalizing transcript found with
  | nil =>
    rw [foldlM_nil, pure_eq_ok] at h
    simp [← h]
  | cons msg msgs ih =>
    rw [foldlM_cons, bind_eq_ok] at h
    rcases h with ⟨⟨mid, midFound⟩, hmid, hrest⟩
    have hfound := handleMessage_found p cs hsKeys authKey hmid
    dsimp only at hfound
    rw [ih mid midFound hrest, hfound, any_cons, Bool.or_assoc]

theorem foldlM_cases
    (h : msgs.foldlM (handleMessage p cs hsKeys authKey) (transcript, false) = .ok state)
    : Authenticated p authKey msgs
        ∨ ((∀ msg ∈ msgs, Plain msg) ∧ state = (transcript ++ kept msgs, false))
        ∨ ∃ before fin after, msgs = before ++ fin :: after
            ∧ (∀ msg ∈ before, Plain msg)
            ∧ fin.fst = hsFinished
            ∧ cs.hmac p hsKeys.serverFinishedKey (p.hash cs (transcript ++ kept before))
                = .ok (fin.snd.drop 4)
            ∧ after.foldlM (handleMessage p cs hsKeys authKey)
                (transcript ++ kept before ++ fin.snd, true) = .ok state := by
  induction msgs generalizing transcript with
  | nil =>
    rw [foldlM_nil, pure_eq_ok] at h
    apply Or.inr
    apply Or.inl
    rw [← h]
    simp [kept]
  | cons msg msgs ih =>
    rw [foldlM_cons, bind_eq_ok] at h
    rcases h with ⟨mid, hmid, hrest⟩
    by_cases hcert : msg.fst = hsCertificate
    . apply Or.inl
      rw [authenticated_cons]
      apply Or.inl
      exact handleMessage_certificate p cs transcript false hcert hmid
    . by_cases hfin : msg.fst = hsFinished
      . rw [handleMessage_finished p cs _ _ hfin] at hmid
        rw [hmid.right] at hrest
        apply Or.inr
        apply Or.inr
        refine ⟨[], msg, msgs, rfl, by simp, hfin, ?_, ?_⟩
        . simpa [kept] using hmid.left
        . simpa [kept] using hrest
      . have hplain : Plain msg := ⟨hcert, hfin⟩
        rw [handleMessage_plain p cs hsKeys authKey _ _ hplain, Except.ok.injEq] at hmid
        rw [← hmid] at hrest
        rcases ih _ hrest with
          hauth | hall | ⟨before, fin, after, hmsgs, hbefore, hfin', hmac, hafter⟩
        . apply Or.inl
          rw [authenticated_cons]
          exact Or.inr ⟨hfin, hauth⟩
        . apply Or.inr
          apply Or.inl
          refine ⟨forall_mem_cons.mpr ⟨hplain, hall.left⟩, ?_⟩
          rw [hall.right, kept_cons msgs, append_assoc]
        . apply Or.inr
          apply Or.inr
          refine ⟨msg :: before, fin, after, by rw [hmsgs]; rfl,
            forall_mem_cons.mpr ⟨hplain, hbefore⟩, hfin', ?_, ?_⟩
          . rw [kept_cons before, ← append_assoc]
            exact hmac
          . rw [kept_cons before, ← append_assoc]
            exact hafter

end Messages

section Flight

variable (p : Primitives) (cs : CipherSuite) (hsKeys : HsKeys) (authKey : Bytes)
  (input rest : Bytes) (rec : Record) (fuel : Nat)

theorem readRecord_length (h : readRecord input = some (rec, rest))
    : rest.length < input.length := by
  unfold readRecord at h
  split at h
  . simp at h
  dsimp only at h
  split at h
  . simp at h
  . simp only [Option.some.injEq, Prod.mk.injEq] at h
    rw [← h.right, length_drop, length_drop]
    omega

theorem readRecordOrEof_eq_ok
    : readRecordOrEof input = .ok (rec, rest) ↔ readRecord input = some (rec, rest) := by
  unfold readRecordOrEof
  split
  . next hnone => simp [hnone, fail]
  . next r hsome =>
    rw [hsome, pure_eq_ok, Option.some.injEq]

def EndsWith (next : Bytes → Res (Bytes × List Message)) (inner transcript : Bytes)
    (final : Bytes) (msgs : List Message) : Prop :=
  ∃ mid found,
    (splitHandshakeMessages inner).foldlM (handleMessage p cs hsKeys authKey) (transcript, false)
      = .ok (mid, found)
    ∧ ((found = true ∧ final = mid ∧ msgs = splitHandshakeMessages inner)
      ∨ (found = false ∧ ∃ later, next mid = .ok (final, later)
        ∧ msgs = splitHandshakeMessages inner ++ later))

theorem endsWith_iff (next : Bytes → Res (Bytes × List Message)) (inner transcript final : Bytes)
    (msgs : List Message)
    : (do
        let state ←
          (splitHandshakeMessages inner).foldlM (handleMessage p cs hsKeys authKey)
            (transcript, false)
        if state.snd then
          return (state.fst, splitHandshakeMessages inner)
        else
          let result ← next state.fst
          return (result.fst, splitHandshakeMessages inner ++ result.snd)) = .ok (final, msgs)
        ↔
      EndsWith p cs hsKeys authKey next inner transcript final msgs := by
  simp only [bind_eq_ok, Prod.exists]
  apply exists_congr
  intro mid
  apply exists_congr
  intro found
  apply and_congr_right
  intro _
  cases found with
  | true =>
    simp only [↓reduceIte, pure_eq_ok, Prod.mk.injEq, true_and, Bool.true_eq_false, false_and,
      or_false]
    constructor
    . intro h
      exact ⟨h.left.symm, h.right.symm⟩
    . intro h
      exact ⟨h.left.symm, h.right.symm⟩
  | false =>
    simp only [Bool.false_eq_true, ↓reduceIte, bind_eq_ok, Prod.exists, pure_eq_ok, Prod.mk.injEq,
      false_and, true_and, false_or]
    constructor
    . rintro ⟨t, later, hlater, ht, hmsgs⟩
      rw [ht] at hlater
      exact ⟨later, hlater, hmsgs.symm⟩
    . rintro ⟨later, hlater, hmsgs⟩
      exact ⟨final, later, hlater, rfl, hmsgs.symm⟩

theorem readFlight_succ_eq_ok (input transcript : Bytes) (srvSeq : Nat)
    (final : Bytes) (msgs : List Message)
    : readFlight p cs hsKeys authKey (fuel + 1) input transcript srvSeq = .ok (final, msgs)
        ↔
      ∃ rec rest, readRecord input = some (rec, rest)
        ∧ ((rec.type = rtChangeCipherSpec
            ∧ readFlight p cs hsKeys authKey fuel rest transcript srvSeq = .ok (final, msgs))
          ∨ (rec.type = rtApplicationData
            ∧ ∃ inner innerType,
                decryptAppRecord p cs hsKeys.serverKey hsKeys.serverIv srvSeq rec.body rec.header
                  = .ok (inner, innerType)
                ∧ ((innerType ≠ rtHandshake
                    ∧ readFlight p cs hsKeys authKey fuel rest transcript (srvSeq + 1)
                        = .ok (final, msgs))
                  ∨ (innerType = rtHandshake
                    ∧ EndsWith p cs hsKeys authKey
                      (readFlight p cs hsKeys authKey fuel rest · (srvSeq + 1))
                      inner transcript final msgs)))) := by
  rw [readFlight]
  simp only [bind_eq_ok, Prod.exists, readRecordOrEof_eq_ok]
  apply exists_congr
  intro rec
  apply exists_congr
  intro rest
  apply and_congr_right
  intro _
  have hdiff : rtApplicationData ≠ rtChangeCipherSpec := by decide
  have hdiff' : rtApplicationData ≠ rtAlert := by decide
  split
  . next hccs =>
    simp [hccs, hdiff.symm]
  . next hccs =>
    split
    . next halert =>
      rw [halert] at hccs
      simp [fail, hccs, halert, hdiff'.symm]
    . split
      . next happ =>
        simp only [happ, hdiff, false_and, false_or, true_and, bind_eq_ok, Prod.exists]
        apply exists_congr
        intro inner
        apply exists_congr
        intro innerType
        apply and_congr_right
        intro _
        split
        . next hinner => simp [hinner]
        . next hinner =>
          rw [ne_eq, not_not] at hinner
          simp only [hinner, ne_eq, not_true_eq_false, false_and, false_or, true_and]
          exact endsWith_iff p cs hsKeys authKey
            (readFlight p cs hsKeys authKey fuel rest · (srvSeq + 1)) inner transcript final msgs
      . next happ => simp [fail, hccs, happ]

theorem certlessFlight_of_readFlight (input transcript : Bytes) (srvSeq : Nat)
    (final : Bytes) (msgs : List Message)
    (h : readFlight p cs hsKeys authKey fuel input transcript srvSeq = .ok (final, msgs))
    (hauth : ¬ Authenticated p authKey msgs)
    : CertlessFlight p cs hsKeys authKey input transcript srvSeq final := by
  induction fuel generalizing input transcript srvSeq msgs with
  | zero => simp [readFlight, fail] at h
  | succ fuel ih =>
    rw [readFlight_succ_eq_ok] at h
    rcases h with ⟨rec, rest, hrec, ⟨htype, hrest⟩ | ⟨htype, inner, innerType, hopen, hcase⟩⟩
    . apply CertlessFlight.changeCipherSpec input rest transcript srvSeq final rec hrec htype
      exact ih rest transcript srvSeq msgs hrest hauth
    rcases hcase with ⟨hinner, hrest⟩ | ⟨hinner, mid, found, hfold, hend⟩
    . apply CertlessFlight.otherContent input rest transcript srvSeq final rec inner innerType
        hrec htype hopen hinner
      exact ih rest transcript (srvSeq + 1) msgs hrest hauth
    . rw [hinner] at hopen
      rcases foldlM_cases p cs _ _ hfold with
        hsplit | ⟨hplain, hstate⟩ | ⟨before, fin, after, hsplit, hbefore, hfin, hmac, hafter⟩
      -- A Certificate comes first in this record.
      . exfalso
        apply hauth
        rcases hend with ⟨_, _, hmsgs⟩ | ⟨_, later, _, hmsgs⟩
        . rw [hmsgs]
          exact hsplit
        rw [hmsgs]
        rcases hsplit with ⟨before, cert, after, hsplit, hcert, hbefore⟩
        refine ⟨before, cert, after ++ later, ?_, hcert, hbefore⟩
        rw [hsplit, append_assoc, cons_append]
      . rw [Prod.mk.injEq] at hstate
        rcases hend with ⟨htrue, _⟩ | ⟨_, later, hlater, hmsgs⟩
        . rw [hstate.right] at htrue
          simp at htrue
        rw [hmsgs, authenticated_append_plain p hplain] at hauth
        apply CertlessFlight.messages input rest transcript srvSeq final rec inner hrec htype
          hopen hplain
        rw [← hstate.left]
        exact ih rest mid (srvSeq + 1) later hlater hauth
      . have hfound := foldlM_found p cs after _ _ hafter
        dsimp only at hfound
        rcases hend with ⟨_, hfinal, _⟩ | ⟨hfalse, _⟩
        . rw [hfound, ← hfinal] at hafter
          exact CertlessFlight.finished input rest transcript srvSeq final rec inner before after
            fin hrec htype hopen hsplit hbefore hfin hmac hafter
        . rw [hfound] at hfalse
          simp at hfalse

theorem fuel_of_readRecord
    (hrec : readRecord input = some (rec, rest)) (hfuel : input.length ≤ fuel)
    : ∃ n, fuel = n + 1 ∧ rest.length ≤ n := by
  have hlen := readRecord_length input rest rec hrec
  cases fuel with
  | zero => omega
  | succ n => exact ⟨n, rfl, by omega⟩

theorem readFlight_of_certlessFlight {input transcript : Bytes} {srvSeq : Nat} {final : Bytes}
    (h : CertlessFlight p cs hsKeys authKey input transcript srvSeq final) (fuel : Nat)
    (hfuel : input.length ≤ fuel)
    : ∃ msgs, readFlight p cs hsKeys authKey fuel input transcript srvSeq = .ok (final, msgs)
        ∧ ¬ Authenticated p authKey msgs := by
  induction h generalizing fuel with
  | changeCipherSpec input rest transcript srvSeq final rec hrec htype _ ih =>
    rcases fuel_of_readRecord input rest rec fuel hrec hfuel with ⟨fuel, rfl, hrestFuel⟩
    rcases ih fuel hrestFuel with ⟨msgs, hrest, hauth⟩
    refine ⟨msgs, ?_, hauth⟩
    rw [readFlight_succ_eq_ok]
    exact ⟨rec, rest, hrec, Or.inl ⟨htype, hrest⟩⟩
  | otherContent input rest transcript srvSeq final rec inner innerType hrec htype hopen hinner _
      ih =>
    rcases fuel_of_readRecord input rest rec fuel hrec hfuel with ⟨fuel, rfl, hrestFuel⟩
    rcases ih fuel hrestFuel with ⟨msgs, hrest, hauth⟩
    refine ⟨msgs, ?_, hauth⟩
    rw [readFlight_succ_eq_ok]
    exact ⟨rec, rest, hrec, Or.inr ⟨htype, inner, innerType, hopen, Or.inl ⟨hinner, hrest⟩⟩⟩
  | messages input rest transcript srvSeq final rec inner hrec htype hopen hplain _ ih =>
    rcases fuel_of_readRecord input rest rec fuel hrec hfuel with ⟨fuel, rfl, hrestFuel⟩
    rcases ih fuel hrestFuel with ⟨later, hrest, hauth⟩
    refine ⟨splitHandshakeMessages inner ++ later, ?_, ?_⟩
    . rw [readFlight_succ_eq_ok]
      refine ⟨rec, rest, hrec, Or.inr ⟨htype, inner, rtHandshake, hopen, Or.inr ⟨rfl, ?_⟩⟩⟩
      refine ⟨_, false, foldlM_plain p cs _ _ _ hplain, Or.inr ⟨rfl, later, ?_⟩⟩
      exact ⟨hrest, rfl⟩
    . rw [authenticated_append_plain p hplain]
      exact hauth
  | finished input rest transcript srvSeq final rec inner before after fin hrec htype hopen hmsgs
      hplain hfin hmac hafter =>
    rcases fuel_of_readRecord input rest rec fuel hrec hfuel with ⟨fuel, rfl, _⟩
    refine ⟨splitHandshakeMessages inner, ?_, ?_⟩
    . rw [readFlight_succ_eq_ok]
      refine ⟨rec, rest, hrec, Or.inr ⟨htype, inner, rtHandshake, hopen, Or.inr ⟨rfl, ?_⟩⟩⟩
      refine ⟨final, true, ?_, Or.inl ⟨rfl, rfl, rfl⟩⟩
      rw [hmsgs, foldlM_append, bind_eq_ok]
      refine ⟨_, foldlM_plain p cs _ _ _ hplain, ?_⟩
      rw [foldlM_cons, bind_eq_ok]
      refine ⟨_, ?_, hafter⟩
      rw [handleMessage_finished p cs _ _ hfin]
      exact ⟨hmac, rfl⟩
    . rw [hmsgs, authenticated_append_plain p hplain]
      exact not_authenticated_finished p after hfin

end Flight

def AcceptedWithoutCertificate (p : Primitives) (client : Client) (server : Server) : Prop :=
  ∃ s final appKeys, readServerHello p client server.sent = .ok s
    ∧ CertlessFlight p s.cs s.hsKeys client.authKey s.rest s.transcript 0 final
    ∧ finishHandshake p server s.cs s.hsKeys final = .ok appKeys

theorem completeTls13Handshake_eq_ok (p : Primitives) (client : Client) (server : Server)
    (appKeys : AppKeys) (msgs : List Message)
    : completeTls13Handshake p client server = .ok (appKeys, msgs)
        ↔
      ∃ s final, readServerHello p client server.sent = .ok s
        ∧ readFlight p s.cs s.hsKeys client.authKey s.rest.length s.rest s.transcript 0
            = .ok (final, msgs)
        ∧ finishHandshake p server s.cs s.hsKeys final = .ok appKeys := by
  unfold completeTls13Handshake
  simp only [bind_eq_ok, Prod.exists, pure_eq_ok, Prod.mk.injEq]
  constructor
  . rintro ⟨s, hs, final, msgs', hflight, keys, hkeys, heq, hmsgs⟩
    rw [← heq, ← hmsgs]
    exact ⟨s, final, hs, hflight, hkeys⟩
  . rintro ⟨s, final, hs, hflight, hkeys⟩
    exact ⟨s, hs, final, msgs, hflight, appKeys, hkeys, rfl, rfl⟩

def plainPrimitives : Primitives where
  hash := fun cs data => Bytes.toBigEndian cs.hashLen data.length
  hmac := fun cs _ data => some (data.take cs.hashLen)
  hkdfExtract := fun cs _ _ => replicate cs.hashLen 0
  hkdfExpand := fun _ _ _ len => .ok (replicate len 0)
  aeadKeyOk := fun cs key => key.length = cs.keyLen
  aeadOpen := fun _ _ _ _ ct => if ct.length < 16 then none else some (ct.take (ct.length - 16))
  aeadSeal := fun _ _ _ _ msg => msg ++ replicate 16 0
  x25519 := fun _ serverPub => serverPub
  p256 := fun _ _ => .error "point"
  hmacSha512 := fun _ _ => .ok (replicate 64 0)
  parseX509 := fun _ => .error "certificate"

-- A ServerHello for the first suite and x25519, with a key share that the server chose itself.
def plainServerHello : Bytes :=
  [0x16, 0x03, 0x03, 0x00, 0x54, 0x02, 0x00, 0x00, 0x50, 0x03, 0x03]
    ++ replicate 32 0x05
    ++ [0x00, 0x13, 0x01, 0x00, 0x00, 0x28, 0x00, 0x33, 0x00, 0x24, 0x00, 0x1d, 0x00, 0x20]
    ++ replicate 32 0x09

def plainFinished : Bytes :=
  [0x17, 0x03, 0x03, 0x00, 0x35, 0x14, 0x00, 0x00, 0x20]
    ++ Bytes.toBigEndian 32 88
    ++ [0x16]
    ++ replicate 16 0x00

def plainServer : Server where
  sent := plainServerHello ++ plainFinished
  takesCcs := true
  takesFinished := true

-- What the client derives from the ServerHello with these primitives.
def plainSession : Session where
  cs := .aes128GcmSha256
  hsKeys := {
    clientKey := replicate 16 0
    clientIv := replicate 12 0
    clientFinishedKey := replicate 32 0
    serverKey := replicate 16 0
    serverIv := replicate 12 0
    serverFinishedKey := replicate 32 0
    masterSecret := replicate 32 0
  }
  transcript := [1, 0, 0, 0] ++ plainServerHello.drop 5
  rest := plainFinished

end Blackwire.Reality
