import Blackwire.Protocol.Ss2022.Handshake
import Blackwire.Protocol.Ss2022.Lemmas.Integrity

/-!
This module contains the verification of how the ends of an SS-2022 session use nonces: the seals of
an end are numbered from its handshake on, and the other end opens them by the same numbers.
-/

namespace Blackwire.Ss2022

open Bytes BoxedStream Exchange List Machine

def sealAll (a : Aead) (seals : List Sealing) : Bytes :=
  seals.flatMap fun x => a.sealCombined x.key x.nonce x.aad x.plaintext

-- The seals that `append_encrypted_chunk` makes.
def WriteHalf.seals (s : WriteHalf) (data : Bytes) : List Sealing :=
  match s.responseHeader with
  | some fixedHeader =>
    [⟨s.writeCipher, makeNonce s.writeCounter, [],
        fixedHeader.toList.take 41 ++ toBigEndian 2 data.length⟩,
      ⟨s.writeCipher, makeNonce (s.writeCounter + 1), [], data⟩]
  | none =>
    [⟨s.writeCipher, makeNonce s.writeCounter, [], toBigEndian 2 data.length⟩,
      ⟨s.writeCipher, makeNonce (s.writeCounter + 1), [], data⟩]

-- The seals of one end: the two headers of its handshake, and two fields for each chunk.
def session (key : AeadKey) (first second : Bytes) (chunks : List Bytes) : List Sealing :=
  ⟨key, makeNonce 0, [], first⟩ :: ⟨key, makeNonce 1, [], second⟩ :: sent key 2 chunks

section

variable (a : Aead) (key : AeadKey)

theorem appendEncryptedChunk_seals (s : WriteHalf) (data : Bytes)
    : (s.appendEncryptedChunk a data).snd = sealAll a (s.seals data) := by
  unfold WriteHalf.appendEncryptedChunk WriteHalf.seals
  cases s.responseHeader with
  | none => simp [sealAll]
  | some fixedHeader => simp [sealAll]

theorem sent_cons (start : Nat) (chunk : Bytes) (chunks : List Bytes)
    : sent key start (chunk :: chunks)
        = ⟨key, makeNonce start, [], toBigEndian 2 chunk.length⟩
          :: ⟨key, makeNonce (start + 1), [], chunk⟩ :: sent key (start + 2) chunks := by
  simp [sent, fields, mapIdx_cons, Nat.add_assoc, Nat.add_comm 2]

theorem sent_concat (start : Nat) (chunks : List Bytes) (chunk : Bytes)
    : sent key start (chunks ++ [chunk])
        = sent key start chunks
          ++ (⟨key, start + 2 * chunks.length, none⟩ : WriteHalf).seals chunk := by
  induction chunks generalizing start with
  | nil =>
    rw [nil_append, sent_cons]
    rfl
  | cons first chunks ih =>
    rw [cons_append, sent_cons, sent_cons, ih, length_cons,
      show start + 2 + 2 * chunks.length = start + 2 * (chunks.length + 1) by omega]
    rfl

theorem wires_chunkFrames (start : Nat) (chunks : List Bytes)
    : Frame.wires (chunkFrames a key start chunks) = sealAll a (sent key start chunks) := by
  induction chunks generalizing start with
  | nil => rfl
  | cons chunk chunks ih =>
    rw [sent_cons]
    simp only [chunkFrames, Frame.wires, sealAll, flatMap_cons, append_assoc]
    rw [← sealAll, ← ih]
    simp only [Frame.wires, lengthPart, dataPart]

theorem drop_sent (start : Nat) (hk : k ≤ chunks.length)
    : (sent key start chunks).drop (2 * k) = sent key (start + 2 * k) (chunks.drop k) := by
  induction k generalizing start chunks with
  | zero => rfl
  | succ k ih =>
    cases chunks with
    | nil => cases hk
    | cons chunk chunks =>
      rw [sent_cons, Nat.mul_succ, drop_succ_cons, drop_succ_cons, drop_succ_cons,
        ih (start + 2) (Nat.le_of_succ_le_succ hk), Nat.add_assoc, Nat.add_comm 2]

theorem nonce_session {first second : Bytes} {chunks : List Bytes} {i : Nat} {x : Sealing}
    (h : (session key first second chunks)[i]? = some x)
    : x.key = key ∧ x.nonce = makeNonce i := by
  match i with
  | 0 | 1 =>
    cases h
    exact ⟨rfl, rfl⟩
  | i + 2 =>
    simp only [session, getElem?_cons_succ, sent, getElem?_mapIdx, Option.map_eq_some_iff] at h
    rcases h with ⟨field, _, rfl⟩
    exact ⟨rfl, by rw [Nat.add_comm]⟩

variable {ε : Type} {key}

theorem session_of_reach
    (hw : Reach (Framer.Session.step ((framer a).logged WriteHalf.seals)) allowed
      (.new (⟨key, 2, none⟩, session key first second [])) w)
    : ∃ chunks, w.out.core = (⟨key, 2 + 2 * chunks.length, none⟩, session key first second chunks)
        ∧ w.out.received ++ w.out.queue = sealAll a (sent key 2 chunks) := by
  apply Framer.Session.sent_of_reach _ (fun core bytes => ∃ chunks,
    core = (⟨key, 2 + 2 * chunks.length, none⟩, session key first second chunks)
      ∧ bytes = sealAll a (sent key 2 chunks)) _ _ allowed w hw
  . exact ⟨[], rfl, rfl⟩
  . rintro core r chunk bytes _ ⟨chunks, rfl, rfl⟩
    refine ⟨chunks ++ [chunk], ?_, ?_⟩
    . unfold session
      rw [sent_concat, length_append]
      rfl
    . change
        _ ++ (WriteHalf.appendEncryptedChunk a ⟨key, 2 + 2 * chunks.length, none⟩ chunk).snd = _
      rw [appendEncryptedChunk_seals, sent_concat]
      exact flatMap_append.symm

variable {a} in
theorem readCounter_of_reach (ha : a.Lawful) {chunks : List Bytes}
    (hchunks : ∀ chunk ∈ chunks, chunk ≠ [] ∧ chunk.length < 65536) {initialRead : Bytes}
    {script : Script UInt8 (StreamError ε)} (hflowing : script.Flowing)
    (hscript : script.bytes <+: sealAll a (sent key 2 chunks))
    {t : ReadHalf × Script UInt8 (StreamError ε)}
    (ht : Reach (deframer a).readStep (fun _ cap => 0 < cap)
      (⟨key, 2, initialRead, []⟩, script) t)
    : ∃ k ≤ chunks.length, t.fst.readCounter = 2 + 2 * k
        ∧ t.fst.readRaw ++ t.snd.bytes <+: sealAll a ((sent key 2 chunks).drop (2 * k)) := by
  have hstart : Synced a key 2 chunks ⟨key, 2, initialRead, []⟩ (chunkFrames a key 2 chunks) :=
    ⟨rfl, 0, Nat.zero_le _, rfl, rfl⟩
  rw [← wires_chunkFrames] at hscript
  rcases (follows ha hchunks).ready_of_reach ⟨hstart, hflowing, hscript⟩ ht with
    ⟨frames, hsynced, _, hwire⟩
  rcases hsynced.frames with ⟨k, hk, hcounter, rfl⟩
  refine ⟨k, hk, hcounter, ?_⟩
  rw [wires_chunkFrames, hcounter] at hwire
  rw [drop_sent key 2 hk]
  exact hwire

end

-- The handshake has sent the salt and the first two seals, and the writer goes on behind them.
def HandsOver (a : Aead) (key : AeadKey) (salt : Salt) (s s' : BoxedStream) (stream : Ss2022Stream)
    : Prop :=
  (∃ first second,
      s'.outgoing = s.outgoing ++ (salt.toList ++ sealAll a (session key first second [])))
    ∧ stream.writer = ⟨⟨key, 2, none⟩, [], []⟩

section

theorem readResponse_outgoing (h : readResponse a deriveSubkey psk now s = .ok x s')
    : s'.outgoing = s.outgoing := by
  simp only [readResponse, Effect.bind_eq_ok, Effect.pure_eq_ok, readExact_eq_ok, ofExcept_eq_ok,
    refuse_eq_ok] at h
  rcases h with ⟨_, _, ⟨_, rfl, rfl⟩, _, _, ⟨_, rfl, rfl⟩, _, _, ⟨_, rfl⟩, _, _, ⟨_, rfl⟩, _, _,
    ⟨_, rfl⟩, _, _, ⟨_, rfl, rfl⟩, _, _, ⟨_, rfl⟩, _, rfl⟩
  rfl

theorem handsOver_open
    (h : openSs2022StreamWithInitialPayload a deriveSubkey psk reqSalt dest initialPayload
      requestedAt answeredAt s = .ok stream s')
    : HandsOver a (aes256Gcm (deriveSubkey psk reqSalt)) reqSalt s s' stream := by
  simp only [openSs2022StreamWithInitialPayload, Effect.bind_eq_ok, Effect.pure_eq_ok] at h
  rcases h with ⟨reqSubkey, t, hsent, response, t', hread, rfl, rfl⟩
  rcases sendRequest_outgoing a deriveSubkey psk reqSalt hsent with ⟨rfl, header, _, houtgoing⟩
  refine ⟨⟨requestFixed requestedAt header.length, header, ?_⟩, rfl⟩
  rw [readResponse_outgoing hread, houtgoing]
  simp [request, sealAll, session, sent, fields]

theorem handsOver_accept
    (h : sendResponse a deriveSubkey psk respSalt reqSalt now s = .ok respSubkey s')
    (reqSubkey : Subkey) (initialPayload : Bytes)
    : HandsOver a (aes256Gcm (deriveSubkey psk respSalt)) respSalt s s'
        (acceptStream reqSubkey respSubkey initialPayload) := by
  simp only [sendResponse, Effect.bind_eq_ok, Effect.pure_eq_ok, writeAll_eq_ok, flush] at h
  rcases h with ⟨_, _, ⟨_, rfl⟩, _, _, ⟨_, rfl⟩, _, _, ⟨_, rfl⟩, _, _, ⟨_, rfl⟩, rfl, rfl⟩
  refine ⟨⟨buildResponseFixedHeader reqSalt now, [], ?_⟩, rfl⟩
  simp [wrote, sealAll, session, sent, fields]

end

theorem ss2022_nonces {ε : Type} (a : Aead) (ha : a.Lawful)
    : (∀ deriveSubkey psk reqSalt dest initialPayload requestedAt answeredAt s stream s',
        openSs2022StreamWithInitialPayload a deriveSubkey psk reqSalt dest initialPayload
          requestedAt answeredAt s = .ok stream s' →
        HandsOver a (aes256Gcm (deriveSubkey psk reqSalt)) reqSalt s s' stream)
      ∧ (∀ deriveSubkey psk respSalt reqSalt now s respSubkey s',
        sendResponse a deriveSubkey psk respSalt reqSalt now s = .ok respSubkey s' →
        ∀ reqSubkey initialPayload,
          HandsOver a (aes256Gcm (deriveSubkey psk respSalt)) respSalt s s'
            (acceptStream reqSubkey respSubkey initialPayload))
      ∧ ∀ key first second,
        (∀ w, Reach (Framer.Session.step ((framer (ε := ε) a).logged WriteHalf.seals))
            (fun _ _ => True) (.new (⟨key, 2, none⟩, session key first second [])) w →
          ∃ chunks, w.out.core.snd = session key first second chunks
            ∧ w.out.received ++ w.out.queue = sealAll a ((session key first second chunks).drop 2))
        ∧ (∀ chunks i j x y, (session key first second chunks)[i]? = some x →
          (session key first second chunks)[j]? = some y →
            (x.nonce = y.nonce ↔ i % 2 ^ 64 = j % 2 ^ 64))
        ∧ ∀ chunks, (∀ chunk ∈ chunks, chunk ≠ [] ∧ chunk.length < 65536) →
          ∀ (script : Script UInt8 (StreamError ε)) initialRead, script.Flowing →
            script.bytes <+: sealAll a ((session key first second chunks).drop 2) →
            ∀ t, Reach (deframer a).readStep (fun _ cap => 0 < cap)
                (⟨key, 2, initialRead, []⟩, script) t →
              ∃ k ≤ chunks.length, t.fst.readCounter = 2 + 2 * k
                ∧ t.fst.readRaw ++ t.snd.bytes
                  <+: sealAll a ((session key first second chunks).drop (2 + 2 * k)) := by
  refine ⟨fun _ _ _ _ _ _ _ _ _ _ h => handsOver_open h,
    fun _ _ _ _ _ _ _ _ h => handsOver_accept h, fun key first second => ⟨?_, ?_, ?_⟩⟩
  . intro w hw
    rcases session_of_reach a hw with ⟨chunks, hcore, hbytes⟩
    exact ⟨chunks, congrArg Prod.snd hcore, hbytes⟩
  . intro chunks i j x y hx hy
    rw [(nonce_session key hx).right, (nonce_session key hy).right, makeNonce_eq_iff]
  . intro chunks hchunks script initialRead hflowing hscript t ht
    rcases readCounter_of_reach ha hchunks hflowing hscript ht with
      ⟨k, hk, hcounter, hwire⟩
    refine ⟨k, hk, hcounter, ?_⟩
    rw [Nat.add_comm, session, drop_succ_cons, drop_succ_cons]
    exact hwire

theorem ss2022_nonces_hello
    : let a := Aead.ofTable sealedHello
      let script : Script UInt8 (StreamError Unit) :=
        [.ready (.ok ((sealAll a (sent (aes256Gcm sevens) 2 [[104, 105], [33]])).take 40))]
      let t := [1, 1, 1].foldl (deframer a).readStep (⟨aes256Gcm sevens, 2, [], []⟩, script)
      t.fst.readCounter = 4 ∧ ∃ k ≤ 2, t.fst.readCounter = 2 + 2 * k := by
  intro a script t
  refine ⟨by decide +kernel, ?_⟩
  rcases ((ss2022_nonces a (Aead.lawful_ofTable sealedHello (by decide +kernel))).right.right
    (aes256Gcm sevens) [] []).right.right [[104, 105], [33]] (by decide) script []
    (by decide +kernel) (by decide +kernel) t
    (Reach.foldl _ [1, 1, 1] .start (by decide)) with ⟨k, hk, hcounter, _⟩
  exact ⟨k, hk, hcounter⟩

theorem exists_writeCounter {ε : Type} (ha : a.Lawful) (key : AeadKey) (n : Nat)
    : ∃ w, Reach (Framer.Session.step ((framer (ε := ε) a).logged WriteHalf.seals))
          (fun _ _ => True) (.new (⟨key, 2, none⟩, session key [] [] [])) w
        ∧ w.out.queue = [] ∧ w.out.core.fst.writeCounter = 2 + 2 * n := by
  induction n with
  | zero => exact ⟨_, .start, rfl, rfl⟩
  | succ n ih =>
    rcases ih with ⟨w, hw, hqueue, hcounter⟩
    rcases session_of_reach a hw with ⟨chunks, hcore, _⟩
    let bytes := a.sealCombined key (makeNonce (2 + 2 * chunks.length)) [] (toBigEndian 2 0)
      ++ a.sealCombined key (makeNonce (2 + 2 * chunks.length + 1)) [] []
    have hne : bytes ≠ [] := by
      intro hnil
      have hlength := congrArg List.length hnil
      simp [bytes, ha.length_seal, tagLen] at hlength
    have hwrite := Framer.pollWrite_at_once ((framer (ε := ε) a).logged WriteHalf.seals) w.out
      hqueue () [] _ bytes (by rw [hcore]; rfl) hne bytes.length (Nat.le_succ _)
    refine ⟨_, .step w (.write () [] [.ready (.ok (bytes.length + 1))]) hw trivial, ?_⟩
    dsimp only [Framer.Session.step]
    rw [hwrite]
    rw [hcore] at hcounter
    exact ⟨rfl, congrArg (· + 2) hcounter⟩

theorem ss2022_nonce_repeats
    : ∃ w, Reach (Framer.Session.step
            ((framer (ε := Unit) (Aead.ofTable [])).logged WriteHalf.seals)) (fun _ _ => True)
          (.new (⟨aes256Gcm sevens, 2, none⟩, session (aes256Gcm sevens) [] [] [])) w
        ∧ ∃ x y, w.out.core.snd[0]? = some x ∧ w.out.core.snd[2 ^ 64]? = some y
          ∧ x.nonce = y.nonce := by
  rcases exists_writeCounter (ε := Unit) (Aead.lawful_ofTable [] (by decide))
    (aes256Gcm sevens) (2 ^ 63) with ⟨w, hw, _, hcounter⟩
  rcases session_of_reach _ hw with ⟨chunks, hcore, _⟩
  rw [hcore] at hcounter
  have hlength : (session (aes256Gcm sevens) [] [] chunks).length = 2 + 2 * chunks.length := by
    simp [session, sent, length_fields]
    omega
  have hlast : 2 ^ 64 < (session (aes256Gcm sevens) [] [] chunks).length := by
    dsimp only at hcounter
    omega
  refine ⟨w, hw, ⟨aes256Gcm sevens, makeNonce 0, [], []⟩,
    (session (aes256Gcm sevens) [] [] chunks)[2 ^ 64], ?_, ?_, ?_⟩
  . rw [hcore]
    rfl
  . rw [hcore]
    exact getElem?_eq_getElem hlast
  . rw [(nonce_session _ (getElem?_eq_getElem hlast)).right, makeNonce_eq_iff]
    decide

end Blackwire.Ss2022
