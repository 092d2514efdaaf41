import Blackwire.Protocol.Ss2022.Stream

/-!
This module contains what an attacker who owns the stream below can do to a reader of the SS-2022
stream.
-/

namespace Blackwire.Ss2022

open Bytes
open List hiding Vector

def fields (chunks : List Bytes) : List Bytes :=
  chunks.flatMap fun chunk => [toBigEndian 2 chunk.length, chunk]

def sent (key : AeadKey) (start : Nat) (chunks : List Bytes) : List Sealing :=
  (fields chunks).mapIdx fun k field => ⟨key, makeNonce (start + k), [], field⟩

variable (chunks : List Bytes)

theorem getElem?_fields (i : Nat)
    : (fields chunks)[2 * i]? = chunks[i]?.map (fun chunk => toBigEndian 2 chunk.length)
      ∧ (fields chunks)[2 * i + 1]? = chunks[i]? := by
  induction chunks generalizing i with
  | nil => simp [fields]
  | cons chunk chunks ih =>
    cases i with
    | zero => exact ⟨rfl, rfl⟩
    | succ i => exact ih i

theorem length_fields : (fields chunks).length = 2 * chunks.length := by
  induction chunks with
  | nil => rfl
  | cons chunk chunks ih =>
    simp only [fields] at ih ⊢
    simp
    omega

theorem makeNonce_eq (n : Nat)
    : makeNonce n = (toBigEndian 8 n).reverse ++ replicate 4 0 := by
  unfold makeNonce toBigEndian
  rw [← map_reverse, reverse_reverse]

theorem makeNonce_eq_iff (m n : Nat) : makeNonce m = makeNonce n ↔ m % 2 ^ 64 = n % 2 ^ 64 := by
  have hmod (k : Nat) : ofBigEndian (toBigEndian 8 k) = k % 2 ^ 64 := ofBigEndian_toBigEndian 8 k
  rw [makeNonce_eq, makeNonce_eq, append_left_inj, reverse_inj, ← hmod, ← hmod]
  constructor
  . exact congrArg ofBigEndian
  . apply ofBigEndian_injective
    rw [length_toBigEndian, length_toBigEndian]

theorem makeNonce_injective (hm : m < 2 ^ 64) (hn : n < 2 ^ 64) (h : makeNonce m = makeNonce n)
    : m = n := by
  rw [makeNonce_eq_iff, Nat.mod_eq_of_lt hm, Nat.mod_eq_of_lt hn] at h
  exact h

variable {ε : Type} {a : Aead}

inductive Attempt (a : Aead) (s : ReadHalf)
    : ReadHalf × Option (Except (StreamError ε) Bytes) → Prop where
  | waits : Attempt a s (s, none)
  | unopened (e : Bytes) (message : String) (hlong : 18 ≤ s.readRaw.length)
      (hopen : a.openCombined s.readCipher (makeNonce s.readCounter) [] (s.readRaw.take 18)
        = .error e)
      : Attempt a s (s, some (.error (.invalidData message)))
  | ended (len raw : Bytes) (hlong : 18 ≤ s.readRaw.length)
      (hopen : a.openCombined s.readCipher (makeNonce s.readCounter) [] (s.readRaw.take 18)
        = .ok len)
      (hlen : ofBigEndian len = 0)
      : Attempt a s ({ s with readCounter := s.readCounter + 1, readRaw := raw }, some (.ok []))
  | corrupt (len raw : Bytes) (message : String) (hlong : 18 ≤ s.readRaw.length)
      (hopen : a.openCombined s.readCipher (makeNonce s.readCounter) [] (s.readRaw.take 18)
        = .ok len)
      : Attempt a s ({ s with readCounter := s.readCounter + 1, readRaw := raw },
        some (.error (.invalidData message)))
  | opened (len raw data plain : Bytes) (hlong : 18 ≤ s.readRaw.length)
      (hopen : a.openCombined s.readCipher (makeNonce s.readCounter) [] (s.readRaw.take 18)
        = .ok len)
      (hlen : ofBigEndian len ≠ 0)
      (hdata : a.openCombined s.readCipher (makeNonce (s.readCounter + 1)) [] data = .ok plain)
      : Attempt a s ({ s with readCounter := s.readCounter + 2, readRaw := raw },
        some (.ok plain))

theorem attempt_tryDecryptChunk (s : ReadHalf)
    : Attempt a s (s.tryDecryptChunk (ε := ε) a) := by
  unfold ReadHalf.tryDecryptChunk
  dsimp only
  split
  next => exact .waits
  next hlong =>
    have hlong : 18 ≤ s.readRaw.length := Nat.le_of_not_lt hlong
    cases hopen : a.openCombined s.readCipher (makeNonce s.readCounter) [] (s.readRaw.take 18) with
    | error e => exact .unopened e _ hlong hopen
    | ok len =>
      dsimp only
      split
      next hlen => exact .ended len _ hlong hopen hlen
      next hlen =>
        split
        next => exact .waits
        split
        next => exact .corrupt len _ _ hlong hopen
        next plain hdata => exact .opened len _ _ plain hlong hopen hlen hdata

-- Only the last chunk may be as long as the length field of a chunk is.
def Steady (chunks : List Bytes) : Prop :=
  ∀ chunk ∈ chunks.dropLast, chunk.length ≠ 2

instance (chunks : List Bytes) : Decidable (Steady chunks) :=
  inferInstanceAs (Decidable (∀ chunk ∈ chunks.dropLast, chunk.length ≠ 2))

theorem Steady.last {chunks : List Bytes} (h : Steady chunks) {i : Nat}
    (hchunk : chunks[i]? = some chunk) (hlength : chunk.length = 2) : i + 1 = chunks.length := by
  have hi : i < chunks.length := (List.getElem?_eq_some_iff.mp hchunk).fst
  apply Decidable.byContradiction
  intro hlast
  apply h chunk _ hlength
  apply mem_of_getElem? (i := i)
  rw [getElem?_dropLast, if_pos (by omega)]
  exact hchunk

structure Live (key : AeadKey) (start : Nat) (chunks : List Bytes) (s : ReadHalf) (plain : Bytes)
    : Prop where
  readCipher : s.readCipher = key
  position : ∃ i ≤ chunks.length, s.readCounter = start + 2 * i
    ∧ plain = s.readBuf ++ (chunks.drop i).flatten

inductive Shut (a : Aead) (start : Nat) (chunks : List Bytes) (s : ReadHalf) : Prop where
  | stuck (e : Bytes) (hlong : 18 ≤ s.readRaw.length)
      (hopen : a.openCombined s.readCipher (makeNonce s.readCounter) [] (s.readRaw.take 18)
        = .error e)
  | astray (i : Nat) (chunk : Bytes) (hchunk : chunks[i]? = some chunk)
      (hcounter : s.readCounter = start + (2 * i + 1))
  | behind (hcounter : s.readCounter = start + 2 * chunks.length)

structure Quiet (a : Aead) (key : AeadKey) (start : Nat) (chunks : List Bytes) (s : ReadHalf)
    : Prop where
  readCipher : s.readCipher = key
  readBuf : s.readBuf = []
  shut : Shut a start chunks s

theorem quiet_extend {start : Nat} {chunks : List Bytes} (s : ReadHalf) (segment : Bytes)
    (h : Quiet a key start chunks s)
    : Quiet a key start chunks ((deframer (ε := ε) a).extend s segment) := by
  refine ⟨h.readCipher, h.readBuf, ?_⟩
  cases h.shut with
  | stuck e hlong hopen =>
    apply Shut.stuck e
    . simp only [deframer, length_append]
      omega
    . simp only [deframer]
      rw [take_append_of_le_length hlong]
      exact hopen
  | astray i chunk hchunk hcounter => exact .astray i chunk hchunk hcounter
  | behind hcounter => exact .behind hcounter

section

variable {chunks : List Bytes} (hideal : a.Ideal (sent key start chunks ++ others))
  (hothers : ∀ r ∈ others, ∀ n, start ≤ n → n < 2 ^ 64 → r.nonce = makeNonce n → r.key ≠ key)
  (hroom : start + 2 * chunks.length < 2 ^ 64)

include hideal hothers hroom

theorem open_field (hj : j ≤ 2 * chunks.length)
    (hopen : a.openCombined key (makeNonce (start + j)) [] ciphertext = .ok plaintext)
    : (fields chunks)[j]? = some plaintext ∧ ciphertext.length = plaintext.length + 16 := by
  rcases hideal.open_sealed _ _ _ _ _ hopen with ⟨hmem, hciphertext⟩
  rw [mem_append] at hmem
  rcases hmem with hsent | hother
  . rcases mem_mapIdx.mp hsent with ⟨k, hk, hsealing⟩
    have hlength := length_fields chunks
    have hnonce := makeNonce_injective (by omega) (by omega)
      (congrArg Sealing.nonce hsealing)
    have hkj : k = j := by omega
    have hplaintext := congrArg Sealing.plaintext hsealing
    dsimp only at hplaintext
    subst hkj
    refine ⟨?_, ?_⟩
    . rw [getElem?_eq_getElem hk, hplaintext]
    . rw [hciphertext]
      exact hideal.length_seal _ _ _ _
  . exact absurd rfl (hothers _ hother (start + j) (by omega) (by omega) rfl)

theorem open_length (hi : i ≤ chunks.length) (hshort : ∀ chunk ∈ chunks, chunk.length < 65536)
    (hopen : a.openCombined key (makeNonce (start + 2 * i)) [] ciphertext = .ok len)
    : ∃ chunk, chunks[i]? = some chunk ∧ ofBigEndian len = chunk.length := by
  have hfield := (open_field hideal hothers hroom (by omega) hopen).left
  rw [(getElem?_fields _ _).left, Option.map_eq_some_iff] at hfield
  rcases hfield with ⟨chunk, hchunk, rfl⟩
  refine ⟨chunk, hchunk, ?_⟩
  rw [ofBigEndian_toBigEndian]
  apply Nat.mod_eq_of_lt
  exact hshort chunk (mem_of_getElem? hchunk)

theorem open_data (hi : i < chunks.length)
    (hopen : a.openCombined key (makeNonce (start + (2 * i + 1))) [] ciphertext = .ok plain)
    : chunks[i]? = some plain ∧ ciphertext.length = plain.length + 16 := by
  have hfield := open_field hideal hothers hroom (by omega) hopen
  rw [(getElem?_fields _ _).right] at hfield
  exact hfield

theorem not_open_behind
    : a.openCombined key (makeNonce (start + 2 * chunks.length)) [] ciphertext ≠ .ok plain := by
  intro hopen
  have hfield := (open_field hideal hothers hroom (Nat.le_refl _) hopen).left
  rw [(getElem?_fields _ _).left] at hfield
  simp at hfield

theorem Live.next (h : Live key start chunks s plain)
    (hshort : ∀ chunk ∈ chunks, chunk.length < 65536)
    (hopen : a.openCombined s.readCipher (makeNonce s.readCounter) [] ciphertext = .ok len)
    : ∃ i chunk, chunks[i]? = some chunk ∧ ofBigEndian len = chunk.length
        ∧ s.readCounter = start + 2 * i ∧ plain = s.readBuf ++ (chunks.drop i).flatten := by
  rcases h.position with ⟨i, hi, hcounter, hplain⟩
  rw [hcounter, h.readCipher] at hopen
  rcases open_length hideal hothers hroom hi hshort hopen with ⟨chunk, hchunk, hlength⟩
  exact ⟨i, chunk, hchunk, hlength, hcounter, hplain⟩

theorem live_decode (hshort : ∀ chunk ∈ chunks, chunk.length < 65536) (s : ReadHalf)
    (plain : Bytes) (h : Live key start chunks s plain)
    (havail : (deframer (ε := ε) a).avail s = [])
    : (∃ s', (deframer (ε := ε) a).decode s = (s', none) ∧ Live key start chunks s' plain
        ∧ (deframer (ε := ε) a).avail s' = [])
      ∨ (∃ s', (deframer (ε := ε) a).decode s = (s', some (.ok ()))
        ∧ (deframer (ε := ε) a).avail s' ≠ [] ∧ Live key start chunks s' plain)
      ∨ (∃ s' result, (deframer (ε := ε) a).decode s = (s', some result)
        ∧ Quiet a key start chunks s') := by
  have hbuf : s.readBuf = [] := havail
  have hattempt := attempt_tryDecryptChunk (ε := ε) (a := a) s
  simp only [deframer]
  generalize s.tryDecryptChunk (ε := ε) a = attempted at hattempt
  cases hattempt with
  | waits => exact .inl ⟨s, rfl, h, havail⟩
  | unopened e message hlong hopen =>
    exact .inr (.inr ⟨s, _, rfl, h.readCipher, hbuf, .stuck e hlong hopen⟩)
  | ended len raw hlong hopen hlen =>
    rcases h.next hideal hothers hroom hshort hopen with ⟨i, chunk, hchunk, _, hcounter, _⟩
    refine .inr (.inr ⟨_, _, rfl, h.readCipher, rfl, .astray i chunk hchunk ?_⟩)
    exact congrArg (· + 1) hcounter
  | corrupt len raw message hlong hopen =>
    rcases h.next hideal hothers hroom hshort hopen with ⟨i, chunk, hchunk, _, hcounter, _⟩
    refine .inr (.inr ⟨_, _, rfl, h.readCipher, hbuf, .astray i chunk hchunk ?_⟩)
    exact congrArg (· + 1) hcounter
  | opened len raw data opened hlong hopen hlen hdata =>
    rcases h.next hideal hothers hroom hshort hopen with
      ⟨i, chunk, hchunk, hlength, hcounter, hplain⟩
    have hi : i < chunks.length := (List.getElem?_eq_some_iff.mp hchunk).fst
    rw [hcounter, h.readCipher] at hdata
    have hopened := (open_data hideal hothers hroom hi hdata).left
    rw [hchunk] at hopened
    cases hopened
    refine .inr (.inl ⟨_, rfl, ?_, h.readCipher, i + 1, hi, ?_, ?_⟩)
    . rintro rfl
      exact hlen hlength
    . exact congrArg (· + 2) hcounter
    . rw [hplain, hbuf, drop_eq_getElem_cons hi, flatten_cons]
      rw [getElem?_eq_getElem hi, Option.some_inj] at hchunk
      rw [hchunk]
      rfl

variable (hsteady : Steady chunks)

include hsteady

theorem quiet_decode (s : ReadHalf) (h : Quiet a key start chunks s)
    : Quiet a key start chunks ((deframer (ε := ε) a).decode s).fst := by
  have hattempt := attempt_tryDecryptChunk (ε := ε) (a := a) s
  simp only [deframer]
  generalize s.tryDecryptChunk (ε := ε) a = attempted at hattempt
  -- A length field that opens is the data of the last chunk.
  have hlast (len : Bytes) (hlong : 18 ≤ s.readRaw.length)
      (hopen : a.openCombined s.readCipher (makeNonce s.readCounter) [] (s.readRaw.take 18)
        = .ok len)
      : s.readCounter + 1 = start + 2 * chunks.length := by
    cases h.shut with
    | stuck e _ hstuck =>
      rw [hstuck] at hopen
      cases hopen
    | astray i chunk hchunk hcounter =>
      have hi : i < chunks.length := (List.getElem?_eq_some_iff.mp hchunk).fst
      rw [hcounter, h.readCipher] at hopen
      rcases open_data hideal hothers hroom hi hopen with ⟨hdata, hlength⟩
      rw [length_take] at hlength
      have hend := hsteady.last hdata (by omega)
      omega
    | behind hcounter =>
      rw [hcounter, h.readCipher] at hopen
      exact absurd hopen (not_open_behind hideal hothers hroom)
  cases hattempt with
  | waits => exact h
  | unopened e message hlong hopen => exact ⟨h.readCipher, h.readBuf, .stuck e hlong hopen⟩
  | ended len raw hlong hopen hlen => exact ⟨h.readCipher, rfl, .behind (hlast len hlong hopen)⟩
  | corrupt len raw message hlong hopen =>
    exact ⟨h.readCipher, h.readBuf, .behind (hlast len hlong hopen)⟩
  | opened len raw data plain hlong hopen hlen hdata =>
    rw [hlast len hlong hopen, h.readCipher] at hdata
    exact absurd hdata (not_open_behind hideal hothers hroom)

theorem guarded (hshort : ∀ chunk ∈ chunks, chunk.length < 65536)
    : (deframer (ε := ε) a).Guarded (Live key start chunks) (Quiet a key start chunks) where
  avail s plain h := by
    rcases h.position with ⟨i, _, _, rfl⟩
    apply prefix_append
  consume s plain n h hn := by
    rcases h.position with ⟨i, hi, hcounter, rfl⟩
    refine ⟨h.readCipher, i, hi, hcounter, ?_⟩
    apply drop_append_of_le_length
    exact hn
  extend s plain segment h := ⟨⟨h.readCipher, h.position⟩, rfl⟩
  decode := live_decode hideal hothers hroom hshort
  quiet s h := h.readBuf
  extendQuiet := quiet_extend
  decodeQuiet := quiet_decode hideal hothers hroom hsteady

end

def sentChunks (w : Framer.Session WriteHalf Unit UInt8) : List Bytes :=
  (w.accepted ++ w.failed.toList).map Prod.snd

theorem flatten_sentChunks (w : Framer.Session WriteHalf Unit UInt8)
    : (sentChunks w).flatten = w.plain ++ w.lost := by
  unfold sentChunks Framer.Session.plain Framer.Session.lost
  rw [map_append, flatten_append, flatMap_def, flatMap_def]

theorem ss2022_integrity (a : Aead) (subkey : Subkey) (startNonce : Nat)
    (senderKey : Subkey) (senderNonce : Nat) (senderRead : Bytes) (receiverKey : Subkey)
    (receiverNonce : Nat) (initialRead : Bytes) (responseHeader : Option (Vector UInt8 43))
    (w : Framer.Session WriteHalf Unit UInt8)
    (hw : Machine.Reach (Framer.Session.step (framer (ε := ε) a)) (fun s e => s.enabled e = true)
      (.new (Ss2022Stream.newBidir senderKey senderNonce subkey startNonce senderRead
        none).writer.core)
      w)
    (others : List Sealing)
    (hideal : a.Ideal (sent (aes256Gcm subkey) startNonce (sentChunks w) ++ others))
    (hothers : ∀ r ∈ others, ∀ n, startNonce ≤ n → n < 2 ^ 64 → r.nonce = makeNonce n →
      r.key ≠ aes256Gcm subkey)
    (hroom : startNonce + 2 * (sentChunks w).length < 2 ^ 64) (hsteady : Steady (sentChunks w))
    (script : Script UInt8 (StreamError ε)) (hscript : script.Sound) (caps : List Nat)
    (hcaps : ∀ cap ∈ caps, 0 < cap)
    : let reads := (deframer a).run caps
        (Ss2022Stream.newBidir subkey startNonce receiverKey receiverNonce initialRead
          responseHeader).reader
        script
      beforeStop reads <+: initialRead ++ (w.plain ++ w.lost) ∧ SilentAfterError reads := by
  have hall := Framer.Session.chunks_of_reach _ (fun chunk => chunk.length < 65536) _
    (fun s r buf answers he => length_take_limit) w hw
  have hshort : ∀ chunk ∈ sentChunks w, chunk.length < 65536 := by
    unfold sentChunks
    rw [forall_mem_map]
    exact hall
  apply (guarded hideal hothers hroom hsteady hshort).run_guarded hcaps hscript
  refine ⟨rfl, 0, Nat.zero_le _, rfl, ?_⟩
  rw [drop_zero, flatten_sentChunks]
  rfl

-- What AES-256-GCM makes of a chunk of one byte and a chunk of two.
def sealedSteady : List KnownSeal :=
  [⟨aes256Gcm sevens, makeNonce 2, [0, 1],
      [57, 178, 131, 191, 229, 219, 249, 235, 43, 106, 88, 197, 31, 25, 218, 162, 240, 95]⟩,
    ⟨aes256Gcm sevens, makeNonce 3, [33],
      [173, 84, 214, 19, 172, 31, 44, 193, 111, 255, 186, 143, 212, 87, 62, 11, 188]⟩,
    ⟨aes256Gcm sevens, makeNonce 4, [0, 2],
      [81, 191, 195, 238, 76, 173, 104, 189, 226, 133, 153, 22, 114, 189, 219, 253, 179, 251]⟩,
    ⟨aes256Gcm sevens, makeNonce 5, [104, 105],
      [102, 129, 169, 152, 35, 29, 178, 132, 138, 43, 189, 179, 174, 209, 60, 126, 172, 133]⟩]

def steadyWrites : List (Framer.Event Unit UInt8 (StreamError Unit)) :=
  [.write () [33] [.ready (.ok 35)], .write () [104, 105] [.ready (.ok 36)]]

-- The second length field is forged, and everything is sent once more.
theorem ss2022_integrity_forged
    : let a := Aead.onlyTable sealedSteady
      let w := steadyWrites.foldl (Framer.Session.step (framer a))
        (.new ⟨aes256Gcm sevens, 2, none⟩)
      let script : Script UInt8 (StreamError Unit) :=
        [.ready (.ok (w.out.received.take 40)), .ready (.ok (replicate 30 0)),
          .ready (.ok w.out.received)]
      let reads := (deframer a).run [16, 16, 16] ⟨aes256Gcm sevens, 2, [], []⟩ script
      beforeStop reads = [33] ∧ beforeStop reads <+: [33, 104, 105] ∧ SilentAfterError reads := by
  refine ⟨by decide +kernel, ?_⟩
  have hideal := Aead.ideal_onlyTable sealedSteady (by decide +kernel) (by decide +kernel)
  apply ss2022_integrity (Aead.onlyTable sealedSteady) sevens 2 sevens 2 [] sevens 2 [] none
    (steadyWrites.foldl _ _) (Machine.Reach.foldl _ steadyWrites .start (by decide +kernel)) []
  . exact hideal
  . simp
  . decide +kernel
  . decide +kernel
  . intro e he
    simp at he
  . decide

-- What AES-256-GCM makes of a chunk of two bytes and a chunk of one.
def sealedTwoBytes : List KnownSeal :=
  [⟨aes256Gcm sevens, makeNonce 2, [0, 2],
      [57, 177, 80, 138, 216, 52, 13, 55, 51, 84, 4, 90, 192, 217, 102, 95, 188, 62]⟩,
    ⟨aes256Gcm sevens, makeNonce 3, [0, 2],
      [140, 191, 167, 129, 9, 226, 16, 169, 94, 28, 18, 242, 109, 226, 200, 230, 233, 8]⟩,
    ⟨aes256Gcm sevens, makeNonce 4, [0, 1],
      [81, 188, 16, 219, 113, 66, 156, 97, 250, 187, 197, 137, 173, 125, 103, 0, 255, 154]⟩,
    ⟨aes256Gcm sevens, makeNonce 5, [97],
      [111, 212, 160, 70, 77, 90, 101, 14, 189, 128, 145, 84, 185, 137, 139, 38, 112]⟩]

def twoBytes : List (Framer.Event Unit UInt8 (StreamError Unit)) :=
  [.write () [0, 2] [.ready (.ok 36)], .write () [97] [.ready (.ok 35)]]

theorem ss2022_reads_after_error
    : let a := Aead.onlyTable sealedTwoBytes
      let w := twoBytes.foldl (Framer.Session.step (framer a)) (.new ⟨aes256Gcm sevens, 2, none⟩)
      let script : Script UInt8 (StreamError Unit) :=
        [.ready (.ok (w.out.received.take 18 ++ replicate 18 0
          ++ (w.out.received.drop 18).take 36))]
      let reads := (deframer a).run [16, 16] ⟨aes256Gcm sevens, 2, [], []⟩ script
      a.Ideal (sent (aes256Gcm sevens) 2 (sentChunks w)) ∧ w.plain = [0, 2, 97]
        ∧ reads = [.ready (.error (.invalidData "SS-2022: data chunk decryption failed")),
          .ready (.ok [0, 1])]
        ∧ ¬SilentAfterError reads := by
  have hideal := Aead.ideal_onlyTable sealedTwoBytes (by decide +kernel) (by decide +kernel)
  have hbroken (message : String) (reads : List (Poll (Except (StreamError Unit) Bytes)))
      (hreads : reads = [.ready (.error (.invalidData message)), .ready (.ok [0, 1])])
      : ¬SilentAfterError reads := by
    rw [hreads]
    intro hsilent
    simpa using hsilent [0, 1] (by simp)
  refine ⟨hideal, ?_, ?_, hbroken "SS-2022: data chunk decryption failed" _ ?_⟩
  . decide +kernel
  . decide +kernel
  . decide +kernel

end Blackwire.Ss2022
