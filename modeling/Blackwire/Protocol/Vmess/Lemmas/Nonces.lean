import Mathlib.Data.List.Nodup
import Blackwire.Protocol.Vmess.Stream

/-!
This module contains the verification of how the two ends of a VMess session use nonces.
-/

namespace Blackwire.Vmess

open Bytes Machine
open List hiding Vector

variable {ε : Type}

theorem chunkNonce_eq_iff (i j : Nat) (iv : Vector UInt8 16)
    : chunkNonce (UInt16.ofNat i) iv = chunkNonce (UInt16.ofNat j) iv ↔ i % 65536 = j % 65536 := by
  have hnat (n : Nat) : (UInt16.ofNat n).toNat = n % 65536 := UInt16.toNat_ofNat'
  unfold chunkNonce
  rw [append_left_inj, hnat, hnat]
  constructor
  . intro heq
    have hvalue := congrArg ofBigEndian heq
    rw [ofBigEndian_toBigEndian, ofBigEndian_toBigEndian] at hvalue
    omega
  . intro heq
    rw [heq]

def Body.usesAt (b : Body) (i : Nat) : List SealUse :=
  b.sizeCipher.toList.flatMap (BodyCipher.uses .length i (chunkNonce (UInt16.ofNat i) b.sizeIv))
    ++ b.cipher.uses .payload i (chunkNonce (UInt16.ofNat i) b.iv)

structure Counted (b : Body) (t : WriteHalf) : Prop where
  cipher : t.body.cipher = b.cipher
  iv : t.body.iv = b.iv
  sizeCipher : t.body.sizeCipher = b.sizeCipher
  sizeIv : t.body.sizeIv = b.sizeIv
  counter : t.body.counter = UInt16.ofNat t.chunks
  sizeCounter : t.body.sizeCipher.isSome = true → t.body.sizeCounter = UInt16.ofNat t.chunks
  uses : t.uses = (range t.chunks).flatMap b.usesAt

variable {b b' : Body}

theorem sizeCounter_appendSize (happend : b.appendSize (ε := ε) a h size = .ok (b', field))
    (hsome : b.sizeCipher.isSome = true)
    : b'.sizeCounter = b.sizeCounter + 1 := by
  unfold Body.appendSize at happend
  split at happend
  . cases happend
  split at happend
  . split at happend
    . cases happend
    split at happend
    . cases happend
    . cases happend
      rfl
  . next hnone =>
    rw [hnone] at hsome
    cases hsome

theorem sizeCounter_nextPaddingLen (b : Body)
    : (b.nextPaddingLen h).fst.sizeCounter = b.sizeCounter := by
  unfold Body.nextPaddingLen
  split
  . rfl
  . split
    . rfl
    . rfl

theorem ofNat_succ (n : Nat) : UInt16.ofNat n + 1 = UInt16.ofNat (n + 1) := by
  rw [UInt16.ofNat_add]
  rfl

theorem Counted.usesOf (hcounted : Counted b t) : t.body.usesOf t.chunks = b.usesAt t.chunks := by
  have hsizeCounter := hcounted.sizeCounter
  unfold Body.usesOf Body.usesAt
  rw [hcounted.cipher, hcounted.iv, hcounted.sizeIv, hcounted.counter]
  rw [hcounted.sizeCipher] at hsizeCounter ⊢
  cases hsize : b.sizeCipher with
  | none => rfl
  | some cipher =>
    rw [hsizeCounter (by rw [hsize]; rfl)]

theorem Counted.append (hcounted : Counted b t) (hdata : data.length ≤ maxChunkSize)
    : Counted b (t.appendEncryptedChunk (ε := ε) a h random data).fst := by
  rcases exists_sized (ε := ε) (a := a) (h := h) t.body hdata with
    ⟨paddingLen, field, b', hsized⟩
  have halike := hsized.alike
  rw [hsized.append_eq t.chunks t.uses random]
  refine ⟨?_, ?_, ?_, ?_, ?_, ?_, ?_⟩
  . exact halike.cipher.trans hcounted.cipher
  . exact halike.iv.trans hcounted.iv
  . exact halike.sizeCipher.trans hcounted.sizeCipher
  . exact halike.sizeIv.trans hcounted.sizeIv
  . change b'.counter + 1 = _
    rw [halike.counter, hcounted.counter, ofNat_succ]
  . intro hsome
    change b'.sizeCounter = _
    have hsome' : t.body.sizeCipher.isSome = true := by
      rw [← halike.sizeCipher]
      exact hsome
    rw [sizeCounter_appendSize hsized.field
      (by rw [t.body.nextPaddingLen_alike.sizeCipher]; exact hsome'),
      sizeCounter_nextPaddingLen, hcounted.sizeCounter hsome', ofNat_succ]
  . dsimp only
    rw [range_succ, flatMap_append, ← hcounted.uses, hcounted.usesOf]
    simp

theorem counted_of_reach (hcounter : b.counter = 0) (hsizeCounter : b.sizeCounter = 0)
    (hs : Reach (Framer.Session.step (framer a h)) allowed (.new ⟨b, 0, []⟩) s)
    : Counted b s.out.core := by
  apply Framer.Session.sent_of_reach _ (fun t _ => Counted b t) _ _ allowed s hs
  . exact ⟨rfl, rfl, rfl, rfl, hcounter, fun _ => hsizeCounter, rfl⟩
  . intro t random data sent hdata hcounted
    exact hcounted.append hdata

inductive End where
  | client
  | server
deriving DecidableEq

abbrev Writing := Framer.Session WriteHalf (Nat → UInt8) UInt8

def allUses (client server : Writing) : List (End × SealUse) :=
  client.out.core.uses.map (End.client, ·) ++ server.out.core.uses.map (End.server, ·)

def label (use : End × SealUse) : End × SealKind × Nat :=
  (use.fst, use.snd.kind, use.snd.chunk)

def cipherFor (h : Hashes) (key : Vector UInt8 16) (security : Security)
    : End → SealKind → BodyCipher
  | _, .length => .new h security (kdf h key.toList [ofString "auth_len"])
  | .client, .payload => .new h security key
  | .server, .payload => .new h security (responseBodyKey h key)

def ivFor (h : Hashes) (iv : Vector UInt8 16) : End → SealKind → Vector UInt8 16
  | _, .length => iv
  | .client, .payload => iv
  | .server, .payload => responseBodyIv h iv

structure KeysDiffer (h : Hashes) (key : Vector UInt8 16) (security : Security) : Prop where
  payload : cipherFor h key security .client .payload ≠ cipherFor h key security .server .payload
  client : cipherFor h key security .client .payload ≠ cipherFor h key security .client .length
  server : cipherFor h key security .server .payload ≠ cipherFor h key security .server .length

theorem KeysDiffer.eq_iff (hkeys : KeysDiffer h key security) (x y : End) (kind kind' : SealKind)
    : cipherFor h key security x kind = cipherFor h key security y kind'
        ↔ kind = kind' ∧ (kind = .length ∨ x = y) := by
  cases kind with
  | length =>
    cases kind' with
    | length => simp [cipherFor]
    | payload =>
      cases y with
      | client => simpa [cipherFor] using hkeys.client.symm
      | server => simpa [cipherFor] using hkeys.server.symm
  | payload =>
    cases kind' with
    | length =>
      cases x with
      | client => simpa [cipherFor] using hkeys.client
      | server => simpa [cipherFor] using hkeys.server
    | payload =>
      cases x with
      | client =>
        cases y with
        | client => simp
        | server => simpa using hkeys.payload
      | server =>
        cases y with
        | client => simpa using hkeys.payload.symm
        | server => simp

def startBody (h : Hashes) (key iv : Vector UInt8 16) (security : Security) (options : UInt8)
    : End → Body
  | .client => (VmessStream.client h key iv security options).writer.core.body
  | .server => (VmessStream.server h key iv security options).writer.core.body

theorem mem_uses {c : BodyCipher} (huse : use ∈ c.uses kind i nonce)
    : use.kind = kind ∧ use.chunk = i ∧ c = .aead use.key ∧ use.nonce = nonce := by
  cases c with
  | aead key =>
    cases mem_singleton.mp huse
    exact ⟨rfl, rfl, rfl, rfl⟩
  | none => cases huse

theorem mem_usesAt {key iv : Vector UInt8 16}
    (huse : use ∈ (startBody h key iv security options x).usesAt i)
    : use.chunk = i ∧ cipherFor h key security x use.kind = .aead use.key
        ∧ use.nonce = chunkNonce (UInt16.ofNat i) (ivFor h iv x use.kind) := by
  rcases mem_append.mp huse with hlength | hpayload
  . rcases mem_flatMap.mp hlength with ⟨c, hc, hin⟩
    rcases mem_uses hin with ⟨hkind, hchunk, hcipher, hnonce⟩
    have hsize : c = .new h security (kdf h key.toList [ofString "auth_len"]) := by
      rw [Option.mem_toList] at hc
      cases x with
      | client =>
        change (if _ then _ else _) = _ at hc
        split at hc
        . cases hc
          rfl
        . cases hc
      | server =>
        change (if _ then _ else _) = _ at hc
        split at hc
        . cases hc
          rfl
        . cases hc
    refine ⟨hchunk, ?_, ?_⟩
    . rw [hkind, ← hcipher, hsize]
      cases x with
      | client => rfl
      | server => rfl
    . rw [hkind, hnonce]
      cases x with
      | client => rfl
      | server => rfl
  . rcases mem_uses hpayload with ⟨hkind, hchunk, hcipher, hnonce⟩
    refine ⟨hchunk, ?_, ?_⟩
    . rw [hkind, ← hcipher]
      cases x with
      | client => rfl
      | server => rfl
    . rw [hkind, hnonce]
      cases x with
      | client => rfl
      | server => rfl

theorem nodup_usesAt
    : ((b.usesAt i).map fun use => (use.kind, use.chunk)).Nodup := by
  unfold Body.usesAt
  cases b.sizeCipher with
  | none =>
    cases b.cipher with
    | none => simp [BodyCipher.uses]
    | aead key => simp [BodyCipher.uses]
  | some c =>
    cases b.cipher with
    | none =>
      cases c with
      | none => simp [BodyCipher.uses]
      | aead key => simp [BodyCipher.uses]
    | aead key =>
      cases c with
      | none => simp [BodyCipher.uses]
      | aead key => simp [BodyCipher.uses]

theorem chunk_of_mem {b : Body} (huse : use ∈ b.usesAt i)
    : use.chunk = i := by
  rcases mem_append.mp huse with hlength | hpayload
  . rcases mem_flatMap.mp hlength with ⟨c, _, hin⟩
    exact (mem_uses hin).right.left
  . exact (mem_uses hpayload).right.left

theorem nodup_labels (hcounted : Counted b t)
    : ((t.uses.map (x, ·)).map label).Nodup := by
  have hpairs : (t.uses.map fun use => (use.kind, use.chunk)).Nodup := by
    rw [hcounted.uses, map_flatMap, nodup_flatMap]
    refine ⟨fun i _ => nodup_usesAt, ?_⟩
    apply nodup_range.imp
    intro i j hne pair hi hj
    rcases mem_map.mp hi with ⟨use, huse, rfl⟩
    rcases mem_map.mp hj with ⟨use', huse', heq⟩
    have hchunk := congrArg Prod.snd heq
    rw [chunk_of_mem huse, chunk_of_mem huse'] at hchunk
    exact hne hchunk.symm
  have hmap : (t.uses.map (x, ·)).map label
      = (t.uses.map fun use => (use.kind, use.chunk)).map (x, ·) := by
    rw [map_map, map_map]
    rfl
  rw [hmap]
  apply hpairs.map
  intro pair pair' heq
  exact congrArg Prod.snd heq

theorem nodup_allUses (hclient : Counted b client.out.core) (hserver : Counted b' server.out.core)
    : ((allUses client server).map label).Nodup := by
  unfold allUses
  rw [map_append, nodup_append]
  refine ⟨nodup_labels hclient, nodup_labels hserver, ?_⟩
  intro l hl l' hl' heq
  rcases mem_map.mp hl with ⟨x, hx, rfl⟩
  rcases mem_map.mp hl' with ⟨y, hy, rfl⟩
  rcases mem_map.mp hx with ⟨use, _, rfl⟩
  rcases mem_map.mp hy with ⟨use', _, rfl⟩
  cases congrArg Prod.fst heq

theorem facts_of_mem
    (hclient : Counted (startBody h key iv security options .client) client.out.core)
    (hserver : Counted (startBody h key iv security options .server) server.out.core)
    (hx : x ∈ allUses client server)
    : cipherFor h key security x.fst x.snd.kind = .aead x.snd.key
        ∧ x.snd.nonce = chunkNonce (UInt16.ofNat x.snd.chunk) (ivFor h iv x.fst x.snd.kind) := by
  have hmem (e : End) (t : WriteHalf) (ht : Counted (startBody h key iv security options e) t)
      (hin : x ∈ t.uses.map (e, ·))
      : cipherFor h key security x.fst x.snd.kind = .aead x.snd.key
        ∧ x.snd.nonce = chunkNonce (UInt16.ofNat x.snd.chunk) (ivFor h iv x.fst x.snd.kind) := by
    rcases mem_map.mp hin with ⟨use, huse, rfl⟩
    rw [ht.uses] at huse
    rcases mem_flatMap.mp huse with ⟨i, _, hi⟩
    rcases mem_usesAt hi with ⟨rfl, hcipher, hnonce⟩
    exact ⟨hcipher, hnonce⟩
  rcases mem_append.mp hx with hin | hin
  . exact hmem .client client.out.core hclient hin
  . exact hmem .server server.out.core hserver hin

theorem cipherFor_none (key : Vector UInt8 16) (x : End) (kind : SealKind)
    : cipherFor h key .none x kind = .none := by
  cases x <;> cases kind <;> rfl

theorem ivFor_eq (h' : kind = .length ∨ x = y)
    : ivFor h iv x kind = ivFor h iv y kind := by
  rcases h' with rfl | rfl
  . cases x <;> cases y <;> rfl
  . rfl

theorem vmess_nonce_reuse (a : Aead) (h : Hashes) (key iv : Vector UInt8 16) (security : Security)
    (options : UInt8) (hkeys : security ≠ .none → KeysDiffer h key security)
    (client server : Writing)
    (hclient : Reach (Framer.Session.step (framer (ε := ε) a h)) (fun _ _ => True)
      (.new (VmessStream.client h key iv security options).writer.core) client)
    (hserver : Reach (Framer.Session.step (framer (ε := ε) a h)) (fun _ _ => True)
      (.new (VmessStream.server h key iv security options).writer.core) server)
    : ((allUses client server).map label).Nodup
      ∧ ∀ x ∈ allUses client server, ∀ y ∈ allUses client server,
        (x.snd.key = y.snd.key ∧ x.snd.nonce = y.snd.nonce)
          ↔ (x.snd.kind = y.snd.kind ∧ x.snd.chunk % 65536 = y.snd.chunk % 65536
            ∧ (x.snd.kind = .length ∨ x.fst = y.fst)) := by
  have hcounted (x : End) (s : Writing)
      (hs : Reach (Framer.Session.step (framer (ε := ε) a h)) (fun _ _ => True)
        (.new ⟨startBody h key iv security options x, 0, []⟩) s)
      : Counted (startBody h key iv security options x) s.out.core := by
    cases x with
    | client => exact counted_of_reach rfl rfl hs
    | server => exact counted_of_reach rfl rfl hs
  have hc := hcounted .client client hclient
  have hs := hcounted .server server hserver
  refine ⟨nodup_allUses hc hs, ?_⟩
  intro x hx y hy
  rcases facts_of_mem hc hs hx with ⟨hxkey, hxnonce⟩
  rcases facts_of_mem hc hs hy with ⟨hykey, hynonce⟩
  have hsome : security ≠ .none := by
    rintro rfl
    rw [cipherFor_none] at hxkey
    cases hxkey
  have hiff := (hkeys hsome).eq_iff x.fst y.fst x.snd.kind y.snd.kind
  constructor
  . rintro ⟨hkey, hnonce⟩
    have hsame : cipherFor h key security x.fst x.snd.kind
        = cipherFor h key security y.fst y.snd.kind := by
      rw [hxkey, hykey, hkey]
    rcases hiff.mp hsame with ⟨hkind, hor⟩
    rw [hxnonce, hynonce, ← hkind, ivFor_eq hor, chunkNonce_eq_iff] at hnonce
    exact ⟨hkind, hnonce, hor⟩
  . rintro ⟨hkind, hchunk, hor⟩
    have hsame := hiff.mpr ⟨hkind, hor⟩
    rw [hxkey, hykey] at hsame
    refine ⟨BodyCipher.aead.inj hsame, ?_⟩
    rw [hxnonce, hynonce, ← hkind, ivFor_eq hor, chunkNonce_eq_iff]
    exact hchunk

-- What AES-128-GCM makes of a chunk of one byte that each of the ends sends.
def sealedBytes : List KnownSeal :=
  [⟨aes128Gcm someAuthLenKey, chunkNonce 0 someIv, [0, 1],
      [5, 94, 174, 136, 196, 41, 78, 96, 235, 206, 78, 26, 29, 236, 171, 150, 184, 80]⟩,
    ⟨aes128Gcm someKey, chunkNonce 0 someIv, [97],
      [13, 195, 105, 169, 42, 189, 82, 31, 156, 33, 193, 33, 159, 176, 42, 202, 124]⟩,
    ⟨aes128Gcm (responseBodyKey someHashes someKey),
      chunkNonce 0 (responseBodyIv someHashes someIv), [97],
      [160, 133, 155, 187, 61, 34, 195, 133, 3, 179, 151, 147, 58, 215, 171, 170, 212]⟩]

def oneWrite : List (Framer.Event (Nat → UInt8) UInt8 (StreamError Unit)) :=
  [.write UInt8.ofNat [97] [.ready (.ok 100)]]

def oneWriteOf (stream : VmessStream) : Writing :=
  oneWrite.foldl (Framer.Session.step (framer (Aead.ofTable sealedBytes) someHashes))
    (.new stream.writer.core)

theorem vmess_nonce_reuse_oneWrite
    : let client := oneWriteOf (VmessStream.client someHashes someKey someIv .aes128Gcm 0x10)
      let server := oneWriteOf (VmessStream.server someHashes someKey someIv .aes128Gcm 0x10)
      (allUses client server).length = 4 ∧ ((allUses client server).map label).Nodup :=
  ⟨by decide +kernel,
    (vmess_nonce_reuse (Aead.ofTable sealedBytes) someHashes someKey someIv .aes128Gcm 0x10
      (fun _ => ⟨by decide +kernel, by decide +kernel, by decide +kernel⟩) _ _
      (Reach.foldl _ oneWrite .start (by decide))
      (Reach.foldl _ oneWrite .start (by decide))).left⟩

theorem vmess_length_nonce_shared
    : let client := oneWriteOf (VmessStream.client someHashes someKey someIv .aes128Gcm 0x10)
      let server := oneWriteOf (VmessStream.server someHashes someKey someIv .aes128Gcm 0x10)
      ∃ x ∈ allUses client server, ∃ y ∈ allUses client server,
        x.fst = .client ∧ y.fst = .server ∧ x.snd.key = y.snd.key ∧ x.snd.nonce = y.snd.nonce := by
  decide +kernel

end Blackwire.Vmess
