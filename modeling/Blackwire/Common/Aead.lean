import Blackwire.Lib.Bytes

/-!
This module contains the AEAD primitive that the encrypted streams share, what is assumed of an
ideal one, and ciphers that are given by a table of known ciphertexts. The cipher suites themselves
are a parameter.
-/

namespace Blackwire

inductive AeadAlgorithm where
  | aes128Gcm
  | aes256Gcm
  | chaCha20Poly1305
deriving DecidableEq

def AeadAlgorithm.keyLen : AeadAlgorithm → Nat
  | aes128Gcm => 16
  | aes256Gcm => 32
  | chaCha20Poly1305 => 32

structure AeadKey where
  algorithm : AeadAlgorithm
  key : Bytes
  length : key.length = algorithm.keyLen
deriving DecidableEq

def tagLen : Nat := 16

/--
`sealCombined` returns the ciphertext with its tag behind it, which is what `openCombined` takes. A
failed `openCombined` says what it leaves in its buffer.
-/
structure Aead where
  sealCombined (key : AeadKey) (nonce aad plaintext : Bytes) : Bytes
  openCombined (key : AeadKey) (nonce aad ciphertext : Bytes) : Except Bytes Bytes

structure Aead.Lawful (a : Aead) : Prop where
  length_seal (key : AeadKey) (nonce aad plaintext : Bytes)
    : (a.sealCombined key nonce aad plaintext).length = plaintext.length + tagLen
  open_seal (key : AeadKey) (nonce aad plaintext : Bytes)
    : a.openCombined key nonce aad (a.sealCombined key nonce aad plaintext) = .ok plaintext

structure Aead.Tidy (a : Aead) : Prop where
  seal_open (key : AeadKey) (nonce aad ciphertext plaintext : Bytes)
      (h : a.openCombined key nonce aad ciphertext = .ok plaintext)
    : a.sealCombined key nonce aad plaintext = ciphertext

inductive StreamError (ε : Type) where
  | invalidData (message : String)
  | writeZero (message : String)
  | inner (e : ε)
deriving DecidableEq

open List

structure Sealing where
  key : AeadKey
  nonce : Bytes
  aad : Bytes
  plaintext : Bytes

/--
An ideal AEAD opens what was sealed and nothing else.
-/
structure Aead.Ideal (a : Aead) (sealings : List Sealing) : Prop where
  length_seal (key : AeadKey) (nonce aad plaintext : Bytes)
    : (a.sealCombined key nonce aad plaintext).length = plaintext.length + tagLen
  open_sealed (key : AeadKey) (nonce aad ciphertext plaintext : Bytes)
      (h : a.openCombined key nonce aad ciphertext = .ok plaintext)
    : ⟨key, nonce, aad, plaintext⟩ ∈ sealings
      ∧ ciphertext = a.sealCombined key nonce aad plaintext

structure KnownSeal where
  key : AeadKey
  nonce : Bytes
  plaintext : Bytes
  ciphertext : Bytes

def noTag : Bytes := replicate tagLen 0

def tagOf (ciphertext : Bytes) : Bytes :=
  ciphertext.drop (ciphertext.length - tagLen)

namespace Aead

variable (table : List KnownSeal) (key : AeadKey) (nonce : Bytes)

def findSeal (plaintext : Bytes) : Option KnownSeal :=
  table.find? fun e => e.key = key ∧ e.nonce = nonce ∧ e.plaintext = plaintext

def findOpen (ciphertext : Bytes) : Option KnownSeal :=
  table.find? fun e => e.key = key ∧ e.nonce = nonce ∧ e.ciphertext = ciphertext

def ofTable : Aead where
  sealCombined key nonce _ plaintext :=
    match findSeal table key nonce plaintext with
    | some e => e.ciphertext
    | none => plaintext ++ noTag
  openCombined key nonce _ ciphertext :=
    match findOpen table key nonce ciphertext with
    | some e => .ok e.plaintext
    | none =>
      let plaintext := ciphertext.take (ciphertext.length - tagLen)
      if ciphertext = plaintext ++ noTag ∧ findSeal table key nonce plaintext = none then
        .ok plaintext
      else
        .error ciphertext

theorem findSeal_some (h : findSeal table key nonce plaintext = some e)
    : e ∈ table ∧ e.key = key ∧ e.nonce = nonce ∧ e.plaintext = plaintext := by
  have hfound := find?_some h
  simp only [decide_eq_true_eq] at hfound
  exact ⟨mem_of_find?_eq_some h, hfound⟩

theorem findOpen_some (h : findOpen table key nonce ciphertext = some e)
    : e ∈ table ∧ e.key = key ∧ e.nonce = nonce ∧ e.ciphertext = ciphertext := by
  have hfound := find?_some h
  simp only [decide_eq_true_eq] at hfound
  exact ⟨mem_of_find?_eq_some h, hfound⟩

theorem findOpen_isSome (h : e ∈ table)
    : (findOpen table e.key e.nonce e.ciphertext).isSome = true := by
  unfold findOpen
  rw [find?_isSome]
  exact ⟨e, h, by simp⟩

structure Proper : Prop where
  length : ∀ e ∈ table, e.ciphertext.length = e.plaintext.length + tagLen
  tag : ∀ e ∈ table, tagOf e.ciphertext ≠ noTag
  unique : ∀ e ∈ table, ∀ e' ∈ table, e.key = e'.key → e.nonce = e'.nonce →
    e.ciphertext = e'.ciphertext → e.plaintext = e'.plaintext

instance : Decidable (Proper table) :=
  decidable_of_iff
    ((∀ e ∈ table, e.ciphertext.length = e.plaintext.length + tagLen)
      ∧ (∀ e ∈ table, tagOf e.ciphertext ≠ noTag)
      ∧ ∀ e ∈ table, ∀ e' ∈ table, e.key = e'.key → e.nonce = e'.nonce →
        e.ciphertext = e'.ciphertext → e.plaintext = e'.plaintext)
    ⟨fun h => ⟨h.left, h.right.left, h.right.right⟩, fun h => ⟨h.length, h.tag, h.unique⟩⟩

theorem tagOf_append_noTag (plaintext : Bytes) : tagOf (plaintext ++ noTag) = noTag := by
  unfold tagOf
  rw [length_append, noTag, length_replicate, Nat.add_sub_cancel, drop_left]

theorem lawful_ofTable (h : Proper table) : (ofTable table).Lawful where
  length_seal key nonce aad plaintext := by
    simp only [ofTable]
    split
    next e hfind =>
      rcases findSeal_some table key nonce hfind with ⟨hmem, _, _, rfl⟩
      apply h.length
      exact hmem
    next => simp [noTag]
  open_seal key nonce aad plaintext := by
    cases hseal : findSeal table key nonce plaintext with
    | some e =>
      rcases findSeal_some table key nonce hseal with ⟨hmem, rfl, rfl, rfl⟩
      simp only [ofTable, hseal]
      rcases Option.isSome_iff_exists.mp (findOpen_isSome table hmem) with ⟨e', hopen⟩
      rcases findOpen_some table e.key e.nonce hopen with ⟨hmem', hkey, hnonce, hciphertext⟩
      rw [hopen]
      dsimp only
      rw [h.unique e' hmem' e hmem hkey hnonce hciphertext]
    | none =>
      simp only [ofTable, hseal]
      split
      next e hopen =>
        rcases findOpen_some table key nonce hopen with ⟨hmem, _, _, hciphertext⟩
        have htag := h.tag e hmem
        rw [hciphertext, tagOf_append_noTag] at htag
        contradiction
      next =>
        have hplaintext : (plaintext ++ noTag).take ((plaintext ++ noTag).length - tagLen)
            = plaintext := by
          simp [noTag]
        rw [hplaintext, if_pos ⟨rfl, hseal⟩]

def ofTableFor (aad : Bytes) : Aead where
  sealCombined key nonce aad' plaintext :=
    (ofTable (if aad' = aad then table else [])).sealCombined key nonce aad' plaintext
  openCombined key nonce aad' ciphertext :=
    (ofTable (if aad' = aad then table else [])).openCombined key nonce aad' ciphertext

theorem lawful_ofTableFor (aad : Bytes) (h : Proper table) : (ofTableFor table aad).Lawful := by
  have hlawful (aad' : Bytes) : (ofTable (if aad' = aad then table else [])).Lawful := by
    apply lawful_ofTable
    split
    . exact h
    . decide
  constructor
  . intro key nonce aad' plaintext
    exact (hlawful aad').length_seal key nonce aad' plaintext
  . intro key nonce aad' plaintext
    exact (hlawful aad').open_seal key nonce aad' plaintext

section

variable (hsame : ∀ e ∈ table, ∀ e' ∈ table, e.key = e'.key → e.nonce = e'.nonce →
  e.plaintext = e'.plaintext → e.ciphertext = e'.ciphertext)

include hsame

theorem sealCombined_of_mem (hmem : e ∈ table) (aad : Bytes)
    : (ofTable table).sealCombined e.key e.nonce aad e.plaintext = e.ciphertext := by
  simp only [ofTable]
  split
  next e' hseal =>
    rcases findSeal_some table e.key e.nonce hseal with ⟨hmem', hkey, hnonce, hplaintext⟩
    exact hsame e' hmem' e hmem hkey hnonce hplaintext
  next hseal =>
    unfold findSeal at hseal
    rw [find?_eq_none] at hseal
    simpa using hseal e hmem

theorem tidy_ofTable : (ofTable table).Tidy where
  seal_open key nonce aad ciphertext plaintext hopen := by
    simp only [ofTable] at hopen
    split at hopen
    next e hfind =>
      cases hopen
      rcases findOpen_some table key nonce hfind with ⟨hmem, rfl, rfl, rfl⟩
      apply sealCombined_of_mem table hsame
      exact hmem
    next =>
      split at hopen
      next hplain =>
        cases hopen
        simp only [ofTable, hplain.right]
        exact hplain.left.symm
      next => cases hopen

end

def onlyTable : Aead where
  sealCombined := (ofTable table).sealCombined
  openCombined key nonce aad ciphertext :=
    if aad = [] then
      match findOpen table key nonce ciphertext with
      | some e => .ok e.plaintext
      | none => .error ciphertext
    else
      .error ciphertext

def sealings : List Sealing :=
  table.map fun e => ⟨e.key, e.nonce, [], e.plaintext⟩

theorem ideal_onlyTable (h : Proper table)
    (hsame : ∀ e ∈ table, ∀ e' ∈ table, e.key = e'.key → e.nonce = e'.nonce →
      e.plaintext = e'.plaintext → e.ciphertext = e'.ciphertext)
    : (onlyTable table).Ideal (sealings table) where
  length_seal := (lawful_ofTable table h).length_seal
  open_sealed key nonce aad ciphertext plaintext hopen := by
    simp only [onlyTable] at hopen
    split at hopen
    next haad =>
      split at hopen
      next e hfind =>
        cases hopen
        rcases findOpen_some table key nonce hfind with ⟨hmem, rfl, rfl, rfl⟩
        refine ⟨mem_map.mpr ⟨e, hmem, by rw [haad]⟩, ?_⟩
        exact (sealCombined_of_mem table hsame hmem aad).symm
      next => cases hopen
    next => cases hopen

end Aead

end Blackwire
