import Blackwire.Common.Address
import Blackwire.Transport.Reality.Impl.Tls13

/-!
This module contains the parser of the ServerHello once more, with every index and every slice of
the source as an operation that can panic, and proves which messages make it panic and where in the
message the things are that it returns.
-/

namespace Blackwire.Reality

open Bytes Blackwire.Indexed
open List hiding range

namespace Indexed

def describeServerHelloExtension (extType : Nat) (extData : Bytes) : Res String :=
  if extType = 0x002b ∧ extData.length = 2 then do
    let version ← u16 extData 0
    return "supported_versions(len=" ++ toString extData.length ++ ", selected="
      ++ hexPadded 4 version ++ ")"
  else if extType = 0x0033 ∧ extData.length ≥ 2 then do
    let group ← u16 extData 0
    if extData.length = 2 then
      return "key_share(len=2, selected_group=" ++ hexPadded 4 group ++ ")"
    else if extData.length ≥ 4 then
      let keyLen ← u16 extData 2
      return "key_share(len=" ++ toString extData.length ++ ", group=" ++ hexPadded 4 group
        ++ ", key_len=" ++ toString keyLen ++ ")"
    else
      return "key_share(len=" ++ toString extData.length ++ ")"
  else
    return hexPadded 4 extType ++ "(len=" ++ toString extData.length ++ ")"

def keyShare (extType : Nat) (extData : Bytes) (share : Option (Nat × Bytes))
    : Res (Option (Nat × Bytes)) :=
  if extType = 0x0033 then
    if extData.length ≥ 4 then do
      let group ← u16 extData 0
      let keyLen ← u16 extData 2
      if extData.length ≥ 4 + keyLen then
        let key ← range extData 4 (4 + keyLen)
        return some (group, key)
      else
        return share
    else
      return share
  else
    return share

def extensions (hsBody : Bytes) (extEnd : Nat) (fuel pos : Nat) (share : Option (Nat × Bytes))
    (summaries : List String) : Res (Option (Nat × Bytes) × List String) :=
  match fuel with
  | 0 => return (share, summaries)
  | fuel + 1 =>
    if pos + 4 ≤ extEnd then do
      let extType ← u16 hsBody pos
      let extLen ← u16 hsBody (pos + 2)
      if pos + 4 + extLen > hsBody.length then
        return (share, summaries)
      else
        let extData ← range hsBody (pos + 4) (pos + 4 + extLen)
        let summary ← describeServerHelloExtension extType extData
        let share ← keyShare extType extData share
        extensions hsBody extEnd fuel (pos + 4 + extLen) share (summaries ++ [summary])
    else
      return (share, summaries)

def parseExtensions (hsBody random : Bytes) (rawCs : Nat) (cs : CipherSuite) (pos : Nat)
    : Res (CipherSuite × Nat × Bytes) :=
  if pos + 2 > hsBody.length then
    fail (.protocol "ServerHello: no extensions length")
  else do
    let extTotal ← u16 hsBody pos
    let extEnd := min (pos + 2 + extTotal) hsBody.length
    let (share, summaries) ← extensions hsBody extEnd hsBody.length (pos + 2) none []
    match share with
    | some (group, key) => return (cs, group, key)
    | none =>
      let kind := if random = helloRetryRequestRandom then "HelloRetryRequest" else "ServerHello"
      fail (.protocol (kind ++ ": no usable key_share; cipher_suite=" ++ hexPadded 4 rawCs
        ++ "; extensions=[" ++ ", ".intercalate summaries ++ "]"))

def parseBody (hsBody random : Bytes) : Res (CipherSuite × Nat × Bytes) :=
  if 38 ≥ hsBody.length then
    fail (.protocol "ServerHello: truncated at session_id")
  else do
    let sidLen ← index hsBody 38
    let pos := 39 + sidLen
    if pos + 3 > hsBody.length then
      fail (.protocol "ServerHello: truncated at cipher_suite")
    else
      let rawCs ← u16 hsBody pos
      let cs ← CipherSuite.fromU16 rawCs
      parseExtensions hsBody random rawCs cs (pos + 3)

def parseServerHello (hsBody : Bytes) : Res (CipherSuite × Nat × Bytes) :=
  if hsBody.length < 4 then
    fail (.protocol "ServerHello body too short")
  else do
    let hsType ← index hsBody 0
    if hsType ≠ hsServerHello.toNat then
      fail (.protocol ("expected ServerHello (0x02), got " ++ hexPadded 2 hsType))
    else
      let random ← range hsBody 6 38
      parseBody hsBody random

theorem describeServerHelloExtension_eq (extType : Nat) (extData : Bytes)
    : describeServerHelloExtension extType extData
        = pure (Reality.describeServerHelloExtension extType extData) := by
  unfold describeServerHelloExtension Reality.describeServerHelloExtension
  split
  next h =>
    rw [u16_eq extData 0 (by omega)]
    rfl
  next =>
    split
    next h =>
      rw [u16_eq extData 0 (by omega), pure_bind]
      split
      next => rfl
      split
      next hlong =>
        rw [u16_eq extData 2 (by omega)]
        rfl
      next => rfl
    next => rfl

theorem keyShare_eq (extType : Nat) (extData : Bytes) (share : Option (Nat × Bytes))
    : keyShare extType extData share
        = pure (if extType = 0x0033 ∧ extData.length ≥ 4
              ∧ extData.length ≥ 4 + u16At extData 2 then
            some (u16At extData 0, (extData.drop 4).take (u16At extData 2))
          else
            share) := by
  unfold keyShare
  by_cases htype : extType = 0x0033
  . by_cases hlong : extData.length ≥ 4
    . rw [if_pos htype, if_pos hlong, u16_eq extData 0 (by omega), u16_eq extData 2 (by omega),
        pure_bind, pure_bind]
      by_cases hkey : extData.length ≥ 4 + u16At extData 2
      . rw [if_pos hkey, if_pos ⟨htype, hlong, hkey⟩, range_eq extData 4 _ hkey, pure_bind]
      . rw [if_neg hkey, if_neg (fun h => hkey h.right.right)]
    . rw [if_pos htype, if_neg hlong, if_neg (fun h => hlong h.right.left)]
  . rw [if_neg htype, if_neg (fun h => htype h.left)]

theorem extensions_eq (extEnd : Nat) (hend : extEnd ≤ hsBody.length) (fuel pos : Nat)
    (share : Option (Nat × Bytes)) (summaries : List String)
    : extensions hsBody extEnd fuel pos share summaries
        = pure (parseServerHello.extensions hsBody extEnd fuel pos share summaries) := by
  induction fuel generalizing pos share summaries with
  | zero => rfl
  | succ fuel ih =>
    unfold extensions parseServerHello.extensions
    by_cases hpos : pos + 4 ≤ extEnd
    . rw [if_pos hpos, if_pos hpos, u16_eq hsBody pos (by omega),
        u16_eq hsBody (pos + 2) (by omega), pure_bind, pure_bind]
      by_cases hlong : pos + 4 + u16At hsBody (pos + 2) > hsBody.length
      . rw [if_pos hlong, if_pos hlong]
      . rw [if_neg hlong, if_neg hlong, range_eq hsBody (pos + 4) _ (by omega), pure_bind,
          describeServerHelloExtension_eq, pure_bind, keyShare_eq, pure_bind, ih]
    . rw [if_neg hpos, if_neg hpos]

theorem parseServerHello_eq (hsBody : Bytes)
    : parseServerHello hsBody = Reality.parseServerHello hsBody := by
  unfold parseServerHello Reality.parseServerHello
  by_cases hshort : hsBody.length < 4
  . rw [if_pos hshort, if_pos hshort]
  rw [if_neg hshort, if_neg hshort, index_eq (by omega), pure_bind]
  by_cases htype : byteAt hsBody 0 ≠ hsServerHello.toNat
  . rw [if_pos htype, if_pos htype]
  rw [if_neg htype, if_neg htype]
  unfold range
  cases slice hsBody 6 38 with
  | none => rfl
  | some random =>
    dsimp only
    rw [pure_bind, parseBody]
    by_cases hsid : 38 ≥ hsBody.length
    . rw [if_pos hsid, if_pos hsid]
    rw [if_neg hsid, if_neg hsid, index_eq (by omega), pure_bind]
    by_cases hcs : 39 + byteAt hsBody 38 + 3 > hsBody.length
    . rw [if_pos hcs, if_pos hcs]
    rw [if_neg hcs, if_neg hcs, u16_eq hsBody _ (by omega), pure_bind]
    congr 1
    funext cs
    unfold parseExtensions
    by_cases hext : 39 + byteAt hsBody 38 + 3 + 2 > hsBody.length
    . rw [if_pos hext, if_pos hext]
    rw [if_neg hext, if_neg hext, u16_eq hsBody _ (by omega), pure_bind]
    dsimp only
    rw [extensions_eq _ (Nat.min_le_right _ _), pure_bind]
    generalize parseServerHello.extensions hsBody _ _ _ _ _ = found
    match found with
    | (some _, _) => rfl
    | (none, _) => rfl

end Indexed

theorem fromU16_cases
    : (∃ e, CipherSuite.fromU16 v = fail e) ∨ ∃ cs, CipherSuite.fromU16 v = .ok cs := by
  unfold CipherSuite.fromU16
  split
  . exact .inr ⟨_, rfl⟩
  . exact .inr ⟨_, rfl⟩
  . exact .inl ⟨_, rfl⟩

def ShareInside (hsBody : Bytes) (group : Nat) (key : Bytes) : Prop :=
  ∃ pos, slice hsBody pos (pos + 2) = some (toBigEndian 2 group)
    ∧ slice hsBody (pos + 4) (pos + 4 + key.length) = some key

theorem shareInside_of_le (hext : pos + extLen ≤ hsBody.length) (hkey : 4 + keyLen ≤ extLen)
    : ShareInside hsBody (u16At ((hsBody.drop pos).take extLen) 0)
        ((((hsBody.drop pos).take extLen).drop 4).take keyLen) := by
  have hlength : ((hsBody.drop pos).take extLen).length = extLen := by
    rw [length_take, length_drop]
    omega
  have hkeyLength : ((((hsBody.drop pos).take extLen).drop 4).take keyLen).length = keyLen := by
    rw [length_take, length_drop, hlength]
    omega
  refine ⟨pos, ?_, ?_⟩
  . rw [slice_of_le (by omega), toBigEndian_u16At _ 0 (by omega), drop_zero,
      take_take, Nat.min_eq_left (by omega)]
  . rw [hkeyLength, slice_of_le (by omega), drop_take, drop_drop,
      take_take, Nat.min_eq_left (by omega)]

theorem extensions_inside (hsBody : Bytes) (extEnd : Nat) (fuel pos : Nat)
    (share : Option (Nat × Bytes)) (summaries : List String)
    (hshare : ∀ found ∈ share, ShareInside hsBody found.fst found.snd)
    : ∀ found ∈ (parseServerHello.extensions hsBody extEnd fuel pos share summaries).fst,
        ShareInside hsBody found.fst found.snd := by
  induction fuel generalizing pos share summaries with
  | zero => exact hshare
  | succ fuel ih =>
    unfold parseServerHello.extensions
    split
    next =>
      dsimp only
      split
      next => exact hshare
      next hlong =>
        apply ih
        split
        next hkey =>
          rintro _ ⟨⟩
          apply shareInside_of_le
          . omega
          . have hle := hkey.right.right
            rw [length_take] at hle
            omega
        next => exact hshare
    next => exact hshare

structure Inside (hsBody : Bytes) (cs : CipherSuite) (group : Nat) (key : Bytes) : Prop where
  suite : ∃ pos raw, slice hsBody pos (pos + 2) = some (toBigEndian 2 raw)
    ∧ CipherSuite.fromU16 raw = .ok cs
  share : ShareInside hsBody group key

namespace Indexed

theorem parseExtensions_cases
    : (∃ e, parseExtensions hsBody random rawCs cs pos = fail e)
      ∨ ∃ group key, parseExtensions hsBody random rawCs cs pos = .ok (cs, group, key)
        ∧ ShareInside hsBody group key := by
  unfold parseExtensions
  split
  next => exact .inl ⟨_, rfl⟩
  next hext =>
    rw [u16_eq hsBody pos (by omega), pure_bind]
    dsimp only
    rw [extensions_eq _ (Nat.min_le_right _ _), pure_bind]
    have hinside := extensions_inside hsBody (min (pos + 2 + u16At hsBody pos) hsBody.length)
      hsBody.length (pos + 2) none [] (by simp)
    generalize parseServerHello.extensions hsBody _ _ _ _ _ = found at hinside ⊢
    match found with
    | (some (group, key), _) => exact .inr ⟨group, key, rfl, hinside _ rfl⟩
    | (none, _) => exact .inl ⟨_, rfl⟩

theorem parseBody_cases
    : (∃ e, parseBody hsBody random = fail e)
      ∨ ∃ cs group key, parseBody hsBody random = .ok (cs, group, key)
        ∧ Inside hsBody cs group key := by
  unfold parseBody
  split
  next => exact .inl ⟨_, rfl⟩
  next hsid =>
    rw [index_eq (by omega), pure_bind]
    dsimp only
    split
    next => exact .inl ⟨_, rfl⟩
    next hcs =>
      rw [u16_eq hsBody _ (by omega), pure_bind]
      rcases fromU16_cases with ⟨e, hfrom⟩ | ⟨cs, hfrom⟩
      . rw [hfrom]
        exact .inl ⟨e, rfl⟩
      rw [hfrom]
      have hsuite : slice hsBody (39 + byteAt hsBody 38) (39 + byteAt hsBody 38 + 2)
          = some (toBigEndian 2 (u16At hsBody (39 + byteAt hsBody 38))) := by
        rw [slice_of_le (by omega), toBigEndian_u16At _ _ (by omega)]
      rcases parseExtensions_cases with ⟨e, hparse⟩ | ⟨group, key, hparse, hshare⟩
      . exact .inl ⟨e, hparse⟩
      . exact .inr ⟨cs, group, key, hparse, ⟨_, _, hsuite, hfrom⟩, hshare⟩

theorem parseServerHello_cases
    : (4 ≤ hsBody.length ∧ hsBody.head? = some hsServerHello ∧ hsBody.length < 38
        ∧ parseServerHello hsBody = .error .panic)
      ∨ ((hsBody.length < 4 ∨ hsBody.head? ≠ some hsServerHello ∨ 38 ≤ hsBody.length)
        ∧ ((∃ e, parseServerHello hsBody = fail e)
          ∨ ∃ cs group key, parseServerHello hsBody = .ok (cs, group, key)
            ∧ Inside hsBody cs group key)) := by
  unfold parseServerHello
  split
  next hshort => exact .inr ⟨.inl hshort, .inl ⟨_, rfl⟩⟩
  next hshort =>
    have htypes : byteAt hsBody 0 = hsServerHello.toNat ↔ hsBody.head? = some hsServerHello := by
      cases hsBody with
      | nil => simp at hshort
      | cons b rest => simp [byteAt, UInt8.toNat_inj]
    rw [index_eq (by omega), pure_bind]
    split
    next htype =>
      rw [ne_eq, htypes] at htype
      exact .inr ⟨.inr (.inl htype), .inl ⟨_, rfl⟩⟩
    next htype =>
      rw [ne_eq, htypes, not_not] at htype
      by_cases hlong : 38 ≤ hsBody.length
      . rw [range_eq hsBody 6 32 (by omega), pure_bind]
        exact .inr ⟨.inr (.inr hlong), parseBody_cases⟩
      . refine .inl ⟨by omega, htype, by omega, ?_⟩
        rw [range, slice, if_neg (by omega)]
        rfl

end Indexed

theorem server_hello_parsing_iff (hsBody : Bytes)
    : (Indexed.parseServerHello hsBody ≠ .error .panic
        ↔ hsBody.length < 4 ∨ hsBody.head? ≠ some hsServerHello ∨ 38 ≤ hsBody.length)
      ∧ ∀ cs group key, Indexed.parseServerHello hsBody = .ok (cs, group, key) →
        Inside hsBody cs group key := by
  rcases Indexed.parseServerHello_cases with
    ⟨hlong, htype, hshort, hpanic⟩ | ⟨hbounds, ⟨e, hfail⟩ | ⟨cs, group, key, hok, hinside⟩⟩
  . rw [hpanic]
    constructor
    . have hne
          : ¬ (hsBody.length < 4 ∨ hsBody.head? ≠ some hsServerHello ∨ 38 ≤ hsBody.length) := by
        rintro (h | h | h)
        . omega
        . exact h htype
        . omega
      exact iff_of_false (fun h => h rfl) hne
    . intro cs group key hok
      cases hok
  . rw [hfail]
    constructor
    . exact iff_of_true (by simp [fail]) hbounds
    . intro cs group key hok
      cases hok
  . rw [hok]
    constructor
    . exact iff_of_true (by simp) hbounds
    . rintro _ _ _ ⟨⟩
      exact hinside

theorem server_hello_short_random_panics
    : Indexed.parseServerHello [0x02, 0x00, 0x00, 0x00] = .error .panic := by
  decide

end Blackwire.Reality
