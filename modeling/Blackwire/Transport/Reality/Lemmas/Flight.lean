import Blackwire.Transport.Reality.Flight

/-!
This module contains the verification of the encrypted flight.
-/

namespace Blackwire.Reality

open Bytes Fallible List

theorem flightBytes_cons (msg : Message) (msgs : List Message)
    : flightBytes (msg :: msgs) = msg.snd ++ flightBytes msgs := by
  simp [flightBytes]

theorem flightBytes_append (front back : List Message)
    : flightBytes (front ++ back) = flightBytes front ++ flightBytes back := by
  simp [flightBytes]

def WellFormed (msg : Message) : Prop :=
  ∃ body : Bytes, body.length < 2 ^ 24 ∧ msg = handshakeMessage msg.fst body

variable (fuel : Nat) (data flight : Bytes)

theorem splitHandshakeMessages.go_fuel (fuel' : Nat) (data : Bytes) (h : data.length ≤ fuel)
    (h' : data.length ≤ fuel')
    : go fuel data = go fuel' data := by
  induction fuel generalizing fuel' data with
  | zero =>
    cases data with
    | nil => cases fuel' <;> rfl
    | cons b data => simp at h
  | succ fuel ih =>
    cases fuel' with
    | zero =>
      cases data with
      | nil => rfl
      | cons b data => simp at h'
    | succ fuel' =>
      unfold go
      match data with
      | [] => rfl
      | [_] => rfl
      | [_, _] => rfl
      | [_, _, _] => rfl
      | hsType :: len1 :: len2 :: len3 :: rest =>
        dsimp only
        split
        next => rfl
        simp only [length_cons] at h h'
        rw [ih fuel' (rest.drop (ofBigEndian [len1, len2, len3]))]
        . rw [length_drop]
          omega
        . rw [length_drop]
          omega

theorem splitHandshakeMessages_cons (hmsg : WellFormed msg) (data : Bytes)
    : splitHandshakeMessages (msg.snd ++ data) = msg :: splitHandshakeMessages data := by
  rcases msg with ⟨hsType, raw⟩
  rcases hmsg with ⟨body, hbody, hmsg⟩
  simp only [handshakeMessage, Prod.mk.injEq, true_and] at hmsg
  subst hmsg
  have hlen := ofBigEndian_toBigEndian 3 body.length
  rw [Nat.mod_eq_of_lt (by omega)] at hlen
  have hthree := length_toBigEndian 3 body.length
  match toBigEndian 3 body.length, hthree, hlen with
  | [len1, len2, len3], _, hlen =>
    simp only [splitHandshakeMessages, cons_append, nil_append, length_cons,
      splitHandshakeMessages.go, hlen]
    rw [if_neg (by simp), take_left, drop_left]
    congr 1
    apply splitHandshakeMessages.go_fuel
    . simp only [length_append]
      omega
    . rfl

theorem splitHandshakeMessages_flightBytes (hmsgs : ∀ msg ∈ msgs, WellFormed msg)
    : splitHandshakeMessages (flightBytes msgs) = msgs := by
  induction msgs with
  | nil => rfl
  | cons msg msgs ih =>
    rw [forall_mem_cons] at hmsgs
    rw [flightBytes_cons, splitHandshakeMessages_cons hmsgs.left, ih hmsgs.right]

theorem splitHandshakeMessages.go_prefix
    : flightBytes (go fuel data) <+: data := by
  induction fuel generalizing data with
  | zero => simp [go, flightBytes]
  | succ fuel ih =>
    unfold go
    match data with
    | [] => simp [flightBytes]
    | [_] => simp [flightBytes]
    | [_, _] => simp [flightBytes]
    | [_, _, _] => simp [flightBytes]
    | hsType :: len1 :: len2 :: len3 :: rest =>
      dsimp only
      split
      next => simp [flightBytes]
      rw [flightBytes_cons]
      simp only [cons_append, cons_prefix_cons, true_and]
      have hrest := ih (rest.drop (ofBigEndian [len1, len2, len3]))
      rw [← prefix_append_right_inj (rest.take (ofBigEndian [len1, len2, len3])),
        take_append_drop] at hrest
      exact hrest

theorem flightBytes_split_isPrefix
    : flightBytes (splitHandshakeMessages data) <+: data := by
  apply splitHandshakeMessages.go_prefix

def collect : List Bytes → Res (List Message)
  | [] => fail (.io .unexpectedEof)
  | piece :: pieces =>
    if (splitHandshakeMessages piece).any fun msg => msg.fst = hsFinished then
      return splitHandshakeMessages piece
    else do
      let later ← collect pieces
      return splitHandshakeMessages piece ++ later

def CutBetween (msgs : List Message) (pieces : List Bytes) : Prop :=
  ∃ groups : List (List Message), groups.flatten = msgs ∧ pieces = groups.map flightBytes

theorem collect_length (pieces : List Bytes) (msgs : List Message) (h : collect pieces = .ok msgs)
    : (flightBytes msgs).length ≤ pieces.flatten.length := by
  induction pieces generalizing msgs with
  | nil => cases h
  | cons piece pieces ih =>
    have hfront := (flightBytes_split_isPrefix piece).length_le
    rw [flatten_cons, length_append]
    unfold collect at h
    split at h
    next =>
      rw [pure_eq_ok] at h
      rw [← h]
      exact Nat.le_add_right_of_le hfront
    next =>
      rw [bind_eq_ok] at h
      rcases h with ⟨later, hlater, h⟩
      rw [pure_eq_ok] at h
      have hle := ih later hlater
      rw [← h, flightBytes_append, length_append]
      exact Nat.add_le_add hfront hle

theorem cutBetween_of_collect (pieces : List Bytes) (hne : ∀ piece ∈ pieces, piece ≠ [])
    (msgs : List Message) (h : collect pieces = .ok msgs)
    (hlength : pieces.flatten.length ≤ (flightBytes msgs).length)
    : CutBetween msgs pieces := by
  induction pieces generalizing msgs with
  | nil => cases h
  | cons piece pieces ih =>
    have hfront := flightBytes_split_isPrefix piece
    have hle := hfront.length_le
    rw [forall_mem_cons] at hne
    rw [flatten_cons, length_append] at hlength
    unfold collect at h
    split at h
    next =>
      rw [pure_eq_ok] at h
      rw [← h] at hlength ⊢
      have hnil : pieces = [] := by
        cases pieces with
        | nil => rfl
        | cons next pieces =>
          rw [forall_mem_cons] at hne
          have hpos := length_pos_iff.mpr hne.right.left
          rw [flatten_cons, length_append] at hlength
          omega
      refine ⟨[splitHandshakeMessages piece], by simp, ?_⟩
      congr 1
      exact (hfront.eq_of_length_le (by omega)).symm
    next =>
      rw [bind_eq_ok] at h
      rcases h with ⟨later, hlater, h⟩
      rw [pure_eq_ok] at h
      have hrest := collect_length pieces later hlater
      rw [← h, flightBytes_append, length_append] at hlength
      rcases ih hne.right later hlater (by omega) with ⟨groups, hgroups, hpieces⟩
      refine ⟨splitHandshakeMessages piece :: groups, ?_, ?_⟩
      . rw [flatten_cons, hgroups, h]
      . rw [map_cons, ← hpieces]
        congr 1
        exact (hfront.eq_of_length_le (by omega)).symm

def EndsInFinished (msgs : List Message) : Prop :=
  ∃ front fin, msgs = front ++ [fin]
    ∧ fin.fst = hsFinished
    ∧ ∀ msg ∈ front, msg.fst ≠ hsFinished

variable {groups : List (List Message)}

theorem EndsInFinished.cases (h : EndsInFinished (group ++ groups.flatten))
    (hne : ∀ group ∈ groups, group ≠ [])
    : ((group.any fun msg => msg.fst = hsFinished) = true ∧ groups = [])
      ∨ ((group.any fun msg => msg.fst = hsFinished) = false ∧ EndsInFinished groups.flatten) := by
  rcases h with ⟨front, fin, hmsgs, hfin, hfront⟩
  cases groups with
  | nil =>
    rw [flatten_nil, append_nil] at hmsgs
    left
    simp [hmsgs, hfin]
  | cons next groups =>
    rw [forall_mem_cons] at hne
    rcases eq_nil_or_concat (next :: groups).flatten with hnil | ⟨back, last, hback⟩
    . simp [hne.left] at hnil
    rw [hback, concat_eq_append, ← append_assoc] at hmsgs
    rcases append_inj' hmsgs rfl with ⟨rfl, hlast⟩
    cases hlast
    rw [forall_mem_append] at hfront
    right
    constructor
    . simpa using hfront.left
    . exact ⟨back, fin, by rw [hback, concat_eq_append], hfin, hfront.right⟩

theorem collect_of_groups (hne : ∀ group ∈ groups, group ≠ [])
    (hwell : ∀ msg ∈ groups.flatten, WellFormed msg) (hends : EndsInFinished groups.flatten)
    : collect (groups.map flightBytes) = .ok groups.flatten := by
  induction groups with
  | nil =>
    rcases hends with ⟨front, fin, hmsgs, _⟩
    simp at hmsgs
  | cons group groups ih =>
    rw [forall_mem_cons] at hne
    rw [flatten_cons, forall_mem_append] at hwell
    rw [flatten_cons] at hends ⊢
    rw [map_cons, collect, splitHandshakeMessages_flightBytes hwell.left]
    rcases hends.cases hne.right with ⟨hany, rfl⟩ | ⟨hany, hrest⟩
    . rw [if_pos hany, flatten_nil, append_nil]
      rfl
    . rw [if_neg (by simp [hany]), ih hne.right hwell.right hrest]
      rfl

theorem collect_eq_ok_iff (hwell : ∀ msg ∈ msgs, WellFormed msg) (hends : EndsInFinished msgs)
    {pieces : List Bytes} (hne : ∀ piece ∈ pieces, piece ≠ [])
    (hpieces : pieces.flatten = flightBytes msgs)
    : collect pieces = .ok msgs ↔ CutBetween msgs pieces := by
  constructor
  . intro h
    exact cutBetween_of_collect pieces hne msgs h (by rw [hpieces])
  . rintro ⟨groups, rfl, rfl⟩
    apply collect_of_groups _ hwell hends
    rintro group hgroup rfl
    exact hne [] (mem_map.mpr ⟨[], hgroup, rfl⟩) rfl

def coverPieces : List Nat → Bytes → List (Nat × Bytes) × Bytes
  | [], flight => ([], flight)
  | ciphertextLen :: lengths, flight =>
    if flight.isEmpty then
      ([], flight)
    else if ciphertextLen - 17 = 0 then
      coverPieces lengths flight
    else
      let take := min flight.length (ciphertextLen - 17)
      let (pieces, rest) := coverPieces lengths (flight.drop take)
      ((ciphertextLen, flight.take take) :: pieces, rest)

def fullPieces : Nat → Bytes → List (Nat × Bytes)
  | 0, _ => []
  | fuel + 1, flight =>
    if flight.isEmpty then
      []
    else
      let take := min flight.length (16 * 1024 - 1)
      (take + 17, flight.take take) :: fullPieces fuel (flight.drop take)

def cutFlight (coverProfile : Option (List Nat)) (flight : Bytes) : List (Nat × Bytes) :=
  let (pieces, rest) := coverPieces (coverProfile.getD []) flight
  pieces ++ fullPieces rest.length rest

def Fits (piece : Nat × Bytes) : Prop :=
  piece.snd ≠ [] ∧ piece.snd.length + 17 ≤ piece.fst

theorem fits_take (hne : ¬ flight.isEmpty = true) (capacity : Nat) (hpos : capacity ≠ 0)
    : flight.take (min flight.length capacity) ≠ []
      ∧ (flight.take (min flight.length capacity)).length ≤ capacity := by
  have hlength : 0 < flight.length := by
    rw [length_pos_iff]
    simpa using hne
  rw [← length_pos_iff, length_take]
  omega

theorem coverPieces_spec (lengths : List Nat) (flight : Bytes)
    : (∀ piece ∈ (coverPieces lengths flight).fst, Fits piece)
      ∧ ((coverPieces lengths flight).fst.map Prod.snd).flatten ++ (coverPieces lengths flight).snd
          = flight := by
  fun_induction coverPieces lengths flight with
  | case1 flight => simp
  | case2 ciphertextLen lengths flight hempty => simp
  | case3 ciphertextLen lengths flight hne hzero ih => exact ih
  | case4 ciphertextLen lengths flight hne hpos take pieces rest hrest ih =>
    rw [hrest] at ih
    have htake := fits_take flight hne (ciphertextLen - 17) hpos
    constructor
    . rw [forall_mem_cons]
      refine ⟨⟨htake.left, ?_⟩, ih.left⟩
      exact (Nat.le_sub_iff_add_le (by omega)).mp htake.right
    . simp only [map_cons, flatten_cons, append_assoc]
      rw [ih.right, take_append_drop]

theorem fullPieces_spec (hfuel : flight.length ≤ fuel)
    : (∀ piece ∈ fullPieces fuel flight, Fits piece ∧ piece.fst ≤ 65535)
      ∧ ((fullPieces fuel flight).map Prod.snd).flatten = flight := by
  induction fuel generalizing flight with
  | zero =>
    have hnil := length_eq_zero_iff.mp (Nat.le_zero.mp hfuel)
    simp [fullPieces, hnil]
  | succ fuel ih =>
    unfold fullPieces
    split
    next hempty =>
      have hempty : flight = [] := by simpa using hempty
      simp [hempty]
    next hne =>
      have htake := fits_take flight hne (16 * 1024 - 1) (by decide)
      have hrest := ih (flight.drop (min flight.length (16 * 1024 - 1))) (by
        rw [length_drop]
        omega)
      constructor
      . rw [forall_mem_cons]
        refine ⟨⟨⟨htake.left, ?_⟩, ?_⟩, hrest.left⟩
        . rw [length_take]
          omega
        . dsimp only
          omega
      . simp only [map_cons, flatten_cons]
        rw [hrest.right, take_append_drop]

theorem fits_of_mem_cutFlight (coverProfile : Option (List Nat)) (flight : Bytes)
    : ∀ piece ∈ cutFlight coverProfile flight, Fits piece := by
  have hcover := coverPieces_spec (coverProfile.getD []) flight
  have hfull := fullPieces_spec _ (coverPieces (coverProfile.getD []) flight).snd (Nat.le_refl _)
  dsimp only [cutFlight]
  rw [forall_mem_append]
  exact ⟨hcover.left, fun piece hpiece => (hfull.left piece hpiece).left⟩

theorem flatten_cutFlight (coverProfile : Option (List Nat)) (flight : Bytes)
    : ((cutFlight coverProfile flight).map Prod.snd).flatten = flight := by
  have hcover := coverPieces_spec (coverProfile.getD []) flight
  have hfull := fullPieces_spec _ (coverPieces (coverProfile.getD []) flight).snd (Nat.le_refl _)
  dsimp only [cutFlight]
  rw [map_append, flatten_append, hfull.right, hcover.right]

section

variable (p : Primitives) (cs : CipherSuite) (hsKeys : HsKeys)

def sealedPieces (seq : Nat) : List (Nat × Bytes) → List Record
  | [] => []
  | piece :: pieces =>
    sealedRecord p cs hsKeys.serverKey hsKeys.serverIv seq piece.snd rtHandshake piece.fst
      :: sealedPieces (seq + 1) pieces

theorem sealedPieces_append (seq : Nat) (front back : List (Nat × Bytes))
    : sealedPieces p cs hsKeys seq (front ++ back)
        = sealedPieces p cs hsKeys seq front
          ++ sealedPieces p cs hsKeys (seq + front.length) back := by
  induction front generalizing seq with
  | nil => rfl
  | cons piece front ih =>
    rw [cons_append, sealedPieces, sealedPieces, ih, cons_append, length_cons,
      Nat.add_assoc, Nat.add_comm 1]

theorem length_le_flatten_sealedPieces (seq : Nat) (pieces : List (Nat × Bytes))
    : pieces.length ≤ ((sealedPieces p cs hsKeys seq pieces).map Record.wire).flatten.length := by
  induction pieces generalizing seq with
  | nil => simp
  | cons piece pieces ih =>
    have hrest := ih (seq + 1)
    simp only [sealedPieces, map_cons, flatten_cons, length_append, Record.wire,
      sealedRecord, length_cons]
    omega

variable (hkey : p.aeadKeyOk cs hsKeys.serverKey = true)

include hkey

theorem coverRecords_eq_ok (lengths : List Nat) (flight : Bytes) (seq : Nat)
    (written : List Bytes) (r : Bytes × Nat × List Bytes)
    : writeEncryptedFlight.coverRecords p cs hsKeys lengths flight seq written = .ok r
        ↔ (∀ piece ∈ (coverPieces lengths flight).fst, piece.fst ≤ 65535)
          ∧ r = ((coverPieces lengths flight).snd,
            seq + (coverPieces lengths flight).fst.length,
            written ++ (sealedPieces p cs hsKeys seq (coverPieces lengths flight).fst).map
              Record.wire) := by
  induction lengths generalizing flight seq written with
  | nil =>
    rw [writeEncryptedFlight.coverRecords, pure_eq_ok, eq_comm]
    simp [coverPieces, sealedPieces]
  | cons ciphertextLen lengths ih =>
    unfold writeEncryptedFlight.coverRecords coverPieces
    by_cases hempty : flight.isEmpty = true
    . rw [if_pos hempty, if_pos hempty, pure_eq_ok, eq_comm]
      simp [sealedPieces]
    rw [if_neg hempty, if_neg hempty]
    by_cases hzero : ciphertextLen - 17 = 0
    . dsimp only
      rw [if_pos hzero, if_pos hzero]
      exact ih flight seq written
    . dsimp only
      rw [if_neg hzero, if_neg hzero, bind_eq_ok]
      have htake := fits_take flight hempty (ciphertextLen - 17) hzero
      have hmin := (Nat.le_sub_iff_add_le (by omega)).mp htake.right
      simp only [encryptAppRecordPadded_eq_ok _ _ _ _ hkey hmin, ih]
      simp only [forall_mem_cons, sealedPieces, map_cons, length_cons,
        append_assoc, singleton_append, and_assoc, exists_and_left, exists_eq_left,
        Nat.add_assoc, Nat.add_comm 1]

theorem fullRecords_eq (fuel : Nat) (flight : Bytes) (seq : Nat) (written : List Bytes)
    : writeEncryptedFlight.fullRecords p cs hsKeys fuel flight seq written
        = .ok (written
          ++ (sealedPieces p cs hsKeys seq (fullPieces fuel flight)).map Record.wire) := by
  induction fuel generalizing flight seq written with
  | zero => simp [fullPieces, writeEncryptedFlight.fullRecords, sealedPieces, pure, Except.pure]
  | succ fuel ih =>
    unfold writeEncryptedFlight.fullRecords fullPieces
    by_cases hempty : flight.isEmpty = true
    . simp [hempty, sealedPieces, pure, Except.pure]
    have hlength : (flight.take (min flight.length (16 * 1024 - 1))).length
        = min flight.length (16 * 1024 - 1) := by
      rw [length_take]
      omega
    rw [if_neg hempty, if_neg hempty]
    dsimp only
    rw [encryptAppRecord_eq _ _ _ hkey, hlength]
    refine (ih _ _ _).trans ?_
    rw [sealedPieces, map_cons, append_assoc, singleton_append]

theorem writeEncryptedFlight_eq_ok (flight : Bytes) (coverProfile : Option (List Nat))
    (records : List Bytes)
    : writeEncryptedFlight p cs hsKeys flight coverProfile = .ok records
        ↔ (∀ piece ∈ cutFlight coverProfile flight, piece.fst ≤ 65535)
          ∧ records
            = (sealedPieces p cs hsKeys 0 (cutFlight coverProfile flight)).map Record.wire := by
  have hfull := fullPieces_spec _ (coverPieces (coverProfile.getD []) flight).snd (Nat.le_refl _)
  unfold writeEncryptedFlight
  simp only [bind_eq_ok, coverRecords_eq_ok p cs hsKeys hkey, and_assoc, exists_and_left,
    exists_eq_left]
  rw [fullRecords_eq p cs hsKeys hkey]
  dsimp only [cutFlight]
  rw [forall_mem_append, sealedPieces_append, map_append, Except.ok.injEq, eq_comm,
    nil_append]
  constructor
  . rintro ⟨hcover, hrecords⟩
    exact ⟨⟨hcover, fun piece hpiece => (hfull.left piece hpiece).right⟩, hrecords⟩
  . rintro ⟨⟨hcover, _⟩, hrecords⟩
    exact ⟨hcover, hrecords⟩

end

section

variable {p : Primitives} (hp : p.Lawful) {hsKeys : HsKeys}
  (hkey : p.aeadKeyOk cs hsKeys.serverKey = true)

include hp hkey

theorem extractMessages_sealedPieces (pieces : List (Nat × Bytes))
    (hfits : ∀ piece ∈ pieces, Fits piece) (hmax : ∀ piece ∈ pieces, piece.fst ≤ 65535)
    (fuel : Nat) (hfuel : pieces.length ≤ fuel) (seq : Nat)
    : extractMessages p cs hsKeys fuel
        ((sealedPieces p cs hsKeys seq pieces).map Record.wire).flatten seq
          = collect (pieces.map Prod.snd) := by
  induction pieces generalizing fuel seq with
  | nil =>
    cases fuel with
    | zero => rfl
    | succ fuel => rfl
  | cons piece pieces ih =>
    cases fuel with
    | zero => simp at hfuel
    | succ fuel =>
      rw [forall_mem_cons] at hfits hmax
      rw [length_cons] at hfuel
      rw [sealedPieces, map_cons, flatten_cons, extractMessages, readRecordOrEof,
        readRecord_sealedRecord hp _ _ _ _ hfits.left.right hmax.left]
      dsimp only
      rw [pure_bind]
      have htype : (sealedRecord p cs hsKeys.serverKey hsKeys.serverIv seq piece.snd rtHandshake
          piece.fst).type = rtApplicationData := rfl
      rw [htype, if_neg (by decide), if_neg (by decide), if_pos rfl,
        decryptAppRecord_sealedRecord hp _ _ _ _ hkey (by decide), map_cons, collect,
        ← ih hfits.right hmax.right fuel (by omega) (seq + 1)]
      rfl

theorem extractMessages_writeEncryptedFlight (flight : Bytes) (coverProfile : Option (List Nat))
    (msgs : List Message)
    : (∃ records, writeEncryptedFlight p cs hsKeys flight coverProfile = .ok records
        ∧ extractMessages p cs hsKeys records.flatten.length records.flatten 0 = .ok msgs)
      ↔ (∀ piece ∈ cutFlight coverProfile flight, piece.fst ≤ 65535)
        ∧ collect ((cutFlight coverProfile flight).map Prod.snd) = .ok msgs := by
  simp only [writeEncryptedFlight_eq_ok p cs hsKeys hkey, and_assoc, exists_and_left,
    exists_eq_left]
  apply and_congr_right
  intro hmax
  rw [extractMessages_sealedPieces hp hkey _ (fits_of_mem_cutFlight coverProfile flight)
    hmax _ (length_le_flatten_sealedPieces p cs hsKeys 0 _)]

end

theorem serverFlight_spec
    (hsizes : ∀ body ∈ [encryptedExtensions, certificate, certificateVerify, finished],
      body.length < 2 ^ 24)
    : (∀ msg ∈ serverFlight encryptedExtensions certificate certificateVerify finished,
        WellFormed msg)
      ∧ EndsInFinished
        (serverFlight encryptedExtensions certificate certificateVerify finished) := by
  simp only [forall_mem_cons, not_mem_nil, false_implies, implies_true, and_true]
    at hsizes
  rcases hsizes with ⟨hee, hcert, hcv, hfin⟩
  constructor
  . simp only [serverFlight, forall_mem_cons, not_mem_nil, false_implies, implies_true,
      and_true]
    exact ⟨⟨_, hee, rfl⟩, ⟨_, hcert, rfl⟩, ⟨_, hcv, rfl⟩, ⟨_, hfin, rfl⟩⟩
  . refine ⟨[handshakeMessage hsEncryptedExtensions encryptedExtensions,
      handshakeMessage hsCertificate certificate,
      handshakeMessage hsCertificateVerify certificateVerify],
      handshakeMessage hsFinished finished, rfl, rfl, ?_⟩
    simp only [forall_mem_cons]
    dsimp only [handshakeMessage]
    exact ⟨by decide, by decide, by decide⟩

theorem encrypted_flight_round_trip_iff (p : Primitives) (hp : p.Lawful) (cs : CipherSuite)
    (hsKeys : HsKeys) (hkey : p.aeadKeyOk cs hsKeys.serverKey = true)
    (encryptedExtensions certificate certificateVerify finished : Bytes)
    (hsizes : ∀ body ∈ [encryptedExtensions, certificate, certificateVerify, finished],
      body.length < 2 ^ 24)
    (coverProfile : Option (List Nat)) (msgs : List Message)
    (hmsgs : msgs = serverFlight encryptedExtensions certificate certificateVerify finished)
    : (∃ records, writeEncryptedFlight p cs hsKeys (flightBytes msgs) coverProfile = .ok records
        ∧ extractMessages p cs hsKeys records.flatten.length records.flatten 0 = .ok msgs)
      ↔ (∀ piece ∈ cutFlight coverProfile (flightBytes msgs), piece.fst ≤ 65535)
        ∧ CutBetween msgs ((cutFlight coverProfile (flightBytes msgs)).map Prod.snd) := by
  have hspec := serverFlight_spec hsizes
  rw [← hmsgs] at hspec
  rw [extractMessages_writeEncryptedFlight hp hkey]
  apply and_congr_right
  intro _
  apply collect_eq_ok_iff hspec.left hspec.right
  . intro piece hpiece
    rcases mem_map.mp hpiece with ⟨cut, hcut, rfl⟩
    exact (fits_of_mem_cutFlight _ _ cut hcut).left
  . apply flatten_cutFlight

def flightKeys : HsKeys where
  clientKey := []
  clientIv := []
  clientFinishedKey := []
  serverKey := [0, 1, 2, 3, 4, 5, 6, 7, 8, 9, 10, 11, 12, 13, 14, 15]
  serverIv := replicate 12 0
  serverFinishedKey := []
  masterSecret := []

def flightKey : AeadKey := ⟨.aes128Gcm, flightKeys.serverKey, rfl⟩

-- What AES-128-GCM makes of the records below.
def knownFlights : List KnownSeal :=
  [
    ⟨flightKey, computeNonce flightKeys.serverIv 0,
      [8, 0, 0, 2, 0, 0, 11, 0, 0, 0, 15, 0, 0, 0, 20, 0, 0, 0, 22, 0, 0, 0, 0, 0],
      [
        0x41, 0xd6, 0x87, 0x51, 0x99, 0x9b, 0xad, 0x8c, 0xe3, 0x89, 0x75, 0x68, 0x60, 0x81, 0xa4,
        0x9d, 0xb9, 0xad, 0x3d, 0x2e, 0x34, 0x6a, 0xc2, 0x38, 0x10, 0x5c, 0x58, 0xe9, 0x53, 0x43,
        0x2a, 0xbe, 0x0c, 0x68, 0xde, 0xf2, 0x2e, 0xf4, 0x6e, 0x2a
      ]⟩,
    ⟨flightKey, computeNonce flightKeys.serverIv 0, [8, 0, 0, 2, 0, 0, 11, 0, 22],
      [
        0x41, 0xd6, 0x87, 0x51, 0x99, 0x9b, 0xad, 0x8c, 0xf5, 0x72, 0x07, 0x6f, 0xcb, 0x73, 0x36,
        0xbd, 0x88, 0xd9, 0x11, 0xd8, 0x90, 0x09, 0xe7, 0x26, 0x50
      ]⟩,
    ⟨flightKey, computeNonce flightKeys.serverIv 1, [0, 0, 15, 0, 0, 0, 20, 0, 0, 0, 22],
      [
        0xba, 0xd5, 0xa0, 0x63, 0xcd, 0xe9, 0xde, 0x2e, 0x4e, 0x44, 0x52, 0x23, 0xf3, 0xa0, 0x64,
        0xa6, 0x9e, 0xe0, 0x15, 0x0f, 0xed, 0x6d, 0x88, 0x80, 0xe4, 0x16, 0x92
      ]⟩
  ]

def flightPrimitives : Primitives :=
  plainPrimitives.withAead (Aead.ofTable knownFlights)

theorem lawful_flightPrimitives : flightPrimitives.Lawful := by
  apply Primitives.lawful_withAead
  apply Aead.lawful_ofTable
  decide +kernel

theorem encrypted_flight_round_trip_iff_oneRecord
    : ∃ records,
        writeEncryptedFlight flightPrimitives .aes128GcmSha256 flightKeys
          (flightBytes (serverFlight [0, 0] [] [] [])) (some [40]) = .ok records
        ∧ extractMessages flightPrimitives .aes128GcmSha256 flightKeys records.flatten.length
          records.flatten 0 = .ok (serverFlight [0, 0] [] [] []) := by
  apply (encrypted_flight_round_trip_iff flightPrimitives lawful_flightPrimitives .aes128GcmSha256
    flightKeys (by decide +kernel) [0, 0] [] [] [] (by decide +kernel) (some [40])
    (serverFlight [0, 0] [] [] []) rfl).mpr
  refine ⟨by decide +kernel, [serverFlight [0, 0] [] [] []], rfl, by decide +kernel⟩

theorem encrypted_flight_loses_messages
    : ∃ records,
        writeEncryptedFlight flightPrimitives .aes128GcmSha256 flightKeys
          (flightBytes (serverFlight [0, 0] [] [] [])) (some [25]) = .ok records
        ∧ extractMessages flightPrimitives .aes128GcmSha256 flightKeys records.flatten.length
          records.flatten 0 = fail (.io .unexpectedEof) := by
  refine ⟨(sealedPieces flightPrimitives .aes128GcmSha256 flightKeys 0
    (cutFlight (some [25]) (flightBytes (serverFlight [0, 0] [] [] [])))).map Record.wire, ?_, ?_⟩
  . decide +kernel
  . decide +kernel

end Blackwire.Reality
