import Mathlib.Logic.Function.Basic
import Mathlib.Algebra.Ring.Nat
import Blackwire.Common.Address
import Blackwire.Lib.Machine

/-!
This module contains the filter for replayed salts and the handshake of the SS-2022 inbound, up to
the point where the request is accepted, with the verification of the replay protection. The
handshake waits for the network between the check of the timestamp and the check of the salt, so it
is cut in two there, and the inbound is a machine whose events are the two halves of the handshakes
of all connections and the ticks of the background task of the replay filter. Instants are
nanoseconds.
-/

namespace Blackwire.Ss2022

abbrev Salt := Vector UInt8 32

def nanosPerSec : Nat := 1000000000

def asSecs (now : Nat) : Nat :=
  now / nanosPerSec

def ttlSecs : Nat := 60

structure SaltReplay where
  inner : Salt → Option Nat

namespace SaltReplay

def new : SaltReplay where
  inner := fun _ => none

def checkAndInsert (filter : SaltReplay) (salt : Salt) (now : Nat) : Bool × SaltReplay :=
  match filter.inner salt with
  | some _ => (false, filter)
  | none => (true, ⟨Function.update filter.inner salt (some now)⟩)

def reap (filter : SaltReplay) (now : Nat) : SaltReplay where
  inner := fun salt =>
    (filter.inner salt).filter fun stamp => decide (now - stamp < ttlSecs * nanosPerSec)

end SaltReplay

open Bytes

structure Cipher where
  deriveSubkey : List UInt8 → Salt → List UInt8
  decrypt : List UInt8 → List UInt8 → List UInt8 → Option (List UInt8)

def maxTimeDiff : Nat := 30

def typeTcp : UInt8 := 0x00

def typeServer : UInt8 := 0x01

def makeNonce (counter : Nat) : List UInt8 :=
  (List.range 8).map (fun i => UInt8.ofNat (counter / 256 ^ i)) ++ List.replicate 4 0

def absDiff (a b : Nat) : Nat :=
  max a b - min a b

def parseVariableHeader (data : List UInt8) : Except ProxyError (Address × List UInt8) :=
  match data with
  | [] => .error (.protocol "SS-2022: empty variable header")
  | atyp :: rest => do
    let (dest, consumed) ← decodeSocks5Address rest atyp "SS-2022"
    let pos := 1 + consumed
    if pos + 2 > data.length then
      .error (.protocol "SS-2022: truncated padding length")
    else
      let padLen := ofBigEndian ((data.drop pos).take 2)
      let pos := pos + 2
      if pos + padLen > data.length then
        .error (.protocol "SS-2022: truncated padding")
      else
        return (dest, data.drop (pos + padLen))

-- The last two bytes are the length of the initial payload, which is zero.
def buildResponseFixedHeader (reqSalt : Salt) (now : Nat) : List UInt8 :=
  typeServer :: (toBigEndian 8 (asSecs now) ++ reqSalt.toList ++ [0, 0])

structure Pending where
  salt : Salt
  subkey : List UInt8
  ts : Nat
  variableLen : Nat

-- `handle` from its start to the point where it reads the variable header.
def readFixedHeader (c : Cipher) (psk : Option (List UInt8)) (salt : Salt) (fixedCt : List UInt8)
    (now : Nat) : Except ProxyError Pending :=
  match psk with
  | none => .error (.protocol "SS-2022 auth store is empty")
  | some psk =>
    let subkey := c.deriveSubkey psk salt
    match c.decrypt subkey (makeNonce 0) fixedCt with
    | none => .error (.protocol "SS-2022: fixed header decrypt failed")
    | some fixed =>
      if fixed.length ≠ 11 ∨ fixed.head? ≠ some typeTcp then
        .error (.protocol "SS-2022: invalid request fixed header")
      else
        let ts := ofBigEndian ((fixed.drop 1).take 8)
        if absDiff ts (asSecs now) > maxTimeDiff then
          .error .authFailed
        else
          .ok ⟨salt, subkey, ts, ofBigEndian ((fixed.drop 9).take 2)⟩

-- `handle` from the variable header to the end of the handshake.
def readVariableHeader (c : Cipher) (filter : SaltReplay) (p : Pending) (varCt : List UInt8)
    (now : Nat) : Except ProxyError (Address × List UInt8) × SaltReplay :=
  match c.decrypt p.subkey (makeNonce 1) varCt with
  | none => (.error (.protocol "SS-2022: variable header decrypt failed"), filter)
  | some header =>
    match parseVariableHeader header with
    | .error e => (.error e, filter)
    | .ok (dest, initialPayload) =>
      match filter.checkAndInsert p.salt now with
      | (false, filter) => (.error .authFailed, filter)
      | (true, filter) => (.ok (dest, initialPayload), filter)

inductive Event where
  | fixedHeader (conn : Nat) (psk : Option (List UInt8)) (salt : Salt) (fixedCt : List UInt8)
  | variableHeader (conn : Nat) (varCt : List UInt8)
  | disconnect (conn : Nat)
  | reap

/--
The inbound at one point in time. The headers it has accepted so far are recorded for the
specification only.
-/
structure Inbound where
  now : Nat
  replay : SaltReplay
  pending : Nat → Option Pending
  accepted : List (Salt × Nat)

namespace Inbound

def init (now : Nat) : Inbound where
  now := now
  replay := SaltReplay.new
  pending := fun _ => none
  accepted := []

def step (c : Cipher) (s : Inbound) (e : Nat × Event) : Inbound :=
  let (now, event) := e
  match event with
  | .fixedHeader conn psk salt fixedCt =>
    match readFixedHeader c psk salt fixedCt now with
    | .error _ => { s with now := now, pending := Function.update s.pending conn none }
    | .ok p => { s with now := now, pending := Function.update s.pending conn (some p) }
  | .variableHeader conn varCt =>
    match s.pending conn with
    | none => { s with now := now }
    | some p =>
      -- `read_exact` waits until all of the bytes are there.
      if varCt.length = p.variableLen + 16 then
        match readVariableHeader c s.replay p varCt now with
        | (.error _, replay) =>
          { s with now := now, replay := replay, pending := Function.update s.pending conn none }
        | (.ok _, replay) =>
          { s with
            now := now
            replay := replay
            pending := Function.update s.pending conn none
            accepted := (p.salt, p.ts) :: s.accepted }
      else
        { s with now := now }
  | .disconnect conn => { s with now := now, pending := Function.update s.pending conn none }
  | .reap => { s with now := now, replay := s.replay.reap now }

def Enabled (s : Inbound) (e : Nat × Event) : Prop :=
  s.now ≤ e.fst

instance (s : Inbound) (e : Nat × Event) : Decidable (s.Enabled e) :=
  inferInstanceAs (Decidable (_ ≤ _))

end Inbound

open Machine

theorem asSecs_mono (h : a ≤ b) : asSecs a ≤ asSecs b := by
  apply Nat.div_le_div_right
  exact h

theorem asSecs_of_ttl (stamp now : Nat) (h : ttlSecs * nanosPerSec ≤ now - stamp)
    (hstamp : stamp ≤ now)
    : asSecs stamp + ttlSecs ≤ asSecs now := by
  unfold asSecs
  unfold ttlSecs nanosPerSec at h ⊢
  omega

def Expired (ts now : Nat) : Prop :=
  ts + maxTimeDiff < asSecs now

theorem Expired.mono (h : Expired ts now) (hle : now ≤ now')
    : Expired ts now' := by
  have := asSecs_mono hle
  unfold Expired at h ⊢
  omega

theorem Expired.absDiff_gt (ts now : Nat) (h : Expired ts now)
    : absDiff ts (asSecs now) > maxTimeDiff := by
  unfold Expired at h
  unfold absDiff
  omega

theorem readVariableHeader_cases
    : (∃ err, readVariableHeader c filter p varCt now = (.error err, filter))
        ∨
      (filter.inner p.salt = none
        ∧ ∃ request, readVariableHeader c filter p varCt now
            = (.ok request, ⟨Function.update filter.inner p.salt (some now)⟩)) := by
  unfold readVariableHeader
  split
  . apply Or.inl
    exact ⟨_, rfl⟩
  split
  . apply Or.inl
    exact ⟨_, rfl⟩
  unfold SaltReplay.checkAndInsert
  cases hsalt : filter.inner p.salt with
  | some stamp =>
    apply Or.inl
    exact ⟨_, rfl⟩
  | none =>
    apply Or.inr
    exact ⟨rfl, _, rfl⟩

namespace Inbound

/--
A handshake only ends while its timestamp is still in the window, and less than `maxTimeDiff`
seconds ahead of the clock.
-/
def Timely (s : Inbound) (e : Nat × Event) : Prop :=
  match e.snd with
  | .variableHeader conn _ =>
    ∀ p, s.pending conn = some p
      → asSecs e.fst ≤ p.ts + maxTimeDiff ∧ p.ts < asSecs e.fst + maxTimeDiff
  | _ => True

instance (s : Inbound) (e : Nat × Event) : Decidable (s.Timely e) :=
  match e with
  | (now, .variableHeader conn _) =>
    match h : s.pending conn with
    | none => isTrue (by simp [Timely, h])
    | some p =>
      decidable_of_iff (asSecs now ≤ p.ts + maxTimeDiff ∧ p.ts < asSecs now + maxTimeDiff)
        (by simp [Timely, h])
  | (_, .fixedHeader _ _ _ _) => isTrue trivial
  | (_, .disconnect _) => isTrue trivial
  | (_, .reap) => isTrue trivial

def Remembered (s : Inbound) (header : Salt × Nat) : Prop :=
  Expired header.snd s.now
    ∨ ∃ stamp, s.replay.inner header.fst = some stamp
        ∧ stamp ≤ s.now
        ∧ header.snd < asSecs stamp + maxTimeDiff

structure Inv (s : Inbound) : Prop where
  nodup : s.accepted.Nodup
  remembered : ∀ header ∈ s.accepted, s.Remembered header

theorem Remembered.mono {s s' : Inbound} (hnow : s.now ≤ s'.now) (hreplay : s'.replay = s.replay)
    (h : s.Remembered header)
    : s'.Remembered header := by
  cases h with
  | inl h =>
    apply Or.inl
    exact h.mono hnow
  | inr h =>
    rcases h with ⟨stamp, hstamp, hle, hts⟩
    apply Or.inr
    refine ⟨stamp, ?_, by omega, hts⟩
    rw [hreplay]
    exact hstamp

theorem Remembered.expired {s : Inbound} (h : s.Remembered header)
    (hvacant : s.replay.inner header.fst = none)
    : Expired header.snd s.now := by
  cases h with
  | inl hexp => exact hexp
  | inr hkept =>
    rcases hkept with ⟨stamp, hstamp, _⟩
    rw [hvacant] at hstamp
    simp at hstamp

theorem Remembered.insert {s s' : Inbound} (h : s.Remembered header) (hnow : s.now ≤ s'.now)
    (hvacant : s.replay.inner salt = none)
    (hreplay : s'.replay = ⟨Function.update s.replay.inner salt (some s'.now)⟩)
    : s'.Remembered header := by
  by_cases hsalt : header.fst = salt
  . apply Or.inl
    rw [← hsalt] at hvacant
    exact (h.expired hvacant).mono hnow
  . cases h with
    | inl hexp =>
      apply Or.inl
      exact hexp.mono hnow
    | inr hkept =>
      rcases hkept with ⟨stamp, hstamp, hle, hts⟩
      apply Or.inr
      refine ⟨stamp, ?_, by omega, hts⟩
      rw [hreplay]
      dsimp only
      rw [Function.update_of_ne hsalt]
      exact hstamp

theorem Inv.frame {s s' : Inbound} (h : s.Inv) (hnow : s.now ≤ s'.now)
    (hreplay : s'.replay = s.replay) (haccepted : s'.accepted = s.accepted)
    : s'.Inv := by
  constructor
  . rw [haccepted]
    exact h.nodup
  . rw [haccepted]
    intro header hmem
    apply (h.remembered header hmem).mono hnow hreplay

theorem inv_init {now : Nat} : (init now).Inv := by
  constructor
  . exact List.nodup_nil
  . intro header hmem
    simp [init] at hmem

theorem inv_reap {s : Inbound} {now : Nat} (hnow : s.now ≤ now) (h : s.Inv)
    : Inv { s with now := now, replay := s.replay.reap now } := by
  constructor
  . exact h.nodup
  . intro header hmem
    cases h.remembered header hmem with
    | inl hexp =>
      apply Or.inl
      exact hexp.mono hnow
    | inr hkept =>
      rcases hkept with ⟨stamp, hstamp, hle, hts⟩
      by_cases hfresh : now - stamp < ttlSecs * nanosPerSec
      . apply Or.inr
        refine ⟨stamp, ?_, by dsimp only; omega, hts⟩
        simp [SaltReplay.reap, hstamp, hfresh]
      -- The salt is dropped: by now the window of the header has passed.
      . apply Or.inl
        have := asSecs_of_ttl stamp now (by omega) (by omega)
        unfold Expired
        unfold ttlSecs at this
        unfold maxTimeDiff at hts ⊢
        dsimp only
        omega

theorem step_cases
    : (step c s e).now = e.fst
        ∧
      (((step c s e).replay = s.replay ∧ (step c s e).accepted = s.accepted)
        ∨ (step c s e = { s with now := e.fst, replay := s.replay.reap e.fst })
        ∨ (∃ conn varCt p, e.snd = .variableHeader conn varCt
            ∧ s.pending conn = some p
            ∧ s.replay.inner p.salt = none
            ∧ (step c s e).replay = ⟨Function.update s.replay.inner p.salt (some e.fst)⟩
            ∧ (step c s e).accepted = (p.salt, p.ts) :: s.accepted)) := by
  rcases e with ⟨now, event⟩
  cases event with
  | fixedHeader conn psk salt fixedCt =>
    unfold step
    dsimp only
    split <;> exact ⟨rfl, Or.inl ⟨rfl, rfl⟩⟩
  | disconnect conn => exact ⟨rfl, Or.inl ⟨rfl, rfl⟩⟩
  | reap => exact ⟨rfl, Or.inr (Or.inl rfl)⟩
  | variableHeader conn varCt =>
    unfold step
    dsimp only
    split
    . exact ⟨rfl, Or.inl ⟨rfl, rfl⟩⟩
    . next p hp =>
      split
      . cases readVariableHeader_cases with
        | inl herr =>
          rcases herr with ⟨err, herr⟩
          rw [herr]
          exact ⟨rfl, Or.inl ⟨rfl, rfl⟩⟩
        | inr hok =>
          rcases hok with ⟨hvacant, request, hok⟩
          rw [hok]
          refine ⟨rfl, Or.inr (Or.inr ?_)⟩
          exact ⟨conn, varCt, p, rfl, hp, hvacant, rfl, rfl⟩
      . exact ⟨rfl, Or.inl ⟨rfl, rfl⟩⟩

theorem inv_accept {s s' : Inbound} {p : Pending} (h : s.Inv) (hnow : s.now ≤ s'.now)
    (hvacant : s.replay.inner p.salt = none)
    (hreplay : s'.replay = ⟨Function.update s.replay.inner p.salt (some s'.now)⟩)
    (haccepted : s'.accepted = (p.salt, p.ts) :: s.accepted)
    (hfresh : asSecs s'.now ≤ p.ts + maxTimeDiff) (hahead : p.ts < asSecs s'.now + maxTimeDiff)
    : s'.Inv := by
  constructor
  . rw [haccepted, List.nodup_cons]
    constructor
    . intro hmem
      have hexp := ((h.remembered _ hmem).expired hvacant).mono hnow
      unfold Expired at hexp
      omega
    . exact h.nodup
  . rw [haccepted, List.forall_mem_cons]
    constructor
    . apply Or.inr
      refine ⟨s'.now, ?_, Nat.le_refl _, hahead⟩
      rw [hreplay]
      exact Function.update_self _ _ _
    . intro header hmem
      exact (h.remembered header hmem).insert hnow hvacant hreplay

theorem inv_step {c : Cipher} {s : Inbound} (h : s.Inv) (henabled : s.Enabled e)
    (htimely : s.Timely e)
    : (step c s e).Inv := by
  rcases step_cases with ⟨hnow, hcases⟩
  have hle : s.now ≤ (step c s e).now := by
    rw [hnow]
    exact henabled
  rcases hcases with hsame | hreap | haccept
  . exact h.frame hle hsame.left hsame.right
  . rw [hreap]
    exact inv_reap henabled h
  rcases haccept with ⟨conn, varCt, p, hevent, hpending, hvacant, hreplay, haccepted⟩
  unfold Timely at htimely
  rw [hevent] at htimely
  have hwindow := htimely p hpending
  rw [← hnow] at hreplay hwindow
  exact inv_accept h hle hvacant hreplay haccepted hwindow.left hwindow.right

theorem accepted_at_most_once (c : Cipher) (start : Nat) (s : Inbound)
    (h : Reach (step c) (fun s e => s.Enabled e ∧ s.Timely e) (init start) s)
    : s.accepted.Nodup
        ∧
      ∀ salt ts, (salt, ts) ∈ s.accepted → s.replay.inner salt = none
        → ∀ now, s.now ≤ now → absDiff ts (asSecs now) > maxTimeDiff := by
  have hinv : s.Inv := by
    apply Reach.invariant Inv (init start) s inv_init _ h
    intro t e ht he
    exact inv_step ht he.left he.right
  constructor
  . exact hinv.nodup
  . intro salt ts hmem hforgotten now hnow
    apply Expired.absDiff_gt
    exact ((hinv.remembered (salt, ts) hmem).expired hforgotten).mono hnow

-- A cipher that only appends a tag of 16 bytes.
def tagCipher : Cipher where
  deriveSubkey := fun psk _ => psk
  decrypt := fun _ _ ct => if ct.length < 16 then none else some (ct.take (ct.length - 16))

-- Both halves of a handshake with a timestamp of `1700000030` and the destination `127.0.0.1:80`.
def handshake (conn : Nat) : List Event :=
  [
    .fixedHeader conn (some []) (Vector.replicate 32 0)
      ([0x00, 0, 0, 0, 0, 0x65, 0x53, 0xf1, 0x1e, 0, 9] ++ List.replicate 16 0),
    .variableHeader conn ([0x01, 127, 0, 0, 1, 0, 80, 0, 0] ++ List.replicate 16 0)
  ]

def replayRun : List (Nat × Event) :=
  (handshake 0).map (fun e => (1700000000 * nanosPerSec, e))
    ++ [(1700000060 * nanosPerSec, .reap)]
    ++ (handshake 1).map (fun e => (1700000060 * nanosPerSec, e))

theorem replayed_header_accepted
    : ∃ s, Reach (step tagCipher) Enabled (init (1700000000 * nanosPerSec)) s
        ∧ s.accepted = [(Vector.replicate 32 0, 1700000030), (Vector.replicate 32 0, 1700000030)]
        ∧ ¬ s.accepted.Nodup := by
  refine ⟨replayRun.foldl (step tagCipher) (init (1700000000 * nanosPerSec)), ?_, by decide,
    by decide⟩
  apply Reach.foldl
  . apply Reach.start
  . decide

theorem accepted_at_most_once_same_second
    : ∃ s : Inbound, s.accepted = [(Vector.replicate 32 0, 1700000030)] ∧ s.accepted.Nodup := by
  let run := (handshake 0 ++ handshake 1).map fun e => (1700000030 * nanosPerSec, e)
  have hreach : Reach (step tagCipher) (fun s e => s.Enabled e ∧ s.Timely e)
      (init (1700000030 * nanosPerSec))
      (run.foldl (step tagCipher) (init (1700000030 * nanosPerSec))) := by
    apply Reach.foldl
    . apply Reach.start
    . decide
  exact ⟨_, by decide, (accepted_at_most_once tagCipher _ _ hreach).left⟩

end Inbound
end Blackwire.Ss2022
