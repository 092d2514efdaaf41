import Mathlib.Algebra.Group.Prod
import Blackwire.App.Relay
import Blackwire.App.Impl.RuntimeStats
import Blackwire.App.Zerocopy
import Mathlib.Tactic.Abel
import Blackwire.Common.Splice
import Blackwire.Cli.RuntimeCounters

/-!
This module contains a connection of the dispatcher with the traffic that is counted for it: what is
written ahead of the relay, the relay with all of its paths, and the accounts at its end, with their
verification. An amount is a pair of the bytes from the client and the bytes to it.
-/

namespace Blackwire.Dispatch

open Splice (Side)
open TcpRelay (SpliceBackendPolicy selectBackend adaptiveSpliceReady updateFullReadStreak)
open Zerocopy (FastZerocopyPolicy)

def liveTrafficFlushBytes : Nat := 64 * 1024
def pooledFirstWriteGuardBufSize : Nat := 2048

abbrev Traffic := Nat × Nat

def traffic (side : Side) (n : Nat) : Traffic :=
  match side with
  | .up => (n, 0)
  | .down => (0, n)

inductive FastSplicePolicy where
  | adaptive
  | disabled
  | always
deriving DecidableEq

inductive VisionDirectCopyPolicy where
  | auto
  | disabled
  | require
deriving DecidableEq

inductive Platform where
  | linux
  | other

structure Policies where
  fast : Bool
  splice : FastSplicePolicy
  zerocopy : FastZerocopyPolicy
  backend : SpliceBackendPolicy
  directCopy : VisionDirectCopyPolicy
  allowSpliceAfterDirect : Bool

inductive Stream where
  | tcp
  | pooledTcp
  | vision
  | prepended (len : Nat) (inner : Stream)
  | other
deriving DecidableEq

namespace Stream

def tryIntoTcpStreamWithPrefix : Stream → Option Nat
  | tcp => some 0
  | pooledTcp => some 0
  | prepended len inner => inner.tryIntoTcpStreamWithPrefix.map (len + ·)
  | vision => none
  | other => none

def isVision : Stream → Bool
  | vision => true
  | prepended _ inner => inner.isVision
  | _ => false

def read (size n : Nat) : Stream → Nat × Stream
  | prepended 0 inner =>
    let (n, inner) := inner.read size n
    (n, prepended 0 inner)
  | prepended len inner => (min len size, prepended (len - min len size) inner)
  | s => (min n size, s)

end Stream

def deliveredBy (attempt : Splice.Relay) : Traffic :=
  ((attempt.conduit .up).delivered.length, (attempt.conduit .down).delivered.length)

structure BufferedTrafficRecorder where
  pending : Traffic
  sawLiveTraffic : Bool

inductive Stage where
  | prefixing (left : Traffic)
  | visionPrefixing (left : Nat)
  | copying
  | zerocopying
  | deciding (streak : Side → Nat)
  | selecting (streak : Side → Nat)
  | splicing (probing : Bool) (streak : Option (Side → Nat)) (attempt : Splice.Relay)
  | vision
  | returned (result : Option Traffic)
  | settled (result : Option Traffic)

/--
What has reached the other side, by the way it took: ahead of the relay, as a prefix, through a loop
with the recorder, with `MSG_ZEROCOPY`, or through the pipes of `splice`, together with what the
attempts to splice have reported of the latter.
-/
structure Carried where
  prewritten : Traffic
  prefixed : Traffic
  copied : Traffic
  zerocopied : Traffic
  spliced : Traffic
  reported : Traffic

structure Connection where
  platform : Platform
  policies : Policies
  uringAvailable : Option Bool
  prewrittenUp : Nat
  stage : Stage
  counted : Traffic
  eof : Side → Bool
  recorder : BufferedTrafficRecorder
  calls : List Traffic
  carried : Carried

inductive Event where
  | wrotePrefix
  | transfer (side : Side) (n : Nat)
  | ended (side : Side)
  | turn (elapsed : Nat)
  | splice (e : Splice.Event)
  | spliceReturned
  | direct (unwrapped : Option Nat)
  | probed (available : Bool)
  | failed
  | cancelled
  | settle

namespace Connection

variable (s : Connection)

def flush : Connection :=
  let amount := s.recorder.pending
  { s with
    recorder := { s.recorder with pending := 0 }
    calls := if amount.fst > 0 ∨ amount.snd > 0 then s.calls ++ [amount] else s.calls }

def record (amount : Traffic) : Connection :=
  if amount.fst = 0 ∧ amount.snd = 0 then
    s
  else
    let pending := s.recorder.pending + amount
    let s := { s with recorder := ⟨pending, true⟩ }
    if pending.fst + pending.snd ≥ liveTrafficFlushBytes then
      s.flush
    else
      s

def copy (amount : Traffic) : Connection :=
  { s with
    counted := s.counted + amount
    carried := { s.carried with copied := s.carried.copied + amount } }.record amount

def spliceBidirectional (streak : Option (Side → Nat)) : Connection :=
  let (backend, probing) := selectBackend s.policies.backend s.uringAvailable
  { s with stage := .splicing probing streak (.start backend fun _ => .empty) }

def adaptiveCopyThenSplice : Connection :=
  { s with stage := .deciding fun _ => 0 }

def prefixesWritten : Connection :=
  match s.policies.splice with
  | .disabled =>
    if s.policies.zerocopy ≠ .disabled then
      { s with stage := .zerocopying }
    else
      { s with stage := .copying }
  | .adaptive => s.adaptiveCopyThenSplice
  | .always => s.spliceBidirectional none

def writePrefixes (left : Traffic) : Connection :=
  if left.fst = 0 ∧ left.snd = 0 then
    s.prefixesWritten
  else
    { s with stage := .prefixing left }

def relayVisionInbound (outbound : Stream) : Connection :=
  match outbound.tryIntoTcpStreamWithPrefix with
  | none => { s with stage := .copying }
  | some len =>
    { s with
      counted := (0, len)
      stage := if len = 0 then .vision else .visionPrefixing len }

-- `relay_bidirectional_with_policies_and_recorder` up to its first wait.
def relayBidirectional (inbound outbound : Stream) : Connection :=
  match s.platform with
  | .other => { s with stage := if inbound.isVision then .vision else .copying }
  | .linux =>
    match inbound.tryIntoTcpStreamWithPrefix with
    | none =>
      if inbound.isVision then
        s.relayVisionInbound outbound
      else
        { s with stage := .copying }
    | some prefixUp =>
      match outbound.tryIntoTcpStreamWithPrefix with
      | none => { s with stage := .copying }
      | some prefixDown =>
        { s with counted := (prefixUp, prefixDown) }.writePrefixes (prefixUp, prefixDown)

def wrotePrefix : Connection :=
  match s.stage with
  | .prefixing (up, down) =>
    let written := if up ≠ 0 then (up, 0) else (0, down)
    let left := if up ≠ 0 then (0, down) else 0
    { s with carried := { s.carried with prefixed := s.carried.prefixed + written } }.writePrefixes
      left
  | .visionPrefixing len =>
    { s with
      carried := { s.carried with prefixed := s.carried.prefixed + traffic .down len }
      stage := .vision }
  | _ => s

def transfer (side : Side) (n : Nat) : Connection :=
  match s.stage with
  | .copying => s.copy (traffic side n)
  | .vision => s.copy (traffic side n)
  | .zerocopying =>
    { s with
      counted := s.counted + traffic side n
      carried := { s.carried with zerocopied := s.carried.zerocopied + traffic side n } }
  | .selecting streak =>
    let streak := Function.update streak side
      (updateFullReadStreak (streak side) n TcpRelay.adaptiveCopyBufferBytes)
    { s.copy (traffic side n) with stage := .deciding streak }
  | _ => s

def head : Connection :=
  if s.eof .up && s.eof .down then { s with stage := .returned (some s.counted) } else s

def ended (side : Side) : Connection :=
  let s := { s with eof := Function.update s.eof side true }
  match s.stage with
  | .selecting streak => { s with stage := .deciding streak }
  | _ => s.head

def readyForDirections (streak : Side → Nat) (elapsed : Nat) : Bool :=
  adaptiveSpliceReady (UInt64.ofNat s.counted.fst) elapsed (streak .up)
    || adaptiveSpliceReady (UInt64.ofNat s.counted.snd) elapsed (streak .down)

def turn (elapsed : Nat) : Connection :=
  match s.stage with
  | .deciding streak =>
    if !s.eof .up && !s.eof .down && s.readyForDirections streak elapsed then
      s.spliceBidirectional (some streak)
    else
      { s with stage := .selecting streak }.head
  | _ => s

def spliceReturned : Connection :=
  match s.stage with
  | .splicing probing streak attempt =>
    let spliced := s.carried.spliced + deliveredBy attempt
    match attempt.result with
    | none => s
    | some (.ok pair) =>
      let more := (pair.fst.toNat, pair.snd.toNat)
      { s with
        uringAvailable := if probing then some (s.uringAvailable.getD true) else s.uringAvailable
        carried := { s.carried with spliced, reported := s.carried.reported + more }
        counted := s.counted + more
        stage := .returned (some (s.counted + more)) }
    | some (.error _) =>
      let s := { s with carried := { s.carried with spliced } }
      if probing then
        { s with
          uringAvailable := some (s.uringAvailable.getD false)
          stage := .splicing false streak (.start .epoll fun _ => .empty) }
      else
        match streak with
        | none => { s with stage := .copying }
        | some streak => { s with stage := .selecting streak }
  | _ => s

def spliceAfterDirect (p : Policies) : Bool :=
  p.directCopy ≠ .disabled && p.allowSpliceAfterDirect

def direct (unwrapped : Option Nat) : Connection :=
  match s.platform, unwrapped with
  | .linux, none => { s with stage := .copying }
  | .other, none => { s with stage := .returned none }
  | .other, some len => { s.copy (traffic .up len) with stage := .copying }
  | .linux, some len =>
    let s := s.copy (traffic .up len)
    if spliceAfterDirect s.policies ∧ s.policies.splice = .adaptive then
      s.adaptiveCopyThenSplice
    else if ¬spliceAfterDirect s.policies ∨ s.policies.splice = .disabled then
      { s with stage := .copying }
    else
      s.spliceBidirectional none

-- What `dispatch_with_early_payload` does with the result of the relay.
def settle : Connection :=
  match s.stage with
  | .returned result =>
    let total := (result.map (· + (s.prewrittenUp, 0))).getD 0
    if s.recorder.sawLiveTraffic then
      let s := s.flush
      { s with
        calls := if s.prewrittenUp > 0 then s.calls ++ [(s.prewrittenUp, 0)] else s.calls
        stage := .settled result }
    else
      { s with calls := s.calls ++ [total], stage := .settled result }
  | _ => s

def step (s : Connection) (e : Event) : Connection :=
  match e with
  | .wrotePrefix => s.wrotePrefix
  | .transfer side n => s.transfer side n
  | .ended side => s.ended side
  | .turn elapsed => s.turn elapsed
  | .splice e =>
    match s.stage with
    | .splicing probing streak attempt =>
      { s with stage := .splicing probing streak (attempt.step e) }
    | _ => s
  | .spliceReturned => s.spliceReturned
  | .direct unwrapped => s.direct unwrapped
  | .probed available => { s with uringAvailable := some available }
  | .failed => { s with stage := .returned none }
  | .cancelled => { s with stage := .returned none }
  | .settle => s.settle

def isRelaying : Stage → Bool
  | .returned _ => false
  | .settled _ => false
  | _ => true

def isReading : Stage → Bool
  | .copying => true
  | .zerocopying => true
  | .selecting _ => true
  | .vision => true
  | _ => false

def enabled (e : Event) : Bool :=
  match e, s.stage with
  | .wrotePrefix, .prefixing _ => true
  | .wrotePrefix, .visionPrefixing _ => true
  | .transfer side n, stage => isReading stage && !s.eof side && 0 < n
  | .ended side, stage => isReading stage && !s.eof side
  | .turn _, .deciding _ => true
  | .splice e, .splicing _ _ attempt => attempt.Enabled e
  | .spliceReturned, .splicing _ _ attempt => attempt.result.isSome
  | .direct _, .vision => !s.eof .up && !s.eof .down
  | .probed _, _ => s.uringAvailable.isNone
  | .failed, stage => isRelaying stage
  | .cancelled, stage => isRelaying stage
  | .settle, .returned _ => true
  | _, _ => false

end Connection

structure OutboundConnect where
  stream : Stream
  wroteEarlyPayload : Bool
  returnedEarlyResponse : Nat

inductive FirstRead where
  | timedOut
  | read (n : Nat) (fresh : Option Stream)

def guardPooledFirstWrite (p : Policies) (inbound outbound : Stream) (first : FirstRead)
    : Stream × Stream × Nat :=
  if !p.fast || outbound ≠ .pooledTcp then
    (inbound, outbound, 0)
  else
    match first with
    | .timedOut => (inbound, .tcp, 0)
    | .read n fresh =>
      let (n, inbound) := inbound.read pooledFirstWriteGuardBufSize n
      if n = 0 then
        (inbound, .tcp, 0)
      else
        (inbound, fresh.getD .tcp, n)

-- `dispatch_with_early_payload` up to the relay, where `earlyPayload` is the length of the payload.
def start (platform : Platform) (policies : Policies) (uringAvailable : Option Bool)
    (inbound : Stream) (earlyPayload : Nat) (connect : OutboundConnect) (first : FirstRead)
    : Connection :=
  let inbound :=
    if !connect.wroteEarlyPayload && earlyPayload ≠ 0 then
      .prepended earlyPayload inbound
    else
      inbound
  let prewrittenEarlyUp := if connect.wroteEarlyPayload then earlyPayload else 0
  let outbound :=
    if connect.returnedEarlyResponse ≠ 0 then
      .prepended connect.returnedEarlyResponse connect.stream
    else
      connect.stream
  let (inbound, outbound, prewrittenUp) := guardPooledFirstWrite policies inbound outbound first
  let prewrittenUp := prewrittenUp + prewrittenEarlyUp
  Connection.relayBidirectional
    { platform, policies, uringAvailable, prewrittenUp
      stage := .copying
      counted := 0
      eof := fun _ => false
      recorder := ⟨0, false⟩
      calls := []
      carried := ⟨(prewrittenUp, 0), 0, 0, 0, 0, 0⟩ }
    inbound outbound

open RuntimeStats Machine

def Carried.relayed (c : Carried) : Traffic :=
  c.prefixed + c.copied + c.zerocopied + c.spliced

def Carried.delivered (c : Carried) : Traffic :=
  c.prewritten + c.relayed

def amount (t : Traffic) : Dir → Nat
  | .uplink => t.fst
  | .downlink => t.snd

namespace Connection

def Recorded (calls : List Traffic) (recorder : BufferedTrafficRecorder) (copied : Traffic)
    : Prop :=
  calls.sum + recorder.pending = copied ∧ (recorder.sawLiveTraffic = true ↔ copied ≠ 0)

theorem recorded_flush {s : Connection} (h : Recorded s.calls s.recorder copied)
    : Recorded s.flush.calls s.flush.recorder copied ∧ s.flush.recorder.pending = 0 := by
  refine ⟨⟨?_, h.right⟩, rfl⟩
  rw [← h.left]
  dsimp only [flush]
  split
  . simp
  . next hzero =>
    have hpending : s.recorder.pending = 0 := by
      apply Prod.ext <;> simp only [Prod.fst_zero, Prod.snd_zero] <;> omega
    rw [hpending]

def StageHolds (counted relayed : Traffic) : Stage → Prop
  | .prefixing left => counted = relayed + left
  | .visionPrefixing left => counted = relayed + traffic .down left
  | .splicing _ _ attempt => counted = relayed ∧ attempt.Inv
  | .returned result => ∀ total, result = some total → total = relayed
  | .settled _ => False
  | _ => counted = relayed

def Kept (s : Connection) : Prop :=
  s.carried.prewritten = (s.prewrittenUp, 0) ∧ Recorded s.calls s.recorder s.carried.copied

structure Balanced (s : Connection) : Prop where
  kept : s.Kept
  stage : StageHolds s.counted s.carried.relayed s.stage

theorem copy_eq (s : Connection) {n : Traffic}
    : ∃ recorder calls, s.copy n
        = { s with
            counted := s.counted + n
            carried := { s.carried with copied := s.carried.copied + n }
            recorder, calls }
      ∧ (Recorded s.calls s.recorder s.carried.copied →
        Recorded calls recorder (s.carried.copied + n)) := by
  unfold copy record
  split
  . next hzero =>
    have hn : n = 0 := Prod.ext hzero.left hzero.right
    exact ⟨_, _, rfl, by simp [hn]⟩
  . next hne =>
    have hmore (h : Recorded s.calls s.recorder s.carried.copied)
        : Recorded s.calls ⟨s.recorder.pending + n, true⟩ (s.carried.copied + n) := by
      refine ⟨?_, ?_⟩
      . rw [← h.left, add_assoc]
      . simp only [ne_eq, Prod.ext_iff, Prod.fst_add, Prod.snd_add, Prod.fst_zero, Prod.snd_zero,
          true_iff]
        omega
    dsimp only
    split
    . exact ⟨_, _, rfl, fun h => (recorded_flush (s := { s with recorder := _ }) (hmore h)).left⟩
    . exact ⟨_, _, rfl, hmore⟩

variable {s : Connection}

theorem Kept.copy (h : s.Kept) (hcounted : s.counted = s.carried.relayed) (n : Traffic)
    : (s.copy n).Kept ∧ (s.copy n).counted = (s.copy n).carried.relayed
      ∧ (s.copy n).stage = s.stage := by
  rcases s.copy_eq with ⟨recorder, calls, heq, hrecorded⟩
  rw [heq]
  refine ⟨⟨h.left, hrecorded h.right⟩, ?_, rfl⟩
  dsimp only [Carried.relayed]
  rw [hcounted, Carried.relayed]
  abel

theorem Kept.spliceBidirectional (h : s.Kept) (hcounted : s.counted = s.carried.relayed)
    : (s.spliceBidirectional streak).Balanced :=
  ⟨h, hcounted, Splice.Relay.inv_start⟩

theorem Kept.writePrefixes (h : s.Kept) (hcounted : s.counted = s.carried.relayed + left)
    : (s.writePrefixes left).Balanced := by
  unfold Connection.writePrefixes
  split
  . next hzero =>
    have hleft : left = 0 := Prod.ext hzero.left hzero.right
    rw [hleft, add_zero] at hcounted
    unfold prefixesWritten
    split
    . split
      . exact ⟨h, hcounted⟩
      . exact ⟨h, hcounted⟩
    . exact ⟨h, hcounted⟩
    . exact h.spliceBidirectional hcounted
  . exact ⟨h, hcounted⟩

theorem Kept.relayBidirectional (h : s.Kept) (hcounted : s.counted = 0)
    (hrelayed : s.carried.relayed = 0) (inbound outbound : Stream)
    : (s.relayBidirectional inbound outbound).Balanced := by
  have hzero : s.counted = s.carried.relayed := by
    rw [hcounted, hrelayed]
  have hcopying : Balanced { s with stage := .copying } := ⟨h, hzero⟩
  unfold Connection.relayBidirectional
  split
  . split
    . exact ⟨h, hzero⟩
    . exact hcopying
  . split
    . split
      . unfold relayVisionInbound
        split
        . exact hcopying
        . next len _ =>
          refine ⟨h, ?_⟩
          rw [hrelayed]
          split
          . next hlen =>
            rw [hlen]
            rfl
          . exact (zero_add _).symm
      . exact hcopying
    . split
      . exact hcopying
      apply Kept.writePrefixes
      . exact h
      . dsimp only
        rw [hrelayed, zero_add]

section

variable (h : s.Balanced)
include h

theorem Balanced.wrotePrefix : s.wrotePrefix.Balanced := by
  have hstage := h.stage
  unfold Connection.wrotePrefix
  split
  . next up down hs =>
    rw [hs] at hstage
    have hsum : (up, down) = (if up ≠ 0 then (up, 0) else (0, down))
        + (if up ≠ 0 then (0, down) else 0) := by
      split
      . simp
      . next hup =>
        simp [Classical.not_not.mp hup]
    apply Kept.writePrefixes
    . exact h.kept
    . dsimp only [Carried.relayed] at hstage ⊢
      rw [hstage, hsum]
      abel
  . next len hs =>
    rw [hs] at hstage
    refine ⟨h.kept, ?_⟩
    dsimp only [StageHolds, Carried.relayed] at hstage ⊢
    rw [hstage]
    abel
  . exact h

theorem Balanced.transfer (n : Nat)
    : (s.transfer side n).Balanced := by
  have hstage := h.stage
  have hcopy := h.kept.copy
  unfold Connection.transfer
  split
  . next hs =>
    rw [hs] at hstage
    rcases hcopy hstage (traffic side n) with ⟨hkept, hcounted, hsame⟩
    refine ⟨hkept, ?_⟩
    rw [hsame, hs]
    exact hcounted
  . next hs =>
    rw [hs] at hstage
    rcases hcopy hstage (traffic side n) with ⟨hkept, hcounted, hsame⟩
    refine ⟨hkept, ?_⟩
    rw [hsame, hs]
    exact hcounted
  . next hs =>
    rw [hs] at hstage
    refine ⟨h.kept, ?_⟩
    rw [hs]
    dsimp only [StageHolds, Carried.relayed] at hstage ⊢
    rw [hstage]
    abel
  . next streak hs =>
    rw [hs] at hstage
    rcases hcopy hstage (traffic side n) with ⟨hkept, hcounted, _⟩
    exact ⟨hkept, hcounted⟩
  . exact h

theorem Balanced.head (hcounted : s.counted = s.carried.relayed)
    : s.head.Balanced := by
  unfold Connection.head
  split
  . refine ⟨h.kept, ?_⟩
    intro total htotal
    cases htotal
    exact hcounted
  . exact h

theorem counted_of_isReading (hs : isReading s.stage = true)
    : s.counted = s.carried.relayed := by
  have hstage := h.stage
  cases hstage' : s.stage <;> rw [hstage'] at hs hstage
  case copying => exact hstage
  case zerocopying => exact hstage
  case selecting => exact hstage
  case vision => exact hstage
  all_goals cases hs

theorem Balanced.ended (hs : isReading s.stage = true)
    : (s.ended side).Balanced := by
  have hcounted := counted_of_isReading h hs
  unfold Connection.ended
  dsimp only
  split
  . exact ⟨h.kept, hcounted⟩
  . apply Balanced.head
    . exact ⟨h.kept, h.stage⟩
    . exact hcounted

theorem Balanced.turn : (s.turn elapsed).Balanced := by
  have hstage := h.stage
  unfold Connection.turn
  split
  . next streak hs =>
    rw [hs] at hstage
    split
    . exact h.kept.spliceBidirectional hstage
    . apply Balanced.head
      . exact ⟨h.kept, hstage⟩
      . exact hstage
  . exact h

theorem Balanced.direct (hs : s.stage = .vision)
    : (s.direct unwrapped).Balanced := by
  have hstage := h.stage
  rw [hs] at hstage
  unfold Connection.direct
  split
  . exact ⟨h.kept, hstage⟩
  . exact ⟨h.kept, by simp [StageHolds]⟩
  . next _ _ len _ =>
    rcases h.kept.copy hstage (traffic .up len) with ⟨hkept, hcounted, _⟩
    exact ⟨hkept, hcounted⟩
  . next _ _ len _ =>
    rcases h.kept.copy hstage (traffic .up len) with ⟨hkept, hcounted, _⟩
    dsimp only
    split
    . exact ⟨hkept, hcounted⟩
    . split
      . exact ⟨hkept, hcounted⟩
      . exact hkept.spliceBidirectional hcounted

end

end Connection

def Carried.Recordable (c : Carried) : Prop :=
  (c.copied = 0 ∨ c.prefixed = 0 ∧ c.zerocopied = 0 ∧ c.spliced = 0)
    ∧ ∀ dir, amount c.delivered dir ≤ i64Max

def Complete (attempt : Splice.Relay) (side : Side) : Prop :=
  attempt.cut side = none ∧ (attempt.conduit side).delivered.length < 2 ^ 64

instance (c : Carried) : Decidable c.Recordable :=
  inferInstanceAs (Decidable (_ ∧ _))

instance (attempt : Splice.Relay) (side : Side) : Decidable (Complete attempt side) :=
  inferInstanceAs (Decidable (_ ∧ _))

theorem deliveredBy_eq (h : attempt.Inv) (hresult : attempt.result = some (.ok pair))
    (hup : Complete attempt .up) (hdown : Complete attempt .down)
    : deliveredBy attempt = (pair.fst.toNat, pair.snd.toNat) := by
  have hcount (side : Side) (hside : Complete attempt side)
      : (attempt.conduit side).delivered.length = (side.count pair).toNat := by
    rw [(Splice.Relay.complete_of_ok h hresult hside.left).right, UInt64.toNat_ofNat',
      Nat.mod_eq_of_lt hside.right]
  exact Prod.ext (hcount .up hup) (hcount .down hdown)

namespace Connection

variable {s : Connection}

def accountable (s : Connection) (e : Event) : Bool :=
  match e, s.stage with
  | .spliceReturned, .splicing _ _ attempt =>
    match attempt.result with
    | some (.ok _) => Complete attempt .up ∧ Complete attempt .down
    | some (.error _) => deliveredBy attempt = 0
    | none => true
  | .settle, .returned (some _) => s.carried.Recordable
  | _, _ => true

theorem Balanced.spliceReturned (h : s.Balanced) (hs : s.accountable .spliceReturned = true)
    : s.spliceReturned.Balanced := by
  have hstage := h.stage
  unfold accountable at hs
  unfold Connection.spliceReturned
  split
  . next probing streak attempt hsplicing =>
    rw [hsplicing] at hs hstage
    rcases hstage with ⟨hcounted, hinv⟩
    dsimp only at hs ⊢
    split
    . exact h
    . next pair hresult =>
      rw [hresult] at hs
      rcases of_decide_eq_true hs with ⟨hup, hdown⟩
      refine ⟨h.kept, ?_⟩
      intro total htotal
      cases htotal
      rw [deliveredBy_eq hinv hresult hup hdown]
      dsimp only [Carried.relayed]
      rw [hcounted, Carried.relayed]
      abel
    . next e hresult =>
      rw [hresult] at hs
      have hnone : deliveredBy attempt = 0 := of_decide_eq_true hs
      rw [hnone, add_zero]
      split
      . exact ⟨h.kept, hcounted, Splice.Relay.inv_start⟩
      . split
        . exact ⟨h.kept, hcounted⟩
        . exact ⟨h.kept, hcounted⟩
  . exact h

theorem settle_exact (h : s.Balanced) (hs : s.stage = .returned (some total))
    (hrecordable : s.carried.Recordable)
    : s.settle.calls ≠ [] ∧ s.settle.calls.sum = s.carried.delivered := by
  have hstage := h.stage
  rw [hs] at hstage
  have htotal := hstage total rfl
  rcases h.kept.right with ⟨hsum, hsaw⟩
  unfold Connection.settle
  rw [hs]
  dsimp only
  split
  . next hlive =>
    have hcopied := hsaw.mp hlive
    rcases recorded_flush h.kept.right with ⟨⟨hflushed, _⟩, hpending⟩
    rcases hrecordable.left with hzero | ⟨hprefixed, hzerocopied, hspliced⟩
    . exact absurd hzero hcopied
    have hdelivered : s.carried.delivered = s.carried.copied + (s.prewrittenUp, 0) := by
      rw [Carried.delivered, Carried.relayed, hprefixed, hzerocopied, hspliced, h.kept.left]
      abel
    rw [hdelivered, ← hflushed]
    have hne : s.flush.calls ≠ [] := by
      intro hnil
      rw [hnil] at hflushed
      exact hcopied hflushed.symm
    split
    . exact ⟨by simp, by simp [flush]⟩
    . next hzero =>
      refine ⟨hne, ?_⟩
      have hup : s.flush.prewrittenUp = 0 := by omega
      have hup : s.prewrittenUp = 0 := hup
      rw [hup]
      exact (add_zero _).symm
  . next hlive =>
    have hcopied : s.carried.copied = 0 := by
      rw [hsaw, not_not] at hlive
      exact hlive
    rw [hcopied] at hsum
    rw [List.sum_append, (add_eq_zero.mp hsum).left, zero_add, htotal, Carried.delivered,
      h.kept.left]
    simp [add_comm]

inductive Accounts (s : Connection) : Prop where
  | relaying (h : s.Balanced)
  | settled (result : Option Traffic) (hs : s.stage = .settled result)
      (h : result.isSome → s.calls ≠ [] ∧ s.calls.sum = s.carried.delivered
        ∧ ∀ dir, amount s.carried.delivered dir ≤ i64Max)

theorem settle_eq (hs : s.stage = .returned result)
    : s.settle.stage = .settled result ∧ s.settle.carried = s.carried := by
  unfold Connection.settle
  rw [hs]
  dsimp only
  split
  . exact ⟨rfl, rfl⟩
  . exact ⟨rfl, rfl⟩

theorem Balanced.settle (h : s.Balanced) (he : s.enabled .settle = true)
    (hs : s.accountable .settle = true)
    : s.settle.Accounts := by
  cases hstage : s.stage with
  | returned result =>
    rcases settle_eq hstage with ⟨hsettled, hcarried⟩
    refine .settled result hsettled ?_
    rw [hcarried]
    intro hsome
    rcases Option.isSome_iff_exists.mp hsome with ⟨total, rfl⟩
    unfold accountable at hs
    rw [hstage] at hs
    have hrecordable : s.carried.Recordable := of_decide_eq_true hs
    rcases settle_exact h hstage hrecordable with ⟨hcalls, hsum⟩
    exact ⟨hcalls, hsum, hrecordable.right⟩
  | _ => simp [enabled, hstage] at he

theorem Balanced.step (h : s.Balanced) (he : s.enabled e = true) (hs : s.accountable e = true)
    : (s.step e).Accounts := by
  cases e with
  | wrotePrefix => exact .relaying h.wrotePrefix
  | transfer side n => exact .relaying (h.transfer n)
  | ended side =>
    simp only [enabled, Bool.and_eq_true] at he
    exact .relaying (h.ended he.left)
  | turn elapsed => exact .relaying h.turn
  | splice e =>
    unfold Connection.step
    have hstage := h.stage
    cases hsplicing : s.stage with
    | splicing probing streak attempt =>
      rw [hsplicing] at hstage
      simp only [enabled, hsplicing, decide_eq_true_eq] at he
      exact .relaying ⟨h.kept, hstage.left, Splice.Relay.inv_step hstage.right he⟩
    | _ => simp [enabled, hsplicing] at he
  | spliceReturned => exact .relaying (h.spliceReturned hs)
  | direct unwrapped =>
    cases hvision : s.stage with
    | vision => exact .relaying (h.direct hvision)
    | _ => simp [enabled, hvision] at he
  | probed available => exact .relaying ⟨h.kept, h.stage⟩
  | failed => exact .relaying ⟨h.kept, by simp [Connection.step, StageHolds]⟩
  | cancelled => exact .relaying ⟨h.kept, by simp [Connection.step, StageHolds]⟩
  | settle => exact h.settle he hs

theorem Accounts.step (h : s.Accounts) (he : s.enabled e = true) (hs : s.accountable e = true)
    : (s.step e).Accounts := by
  cases h with
  | relaying h => exact h.step he hs
  | settled result hsettled h =>
    cases e with
    | probed available => exact .settled result hsettled h
    | _ => simp [enabled, hsettled, isReading, isRelaying] at he

theorem accounts_start {platform : Platform} {policies : Policies} {uringAvailable : Option Bool}
    : (start platform policies uringAvailable inbound earlyPayload connect first).Accounts := by
  apply Accounts.relaying
  apply Kept.relayBidirectional
  . exact ⟨rfl, rfl, by simp⟩
  . rfl
  . rfl

end Connection

theorem trafficName_uplink_ne (kind owner : String)
    : trafficName kind owner .uplink ≠ trafficName kind owner .downlink := by
  intro h
  have hlist := congrArg String.toList h
  rw [Cli.toList_trafficName, Cli.toList_trafficName] at hlist
  simp [Dir.name] at hlist

theorem recordRelayTraffic_apply (c : Counters)
    (h : kind = "inbound" ∧ owner = tag ∨ kind = "user" ∧ user = some owner) (t : Traffic)
    (dir : Dir)
    : recordRelayTraffic c tag user t.fst t.snd (trafficName kind owner dir)
        = some (fetchAdd ((c (trafficName kind owner dir)).getD 0)
          (min (amount t dir) i64Max : Nat)) := by
  have hdirs := trafficName_uplink_ne
  have hkinds := Cli.trafficName_user_ne_inbound
  rcases h with ⟨rfl, rfl⟩ | ⟨rfl, rfl⟩
  . cases user <;> cases dir <;>
      simp [recordRelayTraffic, recordUserTraffic, count, increment, hdirs,
        (hdirs _ _).symm, (hkinds _ _ _ _).symm, amount]
  . cases dir <;>
      simp [recordRelayTraffic, recordUserTraffic, count, increment, hdirs,
        (hdirs _ _).symm, hkinds, amount]

theorem fetchAdd_fetchAdd (a b c : Int) : fetchAdd (fetchAdd a b) c = fetchAdd a (b + c) := by
  unfold fetchAdd
  rw [Int.bmod_add_bmod, Int.add_assoc]

theorem amount_add (t u : Traffic) (dir : Dir)
    : amount (t + u) dir = amount t dir + amount u dir := by
  cases dir <;> rfl

theorem foldl_recordRelayTraffic (c : Counters)
    (h : kind = "inbound" ∧ owner = tag ∨ kind = "user" ∧ user = some owner) (hcalls : calls ≠ [])
    (hmax : amount calls.sum dir ≤ i64Max)
    : calls.foldl (fun c t => recordRelayTraffic c tag user t.fst t.snd) c
        (trafficName kind owner dir)
        = some (fetchAdd ((c (trafficName kind owner dir)).getD 0) (amount calls.sum dir)) := by
  induction calls generalizing c with
  | nil => exact absurd rfl hcalls
  | cons t calls ih =>
    rw [List.sum_cons, amount_add] at hmax ⊢
    have hfirst := recordRelayTraffic_apply c h t dir
    rw [Nat.min_eq_left (by omega)] at hfirst
    by_cases hnil : calls = []
    . have hzero : amount 0 dir = 0 := by
        cases dir <;> rfl
      rw [hnil, List.sum_nil, hzero]
      exact hfirst
    . rw [List.foldl_cons, ih _ hnil (by omega), hfirst, Option.getD_some, fetchAdd_fetchAdd,
        Nat.cast_add]

def Connection.account (s : Connection) (tag : String) (user : Option String) (c : Counters)
    : Counters :=
  s.calls.foldl (fun c t => recordRelayTraffic c tag user t.fst t.snd) c

theorem traffic_counted_exactly (platform : Platform) (policies : Policies)
    (uringAvailable : Option Bool) (inbound : Stream) (earlyPayload : Nat)
    (connect : OutboundConnect) (first : FirstRead) (s : Connection)
    (h : Reach Connection.step (fun s e => s.enabled e = true ∧ s.accountable e = true)
      (start platform policies uringAvailable inbound earlyPayload connect first) s)
    (total : Traffic) (hs : s.stage = .settled (some total)) (tag : String) (user : Option String)
    (c : Counters) (dir : Dir)
    : (∀ owner, user = some owner →
        s.account tag user c (trafficName "user" owner dir)
          = some (fetchAdd ((c (trafficName "user" owner dir)).getD 0)
            (amount s.carried.delivered dir)))
      ∧ s.account tag user c (trafficName "inbound" tag dir)
          = some (fetchAdd ((c (trafficName "inbound" tag dir)).getD 0)
            (amount s.carried.delivered dir)) := by
  have haccounts := Reach.invariant Connection.Accounts _ s Connection.accounts_start
    (fun _ _ ht he => ht.step he.left he.right) h
  cases haccounts with
  | relaying hbalanced =>
    have hstage := hbalanced.stage
    rw [hs] at hstage
    exact hstage.elim
  | settled result hsettled hexact =>
    rw [hs] at hsettled
    cases hsettled
    rcases hexact rfl with ⟨hcalls, hsum, hmax⟩
    rw [← hsum] at hmax ⊢
    refine ⟨fun owner howner => ?_, ?_⟩
    . exact foldl_recordRelayTraffic c (.inr ⟨rfl, howner⟩) hcalls (hmax dir)
    . exact foldl_recordRelayTraffic c (.inl ⟨rfl, rfl⟩) hcalls (hmax dir)

def fastPolicies (splice : FastSplicePolicy) : Policies :=
  ⟨true, splice, .disabled, .epollOnly, .auto, true⟩

def plainRun : List Event :=
  [.transfer .up 2, .transfer .down 5, .ended .up, .ended .down, .settle]

def plainStart : Connection :=
  start .linux (fastPolicies .disabled) none .other 3 ⟨.tcp, true, 0⟩ .timedOut

theorem traffic_counted_exactly_plain
    : (plainRun.foldl Connection.step plainStart).account "in" (some "a@b") empty
        (trafficName "inbound" "in" .uplink) = some 5 := by
  have h := traffic_counted_exactly .linux (fastPolicies .disabled) none .other 3 ⟨.tcp, true, 0⟩
    .timedOut (plainRun.foldl Connection.step plainStart)
    (Reach.foldl _ _ .start (by decide)) (2, 5) rfl "in" (some "a@b") empty .uplink
  rw [h.right]
  decide +kernel

def prefixRun : List Event :=
  [.wrotePrefix, .transfer .up 3, .ended .up, .ended .down, .settle]

def prefixStart : Connection :=
  start .linux (fastPolicies .disabled) none (.prepended 5 .tcp) 0 ⟨.tcp, false, 0⟩ .timedOut

def spliceRun : List Event :=
  (List.replicate 4 [.turn 0, .transfer .up 65536]).flatten
    ++ [.turn 0, .splice (.arrive .up [1]), .splice (.spliced .up (.moved 1)),
      .splice (.spliced .up (.moved 1)), .splice (.fin .up), .splice (.spliced .up (.moved 0)),
      .splice (.fin .down), .splice (.spliced .down (.moved 0)), .spliceReturned, .settle]

def spliceStart : Connection :=
  start .linux (fastPolicies .adaptive) none .tcp 0 ⟨.tcp, false, 0⟩ .timedOut

def Connection.result (s : Connection) : Option Traffic :=
  match s.stage with
  | .settled result => result
  | _ => none

theorem traffic_beside_recorder_lost
    : (∃ s, Reach Connection.step (fun s e => s.enabled e = true) prefixStart s
        ∧ s.result = some (8, 0) ∧ s.carried.delivered = (8, 0)
        ∧ s.account "in" none empty (trafficName "inbound" "in" .uplink) = some 3)
      ∧ ∃ s, Reach Connection.step (fun s e => s.enabled e = true) spliceStart s
        ∧ s.result = some (262145, 0) ∧ s.carried.delivered = (262145, 0)
        ∧ s.account "in" none empty (trafficName "inbound" "in" .uplink) = some 262144 := by
  refine ⟨⟨prefixRun.foldl Connection.step prefixStart, ?_, by decide +kernel⟩,
    spliceRun.foldl Connection.step spliceStart, ?_, by decide +kernel⟩
  . exact Reach.foldl _ _ .start (by decide +kernel)
  . exact Reach.foldl _ _ .start (by decide +kernel)

end Blackwire.Dispatch
