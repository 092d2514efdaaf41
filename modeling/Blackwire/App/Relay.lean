import Blackwire.Common.Splice

/-!
This module contains the relay between two raw TCP sockets with the policies that use `splice`, and
its verification. The bytes that the relay has read itself and not written yet are what the conduits
hold.
-/

namespace Blackwire.TcpRelay

open Splice (Side Errno Backend counts)

def adaptiveSpliceMinBytes : UInt64 := 256 * 1024
def adaptiveSpliceLongStreamAfter : Nat := 30
def adaptiveCopyBufferBytes : Nat := 64 * 1024
def adaptiveSpliceFullReadStreak : Nat := 4
def adaptiveSpliceFullReadMinBytes : UInt64 := 64 * 1024

inductive SpliceBackendPolicy where
  | auto
  | epollOnly
  | requireIoUring

inductive SplicePolicy where
  | always
  | adaptive

def updateFullReadStreak (current readLen bufLen : Nat) : Nat :=
  if Usize.saturatingMul readLen 2 ≥ bufLen then
    min (current + 1) 255
  else
    current - 1

def adaptiveSpliceReady (copiedTotal : UInt64) (elapsed fullReadStreak : Nat) : Bool :=
  let bulkReads := fullReadStreak ≥ adaptiveSpliceFullReadStreak
  bulkReads
    && (copiedTotal ≥ adaptiveSpliceMinBytes
      || (copiedTotal ≥ adaptiveSpliceFullReadMinBytes
        && elapsed ≥ adaptiveSpliceLongStreamAfter))

structure Loop where
  copied : Side → UInt64
  streak : Side → Nat
  eof : Side → Bool

namespace Loop

def new (prefixed : Side → UInt64) : Loop :=
  ⟨prefixed, fun _ => 0, fun _ => false⟩

def readyForDirections (l : Loop) (elapsed : Nat) : Bool :=
  adaptiveSpliceReady (l.copied .up) elapsed (l.streak .up)
    || adaptiveSpliceReady (l.copied .down) elapsed (l.streak .down)

def ended (l : Loop) (side : Side) : Loop :=
  { l with eof := Function.update l.eof side true }

def forwarded (l : Loop) (side : Side) (n : Nat) : Loop :=
  { l with
    copied := Function.update l.copied side (l.copied side + UInt64.ofNat n)
    streak := Function.update l.streak side
      (updateFullReadStreak (l.streak side) n adaptiveCopyBufferBytes) }

end Loop

inductive Stage where
  | prefixing (side : Side)
  | deciding (loop : Loop)
  | selecting (loop : Loop)
  | writing (loop : Loop) (side : Side) (n : Nat)
  | copying
  | returned (result : Except Errno (UInt64 × UInt64))

inductive Phase where
  | user (stage : Stage) (conduits : Side → Conduit UInt8)
  | splicing (probing : Bool) (loop : Option Loop) (attempt : Splice.Relay)

structure State where
  policy : SplicePolicy
  backend : SpliceBackendPolicy
  uringAvailable : Option Bool
  prefixed : Side → UInt64
  phase : Phase

inductive Event where
  | splice (e : Splice.Event)
  | read (side : Side) (n : Nat)
  | wrote (side : Side) (n : Nat)
  | turn (elapsed : Nat)
  | attemptReturned
  | failed (e : Errno)
  | copied (totals : UInt64 × UInt64)
  | probed (available : Bool)

def selectBackend (policy : SpliceBackendPolicy) (uringAvailable : Option Bool) : Backend × Bool :=
  match policy with
  | .epollOnly => (.epoll, false)
  | .requireIoUring => (.uring, false)
  | .auto =>
    match uringAvailable with
    | some true => (.uring, false)
    | some false => (.epoll, false)
    | none => (.uring, true)

namespace State

def conduit (s : State) (side : Side) : Conduit UInt8 :=
  match s.phase with
  | .user _ conduits => conduits side
  | .splicing _ _ attempt => attempt.conduit side

section

variable (s : State)

def spliceBidirectional (loop : Option Loop) (conduits : Side → Conduit UInt8) : State :=
  let (backend, probing) := selectBackend s.backend s.uringAvailable
  { s with phase := .splicing probing loop (.start backend conduits) }

def enter (conduits : Side → Conduit UInt8) : State :=
  if !(conduits .up).held.isEmpty then
    { s with phase := .user (.prefixing .up) conduits }
  else if !(conduits .down).held.isEmpty then
    { s with phase := .user (.prefixing .down) conduits }
  else
    match s.policy with
    | .always => s.spliceBidirectional none conduits
    | .adaptive => { s with phase := .user (.deciding (Loop.new s.prefixed)) conduits }

def start (policy : SplicePolicy) (backend : SpliceBackendPolicy) (uringAvailable : Option Bool)
    (prefixes : Side → Bytes)
    : State :=
  let conduits side := ⟨prefixes side, false, [], prefixes side, []⟩
  let prefixed side := UInt64.ofNat (prefixes side).length
  enter ⟨policy, backend, uringAvailable, prefixed, .user .copying conduits⟩ conduits

def total (loop : Option Loop) (pair : UInt64 × UInt64) : UInt64 × UInt64 :=
  let base := (loop.elim s.prefixed (·.copied))
  (base .up + pair.fst, base .down + pair.snd)

def attemptReturned (probing : Bool) (loop : Option Loop) (attempt : Splice.Relay) : State :=
  match attempt.result with
  | none => s
  | some (.ok pair) =>
    { s with
      uringAvailable := if probing then some (s.uringAvailable.getD true) else s.uringAvailable
      phase := .user (.returned (.ok (s.total loop pair))) attempt.conduit }
  | some (.error _) =>
    let conduits side := (attempt.conduit side).discard
    if probing then
      { s with
        uringAvailable := some (s.uringAvailable.getD false)
        phase := .splicing false loop (.start .epoll conduits) }
    else
      match loop with
      | none => { s with phase := .user .copying conduits }
      | some loop => { s with phase := .user (.selecting loop) conduits }

def turn (conduits : Side → Conduit UInt8) (loop : Loop) (elapsed : Nat) : State :=
  if !loop.eof .up && !loop.eof .down && loop.readyForDirections elapsed then
    s.spliceBidirectional (some loop) conduits
  else if loop.eof .up && loop.eof .down then
    { s with phase := .user (.returned (.ok (loop.copied .up, loop.copied .down))) conduits }
  else
    { s with phase := .user (.selecting loop) conduits }

variable (stage : Stage) (conduits : Side → Conduit UInt8)

def read (side : Side) (n : Nat) : State :=
  let conduits := Function.update conduits side ((conduits side).take n)
  match stage with
  | .selecting loop =>
    if n = 0 then
      { s with phase := .user (.deciding (loop.ended side)) conduits }
    else
      { s with phase := .user (.writing loop side n) conduits }
  | stage => { s with phase := .user stage conduits }

def wrote (side : Side) (n : Nat) : State :=
  let conduits := Function.update conduits side ((conduits side).pass n)
  match stage with
  | .prefixing _ => s.enter conduits
  | .writing loop side n =>
    if (conduits side).held.isEmpty then
      { s with phase := .user (.deciding (loop.forwarded side n)) conduits }
    else
      { s with phase := .user (.writing loop side n) conduits }
  | stage => { s with phase := .user stage conduits }

def stepUser (e : Event) : State :=
  match e with
  | .splice (.arrive side bytes) =>
    let conduits := Function.update conduits side ((conduits side).send bytes)
    { s with phase := .user stage conduits }
  | .splice (.fin side) =>
    let conduits := Function.update conduits side ((conduits side).close)
    { s with phase := .user stage conduits }
  | .read side n => s.read stage conduits side n
  | .wrote side n => s.wrote stage conduits side n
  | .turn elapsed =>
    match stage with
    | .deciding loop => s.turn conduits loop elapsed
    | _ => s
  | .failed e => { s with phase := .user (.returned (.error e)) conduits }
  | .copied totals =>
    { s with phase := .user (.returned (.ok (s.total none totals))) conduits }
  | _ => s

end

def step (s : State) (e : Event) : State :=
  match e, s.phase with
  | .probed available, _ => { s with uringAvailable := some available }
  | .splice e, .splicing probing loop attempt =>
    { s with phase := .splicing probing loop (attempt.step e) }
  | .attemptReturned, .splicing probing loop attempt => s.attemptReturned probing loop attempt
  | _, .splicing _ _ _ => s
  | e, .user stage conduits => s.stepUser stage conduits e

end State

def readsFrom (stage : Stage) (side : Side) (n : Nat) : Bool :=
  match stage with
  | .selecting loop => !loop.eof side && n ≤ adaptiveCopyBufferBytes
  | .copying => true
  | _ => false

def writesTo (stage : Stage) (side : Side) : Bool :=
  match stage with
  | .prefixing side' => side = side'
  | .writing _ side' _ => side = side'
  | .copying => true
  | _ => false

def isDeciding : Stage → Bool
  | .deciding _ => true
  | _ => false

def isCopying : Stage → Bool
  | .copying => true
  | _ => false

def isReturned : Stage → Bool
  | .returned _ => true
  | _ => false

def enabledUser (stage : Stage) (conduits : Side → Conduit UInt8) (e : Event) : Bool :=
  match e with
  | .splice (.arrive _ _) => true
  | .splice (.fin _) => true
  | .read side n =>
    readsFrom stage side n && n ≤ (conduits side).unread.length
      && (n ≠ 0 || (conduits side).AtEnd)
  | .wrote side n => writesTo stage side && 0 < n && n ≤ (conduits side).held.length
  | .turn _ => isDeciding stage
  | .failed _ => !isReturned stage
  | .copied _ => isCopying stage
  | _ => false

def enabled (s : State) (e : Event) : Bool :=
  match e, s.phase with
  | .probed _, _ => s.uringAvailable.isNone
  | .splice e, .splicing _ _ attempt => attempt.Enabled e
  | .attemptReturned, .splicing _ _ attempt => attempt.result.isSome
  | _, .splicing _ _ _ => false
  | e, .user stage conduits => enabledUser stage conduits e

open Machine

namespace State

def Intact (s : State) : Prop :=
  ∀ side, (s.conduit side).Intact

variable (s : State) (stage : Stage) (side : Side) {conduits : Side → Conduit UInt8}

theorem intact_update {c : Conduit UInt8} (hc : c.Intact) (h : ∀ side, (conduits side).Intact)
    : ∀ side', (Function.update conduits side c side').Intact :=
  Splice.forall_update (p := fun _ => Conduit.Intact) hc h

theorem intact_spliceBidirectional {loop : Option Loop} (h : ∀ side, (conduits side).Intact)
    : (s.spliceBidirectional loop conduits).Intact := by
  intro side
  unfold spliceBidirectional conduit
  dsimp only
  rw [Splice.Relay.conduit_start]
  exact h side

theorem intact_enter (h : ∀ side, (conduits side).Intact)
    : (s.enter conduits).Intact := by
  unfold enter
  split
  next => exact h
  split
  next => exact h
  split
  next => exact intact_spliceBidirectional s h
  next => exact h

theorem intact_start {policy : SplicePolicy} {backend : SpliceBackendPolicy}
    {uringAvailable : Option Bool} {prefixes : Side → Bytes}
    : (start policy backend uringAvailable prefixes).Intact := by
  apply intact_enter
  simp [Conduit.Intact]

theorem intact_turn {loop : Loop} {elapsed : Nat} (h : ∀ side, (conduits side).Intact)
    : (s.turn conduits loop elapsed).Intact := by
  unfold turn
  split
  next => exact intact_spliceBidirectional s h
  next => split <;> exact h

theorem intact_read {n : Nat} (h : ∀ side, (conduits side).Intact)
    : (s.read stage conduits side n).Intact := by
  have htake := intact_update side ((h side).take n) h
  unfold read
  split
  next => split <;> exact htake
  next => exact htake

theorem intact_wrote {n : Nat} (h : ∀ side, (conduits side).Intact)
    : (s.wrote stage conduits side n).Intact := by
  have hpass := intact_update side ((h side).pass n) h
  unfold wrote
  dsimp only
  split
  next => exact intact_enter s hpass
  next => split <;> exact hpass
  next => exact hpass

theorem intact_stepUser {s : State} {e : Event} (hs : s.Intact) (h : ∀ side, (conduits side).Intact)
    : (s.stepUser stage conduits e).Intact := by
  unfold stepUser
  split
  next side bytes => exact intact_update side ((h side).send) h
  next side => exact intact_update side (h side).close h
  next side n => exact intact_read s stage side h
  next side n => exact intact_wrote s stage side h
  next elapsed =>
    split
    next loop => exact intact_turn s h
    next => exact hs
  next => exact h
  next => exact h
  next => exact hs

end State

/--
If the step is the return of an attempt that has failed, there is nothing left in its pipes.
-/
def cleanSwitch (s : State) (e : Event) : Bool :=
  match e, s.phase with
  | .attemptReturned, .splicing _ _ attempt =>
    match attempt.result with
    | some (.error _) =>
      (attempt.conduit .up).held.isEmpty && (attempt.conduit .down).held.isEmpty
    | _ => true
  | _, _ => true

theorem State.intact_attemptReturned {s : State} {probing : Bool} {loop : Option Loop}
    {attempt : Splice.Relay} (hs : s.Intact) (h : ∀ side, (attempt.conduit side).Intact)
    (hclean : ∀ e, attempt.result = some (.error e) → ∀ side, (attempt.conduit side).held = [])
    : (s.attemptReturned probing loop attempt).Intact := by
  unfold attemptReturned
  split
  next => exact hs
  next => exact h
  next e he =>
    have hdiscard (side : Side) : (attempt.conduit side).discard.Intact := by
      apply (h side).discard
      exact hclean e he side
    split
    next =>
      intro side
      exact hdiscard side
    next => split <;> exact hdiscard

theorem State.intact_step {s : State} {e : Event} (h : s.Intact) (hclean : cleanSwitch s e)
    : (s.step e).Intact := by
  have hconduit := h
  unfold Intact conduit at hconduit
  unfold step
  split
  next => exact h
  next e probing loop attempt hphase =>
    rw [hphase] at hconduit
    exact Splice.Relay.intact_step e hconduit
  next probing loop attempt hphase =>
    rw [hphase] at hconduit
    apply intact_attemptReturned h hconduit
    intro e he side
    simp only [cleanSwitch, hphase, he, Bool.and_eq_true, List.isEmpty_iff] at hclean
    cases side with
    | up => exact hclean.left
    | down => exact hclean.right
  next => exact h
  next stage conduits _ hphase =>
    rw [hphase] at hconduit
    exact intact_stepUser stage h hconduit

theorem fallback_lossless (policy : SplicePolicy) (backend : SpliceBackendPolicy)
    (uringAvailable : Option Bool) (prefixes : Side → Bytes) (s : State)
    (h : Reach State.step (fun s e => enabled s e ∧ cleanSwitch s e)
      (State.start policy backend uringAvailable prefixes) s)
    : ∀ side, (s.conduit side).delivered <+: (s.conduit side).sent := by
  have hintact := Reach.invariant State.Intact _ s State.intact_start
    (fun t e ht he => State.intact_step ht he.right) h
  exact fun side => (hintact side).isPrefix

def refusedAtOnce : List Event :=
  [.wrote .up 1, .splice (.completed .up (-22)), .splice (.wakeup [.up]), .attemptReturned,
    .splice (.arrive .up [2, 3]), .splice (.spliced .up (.failed 22)), .attemptReturned,
    .read .up 2, .wrote .up 2]

theorem fallback_lossless_refused_at_once
    : let s := refusedAtOnce.foldl State.step
        (State.start .always .auto none fun side => if side = .up then [1] else [])
      (s.conduit .up).delivered = [1, 2, 3]
        ∧ (s.conduit .up).delivered <+: (s.conduit .up).sent := by
  refine ⟨by decide, ?_⟩
  apply fallback_lossless
  apply Reach.foldl _ _ .start
  decide

-- The destination refuses the bytes that are in the pipe already.
def refusedWrite : List Event :=
  [.splice (.arrive .up [1, 2]), .splice (.spliced .up (.moved 2)),
    .splice (.spliced .up (.failed 22)), .attemptReturned, .splice (.arrive .up [3]), .read .up 1,
    .wrote .up 1]

theorem fallback_loses_pipe
    : let start := State.start .always .epollOnly none fun _ => []
      let s := refusedWrite.foldl State.step start
      Allowed State.step (fun s e => enabled s e) start refusedWrite
        ∧ (s.conduit .up).sent = [1, 2, 3]
        ∧ (s.conduit .up).delivered = [3] := by
  decide

end Blackwire.TcpRelay
