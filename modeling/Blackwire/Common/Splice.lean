import Blackwire.Lib.Bytes
import Blackwire.Lib.Conduit
import Blackwire.Lib.Machine

/-!
This module contains the relay between two TCP sockets that moves bytes through kernel pipes, with
its two backends, and what it has delivered when it returns: all of a direction unless that
direction was given up early. Each direction is a conduit from the socket it reads to the socket it
writes, and what the conduit holds is in the pipe. What the kernel and the peers do are the events.
-/

namespace Blackwire.Splice

inductive Side where
  | up
  | down
deriving DecidableEq

def Side.other : Side → Side
  | up => down
  | down => up

abbrev Errno := Nat

def eagain : Errno := 11
def ecanceled : Errno := 125

def pipeCapacity : Nat := 256 * 1024

def isWouldBlock (e : Errno) : Bool :=
  e = eagain

inductive Cut where
  | drainExpired
  | pollFailed
  | writeFailed

inductive Spliced where
  | moved (n : Nat)
  | failed (e : Errno)
deriving DecidableEq

/--
The peers send and close, the `splice` calls of the epoll backend return, the kernel completes the
operations of the ring, the task of the ring wakes up and handles completions, and the time that a
direction has after the end of the other one runs out.
-/
inductive Event where
  | arrive (side : Side) (bytes : Bytes)
  | fin (side : Side)
  | spliced (side : Side) (result : Spliced)
  | completed (side : Side) (result : Int)
  | wakeup (order : List Side)
  | waitFailed (e : Errno)
  | drainExpired

def CanFill (c : Conduit UInt8) (n : Nat) : Prop :=
  n ≤ c.unread.length ∧ n ≤ pipeCapacity ∧ (n = 0 → c.AtEnd)

instance (c : Conduit UInt8) (n : Nat) : Decidable (CanFill c n) :=
  inferInstanceAs (Decidable (_ ∧ _))

def counts (side : Side) (own others : UInt64) : UInt64 × UInt64 :=
  match side with
  | .up => (own, others)
  | .down => (others, own)

namespace Epoll

inductive Phase where
  | filling
  | draining (remaining : Nat)
  | finished

structure Direction where
  conduit : Conduit UInt8
  phase : Phase
  total : UInt64
  cut : Option Cut

def spliceOneDirection (d : Direction) (result : Spliced)
    : Direction × Option (Except Errno UInt64) :=
  match d.phase, result with
  | .filling, .moved 0 => ({ d with phase := .finished }, some (.ok d.total))
  | .filling, .moved n => ({ d with conduit := d.conduit.take n, phase := .draining n }, none)
  | .draining _, .moved 0 => (d, none)
  | .draining remaining, .moved n =>
    let remaining := remaining - n
    ({ d with
      conduit := d.conduit.pass n
      phase := if remaining > 0 then .draining remaining else .filling
      total := d.total + UInt64.ofNat n }, none)
  | .finished, .moved _ => (d, none)
  | _, .failed e =>
    if isWouldBlock e then
      (d, none)
    else
      (d, some (.error e))

inductive Stage where
  | selecting
  | draining (first : Side) (count : UInt64)
  | returned (result : Except Errno (UInt64 × UInt64))

structure Relay where
  dirs : Side → Direction
  stage : Stage

def start (conduits : Side → Conduit UInt8) : Relay where
  dirs := fun side => ⟨conduits side, .filling, 0, none⟩
  stage := .selecting

def result (s : Relay) : Option (Except Errno (UInt64 × UInt64)) :=
  match s.stage with
  | .returned result => some result
  | _ => none

-- `tokio::select!` over the two futures, and `drain_peer` once one of them has ended.
def ended (stage : Stage) (side : Side) (output : Except Errno UInt64) : Stage :=
  match stage, output with
  | .selecting, .ok count => .draining side count
  | .draining first count, .ok count' => .returned (.ok (counts first count count'))
  | .returned result, _ => .returned result
  | _, .error e => .returned (.error e)

def setConduit (s : Relay) (side : Side) (f : Conduit UInt8 → Conduit UInt8) : Relay :=
  { s with
    dirs := Function.update s.dirs side { s.dirs side with conduit := f (s.dirs side).conduit } }

def step (s : Relay) (e : Event) : Relay :=
  match e with
  | .arrive side bytes => setConduit s side (·.send bytes)
  | .fin side => setConduit s side (·.close)
  | .spliced side result =>
    let (d, output) := spliceOneDirection (s.dirs side) result
    { dirs := Function.update s.dirs side d
      stage := output.elim s.stage (ended s.stage side) }
  | .drainExpired =>
    match s.stage with
    | .draining first count =>
      { dirs := Function.update s.dirs first.other
          { s.dirs first.other with cut := some .drainExpired }
        stage := .returned (.ok (counts first count 0)) }
    | _ => s
  | _ => s

def isPolled (stage : Stage) (side : Side) : Bool :=
  match stage with
  | .selecting => true
  | .draining first _ => side ≠ first
  | .returned _ => false

def isDraining (stage : Stage) : Bool :=
  match stage with
  | .draining _ _ => true
  | _ => false

def canReturn (d : Direction) (result : Spliced) : Bool :=
  match d.phase, result with
  | .filling, .moved n => CanFill d.conduit n
  | .draining remaining, .moved n => n ≤ remaining
  | .finished, _ => false
  | _, .failed _ => true

def Enabled (s : Relay) (e : Event) : Prop :=
  match e with
  | .arrive _ _ => True
  | .fin _ => True
  | .spliced side result => isPolled s.stage side ∧ canReturn (s.dirs side) result
  | .drainExpired => isDraining s.stage
  | _ => False

instance (s : Relay) (e : Event) : Decidable (Enabled s e) :=
  match e with
  | .arrive _ _ => isTrue trivial
  | .fin _ => isTrue trivial
  | .spliced _ _ => inferInstanceAs (Decidable (_ = true ∧ _ = true))
  | .drainExpired => inferInstanceAs (Decidable (_ = true))
  | .completed _ _ => isFalse id
  | .wakeup _ => isFalse id
  | .waitFailed _ => isFalse id

end Epoll

namespace Uring

/--
What the kernel has of a direction: nothing, an operation that is under way, or the result of one
that the task has not looked at yet. The task only pushes an operation of a direction at the start
and when it handles the completion of the one before.
-/
inductive Flight where
  | idle
  | splicingIn
  | splicingOut (len : Nat)
  | doneIn (result : Int)
  | doneOut (result : Int)
deriving DecidableEq

structure Direction where
  conduit : Conduit UInt8
  inPipe : Nat
  eof : Bool
  pending : Nat
  total : UInt64
  flight : Flight
  cut : Option Cut

namespace Direction

variable (d : Direction)

def pushIn : Direction :=
  { d with flight := .splicingIn, pending := d.pending + 1 }

def pushOut : Direction :=
  { d with flight := .splicingOut d.inPipe, pending := d.pending + 1 }

-- A completion of `TAG_AB_IN` or `TAG_BA_IN`.
def reapIn (result : Int) : Except Errno Direction :=
  let d := { d with flight := .idle, pending := d.pending - 1 }
  if result = 0 ∨ result = -(ecanceled : Int) then
    .ok { d with eof := true, cut := if result = 0 then d.cut else some .pollFailed }
  else if result < 0 then
    .error (-result).toNat
  else
    .ok { d with inPipe := d.inPipe + result.toNat }.pushOut

-- A completion of `TAG_AB_OUT` or `TAG_BA_OUT`.
def reapOut (result : Int) : Direction :=
  let d := { d with flight := .idle, pending := d.pending - 1 }
  if result = -(eagain : Int) then
    d.pushOut
  else if result > 0 then
    let w := result.toNat
    let d := { d with inPipe := d.inPipe - min w d.inPipe, total := d.total + UInt64.ofNat w }
    if d.inPipe > 0 then
      d.pushOut
    else if !d.eof then
      d.pushIn
    else
      d
  else
    { d with eof := true, cut := some .writeFailed }

def reap : Except Errno Direction :=
  match d.flight with
  | .doneIn result => d.reapIn result
  | .doneOut result => .ok (d.reapOut result)
  | _ => .ok d

def completed (result : Int) : Direction :=
  match d.flight with
  | .splicingIn => { d with conduit := d.conduit.take result.toNat, flight := .doneIn result }
  | .splicingOut _ => { d with conduit := d.conduit.pass result.toNat, flight := .doneOut result }
  | _ => d

def canComplete (result : Int) : Bool :=
  match d.flight with
  | .splicingIn => result < 0 || CanFill d.conduit result.toNat
  | .splicingOut len => result.toNat ≤ len
  | _ => false

def isDone : Bool :=
  d.eof && d.pending == 0

end Direction

structure Relay where
  dirs : Side → Direction
  drain : Bool
  result : Option (Except Errno (UInt64 × UInt64))

def start (conduits : Side → Conduit UInt8) : Relay where
  dirs := fun side => Direction.pushIn ⟨conduits side, 0, false, 0, 0, .idle, none⟩
  drain := false
  result := none

def reapAll (dirs : Side → Direction) (order : List Side) : (Side → Direction) × Option Errno :=
  match order with
  | [] => (dirs, none)
  | side :: order =>
    match (dirs side).reap with
    | .error e => (dirs, some e)
    | .ok d => reapAll (Function.update dirs side d) order

def Direction.endsInput (d : Direction) : Bool :=
  match d.flight with
  | .doneIn result => result = 0 || result = -(ecanceled : Int)
  | _ => false

-- The directions whose `shutdown_a` or `shutdown_b` is set when the completions are handled.
def endedAll (dirs : Side → Direction) (order : List Side) : List Side :=
  match order with
  | [] => []
  | side :: order =>
    match (dirs side).reap with
    | .error _ => []
    | .ok d =>
      let ended := endedAll (Function.update dirs side d) order
      if (dirs side).endsInput then side :: ended else ended

def totals (dirs : Side → Direction) : UInt64 × UInt64 :=
  ((dirs .up).total, (dirs .down).total)

section

variable (s : Relay)

def wakeup (order : List Side) : Relay :=
  match reapAll s.dirs order with
  | (dirs, some e) => { s with dirs, result := some (.error e) }
  | (dirs, none) =>
    if (dirs .up).isDone && (dirs .down).isDone then
      { s with dirs, result := some (.ok (totals dirs)) }
    else
      { s with dirs, drain := s.drain || (dirs .up).eof || (dirs .down).eof }

-- The write halves are shut down after the completions, unless one of them makes the task return.
def shutdowns (order : List Side) : List Side :=
  if (reapAll s.dirs order).snd.isSome then [] else endedAll s.dirs order

def setDirection (side : Side) (f : Direction → Direction) : Relay :=
  { s with dirs := Function.update s.dirs side (f (s.dirs side)) }

def step (e : Event) : Relay :=
  match e with
  | .arrive side bytes =>
    setDirection s side fun d => { d with conduit := d.conduit.send bytes }
  | .fin side => setDirection s side fun d => { d with conduit := d.conduit.close }
  | .completed side result => setDirection s side (·.completed result)
  | .wakeup order => wakeup s order
  | .waitFailed e => { s with result := some (.error e) }
  | .drainExpired =>
    { s with
      dirs := fun side =>
        if (s.dirs side).eof then s.dirs side else { s.dirs side with cut := some .drainExpired }
      result := some (.ok (totals s.dirs)) }
  | .spliced _ _ => s

def Enabled (e : Event) : Prop :=
  match e with
  | .arrive _ _ => True
  | .fin _ => True
  | .completed side result => s.result.isNone ∧ (s.dirs side).canComplete result
  | .wakeup _ => s.result.isNone
  | .waitFailed _ => s.result.isNone
  | .drainExpired => s.result.isNone ∧ s.drain
  | .spliced _ _ => False

end

instance (s : Relay) (e : Event) : Decidable (Enabled s e) :=
  match e with
  | .arrive _ _ => isTrue trivial
  | .fin _ => isTrue trivial
  | .completed _ _ => inferInstanceAs (Decidable (_ = true ∧ _ = true))
  | .wakeup _ => inferInstanceAs (Decidable (_ = true))
  | .waitFailed _ => inferInstanceAs (Decidable (_ = true))
  | .drainExpired => inferInstanceAs (Decidable (_ = true ∧ _ = true))
  | .spliced _ _ => isFalse id

end Uring

inductive Relay where
  | epoll (s : Epoll.Relay)
  | uring (s : Uring.Relay)

inductive Backend where
  | epoll
  | uring

namespace Relay

def start (backend : Backend) (conduits : Side → Conduit UInt8) : Relay :=
  match backend with
  | .epoll => .epoll (Epoll.start conduits)
  | .uring => .uring (Uring.start conduits)

def step (s : Relay) (e : Event) : Relay :=
  match s with
  | .epoll s => .epoll (Epoll.step s e)
  | .uring s => .uring (Uring.step s e)

def Enabled (s : Relay) (e : Event) : Prop :=
  match s with
  | .epoll s => Epoll.Enabled s e
  | .uring s => Uring.Enabled s e

instance (s : Relay) (e : Event) : Decidable (s.Enabled e) :=
  match s with
  | .epoll s => inferInstanceAs (Decidable (Epoll.Enabled s e))
  | .uring s => inferInstanceAs (Decidable (Uring.Enabled s e))

def conduit (s : Relay) (side : Side) : Conduit UInt8 :=
  match s with
  | .epoll s => (s.dirs side).conduit
  | .uring s => (s.dirs side).conduit

def cut (s : Relay) (side : Side) : Option Cut :=
  match s with
  | .epoll s => (s.dirs side).cut
  | .uring s => (s.dirs side).cut

def result (s : Relay) : Option (Except Errno (UInt64 × UInt64)) :=
  match s with
  | .epoll s => Epoll.result s
  | .uring s => s.result

end Relay

open Machine

def Side.count (side : Side) (pair : UInt64 × UInt64) : UInt64 :=
  match side with
  | up => pair.fst
  | down => pair.snd

theorem Side.eq_or_eq_other (side side' : Side) : side' = side ∨ side' = side.other := by
  cases side <;> cases side' <;> simp [other]

theorem Side.other_ne (side : Side) : side.other ≠ side := by
  cases side <;> simp [other]

theorem count_counts (side : Side) (own others : UInt64)
    : side.count (counts side own others) = own := by
  cases side <;> rfl

theorem count_counts_other (side : Side) (own others : UInt64)
    : side.count (counts side.other own others) = others := by
  cases side <;> rfl

section

variable {δ : Type} {p : Side → δ → Prop}

theorem forall_update_of_other (hd : p side d) (hother : p side.other (dirs side.other))
    : ∀ side', p side' (Function.update dirs side d side') := by
  intro side'
  cases side.eq_or_eq_other side' with
  | inl heq =>
    rw [heq, Function.update_self]
    exact hd
  | inr heq =>
    rw [heq, Function.update_of_ne side.other_ne]
    exact hother

theorem forall_update (hd : p side d) (h : ∀ side', p side' (dirs side'))
    : ∀ side', p side' (Function.update dirs side d side') :=
  forall_update_of_other hd (h side.other)

end

namespace Epoll

def Phase.remaining : Phase → Nat
  | filling => 0
  | draining remaining => remaining
  | finished => 0

structure Tracked (d : Direction) : Prop where
  intact : d.conduit.Intact
  total : d.total = UInt64.ofNat d.conduit.delivered.length
  held : d.conduit.held.length = d.phase.remaining
  ended : d.phase = .finished → d.conduit.AtEnd

theorem tracked_start : Tracked ⟨.empty, .filling, 0, none⟩ where
  intact := Conduit.intact_empty
  total := by rfl
  held := by rfl
  ended := by simp

theorem Tracked.send {d : Direction} {bytes : Bytes} (h : Tracked d)
    : Tracked { d with conduit := d.conduit.send bytes } where
  intact := h.intact.send
  total := by
    rw [Conduit.delivered_send]
    exact h.total
  held := by
    rw [Conduit.held_send]
    exact h.held
  ended := by
    intro hphase
    exact (h.ended hphase).send

theorem Tracked.close (d : Direction) (h : Tracked d)
    : Tracked { d with conduit := d.conduit.close } where
  intact := h.intact.close
  total := h.total
  held := h.held
  ended := by
    intro hphase
    exact (h.ended hphase).close

theorem Tracked.splice {result : Spliced} (h : Tracked d) (hreturn : canReturn d result)
    : Tracked (spliceOneDirection d result).fst := by
  have hheld := h.held
  unfold spliceOneDirection
  split
  . next hphase =>
    have hfill : CanFill d.conduit 0 := by
      simpa [canReturn, hphase] using hreturn
    rw [hphase] at hheld
    exact ⟨h.intact, h.total, hheld, fun _ => hfill.right.right rfl⟩
  . next n hn hphase =>
    have hfill : CanFill d.conduit n := by
      simpa [canReturn, hphase] using hreturn
    rw [hphase, Phase.remaining, List.length_eq_zero_iff] at hheld
    refine ⟨h.intact.take n, h.total, ?_, by simp⟩
    exact Conduit.length_held_take hheld hfill.left
  . exact h
  . next remaining n hn hphase =>
    have hle : n ≤ remaining := by
      simpa [canReturn, hphase] using hreturn
    rw [hphase, Phase.remaining] at hheld
    refine ⟨h.intact.pass n, ?_, ?_, ?_⟩
    . dsimp only
      rw [Conduit.length_delivered_pass (by omega), UInt64.ofNat_add, h.total]
    . dsimp only
      rw [Conduit.length_held_pass]
      split
      . rw [Phase.remaining]
        omega
      . rw [Phase.remaining]
        omega
    . dsimp only
      split <;> simp
  . exact h
  . split <;> exact h

theorem finished_of_ok {result : Spliced} (h : (spliceOneDirection d result).snd = some (.ok count))
    : (spliceOneDirection d result).fst.phase = .finished
        ∧ count = (spliceOneDirection d result).fst.total := by
  unfold spliceOneDirection at *
  split at h
  . simp only [Option.some.injEq, Except.ok.injEq] at h
    exact ⟨rfl, h.symm⟩
  . simp at h
  . simp at h
  . simp at h
  . simp at h
  . split at h <;> simp at h

theorem cut_splice {result : Spliced}
    : (spliceOneDirection d result).fst.cut = d.cut := by
  unfold spliceOneDirection
  split <;> try rfl
  split <;> rfl

theorem Tracked.delivered_eq (h : Tracked d) (hphase : d.phase = .finished)
    : d.conduit.delivered = d.conduit.sent := by
  have hheld := h.held
  rw [hphase, Phase.remaining, List.length_eq_zero_iff] at hheld
  exact h.intact.delivered_eq hheld (h.ended hphase).right

def StageHolds (dirs : Side → Direction) (stage : Stage) : Prop :=
  match stage with
  | .selecting => ∀ side, (dirs side).cut = none
  | .draining first count =>
    (∀ side, (dirs side).cut = none)
      ∧ (dirs first).phase = .finished
      ∧ count = (dirs first).total
  | .returned (.ok pair) => ∀ side, (dirs side).cut = none
      → (dirs side).phase = .finished ∧ side.count pair = (dirs side).total
  | .returned (.error _) => True

structure Inv (s : Relay) : Prop where
  tracked : ∀ side, Tracked (s.dirs side)
  stage : StageHolds s.dirs s.stage

theorem inv_start : Inv (start fun _ => .empty) where
  tracked := fun _ => tracked_start
  stage := fun _ => rfl

theorem inv_setConduit (s : Relay) (side : Side) (f : Conduit UInt8 → Conduit UInt8) (h : Inv s)
    (htracked : Tracked { s.dirs side with conduit := f (s.dirs side).conduit })
    : Inv (setConduit s side f) := by
  constructor
  . exact forall_update htracked h.tracked
  . have hstage := h.stage
    have hsame (side' : Side) := forall_update (p := fun side' (d : Direction) =>
      d.cut = (s.dirs side').cut ∧ d.phase = (s.dirs side').phase ∧ d.total = (s.dirs side').total)
      (d := { s.dirs side with conduit := f (s.dirs side).conduit }) ⟨rfl, rfl, rfl⟩
      (fun _ => ⟨rfl, rfl, rfl⟩) side'
    unfold StageHolds setConduit at *
    simp only [hsame]
    exact hstage

theorem eq_other_of_isPolled (h : isPolled (.draining first count) side)
    : first = side.other := by
  cases side.eq_or_eq_other first with
  | inl heq => simp [isPolled, heq] at h
  | inr heq => exact heq

section

variable {dirs dirs' : Side → Direction} (hstage : StageHolds dirs stage)
  (hpolled : isPolled stage side) (hother : dirs' side.other = dirs side.other)
  (hcut : (∀ side', (dirs side').cut = none) → ∀ side', (dirs' side').cut = none)

include hstage hpolled hother hcut

theorem stageHolds_waiting : StageHolds dirs' stage := by
  cases stage with
  | selecting => exact hcut hstage
  | draining first count =>
    have hfirst := eq_other_of_isPolled hpolled
    subst hfirst
    refine ⟨hcut hstage.left, ?_⟩
    rw [hother]
    exact hstage.right
  | returned r => simp [isPolled] at hpolled

theorem stageHolds_ended (houtput : ∀ count, output = .ok count →
      (dirs' side).phase = .finished ∧ count = (dirs' side).total)
    : StageHolds dirs' (ended stage side output) := by
  cases stage with
  | returned r => simp [isPolled] at hpolled
  | selecting =>
    cases output with
    | error e => trivial
    | ok count => exact ⟨hcut hstage, houtput count rfl⟩
  | draining first count =>
    cases output with
    | error e => trivial
    | ok count' =>
      have hfirst := eq_other_of_isPolled hpolled
      subst hfirst
      rcases houtput count' rfl with ⟨hphase, hcount⟩
      intro side' _
      cases side.eq_or_eq_other side' with
      | inl heq =>
        rw [heq, count_counts_other]
        exact ⟨hphase, hcount⟩
      | inr heq =>
        rw [heq, count_counts, hother]
        exact hstage.right

end

theorem inv_spliced (s : Relay) {result : Spliced} (h : Inv s) (hpolled : isPolled s.stage side)
    (hreturn : canReturn (s.dirs side) result)
    : Inv (step s (.spliced side result)) := by
  have htracked := (h.tracked side).splice hreturn
  have hself : (step s (.spliced side result)).dirs side
      = (spliceOneDirection (s.dirs side) result).fst := Function.update_self _ _ _
  have hother : (step s (.spliced side result)).dirs side.other = s.dirs side.other :=
    Function.update_of_ne side.other_ne _ _
  have hcut (hnone : ∀ side', (s.dirs side').cut = none)
      : ∀ side', ((step s (.spliced side result)).dirs side').cut = none := by
    apply forall_update (p := fun _ (d : Direction) => d.cut = none)
    . exact cut_splice.trans (hnone side)
    . exact hnone
  constructor
  . exact forall_update htracked h.tracked
  . cases hout : (spliceOneDirection (s.dirs side) result).snd with
    | none =>
      have hst : (step s (.spliced side result)).stage = s.stage := by
        simp [step, hout]
      rw [hst]
      exact stageHolds_waiting h.stage hpolled hother hcut
    | some output =>
      have hst : (step s (.spliced side result)).stage = ended s.stage side output := by
        simp [step, hout]
      rw [hst]
      apply stageHolds_ended h.stage hpolled hother hcut
      intro count hcount
      rw [hcount] at hout
      rw [hself]
      exact finished_of_ok hout

theorem inv_drainExpired (h : Inv s) (hdraining : isDraining s.stage)
    : Inv (step s .drainExpired) := by
  have hstage := h.stage
  cases hs : s.stage with
  | selecting => simp [isDraining, hs] at hdraining
  | returned r => simp [isDraining, hs] at hdraining
  | draining first count =>
    rw [hs] at hstage
    have hstep : step s .drainExpired = {
        dirs := Function.update s.dirs first.other
          { s.dirs first.other with cut := some .drainExpired }
        stage := .returned (.ok (counts first count 0)) } := by
      simp [step, hs]
    rw [hstep]
    constructor
    . apply forall_update (p := fun _ => Tracked)
      . have := h.tracked first.other
        exact ⟨this.intact, this.total, this.held, this.ended⟩
      . exact h.tracked
    . refine (Function.forall_update_iff _ fun (side : Side) (d : Direction) => d.cut = none →
        d.phase = .finished ∧ side.count (counts first count 0) = d.total).mpr ⟨?_, ?_⟩
      . simp
      . intro side hside _
        have heq : side = first := by
          cases first.eq_or_eq_other side with
          | inl heq => exact heq
          | inr heq => exact absurd heq hside
        rw [heq, count_counts]
        exact hstage.right

theorem inv_step (h : Inv s) (he : Enabled s e) : Inv (step s e) := by
  cases e with
  | arrive side bytes =>
    exact inv_setConduit s side (·.send bytes) h ((h.tracked side).send)
  | fin side => exact inv_setConduit s side (·.close) h ((h.tracked side).close _)
  | spliced side result => exact inv_spliced s h he.left he.right
  | drainExpired => exact inv_drainExpired h he
  | completed side result => exact absurd he id
  | wakeup order => exact absurd he id
  | waitFailed e => exact absurd he id

end Epoll

namespace Uring

def FlightHolds (d : Direction) : Prop :=
  match d.flight with
  | .splicingIn =>
    d.eof = false ∧ d.inPipe = 0 ∧ d.conduit.held = []
      ∧ d.total = UInt64.ofNat d.conduit.delivered.length
  | .splicingOut len =>
    d.eof = false ∧ len = d.inPipe ∧ d.inPipe = d.conduit.held.length
      ∧ d.total = UInt64.ofNat d.conduit.delivered.length
  | .doneIn result =>
    d.eof = false ∧ d.inPipe = 0 ∧ d.conduit.held.length = result.toNat
      ∧ (result = 0 → d.conduit.AtEnd)
      ∧ d.total = UInt64.ofNat d.conduit.delivered.length
  | .doneOut result =>
    d.eof = false ∧ d.inPipe = d.conduit.held.length + result.toNat
      ∧ d.total + UInt64.ofNat result.toNat = UInt64.ofNat d.conduit.delivered.length
  | .idle =>
    d.eof = true ∧ (d.cut = none → d.conduit.held = [] ∧ d.conduit.AtEnd
      ∧ d.total = UInt64.ofNat d.conduit.delivered.length)

structure Tracked (d : Direction) : Prop where
  intact : d.conduit.Intact
  flight : FlightHolds d

theorem tracked_start : Tracked (Direction.pushIn ⟨.empty, 0, false, 0, 0, .idle, none⟩) where
  intact := Conduit.intact_empty
  flight := by simp [FlightHolds, Direction.pushIn, Conduit.empty]

theorem FlightHolds.congr (h : FlightHolds d) (hheld : c.held = d.conduit.held)
    (hdelivered : c.delivered = d.conduit.delivered) (hatEnd : d.conduit.AtEnd → c.AtEnd)
    : FlightHolds { d with conduit := c } := by
  unfold FlightHolds at *
  cases hf : d.flight with
  | splicingIn => simpa [hf, hheld, hdelivered] using h
  | splicingOut len => simpa [hf, hheld, hdelivered] using h
  | doneOut result => simpa [hf, hheld, hdelivered] using h
  | doneIn result =>
    simp only [hf, hheld, hdelivered] at h ⊢
    rcases h with ⟨heof, hpipe, hlength, hend, htotal⟩
    exact ⟨heof, hpipe, hlength, fun hresult => hatEnd (hend hresult), htotal⟩
  | idle =>
    simp only [hf, hheld, hdelivered] at h ⊢
    refine ⟨h.left, ?_⟩
    intro hcut
    rcases h.right hcut with ⟨hempty, hend, htotal⟩
    exact ⟨hempty, hatEnd hend, htotal⟩

theorem Tracked.send {d : Direction} {bytes : Bytes} (h : Tracked d)
    : Tracked { d with conduit := d.conduit.send bytes } where
  intact := h.intact.send
  flight := by
    apply FlightHolds.congr h.flight
    . apply Conduit.held_send
    . apply Conduit.delivered_send
    . exact fun hend => hend.send

theorem Tracked.close (d : Direction) (h : Tracked d)
    : Tracked { d with conduit := d.conduit.close } where
  intact := h.intact.close
  flight := FlightHolds.congr h.flight rfl rfl fun hend => hend.close

theorem Tracked.completed (h : Tracked d) (hcomplete : d.canComplete result)
    : Tracked (d.completed result) := by
  have hflight := h.flight
  unfold FlightHolds at hflight
  unfold Direction.canComplete at hcomplete
  unfold Direction.completed
  cases hf : d.flight with
  | splicingIn =>
    rw [hf] at hflight hcomplete
    rcases hflight with ⟨heof, hpipe, hheld, htotal⟩
    simp only [Bool.or_eq_true, decide_eq_true_eq] at hcomplete
    refine ⟨h.intact.take _, heof, hpipe, ?_, ?_, htotal⟩
    . cases hcomplete with
      | inl hneg =>
        rw [Int.toNat_of_nonpos (by omega), Conduit.take_zero, hheld]
        rfl
      | inr hfill => exact Conduit.length_held_take hheld hfill.left
    . intro hzero
      cases hcomplete with
      | inl hneg => omega
      | inr hfill =>
        rw [hzero] at hfill ⊢
        exact hfill.right.right rfl
  | splicingOut len =>
    rw [hf] at hflight hcomplete
    rcases hflight with ⟨heof, hlen, hpipe, htotal⟩
    simp only [decide_eq_true_eq] at hcomplete
    refine ⟨h.intact.pass _, heof, ?_, ?_⟩
    . dsimp only
      rw [Conduit.length_held_pass]
      omega
    . dsimp only
      rw [Conduit.length_delivered_pass (by omega), UInt64.ofNat_add, htotal]
  | idle => simp [hf] at hcomplete
  | doneIn r => simp [hf] at hcomplete
  | doneOut r => simp [hf] at hcomplete

theorem eof_idle (h : Tracked d) (heof : d.eof = true) : d.flight = .idle := by
  have hflight := h.flight
  unfold FlightHolds at hflight
  cases hf : d.flight <;> simp_all

theorem Tracked.reapIn (h : Tracked d) (hf : d.flight = .doneIn result)
    (hd : d.reapIn result = .ok d')
    : Tracked d' := by
  have hflight := h.flight
  unfold FlightHolds at hflight
  rw [hf] at hflight
  rcases hflight with ⟨heof, hpipe, hheld, hend, htotal⟩
  unfold Direction.reapIn at hd
  split at hd
  next hzero =>
    cases hd
    refine ⟨h.intact, rfl, ?_⟩
    intro hcut
    split at hcut
    next hr =>
      rw [hr, Int.toNat_zero] at hheld
      exact ⟨List.eq_nil_of_length_eq_zero hheld, hend hr, htotal⟩
    next => cases hcut
  next =>
    split at hd
    next => cases hd
    next hpos =>
      cases hd
      refine ⟨h.intact, heof, rfl, ?_, htotal⟩
      simp only [Direction.pushOut]
      omega

theorem Tracked.reapOut (h : Tracked d) (hf : d.flight = .doneOut result)
    : Tracked (d.reapOut result) := by
  have hflight := h.flight
  unfold FlightHolds at hflight
  rw [hf] at hflight
  rcases hflight with ⟨heof, hpipe, htotal⟩
  unfold Direction.reapOut
  simp only
  split
  next hagain =>
    rw [hagain] at hpipe htotal
    refine ⟨h.intact, heof, rfl, ?_, ?_⟩
    . simpa [Direction.pushOut, eagain] using hpipe
    . simpa [Direction.pushOut, eagain] using htotal
  next =>
    split
    next hpos =>
      split
      next hrest =>
        refine ⟨h.intact, heof, rfl, ?_, htotal⟩
        simp only [Direction.pushOut]
        omega
      next hempty =>
        rw [if_pos (by simpa using heof)]
        refine ⟨h.intact, heof, ?_, ?_, htotal⟩
        . simp only [Direction.pushIn]
          omega
        . apply List.eq_nil_of_length_eq_zero
          simp only [Direction.pushIn]
          omega
    next =>
      refine ⟨h.intact, rfl, ?_⟩
      intro hcut
      cases hcut

theorem Tracked.reap (h : Tracked d) (hd : d.reap = .ok d') : Tracked d' := by
  unfold Direction.reap at hd
  split at hd
  next result hf => exact h.reapIn hf hd
  next result hf =>
    cases hd
    exact h.reapOut hf
  next =>
    cases hd
    exact h

theorem forall_reapAll (P : Direction → Prop) (hreap : ∀ d d', P d → d.reap = .ok d' → P d')
    (order : List Side) (h : ∀ side, P (dirs side))
    : ∀ side, P ((reapAll dirs order).fst side) := by
  induction order generalizing dirs with
  | nil => exact h
  | cons side order ih =>
    unfold reapAll
    split
    next => exact h
    next d hd => exact ih (forall_update (p := fun _ => P) (hreap _ d (h side) hd) h)

structure Inv (s : Relay) : Prop where
  tracked : ∀ side, Tracked (s.dirs side)
  returned : ∀ pair, s.result = some (.ok pair) →
    ∀ side, (s.dirs side).cut = none → (s.dirs side).eof ∧ side.count pair = (s.dirs side).total

theorem count_totals {side : Side}
    : side.count (totals dirs) = (dirs side).total := by
  cases side <;> rfl

theorem inv_start : Inv (start fun _ => .empty) where
  tracked := fun _ => tracked_start
  returned := by
    intro pair hresult
    cases hresult

theorem inv_setDirection (h : Inv s) (htracked : Tracked (f (s.dirs side)))
    (hbooks : s.result = none ∨ (f (s.dirs side)).cut = (s.dirs side).cut
      ∧ (f (s.dirs side)).eof = (s.dirs side).eof ∧ (f (s.dirs side)).total = (s.dirs side).total)
    : Inv (setDirection s side f) := by
  constructor
  . exact forall_update htracked h.tracked
  . intro pair hresult
    cases hbooks with
    | inl hnone =>
      rw [show (setDirection s side f).result = s.result from rfl, hnone] at hresult
      cases hresult
    | inr hsame =>
      apply forall_update (p := fun side (d : Direction) =>
        d.cut = none → d.eof ∧ side.count pair = d.total)
      . rw [hsame.left, hsame.right.left, hsame.right.right]
        exact h.returned pair hresult side
      . exact h.returned pair hresult

theorem inv_wakeup {s : Relay} (order : List Side) (h : Inv s) (hnone : s.result = none)
    : Inv (wakeup s order) := by
  have htracked := forall_reapAll Tracked (fun _ _ => Tracked.reap) order h.tracked
  unfold wakeup
  split
  next dirs e hreap =>
    rw [hreap] at htracked
    refine ⟨htracked, ?_⟩
    intro pair hresult
    cases hresult
  next dirs hreap =>
    rw [hreap] at htracked
    split
    next hdone =>
      refine ⟨htracked, ?_⟩
      intro pair hresult side _
      cases hresult
      refine ⟨?_, count_totals⟩
      simp only [Direction.isDone, Bool.and_eq_true] at hdone
      cases side with
      | up => exact hdone.left.left
      | down => exact hdone.right.left
    next =>
      refine ⟨htracked, ?_⟩
      intro pair hresult
      rw [show s.result = some (.ok pair) from hresult] at hnone
      cases hnone

theorem inv_drainExpired {s : Relay} (h : Inv s) : Inv (step s .drainExpired) := by
  constructor
  . intro side
    simp only [step]
    split
    next => exact h.tracked side
    next heof =>
      refine ⟨(h.tracked side).intact, ?_⟩
      have hflight := (h.tracked side).flight
      unfold FlightHolds at *
      cases hf : (s.dirs side).flight with
      | idle =>
        rw [hf] at hflight
        exact absurd hflight.left heof
      | splicingIn => simpa [hf] using hflight
      | splicingOut len => simpa [hf] using hflight
      | doneIn result => simpa [hf] using hflight
      | doneOut result => simpa [hf] using hflight
  . intro pair hresult side hcut
    cases hresult
    simp only [step] at hcut ⊢
    split at hcut
    next heof =>
      rw [if_pos heof]
      exact ⟨heof, count_totals⟩
    next => cases hcut

theorem inv_step (h : Inv s) (he : Enabled s e) : Inv (step s e) := by
  unfold step
  cases e with
  | arrive side bytes =>
    apply inv_setDirection h
    . exact (h.tracked side).send
    . exact .inr ⟨rfl, rfl, rfl⟩
  | fin side =>
    apply inv_setDirection h
    . exact (h.tracked side).close _
    . exact .inr ⟨rfl, rfl, rfl⟩
  | completed side result =>
    apply inv_setDirection h
    . exact (h.tracked side).completed he.right
    . exact .inl (Option.isNone_iff_eq_none.mp he.left)
  | wakeup order => exact inv_wakeup order h (Option.isNone_iff_eq_none.mp he)
  | waitFailed e =>
    refine ⟨h.tracked, ?_⟩
    intro pair hresult
    cases hresult
  | drainExpired => exact inv_drainExpired h
  | spliced side result => exact absurd he id

end Uring

section

theorem Epoll.complete_of_ok (h : Epoll.Inv s) (hresult : Epoll.result s = some (.ok pair))
    (hcut : (s.dirs side).cut = none)
    : (s.dirs side).conduit.delivered = (s.dirs side).conduit.sent
        ∧ side.count pair = UInt64.ofNat (s.dirs side).conduit.delivered.length := by
  have htracked := h.tracked side
  have hstage := h.stage
  unfold Epoll.result at hresult
  split at hresult
  next r hr =>
    cases hresult
    rw [hr] at hstage
    rcases hstage side hcut with ⟨hphase, hcount⟩
    exact ⟨htracked.delivered_eq hphase, hcount.trans htracked.total⟩
  next => cases hresult

theorem Uring.complete_of_ok (h : Uring.Inv s) (hresult : s.result = some (.ok pair))
    (hcut : (s.dirs side).cut = none)
    : (s.dirs side).conduit.delivered = (s.dirs side).conduit.sent
        ∧ side.count pair = UInt64.ofNat (s.dirs side).conduit.delivered.length := by
  have htracked := h.tracked side
  rcases h.returned pair hresult side hcut with ⟨heof, hcount⟩
  have hflight := htracked.flight
  unfold Uring.FlightHolds at hflight
  rw [Uring.eof_idle htracked heof] at hflight
  rcases hflight.right hcut with ⟨hheld, hend, htotal⟩
  exact ⟨htracked.intact.delivered_eq hheld hend.right, hcount.trans htotal⟩

def Relay.Inv : Relay → Prop
  | .epoll s => Epoll.Inv s
  | .uring s => Uring.Inv s

theorem Relay.inv_start : (Relay.start backend fun _ => .empty).Inv := by
  cases backend with
  | epoll => exact Epoll.inv_start
  | uring => exact Uring.inv_start

theorem Relay.inv_step {s : Relay} (h : s.Inv) (he : s.Enabled e)
    : (s.step e).Inv := by
  cases s with
  | epoll s => exact Epoll.inv_step h he
  | uring s => exact Uring.inv_step h he

theorem Relay.complete_of_ok {s : Relay} (h : s.Inv) (hresult : s.result = some (.ok pair))
    (hcut : s.cut side = none)
    : (s.conduit side).delivered = (s.conduit side).sent
        ∧ side.count pair = UInt64.ofNat (s.conduit side).delivered.length := by
  cases s with
  | epoll s => exact Epoll.complete_of_ok h hresult hcut
  | uring s => exact Uring.complete_of_ok h hresult hcut

end

def halfClosed : List Event :=
  [.arrive .up [1, 2], .completed .up 2, .wakeup [.up], .completed .up 2, .fin .up, .wakeup [.up],
    .completed .up 0, .wakeup [.up], .arrive .down [3], .fin .down, .completed .down 1,
    .wakeup [.down], .completed .down 1, .wakeup [.down], .completed .down 0, .wakeup [.down]]

def slowResponse : List Event :=
  [.fin .up, .spliced .up (.moved 0), .arrive .down [3], .fin .down, .drainExpired]

namespace Epoll

theorem intact_splice {result : Spliced} (h : d.conduit.Intact)
    : (spliceOneDirection d result).fst.conduit.Intact := by
  unfold spliceOneDirection
  split
  . exact h
  . exact h.take _
  . exact h
  . exact h.pass _
  . exact h
  . split <;> exact h

theorem intact_step (h : ∀ side, (s.dirs side).conduit.Intact)
    : ∀ side, ((step s e).dirs side).conduit.Intact := by
  unfold step
  split
  next side bytes =>
    exact forall_update (p := fun _ (d : Direction) => d.conduit.Intact) ((h side).send) h
  next side =>
    exact forall_update (p := fun _ (d : Direction) => d.conduit.Intact) (h side).close h
  next side result =>
    exact forall_update (p := fun _ (d : Direction) => d.conduit.Intact) (intact_splice (h side)) h
  next =>
    split
    next first count hstage =>
      exact forall_update (p := fun _ (d : Direction) => d.conduit.Intact) (h first.other) h
    next => exact h
  next => exact h

end Epoll

namespace Uring

theorem forall_step (P : Direction → Prop)
    (hsend : ∀ d bytes, P d → P { d with conduit := d.conduit.send bytes })
    (hclose : ∀ d, P d → P { d with conduit := d.conduit.close })
    (hcompleted : ∀ d result, P d → P (d.completed result))
    (hreap : ∀ d d', P d → d.reap = .ok d' → P d')
    (hcut : ∀ d, P d → P { d with cut := some .drainExpired }) (h : ∀ side, P (s.dirs side))
    : ∀ side, P ((step s e).dirs side) := by
  unfold step
  split
  next side bytes => exact forall_update (p := fun _ => P) (hsend _ bytes (h side)) h
  next side => exact forall_update (p := fun _ => P) (hclose _ (h side)) h
  next side result => exact forall_update (p := fun _ => P) (hcompleted _ result (h side)) h
  next order =>
    have hall := forall_reapAll P hreap order h
    unfold wakeup
    split
    next dirs e hdirs =>
      rw [hdirs] at hall
      exact hall
    next dirs hdirs =>
      rw [hdirs] at hall
      split <;> exact hall
  next => exact h
  next =>
    intro side
    dsimp only
    split
    next => exact h side
    next => exact hcut _ (h side)
  next => exact h

-- `pending` goes up with every operation that is pushed.
def Counted (d : Direction) : Prop :=
  d.pending = if d.flight = .idle then 0 else 1

theorem counted_completed (h : Counted d) : Counted (d.completed result) := by
  unfold Counted Direction.completed at *
  split <;> simp_all

theorem counted_reap (h : Counted d) (hd : d.reap = .ok d') : Counted d' := by
  unfold Counted at *
  unfold Direction.reap at hd
  split at hd
  next result hf =>
    unfold Direction.reapIn at hd
    split at hd
    next =>
      cases hd
      simp_all
    split at hd
    next => cases hd
    next =>
      cases hd
      simp_all [Direction.pushOut]
  next result hf =>
    cases hd
    simp only [hf, Direction.reapOut, Direction.pushOut, Direction.pushIn] at h ⊢
    split
    next => simp [h]
    split
    next => split <;> [simp [h]; split <;> simp [h]]
    next => simp [h]
  next =>
    cases hd
    exact h

theorem counted_step (h : ∀ side, Counted (s.dirs side))
    : ∀ side, Counted ((step s e).dirs side) :=
  forall_step Counted (fun _ _ => id) (fun _ => id) (fun _ _ => counted_completed)
    (fun _ _ => counted_reap) (fun _ => id) h

/--
The source is at its end or the poll for it failed, and all that was read from it has been written.
-/
structure Ended (d : Direction) : Prop where
  flight : d.flight = .idle
  held : d.conduit.held = []
  input : d.conduit.AtEnd ∨ d.cut = some .pollFailed

theorem ended_reap (h : Tracked d) (hends : d.endsInput = true) (hd : d.reap = .ok d')
    : Ended d' := by
  have hflight := h.flight
  unfold Direction.endsInput at hends
  split at hends
  next result hf =>
    unfold FlightHolds at hflight
    rw [hf] at hflight
    rcases hflight with ⟨_, _, hheld, hend, _⟩
    have hresult : result = 0 ∨ result = -(ecanceled : Int) := by simpa using hends
    rw [Direction.reap, hf] at hd
    simp only [Direction.reapIn, if_pos hresult] at hd
    cases hd
    refine ⟨rfl, ?_, ?_⟩
    . apply List.eq_nil_of_length_eq_zero
      rw [hheld]
      rcases hresult with rfl | rfl <;> rfl
    . by_cases hzero : result = 0
      . exact .inl (hend hzero)
      . exact .inr (if_neg hzero)
  next => cases hends

theorem ended_reapAll (order : List Side) (h : ∀ side, Tracked (dirs side))
    (hside : side ∈ endedAll dirs order ∨ Ended (dirs side))
    : Ended ((reapAll dirs order).fst side) := by
  induction order generalizing dirs with
  | nil => exact hside.resolve_left List.not_mem_nil
  | cons side' order ih =>
    unfold reapAll
    unfold endedAll at hside
    split at hside
    next => exact hside.resolve_left List.not_mem_nil
    next d hd =>
      apply ih (forall_update ((h side').reap hd) h)
      by_cases hsame : side = side'
      . subst hsame
        rw [Function.update_self]
        rcases hside with hside | hended
        . split at hside
          next hends => exact .inr (ended_reap (h side) hends hd)
          next => exact .inl hside
        . rw [Direction.reap, hended.flight] at hd
          cases hd
          exact .inr hended
      . rw [Function.update_of_ne hsame]
        refine hside.imp_left fun hside => ?_
        split at hside
        next => exact (List.mem_cons.mp hside).resolve_left hsame
        next => exact hside

def Direction.Kept (d : Direction) : Prop :=
  d.pending ≤ 1
    ∧ d.conduit.delivered.length + d.conduit.held.length + d.conduit.unread.length
      = d.conduit.sent.length
    ∧ ∀ len, d.flight = .splicingOut len →
      len = d.conduit.held.length ∧ d.inPipe = len
        ∧ d.total = UInt64.ofNat d.conduit.delivered.length

theorem uring_state_kept (s : Relay) (h : Reach step Enabled (start fun _ => .empty) s)
    (side : Side)
    : (s.dirs side).Kept
        ∧ ∀ order, side ∈ shutdowns s order →
          let d := (wakeup s order).dirs side
          d.conduit.held = [] ∧ (d.conduit.AtEnd ∨ d.cut = some .pollFailed) := by
  have hinv := Reach.invariant
    (fun s => Inv s ∧ ∀ side, Counted (s.dirs side)) _ s ⟨inv_start, fun _ => rfl⟩
    (fun t e ht he => ⟨inv_step ht.left he, counted_step ht.right⟩) h
  have htracked := hinv.left.tracked
  refine ⟨⟨?_, ?_, ?_⟩, ?_⟩
  . rw [hinv.right side]
    split <;> decide
  . rw [← (htracked side).intact, List.length_append, List.length_append]
  . intro len hf
    have hflight := (htracked side).flight
    unfold FlightHolds at hflight
    rw [hf] at hflight
    rcases hflight with ⟨_, hlen, hpipe, htotal⟩
    exact ⟨hlen.trans hpipe, hlen.symm, htotal⟩
  . intro order hside
    unfold shutdowns at hside
    split at hside
    next => cases hside
    next hok =>
      have hended := ended_reapAll order htracked (.inl hside)
      unfold wakeup
      generalize reapAll s.dirs order = reaped at hok hended
      rcases reaped with ⟨dirs, e⟩
      cases e with
      | some e => exact absurd rfl hok
      | none =>
        dsimp only
        split <;> exact ⟨hended.held, hended.input⟩

def cancelled : Relay :=
  [.arrive .up [1], .completed .up (-125)].foldl step (start fun _ => .empty)

theorem uring_state_kept_cancelled
    : .up ∈ shutdowns cancelled [.up] ∧ ((wakeup cancelled [.up]).dirs .up).conduit.held = [] := by
  have hside : .up ∈ shutdowns cancelled [.up] := by decide
  refine ⟨hside, ((uring_state_kept cancelled ?_ .up).right [.up] hside).left⟩
  apply Reach.foldl _ _ .start
  decide

theorem shut_down_before_end
    : .up ∈ shutdowns cancelled [.up]
        ∧ ¬((wakeup cancelled [.up]).dirs .up).conduit.AtEnd := by
  decide

theorem conduit_reap {d d' : Direction} (hd : d.reap = .ok d') : d'.conduit = d.conduit := by
  unfold Direction.reap at hd
  split at hd
  next =>
    simp only [Direction.reapIn] at hd
    split at hd
    next =>
      cases hd
      rfl
    next =>
      split at hd
      next => cases hd
      next =>
        cases hd
        rfl
  next =>
    cases hd
    simp only [Direction.reapOut]
    split
    next => rfl
    split
    next =>
      split
      next => rfl
      next => split <;> rfl
    next => rfl
  next =>
    cases hd
    rfl

theorem intact_completed {d : Direction} (h : d.conduit.Intact)
    : (d.completed result).conduit.Intact := by
  unfold Direction.completed
  split
  . exact h.take _
  . exact h.pass _
  . exact h

theorem intact_step (h : ∀ side, (s.dirs side).conduit.Intact)
    : ∀ side, ((step s e).dirs side).conduit.Intact := by
  apply forall_step (fun d => d.conduit.Intact) _ _ _ _ _ h
  . exact fun d bytes hd => hd.send
  . exact fun d hd => hd.close
  . exact fun d result hd => intact_completed hd
  . exact fun d d' hd hreap => conduit_reap hreap ▸ hd
  . exact fun d hd => hd

end Uring

namespace Relay

theorem conduit_start (backend : Backend) (conduits : Side → Conduit UInt8) (side : Side)
    : (start backend conduits).conduit side = conduits side := by
  cases backend <;> rfl

theorem intact_step {s : Relay} (e : Event) (h : ∀ side, (s.conduit side).Intact)
    : ∀ side, ((s.step e).conduit side).Intact := by
  cases s with
  | epoll s => exact Epoll.intact_step h
  | uring s => exact Uring.intact_step h

end Relay

end Blackwire.Splice
