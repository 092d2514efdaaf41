import Mathlib.Data.List.Basic
import Mathlib.Data.List.Find
import Blackwire.Lib.Bytes

/-!
This module contains the reading half of XTLS Vision: the state machine that takes the padding out
of a stream. It is proved that it does not depend on how the stream is cut into pieces, and that it
gives back the content of a frame.
-/

namespace Blackwire.Vision

def visionInitial : Int := -1
def visionCommandPaddingContinue : Nat := 0
def visionCommandPaddingEnd : Nat := 1
def visionCommandPaddingDirect : Nat := 2

structure Uuid where
  bytes : Bytes
  length_eq : bytes.length = 16

structure VisionUnpaddingState where
  remainingCommand : Int
  remainingContent : Int
  remainingPadding : Int
  currentCommand : Nat
  pendingInitial : Bytes
  finished : Bool

structure Fed where
  state : VisionUnpaddingState
  out : Bytes
  direct : Bool

structure Round where
  state : VisionUnpaddingState
  out : Bytes
  rest : Bytes
  finish : Option Bool

namespace VisionUnpaddingState

def new : VisionUnpaddingState :=
  ⟨visionInitial, visionInitial, visionInitial, 0, [], false⟩

variable (s : VisionUnpaddingState)

def isInitial : Bool :=
  s.remainingCommand = visionInitial && s.remainingContent = visionInitial
    && s.remainingPadding = visionInitial

-- The low byte of a length that has its high byte is zero, so `|=` adds.
def setCommandByte (byte : UInt8) : VisionUnpaddingState :=
  if s.remainingCommand = 5 then
    { s with currentCommand := byte.toNat }
  else if s.remainingCommand = 4 then
    { s with remainingContent := 256 * byte.toNat }
  else if s.remainingCommand = 3 then
    { s with remainingContent := s.remainingContent + byte.toNat }
  else if s.remainingCommand = 2 then
    { s with remainingPadding := 256 * byte.toNat }
  else if s.remainingCommand = 1 then
    { s with remainingPadding := s.remainingPadding + byte.toNat }
  else
    s

def consume (input : Bytes) : VisionUnpaddingState × Bytes × Bytes :=
  if s.remainingCommand > 0 then
    match input with
    | [] => (s, [], [])
    | byte :: rest =>
      ({ s.setCommandByte byte with remainingCommand := s.remainingCommand - 1 }, [], rest)
  else if s.remainingContent > 0 then
    let take := min s.remainingContent.toNat input.length
    ({ s with remainingContent := s.remainingContent - take }, input.take take, input.drop take)
  else if s.remainingPadding > 0 then
    let skip := min s.remainingPadding.toNat input.length
    ({ s with remainingPadding := s.remainingPadding - skip }, [], input.drop skip)
  else
    (s, [], input)

def close : VisionUnpaddingState × Option Bool :=
  if s.remainingCommand ≤ 0 && s.remainingContent ≤ 0 && s.remainingPadding ≤ 0 then
    if s.currentCommand = visionCommandPaddingContinue then
      ({ s with remainingCommand := 5 }, none)
    else
      ({ s with
          finished := true
          remainingCommand := visionInitial
          remainingContent := visionInitial
          remainingPadding := visionInitial },
        some (s.currentCommand = visionCommandPaddingDirect))
  else
    (s, none)

def round (input : Bytes) : Round :=
  let (s, out, rest) := s.consume input
  let (s, finish) := s.close
  ⟨s, out, rest, finish⟩

end VisionUnpaddingState

def Round.andThen (r : Round) (next : VisionUnpaddingState → Bytes → Fed) : Fed :=
  match r.finish with
  | some direct => ⟨r.state, r.out ++ r.rest, direct⟩
  | none =>
    let fed := next r.state r.rest
    { fed with out := r.out ++ fed.out }

namespace VisionUnpaddingState

def feedLoop (uuid : Uuid) : Nat → VisionUnpaddingState → Bytes → Fed
  | 0, s, _ => ⟨s, [], false⟩
  | fuel + 1, s, input =>
    if input.isEmpty then
      ⟨s, [], false⟩
    else if s.isInitial then
      if s.pendingInitial.isEmpty && input.length ≥ 21 then
        if input.take 16 = uuid.bytes then
          ({ s with remainingCommand := 5 }.round (input.drop 16)).andThen (feedLoop uuid fuel)
        else
          ⟨{ s with finished := true }, input, false⟩
      else
        let pending := s.pendingInitial ++ input
        if pending.length < 21 then
          ⟨{ s with pendingInitial := pending }, [], false⟩
        else if pending.take 16 = uuid.bytes then
          -- The inner call of `feed`, whose state is not finished.
          feedLoop uuid fuel { s with remainingCommand := 5, pendingInitial := [] }
            (pending.drop 16)
        else
          ⟨{ s with finished := true, pendingInitial := [] }, pending, false⟩
    else
      (s.round input).andThen (feedLoop uuid fuel)

def feed (uuid : Uuid) (s : VisionUnpaddingState) (input : Bytes) : Fed :=
  if s.finished then
    ⟨s, input, false⟩
  else
    s.feedLoop uuid (s.pendingInitial.length + input.length + 1) input

def feedAll (uuid : Uuid) (s : VisionUnpaddingState) : List Bytes → VisionUnpaddingState × Bytes
  | [] => (s, [])
  | piece :: pieces =>
    let fed := s.feed uuid piece
    let (s, out) := fed.state.feedAll uuid pieces
    (s, fed.out ++ out)

end VisionUnpaddingState

open List

namespace VisionUnpaddingState

structure Inside (s : VisionUnpaddingState) : Prop where
  running : s.finished = false
  noPending : s.pendingInitial = []
  open' : 0 < s.remainingCommand ∨ 0 < s.remainingContent ∨ 0 < s.remainingPadding

structure Initial (s : VisionUnpaddingState) : Prop where
  running : s.finished = false
  initial : s.isInitial = true
  short : s.pendingInitial.length < 21

def Wf (s : VisionUnpaddingState) : Prop :=
  s.finished = true ∨ s.Initial ∨ s.Inside

theorem Inside.not_initial {s : VisionUnpaddingState} (h : s.Inside) : s.isInitial = false := by
  have hopen := h.open'
  unfold isInitial visionInitial
  simp only [Bool.and_eq_false_iff, decide_eq_false_iff_not]
  omega

section

variable {s : VisionUnpaddingState} (h : s.Inside)

include h

theorem round_rest_length {input : Bytes} (hne : input ≠ [])
    : (s.round input).rest.length < input.length := by
  change (s.consume input).snd.snd.length < input.length
  have hpos : 0 < input.length := length_pos_iff.mpr hne
  have hopen := h.open'
  unfold consume
  split
  next =>
    cases input with
    | nil => exact absurd rfl hne
    | cons byte rest => simp
  next =>
    split
    next =>
      simp only [length_drop]
      omega
    next =>
      split
      next =>
        simp only [length_drop]
        omega
      next => omega

theorem consume_fields {input : Bytes}
    : (s.consume input).fst.finished = false ∧ (s.consume input).fst.pendingInitial = [] := by
  have hkeep (byte : UInt8)
      : (s.setCommandByte byte).finished = false ∧ (s.setCommandByte byte).pendingInitial = [] := by
    unfold setCommandByte
    have hfields := And.intro h.running h.noPending
    split <;> [exact hfields; split] <;> [exact hfields; split] <;> [exact hfields; split]
      <;> [exact hfields; split] <;> exact hfields
  unfold consume
  split
  next =>
    cases input with
    | nil => exact ⟨h.running, h.noPending⟩
    | cons byte rest => exact hkeep byte
  next =>
    split
    next => exact ⟨h.running, h.noPending⟩
    next => split <;> exact ⟨h.running, h.noPending⟩

end

theorem close_of_open {s : VisionUnpaddingState}
    (h : 0 < s.remainingCommand ∨ 0 < s.remainingContent ∨ 0 < s.remainingPadding)
    : s.close = (s, none) := by
  unfold close
  rw [if_neg]
  simp only [Bool.and_eq_true, decide_eq_true_eq]
  omega

theorem close_cases {s : VisionUnpaddingState} (hrunning : s.finished = false)
    (hpending : s.pendingInitial = [])
    : (s.close.snd = none ∧ s.close.fst.Inside)
        ∨ ((∃ direct, s.close.snd = some direct) ∧ s.close.fst.finished = true) := by
  unfold close
  split
  next =>
    split
    next =>
      refine .inl ⟨rfl, hrunning, hpending, ?_⟩
      dsimp only
      omega
    next => exact .inr ⟨⟨_, rfl⟩, rfl⟩
  next hopen =>
    simp only [Bool.and_eq_true, decide_eq_true_eq] at hopen
    refine .inl ⟨rfl, hrunning, hpending, ?_⟩
    dsimp only
    omega

variable (uuid : Uuid) (s : VisionUnpaddingState) (input : Bytes)

theorem round_eq
    : s.round input
        = ⟨(s.consume input).fst.close.fst, (s.consume input).snd.fst, (s.consume input).snd.snd,
          (s.consume input).fst.close.snd⟩ :=
  rfl

theorem round_cases (h : s.Inside) (input : Bytes)
    : ((s.round input).finish = none ∧ (s.round input).state.Inside)
        ∨ ((∃ direct, (s.round input).finish = some direct)
          ∧ (s.round input).state.finished = true) := by
  rcases consume_fields h with ⟨hrunning, hpending⟩
  exact close_cases hrunning hpending

theorem feedLoop_fuel {fuel : Nat} (s : VisionUnpaddingState) (input : Bytes)
    (h : s.Inside) (hfuel : input.length ≤ fuel)
    : s.feedLoop uuid fuel input = s.feedLoop uuid input.length input := by
  induction fuel using Nat.strongRecOn generalizing s input with
  | ind fuel ih =>
    cases input with
    | nil => cases fuel <;> rfl
    | cons byte rest =>
      cases fuel with
      | zero => cases hfuel
      | succ fuel =>
        have hlength := round_rest_length h (cons_ne_nil byte rest)
        simp only [length_cons] at hfuel hlength
        rw [length_cons]
        unfold feedLoop
        simp only [Bool.false_eq_true, if_false, h.not_initial]
        unfold Round.andThen
        rcases round_cases s h (byte :: rest) with ⟨hnone, hinside⟩ | ⟨⟨direct, hsome⟩, _⟩
        . rw [hnone]
          rw [ih fuel (by omega) _ _ hinside (by omega),
            ih rest.length (by omega) _ _ hinside (by omega)]
        . rw [hsome]

def loop (uuid : Uuid) (s : VisionUnpaddingState) (input : Bytes) : Fed :=
  s.feedLoop uuid input.length input

theorem loop_nil : s.loop uuid [] = ⟨s, [], false⟩ := rfl

theorem andThen_feedLoop (fuel : Nat) {s : VisionUnpaddingState} (input : Bytes)
    (h : s.Inside) (hfuel : (s.round input).rest.length ≤ fuel)
    : (s.round input).andThen (feedLoop uuid fuel) = (s.round input).andThen (loop uuid) := by
  unfold Round.andThen
  rcases round_cases s h input with ⟨hnone, hinside⟩ | ⟨⟨direct, hsome⟩, _⟩
  . rw [hnone]
    rw [feedLoop_fuel uuid _ _ hinside hfuel]
    rfl
  . rw [hsome]

theorem loop_eq {s : VisionUnpaddingState} (h : s.Inside) (hne : input ≠ [])
    : s.loop uuid input = (s.round input).andThen (loop uuid) := by
  cases input with
  | nil => exact absurd rfl hne
  | cons byte rest =>
    have hlength := round_rest_length h hne
    rw [length_cons] at hlength
    rw [← andThen_feedLoop uuid rest.length (byte :: rest) h (by omega)]
    unfold loop
    rw [length_cons, feedLoop]
    simp only [isEmpty_cons, Bool.false_eq_true, if_false, h.not_initial]

theorem feed_of_finished (h : s.finished = true)
    : s.feed uuid input = ⟨s, input, false⟩ := by
  unfold feed
  rw [if_pos h]

theorem feed_of_inside (h : s.Inside)
    : s.feed uuid input = s.loop uuid input := by
  unfold feed
  rw [if_neg (by simp [h.running])]
  apply feedLoop_fuel
  . exact h
  . omega

theorem feed_nil : s.feed uuid [] = ⟨s, [], false⟩ := by
  unfold feed
  split
  . rfl
  . rfl

theorem wf_loop (uuid : Uuid) (s : VisionUnpaddingState) (input : Bytes) (h : s.Inside)
    : (s.loop uuid input).state.Wf := by
  by_cases hne : input = []
  . rw [hne]
    exact .inr (.inr h)
  have hlength := round_rest_length h hne
  rw [loop_eq uuid input h hne]
  unfold Round.andThen
  rcases round_cases s h input with ⟨hnone, hinside⟩ | ⟨⟨direct, hsome⟩, hfinished⟩
  . rw [hnone]
    exact wf_loop uuid _ _ hinside
  . rw [hsome]
    exact .inl hfinished
termination_by input.length

theorem min_append_of_le {n : Nat} {x y : Bytes} (h : n ≤ x.length)
    : min n (x ++ y).length = n := by
  rw [length_append]
  omega

theorem min_append_of_lt {n : Int} {x y : Bytes} (h : x.length < n)
    : min n.toNat (x ++ y).length = x.length + min (n - x.length).toNat y.length := by
  rw [length_append]
  omega

theorem consume_append {s : VisionUnpaddingState} (h : s.Inside) {x : Bytes} (hx : x ≠ [])
    : (∀ y, s.consume (x ++ y)
        = ((s.consume x).fst, (s.consume x).snd.fst, (s.consume x).snd.snd ++ y))
      ∨ ((s.consume x).snd.snd = [] ∧ (s.consume x).fst.close = ((s.consume x).fst, none)
        ∧ ∀ y, s.consume (x ++ y)
          = (((s.consume x).fst.consume y).fst,
            (s.consume x).snd.fst ++ ((s.consume x).fst.consume y).snd.fst,
            ((s.consume x).fst.consume y).snd.snd)) := by
  by_cases hcommand : 0 < s.remainingCommand
  . left
    cases x with
    | nil => exact absurd rfl hx
    | cons byte rest => simp [consume, hcommand]
  . by_cases hcontent : 0 < s.remainingContent
    . by_cases hle : s.remainingContent.toNat ≤ x.length
      . left
        intro y
        simp only [consume, hcommand, hcontent, if_false, if_true,
          Nat.min_eq_left hle, min_append_of_le hle]
        rw [take_append_of_le_length hle, drop_append_of_le_length hle]
      . right
        have hmin : min s.remainingContent.toNat x.length = x.length := by omega
        have hleft : 0 < s.remainingContent - x.length := by omega
        refine ⟨?_, ?_, ?_⟩
        . simp [consume, hcommand, hcontent, hmin]
        . simp only [consume, hcommand, hcontent, hmin]
          exact close_of_open (.inr (.inl hleft))
        . intro y
          simp only [consume, hcommand, hcontent, hleft, if_false, if_true, hmin,
            min_append_of_lt (Int.sub_pos.mp hleft), take_length,
            take_length_add_append, drop_length_add_append]
          push_cast
          rw [Int.sub_sub]
    . have hpadding : 0 < s.remainingPadding := by
        have hopen := h.open'
        omega
      by_cases hle : s.remainingPadding.toNat ≤ x.length
      . left
        intro y
        simp only [consume, hcommand, hcontent, hpadding, if_false, if_true,
          Nat.min_eq_left hle, min_append_of_le hle]
        rw [drop_append_of_le_length hle]
      . right
        have hmin : min s.remainingPadding.toNat x.length = x.length := by omega
        have hleft : 0 < s.remainingPadding - x.length := by omega
        refine ⟨?_, ?_, ?_⟩
        . simp [consume, hcommand, hcontent, hpadding, hmin]
        . simp only [consume, hcommand, hcontent, hpadding, hmin]
          exact close_of_open (.inr (.inr hleft))
        . intro y
          simp only [consume, hcommand, hcontent, hpadding, hleft, if_false, if_true,
            hmin, min_append_of_lt (Int.sub_pos.mp hleft), drop_length_add_append,
            nil_append]
          push_cast
          rw [Int.sub_sub]

end VisionUnpaddingState

def Fed.next (uuid : Uuid) (f : Fed) (y : Bytes) : Fed :=
  let g := f.state.feed uuid y
  ⟨g.state, f.out ++ g.out, f.direct || g.direct⟩

namespace VisionUnpaddingState

theorem loop_append (uuid : Uuid) (s : VisionUnpaddingState) (x y : Bytes) (h : s.Inside)
    : s.loop uuid (x ++ y) = (s.loop uuid x).next uuid y := by
  by_cases hx : x = []
  . rw [hx, nil_append, loop_nil]
    unfold Fed.next
    rw [feed_of_inside uuid s y h]
    rfl
  . have hxy : x ++ y ≠ [] := by simp [hx]
    have hlength := round_rest_length h hx
    rw [loop_eq uuid (x ++ y) h hxy, loop_eq uuid x h hx]
    rcases consume_append h hx with hsame | ⟨hrest, hclose, hsplit⟩
    . have hround : s.round (x ++ y) = { s.round x with rest := (s.round x).rest ++ y } := by
        unfold round
        rw [hsame y]
      rw [hround]
      unfold Round.andThen Fed.next
      rcases round_cases s h x with ⟨hnone, hinside⟩ | ⟨⟨direct, hsome⟩, hfinished⟩
      . simp only [hnone]
        rw [loop_append uuid _ _ y hinside]
        simp [Fed.next]
      . simp only [hsome]
        rw [feed_of_finished uuid _ y hfinished]
        simp
    . have hround : s.round x = ⟨(s.consume x).fst, (s.consume x).snd.fst, [], none⟩ := by
        rw [round_eq, hrest, hclose]
      have hinside : (s.consume x).fst.Inside := by
        rcases round_cases s h x with ⟨_, hinside⟩ | ⟨⟨direct, hsome⟩, _⟩
        . rw [hround] at hinside
          exact hinside
        . rw [hround] at hsome
          cases hsome
      rw [hround]
      simp only [Round.andThen, loop_nil, Fed.next]
      rw [feed_of_inside uuid _ y hinside]
      by_cases hy : y = []
      . have hsame := hsplit y
        rw [hy, append_nil] at *
        simp [hround]
      . rw [loop_eq uuid y hinside hy]
        unfold round
        rw [hsplit y]
        unfold Round.andThen
        dsimp only
        split
        . simp
        . simp
termination_by x.length

def start (uuid : Uuid) (s : VisionUnpaddingState) (bytes : Bytes) : Fed :=
  if bytes.length < 21 then
    ⟨{ s with pendingInitial := bytes }, [], false⟩
  else if bytes.take 16 = uuid.bytes then
    { s with remainingCommand := 5, pendingInitial := [] }.loop uuid (bytes.drop 16)
  else
    ⟨{ s with finished := true, pendingInitial := [] }, bytes, false⟩

variable (uuid : Uuid) (x : Bytes) {s : VisionUnpaddingState}

theorem Initial.inside (h : s.Initial)
    : { s with remainingCommand := 5, pendingInitial := [] : VisionUnpaddingState }.Inside where
  running := h.running
  noPending := rfl
  open' := .inl (by dsimp only; omega)

theorem feed_of_long {x : Bytes} (h : s.Initial)
    (hpending : s.pendingInitial = []) (hlong : 21 ≤ x.length)
    : s.feed uuid x = s.start uuid x := by
  have hempty : x.isEmpty = false := by
    rw [isEmpty_eq_false_iff, ← length_pos_iff]
    omega
  have hdrop : x.drop 16 ≠ [] := by
    rw [← length_pos_iff, length_drop]
    omega
  have hshort : ¬x.length < 21 := by omega
  have hinside := h.inside
  have hrest := round_rest_length hinside hdrop
  rw [length_drop] at hrest
  have hinitial := h.initial
  rcases s with ⟨command, content, padding, current, pending, finished⟩
  cases h.running
  cases hpending
  unfold feed feedLoop start
  simp only [hempty, hinitial, hlong, isEmpty_nil, Bool.false_eq_true, if_false,
    if_true, Bool.true_and, decide_true]
  split
  . rw [andThen_feedLoop uuid _ _ hinside (by omega), ← loop_eq uuid _ hinside hdrop]
  . rfl

theorem feed_of_initial {s : VisionUnpaddingState} {x : Bytes} (h : s.Initial)
    : s.feed uuid x = s.start uuid (s.pendingInitial ++ x) := by
  by_cases hx : x = []
  . rw [hx, feed_nil, append_nil]
    unfold start
    rw [if_pos h.short]
  . by_cases hfast : s.pendingInitial = [] ∧ 21 ≤ x.length
    . rw [hfast.left, nil_append]
      exact feed_of_long uuid h hfast.left hfast.right
    have hempty : x.isEmpty = false := by simpa using hx
    unfold feed feedLoop start
    rw [if_neg (by simp [h.running]), hempty, h.initial, if_neg (by decide), if_pos rfl,
      if_neg (by simpa using hfast)]
    dsimp only
    split
    . rfl
    split
    . apply feedLoop_fuel
      . exact h.inside
      . simp only [length_drop, length_append]
        omega
    . rfl

theorem wf_feed (h : s.Wf)
    : (s.feed uuid x).state.Wf := by
  rcases h with hfinished | hinitial | hinside
  . rw [feed_of_finished uuid s x hfinished]
    exact .inl hfinished
  . rw [feed_of_initial uuid hinitial]
    unfold start
    split
    next hshort => exact .inr (.inl ⟨hinitial.running, hinitial.initial, hshort⟩)
    split
    . exact wf_loop uuid _ _ hinitial.inside
    . exact .inl rfl
  . rw [feed_of_inside uuid s x hinside]
    exact wf_loop uuid s x hinside

theorem feed_append (s : VisionUnpaddingState) {x y : Bytes} (h : s.Wf)
    : s.feed uuid (x ++ y) = (s.feed uuid x).next uuid y := by
  rcases h with hfinished | hinitial | hinside
  . rw [feed_of_finished uuid s _ hfinished, feed_of_finished uuid s x hfinished]
    unfold Fed.next
    rw [feed_of_finished uuid s y hfinished]
    rfl
  . rw [feed_of_initial uuid hinitial, feed_of_initial uuid hinitial, ← append_assoc]
    by_cases hshort : (s.pendingInitial ++ x).length < 21
    . have hfirst : s.start uuid (s.pendingInitial ++ x)
          = ⟨{ s with pendingInitial := s.pendingInitial ++ x }, [], false⟩ := by
        unfold start
        rw [if_pos hshort]
      have hinitial' : { s with pendingInitial := s.pendingInitial ++ x
          : VisionUnpaddingState }.Initial := ⟨hinitial.running, hinitial.initial, hshort⟩
      rw [hfirst]
      unfold Fed.next
      rw [feed_of_initial uuid hinitial']
      rfl
    . have hlong : ¬(s.pendingInitial ++ x ++ y).length < 21 := by
        rw [length_append]
        omega
      have htake : (s.pendingInitial ++ x ++ y).take 16 = (s.pendingInitial ++ x).take 16 :=
        take_append_of_le_length (by omega)
      have hdrop : (s.pendingInitial ++ x ++ y).drop 16 = (s.pendingInitial ++ x).drop 16 ++ y :=
        drop_append_of_le_length (by omega)
      unfold start
      rw [if_neg hshort, if_neg hlong, htake, hdrop]
      split
      . exact loop_append uuid _ _ y hinitial.inside
      . rfl
  . rw [feed_of_inside uuid s _ hinside, feed_of_inside uuid s x hinside]
    exact loop_append uuid s x y hinside

theorem feedAll_eq (s : VisionUnpaddingState) (pieces : List Bytes) (h : s.Wf)
    : s.feedAll uuid pieces
        = ((s.feed uuid pieces.flatten).state, (s.feed uuid pieces.flatten).out) := by
  induction pieces generalizing s with
  | nil =>
    rw [flatten_nil, feed_nil]
    rfl
  | cons piece pieces ih =>
    rw [flatten_cons, feed_append uuid s h]
    unfold feedAll
    dsimp only
    rw [ih _ (wf_feed uuid piece h)]
    rfl

theorem wf_new : new.Wf := .inr (.inl ⟨rfl, rfl, by decide⟩)

structure Header (s : VisionUnpaddingState) : Prop where
  running : s.finished = false
  noPending : s.pendingInitial = []
  command : s.remainingCommand = 5
  content : s.remainingContent ≤ 0
  padding : s.remainingPadding ≤ 0

theorem Header.inside (h : s.Header) : s.Inside where
  running := h.running
  noPending := h.noPending
  open' := .inl (by rw [h.command]; decide)

def body (command : UInt8) (n : Nat) : VisionUnpaddingState :=
  ⟨0, n, 0, command.toNat, [], false⟩

theorem inside_command (n : Nat) (content padding : Int) (current : Nat)
    : Inside ⟨n + 1, content, padding, current, [], false⟩ :=
  ⟨rfl, rfl, .inl (Int.natCast_succ_pos n)⟩

theorem loop_command (n : Nat) (content padding : Int) (current : Nat) (byte : UInt8) (rest : Bytes)
    : loop uuid ⟨(n + 1 : Nat) + 1, content, padding, current, [], false⟩ (byte :: rest)
        = loop uuid
          { setCommandByte ⟨(n + 1 : Nat) + 1, content, padding, current, [], false⟩ byte with
            remainingCommand := n + 1 }
          rest := by
  have hconsume : consume ⟨(n + 1 : Nat) + 1, content, padding, current, [], false⟩ (byte :: rest)
      = ({ setCommandByte ⟨(n + 1 : Nat) + 1, content, padding, current, [], false⟩ byte with
            remainingCommand := n + 1 }, [], rest) := by
    have hpos : (n + 1 : Nat) + 1 > (0 : Int) := Int.natCast_succ_pos (n + 1)
    simp only [consume, hpos]
    simp
  have hinside := inside_command (n + 1) content padding current
  rw [loop_eq uuid _ hinside (cons_ne_nil byte rest), round_eq, hconsume,
    close_of_open (.inl (Int.natCast_succ_pos n))]
  rfl

theorem loop_header (h : s.Header) (command high low : UInt8) (rest : Bytes)
    : s.loop uuid (command :: high :: low :: 0 :: 0 :: rest)
        = Round.andThen ⟨(body command (256 * high.toNat + low.toNat)).close.fst, [], rest,
          (body command (256 * high.toNat + low.toNat)).close.snd⟩ (loop uuid) := by
  rcases s with ⟨remaining, content, padding, current, pending, finished⟩
  cases h.command
  cases h.running
  cases h.noPending
  have h5 := loop_command uuid 3 content padding current command (high :: low :: 0 :: 0 :: rest)
  have h4 := loop_command uuid 2 content padding command.toNat high (low :: 0 :: 0 :: rest)
  have h3 := loop_command uuid 1 (256 * high.toNat) padding command.toNat low (0 :: 0 :: rest)
  have h2 := loop_command uuid 0 (256 * high.toNat + low.toNat) padding command.toNat 0 (0 :: rest)
  have h1 := loop_eq uuid (0 :: rest)
    (inside_command 0 (256 * high.toNat + low.toNat) 0 command.toNat) (cons_ne_nil _ _)
  exact h5.trans (h4.trans (h3.trans (h2.trans h1)))

theorem close_body {command : UInt8} {n : Nat} (hn : 0 < n)
    : (body command n).close = (body command n, none) := by
  apply close_of_open
  exact .inr (.inl (Int.natCast_pos.mpr hn))

theorem loop_body {command : UInt8} {n : Nat} {content : Bytes} (hn : 0 < n)
    (hle : n ≤ content.length)
    : (body command n).loop uuid content
        = Round.andThen ⟨(body command 0).close.fst, content.take n, content.drop n,
          (body command 0).close.snd⟩ (loop uuid) := by
  have hne : content ≠ [] := by
    rw [← length_pos_iff]
    omega
  have hinside : (body command n).Inside := ⟨rfl, rfl, .inr (.inl (by simpa [body] using hn))⟩
  have hconsume : (body command n).consume content
      = (body command 0, content.take n, content.drop n) := by
    have hmin : min n content.length = n := by omega
    simp [consume, body, hn, hmin]
  rw [loop_eq uuid _ hinside hne, round_eq, hconsume]

theorem loop_continue (s : VisionUnpaddingState) (h : s.Header) (high low : UInt8)
    (content : Bytes) (hlength : content.length = 256 * high.toNat + low.toNat)
    : ∃ s', s'.Header
        ∧ s.loop uuid (0 :: high :: low :: 0 :: 0 :: content) = ⟨s', content, false⟩ := by
  have hclose : (body 0 0).close = (⟨5, 0, 0, 0, [], false⟩, none) := rfl
  refine ⟨⟨5, 0, 0, 0, [], false⟩, ⟨rfl, rfl, rfl, Int.le_refl 0, Int.le_refl 0⟩, ?_⟩
  rw [loop_header uuid h, ← hlength]
  by_cases hempty : content = []
  . rw [hempty, length_nil, hclose]
    rfl
  have hpos : 0 < content.length := length_pos_iff.mpr hempty
  rw [close_body hpos]
  unfold Round.andThen
  rw [loop_body uuid hpos (Nat.le_refl _), hclose, take_length, drop_length]
  simp [Round.andThen, loop_nil]

theorem loop_last (s : VisionUnpaddingState) (h : s.Header)
    (command high low : UInt8) {content : Bytes} (hcommand : command ≠ 0)
    (hle : 256 * high.toNat + low.toNat ≤ content.length)
    : ∃ s', s'.finished = true
        ∧ s.loop uuid (command :: high :: low :: 0 :: 0 :: content)
          = ⟨s', content, command.toNat = visionCommandPaddingDirect⟩ := by
  have hne : (body command 0).currentCommand ≠ visionCommandPaddingContinue := by
    intro hzero
    apply hcommand
    rw [← UInt8.toNat_inj]
    exact hzero
  have hclose : (body command 0).close
      = (⟨visionInitial, visionInitial, visionInitial, command.toNat, [], true⟩,
        some (command.toNat = visionCommandPaddingDirect : Bool)) := by
    have hthrough : (decide ((body command 0).remainingCommand ≤ 0)
        && decide ((body command 0).remainingContent ≤ 0)
        && decide ((body command 0).remainingPadding ≤ 0)) = true := rfl
    unfold close
    rw [if_pos hthrough, if_neg hne]
    rfl
  refine ⟨⟨visionInitial, visionInitial, visionInitial, command.toNat, [], true⟩, rfl, ?_⟩
  rw [loop_header uuid h]
  by_cases hzero : 256 * high.toNat + low.toNat = 0
  . rw [hzero, hclose]
    rfl
  rw [close_body (by omega)]
  unfold Round.andThen
  rw [loop_body uuid (by omega) hle, hclose]
  simp [Round.andThen]

def Counters (s : VisionUnpaddingState) : Prop :=
  (s.remainingContent = visionInitial ∨ 0 ≤ s.remainingContent)
    ∧ (s.remainingPadding = visionInitial ∨ 0 ≤ s.remainingPadding)

section

variable (h : s.Counters)

include h

theorem Counters.setCommandByte {byte : UInt8} : (s.setCommandByte byte).Counters := by
  have hset : 0 ≤ (256 * byte.toNat : Int) := by omega
  have hadd (n : Int) (hn : n = visionInitial ∨ 0 ≤ n)
      : n + byte.toNat = visionInitial ∨ 0 ≤ n + byte.toNat := by
    unfold visionInitial at *
    omega
  unfold VisionUnpaddingState.setCommandByte
  split
  . exact h
  split
  . exact ⟨.inr hset, h.right⟩
  split
  . exact ⟨hadd _ h.left, h.right⟩
  split
  . exact ⟨h.left, .inr hset⟩
  . split
    . exact ⟨h.left, hadd _ h.right⟩
    . exact h

theorem Counters.consume {input : Bytes} : (s.consume input).fst.Counters := by
  unfold VisionUnpaddingState.consume
  split
  next =>
    cases input with
    | nil => exact h
    | cons byte rest => exact h.setCommandByte
  next =>
    split
    next =>
      refine ⟨.inr ?_, h.right⟩
      dsimp only
      omega
    next =>
      split
      next =>
        refine ⟨h.left, .inr ?_⟩
        dsimp only
        omega
      next => exact h

theorem Counters.close : s.close.fst.Counters := by
  unfold VisionUnpaddingState.close
  split
  . split
    . exact h
    . exact ⟨.inl rfl, .inl rfl⟩
  . exact h

theorem Counters.round (input : Bytes) : (s.round input).state.Counters :=
  h.consume.close

end

theorem finished_of_finish (s : VisionUnpaddingState) {input : Bytes} {direct : Bool}
    (h : (s.round input).finish = some direct)
    : (s.round input).state.finished = true := by
  revert h
  rw [round_eq]
  unfold VisionUnpaddingState.close
  split
  . split
    . exact fun h => nomatch h
    . exact fun _ => rfl
  . exact fun h => nomatch h

theorem counters_feedLoop (uuid : Uuid) (fuel : Nat) (s : VisionUnpaddingState) (input : Bytes)
    (h : s.Counters)
    : (s.feedLoop uuid fuel input).state.Counters
        ∧ ((s.feedLoop uuid fuel input).direct = true
          → (s.feedLoop uuid fuel input).state.finished = true) := by
  induction fuel generalizing s input with
  | zero => exact ⟨h, fun h => nomatch h⟩
  | succ fuel ih =>
    have hround (s : VisionUnpaddingState) (input : Bytes) (h : s.Counters)
        : ((s.round input).andThen (feedLoop uuid fuel)).state.Counters
          ∧ (((s.round input).andThen (feedLoop uuid fuel)).direct = true
            → ((s.round input).andThen (feedLoop uuid fuel)).state.finished = true) := by
      unfold Round.andThen
      split
      next direct hfinish =>
        exact ⟨h.round input, fun _ => finished_of_finish s hfinish⟩
      next => exact ih _ _ (h.round input)
    have hquiet (s : VisionUnpaddingState) (out : Bytes) (h : s.Counters)
        : (Fed.mk s out false).state.Counters
          ∧ ((Fed.mk s out false).direct = true → (Fed.mk s out false).state.finished = true) :=
      ⟨h, fun h => nomatch h⟩
    unfold feedLoop
    split
    . exact hquiet s [] h
    split
    . split
      . split
        . exact hround { s with remainingCommand := 5 } _ h
        . exact hquiet { s with finished := true } _ h
      . dsimp only
        split
        . exact hquiet { s with pendingInitial := _ } [] h
        . split
          . exact ih { s with remainingCommand := 5, pendingInitial := [] } _ h
          . exact hquiet { s with finished := true, pendingInitial := [] } _ h
    . exact hround s input h

theorem counters_feed (uuid : Uuid) (s : VisionUnpaddingState) (input : Bytes) (h : s.Counters)
    : (s.feed uuid input).state.Counters
        ∧ ((s.feed uuid input).direct = true → (s.feed uuid input).state.finished = true) := by
  unfold feed
  split
  . exact ⟨h, fun h => nomatch h⟩
  . exact counters_feedLoop uuid _ s input h

def switchedAt (uuid : Uuid) (s : VisionUnpaddingState) (offset : Nat)
    : List Bytes → Option (Nat × Bool)
  | [] => none
  | piece :: pieces =>
    let fed := s.feed uuid piece
    match (range (piece.length + 1)).find?
        (fun n => (s.feed uuid (piece.take n)).state.finished) with
    | some n => some (offset + n, fed.direct)
    | none => fed.state.switchedAt uuid (offset + piece.length) pieces

theorem finished_feed_append (uuid : Uuid) (s : VisionUnpaddingState) (x y : Bytes) (h : s.Wf)
    (hfinished : (s.feed uuid x).state.finished = true)
    : (s.feed uuid (x ++ y)).state = (s.feed uuid x).state
        ∧ (s.feed uuid (x ++ y)).direct = (s.feed uuid x).direct := by
  rw [feed_append uuid s h]
  unfold Fed.next
  rw [feed_of_finished uuid _ y hfinished]
  exact ⟨rfl, Bool.or_false _⟩

theorem find?_range_add (p : Nat → Bool) (m n : Nat) (h : (range m).find? p = none)
    : (range (m + n)).find? p
        = ((range n).find? (fun k => p (m + k))).map (m + ·) := by
  rw [range_add, find?_append, h, Option.none_or, find?_map]
  rfl

theorem switchedAt_eq (uuid : Uuid) (s : VisionUnpaddingState) (offset : Nat) (pieces : List Bytes)
    (h : s.Wf) (hcounters : s.Counters) (hrunning : s.finished = false)
    : s.switchedAt uuid offset pieces
        = ((range (pieces.flatten.length + 1)).find?
            (fun n => (s.feed uuid (pieces.flatten.take n)).state.finished)).map
          (fun n => (offset + n, (s.feed uuid pieces.flatten).direct)) := by
  induction pieces generalizing s offset with
  | nil => simp [switchedAt, feed_nil, hrunning]
  | cons piece pieces ih =>
    have hsame (n : Nat) (hn : n ∈ range (piece.length + 1))
        : (s.feed uuid ((piece ++ pieces.flatten).take n)).state.finished
          = (s.feed uuid (piece.take n)).state.finished := by
      rw [take_append_of_le_length (by simpa [Nat.lt_succ_iff] using hn)]
    have hfirst := find?_congr hsame
    rw [flatten_cons]
    unfold switchedAt
    split
    next n hn =>
      have hfinished := find?_some hn
      have hwhole := (finished_feed_append uuid s _ (piece.drop n) h hfinished).left
      rw [take_append_drop] at hwhole
      rw [← hwhole] at hfinished
      rw [length_append, Nat.add_right_comm, range_add, find?_append, hfirst, hn,
        (finished_feed_append uuid s piece _ h hfinished).right]
      rfl
    next hnone =>
      have hrunning' : (s.feed uuid piece).state.finished = false := by
        have hlast := find?_eq_none.mp hnone piece.length (by simp)
        simpa using hlast
      have hbefore : (range piece.length).find?
          (fun n => (s.feed uuid ((piece ++ pieces.flatten).take n)).state.finished) = none := by
        rw [← hfirst, range_succ, find?_append, Option.or_eq_none_iff] at hnone
        exact hnone.left
      rcases counters_feed uuid s piece hcounters with ⟨hcounters', hdirect⟩
      have hquiet : (s.feed uuid piece).direct = false := by
        rw [← Bool.not_eq_true]
        intro h
        rw [hdirect h] at hrunning'
        cases hrunning'
      rw [ih _ _ (wf_feed uuid piece h) hcounters' hrunning', length_append, Nat.add_assoc,
        find?_range_add _ _ _ hbefore, Option.map_map, feed_append uuid s h]
      refine congrArg₂ Option.map (funext fun n => ?_) (congrArg (find? · _)
        (funext fun n => ?_))
      . dsimp only [Fed.next, Function.comp]
        rw [hquiet, Bool.false_or, Nat.add_assoc]
      . rw [take_length_add_append, feed_append uuid s h]
        rfl

theorem counters_new : new.Counters := ⟨.inl rfl, .inl rfl⟩

theorem feedAll_of_flatten_eq (uuid : Uuid) (xs ys : List Bytes) (h : xs.flatten = ys.flatten)
    : new.feedAll uuid xs = new.feedAll uuid ys
      ∧ new.switchedAt uuid 0 xs = new.switchedAt uuid 0 ys
      ∧ (new.feedAll uuid xs).fst.Counters
      ∧ ∀ input, ((new.feedAll uuid xs).fst.round input).state.Counters := by
  have hcounters : (new.feedAll uuid xs).fst.Counters := by
    rw [feedAll_eq uuid new xs wf_new]
    exact (counters_feed uuid new _ counters_new).left
  refine ⟨?_, ?_, hcounters, hcounters.round⟩
  . rw [feedAll_eq uuid new xs wf_new, feedAll_eq uuid new ys wf_new, h]
  . rw [switchedAt_eq uuid new 0 xs wf_new counters_new rfl,
      switchedAt_eq uuid new 0 ys wf_new counters_new rfl, h]

theorem feedAll_of_flatten_eq_twoCuts
    : ∃ uuid : Uuid, ∃ xs ys : List Bytes,
        xs ≠ ys
        ∧ new.switchedAt uuid 0 xs = some (23, true)
        ∧ new.feedAll uuid xs = new.feedAll uuid ys
        ∧ new.switchedAt uuid 0 xs = new.switchedAt uuid 0 ys
        ∧ (new.feedAll uuid xs).fst.Counters := by
  have h := feedAll_of_flatten_eq ⟨replicate 16 7, rfl⟩
    [replicate 16 7 ++ [2, 0, 1], [0, 1, 5, 9, 4]]
    [replicate 16 7, [2, 0, 1, 0], [1, 5], [9, 4]] rfl
  exact ⟨_, _, _, by decide, by decide +kernel, h.left, h.right.left, h.right.right.left⟩

end VisionUnpaddingState

end Blackwire.Vision
