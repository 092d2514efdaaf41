import Mathlib.Data.List.Infix
import Blackwire.Lib.Outbox

/-!
This module contains readers that take a stream of frames apart: what the stream below delivers is
kept until it holds a frame, and what the frame holds is then handed out piece by piece. The stream
below is a script of its answers, and it is not ready where the script ends.
-/

open List

abbrev Script (α ε : Type) := List (Poll (Except ε (List α)))

namespace Script

variable {α ε : Type}

def bytes : Script α ε → List α
  | [] => []
  | .ready (.ok segment) :: script => segment ++ bytes script
  | .ready (.error _) :: script => bytes script
  | .pending :: script => bytes script

-- A segment without bytes would be the end of the stream.
def Flowing (script : Script α ε) : Prop :=
  .ready (.ok []) ∉ script

instance [DecidableEq α] [DecidableEq ε] (script : Script α ε) : Decidable script.Flowing :=
  inferInstanceAs (Decidable (¬_))

end Script

/--
What a reader does with its state `σ`: what it can hand out at once, how it hands it out, how it
takes what the stream below delivers, and how it looks for a frame. A frame that is not complete yet
is `none`.
-/
structure Deframer (σ α ε : Type) where
  avail : σ → List α
  consume : σ → Nat → σ
  extend : σ → List α → σ
  decode : σ → σ × Option (Except ε Unit)

namespace Deframer

variable {σ α ε : Type}

variable (d : Deframer σ α ε)

def deliver (cap : Nat) (s : σ) : σ × Poll (Except ε (List α)) :=
  let n := min (d.avail s).length cap
  (d.consume s n, .ready (.ok ((d.avail s).take n)))

-- A frame that holds nothing is the end of the stream.
def decoded (cap : Nat) (s : σ) : σ × Poll (Except ε (List α)) :=
  if (d.avail s).isEmpty then
    (s, .ready (.ok []))
  else
    d.deliver cap s

def pollRead (d : Deframer σ α ε) (cap : Nat) (s : σ) (script : Script α ε)
    : σ × Poll (Except ε (List α)) × Script α ε :=
  if !(d.avail s).isEmpty then
    ((d.deliver cap s).fst, (d.deliver cap s).snd, script)
  else
    match d.decode s with
    | (s, some (.ok ())) => ((d.decoded cap s).fst, (d.decoded cap s).snd, script)
    | (s, some (.error e)) => (s, .ready (.error e), script)
    | (s, none) =>
      match script with
      | [] => (s, .pending, [])
      | .pending :: script => (s, .pending, script)
      | .ready (.error e) :: script => (s, .ready (.error e), script)
      | .ready (.ok segment) :: script =>
        if segment.isEmpty then
          (s, .ready (.ok []), script)
        else
          match d.decode (d.extend s segment) with
          | (s, some (.ok ())) => ((d.decoded cap s).fst, (d.decoded cap s).snd, script)
          | (s, some (.error e)) => (s, .ready (.error e), script)
          | (s, none) => d.pollRead cap s script

def run (d : Deframer σ α ε) (caps : List Nat) (s : σ) (script : Script α ε)
    : List (Poll (Except ε (List α))) :=
  match caps with
  | [] => []
  | cap :: caps =>
    let (s, result, script) := d.pollRead cap s script
    result :: d.run caps s script

def readStep (t : σ × Script α ε) (cap : Nat) : σ × Script α ε :=
  ((d.pollRead cap t.fst t.snd).fst, (d.pollRead cap t.fst t.snd).snd.snd)

end Deframer

-- What a caller sees of some bytes, where `none` is the end of the stream.
def marks {α : Type} (bytes : List α) : List (Option α) :=
  if bytes.isEmpty then [none] else bytes.map some

theorem marks_of_ne_nil {α : Type} {bytes : List α} (h : bytes ≠ [])
    : marks bytes = bytes.map some := by
  unfold marks
  rw [if_neg (by simpa using h)]

theorem marks_ne_nil {α : Type} {bytes : List α} : marks bytes ≠ [] := by
  unfold marks
  split
  next => exact cons_ne_nil none []
  next h => simpa using h

def shown {α ε : Type} : Poll (Except ε (List α)) → List (Option α)
  | .ready (.ok bytes) => marks bytes
  | _ => []

def given {α ε : Type} : Poll (Except ε (List α)) → List (List α)
  | .ready (.ok bytes) => [bytes]
  | _ => []

theorem Deframer.run_avail {σ α ε : Type} (d : Deframer σ α ε)
    (hconsume : ∀ s n, d.avail (d.consume s n) = (d.avail s).drop n)
    {caps : List Nat} (hcaps : ∀ cap ∈ caps, 0 < cap) (s : σ) {script : Script α ε}
    : ((d.run caps s script).flatMap shown <+: (d.avail s).map some
          ∨ (d.avail s).map some <+: (d.run caps s script).flatMap shown)
        ∧ ((d.avail s).length ≤ caps.length →
          (d.avail s).map some <+: (d.run caps s script).flatMap shown) := by
  induction caps generalizing s with
  | nil =>
    refine ⟨.inl nil_prefix, fun h => ?_⟩
    rw [eq_nil_of_length_eq_zero (Nat.le_zero.mp h)]
    exact nil_prefix
  | cons cap caps ih =>
    by_cases hempty : d.avail s = []
    . simp [hempty]
    have hcap := hcaps cap mem_cons_self
    have hpoll : d.pollRead cap s script = (d.consume s (min (d.avail s).length cap),
        .ready (.ok ((d.avail s).take (min (d.avail s).length cap))), script) := by
      unfold pollRead
      rw [if_pos (by simpa using hempty)]
      rfl
    specialize ih (fun c hc => hcaps c (mem_cons_of_mem cap hc))
      (d.consume s (min (d.avail s).length cap))
    rw [run, hpoll, flatMap_cons, shown, marks_of_ne_nil (by simp [hempty]; omega)]
    generalize hn : min (d.avail s).length cap = n at ih ⊢
    rw [hconsume] at ih
    nth_rewrite 2 3 6 [← take_append_drop n (d.avail s)]
    simp only [map_append, prefix_append_right_inj]
    refine ⟨ih.left, fun h => ih.right ?_⟩
    rw [length_drop]
    rw [length_cons] at h
    omega

-- What a reader of a writer's frames is to see.
def Framer.Session.shows {τ ρ α : Type} (s : Framer.Session τ ρ α) : List (Option α) :=
  s.accepted.flatMap fun chunk => marks chunk.snd

structure Frame (α : Type) where
  wire : List α
  content : List α

namespace Frame

variable {α : Type}

def wires (frames : List (Frame α)) : List α :=
  frames.flatMap wire

def contents (frames : List (Frame α)) : List (Option α) :=
  frames.flatMap fun frame => marks frame.content

theorem eq_nil_of_contents {frames : List (Frame α)} (h : contents frames = []) : frames = [] := by
  cases frames with
  | nil => rfl
  | cons frame frames =>
    rw [contents, flatMap_cons, append_eq_nil_iff] at h
    exact absurd h.left marks_ne_nil

end Frame

structure Deframer.Follows {σ α ε : Type} (d : Deframer σ α ε) (raw : σ → List α)
    (Synced : σ → List (Frame α) → Prop) : Prop where
  consume (s : σ) (frames : List (Frame α)) (n : Nat) (h : Synced s frames)
    : Synced (d.consume s n) frames ∧ raw (d.consume s n) = raw s
      ∧ d.avail (d.consume s n) = (d.avail s).drop n
  extend (s : σ) (frames : List (Frame α)) (segment : List α) (h : Synced s frames)
    : Synced (d.extend s segment) frames ∧ raw (d.extend s segment) = raw s ++ segment
      ∧ d.avail (d.extend s segment) = d.avail s
  waits (s : σ) (frames : List (Frame α)) (h : Synced s frames) (havail : d.avail s = [])
      (hraw : raw s <+: Frame.wires frames)
      (hshort : ∀ frame ∈ frames.head?, (raw s).length < frame.wire.length)
    : ∃ s', d.decode s = (s', none) ∧ Synced s' frames ∧ raw s' = raw s ∧ d.avail s' = []
  decodes (s : σ) (frame : Frame α) (frames : List (Frame α)) (more : List α)
      (h : Synced s (frame :: frames)) (havail : d.avail s = []) (hraw : raw s = frame.wire ++ more)
    : ∃ s', d.decode s = (s', some (.ok ())) ∧ Synced s' frames ∧ raw s' = more
      ∧ d.avail s' = frame.content

namespace Deframer

variable {σ α ε : Type} {d : Deframer σ α ε} {raw : σ → List α} {Synced : σ → List (Frame α) → Prop}

def todo (d : Deframer σ α ε) (s : σ) (frames : List (Frame α)) : List (Option α) :=
  (d.avail s).map some ++ Frame.contents frames

inductive Whole (frames : List (Frame α)) : Poll (Except ε (List α)) → List (Frame α) → Prop where
  | nothing (result : Poll (Except ε (List α))) (h : shown result = [])
    : Whole frames result frames
  | frame (frame : Frame α) (rest : List (Frame α)) (h : frames = frame :: rest)
    : Whole frames (.ready (.ok frame.content)) rest

structure Ready (raw : σ → List α) (Synced : σ → List (Frame α) → Prop) (s : σ)
    (script : Script α ε) (frames : List (Frame α)) : Prop where
  synced : Synced s frames
  flowing : script.Flowing
  wire : raw s ++ script.bytes <+: Frame.wires frames

structure Step (d : Deframer σ α ε) (raw : σ → List α) (Synced : σ → List (Frame α) → Prop)
    (cap : Nat) (s : σ) (script : Script α ε) (frames : List (Frame α)) (s' : σ)
    (result : Poll (Except ε (List α))) (script' : Script α ε) (frames' : List (Frame α))
    : Prop where
  synced : Synced s' frames'
  wire : ∃ done, Frame.wires frames = done ++ Frame.wires frames'
    ∧ raw s ++ script.bytes = done ++ (raw s' ++ script'.bytes)
  suffix : script' <:+ script
  todo : shown result ++ d.todo s' frames' = d.todo s frames
  errors : ∀ e, result = .ready (.error e) → .ready (.error e) ∈ script
  moves : shown result ≠ [] ∨ script'.length < script.length
    ∨ (script = [] ∧ (Frame.wires frames = raw s → d.todo s frames = []))
  whole : d.avail s = [] → (∀ frame ∈ frames, frame.content.length ≤ cap) →
    d.avail s' = [] ∧ Whole frames result frames'

section

variable {s s₁ s' : σ} {script script' : Script α ε} {frames frames' : List (Frame α)}
  {result : Poll (Except ε (List α))}

theorem Step.congr (h : Step d raw Synced cap s₁ script frames s' result script' frames')
    (hraw : raw s₁ = raw s) (havail : d.avail s₁ = d.avail s)
    : Step d raw Synced cap s script frames s' result script' frames' where
  synced := h.synced
  wire := by
    rw [← hraw]
    exact h.wire
  suffix := h.suffix
  todo := by
    rw [h.todo]
    simp only [Deframer.todo, havail]
  errors := h.errors
  moves := by
    have hmoves := h.moves
    simp only [Deframer.todo, havail, hraw] at hmoves
    exact hmoves
  whole := by
    rw [← havail]
    exact h.whole

theorem Step.of_segment {segment : List α}
    (h : Step d raw Synced cap s₁ script frames s' result script' frames')
    (hraw : raw s₁ = raw s ++ segment) (havail : d.avail s₁ = d.avail s)
    : Step d raw Synced cap s (.ready (.ok segment) :: script) frames s' result script'
        frames' where
  synced := h.synced
  wire := by
    simp only [Script.bytes]
    rw [← append_assoc, ← hraw]
    exact h.wire
  suffix := h.suffix.trans (suffix_cons _ _)
  todo := by
    rw [h.todo]
    simp only [Deframer.todo, havail]
  errors e he := mem_cons_of_mem _ (h.errors e he)
  moves := by
    have hle := h.suffix.length_le
    right
    left
    simp only [length_cons]
    omega
  whole := by
    rw [← havail]
    exact h.whole

theorem Step.of_answer {answer : Poll (Except ε (List α))} (hsynced : Synced s frames)
    (hanswer : answer = .pending ∨ ∃ e, answer = .ready (.error e))
    : Step d raw Synced cap s (answer :: script) frames s answer script frames where
  synced := hsynced
  wire := by
    refine ⟨[], rfl, ?_⟩
    rcases hanswer with rfl | ⟨e, rfl⟩
    . rfl
    . rfl
  suffix := suffix_cons _ _
  todo := by
    rcases hanswer with rfl | ⟨e, rfl⟩
    . rfl
    . rfl
  errors e he := by
    rw [he]
    exact mem_cons_self
  moves := by
    right
    left
    simp
  whole havail _ := by
    refine ⟨havail, .nothing answer ?_⟩
    rcases hanswer with rfl | ⟨e, rfl⟩
    . rfl
    . rfl

theorem Step.of_end (hsynced : Synced s₁ frames)
    (hraw : raw s₁ = raw s) (havail : d.avail s = []) (havail₁ : d.avail s₁ = [])
    (hshort : ∀ frame ∈ frames.head?, (raw s).length < frame.wire.length)
    : Step d raw Synced cap s ([] : Script α ε) frames s₁ .pending [] frames where
  synced := hsynced
  wire := ⟨[], rfl, by rw [hraw]; rfl⟩
  suffix := suffix_rfl
  todo := by simp [shown, Deframer.todo, havail, havail₁]
  errors e he := by cases he
  moves := by
    refine .inr (.inr ⟨rfl, ?_⟩)
    intro hwhole
    cases frames with
    | nil => simp [Deframer.todo, havail, Frame.contents]
    | cons frame frames =>
      have hlt := hshort frame rfl
      have hlength := congrArg List.length hwhole
      simp only [Frame.wires, flatMap_cons, length_append] at hlength
      omega
  whole _ _ := ⟨havail₁, .nothing .pending rfl⟩

section

variable (h : Step d raw Synced cap s script frames s' result script' frames')

include h

theorem Step.ready (hready : Ready raw Synced s script frames)
    : Ready raw Synced s' script' frames' where
  synced := h.synced
  flowing hmem := hready.flowing (h.suffix.subset hmem)
  wire := by
    rcases h.wire with ⟨done, hframes, hraw⟩
    have hwire := hready.wire
    rw [hframes, hraw] at hwire
    exact (prefix_append_right_inj done).mp hwire

variable (hwire : raw s ++ script.bytes = Frame.wires frames)

include hwire

theorem Step.whole_next : raw s' ++ script'.bytes = Frame.wires frames' := by
  rcases h.wire with ⟨done, hframes, hraw⟩
  rw [hframes, hraw] at hwire
  exact append_cancel_left hwire

theorem Step.lt
    : (d.todo s' frames').length + script'.length < (d.todo s frames).length + script.length
      ∨ d.todo s frames = [] := by
  have htodo := congrArg List.length h.todo
  have hscript := h.suffix.length_le
  rw [length_append] at htodo
  rcases h.moves with hshown | hlt | ⟨hnil, hdone⟩
  . have hpos := length_pos_iff.mpr hshown
    omega
  . omega
  right
  apply hdone
  rw [← hwire, hnil]
  exact append_nil _

theorem Step.fewer (havail : d.avail s = [])
    (hfit : ∀ frame ∈ frames, frame.content.length ≤ cap)
    : frames'.length + script'.length < frames.length + script.length ∨ frames = [] := by
  have hscript := h.suffix.length_le
  rcases h.whole havail hfit with ⟨_, hwhole⟩
  cases hwhole with
  | frame frame rest hframes =>
    rw [hframes, length_cons]
    omega
  | nothing _ hnone =>
    rcases h.moves with hshown | hlt | ⟨hnil, hdone⟩
    . exact absurd hnone hshown
    . omega
    have htodo : d.todo s frames = [] := by
      apply hdone
      rw [← hwire, hnil]
      exact append_nil _
    right
    apply Frame.eq_nil_of_contents
    rw [Deframer.todo, append_eq_nil_iff] at htodo
    exact htodo.right

end

end

theorem given_of_shown (h : shown result = [])
    : given result = [] := by
  match result with
  | .pending => rfl
  | .ready (.error e) => rfl
  | .ready (.ok bytes) => exact absurd h marks_ne_nil

theorem Whole.contents (h : Whole frames result frames')
    : frames.map Frame.content = given result ++ frames'.map Frame.content := by
  cases h with
  | nothing _ hnone =>
    rw [given_of_shown hnone]
    rfl
  | frame frame rest hframes =>
    rw [hframes]
    rfl

theorem Whole.subset (h : Whole frames result frames')
    : frames' ⊆ frames := by
  cases h with
  | nothing => exact List.Subset.refl frames
  | frame frame rest hframes =>
    rw [hframes]
    exact subset_cons_self frame frames'

theorem shown_deliver (hcap : 0 < cap) (havail : d.avail s ≠ [])
    : shown (d.deliver cap s).snd = ((d.avail s).take (min (d.avail s).length cap)).map some := by
  have hpos := length_pos_iff.mpr havail
  apply marks_of_ne_nil
  rw [← length_pos_iff, length_take]
  omega

theorem shown_deliver_ne_nil (hcap : 0 < cap) (havail : d.avail s ≠ [])
    : shown (d.deliver cap s).snd ≠ [] := by
  have hpos := length_pos_iff.mpr havail
  rw [shown_deliver hcap havail, ← length_pos_iff, length_map, length_take]
  omega

namespace Follows

variable (h : d.Follows raw Synced)

include h

theorem step_deliver (script : Script α ε) (hcap : 0 < cap) (hsynced : Synced s frames)
    (havail : d.avail s ≠ [])
    : Step d raw Synced cap s script frames (d.deliver cap s).fst (d.deliver cap s).snd script
        frames := by
  rcases h.consume s frames (min (d.avail s).length cap) hsynced with ⟨hs', hraw, hdrop⟩
  refine ⟨hs', ⟨[], rfl, ?_⟩, suffix_rfl, ?_, ?_, .inl ?_, fun hnil => absurd hnil havail⟩
  . simp only [deliver, hraw]
    rfl
  . rw [shown_deliver hcap havail]
    simp only [Deframer.todo, deliver, hdrop]
    rw [← append_assoc, ← map_append, take_append_drop]
  . intro e he
    cases he
  . exact shown_deliver_ne_nil hcap havail

theorem decode_cases (hsynced : Synced s frames) (havail : d.avail s = [])
    (hraw : raw s <+: Frame.wires frames)
    : (∃ s', d.decode s = (s', none) ∧ Synced s' frames ∧ raw s' = raw s ∧ d.avail s' = []
        ∧ ∀ frame ∈ frames.head?, (raw s).length < frame.wire.length)
      ∨ (∃ frame rest s', frames = frame :: rest ∧ d.decode s = (s', some (.ok ()))
        ∧ Synced s' rest ∧ raw s = frame.wire ++ raw s' ∧ d.avail s' = frame.content) := by
  by_cases hshort : ∀ frame ∈ frames.head?, (raw s).length < frame.wire.length
  . left
    rcases h.waits s frames hsynced havail hraw hshort with ⟨s', hdecode, hs', hraw', havail'⟩
    exact ⟨s', hdecode, hs', hraw', havail', hshort⟩
  . right
    push Not at hshort
    rcases hshort with ⟨frame, hhead, hlong⟩
    cases frames with
    | nil => cases hhead
    | cons first rest =>
      cases hhead
      have hwire : frame.wire <+: Frame.wires (frame :: rest) := by
        simp [Frame.wires]
      rcases prefix_of_prefix_length_le hwire hraw hlong with ⟨more, hmore⟩
      rcases h.decodes s frame rest more hsynced havail hmore.symm with
        ⟨s', hdecode, hs', hraw', havail'⟩
      exact ⟨frame, rest, s', rfl, hdecode, hs', by rw [hraw', hmore], havail'⟩

theorem step_decoded (script : Script α ε) (hcap : 0 < cap) {s₁ : σ} {frame : Frame α}
    (havail : d.avail s = [])
    (hsynced : Synced s₁ frames) (hraw : raw s = frame.wire ++ raw s₁)
    (hcontent : d.avail s₁ = frame.content)
    : Step d raw Synced cap s script (frame :: frames) (d.decoded cap s₁).fst (d.decoded cap s₁).snd
        script frames := by
  have hwires : Frame.wires (frame :: frames) = frame.wire ++ Frame.wires frames := by
    simp [Frame.wires]
  have htodo : d.todo s (frame :: frames) = marks frame.content ++ Frame.contents frames := by
    simp [Deframer.todo, havail, Frame.contents]
  unfold decoded
  split
  next hempty =>
    have hnil : frame.content = [] := by
      rw [← hcontent]
      simpa using hempty
    refine ⟨hsynced, ⟨frame.wire, hwires, by rw [hraw, append_assoc]⟩, suffix_rfl, ?_,
      ?_, .inl ?_, ?_⟩
    . rw [htodo, hnil]
      simp [Deframer.todo, hcontent, hnil, shown]
    . intro e he
      cases he
    . simp [shown, marks]
    . intro _ _
      refine ⟨by rw [hcontent, hnil], ?_⟩
      have hwhole := Whole.frame (ε := ε) frame frames rfl
      rw [hnil] at hwhole
      exact hwhole
  next hne =>
    have hne : d.avail s₁ ≠ [] := by simpa using hne
    have hstep := h.step_deliver script hcap hsynced hne
    rcases h.consume s₁ frames (min (d.avail s₁).length cap) hsynced with ⟨_, hraw', havail'⟩
    refine ⟨hstep.synced, ⟨frame.wire, hwires, ?_⟩, suffix_rfl, ?_, ?_, .inl ?_, ?_⟩
    . rw [hraw, append_assoc]
      simp only [deliver, hraw']
    . rw [hstep.todo, htodo, ← hcontent, marks_of_ne_nil hne]
      rfl
    . intro e he
      cases he
    . exact shown_deliver_ne_nil hcap hne
    . intro _ hfit
      have hlen : (d.avail s₁).length ≤ cap := by
        rw [hcontent]
        exact hfit frame mem_cons_self
      refine ⟨?_, ?_⟩
      . dsimp only [deliver]
        rw [havail', Nat.min_eq_left hlen, drop_length]
      . dsimp only [deliver]
        rw [Nat.min_eq_left hlen, take_length, hcontent]
        exact .frame frame frames rfl

theorem step_pollRead {s : σ} {script : Script α ε} (hcap : 0 < cap)
    (hready : Ready raw Synced s script frames)
    : ∃ frames', Step d raw Synced cap s script frames (d.pollRead cap s script).fst
        (d.pollRead cap s script).snd.fst (d.pollRead cap s script).snd.snd frames' := by
  rcases hready with ⟨hsynced, hflowing, hwire⟩
  unfold pollRead
  split
  next havail => exact ⟨frames, h.step_deliver script hcap hsynced (by simpa using havail)⟩
  next havail =>
    have havail : d.avail s = [] := by simpa using havail
    have hraw : raw s <+: Frame.wires frames := (prefix_append _ _).trans hwire
    rcases h.decode_cases hsynced havail hraw with
      ⟨s₁, hdecode, hs₁, hraw₁, havail₁, hshort⟩
        | ⟨frame, rest, s₁, rfl, hdecode, hs₁, hraw₁, hcontent⟩
    . rw [hdecode]
      have hsame : d.avail s₁ = d.avail s := by rw [havail₁, havail]
      match script with
      | [] => exact ⟨frames, Step.of_end hs₁ hraw₁ havail havail₁ hshort⟩
      | .pending :: script =>
        exact ⟨frames, (Step.of_answer hs₁ (.inl rfl)).congr hraw₁ hsame⟩
      | .ready (.error e) :: script =>
        exact ⟨frames, (Step.of_answer hs₁ (.inr ⟨e, rfl⟩)).congr hraw₁ hsame⟩
      | .ready (.ok segment) :: script =>
        rcases h.extend s₁ frames segment hs₁ with ⟨hs₂, hraw₂, havail₂⟩
        rw [havail₁] at havail₂
        have hraw₂ : raw (d.extend s₁ segment) = raw s ++ segment := by rw [hraw₂, hraw₁]
        have hsame₂ : d.avail (d.extend s₁ segment) = d.avail s := by rw [havail₂, havail]
        have hwire₂ : raw (d.extend s₁ segment) ++ Script.bytes script <+: Frame.wires frames := by
          rw [hraw₂, append_assoc]
          exact hwire
        dsimp only
        split
        next hempty =>
          have hnil : segment = [] := by simpa using hempty
          rw [hnil] at hflowing
          exact absurd mem_cons_self hflowing
        next =>
          rcases h.decode_cases hs₂ havail₂ ((prefix_append _ _).trans hwire₂) with
            ⟨s₃, hdecode, hs₃, hraw₃, havail₃, _⟩
              | ⟨frame, rest, s₃, rfl, hdecode, hs₃, hraw₃, hcontent⟩
          . rw [hdecode]
            rw [← hraw₃] at hwire₂
            rcases step_pollRead hcap
              ⟨hs₃, fun hmem => hflowing (mem_cons_of_mem _ hmem), hwire₂⟩ with ⟨frames', hstep⟩
            refine ⟨frames', hstep.of_segment ?_ ?_⟩
            . rw [hraw₃, hraw₂]
            . rw [havail₃, havail]
          . rw [hdecode]
            have hstep := h.step_decoded script hcap havail₂ hs₃ hraw₃ hcontent
            exact ⟨rest, hstep.of_segment hraw₂ hsame₂⟩
    . rw [hdecode]
      exact ⟨rest, h.step_decoded script hcap havail hs₁ hraw₁ hcontent⟩

theorem ready_of_reach (hready : Ready raw Synced s script frames) {t : σ × Script α ε}
    (ht : Machine.Reach d.readStep (fun _ cap => 0 < cap) (s, script) t)
    : ∃ frames', Ready raw Synced t.fst t.snd frames' := by
  apply ht.invariant (fun t => ∃ frames', Ready raw Synced t.fst t.snd frames') _ _
    ⟨frames, hready⟩
  rintro t cap ⟨frames, hready⟩ hcap
  rcases h.step_pollRead hcap hready with ⟨frames', hstep⟩
  exact ⟨frames', hstep.ready hready⟩

section

variable {caps : List Nat} (hcaps : ∀ cap ∈ caps, 0 < cap)
include hcaps

theorem run_prefix (hready : Ready raw Synced s script frames)
    : (d.run caps s script).flatMap shown <+: d.todo s frames := by
  induction caps generalizing s script frames with
  | nil => apply nil_prefix
  | cons cap caps ih =>
    rw [forall_mem_cons] at hcaps
    rcases h.step_pollRead hcaps.left hready with ⟨frames', hstep⟩
    rw [← hstep.todo]
    exact (prefix_append_right_inj _).mpr (ih hcaps.right (hstep.ready hready))

theorem run_errors (hready : Ready raw Synced s script frames) (e : ε)
    (he : .ready (.error e) ∈ d.run caps s script)
    : .ready (.error e) ∈ script := by
  induction caps generalizing s script frames with
  | nil => cases he
  | cons cap caps ih =>
    rw [forall_mem_cons] at hcaps
    rcases h.step_pollRead hcaps.left hready with ⟨frames', hstep⟩
    rcases mem_cons.mp he with hfirst | hlater
    . exact hstep.errors e hfirst.symm
    . apply hstep.suffix.subset
      exact ih hcaps.right (hstep.ready hready) hlater

theorem run_whole (hready : Ready raw Synced s script frames)
    (hwire : raw s ++ script.bytes = Frame.wires frames)
    (hlong : (d.todo s frames).length + script.length ≤ caps.length)
    : (d.run caps s script).flatMap shown = d.todo s frames := by
  induction caps generalizing s script frames with
  | nil =>
    rw [length_nil] at hlong
    exact (length_eq_zero_iff.mp (by omega)).symm
  | cons cap caps ih =>
    have hpre := h.run_prefix hcaps hready
    rw [forall_mem_cons] at hcaps
    rcases h.step_pollRead hcaps.left hready with ⟨frames', hstep⟩
    rcases hstep.lt hwire with hlt | hdone
    . rw [← hstep.todo]
      rw [length_cons] at hlong
      rw [← ih hcaps.right (hstep.ready hready) (hstep.whole_next hwire) (by omega)]
      rfl
    . rw [hdone] at hpre ⊢
      exact prefix_nil.mp hpre

theorem run_frames_isPrefix (hfit : ∀ cap ∈ caps, ∀ frame ∈ frames, frame.content.length ≤ cap)
    (hready : Ready raw Synced s script frames) (havail : d.avail s = [])
    : (d.run caps s script).flatMap given <+: frames.map Frame.content := by
  induction caps generalizing s script frames with
  | nil => apply nil_prefix
  | cons cap caps ih =>
    rw [forall_mem_cons] at hcaps hfit
    rcases h.step_pollRead hcaps.left hready with ⟨frames', hstep⟩
    rcases hstep.whole havail hfit.left with ⟨havail', hwhole⟩
    have hrest := ih hcaps.right
      (fun cap hcap frame hframe => hfit.right cap hcap frame (hwhole.subset hframe))
      (hstep.ready hready) havail'
    rw [hwhole.contents, run, flatMap_cons]
    exact (prefix_append_right_inj _).mpr hrest

theorem run_frames_whole (hfit : ∀ cap ∈ caps, ∀ frame ∈ frames, frame.content.length ≤ cap)
    (hready : Ready raw Synced s script frames) (havail : d.avail s = [])
    (hwire : raw s ++ script.bytes = Frame.wires frames)
    (hlong : frames.length + script.length ≤ caps.length)
    : (d.run caps s script).flatMap given = frames.map Frame.content := by
  induction caps generalizing s script frames with
  | nil =>
    rw [length_nil] at hlong
    rw [length_eq_zero_iff.mp (show frames.length = 0 by omega)]
    rfl
  | cons cap caps ih =>
    have hpre := h.run_frames_isPrefix hcaps hfit hready havail
    rw [forall_mem_cons] at hcaps hfit
    rcases h.step_pollRead hcaps.left hready with ⟨frames', hstep⟩
    rcases hstep.whole havail hfit.left with ⟨havail', hwhole⟩
    rcases hstep.fewer hwire havail hfit.left with hlt | hnil
    . rw [length_cons] at hlong
      have hrest := ih hcaps.right
        (fun cap hcap frame hframe => hfit.right cap hcap frame (hwhole.subset hframe))
        (hstep.ready hready) havail' (hstep.whole_next hwire) (by omega)
      rw [hwhole.contents, run, flatMap_cons, hrest]
    . rw [hnil] at hpre ⊢
      exact prefix_nil.mp hpre

end

theorem round_trip {τ ρ : Type} {f : Framer τ ρ α ε} {start : τ} {w : Framer.Session τ ρ α}
    {chunks : List (ρ × List α)} (hw : Framer.Session.Framed f start w chunks)
    (hframes : (f.framed start chunks).snd.flatten = Frame.wires frames)
    (hsynced : Synced s frames) (hraw : raw s = []) (hflowing : script.Flowing)
    (hscript : script.bytes <+: w.out.received) {caps : List Nat} (hcaps : ∀ cap ∈ caps, 0 < cap)
    : (d.run caps s script).flatMap shown <+: d.todo s frames
      ∧ (∀ e, .ready (.error e) ∈ d.run caps s script → .ready (.error e) ∈ script)
      ∧ (w.out.queue = [] → script.bytes = w.out.received →
        (d.todo s frames).length + script.length ≤ caps.length →
          (d.run caps s script).flatMap shown = d.todo s frames) := by
  have hsent := hw.frames
  rw [hframes] at hsent
  have hready : Ready raw Synced s script frames := by
    refine ⟨hsynced, hflowing, ?_⟩
    rw [hraw, ← hsent]
    exact hscript.trans (prefix_append _ _)
  refine ⟨h.run_prefix hcaps hready, h.run_errors hcaps hready, ?_⟩
  intro hqueue hall hlong
  apply h.run_whole hcaps hready _ hlong
  rw [hraw, ← hsent, hqueue, append_nil, ← hall]
  rfl

end Follows

end Deframer

section

variable {α ε : Type}

-- What a caller has before the first error or the end of the stream.
def beforeStop : List (Poll (Except ε (List α))) → List α
  | [] => []
  | .pending :: results => beforeStop results
  | .ready (.error _) :: _ => []
  | .ready (.ok bytes) :: results => if bytes.isEmpty then [] else bytes ++ beforeStop results

def SilentAfterError : List (Poll (Except ε (List α))) → Prop
  | [] => True
  | .ready (.error _) :: results => ∀ bytes, .ready (.ok bytes) ∈ results → bytes = []
  | .ready (.ok _) :: results => SilentAfterError results
  | .pending :: results => SilentAfterError results

theorem silentAfterError_of_empty {results : List (Poll (Except ε (List α)))}
    (h : ∀ bytes, .ready (.ok bytes) ∈ results → bytes = []) : SilentAfterError results := by
  induction results with
  | nil => trivial
  | cons result results ih =>
    have hrest : ∀ bytes, .ready (.ok bytes) ∈ results → bytes = [] :=
      fun bytes hbytes => h bytes (mem_cons_of_mem _ hbytes)
    match result with
    | .pending => exact ih hrest
    | .ready (.ok _) => exact ih hrest
    | .ready (.error _) => exact hrest

def Script.Sound (script : Script α ε) : Prop :=
  ∀ e, .ready (.error e) ∉ script

end

structure Deframer.Guarded {σ α ε : Type} (d : Deframer σ α ε) (Live : σ → List α → Prop)
    (Quiet : σ → Prop) : Prop where
  avail (s : σ) (plain : List α) (h : Live s plain) : d.avail s <+: plain
  consume (s : σ) (plain : List α) (n : Nat) (h : Live s plain) (hn : n ≤ (d.avail s).length)
    : Live (d.consume s n) (plain.drop n)
  extend (s : σ) (plain segment : List α) (h : Live s plain)
    : Live (d.extend s segment) plain ∧ d.avail (d.extend s segment) = d.avail s
  decode (s : σ) (plain : List α) (h : Live s plain) (havail : d.avail s = [])
    : (∃ s', d.decode s = (s', none) ∧ Live s' plain ∧ d.avail s' = [])
      ∨ (∃ s', d.decode s = (s', some (.ok ())) ∧ d.avail s' ≠ [] ∧ Live s' plain)
      ∨ (∃ s' result, d.decode s = (s', some result) ∧ Quiet s')
  quiet (s : σ) (h : Quiet s) : d.avail s = []
  extendQuiet (s : σ) (segment : List α) (h : Quiet s) : Quiet (d.extend s segment)
  decodeQuiet (s : σ) (h : Quiet s) : Quiet (d.decode s).fst

namespace Deframer

variable {σ α ε : Type} {d : Deframer σ α ε} {Live : σ → List α → Prop} {Quiet : σ → Prop}

inductive Answer (Live : σ → List α → Prop) (Quiet : σ → Prop) (plain : List α)
    : σ → Poll (Except ε (List α)) → Prop where
  | waits (s : σ) (h : Live s plain) : Answer Live Quiet plain s .pending
  | gives (s : σ) (bytes rest : List α) (hne : bytes ≠ []) (hplain : bytes ++ rest = plain)
      (h : Live s rest) : Answer Live Quiet plain s (.ready (.ok bytes))
  | ends (s : σ) (h : Live s plain ∨ Quiet s) : Answer Live Quiet plain s (.ready (.ok []))
  | fails (s : σ) (e : ε) (h : Quiet s) : Answer Live Quiet plain s (.ready (.error e))

theorem pollRead_suffix (d : Deframer σ α ε) {cap : Nat} {s : σ} {script : Script α ε}
    : (d.pollRead cap s script).snd.snd <:+ script := by
  fun_induction d.pollRead cap s script with
  | case10 s script h s₁ hdecode segment hne s₂ hnext ih => exact ih.trans (suffix_cons _ _)
  | _ => simp

namespace Guarded

variable (h : d.Guarded Live Quiet)

include h

theorem answer_deliver (hcap : 0 < cap) (hlive : Live s plain) (havail : d.avail s ≠ [])
    : Answer Live Quiet plain (d.deliver cap s).fst (d.deliver cap s).snd := by
  rcases h.avail s plain hlive with ⟨rest, rfl⟩
  have hpos := length_pos_iff.mpr havail
  have hnext := h.consume s _ (min (d.avail s).length cap) hlive (Nat.min_le_left _ _)
  rw [drop_append_of_le_length (Nat.min_le_left _ _)] at hnext
  refine .gives _ _ _ ?_ ?_ hnext
  . rw [← length_pos_iff, length_take]
    omega
  . rw [← append_assoc, take_append_drop]

theorem decoded_of_quiet (hquiet : Quiet s) : d.decoded cap s = (s, .ready (.ok [])) := by
  unfold decoded
  rw [if_pos (by simp [h.quiet s hquiet])]

theorem decode_cases (hcap : 0 < cap) (hlive : Live s plain) (havail : d.avail s = [])
    : (∃ s', d.decode s = (s', none) ∧ Live s' plain ∧ d.avail s' = [])
      ∨ (∃ s', d.decode s = (s', some (.ok ()))
        ∧ Answer Live Quiet plain (d.decoded cap s').fst (d.decoded cap s').snd)
      ∨ (∃ s' e, d.decode s = (s', some (.error e)) ∧ Quiet s') := by
  rcases h.decode s plain hlive havail with
    hwaits | ⟨s', hdecode, hne, hlive'⟩ | ⟨s', result, hdecode, hquiet⟩
  . exact .inl hwaits
  . refine .inr (.inl ⟨s', hdecode, ?_⟩)
    unfold decoded
    rw [if_neg (by simpa using hne)]
    exact h.answer_deliver hcap hlive' hne
  . right
    match result with
    | .ok () =>
      refine .inl ⟨s', hdecode, ?_⟩
      rw [h.decoded_of_quiet hquiet]
      exact .ends s' (.inr hquiet)
    | .error e => exact .inr ⟨s', e, hdecode, hquiet⟩

theorem answer_pollRead {s : σ} {script : Script α ε} (hcap : 0 < cap) (hscript : script.Sound)
    (hlive : Live s plain)
    : Answer Live Quiet plain (d.pollRead cap s script).fst (d.pollRead cap s script).snd.fst := by
  unfold pollRead
  split
  next havail => exact h.answer_deliver hcap hlive (by simpa using havail)
  next havail =>
    have havail : d.avail s = [] := by simpa using havail
    rcases h.decode_cases hcap hlive havail with
      ⟨s₁, hdecode, hlive₁, havail₁⟩ | ⟨s₁, hdecode, hanswer⟩ | ⟨s₁, e, hdecode, hquiet⟩
    . rw [hdecode]
      match script with
      | [] => exact .waits s₁ hlive₁
      | .pending :: script => exact .waits s₁ hlive₁
      | .ready (.error e) :: script => exact absurd mem_cons_self (hscript e)
      | .ready (.ok segment) :: script =>
        have hrest : Script.Sound script := fun e hmem => hscript e (mem_cons_of_mem _ hmem)
        rcases h.extend s₁ plain segment hlive₁ with ⟨hlive₂, havail₂⟩
        rw [havail₁] at havail₂
        dsimp only
        split
        next => exact .ends s₁ (.inl hlive₁)
        rcases h.decode_cases hcap hlive₂ havail₂ with
          ⟨s₃, hdecode, hlive₃, havail₃⟩ | ⟨s₃, hdecode, hanswer⟩ | ⟨s₃, e, hdecode, hquiet⟩
        . rw [hdecode]
          exact answer_pollRead hcap hrest hlive₃
        . rw [hdecode]
          exact hanswer
        . rw [hdecode]
          exact .fails s₃ e hquiet
    . rw [hdecode]
      exact hanswer
    . rw [hdecode]
      exact .fails s₁ e hquiet

theorem quiet_pollRead (cap : Nat) (script : Script α ε) (hquiet : Quiet s)
    : Quiet (d.pollRead cap s script).fst
      ∧ ∀ bytes, (d.pollRead cap s script).snd.fst = .ready (.ok bytes) → bytes = [] := by
  have hdecode {s s' : σ} {found} (hquiet : Quiet s) (hs : d.decode s = (s', found))
      : Quiet s' := by
    have hs' := h.decodeQuiet s hquiet
    rw [hs] at hs'
    exact hs'
  fun_induction d.pollRead cap s script with
  | case1 script s havail => simp [h.quiet s hquiet] at havail
  | case2 script s _ s₁ hs =>
    rw [h.decoded_of_quiet (hdecode hquiet hs)]
    simp [hdecode hquiet hs]
  | case8 s _ s₁ hs segment script _ s₂ hs₂ =>
    have hquiet₂ := hdecode (h.extendQuiet s₁ segment (hdecode hquiet hs)) hs₂
    rw [h.decoded_of_quiet hquiet₂]
    simp [hquiet₂]
  | case9 s _ s₁ hs segment script _ s₂ e hs₂ =>
    simp [hdecode (h.extendQuiet s₁ segment (hdecode hquiet hs)) hs₂]
  | case10 s _ s₁ hs segment script _ s₂ hs₂ ih =>
    exact ih (hdecode (h.extendQuiet s₁ segment (hdecode hquiet hs)) hs₂)
  | _ => simp [hdecode hquiet ‹_›]

theorem quiet_run (caps : List Nat) (script : Script α ε) (hquiet : Quiet s)
    : ∀ bytes, .ready (.ok bytes) ∈ d.run caps s script → bytes = [] := by
  induction caps generalizing s script with
  | nil => simp [run]
  | cons cap caps ih =>
    rcases h.quiet_pollRead cap script hquiet with ⟨hquiet', hempty⟩
    intro bytes hbytes
    rcases mem_cons.mp hbytes with hfirst | hrest
    . exact hempty bytes hfirst.symm
    . exact ih _ hquiet' bytes hrest

theorem run_guarded {caps : List Nat} (hcaps : ∀ cap ∈ caps, 0 < cap) (hscript : script.Sound)
    (hlive : Live s plain)
    : beforeStop (d.run caps s script) <+: plain ∧ SilentAfterError (d.run caps s script) := by
  induction caps generalizing s script plain with
  | nil => exact ⟨ nil_prefix, trivial⟩
  | cons cap caps ih =>
    rw [forall_mem_cons] at hcaps
    have hanswer := h.answer_pollRead hcaps.left hscript hlive
    have hrest : Script.Sound (d.pollRead cap s script).snd.snd :=
      fun e hmem => hscript e (d.pollRead_suffix.subset hmem)
    rw [run]
    generalize d.pollRead cap s script = polled at hanswer hrest
    rcases polled with ⟨s', result, rest⟩
    cases hanswer with
    | waits hlive' => exact ih hcaps.right hrest hlive'
    | gives bytes left hne hplain hlive' =>
      rcases ih hcaps.right hrest hlive' with ⟨hfront, hsilent⟩
      refine ⟨?_, hsilent⟩
      rw [beforeStop, if_neg (by simpa using hne), ← hplain]
      exact (prefix_append_right_inj _).mpr hfront
    | ends hnext =>
      refine ⟨ nil_prefix, ?_⟩
      rcases hnext with hlive' | hquiet
      . exact (ih hcaps.right hrest hlive').right
      . have hsilent := silentAfterError_of_empty (h.quiet_run caps rest hquiet)
        exact hsilent
    | fails e hquiet => exact ⟨ nil_prefix, h.quiet_run caps rest hquiet⟩

end Guarded

end Deframer
