import Blackwire.Lib.Bytes
import Blackwire.Lib.Poll
import Blackwire.Lib.Machine

/-!
This module contains the writing half of the WebSocket stream and its verification. What the sink
of messages answers in a call is an argument of the call, as no call asks the sink the same question
twice.
-/

namespace Blackwire.Ws

def wsWriteBufferSize : Nat := 4 * 1024
def wsDirectFrameMinSize : Nat := 16 * 1024

inductive ErrorKind where
  | connectionAborted
  | other
  | os (e : Nat)
deriving DecidableEq

structure IoError where
  kind : ErrorKind
  message : String
deriving DecidableEq

inductive WsError where
  | io (e : IoError)
  | connectionClosed
  | alreadyClosed
  | other (text : String)

def wsErrToIo (e : WsError) : IoError :=
  match e with
  | .io e => e
  | .connectionClosed => ⟨.connectionAborted, "WebSocket closed"⟩
  | .alreadyClosed => ⟨.connectionAborted, "WebSocket closed"⟩
  | .other text => ⟨.other, text⟩

structure Sink where
  ready : Poll (Except WsError Unit)
  startSend : Except WsError Unit
  flush : Poll (Except WsError Unit)
  close : Poll (Except WsError Unit)

def mapErr (answer : Poll (Except WsError Unit)) : Poll (Except IoError Unit) :=
  match answer with
  | .pending => .pending
  | .ready (.ok ()) => .ready (.ok ())
  | .ready (.error e) => .ready (.error (wsErrToIo e))

structure WsStream where
  writeBuf : Bytes
  pendingWrite : Option Bytes
  taken : List Bytes

namespace WsStream

def new : WsStream := ⟨[], none, []⟩

variable (s : WsStream)

def stage : WsStream :=
  if s.pendingWrite.isNone && !s.writeBuf.isEmpty then
    { s with writeBuf := [], pendingWrite := some s.writeBuf }
  else
    s

variable (sink : Sink)

-- `poll_ready` and `start_send`. On an error the message is gone.
def send (msg : Bytes) : WsStream × Poll (Except IoError Unit) :=
  match sink.ready with
  | .pending => ({ s with pendingWrite := some msg }, .pending)
  | .ready (.error e) => (s, .ready (.error (wsErrToIo e)))
  | .ready (.ok ()) =>
    match sink.startSend with
    | .error e => (s, .ready (.error (wsErrToIo e)))
    | .ok () => ({ s with taken := s.taken ++ [msg] }, .ready (.ok ()))

def pollFlush : WsStream × Poll (Except IoError Unit) :=
  let s := s.stage
  match s.pendingWrite with
  | none => (s, mapErr sink.flush)
  | some msg =>
    match send { s with pendingWrite := none } sink msg with
    | (s, .ready (.ok ())) => (s, mapErr sink.flush)
    | (s, answer) => (s, answer)

def extend (buf : Bytes) : WsStream × Poll (Except IoError Nat) :=
  let space := wsWriteBufferSize - s.writeBuf.length
  let n := min buf.length space
  ({ s with writeBuf := s.writeBuf ++ buf.take n }, .ready (.ok n))

def pollWrite (buf : Bytes) : WsStream × Poll (Except IoError Nat) :=
  if s.writeBuf.isEmpty && s.pendingWrite.isNone && buf.length ≥ wsDirectFrameMinSize then
    match sink.ready with
    | .pending => (s, .pending)
    | .ready (.error e) => (s, .ready (.error (wsErrToIo e)))
    | .ready (.ok ()) =>
      match sink.startSend with
      | .error e => (s, .ready (.error (wsErrToIo e)))
      | .ok () => ({ s with taken := s.taken ++ [buf] }, .ready (.ok buf.length))
  else if s.writeBuf.length ≥ wsWriteBufferSize then
    match s.pollFlush sink with
    | (s, .ready (.ok ())) => s.extend buf
    | (s, .ready (.error e)) => (s, .ready (.error e))
    | (s, .pending) => (s, .pending)
  else
    s.extend buf

def pollShutdown : WsStream × Poll (Except IoError Unit) :=
  match s.pollFlush sink with
  | (s, .pending) => (s, .pending)
  | (s, .ready (.error e)) => (s, .ready (.error e))
  | (s, .ready (.ok ())) => (s, mapErr sink.close)

end WsStream

inductive Call where
  | write (sink : Sink) (buf : Bytes)
  | flush (sink : Sink)
  | shutdown (sink : Sink)

structure Session where
  stream : WsStream
  accepted : Bytes

namespace Session

def new : Session := ⟨.new, []⟩

def step (s : Session) (call : Call) : Session :=
  match call with
  | .write sink buf =>
    let (stream, answer) := s.stream.pollWrite sink buf
    ⟨stream, s.accepted ++ answer.taken buf⟩
  | .flush sink => { s with stream := (s.stream.pollFlush sink).fst }
  | .shutdown sink => { s with stream := (s.stream.pollShutdown sink).fst }

end Session

open Machine

open scoped List

def isOk (answer : Poll (Except WsError Unit)) : Bool :=
  match answer with
  | .ready (.ok _) => true
  | _ => false

namespace Sink

def accepts (sink : Sink) : Bool :=
  match sink.ready, sink.startSend with
  | .ready (.ok _), .ok _ => true
  | _, _ => false

def refuses (sink : Sink) : Bool :=
  match sink.ready, sink.startSend with
  | .ready (.error _), _ => true
  | .ready (.ok _), .error _ => true
  | _, _ => false

theorem accepts_of_refuses {sink : Sink} (h : sink.refuses) : sink.accepts = false := by
  unfold refuses at h
  unfold accepts
  split at h
  . next hready => rw [hready]
  . next hready hsend => rw [hready, hsend]
  . cases h

end Sink

theorem mapErr_eq_ok (answer : Poll (Except WsError Unit))
    : mapErr answer = .ready (.ok ()) ↔ isOk answer := by
  unfold mapErr isOk
  split <;> simp

namespace WsStream

def held (s : WsStream) : Bytes :=
  s.pendingWrite.getD [] ++ s.writeBuf

def overtaken (s : WsStream) : Bytes :=
  if s.pendingWrite.isSome then s.writeBuf else []

variable (s : WsStream) (sink : Sink)

theorem held_stage : s.stage.held = s.held := by
  unfold stage held
  split
  next h =>
    simp only [Bool.and_eq_true, Option.isNone_iff_eq_none] at h
    simp [h.left]
  next => rfl

theorem writeBuf_stage : s.stage.writeBuf = s.overtaken := by
  unfold stage overtaken
  cases hpending : s.pendingWrite with
  | some msg => simp
  | none =>
    cases hbuf : s.writeBuf with
    | nil => simp [hbuf]
    | cons b bs => simp

theorem taken_stage : s.stage.taken = s.taken := by
  unfold stage
  split <;> rfl

theorem stage_eq_none {s : WsStream} (h : s.stage.pendingWrite = none)
    : s.stage = s ∧ s.pendingWrite = none ∧ s.writeBuf = [] := by
  unfold stage at *
  split at h
  next => cases h
  next hcond =>
    refine ⟨if_neg hcond, h, ?_⟩
    simpa [h] using hcond

inductive Flushed (s : WsStream) (sink : Sink) : WsStream × Poll (Except IoError Unit) → Prop where
  | idle (hpending : s.pendingWrite = none) (hbuf : s.writeBuf = [])
      : Flushed s sink (s, mapErr sink.flush)
  | waits (msg : Bytes) (hmsg : msg ++ s.overtaken = s.held) (hwaits : sink.accepts = false)
      : Flushed s sink (⟨s.overtaken, some msg, s.taken⟩, .pending)
  | refused (e : IoError) (hrefuses : sink.refuses = true)
      : Flushed s sink (⟨s.overtaken, none, s.taken⟩, .ready (.error e))
  | sent (msg : Bytes) (hmsg : msg ++ s.overtaken = s.held) (haccepts : sink.accepts = true)
      : Flushed s sink (⟨s.overtaken, none, s.taken ++ [msg]⟩, mapErr sink.flush)

theorem flushed_pollFlush : Flushed s sink (s.pollFlush sink) := by
  unfold pollFlush
  dsimp only
  cases hstage : s.stage.pendingWrite with
  | none =>
    rcases s.stage_eq_none hstage with ⟨heq, hpending, hbuf⟩
    rw [heq]
    exact .idle hpending hbuf
  | some msg =>
    have hmsg : msg ++ s.overtaken = s.held := by
      rw [← s.held_stage, held, hstage, writeBuf_stage]
      rfl
    unfold send
    simp only [writeBuf_stage, taken_stage]
    cases hready : sink.ready with
    | pending =>
      apply Flushed.waits msg hmsg
      simp [Sink.accepts, hready]
    | ready answer =>
      cases answer with
      | error e =>
        apply Flushed.refused
        simp [Sink.refuses, hready]
      | ok _ =>
        cases hsend : sink.startSend with
        | error e =>
          apply Flushed.refused
          simp [Sink.refuses, hready, hsend]
        | ok _ =>
          apply Flushed.sent msg hmsg
          simp [Sink.accepts, hready, hsend]

theorem pollFlush_ok (h : (s.pollFlush sink).snd = .ready (.ok ()))
    : (s.pollFlush sink).fst.pendingWrite = none
        ∧ (s.pollFlush sink).fst.writeBuf = s.overtaken := by
  have hflushed := s.flushed_pollFlush sink
  generalize s.pollFlush sink = result at *
  cases hflushed with
  | idle hpending hbuf => simp [overtaken, hpending, hbuf]
  | waits msg => cases h
  | refused e => cases h
  | sent msg => exact ⟨rfl, rfl⟩

theorem pollFlush_eq_ok {s : WsStream} (hpending : s.pendingWrite.isSome)
    : (s.pollFlush sink).snd = .ready (.ok ()) ↔ sink.accepts && isOk sink.flush := by
  have hflushed := s.flushed_pollFlush sink
  generalize s.pollFlush sink = result at *
  cases hflushed with
  | idle hnone => simp [hnone] at hpending
  | waits msg hmsg hwaits => simp [hwaits]
  | refused e hrefuses => simp [sink.accepts_of_refuses hrefuses]
  | sent msg hmsg haccepts => simp [haccepts, mapErr_eq_ok]

end WsStream

def flushesWith (s : WsStream) (call : Call) : Option Sink :=
  match call with
  | .write sink _ => if s.writeBuf.length ≥ wsWriteBufferSize then some sink else none
  | .flush sink => some sink
  | .shutdown sink => some sink

def Call.sink : Call → Sink
  | .write sink _ => sink
  | .flush sink => sink
  | .shutdown sink => sink

def drops (s : WsStream) (call : Call) : Bool :=
  match flushesWith s call with
  | some sink => !s.held.isEmpty && sink.refuses
  | none => false

theorem drops_of_refuses (h : call.sink.refuses = false)
    : drops s call = false := by
  unfold drops
  split
  next sink hs =>
    have hsink : sink = call.sink := by
      cases call <;> simp_all [flushesWith, Call.sink]
    rw [hsink, h, Bool.and_false]
  next => rfl

/--
The call finishes a message from an earlier flush, with a sink that holds nothing up, while bytes
that were accepted after it are still in the buffer.
-/
def overtakes (s : WsStream) (call : Call) : Bool :=
  !s.overtaken.isEmpty
    && match call with
      | .write sink buf =>
        !buf.isEmpty && s.writeBuf.length ≥ wsWriteBufferSize && sink.accepts && isOk sink.flush
      | .flush sink => sink.accepts && isOk sink.flush
      | .shutdown sink => sink.accepts && isOk sink.flush && isOk sink.close

namespace WsStream

def all (s : WsStream) : Bytes :=
  s.taken.flatten ++ s.held

theorem all_pollFlush (s : WsStream)
    : (s.pollFlush sink).fst.all <+ s.all
      ∧ ((!s.held.isEmpty && sink.refuses) = false → (s.pollFlush sink).fst.all = s.all) := by
  have hflushed := s.flushed_pollFlush sink
  generalize s.pollFlush sink = result at *
  cases hflushed with
  | idle => exact ⟨.refl _, fun _ => rfl⟩
  | waits msg hmsg =>
    unfold all
    rw [← hmsg]
    exact ⟨.refl _, fun _ => rfl⟩
  | refused e hrefuses =>
    have hovertaken : s.overtaken <+ s.held := by
      unfold overtaken held
      split <;> simp
    refine ⟨hovertaken.append_left _, ?_⟩
    intro h
    simp only [hrefuses, Bool.and_true, Bool.not_eq_eq_eq_not, Bool.not_false,
      List.isEmpty_iff] at h
    unfold all
    rw [h] at hovertaken ⊢
    rw [List.sublist_nil.mp hovertaken]
    rfl
  | sent msg hmsg =>
    unfold all
    rw [← hmsg]
    simp [held]

theorem all_extend (s : WsStream)
    : (s.extend buf).fst.all = s.all ++ (s.extend buf).snd.taken buf := by
  simp [extend, all, held, Poll.taken]

theorem extend_eq_zero (s : WsStream) (buf : Bytes)
    : (s.extend buf).snd = .ready (.ok 0)
        ↔ buf = [] ∨ wsWriteBufferSize ≤ s.writeBuf.length := by
  simp only [extend, Poll.ready.injEq, Except.ok.injEq]
  rw [← List.length_eq_zero_iff]
  omega

end WsStream

def flushed (s : WsStream) (call : Call) : WsStream :=
  match flushesWith s call with
  | some sink => (s.pollFlush sink).fst
  | none => s

theorem all_flushed
    : (flushed s call).all <+ s.all ∧ (drops s call = false → (flushed s call).all = s.all) := by
  unfold flushed drops
  cases flushesWith s call with
  | none => exact ⟨.refl _, fun _ => rfl⟩
  | some sink => exact s.all_pollFlush

theorem all_pollWrite
    : (s.pollWrite sink buf).fst.all
        = (flushed s (.write sink buf)).all ++ (s.pollWrite sink buf).snd.taken buf := by
  unfold WsStream.pollWrite flushed flushesWith
  dsimp only
  split
  next hdirect =>
    simp only [Bool.and_eq_true, List.isEmpty_iff, Option.isNone_iff_eq_none] at hdirect
    rw [if_neg (by simp [hdirect.left.left, wsWriteBufferSize])]
    split
    next => simp [Poll.taken]
    next => simp [Poll.taken]
    split
    next => simp [Poll.taken]
    next => simp [WsStream.all, WsStream.held, Poll.taken, hdirect.left.left, hdirect.left.right]
  next =>
    split
    next hfull =>
      split
      next s' hs => simp [WsStream.all_extend, hs]
      next s' e hs => simp [Poll.taken, hs]
      next s' hs => simp [Poll.taken, hs]
    next => exact s.all_extend

variable (s : WsStream) (sink : Sink)

theorem fst_pollShutdown
    : (s.pollShutdown sink).fst = (s.pollFlush sink).fst := by
  unfold WsStream.pollShutdown
  split
  . next h => rw [h]
  . next h => rw [h]
  . next h => rw [h]

theorem pollShutdown_ok
    : (s.pollShutdown sink).snd = .ready (.ok ())
        ↔ (s.pollFlush sink).snd = .ready (.ok ()) ∧ isOk sink.close := by
  unfold WsStream.pollShutdown
  split
  . next h => simp [h]
  . next h => simp [h]
  . next h => simp [h, mapErr_eq_ok]

def Kept (s : Session) : Prop :=
  s.stream.all = s.accepted

theorem all_step {s : Session}
    : ∃ bytes, (s.step call).accepted = s.accepted ++ bytes
      ∧ (s.step call).stream.all = (flushed s.stream call).all ++ bytes := by
  cases call with
  | write sink buf => exact ⟨_, rfl, all_pollWrite⟩
  | flush sink => simp [Session.step, flushed, flushesWith]
  | shutdown sink => simp [Session.step, flushed, flushesWith, fst_pollShutdown]

theorem kept_step (s : Session) (call : Call) (h : Kept s) (hdrops : drops s.stream call = false)
    : Kept (s.step call) := by
  rcases all_step with ⟨bytes, haccepted, hall⟩
  unfold Kept at *
  rw [haccepted, hall, all_flushed.right hdrops, h]

def Completes (s : Session) (call : Call) : Prop :=
  match call with
  | .write sink buf => buf ≠ [] → (s.stream.pollWrite sink buf).snd ≠ .ready (.ok 0)
  | .flush sink =>
    (s.stream.pollFlush sink).snd = .ready (.ok ()) →
      (s.step call).stream.taken.flatten = (s.step call).accepted
  | .shutdown sink =>
    (s.stream.pollShutdown sink).snd = .ready (.ok ()) →
      (s.step call).stream.taken.flatten = (s.step call).accepted

theorem taken_pollFlush (s : Session) (sink : Sink) (h : Kept s)
    (hok : (s.stream.pollFlush sink).snd = .ready (.ok ()))
    : (s.stream.pollFlush sink).fst.taken.flatten = s.accepted ↔ s.stream.overtaken = [] := by
  have hall : (s.stream.pollFlush sink).fst.taken.flatten ++ s.stream.overtaken = s.accepted := by
    have hflushed := s.stream.flushed_pollFlush sink
    rw [← h, WsStream.all]
    generalize s.stream.pollFlush sink = result at *
    cases hflushed with
    | idle hpending hbuf => simp [WsStream.overtaken, WsStream.held, hpending, hbuf]
    | waits msg => cases hok
    | refused e => cases hok
    | sent msg hmsg => simp [← hmsg]
  rw [← hall]
  simp

theorem WsStream.overtaken_eq_nil {s : WsStream} (hfull : s.writeBuf.length ≥ wsWriteBufferSize)
    : wsWriteBufferSize ≤ s.overtaken.length ↔ s.overtaken ≠ [] := by
  unfold overtaken
  split
  . simp only [hfull, true_iff]
    intro hnil
    simp [hnil, wsWriteBufferSize] at hfull
  . simp [wsWriteBufferSize]

theorem pollFlush_overtakes
    : (s.pollFlush sink).snd = .ready (.ok ()) ∧ s.overtaken ≠ []
        ↔ s.overtaken ≠ [] ∧ sink.accepts ∧ isOk sink.flush := by
  rw [and_comm]
  apply and_congr_right
  intro hovertaken
  have hpending : s.pendingWrite.isSome := by
    unfold WsStream.overtaken at hovertaken
    split at hovertaken
    next h => exact h
    next => exact absurd rfl hovertaken
  rw [s.pollFlush_eq_ok sink hpending, Bool.and_eq_true]

theorem pollWrite_eq_zero {buf : Bytes} (hbuf : buf ≠ [])
    : (s.pollWrite sink buf).snd = .ready (.ok 0)
        ↔ s.writeBuf.length ≥ wsWriteBufferSize
          ∧ (s.pollFlush sink).snd = .ready (.ok ()) ∧ s.overtaken ≠ [] := by
  unfold WsStream.pollWrite
  split
  next hdirect =>
    simp only [Bool.and_eq_true, List.isEmpty_iff] at hdirect
    have hnotfull : ¬s.writeBuf.length ≥ wsWriteBufferSize := by
      rw [hdirect.left.left]
      decide
    simp only [hnotfull]
    split
    next => simp
    next => simp
    split
    next => simp
    next => simpa using hbuf
  next =>
    split
    next hfull =>
      have hrest := s.pollFlush_ok sink
      split
      next s' hs =>
        rw [hs] at hrest ⊢
        rw [WsStream.extend_eq_zero, (hrest rfl).right]
        simp only [hbuf, hfull, false_or, true_and]
        exact s.overtaken_eq_nil hfull
      next s' e hs => simp [hs]
      next s' hs => simp [hs]
    next hfull => simp [WsStream.extend_eq_zero, hbuf, hfull]

theorem completes_iff {s : Session} (call : Call) (h : Kept s)
    : Completes s call ↔ ¬overtakes s.stream call := by
  have hflush := pollFlush_overtakes s.stream
  have htaken := taken_pollFlush s
  cases call with
  | write sink buf =>
    calc Completes s (.write sink buf)
      _ ↔ (buf ≠ [] → ¬(s.stream.writeBuf.length ≥ wsWriteBufferSize
            ∧ (s.stream.pollFlush sink).snd = .ready (.ok ()) ∧ s.stream.overtaken ≠ [])) := by
        apply imp_congr_right
        intro hbuf
        rw [← pollWrite_eq_zero s.stream sink hbuf]
      _ ↔ ¬overtakes s.stream (.write sink buf) := by
        rw [hflush]
        simp only [overtakes, Bool.and_eq_true, Bool.not_eq_true', List.isEmpty_eq_false_iff,
          decide_eq_true_eq]
        tauto
  | flush sink =>
    calc Completes s (.flush sink)
      _ ↔ ((s.stream.pollFlush sink).snd = .ready (.ok ()) → s.stream.overtaken = []) :=
        imp_congr_right (htaken sink h)
      _ ↔ ¬((s.stream.pollFlush sink).snd = .ready (.ok ()) ∧ s.stream.overtaken ≠ []) := by
        rw [not_and, not_not]
      _ ↔ ¬overtakes s.stream (.flush sink) := by
        rw [hflush]
        simp [overtakes]
  | shutdown sink =>
    calc Completes s (.shutdown sink)
      _ ↔ ((s.stream.pollFlush sink).snd = .ready (.ok ()) ∧ isOk sink.close →
            s.stream.overtaken = []) := by
        unfold Completes Session.step
        dsimp only
        rw [fst_pollShutdown, pollShutdown_ok]
        apply imp_congr_right
        intro hok
        exact htaken sink h hok.left
      _ ↔ ¬(((s.stream.pollFlush sink).snd = .ready (.ok ()) ∧ s.stream.overtaken ≠ [])
            ∧ isOk sink.close) := by
        tauto
      _ ↔ ¬overtakes s.stream (.shutdown sink) := by
        rw [hflush]
        simp [overtakes]

theorem ws_writer_completes (s : Session)
    (h : Reach Session.step (fun s call => drops s.stream call = false) Session.new s)
    (call : Call)
    : Completes s call ↔ ¬overtakes s.stream call := by
  have hkept := Reach.invariant Kept Session.new s rfl kept_step h
  exact completes_iff call hkept

theorem ws_writer_order (calls : List Call)
    : let s := calls.foldl Session.step Session.new
      let bytes := s.stream.taken.flatten ++ (s.stream.pendingWrite.getD [] ++ s.stream.writeBuf)
      bytes <+ s.accepted
        ∧ ((∀ call ∈ calls, call.sink.refuses = false) → bytes = s.accepted) := by
  intro s bytes
  constructor
  . have hreach : Reach Session.step (fun _ _ => True) Session.new s :=
      Reach.foldl _ calls .start (allowed_of_forall _ fun _ _ _ => trivial)
    apply hreach.invariant (fun s => s.stream.all <+ s.accepted) _ _ (.refl _)
    intro s call h _
    rcases all_step with ⟨bytes, haccepted, hall⟩
    rw [haccepted, hall]
    exact (all_flushed.left.trans h).append_right bytes
  . intro hsinks
    have hreach : Reach Session.step (fun s call => drops s.stream call = false) .new s :=
      Reach.foldl _ calls .start
        (allowed_of_forall _ fun call hcall s => drops_of_refuses (hsinks call hcall))
    exact hreach.invariant Kept Session.new s rfl kept_step

def ready : Sink := ⟨.ready (.ok ()), .ok (), .ready (.ok ()), .ready (.ok ())⟩
def busy : Sink := ⟨.pending, .ok (), .pending, .pending⟩

theorem ws_writer_completes_retried_flush
    : let s := [.write busy [1], .flush busy].foldl Session.step Session.new
      (s.stream.pollFlush ready).snd = .ready (.ok ())
        ∧ (s.step (.flush ready)).stream.taken.flatten = [1] := by
  have hcompletes := (ws_writer_completes ([.write busy [1], .flush busy].foldl Session.step .new)
    (by apply Reach.foldl _ _ .start; decide) (.flush ready)).mpr (by decide)
  refine ⟨by decide, ?_⟩
  exact hcompletes (by decide)

theorem ws_flush_forgets
    : let s := [.write busy [1], .flush busy, .write busy [2]].foldl Session.step Session.new
      s.accepted = [1, 2]
        ∧ (s.stream.pollFlush ready).snd = .ready (.ok ())
        ∧ (s.step (.flush ready)).stream.taken = [[1]] := by
  decide

end Blackwire.Ws
