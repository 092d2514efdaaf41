import Blackwire.Lib.Poll
import Blackwire.Common.Unpadding
import Blackwire.Lib.Machine

/-!
This module contains the writing half of the XTLS Vision stream, and proves that the reader takes
its frames apart as long as nothing is framed behind the last one. What the inner stream answers in
a call is an argument of the call, and it is not ready where that ends.
-/

namespace Blackwire.Vision

def tlsApplicationDataStart : Bytes := [0x17, 0x03, 0x03]

def fillVisionChunk (uuid : Uuid) (content : Bytes) (command : Nat) (includeUuid : Bool) : Bytes :=
  let cl := content.length
  (if includeUuid then uuid.bytes else [])
    ++ [UInt8.ofNat command, UInt8.ofNat (cl / 256), UInt8.ofNat cl, 0, 0] ++ content

def looksLikeTlsApplicationData (buf : Bytes) : Bool :=
  buf.length ≥ 6 && buf.take 3 = tlsApplicationDataStart

def completeLoop : Nat → Bytes → Bool
  | 0, _ => true
  | fuel + 1, buf =>
    if buf.isEmpty then
      true
    else if buf.length < 5 then
      false
    else if buf.take 3 ≠ tlsApplicationDataStart then
      false
    else
      let recordLen := Bytes.u16At buf 3
      let buf := buf.drop 5
      if buf.length < recordLen then
        false
      else
        completeLoop fuel (buf.drop recordLen)

def isCompleteTlsRecord (buf : Bytes) : Bool :=
  completeLoop (buf.length + 1) buf

inductive IoError (ε : Type) where
  | writeZero (message : String)
  | inner (e : ε)

abbrev Answer (ε : Type) := Poll (Except ε Nat)

structure VisionStream where
  uuid : Uuid
  readDirectCopy : Bool
  writeUuidOnce : Bool
  writeDirectCopy : Bool
  writeBuf : Bytes
  writePos : Nat
  writePendingConsumed : Nat
  writePendingDirect : Bool
  serverInbound : Bool
  received : Bytes

namespace VisionStream

def new (uuid : Uuid) (serverInbound : Bool) : VisionStream where
  uuid := uuid
  readDirectCopy := false
  writeUuidOnce := true
  writeDirectCopy := false
  writeBuf := []
  writePos := 0
  writePendingConsumed := 0
  writePendingDirect := false
  serverInbound := serverInbound
  received := []

variable {ε : Type}

variable (s : VisionStream)

def drained : VisionStream :=
  { s with
    writeBuf := []
    writePos := 0
    writeDirectCopy := s.writeDirectCopy || s.writePendingDirect
    writePendingDirect := false }

def pollDrainWriteBuf (s : VisionStream) (answers : List (Answer ε))
    : VisionStream × Poll (Except (IoError ε) Unit) × List (Answer ε) :=
  if s.writePos < s.writeBuf.length then
    match answers with
    | [] => (s, .pending, [])
    | .pending :: answers => (s, .pending, answers)
    | .ready (.error e) :: answers => (s, .ready (.error (.inner e)), answers)
    | .ready (.ok 0) :: answers =>
      (s, .ready (.error (.writeZero "failed to write Vision frame")), answers)
    | .ready (.ok (n + 1)) :: answers =>
      { s with
        writePos := s.writePos + (n + 1)
        received := s.received ++ (s.writeBuf.drop s.writePos).take (n + 1) }.pollDrainWriteBuf
        answers
  else
    (s.drained, .ready (.ok ()), answers)

section

variable (buf : Bytes) (answers : List (Answer ε))

def pollInner : VisionStream × Poll (Except (IoError ε) Nat) :=
  match answers with
  | [] => (s, .pending)
  | .pending :: _ => (s, .pending)
  | .ready (.error e) :: _ => (s, .ready (.error (.inner e)))
  | .ready (.ok n) :: _ => ({ s with received := s.received ++ buf.take n }, .ready (.ok n))

def command (buf : Bytes) : Nat :=
  if s.serverInbound then
    if s.readDirectCopy then visionCommandPaddingDirect else visionCommandPaddingContinue
  else if looksLikeTlsApplicationData buf && isCompleteTlsRecord buf then
    visionCommandPaddingDirect
  else
    visionCommandPaddingEnd

def fill (buf : Bytes) : VisionStream :=
  { s with
    writeUuidOnce := false
    writeBuf := fillVisionChunk s.uuid buf (s.command buf) s.writeUuidOnce
    writePos := 0
    writePendingConsumed := buf.length
    writePendingDirect := s.command buf = visionCommandPaddingDirect }

def pollWriteNext : VisionStream × Poll (Except (IoError ε) Nat) :=
  if s.writeDirectCopy then
    s.pollInner buf answers
  else if buf.isEmpty then
    s.pollInner buf answers
  else
    match (s.fill buf).pollDrainWriteBuf answers with
    | (s, .ready (.ok ()), _) => ({ s with writePendingConsumed := 0 }, .ready (.ok buf.length))
    | (s, .ready (.error e), _) => (s, .ready (.error e))
    | (s, .pending, _) => (s, .pending)

def pollWrite : VisionStream × Poll (Except (IoError ε) Nat) :=
  if !s.writeBuf.isEmpty then
    match s.pollDrainWriteBuf answers with
    | (s, .ready (.ok ()), answers) =>
      if s.writePendingConsumed > 0 then
        ({ s with writePendingConsumed := 0 }, .ready (.ok s.writePendingConsumed))
      else
        s.pollWriteNext buf answers
    | (s, .ready (.error e), _) => (s, .ready (.error e))
    | (s, .pending, _) => (s, .pending)
  else
    s.pollWriteNext buf answers

end

-- `poll_shutdown` differs only in what it asks the inner stream after the drain.
def pollFlush (answers : List (Answer ε)) (inner : Poll (Except ε Unit))
    : VisionStream × Poll (Except (IoError ε) Unit) :=
  match s.pollDrainWriteBuf answers with
  | (s, .ready (.ok ()), _) =>
    match inner with
    | .pending => (s, .pending)
    | .ready (.ok ()) => (s, .ready (.ok ()))
    | .ready (.error e) => (s, .ready (.error (.inner e)))
  | (s, result, _) => (s, result)

end VisionStream

structure Session where
  stream : VisionStream
  accepted : Bytes
  waiting : Option Bytes

inductive Event (ε : Type) where
  | write (buf : Bytes) (answers : List (Answer ε))
  | flush (answers : List (Answer ε)) (inner : Poll (Except ε Unit))
  | readDirect

namespace Session

variable {ε : Type}

def new (uuid : Uuid) (serverInbound : Bool) : Session :=
  ⟨.new uuid serverInbound, [], none⟩

variable (s : Session) (e : Event ε)

def step : Session :=
  match e with
  | .write buf answers =>
    match s.stream.pollWrite buf answers with
    | (stream, .ready (.ok n)) => ⟨stream, s.accepted ++ buf.take n, none⟩
    | (stream, .ready (.error _)) => ⟨stream, s.accepted, some buf⟩
    | (stream, .pending) => ⟨stream, s.accepted, some buf⟩
  | .flush answers inner => { s with stream := (s.stream.pollFlush answers inner).fst }
  | .readDirect => { s with stream := { s.stream with readDirectCopy := true } }

def enabled : Bool :=
  match e with
  | .write buf _ => !buf.isEmpty && s.waiting.all (· = buf)
  | _ => true

def retries : Bool :=
  match e with
  | .write buf _ => s.waiting.all (· = buf)
  | _ => true

end Session

structure Recorded where
  session : Session
  buffers : List Bytes

namespace Recorded

variable {ε : Type}

def new (uuid : Uuid) (serverInbound : Bool) : Recorded :=
  ⟨.new uuid serverInbound, []⟩

def step (r : Recorded) (e : Event ε) : Recorded where
  session := r.session.step e
  buffers :=
    match e with
    | .write buf answers =>
      match (r.session.stream.pollWrite buf answers).snd with
      | .ready (.ok n) => r.buffers ++ [buf.take n]
      | _ => r.buffers
    | _ => r.buffers

end Recorded

open VisionUnpaddingState List Machine

def decoded (uuid : Uuid) (bytes : Bytes) : Fed :=
  VisionUnpaddingState.new.feed uuid bytes

theorem decoded_append (x y : Bytes)
    : decoded uuid (x ++ y) = (decoded uuid x).next uuid y :=
  feed_append uuid .new wf_new

def frame (command : Nat) (content : Bytes) : Bytes :=
  UInt8.ofNat command :: UInt8.ofNat (content.length / 256) :: UInt8.ofNat content.length :: 0 :: 0
    :: content

theorem fillVisionChunk_eq
    : fillVisionChunk uuid content command includeUuid
        = (if includeUuid then uuid.bytes else []) ++ frame command content := by
  unfold fillVisionChunk frame
  rw [append_assoc]
  rfl

variable {s : VisionUnpaddingState}

variable (uuid) in
theorem loop_frame_continue (h : s.Header) (hlength : content.length ≤ 65535)
    : ∃ s', s'.Header
        ∧ s.loop uuid (frame visionCommandPaddingContinue content) = ⟨s', content, false⟩ := by
  apply loop_continue uuid s h
  rw [UInt8.toNat_ofNat', UInt8.toNat_ofNat']
  omega

theorem loop_frame_last (h : s.Header)
    (hcommand : command = visionCommandPaddingEnd ∨ command = visionCommandPaddingDirect)
    : ∃ s' direct, s'.finished = true
        ∧ s.loop uuid (frame command content) = ⟨s', content, direct⟩ := by
  have hne : UInt8.ofNat command ≠ 0 := by
    rcases hcommand with rfl | rfl <;> decide
  have hle : 256 * (UInt8.ofNat (content.length / 256)).toNat + (UInt8.ofNat content.length).toNat
      ≤ content.length := by
    rw [UInt8.toNat_ofNat', UInt8.toNat_ofNat']
    omega
  rcases loop_last uuid s h _ _ _ hne hle with ⟨s', hfinished, hloop⟩
  exact ⟨s', _, hfinished, hloop⟩

theorem decoded_first (command : Nat) (content : Bytes)
    : decoded uuid (uuid.bytes ++ frame command content)
        = { VisionUnpaddingState.new with remainingCommand := 5 }.loop uuid
          (frame command content) := by
  have hinitial : VisionUnpaddingState.new.Initial := ⟨rfl, rfl, by decide⟩
  have hlength := uuid.length_eq
  have hlong : ¬(uuid.bytes ++ frame command content).length < 21 := by
    simp only [frame, length_append, length_cons]
    omega
  unfold decoded
  rw [feed_of_initial uuid hinitial]
  change VisionUnpaddingState.new.start uuid (uuid.bytes ++ frame command content) = _
  unfold start
  rw [if_neg hlong, if_pos (by rw [← hlength, take_left]), ← hlength, drop_left]
  rfl

theorem header_new
    : { VisionUnpaddingState.new with remainingCommand := 5 : VisionUnpaddingState }.Header :=
  ⟨rfl, rfl, rfl, by decide, by decide⟩

def Follows (s : VisionStream) (reader : VisionUnpaddingState) : Prop :=
  if s.writeDirectCopy || !s.serverInbound then reader.finished = true else reader.Header

def Synced (s : VisionStream) (sent : Bytes) : Prop :=
  if s.writeUuidOnce then
    sent = [] ∧ s.writeDirectCopy = false
  else
    Follows s (decoded s.uuid sent).state

def frameable (s : VisionStream) (buf : Bytes) : Bool :=
  if s.serverInbound then s.readDirectCopy || buf.length ≤ 65535 else s.writeUuidOnce

section

variable (s : VisionStream) (buf : Bytes)

theorem command_cases
    : (s.command buf = visionCommandPaddingContinue ∧ s.serverInbound = true
          ∧ s.readDirectCopy = false)
        ∨ (s.command buf = visionCommandPaddingEnd ∧ s.serverInbound = false)
        ∨ s.command buf = visionCommandPaddingDirect := by
  unfold VisionStream.command
  split
  next hserver =>
    split
    next => exact .inr (.inr rfl)
    next hread => exact .inl ⟨rfl, hserver, by simpa using hread⟩
  next hserver =>
    split
    next => exact .inr (.inr rfl)
    next => exact .inr (.inl ⟨rfl, by simpa using hserver⟩)

theorem loop_fill {reader : VisionUnpaddingState} (hreader : reader.Header)
    (hdirect : s.writeDirectCopy = false) (hframeable : frameable s buf = true)
    : (reader.loop s.uuid (frame (s.command buf) buf)).out = buf
        ∧ Follows (s.fill buf).drained (reader.loop s.uuid (frame (s.command buf) buf)).state := by
  unfold Follows
  rcases command_cases s buf with ⟨hcommand, hserver, hread⟩ | ⟨hcommand, hserver⟩ | hcommand
  . have hlength : buf.length ≤ 65535 := by
      simpa [frameable, hserver, hread] using hframeable
    rcases loop_frame_continue s.uuid hreader hlength with ⟨reader', hheader, hloop⟩
    have hafter : ((s.fill buf).drained.writeDirectCopy || !(s.fill buf).drained.serverInbound)
        = false := by
      simp only [VisionStream.fill, VisionStream.drained, hcommand, hserver, hdirect]
      decide
    rw [hafter, hcommand, hloop]
    exact ⟨rfl, hheader⟩
  . rcases loop_frame_last hreader (.inl hcommand) with ⟨reader', direct, hfinished, hloop⟩
    have hafter : ((s.fill buf).drained.writeDirectCopy || !(s.fill buf).drained.serverInbound)
        = true := by
      simp [VisionStream.fill, VisionStream.drained, hserver]
    rw [hafter, hloop]
    exact ⟨rfl, hfinished⟩
  . rcases loop_frame_last hreader (.inr hcommand) with ⟨reader', direct, hfinished, hloop⟩
    have hafter : ((s.fill buf).drained.writeDirectCopy || !(s.fill buf).drained.serverInbound)
        = true := by
      simp [VisionStream.fill, VisionStream.drained, hcommand]
    rw [hafter, hloop]
    exact ⟨rfl, hfinished⟩

theorem synced_fill (hsynced : Synced s sent) (hdirect : s.writeDirectCopy = false)
    (hframeable : frameable s buf = true)
    : (decoded s.uuid (sent ++ (s.fill buf).writeBuf)).out = (decoded s.uuid sent).out ++ buf
        ∧ Synced (s.fill buf).drained (sent ++ (s.fill buf).writeBuf) := by
  have hbuf : (s.fill buf).writeBuf
      = (if s.writeUuidOnce then s.uuid.bytes else []) ++ frame (s.command buf) buf := by
    exact fillVisionChunk_eq
  have hafter (bytes : Bytes)
      : Synced (s.fill buf).drained bytes
        ↔ Follows (s.fill buf).drained (decoded s.uuid bytes).state := by
    rfl
  rw [hafter, hbuf]
  unfold Synced at hsynced
  split at hsynced
  next hfresh =>
    rcases loop_fill s buf header_new hdirect hframeable with ⟨hout, hfollows⟩
    rw [hfresh, hsynced.left, if_pos rfl, nil_append, decoded_first]
    exact ⟨hout, hfollows⟩
  next hfresh =>
    have hserver : s.serverInbound = true := by
      by_contra hclient
      simp [frameable, hclient, hfresh] at hframeable
    have hheader : (decoded s.uuid sent).state.Header := by
      simpa [Follows, hdirect, hserver] using hsynced
    rcases loop_fill s buf hheader hdirect hframeable with ⟨hout, hfollows⟩
    rw [if_neg hfresh, nil_append, decoded_append]
    unfold Fed.next
    rw [feed_of_inside s.uuid _ _ hheader.inside]
    exact ⟨congrArg ((decoded s.uuid sent).out ++ ·) hout, hfollows⟩

end

theorem pollDrainWriteBuf_cases {ε : Type} {s : VisionStream} {answers : List (Answer ε)}
    (h : s.received = sent ++ s.writeBuf.take s.writePos)
    : (∃ rest, s.pollDrainWriteBuf answers
        = ({ s with received := sent ++ s.writeBuf }.drained, .ready (.ok ()), rest))
      ∨ (∃ pos result rest, pos < s.writeBuf.length
        ∧ (result = .pending ∨ ∃ e, result = .ready (.error e))
        ∧ s.pollDrainWriteBuf answers
          = ({ s with writePos := pos, received := sent ++ s.writeBuf.take pos }, result,
            rest)) := by
  induction answers generalizing s with
  | nil =>
    unfold VisionStream.pollDrainWriteBuf
    split
    next hlt => exact .inr ⟨s.writePos, _, _, hlt, .inl rfl, by rw [← h]⟩
    next hge =>
      left
      rw [take_of_length_le (by omega)] at h
      exact ⟨_, by rw [← h]⟩
  | cons answer answers ih =>
    unfold VisionStream.pollDrainWriteBuf
    split
    next hlt =>
      match answer with
      | .pending => exact .inr ⟨s.writePos, _, _, hlt, .inl rfl, by rw [← h]⟩
      | .ready (.error e) => exact .inr ⟨s.writePos, _, _, hlt, .inr ⟨_, rfl⟩, by rw [← h]⟩
      | .ready (.ok 0) => exact .inr ⟨s.writePos, _, _, hlt, .inr ⟨_, rfl⟩, by rw [← h]⟩
      | .ready (.ok (n + 1)) =>
        apply ih
        rw [h, append_assoc, ← take_add]
    next hge =>
      left
      rw [take_of_length_le (by omega)] at h
      exact ⟨_, by rw [← h]⟩

structure Idle (uuid : Uuid) (s : Session) : Prop where
  sameUuid : s.stream.uuid = uuid
  noBuf : s.stream.writeBuf = []
  noDirect : s.stream.writePendingDirect = false
  out : (decoded s.stream.uuid s.stream.received).out = s.accepted
  synced : Synced s.stream s.stream.received

structure Busy (uuid : Uuid) (s : Session) (buf sent : Bytes) : Prop where
  sameUuid : s.stream.uuid = uuid
  waiting : s.waiting = some buf
  nonempty : buf ≠ []
  pos : s.stream.writePos < s.stream.writeBuf.length
  consumed : s.stream.writePendingConsumed = buf.length
  received : s.stream.received = sent ++ s.stream.writeBuf.take s.stream.writePos
  out : (decoded s.stream.uuid sent).out = s.accepted
  whole : (decoded s.stream.uuid (sent ++ s.stream.writeBuf)).out = s.accepted ++ buf
  synced : Synced s.stream.drained (sent ++ s.stream.writeBuf)

def Inv (uuid : Uuid) (s : Session) : Prop :=
  Idle uuid s ∨ ∃ buf sent, Busy uuid s buf sent

/--
In client mode a buffer is framed only if it is the first one. In server mode a buffer is framed
before the reading half has switched only if its length fits the header. Nothing flushes the stream
while a write is under way.
-/
def orderly {ε : Type} (s : Session) (e : Event ε) : Bool :=
  match e with
  | .write buf _ =>
    !s.stream.writeBuf.isEmpty || s.stream.writeDirectCopy || frameable s.stream buf
  | .flush _ _ => s.stream.writeBuf.isEmpty
  | .readDirect => true

section

variable {ε : Type} (s : Session) (buf sent : Bytes)

theorem idle_drained (hbusy : Busy uuid ⟨stream, s.accepted, some buf⟩ buf sent)
    : Idle uuid ⟨{ { stream with received := sent ++ stream.writeBuf }.drained with
        writePendingConsumed := 0 }, s.accepted ++ buf, none⟩ where
  sameUuid := hbusy.sameUuid
  noBuf := rfl
  noDirect := rfl
  out := hbusy.whole
  synced := hbusy.synced

theorem busy_moved (hbusy : Busy uuid ⟨stream, s.accepted, some buf⟩ buf sent)
    (hpos : pos < stream.writeBuf.length)
    : Busy uuid ⟨{ stream with writePos := pos, received := sent ++ stream.writeBuf.take pos },
        s.accepted, some buf⟩ buf sent where
  sameUuid := hbusy.sameUuid
  waiting := rfl
  nonempty := hbusy.nonempty
  pos := hpos
  consumed := hbusy.consumed
  received := rfl
  out := hbusy.out
  whole := hbusy.whole
  synced := hbusy.synced

theorem inv_retry (hbusy : Busy uuid s buf sent) : Inv uuid (s.step (.write buf answers)) := by
  rcases s with ⟨stream, accepted, waiting⟩
  cases hbusy.waiting
  have hpos := hbusy.pos
  have hne : stream.writeBuf.isEmpty = false := by
    rw [isEmpty_eq_false_iff, ← length_pos_iff]
    dsimp only at hpos
    omega
  have hconsumed : stream.writePendingConsumed = buf.length := hbusy.consumed
  have hlength : 0 < buf.length := length_pos_iff.mpr hbusy.nonempty
  unfold Session.step VisionStream.pollWrite
  simp only [hne, Bool.not_false]
  rcases pollDrainWriteBuf_cases hbusy.received with
    ⟨rest, hdrain⟩ | ⟨pos, result, rest, hpos, hresult, hdrain⟩
  . rw [hdrain]
    have hconsumed'
        : { stream with received := sent ++ stream.writeBuf }.drained.writePendingConsumed
            = buf.length := hconsumed
    simp only [hconsumed', hlength, if_true, take_length]
    exact .inl (idle_drained ⟨stream, accepted, some buf⟩ buf sent hbusy)
  . rw [hdrain]
    have hmoved := busy_moved ⟨stream, accepted, some buf⟩ buf sent hbusy hpos
    rcases hresult with rfl | ⟨e, rfl⟩
    . exact .inr ⟨buf, sent, hmoved⟩
    . exact .inr ⟨buf, sent, hmoved⟩

section

variable (hidle : Idle uuid s) (hbuf : buf ≠ []) (hdirect : s.stream.writeDirectCopy = false)
  (hframeable : frameable s.stream buf = true)
include hidle hbuf hdirect hframeable

theorem busy_fill
    : Busy uuid ⟨s.stream.fill buf, s.accepted, some buf⟩ buf s.stream.received := by
  rcases synced_fill s.stream buf hidle.synced hdirect hframeable with ⟨hwhole, hsynced⟩
  refine ⟨hidle.sameUuid, rfl, hbuf, ?_, rfl, ?_, hidle.out, ?_, hsynced⟩
  . simp only [VisionStream.fill, fillVisionChunk, length_append, length_cons]
    omega
  . simp [VisionStream.fill]
  . rw [← hidle.out]
    exact hwhole

theorem inv_frame
    : Inv uuid (s.step (.write buf answers)) := by
  have hbusy := busy_fill s buf hidle hbuf hdirect hframeable
  have hnonempty : buf.isEmpty = false := by simpa using hbuf
  unfold Session.step VisionStream.pollWrite VisionStream.pollWriteNext
  simp only [hidle.noBuf, isEmpty_nil, Bool.not_true, Bool.false_eq_true, if_false, hdirect,
    hnonempty]
  rcases pollDrainWriteBuf_cases hbusy.received with
    ⟨rest, hdrain⟩ | ⟨pos, result, rest, hpos, hresult, hdrain⟩
  . rw [hdrain]
    simp only [take_length]
    exact .inl (idle_drained s buf s.stream.received hbusy)
  . rw [hdrain]
    have hmoved := busy_moved s buf s.stream.received hbusy hpos
    rcases hresult with rfl | ⟨e, rfl⟩
    . exact .inr ⟨buf, s.stream.received, hmoved⟩
    . exact .inr ⟨buf, s.stream.received, hmoved⟩

end

theorem idle_raw (hidle : Idle uuid s) (hdirect : s.stream.writeDirectCopy = true)
    : Idle uuid ⟨{ s.stream with received := s.stream.received ++ bytes }, s.accepted ++ bytes,
        waiting⟩ := by
  have hsynced := hidle.synced
  unfold Synced at hsynced
  split at hsynced
  next =>
    rw [hdirect] at hsynced
    cases hsynced.right
  next hfresh =>
    simp only [Follows, hdirect] at hsynced
    have hnext : decoded s.stream.uuid (s.stream.received ++ bytes)
        = ⟨(decoded s.stream.uuid s.stream.received).state,
          (decoded s.stream.uuid s.stream.received).out ++ bytes,
          (decoded s.stream.uuid s.stream.received).direct⟩ := by
      rw [decoded_append]
      unfold Fed.next
      rw [feed_of_finished _ _ _ hsynced]
      simp
    refine ⟨hidle.sameUuid, hidle.noBuf, hidle.noDirect, ?_, ?_⟩
    . dsimp only
      rw [hnext, hidle.out]
    . unfold Synced
      rw [if_neg hfresh]
      rw [hnext]
      simp only [hdirect]
      exact hsynced

theorem inv_direct (hidle : Idle uuid s) (hdirect : s.stream.writeDirectCopy = true)
    : Inv uuid (s.step (.write buf answers)) := by
  have hsame (waiting : Option Bytes) : Idle uuid ⟨s.stream, s.accepted, waiting⟩ :=
    ⟨hidle.sameUuid, hidle.noBuf, hidle.noDirect, hidle.out, hidle.synced⟩
  unfold Session.step VisionStream.pollWrite VisionStream.pollWriteNext
  simp only [hidle.noBuf, hdirect]
  match answers with
  | [] => exact .inl (hsame (some buf))
  | .pending :: _ => exact .inl (hsame (some buf))
  | .ready (.error e) :: _ => exact .inl (hsame (some buf))
  | .ready (.ok n) :: _ => exact .inl (idle_raw s hidle hdirect)

theorem inv_flush {inner : Poll (Except ε Unit)} (hidle : Idle uuid s)
    : Inv uuid (s.step (.flush answers inner)) := by
  have hdrain
      : s.stream.pollDrainWriteBuf answers = (s.stream.drained, .ready (.ok ()), answers) := by
    unfold VisionStream.pollDrainWriteBuf
    rw [if_neg (by simp [hidle.noBuf])]
  have hstream : (s.stream.pollFlush answers inner).fst = s.stream.drained := by
    unfold VisionStream.pollFlush
    rw [hdrain]
    match inner with
    | .pending => rfl
    | .ready (.ok ()) => rfl
    | .ready (.error e) => rfl
  have hdirect : s.stream.drained.writeDirectCopy = s.stream.writeDirectCopy := by
    simp [VisionStream.drained, hidle.noDirect]
  left
  refine ⟨?_, ?_, ?_, ?_, ?_⟩
  . simp only [Session.step, hstream]
    exact hidle.sameUuid
  . simp only [Session.step, hstream]
    rfl
  . simp only [Session.step, hstream]
    rfl
  . simp only [Session.step, hstream]
    exact hidle.out
  . have hsynced := hidle.synced
    simp only [Session.step, hstream]
    unfold Synced Follows at *
    rw [hdirect]
    exact hsynced

theorem inv_readDirect (h : Inv uuid s) : Inv uuid (s.step (.readDirect : Event ε)) := by
  rcases h with hidle | ⟨buf, sent, hbusy⟩
  . exact .inl ⟨hidle.sameUuid, hidle.noBuf, hidle.noDirect, hidle.out, hidle.synced⟩
  . exact .inr ⟨buf, sent, hbusy.sameUuid, hbusy.waiting, hbusy.nonempty, hbusy.pos, hbusy.consumed,
      hbusy.received, hbusy.out, hbusy.whole, hbusy.synced⟩

end

theorem inv_step {ε : Type} {s : Session} {e : Event ε} (h : Inv uuid s)
    (henabled : s.enabled e = true) (horderly : orderly s e = true)
    : Inv uuid (s.step e) := by
  cases e with
  | readDirect => exact inv_readDirect s h
  | flush answers inner =>
    rcases h with hidle | ⟨buf, sent, hbusy⟩
    . exact inv_flush s hidle
    have hpos := hbusy.pos
    simp only [orderly, List.isEmpty_iff] at horderly
    rw [horderly] at hpos
    cases hpos
  | write buf answers =>
    simp only [Session.enabled, Bool.and_eq_true, Bool.not_eq_true', isEmpty_eq_false_iff]
      at henabled
    rcases h with hidle | ⟨buf', sent, hbusy⟩
    . cases hdirect : s.stream.writeDirectCopy with
      | true => exact inv_direct s buf hidle hdirect
      | false =>
        have hframeable : frameable s.stream buf = true := by
          simpa [orderly, hidle.noBuf, hdirect] using horderly
        exact inv_frame s buf hidle henabled.left hdirect hframeable
    . have hsame : buf' = buf := by simpa [hbusy.waiting] using henabled.right
      rw [hsame] at hbusy
      exact inv_retry s buf sent hbusy

theorem idle_new : Idle uuid (.new uuid serverInbound) where
  sameUuid := rfl
  noBuf := rfl
  noDirect := rfl
  out := rfl
  synced := ⟨rfl, rfl⟩

theorem Busy.out_received {s : Session} {buf sent : Bytes} (h : Busy uuid s buf sent)
    : ∃ part, part <+: buf ∧ (decoded uuid s.stream.received).out = s.accepted ++ part := by
  have hbase := h.out
  have hwhole := h.whole
  rw [h.sameUuid] at hbase hwhole
  have hreceived : (decoded uuid s.stream.received).out
      = s.accepted ++ ((decoded uuid sent).state.feed uuid
        (s.stream.writeBuf.take s.stream.writePos)).out := by
    rw [h.received, decoded_append, ← hbase]
    rfl
  refine ⟨_, ?_, hreceived⟩
  rw [← take_append_drop s.stream.writePos s.stream.writeBuf, ← append_assoc,
    ← h.received, decoded_append] at hwhole
  unfold Fed.next at hwhole
  dsimp only at hwhole
  rw [hreceived, append_assoc] at hwhole
  rw [← append_cancel_left hwhole]
  apply prefix_append

theorem vision_round_trip {ε : Type} (uuid : Uuid) (serverInbound : Bool) (s : Session)
    (h : Reach Session.step (fun s (e : Event ε) => s.enabled e && orderly s e)
      (.new uuid serverInbound) s)
    (pieces : List Bytes) (hpieces : pieces.flatten = s.stream.received)
    : ∃ part, part <+: s.waiting.getD []
        ∧ (VisionUnpaddingState.new.feedAll uuid pieces).snd = s.accepted ++ part := by
  have hinv : Inv uuid s := by
    apply Reach.invariant (Inv uuid) _ s (.inl idle_new) _ h
    intro t e ht hallowed
    simp only [Bool.and_eq_true] at hallowed
    exact inv_step ht hallowed.left hallowed.right
  rw [feedAll_eq uuid .new pieces wf_new, hpieces]
  rcases hinv with hidle | ⟨buf, sent, hbusy⟩
  . refine ⟨[], nil_prefix, ?_⟩
    rw [append_nil, ← hidle.out, hidle.sameUuid]
    rfl
  . rw [hbusy.waiting]
    exact hbusy.out_received

def fives : Uuid := ⟨replicate 16 5, rfl⟩

def handoff : List (Event Unit) :=
  [.write [97, 98] [.ready (.ok 10), .pending], .write [97, 98] [.ready (.ok 13)],
    .write [99] [.ready (.ok 2), .ready (.ok 4)], .flush [] (.ready (.ok ())), .readDirect,
    .write [100] [.ready (.ok 6)], .write [101, 102] [.ready (.ok 1)]]

theorem vision_round_trip_handoff
    : let s := handoff.foldl Session.step (.new fives true)
      s.accepted = [97, 98, 99, 100, 101]
        ∧ ∃ part, part <+: s.waiting.getD []
          ∧ (VisionUnpaddingState.new.feedAll fives
              [s.stream.received.take 7, s.stream.received.drop 7]).snd
            = s.accepted ++ part :=
  ⟨by decide,
    vision_round_trip fives true (handoff.foldl Session.step (.new fives true))
      (Reach.foldl _ handoff .start (by decide)) _ (by simp)⟩

def twoWrites : List (Event Unit) :=
  [.write [97, 98] [.ready (.ok 23)], .write [99] [.ready (.ok 6)]]

theorem vision_frames_twice
    : let s := twoWrites.foldl Session.step (.new fives false)
      Allowed Session.step (fun s e => s.enabled e) (.new fives false) twoWrites
        ∧ s.waiting = none
        ∧ s.accepted = [97, 98, 99]
        ∧ (VisionUnpaddingState.new.feedAll fives [s.stream.received]).snd
          = [97, 98, 1, 0, 1, 0, 0, 99] := by
  decide

end Blackwire.Vision
