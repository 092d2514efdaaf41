import Blackwire.Common.Vision

/-!
This module contains the verification of how the Vision writer retries: a buffer is framed once, as
long as nothing finishes the frame of a write before the write is tried again.
-/

namespace Blackwire.Vision

open List Machine

inductive Piece where
  | framed (buf : Bytes) (command : Nat)
  | raw (bytes : Bytes)

def Piece.content : Piece → Bytes
  | framed buf _ => buf
  | raw bytes => bytes

def encode (uuid : Uuid) (fresh : Bool) : List Piece → Bytes
  | [] => []
  | .framed buf command :: pieces =>
    fillVisionChunk uuid buf command fresh ++ encode uuid false pieces
  | .raw bytes :: pieces => bytes ++ encode uuid fresh pieces

def isFresh : List Piece → Bool
  | [] => true
  | .framed _ _ :: _ => false
  | .raw _ :: pieces => isFresh pieces

theorem encode_append (uuid : Uuid) (fresh : Bool) (pieces more : List Piece)
    : encode uuid fresh (pieces ++ more)
        = encode uuid fresh pieces ++ encode uuid (fresh && isFresh pieces) more := by
  induction pieces generalizing fresh with
  | nil => simp [encode, isFresh]
  | cons piece pieces ih =>
    cases piece with
    | framed buf command =>
      simp only [cons_append, encode, isFresh, Bool.and_false, append_assoc]
      rw [ih, Bool.false_and]
    | raw bytes =>
      simp only [cons_append, encode, isFresh, append_assoc]
      rw [ih]

theorem isFresh_append (pieces more : List Piece)
    : isFresh (pieces ++ more) = (isFresh pieces && isFresh more) := by
  induction pieces with
  | nil => rfl
  | cons piece pieces ih =>
    cases piece with
    | framed buf command => rfl
    | raw bytes => exact ih

def DeliversOnce (uuid : Uuid) (r : Recorded) : Prop :=
  ∃ (pieces : List Piece) (part : Bytes),
    pieces.map Piece.content = r.buffers
      ∧ r.session.stream.received = encode uuid true pieces ++ part
      ∧ (part = [] ∨ ∃ buf command, r.session.waiting = some buf
        ∧ part <+: fillVisionChunk uuid buf command (isFresh pieces))

inductive Staged (s : VisionStream) (sent frame : Bytes) : Prop where
  | partly (hbuf : s.writeBuf = frame) (hpos : s.writePos < s.writeBuf.length)
      (hreceived : s.received = sent ++ s.writeBuf.take s.writePos)
  | spent (hbuf : s.writeBuf = []) (hreceived : s.received = sent ++ frame)

inductive Stage (uuid : Uuid) (s : Session) (pieces : List Piece) : Prop where
  | idle (hbuf : s.stream.writeBuf = []) (hconsumed : s.stream.writePendingConsumed = 0)
      (hfresh : s.stream.writeUuidOnce = isFresh pieces)
      (hreceived : s.stream.received = encode uuid true pieces)
  | busy (buf : Bytes) (command : Nat) (hwaiting : s.waiting = some buf) (hne : buf ≠ [])
      (hconsumed : s.stream.writePendingConsumed = buf.length)
      (hfresh : s.stream.writeUuidOnce = false)
      (hstaged : Staged s.stream (encode uuid true pieces)
        (fillVisionChunk uuid buf command (isFresh pieces)))

structure Once (uuid : Uuid) (r : Recorded) (pieces : List Piece) : Prop where
  sameUuid : r.session.stream.uuid = uuid
  contents : pieces.map Piece.content = r.buffers
  stage : Stage uuid r.session pieces

theorem Once.deliversOnce (h : Once uuid r pieces) : DeliversOnce uuid r := by
  cases h.stage with
  | idle _ _ _ hreceived => exact ⟨pieces, [], h.contents, by simpa using hreceived, .inl rfl⟩
  | busy buf command hwaiting _ _ _ hstaged =>
    cases hstaged with
    | partly hbuf _ hreceived =>
      refine ⟨pieces, _, h.contents, hreceived, .inr ⟨buf, command, hwaiting, ?_⟩⟩
      rw [hbuf]
      apply take_prefix
    | spent _ hreceived =>
      exact ⟨pieces, _, h.contents, hreceived, .inr ⟨buf, command, hwaiting, prefix_rfl⟩⟩

def unspent {ε : Type} (s : Session) (e : Event ε) : Bool :=
  match e with
  | .write _ _ => !(s.stream.writeBuf.isEmpty && s.stream.writePendingConsumed > 0)
  | _ => true

section

variable {ε : Type} (s : Session) {buffers : List Bytes} {pieces : List Piece} (buf : Bytes)
  {answers : List (Answer ε)}

theorem step_write
    : Recorded.step ⟨s, buffers⟩ (.write buf answers)
        = match s.stream.pollWrite buf answers with
          | (stream, .ready (.ok n)) =>
            ⟨⟨stream, s.accepted ++ buf.take n, none⟩, buffers ++ [buf.take n]⟩
          | (stream, _) => ⟨⟨stream, s.accepted, some buf⟩, buffers⟩ := by
  unfold Recorded.step Session.step
  dsimp only
  match s.stream.pollWrite buf answers with
  | (stream, .ready (.ok n)) => rfl
  | (stream, .ready (.error e)) => rfl
  | (stream, .pending) => rfl

variable (accepted : Bytes) {stream : VisionStream}

theorem once_accepted (hn : buf.take n = buf) (huuid : stream.uuid = uuid)
    (hcontents : pieces.map Piece.content = buffers) (hbuf : stream.writeBuf = [])
    (hconsumed : stream.writePendingConsumed = 0) (hfresh : stream.writeUuidOnce = false)
    (hreceived : stream.received
      = encode uuid true pieces ++ fillVisionChunk uuid buf command (isFresh pieces))
    : Once uuid ⟨⟨stream, accepted, none⟩, buffers ++ [buf.take n]⟩
        (pieces ++ [.framed buf command]) where
  sameUuid := huuid
  contents := by
    rw [map_append, hcontents, hn]
    rfl
  stage := by
    apply Stage.idle
    . exact hbuf
    . exact hconsumed
    . rw [isFresh_append]
      simpa [isFresh] using hfresh
    . rw [encode_append]
      simpa [encode] using hreceived

theorem once_raw (bytes : Bytes) (huuid : stream.uuid = uuid)
    (hcontents : pieces.map Piece.content = buffers) (hbuf : stream.writeBuf = [])
    (hconsumed : stream.writePendingConsumed = 0) (hfresh : stream.writeUuidOnce = isFresh pieces)
    (hreceived : stream.received = encode uuid true pieces)
    : Once uuid ⟨⟨{ stream with received := stream.received ++ bytes }, accepted, none⟩,
        buffers ++ [bytes]⟩ (pieces ++ [.raw bytes]) where
  sameUuid := huuid
  contents := by
    rw [map_append, hcontents]
    rfl
  stage := by
    apply Stage.idle
    . exact hbuf
    . exact hconsumed
    . rw [isFresh_append]
      simpa [isFresh] using hfresh
    . rw [encode_append]
      simpa [encode] using hreceived

variable (buffers answers pieces) in
theorem once_drain (stream : VisionStream) (accepted : Bytes) (command : Nat) (frame : Bytes)
    (hframe : frame = fillVisionChunk uuid buf command (isFresh pieces)) (hne : buf ≠ [])
    (huuid : stream.uuid = uuid) (hcontents : pieces.map Piece.content = buffers)
    (hbuf : stream.writeBuf = frame) (hconsumed : stream.writePendingConsumed = buf.length)
    (hfresh : stream.writeUuidOnce = false)
    (hreceived : stream.received
      = encode uuid true pieces ++ stream.writeBuf.take stream.writePos)
    : (∃ drained rest, stream.pollDrainWriteBuf answers = (drained, .ready (.ok ()), rest)
        ∧ drained.uuid = uuid ∧ drained.writeBuf = [] ∧ drained.writeUuidOnce = false
        ∧ drained.writePendingConsumed = buf.length
        ∧ drained.received = encode uuid true pieces ++ frame)
      ∨ (∃ moved result rest, stream.pollDrainWriteBuf answers = (moved, result, rest)
        ∧ (result = .pending ∨ ∃ e, result = .ready (.error e))
        ∧ Once uuid ⟨⟨moved, accepted, some buf⟩, buffers⟩ pieces) := by
  rcases pollDrainWriteBuf_cases hreceived with
    ⟨rest, hdrain⟩ | ⟨pos, result, rest, hpos, hresult, hdrain⟩
  . left
    exact ⟨_, rest, hdrain, huuid, rfl, hfresh, hconsumed, by rw [← hbuf]; rfl⟩
  right
  refine ⟨_, result, rest, hdrain, hresult, huuid, hcontents, ?_⟩
  apply Stage.busy buf command rfl hne hconsumed hfresh
  rw [← hframe]
  exact .partly hbuf hpos rfl

theorem pollDrainWriteBuf_nil (h : stream.writeBuf = [])
    : stream.pollDrainWriteBuf answers = (stream.drained, .ready (.ok ()), answers) := by
  unfold VisionStream.pollDrainWriteBuf
  rw [if_neg (by simp [h])]

theorem pollFlush_fst {stream : VisionStream} {inner : Poll (Except ε Unit)}
    : (stream.pollFlush answers inner).fst = (stream.pollDrainWriteBuf answers).fst := by
  unfold VisionStream.pollFlush
  match stream.pollDrainWriteBuf answers with
  | (_, .pending, _) => rfl
  | (_, .ready (.error e), _) => rfl
  | (_, .ready (.ok ()), _) =>
    match inner with
    | .pending => rfl
    | .ready (.ok ()) => rfl
    | .ready (.error e) => rfl

section

variable (h : Once uuid ⟨s, buffers⟩ pieces)
include h

theorem once_inner (hbuf : s.stream.writeBuf = [])
    (hconsumed : s.stream.writePendingConsumed = 0)
    (hfresh : s.stream.writeUuidOnce = isFresh pieces)
    (hreceived : s.stream.received = encode uuid true pieces)
    (hinner : s.stream.pollWrite buf answers = s.stream.pollInner buf answers)
    : ∃ pieces, Once uuid (Recorded.step ⟨s, buffers⟩ (.write buf answers)) pieces := by
  have hwaits : Once uuid ⟨⟨s.stream, s.accepted, some buf⟩, buffers⟩ pieces :=
    ⟨h.sameUuid, h.contents, .idle hbuf hconsumed hfresh hreceived⟩
  rw [step_write, hinner]
  match answers with
  | [] => exact ⟨pieces, hwaits⟩
  | .pending :: _ => exact ⟨pieces, hwaits⟩
  | .ready (.error _) :: _ => exact ⟨pieces, hwaits⟩
  | .ready (.ok n) :: _ =>
    refine ⟨pieces ++ [.raw (buf.take n)], ?_⟩
    apply once_raw
    . exact h.sameUuid
    . exact h.contents
    . exact hbuf
    . exact hconsumed
    . exact hfresh
    . exact hreceived

theorem once_fill (hbuf : s.stream.writeBuf = [])
    (hfresh : s.stream.writeUuidOnce = isFresh pieces)
    (hreceived : s.stream.received = encode uuid true pieces)
    (hdirect : s.stream.writeDirectCopy = false) (hne : buf ≠ [])
    : ∃ pieces, Once uuid (Recorded.step ⟨s, buffers⟩ (.write buf answers)) pieces := by
  have hempty : buf.isEmpty = false := by simpa using hne
  have hframe : (s.stream.fill buf).writeBuf
      = fillVisionChunk uuid buf (s.stream.command buf) (isFresh pieces) := by
    rw [← hfresh, ← h.sameUuid]
    rfl
  rw [step_write]
  simp only [VisionStream.pollWrite, hbuf, VisionStream.pollWriteNext, hdirect, hempty]
  rcases once_drain buffers pieces buf answers (s.stream.fill buf) s.accepted
    (s.stream.command buf) _ hframe hne h.sameUuid h.contents rfl rfl rfl
    (by simpa [VisionStream.fill] using hreceived) with
    ⟨drained, rest, hdrain, huuid, hnil, hlater, _, hsent⟩
      | ⟨moved, result, rest, hdrain, hresult, honce⟩
  . rw [hdrain]
    refine ⟨pieces ++ [.framed buf (s.stream.command buf)], ?_⟩
    apply once_accepted
    . apply take_length
    . exact huuid
    . exact h.contents
    . exact hnil
    . rfl
    . exact hlater
    . rw [← hframe]
      exact hsent
  . rw [hdrain]
    rcases hresult with rfl | ⟨e, rfl⟩
    . exact ⟨pieces, honce⟩
    . exact ⟨pieces, honce⟩

theorem once_idle (hbuf : s.stream.writeBuf = [])
    (hconsumed : s.stream.writePendingConsumed = 0)
    (hfresh : s.stream.writeUuidOnce = isFresh pieces)
    (hreceived : s.stream.received = encode uuid true pieces)
    : ∃ pieces, Once uuid (Recorded.step ⟨s, buffers⟩ (.write buf answers)) pieces := by
  have hnext : s.stream.pollWrite buf answers = s.stream.pollWriteNext buf answers := by
    unfold VisionStream.pollWrite
    simp [hbuf]
  cases hdirect : s.stream.writeDirectCopy with
  | true =>
    apply once_inner s buf h hbuf hconsumed hfresh hreceived
    rw [hnext, VisionStream.pollWriteNext, if_pos hdirect]
  | false =>
    by_cases hne : buf = []
    . apply once_inner s buf h hbuf hconsumed hfresh hreceived
      rw [hnext, VisionStream.pollWriteNext, if_neg (by simp [hdirect]), if_pos (by simp [hne])]
    . exact once_fill s buf h hbuf hfresh hreceived hdirect hne

theorem once_retry (hne : buf ≠ [])
    (hconsumed : s.stream.writePendingConsumed = buf.length)
    (hfresh : s.stream.writeUuidOnce = false)
    (hbuf : s.stream.writeBuf = fillVisionChunk uuid buf command (isFresh pieces))
    (hpos : s.stream.writePos < s.stream.writeBuf.length) (hreceived : s.stream.received
      = encode uuid true pieces ++ s.stream.writeBuf.take s.stream.writePos)
    : ∃ pieces, Once uuid (Recorded.step ⟨s, buffers⟩ (.write buf answers)) pieces := by
  have hstaged : (!s.stream.writeBuf.isEmpty) = true := by
    cases hw : s.stream.writeBuf with
    | nil =>
      rw [hw, length_nil] at hpos
      omega
    | cons => rfl
  have hlength := length_pos_iff.mpr hne
  rw [step_write]
  unfold VisionStream.pollWrite
  rw [if_pos hstaged]
  rcases once_drain buffers pieces buf answers s.stream s.accepted command _ rfl hne h.sameUuid
    h.contents hbuf hconsumed hfresh hreceived with
    ⟨drained, rest, hdrain, huuid, hnil, hlater, hlen, hsent⟩
      | ⟨moved, result, rest, hdrain, hresult, honce⟩
  . rw [hdrain]
    simp only [hlen, hlength]
    refine ⟨pieces ++ [.framed buf command], ?_⟩
    apply once_accepted
    . apply take_length
    . exact huuid
    . exact h.contents
    . exact hnil
    . rfl
    . exact hlater
    . exact hsent
  . rw [hdrain]
    rcases hresult with rfl | ⟨e, rfl⟩
    . exact ⟨pieces, honce⟩
    . exact ⟨pieces, honce⟩

theorem once_write (hretries : s.retries (.write buf answers) = true)
    (hunspent : unspent s (.write buf answers) = true)
    : ∃ pieces, Once uuid (Recorded.step ⟨s, buffers⟩ (.write buf answers)) pieces := by
  cases h.stage with
  | idle hbuf hconsumed hfresh hreceived =>
    exact once_idle s buf h hbuf hconsumed hfresh hreceived
  | busy waits command hwaiting hne hconsumed hfresh hstaged =>
    have hsame : waits = buf := by
      have hwaiting : s.waiting = some waits := hwaiting
      simpa [Session.retries, hwaiting] using hretries
    subst hsame
    cases hstaged with
    | partly hbuf hpos hreceived =>
      exact once_retry s waits h hne hconsumed hfresh hbuf hpos hreceived
    | spent hbuf _ =>
      have hbuf : s.stream.writeBuf = [] := hbuf
      have hconsumed : s.stream.writePendingConsumed = waits.length := hconsumed
      simp [unspent, hbuf, hconsumed] at hunspent
      exact absurd hunspent hne

theorem once_flush {inner : Poll (Except ε Unit)}
    : Once uuid (Recorded.step ⟨s, buffers⟩ (.flush answers inner)) pieces := by
  have hstep : Recorded.step ⟨s, buffers⟩ (.flush answers inner)
      = ⟨⟨(s.stream.pollDrainWriteBuf answers).fst, s.accepted, s.waiting⟩, buffers⟩ := by
    rw [← pollFlush_fst]
    rfl
  rw [hstep]
  cases h.stage with
  | idle hbuf hconsumed hfresh hreceived =>
    rw [pollDrainWriteBuf_nil hbuf]
    exact ⟨h.sameUuid, h.contents, .idle rfl hconsumed hfresh hreceived⟩
  | busy buf command hwaiting hne hconsumed hfresh hstaged =>
    rw [hwaiting]
    cases hstaged with
    | partly hbuf hpos hreceived =>
      rcases once_drain buffers pieces buf answers s.stream s.accepted command _ rfl hne
        h.sameUuid h.contents hbuf hconsumed hfresh hreceived with
        ⟨drained, rest, hdrain, huuid, hnil, hlater, hlen, hsent⟩
          | ⟨moved, result, rest, hdrain, _, honce⟩
      . rw [hdrain]
        exact ⟨huuid, h.contents, .busy buf command rfl hne hlen hlater (.spent hnil hsent)⟩
      . rw [hdrain]
        exact honce
    | spent hbuf hreceived =>
      rw [pollDrainWriteBuf_nil hbuf]
      exact ⟨h.sameUuid, h.contents,
        .busy buf command rfl hne hconsumed hfresh (.spent rfl hreceived)⟩

end

end

theorem once_readDirect {ε : Type} (h : Once uuid r pieces)
    : Once uuid (r.step (.readDirect : Event ε)) pieces := by
  refine ⟨h.sameUuid, h.contents, ?_⟩
  cases h.stage with
  | idle hbuf hconsumed hfresh hreceived => exact .idle hbuf hconsumed hfresh hreceived
  | busy buf command hwaiting hne hconsumed hfresh hstaged =>
    refine .busy buf command hwaiting hne hconsumed hfresh ?_
    cases hstaged with
    | partly hbuf hpos hreceived => exact .partly hbuf hpos hreceived
    | spent hbuf hreceived => exact .spent hbuf hreceived

theorem once_new
    : Once uuid (.new uuid serverInbound) [] :=
  ⟨rfl, rfl, .idle rfl rfl rfl rfl⟩

def partFlush : List (Event Unit) :=
  [.write [97, 98] [.ready (.ok 10), .pending], .flush [.ready (.ok 3)] (.ready (.ok ())),
    .write [97, 98] [.ready (.ok 10)], .write [99] []]

def wholeFlush : List (Event Unit) :=
  [.write [97, 98] [.pending], .flush [.ready (.ok 23)] (.ready (.ok ())),
    .write [97, 98] [.ready (.ok 7)]]

end Blackwire.Vision
