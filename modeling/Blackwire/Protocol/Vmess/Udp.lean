import Blackwire.Common.Reading
import Blackwire.Protocol.Vmess.Stream

/-!
This module contains the relay between a VMess stream and a UDP socket. Every chunk of the client is
a datagram, and a datagram from the remote is cut into as many chunks as it needs.
-/

namespace Blackwire.Vmess

open Bytes

def udpPayloadLen : Nat := 65507

def streamErrorText : StreamError IoError → String
  | .invalidData message => message
  | .writeZero message => message
  | .inner e => e.text

inductive UdpPhase where
  | selecting
  | writing (rest : Bytes)
  | flushing
  | closing (result : Except ProxyError Unit)
  | ended (result : Except ProxyError Unit)
deriving DecidableEq

/--
Both halves of the stream, where `script` is what the inner stream is still going to answer to
reads, and where the session of the writer also has the chunks so far. The datagrams in both
directions are recorded for the specification only.
-/
structure UdpRelay where
  reader : ReadHalf
  script : Script UInt8 (StreamError IoError)
  writer : Framer.Session WriteHalf (Nat → UInt8) UInt8
  phase : UdpPhase
  flushPending : Bool
  sent : List Bytes
  received : List Bytes

inductive UdpEvent where
  | read (sent : Except String Unit)
  | readElapsed
  | recv (result : Except String Bytes)
  | write (random : Nat → UInt8) (answers : List (Poll (Except (StreamError IoError) Nat)))
  | tick
  | flush (answers : List (Poll (Except (StreamError IoError) Nat)))
      (inner : Poll (Except (StreamError IoError) Unit))

namespace UdpRelay

def new (stream : VmessStream) (script : Script UInt8 (StreamError IoError)) : UdpRelay :=
  ⟨stream.reader, script, .new stream.writer.core, .selecting, false, [], []⟩

def leave (s : UdpRelay) (result : Except ProxyError Unit) : UdpRelay :=
  { s with phase := if s.flushPending then .closing result else .ended result }

variable (a : Aead) (h : Hashes)

def readClient (s : UdpRelay) (sent : Except String Unit) : UdpRelay :=
  match (deframer a h).pollRead udpPayloadLen s.reader s.script with
  | (reader, .pending, script) => { s with reader, script }
  | (reader, .ready (.error e), script) =>
    if e = .inner .unexpectedEof then
      leave { s with reader, script } (.ok ())
    else
      leave { s with reader, script } (.error (.transport (streamErrorText e)))
  | (reader, .ready (.ok bytes), script) =>
    if bytes.isEmpty then
      leave { s with reader, script } (.ok ())
    else
      match sent with
      | .error e => leave { s with reader, script } (.error (.transport ("VMess UDP send: " ++ e)))
      | .ok _ => { s with reader, script, sent := s.sent ++ [bytes] }

def recvRemote (s : UdpRelay) : Except String Bytes → UdpRelay
  | .error e => s.leave (.error (.transport e))
  | .ok data =>
    if data.isEmpty then
      s
    else
      { s with phase := .writing data, received := s.received ++ [data] }

def writeClient (s : UdpRelay) (rest : Bytes) (random : Nat → UInt8)
    (answers : List (Poll (Except (StreamError IoError) Nat))) : UdpRelay :=
  let writer := s.writer.step (framer a h) (.write random rest answers)
  match ((framer a h).pollWrite s.writer.out random rest answers).snd with
  | .pending => { s with writer }
  | .ready (.error e) => leave { s with writer } (.error (.transport (streamErrorText e)))
  | .ready (.ok n) =>
    if n = 0 then
      leave { s with writer } (.error (.transport "failed to write whole buffer"))
    else if (rest.drop n).isEmpty then
      { s with writer, phase := .selecting, flushPending := true }
    else
      { s with writer, phase := .writing (rest.drop n) }

def flushClient (s : UdpRelay) (answers : List (Poll (Except (StreamError IoError) Nat)))
    (inner : Poll (Except (StreamError IoError) Unit))
    (next : Except (StreamError IoError) Unit → UdpRelay → UdpRelay) : UdpRelay :=
  let writer := s.writer.step (framer a h) (.flush answers inner)
  match ((framer a h).pollFlush s.writer.out answers inner).snd with
  | .pending => { s with writer }
  | .ready result => next result { s with writer }

def flushed : Except (StreamError IoError) Unit → UdpRelay → UdpRelay
  | .error e, s => s.leave (.error (.transport (streamErrorText e)))
  | .ok _, s => { s with phase := .selecting, flushPending := false }

def closed (result : Except ProxyError Unit)
    : Except (StreamError IoError) Unit → UdpRelay → UdpRelay
  | .error e, s => { s with phase := .ended (.error (.transport (streamErrorText e))) }
  | .ok _, s => { s with phase := .ended result }

def step (s : UdpRelay) (e : UdpEvent) : UdpRelay :=
  match s.phase, e with
  | .selecting, .read sent => s.readClient a h sent
  | .selecting, .readElapsed => s.leave (.ok ())
  | .selecting, .recv result => s.recvRemote result
  | .selecting, .tick => if s.flushPending then { s with phase := .flushing } else s
  | .writing rest, .write random answers => s.writeClient a h rest random answers
  | .flushing, .flush answers inner => s.flushClient a h answers inner flushed
  | .closing result, .flush answers inner => s.flushClient a h answers inner (closed result)
  | _, _ => s

end UdpRelay

open Framer
open List hiding Vector

namespace UdpPhase

def rest : UdpPhase → Bytes
  | writing rest => rest
  | _ => []

def isOver : UdpPhase → Bool
  | closing _ => true
  | ended _ => true
  | _ => false

end UdpPhase

theorem limit_framer (a : Aead) (h : Hashes)
    : (framer (ε := IoError) a h).limit = maxChunkSize := by
  rfl

theorem length_take_maxChunkSize {buf : Bytes} (h : buf ≠ [])
    : (buf.take maxChunkSize).length ≠ 0 := by
  have hpos := length_pos_iff.mpr h
  rw [length_take]
  unfold maxChunkSize
  omega

theorem drop_length_take_maxChunkSize (buf : Bytes)
    : buf.drop (buf.take maxChunkSize).length = buf.drop maxChunkSize := by
  rw [length_take, ← drop_eq_drop_min]

namespace UdpRelay

variable {a : Aead}

theorem isOver_leave (s : UdpRelay) (result : Except ProxyError Unit)
    : (s.leave result).phase.isOver = true := by
  unfold leave
  split <;> rfl

section

variable (a h)

structure Cut (start : WriteHalf) (s : UdpRelay) : Prop where
  nonempty : ∀ data ∈ s.received, data ≠ []
  framed : ∃ chunks, Session.Framed (framer (ε := IoError) a h) start s.writer chunks
  chunks : (s.writer.accepted ++ s.writer.failed.toList).map Prod.snd
    <+: s.received.flatMap (cuts maxChunkSize)
  going : s.phase.isOver = false → s.writer.failed = none
    ∧ s.writer.accepted.map Prod.snd ++ cuts maxChunkSize s.phase.rest
      = s.received.flatMap (cuts maxChunkSize)
  writing : s.phase ≠ .writing []

end

namespace Cut

section

variable (hs : Cut a h start s)
include hs

theorem of_same (hwriter : t.writer = s.writer)
    (hreceived : t.received = s.received)
    (hphase : t.phase.isOver = true ∨ t.phase.isOver = s.phase.isOver ∧ t.phase.rest = s.phase.rest
      ∧ t.phase ≠ .writing [])
    : Cut a h start t where
  nonempty := by
    rw [hreceived]
    exact hs.nonempty
  framed := by
    rw [hwriter]
    exact hs.framed
  chunks := by
    rw [hwriter, hreceived]
    exact hs.chunks
  going hgoing := by
    rcases hphase with hover | ⟨hsame, hrest, _⟩
    . rw [hover] at hgoing
      cases hgoing
    . rw [hwriter, hreceived, hrest]
      exact hs.going (hsame.symm.trans hgoing)
  writing hwriting := by
    rcases hphase with hover | ⟨_, _, hne⟩
    . rw [hwriting] at hover
      cases hover
    . exact hne hwriting

theorem leave
    : Cut a h start (s.leave result) :=
  hs.of_same rfl rfl (.inl (isOver_leave s result))

theorem readClient {sent : Except String Unit}
    : Cut a h start (s.readClient a h sent) := by
  have hkept (reader : ReadHalf) (script : Script UInt8 (StreamError IoError)) (sent : List Bytes)
      : Cut a h start { s with reader, script, sent } :=
    hs.of_same rfl rfl (.inr ⟨rfl, rfl, hs.writing⟩)
  unfold UdpRelay.readClient
  split
  next => exact hkept _ _ _
  next =>
    split
    next => exact (hkept _ _ _).leave
    next => exact (hkept _ _ _).leave
  next =>
    split
    next => exact (hkept _ _ _).leave
    split
    next => exact (hkept _ _ _).leave
    next => exact hkept _ _ _

theorem recvRemote (hphase : s.phase = .selecting)
    : Cut a h start (s.recvRemote result) := by
  unfold UdpRelay.recvRemote
  split
  next => exact hs.leave
  next data =>
    split
    next => exact hs
    next hempty =>
      have hne : data ≠ [] := by simpa using hempty
      have hall : (s.received ++ [data]).flatMap (cuts maxChunkSize)
          = s.received.flatMap (cuts maxChunkSize) ++ cuts maxChunkSize data := by
        rw [flatMap_append, flatMap_singleton]
      refine ⟨?_, hs.framed, ?_, ?_, ?_⟩
      . intro d hd
        rcases mem_append.mp hd with hold | hnew
        . exact hs.nonempty d hold
        . rw [mem_singleton.mp hnew]
          exact hne
      . dsimp only
        rw [hall]
        exact hs.chunks.trans (prefix_append _ _)
      . intro _
        have hrest : s.phase.rest = [] := by
          rw [hphase]
          rfl
        rcases hs.going (by rw [hphase]; rfl) with ⟨hfailed, hcut⟩
        refine ⟨hfailed, ?_⟩
        rw [hrest, cuts_nil, append_nil] at hcut
        rw [hall, ← hcut]
        rfl
      . intro hwriting
        cases hwriting
        exact hne rfl

theorem writeClient (hphase : s.phase = .writing rest)
    : Cut a h start (s.writeClient a h rest random answers) := by
  have hne : rest ≠ [] := by
    intro hnil
    rw [hnil] at hphase
    exact hs.writing hphase
  rcases hs.going (by rw [hphase]; rfl) with ⟨hnone, hcut⟩
  rw [hphase, UdpPhase.rest, cuts_of_ne_nil (by decide) hne] at hcut
  rcases hs.framed with ⟨chunks, hchunks⟩
  have hframed := Session.framed_write framer_ok hchunks hnone random rest answers
  have hrecorded := s.writer.recorded_write (f := framer a h) random rest answers
  unfold UdpRelay.writeClient
  generalize s.writer.step (framer a h) (.write random rest answers) = writer
    at hframed hrecorded ⊢
  generalize ((framer a h).pollWrite s.writer.out random rest answers).snd = result
    at hrecorded ⊢
  cases hrecorded with
  | waits haccepted hfailed =>
    refine ⟨hs.nonempty, hframed, ?_, ?_, hs.writing⟩
    . dsimp only
      rw [haccepted, hfailed]
      exact hs.chunks
    . intro hgoing
      rw [haccepted, hfailed]
      exact hs.going hgoing
  | fails e haccepted hfailed =>
    refine ⟨hs.nonempty, hframed, ?_, ?_, ?_⟩
    . dsimp only [UdpRelay.leave]
      rw [haccepted, hfailed, ← hcut, map_append]
      apply (prefix_append_right_inj _).mpr
      exact ⟨_, rfl⟩
    . intro hgoing
      rw [isOver_leave] at hgoing
      cases hgoing
    . intro hwriting
      have hover := isOver_leave { s with writer := writer }
        (.error (.transport (streamErrorText e)))
      rw [hwriting] at hover
      cases hover
  | accepts haccepted hfailed =>
    have hcut' : writer.accepted.map Prod.snd ++ cuts maxChunkSize (rest.drop maxChunkSize)
        = s.received.flatMap (cuts maxChunkSize) := by
      rw [← hcut, haccepted, map_append, append_assoc]
      rfl
    have hpre : (writer.accepted ++ writer.failed.toList).map Prod.snd
        <+: s.received.flatMap (cuts maxChunkSize) := by
      rw [hfailed, hnone, Option.toList_none, append_nil, ← hcut']
      apply prefix_append
    dsimp only
    rw [limit_framer, if_neg (length_take_maxChunkSize hne), drop_length_take_maxChunkSize]
    split
    next hempty =>
      refine ⟨hs.nonempty, hframed, hpre, ?_, ?_⟩
      . intro _
        rw [isEmpty_iff.mp hempty] at hcut'
        exact ⟨hfailed.trans hnone, hcut'⟩
      . intro hwriting
        cases hwriting
    next hmore =>
      refine ⟨hs.nonempty, hframed, hpre, ?_, ?_⟩
      . intro _
        exact ⟨hfailed.trans hnone, hcut'⟩
      . intro hwriting
        rw [UdpPhase.writing.injEq] at hwriting
        exact hmore (isEmpty_iff.mpr hwriting)

theorem flushWriter {inner : Poll (Except (StreamError IoError) Unit)}
    : Cut a h start
        { s with writer := s.writer.step (framer a h) (.flush answers inner) } where
  nonempty := hs.nonempty
  framed := by
    rcases hs.framed with ⟨chunks, hchunks⟩
    exact ⟨chunks, Session.framed_flush hchunks⟩
  chunks := hs.chunks
  going := hs.going
  writing := hs.writing

theorem flushClient
    {answers : List (Poll (Except (StreamError IoError) Nat))}
    {inner : Poll (Except (StreamError IoError) Unit)}
    {next : Except (StreamError IoError) Unit → UdpRelay → UdpRelay}
    (hnext : ∀ result t, t.phase = s.phase → Cut a h start t → Cut a h start (next result t))
    : Cut a h start (s.flushClient a h answers inner next) := by
  unfold UdpRelay.flushClient
  split
  next => exact hs.flushWriter
  next => exact hnext _ _ rfl hs.flushWriter

theorem flushed (hphase : s.phase = .flushing)
    : Cut a h start (UdpRelay.flushed result s) := by
  cases result with
  | error e => exact hs.leave
  | ok _ =>
    refine hs.of_same rfl rfl (.inr ?_)
    rw [hphase]
    exact ⟨rfl, rfl, nofun⟩

theorem closed
    : Cut a h start (UdpRelay.closed result answer s) := by
  cases answer with
  | error e => exact hs.of_same rfl rfl (.inl rfl)
  | ok _ => exact hs.of_same rfl rfl (.inl rfl)

theorem step (e : UdpEvent) : Cut a h start (s.step a h e) := by
  unfold UdpRelay.step
  split
  next => exact hs.readClient
  next => exact hs.leave
  next hphase => exact hs.recvRemote hphase
  next hphase =>
    split
    next =>
      refine hs.of_same rfl rfl (.inr ?_)
      rw [hphase]
      exact ⟨rfl, rfl, nofun⟩
    next => exact hs
  next rest random answers hphase => exact hs.writeClient hphase
  next answers inner hphase =>
    refine hs.flushClient ?_
    intro result t ht hcut
    exact hcut.flushed (ht.trans hphase)
  next result answers inner hphase =>
    refine hs.flushClient ?_
    intro answer t _ hcut
    exact hcut.closed
  next => exact hs

end

theorem new (stream : VmessStream) (script : Script UInt8 (StreamError IoError))
    : Cut a h stream.writer.core (.new stream script) where
  nonempty := nofun
  framed := ⟨[], .inl rfl, rfl, rfl⟩
  chunks := prefix_rfl
  going _ := ⟨rfl, cuts_nil⟩
  writing := nofun

end Cut

section

variable (a h)

structure Remaining (contents : List Bytes) (whole : Prop) (s : UdpRelay)
    (frames : List (Frame UInt8)) : Prop where
  ready : Deframer.Ready ReadHalf.readRawBuf (Synced IoError a h) s.reader s.script frames
  between : (deframer (ε := IoError) a h).avail s.reader = []
  whole : whole → s.reader.readRawBuf ++ s.script.bytes = Frame.wires frames
  sizes : ∀ frame ∈ frames, frame.content ≠ [] ∧ frame.content.length ≤ udpPayloadLen
  contents : s.sent ++ frames.map Frame.content = contents

structure Forwards (contents : List Bytes) (whole : Prop) (s : UdpRelay) : Prop where
  sent : s.sent <+: contents
  going : s.phase.isOver = false → ∃ frames, Remaining a h contents whole s frames

end

structure KeepsReader (s t : UdpRelay) : Prop where
  reader : t.reader = s.reader
  script : t.script = s.script
  sent : t.sent = s.sent
  going : t.phase.isOver = false → s.phase.isOver = false

theorem keepsReader_leave
    : KeepsReader s (s.leave result) where
  reader := rfl
  script := rfl
  sent := rfl
  going hgoing := by
    rw [isOver_leave] at hgoing
    cases hgoing

theorem keepsReader_recvRemote (hphase : s.phase = .selecting)
    : KeepsReader s (s.recvRemote result) := by
  unfold recvRemote
  split
  next => apply keepsReader_leave
  split
  next => exact ⟨rfl, rfl, rfl, id⟩
  next => exact ⟨rfl, rfl, rfl, fun _ => by rw [hphase]; rfl⟩

theorem keepsReader_writeClient (hphase : s.phase = .writing rest)
    : KeepsReader s (s.writeClient a h rest random answers) := by
  have hgoing : s.phase.isOver = false := by
    rw [hphase]
    rfl
  have hleave (writer : Session WriteHalf (Nat → UInt8) UInt8) (result : Except ProxyError Unit)
      : KeepsReader s (leave { s with writer := writer } result) :=
    ⟨rfl, rfl, rfl, fun _ => hgoing⟩
  unfold writeClient
  split
  next => exact ⟨rfl, rfl, rfl, id⟩
  next => apply hleave
  split
  next => apply hleave
  split
  next => exact ⟨rfl, rfl, rfl, fun _ => hgoing⟩
  next => exact ⟨rfl, rfl, rfl, fun _ => hgoing⟩

theorem keepsReader_flushClient (answers : List (Poll (Except (StreamError IoError) Nat)))
    (inner : Poll (Except (StreamError IoError) Unit))
    {next : Except (StreamError IoError) Unit → UdpRelay → UdpRelay}
    (hnext : ∀ result t, t.phase = s.phase → KeepsReader t (next result t))
    : KeepsReader s (s.flushClient a h answers inner next) := by
  unfold flushClient
  split
  next => exact ⟨rfl, rfl, rfl, id⟩
  next result _ =>
    have hkept := hnext result
      { s with writer := s.writer.step (framer a h) (.flush answers inner) } rfl
    exact ⟨hkept.reader, hkept.script, hkept.sent, hkept.going⟩

theorem keepsReader_flushed (hphase : s.phase = .flushing)
    : KeepsReader s (flushed result s) := by
  cases result with
  | error e => apply keepsReader_leave
  | ok _ => exact ⟨rfl, rfl, rfl, fun _ => by rw [hphase]; rfl⟩

theorem keepsReader_closed
    : KeepsReader s (closed result answer s) := by
  cases answer with
  | error e => exact ⟨rfl, rfl, rfl, nofun⟩
  | ok _ => exact ⟨rfl, rfl, rfl, nofun⟩

namespace Forwards

variable {whole : Prop}

theorem of_keeps (hs : Forwards a h contents whole s) (hkept : KeepsReader s t)
    : Forwards a h contents whole t where
  sent := by
    rw [hkept.sent]
    exact hs.sent
  going hgoing := by
    rcases hs.going (hkept.going hgoing) with ⟨frames, hframes⟩
    refine ⟨frames, ?_, ?_, ?_, hframes.sizes, ?_⟩
    . rw [hkept.reader, hkept.script]
      exact hframes.ready
    . rw [hkept.reader]
      exact hframes.between
    . rw [hkept.reader, hkept.script]
      exact hframes.whole
    . rw [hkept.sent]
      exact hframes.contents

theorem of_leave (s : UdpRelay) (hsent : s.sent <+: contents) (result : Except ProxyError Unit)
    : Forwards a h contents whole (s.leave result) where
  sent := hsent
  going hgoing := by
    rw [isOver_leave] at hgoing
    cases hgoing

end Forwards

variable {contents : List Bytes} {whole : Prop}

theorem Remaining.readClient (ha : a.Lawful) (hs : Remaining a h contents whole s frames)
    {sent : Except String Unit}
    : Forwards a h contents whole (s.readClient a h sent) := by
  have hfront : s.sent <+: contents := ⟨_, hs.contents⟩
  rcases (follows ha).step_pollRead (show 0 < udpPayloadLen by decide) hs.ready with
    ⟨frames', hstep⟩
  rcases hstep.whole hs.between (fun frame hframe => (hs.sizes frame hframe).right) with
    ⟨hbetween, hwhole⟩
  have hnext (result : List Bytes) (hresult : result ++ frames'.map Frame.content = contents)
      : Forwards a h contents whole
          { s with
            reader := ((deframer a h).pollRead udpPayloadLen s.reader s.script).fst
            script := ((deframer a h).pollRead udpPayloadLen s.reader s.script).snd.snd
            sent := result } :=
    ⟨⟨_, hresult⟩, fun _ => ⟨frames', hstep.ready hs.ready, hbetween,
      fun hw => hstep.whole_next (hs.whole hw),
      fun frame hframe => hs.sizes frame (hwhole.subset hframe), hresult⟩⟩
  have hcontents := hwhole.contents
  unfold UdpRelay.readClient
  generalize (deframer a h).pollRead udpPayloadLen s.reader s.script = polled
    at hwhole hnext hcontents
  rcases polled with ⟨reader, result, script⟩
  have hleave (result : Except ProxyError Unit)
      : Forwards a h contents whole (leave { s with reader := reader, script := script } result) :=
    .of_leave { s with reader := reader, script := script } hfront result
  match result with
  | .pending =>
    apply hnext
    rw [← hs.contents, hcontents]
    rfl
  | .ready (.error e) =>
    dsimp only
    split
    next => apply hleave
    next => apply hleave
  | .ready (.ok bytes) =>
    dsimp only
    split
    next => apply hleave
    cases sent with
    | error e => apply hleave
    | ok _ =>
      apply hnext
      rw [← hs.contents, hcontents, append_assoc]
      rfl

theorem Forwards.step (ha : a.Lawful) (hs : Forwards a h contents whole s) (e : UdpEvent)
    : Forwards a h contents whole (s.step a h e) := by
  unfold UdpRelay.step
  split
  next hphase =>
    rcases hs.going (by rw [hphase]; rfl) with ⟨frames, hframes⟩
    exact hframes.readClient ha
  next => exact hs.of_keeps keepsReader_leave
  next hphase => exact hs.of_keeps (keepsReader_recvRemote hphase)
  next hphase =>
    split
    next => exact hs.of_keeps ⟨rfl, rfl, rfl, fun _ => by rw [hphase]; rfl⟩
    next => exact hs
  next rest random answers hphase =>
    exact hs.of_keeps (keepsReader_writeClient hphase)
  next answers inner hphase =>
    apply hs.of_keeps
    apply keepsReader_flushClient
    intro result t ht
    exact keepsReader_flushed (ht.trans hphase)
  next result answers inner hphase =>
    apply hs.of_keeps
    apply keepsReader_flushClient
    intro answer t _
    exact keepsReader_closed
  next => exact hs

theorem Cut.reads (ha : a.Lawful) (hs : Cut a h start s) (client : ReadHalf)
    (hclient : client = ⟨start.body, [], [], 0, none⟩) (script : Script UInt8 (StreamError IoError))
    (hflowing : script.Flowing) (hscript : script.bytes <+: s.writer.out.received) (caps : List Nat)
    (hcaps : ∀ cap ∈ caps, maxChunkSize ≤ cap)
    : ((deframer a h).run caps client script).flatMap given
          <+: s.received.flatMap (cuts maxChunkSize)
      ∧ (s.phase = .selecting → s.writer.out.queue = [] → script.bytes = s.writer.out.received →
        s.writer.accepted.length + script.length ≤ caps.length →
          ((deframer a h).run caps client script).flatMap given
            = s.received.flatMap (cuts maxChunkSize)) := by
  rcases hs.framed with ⟨chunks, hframed⟩
  have hfront : chunks.map Prod.snd <+: s.received.flatMap (cuts maxChunkSize) :=
    (hframed.chunks_prefix.map Prod.snd).trans hs.chunks
  have hsizes : ∀ chunk ∈ chunks.map Prod.snd, chunk.length ≤ maxChunkSize := by
    intro chunk hchunk
    rcases mem_flatMap.mp (hfront.subset hchunk) with ⟨data, _, hcut⟩
    exact length_le_of_mem_cuts hcut
  have hcontents := map_content_chunkFrames (ε := IoError) (a := a) (h := h) start chunks
  have hwires := hframed.frames
  rw [framed_eq] at hwires
  have hsynced : Synced IoError a h client (chunkFrames a h IoError start chunks) := by
    rw [hclient]
    refine ⟨start, chunks, rfl, encodable_of_length start chunks ?_, .size rfl rfl⟩
    intro chunk hchunk
    exact hsizes chunk.snd (mem_map_of_mem hchunk)
  have hbetween : (deframer (ε := IoError) a h).avail client = [] := by
    rw [hclient]
    rfl
  have hraw : client.readRawBuf ++ script.bytes = script.bytes := by
    rw [hclient]
    rfl
  have hpos : ∀ cap ∈ caps, 0 < cap := fun cap hcap =>
    Nat.lt_of_lt_of_le (by decide) (hcaps cap hcap)
  have hfit : ∀ cap ∈ caps, ∀ frame ∈ chunkFrames a h IoError start chunks,
      frame.content.length ≤ cap := by
    intro cap hcap frame hframe
    have hmem := mem_map_of_mem (f := Frame.content) hframe
    rw [hcontents] at hmem
    exact (hsizes frame.content hmem).trans (hcaps cap hcap)
  have hready : Deframer.Ready ReadHalf.readRawBuf (Synced IoError a h) client script
      (chunkFrames a h IoError start chunks) := by
    refine ⟨hsynced, hflowing, ?_⟩
    rw [hraw, ← hwires]
    exact hscript.trans (prefix_append _ _)
  refine ⟨?_, ?_⟩
  . have hpre := (follows ha).run_frames_isPrefix hpos hfit hready hbetween
    rw [hcontents] at hpre
    exact hpre.trans hfront
  . intro hphase hqueue hall hlong
    rcases hs.going (by rw [hphase]; rfl) with ⟨hfailed, hcut⟩
    have hrest : s.phase.rest = [] := by
      rw [hphase]
      rfl
    have hchunks := hframed.eq_accepted hfailed
    rw [hrest, cuts_nil, append_nil, ← hchunks] at hcut
    rw [← hcut, ← hcontents]
    apply (follows ha).run_frames_whole hpos hfit hready hbetween
    . rw [hraw, ← hwires, hqueue, append_nil, hall]
    . rw [← length_map, hcontents, length_map, hchunks]
      exact hlong

theorem Remaining.sent_eq (ha : a.Lawful) (hs : Remaining a h contents whole s frames)
    (hwhole : whole) (hscript : s.script = [])
    (hwaits : ((deframer a h).pollRead udpPayloadLen s.reader s.script).snd.fst = .pending)
    : s.sent = contents := by
  have hfit : ∀ frame ∈ frames, frame.content.length ≤ udpPayloadLen := fun frame hframe =>
    (hs.sizes frame hframe).right
  rcases (follows ha).step_pollRead (show 0 < udpPayloadLen by decide) hs.ready with
    ⟨frames', hstep⟩
  have hfewer := hstep.fewer (hs.whole hwhole) hs.between hfit
  have htook := (hstep.whole hs.between hfit).right
  rw [hwaits] at htook
  cases htook with
  | nothing =>
    rcases hfewer with hlt | hnil
    . rw [hscript, length_nil] at hlt
      omega
    . rw [← hs.contents, hnil, map_nil, append_nil]

variable (a h) in
def Waits (s : UdpRelay) : Prop :=
  s.phase = .selecting ∧ s.script = []
    ∧ ((deframer a h).pollRead udpPayloadLen s.reader s.script).snd.fst = .pending

instance (s : UdpRelay) : Decidable (Waits a h s) :=
  inferInstanceAs (Decidable (_ ∧ _ ∧ _))

end UdpRelay

theorem vmess_udp_boundaries_iff (a : Aead) (ha : a.Lawful) (h : Hashes)
    (key iv : Vector UInt8 16) (security : Security) (options : UInt8)
    (chunks : List ((Nat → UInt8) × Bytes))
    (hchunks : ∀ chunk ∈ chunks, chunk.snd ≠ [] ∧ chunk.snd.length ≤ 65507)
    (hencodable : Encodable IoError a h (VmessStream.client h key iv security options).writer.core
      chunks)
    (script : Script UInt8 (StreamError IoError)) (hflowing : script.Flowing)
    (hscript : script.bytes <+: Frame.wires (chunkFrames a h IoError
      (VmessStream.client h key iv security options).writer.core chunks))
    (s : UdpRelay)
    (hs : Machine.Reach (UdpRelay.step a h) (fun _ _ => True)
      (.new (VmessStream.server h key iv security options) script) s)
    : (s.sent <+: chunks.map Prod.snd
        ∧ (s.Waits a h → script.bytes = Frame.wires (chunkFrames a h IoError
            (VmessStream.client h key iv security options).writer.core chunks) →
          s.sent = chunks.map Prod.snd))
      ∧ ∀ (delivered : Script UInt8 (StreamError IoError)) (caps : List Nat), delivered.Flowing →
        delivered.bytes <+: s.writer.out.received → (∀ cap ∈ caps, maxChunkSize ≤ cap) →
        let reads := ((deframer a h).run caps
          (VmessStream.client h key iv security options).reader delivered).flatMap given
        ((∀ data ∈ s.received, data.length ≤ maxChunkSize) → reads <+: s.received)
          ∧ (s.phase = .selecting → s.writer.out.queue = [] →
            delivered.bytes = s.writer.out.received →
            s.writer.accepted.length + delivered.length ≤ caps.length →
              (reads = s.received ↔ ∀ data ∈ s.received, data.length ≤ maxChunkSize)) := by
  have hforwards : s.Forwards a h (chunks.map Prod.snd) (script.bytes = Frame.wires (chunkFrames a h
      IoError (VmessStream.client h key iv security options).writer.core chunks)) := by
    refine hs.invariant _ _ s ⟨ nil_prefix, fun _ => ?_⟩ fun t e ht _ => ht.step ha e
    refine ⟨_, ⟨⟨_, chunks, rfl, hencodable, .size rfl rfl⟩, hflowing, hscript⟩, rfl, fun hw => hw,
      ?_, map_content_chunkFrames _ chunks⟩
    intro frame hframe
    have hmem := mem_map_of_mem (f := Frame.content) hframe
    rw [map_content_chunkFrames] at hmem
    rcases mem_map.mp hmem with ⟨chunk, hchunk, hcontent⟩
    rw [← hcontent]
    exact hchunks chunk hchunk
  have hcut : s.Cut a h (VmessStream.server h key iv security options).writer.core := by
    apply hs.invariant _ _ s (.new _ script)
    intro t e ht _
    exact ht.step e
  refine ⟨⟨hforwards.sent, ?_⟩, ?_⟩
  . rintro ⟨hphase, hnil, hwaits⟩ hwhole
    rcases hforwards.going (by rw [hphase]; rfl) with ⟨frames, hframes⟩
    exact hframes.sent_eq ha hwhole hnil hwaits
  . intro delivered caps hdelivered hfront hcaps
    have hone := flatMap_cuts_eq_iff maxChunkSize (by decide) s.received hcut.nonempty
    rcases hcut.reads ha (VmessStream.client h key iv security options).reader rfl delivered
      hdelivered hfront caps hcaps with ⟨hpre, hall⟩
    refine ⟨?_, ?_⟩
    . intro hfit
      rw [hone.mpr hfit] at hpre
      exact hpre
    . intro hphase hqueue hbytes hlong
      rw [← hone, hall hphase hqueue hbytes hlong]

def smallRun : List UdpEvent :=
  [.read (.ok ()), .read (.ok ()), .recv (.ok [9, 8]),
    .write UInt8.ofNat [.ready (.ok 3), .pending], .tick,
    .flush [.ready (.ok 1)] (.ready (.ok ()))]

def smallScript : Script UInt8 (StreamError IoError) :=
  [.ready (.ok [0]), .pending, .ready (.ok [2, 104]), .ready (.ok [105])]

theorem vmess_udp_boundaries_iff_small
    : let s := smallRun.foldl (UdpRelay.step (Aead.ofTable []) someHashes)
        (.new (VmessStream.server someHashes someKey someIv .none 0) smallScript)
      s.sent = [[104, 105]] ∧ s.received = [[9, 8]]
        ∧ ((deframer (ε := IoError) (Aead.ofTable []) someHashes).run [16384, 16384]
            (VmessStream.client someHashes someKey someIv .none 0).reader
            [.ready (.ok s.writer.out.received)]).flatMap given
          = s.received := by
  have hall := vmess_udp_boundaries_iff (Aead.ofTable [])
    (Aead.lawful_ofTable [] (by decide +kernel)) someHashes someKey someIv .none 0
    [(UInt8.ofNat, [104, 105])] (by decide) ⟨rfl, trivial⟩
    smallScript (by decide +kernel) (by decide +kernel) _
    (Machine.Reach.foldl _ smallRun .start (by decide +kernel))
  refine ⟨?_, by decide +kernel, ?_⟩
  . exact hall.left.right (by decide +kernel) (by decide +kernel)
  . apply ((hall.right _ [16384, 16384] (by decide +kernel) (by decide +kernel) (by decide)).right
      (by decide +kernel) (by decide +kernel) (by decide +kernel) (by decide +kernel)).mpr
    decide +kernel

def atOnce : UdpEvent :=
  .write UInt8.ofNat [.ready (.ok 65536)]

theorem UdpRelay.step_atOnce (ha : a.Lawful) (s : UdpRelay) (rest : Bytes)
    (hphase : s.phase = .writing rest) (hrest : rest ≠ []) (hqueue : s.writer.out.queue = [])
    : let t := s.step a h atOnce
      t.writer.out.queue = [] ∧ t.writer.out.received ≠ [] ∧ t.received = s.received
        ∧ t.writer.accepted = s.writer.accepted ++ [(UInt8.ofNat, rest.take maxChunkSize)]
        ∧ t.phase
          = if (rest.drop maxChunkSize).isEmpty then .selecting
            else .writing (rest.drop maxChunkSize) := by
  have hsmall : (rest.take maxChunkSize).length ≤ 16384 := length_take_le _ _
  rcases exists_sized (ε := IoError) (a := a) (h := h) s.writer.out.core.body
    hsmall with ⟨paddingLen, field, b', hsized⟩
  have hfield := hsized.length_field ha
  have hbounds := b'.sizeFieldLen_bounds
  have hframe := hsized.append_eq s.writer.out.core.chunks s.writer.out.core.uses UInt8.ofNat
  have hlength : (field ++ s.writer.out.core.body.cipher.encryptAppend a
      (chunkNonce s.writer.out.core.body.counter s.writer.out.core.body.iv)
      (rest.take maxChunkSize) ++ (range paddingLen).map UInt8.ofNat).length ≤ 65536 := by
    have hpadding := s.writer.out.core.body.nextPaddingLen_lt (h := h)
    have hoverhead := Body.overhead_le s.writer.out.core.body.cipher
    rw [hsized.padding] at hpadding
    rw [length_append, length_append, Body.length_encryptAppend ha, length_map,
      length_range]
    omega
  have hne : field ≠ [] := length_pos_iff.mp (by omega)
  have hwrite := Framer.pollWrite_at_once (framer (ε := IoError) a h) s.writer.out hqueue
    UInt8.ofNat rest _ _ hframe (by simp [hne]) 65535 hlength
  unfold UdpRelay.step atOnce
  rw [hphase]
  unfold UdpRelay.writeClient Framer.Session.step
  dsimp only
  rw [hwrite]
  dsimp only
  rw [limit_framer, if_neg (length_take_maxChunkSize hrest), drop_length_take_maxChunkSize,
    length_take, ← take_eq_take_min]
  split
  next => exact ⟨rfl, by simp [hne], rfl, rfl, rfl⟩
  next => exact ⟨rfl, by simp [hne], rfl, rfl, rfl⟩

theorem UdpRelay.seen_in_two (ha : a.Lawful) (stream : VmessStream) (client : ReadHalf)
    (hclient : client = ⟨stream.writer.core.body, [], [], 0, none⟩) (data : Bytes)
    (hlong : maxChunkSize < data.length) (hshort : data.length ≤ 2 * maxChunkSize)
    : let s := [UdpEvent.recv (.ok data), atOnce, atOnce].foldl (UdpRelay.step a h) (.new stream [])
      s.received = [data]
        ∧ ((deframer (ε := IoError) a h).run [65535, 65535, 65535] client
            [.ready (.ok s.writer.out.received)]).flatMap given
          = [data.take maxChunkSize, data.drop maxChunkSize] := by
  have hdata : data ≠ [] := length_pos_iff.mp (by omega)
  have hrest : data.drop maxChunkSize ≠ [] := by
    rw [ne_eq, drop_eq_nil_iff]
    omega
  have hlast : (data.drop maxChunkSize).length ≤ maxChunkSize := by
    rw [length_drop]
    omega
  let begun : UdpRelay :=
    { UdpRelay.new stream [] with phase := .writing data, received := [data] }
  have hbegun : (UdpRelay.new stream []).step a h (.recv (.ok data)) = begun := by
    change (if data.isEmpty then _ else _) = _
    rw [if_neg (by simpa using hdata)]
    rfl
  have hcut := (((UdpRelay.Cut.new (a := a) (h := h) stream []).step (.recv (.ok data))).step
    atOnce).step atOnce
  rw [foldl_cons, foldl_cons, foldl_cons, foldl_nil]
  rw [hbegun] at hcut ⊢
  rcases begun.step_atOnce ha (h := h) data rfl hdata rfl with
    ⟨hqueue, _, hreceived, haccepted, hphase⟩
  rw [if_neg (by simpa using hrest)] at hphase
  rcases (begun.step a h atOnce).step_atOnce ha (h := h) _ hphase hrest hqueue with
    ⟨hqueue', hwire, hreceived', haccepted', hphase'⟩
  rw [if_pos (by simpa using hlast)] at hphase'
  have hall := hreceived'.trans hreceived
  refine ⟨hall, ?_⟩
  generalize (begun.step a h atOnce).step a h atOnce = s at *
  have hseen := hcut.reads ha client hclient [.ready (.ok s.writer.out.received)]
    (by simpa [Script.Flowing] using hwire.symm) ⟨[], by simp [Script.bytes]⟩
    [65535, 65535, 65535] (by decide)
  have hchunks : s.writer.accepted.length = 2 := by
    rw [haccepted', haccepted]
    rfl
  rw [hseen.right hphase' hqueue' (append_nil _) (by rw [hchunks]; exact Nat.le_refl 3), hall]
  rw [flatMap_singleton, cuts_of_ne_nil (by decide) hdata,
    cuts_of_length_le (by decide) hrest hlast]

def longDatagram : Bytes := replicate 16385 7

theorem vmess_udp_long_datagram_cut
    : ∃ s, s = [UdpEvent.recv (.ok longDatagram), atOnce, atOnce].foldl
          (UdpRelay.step (Aead.ofTable []) someHashes)
          (.new (VmessStream.server someHashes someKey someIv .none 0) [])
      ∧ s.received = [longDatagram]
      ∧ ((deframer (ε := IoError) (Aead.ofTable []) someHashes).run [65535, 65535, 65535]
            (VmessStream.client someHashes someKey someIv .none 0).reader
            [.ready (.ok s.writer.out.received)]).flatMap given
        = [replicate 16384 7, [7]] := by
  have ha : (Aead.ofTable []).Lawful := Aead.lawful_ofTable [] (by decide +kernel)
  have hlength : longDatagram.length = 16385 := length_replicate
  have htake : longDatagram.take maxChunkSize = replicate 16384 7 := take_replicate
  have hdrop : longDatagram.drop maxChunkSize = [7] := drop_replicate
  rcases UdpRelay.seen_in_two ha (h := someHashes)
    (VmessStream.server someHashes someKey someIv .none 0)
    (VmessStream.client someHashes someKey someIv .none 0).reader rfl longDatagram
    (by rw [hlength]; decide) (by rw [hlength]; decide) with ⟨hreceived, hseen⟩
  rw [htake, hdrop] at hseen
  exact ⟨_, rfl, hreceived, hseen⟩

end Blackwire.Vmess
