import Blackwire.Lib.Fill
import Blackwire.Lib.Loop
import Blackwire.Transport.Reality.Impl.Tls13
import Blackwire.Transport.Reality.Flight
import Blackwire.Transport.Reality.Handshake

/-!
This module contains `Tls13Stream`, the stream of application data behind the handshake, what a turn
of its read loop can do, and what an attacker who owns the stream below can do to a reader. Its two
halves share nothing but the stream below. A sequence number has 64 bits, which is as much as
`computeNonce` takes of it.
-/

namespace Blackwire.Reality

open Bytes

inductive RecordError (ε : Type) where
  | unexpectedEof (message : String)
  | invalidData (message : String)
  | connectionReset (message : String)
  | writeZero
  | inner (e : ε)
deriving DecidableEq

-- Record protection does not panic, so only errors are ever displayed.
def failureText : Failure → String
  | .error e => e.text
  | .panic => ""

inductive ReadPhase where
  | plaintext (plainBuf : Bytes)
  | header (headerBuf : Bytes)
  | body (headerBuf bodyBuf : Bytes)

structure ReadHalf where
  cs : CipherSuite
  key : Bytes
  iv : Bytes
  seq : Nat
  readPhase : ReadPhase

structure WriteHalf where
  cs : CipherSuite
  key : Bytes
  iv : Bytes
  seq : Nat
  writeChunkLen : Nat
  uses : List Bytes

structure Tls13Stream where
  reader : ReadHalf
  writer : Outbox WriteHalf UInt8

namespace Tls13Stream

section

variable (p : Primitives) (keys : AppKeys)

-- The source expands the keys here and panics on a key of the wrong length.
def withRole (isServer : Bool) : Option Tls13Stream :=
  if p.aeadKeyOk keys.cs keys.clientKey && p.aeadKeyOk keys.cs keys.serverKey then
    if isServer then
      some ⟨⟨keys.cs, keys.clientKey, keys.clientIv, 0, .header []⟩,
        ⟨⟨keys.cs, keys.serverKey, keys.serverIv, 0, 0, []⟩, [], []⟩⟩
    else
      some ⟨⟨keys.cs, keys.serverKey, keys.serverIv, 0, .header []⟩,
        ⟨⟨keys.cs, keys.clientKey, keys.clientIv, 0, 0, []⟩, [], []⟩⟩
  else
    none

def new : Option Tls13Stream :=
  withRole p keys false

def newServer : Option Tls13Stream :=
  withRole p keys true

end

def directCopyReady (s : Tls13Stream) : Bool :=
  s.writer.queue.isEmpty
    && match s.reader.readPhase with
      | .plaintext _ => true
      | .header headerBuf => headerBuf.isEmpty
      | .body _ _ => false

def tryUnwrapDirect {σ : Type} (s : Tls13Stream) (inner : σ) : Except Tls13Stream (σ × Bytes) :=
  if s.directCopyReady then
    match s.reader.readPhase with
    | .plaintext plainBuf => .ok (inner, plainBuf)
    | _ => .ok (inner, [])
  else
    .error s

end Tls13Stream

def isCloseNotify : Bytes → Bool
  | 1 :: 0 :: _ => true
  | _ => false

namespace ReadHalf

variable {ε : Type}

variable (p : Primitives)

def processRecord (s : ReadHalf) (header body : Bytes)
    : ReadHalf × Option (Except (RecordError ε) Unit) :=
  let recType := header.getD 0 0
  if recType = rtApplicationData then
    match decryptAppRecordWith p s.cs s.key s.iv s.seq body header with
    | .error e => (s, some (.error (.invalidData (failureText e))))
    | .ok (inner, innerType) =>
      let s := { s with seq := s.seq + 1 }
      if innerType = rtApplicationData then
        ({ s with readPhase := .plaintext inner }, none)
      else if innerType = rtAlert then
        if isCloseNotify inner then
          (s, some (.ok ()))
        else
          (s, some (.error (.connectionReset "TLS alert from server")))
      else
        -- A handshake message behind the handshake, or something else.
        ({ s with readPhase := .header [] }, none)
  else if recType = rtChangeCipherSpec then
    ({ s with readPhase := .header [] }, none)
  else if recType = rtAlert then
    if isCloseNotify body then
      (s, some (.ok ()))
    else
      (s, some (.error (.connectionReset "TLS alert (unencrypted)")))
  else
    (s, some (.error (.invalidData ("unexpected TLS record type " ++ hexPadded 2 recType.toNat))))

abbrev Turn (ε : Type) :=
  Loop.Step (ReadHalf × Script UInt8 ε)
    (ReadHalf × Poll (Except (RecordError ε) Bytes) × Script UInt8 ε)

def finish (script : Script UInt8 ε) : ReadHalf × Option (Except (RecordError ε) Unit) → Turn ε
  | (s, none) => .next (s, script)
  | (s, some (.ok ())) => .done (s, .ready (.ok []), script)
  | (s, some (.error e)) => .done (s, .ready (.error e), script)

def stopped (message : String) : Filled ε → Poll (Except (RecordError ε) Bytes)
  | .closed => .ready (.error (.unexpectedEof message))
  | .failed e => .ready (.error (.inner e))
  | _ => .pending

def readBody (s : ReadHalf) (headerBuf bodyBuf : Bytes) (script : Script UInt8 ε) : Turn ε :=
  let (bodyBuf, filled, script) := script.fill (u16At headerBuf 3) bodyBuf
  let s := { s with readPhase := .body headerBuf bodyBuf }
  match filled with
  | .full => finish script (s.processRecord p headerBuf bodyBuf)
  | filled => .done (s, stopped "TLS peer closed mid-record-body" filled, script)

def readHeader (s : ReadHalf) (headerBuf : Bytes) (script : Script UInt8 ε) : Turn ε :=
  let (headerBuf, filled, script) := script.fill 5 headerBuf
  match filled with
  | .full => s.readBody p headerBuf [] script
  | filled =>
    .done ({ s with readPhase := .header headerBuf },
      stopped "TLS peer closed mid-record-header" filled, script)

def turn (cap : Nat) (t : ReadHalf × Script UInt8 ε) : Turn ε :=
  let (s, script) := t
  match s.readPhase with
  | .plaintext plainBuf =>
    if plainBuf.isEmpty then
      s.readHeader p [] script
    else
      let n := min plainBuf.length cap
      .done ({ s with readPhase := .plaintext (plainBuf.drop n) }, .ready (.ok (plainBuf.take n)),
        script)
  | .header headerBuf => s.readHeader p headerBuf script
  | .body headerBuf bodyBuf => s.readBody p headerBuf bodyBuf script

def pollRead (cap : Nat) (s : ReadHalf) (script : Script UInt8 ε)
    : ReadHalf × Poll (Except (RecordError ε) Bytes) × Script UInt8 ε :=
  (Loop.run (turn p cap) (script.bytes.length + 2) (s, script)).getD (s, .pending, script)

end ReadHalf

namespace WriteHalf

variable {ε : Type}

def drained (o : Outbox WriteHalf UInt8) (answers : List (Poll (Except (RecordError ε) Nat)))
    : Outbox WriteHalf UInt8 × Poll (Except (RecordError ε) Nat) :=
  match o.drain .writeZero answers with
  | (o, .ready (.ok ()), _) =>
    ({ o with core := { o.core with writeChunkLen := 0 } }, .ready (.ok o.core.writeChunkLen))
  | (o, .ready (.error e), _) => (o, .ready (.error e))
  | (o, .pending, _) => (o, .pending)

def pollWrite (p : Primitives) (o : Outbox WriteHalf UInt8) (buf : Bytes)
    (answers : List (Poll (Except (RecordError ε) Nat)))
    : Outbox WriteHalf UInt8 × Poll (Except (RecordError ε) Nat) :=
  if !o.queue.isEmpty then
    -- The record of an earlier call comes first, and it is what this call reports.
    drained o answers
  else if buf.isEmpty then
    (o, .ready (.ok 0))
  else
    let chunkLen := min buf.length 16384
    let core := { o.core with writeChunkLen := chunkLen }
    match encryptAppRecordWith p core.cs core.key core.iv core.seq (buf.take chunkLen)
        rtApplicationData with
    | .error e => ({ o with core := core }, .ready (.error (.invalidData (failureText e))))
    | .ok record =>
      let uses := core.uses ++ [computeNonce core.iv core.seq]
      drained { o with core := { core with seq := core.seq + 1, uses := uses }, queue := record }
        answers

end WriteHalf

open List

open Script (Moved)

namespace ReadPhase

def avail : ReadPhase → Bytes
  | plaintext plainBuf => plainBuf
  | _ => []

def raw : ReadPhase → Bytes
  | plaintext _ => []
  | header headerBuf => headerBuf
  | body headerBuf bodyBuf => headerBuf ++ bodyBuf

def Fits : ReadPhase → Prop
  | plaintext _ => True
  | header headerBuf => headerBuf.length ≤ 5
  | body headerBuf bodyBuf => headerBuf.length = 5 ∧ bodyBuf.length ≤ u16At headerBuf 3

def started : ReadPhase → Nat
  | plaintext _ => 0
  | header headerBuf => min headerBuf.length 1
  | body _ _ => 1

theorem fits_of_started {phase : ReadPhase} (h : phase.started = 0)
    : phase.Fits ∧ phase.raw = [] := by
  match phase with
  | plaintext _ => exact ⟨trivial, rfl⟩
  | header headerBuf =>
    simp only [started] at h
    have hempty : headerBuf = [] := length_eq_zero_iff.mp (by omega)
    subst hempty
    exact ⟨Nat.zero_le _, rfl⟩

end ReadPhase

structure Stopped {ε : Type} (before : ReadPhase) (script : Script UInt8 ε) (after : ReadPhase)
    (result : Poll (Except (RecordError ε) Bytes)) (rest : Script UInt8 ε) : Prop where
  moved : Moved before.raw script after.raw rest
  avail : after.avail = []
  fits : before.Fits → after.Fits ∧ readRecord after.raw = none
  fewer : rest.length < script.length ∨ rest = []
  result : result = .pending
    ∨ (∃ e, result = .ready (.error (.inner e)) ∧ .ready (.error e) ∈ script)
    ∨ (∃ message, result = .ready (.error (.unexpectedEof message)) ∧ ¬script.Flowing)

structure Completed {ε : Type} (before : ReadPhase) (script : Script UInt8 ε) (r : Record)
    (rest : Script UInt8 ε) : Prop where
  moved : Moved before.raw script r.wire rest
  fits : before.Fits → r.header.length = 5 ∧ r.body.length = u16At r.header 3

namespace ReadHalf

variable {ε : Type}

inductive Turned (p : Primitives) (cap : Nat) (s : ReadHalf) (script : Script UInt8 ε)
    : Turn ε → Prop where
  | serves (plainBuf : Bytes) (hphase : s.readPhase = .plaintext plainBuf) (hne : plainBuf ≠ [])
    : Turned p cap s script
        (.done
          ({ s with readPhase := .plaintext (plainBuf.drop (min plainBuf.length cap)) },
            .ready (.ok (plainBuf.take (min plainBuf.length cap))), script))
  | stops (phase : ReadPhase) (result : Poll (Except (RecordError ε) Bytes))
      (rest : Script UInt8 ε) (havail : s.readPhase.avail = [])
      (hstopped : Stopped s.readPhase script phase result rest)
    : Turned p cap s script (.done ({ s with readPhase := phase }, result, rest))
  | processes (r : Record) (rest : Script UInt8 ε) (havail : s.readPhase.avail = [])
      (hcompleted : Completed s.readPhase script r rest)
    : Turned p cap s script
        (finish rest
          ({ s with readPhase := .body r.header r.body }.processRecord p r.header r.body))

theorem stopped_cases {message : String} {script : Script UInt8 ε} {len : Nat} {buf : Bytes}
    {out : Bytes × Filled ε × Script UInt8 ε} (h : Script.Fills len buf script out)
    : stopped message out.snd.fst = .pending
      ∨ (∃ e, stopped message out.snd.fst = .ready (.error (.inner e))
        ∧ .ready (.error e) ∈ script)
      ∨ (∃ text, stopped message out.snd.fst = .ready (.error (.unexpectedEof text))
        ∧ ¬script.Flowing) := by
  match hfilled : out.snd.fst with
  | .full => exact .inl rfl
  | .waits => exact .inl rfl
  | .closed => exact .inr (.inr ⟨message, rfl, fun hflowing => hflowing (h.closed hfilled)⟩)
  | .failed e => exact .inr (.inl ⟨e, rfl, h.failed e hfilled⟩)

section

variable {p : Primitives} {cap : Nat} {s : ReadHalf} {script : Script UInt8 ε}

theorem stopped_of_fills {before : ReadPhase} {after : ReadPhase} {rest : Script UInt8 ε}
    {len : Nat}
    {front buf : Bytes} {out : Bytes × Filled ε × Script UInt8 ε}
    (hmoved : Moved before.raw script (front ++ buf) rest) (hfills : Script.Fills len buf rest out)
    (hfull : out.snd.fst ≠ .full) {message : String} (hraw : after.raw = front ++ out.fst)
    (havail : after.avail = []) (hfits : before.Fits → after.Fits ∧ readRecord after.raw = none)
    : Stopped before script after (stopped message out.snd.fst) out.snd.snd where
  moved := by
    rw [hraw]
    exact hmoved.trans (.of_fills hfills front)
  avail := havail
  fits := hfits
  fewer := hmoved.fewer (hfills.fewer hfull)
  result := by
    rcases stopped_cases hfills with hpending | ⟨e, hfailed, hmem⟩ | ⟨text, hclosed, hmem⟩
    . exact .inl hpending
    . exact .inr (.inl ⟨e, hfailed, hmoved.errors e hmem⟩)
    . exact .inr (.inr ⟨text, hclosed, fun hflowing => hmem (hmoved.flowing hflowing)⟩)

theorem turned_readBody {rest : Script UInt8 ε} (havail : s.readPhase.avail = [])
    {headerBuf bodyBuf : Bytes}
    (hmoved : Moved s.readPhase.raw script (headerBuf ++ bodyBuf) rest)
    (hfits : s.readPhase.Fits → headerBuf.length = 5 ∧ bodyBuf.length ≤ u16At headerBuf 3)
    : Turned p cap s script (s.readBody p headerBuf bodyBuf rest) := by
  have hfills := rest.fill_fills (u16At headerBuf 3) bodyBuf
  unfold readBody
  generalize rest.fill (u16At headerBuf 3) bodyBuf = out at hfills
  rcases out with ⟨bodyBuf', filled, last⟩
  dsimp only
  split
  . refine .processes ⟨headerBuf, bodyBuf'⟩ last havail ⟨?_, ?_⟩
    . exact hmoved.trans (.of_fills hfills headerBuf)
    . exact fun h => ⟨(hfits h).left, hfills.length_eq (hfits h).right rfl⟩
  . next hfull =>
    have hshort := hfills.length_lt hfull
    have hfits' (h : s.readPhase.Fits)
        : (ReadPhase.body headerBuf bodyBuf').Fits ∧ readRecord (headerBuf ++ bodyBuf') = none :=
      ⟨⟨(hfits h).left, Nat.le_of_lt hshort⟩, readRecord_of_short_body (hfits h).left hshort⟩
    exact .stops _ _ _ havail (stopped_of_fills hmoved hfills hfull rfl rfl hfits')

theorem turned_readHeader (havail : s.readPhase.avail = []) (hraw : s.readPhase.raw = headerBuf)
    (hfits : s.readPhase.Fits → headerBuf.length ≤ 5)
    : Turned p cap s script (s.readHeader p headerBuf script) := by
  have hfills := script.fill_fills 5 headerBuf
  have hmoved : Moved s.readPhase.raw script ([] ++ headerBuf) script := by
    rw [hraw]
    exact .refl _ _
  unfold readHeader
  generalize script.fill 5 headerBuf = out at hfills
  rcases out with ⟨headerBuf', filled, rest⟩
  dsimp only
  split
  . apply turned_readBody havail
    . rw [append_nil]
      exact hmoved.trans (.of_fills hfills [])
    . exact fun h => ⟨hfills.length_eq (hfits h) rfl, Nat.zero_le _⟩
  . next hfull =>
    have hshort := hfills.length_lt hfull
    have hfits' (_ : s.readPhase.Fits)
        : (ReadPhase.header headerBuf').Fits ∧ readRecord headerBuf' = none :=
      ⟨Nat.le_of_lt hshort, if_pos hshort⟩
    exact .stops _ _ _ havail (stopped_of_fills hmoved hfills hfull rfl rfl hfits')

variable (p cap s script) in
theorem turned_turn : Turned p cap s script (turn p cap (s, script)) := by
  unfold turn
  dsimp only
  split
  next plainBuf hphase =>
    split
    next hempty =>
      have hempty : plainBuf = [] := by simpa using hempty
      subst hempty
      apply turned_readHeader
      . rw [hphase]
        rfl
      . rw [hphase]
        rfl
      . exact fun _ => Nat.zero_le _
    next hne => exact .serves plainBuf hphase (by simpa using hne)
  next headerBuf hphase =>
    apply turned_readHeader
    . rw [hphase]
      rfl
    . rw [hphase]
      rfl
    . rw [hphase]
      exact id
  next headerBuf bodyBuf hphase =>
    apply turned_readBody
    . rw [hphase]
      rfl
    . rw [hphase]
      exact .refl _ _
    . rw [hphase]
      exact id

end

inductive Processed (p : Primitives) (s : ReadHalf) (r : Record)
    : ReadHalf × Option (Except (RecordError ε) Unit) → Prop where
  | data (content : Bytes) (htype : r.type = rtApplicationData)
      (hopen : decryptAppRecordWith p s.cs s.key s.iv s.seq r.body r.header
        = .ok (content, rtApplicationData))
    : Processed p s r ({ s with seq := s.seq + 1, readPhase := .plaintext content }, none)
  | closes (content : Bytes) (htype : r.type = rtApplicationData)
      (hopen : decryptAppRecordWith p s.cs s.key s.iv s.seq r.body r.header
        = .ok (content, rtAlert))
      (hclose : isCloseNotify content = true)
    : Processed p s r ({ s with seq := s.seq + 1 }, some (.ok ()))
  | alerts (content : Bytes) (e : RecordError ε) (htype : r.type = rtApplicationData)
      (hopen : decryptAppRecordWith p s.cs s.key s.iv s.seq r.body r.header
        = .ok (content, rtAlert))
    : Processed p s r ({ s with seq := s.seq + 1 }, some (.error e))
  | skips (content : Bytes) (innerType : UInt8) (htype : r.type = rtApplicationData)
      (hopen : decryptAppRecordWith p s.cs s.key s.iv s.seq r.body r.header
        = .ok (content, innerType))
      (hdata : innerType ≠ rtApplicationData)
    : Processed p s r ({ s with seq := s.seq + 1, readPhase := .header [] }, none)
  | ignores (htype : r.type = rtChangeCipherSpec)
    : Processed p s r ({ s with readPhase := .header [] }, none)
  | plainCloses (htype : r.type = rtAlert) (hclose : isCloseNotify r.body = true)
    : Processed p s r (s, some (.ok ()))
  | refuses (e : RecordError ε) : Processed p s r (s, some (.error e))

theorem processed_processRecord (p : Primitives) (s : ReadHalf) (r : Record)
    : Processed p s r (s.processRecord (ε := ε) p r.header r.body) := by
  unfold processRecord
  dsimp only
  split
  next htype =>
    split
    next e hopen => exact .refuses _
    next content innerType hopen =>
      split
      next hdata =>
        subst hdata
        exact .data content htype hopen
      next hdata =>
        split
        next halert =>
          subst halert
          split
          next hclose => exact .closes content htype hopen hclose
          next => exact .alerts content _ htype hopen
        next => exact .skips content innerType htype hopen hdata
  next =>
    split
    next htype => exact .ignores htype
    split
    next htype =>
      split
      next hclose => exact .plainCloses htype hclose
      next => exact .refuses _
    next => exact .refuses _

theorem Processed.started (h : Processed (ε := ε) p s r (s', none)) : s'.readPhase.started = 0 := by
  cases h with
  | data => rfl
  | skips => rfl
  | ignores => rfl

section

variable {p : Primitives}

theorem turn_lt (t t' : ReadHalf × Script UInt8 ε) (h : turn p cap t = .next t')
    : t'.snd.bytes.length + t'.fst.readPhase.started
        < t.snd.bytes.length + t.fst.readPhase.started := by
  rcases t with ⟨s, script⟩
  have hturned := turned_turn p cap s script
  rw [h] at hturned
  generalize hnext : Loop.Step.next t' = next at hturned
  cases hturned with
  | serves => cases hnext
  | stops => cases hnext
  | processes r rest havail hcompleted =>
    rcases hcompleted.moved.taken with ⟨more, hwire, hbytes⟩
    have hlength : more.length + rest.bytes.length = script.bytes.length := by
      rw [← hbytes, length_append]
    have hmore : s.readPhase.started = 0 → 5 ≤ more.length := by
      intro hstarted
      rcases s.readPhase.fits_of_started hstarted with ⟨hfits, hraw⟩
      have hheader := (hcompleted.fits hfits).left
      have hwires := congrArg List.length hwire
      rw [hraw, Record.wire, length_append, nil_append] at hwires
      omega
    have hprocessed := processed_processRecord (ε := ε) p
      { s with readPhase := .body r.header r.body } r
    generalize processRecord p _ r.header r.body = processed at hnext hprocessed
    match processed with
    | (s', some (.ok ())) => cases hnext
    | (s', some (.error e)) => cases hnext
    | (s', none) =>
      have hstarted := hprocessed.started
      cases hnext
      dsimp only
      omega

variable (p cap) in
theorem run_turn
    : Loop.run (turn p cap) (script.bytes.length + 2) (s, script)
        = some (s.pollRead p cap script) := by
  have hstarted : s.readPhase.started ≤ 1 := by
    unfold ReadPhase.started
    split <;> omega
  have hrun : ∃ result,
      Loop.run (turn p cap) (script.bytes.length + 2) (s, script) = some result := by
    apply Loop.run_of_measure turn_lt
    dsimp only
    omega
  rcases hrun with ⟨result, hrun⟩
  unfold pollRead
  rw [hrun]
  rfl

theorem pollRead_invariant (inv : ReadHalf → Script UInt8 ε → Prop) (s : ReadHalf)
    (script : Script UInt8 ε) (hstart : inv s script)
    (hinv : ∀ s script s' script', inv s script → turn p cap (s, script) = .next (s', script') →
      inv s' script')
    : ∃ s' script', inv s' script'
        ∧ turn p cap (s', script') = .done (s.pollRead p cap script) := by
  rcases Loop.run_eq_some _ _ _ (run_turn p cap) with
    ⟨⟨s', script'⟩, hreach, hdone⟩
  refine ⟨s', script', ?_, hdone⟩
  apply Loop.Reaches.invariant (fun t => inv t.fst t.snd) (s, script) (s', script') hstart _ hreach
  intro t t' ht hturn
  exact hinv t.fst t.snd t'.fst t'.snd ht hturn

end

end ReadHalf

structure ReadSession (ε : Type) where
  reader : ReadHalf
  script : Script UInt8 ε
  log : List (Poll (Except (RecordError ε) Bytes))

namespace ReadSession

variable {ε : Type}

def start (reader : ReadHalf) (script : Script UInt8 ε) : ReadSession ε :=
  ⟨reader, script, []⟩

def step (p : Primitives) (s : ReadSession ε) (cap : Nat) : ReadSession ε :=
  let (reader, result, script) := s.reader.pollRead p cap s.script
  ⟨reader, script, s.log ++ [result]⟩

def data : Poll (Except (RecordError ε) Bytes) → Bytes
  | .ready (.ok bytes) => bytes
  | _ => []

@[simp]
theorem data_ok (bytes : Bytes) : data (ε := ε) (.ready (.ok bytes)) = bytes :=
  rfl

@[simp]
theorem data_error (e : RecordError ε) : data (.ready (.error e)) = [] :=
  rfl

@[simp]
theorem data_pending : data (ε := ε) .pending = [] :=
  rfl

def returned (s : ReadSession ε) : Bytes :=
  s.log.flatMap data

theorem returned_step (p : Primitives) (s : ReadSession ε) (cap : Nat)
    : (s.step p cap).returned
        = s.returned ++ data (s.reader.pollRead p cap s.script).snd.fst := by
  unfold returned step
  rw [flatMap_append, flatMap_singleton]

end ReadSession

open Machine

structure SentRecord where
  header : Bytes
  plaintext : Bytes
deriving DecidableEq

def closeNotified : Res (Bytes × UInt8) → Bool
  | .ok (content, innerType) => innerType = rtAlert && isCloseNotify content
  | .error _ => false

namespace SentRecord

def data (r : SentRecord) : Bytes :=
  match splitInnerPlaintext r.plaintext with
  | .ok (content, innerType) => if innerType = rtApplicationData then content else []
  | .error _ => []

def closes (r : SentRecord) : Bool :=
  closeNotified (splitInnerPlaintext r.plaintext)

end SentRecord

/--
An ideal cipher opens under this key what the peer has sealed, with the nonce of its place, and
nothing else.
-/
def Primitives.OpensOnly (p : Primitives) (cs : CipherSuite) (key iv : Bytes)
    (sent : List SentRecord) : Prop :=
  ∀ nonce header body plaintext, p.aeadOpen cs key nonce header body = some plaintext →
    ∃ i, sent[i]? = some ⟨header, plaintext⟩ ∧ nonce = computeNonce iv i

-- An alert that ends the stream although nobody has sealed it.
def Record.plainClose (r : Record) : Bool :=
  r.type = rtAlert && isCloseNotify r.body

def recordsWithin (fuel : Nat) (bytes : Bytes) : List Record :=
  match fuel with
  | 0 => []
  | fuel + 1 =>
    match readRecord bytes with
    | none => []
    | some (r, rest) => r :: recordsWithin fuel rest

def records (bytes : Bytes) : List Record :=
  recordsWithin bytes.length bytes

theorem recordsWithin_eq (fuel fuel' : Nat) (bytes : Bytes) (h : bytes.length ≤ fuel)
    (h' : bytes.length ≤ fuel')
    : recordsWithin fuel bytes = recordsWithin fuel' bytes := by
  induction fuel generalizing bytes fuel' with
  | zero =>
    obtain rfl : bytes = [] := length_eq_zero_iff.mp (by omega)
    cases fuel' with
    | zero => rfl
    | succ fuel' => rfl
  | succ fuel ih =>
    cases fuel' with
    | zero =>
      obtain rfl : bytes = [] := length_eq_zero_iff.mp (by omega)
      rfl
    | succ fuel' =>
      unfold recordsWithin
      split
      next => rfl
      next r rest hread =>
        have hrest := readRecord_length bytes rest r hread
        rw [ih fuel' rest (by omega) (by omega)]

theorem records_wire (hheader : r.header.length = 5) (hbody : r.body.length = u16At r.header 3)
    (rest : Bytes)
    : records (r.wire ++ rest) = r :: records rest := by
  have hread := readRecord_wire hheader hbody rest
  have hlength := readRecord_length _ _ _ hread
  unfold records
  cases hfuel : (r.wire ++ rest).length with
  | zero => omega
  | succ fuel =>
    rw [recordsWithin, hread]
    dsimp only
    rw [recordsWithin_eq fuel rest.length rest (by omega) (Nat.le_refl _)]

theorem decryptAppRecordWith_eq_ok (p : Primitives) (cs : CipherSuite) (key iv : Bytes)
    (seq : Nat) (body header : Bytes) (result : Bytes × UInt8)
    : decryptAppRecordWith p cs key iv seq body header = .ok result
        ↔ ∃ plaintext, p.aeadOpen cs key (computeNonce iv seq) header body = some plaintext
          ∧ splitInnerPlaintext plaintext = .ok result := by
  unfold decryptAppRecordWith
  split
  next hopen => simp [hopen, fail]
  next plaintext hopen => simp [hopen]

def ReadHalf.closed (p : Primitives) (s : ReadHalf) : Bool :=
  match s.readPhase with
  | .body headerBuf bodyBuf =>
    headerBuf.getD 0 0 = rtApplicationData && s.seq ≠ 0
      && closeNotified (decryptAppRecordWith p s.cs s.key s.iv (s.seq - 1) bodyBuf headerBuf)
  | _ => false

structure Guarded {ε : Type} (key : ReadHalf) (sent : List SentRecord) (returned : Bytes)
    (s : ReadHalf) (script : Script UInt8 ε) : Prop where
  keys : s.cs = key.cs ∧ s.key = key.key ∧ s.iv = key.iv
  bound : s.seq ≤ sent.length
  plain : returned ++ s.readPhase.avail = (sent.take s.seq).flatMap SentRecord.data
  fits : s.readPhase.Fits
  clean : ∀ r ∈ records (s.readPhase.raw ++ script.bytes), r.plainClose = false

namespace Guarded

open ReadSession

variable {ε : Type} {key : ReadHalf} {returned : Bytes} {s : ReadHalf}
  {script rest : Script UInt8 ε}

theorem stop (h : Guarded key sent returned s script) (havail : s.readPhase.avail = [])
    (hstopped : Stopped s.readPhase script phase result rest)
    : Guarded key sent returned { s with readPhase := phase } rest where
  keys := h.keys
  bound := h.bound
  plain := by
    rw [hstopped.avail, ← havail, h.plain]
  fits := (hstopped.fits h.fits).left
  clean := by
    rw [hstopped.moved.bytes]
    exact h.clean

theorem complete (h : Guarded key sent returned s script) (havail : s.readPhase.avail = [])
    (hcompleted : Completed s.readPhase script r rest)
    : Guarded key sent returned { s with readPhase := .body r.header r.body } rest where
  keys := h.keys
  bound := h.bound
  plain := by
    rw [← h.plain, havail]
    rfl
  fits := by
    rcases hcompleted.fits h.fits with ⟨hheader, hbody⟩
    exact ⟨hheader, Nat.le_of_eq hbody⟩
  clean := by
    have hbytes := hcompleted.moved.bytes
    rw [Record.wire] at hbytes
    dsimp only [ReadPhase.raw]
    rw [hbytes]
    exact h.clean

section

variable {p : Primitives} (hideal : p.OpensOnly key.cs key.key key.iv sent)
  (hiv : key.iv.length = 12) (hroom : sent.length < 2 ^ 64)

include hideal hiv hroom

theorem opened (h : Guarded key sent returned s script) (hseq : seq ≤ s.seq)
    (hopen : decryptAppRecordWith p s.cs s.key s.iv seq body header = .ok result)
    : ∃ r, sent[seq]? = some r ∧ splitInnerPlaintext r.plaintext = .ok result := by
  rcases h.keys with ⟨hcs, hkey, hiv'⟩
  have hbound := h.bound
  rw [decryptAppRecordWith_eq_ok, hcs, hkey, hiv'] at hopen
  rcases hopen with ⟨plaintext, hopen, hsplit⟩
  rcases hideal _ _ _ _ hopen with ⟨i, hsent, hnonce⟩
  have hi : i < sent.length := (List.getElem?_eq_some_iff.mp hsent).fst
  rw [computeNonce_eq_iff _ hiv, Nat.mod_eq_of_lt (by omega), Nat.mod_eq_of_lt (by omega)] at hnonce
  rw [hnonce]
  exact ⟨_, hsent, hsplit⟩

theorem advance (h : Guarded key sent returned s script) (havail : s.readPhase.avail = [])
    (phase : ReadPhase)
    (hopen : decryptAppRecordWith p s.cs s.key s.iv s.seq body header = .ok (content, innerType))
    (hphase : phase.avail = if innerType = rtApplicationData then content else [])
    (hfits : phase.Fits) (hclean : ∀ r ∈ records (phase.raw ++ rest.bytes), r.plainClose = false)
    : Guarded key sent returned { s with seq := s.seq + 1, readPhase := phase } rest := by
  rcases h.opened hideal hiv hroom (Nat.le_refl _) hopen with ⟨r, hsent, hsplit⟩
  have hdata : r.data = phase.avail := by
    rw [hphase, SentRecord.data, hsplit]
  have hplain := h.plain
  rw [havail, append_nil] at hplain
  refine ⟨h.keys, (List.getElem?_eq_some_iff.mp hsent).fst, ?_, hfits, hclean⟩
  rw [take_add_one, hsent, flatMap_append, hplain]
  simp [hdata]

end

variable (p : Primitives)

def Kept (key : ReadHalf) (sent : List SentRecord) (returned : Bytes) : ReadHalf.Turn ε → Prop
  | .next (s, script) => Guarded key sent returned s script
  | .done (s, result, script) =>
    Guarded key sent (returned ++ data result) s script
      ∧ (result = .ready (.ok []) → s.closed p = true)

variable {p} (hideal : p.OpensOnly key.cs key.key key.iv sent) (hiv : key.iv.length = 12)
  (hroom : sent.length < 2 ^ 64)

theorem kept_error (h : Guarded key sent returned s script)
    : Kept p key sent returned (.done (s, .ready (.error e), script)) := by
  refine ⟨?_, fun hend => by cases hend⟩
  rw [data_error, append_nil]
  exact h

include hideal hiv hroom

theorem kept_processRecord {r : Record}
    (h : Guarded key sent returned { s with readPhase := .body r.header r.body } rest)
    (hheader : r.header.length = 5) (hbody : r.body.length = u16At r.header 3)
    : Kept p key sent returned
        (ReadHalf.finish rest
          ({ s with readPhase := .body r.header r.body }.processRecord p r.header r.body)) := by
  have hclean : ∀ r' ∈ records (r.wire ++ rest.bytes), r'.plainClose = false := h.clean
  have hrest : ∀ r' ∈ records rest.bytes, r'.plainClose = false := by
    rw [records_wire hheader hbody] at hclean
    exact fun r' hr' => hclean r' (mem_cons_of_mem _ hr')
  have hprocessed := ReadHalf.processed_processRecord (ε := ε) p
    { s with readPhase := .body r.header r.body } r
  generalize ReadHalf.processRecord p _ r.header r.body = processed at hprocessed
  cases hprocessed with
  | data content htype hopen =>
    exact h.advance hideal hiv hroom rfl (.plaintext content) hopen rfl trivial hrest
  | closes content htype hopen hclose =>
    have hnext := h.advance hideal hiv hroom rfl (.body r.header r.body) hopen rfl h.fits
      h.clean
    refine ⟨?_, fun _ => ?_⟩
    . rw [data_ok, append_nil]
      exact hnext
    . have htype' : r.header.getD 0 0 = rtApplicationData := htype
      simp [ReadHalf.closed, hopen, closeNotified, hclose, ← htype']
  | alerts content e htype hopen =>
    apply kept_error
    exact h.advance hideal hiv hroom rfl (.body r.header r.body) hopen rfl h.fits h.clean
  | skips content innerType htype hopen hdata =>
    apply h.advance hideal hiv hroom rfl (.header []) hopen _ (Nat.zero_le _) hrest
    rw [if_neg hdata]
    rfl
  | ignores htype => exact ⟨h.keys, h.bound, h.plain, Nat.zero_le _, hrest⟩
  | plainCloses htype hclose =>
    rw [records_wire hheader hbody] at hclean
    have hplain := hclean r mem_cons_self
    simp [Record.plainClose, htype, hclose] at hplain
  | refuses e => exact kept_error h

variable (hcap : 0 < cap)

include hcap

theorem kept_turn (h : Guarded key sent returned s script)
    : Kept p key sent returned (ReadHalf.turn p cap (s, script)) := by
  have hturned := ReadHalf.turned_turn p cap s script
  generalize ReadHalf.turn p cap (s, script) = out at hturned
  cases hturned with
  | serves plainBuf hphase hne =>
    have hplain := h.plain
    rw [hphase] at hplain
    refine ⟨⟨h.keys, h.bound, ?_, trivial, ?_⟩, ?_⟩
    . rw [data_ok, ← hplain, append_assoc]
      dsimp only [ReadPhase.avail]
      rw [take_append_drop]
    . have hclean := h.clean
      rw [hphase] at hclean
      exact hclean
    . intro hend
      simp only [Poll.ready.injEq, Except.ok.injEq, take_eq_nil_iff] at hend
      have hlength := length_pos_iff.mpr hne
      simp only [hne, or_false] at hend
      omega
  | stops phase result rest havail hstopped =>
    have hnext := h.stop havail hstopped
    rcases hstopped.result with rfl | ⟨e, rfl, _⟩ | ⟨message, rfl, _⟩
    . refine ⟨?_, fun hend => by cases hend⟩
      rw [data_pending, append_nil]
      exact hnext
    . exact kept_error hnext
    . exact kept_error hnext
  | processes r rest havail hcompleted =>
    rcases hcompleted.fits h.fits with ⟨hheader, hbody⟩
    exact kept_processRecord hideal hiv hroom (h.complete havail hcompleted) hheader hbody

theorem kept_pollRead (h : Guarded key sent returned s script)
    : Kept p key sent returned (.done (s.pollRead p cap script)) := by
  rcases ReadHalf.pollRead_invariant (Guarded key sent returned) s script h
    (fun s script s' script' h hturn => by
      have hkept := kept_turn hideal hiv hroom hcap h
      rw [hturn] at hkept
      exact hkept) with ⟨s', script', h', hdone⟩
  rw [← hdone]
  exact kept_turn hideal hiv hroom hcap h'

end Guarded

structure Secured {ε : Type} (p : Primitives) (key : ReadHalf) (sent : List SentRecord)
    (t : ReadSession ε) : Prop where
  guarded : Guarded key sent t.returned t.reader t.script
  closed : .ready (.ok []) ∈ t.log → t.reader.closed p = true
  last : ∀ before after, t.log = before ++ .ready (.ok []) :: after → after = []

section

variable {ε : Type} {p : Primitives} {key : ReadHalf}
  (hideal : p.OpensOnly key.cs key.key key.iv sent) (hiv : key.iv.length = 12)
  (hroom : sent.length < 2 ^ 64)

include hideal hiv hroom

theorem Secured.step (h : Secured p key sent t) (hcap : 0 < cap) (hopen : t.reader.closed p = false)
    : Secured p key sent (t.step p cap) := by
  have hkept := h.guarded.kept_pollRead hideal hiv hroom hcap
  have hbefore : .ready (.ok []) ∉ t.log := by
    intro hend
    rw [h.closed hend] at hopen
    cases hopen
  refine ⟨?_, ?_, ?_⟩
  . rw [ReadSession.returned_step]
    exact hkept.left
  . intro hend
    rcases mem_append.mp hend with hend | hend
    . exact absurd hend hbefore
    . exact hkept.right (mem_singleton.mp hend).symm
  . intro before after hlog
    rcases eq_nil_or_concat after with rfl | ⟨front, result, rfl⟩
    . rfl
    have hsplit : t.log ++ [(t.reader.pollRead p cap t.script).snd.fst]
        = (before ++ .ready (.ok []) :: front) ++ [result] := by
      rw [concat_eq_append] at hlog
      rw [append_assoc]
      exact hlog
    have hfront := append_inj_left' hsplit rfl
    rw [hfront] at hbefore
    simp at hbefore

theorem Guarded.closes_of_closed (h : Guarded key sent returned s script)
    (hclosed : s.closed p = true)
    : ∃ i r, i < s.seq ∧ sent[i]? = some r ∧ r.closes = true := by
  unfold ReadHalf.closed at hclosed
  split at hclosed
  next headerBuf bodyBuf hphase =>
    simp only [decide_not, Bool.and_eq_true, Bool.not_eq_true', decide_eq_false_iff_not]
      at hclosed
    rcases hclosed with ⟨⟨_, hseq⟩, hnotified⟩
    match hopen : decryptAppRecordWith p s.cs s.key s.iv (s.seq - 1) bodyBuf headerBuf with
    | .error e =>
      rw [hopen] at hnotified
      cases hnotified
    | .ok result =>
      rcases h.opened hideal hiv hroom (Nat.sub_le _ _) hopen with ⟨r, hsent, hsplit⟩
      refine ⟨s.seq - 1, r, by omega, hsent, ?_⟩
      rw [SentRecord.closes, hsplit, ← hopen]
      exact hnotified
  next => cases hclosed

end

def ReadSession.enabled {ε : Type} (p : Primitives) (t : ReadSession ε) (cap : Nat) : Prop :=
  0 < cap ∧ t.reader.closed p = false

instance {ε : Type} (p : Primitives) (t : ReadSession ε) (cap : Nat)
    : Decidable (t.enabled p cap) :=
  inferInstanceAs (Decidable (_ ∧ _))

theorem Tls13Stream.withRole_reader {p : Primitives} {keys : AppKeys} {isServer : Bool}
    {stream : Tls13Stream} (h : Tls13Stream.withRole p keys isServer = some stream)
    : stream.reader.seq = 0 ∧ stream.reader.readPhase = .header []
      ∧ stream.reader.iv = if isServer then keys.clientIv else keys.serverIv := by
  unfold Tls13Stream.withRole at h
  split at h
  next =>
    split at h
    next hserver =>
      cases h
      rw [if_pos hserver]
      exact ⟨rfl, rfl, rfl⟩
    next hserver =>
      cases h
      rw [if_neg hserver]
      exact ⟨rfl, rfl, rfl⟩
  next => cases h

theorem tls13_stream_truncation {ε : Type} (p : Primitives) (keys : AppKeys)
    (hclient : keys.clientIv.length = 12) (hserver : keys.serverIv.length = 12) (isServer : Bool)
    (stream : Tls13Stream) (hnew : Tls13Stream.withRole p keys isServer = some stream)
    (sent : List SentRecord) (hroom : sent.length < 2 ^ 64)
    (hideal : p.OpensOnly stream.reader.cs stream.reader.key stream.reader.iv sent)
    (script : Script UInt8 ε) (hclean : ∀ r ∈ records script.bytes, r.plainClose = false)
    (t : ReadSession ε)
    (ht : Reach (ReadSession.step p) (ReadSession.enabled p)
      (.start stream.reader script) t)
    : t.returned <+: sent.flatMap SentRecord.data
      ∧ (.ready (.ok []) ∈ t.log →
        ∃ i r, i < t.reader.seq ∧ sent[i]? = some r ∧ r.closes = true)
      ∧ (∀ before after, t.log = before ++ .ready (.ok []) :: after →
        ∀ result ∈ after, result = .ready (.ok [])) := by
  rcases Tls13Stream.withRole_reader hnew with ⟨hseq, hphase, hiv⟩
  have hlength : stream.reader.iv.length = 12 := by
    rw [hiv]
    split
    next => exact hclient
    next => exact hserver
  have hstart : Secured p stream.reader sent (.start stream.reader script) := by
    refine ⟨⟨⟨rfl, rfl, rfl⟩, ?_, ?_, ?_, ?_⟩, ?_, ?_⟩
    . exact hseq ▸ Nat.zero_le _
    . simp [ReadSession.start, ReadSession.returned, hseq, hphase, ReadPhase.avail]
    . simp [ReadSession.start, hphase, ReadPhase.Fits]
    . simpa [ReadSession.start, hphase, ReadPhase.raw] using hclean
    . simp [ReadSession.start]
    . simp [ReadSession.start]
  have hsecured := ht.invariant (Secured p stream.reader sent) _ _ hstart
    (fun t cap h he => h.step hideal hlength hroom he.left he.right)
  refine ⟨?_, ?_, ?_⟩
  . have hfront : t.returned <+: (sent.take t.reader.seq).flatMap SentRecord.data :=
      ⟨_, hsecured.guarded.plain⟩
    apply hfront.trans
    conv => rhs; rw [← take_append_drop t.reader.seq sent, flatMap_append]
    apply prefix_append
  . intro hend
    exact hsecured.guarded.closes_of_closed hideal hlength hroom (hsecured.closed hend)
  . intro before after hlog result hresult
    rw [hsecured.last before after hlog] at hresult
    cases hresult

structure KnownRecord where
  cs : CipherSuite
  key : Bytes
  nonce : Bytes
  header : Bytes
  plaintext : Bytes
  body : Bytes

def Primitives.withRecords (p : Primitives) (table : List KnownRecord) : Primitives where
  __ := p
  aeadKeyOk cs key := decide (key.length = cs.keyLen)
  aeadOpen cs key nonce header body :=
    (table.find? fun e => e.cs = cs ∧ e.key = key ∧ e.nonce = nonce ∧ e.header = header
      ∧ e.body = body).map KnownRecord.plaintext
  aeadSeal cs key nonce header plaintext :=
    match table.find? fun e => e.cs = cs ∧ e.key = key ∧ e.nonce = nonce ∧ e.header = header
      ∧ e.plaintext = plaintext with
    | some e => e.body
    | none => plaintext ++ noTag

theorem opensOnly_withRecords {p : Primitives} (h : ∀ e ∈ table, e.cs = cs → e.key = key →
      ∃ i, i < sent.length ∧ sent[i]? = some ⟨e.header, e.plaintext⟩ ∧ e.nonce = computeNonce iv i)
    : (p.withRecords table).OpensOnly cs key iv sent := by
  intro nonce header body plaintext hopen
  dsimp only [Primitives.withRecords] at hopen
  rw [Option.map_eq_some_iff] at hopen
  rcases hopen with ⟨e, hfind, rfl⟩
  have hfound := find?_some hfind
  simp only [decide_eq_true_eq] at hfound
  rcases hfound with ⟨hcs, hkey, rfl, rfl, rfl⟩
  rcases h e (mem_of_find?_eq_some hfind) hcs hkey with ⟨i, _, hsent, hnonce⟩
  exact ⟨i, hsent, hnonce⟩

def knownKeys : AppKeys :=
  ⟨.aes128GcmSha256, replicate 16 5, replicate 12 4, replicate 16 7,
    replicate 12 3⟩

-- What AES-128-GCM makes of a record with two bytes of data and of a close_notify.
def knownRecords : List KnownRecord :=
  [⟨.aes128GcmSha256, replicate 16 7, [3, 3, 3, 3, 3, 3, 3, 3, 3, 3, 3, 3], [23, 3, 3, 0, 19],
      [104, 105, 23],
      [146, 14, 45, 148, 90, 251, 69, 183, 209, 147, 32, 179, 66, 96, 195, 18, 12, 42, 224]⟩,
    ⟨.aes128GcmSha256, replicate 16 7, [3, 3, 3, 3, 3, 3, 3, 3, 3, 3, 3, 2], [23, 3, 3, 0, 19],
      [1, 0, 21],
      [119, 61, 169, 170, 177, 136, 241, 227, 205, 242, 163, 196, 220, 193, 237, 202, 208, 213,
        226]⟩]

def knownPrimitives : Primitives :=
  plainPrimitives.withRecords knownRecords

def knownScript : Script UInt8 Unit :=
  let wire := knownRecords.flatMap fun e => e.header ++ e.body
  [.ready (.ok (wire.take 4)), .pending, .ready (.ok (wire.drop 4))]

def knownReader : ReadHalf :=
  ⟨.aes128GcmSha256, replicate 16 7, replicate 12 3, 0, .header []⟩

def knownSent : List SentRecord :=
  knownRecords.map fun e => ⟨e.header, e.plaintext⟩

theorem tls13_stream_truncation_closed
    : let t := [16, 1, 16, 16].foldl (ReadSession.step knownPrimitives)
        (.start knownReader knownScript)
      t.log = [.pending, .ready (.ok [104]), .ready (.ok [105]), .ready (.ok [])]
        ∧ t.returned <+: [104, 105]
        ∧ ∃ i r, i < t.reader.seq ∧ knownSent[i]? = some r ∧ r.closes = true := by
  intro t
  have hlog : t.log = [.pending, .ready (.ok [104]), .ready (.ok [105]), .ready (.ok [])] := by
    decide +kernel
  have hreach : Reach (ReadSession.step knownPrimitives)
      (ReadSession.enabled knownPrimitives) (.start knownReader knownScript) t :=
    Reach.foldl _ [16, 1, 16, 16] .start (by decide +kernel)
  rcases tls13_stream_truncation knownPrimitives knownKeys (by decide) (by decide) false
    ⟨knownReader, ⟨⟨.aes128GcmSha256, replicate 16 5, replicate 12 4, 0, 0, []⟩, [], []⟩⟩
    (by rfl) knownSent (by decide)
    (opensOnly_withRecords (by decide +kernel)) knownScript (by decide +kernel) t hreach
    with ⟨hfront, hend, _⟩
  refine ⟨hlog, hfront, hend ?_⟩
  decide

theorem tls13_stream_ends_unsealed
    : (plainPrimitives.withRecords []).OpensOnly knownReader.cs knownReader.key knownReader.iv []
      ∧ ([16].foldl (ReadSession.step (plainPrimitives.withRecords []))
          (.start (ε := Unit) knownReader [.ready (.ok [0x15, 3, 3, 0, 2, 1, 0])])).log
        = [.ready (.ok [])]
      ∧ knownPrimitives.OpensOnly knownReader.cs knownReader.key knownReader.iv knownSent
      ∧ ([16, 16, 16, 16].foldl (ReadSession.step knownPrimitives)
          (.start knownReader knownScript)).log
        = [.pending, .ready (.ok [104, 105]), .ready (.ok []),
          .ready (.error (.invalidData "protocol error: TLS 1.3 record decrypt failed"))] := by
  refine ⟨?_, by decide +kernel, ?_, by decide +kernel⟩
  . exact opensOnly_withRecords (by decide +kernel)
  . exact opensOnly_withRecords (by decide +kernel)

end Blackwire.Reality
